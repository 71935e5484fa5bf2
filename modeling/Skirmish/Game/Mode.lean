/-!
# Game modes

Four modes can be queued for. Death match is every player for themselves; the other three
split players into the red and the blue team. Each mode has the number of players matchmaking
gathers before it opens a room.
-/

namespace Skirmish

/-- A game mode. -/
inductive GameMode where
  | deathMatch
  | teamDeathMatch
  | capturePoint
  | flagCapture
  deriving Repr, DecidableEq, Inhabited

namespace GameMode

/-- Every mode, in the order matchmaking visits them. -/
def all : List GameMode := [.deathMatch, .teamDeathMatch, .capturePoint, .flagCapture]

/-- Players needed before matchmaking opens a room. -/
def requiredPlayers : GameMode → Nat
  | .deathMatch => 4
  | .teamDeathMatch => 6
  | .capturePoint => 8
  | .flagCapture => 6

/-- Whether players are split into teams. -/
def isTeamBased : GameMode → Bool
  | .deathMatch => false
  | _ => true

/-- The wire name, which is also how a mode is displayed. -/
def name : GameMode → String
  | .deathMatch => "death_match"
  | .teamDeathMatch => "team_death_match"
  | .capturePoint => "capture_point"
  | .flagCapture => "flag_capture"

/-- The position of a mode in `all`. -/
def index : GameMode → Nat
  | .deathMatch => 0
  | .teamDeathMatch => 1
  | .capturePoint => 2
  | .flagCapture => 3

end GameMode

/-- The lifecycle of a room. -/
inductive RoomStatus where
  | waiting
  | playing
  | ended
  deriving Repr, DecidableEq

/-- The wire name of a status. -/
def RoomStatus.name : RoomStatus → String
  | .waiting => "waiting"
  | .playing => "playing"
  | .ended => "ended"

/-- Why a game ended. -/
inductive EndReason where
  | timeLimit
  | scoreLimit
  | terminated
  deriving Repr, DecidableEq

/-- The wire name of an end reason. -/
def EndReason.name : EndReason → String
  | .timeLimit => "time_limit"
  | .scoreLimit => "score_limit"
  | .terminated => "terminated"

end Skirmish
