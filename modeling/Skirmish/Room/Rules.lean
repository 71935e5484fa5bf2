import Skirmish.Game.Mode

/-!
# Room rules and room errors

A room is configured by its name, mode, seat count, map and rules. `RoomConfig.validate` refuses
settings under which a game could never start or would end at once, checking in this order: the
seat count must lie between `2` and `16`, the time limit must be finite and positive, and the
score limit must not be zero.
-/

namespace Skirmish

/-- Fewest seats with which a ready check can start a game. -/
def minPlayersToStart : Nat := 2

/-- Most seats a room may have. -/
def maxPlayersPerRoom : Nat := 16

/-- Health of every player. -/
def playerMaxHealth : Int := 100

/-- Milliseconds an empty room may stay idle before it is swept. -/
def idleTimeoutMs : Nat := 300000

/-- Milliseconds an ended room stays before it is swept. -/
def endedGraceMs : Nat := 120000

/-- The rules of a match. -/
structure RoomRules where
  timeLimitSecs : Float32
  scoreLimit : Nat
  friendlyFire : Bool
  isPrivate : Bool

/-- Five minutes, first to twenty, no friendly fire, listed publicly. -/
def RoomRules.default : RoomRules := ⟨300, 20, false, false⟩

/-- The parameters of a new room. -/
structure RoomConfig where
  name : String
  mode : GameMode
  maxPlayers : Nat
  mapId : Nat
  rules : RoomRules

/-- A room of a mode with that mode's seat count, map `1` and the default rules. -/
def RoomConfig.new (name : String) (mode : GameMode) : RoomConfig :=
  ⟨name, mode, mode.requiredPlayers, 1, RoomRules.default⟩

/-- The reasons a room operation is refused. -/
inductive RoomError where
  | roomFull
  | roomClosed
  | alreadyInRoom
  | notInRoom
  | notFound
  | capacityReached
  | invalidPlayerLimit
  | invalidTimeLimit
  | invalidScoreLimit
  deriving Repr, DecidableEq

namespace RoomError

/-- The machine-readable code. -/
def code : RoomError → String
  | .roomFull => "room_full"
  | .roomClosed => "room_closed"
  | .alreadyInRoom => "already_in_room"
  | .notInRoom => "not_in_room"
  | .notFound => "room_not_found"
  | .capacityReached => "capacity_reached"
  | .invalidPlayerLimit => "invalid_player_limit"
  | .invalidTimeLimit => "invalid_time_limit"
  | .invalidScoreLimit => "invalid_score_limit"

/-- The text shown to the player. -/
def message : RoomError → String
  | .roomFull => "Room is full"
  | .roomClosed => "Room is no longer accepting players"
  | .alreadyInRoom => "Already in a room"
  | .notInRoom => "Not in a room"
  | .notFound => "Room not found"
  | .capacityReached => "Server room capacity reached"
  | .invalidPlayerLimit =>
    "Player limit must be between " ++ toString minPlayersToStart ++ " and " ++
      toString maxPlayersPerRoom
  | .invalidTimeLimit => "Time limit must be positive"
  | .invalidScoreLimit => "Score limit must be positive"

end RoomError

/-- Checks a configuration: seats, then time limit, then score limit. -/
def RoomConfig.validate (c : RoomConfig) : Except RoomError Unit :=
  if !(minPlayersToStart ≤ c.maxPlayers ∧ c.maxPlayers ≤ maxPlayersPerRoom) then
    throw .invalidPlayerLimit
  else if !c.rules.timeLimitSecs.isFinite || c.rules.timeLimitSecs ≤ 0 then
    throw .invalidTimeLimit
  else if c.rules.scoreLimit = 0 then throw .invalidScoreLimit
  else pure ()

end Skirmish
