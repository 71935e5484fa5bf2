import Skirmish.Game.Mode
import Skirmish.Geometry.Vec2
import Skirmish.Ident.Uuid
import Skirmish.Json.Value

/-!
# Messages from clients

What a client can ask for: join or create a room, leave it, toggle its ready state, steer its
player, and ping. Each variant (`ClientMsg.Kind`) goes on the wire under its declared name in
snake case; `ClientMsg.types` is the list of those names kept by hand beside the variants.
`ClientMsg.toJson` writes a message back in the wire shape, every optional field present and
`null` when absent; unit messages have no payload.
-/

namespace Skirmish

/-- Movement intent and skill use for one tick. -/
structure PlayerInput where
  /-- Desired direction; zero stops the player. -/
  movement : Option Vec2
  /-- Facing in degrees. -/
  rotation : Option Float32
  skillId : Option Nat
  /-- Where the skill is aimed. -/
  target : Option Vec2

/-- A request to create a room; absent settings take the mode's defaults. -/
structure CreateRoom where
  name : String
  mode : GameMode
  maxPlayers : Option Nat
  mapId : Option Nat
  timeLimitSecs : Option Float32
  scoreLimit : Option Nat
  friendlyFire : Option Bool
  isPrivate : Option Bool
  characterId : Nat

/-- A message from a client. -/
inductive ClientMsg where
  | joinRoom (roomId : Uuid) (characterId : Nat)
  | createRoom (request : CreateRoom)
  | leaveRoom
  | ready
  | unready
  | playerInput (input : PlayerInput)
  | ping (t : Nat)

/-- A name in snake case: an underscore before every capital letter but a leading one, and every
letter in lower case. -/
def snakeCase (name : String) : String :=
  String.ofList (go true name.toList)
where
  /-- The letters of a name, `first` telling whether the name starts here. -/
  go : Bool → List Char → List Char
    | _, [] => []
    | first, c :: cs =>
      (if c.isUpper && !first then ['_', c.toLower] else [c.toLower]) ++ go false cs

/-- The variants of a client message, without their data. -/
inductive ClientMsg.Kind where
  | joinRoom
  | createRoom
  | leaveRoom
  | ready
  | unready
  | playerInput
  | ping
  deriving Repr, DecidableEq

namespace ClientMsg.Kind

/-- Every variant, in declaration order. -/
def all : List Kind := [.joinRoom, .createRoom, .leaveRoom, .ready, .unready, .playerInput, .ping]

/-- The declared name of a variant, which diagnoses quote. -/
def name : Kind → String
  | .joinRoom => "JoinRoom"
  | .createRoom => "CreateRoom"
  | .leaveRoom => "LeaveRoom"
  | .ready => "Ready"
  | .unready => "Unready"
  | .playerInput => "PlayerInput"
  | .ping => "Ping"

/-- The name of a variant on the wire: its declared name in snake case. -/
def wireName (k : Kind) : String := snakeCase k.name

end ClientMsg.Kind

namespace ClientMsg

/-- The wire names of the message types, kept by hand beside the variants. -/
def types : List String :=
  ["join_room", "create_room", "leave_room", "ready", "unready", "player_input", "ping"]

/-- The variant of a message. -/
def kind : ClientMsg → Kind
  | .joinRoom .. => .joinRoom
  | .createRoom _ => .createRoom
  | .leaveRoom => .leaveRoom
  | .ready => .ready
  | .unready => .unready
  | .playerInput _ => .playerInput
  | .ping _ => .ping

/-- The wire name of a message. -/
def type (m : ClientMsg) : String := m.kind.wireName

/-- A vector in its wire shape. -/
def vecJson (v : Vec2) : Json := .object [("x", .single v.x), ("y", .single v.y)]

/-- The payload of a message, for messages that have one. -/
def payload? : ClientMsg → Option Json
  | .joinRoom r c => some (.object [("room_id", .string r.text), ("character_id", .nat c)])
  | .createRoom c => some (.object [("name", .string c.name), ("mode", .string c.mode.name),
      ("max_players", .optional Json.nat c.maxPlayers), ("map_id", .optional Json.nat c.mapId),
      ("time_limit_secs", .optional Json.single c.timeLimitSecs),
      ("score_limit", .optional Json.nat c.scoreLimit),
      ("friendly_fire", .optional Json.bool c.friendlyFire),
      ("private", .optional Json.bool c.isPrivate), ("character_id", .nat c.characterId)])
  | .playerInput i => some (.object [("movement", .optional vecJson i.movement),
      ("rotation", .optional Json.single i.rotation), ("skill_id", .optional Json.nat i.skillId),
      ("target", .optional vecJson i.target)])
  | .ping t => some (.object [("t", .nat t)])
  | _ => none

/-- A message in its wire shape. -/
def toJson (m : ClientMsg) : Json :=
  match m.payload? with
  | some p => .object [("type", .string m.type), ("payload", p)]
  | none => .object [("type", .string m.type)]

end ClientMsg

end Skirmish
