import Skirmish.Game.Entity
import Skirmish.Room.Rules
import Skirmish.Ident.Uuid
import Skirmish.Json.Value
import Skirmish.Clock

/-!
# Messages to clients

Every message travels as an object `{"type": …, "payload": {…}}` with the snake-case name of the
message and its fields. Vectors are `{"x": …, "y": …}`, ids are hyphenated UUID strings, score
maps are objects keyed by the player id written in decimal, and times of day are RFC 3339
strings. Optional fields of an entity snapshot are left out when absent; other absent values
are `null`.
-/

namespace Skirmish

/-- A room as listed and as announced to a joining player. -/
structure RoomSummary where
  id : Uuid
  name : String
  mode : GameMode
  status : RoomStatus
  players : Nat
  maxPlayers : Nat
  mapId : Nat
  isPrivate : Bool
  createdAt : Nat

/-- A seated player. -/
structure PlayerInfo where
  playerId : Int
  entityId : Nat
  characterId : Nat
  team : Team
  ready : Bool

/-- A projectile hit, as reported in a frame. -/
structure CollisionEvent where
  /-- The projectile. -/
  entityA : Nat
  /-- The player. -/
  entityB : Nat
  position : Vec2
  normal : Vec2
  damage : Int

/-- A kill, as reported in a frame. -/
structure KillEvent where
  killer : Option Int
  victim : Int
  assists : List Int
  position : Vec2

/-- The state of an entity in a frame. -/
structure EntitySnapshot where
  id : Nat
  type : EntityType
  position : Vec2
  rotation : Float32
  velocity : Vec2
  playerId : Option Int
  health : Option Int
  alive : Option Bool
  team : Option Team
  /-- The firing player of a projectile, the triggering entity of an effect. -/
  ownerId : Option Nat
  effect : Option EffectKind

/-- One simulation frame. -/
structure FramePayload where
  frameId : Nat
  timestamp : Nat
  collisions : List CollisionEvent
  kills : List KillEvent
  scores : List (Int × Nat)
  remainingTime : Float32
  entities : List EntitySnapshot

/-- A player's final tally. -/
structure PlayerTally where
  playerId : Int
  characterId : Nat
  team : Team
  score : Nat
  kills : Nat
  deaths : Nat
  assists : Nat

/-- A message to a client. -/
inductive ServerMsg where
  | welcome (connectionId : Uuid) (playerId : Int) (serverTime : Nat)
  | roomJoined (room : RoomSummary) (entityId : Nat) (team : Team) (players : List PlayerInfo)
  | roomLeft (roomId : Uuid)
  | playerJoined (player : PlayerInfo)
  | playerLeft (playerId : Int) (entityId : Nat)
  | matchFound (roomId : Uuid) (name : String) (mode : GameMode) (maxPlayers mapId : Nat)
  | gameStart (roomId : Uuid) (players : List PlayerInfo) (rules : RoomRules) (startedAt : Nat)
  | frame (payload : FramePayload)
  | gameEnd (roomId : Uuid) (reason : EndReason) (scores : List (Int × Nat))
      (players : List PlayerTally) (durationSecs : Float32)
  | error (code message : String)
  | pong (t serverTime : Nat)

/-- The finished match handed to the statistics service. -/
structure MatchResult where
  roomId : Uuid
  roomName : String
  mode : GameMode
  mapId : Nat
  reason : EndReason
  startedAt : Option Nat
  endedAt : Nat
  durationSecs : Float32
  players : List PlayerTally

namespace Json

/-- A vector. -/
def vec2 (v : Vec2) : Json := .object [("x", .single v.x), ("y", .single v.y)]

/-- A UUID. -/
def uuid (u : Uuid) : Json := .string u.text

/-- A score map. -/
def scores (s : List (Int × Nat)) : Json := .object (s.map fun (k, v) => (toString k, .nat v))

end Json

/-- The JSON of a room summary. -/
def RoomSummary.toJson (r : RoomSummary) : Json :=
  .object [("id", .uuid r.id), ("name", .string r.name), ("mode", .string r.mode.name),
    ("status", .string r.status.name), ("players", .nat r.players),
    ("max_players", .nat r.maxPlayers), ("map_id", .nat r.mapId), ("private", .bool r.isPrivate),
    ("created_at", .string (rfc3339 r.createdAt))]

/-- The JSON of a seated player. -/
def PlayerInfo.toJson (p : PlayerInfo) : Json :=
  .object [("player_id", .int p.playerId), ("entity_id", .nat p.entityId),
    ("character_id", .nat p.characterId), ("team", .string p.team.name), ("ready", .bool p.ready)]

/-- The JSON of room rules. -/
def RoomRules.toJson (r : RoomRules) : Json :=
  .object [("time_limit_secs", .single r.timeLimitSecs), ("score_limit", .nat r.scoreLimit),
    ("friendly_fire", .bool r.friendlyFire), ("private", .bool r.isPrivate)]

/-- The JSON of a hit. -/
def CollisionEvent.toJson (c : CollisionEvent) : Json :=
  .object [("entity_a", .nat c.entityA), ("entity_b", .nat c.entityB),
    ("position", .vec2 c.position), ("normal", .vec2 c.normal), ("damage", .int c.damage)]

/-- The JSON of a kill. -/
def KillEvent.toJson (k : KillEvent) : Json :=
  .object [("killer", .optional Json.int k.killer), ("victim", .int k.victim),
    ("assists", .array (k.assists.map Json.int)), ("position", .vec2 k.position)]

/-- The JSON of an entity snapshot; absent optional fields are left out. -/
def EntitySnapshot.toJson (e : EntitySnapshot) : Json :=
  let opt {α : Type} (key : String) (f : α → Json) : Option α → List (String × Json)
    | some a => [(key, f a)]
    | none => []
  .object ([("id", .nat e.id), ("type", .string e.type.name), ("position", .vec2 e.position),
    ("rotation", .single e.rotation), ("velocity", .vec2 e.velocity)] ++
    opt "player_id" Json.int e.playerId ++ opt "health" Json.int e.health ++
    opt "alive" Json.bool e.alive ++ opt "team" (fun t => .string t.name) e.team ++
    opt "owner_id" Json.nat e.ownerId ++ opt "effect" (fun f => .string f.name) e.effect)

/-- The JSON of a frame's payload. -/
def FramePayload.toJson (f : FramePayload) : Json :=
  .object [("frame_id", .nat f.frameId), ("timestamp", .nat f.timestamp),
    ("collisions", .array (f.collisions.map CollisionEvent.toJson)),
    ("kills", .array (f.kills.map KillEvent.toJson)), ("scores", .scores f.scores),
    ("remaining_time", .single f.remainingTime),
    ("entities", .array (f.entities.map EntitySnapshot.toJson))]

/-- The JSON of a tally. -/
def PlayerTally.toJson (t : PlayerTally) : Json :=
  .object [("player_id", .int t.playerId), ("character_id", .nat t.characterId),
    ("team", .string t.team.name), ("score", .nat t.score), ("kills", .nat t.kills),
    ("deaths", .nat t.deaths), ("assists", .nat t.assists)]

/-- A message object. -/
def envelope (type : String) (payload : List (String × Json)) : Json :=
  .object [("type", .string type), ("payload", .object payload)]

/-- The JSON of a message. -/
def ServerMsg.toJson : ServerMsg → Json
  | .welcome c p t => envelope "welcome"
      [("connection_id", .uuid c), ("player_id", .int p), ("server_time", .nat t)]
  | .roomJoined r e t ps => envelope "room_joined"
      [("room", r.toJson), ("entity_id", .nat e), ("team", .string t.name),
        ("players", .array (ps.map PlayerInfo.toJson))]
  | .roomLeft r => envelope "room_left" [("room_id", .uuid r)]
  | .playerJoined p => envelope "player_joined" [("player", p.toJson)]
  | .playerLeft p e => envelope "player_left" [("player_id", .int p), ("entity_id", .nat e)]
  | .matchFound r n m mp mi => envelope "match_found"
      [("room_id", .uuid r), ("name", .string n), ("mode", .string m.name),
        ("max_players", .nat mp), ("map_id", .nat mi)]
  | .gameStart r ps rules t => envelope "game_start"
      [("room_id", .uuid r), ("players", .array (ps.map PlayerInfo.toJson)),
        ("rules", rules.toJson), ("started_at", .nat t)]
  | .frame f => .object [("type", .string "frame"), ("payload", f.toJson)]
  | .gameEnd r reason s ps d => envelope "game_end"
      [("room_id", .uuid r), ("reason", .string reason.name), ("scores", .scores s),
        ("players", .array (ps.map PlayerTally.toJson)), ("duration_secs", .single d)]
  | .error c m => envelope "error" [("code", .string c), ("message", .string m)]
  | .pong t s => envelope "pong" [("t", .nat t), ("server_time", .nat s)]

/-- The JSON of a match result. -/
def MatchResult.toJson (m : MatchResult) : Json :=
  .object [("room_id", .uuid m.roomId), ("room_name", .string m.roomName),
    ("mode", .string m.mode.name), ("map_id", .nat m.mapId), ("reason", .string m.reason.name),
    ("started_at", .optional (fun t => .string (rfc3339 t)) m.startedAt),
    ("ended_at", .string (rfc3339 m.endedAt)), ("duration_secs", .single m.durationSecs),
    ("players", .array (m.players.map PlayerTally.toJson))]

end Skirmish
