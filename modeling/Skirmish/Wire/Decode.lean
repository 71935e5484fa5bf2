import Skirmish.Json.Typed
import Skirmish.Wire.ClientMsg

/-!
# Decoding client messages

A client message is an object with a `type` naming the message's variant by its wire name and a
`payload` holding its data, in either order. Other keys are skipped, and a repeated `type` or `payload` is refused. A
list of the two also reads as a message. When the payload comes first, it is read whole and held,
then read by its shape once the type is known. Then its failures are placed where the reading of
the object stops.

The payload of each type: `join_room` and `create_room` and `ping` are records read only from
objects; `player_input` is a record read from an object or from a list of its fields in order;
`leave_room`, `ready` and `unready` carry nothing and take no payload or `null`. Optional fields
are absent or `null`; `character_id` defaults to `1`. A message without a payload is a message
of a type that carries nothing, or fails with ``missing field `payload` ``.

`ClientMsg.decode` reads a text as a message. When that fails, the text is read as an envelope
holding just a string `type`. A type on the list `ClientMsg.types` means the message was
malformed, with the first failure. Any other type means the type is unknown. When even the envelope
cannot be read, the envelope's failure is the diagnosis.
-/

namespace Skirmish

open Json Typed

/-- Reads a vector: an object with `x` and `y`, or the list `[x, y]`. -/
def readVec2 : Source → Reader Vec2 :=
  visit {
    expecting := "struct Vec2"
    unit := none
    map := some (readStruct
      [⟨"x", fun src v => do pure { v with x := ← f32 src }⟩,
       ⟨"y", fun src v => do pure { v with y := ← f32 src }⟩] Vec2.zero ["x", "y"])
    seq := some fun items => do
      match ← items.next with
      | none => throw (invalidLength 0 "struct Vec2 with 2 elements")
      | some (src, items) =>
        let x ← f32 src
        match ← items.next with
        | none => throw (invalidLength 1 "struct Vec2 with 2 elements")
        | some (src, items) => pure (⟨x, ← f32 src⟩, items) }

/-- The fields of a player's input, all optional. -/
def inputFields : List (RecordField PlayerInput) :=
  [⟨"movement", fun src i => do pure { i with movement := ← option readVec2 src }⟩,
   ⟨"rotation", fun src i => do pure { i with rotation := ← option f32 src }⟩,
   ⟨"skill_id", fun src i => do pure { i with skillId := ← option u32 src }⟩,
   ⟨"target", fun src i => do pure { i with target := ← option readVec2 src }⟩]

/-- Input with nothing in it. -/
def PlayerInput.empty : PlayerInput := ⟨none, none, none, none⟩

/-- Reads a player's input: an object, or a list of up to four fields in order. -/
def readInput : Source → Reader PlayerInput :=
  visit {
    expecting := "struct PlayerInput"
    unit := none
    map := some (readStruct inputFields PlayerInput.empty [])
    seq := some fun items => do
      let (movement, items) ← items.read? (option readVec2)
      let (rotation, items) ← items.read? (option f32)
      let (skillId, items) ← items.read? (option u32)
      let (target, items) ← items.read? (option readVec2)
      pure (⟨movement.join, rotation.join, skillId.join, target.join⟩, items) }

/-- A payload read only from an object, for the message named `variant`. -/
def recordPayload {σ : Type} (variant : String) (fields : List (RecordField σ)) (init : σ)
    (required : List String) : Source → Reader σ :=
  visit ⟨"struct variant ClientMsg::" ++ variant, none, some (readStruct fields init required),
    none⟩

/-- The payload of a message that carries nothing: none, or `null`. -/
def emptyPayload (variant : String) (m : ClientMsg) : Source → Reader ClientMsg :=
  visit ⟨"unit variant ClientMsg::" ++ variant, some m, none, none⟩

/-- A room creation request with only its name and mode. -/
def CreateRoom.bare : CreateRoom := ⟨"", .deathMatch, none, none, none, none, none, none, 1⟩

/-- The fields of a room creation request. -/
def createFields : List (RecordField CreateRoom) :=
  [⟨"name", fun src c => do pure { c with name := ← string src }⟩,
   ⟨"mode", fun src c => do pure { c with mode := ← unitVariant GameMode.all GameMode.name src }⟩,
   ⟨"max_players", fun src c => do pure { c with maxPlayers := ← option usize src }⟩,
   ⟨"map_id", fun src c => do pure { c with mapId := ← option u32 src }⟩,
   ⟨"time_limit_secs", fun src c => do pure { c with timeLimitSecs := ← option f32 src }⟩,
   ⟨"score_limit", fun src c => do pure { c with scoreLimit := ← option u32 src }⟩,
   ⟨"friendly_fire", fun src c => do pure { c with friendlyFire := ← option boolean src }⟩,
   ⟨"private", fun src c => do pure { c with isPrivate := ← option boolean src }⟩,
   ⟨"character_id", fun src c => do pure { c with characterId := ← u32 src }⟩]

/-- Reads a UUID from its text. -/
def readUuid : Source → Reader Uuid :=
  stringWith "a UUID string" fun s =>
    match Uuid.parse s with
    | .ok u => .ok u
    | .error e => .error (loose ("UUID parsing failed: " ++ e.message))

/-- Reads the payload of a message of variant `k`. -/
def readPayload (k : ClientMsg.Kind) (src : Source) : Reader ClientMsg :=
  match k with
  | .joinRoom => do
    let (room, character) ← recordPayload ClientMsg.Kind.joinRoom.name
      [⟨"room_id", fun src r => do pure (← readUuid src, r.2)⟩,
       ⟨"character_id", fun src r => do pure (r.1, ← u32 src)⟩] (Uuid.nil, 1) ["room_id"] src
    pure (.joinRoom room character)
  | .createRoom =>
    ClientMsg.createRoom <$> recordPayload ClientMsg.Kind.createRoom.name createFields
      CreateRoom.bare ["name", "mode"] src
  | .leaveRoom => emptyPayload ClientMsg.Kind.leaveRoom.name .leaveRoom src
  | .ready => emptyPayload ClientMsg.Kind.ready.name .ready src
  | .unready => emptyPayload ClientMsg.Kind.unready.name .unready src
  | .playerInput => ClientMsg.playerInput <$> readInput src
  | .ping => ClientMsg.ping <$> recordPayload ClientMsg.Kind.ping.name
      [⟨"t", fun src _ => u64 src⟩] 0 ["t"] src

/-- The message of variant `k` when no payload came. -/
def withoutPayload : ClientMsg.Kind → Except ReadError ClientMsg
  | .leaveRoom => .ok .leaveRoom
  | .ready => .ok .ready
  | .unready => .ok .unready
  | _ => .error (missingField "payload")

/-- The next member that is the `type` (`true`) or the `payload` (`false`); others are
skipped. -/
def nextPart (e : Entries) : Reader (Option (Bool × Entries)) := do
  go e (← e.fuel)
where
  /-- Skips members for at most `fuel` rounds. -/
  go : Entries → Nat → Reader (Option (Bool × Entries))
    | _, 0 => pure none
    | e, fuel + 1 => do
      match ← e.key with
      | none => pure none
      | some ("type", e) => pure (some (true, e))
      | some ("payload", e) => pure (some (false, e))
      | some (_, e) =>
        let (src, e) ← e.value
        ignore src
        go e fuel

/-- After both parts: no third may come. -/
def noMoreParts (e : Entries) (m : ClientMsg) : Reader ClientMsg := do
  match ← nextPart e with
  | some (true, _) => throw (duplicateField "type")
  | some (false, _) => throw (duplicateField "payload")
  | none => pure m

/-- Reads the type of a message: the wire name of one of its variants. -/
def readTag : Source → Reader ClientMsg.Kind :=
  variantName ClientMsg.Kind.all ClientMsg.Kind.wireName

/-- Reads a message from the members of an object. -/
def readTagged (e : Entries) : Reader ClientMsg := do
  match ← nextPart e with
  | none => throw (missingField "type")
  | some (true, e) =>
    let (src, e) ← e.value
    let tag ← readTag src
    match ← nextPart e with
    | some (true, _) => throw (duplicateField "type")
    | some (false, e) =>
      let (src, e) ← e.value
      let m ← readPayload tag src
      noMoreParts e m
    | none => MonadExcept.ofExcept (withoutPayload tag)
  | some (false, e) =>
    let (src, e) ← e.value
    let payload ← hold src
    match ← nextPart e with
    | some (true, e) =>
      let (src, e) ← e.value
      let tag ← readTag src
      let m ← readPayload tag (.held payload)
      noMoreParts e m
    | some (false, _) => throw (duplicateField "payload")
    | none => throw (missingField "type")

/-- Reads a message: an object of its parts, or the list `[type, payload]`. -/
def readClientMsg : Source → Reader ClientMsg :=
  visit {
    expecting := "adjacently tagged enum ClientMsg"
    unit := none
    map := some readTagged
    seq := some fun items => do
      match ← items.next with
      | none => throw (invalidLength 0 "adjacently tagged enum ClientMsg")
      | some (src, items) =>
        let tag ← readTag src
        match ← items.next with
        | none => throw (invalidLength 1 "adjacently tagged enum ClientMsg")
        | some (src, items) => pure (← readPayload tag src, items) }

/-- Reads the type of any message, whatever its payload. -/
def readEnvelope : Source → Reader String :=
  visit {
    expecting := "struct Envelope"
    unit := none
    map := some (readStruct [⟨"type", fun src _ => string src⟩] "" ["type"])
    seq := some fun items => do
      match ← items.next with
      | none => throw (invalidLength 0 "struct Envelope with 1 element")
      | some (src, items) => pure (← string src, items) }

/-- Why a text is not a message. -/
inductive DecodeError where
  /-- A message of a type no client sends. -/
  | unknownType (type : String)
  /-- A text that is no message of its type. -/
  | malformed (e : ReadError)

namespace DecodeError

/-- The name of the kind of failure. -/
def kind : DecodeError → String
  | .unknownType _ => "UnknownMessageType"
  | .malformed _ => "Serialization"

/-- The diagnosis. -/
def message : DecodeError → String
  | .unknownType t => "Unknown message type: " ++ t
  | .malformed e => "Malformed message: " ++ e.text

end DecodeError

/-- Reads a text as a client message. -/
def ClientMsg.decode (text : String) : Except DecodeError ClientMsg :=
  match readWhole readClientMsg text with
  | .ok m => .ok m
  | .error e =>
    match readWhole readEnvelope text with
    | .error e => .error (.malformed e)
    | .ok type => .error (if ClientMsg.types.contains type then .malformed e else .unknownType type)

end Skirmish
