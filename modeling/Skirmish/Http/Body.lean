import Skirmish.Http.Message
import Skirmish.Json.Typed
import Skirmish.Game.Mode

/-!
# JSON request bodies

`jsonBody` reads a request's body as a value of a known shape. A request whose content type is
not JSON is refused before its body is looked at (415). Then the body is read from its start
with the shape's typed reader; what follows the value is not looked at. A failure of the text
itself — malformed JSON or an early end — is a bad request (400); well-formed JSON that is not a
value of the shape is unprocessable (422). The text of either names, before the failure, the
path of members and items it was found in, when it was found inside one.

The matchmaking requests are records: joining names a mode, with a character that defaults to
`1` and an optional session; leaving names a mode. Either may also come as a list of its fields
in order.
-/

namespace Skirmish.Http

open Json Typed

/-- Why a request's body was not read. -/
inductive BodyRejection where
  /-- The request does not say its body is JSON. -/
  | notJson
  /-- The body is no well-formed JSON text. -/
  | malformed (text : String)
  /-- The body is JSON, but no value of the shape. -/
  | unfit (text : String)
  deriving Repr, DecidableEq

/-- The response refusing a body. -/
def BodyRejection.response : BodyRejection → Response
  | .notJson => .plain 415 "Expected request with `Content-Type: application/json`"
  | .malformed t => .plain 400 ("Failed to parse the request body as JSON: " ++ t)
  | .unfit t => .plain 422 ("Failed to deserialize the JSON body into the target type: " ++ t)

/-- Reads a request's JSON body with a typed reader. -/
def jsonBody {α : Type} (read : Source → Reader α) (r : Request) : Except BodyRejection α :=
  if !r.hasJsonBody then .error .notJson
  else
    match Reader.run (read (.text startDepth)) (Cursor.ofString r.body) with
    | .ok a => .ok a
    | .error e => .error (if e.malformed then .malformed e.located else .unfit e.located)

/-- A request to join a mode's queue. -/
structure JoinRequest where
  characterId : Nat
  mode : GameMode
  sessionId : Option String

/-- A request to leave a mode's queue. -/
structure LeaveRequest where
  mode : GameMode

/-- Reads a game mode. -/
def readMode : Source → Reader GameMode := unitVariant GameMode.all GameMode.name

/-- The fields of a join request. -/
def joinFields : List (RecordField JoinRequest) :=
  [⟨"character_id", fun src q => do pure { q with characterId := ← u32 src }⟩,
   ⟨"mode", fun src q => do pure { q with mode := ← readMode src }⟩,
   ⟨"session_id", fun src q => do pure { q with sessionId := ← option string src }⟩]

/-- Reads a join request: an object, or a list of its fields of which only the mode must come. -/
def readJoin : Source → Reader JoinRequest :=
  visit {
    expecting := "struct JoinMatchRequest"
    unit := none
    map := some (readStruct joinFields ⟨1, .deathMatch, none⟩ ["mode"])
    seq := some fun items => do
      let (characterId, items) ← items.read? u32
      let (mode, items) ← items.read? readMode
      let some mode := mode | throw (invalidLength 1 "struct JoinMatchRequest with 3 elements")
      let (sessionId, items) ← items.read? (option string)
      pure (⟨characterId.getD 1, mode, sessionId.join⟩, items) }

/-- Reads a leave request: an object, or a list of its one field. -/
def readLeave : Source → Reader LeaveRequest :=
  visit {
    expecting := "struct LeaveMatchRequest"
    unit := none
    map := some (readStruct [⟨"mode", fun src q => do pure { q with mode := ← readMode src }⟩]
      ⟨.deathMatch⟩ ["mode"])
    seq := some fun items => do
      let (mode, items) ← items.read? readMode
      let some mode := mode | throw (invalidLength 0 "struct LeaveMatchRequest with 1 element")
      pure (⟨mode⟩, items) }

end Skirmish.Http
