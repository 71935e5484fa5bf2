import Skirmish.Auth.Sha256
import Skirmish.Auth.Base64
import Skirmish.Json.Typed
import Skirmish.Text.Numeral

/-!
# Session tokens

A session token is three base64 parts joined by `.`: a header, the claims and a signature. The
signature is the HMAC-SHA256 of `header.claims` under the server's secret. `verifyToken` checks,
in order: the token has exactly three parts; the signature decodes and matches; the claims
decode and read as a record with a string `sub` and an unsigned `exp` (seconds), with `iat`
defaulting to `0` and optional `session_id` and `role`; the token has not expired. Every
failure but the last is `invalid token`.

The player a token speaks for is its subject read as a 64-bit integer, after trimming
whitespace. A subject that is no such number carries no identity.
-/

namespace Skirmish.Auth

open Json Typed

/-- What a verified token claims. -/
structure Claims where
  sub : String
  exp : Nat
  iat : Nat
  sessionId : Option String
  role : Option String

/-- Why a request is not authenticated. -/
inductive AuthError where
  | missingHeader
  | invalidFormat
  | invalidToken
  | tokenExpired
  | missingIdentity
  deriving Repr, DecidableEq

namespace AuthError

/-- The name of the failure. -/
def name : AuthError → String
  | .missingHeader => "MissingHeader"
  | .invalidFormat => "InvalidFormat"
  | .invalidToken => "InvalidToken"
  | .tokenExpired => "TokenExpired"
  | .missingIdentity => "MissingIdentity"

/-- The text of the failure. -/
def message : AuthError → String
  | .missingHeader => "Missing authorization header"
  | .invalidFormat => "Invalid authorization header format"
  | .invalidToken => "Invalid token"
  | .tokenExpired => "Token expired"
  | .missingIdentity => "Token carries no player identity"

/-- The HTTP status of the failure: a malformed header is a bad request, the rest unauthorized. -/
def status : AuthError → Nat
  | .invalidFormat => 400
  | _ => 401

end AuthError

/-- The claims of a token with only its subject and expiry. -/
def Claims.bare : Claims := ⟨"", 0, 0, none, none⟩

/-- The fields of the claims. -/
def claimFields : List (RecordField Claims) :=
  [⟨"sub", fun src c => do pure { c with sub := ← string src }⟩,
   ⟨"exp", fun src c => do pure { c with exp := ← u64 src }⟩,
   ⟨"iat", fun src c => do pure { c with iat := ← u64 src }⟩,
   ⟨"session_id", fun src c => do pure { c with sessionId := ← option string src }⟩,
   ⟨"role", fun src c => do pure { c with role := ← option string src }⟩]

/-- Reads claims: an object, or a list of the fields in order of which the first two must
come. -/
def readClaims : Source → Reader Claims :=
  visit {
    expecting := "struct JwtClaims"
    unit := none
    map := some (readStruct claimFields Claims.bare ["sub", "exp"])
    seq := some fun items => do
      let (sub, items) ← items.read? string
      let some sub := sub | throw (invalidLength 0 "struct JwtClaims with 5 elements")
      let (exp, items) ← items.read? u64
      let some exp := exp | throw (invalidLength 1 "struct JwtClaims with 5 elements")
      let (iat, items) ← items.read? u64
      let (sessionId, items) ← items.read? (option string)
      let (role, items) ← items.read? (option string)
      pure (⟨sub, exp, iat.getD 0, sessionId.join, role.join⟩, items) }

/-- Reads the claims from the bytes of a JSON text. -/
def parseClaims (bytes : List UInt8) : Option Claims :=
  match Reader.run (do let c ← readClaims (.text startDepth); endOfText; pure c)
      (Cursor.start bytes) with
  | .ok c => some c
  | .error _ => none

/-- Verifies a token against a secret at `nowSecs` seconds since the epoch. -/
def verifyToken (token secret : String) (nowSecs : Nat) : Except AuthError Claims :=
  match (token.toList.splitOn '.').map String.ofList with
  | [header, payload, signature] =>
    let signed := hmacSha256 secret.toUTF8.toList (header ++ "." ++ payload).toUTF8.toList
    match decodeUrl signature with
    | some given =>
      if given != signed then .error .invalidToken
      else match (decodeUrl payload).bind parseClaims with
        | some c => if c.exp < nowSecs then .error .tokenExpired else .ok c
        | none => .error .invalidToken
    | none => .error .invalidToken
  | _ => .error .invalidToken

/-- The token of an `Authorization` header: what follows `Bearer `. -/
def bearerToken (header : String) : Option String :=
  if header.startsWith "Bearer " then some (header.drop 7).toString else none

/-- The claims as a JSON object. -/
def Claims.toJson (c : Claims) : Json :=
  .object [("sub", .string c.sub), ("exp", .nat c.exp), ("iat", .nat c.iat),
    ("session_id", .optional .string c.sessionId), ("role", .optional .string c.role)]

/-- The player a token's claims speak for. -/
def Claims.playerId (c : Claims) : Option Int := Text.parseInt64 (Text.trimWhite c.sub)

end Skirmish.Auth
