import Skirmish.Json.Write

/-!
# HTTP requests and responses

A `Request` is what the service sees of an HTTP request: its method, its target (the path and any
query), its headers and its body. Header names are compared without regard to case, and the
first header of a name is the one read. A header value is read as text only when every character
is a visible ASCII character or a tab (`Request.text?`); any other value is unreadable, as if
absent.

A `Response` is a status, a list of headers, in which a name may repeat, and a body text.

A body is JSON when the request's content type is a media type whose type is `application` and
whose subtype is `json` or carries the suffix `+json` (`isJsonMediaType`). The media type is read
by its grammar: a token, `/`, a subtype token, and then parameters after `;`, each `name=value`
with a value that is a token or a quoted string; type and subtype are compared in lower case. A
text that does not follow the grammar is no media type at all.
-/

namespace Skirmish.Http

open Json

/-- An HTTP request as the service sees it. -/
structure Request where
  method : String
  /-- The path, with the query if there is one, or an absolute address. -/
  target : String
  headers : List (String × String)
  body : String

/-- An HTTP response. -/
structure Response where
  status : Nat
  headers : List (String × String)
  body : String

/-- A name in lower case. -/
def lowerName (s : String) : String := String.ofList (s.toList.map Char.toLower)

namespace Request

/-- The first value of a header. -/
def header? (r : Request) (name : String) : Option String :=
  (r.headers.find? fun (n, _) => lowerName n == lowerName name).map (·.2)

/-- Whether a header value can be read as text: visible ASCII and tabs only. -/
def readable (value : String) : Bool :=
  value.toList.all fun c => c = '\t' ∨ (32 ≤ c.toNat ∧ c.toNat ≤ 126)

/-- The first value of a header, when it can be read as text. -/
def text? (r : Request) (name : String) : Option String :=
  (r.header? name).filter readable

/-- The path: the target up to any query or fragment, without the scheme and authority of an
absolute target, whose empty path is `/`. -/
def path (r : Request) : String :=
  let near := (((r.target.splitOn "#").headD "").splitOn "?").headD ""
  match near.splitOn "://" with
  | [_, rest] => "/" ++ "/".intercalate ((rest.splitOn "/").drop 1)
  | _ => near

end Request

namespace Response

/-- A response with a plain text body. -/
def plain (status : Nat) (text : String) : Response :=
  ⟨status, [("content-type", "text/plain; charset=utf-8")], text⟩

/-- A response with a JSON body. -/
def json (status : Nat) (j : Json) : Response :=
  ⟨status, [("content-type", "application/json")], j.write⟩

/-- A response with no body and no headers. -/
def empty (status : Nat) : Response := ⟨status, [], ""⟩

/-- The response with more headers after its own. -/
def withHeaders (r : Response) (more : List (String × String)) : Response :=
  { r with headers := r.headers ++ more }

/-- The response with its body taken away, as an answer to `HEAD`. -/
def withoutBody (r : Response) : Response := { r with body := "" }

/-- Whether the response has a header of a name. -/
def hasHeader (r : Response) (name : String) : Bool :=
  r.headers.any fun (n, _) => lowerName n == lowerName name

end Response

/-! ## Media types -/

/-- Whether a byte may stand in a token: letters, digits and the marks
``! # $ % & ' * + - . ^ _ ` | ~``. -/
def isTokenByte (b : UInt8) : Bool :=
  (48 ≤ b && b ≤ 57) || (65 ≤ b && b ≤ 90) || (97 ≤ b && b ≤ 122) ||
    [33, 35, 36, 37, 38, 39, 42, 43, 45, 46, 94, 95, 96, 124, 126].contains b.toNat

/-- Whether a byte may stand in a quoted parameter value: any but a control byte. -/
def isQuotedByte (b : UInt8) : Bool := 31 < b && b != 127

/-- Where the reading of a media type's parameters is. Each reading state but the last says
whether it stands at the start of its part. -/
inductive ParamState where
  /-- In a parameter name. -/
  | name (atStart : Bool)
  /-- In a plain value. -/
  | value (atStart : Bool)
  /-- In a quoted value, after its opening quote. -/
  | quoted (atStart : Bool)
  /-- After a quoted value's closing quote. -/
  | afterQuote

/-- Whether the rest of a media type, after a `;`, is well-formed parameters. A space may start
a parameter; a name ends at `=`; a plain value ends at `;` or at the end, and a quoted one at its
closing quote, after which only spaces come before the next `;`. -/
def paramsValid : ParamState → List UInt8 → Bool
  | .name atStart, [] => atStart
  | .name atStart, b :: rest =>
    if b = 32 && atStart then paramsValid (.name true) rest
    else if isTokenByte b then paramsValid (.name false) rest
    else if b = 61 && !atStart then paramsValid (.value true) rest
    else false
  | .value _, [] => true
  | .value atStart, b :: rest =>
    if b = 34 && atStart then paramsValid (.quoted true) rest
    else if isTokenByte b then paramsValid (.value false) rest
    else if b = 59 && !atStart then paramsValid (.name true) rest
    else false
  | .quoted _, [] => false
  | .quoted atStart, b :: rest =>
    if b = 34 && !atStart then paramsValid .afterQuote rest
    else if isQuotedByte b then paramsValid (.quoted false) rest
    else false
  | .afterQuote, [] => true
  | .afterQuote, b :: rest =>
    if b = 59 then paramsValid (.name true) rest
    else if b = 32 then paramsValid .afterQuote rest
    else false

/-- The subtype bytes up to any `;`, the rest after it, and whether a `;` came. -/
def splitParams (bytes : List UInt8) : List UInt8 × Option (List UInt8) :=
  match bytes.span (· != 59) with
  | (sub, _ :: rest) => (sub, some rest)
  | (sub, []) => (sub, none)

/-- The position of the last `+` of a subtype after its first byte. -/
def suffixMark (sub : List UInt8) : Option Nat :=
  sub.zipIdx.foldl (fun found (b, i) => if b = 43 && 0 < i then some i else found) none

/-- The lower-case text of bytes. -/
def lowerBytes (bytes : List UInt8) : String :=
  lowerName (String.ofList (bytes.map fun b => Char.ofNat b.toNat))

/-- Whether a content type names JSON: type `application` with subtype `json` or suffix
`json`, in a well-formed media type. -/
def isJsonMediaType (value : String) : Bool :=
  let bytes := value.toUTF8.toList
  match bytes.span isTokenByte with
  | (top, 47 :: after) =>
    let (sub, params) := splitParams after
    let subValid := sub.all isTokenByte && (params.isNone || !sub.isEmpty)
    let paramsOk := match params with
      | some rest => paramsValid (.name true) rest
      | none => true
    let (name, suffix) := match suffixMark sub with
      | some i => (sub.take i, some (sub.drop (i + 1)))
      | none => (sub, none)
    !top.isEmpty && subValid && paramsOk && lowerBytes top == "application" &&
      (lowerBytes name == "json" || suffix.any (lowerBytes · == "json"))
  | _ => false

/-- Whether a request says its body is JSON. -/
def Request.hasJsonBody (r : Request) : Bool :=
  (r.text? "content-type").any isJsonMediaType

end Skirmish.Http
