import Skirmish.Http.Message
import Skirmish.Text.Numeral

/-!
# Cross-origin requests

The service answers browsers of a list of origins: the comma-separated parts of its setting, each
trimmed of whitespace, that can stand as a header value (no control character but a tab). Every
response says that credentials are allowed and that it varies with the origin and the requested
method and headers; it names the request's origin as allowed only when that origin is, byte for
byte, one of the list.

An `OPTIONS` request is a preflight: it is answered at once with status 200, no body, and, beside
the headers above, the methods `GET,POST,OPTIONS` and the headers `authorization,content-type`
as allowed. Nothing behind the preflight sees it.
-/

namespace Skirmish.Http

/-- Whether a text can stand as a header value: no control character but a tab. -/
def isHeaderValue (s : String) : Bool :=
  s.toList.all fun c => c = '\t' ∨ (32 ≤ c.toNat ∧ c.toNat ≠ 127)

/-- The origins a setting allows. -/
def allowedOrigins (setting : String) : List String :=
  ((setting.splitOn ",").map Text.trimWhite).filter isHeaderValue

/-- The headers every response carries for a request. -/
def corsHeaders (origins : List String) (r : Request) : List (String × String) :=
  let origin := match r.header? "origin" with
    | some o => if origins.contains o then [("access-control-allow-origin", o)] else []
    | none => []
  origin ++ [("access-control-allow-credentials", "true"),
    ("vary", "origin"), ("vary", "access-control-request-method"),
    ("vary", "access-control-request-headers")]

/-- The answer to a preflight. -/
def preflight (origins : List String) (r : Request) : Response :=
  ⟨200, corsHeaders origins r ++ [("access-control-allow-methods", "GET,POST,OPTIONS"),
    ("access-control-allow-headers", "authorization,content-type")], ""⟩

/-- Answers a request across origins: a preflight at once, any other request by `inner`, whose
response gets the cross-origin headers. -/
def withCors {σ : Type} (origins : List String) (r : Request) (s : σ)
    (inner : σ → Response × σ) : Response × σ :=
  if r.method = "OPTIONS" then (preflight origins r, s)
  else
    let (resp, s) := inner s
    (resp.withHeaders (corsHeaders origins r), s)

end Skirmish.Http
