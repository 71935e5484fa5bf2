import Skirmish.Http.Cors
import Skirmish.Http.Body
import Skirmish.Auth.Token
import Skirmish.Config.Settings
import Skirmish.Server.App

/-!
# The HTTP routes

`Service.respond` answers one request. The routes are:

* `GET /health`: the server's counts, the uptime, whether match results are reported, and the
  depth of every mode's queue;
* `GET /rooms`: the summaries of the public rooms;
* `POST /match/join`, `POST /match/leave`, `GET /match/status`: a player's queueing, each behind
  the player's token;
* `GET /ws`: the upgrade to a WebSocket, which a request served here can never complete.

Routes match the path exactly, up to any query. An unknown path is not found (404), with no body.
A `GET` route also answers `HEAD`, without the body. A known path asked with a method it does not
take is refused (405) with no body, and the response names the methods it does take (`allow`); so
does the answer to a preflight of a known path. Every route, and the refusals, answer across
origins (`withCors`).

A guarded route reads the `Authorization` header first: it must be readable, start with
`Bearer `, carry a token valid at the moment of the request, and name a player. Each failure is
answered with its text; a malformed header is a bad request (400) and the rest unauthorized
(401). The check comes before the method is refused, so an unauthenticated request of the wrong
method is unauthorized.

Joining refuses character `0` (400). Otherwise the player is queued, with the request's session,
or else the token's, or else none, and the answer gives the mode's queue depth.
-/

namespace Skirmish.Http

open Json Auth

/-- The state the routes serve. -/
structure Service where
  config : Config
  app : App
  /-- When the server clock was started, in seconds since the epoch, if it was. -/
  startedSecs : Option Nat

/-- A service over fresh state: no rooms, connections or queued players. -/
def Service.new (config : Config) (clock : Nat) (idSeed : UInt64) (startedSecs : Option Nat) :
    Service :=
  ⟨config, ⟨Server.new config.outboundQueueSize config.maxRooms clock idSeed,
    Matchmaker.new assignmentTtlMs⟩, startedSecs⟩

/-- The routes. -/
inductive Route where
  | socket
  | health
  | rooms
  | join
  | leave
  | status
  deriving Repr, DecidableEq

namespace Route

/-- The route of a path. -/
def ofPath : String → Option Route
  | "/ws" => some .socket
  | "/health" => some .health
  | "/rooms" => some .rooms
  | "/match/join" => some .join
  | "/match/leave" => some .leave
  | "/match/status" => some .status
  | _ => none

/-- Whether the route takes `POST`; the others take `GET`. -/
def posted : Route → Bool
  | .join | .leave => true
  | _ => false

/-- Whether the route needs a player's token. -/
def guarded : Route → Bool
  | .join | .leave | .status => true
  | _ => false

/-- The methods the route takes, as the `allow` header names them. -/
def allow (r : Route) : String := if r.posted then "POST" else "GET,HEAD"

/-- Whether the route takes a method. -/
def accepts (r : Route) (method : String) : Bool :=
  if r.posted then method = "POST" else method = "GET" || method = "HEAD"

end Route

/-- The response refusing an authentication. -/
def authRefusal (e : AuthError) : Response := .plain e.status e.message

/-- The player a request's token names, with the token's claims. -/
def authenticate (secret : String) (nowSecs : Nat) (r : Request) :
    Except AuthError (Int × Claims) := do
  let some header := r.text? "authorization" | throw .missingHeader
  let some token := bearerToken header | throw .invalidFormat
  let claims ← verifyToken token secret nowSecs
  let some player := claims.playerId | throw .missingIdentity
  pure (player, claims)

/-- Whether a text, in lower case, contains a lower-case word. -/
def containsLower (text word : String) : Bool :=
  ((lowerName text).splitOn word).length > 1

/-- The refusal of a WebSocket upgrade: of a method but `GET`, of missing or wrong upgrade
headers, and, served here, of a request with nothing to upgrade. -/
def upgradeRejection (r : Request) : Response :=
  let isValue (name value : String) : Bool := (r.header? name).any (lowerName · == value)
  if r.method != "GET" then .plain 405 "Request method must be `GET`"
  else if !(r.header? "connection").any (containsLower · "upgrade") then
    .plain 400 "Connection header did not include \x27upgrade\x27"
  else if !isValue "upgrade" "websocket" then
    .plain 400 "`Upgrade` header did not include \x27websocket\x27"
  else if !isValue "sec-websocket-version" "13" then
    .plain 400 "`Sec-WebSocket-Version` header did not include \x2713\x27"
  else if (r.header? "sec-websocket-key").isNone then
    .plain 400 "`Sec-WebSocket-Key` header missing"
  else .plain 426 "WebSocket request couldn\x27t be upgraded since no upgrade state was present"

namespace Service

/-- The queue depth of every mode. -/
def queuesJson (svc : Service) : Json :=
  .object (GameMode.all.map fun m => (m.name, .nat (svc.app.matchmaker.depth m)))

/-- The seconds since the server clock was started, or `0` when it never was. -/
def uptime (svc : Service) (nowSecs : Nat) : Nat :=
  match svc.startedSecs with
  | some t => nowSecs - t
  | none => 0

/-- The server's health. -/
def health (svc : Service) (nowSecs : Nat) : Response :=
  let s := svc.app.server
  .json 200 (.object [("status", .string "ok"), ("uptime_secs", .nat (svc.uptime nowSecs)),
    ("rooms", .nat s.rooms.length), ("players", .nat s.totalPlayers),
    ("connections", .nat s.hub.count), ("stats_enabled", .bool svc.config.statsUrl.isSome),
    ("queues", svc.queuesJson)])

/-- The public rooms. -/
def roomList (svc : Service) : Response :=
  .json 200 (.object [("rooms", .array ((svc.app.server.list false).map RoomSummary.toJson))])

/-- The service with another matchmaker. -/
def withMatchmaker (svc : Service) (mm : Matchmaker) : Service :=
  { svc with app := { svc.app with matchmaker := mm } }

/-- Queues a player. -/
def join (svc : Service) (player : Int) (claims : Claims) (q : JoinRequest) :
    Response × Service :=
  if q.characterId = 0 then
    (.json 400 (.object [("error", .string "character_id must be positive")]), svc)
  else
    let session := (q.sessionId.orElse fun _ => claims.sessionId).getD ""
    let mm := svc.app.matchmaker.enqueue ⟨player, q.characterId, q.mode, session⟩
    (.json 200 (.object [("status", .string "queued"), ("mode", .string q.mode.name),
      ("queue_size", .nat (mm.depth q.mode))]), svc.withMatchmaker mm)

/-- Takes a player out of a mode's queue. -/
def leave (svc : Service) (player : Int) (q : LeaveRequest) : Response × Service :=
  let (removed, mm) := svc.app.matchmaker.dequeue player q.mode
  (.json 200 (.object [("removed", .bool removed)]), svc.withMatchmaker mm)

/-- The queues and the room a player was matched into, if the match is recent. -/
def status (svc : Service) (player : Int) : Response :=
  let room := svc.app.matchmaker.assignment player svc.app.server.clock
  .json 200 (.object [("queues", svc.queuesJson),
    ("assigned_room", .optional (fun (u : Uuid) => .string u.text) room)])

/-- Runs `serve` for the player a request's token names, or refuses the request. -/
def asPlayer (svc : Service) (nowSecs : Nat) (r : Request)
    (serve : Int → Claims → Response × Service) : Response × Service :=
  match authenticate svc.config.jwtSecret nowSecs r with
  | .ok (player, claims) => serve player claims
  | .error e => (authRefusal e, svc)

/-- Runs `serve` on a request's JSON body, or refuses the body. -/
def withBody {α : Type} (svc : Service) (read : Typed.Source → Reader α) (r : Request)
    (serve : α → Response × Service) : Response × Service :=
  match jsonBody read r with
  | .ok a => serve a
  | .error e => (e.response, svc)

/-- Serves a request a route takes. -/
def serve (svc : Service) (nowSecs : Nat) (r : Request) : Route → Response × Service
  | .socket => (upgradeRejection r, svc)
  | .health => (svc.health nowSecs, svc)
  | .rooms => (svc.roomList, svc)
  | .join => svc.asPlayer nowSecs r fun player claims =>
    svc.withBody readJoin r (svc.join player claims)
  | .leave => svc.asPlayer nowSecs r fun player _ => svc.withBody readLeave r (svc.leave player)
  | .status => svc.asPlayer nowSecs r fun player _ => (svc.status player, svc)

/-- Refuses a method a route does not take, after the token check of a guarded route. -/
def refuseMethod (svc : Service) (nowSecs : Nat) (r : Request) (route : Route) :
    Response × Service :=
  if route.guarded then svc.asPlayer nowSecs r fun _ _ => (.empty 405, svc)
  else (.empty 405, svc)

/-- Answers a request at `nowSecs` seconds since the epoch. -/
def respond (svc : Service) (nowSecs : Nat) (r : Request) : Response × Service :=
  let origins := allowedOrigins svc.config.clientOrigin
  match Route.ofPath r.path with
  | none => withCors origins r svc fun svc => (.empty 404, svc)
  | some route =>
    if route.accepts r.method then
      let (resp, svc) := withCors origins r svc fun svc => svc.serve nowSecs r route
      (if r.method = "HEAD" then resp.withoutBody else resp, svc)
    else
      let (resp, svc) := withCors origins r svc fun svc => svc.refuseMethod nowSecs r route
      (if resp.hasHeader "allow" then resp else resp.withHeaders [("allow", route.allow)], svc)

/-- Creates a room, as an operator would. -/
def createRoom (svc : Service) (config : RoomConfig) : Except RoomError Uuid × Service :=
  let (r, s) := svc.app.server.createRoom config
  (r, { svc with app := { svc.app with server := s } })

/-- The service with its server clock at `nowMs` milliseconds. -/
def atClock (svc : Service) (nowMs : Nat) : Service :=
  { svc with app := { svc.app with server := { svc.app.server with clock := nowMs } } }

/-- Removes the rooms that are over or long empty at `nowMs`. -/
def sweep (svc : Service) (nowMs : Nat) : Service :=
  { svc with app := { svc.app with server := (svc.app.server.sweep nowMs).2 } }

/-- One matching pass; gives the number of rooms made. -/
def pass (svc : Service) : Nat × Service :=
  let (n, app) := svc.app.pass
  (n, { svc with app })

/-- The shutdown sequence: every room is ended and dropped, then every connection closed. -/
def shutdown (svc : Service) : Service :=
  { svc with app := { svc.app with server := svc.app.server.shutdownAll.closeAll } }

/-- The rooms and the registered connections the shutdown sequence leaves. -/
def leftAfterShutdown (svc : Service) : Nat × Nat :=
  let s := svc.shutdown.app.server
  (s.rooms.length, s.hub.count)

end Service

end Skirmish.Http
