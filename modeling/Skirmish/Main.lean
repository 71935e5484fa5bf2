import Skirmish.Http.Router
import Skirmish.Config.Startup
import Std.Http
import Std.Time

/-!
# The server's command line

`main` starts the server from the process environment: it reads the settings, takes the
listening address, and serves the HTTP routes there until it is sent `SIGTERM` or `SIGINT`. A
failed start is written to the error stream as `Error: ` and its text, with exit status `1`.

While it serves, a matching pass runs every match interval and finished or long-empty rooms are
swept every sweep interval. Each request is answered by `Service.respond` on the shared state,
with the server clock set to the wall clock first. A WebSocket upgrade is refused as the routes
refuse one with nothing to upgrade. On the signal every room is ended and every connection
closed (`Service.shutdown`) before the listener stops.
-/

namespace Skirmish.Cli

open Std Std.Async Skirmish.Http

/-- The socket address of a listening address; a scope is not kept. -/
def socketAddress : SocketAddr → Std.Net.SocketAddress
  | .v4 octets p =>
    let o (i : Nat) : UInt8 := (octets.getD i 0).toUInt8
    .v4 ⟨Std.Net.IPv4Addr.ofParts (o 0) (o 1) (o 2) (o 3), p.toUInt16⟩
  | .v6 gs _ p =>
    let g (i : Nat) : UInt16 := (gs.getD i 0).toUInt16
    .v6 ⟨Std.Net.IPv6Addr.ofParts (g 0) (g 1) (g 2) (g 3) (g 4) (g 5) (g 6) (g 7), p.toUInt16⟩

/-- The wall clock, in milliseconds since the epoch. -/
def unixMillis : IO Nat := do
  pure (← Std.Time.Timestamp.now).toMillisecondsSinceUnixEpoch.val.toNat

/-- Why the system refused the listening address. -/
def bindError (e : IO.Error) : BindError :=
  let text := toString e
  if containsLower text "already in use" then .addressInUse else .other text

/-- The request as the routes see it. -/
def requestOf (r : Std.Http.Request Std.Http.Body.Stream) (body : String) : Http.Request :=
  ⟨toString r.line.method, toString r.line.uri,
    r.line.headers.toList.map fun (n, v) => (toString n, toString v), body⟩

/-- The response as the connection writes it. -/
def responseOf (r : Http.Response) : Async (Std.Http.Response Std.Http.Body.Full) :=
  let status := (Std.Http.Status.ofCode none r.status.toUInt16).getD .internalServerError
  let builder := r.headers.foldl (fun b (n, v) => (b.header? n v).getD b)
    (Std.Http.Response.Builder.new.status status)
  builder.fromBytes r.body.toUTF8

/-- Answers each request on the shared state. -/
def handler (state : IO.Ref Service) : Std.Http.Server.StatelessHandler :=
  Std.Http.Server.Handler.ofFn fun req => do
    let bytes : ByteArray ← req.body.readAll
    let body := (String.fromUTF8? bytes).getD ""
    let nowMs ← unixMillis
    let resp ← state.modifyGet fun svc => (svc.atClock nowMs).respond (nowMs / 1000) (requestOf req body)
    responseOf resp

/-- Runs `act` every `ms` milliseconds, for as long as the process lives. -/
partial def every (ms : Nat) (act : IO Unit) : Async Unit := do
  Async.sleep (Std.Time.Millisecond.Offset.ofNat (max ms 1))
  act
  every ms act

/-- Serves until a termination signal comes. -/
def serve (config : Config) (state : IO.Ref Service) : IO UInt32 := do
  let server ← try
      some <$> Async.block (Std.Http.Server.serve (socketAddress config.serverAddr) (handler state))
    catch e => do
      IO.eprint (StartError.bind (bindError e)).report
      pure none
  let some server := server | return 1
  IO.println ("Server listening on " ++ config.serverAddr.text)
  Async.block do
    background (every config.matchIntervalMs do
      let nowMs ← unixMillis
      state.modify fun svc => ((svc.atClock nowMs).pass).2)
    background (every (config.roomSweepSecs * 1000) do
      let nowMs ← unixMillis
      state.modify fun svc => (svc.atClock nowMs).sweep nowMs)
    let term ← Async.Signal.Waiter.mk .sigterm false
    let interrupt ← Async.Signal.Waiter.mk .sigint false
    Selectable.one #[.case term.selector pure, .case interrupt.selector pure]
    state.modify Service.shutdown
    server.shutdownAndWait
  IO.println "Server shutdown complete"
  pure 0

end Skirmish.Cli

open Skirmish in
/-- Starts the server from the process environment. -/
def main : IO UInt32 := do
  let env ← Config.environmentNames.mapM fun n => do pure (n, ← IO.getEnv n)
  match Config.fromLookup fun k => (env.find? (·.1 == k)).bind (·.2) with
  | .error e =>
    IO.eprint (StartError.config e).report
    pure (StartError.config e).exitCode.toUInt32
  | .ok config =>
    let nowMs ← Cli.unixMillis
    let seed := (← IO.getRandomBytes 8).foldl (fun s b => s * 256 + b.toUInt64) 0
    let state ← IO.mkRef (Http.Service.new config nowMs seed (some (nowMs / 1000)))
    Cli.serve config state
