import Skirmish.Server.State
import Skirmish.Match.Service

/-!
# Client requests and matchmaking on the server

`Server.dispatch` carries out one decoded client message for a connection. A refused request is
not a failure of the call: the client is sent an `error` message with the refusal's code and
text. Joining needs the room to exist. Creating a room is refused for a connection already in
one, and takes the mode's seat count, map `1` and the default rules for what the request leaves
out. Leaving, readying and steering act on the connection's current room. A ping is answered
with the server time.

An `App` is the server with its matchmaker. Its matching passes make rooms through the server's
registry, with the seat count of the mode, and tell each matched player's connections where to
go.
-/

namespace Skirmish

namespace Server

/-- Applies `f` to the room a connection sits in, or refuses with `not_in_room`. -/
def withRoom {α : Type} (s : Server) (conn : Uuid)
    (f : Uuid → Except RoomError α × Server) : Except RoomError α × Server :=
  match (s.hub.get? conn).bind s.currentRoom? with
  | some r => f r.id
  | none => (.error .notInRoom, s)

/-- The configuration a room creation request asks for. -/
def CreateRoom.config (c : CreateRoom) : RoomConfig :=
  let base := RoomConfig.new c.name c.mode
  { base with
    maxPlayers := c.maxPlayers.getD base.maxPlayers
    mapId := c.mapId.getD base.mapId
    rules := ⟨c.timeLimitSecs.getD RoomRules.default.timeLimitSecs,
      c.scoreLimit.getD RoomRules.default.scoreLimit,
      c.friendlyFire.getD RoomRules.default.friendlyFire,
      c.isPrivate.getD RoomRules.default.isPrivate⟩ }

/-- Carries out a request; a refusal is the request's own outcome. -/
def handle (s : Server) (conn : Uuid) : ClientMsg → Except RoomError Unit × Server
  | .joinRoom roomId characterId =>
    match s.room? roomId with
    | some _ =>
      let (r, s) := s.addPlayer roomId conn characterId
      (r.map fun _ => (), s)
    | none => (.error .notFound, s)
  | .createRoom c =>
    if ((s.hub.get? conn).bind s.currentRoom?).isSome then (.error .alreadyInRoom, s)
    else
      match s.createRoom (CreateRoom.config c) with
      | (.ok roomId, s) =>
        let (r, s) := s.addPlayer roomId conn c.characterId
        (r.map fun _ => (), s)
      | (.error e, s) => (.error e, s)
  | .leaveRoom =>
    match (s.hub.get? conn).bind s.currentRoom? with
    | some r =>
      let (removed, s) := s.removePlayer r.id conn
      (if removed then .ok () else .error .notInRoom, s)
    | none => (.error .notInRoom, s)
  | .ready => s.withRoom conn fun r => s.setReady r conn true
  | .unready => s.withRoom conn fun r => s.setReady r conn false
  | .playerInput input => s.withRoom conn fun r =>
    let (out, s) := s.handleInput r conn input
    (out.map fun _ => (), s)
  | .ping t => (.ok (), s.send conn (.pong t s.clock))

/-- Carries out a client's message, telling the client when it is refused. -/
def dispatch (s : Server) (conn : Uuid) (msg : ClientMsg) : Server :=
  match s.handle conn msg with
  | (.ok (), s) => s
  | (.error e, s) => s.send conn (.error e.code e.message)

/-- The registry as matchmaking sees it: rooms of the batch's size, players reached through all
their connections. -/
def matchTarget : MatchTarget Server where
  create s name mode required mapId :=
    match s.createRoom { RoomConfig.new name mode with maxPlayers := required, mapId } with
    | (.ok id, s) => (.ok ⟨id, name, mode, max required 1, mapId⟩, s)
    | (.error e, s) => (.error ("Room creation failed: " ++ e.message), s)
  notify s playerId room :=
    s.notifyPlayer playerId (.matchFound room.id room.name room.mode room.maxPlayers room.mapId)

end Server

/-- The server and its matchmaker. -/
structure App where
  server : Server
  matchmaker : Matchmaker

namespace App

/-- One matching pass; gives the number of rooms made. -/
def pass (a : App) : Nat × App :=
  let (created, mm, s) := a.matchmaker.pass Server.matchTarget a.server a.server.clock
  (created, ⟨s, mm⟩)

end App

end Skirmish
