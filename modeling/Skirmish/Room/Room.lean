import Skirmish.Game.Frame
import Skirmish.Wire.ClientMsg

/-!
# Rooms

A `Room` is one match: its settings, its seats (one per connection, in join order, which is
also the order of their entity ids), its world, and its lifecycle. The lifecycle only moves
forward: `waiting` until a ready check passes, `playing` while the simulation runs, `ended` for
good. A room can also be stopped, after which it does nothing at all.

This module holds what a room does on its own; sending messages and closing connections are
left to the server that owns the rooms and the connections.

* `checkReady` starts the game when at least two seats are taken and every seat is ready.
* `simulate` runs one step of play: the world advances, collisions are resolved, the frame is
  built, and the game ends when the play time reaches the time limit or, failing that, when a
  score reaches the score limit.
* `terminate` stops and ends the room for good and releases its seats; a game still playing
  ends there.
* `shouldCleanup` tells the registry to drop a stopped room, an empty room idle for five
  minutes, or a room ended two minutes ago.
-/

namespace Skirmish

/-- A connection's seat. -/
structure Seat where
  connection : Uuid
  entityId : Nat
  playerId : Int
  characterId : Nat
  team : Team
  ready : Bool

/-- The seat as announced. -/
def Seat.info (s : Seat) : PlayerInfo := ⟨s.playerId, s.entityId, s.characterId, s.team, s.ready⟩

/-- The messages of one simulation step. -/
structure TickOutput where
  started : Option ServerMsg
  frame : Option ServerMsg
  ended : Option (ServerMsg × MatchResult)

/-- A step that produced nothing. -/
def TickOutput.none : TickOutput := ⟨.none, .none, .none⟩

/-- Whether a step produced nothing. -/
def TickOutput.isEmpty (t : TickOutput) : Bool :=
  t.started.isNone && t.frame.isNone && t.ended.isNone

/-- A player's entity turned, then moved, as an input asks. -/
def Entity.steer (e : Entity) (input : PlayerInput) : Entity :=
  let e := match input.rotation with | some deg => e.setRotation deg | none => e
  match input.movement with
  | some m => { e with velocity := movementVelocity m }
  | none => e

/-- One match. -/
structure Room where
  id : Uuid
  name : String
  mode : GameMode
  maxPlayers : Nat
  mapId : Nat
  rules : RoomRules
  createdAt : Nat
  /-- In join order, which is entity id order. -/
  seats : List Seat
  world : World
  status : RoomStatus
  startedAt : Option Nat
  endedAt : Option Nat
  lastActivity : Nat
  frameId : Nat
  /-- Simulated play time in seconds. -/
  elapsed : Float32
  stopped : Bool

namespace Room

/-- A new waiting room, with at least one seat. -/
def new (config : RoomConfig) (id : Uuid) (seed : UInt64) (now : Nat) : Room :=
  { id, name := config.name, mode := config.mode, maxPlayers := max config.maxPlayers 1,
    mapId := config.mapId, rules := config.rules, createdAt := now, seats := [],
    world := World.new seed (MapBounds.forMap config.mapId), status := .waiting,
    startedAt := none, endedAt := none, lastActivity := now, frameId := 0, elapsed := 0,
    stopped := false }

/-- The summary of the room. -/
def summary (r : Room) : RoomSummary :=
  ⟨r.id, r.name, r.mode, r.status, r.seats.length, r.maxPlayers, r.mapId, r.rules.isPrivate,
    r.createdAt⟩

/-- The seat of a connection. -/
def seat? (r : Room) (conn : Uuid) : Option Seat := r.seats.find? (·.connection == conn)

/-- The seated connections, in seat order. -/
def members (r : Room) : List Uuid := r.seats.map (·.connection)

/-- The roster, in entity id order. -/
def roster (r : Room) : List PlayerInfo := r.seats.map Seat.info

/-- The team of a new seat: none without teams, otherwise the smaller team, red on a tie. -/
def assignTeam (r : Room) : Team :=
  if !r.mode.isTeamBased then .none
  else
    let count (t : Team) := (r.seats.filter (·.team == t)).length
    if count .red ≤ count .blue then .red else .blue

/-- Whether a new seat may be taken, in the order the checks are made after the connection's
own checks: a stopped or started room is closed, then a full room is full. -/
def admits (r : Room) : Except RoomError Unit :=
  if r.stopped || r.status != .waiting then throw .roomClosed
  else if r.maxPlayers ≤ r.seats.length then throw .roomFull
  else pure ()

/-- Seats a connection and spawns its player; gives the seat. -/
def seatPlayer (r : Room) (conn : Uuid) (playerId : Int) (characterId : Nat) (now : Nat) :
    Seat × Room :=
  let team := r.assignTeam
  let (entityId, world) := r.world.spawnPlayer (Player.fresh playerId characterId team playerMaxHealth)
  let s : Seat := ⟨conn, entityId, playerId, characterId, team, false⟩
  (s, { r with seats := r.seats ++ [s], world, lastActivity := now })

/-- Takes a connection's seat away and removes its player, keeping its record once the game
has started. -/
def unseat (r : Room) (conn : Uuid) (now : Nat) : Option (Seat × Room) := do
  let s ← r.seat? conn
  let (_, world) := r.world.removePlayer s.entityId (r.status != .waiting)
  pure (s, { r with seats := r.seats.filter (·.connection != conn), world, lastActivity := now })

/-- Sets a connection's ready state. -/
def setReady (r : Room) (conn : Uuid) (ready : Bool) : Except RoomError Room :=
  match r.seat? conn with
  | some _ => pure { r with seats := r.seats.map fun s =>
      if s.connection = conn then { s with ready } else s }
  | none => throw .notInRoom

/-- Applies a player's input and gives the projectiles it fired. Outside play, or for a missing
or dead player, nothing happens. -/
def handleInput (r : Room) (conn : Uuid) (input : PlayerInput) (now : Nat) :
    Except RoomError (List Nat × Room) := do
  let some s := r.seat? conn | throw .notInRoom
  if r.status != .playing then return ([], r)
  let some e := r.world.get? s.entityId | return ([], r)
  let some p := e.player? | return ([], r)
  if !p.alive then return ([], r)
  let e := e.steer input
  let world := r.world.update s.entityId fun _ => e
  let (spawned, world) := match input.skillId with
    | some skill => useSkill world s.entityId skill (input.target.getD e.position)
    | none => ([], world)
  pure (spawned, { r with world, lastActivity := now })

/-- Starts the game when at least two seats are taken and all are ready. -/
def checkReady (r : Room) (now : Nat) : Option ServerMsg × Room :=
  if r.seats.length < minPlayersToStart || !r.seats.all (·.ready) || r.status != .waiting then
    (none, r)
  else
    let r := { r with status := .playing, startedAt := some now, lastActivity := now }
    (some (.gameStart r.id r.roster r.rules now), r)

/-- The end-of-game message and match result. -/
def finish (r : Room) (reason : EndReason) (now : Nat) : ServerMsg × MatchResult :=
  let players := r.world.tallies
  (.gameEnd r.id reason r.world.scores players r.elapsed,
    ⟨r.id, r.name, r.mode, r.mapId, reason, r.startedAt, now, r.elapsed, players⟩)

/-- The larger of two floats, ignoring a NaN. -/
def maxFloat (a b : Float32) : Float32 :=
  if a.isNaN then b else if b.isNaN then a else if a < b then b else a

/-- Why the game is over: the play time reached the time limit, or failing that a score
reached the score limit. -/
def endReason? (r : Room) : Option EndReason :=
  if r.rules.timeLimitSecs ≤ r.elapsed then some .timeLimit
  else if r.rules.scoreLimit ≤ r.world.maxScore then some .scoreLimit
  else none

/-- One step of play. -/
def simulate (r : Room) (dt : Float32) (now : Nat) : Checked (TickOutput × Room) := do
  let (_, world) := r.world.advance dt
  let (outcome, world) ← resolveCollisions world r.rules.friendlyFire
  let r := { r with world, frameId := r.frameId + 1, elapsed := r.elapsed + dt }
  let remaining := maxFloat (r.rules.timeLimitSecs - r.elapsed) 0
  let frame := buildFrame r.frameId world outcome remaining now
  match r.endReason? with
  | some reason =>
    let r := { r with status := .ended, endedAt := some now }
    pure (⟨none, some frame, some (r.finish reason now)⟩, r)
  | none => pure (⟨none, some frame, none⟩, r)

/-- One step: nothing when stopped or ended, a ready check while waiting, play while playing. -/
def step (r : Room) (dt : Float32) (now : Nat) : Checked (TickOutput × Room) :=
  if r.stopped then pure (TickOutput.none, r)
  else match r.status with
    | .waiting =>
      let (started, r) := r.checkReady now
      pure (⟨started, none, none⟩, r)
    | .playing => r.simulate dt now
    | .ended => pure (TickOutput.none, r)

/-- Ends the room for good, once. A stopped room is left as it is; otherwise the room is stopped
and ended (a room already ended keeps its end time), every seat is released, and a game still
playing ends with reason `terminated`. -/
def terminate (r : Room) (now : Nat) : Option (ServerMsg × MatchResult) × Room :=
  if r.stopped then (none, r)
  else
    let ended := { r with stopped := true, status := RoomStatus.ended,
                          endedAt := if r.status == RoomStatus.ended then r.endedAt else some now }
    (if r.status == .playing then some (ended.finish .terminated now) else none,
      { ended with seats := [] })

/-- Whether the registry should drop the room at time `now`. -/
def shouldCleanup (r : Room) (now : Nat) : Bool :=
  r.stopped ||
    (r.seats.isEmpty && idleTimeoutMs < now - r.lastActivity) ||
    (r.status == .ended && match r.endedAt with
      | some ended => endedGraceMs < now - ended
      | none => false)

end Room

end Skirmish
