import Skirmish.Room.Room
import Skirmish.Net.Hub

/-!
# The server: connections and rooms together

A `Server` holds the connection hub, the registry of rooms, the clock and the source of fresh
ids. Rooms and connections refer to each other — a seat names its connection, a connection the
room it sits in — and their operations call each other: sending to a full queue closes the
connection, closing a connection takes its seat away, and taking a seat away tells the others,
which may fill their queues in turn.

Those chains run as a worklist of `Task`s, processed first to last, where the tasks a task
produces come before the ones already waiting: exactly the order of nested calls. A close only
does work for a live connection and makes it dead, and only that work produces more than one
task; a delivery produces at most a close. So each task either kills a connection or is replaced
by tasks of less weight, and the work ends (`perform_lt`).
-/

namespace Skirmish

/-- One pending piece of delivery work. -/
inductive Task where
  /-- Queue a message on a connection. -/
  | deliver (conn : Uuid) (msg : ServerMsg)
  /-- Tear a connection down. -/
  | close (conn : Uuid)
  /-- Clear the room references of former members of a room. -/
  | release (room : Uuid) (conns : List Uuid)

/-- The weight of a task: a delivery may turn into a close, so it weighs more. -/
def Task.weight : Task → Nat
  | .deliver _ _ => 2
  | .close _ => 1
  | .release _ _ => 1

/-- The weight of a worklist. -/
def Task.load : List Task → Nat
  | [] => 0
  | t :: ts => t.weight + Task.load ts

theorem Task.load_append (a b : List Task) : Task.load (a ++ b) = Task.load a + Task.load b := by
  induction a with
  | nil => simp [Task.load]
  | cons t ts ih => simp only [List.cons_append, Task.load, ih, Nat.add_assoc]

/-- The connections, the rooms, the clock and the id source. -/
structure Server where
  hub : Hub
  /-- The registered rooms, in creation order. -/
  rooms : List Room
  /-- The most rooms the registry may hold. -/
  maxRooms : Nat
  /-- The current time, in milliseconds. -/
  clock : Nat
  /-- The source of fresh ids and room seeds. -/
  ids : Random.ChaCha8
  /-- Match results handed to the statistics service, oldest first. -/
  reports : List MatchResult

namespace Server

/-- A server without connections or rooms. -/
def new (capacity maxRooms clock : Nat) (idSeed : UInt64) : Server :=
  ⟨Hub.new capacity, [], maxRooms, clock, Random.ChaCha8.ofSeed idSeed, []⟩

/-- The room with an id. -/
def room? (s : Server) (id : Uuid) : Option Room := s.rooms.find? (·.id == id)

/-- Replaces the room with the id of `r`. -/
def putRoom (s : Server) (r : Room) : Server :=
  { s with rooms := s.rooms.map fun q => if q.id = r.id then r else q }

/-- Changes a connection. -/
def updateConn (s : Server) (id : Uuid) (f : Connection → Connection) : Server :=
  { s with hub := s.hub.update id f }

/-- The room a connection sits in, if that room still exists. -/
def currentRoom? (s : Server) (c : Connection) : Option Room := c.room.bind s.room?

/-- Clears a connection's room reference if it names `room` or a room that no longer exists. -/
def clearRoomRef (s : Server) (conn room : Uuid) : Server :=
  s.updateConn conn fun c =>
    match c.room with
    | some r => if r = room || (s.room? r).isNone then { c with room := none } else c
    | none => c

/-- Takes a connection's seat away: the player leaves the world, the connection's reference is
cleared, it is told it left and the others that it is gone. `none` when it had no seat. -/
def unseat (s : Server) (roomId conn : Uuid) : Option (Server × List Task) := do
  let r ← s.room? roomId
  let (seat, r) ← r.unseat conn s.clock
  let s := (s.putRoom r).clearRoomRef conn roomId
  pure (s, .deliver conn (.roomLeft roomId) ::
    r.members.map (Task.deliver · (.playerLeft seat.playerId seat.entityId)))

/-- Does one task and gives the tasks it produces. -/
def perform (s : Server) : Task → Server × List Task
  | .deliver conn msg =>
    match s.hub.get? conn with
    | some c =>
      if !c.alive then (s, [])
      else if c.outbox.length < s.hub.capacity then
        (s.updateConn conn fun c => { c with outbox := c.outbox ++ [msg] }, [])
      else (s, [.close conn])
    | none => (s, [])
  | .close conn =>
    match s.hub.get? conn with
    | some c =>
      if !c.alive then (s, [])
      else
        let s := s.updateConn conn fun c => { c with alive := false, room := none, registered := false }
        match c.room with
        | some r => (s.unseat r conn).getD (s, [])
        | none => (s, [])
    | none => (s, [])
  | .release room conns => (conns.foldl (fun s c => s.clearRoomRef c room) s, [])

@[simp] theorem hub_putRoom (s : Server) (r : Room) : (s.putRoom r).hub = s.hub := rfl

theorem aliveCount_clearRoomRef (s : Server) (conn room : Uuid) :
    (s.clearRoomRef conn room).hub.aliveCount = s.hub.aliveCount := by
  refine Hub.aliveCount_update_eq fun c => ?_
  split
  · split <;> rfl
  · rfl

theorem aliveCount_unseat {s s' : Server} {room conn : Uuid} {ts : List Task}
    (h : s.unseat room conn = some (s', ts)) : s'.hub.aliveCount = s.hub.aliveCount := by
  unfold unseat at h
  simp only [Option.bind_eq_bind, Option.bind_eq_some_iff, Option.pure_def,
    Option.some.injEq] at h
  obtain ⟨r, -, ⟨seat, r'⟩, -, h⟩ := h
  rw [← (Prod.mk.inj h).1, aliveCount_clearRoomRef]
  rfl

/-- Each task either closes a live connection, or takes the place of tasks of less weight: so
a worklist always comes to an end. -/
theorem perform_lt (s : Server) (t : Task) (rest : List Task) :
    Prod.Lex (· < ·) (· < ·) ((s.perform t).1.hub.aliveCount, Task.load ((s.perform t).2 ++ rest))
      (s.hub.aliveCount, Task.load (t :: rest)) := by
  have lighter : ∀ {a a' b b' : Nat}, a' = a → b' < b →
      Prod.Lex (· < ·) (· < ·) (a', b') (a, b) := fun ha hb => ha ▸ .right _ hb
  rw [Task.load_append]
  cases t with
  | deliver conn msg =>
    simp only [perform]
    split
    · split
      · exact lighter rfl (by simp [Task.load, Task.weight])
      · split
        · exact lighter (Hub.aliveCount_update_eq fun _ => rfl) (by simp [Task.load, Task.weight])
        · exact lighter rfl (by simp [Task.load, Task.weight])
    · exact lighter rfl (by simp [Task.load, Task.weight])
  | close conn =>
    simp only [perform]
    split
    · rename_i c hc
      split
      · exact lighter rfl (by simp [Task.load, Task.weight])
      · rename_i ha
        -- the close kills the connection, whatever tasks leaving its room makes
        have hlt : (s.updateConn conn fun c =>
            { c with alive := false, room := none, registered := false }).hub.aliveCount <
            s.hub.aliveCount :=
          Hub.aliveCount_update_lt hc (by simpa using ha) fun _ => rfl
        refine .left _ _ ?_
        split
        · rename_i r _
          cases hu : (Server.updateConn s conn fun c =>
              { c with alive := false, room := none, registered := false }).unseat r conn with
          | none => exact hlt
          | some p => exact (aliveCount_unseat hu) ▸ hlt
        · exact hlt
    · exact lighter rfl (by simp [Task.load, Task.weight])
  | release room conns =>
    simp only [perform]
    refine lighter ?_ (by simp [Task.load, Task.weight])
    induction conns generalizing s with
    | nil => rfl
    | cons c cs ih => exact (ih _).trans (aliveCount_clearRoomRef s c room)

/-- Works through the tasks, new tasks first, to the end. -/
def run (s : Server) : List Task → Server
  | [] => s
  | t :: rest =>
    let r := s.perform t
    run r.1 (r.2 ++ rest)
termination_by tasks => (s.hub.aliveCount, Task.load tasks)
decreasing_by exact perform_lt s t rest

/-- Works through the tasks to the end. -/
def settle (s : Server) (tasks : List Task) : Server := s.run tasks

/-- Queues a message on a connection, closing it if its queue is full. -/
def send (s : Server) (conn : Uuid) (msg : ServerMsg) : Server := s.settle [.deliver conn msg]

/-- Queues a message on each of some connections. -/
def broadcast (s : Server) (msg : ServerMsg) (conns : List Uuid) : Server :=
  s.settle (conns.map (Task.deliver · msg))

/-- Tears a connection down: it leaves its room, and its queue takes no more messages. -/
def close (s : Server) (conn : Uuid) : Server := s.settle [.close conn]

/-- Closes every registered connection. -/
def closeAll (s : Server) : Server := s.settle (s.hub.live.map fun c => Task.close c.id)

/-- Draws a fresh id. -/
def freshId (s : Server) : Uuid × Server :=
  let (u, g) := Uuid.fresh s.ids
  (u, { s with ids := g })

/-- Registers a connection for a player. -/
def connect (s : Server) (playerId : Int) : Uuid × Server :=
  let (id, s) := s.freshId
  (id, { s with hub := s.hub.register (Connection.fresh id playerId) })

/-- Seats a connection in a room. A connection already in a room, or already seated here, is
refused first; then the room's own checks. A connection that died meanwhile is seated and at
once unseated again. -/
def addPlayer (s : Server) (roomId conn : Uuid) (characterId : Nat) :
    Except RoomError PlayerInfo × Server :=
  match s.hub.get? conn, s.room? roomId with
  | some c, some r =>
    if (s.currentRoom? c).isSome || (r.seat? conn).isSome then (.error .alreadyInRoom, s)
    else match r.admits with
      | .error e => (.error e, s)
      | .ok () =>
        let (seat, r) := r.seatPlayer conn c.playerId characterId s.clock
        let s := (s.putRoom r).updateConn conn fun c => { c with room := some roomId }
        if !c.alive then
          match s.unseat roomId conn with
          | some (s, tasks) => (.ok seat.info, s.settle tasks)
          | none => (.ok seat.info, s)
        else
          let others := r.members.filter (· != conn)
          (.ok seat.info, s.settle
            (.deliver conn (.roomJoined r.summary seat.entityId seat.team r.roster) ::
              others.map (Task.deliver · (.playerJoined seat.info))))
  | _, _ => (.error .notFound, s)

/-- Takes a connection's seat in a room away; `false` when it had none. -/
def removePlayer (s : Server) (roomId conn : Uuid) : Bool × Server :=
  match s.unseat roomId conn with
  | some (s, tasks) => (true, s.settle tasks)
  | none => (false, s)

/-- Sets a connection's ready state in a room. -/
def setReady (s : Server) (roomId conn : Uuid) (ready : Bool) : Except RoomError Unit × Server :=
  match s.room? roomId with
  | some r =>
    match r.setReady conn ready with
    | .ok r => (.ok (), s.putRoom r)
    | .error e => (.error e, s)
  | none => (.error .notInRoom, s)

/-- Applies a connection's input in a room. -/
def handleInput (s : Server) (roomId conn : Uuid) (input : PlayerInput) :
    Except RoomError (List Nat) × Server :=
  match s.room? roomId with
  | some r =>
    match r.handleInput conn input s.clock with
    | .ok (spawned, r) => (.ok spawned, s.putRoom r)
    | .error e => (.error e, s)
  | none => (.error .notInRoom, s)

/-- Advances a room without sending anything. -/
def step (s : Server) (roomId : Uuid) (dt : Float32) : Checked (TickOutput × Server) := do
  match s.room? roomId with
  | some r =>
    let (out, r) ← r.step dt s.clock
    pure (out, s.putRoom r)
  | none => pure (TickOutput.none, s)

/-- Advances a room and tells its members what happened: the start, the frame, the end, to the
members seated after the step. The result of an ended game is reported. -/
def tick (s : Server) (roomId : Uuid) (dt : Float32) : Checked Server := do
  let (out, s) ← s.step roomId dt
  if out.isEmpty then return s
  let members := ((s.room? roomId).map Room.members).getD []
  let deliver (m : Option ServerMsg) : List Task :=
    match m with
    | some m => members.map (Task.deliver · m)
    | none => []
  let s := s.settle (deliver out.started ++ deliver out.frame ++ deliver (out.ended.map (·.1)))
  match out.ended with
  | some (_, result) => pure { s with reports := s.reports ++ [result] }
  | none => pure s

/-- Ends a room for good and releases every seat, once: a room still playing tells its members
the game ended, then every former member is told it left. -/
def terminate (s : Server) (roomId : Uuid) : Server :=
  match s.room? roomId with
  | some r =>
    if r.stopped then s
    else
      let members := r.members
      let (ending, r) := r.terminate s.clock
      let s := s.putRoom r
      let (tasks, s) := match ending with
        | some (msg, result) =>
          (members.map (Task.deliver · msg), { s with reports := s.reports ++ [result] })
        | none => ([], s)
      s.settle (tasks ++ .release roomId members :: members.map (Task.deliver · (.roomLeft roomId)))
  | none => s

/-- Creates a room: the configuration must be valid and the registry not full. -/
def createRoom (s : Server) (config : RoomConfig) : Except RoomError Uuid × Server :=
  match config.validate with
  | .error e => (.error e, s)
  | .ok () =>
    if s.maxRooms ≤ s.rooms.length then (.error .capacityReached, s)
    else
      let (id, s) := s.freshId
      let (a, g) := s.ids.nextU32
      let (b, g) := g.nextU32
      let seed := (a.toUInt64 <<< 32) ||| b.toUInt64
      (.ok id, { s with ids := g, rooms := s.rooms ++ [Room.new config id seed s.clock] })

/-- Whether summary `a` is listed before summary `b`: by name, then by id. -/
def listedBefore (a b : RoomSummary) : Bool :=
  a.name < b.name || (a.name == b.name && a.id.value < b.id.value)

/-- Inserts a summary into a listing. -/
def insertSummary (x : RoomSummary) : List RoomSummary → List RoomSummary
  | [] => [x]
  | y :: rest => if listedBefore x y then x :: y :: rest else y :: insertSummary x rest

/-- The summaries of the rooms, private ones only when asked, by name and then id. -/
def list (s : Server) (includePrivate : Bool) : List RoomSummary :=
  ((s.rooms.filter fun r => includePrivate || !r.rules.isPrivate).map Room.summary).foldl
    (fun acc x => insertSummary x acc) []

/-- Terminates and drops the rooms due for cleanup at `now`; gives them as they were left. -/
def sweep (s : Server) (now : Nat) : List Room × Server :=
  let due := (s.rooms.filter (·.shouldCleanup now)).map (·.id)
  let s := due.foldl terminate s
  (s.rooms.filter (due.contains ·.id), { s with rooms := s.rooms.filter fun r => !due.contains r.id })

/-- Terminates and drops every room. -/
def shutdownAll (s : Server) : Server :=
  let all := s.rooms.map (·.id)
  let s := all.foldl terminate s
  { s with rooms := [] }

/-- Sends a message to every registered connection of a player. -/
def notifyPlayer (s : Server) (playerId : Int) (msg : ServerMsg) : Server :=
  s.broadcast msg ((s.hub.forPlayer playerId).map (·.id))

/-- The number of players seated in all rooms. -/
def totalPlayers (s : Server) : Nat := s.rooms.foldl (fun n r => n + r.seats.length) 0

end Server

end Skirmish
