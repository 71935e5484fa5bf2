import Skirmish.Wire.ServerMsg

/-!
# Connections and their outbound queues

A `Connection` is one player's live link. It carries the player's id, whether it is still
alive, a reference to the room it sits in, and its outbound queue: the messages waiting to be
written to the socket, at most `capacity` of them. A queue that is full when one more message
arrives means a client that does not keep up, and the connection is closed.

The `Hub` keeps every connection it ever registered, in registration order. A closed connection
stays in the list — its queue can still be read — but is no longer registered, so it no longer
counts and is no longer found by player id.
-/

namespace Skirmish

/-- One player's link to the server. -/
structure Connection where
  id : Uuid
  playerId : Int
  alive : Bool
  /-- The room the connection sits in, if any. -/
  room : Option Uuid
  /-- Messages queued and not yet read, oldest first. -/
  outbox : List ServerMsg
  /-- Whether the hub still lists the connection. -/
  registered : Bool

/-- A new live connection. -/
def Connection.fresh (id : Uuid) (playerId : Int) : Connection :=
  ⟨id, playerId, true, none, [], true⟩

/-- The registry of connections. -/
structure Hub where
  connections : List Connection
  /-- The size of every outbound queue, at least one. -/
  capacity : Nat

namespace Hub

/-- An empty hub whose queues hold `capacity` messages (at least one). -/
def new (capacity : Nat) : Hub := ⟨[], max capacity 1⟩

/-- The connection with an id. -/
def get? (h : Hub) (id : Uuid) : Option Connection := h.connections.find? (·.id == id)

/-- Changes the connection with an id. -/
def update (h : Hub) (id : Uuid) (f : Connection → Connection) : Hub :=
  { h with connections := h.connections.map fun c => if c.id = id then f c else c }

/-- Adds a connection. -/
def register (h : Hub) (c : Connection) : Hub := { h with connections := h.connections ++ [c] }

/-- The registered connections. -/
def live (h : Hub) : List Connection := h.connections.filter (·.registered)

/-- The number of registered connections. -/
def count (h : Hub) : Nat := h.live.length

/-- The registered connections of a player. -/
def forPlayer (h : Hub) (playerId : Int) : List Connection :=
  h.live.filter (·.playerId == playerId)

/-- The number of live connections: each nested close takes one away. -/
def aliveCount (h : Hub) : Nat := (h.connections.filter (·.alive)).length

theorem aliveCount_eq_countP (h : Hub) : h.aliveCount = h.connections.countP (·.alive) :=
  List.countP_eq_length_filter.symm

theorem aliveCount_update (h : Hub) (id : Uuid) (f : Connection → Connection) :
    (h.update id f).aliveCount =
      h.connections.countP fun c => (if c.id = id then f c else c).alive := by
  rw [aliveCount_eq_countP]
  simp only [update, List.countP_map, Function.comp_def]

/-- An update that changes nothing about liveness keeps the count of live connections. -/
theorem aliveCount_update_eq {h : Hub} {id : Uuid} {f : Connection → Connection}
    (hf : ∀ c, (f c).alive = c.alive) : (h.update id f).aliveCount = h.aliveCount := by
  rw [aliveCount_update, aliveCount_eq_countP]
  refine List.countP_congr fun c _ => ?_
  split <;> simp [hf]

/-- Killing a live connection takes at least one from the count of live connections. -/
theorem aliveCount_update_lt {h : Hub} {id : Uuid} {c : Connection} (hc : h.get? id = some c)
    (ha : c.alive = true) {f : Connection → Connection} (hf : ∀ c, (f c).alive = false) :
    (h.update id f).aliveCount < h.aliveCount := by
  have hm : c ∈ h.connections := List.mem_of_find?_eq_some hc
  have hid : c.id = id := by simpa using List.find?_some hc
  obtain ⟨l₁, l₂, hl⟩ := List.append_of_mem hm
  rw [aliveCount_update, aliveCount_eq_countP, hl]
  have hmono : ∀ l : List Connection,
      l.countP (fun c => (if c.id = id then f c else c).alive) ≤ l.countP (·.alive) :=
    fun l => List.countP_mono_left fun x _ hx => by
      split at hx
      · rw [hf] at hx
        cases hx
      · exact hx
  have h₁ := hmono l₁
  have h₂ := hmono l₂
  simp only [List.countP_append, List.countP_cons, hid, if_true, hf, ha]
  simp only [Bool.false_eq_true, if_false]
  omega

/-- Empties every outbound queue, giving what each held. -/
def drain (h : Hub) : List (Uuid × List ServerMsg) × Hub :=
  (h.connections.map fun c => (c.id, c.outbox),
    { h with connections := h.connections.map fun c => { c with outbox := [] } })

end Hub

end Skirmish
