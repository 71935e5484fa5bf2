import Skirmish.Match.Queue
import Skirmish.Ident.Uuid
import Skirmish.Clock

/-!
# Matchmaking

A `Matchmaker` keeps one queue per mode and remembers where its last passes put each player.
A pass first forgets assignments older than the time to live. Then, mode by mode in the fixed
order, it takes one full batch of the mode's player count. It asks its `MatchTarget` for a room
named after the mode and the time of day, and on success records each player's assignment and
tells the player. When the room cannot be made, the batch goes back to the head of its queue.

The target is any world `σ` that can make rooms and reach players. The server is one, and a
test stand-in is another.
-/

namespace Skirmish

/-- A room made for a matched batch, as matchmaking reports it. -/
structure RoomHandle where
  id : Uuid
  name : String
  mode : GameMode
  maxPlayers : Nat
  mapId : Nat

/-- Where matchmaking makes rooms and finds players. -/
structure MatchTarget (σ : Type) where
  /-- Makes a room from a name, a mode, a seat count and a map, or says why it cannot. -/
  create : σ → String → GameMode → Nat → Nat → Except String RoomHandle × σ
  /-- Tells a player the room it was matched into. -/
  notify : σ → Int → RoomHandle → σ

/-- The map of matchmade rooms. -/
def matchMapId : Nat := 1

/-- How long an assignment stays visible by default, in milliseconds. -/
def assignmentTtlMs : Nat := 300000

/-- The queues of all modes and the assignments of recent passes. -/
structure Matchmaker where
  queues : GameMode → MatchQueue
  /-- Player, room and the time of the assignment; one entry per player. -/
  assignments : List (Int × Uuid × Nat)
  /-- How long an assignment stays visible, in milliseconds. -/
  ttlMs : Nat

namespace Matchmaker

/-- A matchmaker with empty queues. -/
def new (ttlMs : Nat) : Matchmaker := ⟨fun _ => .empty, [], ttlMs⟩

/-- Replaces the queue of a mode. -/
def setQueue (mm : Matchmaker) (mode : GameMode) (q : MatchQueue) : Matchmaker :=
  { mm with queues := fun m => if m = mode then q else mm.queues m }

/-- Queues a request; the player's old assignment is forgotten. -/
def enqueue (mm : Matchmaker) (r : MatchRequest) : Matchmaker :=
  let mm := { mm with assignments := mm.assignments.filter (·.1 != r.playerId) }
  mm.setQueue r.mode ((mm.queues r.mode).enqueue r)

/-- Withdraws a player's request from a mode's queue. -/
def dequeue (mm : Matchmaker) (playerId : Int) (mode : GameMode) : Bool × Matchmaker :=
  let (removed, q) := (mm.queues mode).dequeue playerId
  (removed, mm.setQueue mode q)

/-- The number of requests waiting in a mode. -/
def depth (mm : Matchmaker) (mode : GameMode) : Nat := (mm.queues mode).length

/-- Whether an assignment made at `since` is still visible at `now`. -/
def fresh (mm : Matchmaker) (now since : Nat) : Bool := now - since < mm.ttlMs

/-- The room a player was matched into, while the assignment is visible. -/
def assignment (mm : Matchmaker) (playerId : Int) (now : Nat) : Option Uuid :=
  match mm.assignments.find? (·.1 == playerId) with
  | some (_, room, since) => if mm.fresh now since then some room else none
  | none => none

/-- The number of assignments kept, visible or not. -/
def assignmentCount (mm : Matchmaker) : Nat := mm.assignments.length

/-- Forgets the assignments no longer visible. -/
def prune (mm : Matchmaker) (now : Nat) : Matchmaker :=
  { mm with assignments := mm.assignments.filter fun (_, _, since) => mm.fresh now since }

/-- Records a player's assignment. -/
def assign (mm : Matchmaker) (playerId : Int) (room : Uuid) (now : Nat) : Matchmaker :=
  { mm with assignments := (playerId, room, now) :: mm.assignments.filter (·.1 != playerId) }

/-- Forms at most one batch of a mode: the rooms made so far count up in `created`. -/
def passMode {σ : Type} (target : MatchTarget σ) (now : Nat) :
    Nat × Matchmaker × σ → GameMode → Nat × Matchmaker × σ
  | (created, mm, world), mode =>
    let required := mode.requiredPlayers
    match (mm.queues mode).takeBatch required with
    | (none, _) => (created, mm, world)
    | (some batch, q) =>
      let name := mode.name ++ "-" ++ clockDigits now
      match target.create world name mode required matchMapId with
      | (.ok room, world) =>
        let (mm, world) := batch.foldl
          (fun (mm, world) r => (mm.assign r.playerId room.id now, target.notify world r.playerId room))
          (mm.setQueue mode q, world)
        (created + 1, mm, world)
      | (.error _, world) => (created, mm.setQueue mode (q.requeueFront batch), world)

/-- One matching pass over every mode; gives the number of rooms made. -/
def pass {σ : Type} (mm : Matchmaker) (target : MatchTarget σ) (world : σ) (now : Nat) :
    Nat × Matchmaker × σ :=
  GameMode.all.foldl (passMode target now) (0, mm.prune now, world)

end Matchmaker

end Skirmish
