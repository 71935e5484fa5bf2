import Skirmish.Game.Mode

/-!
# The matchmaking queue of one mode

A `MatchQueue` holds the requests of players waiting for a match, oldest first, at most one per
player: queueing again replaces the earlier request and goes to the back. `takeBatch` takes the
oldest requests when enough are waiting. `requeueFront` puts a batch back at the head in its
order, except for players who queued again meanwhile, whose newer request stands.
-/

namespace Skirmish

/-- A player's request to be matched. -/
structure MatchRequest where
  playerId : Int
  characterId : Nat
  mode : GameMode
  session : String

/-- The requests waiting in one mode, oldest first. -/
structure MatchQueue where
  requests : List MatchRequest

namespace MatchQueue

/-- A queue with nobody waiting. -/
def empty : MatchQueue := ⟨[]⟩

/-- Whether a player waits. -/
def contains (q : MatchQueue) (playerId : Int) : Bool := q.requests.any (·.playerId == playerId)

/-- The number of requests waiting. -/
def length (q : MatchQueue) : Nat := q.requests.length

/-- Adds a request at the back, dropping the player's earlier request. -/
def enqueue (q : MatchQueue) (r : MatchRequest) : MatchQueue :=
  ⟨q.requests.filter (·.playerId != r.playerId) ++ [r]⟩

/-- Withdraws a player's first request; `true` when there was one. -/
def dequeue (q : MatchQueue) (playerId : Int) : Bool × MatchQueue :=
  if q.contains playerId then (true, ⟨q.requests.eraseP (·.playerId == playerId)⟩)
  else (false, q)

/-- Takes the `count` oldest requests, or none when `count` is zero or fewer wait. -/
def takeBatch (q : MatchQueue) (count : Nat) : Option (List MatchRequest) × MatchQueue :=
  if count = 0 ∨ q.length < count then (none, q)
  else (some (q.requests.take count), ⟨q.requests.drop count⟩)

/-- Puts a batch back at the head in its order, skipping players who wait again. -/
def requeueFront (q : MatchQueue) (batch : List MatchRequest) : MatchQueue :=
  batch.reverse.foldl (fun q r => if q.contains r.playerId then q else ⟨r :: q.requests⟩) q

end MatchQueue

end Skirmish
