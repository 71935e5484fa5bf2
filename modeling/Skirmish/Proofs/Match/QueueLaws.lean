import Skirmish.Proofs.Match.Batch

/-!
# The queue of one mode as a list

A `MatchQueue` is a list of requests with at most one per player, and on such a list each of its
operations has a list model:

* queueing drops the player's earlier request and adds the new one at the back;
* withdrawing takes out the player's one request, wherever it stands, and says whether there was
  one (`Distinct.dequeue_of_mem`, `dequeue_of_not_mem`);
* taking a batch splits off the `n` oldest requests when `1 ≤ n` and at least `n` wait, and
  otherwise leaves the queue as it is (`takeBatch_eq`);
* putting a batch back puts in front of the queue, in batch order, the last request in the batch
  of each of its players who does not wait (`requeueFront_eq`, with `returning`); so a batch just
  taken goes back exactly where it was (`Distinct.requeueFront_takeBatch`).

Every operation keeps the players distinct, whatever batch is put back (`Distinct.perform`), so
every queue that operations reach from an empty one is such a list (`run_list_model`).
-/

namespace Skirmish

namespace MatchQueue

/-! ## The requests a batch puts back -/

/-- The requests of a batch that go back in front of a queue where the players `waiting` wait:
a request returns when its player does not wait and has no later request in the batch. So each
player of the batch who does not wait comes back once, with its last request, in batch order. -/
def returning (waiting : List Int) : List MatchRequest → List MatchRequest
  | [] => []
  | r :: rest =>
    if r.playerId ∈ waiting ∨ r.playerId ∈ rest.map (·.playerId) then returning waiting rest
    else r :: returning waiting rest

variable {waiting : List Int}

/-- What returns keeps the order of the batch. -/
theorem returning_sublist : ∀ batch : List MatchRequest, (returning waiting batch).Sublist batch
  | [] => .slnil
  | r :: rest => by
    unfold returning
    split
    · exact (returning_sublist rest).cons r
    · exact (returning_sublist rest).cons_cons r

/-- The players who come back are the players of the batch who do not wait. -/
theorem mem_players_returning {p : Int} : ∀ {batch : List MatchRequest},
    p ∈ (returning waiting batch).map (·.playerId) ↔ p ∈ batch.map (·.playerId) ∧ p ∉ waiting
  | [] => by simp [returning]
  | r :: rest => by
    unfold returning
    split
    · rename_i hskip
      rw [mem_players_returning, List.map_cons, List.mem_cons]
      constructor
      · exact fun ⟨hb, hw⟩ => ⟨.inr hb, hw⟩
      · rintro ⟨rfl | hb, hw⟩
        · exact ⟨hskip.resolve_left hw, hw⟩
        · exact ⟨hb, hw⟩
    · rename_i hkeep
      rw [not_or] at hkeep
      rw [List.map_cons, List.mem_cons, mem_players_returning, List.map_cons, List.mem_cons]
      constructor
      · rintro (rfl | ⟨hb, hw⟩)
        · exact ⟨.inl rfl, hkeep.1⟩
        · exact ⟨.inr hb, hw⟩
      · rintro ⟨rfl | hb, hw⟩
        · exact .inl rfl
        · exact .inr ⟨hb, hw⟩

/-- Each player comes back once. -/
theorem nodup_players_returning :
    ∀ batch : List MatchRequest, ((returning waiting batch).map (·.playerId)).Nodup
  | [] => List.nodup_nil
  | r :: rest => by
    unfold returning
    split
    · exact nodup_players_returning rest
    · rename_i hkeep
      rw [List.map_cons, List.nodup_cons, mem_players_returning]
      exact ⟨fun hm => hkeep (.inr hm.1), nodup_players_returning rest⟩

/-! ## Each operation as a list -/

@[simp] theorem players_mk (l : List MatchRequest) :
    (⟨l⟩ : MatchQueue).players = l.map (·.playerId) := rfl

/-- Putting a batch back puts the requests that return in front of the queue. The batch is put
back last request first, and a request is skipped when its player waits by then: either in the
queue, or with a later request of the batch put back before it. -/
theorem requeueFront_eq (q : MatchQueue) : ∀ batch : List MatchRequest,
    q.requeueFront batch = ⟨returning q.players batch ++ q.requests⟩
  | [] => rfl
  | r :: batch => by
    rw [requeueFront_cons, requeueFront_eq q batch]
    have hwaits : (⟨returning q.players batch ++ q.requests⟩ : MatchQueue).contains r.playerId =
        true ↔ r.playerId ∈ q.players ∨ r.playerId ∈ batch.map (·.playerId) := by
      rw [contains_iff, players_mk, List.map_append, List.mem_append, mem_players_returning]
      by_cases hq : r.playerId ∈ q.players
      · simp only [hq, true_or, iff_true]
        exact .inr hq
      · simp only [hq, not_false_eq_true, and_true, false_or]
        exact or_iff_left hq
    by_cases h : r.playerId ∈ q.players ∨ r.playerId ∈ batch.map (·.playerId)
    · rw [if_pos (hwaits.2 h), returning, if_pos h]
    · rw [if_neg (mt hwaits.1 h), returning, if_neg h]
      rfl

/-- A player who waits again keeps the newer request; the others come back in batch order. -/
example : ((⟨[⟨2, 1, .deathMatch, "b"⟩]⟩ : MatchQueue).requeueFront
    [⟨1, 1, .deathMatch, "a"⟩, ⟨2, 1, .deathMatch, "a"⟩]).players = [1, 2] := by
  rfl

theorem Distinct.requeueFront {q : MatchQueue} (h : q.Distinct) (batch : List MatchRequest) :
    (q.requeueFront batch).Distinct := by
  rw [requeueFront_eq]
  simp only [Distinct, players_mk, List.map_append]
  exact List.Nodup.append (nodup_players_returning batch) h
    fun _ hr hq => (mem_players_returning.1 hr).2 hq

/-- Withdrawing from a queue of distinct players takes out the player's one request, wherever it
stands, and reports it. -/
theorem Distinct.dequeue_of_mem {q : MatchQueue} (h : q.Distinct) {p : Int} (hp : p ∈ q.players) :
    ∃ l₁ r l₂, q.requests = l₁ ++ r :: l₂ ∧ r.playerId = p ∧ p ∉ (l₁ ++ l₂).map (·.playerId) ∧
      q.dequeue p = (true, ⟨l₁ ++ l₂⟩) := by
  obtain ⟨r, hr, rfl⟩ := List.mem_map.1 hp
  obtain ⟨l₁, l₂, hsplit⟩ := List.append_of_mem hr
  have hnot : r.playerId ∉ (l₁ ++ l₂).map (·.playerId) := by
    have hnd : ((l₁ ++ r :: l₂).map (·.playerId)).Nodup := hsplit ▸ h
    rw [List.map_append, List.map_cons, List.nodup_middle, List.nodup_cons] at hnd
    rw [List.map_append]
    exact hnd.1
  refine ⟨l₁, r, l₂, hsplit, rfl, hnot, ?_⟩
  have hl₁ : ∀ x ∈ l₁, ¬ (x.playerId == r.playerId) = true := fun x hx he =>
    hnot (beq_iff_eq.1 he ▸ List.mem_map_of_mem (List.mem_append_left _ hx))
  rw [MatchQueue.dequeue, if_pos (contains_iff.2 hp), hsplit, List.eraseP_append_right _ hl₁]
  simp

theorem dequeue_of_not_mem {q : MatchQueue} {p : Int} (hp : p ∉ q.players) :
    q.dequeue p = (false, q) := by
  rw [dequeue, if_neg (mt contains_iff.1 hp)]

/-- Taking a batch splits off the oldest requests when at least one is asked for and enough
wait; otherwise nothing changes. -/
theorem takeBatch_eq (q : MatchQueue) (n : Nat) :
    q.takeBatch n = if 0 < n ∧ n ≤ q.length then (some (q.requests.take n), ⟨q.requests.drop n⟩)
      else (none, q) := by
  by_cases h : 0 < n ∧ n ≤ q.length
  · rw [if_pos h, takeBatch_of_le h.1 h.2]
  · rw [if_neg h, takeBatch, if_pos (by omega)]

/-- A batch just taken from a queue of distinct players goes back exactly where it was. -/
theorem Distinct.requeueFront_takeBatch {q q' : MatchQueue} (h : q.Distinct) {n : Nat}
    {batch : List MatchRequest} (ht : q.takeBatch n = (some batch, q')) : q'.requeueFront batch = q := by
  rw [takeBatch_eq] at ht
  split at ht
  · obtain ⟨hb, rfl⟩ := Prod.mk.inj ht
    rw [← Option.some.inj hb]
    exact h.requeueFront_take_drop n
  · cases ht

/-! ## Runs of operations -/

/-- An operation on the queue of a mode. -/
inductive QueueOp where
  | enqueue (r : MatchRequest)
  | dequeue (playerId : Int)
  | takeBatch (count : Nat)
  /-- Any batch may be put back: one taken earlier, in any order, or any other. -/
  | requeueFront (batch : List MatchRequest)

/-- The queue after an operation; what the operation answers is dropped. -/
def perform (q : MatchQueue) : QueueOp → MatchQueue
  | .enqueue r => q.enqueue r
  | .dequeue p => (q.dequeue p).2
  | .takeBatch n => (q.takeBatch n).2
  | .requeueFront batch => q.requeueFront batch

/-- Every operation keeps the players of a queue distinct. -/
theorem Distinct.perform {q : MatchQueue} (h : q.Distinct) : ∀ op, (q.perform op).Distinct
  | .enqueue r => h.enqueue r
  | .dequeue p => h.dequeue p
  | .takeBatch n => by
    rw [MatchQueue.perform, takeBatch_eq]
    split
    · exact h.drop n
    · exact h
  | .requeueFront batch => h.requeueFront batch

theorem Distinct.foldl_perform {q : MatchQueue} (h : q.Distinct) :
    ∀ ops : List QueueOp, (ops.foldl MatchQueue.perform q).Distinct
  | [] => h
  | op :: ops => (h.perform op).foldl_perform ops

/-- Every queue reached from empty holds distinct players, and each operation on it is its list
model; so a batch just taken and put back restores the queue. -/
theorem run_list_model (ops : List QueueOp) :
    let q := ops.foldl MatchQueue.perform empty
    q.Distinct ∧
    (∀ r, q.enqueue r = ⟨q.requests.filter (·.playerId != r.playerId) ++ [r]⟩) ∧
    (∀ p, p ∈ q.players → ∃ l₁ r l₂, q.requests = l₁ ++ r :: l₂ ∧ r.playerId = p ∧
      p ∉ (l₁ ++ l₂).map (·.playerId) ∧ q.dequeue p = (true, ⟨l₁ ++ l₂⟩)) ∧
    (∀ p, p ∉ q.players → q.dequeue p = (false, q)) ∧
    (∀ n, q.takeBatch n = if 0 < n ∧ n ≤ q.length then
      (some (q.requests.take n), ⟨q.requests.drop n⟩) else (none, q)) ∧
    (∀ batch, q.requeueFront batch = ⟨returning q.players batch ++ q.requests⟩) ∧
    (∀ n batch q', q.takeBatch n = (some batch, q') → q'.requeueFront batch = q) := by
  intro q
  have h : q.Distinct := empty_distinct.foldl_perform ops
  exact ⟨h, fun _ => rfl, fun _ hp => h.dequeue_of_mem hp, fun _ hp => dequeue_of_not_mem hp,
    takeBatch_eq q, requeueFront_eq q, fun _ _ _ ht => h.requeueFront_takeBatch ht⟩

end MatchQueue

end Skirmish
