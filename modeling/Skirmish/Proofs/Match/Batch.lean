import Mathlib.Data.List.Nodup
import Skirmish.Match.Service

/-!
# One matching pass, mode by mode

A queue holds at most one request per player (`MatchQueue.Distinct`): queueing again replaces the
player's earlier request, and withdrawing or taking a batch only removes requests. On such a
queue, putting a taken batch back at the head (`requeueFront`) restores the queue exactly, since
none of the batch's players waits in the rest of it (`Distinct.requeueFront_take_drop`).

So one mode's turn in a pass can be said without the round trip (`Matchmaker.turn`): a mode with
fewer requests than it needs is left alone; otherwise its oldest requests are the batch and one
room is asked for, with the mode's player count and the matchmade map. A room takes the batch out
of the queue, records the room as the assignment of each of its players and tells them, once
each and in queue order; a refusal leaves the matchmaker as it was. Every pass over queues of
distinct players is these turns, in the order of `GameMode.all`, after the assignments that
expired are forgotten (`Matchmaker.pass_eq_turns`).
-/

namespace Skirmish

/-- A fold whose accumulator is a pair updated component-wise is two folds. -/
theorem List.foldl_pair {α β γ : Type} (f : α → γ → α) (g : β → γ → β) (l : List γ) (a : α)
    (b : β) : l.foldl (fun x c => (f x.1 c, g x.2 c)) (a, b) = (l.foldl f a, l.foldl g b) := by
  induction l generalizing a b with
  | nil => rfl
  | cons c l ih => exact ih (f a c) (g b c)

theorem GameMode.requiredPlayers_pos (mode : GameMode) : 0 < mode.requiredPlayers := by
  cases mode <;> decide

namespace MatchQueue

/-- The players waiting, oldest first. -/
def players (q : MatchQueue) : List Int := q.requests.map (·.playerId)

/-- At most one request per player. -/
def Distinct (q : MatchQueue) : Prop := q.players.Nodup

theorem contains_iff {q : MatchQueue} {p : Int} : q.contains p = true ↔ p ∈ q.players := by
  simp [contains, players]

theorem empty_distinct : empty.Distinct := List.nodup_nil

theorem Distinct.enqueue {q : MatchQueue} (h : q.Distinct) (r : MatchRequest) :
    (q.enqueue r).Distinct := by
  have hf : (q.requests.filter (·.playerId != r.playerId)).map (·.playerId) |>.Nodup :=
    h.sublist (List.filter_sublist.map _)
  simp only [Distinct, players, MatchQueue.enqueue, List.map_append, List.map_cons,
    List.map_nil]
  refine List.Nodup.append hf (List.nodup_singleton _) fun a ha hb => ?_
  obtain ⟨x, hx, rfl⟩ := List.mem_map.1 ha
  have hne := (List.mem_filter.1 hx).2
  rw [List.mem_singleton] at hb
  simp [hb] at hne

/-- Withdrawing removes the player's first request, if there is one. -/
theorem requests_dequeue (q : MatchQueue) (p : Int) :
    (q.dequeue p).2.requests = q.requests.eraseP (·.playerId == p) := by
  unfold dequeue
  split
  · rfl
  · rename_i h
    refine (List.eraseP_of_forall_not fun r hr he => h ?_).symm
    exact contains_iff.2 (List.mem_map.2 ⟨r, hr, by simpa using he⟩)

/-- Among requests of distinct players, erasing a player's first request erases all of them. -/
theorem eraseP_eq_filter {l : List MatchRequest} (h : (l.map (·.playerId)).Nodup) (p : Int) :
    l.eraseP (·.playerId == p) = l.filter (·.playerId != p) := by
  induction l with
  | nil => rfl
  | cons r l ih =>
    rw [List.map_cons, List.nodup_cons] at h
    by_cases hr : r.playerId = p
    · have hrest : l.filter (·.playerId != p) = l :=
        List.filter_eq_self.2 fun x hx => by
          have : x.playerId ≠ p := fun he => h.1 (hr ▸ he ▸ List.mem_map_of_mem hx)
          simpa using this
      simp [hr, hrest]
    · simp [hr, ih h.2]

/-- In a queue of distinct players, withdrawing removes every request of the player. -/
theorem Distinct.requests_dequeue {q : MatchQueue} (h : q.Distinct) (p : Int) :
    (q.dequeue p).2.requests = q.requests.filter (·.playerId != p) := by
  rw [MatchQueue.requests_dequeue, eraseP_eq_filter h]

theorem Distinct.dequeue {q : MatchQueue} (h : q.Distinct) (p : Int) : (q.dequeue p).2.Distinct := by
  unfold Distinct players
  rw [MatchQueue.requests_dequeue]
  exact h.sublist (List.eraseP_sublist.map _)

theorem takeBatch_of_lt {q : MatchQueue} {n : Nat} (h : q.length < n) : q.takeBatch n = (none, q) := by
  simp [takeBatch, h]

theorem takeBatch_of_le {q : MatchQueue} {n : Nat} (hn : 0 < n) (h : n ≤ q.length) :
    q.takeBatch n = (some (q.requests.take n), ⟨q.requests.drop n⟩) := by
  simp [takeBatch, Nat.pos_iff_ne_zero.1 hn, Nat.not_lt.2 h]

/-- The first request of a batch goes back last, in front of the rest of the batch. -/
theorem requeueFront_cons (q : MatchQueue) (r : MatchRequest) (batch : List MatchRequest) :
    q.requeueFront (r :: batch) =
      let q' := q.requeueFront batch
      if q'.contains r.playerId then q' else ⟨r :: q'.requests⟩ := by
  simp only [requeueFront, List.reverse_cons, List.foldl_append, List.foldl_cons, List.foldl_nil]
  rfl

/-- A batch none of whose players waits goes back whole, in its order. -/
theorem requeueFront_of_nodup {rest : List MatchRequest} :
    ∀ {batch : List MatchRequest}, ((batch ++ rest).map (·.playerId)).Nodup →
      (⟨rest⟩ : MatchQueue).requeueFront batch = ⟨batch ++ rest⟩
  | [], _ => rfl
  | r :: batch, h => by
    rw [List.cons_append, List.map_cons, List.nodup_cons] at h
    rw [requeueFront_cons, requeueFront_of_nodup h.2]
    have hr : (⟨batch ++ rest⟩ : MatchQueue).contains r.playerId = false := by
      rw [Bool.eq_false_iff]
      exact fun hc => h.1 (contains_iff.1 hc)
    simp only [hr, Bool.false_eq_true, if_false, List.cons_append]

/-- Taking the oldest requests and putting them back restores a queue of distinct players. -/
theorem Distinct.requeueFront_take_drop {q : MatchQueue} (h : q.Distinct) (n : Nat) :
    (⟨q.requests.drop n⟩ : MatchQueue).requeueFront (q.requests.take n) = q := by
  rw [requeueFront_of_nodup (by rwa [List.take_append_drop])]
  simp only [List.take_append_drop]

theorem Distinct.drop {q : MatchQueue} (h : q.Distinct) (n : Nat) :
    (⟨q.requests.drop n⟩ : MatchQueue).Distinct := by
  simpa only [Distinct, players, List.map_drop] using h.sublist (List.drop_sublist _ _)

end MatchQueue

namespace Matchmaker

variable {σ : Type}

@[simp] theorem queues_setQueue (mm : Matchmaker) (mode m : GameMode) (q : MatchQueue) :
    (mm.setQueue mode q).queues m = if m = mode then q else mm.queues m := rfl

theorem setQueue_self (mm : Matchmaker) (mode : GameMode) : mm.setQueue mode (mm.queues mode) = mm := by
  cases mm
  simp only [setQueue, Matchmaker.mk.injEq, and_true]
  funext m
  split
  · subst m
    rfl
  · rfl

/-- Forgetting the assignment of another player keeps a player's. -/
theorem find?_filter_ne {l : List (Int × Uuid × Nat)} {p q : Int} (h : q ≠ p) :
    (l.filter (·.1 != q)).find? (·.1 == p) = l.find? (·.1 == p) := by
  rw [List.find?_filter]
  congr 1
  funext a
  by_cases ha : a.1 = p
  · simp [ha, Ne.symm h]
  · simp [ha]

@[simp] theorem queues_assign (mm : Matchmaker) (p : Int) (room : Uuid) (now : Nat) :
    (mm.assign p room now).queues = mm.queues := rfl

@[simp] theorem queues_prune (mm : Matchmaker) (now : Nat) : (mm.prune now).queues = mm.queues := rfl

@[simp] theorem queues_enqueue (mm : Matchmaker) (r : MatchRequest) (m : GameMode) :
    (mm.enqueue r).queues m = if m = r.mode then (mm.queues r.mode).enqueue r else mm.queues m := rfl

@[simp] theorem queues_dequeue (mm : Matchmaker) (p : Int) (mode m : GameMode) :
    (mm.dequeue p mode).2.queues m =
      if m = mode then ((mm.queues mode).dequeue p).2 else mm.queues m := rfl

theorem queues_foldl_assign (batch : List MatchRequest) (room : Uuid) (now : Nat) (mm : Matchmaker) :
    (batch.foldl (fun mm r => mm.assign r.playerId room now) mm).queues = mm.queues := by
  induction batch generalizing mm with
  | nil => rfl
  | cons r batch ih => exact ih _

/-- After a batch is assigned a room, each of its players, all distinct, has that room. -/
theorem find?_foldl_assign {batch : List MatchRequest} (hd : (batch.map (·.playerId)).Nodup)
    (room : Uuid) (now : Nat) (mm : Matchmaker) {r : MatchRequest} (hr : r ∈ batch) :
    (batch.foldl (fun mm r => mm.assign r.playerId room now) mm).assignments.find?
      (·.1 == r.playerId) = some (r.playerId, room, now) := by
  induction batch generalizing mm with
  | nil => cases hr
  | cons x batch ih =>
    rw [List.map_cons, List.nodup_cons] at hd
    rw [List.foldl_cons]
    rcases List.mem_cons.1 hr with rfl | hr
    · -- the player's entry stands first and no later player of the batch removes it
      clear ih
      have keep : ∀ (l : List MatchRequest) (mm : Matchmaker), r.playerId ∉ l.map (·.playerId) →
          (mm.assignments.find? (·.1 == r.playerId)) = some (r.playerId, room, now) →
          ((l.foldl (fun mm r => mm.assign r.playerId room now) mm).assignments.find?
            (·.1 == r.playerId)) = some (r.playerId, room, now) := by
        intro l
        induction l with
        | nil => exact fun _ _ h => h
        | cons y l ihl =>
          intro mm hy h
          rw [List.map_cons, List.mem_cons, not_or] at hy
          refine ihl _ hy.2 ?_
          have hne : (y.playerId == r.playerId) = false := by simpa using Ne.symm hy.1
          simp only [assign, List.find?_cons, hne]
          rw [find?_filter_ne (Ne.symm hy.1), h]
      exact keep batch _ hd.1 (by simp [assign])
    · exact ih hd.2 _ hr

/-- One mode's turn in a pass, said directly. With fewer requests than the mode needs nothing
happens. Otherwise the oldest requests are the batch, and one room is asked for, named after the
mode and the time of day, for the mode's player count on the matchmade map. A room counts one
more, takes the batch out of the queue, becomes the assignment of each of its players and is told
to each of them, once and in queue order; a refusal leaves the matchmaker as it was. -/
def turn (target : MatchTarget σ) (now : Nat) : Nat × Matchmaker × σ → GameMode → Nat × Matchmaker × σ
  | (created, mm, world), mode =>
    let queued := (mm.queues mode).requests
    let required := mode.requiredPlayers
    if queued.length < required then (created, mm, world)
    else
      let batch := queued.take required
      match target.create world (mode.name ++ "-" ++ clockDigits now) mode required matchMapId with
      | (.ok room, world) =>
        (created + 1,
          batch.foldl (fun mm r => mm.assign r.playerId room.id now)
            (mm.setQueue mode ⟨queued.drop required⟩),
          batch.foldl (fun world r => target.notify world r.playerId room) world)
      | (.error _, world) => (created, mm, world)

/-- On a queue of distinct players, a mode's turn in a pass is `turn`: a refused batch goes
back where it was. -/
theorem passMode_eq_turn (target : MatchTarget σ) (now : Nat) (c : Nat) (mm : Matchmaker)
    (world : σ) (mode : GameMode) (h : (mm.queues mode).Distinct) :
    passMode target now (c, mm, world) mode = turn target now (c, mm, world) mode := by
  by_cases hl : (mm.queues mode).length < mode.requiredPlayers
  · simp only [passMode, turn, MatchQueue.takeBatch_of_lt hl]
    simp only [MatchQueue.length] at hl
    rw [if_pos hl]
  rw [passMode, MatchQueue.takeBatch_of_le mode.requiredPlayers_pos (Nat.not_lt.1 hl)]
  simp only [turn, MatchQueue.length] at hl ⊢
  rw [if_neg hl]
  cases target.create world (mode.name ++ "-" ++ clockDigits now) mode mode.requiredPlayers
    matchMapId with
  | mk result world' =>
    cases result with
    | ok room =>
      dsimp only
      rw [List.foldl_pair (fun (mm : Matchmaker) (r : MatchRequest) => mm.assign r.playerId room.id now)
        (fun (world : σ) (r : MatchRequest) => target.notify world r.playerId room)]
    | error e =>
      dsimp only
      rw [h.requeueFront_take_drop, setQueue_self]

/-- A turn keeps every queue a queue of distinct players. -/
theorem turn_distinct (target : MatchTarget σ) (now : Nat) (acc : Nat × Matchmaker × σ)
    (mode : GameMode) (h : ∀ m, (acc.2.1.queues m).Distinct) (m : GameMode) :
    ((turn target now acc mode).2.1.queues m).Distinct := by
  obtain ⟨c, mm, world⟩ := acc
  simp only [turn]
  split
  · exact h m
  · split
    · rw [queues_foldl_assign, queues_setQueue]
      split
      · exact (h mode).drop _
      · exact h m
    · exact h m

theorem foldl_passMode_eq_turn (target : MatchTarget σ) (now : Nat) :
    ∀ (modes : List GameMode) (acc : Nat × Matchmaker × σ), (∀ m, (acc.2.1.queues m).Distinct) →
      modes.foldl (passMode target now) acc = modes.foldl (turn target now) acc
  | [], _, _ => rfl
  | mode :: modes, ⟨c, mm, world⟩, h => by
    rw [List.foldl_cons, List.foldl_cons, passMode_eq_turn target now c mm world mode (h mode)]
    exact foldl_passMode_eq_turn target now modes _ (turn_distinct target now _ mode h)

/-- A pass over queues of distinct players forgets the expired assignments, then gives each mode
its turn, in the order of `GameMode.all`. -/
theorem pass_eq_turns (mm : Matchmaker) (target : MatchTarget σ) (world : σ) (now : Nat)
    (h : ∀ m, (mm.queues m).Distinct) :
    mm.pass target world now = GameMode.all.foldl (turn target now) (0, mm.prune now, world) :=
  foldl_passMode_eq_turn target now _ _ h

end Matchmaker

end Skirmish
