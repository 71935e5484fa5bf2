import Skirmish.Proofs.Room.Lifecycle

/-!
# A game ends once

The end of a game is the `game_end` message together with the match result handed to the
statistics service. Two requests can give it: a step of play that reaches the time limit or the
score limit, and the termination of a room that is still playing (`Turn.EndsGame`). Both move
the room from playing to ended, and no request moves a room back (`react_rank`), so in a run
from any room, however its requests are ordered and however often it is terminated, at most one
turn gives an end (`runEvents_ends_once`). Terminating a room that never started, or whose game
a step already ended, gives none.
-/

namespace Skirmish

namespace Room

/-- How a turn ends the game: a step of play reaches the time or the score limit, or a room
still playing is terminated. Either way the room ends, and the turn gives the end of the game
for the reason. -/
inductive Turn.EndsGame : Turn → Prop
  | limit {r r' : Room} {dt : Float32} {now : Nat} {out : TickOutput} {reason : EndReason} :
      r.stopped = false → r.status = .playing → r'.status = .ended →
      (reason = .timeLimit ∨ reason = .scoreLimit) → out.ended = some (r'.finish reason now) →
      Turn.EndsGame ⟨r, .step dt now, out, r'⟩
  | terminated {r r' : Room} {now : Nat} {out : TickOutput} :
      r.stopped = false → r.status = .playing → r'.status = .ended →
      out.ended = some (r'.finish .terminated now) → Turn.EndsGame ⟨r, .terminate now, out, r'⟩

theorem Turn.EndsGame.status {t : Turn} (h : t.EndsGame) :
    t.before.status = .playing ∧ t.after.status = .ended := by
  cases h with
  | limit _ hp he => exact ⟨hp, he⟩
  | terminated _ hp he => exact ⟨hp, he⟩

theorem RoomStatus.eq_ended_of_rank {s : RoomStatus} (h : RoomStatus.ended.rank ≤ s.rank) :
    s = .ended := by
  cases s with
  | waiting => exact absurd h (by decide)
  | playing => exact absurd h (by decide)
  | ended => rfl

variable {r r' : Room} {e : Event} {out : TickOutput}

/-- No request moves a room's status back. -/
theorem react_rank (h : r.react e = .ok (out, r')) : r.status.rank ≤ r'.status.rank := by
  rcases react_cases h with ⟨-, rfl⟩ | ⟨_, _, _, _, -, -, -, -, rfl⟩ | ⟨_, _, _, -, -, hu⟩ |
    ⟨_, _, -, -, hr⟩ | ⟨_, _, _, _, -, -, hi⟩ | ⟨_, now, -, -, hw, -, rfl⟩ |
    ⟨dt, now, -, -, -, hs⟩ | ⟨now, -, hs, -, rfl⟩
  · exact Nat.le_refl _
  · exact Nat.le_refl _
  · exact (unseat_lifecycle hu).1 ▸ Nat.le_refl _
  · exact (setReady_lifecycle hr).1 ▸ Nat.le_refl _
  · exact (handleInput_lifecycle hi).1 ▸ Nat.le_refl _
  · unfold checkReady
    split
    · exact Nat.le_refl _
    · simp [hw, RoomStatus.rank]
  · obtain ⟨-, r₁, -, hr₁, -, -, hend⟩ := simulate_eq_ok hs
    rcases hend with ⟨-, -, rfl, -⟩ | ⟨-, rfl, -⟩
    · exact RoomStatus.rank_le_ended _
    · exact Nat.le_of_eq (by rw [hr₁])
  · rw [terminate_of_running hs]
    exact RoomStatus.rank_le_ended _

/-- A turn gives the end of the game exactly when it ends the game. -/
theorem react_ended_iff (h : r.react e = .ok (out, r')) :
    out.ended.isSome ↔ Turn.EndsGame ⟨r, e, out, r'⟩ := by
  rcases react_cases h with ⟨rfl, rfl⟩ | ⟨_, _, _, _, rfl, rfl, -, -, rfl⟩ |
    ⟨_, _, _, rfl, rfl, hu⟩ | ⟨_, _, rfl, rfl, hr⟩ | ⟨_, _, _, _, rfl, rfl, hi⟩ |
    ⟨dt, now, rfl, -, hw, rfl, rfl⟩ | ⟨dt, now, rfl, hs, hp, hsim⟩ | ⟨now, rfl, hs, rfl, rfl⟩
  · refine iff_of_false (by simp [TickOutput.none]) fun hg => ?_
    obtain ⟨hp, he⟩ := hg.status
    rw [hp] at he
    cases he
  · exact iff_of_false (by simp [TickOutput.none]) nofun
  · exact iff_of_false (by simp [TickOutput.none]) nofun
  · exact iff_of_false (by simp [TickOutput.none]) nofun
  · exact iff_of_false (by simp [TickOutput.none]) nofun
  · refine iff_of_false (by simp) fun hg => ?_
    rw [hg.status.1] at hw
    cases hw
  · obtain ⟨-, r₁, -, hr₁, -, -, hend⟩ := simulate_eq_ok hsim
    rcases hend with ⟨reason, hreason, rfl, hout⟩ | ⟨-, rfl, hout⟩
    · have hlimit : reason = .timeLimit ∨ reason = .scoreLimit := by
        rcases endReason?_eq_some_iff.1 hreason with ⟨-, rfl⟩ | ⟨-, -, rfl⟩
        · exact .inl rfl
        · exact .inr rfl
      exact iff_of_true (by simp [hout]) (.limit hs hp rfl hlimit hout)
    · refine iff_of_false (by simp [hout]) fun hg => ?_
      have he := hg.status.2
      rw [hr₁, hp] at he
      cases he
  · rw [terminate_of_running hs]
    by_cases hp : r.status = .playing
    · simp only [if_pos hp]
      exact iff_of_true rfl (.terminated hs hp rfl rfl)
    · simp only [if_neg hp]
      exact iff_of_false (by simp) fun hg => hp hg.status.1

/-- An ended room stays ended through every later turn of a run. -/
theorem runEvents_ended {es : List Event} {turns : List Turn}
    (h : r.runEvents es = .ok (turns, r')) (he : r.status = .ended) :
    ∀ t ∈ turns, t.before.status = .ended := by
  induction es generalizing r turns with
  | nil =>
    obtain ⟨rfl, -⟩ := runEvents_nil_eq_ok.1 h
    simp
  | cons e es ih =>
    obtain ⟨out, r₁, turns', h₁, h₂, rfl⟩ := runEvents_cons_eq_ok.1 h
    have he₁ : r₁.status = .ended := RoomStatus.eq_ended_of_rank (he ▸ react_rank h₁)
    intro t ht
    rcases List.mem_cons.1 ht with rfl | ht
    · exact he
    · exact ih h₂ he₁ t ht

/-- At most one turn of a run gives the end of the game. -/
theorem runEvents_ended_count {es : List Event} {turns : List Turn}
    (h : r.runEvents es = .ok (turns, r')) :
    (turns.filter (·.out.ended.isSome)).length ≤ 1 := by
  induction es generalizing r turns with
  | nil =>
    obtain ⟨rfl, -⟩ := runEvents_nil_eq_ok.1 h
    simp
  | cons e es ih =>
    obtain ⟨out, r₁, turns', h₁, h₂, rfl⟩ := runEvents_cons_eq_ok.1 h
    by_cases hend : out.ended.isSome
    · have he₁ := ((react_ended_iff h₁).1 hend).status.2
      have hnone : turns'.filter (·.out.ended.isSome) = [] := by
        refine List.filter_eq_nil_iff.2 fun t ht hsome => ?_
        have hp := ((react_ended_iff (react_of_mem_runEvents h₂ t ht)).1 hsome).status.1
        rw [runEvents_ended h₂ he₁ t ht] at hp
        cases hp
      simp [hend, hnone]
    · simpa [List.filter_cons, hend] using ih h₂

/-- In a run of a room, a turn gives the end of the game exactly when it ends the game, at most
one turn does, and terminating a room that is not playing gives none. -/
theorem runEvents_ends_once {es : List Event} {turns : List Turn}
    (h : r.runEvents es = .ok (turns, r')) :
    (∀ t ∈ turns, t.out.ended.isSome ↔ t.EndsGame) ∧
    (turns.filter (·.out.ended.isSome)).length ≤ 1 ∧
    ((turns.filter (·.out.ended.isSome)).length = 1 ↔ ∃ t ∈ turns, t.EndsGame) ∧
    ∀ t ∈ turns, ∀ now, t.event = .terminate now → t.before.status ≠ .playing →
      t.out.ended = none := by
  have hiff : ∀ t ∈ turns, t.out.ended.isSome ↔ t.EndsGame := fun t ht =>
    react_ended_iff (react_of_mem_runEvents h t ht)
  have hle := runEvents_ended_count h
  refine ⟨hiff, hle, ⟨fun h1 => ?_, fun ⟨t, ht, hg⟩ => ?_⟩, fun t ht now _ hp => ?_⟩
  · obtain ⟨t, hmem⟩ := List.exists_mem_of_length_pos (h1 ▸ Nat.one_pos)
    obtain ⟨ht, hsome⟩ := List.mem_filter.1 hmem
    exact ⟨t, ht, (hiff t ht).1 hsome⟩
  · have hpos : 0 < (turns.filter (·.out.ended.isSome)).length :=
      List.length_pos_of_mem (List.mem_filter.2 ⟨ht, (hiff t ht).2 hg⟩)
    omega
  · refine Option.not_isSome_iff_eq_none.1 fun hsome => hp ?_
    exact ((hiff t ht).1 hsome).status.1

/-- Two players join a new deathmatch room and get ready, a step starts the game, and the room is
terminated twice: the first termination ends the game, the second gives nothing. -/
theorem runEvents_ends_once_terminated :
    ∃ turns r', (Room.new (RoomConfig.new "arena" .deathMatch) ⟨0⟩ 0 0).runEvents
        [.join ⟨1⟩ 7 1 0, .join ⟨2⟩ 8 1 0, .ready ⟨1⟩ true, .ready ⟨2⟩ true, .step 1 0,
          .terminate 5, .terminate 6] = .ok (turns, r') ∧
      (turns.filter (·.out.ended.isSome)).length = 1 ∧
      (∀ t ∈ turns, t.out.ended.isSome ↔ t.EndsGame) ∧
      (turns.filter (·.out.ended.isSome)).length ≤ 1 ∧
      ((turns.filter (·.out.ended.isSome)).length = 1 ↔ ∃ t ∈ turns, t.EndsGame) ∧
      ∀ t ∈ turns, ∀ now, t.event = .terminate now → t.before.status ≠ .playing →
        t.out.ended = none := by
  obtain ⟨turns, r', h⟩ : ∃ turns r', (Room.new (RoomConfig.new "arena" .deathMatch) ⟨0⟩ 0 0).runEvents
      [.join ⟨1⟩ 7 1 0, .join ⟨2⟩ 8 1 0, .ready ⟨1⟩ true, .ready ⟨2⟩ true, .step 1 0,
        .terminate 5, .terminate 6] = .ok (turns, r') := ⟨_, _, rfl⟩
  have hcount : ((Room.new (RoomConfig.new "arena" .deathMatch) ⟨0⟩ 0 0).runEvents
      [.join ⟨1⟩ 7 1 0, .join ⟨2⟩ 8 1 0, .ready ⟨1⟩ true, .ready ⟨2⟩ true, .step 1 0,
        .terminate 5, .terminate 6]).map (fun x => (x.1.filter (·.out.ended.isSome)).length) =
      .ok 1 := rfl
  rw [h] at hcount
  exact ⟨turns, r', h, Except.ok.inj hcount, runEvents_ends_once h⟩

end Room

end Skirmish
