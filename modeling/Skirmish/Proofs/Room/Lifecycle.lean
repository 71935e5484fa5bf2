import Skirmish.Proofs.Room.Seats

/-!
# The lifecycle of a room

A room's status only moves forward: waiting, then playing, then ended, which it never leaves.
`Room.Turn.Lawful` says what one turn of a run may do to the lifecycle. The game starts exactly
at a step of a waiting room that is not stopped and has a ready quorum, and that step announces
the roster, in entity order, and sends no frame. A step of play advances the world, counts one
frame and sends it, and ends the game once the play time reaches the time limit or, failing that,
a score reaches the score limit. A game stops playing only there or when the room is terminated,
and a step of a room with nothing to do changes nothing and sends nothing.

Every turn of a reachable room is lawful (`react_lawful`), and a run from a new room sends its
frames numbered `1, 2, 3, …` with no gap (`runEvents_lifecycle`).
-/

namespace Skirmish

/-- The lifecycle's order: waiting, then playing, then ended. -/
def RoomStatus.rank : RoomStatus → Nat
  | .waiting => 0
  | .playing => 1
  | .ended => 2

theorem RoomStatus.rank_le_ended (s : RoomStatus) : s.rank ≤ RoomStatus.ended.rank := by
  cases s <;> decide

/-- A status no later than play that is not play is waiting. -/
theorem RoomStatus.eq_waiting_of_rank_le {s : RoomStatus} (h : s.rank ≤ RoomStatus.playing.rank)
    (hp : s ≠ .playing) : s = .waiting := by
  cases s with
  | waiting => rfl
  | playing => exact absurd rfl hp
  | ended => exact absurd h (by decide)

/-- The number a frame message carries. -/
def ServerMsg.frameId? : ServerMsg → Option Nat
  | .frame p => some p.frameId
  | _ => none

/-- The number of the frame a step sent, if it sent one. -/
def TickOutput.frameId? (o : TickOutput) : Option Nat := o.frame.bind ServerMsg.frameId?

namespace Room

/-- At least two seats are taken and every seat is ready. -/
def HasQuorum (r : Room) : Prop := 2 ≤ r.seats.length ∧ ∀ s ∈ r.seats, s.ready = true

instance (r : Room) : Decidable r.HasQuorum := inferInstanceAs (Decidable (_ ∧ _))

/-- A step of the room has nothing to do: the room is stopped or ended, or it waits without a
ready quorum. -/
def Idle (r : Room) : Prop :=
  r.stopped = true ∨ r.status = .ended ∨ (r.status = .waiting ∧ ¬ r.HasQuorum)

instance (r : Room) : Decidable r.Idle := inferInstanceAs (Decidable (_ ∨ _))

/-- What one turn may do to the lifecycle. -/
structure Turn.Lawful (t : Turn) : Prop where
  /-- The status never moves back. -/
  forward : t.before.status.rank ≤ t.after.status.rank
  /-- The game starts exactly at a step of a waiting room that is not stopped and has a ready
  quorum. -/
  starts : t.before.status = .waiting ∧ t.after.status = .playing ↔
    (∃ dt now, t.event = .step dt now) ∧ t.before.stopped = false ∧
      t.before.status = .waiting ∧ t.before.HasQuorum
  /-- The start announces the roster, in entity order, and sends no frame. -/
  announces : t.before.status = .waiting → t.after.status = .playing →
    (∃ now, t.out = ⟨some (.gameStart t.before.id t.before.roster t.before.rules now), none, none⟩) ∧
    (t.before.roster.map (·.entityId)).Pairwise (· < ·)
  /-- A step of play advances the world and resolves its collisions, counts one frame and sends
  it, and ends the game on the time limit or, failing that, on the score limit. -/
  plays : ∀ dt now, t.event = .step dt now → t.before.stopped = false →
    t.before.status = .playing →
    (∃ o, resolveCollisions (t.before.world.advance dt).2 t.before.rules.friendlyFire =
      .ok (o, t.after.world)) ∧
    t.after.frameId = t.before.frameId + 1 ∧ t.after.elapsed = t.before.elapsed + dt ∧
    t.out.started = none ∧ t.out.frameId? = some t.after.frameId ∧
    (t.before.rules.timeLimitSecs ≤ t.after.elapsed →
      t.after.status = .ended ∧ t.out.ended = some (t.after.finish .timeLimit now)) ∧
    (¬ t.before.rules.timeLimitSecs ≤ t.after.elapsed →
      t.before.rules.scoreLimit ≤ t.after.world.maxScore →
      t.after.status = .ended ∧ t.out.ended = some (t.after.finish .scoreLimit now)) ∧
    (¬ t.before.rules.timeLimitSecs ≤ t.after.elapsed →
      ¬ t.before.rules.scoreLimit ≤ t.after.world.maxScore →
      t.after.status = .playing ∧ t.out.ended = none)
  /-- A game stops playing only at a step of play, or when the room is terminated, which ends
  the game with reason `terminated`. -/
  leaves : t.before.status = .playing → t.after.status ≠ .playing →
    (∃ dt now, t.event = .step dt now ∧ t.before.stopped = false) ∨
    (∃ now, t.event = .terminate now ∧ t.out.ended = some (t.after.finish .terminated now))
  /-- A turn sends the next frame, or none and keeps the count. -/
  frames : (t.out.frameId? = some (t.before.frameId + 1) ∧ t.after.frameId = t.before.frameId + 1) ∨
    (t.out.frameId? = none ∧ t.after.frameId = t.before.frameId)
  /-- A step with nothing to do changes nothing and sends nothing. -/
  idle : ∀ dt now, t.event = .step dt now → t.before.Idle →
    t.out = TickOutput.none ∧ t.after = t.before

variable {r r' : Room} {conn : Uuid} {now : Nat} {dt : Float32} {out : TickOutput}

theorem hasQuorum_iff :
    r.HasQuorum ↔ minPlayersToStart ≤ r.seats.length ∧ r.seats.all (·.ready) = true := by
  simp [HasQuorum, minPlayersToStart]

theorem not_idle_of_playing (hs : r.stopped = false) (hp : r.status = .playing) : ¬ r.Idle := by
  rintro (h | h | ⟨h, -⟩)
  · exact Bool.false_ne_true (hs.symm.trans h)
  all_goals
    rw [hp] at h
    cases h

theorem not_idle_of_quorum (hs : r.stopped = false) (hw : r.status = .waiting) (hq : r.HasQuorum) :
    ¬ r.Idle := by
  rintro (h | h | ⟨-, h⟩)
  · exact Bool.false_ne_true (hs.symm.trans h)
  · rw [hw] at h
    cases h
  · exact h hq

/-- Why a step of play ends the game: the time limit first, then the score limit. -/
theorem endReason?_eq_some_iff {reason : EndReason} :
    r.endReason? = some reason ↔ (r.rules.timeLimitSecs ≤ r.elapsed ∧ reason = .timeLimit) ∨
      (¬ r.rules.timeLimitSecs ≤ r.elapsed ∧ r.rules.scoreLimit ≤ r.world.maxScore ∧
        reason = .scoreLimit) := by
  unfold endReason?
  by_cases ht : r.rules.timeLimitSecs ≤ r.elapsed
  · simp [ht, eq_comm]
  · by_cases hs : r.rules.scoreLimit ≤ r.world.maxScore <;> simp [ht, hs, eq_comm]

theorem endReason?_eq_none_iff :
    r.endReason? = none ↔
      ¬ r.rules.timeLimitSecs ≤ r.elapsed ∧ ¬ r.rules.scoreLimit ≤ r.world.maxScore := by
  unfold endReason?
  by_cases ht : r.rules.timeLimitSecs ≤ r.elapsed
  · simp [ht]
  · by_cases hs : r.rules.scoreLimit ≤ r.world.maxScore <;> simp [ht, hs]

/-! ## Requests that leave the lifecycle alone -/

theorem unseat_lifecycle {s : Seat} (h : r.unseat conn now = some (s, r')) :
    r'.status = r.status ∧ r'.frameId = r.frameId := by
  obtain ⟨-, rfl⟩ := unseat_eq_some.1 h
  exact ⟨rfl, rfl⟩

theorem setReady_lifecycle {b : Bool} (h : r.setReady conn b = .ok r') :
    r'.status = r.status ∧ r'.frameId = r.frameId := by
  obtain ⟨-, rfl⟩ := setReady_eq_ok.1 h
  exact ⟨rfl, rfl⟩

theorem handleInput_lifecycle {input : PlayerInput} {sp : List Nat}
    (h : r.handleInput conn input now = .ok (sp, r')) :
    r'.status = r.status ∧ r'.frameId = r.frameId := by
  rcases handleInput_eq_ok h with rfl | ⟨-, -, -, -, -, -, -, -, -, rfl | ⟨-, -, rfl⟩⟩ <;>
    exact ⟨rfl, rfl⟩

namespace Turn.Lawful

/-- A turn that is no step, sends nothing and keeps the status and the frame count. -/
theorem of_quiet {t : Turn} (hstep : ∀ dt now, t.event ≠ .step dt now)
    (hout : t.out = TickOutput.none)
    (hkeep : t.after.status = t.before.status ∧ t.after.frameId = t.before.frameId) : t.Lawful where
  forward := hkeep.1 ▸ Nat.le_refl _
  starts := by
    refine iff_of_false (fun ⟨hw, hp⟩ => ?_) fun ⟨⟨dt, now, he⟩, _⟩ => hstep dt now he
    rw [hkeep.1, hw] at hp
    cases hp
  announces hw hp := by
    rw [hkeep.1, hw] at hp
    cases hp
  plays dt now he := absurd he (hstep dt now)
  leaves hp hp' := absurd (hkeep.1.trans hp) hp'
  frames := .inr ⟨by rw [hout]; rfl, hkeep.2⟩
  idle dt now he := absurd he (hstep dt now)

/-- A step with nothing to do. -/
theorem of_idle (hi : r.Idle) : Turn.Lawful ⟨r, .step dt now, TickOutput.none, r⟩ where
  forward := Nat.le_refl _
  starts := by
    refine iff_of_false (fun ⟨hw, hp⟩ => ?_) fun ⟨_, hs, hw, hq⟩ => not_idle_of_quorum hs hw hq hi
    rw [hw] at hp
    cases hp
  announces hw hp := by
    rw [hw] at hp
    cases hp
  plays _ _ _ hs hp := absurd hi (not_idle_of_playing hs hp)
  leaves hp hp' := absurd hp hp'
  frames := .inr ⟨rfl, rfl⟩
  idle _ _ _ _ := ⟨rfl, rfl⟩

/-- The step that starts the game. -/
theorem of_start (hs : r.stopped = false) (hw : r.status = .waiting) (hq : r.HasQuorum)
    (hsorted : (r.seats.map (·.entityId)).Pairwise (· < ·)) :
    Turn.Lawful ⟨r, .step dt now, ⟨some (.gameStart r.id r.roster r.rules now), none, none⟩,
      { r with status := .playing, startedAt := some now, lastActivity := now }⟩ where
  forward := by simp [hw, RoomStatus.rank]
  starts := iff_of_true ⟨hw, rfl⟩ ⟨⟨dt, now, rfl⟩, hs, hw, hq⟩
  announces _ _ := ⟨⟨now, rfl⟩, by rw [roster, List.map_map]; exact hsorted⟩
  plays _ _ _ _ hp := by
    rw [hw] at hp
    cases hp
  leaves hp := by
    rw [hw] at hp
    cases hp
  frames := .inr ⟨rfl, rfl⟩
  idle _ _ _ hi := absurd hi (not_idle_of_quorum hs hw hq)

/-- The end of a room, playing or not. -/
theorem of_terminate :
    Turn.Lawful ⟨r, .terminate now, ⟨none, none, (r.terminate now).1⟩, (r.terminate now).2⟩ := by
  cases hs : r.stopped with
  | true =>
    rw [terminate_of_stopped hs]
    exact of_quiet (fun _ _ => nofun) rfl ⟨rfl, rfl⟩
  | false =>
    rw [terminate_of_running hs]
    exact {
      forward := RoomStatus.rank_le_ended _
      starts := iff_of_false (fun ⟨_, hp⟩ => nomatch hp) fun ⟨⟨_, _, he⟩, _⟩ => nomatch he
      announces _ hp := nomatch hp
      plays _ _ he := nomatch he
      -- a game still playing ends with the room; the seats the end releases are not read
      leaves hp _ := .inr ⟨now, rfl, by rw [if_pos hp]; rfl⟩
      frames := .inr ⟨rfl, rfl⟩
      idle _ _ he := nomatch he }

/-- A step of play. -/
theorem of_simulate (hs : r.stopped = false) (hp : r.status = .playing)
    (h : r.simulate dt now = .ok (out, r')) : Turn.Lawful ⟨r, .step dt now, out, r'⟩ := by
  obtain ⟨o, r₁, hres, hr₁, hst, hfr, hend⟩ := simulate_eq_ok h
  have hw₁ : r₁.status = .playing := by rw [hr₁]; exact hp
  have hf₁ : r₁.frameId = r.frameId + 1 := by rw [hr₁]
  have he₁ : r₁.elapsed = r.elapsed + dt := by rw [hr₁]
  have hrules : r₁.rules = r.rules := by rw [hr₁]
  have hframe : out.frameId? = some r₁.frameId := by
    rw [TickOutput.frameId?, hfr]
    rfl
  have hkeep : r'.world = r₁.world ∧ r'.frameId = r₁.frameId ∧ r'.elapsed = r₁.elapsed := by
    rcases hend with ⟨_, _, rfl, _⟩ | ⟨_, rfl, _⟩ <;> exact ⟨rfl, rfl, rfl⟩
  have hlimits :
      (r.rules.timeLimitSecs ≤ r'.elapsed →
        r'.status = .ended ∧ out.ended = some (r'.finish .timeLimit now)) ∧
      (¬ r.rules.timeLimitSecs ≤ r'.elapsed → r.rules.scoreLimit ≤ r'.world.maxScore →
        r'.status = .ended ∧ out.ended = some (r'.finish .scoreLimit now)) ∧
      (¬ r.rules.timeLimitSecs ≤ r'.elapsed → ¬ r.rules.scoreLimit ≤ r'.world.maxScore →
        r'.status = .playing ∧ out.ended = none) := by
    rw [hkeep.1, hkeep.2.2, ← hrules]
    rcases hend with ⟨reason, hreason, rfl, hout⟩ | ⟨hnone, rfl, hout⟩
    · rw [endReason?_eq_some_iff] at hreason
      rcases hreason with ⟨ht, rfl⟩ | ⟨ht, hsc, rfl⟩
      · exact ⟨fun _ => ⟨rfl, hout⟩, fun h => absurd ht h, fun h => absurd ht h⟩
      · exact ⟨fun h => absurd h ht, fun _ _ => ⟨rfl, hout⟩, fun _ h => absurd hsc h⟩
    · obtain ⟨ht, hsc⟩ := endReason?_eq_none_iff.1 hnone
      exact ⟨fun h => absurd h ht, fun _ h => absurd h hsc, fun _ _ => ⟨hw₁, hout⟩⟩
  have hstatus : r'.status = .playing ∨ r'.status = .ended := by
    rcases hend with ⟨_, _, rfl, _⟩ | ⟨_, rfl, _⟩
    · exact .inr rfl
    · exact .inl hw₁
  exact {
    forward := by rcases hstatus with h | h <;> simp [h, hp, RoomStatus.rank]
    starts := by
      refine iff_of_false (fun ⟨hw, _⟩ => ?_) fun ⟨_, _, hw, _⟩ => ?_ <;>
        (rw [hp] at hw; cases hw)
    announces hw _ := by
      rw [hp] at hw
      cases hw
    plays := by
      rintro dt' now' he - -
      obtain ⟨rfl, rfl⟩ := Event.step.inj he
      exact ⟨⟨o, hkeep.1 ▸ hres⟩, hkeep.2.1.trans hf₁, hkeep.2.2.trans he₁, hst,
        hkeep.2.1 ▸ hframe, hlimits⟩
    leaves _ _ := .inl ⟨dt, now, rfl, hs⟩
    frames := .inl ⟨hframe.trans (congrArg some hf₁), hkeep.2.1.trans hf₁⟩
    idle _ _ _ hi := absurd hi (not_idle_of_playing hs hp) }

end Turn.Lawful

/-! ## Every turn is lawful -/

/-- Every request a room serves moves its lifecycle lawfully. The invariant is needed only for
the roster's order at the start. -/
theorem react_lawful (hr : r.SeatsAgree) {e : Event} (h : r.react e = .ok (out, r')) :
    Turn.Lawful ⟨r, e, out, r'⟩ := by
  cases e with
  | join conn pid cid now =>
    obtain ⟨rfl, rfl⟩ := Prod.mk.inj (Except.pure_eq_ok.1 h).symm
    refine .of_quiet (fun _ _ => nofun) rfl ?_
    split
    · exact ⟨rfl, rfl⟩
    · split <;> exact ⟨rfl, rfl⟩
  | leave conn now =>
    obtain ⟨rfl, rfl⟩ := Prod.mk.inj (Except.pure_eq_ok.1 h).symm
    refine .of_quiet (fun _ _ => nofun) rfl ?_
    split
    · exact unseat_lifecycle ‹_›
    · exact ⟨rfl, rfl⟩
  | ready conn b =>
    obtain ⟨rfl, rfl⟩ := Prod.mk.inj (Except.pure_eq_ok.1 h).symm
    refine .of_quiet (fun _ _ => nofun) rfl ?_
    split
    · exact setReady_lifecycle ‹_›
    · exact ⟨rfl, rfl⟩
  | input conn i now =>
    obtain ⟨rfl, rfl⟩ := Prod.mk.inj (Except.pure_eq_ok.1 h).symm
    refine .of_quiet (fun _ _ => nofun) rfl ?_
    split
    · exact handleInput_lifecycle ‹_›
    · exact ⟨rfl, rfl⟩
  | terminate now =>
    obtain ⟨rfl, rfl⟩ := Prod.mk.inj (Except.pure_eq_ok.1 h).symm
    exact .of_terminate
  | step dt now =>
    cases hs : r.stopped with
    | true =>
      rw [react, step_of_stopped hs] at h
      obtain ⟨rfl, rfl⟩ := Prod.mk.inj (Except.pure_eq_ok.1 h).symm
      exact .of_idle (.inl hs)
    | false =>
      cases hst : r.status with
      | waiting =>
        rw [react, step_of_waiting hs hst] at h
        obtain ⟨rfl, rfl⟩ := Prod.mk.inj (Except.pure_eq_ok.1 h).symm
        by_cases hq : r.HasQuorum
        · rw [checkReady_of_quorum hst (hasQuorum_iff.1 hq).1 (hasQuorum_iff.1 hq).2]
          exact .of_start hs hst hq (hr.sorted hs)
        · rw [checkReady_of_not_quorum (mt hasQuorum_iff.2 hq)]
          exact .of_idle (.inr (.inr ⟨hst, hq⟩))
      | playing =>
        rw [react, step_of_playing hs hst] at h
        exact .of_simulate hs hst h
      | ended =>
        rw [react, step_of_ended hs hst] at h
        obtain ⟨rfl, rfl⟩ := Prod.mk.inj (Except.pure_eq_ok.1 h).symm
        exact .of_idle (.inr (.inl hst))

/-- Along a run of lawful turns the frames sent are numbered consecutively, from the one after the
room's count to the count it ends with. -/
theorem frameIds_runEvents {es : List Event} {turns : List Turn}
    (h : r.runEvents es = .ok (turns, r')) (hl : ∀ t ∈ turns, t.Lawful) :
    r.frameId ≤ r'.frameId ∧
      turns.filterMap (·.out.frameId?) = List.range' (r.frameId + 1) (r'.frameId - r.frameId) := by
  induction es generalizing r turns with
  | nil =>
    obtain ⟨rfl, rfl⟩ := runEvents_nil_eq_ok.1 h
    simp
  | cons e es ih =>
    obtain ⟨out, r₁, turns', h₁, h₂, rfl⟩ := runEvents_cons_eq_ok.1 h
    obtain ⟨hle, hids⟩ := ih h₂ fun t ht => hl t (List.mem_cons_of_mem _ ht)
    rw [List.filterMap_cons, hids]
    rcases (hl _ List.mem_cons_self).frames with ⟨hf, hc⟩ | ⟨hf, hc⟩
    · dsimp only at hf hc
      rw [hf, hc]
      refine ⟨by omega, ?_⟩
      have hlen : r'.frameId - r.frameId = r'.frameId - (r.frameId + 1) + 1 := by omega
      rw [hlen, List.range'_succ]
    · dsimp only at hf hc
      rw [hf, hc]
      exact ⟨hc ▸ hle, rfl⟩

/-- Every turn of a run from a new room moves the lifecycle lawfully, and the frames the run
sends are numbered `1, 2, 3, …` up to the room's final count, with no gap. -/
theorem runEvents_lifecycle {config : RoomConfig} {id : Uuid} {seed : UInt64} {now : Nat}
    {es : List Event} {turns : List Turn}
    (h : (Room.new config id seed now).runEvents es = .ok (turns, r')) :
    (∀ t ∈ turns, t.Lawful) ∧ turns.filterMap (·.out.frameId?) = List.range' 1 r'.frameId := by
  have hr := (Reachable.new config id seed now).runEvents h
  have hl : ∀ t ∈ turns, t.Lawful := fun t ht =>
    react_lawful (hr.1 t ht).seatsAgree (react_of_mem_runEvents h t ht)
  refine ⟨hl, ?_⟩
  simpa [Room.new] using (frameIds_runEvents h hl).2

/-- Two players join a new deathmatch room and get ready: the first step starts the game, the
second sends frame `1`, and the room is terminated. -/
theorem runEvents_lifecycle_played :
    let r₀ := Room.new (RoomConfig.new "arena" .deathMatch) ⟨0⟩ 0 0
    let es : List Event := [.join ⟨1⟩ 7 1 0, .join ⟨2⟩ 8 1 0, .ready ⟨1⟩ true, .ready ⟨2⟩ true,
      .step 0.5 0, .step 0.5 1, .terminate 2]
    ∃ turns r', r₀.runEvents es = .ok (turns, r') ∧ r'.status = .ended ∧ r'.frameId = 1 ∧
      (∀ t ∈ turns, t.Lawful) ∧ turns.filterMap (·.out.frameId?) = List.range' 1 r'.frameId := by
  intro r₀ es
  obtain ⟨turns, r', h⟩ : ∃ turns r', r₀.runEvents es = .ok (turns, r') :=
    ⟨_, _, by simp only [r₀, es]; rfl⟩
  have hend : (r₀.runEvents es).map (fun x => (x.2.status, x.2.frameId)) = .ok (.ended, 1) := by
    simp only [r₀, es]; rfl
  rw [h] at hend
  obtain ⟨hs, hf⟩ := Prod.mk.inj (Except.ok.inj hend)
  exact ⟨turns, r', h, hs, hf, runEvents_lifecycle h⟩

end Room

end Skirmish
