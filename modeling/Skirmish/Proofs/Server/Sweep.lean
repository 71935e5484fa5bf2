import Skirmish.Proofs.Server.Registry

/-!
# Sweeping and listing the rooms

A sweep at `now` ends and drops the rooms due for cleanup then. Ending a room changes no other
room, since its members sit nowhere once it is put empty, so with distinct room ids a sweep ends
and gives back exactly the rooms due, and keeps every other room as it was (`Server.sweep_eq`).
Being due only becomes more true as time goes on, and a running room that is not over and has a
seat is never due. The listing of rooms is sorted by name and then id (`Server.list_spec`).
Together with the registry's invariant these make `registry_within_capacity`.
-/

namespace Skirmish

namespace Room

variable {r : Room} {now : Nat}

/-! ## When a room is due for cleanup -/

/-- A room due for cleanup stays due. -/
theorem shouldCleanup_mono {now' : Nat} (h : r.shouldCleanup now = true) (hle : now ≤ now') :
    r.shouldCleanup now' = true := by
  unfold shouldCleanup at h ⊢
  simp only [Bool.or_eq_true, Bool.and_eq_true, decide_eq_true_eq] at h ⊢
  -- idle and ended time only grow with the clock
  rcases h with (hs | ⟨he, hidle⟩) | ⟨hend, hgrace⟩
  · exact .inl (.inl hs)
  · exact .inl (.inr ⟨he, by omega⟩)
  · refine .inr ⟨hend, ?_⟩
    split at hgrace
    · simp only [decide_eq_true_eq] at hgrace ⊢
      omega
    · cases hgrace

/-- A running room that is not over and has a seat is never due. -/
theorem shouldCleanup_of_active (hs : r.stopped = false) (he : r.status ≠ .ended)
    (hseat : r.seats ≠ []) (now : Nat) : r.shouldCleanup now = false := by
  have hempty : r.seats.isEmpty = false := List.isEmpty_eq_false_iff.2 hseat
  simp [shouldCleanup, hs, he, hempty]

end Room

namespace Server

variable {s s' : Server} {R : Room}

/-! ## Sweeping -/

/-- No task moves the clock. -/
theorem clock_perform (s : Server) (t : Task) : (s.perform t).1.clock = s.clock := by
  cases t with
  | deliver conn msg =>
    simp only [perform]
    split
    · split
      · rfl
      · split <;> rfl
    · rfl
  | close conn =>
    cases hl : s.hub.isLive conn with
    | false => rw [perform_close_of_not_live hl]
    | true =>
      obtain ⟨c, hc, ha⟩ := Hub.isLive_eq_true_iff.1 hl
      rcases perform_close_of_live hc ha with he | ⟨r, ts, hu⟩
      · rw [he]
        rfl
      · obtain ⟨R, st, R', -, -, he, -⟩ := unseat_eq_some hu
        rw [he]
        rfl
  | release room conns =>
    simp only [perform]
    induction conns generalizing s with
    | nil => rfl
    | cons c cs ih => exact ih _

theorem clock_run (s : Server) (ts : List Task) : (s.run ts).clock = s.clock := by
  fun_induction Server.run s ts with
  | case1 s => rfl
  | case2 s t rest _ ih => rw [ih, clock_perform]

theorem clock_terminate (s : Server) (y : Uuid) : (s.terminate y).clock = s.clock := by
  unfold Server.terminate
  split
  · split
    · rfl
    · dsimp only
      split <;> exact clock_run _ _
  · rfl

/-- Ending a running room changes no other room: its members sit nowhere once it is put empty,
so the closes their full queues cause take no seat away. -/
theorem terminate_rooms (hl : s.Links) {y : Uuid} (hr : s.room? y = some R)
    (hs : R.stopped = false) :
    (s.terminate y).rooms = (s.putRoom (R.terminate s.clock).2).rooms := by
  obtain ⟨hR, rfl⟩ := room?_eq_some hr
  obtain ⟨s₂, he, hrooms, -, -⟩ := terminate_eq hr hs
  have hfree := hl.free_of_terminate hR hs hrooms
  rw [he, settle, run_append, run.eq_2]
  simp only [perform, List.nil_append]
  set pre := ((R.terminate s.clock).1.map (·.1)).toList.flatMap fun m =>
    R.members.map (Task.deliver · m)
  have h₁ : s₂.Delivered (s₂.run pre) fun i => Task.pendingFor i pre :=
    run_deliveries fun t ht => by
      obtain ⟨m, -, ht⟩ := List.mem_flatMap.1 ht
      obtain ⟨i, hi, rfl⟩ := List.mem_map.1 ht
      exact ⟨i, m, rfl, hfree i hi⟩
  obtain ⟨hr₄, -, -, -⟩ := release_eq (s₂.run pre) R.id R.members
  set s₄ := R.members.foldl (fun s c => s.clearRoomRef c R.id) (s₂.run pre)
  set post := R.members.map (Task.deliver · (ServerMsg.roomLeft R.id))
  have h₃ : s₄.Delivered (s₄.run post) fun i => Task.pendingFor i post :=
    run_deliveries fun t ht => by
      obtain ⟨i, hi, rfl⟩ := List.mem_map.1 ht
      exact ⟨i, _, rfl, by rw [hr₄, h₁.rooms]; exact hfree i hi⟩
  rw [h₃.rooms, hr₄, h₁.rooms, hrooms]

/-- With distinct room ids, ending a room replaces it, and only it, by its ended form. -/
theorem terminate_rooms_map (hl : s.Links) (hnd : (s.rooms.map (·.id)).Nodup) (y : Uuid) :
    (s.terminate y).rooms =
      s.rooms.map fun R => if R.id = y then (R.terminate s.clock).2 else R := by
  cases hr : s.room? y with
  | none =>
    rw [terminate_of_none hr]
    have hkeep : ∀ R ∈ s.rooms, (if R.id = y then (R.terminate s.clock).2 else R) = R :=
      fun R hR => if_neg fun he => by simpa [he] using List.find?_eq_none.1 hr R hR
    rw [List.map_congr_left hkeep, List.map_id']
  | some Q =>
    obtain ⟨hQ, hQid⟩ := room?_eq_some hr
    have huniq : ∀ R ∈ s.rooms, R.id = y → R = Q := fun R hR hRy =>
      List.inj_on_of_nodup_map hnd hR hQ (hRy.trans hQid.symm)
    cases hs : Q.stopped with
    | true =>
      rw [terminate_of_stopped hr hs]
      have hkeep : ∀ R ∈ s.rooms, (if R.id = y then (R.terminate s.clock).2 else R) = R := by
        intro R hR
        split
        · rename_i hRy
          rw [huniq R hR hRy, Room.terminate_of_stopped hs]
        · rfl
      rw [List.map_congr_left hkeep, List.map_id']
    | false =>
      rw [terminate_rooms hl hr hs]
      refine List.map_congr_left fun R hR => ?_
      have hid : (Q.terminate s.clock).2.id = y := Room.id_terminate.trans hQid
      by_cases hRy : R.id = y
      · rw [if_pos (hRy.trans hid.symm), if_pos hRy, huniq R hR hRy]
      · rw [if_neg fun h => hRy (h.trans hid), if_neg hRy]

/-- Ending rooms one after another ends each of them in place, at the same clock. -/
theorem foldl_terminate_rooms (hl : s.Links) (hnd : (s.rooms.map (·.id)).Nodup)
    (ys : List Uuid) :
    (ys.foldl Server.terminate s).rooms =
      s.rooms.map fun R => if R.id ∈ ys then (R.terminate s.clock).2 else R := by
  induction ys generalizing s with
  | nil => simp
  | cons y ys ih =>
    have h₁ := terminate_rooms_map hl hnd y
    have hnd₁ : ((s.terminate y).rooms.map (·.id)).Nodup := by
      rw [h₁, List.map_map]
      convert hnd using 2
      funext R
      by_cases hRy : R.id = y <;> simp [hRy]
    rw [List.foldl_cons, ih (hl.terminate y).1 hnd₁, h₁, clock_terminate, List.map_map]
    refine List.map_congr_left fun R _ => ?_
    by_cases hRy : R.id = y
    · simp [hRy, Room.terminate_terminate]
    · simp [hRy]

/-- Filtering by id commutes with a change that keeps ids. -/
theorem filter_map_of_id {g : Room → Room} (hg : ∀ R, (g R).id = R.id) (p : Uuid → Bool)
    (l : List Room) : (l.map g).filter (fun R => p R.id) = (l.filter fun R => p R.id).map g := by
  rw [List.filter_map]
  congr 1
  exact List.filter_congr fun R _ => by simp only [Function.comp_def, hg]

/-- With distinct room ids, a sweep ends and gives back exactly the rooms due, and keeps the
others as they were. -/
theorem sweep_eq (hl : s.Links) (hnd : (s.rooms.map (·.id)).Nodup) (now : Nat) :
    (s.sweep now).1 =
        (s.rooms.filter (·.shouldCleanup now)).map (fun R => (R.terminate s.clock).2) ∧
      (s.sweep now).2.rooms = s.rooms.filter fun R => !R.shouldCleanup now := by
  set due := (s.rooms.filter (·.shouldCleanup now)).map (·.id) with hdue
  have hmem : ∀ R ∈ s.rooms, R.id ∈ due ↔ R.shouldCleanup now = true := by
    intro R hR
    constructor
    · intro hm
      obtain ⟨Q, hQ, hQid⟩ := List.mem_map.1 hm
      obtain ⟨hQ, hQc⟩ := List.mem_filter.1 hQ
      rwa [← List.inj_on_of_nodup_map hnd hQ hR hQid]
    · exact fun hc => List.mem_map.2 ⟨R, List.mem_filter.2 ⟨hR, hc⟩, rfl⟩
  have hcontains : ∀ R ∈ s.rooms, due.contains R.id = R.shouldCleanup now := fun R hR =>
    Bool.eq_iff_iff.2 (List.contains_iff_mem.trans (hmem R hR))
  have hg : ∀ R : Room, (if R.id ∈ due then (R.terminate s.clock).2 else R).id = R.id :=
    fun R => by split <;> simp
  simp only [sweep, ← hdue]
  rw [foldl_terminate_rooms hl hnd, filter_map_of_id hg due.contains,
    filter_map_of_id hg fun u => !due.contains u,
    List.filter_congr fun R hR => hcontains R hR,
    List.filter_congr fun R hR => congrArg (!·) (hcontains R hR)]
  constructor
  · refine List.map_congr_left fun R hR => ?_
    obtain ⟨hR, hc⟩ := List.mem_filter.1 hR
    exact if_pos ((hmem R hR).2 hc)
  · have hkeep : ∀ R ∈ s.rooms.filter (fun R => !R.shouldCleanup now),
        (if R.id ∈ due then (R.terminate s.clock).2 else R) = R := by
      intro R hR
      obtain ⟨hR, hc⟩ := List.mem_filter.1 hR
      exact if_neg fun hm => by simp [(hmem R hR).1 hm] at hc
    rw [List.map_congr_left hkeep, List.map_id']

end Server

/-! ## Listing -/

namespace RoomSummary

/-- `a` comes no later than `b`: by name, then by id. -/
def InOrder (a b : RoomSummary) : Prop :=
  a.name < b.name ∨ a.name = b.name ∧ a.id.value ≤ b.id.value

variable {a b c : RoomSummary}

theorem inOrder_iff : a.InOrder b ↔ Server.listedBefore b a = false := by
  unfold InOrder Server.listedBefore
  simp only [Bool.or_eq_false_iff, decide_eq_false_iff_not, Bool.and_eq_false_iff,
    beq_eq_false_iff_ne, ne_eq, Nat.not_lt]
  constructor
  · rintro (h | ⟨h, h'⟩)
    · exact ⟨lt_asymm h, .inl (ne_of_gt h)⟩
    · exact ⟨h ▸ lt_irrefl _, .inr h'⟩
  · rintro ⟨h, h'⟩
    rcases lt_trichotomy a.name b.name with hlt | heq | hgt
    · exact .inl hlt
    · exact .inr ⟨heq, h'.resolve_left fun hne => hne heq.symm⟩
    · exact absurd hgt h

theorem InOrder.trans (h : a.InOrder b) (h' : b.InOrder c) : a.InOrder c := by
  rcases h with h | ⟨h, hid⟩ <;> rcases h' with h' | ⟨h', hid'⟩
  · exact .inl (lt_trans h h')
  · exact .inl (h' ▸ h)
  · exact .inl (h ▸ h')
  · exact .inr ⟨h.trans h', Nat.le_trans hid hid'⟩

theorem inOrder_of_listedBefore (h : Server.listedBefore a b = true) : a.InOrder b := by
  unfold Server.listedBefore at h
  simp only [Bool.or_eq_true, decide_eq_true_eq, Bool.and_eq_true, beq_iff_eq] at h
  rcases h with h | ⟨h, hid⟩
  · exact .inl h
  · exact .inr ⟨h, Nat.le_of_lt hid⟩

end RoomSummary

namespace Server

theorem insertSummary_perm (x : RoomSummary) (l : List RoomSummary) :
    (insertSummary x l).Perm (x :: l) := by
  induction l with
  | nil => exact .refl _
  | cons y rest ih =>
    unfold insertSummary
    split
    · exact .refl _
    · exact (ih.cons y).trans (.swap x y rest)

/-- Inserting a summary into a listing in order keeps it in order. -/
theorem insertSummary_sorted {x : RoomSummary} {l : List RoomSummary}
    (hl : l.Pairwise RoomSummary.InOrder) : (insertSummary x l).Pairwise RoomSummary.InOrder := by
  induction l with
  | nil => exact List.pairwise_singleton _ _
  | cons y rest ih =>
    obtain ⟨hy, hrest⟩ := List.pairwise_cons.1 hl
    unfold insertSummary
    split
    · rename_i hb
      have hxy := RoomSummary.inOrder_of_listedBefore hb
      exact List.pairwise_cons.2 ⟨fun z hz => by
        rcases List.mem_cons.1 hz with rfl | hz
        · exact hxy
        · exact hxy.trans (hy z hz), hl⟩
    · rename_i hb
      refine List.pairwise_cons.2 ⟨fun z hz => ?_, ih hrest⟩
      rcases List.mem_cons.1 ((insertSummary_perm x rest).subset hz) with rfl | hz
      · exact RoomSummary.inOrder_iff.2 (by simpa using hb)
      · exact hy z hz

theorem foldl_insertSummary (l acc : List RoomSummary) :
    (l.foldl (fun acc x => insertSummary x acc) acc).Perm (l ++ acc) ∧
      (acc.Pairwise RoomSummary.InOrder →
        (l.foldl (fun acc x => insertSummary x acc) acc).Pairwise RoomSummary.InOrder) := by
  induction l generalizing acc with
  | nil => exact ⟨.refl _, id⟩
  | cons x rest ih =>
    obtain ⟨hp, hs⟩ := ih (insertSummary x acc)
    exact ⟨hp.trans (((insertSummary_perm x acc).append_left rest).trans List.perm_middle),
      fun h => hs (insertSummary_sorted h)⟩

/-- The listing holds the summaries of the rooms asked for, by name and then id. -/
theorem list_spec (s : Server) (includePrivate : Bool) :
    (s.list includePrivate).Perm
        ((s.rooms.filter fun r => includePrivate || !r.rules.isPrivate).map Room.summary) ∧
      (s.list includePrivate).Pairwise RoomSummary.InOrder := by
  have h := foldl_insertSummary
    ((s.rooms.filter fun r => includePrivate || !r.rules.isPrivate).map Room.summary) []
  rw [List.append_nil] at h
  exact ⟨h.1, h.2 List.Pairwise.nil⟩

/-- In every reachable state the registry is within capacity and every configuration valid; a
refused creation changes nothing, a sweep ends exactly the rooms due, and the listing is sorted. -/
theorem registry_within_capacity :
    (∀ s : Server, s.Reachable →
      s.rooms.length ≤ s.maxRooms ∧ ∀ R ∈ s.rooms, R.config.validate = .ok ()) ∧
    (∀ c : RoomConfig,
      (c.validate = .ok () ↔ c.SeatsOk ∧ c.TimeOk ∧ c.rules.scoreLimit ≠ 0) ∧
      ∀ e, c.validate = .error e ↔
        ¬ c.SeatsOk ∧ e = .invalidPlayerLimit ∨
        c.SeatsOk ∧ ¬ c.TimeOk ∧ e = .invalidTimeLimit ∨
        c.SeatsOk ∧ c.TimeOk ∧ c.rules.scoreLimit = 0 ∧ e = .invalidScoreLimit) ∧
    (∀ (s : Server) (c : RoomConfig) (e : RoomError),
      ((s.createRoom c).1 = .error e ↔ c.validate = .error e ∨
        c.validate = .ok () ∧ s.maxRooms ≤ s.rooms.length ∧ e = .capacityReached) ∧
      ((s.createRoom c).1 = .error e → (s.createRoom c).2 = s)) ∧
    (∀ (s : Server) (name : String) (mode : GameMode),
      (∀ msg, (matchTarget.create s name mode mode.requiredPlayers matchMapId).1 = .error msg ↔
        s.maxRooms ≤ s.rooms.length ∧
          msg = "Room creation failed: " ++ RoomError.capacityReached.message) ∧
      (s.maxRooms ≤ s.rooms.length →
        (matchTarget.create s name mode mode.requiredPlayers matchMapId).2 = s)) ∧
    (∀ s : Server, s.Reachable → (s.rooms.map (·.id)).Nodup → ∀ now,
      (s.sweep now).1 =
          (s.rooms.filter (·.shouldCleanup now)).map (fun R => (R.terminate s.clock).2) ∧
        (s.sweep now).2.rooms = s.rooms.filter fun R => !R.shouldCleanup now) ∧
    (∀ (R : Room) (now now' : Nat), now ≤ now' → R.shouldCleanup now = true →
      R.shouldCleanup now' = true) ∧
    (∀ (R : Room) (now : Nat), R.stopped = false → R.status ≠ .ended → R.seats ≠ [] →
      R.shouldCleanup now = false) ∧
    ∀ (s : Server) (includePrivate : Bool),
      (s.list includePrivate).Perm
          ((s.rooms.filter fun r => includePrivate || !r.rules.isPrivate).map Room.summary) ∧
        (s.list includePrivate).Pairwise RoomSummary.InOrder :=
  ⟨fun _ hs => ⟨hs.registry.bounded, hs.registry.valid⟩,
    fun _ => ⟨RoomConfig.validate_eq_ok_iff, fun _ => RoomConfig.validate_eq_error_iff⟩,
    fun _ _ _ => ⟨createRoom_eq_error_iff, createRoom_of_error⟩,
    matchTarget_create,
    fun _ hs hnd now => sweep_eq hs.links hnd now,
    fun _ _ _ hle h => Room.shouldCleanup_mono h hle,
    fun _ now hs he hseat => Room.shouldCleanup_of_active hs he hseat now,
    list_spec⟩

/-- A room created at time `0` and another created at `400000`: a sweep then ends and drops the
first, empty for longer than the idle timeout, and keeps the second. -/
theorem registry_within_capacity_swept :
    let s₁ := ((Server.new 8 4 0 7).createRoom (RoomConfig.new "arena" .deathMatch)).2
    let s := ({ s₁ with clock := 400000 }.createRoom (RoomConfig.new "duel" .deathMatch)).2
    s.Reachable ∧ (s.rooms.map (·.id)).Nodup ∧ s.rooms.length = 2 ∧
    (s.sweep 400000).1.length = 1 ∧ (s.sweep 400000).2.rooms.length = 1 ∧
    (s.rooms.length ≤ s.maxRooms ∧ ∀ R ∈ s.rooms, R.config.validate = .ok ()) ∧
    (s.sweep 400000).1 =
      (s.rooms.filter (·.shouldCleanup 400000)).map (fun R => (R.terminate s.clock).2) ∧
    (s.sweep 400000).2.rooms = s.rooms.filter fun R => !R.shouldCleanup 400000 := by
  intro s₁ s
  have hs : s.Reachable :=
    .call (.createRoom _) (.call (.wait 400000) (.call (.createRoom _) (.new 8 4 0 7) rfl) rfl) rfl
  have hnd : (s.rooms.map (·.id)).Nodup := by
    simp only [s, s₁]
    decide +kernel
  have hdue : s.rooms.length = 2 ∧ (s.rooms.filter (·.shouldCleanup 400000)).length = 1 ∧
      (s.rooms.filter fun R => !R.shouldCleanup 400000).length = 1 := by
    simp only [s, s₁]
    decide +kernel
  obtain ⟨hswept, hkept⟩ := registry_within_capacity.2.2.2.2.1 s hs hnd 400000
  refine ⟨hs, hnd, hdue.1, ?_, ?_, registry_within_capacity.1 s hs, hswept, hkept⟩
  · rw [hswept, List.length_map]
    exact hdue.2.1
  · rw [hkept]
    exact hdue.2.2

end Server

end Skirmish
