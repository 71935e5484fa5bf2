import Skirmish.Proofs.Server.Teardown

/-!
# The registry of rooms stays within its capacity

The server holds at most `maxRooms` rooms, and every room it holds was created from a
configuration that passes `RoomConfig.validate`. A configuration is checked for its seats, then
its time limit, then its score limit (`RoomConfig.validate_eq_error_iff`); a creation is refused
by the check first, then by a full registry, and a refused creation changes nothing
(`Server.createRoom_eq_error_iff`, `Server.createRoom_of_error`). The rooms keep their
configuration through every operation on them, so in every state a server reaches the registry is
within its capacity and every room's configuration is valid (`Server.Reachable.registry`). The
path matchmaking takes, a room of a mode's own size on the default map, is refused only when the
registry is full (`Server.matchTarget_create`).
-/

namespace Skirmish

/-! ## A room's configuration -/

namespace Room

/-- The configuration a room was created with. -/
def config (r : Room) : RoomConfig := ⟨r.name, r.mode, r.maxPlayers, r.mapId, r.rules⟩

variable {r r' : Room} {conn : Uuid} {now : Nat}

@[simp] theorem config_seatPlayer (pid : Int) (cid : Nat) :
    (r.seatPlayer conn pid cid now).2.config = r.config := rfl

@[simp] theorem config_terminate : (r.terminate now).2.config = r.config := by
  unfold terminate
  split <;> rfl

@[simp] theorem id_terminate : (r.terminate now).2.id = r.id := by
  unfold terminate
  split <;> rfl

@[simp] theorem stopped_terminate : (r.terminate now).2.stopped = true := by
  unfold terminate
  split
  · assumption
  · rfl

/-- Ending an ended room again leaves it as it is. -/
theorem terminate_terminate {now' : Nat} :
    ((r.terminate now).2.terminate now').2 = (r.terminate now).2 := by
  rw [terminate_of_stopped stopped_terminate]

@[simp] theorem config_checkReady : (r.checkReady now).2.config = r.config := by
  unfold checkReady
  split <;> rfl

theorem config_unseat {st : Seat} (h : r.unseat conn now = some (st, r')) :
    r'.config = r.config := by
  obtain ⟨-, rfl⟩ := unseat_eq_some.1 h
  rfl

theorem config_setReady {b : Bool} (h : r.setReady conn b = .ok r') : r'.config = r.config := by
  obtain ⟨-, rfl⟩ := setReady_eq_ok.1 h
  rfl

theorem config_handleInput {input : PlayerInput} {sp : List Nat}
    (h : r.handleInput conn input now = .ok (sp, r')) : r'.config = r.config := by
  rcases handleInput_eq_ok h with rfl | ⟨-, -, -, -, -, -, -, -, -, rfl | ⟨-, -, rfl⟩⟩ <;>
    rfl

/-- A step of play keeps the configuration. -/
theorem config_step {dt : Float32} {out : TickOutput} (h : r.step dt now = .ok (out, r')) :
    r'.config = r.config := by
  cases hs : r.stopped with
  | true =>
    rw [step_of_stopped hs] at h
    obtain ⟨-, rfl⟩ := Prod.mk.inj (Except.pure_eq_ok.1 h).symm
    rfl
  | false =>
    cases hst : r.status with
    | waiting =>
      rw [step_of_waiting hs hst] at h
      obtain ⟨-, rfl⟩ := Prod.mk.inj (Except.pure_eq_ok.1 h).symm
      exact config_checkReady
    | playing =>
      rw [step_of_playing hs hst] at h
      obtain ⟨-, r₁, -, hr₁, -, -, hend⟩ := simulate_eq_ok h
      rcases hend with ⟨-, -, rfl, -⟩ | ⟨-, rfl, -⟩ <;> rw [hr₁] <;> rfl
    | ended =>
      rw [step_of_ended hs hst] at h
      obtain ⟨-, rfl⟩ := Prod.mk.inj (Except.pure_eq_ok.1 h).symm
      rfl

/-- A new room keeps the configuration it is given, when that has a seat. -/
theorem config_new {c : RoomConfig} (hc : 1 ≤ c.maxPlayers) (id : Uuid) (seed : UInt64) :
    (Room.new c id seed now).config = c := by
  simp [config, Room.new, Nat.max_eq_left hc]

end Room

/-! ## Checking a configuration -/

namespace RoomConfig

variable {c : RoomConfig}

section Branches

variable (c) in
/-- The seat check: between 2 and 16. -/
abbrev SeatsOk : Prop := 2 ≤ c.maxPlayers ∧ c.maxPlayers ≤ 16

variable (c) in
/-- The time check: finite and above zero. -/
abbrev TimeOk : Prop := c.rules.timeLimitSecs.isFinite = true ∧ ¬ c.rules.timeLimitSecs ≤ 0

theorem validate_of_seats (hs : ¬ c.SeatsOk) : c.validate = .error .invalidPlayerLimit := by
  unfold validate minPlayersToStart maxPlayersPerRoom
  simp [hs, throw, throwThe, MonadExceptOf.throw]

theorem validate_of_time (hs : c.SeatsOk) (ht : ¬ c.TimeOk) :
    c.validate = .error .invalidTimeLimit := by
  have ht' : (!c.rules.timeLimitSecs.isFinite || decide (c.rules.timeLimitSecs ≤ 0)) = true := by
    cases hf : c.rules.timeLimitSecs.isFinite
    · rfl
    · have hle : c.rules.timeLimitSecs ≤ 0 := Classical.byContradiction fun hn => ht ⟨hf, hn⟩
      simp [hle]
  unfold validate minPlayersToStart maxPlayersPerRoom
  simp [hs, ht', throw, throwThe, MonadExceptOf.throw]

theorem validate_of_score (hs : c.SeatsOk) (ht : c.TimeOk) (hsc : c.rules.scoreLimit = 0) :
    c.validate = .error .invalidScoreLimit := by
  unfold validate minPlayersToStart maxPlayersPerRoom
  simp [hs, ht.1, ht.2, hsc, throw, throwThe, MonadExceptOf.throw]

theorem validate_of_valid (hs : c.SeatsOk) (ht : c.TimeOk) (hsc : c.rules.scoreLimit ≠ 0) :
    c.validate = .ok () := by
  unfold validate minPlayersToStart maxPlayersPerRoom
  simp [hs, ht.1, ht.2, hsc, pure, Except.pure]

end Branches

/-- A configuration passes when its seats lie between 2 and 16, its time limit is finite and
above zero, and its score limit is not zero. -/
theorem validate_eq_ok_iff :
    c.validate = .ok () ↔ c.SeatsOk ∧ c.TimeOk ∧ c.rules.scoreLimit ≠ 0 := by
  by_cases hs : c.SeatsOk
  · by_cases ht : c.TimeOk
    · by_cases hsc : c.rules.scoreLimit = 0
      · rw [validate_of_score hs ht hsc]
        exact ⟨(fun h => by cases h), fun h => absurd hsc h.2.2⟩
      · rw [validate_of_valid hs ht hsc]
        exact ⟨fun _ => ⟨hs, ht, hsc⟩, fun _ => rfl⟩
    · rw [validate_of_time hs ht]
      exact ⟨(fun h => by cases h), fun h => absurd h.2.1 ht⟩
  · rw [validate_of_seats hs]
    exact ⟨(fun h => by cases h), fun h => absurd h.1 hs⟩

/-- A configuration is refused for the first check it fails: seats, then time, then score. -/
theorem validate_eq_error_iff {e : RoomError} :
    c.validate = .error e ↔
      ¬ c.SeatsOk ∧ e = .invalidPlayerLimit ∨
      c.SeatsOk ∧ ¬ c.TimeOk ∧ e = .invalidTimeLimit ∨
      c.SeatsOk ∧ c.TimeOk ∧ c.rules.scoreLimit = 0 ∧ e = .invalidScoreLimit := by
  by_cases hs : c.SeatsOk
  · by_cases ht : c.TimeOk
    · by_cases hsc : c.rules.scoreLimit = 0
      · rw [validate_of_score hs ht hsc]
        constructor
        · intro h
          cases h
          exact .inr (.inr ⟨hs, ht, hsc, rfl⟩)
        · rintro (⟨h, -⟩ | ⟨-, h, -⟩ | ⟨-, -, -, rfl⟩)
          · exact absurd hs h
          · exact absurd ht h
          · rfl
      · rw [validate_of_valid hs ht hsc]
        constructor
        · intro h
          cases h
        · rintro (⟨h, -⟩ | ⟨-, h, -⟩ | ⟨-, -, h, -⟩)
          · exact absurd hs h
          · exact absurd ht h
          · exact absurd h hsc
    · rw [validate_of_time hs ht]
      constructor
      · intro h
        cases h
        exact .inr (.inl ⟨hs, ht, rfl⟩)
      · rintro (⟨h, -⟩ | ⟨-, -, rfl⟩ | ⟨-, h, -⟩)
        · exact absurd hs h
        · rfl
        · exact absurd h ht
  · rw [validate_of_seats hs]
    constructor
    · intro h
      cases h
      exact .inl ⟨hs, rfl⟩
    · rintro (⟨-, rfl⟩ | ⟨h, -⟩ | ⟨h, -⟩)
      · rfl
      · exact absurd h hs
      · exact absurd h hs

theorem two_le_of_validate (h : c.validate = .ok ()) : 2 ≤ c.maxPlayers :=
  (validate_eq_ok_iff.1 h).1.1

/-- The configuration of a mode's own size, on the default map, with the default rules. -/
theorem validate_new (name : String) (m : GameMode) :
    (RoomConfig.new name m).validate = .ok () := by
  have h : (RoomConfig.new name m).validate = (RoomConfig.new "" m).validate := rfl
  rw [h]
  cases m <;> rfl

end RoomConfig

/-! ## Creating a room -/

namespace Server

variable {s s' : Server} {r R : Room} {i conn rid : Uuid} {ts : List Task}

theorem createRoom_of_invalid {config : RoomConfig} {e : RoomError}
    (hv : config.validate = .error e) : s.createRoom config = (.error e, s) := by
  unfold createRoom
  rw [hv]

theorem createRoom_of_full {config : RoomConfig} (hv : config.validate = .ok ())
    (hcap : s.maxRooms ≤ s.rooms.length) :
    s.createRoom config = (.error .capacityReached, s) := by
  unfold createRoom
  rw [hv]
  simp only [hcap, if_true]

/-- A creation is refused by the configuration first, then by a full registry. -/
theorem createRoom_eq_error_iff {config : RoomConfig} {e : RoomError} :
    (s.createRoom config).1 = .error e ↔ config.validate = .error e ∨
      config.validate = .ok () ∧ s.maxRooms ≤ s.rooms.length ∧ e = .capacityReached := by
  cases hv : config.validate with
  | error e' =>
    rw [createRoom_of_invalid hv]
    constructor
    · intro h
      cases h
      exact .inl rfl
    · rintro (h | ⟨h, -⟩)
      · cases h
        rfl
      · cases h
  | ok u =>
    cases u
    by_cases hcap : s.maxRooms ≤ s.rooms.length
    · rw [createRoom_of_full hv hcap]
      constructor
      · intro h
        cases h
        exact .inr ⟨rfl, hcap, rfl⟩
      · rintro (h | ⟨-, -, rfl⟩)
        · cases h
        · rfl
    · obtain ⟨seed, ids, hc⟩ := createRoom_eq_ok hv hcap
      rw [hc]
      constructor
      · intro h
        cases h
      · rintro (h | ⟨-, h, -⟩)
        · cases h
        · exact absurd h hcap

/-- A refused creation leaves the server as it was. -/
theorem createRoom_of_error {config : RoomConfig} {e : RoomError}
    (h : (s.createRoom config).1 = .error e) : (s.createRoom config).2 = s := by
  cases hv : config.validate with
  | error e' => rw [createRoom_of_invalid hv]
  | ok u =>
    cases u
    by_cases hcap : s.maxRooms ≤ s.rooms.length
    · rw [createRoom_of_full hv hcap]
    · obtain ⟨seed, ids, hc⟩ := createRoom_eq_ok hv hcap
      rw [hc] at h
      cases h

/-- The room of an accepted creation is added last, new, with its configuration. -/
theorem createRoom_of_ok {config : RoomConfig} {id : Uuid} (h : (s.createRoom config).1 = .ok id) :
    config.validate = .ok () ∧ s.rooms.length < s.maxRooms ∧
      ∃ seed, (s.createRoom config).2.rooms = s.rooms ++ [Room.new config id seed s.clock] ∧
        (s.createRoom config).2.maxRooms = s.maxRooms := by
  cases hv : config.validate with
  | error e =>
    rw [createRoom_of_invalid hv] at h
    cases h
  | ok u =>
    cases u
    by_cases hcap : s.maxRooms ≤ s.rooms.length
    · rw [createRoom_of_full hv hcap] at h
      cases h
    · obtain ⟨seed, ids, hc⟩ := createRoom_eq_ok hv hcap
      rw [hc] at h ⊢
      cases h
      exact ⟨rfl, Nat.lt_of_not_le hcap, seed, rfl, rfl⟩

/-- Matchmaking asks for rooms of a mode's own size on the default map: the registry refuses
one only when it is full, and then changes nothing. -/
theorem matchTarget_create (s : Server) (name : String) (mode : GameMode) :
    (∀ msg, (matchTarget.create s name mode mode.requiredPlayers matchMapId).1 = .error msg ↔
      s.maxRooms ≤ s.rooms.length ∧
        msg = "Room creation failed: " ++ RoomError.capacityReached.message) ∧
    (s.maxRooms ≤ s.rooms.length →
      (matchTarget.create s name mode mode.requiredPlayers matchMapId).2 = s) := by
  have hconfig : ({ RoomConfig.new name mode with
      maxPlayers := mode.requiredPlayers,
      mapId := matchMapId } : RoomConfig) = RoomConfig.new name mode := rfl
  have hv := RoomConfig.validate_new name mode
  simp only [matchTarget, hconfig]
  by_cases hcap : s.maxRooms ≤ s.rooms.length
  · have he := createRoom_eq_error_iff.2 (.inr ⟨hv, hcap, rfl⟩)
    have hs := createRoom_of_error he
    rcases hc : s.createRoom (RoomConfig.new name mode) with ⟨res, s₁⟩
    rw [hc] at he hs
    cases he
    cases hs
    exact ⟨fun msg => ⟨fun h => by cases h; exact ⟨hcap, rfl⟩, fun h => by rw [h.2]⟩,
      fun _ => rfl⟩
  · obtain ⟨seed, ids, hc⟩ := createRoom_eq_ok hv hcap
    rw [hc]
    exact ⟨fun msg => ⟨(fun h => by cases h), fun h => absurd h.1 hcap⟩,
      fun h => absurd h hcap⟩

/-! ## The registry stays within its capacity, with valid rooms -/

/-- Within capacity, every room with a valid configuration. -/
structure Registry (s : Server) : Prop where
  bounded : s.rooms.length ≤ s.maxRooms
  valid : ∀ R ∈ s.rooms, R.config.validate = .ok ()

namespace Registry

theorem congr (h : s.Registry) (hr : s'.rooms = s.rooms) (hm : s'.maxRooms = s.maxRooms) :
    s'.Registry :=
  ⟨hr ▸ hm ▸ h.bounded, fun R hR => h.valid R (hr ▸ hR)⟩

/-- Putting a room in place of another keeps the registry when the configuration stays. -/
theorem putRoom (h : s.Registry) (hR : R ∈ s.rooms) (hc : r.config = R.config) :
    (s.putRoom r).Registry := by
  refine ⟨by simpa [Server.putRoom] using h.bounded, fun Q hQ => ?_⟩
  rcases mem_putRoom hQ with rfl | ⟨hQ, -⟩
  · rw [hc]
    exact h.valid R hR
  · exact h.valid Q hQ

theorem unseat (h : s.Registry) (hu : s.unseat rid conn = some (s', ts)) : s'.Registry := by
  obtain ⟨R, st, R', hR, hRu, rfl, -⟩ := unseat_eq_some hu
  have hput : (s.putRoom R').Registry := h.putRoom (room?_eq_some hR).1 (Room.config_unseat hRu)
  exact hput.congr rfl rfl

theorem release (h : s.Registry) (room : Uuid) (conns : List Uuid) :
    (conns.foldl (fun s c => s.clearRoomRef c room) s).Registry := by
  induction conns generalizing s with
  | nil => exact h
  | cons c cs ih => exact ih (h.congr rfl rfl)

theorem perform (h : s.Registry) (t : Task) : (s.perform t).1.Registry := by
  cases t with
  | deliver conn msg =>
    simp only [Server.perform]
    split
    · split
      · exact h
      · split
        · exact h.congr rfl rfl
        · exact h
    · exact h
  | close conn =>
    cases hl : s.hub.isLive conn with
    | false => rw [perform_close_of_not_live hl]; exact h
    | true =>
      obtain ⟨c, hc, ha⟩ := Hub.isLive_eq_true_iff.1 hl
      have hk : (s.killed conn).Registry := h.congr rfl rfl
      rcases perform_close_of_live hc ha with he | ⟨r, ts, hu⟩
      · exact he ▸ hk
      · exact hk.unseat hu
  | release room conns => exact h.release room conns

theorem run (h : s.Registry) (ts : List Task) : (s.run ts).Registry := by
  fun_induction Server.run s ts with
  | case1 s => exact h
  | case2 s t rest _ ih => exact ih (h.perform t)

/-- A room is added only after its configuration passed, and only below capacity. -/
theorem createRoom (h : s.Registry) (config : RoomConfig) : (s.createRoom config).2.Registry := by
  cases he : (s.createRoom config).1 with
  | error e => rw [createRoom_of_error he]; exact h
  | ok id =>
    obtain ⟨hv, hlt, seed, hrooms, hmax⟩ := createRoom_of_ok he
    have hnew : (Room.new config id seed s.clock).config = config :=
      Room.config_new (Nat.le_of_succ_le (RoomConfig.two_le_of_validate hv)) id seed
    refine ⟨by rw [hrooms, hmax, List.length_append, List.length_singleton]; omega,
      fun R hR => ?_⟩
    rw [hrooms] at hR
    rcases List.mem_append.1 hR with hR | hR
    · exact h.valid R hR
    · rw [List.mem_singleton.1 hR, hnew]
      exact hv

theorem addPlayer (h : s.Registry) (roomId conn : Uuid) (cid : Nat) :
    (s.addPlayer roomId conn cid).2.Registry := by
  unfold Server.addPlayer
  split
  · rename_i c r hc hr
    split
    · exact h
    · split
      · exact h
      · dsimp only
        have hput : (s.putRoom (r.seatPlayer conn c.playerId cid s.clock).2).Registry :=
          h.putRoom (room?_eq_some hr).1 (Room.config_seatPlayer _ _)
        have hk : ((s.putRoom (r.seatPlayer conn c.playerId cid s.clock).2).updateConn conn
            fun c => { c with room := some roomId }).Registry := hput.congr rfl rfl
        split
        · split
          · rename_i s₂ ts hu
            exact (hk.unseat hu).run ts
          · exact hk
        · exact hk.run _
  · exact h

theorem removePlayer (h : s.Registry) (roomId conn : Uuid) :
    (s.removePlayer roomId conn).2.Registry := by
  unfold Server.removePlayer
  split
  · rename_i s₁ ts hu
    exact (h.unseat hu).run ts
  · exact h

theorem setReady (h : s.Registry) (roomId conn : Uuid) (ready : Bool) :
    (s.setReady roomId conn ready).2.Registry := by
  unfold Server.setReady
  split
  · rename_i r hr
    split
    · rename_i r' hr'
      exact h.putRoom (room?_eq_some hr).1 (Room.config_setReady hr')
    · exact h
  · exact h

theorem handleInput (h : s.Registry) (roomId conn : Uuid) (input : PlayerInput) :
    (s.handleInput roomId conn input).2.Registry := by
  unfold Server.handleInput
  split
  · rename_i r hr
    split
    · rename_i sp r' hr'
      exact h.putRoom (room?_eq_some hr).1 (Room.config_handleInput hr')
    · exact h
  · exact h

theorem tick (h : s.Registry) {roomId : Uuid} {dt : Float32} (ht : s.tick roomId dt = .ok s') :
    s'.Registry := by
  unfold Server.tick at ht
  obtain ⟨⟨out, s₁⟩, hs, ht⟩ := Except.bind_eq_ok.1 ht
  have h₁ : s₁.Registry := by
    rcases step_eq_ok hs with ⟨-, rfl⟩ | ⟨r, r', hr, hr', rfl⟩
    · exact h
    · exact h.putRoom (room?_eq_some hr).1 (Room.config_step hr')
  dsimp only at ht
  split at ht
  · obtain rfl := Except.pure_eq_ok.1 ht
    exact h₁
  · split at ht <;>
    · obtain rfl := Except.pure_eq_ok.1 ht
      exact (h₁.run _).congr rfl rfl

theorem terminate (h : s.Registry) (y : Uuid) : (s.terminate y).Registry := by
  unfold Server.terminate
  split
  · rename_i r hr
    split
    · exact h
    · dsimp only
      have hput : (s.putRoom (r.terminate s.clock).2).Registry :=
        h.putRoom (room?_eq_some hr).1 Room.config_terminate
      split <;>
      · refine Registry.run ?_ _
        exact hput.congr rfl rfl
  · exact h

theorem foldl_terminate (h : s.Registry) (ys : List Uuid) :
    (ys.foldl Server.terminate s).Registry := by
  induction ys generalizing s with
  | nil => exact h
  | cons y ys ih => exact ih (h.terminate y)

/-- Dropping rooms. -/
theorem filterRooms (h : s.Registry) (keep : Room → Bool) :
    ({ s with rooms := s.rooms.filter keep } : Server).Registry :=
  ⟨(List.length_filter_le keep s.rooms).trans h.bounded,
    fun R hR => h.valid R (List.mem_filter.1 hR).1⟩

/-- Every call keeps the registry within its capacity and its rooms valid. -/
theorem keptByCalls : KeptByCalls Registry where
  connect _ h := h.congr rfl rfl
  send _ _ h := h.run _
  broadcast _ _ h := h.run _
  notifyPlayer _ _ h := h.run _
  close _ h := h.run _
  closeAll h := h.run _
  createRoom config h := h.createRoom config
  sweep _ h := (h.foldl_terminate _).filterRooms _
  shutdownAll _ := ⟨Nat.zero_le _, fun R hR => by cases hR⟩
  addPlayer roomId conn characterId h := h.addPlayer roomId conn characterId
  removePlayer roomId conn h := h.removePlayer roomId conn
  setReady roomId conn ready h := h.setReady roomId conn ready
  handleInput roomId conn input h := h.handleInput roomId conn input
  tick h ht := h.tick ht
  terminate roomId h := h.terminate roomId
  wait _ h := h.congr rfl rfl

end Registry

theorem Reachable.registry (h : s.Reachable) : s.Registry :=
  Registry.keptByCalls.reachable (fun _ _ _ _ => ⟨Nat.zero_le _, fun R hR => by cases hR⟩) h

end Server

end Skirmish
