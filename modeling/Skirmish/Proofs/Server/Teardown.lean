import Skirmish.Proofs.Server.Replies

/-!
# Tearing a connection down

Closing a connection sets off a chain: the connection leaves its room, the others are told, a
full queue on the way closes another connection, which leaves its room in turn. The chain ends
because each close that does any work kills a live connection first (`perform_lt`); here that is
made exact. The connections a worklist tears down (`Server.closedBy`) are distinct, each was live
when the work started and is dead when it ends, and there are no more of them than connections
that were live. A close of a connection that is not live does nothing at all.

After a close the connection is dead and no longer registered, since a dead connection is never
registered in any state a server reaches (`Server.Tidy`); it holds no seat, and closing it again
or sending it anything changes nothing (`close_tears_down_once`).
-/

namespace Skirmish

namespace Hub

/-- Whether the connection an id finds is live. -/
def isLive (h : Hub) (i : Uuid) : Bool := (h.get? i).any (·.alive)

variable {h : Hub} {i : Uuid}

theorem isLive_eq_true_iff : h.isLive i = true ↔ ∃ c, h.get? i = some c ∧ c.alive = true := by
  unfold isLive
  cases h.get? i <;> simp

theorem isLive_eq_false_iff :
    h.isLive i = false ↔ ∀ c, h.get? i = some c → c.alive = false := by
  unfold isLive
  cases h.get? i <;> simp

end Hub

namespace Server

variable {s s' : Server} {i conn rid : Uuid} {c : Connection} {ts : List Task}

/-- The server with a connection killed: dead, in no room, no longer registered. -/
def killed (s : Server) (conn : Uuid) : Server :=
  s.updateConn conn fun c => { c with alive := false, room := none, registered := false }

/-- The connection a task tears down: a close of a live connection. -/
def tearsDown (s : Server) : Task → Option Uuid
  | .close conn => if s.hub.isLive conn then some conn else none
  | _ => none

/-- The connections a worklist tears down, in order. -/
def closedBy (s : Server) : List Task → List Uuid
  | [] => []
  | t :: rest => (s.tearsDown t).toList ++ (s.perform t).1.closedBy ((s.perform t).2 ++ rest)
termination_by tasks => (s.hub.aliveCount, Task.load tasks)
decreasing_by exact perform_lt s t rest

/-! ## One task -/

theorem perform_close_of_not_live (h : s.hub.isLive conn = false) :
    s.perform (.close conn) = (s, []) := by
  simp only [perform]
  split
  · rename_i c hc
    rw [Hub.isLive_eq_false_iff] at h
    simp [h c hc]
  · rfl

theorem perform_deliver_of_not_live (h : s.hub.isLive conn = false) (m : ServerMsg) :
    s.perform (.deliver conn m) = (s, []) := by
  simp only [perform]
  split
  · rename_i c hc
    rw [Hub.isLive_eq_false_iff] at h
    simp [h c hc]
  · rfl

/-- A close of a live connection kills it, then takes its seat away if it has one. -/
theorem perform_close_of_live (hc : s.hub.get? conn = some c) (ha : c.alive = true) :
    (s.perform (.close conn)).1 = s.killed conn ∨
      ∃ r ts, (s.killed conn).unseat r conn = some ((s.perform (.close conn)).1, ts) := by
  simp only [perform, hc, ha, Bool.not_true, Bool.false_eq_true, if_false]
  split
  · rename_i r _
    cases hu : (s.updateConn conn fun c =>
        { c with alive := false, room := none, registered := false }).unseat r conn with
    | none => exact .inl rfl
    | some p => exact .inr ⟨r, p.2, hu⟩
  · exact .inl rfl

/-- Changing a connection without bringing it to life brings none to life. -/
theorem isLive_updateConn {f : Connection → Connection} (hf : ∀ c, (f c).id = c.id)
    (hrev : ∀ c, (f c).alive = true → c.alive = true)
    (h : (s.updateConn conn f).hub.isLive i = true) : s.hub.isLive i = true := by
  rw [Hub.isLive_eq_true_iff, get?_updateConn hf] at h
  obtain ⟨c', hc', ha'⟩ := h
  obtain ⟨c, hc, rfl⟩ := Option.map_eq_some_iff.1 hc'
  refine Hub.isLive_eq_true_iff.2 ⟨c, hc, ?_⟩
  split at ha'
  · exact hrev c ha'
  · exact ha'

theorem isLive_clearRoomRef (h : (s.clearRoomRef conn rid).hub.isLive i = true) :
    s.hub.isLive i = true := by
  rw [clearRoomRef_eq] at h
  exact isLive_updateConn (clearRef_id s rid) (fun c ha => by rwa [clearRef_alive] at ha) h

theorem isLive_unseat (hu : s.unseat rid conn = some (s', ts)) (h : s'.hub.isLive i = true) :
    s.hub.isLive i = true := by
  obtain ⟨R, st, R', -, -, rfl, -⟩ := unseat_eq_some hu
  have hput : (s.putRoom R').hub.isLive i = true := isLive_clearRoomRef h
  exact hput

theorem isLive_release {room : Uuid} {conns : List Uuid}
    (h : (conns.foldl (fun s c => s.clearRoomRef c room) s).hub.isLive i = true) :
    s.hub.isLive i = true := by
  induction conns generalizing s with
  | nil => exact h
  | cons c cs ih => exact isLive_clearRoomRef (ih h)

/-- No task brings a connection to life. -/
theorem isLive_perform (t : Task) (h : (s.perform t).1.hub.isLive i = true) :
    s.hub.isLive i = true := by
  cases t with
  | deliver conn msg =>
    simp only [perform] at h
    split at h
    · split at h
      · exact h
      · split at h
        · dsimp only at h
          refine isLive_updateConn ?_ ?_ h
          · exact fun _ => rfl
          · exact fun _ ha => ha
        · exact h
    · exact h
  | close conn =>
    cases hl : s.hub.isLive conn with
    | false => rwa [perform_close_of_not_live hl] at h
    | true =>
      obtain ⟨c, hc, ha⟩ := Hub.isLive_eq_true_iff.1 hl
      have hkill : (s.killed conn).hub.isLive i = true → s.hub.isLive i = true :=
        isLive_updateConn (fun _ => rfl) fun _ ha => by cases ha
      rcases perform_close_of_live hc ha with he | ⟨r, ts, hu⟩
      · exact hkill (he ▸ h)
      · exact hkill (isLive_unseat hu h)
  | release room conns => exact isLive_release h

/-- A task that tears a connection down finds it live and leaves it dead. -/
theorem tearsDown_perform {t : Task} (h : s.tearsDown t = some i) :
    s.hub.isLive i = true ∧ (s.perform t).1.hub.isLive i = false := by
  cases t with
  | deliver => cases h
  | release => cases h
  | close conn =>
    simp only [tearsDown] at h
    split at h
    · rename_i hl
      cases h
      refine ⟨hl, ?_⟩
      obtain ⟨c, hc, ha⟩ := Hub.isLive_eq_true_iff.1 hl
      have hk : (s.killed i).hub.get? i =
          some { c with alive := false, room := none, registered := false } :=
        get?_updateConn_self (fun _ => rfl) hc
      rw [Hub.isLive_eq_false_iff]
      intro c' hc'
      rcases perform_close_of_live hc ha with he | ⟨r, ts, hu⟩
      · rw [he, hk] at hc'
        cases hc'
        rfl
      · obtain ⟨c'', hc'', -, ha''⟩ := KeepsClosed.unseat hu i _ hk rfl
        rw [hc''] at hc'
        cases hc'
        exact ha''
    · cases h

/-- A task that tears a connection down takes one live connection away at least; any other
takes none. -/
theorem aliveCount_perform (s : Server) (t : Task) :
    (s.perform t).1.hub.aliveCount + (s.tearsDown t).toList.length ≤ s.hub.aliveCount := by
  cases ht : s.tearsDown t with
  | none =>
    -- the measure of the worklist: the live connections never grow
    have hlex := perform_lt s t []
    rw [Prod.lex_def] at hlex
    simp only [Option.toList_none, List.length_nil, Nat.add_zero]
    rcases hlex with hlt | ⟨heq, -⟩
    · exact Nat.le_of_lt hlt
    · exact Nat.le_of_eq heq
  | some j =>
    cases t with
    | deliver => cases ht
    | release => cases ht
    | close conn =>
      simp only [tearsDown] at ht
      split at ht
      · rename_i hl
        cases ht
        obtain ⟨c, hc, ha⟩ := Hub.isLive_eq_true_iff.1 hl
        have hlt : (s.killed j).hub.aliveCount < s.hub.aliveCount :=
          Hub.aliveCount_update_lt hc ha fun _ => rfl
        simp only [Option.toList_some, List.length_singleton]
        rcases perform_close_of_live hc ha with he | ⟨r, ts, hu⟩
        · rw [he]
          exact hlt
        · rw [aliveCount_unseat hu]
          exact hlt
      · cases ht

/-! ## A whole worklist -/

/-- No worklist brings a connection to life. -/
theorem isLive_run (s : Server) (ts : List Task) (h : (s.run ts).hub.isLive i = true) :
    s.hub.isLive i = true := by
  fun_induction Server.run s ts with
  | case1 s => exact h
  | case2 s t rest _ ih => exact isLive_perform t (ih h)

theorem closedBy_cons (s : Server) (t : Task) (rest : List Task) :
    s.closedBy (t :: rest) =
      (s.tearsDown t).toList ++ (s.perform t).1.closedBy ((s.perform t).2 ++ rest) := by
  rw [closedBy]

/-- Every connection a worklist tears down was live when it started. -/
theorem isLive_of_mem_closedBy (h : i ∈ s.closedBy ts) : s.hub.isLive i = true := by
  fun_induction Server.closedBy s ts with
  | case1 s => cases h
  | case2 s t rest ih =>
    rcases List.mem_append.1 h with hd | htl
    · exact (tearsDown_perform (Option.mem_toList.1 hd)).1
    · exact isLive_perform t (ih htl)

/-- Every connection a worklist tears down is dead when it ends. -/
theorem not_isLive_run_of_mem_closedBy (h : i ∈ s.closedBy ts) :
    (s.run ts).hub.isLive i = false := by
  fun_induction Server.closedBy s ts with
  | case1 s => cases h
  | case2 s t rest ih =>
    rw [run.eq_2]
    rcases List.mem_append.1 h with hd | htl
    · have hdead := (tearsDown_perform (Option.mem_toList.1 hd)).2
      cases hl : ((s.perform t).1.run ((s.perform t).2 ++ rest)).hub.isLive i with
      | false => rfl
      | true => rw [isLive_run _ _ hl] at hdead; cases hdead
    · exact ih htl

/-- A worklist tears each connection down at most once. -/
theorem nodup_closedBy (s : Server) (ts : List Task) : (s.closedBy ts).Nodup := by
  fun_induction Server.closedBy s ts with
  | case1 s => exact List.nodup_nil
  | case2 s t rest ih =>
    refine List.nodup_append.2 ⟨(s.tearsDown t).toList_nodup, ih, ?_⟩
    intro a ha b hb hab
    subst hab
    have hdead := (tearsDown_perform (Option.mem_toList.1 ha)).2
    rw [isLive_of_mem_closedBy hb] at hdead
    cases hdead

/-- The connections a worklist tears down, and the live ones left after it, are no more than the
live ones before. -/
theorem aliveCount_run_add_closedBy (s : Server) (ts : List Task) :
    (s.run ts).hub.aliveCount + (s.closedBy ts).length ≤ s.hub.aliveCount := by
  fun_induction Server.closedBy s ts with
  | case1 s => simp [run.eq_1]
  | case2 s t rest ih =>
    rw [run.eq_2, List.length_append]
    have hstep := aliveCount_perform s t
    omega

/-! ## A dead connection is no longer registered -/

/-- The connection an id finds is registered while it is live. -/
def Tidy (s : Server) : Prop :=
  ∀ i c, s.hub.get? i = some c → c.alive = false → c.registered = false

@[simp] theorem clearRef_registered (s : Server) (room : Uuid) (c : Connection) :
    (s.clearRef room c).registered = c.registered := by
  unfold clearRef
  split
  · split <;> rfl
  · rfl

namespace Tidy

theorem of_hub (h : s.Tidy) (hh : s'.hub = s.hub) : s'.Tidy := fun i c hc => h i c (hh ▸ hc)

/-- A change keeps the agreement when it keeps it for the connection it changes. -/
theorem updateConn (h : s.Tidy) {f : Connection → Connection} (hf : ∀ c, (f c).id = c.id)
    (hkeep : ∀ c, (c.alive = false → c.registered = false) →
      (f c).alive = false → (f c).registered = false) :
    (s.updateConn conn f).Tidy := by
  intro j c' hc' ha'
  rw [get?_updateConn hf] at hc'
  obtain ⟨c, hc, rfl⟩ := Option.map_eq_some_iff.1 hc'
  by_cases hj : j = conn
  · rw [if_pos hj] at ha' ⊢
    exact hkeep c (h j c hc) ha'
  · rw [if_neg hj] at ha' ⊢
    exact h j c hc ha'

theorem killed (h : s.Tidy) (conn : Uuid) : (s.killed conn).Tidy :=
  updateConn h (fun _ => rfl) fun _ _ _ => rfl

theorem clearRoomRef (h : s.Tidy) (conn room : Uuid) : (s.clearRoomRef conn room).Tidy := by
  rw [clearRoomRef_eq]
  exact updateConn h (clearRef_id s room) fun c hc ha => by
    rw [clearRef_registered]
    exact hc (by rwa [clearRef_alive] at ha)

theorem unseat (h : s.Tidy) (hu : s.unseat rid conn = some (s', ts)) : s'.Tidy := by
  obtain ⟨R, st, R', -, -, rfl, -⟩ := unseat_eq_some hu
  exact (of_hub h rfl : (s.putRoom R').Tidy).clearRoomRef conn rid

theorem release (h : s.Tidy) (room : Uuid) (conns : List Uuid) :
    (conns.foldl (fun s c => s.clearRoomRef c room) s).Tidy := by
  induction conns generalizing s with
  | nil => exact h
  | cons c cs ih => exact ih (h.clearRoomRef c room)

theorem perform (h : s.Tidy) (t : Task) : (s.perform t).1.Tidy := by
  cases t with
  | deliver conn msg =>
    simp only [Server.perform]
    split
    · split
      · exact h
      · split
        · exact updateConn h (fun _ => rfl) fun _ hc => hc
        · exact h
    · exact h
  | close conn =>
    cases hl : s.hub.isLive conn with
    | false => rw [perform_close_of_not_live hl]; exact h
    | true =>
      obtain ⟨c, hc, ha⟩ := Hub.isLive_eq_true_iff.1 hl
      rcases perform_close_of_live hc ha with he | ⟨r, ts, hu⟩
      · exact he ▸ h.killed conn
      · exact (h.killed conn).unseat hu
  | release room conns => exact h.release room conns

theorem run (h : s.Tidy) (ts : List Task) : (s.run ts).Tidy := by
  fun_induction Server.run s ts with
  | case1 s => exact h
  | case2 s t rest _ ih => exact ih (h.perform t)

theorem connect (h : s.Tidy) (playerId : Int) : (s.connect playerId).2.Tidy := by
  intro j c hc ha
  change (s.hub.register (Connection.fresh (s.freshId).1 playerId)).get? j = some c at hc
  rw [Hub.get?_register] at hc
  cases hj : s.hub.get? j with
  | some c₀ =>
    rw [hj] at hc
    cases hc
    exact h j c hj ha
  | none =>
    rw [hj, Option.none_or] at hc
    split at hc
    · cases hc
      cases ha
    · cases hc

theorem addPlayer (h : s.Tidy) (roomId conn : Uuid) (cid : Nat) :
    (s.addPlayer roomId conn cid).2.Tidy := by
  unfold Server.addPlayer
  split
  · rename_i c r hc hr
    split
    · exact h
    · split
      · exact h
      · dsimp only
        have hk : ((s.putRoom (r.seatPlayer conn c.playerId cid s.clock).2).updateConn conn
            fun c => { c with room := some roomId }).Tidy :=
          updateConn (of_hub h rfl) (fun _ => rfl) fun _ hc => hc
        split
        · split
          · rename_i s₂ ts hu
            exact (hk.unseat hu).run ts
          · exact hk
        · exact hk.run _
  · exact h

theorem removePlayer (h : s.Tidy) (roomId conn : Uuid) : (s.removePlayer roomId conn).2.Tidy := by
  unfold Server.removePlayer
  split
  · rename_i s₁ ts hu
    exact (h.unseat hu).run ts
  · exact h

theorem tick (h : s.Tidy) {roomId : Uuid} {dt : Float32} (ht : s.tick roomId dt = .ok s') :
    s'.Tidy := by
  obtain ⟨out, s₁, hs, -, hhub⟩ := tick_eq_ok ht
  have h₁ : s₁.hub = s.hub := by
    rcases step_eq_ok hs with ⟨-, rfl⟩ | ⟨r, r', -, -, rfl⟩ <;> rfl
  exact of_hub ((of_hub h h₁).run _) hhub

theorem terminate (h : s.Tidy) (y : Uuid) : (s.terminate y).Tidy := by
  rcases terminate_cases s y with ⟨he, -⟩ | ⟨r, r', s₂, pre, -, he, -, hhub, -⟩
  · rw [he]
    exact h
  · rw [he]
    exact (of_hub h hhub).run _

theorem foldl_terminate (h : s.Tidy) (ys : List Uuid) : (ys.foldl Server.terminate s).Tidy := by
  induction ys generalizing s with
  | nil => exact h
  | cons y ys ih => exact ih (h.terminate y)

/-- Every call keeps a dead connection unregistered. -/
theorem keptByCalls : KeptByCalls Tidy where
  connect playerId h := h.connect playerId
  send _ _ h := h.run _
  broadcast _ _ h := h.run _
  notifyPlayer _ _ h := h.run _
  close _ h := h.run _
  closeAll h := h.run _
  createRoom config h := of_hub h (hub_createRoom _ config)
  sweep _ h := of_hub (h.foldl_terminate _) rfl
  shutdownAll h := of_hub (h.foldl_terminate _) rfl
  addPlayer roomId conn characterId h := h.addPlayer roomId conn characterId
  removePlayer roomId conn h := h.removePlayer roomId conn
  setReady roomId conn ready h := of_hub h (hub_setReady _ roomId conn ready)
  handleInput roomId conn input h := of_hub h (hub_handleInput _ roomId conn input)
  tick h ht := h.tick ht
  terminate roomId h := h.terminate roomId
  wait _ h := of_hub h rfl

end Tidy

theorem Reachable.tidy (h : s.Reachable) : s.Tidy :=
  Tidy.keptByCalls.reachable (fun _ _ _ _ _ _ hc => by cases hc) h

/-! ## After a close -/

theorem close_of_not_live (h : s.hub.isLive conn = false) : s.close conn = s := by
  rw [close, settle, run.eq_2, perform_close_of_not_live h]
  dsimp only [List.nil_append]
  rw [run.eq_1]

/-- A close leaves the connection dead. -/
theorem isLive_close (s : Server) (conn : Uuid) : (s.close conn).hub.isLive conn = false := by
  cases hl : s.hub.isLive conn with
  | false =>
    rw [close_of_not_live hl]
    exact hl
  | true =>
    have hmem : conn ∈ s.closedBy [.close conn] := by
      simp [closedBy_cons, tearsDown, hl]
    exact not_isLive_run_of_mem_closedBy hmem

theorem send_of_not_live (h : s.hub.isLive conn = false) (m : ServerMsg) : s.send conn m = s := by
  rw [send, settle, run.eq_2, perform_deliver_of_not_live h]
  dsimp only [List.nil_append]
  rw [run.eq_1]

/-- A connection that is not live holds no seat. -/
theorem Links.not_mem_of_not_live (hl : s.Links) (h : s.hub.isLive conn = false) :
    ∀ R ∈ s.rooms, conn ∉ R.members := by
  intro R hR hi
  obtain ⟨-, c, hc, hr⟩ := hl.seated R hR conn hi
  rw [hl.dead conn c hc (Hub.isLive_eq_false_iff.1 h c hc)] at hr
  cases hr

/-- A chain of closes tears down each live connection at most once; after a close the connection
is dead, unregistered and seated nowhere, and closing or sending to it again changes nothing. -/
theorem close_tears_down_once (s : Server) :
    (∀ ts, (s.closedBy ts).Nodup ∧
      (∀ i ∈ s.closedBy ts, s.hub.isLive i = true ∧ (s.run ts).hub.isLive i = false) ∧
      (s.run ts).hub.aliveCount + (s.closedBy ts).length ≤ s.hub.aliveCount) ∧
    (∀ conn, s.hub.isLive conn = false → s.perform (.close conn) = (s, [])) ∧
    (s.Reachable → ∀ conn,
      (∀ c, (s.close conn).hub.get? conn = some c →
        c.alive = false ∧ c.registered = false) ∧
      (∀ R ∈ (s.close conn).rooms, conn ∉ R.members) ∧
      (∀ m, (s.close conn).send conn m = s.close conn) ∧
      (s.close conn).close conn = s.close conn) := by
  refine ⟨fun ts => ⟨nodup_closedBy s ts, fun i hi => ⟨isLive_of_mem_closedBy hi,
    not_isLive_run_of_mem_closedBy hi⟩, aliveCount_run_add_closedBy s ts⟩,
    fun conn => perform_close_of_not_live, fun hs conn => ?_⟩
  have hdead := isLive_close s conn
  have hreach : (s.close conn).Reachable := .call (.close conn) hs rfl
  refine ⟨fun c hc => ?_, hreach.links.not_mem_of_not_live hdead,
    fun m => send_of_not_live hdead m, close_of_not_live hdead⟩
  have ha := Hub.isLive_eq_false_iff.1 hdead c hc
  exact ⟨ha, hreach.tidy conn c hc ha⟩

/-- Two players connect and sit in one room, and the first one's connection is closed. -/
theorem close_tears_down_once_seated :
    let s₀ := Server.new 8 4 0 7
    let s₁ := (s₀.connect 1).2
    let s₂ := (s₁.connect 2).2
    let a := (s₀.connect 1).1
    let b := (s₁.connect 2).1
    let rid := s₂.freshId.1
    let s₃ := (s₂.createRoom (RoomConfig.new "arena" .deathMatch)).2
    let s := ((s₃.addPlayer rid a 0).2.addPlayer rid b 0).2
    s.Reachable ∧ a ≠ b ∧ (∃ R ∈ s.rooms, R.members = [a, b]) ∧
    (∃ c, s.hub.get? a = some c ∧ c.alive = true) ∧
    (∀ c, (s.close a).hub.get? a = some c → c.alive = false ∧ c.registered = false) ∧
    (∀ R ∈ (s.close a).rooms, a ∉ R.members) ∧
    (∀ m, (s.close a).send a m = s.close a) ∧
    (s.close a).close a = s.close a := by
  intro s₀ s₁ s₂ a b rid s₃ s
  have hs : s.Reachable :=
    .call (.addPlayer rid b 0) (.call (.addPlayer rid a 0) (.call (.createRoom _)
      (.call (.connect 2) (.call (.connect 1) (.new 8 4 0 7) rfl) rfl) rfl) rfl) rfl
  have hab : a ≠ b := by
    simp only [a, b, s₁, s₀]
    decide +kernel
  have hconns : s₃.hub.connections = [Connection.fresh a 1, Connection.fresh b 2] := by
    simp only [s₃, hub_createRoom]
    rfl
  have hcap₃ : s₃.hub.capacity = 8 := by
    simp only [s₃, hub_createRoom]
    rfl
  have ha₃ : s₃.hub.get? a = some (Connection.fresh a 1) := by
    simp [Hub.get?, hconns, Connection.fresh]
  have hb₃ : s₃.hub.get? b = some (Connection.fresh b 2) := by
    simp [Hub.get?, hconns, Connection.fresh, hab]
  obtain ⟨seed, ids, hcr⟩ :=
    @createRoom_eq_ok s₂ (RoomConfig.new "arena" .deathMatch) rfl (by decide)
  obtain ⟨R₀, hR₀⟩ : ∃ R₀, R₀ = Room.new (RoomConfig.new "arena" .deathMatch) rid seed s₂.clock :=
    ⟨_, rfl⟩
  have hr₃ : s₃.room? rid = some R₀ := by
    have hrooms₂ : s₂.rooms = [] := rfl
    simp only [s₃, hcr, hR₀]
    simp [room?, rid, Room.new, hrooms₂]
  have hm₀ : R₀.members = [] := by rw [hR₀]; rfl
  -- the first player takes the empty room
  obtain ⟨⟨st₁, R₁⟩, hp₁⟩ : ∃ p, R₀.seatPlayer a 1 0 s₃.clock = p := ⟨_, rfl⟩
  have hq₁ : ∀ j ∈ a :: R₀.members, ∃ c, s₃.hub.get? j = some c ∧ c.alive = true ∧
      c.outbox.length + R₀.members.length + 1 ≤ s₃.hub.capacity := by
    intro j hj
    rw [hm₀, List.mem_singleton] at hj
    subst hj
    exact ⟨_, ha₃, rfl, by rw [hm₀, hcap₃]; decide⟩
  obtain ⟨-, hr₄, h₄⟩ := addPlayer_live ha₃ rfl rfl hr₃ (by rw [hR₀]; rfl)
    (hR₀ ▸ new_admits _ _ _ _) hp₁ hq₁
  have hR₁ : R₁ = (R₀.seatPlayer a 1 0 s₃.clock).2 := by rw [hp₁]
  have hm₁ : R₁.members = [a] := by rw [hR₁, Room.seatPlayer_members, hm₀]; rfl
  have hadm₁ : R₁.admits = .ok () := by
    rw [hR₁, Room.seatPlayer_eq, hR₀]
    simp [Room.admits, Room.new, RoomConfig.new, GameMode.requiredPlayers]
  have ha₃' : (s₃.putRoom R₁).hub.get? a = some (Connection.fresh a 1) := ha₃
  obtain ⟨ca, hca, haa, hoa⟩ : ∃ c, (s₃.addPlayer rid a 0).2.hub.get? a = some c ∧
      c.alive = true ∧ c.outbox.length = 1 := by
    rw [h₄.conn, get?_updateConn_self (by intro c; rfl) ha₃']
    simp [Task.pendingFor, hm₀, Connection.receive, Connection.fresh, hcap₃]
  have hb₄ : (s₃.addPlayer rid a 0).2.hub.get? b = some (Connection.fresh b 2) := by
    rw [h₄.conn, get?_updateConn_of_ne (by intro c; rfl) (Ne.symm hab)]
    simp [Task.pendingFor, hm₀, hab, hb₃]
  -- the second player joins the first
  have hcap₄ : (s₃.addPlayer rid a 0).2.hub.capacity = 8 := h₄.capacity.trans hcap₃
  obtain ⟨⟨st₂, R₂⟩, hp₂⟩ : ∃ p, R₁.seatPlayer b 2 0 (s₃.addPlayer rid a 0).2.clock = p :=
    ⟨_, rfl⟩
  have hq₂ : ∀ j ∈ b :: R₁.members, ∃ c, (s₃.addPlayer rid a 0).2.hub.get? j = some c ∧
      c.alive = true ∧ c.outbox.length + R₁.members.length + 1 ≤
        (s₃.addPlayer rid a 0).2.hub.capacity := by
    rw [hm₁, hcap₄]
    intro j hj
    rcases List.mem_pair.1 hj with rfl | rfl
    · exact ⟨_, hb₄, rfl, by decide⟩
    · exact ⟨ca, hca, haa, by rw [hoa]; decide⟩
  have hseat₁ : R₁.seat? b = none := Option.not_isSome_iff_eq_none.1 fun h => by
    simpa [hm₁, Ne.symm hab] using Room.seat?_isSome_iff.1 h
  obtain ⟨-, hr₅, h₅⟩ := addPlayer_live hb₄ rfl rfl hr₄ hseat₁ hadm₁ hp₂ hq₂
  have hm₂ : R₂.members = [a, b] := by
    rw [show R₂ = (R₁.seatPlayer b 2 0 (s₃.addPlayer rid a 0).2.clock).2 by rw [hp₂],
      Room.seatPlayer_members, hm₁]
    rfl
  have hca' : ((s₃.addPlayer rid a 0).2.putRoom R₂).hub.get? a = some ca := by
    rw [hub_putRoom]
    exact hca
  have hlive : ∃ c, s.hub.get? a = some c ∧ c.alive = true := by
    rw [h₅.conn, get?_updateConn_of_ne (by intro c; rfl) hab, hca']
    simp [Task.pendingFor, hm₁, Connection.receive, haa, hoa, hcap₄, Ne.symm hab]
  exact ⟨hs, hab, ⟨R₂, (room?_eq_some hr₅).1, hm₂⟩, hlive, (close_tears_down_once s).2.2 hs a⟩

end Server

end Skirmish
