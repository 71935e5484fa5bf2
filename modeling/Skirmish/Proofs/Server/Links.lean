import Skirmish.Proofs.Room.Events
import Skirmish.Proofs.Server.Worklist
import Skirmish.Server.App

/-!
# Seats and room references agree

A seat names its connection, and a connection names the room it sits in: the relation is kept
twice, and the server's operations change both sides, often in several steps and through each
other. Closing a connection kills it and then takes its seat away; ending a room empties it,
tells its members, and only then clears their references, while a message that overflows a
queue closes one more connection in the middle.

`LinksExcept s stale` is the agreement of the two sides but for the pairs `stale` of a
connection and a room whose reference is still to be cleared: every seat's connection names the
seat's room, every reference finds a room the connection sits in unless the pair is stale, a
stale reference finds no seat, a stopped room has no seats, and a closed connection names no
room. `Links` is the agreement with nothing stale.

Each kind of change is one lemma: putting a room with fewer seats makes the references to the
seats it lost stale (`LinksExcept.putRoom`), a change of one connection that keeps its reference
or that of a connection sitting nowhere keeps the agreement (`LinksExcept.updateConn`), and a
connection leaving a room is both at once (`LinksExcept.leave`). Tasks are built from them, and
whole worklists (`LinksExcept.run`).
-/

namespace Skirmish

/-- A task that is no release: every task a task produces is one. -/
def Task.plain : Task → Bool
  | .release _ _ => false
  | _ => true

namespace Room

variable {r r' : Room} {i conn : Uuid} {now : Nat}

theorem seat?_isSome_iff : (r.seat? i).isSome ↔ i ∈ r.members := by
  simp [seat?, members, List.find?_isSome]

/-- Two states of a room with the same id, stop and members. -/
structure SameMembers (r r' : Room) : Prop where
  id : r'.id = r.id
  stopped : r'.stopped = r.stopped
  mem : ∀ i, i ∈ r'.members ↔ i ∈ r.members

theorem SameMembers.of_members (hi : r'.id = r.id) (hs : r'.stopped = r.stopped)
    (he : r'.members = r.members) : r.SameMembers r' :=
  ⟨hi, hs, fun i => by rw [he]⟩

theorem SameMembers.of_seats (hi : r'.id = r.id) (hs : r'.stopped = r.stopped)
    (he : r'.seats = r.seats) : r.SameMembers r' :=
  .of_members hi hs (by unfold Room.members; rw [he])

theorem setReady_sameMembers {b : Bool} (h : r.setReady conn b = .ok r') : r.SameMembers r' := by
  obtain ⟨-, rfl⟩ := setReady_eq_ok.1 h
  refine .of_members rfl rfl ?_
  simp only [members, List.map_map]
  refine List.map_congr_left fun st _ => ?_
  by_cases hs : st.connection = conn <;> simp [hs]

theorem handleInput_sameMembers {input : PlayerInput} {sp : List Nat}
    (h : r.handleInput conn input now = .ok (sp, r')) : r.SameMembers r' := by
  rcases handleInput_eq_ok h with rfl | ⟨-, -, -, -, -, -, -, -, -, rfl | ⟨-, -, rfl⟩⟩ <;>
    exact .of_seats rfl rfl rfl

theorem checkReady_sameMembers : r.SameMembers (r.checkReady now).2 := by
  unfold checkReady
  split
  · exact .of_seats rfl rfl rfl
  · exact .of_seats rfl rfl rfl

/-- A step of a room starts, plays or ends the game, but seats no one and unseats no one. -/
theorem step_sameMembers {dt : Float32} {out : TickOutput} (h : r.step dt now = .ok (out, r')) :
    r.SameMembers r' := by
  cases hs : r.stopped with
  | true =>
    rw [step_of_stopped hs] at h
    obtain ⟨-, rfl⟩ := Prod.mk.inj (Except.pure_eq_ok.1 h).symm
    exact .of_seats rfl rfl rfl
  | false =>
    cases hst : r.status with
    | waiting =>
      rw [step_of_waiting hs hst] at h
      obtain ⟨-, rfl⟩ := Prod.mk.inj (Except.pure_eq_ok.1 h).symm
      exact checkReady_sameMembers
    | playing =>
      rw [step_of_playing hs hst] at h
      obtain ⟨-, r₁, -, hr₁, -, -, hend⟩ := simulate_eq_ok h
      rcases hend with ⟨-, -, rfl, -⟩ | ⟨-, rfl, -⟩ <;>
        exact .of_seats (by rw [hr₁]) (by rw [hr₁]) (by rw [hr₁])
    | ended =>
      rw [step_of_ended hs hst] at h
      obtain ⟨-, rfl⟩ := Prod.mk.inj (Except.pure_eq_ok.1 h).symm
      exact .of_seats rfl rfl rfl

/-- Leaving takes exactly the connection out of the members. -/
theorem unseat_members {st : Seat} (h : r.unseat conn now = some (st, r')) :
    r'.id = r.id ∧ r'.stopped = r.stopped ∧ conn ∈ r.members ∧
      ∀ i, i ∈ r'.members ↔ i ∈ r.members ∧ i ≠ conn := by
  obtain ⟨hst, rfl⟩ := unseat_eq_some.1 h
  refine ⟨rfl, rfl, seat?_isSome_iff.1 (by simp [hst]), fun i => ?_⟩
  simp only [members, List.mem_map, List.mem_filter, bne_iff_ne, ne_eq]
  constructor
  · rintro ⟨st', ⟨hm, hne⟩, rfl⟩
    exact ⟨⟨st', hm, rfl⟩, hne⟩
  · rintro ⟨⟨st', hm, rfl⟩, hne⟩
    exact ⟨st', ⟨hm, hne⟩, rfl⟩

@[simp] theorem seatPlayer_id (pid : Int) (cid : Nat) :
    (r.seatPlayer conn pid cid now).2.id = r.id := rfl

@[simp] theorem seatPlayer_stopped (pid : Int) (cid : Nat) :
    (r.seatPlayer conn pid cid now).2.stopped = r.stopped := rfl

@[simp] theorem seatPlayer_members (pid : Int) (cid : Nat) :
    (r.seatPlayer conn pid cid now).2.members = r.members ++ [conn] := by
  simp [seatPlayer_eq, members]

theorem admits_stopped (h : r.admits = .ok ()) : r.stopped = false := by
  unfold admits at h
  cases hs : r.stopped
  · rfl
  · simp [hs] at h

end Room

namespace Server

variable {s s' : Server} {stale : Uuid → Uuid → Prop} {r r₀ R : Room} {i conn rid room : Uuid}
  {c : Connection} {ts : List Task}

/-! ## Leaving a room on the server -/

theorem unseat_eq_some (h : s.unseat rid conn = some (s', ts)) :
    ∃ R st R', s.room? rid = some R ∧ R.unseat conn s.clock = some (st, R') ∧
      s' = (s.putRoom R').clearRoomRef conn rid ∧
      ts = .deliver conn (.roomLeft rid) ::
        R'.members.map (Task.deliver · (.playerLeft st.playerId st.entityId)) := by
  unfold unseat at h
  simp only [Option.bind_eq_bind, Option.bind_eq_some_iff, Option.pure_def,
    Option.some.injEq] at h
  obtain ⟨R, hR, ⟨st, R'⟩, hu, h⟩ := h
  obtain ⟨rfl, rfl⟩ := Prod.mk.inj h
  exact ⟨R, st, R', hR, hu, rfl, rfl⟩

theorem unseat_eq_none (h : s.unseat rid conn = none) :
    ∀ R, s.room? rid = some R → conn ∉ R.members := by
  intro R hR hm
  obtain ⟨st, hst⟩ := Option.isSome_iff_exists.1 (Room.seat?_isSome_iff.2 hm)
  have hu : R.unseat conn s.clock = some (st, _) := Room.unseat_eq_some.2 ⟨hst, rfl⟩
  simp [unseat, hR, hu] at h

theorem plain_unseat (h : s.unseat rid conn = some (s', ts)) : ∀ t ∈ ts, t.plain = true := by
  obtain ⟨-, -, -, -, -, -, rfl⟩ := unseat_eq_some h
  simp [Task.plain]

/-- Every task a task produces is plain. -/
theorem plain_perform (s : Server) (t : Task) : ∀ t' ∈ (s.perform t).2, t'.plain = true := by
  cases t with
  | deliver conn msg =>
    simp only [perform]
    split
    · split
      · simp
      · split <;> simp [Task.plain]
    · simp
  | close conn =>
    simp only [perform]
    split
    · split
      · simp
      · split
        · rename_i rid _
          rcases hu : (s.updateConn conn fun c =>
              { c with alive := false, room := none, registered := false }).unseat rid conn with
            _ | ⟨s', ts⟩
          · simp
          · exact plain_unseat hu
        · simp
    · simp
  | release room conns => simp [perform]

/-! ## The agreement -/

/-- Seats and references agree, but for the pairs `stale` of a connection and a room whose
reference is still to be cleared. -/
structure LinksExcept (s : Server) (stale : Uuid → Uuid → Prop) : Prop where
  /-- A stopped room has no seats. -/
  stopped : ∀ R ∈ s.rooms, R.stopped = true → R.members = []
  /-- A room with a seat is the room its id finds, and the seat's connection names it. -/
  seated : ∀ R ∈ s.rooms, ∀ i ∈ R.members, s.room? R.id = some R ∧
    ∃ c, s.hub.get? i = some c ∧ c.room = some R.id
  /-- A reference finds a room the connection sits in, unless the pair is stale. -/
  refers : ∀ i c rid, s.hub.get? i = some c → c.room = some rid →
    (∃ R, s.room? rid = some R ∧ i ∈ R.members) ∨ stale i rid
  /-- A stale reference finds no seat. -/
  unseated : ∀ i rid, stale i rid → ∀ R, s.room? rid = some R → i ∉ R.members
  /-- A closed connection names no room. -/
  dead : ∀ i c, s.hub.get? i = some c → c.alive = false → c.room = none

/-- Seats and references agree. -/
abbrev Links (s : Server) : Prop := s.LinksExcept fun _ _ => False

namespace LinksExcept

/-- The agreement reads only the rooms and the lookup of connections. -/
theorem congr (h : s.LinksExcept stale) (hr : s'.rooms = s.rooms)
    (hh : ∀ i, s'.hub.get? i = s.hub.get? i) : s'.LinksExcept stale := by
  have hq : ∀ i, s'.room? i = s.room? i := fun i => by simp only [room?, hr]
  refine ⟨fun R hR => h.stopped R (hr ▸ hR), fun R hR i hi => ?_, fun i c rid hc hrid => ?_,
    fun i rid hst R hR => h.unseated i rid hst R ((hq rid).symm.trans hR),
    fun i c hc => h.dead i c ((hh i).symm.trans hc)⟩
  · rw [hq, hh]
    exact h.seated R (hr ▸ hR) i hi
  · simp only [hq]
    exact h.refers i c rid ((hh i).symm.trans hc) hrid

/-- Pairs are no longer stale once their references are gone. -/
theorem mono {stale' : Uuid → Uuid → Prop} (h : s.LinksExcept stale)
    (hst : ∀ i c rid, s.hub.get? i = some c → c.room = some rid → stale i rid → stale' i rid)
    (hun : ∀ i rid, stale' i rid → ∀ R, s.room? rid = some R → i ∉ R.members) :
    s.LinksExcept stale' :=
  ⟨h.stopped, h.seated, fun i c rid hc hr => (h.refers i c rid hc hr).imp_right (hst i c rid hc hr),
    hun, h.dead⟩

/-- A connection whose reference finds no seat of it sits nowhere. -/
theorem not_mem (h : s.LinksExcept stale) (hc : s.hub.get? i = some c)
    (hno : ∀ rid, c.room = some rid → ∀ R, s.room? rid = some R → i ∉ R.members) :
    ∀ R ∈ s.rooms, i ∉ R.members := by
  intro R hR hi
  obtain ⟨hq, c', hc', hr⟩ := h.seated R hR i hi
  obtain rfl : c = c' := Option.some.inj (hc.symm.trans hc')
  exact hno R.id hr R hq hi

/-- A connection sits only in the room it names. -/
theorem room_of_mem (h : s.LinksExcept stale) (hR : R ∈ s.rooms) (hi : i ∈ R.members)
    (hc : s.hub.get? i = some c) : c.room = some R.id := by
  obtain ⟨-, c', hc', hr⟩ := h.seated R hR i hi
  rw [hc, Option.some.injEq] at hc'
  exact hc' ▸ hr

/-- Putting a room in place of the one its id finds, with no seat that one did not have: the
references to the seats it lost become stale. -/
theorem putRoom (h : s.LinksExcept stale) (hR : s.room? r.id = some r₀)
    (hsub : ∀ i ∈ r.members, i ∈ r₀.members) (hstop : r.stopped = true → r.members = []) :
    (s.putRoom r).LinksExcept fun i rid => stale i rid ∨ rid = r.id ∧ i ∉ r.members := by
  obtain ⟨hr₀, hid⟩ := room?_eq_some hR
  refine ⟨fun R hR' hs => ?_, fun R hR' i hi => ?_, fun i c rid hc hrid => ?_,
    fun i rid hst R hR' => ?_, h.dead⟩
  · rcases mem_putRoom hR' with rfl | ⟨hR', -⟩
    · exact hstop hs
    · exact h.stopped R hR' hs
  · rcases mem_putRoom hR' with rfl | ⟨hR', hne⟩
    · obtain ⟨-, c, hc, hcr⟩ := h.seated r₀ hr₀ i (hsub i hi)
      exact ⟨room?_putRoom_self hR, c, hc, hid ▸ hcr⟩
    · obtain ⟨hq, hc⟩ := h.seated R hR' i hi
      exact ⟨(room?_putRoom_of_ne hne).trans hq, hc⟩
  · rcases h.refers i c rid hc hrid with ⟨R, hq, hi⟩ | hst
    · by_cases hrid' : rid = r.id
      · subst hrid'
        by_cases hm : i ∈ r.members
        · exact .inl ⟨r, room?_putRoom_self hR, hm⟩
        · exact .inr (.inr ⟨rfl, hm⟩)
      · exact .inl ⟨R, (room?_putRoom_of_ne hrid').trans hq, hi⟩
    · exact .inr (.inl hst)
  · by_cases hrid' : rid = r.id
    · subst hrid'
      rw [room?_putRoom_self hR, Option.some.injEq] at hR'
      subst hR'
      rcases hst with hst | ⟨-, hm⟩
      · exact fun hm => h.unseated i r.id hst r₀ hR (hsub i hm)
      · exact hm
    · rw [room?_putRoom_of_ne hrid'] at hR'
      rcases hst with hst | ⟨hrid'', -⟩
      · exact h.unseated i rid hst R hR'
      · exact absurd hrid'' hrid'

/-- Putting a room with the same members keeps the agreement. -/
theorem putRoom_same (h : s.LinksExcept stale) (hR : s.room? r₀.id = some r₀)
    (hsame : r₀.SameMembers r) : (s.putRoom r).LinksExcept stale := by
  have hR' : s.room? r.id = some r₀ := hsame.id ▸ hR
  have hp := h.putRoom hR' (fun i hi => (hsame.mem i).1 hi) fun hs => by
    have hnil := h.stopped r₀ (room?_eq_some hR).1 (hsame.stopped ▸ hs)
    exact List.eq_nil_iff_forall_not_mem.2 fun i hi => by simpa [hnil] using (hsame.mem i).1 hi
  refine hp.mono (fun i c rid hc hr hst => ?_)
    (fun i rid hst R hR'' => hp.unseated i rid (.inl hst) R hR'')
  rcases hst with hst | ⟨rfl, hm⟩
  · exact hst
  · rcases h.refers i c r.id hc hr with ⟨R, hq, hi⟩ | hst
    · rw [hR', Option.some.injEq] at hq
      subst hq
      exact absurd ((hsame.mem i).2 hi) hm
    · exact hst

/-- A change of one connection, keeping its id, that keeps its reference and does not bring it
back to life, or that leaves a connection sitting nowhere naming nothing. -/
theorem updateConn (h : s.LinksExcept stale) {f : Connection → Connection}
    (hf : ∀ c, (f c).id = c.id)
    (hc : ∀ c, s.hub.get? conn = some c →
      (f c).room = c.room ∧ ((f c).alive = false → c.alive = false) ∨
      (f c).room = none ∧ ∀ R ∈ s.rooms, conn ∉ R.members) :
    (s.updateConn conn f).LinksExcept stale := by
  have hget : ∀ i, (s.updateConn conn f).hub.get? i =
      (s.hub.get? i).map fun c => if i = conn then f c else c := fun _ => get?_updateConn hf
  refine ⟨h.stopped, fun R hR i hi => ?_, fun i c' rid hc' hrid => ?_, h.unseated,
    fun i c' hc' hd => ?_⟩
  · obtain ⟨hq, c, hc₀, hcr⟩ := h.seated R hR i hi
    refine ⟨hq, if i = conn then f c else c, by rw [hget, hc₀]; rfl, ?_⟩
    split
    · rename_i he
      subst he
      rcases hc c hc₀ with ⟨hr, -⟩ | ⟨-, hno⟩
      · rw [hr]
        exact hcr
      · exact absurd hi (hno R hR)
    · exact hcr
  · rw [hget] at hc'
    obtain ⟨c, hc₀, rfl⟩ := Option.map_eq_some_iff.1 hc'
    split at hrid
    · rename_i he
      subst he
      rcases hc c hc₀ with ⟨hr, -⟩ | ⟨hr, -⟩
      · exact h.refers i c rid hc₀ (hr ▸ hrid)
      · rw [hr] at hrid
        cases hrid
    · exact h.refers i c rid hc₀ hrid
  · rw [hget] at hc'
    obtain ⟨c, hc₀, rfl⟩ := Option.map_eq_some_iff.1 hc'
    by_cases he : i = conn
    · rw [if_pos he] at hd ⊢
      subst he
      rcases hc c hc₀ with ⟨hr, ha⟩ | ⟨hr, -⟩
      · rw [hr]
        exact h.dead i c hc₀ (ha hd)
      · exact hr
    · rw [if_neg he] at hd ⊢
      exact h.dead i c hc₀ hd

/-- Clearing a reference to a room where the connection has no seat. -/
theorem clearRoomRef (h : s.LinksExcept stale)
    (hno : ∀ R, s.room? room = some R → conn ∉ R.members) :
    (s.clearRoomRef conn room).LinksExcept stale := by
  rw [clearRoomRef_eq]
  refine h.updateConn (clearRef_id s room) fun c hc => ?_
  by_cases hm : ∃ R ∈ s.rooms, conn ∈ R.members
  · obtain ⟨R, hR, hi⟩ := hm
    have hcr := h.room_of_mem hR hi hc
    have hq := (h.seated R hR conn hi).1
    have hne : R.id ≠ room := fun he => hno R (he ▸ hq) hi
    rw [clearRef_of_ne hcr hne hq]
    exact .inl ⟨rfl, id⟩
  · push Not at hm
    rcases clearRef_room s room c with hr | ⟨hr, -⟩
    · exact .inr ⟨hr, hm⟩
    · exact .inl ⟨hr, by rw [clearRef_alive]; exact id⟩

/-- A connection leaves a room it sits in: the room is put without its seats and the
connection's reference goes, whatever else happens to the connection. -/
theorem leave (h : s.LinksExcept stale) (hR : s.room? rid = some R) {now : Nat} {st : Seat}
    {R' : Room} (hu : R.unseat conn now = some (st, R')) (hrooms : s'.rooms = (s.putRoom R').rooms)
    (hother : ∀ j, j ≠ conn → s'.hub.get? j = s.hub.get? j)
    (hself : ∀ c', s'.hub.get? conn = some c' → c'.room = none) : s'.LinksExcept stale := by
  obtain ⟨hid, hstop, hconn, hmem⟩ := Room.unseat_members hu
  obtain ⟨hR₀, rfl⟩ := room?_eq_some hR
  have hR' : s.room? R'.id = some R := hid ▸ hR
  have hp := h.putRoom hR' (fun i hi => ((hmem i).1 hi).1) fun hs => by
    have hnil := h.stopped R hR₀ (hstop.symm.trans hs)
    exact List.eq_nil_iff_forall_not_mem.2 fun i hi => by simpa [hnil] using ((hmem i).1 hi).1
  obtain ⟨c, hc, hcr⟩ := (h.seated R hR₀ conn hconn).2
  have hfree : ∀ R₂ ∈ (s.putRoom R').rooms, conn ∉ R₂.members := by
    intro R₂ hR₂ hi
    rcases mem_putRoom hR₂ with rfl | ⟨hR₂, hne⟩
    · exact ((hmem conn).1 hi).2 rfl
    · exact hne (by rw [hid]; exact Option.some.inj ((h.room_of_mem hR₂ hi hc).symm.trans hcr))
  have hq : ∀ j, s'.room? j = (s.putRoom R').room? j := fun j => by simp only [room?, hrooms]
  refine ⟨fun R₂ hR₂ => hp.stopped R₂ (hrooms ▸ hR₂), fun R₂ hR₂ i hi => ?_,
    fun j c' rid hc' hr => ?_, fun j rid hst R₂ hR₂ => ?_, fun j c' hc' hd => ?_⟩
  · have hR₂' : R₂ ∈ (s.putRoom R').rooms := hrooms ▸ hR₂
    have hne : i ≠ conn := fun he => hfree R₂ hR₂' (he ▸ hi)
    rw [hq, hother i hne]
    exact hp.seated R₂ hR₂' i hi
  · by_cases hj : j = conn
    · subst hj
      rw [hself c' hc'] at hr
      cases hr
    · rw [hother j hj] at hc'
      rw [hq]
      rcases hp.refers j c' rid hc' hr with hin | hst | ⟨rfl, hm⟩
      · exact .inl hin
      · exact .inr hst
      · rcases h.refers j c' R'.id hc' hr with ⟨R₃, hR₃, hj'⟩ | hst
        · rw [hR', Option.some.injEq] at hR₃
          subst hR₃
          exact absurd ((hmem j).2 ⟨hj', hj⟩) hm
        · exact .inr hst
  · rw [hq] at hR₂
    exact hp.unseated j rid (.inl hst) R₂ hR₂
  · by_cases hj : j = conn
    · subst hj
      exact hself c' hc'
    · rw [hother j hj] at hc'
      exact h.dead j c' hc' hd

/-- Taking a seat away on the server keeps the agreement. -/
theorem unseat (h : s.LinksExcept stale) (hu : s.unseat rid conn = some (s', ts)) :
    s'.LinksExcept stale := by
  obtain ⟨R, st, R', hR, hRu, rfl, -⟩ := unseat_eq_some hu
  obtain ⟨-, -, hconn, -⟩ := Room.unseat_members hRu
  obtain ⟨hR₀, hid⟩ := room?_eq_some hR
  obtain ⟨c, hc, hcr⟩ := (h.seated R hR₀ conn hconn).2
  have hc₁ : (s.putRoom R').hub.get? conn = some c := hc
  refine h.leave hR hRu rfl (fun j hj => get?_updateConn_of_ne (clearRef_id _ rid) hj)
    fun c' hc' => ?_
  rw [clearRoomRef_eq, get?_updateConn_self (clearRef_id _ rid) hc₁, Option.some.injEq] at hc'
  rw [← hc']
  exact clearRef_of_room (hid ▸ hcr)

theorem perform_deliver (h : s.LinksExcept stale) {msg : ServerMsg} :
    (s.perform (.deliver conn msg)).1.LinksExcept stale := by
  simp only [Server.perform]
  split
  · split
    · exact h
    · split
      · refine h.updateConn ?_ ?_
        · intro c
          rfl
        · intro c _
          exact .inl ⟨rfl, id⟩
      · exact h
  · exact h

/-- Closing a connection kills it and takes its seat away. -/
theorem perform_close (h : s.LinksExcept stale) : (s.perform (.close conn)).1.LinksExcept stale := by
  simp only [Server.perform]
  split
  · rename_i c hc
    split
    · exact h
    · split
      · rename_i rid hr
        rcases hu : (s.updateConn conn fun c =>
            { c with alive := false, room := none, registered := false }).unseat rid conn with
          _ | ⟨s', ts⟩
        · -- the reference finds no seat: the connection sits nowhere
          rw [Option.getD_none]
          refine h.updateConn ?_ ?_
          · intro c
            rfl
          · intro c' hc'
            refine .inr ⟨rfl, h.not_mem hc' fun rid' hr' R hR => ?_⟩
            rw [hc, Option.some.injEq] at hc'
            subst hc'
            rw [hr, Option.some.injEq] at hr'
            subst hr'
            exact unseat_eq_none hu R hR
        · obtain ⟨R, st, R', hR, hRu, rfl, -⟩ := unseat_eq_some hu
          rw [Option.getD_some]
          refine h.leave hR hRu rfl (fun j hj => ?_) fun c' hc' => ?_
          · rw [clearRoomRef_eq, get?_updateConn_of_ne (clearRef_id _ rid) hj]
            exact get?_updateConn_of_ne (fun _ => rfl) hj
          · have hc₁ : ((s.updateConn conn fun c =>
                { c with alive := false, room := none, registered := false }).putRoom R').hub.get?
                conn = some { c with alive := false, room := none, registered := false } :=
              get?_updateConn_self (fun _ => rfl) hc
            rw [clearRoomRef_eq, get?_updateConn_self (clearRef_id _ rid) hc₁,
              Option.some.injEq] at hc'
            rw [← hc', clearRef_of_none rfl]
      · rename_i hr
        refine h.updateConn ?_ ?_
        · intro c
          rfl
        · intro c' hc'
          refine .inr ⟨rfl, h.not_mem hc' fun rid' hr' => ?_⟩
          rw [hc, Option.some.injEq] at hc'
          subst hc'
          rw [hr] at hr'
          cases hr'
  · exact h

theorem perform_plain (h : s.LinksExcept stale) {t : Task} (ht : t.plain = true) :
    (s.perform t).1.LinksExcept stale := by
  cases t with
  | deliver conn msg => exact h.perform_deliver
  | close conn => exact h.perform_close
  | release room conns => cases ht

/-- A worklist with no release keeps the agreement, with the same stale pairs. -/
theorem run_plain (h : s.LinksExcept stale) (hts : ∀ t ∈ ts, t.plain = true) :
    (s.run ts).LinksExcept stale := by
  fun_induction Server.run s ts with
  | case1 s => exact h
  | case2 s t rest _ ih =>
    refine ih (h.perform_plain (hts t List.mem_cons_self)) fun t' ht' => ?_
    rcases List.mem_append.1 ht' with ht' | ht'
    · exact plain_perform s t t' ht'
    · exact hts t' (List.mem_cons_of_mem _ ht')

/-- Clearing the references of stale pairs, one connection after another. -/
theorem release (h : s.LinksExcept stale) {conns : List Uuid} (hst : ∀ i ∈ conns, stale i room) :
    (conns.foldl (fun s c => s.clearRoomRef c room) s).LinksExcept stale := by
  induction conns generalizing s with
  | nil => exact h
  | cons c cs ih =>
    exact ih (h.clearRoomRef (h.unseated c room (hst c List.mem_cons_self)))
      fun i hi => hst i (List.mem_cons_of_mem _ hi)

end LinksExcept

end Server

end Skirmish
