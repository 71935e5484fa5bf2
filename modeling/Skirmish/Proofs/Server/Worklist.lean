import Mathlib
import Skirmish.Server.State

/-!
# Worklists and lookups of the server

The equations of `Server.run` — a worklist runs its first task, then what that task produced,
then the rest, so running two worklists one after the other is running them joined
(`run_append`) — and what the server's changes do to the lookups of a connection and of a room.

A lookup finds the first record with an id. Every change of the server keeps the ids of what it
changes, so a change is seen through the lookup as the same change of the record found
(`Hub.get?_update`, `room?_putRoom`). Clearing a reference is named `clearRef` here, the change
`clearRoomRef` makes.

No task makes a connection name a room it did not name before: tasks only queue messages, kill
connections and clear references. `Shrinks` says so of two states, and it holds along every run
(`shrinks_run`).
-/

namespace Skirmish

namespace Hub

variable {h : Hub} {id i : Uuid} {c : Connection}

theorem get?_eq_some (hc : h.get? i = some c) : c ∈ h.connections ∧ c.id = i :=
  ⟨List.mem_of_find?_eq_some hc, by simpa using List.find?_some hc⟩

/-- A change that keeps ids changes the record a lookup finds, and only the one with the id. -/
theorem get?_update {f : Connection → Connection} (hf : ∀ c, (f c).id = c.id) :
    (h.update id f).get? i = (h.get? i).map fun c => if i = id then f c else c := by
  have hp : ((fun c : Connection => c.id == i) ∘ fun c => if c.id = id then f c else c) =
      fun c => c.id == i := by
    funext c
    by_cases hc : c.id = id <;> simp [hc, hf]
  cases hfind : h.get? i with
  | none =>
    unfold update get? at *
    rw [List.find?_map, hp, hfind]
    rfl
  | some c =>
    have hid := (get?_eq_some hfind).2
    unfold update get? at *
    rw [List.find?_map, hp, hfind]
    simp [hid]

@[simp] theorem capacity_update (f : Connection → Connection) :
    (h.update id f).capacity = h.capacity := rfl

/-- Registering a connection shows it only under an id no earlier connection has. -/
theorem get?_register : (h.register c).get? i = (h.get? i).or (if c.id = i then some c else none) := by
  unfold register get?
  rw [List.find?_append, List.find?_singleton]
  simp

end Hub

namespace Server

variable {s s' : Server} {r R : Room} {i conn room : Uuid} {c : Connection}

/-! ## Running a worklist -/

/-- Running two worklists in turn is running them joined. -/
theorem run_append (s : Server) (a b : List Task) : s.run (a ++ b) = (s.run a).run b := by
  fun_induction Server.run s a with
  | case1 s => rfl
  | case2 s t rest _ ih =>
    rw [List.cons_append, run.eq_2, ← List.append_assoc]
    exact ih

/-! ## Looking up rooms -/

theorem room?_eq_some (h : s.room? i = some R) : R ∈ s.rooms ∧ R.id = i :=
  ⟨List.mem_of_find?_eq_some h, by simpa using List.find?_some h⟩

/-- Putting a room changes the room a lookup finds when it has the same id. -/
theorem room?_putRoom (s : Server) (r : Room) (i : Uuid) :
    (s.putRoom r).room? i = (s.room? i).map fun q => if q.id = r.id then r else q := by
  have hp : ((fun q : Room => q.id == i) ∘ fun q : Room => if q.id = r.id then r else q) =
      fun q => q.id == i := by
    funext q
    by_cases hq : q.id = r.id <;> simp [hq]
  unfold putRoom room?
  rw [List.find?_map, hp]

theorem room?_putRoom_self (h : s.room? r.id = some R) : (s.putRoom r).room? r.id = some r := by
  rw [room?_putRoom, h]
  simp [(room?_eq_some h).2]

theorem room?_putRoom_of_ne (h : i ≠ r.id) : (s.putRoom r).room? i = s.room? i := by
  rw [room?_putRoom]
  cases hq : s.room? i with
  | none => rfl
  | some q =>
    have hid := (room?_eq_some hq).2
    simp only [Option.map_some, Option.some.injEq, ite_eq_right_iff]
    exact fun he => absurd (hid.symm.trans he) h

theorem mem_putRoom (h : R ∈ (s.putRoom r).rooms) : R = r ∨ R ∈ s.rooms ∧ R.id ≠ r.id := by
  obtain ⟨q, hq, rfl⟩ := List.mem_map.1 h
  by_cases he : q.id = r.id
  · exact .inl (if_pos he)
  · exact .inr ⟨by simpa [he] using hq, by simp [he]⟩

/-- A room added at the end is found only under an id no earlier room has. -/
theorem room?_append (hrooms : s'.rooms = s.rooms ++ [r]) (i : Uuid) :
    s'.room? i = (s.room? i).or (if r.id = i then some r else none) := by
  unfold room?
  rw [hrooms, List.find?_append, List.find?_singleton]
  simp

/-- Dropping the rooms of some ids loses exactly their lookups. -/
theorem room?_filter (keep : Uuid → Bool) (hrooms : s'.rooms = s.rooms.filter fun r => keep r.id)
    (i : Uuid) : s'.room? i = if keep i = true then s.room? i else none := by
  unfold room?
  rw [hrooms, List.find?_filter]
  split
  · rename_i hk
    congr 1
    funext q
    by_cases hq : q.id = i
    · simp [hq, hk]
    · simp [hq]
  · rename_i hk
    refine List.find?_eq_none.2 fun q _ hq => hk ?_
    simp only [beq_iff_eq, decide_eq_true_eq] at hq
    exact hq.2 ▸ hq.1

/-- Putting a room twice keeps the second. -/
theorem rooms_putRoom_putRoom {a b : Room} (h : a.id = b.id) :
    ((s.putRoom a).putRoom b).rooms = (s.putRoom b).rooms := by
  unfold putRoom
  simp only [List.map_map]
  refine List.map_congr_left fun q _ => ?_
  by_cases hq : q.id = b.id <;> simp [hq, h]

/-! ## Changing connections -/

@[simp] theorem hub_updateConn (s : Server) (conn : Uuid) (f : Connection → Connection) :
    (s.updateConn conn f).hub = s.hub.update conn f := rfl

@[simp] theorem rooms_updateConn (s : Server) (conn : Uuid) (f : Connection → Connection) :
    (s.updateConn conn f).rooms = s.rooms := rfl

@[simp] theorem room?_updateConn (s : Server) (conn : Uuid) (f : Connection → Connection) :
    (s.updateConn conn f).room? = s.room? := rfl

theorem get?_updateConn {f : Connection → Connection} (hf : ∀ c, (f c).id = c.id) :
    (s.updateConn conn f).hub.get? i = (s.hub.get? i).map fun c => if i = conn then f c else c :=
  Hub.get?_update hf

theorem get?_updateConn_of_ne {f : Connection → Connection} (hf : ∀ c, (f c).id = c.id)
    (h : i ≠ conn) : (s.updateConn conn f).hub.get? i = s.hub.get? i := by
  rw [get?_updateConn hf]
  simp [h]

theorem get?_updateConn_self {f : Connection → Connection} (hf : ∀ c, (f c).id = c.id)
    (hc : s.hub.get? conn = some c) : (s.updateConn conn f).hub.get? conn = some (f c) := by
  rw [get?_updateConn hf, hc]
  simp

/-- A connection as `clearRoomRef` leaves it: its reference goes when it names the room, or a
room that no longer exists. -/
def clearRef (s : Server) (room : Uuid) (c : Connection) : Connection :=
  match c.room with
  | some r => if r = room || (s.room? r).isNone then { c with room := none } else c
  | none => c

theorem clearRoomRef_eq (s : Server) (conn room : Uuid) :
    s.clearRoomRef conn room = s.updateConn conn (s.clearRef room) := rfl

@[simp] theorem clearRef_id (s : Server) (room : Uuid) (c : Connection) :
    (s.clearRef room c).id = c.id := by
  unfold clearRef
  split
  · split <;> rfl
  · rfl

@[simp] theorem clearRef_alive (s : Server) (room : Uuid) (c : Connection) :
    (s.clearRef room c).alive = c.alive := by
  unfold clearRef
  split
  · split <;> rfl
  · rfl

@[simp] theorem clearRef_outbox (s : Server) (room : Uuid) (c : Connection) :
    (s.clearRef room c).outbox = c.outbox := by
  unfold clearRef
  split
  · split <;> rfl
  · rfl

theorem clearRef_eq_of_room (h : c.room = some room) :
    s.clearRef room c = { c with room := none } := by
  simp [clearRef, h]

theorem clearRef_of_room (h : c.room = some room) : (s.clearRef room c).room = none := by
  rw [clearRef_eq_of_room h]

theorem clearRef_of_none (h : c.room = none) : s.clearRef room c = c := by
  simp [clearRef, h]

/-- A reference to another room that still exists stays. -/
theorem clearRef_of_ne {r : Uuid} (h : c.room = some r) (hne : r ≠ room) (hs : s.room? r = some R) :
    s.clearRef room c = c := by
  simp [clearRef, h, hne, hs]

/-- A reference that survives the clearing is the old one. -/
theorem clearRef_room (s : Server) (room : Uuid) (c : Connection) :
    (s.clearRef room c).room = none ∨
      (s.clearRef room c).room = c.room ∧ ∀ r, c.room = some r → r ≠ room ∧ (s.room? r).isSome := by
  unfold clearRef
  split
  · rename_i r hr
    by_cases hc : r = room || (s.room? r).isNone
    · exact .inl (by simp [hc])
    · refine .inr ⟨by simp [hc], fun r' hr' => ?_⟩
      rw [hr] at hr'
      cases hr'
      simp only [Bool.or_eq_true, decide_eq_true_eq, not_or] at hc
      refine ⟨hc.1, ?_⟩
      cases hq : s.room? r with
      | none => simp [hq] at hc
      | some q => rfl
  · exact .inr ⟨rfl, fun r hr => by simp_all⟩

@[simp] theorem rooms_clearRoomRef (s : Server) (conn room : Uuid) :
    (s.clearRoomRef conn room).rooms = s.rooms := rfl

/-! ## References only go away -/

/-- Every reference of `s'` was already one of `s`: no connection names a room it did not
name before. -/
def Shrinks (s s' : Server) : Prop :=
  ∀ i c' rid, s'.hub.get? i = some c' → c'.room = some rid →
    ∃ c, s.hub.get? i = some c ∧ c.room = some rid

@[refl] theorem Shrinks.refl (s : Server) : s.Shrinks s := fun _ c _ hc hr => ⟨c, hc, hr⟩

theorem Shrinks.trans {s₁ s₂ s₃ : Server} (h₁ : s₁.Shrinks s₂) (h₂ : s₂.Shrinks s₃) :
    s₁.Shrinks s₃ := fun i _ rid hc hr =>
  let ⟨_, hc₂, hr₂⟩ := h₂ i _ rid hc hr
  h₁ i _ rid hc₂ hr₂

/-- No connection names the room. -/
def Unreferenced (s : Server) (room : Uuid) : Prop :=
  ∀ i c, s.hub.get? i = some c → c.room ≠ some room

theorem Unreferenced.shrinks (h : s.Unreferenced room) (hs : s.Shrinks s') :
    s'.Unreferenced room := fun i c hc hr =>
  let ⟨c₀, hc₀, hr₀⟩ := hs i c room hc hr
  h i c₀ hc₀ hr₀

theorem Shrinks.of_hub (h : s'.hub = s.hub) : s.Shrinks s' := fun _ c _ hc hr => ⟨c, h ▸ hc, hr⟩

/-- A change of a connection that keeps or clears its reference. -/
theorem shrinks_updateConn {f : Connection → Connection} (hf : ∀ c, (f c).id = c.id)
    (hr : ∀ c, (f c).room = c.room ∨ (f c).room = none) : s.Shrinks (s.updateConn conn f) := by
  intro i c' rid hc hrid
  rw [get?_updateConn hf] at hc
  obtain ⟨c, hc₀, rfl⟩ := Option.map_eq_some_iff.1 hc
  refine ⟨c, hc₀, ?_⟩
  split at hrid
  · rcases hr c with he | he
    · exact he ▸ hrid
    · rw [he] at hrid
      cases hrid
  · exact hrid

theorem shrinks_clearRoomRef (s : Server) (conn room : Uuid) :
    s.Shrinks (s.clearRoomRef conn room) :=
  shrinks_updateConn (clearRef_id s room) fun c => (clearRef_room s room c).elim .inr (.inl ·.1)

theorem shrinks_unseat {ts : List Task} (h : s.unseat room conn = some (s', ts)) : s.Shrinks s' := by
  unfold unseat at h
  simp only [Option.bind_eq_bind, Option.bind_eq_some_iff, Option.pure_def,
    Option.some.injEq] at h
  obtain ⟨r, -, ⟨seat, r'⟩, -, h⟩ := h
  rw [← (Prod.mk.inj h).1]
  exact (Shrinks.of_hub rfl).trans (shrinks_clearRoomRef _ conn room)

theorem shrinks_release (s : Server) (room : Uuid) (conns : List Uuid) :
    s.Shrinks (conns.foldl (fun s c => s.clearRoomRef c room) s) := by
  induction conns generalizing s with
  | nil => exact Shrinks.refl s
  | cons c cs ih => exact (shrinks_clearRoomRef s c room).trans (ih _)

/-- After a release, no released connection names the room. -/
theorem release_clears (s : Server) (room : Uuid) (conns : List Uuid) :
    ∀ i ∈ conns, ∀ c, (conns.foldl (fun s c => s.clearRoomRef c room) s).hub.get? i = some c →
      c.room ≠ some room := by
  induction conns generalizing s with
  | nil => simp
  | cons x xs ih =>
    intro i hi c hc hr
    rcases List.mem_cons.1 hi with rfl | hi
    · -- the reference was cleared at its turn, and later turns add none
      obtain ⟨c₀, hc₀, hr₀⟩ := shrinks_release _ room xs i c room hc hr
      dsimp only at hc₀
      rw [clearRoomRef_eq, get?_updateConn (clearRef_id s room)] at hc₀
      obtain ⟨c₁, -, rfl⟩ := Option.map_eq_some_iff.1 hc₀
      rw [if_pos rfl] at hr₀
      rcases clearRef_room s room c₁ with h₁ | ⟨h₁, h₂⟩
      · rw [h₁] at hr₀
        cases hr₀
      · exact (h₂ room (h₁ ▸ hr₀)).1 rfl
    · exact ih _ i hi c hc hr

/-- No task adds a reference. -/
theorem shrinks_perform (s : Server) (t : Task) : s.Shrinks (s.perform t).1 := by
  cases t with
  | deliver conn msg =>
    simp only [perform]
    split
    · split
      · exact Shrinks.refl s
      · split
        · exact shrinks_updateConn (fun _ => rfl) fun _ => .inl rfl
        · exact Shrinks.refl s
    · exact Shrinks.refl s
  | close conn =>
    simp only [perform]
    split
    · split
      · exact Shrinks.refl s
      · have hkill : s.Shrinks (s.updateConn conn fun c =>
            { c with alive := false, room := none, registered := false }) :=
          shrinks_updateConn (fun _ => rfl) fun _ => .inr rfl
        split
        · rename_i r _
          cases hu : (s.updateConn conn fun c =>
              { c with alive := false, room := none, registered := false }).unseat r conn with
          | none => exact hkill
          | some p => exact hkill.trans (shrinks_unseat hu)
        · exact hkill
    · exact Shrinks.refl s
  | release room conns => exact shrinks_release s room conns

theorem shrinks_run (s : Server) (ts : List Task) : s.Shrinks (s.run ts) := by
  fun_induction Server.run s ts with
  | case1 s => exact Shrinks.refl s
  | case2 s t rest _ ih => exact (shrinks_perform s t).trans ih

end Server

end Skirmish
