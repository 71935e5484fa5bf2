import Skirmish.Proofs.Server.Links

/-!
# Every reachable state keeps seats and references in agreement

The server takes calls from outside (`Server.Call`): connections are registered, sent to and
closed, rooms are created, swept and shut down, clients' messages are carried out, and the
operations of rooms run directly. Each call keeps `Links`, the agreement of seats and room
references, whatever it does on the way: the closes that overflowing queues cause in the middle
of a broadcast, a connection that died while joining, a room ended while its members are still
being told (`Links.keptByCalls`). Ending a room is the one call that leaves references stale for a
while; it clears them before it is done, so afterwards no connection names the room
(`Links.terminate`), and a room swept or shut down is dropped only then.

What a property of the server needs of each operation to survive every call is said once
(`KeptByCalls`, and `KeptByRequests` for a client's request): given it, the property holds after
every call, and in every state a new server reaches if every new server has it
(`KeptByCalls.reachable`).

In every state a new server reaches, a connection sits in a room exactly when the room is its
current room (`Reachable.seat_iff_currentRoom`).
-/

namespace Skirmish

namespace Server

variable {s s' : Server} {r r₀ R : Room} {i conn rid : Uuid} {c : Connection} {ts : List Task}

theorem plain_map_deliver (conns : List Uuid) (m : ServerMsg) :
    ∀ t ∈ conns.map (Task.deliver · m), t.plain = true := by
  simp [Task.plain]

/-- Ending a room, said once: a stopped or missing room is left as it is; otherwise the room is
put stopped and empty, its members are told the game ended if it was playing, then their
references are cleared, then they are told they left. -/
theorem terminate_cases (s : Server) (y : Uuid) :
    (s.terminate y = s ∧ ∀ r, s.room? y = some r → r.stopped = true) ∨
      ∃ (r r' : Room) (s₂ : Server) (pre : List Task), s.room? y = some r ∧
        s.terminate y = s₂.settle (pre ++ .release y r.members ::
          r.members.map (Task.deliver · (.roomLeft y))) ∧
        s₂.rooms = (s.putRoom r').rooms ∧ s₂.hub = s.hub ∧ r'.id = r.id ∧ r'.members = [] ∧
        ∀ t ∈ pre, t.plain = true := by
  unfold Server.terminate
  split
  · rename_i r hr
    split
    · rename_i hs
      refine .inl ⟨rfl, fun r' hr' => ?_⟩
      rw [hr, Option.some.injEq] at hr'
      exact hr' ▸ hs
    · rename_i hs
      rw [Room.terminate_of_running (by simpa using hs)]
      dsimp only
      split
      · exact .inr ⟨r, _, _, _, hr, rfl, rfl, rfl, rfl, rfl, plain_map_deliver _ _⟩
      · exact .inr ⟨r, _, _, [], hr, rfl, rfl, rfl, rfl, rfl, by simp⟩
  · rename_i hr
    exact .inl ⟨rfl, fun r hr' => absurd hr' (by simp_all)⟩

theorem shrinks_terminate (s : Server) (y : Uuid) : s.Shrinks (s.terminate y) := by
  rcases terminate_cases s y with ⟨he, -⟩ | ⟨r, r', s₂, pre, -, he, -, hhub, -⟩
  · rw [he]
  · rw [he]
    exact (Shrinks.of_hub hhub).trans (shrinks_run s₂ _)

namespace Links

/-- A new server agrees: it has no connections and no rooms. -/
theorem new (capacity maxRooms clock : Nat) (idSeed : UInt64) :
    (Server.new capacity maxRooms clock idSeed).Links where
  stopped R hR := by simp [Server.new] at hR
  seated R hR := by simp [Server.new] at hR
  refers i c rid hc := by simp [Server.new, Hub.new, Hub.get?] at hc
  unseated _ _ h := h.elim
  dead i c hc := by simp [Server.new, Hub.new, Hub.get?] at hc

/-- A reference finds a room the connection sits in. -/
theorem refers_mem (h : s.Links) (hc : s.hub.get? i = some c) (hr : c.room = some rid) :
    ∃ R, s.room? rid = some R ∧ i ∈ R.members :=
  (h.refers i c rid hc hr).resolve_right id

/-- A room no lookup finds is named by no connection. -/
theorem unreferenced_of_none (h : s.Links) (hx : s.room? rid = none) : s.Unreferenced rid :=
  fun i c hc hr => by
    obtain ⟨R, hR, -⟩ := h.refers_mem hc hr
    rw [hx] at hR
    cases hR

/-- A connection without a current room names none. -/
theorem room_eq_none (h : s.Links) (hc : s.hub.get? i = some c) (hcur : s.currentRoom? c = none) :
    c.room = none := by
  cases hr : c.room with
  | none => rfl
  | some rid =>
    obtain ⟨R, hR, -⟩ := h.refers_mem hc hr
    simp [currentRoom?, hr, hR] at hcur

theorem send (h : s.Links) (conn : Uuid) (msg : ServerMsg) : (s.send conn msg).Links :=
  LinksExcept.run_plain h (by simp [Task.plain])

theorem broadcast (h : s.Links) (msg : ServerMsg) (conns : List Uuid) :
    (s.broadcast msg conns).Links :=
  LinksExcept.run_plain h (by simp [Task.plain])

theorem notifyPlayer (h : s.Links) (playerId : Int) (msg : ServerMsg) :
    (s.notifyPlayer playerId msg).Links :=
  h.broadcast msg _

theorem close (h : s.Links) (conn : Uuid) : (s.close conn).Links :=
  LinksExcept.run_plain h (by simp [Task.plain])

theorem closeAll (h : s.Links) : s.closeAll.Links :=
  LinksExcept.run_plain h (by simp [Task.plain])

/-- Registering a connection that names no room. -/
theorem register (h : s.Links) (hr : c.room = none) (ha : c.alive = true)
    (hrooms : s'.rooms = s.rooms) (hhub : s'.hub = s.hub.register c) : s'.Links := by
  have hq : ∀ j, s'.room? j = s.room? j := fun j => by simp only [room?, hrooms]
  have hget : ∀ j, s'.hub.get? j = (s.hub.get? j).or (if c.id = j then some c else none) :=
    fun j => by rw [hhub, Hub.get?_register]
  have hnew : ∀ j c', s'.hub.get? j = some c' → s.hub.get? j = some c' ∨ c' = c := by
    intro j c' hc'
    rw [hget, Option.or_eq_some_iff] at hc'
    rcases hc' with hc' | ⟨-, hc'⟩
    · exact .inl hc'
    · split at hc'
      · exact .inr (Option.some.inj hc').symm
      · cases hc'
  refine ⟨fun R hR => h.stopped R (hrooms ▸ hR), fun R hR j hj => ?_, fun j c' rid hc' hr' => ?_,
    fun _ _ hst => hst.elim, fun j c' hc' hd => ?_⟩
  · obtain ⟨hR', c', hc', hr'⟩ := h.seated R (hrooms ▸ hR) j hj
    rw [hq, hget, hc']
    exact ⟨hR', c', rfl, hr'⟩
  · rcases hnew j c' hc' with hc' | rfl
    · rw [hq]
      exact h.refers j c' rid hc' hr'
    · rw [hr] at hr'
      cases hr'
  · rcases hnew j c' hc' with hc' | rfl
    · exact h.dead j c' hc' hd
    · rw [ha] at hd
      cases hd

theorem connect (h : s.Links) (playerId : Int) : (s.connect playerId).2.Links :=
  h.register rfl rfl rfl rfl

/-- Adding a room with no seats. -/
theorem appendRoom (h : s.Links) (hm : r.members = []) (hrooms : s'.rooms = s.rooms ++ [r])
    (hhub : s'.hub = s.hub) : s'.Links := by
  have hq := room?_append hrooms
  refine ⟨fun R hR hs => ?_, fun R hR i hi => ?_, fun i c rid hc hr => ?_,
    fun _ _ hst => hst.elim, fun i c hc hd => h.dead i c (hhub ▸ hc) hd⟩
  · rcases List.mem_append.1 (hrooms ▸ hR) with hR | hR
    · exact h.stopped R hR hs
    · rw [List.mem_singleton.1 hR, hm]
  · rcases List.mem_append.1 (hrooms ▸ hR) with hR | hR
    · obtain ⟨hR', hc⟩ := h.seated R hR i hi
      rw [hq, hR', hhub]
      exact ⟨rfl, hc⟩
    · rw [List.mem_singleton.1 hR, hm] at hi
      cases hi
  · obtain ⟨R, hR, hi⟩ := h.refers_mem (hhub ▸ hc) hr
    exact .inl ⟨R, by rw [hq, hR]; rfl, hi⟩

theorem createRoom (h : s.Links) (config : RoomConfig) : (s.createRoom config).2.Links := by
  unfold Server.createRoom
  split
  · exact h
  · split
    · exact h
    · exact h.appendRoom rfl rfl rfl

/-- Seating a live connection that sits nowhere in a room that is not stopped. -/
theorem seat (h : s.Links) (hc : s.hub.get? conn = some c) (hfree : c.room = none)
    (ha : c.alive = true) (hR : s.room? r.id = some r₀) (hm : r.members = r₀.members ++ [conn])
    (hs : r.stopped = false) :
    ((s.putRoom r).updateConn conn fun c => { c with room := some r.id }).Links := by
  have hno := h.not_mem hc fun rid hr => by rw [hfree] at hr; cases hr
  obtain ⟨hr₀, hid⟩ := room?_eq_some hR
  have hget : ∀ j, ((s.putRoom r).updateConn conn fun c => { c with room := some r.id }).hub.get?
      j = (s.hub.get? j).map fun c => if j = conn then { c with room := some r.id } else c :=
    fun j => get?_updateConn fun _ => rfl
  refine ⟨fun R hR' hst => ?_, fun R hR' i hi => ?_, fun j c' rid hc' hr' => ?_,
    fun _ _ hst => hst.elim, fun j c' hc' hd => ?_⟩
  · rcases mem_putRoom hR' with rfl | ⟨hR', -⟩
    · rw [hs] at hst
      cases hst
    · exact h.stopped R hR' hst
  · rcases mem_putRoom hR' with rfl | ⟨hR', hne⟩
    · refine ⟨room?_putRoom_self hR, ?_⟩
      rcases List.mem_append.1 (hm ▸ hi) with hi | hi
      · have hij : i ≠ conn := fun he => hno r₀ hr₀ (he ▸ hi)
        obtain ⟨-, c', hc', hcr⟩ := h.seated r₀ hr₀ i hi
        rw [hget, hc']
        exact ⟨c', by simp [hij], hid ▸ hcr⟩
      · rw [List.mem_singleton.1 hi, hget, hc, Option.map_some, if_pos rfl]
        exact ⟨_, rfl, rfl⟩
    · have hij : i ≠ conn := fun he => hno R hR' (he ▸ hi)
      obtain ⟨hq, c', hc', hcr⟩ := h.seated R hR' i hi
      rw [hget, hc']
      exact ⟨(room?_putRoom_of_ne hne).trans hq, c', by simp [hij], hcr⟩
  · rw [hget] at hc'
    obtain ⟨c₀, hc₀, rfl⟩ := Option.map_eq_some_iff.1 hc'
    by_cases hj : j = conn
    · rw [if_pos hj] at hr'
      cases hr'
      exact .inl ⟨r, room?_putRoom_self hR, hm ▸ hj ▸ List.mem_append_right _ (List.mem_singleton_self _)⟩
    · rw [if_neg hj] at hr'
      obtain ⟨R, hq, hi⟩ := h.refers_mem hc₀ hr'
      by_cases hrid : rid = r.id
      · subst hrid
        rw [hR, Option.some.injEq] at hq
        subst hq
        exact .inl ⟨r, room?_putRoom_self hR, hm ▸ List.mem_append_left _ hi⟩
      · exact .inl ⟨R, (room?_putRoom_of_ne hrid).trans hq, hi⟩
  · rw [hget] at hc'
    obtain ⟨c₀, hc₀, rfl⟩ := Option.map_eq_some_iff.1 hc'
    by_cases hj : j = conn
    · rw [if_pos hj] at hd
      rw [hj, hc, Option.some.injEq] at hc₀
      subst hc₀
      rw [ha] at hd
      cases hd
    · rw [if_neg hj] at hd ⊢
      exact h.dead j c₀ hc₀ hd

/-- Joining a room: refused, or the seat is taken and announced; a connection that died
meanwhile is seated and at once unseated again. -/
theorem addPlayer (h : s.Links) (roomId conn : Uuid) (characterId : Nat) :
    (s.addPlayer roomId conn characterId).2.Links := by
  unfold Server.addPlayer
  split
  · rename_i c r hc hr
    split
    · exact h
    · rename_i hfree
      simp only [Bool.or_eq_true, not_or, Bool.not_eq_true, Option.isSome_eq_false_iff,
        Option.isNone_iff_eq_none] at hfree
      split
      · exact h
      · rename_i hadm
        obtain ⟨hr₀, rfl⟩ := room?_eq_some hr
        have hroom := h.room_eq_none hc hfree.1
        have hno := h.not_mem hc fun rid hr => by rw [hroom] at hr; cases hr
        dsimp only
        have hR₁ : (s.putRoom (r.seatPlayer conn c.playerId characterId s.clock).2).room? r.id =
            some (r.seatPlayer conn c.playerId characterId s.clock).2 := room?_putRoom_self hr
        split
        · -- a dead connection is seated and unseated again: the room keeps its members
          rename_i hdead
          split
          · rename_i s₂ ts hu
            obtain ⟨R, st, R', hR, hRu, rfl, -⟩ := unseat_eq_some hu
            rw [room?_updateConn, hR₁, Option.some.injEq] at hR
            subst hR
            obtain ⟨hid', hstop', -, hmem⟩ := Room.unseat_members hRu
            have hsame : r.SameMembers R' := ⟨hid', hstop', fun i => by
              rw [hmem, Room.seatPlayer_members, List.mem_append, List.mem_singleton]
              constructor
              · rintro ⟨hi | rfl, hne⟩
                · exact hi
                · exact absurd rfl hne
              · exact fun hi => ⟨.inl hi, fun he => hno r hr₀ (he ▸ hi)⟩⟩
            refine LinksExcept.run_plain (LinksExcept.congr (h.putRoom_same hr hsame)
              (rooms_putRoom_putRoom hid'.symm) fun j => ?_) (plain_unseat hu)
            rw [clearRoomRef_eq, get?_updateConn (clearRef_id _ _), hub_putRoom,
              get?_updateConn (f := fun c => { c with room := some r.id }) fun _ => rfl]
            simp only [hub_putRoom]
            by_cases hj : j = conn
            · subst hj
              rw [hc]
              simp only [Option.map_some, if_true, Option.some.injEq]
              rw [clearRef_eq_of_room rfl]
              cases c
              simp_all
            · simp [hj]
          · rename_i hu
            exact absurd (Room.seatPlayer_members (r := r) c.playerId characterId ▸
              List.mem_append_right _ (List.mem_singleton_self conn))
              (unseat_eq_none hu _ hR₁)
        · rename_i halive
          refine LinksExcept.run_plain (h.seat hc hroom (by simpa using halive) hr
            (Room.seatPlayer_members _ _) (Room.admits_stopped (r := r) hadm)) fun t ht => ?_
          rcases List.mem_cons.1 ht with rfl | ht
          · rfl
          · exact plain_map_deliver _ _ t ht
  · exact h

theorem removePlayer (h : s.Links) (roomId conn : Uuid) :
    (s.removePlayer roomId conn).2.Links := by
  unfold Server.removePlayer
  split
  · rename_i s' ts hu
    exact LinksExcept.run_plain (LinksExcept.unseat h hu) (plain_unseat hu)
  · exact h

theorem setReady (h : s.Links) (roomId conn : Uuid) (ready : Bool) :
    (s.setReady roomId conn ready).2.Links := by
  unfold Server.setReady
  split
  · rename_i r hr
    split
    · rename_i r' hr'
      obtain ⟨-, rfl⟩ := room?_eq_some hr
      exact h.putRoom_same hr (Room.setReady_sameMembers hr')
    · exact h
  · exact h

theorem handleInput (h : s.Links) (roomId conn : Uuid) (input : PlayerInput) :
    (s.handleInput roomId conn input).2.Links := by
  unfold Server.handleInput
  split
  · rename_i r hr
    split
    · rename_i sp r' hr'
      obtain ⟨-, rfl⟩ := room?_eq_some hr
      exact h.putRoom_same hr (Room.handleInput_sameMembers hr')
    · exact h
  · exact h

theorem step (h : s.Links) {roomId : Uuid} {dt : Float32} {out : TickOutput}
    (hs : s.step roomId dt = .ok (out, s')) : s'.Links := by
  unfold Server.step at hs
  split at hs
  · rename_i r hr
    obtain ⟨⟨out', r'⟩, hr', hs⟩ := Except.bind_eq_ok.1 hs
    obtain ⟨-, rfl⟩ := Prod.mk.inj (Except.pure_eq_ok.1 hs).symm
    obtain ⟨-, rfl⟩ := room?_eq_some hr
    exact h.putRoom_same hr (Room.step_sameMembers hr')
  · obtain ⟨-, rfl⟩ := Prod.mk.inj (Except.pure_eq_ok.1 hs).symm
    exact h

/-- A tick steps the room and tells its members what happened. -/
theorem tick (h : s.Links) {roomId : Uuid} {dt : Float32} (ht : s.tick roomId dt = .ok s') :
    s'.Links := by
  unfold Server.tick at ht
  obtain ⟨⟨out, s₁⟩, hs, ht⟩ := Except.bind_eq_ok.1 ht
  have h₁ := h.step hs
  dsimp only at ht
  split at ht
  · obtain rfl := Except.pure_eq_ok.1 ht
    exact h₁
  · split at ht <;>
    · obtain rfl := Except.pure_eq_ok.1 ht
      refine LinksExcept.congr (s := s₁.settle _) (LinksExcept.run_plain h₁ ?_) rfl fun _ => rfl
      intro t ht
      simp only [List.mem_append] at ht
      rcases ht with (ht | ht) | ht <;>
      · split at ht
        · exact plain_map_deliver _ _ t ht
        · cases ht

/-- Ending a room keeps the agreement, and afterwards no connection names the room. -/
theorem terminate (h : s.Links) (y : Uuid) :
    (s.terminate y).Links ∧ (s.terminate y).Unreferenced y := by
  rcases terminate_cases s y with ⟨he, hst⟩ |
    ⟨r, r', s₂, pre, hr, he, hrooms, hhub, hid, hm, hpre⟩
  · rw [he]
    refine ⟨h, fun i c hc hr => ?_⟩
    obtain ⟨R, hR, hi⟩ := h.refers_mem hc hr
    rw [h.stopped R (room?_eq_some hR).1 (hst R hR)] at hi
    cases hi
  · rw [he]
    obtain ⟨-, rfl⟩ := room?_eq_some hr
    have hR' : s.room? r'.id = some r := by rw [hid]; exact hr
    -- the room is put empty: every reference to it is stale until the release
    have h₂ : s₂.LinksExcept fun _ rid => rid = r.id := by
      have h₁ := h.putRoom hR' (fun i hi => by simp [hm] at hi) fun _ => hm
      refine (h₁.mono (fun i c rid _ _ hst => hst.elim False.elim fun hp => hp.1.trans hid)
        fun i rid hst R hR => ?_).congr hrooms fun i => by rw [hhub]; rfl
      subst hst
      rw [← hid, room?_putRoom_self hR', Option.some.injEq] at hR
      subst hR
      simp [hm]
    rw [settle, run_append, run.eq_2]
    have hun : (r.members.foldl (fun s c => s.clearRoomRef c r.id) (s₂.run pre)).Unreferenced
        r.id := fun i c hc hrr => by
      by_cases hi : i ∈ r.members
      · exact release_clears (s₂.run pre) r.id r.members i hi c hc hrr
      · obtain ⟨c₁, hc₁, hr₁⟩ := ((shrinks_run s₂ pre).trans (shrinks_release _ r.id r.members))
          i c r.id hc hrr
        obtain ⟨R, hR, hiR⟩ := h.refers_mem (hhub ▸ hc₁) hr₁
        rw [hr, Option.some.injEq] at hR
        exact hi (hR ▸ hiR)
    have h₆ : (r.members.foldl (fun s c => s.clearRoomRef c r.id) (s₂.run pre)).Links :=
      ((h₂.run_plain hpre).release fun _ _ => rfl).mono
        (fun i c rid hc hrr hst => hun i c hc (hst ▸ hrr)) fun _ _ hst => hst.elim
    exact ⟨h₆.run_plain (plain_map_deliver _ _), hun.shrinks (shrinks_run _ _)⟩

theorem foldl_terminate (h : s.Links) (ys : List Uuid) :
    (ys.foldl Server.terminate s).Links ∧
      (∀ y ∈ ys, (ys.foldl Server.terminate s).Unreferenced y) ∧
      s.Shrinks (ys.foldl Server.terminate s) := by
  induction ys generalizing s with
  | nil => exact ⟨h, by simp, Shrinks.refl s⟩
  | cons y ys ih =>
    obtain ⟨h₁, hu₁⟩ := h.terminate y
    obtain ⟨hL, hU, hS⟩ := ih h₁
    refine ⟨hL, fun z hz => ?_, (shrinks_terminate s y).trans hS⟩
    rcases List.mem_cons.1 hz with rfl | hz
    · exact hu₁.shrinks hS
    · exact hU z hz

/-- Dropping the rooms of ids that no connection names. -/
theorem filterRooms (h : s.Links) (keep : Uuid → Bool)
    (hun : ∀ x, keep x = false → s.Unreferenced x)
    (hrooms : s'.rooms = s.rooms.filter fun r => keep r.id) (hhub : s'.hub = s.hub) : s'.Links := by
  have hq := room?_filter keep hrooms
  refine ⟨fun R hR => h.stopped R (List.mem_filter.1 (hrooms ▸ hR)).1, fun R hR i hi => ?_,
    fun i c rid hc hr => ?_, fun _ _ hst => hst.elim, fun i c hc => h.dead i c (hhub ▸ hc)⟩
  · obtain ⟨hR, hk⟩ := List.mem_filter.1 (hrooms ▸ hR)
    rw [hq, if_pos hk, hhub]
    exact h.seated R hR i hi
  · rw [hhub] at hc
    cases hk : keep rid with
    | false => exact absurd hr (hun rid hk i c hc)
    | true =>
      rw [hq, if_pos hk]
      exact h.refers i c rid hc hr

theorem sweep (h : s.Links) (now : Nat) : (s.sweep now).2.Links := by
  let due := (s.rooms.filter (·.shouldCleanup now)).map (·.id)
  obtain ⟨hL, hU, -⟩ := h.foldl_terminate due
  exact hL.filterRooms (fun x => !due.contains x) (fun x hx => hU x (by simpa using hx)) rfl rfl

/-- Once every room is ended, no connection names any room. -/
theorem unreferenced_terminate_all (h : s.Links) (x : Uuid) :
    ((s.rooms.map (·.id)).foldl Server.terminate s).Unreferenced x := by
  obtain ⟨-, hU, hS⟩ := h.foldl_terminate (s.rooms.map (·.id))
  by_cases hx : x ∈ s.rooms.map (·.id)
  · exact hU x hx
  · refine (h.unreferenced_of_none (List.find?_eq_none.2 fun R hR he => hx ?_)).shrinks hS
    exact List.mem_map.2 ⟨R, hR, by simpa using he⟩

theorem shutdownAll (h : s.Links) : s.shutdownAll.Links :=
  (h.foldl_terminate (s.rooms.map (·.id))).1.filterRooms (fun _ => false)
    (fun x _ => h.unreferenced_terminate_all x) (by simp [Server.shutdownAll]) rfl

/-- A connection sits in a room exactly when the room is its current room. -/
theorem seat_iff (h : s.Links) (hR : R ∈ s.rooms) :
    (R.seat? i).isSome ↔ (s.hub.get? i).bind s.currentRoom? = some R := by
  rw [Room.seat?_isSome_iff]
  constructor
  · intro hi
    obtain ⟨hq, c, hc, hr⟩ := h.seated R hR i hi
    simp [hc, currentRoom?, hr, hq]
  · intro hcur
    obtain ⟨c, hc, hcur⟩ := Option.bind_eq_some_iff.1 hcur
    obtain ⟨rid, hr, hq⟩ := Option.bind_eq_some_iff.1 hcur
    obtain ⟨R₀, hR₀, hi⟩ := h.refers_mem hc hr
    rw [hq, Option.some.injEq] at hR₀
    exact hR₀ ▸ hi

end Links

/-! ## Calls -/

/-- A call made on the server from outside. -/
inductive Call where
  | connect (playerId : Int)
  | send (conn : Uuid) (msg : ServerMsg)
  | broadcast (msg : ServerMsg) (conns : List Uuid)
  | notifyPlayer (playerId : Int) (msg : ServerMsg)
  | close (conn : Uuid)
  | closeAll
  | createRoom (config : RoomConfig)
  | sweep (now : Nat)
  | shutdownAll
  | dispatch (conn : Uuid) (msg : ClientMsg)
  | addPlayer (roomId conn : Uuid) (characterId : Nat)
  | removePlayer (roomId conn : Uuid)
  | setReady (roomId conn : Uuid) (ready : Bool)
  | handleInput (roomId conn : Uuid) (input : PlayerInput)
  | tick (roomId : Uuid) (dt : Float32)
  | terminate (roomId : Uuid)
  /-- Time passes. -/
  | wait (now : Nat)

/-- Carries out a call. Only a step of play can fail. -/
def call (s : Server) : Call → Checked Server
  | .connect playerId => pure (s.connect playerId).2
  | .send conn msg => pure (s.send conn msg)
  | .broadcast msg conns => pure (s.broadcast msg conns)
  | .notifyPlayer playerId msg => pure (s.notifyPlayer playerId msg)
  | .close conn => pure (s.close conn)
  | .closeAll => pure s.closeAll
  | .createRoom config => pure (s.createRoom config).2
  | .sweep now => pure (s.sweep now).2
  | .shutdownAll => pure s.shutdownAll
  | .dispatch conn msg => pure (s.dispatch conn msg)
  | .addPlayer roomId conn characterId => pure (s.addPlayer roomId conn characterId).2
  | .removePlayer roomId conn => pure (s.removePlayer roomId conn).2
  | .setReady roomId conn ready => pure (s.setReady roomId conn ready).2
  | .handleInput roomId conn input => pure (s.handleInput roomId conn input).2
  | .tick roomId dt => s.tick roomId dt
  | .terminate roomId => pure (s.terminate roomId)
  | .wait now => pure { s with clock := now }

/-- The states a new server reaches by calls, one after another. -/
inductive Reachable : Server → Prop
  | new (capacity maxRooms clock : Nat) (idSeed : UInt64) :
      Reachable (Server.new capacity maxRooms clock idSeed)
  | call {s s' : Server} (c : Call) : Reachable s → s.call c = .ok s' → Reachable s'

/-! ## Properties every call keeps -/

/-- What a property of the server needs of the operations a client's request is made of, to hold
after every request, refused or not: creating a room, seating, unseating, readying and steering,
and a pong. -/
structure KeptByRequests (P : Server → Prop) : Prop where
  createRoom : ∀ {s : Server} (config : RoomConfig), P s → P (s.createRoom config).2
  addPlayer : ∀ {s : Server} (roomId conn : Uuid) (characterId : Nat), P s →
    P (s.addPlayer roomId conn characterId).2
  removePlayer : ∀ {s : Server} (roomId conn : Uuid), P s → P (s.removePlayer roomId conn).2
  setReady : ∀ {s : Server} (roomId conn : Uuid) (ready : Bool), P s →
    P (s.setReady roomId conn ready).2
  handleInput : ∀ {s : Server} (roomId conn : Uuid) (input : PlayerInput), P s →
    P (s.handleInput roomId conn input).2
  pong : ∀ {s : Server} (conn : Uuid) (t : Nat), P s → P (s.send conn (.pong t s.clock))

/-- What a property of the server needs of each operation to hold after every call. -/
structure KeptByCalls (P : Server → Prop) : Prop where
  connect : ∀ {s : Server} (playerId : Int), P s → P (s.connect playerId).2
  send : ∀ {s : Server} (conn : Uuid) (msg : ServerMsg), P s → P (s.send conn msg)
  broadcast : ∀ {s : Server} (msg : ServerMsg) (conns : List Uuid), P s →
    P (s.broadcast msg conns)
  notifyPlayer : ∀ {s : Server} (playerId : Int) (msg : ServerMsg), P s →
    P (s.notifyPlayer playerId msg)
  close : ∀ {s : Server} (conn : Uuid), P s → P (s.close conn)
  closeAll : ∀ {s : Server}, P s → P s.closeAll
  createRoom : ∀ {s : Server} (config : RoomConfig), P s → P (s.createRoom config).2
  sweep : ∀ {s : Server} (now : Nat), P s → P (s.sweep now).2
  shutdownAll : ∀ {s : Server}, P s → P s.shutdownAll
  addPlayer : ∀ {s : Server} (roomId conn : Uuid) (characterId : Nat), P s →
    P (s.addPlayer roomId conn characterId).2
  removePlayer : ∀ {s : Server} (roomId conn : Uuid), P s → P (s.removePlayer roomId conn).2
  setReady : ∀ {s : Server} (roomId conn : Uuid) (ready : Bool), P s →
    P (s.setReady roomId conn ready).2
  handleInput : ∀ {s : Server} (roomId conn : Uuid) (input : PlayerInput), P s →
    P (s.handleInput roomId conn input).2
  tick : ∀ {s s' : Server} {roomId : Uuid} {dt : Float32}, P s → s.tick roomId dt = .ok s' → P s'
  terminate : ∀ {s : Server} (roomId : Uuid), P s → P (s.terminate roomId)
  wait : ∀ {s : Server} (now : Nat), P s → P { s with clock := now }

namespace KeptByRequests

variable {P : Server → Prop}

theorem withRoom {α : Type} (h : P s) (conn : Uuid) {f : Uuid → Except RoomError α × Server}
    (hf : ∀ rid, P (f rid).2) : P (s.withRoom conn f).2 := by
  unfold Server.withRoom
  split
  · exact hf _
  · exact h

/-- A client's request keeps the property, refused or not. -/
theorem handle (hP : KeptByRequests P) (h : P s) (conn : Uuid) (msg : ClientMsg) :
    P (s.handle conn msg).2 := by
  cases msg with
  | joinRoom roomId characterId =>
    simp only [Server.handle]
    split
    · exact hP.addPlayer roomId conn characterId h
    · exact h
  | createRoom c =>
    simp only [Server.handle]
    split
    · exact h
    · have hc := hP.createRoom (CreateRoom.config c) h
      split
      · rename_i roomId s₁ he
        rw [he] at hc
        exact hP.addPlayer roomId conn c.characterId hc
      · rename_i e s₁ he
        rw [he] at hc
        exact hc
  | leaveRoom =>
    simp only [Server.handle]
    split
    · exact hP.removePlayer _ conn h
    · exact h
  | ready => exact withRoom h conn fun rid => hP.setReady rid conn true h
  | unready => exact withRoom h conn fun rid => hP.setReady rid conn false h
  | playerInput input => exact withRoom h conn fun rid => hP.handleInput rid conn input h
  | ping t => exact hP.pong conn t h

/-- A client's message keeps the property when telling a refusal does. -/
theorem dispatch (hP : KeptByRequests P)
    (hrefuse : ∀ {s : Server} (conn : Uuid) (e : RoomError), P s →
      P (s.send conn (.error e.code e.message)))
    (h : P s) (conn : Uuid) (msg : ClientMsg) : P (s.dispatch conn msg) := by
  have hh := hP.handle h conn msg
  unfold Server.dispatch
  split
  · rename_i s' he
    rw [he] at hh
    exact hh
  · rename_i e s' he
    rw [he] at hh
    exact hrefuse conn e hh

end KeptByRequests

namespace KeptByCalls

variable {P : Server → Prop}

/-- A property every call keeps is kept by every request: a pong is a message sent. -/
theorem requests (hP : KeptByCalls P) : KeptByRequests P :=
  ⟨hP.createRoom, hP.addPlayer, hP.removePlayer, hP.setReady, hP.handleInput,
    fun conn _ => hP.send conn _⟩

theorem call (hP : KeptByCalls P) (h : P s) {k : Call} (hc : s.call k = .ok s') : P s' := by
  cases k with
  | tick roomId dt => exact hP.tick h hc
  | connect playerId =>
    obtain rfl := Except.pure_eq_ok.1 hc
    exact hP.connect playerId h
  | send conn msg =>
    obtain rfl := Except.pure_eq_ok.1 hc
    exact hP.send conn msg h
  | broadcast msg conns =>
    obtain rfl := Except.pure_eq_ok.1 hc
    exact hP.broadcast msg conns h
  | notifyPlayer playerId msg =>
    obtain rfl := Except.pure_eq_ok.1 hc
    exact hP.notifyPlayer playerId msg h
  | close conn =>
    obtain rfl := Except.pure_eq_ok.1 hc
    exact hP.close conn h
  | closeAll =>
    obtain rfl := Except.pure_eq_ok.1 hc
    exact hP.closeAll h
  | createRoom config =>
    obtain rfl := Except.pure_eq_ok.1 hc
    exact hP.createRoom config h
  | sweep now =>
    obtain rfl := Except.pure_eq_ok.1 hc
    exact hP.sweep now h
  | shutdownAll =>
    obtain rfl := Except.pure_eq_ok.1 hc
    exact hP.shutdownAll h
  | dispatch conn msg =>
    obtain rfl := Except.pure_eq_ok.1 hc
    exact hP.requests.dispatch (fun conn _ => hP.send conn _) h conn msg
  | addPlayer roomId conn characterId =>
    obtain rfl := Except.pure_eq_ok.1 hc
    exact hP.addPlayer roomId conn characterId h
  | removePlayer roomId conn =>
    obtain rfl := Except.pure_eq_ok.1 hc
    exact hP.removePlayer roomId conn h
  | setReady roomId conn ready =>
    obtain rfl := Except.pure_eq_ok.1 hc
    exact hP.setReady roomId conn ready h
  | handleInput roomId conn input =>
    obtain rfl := Except.pure_eq_ok.1 hc
    exact hP.handleInput roomId conn input h
  | terminate roomId =>
    obtain rfl := Except.pure_eq_ok.1 hc
    exact hP.terminate roomId h
  | wait now =>
    obtain rfl := Except.pure_eq_ok.1 hc
    exact hP.wait now h

/-- A property of every new server that every call keeps holds in every state a server
reaches. -/
theorem reachable (hP : KeptByCalls P)
    (hnew : ∀ capacity maxRooms clock idSeed, P (Server.new capacity maxRooms clock idSeed))
    (h : s.Reachable) : P s := by
  induction h with
  | new capacity maxRooms clock idSeed => exact hnew capacity maxRooms clock idSeed
  | call k _ hc ih => exact hP.call ih hc

end KeptByCalls

/-- Every call keeps the agreement. -/
theorem Links.keptByCalls : KeptByCalls Links where
  connect playerId h := h.connect playerId
  send conn msg h := h.send conn msg
  broadcast msg conns h := h.broadcast msg conns
  notifyPlayer playerId msg h := h.notifyPlayer playerId msg
  close conn h := h.close conn
  closeAll h := h.closeAll
  createRoom config h := h.createRoom config
  sweep now h := h.sweep now
  shutdownAll h := h.shutdownAll
  addPlayer roomId conn characterId h := h.addPlayer roomId conn characterId
  removePlayer roomId conn h := h.removePlayer roomId conn
  setReady roomId conn ready h := h.setReady roomId conn ready
  handleInput roomId conn input h := h.handleInput roomId conn input
  tick h ht := h.tick ht
  terminate roomId h := (h.terminate roomId).1
  wait _ h := h.congr rfl fun _ => rfl

theorem Reachable.links (h : s.Reachable) : s.Links :=
  Links.keptByCalls.reachable Links.new h

/-- In every state a new server reaches by calls, a connection sits in a room exactly when the
room is its current room. So it sits in one room at most, a closed connection sits nowhere,
and no connection's current room is a room that was ended. -/
theorem Reachable.seat_iff_currentRoom (h : s.Reachable) :
    (∀ i, ∀ R ∈ s.rooms, (R.seat? i).isSome ↔ (s.hub.get? i).bind s.currentRoom? = some R) ∧
    (∀ i, ∀ R ∈ s.rooms, ∀ R' ∈ s.rooms, (R.seat? i).isSome → (R'.seat? i).isSome → R = R') ∧
    (∀ i c, s.hub.get? i = some c → c.alive = false → ∀ R ∈ s.rooms, R.seat? i = none) ∧
    ∀ R ∈ s.rooms, R.stopped = true → ∀ i, (s.hub.get? i).bind s.currentRoom? ≠ some R := by
  have hl := h.links
  refine ⟨fun i R hR => hl.seat_iff hR, fun i R hR R' hR' hi hi' => ?_,
    fun i c hc hd R hR => ?_, fun R hR hs i hcur => ?_⟩
  · exact Option.some.inj (((hl.seat_iff hR).1 hi).symm.trans ((hl.seat_iff hR').1 hi'))
  · rw [← Option.not_isSome_iff_eq_none, hl.seat_iff hR, hc]
    simp [currentRoom?, hl.dead i c hc hd]
  · have hi := (hl.seat_iff hR).2 hcur
    rw [Room.seat?_isSome_iff, hl.stopped R hR hs] at hi
    cases hi

/-- A player connects and asks for a new room, which seats it. -/
theorem seat_iff_currentRoom_created :
    let s₀ := Server.new 8 4 0 7
    let s := (s₀.connect 1).2.dispatch (s₀.connect 1).1
      (.createRoom ⟨"arena", .deathMatch, none, none, none, none, none, none, 1⟩)
    s.Reachable ∧
    (∀ i, ∀ R ∈ s.rooms, (R.seat? i).isSome ↔ (s.hub.get? i).bind s.currentRoom? = some R) ∧
    (∀ i, ∀ R ∈ s.rooms, ∀ R' ∈ s.rooms, (R.seat? i).isSome → (R'.seat? i).isSome → R = R') ∧
    (∀ i c, s.hub.get? i = some c → c.alive = false → ∀ R ∈ s.rooms, R.seat? i = none) ∧
    ∀ R ∈ s.rooms, R.stopped = true → ∀ i, (s.hub.get? i).bind s.currentRoom? ≠ some R := by
  intro s₀ s
  have hs : s.Reachable := .call (.dispatch _ _) (.call (.connect 1) (.new 8 4 0 7) rfl) rfl
  exact ⟨hs, Reachable.seat_iff_currentRoom hs⟩

end Server

end Skirmish
