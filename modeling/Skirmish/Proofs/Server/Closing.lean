import Skirmish.Proofs.Room.Input
import Skirmish.Proofs.Server.Outbox

/-!
# Ending a room for good

`Server.terminate` ends a room once. The first call stops and ends the room and empties it,
sends every former member the end of the game, if one was playing, and then `room_left`, clears
their references to the room on the way, and reports a game still playing. A later call finds
the room stopped and changes nothing. From then on the room refuses every request: it admits no
one, has no seat to leave, to set ready or to steer, and its steps do nothing. Main statement:
`terminate_ends_room`.

Once the room is emptied its former members sit nowhere, so what the broadcasts do to each of
them is what `Connection.receive` says: a message is queued while the connection is alive and its
queue has room, a full queue closes the connection, and a closed one takes nothing more
(`run_deliveries`). The closes this causes take no seat away and start no more work.
-/

namespace Skirmish

/-- What messages sent one after another do to a connection that sits in no room: each is queued
while the connection is alive and its queue of `cap` messages has room; a full queue closes the
connection, and a closed one takes nothing more. -/
def Connection.receive (cap : Nat) (c : Connection) : List ServerMsg → Connection
  | [] => c
  | m :: ms =>
    if !c.alive then c
    else if c.outbox.length < cap then receive cap { c with outbox := c.outbox ++ [m] } ms
    else { c with alive := false, room := none, registered := false }

namespace Connection

variable {cap : Nat} {c : Connection}

@[simp] theorem receive_nil : c.receive cap [] = c := rfl

theorem receive_of_dead (h : c.alive = false) (ms : List ServerMsg) : c.receive cap ms = c := by
  cases ms with
  | nil => rfl
  | cons m ms => simp [receive, h]

theorem receive_append (ms ms' : List ServerMsg) :
    c.receive cap (ms ++ ms') = (c.receive cap ms).receive cap ms' := by
  induction ms generalizing c with
  | nil => rfl
  | cons m ms ih =>
    cases ha : c.alive
    · simp [receive, ha, receive_of_dead ha]
    · by_cases hlt : c.outbox.length < cap
      · simp [receive, ha, hlt, ih]
      · simp [receive, ha, hlt, receive_of_dead]

/-- Receiving reads only the liveness and the queue, so it commutes with dropping the room
reference. -/
theorem receive_clearRoom (ms : List ServerMsg) :
    { c with room := none }.receive cap ms = { c.receive cap ms with room := none } := by
  induction ms generalizing c with
  | nil => rfl
  | cons m ms ih =>
    cases ha : c.alive
    · simp [receive, ha]
    · by_cases hlt : c.outbox.length < cap
      · simp [receive, ha, hlt, ← ih]
      · simp [receive, ha, hlt]

/-- Receiving keeps the room reference, or drops it with the connection. -/
theorem receive_room (cap : Nat) (c : Connection) (ms : List ServerMsg) :
    (c.receive cap ms).room = c.room ∨ (c.receive cap ms).room = none := by
  induction ms generalizing c with
  | nil => exact .inl rfl
  | cons m ms ih =>
    cases ha : c.alive
    · simp [receive, ha]
    · by_cases hlt : c.outbox.length < cap
      · simpa [receive, ha, hlt] using ih { c with outbox := c.outbox ++ [m] }
      · simp [receive, ha, hlt]

/-- Receiving at once: all the messages fit, or the queue is filled up and the connection
closed. -/
theorem receive_eq (ha : c.alive = true) {ms : List ServerMsg} (hms : ms ≠ []) :
    c.receive cap ms =
      if c.outbox.length + ms.length ≤ cap then { c with outbox := c.outbox ++ ms }
      else
        { c with
          outbox := c.outbox ++ ms.take (cap - c.outbox.length), alive := false, room := none,
          registered := false } := by
  induction ms generalizing c with
  | nil => exact absurd rfl hms
  | cons m ms ih =>
    by_cases hlt : c.outbox.length < cap
    · simp only [receive, ha, Bool.not_true, Bool.false_eq_true, if_false, if_pos hlt]
      by_cases hnil : ms = []
      · subst hnil
        simp [show c.outbox.length + 1 ≤ cap by omega]
      · rw [ih rfl hnil]
        have hcap : cap - c.outbox.length = cap - (c.outbox.length + 1) + 1 := by omega
        by_cases hfit : c.outbox.length + 1 + ms.length ≤ cap
        · simp [hfit, show c.outbox.length + (ms.length + 1) ≤ cap by omega]
        · simp [hfit, show ¬ c.outbox.length + (ms.length + 1) ≤ cap by omega, hcap]
    · have hfull : cap - c.outbox.length = 0 := by omega
      simp [receive, ha, hlt, hfull, show ¬ c.outbox.length + (ms.length + 1) ≤ cap by omega]

end Connection

namespace Room

variable {r : Room} {conn : Uuid}

theorem seat?_of_members_eq_nil (hm : r.members = []) : r.seat? conn = none :=
  Option.not_isSome_iff_eq_none.1 fun h => by simpa [hm] using seat?_isSome_iff.1 h

/-- A stopped room without seats refuses every request, and its steps do nothing. -/
theorem react_of_closed (hs : r.stopped = true) (hm : r.seats = []) (e : Event) :
    r.react e = pure (TickOutput.none, r) := by
  have hseat : ∀ conn, r.seat? conn = none := fun conn => by simp [seat?, hm]
  cases e with
  | join conn pid cid now => simp [react, hseat, admits, hs, throw, throwThe, MonadExceptOf.throw]
  | leave conn now => simp [react, unseat, hseat]
  | ready conn b => simp [react, setReady, hseat, throw, throwThe, MonadExceptOf.throw]
  | input conn i now => simp [react, handleInput_of_unseated (hseat conn)]
  | step dt now => exact step_of_stopped hs dt now
  | terminate now =>
    rw [react, terminate_of_stopped hs]
    rfl

/-- A run of a stopped room without seats leaves it as it is, and every turn says nothing. -/
theorem runEvents_of_closed (hs : r.stopped = true) (hm : r.seats = []) (es : List Event) :
    r.runEvents es = .ok (es.map fun e => ⟨r, e, TickOutput.none, r⟩, r) := by
  induction es with
  | nil => rfl
  | cons e es ih => exact runEvents_cons_eq_ok.2 ⟨_, _, _, react_of_closed hs hm e, ih, rfl⟩

theorem shouldCleanup_of_stopped (hs : r.stopped = true) (now : Nat) :
    r.shouldCleanup now = true := by
  simp [shouldCleanup, hs]

end Room

namespace Server

variable {s s' s₁ : Server} {R : Room} {y j conn : Uuid} {c : Connection} {ts : List Task}

/-! ## Sending to connections that sit nowhere -/

/-- `s'` is `s` after messages were sent to its connections, `msgs i` to connection `i`, as
`Connection.receive` says; the rooms, the reports and the size of the queues are as they were. -/
structure Delivered (s s' : Server) (msgs : Uuid → List ServerMsg) : Prop where
  rooms : s'.rooms = s.rooms
  reports : s'.reports = s.reports
  capacity : s'.hub.capacity = s.hub.capacity
  conn : ∀ i, s'.hub.get? i = (s.hub.get? i).map (·.receive s.hub.capacity (msgs i))

namespace Delivered

theorem refl (s : Server) : s.Delivered s fun _ => [] :=
  ⟨rfl, rfl, rfl, fun i => by simp⟩

theorem trans {f g : Uuid → List ServerMsg} (h₁ : s.Delivered s₁ f) (h₂ : s₁.Delivered s' g) :
    s.Delivered s' fun i => f i ++ g i where
  rooms := h₂.rooms.trans h₁.rooms
  reports := h₂.reports.trans h₁.reports
  capacity := h₂.capacity.trans h₁.capacity
  conn i := by
    rw [h₂.conn, h₁.conn, h₁.capacity, Option.map_map]
    congr 1
    funext c
    exact (Connection.receive_append _ _).symm

theorem room?_eq {msgs : Uuid → List ServerMsg} (h : s.Delivered s' msgs) :
    s'.room? = s.room? := by
  funext i
  simp only [Server.room?, h.rooms]

/-- No change, where the connection `j`, if any, takes `m` without change. -/
theorem self {m : ServerMsg}
    (hj : ∀ c, s.hub.get? j = some c → c.receive s.hub.capacity [m] = c) :
    s.Delivered s fun i => if j = i then [m] else [] where
  rooms := rfl
  reports := rfl
  capacity := rfl
  conn i := by
    by_cases hji : j = i
    · subst hji
      cases hc : s.hub.get? j with
      | none => rfl
      | some c => simp [hj c hc]
    · simp [hji]

/-- A change of the connection `j` alone, where `j` receives `m`. -/
theorem updateConn {f : Connection → Connection} (hf : ∀ c, (f c).id = c.id) {m : ServerMsg}
    (hj : ∀ c, s.hub.get? j = some c → f c = c.receive s.hub.capacity [m]) :
    s.Delivered (s.updateConn j f) fun i => if j = i then [m] else [] where
  rooms := rfl
  reports := rfl
  capacity := rfl
  conn i := by
    rw [get?_updateConn hf]
    by_cases hji : j = i
    · subst hji
      cases hc : s.hub.get? j with
      | none => rfl
      | some c => simp [hj c hc]
    · simp [hji, Ne.symm hji]

end Delivered

/-- A connection sitting in no room has no seat to take away. -/
theorem unseat_eq_none_of_free (h : ∀ R ∈ s.rooms, j ∉ R.members) (rid : Uuid) :
    s.unseat rid j = none := by
  cases hu : s.unseat rid j with
  | none => rfl
  | some p =>
    obtain ⟨R, st, R', hR, hRu, -⟩ := unseat_eq_some hu
    exact absurd (Room.unseat_members hRu).2.2.1 (h R (room?_eq_some hR).1)

/-- The work a message to `j` leaves, per connection: the message for `j`, then the rest. -/
theorem pendingFor_deliver_cons (m : ServerMsg) (ts : List Task) :
    (fun i => Task.pendingFor i (.deliver j m :: ts)) =
      fun i => (if j = i then [m] else []) ++ Task.pendingFor i ts := by
  funext i
  by_cases hji : j = i <;> simp [Task.pendingFor, hji]

/-- A message to a live connection with room in its queue is queued, wherever the connection
sits. -/
theorem run_deliver_queued (hc : s.hub.get? j = some c) (ha : c.alive = true)
    (hlt : c.outbox.length < s.hub.capacity) (m : ServerMsg) (ts : List Task) :
    s.run (.deliver j m :: ts) =
      (s.updateConn j fun c => { c with outbox := c.outbox ++ [m] }).run ts := by
  simp [run.eq_2, perform, hc, ha, hlt]

/-- Queueing a message on a live connection with room is receiving it. -/
theorem delivered_queued (hc : s.hub.get? j = some c) (ha : c.alive = true)
    (hlt : c.outbox.length < s.hub.capacity) (m : ServerMsg) :
    s.Delivered (s.updateConn j fun c => { c with outbox := c.outbox ++ [m] })
      fun i => if j = i then [m] else [] :=
  Delivered.updateConn (by intro c; rfl) fun c' hc' => by
    rw [hc, Option.some.injEq] at hc'
    subst hc'
    simp [Connection.receive, ha, hlt]

/-- One message to a connection that sits in no room is received as `Connection.receive` says;
the close it may cause starts no more work. -/
theorem run_deliver (h : ∀ R ∈ s.rooms, j ∉ R.members) (m : ServerMsg) (ts : List Task) :
    ∃ s₁, s.run (.deliver j m :: ts) = s₁.run ts ∧
      s.Delivered s₁ fun i => if j = i then [m] else [] := by
  cases hc : s.hub.get? j with
  | none =>
    exact ⟨s, by simp [run.eq_2, perform, hc], Delivered.self fun c hc' => by simp [hc] at hc'⟩
  | some c =>
    cases ha : c.alive
    · refine ⟨s, by simp [run.eq_2, perform, hc, ha], Delivered.self fun c' hc' => ?_⟩
      rw [hc, Option.some.injEq] at hc'
      subst hc'
      exact Connection.receive_of_dead ha _
    · by_cases hlt : c.outbox.length < s.hub.capacity
      · exact ⟨_, run_deliver_queued hc ha hlt m ts, delivered_queued hc ha hlt m⟩
      · -- the queue is full: the connection is closed, and it sits nowhere to leave
        refine ⟨s.updateConn j fun c =>
            { c with alive := false, room := none, registered := false }, ?_,
          Delivered.updateConn (by intro c; rfl) fun c' hc' => ?_⟩
        · rw [run.eq_2]
          simp only [perform, hc, ha, hlt, Bool.not_true, Bool.false_eq_true, if_false,
            List.singleton_append]
          rw [run.eq_2]
          simp only [perform, hc, ha, Bool.not_true, Bool.false_eq_true, if_false]
          split
          · rw [unseat_eq_none_of_free (by simpa using h)]
            rfl
          · rfl
        · rw [hc, Option.some.injEq] at hc'
          subst hc'
          simp [Connection.receive, ha, hlt]

/-- Messages sent to connections that sit nowhere reach each one as `Connection.receive` says. -/
theorem run_deliveries
    (hts : ∀ t ∈ ts, ∃ j m, t = .deliver j m ∧ ∀ R ∈ s.rooms, j ∉ R.members) :
    s.Delivered (s.run ts) fun i => Task.pendingFor i ts := by
  induction ts generalizing s with
  | nil => simpa [run] using Delivered.refl s
  | cons t ts ih =>
    obtain ⟨j, m, rfl, hj⟩ := hts _ List.mem_cons_self
    obtain ⟨s₁, hrun, h₁⟩ := run_deliver hj m ts
    have h₂ := ih (s := s₁) fun t ht => by
      obtain ⟨j', m', rfl, hj'⟩ := hts t (List.mem_cons_of_mem _ ht)
      exact ⟨j', m', rfl, h₁.rooms ▸ hj'⟩
    rw [hrun, pendingFor_deliver_cons]
    exact h₁.trans h₂

/-- Messages sent to live connections, each with room in its queue for the whole worklist, are
all queued, wherever the connections sit. -/
theorem run_deliveries_queued
    (hts : ∀ t ∈ ts, ∃ j m, t = .deliver j m ∧ ∃ c, s.hub.get? j = some c ∧ c.alive = true ∧
      c.outbox.length + ts.length ≤ s.hub.capacity) :
    s.Delivered (s.run ts) fun i => Task.pendingFor i ts := by
  induction ts generalizing s with
  | nil => simpa [run] using Delivered.refl s
  | cons t ts ih =>
    obtain ⟨j, m, rfl, c, hc, ha, hfit⟩ := hts _ List.mem_cons_self
    have hlt : c.outbox.length < s.hub.capacity := by simp only [List.length_cons] at hfit; omega
    have h₁ := delivered_queued hc ha hlt m
    -- the room each later target has left shrinks by at most the one message queued here
    have h₂ := ih fun t ht => by
      obtain ⟨j', m', rfl, c', hc', ha', hfit'⟩ := hts t (List.mem_cons_of_mem _ ht)
      rw [List.length_cons] at hfit'
      refine ⟨j', m', rfl, ?_⟩
      rw [h₁.conn, hc', h₁.capacity]
      by_cases hj : j = j'
      · have hlt' : c'.outbox.length < s.hub.capacity := by omega
        refine ⟨_, rfl, by simp [hj, Connection.receive, ha', hlt'], ?_⟩
        simp [hj, Connection.receive, ha', hlt']
        omega
      · exact ⟨c', by simp [hj], ha', by omega⟩
    rw [run_deliver_queued hc ha hlt, pendingFor_deliver_cons]
    exact h₁.trans h₂

/-! ## Clearing references -/

theorem clearRef_clearRef (s : Server) (room : Uuid) (c : Connection) :
    s.clearRef room (s.clearRef room c) = s.clearRef room c := by
  rcases clearRef_room s room c with h | ⟨h, hk⟩
  · exact clearRef_of_none h
  · cases hr : c.room with
    | none => rw [clearRef_of_none hr, clearRef_of_none hr]
    | some r =>
      obtain ⟨hne, hex⟩ := hk r hr
      obtain ⟨R, hR⟩ := Option.isSome_iff_exists.1 hex
      rw [clearRef_of_ne hr hne hR, clearRef_of_ne hr hne hR]

/-- A reference that names the room, or none at all, is gone after the clearing. -/
theorem clearRef_of_room_or_none (h : c.room = some room ∨ c.room = none) :
    s.clearRef room c = { c with room := none } := by
  rcases h with h | h
  · exact clearRef_eq_of_room h
  · rw [clearRef_of_none h]
    cases c
    simp_all

/-- A release clears the references of the connections it names, and changes nothing else. -/
theorem release_eq (s : Server) (room : Uuid) (conns : List Uuid) :
    (conns.foldl (fun s c => s.clearRoomRef c room) s).rooms = s.rooms ∧
    (conns.foldl (fun s c => s.clearRoomRef c room) s).reports = s.reports ∧
    (conns.foldl (fun s c => s.clearRoomRef c room) s).hub.capacity = s.hub.capacity ∧
    ∀ i, (conns.foldl (fun s c => s.clearRoomRef c room) s).hub.get? i =
      (s.hub.get? i).map fun c => if i ∈ conns then s.clearRef room c else c := by
  induction conns generalizing s with
  | nil => simp
  | cons x xs ih =>
    obtain ⟨h₁, h₂, h₃, h₄⟩ := ih (s.clearRoomRef x room)
    refine ⟨h₁, h₂, h₃, fun i => ?_⟩
    rw [List.foldl_cons, h₄, clearRoomRef_eq, get?_updateConn (clearRef_id s room), Option.map_map]
    congr 1
    funext c
    change (if i ∈ xs then s.clearRef room _ else _) = _
    by_cases hix : i = x <;> by_cases hi : i ∈ xs <;> simp [hix, hi, clearRef_clearRef]

/-! ## A room without members -/

/-- No task changes a room that has no members. -/
theorem perform_room?_of_empty (h : s.room? y = some R) (hm : R.members = []) (t : Task) :
    (s.perform t).1.room? y = some R := by
  cases t with
  | deliver conn msg =>
    simp only [perform]
    split
    · split
      · exact h
      · split <;> simpa using h
    · exact h
  | close conn =>
    simp only [perform]
    split
    · split
      · exact h
      · split
        · rename_i rid _
          cases hu : (s.updateConn conn fun c =>
              { c with alive := false, room := none, registered := false }).unseat rid conn with
          | none => simpa using h
          | some p =>
            obtain ⟨s', ts'⟩ := p
            obtain ⟨R₀, st, R', hR₀, hRu, rfl, -⟩ := unseat_eq_some hu
            obtain ⟨hid, -, hmem, -⟩ := Room.unseat_members hRu
            obtain ⟨-, hrid⟩ := room?_eq_some hR₀
            -- the room left is another one: this room has no one to leave
            have hne : y ≠ R'.id := by
              rintro rfl
              rw [← hrid, ← hid, room?_updateConn, h, Option.some.injEq] at hR₀
              rw [← hR₀, hm] at hmem
              cases hmem
            simp only [Option.getD_some]
            rw [clearRoomRef_eq, room?_updateConn, room?_putRoom_of_ne hne, room?_updateConn]
            exact h
        · simpa using h
    · exact h
  | release room conns =>
    simp only [perform, room?, (release_eq s room conns).1]
    exact h

theorem run_room?_of_empty (h : s.room? y = some R) (hm : R.members = []) (ts : List Task) :
    (s.run ts).room? y = some R := by
  fun_induction Server.run s ts with
  | case1 s => exact h
  | case2 s t rest _ ih => exact ih (perform_room?_of_empty h hm t)

/-! ## Ending a room -/

theorem terminate_of_none (hr : s.room? y = none) : s.terminate y = s := by
  unfold Server.terminate
  rw [hr]

theorem terminate_of_stopped (hr : s.room? y = some R) (hs : R.stopped = true) :
    s.terminate y = s := by
  unfold Server.terminate
  rw [hr]
  simp [hs]

/-- Ending a running room leaves it ended and empty in place, whatever its members' queues do. -/
theorem room?_terminate (hr : s.room? y = some R) (hs : R.stopped = false) :
    (s.terminate y).room? y = some (R.terminate s.clock).2 := by
  obtain ⟨s₂, he, hrooms, -, -⟩ := terminate_eq hr hs
  obtain ⟨hid, hm, -, -⟩ : (R.terminate s.clock).2.id = R.id ∧
      (R.terminate s.clock).2.members = [] ∧ _ ∧ _ := Room.terminate_running hs
  obtain ⟨-, rfl⟩ := room?_eq_some hr
  have h₂ : s₂.room? R.id = some (R.terminate s.clock).2 := by
    rw [room?, hrooms, ← hid]
    exact room?_putRoom_self (hid ▸ hr)
  rw [he, settle]
  exact run_room?_of_empty h₂ hm _

/-- Ending a room twice is ending it once. -/
theorem terminate_terminate (s : Server) (y : Uuid) :
    (s.terminate y).terminate y = s.terminate y := by
  cases hr : s.room? y with
  | none => rw [terminate_of_none hr, terminate_of_none hr]
  | some R =>
    cases hs : R.stopped with
    | true => rw [terminate_of_stopped hr hs, terminate_of_stopped hr hs]
    | false => exact terminate_of_stopped (room?_terminate hr hs) (Room.terminate_running hs).2.2.1

/-- Once a running room is put empty, none of its members sits anywhere. -/
theorem Links.free_of_terminate (hl : s.Links) (hR : R ∈ s.rooms) (hs : R.stopped = false)
    (hrooms : s'.rooms = (s.putRoom (R.terminate s.clock).2).rooms) :
    ∀ i ∈ R.members, ∀ R' ∈ s'.rooms, i ∉ R'.members := by
  obtain ⟨hid, hm, -, -⟩ : (R.terminate s.clock).2.id = R.id ∧
      (R.terminate s.clock).2.members = [] ∧ _ ∧ _ := Room.terminate_running hs
  intro i hi R' hR' hi'
  rw [hrooms] at hR'
  rcases mem_putRoom hR' with rfl | ⟨hR', hne⟩
  · rw [hm] at hi'
    cases hi'
  · obtain ⟨-, c, hc, hcr⟩ := hl.seated R hR i hi
    rw [hl.room_of_mem hR' hi' hc, Option.some.injEq] at hcr
    exact hne (hcr.trans hid.symm)

/-- Ending a running room ends and empties it, reports a game still playing, and sends each
former member the end of the game, if any, then `room_left`; no other connection changes. -/
theorem terminate_run (hl : s.Links) (hr : s.room? y = some R) (hs : R.stopped = false)
    (hnd : R.members.Nodup) :
    (s.terminate y).rooms = (s.putRoom (R.terminate s.clock).2).rooms ∧
    (s.terminate y).reports = s.reports ++ ((R.terminate s.clock).1.map (·.2)).toList ∧
    ∀ j, (s.terminate y).hub.get? j =
      if j ∈ R.members then
        (s.hub.get? j).map fun c =>
          { c.receive s.hub.capacity
              (((R.terminate s.clock).1.map (·.1)).toList ++ [.roomLeft y]) with
            room := none }
      else s.hub.get? j := by
  obtain ⟨hR, rfl⟩ := room?_eq_some hr
  obtain ⟨s₂, he, hrooms, hhub, hrep⟩ := terminate_eq hr hs
  have hfree := hl.free_of_terminate hR hs hrooms
  rw [he, settle, run_append, run.eq_2]
  simp only [perform, List.nil_append]
  set ends := ((R.terminate s.clock).1.map (·.1)).toList
  set pre := ends.flatMap fun m => R.members.map (Task.deliver · m)
  set post := R.members.map (Task.deliver · (ServerMsg.roomLeft R.id))
  have h₁ : s₂.Delivered (s₂.run pre) fun i => Task.pendingFor i pre :=
    run_deliveries fun t ht => by
      obtain ⟨m, -, ht⟩ := List.mem_flatMap.1 ht
      obtain ⟨i, hi, rfl⟩ := List.mem_map.1 ht
      exact ⟨i, m, rfl, hfree i hi⟩
  set s₃ := s₂.run pre
  obtain ⟨hr₄, hp₄, hc₄, hg₄⟩ := release_eq s₃ R.id R.members
  set s₄ := R.members.foldl (fun s c => s.clearRoomRef c R.id) s₃
  have h₃ : s₄.Delivered (s₄.run post) fun i => Task.pendingFor i post :=
    run_deliveries fun t ht => by
      obtain ⟨i, hi, rfl⟩ := List.mem_map.1 ht
      exact ⟨i, _, rfl, by rw [hr₄, h₁.rooms]; exact hfree i hi⟩
  refine ⟨by rw [h₃.rooms, hr₄, h₁.rooms, hrooms], by rw [h₃.reports, hp₄, h₁.reports, hrep],
    fun j => ?_⟩
  rw [h₃.conn, hc₄, hg₄, h₁.conn, h₁.capacity, hhub, Task.pendingFor_flatMap_deliver hnd,
    Task.pendingFor_map_deliver]
  by_cases hj : j ∈ R.members
  · have hcount : R.members.count j = 1 := List.count_eq_one_of_mem hnd hj
    cases hc : s.hub.get? j with
    | none => simp
    | some c =>
      have hcr : c.room = some R.id := hl.room_of_mem hR hj hc
      have hclear : ∀ ms, s₃.clearRef R.id (c.receive s.hub.capacity ms) =
          { c.receive s.hub.capacity ms with room := none } := fun ms =>
        clearRef_of_room_or_none ((Connection.receive_room _ c ms).imp_left (·.trans hcr))
      simp [hj, hcount, hclear, Connection.receive_clearRoom, Connection.receive_append]
  · simp [hj, List.count_eq_zero_of_not_mem hj]

/-! ## A closed room on the server -/

/-- A connection's current room is a room it sits in. -/
theorem Links.currentRoom?_isSome_iff (hl : s.Links) (hc : s.hub.get? conn = some c) :
    (s.currentRoom? c).isSome ↔ ∃ R ∈ s.rooms, conn ∈ R.members := by
  constructor
  · intro h
    obtain ⟨R, hR⟩ := Option.isSome_iff_exists.1 h
    obtain ⟨rid, -, hq⟩ := Option.bind_eq_some_iff.1 hR
    have hR' := (room?_eq_some hq).1
    refine ⟨R, hR', Room.seat?_isSome_iff.1 ((hl.seat_iff hR').2 ?_)⟩
    simp [hc, hR]
  · rintro ⟨R, hR, hi⟩
    have h := (hl.seat_iff hR).1 (Room.seat?_isSome_iff.2 hi)
    simp only [hc, Option.bind_some] at h
    simp [h]

section Closed

variable (hR : s.room? y = some R) (hm : R.members = [])
include hR hm

/-- A stopped room admits no one: a connection sitting elsewhere is told so, any other that the
room is closed. -/
theorem addPlayer_of_closed (hs : R.stopped = true) (hc : s.hub.get? conn = some c)
    (cid : Nat) :
    s.addPlayer y conn cid =
      (.error (if (s.currentRoom? c).isSome then .alreadyInRoom else .roomClosed), s) := by
  unfold addPlayer
  rw [hc, hR]
  simp only [Room.seat?_of_members_eq_nil hm, Option.isSome_none, Bool.or_false]
  cases (s.currentRoom? c).isSome <;> simp [Room.admits, hs, throw, throwThe, MonadExceptOf.throw]

theorem removePlayer_of_empty (conn : Uuid) : s.removePlayer y conn = (false, s) := by
  simp [removePlayer, unseat, hR, Room.unseat, Room.seat?_of_members_eq_nil hm]

theorem setReady_of_empty (conn : Uuid) (b : Bool) :
    s.setReady y conn b = (.error .notInRoom, s) := by
  simp [Server.setReady, hR, Room.setReady, Room.seat?_of_members_eq_nil hm, throw, throwThe,
    MonadExceptOf.throw]

theorem handleInput_of_empty (conn : Uuid) (input : PlayerInput) :
    s.handleInput y conn input = (.error .notInRoom, s) := by
  simp [Server.handleInput, hR, Room.handleInput_of_unseated (Room.seat?_of_members_eq_nil hm)]

end Closed

/-! ## Ending a room for good -/

/-- On every orderly server, ending a room twice is ending it once: the first call stops, ends
and empties it and tells each member, and afterwards the room refuses everything. -/
theorem terminate_ends_room (hl : s.Links) (hrs : s.RoomsSound) (hr : s.room? y = some R) :
    (s.terminate y).terminate y = s.terminate y ∧
    (R.stopped = true → s.terminate y = s) ∧
    (R.stopped = false →
      (s.terminate y).room? y = some
        { R with
          stopped := true, status := .ended, seats := [],
          endedAt := if R.status = .ended then R.endedAt else some s.clock } ∧
      (∀ x, x ≠ y → (s.terminate y).room? x = s.room? x) ∧
      (s.terminate y).reports =
        s.reports ++ (if R.status = .playing then [(R.finish .terminated s.clock).2] else []) ∧
      (s.terminate y).Unreferenced y ∧
      (∀ j ∈ R.members, ∃ c, s.hub.get? j = some c ∧ c.alive = true ∧
        let msgs := (if R.status = .playing then
            [ServerMsg.gameEnd y .terminated R.world.scores R.world.tallies R.elapsed] else []) ++
          [.roomLeft y]
        (s.terminate y).hub.get? j = some
          (if c.outbox.length + msgs.length ≤ s.hub.capacity then
            { c with outbox := c.outbox ++ msgs, room := none }
          else
            { c with
              outbox := c.outbox ++ msgs.take (s.hub.capacity - c.outbox.length), alive := false,
              room := none, registered := false })) ∧
      ∀ j, j ∉ R.members → (s.terminate y).hub.get? j = s.hub.get? j) ∧
    ∃ R', (s.terminate y).room? y = some R' ∧ R'.stopped = true ∧ R'.seats = [] ∧
      (∀ conn c cid, (s.terminate y).hub.get? conn = some c →
        (s.terminate y).addPlayer y conn cid =
          (.error (if ∃ R₂ ∈ (s.terminate y).rooms, conn ∈ R₂.members then .alreadyInRoom
            else .roomClosed), s.terminate y)) ∧
      (∀ conn, (s.terminate y).removePlayer y conn = (false, s.terminate y)) ∧
      (∀ conn b, (s.terminate y).setReady y conn b = (.error .notInRoom, s.terminate y)) ∧
      (∀ conn input,
        (s.terminate y).handleInput y conn input = (.error .notInRoom, s.terminate y)) ∧
      (∀ dt now, R'.step dt now = pure (TickOutput.none, R')) ∧
      (∀ now, R'.shouldCleanup now = true) ∧
      ∀ es, R'.runEvents es = .ok (es.map fun e => ⟨R', e, TickOutput.none, R'⟩, R') := by
  obtain ⟨hR, hid⟩ := room?_eq_some hr
  have hl' : (s.terminate y).Links := (hl.terminate y).1
  obtain ⟨R', hR', hst', hm'⟩ : ∃ R', (s.terminate y).room? y = some R' ∧ R'.stopped = true ∧
      R'.members = [] := by
    cases hst : R.stopped with
    | true => exact ⟨R, by rw [terminate_of_stopped hr hst, hr], hst, hl.stopped R hR hst⟩
    | false =>
      obtain ⟨-, hm, hst₁, -⟩ : _ ∧ (R.terminate s.clock).2.members = [] ∧
          (R.terminate s.clock).2.stopped = true ∧ _ := Room.terminate_running hst
      exact ⟨_, room?_terminate hr hst, hst₁, hm⟩
  have hclosed := Room.runEvents_of_closed hst' (List.map_eq_nil_iff.1 hm')
  refine ⟨terminate_terminate s y, terminate_of_stopped hr, fun hst => ?_, R', hR', hst',
    List.map_eq_nil_iff.1 hm', fun conn c cid hc => ?_, removePlayer_of_empty hR' hm',
    setReady_of_empty hR' hm', handleInput_of_empty hR' hm', Room.step_of_stopped hst',
    Room.shouldCleanup_of_stopped hst', fun es => hclosed es⟩
  rotate_left
  · rw [addPlayer_of_closed hR' hm' hst' hc]
    simp only [hl'.currentRoom?_isSome_iff hc]
  subst hid
  obtain ⟨hrooms, hrep, hconn⟩ := terminate_run hl hr hst (hrs.agree R hR).conns
  have hend : R.terminate s.clock = _ := Room.terminate_of_running hst
  have hends : ((R.terminate s.clock).1.map (·.1)).toList = if R.status = .playing then
      [ServerMsg.gameEnd R.id .terminated R.world.scores R.world.tallies R.elapsed] else [] := by
    rw [hend]
    split <;> rfl
  refine ⟨by rw [room?_terminate hr hst, hend], fun x hx => ?_, ?_, (hl.terminate R.id).2,
    fun j hj => ?_, fun j hj => by rw [hconn j, if_neg hj]⟩
  · rw [room?, hrooms, ← room?, room?_putRoom_of_ne (by rw [hend]; exact hx)]
  · rw [hrep, hend]
    split <;> rfl
  · obtain ⟨-, c, hc, hcr⟩ := hl.seated R hR j hj
    have ha : c.alive = true := by
      cases h : c.alive
      · rw [hl.dead j c hc h] at hcr
        cases hcr
      · rfl
    refine ⟨c, hc, ha, ?_⟩
    intro msgs
    rw [hconn j, if_pos hj, hc, Option.map_some, hends]
    change some { c.receive s.hub.capacity msgs with room := none } = _
    rw [Connection.receive_eq ha (by simp [msgs])]
    split_ifs <;> rfl

/-- Two live connections sit in a game in play, each naming its room: ending the room tells both
that the game ended and that they left, releases both seats and reports the result. -/
theorem terminate_ends_room_playing :
    let R₀ := Room.new (RoomConfig.new "arena" .deathMatch) ⟨0⟩ 0 0
    let es : List Room.Event := [.join ⟨1⟩ 7 1 0, .join ⟨2⟩ 8 1 0, .ready ⟨1⟩ true,
      .ready ⟨2⟩ true, .step 0.5 0]
    let hub := ((Hub.new 8).register { Connection.fresh ⟨1⟩ 7 with room := some ⟨0⟩ }).register
      { Connection.fresh ⟨2⟩ 8 with room := some ⟨0⟩ }
    ∃ turns R, R₀.runEvents es = .ok (turns, R) ∧ R.status = .playing ∧ R.stopped = false ∧
      R.members = [⟨1⟩, ⟨2⟩] ∧
    let s : Server := { Server.new 8 4 0 7 with hub, rooms := [R] }
    s.Links ∧ s.RoomsSound ∧ s.room? R.id = some R ∧
    (s.terminate R.id).terminate R.id = s.terminate R.id ∧
    (R.stopped = true → s.terminate R.id = s) ∧
    (R.stopped = false →
      (s.terminate R.id).room? R.id = some
        { R with
          stopped := true, status := .ended, seats := [],
          endedAt := if R.status = .ended then R.endedAt else some s.clock } ∧
      (∀ x, x ≠ R.id → (s.terminate R.id).room? x = s.room? x) ∧
      (s.terminate R.id).reports =
        s.reports ++ (if R.status = .playing then [(R.finish .terminated s.clock).2] else []) ∧
      (s.terminate R.id).Unreferenced R.id ∧
      (∀ j ∈ R.members, ∃ c, s.hub.get? j = some c ∧ c.alive = true ∧
        let msgs := (if R.status = .playing then
            [ServerMsg.gameEnd R.id .terminated R.world.scores R.world.tallies R.elapsed]
            else []) ++ [.roomLeft R.id]
        (s.terminate R.id).hub.get? j = some
          (if c.outbox.length + msgs.length ≤ s.hub.capacity then
            { c with outbox := c.outbox ++ msgs, room := none }
          else
            { c with
              outbox := c.outbox ++ msgs.take (s.hub.capacity - c.outbox.length), alive := false,
              room := none, registered := false })) ∧
      ∀ j, j ∉ R.members → (s.terminate R.id).hub.get? j = s.hub.get? j) ∧
    ∃ R', (s.terminate R.id).room? R.id = some R' ∧ R'.stopped = true ∧ R'.seats = [] ∧
      (∀ conn c cid, (s.terminate R.id).hub.get? conn = some c →
        (s.terminate R.id).addPlayer R.id conn cid =
          (.error (if ∃ R₂ ∈ (s.terminate R.id).rooms, conn ∈ R₂.members then .alreadyInRoom
            else .roomClosed), s.terminate R.id)) ∧
      (∀ conn, (s.terminate R.id).removePlayer R.id conn = (false, s.terminate R.id)) ∧
      (∀ conn b, (s.terminate R.id).setReady R.id conn b = (.error .notInRoom, s.terminate R.id)) ∧
      (∀ conn input, (s.terminate R.id).handleInput R.id conn input =
        (.error .notInRoom, s.terminate R.id)) ∧
      (∀ dt now, R'.step dt now = pure (TickOutput.none, R')) ∧
      (∀ now, R'.shouldCleanup now = true) ∧
      ∀ es, R'.runEvents es = .ok (es.map fun e => ⟨R', e, TickOutput.none, R'⟩, R') := by
  intro R₀ es hub
  obtain ⟨turns, R, h⟩ : ∃ turns R, R₀.runEvents es = .ok (turns, R) :=
    ⟨_, _, by simp only [R₀, es]; rfl⟩
  have hout : (R₀.runEvents es).map (fun x => (x.2.status, x.2.stopped, x.2.members, x.2.id)) =
      .ok (.playing, false, [⟨1⟩, ⟨2⟩], ⟨0⟩) := by
    simp only [R₀, es]; rfl
  rw [h] at hout
  simp only [Except.map, Except.ok.injEq, Prod.mk.injEq] at hout
  obtain ⟨hp, hst, hm, hid⟩ := hout
  refine ⟨turns, R, h, hp, hst, hm, ?_⟩
  intro s
  have hr : s.room? R.id = some R := by simp [s, Server.room?]
  have hget : ∀ i c, s.hub.get? i = some c → c.alive = true ∧ c.room = some R.id ∧ i ∈ R.members := by
    intro i c hc
    have h0 : (Hub.new 8).get? i = none := rfl
    simp only [s, hub, Hub.get?_register, h0, Option.none_or, Connection.fresh] at hc
    rw [hm, hid]
    split_ifs at hc with h1 h2 h2
    · obtain rfl := Option.some.inj hc
      exact ⟨rfl, rfl, h1 ▸ List.mem_cons_self⟩
    · obtain rfl := Option.some.inj hc
      exact ⟨rfl, rfl, h1 ▸ List.mem_cons_self⟩
    · obtain rfl := Option.some.inj hc
      exact ⟨rfl, rfl, h2 ▸ List.mem_pair.2 (.inr rfl)⟩
    · cases hc
  have hl : s.Links := by
    refine ⟨fun R' hR' hs' => ?_, fun R' hR' i hi => ?_, fun i c rid hc hrid => ?_,
      fun _ _ hs' => hs'.elim, fun i c hc hd => ?_⟩
    · rw [List.mem_singleton.1 hR', hst] at hs'
      cases hs'
    · rw [List.mem_singleton.1 hR'] at hi ⊢
      rw [hm] at hi
      refine ⟨hr, ?_⟩
      rcases List.mem_pair.1 hi with rfl | rfl
      · exact ⟨_, rfl, by rw [hid]⟩
      · exact ⟨_, rfl, by rw [hid]⟩
    · obtain ⟨-, hroom, hi⟩ := hget i c hc
      rw [hroom, Option.some.injEq] at hrid
      exact .inl ⟨R, hrid ▸ hr, hi⟩
    · rw [(hget i c hc).1] at hd
      cases hd
  have hrs : s.RoomsSound := ⟨fun R' hR' => List.mem_singleton.1 hR' ▸
      (((Room.Reachable.new _ _ _ _).runEvents h).2.seatsAgree),
    fun R' hR' hs' => by
      rw [List.mem_singleton.1 hR', hst] at hs'
      cases hs'⟩
  exact ⟨hl, hrs, hr, terminate_ends_room hl hrs hr⟩

end Server

end Skirmish
