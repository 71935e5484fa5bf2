import Skirmish.Proofs.Room.Joins
import Skirmish.Proofs.Server.Closing
import Skirmish.Proofs.Server.Delivery

/-!
# Replies to a client's requests

A client's request is carried out or refused (`Server.handle`), and a refusal is told to its
sender as an error message (`Server.dispatch`). Which refusal a request meets is read off the
state before it (`Server.refusal`): a connection in a room can neither join nor create one, a
missing, stopped, started or full room turns a join away, a configuration that fails validation
or a full registry turns a creation away, and leaving, readiness and input need a current room.
A refused request changes nothing but the sender's queue, and a request carried out queues no
error reply anywhere (`Server.NoErrorSent`). A created room is added at the end of the registry
with the settings asked for, defaults filling what the request leaves out. Its creator sits in it
when the connection is live and its queue has room for the reply; otherwise the room stays empty.

Replies go through `Server.send`, which queues on a live connection with room, closes a live
connection whose queue is full, and drops what is sent to a closed one: a closed connection's
requests are carried out like any other, and their replies are lost. Main statement:
`dispatch_replies`.
-/

namespace Skirmish

/-- Whether a message is an error reply. -/
def ServerMsg.isError : ServerMsg → Bool
  | .error _ _ => true
  | _ => false

/-- Whether a task queues no error reply. -/
def Task.errorFree : Task → Bool
  | .deliver _ m => !m.isError
  | _ => true

namespace Server

variable {s s' s₁ : Server} {conn rid : Uuid} {c : Connection} {ts : List Task}

/-! ## Requests carried out queue no error replies -/

/-- Every queue of `s'` is the connection's queue in `s` followed by messages that are no error
replies. -/
def NoErrorSent (s s' : Server) : Prop :=
  ∀ i c', s'.hub.get? i = some c' →
    ∃ c ms, s.hub.get? i = some c ∧ c'.outbox = c.outbox ++ ms ∧ ∀ m ∈ ms, m.isError = false

namespace NoErrorSent

theorem refl (s : Server) : s.NoErrorSent s :=
  fun _ c' hc => ⟨c', [], hc, by simp, by simp⟩

theorem trans (h₁ : s.NoErrorSent s₁) (h₂ : s₁.NoErrorSent s') : s.NoErrorSent s' := by
  intro i c'' hc''
  obtain ⟨c', ms', hc', ho', hm'⟩ := h₂ i c'' hc''
  obtain ⟨c, ms, hc, ho, hm⟩ := h₁ i c' hc'
  refine ⟨c, ms ++ ms', hc, by rw [ho', ho, List.append_assoc], fun m hm'' => ?_⟩
  rcases List.mem_append.1 hm'' with h | h
  · exact hm m h
  · exact hm' m h

theorem of_hub (h : s'.hub = s.hub) : s.NoErrorSent s' :=
  fun _ c' hc => ⟨c', [], h ▸ hc, by simp, by simp⟩

/-- Changing one connection so that its queue takes messages that are no error replies. -/
theorem updateConn {f : Connection → Connection} (hf : ∀ c, (f c).id = c.id)
    (hq : ∀ c, ∃ ms, (f c).outbox = c.outbox ++ ms ∧ ∀ m ∈ ms, m.isError = false) :
    s.NoErrorSent (s.updateConn conn f) := by
  intro i c' hc'
  rw [get?_updateConn hf] at hc'
  obtain ⟨c, hc, rfl⟩ := Option.map_eq_some_iff.1 hc'
  by_cases hi : i = conn
  · obtain ⟨ms, ho, hm⟩ := hq c
    exact ⟨c, ms, hc, by simp [hi, ho], hm⟩
  · exact ⟨c, [], hc, by simp [hi], by simp⟩

theorem updateConn_keep {f : Connection → Connection} (hf : ∀ c, (f c).id = c.id)
    (hq : ∀ c, (f c).outbox = c.outbox) : s.NoErrorSent (s.updateConn conn f) :=
  updateConn hf fun c => ⟨[], by simp [hq], by simp⟩

theorem clearRoomRef (s : Server) (conn room : Uuid) :
    s.NoErrorSent (s.clearRoomRef conn room) := by
  rw [clearRoomRef_eq]
  exact updateConn_keep (clearRef_id s room) (clearRef_outbox s room)

theorem unseat (hu : s.unseat rid conn = some (s', ts)) :
    s.NoErrorSent s' ∧ ∀ t ∈ ts, t.errorFree = true := by
  obtain ⟨R, st, R', -, -, rfl, rfl⟩ := unseat_eq_some hu
  exact ⟨(of_hub rfl).trans (clearRoomRef _ conn rid), by simp [Task.errorFree, ServerMsg.isError]⟩

theorem release (s : Server) (room : Uuid) (conns : List Uuid) :
    s.NoErrorSent (conns.foldl (fun s c => s.clearRoomRef c room) s) := by
  induction conns generalizing s with
  | nil => exact refl s
  | cons x xs ih => exact (clearRoomRef s x room).trans (ih _)

/-- A task queues at most the message it delivers, and the tasks it starts queue no error
replies. -/
theorem perform (s : Server) {t : Task} (ht : t.errorFree = true) :
    s.NoErrorSent (s.perform t).1 ∧ ∀ t' ∈ (s.perform t).2, t'.errorFree = true := by
  cases t with
  | deliver i m =>
    simp only [Server.perform]
    split
    · split
      · exact ⟨refl s, by simp⟩
      · split
        · refine ⟨updateConn (fun _ => rfl) fun _ => ⟨[m], rfl, ?_⟩, by simp⟩
          simpa [Task.errorFree] using ht
        · exact ⟨refl s, by simp [Task.errorFree]⟩
    · exact ⟨refl s, by simp⟩
  | close i =>
    simp only [Server.perform]
    split
    · split
      · exact ⟨refl s, by simp⟩
      · have hk : s.NoErrorSent (s.updateConn i fun c : Connection =>
            { c with alive := false, room := none, registered := false }) :=
          updateConn_keep (fun _ => rfl) fun _ => rfl
        split
        · rename_i r _
          cases hu : (s.updateConn i fun c : Connection =>
              { c with alive := false, room := none, registered := false }).unseat r i with
          | none => exact ⟨hk, by simp⟩
          | some p =>
            obtain ⟨h₁, h₂⟩ := unseat hu
            exact ⟨hk.trans h₁, h₂⟩
        · exact ⟨hk, by simp⟩
    · exact ⟨refl s, by simp⟩
  | release room conns => exact ⟨release s room conns, by simp [Server.perform]⟩

theorem run (hts : ∀ t ∈ ts, t.errorFree = true) : s.NoErrorSent (s.run ts) := by
  fun_induction Server.run s ts with
  | case1 s => exact refl s
  | case2 s t rest _ ih =>
    obtain ⟨h₁, h₂⟩ := perform s (hts t List.mem_cons_self)
    refine h₁.trans (ih fun t' ht' => ?_)
    rcases List.mem_append.1 ht' with h | h
    · exact h₂ t' h
    · exact hts t' (List.mem_cons_of_mem _ h)

theorem addPlayer (s : Server) (roomId conn : Uuid) (cid : Nat) :
    s.NoErrorSent (s.addPlayer roomId conn cid).2 := by
  unfold Server.addPlayer
  split
  · rename_i c r hc hr
    split
    · exact refl s
    · split
      · exact refl s
      · dsimp only
        have hk : s.NoErrorSent ((s.putRoom (r.seatPlayer conn c.playerId cid s.clock).2).updateConn
            conn fun c => { c with room := some roomId }) :=
          (of_hub rfl).trans (updateConn_keep (fun _ => rfl) fun _ => rfl)
        split
        · split
          · rename_i s₂ ts hu
            obtain ⟨h₁, h₂⟩ := unseat hu
            exact hk.trans (h₁.trans (run h₂))
          · exact hk
        · refine hk.trans (run fun t ht => ?_)
          simp only [List.mem_cons, List.mem_map] at ht
          rcases ht with rfl | ⟨x, -, rfl⟩ <;> rfl
  · exact refl s

theorem removePlayer (s : Server) (roomId conn : Uuid) :
    s.NoErrorSent (s.removePlayer roomId conn).2 := by
  unfold Server.removePlayer
  split
  · rename_i s₁ ts hu
    obtain ⟨h₁, h₂⟩ := unseat hu
    exact h₁.trans (run h₂)
  · exact refl s

/-- The operations of a request queue no error reply; a pong is none. -/
theorem keptByRequests (s₀ : Server) : KeptByRequests (NoErrorSent s₀) where
  createRoom config h := h.trans (of_hub (hub_createRoom _ config))
  addPlayer roomId conn characterId h := h.trans (addPlayer _ roomId conn characterId)
  removePlayer roomId conn h := h.trans (removePlayer _ roomId conn)
  setReady roomId conn ready h := h.trans (of_hub (hub_setReady _ roomId conn ready))
  handleInput roomId conn input h := h.trans (of_hub (hub_handleInput _ roomId conn input))
  pong _ _ h := h.trans (run (by simp [Task.errorFree, ServerMsg.isError]))

/-- Carrying out a request queues no error reply: refusals are the outcome of `handle`, and only
`dispatch` tells them. -/
theorem handle (s : Server) (conn : Uuid) (msg : ClientMsg) :
    s.NoErrorSent (s.handle conn msg).2 :=
  (keptByRequests s).handle (refl s) conn msg

end NoErrorSent

/-! ## Sending to a connection -/

/-- A message is queued on a live connection with room for it; a live connection with a full
queue is closed instead, and a closed one is left as it is. -/
theorem send_eq (hc : s.hub.get? conn = some c) (m : ServerMsg) :
    s.send conn m =
      if c.alive then
        if c.outbox.length < s.hub.capacity then
          s.updateConn conn fun c => { c with outbox := c.outbox ++ [m] }
        else s.close conn
      else s := by
  rw [send, settle, run.eq_2]
  cases ha : c.alive
  · simp [perform, hc, ha, run]
  · by_cases hlt : c.outbox.length < s.hub.capacity
    · simp [perform, hc, ha, hlt, run]
    · simp [perform, hc, ha, hlt, close, settle]

/-- A closed connection stays registered, closed, with the queue it had. -/
theorem close_closes (hc : s.hub.get? conn = some c) :
    ∃ c', (s.close conn).hub.get? conn = some c' ∧ c'.outbox = c.outbox ∧ c'.alive = false := by
  have hk : ∃ c', (s.perform (.close conn)).1.hub.get? conn = some c' ∧ c'.outbox = c.outbox ∧
      c'.alive = false := by
    simp only [perform, hc]
    split
    · rename_i hdead
      exact ⟨c, hc, rfl, by simpa using hdead⟩
    · have hk : (s.updateConn conn fun c : Connection =>
          { c with alive := false, room := none, registered := false }).hub.get? conn =
            some { c with alive := false, room := none, registered := false } :=
        get?_updateConn_self (fun _ => rfl) hc
      split
      · rename_i r _
        cases hu : (s.updateConn conn fun c : Connection =>
            { c with alive := false, room := none, registered := false }).unseat r conn with
        | none => exact ⟨_, hk, rfl, rfl⟩
        | some p =>
          obtain ⟨c', hc', ho, ha⟩ := KeepsClosed.unseat hu conn _ hk rfl
          exact ⟨c', hc', ho, ha⟩
      · exact ⟨_, hk, rfl, rfl⟩
  obtain ⟨c', hc', ho, ha⟩ := hk
  obtain ⟨c'', hc'', ho', ha'⟩ := KeepsClosed.run _ _ conn c' hc' ha
  rw [close, settle, run.eq_2]
  exact ⟨c'', hc'', ho'.trans ho, ha'⟩

/-! ## The first player of an empty room -/

/-- What a connection `c` joining the empty room `R` leads to in `s'`: when it is live and its
queue has room for the reply, it is the room's one member and names the room; otherwise the room
is left empty and the connection closed. -/
def FirstJoin (cap : Nat) (c : Connection) (conn : Uuid) (s' : Server) (R : Room) : Prop :=
  (c.alive = true ∧ c.outbox.length < cap ∧ R.members = [conn] ∧
    ∃ c', s'.hub.get? conn = some c' ∧ c'.alive = true ∧ c'.room = some R.id) ∨
  ((c.alive = false ∨ cap ≤ c.outbox.length) ∧ R.members = [] ∧
    ∃ c', s'.hub.get? conn = some c' ∧ c'.alive = false ∧ c'.room = none)

/-- Unseating the one member of a room, whose connection is closed: the room is left empty, the
connection's reference to it goes, and the `room_left` sent to the member is dropped. -/
theorem unseat_alone {R : Room} {st : Seat} (hc : s.hub.get? conn = some c)
    (hdead : c.alive = false) (hcr : c.room = some rid ∨ c.room = none)
    (hr : s.room? rid = some R) (hs : R.seat? conn = some st) (hm : R.members = [conn]) :
    ∃ R' s' ts, s.unseat rid conn = some (s', ts) ∧ s'.run ts = s' ∧
      s'.rooms = (s.putRoom R').rooms ∧ s'.hub.get? conn = some { c with room := none } ∧
      R'.members = [] ∧
      R' = { R with seats := R'.seats, world := R'.world, lastActivity := R'.lastActivity } := by
  obtain ⟨R', hR'⟩ : ∃ R', R' =
      { R with
        seats := R.seats.filter (·.connection != conn),
        world := (R.world.removePlayer st.entityId (R.status != RoomStatus.waiting)).2,
        lastActivity := s.clock } := ⟨_, rfl⟩
  have hu : R.unseat conn s.clock = some (st, R') := Room.unseat_eq_some.2 ⟨hs, hR'⟩
  have hm' : R'.members = [] := by
    obtain ⟨-, -, -, hi⟩ := Room.unseat_members hu
    exact List.eq_nil_iff_forall_not_mem.2 fun i h => by simpa [hm] using (hi i).1 h
  have hc₀ : (s.putRoom R').hub.get? conn = some c := hc
  have hc' : ((s.putRoom R').clearRoomRef conn rid).hub.get? conn =
      some { c with room := none } := by
    rw [clearRoomRef_eq, get?_updateConn_self (clearRef_id _ rid) hc₀, clearRef_of_room_or_none hcr]
  refine ⟨R', (s.putRoom R').clearRoomRef conn rid, [.deliver conn (.roomLeft rid)],
    by simp [Server.unseat, hr, hu, hm'], ?_, rfl, hc', hm', by rw [hR']⟩
  rw [run.eq_2]
  simp [perform, hc', hdead, run]

/-- Closing the one member of a room, whose connection is live: the room is left empty. -/
theorem close_alone {R : Room} {st : Seat} (hc : s.hub.get? conn = some c) (ha : c.alive = true)
    (hcr : c.room = some rid) (hr : s.room? rid = some R) (hs : R.seat? conn = some st)
    (hm : R.members = [conn]) :
    ∃ R', (s.close conn).rooms = (s.putRoom R').rooms ∧
      (s.close conn).hub.get? conn =
        some { c with alive := false, room := none, registered := false } ∧
      R'.members = [] ∧
      R' = { R with seats := R'.seats, world := R'.world, lastActivity := R'.lastActivity } := by
  have hk : (s.updateConn conn fun c : Connection =>
      { c with alive := false, room := none, registered := false }).hub.get? conn =
        some { c with alive := false, room := none, registered := false } :=
    get?_updateConn_self (fun _ => rfl) hc
  obtain ⟨R', s', ts, hu, hrun, hrooms, hget, hm', hR'⟩ := unseat_alone hk rfl (.inr rfl) hr hs hm
  have hclose : s.close conn = s' := by
    rw [close, settle, run.eq_2]
    simp only [perform, hc, ha, hcr, Bool.not_true, Bool.false_eq_true, if_false, hu,
      Option.getD_some, List.append_nil, hrun]
  rw [hclose]
  exact ⟨R', hrooms, hget, hm', hR'⟩

/-- Putting a room over one that was put under the same id. -/
theorem rooms_putRoom_of_rooms {a b : Room} (h : s'.rooms = (s.putRoom a).rooms)
    (hid : a.id = b.id) :
    (s'.putRoom b).rooms = (s.putRoom b).rooms := by
  change s'.rooms.map _ = _
  rw [h]
  exact rooms_putRoom_putRoom hid

/-- The first player of an empty room that admits players gets in: the seat is taken, and the
reply decides whether the player keeps it. -/
theorem addPlayer_first {r : Room} (hc : s.hub.get? conn = some c) (hroom : c.room = none)
    (hr : s.room? rid = some r) (hseats : r.seats = []) (hadm : r.admits = .ok ()) (cid : Nat) :
    (∃ info, (s.addPlayer rid conn cid).1 = .ok info) ∧
    ∃ R, (s.addPlayer rid conn cid).2.rooms = (s.putRoom R).rooms ∧
      R = { r with seats := R.seats, world := R.world, lastActivity := R.lastActivity } ∧
      FirstJoin s.hub.capacity c conn (s.addPlayer rid conn cid).2 R := by
  have hcur : s.currentRoom? c = none := by simp [currentRoom?, hroom]
  have hseat : r.seat? conn = none := by simp [Room.seat?, hseats]
  have hid : r.id = rid := (room?_eq_some hr).2
  have hs₁ : (r.seatPlayer conn c.playerId cid s.clock).2.seat? conn =
      some (r.seatPlayer conn c.playerId cid s.clock).1 :=
    Room.seat?_seatPlayer_self hseat c.playerId cid
  have hm₁ : (r.seatPlayer conn c.playerId cid s.clock).2.members = [conn] := by
    rw [Room.seatPlayer_members, Room.members, hseats]
    rfl
  have hid₁ : (r.seatPlayer conn c.playerId cid s.clock).2.id = rid := by simp [hid]
  have hR₁ : (r.seatPlayer conn c.playerId cid s.clock).2 =
      { r with
        seats := (r.seatPlayer conn c.playerId cid s.clock).2.seats,
        world := (r.seatPlayer conn c.playerId cid s.clock).2.world,
        lastActivity := (r.seatPlayer conn c.playerId cid s.clock).2.lastActivity } := by
    rw [Room.seatPlayer_eq]
  unfold Server.addPlayer
  simp only [hc, hr, hcur, hseat, hadm, Option.isSome_none, Bool.or_self, Bool.false_eq_true,
    if_false, hm₁]
  generalize r.seatPlayer conn c.playerId cid s.clock = p at hs₁ hm₁ hid₁ hR₁ ⊢
  have hc₂ : ((s.putRoom p.2).updateConn conn fun c => { c with room := some rid }).hub.get? conn =
      some { c with room := some rid } := get?_updateConn_self (fun _ => rfl) hc
  have hr₂ : ((s.putRoom p.2).updateConn conn fun c => { c with room := some rid }).room? rid =
      some p.2 := by
    rw [room?_updateConn, ← hid₁]
    exact room?_putRoom_self (by rw [hid₁]; exact hr)
  cases ha : c.alive
  · obtain ⟨R₂, s', ts, hu, hrun, hrooms, hget, hm₂, hR₂⟩ :=
      unseat_alone hc₂ ha (.inl rfl) hr₂ hs₁ hm₁
    simp only [Bool.not_false, if_true, hu]
    refine ⟨⟨_, rfl⟩, R₂, ?_, hR₂.trans (by rw [hR₁]),
      .inr ⟨.inl ha, hm₂, { c with room := none }, ?_, ha, rfl⟩⟩
    · rw [settle, hrun, hrooms]
      exact rooms_putRoom_of_rooms rfl (by rw [hR₂])
    · rw [settle, hrun, hget]
  · have hnil : [conn].filter (· != conn) = [] := by simp
    simp only [Bool.not_true, Bool.false_eq_true, if_false, hnil, List.map_nil]
    rw [show ∀ (t : Server) m, t.settle [.deliver conn m] = t.send conn m from fun _ _ => rfl,
      send_eq hc₂]
    simp only [ha, if_true]
    split_ifs with hlt
    · refine ⟨⟨_, rfl⟩, p.2, rfl, hR₁,
        .inl ⟨ha, hlt, hm₁, _, get?_updateConn_self (fun _ => rfl) hc₂, ha, ?_⟩⟩
      simp [hid₁]
    · obtain ⟨R₂, hrooms, hget, hm₂, hR₂⟩ := close_alone hc₂ ha rfl hr₂ hs₁ hm₁
      refine ⟨⟨_, rfl⟩, R₂, ?_, hR₂.trans (by rw [hR₁]),
        .inr ⟨.inr (Nat.le_of_not_lt hlt), hm₂, _, hget, rfl, rfl⟩⟩
      rw [hrooms]
      exact rooms_putRoom_of_rooms rfl (by rw [hR₂])

/-- A live connection in no room joins a room that admits it, where its own queue and each
member's have room for the messages of the join: it takes the seat and names the room, and it is
told `room_joined` while every member is told `player_joined`. -/
theorem addPlayer_live {r r' : Room} {st : Seat} (hc : s.hub.get? conn = some c)
    (ha : c.alive = true) (hroom : c.room = none) (hr : s.room? rid = some r)
    (hseat : r.seat? conn = none) (hadm : r.admits = .ok ()) {cid : Nat}
    (hp : r.seatPlayer conn c.playerId cid s.clock = (st, r'))
    (hq : ∀ j ∈ conn :: r.members, ∃ c, s.hub.get? j = some c ∧ c.alive = true ∧
      c.outbox.length + r.members.length + 1 ≤ s.hub.capacity) :
    (s.addPlayer rid conn cid).1 = .ok st.info ∧ (s.addPlayer rid conn cid).2.room? rid = some r' ∧
    ((s.putRoom r').updateConn conn fun c => { c with room := some rid }).Delivered
      (s.addPlayer rid conn cid).2 fun i => Task.pendingFor i
        (.deliver conn (.roomJoined r'.summary st.entityId st.team r'.roster) ::
          r.members.map (Task.deliver · (.playerJoined st.info))) := by
  have hcur : s.currentRoom? c = none := by simp [currentRoom?, hroom]
  have hnot : conn ∉ r.members := fun h => by
    simpa [hseat] using Room.seat?_isSome_iff.2 h
  have hothers : r'.members.filter (· != conn) = r.members := by
    have hm : r'.members = r.members ++ [conn] := by
      rw [← Room.seatPlayer_members c.playerId cid, hp]
    rw [hm, List.filter_append, List.filter_eq_self.2 fun j hj => by
      simpa using fun he : j = conn => hnot (he ▸ hj)]
    simp
  have hid : r'.id = rid := by
    rw [show r' = (r.seatPlayer conn c.playerId cid s.clock).2 by rw [hp], Room.seatPlayer_id]
    exact (room?_eq_some hr).2
  obtain ⟨ts, hts⟩ : ∃ ts : List Task,
      ts = .deliver conn (.roomJoined r'.summary st.entityId st.team r'.roster) ::
        r.members.map (Task.deliver · (.playerJoined st.info)) := ⟨_, rfl⟩
  obtain ⟨s₁, hs₁⟩ : ∃ s₁ : Server,
      s₁ = (s.putRoom r').updateConn conn fun c => { c with room := some rid } := ⟨_, rfl⟩
  have hadd : s.addPlayer rid conn cid = (.ok st.info, s₁.settle ts) := by
    rw [hs₁, hts]
    unfold Server.addPlayer
    simp only [hc, hr, hcur, hseat, hadm, hp, ha, hothers, Option.isSome_none, Bool.or_self,
      Bool.false_eq_true, if_false, Bool.not_true]
  rw [hadd, ← hts, ← hs₁]
  -- the joiner is found with its new reference, every member as it was
  have hlen : ts.length = r.members.length + 1 := by simp [hts]
  have hcap : s₁.hub.capacity = s.hub.capacity := by rw [hs₁]; rfl
  have hdel : s₁.Delivered (s₁.settle ts) fun i => Task.pendingFor i ts :=
    run_deliveries_queued fun t ht => by
      rw [hts] at ht
      rw [hlen, hcap]
      rcases List.mem_cons.1 ht with rfl | ht
      · obtain ⟨c₀, hc₀, -, hfit⟩ := hq conn List.mem_cons_self
        rw [hc, Option.some.injEq] at hc₀
        subst hc₀
        have hc₁ : s₁.hub.get? conn = some { c with room := some rid } := by
          rw [hs₁]
          exact get?_updateConn_self (fun _ => rfl) hc
        exact ⟨conn, _, rfl, _, hc₁, ha, by simpa [Nat.add_assoc] using hfit⟩
      · obtain ⟨j, hj, rfl⟩ := List.mem_map.1 ht
        obtain ⟨cj, hcj, haj, hfit⟩ := hq j (List.mem_cons_of_mem _ hj)
        have hne : j ≠ conn := fun he => hnot (he ▸ hj)
        have hcj₁ : s₁.hub.get? j = some cj := by
          rw [hs₁, get?_updateConn_of_ne (by intro c; rfl) hne]
          exact hcj
        exact ⟨j, _, rfl, cj, hcj₁, haj, by simpa [Nat.add_assoc] using hfit⟩
  refine ⟨rfl, ?_, hdel⟩
  rw [hdel.room?_eq, hs₁, room?_updateConn, ← hid]
  exact room?_putRoom_self (hid ▸ hr)

/-! ## Creating a room -/

theorem createRoom_eq_ok {config : RoomConfig} (hv : config.validate = .ok ())
    (hcap : ¬ s.maxRooms ≤ s.rooms.length) :
    ∃ seed ids, s.createRoom config = (.ok s.freshId.1,
      { s with ids := ids, rooms := s.rooms ++ [Room.new config s.freshId.1 seed s.clock] }) := by
  unfold createRoom
  rw [hv]
  simp only [hcap, if_false]
  exact ⟨_, _, rfl⟩

/-- Putting a room that only the last room's id names replaces the last room. -/
theorem putRoom_append {rs : List Room} {a b : Room} (h : s.rooms = rs ++ [a]) (hid : a.id = b.id)
    (hfresh : b.id ∉ rs.map (·.id)) : (s.putRoom b).rooms = rs ++ [b] := by
  simp only [putRoom, h, List.map_append, List.map_cons, List.map_nil, hid, if_true]
  congr 1
  conv_rhs => rw [← List.map_id rs]
  exact List.map_congr_left fun q hq => if_neg fun he => hfresh (List.mem_map.2 ⟨q, hq, he⟩)

theorem new_admits (config : RoomConfig) (id : Uuid) (seed : UInt64) (now : Nat) :
    (Room.new config id seed now).admits = .ok () := by
  simp [Room.admits, Room.new]

/-- Creating a room for a connection in none: the room is added at the end of the registry with
the configuration asked for, and its creator joins it. -/
theorem handle_createRoom {cr : CreateRoom} (hl : s.Links) (hc : s.hub.get? conn = some c)
    (hcur : s.currentRoom? c = none) (hfresh : s.freshId.1 ∉ s.rooms.map (·.id))
    (hv : (CreateRoom.config cr).validate = .ok ()) (hcap : ¬ s.maxRooms ≤ s.rooms.length) :
    (s.handle conn (.createRoom cr)).1 = .ok () ∧
    ∃ seed R, (s.handle conn (.createRoom cr)).2.rooms = s.rooms ++ [R] ∧
      R = { Room.new (CreateRoom.config cr) s.freshId.1 seed s.clock with
            seats := R.seats, world := R.world, lastActivity := R.lastActivity } ∧
      FirstJoin s.hub.capacity c conn (s.handle conn (.createRoom cr)).2 R := by
  obtain ⟨seed, ids, hcr⟩ := createRoom_eq_ok hv hcap
  obtain ⟨Rn, hRn⟩ : ∃ Rn, Rn = Room.new (CreateRoom.config cr) s.freshId.1 seed s.clock :=
    ⟨_, rfl⟩
  obtain ⟨s₁, hs₁⟩ : ∃ s₁ : Server, s₁ = { s with ids := ids, rooms := s.rooms ++ [Rn] } :=
    ⟨_, rfl⟩
  rw [← hRn, ← hs₁] at hcr
  have hnone : s.room? s.freshId.1 = none :=
    List.find?_eq_none.2 fun q hq he => hfresh (List.mem_map.2 ⟨q, hq, by simpa using he⟩)
  have hrooms₁ : s₁.rooms = s.rooms ++ [Rn] := by rw [hs₁]
  have hr₁ : s₁.room? s.freshId.1 = some Rn := by
    rw [room?_append hrooms₁, hnone]
    simp [hRn, Room.new]
  have hc₁ : s₁.hub.get? conn = some c := by rw [hs₁]; exact hc
  obtain ⟨⟨info, hinfo⟩, R, hrooms, hR, hjoin⟩ := addPlayer_first hc₁ (hl.room_eq_none hc hcur) hr₁
    (by simp [hRn, Room.new]) (hRn ▸ new_admits _ _ _ _) cr.characterId
  have hhandle : s.handle conn (.createRoom cr) =
      ((s₁.addPlayer s.freshId.1 conn cr.characterId).1.map fun _ => (),
       (s₁.addPlayer s.freshId.1 conn cr.characterId).2) := by
    simp only [handle, hc, Option.bind_some, hcur, Option.isSome_none, Bool.false_eq_true, if_false,
      hcr]
  have hcap₁ : s₁.hub.capacity = s.hub.capacity := by rw [hs₁]
  rw [hhandle, hinfo, ← hcap₁]
  have hid : Rn.id = R.id := by rw [hR, hRn]
  refine ⟨rfl, seed, R, ?_, by rw [← hRn]; exact hR, hjoin⟩
  rw [hrooms]
  exact putRoom_append hrooms₁ hid (by rw [← hid, hRn]; exact hfresh)

/-! ## The refusal a request meets -/

/-- The refusal that a request of the connection `c` meets in `s`, if any: the checks of each
request in the order they are made. -/
def refusal (s : Server) (c : Connection) : ClientMsg → Option RoomError
  | .joinRoom roomId _ =>
    match s.room? roomId with
    | none => some .notFound
    | some r =>
      if (s.currentRoom? c).isSome then some .alreadyInRoom
      else if r.stopped || r.status != .waiting then some .roomClosed
      else if r.maxPlayers ≤ r.seats.length then some .roomFull
      else none
  | .createRoom request =>
    if (s.currentRoom? c).isSome then some .alreadyInRoom
    else
      match (CreateRoom.config request).validate with
      | .error e => some e
      | .ok () => if s.maxRooms ≤ s.rooms.length then some .capacityReached else none
  | .leaveRoom | .ready | .unready | .playerInput _ =>
    if (s.currentRoom? c).isSome then none else some .notInRoom
  | .ping _ => none

/-- A connection's current room holds its seat. -/
theorem Links.seated_of_currentRoom? {R : Room} (hl : s.Links) (hc : s.hub.get? conn = some c)
    (hcur : s.currentRoom? c = some R) : s.room? R.id = some R ∧ (R.seat? conn).isSome := by
  obtain ⟨rid, -, hR⟩ := Option.bind_eq_some_iff.1 hcur
  obtain ⟨hmem, hid⟩ := room?_eq_some hR
  refine ⟨hid ▸ hR, (hl.seat_iff hmem).2 ?_⟩
  rw [hc, Option.bind_some]
  exact hcur

/-- A connection seated somewhere has a current room. -/
theorem Links.currentRoom?_of_seat {R : Room} (hl : s.Links) (hc : s.hub.get? conn = some c)
    (hR : R ∈ s.rooms) (hs : (R.seat? conn).isSome) : s.currentRoom? c = some R := by
  have h := (hl.seat_iff hR).1 hs
  rwa [hc, Option.bind_some] at h

theorem removePlayer_of_seated {R : Room} (hr : s.room? rid = some R) (hs : (R.seat? conn).isSome) :
    (s.removePlayer rid conn).1 = true := by
  obtain ⟨st, hst⟩ := Option.isSome_iff_exists.1 hs
  have hu : R.unseat conn s.clock = some (st, _) := Room.unseat_eq_some.2 ⟨hst, rfl⟩
  simp [removePlayer, unseat, hr, hu]

theorem setReady_of_seated {R : Room} (hr : s.room? rid = some R) (hs : (R.seat? conn).isSome)
    (b : Bool) : (s.setReady rid conn b).1 = .ok () := by
  have hok : R.setReady conn b = .ok _ := Room.setReady_eq_ok.2 ⟨hs, rfl⟩
  simp [setReady, hr, hok]

theorem handleInput_of_seated {R : Room} (hr : s.room? rid = some R) (hs : (R.seat? conn).isSome)
    (input : PlayerInput) : ∃ sp, (s.handleInput rid conn input).1 = .ok sp := by
  obtain ⟨st, hst⟩ := Option.isSome_iff_exists.1 hs
  obtain ⟨sp, R', hok⟩ : ∃ sp R', R.handleInput conn input s.clock = .ok (sp, R') :=
    Room.handleInput_ok_of_seated hst
  exact ⟨sp, by simp [handleInput, hr, hok]⟩

/-- A connection seated in a room has a current room, so the first check of a join needs only the
current room. -/
theorem Links.joined_or_seated {r : Room} (hl : s.Links) (hc : s.hub.get? conn = some c)
    (hr : s.room? rid = some r) :
    ((s.currentRoom? c).isSome || (r.seat? conn).isSome) = (s.currentRoom? c).isSome := by
  cases hs : (r.seat? conn).isSome
  · simp
  · simp [hl.currentRoom?_of_seat hc (room?_eq_some hr).1 hs]

/-- A request is refused exactly with its refusal. -/
theorem handle_fst (hl : s.Links) (hc : s.hub.get? conn = some c)
    (hfresh : s.freshId.1 ∉ s.rooms.map (·.id)) (msg : ClientMsg) :
    (s.handle conn msg).1 = (s.refusal c msg).elim (.ok ()) .error := by
  cases msg with
  | joinRoom roomId cid =>
    cases hr : s.room? roomId with
    | none => simp [handle, refusal, hr]
    | some r =>
      simp only [handle, refusal, hr, addPlayer_fst hc hr, hl.joined_or_seated hc hr]
      split_ifs <;> rfl
  | createRoom cr =>
    by_cases hcur : (s.currentRoom? c).isSome
    · simp [handle, refusal, hc, hcur]
    · have hnone := Option.not_isSome_iff_eq_none.1 hcur
      cases hv : (CreateRoom.config cr).validate with
      | error e => simp [handle, refusal, hc, hnone, createRoom, hv]
      | ok u =>
        by_cases hcap : s.maxRooms ≤ s.rooms.length
        · simp [handle, refusal, hc, hnone, createRoom, hv, hcap]
        · rw [(handle_createRoom hl hc hnone hfresh hv hcap).1]
          simp [refusal, hnone, hv, hcap]
  | leaveRoom =>
    cases hcur : s.currentRoom? c with
    | none => simp [handle, refusal, hc, hcur]
    | some R =>
      obtain ⟨hr, hs⟩ := hl.seated_of_currentRoom? hc hcur
      simp [handle, refusal, hc, hcur, removePlayer_of_seated hr hs]
  | ready | unready =>
    cases hcur : s.currentRoom? c with
    | none => simp [handle, withRoom, refusal, hc, hcur]
    | some R =>
      obtain ⟨hr, hs⟩ := hl.seated_of_currentRoom? hc hcur
      simp [handle, withRoom, refusal, hc, hcur, setReady_of_seated hr hs]
  | playerInput input =>
    cases hcur : s.currentRoom? c with
    | none => simp [handle, withRoom, refusal, hc, hcur]
    | some R =>
      obtain ⟨hr, hs⟩ := hl.seated_of_currentRoom? hc hcur
      obtain ⟨sp, hsp⟩ := handleInput_of_seated hr hs input
      simp [handle, withRoom, refusal, hc, hcur, hsp, Except.map]
  | ping t => rfl

/-- A refused request changes nothing. -/
theorem handle_snd_of_refusal (hl : s.Links) (hc : s.hub.get? conn = some c) {msg : ClientMsg}
    {e : RoomError} (h : s.refusal c msg = some e) : (s.handle conn msg).2 = s := by
  cases msg with
  | joinRoom roomId cid =>
    cases hr : s.room? roomId with
    | none => simp [handle, hr]
    | some r =>
      have he : (s.addPlayer roomId conn cid).1 = .error e := by
        simp only [refusal, hr] at h
        rw [addPlayer_fst hc hr, hl.joined_or_seated hc hr]
        split_ifs at h ⊢ <;> cases h <;> rfl
      simp only [handle, hr]
      exact addPlayer_error he
  | createRoom cr =>
    by_cases hcur : (s.currentRoom? c).isSome
    · simp [handle, hc, hcur]
    · have hnone := Option.not_isSome_iff_eq_none.1 hcur
      cases hv : (CreateRoom.config cr).validate with
      | error e => simp [handle, hc, hnone, createRoom, hv]
      | ok u =>
        by_cases hcap : s.maxRooms ≤ s.rooms.length
        · simp [handle, hc, hnone, createRoom, hv, hcap]
        · simp [refusal, hnone, hv, hcap] at h
  | leaveRoom | ready | unready | playerInput _ =>
    have hnone : s.currentRoom? c = none := by
      cases hcur : s.currentRoom? c with
      | none => rfl
      | some R => simp [refusal, hcur] at h
    simp [handle, withRoom, hc, hnone]
  | ping t => cases h

/-! ## Replies -/

theorem dispatch_of_ok {msg : ClientMsg} (h : (s.handle conn msg).1 = .ok ()) :
    s.dispatch conn msg = (s.handle conn msg).2 := by
  unfold dispatch
  rcases hh : s.handle conn msg with ⟨v, s'⟩
  rw [hh] at h
  cases h
  rfl

/-- Sends queue, close or drop by the connection's state; a refused request gets one error reply
and changes nothing else; a created room is added with its settings; a ping gets its pong. -/
theorem dispatch_replies (hl : s.Links) (hc : s.hub.get? conn = some c)
    (hfresh : s.freshId.1 ∉ s.rooms.map (·.id)) (msg : ClientMsg) :
    (∀ m, s.send conn m =
      if c.alive then
        if c.outbox.length < s.hub.capacity then
          s.updateConn conn fun c => { c with outbox := c.outbox ++ [m] }
        else s.close conn
      else s) ∧
    (∃ c', (s.close conn).hub.get? conn = some c' ∧ c'.outbox = c.outbox ∧ c'.alive = false) ∧
    (∀ e, s.refusal c msg = some e → (s.handle conn msg).1 = .error e ∧
      s.dispatch conn msg = s.send conn (.error e.code e.message)) ∧
    (s.refusal c msg = none → (s.handle conn msg).1 = .ok () ∧
      s.dispatch conn msg = (s.handle conn msg).2 ∧ s.NoErrorSent (s.dispatch conn msg)) ∧
    (∀ cr, msg = .createRoom cr → s.refusal c msg = none →
      ∃ R, (s.dispatch conn msg).rooms = s.rooms ++ [R] ∧ R.id = s.freshId.1 ∧
        R.name = cr.name ∧ R.mode = cr.mode ∧
        R.maxPlayers = max (cr.maxPlayers.getD cr.mode.requiredPlayers) 1 ∧
        R.mapId = cr.mapId.getD 1 ∧
        R.rules = ⟨cr.timeLimitSecs.getD 300, cr.scoreLimit.getD 20, cr.friendlyFire.getD false,
          cr.isPrivate.getD false⟩ ∧
        FirstJoin s.hub.capacity c conn (s.dispatch conn msg) R) ∧
    ∀ t, msg = .ping t → s.dispatch conn msg = s.send conn (.pong t s.clock) := by
  refine ⟨fun m => send_eq hc m, close_closes hc, fun e he => ?_, fun hn => ?_,
    fun cr hmsg hn => ?_, fun t hmsg => by rw [hmsg]; rfl⟩
  · have h₁ : (s.handle conn msg).1 = .error e := by rw [handle_fst hl hc hfresh, he]; rfl
    have hh : s.handle conn msg = (.error e, s) := Prod.ext h₁ (handle_snd_of_refusal hl hc he)
    exact ⟨h₁, by rw [dispatch, hh]⟩
  · have h₁ : (s.handle conn msg).1 = .ok () := by rw [handle_fst hl hc hfresh, hn]; rfl
    have hd := dispatch_of_ok h₁
    exact ⟨h₁, hd, hd ▸ NoErrorSent.handle s conn msg⟩
  · subst hmsg
    have hnone : s.currentRoom? c = none := by
      cases hcur : s.currentRoom? c with
      | none => rfl
      | some R => simp [refusal, hcur] at hn
    cases hv : (CreateRoom.config cr).validate with
    | error e => simp [refusal, hnone, hv] at hn
    | ok u =>
      have hcap : ¬ s.maxRooms ≤ s.rooms.length := fun hcap => by
        simp [refusal, hnone, hv, hcap] at hn
      obtain ⟨h₁, seed, R, hrooms, hR, hjoin⟩ := handle_createRoom hl hc hnone hfresh hv hcap
      rw [dispatch_of_ok h₁]
      refine ⟨R, hrooms, ?_, ?_, ?_, ?_, ?_, ?_, hjoin⟩ <;> rw [hR] <;> rfl

/-- A player connects and asks for a room of its own. -/
theorem dispatch_replies_connected :
    let s₀ := Server.new 8 4 0 7
    let s := (s₀.connect 1).2
    let conn := (s₀.connect 1).1
    let c := Connection.fresh conn 1
    let msg := ClientMsg.createRoom ⟨"arena", .deathMatch, none, none, none, none, none, none, 1⟩
    s.Links ∧ s.hub.get? conn = some c ∧ s.freshId.1 ∉ s.rooms.map (·.id) ∧
    (∀ m, s.send conn m =
      if c.alive then
        if c.outbox.length < s.hub.capacity then
          s.updateConn conn fun c => { c with outbox := c.outbox ++ [m] }
        else s.close conn
      else s) ∧
    (∃ c', (s.close conn).hub.get? conn = some c' ∧ c'.outbox = c.outbox ∧ c'.alive = false) ∧
    (∀ e, s.refusal c msg = some e → (s.handle conn msg).1 = .error e ∧
      s.dispatch conn msg = s.send conn (.error e.code e.message)) ∧
    (s.refusal c msg = none → (s.handle conn msg).1 = .ok () ∧
      s.dispatch conn msg = (s.handle conn msg).2 ∧ s.NoErrorSent (s.dispatch conn msg)) ∧
    (∀ cr, msg = .createRoom cr → s.refusal c msg = none →
      ∃ R, (s.dispatch conn msg).rooms = s.rooms ++ [R] ∧ R.id = s.freshId.1 ∧
        R.name = cr.name ∧ R.mode = cr.mode ∧
        R.maxPlayers = max (cr.maxPlayers.getD cr.mode.requiredPlayers) 1 ∧
        R.mapId = cr.mapId.getD 1 ∧
        R.rules = ⟨cr.timeLimitSecs.getD 300, cr.scoreLimit.getD 20, cr.friendlyFire.getD false,
          cr.isPrivate.getD false⟩ ∧
        FirstJoin s.hub.capacity c conn (s.dispatch conn msg) R) ∧
    ∀ t, msg = .ping t → s.dispatch conn msg = s.send conn (.pong t s.clock) := by
  intro s₀ s conn c msg
  have hl : s.Links := (Links.new 8 4 0 7).connect 1
  have hc : s.hub.get? conn = some c := by
    show (s₀.hub.register (Connection.fresh s₀.freshId.1 1)).get? s₀.freshId.1 =
      some (Connection.fresh s₀.freshId.1 1)
    rw [Hub.get?_register]
    simp [s₀, Server.new, Hub.new, Hub.get?, Connection.fresh]
  have hfresh : s.freshId.1 ∉ s.rooms.map (·.id) := List.not_mem_nil
  exact ⟨hl, hc, hfresh, dispatch_replies hl hc hfresh msg⟩

end Server

end Skirmish
