import Skirmish.Proofs.Server.Outbox

/-!
# What connections are delivered

A close kills a connection, and deliveries to a dead connection are dropped: whatever is called
afterwards, the record of a closed connection keeps its queue and stays closed (`KeepsClosed`).
Each step of the server either leaves the hub alone, changes a live connection, or clears room
references, which keeps queues; so every task, worklist and call keeps the closed ones.

Together with the invariant of the fair calls (`FairlyReachable.orderly`), this gives the shape of
every queue (`FairlyReachable.tenures`).
-/

namespace Skirmish

namespace Server

variable {s s' s'' : Server} {i : Uuid} {c : Connection} {ts : List Task}

@[simp] theorem hub_createRoom (s : Server) (config : RoomConfig) :
    (s.createRoom config).2.hub = s.hub := by
  unfold createRoom
  split <;> (try split) <;> rfl

@[simp] theorem hub_setReady (s : Server) (roomId conn : Uuid) (ready : Bool) :
    (s.setReady roomId conn ready).2.hub = s.hub := by
  unfold setReady
  split <;> (try split) <;> rfl

@[simp] theorem hub_handleInput (s : Server) (roomId conn : Uuid) (input : PlayerInput) :
    (s.handleInput roomId conn input).2.hub = s.hub := by
  unfold handleInput
  split <;> (try split) <;> rfl

/-- Every closed connection of `s` is in `s'` still, closed, with the same queue. -/
def KeepsClosed (s s' : Server) : Prop :=
  ∀ i c, s.hub.get? i = some c → c.alive = false →
    ∃ c', s'.hub.get? i = some c' ∧ c'.outbox = c.outbox ∧ c'.alive = false

namespace KeepsClosed

@[refl] theorem refl (s : Server) : KeepsClosed s s := fun _ c hc ha => ⟨c, hc, rfl, ha⟩

theorem trans (h₁ : KeepsClosed s s') (h₂ : KeepsClosed s' s'') : KeepsClosed s s'' := by
  intro i c hc ha
  obtain ⟨c', hc', ho, ha'⟩ := h₁ i c hc ha
  obtain ⟨c'', hc'', ho', ha''⟩ := h₂ i c' hc' ha'
  exact ⟨c'', hc'', ho'.trans ho, ha''⟩

theorem of_hub (h : s'.hub = s.hub) : KeepsClosed s s' := fun _ c hc ha => ⟨c, h ▸ hc, rfl, ha⟩

/-- Changing a connection keeps the closed ones when a closed one keeps its queue and stays
closed. -/
theorem updateConn {f : Connection → Connection} (hf : ∀ c, (f c).id = c.id)
    (hkeep : ∀ c, s.hub.get? i = some c → c.alive = false → (f c).outbox = c.outbox ∧
      (f c).alive = false) : KeepsClosed s (s.updateConn i f) := by
  intro j c hc ha
  rw [get?_updateConn hf, hc, Option.map_some]
  by_cases hj : j = i
  · subst hj
    exact ⟨f c, by rw [if_pos rfl], (hkeep c hc ha).1, (hkeep c hc ha).2⟩
  · exact ⟨c, by rw [if_neg hj], rfl, ha⟩

/-- Changing a live connection keeps the closed ones. -/
theorem updateConn_live {f : Connection → Connection} (hf : ∀ c, (f c).id = c.id)
    (hc : s.hub.get? i = some c) (ha : c.alive = true) : KeepsClosed s (s.updateConn i f) :=
  updateConn hf fun c' hc' ha' => by
    rw [hc, Option.some.injEq] at hc'
    subst hc'
    rw [ha] at ha'
    cases ha'

theorem clearRoomRef (s : Server) (conn room : Uuid) :
    KeepsClosed s (s.clearRoomRef conn room) := by
  rw [clearRoomRef_eq]
  exact updateConn (clearRef_id s room) fun c _ ha =>
    ⟨clearRef_outbox s room c, by rw [clearRef_alive, ha]⟩

theorem unseat {rid : Uuid} (hu : s.unseat rid i = some (s', ts)) : KeepsClosed s s' := by
  obtain ⟨R, st, R', -, -, rfl, -⟩ := unseat_eq_some hu
  exact (of_hub rfl : KeepsClosed s (s.putRoom R')).trans (clearRoomRef _ i rid)

theorem release (s : Server) (room : Uuid) (conns : List Uuid) :
    KeepsClosed s (conns.foldl (fun s c => s.clearRoomRef c room) s) := by
  induction conns generalizing s with
  | nil => exact refl s
  | cons c cs ih => exact (clearRoomRef s c room).trans (ih _)

/-- Every task keeps the closed connections: only live ones are sent to or closed. -/
theorem perform (s : Server) (t : Task) : KeepsClosed s (s.perform t).1 := by
  cases t with
  | deliver conn msg =>
    simp only [Server.perform]
    split
    · rename_i c hc
      split
      · exact refl s
      · rename_i hlive
        split
        · exact updateConn_live (fun _ => rfl) hc (by simpa using hlive)
        · exact refl s
    · exact refl s
  | close conn =>
    simp only [Server.perform]
    split
    · rename_i c hc
      split
      · exact refl s
      · rename_i hlive
        have hk : KeepsClosed s (s.updateConn conn fun c : Connection =>
            { c with alive := false, room := none, registered := false }) :=
          updateConn_live (fun _ => rfl) hc (by simpa using hlive)
        split
        · rename_i r _
          cases hu : (s.updateConn conn fun c : Connection =>
              { c with alive := false, room := none, registered := false }).unseat r conn with
          | none => exact hk
          | some p => exact hk.trans (unseat hu)
        · exact hk
    · exact refl s
  | release room conns => exact release s room conns

theorem run (s : Server) (ts : List Task) : KeepsClosed s (s.run ts) := by
  fun_induction Server.run s ts with
  | case1 s => exact refl s
  | case2 s t rest _ ih => exact (perform s t).trans ih

/-! ## Every call -/

theorem connect (s : Server) (playerId : Int) : KeepsClosed s (s.connect playerId).2 :=
  fun j c hc ha => ⟨c, by
    rw [show (s.connect playerId).2.hub =
      s.hub.register (Connection.fresh (s.freshId).1 playerId) from rfl, Hub.get?_register, hc]
    rfl, rfl, ha⟩

theorem addPlayer (s : Server) (roomId conn : Uuid) (cid : Nat) :
    KeepsClosed s (s.addPlayer roomId conn cid).2 := by
  unfold Server.addPlayer
  split
  · rename_i c r hc hr
    split
    · exact refl s
    · split
      · exact refl s
      · dsimp only
        have hk : KeepsClosed s ((s.putRoom (r.seatPlayer conn c.playerId cid s.clock).2).updateConn
            conn fun c => { c with room := some roomId }) :=
          (of_hub rfl : KeepsClosed s (s.putRoom _)).trans
            (updateConn (fun _ => rfl) fun _ _ ha => ⟨rfl, ha⟩)
        split
        · split
          · rename_i s₂ ts hu
            exact hk.trans ((unseat hu).trans (run s₂ ts))
          · exact hk
        · exact hk.trans (run _ _)
  · exact refl s

theorem removePlayer (s : Server) (roomId conn : Uuid) :
    KeepsClosed s (s.removePlayer roomId conn).2 := by
  unfold Server.removePlayer
  split
  · rename_i s₁ ts hu
    exact (unseat hu).trans (run s₁ ts)
  · exact refl s

theorem setReady (s : Server) (roomId conn : Uuid) (ready : Bool) :
    KeepsClosed s (s.setReady roomId conn ready).2 :=
  of_hub (hub_setReady s roomId conn ready)

theorem handleInput (s : Server) (roomId conn : Uuid) (input : PlayerInput) :
    KeepsClosed s (s.handleInput roomId conn input).2 :=
  of_hub (hub_handleInput s roomId conn input)

theorem createRoom (s : Server) (config : RoomConfig) : KeepsClosed s (s.createRoom config).2 :=
  of_hub (hub_createRoom s config)

theorem tick {roomId : Uuid} {dt : Float32} (ht : s.tick roomId dt = .ok s') : KeepsClosed s s' := by
  obtain ⟨out, s₁, hs, -, hhub⟩ := tick_eq_ok ht
  have h₁ : s₁.hub = s.hub := by
    rcases step_eq_ok hs with ⟨-, rfl⟩ | ⟨r, r', -, -, rfl⟩ <;> rfl
  exact (of_hub h₁).trans ((run _ _).trans (of_hub hhub))

theorem terminate (s : Server) (y : Uuid) : KeepsClosed s (s.terminate y) := by
  rcases terminate_cases s y with ⟨he, -⟩ | ⟨r, r', s₂, pre, -, he, -, hhub, -⟩
  · rw [he]
  · rw [he]
    exact (of_hub hhub).trans (run _ _)

theorem foldl_terminate (s : Server) (ys : List Uuid) :
    KeepsClosed s (ys.foldl Server.terminate s) := by
  induction ys generalizing s with
  | nil => exact refl s
  | cons y ys ih => exact (terminate s y).trans (ih _)

/-- Every call keeps the closed connections: a property of the later states of `s₀`. -/
theorem keptByCalls (s₀ : Server) : KeptByCalls (KeepsClosed s₀) where
  connect playerId h := h.trans (connect _ playerId)
  send _ _ h := h.trans (run _ _)
  broadcast _ _ h := h.trans (run _ _)
  notifyPlayer _ _ h := h.trans (run _ _)
  close _ h := h.trans (run _ _)
  closeAll h := h.trans (run _ _)
  createRoom config h := h.trans (createRoom _ config)
  sweep _ h := h.trans ((foldl_terminate _ _).trans (of_hub rfl))
  shutdownAll h := h.trans ((foldl_terminate _ _).trans (of_hub rfl))
  addPlayer roomId conn characterId h := h.trans (addPlayer _ roomId conn characterId)
  removePlayer roomId conn h := h.trans (removePlayer _ roomId conn)
  setReady roomId conn ready h := h.trans (setReady _ roomId conn ready)
  handleInput roomId conn input h := h.trans (handleInput _ roomId conn input)
  tick h ht := h.trans (tick ht)
  terminate roomId h := h.trans (terminate _ roomId)
  wait _ h := h.trans (of_hub rfl)

/-- No call sends a closed connection anything. -/
theorem call {k : Call} (hc : s.call k = .ok s') : KeepsClosed s s' :=
  (keptByCalls s).call (refl s) hc

end KeepsClosed

/-! ## The shape of every queue -/

/-- On every server reached by fair calls, each connection's stream is a sequence of tenures
`room_joined` … `room_left`, one room after another, and a closed connection is sent nothing. -/
theorem FairlyReachable.tenures (h : s.FairlyReachable) :
    (∀ i c, s.hub.get? i = some c → (Tenure.idle.run c.outbox).isSome) ∧
    (∀ i c q, s.hub.get? i = some c → c.alive = true → Tenure.idle.run c.outbox = some q →
      s.Fits i q) ∧
    ∀ (k : Call) s', s.call k = .ok s' → ∀ i c, s.hub.get? i = some c → c.alive = false →
      ∃ c', s'.hub.get? i = some c' ∧ c'.outbox = c.outbox ∧ c'.alive = false := by
  have ho := h.orderly
  exact ⟨ho.streams.sent, fun i c q hc ha hq => (ho.streams.live i c q hc ha hq).fits,
    fun k s' hk => KeepsClosed.call hk⟩

/-- A player connects and asks for a new room, which seats it. -/
theorem tenures_created :
    let s₀ := Server.new 8 4 0 7
    let s := (s₀.connect 1).2.dispatch (s₀.connect 1).1
      (.createRoom ⟨"arena", .deathMatch, none, none, none, none, none, none, 1⟩)
    s.FairlyReachable ∧
    (∀ i c, s.hub.get? i = some c → (Tenure.idle.run c.outbox).isSome) ∧
    (∀ i c q, s.hub.get? i = some c → c.alive = true → Tenure.idle.run c.outbox = some q →
      s.Fits i q) ∧
    ∀ (k : Call) s', s.call k = .ok s' → ∀ i c, s.hub.get? i = some c → c.alive = false →
      ∃ c', s'.hub.get? i = some c' ∧ c'.outbox = c.outbox ∧ c'.alive = false := by
  intro s₀ s
  have hs : s.FairlyReachable :=
    .call (.dispatch _ _) rfl (.call (.connect 1) rfl (.new 8 4 0 7) rfl) rfl
  exact ⟨hs, FairlyReachable.tenures hs⟩

end Server

end Skirmish
