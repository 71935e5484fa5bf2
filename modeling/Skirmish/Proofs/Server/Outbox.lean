import Skirmish.Proofs.Server.Calls
import Skirmish.Proofs.Server.Tenure

/-!
# What rooms send a connection comes in tenures

Every call keeps `Streams s []`: every queue reads as tenures (`Tenure.run` from `idle`), and the
stream of a live connection fits where it sits. The calls on rooms do it through their worklists
(`Streams.run`): seating a connection tells it `room_joined` first and the others of the new player;
a tick tells the members what the step did, at the stage their streams stand; ending a room tells
the members the game ended, if it was playing, and that they left. Calls that send messages of their
own keep it when those messages are about no room (`Task.quiet`).

A closed connection is never sent anything again: its record keeps its queue, whatever is called.
-/

namespace Skirmish

/-- The messages a step sends: the start, the frame, the end. -/
def TickOutput.msgs (o : TickOutput) : List ServerMsg :=
  o.started.toList ++ o.frame.toList ++ (o.ended.map (·.1)).toList

@[simp] theorem TickOutput.msgs_none : TickOutput.none.msgs = [] := rfl

namespace Tenure

theorem place_eq_none {q : Tenure} : q.place = none ↔ q = idle := by
  cases q <;> simp [place]

end Tenure

namespace Room

variable {r r' : Room} {i j conn : Uuid} {now : Nat} {dt : Float32} {out : TickOutput}
  {q : Tenure} {e : Nat}

/-- A step of a room keeps its seats. -/
theorem step_seats (h : r.step dt now = .ok (out, r')) : r'.seats = r.seats := by
  cases hs : r.stopped with
  | true =>
    rw [step_of_stopped hs] at h
    obtain ⟨-, rfl⟩ := Prod.mk.inj (Except.pure_eq_ok.1 h).symm
    rfl
  | false =>
    cases hst : r.status with
    | waiting =>
      rw [step_of_waiting hs hst] at h
      obtain ⟨-, rfl⟩ := Prod.mk.inj (Except.pure_eq_ok.1 h).symm
      exact checkReady_seats
    | playing =>
      rw [step_of_playing hs hst] at h
      obtain ⟨-, r₁, -, hr₁, -, -, hend⟩ := simulate_eq_ok h
      rcases hend with ⟨-, -, rfl, -⟩ | ⟨-, rfl, -⟩ <;> rw [hr₁]
    | ended =>
      rw [step_of_ended hs hst] at h
      obtain ⟨-, rfl⟩ := Prod.mk.inj (Except.pure_eq_ok.1 h).symm
      rfl

/-- A step sends a member's stream, standing in the room at its stage, to the stage after the
step: the start to a stream before the game, the next frame, and the end after it, to a stream in
the game. -/
theorem step_streams (h : r.step dt now = .ok (out, r')) (hq : q.place = some (r.id, e))
    (hat : q.AtStage r) : ∃ q', q.run out.msgs = some q' ∧ q'.place = some (r.id, e) ∧
      q'.AtStage r' := by
  cases hs : r.stopped with
  | true =>
    rw [step_of_stopped hs] at h
    obtain ⟨rfl, rfl⟩ := Prod.mk.inj (Except.pure_eq_ok.1 h).symm
    exact ⟨q, rfl, hq, hat⟩
  | false =>
    cases hst : r.status with
    | waiting =>
      rw [step_of_waiting hs hst] at h
      obtain ⟨rfl, rfl⟩ := Prod.mk.inj (Except.pure_eq_ok.1 h).symm
      by_cases hquorum : minPlayersToStart ≤ r.seats.length ∧ r.seats.all (·.ready) = true
      · rw [checkReady_of_quorum hst hquorum.1 hquorum.2]
        obtain rfl := hat.eq_waiting hq hst
        exact ⟨.playing r.id e none, by simp [TickOutput.msgs, Tenure.run, Tenure.step],
          rfl, rfl, fun _ h' => by cases h'⟩
      · rw [checkReady_of_not_quorum hquorum]
        exact ⟨q, rfl, hq, hat⟩
    | playing =>
      rw [step_of_playing hs hst] at h
      obtain ⟨o, r₁, -, hr₁, hnone, hframe, hend⟩ := simulate_eq_ok h
      obtain ⟨last, rfl, hlast⟩ := hat.eq_playing hq hst
      have hf₁ : r₁.frameId = r.frameId + 1 := by rw [hr₁]
      have hid₁ : r₁.id = r.id := by rw [hr₁]
      have hstep : (Tenure.playing r.id e last).step
          (buildFrame r₁.frameId r₁.world o (maxFloat (r₁.rules.timeLimitSecs - r₁.elapsed) 0)
            now) = some (.playing r.id e (some r₁.frameId)) := by
        cases last with
        | none => simp [Tenure.step, buildFrame]
        | some k => simp [Tenure.step, buildFrame, hlast k rfl, hf₁]
      rcases hend with ⟨reason, -, hr', hended⟩ | ⟨-, hr', hended⟩ <;> subst r'
      · refine ⟨.ended r.id e, ?_, rfl, rfl⟩
        simp only [TickOutput.msgs, hnone, hframe, hended, Option.toList, Option.map_some,
          List.nil_append, List.singleton_append]
        rw [Tenure.run_cons, hstep, Option.bind_some]
        simp [finish, Tenure.run, Tenure.step, hid₁]
      · refine ⟨.playing r.id e (some r₁.frameId), ?_, rfl, ⟨by rw [hr₁]; exact hst, ?_⟩⟩
        · simp only [TickOutput.msgs, hnone, hframe, hended, Option.toList, Option.map_none,
            List.nil_append, List.append_nil]
          rw [Tenure.run_cons, hstep]
          rfl
        · simp
    | ended =>
      rw [step_of_ended hs hst] at h
      obtain ⟨rfl, rfl⟩ := Prod.mk.inj (Except.pure_eq_ok.1 h).symm
      exact ⟨q, rfl, hq, hat⟩

/-- A step tells no one it left. -/
theorem roomLeft_not_mem_step (h : r.step dt now = .ok (out, r')) (rid : Uuid) :
    ServerMsg.roomLeft rid ∉ out.msgs := by
  cases hs : r.stopped with
  | true =>
    rw [step_of_stopped hs] at h
    obtain ⟨rfl, -⟩ := Prod.mk.inj (Except.pure_eq_ok.1 h).symm
    simp
  | false =>
    cases hst : r.status with
    | waiting =>
      rw [step_of_waiting hs hst] at h
      obtain ⟨rfl, -⟩ := Prod.mk.inj (Except.pure_eq_ok.1 h).symm
      unfold checkReady
      split <;> simp [TickOutput.msgs]
    | playing =>
      rw [step_of_playing hs hst] at h
      obtain ⟨o, r₁, -, -, hnone, hframe, hend⟩ := simulate_eq_ok h
      rcases hend with ⟨reason, -, -, hended⟩ | ⟨-, -, hended⟩ <;>
        simp [TickOutput.msgs, hnone, hframe, hended, buildFrame, finish]
    | ended =>
      rw [step_of_ended hs hst] at h
      obtain ⟨rfl, -⟩ := Prod.mk.inj (Except.pure_eq_ok.1 h).symm
      simp

/-- Readiness changes a seat, but not the entity it plays. -/
theorem seat?_setReady {b : Bool} (h : r.setReady conn b = .ok r') (i : Uuid) :
    (r'.seat? i).map (·.entityId) = (r.seat? i).map (·.entityId) := by
  obtain ⟨-, rfl⟩ := setReady_eq_ok.1 h
  simp only [seat?, List.find?_map, Option.map_map]
  have hp : ((fun s : Seat => s.connection == i) ∘ fun s : Seat =>
      if s.connection = conn then { s with ready := b } else s) = fun s => s.connection == i := by
    funext s
    by_cases hs : s.connection = conn <;> simp [hs]
  rw [hp]
  congr 1
  funext s
  by_cases hs : s.connection = conn <;> simp [hs]

theorem handleInput_seats {input : PlayerInput} {sp : List Nat}
    (h : r.handleInput conn input now = .ok (sp, r')) :
    r'.seats = r.seats ∧ r'.status = r.status ∧ r'.frameId = r.frameId := by
  rcases handleInput_eq_ok h with rfl | ⟨-, -, -, -, -, -, -, -, -, rfl | ⟨-, -, rfl⟩⟩ <;>
    exact ⟨rfl, rfl, rfl⟩

theorem setReady_stage {b : Bool} (h : r.setReady conn b = .ok r') :
    r'.id = r.id ∧ r'.status = r.status ∧ r'.frameId = r.frameId := by
  obtain ⟨-, rfl⟩ := setReady_eq_ok.1 h
  exact ⟨rfl, rfl, rfl⟩

/-- Taking a seat keeps every other seat. -/
theorem seat?_seatPlayer_of_ne (hj : j ≠ conn) (pid : Int) (cid : Nat) :
    (r.seatPlayer conn pid cid now).2.seat? j = r.seat? j := by
  rw [seatPlayer_eq]
  simp [seat?, List.find?_append, Ne.symm hj]

/-- A new seat is found under its connection. -/
theorem seat?_seatPlayer_self (hnew : r.seat? conn = none) (pid : Int) (cid : Nat) :
    (r.seatPlayer conn pid cid now).2.seat? conn = some (r.seatPlayer conn pid cid now).1 := by
  rw [seatPlayer_eq]
  simp only [seat?] at hnew ⊢
  simp [List.find?_append, hnew]

@[simp] theorem seatPlayer_status (pid : Int) (cid : Nat) :
    (r.seatPlayer conn pid cid now).2.status = r.status := rfl

@[simp] theorem seatPlayer_frameId (pid : Int) (cid : Nat) :
    (r.seatPlayer conn pid cid now).2.frameId = r.frameId := rfl

/-- Ending a room that is not stopped empties and stops it, and sends the end of the game exactly
when it was playing. -/
theorem terminate_running (hs : r.stopped = false) :
    (r.terminate now).2.id = r.id ∧ (r.terminate now).2.members = [] ∧
      (r.terminate now).2.stopped = true ∧
      (((r.terminate now).1.map (·.1)).toList = [] ∧ r.status ≠ .playing ∨
        ∃ reason sc pl d, ((r.terminate now).1.map (·.1)).toList =
          [.gameEnd r.id reason sc pl d] ∧ r.status = .playing) := by
  rw [terminate_of_running hs]
  refine ⟨rfl, rfl, rfl, ?_⟩
  by_cases hp : r.status = .playing
  · exact .inr ⟨_, _, _, _, by rw [if_pos hp]; rfl, hp⟩
  · exact .inl ⟨by rw [if_neg hp]; rfl, hp⟩

end Room

namespace Tenure

/-- A member's stream, at the stage of its room, ends the tenure when the room ends: the end of the
game if it was playing, then `room_left`. -/
theorem run_leave {q : Tenure} {r : Room} {e : Nat} {ends : List ServerMsg}
    (hq : q.place = some (r.id, e)) (hat : q.AtStage r)
    (hends : ends = [] ∨ ∃ reason sc pl d, ends = [.gameEnd r.id reason sc pl d] ∧
      r.status = .playing) :
    q.run (ends ++ [.roomLeft r.id]) = some .idle := by
  rcases hends with rfl | ⟨reason, sc, pl, d, rfl, hp⟩
  · rw [List.nil_append, run_cons, step_roomLeft hq]
    rfl
  · obtain ⟨last, rfl, -⟩ := hat.eq_playing hq hp
    simp [run, step, place]

end Tenure

namespace Task

variable {i : Uuid} {ts : List Task}

/-- A task sent from outside the rooms: a message about no room, or a close. -/
def quiet : Task → Bool
  | .deliver _ m => !m.aboutRoom
  | .close _ => true
  | .release _ _ => false

theorem pendingFor_quiet (hts : ∀ t ∈ ts, t.quiet = true) :
    ∀ m ∈ pendingFor i ts, m.aboutRoom = false := by
  induction ts with
  | nil => simp
  | cons t ts ih =>
    have ih' := ih fun t' ht' => hts t' (List.mem_cons_of_mem _ ht')
    have ht := hts t List.mem_cons_self
    cases t with
    | deliver c m =>
      by_cases hc : c = i
      · subst hc
        rw [pendingFor_deliver_self]
        intro m' hm'
        rcases List.mem_cons.1 hm' with rfl | hm'
        · simpa [quiet] using ht
        · exact ih' m' hm'
      · rw [pendingFor_deliver_of_ne hc]
        exact ih'
    | close c =>
      by_cases hc : c = i
      · subst hc
        simp [pendingFor_close_self]
      · rw [pendingFor_close_of_ne hc]
        exact ih'
    | release => cases ht

/-- Messages each sent to all of some distinct connections reach each of them in order. -/
theorem pendingFor_flatMap_deliver {conns : List Uuid} (hnd : conns.Nodup) (ms : List ServerMsg) :
    pendingFor i (ms.flatMap fun m => conns.map (Task.deliver · m)) =
      if i ∈ conns then ms else [] := by
  induction ms with
  | nil => split <;> rfl
  | cons m ms ih =>
    rw [List.flatMap_cons, pendingFor_append (close_not_mem_map_deliver _ _),
      pendingFor_map_deliver, ih]
    by_cases hi : i ∈ conns
    · rw [if_pos hi, if_pos hi, List.count_eq_one_of_mem hnd hi]
      rfl
    · rw [if_neg hi, if_neg hi, List.count_eq_zero_of_not_mem hi]
      rfl

end Task

namespace Server

variable {s s' : Server} {r R : Room} {q : Tenure} {i j rid : Uuid} {c : Connection}
  {ts : List Task}

theorem Streams.new (capacity maxRooms clock : Nat) (idSeed : UInt64) :
    (Server.new capacity maxRooms clock idSeed).Streams [] :=
  ⟨fun i c hc => by simp [Server.new, Hub.new, Hub.get?] at hc,
    fun i c q hc => by simp [Server.new, Hub.new, Hub.get?] at hc⟩

theorem RoomsSound.new (capacity maxRooms clock : Nat) (idSeed : UInt64) :
    (Server.new capacity maxRooms clock idSeed).RoomsSound :=
  ⟨by simp [Server.new], by simp [Server.new]⟩

theorem Streams.congr (h : s.Streams ts) (hr : s'.rooms = s.rooms) (hh : s'.hub = s.hub) :
    s'.Streams ts :=
  ⟨fun i c hc => h.sent i c (hh ▸ hc), fun i c q hc ha hq => (h.live i c q (hh ▸ hc) ha hq).congr hr⟩

/-- Seating a connection names a room, which changes neither a queue nor liveness: the streams
after it follow from each live connection's stream. -/
theorem Streams.updateRoomRef
    (hsent : ∀ i c, s.hub.get? i = some c → (Tenure.idle.run c.outbox).isSome)
    (hlive : ∀ i c q, s.hub.get? i = some c → c.alive = true → Tenure.idle.run c.outbox = some q →
      (s.putRoom r).Continues ts i q) (conn rid : Uuid) :
    ((s.putRoom r).updateConn conn fun c => { c with room := some rid }).Streams ts := by
  refine ⟨fun j c' hc' => ?_, fun j c' q hc' ha hq => ?_⟩ <;>
    rw [get?_updateConn (f := fun c : Connection => { c with room := some rid }) fun _ => rfl]
      at hc' <;>
    obtain ⟨c, hc, rfl⟩ := Option.map_eq_some_iff.1 hc' <;>
    obtain ⟨hout, halive⟩ : (if j = conn then { c with room := some rid } else c).outbox =
        c.outbox ∧ (if j = conn then { c with room := some rid } else c).alive = c.alive := by
      split <;> exact ⟨rfl, rfl⟩
  · rw [hout]
    exact hsent j c hc
  · rw [hout] at hq
    rw [halive] at ha
    exact (hlive j c q hc ha hq).congr rfl

/-- Messages about no room, and closes, leave every stream where it stands. -/
theorem Continues.quiet (h : s.Continues [] i q) (hts : ∀ t ∈ ts, t.quiet = true) :
    s.Continues ts i q := by
  refine ⟨⟨q, Tenure.run_of_aboutRoom (Task.pendingFor_quiet hts), fun _ => h.fits⟩,
    fun R hR st hst => .inl (h.placed_nil hR hst), fun rid hl => ?_⟩
  have := Task.pendingFor_quiet hts _ hl
  simp [ServerMsg.aboutRoom] at this

theorem Streams.settle_quiet (h : s.Streams []) (hs : s.RoomsSound)
    (hts : ∀ t ∈ ts, t.quiet = true) : (s.settle ts).Streams [] ∧ (s.settle ts).RoomsSound :=
  Streams.run (by
    rw [List.append_nil]
    exact ⟨h.sent, fun i c q hc ha hq => (h.live i c q hc ha hq).quiet hts⟩) hs

/-- With nothing left to run, a change of rooms keeps a stream when it keeps it fitting and seats
the connection only where it sat, as the same entity. -/
theorem Continues.rooms (h : s.Continues [] i q) (hfit : s.Fits i q → s'.Fits i q)
    (hseat : ∀ R' ∈ s'.rooms, ∀ st', R'.seat? i = some st' → ∃ R ∈ s.rooms, ∃ st,
      R.seat? i = some st ∧ R.id = R'.id ∧ st.entityId = st'.entityId) :
    s'.Continues [] i q := by
  refine ⟨⟨q, rfl, fun _ => hfit h.fits⟩, fun R' hR' st' hst' => .inl ?_, fun _ h' => by
    cases h'⟩
  obtain ⟨R, hR, st, hst, hid, he⟩ := hseat R' hR' st' hst'
  rw [← hid, ← he]
  exact h.placed_nil hR hst

theorem Streams.rooms (h : s.Streams []) (hh : s'.hub = s.hub)
    (hfit : ∀ i q, s.Fits i q → s'.Fits i q)
    (hseat : ∀ i, ∀ R' ∈ s'.rooms, ∀ st', R'.seat? i = some st' → ∃ R ∈ s.rooms, ∃ st,
      R.seat? i = some st ∧ R.id = R'.id ∧ st.entityId = st'.entityId) : s'.Streams [] :=
  ⟨fun i c hc => h.sent i c (hh ▸ hc), fun i c q hc ha hq =>
    (h.live i c q (hh ▸ hc) ha hq).rooms (hfit i q) (hseat i)⟩

/-- A room put in place of the one its id finds, with the entities of the same seats and the
same stage of its game. -/
theorem Streams.putRoom_same (h : s.Streams []) (hR : s.room? r.id = some R)
    (hseat : ∀ i, (r.seat? i).map (·.entityId) = (R.seat? i).map (·.entityId))
    (hstage : r.status = R.status ∧ r.frameId = R.frameId) : (s.putRoom r).Streams [] := by
  obtain ⟨hR₀, hid⟩ := room?_eq_some hR
  refine h.rooms rfl (fun i q hf => hf.putRoom hR (hseat i) fun _ => hstage)
    fun i R' hR' st' hst' => ?_
  rcases mem_putRoom hR' with rfl | ⟨hR', -⟩
  · have hs := hseat i
    rw [hst'] at hs
    obtain ⟨st, hst, he⟩ : ∃ st, R.seat? i = some st ∧ st.entityId = st'.entityId := by
      cases h' : R.seat? i <;> simp_all
    exact ⟨R, hR₀, st, hst, hid, he⟩
  · exact ⟨R', hR', st', hst', rfl, rfl⟩

/-- A room with no seats added at the end. -/
theorem Streams.appendRoom (h : s.Streams []) (hm : r.members = [])
    (hrooms : s'.rooms = s.rooms ++ [r]) (hhub : s'.hub = s.hub) : s'.Streams [] := by
  have hq := room?_append hrooms
  have hnew : ∀ i, r.seat? i = none := fun i =>
    Option.not_isSome_iff_eq_none.1 fun h' => by simp [Room.seat?_isSome_iff, hm] at h'
  refine h.rooms hhub (fun i q hf => ?_) fun i R' hR' st' hst' => ?_
  · cases hp : q.place with
    | none =>
      rw [fits_of_place_none hp] at hf ⊢
      intro R hR hi
      rcases List.mem_append.1 (hrooms ▸ hR) with hR | hR
      · exact hf R hR hi
      · rw [List.mem_singleton.1 hR, hm] at hi
        cases hi
    | some p =>
      rw [fits_of_place_some hp] at hf ⊢
      obtain ⟨R, st, hR, hrest⟩ := hf
      exact ⟨R, st, by rw [hq, hR]; rfl, hrest⟩
  · rcases List.mem_append.1 (hrooms ▸ hR') with hR' | hR'
    · exact ⟨R', hR', st', hst', rfl, rfl⟩
    · rw [List.mem_singleton.1 hR', hnew] at hst'
      cases hst'

/-- Dropping rooms with no seats. -/
theorem Streams.filterRooms (h : s.Streams []) (keep : Uuid → Bool)
    (hrooms : s'.rooms = s.rooms.filter fun r => keep r.id) (hhub : s'.hub = s.hub)
    (hempty : ∀ R ∈ s.rooms, keep R.id = false → R.members = []) : s'.Streams [] := by
  have hq := room?_filter keep hrooms
  refine h.rooms hhub (fun i q hf => ?_) fun i R' hR' st' hst' =>
    ⟨R', (List.mem_filter.1 (hrooms ▸ hR')).1, st', hst', rfl, rfl⟩
  cases hp : q.place with
  | none =>
    rw [fits_of_place_none hp] at hf ⊢
    exact fun R hR => hf R (List.mem_filter.1 (hrooms ▸ hR)).1
  | some p =>
    obtain ⟨rid, e⟩ := p
    rw [fits_of_place_some hp] at hf ⊢
    obtain ⟨R, st, hR, hst, hrest⟩ := hf
    obtain ⟨hR₀, rfl⟩ := room?_eq_some hR
    have hk : keep R.id = true := by
      cases hk : keep R.id
      · have hi := Room.seat?_isSome_iff.1 (by simp [hst] : (R.seat? i).isSome)
        rw [hempty R hR₀ hk] at hi
        cases hi
      · rfl
    exact ⟨R, st, by rw [hq, if_pos hk, hR], hst, hrest⟩

/-- A new connection is sent nothing yet, and sits in no room. -/
theorem Streams.register (h : s.Streams []) (hl : s.Links) (hc : c.outbox = [])
    (hrooms : s'.rooms = s.rooms) (hhub : s'.hub = s.hub.register c) : s'.Streams [] := by
  refine ⟨fun j c' hc' => ?_, fun j c' q hc' ha hq => ?_⟩ <;>
    rw [hhub, Hub.get?_register, Option.or_eq_some_iff] at hc'
  · rcases hc' with hc' | ⟨-, hc'⟩
    · exact h.sent j c' hc'
    · split at hc'
      · cases hc'
        rw [hc]
        rfl
      · cases hc'
  · rcases hc' with hc' | ⟨hnone, hc'⟩
    · exact (h.live j c' q hc' ha hq).congr hrooms
    · split at hc'
      · cases hc'
        rw [hc, Tenure.run_nil, Option.some.injEq] at hq
        subst hq
        have hno : ∀ R ∈ s'.rooms, j ∉ R.members := fun R hR hj => by
          obtain ⟨-, c₀, hc₀, -⟩ := hl.seated R (hrooms ▸ hR) j hj
          rw [hnone] at hc₀
          cases hc₀
        refine ⟨⟨.idle, rfl, fun _ => (fits_of_place_none rfl).2 hno⟩, fun R hR st hst => ?_,
          fun _ h' => by cases h'⟩
        exact absurd (Room.seat?_isSome_iff.1 (by simp [hst])) (hno R hR)
      · cases hc'

theorem Streams.connect (h : s.Streams []) (hl : s.Links) (playerId : Int) :
    (s.connect playerId).2.Streams [] :=
  h.register hl rfl rfl rfl

/-! ## Taking a seat -/

section Seat

variable {conn : Uuid} {pid : Int} {cid now : Nat}

/-- A connection already seated hears of the new player, an entity not its own; any other hears
nothing. -/
theorem Continues.seat_other (h : s.Continues [] j q) (hs : s.RoomsSound)
    (hR : s.room? r.id = some r) (hnew : r.seat? conn = none) (ha : r.admits = .ok ())
    (hj : j ≠ conn) (m : ServerMsg) :
    (s.putRoom (r.seatPlayer conn pid cid now).2).Continues
      (.deliver conn m :: ((r.seatPlayer conn pid cid now).2.members.filter (· != conn)).map
        (Task.deliver · (.playerJoined (r.seatPlayer conn pid cid now).1.info))) j q := by
  have hR₀ := (room?_eq_some hR).1
  have hseat : (r.seatPlayer conn pid cid now).2.seat? j = r.seat? j :=
    Room.seat?_seatPlayer_of_ne hj pid cid
  have hs₁ : (s.putRoom (r.seatPlayer conn pid cid now).2).RoomsSound :=
    hs.putRoom ((hs.agree r hR₀).seatPlayer hnew ha pid cid) fun hst => by
      rw [Room.seatPlayer_stopped, Room.admits_stopped ha] at hst
      cases hst
  have hsent : Task.pendingFor j (.deliver conn m ::
      ((r.seatPlayer conn pid cid now).2.members.filter (· != conn)).map
        (Task.deliver · (.playerJoined (r.seatPlayer conn pid cid now).1.info))) =
      List.replicate (((r.seatPlayer conn pid cid now).2.members.filter (· != conn)).count j)
        (.playerJoined (r.seatPlayer conn pid cid now).1.info) := by
    rw [Task.pendingFor_deliver_of_ne (Ne.symm hj), Task.pendingFor_map_deliver]
  have hrep : q.run (List.replicate
      (((r.seatPlayer conn pid cid now).2.members.filter (· != conn)).count j)
      (.playerJoined (r.seatPlayer conn pid cid now).1.info)) = some q := by
    by_cases hjr : j ∈ r.members
    · obtain ⟨sj, hsj⟩ := Option.isSome_iff_exists.1 (Room.seat?_isSome_iff.2 hjr)
      refine Tenure.run_replicate_playerJoined (h.placed_nil hR₀ hsj)
        (hs₁.entityId_ne (List.mem_map.2 ⟨r, hR₀, if_pos rfl⟩) (hseat.trans hsj)
          (Room.seat?_seatPlayer_self hnew pid cid) hj) _
    · rw [List.count_eq_zero_of_not_mem fun h' => ?_]
      · rfl
      · simp only [List.mem_filter, Room.seatPlayer_members, List.mem_append, List.mem_singleton,
          bne_iff_ne, ne_eq] at h'
        rcases h' with ⟨hm | rfl, hne⟩
        · exact hjr hm
        · exact hne rfl
  refine ⟨⟨q, by rw [hsent, hrep], fun _ => ?_⟩, fun R' hR' st' hst' => .inl ?_, fun rid hl => ?_⟩
  · exact h.fits.putRoom hR (by rw [hseat]) fun _ => ⟨rfl, rfl⟩
  · rcases mem_putRoom hR' with rfl | ⟨hR', -⟩
    · exact h.placed_nil hR₀ (hseat ▸ hst')
    · exact h.placed_nil hR' hst'
  · rw [hsent] at hl
    simp at hl

/-- The new member is told first that it joined the room, as the entity of its seat, before the
game. -/
theorem Continues.seat_self (h : s.Continues [] conn q) (hno : ∀ R ∈ s.rooms, conn ∉ R.members)
    (hR : s.room? r.id = some r) (hnew : r.seat? conn = none) (ha : r.admits = .ok ()) :
    (s.putRoom (r.seatPlayer conn pid cid now).2).Continues
      (.deliver conn (.roomJoined (r.seatPlayer conn pid cid now).2.summary
          (r.seatPlayer conn pid cid now).1.entityId (r.seatPlayer conn pid cid now).1.team
          (r.seatPlayer conn pid cid now).2.roster) ::
        ((r.seatPlayer conn pid cid now).2.members.filter (· != conn)).map
          (Task.deliver · (.playerJoined (r.seatPlayer conn pid cid now).1.info))) conn q := by
  obtain ⟨-, hwait, -⟩ := Room.admits_eq_ok.1 ha
  have hself : (r.seatPlayer conn pid cid now).2.seat? conn =
      some (r.seatPlayer conn pid cid now).1 := Room.seat?_seatPlayer_self hnew pid cid
  have hR₁ := room?_putRoom_self (r := (r.seatPlayer conn pid cid now).2) hR
  have hidle : q = .idle := by
    refine Tenure.place_eq_none.1 (Option.eq_none_iff_forall_not_mem.2 fun p hp => ?_)
    obtain ⟨R, st, hR', hst, -⟩ := (fits_of_place_some (e := p.2) hp).1 h.fits
    exact hno R (room?_eq_some hR').1 (Room.seat?_isSome_iff.1 (by simp [hst]))
  subst hidle
  have hsent : Task.pendingFor conn (.deliver conn (.roomJoined
      (r.seatPlayer conn pid cid now).2.summary (r.seatPlayer conn pid cid now).1.entityId
      (r.seatPlayer conn pid cid now).1.team (r.seatPlayer conn pid cid now).2.roster) ::
        ((r.seatPlayer conn pid cid now).2.members.filter (· != conn)).map
          (Task.deliver · (.playerJoined (r.seatPlayer conn pid cid now).1.info))) =
      [.roomJoined (r.seatPlayer conn pid cid now).2.summary
        (r.seatPlayer conn pid cid now).1.entityId (r.seatPlayer conn pid cid now).1.team
        (r.seatPlayer conn pid cid now).2.roster] := by
    rw [Task.pendingFor_deliver_self, Task.pendingFor_map_deliver,
      List.count_eq_zero_of_not_mem (by simp)]
    rfl
  refine ⟨⟨.waiting r.id (r.seatPlayer conn pid cid now).1.entityId, by rw [hsent]; rfl,
    fun _ => (fits_of_place_some rfl).2 ⟨_, _, hR₁, hself, rfl, hwait⟩⟩,
    fun R' hR' st' hst' => .inr (.inr ?_), fun rid hl => ?_⟩
  · rcases mem_putRoom hR' with rfl | ⟨hR', -⟩
    · rw [hself, Option.some.injEq] at hst'
      subst hst'
      exact ⟨_, _, rfl, rfl, rfl⟩
    · exact absurd (Room.seat?_isSome_iff.1 (by simp [hst'])) (hno R' hR')
  · rw [hsent] at hl
    simp at hl

/-- Any other connection hears nothing of a seat taken and at once given up. -/
theorem Continues.seat_quiet (h : s.Continues [] j q) (hR : s.room? r.id = some r)
    (hj : j ≠ conn) : (s.putRoom (r.seatPlayer conn pid cid now).2).Continues [] j q := by
  have hR₀ := (room?_eq_some hR).1
  have hseat : (r.seatPlayer conn pid cid now).2.seat? j = r.seat? j :=
    Room.seat?_seatPlayer_of_ne hj pid cid
  refine h.rooms (fun hf => hf.putRoom hR (by rw [hseat]) fun _ => ⟨rfl, rfl⟩)
    fun R' hR' st' hst' => ?_
  rcases mem_putRoom hR' with rfl | ⟨hR', -⟩
  · exact ⟨r, hR₀, st', hseat ▸ hst', rfl, rfl⟩
  · exact ⟨R', hR', st', hst', rfl, rfl⟩

end Seat

/-! ## Leaving, playing, ending -/

/-- A member's stream, with nothing left to run, stands in its room at the room's stage, as the
entity of its seat. -/
theorem Continues.member (h : s.Continues [] j q) (hR : s.room? r.id = some r)
    (hj : j ∈ r.members) : ∃ st, r.seat? j = some st ∧ q.place = some (r.id, st.entityId) ∧
      q.AtStage r := by
  obtain ⟨sj, hsj⟩ := Option.isSome_iff_exists.1 (Room.seat?_isSome_iff.2 hj)
  have hp := h.placed_nil (room?_eq_some hR).1 hsj
  obtain ⟨R, st, hR₁, -, -, hat⟩ := (fits_of_place_some hp).1 h.fits
  rw [hR, Option.some.injEq] at hR₁
  subst hR₁
  exact ⟨sj, hsj, hp, hat⟩

/-- A room put in place of the one its id finds, with the entities of the same seats and the
same stage of its game, leaves every stream standing. -/
theorem Continues.step (h : s.Continues [] j q) (hR : s.room? r.id = some r) {dt : Float32}
    {now : Nat} {out : TickOutput} {r' : Room} (hr : r.step dt now = .ok (out, r'))
    (hnd : r'.members.Nodup) :
    (s.putRoom r').Continues (out.msgs.flatMap fun m => r'.members.map (Task.deliver · m)) j q := by
  have hR₀ := (room?_eq_some hR).1
  obtain ⟨hid, -, -⟩ := Room.step_sameMembers hr
  have hseats := Room.step_seats hr
  have hseat : r'.seat? j = r.seat? j := by simp only [Room.seat?, hseats]
  have hmem : r'.members = r.members := by simp only [Room.members, hseats]
  have hR' : s.room? r'.id = some r := hid ▸ hR
  refine ⟨?_, fun R' hR' st' hst' => .inl ?_, fun rid hl => ?_⟩
  · rw [Task.pendingFor_flatMap_deliver hnd]
    by_cases hj : j ∈ r'.members
    · rw [if_pos hj]
      obtain ⟨sj, hsj, hp, hat⟩ := h.member hR (hmem ▸ hj)
      obtain ⟨q', hrun, hp', hat'⟩ := Room.step_streams hr hp hat
      exact ⟨q', hrun, fun _ => (fits_of_place_some hp').2
        ⟨r', sj, hid ▸ room?_putRoom_self hR', hseat.trans hsj, rfl, hat'⟩⟩
    · rw [if_neg hj]
      exact ⟨q, rfl, fun _ => h.fits.putRoom_of_not_mem hR' (hmem ▸ hj) hj⟩
  · rcases mem_putRoom hR' with rfl | ⟨hR', -⟩
    · rw [hid]
      exact h.placed_nil hR₀ (hseat ▸ hst')
    · exact h.placed_nil hR' hst'
  · rw [Task.pendingFor_flatMap_deliver hnd] at hl
    split at hl
    · exact absurd hl (Room.roomLeft_not_mem_step hr rid)
    · cases hl

/-- Ending a room tells each member the game ended, if it was playing, and then that it left; it
sits nowhere after. Anyone else hears nothing. -/
theorem Continues.terminate (h : s.Continues [] j q) (hR : s.room? r.id = some r)
    {ends : List ServerMsg} {r₂ : Room} (hid : r₂.id = r.id) (hm : r₂.members = [])
    (hends : ends = [] ∨ ∃ reason sc pl d, ends = [.gameEnd r.id reason sc pl d] ∧
      r.status = .playing) (hnd : r.members.Nodup)
    (hone : ∀ R ∈ s.rooms, j ∈ R.members → j ∈ r.members → R.id = r.id) :
    (s.putRoom r₂).Continues (ends.flatMap (fun m => r.members.map (Task.deliver · m)) ++
      .release r.id r.members :: r.members.map (Task.deliver · (.roomLeft r.id))) j q := by
  have hR₂ : s.room? r₂.id = some r := hid ▸ hR
  have hsent : Task.pendingFor j (ends.flatMap (fun m => r.members.map (Task.deliver · m)) ++
      .release r.id r.members :: r.members.map (Task.deliver · (.roomLeft r.id))) =
      if j ∈ r.members then ends ++ [.roomLeft r.id] else [] := by
    rw [Task.pendingFor_append (by simp), Task.pendingFor_flatMap_deliver hnd,
      Task.pendingFor_release, Task.pendingFor_map_deliver]
    by_cases hj : j ∈ r.members
    · rw [if_pos hj, if_pos hj, List.count_eq_one_of_mem hnd hj]
      rfl
    · rw [if_neg hj, if_neg hj, List.count_eq_zero_of_not_mem hj]
      rfl
  have hgone : j ∈ r.members → ∀ R ∈ (s.putRoom r₂).rooms, j ∉ R.members := by
    intro hj R hR' hjR
    rcases mem_putRoom hR' with rfl | ⟨hR', hne⟩
    · rw [hm] at hjR
      cases hjR
    · exact hne (by rw [hid]; exact hone R hR' hjR hj)
  refine ⟨?_, fun R' hR' st' hst' => .inl ?_, fun rid hl => ?_⟩
  · rw [hsent]
    by_cases hj : j ∈ r.members
    · rw [if_pos hj]
      obtain ⟨_, -, hp, hat⟩ := h.member hR hj
      exact ⟨.idle, Tenure.run_leave hp hat hends, fun _ => (fits_of_place_none rfl).2 (hgone hj)⟩
    · rw [if_neg hj]
      exact ⟨q, rfl, fun _ => h.fits.putRoom_of_not_mem hR₂ hj (by rw [hm]; exact List.not_mem_nil)⟩
  · rcases mem_putRoom hR' with rfl | ⟨hR', -⟩
    · have hi : j ∈ R'.members := Room.seat?_isSome_iff.1 (by simp [hst'])
      rw [hm] at hi
      cases hi
    · exact h.placed_nil hR' hst'
  · rw [hsent] at hl
    split at hl
    · exact hgone ‹_›
    · cases hl

/-! ## What the calls on rooms do -/

/-- A step of the server steps the room its id finds, if any. -/
theorem step_eq_ok {roomId : Uuid} {dt : Float32} {out : TickOutput}
    (h : s.step roomId dt = .ok (out, s')) :
    (out = TickOutput.none ∧ s' = s) ∨
      ∃ r r', s.room? roomId = some r ∧ r.step dt s.clock = .ok (out, r') ∧ s' = s.putRoom r' := by
  unfold Server.step at h
  split at h
  · rename_i r hr
    obtain ⟨⟨out', r'⟩, hr', h⟩ := Except.bind_eq_ok.1 h
    obtain ⟨rfl, rfl⟩ := Prod.mk.inj (Except.pure_eq_ok.1 h).symm
    exact .inr ⟨r, r', hr, hr', rfl⟩
  · obtain ⟨rfl, rfl⟩ := Prod.mk.inj (Except.pure_eq_ok.1 h).symm
    exact .inl ⟨rfl, rfl⟩

/-- A tick steps the room, then tells each member after the step each message of the step, in
order; the result of an ended game is reported. -/
theorem tick_eq_ok {roomId : Uuid} {dt : Float32} (ht : s.tick roomId dt = .ok s') :
    ∃ out s₁, s.step roomId dt = .ok (out, s₁) ∧
      let s₂ := s₁.run (out.msgs.flatMap fun m =>
        (((s₁.room? roomId).map Room.members).getD []).map (Task.deliver · m))
      s'.rooms = s₂.rooms ∧ s'.hub = s₂.hub := by
  unfold Server.tick at ht
  obtain ⟨⟨out, s₁⟩, hs, ht⟩ := Except.bind_eq_ok.1 ht
  refine ⟨out, s₁, hs, ?_⟩
  dsimp only at ht ⊢
  split at ht
  · rename_i he
    obtain rfl := Except.pure_eq_ok.1 ht
    have hm : out.msgs = [] := by
      simp only [TickOutput.isEmpty, Bool.and_eq_true, Option.isNone_iff_eq_none] at he
      simp [TickOutput.msgs, he.1.1, he.1.2, he.2]
    rw [hm, List.flatMap_nil, run.eq_1]
    exact ⟨rfl, rfl⟩
  · rcases out with ⟨st, fr, en⟩
    split at ht <;> obtain rfl := Except.pure_eq_ok.1 ht <;>
      cases st <;> cases fr <;> simp_all [TickOutput.msgs, settle]

/-- Ending a room that is not stopped puts it in place ended and empty, tells the members the game
ended if it was playing, releases their references and tells them they left. A game still playing
is reported. -/
theorem terminate_eq {y : Uuid} (hr : s.room? y = some r) (hs : r.stopped = false) :
    ∃ s₂ : Server, s.terminate y = s₂.settle
        ((((r.terminate s.clock).1.map (·.1)).toList.flatMap fun m =>
          r.members.map (Task.deliver · m)) ++
        .release y r.members :: r.members.map (Task.deliver · (.roomLeft y))) ∧
      s₂.rooms = (s.putRoom (r.terminate s.clock).2).rooms ∧ s₂.hub = s.hub ∧
      s₂.reports = s.reports ++ ((r.terminate s.clock).1.map (·.2)).toList := by
  unfold Server.terminate
  rw [hr]
  simp only [hs, Bool.false_eq_true, if_false]
  split
  · rename_i msg result he
    refine ⟨{ s.putRoom (r.terminate s.clock).2 with
      reports := (s.putRoom (r.terminate s.clock).2).reports ++ [result] }, ?_, rfl, rfl,
      by simp [he, putRoom]⟩
    simp [he]
  · rename_i he
    exact ⟨s.putRoom (r.terminate s.clock).2, by simp [he], rfl, rfl, by simp [he, putRoom]⟩

namespace RoomsSound

/-- A room put in place of a sound one with the same members, whose seats agree with its world. -/
theorem putRoom_same (h : s.RoomsSound) (hR : R ∈ s.rooms) {r : Room} (hsame : R.SameMembers r)
    (ha : r.SeatsAgree) : (s.putRoom r).RoomsSound :=
  h.putRoom ha fun hs => by
    rw [hsame.stopped] at hs
    have hnil := h.stopped R hR hs
    exact List.eq_nil_iff_forall_not_mem.2 fun i hi => by
      have hi' := (hsame.mem i).1 hi
      rw [hnil] at hi'
      cases hi'

/-- Rooms taken from sound ones are sound. -/
theorem sub (h : s.RoomsSound) (hsub : ∀ R ∈ s'.rooms, R ∈ s.rooms) : s'.RoomsSound :=
  ⟨fun R hR => h.agree R (hsub R hR), fun R hR => h.stopped R (hsub R hR)⟩

end RoomsSound

/-- A room no connection names has no members. -/
theorem Links.members_eq_nil (h : s.Links) {y : Uuid} (hu : s.Unreferenced y) (hR : R ∈ s.rooms)
    (hid : R.id = y) : R.members = [] :=
  List.eq_nil_iff_forall_not_mem.2 fun i hi => by
    obtain ⟨-, c, hc, hr⟩ := h.seated R hR i hi
    exact hu i c hc (hid ▸ hr)

/-! ## The invariant of the calls -/

/-- What every call keeps: connections and rooms agree, the seats of every room agree with its
world, and every stream is in tenures that fit where its connection sits. -/
structure Orderly (s : Server) : Prop where
  links : s.Links
  rooms : s.RoomsSound
  streams : s.Streams []

namespace Orderly

theorem new (capacity maxRooms clock : Nat) (idSeed : UInt64) :
    (Server.new capacity maxRooms clock idSeed).Orderly :=
  ⟨Links.new .., RoomsSound.new .., Streams.new ..⟩

theorem of_links (hl : s.Links) (h : s.Streams [] ∧ s.RoomsSound) : s.Orderly :=
  ⟨hl, h.2, h.1⟩

/-- Seating a connection: a live one is told it joined before the others hear of it; a dead one is
seated and unseated at once. -/
theorem addPlayer (h : s.Orderly) (roomId conn : Uuid) (cid : Nat) :
    (s.addPlayer roomId conn cid).2.Orderly := by
  suffices hs : (s.addPlayer roomId conn cid).2.Streams [] ∧
      (s.addPlayer roomId conn cid).2.RoomsSound from
    ⟨h.links.addPlayer roomId conn cid, hs.2, hs.1⟩
  unfold Server.addPlayer
  split
  · rename_i c r hc hr
    split
    · exact ⟨h.streams, h.rooms⟩
    · rename_i hfree
      simp only [Bool.or_eq_true, not_or, Bool.not_eq_true, Option.isSome_eq_false_iff,
        Option.isNone_iff_eq_none] at hfree
      split
      · exact ⟨h.streams, h.rooms⟩
      · rename_i hadm
        obtain ⟨hr₀, rfl⟩ := room?_eq_some hr
        have hroom := h.links.room_eq_none hc hfree.1
        have hno := h.links.not_mem hc fun rid hr => by rw [hroom] at hr; cases hr
        dsimp only
        have hs₁ : ((s.putRoom (r.seatPlayer conn c.playerId cid s.clock).2).updateConn conn
            fun c => { c with room := some r.id }).RoomsSound :=
          (h.rooms.putRoom ((h.rooms.agree r hr₀).seatPlayer hfree.2 hadm _ _) fun hst => by
            rw [Room.seatPlayer_stopped, Room.admits_stopped hadm] at hst
            cases hst).congr rfl
        have hget : ∀ j, ((s.putRoom (r.seatPlayer conn c.playerId cid s.clock).2).updateConn conn
            fun c => { c with room := some r.id }).hub.get? j = (s.hub.get? j).map fun c' =>
              if j = conn then { c' with room := some r.id } else c' := fun j =>
          get?_updateConn (f := fun c : Connection => { c with room := some r.id }) fun _ => rfl
        split
        · -- a dead connection: the others hear of the seat only as it is given up
          rename_i hdead
          have hdead' : c.alive = false := by simpa using hdead
          have h₁ : ((s.putRoom (r.seatPlayer conn c.playerId cid s.clock).2).updateConn conn
              fun c => { c with room := some r.id }).Streams ([] ++ []) :=
            Streams.updateRoomRef h.streams.sent (fun j c₀ q hc₀ ha hq => by
              by_cases hj : j = conn
              · subst hj
                rw [hc, Option.some.injEq] at hc₀
                rw [← hc₀, hdead'] at ha
                cases ha
              · exact (h.streams.live j c₀ q hc₀ ha hq).seat_quiet hr hj) conn r.id
          split
          · rename_i s₂ ts hu
            refine Streams.run (h₁.unseat hs₁ hu (fun _ h' => by cases h') (fun _ h' => by cases h')
              fun c' hc' ha => ?_) (hs₁.unseat hu)
            rw [hget, hc] at hc'
            simp only [Option.map_some, if_true, Option.some.injEq] at hc'
            rw [← hc', hdead'] at ha
            cases ha
          · exact ⟨h₁, hs₁⟩
        · refine Streams.run (by
            rw [List.append_nil]
            exact Streams.updateRoomRef h.streams.sent (fun j c₀ q hc₀ ha hq => by
              by_cases hj : j = conn
              · subst hj
                exact (h.streams.live j c₀ q hc₀ ha hq).seat_self hno hr hfree.2 hadm
              · exact (h.streams.live j c₀ q hc₀ ha hq).seat_other h.rooms hr hfree.2 hadm hj _)
              conn r.id) hs₁
  · exact ⟨h.streams, h.rooms⟩

/-- Leaving a room: the connection, if live, is told it left, the others that it is gone. -/
theorem removePlayer (h : s.Orderly) (roomId conn : Uuid) :
    (s.removePlayer roomId conn).2.Orderly := by
  refine of_links (h.links.removePlayer roomId conn) ?_
  unfold Server.removePlayer
  split
  · rename_i s₁ ts hu
    obtain ⟨R, st, R', hR, hRu, -, -⟩ := unseat_eq_some hu
    obtain ⟨hR₀, rfl⟩ := room?_eq_some hR
    have hconn := (Room.unseat_members hRu).2.2.1
    have h₀ : s.Streams ([] ++ []) := h.streams
    have h₁ := h₀.unseat h.rooms hu (fun _ h' => by cases h') (fun _ h' => by cases h')
      fun c hc _ => ⟨rfl, fun R₂ hR₂ hm => ?_⟩
    · exact Streams.run h₁ (h.rooms.unseat hu)
    have h₂ := h.links.room_of_mem hR₂ hm hc
    rw [h.links.room_of_mem hR₀ hconn hc, Option.some.injEq] at h₂
    exact h₂.symm
  · exact ⟨h.streams, h.rooms⟩

theorem setReady (h : s.Orderly) (roomId conn : Uuid) (ready : Bool) :
    (s.setReady roomId conn ready).2.Orderly := by
  refine of_links (h.links.setReady roomId conn ready) ?_
  unfold Server.setReady
  split
  · rename_i r hr
    split
    · rename_i r' hr'
      obtain ⟨hr₀, rfl⟩ := room?_eq_some hr
      obtain ⟨hid, hst, hfr⟩ := Room.setReady_stage hr'
      exact ⟨h.streams.putRoom_same (hid ▸ hr) (Room.seat?_setReady hr') ⟨hst, hfr⟩,
        h.rooms.putRoom_same hr₀ (Room.setReady_sameMembers hr')
          ((h.rooms.agree r hr₀).setReady hr')⟩
    · exact ⟨h.streams, h.rooms⟩
  · exact ⟨h.streams, h.rooms⟩

theorem handleInput (h : s.Orderly) (roomId conn : Uuid) (input : PlayerInput) :
    (s.handleInput roomId conn input).2.Orderly := by
  refine of_links (h.links.handleInput roomId conn input) ?_
  unfold Server.handleInput
  split
  · rename_i r hr
    split
    · rename_i sp r' hr'
      obtain ⟨hr₀, rfl⟩ := room?_eq_some hr
      obtain ⟨hseats, hst, hfr⟩ := Room.handleInput_seats hr'
      have hsame := Room.handleInput_sameMembers hr'
      exact ⟨h.streams.putRoom_same (hsame.id ▸ hr) (fun i => by simp only [Room.seat?, hseats])
          ⟨hst, hfr⟩,
        h.rooms.putRoom_same hr₀ hsame ((h.rooms.agree r hr₀).handleInput hr')⟩
    · exact ⟨h.streams, h.rooms⟩
  · exact ⟨h.streams, h.rooms⟩

theorem createRoom (h : s.Orderly) (config : RoomConfig) : (s.createRoom config).2.Orderly := by
  refine of_links (h.links.createRoom config) ?_
  unfold Server.createRoom
  split
  · exact ⟨h.streams, h.rooms⟩
  · split
    · exact ⟨h.streams, h.rooms⟩
    · refine ⟨h.streams.appendRoom rfl rfl rfl, ⟨fun R hR => ?_, fun R hR hs => ?_⟩⟩ <;>
        rcases List.mem_append.1 hR with hR | hR
      · exact h.rooms.agree R hR
      · rw [List.mem_singleton.1 hR]
        exact Room.SeatsAgree.new ..
      · exact h.rooms.stopped R hR hs
      · rw [List.mem_singleton.1 hR]
        rfl

/-- A tick tells each member what the step did. -/
theorem tick (h : s.Orderly) {roomId : Uuid} {dt : Float32} (ht : s.tick roomId dt = .ok s') :
    s'.Orderly := by
  obtain ⟨out, s₁, hs, hrooms, hhub⟩ := tick_eq_ok ht
  suffices hs₂ : (s₁.run (out.msgs.flatMap fun m =>
      (((s₁.room? roomId).map Room.members).getD []).map (Task.deliver · m))).Streams [] ∧
      (s₁.run (out.msgs.flatMap fun m =>
        (((s₁.room? roomId).map Room.members).getD []).map (Task.deliver · m))).RoomsSound from
    of_links (h.links.tick ht) ⟨hs₂.1.congr hrooms hhub, hs₂.2.congr hrooms⟩
  rcases step_eq_ok hs with ⟨rfl, rfl⟩ | ⟨r, r', hr, hr', rfl⟩
  · rw [TickOutput.msgs_none, List.flatMap_nil, run.eq_1]
    exact ⟨h.streams, h.rooms⟩
  · obtain ⟨hr₀, rfl⟩ := room?_eq_some hr
    have hid := (Room.step_sameMembers hr').id
    have hR' : (s.putRoom r').room? r.id = some r' := hid ▸ room?_putRoom_self (hid ▸ hr)
    have hag := (h.rooms.agree r hr₀).step hr'
    have hs₁ : (s.putRoom r').RoomsSound :=
      h.rooms.putRoom_same hr₀ (Room.step_sameMembers hr') hag
    rw [hR', Option.map_some, Option.getD_some]
    refine Streams.run (by
      rw [List.append_nil]
      exact ⟨h.streams.sent, fun j c q hc ha hq =>
        (h.streams.live j c q hc ha hq).step hr hr' hag.conns⟩) hs₁

/-- Ending a room tells its members the game ended, if it was playing, and that they left. -/
theorem terminate (h : s.Orderly) (y : Uuid) : (s.terminate y).Orderly := by
  refine of_links (h.links.terminate y).1 ?_
  cases hr : s.room? y with
  | none =>
    unfold Server.terminate
    rw [hr]
    exact ⟨h.streams, h.rooms⟩
  | some r =>
    cases hs : r.stopped with
    | true =>
      unfold Server.terminate
      rw [hr]
      simp only [hs, if_true]
      exact ⟨h.streams, h.rooms⟩
    | false =>
      obtain ⟨hr₀, rfl⟩ := room?_eq_some hr
      obtain ⟨s₂, he, hrooms, hhub, -⟩ := terminate_eq hr hs
      obtain ⟨hid, hm, -, hends⟩ :
          (r.terminate s.clock).2.id = r.id ∧ (r.terminate s.clock).2.members = [] ∧ _ ∧ _ :=
        Room.terminate_running hs
      have hs₂ : s₂.RoomsSound := (h.rooms.putRoom (h.rooms.agree r hr₀).terminate
        fun _ => hm).congr hrooms
      rw [he]
      exact Streams.run (by
        rw [List.append_nil]
        refine ⟨fun j c hc => h.streams.sent j c (hhub ▸ hc), fun j c q hc ha hq => ?_⟩
        rw [hhub] at hc
        refine ((h.streams.live j c q hc ha hq).terminate hr hid hm
          (hends.imp And.left id)
          (h.rooms.agree r hr₀).conns fun R hR hjR hj => ?_).congr hrooms
        have h₁ := h.links.room_of_mem hR hjR hc
        rw [h.links.room_of_mem hr₀ hj hc, Option.some.injEq] at h₁
        exact h₁.symm) hs₂

theorem foldl_terminate (h : s.Orderly) (ys : List Uuid) : (ys.foldl Server.terminate s).Orderly := by
  induction ys generalizing s with
  | nil => exact h
  | cons y ys ih => exact ih (h.terminate y)

/-- Dropping the rooms of ids that no connection names. -/
theorem filterRooms (h : s.Orderly) (keep : Uuid → Bool)
    (hun : ∀ x, keep x = false → s.Unreferenced x)
    (hrooms : s'.rooms = s.rooms.filter fun r => keep r.id) (hhub : s'.hub = s.hub) :
    s'.Orderly :=
  ⟨h.links.filterRooms keep hun hrooms hhub,
    h.rooms.sub fun _ hR => (List.mem_filter.1 (hrooms ▸ hR)).1,
    h.streams.filterRooms keep hrooms hhub fun R hR hk =>
      h.links.members_eq_nil (hun R.id hk) hR rfl⟩

theorem sweep (h : s.Orderly) (now : Nat) : (s.sweep now).2.Orderly := by
  let due := (s.rooms.filter (·.shouldCleanup now)).map (·.id)
  obtain ⟨-, hU, -⟩ := h.links.foldl_terminate due
  exact (h.foldl_terminate due).filterRooms (fun x => !due.contains x)
    (fun x hx => hU x (by simpa using hx)) rfl rfl

theorem shutdownAll (h : s.Orderly) : s.shutdownAll.Orderly :=
  (h.foldl_terminate _).filterRooms (fun _ => false)
    (fun x _ => h.links.unreferenced_terminate_all x) (by simp [Server.shutdownAll]) rfl

/-- Messages about no room, and closes. -/
theorem settle_quiet (h : s.Orderly) (hts : ∀ t ∈ ts, t.quiet = true) : (s.settle ts).Orderly :=
  of_links (h.links.run_plain fun t ht => by
      have := hts t ht
      cases t <;> simp_all [Task.quiet, Task.plain])
    (h.streams.settle_quiet h.rooms hts)

theorem send (h : s.Orderly) (conn : Uuid) {msg : ServerMsg} (hm : msg.aboutRoom = false) :
    (s.send conn msg).Orderly :=
  h.settle_quiet (by simp [Task.quiet, hm])

theorem broadcast (h : s.Orderly) {msg : ServerMsg} (hm : msg.aboutRoom = false)
    (conns : List Uuid) : (s.broadcast msg conns).Orderly :=
  h.settle_quiet (by simp [Task.quiet, hm])

theorem close (h : s.Orderly) (conn : Uuid) : (s.close conn).Orderly :=
  h.settle_quiet (by simp [Task.quiet])

theorem closeAll (h : s.Orderly) : s.closeAll.Orderly :=
  h.settle_quiet (by simp [Task.quiet])

theorem connect (h : s.Orderly) (playerId : Int) : (s.connect playerId).2.Orderly :=
  ⟨h.links.connect playerId, h.rooms.congr rfl, h.streams.connect h.links playerId⟩

/-- A client's request keeps the invariant, refused or not: a pong is about no room. -/
theorem keptByRequests : KeptByRequests Orderly where
  createRoom config h := h.createRoom config
  addPlayer roomId conn characterId h := h.addPlayer roomId conn characterId
  removePlayer roomId conn h := h.removePlayer roomId conn
  setReady roomId conn ready h := h.setReady roomId conn ready
  handleInput roomId conn input h := h.handleInput roomId conn input
  pong conn _ h := h.send conn rfl

end Orderly

/-- A call that sends a message of its own sends one about no room: what connections are told
about rooms, the rooms tell them. -/
def Call.fair : Call → Bool
  | .send _ msg => !msg.aboutRoom
  | .broadcast msg _ => !msg.aboutRoom
  | .notifyPlayer _ msg => !msg.aboutRoom
  | _ => true

/-- Every fair call keeps the invariant. -/
theorem Orderly.call (h : s.Orderly) {k : Call} (hk : k.fair = true) (hc : s.call k = .ok s') :
    s'.Orderly := by
  cases k with
  | tick roomId dt => exact h.tick hc
  | connect playerId =>
    obtain rfl := Except.pure_eq_ok.1 hc
    exact h.connect playerId
  | send conn msg =>
    obtain rfl := Except.pure_eq_ok.1 hc
    exact h.send conn (by simpa [Call.fair] using hk)
  | broadcast msg conns =>
    obtain rfl := Except.pure_eq_ok.1 hc
    exact h.broadcast (by simpa [Call.fair] using hk) conns
  | notifyPlayer playerId msg =>
    obtain rfl := Except.pure_eq_ok.1 hc
    exact h.broadcast (by simpa [Call.fair] using hk) _
  | close conn =>
    obtain rfl := Except.pure_eq_ok.1 hc
    exact h.close conn
  | closeAll =>
    obtain rfl := Except.pure_eq_ok.1 hc
    exact h.closeAll
  | createRoom config =>
    obtain rfl := Except.pure_eq_ok.1 hc
    exact h.createRoom config
  | sweep now =>
    obtain rfl := Except.pure_eq_ok.1 hc
    exact h.sweep now
  | shutdownAll =>
    obtain rfl := Except.pure_eq_ok.1 hc
    exact h.shutdownAll
  | dispatch conn msg =>
    obtain rfl := Except.pure_eq_ok.1 hc
    -- a refusal is about no room either
    exact Orderly.keptByRequests.dispatch (fun conn _ h => h.send conn rfl) h conn msg
  | addPlayer roomId conn characterId =>
    obtain rfl := Except.pure_eq_ok.1 hc
    exact h.addPlayer roomId conn characterId
  | removePlayer roomId conn =>
    obtain rfl := Except.pure_eq_ok.1 hc
    exact h.removePlayer roomId conn
  | setReady roomId conn ready =>
    obtain rfl := Except.pure_eq_ok.1 hc
    exact h.setReady roomId conn ready
  | handleInput roomId conn input =>
    obtain rfl := Except.pure_eq_ok.1 hc
    exact h.handleInput roomId conn input
  | terminate roomId =>
    obtain rfl := Except.pure_eq_ok.1 hc
    exact h.terminate roomId
  | wait now =>
    obtain rfl := Except.pure_eq_ok.1 hc
    exact ⟨h.links.congr rfl fun _ => rfl, h.rooms.congr rfl, h.streams.congr rfl rfl⟩

/-- The states a new server reaches by fair calls, one after another. -/
inductive FairlyReachable : Server → Prop
  | new (capacity maxRooms clock : Nat) (idSeed : UInt64) :
      FairlyReachable (Server.new capacity maxRooms clock idSeed)
  | call {s s' : Server} (k : Call) : k.fair = true → FairlyReachable s → s.call k = .ok s' →
      FairlyReachable s'

theorem FairlyReachable.orderly (h : s.FairlyReachable) : s.Orderly := by
  induction h with
  | new capacity maxRooms clock idSeed => exact Orderly.new capacity maxRooms clock idSeed
  | call k hk _ hc ih => exact ih.call hk hc

end Server

end Skirmish
