import Skirmish.Proofs.Room.Seats
import Skirmish.Proofs.Server.Links

/-!
# Tenures of a connection in rooms

What a connection is sent about rooms comes in tenures, one room after another: a tenure opens
with `room_joined`; inside it come the joins and departures of other players, the start of the
game before any frame, frames numbered one after another, and the end of the game after the last
frame; `room_left` closes it, unless the connection is closed first. `Tenure` is where a stream
stands, and `Tenure.run` reads a stream message by message, failing at the first message that
does not fit.

A worklist still to run will send a connection more: `Task.pendingFor` is what it sends the
connection before closing it. `Streams s ts` says that the streams of `s`, continued by what `ts`
still sends, keep the tenure form and end where each connection sits (`Server.Fits`), and every
task keeps it (`Streams.perform`), so whole worklists do (`Streams.run`).
-/

namespace Skirmish

/-- Where a connection's stream stands: outside any room, or in a room as the entity it plays
there, before the game, in it with the number of the last frame it was sent, or after it. -/
inductive Tenure where
  | idle
  | waiting (room : Uuid) (entity : Nat)
  | playing (room : Uuid) (entity : Nat) (lastFrame : Option Nat)
  | ended (room : Uuid) (entity : Nat)

/-- Whether a message is about a room: the messages tenures are made of. -/
def ServerMsg.aboutRoom : ServerMsg → Bool
  | .welcome .. | .matchFound .. | .error .. | .pong .. => false
  | _ => true

namespace Tenure

/-- The room a stream stands in and the entity it plays there. -/
def place : Tenure → Option (Uuid × Nat)
  | idle => none
  | waiting r e => some (r, e)
  | playing r e _ => some (r, e)
  | ended r e => some (r, e)

/-- The next message of a stream, if it fits: `room_joined` opens a tenure; the game starts once,
before any frame; frames are numbered one after another; the game ends once, after the last
frame; other players join and leave inside a tenure; `room_left` of the room closes it. Messages
about no room leave the stream where it stands. -/
def step : Tenure → ServerMsg → Option Tenure
  | idle, .roomJoined room e _ _ => some (waiting room.id e)
  | waiting r e, .gameStart r' _ _ _ => if r' = r then some (playing r e none) else none
  | playing r e last, .frame p =>
    if last.all (p.frameId = · + 1) then some (playing r e (some p.frameId)) else none
  | playing r e _, .gameEnd r' _ _ _ _ => if r' = r then some (ended r e) else none
  | q, .playerJoined p => if q.place.any (·.2 ≠ p.entityId) then some q else none
  | q, .playerLeft _ e' => if q.place.any (·.2 ≠ e') then some q else none
  | q, .roomLeft r' => if q.place.any (·.1 = r') then some idle else none
  | q, .welcome .. => some q
  | q, .matchFound .. => some q
  | q, .error .. => some q
  | q, .pong .. => some q
  | _, _ => none

/-- Reads a stream, failing at the first message that does not fit. -/
def run (q : Tenure) : List ServerMsg → Option Tenure
  | [] => some q
  | m :: ms => (q.step m).bind fun q' => q'.run ms

@[simp] theorem run_nil (q : Tenure) : q.run [] = some q := rfl

theorem run_cons (q : Tenure) (m : ServerMsg) (ms : List ServerMsg) :
    q.run (m :: ms) = (q.step m).bind fun q' => q'.run ms := rfl

theorem run_append (q : Tenure) (a b : List ServerMsg) :
    q.run (a ++ b) = (q.run a).bind fun q' => q'.run b := by
  induction a generalizing q with
  | nil => rfl
  | cons m ms ih =>
    rw [List.cons_append, run_cons, run_cons]
    cases q.step m with
    | none => rfl
    | some q' => exact ih q'

theorem run_cons_eq_some {m : ServerMsg} {ms : List ServerMsg} {q q' : Tenure} :
    q.run (m :: ms) = some q' ↔ ∃ q₁, q.step m = some q₁ ∧ q₁.run ms = some q' := by
  rw [run_cons, Option.bind_eq_some_iff]

/-- Another player leaving keeps the stream where it stands. -/
theorem step_playerLeft {q : Tenure} {r : Uuid} {e e' : Nat} (hq : q.place = some (r, e))
    (he : e ≠ e') (p : Int) : q.step (.playerLeft p e') = some q := by
  unfold step
  split <;> simp_all [place]

theorem step_playerJoined {q : Tenure} {r : Uuid} {e : Nat} {p : PlayerInfo}
    (hq : q.place = some (r, e)) (he : e ≠ p.entityId) : q.step (.playerJoined p) = some q := by
  unfold step
  split <;> simp_all [place]

theorem run_replicate_playerLeft {q : Tenure} {r : Uuid} {e e' : Nat} (hq : q.place = some (r, e))
    (he : e ≠ e') (p : Int) (n : Nat) : q.run (List.replicate n (.playerLeft p e')) = some q := by
  induction n with
  | zero => rfl
  | succ n ih => rw [List.replicate_succ, run_cons, step_playerLeft hq he, Option.bind_some, ih]

theorem run_replicate_playerJoined {q : Tenure} {r : Uuid} {e : Nat} {p : PlayerInfo}
    (hq : q.place = some (r, e)) (he : e ≠ p.entityId) (n : Nat) :
    q.run (List.replicate n (.playerJoined p)) = some q := by
  induction n with
  | zero => rfl
  | succ n ih => rw [List.replicate_succ, run_cons, step_playerJoined hq he, Option.bind_some, ih]

theorem step_of_aboutRoom {q : Tenure} {m : ServerMsg} (h : m.aboutRoom = false) :
    q.step m = some q := by
  cases m <;> cases q <;> simp_all [ServerMsg.aboutRoom, step]

theorem run_of_aboutRoom {q : Tenure} {ms : List ServerMsg} (h : ∀ m ∈ ms, m.aboutRoom = false) :
    q.run ms = some q := by
  induction ms with
  | nil => rfl
  | cons m ms ih =>
    rw [run_cons, step_of_aboutRoom (h m List.mem_cons_self), Option.bind_some]
    exact ih fun m' hm => h m' (List.mem_cons_of_mem _ hm)

theorem step_roomLeft {q : Tenure} {r : Uuid} {e : Nat} (hq : q.place = some (r, e)) :
    q.step (.roomLeft r) = some idle := by
  cases q <;> simp_all [step, place]

/-- Inside a room a stream stays in it, until `room_left`. -/
theorem place_step {q q' : Tenure} {m : ServerMsg} {p : Uuid × Nat} (hq : q.place = some p)
    (hs : q.step m = some q') : q'.place = some p ∨ ∃ r, m = .roomLeft r := by
  cases m with
  | roomLeft r => exact .inr ⟨r, rfl⟩
  | _ =>
    left
    cases q <;> simp [step, place] at hs hq <;> grind [place]

end Tenure

/-- What a worklist still sends a connection, up to the task that closes it. -/
def Task.pendingFor (i : Uuid) : List Task → List ServerMsg
  | [] => []
  | .deliver c m :: ts => if c = i then m :: Task.pendingFor i ts else Task.pendingFor i ts
  | .close c :: ts => if c = i then [] else Task.pendingFor i ts
  | .release _ _ :: ts => Task.pendingFor i ts

namespace Task

variable {i : Uuid} {ts : List Task}

@[simp] theorem pendingFor_nil : pendingFor i [] = [] := rfl

theorem pendingFor_deliver_self (m : ServerMsg) (ts : List Task) :
    pendingFor i (.deliver i m :: ts) = m :: pendingFor i ts := by
  simp [pendingFor]

theorem pendingFor_deliver_of_ne {c : Uuid} (h : c ≠ i) (m : ServerMsg) (ts : List Task) :
    pendingFor i (.deliver c m :: ts) = pendingFor i ts := by
  simp [pendingFor, h]

theorem pendingFor_close_self (ts : List Task) : pendingFor i (.close i :: ts) = [] := by
  simp [pendingFor]

theorem pendingFor_close_of_ne {c : Uuid} (h : c ≠ i) (ts : List Task) :
    pendingFor i (.close c :: ts) = pendingFor i ts := by
  simp [pendingFor, h]

theorem pendingFor_release (room : Uuid) (conns : List Uuid) (ts : List Task) :
    pendingFor i (.release room conns :: ts) = pendingFor i ts := rfl

/-- A worklist that does not close the connection sends it what each part does. -/
theorem pendingFor_append {a : List Task} (ha : Task.close i ∉ a) (b : List Task) :
    pendingFor i (a ++ b) = pendingFor i a ++ pendingFor i b := by
  induction a with
  | nil => rfl
  | cons t a ih =>
    have ih' := ih fun h => ha (List.mem_cons_of_mem _ h)
    cases t with
    | deliver c m =>
      by_cases hc : c = i
      · rw [hc, List.cons_append, pendingFor_deliver_self, pendingFor_deliver_self, ih',
          List.cons_append]
      · rw [List.cons_append, pendingFor_deliver_of_ne hc, pendingFor_deliver_of_ne hc, ih']
    | close c =>
      have hc : c ≠ i := fun h => ha (h ▸ List.mem_cons_self)
      rw [List.cons_append, pendingFor_close_of_ne hc, pendingFor_close_of_ne hc, ih']
    | release room conns => exact ih'

/-- A message for each of some connections reaches a connection as often as it is among them. -/
theorem pendingFor_map_deliver (conns : List Uuid) (m : ServerMsg) :
    pendingFor i (conns.map (Task.deliver · m)) = List.replicate (conns.count i) m := by
  induction conns with
  | nil => rfl
  | cons c cs ih =>
    rw [List.map_cons, List.count_cons]
    by_cases hc : c = i
    · subst hc
      rw [pendingFor_deliver_self, ih]
      simp [List.replicate_succ]
    · rw [pendingFor_deliver_of_ne hc, ih]
      simp [hc]

theorem close_not_mem_map_deliver (conns : List Uuid) (m : ServerMsg) :
    Task.close i ∉ conns.map (Task.deliver · m) := by
  simp

/-- The connection a task delivers to or closes. -/
def conn? : Task → Option Uuid
  | .deliver c _ => some c
  | .close c => some c
  | .release _ _ => none

theorem pendingFor_cons_of_conn?_ne {t : Task} (h : t.conn? ≠ some i) (ts : List Task) :
    pendingFor i (t :: ts) = pendingFor i ts := by
  cases t with
  | deliver c m => exact pendingFor_deliver_of_ne (fun hc => h (by rw [← hc]; rfl)) m ts
  | close c => exact pendingFor_close_of_ne (fun hc => h (by rw [← hc]; rfl)) ts
  | release room conns => rfl

theorem close_mem_cons_iff {t : Task} (h : t.conn? ≠ some i) : close i ∈ t :: ts ↔ close i ∈ ts := by
  rw [List.mem_cons, or_iff_right]
  rintro rfl
  exact h rfl

/-- Tasks about other connections send a connection nothing and do not close it. -/
theorem pendingFor_append_of_conn?_ne {pre : List Task} (h : ∀ t ∈ pre, t.conn? ≠ some i)
    (ts : List Task) : pendingFor i (pre ++ ts) = pendingFor i ts ∧ (close i ∈ pre ++ ts ↔ close i ∈ ts) := by
  induction pre with
  | nil => exact ⟨rfl, Iff.rfl⟩
  | cons t pre ih =>
    have ht := h t List.mem_cons_self
    obtain ⟨ih₁, ih₂⟩ := ih fun t' ht' => h t' (List.mem_cons_of_mem _ ht')
    rw [List.cons_append, pendingFor_cons_of_conn?_ne ht, close_mem_cons_iff ht]
    exact ⟨ih₁, ih₂⟩

end Task

namespace Tenure

/-- A stream stands at the stage of a room's game: before it while the room waits, in it with the
room's last frame while it plays, after it once it ended. -/
def AtStage : Tenure → Room → Prop
  | idle, _ => True
  | waiting _ _, R => R.status = .waiting
  | playing _ _ last, R => R.status = .playing ∧ ∀ k, last = some k → k = R.frameId
  | ended _ _, R => R.status = .ended

theorem AtStage.congr {q : Tenure} {R R' : Room} (h : q.AtStage R) (hs : R'.status = R.status)
    (hf : R'.frameId = R.frameId) : q.AtStage R' := by
  cases q <;> simp_all [AtStage]

/-- A stream placed in a waiting room, at its stage, waits in it. -/
theorem AtStage.eq_waiting {q : Tenure} {R : Room} {rid : Uuid} {e : Nat} (h : q.AtStage R)
    (hq : q.place = some (rid, e)) (hst : R.status = .waiting) : q = .waiting rid e := by
  cases q <;> simp_all [AtStage, place]

/-- A stream placed in a playing room, at its stage, plays in it and was sent no frame past the
room's. -/
theorem AtStage.eq_playing {q : Tenure} {R : Room} {rid : Uuid} {e : Nat} (h : q.AtStage R)
    (hq : q.place = some (rid, e)) (hst : R.status = .playing) :
    ∃ last, q = .playing rid e last ∧ ∀ k, last = some k → k = R.frameId := by
  cases q <;> simp_all [AtStage, place]

end Tenure

namespace Room

variable {r r' : Room} {i j conn : Uuid} {now : Nat} {st : Seat}

/-- Leaving keeps every other seat. -/
theorem seat?_unseat_of_ne (h : r.unseat conn now = some (st, r')) (hj : j ≠ conn) :
    r'.seat? j = r.seat? j := by
  obtain ⟨-, rfl⟩ := unseat_eq_some.1 h
  simp only [seat?, List.find?_filter]
  congr 1
  funext a
  by_cases ha : a.connection = j
  · simp [ha, hj]
  · simp [ha]

theorem unseat_stage (h : r.unseat conn now = some (st, r')) :
    r'.status = r.status ∧ r'.frameId = r.frameId := by
  obtain ⟨-, rfl⟩ := unseat_eq_some.1 h
  exact ⟨rfl, rfl⟩

/-- Two seats of a room that is not stopped are two entities. -/
theorem SeatsAgree.entityId_ne (h : r.SeatsAgree) (hs : r.stopped = false) {si sj : Seat}
    (hi : r.seat? i = some si) (hj : r.seat? j = some sj) (hij : i ≠ j) :
    si.entityId ≠ sj.entityId := by
  obtain ⟨hi₁, rfl⟩ := seat?_eq_some hi
  obtain ⟨hj₁, rfl⟩ := seat?_eq_some hj
  have hnd : (r.seats.map (·.entityId)).Nodup := (h.sorted hs).imp Nat.ne_of_lt
  exact fun he => hij (congrArg Seat.connection (List.inj_on_of_nodup_map hnd hi₁ hj₁ he))

end Room

namespace Server

variable {s s' : Server} {r R R' : Room} {q : Tenure} {i j rid : Uuid} {c : Connection}
  {t : Task} {ts : List Task}

/-! ## Where a stream fits -/

/-- A stream fits where its connection sits: in no room while it stands outside rooms; otherwise
in the room it stands in, as the entity of the connection's seat there, at the stage of the
room's game. -/
def Fits (s : Server) (i : Uuid) (q : Tenure) : Prop :=
  match q.place with
  | none => ∀ R ∈ s.rooms, i ∉ R.members
  | some (rid, e) => ∃ R st, s.room? rid = some R ∧ R.seat? i = some st ∧ st.entityId = e ∧
      q.AtStage R

theorem fits_of_place_none (hq : q.place = none) : s.Fits i q ↔ ∀ R ∈ s.rooms, i ∉ R.members := by
  unfold Fits
  rw [hq]

theorem fits_of_place_some {e : Nat} (hq : q.place = some (rid, e)) :
    s.Fits i q ↔ ∃ R st, s.room? rid = some R ∧ R.seat? i = some st ∧ st.entityId = e ∧
      q.AtStage R := by
  unfold Fits
  rw [hq]

theorem fits_congr (hr : s'.rooms = s.rooms) : s'.Fits i q ↔ s.Fits i q := by
  unfold Fits room?
  rw [hr]

/-- A room put in place of the one its id finds keeps a stream fitting, when the connection keeps
the entity of its seat there and, if it sits there, the room keeps the stage of its game. -/
theorem Fits.putRoom (h : s.Fits i q) (hR : s.room? r.id = some R)
    (hseat : (r.seat? i).map (·.entityId) = (R.seat? i).map (·.entityId))
    (hstage : i ∈ R.members → r.status = R.status ∧ r.frameId = R.frameId) :
    (s.putRoom r).Fits i q := by
  have hsome : (r.seat? i).isSome = (R.seat? i).isSome := by
    simpa using congrArg Option.isSome hseat
  cases hq : q.place with
  | none =>
    rw [fits_of_place_none hq] at h ⊢
    intro R₂ hR₂ hi
    rcases mem_putRoom hR₂ with rfl | ⟨hR₂, -⟩
    · rw [← Room.seat?_isSome_iff, hsome, Room.seat?_isSome_iff] at hi
      exact h R (room?_eq_some hR).1 hi
    · exact h R₂ hR₂ hi
  | some p =>
    obtain ⟨rid, e⟩ := p
    rw [fits_of_place_some hq] at h ⊢
    obtain ⟨R₂, st, hR₂, hst, he, hat⟩ := h
    by_cases hrid : rid = r.id
    · subst hrid
      rw [hR, Option.some.injEq] at hR₂
      subst hR₂
      rw [hst] at hseat
      obtain ⟨st', hst', he'⟩ : ∃ st', r.seat? i = some st' ∧ st'.entityId = st.entityId := by
        cases h' : r.seat? i <;> simp_all
      obtain ⟨hs, hf⟩ := hstage (Room.seat?_isSome_iff.1 (by simp [hst]))
      exact ⟨r, st', room?_putRoom_self hR, hst', he'.trans he, hat.congr hs hf⟩
    · exact ⟨R₂, st, (room?_putRoom_of_ne hrid).trans hR₂, hst, he, hat⟩

/-- A connection that sits in neither the old nor the new state of a room keeps its stream
fitting. -/
theorem Fits.putRoom_of_not_mem (h : s.Fits i q) (hR : s.room? r.id = some R) (hi : i ∉ R.members)
    (hi' : i ∉ r.members) : (s.putRoom r).Fits i q := by
  have hnone : ∀ R : Room, i ∉ R.members → R.seat? i = none := fun R hi =>
    Option.not_isSome_iff_eq_none.1 fun h => hi (Room.seat?_isSome_iff.1 h)
  exact h.putRoom hR (by rw [hnone R hi, hnone r hi']) fun h => absurd h hi

/-! ## Rooms whose seats agree -/

/-- Every room's seats agree with its world, and a stopped room has no seats. -/
structure RoomsSound (s : Server) : Prop where
  agree : ∀ R ∈ s.rooms, R.SeatsAgree
  stopped : ∀ R ∈ s.rooms, R.stopped = true → R.members = []

theorem RoomsSound.congr (h : s.RoomsSound) (hr : s'.rooms = s.rooms) : s'.RoomsSound :=
  ⟨hr ▸ h.agree, hr ▸ h.stopped⟩

theorem RoomsSound.putRoom (h : s.RoomsSound) (ha : r.SeatsAgree)
    (hs : r.stopped = true → r.members = []) : (s.putRoom r).RoomsSound where
  agree R hR := by
    rcases mem_putRoom hR with rfl | ⟨hR, -⟩
    · exact ha
    · exact h.agree R hR
  stopped R hR := by
    rcases mem_putRoom hR with rfl | ⟨hR, -⟩
    · exact hs
    · exact h.stopped R hR

/-- Two connections seated in one room play two entities. -/
theorem RoomsSound.entityId_ne (h : s.RoomsSound) (hR : R ∈ s.rooms) {si sj : Seat}
    (hi : R.seat? i = some si) (hj : R.seat? j = some sj) (hij : i ≠ j) :
    si.entityId ≠ sj.entityId := by
  have hs : R.stopped = false := by
    cases hst : R.stopped
    · rfl
    · have hmem := Room.seat?_isSome_iff.1 (by simp [hi] : (R.seat? i).isSome)
      rw [h.stopped R hR hst] at hmem
      cases hmem
  exact (h.agree R hR).entityId_ne hs hi hj hij

theorem RoomsSound.unseat (h : s.RoomsSound) {us : List Task}
    (hu : s.unseat rid i = some (s', us)) : s'.RoomsSound := by
  obtain ⟨R, st, R', hR, hRu, rfl, -⟩ := unseat_eq_some hu
  obtain ⟨-, hstop, -, hmem⟩ := Room.unseat_members hRu
  have hR₀ := (room?_eq_some hR).1
  refine (h.putRoom ((h.agree R hR₀).unseat hRu) fun hs => ?_).congr rfl
  rw [hstop] at hs
  have hnil := h.stopped R hR₀ hs
  exact List.eq_nil_iff_forall_not_mem.2 fun j hj => by simp [hnil] at hmem; exact hmem j hj

/-! ## Streams continued by a worklist -/

/-- What a worklist still sends a live connection whose stream stands at `q`: it continues the
stream to one that fits where the connection will sit, unless the worklist closes it; where the
connection sits now, its stream stands already, unless the next task closes it or puts it there;
and once it is to be told it left a room, it sits in none. -/
structure Continues (s : Server) (ts : List Task) (i : Uuid) (q : Tenure) : Prop where
  pending : ∃ q', q.run (Task.pendingFor i ts) = some q' ∧ (Task.close i ∉ ts → s.Fits i q')
  seated : ∀ R ∈ s.rooms, ∀ st, R.seat? i = some st →
    q.place = some (R.id, st.entityId) ∨ ts.head? = some (.close i) ∨
      ∃ m q', ts.head? = some (.deliver i m) ∧ q.step m = some q' ∧
        q'.place = some (R.id, st.entityId)
  leaving : ∀ rid, ServerMsg.roomLeft rid ∈ Task.pendingFor i ts → ∀ R ∈ s.rooms, i ∉ R.members

/-- The streams of a server, with a worklist still to run: every queue reads as tenures, and what
the worklist still sends each live connection continues its stream. -/
structure Streams (s : Server) (ts : List Task) : Prop where
  sent : ∀ i c, s.hub.get? i = some c → (Tenure.idle.run c.outbox).isSome
  live : ∀ i c q, s.hub.get? i = some c → c.alive = true → Tenure.idle.run c.outbox = some q →
    s.Continues ts i q

namespace Continues

theorem congr (h : s.Continues ts i q) (hr : s'.rooms = s.rooms) : s'.Continues ts i q where
  pending := by
    obtain ⟨q', hq', hfit⟩ := h.pending
    exact ⟨q', hq', fun hc => (fits_congr hr).2 (hfit hc)⟩
  seated := hr ▸ h.seated
  leaving := hr ▸ h.leaving

/-- When the next task is not about the connection, its stream stands where it sits. -/
theorem placed (h : s.Continues ts i q) (hhead : ∀ t ∈ ts.head?, t.conn? ≠ some i)
    (hR : R ∈ s.rooms) {st : Seat} (hst : R.seat? i = some st) :
    q.place = some (R.id, st.entityId) := by
  rcases h.seated R hR st hst with hp | hc | ⟨m, -, hd, -⟩
  · exact hp
  · exact absurd rfl (hhead _ hc)
  · exact absurd rfl (hhead _ hd)

/-- With nothing left to run, a live stream fits where its connection sits. -/
theorem fits (h : s.Continues [] i q) : s.Fits i q := by
  obtain ⟨q', hq', hfit⟩ := h.pending
  rw [Task.pendingFor_nil, Tenure.run_nil, Option.some.injEq] at hq'
  exact hq' ▸ hfit (by simp)

/-- With nothing left to run, a stream stands where its connection sits. -/
theorem placed_nil (h : s.Continues [] i q) (hR : R ∈ s.rooms) {st : Seat}
    (hst : R.seat? i = some st) : q.place = some (R.id, st.entityId) :=
  h.placed (fun _ h' => by cases h') hR hst

/-- A task about another connection, or a release, changes nothing of what a connection is sent. -/
theorem tail (h : s.Continues (t :: ts) i q) (ht : t.conn? ≠ some i) : s.Continues ts i q where
  pending := by
    obtain ⟨q', hq', hfit⟩ := h.pending
    rw [Task.pendingFor_cons_of_conn?_ne ht, Task.close_mem_cons_iff ht] at *
    exact ⟨q', hq', hfit⟩
  seated R hR st hst := .inl (h.placed (fun t' h' => by cases h'; exact ht) hR hst)
  leaving rid hl := h.leaving rid (by rwa [Task.pendingFor_cons_of_conn?_ne ht])

theorem cons (h : s.Continues ts i q)
    (hplaced : ∀ R ∈ s.rooms, ∀ st, R.seat? i = some st → q.place = some (R.id, st.entityId))
    (ht : t.conn? ≠ some i) : s.Continues (t :: ts) i q where
  pending := by
    rw [Task.pendingFor_cons_of_conn?_ne ht, Task.close_mem_cons_iff ht]
    exact h.pending
  seated R hR st hst := .inl (hplaced R hR st hst)
  leaving rid hl := h.leaving rid (by rwa [Task.pendingFor_cons_of_conn?_ne ht] at hl)

end Continues

/-! ## What each task keeps -/

/-- A task that leaves the queues and the rooms as they are and is about no live connection,
such as a release, keeps the streams; connections it kills drop out. -/
theorem Streams.keep (h : s.Streams (t :: ts)) (hr : s'.rooms = s.rooms)
    (hhub : ∀ j c', s'.hub.get? j = some c' → ∃ c, s.hub.get? j = some c ∧
      c'.outbox = c.outbox ∧ (c'.alive = true → c.alive = true ∧ t.conn? ≠ some j)) :
    s'.Streams ts where
  sent j c' hc' := by
    obtain ⟨c, hc, hout, -⟩ := hhub j c' hc'
    rw [hout]
    exact h.sent j c hc
  live j c' q hc' ha hq := by
    obtain ⟨c, hc, hout, hal⟩ := hhub j c' hc'
    obtain ⟨ha', ht⟩ := hal ha
    rw [hout] at hq
    exact ((h.live j c q hc ha' hq).tail ht).congr hr

/-- Killing a connection, its queue kept, keeps the streams of the others. -/
theorem Streams.kill (h : s.Streams ts) {f : Connection → Connection}
    (hf : ∀ c, (f c).id = c.id ∧ (f c).outbox = c.outbox ∧ (f c).alive = false) :
    (s.updateConn i f).Streams ts where
  sent j c' hc' := by
    rw [get?_updateConn fun c => (hf c).1] at hc'
    obtain ⟨c, hc, rfl⟩ := Option.map_eq_some_iff.1 hc'
    split
    · rw [(hf c).2.1]
      exact h.sent j c hc
    · exact h.sent j c hc
  live j c' q hc' ha hq := by
    rw [get?_updateConn fun c => (hf c).1] at hc'
    obtain ⟨c, hc, rfl⟩ := Option.map_eq_some_iff.1 hc'
    split at ha
    · rw [(hf c).2.2] at ha
      cases ha
    · rename_i hj
      rw [if_neg hj] at hq
      exact (h.live j c q hc ha hq).congr rfl

/-- The connection a message is for continues from the stream the message moves it to. -/
theorem Continues.deliver_self {q₁ : Tenure} (hi : s.Continues (.deliver i m :: ts) i q)
    (hq₁ : q.step m = some q₁) : s.Continues ts i q₁ := by
  obtain ⟨q', hq', hfit⟩ := hi.pending
  rw [Task.pendingFor_deliver_self, Tenure.run_cons, hq₁, Option.bind_some] at hq'
  refine ⟨⟨q', hq', fun hcl => hfit fun hm => hcl (by simpa using hm)⟩,
    fun R hR st hst => ?_, fun rid hl => hi.leaving rid (by simp [Task.pendingFor_deliver_self, hl])⟩
  rcases hi.seated R hR st hst with hp | hcl | ⟨m', q'', hd, hs, hp⟩
  · rcases Tenure.place_step hp hq₁ with hp₁ | ⟨r, rfl⟩
    · exact .inl hp₁
    · -- a stream told it left the room would sit nowhere
      exact absurd (Room.seat?_isSome_iff.1 (by simp [hst]))
        (hi.leaving r (by simp [Task.pendingFor_deliver_self]) R hR)
  · cases hcl
  · simp only [List.head?_cons, Option.some.injEq, Task.deliver.injEq, true_and] at hd
    subst hd
    rw [hq₁, Option.some.injEq] at hs
    exact .inl (hs ▸ hp)

/-- A message queued on a live connection moves its stream one message on. -/
theorem Streams.deliver (h : s.Streams (.deliver i m :: ts)) (hc : s.hub.get? i = some c)
    (ha : c.alive = true) :
    (s.updateConn i fun c => { c with outbox := c.outbox ++ [m] }).Streams ts := by
  obtain ⟨q, hq⟩ := Option.isSome_iff_exists.1 (h.sent i c hc)
  have hi := h.live i c q hc ha hq
  obtain ⟨q', hq', -⟩ := hi.pending
  rw [Task.pendingFor_deliver_self, Tenure.run_cons_eq_some] at hq'
  obtain ⟨q₁, hq₁, -⟩ := hq'
  have hrun : Tenure.idle.run (c.outbox ++ [m]) = some q₁ := by
    rw [Tenure.run_append, hq, Option.bind_some, Tenure.run_cons, hq₁]
    rfl
  have hcont := hi.deliver_self hq₁
  refine ⟨fun j c' hc' => ?_, fun j c' q₂ hc' ha' hq₂ => ?_⟩ <;>
    rw [get?_updateConn (f := fun c : Connection => { c with outbox := c.outbox ++ [m] })
      fun _ => rfl] at hc' <;>
    obtain ⟨c₀, hc₀, rfl⟩ := Option.map_eq_some_iff.1 hc'
  · by_cases hj : j = i
    · subst hj
      rw [hc, Option.some.injEq] at hc₀
      subst hc₀
      simp [hrun]
    · rw [if_neg hj]
      exact h.sent j c₀ hc₀
  · by_cases hj : j = i
    · subst hj
      rw [hc, Option.some.injEq] at hc₀
      subst hc₀
      simp only [if_true] at hq₂
      rw [hrun, Option.some.injEq] at hq₂
      exact hq₂ ▸ hcont.congr rfl
    · simp only [if_neg hj] at ha' hq₂
      exact ((h.live j c₀ q₂ hc₀ ha' hq₂).tail fun h' => hj (Option.some.inj h').symm).congr rfl

/-- A full queue turns the delivery into a close of the connection. -/
theorem Streams.overflow (h : s.Streams (.deliver i m :: ts)) : s.Streams (.close i :: ts) where
  sent := h.sent
  live j c q hc ha hq := by
    have hj := h.live j c q hc ha hq
    by_cases hji : j = i
    · subst hji
      exact ⟨⟨q, by simp [Task.pendingFor_close_self], fun hcl => absurd List.mem_cons_self hcl⟩,
        fun _ _ _ _ => .inr (.inl rfl), fun rid hl => by simp [Task.pendingFor_close_self] at hl⟩
    · have ht : ∀ (x : Task), x.conn? = some i → x.conn? ≠ some j := fun x hx h' =>
        hji (Option.some.inj (hx.symm.trans h')).symm
      exact (hj.tail (ht _ rfl)).cons
        (fun R hR st hst => hj.placed (fun t ht' => by cases ht'; exact ht _ rfl) hR hst)
        (ht _ rfl)

/-- Another connection sitting through a departure is told of it, about an entity not its own,
as often as it is seated; its stream stays where it stands. -/
theorem Continues.unseat_other {pre : List Task} (h : s.Continues (pre ++ ts) j q)
    (hs : s.RoomsSound) (hR : s.room? rid = some R) {now : Nat} {st : Seat}
    (hRu : R.unseat i now = some (st, R')) (hj : j ≠ i) (hpre : ∀ t ∈ pre, t.conn? ≠ some j)
    (hhead : ∀ t ∈ (pre ++ ts).head?, t.conn? ≠ some j) :
    (s.putRoom R').Continues (.deliver i (.roomLeft rid) ::
      R'.members.map (Task.deliver · (.playerLeft st.playerId st.entityId)) ++ ts) j q := by
  obtain ⟨hR₀, rfl⟩ := room?_eq_some hR
  obtain ⟨hid, -, -, hmem⟩ := Room.unseat_members hRu
  have hsti : R.seat? i = some st := (Room.unseat_eq_some.1 hRu).1
  have hseat : R'.seat? j = R.seat? j := Room.seat?_unseat_of_ne hRu hj
  have hR' : s.room? R'.id = some R := hid ▸ hR
  obtain ⟨hpend, hclose⟩ := Task.pendingFor_append_of_conn?_ne hpre ts
  have hsent : Task.pendingFor j (.deliver i (.roomLeft R.id) ::
      R'.members.map (Task.deliver · (.playerLeft st.playerId st.entityId)) ++ ts) =
      List.replicate (R'.members.count j) (.playerLeft st.playerId st.entityId) ++
        Task.pendingFor j ts := by
    rw [List.cons_append, Task.pendingFor_deliver_of_ne (Ne.symm hj),
      Task.pendingFor_append (Task.close_not_mem_map_deliver _ _), Task.pendingFor_map_deliver]
  have hrep : q.run (List.replicate (R'.members.count j)
      (.playerLeft st.playerId st.entityId)) = some q := by
    by_cases hjR : j ∈ R.members
    · obtain ⟨sj, hsj⟩ := Option.isSome_iff_exists.1 (Room.seat?_isSome_iff.2 hjR)
      exact Tenure.run_replicate_playerLeft (h.placed hhead hR₀ hsj)
        (hs.entityId_ne hR₀ hsj hsti hj) _ _
    · rw [List.count_eq_zero_of_not_mem fun h' => hjR ((hmem j).1 h').1]
      rfl
  refine ⟨?_, fun R₂ hR₂ st₂ hst₂ => .inl ?_, fun rid' hl R₂ hR₂ hjR₂ => ?_⟩
  · obtain ⟨q', hq', hfit⟩ := h.pending
    rw [hpend] at hq'
    refine ⟨q', by rw [hsent, Tenure.run_append, hrep, Option.bind_some, hq'], fun hcl => ?_⟩
    have hcl' : Task.close j ∉ pre ++ ts := fun hc => hcl (by simp [hclose.1 hc])
    exact (hfit hcl').putRoom hR' (by rw [hseat]) fun _ => Room.unseat_stage hRu
  · rcases mem_putRoom hR₂ with rfl | ⟨hR₂, -⟩
    · rw [hid]
      exact h.placed hhead hR₀ (by rw [← hseat]; exact hst₂)
    · exact h.placed hhead hR₂ hst₂
  · rw [hsent, List.mem_append] at hl
    rcases hl with hl | hl
    · simp at hl
    · have hno := h.leaving rid' (hpend ▸ hl)
      rcases mem_putRoom hR₂ with rfl | ⟨hR₂, -⟩
      · exact hno R hR₀ ((hmem j).1 hjR₂).1
      · exact hno R₂ hR₂ hjR₂

/-- The departing connection, live with nothing else to run, is told it left and sits nowhere
after. -/
theorem Continues.unseat_self (h : s.Continues [] i q) (hR : s.room? rid = some R) {now : Nat}
    {st : Seat} (hRu : R.unseat i now = some (st, R'))
    (halone : ∀ R₂ ∈ s.rooms, i ∈ R₂.members → R₂.id = R.id) :
    (s.putRoom R').Continues (.deliver i (.roomLeft rid) ::
      R'.members.map (Task.deliver · (.playerLeft st.playerId st.entityId))) i q := by
  obtain ⟨hR₀, rfl⟩ := room?_eq_some hR
  obtain ⟨hid, -, -, hmem⟩ := Room.unseat_members hRu
  have hsti : R.seat? i = some st := (Room.unseat_eq_some.1 hRu).1
  have hplace := h.placed (fun _ h' => by cases h') hR₀ hsti
  have hnone : ∀ R₂ ∈ (s.putRoom R').rooms, i ∉ R₂.members := by
    intro R₂ hR₂ hi
    rcases mem_putRoom hR₂ with rfl | ⟨hR₂, hne⟩
    · exact ((hmem i).1 hi).2 rfl
    · exact hne (by rw [hid]; exact halone R₂ hR₂ hi)
  have hsent : Task.pendingFor i (.deliver i (.roomLeft R.id) ::
      R'.members.map (Task.deliver · (.playerLeft st.playerId st.entityId))) =
      [.roomLeft R.id] := by
    rw [Task.pendingFor_deliver_self, Task.pendingFor_map_deliver,
      List.count_eq_zero_of_not_mem fun h' => ((hmem i).1 h').2 rfl]
    rfl
  refine ⟨⟨.idle, ?_, fun _ => (fits_of_place_none rfl).2 hnone⟩, fun R₂ hR₂ st₂ hst₂ => ?_,
    fun _ _ => hnone⟩
  · rw [hsent, Tenure.run_cons, Tenure.step_roomLeft hplace]
    rfl
  · exact absurd (Room.seat?_isSome_iff.1 (by simp [hst₂])) (hnone R₂ hR₂)

/-- A departure from a room keeps the streams: of a dead connection, after the tasks about it, or
of a live one with nothing else to run. -/
theorem Streams.unseat {pre us : List Task} (h : s.Streams (pre ++ ts)) (hs : s.RoomsSound)
    (hu : s.unseat rid i = some (s', us)) (hpre : ∀ t ∈ pre, t.conn? = some i)
    (hhead : ∀ t ∈ (pre ++ ts).head?, t.conn? = some i)
    (hi : ∀ c, s.hub.get? i = some c → c.alive = true →
      pre ++ ts = [] ∧ ∀ R₂ ∈ s.rooms, i ∈ R₂.members → R₂.id = rid) :
    s'.Streams (us ++ ts) := by
  obtain ⟨R, st, R', hR, hRu, rfl, rfl⟩ := unseat_eq_some hu
  have hne : ∀ j, j ≠ i → ∀ x : Task, x.conn? = some i → x.conn? ≠ some j :=
    fun j hj x hx h' => hj (Option.some.inj (hx.symm.trans h')).symm
  have hget : ∀ j, ((s.putRoom R').clearRoomRef i rid).hub.get? j =
      (s.hub.get? j).map fun c => if j = i then (s.putRoom R').clearRef rid c else c := fun j => by
    rw [clearRoomRef_eq, get?_updateConn (clearRef_id _ _)]
    rfl
  refine ⟨fun j c' hc' => ?_, fun j c' q hc' ha hq => ?_⟩ <;> rw [hget] at hc' <;>
    obtain ⟨c, hc, rfl⟩ := Option.map_eq_some_iff.1 hc'
  · split
    · rw [clearRef_outbox]
      exact h.sent j c hc
    · exact h.sent j c hc
  · by_cases hj : j = i
    · subst hj
      simp only [if_true, clearRef_alive, clearRef_outbox] at ha hq
      obtain ⟨hnil, halone⟩ := hi c hc ha
      obtain ⟨rfl, rfl⟩ := List.append_eq_nil_iff.1 hnil
      have hid := (room?_eq_some hR).2
      rw [List.append_nil]
      exact ((h.live j c q hc ha hq).unseat_self hR hRu fun R₂ hR₂ hm =>
        (halone R₂ hR₂ hm).trans hid.symm).congr rfl
    · simp only [if_neg hj] at ha hq
      exact ((h.live j c q hc ha hq).unseat_other hs hR hRu hj (fun t ht => hne j hj t (hpre t ht))
        fun t ht => hne j hj t (hhead t ht)).congr rfl

/-- Clearing references leaves the queues and the rooms as they are. -/
theorem release_view (s : Server) (room : Uuid) (conns : List Uuid) :
    (conns.foldl (fun s c => s.clearRoomRef c room) s).rooms = s.rooms ∧
      ∀ j, ((conns.foldl (fun s c => s.clearRoomRef c room) s).hub.get? j).map
        (fun c => (c.outbox, c.alive)) = (s.hub.get? j).map fun c => (c.outbox, c.alive) := by
  induction conns generalizing s with
  | nil => exact ⟨rfl, fun _ => rfl⟩
  | cons c cs ih =>
    obtain ⟨ih₁, ih₂⟩ := ih (s.clearRoomRef c room)
    refine ⟨ih₁, fun j => ?_⟩
    rw [List.foldl_cons, ih₂, clearRoomRef_eq, get?_updateConn (clearRef_id _ _), Option.map_map]
    congr 1
    funext c'
    split <;> simp

/-- The close of a connection that is already dead changes no stream. -/
theorem Streams.drop_closed (h : s.Streams (.close i :: ts))
    (hdead : ∀ c, s.hub.get? i = some c → c.alive = false) : s.Streams ts :=
  h.keep rfl fun j c hc => ⟨c, hc, rfl, fun ha => ⟨ha, fun hj => by
    obtain rfl : i = j := Option.some.inj hj
    rw [hdead c hc] at ha
    cases ha⟩⟩

/-- A connection just closed gives up its seat in the room it named, if it held one: the streams
hold over what its leaving produces. -/
theorem Streams.leave_closed (h : s.Streams (.close i :: ts)) (hs : s.RoomsSound)
    (hdead : ∀ c, s.hub.get? i = some c → c.alive = false) (rid : Uuid) :
    ((s.unseat rid i).getD (s, [])).1.Streams (((s.unseat rid i).getD (s, [])).2 ++ ts) ∧
      ((s.unseat rid i).getD (s, [])).1.RoomsSound := by
  cases hu : s.unseat rid i with
  | none => exact ⟨h.drop_closed hdead, hs⟩
  | some p =>
    obtain ⟨s', us⟩ := p
    have h' : s.Streams ([.close i] ++ ts) := h
    refine ⟨h'.unseat hs hu (fun t ht => by simp at ht; subst ht; rfl)
      (fun t ht => by simp at ht; subst ht; rfl) fun c hc ha => ?_, hs.unseat hu⟩
    rw [hdead c hc] at ha
    cases ha

/-- Every task keeps the streams, with the tasks it produces to run first. -/
theorem Streams.perform (h : s.Streams (t :: ts)) (hs : s.RoomsSound) :
    (s.perform t).1.Streams ((s.perform t).2 ++ ts) ∧ (s.perform t).1.RoomsSound := by
  have quiet : (∀ j c, s.hub.get? j = some c → c.alive = true → t.conn? ≠ some j) →
      s.Streams ts := fun ht =>
    h.keep rfl fun j c hc => ⟨c, hc, rfl, fun ha => ⟨ha, ht j c hc ha⟩⟩
  have idle : ∀ i, t.conn? = some i → (∀ c, s.hub.get? i = some c → c.alive = false) →
      s.Streams ts := fun i hi hdead => quiet fun j c hc ha hj => by
    obtain rfl : i = j := Option.some.inj (hi.symm.trans hj)
    rw [hdead c hc] at ha
    cases ha
  cases t with
  | deliver i m =>
    simp only [Server.perform]
    split
    · rename_i c hc
      split
      · rename_i hdead
        refine ⟨idle i rfl fun c' hc' => ?_, hs⟩
        rw [hc, Option.some.injEq] at hc'
        subst hc'
        simpa using hdead
      · rename_i hlive
        split
        · exact ⟨h.deliver hc (by simpa using hlive), hs.congr rfl⟩
        · exact ⟨h.overflow, hs⟩
    · rename_i hnone
      exact ⟨idle i rfl fun c hc => (by rw [hnone] at hc; cases hc), hs⟩
  | close i =>
    simp only [Server.perform]
    split
    · rename_i c hc
      split
      · rename_i hdead
        refine ⟨idle i rfl fun c' hc' => ?_, hs⟩
        rw [hc, Option.some.injEq] at hc'
        subst hc'
        simpa using hdead
      · generalize hs₀ : (s.updateConn i fun c : Connection =>
          { c with alive := false, room := none, registered := false }) = s₀
        have h₀ : s₀.Streams (.close i :: ts) := hs₀ ▸ h.kill (f := fun c : Connection =>
          { c with alive := false, room := none, registered := false }) fun _ => ⟨rfl, rfl, rfl⟩
        have hrooms₀ : s₀.rooms = s.rooms := by rw [← hs₀]; rfl
        have hdead₀ : ∀ c', s₀.hub.get? i = some c' → c'.alive = false := fun c' hc' => by
          rw [← hs₀, get?_updateConn_self (f := fun c : Connection =>
            { c with alive := false, room := none, registered := false }) (fun _ => rfl) hc,
            Option.some.injEq] at hc'
          rw [← hc']
        split
        · exact h₀.leave_closed (hs.congr hrooms₀) hdead₀ _
        · exact ⟨h₀.drop_closed hdead₀, hs.congr hrooms₀⟩
    · rename_i hnone
      exact ⟨idle i rfl fun c hc => (by rw [hnone] at hc; cases hc), hs⟩
  | release room conns =>
    simp only [Server.perform]
    obtain ⟨hr, hview⟩ := release_view s room conns
    refine ⟨h.keep hr fun j c' hc' => ?_, hs.congr hr⟩
    have hj := hview j
    rw [hc', Option.map_some] at hj
    obtain ⟨c, hc, hcv⟩ := Option.map_eq_some_iff.1 hj.symm
    simp only [Prod.mk.injEq] at hcv
    exact ⟨c, hc, hcv.1.symm, fun ha => ⟨hcv.2 ▸ ha, fun h' => by cases h'⟩⟩

/-- A whole worklist keeps the streams. -/
theorem Streams.run {rest : List Task} (h : s.Streams (ts ++ rest)) (hs : s.RoomsSound) :
    (s.run ts).Streams rest ∧ (s.run ts).RoomsSound := by
  fun_induction Server.run s ts with
  | case1 s => exact ⟨h, hs⟩
  | case2 s t ts _ ih =>
    obtain ⟨h₁, hs₁⟩ := Streams.perform h hs
    exact ih (by rw [List.append_assoc]; exact h₁) hs₁

end Server

end Skirmish
