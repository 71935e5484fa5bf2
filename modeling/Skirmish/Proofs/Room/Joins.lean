import Skirmish.Proofs.Room.Seats
import Skirmish.Proofs.World.Tick
import Skirmish.Server.State

/-!
# Joins: checked before anything changes, seated in order

A join is checked before anything is touched. A connection already in a room, or already seated
in this one, is refused first; then a room that is stopped or has started; then a full room
(`Server.addPlayer_fst`). A refused join leaves the whole server as it was, every room's world
with its generator and next entity id included (`Server.addPlayer_error`).

While a room waits, only the joins it admits spawn entities or draw from its generator, and a
room that stopped or started never admits another. So the joins of a room that succeed get the
entity ids `1, 2, 3, …` in turn, and the `k`-th stands at the `k`-th spawn point drawn from the
room's seeded generator, whatever refused joins and leaves come between them
(`Room.runEvents_joins_in_order`).
-/

namespace Skirmish

/-! ## A player spawned -/

namespace World

variable {w : World}

@[simp] theorem spawnPlayer_nextEntityId (p : Player) :
    (w.spawnPlayer p).2.nextEntityId = w.nextEntityId + 1 := by
  rw [spawnPlayer_eq]

/-- Spawning a player draws its spawn point from the generator. -/
@[simp] theorem spawnPlayer_rng (p : Player) :
    (w.spawnPlayer p).2.rng = (randomSpawn w.rng w.bounds).2 := by
  rw [spawnPlayer_eq]
  rfl

@[simp] theorem spawnPlayer_bounds (p : Player) : (w.spawnPlayer p).2.bounds = w.bounds := by
  rw [spawnPlayer_eq]

/-- In a well-formed world the next id finds the player just spawned. -/
theorem get?_spawnPlayer_self (hw : w.Wf) (p : Player) :
    (w.spawnPlayer p).2.get? w.nextEntityId =
      some (Entity.fresh w.nextEntityId w.spawnPoint.1 (.player p)) := by
  have hw' := (idsFrom_spawnPlayer p).wf hw
  rw [hw'.get?_eq_some_iff, spawnPlayer_eq]
  exact ⟨List.mem_append_right _ (List.mem_singleton_self _), rfl⟩

end World

/-! ## A join refused or admitted -/

namespace Server

variable {s : Server} {roomId conn : Uuid} {cid : Nat}

/-- A join is refused with the server as it was, or admitted. -/
theorem addPlayer_cases (s : Server) (roomId conn : Uuid) (cid : Nat) :
    (∃ e, s.addPlayer roomId conn cid = (.error e, s)) ∨
      ∃ info s', s.addPlayer roomId conn cid = (.ok info, s') := by
  unfold addPlayer
  split
  · split
    · exact .inl ⟨_, rfl⟩
    · split
      · exact .inl ⟨_, rfl⟩
      · dsimp only
        split
        · split <;> exact .inr ⟨_, _, rfl⟩
        · exact .inr ⟨_, _, rfl⟩
  · exact .inl ⟨_, rfl⟩

/-- A refused join changes nothing. -/
theorem addPlayer_error {e : RoomError} (h : (s.addPlayer roomId conn cid).1 = .error e) :
    (s.addPlayer roomId conn cid).2 = s := by
  rcases addPlayer_cases s roomId conn cid with ⟨e', he⟩ | ⟨info, s', he⟩
  · rw [he]
  · rw [he] at h
    cases h

/-- The checks of a join, in order: a connection in a room or seated here, a room stopped or
started, a full room; a join that passes them gets the next entity id and its team. -/
theorem addPlayer_fst {c : Connection} {r : Room} (hc : s.hub.get? conn = some c)
    (hr : s.room? roomId = some r) :
    (s.addPlayer roomId conn cid).1 =
      if (s.currentRoom? c).isSome || (r.seat? conn).isSome then .error .alreadyInRoom
      else if r.stopped || r.status != .waiting then .error .roomClosed
      else if r.maxPlayers ≤ r.seats.length then .error .roomFull
      else .ok ⟨c.playerId, r.world.nextEntityId, cid, r.assignTeam, false⟩ := by
  unfold addPlayer
  simp only [hc, hr]
  split
  · rfl
  · have hseat : (r.seatPlayer conn c.playerId cid s.clock).1.info =
        ⟨c.playerId, r.world.nextEntityId, cid, r.assignTeam, false⟩ := rfl
    by_cases hclosed : (r.stopped || r.status != .waiting) = true
    · simp [Room.admits, hclosed, throw, throwThe, MonadExceptOf.throw]
    · by_cases hfull : r.maxPlayers ≤ r.seats.length
      · simp [Room.admits, hclosed, hfull, throw, throwThe, MonadExceptOf.throw]
      · simp only [Room.admits, hclosed, hfull, Bool.false_eq_true, if_false, pure, Except.pure]
        rw [← hseat]
        split
        · split <;> rfl
        · rfl

end Server

/-! ## The joins of a run -/

namespace Room

variable {r r' : Room} {conn : Uuid} {pid : Int} {cid now : Nat} {g : Random.ChaCha8}
  {b : MapBounds} {n : Nat}

/-- The seat a turn's join takes: a connection without a seat, in a room that admits one more. -/
def Turn.seated (t : Turn) : Option Seat :=
  match t.event with
  | .join conn pid cid now =>
    match t.before.seat? conn, t.before.admits with
    | none, .ok () => some (t.before.seatPlayer conn pid cid now).1
    | _, _ => none
  | _ => none

/-- The entity id of the seat a turn's join took, with where its player stands after the turn. -/
def Turn.placed (t : Turn) : Option (Nat × Vec2) :=
  t.seated.bind fun s => (t.after.world.get? s.entityId).map fun e => (s.entityId, e.position)

/-- A room still open to joins: not stopped, and waiting. -/
def Open (r : Room) : Prop := r.stopped = false ∧ r.status = .waiting

/-- What the joins of an open room have drawn: after `n` of them the next entity id is `n + 1`,
`n` spawn points have been drawn from `g`, and the bounds are `b`. -/
def Drawn (g : Random.ChaCha8) (b : MapBounds) (n : Nat) (r : Room) : Prop :=
  r.Open → r.world.nextEntityId = n + 1 ∧ r.world.rng = afterSpawns b g n ∧ r.world.bounds = b

theorem drawn_new (config : RoomConfig) (id : Uuid) (seed : UInt64) (now : Nat) :
    Drawn (.ofSeed seed) (MapBounds.forMap config.mapId) 0 (Room.new config id seed now) :=
  fun _ => ⟨rfl, rfl, rfl⟩

/-- Leaving keeps the generator, the next entity id and the bounds. -/
theorem removePlayer_draws (w : World) (i : Nat) (keep : Bool) :
    (w.removePlayer i keep).2.nextEntityId = w.nextEntityId ∧ (w.removePlayer i keep).2.rng = w.rng ∧
      (w.removePlayer i keep).2.bounds = w.bounds := by
  rw [World.removePlayer_eq]
  split
  · split <;> exact ⟨rfl, rfl, rfl⟩
  · exact ⟨rfl, rfl, rfl⟩

/-- A refused join leaves the room as it was. -/
theorem react_join_refused {out : TickOutput}
    (h : r.react (.join conn pid cid now) = .ok (out, r'))
    (hs : (⟨r, .join conn pid cid now, out, r'⟩ : Turn).seated = none) : r' = r := by
  obtain ⟨-, rfl⟩ := Prod.mk.inj (Except.pure_eq_ok.1 h).symm
  simp only [Turn.seated] at hs
  cases hseat : r.seat? conn with
  | some _ => simp
  | none =>
    cases hadm : r.admits with
    | error _ => simp
    | ok u => simp [hseat, hadm] at hs

/-- A request that seats no one leaves an open room's generator, next entity id and bounds
alone, and never opens a room that was not open. -/
theorem react_unseated {e : Event} {out : TickOutput} (h : r.react e = .ok (out, r'))
    (hs : (⟨r, e, out, r'⟩ : Turn).seated = none) (ho : r'.Open) :
    r.Open ∧ r'.world.nextEntityId = r.world.nextEntityId ∧ r'.world.rng = r.world.rng ∧
      r'.world.bounds = r.world.bounds := by
  cases e with
  | join conn pid cid now =>
    obtain rfl := react_join_refused h hs
    exact ⟨ho, rfl, rfl, rfl⟩
  | leave conn now =>
    obtain ⟨-, rfl⟩ := Prod.mk.inj (Except.pure_eq_ok.1 h).symm
    cases hu : r.unseat conn now with
    | none =>
      rw [hu] at ho
      exact ⟨ho, rfl, rfl, rfl⟩
    | some p =>
      obtain ⟨st, r₁⟩ := p
      rw [hu] at ho
      obtain ⟨-, rfl⟩ := unseat_eq_some.1 hu
      exact ⟨ho, removePlayer_draws _ _ _⟩
  | ready conn b =>
    obtain ⟨-, rfl⟩ := Prod.mk.inj (Except.pure_eq_ok.1 h).symm
    cases hr : r.setReady conn b with
    | error _ =>
      rw [hr] at ho
      exact ⟨ho, rfl, rfl, rfl⟩
    | ok r₁ =>
      rw [hr] at ho
      obtain ⟨-, rfl⟩ := setReady_eq_ok.1 hr
      exact ⟨ho, rfl, rfl, rfl⟩
  | input conn i now =>
    obtain ⟨-, rfl⟩ := Prod.mk.inj (Except.pure_eq_ok.1 h).symm
    cases hr : r.handleInput conn i now with
    | error _ =>
      rw [hr] at ho
      exact ⟨ho, rfl, rfl, rfl⟩
    | ok p =>
      obtain ⟨sp, r₁⟩ := p
      rw [hr] at ho
      -- input changes the world only in play, and a room in play is not open
      rcases handleInput_eq_ok hr with he | hplaying
      · rw [he] at ho ⊢
        exact ⟨ho, rfl, rfl, rfl⟩
      · obtain ⟨_, _, _, -, hplay, -, -, -, -, hr₁⟩ := hplaying
        have hwait := ho.2
        rcases hr₁ with rfl | ⟨_, _, rfl⟩ <;> simp [hplay] at hwait
  | step dt now =>
    cases hstop : r.stopped with
    | true =>
      rw [react, step_of_stopped hstop] at h
      obtain ⟨-, rfl⟩ := Prod.mk.inj (Except.pure_eq_ok.1 h).symm
      exact ⟨ho, rfl, rfl, rfl⟩
    | false =>
      cases hst : r.status with
      | waiting =>
        rw [react, step_of_waiting hstop hst] at h
        obtain ⟨-, rfl⟩ := Prod.mk.inj (Except.pure_eq_ok.1 h).symm
        exact ⟨⟨hstop, hst⟩, by rw [checkReady_world], by rw [checkReady_world],
          by rw [checkReady_world]⟩
      | playing =>
        rw [react, step_of_playing hstop hst] at h
        obtain ⟨o, r₁, -, hr₁, -, -, hend⟩ := simulate_eq_ok h
        have hwait := ho.2
        rcases hend with ⟨reason, -, rfl, -⟩ | ⟨-, rfl, -⟩
        · cases hwait
        · rw [hr₁] at hwait
          simp [hst] at hwait
      | ended =>
        rw [react, step_of_ended hstop hst] at h
        obtain ⟨-, rfl⟩ := Prod.mk.inj (Except.pure_eq_ok.1 h).symm
        exact ⟨ho, rfl, rfl, rfl⟩
  | terminate now =>
    obtain ⟨-, rfl⟩ := Prod.mk.inj (Except.pure_eq_ok.1 h).symm
    cases hstop : r.stopped with
    | true =>
      rw [terminate_of_stopped hstop] at ho ⊢
      exact ⟨ho, rfl, rfl, rfl⟩
    | false =>
      have := ho.1
      rw [terminate_of_running hstop] at this
      cases this

theorem Drawn.unseated {e : Event} {out : TickOutput} (hd : Drawn g b n r)
    (h : r.react e = .ok (out, r')) (hs : (⟨r, e, out, r'⟩ : Turn).seated = none) :
    Drawn g b n r' := fun ho => by
  obtain ⟨hopen, hnext, hrng, hb⟩ := react_unseated h hs ho
  rw [hnext, hrng, hb]
  exact hd hopen

/-- An admitted join takes the next entity id, stands at the next spawn point drawn, and draws
it. -/
theorem Drawn.seatPlayer (hd : Drawn g b n r) (hw : r.world.Wf) (ha : r.admits = .ok ()) :
    Drawn g b (n + 1) (r.seatPlayer conn pid cid now).2 ∧
      ((r.seatPlayer conn pid cid now).2.world.get? (r.seatPlayer conn pid cid now).1.entityId).map
        (fun e => ((r.seatPlayer conn pid cid now).1.entityId, e.position)) =
        some (n + 1, nthSpawn g b n) := by
  obtain ⟨hstop, hwait, -⟩ := admits_eq_ok.1 ha
  obtain ⟨hnext, hrng, hb⟩ := hd ⟨hstop, hwait⟩
  have hworld : (r.seatPlayer conn pid cid now).2.world =
      (r.world.spawnPlayer (Player.fresh pid cid r.assignTeam playerMaxHealth)).2 := rfl
  have hid : (r.seatPlayer conn pid cid now).1.entityId = r.world.nextEntityId := rfl
  refine ⟨fun _ => ?_, ?_⟩
  · rw [hworld, World.spawnPlayer_nextEntityId, World.spawnPlayer_rng, World.spawnPlayer_bounds,
      hnext, hrng, hb]
    exact ⟨rfl, rfl, rfl⟩
  · rw [hid, hworld, World.get?_spawnPlayer_self hw]
    simp [nthSpawn, World.spawnPoint, Entity.fresh, hnext, hrng, hb]

/-- From a room whose joins have drawn `n` times, the joins of a run that succeed get the
next ids in turn and stand at the next spawn points in turn. -/
theorem runEvents_placed (hr : r.SeatsAgree) (hd : Drawn g b n r) {es : List Event}
    {turns : List Turn} (h : r.runEvents es = .ok (turns, r')) :
    turns.filterMap Turn.placed = (List.range (turns.filterMap Turn.seated).length).map
      fun k => (n + k + 1, nthSpawn g b (n + k)) := by
  induction es generalizing r n turns with
  | nil =>
    obtain ⟨rfl, -⟩ := runEvents_nil_eq_ok.1 h
    rfl
  | cons e es ih =>
    obtain ⟨out, r₁, turns', h₁, h₂, rfl⟩ := runEvents_cons_eq_ok.1 h
    cases hs : (⟨r, e, out, r₁⟩ : Turn).seated with
    | none =>
      have hp : (⟨r, e, out, r₁⟩ : Turn).placed = none := by simp [Turn.placed, hs]
      rw [List.filterMap_cons_none hp, List.filterMap_cons_none hs]
      exact ih (hr.react h₁) (hd.unseated h₁ hs) h₂
    | some st =>
      obtain ⟨conn, pid, cid, now, rfl, hnew, ha, rfl⟩ : ∃ conn pid cid now,
          e = .join conn pid cid now ∧ r.seat? conn = none ∧ r.admits = .ok () ∧
          st = (r.seatPlayer conn pid cid now).1 := by
        cases e with
        | join conn pid cid now =>
          simp only [Turn.seated] at hs
          split at hs
          · exact ⟨conn, pid, cid, now, rfl, ‹_›, ‹_›, (Option.some.inj hs).symm⟩
          · cases hs
        | _ => simp [Turn.seated] at hs
      have hr₁ : r₁ = (r.seatPlayer conn pid cid now).2 := by
        obtain ⟨-, rfl⟩ := Prod.mk.inj (Except.pure_eq_ok.1 h₁).symm
        simp [hnew, ha]
      subst hr₁
      obtain ⟨hd₁, hpos⟩ := hd.seatPlayer hr.wf ha
      have hp : (⟨r, .join conn pid cid now, out, (r.seatPlayer conn pid cid now).2⟩ : Turn).placed =
          some (n + 1, nthSpawn g b n) := by
        simpa only [Turn.placed, hs, Option.bind_some] using hpos
      rw [List.filterMap_cons_some hp, List.filterMap_cons_some hs, List.length_cons,
        List.range_succ_eq_map, List.map_cons, List.map_map,
        ih (hr.react h₁) hd₁ h₂]
      simp only [Nat.add_zero, List.cons.injEq, true_and]
      refine List.map_congr_left fun k _ => ?_
      simp only [Function.comp_apply, Prod.mk.injEq]
      exact ⟨by omega, by rw [Nat.add_assoc, Nat.add_comm 1 k]⟩

/-- A refused join changes nothing, and the `k`-th join to succeed in a run of a new room gets
entity id `k` at the `k`-th spawn point drawn from the seed; a server checks a join's seat, then
the room's state, then its capacity. -/
theorem runEvents_joins_in_order (config : RoomConfig) (id : Uuid) (seed : UInt64) (now : Nat)
    {es : List Event} {turns : List Turn} {r : Room}
    (h : (Room.new config id seed now).runEvents es = .ok (turns, r)) :
    (∀ t ∈ turns, ∀ conn pid cid now, t.event = .join conn pid cid now → t.seated = none →
      t.after = t.before) ∧
    turns.filterMap Turn.placed = (List.range (turns.filterMap Turn.seated).length).map
      (fun k => (k + 1, nthSpawn (.ofSeed seed) (MapBounds.forMap config.mapId) k)) ∧
    ∀ (s : Server) (roomId conn : Uuid) (cid : Nat),
      (∀ e, (s.addPlayer roomId conn cid).1 = .error e → (s.addPlayer roomId conn cid).2 = s) ∧
      ∀ c r, s.hub.get? conn = some c → s.room? roomId = some r →
        (s.addPlayer roomId conn cid).1 =
          if (s.currentRoom? c).isSome || (r.seat? conn).isSome then .error .alreadyInRoom
          else if r.stopped || r.status != .waiting then .error .roomClosed
          else if r.maxPlayers ≤ r.seats.length then .error .roomFull
          else .ok ⟨c.playerId, r.world.nextEntityId, cid, r.assignTeam, false⟩ := by
  refine ⟨fun t ht conn pid cid now he hs => ?_, ?_, fun s roomId conn cid =>
    ⟨fun _ he => Server.addPlayer_error he, fun _ _ hc hr => Server.addPlayer_fst hc hr⟩⟩
  · obtain ⟨before, event, out, after⟩ := t
    simp only at he
    subst he
    exact react_join_refused (react_of_mem_runEvents h _ ht) hs
  · have hplaced := runEvents_placed (.new config id seed now) (drawn_new config id seed now) h
    simpa only [Nat.zero_add] using hplaced

/-- Two players join a new room one after the other. -/
theorem runEvents_joins_in_order_two :
    ∃ turns r, (Room.new (RoomConfig.new "arena" .deathMatch) ⟨0⟩ 7 0).runEvents
        [.join ⟨1⟩ 1 1 0, .join ⟨2⟩ 2 1 0] = .ok (turns, r) ∧
      (∀ t ∈ turns, ∀ conn pid cid now, t.event = .join conn pid cid now → t.seated = none →
        t.after = t.before) ∧
      turns.filterMap Turn.placed = (List.range (turns.filterMap Turn.seated).length).map
        (fun k => (k + 1, nthSpawn (.ofSeed 7) (MapBounds.forMap 1) k)) ∧
      ∀ (s : Server) (roomId conn : Uuid) (cid : Nat),
        (∀ e, (s.addPlayer roomId conn cid).1 = .error e → (s.addPlayer roomId conn cid).2 = s) ∧
        ∀ c r, s.hub.get? conn = some c → s.room? roomId = some r →
          (s.addPlayer roomId conn cid).1 =
            if (s.currentRoom? c).isSome || (r.seat? conn).isSome then .error .alreadyInRoom
            else if r.stopped || r.status != .waiting then .error .roomClosed
            else if r.maxPlayers ≤ r.seats.length then .error .roomFull
            else .ok ⟨c.playerId, r.world.nextEntityId, cid, r.assignTeam, false⟩ :=
  ⟨_, _, rfl, @runEvents_joins_in_order (RoomConfig.new "arena" .deathMatch) ⟨0⟩ 7 0
    [.join ⟨1⟩ 1 1 0, .join ⟨2⟩ 2 1 0] _ _ rfl⟩

end Room

end Skirmish
