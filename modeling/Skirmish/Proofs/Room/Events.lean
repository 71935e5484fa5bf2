import Skirmish.Proofs.World.Later
import Skirmish.Room.Room

/-!
# Runs of a room

A room serves six kinds of request: a connection takes a seat, leaves it (also when the
connection closes), sets its ready state or sends input, the room steps, and the room is
terminated. `Room.react` is what the room does on each, with the messages of a step or of the
end; a request the room refuses changes nothing. `Room.runEvents` serves a list of requests and
records each turn with the room before and after it, and `Room.Reachable` holds of the rooms that
some run from a new room reaches.

This module also says once, for each room operation, what a successful call did
(`seatPlayer_eq`, `unseat_eq_some`, `setReady_eq_ok`, `handleInput_eq_ok`, `simulate_eq_ok`,
`step_of_stopped`, ...), so that the proofs about rooms never unfold them again.
-/

namespace Skirmish

/-- A request a room serves. A closed connection leaves its seat. -/
inductive Room.Event where
  | join (conn : Uuid) (playerId : Int) (characterId : Nat) (now : Nat)
  | leave (conn : Uuid) (now : Nat)
  | ready (conn : Uuid) (ready : Bool)
  | input (conn : Uuid) (input : PlayerInput) (now : Nat)
  | step (dt : Float32) (now : Nat)
  | terminate (now : Nat)

/-- One turn of a run: the room before, the request, the messages, and the room after. -/
structure Room.Turn where
  before : Room
  event : Room.Event
  out : TickOutput
  after : Room

namespace Room

/-- What a room does on a request. A connection with a seat, or one the room does not admit, is
not seated; a request of a connection without a seat changes nothing. Only a step and the end
give messages. -/
def react (r : Room) : Event → Checked (TickOutput × Room)
  | .join conn pid cid now =>
    pure (TickOutput.none,
      if (r.seat? conn).isSome then r
      else match r.admits with
        | .ok () => (r.seatPlayer conn pid cid now).2
        | .error _ => r)
  | .leave conn now =>
    pure (TickOutput.none, match r.unseat conn now with
      | some (_, r') => r'
      | none => r)
  | .ready conn b =>
    pure (TickOutput.none, match r.setReady conn b with
      | .ok r' => r'
      | .error _ => r)
  | .input conn i now =>
    pure (TickOutput.none, match r.handleInput conn i now with
      | .ok (_, r') => r'
      | .error _ => r)
  | .step dt now => r.step dt now
  | .terminate now => pure (⟨none, none, (r.terminate now).1⟩, (r.terminate now).2)

/-- Serves the requests in order and records each turn; stops at the first step that fails. -/
def runEvents (r : Room) : List Event → Checked (List Turn × Room)
  | [] => pure ([], r)
  | e :: es => do
    let (out, r') ← r.react e
    let (turns, r'') ← r'.runEvents es
    pure (⟨r, e, out, r'⟩ :: turns, r'')

/-- The rooms that a run from a new room reaches. -/
inductive Reachable : Room → Prop
  | new (config : RoomConfig) (id : Uuid) (seed : UInt64) (now : Nat) :
      Reachable (Room.new config id seed now)
  | react {r r' : Room} {e : Event} {out : TickOutput} :
      Reachable r → r.react e = .ok (out, r') → Reachable r'

variable {r r' : Room} {conn : Uuid} {now : Nat}

/-- A run of one more request: the room reacts to it, and the run goes on from the room it
left. -/
theorem runEvents_cons_eq_ok {e : Event} {es : List Event} {turns : List Turn} :
    r.runEvents (e :: es) = .ok (turns, r') ↔ ∃ out r₁ turns', r.react e = .ok (out, r₁) ∧
      r₁.runEvents es = .ok (turns', r') ∧ turns = ⟨r, e, out, r₁⟩ :: turns' := by
  constructor
  · intro h
    obtain ⟨⟨out, r₁⟩, h₁, h⟩ := Except.bind_eq_ok.1 h
    obtain ⟨⟨turns', r₂⟩, h₂, h⟩ := Except.bind_eq_ok.1 h
    obtain ⟨rfl, rfl⟩ := Prod.mk.inj (Except.pure_eq_ok.1 h).symm
    exact ⟨out, r₁, turns', h₁, h₂, rfl⟩
  · rintro ⟨out, r₁, turns', h₁, h₂, rfl⟩
    simp only [runEvents, h₁, bind, Except.bind, h₂]
    rfl

theorem runEvents_nil_eq_ok {turns : List Turn} :
    r.runEvents [] = .ok (turns, r') ↔ turns = [] ∧ r' = r := by
  simp only [runEvents, Except.pure_eq_ok, Prod.mk.injEq]
  exact and_congr eq_comm eq_comm

/-- Each turn of a run is the room reacting to its request. -/
theorem react_of_mem_runEvents {es : List Event} {turns : List Turn}
    (h : r.runEvents es = .ok (turns, r')) :
    ∀ t ∈ turns, t.before.react t.event = .ok (t.out, t.after) := by
  induction es generalizing r turns with
  | nil =>
    obtain ⟨rfl, -⟩ := runEvents_nil_eq_ok.1 h
    simp
  | cons e es ih =>
    obtain ⟨out, r₁, turns', h₁, h₂, rfl⟩ := runEvents_cons_eq_ok.1 h
    intro t ht
    rcases List.mem_cons.1 ht with rfl | ht
    · exact h₁
    · exact ih h₂ t ht

/-- What every request of a run keeps holds of every room the run passes through. -/
theorem runEvents_invariant (P : Room → Prop) {es : List Event} {turns : List Turn}
    (hstep : ∀ {ρ ρ' : Room} {e : Event} {out : TickOutput}, e ∈ es → P ρ →
      ρ.react e = .ok (out, ρ') → P ρ')
    (h0 : P r) (h : r.runEvents es = .ok (turns, r')) :
    (∀ t ∈ turns, P t.before ∧ P t.after) ∧ P r' := by
  induction es generalizing r turns with
  | nil =>
    obtain ⟨rfl, rfl⟩ := runEvents_nil_eq_ok.1 h
    exact ⟨by simp, h0⟩
  | cons e es ih =>
    obtain ⟨out, r₁, turns', h₁, h₂, rfl⟩ := runEvents_cons_eq_ok.1 h
    have hP₁ := hstep List.mem_cons_self h0 h₁
    obtain ⟨hts, hr'⟩ := ih (fun he => hstep (List.mem_cons_of_mem _ he)) hP₁ h₂
    refine ⟨fun t ht => ?_, hr'⟩
    rcases List.mem_cons.1 ht with rfl | ht
    · exact ⟨h0, hP₁⟩
    · exact hts t ht

/-- What every request of a run keeps holds of each room the run visits: the room before each
turn, and the room it ends in. -/
theorem runEvents_states (P : Room → Prop) {es : List Event} {turns : List Turn}
    (hstep : ∀ {ρ ρ' : Room} {e : Event} {out : TickOutput}, e ∈ es → P ρ →
      ρ.react e = .ok (out, ρ') → P ρ')
    (h0 : P r) (h : r.runEvents es = .ok (turns, r')) : ∀ ρ ∈ r' :: turns.map (·.before), P ρ := by
  obtain ⟨hts, hr'⟩ := runEvents_invariant P hstep h0 h
  intro ρ hρ
  rcases List.mem_cons.1 hρ with rfl | hρ
  · exact hr'
  · obtain ⟨t, ht, rfl⟩ := List.mem_map.1 hρ
    exact (hts t ht).1

/-- A run from a reachable room passes through reachable rooms only. -/
theorem Reachable.runEvents (hr : Reachable r) {es : List Event} {turns : List Turn}
    (h : r.runEvents es = .ok (turns, r')) : (∀ t ∈ turns, Reachable t.before) ∧ Reachable r' := by
  induction es generalizing r turns with
  | nil =>
    obtain ⟨rfl, rfl⟩ := runEvents_nil_eq_ok.1 h
    exact ⟨by simp, hr⟩
  | cons e es ih =>
    obtain ⟨out, r₁, turns', h₁, h₂, rfl⟩ := runEvents_cons_eq_ok.1 h
    obtain ⟨hts, hr'⟩ := ih (hr.react h₁) h₂
    refine ⟨fun t ht => ?_, hr'⟩
    rcases List.mem_cons.1 ht with rfl | ht
    · exact hr
    · exact hts t ht

/-! ## What each room operation does -/

/-- A seat is taken at the end, with the next entity id, the assigned team and not ready; the
player is spawned. -/
theorem seatPlayer_eq (r : Room) (conn : Uuid) (pid : Int) (cid now : Nat) :
    r.seatPlayer conn pid cid now =
      (⟨conn, r.world.nextEntityId, pid, cid, r.assignTeam, false⟩,
        { r with seats := r.seats ++ [⟨conn, r.world.nextEntityId, pid, cid, r.assignTeam, false⟩],
                 world := (r.world.spawnPlayer (Player.fresh pid cid r.assignTeam playerMaxHealth)).2,
                 lastActivity := now }) :=
  rfl

/-- Leaving takes away every seat of the connection and removes the player of the first,
keeping its record once the game has started. -/
theorem unseat_eq_some {s : Seat} :
    r.unseat conn now = some (s, r') ↔ r.seat? conn = some s ∧
      r' = { r with seats := r.seats.filter (·.connection != conn),
                    world := (r.world.removePlayer s.entityId (r.status != .waiting)).2,
                    lastActivity := now } := by
  unfold unseat
  cases r.seat? conn with
  | none => simp
  | some s₀ =>
    simp only [Option.bind_eq_bind, Option.bind_some, Option.pure_def, Option.some.injEq,
      Prod.mk.injEq]
    constructor
    · rintro ⟨rfl, rfl⟩
      exact ⟨rfl, rfl⟩
    · rintro ⟨rfl, rfl⟩
      exact ⟨rfl, rfl⟩

theorem setReady_eq_ok {b : Bool} :
    r.setReady conn b = .ok r' ↔ (r.seat? conn).isSome ∧
      r' = { r with seats := r.seats.map fun s => if s.connection = conn then { s with ready := b }
                                                    else s } := by
  unfold setReady
  cases r.seat? conn with
  | none => simp [throw, throwThe, MonadExceptOf.throw]
  | some s => simp [pure, Except.pure, eq_comm]

/-- Steering keeps an entity's id and kind. -/
@[simp] theorem Entity.steer_id (e : Entity) (input : PlayerInput) : (e.steer input).id = e.id := by
  unfold Entity.steer
  split <;> split <;> rfl

@[simp] theorem Entity.steer_kind (e : Entity) (input : PlayerInput) :
    (e.steer input).kind = e.kind := by
  unfold Entity.steer
  split <;> split <;> rfl

/-- Input changes nothing outside play or for a missing or dead player. Otherwise the player's
entity turns and moves, keeping its id and kind, and may fire a skill; only the world and the
activity time change. -/
theorem handleInput_eq_ok {input : PlayerInput} {sp : List Nat}
    (h : r.handleInput conn input now = .ok (sp, r')) :
    r' = r ∨ ∃ s e e', r.seat? conn = some s ∧ r.status = .playing ∧
      r.world.get? s.entityId = some e ∧ (∃ p, e.player? = some p ∧ p.alive = true) ∧
      e'.id = e.id ∧ e'.kind = e.kind ∧
      (r' = { r with world := r.world.update s.entityId (fun _ => e'), lastActivity := now } ∨
        ∃ skill target, r' = { r with
          world := (useSkill (r.world.update s.entityId fun _ => e') s.entityId skill target).2,
          lastActivity := now }) := by
  unfold handleInput at h
  split at h
  · rename_i s hs
    split at h
    · exact .inl (Prod.mk.inj (Except.pure_eq_ok.1 h).symm).2
    · rename_i hplay
      split at h
      · rename_i e he
        split at h
        · rename_i p hp
          split at h
          · exact .inl (Prod.mk.inj (Except.pure_eq_ok.1 h).symm).2
          · rename_i halive
            refine .inr ⟨s, e, e.steer input, hs, by simpa using hplay, he,
              ⟨p, hp, by simpa using halive⟩, Entity.steer_id e input, Entity.steer_kind e input, ?_⟩
            dsimp only at h
            cases hsk : input.skillId with
            | none =>
              rw [hsk] at h
              exact .inl (Prod.mk.inj (Except.pure_eq_ok.1 h).symm).2
            | some skill =>
              rw [hsk] at h
              exact .inr ⟨skill, _, (Prod.mk.inj (Except.pure_eq_ok.1 h).symm).2⟩
        · exact .inl (Prod.mk.inj (Except.pure_eq_ok.1 h).symm).2
      · exact .inl (Prod.mk.inj (Except.pure_eq_ok.1 h).symm).2
  · cases h

/-- A step of play advances the world, resolves its collisions, counts the frame and the play
time, sends the frame, and ends the game when there is a reason to. -/
theorem simulate_eq_ok {dt : Float32} {out : TickOutput} (h : r.simulate dt now = .ok (out, r')) :
    ∃ o r₁, resolveCollisions (r.world.advance dt).2 r.rules.friendlyFire = .ok (o, r₁.world) ∧
      r₁ = { r with world := r₁.world, frameId := r.frameId + 1, elapsed := r.elapsed + dt } ∧
      out.started = none ∧
      out.frame = some (buildFrame r₁.frameId r₁.world o
        (maxFloat (r₁.rules.timeLimitSecs - r₁.elapsed) 0) now) ∧
      ((∃ reason, r₁.endReason? = some reason ∧
          r' = { r₁ with status := .ended, endedAt := some now } ∧
          out.ended = some (r'.finish reason now)) ∨
        (r₁.endReason? = none ∧ r' = r₁ ∧ out.ended = none)) := by
  unfold simulate at h
  obtain ⟨⟨o, w⟩, hr, h⟩ := Except.bind_eq_ok.1 h
  refine ⟨o, { r with world := w, frameId := r.frameId + 1, elapsed := r.elapsed + dt }, hr, rfl,
    ?_⟩
  dsimp only at h
  split at h
  · rename_i reason hreason
    obtain ⟨rfl, rfl⟩ := Prod.mk.inj (Except.pure_eq_ok.1 h).symm
    exact ⟨rfl, rfl, .inl ⟨reason, hreason, rfl, rfl⟩⟩
  · rename_i hreason
    obtain ⟨rfl, rfl⟩ := Prod.mk.inj (Except.pure_eq_ok.1 h).symm
    exact ⟨rfl, rfl, .inr ⟨hreason, rfl, rfl⟩⟩

theorem step_of_stopped (hs : r.stopped = true) (dt : Float32) (now : Nat) :
    r.step dt now = pure (TickOutput.none, r) := by
  simp [step, hs]

theorem step_of_waiting (hs : r.stopped = false) (hw : r.status = .waiting) (dt : Float32)
    (now : Nat) : r.step dt now = pure (⟨(r.checkReady now).1, none, none⟩, (r.checkReady now).2) := by
  simp [step, hs, hw]

theorem step_of_playing (hs : r.stopped = false) (hp : r.status = .playing) (dt : Float32)
    (now : Nat) : r.step dt now = r.simulate dt now := by
  simp [step, hs, hp]

theorem step_of_ended (hs : r.stopped = false) (he : r.status = .ended) (dt : Float32)
    (now : Nat) : r.step dt now = pure (TickOutput.none, r) := by
  simp [step, hs, he]

/-- A waiting room with enough seats, all ready, starts playing and announces the roster. -/
theorem checkReady_of_quorum (hw : r.status = .waiting) (hn : minPlayersToStart ≤ r.seats.length)
    (hready : r.seats.all (·.ready) = true) :
    r.checkReady now = (some (.gameStart r.id r.roster r.rules now),
      { r with status := .playing, startedAt := some now, lastActivity := now }) := by
  have : ¬ r.seats.length < minPlayersToStart := Nat.not_lt.2 hn
  simp [checkReady, hw, hready, this]
  rfl

/-- Without enough seats all ready, a waiting room stays as it is. -/
theorem checkReady_of_not_quorum (h : ¬ (minPlayersToStart ≤ r.seats.length ∧
    r.seats.all (·.ready) = true)) : r.checkReady now = (none, r) := by
  unfold checkReady
  rw [if_pos]
  by_cases hn : minPlayersToStart ≤ r.seats.length
  · have : r.seats.all (·.ready) = false := by simpa [hn] using h
    simp [this]
  · simp [Nat.lt_of_not_le hn]

/-- A ready check leaves the seats and the world as they are. -/
@[simp] theorem checkReady_seats : (r.checkReady now).2.seats = r.seats := by
  unfold checkReady
  split <;> rfl

@[simp] theorem checkReady_world : (r.checkReady now).2.world = r.world := by
  unfold checkReady
  split <;> rfl

/-- A stopped room is left as it is; otherwise the room is stopped and ended, its seats are
released, and a game still playing ends. -/
theorem terminate_of_stopped (hs : r.stopped = true) : r.terminate now = (none, r) := by
  simp [terminate, hs]

theorem terminate_of_running (hs : r.stopped = false) :
    r.terminate now =
      (if r.status = RoomStatus.playing then
          some ({ r with stopped := true, status := RoomStatus.ended,
                         endedAt := if r.status = RoomStatus.ended then r.endedAt else some now }.finish
                  .terminated now)
        else none,
        { r with stopped := true, status := RoomStatus.ended, seats := [],
                 endedAt := if r.status = RoomStatus.ended then r.endedAt else some now }) := by
  simp [terminate, hs]

@[simp] theorem terminate_world : (r.terminate now).2.world = r.world := by
  unfold terminate
  split <;> rfl

/-- What a request can do, said once: nothing at all, take a seat, leave a seat, set a ready
state, apply input, run a ready check, step play, or end the room. -/
theorem react_cases {e : Event} {out : TickOutput} (h : r.react e = .ok (out, r')) :
    (out = TickOutput.none ∧ r' = r) ∨
    (∃ conn pid cid now, e = .join conn pid cid now ∧ out = TickOutput.none ∧
      r.seat? conn = none ∧ r.admits = .ok () ∧ r' = (r.seatPlayer conn pid cid now).2) ∨
    (∃ conn now s, e = .leave conn now ∧ out = TickOutput.none ∧
      r.unseat conn now = some (s, r')) ∨
    (∃ conn b, e = .ready conn b ∧ out = TickOutput.none ∧ r.setReady conn b = .ok r') ∨
    (∃ conn i now sp, e = .input conn i now ∧ out = TickOutput.none ∧
      r.handleInput conn i now = .ok (sp, r')) ∨
    (∃ dt now, e = .step dt now ∧ r.stopped = false ∧ r.status = .waiting ∧
      out = ⟨(r.checkReady now).1, none, none⟩ ∧ r' = (r.checkReady now).2) ∨
    (∃ dt now, e = .step dt now ∧ r.stopped = false ∧ r.status = .playing ∧
      r.simulate dt now = .ok (out, r')) ∨
    (∃ now, e = .terminate now ∧ r.stopped = false ∧
      out = ⟨none, none, (r.terminate now).1⟩ ∧ r' = (r.terminate now).2) := by
  cases e with
  | join conn pid cid now =>
    obtain ⟨rfl, rfl⟩ := Prod.mk.inj (Except.pure_eq_ok.1 h).symm
    split
    · exact .inl ⟨rfl, rfl⟩
    · rename_i hnew
      split
      · exact .inr (.inl ⟨conn, pid, cid, now, rfl, rfl, by simpa using hnew, ‹_›, rfl⟩)
      · exact .inl ⟨rfl, rfl⟩
  | leave conn now =>
    obtain ⟨rfl, rfl⟩ := Prod.mk.inj (Except.pure_eq_ok.1 h).symm
    split
    · exact .inr (.inr (.inl ⟨conn, now, _, rfl, rfl, ‹_›⟩))
    · exact .inl ⟨rfl, rfl⟩
  | ready conn b =>
    obtain ⟨rfl, rfl⟩ := Prod.mk.inj (Except.pure_eq_ok.1 h).symm
    split
    · exact .inr (.inr (.inr (.inl ⟨conn, b, rfl, rfl, ‹_›⟩)))
    · exact .inl ⟨rfl, rfl⟩
  | input conn i now =>
    obtain ⟨rfl, rfl⟩ := Prod.mk.inj (Except.pure_eq_ok.1 h).symm
    split
    · exact .inr (.inr (.inr (.inr (.inl ⟨conn, i, now, _, rfl, rfl, ‹_›⟩))))
    · exact .inl ⟨rfl, rfl⟩
  | step dt now =>
    cases hs : r.stopped with
    | true =>
      rw [react, step_of_stopped hs] at h
      exact .inl (Prod.mk.inj (Except.pure_eq_ok.1 h).symm)
    | false =>
      cases hst : r.status with
      | waiting =>
        rw [react, step_of_waiting hs hst] at h
        obtain ⟨rfl, rfl⟩ := Prod.mk.inj (Except.pure_eq_ok.1 h).symm
        exact .inr (.inr (.inr (.inr (.inr (.inl ⟨dt, now, rfl, rfl, rfl, rfl, rfl⟩)))))
      | playing =>
        rw [react, step_of_playing hs hst] at h
        exact .inr (.inr (.inr (.inr (.inr (.inr (.inl ⟨dt, now, rfl, rfl, rfl, h⟩))))))
      | ended =>
        rw [react, step_of_ended hs hst] at h
        exact .inl (Prod.mk.inj (Except.pure_eq_ok.1 h).symm)
  | terminate now =>
    obtain ⟨rfl, rfl⟩ := Prod.mk.inj (Except.pure_eq_ok.1 h).symm
    cases hs : r.stopped with
    | true =>
      rw [terminate_of_stopped hs]
      exact .inl ⟨rfl, rfl⟩
    | false => exact .inr (.inr (.inr (.inr (.inr (.inr (.inr ⟨now, rfl, rfl, rfl, rfl⟩))))))

end Room

end Skirmish
