import Skirmish.Proofs.Combat.Wounds
import Skirmish.Proofs.Room.Seats

/-!
# The health of the players of a room

Every request keeps the world of a room sound (`react_sound`) as long as its steps take a finite
time: a seat spawns a player with full health, a leave and the end only remove, input turns and
moves a living player and fires its skill, and a step of play ticks the world and then resolves
its collisions. So every turn of a run from a new room leaves the room in good health
(`Turn.Healthy`, `runEvents_health`): its world is sound, its next request can stop only on an
addition that overflows, never on the subtraction of damage, and the input of a dead player
changes nothing. Each step of play, moreover, strikes only players that were alive, with health
left, when its collisions began.
-/

namespace Skirmish

namespace Room

/-- Whether a request takes a finite time: every request but a step does. -/
def Event.isFinite : Event → Bool
  | .step dt _ => dt.isFinite
  | _ => true

variable {r r' : Room} {conn : Uuid} {now : Nat}

/-! ## Each request keeps the world sound -/

theorem sound_seatPlayer (h : r.world.Sound) (pid : Int) (cid : Nat) :
    (r.seatPlayer conn pid cid now).2.world.Sound := by
  rw [seatPlayer_eq]
  exact h.spawnPlayer (Player.sound_fresh _ _ _)

theorem sound_unseat (h : r.world.Sound) {s : Seat} (hu : r.unseat conn now = some (s, r')) :
    r'.world.Sound := by
  obtain ⟨-, rfl⟩ := unseat_eq_some.1 hu
  exact h.removePlayer _ _

/-- Input turns and moves a living player, which keeps its entity sound, and fires its skill. -/
theorem sound_handleInput (hw : r.world.Wf) (h : r.world.Sound) {input : PlayerInput}
    {sp : List Nat} (hr : r.handleInput conn input now = .ok (sp, r')) : r'.world.Sound := by
  rcases handleInput_eq_ok hr with rfl | ⟨s, e, e', -, -, he, ⟨p, hp, ha⟩, hid, hk, hr'⟩
  · exact h
  · have hu : (r.world.update s.entityId fun _ => e').Sound := by
      refine h.update fun x hx hxid => ?_
      obtain rfl := hw.eq_of_mem hx (World.get?_eq_some he).1
        (hxid.trans (World.get?_eq_some he).2.symm)
      exact (h x hx).of_alive hk hp ha
    have hwu : (r.world.update s.entityId fun _ => e').Wf :=
      (World.idsFrom_update fun _ _ _ => hid.trans (World.get?_eq_some he).2).wf hw
    rcases hr' with rfl | ⟨skill, target, rfl⟩
    · exact hu
    · exact World.sound_useSkill hwu hu _ _ _

/-- A step of play by a finite time ticks a sound world, which stays sound, and resolves its
collisions, which keeps it so. -/
theorem sound_simulate (h : r.world.Sound) {dt : Float32} (hdt : dt.isFinite = true)
    {out : TickOutput} (hr : r.simulate dt now = .ok (out, r')) : r'.world.Sound := by
  obtain ⟨o, r₁, hres, hr₁, -, -, hend⟩ := simulate_eq_ok hr
  have h₁ : r₁.world.Sound := sound_resolveCollisions (World.sound_advance h hdt) hres
  rcases hend with ⟨-, -, rfl, -⟩ | ⟨-, rfl, -⟩
  · exact h₁
  · exact h₁

/-- Every request whose time is finite keeps the world of a room sound. -/
theorem react_sound (ha : r.SeatsAgree) (h : r.world.Sound) {e : Event} (he : e.isFinite = true)
    {out : TickOutput} (hr : r.react e = .ok (out, r')) : r'.world.Sound := by
  rcases react_cases hr with ⟨-, rfl⟩ | ⟨_, pid, cid, _, -, -, -, -, rfl⟩ | ⟨_, _, _, -, -, hu⟩ |
    ⟨_, _, -, -, hs⟩ | ⟨_, _, _, _, -, -, hi⟩ | ⟨_, _, -, -, -, -, rfl⟩ |
    ⟨dt, _, rfl, -, -, hsim⟩ | ⟨_, -, -, -, rfl⟩
  · exact h
  · exact sound_seatPlayer h pid cid
  · exact sound_unseat h hu
  · obtain ⟨-, rfl⟩ := setReady_eq_ok.1 hs
    exact h
  · exact sound_handleInput ha.wf h hi
  · unfold checkReady
    split <;> exact h
  · exact sound_simulate h he hsim
  · rw [terminate_world]
    exact h

/-! ## A room stops only on an addition -/

theorem simulate_stopsOnAdd {dt : Float32} (h : (r.world.advance dt).2.Sound) :
    (r.simulate dt now).StopsOnAdd := by
  unfold simulate
  refine (resolveCollisions_stopsOnAdd h _).bind fun ⟨_, _⟩ _ => ?_
  dsimp only
  split <;> exact Checked.stopsOnAdd_pure _

/-- A request to a room with a sound world, when its time is finite, stops, if at all, on an
addition that overflows: a strike's damage never does. -/
theorem react_stopsOnAdd (h : r.world.Sound) {e : Event} (he : e.isFinite = true) :
    (r.react e).StopsOnAdd := by
  cases e with
  | step dt now =>
    show (r.step dt now).StopsOnAdd
    unfold step
    split
    · exact Checked.stopsOnAdd_pure _
    · split
      · exact Checked.stopsOnAdd_pure _
      · exact simulate_stopsOnAdd (World.sound_advance h he)
      · exact Checked.stopsOnAdd_pure _
  | join | leave | ready | input | terminate => exact Checked.stopsOnAdd_pure _

/-! ## Dead players -/

/-- The input of a seat whose player is dead changes nothing: a dead player is neither turned nor
moved by input, and fires nothing. -/
theorem react_input_of_dead {s : Seat} {p : Player} (hs : r.seat? conn = some s)
    (hp : (r.world.get? s.entityId).bind Entity.player? = some p) (hd : p.alive = false)
    (input : PlayerInput) (now : Nat) :
    r.react (.input conn input now) = .ok (TickOutput.none, r) := by
  obtain ⟨e, he, hpe⟩ := Option.bind_eq_some_iff.1 hp
  have hin : r.handleInput conn input now = .ok ([], r) := by
    unfold handleInput
    simp only [hs, he, hpe, hd]
    split <;> rfl
  rw [react, hin]
  rfl

/-- A step of play by a finite time from a well-formed sound world strikes only players that
were alive, with health left, when its collisions began. -/
theorem simulate_strikes_living (hw : r.world.Wf) (h : r.world.Sound) {dt : Float32}
    (hdt : dt.isFinite = true) {out : TickOutput} (hr : r.simulate dt now = .ok (out, r')) :
    ∃ o, resolveCollisions (r.world.advance dt).2 r.rules.friendlyFire = .ok (o, r'.world) ∧
      ∀ x ∈ o.hits, ∃ p, ((r.world.advance dt).2.get? x.targetId).bind Entity.player? = some p ∧
        p.alive = true ∧ 0 < p.health := by
  obtain ⟨o, r₁, hres, hr₁, -, -, hend⟩ := simulate_eq_ok hr
  have hworld : r'.world = r₁.world := by
    rcases hend with ⟨-, -, rfl, -⟩ | ⟨-, rfl, -⟩ <;> rfl
  rw [hworld]
  exact ⟨o, hres, resolveCollisions_hits_alive ((World.plays_advance hw dt).wf hw)
    (World.sound_advance h hdt) hres⟩

/-! ## Runs -/

/-- A run of requests with finite times from a room whose seats agree with its sound world passes
through rooms with sound worlds only. -/
theorem runEvents_sound (ha : r.SeatsAgree) (h : r.world.Sound) {es : List Event}
    (hfin : ∀ e ∈ es, e.isFinite = true) {turns : List Turn}
    (hrun : r.runEvents es = .ok (turns, r')) :
    ∀ t ∈ turns, t.before.world.Sound ∧ t.after.world.Sound ∧ t.event.isFinite = true := by
  induction es generalizing r turns with
  | nil =>
    obtain ⟨rfl, -⟩ := runEvents_nil_eq_ok.1 hrun
    simp
  | cons e es ih =>
    obtain ⟨out, r₁, turns', h₁, h₂, rfl⟩ := runEvents_cons_eq_ok.1 hrun
    have he := hfin e List.mem_cons_self
    have h₁s := react_sound ha h he h₁
    intro t ht
    rcases List.mem_cons.1 ht with rfl | ht
    · exact ⟨h, h₁s, he⟩
    · exact ih (ha.react h₁) h₁s (fun e he => hfin e (List.mem_cons_of_mem _ he)) h₂ t ht

/-- A turn that leaves a room in good health. The room after it has a sound world: each player
has the maximum health `100` and health between `0` and `100`, has health left while alive, and
while dead has none, lies still, waits a positive time to respawn and has no damagers; each
projectile carries the damage of its skill; and each cooldown is still running. So its next
request, if its time is finite, can stop only on an addition that overflows, never on the
subtraction of damage, and the input of a seat whose player is dead changes nothing. A step of
play, moreover, strikes only players that were alive, with health left, when its collisions
began. -/
structure Turn.Healthy (t : Turn) : Prop where
  sound : t.after.world.Sound
  stops : ∀ e : Event, e.isFinite = true → (t.after.react e).StopsOnAdd
  still : ∀ c s p input now, t.after.seat? c = some s →
    (t.after.world.get? s.entityId).bind Entity.player? = some p → p.alive = false →
    t.after.react (.input c input now) = .ok (TickOutput.none, t.after)
  strikes : ∀ dt now, t.event = .step dt now → t.before.stopped = false →
    t.before.status = .playing →
    ∃ o, resolveCollisions (t.before.world.advance dt).2 t.before.rules.friendlyFire =
        .ok (o, t.after.world) ∧
      ∀ x ∈ o.hits, ∃ p, ((t.before.world.advance dt).2.get? x.targetId).bind Entity.player? =
        some p ∧ p.alive = true ∧ 0 < p.health

/-- Every turn of a run from a new room whose steps take finite times leaves the room in good
health. -/
theorem runEvents_health {config : RoomConfig} {id : Uuid} {seed : UInt64} {now : Nat}
    {es : List Event} {turns : List Turn} (hfin : ∀ e ∈ es, e.isFinite = true)
    (h : (Room.new config id seed now).runEvents es = .ok (turns, r')) :
    ∀ t ∈ turns, t.Healthy := by
  have hr := (Reachable.new config id seed now).runEvents h
  have hs := runEvents_sound (SeatsAgree.new config id seed now) (World.sound_new _ _) hfin h
  intro t ht
  obtain ⟨hb, ha, hfe⟩ := hs t ht
  refine ⟨ha, fun e he => react_stopsOnAdd ha he,
    fun c s p input n hs hp hd => react_input_of_dead hs hp hd input n, fun dt n hev hst hpl => ?_⟩
  have hreact := react_of_mem_runEvents h t ht
  rw [hev] at hreact hfe
  rw [react, step_of_playing hst hpl] at hreact
  exact simulate_strikes_living (hr.1 t ht).seatsAgree.wf hb hfe hreact

/-- Two players join a new deathmatch room and get ready, a step starts the game and a second
step plays it: every turn leaves the room in good health. -/
theorem runEvents_health_played :
    ∃ turns r', (Room.new (RoomConfig.new "arena" .deathMatch) ⟨0⟩ 0 0).runEvents
        [.join ⟨1⟩ 7 1 0, .join ⟨2⟩ 8 1 0, .ready ⟨1⟩ true, .ready ⟨2⟩ true, .step 0.5 0,
          .step 0.5 1] = .ok (turns, r') ∧
      (∀ e ∈ ([.join ⟨1⟩ 7 1 0, .join ⟨2⟩ 8 1 0, .ready ⟨1⟩ true, .ready ⟨2⟩ true, .step 0.5 0,
          .step 0.5 1] : List Event), e.isFinite = true) ∧
      ∀ t ∈ turns, t.Healthy := by
  obtain ⟨turns, r', h⟩ : ∃ turns r', (Room.new (RoomConfig.new "arena" .deathMatch) ⟨0⟩ 0 0).runEvents
      [.join ⟨1⟩ 7 1 0, .join ⟨2⟩ 8 1 0, .ready ⟨1⟩ true, .ready ⟨2⟩ true, .step 0.5 0,
        .step 0.5 1] = .ok (turns, r') := ⟨_, _, rfl⟩
  have hfin : ∀ e ∈ ([.join ⟨1⟩ 7 1 0, .join ⟨2⟩ 8 1 0, .ready ⟨1⟩ true, .ready ⟨2⟩ true,
      .step 0.5 0, .step 0.5 1] : List Event), e.isFinite = true := by decide
  exact ⟨turns, r', h, hfin, runEvents_health hfin h⟩

end Room

end Skirmish
