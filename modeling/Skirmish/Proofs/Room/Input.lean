import Skirmish.Proofs.Room.Events

/-!
# Input: steering and firing

A player's input first turns and moves its entity, then may fire a skill.

Firing is a fold that spawns one projectile per offset and turns it to its heading. Such a fold
hands out the next ids in turn and adds those entities only (`World.foldl_spawns`), so a skill
that fires adds its projectiles under fresh consecutive ids, each at the caster's position with
the skill's data and no hits, starts the caster's cooldown for the skill, and leaves every other
entity, the scores, the departed, the generator and the bounds alone (`useSkill_fires`). An
unknown skill, or a caster that is missing, no player, dead or cooling down for the skill, fires
nothing and changes nothing (`useSkill_of_refused`).

Input from a connection without a seat is refused with `not_in_room`, and only then
(`Room.handleInput_of_unseated`); outside play, or for a missing or dead player, input does
nothing at all (`Room.handleInput_of_idle`); otherwise the player's entity takes the input's
rotation and movement, the skill is fired from where it stands, and the activity time is
refreshed (`Room.handleInput_of_live`). `useSkill_handleInput_effects` gathers these.
-/

namespace Skirmish

namespace World

variable {w : World}

/-- A world with one more entity at its end, under the next id. -/
theorem wf_push (hw : w.Wf) {q : Entity} (hq : q.id = w.nextEntityId) :
    ({ w with entities := w.entities ++ [q], nextEntityId := w.nextEntityId + 1 } : World).Wf := by
  have h : IdsFrom w { w with entities := w.entities ++ [q], nextEntityId := w.nextEntityId + 1 } :=
    ⟨by simp, by simp [ids, hq]⟩
  exact h.wf hw

/-- In a well-formed world, changing the entity just spawned changes only it. -/
theorem update_spawn (hw : w.Wf) (p : Vec2) (k : EntityKind) (g : Entity → Entity) :
    (w.spawn p k).2.update w.nextEntityId g =
      { w with entities := w.entities ++ [g (Entity.fresh w.nextEntityId p k)],
               nextEntityId := w.nextEntityId + 1 } := by
  have hold : w.entities.map (fun e => if e.id = w.nextEntityId then g e else e) = w.entities := by
    refine (List.map_congr_left fun x hx => ?_).trans (List.map_id w.entities)
    have := hw.lt_next x.id (List.mem_map_of_mem hx)
    simp [Nat.ne_of_lt this]
  simp only [spawn, update, List.map_append, List.map_singleton, hold]
  simp [Entity.fresh]

/-- A fold whose every step spawns an entity of kind `k` at `p`, and then changes it in ways that
keep its id, position and kind, hands out the next ids in turn and adds those entities only. -/
theorem foldl_spawns {α : Type} {p : Vec2} {k : EntityKind}
    {f : List Nat × World → α → List Nat × World} {xs : List α} {acc res : List Nat × World}
    (hres : xs.foldl f acc = res) (hw : acc.2.Wf)
    (hf : ∀ acc x, ∃ g : Entity → Entity,
      f acc x = (acc.1 ++ [acc.2.nextEntityId], (acc.2.spawn p k).2.update acc.2.nextEntityId g) ∧
      ∀ q, (g q).id = q.id ∧ (g q).position = q.position ∧ (g q).kind = q.kind) :
    ∃ qs : List Entity, qs.map (·.id) = List.range' acc.2.nextEntityId xs.length ∧
      (∀ q ∈ qs, q.position = p ∧ q.kind = k) ∧
      res = (acc.1 ++ List.range' acc.2.nextEntityId xs.length,
        { acc.2 with entities := acc.2.entities ++ qs,
                     nextEntityId := acc.2.nextEntityId + xs.length }) := by
  subst hres
  induction xs generalizing acc with
  | nil => exact ⟨[], rfl, by simp, by simp⟩
  | cons x xs ih =>
    obtain ⟨g, hfx, hg⟩ := hf acc x
    rw [update_spawn hw] at hfx
    obtain ⟨hid, hpos, hkind⟩ := hg (Entity.fresh acc.2.nextEntityId p k)
    have hw₁ := wf_push hw hid
    obtain ⟨qs, hids, hqs, hfold⟩ := @ih (acc.1 ++ [acc.2.nextEntityId], _) hw₁
    rw [List.foldl_cons, hfx, hfold]
    refine ⟨g (Entity.fresh acc.2.nextEntityId p k) :: qs, ?_, ?_, ?_⟩
    · rw [List.map_cons, hids, hid, List.length_cons, List.range'_succ]
      rfl
    · intro q hq
      rcases List.mem_cons.1 hq with rfl | hq
      · exact ⟨hpos, hkind⟩
      · exact hqs q hq
    · simp [List.range'_succ, Nat.add_assoc, Nat.add_comm 1]

end World

@[simp] theorem SkillStats.length_offsets (s : SkillStats) : s.offsets.length = s.projectileCount := by
  simp [SkillStats.offsets]

theorem Entity.mapPlayer_of_player? {e : Entity} {p : Player} (hp : e.player? = some p)
    (f : Player → Player) : e.mapPlayer f = { e with kind := .player (f p) } := by
  unfold Entity.mapPlayer
  unfold Entity.player? at hp
  split at hp
  · cases hp
    rfl
  · cases hp

/-- Recording a cooldown sets the one for its skill and keeps the others. -/
theorem find?_setCooldown (skill k : Nat) (secs : Float32) (l : List (Nat × Float32)) :
    (setCooldown skill secs l).find? (·.1 == k) =
      if k = skill then some (skill, secs) else l.find? (·.1 == k) := by
  induction l with
  | nil =>
    by_cases hk : k = skill
    · simp [setCooldown, hk]
    · simp [setCooldown, hk, Ne.symm hk]
  | cons x rest ih =>
    obtain ⟨k', v⟩ := x
    unfold setCooldown
    by_cases hk : k = skill
    · subst hk
      by_cases h₁ : k = k'
      · simp [h₁]
      · by_cases h₂ : k < k'
        · simp [h₁, h₂]
        · simp [h₁, h₂, Ne.symm h₁, ih]
    · by_cases h₁ : skill = k'
      · subst h₁
        simp [hk, Ne.symm hk]
      · by_cases h₂ : skill < k'
        · simp [h₁, h₂, hk, Ne.symm hk]
        · simp only [h₁, h₂, if_false]
          rw [List.find?_cons, List.find?_cons, ih]
          simp only [if_neg hk]

/-- A skill cools down while a recorded cooldown for it is above zero. -/
theorem Player.onCooldown_eq_true_iff (p : Player) (skill : Nat) :
    p.onCooldown skill = true ↔ ∃ c, p.cooldown? skill = some c ∧ 0 < c := by
  unfold Player.onCooldown
  cases p.cooldown? skill <;> simp

theorem Player.cooldown?_setCooldown (p : Player) (skill k : Nat) (secs : Float32) :
    ({ p with cooldowns := setCooldown skill secs p.cooldowns } : Player).cooldown? k =
      if k = skill then some secs else p.cooldown? k := by
  unfold Player.cooldown?
  rw [find?_setCooldown]
  split <;> rfl

section Fire

variable {w : World} {caster skill : Nat} {target : Vec2}

/-- A skill that fires hands out one fresh id per projectile, adds each projectile at the
caster's position with the skill's data and no hits, and then starts the caster's cooldown. -/
theorem useSkill_of_ready (hw : w.Wf) {stats : SkillStats} {e : Entity} {p : Player}
    (hs : SkillStats.forSkill skill = some stats) (he : w.get? caster = some e)
    (hp : e.player? = some p) (ha : p.alive = true) (hc : p.onCooldown skill = false)
    (target : Vec2) :
    ∃ qs : List Entity, qs.map (·.id) = List.range' w.nextEntityId stats.projectileCount ∧
      (∀ q ∈ qs, q.position = e.position ∧
        q.kind = .projectile ⟨caster, skill, stats.damage, stats.lifetime, stats.piercing, []⟩) ∧
      useSkill w caster skill target = (List.range' w.nextEntityId stats.projectileCount,
        ({ w with entities := w.entities ++ qs,
                  nextEntityId := w.nextEntityId + stats.projectileCount } : World).update caster
          (Entity.mapPlayer fun p => { p with cooldowns := setCooldown skill stats.cooldown p.cooldowns })) := by
  unfold useSkill
  rw [hs, he]
  simp only [hp, ha, hc, Bool.not_true, Bool.false_or, Bool.false_eq_true, if_false]
  generalize hres : List.foldl _ ([], w) stats.offsets = res
  obtain ⟨qs, hids, hqs, rfl⟩ := World.foldl_spawns hres hw fun acc x => ⟨_, rfl, fun q => ⟨rfl, rfl, rfl⟩⟩
  rw [SkillStats.length_offsets] at hids
  exact ⟨qs, hids, hqs, by simp⟩

/-- A skill that is unknown, or whose caster is missing, no player, dead or cooling down for it,
fires nothing and changes nothing. -/
theorem useSkill_of_refused (h : ¬ ∃ stats e p, SkillStats.forSkill skill = some stats ∧
    w.get? caster = some e ∧ e.player? = some p ∧ p.alive = true ∧ p.onCooldown skill = false) :
    useSkill w caster skill target = ([], w) := by
  unfold useSkill
  split
  · rename_i stats e hs he
    split
    · rename_i p hp
      split
      · rfl
      · rename_i hready
        simp only [Bool.or_eq_true, Bool.not_eq_eq_eq_not, Bool.not_true, not_or,
          Bool.not_eq_true] at hready
        exact absurd ⟨stats, e, p, hs, he, hp, by simpa using hready.1, hready.2⟩ h
    · rfl
  · rfl

/-- A skill that fires hands out the next ids, each for a fresh projectile at the caster with the
skill's data, starts the caster's cooldown, and leaves everything else as it was. -/
theorem useSkill_fires (hw : w.Wf) {stats : SkillStats} {e : Entity} {p : Player}
    (hs : SkillStats.forSkill skill = some stats) (he : w.get? caster = some e)
    (hp : e.player? = some p) (ha : p.alive = true) (hc : p.onCooldown skill = false) :
    (useSkill w caster skill target).1 = List.range' w.nextEntityId stats.projectileCount ∧
    (∀ i ∈ (useSkill w caster skill target).1, w.get? i = none) ∧
    (useSkill w caster skill target).2.ids = w.ids ++ (useSkill w caster skill target).1 ∧
    (useSkill w caster skill target).2.nextEntityId = w.nextEntityId + stats.projectileCount ∧
    (useSkill w caster skill target).2.scores = w.scores ∧
    (useSkill w caster skill target).2.departed = w.departed ∧
    (useSkill w caster skill target).2.rng = w.rng ∧
    (useSkill w caster skill target).2.bounds = w.bounds ∧
    (∀ i ∈ (useSkill w caster skill target).1, ∃ q, (useSkill w caster skill target).2.get? i = some q ∧
      q.position = e.position ∧
      q.kind = .projectile ⟨caster, skill, stats.damage, stats.lifetime, stats.piercing, []⟩) ∧
    (useSkill w caster skill target).2.get? caster =
      some { e with kind := .player { p with cooldowns := setCooldown skill stats.cooldown p.cooldowns } } ∧
    (∀ i, i ≠ caster → i ∉ (useSkill w caster skill target).1 →
      (useSkill w caster skill target).2.get? i = w.get? i) := by
  obtain ⟨qs, hids, hqs, hout⟩ := useSkill_of_ready hw hs he hp ha hc target
  rw [hout]
  set w₁ : World :=
    { w with entities := w.entities ++ qs, nextEntityId := w.nextEntityId + stats.projectileCount }
  have hids₁ : w₁.ids = w.ids ++ List.range' w.nextEntityId stats.projectileCount := by
    simp [w₁, World.ids, ← hids]
  have hwf₁ : w₁.Wf := by
    refine (World.IdsFrom.mk (by simp [w₁]) ?_ : World.IdsFrom w w₁).wf hw
    rw [hids₁, show w₁.nextEntityId - w.nextEntityId = stats.projectileCount by simp [w₁]]
  have hget₁ : ∀ i, w₁.get? i = (w.get? i).or (qs.find? (·.id == i)) := fun i => by
    simp [w₁, World.get?, List.find?_append]
  have hcaster : caster < w.nextEntityId := by
    obtain ⟨hmem, hid⟩ := World.get?_eq_some he
    exact hid ▸ hw.lt_next e.id (List.mem_map_of_mem hmem)
  have hM : ∀ x : Entity, x.id = caster → (Entity.mapPlayer (fun p : Player =>
      { p with cooldowns := setCooldown skill stats.cooldown p.cooldowns }) x).id = caster :=
    fun x hx => (Entity.mapPlayer_id _ x).trans hx
  refine ⟨rfl, fun i hi => ?_, ?_, rfl, rfl, rfl, rfl, rfl, fun i hi => ?_, ?_, fun i hic hi => ?_⟩
  · have := (List.mem_range'_1.1 hi).1
    exact World.get?_eq_none_iff.2 fun hmem => absurd (hw.lt_next i hmem) (Nat.not_lt.2 this)
  · rw [World.ids_update fun x _ hx => hM x hx, hids₁]
  · have hne : i ≠ caster := Nat.ne_of_gt (Nat.lt_of_lt_of_le hcaster (List.mem_range'_1.1 hi).1)
    rw [World.get?_update_ne (fun x hx => hM x hx) hne]
    obtain ⟨q, hq, rfl⟩ := List.mem_map.1 (hids ▸ hi : i ∈ qs.map (·.id))
    exact ⟨q, hwf₁.get?_eq_some_iff.2 ⟨List.mem_append_right _ hq, rfl⟩, hqs q hq⟩
  · rw [World.get?_update_self (fun x hx => hM x hx), hget₁, he, Option.some_or, Option.map_some,
      Entity.mapPlayer_of_player? hp]
  · rw [World.get?_update_ne (fun x hx => hM x hx) hic, hget₁]
    have hnone : qs.find? (·.id == i) = none :=
      List.find?_eq_none.2 fun q hq hqi => hi (hids ▸ List.mem_map.2 ⟨q, hq, by simpa using hqi⟩)
    rw [hnone, Option.or_none]

end Fire

/-- Steering turns an entity as the input asks, wrapped into `[0, 360)`, and sets its velocity
from the input's movement; nothing else changes. -/
theorem Entity.steer_eq (e : Entity) (input : PlayerInput) :
    e.steer input = { e with rotation := (input.rotation.map normalizeDegrees).getD e.rotation,
                             velocity := (input.movement.map movementVelocity).getD e.velocity } := by
  unfold Entity.steer
  cases input.rotation <;> cases input.movement <;> rfl

namespace Room

variable {r : Room} {conn : Uuid} {input : PlayerInput} {now : Nat}

/-- Input from a connection without a seat is refused. -/
theorem handleInput_of_unseated (h : r.seat? conn = none) :
    r.handleInput conn input now = .error .notInRoom := by
  simp [handleInput, h, throw, throwThe, MonadExceptOf.throw]

/-- Outside play, or for a missing or dead player, input does nothing. -/
theorem handleInput_of_idle {s : Seat} (hs : r.seat? conn = some s)
    (h : r.status ≠ .playing ∨
      ∀ e p, r.world.get? s.entityId = some e → e.player? = some p → p.alive = false) :
    r.handleInput conn input now = .ok ([], r) := by
  unfold handleInput
  simp only [hs]
  by_cases hst : r.status = .playing
  · rw [if_neg (by simpa using hst)]
    have hdead := h.resolve_left (not_not.2 hst)
    split
    · rename_i e he
      split
      · rename_i p hp
        rw [if_pos (by simp [hdead e p he hp])]
        rfl
      · rfl
    · rfl
  · rw [if_pos (by simpa using hst)]
    rfl

/-- A living player in play turns and moves as its input asks; the input's skill, if any, is
then fired from where the player stands, towards the input's target or else that spot; the
room's activity time is refreshed, and nothing else changes. -/
theorem handleInput_of_live {s : Seat} {e : Entity} {p : Player} (hs : r.seat? conn = some s)
    (hplay : r.status = .playing) (he : r.world.get? s.entityId = some e)
    (hp : e.player? = some p) (ha : p.alive = true) :
    (input.skillId = none → r.handleInput conn input now =
      .ok ([], { r with world := r.world.update s.entityId fun _ => e.steer input,
                        lastActivity := now })) ∧
    ∀ k, input.skillId = some k → r.handleInput conn input now =
      .ok ((useSkill (r.world.update s.entityId fun _ => e.steer input) s.entityId k
              (input.target.getD e.position)).1,
        { r with world := (useSkill (r.world.update s.entityId fun _ => e.steer input) s.entityId k
                    (input.target.getD e.position)).2,
                 lastActivity := now }) := by
  have hpos : (e.steer input).position = e.position := by rw [Entity.steer_eq]
  constructor
  · intro hk
    simp [handleInput, hs, hplay, he, hp, ha, hk, pure, Except.pure]
  · intro k hk
    simp [handleInput, hs, hplay, he, hp, ha, hk, hpos, pure, Except.pure]

/-- A seated connection's input is carried out. -/
theorem handleInput_ok_of_seated {s : Seat} (hs : r.seat? conn = some s) :
    ∃ sp r', r.handleInput conn input now = .ok (sp, r') := by
  by_cases hst : r.status = .playing
  · by_cases hlive : ∃ e p, r.world.get? s.entityId = some e ∧ e.player? = some p ∧ p.alive = true
    · obtain ⟨e, p, he, hp, ha⟩ := hlive
      obtain ⟨hnone, hsome⟩ := handleInput_of_live hs hst he hp ha
      cases hk : input.skillId with
      | none => exact ⟨_, _, hnone hk⟩
      | some k => exact ⟨_, _, hsome k hk⟩
    · refine ⟨_, _, handleInput_of_idle hs (.inr fun e p he hp => ?_)⟩
      simpa using fun ha => hlive ⟨e, p, he, hp, ha⟩
  · exact ⟨_, _, handleInput_of_idle hs (.inl hst)⟩

/-- Input is refused exactly for a connection without a seat, and then with `not_in_room`. -/
theorem handleInput_eq_error_iff {err : RoomError} :
    r.handleInput conn input now = .error err ↔ err = .notInRoom ∧ r.seat? conn = none := by
  cases hs : r.seat? conn with
  | none =>
    rw [handleInput_of_unseated hs]
    simp [eq_comm]
  | some s =>
    obtain ⟨sp, r', hok⟩ := handleInput_ok_of_seated hs
    rw [hok]
    simp

end Room

/-- A skill fires exactly when it is known and its caster is a present, living player off
cooldown for it, with the effects `useSkill_fires` lists; input turns, moves and fires for a seated
living player in play, is refused without a seat, and is otherwise ignored. -/
theorem useSkill_handleInput_effects :
    (∀ (w : World) (caster skill : Nat) (target : Vec2),
      (SkillStats.forSkill skill = none ∨ (∀ e, w.get? caster = some e → e.player? = none) ∨
        ∃ e p, w.get? caster = some e ∧ e.player? = some p ∧
          (p.alive = false ∨ ∃ c, p.cooldown? skill = some c ∧ 0 < c)) →
      useSkill w caster skill target = ([], w)) ∧
    (∀ (w : World) (caster skill : Nat) (target : Vec2) (stats : SkillStats) (e : Entity)
        (p : Player), w.Wf → SkillStats.forSkill skill = some stats → w.get? caster = some e →
      e.player? = some p → p.alive = true → (∀ c, p.cooldown? skill = some c → ¬ 0 < c) →
      (useSkill w caster skill target).1 = List.range' w.nextEntityId stats.projectileCount ∧
      (∀ i ∈ (useSkill w caster skill target).1, w.get? i = none) ∧
      (useSkill w caster skill target).2.ids = w.ids ++ (useSkill w caster skill target).1 ∧
      (useSkill w caster skill target).2.nextEntityId = w.nextEntityId + stats.projectileCount ∧
      (useSkill w caster skill target).2.scores = w.scores ∧
      (useSkill w caster skill target).2.departed = w.departed ∧
      (useSkill w caster skill target).2.rng = w.rng ∧
      (useSkill w caster skill target).2.bounds = w.bounds ∧
      (∀ i ∈ (useSkill w caster skill target).1, ∃ q,
        (useSkill w caster skill target).2.get? i = some q ∧ q.position = e.position ∧
        q.kind = .projectile ⟨caster, skill, stats.damage, stats.lifetime, stats.piercing, []⟩) ∧
      (useSkill w caster skill target).2.get? caster =
        some { e with kind := .player { p with cooldowns := setCooldown skill stats.cooldown p.cooldowns } } ∧
      (∀ k, ({ p with cooldowns := setCooldown skill stats.cooldown p.cooldowns } : Player).cooldown? k =
        if k = skill then some stats.cooldown else p.cooldown? k) ∧
      (∀ i, i ≠ caster → i ∉ (useSkill w caster skill target).1 →
        (useSkill w caster skill target).2.get? i = w.get? i)) ∧
    (∀ (r : Room) (conn : Uuid) (input : PlayerInput) (now : Nat) (err : RoomError),
      r.handleInput conn input now = .error err ↔ err = .notInRoom ∧ r.seat? conn = none) ∧
    (∀ (r : Room) (conn : Uuid) (input : PlayerInput) (now : Nat) (s : Seat),
      r.seat? conn = some s →
      (r.status ≠ .playing ∨
        ∀ e p, r.world.get? s.entityId = some e → e.player? = some p → p.alive = false) →
      r.handleInput conn input now = .ok ([], r)) ∧
    (∀ (r : Room) (conn : Uuid) (input : PlayerInput) (now : Nat) (s : Seat) (e : Entity)
        (p : Player), r.seat? conn = some s → r.status = .playing →
      r.world.get? s.entityId = some e → e.player? = some p → p.alive = true →
      (input.skillId = none → r.handleInput conn input now =
        .ok ([], { r with
          world := r.world.update s.entityId fun _ =>
            { e with rotation := (input.rotation.map normalizeDegrees).getD e.rotation,
                     velocity := (input.movement.map movementVelocity).getD e.velocity },
          lastActivity := now })) ∧
      ∀ k, input.skillId = some k → r.handleInput conn input now =
        .ok ((useSkill (r.world.update s.entityId fun _ =>
              { e with rotation := (input.rotation.map normalizeDegrees).getD e.rotation,
                       velocity := (input.movement.map movementVelocity).getD e.velocity })
              s.entityId k (input.target.getD e.position)).1,
          { r with
            world := (useSkill (r.world.update s.entityId fun _ =>
              { e with rotation := (input.rotation.map normalizeDegrees).getD e.rotation,
                       velocity := (input.movement.map movementVelocity).getD e.velocity })
              s.entityId k (input.target.getD e.position)).2,
            lastActivity := now })) := by
  refine ⟨fun w caster skill target hno => useSkill_of_refused ?_,
    fun w caster skill target stats e p hw hs he hp ha hc => ?_,
    fun r conn input now err => Room.handleInput_eq_error_iff,
    fun r conn input now s hs h => Room.handleInput_of_idle hs h,
    fun r conn input now s e p hs hplay he hp ha => ?_⟩
  · rintro ⟨stats, e, p, hs, he, hp, ha, hc⟩
    rcases hno with hno | hno | ⟨e', p', he', hp', hdead⟩
    · rw [hs] at hno
      cases hno
    · rw [hno e he] at hp
      cases hp
    · obtain rfl : e' = e := Option.some.inj (he'.symm.trans he)
      obtain rfl : p' = p := Option.some.inj (hp'.symm.trans hp)
      rcases hdead with hdead | hcool
      · rw [ha] at hdead
        cases hdead
      · rw [← Player.onCooldown_eq_true_iff, hc] at hcool
        cases hcool
  · have hc' : p.onCooldown skill = false := Bool.eq_false_iff.2 fun hcool => by
      obtain ⟨c, hc₁, hc₂⟩ := (Player.onCooldown_eq_true_iff p skill).1 hcool
      exact hc c hc₁ hc₂
    obtain ⟨h₁, h₂, h₃, h₄, h₅, h₆, h₇, h₈, h₉, h₁₀, h₁₁⟩ := useSkill_fires hw hs he hp ha hc'
    exact ⟨h₁, h₂, h₃, h₄, h₅, h₆, h₇, h₈, h₉, h₁₀, fun k => Player.cooldown?_setCooldown p skill k stats.cooldown, h₁₁⟩
  · rw [← Entity.steer_eq]
    exact Room.handleInput_of_live hs hplay he hp ha

/-- A player at the origin fires the three-projectile skill `2`: ids `2` to `4` go to projectiles
at its position, and the skill starts cooling down. -/
theorem useSkill_handleInput_effects_spread :
    let w := ((World.new 0 (MapBounds.forMap 1)).spawn Vec2.zero
      (.player (Player.fresh 7 0 .none playerMaxHealth))).2
    let p := Player.fresh 7 0 .none playerMaxHealth
    let e := Entity.fresh 1 Vec2.zero (.player p)
    let stats : SkillStats := ⟨3, 15, 450, 8, 1.5, 3.0, false⟩
    w.Wf ∧ SkillStats.forSkill 2 = some stats ∧ w.get? 1 = some e ∧ e.player? = some p ∧
    p.alive = true ∧ p.cooldown? 2 = none ∧
    (useSkill w 1 2 ⟨100, 0⟩).1 = [2, 3, 4] ∧
    (∀ i ∈ (useSkill w 1 2 ⟨100, 0⟩).1, ∃ q, (useSkill w 1 2 ⟨100, 0⟩).2.get? i = some q ∧
      q.position = Vec2.zero ∧ q.kind = .projectile ⟨1, 2, stats.damage, stats.lifetime, false, []⟩) ∧
    (useSkill w 1 2 ⟨100, 0⟩).2.get? 1 =
      some { e with kind := .player { p with cooldowns := [(2, stats.cooldown)] } } := by
  intro w p e stats
  have hw₀ := World.wf_new 0 (MapBounds.forMap 1)
  have hw : w.Wf := (World.ages_spawn hw₀ _ _).wf hw₀
  have he : w.get? 1 = some e := rfl
  obtain ⟨h₁, -, -, -, -, -, -, -, h₉, h₁₀, -, -⟩ :=
    useSkill_handleInput_effects.2.1 w 1 2 ⟨100, 0⟩ stats e p hw rfl he rfl rfl
      (fun c hc => by simp [p, Player.fresh, Player.cooldown?] at hc)
  refine ⟨hw, rfl, he, rfl, rfl, rfl, by rw [h₁]; rfl, h₉, ?_⟩
  rw [h₁₀]
  rfl

end Skirmish
