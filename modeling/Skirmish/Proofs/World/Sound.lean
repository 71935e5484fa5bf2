import Mathlib
import Skirmish.Proofs.World.Later
import Skirmish.Room.Rules

/-!
# Sound players, projectiles and worlds

A player is sound (`Player.Sound`) when its health lies between zero and its maximum, which is
`100`; it is alive exactly while it has health left; a dead player has no health, lies still,
waits a positive time to respawn and has no damagers; and each cooldown it keeps is still
running. A projectile is sound when it carries the damage of its skill (`Projectile.Sound`), and
a world when each of its entities is (`World.Sound`).

The operations of a world outside a collision pass keep it sound: changes that keep each entity
sound, spawning sound entities, removals, scoring, a tick by a finite time (`sound_advance`) and
a skill (`sound_useSkill`). The tick needs the time to be finite: a dead player that does not
respawn keeps a countdown above zero because a finite time taken from a positive countdown is
never a NaN (`Float32.isNaN_sub_of_pos`), and a number that is no NaN and not at most zero is
above zero (`Float32.pos_of_not_le_zero`).
-/

namespace Skirmish

open Float.Model

/-! ## Comparing 32-bit floats with zero -/

namespace UnpackedFloat

theorem isNaN_unpack_of_exponent {spec : Format} {b : BitVec spec.numBits}
    (h : UnpackedFloat.unpackExponent b ≠ -1#_) : (UnpackedFloat.unpack spec b).isNaN = false := by
  rw [UnpackedFloat.unpack]
  split
  · contradiction
  · split
    · split <;> rfl
    · rfl

theorem isNaN_unpack_of_mantissa {spec : Format} {b : BitVec spec.numBits}
    (h : UnpackedFloat.unpackMantissa b = 0#_) : (UnpackedFloat.unpack spec b).isNaN = false := by
  rw [UnpackedFloat.unpack]
  split
  · simp [UnpackedFloat.isNaN]
  · split
    · simp [UnpackedFloat.isNaN]
    · rfl

/-- Packing a float into 32 bits makes a NaN of a NaN only. -/
theorem isNaN_pack (u : UnpackedFloat) :
    (UnpackedFloat.unpack Format.binary32 (UnpackedFloat.pack Format.binary32 u)).isNaN =
      u.isNaN := by
  cases u with
  | notANumber => decide
  | infinity s => exact isNaN_unpack_of_mantissa UnpackedFloat.unpackMantissa_packComponents
  | zero s => exact isNaN_unpack_of_mantissa UnpackedFloat.unpackMantissa_packComponents
  | finite s m e hm =>
    rw [UnpackedFloat.pack]
    split
    · exact isNaN_unpack_of_mantissa UnpackedFloat.unpackMantissa_packComponents
    · rename_i hbig
      split
      · -- a normal number: its biased exponent is below the all-ones pattern
        refine isNaN_unpack_of_exponent ?_
        rw [UnpackedFloat.unpackExponent_packComponents]
        intro heq
        have := congrArg BitVec.toNat heq
        simp at this hbig
        omega
      · exact isNaN_unpack_of_exponent (by rw [UnpackedFloat.unpackExponent_packComponents]; decide)

theorem isNaN_roundWithAccuracy (spec : Format) (s : UnpackedFloat.Sign) (m : Nat) (e : Int)
    (a : UnpackedFloat.Accuracy) : (UnpackedFloat.roundWithAccuracy spec s m e a).isNaN = false := by
  unfold UnpackedFloat.roundWithAccuracy
  simp only []
  split <;> rfl

/-- Rounding a finite sum never gives a NaN. -/
theorem isNaN_normalize (spec : Format) (m e : Int) (s : UnpackedFloat.Sign) :
    (UnpackedFloat.normalize spec m e s).isNaN = false := by
  rw [UnpackedFloat.normalize]
  split
  · exact isNaN_roundWithAccuracy ..
  · rfl
  · exact isNaN_roundWithAccuracy ..

end UnpackedFloat

namespace Float32

theorem le_iff (a b : Float32) : a ≤ b ↔ a.toModel.unpack.le b.toModel.unpack = true := by
  show decide (a.toModel.le b.toModel = true) = true ↔ _
  exact decide_eq_true_iff

theorem lt_iff (a b : Float32) : a < b ↔ a.toModel.unpack.lt b.toModel.unpack = true := by
  show decide (a.toModel.lt b.toModel = true) = true ↔ _
  exact decide_eq_true_iff

theorem unpack_zero : (0 : Float32).toModel.unpack = .zero .positive := rfl

/-- A float that is no NaN and not at most zero is above zero. -/
theorem pos_of_not_le_zero {x : Float32} (h : ¬ x ≤ 0) (hn : x.isNaN = false) : 0 < x := by
  rw [le_iff, unpack_zero] at h
  rw [lt_iff, unpack_zero]
  change x.toModel.unpack.isNaN = false at hn
  cases hx : x.toModel.unpack with
  | notANumber =>
    rw [hx] at hn
    cases hn
  | infinity s => cases s <;> simp_all [UnpackedFloat.le, UnpackedFloat.lt, UnpackedFloat.compare]
  | zero s => cases s <;> simp_all [UnpackedFloat.le, UnpackedFloat.compare]
  | finite s m e hm => cases s <;> simp_all [UnpackedFloat.le, UnpackedFloat.lt, UnpackedFloat.compare]

/-- A finite time taken from a positive number is no NaN: the number is a positive finite one or
positive infinity, and neither minus a finite one is a NaN. -/
theorem isNaN_sub_of_pos {c dt : Float32} (hc : 0 < c) (hdt : dt.isFinite = true) :
    (c - dt).isNaN = false := by
  change (UnpackedFloat.unpack Format.binary32 (UnpackedFloat.pack Format.binary32
    (UnpackedFloat.sub Format.binary32 c.toModel.unpack dt.toModel.unpack))).isNaN = false
  rw [UnpackedFloat.isNaN_pack]
  rw [lt_iff, unpack_zero] at hc
  change dt.toModel.unpack.isFinite = true at hdt
  cases hx : c.toModel.unpack with
  | notANumber => simp [hx, UnpackedFloat.lt, UnpackedFloat.compare] at hc
  | zero s => simp [hx, UnpackedFloat.lt, UnpackedFloat.compare] at hc
  | infinity s =>
    cases hd : dt.toModel.unpack with
    | notANumber | infinity _ =>
      rw [hd] at hdt
      cases hdt
    | zero _ | finite _ _ _ _ => rfl
  | finite s m e hm =>
    cases hd : dt.toModel.unpack with
    | notANumber | infinity _ =>
      rw [hd] at hdt
      cases hdt
    | zero _ => rfl
    | finite _ _ _ _ => exact UnpackedFloat.isNaN_normalize ..

/-- A positive countdown less a finite time is positive unless it is at most zero. -/
theorem pos_sub_of_not_le {c dt : Float32} (hc : 0 < c) (hdt : dt.isFinite = true)
    (h : ¬ c - dt ≤ 0) : 0 < c - dt :=
  pos_of_not_le_zero h (isNaN_sub_of_pos hc hdt)

end Float32

/-! ## Sound entities -/

/-- A player in a sound state: health between zero and the maximum, `100`; alive exactly with
health left; dead with no health, a positive wait to respawn and no damagers; and every cooldown
it keeps still running. -/
structure Player.Sound (p : Player) : Prop where
  maxHealth : p.maxHealth = playerMaxHealth
  health_nonneg : 0 ≤ p.health
  health_le : p.health ≤ playerMaxHealth
  alive : p.alive = true → 0 < p.health
  dead : p.alive = false → p.health = 0 ∧ 0 < p.respawnCountdown ∧ p.damagedBy = []
  cooldowns : ∀ c ∈ p.cooldowns, 0 < c.2

/-- A projectile carries the damage of its skill. -/
def Projectile.Sound (q : Projectile) : Prop :=
  ∃ s, SkillStats.forSkill q.skillId = some s ∧ q.damage = s.damage

/-- A sound entity: a sound player that lies still while dead, or a sound projectile, or an
effect. -/
structure Entity.Sound (e : Entity) : Prop where
  player : ∀ p, e.player? = some p → p.Sound ∧ (p.alive = false → e.velocity = Vec2.zero)
  projectile : ∀ q, e.projectile? = some q → q.Sound

/-- Every entity of the world is sound. -/
def World.Sound (w : World) : Prop := ∀ e ∈ w.entities, e.Sound

theorem Player.sound_fresh (pid : Int) (cid : Nat) (team : Team) :
    (Player.fresh pid cid team playerMaxHealth).Sound where
  maxHealth := rfl
  health_nonneg := show (0 : Int) ≤ playerMaxHealth by decide
  health_le := Int.le_refl _
  alive _ := show (0 : Int) < playerMaxHealth by decide
  dead h := nomatch h
  cooldowns _ h := nomatch h

/-- The damage, liveness, kills and assists of a player change nothing else that soundness reads. -/
theorem Player.Sound.of_eq {p p' : Player} (h : p.Sound) (hm : p'.maxHealth = p.maxHealth)
    (hh : p'.health = p.health) (ha : p'.alive = p.alive) (hr : p'.respawnCountdown = p.respawnCountdown)
    (hd : p'.damagedBy = p.damagedBy) (hc : p'.cooldowns = p.cooldowns) : p'.Sound :=
  ⟨hm.trans h.maxHealth, hh ▸ h.health_nonneg, hh ▸ h.health_le, fun hp => hh ▸ h.alive (ha ▸ hp),
    fun hp => hh ▸ hr ▸ hd ▸ h.dead (ha ▸ hp), hc ▸ h.cooldowns⟩

namespace Entity

variable {e e' : Entity}

theorem sound_of_player {p : Player} (hk : e.kind = .player p) (hp : p.Sound)
    (hv : p.alive = false → e.velocity = Vec2.zero) : e.Sound where
  player p' h := by
    simp only [player?, hk, Option.some.injEq] at h
    exact h ▸ ⟨hp, hv⟩
  projectile q h := by simp [projectile?, hk] at h

theorem sound_of_projectile {q : Projectile} (hk : e.kind = .projectile q) (hq : q.Sound) :
    e.Sound where
  player p h := by simp [player?, hk] at h
  projectile q' h := by
    simp only [projectile?, hk, Option.some.injEq] at h
    exact h ▸ hq

theorem sound_of_effect {f : Effect} (hk : e.kind = .effect f) : e.Sound where
  player p h := by simp [player?, hk] at h
  projectile q h := by simp [projectile?, hk] at h

theorem Sound.of_player {p : Player} (h : e.Sound) (hk : e.kind = .player p) :
    p.Sound ∧ (p.alive = false → e.velocity = Vec2.zero) :=
  h.player p (by simp [player?, hk])

theorem Sound.of_projectile {q : Projectile} (h : e.Sound) (hk : e.kind = .projectile q) :
    q.Sound :=
  h.projectile q (by simp [projectile?, hk])

/-- A living player's entity is sound whatever its velocity. -/
theorem Sound.of_alive (h : e.Sound) (hk : e'.kind = e.kind) {p : Player}
    (hp : e.player? = some p) (ha : p.alive = true) : e'.Sound where
  player p' hp' := by
    rw [show e'.player? = e.player? by simp [player?, hk], hp, Option.some.injEq] at hp'
    subst hp'
    exact ⟨(h.player _ hp).1, fun hd => by rw [ha] at hd; cases hd⟩
  projectile q hq := h.projectile q (by simpa [projectile?, hk] using hq)

theorem sound_fresh_player (id : Nat) (pos : Vec2) {p : Player} (hp : p.Sound) :
    (Entity.fresh id pos (.player p)).Sound :=
  sound_of_player rfl hp fun _ => rfl

/-- Changing a sound player's data into sound data with the same liveness keeps it sound. -/
theorem Sound.mapPlayer (h : e.Sound) {f : Player → Player}
    (hf : ∀ p, p.Sound → (f p).Sound ∧ (f p).alive = p.alive) : (e.mapPlayer f).Sound := by
  unfold Entity.mapPlayer
  split
  · rename_i p hk
    obtain ⟨hp, hv⟩ := h.of_player hk
    obtain ⟨hfp, ha⟩ := hf p hp
    exact sound_of_player rfl hfp fun hd => hv (ha ▸ hd)
  · exact h

/-- Changing a sound projectile's data while keeping its skill and damage keeps it sound. -/
theorem Sound.mapProjectile (h : e.Sound) {f : Projectile → Projectile}
    (hf : ∀ q, (f q).skillId = q.skillId ∧ (f q).damage = q.damage) :
    (e.mapProjectile f).Sound := by
  unfold Entity.mapProjectile
  split
  · rename_i q hk
    obtain ⟨s, hs, hd⟩ := h.of_projectile hk
    exact sound_of_projectile rfl ⟨s, (hf q).1 ▸ hs, (hf q).2.trans hd⟩
  · exact h

end Entity

/-! ## Cooldowns -/

theorem mem_setCooldown {k : Nat} {v : Float32} {l : List (Nat × Float32)} {c : Nat × Float32}
    (h : c ∈ setCooldown k v l) : c = (k, v) ∨ c ∈ l := by
  induction l with
  | nil => simpa [setCooldown] using h
  | cons x rest ih =>
    unfold setCooldown at h
    split_ifs at h with h₁ h₂
    · rcases List.mem_cons.1 h with h | h
      · exact .inl h
      · exact .inr (List.mem_cons_of_mem _ h)
    · simpa using h
    · rcases List.mem_cons.1 h with h | h
      · exact .inr (h ▸ List.mem_cons_self)
      · exact (ih h).imp id (List.mem_cons_of_mem _)

/-- Every skill cools down for a positive time. -/
theorem SkillStats.cooldown_pos {k : Nat} {s : SkillStats} (h : SkillStats.forSkill k = some s) :
    0 < s.cooldown := by
  unfold SkillStats.forSkill at h
  split at h <;> cases h <;> decide

theorem World.cooldown_pos_of_mem_tick {dt : Float32} {l : List (Nat × Float32)} {c : Nat × Float32}
    (h : c ∈ World.tickCooldowns dt l) : 0 < c.2 := by
  unfold World.tickCooldowns at h
  simpa using (List.mem_filter.1 h).2

/-! ## Sound worlds -/

namespace World

variable {w w' : World}

theorem sound_new (seed : UInt64) (b : MapBounds) : (World.new seed b).Sound := nofun

theorem Sound.of_subset (h : w.Sound) (hs : ∀ e ∈ w'.entities, e ∈ w.entities) : w'.Sound :=
  fun e he => h e (hs e he)

/-- Changing the entities of an id into sound ones keeps a world sound. -/
theorem Sound.update (h : w.Sound) {i : Nat} {f : Entity → Entity}
    (hf : ∀ e ∈ w.entities, e.id = i → (f e).Sound) : (w.update i f).Sound := by
  intro e he
  obtain ⟨e₀, he₀, rfl⟩ := List.mem_map.1 he
  split
  · exact hf e₀ he₀ ‹_›
  · exact h e₀ he₀

/-- A change that keeps every sound entity sound keeps a world sound. -/
theorem Sound.update_of_sound (h : w.Sound) {i : Nat} {f : Entity → Entity}
    (hf : ∀ e : Entity, e.Sound → e.id = i → (f e).Sound) : (w.update i f).Sound :=
  h.update fun e he hi => hf e (h e he) hi

theorem Sound.spawn (h : w.Sound) {pos : Vec2} {k : EntityKind}
    (he : (Entity.fresh w.nextEntityId pos k).Sound) : (w.spawn pos k).2.Sound := by
  intro e hm
  rcases List.mem_append.1 hm with hm | hm
  · exact h e hm
  · rw [List.mem_singleton.1 hm]
    exact he

theorem Sound.spawnEffect (h : w.Sound) (pos : Vec2) (k : EffectKind) (d : Float32)
    (o : Option Nat) : (w.spawnEffect pos k d o).2.Sound :=
  h.spawn (Entity.sound_of_effect rfl)

theorem Sound.spawnPlayer (h : w.Sound) {p : Player} (hp : p.Sound) : (w.spawnPlayer p).2.Sound := by
  rw [spawnPlayer_eq]
  intro e hm
  rcases List.mem_append.1 hm with hm | hm
  · exact h e hm
  · rw [List.mem_singleton.1 hm]
    exact Entity.sound_fresh_player _ _ hp

theorem Sound.remove (h : w.Sound) (i : Nat) : (w.remove i).2.Sound :=
  h.of_subset fun _ he => List.mem_of_mem_filter he

theorem Sound.removePlayer (h : w.Sound) (i : Nat) (keep : Bool) :
    (w.removePlayer i keep).2.Sound := by
  rw [removePlayer_eq]
  split
  · split
    · exact h.remove i
    · exact h.remove i
  · exact h.remove i

theorem Sound.addScore (h : w.Sound) {pid : Int} {n s : Nat} (hs : w.addScore pid n = .ok (s, w')) :
    w'.Sound := by
  obtain ⟨-, rfl⟩ := addScore_eq_ok.1 hs
  exact h

theorem Sound.respawnEffects : ∀ {w : World} (ids : List Nat), w.Sound → (w.respawnEffects ids).Sound
  | w, [], h => h
  | w, i :: rest, h => by
    unfold World.respawnEffects
    split
    · exact Sound.respawnEffects rest (h.spawnEffect _ _ _ _)
    · exact Sound.respawnEffects rest h

/-- A tick by a finite time keeps an entity sound: cooldowns that run out are dropped, a dead
player either respawns at full health or still waits a positive time, and projectiles keep their
damage. -/
theorem sound_advanceEntity {dt : Float32} (hdt : dt.isFinite = true) (b : MapBounds)
    (g : Random.ChaCha8) {e : Entity} (he : e.Sound) : (advanceEntity dt b g e).1.Sound := by
  rcases e with ⟨id, pos, rot, vel, kind⟩
  cases kind with
  | player p =>
    obtain ⟨hp, hv⟩ := he.of_player rfl
    have hp' : ({ p with cooldowns := tickCooldowns dt p.cooldowns } : Player).Sound :=
      ⟨hp.maxHealth, hp.health_nonneg, hp.health_le, hp.alive, hp.dead,
        fun _ hc => cooldown_pos_of_mem_tick hc⟩
    simp only [advanceEntity]
    split_ifs with halive hzero
    · exact Entity.sound_of_player rfl hp' fun hd => by simp [halive] at hd
    · refine Entity.sound_of_player rfl ⟨hp.maxHealth, ?_, ?_, fun _ => ?_, (fun h => by cases h),
        hp'.cooldowns⟩
        fun _ => rfl
      · show 0 ≤ p.maxHealth
        rw [hp.maxHealth]
        decide
      · exact Int.le_of_eq hp.maxHealth
      · show 0 < p.maxHealth
        rw [hp.maxHealth]
        decide
    · have hdead : p.alive = false := by simpa using halive
      obtain ⟨h0, hc, hd⟩ := hp.dead hdead
      exact Entity.sound_of_player rfl ⟨hp.maxHealth, hp.health_nonneg, hp.health_le,
        fun ha => by simp [hdead] at ha,
        fun _ => ⟨h0, Float32.pos_sub_of_not_le hc hdt hzero, hd⟩, hp'.cooldowns⟩
        fun _ => hv hdead
  | projectile q =>
    have hq : q.Sound := he.of_projectile rfl
    exact Entity.sound_of_projectile rfl hq
  | effect f => exact Entity.sound_of_effect rfl

theorem sound_advanceAll {dt : Float32} (hdt : dt.isFinite = true) (b : MapBounds) :
    ∀ (g : Random.ChaCha8) (es : List Entity), (∀ e ∈ es, e.Sound) →
      ∀ e ∈ (advanceAll dt b g es).1, e.Sound
  | _, [], _ => nofun
  | g, e :: rest, h => by
    intro e' he'
    simp only [advanceAll] at he'
    rcases List.mem_cons.1 he' with rfl | he'
    · exact sound_advanceEntity hdt b g (h e List.mem_cons_self)
    · exact sound_advanceAll hdt b _ rest (fun x hx => h x (List.mem_cons_of_mem _ hx)) e' he'

/-- A tick by a finite time keeps a world sound. -/
theorem sound_advance (h : w.Sound) {dt : Float32} (hdt : dt.isFinite = true) :
    (w.advance dt).2.Sound := by
  unfold advance
  refine Sound.respawnEffects _ fun e he => ?_
  exact sound_advanceAll hdt w.bounds w.rng w.entities h e (List.mem_of_mem_filter he)

/-- A skill keeps a well-formed world sound: its projectiles carry the skill's damage, and the
cooldown it starts is positive. -/
theorem sound_useSkill (hw : w.Wf) (h : w.Sound) (caster skill : Nat) (target : Vec2) :
    (useSkill w caster skill target).2.Sound := by
  unfold useSkill
  split
  · rename_i stats e hstats he
    split
    · split
      · exact h
      · refine Sound.update_of_sound ?_ fun e₁ he₁ _ => he₁.mapPlayer fun p hp =>
          ⟨⟨hp.maxHealth, hp.health_nonneg, hp.health_le, hp.alive, hp.dead, fun c hc => ?_⟩, rfl⟩
        · refine (List.foldlRecOn (motive := fun acc : List Nat × World => acc.2.Wf ∧ acc.2.Sound)
            _ _ ⟨hw, h⟩ ?_).2
          rintro acc ⟨hacc, hs⟩ off -
          dsimp only [World.spawn]
          have hq : Projectile.Sound
              ⟨caster, skill, stats.damage, stats.lifetime, stats.piercing, []⟩ := ⟨stats, hstats, rfl⟩
          have hsp := plays_spawn hacc e.position (.projectile
            ⟨caster, skill, stats.damage, stats.lifetime, stats.piercing, []⟩) fun _ => nofun
          refine ⟨(hsp.trans hacc (plays_update ?_)).wf hacc, ?_⟩
          · exact fun _ _ _ => .of_kind_eq rfl rfl
          refine Sound.update (Sound.spawn hs (Entity.sound_of_projectile rfl hq)) fun e₂ he₂ hid => ?_
          obtain rfl := (hsp.wf hacc).eq_of_mem he₂
            (List.mem_append_right _ (List.mem_singleton_self _)) hid
          exact Entity.sound_of_projectile rfl hq
        · rcases mem_setCooldown hc with rfl | hc
          · exact SkillStats.cooldown_pos hstats
          · exact hp.cooldowns c hc
    · exact h
  · exact h

end World

end Skirmish
