import Skirmish.Proofs.World.Scores
import Skirmish.Proofs.World.Sound

/-!
# Wounds

A collision pass keeps a world sound (`sound_resolveCollisions`). A strike takes the damage of
its projectile from the health of a living player: the health lies between `0` and `100` and the
damage of a sound projectile is `10`, `8` or `15`, so the subtraction stays well inside the 32-bit
range. The victim keeps its health between `0` and its maximum, and a kill leaves it dead with no
health, still, waiting five seconds and with no damagers.

So a pass from a sound world can stop only on an addition that overflows, when a kill, a point,
an assist or a death is counted past the 32-bit range (`resolveCollisions_stopsOnAdd`). And no
player comes back to life within a pass, so every player a pass strikes was alive, with health
left, when the pass began (`resolveCollisions_hits_alive`).
-/

namespace Skirmish

/-! ## Computations that stop only on an addition -/

namespace Checked

/-- A computation that, when it stops, stops on an addition that overflows. -/
def StopsOnAdd {α : Type} (x : Checked α) : Prop :=
  ∀ p, x = .error p → p.message = "attempt to add with overflow"

variable {α β : Type}

theorem stopsOnAdd_pure (a : α) : (pure a : Checked α).StopsOnAdd := nofun

theorem StopsOnAdd.bind {x : Checked α} {f : α → Checked β} (hx : x.StopsOnAdd)
    (hf : ∀ a, x = .ok a → (f a).StopsOnAdd) : (x >>= f).StopsOnAdd := by
  intro p h
  cases hx' : x with
  | error p' =>
    rw [hx'] at h
    cases h
    exact hx p hx'
  | ok a =>
    rw [hx'] at h
    exact hf a hx' p h

theorem stopsOnAdd_addU32 (a b : Nat) : (addU32 a b).StopsOnAdd := by
  intro p h
  unfold addU32 at h
  split at h
  · cases h
  · cases h
    rfl

/-- A fold stops only on an addition when each of its steps does, from every accumulator that
the steps so far keep in `P`. -/
theorem StopsOnAdd.foldlM {f : β → α → Checked β} (P : β → Prop) :
    ∀ {xs : List α} {b : β}, (∀ c a, a ∈ xs → P c → (f c a).StopsOnAdd ∧
      ∀ c', f c a = .ok c' → P c') → P b → (xs.foldlM f b).StopsOnAdd
  | [], b, _, _ => stopsOnAdd_pure b
  | a :: xs, b, hf, hb => by
    rw [List.foldlM_cons]
    obtain ⟨hstop, hstep⟩ := hf b a List.mem_cons_self hb
    exact hstop.bind fun c hc =>
      StopsOnAdd.foldlM P (fun c x hx => hf c x (List.mem_cons_of_mem a hx)) (hstep c hc)

end Checked

open Checked

/-! ## The damage of a strike -/

theorem subI32_eq_ok {a b : Int} (h : i32Min ≤ a - b ∧ a - b ≤ i32Max) : subI32 a b = .ok (a - b) :=
  if_pos h

/-- The damage of every skill, and so of every sound projectile, is `10`, `8` or `15`. -/
theorem Projectile.Sound.damage_mem {q : Projectile} (h : q.Sound) :
    q.damage = 10 ∨ q.damage = 8 ∨ q.damage = 15 := by
  obtain ⟨s, hs, hd⟩ := h
  rw [hd]
  unfold SkillStats.forSkill at hs
  split at hs <;> cases hs <;> simp

/-- Damage taken from a sound player's health never leaves the 32-bit range: the health after it
is the difference, not below zero, and it kills exactly when nothing is left. -/
theorem applyDamage_eq_ok {p : Player} {q : Projectile} (hp : p.Sound) (hq : q.Sound) :
    applyDamage p.health q.damage =
      .ok (max (p.health - q.damage) 0, decide (max (p.health - q.damage) 0 ≤ 0)) := by
  have hle := hp.health_le
  have hnn := hp.health_nonneg
  have hd := hq.damage_mem
  unfold playerMaxHealth at hle
  have hmin : i32Min = -2147483648 := by decide
  have hmax : i32Max = 2147483647 := by decide
  have hrange : i32Min ≤ p.health - q.damage ∧ p.health - q.damage ≤ i32Max := by
    omega
  simp only [applyDamage, subI32_eq_ok hrange]
  rfl

/-! ## One strike -/

variable {w w' : World} {p t : Nat} {ff : Bool}

/-- The victim and the projectile of a strike in a sound world are sound. -/
theorem Strike.sound_of_strike? (h : w.Sound) {s : Strike} (hs : strike? w p t ff = some s) :
    s.victim.Sound ∧ s.shot.Sound := by
  obtain ⟨hp, hq, ht, hv, -⟩ := strike?_eq_some hs
  exact ⟨((h _ (World.get?_eq_some ht).1).player _ hv).1,
    (h _ (World.get?_eq_some hp).1).projectile _ hq⟩

section Hurt

variable {s : Strike} (hv : s.victim.Sound) (hq : s.shot.Sound)
include hv hq

theorem Strike.hurt_stopsOnAdd : s.hurt.StopsOnAdd := by
  unfold Strike.hurt
  rw [applyDamage_eq_ok hv hq]
  refine (stopsOnAdd_pure _).bind fun ⟨health, killed⟩ _ => ?_
  dsimp only
  split
  · exact (stopsOnAdd_addU32 _ _).bind fun _ _ => stopsOnAdd_pure _
  · exact stopsOnAdd_pure _

/-- A strike leaves a living victim sound: hurt with health left, or killed with none, a
positive wait to respawn and no damagers. -/
theorem Strike.sound_hurt (ha : s.victim.alive = true) {v : Player} {killed : Bool}
    {cs : List Nat} (hh : s.hurt = .ok (v, killed, cs)) : v.Sound ∧ v.alive = !killed := by
  unfold Strike.hurt at hh
  obtain ⟨⟨health, k⟩, hd, hh⟩ := Except.bind_eq_ok.1 hh
  rw [applyDamage_eq_ok hv hq, Except.ok.injEq, Prod.mk.injEq] at hd
  obtain ⟨rfl, rfl⟩ := hd
  have h0 : 0 ≤ max (s.victim.health - s.shot.damage) 0 := Int.le_max_right _ _
  have h100 : max (s.victim.health - s.shot.damage) 0 ≤ playerMaxHealth := by
    have hle := hv.health_le
    have hd := hq.damage_mem
    unfold playerMaxHealth at hle ⊢
    omega
  cases hk : decide (max (s.victim.health - s.shot.damage) 0 ≤ 0) with
  | false =>
    rw [hk] at hh
    simp only [Bool.false_eq_true, if_false, Except.pure_eq_ok, Prod.mk.injEq] at hh
    obtain ⟨rfl, rfl, -⟩ := hh
    have hpos : 0 < max (s.victim.health - s.shot.damage) 0 := by simpa using hk
    refine ⟨⟨hv.maxHealth, h0, h100, fun _ => hpos, fun hd => ?_, hv.cooldowns⟩, ha⟩
    rw [ha] at hd
    cases hd
  | true =>
    rw [hk] at hh
    simp only [if_true] at hh
    obtain ⟨deaths, -, hh⟩ := Except.bind_eq_ok.1 hh
    simp only [Except.pure_eq_ok, Prod.mk.injEq] at hh
    obtain ⟨rfl, rfl, -⟩ := hh
    have hzero : max (s.victim.health - s.shot.damage) 0 = 0 :=
      Int.le_antisymm (by simpa using hk) h0
    have hwait : (0 : Float32) < respawnSecs := by decide
    exact ⟨⟨hv.maxHealth, h0, h100, (fun h => by cases h), fun _ => ⟨hzero, hwait, rfl⟩,
      hv.cooldowns⟩, rfl⟩

end Hurt

/-- Recording a player struck keeps a projectile's skill and damage. -/
theorem Entity.Sound.markHit {e : Entity} (h : e.Sound) (t : Nat) : (markHit t e).Sound :=
  h.mapProjectile fun _ => ⟨rfl, rfl⟩

/-- The hurt victim in a player's place is sound when it is, stopped when it died. -/
theorem Entity.sound_placeVictim {v : Player} (hv : v.Sound) {killed : Bool}
    (hk : v.alive = false → killed = true) (e : Entity) : (placeVictim v killed e).Sound := by
  cases killed with
  | false => exact sound_of_player rfl hv fun hd => absurd (hk hd) Bool.false_ne_true
  | true => exact sound_of_player rfl hv fun _ => rfl

namespace World

/-- A strike records the target on the projectile, which keeps its skill and damage, and puts
the sound victim in the target's place. -/
theorem Sound.strike (h : w.Sound) {v : Player} (hv : v.Sound) {killed : Bool}
    (hk : v.alive = false → killed = true) :
    ((w.update p (markHit t)).update t (placeVictim v killed)).Sound :=
  (h.update_of_sound fun _ he _ => he.markHit t).update_of_sound
    fun e _ _ => Entity.sound_placeVictim hv hk e

/-- Counting a kill or an assist keeps an entity sound. -/
theorem Sound.update_counts (h : w.Sound) {i : Nat} {f : Player → Player}
    (hf : ∀ p, (f p).maxHealth = p.maxHealth ∧ (f p).health = p.health ∧ (f p).alive = p.alive ∧
      (f p).respawnCountdown = p.respawnCountdown ∧ (f p).damagedBy = p.damagedBy ∧
      (f p).cooldowns = p.cooldowns) :
    (w.update i (Entity.mapPlayer f)).Sound := by
  refine h.update_of_sound fun e he _ => he.mapPlayer fun p hp => ?_
  obtain ⟨hm, hh, ha, hr, hd, hc⟩ := hf p
  exact ⟨hp.of_eq hm hh ha hr hd hc, ha⟩

theorem Sound.creditOwner (h : w.Sound) {owner : Option (Int × Team)} {o : Nat}
    {killer : Option Int} (hc : creditOwner w owner o = .ok (killer, w')) : w'.Sound := by
  cases owner with
  | none => exact (creditOwner_none hc).2 ▸ h
  | some ot =>
    obtain ⟨-, w₀, sc, hk, hs⟩ := creditOwner_some hc
    have h₀ : w₀.Sound := by
      rcases hk with ⟨q, n, -, -, rfl⟩ | ⟨-, rfl⟩
      · exact h.update_counts fun _ => ⟨rfl, rfl, rfl, rfl, rfl, rfl⟩
      · exact h
    exact h₀.addScore hs

theorem Sound.creditKill (h : w.Sound) {owner : Option (Int × Team)} {o : Nat} {victim : Int}
    {cs : List Nat} {pos : Vec2} {k : KillRecord}
    (hc : creditKill w owner o victim cs pos = .ok (k, w')) : w'.Sound := by
  obtain ⟨_, w₁, _, w₂, h₁, h₂, rfl, -⟩ := creditKill_eq hc
  have h₂ : w₂.Sound := creditAssists_induction World.Sound
    (fun _ _ _ hs => hs.update_counts fun _ => ⟨rfl, rfl, rfl, rfl, rfl, rfl⟩) h₂ (h.creditOwner h₁)
  exact h₂.spawnEffect _ _ _ _

theorem Sound.tryHit (h : w.Sound) {hit : Option AppliedHit}
    (ht : tryHit w p t ff = .ok (hit, w')) : w'.Sound := by
  cases hit with
  | none => exact tryHit_none ht ▸ h
  | some a =>
    obtain ⟨s, hs, ha⟩ := tryHit_some ht
    obtain ⟨v, killed, cs, hh, -, -, -, -, hk⟩ := applyStrike_eq ha
    obtain ⟨hvs, hqs⟩ := Strike.sound_of_strike? h hs
    obtain ⟨hv, hva⟩ := Strike.sound_hurt hvs hqs (strike?_eq_some hs).2.2.2.2.1 hh
    have hw₁ : ((w.update p (markHit t)).update t (placeVictim v killed)).Sound :=
      h.strike hv fun hd => by simpa [hva] using hd
    cases killed with
    | false => exact hk.2 ▸ hw₁
    | true =>
      obtain ⟨k, -, hk⟩ := hk
      exact hw₁.creditKill hk

theorem Sound.collidePair (h : w.Sound) {out out' : CombatOutcome} {spent spent' : List Nat}
    {ab : Nat × Nat} (hc : Skirmish.collidePair ff (out, spent, w) ab = .ok (out', spent', w')) :
    w'.Sound := by
  rcases collidePair_eq hc with ⟨-, -, rfl⟩ | ⟨pr, pl, hit, -, -, hh, -⟩
  · exact h
  · exact h.tryHit hh

end World

/-- A collision pass keeps a world sound. -/
theorem sound_resolveCollisions (h : w.Sound) {out : CombatOutcome}
    (hr : resolveCollisions w ff = .ok (out, w')) : w'.Sound := by
  obtain ⟨spent, wk, hf, rfl⟩ := resolveCollisions_eq hr
  have hk : wk.Sound := Checked.foldlM_induction (fun acc => acc.2.2.Sound)
    (fun ⟨_, _, _⟩ _ ⟨_, _, _⟩ _ hc hstep => hc.collidePair hstep) h hf
  rw [removeAll_eq]
  exact hk.of_subset fun _ he => List.mem_of_mem_filter he

/-! ## A pass stops only on an addition -/

theorem addScore_stopsOnAdd (w : World) (pid : Int) (n : Nat) : (w.addScore pid n).StopsOnAdd :=
  (stopsOnAdd_addU32 _ _).bind fun _ _ => stopsOnAdd_pure _

theorem creditOwner_stopsOnAdd (w : World) (owner : Option (Int × Team)) (o : Nat) :
    (creditOwner w owner o).StopsOnAdd := by
  unfold creditOwner
  split
  · dsimp only
    split
    · refine (stopsOnAdd_addU32 _ _).bind fun _ _ => (stopsOnAdd_pure _).bind fun _ _ =>
        (addScore_stopsOnAdd _ _ _).bind fun x _ => ?_
      obtain ⟨_, _⟩ := x
      exact stopsOnAdd_pure _
    · refine (stopsOnAdd_pure _).bind fun _ _ => (addScore_stopsOnAdd _ _ _).bind fun x _ => ?_
      obtain ⟨_, _⟩ := x
      exact stopsOnAdd_pure _
  · exact stopsOnAdd_pure _

theorem creditAssist_stopsOnAdd (acc : List Int × World) (i : Nat) :
    (creditAssist acc i).StopsOnAdd := by
  unfold creditAssist
  split
  · exact (stopsOnAdd_addU32 _ _).bind fun _ _ => stopsOnAdd_pure _
  · exact stopsOnAdd_pure _

theorem creditKill_stopsOnAdd (w : World) (owner : Option (Int × Team)) (o : Nat) (victim : Int)
    (cs : List Nat) (pos : Vec2) : (creditKill w owner o victim cs pos).StopsOnAdd := by
  unfold creditKill
  refine (creditOwner_stopsOnAdd _ _ _).bind fun ⟨_, _⟩ _ => ?_
  exact (StopsOnAdd.foldlM (fun _ => True)
    (fun c a _ _ => ⟨creditAssist_stopsOnAdd c a, fun _ _ => trivial⟩) trivial).bind
    fun ⟨_, _⟩ _ => stopsOnAdd_pure _

theorem applyStrike_stopsOnAdd {s : Strike} (hv : s.victim.Sound) (hq : s.shot.Sound) :
    (applyStrike w p t s).StopsOnAdd := by
  unfold applyStrike
  refine (Strike.hurt_stopsOnAdd hv hq).bind fun ⟨v, killed, cs⟩ _ => ?_
  dsimp only
  split
  · exact (creditKill_stopsOnAdd _ _ _ _ _ _).bind fun _ _ => stopsOnAdd_pure _
  · exact stopsOnAdd_pure _

theorem tryHit_stopsOnAdd (h : w.Sound) : (tryHit w p t ff).StopsOnAdd := by
  unfold tryHit
  split
  · exact stopsOnAdd_pure _
  · rename_i s hs
    obtain ⟨hv, hq⟩ := Strike.sound_of_strike? h hs
    exact (applyStrike_stopsOnAdd hv hq).bind fun _ _ => stopsOnAdd_pure _

theorem collidePair_stopsOnAdd (h : w.Sound) (out : CombatOutcome) (spent : List Nat) (a b : Nat) :
    (collidePair ff (out, spent, w) (a, b)).StopsOnAdd := by
  unfold collidePair
  dsimp only
  split
  · exact stopsOnAdd_pure _
  · split
    · exact stopsOnAdd_pure _
    · refine (tryHit_stopsOnAdd h).bind fun ⟨hit, _⟩ _ => ?_
      split <;> exact stopsOnAdd_pure _

/-- A pass from a sound world stops, if at all, only on an addition that overflows: a kill, a
point, an assist or a death counted past the 32-bit range. Its damage never overflows. -/
theorem resolveCollisions_stopsOnAdd (h : w.Sound) (ff : Bool) :
    (resolveCollisions w ff).StopsOnAdd := by
  unfold resolveCollisions
  -- each pair stops only on an addition from the sound world the pairs before it left
  refine (StopsOnAdd.foldlM (fun acc => acc.2.2.Sound) (fun ⟨out, spent, wk⟩ ⟨a, b⟩ _ hc =>
    ⟨collidePair_stopsOnAdd hc out spent a b, fun ⟨_, _, _⟩ hstep => hc.collidePair hstep⟩)
    h).bind fun ⟨_, _, _⟩ _ => stopsOnAdd_pure _

/-! ## No one comes back to life in a pass -/

/-- The id of an entity that is a living player. -/
def Entity.liveId? (e : Entity) : Option Nat :=
  e.player?.bind fun p => if p.alive then some e.id else none

/-- The ids of the living players. -/
def World.liveIds (w : World) : List Nat := w.entities.filterMap Entity.liveId?

namespace Entity

theorem liveId?_eq_some {e : Entity} {i : Nat} :
    e.liveId? = some i ↔ e.id = i ∧ ∃ p, e.player? = some p ∧ p.alive = true := by
  unfold liveId?
  cases e.player? with
  | none => simp
  | some p => cases hp : p.alive <;> simp [hp]

theorem liveId?_markHit (t : Nat) (e : Entity) : (markHit t e).liveId? = e.liveId? := by
  simp [liveId?, player?_markHit]

theorem liveId?_mapPlayer {f : Player → Player} (hf : ∀ p, (f p).alive = p.alive) (e : Entity) :
    (e.mapPlayer f).liveId? = e.liveId? := by
  cases hp : e.player? with
  | none =>
    have : e.mapPlayer f = e := by
      unfold mapPlayer
      split
      · simp_all [player?]
      · rfl
    rw [this]
  | some p => simp [liveId?, player?_mapPlayer f hp, hp, hf]

end Entity

namespace World

/-- A change that brings no player to life keeps the living players among those before. -/
theorem liveIds_update {i : Nat} {f : Entity → Entity}
    (hf : ∀ e ∈ w.entities, e.id = i → ∀ j, (f e).liveId? = some j → e.liveId? = some j) :
    (w.update i f).liveIds ⊆ w.liveIds := by
  intro j hj
  obtain ⟨e', he', hj'⟩ := List.mem_filterMap.1 hj
  obtain ⟨e, he, rfl⟩ := List.mem_map.1 he'
  refine List.mem_filterMap.2 ⟨e, he, ?_⟩
  split at hj'
  · exact hf e he ‹_› j hj'
  · exact hj'

theorem liveIds_update_counts {i : Nat} {f : Player → Player} (hf : ∀ p, (f p).alive = p.alive) :
    (w.update i (Entity.mapPlayer f)).liveIds ⊆ w.liveIds :=
  liveIds_update fun e _ _ _ hj => (Entity.liveId?_mapPlayer hf e) ▸ hj

theorem liveIds_spawnEffect (pos : Vec2) (k : EffectKind) (d : Float32) (o : Option Nat) :
    (w.spawnEffect pos k d o).2.liveIds = w.liveIds := by
  simp [liveIds, spawnEffect, spawn, Entity.liveId?, Entity.player?, Entity.fresh]

theorem liveIds_creditOwner {owner : Option (Int × Team)} {o : Nat} {killer : Option Int}
    (h : creditOwner w owner o = .ok (killer, w')) : w'.liveIds ⊆ w.liveIds := by
  cases owner with
  | none => exact (creditOwner_none h).2 ▸ List.Subset.refl _
  | some ot =>
    obtain ⟨-, w₀, sc, hk, hs⟩ := creditOwner_some h
    obtain ⟨-, rfl⟩ := addScore_eq_ok.1 hs
    rcases hk with ⟨q, n, -, -, rfl⟩ | ⟨-, rfl⟩
    · exact liveIds_update_counts fun _ => rfl
    · exact List.Subset.refl _

theorem liveIds_creditKill {owner : Option (Int × Team)} {o : Nat} {victim : Int}
    {cs : List Nat} {pos : Vec2} {k : KillRecord}
    (h : creditKill w owner o victim cs pos = .ok (k, w')) : w'.liveIds ⊆ w.liveIds := by
  obtain ⟨_, w₁, _, w₂, h₁, h₂, rfl, -⟩ := creditKill_eq h
  have h₂ : w₂.liveIds ⊆ w.liveIds := creditAssists_induction (fun w₀ => w₀.liveIds ⊆ w.liveIds)
    (fun _ _ _ hs => List.Subset.trans (liveIds_update_counts fun _ => rfl) hs) h₂
    (liveIds_creditOwner h₁)
  rw [liveIds_spawnEffect]
  exact h₂

/-- A strike brings no player to life, and its target was a living player. -/
theorem liveIds_tryHit (hw : w.Wf) {hit : Option AppliedHit} (h : tryHit w p t ff = .ok (hit, w')) :
    w'.liveIds ⊆ w.liveIds ∧ (hit.isSome → t ∈ w.liveIds) := by
  cases hit with
  | none => exact ⟨tryHit_none h ▸ List.Subset.refl _, nofun⟩
  | some a =>
    obtain ⟨s, hs, ha⟩ := tryHit_some h
    obtain ⟨-, -, ht, hvic, halive, -⟩ := strike?_eq_some hs
    obtain ⟨v, killed, cs, hh, -, -, -, -, hk⟩ := applyStrike_eq ha
    obtain ⟨htm, htid⟩ := get?_eq_some ht
    have hlive : s.target.liveId? = some t := Entity.liveId?_eq_some.2 ⟨htid, _, hvic, halive⟩
    have g₁ : Grows w (w.update p (markHit t)) := grows_update fun e _ _ => Entity.later_markHit t e
    have h₁ : ((w.update p (markHit t)).update t (placeVictim v killed)).liveIds ⊆ w.liveIds := by
      refine List.Subset.trans (liveIds_update fun e he hid j hj => ?_)
        (liveIds_update fun e _ _ j hj => (Entity.liveId?_markHit t e) ▸ hj)
      have hget : (w.update p (markHit t)).get? t = some e := (g₁.wf hw).get?_eq_some_iff.2 ⟨he, hid⟩
      rw [get?_update_ne (fun e h => (markHit_id t e).trans h) (strike?_ne hs).symm, ht,
        Option.some.injEq] at hget
      subst hget
      obtain ⟨rfl, -⟩ := Entity.liveId?_eq_some.1 hj
      rw [placeVictim_id, htid]
      exact hlive
    refine ⟨?_, fun _ => List.mem_filterMap.2 ⟨_, htm, hlive⟩⟩
    cases killed with
    | false => exact hk.2 ▸ h₁
    | true =>
      obtain ⟨k, -, hk⟩ := hk
      exact List.Subset.trans (liveIds_creditKill hk) h₁

/-- A pair of a pass brings no player to life and strikes only a living player. -/
theorem liveIds_collidePair (hw : w.Wf) {out out' : CombatOutcome} {spent spent' : List Nat}
    {ab : Nat × Nat} (h : Skirmish.collidePair ff (out, spent, w) ab = .ok (out', spent', w')) :
    w'.liveIds ⊆ w.liveIds ∧ ∀ x ∈ out'.hits, x ∈ out.hits ∨ x.targetId ∈ w.liveIds := by
  rcases collidePair_eq h with ⟨rfl, -, rfl⟩ | ⟨pr, pl, hit, -, -, hh, rfl, -⟩
  · exact ⟨List.Subset.refl _, fun x hx => .inl hx⟩
  · obtain ⟨hl, hpl⟩ := liveIds_tryHit hw hh
    obtain ⟨-, htid, -⟩ := tryHit_records hw hh
    refine ⟨hl, fun x hx => ?_⟩
    rcases List.mem_append.1 hx with hx | hx
    · exact .inl hx
    · rw [List.mem_singleton.1 hx, htid]
      exact .inr (hpl rfl)

end World

/-- Every player a pass strikes was alive, with health left, when the pass began: no player
comes back to life within a pass, and a strike needs a living target. -/
theorem resolveCollisions_hits_alive (hw : w.Wf) (h : w.Sound) {out : CombatOutcome}
    (hr : resolveCollisions w ff = .ok (out, w')) :
    ∀ x ∈ out.hits, ∃ p, (w.get? x.targetId).bind Entity.player? = some p ∧ p.alive = true ∧
      0 < p.health := by
  obtain ⟨spent, wk, hf, -⟩ := resolveCollisions_eq hr
  have hfold : World.Grows w wk ∧ wk.liveIds ⊆ w.liveIds ∧ ∀ x ∈ out.hits, x.targetId ∈ w.liveIds :=
    Checked.foldlM_induction
      (fun acc => World.Grows w acc.2.2 ∧ acc.2.2.liveIds ⊆ w.liveIds ∧
        ∀ x ∈ acc.1.hits, x.targetId ∈ w.liveIds)
      (fun ⟨_, _, wk⟩ _ ⟨_, _, _⟩ _ ⟨hg, hl, hx⟩ hstep => by
        have hwk := hg.wf hw
        obtain ⟨hl', hx'⟩ := World.liveIds_collidePair hwk hstep
        refine ⟨hg.trans hw (grows_collidePair hwk hstep), List.Subset.trans hl' hl, fun x hx₁ => ?_⟩
        rcases hx' x hx₁ with hx₁ | hx₁
        · exact hx x hx₁
        · exact hl hx₁)
      ⟨.refl w, List.Subset.refl _, nofun⟩ hf
  intro x hx
  obtain ⟨e, he, hlive⟩ := List.mem_filterMap.1 (hfold.2.2 x hx)
  obtain ⟨hid, p, hp, halive⟩ := Entity.liveId?_eq_some.1 hlive
  rw [hw.get?_eq_some_iff.2 ⟨he, hid⟩, Option.bind_some]
  exact ⟨p, hp, halive, ((h e he).player p hp).1.alive halive⟩

end Skirmish
