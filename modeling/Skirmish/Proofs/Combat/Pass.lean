import Skirmish.Proofs.World.Later

/-!
# What one collision pass does

`resolveCollisions` folds `collidePair` over the ordered pairs of the ids present at its start
and then removes the projectiles it spent. This module says once, for each piece of that pass,
what a successful run of it did, so that later proofs never unfold the pieces again:

* `strike?_eq_some`: the checks a strike passed;
* `Strike.hurt_eq`: the target after a strike is the victim with only its health, damagers,
  liveness, respawn countdown and deaths changed;
* `applyStrike_eq`: the projectile records the target, the target is replaced by the hurt
  victim, and a kill is credited;
* `creditOwner_some`, `creditKill_eq`, `creditAssists_induction`: the kill and the point of the
  owner, the assists, the explosion;
* `collidePair_eq`: a pair either changes nothing or is one strike of a projectile that is not
  spent;
* `resolveCollisions_eq`: the fold, then the removals.

Every piece keeps the id discipline of `World.IdsFrom`, and so does the pass.
-/

namespace Skirmish

open World

variable {w w' : World} {p t : Nat} {ff : Bool}

/-! ## A strike -/

/-- A strike was found for a projectile and a player that are present, the player alive, not
struck by the projectile before and not its owner, and their circles overlapping; the owner is
the owner's player and team when the owner is present as a player. -/
theorem strike?_eq_some {s : Strike} (h : strike? w p t ff = some s) :
    w.get? p = some s.projectile ∧ s.projectile.projectile? = some s.shot ∧
      w.get? t = some s.target ∧ s.target.player? = some s.victim ∧
      s.victim.alive = true ∧ s.shot.hitEntities.contains t = false ∧ s.shot.ownerId ≠ t ∧
      s.owner = ((w.get? s.shot.ownerId).bind Entity.player?).map (fun q => (q.playerId, q.team)) ∧
      circlesOverlap s.projectile.position projectileRadius s.target.position playerRadius =
        true := by
  unfold strike? at h
  split at h
  · split at h
    · simp only [Option.ite_none_left_eq_some, Option.some.injEq] at h
      obtain ⟨h1, -, h3, rfl⟩ := h
      simp only [Bool.or_eq_true, Bool.not_eq_true', decide_eq_true_eq, not_or] at h1
      simp_all
    · cases h
  · cases h

/-- A projectile strikes a player, never itself: the two entities differ in kind. -/
theorem strike?_ne {s : Strike} (h : strike? w p t ff = some s) : p ≠ t := by
  obtain ⟨hp, hq, ht, hv, -⟩ := strike?_eq_some h
  rintro rfl
  rw [hp, Option.some.injEq] at ht
  rw [ht] at hq
  cases hk : s.target.kind <;> simp [Entity.projectile?, Entity.player?, hk] at hq hv

/-- The target after a strike is the victim with only its health, damagers, liveness, respawn
countdown and deaths changed; only a kill names contributors. -/
theorem Strike.hurt_eq {s : Strike} {v : Player} {killed : Bool} {cs : List Nat}
    (h : s.hurt = .ok (v, killed, cs)) :
    ∃ health damagedBy alive countdown deaths,
      v = { s.victim with health, damagedBy, alive, respawnCountdown := countdown, deaths } ∧
      (killed = false → cs = []) := by
  unfold Strike.hurt at h
  obtain ⟨⟨health, k⟩, hd, h⟩ := Except.bind_eq_ok.1 h
  cases k with
  | false =>
    simp only [Bool.false_eq_true, if_false, Except.pure_eq_ok, Prod.mk.injEq] at h
    obtain ⟨rfl, rfl, rfl⟩ := h
    exact ⟨_, _, _, _, _, rfl, fun _ => rfl⟩
  | true =>
    simp only [if_true] at h
    obtain ⟨deaths, _, h⟩ := Except.bind_eq_ok.1 h
    simp only [Except.pure_eq_ok, Prod.mk.injEq] at h
    obtain ⟨rfl, rfl, rfl⟩ := h
    exact ⟨_, _, _, _, _, rfl, fun h => by cases h⟩

/-- Records `t` among the hits of a projectile. -/
def markHit (t : Nat) : Entity → Entity :=
  Entity.mapProjectile fun q => { q with hitEntities := insertId t q.hitEntities }

/-- Puts the hurt victim `v` in place of a player, stopped when it was killed. -/
def placeVictim (v : Player) (killed : Bool) (e : Entity) : Entity :=
  let e := { e with kind := .player v }
  if killed then { e with velocity := Vec2.zero } else e

@[simp] theorem markHit_id (t : Nat) (e : Entity) : (markHit t e).id = e.id :=
  Entity.mapProjectile_id _ _

theorem mem_insertId {x y : Nat} {l : List Nat} : y ∈ insertId x l ↔ y = x ∨ y ∈ l := by
  induction l with
  | nil => simp [insertId]
  | cons z rest ih =>
    unfold insertId
    split
    · subst_vars; simp
    · split <;> simp [ih, or_left_comm]

@[simp] theorem placeVictim_id (v : Player) (killed : Bool) (e : Entity) :
    (placeVictim v killed e).id = e.id := by
  unfold placeVictim; split <;> rfl

@[simp] theorem placeVictim_player? (v : Player) (killed : Bool) (e : Entity) :
    (placeVictim v killed e).player? = some v := by
  unfold placeVictim; split <;> rfl

/-- A strike records the target on the projectile, puts the hurt victim in the target's place,
and on a kill credits it. -/
theorem applyStrike_eq {s : Strike} {a : AppliedHit} (h : applyStrike w p t s = .ok (a, w')) :
    ∃ v killed cs, s.hurt = .ok (v, killed, cs) ∧
      a.result.projectileId = p ∧ a.result.targetId = t ∧ a.result.damage = s.shot.damage ∧
      a.piercing = s.shot.piercing ∧
      if killed then ∃ k, a.kill = some k ∧
          creditKill ((w.update p (markHit t)).update t (placeVictim v killed)) s.owner
            s.shot.ownerId s.victim.playerId cs s.target.position = .ok (k, w')
      else a.kill = none ∧ w' = (w.update p (markHit t)).update t (placeVictim v killed) := by
  unfold applyStrike at h
  obtain ⟨⟨v, killed, cs⟩, hh, h⟩ := Except.bind_eq_ok.1 h
  refine ⟨v, killed, cs, hh, ?_⟩
  cases killed with
  | false =>
    simp only [Bool.false_eq_true, if_false, Except.pure_eq_ok, Prod.mk.injEq] at h
    obtain ⟨rfl, rfl⟩ := h
    exact ⟨rfl, rfl, rfl, rfl, rfl, rfl⟩
  | true =>
    simp only [if_true] at h
    obtain ⟨⟨k, w₂⟩, hk, h⟩ := Except.bind_eq_ok.1 h
    simp only [Except.pure_eq_ok, Prod.mk.injEq] at h
    obtain ⟨rfl, rfl⟩ := h
    exact ⟨rfl, rfl, rfl, rfl, k, rfl, hk⟩

/-! ## Crediting a kill -/

theorem creditOwner_none {o : Nat} {killer : Option Int}
    (h : creditOwner w none o = .ok (killer, w')) : killer = none ∧ w' = w := by
  simp only [creditOwner, Except.pure_eq_ok, Prod.mk.injEq] at h
  exact ⟨h.1.symm, h.2.symm⟩

/-- A present owner's player gets a point, and the owner's entity, when still a player, the
kill. -/
theorem creditOwner_some {pid : Int} {team : Team} {o : Nat} {killer : Option Int}
    (h : creditOwner w (some (pid, team)) o = .ok (killer, w')) :
    killer = some pid ∧ ∃ w₀ sc,
      ((∃ q n, (w.get? o).bind Entity.player? = some q ∧ addU32 q.kills 1 = .ok n ∧
          w₀ = w.update o (Entity.mapPlayer fun p => { p with kills := n })) ∨
        ((w.get? o).bind Entity.player? = none ∧ w₀ = w)) ∧
      w₀.addScore pid 1 = .ok (sc, w') := by
  simp only [creditOwner] at h
  split at h
  · rename_i q hq
    simp only [Except.bind_eq_ok, Except.pure_eq_ok] at h
    obtain ⟨n, hn, w₀, rfl, ⟨sc, w₁⟩, hs, h⟩ := h
    cases h
    exact ⟨rfl, _, sc, .inl ⟨q, n, hq, hn, rfl⟩, hs⟩
  · rename_i hq
    simp only [Except.bind_eq_ok, Except.pure_eq_ok] at h
    obtain ⟨w₀, rfl, ⟨sc, w₁⟩, hs, h⟩ := h
    cases h
    exact ⟨rfl, _, sc, .inr ⟨hq, rfl⟩, hs⟩

/-- Whatever survives an assist update survives all the assists of a kill. -/
theorem creditAssists_induction (P : World → Prop)
    (hP : ∀ w i n, P w → P (w.update i (Entity.mapPlayer fun p => { p with assists := n })))
    {cs : List Nat} {as as' : List Int} (h : cs.foldlM creditAssist (as, w) = .ok (as', w'))
    (hw : P w) : P w' := by
  refine Checked.foldlM_induction (fun acc => P acc.2) (fun c i c' _ hc hstep => ?_) hw h
  unfold creditAssist at hstep
  split at hstep
  · obtain ⟨n, _, hstep⟩ := Except.bind_eq_ok.1 hstep
    rw [Except.pure_eq_ok] at hstep
    subst hstep
    exact hP _ _ _ hc
  · rw [Except.pure_eq_ok] at hstep
    exact hstep ▸ hc

/-- Crediting a kill is the owner's credit, then the assists, then the explosion. -/
theorem creditKill_eq {owner : Option (Int × Team)} {o : Nat} {victim : Int} {cs : List Nat}
    {pos : Vec2} {k : KillRecord} (h : creditKill w owner o victim cs pos = .ok (k, w')) :
    ∃ killer w₁ as w₂, creditOwner w owner o = .ok (killer, w₁) ∧
      cs.foldlM creditAssist ([], w₁) = .ok (as, w₂) ∧
      w' = (w₂.spawnEffect pos .explosion explosionSecs (owner.map fun _ => o)).2 ∧
      k = ⟨killer, victim, as, pos⟩ := by
  unfold creditKill at h
  obtain ⟨⟨killer, w₁⟩, h₁, h⟩ := Except.bind_eq_ok.1 h
  obtain ⟨⟨as, w₂⟩, h₂, h⟩ := Except.bind_eq_ok.1 h
  simp only [Except.pure_eq_ok, Prod.mk.injEq] at h
  obtain ⟨rfl, rfl⟩ := h
  exact ⟨killer, w₁, as, w₂, h₁, h₂, rfl, rfl⟩

/-! ## A pair and a pass -/

theorem tryHit_none (h : tryHit w p t ff = .ok (none, w')) : w' = w := by
  unfold tryHit at h
  split at h
  · simp only [Except.pure_eq_ok, Prod.mk.injEq] at h
    exact h.2.symm
  · obtain ⟨⟨a, w₁⟩, _, h⟩ := Except.bind_eq_ok.1 h
    simp at h

theorem tryHit_some {a : AppliedHit} (h : tryHit w p t ff = .ok (some a, w')) :
    ∃ s, strike? w p t ff = some s ∧ applyStrike w p t s = .ok (a, w') := by
  unfold tryHit at h
  split at h
  · simp at h
  · rename_i s hs
    obtain ⟨⟨a', w₁⟩, ha, h⟩ := Except.bind_eq_ok.1 h
    simp only [Except.pure_eq_ok, Prod.mk.injEq, Option.some.injEq] at h
    obtain ⟨rfl, rfl⟩ := h
    exact ⟨s, hs, ha⟩

/-- A pair of a pass either changes nothing, or is a hit of a projectile not yet spent, in
either order of the pair, recorded at the end of the outcome and spending a projectile that does
not pierce. -/
theorem collidePair_eq {out out' : CombatOutcome} {spent spent' : List Nat} {a b : Nat}
    (h : collidePair ff (out, spent, w) (a, b) = .ok (out', spent', w')) :
    (out' = out ∧ spent' = spent ∧ w' = w) ∨
    ∃ pr pl hit, ((pr = a ∧ pl = b) ∨ (pr = b ∧ pl = a)) ∧ spent.contains pr = false ∧
      tryHit w pr pl ff = .ok (some hit, w') ∧
      out' = ⟨out.hits ++ [hit.result], out.kills ++ hit.kill.toList⟩ ∧
      spent' = (if hit.piercing then spent else spent ++ [pr]) := by
  unfold collidePair at h
  simp only at h
  split at h
  · simp only [Except.pure_eq_ok, Prod.mk.injEq] at h
    exact .inl ⟨h.1.symm, h.2.1.symm, h.2.2.symm⟩
  · rename_i pr pl hpair
    have hab : (pr = a ∧ pl = b) ∨ (pr = b ∧ pl = a) := by
      split at hpair <;> simp_all
    split at h
    · simp only [Except.pure_eq_ok, Prod.mk.injEq] at h
      exact .inl ⟨h.1.symm, h.2.1.symm, h.2.2.symm⟩
    · rename_i hspent
      obtain ⟨⟨hit, w₁⟩, hh, h⟩ := Except.bind_eq_ok.1 h
      cases hit with
      | none =>
        simp only [Except.pure_eq_ok, Prod.mk.injEq] at h
        obtain ⟨rfl, rfl, rfl⟩ := h
        exact .inl ⟨rfl, rfl, tryHit_none hh⟩
      | some hit =>
        simp only [Except.pure_eq_ok, Prod.mk.injEq] at h
        obtain ⟨rfl, rfl, rfl⟩ := h
        refine .inr ⟨pr, pl, hit, hab, by simpa using hspent, hh, ?_, rfl⟩
        cases hit.kill <;> simp

/-- Removes the entities with the given ids. -/
def World.removeAll (w : World) (ids : List Nat) : World :=
  ids.foldl (fun w i => (w.remove i).2) w

/-- A pass folds its pairs over the ids present at its start, then removes what it spent. -/
theorem resolveCollisions_eq {out : CombatOutcome} (h : resolveCollisions w ff = .ok (out, w')) :
    ∃ spent w₁, (orderedPairs w.ids).foldlM (collidePair ff) (⟨[], []⟩, [], w) =
      .ok (out, spent, w₁) ∧ w' = w₁.removeAll spent := by
  unfold resolveCollisions at h
  obtain ⟨⟨out₁, spent, w₁⟩, hf, h⟩ := Except.bind_eq_ok.1 h
  simp only [Except.pure_eq_ok, Prod.mk.injEq] at h
  obtain ⟨rfl, rfl⟩ := h
  exact ⟨spent, w₁, hf, rfl⟩

/-- Removing some ids keeps the other entities in order and changes nothing else. -/
theorem removeAll_eq (w : World) (ids : List Nat) :
    w.removeAll ids = { w with entities := w.entities.filter fun e => !ids.contains e.id } := by
  induction ids generalizing w with
  | nil => simp [World.removeAll]
  | cons i rest ih =>
    simp only [World.removeAll, List.foldl_cons] at ih ⊢
    rw [ih]
    simp only [remove, List.filter_filter, List.contains_cons]
    congr 2
    funext e
    simp only [List.elem_eq_mem, bne, Bool.not_or]
    exact Bool.and_comm _ _

/-! ## A pass ages the world -/

theorem Entity.later_markHit (t : Nat) (e : Entity) : e.Later (markHit t e) := by
  unfold markHit Entity.mapProjectile
  split
  · rename_i q hk
    exact ⟨rfl, hk ▸ .projectile ⟨rfl, rfl, fun _ hx => mem_insertId.2 (.inr hx)⟩⟩
  · exact .refl e

/-- The hurt victim in place of a player is the same player. -/
theorem Entity.later_placeVictim {e : Entity} {p v : Player} (he : e.player? = some p)
    (hv : p.Same v) (killed : Bool) : e.Later (placeVictim v killed e) := by
  refine ⟨placeVictim_id v killed e, ?_⟩
  have hk : e.kind = .player p := by
    unfold Entity.player? at he
    split at he <;> simp_all
  have hk' : (placeVictim v killed e).kind = .player v := by
    unfold placeVictim
    split <;> rfl
  rw [hk, hk']
  exact .player hv

/-- A change within a collision pass: the world ages, keeps its players and every id it had. -/
structure World.Grows (w w' : World) : Prop extends World.Plays w w' where
  keeps : w.ids ⊆ w'.ids

namespace World.Grows

variable {w'' : World}

theorem refl (w : World) : Grows w w := ⟨.refl w, List.Subset.refl _⟩

theorem trans (hw : w.Wf) (h : Grows w w') (h' : Grows w' w'') : Grows w w'' :=
  ⟨h.toPlays.trans hw h'.toPlays, List.Subset.trans h.keeps h'.keeps⟩

theorem wf (h : Grows w w') (hw : w.Wf) : w'.Wf := h.toPlays.wf hw

end World.Grows

theorem grows_update {i : Nat} {f : Entity → Entity}
    (hf : ∀ e ∈ w.entities, e.id = i → e.Later (f e)) : Grows w (w.update i f) := by
  refine ⟨plays_update hf, ?_⟩
  rw [ids_update fun e he hi => (hf e he hi).id.trans hi]
  exact List.Subset.refl _

theorem grows_spawnEffect (hw : w.Wf) (p : Vec2) (k : EffectKind) (d : Float32)
    (o : Option Nat) : Grows w (w.spawnEffect p k d o).2 :=
  ⟨plays_spawnEffect hw p k d o, fun _ hx => by simp [spawnEffect, hx]⟩

theorem grows_addScore {pid : Int} {n s : Nat} (h : w.addScore pid n = .ok (s, w')) :
    Grows w w' := by
  refine ⟨plays_addScore h, ?_⟩
  obtain ⟨-, rfl⟩ := addScore_eq_ok.1 h
  exact List.Subset.refl _

theorem grows_creditOwner (hw : w.Wf) {owner : Option (Int × Team)} {o : Nat}
    {killer : Option Int} (h : creditOwner w owner o = .ok (killer, w')) : Grows w w' := by
  cases owner with
  | none => exact (creditOwner_none h).2 ▸ .refl _
  | some ot =>
    obtain ⟨-, w₀, sc, hk, hs⟩ := creditOwner_some h
    have h₀ : Grows w w₀ := by
      rcases hk with ⟨q, n, -, -, rfl⟩ | ⟨-, rfl⟩
      · exact grows_update fun e _ _ => Entity.later_mapPlayer (fun _ => by exact ⟨rfl, rfl, rfl⟩) e
      · exact .refl _
    exact h₀.trans hw (grows_addScore hs)

theorem grows_creditKill (hw : w.Wf) {owner : Option (Int × Team)} {o : Nat} {victim : Int}
    {cs : List Nat} {pos : Vec2} {k : KillRecord}
    (h : creditKill w owner o victim cs pos = .ok (k, w')) : Grows w w' := by
  obtain ⟨_, w₁, _, w₂, h₁, h₂, rfl, -⟩ := creditKill_eq h
  have g₂ : Grows w w₂ :=
    creditAssists_induction (Grows w) (fun _ _ _ hv => hv.trans hw
      (grows_update fun e _ _ => Entity.later_mapPlayer (fun _ => by exact ⟨rfl, rfl, rfl⟩) e))
      h₂ (grows_creditOwner hw h₁)
  exact g₂.trans hw (grows_spawnEffect (g₂.wf hw) _ _ _ _)

/-- A strike records the target on the projectile and puts the same player, hurt, in the
target's place. -/
theorem grows_strike (hw : w.Wf) {s : Strike} (hs : strike? w p t ff = some s) (v : Player)
    (hv : s.victim.Same v) (killed : Bool) :
    Grows w ((w.update p (markHit t)).update t (placeVictim v killed)) := by
  obtain ⟨-, -, ht, hvic, -⟩ := strike?_eq_some hs
  have g₁ : Grows w (w.update p (markHit t)) :=
    grows_update fun e _ _ => Entity.later_markHit t e
  refine g₁.trans hw (grows_update fun e he hid => ?_)
  have hget : (w.update p (markHit t)).get? t = some e := (g₁.wf hw).get?_eq_some_iff.2 ⟨he, hid⟩
  rw [get?_update_ne (fun e h => (markHit_id t e).trans h) (strike?_ne hs).symm, ht,
    Option.some.injEq] at hget
  subst hget
  exact Entity.later_placeVictim hvic hv killed

theorem grows_tryHit (hw : w.Wf) {hit : Option AppliedHit} (h : tryHit w p t ff = .ok (hit, w')) :
    Grows w w' := by
  cases hit with
  | none => exact tryHit_none h ▸ .refl _
  | some a =>
    obtain ⟨s, hs, ha⟩ := tryHit_some h
    obtain ⟨v, killed, cs, hh, -, -, -, -, hk⟩ := applyStrike_eq ha
    obtain ⟨_, _, _, _, _, hv, -⟩ := Strike.hurt_eq hh
    have g := grows_strike hw hs v (by rw [hv]; exact ⟨rfl, rfl, rfl⟩) killed
    cases killed with
    | false => exact hk.2 ▸ g
    | true =>
      obtain ⟨k, -, hk⟩ := hk
      exact g.trans hw (grows_creditKill (g.wf hw) hk)

theorem grows_collidePair (hw : w.Wf) {out out' : CombatOutcome} {spent spent' : List Nat}
    {ab : Nat × Nat} (h : collidePair ff (out, spent, w) ab = .ok (out', spent', w')) :
    Grows w w' := by
  rcases collidePair_eq h with ⟨-, -, rfl⟩ | ⟨pr, pl, hit, -, -, hh, -⟩
  · exact .refl _
  · exact grows_tryHit hw hh

/-- The fold of a pass grows the world it starts from. -/
theorem grows_collidePairs (hw : w.Wf) {pairs : List (Nat × Nat)} {out : CombatOutcome}
    {spent : List Nat} (h : pairs.foldlM (collidePair ff) (⟨[], []⟩, [], w) = .ok (out, spent, w')) :
    Grows w w' :=
  Checked.foldlM_induction (fun acc => Grows w acc.2.2)
    (fun ⟨_, _, _⟩ _ ⟨_, _, _⟩ _ hc hstep => hc.trans hw (grows_collidePair (hc.wf hw) hstep))
    (.refl _) h

/-- A pass ages the world: hits change entities in place, kills add explosions, and spent
projectiles go. -/
theorem ages_resolveCollisions (hw : w.Wf) {out : CombatOutcome}
    (h : resolveCollisions w ff = .ok (out, w')) : Ages w w' := by
  obtain ⟨spent, w₁, hf, rfl⟩ := resolveCollisions_eq h
  have h₁ := grows_collidePairs hw hf
  rw [removeAll_eq]
  exact h₁.toPlays.toAges.trans hw
    ⟨.of_sublist (List.filter_sublist.map _) rfl, .of_sublist List.filter_sublist⟩

end Skirmish
