import Skirmish.Proofs.Combat.Pass

/-!
# A projectile strikes a player at most once

A run of world operations (spawning entities, players and effects, removing entities and
players, ticks, skills, and collision passes with any friendly-fire setting) records each
collision pass it makes, with the world the pass started from and the world it left. Over the
whole run (`runOps_strikes_once`):

* no pair of a projectile and a player occurs in two hits;
* no projectile hits its owner;
* a projectile that does not pierce hits at most once, and the pass in which it hit removes it;
* a pass never removes a projectile that pierces.

Within one pass (`PassInv`, `passFacts`) a projectile strikes only players it has not struck,
records each one it strikes, and is spent after its hit unless it pierces; only the spent
projectiles go at the end of the pass. Across passes (`HitLog`) the record of a projectile only
grows while it lives (`World.Ages`), and its id is never handed out again once it is gone, so a
hit logged once can never be made again.
-/

namespace Skirmish

open World

/-! ## The projectile under an id -/

/-- The projectile under an id, when the entity there is one. -/
def World.shot? (w : World) (p : Nat) : Option Projectile := (w.get? p).bind Entity.projectile?

namespace World

variable {w w' : World} {p t : Nat} {q q' : Projectile}

theorem shot?_eq_some : w.shot? p = some q ↔ ∃ e, w.get? p = some e ∧ e.projectile? = some q :=
  Option.bind_eq_some_iff

theorem mem_ids_of_shot? (h : w.shot? p = some q) : p ∈ w.ids := by
  obtain ⟨e, he, -⟩ := shot?_eq_some.1 h
  obtain ⟨hm, rfl⟩ := get?_eq_some he
  exact List.mem_map_of_mem hm

/-- A projectile that a later world has under an id handed out before it was there before, an
earlier form of itself. -/
theorem Ages.shot?_of_later (h : Ages w w') (hw : w.Wf) (hp : p < w.nextEntityId)
    (hq' : w'.shot? p = some q') : ∃ q, w.shot? p = some q ∧ q.Later q' := by
  obtain ⟨e', he', hk'⟩ := shot?_eq_some.1 hq'
  have hp' : p ∈ w.ids := by
    by_contra hnot
    have := (h.idsFrom.fresh (mem_ids_of_shot? hq') hnot).1
    omega
  obtain ⟨e, he, hl⟩ := h.get? hw hp' he'
  obtain ⟨q, hq, hql⟩ := hl.projectile?_of_later hk'
  exact ⟨q, shot?_eq_some.2 ⟨e, he, hq⟩, hql⟩

/-- Within a pass a projectile stays, a later form of itself. -/
theorem Grows.shot? (h : Grows w w') (hw : w.Wf) (hq : w.shot? p = some q) :
    ∃ q', w'.shot? p = some q' ∧ q.Later q' := by
  obtain ⟨e, he, hk⟩ := shot?_eq_some.1 hq
  have hp := mem_ids_of_shot? hq
  cases he' : w'.get? p with
  | none => exact absurd (h.keeps hp) (get?_eq_none_iff.1 he')
  | some e' =>
    obtain ⟨e₀, he₀, hl⟩ := h.toPlays.toAges.get? hw hp he'
    rw [he, Option.some.injEq] at he₀
    subst he₀
    obtain ⟨q', hq', hl'⟩ := hl.projectile? hk
    exact ⟨q', shot?_eq_some.2 ⟨e', he', hq'⟩, hl'⟩

theorem ids_removeAll (w : World) (ids : List Nat) :
    (w.removeAll ids).ids = w.ids.filter fun i => !ids.contains i := by
  rw [removeAll_eq]
  simp [World.ids, List.filter_map, Function.comp_def]

/-- Removing other ids leaves the projectile under an id as it is. -/
theorem shot?_removeAll {ids : List Nat} (hp : p ∉ ids) : (w.removeAll ids).shot? p = w.shot? p := by
  rw [removeAll_eq]
  simp only [World.shot?, World.get?, List.find?_filter]
  congr 2
  funext e
  by_cases he : e.id = p
  · simp [he, hp]
  · simp [he]

end World

/-! ## One strike -/

/-- A projectile is no player. -/
theorem Entity.player?_eq_none_of_projectile? {e : Entity} {q : Projectile}
    (h : e.projectile? = some q) : e.player? = none := by
  unfold Entity.projectile? at h
  unfold Entity.player?
  split at h <;> simp_all

/-- After `markHit t` the projectile records `t`. -/
theorem Entity.markHit_records (t : Nat) {e : Entity} {q : Projectile}
    (h : e.projectile? = some q) : ∃ q', (markHit t e).projectile? = some q' ∧
      t ∈ q'.hitEntities := by
  unfold markHit Entity.mapProjectile
  unfold Entity.projectile? at h
  split
  · rename_i q₀ hk
    exact ⟨_, rfl, mem_insertId.2 (.inl rfl)⟩
  · split at h <;> simp_all

theorem mem_of_mem_orderedPairs {α : Type} {l : List α} {a b : α} (h : (a, b) ∈ orderedPairs l) :
    a ∈ l ∧ b ∈ l := by
  induction l with
  | nil => simp [orderedPairs] at h
  | cons x rest ih =>
    simp only [orderedPairs, List.mem_append, List.mem_map, Prod.mk.injEq] at h
    rcases h with ⟨y, hy, rfl, rfl⟩ | h
    · exact ⟨List.mem_cons_self, List.mem_cons_of_mem _ hy⟩
    · obtain ⟨ha, hb⟩ := ih h
      exact ⟨List.mem_cons_of_mem _ ha, List.mem_cons_of_mem _ hb⟩

variable {w w' : World} {p t : Nat} {ff : Bool}

/-- A hit is made by a projectile that has not struck the player and is not the player's owner;
afterwards the projectile records the player, and the hit pierces as the projectile does. -/
theorem tryHit_records (hw : w.Wf) {a : AppliedHit} (h : tryHit w p t ff = .ok (some a, w')) :
    a.result.projectileId = p ∧ a.result.targetId = t ∧
      ∃ q, w.shot? p = some q ∧ q.ownerId ≠ t ∧ t ∉ q.hitEntities ∧ a.piercing = q.piercing ∧
        ∃ q', w'.shot? p = some q' ∧ t ∈ q'.hitEntities := by
  obtain ⟨s, hs, ha⟩ := tryHit_some h
  obtain ⟨hp, hq, -, -, -, hfresh, howner, -⟩ := strike?_eq_some hs
  obtain ⟨v, killed, cs, hh, hpid, htid, -, hpier, hk⟩ := applyStrike_eq ha
  refine ⟨hpid, htid, s.shot, shot?_eq_some.2 ⟨_, hp, hq⟩, howner, by simpa using hfresh, hpier, ?_⟩
  have hmark : ∃ q', ((w.update p (markHit t)).update t (placeVictim v killed)).shot? p = some q' ∧
      t ∈ q'.hitEntities := by
    obtain ⟨q', hq', ht'⟩ := Entity.markHit_records t hq
    refine ⟨q', shot?_eq_some.2 ⟨markHit t s.projectile, ?_, hq'⟩, ht'⟩
    rw [get?_update_ne (fun e h => (placeVictim_id v killed e).trans h) (strike?_ne hs),
      get?_update_self (fun e h => (markHit_id t e).trans h), hp]
    rfl
  cases killed with
  | false => exact hk.2 ▸ hmark
  | true =>
    obtain ⟨k, -, hk⟩ := hk
    obtain ⟨q', hq', ht'⟩ := hmark
    obtain ⟨_, _, _, _, _, hv, -⟩ := Strike.hurt_eq hh
    have g := grows_strike hw hs v (by rw [hv]; exact ⟨rfl, rfl, rfl⟩) true
    obtain ⟨q'', hq'', hl⟩ := (grows_creditKill (g.wf hw) hk).shot? (g.wf hw) hq'
    exact ⟨q'', hq'', hl.hits ht'⟩

/-! ## One pass -/

/-- What holds part way through a pass that started from `w`: the hits so far, the projectiles
spent so far and the world `wk` so far. Each hit was made by a projectile of `w` that had not
struck the player and does not own it, and the projectile now records the player; a projectile
that does not pierce is spent after its one hit; only such projectiles are spent. -/
structure PassInv (w : World) (hits : List HitResult) (spent : List Nat) (wk : World) : Prop where
  grows : Grows w wk
  shot : ∀ x ∈ hits, ∃ q, w.shot? x.projectileId = some q ∧ q.ownerId ≠ x.targetId ∧
    x.targetId ∉ q.hitEntities
  records : ∀ x ∈ hits, ∃ q', wk.shot? x.projectileId = some q' ∧ x.targetId ∈ q'.hitEntities
  spends : ∀ x ∈ hits, ∀ q, w.shot? x.projectileId = some q → q.piercing = false →
    x.projectileId ∈ spent
  spent : ∀ i ∈ spent, (∃ q, w.shot? i = some q ∧ q.piercing = false) ∧
    hits.countP (·.projectileId == i) = 1
  nodup : (hits.map fun x => (x.projectileId, x.targetId)).Nodup

theorem PassInv.start (w : World) : PassInv w [] [] w :=
  ⟨.refl w, by simp, by simp, by simp, by simp, by simp⟩

/-- The invariant of a pass after one more hit, by the projectile `pr` on the player `pl`. -/
theorem PassInv.hit (hw : w.Wf) {hits : List HitResult} {spent : List Nat} {wk wk' : World}
    {pr pl : Nat} {hit : AppliedHit} (inv : PassInv w hits spent wk) (hpr : pr ∈ w.ids)
    (hfree : spent.contains pr = false) (h : tryHit wk pr pl ff = .ok (some hit, wk')) :
    PassInv w (hits ++ [hit.result]) (if hit.piercing then spent else spent ++ [pr]) wk' := by
  have hwk := inv.grows.wf hw
  have g := grows_tryHit hwk h
  obtain ⟨hpid, htid, qk, hqk, howner, hfresh, hpier, q', hq', hrec⟩ := tryHit_records hwk h
  obtain ⟨q, hq, hl⟩ := inv.grows.toAges.shot?_of_later hw (hw.lt_next _ hpr) hqk
  have hnot : pr ∉ spent := by simpa using hfree
  -- a projectile of the pass that hit before and does not pierce is spent, so it is not `pr`
  have hfirst : q.piercing = false → ∀ x ∈ hits, x.projectileId ≠ pr := by
    rintro hnp x hx rfl
    exact hnot (inv.spends x hx q hq hnp)
  refine ⟨inv.grows.trans hw g, ?_, ?_, ?_, ?_, ?_⟩
  · intro x hx
    rcases List.mem_append.1 hx with hx | hx
    · exact inv.shot x hx
    · rw [List.mem_singleton.1 hx, hpid, htid]
      exact ⟨q, hq, hl.owner ▸ howner, fun ht => hfresh (hl.hits ht)⟩
  · intro x hx
    rcases List.mem_append.1 hx with hx | hx
    · obtain ⟨r, hr, hxr⟩ := inv.records x hx
      obtain ⟨r', hr', hl'⟩ := g.shot? hwk hr
      exact ⟨r', hr', hl'.hits hxr⟩
    · rw [List.mem_singleton.1 hx, hpid, htid]
      exact ⟨q', hq', hrec⟩
  · intro x hx r hr hnp
    rcases List.mem_append.1 hx with hx | hx
    · have := inv.spends x hx r hr hnp
      split <;> simp [this]
    · rw [List.mem_singleton.1 hx, hpid] at hr ⊢
      rw [hq, Option.some.injEq] at hr
      subst hr
      rw [hpier, hl.piercing, hnp]
      simp
  · intro i hi
    have hcount : (hits ++ [hit.result]).countP (·.projectileId == i) =
        hits.countP (·.projectileId == i) + if pr = i then 1 else 0 := by
      simp [hpid]
    by_cases hold : i ∈ spent
    · obtain ⟨hnp, hc⟩ := inv.spent i hold
      have : pr ≠ i := fun he => hnot (he ▸ hold)
      rw [hcount, hc, if_neg this]
      exact ⟨hnp, rfl⟩
    · have hpi : hit.piercing = false ∧ i = pr := by
        cases hp : hit.piercing with
        | true => exact absurd (by simpa [hp] using hi) hold
        | false => exact ⟨rfl, by simpa [hp, hold] using hi⟩
      obtain ⟨hnp, rfl⟩ := hpi
      have hqnp : q.piercing = false := by rw [← hl.piercing, ← hpier, hnp]
      rw [hcount, List.countP_eq_zero.2 fun x hx hxi => hfirst hqnp x hx (by simpa using hxi)]
      exact ⟨⟨q, hq, hqnp⟩, by simp⟩
  · rw [List.map_append, List.nodup_append]
    refine ⟨inv.nodup, List.nodup_singleton _, ?_⟩
    intro y hy z hz hyz
    obtain ⟨x, hx, rfl⟩ := List.mem_map.1 hy
    rw [List.map_singleton, List.mem_singleton] at hz
    subst hz
    obtain ⟨r, hr, hxr⟩ := inv.records x hx
    simp only [hpid, htid, Prod.mk.injEq] at hyz
    obtain ⟨hxp, hxt⟩ := hyz
    rw [hxp, hqk, Option.some.injEq] at hr
    subst hr
    exact hfresh (hxt ▸ hxr)

/-- One pair of a pass keeps the invariant. -/
theorem PassInv.collidePair (hw : w.Wf) {hits : List HitResult} {kills : List KillRecord}
    {spent spent' : List Nat} {wk wk' : World} {out' : CombatOutcome} {a b : Nat}
    (inv : PassInv w hits spent wk) (hab : (a, b) ∈ orderedPairs w.ids)
    (h : collidePair ff (⟨hits, kills⟩, spent, wk) (a, b) = .ok (out', spent', wk')) :
    PassInv w out'.hits spent' wk' := by
  rcases collidePair_eq h with ⟨rfl, rfl, rfl⟩ | ⟨pr, pl, hit, hpair, hfree, hh, rfl, rfl⟩
  · exact inv
  · have hpr : pr ∈ w.ids := by
      rcases hpair with ⟨rfl, -⟩ | ⟨rfl, -⟩
      · exact (mem_of_mem_orderedPairs hab).1
      · exact (mem_of_mem_orderedPairs hab).2
    exact inv.hit hw hpr hfree hh

/-- The invariant at the end of the fold of a pass. -/
theorem PassInv.of_fold (hw : w.Wf) {out : CombatOutcome} {spent : List Nat} {wk : World}
    (hf : (orderedPairs w.ids).foldlM (Skirmish.collidePair ff) (⟨[], []⟩, [], w) =
      .ok (out, spent, wk)) :
    PassInv w out.hits spent wk :=
  Checked.foldlM_induction (fun acc => PassInv w acc.1.hits acc.2.1 acc.2.2)
    (fun ⟨⟨_, _⟩, _, _⟩ ⟨_, _⟩ ⟨_, _, _⟩ hab hc hstep => hc.collidePair hw hab hstep)
    (PassInv.start w) hf

/-- A spent id names no player: it was a projectile at the start of the pass, and entities keep
their kind. -/
theorem PassInv.not_player (hw : w.Wf) {hits : List HitResult} {spent : List Nat} {wk : World}
    (inv : PassInv w hits spent wk) : ∀ e ∈ wk.entities, e.id ∈ spent → e.player? = none := by
  intro e he hs
  obtain ⟨⟨r, hr, -⟩, -⟩ := inv.spent _ hs
  obtain ⟨r', hr', -⟩ := inv.grows.shot? hw hr
  obtain ⟨e₁, he₁, hk⟩ := shot?_eq_some.1 hr'
  rw [(inv.grows.wf hw).get?_eq_some_iff.2 ⟨he, rfl⟩, Option.some.injEq] at he₁
  exact Entity.player?_eq_none_of_projectile? (he₁ ▸ hk)

/-- What a pass did, as a whole: it aged the world; each of its hits was made by a projectile of
the world it started from that had not struck the player and does not own it; a projectile that
does not pierce hit once and is gone, one that pierces is still there and records the player; no
pair hit twice; and no projectile that pierces went. -/
structure PassFacts (w : World) (hits : List HitResult) (w' : World) : Prop where
  ages : Ages w w'
  players : w'.playerKeys = w.playerKeys
  shot : ∀ x ∈ hits, ∃ q, w.shot? x.projectileId = some q ∧ q.ownerId ≠ x.targetId ∧
    x.targetId ∉ q.hitEntities
  spends : ∀ x ∈ hits, ∀ q, w.shot? x.projectileId = some q → q.piercing = false →
    x.projectileId ∉ w'.ids ∧ hits.countP (·.projectileId == x.projectileId) = 1
  records : ∀ x ∈ hits, ∀ q', w'.shot? x.projectileId = some q' → x.targetId ∈ q'.hitEntities
  nodup : (hits.map fun x => (x.projectileId, x.targetId)).Nodup
  keepsPiercing : ∀ e ∈ w.entities, ∀ q, e.projectile? = some q → q.piercing = true →
    e.id ∈ w'.ids

/-- The facts of a pass follow from its invariant at the end of the fold: the spent projectiles
go and nothing else does. -/
theorem passFacts (hw : w.Wf) {out : CombatOutcome} (h : resolveCollisions w ff = .ok (out, w')) :
    PassFacts w out.hits w' := by
  obtain ⟨spent, wk, hf, rfl⟩ := resolveCollisions_eq h
  have inv := PassInv.of_fold hw hf
  have hgone : ∀ i ∈ spent, i ∉ (wk.removeAll spent).ids := by
    intro i hi
    simp [ids_removeAll, hi]
  refine ⟨ages_resolveCollisions hw h, ?_, inv.shot, fun x hx r hr hnp => ?_, fun x hx r hr => ?_,
    inv.nodup, fun e he r hr hp => ?_⟩
  · -- a spent id is that of a projectile, so the removals take no player
    rw [← inv.grows.players, playerKeys, removeAll_eq]
    exact filterMap_playerKey?_filter fun e he hsp => inv.not_player hw e he (by simpa using hsp)
  · have hs := inv.spends x hx r hr hnp
    exact ⟨hgone _ hs, (inv.spent _ hs).2⟩
  · have hns : x.projectileId ∉ spent := fun hs => hgone _ hs (mem_ids_of_shot? hr)
    rw [shot?_removeAll hns] at hr
    obtain ⟨r', hr', hxr⟩ := inv.records x hx
    rw [hr', Option.some.injEq] at hr
    exact hr ▸ hxr
  · have hget : w.get? e.id = some e := hw.get?_eq_some_iff.2 ⟨he, rfl⟩
    have hns : e.id ∉ spent := by
      intro hs
      obtain ⟨⟨r', hr', hnp⟩, -⟩ := inv.spent _ hs
      rw [shot?_eq_some.2 ⟨e, hget, hr⟩, Option.some.injEq] at hr'
      rw [← hr', hp] at hnp
      cases hnp
    rw [ids_removeAll, List.mem_filter]
    exact ⟨inv.grows.keeps (List.mem_map_of_mem he), by simpa using hns⟩

/-! ## A run -/

/-- An operation on a world, as the game makes them. -/
inductive World.Op where
  | spawn (position : Vec2) (kind : EntityKind)
  | spawnPlayer (player : Player)
  | spawnEffect (position : Vec2) (effect : EffectKind) (duration : Float32)
      (ownerId : Option Nat)
  | remove (id : Nat)
  | removePlayer (id : Nat) (keep : Bool)
  | advance (dt : Float32)
  | useSkill (caster skill : Nat) (target : Vec2)
  | resolveCollisions (friendlyFire : Bool)

/-- A collision pass of a run: the world it started from, what it found, and the world it left. -/
structure World.Pass where
  before : World
  outcome : CombatOutcome
  after : World

/-- Does an operation, recording a collision pass. -/
def World.apply (w : World) : World.Op → Checked (List World.Pass × World)
  | .spawn p k => pure ([], (w.spawn p k).2)
  | .spawnPlayer pl => pure ([], (w.spawnPlayer pl).2)
  | .spawnEffect p k d o => pure ([], (w.spawnEffect p k d o).2)
  | .remove i => pure ([], (w.remove i).2)
  | .removePlayer i keep => pure ([], (w.removePlayer i keep).2)
  | .advance dt => pure ([], (w.advance dt).2)
  | .useSkill c s target => pure ([], (useSkill w c s target).2)
  | .resolveCollisions ff => do
    let (out, w') ← Skirmish.resolveCollisions w ff
    pure ([⟨w, out, w'⟩], w')

/-- Does the operations in order, recording the collision passes; stops at the first that
fails. -/
def World.runOps (w : World) : List World.Op → Checked (List World.Pass × World)
  | [] => pure ([], w)
  | op :: ops => do
    let (ps, w) ← w.apply op
    let (rest, w) ← w.runOps ops
    pure (ps ++ rest, w)

/-- The hits of a pass, each with the projectile that made it as the pass found it. -/
def World.Pass.shots (ps : World.Pass) : List (HitResult × Option Projectile) :=
  ps.outcome.hits.map fun x => (x, ps.before.shot? x.projectileId)

/-- What holds of the hits logged by a run that has reached `w`: each was made by a projectile
that does not own the player and under an id already handed out; a projectile that is still
there pierces and records each player it hit; a projectile that does not pierce hit once; and
no pair hit twice. -/
structure HitLog (w : World) (log : List (HitResult × Option Projectile)) : Prop where
  wf : w.Wf
  below : ∀ x ∈ log, x.1.projectileId < w.nextEntityId
  shot : ∀ x ∈ log, ∃ q, x.2 = some q ∧ q.ownerId ≠ x.1.targetId
  present : ∀ x ∈ log, ∀ q, w.shot? x.1.projectileId = some q →
    x.1.targetId ∈ q.hitEntities ∧ q.piercing = true ∧ ∀ q₀, x.2 = some q₀ → q₀.piercing = true
  once : ∀ x ∈ log, ∀ q, x.2 = some q → q.piercing = false →
    log.countP (·.1.projectileId == x.1.projectileId) = 1
  nodup : (log.map fun x => (x.1.projectileId, x.1.targetId)).Nodup

namespace HitLog

variable {log : List (HitResult × Option Projectile)}

theorem start (hw : w.Wf) : HitLog w [] := ⟨hw, by simp, by simp, by simp, by simp, by simp⟩

/-- An operation that ages the world keeps the log: a projectile that is still there is a later
form of itself, and one that is gone never comes back. -/
theorem age (hl : HitLog w log) (h : Ages w w') : HitLog w' log := by
  refine ⟨h.wf hl.wf, fun x hx => Nat.lt_of_lt_of_le (hl.below x hx) h.idsFrom.next_le, hl.shot,
    fun x hx q' hq' => ?_, hl.once, hl.nodup⟩
  obtain ⟨q, hq, hql⟩ := h.shot?_of_later hl.wf (hl.below x hx) hq'
  obtain ⟨ht, hp, h₀⟩ := hl.present x hx q hq
  exact ⟨hql.hits ht, hql.piercing.trans hp, h₀⟩

/-! ### A pass, field by field -/

section Pass

variable {out : CombatOutcome}

/-- The new entries of a pass are its hits, each with its projectile as the pass found it. -/
theorem mem_shots {y : HitResult × Option Projectile} (hy : y ∈ (World.Pass.mk w out w').shots) :
    y.1 ∈ out.hits ∧ y.2 = w.shot? y.1.projectileId := by
  obtain ⟨x, hx, rfl⟩ := List.mem_map.1 hy
  exact ⟨hx, rfl⟩

/-- A projectile that hit in a pass and is still there afterwards pierces. -/
theorem pierces_of_present (pf : PassFacts w out.hits w') {x : HitResult} (hx : x ∈ out.hits)
    {q q' : Projectile} (hq : w.shot? x.projectileId = some q)
    (hq' : w'.shot? x.projectileId = some q') : q.piercing = true := by
  cases hp : q.piercing with
  | true => rfl
  | false => exact absurd (mem_ids_of_shot? hq') (pf.spends x hx q hq hp).1

theorem below_pass (hl : HitLog w log) (pf : PassFacts w out.hits w') :
    ∀ y ∈ log ++ (World.Pass.mk w out w').shots, y.1.projectileId < w'.nextEntityId := by
  intro y hy
  rcases List.mem_append.1 hy with hy | hy
  · exact Nat.lt_of_lt_of_le (hl.below y hy) pf.ages.idsFrom.next_le
  · obtain ⟨q, hq, -⟩ := pf.shot _ (mem_shots hy).1
    exact Nat.lt_of_lt_of_le (hl.wf.lt_next _ (mem_ids_of_shot? hq)) pf.ages.idsFrom.next_le

theorem shot_pass (hl : HitLog w log) (pf : PassFacts w out.hits w') :
    ∀ y ∈ log ++ (World.Pass.mk w out w').shots, ∃ q, y.2 = some q ∧ q.ownerId ≠ y.1.targetId := by
  intro y hy
  rcases List.mem_append.1 hy with hy | hy
  · exact hl.shot y hy
  · obtain ⟨hx, h2⟩ := mem_shots hy
    obtain ⟨q, hq, ho, -⟩ := pf.shot _ hx
    exact ⟨q, h2.trans hq, ho⟩

theorem present_pass (hl : HitLog w log) (pf : PassFacts w out.hits w') :
    ∀ y ∈ log ++ (World.Pass.mk w out w').shots, ∀ q', w'.shot? y.1.projectileId = some q' →
      y.1.targetId ∈ q'.hitEntities ∧ q'.piercing = true ∧
        ∀ q₀, y.2 = some q₀ → q₀.piercing = true := by
  intro y hy q' hq'
  rcases List.mem_append.1 hy with hy | hy
  · obtain ⟨q, hq, hql⟩ := pf.ages.shot?_of_later hl.wf (hl.below y hy) hq'
    obtain ⟨ht, hp, h₀⟩ := hl.present y hy q hq
    exact ⟨hql.hits ht, hql.piercing.trans hp, h₀⟩
  · obtain ⟨hx, h2⟩ := mem_shots hy
    obtain ⟨q, hq, -⟩ := pf.shot _ hx
    obtain ⟨q₁, hq₁, hql⟩ := pf.ages.shot?_of_later hl.wf (hl.wf.lt_next _ (mem_ids_of_shot? hq)) hq'
    rw [hq, Option.some.injEq] at hq₁
    subst hq₁
    have hp := pierces_of_present pf hx hq hq'
    refine ⟨pf.records _ hx q' hq', hql.piercing.trans hp, fun q₀ h₀ => ?_⟩
    rw [h2, hq, Option.some.injEq] at h₀
    exact h₀ ▸ hp

theorem once_pass (hl : HitLog w log) (pf : PassFacts w out.hits w') :
    ∀ y ∈ log ++ (World.Pass.mk w out w').shots, ∀ q, y.2 = some q → q.piercing = false →
      (log ++ (World.Pass.mk w out w').shots).countP (·.1.projectileId == y.1.projectileId) = 1 := by
  intro y hy q hq hnp
  rw [List.countP_append]
  rcases List.mem_append.1 hy with hy | hy
  · -- logged before: this pass has no hit by it, since it would have to pierce
    rw [hl.once y hy q hq hnp, List.countP_eq_zero.2]
    intro z hz hzy
    obtain ⟨r, hr, -⟩ := pf.shot _ (mem_shots hz).1
    rw [beq_iff_eq.1 hzy] at hr
    rw [(hl.present y hy r hr).2.2 q hq] at hnp
    cases hnp
  · -- hit in this pass: it hit once here, and never before, since it would have to pierce
    obtain ⟨hx, h2⟩ := mem_shots hy
    have hq' : w.shot? y.1.projectileId = some q := h2 ▸ hq
    rw [List.countP_eq_zero.2, Nat.zero_add, World.Pass.shots, List.countP_map]
    · exact (pf.spends _ hx q hq' hnp).2
    · intro z hz hzy
      have hzq : w.shot? z.1.projectileId = some q := by rw [beq_iff_eq.1 hzy]; exact hq'
      obtain ⟨-, hp, -⟩ := hl.present z hz q hzq
      rw [hp] at hnp
      cases hnp

theorem nodup_pass (hl : HitLog w log) (pf : PassFacts w out.hits w') :
    ((log ++ (World.Pass.mk w out w').shots).map fun x => (x.1.projectileId, x.1.targetId)).Nodup := by
  rw [List.map_append, List.nodup_append]
  refine ⟨hl.nodup, ?_, ?_⟩
  · rw [World.Pass.shots, List.map_map]
    exact pf.nodup
  · intro a ha b hb hab
    obtain ⟨y, hy, rfl⟩ := List.mem_map.1 ha
    obtain ⟨z, hz, rfl⟩ := List.mem_map.1 hb
    obtain ⟨q, hq, -, hfresh⟩ := pf.shot _ (mem_shots hz).1
    simp only [Prod.mk.injEq] at hab
    obtain ⟨hp, ht⟩ := hab
    rw [← hp] at hq
    exact hfresh (ht ▸ (hl.present y hy q hq).1)

/-- A pass adds its hits to the log. -/
theorem pass (hl : HitLog w log) (h : resolveCollisions w ff = .ok (out, w')) :
    HitLog w' (log ++ (World.Pass.mk w out w').shots) :=
  have pf := passFacts hl.wf h
  ⟨pf.ages.wf hl.wf, hl.below_pass pf, hl.shot_pass pf, hl.present_pass pf, hl.once_pass pf,
    hl.nodup_pass pf⟩

end Pass

/-- An operation keeps the log, adding the hits of its pass; a pass starts from a well-formed
world. -/
theorem apply (hl : HitLog w log) {op : World.Op} {ps : List World.Pass}
    (h : w.apply op = .ok (ps, w')) :
    HitLog w' (log ++ ps.flatMap World.Pass.shots) ∧
      ∀ pass ∈ ps, pass.before.Wf ∧
        ∃ ff, resolveCollisions pass.before ff = .ok (pass.outcome, pass.after) := by
  have aged : Ages w w' → ps = [] → HitLog w' (log ++ ps.flatMap World.Pass.shots) ∧
      ∀ pass ∈ ps, pass.before.Wf ∧
        ∃ ff, resolveCollisions pass.before ff = .ok (pass.outcome, pass.after) := by
    rintro ha rfl
    exact ⟨by simpa using hl.age ha, by simp⟩
  cases op with
  | spawn p k =>
    obtain ⟨rfl, rfl⟩ := Prod.mk.inj (Except.pure_eq_ok.1 h).symm
    exact aged (ages_spawn hl.wf p k) rfl
  | spawnPlayer pl =>
    obtain ⟨rfl, rfl⟩ := Prod.mk.inj (Except.pure_eq_ok.1 h).symm
    exact aged (ages_spawnPlayer hl.wf pl) rfl
  | spawnEffect p k d o =>
    obtain ⟨rfl, rfl⟩ := Prod.mk.inj (Except.pure_eq_ok.1 h).symm
    exact aged (plays_spawnEffect hl.wf p k d o).toAges rfl
  | remove i =>
    obtain ⟨rfl, rfl⟩ := Prod.mk.inj (Except.pure_eq_ok.1 h).symm
    exact aged (ages_remove i) rfl
  | removePlayer i keep =>
    obtain ⟨rfl, rfl⟩ := Prod.mk.inj (Except.pure_eq_ok.1 h).symm
    exact aged (ages_removePlayer i keep) rfl
  | advance dt =>
    obtain ⟨rfl, rfl⟩ := Prod.mk.inj (Except.pure_eq_ok.1 h).symm
    exact aged (plays_advance hl.wf dt).toAges rfl
  | useSkill c s target =>
    obtain ⟨rfl, rfl⟩ := Prod.mk.inj (Except.pure_eq_ok.1 h).symm
    exact aged (plays_useSkill hl.wf c s target).toAges rfl
  | resolveCollisions ff =>
    obtain ⟨⟨out, w₁⟩, hr, h⟩ := Except.bind_eq_ok.1 h
    obtain ⟨rfl, rfl⟩ := Prod.mk.inj (Except.pure_eq_ok.1 h).symm
    refine ⟨by simpa using hl.pass hr, ?_⟩
    intro pass hp
    rw [List.mem_singleton.1 hp]
    exact ⟨hl.wf, ff, hr⟩

/-- A run keeps the log, adding the hits of its passes; every pass starts from a well-formed
world. -/
theorem runOps (hl : HitLog w log) {ops : List World.Op} {ps : List World.Pass}
    (h : w.runOps ops = .ok (ps, w')) :
    HitLog w' (log ++ ps.flatMap World.Pass.shots) ∧
      ∀ pass ∈ ps, pass.before.Wf ∧
        ∃ ff, resolveCollisions pass.before ff = .ok (pass.outcome, pass.after) := by
  induction ops generalizing w log ps with
  | nil =>
    obtain ⟨rfl, rfl⟩ := Prod.mk.inj (Except.pure_eq_ok.1 h).symm
    exact ⟨by simpa using hl, by simp⟩
  | cons op ops ih =>
    obtain ⟨⟨ps₁, w₁⟩, h₁, h⟩ := Except.bind_eq_ok.1 h
    obtain ⟨⟨ps₂, w₂⟩, h₂, h⟩ := Except.bind_eq_ok.1 h
    obtain ⟨rfl, rfl⟩ := Prod.mk.inj (Except.pure_eq_ok.1 h).symm
    obtain ⟨hl₁, hp₁⟩ := hl.apply h₁
    obtain ⟨hl₂, hp₂⟩ := ih hl₁ h₂
    refine ⟨by simpa using hl₂, fun pass hp => ?_⟩
    rcases List.mem_append.1 hp with hp | hp
    · exact hp₁ pass hp
    · exact hp₂ pass hp

end HitLog

/-- Over a run from a well-formed world, no projectile hits a player twice nor hits its owner,
and a pass removes exactly the projectiles that hit in it and do not pierce. -/
theorem runOps_strikes_once {ops : List World.Op} {passes : List World.Pass} (hw : w.Wf)
    (h : w.runOps ops = .ok (passes, w')) :
    ((passes.flatMap World.Pass.shots).map fun x => (x.1.projectileId, x.1.targetId)).Nodup ∧
    (∀ x ∈ passes.flatMap World.Pass.shots, ∃ q, x.2 = some q ∧ q.ownerId ≠ x.1.targetId ∧
      (q.piercing = false →
        (passes.flatMap World.Pass.shots).countP (·.1.projectileId == x.1.projectileId) = 1)) ∧
    ∀ pass ∈ passes,
      (∀ x ∈ pass.outcome.hits, ∀ q, pass.before.shot? x.projectileId = some q →
        q.piercing = false → x.projectileId ∉ pass.after.ids) ∧
      (∀ e ∈ pass.before.entities, ∀ q, e.projectile? = some q → q.piercing = true →
        e.id ∈ pass.after.ids) := by
  obtain ⟨hl, hps⟩ := (HitLog.start hw).runOps h
  rw [List.nil_append] at hl
  refine ⟨hl.nodup, fun x hx => ?_, fun pass hp => ?_⟩
  · obtain ⟨q, hq, ho⟩ := hl.shot x hx
    exact ⟨q, hq, ho, hl.once x hx q hq⟩
  · obtain ⟨hwb, ff, hr⟩ := hps pass hp
    have pf := passFacts hwb hr
    exact ⟨fun x hx q hq hnp => (pf.spends x hx q hq hnp).1, pf.keepsPiercing⟩

/-- Two players and, at the first one, a projectile that does not pierce and one that pierces,
both fired by the second player, then two passes: each projectile hits once, the one that does
not pierce goes, and the second pass finds nothing new. -/
theorem runOps_strikes_once_pierced :
    let w₀ := World.new 0 (MapBounds.forMap 0)
    let ops : List World.Op := [.spawn Vec2.zero (.player (Player.fresh 1 1 .red 100)),
      .spawn ⟨500, 500⟩ (.player (Player.fresh 2 1 .blue 100)),
      .spawn Vec2.zero (.projectile ⟨2, 0, 10, 1, false, []⟩),
      .spawn Vec2.zero (.projectile ⟨2, 0, 10, 1, true, []⟩),
      .resolveCollisions false, .resolveCollisions false]
    ∃ passes w', w₀.runOps ops = .ok (passes, w') ∧ w₀.Wf ∧ passes.length = 2 ∧
      (passes.flatMap World.Pass.shots).map (fun x => (x.1.projectileId, x.1.targetId)) =
        [(3, 1), (4, 1)] ∧
      ((passes.flatMap World.Pass.shots).map fun x => (x.1.projectileId, x.1.targetId)).Nodup ∧
      (∀ x ∈ passes.flatMap World.Pass.shots, ∃ q, x.2 = some q ∧ q.ownerId ≠ x.1.targetId ∧
        (q.piercing = false →
          (passes.flatMap World.Pass.shots).countP (·.1.projectileId == x.1.projectileId) = 1)) ∧
      ∀ pass ∈ passes,
        (∀ x ∈ pass.outcome.hits, ∀ q, pass.before.shot? x.projectileId = some q →
          q.piercing = false → x.projectileId ∉ pass.after.ids) ∧
        (∀ e ∈ pass.before.entities, ∀ q, e.projectile? = some q → q.piercing = true →
          e.id ∈ pass.after.ids) := by
  intro w₀ ops
  obtain ⟨passes, w', h⟩ : ∃ passes w', w₀.runOps ops = .ok (passes, w') :=
    ⟨_, _, by simp only [w₀, ops]; rfl⟩
  have hout : (w₀.runOps ops).map (fun x => (x.1.length,
      (x.1.flatMap World.Pass.shots).map (fun y => (y.1.projectileId, y.1.targetId)))) =
      .ok (2, [(3, 1), (4, 1)]) := by
    simp only [w₀, ops]; rfl
  rw [h] at hout
  simp only [Except.map, Except.ok.injEq, Prod.mk.injEq] at hout
  have hw : w₀.Wf := World.wf_new 0 _
  exact ⟨passes, w', h, hw, hout.1, hout.2, runOps_strikes_once hw h⟩

end Skirmish
