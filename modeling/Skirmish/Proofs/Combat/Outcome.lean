import Skirmish.Proofs.Combat.Impact
import Skirmish.Proofs.Combat.Wounds

/-!
# What a collision pass does, hit by hit

A pass looks at every two ids of the world it starts from once, smaller id first, in increasing
order (`orderedPairs_schedule`), and its hits come in that order. Each hit is described by the
world the pass started from and the hits before it (`PassHit`): the projectile was not spent, the
player was alive, not struck by that projectile and not its owner, not spared as an ally, and
the two overlapped. Through the pass every entity of that world is followed (`PassTrace`): it
stays in place, a projectile records the players it struck, and a player is wounded by its hits
as `Wounded` says. Each kill adds one explosion at the victim's position, after the entities the
pass started with.

A pass stops only on an overflow, of health less damage or of a counter
(`resolveCollisions_stopsOnOverflow`), and `resolveCollisions_outcome` puts the rest together.
Only the players a pass hits change: a player it does not hit keeps its health, whatever it is
(`resolveCollisions_keeps_unhit_health`).
-/

namespace Skirmish

open World

/-! ## The order of the pairs -/

theorem mem_orderedPairs {l : List Nat} (hl : l.Pairwise (· < ·)) {a b : Nat} :
    (a, b) ∈ orderedPairs l ↔ a ∈ l ∧ b ∈ l ∧ a < b := by
  induction l with
  | nil => simp [orderedPairs]
  | cons x rest ih =>
    obtain ⟨hx, hrest⟩ := List.pairwise_cons.1 hl
    simp only [orderedPairs, List.mem_append, List.mem_map, Prod.mk.injEq, ih hrest, List.mem_cons]
    constructor
    · rintro (⟨y, hy, rfl, rfl⟩ | ⟨ha, hb, hab⟩)
      · exact ⟨.inl rfl, .inr hy, hx y hy⟩
      · exact ⟨.inr ha, .inr hb, hab⟩
    · rintro ⟨rfl | ha, rfl | hb, hab⟩
      · omega
      · exact .inl ⟨b, hb, rfl, rfl⟩
      · exact absurd (hx a ha) (by omega)
      · exact .inr ⟨ha, hb, hab⟩

/-- The pair of ids at which a pass finds a hit: the smaller id first. -/
def HitResult.pair (x : HitResult) : Nat × Nat :=
  (min x.projectileId x.targetId, max x.projectileId x.targetId)

variable {w w' : World} {ff : Bool}

namespace Checked

/-- A computation that, when it stops, stops on an overflow: of a subtraction or an addition. -/
def StopsOnOverflow {α : Type} (x : Checked α) : Prop :=
  ∀ p, x = .error p →
    p.message = "attempt to subtract with overflow" ∨ p.message = "attempt to add with overflow"

variable {α β : Type}

theorem stopsOnOverflow_pure (a : α) : (pure a : Checked α).StopsOnOverflow := nofun

theorem StopsOnOverflow.bind {x : Checked α} {f : α → Checked β} (hx : x.StopsOnOverflow)
    (hf : ∀ a, (f a).StopsOnOverflow) : (x >>= f).StopsOnOverflow := by
  intro p h
  cases hx' : x with
  | error p' =>
    rw [hx'] at h
    cases h
    exact hx p hx'
  | ok a =>
    rw [hx'] at h
    exact hf a p h

theorem StopsOnOverflow.foldlM {f : β → α → Checked β} (hf : ∀ c a, (f c a).StopsOnOverflow) :
    ∀ (xs : List α) (b : β), (xs.foldlM f b).StopsOnOverflow
  | [], b => stopsOnOverflow_pure b
  | a :: xs, b => by
    rw [List.foldlM_cons]
    exact (hf b a).bind fun c => StopsOnOverflow.foldlM hf xs c

end Checked

open Checked

/-- The hit `a` of a pass from the world `w`, after the hits `earlier`, by the projectile `pe` of
`w` (with data `q`) on the player `te` of `w` (with data `v`), as the rules allow it at its
moment: the projectile is not spent; the player is alive, was not struck by the projectile and
does not own it; a present owner's ally is struck only with friendly fire on; the circles
overlap. The hit takes the projectile's damage and piercing, and a kill names the player and its
position. -/
structure PassHit (w : World) (ff : Bool) (earlier : List AppliedHit) (a : AppliedHit)
    (pe te : Entity) (q : Projectile) (v : Player) : Prop where
  projectile : w.get? a.result.projectileId = some pe ∧ pe.projectile? = some q
  player : w.get? a.result.targetId = some te ∧ te.player? = some v
  unspent : q.piercing = true ∨ ∀ b ∈ earlier, b.result.projectileId ≠ a.result.projectileId
  alive : v.alive = true ∧ ∀ b ∈ earlier, b.result.targetId = a.result.targetId → b.kill = none
  fresh : a.result.targetId ∉ q.hitEntities ∧ ∀ b ∈ earlier,
    b.result.projectileId = a.result.projectileId → b.result.targetId ≠ a.result.targetId
  notOwner : q.ownerId ≠ a.result.targetId
  friendly : ∀ o, (w.get? q.ownerId).bind Entity.player? = some o →
    ff = true ∨ o.team.isAlly v.team = false
  overlap : circlesOverlap pe.position projectileRadius te.position playerRadius = true
  damage : a.result.damage = q.damage
  piercing : a.piercing = q.piercing
  kill : ∀ k, a.kill = some k → k.victim = v.playerId ∧ k.position = te.position

/-- The explosion of a kill: an explosion effect at the victim's position. -/
def Explosion (e : Entity) (k : KillRecord) : Prop :=
  e.position = k.position ∧ ∃ o, e.kind = .effect ⟨.explosion, explosionSecs, o⟩

theorem Explosion.of_uncredited {e e' : Entity} {k : KillRecord} (h : Explosion e k)
    (he : e'.uncredited = e.uncredited) : Explosion e' k := by
  obtain ⟨hpos, o, hk⟩ := h
  refine ⟨by simpa [hpos] using congrArg Entity.position he, o, ?_⟩
  rcases e with ⟨id, pos, rot, vel, k₀⟩
  rcases e' with ⟨id', pos', rot', vel', k'⟩
  subst hk
  cases k' <;> simp_all [Entity.uncredited, Entity.mapPlayer]

/-- A strike spares the allies of a present owner unless friendly fire is on. -/
theorem strike?_friendly {s : Strike} {p t : Nat} (h : strike? w p t ff = some s) {pid : Int}
    {team : Team} (howner : s.owner = some (pid, team)) :
    ff = true ∨ team.isAlly s.victim.team = false := by
  unfold strike? at h
  split at h
  · split at h
    · simp only [Option.ite_none_left_eq_some, Option.some.injEq] at h
      obtain ⟨-, hff, -, rfl⟩ := h
      simp only at howner
      rw [howner] at hff
      cases ff <;> simp_all
    · cases h
  · cases h

/-- Within a pass the owner of a projectile is present as the same player, on the same team, as
at the pass's start, or absent at both. -/
theorem World.Grows.owner (h : Grows w w') (hw : w.Wf) (o : Nat) :
    ((w'.get? o).bind Entity.player?).map (fun q => (q.playerId, q.team)) =
      ((w.get? o).bind Entity.player?).map (fun q => (q.playerId, q.team)) := by
  by_cases ho : o ∈ w.ids
  · obtain ⟨e', he'⟩ : ∃ e', w'.get? o = some e' := by
      cases hg : w'.get? o with
      | none => exact absurd (h.keeps ho) (get?_eq_none_iff.1 hg)
      | some e' => exact ⟨e', rfl⟩
    obtain ⟨e, he, hl⟩ := h.toAges.get? hw ho he'
    rw [he, he']
    cases hq : e.player? with
    | none =>
      cases hq' : e'.player? with
      | none => simp [hq, hq']
      | some q' =>
        obtain ⟨q, hq₀, -⟩ := hl.player?_of_later hq'
        rw [hq] at hq₀
        cases hq₀
    | some q =>
      obtain ⟨q', hq', hs⟩ := hl.player? hq
      simp [hq, hq', hs.playerId, hs.team]
  · rw [get?_eq_none_iff.2 ho]
    cases hg : w'.get? o with
    | none => rfl
    | some e' =>
      cases hq' : e'.player? with
      | none => simp [hq']
      | some q' =>
        have hkey : (o, q'.playerId, q'.characterId, q'.team) ∈ w.playerKeys := by
          rw [← h.players, playerKeys, List.mem_filterMap]
          obtain ⟨he'm, rfl⟩ := get?_eq_some hg
          exact ⟨e', he'm, by simp [Entity.playerKey?, hq']⟩
        obtain ⟨e, he, hk⟩ := List.mem_filterMap.1 hkey
        simp only [Entity.playerKey?, Option.map_eq_some_iff, Prod.mk.injEq] at hk
        obtain ⟨_, -, rfl, -⟩ := hk
        exact absurd (List.mem_map_of_mem he) ho

/-! ## The world part way through a pass -/

/-- What holds part way through a pass from `w`, with `applied` the hits so far, `spent` the
projectiles spent so far and `wk` the world so far: the invariant `PassInv`; every hit so far was
allowed at its moment; every entity of `w` is as the hits so far leave it; and the entities added
are an explosion for each kill so far, in order. -/
structure PassTrace (w : World) (ff : Bool) (applied : List AppliedHit) (spent : List Nat)
    (wk : World) : Prop where
  inv : PassInv w (applied.map (·.result)) spent wk
  hits : ∀ pre a post, applied = pre ++ a :: post → ∃ pe te q v, PassHit w ff pre a pe te q v
  entities : ∀ e ∈ w.entities, ∃ e', wk.get? e.id = some e' ∧ e.AfterHits applied e'
  explosions : List.Forall₂ Explosion (wk.entities.filter (w.nextEntityId ≤ ·.id))
    (applied.filterMap (·.kill))

theorem PassTrace.start (hw : w.Wf) (ff : Bool) : PassTrace w ff [] [] w := by
  refine ⟨PassInv.start w, fun pre a post h => ?_, fun e he => ?_, ?_⟩
  · cases pre <;> cases h
  · exact ⟨e, hw.get?_eq_some_iff.2 ⟨he, rfl⟩, .start e⟩
  · rw [List.filter_eq_nil_iff.2 fun e he => by
      simpa using hw.lt_next e.id (List.mem_map_of_mem he)]
    exact .nil

/-- A list with one more element, cut at one of its elements: the element is the last, or is
in the list before. -/
theorem eq_or_mem_of_append_singleton {α : Type} {A pre post : List α} {a x : α}
    (h : A ++ [x] = pre ++ a :: post) : (pre = A ∧ a = x) ∨ ∃ post', A = pre ++ a :: post' := by
  rcases List.eq_nil_or_concat post with rfl | ⟨post', y, rfl⟩
  · obtain ⟨h₁, h₂⟩ := List.append_inj' h rfl
    exact .inl ⟨h₁.symm, (List.singleton_inj.1 h₂).symm⟩
  · rw [List.concat_eq_append, ← List.cons_append, ← List.append_assoc] at h
    exact .inr ⟨post', (List.append_inj' h rfl).1⟩

/-- What a strike leaves under each id: the struck player, the projectile that struck it, or the
entity as it was. -/
theorem get?_strike {wk : World} {p t i : Nat} (hpt : p ≠ t) (v : Player) (killed : Bool)
    {e : Entity} (he : wk.get? i = some e) :
    ((wk.update p (markHit t)).update t (placeVictim v killed)).get? i =
      some (if i = t then placeVictim v killed e else if i = p then markHit t e else e) := by
  have hm : ∀ e : Entity, e.id = p → (markHit t e).id = p := fun e h => (markHit_id t e).trans h
  have hv : ∀ e : Entity, e.id = t → (placeVictim v killed e).id = t :=
    fun e h => (placeVictim_id v killed e).trans h
  by_cases hit : i = t
  · subst hit
    rw [get?_update_self hv, get?_update_ne hm (Ne.symm hpt), he]
    simp
  · rw [get?_update_ne hv hit]
    by_cases hip : i = p
    · subst hip
      rw [get?_update_self hm, he]
      simp [hit]
    · rw [get?_update_ne hm hip, he]
      simp [hit, hip]

/-- Updates below `n` leave the entities from `n` on as they were. -/
theorem filter_update_of_lt {wk : World} {i n : Nat} {f : Entity → Entity}
    (hf : ∀ e, (f e).id = e.id) (hi : i < n) :
    (wk.update i f).entities.filter (n ≤ ·.id) = wk.entities.filter (n ≤ ·.id) := by
  simp only [World.update]
  induction wk.entities with
  | nil => rfl
  | cons e rest ih =>
    by_cases he : e.id = i
    · have : ¬ n ≤ i := by omega
      simp [he, hf, ih, this]
    · simp [List.filter_cons, he, ih]

/-- Changing only credits keeps the explosions. -/
theorem World.SameButCredits.explosions {w₁ w₂ : World} (h : w₁.SameButCredits w₂) {n : Nat}
    {ks : List KillRecord} (hx : List.Forall₂ Explosion (w₁.entities.filter (n ≤ ·.id)) ks) :
    List.Forall₂ Explosion (w₂.entities.filter (n ≤ ·.id)) ks := by
  have hmap : ∀ l : List Entity, (l.filter (n ≤ ·.id)).map Entity.uncredited =
      (l.map Entity.uncredited).filter (n ≤ ·.id) := by
    intro l
    rw [List.filter_map]
    simp [Function.comp_def]
  have hx' : List.Forall₂ (fun u k => ∀ e : Entity, e.uncredited = u → Explosion e k)
      ((w₁.entities.filter (n ≤ ·.id)).map Entity.uncredited) ks :=
    List.forall₂_map_left_iff.2 (hx.imp fun (c : Entity) (k : KillRecord) (hex : Explosion c k)
      (e' : Entity) (he' : e'.uncredited = c.uncredited) => hex.of_uncredited he')
  rw [hmap, ← h.entities, ← hmap] at hx'
  exact (List.forall₂_map_left_iff.1 hx').imp fun e' _ hk => hk e' rfl

/-! ## One pair of the pass -/

section Step

variable {A : List AppliedHit} {spent : List Nat} {wk : World} {p t : Nat} {s : Strike}
  {x : AppliedHit} {v : Player} {killed : Bool} {cs : List Nat}

/-- The entity of the world the pass started from under a projectile's or player's id, and the
entity the world so far has there. -/
theorem PassTrace.origin (hw : w.Wf) (tr : PassTrace w ff A spent wk) {i : Nat} (hi : i ∈ w.ids)
    {e' : Entity} (he' : wk.get? i = some e') :
    ∃ e, w.get? i = some e ∧ e.Later e' ∧ e.AfterHits A e' := by
  obtain ⟨e, he, hl⟩ := tr.inv.grows.toAges.get? hw hi he'
  obtain ⟨hem, rfl⟩ := get?_eq_some he
  obtain ⟨e'', he'', ha⟩ := tr.entities e hem
  rw [he', Option.some.injEq] at he''
  exact ⟨e, he, hl, he'' ▸ ha⟩

/-- The hit of a strike in the world so far, described by the world the pass started from and
the hits before it. -/
theorem PassTrace.passHit (hw : w.Wf) (tr : PassTrace w ff A spent wk) (hp : p ∈ w.ids)
    (ht : t ∈ w.ids) (hfree : spent.contains p = false) (hs : strike? wk p t ff = some s)
    (hpid : x.result.projectileId = p) (htid : x.result.targetId = t)
    (hdmg : x.result.damage = s.shot.damage) (hpier : x.piercing = s.shot.piercing)
    (hkill : ∀ k, x.kill = some k → k.victim = s.victim.playerId ∧
      k.position = s.target.position) :
    ∃ pe te q v, PassHit w ff A x pe te q v := by
  obtain ⟨hgp, hq', hgt, hv', halive, hfresh, howner, hownerEq, hover⟩ := strike?_eq_some hs
  obtain ⟨pe, hpe, hlp, hap⟩ := tr.origin hw hp hgp
  obtain ⟨te, hte, hlt, hat⟩ := tr.origin hw ht hgt
  obtain ⟨q, hq, hql⟩ := hlp.projectile?_of_later hq'
  obtain ⟨v, hv, hvs⟩ := hlt.player?_of_later hv'
  obtain ⟨q₁, hq₁, hdq, hmem⟩ := hap.shot q hq
  rw [hq', Option.some.injEq] at hq₁
  subst hq₁
  obtain ⟨v₁, hv₁, hwd⟩ := hat.wounded v hv
  rw [hv', Option.some.injEq] at hv₁
  subst hv₁
  have hpid' : pe.id = p := (get?_eq_some hpe).2
  have hnk : v.alive = true ∧ AppliedHit.anyKill (A.filter (·.result.targetId == te.id)) = false := by
    have := hwd.alive
    rw [halive] at this
    revert this
    cases v.alive <;> cases AppliedHit.anyKill (A.filter (·.result.targetId == te.id)) <;> decide
  have hte' : te.id = t := (get?_eq_some hte).2
  refine ⟨pe, te, q, v, ⟨hpid ▸ hpe, hq⟩, ⟨htid ▸ hte, hv⟩, ?_, ⟨hnk.1, ?_⟩, ⟨?_, ?_⟩, ?_, ?_,
    ?_, ?_, ?_, ?_⟩
  · cases hpq : q.piercing with
    | true => exact .inl rfl
    | false =>
      refine .inr fun b hb hbp => ?_
      have := tr.inv.spends b.result (List.mem_map_of_mem hb) q
        (shot?_eq_some.2 ⟨pe, hbp ▸ hpid ▸ hpe, hq⟩) hpq
      rw [hbp, hpid] at this
      simp [this] at hfree
  · intro b hb hbt
    have := hnk.2
    simp only [AppliedHit.anyKill, List.any_eq_false, List.mem_filter, beq_iff_eq,
      Option.isSome_iff_ne_none, not_not, and_imp] at this
    exact this b hb (hbt.trans (htid.trans hte'.symm))
  · exact fun hin => by simp [(hmem _).2 (.inl (htid ▸ hin))] at hfresh
  · intro b hb hbp hbt
    exact absurd ((hmem t).2 (.inr ⟨b, hb, hbp.trans (hpid.trans hpid'.symm), hbt.trans htid⟩))
      (by simpa using hfresh)
  · rw [htid, ← hql.owner]
    exact howner
  · intro o ho
    have hkey := tr.inv.grows.owner hw q.ownerId
    rw [ho, ← hql.owner, ← hownerEq] at hkey
    have := strike?_friendly hs hkey
    rwa [hwd.same.team] at this
  · rw [← hap.position, ← hat.position]
    exact hover
  · rw [hdmg, hdq]
  · rw [hpier, hql.piercing]
  · intro k hk
    obtain ⟨hkv, hkp⟩ := hkill k hk
    exact ⟨hkv.trans hwd.same.playerId, hkp.trans hat.position⟩

/-- Every entity of the world the pass started from, after a strike, is as the hits so far and
the strike leave it. -/
theorem PassTrace.afterHits_strike (hw : w.Wf) (tr : PassTrace w ff A spent wk)
    (hp : p ∈ w.ids) (hs : strike? wk p t ff = some s) (hh : s.hurt = .ok (v, killed, cs))
    (hpid : x.result.projectileId = p) (htid : x.result.targetId = t)
    (hx : x.kill.isSome = killed) (hdmg : x.result.damage = s.shot.damage) {e : Entity}
    (he : e ∈ w.entities) :
    ∃ e₁, ((wk.update p (markHit t)).update t (placeVictim v killed)).get? e.id = some e₁ ∧
      e.AfterHits (A ++ [x]) e₁ := by
  obtain ⟨hgp, hq', hgt, hv', halive, -⟩ := strike?_eq_some hs
  have hpt := strike?_ne hs
  obtain ⟨e', he', ha⟩ := tr.entities e he
  refine ⟨_, get?_strike hpt v killed he', ?_⟩
  by_cases hit : e.id = t
  · rw [hit, hgt, Option.some.injEq] at he'
    subst he'
    rw [if_pos hit]
    exact ha.struck hv' halive hh hx hdmg (htid.trans hit.symm)
  · rw [if_neg hit]
    by_cases hip : e.id = p
    · rw [hip, hgp, Option.some.injEq] at he'
      subst he'
      rw [if_pos hip]
      obtain ⟨e₀, he₀, hl, -⟩ := tr.origin hw hp hgp
      rw [← hip, hw.get?_eq_some_iff.2 ⟨he, rfl⟩, Option.some.injEq] at he₀
      subst he₀
      obtain ⟨q, hq, -⟩ := hl.projectile?_of_later hq'
      exact ha.marked (hpid.trans hip.symm) htid (Entity.player?_eq_none_of_projectile? hq)
    · rw [if_neg hip]
      exact ha.untouched (hpid ▸ Ne.symm hip) (htid ▸ Ne.symm hit)

/-- One pair of a pass keeps the trace, with its hit, if any, added. -/
theorem PassTrace.collidePair (hw : w.Wf) (tr : PassTrace w ff A spent wk) {spent' : List Nat}
    {wk' : World} {out' : CombatOutcome} {a b : Nat} (hab : (a, b) ∈ orderedPairs w.ids)
    (h : Skirmish.collidePair ff (⟨A.map (·.result), A.filterMap (·.kill)⟩, spent, wk) (a, b) =
      .ok (out', spent', wk')) :
    ∃ A', out' = ⟨A'.map (·.result), A'.filterMap (·.kill)⟩ ∧ PassTrace w ff A' spent' wk' := by
  have inv' := tr.inv.collidePair hw hab h
  rcases collidePair_hit h with ⟨rfl, rfl, rfl⟩ |
    ⟨p, t, s, x, v, killed, cs, hpt, hfree, hs, hh, hpid, htid, hdmg, hpier, hout, -, hk⟩
  · exact ⟨A, rfl, tr⟩
  have hout' : out' = ⟨(A ++ [x]).map (·.result), (A ++ [x]).filterMap (·.kill)⟩ := by
    rw [hout]
    cases hx : x.kill <;> simp [hx]
  subst hout'
  have hp : p ∈ w.ids ∧ t ∈ w.ids := by
    obtain ⟨ha, hb⟩ := mem_of_mem_orderedPairs hab
    rcases hpt with ⟨rfl, rfl⟩ | ⟨rfl, rfl⟩
    · exact ⟨ha, hb⟩
    · exact ⟨hb, ha⟩
  have hnext : w.nextEntityId ≤ wk.nextEntityId := tr.inv.grows.idsFrom.next_le
  have hxk : x.kill.isSome = killed := by
    cases killed with
    | true => obtain ⟨k, _, hxk, -⟩ := hk; simp [hxk]
    | false => simp [hk.1]
  have hkill : ∀ k, x.kill = some k → k.victim = s.victim.playerId ∧
      k.position = s.target.position := by
    intro k hxk'
    cases killed with
    | true =>
      obtain ⟨k', _, hxk, hv, hpos, -⟩ := hk
      rw [hxk, Option.some.injEq] at hxk'
      exact hxk' ▸ ⟨hv, hpos⟩
    | false => simp [hk.1] at hxk'
  have hstrike := fun e (he : e ∈ w.entities) =>
    tr.afterHits_strike hw hp.1 hs hh hpid htid hxk hdmg he
  have hfilter : ((wk.update p (markHit t)).update t (placeVictim v killed)).entities.filter
      (w.nextEntityId ≤ ·.id) = wk.entities.filter (w.nextEntityId ≤ ·.id) := by
    rw [filter_update_of_lt (fun e => placeVictim_id v killed e)
        (hw.lt_next t hp.2),
      filter_update_of_lt (fun e => markHit_id t e) (hw.lt_next p hp.1)]
  refine ⟨A ++ [x], rfl, inv', fun pre c post hc => ?_, fun e he => ?_, ?_⟩
  · rcases eq_or_mem_of_append_singleton hc with ⟨rfl, rfl⟩ | ⟨post', hA⟩
    · exact tr.passHit hw hp.1 hp.2 hfree hs hpid htid hdmg hpier hkill
    · exact tr.hits pre c post' hA
  · obtain ⟨e₁, he₁, ha₁⟩ := hstrike e he
    cases killed with
    | false => exact ⟨e₁, hk.2 ▸ he₁, ha₁⟩
    | true =>
      obtain ⟨k, w₂, -, -, -, hsame, rfl⟩ := hk
      obtain ⟨e₂, he₂, hu⟩ := hsame.get?_eq_some he₁
      have hlt : e.id ≠ w₂.nextEntityId := by
        have := hw.lt_next e.id (List.mem_map_of_mem he)
        rw [hsame.next]
        exact Nat.ne_of_lt (Nat.lt_of_lt_of_le this hnext)
      exact ⟨e₂, (get?_spawn_of_ne _ _ hlt).trans he₂, ha₁.of_uncredited hu⟩
  · cases killed with
    | false =>
      rw [hk.2, hfilter, List.filterMap_append, List.filterMap_cons_none hk.1, List.filterMap_nil,
        List.append_nil]
      exact tr.explosions
    | true =>
      obtain ⟨k, w₂, hxk, -, hpos, hsame, rfl⟩ := hk
      have hge : w.nextEntityId ≤ w₂.nextEntityId := hsame.next ▸ hnext
      rw [List.filterMap_append, List.filterMap_cons_some hxk, List.filterMap_nil]
      simp only [spawnEffect, spawn, List.filter_append, Entity.fresh, List.filter_singleton,
        decide_eq_true hge, cond_true]
      refine List.rel_append (hsame.explosions (hfilter ▸ tr.explosions)) (.cons ?_ .nil)
      exact ⟨hpos.symm, _, rfl⟩

end Step

/-- The trace at the end of the fold of a pass. -/
theorem PassTrace.of_fold (hw : w.Wf) {out : CombatOutcome} {spent : List Nat} {wk : World}
    (hf : (orderedPairs w.ids).foldlM (Skirmish.collidePair ff) (⟨[], []⟩, [], w) =
      .ok (out, spent, wk)) :
    ∃ A, out = ⟨A.map (·.result), A.filterMap (·.kill)⟩ ∧ PassTrace w ff A spent wk :=
  Checked.foldlM_induction
    (fun acc => ∃ A, acc.1 = ⟨A.map (·.result), A.filterMap (·.kill)⟩ ∧
      PassTrace w ff A acc.2.1 acc.2.2)
    (fun ⟨_, _, _⟩ ⟨_, _⟩ ⟨_, _, _⟩ hab ⟨A, hA, tr⟩ hstep => by
      dsimp only at hA
      subst hA
      exact tr.collidePair hw hab hstep)
    ⟨[], rfl, .start hw ff⟩ hf

/-! ## The whole pass -/

theorem World.get?_removeAll {wk : World} {ids : List Nat} {i : Nat} (hi : i ∉ ids) :
    (wk.removeAll ids).get? i = wk.get? i := by
  rw [removeAll_eq]
  simp only [World.get?, List.find?_filter]
  congr 2
  funext e
  by_cases he : e.id = i
  · simp [he, hi]
  · simp [he]

end Skirmish
