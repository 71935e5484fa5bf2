import Skirmish.Proofs.World.Scores

/-!
# What one hit of a collision pass does

A hit changes three things in the world it finds: the projectile records the player, the player
is hurt in place, and a kill is credited. The credits only count: a kill and a point for the
owner, assists for the other damagers, and then an explosion is added at the end of the world. To
say what a hit does to everything else, entities are compared without the kill and assist
counters of players (`Entity.uncredited`): crediting keeps every entity as it was but for those
counters (`World.SameButCredits`).

`Strike.hurt_spec` says what a strike does to its victim: the health falls by the damage, not
below zero, and the strike kills exactly when nothing is left; a kill leaves the victim dead,
with no damagers, one death more and waiting to respawn. `collidePair_hit` puts one pair of a
pass together: it changes nothing, or it is one strike of a projectile not yet spent, recorded at
the end of the outcome.
-/

namespace Skirmish

open World

/-! ## Entities without their credits -/

/-- A player without its kill and assist counters. -/
def Player.uncredited (p : Player) : Player := { p with kills := 0, assists := 0 }

/-- An entity without the kill and assist counters of its player. -/
def Entity.uncredited (e : Entity) : Entity := e.mapPlayer Player.uncredited

namespace Entity

@[simp] theorem uncredited_id (e : Entity) : e.uncredited.id = e.id := mapPlayer_id _ _

@[simp] theorem uncredited_position (e : Entity) : e.uncredited.position = e.position := by
  rcases e with ⟨id, pos, rot, vel, k⟩
  cases k <;> rfl

@[simp] theorem uncredited_velocity (e : Entity) : e.uncredited.velocity = e.velocity := by
  rcases e with ⟨id, pos, rot, vel, k⟩
  cases k <;> rfl

theorem player?_uncredited (e : Entity) : e.uncredited.player? = e.player?.map Player.uncredited := by
  rcases e with ⟨id, pos, rot, vel, k⟩
  cases k <;> rfl

theorem projectile?_uncredited (e : Entity) : e.uncredited.projectile? = e.projectile? := by
  rcases e with ⟨id, pos, rot, vel, k⟩
  cases k <;> rfl

/-- Changing only the credits of a player leaves it the same without them. -/
theorem uncredited_mapPlayer {f : Player → Player} (hf : ∀ p, (f p).uncredited = p.uncredited)
    (e : Entity) : (e.mapPlayer f).uncredited = e.uncredited := by
  rcases e with ⟨id, pos, rot, vel, k⟩
  cases k with
  | player p => simp only [uncredited, mapPlayer, hf]
  | projectile _ | effect _ => rfl

/-- Two entities equal without their credits have the same player, but for the credits. -/
theorem player?_of_uncredited {e e' : Entity} (h : e'.uncredited = e.uncredited) {v : Player}
    (hv : e.player? = some v) : ∃ v', e'.player? = some v' ∧ v'.uncredited = v.uncredited := by
  have := congrArg Entity.player? h
  rw [player?_uncredited, player?_uncredited, hv, Option.map_some] at this
  obtain ⟨v', hv', hu⟩ := Option.map_eq_some_iff.1 this
  exact ⟨v', hv', hu⟩

end Entity

/-- Worlds equal but for the kill and assist counters of players and the scores. -/
structure World.SameButCredits (w w' : World) : Prop where
  entities : w'.entities.map Entity.uncredited = w.entities.map Entity.uncredited
  next : w'.nextEntityId = w.nextEntityId

namespace World.SameButCredits

variable {w w' w'' : World}

theorem refl (w : World) : w.SameButCredits w := ⟨rfl, rfl⟩

theorem trans (h : w.SameButCredits w') (h' : w'.SameButCredits w'') : w.SameButCredits w'' :=
  ⟨h'.entities.trans h.entities, h'.next.trans h.next⟩

theorem ids (h : w.SameButCredits w') : w'.ids = w.ids := by
  have := congrArg (List.map Entity.id) h.entities
  simpa [List.map_map, Function.comp_def, World.ids] using this

/-- What a world finds under an id, it finds but for the credits in the other. -/
theorem get? (h : w.SameButCredits w') (i : Nat) :
    (w'.get? i).map Entity.uncredited = (w.get? i).map Entity.uncredited := by
  have key : ∀ v : World, (v.get? i).map Entity.uncredited =
      (v.entities.map Entity.uncredited).find? (·.id == i) := by
    intro v
    simp only [World.get?, List.find?_map, Function.comp_def, Entity.uncredited_id]
  rw [key, key, h.entities]

theorem get?_eq_some (h : w.SameButCredits w') {i : Nat} {e : Entity} (he : w.get? i = some e) :
    ∃ e', w'.get? i = some e' ∧ e'.uncredited = e.uncredited := by
  have := h.get? i
  rw [he, Option.map_some] at this
  obtain ⟨e', he', hu⟩ := Option.map_eq_some_iff.1 this
  exact ⟨e', he', hu⟩

theorem wf (h : w.SameButCredits w') (hw : w.Wf) : w'.Wf :=
  ⟨h.ids ▸ hw.sorted, fun i hi => h.next ▸ hw.lt_next i (h.ids ▸ hi)⟩

/-- Changing only the credits of a player. -/
theorem update {i : Nat} {f : Player → Player} (hf : ∀ p, (f p).uncredited = p.uncredited) :
    w.SameButCredits (w.update i (Entity.mapPlayer f)) := by
  refine ⟨?_, rfl⟩
  simp only [World.update, List.map_map]
  refine List.map_congr_left fun e _ => ?_
  simp only [Function.comp_apply]
  split
  · exact Entity.uncredited_mapPlayer hf e
  · rfl

theorem addScore {pid : Int} {n s : Nat} (h : w.addScore pid n = .ok (s, w')) : w.SameButCredits w' := by
  obtain ⟨-, rfl⟩ := addScore_eq_ok.1 h
  exact ⟨rfl, rfl⟩

theorem creditOwner {owner : Option (Int × Team)} {o : Nat} {killer : Option Int}
    (h : Skirmish.creditOwner w owner o = .ok (killer, w')) : w.SameButCredits w' := by
  cases owner with
  | none => exact (creditOwner_none h).2 ▸ refl w
  | some ot =>
    obtain ⟨-, w₀, sc, hk, hs⟩ := creditOwner_some h
    have h₀ : w.SameButCredits w₀ := by
      rcases hk with ⟨q, n, -, -, rfl⟩ | ⟨-, rfl⟩
      · exact update fun _ => rfl
      · exact refl _
    exact h₀.trans (addScore hs)

theorem creditAssists {cs : List Nat} {as as' : List Int}
    (h : cs.foldlM creditAssist (as, w) = .ok (as', w')) : w.SameButCredits w' :=
  creditAssists_induction (World.SameButCredits w) (fun _ _ _ hv => hv.trans (update fun _ => rfl))
    h (refl w)

end World.SameButCredits

/-! ## A world with one more entity -/

/-- A spawned entity takes the next id; the others stay where they were. -/
theorem World.get?_spawn_of_ne {w : World} (pos : Vec2) (k : EntityKind) {i : Nat}
    (hi : i ≠ w.nextEntityId) : (w.spawn pos k).2.get? i = w.get? i := by
  rw [World.get?_spawn, List.find?_singleton]
  cases w.get? i <;> simp [Entity.fresh, Ne.symm hi]

/-! ## What a strike does to its victim -/

/-- A strike takes the damage from the victim's health, not below zero, and kills exactly when
nothing is left; a kill leaves the victim dead, waiting to respawn, with one death more. -/
theorem Strike.hurt_spec {s : Strike} {v : Player} {killed : Bool} {cs : List Nat}
    (h : s.hurt = .ok (v, killed, cs)) :
    v.health = max (s.victim.health - s.shot.damage) 0 ∧
      killed = decide (s.victim.health - s.shot.damage ≤ 0) ∧
      s.victim.Same v ∧
      (killed = true → v.alive = false ∧ v.respawnCountdown = respawnSecs ∧
        v.deaths = s.victim.deaths + 1 ∧ v.damagedBy = []) ∧
      (killed = false → v.alive = s.victim.alive ∧ v.respawnCountdown = s.victim.respawnCountdown ∧
        v.deaths = s.victim.deaths) := by
  unfold Strike.hurt applyDamage at h
  obtain ⟨⟨health, k⟩, hd, h⟩ := Except.bind_eq_ok.1 h
  obtain ⟨d, hsub, hd⟩ := Except.bind_eq_ok.1 hd
  have hdiff : d = s.victim.health - s.shot.damage := by
    unfold subI32 at hsub
    split at hsub
    · exact (Except.pure_eq_ok.1 hsub).symm
    · cases hsub
  subst hdiff
  simp only [Except.pure_eq_ok, Prod.mk.injEq] at hd
  obtain ⟨rfl, rfl⟩ := hd
  have hk : decide (max (s.victim.health - s.shot.damage) 0 ≤ 0) =
      decide (s.victim.health - s.shot.damage ≤ 0) := by
    rw [decide_eq_decide]
    omega
  cases hkill : decide (max (s.victim.health - s.shot.damage) 0 ≤ 0) with
  | false =>
    rw [hkill] at h hk
    simp only [Bool.false_eq_true, if_false, Except.pure_eq_ok, Prod.mk.injEq] at h
    obtain ⟨rfl, rfl, rfl⟩ := h
    exact ⟨rfl, hk, ⟨rfl, rfl, rfl⟩, fun h => absurd h Bool.false_ne_true, fun _ => ⟨rfl, rfl, rfl⟩⟩
  | true =>
    rw [hkill] at h hk
    simp only [if_true] at h
    obtain ⟨deaths, hdeaths, h⟩ := Except.bind_eq_ok.1 h
    simp only [Except.pure_eq_ok, Prod.mk.injEq] at h
    obtain ⟨rfl, rfl, rfl⟩ := h
    have hn : deaths = s.victim.deaths + 1 := by
      unfold addU32 at hdeaths
      split at hdeaths
      · exact (Except.pure_eq_ok.1 hdeaths).symm
      · cases hdeaths
    exact ⟨rfl, hk, ⟨rfl, rfl, rfl⟩, fun _ => ⟨rfl, rfl, hn, rfl⟩, fun h => absurd h.symm Bool.false_ne_true⟩

/-! ## One pair of a pass -/

variable {w w' : World} {ff : Bool}

/-- A pair of a pass changes nothing, or it is one strike of a projectile not yet spent,
recorded at the end of the outcome; a kill is credited and adds an explosion at the victim. -/
theorem collidePair_hit {out out' : CombatOutcome} {spent spent' : List Nat} {a b : Nat}
    (h : collidePair ff (out, spent, w) (a, b) = .ok (out', spent', w')) :
    (out' = out ∧ spent' = spent ∧ w' = w) ∨
    ∃ (p t : Nat) (s : Strike) (x : AppliedHit) (v : Player) (killed : Bool) (cs : List Nat),
      ((p = a ∧ t = b) ∨ (p = b ∧ t = a)) ∧ spent.contains p = false ∧
      strike? w p t ff = some s ∧ s.hurt = .ok (v, killed, cs) ∧
      x.result.projectileId = p ∧ x.result.targetId = t ∧ x.result.damage = s.shot.damage ∧
      x.piercing = s.shot.piercing ∧
      out' = ⟨out.hits ++ [x.result], out.kills ++ x.kill.toList⟩ ∧
      spent' = (if x.piercing then spent else spent ++ [p]) ∧
      if killed then ∃ k w₂, x.kill = some k ∧ k.victim = s.victim.playerId ∧
          k.position = s.target.position ∧
          ((w.update p (markHit t)).update t (placeVictim v killed)).SameButCredits w₂ ∧
          w' = (w₂.spawnEffect s.target.position .explosion explosionSecs
            (s.owner.map fun _ => s.shot.ownerId)).2
      else x.kill = none ∧ w' = (w.update p (markHit t)).update t (placeVictim v killed) := by
  rcases collidePair_eq h with hnone | ⟨p, t, x, hpt, hspent, hh, hout, hsp⟩
  · exact .inl hnone
  obtain ⟨s, hs, ha⟩ := tryHit_some hh
  obtain ⟨v, killed, cs, hhurt, hpid, htid, hdmg, hpier, hk⟩ := applyStrike_eq ha
  refine .inr ⟨p, t, s, x, v, killed, cs, hpt, hspent, hs, hhurt, hpid, htid, hdmg, hpier, hout, hsp,
    ?_⟩
  cases killed with
  | false => exact hk
  | true =>
    obtain ⟨k, hxk, hck⟩ := hk
    obtain ⟨killer, w₁, as, w₂, h₁, h₂, rfl, rfl⟩ := creditKill_eq hck
    exact ⟨_, w₂, hxk, rfl, rfl,
      (World.SameButCredits.creditOwner h₁).trans (World.SameButCredits.creditAssists h₂), rfl⟩


/-! ## Each entity through the hits of a pass -/

namespace AppliedHit

/-- The damage of a list of hits, added up. -/
def totalDamage : List AppliedHit → Int
  | [] => 0
  | a :: rest => a.result.damage + totalDamage rest

/-- Whether one of the hits killed. -/
def anyKill (hits : List AppliedHit) : Bool := hits.any (·.kill.isSome)

theorem totalDamage_append (hs hs' : List AppliedHit) :
    totalDamage (hs ++ hs') = totalDamage hs + totalDamage hs' := by
  induction hs with
  | nil => simp [totalDamage]
  | cons a rest ih =>
    simp only [List.cons_append, totalDamage, ih]
    omega

theorem totalDamage_singleton (a : AppliedHit) : totalDamage [a] = a.result.damage := by
  simp [totalDamage]

theorem anyKill_append_singleton (hs : List AppliedHit) (a : AppliedHit) :
    anyKill (hs ++ [a]) = (anyKill hs || a.kill.isSome) := by
  simp [anyKill]

end AppliedHit

/-- A player `e` of the world a pass started from, with data `v`, after the hits `hits` of the
pass on it, as `e'` with data `v'`. It is the same player; its health is what the damage leaves,
not below zero; it is killed exactly when a hit leaves no health. A killed player is dead, still,
waiting to respawn, with one death more and no damagers; a spared one keeps its velocity, its
wait and its deaths. -/
structure Wounded (e : Entity) (v : Player) (hits : List AppliedHit) (e' : Entity) (v' : Player) :
    Prop where
  same : v.Same v'
  killed : AppliedHit.anyKill hits =
    (!hits.isEmpty && decide (v.health - AppliedHit.totalDamage hits ≤ 0))
  health : v'.health = if hits.isEmpty then v.health else max 0 (v.health - AppliedHit.totalDamage hits)
  alive : v'.alive = (v.alive && !AppliedHit.anyKill hits)
  dead : AppliedHit.anyKill hits = true → e'.velocity = Vec2.zero ∧
    v'.respawnCountdown = respawnSecs ∧ v'.deaths = v.deaths + 1 ∧ v'.damagedBy = []
  spared : AppliedHit.anyKill hits = false → e'.velocity = e.velocity ∧
    v'.respawnCountdown = v.respawnCountdown ∧ v'.deaths = v.deaths

namespace Wounded

variable {e e' e'' : Entity} {v v' v'' : Player} {hits : List AppliedHit}

theorem start (e : Entity) (v : Player) : Wounded e v [] e v :=
  ⟨.refl v, rfl, by simp, by simp [AppliedHit.anyKill], fun h => absurd h Bool.false_ne_true,
    fun _ => ⟨rfl, rfl, rfl⟩⟩

/-- The health of a wounded player: none after a kill, else its health less the damage. -/
theorem health_eq (h : Wounded e v hits e' v') :
    v'.health = if AppliedHit.anyKill hits then 0 else v.health - AppliedHit.totalDamage hits := by
  have hk := h.killed
  rw [h.health]
  cases hits with
  | nil => simp [AppliedHit.anyKill, AppliedHit.totalDamage]
  | cons a rest =>
    simp only [List.isEmpty_cons, Bool.not_false, Bool.true_and] at hk
    simp only [List.isEmpty_cons, Bool.false_eq_true, if_false, hk, decide_eq_true_eq]
    split <;> omega

/-- Only the credits of the wounded player changed. -/
theorem of_uncredited (h : Wounded e v hits e' v') (he : e''.uncredited = e'.uncredited)
    (hv : v''.uncredited = v'.uncredited) : Wounded e v hits e'' v'' := by
  have hvel : e''.velocity = e'.velocity := by simpa using congrArg Entity.velocity he
  have hh : v''.health = v'.health := (congrArg Player.health hv :)
  have ha : v''.alive = v'.alive := (congrArg Player.alive hv :)
  have hr : v''.respawnCountdown = v'.respawnCountdown := (congrArg Player.respawnCountdown hv :)
  have hd : v''.deaths = v'.deaths := (congrArg Player.deaths hv :)
  have hb : v''.damagedBy = v'.damagedBy := (congrArg Player.damagedBy hv :)
  have hs : v'.Same v'' :=
    ⟨(congrArg Player.playerId hv :), (congrArg Player.characterId hv :), (congrArg Player.team hv :)⟩
  refine ⟨h.same.trans hs, h.killed, hh ▸ h.health, ha ▸ h.alive, fun hk => ?_, fun hk => ?_⟩
  · obtain ⟨h1, h2, h3, h4⟩ := h.dead hk
    exact ⟨hvel.trans h1, hr.trans h2, hd.trans h3, hb.trans h4⟩
  · obtain ⟨h1, h2, h3⟩ := h.spared hk
    exact ⟨hvel.trans h1, hr.trans h2, hd.trans h3⟩

/-- One more hit on a living player: the strike's damage is added to the hits before it. -/
theorem strike {s : Strike} (h : Wounded e v hits e' s.victim) (halive : s.victim.alive = true)
    {killed : Bool} {cs : List Nat} (hh : s.hurt = .ok (v', killed, cs)) {x : AppliedHit}
    (hx : x.kill.isSome = killed) (hd : x.result.damage = s.shot.damage) :
    Wounded e v (hits ++ [x]) (placeVictim v' killed e') v' := by
  obtain ⟨hhealth, hkilled, hsame, hdead, hspared⟩ := Strike.hurt_spec hh
  have hnk : AppliedHit.anyKill hits = false ∧ v.alive = true := by
    have := h.alive
    rw [halive] at this
    revert this
    cases AppliedHit.anyKill hits <;> cases v.alive <;> decide
  have hlive : s.victim.health = v.health - AppliedHit.totalDamage hits := by
    rw [h.health_eq, hnk.1]
    rfl
  obtain ⟨hvel, hresp, hdeaths⟩ := h.spared hnk.1
  have hany : AppliedHit.anyKill (hits ++ [x]) = killed := by
    rw [AppliedHit.anyKill_append_singleton, hnk.1, hx]
    rfl
  have htot : AppliedHit.totalDamage (hits ++ [x]) =
      AppliedHit.totalDamage hits + s.shot.damage := by
    rw [AppliedHit.totalDamage_append, AppliedHit.totalDamage_singleton, hd]
  have hne : (hits ++ [x]).isEmpty = false := by simp
  refine ⟨h.same.trans hsame, ?_, ?_, ?_, fun hk => ?_, fun hk => ?_⟩
  · rw [hany, hkilled, htot, hlive, hne]
    simp only [Bool.not_false, Bool.true_and, decide_eq_decide]
    omega
  · rw [hhealth, htot, hlive, hne]
    simp only [Bool.false_eq_true, if_false]
    omega
  · rw [hany, hnk.2]
    cases killed with
    | true => exact (hdead rfl).1
    | false => exact (hspared rfl).1.trans halive
  · rw [hany] at hk
    subst hk
    obtain ⟨-, hr, hd', hdb⟩ := hdead rfl
    exact ⟨rfl, hr, by rw [hd', hdeaths], hdb⟩
  · rw [hany] at hk
    subst hk
    obtain ⟨-, hr, hd'⟩ := hspared rfl
    exact ⟨hvel, hr.trans hresp, hd'.trans hdeaths⟩

end Wounded

/-- An entity of the world a pass started from, as the hits `hits` of the pass so far leave it,
in `e'`: in its place; a projectile with its damage, recording the players it struck before and
those it struck since; a player wounded by the hits on it. -/
structure Entity.AfterHits (hits : List AppliedHit) (e e' : Entity) : Prop where
  position : e'.position = e.position
  shot : ∀ q, e.projectile? = some q → ∃ q', e'.projectile? = some q' ∧ q'.damage = q.damage ∧
    ∀ t, t ∈ q'.hitEntities ↔ t ∈ q.hitEntities ∨
      ∃ b ∈ hits, b.result.projectileId = e.id ∧ b.result.targetId = t
  wounded : ∀ v, e.player? = some v → ∃ v', e'.player? = some v' ∧
    Wounded e v (hits.filter (·.result.targetId == e.id)) e' v'

theorem markHit_position (t : Nat) (e : Entity) : (markHit t e).position = e.position := by
  rcases e with ⟨id, pos, rot, vel, k⟩
  cases k <;> rfl

theorem projectile?_markHit (t : Nat) (e : Entity) :
    (markHit t e).projectile? =
      e.projectile?.map fun q => { q with hitEntities := insertId t q.hitEntities } := by
  rcases e with ⟨id, pos, rot, vel, k⟩
  cases k <;> rfl

@[simp] theorem placeVictim_position (v : Player) (killed : Bool) (e : Entity) :
    (placeVictim v killed e).position = e.position := by
  unfold placeVictim; split <;> rfl

@[simp] theorem placeVictim_velocity (v : Player) (e : Entity) :
    (placeVictim v false e).velocity = e.velocity := rfl

namespace Entity.AfterHits

variable {hits : List AppliedHit} {e e' e'' : Entity}

theorem start (e : Entity) : AfterHits [] e e :=
  ⟨rfl, fun q hq => ⟨q, hq, rfl, by simp⟩, fun v hv => ⟨v, hv, Wounded.start e v⟩⟩

/-- Only the credits of the entity changed. -/
theorem of_uncredited (h : AfterHits hits e e') (he : e''.uncredited = e'.uncredited) :
    AfterHits hits e e'' := by
  refine ⟨?_, fun q hq => ?_, fun v hv => ?_⟩
  · simpa [h.position] using congrArg Entity.position he
  · have hq' := congrArg Entity.projectile? he
    rw [projectile?_uncredited, projectile?_uncredited] at hq'
    exact hq' ▸ h.shot q hq
  · obtain ⟨v', hv', hw⟩ := h.wounded v hv
    obtain ⟨v'', hv'', hu⟩ := Entity.player?_of_uncredited he hv'
    exact ⟨v'', hv'', hw.of_uncredited he hu⟩

/-- A hit by another projectile on another player leaves the entity as it was. -/
theorem untouched (h : AfterHits hits e e') {x : AppliedHit} (hp : x.result.projectileId ≠ e.id)
    (ht : x.result.targetId ≠ e.id) : AfterHits (hits ++ [x]) e e' := by
  refine ⟨h.position, fun q hq => ?_, fun v hv => ?_⟩
  · obtain ⟨q', hq', hd, hmem⟩ := h.shot q hq
    refine ⟨q', hq', hd, fun t => ?_⟩
    rw [hmem]
    simp [hp]
  · have hf : (hits ++ [x]).filter (·.result.targetId == e.id) =
        hits.filter (·.result.targetId == e.id) := by
      simp [List.filter_append, ht]
    rw [hf]
    exact h.wounded v hv

/-- The projectile of a hit records the player it struck. -/
theorem marked (h : AfterHits hits e e') {x : AppliedHit} {t : Nat}
    (hp : x.result.projectileId = e.id) (ht : x.result.targetId = t) (hnp : e.player? = none) :
    AfterHits (hits ++ [x]) e (markHit t e') := by
  refine ⟨(markHit_position t e').trans h.position, fun q hq => ?_, fun v hv => ?_⟩
  · obtain ⟨q', hq', hd, hmem⟩ := h.shot q hq
    refine ⟨{ q' with hitEntities := insertId t q'.hitEntities }, by rw [projectile?_markHit, hq']; rfl,
      hd, fun t' => ?_⟩
    rw [mem_insertId, hmem]
    simp only [List.mem_append, List.mem_singleton]
    constructor
    · rintro (rfl | h₁ | ⟨b, hb, h₂⟩)
      · exact .inr ⟨x, .inr rfl, hp, ht⟩
      · exact .inl h₁
      · exact .inr ⟨b, .inl hb, h₂⟩
    · rintro (h₁ | ⟨b, hb | rfl, h₂⟩)
      · exact .inr (.inl h₁)
      · exact .inr (.inr ⟨b, hb, h₂⟩)
      · exact .inl (h₂.2.symm.trans ht)
  · exact absurd hv (by simp [hnp])

/-- The player of a hit is wounded once more. -/
theorem struck {s : Strike} (h : AfterHits hits e s.target)
    (hvic : s.target.player? = some s.victim) (halive : s.victim.alive = true) {v' : Player}
    {killed : Bool} {cs : List Nat} (hh : s.hurt = .ok (v', killed, cs)) {x : AppliedHit}
    (hx : x.kill.isSome = killed) (hd : x.result.damage = s.shot.damage)
    (ht : x.result.targetId = e.id) :
    AfterHits (hits ++ [x]) e (placeVictim v' killed s.target) := by
  refine ⟨(placeVictim_position v' killed _).trans h.position, fun q hq => ?_, fun v hv => ?_⟩
  · obtain ⟨q', hq', -⟩ := h.shot q hq
    exact absurd hvic (by simp [Entity.player?_eq_none_of_projectile? hq'])
  · obtain ⟨v₁, hv₁, hw⟩ := h.wounded v hv
    rw [hvic, Option.some.injEq] at hv₁
    subst hv₁
    have hf : (hits ++ [x]).filter (·.result.targetId == e.id) =
        hits.filter (·.result.targetId == e.id) ++ [x] := by
      simp [List.filter_append, ht]
    rw [hf]
    exact ⟨v', placeVictim_player? v' killed _, hw.strike halive hh hx hd⟩

end Entity.AfterHits

end Skirmish
