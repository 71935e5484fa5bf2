import Skirmish.Proofs.Combat.Outcome

/-!
# A collision pass leaves nothing to strike

One pass of `resolveCollisions` already makes every hit that the positions it finds allow: run
again on the world it leaves, it hits nothing, kills nothing and changes nothing
(`resolveCollisions_idempotent`).

The argument follows the pairs of the first pass. At the pair of a projectile and a player, the
projectile is spent, or the strike is refused, or it is made and the projectile records the
player (`collidePair_settles`). A refusal stays a refusal for the rest of the pass, because every
step only tightens the world (`World.Tightens`): no entity moves, a player only dies, a
projectile's record of the players it struck only grows, owners stay the same players, and the
only entities added are explosions. Removing the spent projectiles at the end tightens it too.
So in the world the pass leaves, every pair of a projectile and a player is refused, and a
second pass walks its pairs without a change (`foldlM_collidePair_quiet`).
-/

namespace Skirmish

open World

/-! ## The rules of a strike, read in one world -/

/-- The player and team under an id, when the entity there is a player: what a strike reads as
the owner of a projectile. -/
def World.ownerKey? (w : World) (o : Nat) : Option (Int × Team) :=
  ((w.get? o).bind Entity.player?).map fun v => (v.playerId, v.team)

variable {w w' w'' : World} {p t : Nat} {ff : Bool}

/-- A strike is found exactly when the rules allow it: a projectile and a live player, not
struck by the projectile before and not its owner, no ally of a present owner unless friendly
fire is on, and their circles overlapping. -/
theorem strike?_isSome_iff :
    (strike? w p t ff).isSome ↔ ∃ pe q te v, w.get? p = some pe ∧ pe.projectile? = some q ∧
      w.get? t = some te ∧ te.player? = some v ∧ v.alive = true ∧ t ∉ q.hitEntities ∧
      q.ownerId ≠ t ∧
      (∀ o, w.ownerKey? q.ownerId = some o → ff = true ∨ o.2.isAlly v.team = false) ∧
      circlesOverlap pe.position projectileRadius te.position playerRadius = true := by
  constructor
  · intro h
    obtain ⟨s, hs⟩ := Option.isSome_iff_exists.1 h
    obtain ⟨hp, hq, ht, hv, halive, hfresh, howner, hkey, hover⟩ := strike?_eq_some hs
    refine ⟨_, _, _, _, hp, hq, ht, hv, halive, by simpa using hfresh, howner, fun o ho => ?_,
      hover⟩
    exact strike?_friendly hs (hkey.trans ho)
  · rintro ⟨pe, q, te, v, hp, hq, ht, hv, halive, hfresh, howner, hff, hover⟩
    unfold strike?
    rw [hp, ht]
    have hc : q.hitEntities.contains t = false := by simpa using hfresh
    have hk : ((w.get? q.ownerId).bind Entity.player?).map (fun v => (v.playerId, v.team)) =
        w.ownerKey? q.ownerId := rfl
    simp only [hq, hv, halive, Bool.not_true, howner, decide_false, Bool.or_false, hover, hc, hk]
    -- the owner's team spares the player only without friendly fire
    cases ho : w.ownerKey? q.ownerId with
    | none => rfl
    | some o =>
      rcases hff o ho with hf | hf <;> simp [hf]

theorem Entity.type_of_projectile? {e : Entity} {q : Projectile} (h : e.projectile? = some q) :
    e.type = .projectile := by
  rcases e with ⟨id, pos, rot, vel, k⟩
  cases k <;> simp_all [Entity.projectile?, Entity.type]

theorem Entity.type_of_player? {e : Entity} {v : Player} (h : e.player? = some v) :
    e.type = .player := by
  rcases e with ⟨id, pos, rot, vel, k⟩
  cases k <;> simp_all [Entity.player?, Entity.type]

theorem tryHit_of_strike?_none (h : strike? w p t ff = none) : tryHit w p t ff = .ok (none, w) := by
  unfold tryHit
  rw [h]
  rfl

theorem strike?_of_tryHit_none (h : tryHit w p t ff = .ok (none, w')) : strike? w p t ff = none := by
  unfold tryHit at h
  split at h
  · assumption
  · obtain ⟨⟨a, w₁⟩, _, h⟩ := Except.bind_eq_ok.1 h
    simp at h

/-! ## Worlds that allow no new strike -/

/-- `e'` is `e` as a pass may leave it: in the same place; a projectile with the same owner that
has struck at least the players `e` had; the same player, or no player as before, alive only if
`e` was. -/
structure Entity.Tightens (e e' : Entity) : Prop where
  position : e'.position = e.position
  shot : ∀ q', e'.projectile? = some q' →
    ∃ q, e.projectile? = some q ∧ q'.ownerId = q.ownerId ∧ q.hitEntities ⊆ q'.hitEntities
  key : e'.player?.map (fun v => (v.playerId, v.team)) =
    e.player?.map (fun v => (v.playerId, v.team))
  alive : ∀ v', e'.player? = some v' → v'.alive = true → ∃ v, e.player? = some v ∧ v.alive = true

namespace Entity.Tightens

variable {e e' e'' : Entity}

theorem refl (e : Entity) : e.Tightens e :=
  ⟨rfl, fun q hq => ⟨q, hq, rfl, List.Subset.refl _⟩, rfl, fun v hv ha => ⟨v, hv, ha⟩⟩

theorem trans (h : e.Tightens e') (h' : e'.Tightens e'') : e.Tightens e'' := by
  refine ⟨h'.position.trans h.position, fun q'' hq'' => ?_, h'.key.trans h.key,
    fun v'' hv'' ha'' => ?_⟩
  · obtain ⟨q', hq', ho', hs'⟩ := h'.shot q'' hq''
    obtain ⟨q, hq, ho, hs⟩ := h.shot q' hq'
    exact ⟨q, hq, ho'.trans ho, List.Subset.trans hs hs'⟩
  · obtain ⟨v', hv', ha'⟩ := h'.alive v'' hv'' ha''
    exact h.alive v' hv' ha'

/-- A tightened form of an entity that is neither a projectile nor a player is neither. -/
theorem inert (h : e.Tightens e') (hq : e.projectile? = none) (hv : e.player? = none) :
    e'.projectile? = none ∧ e'.player? = none := by
  refine ⟨?_, ?_⟩
  · cases hq' : e'.projectile? with
    | none => rfl
    | some q' =>
      obtain ⟨q, hq₀, -⟩ := h.shot q' hq'
      rw [hq] at hq₀
      cases hq₀
  · have hkey := h.key
    rw [hv, Option.map_none, Option.map_eq_none_iff] at hkey
    exact hkey

/-- Recording a struck player tightens a projectile and leaves any other entity as it is. -/
theorem markHit (t : Nat) (e : Entity) : e.Tightens (Skirmish.markHit t e) := by
  refine ⟨markHit_position t e, fun q' hq' => ?_, by rw [Entity.player?_markHit],
    fun v hv ha => ⟨v, by rwa [Entity.player?_markHit] at hv, ha⟩⟩
  rw [projectile?_markHit] at hq'
  obtain ⟨q, hq, rfl⟩ := Option.map_eq_some_iff.1 hq'
  exact ⟨q, hq, rfl, fun x hx => mem_insertId.2 (.inr hx)⟩

/-- Changing only the credits of a player tightens nothing away. -/
theorem of_uncredited (h : e'.uncredited = e.uncredited) : e.Tightens e' := by
  refine ⟨by simpa using congrArg Entity.position h, fun q' hq' => ?_, ?_, fun v' hv' ha' => ?_⟩
  · have hq := congrArg Entity.projectile? h
    rw [Entity.projectile?_uncredited, Entity.projectile?_uncredited, hq'] at hq
    exact ⟨q', hq.symm, rfl, List.Subset.refl _⟩
  · have hv := congrArg (Option.map fun v => (v.playerId, v.team)) (congrArg Entity.player? h)
    simpa [Entity.player?_uncredited, Option.map_map, Function.comp_def, Player.uncredited]
      using hv
  · obtain ⟨v, hv, hu⟩ := Entity.player?_of_uncredited h.symm hv'
    exact ⟨v, hv, (congrArg Player.alive hu :).trans ha'⟩

end Entity.Tightens

/-- `w'` allows no strike that `w` did not. Each entity `w'` finds under an id is a tightened form
of the one `w` finds there, or is neither a projectile nor a player; and `w'` finds a player
wherever `w` does. -/
structure World.Tightens (w w' : World) : Prop where
  get? : ∀ i e', w'.get? i = some e' →
    (∃ e, w.get? i = some e ∧ e.Tightens e') ∨ (e'.projectile? = none ∧ e'.player? = none)
  players : ∀ i e v, w.get? i = some e → e.player? = some v →
    ∃ e' v', w'.get? i = some e' ∧ e'.player? = some v'

namespace World.Tightens

theorem refl (w : World) : w.Tightens w :=
  ⟨fun _ e' h => .inl ⟨e', h, .refl e'⟩, fun _ e v he hv => ⟨e, v, he, hv⟩⟩

theorem trans (h : w.Tightens w') (h' : w'.Tightens w'') : w.Tightens w'' := by
  refine ⟨fun i e'' he'' => ?_, fun i e v he hv => ?_⟩
  · rcases h'.get? i e'' he'' with ⟨e', he', ht'⟩ | hinert
    · rcases h.get? i e' he' with ⟨e, he, ht⟩ | ⟨hq, hv⟩
      · exact .inl ⟨e, he, ht.trans ht'⟩
      · exact .inr (ht'.inert hq hv)
    · exact .inr hinert
  · obtain ⟨e', v', he', hv'⟩ := h.players i e v he hv
    exact h'.players i e' v' he' hv'

/-- A projectile or a player that `w'` finds was there in `w`, tightened. -/
theorem get?_of_active (h : w.Tightens w') {i : Nat} {e' : Entity} (he' : w'.get? i = some e')
    (hact : ¬(e'.projectile? = none ∧ e'.player? = none)) : ∃ e, w.get? i = some e ∧ e.Tightens e' :=
  (h.get? i e' he').resolve_right hact

/-- Every id names the same owner, or none, in both worlds. -/
theorem ownerKey? (h : w.Tightens w') (o : Nat) : w'.ownerKey? o = w.ownerKey? o := by
  have hnone : (∀ e', w'.get? o = some e' → e'.player? = none) → w.ownerKey? o = none := by
    intro hno
    rw [World.ownerKey?, Option.map_eq_none_iff, Option.bind_eq_none_iff]
    intro e he
    cases hv : e.player? with
    | none => rfl
    | some v =>
      obtain ⟨e', v', he', hv'⟩ := h.players o e v he hv
      rw [hno e' he'] at hv'
      cases hv'
  cases hg' : w'.get? o with
  | none =>
    rw [hnone (fun e' he' => by rw [hg'] at he'; cases he'), World.ownerKey?, hg']
    rfl
  | some e' =>
    rcases h.get? o e' hg' with ⟨e, he, ht⟩ | ⟨-, hv'⟩
    · rw [World.ownerKey?, World.ownerKey?, hg', he, Option.bind_some, Option.bind_some]
      exact ht.key
    · rw [hnone (fun e₁ he₁ => by rw [hg', Option.some.injEq] at he₁; exact he₁ ▸ hv'),
        World.ownerKey?, hg', Option.bind_some, hv']
      rfl

/-- A strike refused in `w` is refused in a tightened `w'`. -/
theorem strike?_eq_none (h : w.Tightens w') (hs : strike? w p t ff = none) :
    strike? w' p t ff = none := by
  cases hs' : strike? w' p t ff with
  | none => rfl
  | some s' =>
    obtain ⟨pe', q', te', v', hp', hq', ht', hv', halive', hfresh', howner', hff', hover'⟩ :=
      strike?_isSome_iff.1 (by rw [hs']; rfl)
    obtain ⟨pe, hp, hpt⟩ := h.get?_of_active hp' (by simp [hq'])
    obtain ⟨te, ht, htt⟩ := h.get?_of_active ht' (by simp [hv'])
    obtain ⟨q, hq, hown, hsub⟩ := hpt.shot q' hq'
    obtain ⟨v, hv, halive⟩ := htt.alive v' hv' halive'
    have hteam : v'.team = v.team := by
      have hkey := htt.key
      rw [hv', hv] at hkey
      simp only [Option.map_some, Option.some.injEq, Prod.mk.injEq] at hkey
      exact hkey.2
    have hallowed : (strike? w p t ff).isSome := by
      refine strike?_isSome_iff.2 ⟨pe, q, te, v, hp, hq, ht, hv, halive,
        fun hin => hfresh' (hsub hin), hown ▸ howner', fun o ho => ?_, ?_⟩
      · rw [← hteam]
        exact hff' o (by rw [hown, h.ownerKey?]; exact ho)
      · rw [← hpt.position, ← htt.position]
        exact hover'
    rw [hs] at hallowed
    cases hallowed

/-- An update that tightens each entity it changes tightens the world. -/
theorem update {i : Nat} {f : Entity → Entity} (hid : ∀ e, (f e).id = e.id)
    (hf : ∀ e ∈ w.entities, e.id = i → e.Tightens (f e)) : w.Tightens (w.update i f) := by
  have hf' : ∀ e, e.id = i → (f e).id = i := fun e h => (hid e).trans h
  have hstep : ∀ j e, w.get? j = some e → e.Tightens (if e.id = i then f e else e) := by
    intro j e he
    split
    · exact hf e (get?_eq_some he).1 ‹_›
    · exact .refl e
  refine ⟨fun j e' he' => ?_, fun j e v he hv => ?_⟩
  · rw [get?_update hf'] at he'
    obtain ⟨e, he, rfl⟩ := Option.map_eq_some_iff.1 he'
    exact .inl ⟨e, he, hstep j e he⟩
  · have hkey := (hstep j e he).key
    rw [hv, Option.map_some, Option.map_eq_some_iff] at hkey
    obtain ⟨v', hv', -⟩ := hkey
    exact ⟨_, v', by rw [get?_update hf', he]; rfl, hv'⟩

/-- Changing only credits tightens nothing away. -/
theorem of_sameButCredits (h : w.SameButCredits w') : w.Tightens w' := by
  refine ⟨fun i e' he' => ?_, fun i e v he hv => ?_⟩
  · have hu := h.get? i
    rw [he', Option.map_some] at hu
    obtain ⟨e, he, hee⟩ := Option.map_eq_some_iff.1 hu.symm
    exact .inl ⟨e, he, .of_uncredited hee.symm⟩
  · obtain ⟨e', he', hu⟩ := h.get?_eq_some he
    obtain ⟨v', hv', -⟩ := Entity.player?_of_uncredited hu hv
    exact ⟨e', v', he', hv'⟩

/-- An added effect is neither a projectile nor a player, and the other entities stay. -/
theorem spawnEffect (pos : Vec2) (k : EffectKind) (d : Float32) (o : Option Nat) :
    w.Tightens (w.spawnEffect pos k d o).2 := by
  refine ⟨fun j e' he' => ?_, fun j e v he hv => ⟨e, v, get?_spawn_of_get? he, hv⟩⟩
  rw [World.spawnEffect, get?_spawn] at he'
  cases he : w.get? j with
  | some e =>
    rw [he, Option.some_or, Option.some.injEq] at he'
    exact .inl ⟨e, rfl, he' ▸ .refl e⟩
  | none =>
    rw [he, Option.none_or, List.find?_singleton] at he'
    split at he'
    · cases he'
      exact .inr ⟨rfl, rfl⟩
    · cases he'

/-- Removing entities that are no players tightens the world. -/
theorem removeAll {ids : List Nat} (hids : ∀ i ∈ ids, ∀ e, w.get? i = some e → e.player? = none) :
    w.Tightens (w.removeAll ids) := by
  refine ⟨fun j e' he' => ?_, fun j e v he hv => ?_⟩
  · have hj : j ∉ ids := by
      intro hj
      rw [removeAll_eq] at he'
      obtain ⟨hm, hid⟩ := get?_eq_some he'
      simp [hid, hj] at hm
    rw [get?_removeAll hj] at he'
    exact .inl ⟨e', he', .refl e'⟩
  · have hj : j ∉ ids := fun hj => by
      rw [hids j hj e he] at hv
      cases hv
    exact ⟨e, v, by rw [get?_removeAll hj, he], hv⟩

/-- A strike tightens the world: the projectile records the player, and the player, alive
before, is replaced by the same player hurt. -/
theorem strike (hw : w.Wf) {s : Strike} (hs : strike? w p t ff = some s) {v : Player}
    {killed : Bool} {cs : List Nat} (hh : s.hurt = .ok (v, killed, cs)) :
    w.Tightens ((w.update p (markHit t)).update t (placeVictim v killed)) := by
  obtain ⟨-, -, ht, hvic, halive, -⟩ := strike?_eq_some hs
  obtain ⟨-, -, hsame, -, -⟩ := Strike.hurt_spec hh
  have h₁ : w.Tightens (w.update p (markHit t)) := update (markHit_id t) fun e _ _ => .markHit t e
  refine h₁.trans (update (placeVictim_id v killed) fun e he hid => ?_)
  have hwf₁ : (w.update p (markHit t)).Wf :=
    (grows_update fun e _ _ => Entity.later_markHit t e).wf hw
  have hget : (w.update p (markHit t)).get? t = some e := hwf₁.get?_eq_some_iff.2 ⟨he, hid⟩
  rw [get?_update_ne (fun e h => (markHit_id t e).trans h) (strike?_ne hs).symm, ht,
    Option.some.injEq] at hget
  subst hget
  have hnq : (placeVictim v killed s.target).projectile? = none := by
    unfold placeVictim
    split <;> rfl
  refine ⟨placeVictim_position v killed _, fun q' hq' => ?_, ?_,
    fun _ _ _ => ⟨s.victim, hvic, halive⟩⟩
  · rw [hnq] at hq'
    cases hq'
  · rw [placeVictim_player?, hvic]
    simp [hsame.playerId, hsame.team]

/-- Every pair of a pass tightens the world. -/
theorem collidePair (hw : w.Wf) {out out' : CombatOutcome} {spent spent' : List Nat} {a b : Nat}
    (h : Skirmish.collidePair ff (out, spent, w) (a, b) = .ok (out', spent', w')) :
    w.Tightens w' := by
  rcases collidePair_hit h with ⟨-, -, rfl⟩ |
    ⟨p, t, s, x, v, killed, cs, -, -, hs, hh, -, -, -, -, -, -, hk⟩
  · exact .refl _
  · have h₁ := strike hw hs hh
    cases killed with
    | false =>
      rw [hk.2]
      exact h₁
    | true =>
      obtain ⟨k, w₂, -, -, -, hsame, rfl⟩ := hk
      exact h₁.trans ((of_sameButCredits hsame).trans (spawnEffect _ _ _ _))

end World.Tightens

/-! ## A pass settles its pairs -/

/-- At the pair of a projectile that can strike a player, in either order, a pass makes the
strike unless the projectile is spent. -/
theorem collidePair_of_strike? {s : Strike} {out out' : CombatOutcome} {spent spent' : List Nat}
    {a b : Nat} (h : collidePair ff (out, spent, w) (a, b) = .ok (out', spent', w'))
    (hpt : (p = a ∧ t = b) ∨ (p = b ∧ t = a)) (hs : strike? w p t ff = some s) :
    (p ∈ spent ∧ spent' = spent) ∨ ∃ x, tryHit w p t ff = .ok (some x, w') ∧
      spent' = if x.piercing then spent else spent ++ [p] := by
  obtain ⟨hgp, hq, hgt, hv, -⟩ := strike?_eq_some hs
  have hpty : (w.get? p).map Entity.type = some .projectile := by
    rw [hgp, Option.map_some, Entity.type_of_projectile? hq]
  have htty : (w.get? t).map Entity.type = some .player := by
    rw [hgt, Option.map_some, Entity.type_of_player? hv]
  unfold collidePair at h
  rcases hpt with ⟨rfl, rfl⟩ | ⟨rfl, rfl⟩ <;> simp only [hpty, htty] at h
  all_goals
    split at h
    · rename_i hc
      simp only [Except.pure_eq_ok, Prod.mk.injEq] at h
      exact .inl ⟨by simpa using hc, h.2.1.symm⟩
    · obtain ⟨⟨hit, w₁⟩, hh, h⟩ := Except.bind_eq_ok.1 h
      cases hit with
      | none =>
        rw [strike?_of_tryHit_none hh] at hs
        cases hs
      | some x =>
        simp only [Except.pure_eq_ok, Prod.mk.injEq] at h
        obtain ⟨-, rfl, rfl⟩ := h
        exact .inr ⟨x, hh, rfl⟩

/-- At the pair of a projectile and a player, in either order, a pass leaves the projectile spent
or the strike refused. -/
theorem collidePair_settles (hw : w.Wf) {out out' : CombatOutcome} {spent spent' : List Nat}
    {a b : Nat} (h : collidePair ff (out, spent, w) (a, b) = .ok (out', spent', w'))
    (hpt : (p = a ∧ t = b) ∨ (p = b ∧ t = a)) : p ∈ spent' ∨ strike? w' p t ff = none := by
  cases hs : strike? w p t ff with
  | none => exact .inr ((World.Tightens.collidePair hw h).strike?_eq_none hs)
  | some s =>
    rcases collidePair_of_strike? h hpt hs with ⟨hp, rfl⟩ | ⟨x, hx, rfl⟩
    · exact .inl hp
    · cases hpier : x.piercing with
      | false => exact .inl (by simp)
      | true =>
        -- a projectile that pierces now records the player, so it cannot strike it again
        right
        obtain ⟨-, -, _, -, -, -, -, q', hq', hrec⟩ := tryHit_records hw hx
        obtain ⟨e, he, heq⟩ := shot?_eq_some.1 hq'
        cases hs' : strike? w' p t ff with
        | none => rfl
        | some s' =>
          obtain ⟨hp', hq'', -, -, -, hfresh, -⟩ := strike?_eq_some hs'
          rw [hp', Option.some.injEq] at he
          subst he
          rw [hq'', Option.some.injEq] at heq
          subst heq
          simp [hrec] at hfresh

/-- The pairs `done` of a pass are settled in the world `wk`, with the projectiles `spent`: at
each of them a projectile, in either place, is spent or refused a strike on the other entity. -/
def PairsSettled (ff : Bool) (done : List (Nat × Nat)) (spent : List Nat) (wk : World) : Prop :=
  ∀ ab ∈ done, ∀ p t, ((p = ab.1 ∧ t = ab.2) ∨ (p = ab.2 ∧ t = ab.1)) →
    p ∈ spent ∨ strike? wk p t ff = none

/-- A pair of a pass only adds to the spent projectiles. -/
theorem subset_spent_collidePair {out out' : CombatOutcome} {spent spent' : List Nat}
    {ab : Nat × Nat} (h : collidePair ff (out, spent, w) ab = .ok (out', spent', w')) :
    spent ⊆ spent' := by
  obtain ⟨a, b⟩ := ab
  rcases collidePair_eq h with ⟨-, rfl, -⟩ | ⟨-, -, hit, -, -, -, -, rfl⟩
  · exact List.Subset.refl _
  · split
    · exact List.Subset.refl _
    · exact List.subset_append_left _ _

/-- One more pair of a pass keeps the pairs before it settled, and settles it. -/
theorem PairsSettled.collidePair (hw : w.Wf) {done : List (Nat × Nat)} {out out' : CombatOutcome}
    {spent spent' : List Nat} {a b : Nat} (hset : PairsSettled ff done spent w)
    (h : collidePair ff (out, spent, w) (a, b) = .ok (out', spent', w')) :
    PairsSettled ff (done ++ [(a, b)]) spent' w' := by
  intro ab hab p t hpt
  rcases List.mem_append.1 hab with hab | hab
  · rcases hset ab hab p t hpt with hp | hs
    · exact .inl (subset_spent_collidePair h hp)
    · exact .inr ((World.Tightens.collidePair hw h).strike?_eq_none hs)
  · rw [List.mem_singleton.1 hab] at hpt
    exact collidePair_settles hw h hpt

/-- A fold over pairs settles them all, and only tightens the world. -/
theorem PairsSettled.foldlM (pairs : List (Nat × Nat)) :
    ∀ {done : List (Nat × Nat)} {out out' : CombatOutcome} {spent spent' : List Nat}
      {w w' : World}, w.Wf → PairsSettled ff done spent w →
      pairs.foldlM (Skirmish.collidePair ff) (out, spent, w) = .ok (out', spent', w') →
      PairsSettled ff (done ++ pairs) spent' w' ∧ w.Tightens w' := by
  induction pairs with
  | nil =>
    intro done out out' spent spent' w w' _ hset h
    simp only [List.foldlM_nil, Except.pure_eq_ok, Prod.mk.injEq] at h
    obtain ⟨-, rfl, rfl⟩ := h
    exact ⟨by simpa using hset, .refl _⟩
  | cons ab rest ih =>
    intro done out out' spent spent' w w' hw hset h
    rw [List.foldlM_cons, Except.bind_eq_ok] at h
    obtain ⟨⟨out₁, spent₁, w₁⟩, h₁, h⟩ := h
    obtain ⟨a, b⟩ := ab
    have hset₁ := hset.collidePair hw h₁
    obtain ⟨hset', ht'⟩ := ih ((grows_collidePair hw h₁).wf hw) hset₁ h
    exact ⟨by simpa using hset', (World.Tightens.collidePair hw h₁).trans ht'⟩

/-! ## A second pass -/

/-- A pair whose strikes are all refused changes nothing. -/
theorem collidePair_quiet {out : CombatOutcome} {spent : List Nat} {a b : Nat}
    (h : ∀ p t, ((p = a ∧ t = b) ∨ (p = b ∧ t = a)) → strike? w p t ff = none) :
    collidePair ff (out, spent, w) (a, b) = .ok (out, spent, w) := by
  unfold collidePair
  simp only
  split
  · rfl
  · rename_i pr pl hpair
    have hab : (pr = a ∧ pl = b) ∨ (pr = b ∧ pl = a) := by
      split at hpair <;> simp_all
    split
    · rfl
    · rw [tryHit_of_strike?_none (h pr pl hab)]
      rfl

/-- A fold over pairs whose strikes are all refused changes nothing. -/
theorem foldlM_collidePair_quiet {pairs : List (Nat × Nat)}
    (h : ∀ ab ∈ pairs, ∀ p t, ((p = ab.1 ∧ t = ab.2) ∨ (p = ab.2 ∧ t = ab.1)) →
      strike? w p t ff = none) (out : CombatOutcome) (spent : List Nat) :
    pairs.foldlM (collidePair ff) (out, spent, w) = .ok (out, spent, w) := by
  induction pairs with
  | nil => rfl
  | cons ab rest ih =>
    obtain ⟨a, b⟩ := ab
    rw [List.foldlM_cons, collidePair_quiet (h (a, b) List.mem_cons_self)]
    exact ih fun ab hab => h ab (List.mem_cons_of_mem _ hab)

/-- A strike allowed in a world tightened from `w` is between a projectile and a player that
`w` has. -/
theorem World.Tightens.mem_ids_of_strike? (h : w.Tightens w') {s : Strike}
    (hs : strike? w' p t ff = some s) : p ∈ w.ids ∧ t ∈ w.ids := by
  obtain ⟨hgp, hq, hgt, hv, -⟩ := strike?_eq_some hs
  have hin : ∀ i e, w'.get? i = some e → ¬(e.projectile? = none ∧ e.player? = none) →
      i ∈ w.ids := by
    intro i e he hact
    obtain ⟨e₀, he₀, -⟩ := h.get?_of_active he hact
    obtain ⟨hm, rfl⟩ := get?_eq_some he₀
    exact List.mem_map_of_mem hm
  exact ⟨hin p _ hgp (by simp [hq]), hin t _ hgt (by simp [hv])⟩

/-- A removed projectile strikes nothing. -/
theorem strike?_removeAll_of_mem {spent : List Nat} (hp : p ∈ spent) :
    strike? (w.removeAll spent) p t ff = none := by
  cases hs : strike? (w.removeAll spent) p t ff with
  | none => rfl
  | some s =>
    obtain ⟨hgp, -⟩ := strike?_eq_some hs
    obtain ⟨hm, hid⟩ := get?_eq_some hgp
    have hpid : p ∈ (w.removeAll spent).ids := hid ▸ List.mem_map_of_mem hm
    simp [ids_removeAll, hp] at hpid

/-- One collision pass from a well-formed world makes every hit that the positions allow: a
second pass on the world it leaves hits nothing, kills nothing and leaves the world as it is. -/
theorem resolveCollisions_idempotent (hw : w.Wf) (ff : Bool) {out : CombatOutcome}
    (h : resolveCollisions w ff = .ok (out, w')) :
    resolveCollisions w' ff = .ok (⟨[], []⟩, w') := by
  obtain ⟨spent, wk, hf, rfl⟩ := resolveCollisions_eq h
  obtain ⟨hset, htk⟩ := PairsSettled.foldlM (orderedPairs w.ids) hw
    (fun _ hab => absurd hab List.not_mem_nil) hf
  have hrem : wk.Tightens (wk.removeAll spent) := by
    refine World.Tightens.removeAll fun i hi e he => ?_
    obtain ⟨hm, hid⟩ := get?_eq_some he
    exact (PassInv.of_fold hw hf).not_player hw e hm (hid ▸ hi)
  have hw' : (wk.removeAll spent).Wf := (ages_resolveCollisions hw h).wf hw
  have hquiet : ∀ ab ∈ orderedPairs ((wk.removeAll spent).entities.map (·.id)), ∀ p t,
      ((p = ab.1 ∧ t = ab.2) ∨ (p = ab.2 ∧ t = ab.1)) →
      strike? (wk.removeAll spent) p t ff = none := by
    rintro ⟨a, b⟩ hab p t hpt
    cases hs : strike? (wk.removeAll spent) p t ff with
    | none => rfl
    | some s =>
      -- the projectile and the player were there when the first pass started, so it settled
      -- their pair
      obtain ⟨hp, ht⟩ := (htk.trans hrem).mem_ids_of_strike? hs
      have hlt := ((mem_orderedPairs hw'.sorted).1 hab).2.2
      have hab₀ : (a, b) ∈ orderedPairs w.ids := by
        rcases hpt with ⟨rfl, rfl⟩ | ⟨rfl, rfl⟩
        · exact (mem_orderedPairs hw.sorted).2 ⟨hp, ht, hlt⟩
        · exact (mem_orderedPairs hw.sorted).2 ⟨ht, hp, hlt⟩
      rcases hset (a, b) (by simpa using hab₀) p t hpt with hsp | hnone
      · rw [strike?_removeAll_of_mem hsp] at hs
        cases hs
      · rw [hrem.strike?_eq_none hnone] at hs
        cases hs
  unfold resolveCollisions
  dsimp only
  rw [foldlM_collidePair_quiet hquiet]
  rfl

/-- A projectile strikes a player standing on it, and a second pass finds nothing left to do. -/
theorem resolveCollisions_idempotent_hit :
    let w : World :=
      ⟨[⟨1, Vec2.zero, 0, Vec2.zero, .player (Player.fresh 1 1 .red 100)⟩,
        ⟨2, Vec2.zero, 0, Vec2.zero, .projectile ⟨3, 0, 10, 1, false, []⟩⟩,
        ⟨3, ⟨500, 500⟩, 0, Vec2.zero, .player (Player.fresh 2 1 .blue 100)⟩],
        [(1, 0), (2, 0)], [], 4, .ofSeed 0, MapBounds.forMap 0⟩
    w.Wf ∧ ∃ out w', resolveCollisions w false = .ok (out, w') ∧ out.hits.length = 1 ∧
      resolveCollisions w' false = .ok (⟨[], []⟩, w') := by
  intro w
  have hw : w.Wf := ⟨by simp only [w]; decide, by simp only [w]; decide⟩
  exact ⟨hw, _, _, rfl, rfl, resolveCollisions_idempotent hw false rfl⟩

end Skirmish
