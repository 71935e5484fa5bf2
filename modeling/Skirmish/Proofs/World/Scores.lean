import Mathlib
import Skirmish.Game.Frame
import Skirmish.Proofs.Combat.Hits

/-!
# Scores, kills and tallies

A point is scored only with a kill: a collision pass credits each kill to the owner's entity and a
point to the owner's player at once, and a player who leaves a started game keeps its kills in its
departed record. The score law `World.ScoreLaw` says that each player id's score is the kills of
its present entities plus those of its departed record. `World.Credits` is play that keeps the
departed records and the score law; a tick, a skill and a whole collision pass are such play
(`credits_advance`, `credits_useSkill`, `credits_resolveCollisions`).

The tallies of a world are those of its present players and departed records, best first: by
score, then by player id (`tallies_perm`, `tallies_sorted`).
-/

namespace Skirmish

/-! ## The kills an entity counts -/

/-- A player entity's player id and kills. -/
def Entity.kills? (e : Entity) : Option (Int × Nat) := e.player?.map fun p => (p.playerId, p.kills)

/-- The kills an entity counts for a player id: its kills if it is a player of that id. -/
def Entity.killsFor (pid : Int) (e : Entity) : Nat :=
  match e.kills? with
  | some (q, k) => if q = pid then k else 0
  | none => 0

namespace Entity

variable {e e' : Entity}

theorem killsFor_congr (h : e'.kills? = e.kills?) (pid : Int) :
    e'.killsFor pid = e.killsFor pid := by
  unfold killsFor
  rw [h]

theorem killsFor_eq_zero (h : e.player? = none) (pid : Int) : e.killsFor pid = 0 := by
  simp [killsFor, kills?, h]

theorem killsFor_of_player? {p : Player} (h : e.player? = some p) (pid : Int) :
    e.killsFor pid = if p.playerId = pid then p.kills else 0 := by
  simp [killsFor, kills?, h]

theorem kills?_of_kind_eq (h : e'.kind = e.kind) : e'.kills? = e.kills? := by
  simp [kills?, player?, h]

theorem player?_mapPlayer (f : Player → Player) {p : Player} (h : e.player? = some p) :
    (e.mapPlayer f).player? = some (f p) := by
  rcases e with ⟨id, pos, rot, vel, k⟩
  cases k <;> simp_all [mapPlayer, player?]

/-- Changing a player's data keeps its kills when the change keeps its id and kills. -/
theorem kills?_mapPlayer {f : Player → Player}
    (hf : ∀ p, (f p).playerId = p.playerId ∧ (f p).kills = p.kills) (e : Entity) :
    (e.mapPlayer f).kills? = e.kills? := by
  rcases e with ⟨id, pos, rot, vel, k⟩
  cases k with
  | player p => simp [mapPlayer, kills?, player?, hf p]
  | projectile _ | effect _ => rfl

theorem player?_markHit (t : Nat) (e : Entity) : (markHit t e).player? = e.player? := by
  rcases e with ⟨id, pos, rot, vel, k⟩
  cases k <;> rfl

theorem kills?_markHit (t : Nat) (e : Entity) : (markHit t e).kills? = e.kills? := by
  simp [kills?, player?_markHit]

theorem kills?_advanceEntity (dt : Float32) (b : MapBounds) (g : Random.ChaCha8) (e : Entity) :
    (World.advanceEntity dt b g e).1.kills? = e.kills? := by
  rcases e with ⟨id, pos, rot, vel, kind⟩
  cases kind with
  | player p =>
    simp only [World.advanceEntity]
    split_ifs <;> rfl
  | projectile q => rfl
  | effect f => rfl

end Entity

theorem addU32_eq_ok {a b n : Nat} (h : addU32 a b = .ok n) : n = a + b := by
  unfold addU32 at h
  split at h
  · exact (Except.pure_eq_ok.1 h).symm
  · cases h

/-- In a list of entities with distinct ids, changing the entity `e₀` changes the sum of `g` as
it changes `g e₀`. -/
theorem sum_map_update {es : List Entity} (hn : (es.map (·.id)).Nodup) {e₀ : Entity}
    (he₀ : e₀ ∈ es) (f : Entity → Entity) (g : Entity → Nat) :
    ((es.map fun e => if e.id = e₀.id then f e else e).map g).sum + g e₀ =
      (es.map g).sum + g (f e₀) := by
  induction es with
  | nil => cases he₀
  | cons e rest ih =>
    rw [List.map_cons, List.nodup_cons] at hn
    obtain ⟨hnot, hn⟩ := hn
    rcases List.mem_cons.1 he₀ with rfl | he₀
    · have hrest : (rest.map fun e => if e.id = e₀.id then f e else e) = rest := by
        conv_rhs => rw [← List.map_id rest]
        refine List.map_congr_left fun x hx => if_neg fun h => hnot ?_
        rw [← h]
        exact List.mem_map_of_mem hx
      simp only [List.map_cons, List.sum_cons, if_pos, hrest]
      omega
    · have hne : e.id ≠ e₀.id := fun h => hnot (h ▸ List.mem_map_of_mem he₀)
      have := ih hn he₀
      simp only [List.map_cons, List.sum_cons, if_neg hne]
      omega

/-- In a list of entities with distinct ids, dropping the entity `e₀` takes `g e₀` from the sum
of `g`. -/
theorem sum_map_filter_ne {es : List Entity} (hn : (es.map (·.id)).Nodup) {e₀ : Entity}
    (he₀ : e₀ ∈ es) (g : Entity → Nat) :
    ((es.filter (·.id != e₀.id)).map g).sum + g e₀ = (es.map g).sum := by
  induction es with
  | nil => cases he₀
  | cons e rest ih =>
    rw [List.map_cons, List.nodup_cons] at hn
    obtain ⟨hnot, hn⟩ := hn
    rcases List.mem_cons.1 he₀ with rfl | he₀
    · have hrest : rest.filter (·.id != e₀.id) = rest := by
        refine List.filter_eq_self.2 fun x hx => bne_iff_ne.2 fun h => hnot ?_
        rw [← h]
        exact List.mem_map_of_mem hx
      simp only [List.filter_cons, bne_self_eq_false, Bool.false_eq_true, if_false, hrest,
        List.map_cons, List.sum_cons]
      omega
    · have hne : e.id ≠ e₀.id := fun h => hnot (h ▸ List.mem_map_of_mem he₀)
      have := ih hn he₀
      simp only [List.filter_cons, bne_iff_ne.2 hne, if_true, List.map_cons, List.sum_cons]
      omega

/-- Dropping entities that count nothing keeps a sum. -/
theorem sum_map_filter {es : List Entity} {keep : Entity → Bool} {g : Entity → Nat}
    (h : ∀ e ∈ es, keep e = false → g e = 0) : ((es.filter keep).map g).sum = (es.map g).sum := by
  induction es with
  | nil => rfl
  | cons e rest ih =>
    have ih := ih fun e' he' => h e' (List.mem_cons_of_mem e he')
    cases he : keep e with
    | true => simp [List.filter_cons_of_pos he, ih]
    | false => simp [he, ih, h e List.mem_cons_self he]

/-! ## Finding a score and a departed record -/

theorem find?_setSorted {β : Type} (k : Int) (v : β) (l : List (Int × β)) (j : Int) :
    (setSorted k v l).find? (·.1 == j) = if k = j then some (k, v) else l.find? (·.1 == j) := by
  induction l with
  | nil => by_cases h : k = j <;> simp [setSorted, h]
  | cons x rest ih =>
    obtain ⟨k', v'⟩ := x
    unfold setSorted
    by_cases h₁ : k = k'
    · subst h₁
      rw [if_pos rfl]
      by_cases h : k = j <;> simp [h]
    · rw [if_neg h₁]
      by_cases h₂ : k < k'
      · rw [if_pos h₂]
        by_cases h : k = j <;> simp [h]
      · rw [if_neg h₂, List.find?_cons, List.find?_cons, ih]
        by_cases h : k = j
        · subst h
          have : (k' == k) = false := by simpa using Ne.symm h₁
          simp [this]
        · simp [h]

theorem find?_setDeparted (p : Player) (l : List Player) (j : Int) :
    (setDeparted p l).find? (·.playerId == j) =
      if p.playerId = j then some p else l.find? (·.playerId == j) := by
  induction l with
  | nil => by_cases h : p.playerId = j <;> simp [setDeparted, h]
  | cons q rest ih =>
    unfold setDeparted
    by_cases h₁ : p.playerId = q.playerId
    · rw [if_pos h₁]
      by_cases h : p.playerId = j
      · simp [h]
      · have : (q.playerId == j) = false := by simpa [← h₁] using h
        simp [h, this]
    · rw [if_neg h₁]
      by_cases h₂ : p.playerId < q.playerId
      · rw [if_pos h₂]
        by_cases h : p.playerId = j <;> simp [h]
      · rw [if_neg h₂, List.find?_cons, List.find?_cons, ih]
        by_cases h : p.playerId = j
        · have : (q.playerId == j) = false := by simpa [← h] using Ne.symm h₁
          simp [h, this]
        · simp [h]

theorem mem_setDeparted {p q : Player} {l : List Player} (h : q ∈ setDeparted p l) :
    q = p ∨ q ∈ l := by
  induction l with
  | nil => simpa [setDeparted] using h
  | cons r rest ih =>
    unfold setDeparted at h
    split_ifs at h
    · rcases List.mem_cons.1 h with h | h
      · exact .inl h
      · exact .inr (List.mem_cons_of_mem _ h)
    · simpa using h
    · rcases List.mem_cons.1 h with h | h
      · exact .inr (h ▸ List.mem_cons_self)
      · exact (ih h).imp id (List.mem_cons_of_mem _)

/-- A record for a player without one goes among the others. -/
theorem setDeparted_perm {p : Player} {l : List Player} (h : p.playerId ∉ l.map (·.playerId)) :
    (setDeparted p l).Perm (p :: l) := by
  induction l with
  | nil => simp [setDeparted]
  | cons q rest ih =>
    simp only [List.map_cons, List.mem_cons, not_or] at h
    unfold setDeparted
    rw [if_neg h.1]
    split
    · exact .refl _
    · exact ((ih h.2).cons q).trans (.swap p q rest)

namespace World

variable {w w' w'' : World}

theorem scoreOf_of_setSorted {k : Int} {v : Nat} (h : w'.scores = setSorted k v w.scores)
    (j : Int) : w'.scoreOf j = if j = k then v else w.scoreOf j := by
  unfold scoreOf
  rw [h, find?_setSorted]
  by_cases hj : j = k
  · subst hj
    simp
  · simp [Ne.symm hj, hj]

theorem find?_filter_ne {β : Type} (l : List (Int × β)) (k j : Int) :
    (l.filter (·.1 != k)).find? (·.1 == j) = if j = k then none else l.find? (·.1 == j) := by
  induction l with
  | nil => simp
  | cons x rest ih =>
    by_cases hx : x.1 = k
    · have hx' : (x.1 != k) = false := by simpa using hx
      rw [List.filter_cons, hx', if_neg Bool.false_ne_true, ih, List.find?_cons]
      by_cases hj : j = k
      · simp [hj]
      · have : (x.1 == j) = false := by simpa [hx] using Ne.symm hj
        simp [hj, this]
    · have hx' : (x.1 != k) = true := by simpa using hx
      rw [List.filter_cons, hx', if_pos rfl, List.find?_cons, List.find?_cons, ih]
      by_cases hj : j = k
      · have : (x.1 == j) = false := by simpa [hj] using hx
        simp only [this]
      · simp [hj]

theorem scoreOf_of_filter {k : Int} (h : w'.scores = w.scores.filter (·.1 != k)) (j : Int) :
    w'.scoreOf j = if j = k then 0 else w.scoreOf j := by
  unfold scoreOf
  rw [h, find?_filter_ne]
  split <;> rfl

theorem scoreOf_eq_zero {k : Int} (h : w.hasScore k = false) : w.scoreOf k = 0 := by
  have hnone : w.scores.find? (·.1 == k) = none := by
    rw [List.find?_eq_none]
    intro x hx hk
    have : w.hasScore k = true := List.any_eq_true.2 ⟨x, hx, hk⟩
    rw [h] at this
    cases this
  simp [scoreOf, hnone]

/-- Seating a player leaves every score as it was: a new score opens at `0`. -/
theorem scoreOf_spawnPlayer (p : Player) (j : Int) : (w.spawnPlayer p).2.scoreOf j = w.scoreOf j := by
  have hsc : (w.spawnPlayer p).2.scores =
      if w.hasScore p.playerId then w.scores else setSorted p.playerId 0 w.scores := by
    rw [spawnPlayer_eq]
  by_cases h : w.hasScore p.playerId
  · rw [if_pos h] at hsc
    simp [scoreOf, hsc]
  · rw [if_neg h] at hsc
    rw [scoreOf_of_setSorted hsc]
    split
    · subst_vars
      exact (scoreOf_eq_zero (by simpa using h)).symm
    · rfl

theorem scoreOf_addScore {pid : Int} {n s : Nat} (h : w.addScore pid n = .ok (s, w')) (j : Int) :
    w'.scoreOf j = if j = pid then w.scoreOf pid + n else w.scoreOf j := by
  obtain ⟨hs, rfl⟩ := addScore_eq_ok.1 h
  have hsc : ({ w with scores := setSorted pid s w.scores } : World).scores =
      setSorted pid s w.scores := rfl
  rw [scoreOf_of_setSorted hsc, addU32_eq_ok hs]

/-! ## The score law -/

/-- The kills of the present entities of a player id. -/
def presentKills (w : World) (pid : Int) : Nat := (w.entities.map (Entity.killsFor pid)).sum

/-- The kills of the departed record of a player id, `0` without one. -/
def departedKills (w : World) (pid : Int) : Nat :=
  ((w.departed.find? (·.playerId == pid)).map (·.kills)).getD 0

/-- Every player's score is the kills of its present entities plus those of its departed record. -/
def ScoreLaw (w : World) : Prop :=
  ∀ pid, w.scoreOf pid = w.presentKills pid + w.departedKills pid

theorem departedKills_of_setDeparted {p : Player} (h : w'.departed = setDeparted p w.departed)
    (j : Int) : w'.departedKills j = if p.playerId = j then p.kills else w.departedKills j := by
  unfold departedKills
  rw [h, find?_setDeparted]
  split <;> rfl

/-- A player id without a departed record has none of its kills there. -/
theorem departedKills_eq_zero (h : ∀ p ∈ w.departed, p.playerId ≠ k) : w.departedKills k = 0 := by
  unfold departedKills
  rw [List.find?_eq_none.2 fun p hp hk => h p hp (by simpa using hk)]
  rfl

/-- A player id without present entities has none of its kills there. -/
theorem presentKills_eq_zero (h : ∀ ep ∈ w.players, ep.2.playerId ≠ k) : w.presentKills k = 0 := by
  unfold presentKills
  refine List.sum_eq_zero_iff_forall_eq_nat.2 fun n hn => ?_
  obtain ⟨e, he, rfl⟩ := List.mem_map.1 hn
  cases hp : e.player? with
  | none => exact Entity.killsFor_eq_zero hp k
  | some p =>
    rw [Entity.killsFor_of_player? hp, if_neg]
    exact h (e, p) (List.mem_filterMap.2 ⟨e, he, by simp [hp]⟩)

theorem presentKills_update {i : Nat} {f : Entity → Entity}
    (hf : ∀ e ∈ w.entities, e.id = i → (f e).kills? = e.kills?) (pid : Int) :
    (w.update i f).presentKills pid = w.presentKills pid := by
  unfold presentKills update
  rw [List.map_map]
  congr 1
  refine List.map_congr_left fun e he => ?_
  simp only [Function.comp_apply]
  split
  · exact Entity.killsFor_congr (hf e he ‹_›) pid
  · rfl

/-- A kill credited to a player entity counts once more for its player id. -/
theorem presentKills_creditKill (hw : w.Wf) {o : Nat} {q : Player}
    (hq : (w.get? o).bind Entity.player? = some q) (pid : Int) :
    (w.update o (Entity.mapPlayer fun p => { p with kills := q.kills + 1 })).presentKills pid =
      w.presentKills pid + if q.playerId = pid then 1 else 0 := by
  obtain ⟨e₀, hget, hp⟩ := Option.bind_eq_some_iff.1 hq
  obtain ⟨he₀, rfl⟩ := get?_eq_some hget
  have hsum := sum_map_update (hw.sorted.imp Nat.ne_of_lt) he₀
    (Entity.mapPlayer fun p => { p with kills := q.kills + 1 }) (Entity.killsFor pid)
  rw [Entity.killsFor_of_player? hp, Entity.killsFor_of_player? (Entity.player?_mapPlayer _ hp)]
    at hsum
  unfold presentKills update
  by_cases hpq : q.playerId = pid <;> simp [hpq] at hsum ⊢ <;> omega

theorem presentKills_spawn (p : Vec2) (k : EntityKind) (hk : ∀ pl, k ≠ .player pl) (pid : Int) :
    (w.spawn p k).2.presentKills pid = w.presentKills pid := by
  have : (Entity.fresh w.nextEntityId p k).killsFor pid = 0 := by
    refine Entity.killsFor_eq_zero ?_ pid
    cases k with
    | player pl => exact absurd rfl (hk pl)
    | projectile _ | effect _ => rfl
  simp [presentKills, spawn, this]

/-- Removing an entity takes away the kills it counts. -/
theorem presentKills_remove (hw : w.Wf) {i : Nat} {e : Entity} (he : w.get? i = some e)
    (pid : Int) : (w.remove i).2.presentKills pid + e.killsFor pid = w.presentKills pid := by
  obtain ⟨hmem, rfl⟩ := get?_eq_some he
  exact sum_map_filter_ne (hw.sorted.imp Nat.ne_of_lt) hmem _

/-! ## Play that credits kills fairly -/

/-- Play from `w` to `w'` keeps the departed records, and keeps the score law whenever it held. -/
structure Credits (w w' : World) : Prop where
  departed : w'.departed = w.departed
  law : w.ScoreLaw → w'.ScoreLaw

namespace Credits

theorem refl (w : World) : Credits w w := ⟨rfl, id⟩

theorem trans (h : Credits w w') (h' : Credits w' w'') : Credits w w'' :=
  ⟨h'.departed.trans h.departed, h'.law ∘ h.law⟩

/-- Play that changes no kills, no scores and no departed records. -/
theorem of_kills (hk : ∀ pid, w'.presentKills pid = w.presentKills pid)
    (hs : w'.scores = w.scores) (hd : w'.departed = w.departed) : Credits w w' := by
  refine ⟨hd, fun hl pid => ?_⟩
  have hscore : w'.scoreOf pid = w.scoreOf pid := by simp [scoreOf, hs]
  have hdep : w'.departedKills pid = w.departedKills pid := by simp [departedKills, hd]
  rw [hscore, hk, hdep]
  exact hl pid

/-- A fold whose every step credits fairly does. -/
theorem foldl {α β : Type} (f : β → α → β) (world : β → World)
    (hf : ∀ b a, Credits (world b) (world (f b a))) :
    ∀ (xs : List α) (b : β), Credits (world b) (world (xs.foldl f b))
  | [], _ => .refl _
  | a :: xs, b => (hf b a).trans (Credits.foldl f world hf xs (f b a))

end Credits

theorem credits_update {i : Nat} {f : Entity → Entity}
    (hf : ∀ e ∈ w.entities, e.id = i → (f e).kills? = e.kills?) : Credits w (w.update i f) :=
  .of_kills (presentKills_update hf) rfl rfl

theorem credits_spawn (p : Vec2) (k : EntityKind) (hk : ∀ pl, k ≠ .player pl) :
    Credits w (w.spawn p k).2 :=
  .of_kills (presentKills_spawn p k hk) rfl rfl

theorem credits_spawnEffect (p : Vec2) (k : EffectKind) (d : Float32) (o : Option Nat) :
    Credits w (w.spawnEffect p k d o).2 :=
  credits_spawn p (.effect ⟨k, d, o⟩) fun _ => nofun

/-! ## A tick and a skill -/

theorem credits_respawnEffects : ∀ (w : World) (ids : List Nat), Credits w (w.respawnEffects ids)
  | w, [] => .refl w
  | w, i :: rest => by
    unfold respawnEffects
    split
    · exact (credits_spawnEffect _ _ _ _).trans (credits_respawnEffects _ rest)
    · exact credits_respawnEffects w rest

/-- A tick changes no kills: every entity keeps its kills, and only entities that are no players
expire. -/
theorem credits_advance (hw : w.Wf) (dt : Float32) : Credits w (w.advance dt).2 := by
  have hkills : ∀ (g : Random.ChaCha8) (es : List Entity) (pid : Int),
      ((advanceAll dt w.bounds g es).1.map (Entity.killsFor pid)).sum =
        (es.map (Entity.killsFor pid)).sum := by
    intro g es pid
    induction es generalizing g with
    | nil => rfl
    | cons e rest ih =>
      simp only [advanceAll, List.map_cons, List.sum_cons, ih,
        Entity.killsFor_congr (Entity.kills?_advanceEntity dt w.bounds g e)]
  have hmoved : Credits w { w with
      entities := (advanceAll dt w.bounds w.rng w.entities).1.filter
        (fun e => !(advanceAll dt w.bounds w.rng w.entities).2.2.1.contains e.id),
      rng := (advanceAll dt w.bounds w.rng w.entities).2.2.2 } := by
    refine .of_kills (fun pid => ?_) rfl rfl
    unfold presentKills
    rw [sum_map_filter, hkills]
    intro e he hexp
    exact Entity.killsFor_eq_zero (player?_of_expired hw dt he (by simpa using hexp)) pid
  unfold advance
  exact hmoved.trans (credits_respawnEffects _ _)

/-- A skill spawns projectiles and starts a cooldown, crediting nothing. -/
theorem credits_useSkill (caster skill : Nat) (target : Vec2) :
    Credits w (useSkill w caster skill target).2 := by
  unfold useSkill
  split
  · split
    · split
      · exact .refl _
      · refine (Credits.foldl _ Prod.snd (fun acc _ => ?_) _ ([], w)).trans
          (credits_update fun e _ _ => Entity.kills?_mapPlayer (fun _ => by exact ⟨rfl, rfl⟩) e)
        exact (credits_spawn _ (.projectile _) fun _ => nofun).trans
          (credits_update fun _ _ _ => Entity.kills?_of_kind_eq rfl)
    · exact .refl _
  · exact .refl _

/-! ## A collision pass -/

/-- Crediting the owner of a kill: when the owner is present, its entity gets the kill and its
player the point, so the score law carries over. -/
theorem credits_creditOwner (hw : w.Wf) {owner : Option (Int × Team)} {o : Nat}
    {killer : Option Int}
    (howner : owner = ((w.get? o).bind Entity.player?).map fun q => (q.playerId, q.team))
    (h : creditOwner w owner o = .ok (killer, w')) : Credits w w' := by
  cases owner with
  | none => exact (creditOwner_none h).2 ▸ .refl _
  | some ot =>
    obtain ⟨-, w₀, sc, hk, hs⟩ := creditOwner_some h
    obtain ⟨q, hq, hot⟩ := Option.map_eq_some_iff.1 howner.symm
    rcases hk with ⟨q', n, hq', hn, hw₀⟩ | ⟨hnone, -⟩
    · rw [hq, Option.some.injEq] at hq'
      subst hq'
      obtain rfl := addU32_eq_ok hn
      obtain rfl := hot
      have hkills : ∀ j, w₀.presentKills j = w.presentKills j + if q.playerId = j then 1 else 0 := by
        rw [hw₀]
        exact presentKills_creditKill hw hq
      have hscore : ∀ j, w₀.scoreOf j = w.scoreOf j := by
        rw [hw₀]
        exact fun _ => rfl
      have hdep : w₀.departed = w.departed := by rw [hw₀]; rfl
      obtain ⟨-, rfl⟩ := addScore_eq_ok.1 hs
      refine ⟨hdep, fun hl j => ?_⟩
      have hpoint := scoreOf_addScore hs j
      dsimp only at hpoint
      have hdk : w₀.departedKills j = w.departedKills j := by simp [departedKills, hdep]
      rw [hpoint, hscore, hscore]
      change _ = w₀.presentKills j + w₀.departedKills j
      rw [hkills, hdk]
      by_cases hj : j = q.playerId
      · subst hj
        rw [if_pos rfl, if_pos rfl, hl]
        omega
      · rw [if_neg hj, if_neg (Ne.symm hj), hl]
        rfl
    · rw [hq] at hnone
      cases hnone

/-- The entity under an id other than a strike's target is found as before the strike, as a
player or not. -/
theorem player?_strike {p t : Nat} (v : Player) (killed : Bool) {o : Nat} (ho : o ≠ t) :
    (((w.update p (markHit t)).update t (placeVictim v killed)).get? o).bind Entity.player? =
      (w.get? o).bind Entity.player? := by
  rw [get?_update_ne (fun e h => (placeVictim_id v killed e).trans h) ho,
    get?_update fun e h => (markHit_id t e).trans h]
  cases w.get? o with
  | none => rfl
  | some e =>
    simp only [Option.map_some, Option.bind_some]
    split
    · exact Entity.player?_markHit t e
    · rfl

/-- A strike records the target on the projectile and puts the victim, with its kills, in the
target's place. -/
theorem credits_strike {p t : Nat} {ff : Bool} {s : Strike} (hw : w.Wf)
    (hs : strike? w p t ff = some s) {v : Player} (hv : v.playerId = s.victim.playerId ∧
      v.kills = s.victim.kills) (killed : Bool) :
    Credits w ((w.update p (markHit t)).update t (placeVictim v killed)) := by
  obtain ⟨-, -, ht, hvic, -⟩ := strike?_eq_some hs
  have g₁ : Grows w (w.update p (markHit t)) := grows_update fun e _ _ => Entity.later_markHit t e
  refine (credits_update fun e _ _ => Entity.kills?_markHit t e).trans
    (credits_update fun e he hid => ?_)
  have hget : (w.update p (markHit t)).get? t = some e := (g₁.wf hw).get?_eq_some_iff.2 ⟨he, hid⟩
  rw [get?_update_ne (fun e h => (markHit_id t e).trans h) (strike?_ne hs).symm, ht,
    Option.some.injEq] at hget
  subst hget
  simp [Entity.kills?, hvic, hv.1, hv.2]

theorem credits_creditKill (hw : w.Wf) {owner : Option (Int × Team)} {o : Nat} {victim : Int}
    {cs : List Nat} {pos : Vec2} {k : KillRecord}
    (howner : owner = ((w.get? o).bind Entity.player?).map fun q => (q.playerId, q.team))
    (h : creditKill w owner o victim cs pos = .ok (k, w')) : Credits w w' := by
  obtain ⟨_, w₁, _, w₂, h₁, h₂, rfl, -⟩ := creditKill_eq h
  have c₂ : Credits w w₂ :=
    creditAssists_induction (Credits w) (fun _ _ _ hc => hc.trans
      (credits_update fun e _ _ => Entity.kills?_mapPlayer (fun _ => by exact ⟨rfl, rfl⟩) e))
      h₂ (credits_creditOwner hw howner h₁)
  exact c₂.trans (credits_spawnEffect _ _ _ _)

theorem credits_tryHit {p t : Nat} {ff : Bool} (hw : w.Wf) {hit : Option AppliedHit}
    (h : tryHit w p t ff = .ok (hit, w')) : Credits w w' := by
  cases hit with
  | none => exact tryHit_none h ▸ .refl _
  | some a =>
    obtain ⟨s, hs, ha⟩ := tryHit_some h
    obtain ⟨v, killed, cs, hh, -, -, -, -, hk⟩ := applyStrike_eq ha
    obtain ⟨_, _, _, _, _, hv, -⟩ := Strike.hurt_eq hh
    have c : Credits w ((w.update p (markHit t)).update t (placeVictim v killed)) :=
      credits_strike hw hs (by rw [hv]; exact ⟨rfl, rfl⟩) killed
    cases killed with
    | false => exact hk.2 ▸ c
    | true =>
      obtain ⟨k, -, hk⟩ := hk
      obtain ⟨-, -, -, -, -, -, hown, howner, -⟩ := strike?_eq_some hs
      have g := grows_strike hw hs v (by rw [hv]; exact ⟨rfl, rfl, rfl⟩) true
      refine c.trans (credits_creditKill (g.wf hw) ?_ hk)
      rw [howner, player?_strike v true hown]

theorem credits_collidePair {ff : Bool} (hw : w.Wf) {out out' : CombatOutcome}
    {spent spent' : List Nat} {ab : Nat × Nat}
    (h : collidePair ff (out, spent, w) ab = .ok (out', spent', w')) : Credits w w' := by
  rcases collidePair_eq h with ⟨-, -, rfl⟩ | ⟨pr, pl, hit, -, -, hh, -⟩
  · exact .refl _
  · exact credits_tryHit hw hh

/-- A pass credits every kill fairly, and removes only projectiles. -/
theorem credits_resolveCollisions {ff : Bool} (hw : w.Wf) {out : CombatOutcome}
    (h : resolveCollisions w ff = .ok (out, w')) : Credits w w' := by
  obtain ⟨spent, wk, hf, rfl⟩ := resolveCollisions_eq h
  have hfold : Credits w wk ∧ Grows w wk :=
    Checked.foldlM_induction (fun acc => Credits w acc.2.2 ∧ Grows w acc.2.2)
      (fun ⟨_, _, _⟩ _ ⟨_, _, _⟩ _ hc hstep =>
        ⟨hc.1.trans (credits_collidePair (hc.2.wf hw) hstep),
          hc.2.trans hw (grows_collidePair (hc.2.wf hw) hstep)⟩)
      ⟨.refl _, .refl _⟩ hf
  have hnp := (PassInv.of_fold hw hf).not_player hw
  refine hfold.1.trans (.of_kills (fun pid => ?_) (by rw [removeAll_eq]) (by rw [removeAll_eq]))
  rw [removeAll_eq]
  unfold presentKills
  refine sum_map_filter fun e he hsp => Entity.killsFor_eq_zero (hnp e he ?_) pid
  simpa using hsp

end World

/-! ## Tallies -/

/-- A player's tally: its ids, its score, and its kills, deaths and assists. -/
def World.tallyOf (w : World) (p : Player) : PlayerTally :=
  ⟨p.playerId, p.characterId, p.team, w.scoreOf p.playerId, p.kills, p.deaths, p.assists⟩

/-- Tally `a` is not after tally `b`: a higher score, or the same score and a player id not
above. -/
def PlayerTally.InOrder (a b : PlayerTally) : Prop :=
  b.score < a.score ∨ (a.score = b.score ∧ a.playerId ≤ b.playerId)

namespace PlayerTally

theorem inOrder_iff {a b : PlayerTally} : a.InOrder b ↔ b.before a = false := by
  unfold InOrder before
  simp only [Bool.or_eq_false_iff, decide_eq_false_iff_not, Bool.and_eq_false_iff, beq_eq_false_iff_ne]
  omega

theorem InOrder.trans {a b c : PlayerTally} (h : a.InOrder b) (h' : b.InOrder c) : a.InOrder c := by
  unfold InOrder at *
  omega

theorem inOrder_of_before {a b : PlayerTally} (h : a.before b = true) : a.InOrder b := by
  unfold InOrder
  unfold before at h
  simp only [Bool.or_eq_true, decide_eq_true_eq, Bool.and_eq_true, beq_iff_eq] at h
  omega

end PlayerTally

theorem insertTally_perm (t : PlayerTally) (l : List PlayerTally) : (insertTally t l).Perm (t :: l) := by
  induction l with
  | nil => exact .refl _
  | cons u rest ih =>
    unfold insertTally
    split
    · exact .refl _
    · exact (ih.cons u).trans (.swap t u rest)

/-- Inserting a tally into tallies in order keeps them in order. -/
theorem insertTally_sorted {t : PlayerTally} {l : List PlayerTally}
    (hl : l.Pairwise PlayerTally.InOrder) : (insertTally t l).Pairwise PlayerTally.InOrder := by
  induction l with
  | nil => exact List.pairwise_singleton _ _
  | cons u rest ih =>
    obtain ⟨hu, hrest⟩ := List.pairwise_cons.1 hl
    unfold insertTally
    split
    · rename_i hb
      have htu := PlayerTally.inOrder_of_before hb
      exact List.pairwise_cons.2 ⟨fun x hx => by
        rcases List.mem_cons.1 hx with rfl | hx
        · exact htu
        · exact htu.trans (hu x hx), hl⟩
    · rename_i hb
      refine List.pairwise_cons.2 ⟨fun x hx => ?_, ih hrest⟩
      rcases List.mem_cons.1 ((insertTally_perm t rest).subset hx) with rfl | hx
      · exact PlayerTally.inOrder_iff.2 (by simpa using hb)
      · exact hu x hx

theorem foldl_insertTally (l acc : List PlayerTally) :
    (l.foldl (fun acc t => insertTally t acc) acc).Perm (l ++ acc) ∧
      (acc.Pairwise PlayerTally.InOrder →
        (l.foldl (fun acc t => insertTally t acc) acc).Pairwise PlayerTally.InOrder) := by
  induction l generalizing acc with
  | nil => exact ⟨.refl _, id⟩
  | cons t rest ih =>
    obtain ⟨hp, hs⟩ := ih (insertTally t acc)
    exact ⟨hp.trans (((insertTally_perm t acc).append_left rest).trans List.perm_middle),
      fun h => hs (insertTally_sorted h)⟩

namespace World

theorem tallies_eq (w : World) :
    w.tallies = ((w.players.map fun ep => w.tallyOf ep.2) ++ w.departed.map w.tallyOf).foldl
      (fun acc t => insertTally t acc) [] :=
  rfl

/-- The tallies are those of the present players and of the departed records. -/
theorem tallies_perm (w : World) :
    w.tallies.Perm ((w.players.map fun ep => w.tallyOf ep.2) ++ w.departed.map w.tallyOf) := by
  rw [tallies_eq]
  have h := (foldl_insertTally ((w.players.map fun ep => w.tallyOf ep.2) ++
    w.departed.map w.tallyOf) []).1
  rwa [List.append_nil] at h

/-- The tallies are best first: by score, then by player id. -/
theorem tallies_sorted (w : World) : w.tallies.Pairwise PlayerTally.InOrder := by
  rw [tallies_eq]
  exact (foldl_insertTally _ []).2 List.Pairwise.nil

end World

end Skirmish
