import Skirmish.Proofs.World.Ids

/-!
# Entities later in their life

Entities change in place: players move, are hurt, die and respawn, projectiles fly and record
the players they strike, effects fade. What an entity keeps through all of it is its id and its
kind; a player keeps its identity (player id, character and team), and a projectile keeps its
owner and whether it pierces, while the players it struck only grow. `Entity.Later` says this of
two forms of one entity, and `World.Later` of two worlds: every entity of the later world whose id
the earlier world had is a later form of the entity that had it.

`World.Ages` joins this to the id discipline of `World.IdsFrom`. Every operation of a world ages
it (`ages_spawn`, `ages_remove`, `plays_update`, `plays_advance`, `plays_useSkill`, ...), and aging is
transitive from a well-formed world, because an id the middle world no longer has is never handed
out again (`Ages.trans`). The operations of play (updates that keep what `Entity.Later` keeps,
spawning projectiles and effects, scoring, ticks and skills) also keep the players of the world,
in order (`World.Plays`), while seating and unseating add and remove one.
-/

namespace Skirmish

/-! ## Later forms of the data of an entity -/

/-- The same player: the same player id, character and team. -/
structure Player.Same (p p' : Player) : Prop where
  playerId : p'.playerId = p.playerId
  characterId : p'.characterId = p.characterId
  team : p'.team = p.team

/-- A projectile later in its life: the same owner and piercing, and at least the same hits. -/
structure Projectile.Later (q q' : Projectile) : Prop where
  owner : q'.ownerId = q.ownerId
  piercing : q'.piercing = q.piercing
  hits : q.hitEntities ⊆ q'.hitEntities

/-- The kind of an entity later in its life: the same kind, for a player the same player, for a
projectile a later form of it. -/
inductive EntityKind.Later : EntityKind → EntityKind → Prop
  | player {p p' : Player} : p.Same p' → EntityKind.Later (.player p) (.player p')
  | projectile {q q' : Projectile} : q.Later q' → EntityKind.Later (.projectile q) (.projectile q')
  | effect (f f' : Effect) : EntityKind.Later (.effect f) (.effect f')

/-- An entity later in its life: the same id, and its kind later in its life. -/
structure Entity.Later (e e' : Entity) : Prop where
  id : e'.id = e.id
  kind : e.kind.Later e'.kind

theorem Player.Same.refl (p : Player) : p.Same p := ⟨rfl, rfl, rfl⟩

theorem Player.Same.trans {p p' p'' : Player} (h : p.Same p') (h' : p'.Same p'') : p.Same p'' :=
  ⟨h'.playerId.trans h.playerId, h'.characterId.trans h.characterId, h'.team.trans h.team⟩

theorem Projectile.Later.refl (q : Projectile) : q.Later q :=
  ⟨rfl, rfl, List.Subset.refl _⟩

theorem Projectile.Later.trans {q q' q'' : Projectile} (h : q.Later q') (h' : q'.Later q'') :
    q.Later q'' :=
  ⟨h'.owner.trans h.owner, h'.piercing.trans h.piercing, List.Subset.trans h.hits h'.hits⟩

theorem EntityKind.Later.refl : ∀ k : EntityKind, k.Later k
  | .player p => .player (.refl p)
  | .projectile q => .projectile (.refl q)
  | .effect f => .effect f f

theorem EntityKind.Later.trans {k k' k'' : EntityKind} :
    k.Later k' → k'.Later k'' → k.Later k''
  | .player h, .player h' => .player (h.trans h')
  | .projectile h, .projectile h' => .projectile (h.trans h')
  | .effect f _, .effect _ f'' => .effect f f''

namespace Entity.Later

variable {e e' e'' : Entity}

theorem refl (e : Entity) : e.Later e := ⟨rfl, .refl e.kind⟩

theorem trans (h : e.Later e') (h' : e'.Later e'') : e.Later e'' :=
  ⟨h'.id.trans h.id, h.kind.trans h'.kind⟩

/-- A change that keeps the id and the kind. -/
theorem of_kind_eq (hid : e'.id = e.id) (hk : e'.kind = e.kind) : e.Later e' :=
  ⟨hid, hk ▸ .refl e.kind⟩

/-- A projectile stays a projectile, a later form of itself. -/
theorem projectile? (h : e.Later e') {q : Projectile} (hq : e.projectile? = some q) :
    ∃ q', e'.projectile? = some q' ∧ q.Later q' := by
  obtain ⟨-, hk⟩ := h
  rcases e with ⟨_, _, _, _, k⟩
  rcases e' with ⟨_, _, _, _, k'⟩
  cases hk <;> simp_all [Entity.projectile?]

/-- A projectile was a projectile before, an earlier form of itself. -/
theorem projectile?_of_later (h : e.Later e') {q' : Projectile} (hq : e'.projectile? = some q') :
    ∃ q, e.projectile? = some q ∧ q.Later q' := by
  obtain ⟨-, hk⟩ := h
  rcases e with ⟨_, _, _, _, k⟩
  rcases e' with ⟨_, _, _, _, k'⟩
  cases hk <;> simp_all [Entity.projectile?]

/-- A player stays the same player. -/
theorem player? (h : e.Later e') {p : Player} (hp : e.player? = some p) :
    ∃ p', e'.player? = some p' ∧ p.Same p' := by
  obtain ⟨-, hk⟩ := h
  rcases e with ⟨_, _, _, _, k⟩
  rcases e' with ⟨_, _, _, _, k'⟩
  cases hk <;> simp_all [Entity.player?]

/-- A player was the same player before. -/
theorem player?_of_later (h : e.Later e') {p' : Player} (hp : e'.player? = some p') :
    ∃ p, e.player? = some p ∧ p.Same p' := by
  obtain ⟨-, hk⟩ := h
  rcases e with ⟨_, _, _, _, k⟩
  rcases e' with ⟨_, _, _, _, k'⟩
  cases hk <;> simp_all [Entity.player?]

end Entity.Later

/-- The key of a player entity: its id, and its player's id, character and team. -/
def Entity.playerKey? (e : Entity) : Option (Nat × Int × Nat × Team) :=
  e.player?.map fun p => (e.id, p.playerId, p.characterId, p.team)

/-- A later form of an entity has its player key. -/
theorem Entity.Later.playerKey? {e e' : Entity} (h : e.Later e') : e'.playerKey? = e.playerKey? := by
  obtain ⟨hid, hk⟩ := h
  rcases e with ⟨_, _, _, _, k⟩
  rcases e' with ⟨_, _, _, _, k'⟩
  cases hk with
  | player hs =>
    simp only [Entity.playerKey?, Entity.player?, Option.map_some, Option.some.injEq, Prod.mk.injEq]
    exact ⟨hid, hs.playerId, hs.characterId, hs.team⟩
  | projectile _ | effect _ _ => rfl

/-- Each entity of a list that became the other entry by entry is a later form of one before. -/
theorem exists_later_of_forall₂ {es es' : List Entity} (h : List.Forall₂ Entity.Later es es') :
    ∀ e' ∈ es', ∃ e ∈ es, e.Later e' := by
  induction h with
  | nil => simp
  | cons hl _ ih =>
    intro e' he'
    rcases List.mem_cons.1 he' with rfl | he'
    · exact ⟨_, List.mem_cons_self, hl⟩
    · obtain ⟨e, he, hle⟩ := ih e' he'
      exact ⟨e, List.mem_cons_of_mem _ he, hle⟩

/-! ## What the entity operations keep -/

/-- Changing the data of a player into the same player is a later form. -/
theorem Entity.later_mapPlayer {f : Player → Player} (hf : ∀ p : Player, p.Same (f p)) (e : Entity) :
    e.Later (e.mapPlayer f) := by
  unfold Entity.mapPlayer
  split
  · rename_i p hk
    exact ⟨rfl, hk ▸ .player (hf p)⟩
  · exact .refl e

/-- One tick moves an entity, runs a player's cooldowns and respawn, and runs down a projectile's
lifetime and an effect's duration; nothing of what `Entity.Later` keeps changes. -/
theorem Entity.later_advanceEntity (dt : Float32) (b : MapBounds) (g : Random.ChaCha8)
    (e : Entity) : e.Later (World.advanceEntity dt b g e).1 := by
  refine ⟨World.advanceEntity_id dt b g e, ?_⟩
  rcases e with ⟨id, pos, rot, vel, kind⟩
  cases kind with
  | player p =>
    simp only [World.advanceEntity]
    split_ifs <;> exact .player ⟨rfl, rfl, rfl⟩
  | projectile q => exact .projectile ⟨rfl, rfl, List.Subset.refl _⟩
  | effect f => exact .effect _ _

/-! ## Worlds later in their life -/

namespace World

variable {w w' w'' : World}

/-- Every entity of `w'` whose id `w` had is a later form of the entity of `w` with that id. -/
def Later (w w' : World) : Prop :=
  ∀ e' ∈ w'.entities, e'.id ∈ w.ids → ∃ e ∈ w.entities, e.Later e'

/-- `w'` is `w` later in its life: it keeps the id discipline, and each entity `w` had is still
a later form of itself. -/
structure Ages (w w' : World) : Prop where
  idsFrom : IdsFrom w w'
  later : w.Later w'

namespace Later

theorem refl (w : World) : w.Later w :=
  fun e he _ => ⟨e, he, .refl e⟩

/-- An update that makes each entity it changes a later form of itself. -/
theorem update {i : Nat} {f : Entity → Entity}
    (hf : ∀ e ∈ w.entities, e.id = i → e.Later (f e)) : w.Later (w.update i f) := by
  intro e' he' _
  obtain ⟨e, he, rfl⟩ := List.mem_map.1 he'
  refine ⟨e, he, ?_⟩
  split
  · exact hf e he ‹_›
  · exact .refl e

/-- Dropping entities keeps the others as they are. -/
theorem of_sublist (h : List.Sublist w'.entities w.entities) : w.Later w' :=
  fun e' he' _ => ⟨e', h.subset he', .refl e'⟩

/-- The entity a spawn adds has an id the world did not have. -/
theorem spawn (hw : w.Wf) (p : Vec2) (k : EntityKind) : w.Later (w.spawn p k).2 := by
  intro e' he' hid
  simp only [World.spawn, List.mem_append, List.mem_singleton] at he'
  rcases he' with he' | rfl
  · exact ⟨e', he', .refl e'⟩
  · exact absurd (hw.lt_next _ hid) (by simp [Entity.fresh])

/-- The entity that `w` has under an id that the later world `w'` still has. -/
theorem get? (hw : w.Wf) (h : w.Later w') {i : Nat} (hi : i ∈ w.ids) {e' : Entity}
    (he' : w'.get? i = some e') : ∃ e, w.get? i = some e ∧ e.Later e' := by
  obtain ⟨he'm, rfl⟩ := get?_eq_some he'
  obtain ⟨e, he, hl⟩ := h e' he'm hi
  exact ⟨e, hw.get?_eq_some_iff.2 ⟨he, hl.id.symm⟩, hl⟩

end Later

namespace Ages

@[refl] theorem refl (w : World) : Ages w w := ⟨.refl w, .refl w⟩

/-- Aging is transitive from a well-formed world: an entity of `w''` whose id `w` had is in `w'`
too, since an id that leaves a world is never handed out again. -/
theorem trans (hw : w.Wf) (h : Ages w w') (h' : Ages w' w'') : Ages w w'' := by
  refine ⟨h.idsFrom.trans h'.idsFrom, fun e'' he'' hid => ?_⟩
  have hid' : e''.id ∈ w'.ids := by
    by_contra hnot
    have := (h'.idsFrom.fresh (List.mem_map_of_mem he'') hnot).1
    have := hw.lt_next _ hid
    have := h.idsFrom.next_le
    omega
  obtain ⟨e', he', hl'⟩ := h'.later e'' he'' hid'
  obtain ⟨e, he, hl⟩ := h.later e' he' (hl'.id ▸ hid)
  exact ⟨e, he, hl.trans hl'⟩

/-- The well-formed later world of a well-formed one. -/
theorem wf (h : Ages w w') (hw : w.Wf) : w'.Wf := h.idsFrom.wf hw

/-- What the later world has under an id the earlier one had is a later form of what the
earlier one had there. -/
theorem get? (h : Ages w w') (hw : w.Wf) {i : Nat} (hi : i ∈ w.ids) {e' : Entity}
    (he' : w'.get? i = some e') : ∃ e, w.get? i = some e ∧ e.Later e' :=
  h.later.get? hw hi he'

end Ages

/-! ## The players of a world -/

/-- The keys of the player entities, in entity order: each entity's id with its player's id,
character and team. -/
def playerKeys (w : World) : List (Nat × Int × Nat × Team) :=
  w.entities.filterMap Entity.playerKey?

theorem playerKeys_eq_players (w : World) :
    w.playerKeys = w.players.map fun ep => (ep.1.id, ep.2.playerId, ep.2.characterId, ep.2.team) := by
  simp [playerKeys, players, List.map_filterMap, Function.comp_def]
  rfl

/-- The players of `w'` are those of `w`, in the same order, each a later form of itself. -/
structure Plays (w w' : World) : Prop extends Ages w w' where
  players : w'.playerKeys = w.playerKeys

namespace Plays

theorem refl (w : World) : Plays w w := ⟨.refl w, rfl⟩

theorem trans (hw : w.Wf) (h : Plays w w') (h' : Plays w' w'') : Plays w w'' :=
  ⟨h.toAges.trans hw h'.toAges, h'.players.trans h.players⟩

theorem wf (h : Plays w w') (hw : w.Wf) : w'.Wf := h.toAges.wf hw

/-- A fold whose every step keeps the players keeps them, from a well-formed world. -/
theorem foldl {α β : Type} (f : β → α → β) (world : β → World)
    (hf : ∀ b a, (world b).Wf → Plays (world b) (world (f b a))) :
    ∀ (xs : List α) (b : β), (world b).Wf → Plays (world b) (world (xs.foldl f b))
  | [], _, _ => .refl _
  | a :: xs, b, hw =>
    have h := hf b a hw
    h.trans hw (Plays.foldl f world hf xs (f b a) (h.wf hw))

end Plays

/-- Entities that each become a later form of themselves keep the player keys. -/
theorem filterMap_playerKey?_of_later {es es' : List Entity} (h : List.Forall₂ Entity.Later es es') :
    es'.filterMap Entity.playerKey? = es.filterMap Entity.playerKey? := by
  induction h with
  | nil => rfl
  | cons hl _ ih => simp [List.filterMap_cons, hl.playerKey?, ih]

/-- Dropping entities that are no players keeps the player keys. -/
theorem filterMap_playerKey?_filter {es : List Entity} {p : Entity → Bool}
    (hp : ∀ e ∈ es, p e = false → e.player? = none) :
    (es.filter p).filterMap Entity.playerKey? = es.filterMap Entity.playerKey? := by
  induction es with
  | nil => rfl
  | cons e rest ih =>
    have ih := ih fun e' he' => hp e' (List.mem_cons_of_mem e he')
    cases he : p e with
    | true => simp only [List.filter_cons_of_pos he, List.filterMap_cons, ih]
    | false =>
      have hnone : e.playerKey? = none := by
        simp [Entity.playerKey?, hp e List.mem_cons_self he]
      rw [List.filter_cons_of_neg (by simp [he]), ih, List.filterMap_cons_none hnone]

/-! ## Every operation of a world ages it -/

theorem plays_update {i : Nat} {f : Entity → Entity}
    (hf : ∀ e ∈ w.entities, e.id = i → e.Later (f e)) : Plays w (w.update i f) := by
  refine ⟨⟨idsFrom_update fun e he hi => (hf e he hi).id.trans hi, .update hf⟩, ?_⟩
  refine filterMap_playerKey?_of_later (List.forall₂_map_right_iff.2 (List.forall₂_same.2 ?_))
  intro e he
  split
  · exact hf e he ‹_›
  · exact .refl e

theorem ages_spawn (hw : w.Wf) (p : Vec2) (k : EntityKind) : Ages w (w.spawn p k).2 :=
  ⟨idsFrom_spawn p k, .spawn hw p k⟩

/-- Spawning anything but a player keeps the players. -/
theorem plays_spawn (hw : w.Wf) (p : Vec2) (k : EntityKind) (hk : ∀ pl, k ≠ .player pl) :
    Plays w (w.spawn p k).2 := by
  refine ⟨ages_spawn hw p k, ?_⟩
  have : (Entity.fresh w.nextEntityId p k).playerKey? = none := by
    cases k with
    | player pl => exact absurd rfl (hk pl)
    | projectile _ | effect _ => rfl
  simp [playerKeys, spawn, this]

theorem plays_spawnEffect (hw : w.Wf) (p : Vec2) (k : EffectKind) (d : Float32) (o : Option Nat) :
    Plays w (w.spawnEffect p k d o).2 :=
  plays_spawn hw p (.effect ⟨k, d, o⟩) fun _ => nofun

theorem ages_spawnPlayer (hw : w.Wf) (p : Player) : Ages w (w.spawnPlayer p).2 := by
  refine ⟨idsFrom_spawnPlayer p, ?_⟩
  have h := Later.spawn hw w.spawnPoint.1 (.player p)
  rw [spawnPlayer_eq]
  exact h

theorem ages_remove (i : Nat) : Ages w (w.remove i).2 :=
  ⟨idsFrom_remove i, .of_sublist List.filter_sublist⟩

theorem ages_removePlayer (i : Nat) (keep : Bool) : Ages w (w.removePlayer i keep).2 := by
  refine ⟨idsFrom_removePlayer i keep, ?_⟩
  have h := (ages_remove i : Ages w (w.remove i).2).later
  rw [removePlayer_eq]
  split
  · split <;> exact h
  · exact h

theorem plays_addScore {pid : Int} {n s : Nat} (h : w.addScore pid n = .ok (s, w')) :
    Plays w w' := by
  obtain ⟨-, rfl⟩ := addScore_eq_ok.1 h
  exact ⟨⟨.of_ids_eq rfl rfl, .refl w⟩, rfl⟩

/-- A tick makes every entity a later form of itself, in order. -/
theorem later_advanceAll (dt : Float32) (b : MapBounds) (g : Random.ChaCha8) (es : List Entity) :
    List.Forall₂ Entity.Later es (advanceAll dt b g es).1 := by
  induction es generalizing g with
  | nil => exact .nil
  | cons e rest ih => exact .cons (Entity.later_advanceEntity dt b g e) (ih _)

/-- Only entities that are no players expire. -/
theorem player?_of_mem_expired (dt : Float32) (b : MapBounds) (g : Random.ChaCha8)
    (es : List Entity) : ∀ i ∈ (advanceAll dt b g es).2.2.1, ∃ e ∈ es, e.id = i ∧ e.player? = none := by
  induction es generalizing g with
  | nil => simp [advanceAll]
  | cons e rest ih =>
    intro i hi
    simp only [advanceAll] at hi
    split at hi
    · rename_i hexp
      rcases List.mem_cons.1 hi with rfl | hi
      · refine ⟨e, List.mem_cons_self, (advanceEntity_id dt b g e).symm, ?_⟩
        rcases e with ⟨id, pos, rot, vel, kind⟩
        cases kind with
        | player p =>
          simp only [advanceEntity] at hexp
          split_ifs at hexp
        | projectile _ | effect _ => rfl
      · obtain ⟨e', he', h'⟩ := ih _ i hi
        exact ⟨e', List.mem_cons_of_mem e he', h'⟩
    · obtain ⟨e', he', h'⟩ := ih _ i hi
      exact ⟨e', List.mem_cons_of_mem e he', h'⟩

theorem plays_respawnEffects : ∀ (w : World) (ids : List Nat), w.Wf → Plays w (w.respawnEffects ids)
  | w, [], _ => .refl w
  | w, i :: rest, hw => by
    unfold respawnEffects
    split
    · rename_i e _
      have h := plays_spawnEffect hw e.position .respawn respawnEffectSecs (some i)
      exact h.trans hw (plays_respawnEffects _ rest (h.wf hw))
    · exact plays_respawnEffects w rest hw

/-- In a well-formed world, an entity that a tick reports expired is no player after the tick:
ids name one entity each, and only entities that are no players expire. -/
theorem player?_of_expired (hw : w.Wf) (dt : Float32) {e' : Entity}
    (he' : e' ∈ (advanceAll dt w.bounds w.rng w.entities).1)
    (hexp : e'.id ∈ (advanceAll dt w.bounds w.rng w.entities).2.2.1) : e'.player? = none := by
  have hl := later_advanceAll dt w.bounds w.rng w.entities
  obtain ⟨e, he, hid, hnone⟩ := player?_of_mem_expired dt w.bounds w.rng w.entities _ hexp
  obtain ⟨e₀, he₀, hle⟩ := exists_later_of_forall₂ hl e' he'
  have : e₀ = e := hw.eq_of_mem he₀ he (hle.id.symm.trans hid.symm)
  subst this
  cases hp' : e'.player? with
  | none => rfl
  | some p' =>
    obtain ⟨p, hp, -⟩ := hle.player?_of_later hp'
    rw [hnone] at hp
    cases hp

/-- A tick moves every entity in place as a later form of itself, drops the expired ones, which
are no players, and adds respawn effects. -/
theorem plays_advance (hw : w.Wf) (dt : Float32) : Plays w (w.advance dt).2 := by
  have hl := later_advanceAll dt w.bounds w.rng w.entities
  have hids := advanceAll_ids dt w.bounds w.rng w.entities
  have hmoved : Plays w { w with
      entities := (advanceAll dt w.bounds w.rng w.entities).1.filter
        (fun e => !(advanceAll dt w.bounds w.rng w.entities).2.2.1.contains e.id),
      rng := (advanceAll dt w.bounds w.rng w.entities).2.2.2 } := by
    refine ⟨⟨?_, fun e' he' _ => ?_⟩, ?_⟩
    · refine .of_sublist ?_ rfl
      simp only [ids]
      rw [← hids]
      exact List.filter_sublist.map _
    · exact exists_later_of_forall₂ hl e' (List.mem_of_mem_filter he')
    · simp only [playerKeys]
      rw [filterMap_playerKey?_filter, filterMap_playerKey?_of_later hl]
      intro e' he' hexp
      exact player?_of_expired hw dt he' (by simpa using hexp)
  unfold advance
  exact hmoved.trans hw (plays_respawnEffects _ _ (hmoved.wf hw))

/-- A skill spawns its projectiles one after the other, turns each to its heading, and then
starts the caster's cooldown. -/
theorem plays_useSkill (hw : w.Wf) (caster skill : Nat) (target : Vec2) :
    Plays w (useSkill w caster skill target).2 := by
  unfold useSkill
  split
  · split
    · split
      · exact .refl _
      · refine (Plays.foldl _ Prod.snd (fun acc _ hacc => ?_) _ ([], w) hw).trans hw
          (plays_update fun e _ _ => Entity.later_mapPlayer (fun _ => by exact ⟨rfl, rfl, rfl⟩) e)
        exact (plays_spawn hacc _ (.projectile _) fun _ => nofun).trans hacc
          (plays_update fun _ _ _ => .of_kind_eq rfl rfl)
    · exact .refl _
  · exact .refl _

end World

end Skirmish
