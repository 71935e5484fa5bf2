import Skirmish.Proofs.World.Later

/-!
# One tick of a world

`World.advance dt` visits every entity once, in id order. `Entity.Ticked` says what the tick makes
of one entity that it keeps, one rule per case: a live player moves and its cooldowns run down, a
dead player either counts down or, once its countdown runs out, comes back at a fresh spawn point,
alive at full health and at rest, and a projectile or an effect moves and ages. A projectile whose
lifetime or an effect whose duration runs out expires instead (`Entity.expiresIn`); a player never
does.

The whole tick is then one statement (`World.advance_spec`): the report lists exactly the players
that respawn and the entities that expire, in id order; every entity that does not expire is found
under its id in its ticked form, and every one that does is gone; the `k`-th player to respawn
stands at the `k`-th spawn point drawn from the world's generator, and gets a respawn effect under
the `k`-th fresh id; nothing else is added, and scores and departed players stay as they were.
-/

namespace Skirmish

/-! ## Spawn points drawn in turn -/

/-- The generator after `n` spawn points have been drawn from `g`. -/
def afterSpawns (b : MapBounds) (g : Random.ChaCha8) : Nat → Random.ChaCha8
  | 0 => g
  | n + 1 => (randomSpawn (afterSpawns b g n) b).2

/-- The spawn point drawn `k`-th from `g`, counting from `0`. -/
def nthSpawn (g : Random.ChaCha8) (b : MapBounds) (k : Nat) : Vec2 :=
  (randomSpawn (afterSpawns b g k) b).1

/-- Drawing `n + 1` spawn points is drawing one and then `n` more. -/
theorem afterSpawns_succ' (b : MapBounds) (g : Random.ChaCha8) (n : Nat) :
    afterSpawns b g (n + 1) = afterSpawns b (randomSpawn g b).2 n := by
  induction n with
  | zero => rfl
  | succ n ih => rw [afterSpawns, ih, afterSpawns]

theorem nthSpawn_succ (g : Random.ChaCha8) (b : MapBounds) (k : Nat) :
    nthSpawn g b (k + 1) = nthSpawn (randomSpawn g b).2 b k := by
  rw [nthSpawn, afterSpawns_succ', nthSpawn]

/-! ## What a tick does to one entity -/

namespace Entity

/-- Whether a tick of `dt` seconds brings the entity back: a dead player whose countdown runs
out. -/
def respawnsIn (dt : Float32) (e : Entity) : Bool :=
  match e.kind with
  | .player p => !p.alive && decide (p.respawnCountdown - dt ≤ 0)
  | _ => false

/-- Whether a tick of `dt` seconds ends the entity: a projectile whose lifetime or an effect whose
duration runs out. A player never ends. -/
def expiresIn (dt : Float32) (e : Entity) : Bool :=
  match e.kind with
  | .player _ => false
  | .projectile q => decide (q.lifetime - dt ≤ 0)
  | .effect f => decide (f.duration - dt ≤ 0)

/-- What a tick of `dt` seconds makes of an entity it keeps. Every entity keeps its id and its
rotation, and moves by its velocity for `dt` seconds unless it respawns. -/
inductive Ticked (dt : Float32) (e : Entity) : Entity → Prop
  /-- A live player moves and its cooldowns run down; its health, its counters and all else
  stay. -/
  | alive {p : Player} (hk : e.kind = .player p) (ha : p.alive = true) :
      Ticked dt e
        { e with
          position := integrate e.position e.velocity dt
          kind := .player { p with cooldowns := World.tickCooldowns dt p.cooldowns } }
  /-- A dead player whose countdown runs out comes back at `pos` and at rest, alive at full
  health, with its countdown at `0` and nobody on record as having damaged it. -/
  | respawn {p : Player} (pos : Vec2) (hk : e.kind = .player p) (ha : p.alive = false)
      (hc : p.respawnCountdown - dt ≤ 0) :
      Ticked dt e
        { e with
          position := pos
          velocity := Vec2.zero
          kind := .player
            { p with
              alive := true
              health := p.maxHealth
              respawnCountdown := 0
              damagedBy := []
              cooldowns := World.tickCooldowns dt p.cooldowns } }
  /-- Any other dead player moves and counts down. -/
  | dead {p : Player} (hk : e.kind = .player p) (ha : p.alive = false)
      (hc : ¬ p.respawnCountdown - dt ≤ 0) :
      Ticked dt e
        { e with
          position := integrate e.position e.velocity dt
          kind := .player
            { p with
              respawnCountdown := p.respawnCountdown - dt
              cooldowns := World.tickCooldowns dt p.cooldowns } }
  /-- A projectile moves and its lifetime runs down. -/
  | projectile {q : Projectile} (hk : e.kind = .projectile q) :
      Ticked dt e
        { e with
          position := integrate e.position e.velocity dt
          kind := .projectile { q with lifetime := q.lifetime - dt } }
  /-- An effect moves and its duration runs down. -/
  | effect {f : Effect} (hk : e.kind = .effect f) :
      Ticked dt e
        { e with
          position := integrate e.position e.velocity dt
          kind := .effect { f with duration := f.duration - dt } }

theorem Ticked.id {dt : Float32} {e e' : Entity} (h : e.Ticked dt e') : e'.id = e.id := by
  cases h <;> rfl

end Entity

namespace World

/-- A cooldown runs down by `dt` and stays exactly when what is left is above zero. -/
theorem mem_tickCooldowns {dt : Float32} {l : List (Nat × Float32)} {k : Nat} {v : Float32} :
    (k, v) ∈ tickCooldowns dt l ↔ ∃ v₀, (k, v₀) ∈ l ∧ v = v₀ - dt ∧ 0 < v := by
  simp only [tickCooldowns, List.mem_filter, List.mem_map, decide_eq_true_eq, Prod.exists,
    Prod.mk.injEq]
  constructor
  · rintro ⟨⟨k₀, v₀, h, rfl, rfl⟩, hv⟩
    exact ⟨v₀, h, rfl, hv⟩
  · rintro ⟨v₀, h, rfl, hv⟩
    exact ⟨⟨k, v₀, h, rfl, rfl⟩, hv⟩

section
variable (dt : Float32) (b : MapBounds) (g : Random.ChaCha8)

/-- The tick of one entity reports a respawn and an expiry exactly when they happen, and draws a
spawn point for a respawn only. -/
theorem advanceEntity_snd (e : Entity) :
    (advanceEntity dt b g e).2 =
      (e.respawnsIn dt, e.expiresIn dt, if e.respawnsIn dt then (randomSpawn g b).2 else g) := by
  rcases e with ⟨id, pos, rot, vel, kind⟩
  cases kind with
  | player p =>
    simp only [advanceEntity, Entity.respawnsIn, Entity.expiresIn]
    by_cases ha : p.alive <;> by_cases hc : p.respawnCountdown - dt ≤ 0 <;> simp [ha, hc]
  | projectile q => simp [advanceEntity, Entity.respawnsIn, Entity.expiresIn]
  | effect f => simp [advanceEntity, Entity.respawnsIn, Entity.expiresIn]

theorem ticked_advanceEntity (e : Entity) : e.Ticked dt (advanceEntity dt b g e).1 := by
  rcases e with ⟨id, pos, rot, vel, kind⟩
  cases kind with
  | player p =>
    simp only [advanceEntity]
    split_ifs with ha hc
    · exact .alive rfl ha
    · exact .respawn _ rfl (by simpa using ha) hc
    · exact .dead rfl (by simpa using ha) hc
  | projectile q => exact .projectile rfl
  | effect f => exact .effect rfl

/-- A player that respawns stands at the spawn point drawn from the generator. -/
theorem advanceEntity_position_of_respawnsIn {e : Entity} (h : e.respawnsIn dt = true) :
    (advanceEntity dt b g e).1.position = (randomSpawn g b).1 := by
  rcases e with ⟨id, pos, rot, vel, kind⟩
  cases kind with
  | player p =>
    simp only [Entity.respawnsIn, Bool.and_eq_true, Bool.not_eq_eq_eq_not, Bool.not_true,
      decide_eq_true_eq] at h
    simp [advanceEntity, h.1, h.2]
  | projectile q | effect f => simp [Entity.respawnsIn] at h

/-- One entity ticks, then the rest with the generator it leaves. -/
theorem advanceAll_cons (e : Entity) (rest : List Entity) :
    advanceAll dt b g (e :: rest) =
      let a := advanceEntity dt b g e
      let r := advanceAll dt b a.2.2.2 rest
      (a.1 :: r.1, (if a.2.1 then e.id :: r.2.1 else r.2.1),
        (if a.2.2.1 then e.id :: r.2.2.1 else r.2.2.1), r.2.2.2) := by
  simp only [advanceAll, advanceEntity_id]

/-- A tick reports the players that respawn and the entities that expire, in order, and draws one
spawn point for each respawn. -/
theorem advanceAll_snd (es : List Entity) :
    (advanceAll dt b g es).2 =
      ((es.filter (·.respawnsIn dt)).map (·.id), (es.filter (·.expiresIn dt)).map (·.id),
        afterSpawns b g (es.countP (·.respawnsIn dt))) := by
  induction es generalizing g with
  | nil => rfl
  | cons e rest ih =>
    rw [advanceAll_cons]
    simp only [advanceEntity_snd, ih]
    cases hr : e.respawnsIn dt <;> cases hx : e.expiresIn dt <;>
      simp [hr, hx, afterSpawns_succ']

/-- A tick makes each entity its ticked form, in order. -/
theorem forall₂_ticked_advanceAll (es : List Entity) :
    List.Forall₂ (Entity.Ticked dt) es (advanceAll dt b g es).1 := by
  induction es generalizing g with
  | nil => exact .nil
  | cons e rest ih => exact .cons (ticked_advanceEntity dt b g e) (ih _)

/-- The players that respawn, in order, stand at the spawn points drawn in turn from the
generator. -/
theorem advanceAll_respawn_positions (es : List Entity) :
    ((es.zip (advanceAll dt b g es).1).filter (·.1.respawnsIn dt)).map (·.2.position) =
      (List.range (es.countP (·.respawnsIn dt))).map (nthSpawn g b) := by
  induction es generalizing g with
  | nil => rfl
  | cons e rest ih =>
    rw [advanceAll_cons]
    simp only [List.zip_cons_cons, List.filter_cons, advanceEntity_snd]
    cases hr : e.respawnsIn dt with
    | false => simpa [hr] using ih g
    | true =>
      simp only [hr, if_true, List.map_cons, List.countP_cons_of_pos, List.range_succ_eq_map,
        ih, advanceEntity_position_of_respawnsIn dt b g hr, List.map_map]
      have hsucc : nthSpawn g b ∘ Nat.succ = nthSpawn (randomSpawn g b).2 b :=
        funext fun k => nthSpawn_succ g b k
      rw [hsucc]
      rfl

end

/-! ## The respawn effects -/

/-- The respawn effects for players that respawned, in order, under the ids from `next`. -/
def respawnMarks (next : Nat) : List Entity → List Entity
  | [] => []
  | e :: rest =>
    Entity.fresh next e.position (.effect ⟨.respawn, respawnEffectSecs, some e.id⟩) ::
      respawnMarks (next + 1) rest

theorem ids_respawnMarks (next : Nat) (found : List Entity) :
    (respawnMarks next found).map (·.id) = List.range' next found.length := by
  induction found generalizing next with
  | nil => rfl
  | cons e rest ih => simp [respawnMarks, ih, Entity.fresh, List.range'_succ]

/-- The `k`-th respawn effect stands where the `k`-th player respawned, under the `k`-th id. -/
theorem getElem?_respawnMarks (next : Nat) (found : List Entity) (k : Nat) :
    (respawnMarks next found)[k]? = found[k]?.map fun e =>
      Entity.fresh (next + k) e.position (.effect ⟨.respawn, respawnEffectSecs, some e.id⟩) := by
  induction found generalizing next k with
  | nil => rfl
  | cons e rest ih =>
    cases k with
    | zero => simp [respawnMarks]
    | succ k => simp [respawnMarks, ih, Nat.add_assoc, Nat.add_comm 1 k]

/-- Each player found under its id gets a respawn effect at its position, under the next id. -/
theorem respawnEffects_eq (w : World) (found : List Entity)
    (hfound : ∀ e ∈ found, w.get? e.id = some e) :
    w.respawnEffects (found.map (·.id)) =
      { w with entities := w.entities ++ respawnMarks w.nextEntityId found,
               nextEntityId := w.nextEntityId + found.length } := by
  induction found generalizing w with
  | nil => simp [respawnEffects, respawnMarks]
  | cons e rest ih =>
    have hrest : ∀ e' ∈ rest,
        (w.spawnEffect e.position .respawn respawnEffectSecs (some e.id)).2.get? e'.id = some e' :=
      fun e' he' => get?_spawn_of_get? (hfound e' (List.mem_cons_of_mem e he'))
    simp only [List.map_cons, respawnEffects, hfound e List.mem_cons_self]
    rw [ih _ hrest]
    simp [spawnEffect, spawn, respawnMarks, Nat.add_assoc, Nat.add_comm 1]

/-! ## The whole tick -/

/-- The players a tick brings back, in their ticked form and in order. -/
def respawnedAfter (w : World) (dt : Float32) : List Entity :=
  ((w.entities.zip (advanceAll dt w.bounds w.rng w.entities).1).filter (·.1.respawnsIn dt)).map
    (·.2)

/-- A tick reports the players that respawn and the entities that expire, in id order. -/
theorem advance_fst (w : World) (dt : Float32) :
    (w.advance dt).1 =
      ⟨(w.entities.filter (·.respawnsIn dt)).map (·.id),
        (w.entities.filter (·.expiresIn dt)).map (·.id)⟩ := by
  simp only [advance, advanceAll_snd]

theorem ids_filter_zip_of_forall₂ {dt : Float32} {p : Entity → Bool} {es outs : List Entity}
    (h : List.Forall₂ (Entity.Ticked dt) es outs) :
    (((es.zip outs).filter (p ·.1)).map (·.2)).map (·.id) = (es.filter p).map (·.id) := by
  induction h with
  | nil => rfl
  | @cons x y _ _ ht _ ih => cases hp : p x <;> simp [hp, ih, ht.id]

theorem ids_respawnedAfter (w : World) (dt : Float32) :
    (w.respawnedAfter dt).map (·.id) = (w.entities.filter (·.respawnsIn dt)).map (·.id) :=
  ids_filter_zip_of_forall₂ (forall₂_ticked_advanceAll dt _ _ _)

theorem length_respawnedAfter (w : World) (dt : Float32) :
    (w.respawnedAfter dt).length = w.entities.countP (·.respawnsIn dt) := by
  have h := congrArg List.length (ids_respawnedAfter w dt)
  rwa [List.length_map, List.length_map, ← List.countP_eq_length_filter] at h

theorem positions_respawnedAfter (w : World) (dt : Float32) :
    (w.respawnedAfter dt).map (·.position) =
      (List.range (w.entities.countP (·.respawnsIn dt))).map (nthSpawn w.rng w.bounds) := by
  rw [respawnedAfter, List.map_map]
  exact advanceAll_respawn_positions dt _ _ _

theorem mem_respawnedAfter {w : World} {dt : Float32} {e : Entity} (h : e ∈ w.respawnedAfter dt) :
    ∃ x ∈ w.entities, x.respawnsIn dt = true ∧ x.Ticked dt e ∧
      e ∈ (advanceAll dt w.bounds w.rng w.entities).1 := by
  obtain ⟨⟨x, y⟩, hxy, rfl⟩ := List.mem_map.1 h
  obtain ⟨hz, hr⟩ := List.mem_filter.1 hxy
  obtain ⟨hx, hy⟩ := List.of_mem_zip hz
  exact ⟨x, hx, hr, List.forall₂_zip (forall₂_ticked_advanceAll dt _ _ _) hz, hy⟩

/-- A tick makes each entity of the list the ticked form of one before. -/
theorem exists_ticked_of_forall₂ {dt : Float32} {es outs : List Entity}
    (h : List.Forall₂ (Entity.Ticked dt) es outs) : ∀ x ∈ es, ∃ y ∈ outs, x.Ticked dt y := by
  induction h with
  | nil => simp
  | cons ht _ ih =>
    intro x hx
    rcases List.mem_cons.1 hx with rfl | hx
    · exact ⟨_, List.mem_cons_self, ht⟩
    · obtain ⟨y, hy, hty⟩ := ih x hx
      exact ⟨y, List.mem_cons_of_mem _ hy, hty⟩

/-- Lists with the same ids, in order, keep the same ids under a test of the id. -/
theorem map_id_filter_of_ids_eq {es es' : List Entity} (h : es'.map (·.id) = es.map (·.id))
    (q : Nat → Bool) : (es'.filter (q ·.id)).map (·.id) = (es.filter (q ·.id)).map (·.id) := by
  have hq : (fun e : Entity => q e.id) = q ∘ (·.id) := rfl
  rw [hq, ← List.filter_map, h, List.filter_map]

theorem Entity.expiresIn_of_respawnsIn {dt : Float32} {e : Entity} (h : e.respawnsIn dt = true) :
    e.expiresIn dt = false := by
  rcases e with ⟨id, pos, rot, vel, kind⟩
  cases kind with
  | player p => rfl
  | projectile q | effect f => simp [Entity.respawnsIn] at h

variable {w : World}

/-- In a well-formed world an entity's id is among the ids of the entities that pass a test
exactly when the entity passes it. -/
theorem Wf.id_mem_filter_iff (hw : w.Wf) {p : Entity → Bool} {x : Entity} (hx : x ∈ w.entities) :
    x.id ∈ (w.entities.filter p).map (·.id) ↔ p x = true := by
  simp only [List.mem_map, List.mem_filter]
  constructor
  · rintro ⟨y, ⟨hy, hp⟩, hid⟩
    rwa [← hw.eq_of_mem hy hx hid]
  · intro hp
    exact ⟨x, ⟨hx, hp⟩, rfl⟩

/-- The ticked form of an entity that does not expire passes the test that removes the expired
ones: no other entity has its id. -/
theorem Wf.not_expired_of_ticked (hw : w.Wf) {dt : Float32} {x y : Entity}
    (hx : x ∈ w.entities) (ht : x.Ticked dt y) (hkeep : x.expiresIn dt = false) :
    (!((w.entities.filter (·.expiresIn dt)).map (·.id)).contains y.id) = true := by
  have hnot : x.id ∉ (w.entities.filter (·.expiresIn dt)).map (·.id) := by
    rw [hw.id_mem_filter_iff hx, hkeep]
    simp
  simpa [ht.id] using hnot

/-- In a well-formed world, a tick keeps the ticked entities whose ids are not reported expired,
adds the respawn effects after them, hands out one id per effect and draws one spawn point per
respawn. -/
theorem advance_snd_eq (hw : w.Wf) (dt : Float32) :
    (w.advance dt).2 =
      { w with
        entities := (advanceAll dt w.bounds w.rng w.entities).1.filter
            (fun e => !((w.entities.filter (·.expiresIn dt)).map (·.id)).contains e.id) ++
          respawnMarks w.nextEntityId (w.respawnedAfter dt)
        nextEntityId := w.nextEntityId + w.entities.countP (·.respawnsIn dt)
        rng := afterSpawns w.bounds w.rng (w.entities.countP (·.respawnsIn dt)) } := by
  set w₁ : World := { w with
    entities := (advanceAll dt w.bounds w.rng w.entities).1.filter
      (fun e => !((w.entities.filter (·.expiresIn dt)).map (·.id)).contains e.id)
    rng := afterSpawns w.bounds w.rng (w.entities.countP (·.respawnsIn dt)) } with hw₁
  have hadv : (w.advance dt).2 =
      w₁.respawnEffects ((w.entities.filter (·.respawnsIn dt)).map (·.id)) := by
    simp only [advance, advanceAll_snd, w₁]
  have hwf₁ : w₁.Wf := by
    have hsub : List.Sublist w₁.ids w.ids := by
      simp only [ids, w₁]
      rw [← advanceAll_ids dt w.bounds w.rng w.entities]
      exact List.filter_sublist.map _
    exact (IdsFrom.of_sublist hsub rfl).wf hw
  have hfound : ∀ e ∈ w.respawnedAfter dt, w₁.get? e.id = some e := by
    intro e he
    obtain ⟨x, hx, hr, ht, hout⟩ := mem_respawnedAfter he
    rw [hwf₁.get?_eq_some_iff]
    refine ⟨List.mem_filter.2 ⟨hout, ?_⟩, rfl⟩
    exact hw.not_expired_of_ticked hx ht (Entity.expiresIn_of_respawnsIn hr)
  rw [hadv, ← ids_respawnedAfter, respawnEffects_eq w₁ _ hfound, length_respawnedAfter]

/-- A tick keeps exactly the ids of the entities that do not expire, in order, and adds one
respawn effect per respawn under the next ids. -/
theorem ids_advance (hw : w.Wf) (dt : Float32) :
    (w.advance dt).2.ids = (w.entities.filter (!·.expiresIn dt)).map (·.id) ++
      List.range' w.nextEntityId (w.entities.countP (·.respawnsIn dt)) := by
  rw [advance_snd_eq hw]
  simp only [ids, List.map_append, ids_respawnMarks, length_respawnedAfter]
  congr 1
  rw [map_id_filter_of_ids_eq (advanceAll_ids dt w.bounds w.rng w.entities)
    (fun i => !((w.entities.filter (·.expiresIn dt)).map (·.id)).contains i)]
  congr 1
  apply List.filter_congr
  intro x hx
  simp [hw.id_mem_filter_iff hx]

/-- An entity that expires is gone after the tick. -/
theorem get?_advance_of_expiresIn (hw : w.Wf) {dt : Float32} {x : Entity} (hx : x ∈ w.entities)
    (hexp : x.expiresIn dt = true) : (w.advance dt).2.get? x.id = none := by
  rw [get?_eq_none_iff, ids_advance hw, List.mem_append, not_or]
  refine ⟨?_, ?_⟩
  · rw [hw.id_mem_filter_iff hx]
    simp [hexp]
  · have := hw.lt_next x.id (List.mem_map_of_mem hx)
    simp only [List.mem_range'_1]
    omega

/-- An entity that does not expire is found under its id in its ticked form. -/
theorem get?_advance_of_ticked (hw : w.Wf) {dt : Float32} {x y : Entity} (hx : x ∈ w.entities)
    (hkeep : x.expiresIn dt = false) (hy : y ∈ (advanceAll dt w.bounds w.rng w.entities).1)
    (ht : x.Ticked dt y) : (w.advance dt).2.get? x.id = some y := by
  rw [((plays_advance hw dt).wf hw).get?_eq_some_iff, advance_snd_eq hw]
  exact ⟨List.mem_append_left _ (List.mem_filter.2 ⟨hy, hw.not_expired_of_ticked hx ht hkeep⟩),
    ht.id⟩

/-- The `k`-th player to respawn is found under its id, at the `k`-th spawn point drawn from the
world's generator, and its respawn effect under the `k`-th fresh id. -/
theorem get?_advance_respawned (hw : w.Wf) (dt : Float32) {k : Nat}
    (hk : k < (w.respawnedAfter dt).length) :
    (w.advance dt).2.get? (w.respawnedAfter dt)[k].id = some (w.respawnedAfter dt)[k] ∧
      (w.respawnedAfter dt)[k].position = nthSpawn w.rng w.bounds k ∧
      (w.advance dt).2.get? (w.nextEntityId + k) =
        some (Entity.fresh (w.nextEntityId + k) (w.respawnedAfter dt)[k].position
          (.effect ⟨.respawn, respawnEffectSecs, some (w.respawnedAfter dt)[k].id⟩)) := by
  obtain ⟨x, hx, hr, ht, hy⟩ := mem_respawnedAfter (List.getElem_mem hk)
  refine ⟨?_, ?_, ?_⟩
  · rw [ht.id]
    exact get?_advance_of_ticked hw hx (Entity.expiresIn_of_respawnsIn hr) hy ht
  · have h := congrArg (·[k]?) (positions_respawnedAfter w dt)
    have hn : k < w.entities.countP (·.respawnsIn dt) := length_respawnedAfter w dt ▸ hk
    simpa [List.getElem?_eq_getElem hk, hn] using h
  · have hmark : (respawnMarks w.nextEntityId (w.respawnedAfter dt))[k]? =
        some (Entity.fresh (w.nextEntityId + k) (w.respawnedAfter dt)[k].position
          (.effect ⟨.respawn, respawnEffectSecs, some (w.respawnedAfter dt)[k].id⟩)) := by
      rw [getElem?_respawnMarks, List.getElem?_eq_getElem hk]
      rfl
    rw [((plays_advance hw dt).wf hw).get?_eq_some_iff, advance_snd_eq hw]
    exact ⟨List.mem_append_right _ (List.mem_of_getElem? hmark), rfl⟩

/-- One tick lists the respawns and expiries in id order, removes what expires, ticks the rest,
places the `k`-th respawn at the `k`-th spawn point with its effect, and changes nothing else. -/
theorem advance_spec (hw : w.Wf) (dt : Float32) :
    let rep := (w.advance dt).1
    let w' := (w.advance dt).2
    rep.respawned = (w.entities.filter (·.respawnsIn dt)).map (·.id) ∧
    rep.expired = (w.entities.filter (·.expiresIn dt)).map (·.id) ∧
    (∀ e ∈ w.entities, e.expiresIn dt = true → w'.get? e.id = none) ∧
    (∀ e ∈ w.entities, e.expiresIn dt = false → ∃ e', w'.get? e.id = some e' ∧ e.Ticked dt e') ∧
    (∀ k (hk : k < rep.respawned.length), ∃ e', w'.get? rep.respawned[k] = some e' ∧
      e'.position = nthSpawn w.rng w.bounds k ∧
      w'.get? (w.nextEntityId + k) = some (Entity.fresh (w.nextEntityId + k) e'.position
        (.effect ⟨.respawn, respawnEffectSecs, some rep.respawned[k]⟩))) ∧
    w'.ids = (w.entities.filter (!·.expiresIn dt)).map (·.id) ++
      List.range' w.nextEntityId rep.respawned.length ∧
    w'.nextEntityId = w.nextEntityId + rep.respawned.length ∧
    w'.rng = afterSpawns w.bounds w.rng rep.respawned.length ∧
    w'.scores = w.scores ∧ w'.departed = w.departed ∧ w'.bounds = w.bounds ∧
    ∀ (l : List (Nat × Float32)) k v,
      (k, v) ∈ tickCooldowns dt l ↔ ∃ v₀, (k, v₀) ∈ l ∧ v = v₀ - dt ∧ 0 < v := by
  intro rep w'
  have hrep : rep = _ := advance_fst w dt
  have hids : rep.respawned = (w.respawnedAfter dt).map (·.id) := by
    rw [hrep, ids_respawnedAfter]
  have hcount : rep.respawned.length = w.entities.countP (·.respawnsIn dt) := by
    rw [hids, List.length_map, length_respawnedAfter]
  have hw' : w' = _ := advance_snd_eq hw dt
  refine ⟨by rw [hrep], by rw [hrep], fun e he hexp => get?_advance_of_expiresIn hw he hexp,
    fun e he hkeep => ?_, fun k hk => ?_, ?_, ?_, ?_, ?_, ?_, ?_, fun _ _ _ => mem_tickCooldowns⟩
  · obtain ⟨e', he', ht⟩ := exists_ticked_of_forall₂ (forall₂_ticked_advanceAll dt _ _ _) e he
    exact ⟨e', get?_advance_of_ticked hw he hkeep he' ht, ht⟩
  · have hk' : k < (w.respawnedAfter dt).length := by
      rw [hcount, ← length_respawnedAfter] at hk
      exact hk
    have hid : (w.respawnedAfter dt)[k].id = rep.respawned[k] := by
      simp only [hids, List.getElem_map]
    obtain ⟨hget, hpos, hmark⟩ := get?_advance_respawned hw dt hk'
    rw [hid] at hget hmark
    exact ⟨_, hget, hpos, hmark⟩
  · rw [hcount]
    exact ids_advance hw dt
  · rw [hcount, hw']
  · rw [hcount, hw']
  · rw [hw']
  · rw [hw']
  · rw [hw']

/-- A tick of one second brings back a dead player, ends a projectile and runs down a live
player's cooldown. -/
theorem advance_spec_respawn_expire :
    let w : World :=
      ⟨[Entity.fresh 1 Vec2.zero
          (.player { Player.fresh 1 0 .red 100 with alive := false, respawnCountdown := 0.5 }),
        Entity.fresh 2 ⟨10, 0⟩ (.projectile ⟨3, 0, 20, 0.5, false, []⟩),
        Entity.fresh 3 ⟨50, 50⟩ (.player { Player.fresh 2 0 .blue 100 with cooldowns := [(0, 2)] })],
        [(1, 0), (2, 0)], [], 4, .ofSeed 7, MapBounds.forMap 1⟩
    w.Wf ∧
    let rep := (w.advance 1).1
    let w' := (w.advance 1).2
    rep.respawned = (w.entities.filter (·.respawnsIn 1)).map (·.id) ∧
    rep.expired = (w.entities.filter (·.expiresIn 1)).map (·.id) ∧
    (∀ e ∈ w.entities, e.expiresIn 1 = true → w'.get? e.id = none) ∧
    (∀ e ∈ w.entities, e.expiresIn 1 = false → ∃ e', w'.get? e.id = some e' ∧ e.Ticked 1 e') ∧
    (∀ k (hk : k < rep.respawned.length), ∃ e', w'.get? rep.respawned[k] = some e' ∧
      e'.position = nthSpawn w.rng w.bounds k ∧
      w'.get? (w.nextEntityId + k) = some (Entity.fresh (w.nextEntityId + k) e'.position
        (.effect ⟨.respawn, respawnEffectSecs, some rep.respawned[k]⟩))) ∧
    w'.ids = (w.entities.filter (!·.expiresIn 1)).map (·.id) ++
      List.range' w.nextEntityId rep.respawned.length ∧
    w'.nextEntityId = w.nextEntityId + rep.respawned.length ∧
    w'.rng = afterSpawns w.bounds w.rng rep.respawned.length ∧
    w'.scores = w.scores ∧ w'.departed = w.departed ∧ w'.bounds = w.bounds ∧
    ∀ (l : List (Nat × Float32)) k v,
      (k, v) ∈ tickCooldowns 1 l ↔ ∃ v₀, (k, v₀) ∈ l ∧ v = v₀ - 1 ∧ 0 < v :=
  ⟨⟨by decide, by decide⟩, advance_spec ⟨by decide, by decide⟩ 1⟩

end World

end Skirmish
