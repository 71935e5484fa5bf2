import Mathlib.Data.List.Nodup
import Skirmish.Game.Combat

/-!
# Entity ids of a world

A world hands out entity ids from `nextEntityId` upwards and never hands one out twice. This
module states that discipline as a relation between a world and a later one, `World.IdsFrom`: the
next id never goes down, and the ids of the later world, in order, are some of the earlier ones
followed by some of the ids handed out in between. The basic operations on a world are in that
relation with their results, and the relation is transitive, so a run of them is.

A world is well formed (`World.Wf`) when its entity ids are strictly increasing and below the
next id, and `IdsFrom` carries well-formedness forward. In a well-formed world an id names at most
one entity (`Wf.eq_of_mem`), so the entity that `get?` finds is the only one with its id.

The module opens with the two facts about checked computations that every later proof uses to
take a `do` block apart: a bind that succeeds is two steps that succeed, and a fold that succeeds
keeps whatever each of its steps keeps.
-/

namespace Skirmish

/-! ## Checked computations -/

/-- A bind succeeds exactly when both of its steps do. -/
theorem Except.bind_eq_ok {ε α β : Type} {x : Except ε α} {f : α → Except ε β} {b : β} :
    x >>= f = .ok b ↔ ∃ a, x = .ok a ∧ f a = .ok b := by
  cases x <;> simp [bind, Except.bind]

@[simp] theorem Except.pure_eq_ok {ε α : Type} {a b : α} : (pure a : Except ε α) = .ok b ↔ a = b := by
  simp [pure, Except.pure]

namespace Checked

/-- What every step of a successful fold keeps from one accumulator to the next, the fold keeps
from its start to its result. -/
theorem foldlM_induction {α β : Type} {f : β → α → Checked β} (P : β → Prop) :
    ∀ {xs : List α} {b b' : β}, (∀ c a c', a ∈ xs → P c → f c a = .ok c' → P c') →
      P b → xs.foldlM f b = .ok b' → P b'
  | [], b, b', _, hb, h => by
    simp only [List.foldlM_nil, Except.pure_eq_ok] at h
    exact h ▸ hb
  | a :: xs, b, b', hf, hb, h => by
    rw [List.foldlM_cons, Except.bind_eq_ok] at h
    obtain ⟨c, hc, h⟩ := h
    exact foldlM_induction P (fun c x c' hx => hf c x c' (List.mem_cons_of_mem a hx))
      (hf b a c List.mem_cons_self hb hc) h

end Checked

/-! ## Entity changes that keep the id -/

@[simp] theorem Entity.setRotation_id (e : Entity) (d : Float32) : (e.setRotation d).id = e.id :=
  rfl

@[simp] theorem Entity.mapPlayer_id (f : Player → Player) (e : Entity) :
    (e.mapPlayer f).id = e.id := by
  unfold Entity.mapPlayer; split <;> rfl

@[simp] theorem Entity.mapProjectile_id (f : Projectile → Projectile) (e : Entity) :
    (e.mapProjectile f).id = e.id := by
  unfold Entity.mapProjectile; split <;> rfl

namespace World

variable {w w' w'' : World}

/-- The ids of the entities, in order. -/
def ids (w : World) : List Nat := w.entities.map (·.id)

/-- A world as its operations leave it: ids strictly increasing and below the next id. -/
structure Wf (w : World) : Prop where
  sorted : w.ids.Pairwise (· < ·)
  lt_next : ∀ i ∈ w.ids, i < w.nextEntityId

/-- `w'` follows `w` in handing out ids: the next id does not go down, and the ids of `w'`, in
order, are some of those of `w` followed by some of the ids handed out since. -/
structure IdsFrom (w w' : World) : Prop where
  next_le : w.nextEntityId ≤ w'.nextEntityId
  sublist : List.Sublist w'.ids (w.ids ++ List.range' w.nextEntityId (w'.nextEntityId - w.nextEntityId))

/-- The empty world is well formed. -/
theorem wf_new (seed : UInt64) (b : MapBounds) : (World.new seed b).Wf :=
  ⟨by simp [ids, World.new], by simp [ids, World.new]⟩

namespace IdsFrom

@[refl] theorem refl (w : World) : IdsFrom w w :=
  ⟨Nat.le_refl _, by simp⟩

/-- Ids kept in order and no id handed out. -/
theorem of_sublist (h : List.Sublist w'.ids w.ids) (hn : w'.nextEntityId = w.nextEntityId) :
    IdsFrom w w' :=
  ⟨hn ▸ Nat.le_refl _, by simpa [hn] using h⟩

/-- The same ids and the same next id. -/
theorem of_ids_eq (h : w'.ids = w.ids) (hn : w'.nextEntityId = w.nextEntityId) :
    IdsFrom w w' :=
  of_sublist (h ▸ List.Sublist.refl _) hn

theorem trans (h₁ : IdsFrom w w') (h₂ : IdsFrom w' w'') : IdsFrom w w'' := by
  refine ⟨Nat.le_trans h₁.next_le h₂.next_le, h₂.sublist.trans ?_⟩
  have hrange : List.range' w.nextEntityId (w'.nextEntityId - w.nextEntityId) ++
      List.range' w'.nextEntityId (w''.nextEntityId - w'.nextEntityId) =
      List.range' w.nextEntityId (w''.nextEntityId - w.nextEntityId) := by
    have := h₁.next_le
    have := h₂.next_le
    have hsplit := @List.range'_append_1 w.nextEntityId (w'.nextEntityId - w.nextEntityId)
      (w''.nextEntityId - w'.nextEntityId)
    rwa [show w.nextEntityId + (w'.nextEntityId - w.nextEntityId) = w'.nextEntityId by omega,
      show w'.nextEntityId - w.nextEntityId + (w''.nextEntityId - w'.nextEntityId) =
        w''.nextEntityId - w.nextEntityId by omega] at hsplit
  rw [← hrange, ← List.append_assoc]
  exact h₁.sublist.append (List.Sublist.refl _)

/-- Well-formedness is carried forward. -/
theorem wf (h : IdsFrom w w') (hw : w.Wf) : w'.Wf := by
  have hall : (w.ids ++ List.range' w.nextEntityId (w'.nextEntityId - w.nextEntityId)).Pairwise
      (· < ·) := by
    refine List.pairwise_append.2 ⟨hw.sorted, List.pairwise_lt_range', ?_⟩
    intro i hi j hj
    have := hw.lt_next i hi
    have := (List.mem_range'_1.1 hj).1
    omega
  refine ⟨hall.sublist h.sublist, fun i hi => ?_⟩
  have hmem := h.sublist.subset hi
  rcases List.mem_append.1 hmem with hi | hi
  · exact Nat.lt_of_lt_of_le (hw.lt_next i hi) h.next_le
  · have := List.mem_range'_1.1 hi
    omega

/-- An id of the later world that the earlier one did not have was handed out in between. -/
theorem fresh (h : IdsFrom w w') {i : Nat} (hi : i ∈ w'.ids) (hnot : i ∉ w.ids) :
    w.nextEntityId ≤ i ∧ i < w'.nextEntityId := by
  rcases List.mem_append.1 (h.sublist.subset hi) with hi | hi
  · exact absurd hi hnot
  · have := List.mem_range'_1.1 hi
    omega

/-- A fold whose every step keeps the discipline keeps it. -/
theorem foldl {α β : Type} (f : β → α → β) (world : β → World)
    (hf : ∀ b a, IdsFrom (world b) (world (f b a))) :
    ∀ (xs : List α) (b : β), IdsFrom (world b) (world (xs.foldl f b))
  | [], _ => .refl _
  | a :: xs, b => (hf b a).trans (IdsFrom.foldl f world hf xs (f b a))

end IdsFrom

/-! ## Looking up and changing entities -/

/-- In a well-formed world an id names at most one entity. -/
theorem Wf.eq_of_mem (hw : w.Wf) {e e' : Entity} (he : e ∈ w.entities) (he' : e' ∈ w.entities)
    (h : e.id = e'.id) : e = e' :=
  List.inj_on_of_nodup_map (hw.sorted.imp Nat.ne_of_lt) he he' h

theorem get?_eq_some {i : Nat} {e : Entity} (h : w.get? i = some e) :
    e ∈ w.entities ∧ e.id = i := by
  unfold get? at h
  exact ⟨List.mem_of_find?_eq_some h, by simpa using List.find?_some h⟩

/-- In a well-formed world the entity found for an id is the entity with that id. -/
theorem Wf.get?_eq_some_iff (hw : w.Wf) {i : Nat} {e : Entity} :
    w.get? i = some e ↔ e ∈ w.entities ∧ e.id = i := by
  refine ⟨get?_eq_some, fun ⟨he, hi⟩ => ?_⟩
  cases hget : w.get? i with
  | none =>
    unfold get? at hget
    exact absurd (by simpa using hi) (List.find?_eq_none.1 hget e he)
  | some e' =>
    obtain ⟨he', hi'⟩ := get?_eq_some hget
    rw [hw.eq_of_mem he' he (hi'.trans hi.symm)]

theorem get?_eq_none_iff {i : Nat} : w.get? i = none ↔ i ∉ w.ids := by
  simp [get?, ids]

/-- An update changes what is found under an id the way it changes the entity found, provided
it keeps the ids of the entities it changes. -/
theorem get?_update {i j : Nat} {f : Entity → Entity}
    (hf : ∀ e, e.id = i → (f e).id = i) :
    (w.update i f).get? j = (w.get? j).map fun e => if e.id = i then f e else e := by
  simp only [get?, update]
  rw [List.find?_map]
  congr 2
  funext e
  by_cases hi : e.id = i
  · simp [hi, hf e hi]
  · simp [hi]

theorem get?_update_self {i : Nat} {f : Entity → Entity}
    (hf : ∀ e, e.id = i → (f e).id = i) :
    (w.update i f).get? i = (w.get? i).map f := by
  rw [get?_update hf]
  cases h : w.get? i with
  | none => rfl
  | some e => simp [(get?_eq_some h).2]

theorem get?_update_ne {i j : Nat} {f : Entity → Entity}
    (hf : ∀ e, e.id = i → (f e).id = i) (hij : j ≠ i) :
    (w.update i f).get? j = w.get? j := by
  rw [get?_update hf]
  cases h : w.get? j with
  | none => rfl
  | some e => simp [(get?_eq_some h).2, hij]

/-! ## The ids after each operation -/

@[simp] theorem ids_update {i : Nat} {f : Entity → Entity}
    (hf : ∀ e ∈ w.entities, e.id = i → (f e).id = i) : (w.update i f).ids = w.ids := by
  simp only [ids, update, List.map_map]
  apply List.map_congr_left
  intro e he
  by_cases hi : e.id = i
  · simp [hi, hf e he hi]
  · simp [hi]

@[simp] theorem ids_spawn (p : Vec2) (k : EntityKind) :
    (w.spawn p k).2.ids = w.ids ++ [w.nextEntityId] := by
  simp [spawn, ids, Entity.fresh]

@[simp] theorem nextEntityId_spawn (p : Vec2) (k : EntityKind) :
    (w.spawn p k).2.nextEntityId = w.nextEntityId + 1 := rfl

theorem spawn_fst (p : Vec2) (k : EntityKind) : (w.spawn p k).1 = w.nextEntityId := rfl

/-- A spawned entity goes after the others: an id finds what it found before, or else the new
entity. -/
theorem get?_spawn (p : Vec2) (k : EntityKind) (i : Nat) :
    (w.spawn p k).2.get? i = (w.get? i).or ([Entity.fresh w.nextEntityId p k].find? (·.id == i)) := by
  simp only [spawn, get?, List.find?_append]

theorem get?_spawn_of_get? {p : Vec2} {k : EntityKind} {i : Nat} {e : Entity}
    (h : w.get? i = some e) : (w.spawn p k).2.get? i = some e := by
  rw [get?_spawn, h, Option.some_or]

theorem idsFrom_update {i : Nat} {f : Entity → Entity}
    (hf : ∀ e ∈ w.entities, e.id = i → (f e).id = i) : IdsFrom w (w.update i f) :=
  .of_ids_eq (ids_update hf) rfl

theorem idsFrom_spawn (p : Vec2) (k : EntityKind) : IdsFrom w (w.spawn p k).2 :=
  ⟨by simp, by simp⟩

/-- A player goes to the end at the next id and a fresh spawn point; its score opens at `0`
unless it has one. -/
theorem spawnPlayer_eq (p : Player) :
    w.spawnPlayer p = (w.nextEntityId,
      { w with entities := w.entities ++ [Entity.fresh w.nextEntityId w.spawnPoint.1 (.player p)],
               nextEntityId := w.nextEntityId + 1, rng := w.spawnPoint.2.rng,
               scores := if w.hasScore p.playerId then w.scores
                 else setSorted p.playerId 0 w.scores }) := by
  by_cases h : w.hasScore p.playerId <;>
    simp_all [spawnPlayer, spawnPoint, spawn, hasScore]

theorem idsFrom_spawnPlayer (p : Player) : IdsFrom w (w.spawnPlayer p).2 := by
  rw [spawnPlayer_eq]
  exact ⟨by simp, by simp [ids, Entity.fresh]⟩

theorem ids_remove (i : Nat) : (w.remove i).2.ids = w.ids.filter (· != i) := by
  simp [remove, ids, List.filter_map, Function.comp_def]

theorem idsFrom_remove (i : Nat) : IdsFrom w (w.remove i).2 :=
  .of_sublist (by rw [ids_remove]; exact List.filter_sublist) rfl

/-- Removing a player's entity removes the entity; with `keep` the player is recorded as departed,
otherwise its score goes. -/
theorem removePlayer_eq (i : Nat) (keep : Bool) :
    (w.removePlayer i keep).2 =
      match (w.get? i).bind Entity.player? with
      | some p =>
        if keep then { (w.remove i).2 with departed := setDeparted p w.departed }
        else { (w.remove i).2 with scores := w.scores.filter (·.1 != p.playerId) }
      | none => (w.remove i).2 := by
  unfold removePlayer remove
  cases h : w.get? i with
  | none => rfl
  | some e =>
    cases hp : e.player? with
    | none => simp [hp]
    | some p => cases keep <;> simp [hp]

theorem idsFrom_removePlayer (i : Nat) (keep : Bool) : IdsFrom w (w.removePlayer i keep).2 := by
  rw [removePlayer_eq]
  split
  · split <;> exact (idsFrom_remove i).trans (.of_ids_eq rfl rfl)
  · exact idsFrom_remove i

/-- Adding points succeeds when the new score fits in 32 bits, and changes the scores only. -/
theorem addScore_eq_ok {pid : Int} {n s : Nat} :
    w.addScore pid n = .ok (s, w') ↔
      addU32 (w.scoreOf pid) n = .ok s ∧ w' = { w with scores := setSorted pid s w.scores } := by
  unfold addScore
  rw [Except.bind_eq_ok]
  constructor
  · rintro ⟨s', hs', h⟩
    simp only [Except.pure_eq_ok, Prod.mk.injEq] at h
    obtain ⟨rfl, rfl⟩ := h
    exact ⟨hs', rfl⟩
  · rintro ⟨hs, rfl⟩
    exact ⟨s, hs, rfl⟩

/-- Advancing moves every entity in place, keeping its id. -/
theorem advanceEntity_id (dt : Float32) (b : MapBounds) (g : Random.ChaCha8) (e : Entity) :
    (advanceEntity dt b g e).1.id = e.id := by
  rcases e with ⟨id, pos, rot, vel, kind⟩
  cases kind with
  | player p => simp only [advanceEntity]; split_ifs <;> rfl
  | projectile q => rfl
  | effect f => rfl

theorem advanceAll_ids (dt : Float32) (b : MapBounds) (g : Random.ChaCha8) (es : List Entity) :
    (advanceAll dt b g es).1.map (·.id) = es.map (·.id) := by
  induction es generalizing g with
  | nil => rfl
  | cons e rest ih => simp [advanceAll, advanceEntity_id, ih]

end World

end Skirmish
