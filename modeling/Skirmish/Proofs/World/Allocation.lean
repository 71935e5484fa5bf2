import Skirmish.Proofs.Combat.Hits
import Skirmish.Proofs.Room.Input

/-!
# Entity ids over a run

A world keeps its entities in a list, each under its own id, and hands out ids from a counter,
`nextEntityId`. Every operation of a run (spawning entities, players and effects, removing
entities and players, ticks, skills and collision passes) ages a well-formed world in the sense of
`World.Ages` (`ages_apply`), and so does every run (`ages_runOps`): the counter never goes down,
and what a later world has that an earlier one lacked was handed out in between.

Main statement (`runOps_ids_fresh`): over any run from a well-formed world, each world the run
reaches lists its entities by strictly increasing id, each present entity once and below the next
id, so sorting the ids changes nothing; the next id never goes down; an id a later world has and an
earlier world lacked was handed out after the earlier one; a spawn hands out an id above every id
of every earlier world; and an id that leaves the world never comes back.
-/

namespace Skirmish

namespace World

variable {w w' : World}

/-- One operation ages a well-formed world. -/
theorem ages_apply (hw : w.Wf) {op : Op} {ps : List Pass} (h : w.apply op = .ok (ps, w')) :
    Ages w w' := by
  cases op with
  | spawn p k =>
    obtain ⟨-, rfl⟩ := Prod.mk.inj (Except.pure_eq_ok.1 h).symm
    exact ages_spawn hw p k
  | spawnPlayer pl =>
    obtain ⟨-, rfl⟩ := Prod.mk.inj (Except.pure_eq_ok.1 h).symm
    exact ages_spawnPlayer hw pl
  | spawnEffect p k d o =>
    obtain ⟨-, rfl⟩ := Prod.mk.inj (Except.pure_eq_ok.1 h).symm
    exact (plays_spawnEffect hw p k d o).toAges
  | remove i =>
    obtain ⟨-, rfl⟩ := Prod.mk.inj (Except.pure_eq_ok.1 h).symm
    exact ages_remove i
  | removePlayer i keep =>
    obtain ⟨-, rfl⟩ := Prod.mk.inj (Except.pure_eq_ok.1 h).symm
    exact ages_removePlayer i keep
  | advance dt =>
    obtain ⟨-, rfl⟩ := Prod.mk.inj (Except.pure_eq_ok.1 h).symm
    exact (plays_advance hw dt).toAges
  | useSkill c s target =>
    obtain ⟨-, rfl⟩ := Prod.mk.inj (Except.pure_eq_ok.1 h).symm
    exact (plays_useSkill hw c s target).toAges
  | resolveCollisions ff =>
    obtain ⟨⟨out, w₁⟩, hr, h⟩ := Except.bind_eq_ok.1 h
    obtain ⟨-, rfl⟩ := Prod.mk.inj (Except.pure_eq_ok.1 h).symm
    exact ages_resolveCollisions hw hr

/-- A run ages a well-formed world. -/
theorem ages_runOps (hw : w.Wf) {ops : List Op} {ps : List Pass}
    (h : w.runOps ops = .ok (ps, w')) : Ages w w' := by
  induction ops generalizing w ps with
  | nil =>
    obtain ⟨-, rfl⟩ := Prod.mk.inj (Except.pure_eq_ok.1 h).symm
    exact .refl _
  | cons op ops ih =>
    obtain ⟨⟨ps₁, w₁⟩, h₁, h⟩ := Except.bind_eq_ok.1 h
    obtain ⟨⟨ps₂, w₂⟩, h₂, h⟩ := Except.bind_eq_ok.1 h
    obtain ⟨-, rfl⟩ := Prod.mk.inj (Except.pure_eq_ok.1 h).symm
    have ha := ages_apply hw h₁
    exact ha.trans hw (ih (ha.wf hw) h₂)

/-- A player goes in under the next id. -/
theorem spawnPlayer_fst (p : Player) : (w.spawnPlayer p).1 = w.nextEntityId := by
  rw [spawnPlayer_eq]

/-- A skill hands back only ids from the next id on: the next ones when it fires, none when it
does not. -/
theorem le_of_mem_useSkill (hw : w.Wf) {caster skill : Nat} {target : Vec2} {j : Nat}
    (hj : j ∈ (useSkill w caster skill target).1) : w.nextEntityId ≤ j := by
  by_cases hfire : ∃ stats e p, SkillStats.forSkill skill = some stats ∧ w.get? caster = some e ∧
      e.player? = some p ∧ p.alive = true ∧ p.onCooldown skill = false
  · obtain ⟨stats, e, p, hs, he, hp, ha, hc⟩ := hfire
    obtain ⟨qs, -, -, hout⟩ := useSkill_of_ready hw hs he hp ha hc target
    rw [hout] at hj
    exact (List.mem_range'_1.1 hj).1
  · rw [useSkill_of_refused hfire] at hj
    cases hj

/-- Over a run from a well-formed world, ids stay sorted, distinct and below the next id, the next
id never goes down, a spawn hands out an id above every earlier one, and a removed id never returns. -/
theorem runOps_ids_fresh {w₀ w₁ w₂ : World} {ops₁ ops₂ : List Op} {ps₁ ps₂ : List Pass}
    (hw : w₀.Wf) (h₁ : w₀.runOps ops₁ = .ok (ps₁, w₁)) (h₂ : w₁.runOps ops₂ = .ok (ps₂, w₂)) :
    (w₂.ids.Pairwise (· < ·) ∧ (∀ e ∈ w₂.entities, w₂.ids.count e.id = 1) ∧
      w₂.ids.mergeSort (fun a b => decide (a ≤ b)) = w₂.ids ∧
      ∀ i ∈ w₂.ids, i < w₂.nextEntityId) ∧
    (w₀.nextEntityId ≤ w₁.nextEntityId ∧ w₁.nextEntityId ≤ w₂.nextEntityId) ∧
    (∀ i ∈ w₂.ids, i ∉ w₁.ids → w₁.nextEntityId ≤ i) ∧
    (∀ i ∈ w₁.ids, (∀ (p : Vec2) (k : EntityKind), i < (w₂.spawn p k).1) ∧
      (∀ pl : Player, i < (w₂.spawnPlayer pl).1) ∧
      ∀ (caster skill : Nat) (target : Vec2), ∀ j ∈ (useSkill w₂ caster skill target).1, i < j) ∧
    ∀ i ∈ w₀.ids, i ∉ w₁.ids → i ∉ w₂.ids := by
  have a₁ := (ages_runOps hw h₁).idsFrom
  have hw₁ := a₁.wf hw
  have a₂ := (ages_runOps hw₁ h₂).idsFrom
  have hw₂ := a₂.wf hw₁
  refine ⟨⟨hw₂.sorted, fun e he => ?_, ?_, hw₂.lt_next⟩, ⟨a₁.next_le, a₂.next_le⟩,
    fun i hi hn => (a₂.fresh hi hn).1, fun i hi => ?_, fun i hi hn₁ hi₂ => ?_⟩
  · exact List.count_eq_one_of_mem hw₂.sorted.nodup (List.mem_map_of_mem he)
  · exact List.mergeSort_of_pairwise (hw₂.sorted.imp fun h => decide_eq_true (Nat.le_of_lt h))
  · have hlt : i < w₂.nextEntityId := Nat.lt_of_lt_of_le (hw₁.lt_next i hi) a₂.next_le
    refine ⟨fun p k => ?_, fun pl => ?_, fun caster skill target j hj => ?_⟩
    · rwa [spawn_fst]
    · rwa [spawnPlayer_fst]
    · exact Nat.lt_of_lt_of_le hlt (le_of_mem_useSkill hw₂ hj)
  · have hnew := (a₂.fresh hi₂ hn₁).1
    have hold := hw.lt_next i hi
    have := a₁.next_le
    omega

/-- An explosion under id `1` is removed and a respawn effect is spawned: it gets id `2`, and id
`1` stays gone. -/
theorem runOps_ids_fresh_respawn :
    let w₀ := ((World.new 0 (MapBounds.forMap 0)).spawnEffect Vec2.zero .explosion 1 none).2
    let w₁ := (w₀.remove 1).2
    let w₂ := (w₁.spawnEffect Vec2.zero .respawn 1 none).2
    w₀.Wf ∧ w₀.runOps [.remove 1] = .ok ([], w₁) ∧
    w₁.runOps [.spawnEffect Vec2.zero .respawn 1 none] = .ok ([], w₂) ∧
    (w₂.ids.Pairwise (· < ·) ∧ (∀ e ∈ w₂.entities, w₂.ids.count e.id = 1) ∧
      w₂.ids.mergeSort (fun a b => decide (a ≤ b)) = w₂.ids ∧
      ∀ i ∈ w₂.ids, i < w₂.nextEntityId) ∧
    (w₀.nextEntityId ≤ w₁.nextEntityId ∧ w₁.nextEntityId ≤ w₂.nextEntityId) ∧
    (∀ i ∈ w₂.ids, i ∉ w₁.ids → w₁.nextEntityId ≤ i) ∧
    (∀ i ∈ w₁.ids, (∀ (p : Vec2) (k : EntityKind), i < (w₂.spawn p k).1) ∧
      (∀ pl : Player, i < (w₂.spawnPlayer pl).1) ∧
      ∀ (caster skill : Nat) (target : Vec2), ∀ j ∈ (useSkill w₂ caster skill target).1, i < j) ∧
    ∀ i ∈ w₀.ids, i ∉ w₁.ids → i ∉ w₂.ids := by
  intro w₀ w₁ w₂
  have hw : w₀.Wf := (plays_spawnEffect (wf_new 0 _) _ _ _ _).wf (wf_new 0 _)
  have h₁ : w₀.runOps [.remove 1] = .ok ([], w₁) := rfl
  have h₂ : w₁.runOps [.spawnEffect Vec2.zero .respawn 1 none] = .ok ([], w₂) := rfl
  exact ⟨hw, h₁, h₂, runOps_ids_fresh hw h₁ h₂⟩

end World

end Skirmish
