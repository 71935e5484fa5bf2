import Skirmish.Proofs.Room.Lifecycle
import Skirmish.Proofs.World.Scores

/-!
# The scores and tallies of a room

While no player holds two seats at once, a room keeps its books (`Room.Books`): one player entity
per player id, no departed record for a player still present, one record per player id, and every
score the kills of its player's present entity and departed record. A game that ends then tallies
each player it started with once, present or departed, best first, each entry scoring its kills,
with the kills, deaths and assists its player had at the end or when it left
(`runEvents_scores_tallies`).

The condition is needed: a player id seated through two connections leaves one departed record
when both leave, the later overwriting the earlier, and the tallies lose an entry.
-/

namespace Skirmish

open World

/-- A player's id, character and team. -/
def Player.key (p : Player) : Int × Nat × Team := (p.playerId, p.characterId, p.team)

/-- In a list whose keys are distinct, one element has the key of `a`. -/
theorem filter_key_of_nodup {α : Type} (f : α → Nat) {l : List α} (hn : (l.map f).Nodup) {a : α}
    (ha : a ∈ l) : l.filter (f · == f a) = [a] := by
  induction l with
  | nil => cases ha
  | cons x rest ih =>
    rw [List.map_cons, List.nodup_cons] at hn
    rcases List.mem_cons.1 ha with rfl | ha
    · rw [List.filter_cons_of_pos (by simp), List.filter_eq_nil_iff.2 fun y hy hya => hn.1 ?_]
      rw [← beq_iff_eq.1 hya]
      exact List.mem_map_of_mem hy
    · have hne : f x ≠ f a := fun h => hn.1 (h ▸ List.mem_map_of_mem ha)
      rw [List.filter_cons_of_neg (by simpa using hne), ih hn.2 ha]

/-- In a list of records with distinct player ids, the record of `p`'s id is `p`. -/
theorem find?_playerId_of_nodup {l : List Player} (hn : (l.map (·.playerId)).Nodup) {p : Player}
    (hp : p ∈ l) : l.find? (·.playerId == p.playerId) = some p := by
  induction l with
  | nil => cases hp
  | cons q rest ih =>
    rw [List.map_cons, List.nodup_cons] at hn
    rcases List.mem_cons.1 hp with rfl | hp
    · simp
    · have hne : q.playerId ≠ p.playerId := fun h => hn.1 (h ▸ List.mem_map_of_mem hp)
      rw [List.find?_cons_of_neg (by simpa using hne), ih hn.2 hp]

namespace World

variable {w w' : World}

/-- The player ids of the player entities, in entity order. -/
def playerIds (w : World) : List Int := w.players.map (·.2.playerId)

/-- Everyone who entered the game, by id, character and team: the players present, in entity
order, then the departed. -/
def entrants (w : World) : List (Int × Nat × Team) :=
  w.playerKeys.map (·.2) ++ w.departed.map Player.key

theorem playerIds_eq (w : World) : w.playerIds = w.playerKeys.map (·.2.1) := by
  rw [playerKeys_eq_players, List.map_map]
  rfl

theorem mem_players {e : Entity} {p : Player} (he : e ∈ w.entities) (hp : e.player? = some p) :
    (e, p) ∈ w.players :=
  List.mem_filterMap.2 ⟨e, he, by simp [hp]⟩

theorem mem_playerIds {e : Entity} {p : Player} (he : e ∈ w.entities) (hp : e.player? = some p) :
    p.playerId ∈ w.playerIds :=
  List.mem_map.2 ⟨_, mem_players he hp, rfl⟩

theorem presentKills_eq_zero_of_not_mem {k : Int} (h : k ∉ w.playerIds) : w.presentKills k = 0 :=
  presentKills_eq_zero fun _ hep hk => h (hk ▸ List.mem_map_of_mem hep)

/-! ## Removing a player's entity -/

theorem entities_removePlayer (i : Nat) (keep : Bool) :
    (w.removePlayer i keep).2.entities = (w.remove i).2.entities := by
  rw [removePlayer_eq]
  split
  · split <;> rfl
  · rfl

/-- With one player entity per player id, removing a player's entity leaves no entity of its id. -/
theorem not_mem_playerIds_remove (hone : w.playerIds.Nodup) {i : Nat} {e : Entity}
    {p : Player} (he : w.get? i = some e) (hp : e.player? = some p) :
    p.playerId ∉ (w.remove i).2.playerIds := by
  obtain ⟨hmem, rfl⟩ := get?_eq_some he
  have hkeys : (w.remove e.id).2.playerKeys = w.playerKeys.filter (·.1 != e.id) := by
    rw [← playerKeys_removePlayer e.id false]
    simp only [playerKeys, entities_removePlayer]
  rw [playerIds_eq, hkeys]
  intro hin
  obtain ⟨k, hk, hkp⟩ := List.mem_map.1 hin
  obtain ⟨hk, hki⟩ := List.mem_filter.1 hk
  rw [playerIds_eq] at hone
  have hek : (e.id, p.playerId, p.characterId, p.team) ∈ w.playerKeys :=
    List.mem_filterMap.2 ⟨e, hmem, by simp [Entity.playerKey?, hp]⟩
  have := List.inj_on_of_nodup_map hone hk hek hkp
  subst this
  simp at hki

@[simp] theorem departed_spawnPlayer (p : Player) : (w.spawnPlayer p).2.departed = w.departed := by
  rw [spawnPlayer_eq]

/-- A record after a removal was there before, or is the removed player's, kept. -/
theorem mem_departed_removePlayer {i : Nat} {keep : Bool} {p : Player}
    (h : p ∈ (w.removePlayer i keep).2.departed) :
    p ∈ w.departed ∨ keep = true ∧ (w.get? i).bind Entity.player? = some p := by
  rw [removePlayer_eq] at h
  split at h
  · rename_i q hq
    cases keep with
    | true =>
      rcases mem_setDeparted h with rfl | h
      · exact .inr ⟨rfl, hq⟩
      · exact .inl h
    | false => exact .inl h
  · exact .inl h

/-- Removing an entity that is no player, or none, keeps the kills. -/
theorem presentKills_remove_of_none (hw : w.Wf) {i : Nat}
    (h : (w.get? i).bind Entity.player? = none) (j : Int) :
    (w.remove i).2.presentKills j = w.presentKills j := by
  cases he : w.get? i with
  | none =>
    have hall : w.entities.filter (·.id != i) = w.entities :=
      List.filter_eq_self.2 fun e hmem => bne_iff_ne.2 fun hid =>
        get?_eq_none_iff.1 he (hid ▸ List.mem_map_of_mem hmem)
    simp [presentKills, remove, hall]
  | some e =>
    rw [he, Option.bind_some] at h
    have := presentKills_remove hw he j
    rw [Entity.killsFor_eq_zero h] at this
    exact this

/-! ## The books of a world -/

/-- The books of a world: one player entity per player id, no departed record for a player still
present, one departed record per player id, and every score the kills of its player. -/
structure Books (w : World) : Prop where
  once : w.playerIds.Nodup
  apart : ∀ p ∈ w.departed, p.playerId ∉ w.playerIds
  records : (w.departed.map (·.playerId)).Nodup
  law : w.ScoreLaw

namespace Books

theorem new (seed : UInt64) (b : MapBounds) : (World.new seed b).Books :=
  ⟨List.nodup_nil, nofun, List.nodup_nil, fun _ => rfl⟩

/-- A player present has no record. -/
theorem not_mem_departed (hb : w.Books) {k : Int} (hk : k ∈ w.playerIds) :
    k ∉ w.departed.map (·.playerId) := fun hin => by
  obtain ⟨q, hq, rfl⟩ := List.mem_map.1 hin
  exact hb.apart q hq hk

/-- Play keeps the books: the same players, the same records, and kills credited fairly. -/
theorem play (hb : w.Books) (hp : Plays w w') (hc : Credits w w') : w'.Books := by
  have hids : w'.playerIds = w.playerIds := by rw [playerIds_eq, playerIds_eq, hp.players]
  refine ⟨hids ▸ hb.once, fun p hp' => ?_, hc.departed ▸ hb.records, hc.law hb.law⟩
  rw [hids]
  exact hb.apart p (hc.departed ▸ hp')

/-- A player of a new player id, with no record and no kills, keeps the books. -/
theorem spawnPlayer (hb : w.Books) {p : Player} (hnew : p.playerId ∉ w.playerIds)
    (hdep : ∀ q ∈ w.departed, q.playerId ≠ p.playerId) (hk : p.kills = 0) :
    (w.spawnPlayer p).2.Books := by
  have hids : (w.spawnPlayer p).2.playerIds = w.playerIds ++ [p.playerId] := by
    rw [playerIds_eq, playerIds_eq, playerKeys_spawnPlayer]
    simp
  have hdeparted : (w.spawnPlayer p).2.departed = w.departed := departed_spawnPlayer p
  have hkills : ∀ j, (w.spawnPlayer p).2.presentKills j = w.presentKills j := by
    intro j
    rw [spawnPlayer_eq]
    simp [presentKills, Entity.killsFor, Entity.kills?, Entity.fresh, Entity.player?, hk]
  refine ⟨?_, fun q hq => ?_, hdeparted ▸ hb.records, fun j => ?_⟩
  · rw [hids]
    refine List.nodup_append.2 ⟨hb.once, List.nodup_singleton _, ?_⟩
    intro a ha b hb' hab
    rw [List.mem_singleton.1 hb'] at hab
    exact hnew (hab ▸ ha)
  · rw [hdeparted] at hq
    rw [hids, List.mem_append, List.mem_singleton, not_or]
    exact ⟨hb.apart q hq, hdep q hq⟩
  · have hdk : (w.spawnPlayer p).2.departedKills j = w.departedKills j := by
      simp [departedKills]
    rw [scoreOf_spawnPlayer, hkills, hdk]
    exact hb.law j

/-- Removing a player's entity keeps the books, with its record kept or its score dropped. -/
theorem removePlayer (hb : w.Books) (hw : w.Wf) (i : Nat) (keep : Bool) :
    (w.removePlayer i keep).2.Books := by
  have hsub : List.Sublist (w.removePlayer i keep).2.playerIds w.playerIds := by
    rw [playerIds_eq, playerIds_eq, playerKeys_removePlayer]
    exact List.filter_sublist.map _
  have hids : (w.removePlayer i keep).2.playerIds = (w.remove i).2.playerIds := by
    simp [playerIds, players, entities_removePlayer]
  have hkills : ∀ j, (w.removePlayer i keep).2.presentKills j = (w.remove i).2.presentKills j := by
    simp [presentKills, entities_removePlayer]
  have hnot : ∀ j, j ∉ w.playerIds → j ∉ (w.removePlayer i keep).2.playerIds :=
    fun j hj hj' => hj (hsub.subset hj')
  have heq : (w.removePlayer i keep).2 = _ := removePlayer_eq i keep
  cases hq : (w.get? i).bind Entity.player? with
  | none =>
    rw [hq] at heq
    refine ⟨hb.once.sublist hsub, fun p hp => hnot _ (hb.apart p ?_), ?_, fun j => ?_⟩
    · rwa [heq] at hp
    · rw [heq]
      exact hb.records
    · rw [hkills, presentKills_remove_of_none hw hq, heq]
      exact hb.law j
  | some p =>
    obtain ⟨e, he, hp⟩ := Option.bind_eq_some_iff.1 hq
    rw [hq] at heq
    have hpresent : p.playerId ∈ w.playerIds := mem_playerIds (get?_eq_some he).1 hp
    have hgone : p.playerId ∉ (w.removePlayer i keep).2.playerIds :=
      hids ▸ not_mem_playerIds_remove hb.once he hp
    have hnorec := hb.not_mem_departed hpresent
    have hrem : ∀ j, (w.removePlayer i keep).2.presentKills j + (if p.playerId = j then p.kills else 0) =
        w.presentKills j := by
      intro j
      rw [hkills, ← Entity.killsFor_of_player? hp j]
      exact presentKills_remove hw he j
    have hdk₀ := departedKills_eq_zero fun q hq hqp => hnorec (List.mem_map.2 ⟨q, hq, hqp⟩)
    cases keep with
    | true =>
      simp only [if_true] at heq
      have hdep : (w.removePlayer i true).2.departed = setDeparted p w.departed := by rw [heq]
      refine ⟨hb.once.sublist hsub, fun q hq => ?_, ?_, fun j => ?_⟩
      · rw [hdep] at hq
        rcases mem_setDeparted hq with rfl | hq
        · exact hgone
        · exact hnot _ (hb.apart q hq)
      · rw [hdep, ((setDeparted_perm hnorec).map _).nodup_iff, List.map_cons, List.nodup_cons]
        exact ⟨hnorec, hb.records⟩
      · have hscore : (w.removePlayer i true).2.scoreOf j = w.scoreOf j := by rw [heq]; rfl
        rw [hscore, departedKills_of_setDeparted hdep, hb.law j, ← hrem j]
        by_cases hj : p.playerId = j
        · subst hj
          rw [if_pos rfl, if_pos rfl, hdk₀]
          omega
        · rw [if_neg hj, if_neg hj]
          omega
    | false =>
      simp only [Bool.false_eq_true, if_false] at heq
      have hdep : (w.removePlayer i false).2.departed = w.departed := by rw [heq]; rfl
      refine ⟨hb.once.sublist hsub, fun q hq => hnot _ (hb.apart q (hdep ▸ hq)), hdep ▸ hb.records,
        fun j => ?_⟩
      · have hsc : (w.removePlayer i false).2.scores = w.scores.filter (·.1 != p.playerId) := by
          rw [heq]
        have hdk : (w.removePlayer i false).2.departedKills j = w.departedKills j := by
          simp [departedKills, hdep]
        rw [scoreOf_of_filter hsc, hdk]
        by_cases hj : j = p.playerId
        · subst hj
          rw [if_pos rfl, presentKills_eq_zero_of_not_mem hgone, hdk₀]
        · have := hrem j
          rw [if_neg (Ne.symm hj)] at this
          rw [if_neg hj, hb.law j]
          omega

/-- With its books kept, a world's tallies each score their kills, and are those of its present
players and departed records. -/
theorem tally (hb : w.Books) (hw : w.Wf) {y : PlayerTally} (hy : y ∈ w.tallies) :
    y.score = y.kills ∧ ((∃ ep ∈ w.players, y = w.tallyOf ep.2) ∨ ∃ p ∈ w.departed, y = w.tallyOf p) := by
  rcases List.mem_append.1 ((tallies_perm w).subset hy) with hy | hy
  · obtain ⟨⟨e, p⟩, hep, rfl⟩ := List.mem_map.1 hy
    obtain ⟨e', he', hsome⟩ := List.mem_filterMap.1 hep
    obtain ⟨p', hp', hpair⟩ := Option.map_eq_some_iff.1 hsome
    obtain ⟨rfl, rfl⟩ := Prod.mk.inj hpair
    refine ⟨?_, .inl ⟨_, hep, rfl⟩⟩
    have hrem := presentKills_remove hw (hw.get?_eq_some_iff.2 ⟨he', rfl⟩) p'.playerId
    rw [presentKills_eq_zero_of_not_mem
      (not_mem_playerIds_remove hb.once (hw.get?_eq_some_iff.2 ⟨he', rfl⟩) hp'),
      Entity.killsFor_of_player? hp', if_pos rfl, Nat.zero_add] at hrem
    have hdk := departedKills_eq_zero fun q hq hqp => hb.apart q hq (hqp ▸ mem_playerIds he' hp')
    show w.scoreOf p'.playerId = p'.kills
    rw [hb.law, ← hrem, hdk, Nat.add_zero]
  · obtain ⟨p, hp, rfl⟩ := List.mem_map.1 hy
    refine ⟨?_, .inr ⟨p, hp, rfl⟩⟩
    show w.scoreOf p.playerId = p.kills
    rw [hb.law, presentKills_eq_zero_of_not_mem (hb.apart p hp), Nat.zero_add, departedKills,
      find?_playerId_of_nodup hb.records hp]
    rfl

end Books

/-- The tallies name everyone who entered the game. -/
theorem tallies_keys_perm (w : World) :
    (w.tallies.map fun y => (y.playerId, y.characterId, y.team)).Perm w.entrants := by
  have h := (tallies_perm w).map fun y => (y.playerId, y.characterId, y.team)
  rw [entrants, playerKeys_eq_players]
  simpa [List.map_map, Function.comp_def, tallyOf,
    show Player.key = fun p => (p.playerId, p.characterId, p.team) from rfl] using h

/-! ## Who entered the game -/

theorem entrants_of_plays (hp : Plays w w') (hd : w'.departed = w.departed) :
    w'.entrants = w.entrants := by
  rw [entrants, entrants, hp.players, hd]

/-- A player leaving a started game moves from the players present to the departed records. -/
theorem entrants_removePlayer (hb : w.Books) (hw : w.Wf) (i : Nat) :
    (w.removePlayer i true).2.entrants.Perm w.entrants := by
  have heq : (w.removePlayer i true).2 = _ := removePlayer_eq i true
  have hsplit := List.filter_append_perm (·.1 != i) w.playerKeys
  have hnot : w.playerKeys.filter (fun k => !(k.1 != i)) = w.playerKeys.filter (·.1 == i) :=
    List.filter_congr fun k _ => by simp [bne]
  rw [hnot] at hsplit
  rw [entrants, entrants, playerKeys_removePlayer]
  cases hq : (w.get? i).bind Entity.player? with
  | none =>
    rw [hq] at heq
    have hnone : w.playerKeys.filter (·.1 == i) = [] := by
      refine List.filter_eq_nil_iff.2 fun k hk hki => ?_
      obtain ⟨e, he, hek⟩ := List.mem_filterMap.1 hk
      obtain ⟨p, hp, rfl⟩ := Option.map_eq_some_iff.1 hek
      rw [(hw.get?_eq_some_iff.2 ⟨he, (beq_iff_eq.1 hki)⟩), Option.bind_some, hp] at hq
      cases hq
    rw [hnone, List.append_nil] at hsplit
    rw [heq]
    exact (hsplit.map _).append_right _
  | some p =>
    obtain ⟨e, he, hp⟩ := Option.bind_eq_some_iff.1 hq
    rw [hq] at heq
    simp only [if_true] at heq
    obtain ⟨hmem, hid⟩ := get?_eq_some he
    have hone : w.playerKeys.filter (·.1 == i) = [(i, p.playerId, p.characterId, p.team)] := by
      have hkey : (i, p.playerId, p.characterId, p.team) ∈ w.playerKeys :=
        List.mem_filterMap.2 ⟨e, hmem, by simp [Entity.playerKey?, hp, hid]⟩
      exact filter_key_of_nodup (fun k : Nat × Int × Nat × Team => k.1)
        (hw.playerKeys_sorted.imp Nat.ne_of_lt) hkey
    rw [hone] at hsplit
    have hnorec := hb.not_mem_departed (mem_playerIds hmem hp)
    rw [heq]
    refine (((setDeparted_perm hnorec).map _).append_left _).trans ?_
    have hmove : (w.playerKeys.filter (·.1 != i)).map (·.2) ++ (p :: w.departed).map Player.key =
        (w.playerKeys.filter (·.1 != i) ++ [(i, p.playerId, p.characterId, p.team)]).map (·.2) ++
          w.departed.map Player.key := by
      simp [Player.key]
    rw [hmove]
    exact (hsplit.map _).append_right _

end World

/-! ## The books of a room -/

namespace Room

variable {r r' : Room} {e : Event} {out : TickOutput} {conn : Uuid} {now : Nat}

/-- A request that seats no player id twice: a join names a player id that no seat holds. -/
def SeatsOnce (r : Room) : Event → Prop
  | .join _ pid _ _ => ∀ s ∈ r.seats, s.playerId ≠ pid
  | _ => True

instance (r : Room) : ∀ e, Decidable (r.SeatsOnce e)
  | .join _ pid _ _ => inferInstanceAs (Decidable (∀ s ∈ r.seats, s.playerId ≠ pid))
  | .leave .. | .ready .. | .input .. | .step .. | .terminate .. => inferInstanceAs (Decidable True)

/-- At turn `t` a connection left the started game, and `p` is the player its entity held as it
left. -/
def Turn.Departs (t : Turn) (p : Player) : Prop :=
  ∃ conn now s x, t.event = .leave conn now ∧ t.before.status ≠ .waiting ∧
    t.before.seat? conn = some s ∧ t.before.world.get? s.entityId = some x ∧ x.player? = some p

/-- The books of a room: its seats agree with its world, and the world keeps its books. -/
structure Books (r : Room) : Prop where
  agree : r.SeatsAgree
  world : r.world.Books

/-- In a room that is not stopped the players' ids are the seats'. -/
theorem playerIds_of_agree (h : r.SeatsAgree) (hs : r.stopped = false) :
    r.world.playerIds = r.seats.map (·.playerId) := by
  rw [playerIds_eq, ← h.players hs, List.map_map]
  rfl

/-- A waiting room that is not stopped has its seats as its entrants. -/
theorem entrants_of_waiting (h : r.SeatsAgree) (hs : r.stopped = false)
    (hw : r.status = .waiting) :
    r.world.entrants = r.seats.map fun s => (s.playerId, s.characterId, s.team) := by
  rw [entrants, ← h.players hs, (h.waiting hw).2.2, List.map_nil, List.append_nil, List.map_map]
  rfl

/-! ## What a request does to the world -/

/-- A step of play changes the world by play, and credits kills fairly. -/
theorem simulate_plays {dt : Float32} (hw : r.world.Wf) (h : r.simulate dt now = .ok (out, r')) :
    Plays r.world r'.world ∧ Credits r.world r'.world := by
  obtain ⟨o, r₁, hres, -, -, -, hend⟩ := simulate_eq_ok h
  have hworld : r'.world = r₁.world := by
    rcases hend with ⟨-, -, rfl, -⟩ | ⟨-, rfl, -⟩ <;> rfl
  have hadv := plays_advance hw dt
  have pf := passFacts (hadv.wf hw) hres
  rw [hworld]
  exact ⟨hadv.trans hw ⟨pf.ages, pf.players⟩,
    (credits_advance hw dt).trans (credits_resolveCollisions (hadv.wf hw) hres)⟩

/-- Input changes no kills, scores or records. -/
theorem credits_handleInput (hw : r.world.Wf) {input : PlayerInput} {sp : List Nat}
    (hr : r.handleInput conn input now = .ok (sp, r')) : Credits r.world r'.world := by
  rcases handleInput_eq_ok hr with rfl | ⟨s, x, x', -, -, hx, -, hid, hk, hr'⟩
  · exact .refl _
  · have hu : Credits r.world (r.world.update s.entityId fun _ => x') := by
      refine credits_update fun y hy hyid => ?_
      obtain rfl := hw.eq_of_mem hy (get?_eq_some hx).1 (hyid.trans (get?_eq_some hx).2.symm)
      exact Entity.kills?_of_kind_eq hk
    rcases hr' with rfl | ⟨skill, target, rfl⟩
    · exact hu
    · exact hu.trans (credits_useSkill _ _ _)

/-- What a request does to the world, said once: nothing, spawn the player of a seat taken in a
waiting room, remove the player of a seat left, or play. -/
theorem react_world (h : r.SeatsAgree) (hr : r.react e = .ok (out, r')) :
    r'.world = r.world ∨
    (∃ conn pid cid now, e = .join conn pid cid now ∧ r.stopped = false ∧ r.status = .waiting ∧
      r'.world = (r.world.spawnPlayer (Player.fresh pid cid r.assignTeam playerMaxHealth)).2) ∨
    (∃ conn now s, e = .leave conn now ∧ r.seat? conn = some s ∧
      r'.world = (r.world.removePlayer s.entityId (r.status != .waiting)).2) ∨
    (Plays r.world r'.world ∧ Credits r.world r'.world) := by
  rcases react_cases hr with ⟨-, rfl⟩ | ⟨conn, pid, cid, now, rfl, -, -, ha, rfl⟩ |
      ⟨conn, now, s, rfl, -, hu⟩ | ⟨_, _, -, -, hs⟩ | ⟨_, _, _, _, -, -, hi⟩ |
      ⟨_, _, -, -, -, -, rfl⟩ | ⟨_, _, -, -, -, hs⟩ | ⟨_, -, -, -, rfl⟩
  · exact .inl rfl
  · obtain ⟨hstop, hwait, -⟩ := admits_eq_ok.1 ha
    exact .inr (.inl ⟨conn, pid, cid, now, rfl, hstop, hwait, rfl⟩)
  · obtain ⟨hs, rfl⟩ := unseat_eq_some.1 hu
    exact .inr (.inr (.inl ⟨conn, now, s, rfl, hs, rfl⟩))
  · obtain ⟨-, rfl⟩ := setReady_eq_ok.1 hs
    exact .inl rfl
  · exact .inr (.inr (.inr ⟨plays_handleInput h.wf hi, credits_handleInput h.wf hi⟩))
  · exact .inl checkReady_world
  · exact .inr (.inr (.inr (simulate_plays h.wf hs)))
  · exact .inl terminate_world

/-! ## One turn -/

namespace Books

theorem new (config : RoomConfig) (id : Uuid) (seed : UInt64) (now : Nat) :
    (Room.new config id seed now).Books :=
  ⟨.new config id seed now, World.Books.new _ _⟩

/-- A request that seats no player id twice keeps the books. -/
theorem react (hb : r.Books) (hone : r.SeatsOnce e) (hr : r.react e = .ok (out, r')) :
    r'.Books := by
  refine ⟨hb.agree.react hr, ?_⟩
  rcases react_world hb.agree hr with hw | ⟨conn, pid, cid, now, rfl, hstop, hwait, hw⟩ |
      ⟨conn, now, s, rfl, -, hw⟩ | ⟨hp, hc⟩
  · exact hw ▸ hb.world
  · rw [hw]
    refine hb.world.spawnPlayer ?_ ?_ rfl
    · rw [playerIds_of_agree hb.agree hstop]
      intro hin
      obtain ⟨s, hs, hsp⟩ := List.mem_map.1 hin
      exact hone s hs hsp
    · rw [(hb.agree.waiting hwait).2.2]
      exact nofun
  · rw [hw]
    exact hb.world.removePlayer hb.agree.wf _ _
  · exact hb.world.play hp hc

end Books

/-- Once the game has started, a request keeps everyone who entered it, present or departed. -/
theorem entrants_react (hb : r.Books) (hst : r.status ≠ .waiting)
    (hr : r.react e = .ok (out, r')) : r'.world.entrants.Perm r.world.entrants := by
  rcases react_world hb.agree hr with hw | ⟨_, _, _, _, -, -, hwait, -⟩ | ⟨_, _, s, -, -, hw⟩ |
      ⟨hp, hc⟩
  · rw [hw]
  · exact absurd hwait hst
  · rw [hw, bne_iff_ne.2 hst]
    exact entrants_removePlayer hb.world hb.agree.wf _
  · rw [entrants_of_plays hp hc.departed]

/-- The turn that starts the game keeps the seats and the world: the entrants are the seats. -/
theorem entrants_start (h : r.SeatsAgree) (hw : r.status = .waiting)
    (hp : r'.status = .playing) (hr : r.react e = .ok (out, r')) :
    r'.world.entrants = r'.seats.map fun s => (s.playerId, s.characterId, s.team) := by
  obtain ⟨⟨dt, now, hstep⟩, hs, -, -⟩ := (react_lawful h hr).starts.1 ⟨hw, hp⟩
  -- only a step of a waiting room that is not stopped starts the game
  dsimp only at hstep hs
  subst hstep
  rw [react, step_of_waiting hs hw] at hr
  obtain ⟨-, rfl⟩ := Prod.mk.inj (Except.pure_eq_ok.1 hr).symm
  rw [checkReady_world, checkReady_seats]
  exact entrants_of_waiting h hs hw

/-- A record after a request was there before, or is the player who left at it. -/
theorem departed_react (h : r.SeatsAgree) (hr : r.react e = .ok (out, r')) {p : Player}
    (hp : p ∈ r'.world.departed) : p ∈ r.world.departed ∨ Turn.Departs ⟨r, e, out, r'⟩ p := by
  rcases react_world h hr with hw | ⟨_, _, _, _, -, -, -, hw⟩ | ⟨conn, now, s, rfl, hs, hw⟩ |
      ⟨-, hc⟩
  · exact .inl (hw ▸ hp)
  · rw [hw, departed_spawnPlayer] at hp
    exact .inl hp
  · rw [hw] at hp
    rcases mem_departed_removePlayer hp with hp | ⟨hkeep, hq⟩
    · exact .inl hp
    · obtain ⟨x, hx, hxp⟩ := Option.bind_eq_some_iff.1 hq
      exact .inr ⟨conn, now, s, x, rfl, bne_iff_ne.1 hkeep, hs, hx, hxp⟩
  · exact .inl (hc.departed ▸ hp)

/-- A turn that ends the game is one of play, and sends the end of the room it leaves. -/
theorem ended_react {x : ServerMsg × MatchResult} (hr : r.react e = .ok (out, r'))
    (hx : out.ended = some x) : r.status = .playing ∧ ∃ reason stamp, x = r'.finish reason stamp := by
  rcases react_cases hr with ⟨rfl, -⟩ | ⟨_, _, _, _, -, rfl, -⟩ | ⟨_, _, _, -, rfl, -⟩ |
      ⟨_, _, -, rfl, -⟩ | ⟨_, _, _, _, -, rfl, -⟩ | ⟨_, _, -, -, -, rfl, -⟩ |
      ⟨dt, now, -, -, hp, hs⟩ | ⟨now, -, hs, rfl, rfl⟩
  all_goals try cases hx
  · obtain ⟨o, r₁, -, -, -, -, hend⟩ := simulate_eq_ok hs
    rcases hend with ⟨reason, -, -, hended⟩ | ⟨-, -, hnone⟩
    · rw [hended] at hx
      exact ⟨hp, reason, now, (Option.some.inj hx).symm⟩
    · rw [hnone] at hx
      cases hx
  · dsimp only at hx
    rw [terminate_of_running hs] at hx ⊢
    split at hx
    · exact ⟨‹_›, .terminated, now, (Option.some.inj hx).symm⟩
    · cases hx

/-! ## A run -/

/-- Along a run whose requests seat no player id twice, every room keeps its books. -/
theorem Books.runEvents (hb : r.Books) {es : List Event} {turns : List Turn}
    (h : r.runEvents es = .ok (turns, r')) (hone : ∀ t ∈ turns, t.before.SeatsOnce t.event) :
    ∀ t ∈ turns, t.before.Books := by
  induction es generalizing r turns with
  | nil =>
    obtain ⟨rfl, -⟩ := runEvents_nil_eq_ok.1 h
    simp
  | cons e es ih =>
    obtain ⟨out, r₁, turns', h₁, h₂, rfl⟩ := runEvents_cons_eq_ok.1 h
    have ih := ih (hb.react (hone _ List.mem_cons_self) h₁) h₂
      fun t ht => hone t (List.mem_cons_of_mem _ ht)
    intro t ht
    rcases List.mem_cons.1 ht with rfl | ht
    · exact hb
    · exact ih t ht

/-- Along a run whose requests seat no player id twice, a room in play has as entrants those of
the room the run began with, if that was in play already, or else the seats of the start the run
made. -/
theorem entrants_runEvents (hb : r.Books) {es : List Event} {turns : List Turn}
    (h : r.runEvents es = .ok (turns, r')) (hone : ∀ t ∈ turns, t.before.SeatsOnce t.event) :
    ∀ t ∈ turns, t.before.status = .playing →
      (r.status = .playing ∧ t.before.world.entrants.Perm r.world.entrants) ∨
      ∃ t₀ ∈ turns, t₀.before.status = .waiting ∧ t₀.after.status = .playing ∧
        t.before.world.entrants.Perm
          (t₀.after.seats.map fun s => (s.playerId, s.characterId, s.team)) := by
  induction es generalizing r turns with
  | nil =>
    obtain ⟨rfl, -⟩ := runEvents_nil_eq_ok.1 h
    simp
  | cons e es ih =>
    obtain ⟨out, r₁, turns', h₁, h₂, rfl⟩ := runEvents_cons_eq_ok.1 h
    have ih := ih (hb.react (hone _ List.mem_cons_self) h₁) h₂
      fun t ht => hone t (List.mem_cons_of_mem _ ht)
    intro t ht hplay
    rcases List.mem_cons.1 ht with rfl | ht
    · exact .inl ⟨hplay, .refl _⟩
    rcases ih t ht hplay with ⟨hp₁, hperm⟩ | ⟨t₀, ht₀, hstart⟩
    · by_cases hp : r.status = .playing
      · exact .inl ⟨hp, hperm.trans (entrants_react hb (by simp [hp]) h₁)⟩
      · -- the status never moves back, so the game started at this turn
        have hfwd : r.status.rank ≤ r₁.status.rank := (react_lawful hb.agree h₁).forward
        rw [hp₁] at hfwd
        have hw := RoomStatus.eq_waiting_of_rank_le hfwd hp
        refine .inr ⟨⟨r, e, out, r₁⟩, List.mem_cons_self, hw, hp₁, ?_⟩
        rw [← entrants_start hb.agree hw hp₁ h₁]
        exact hperm
    · exact .inr ⟨t₀, List.mem_cons_of_mem _ ht₀, hstart⟩

/-- Along a run, a record was there when the run began, or is the player who left at a turn. -/
theorem departed_runEvents (hr : r.SeatsAgree) {es : List Event} {turns : List Turn}
    (h : r.runEvents es = .ok (turns, r')) :
    ∀ t ∈ turns, ∀ p ∈ t.after.world.departed,
      p ∈ r.world.departed ∨ ∃ t' ∈ turns, t'.Departs p := by
  induction es generalizing r turns with
  | nil =>
    obtain ⟨rfl, -⟩ := runEvents_nil_eq_ok.1 h
    simp
  | cons e es ih =>
    obtain ⟨out, r₁, turns', h₁, h₂, rfl⟩ := runEvents_cons_eq_ok.1 h
    have ih := ih (hr.react h₁) h₂
    have hfirst : ∀ p ∈ r₁.world.departed, p ∈ r.world.departed ∨
        ∃ t' ∈ (⟨r, e, out, r₁⟩ :: turns' : List Turn), t'.Departs p := fun p hp =>
      (departed_react hr h₁ hp).imp_right fun hd => ⟨_, List.mem_cons_self, hd⟩
    intro t ht p hp
    rcases List.mem_cons.1 ht with rfl | ht
    · exact hfirst p hp
    · rcases ih t ht p hp with hp₁ | ⟨t', ht', hd⟩
      · exact hfirst p hp₁
      · exact .inr ⟨t', List.mem_cons_of_mem _ ht', hd⟩

/-- In a run from a new room, each score is its player's kills, and a game that ends sends one
tally per starting seat, best score first, each scoring its kills. -/
theorem runEvents_scores_tallies {config : RoomConfig} {id : Uuid} {seed : UInt64} {now : Nat}
    {es : List Event} {turns : List Turn}
    (h : (Room.new config id seed now).runEvents es = .ok (turns, r'))
    (hone : ∀ t ∈ turns, t.before.SeatsOnce t.event) :
    ∀ t ∈ turns, t.after.world.ScoreLaw ∧
      ∀ x, t.out.ended = some x →
        (∃ reason stamp, x = t.after.finish reason stamp) ∧
        (∃ t₀ ∈ turns, t₀.before.status = .waiting ∧ t₀.after.status = .playing ∧
          (t.after.world.tallies.map fun y => (y.playerId, y.characterId, y.team)).Perm
            (t₀.after.seats.map fun s => (s.playerId, s.characterId, s.team))) ∧
        t.after.world.tallies.Pairwise PlayerTally.InOrder ∧
        ∀ y ∈ t.after.world.tallies, y.score = y.kills ∧
          ((∃ ep ∈ t.after.world.players, y = t.after.world.tallyOf ep.2) ∨
            ∃ p, (∃ t' ∈ turns, t'.Departs p) ∧ y = t.after.world.tallyOf p) := by
  have hb₀ := Books.new config id seed now
  intro t ht
  have hr := react_of_mem_runEvents h t ht
  have hb := hb₀.runEvents h hone t ht
  have hb' := hb.react (hone t ht) hr
  refine ⟨hb'.world.law, fun x hx => ?_⟩
  obtain ⟨hplay, hfin⟩ := ended_react hr hx
  refine ⟨hfin, ?_, tallies_sorted _, fun y hy => ?_⟩
  · -- a new room waits, so the game in play was started by the run
    rcases entrants_runEvents hb₀ h hone t ht hplay with ⟨hnew, -⟩ | ⟨t₀, ht₀, hw, hp, hperm⟩
    · cases hnew
    · exact ⟨t₀, ht₀, hw, hp, (tallies_keys_perm _).trans
        ((entrants_react hb (by simp [hplay]) hr).trans hperm)⟩
  · obtain ⟨hscore, hy⟩ := hb'.world.tally hb'.agree.wf hy
    rcases hy with hy | ⟨p, hp, hyp⟩
    · exact ⟨hscore, .inl hy⟩
    rcases departed_runEvents hb₀.agree h t ht p hp with hnew | hdep
    · cases hnew
    · exact ⟨hscore, .inr ⟨p, hdep, hyp⟩⟩

/-- Three players join a new deathmatch room and get ready, a step starts the game, the third
player leaves and the room is terminated: the end lists all three, the one who left included. -/
theorem runEvents_scores_tallies_departed :
    let r₀ := Room.new (RoomConfig.new "arena" .deathMatch) ⟨0⟩ 0 0
    let es : List Event := [.join ⟨1⟩ 7 1 0, .join ⟨2⟩ 8 1 0, .join ⟨3⟩ 9 2 0, .ready ⟨1⟩ true,
      .ready ⟨2⟩ true, .ready ⟨3⟩ true, .step 0.5 0, .leave ⟨3⟩ 1, .terminate 2]
    ∃ turns r', r₀.runEvents es = .ok (turns, r') ∧
      (turns.filterMap (·.out.ended)).map (fun x => x.2.players.map (·.playerId)) = [[7, 8, 9]] ∧
      (∀ t ∈ turns, t.before.SeatsOnce t.event) ∧
      ∀ t ∈ turns, t.after.world.ScoreLaw ∧
        ∀ x, t.out.ended = some x →
          (∃ reason stamp, x = t.after.finish reason stamp) ∧
          (∃ t₀ ∈ turns, t₀.before.status = .waiting ∧ t₀.after.status = .playing ∧
            (t.after.world.tallies.map fun y => (y.playerId, y.characterId, y.team)).Perm
              (t₀.after.seats.map fun s => (s.playerId, s.characterId, s.team))) ∧
          t.after.world.tallies.Pairwise PlayerTally.InOrder ∧
          ∀ y ∈ t.after.world.tallies, y.score = y.kills ∧
            ((∃ ep ∈ t.after.world.players, y = t.after.world.tallyOf ep.2) ∨
              ∃ p, (∃ t' ∈ turns, t'.Departs p) ∧ y = t.after.world.tallyOf p) := by
  intro r₀ es
  obtain ⟨turns, r', h⟩ : ∃ turns r', r₀.runEvents es = .ok (turns, r') :=
    ⟨_, _, by simp only [r₀, es]; rfl⟩
  have hout : (r₀.runEvents es).map (fun x =>
      ((x.1.filterMap (·.out.ended)).map (fun x => x.2.players.map (·.playerId)),
        decide (∀ t ∈ x.1, t.before.SeatsOnce t.event))) = .ok ([[7, 8, 9]], true) := by
    simp only [r₀, es]; rfl
  rw [h] at hout
  simp only [Except.map, Except.ok.injEq, Prod.mk.injEq, decide_eq_true_eq] at hout
  exact ⟨turns, r', h, hout.1, hout.2, runEvents_scores_tallies h hout.2⟩

end Room

end Skirmish
