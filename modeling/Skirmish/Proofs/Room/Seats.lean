import Skirmish.Proofs.Combat.Hits
import Skirmish.Proofs.Room.Events

/-!
# Seats and players

While a room is not stopped, its seats and the player entities of its world are in step: the
seats, in join order, name the player entities of the world, in entity order, each with its
player, character and team (`seats_match_players`). Taking a seat spawns the player at the next
entity id, leaving removes it, and nothing else adds or removes a player: play keeps the players
of a world (`World.Plays`), and a collision pass removes only projectiles.

The invariant `Room.SeatsAgree` carries this through every request, together with what the
requests need of it: the world is well formed, no connection holds two seats, the seats do not
outnumber the room's limit, and a waiting room holds only players, no score above zero and no
departed player.
-/

namespace Skirmish

open World

/-- The key of a seat: the entity it names, and its player, character and team. -/
def Seat.key (s : Seat) : Nat × Int × Nat × Team := (s.entityId, s.playerId, s.characterId, s.team)

/-! ## Player keys through seating and unseating -/

theorem Entity.playerKey?_fst {e : Entity} {k : Nat × Int × Nat × Team}
    (h : e.playerKey? = some k) : k.1 = e.id := by
  unfold Entity.playerKey? at h
  obtain ⟨p, -, rfl⟩ := Option.map_eq_some_iff.1 h
  rfl

theorem filterMap_playerKey?_fst_sublist (es : List Entity) :
    List.Sublist ((es.filterMap Entity.playerKey?).map (·.1)) (es.map (·.id)) := by
  induction es with
  | nil => simp
  | cons e rest ih =>
    cases hk : e.playerKey? with
    | none =>
      rw [List.filterMap_cons_none hk, List.map_cons]
      exact ih.cons _
    | some k =>
      rw [List.filterMap_cons_some hk, List.map_cons, List.map_cons, Entity.playerKey?_fst hk]
      exact ih.cons_cons _

/-- Removing the entities with an id removes the player key with that id. -/
theorem filterMap_playerKey?_filter_id (es : List Entity) (i : Nat) :
    (es.filter (·.id != i)).filterMap Entity.playerKey? =
      (es.filterMap Entity.playerKey?).filter (·.1 != i) := by
  induction es with
  | nil => rfl
  | cons e rest ih =>
    cases hk : e.playerKey? with
    | none =>
      by_cases he : e.id = i <;> simp [hk, he, ih]
    | some k =>
      have hfst := Entity.playerKey?_fst hk
      by_cases he : e.id = i <;> simp [hk, he, ih, hfst]

namespace World

variable {w : World}

/-- The player ids of a well-formed world increase with entity order. -/
theorem Wf.playerKeys_sorted (hw : w.Wf) : (w.playerKeys.map (·.1)).Pairwise (· < ·) :=
  hw.sorted.sublist (filterMap_playerKey?_fst_sublist w.entities)

theorem playerKeys_spawnPlayer (p : Player) :
    (w.spawnPlayer p).2.playerKeys =
      w.playerKeys ++ [(w.nextEntityId, p.playerId, p.characterId, p.team)] := by
  rw [spawnPlayer_eq]
  simp [playerKeys, Entity.playerKey?, Entity.fresh, Entity.player?]

theorem playerKeys_removePlayer (i : Nat) (keep : Bool) :
    (w.removePlayer i keep).2.playerKeys = w.playerKeys.filter (·.1 != i) := by
  have hent : (w.removePlayer i keep).2.entities = w.entities.filter (·.id != i) := by
    rw [removePlayer_eq]
    split
    · split <;> rfl
    · rfl
  rw [playerKeys, hent, filterMap_playerKey?_filter_id]
  rfl

end World

theorem mem_setSorted {β : Type} {k : Int} {v : β} {l : List (Int × β)} {x : Int × β}
    (h : x ∈ setSorted k v l) : x = (k, v) ∨ x ∈ l := by
  induction l with
  | nil => simpa [setSorted] using h
  | cons y rest ih =>
    unfold setSorted at h
    split_ifs at h with h₁ h₂
    · rcases List.mem_cons.1 h with h | h
      · exact .inl h
      · exact .inr (List.mem_cons_of_mem _ h)
    · simpa using h
    · rcases List.mem_cons.1 h with h | h
      · exact .inr (h ▸ List.mem_cons_self)
      · exact (ih h).imp id (List.mem_cons_of_mem _)

/-! ## Looking up seats -/

namespace Room

variable {r r' : Room} {conn : Uuid} {now : Nat}

theorem seat?_eq_none_iff : r.seat? conn = none ↔ ∀ s ∈ r.seats, s.connection ≠ conn := by
  simp [seat?]

theorem seat?_eq_some {s : Seat} (h : r.seat? conn = some s) : s ∈ r.seats ∧ s.connection = conn :=
  ⟨List.mem_of_find?_eq_some h, by simpa using List.find?_some h⟩

/-- A room admits a seat while it is not stopped, waiting, and not full. -/
theorem admits_eq_ok :
    r.admits = .ok () ↔ r.stopped = false ∧ r.status = .waiting ∧ r.seats.length < r.maxPlayers := by
  unfold admits
  by_cases hs : r.stopped = true
  · simp [hs, throw, throwThe, MonadExceptOf.throw]
  · by_cases hw : r.status = .waiting
    · by_cases hm : r.maxPlayers ≤ r.seats.length
      · simp [hs, hw, hm, throw, throwThe, MonadExceptOf.throw]
      · simp [hs, hw, Nat.lt_of_not_le hm, pure, Except.pure]
    · simp [hs, hw, throw, throwThe, MonadExceptOf.throw]

/-- Input changes the world by play: the player's entity turns and moves, and may fire. -/
theorem plays_handleInput (hw : r.world.Wf) {input : PlayerInput} {sp : List Nat}
    (hr : r.handleInput conn input now = .ok (sp, r')) : Plays r.world r'.world := by
  rcases handleInput_eq_ok hr with rfl | ⟨s, e, e', -, -, he, -, hid, hk, hr'⟩
  · exact .refl _
  · have hu : Plays r.world (r.world.update s.entityId fun _ => e') := by
      refine plays_update fun x hx hxid => ?_
      obtain rfl := hw.eq_of_mem hx (get?_eq_some he).1 (hxid.trans (get?_eq_some he).2.symm)
      exact .of_kind_eq hid hk
    rcases hr' with rfl | ⟨skill, target, rfl⟩
    · exact hu
    · exact hu.trans hw (plays_useSkill (hu.wf hw) _ _ _)

/-! ## The invariant -/

/-- The seats of a room and the players of its world agree while it is not stopped, with what the
requests need to keep it so. -/
structure SeatsAgree (r : Room) : Prop where
  wf : r.world.Wf
  players : r.stopped = false → r.seats.map Seat.key = r.world.playerKeys
  conns : (r.seats.map (·.connection)).Nodup
  bound : r.seats.length ≤ r.maxPlayers
  waiting : r.status = .waiting → (∀ e ∈ r.world.entities, (e.player?).isSome) ∧
    (∀ x ∈ r.world.scores, x.2 = 0) ∧ r.world.departed = []

namespace SeatsAgree

theorem new (config : RoomConfig) (id : Uuid) (seed : UInt64) (now : Nat) :
    (Room.new config id seed now).SeatsAgree :=
  ⟨wf_new _ _, fun _ => rfl, List.nodup_nil, Nat.zero_le _,
    fun _ => ⟨by simp [Room.new, World.new], by simp [Room.new, World.new], rfl⟩⟩

/-- The seats' entity ids increase in join order. -/
theorem sorted (h : r.SeatsAgree) (hs : r.stopped = false) :
    (r.seats.map (·.entityId)).Pairwise (· < ·) := by
  have := h.wf.playerKeys_sorted
  rw [← h.players hs, List.map_map] at this
  exact this

/-- Taking a seat adds the seat and its player at the end. -/
theorem seatPlayer (h : r.SeatsAgree) (hnew : r.seat? conn = none) (ha : r.admits = .ok ())
    (pid : Int) (cid : Nat) : (r.seatPlayer conn pid cid now).2.SeatsAgree := by
  obtain ⟨hstop, hwait, hlt⟩ := admits_eq_ok.1 ha
  rw [seatPlayer_eq]
  refine ⟨(ages_spawnPlayer h.wf _).wf h.wf, fun _ => ?_, ?_, ?_, fun _ => ?_⟩
  · simp only [List.map_append, List.map_singleton, playerKeys_spawnPlayer, h.players hstop]
    rfl
  · simp only [List.map_append, List.map_singleton]
    refine List.nodup_append.2 ⟨h.conns, List.nodup_singleton _, ?_⟩
    intro a ha b hb hab
    obtain ⟨s, hs, rfl⟩ := List.mem_map.1 ha
    rw [List.mem_singleton.1 hb] at hab
    exact seat?_eq_none_iff.1 hnew s hs hab
  · simp only [List.length_append, List.length_singleton]
    omega
  · obtain ⟨hent, hsc, hdep⟩ := h.waiting hwait
    rw [spawnPlayer_eq]
    refine ⟨fun e he => ?_, fun x hx => ?_, hdep⟩
    · rcases List.mem_append.1 he with he | he
      · exact hent e he
      · rw [List.mem_singleton.1 he]
        rfl
    · split at hx
      · exact hsc x hx
      · rcases mem_setSorted hx with rfl | hx
        · rfl
        · exact hsc x hx

/-- Leaving takes away the one seat of the connection and its player. -/
theorem unseat (h : r.SeatsAgree) {s : Seat} (hu : r.unseat conn now = some (s, r')) :
    r'.SeatsAgree := by
  obtain ⟨hs, rfl⟩ := unseat_eq_some.1 hu
  obtain ⟨hsm, hsc⟩ := seat?_eq_some hs
  refine ⟨(ages_removePlayer _ _).wf h.wf, fun hstop => ?_,
    h.conns.sublist (List.filter_sublist.map _),
    Nat.le_trans (List.length_filter_le _ _) h.bound, fun hw => ?_⟩
  · rw [playerKeys_removePlayer, ← h.players hstop, List.filter_map]
    congr 1
    refine List.filter_congr fun x hx => ?_
    have hids := (h.sorted hstop).imp Nat.ne_of_lt
    have hx' : x.connection = conn ↔ x.entityId = s.entityId := by
      constructor
      · intro hc
        rw [List.inj_on_of_nodup_map h.conns hx hsm (hc.trans hsc.symm)]
      · intro he
        rw [List.inj_on_of_nodup_map hids hx hsm he, hsc]
    show (x.connection != conn) = (x.entityId != s.entityId)
    by_cases hc : x.connection = conn
    · simp [hc, hx'.1 hc]
    · rw [bne_iff_ne.2 hc, bne_iff_ne.2 (mt hx'.2 hc)]
  · have hw : r.status = .waiting := hw
    obtain ⟨hent, hsc, hdep⟩ := h.waiting hw
    have hkeep : (r.status != .waiting) = false := by simp [hw]
    rw [hkeep, removePlayer_eq]
    split
    · exact ⟨fun e he => hent e (List.mem_of_mem_filter he),
        fun x hx => hsc x (List.mem_of_mem_filter hx), hdep⟩
    · exact ⟨fun e he => hent e (List.mem_of_mem_filter he), hsc, hdep⟩

/-- A ready state changes no seat's key or connection. -/
theorem setReady (h : r.SeatsAgree) {b : Bool} (hr : r.setReady conn b = .ok r') :
    r'.SeatsAgree := by
  obtain ⟨-, rfl⟩ := setReady_eq_ok.1 hr
  have hmap : ∀ {β : Type} (f : Seat → β), (∀ s b', f { s with ready := b' } = f s) →
      (r.seats.map fun s => if s.connection = conn then { s with ready := b } else s).map f =
        r.seats.map f := by
    intro β f hf
    rw [List.map_map]
    refine List.map_congr_left fun s _ => ?_
    simp only [Function.comp_apply]
    split
    · exact hf s b
    · rfl
  refine ⟨h.wf, fun hs => ?_, ?_, ?_, h.waiting⟩
  · rw [hmap Seat.key fun _ _ => rfl]
    exact h.players hs
  · rw [hmap (·.connection) fun _ _ => rfl]
    exact h.conns
  · simpa using h.bound

/-- Input changes only the world, by play. -/
theorem handleInput (h : r.SeatsAgree) {input : PlayerInput} {sp : List Nat}
    (hr : r.handleInput conn input now = .ok (sp, r')) : r'.SeatsAgree := by
  have hp := plays_handleInput h.wf hr
  rcases handleInput_eq_ok hr with rfl | ⟨s, e, e', -, hplay, -, -, -, -, hr'⟩
  · exact h
  · have hr'' : r' = { r with world := r'.world, lastActivity := now } := by
      rcases hr' with rfl | ⟨skill, target, rfl⟩ <;> rfl
    rw [hr'']
    refine ⟨hp.wf h.wf, fun hs => hp.players ▸ h.players hs, h.conns, h.bound, fun hw => ?_⟩
    rw [hplay] at hw
    cases hw

/-- A step starts the game, plays, or changes nothing; play keeps the players of the world. -/
theorem step (h : r.SeatsAgree) {dt : Float32} {out : TickOutput}
    (hr : r.step dt now = .ok (out, r')) : r'.SeatsAgree := by
  cases hs : r.stopped with
  | true =>
    rw [step_of_stopped hs] at hr
    obtain ⟨-, rfl⟩ := Prod.mk.inj (Except.pure_eq_ok.1 hr).symm
    exact h
  | false =>
    cases hst : r.status with
    | waiting =>
      rw [step_of_waiting hs hst] at hr
      obtain ⟨-, rfl⟩ := Prod.mk.inj (Except.pure_eq_ok.1 hr).symm
      by_cases hq : minPlayersToStart ≤ r.seats.length ∧ r.seats.all (·.ready) = true
      · rw [checkReady_of_quorum hst hq.1 hq.2]
        exact ⟨h.wf, h.players, h.conns, h.bound, fun hw => by cases hw⟩
      · rw [checkReady_of_not_quorum hq]
        exact h
    | playing =>
      rw [step_of_playing hs hst] at hr
      obtain ⟨o, r₁, hres, hr₁, -, -, hend⟩ := simulate_eq_ok hr
      have hadv := plays_advance h.wf dt
      have pf := passFacts (hadv.wf h.wf) hres
      have hp : Plays r.world r₁.world := hadv.trans h.wf ⟨pf.ages, pf.players⟩
      have h₁ : r₁.SeatsAgree := by
        rw [hr₁]
        refine ⟨hp.wf h.wf, fun hs' => hp.players ▸ h.players hs', h.conns, h.bound,
          fun hw => ?_⟩
        rw [hst] at hw
        cases hw
      rcases hend with ⟨-, -, rfl, -⟩ | ⟨-, rfl, -⟩
      · exact ⟨h₁.wf, h₁.players, h₁.conns, h₁.bound, fun hw => by cases hw⟩
      · exact h₁
    | ended =>
      rw [step_of_ended hs hst] at hr
      obtain ⟨-, rfl⟩ := Prod.mk.inj (Except.pure_eq_ok.1 hr).symm
      exact h

/-- The end releases every seat and stops the room. -/
theorem terminate (h : r.SeatsAgree) : (r.terminate now).2.SeatsAgree := by
  cases hs : r.stopped with
  | true =>
    rw [terminate_of_stopped hs]
    exact h
  | false =>
    rw [terminate_of_running hs]
    exact ⟨h.wf, (fun hs' => by simp at hs'), List.nodup_nil, Nat.zero_le _,
      (fun hw => by simp at hw)⟩

/-- Every request keeps the invariant. -/
theorem react (h : r.SeatsAgree) {e : Event} {out : TickOutput} (hr : r.react e = .ok (out, r')) :
    r'.SeatsAgree := by
  cases e with
  | join conn pid cid now =>
    obtain ⟨-, rfl⟩ := Prod.mk.inj (Except.pure_eq_ok.1 hr).symm
    split
    · exact h
    · rename_i hnew
      split
      · exact h.seatPlayer (Option.not_isSome_iff_eq_none.1 hnew) ‹_› pid cid
      · exact h
  | leave conn now =>
    obtain ⟨-, rfl⟩ := Prod.mk.inj (Except.pure_eq_ok.1 hr).symm
    split
    · exact h.unseat ‹_›
    · exact h
  | ready conn b =>
    obtain ⟨-, rfl⟩ := Prod.mk.inj (Except.pure_eq_ok.1 hr).symm
    split
    · exact h.setReady ‹_›
    · exact h
  | input conn i now =>
    obtain ⟨-, rfl⟩ := Prod.mk.inj (Except.pure_eq_ok.1 hr).symm
    split
    · exact h.handleInput ‹_›
    · exact h
  | step dt now => exact h.step hr
  | terminate now =>
    obtain ⟨-, rfl⟩ := Prod.mk.inj (Except.pure_eq_ok.1 hr).symm
    exact h.terminate

end SeatsAgree

theorem Reachable.seatsAgree (h : r.Reachable) : r.SeatsAgree := by
  induction h with
  | new config id seed now => exact .new config id seed now
  | react _ hr ih => exact ih.react hr

/-- In every room that is not stopped, the seats name the player entities in order, no entity
twice and within the room's limit; a waiting room holds only players, no score and no departed
player. -/
theorem seats_match_players (hr : r.Reachable) (hs : r.stopped = false) :
    r.seats.map (fun s => (s.entityId, s.playerId, s.characterId, s.team)) =
      r.world.players.map (fun ep => (ep.1.id, ep.2.playerId, ep.2.characterId, ep.2.team)) ∧
    (r.seats.map (·.entityId)).Nodup ∧
    r.seats.length ≤ r.maxPlayers ∧
    (r.status = .waiting → (∀ e ∈ r.world.entities, ∃ p, e.player? = some p) ∧
      (∀ x ∈ r.world.scores, x.2 = 0) ∧ r.world.departed = []) := by
  have h := hr.seatsAgree
  refine ⟨?_, (h.sorted hs).imp Nat.ne_of_lt, h.bound, fun hw => ?_⟩
  · rw [← playerKeys_eq_players, ← h.players hs]
    rfl
  · obtain ⟨hent, hsc, hdep⟩ := h.waiting hw
    exact ⟨fun e he => Option.isSome_iff_exists.1 (hent e he), hsc, hdep⟩

/-- Three players join a new deathmatch room and the second leaves before the game: the waiting
room keeps two seats, and the player who left leaves no record. -/
theorem seats_match_players_left :
    let r₀ := Room.new (RoomConfig.new "arena" .deathMatch) ⟨0⟩ 0 0
    let es : List Event := [.join ⟨1⟩ 7 1 0, .join ⟨2⟩ 8 1 0, .join ⟨3⟩ 9 2 0, .leave ⟨2⟩ 1]
    ∃ turns r, r₀.runEvents es = .ok (turns, r) ∧ r.Reachable ∧ r.stopped = false ∧
      r.status = .waiting ∧ r.seats.length = 2 ∧
      r.seats.map (fun s => (s.entityId, s.playerId, s.characterId, s.team)) =
        r.world.players.map (fun ep => (ep.1.id, ep.2.playerId, ep.2.characterId, ep.2.team)) ∧
      (r.seats.map (·.entityId)).Nodup ∧
      r.seats.length ≤ r.maxPlayers ∧
      (r.status = .waiting → (∀ e ∈ r.world.entities, ∃ p, e.player? = some p) ∧
        (∀ x ∈ r.world.scores, x.2 = 0) ∧ r.world.departed = []) := by
  intro r₀ es
  obtain ⟨turns, r, h⟩ : ∃ turns r, r₀.runEvents es = .ok (turns, r) :=
    ⟨_, _, by simp only [r₀, es]; rfl⟩
  have hout : (r₀.runEvents es).map (fun x => (x.2.stopped, x.2.status, x.2.seats.length)) =
      .ok (false, .waiting, 2) := by
    simp only [r₀, es]; rfl
  rw [h] at hout
  simp only [Except.map, Except.ok.injEq, Prod.mk.injEq] at hout
  obtain ⟨hs, hw, hn⟩ := hout
  have hr := ((Reachable.new _ _ _ _).runEvents h).2
  exact ⟨turns, r, h, hr, hs, hw, hn, seats_match_players hr hs⟩

end Room

end Skirmish
