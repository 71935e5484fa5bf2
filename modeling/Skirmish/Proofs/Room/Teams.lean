import Skirmish.Proofs.Room.Joins

/-!
# Teams

A room without teams puts every seat on no team; a team-based room puts a new seat on the
smaller team, red on a tie (`assignTeam_eq`). Counted over the seats in join order
(`Room.teams`), a join therefore takes the gap between the teams from `0` to `1`, and otherwise
one seat closer to `0` (`teamGap_seatPlayer`).

Only joins and departures change the teams that hold seats: a ready state, input and play keep
every seat, and the end releases them all and stops the room (`react_seats`). So in a run that
nobody leaves, the seats of a team-based room stay red, blue, red, … in join order
(`Team.alternating`), and red is never behind blue nor more than one seat ahead. A seat keeps
its team while its connection stays, and holds the team of its player (`runEvents_teams`).
-/

namespace Skirmish

/-- Red and blue in turn, red first. -/
def Team.alternating (n : Nat) : List Team :=
  (List.range n).map fun i => if i % 2 = 0 then .red else .blue

example : Team.alternating 4 = [.red, .blue, .red, .blue] := by decide

theorem Team.alternating_succ (n : Nat) :
    Team.alternating (n + 1) = Team.alternating n ++ [if n % 2 = 0 then .red else .blue] := by
  simp [Team.alternating, List.range_succ]

/-- Red holds the odd seat of alternating teams. -/
theorem Team.count_alternating (n : Nat) :
    (Team.alternating n).count .red = (n + 1) / 2 ∧ (Team.alternating n).count .blue = n / 2 := by
  induction n with
  | zero => simp [Team.alternating]
  | succ n ih =>
    obtain ⟨hr, hb⟩ := ih
    rw [Team.alternating_succ, List.count_append, List.count_append, hr, hb]
    by_cases h : n % 2 = 0 <;> simp [h] <;> omega

namespace Room

variable {r r' : Room} {e : Event} {out : TickOutput}

/-- The teams of the seats, in join order. -/
def teams (r : Room) : List Team := r.seats.map (·.team)

/-- How many seats one team holds more than the other. -/
def teamGap (r : Room) : Nat := ((r.teams.count .red : Int) - r.teams.count .blue).natAbs

theorem count_teams (r : Room) (t : Team) :
    r.teams.count t = (r.seats.filter (·.team == t)).length := by
  rw [teams, List.count, List.countP_map, List.countP_eq_length_filter]
  rfl

/-- A new seat goes to no team in a room without teams, else to the smaller team, red on a
tie. -/
theorem assignTeam_eq (r : Room) : r.assignTeam =
    if r.mode.isTeamBased then (if r.teams.count .red ≤ r.teams.count .blue then .red else .blue)
    else .none := by
  rw [count_teams, count_teams]
  unfold assignTeam
  cases r.mode.isTeamBased <;> rfl

@[simp] theorem teams_seatPlayer (conn : Uuid) (pid : Int) (cid now : Nat) :
    (r.seatPlayer conn pid cid now).2.teams = r.teams ++ [r.assignTeam] := by
  simp [seatPlayer_eq, teams]

/-- In a team-based room a join takes the gap between the teams from `0` to `1`, and otherwise
one seat closer to `0`. -/
theorem teamGap_seatPlayer (ht : r.mode.isTeamBased = true) (conn : Uuid) (pid : Int)
    (cid now : Nat) :
    (r.seatPlayer conn pid cid now).2.teamGap = if r.teamGap = 0 then 1 else r.teamGap - 1 := by
  unfold teamGap
  rw [teams_seatPlayer, List.count_append, List.count_append, assignTeam_eq, if_pos ht]
  generalize r.teams.count .red = a, r.teams.count .blue = b
  by_cases hab : a ≤ b
  · rw [if_pos hab, show [Team.red].count .red = 1 from rfl,
      show [Team.red].count .blue = 0 from rfl]
    split_ifs <;> omega
  · rw [if_neg hab, show [Team.blue].count .red = 0 from rfl,
      show [Team.blue].count .blue = 1 from rfl]
    split_ifs <;> omega

/-- Setting a ready state keeps every other field of every seat. -/
theorem map_setReady {β : Type} (g : Seat → β) (hg : ∀ s b, g { s with ready := b } = g s)
    (seats : List Seat) (conn : Uuid) (b : Bool) :
    (seats.map fun s => if s.connection = conn then { s with ready := b } else s).map g =
      seats.map g := by
  rw [List.map_map]
  refine List.map_congr_left fun s _ => ?_
  simp only [Function.comp_apply]
  split
  · exact hg s b
  · rfl

theorem checkReady_stopped (now : Nat) : (r.checkReady now).2.stopped = r.stopped := by
  unfold checkReady
  split <;> rfl

/-- What a request does to the seats, said once: it keeps them, or sets one connection's ready
state; an admitted join adds a seat at the end; a departure takes the leaver's seat away; or the
end releases every seat and stops the room. Nothing else stops a room. -/
theorem react_seats (h : r.react e = .ok (out, r')) :
    (r'.seats = r.seats ∧ r'.stopped = r.stopped) ∨
    (∃ conn b, r'.seats = r.seats.map (fun s => if s.connection = conn then { s with ready := b }
        else s) ∧ r'.stopped = r.stopped) ∨
    (∃ conn pid cid now, e = .join conn pid cid now ∧ r.seat? conn = none ∧ r.admits = .ok () ∧
      r' = (r.seatPlayer conn pid cid now).2) ∨
    (∃ conn now s, e = .leave conn now ∧ r.unseat conn now = some (s, r')) ∨
    (r'.seats = [] ∧ r'.stopped = true) := by
  rcases react_cases h with ⟨-, rfl⟩ | ⟨conn, pid, cid, now, he, -, hn, ha, rfl⟩ |
    ⟨conn, now, s, he, -, hu⟩ | ⟨conn, b, -, -, hr⟩ | ⟨conn, i, now, sp, -, -, hr⟩ |
    ⟨dt, now, -, -, -, -, rfl⟩ | ⟨dt, now, -, -, -, hr⟩ | ⟨now, -, hs, -, rfl⟩
  · exact .inl ⟨rfl, rfl⟩
  · exact .inr (.inr (.inl ⟨conn, pid, cid, now, he, hn, ha, rfl⟩))
  · exact .inr (.inr (.inr (.inl ⟨conn, now, s, he, hu⟩)))
  · obtain ⟨-, rfl⟩ := setReady_eq_ok.1 hr
    exact .inr (.inl ⟨conn, b, rfl, rfl⟩)
  · rcases handleInput_eq_ok hr with rfl | ⟨-, -, -, -, -, -, -, -, -, rfl | ⟨-, -, rfl⟩⟩ <;>
      exact .inl ⟨rfl, rfl⟩
  · exact .inl ⟨checkReady_seats, checkReady_stopped now⟩
  · obtain ⟨-, r₁, -, hr₁, -, -, hend⟩ := simulate_eq_ok hr
    rcases hend with ⟨-, -, rfl, -⟩ | ⟨-, rfl, -⟩ <;> exact .inl ⟨by rw [hr₁], by rw [hr₁]⟩
  · rw [terminate_of_running hs]
    exact .inr (.inr (.inr (.inr ⟨rfl, rfl⟩)))

/-- No request changes the mode of a room. -/
theorem react_mode (h : r.react e = .ok (out, r')) : r'.mode = r.mode := by
  rcases react_cases h with ⟨_, rfl⟩ | ⟨_, _, _, _, _, _, _, _, rfl⟩ | ⟨_, _, _, _, _, hu⟩ |
    ⟨_, _, _, _, hr⟩ | ⟨_, _, _, _, _, _, hr⟩ | ⟨_, _, _, _, _, _, rfl⟩ | ⟨_, _, _, _, _, hr⟩ |
    ⟨_, _, hs, _, rfl⟩
  · rfl
  · rfl
  · rw [(unseat_eq_some.1 hu).2]
  · rw [(setReady_eq_ok.1 hr).2]
  · rcases handleInput_eq_ok hr with rfl | ⟨_, _, _, _, _, _, _, _, _, rfl | ⟨_, _, rfl⟩⟩ <;> rfl
  · unfold checkReady
    split <;> rfl
  · obtain ⟨_, r₁, _, hr₁, _, _, hend⟩ := simulate_eq_ok hr
    rcases hend with ⟨_, _, rfl, _⟩ | ⟨_, rfl, _⟩ <;> rw [hr₁]
  · rw [terminate_of_running hs]

@[simp] theorem length_seats_seatPlayer (conn : Uuid) (pid : Int) (cid now : Nat) :
    (r.seatPlayer conn pid cid now).2.seats.length = r.seats.length + 1 := by
  simp [seatPlayer_eq]

/-- The seat a turn's join takes is the seat its room adds. -/
theorem Turn.seated_eq_some {t : Turn} (ht : t.before.react t.event = .ok (t.out, t.after))
    {s : Seat} (hs : t.seated = some s) :
    ∃ conn pid cid now, t.event = .join conn pid cid now ∧
      s = (t.before.seatPlayer conn pid cid now).1 ∧ t.after = (t.before.seatPlayer conn pid cid now).2 := by
  obtain ⟨r, e, out, r'⟩ := t
  dsimp only at ht ⊢
  cases e with
  | join conn pid cid now =>
    simp only [Turn.seated] at hs
    split at hs
    · rename_i hnew ha
      have hr' : r' = (r.seatPlayer conn pid cid now).2 := by
        obtain ⟨-, rfl⟩ := Prod.mk.inj (Except.pure_eq_ok.1 ht).symm
        simp [hnew, ha]
      exact ⟨conn, pid, cid, now, rfl, (Option.some.inj hs).symm, hr'⟩
    · cases hs
  | _ => simp [Turn.seated] at hs

/-- A stopped room has no seats: only the end stops a room, and it releases them all. -/
theorem react_stopped_seats (h : r.react e = .ok (out, r'))
    (hr : r.stopped = true → r.seats = []) : r'.stopped = true → r'.seats = [] := by
  intro hs'
  rcases react_seats h with ⟨hse, hst⟩ | ⟨conn, b, hse, hst⟩ | ⟨conn, pid, cid, now, -, -, ha, rfl⟩ |
    ⟨conn, now, s, -, hu⟩ | ⟨hse, -⟩
  · rw [hse, hr (hst ▸ hs')]
  · rw [hse, hr (hst ▸ hs'), List.map_nil]
  · rw [seatPlayer_eq, (admits_eq_ok.1 ha).1] at hs'
    cases hs'
  · obtain ⟨-, rfl⟩ := unseat_eq_some.1 hu
    exact congrArg (List.filter _) (hr hs')
  · exact hse

/-- Without departures the seats of a team-based room stay red, blue, red, … in join order. -/
theorem react_alternating (h : r.react e = .ok (out, r')) (hleave : ∀ conn now, e ≠ .leave conn now)
    (ht : r.mode.isTeamBased = true) (ha : r.teams = Team.alternating r.seats.length) :
    r'.teams = Team.alternating r'.seats.length := by
  rcases react_seats h with ⟨hse, -⟩ | ⟨conn, b, hse, -⟩ | ⟨conn, pid, cid, now, -, -, -, rfl⟩ |
    ⟨conn, now, s, he, -⟩ | ⟨hse, -⟩
  · rw [teams, hse]
    exact ha
  · rw [teams, hse, map_setReady _ (fun _ _ => rfl), List.length_map]
    exact ha
  · obtain ⟨hr, hb⟩ := Team.count_alternating r.seats.length
    rw [teams_seatPlayer, length_seats_seatPlayer, Team.alternating_succ, assignTeam_eq, if_pos ht,
      ha, hr, hb]
    by_cases hev : r.seats.length % 2 = 0
    · rw [if_pos hev, if_pos (by omega)]
    · rw [if_neg hev, if_neg (by omega)]
  · exact absurd he (hleave conn now)
  · rw [teams, hse]
    rfl

/-- Without teams every seat is on no team. -/
theorem react_teams_none (h : r.react e = .ok (out, r')) (ht : r.mode.isTeamBased = false)
    (hn : ∀ x ∈ r.teams, x = .none) : ∀ x ∈ r'.teams, x = .none := by
  rcases react_seats h with ⟨hse, -⟩ | ⟨conn, b, hse, -⟩ | ⟨conn, pid, cid, now, -, -, -, rfl⟩ |
    ⟨conn, now, s, -, hu⟩ | ⟨hse, -⟩
  · rw [teams, hse]
    exact hn
  · rw [teams, hse, map_setReady _ (fun _ _ => rfl)]
    exact hn
  · rw [teams_seatPlayer, assignTeam_eq, ht]
    intro x hx
    rcases List.mem_append.1 hx with hx | hx
    · exact hn x hx
    · simpa using hx
  · obtain ⟨-, rfl⟩ := unseat_eq_some.1 hu
    exact fun x hx => hn x ((List.filter_sublist.map _).subset hx)
  · simp [teams, hse]

/-- A request keeps the team of every seat whose connection stays seated. -/
theorem react_keeps_team (h : r.react e = .ok (out, r')) (hc : (r.seats.map (·.connection)).Nodup)
    {s s' : Seat} (hs : s ∈ r.seats) (hs' : s' ∈ r'.seats) (hconn : s'.connection = s.connection) :
    s'.team = s.team := by
  have hone : ∀ x ∈ r.seats, x.connection = s.connection → x = s :=
    fun x hx hxc => List.inj_on_of_nodup_map hc hx hs hxc
  rcases react_seats h with ⟨hse, -⟩ | ⟨conn, b, hse, -⟩ | ⟨conn, pid, cid, now, -, hnew, -, rfl⟩ |
    ⟨conn, now, st, -, hu⟩ | ⟨hse, -⟩
  · rw [hse] at hs'
    rw [hone s' hs' hconn]
  · rw [hse] at hs'
    obtain ⟨x, hx, rfl⟩ := List.mem_map.1 hs'
    obtain rfl := hone x hx (by split at hconn <;> exact hconn)
    split <;> rfl
  · rw [seatPlayer_eq] at hs'
    rcases List.mem_append.1 hs' with hs' | hs'
    · rw [hone s' hs' hconn]
    · rw [List.mem_singleton.1 hs'] at hconn
      exact absurd hconn.symm (seat?_eq_none_iff.1 hnew s hs)
  · obtain ⟨-, rfl⟩ := unseat_eq_some.1 hu
    rw [hone s' (List.mem_of_mem_filter hs') hconn]
  · rw [hse] at hs'
    cases hs'

/-- In a room whose seats agree with its world, every seat holds the team of its player. -/
theorem SeatsAgree.team_eq (h : r.SeatsAgree) (hstop : r.stopped = true → r.seats = [])
    {s : Seat} (hs : s ∈ r.seats) :
    ∃ e p, r.world.get? s.entityId = some e ∧ e.player? = some p ∧ p.team = s.team := by
  cases hst : r.stopped with
  | true =>
    rw [hstop hst] at hs
    cases hs
  | false =>
    have hk : s.key ∈ r.world.playerKeys := h.players hst ▸ List.mem_map_of_mem hs
    obtain ⟨e, he, hek⟩ := List.mem_filterMap.1 hk
    obtain ⟨p, hp, hpk⟩ := Option.map_eq_some_iff.1 hek
    simp only [Seat.key, Prod.mk.injEq] at hpk
    exact ⟨e, p, h.wf.get?_eq_some_iff.2 ⟨he, hpk.1⟩, hp, hpk.2.2.2⟩

/-- Each join goes to the smaller team, red on a tie; in a run without leaves the teams stay red,
blue, red, … in join order, and a seat keeps the team of its player. -/
theorem runEvents_teams {config : RoomConfig} {id : Uuid} {seed : UInt64} {now : Nat}
    {es : List Event} {turns : List Turn} {r' : Room}
    (h : (Room.new config id seed now).runEvents es = .ok (turns, r')) :
    (∀ t ∈ turns, ∀ s, t.seated = some s →
      t.after.teams = t.before.teams ++ [s.team] ∧
      s.team = (if config.mode.isTeamBased then
        (if t.before.teams.count .red ≤ t.before.teams.count .blue then .red else .blue)
        else .none) ∧
      (config.mode.isTeamBased = true →
        t.after.teamGap = if t.before.teamGap = 0 then 1 else t.before.teamGap - 1)) ∧
    ((∀ e ∈ es, ∀ conn now', e ≠ .leave conn now') → config.mode.isTeamBased = true →
      ∀ ρ ∈ r' :: turns.map (·.before), ρ.teams = Team.alternating ρ.seats.length ∧
        ρ.teams.count .blue ≤ ρ.teams.count .red ∧ ρ.teams.count .red ≤ ρ.teams.count .blue + 1) ∧
    (config.mode.isTeamBased = false →
      ∀ ρ ∈ r' :: turns.map (·.before), ∀ s ∈ ρ.seats, s.team = .none) ∧
    (∀ t ∈ turns, ∀ s ∈ t.before.seats, ∀ s' ∈ t.after.seats, s'.connection = s.connection →
      s'.team = s.team) ∧
    (∀ ρ ∈ r' :: turns.map (·.before), ∀ s ∈ ρ.seats,
      ∃ e p, ρ.world.get? s.entityId = some e ∧ e.player? = some p ∧ p.team = s.team) := by
  have hreach := (Reachable.new config id seed now).runEvents h
  refine ⟨fun t ht s hs => ?_, fun hleave hteam => ?_, fun hnone => ?_,
    fun t ht s hs s' hs' hc => ?_, ?_⟩
  · obtain ⟨conn, pid, cid, now', -, rfl, hafter⟩ :=
      Turn.seated_eq_some (react_of_mem_runEvents h t ht) hs
    have hm := ((runEvents_invariant (fun ρ => ρ.mode = config.mode)
      (fun _ hρ hr => (react_mode hr).trans hρ) rfl h).1 t ht).1
    rw [hafter]
    refine ⟨teams_seatPlayer conn pid cid now', (assignTeam_eq _).trans (by rw [hm]), fun hteam => ?_⟩
    exact teamGap_seatPlayer (hm ▸ hteam) conn pid cid now'
  · intro ρ hρ
    have ha := (runEvents_states
      (fun ρ => ρ.mode = config.mode ∧ ρ.teams = Team.alternating ρ.seats.length)
      (fun he hρ hr => ⟨(react_mode hr).trans hρ.1,
        react_alternating hr (hleave _ he) (hρ.1 ▸ hteam) hρ.2⟩) ⟨rfl, rfl⟩ h ρ hρ).2
    obtain ⟨hr, hb⟩ := Team.count_alternating ρ.seats.length
    rw [ha, hr, hb]
    exact ⟨rfl, by omega, by omega⟩
  · intro ρ hρ s hs
    refine (runEvents_states (fun ρ => ρ.mode = config.mode ∧ ∀ x ∈ ρ.teams, x = .none)
      (fun _ hρ hr => ⟨(react_mode hr).trans hρ.1, react_teams_none hr (hρ.1 ▸ hnone) hρ.2⟩)
      ⟨rfl, fun x hx => by simp [teams, Room.new] at hx⟩ h ρ hρ).2 s.team (List.mem_map_of_mem hs)
  · exact react_keeps_team (react_of_mem_runEvents h t ht) (hreach.1 t ht).seatsAgree.conns hs hs' hc
  · intro ρ hρ s hs
    obtain ⟨hr, hs₀⟩ := runEvents_states (fun ρ => ρ.Reachable ∧ (ρ.stopped = true → ρ.seats = []))
      (fun _ hρ hr => ⟨hρ.1.react hr, react_stopped_seats hr hρ.2⟩)
      ⟨.new config id seed now, fun _ => rfl⟩ h ρ hρ
    exact SeatsAgree.team_eq hr.seatsAgree hs₀ hs

/-- Three players join a new team deathmatch room one after the other. -/
theorem runEvents_teams_three :
    ∃ turns r', (Room.new (RoomConfig.new "arena" .teamDeathMatch) ⟨0⟩ 7 0).runEvents
        [.join ⟨1⟩ 1 1 0, .join ⟨2⟩ 2 1 0, .join ⟨3⟩ 3 1 0] = .ok (turns, r') ∧
      (∀ t ∈ turns, ∀ s, t.seated = some s →
        t.after.teams = t.before.teams ++ [s.team] ∧
        s.team = (if GameMode.teamDeathMatch.isTeamBased then
          (if t.before.teams.count .red ≤ t.before.teams.count .blue then .red else .blue)
          else .none) ∧
        (GameMode.teamDeathMatch.isTeamBased = true →
          t.after.teamGap = if t.before.teamGap = 0 then 1 else t.before.teamGap - 1)) ∧
      ((∀ e ∈ [Event.join ⟨1⟩ 1 1 0, .join ⟨2⟩ 2 1 0, .join ⟨3⟩ 3 1 0], ∀ conn now',
          e ≠ .leave conn now') → GameMode.teamDeathMatch.isTeamBased = true →
        ∀ ρ ∈ r' :: turns.map (·.before), ρ.teams = Team.alternating ρ.seats.length ∧
          ρ.teams.count .blue ≤ ρ.teams.count .red ∧
          ρ.teams.count .red ≤ ρ.teams.count .blue + 1) ∧
      (GameMode.teamDeathMatch.isTeamBased = false →
        ∀ ρ ∈ r' :: turns.map (·.before), ∀ s ∈ ρ.seats, s.team = .none) ∧
      (∀ t ∈ turns, ∀ s ∈ t.before.seats, ∀ s' ∈ t.after.seats, s'.connection = s.connection →
        s'.team = s.team) ∧
      (∀ ρ ∈ r' :: turns.map (·.before), ∀ s ∈ ρ.seats,
        ∃ e p, ρ.world.get? s.entityId = some e ∧ e.player? = some p ∧ p.team = s.team) :=
  ⟨_, _, rfl, @runEvents_teams (RoomConfig.new "arena" .teamDeathMatch) ⟨0⟩ 7 0
    [.join ⟨1⟩ 1 1 0, .join ⟨2⟩ 2 1 0, .join ⟨3⟩ 3 1 0] _ _ rfl⟩

end Room
end Skirmish
