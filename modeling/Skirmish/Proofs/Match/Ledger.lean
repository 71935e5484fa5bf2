import Skirmish.Proofs.Match.Batch

/-!
# Every request accounted for

A run of matchmaking calls is watched through a `Journal`: the requests queued and withdrawn,
and what the room factory and the notifier are asked, as `MatchEvent`s. The journal only watches:
the matchmaker and the world go as they go without it (`MatchCall.record_forget`).

A queued request is later superseded (its player queues again for the same mode), withdrawn (its
player leaves that mode's queue) or matched (its player is told of a room opened for that mode),
by whichever event about the player and the mode comes first; until then it is pending
(`pending`). The ledger (`Matchmaker.Accounts`) says that the queue of each mode is exactly its
pending requests, in the order they were queued: no request is lost, none is queued twice, and
none outlives the event that settles it. Every call keeps the ledger, the one-mode turns of a pass
included, so every run from a new matchmaker does (`Matchmaker.run_accounts`).
-/

namespace Skirmish

/-- What a journal sees of matchmaking. -/
inductive MatchEvent where
  | queued (r : MatchRequest)
  | withdrawn (playerId : Int) (mode : GameMode)
  /-- The factory made a room for a mode. -/
  | opened (mode : GameMode) (room : RoomHandle)
  /-- The factory refused a room for a mode. -/
  | refused (mode : GameMode)
  /-- A player is told of a room; the mode is that of the room opened last. -/
  | notified (playerId : Int) (mode : Option GameMode) (room : RoomHandle)

namespace MatchEvent

/-- Whether an event ends the wait of a player's request in a mode: the player queues again
for the mode, leaves its queue, or is told of a room opened for it. -/
def settles (p : Int) (m : GameMode) : MatchEvent → Bool
  | .queued r => r.playerId == p && r.mode == m
  | .withdrawn p' m' => p' == p && m' == m
  | .notified p' (some m') _ => p' == p && m' == m
  | _ => false

end MatchEvent

/-- The requests of a mode still waiting after a history of events, in the order they were
queued: those that no later event settles. -/
def pending (m : GameMode) : List MatchEvent → List MatchRequest
  | [] => []
  | .queued r :: rest =>
    if r.mode = m ∧ rest.any (·.settles r.playerId m) = false then r :: pending m rest
    else pending m rest
  | _ :: rest => pending m rest

theorem pending_append (m : GameMode) (E F : List MatchEvent) :
    pending m (E ++ F) = (pending m E).filter (fun r => !F.any (·.settles r.playerId m)) ++ pending m F := by
  induction E with
  | nil => rfl
  | cons e E ih =>
    cases e with
    | queued r =>
      simp only [List.cons_append, pending, List.any_append, Bool.or_eq_false_iff, ih]
      by_cases hm : r.mode = m
      · by_cases hE : E.any (·.settles r.playerId m) = false
        · by_cases hF : F.any (·.settles r.playerId m) = false
          · simp [hm, hE, hF]
          · simp [hm, hE, hF]
        · simp [hE]
      · simp [hm]
    | withdrawn => simpa only [List.cons_append, pending] using ih
    | opened => simpa only [List.cons_append, pending] using ih
    | refused => simpa only [List.cons_append, pending] using ih
    | notified => simpa only [List.cons_append, pending] using ih

theorem mem_pending {m : GameMode} {E : List MatchEvent} {r : MatchRequest} (h : r ∈ pending m E) :
    r.mode = m ∧ MatchEvent.queued r ∈ E := by
  induction E with
  | nil => cases h
  | cons e E ih =>
    cases e with
    | queued r' =>
      simp only [pending] at h
      split at h
      · rename_i hr
        rcases List.mem_cons.1 h with rfl | h
        · exact ⟨hr.1, List.mem_cons_self⟩
        · exact ⟨(ih h).1, List.mem_cons_of_mem _ (ih h).2⟩
      · exact ⟨(ih h).1, List.mem_cons_of_mem _ (ih h).2⟩
    | withdrawn | opened | refused | notified =>
      exact ⟨(ih h).1, List.mem_cons_of_mem _ (ih h).2⟩

/-- A player has at most one pending request in a mode: its later request settles the earlier. -/
theorem pending_distinct (m : GameMode) (E : List MatchEvent) :
    (⟨pending m E⟩ : MatchQueue).Distinct := by
  induction E with
  | nil => exact List.nodup_nil
  | cons e E ih =>
    cases e with
    | queued r =>
      simp only [MatchQueue.Distinct, MatchQueue.players, pending] at ih ⊢
      split
      · rename_i hr
        refine List.nodup_cons.2 ⟨fun hp => ?_, ih⟩
        obtain ⟨r', hr', hp⟩ := List.mem_map.1 hp
        obtain ⟨hm, hq⟩ := mem_pending hr'
        have : E.any (·.settles r.playerId m) = true :=
          List.any_eq_true.2 ⟨_, hq, by simp [MatchEvent.settles, hp, hm]⟩
        simp [this] at hr
      · exact ih
    | withdrawn | opened | refused | notified => exact ih

/-- Events that queue nothing leave nothing pending. -/
theorem pending_eq_nil {m : GameMode} {F : List MatchEvent} (h : ∀ r, MatchEvent.queued r ∉ F) :
    pending m F = [] :=
  List.eq_nil_iff_forall_not_mem.2 fun r hr => h r (mem_pending hr).2

/-- A journal of matchmaking beside the world it watches. -/
structure Journal (σ : Type) where
  world : σ
  /-- The mode of the room opened last, whose players are being told. -/
  filling : Option GameMode
  events : List MatchEvent

namespace Journal

variable {σ : Type}

/-- A journal that has seen nothing yet. -/
def start (world : σ) : Journal σ := ⟨world, none, []⟩

/-- Writes an event down. -/
def log (j : Journal σ) (e : MatchEvent) : Journal σ := { j with events := j.events ++ [e] }

end Journal

/-- A target that writes down what it is asked and how the factory answers, and otherwise does
what `target` does. -/
def MatchTarget.journaled {σ : Type} (target : MatchTarget σ) : MatchTarget (Journal σ) where
  create j name mode seats map :=
    match target.create j.world name mode seats map with
    | (.ok room, world) => (.ok room, ⟨world, some mode, j.events ++ [.opened mode room]⟩)
    | (.error e, world) => (.error e, ⟨world, j.filling, j.events ++ [.refused mode]⟩)
  notify j p room := ⟨target.notify j.world p room, j.filling, j.events ++ [.notified p j.filling room]⟩

namespace MatchTarget

variable {σ : Type} {target : MatchTarget σ} {j : Journal σ} {name : String} {mode : GameMode}
  {seats map : Nat} {world : σ}

theorem journaled_create_ok {room : RoomHandle}
    (h : target.create j.world name mode seats map = (.ok room, world)) :
    target.journaled.create j name mode seats map =
      (.ok room, ⟨world, some mode, j.events ++ [.opened mode room]⟩) := by
  simp only [journaled, h]

theorem journaled_create_error {e : String}
    (h : target.create j.world name mode seats map = (.error e, world)) :
    target.journaled.create j name mode seats map =
      (.error e, ⟨world, j.filling, j.events ++ [.refused mode]⟩) := by
  simp only [journaled, h]

end MatchTarget

/-- A call made on matchmaking. -/
inductive MatchCall where
  | enqueue (r : MatchRequest)
  | dequeue (playerId : Int) (mode : GameMode)
  | depth (mode : GameMode)
  | pass (now : Nat)

namespace MatchCall

variable {σ : Type}

/-- Carries out a call; the answers are dropped. -/
def run (target : MatchTarget σ) : Matchmaker × σ → MatchCall → Matchmaker × σ
  | (mm, world), .enqueue r => (mm.enqueue r, world)
  | (mm, world), .dequeue p mode => ((mm.dequeue p mode).2, world)
  | (mm, world), .depth _ => (mm, world)
  | (mm, world), .pass now => (mm.pass target world now).2

/-- Carries out a call and writes down what it sees. -/
def record (target : MatchTarget σ) : Matchmaker × Journal σ → MatchCall → Matchmaker × Journal σ
  | (mm, j), .enqueue r => (mm.enqueue r, j.log (.queued r))
  | (mm, j), .dequeue p mode => ((mm.dequeue p mode).2, j.log (.withdrawn p mode))
  | (mm, j), .depth _ => (mm, j)
  | (mm, j), .pass now => (mm.pass target.journaled j now).2

end MatchCall

namespace Matchmaker

variable {σ : Type}

/-- Drops the journal from a pass's accumulator. -/
def forget (acc : Nat × Matchmaker × Journal σ) : Nat × Matchmaker × σ :=
  (acc.1, acc.2.1, acc.2.2.world)

theorem foldl_journaled_notify (target : MatchTarget σ) (room : RoomHandle) (batch : List MatchRequest)
    (j : Journal σ) :
    batch.foldl (fun j r => target.journaled.notify j r.playerId room) j =
      ⟨batch.foldl (fun world r => target.notify world r.playerId room) j.world, j.filling,
        j.events ++ batch.map fun r => .notified r.playerId j.filling room⟩ := by
  induction batch generalizing j with
  | nil => simp
  | cons r batch ih =>
    rw [List.foldl_cons, ih]
    simp [MatchTarget.journaled]

/-- A journaled mode's turn of a pass does to the matchmaker and the world what the turn does. -/
theorem passMode_journaled (target : MatchTarget σ) (now c : Nat) (mm : Matchmaker) (j : Journal σ)
    (mode : GameMode) :
    forget (passMode target.journaled now (c, mm, j) mode) = passMode target now (c, mm, j.world) mode := by
  rw [passMode, passMode]
  dsimp only
  cases (mm.queues mode).takeBatch mode.requiredPlayers with
  | mk batch? q =>
    cases batch? with
    | none => rfl
    | some batch =>
      dsimp only
      cases hc : target.create j.world (mode.name ++ "-" ++ clockDigits now) mode
        mode.requiredPlayers matchMapId with
      | mk result world =>
        cases result with
        | ok room =>
          rw [MatchTarget.journaled_create_ok hc]
          dsimp only
          rw [List.foldl_pair (fun (mm : Matchmaker) (r : MatchRequest) => mm.assign r.playerId room.id now)
              (fun (j : Journal σ) (r : MatchRequest) => target.journaled.notify j r.playerId room),
            List.foldl_pair (fun (mm : Matchmaker) (r : MatchRequest) => mm.assign r.playerId room.id now)
              (fun (world : σ) (r : MatchRequest) => target.notify world r.playerId room),
            foldl_journaled_notify]
          rfl
        | error e =>
          rw [MatchTarget.journaled_create_error hc]
          rfl

theorem foldl_passMode_journaled (target : MatchTarget σ) (now : Nat) :
    ∀ (modes : List GameMode) (acc : Nat × Matchmaker × Journal σ),
      forget (modes.foldl (passMode target.journaled now) acc) =
        modes.foldl (passMode target now) (forget acc)
  | [], _ => rfl
  | mode :: modes, ⟨c, mm, j⟩ => by
    rw [List.foldl_cons, List.foldl_cons, foldl_passMode_journaled target now modes,
      passMode_journaled]
    rfl

theorem pass_journaled (mm : Matchmaker) (target : MatchTarget σ) (j : Journal σ) (now : Nat) :
    forget (mm.pass target.journaled j now) = mm.pass target j.world now :=
  foldl_passMode_journaled target now _ _

/-- The ledger: the queue of each mode is its pending requests. -/
def Accounts (mm : Matchmaker) (events : List MatchEvent) : Prop :=
  ∀ m, (mm.queues m).requests = pending m events

theorem Accounts.distinct {mm : Matchmaker} {E : List MatchEvent} (h : mm.Accounts E) (m : GameMode) :
    (mm.queues m).Distinct := by
  have hq : mm.queues m = ⟨pending m E⟩ := by rw [← h m]
  rw [hq]
  exact pending_distinct m E

theorem Accounts.new (ttl : Nat) : (Matchmaker.new ttl).Accounts [] := fun _ => rfl

theorem Accounts.enqueue {mm : Matchmaker} {E : List MatchEvent} (h : mm.Accounts E) (r : MatchRequest) :
    (mm.enqueue r).Accounts (E ++ [.queued r]) := by
  intro m
  rw [pending_append, queues_enqueue]
  by_cases hm : m = r.mode
  · subst hm
    simp only [if_true, MatchQueue.enqueue, ← h r.mode, pending, List.any_nil, and_self,
      List.any_cons, List.any_nil, Bool.or_false, MatchEvent.settles, beq_self_eq_true,
      Bool.and_true]
    congr 1
    refine List.filter_congr fun x _ => ?_
    simp [bne, Bool.beq_comm]
  · rw [if_neg hm, h m]
    have hs : ∀ x : MatchRequest, ([MatchEvent.queued r].any (·.settles x.playerId m)) = false := by
      intro x
      simp [MatchEvent.settles, Ne.symm hm]
    simp [hs, pending, Ne.symm hm]

theorem Accounts.dequeue {mm : Matchmaker} {E : List MatchEvent} (h : mm.Accounts E) (p : Int)
    (mode : GameMode) : (mm.dequeue p mode).2.Accounts (E ++ [.withdrawn p mode]) := by
  intro m
  have hnil : pending m [MatchEvent.withdrawn p mode] = [] := rfl
  rw [pending_append, queues_dequeue, hnil]
  by_cases hm : m = mode
  · subst hm
    rw [if_pos rfl, (h.distinct m).requests_dequeue, h m, List.append_nil]
    refine List.filter_congr fun x _ => ?_
    simp [MatchEvent.settles, bne, Bool.beq_comm]
  · rw [if_neg hm, h m, List.append_nil]
    refine (List.filter_eq_self.2 fun x _ => ?_).symm
    simp [MatchEvent.settles, Ne.symm hm]

/-- Players told of a room opened for a mode settle their requests in that mode only. -/
theorem any_settles_notified (batch : List MatchRequest) (room : RoomHandle) (p : Int)
    (mode m : GameMode) :
    (batch.map fun r => MatchEvent.notified r.playerId (some mode) room).any (·.settles p m) =
      (decide (mode = m) && (batch.map (·.playerId)).contains p) := by
  induction batch with
  | nil => simp
  | cons r batch ih =>
    rw [List.map_cons, List.any_cons, ih, List.map_cons, List.contains_cons]
    by_cases hm : mode = m
    · simp [MatchEvent.settles, hm, Bool.beq_comm]
    · simp [MatchEvent.settles, hm]

/-- Of a queue of distinct players, the requests whose players are not among the `n` oldest are
the queue without them. -/
theorem filter_not_taken {l : List MatchRequest} (h : (l.map (·.playerId)).Nodup) (n : Nat) :
    l.filter (fun r => !((l.take n).map (·.playerId)).contains r.playerId) = l.drop n := by
  conv_lhs => rw [← List.take_append_drop n l]
  rw [← List.take_append_drop n l, List.map_append, List.nodup_append] at h
  rw [List.filter_append, List.filter_eq_nil_iff.2 fun r hr => by simpa using List.mem_map_of_mem hr,
    List.nil_append, List.filter_eq_self]
  intro r hr
  have : r.playerId ∉ (l.take n).map (·.playerId) :=
    fun hm => h.2.2 _ hm _ (List.mem_map_of_mem hr) rfl
  simpa using this

/-- A turn of a journaled pass keeps the ledger: a room settles the batch, whose players the
journal sees told of a room for the mode, and a refusal settles nothing. -/
theorem Accounts.turn {mm : Matchmaker} {j : Journal σ} (h : mm.Accounts j.events)
    (target : MatchTarget σ) (now c : Nat) (mode : GameMode) :
    (Matchmaker.turn target.journaled now (c, mm, j) mode).2.1.Accounts
      (Matchmaker.turn target.journaled now (c, mm, j) mode).2.2.events := by
  simp only [Matchmaker.turn]
  split
  · exact h
  · rename_i hl
    cases hc : target.create j.world (mode.name ++ "-" ++ clockDigits now) mode
      mode.requiredPlayers matchMapId with
    | mk result world =>
      cases result with
      | ok room =>
        rw [MatchTarget.journaled_create_ok hc]
        dsimp only
        rw [foldl_journaled_notify]
        intro m
        have hnil : pending m (MatchEvent.opened mode room ::
            ((mm.queues mode).requests.take mode.requiredPlayers).map
              fun r => MatchEvent.notified r.playerId (some mode) room) = [] :=
          pending_eq_nil fun r hr => by
            rcases List.mem_cons.1 hr with hr | hr
            · cases hr
            · obtain ⟨x, -, hx⟩ := List.mem_map.1 hr
              cases hx
        rw [queues_foldl_assign, queues_setQueue, List.append_assoc, List.singleton_append,
          pending_append, hnil, List.append_nil]
        by_cases hm : m = mode
        · subst hm
          rw [if_pos rfl, ← h m]
          have hs : ∀ x : MatchRequest,
              ((MatchEvent.opened m room :: (((mm.queues m).requests.take m.requiredPlayers).map
                fun r => MatchEvent.notified r.playerId (some m) room)).any
                  (·.settles x.playerId m)) =
                (((mm.queues m).requests.take m.requiredPlayers).map (·.playerId)).contains
                  x.playerId := by
            intro x
            rw [List.any_cons, any_settles_notified]
            simp [MatchEvent.settles]
          simp only [hs]
          exact (filter_not_taken (h.distinct m) _).symm
        · rw [if_neg hm, h m]
          refine (List.filter_eq_self.2 fun x _ => ?_).symm
          rw [List.any_cons, any_settles_notified]
          simp [MatchEvent.settles, Ne.symm hm]
      | error e =>
        rw [MatchTarget.journaled_create_error hc]
        intro m
        have hnil : pending m [MatchEvent.refused mode] = [] := rfl
        rw [pending_append, hnil, List.append_nil, h m]
        refine (List.filter_eq_self.2 fun x _ => ?_).symm
        simp [MatchEvent.settles]

theorem Accounts.foldl_turn (target : MatchTarget σ) (now : Nat) :
    ∀ (modes : List GameMode) (acc : Nat × Matchmaker × Journal σ), acc.2.1.Accounts acc.2.2.events →
      let acc' := modes.foldl (Matchmaker.turn target.journaled now) acc
      acc'.2.1.Accounts acc'.2.2.events
  | [], _, h => h
  | mode :: modes, ⟨c, _, _⟩, h => Accounts.foldl_turn target now modes _ (h.turn target now c mode)

theorem Accounts.pass {mm : Matchmaker} {j : Journal σ} (h : mm.Accounts j.events)
    (target : MatchTarget σ) (now : Nat) :
    (mm.pass target.journaled j now).2.1.Accounts (mm.pass target.journaled j now).2.2.events := by
  rw [pass_eq_turns mm target.journaled j now h.distinct]
  exact Accounts.foldl_turn target now _ _ h

theorem Accounts.record {mm : Matchmaker} {j : Journal σ} (h : mm.Accounts j.events)
    (target : MatchTarget σ) (call : MatchCall) :
    (MatchCall.record target (mm, j) call).1.Accounts (MatchCall.record target (mm, j) call).2.events := by
  cases call with
  | enqueue r => exact h.enqueue r
  | dequeue p mode => exact h.dequeue p mode
  | depth mode => exact h
  | pass now =>
    simp only [MatchCall.record]
    exact h.pass target now

end Matchmaker

namespace MatchCall

variable {σ : Type}

/-- The journal only watches: a recorded run goes as the run. -/
theorem record_forget (target : MatchTarget σ) :
    ∀ (calls : List MatchCall) (mm : Matchmaker) (j : Journal σ),
      let recorded := calls.foldl (record target) (mm, j)
      (recorded.1, recorded.2.world) = calls.foldl (run target) (mm, j.world)
  | [], _, _ => rfl
  | call :: calls, mm, j => by
    rw [List.foldl_cons, List.foldl_cons]
    have hstep : ((record target (mm, j) call).1, (record target (mm, j) call).2.world) =
        run target (mm, j.world) call := by
      cases call with
      | enqueue r => rfl
      | dequeue p mode => rfl
      | depth mode => rfl
      | pass now =>
        simp only [record, run]
        rw [← Matchmaker.pass_journaled mm target j now]
        rfl
    rw [← hstep]
    exact record_forget target calls _ _

theorem accounts_record (target : MatchTarget σ) :
    ∀ (calls : List MatchCall) (mm : Matchmaker) (j : Journal σ), mm.Accounts j.events →
      (calls.foldl (record target) (mm, j)).1.Accounts (calls.foldl (record target) (mm, j)).2.events
  | [], _, _, h => h
  | call :: calls, _, _, h => accounts_record target calls _ _ (h.record target call)

end MatchCall

namespace Matchmaker

variable {σ : Type}

/-- In every matchmaking run, each request is waiting, superseded, withdrawn or matched, by the
first event that settles it, the queues hold the waiting ones in order, and the next pass does for
each mode what `turn` does. -/
theorem run_accounts (target : MatchTarget σ) (ttl : Nat) (world : σ) (calls : List MatchCall) :
    let run := calls.foldl (MatchCall.run target) (Matchmaker.new ttl, world)
    let journal := (calls.foldl (MatchCall.record target) (Matchmaker.new ttl, Journal.start world)).2
    (∀ m, (run.1.queues m).requests = pending m journal.events) ∧
    ∀ now, run.1.pass target run.2 now =
      GameMode.all.foldl (turn target now) (0, run.1.prune now, run.2) := by
  have hforget := MatchCall.record_forget target calls (Matchmaker.new ttl) (Journal.start world)
  have hacc := MatchCall.accounts_record target calls (Matchmaker.new ttl) (Journal.start world)
    (Accounts.new ttl)
  simp only [Journal.start] at hforget
  have hmm : (calls.foldl (MatchCall.run target) (Matchmaker.new ttl, world)).1 =
      (calls.foldl (MatchCall.record target) (Matchmaker.new ttl, Journal.start world)).1 := by
    rw [← hforget]
    rfl
  dsimp only
  rw [hmm]
  exact ⟨hacc, fun now => pass_eq_turns _ target _ now hacc.distinct⟩

end Matchmaker

end Skirmish
