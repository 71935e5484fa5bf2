import Skirmish.Config.Settings
import Skirmish.Proofs.Auth.Verify
import Skirmish.Proofs.World.Ids

/-!
# Reading the settings

`Config.fromLookup` makes its checks in a fixed order and stops at the first that fails: the
listening address must read as a socket address, `JWT_SECRET` must be set and not empty, and each
numeric setting must be unset or, once trimmed, an unsigned decimal numeral within the width of its
integer. `Config.checks` lists these checks, each with the failure it reports, and
`Config.Settles` says field by field which settings a lookup gives.

Main statement (`fromLookup_checks`): the settings are built exactly when every check passes, they
are then the settings that `Settles` describes, and otherwise the failure reported is the failure of
the first check that fails (`FirstFailure`).
-/

namespace Skirmish

/-! ## Unsigned numerals -/

/-- `cs` is an unsigned decimal numeral of `n`: at least one digit, after an optional `+`. -/
def Text.UnsignedNumeral (cs : List Char) (n : Nat) : Prop :=
  ∃ ds, ds ≠ [] ∧ (∀ d ∈ ds, d.isDigit) ∧ (cs = ds ∨ cs = '+' :: ds) ∧ n = Auth.decimalValue ds

/-- A text is read as an unsigned integer up to `bound` exactly when it is a numeral of a value
within the bound. -/
theorem Text.parseUnsigned_eq_some_iff {s : String} {bound n : Nat} :
    Text.parseUnsigned s bound = some n ↔ Text.UnsignedNumeral s.toList n ∧ n ≤ bound := by
  unfold Text.parseUnsigned Text.UnsignedNumeral
  -- a sign is no digit, so it is never read as the first digit
  have hplus : ('+').isDigit = false := by decide
  generalize s.toList = cs
  simp only [Option.bind_eq_bind, Option.bind_eq_some_iff, Auth.digitsValue_eq_some]
  split
  · rename_i rest
    constructor
    · rintro ⟨v, ⟨hne, hd, rfl⟩, hv⟩
      split at hv
      · cases hv
        exact ⟨⟨rest, hne, hd, .inr rfl, rfl⟩, ‹_›⟩
      · cases hv
    · rintro ⟨⟨ds, hne, hd, hds | hds, rfl⟩, hle⟩
      · simpa [hplus] using hd '+' (by simp [← hds])
      · obtain rfl := (List.cons.inj hds).2
        exact ⟨_, ⟨hne, hd, rfl⟩, by rw [if_pos hle]⟩
  · rename_i hnplus
    constructor
    · rintro ⟨v, ⟨hne, hd, rfl⟩, hv⟩
      split at hv
      · cases hv
        exact ⟨⟨cs, hne, hd, .inl rfl, rfl⟩, ‹_›⟩
      · cases hv
    · rintro ⟨⟨ds, hne, hd, rfl | hds, rfl⟩, hle⟩
      · exact ⟨_, ⟨hne, hd, rfl⟩, by rw [if_pos hle]⟩
      · exact absurd hds (hnplus ds)

/-! ## The first failing check -/

/-- `e` is the failure of the first check of `cs` that does not pass. -/
def FirstFailure {ε : Type} (cs : List (ε × Prop)) (e : ε) : Prop :=
  ∃ pre p post, cs = pre ++ (e, p) :: post ∧ (∀ c ∈ pre, c.2) ∧ ¬ p

section FirstFailure

variable {ε : Type} {cs : List (ε × Prop)} {e e' : ε} {p : Prop}

theorem not_firstFailure_nil : ¬ FirstFailure ([] : List (ε × Prop)) e := by
  rintro ⟨pre, p, post, h, -⟩
  simp at h

/-- The first check fails and reports its failure, or it passes and the failure is that of the
first failing check after it. -/
theorem firstFailure_cons :
    FirstFailure ((e', p) :: cs) e ↔ ¬ p ∧ e = e' ∨ p ∧ FirstFailure cs e := by
  constructor
  · rintro ⟨pre, q, post, h, hpre, hq⟩
    cases pre with
    | nil =>
      obtain ⟨h₁, -⟩ := List.cons.inj h
      obtain ⟨rfl, rfl⟩ := Prod.mk.inj h₁
      exact .inl ⟨hq, rfl⟩
    | cons c pre =>
      rw [List.cons_append, List.cons.injEq] at h
      obtain ⟨rfl, h⟩ := h
      exact .inr ⟨hpre _ List.mem_cons_self, pre, q, post, h,
        fun x hx => hpre x (List.mem_cons_of_mem _ hx), hq⟩
  · rintro (⟨hp, rfl⟩ | ⟨hp, pre, q, post, h, hpre, hq⟩)
    · exact ⟨[], p, cs, rfl, by simp, hp⟩
    · refine ⟨(e', p) :: pre, q, post, by rw [h]; rfl, fun x hx => ?_, hq⟩
      rcases List.mem_cons.1 hx with rfl | hx
      · exact hp
      · exact hpre x hx

/-- Some check reports a failure exactly when some check does not pass. -/
theorem exists_firstFailure_iff : (∃ e, FirstFailure cs e) ↔ ∃ c ∈ cs, ¬ c.2 := by
  induction cs with
  | nil => simp [not_firstFailure_nil]
  | cons c cs ih =>
    obtain ⟨e', p⟩ := c
    simp only [firstFailure_cons, List.mem_cons, exists_eq_or_imp]
    by_cases hp : p
    · simp [hp, ih]
    · exact ⟨fun _ => .inl hp, fun _ => ⟨e', .inl ⟨hp, rfl⟩⟩⟩

/-- A checked step `x` decides `p` with failure `e₀`: it succeeds only when `p` holds, and fails
only with `e₀`, when `p` does not hold. -/
def Decides {α : Type} (x : Except ε α) (p : Prop) (e₀ : ε) : Prop :=
  (∀ a, x = .ok a → p) ∧ ∀ e, x = .error e → ¬ p ∧ e = e₀

/-- A step that decides a check, followed by steps that report the first failure of the later
checks, reports the first failure of them all. -/
theorem Decides.bind_eq_error {α β : Type} {x : Except ε α} {f : α → Except ε β} {e₀ : ε}
    (hx : Decides x p e₀) (hf : ∀ a, x = .ok a → (f a = .error e ↔ FirstFailure cs e)) :
    x >>= f = .error e ↔ FirstFailure ((e₀, p) :: cs) e := by
  rw [firstFailure_cons]
  cases hxe : x with
  | error e₁ =>
    obtain ⟨hnp, rfl⟩ := hx.2 e₁ hxe
    simp only [bind, Except.bind, Except.error.injEq, hnp, not_false_eq_true, true_and,
      false_and, or_false]
    exact eq_comm
  | ok a =>
    have hp := hx.1 a hxe
    simp only [bind, Except.bind, hf a hxe, hp, not_true_eq_false, false_and, true_and, false_or]

end FirstFailure

/-! ## The settings -/

/-- A numeric setting: the variable it is read from, the width in bits of its unsigned integer,
and the value it takes when the variable is unset. -/
structure NumericSetting where
  name : String
  bits : Nat
  default : Nat

/-- A numeric setting reads as `n`: the variable is unset and `n` is the default, or the
variable's text, trimmed, is a numeral of `n` within the width. -/
def NumericSetting.Reads (s : NumericSetting) (lookup : String → Option String) (n : Nat) :
    Prop :=
  lookup s.name = none ∧ n = s.default ∨
    ∃ raw, lookup s.name = some raw ∧ Text.UnsignedNumeral (Text.trimWhite raw).toList n ∧
      n ≤ Config.widest s.bits

namespace Config

/-- The numeric settings in the order they are read: the tick rate, the matching interval, the
sweep interval, the outbound queue size, the room capacity and the shutdown grace. -/
def numericSettings : List NumericSetting :=
  [⟨"TICK_RATE", 32, 60⟩, ⟨"MATCH_INTERVAL_MS", 64, 1000⟩, ⟨"ROOM_SWEEP_SECS", 64, 10⟩,
   ⟨"OUTBOUND_QUEUE_SIZE", 64, 256⟩, ⟨"MAX_ROOMS", 64, 500⟩, ⟨"SHUTDOWN_GRACE_SECS", 64, 5⟩]

/-- The numeric settings of a configuration, in the order they are read. -/
def numbers (c : Config) : List Nat :=
  [c.tickRate, c.matchIntervalMs, c.roomSweepSecs, c.outboundQueueSize, c.maxRooms,
   c.shutdownGraceSecs]

/-- The settings `c` are those a lookup gives: the address read from `listenText`, the secret
set and not empty, the statistics URL and key when set and not empty, every numeric setting as
it reads, and the defaults of the log level and the client origin. -/
structure Settles (lookup : String → Option String) (c : Config) : Prop where
  serverAddr : SocketAddr.parse (listenText lookup) = some c.serverAddr
  logLevel : c.logLevel = (lookup "LOG_LEVEL").getD "info"
  jwtSecret : lookup "JWT_SECRET" = some c.jwtSecret ∧ c.jwtSecret ≠ ""
  clientOrigin : c.clientOrigin = (lookup "CLIENT_ORIGIN").getD "http://localhost:3000"
  statsUrl : ∀ u, c.statsUrl = some u ↔ lookup "STATS_URL" = some u ∧ u ≠ ""
  statsApiKey : ∀ k, c.statsApiKey = some k ↔ lookup "STATS_API_KEY" = some k ∧ k ≠ ""
  numbers : List.Forall₂ (fun s n => s.Reads lookup n) numericSettings c.numbers

/-- The checks of a lookup in the order they are made, each with the failure it reports. -/
def checks (lookup : String → Option String) : List (ConfigError × Prop) :=
  (.invalidAddress, ∃ a, SocketAddr.parse (listenText lookup) = some a) ::
  (.missing "JWT_SECRET", ∃ v, lookup "JWT_SECRET" = some v ∧ v ≠ "") ::
  numericSettings.map fun s => (.invalid s.name, ∃ n, s.Reads lookup n)

variable {lookup : String → Option String}

/-! ## Each step -/

theorem nonEmpty_eq_some_iff {name v : String} :
    nonEmpty lookup name = some v ↔ lookup name = some v ∧ v ≠ "" := by
  simp [nonEmpty, Option.filter_eq_some_iff]

theorem numeric_eq_ok_iff {name : String} {bits d n : Nat} :
    numeric lookup name bits d = .ok n ↔ NumericSetting.Reads ⟨name, bits, d⟩ lookup n := by
  unfold NumericSetting.Reads
  cases h : lookup name with
  | none => simp [numeric, h, eq_comm]
  | some raw =>
    simp only [numeric, h, reduceCtorEq, false_and, Option.some.injEq, exists_eq_left', false_or,
      ← Text.parseUnsigned_eq_some_iff]
    cases Text.parseUnsigned (Text.trimWhite raw) (widest bits) <;> simp

/-- Reading a numeric setting decides whether it reads as some value, reporting the setting's
name when it does not. -/
theorem decides_numeric (name : String) (bits d : Nat) :
    Decides (numeric lookup name bits d) (∃ n, NumericSetting.Reads ⟨name, bits, d⟩ lookup n)
      (.invalid name) := by
  refine ⟨fun n h => ⟨n, numeric_eq_ok_iff.1 h⟩, fun e h => ⟨?_, ?_⟩⟩
  · rintro ⟨n, hn⟩
    rw [numeric_eq_ok_iff.2 hn] at h
    cases h
  · unfold numeric at h
    split at h
    · split at h
      · cases h
      · exact (Except.error.inj h).symm
    · cases h

/-! ## The whole reading -/

/-- Built settings are the settings the lookup gives. -/
theorem settles_of_fromLookup {c : Config} (h : fromLookup lookup = .ok c) : Settles lookup c := by
  unfold fromLookup at h
  split at h
  · rename_i a ha
    split at h
    · rename_i s hs
      simp only [Except.bind_eq_ok, Except.pure_eq_ok] at h
      obtain ⟨t₁, h₁, t₂, h₂, t₃, h₃, t₄, h₄, t₅, h₅, t₆, h₆, rfl⟩ := h
      exact {
        serverAddr := ha
        logLevel := rfl
        jwtSecret := nonEmpty_eq_some_iff.1 hs
        clientOrigin := rfl
        statsUrl := fun _ => nonEmpty_eq_some_iff
        statsApiKey := fun _ => nonEmpty_eq_some_iff
        numbers := .cons (numeric_eq_ok_iff.1 h₁) <| .cons (numeric_eq_ok_iff.1 h₂) <|
          .cons (numeric_eq_ok_iff.1 h₃) <| .cons (numeric_eq_ok_iff.1 h₄) <|
          .cons (numeric_eq_ok_iff.1 h₅) <| .cons (numeric_eq_ok_iff.1 h₆) .nil }
    · cases h
  · cases h

/-- A lookup builds the settings it gives. -/
theorem fromLookup_of_settles {c : Config} (hs : Settles lookup c) : fromLookup lookup = .ok c := by
  obtain ⟨h₁, h₂, h₃, h₄, h₅, h₆⟩ :
      numeric lookup "TICK_RATE" 32 60 = .ok c.tickRate ∧
      numeric lookup "MATCH_INTERVAL_MS" 64 1000 = .ok c.matchIntervalMs ∧
      numeric lookup "ROOM_SWEEP_SECS" 64 10 = .ok c.roomSweepSecs ∧
      numeric lookup "OUTBOUND_QUEUE_SIZE" 64 256 = .ok c.outboundQueueSize ∧
      numeric lookup "MAX_ROOMS" 64 500 = .ok c.maxRooms ∧
      numeric lookup "SHUTDOWN_GRACE_SECS" 64 5 = .ok c.shutdownGraceSecs := by
    have hn := hs.numbers
    simp only [numericSettings, numbers, List.forall₂_cons, List.Forall₂.nil, and_true] at hn
    obtain ⟨r₁, r₂, r₃, r₄, r₅, r₆⟩ := hn
    exact ⟨numeric_eq_ok_iff.2 r₁, numeric_eq_ok_iff.2 r₂, numeric_eq_ok_iff.2 r₃,
      numeric_eq_ok_iff.2 r₄, numeric_eq_ok_iff.2 r₅, numeric_eq_ok_iff.2 r₆⟩
  have hsecret : nonEmpty lookup "JWT_SECRET" = some c.jwtSecret :=
    nonEmpty_eq_some_iff.2 hs.jwtSecret
  have hurl : nonEmpty lookup "STATS_URL" = c.statsUrl :=
    Option.ext fun u => nonEmpty_eq_some_iff.trans (hs.statsUrl u).symm
  have hkey : nonEmpty lookup "STATS_API_KEY" = c.statsApiKey :=
    Option.ext fun k => nonEmpty_eq_some_iff.trans (hs.statsApiKey k).symm
  rcases c with ⟨addr, logLevel, secret, origin, url, key, t₁, t₂, t₃, t₄, t₅, t₆⟩
  obtain ⟨rfl⟩ := hs.logLevel
  obtain ⟨rfl⟩ := hs.clientOrigin
  simp only at hsecret hurl hkey h₁ h₂ h₃ h₄ h₅ h₆
  simp only [fromLookup, hs.serverAddr, hsecret, h₁, h₂, h₃, h₄, h₅, h₆, hurl, hkey]
  rfl

/-- The reading fails with the failure of its first failing check. -/
theorem fromLookup_eq_error_iff {e : ConfigError} :
    fromLookup lookup = .error e ↔ FirstFailure (checks lookup) e := by
  simp only [checks, firstFailure_cons]
  unfold fromLookup
  split
  · rename_i a ha
    have haddr : ∃ a, SocketAddr.parse (listenText lookup) = some a := ⟨a, ha⟩
    split
    · rename_i s hs
      have hsecret : ∃ v, lookup "JWT_SECRET" = some v ∧ v ≠ "" := ⟨s, nonEmpty_eq_some_iff.1 hs⟩
      simp only [haddr, hsecret, not_true_eq_false, false_and, true_and, false_or,
        numericSettings, List.map_cons, List.map_nil]
      iterate 6 refine (decides_numeric _ _ _).bind_eq_error fun _ _ => ?_
      simp [not_firstFailure_nil, pure, Except.pure]
    · rename_i hnone
      have hsecret : ¬ ∃ v, lookup "JWT_SECRET" = some v ∧ v ≠ "" := by
        rintro ⟨v, hv⟩
        exact hnone v (nonEmpty_eq_some_iff.2 hv)
      simp only [haddr, hsecret, not_true_eq_false, not_false_eq_true, false_and, true_and,
        false_or, or_false]
      exact ⟨fun h => (Except.error.inj h).symm, fun h => h ▸ rfl⟩
  · rename_i hnone
    have haddr : ¬ ∃ a, SocketAddr.parse (listenText lookup) = some a := by
      rintro ⟨a, ha⟩
      exact hnone a ha
    simp only [haddr, not_false_eq_true, true_and, false_and, or_false]
    exact ⟨fun h => (Except.error.inj h).symm, fun h => h ▸ rfl⟩

/-- The settings are built exactly when every check passes. -/
theorem exists_fromLookup_eq_ok_iff :
    (∃ c, fromLookup lookup = .ok c) ↔ ∀ ch ∈ checks lookup, ch.2 := by
  constructor
  · rintro ⟨c, hc⟩ ch hch
    by_contra hn
    obtain ⟨e, he⟩ := exists_firstFailure_iff.2 ⟨ch, hch, hn⟩
    rw [← fromLookup_eq_error_iff, hc] at he
    cases he
  · intro hall
    cases hf : fromLookup lookup with
    | ok c => exact ⟨c, rfl⟩
    | error e =>
      obtain ⟨ch, hch, hn⟩ := exists_firstFailure_iff.1 ⟨e, fromLookup_eq_error_iff.1 hf⟩
      exact absurd (hall ch hch) hn

/-- Reading the settings checks the address, the secret and each numeric setting in order; it
gives the settings of the lookup, with defaults for what is unset, exactly when every check passes,
and otherwise fails with the first failed check. -/
theorem fromLookup_checks (lookup : String → Option String) :
    (∀ c, fromLookup lookup = .ok c ↔ Settles lookup c) ∧
    ((∃ c, fromLookup lookup = .ok c) ↔ ∀ ch ∈ checks lookup, ch.2) ∧
    ∀ e, fromLookup lookup = .error e ↔ FirstFailure (checks lookup) e :=
  ⟨fun _ => ⟨settles_of_fromLookup, fromLookup_of_settles⟩, exists_fromLookup_eq_ok_iff,
    fun _ => fromLookup_eq_error_iff⟩

/-- `PORT` goes before `SERVER_ADDR`, and the numeric settings left unset take their defaults. -/
example : ((fromLookup fun k => if k = "JWT_SECRET" then some "x" else if k = "PORT" then some "9000"
    else if k = "SERVER_ADDR" then some "127.0.0.1:7000" else none).toOption.map
      fun c => (c.serverAddr.portNumber, c.numbers)) = some (9000, [60, 1000, 10, 256, 500, 5]) := by
  rfl

end Config

end Skirmish
