import Skirmish.Auth.Token

/-!
# Verifying a session token

`verifyToken` decides a token in a fixed order: the token must be three segments joined by dots,
the third must decode to the HMAC-SHA256 of the first two under the secret, the second must decode
to claims, and only then is the expiry read. So a token is accepted exactly when it is `Signed`
and has not expired, it is reported expired exactly when it is `Signed` and has expired, and every
other token is invalid (`verifyToken_decides`). A token with a wrong signature is never told apart
by its expiry, and the header segment is read only as signed text, never decoded.

The player a token speaks for is its subject with Unicode whitespace trimmed from both ends, read
as a decimal numeral of a 64-bit signed integer (`playerId_eq_some_iff`).
-/

namespace Skirmish.Auth

/-! ## Splitting on a character -/

/-- No piece of a split holds the character split on. -/
theorem not_mem_of_mem_splitOn {t w : List Char} {x : Char} (hw : w ∈ t.splitOn x) : x ∉ w := by
  induction t generalizing w with
  | nil =>
    rw [List.splitOn_nil, List.mem_singleton] at hw
    simp [hw]
  | cons y t ih =>
    rw [List.splitOn_cons_eq_if_modifyHead] at hw
    split at hw
    · rcases List.mem_cons.1 hw with rfl | hw
      · simp
      · exact ih hw
    · rename_i hy
      obtain ⟨r, rs, hr⟩ := List.exists_cons_of_ne_nil (List.splitOn_ne_nil x t)
      rw [hr, List.modifyHead_cons] at hw
      rcases List.mem_cons.1 hw with rfl | hw
      · intro hx
        rcases List.mem_cons.1 hx with hxy | hx
        · exact hy (by simp [hxy])
        · exact ih (hr ▸ List.mem_cons_self) hx
      · exact ih (hr ▸ List.mem_cons_of_mem _ hw)

/-- A list splits on `x` into three pieces exactly when it is the three joined by `x`, none of
them holding `x`. -/
theorem splitOn_eq_three_iff {t a b c : List Char} {x : Char} :
    t.splitOn x = [a, b, c] ↔ t = a ++ x :: (b ++ x :: c) ∧ x ∉ a ∧ x ∉ b ∧ x ∉ c := by
  constructor
  · intro h
    have ht : t = [x].intercalate [a, b, c] := by rw [← h, List.intercalate_splitOn]
    have hfree : ∀ w ∈ [a, b, c], x ∉ w := fun w hw =>
      not_mem_of_mem_splitOn (h ▸ hw : w ∈ t.splitOn x)
    exact ⟨by simpa using ht, hfree a (by simp), hfree b (by simp), hfree c (by simp)⟩
  · rintro ⟨rfl, ha, hb, hc⟩
    have hsplit : ([x].intercalate [a, b, c]).splitOn x = [a, b, c] :=
      List.splitOn_intercalate x (by simp [ha, hb, hc]) (by simp)
    simpa using hsplit

/-- A token's dot-separated segments are `h`, `p` and `g` exactly when the token is the three
joined by dots and none of them holds a dot. -/
theorem segments_eq_three_iff {t h p g : String} :
    (t.toList.splitOn '.').map String.ofList = [h, p, g] ↔
      t = h ++ "." ++ p ++ "." ++ g ∧ '.' ∉ h.toList ∧ '.' ∉ p.toList ∧ '.' ∉ g.toList := by
  have hmap : ∀ l : List (List Char), l.map String.ofList = [h, p, g] ↔
      l = [h.toList, p.toList, g.toList] := fun l => by
    constructor
    · intro H
      simpa [List.map_map, Function.comp_def] using congrArg (List.map String.toList) H
    · rintro rfl
      simp
  rw [hmap, splitOn_eq_three_iff, ← String.toList_inj]
  simp

/-! ## The order of the checks -/

/-- The token `t` is a header `h`, a claims segment `p` and a signature `g` joined by dots, none of
them holding a dot; the signature decodes to the HMAC-SHA256 of `h.p` under the secret, and the
claims segment decodes to the claims `c`. -/
def Signed (t secret : String) (c : Claims) : Prop :=
  ∃ h p g, t = h ++ "." ++ p ++ "." ++ g ∧ '.' ∉ h.toList ∧ '.' ∉ p.toList ∧ '.' ∉ g.toList ∧
    decodeUrl g = some (hmacSha256 secret.toUTF8.toList (h ++ "." ++ p).toUTF8.toList) ∧
    ∃ bytes, decodeUrl p = some bytes ∧ parseClaims bytes = some c

variable {t secret : String} {now : Nat} {c c' : Claims}

/-- A token is signed when its three segments check out the way verification checks them. -/
theorem signed_iff_segments : Signed t secret c ↔ ∃ h p g,
    (t.toList.splitOn '.').map String.ofList = [h, p, g] ∧
    decodeUrl g = some (hmacSha256 secret.toUTF8.toList (h ++ "." ++ p).toUTF8.toList) ∧
    (decodeUrl p).bind parseClaims = some c := by
  simp only [Signed, segments_eq_three_iff, Option.bind_eq_some_iff, and_assoc]

/-- A token signs for one set of claims at most. -/
theorem Signed.unique (h : Signed t secret c) (h' : Signed t secret c') : c = c' := by
  obtain ⟨_, _, _, hseg, -, hc⟩ := signed_iff_segments.1 h
  obtain ⟨_, _, _, hseg', -, hc'⟩ := signed_iff_segments.1 h'
  rw [hseg] at hseg'
  simp only [List.cons.injEq, and_true] at hseg'
  obtain ⟨-, rfl, -⟩ := hseg'
  exact Option.some.inj (hc.symm.trans hc')

/-- What verification finds: the claims of a signed token, refused when they have expired, or
`invalid token` for a token that is not signed. -/
theorem verifyToken_cases (t secret : String) (now : Nat) :
    (∃ c, Signed t secret c ∧
      verifyToken t secret now = if c.exp < now then .error .tokenExpired else .ok c) ∨
    ((∀ c, ¬ Signed t secret c) ∧ verifyToken t secret now = .error .invalidToken) := by
  unfold verifyToken
  split
  · rename_i h p g hseg
    have hsigned : ∀ c, Signed t secret c ↔
        decodeUrl g = some (hmacSha256 secret.toUTF8.toList (h ++ "." ++ p).toUTF8.toList) ∧
        (decodeUrl p).bind parseClaims = some c := fun c => by
      rw [signed_iff_segments]
      constructor
      · rintro ⟨h', p', g', hs, hg, hc⟩
        rw [hseg] at hs
        simp only [List.cons.injEq, and_true] at hs
        obtain ⟨rfl, rfl, rfl⟩ := hs
        exact ⟨hg, hc⟩
      · rintro ⟨hg, hc⟩
        exact ⟨h, p, g, hseg, hg, hc⟩
    dsimp only
    cases hg : decodeUrl g with
    | none => exact .inr ⟨fun c h => by simp [((hsigned c).1 h).1] at hg, rfl⟩
    | some given =>
      by_cases hgiven : given = hmacSha256 secret.toUTF8.toList (h ++ "." ++ p).toUTF8.toList
      · subst hgiven
        simp only [bne_self_eq_false, Bool.false_eq_true, if_false]
        cases hc : (decodeUrl p).bind parseClaims with
        | none => exact .inr ⟨fun c h => by simp [((hsigned c).1 h).2] at hc, rfl⟩
        | some c => exact .inl ⟨c, (hsigned c).2 ⟨hg, hc⟩, rfl⟩
      · dsimp only
        rw [if_pos (by simpa using hgiven)]
        refine .inr ⟨fun c hc => hgiven ?_, rfl⟩
        rw [((hsigned c).1 hc).1, Option.some.injEq] at hg
        exact hg.symm
  · rename_i hseg
    refine .inr ⟨fun c hc => ?_, rfl⟩
    obtain ⟨h, p, g, hs, -⟩ := signed_iff_segments.1 hc
    exact hseg h p g hs

theorem verifyToken_eq_ok_iff : verifyToken t secret now = .ok c ↔ Signed t secret c ∧ now ≤ c.exp := by
  rcases verifyToken_cases t secret now with ⟨c₀, hs, hv⟩ | ⟨hns, hv⟩
  · rw [hv]
    constructor
    · intro h
      split at h
      · cases h
      · cases h
        exact ⟨hs, by omega⟩
    · rintro ⟨hc, hle⟩
      obtain rfl := hs.unique hc
      rw [if_neg (by omega)]
  · rw [hv]
    exact ⟨(fun h => by cases h), fun h => absurd h.1 (hns c)⟩

theorem verifyToken_eq_expired_iff :
    verifyToken t secret now = .error .tokenExpired ↔ ∃ c, Signed t secret c ∧ c.exp < now := by
  rcases verifyToken_cases t secret now with ⟨c₀, hs, hv⟩ | ⟨hns, hv⟩
  · rw [hv]
    constructor
    · intro h
      split at h
      · exact ⟨c₀, hs, by assumption⟩
      · cases h
    · rintro ⟨c, hc, hlt⟩
      obtain rfl := hs.unique hc
      rw [if_pos hlt]
  · rw [hv]
    exact ⟨(fun h => by cases h), fun h => h.elim fun c hc => absurd hc.1 (hns c)⟩

theorem verifyToken_eq_invalid_iff :
    verifyToken t secret now = .error .invalidToken ↔ ∀ c, ¬ Signed t secret c := by
  rcases verifyToken_cases t secret now with ⟨c₀, hs, hv⟩ | ⟨hns, hv⟩
  · rw [hv]
    refine ⟨fun h => ?_, fun h => absurd hs (h c₀)⟩
    split at h <;> cases h
  · exact ⟨fun _ => hns, fun _ => hv⟩

/-- Verification fails only as `invalid token` or `token expired`. -/
theorem verifyToken_eq_error {e : AuthError} (h : verifyToken t secret now = .error e) :
    e = .invalidToken ∨ e = .tokenExpired := by
  rcases verifyToken_cases t secret now with ⟨c₀, -, hv⟩ | ⟨-, hv⟩
  · rw [hv] at h
    split at h
    · cases h
      exact .inr rfl
    · cases h
  · rw [hv] at h
    cases h
    exact .inl rfl

/-! ## The player a token speaks for -/

/-- The value of a run of decimal digits. -/
def decimalValue (ds : List Char) : Nat := ds.foldl (fun n c => 10 * n + (c.toNat - 48)) 0

/-- `cs` is the decimal numeral of the 64-bit signed integer `n`: at least one digit, after an
optional `+` or `-`. -/
def Int64Numeral (cs : List Char) (n : Int) : Prop :=
  ∃ ds, ds ≠ [] ∧ (∀ d ∈ ds, d.isDigit) ∧
    ((cs = ds ∨ cs = '+' :: ds) ∧ n = decimalValue ds ∧ n < Nat.pow 2 63 ∨
      cs = '-' :: ds ∧ n = -(decimalValue ds : Int) ∧ -(Nat.pow 2 63 : Int) ≤ n)

/-- `core` is `s` with its whitespace at both ends taken away. -/
def Trimmed (s core : String) : Prop :=
  ∃ pre post, s.toList = pre ++ core.toList ++ post ∧ (∀ x ∈ pre, Text.isWhite x) ∧
    (∀ x ∈ post, Text.isWhite x) ∧ (∀ x ∈ core.toList.head?, Text.isWhite x = false) ∧
    ∀ x ∈ core.toList.getLast?, Text.isWhite x = false

theorem digitsValue_eq_some {ds : List Char} {v : Nat} :
    Text.digitsValue ds = some v ↔ ds ≠ [] ∧ (∀ d ∈ ds, d.isDigit) ∧ v = decimalValue ds := by
  unfold Text.digitsValue
  by_cases h : ds.isEmpty || !ds.all Char.isDigit
  · simp only [Bool.or_eq_true, List.isEmpty_iff, Bool.not_eq_eq_eq_not, Bool.not_true,
      List.all_eq_false, Bool.not_eq_true] at h
    rcases h with h | ⟨d, hd, hnd⟩
    · simp [h]
    · simp only [Bool.or_eq_true, List.isEmpty_iff, Bool.not_eq_eq_eq_not, Bool.not_true,
        List.all_eq_false]
      rw [if_pos (.inr ⟨d, hd, by simpa using hnd⟩)]
      simp only [reduceCtorEq, false_iff, not_and]
      exact fun _ hall => absurd (hall d hd) (by simpa using hnd)
  · rw [if_neg h]
    simp only [Bool.or_eq_true, List.isEmpty_iff, Bool.not_eq_eq_eq_not, Bool.not_true,
      List.all_eq_false, Bool.not_eq_true, not_or, not_exists, not_and] at h
    simp only [Option.some.injEq, decimalValue]
    exact ⟨fun hv => ⟨h.1, fun d hd => by simpa using h.2 d hd, hv.symm⟩, fun h => h.2.2.symm⟩

/-- A subject is read as a 64-bit integer exactly when it is such a numeral. -/
theorem parseInt64_eq_some_iff {s : String} {n : Int} :
    Text.parseInt64 s = some n ↔ Int64Numeral s.toList n := by
  unfold Text.parseInt64
  have hminus : ('-').isDigit = false := by decide
  have hplus : ('+').isDigit = false := by decide
  generalize s.toList = cs
  simp only [Int64Numeral]
  split
  · rename_i rest
    simp only [Option.bind_eq_bind, Option.bind_eq_some_iff, digitsValue_eq_some]
    constructor
    · rintro ⟨v, ⟨hne, hd, rfl⟩, hv⟩
      split at hv
      · cases hv
        exact ⟨rest, hne, hd, .inr ⟨rfl, rfl, by omega⟩⟩
      · cases hv
    · rintro ⟨ds, hne, hd, ⟨hcs | hcs, -⟩ | ⟨hcs, rfl, hlo⟩⟩
      · simpa [hminus] using hd '-' (by simp [← hcs])
      · cases hcs
      · obtain rfl := (List.cons.inj hcs).2
        exact ⟨_, ⟨hne, hd, rfl⟩, by rw [if_pos (by omega)]⟩
  · rename_i hcs
    simp only [Option.bind_eq_bind, Option.bind_eq_some_iff, digitsValue_eq_some]
    split
    · rename_i rest
      constructor
      · rintro ⟨v, ⟨hne, hd, rfl⟩, hv⟩
        split at hv
        · cases hv
          exact ⟨rest, hne, hd, .inl ⟨.inr rfl, rfl, by omega⟩⟩
        · cases hv
      · rintro ⟨ds, hne, hd, ⟨hds | hds, rfl, hhi⟩ | ⟨hds, -⟩⟩
        · simpa [hplus] using hd '+' (by simp [← hds])
        · obtain rfl := (List.cons.inj hds).2
          exact ⟨_, ⟨hne, hd, rfl⟩, by rw [if_pos (by omega)]⟩
        · cases hds
    · rename_i hnplus
      constructor
      · rintro ⟨v, ⟨hne, hd, rfl⟩, hv⟩
        split at hv
        · cases hv
          exact ⟨cs, hne, hd, .inl ⟨.inl rfl, rfl, by omega⟩⟩
        · cases hv
      · rintro ⟨ds, hne, hd, ⟨rfl | hds, rfl, hhi⟩ | ⟨hds, -⟩⟩
        · exact ⟨_, ⟨hne, hd, rfl⟩, by rw [if_pos (by omega)]⟩
        · exact absurd hds (hnplus ds)
        · exact absurd hds (hcs ds)

/-- Trimming takes away the whitespace at both ends and no more. -/
theorem trimmed_trimWhite (s : String) : Trimmed s (Text.trimWhite s) := by
  unfold Text.trimWhite Trimmed
  obtain ⟨a, ha⟩ : ∃ a, a = s.toList.dropWhile Text.isWhite := ⟨_, rfl⟩
  obtain ⟨b, hb⟩ : ∃ b, b = a.reverse.dropWhile Text.isWhite := ⟨_, rfl⟩
  have hs : s.toList = s.toList.takeWhile Text.isWhite ++ a := by
    rw [ha, List.takeWhile_append_dropWhile]
  have hra : a.reverse = a.reverse.takeWhile Text.isWhite ++ b := by
    rw [hb, List.takeWhile_append_dropWhile]
  have hahead : ∀ x ∈ a.head?, Text.isWhite x = false := fun x hx => by
    have := List.head?_dropWhile_not Text.isWhite s.toList
    rw [← ha, Option.mem_def.1 hx] at this
    exact this
  have hbhead : ∀ x ∈ b.head?, Text.isWhite x = false := fun x hx => by
    have := List.head?_dropWhile_not Text.isWhite a.reverse
    rw [← hb, Option.mem_def.1 hx] at this
    exact this
  rw [← ha, ← hb, String.toList_ofList]
  refine ⟨s.toList.takeWhile Text.isWhite, (a.reverse.takeWhile Text.isWhite).reverse, ?_,
    fun x hx => List.all_eq_true.1 List.all_takeWhile x hx,
    fun x hx => List.all_eq_true.1 List.all_takeWhile x (List.mem_reverse.1 hx), ?_, ?_⟩
  · have ha' : a = b.reverse ++ (a.reverse.takeWhile Text.isWhite).reverse := by
      simpa using congrArg List.reverse hra
    rw [List.append_assoc, ← ha']
    exact hs
  · intro x hx
    rw [List.head?_reverse] at hx
    have hlast : a.reverse.getLast? = some x := by
      rw [hra, List.getLast?_append, Option.mem_def.1 hx, Option.some_or]
    rw [List.getLast?_reverse] at hlast
    exact hahead x hlast
  · intro x hx
    rw [List.getLast?_reverse] at hx
    exact hbhead x hx

/-- The player a token's claims speak for is the subject, trimmed, read as a numeral. -/
theorem playerId_eq_some_iff {c : Claims} {n : Int} :
    c.playerId = some n ↔ Int64Numeral (Text.trimWhite c.sub).toList n :=
  parseInt64_eq_some_iff

/-! ## Main statement -/

/-- A token is accepted, with its claims, exactly when it is signed and unexpired, reported
expired exactly when it is signed and expired, and invalid exactly when it is not signed. -/
theorem verifyToken_decides (t secret : String) (now : Nat) :
    (∀ c, verifyToken t secret now = .ok c ↔ Signed t secret c ∧ now ≤ c.exp) ∧
    (verifyToken t secret now = .error .tokenExpired ↔ ∃ c, Signed t secret c ∧ c.exp < now) ∧
    (verifyToken t secret now = .error .invalidToken ↔ ∀ c, ¬ Signed t secret c) ∧
    (∀ e, verifyToken t secret now = .error e → e = .invalidToken ∨ e = .tokenExpired) ∧
    (∀ (c : Claims) (n : Int), c.playerId = some n ↔ Int64Numeral (Text.trimWhite c.sub).toList n) ∧
    ∀ sub, Trimmed sub (Text.trimWhite sub) :=
  ⟨fun _ => verifyToken_eq_ok_iff, verifyToken_eq_expired_iff, verifyToken_eq_invalid_iff,
    fun _ => verifyToken_eq_error, fun _ _ => playerId_eq_some_iff, trimmed_trimWhite⟩

end Skirmish.Auth
