import Skirmish.Proofs.Wire.Reads

/-!
# Strings and numbers read back

The body of a string literal written by `quote` reads back as the string (`reads_readString`,
with `bytesOf_quote` for the literal's bytes), the decimal text of a natural number up to
`u64Max` as that number (`reads_readNumber`), and a decimal `n.f…` as the float of its digits.

A string's bytes come in rounds, as the reader takes them: a run of characters written as
themselves, none of whose bytes stops a string (`stopsString_utf8EncodeChar`), then either the
closing quote or one escaped character, whose escape gives back the character's UTF-8 bytes
(`escapedBytes_escape`). The reader collects the bytes and decodes them at the closing quote, so
the induction runs over the characters left, with those before them as the bytes collected
(`reads_stringBody`).

A number's digits are read one at a time into a 64-bit significand. While the number's value
stays in range no prefix overflows, and the byte after the digits hands over to the tail of the
number (`reads_readNumber_then`): a delimiter ends it, and a point starts a fraction, whose digits
are read on into the significand and make the number a float (`reads_readNumber_fraction`).
-/

namespace Skirmish.Json

open Reader

/-! ## Characters inside a string literal -/

/-- Whether a character is written as itself inside a string literal. -/
def plainChar (c : Char) : Bool := 32 ≤ c.toNat && c != '"' && c != '\\'

/-- The bytes that stand for `c` inside a string literal. -/
def escapedBytes (c : Char) : List UInt8 := (escapeChar c).flatMap String.utf8EncodeChar

theorem escapeChar_of_plain {c : Char} (h : plainChar c = true) : escapeChar c = [c] := by
  simp only [plainChar, Bool.and_eq_true, decide_eq_true_eq, bne_iff_ne, ne_eq] at h
  obtain ⟨⟨h32, hq⟩, hb⟩ := h
  unfold escapeChar
  split_ifs <;> simp_all
  omega

theorem stopsString_eq_false {b : UInt8} (h32 : 32 ≤ b.toNat) (h34 : b.toNat ≠ 34)
    (h92 : b.toNat ≠ 92) : stopsString b = false := by
  have h34' : b ≠ 34 := fun h => h34 (by simp [h])
  have h92' : b ≠ 92 := fun h => h92 (by simp [h])
  have hlt : ¬ b < 32 := by rw [UInt8.lt_iff_toNat_lt]; simpa using h32
  simp [stopsString, h34', h92', hlt]

/-- No byte of a character written as itself stops a string: an ASCII one is none of the
stopping bytes, and every byte of a longer encoding is at least `0x80`. -/
theorem stopsString_utf8EncodeChar {c : Char} (h : plainChar c = true) :
    ∀ b ∈ String.utf8EncodeChar c, stopsString b = false := by
  simp only [plainChar, Bool.and_eq_true, decide_eq_true_eq, bne_iff_ne, ne_eq] at h
  obtain ⟨⟨h32, hq⟩, hb⟩ := h
  have hq' : c.toNat ≠ 34 := fun h => hq (Char.ext (UInt32.toNat_inj.1 h))
  have hb' : c.toNat ≠ 92 := fun h => hb (Char.ext (UInt32.toNat_inj.1 h))
  have hv : c.val.toNat = c.toNat := rfl
  intro b hmem
  simp only [String.utf8EncodeChar, hv] at hmem
  split_ifs at hmem <;> simp only [List.mem_cons, List.not_mem_nil, or_false] at hmem <;>
    rcases hmem with rfl | rfl | rfl | rfl <;>
    exact stopsString_eq_false (by simp; omega) (by simp; omega) (by simp; omega)

/-- The hex digits of an escape, each one byte that reads back as its value. -/
theorem hexDigit_bytes : ∀ k, k < 16 →
    String.utf8EncodeChar (hexDigit k) = [(hexDigit k).toNat.toUInt8] ∧
      hexValue (hexDigit k).toNat.toUInt8 = some k ∧ (hexDigit k).toNat.toUInt8 ≠ 10 := by
  decide

theorem reads_nextInString (b : UInt8) (P : List UInt8 → Prop) : Reads nextInString [b] b P :=
  Reads.bind (reads_next b P) (Reads.pure b) fun _ h => h

theorem reads_hexEscape {a b d e : UInt8} {w x y z : Nat} (ha : hexValue a = some w)
    (hb : hexValue b = some x) (hd : hexValue d = some y) (he : hexValue e = some z)
    (P : List UInt8 → Prop) :
    Reads hexEscape [a, b, d, e] (((w * 16 + x) * 16 + y) * 16 + z) P := by
  intro rest _ line column
  have hrest := Cursor.bumpN_rest 4 ⟨[a, b, d, e] ++ rest, line, column⟩
  rcases hc : Cursor.bumpN 4 ⟨[a, b, d, e] ++ rest, line, column⟩ with ⟨rest', line', column'⟩
  rw [hc] at hrest
  obtain rfl : rest' = rest := by simpa using hrest
  refine ⟨line', column', ?_⟩
  simp only [hexEscape, List.cons_append, ha, hb, hd, he, ← hc]

/-- A control character written as `\u00xx` reads back as its one byte. -/
theorem reads_unicodeEscape_control {c : Char} (h : c.toNat < 32) :
    Reads unicodeEscape ([48, 48] ++ (String.utf8EncodeChar (hexDigit (c.toNat / 16)) ++
      String.utf8EncodeChar (hexDigit (c.toNat % 16)))) (String.utf8EncodeChar c)
      fun _ => True := by
  obtain ⟨hhi, vhi, -⟩ := hexDigit_bytes (c.toNat / 16) (by omega)
  obtain ⟨hlo, vlo, -⟩ := hexDigit_bytes (c.toNat % 16) (by omega)
  rw [hhi, hlo]
  show Reads unicodeEscape ([48, 48, _, _] ++ []) _ _
  have h48 : hexValue 48 = some 0 := rfl
  have hn : ((0 * 16 + 0) * 16 + c.toNat / 16) * 16 + c.toNat % 16 = c.toNat := by omega
  refine Reads.bind (reads_hexEscape h48 h48 vhi vlo fun _ => True) ?_ fun _ _ => trivial
  rw [hn, if_neg (by omega), if_pos (by omega)]
  have hc : c.val.toNat = c.toNat := rfl
  have hbytes : utf8Bytes c.toNat = String.utf8EncodeChar c := by
    simp [utf8Bytes, String.utf8EncodeChar, hc, show c.toNat < 128 by omega,
      show c.toNat ≤ 127 by omega]
  rw [hbytes]
  exact Reads.pure _

/-- An escaped character: a backslash, then an escape that gives back its UTF-8 bytes. -/
theorem escapedBytes_escape {c : Char} (h : plainChar c = false) :
    ∃ code, escapedBytes c = 92 :: code ∧
      Reads escape code (String.utf8EncodeChar c) fun _ => True := by
  have hc : c = Char.ofNat c.toNat := (Char.ofNat_toNat c).symm
  unfold escapedBytes escapeChar
  split_ifs with h1 h2 h3 h4 h5 h6 h7 h8
  · subst h1; exact ⟨[34], rfl, fun rest _ line column => ⟨line, column + 1, rfl⟩⟩
  · subst h2; exact ⟨[92], rfl, fun rest _ line column => ⟨line, column + 1, rfl⟩⟩
  · subst h3; exact ⟨[110], rfl, fun rest _ line column => ⟨line, column + 1, rfl⟩⟩
  · subst h4; exact ⟨[114], rfl, fun rest _ line column => ⟨line, column + 1, rfl⟩⟩
  · subst h5; exact ⟨[116], rfl, fun rest _ line column => ⟨line, column + 1, rfl⟩⟩
  · rw [hc, h6]; exact ⟨[98], rfl, fun rest _ line column => ⟨line, column + 1, rfl⟩⟩
  · rw [hc, h7]; exact ⟨[102], rfl, fun rest _ line column => ⟨line, column + 1, rfl⟩⟩
  · refine ⟨[117] ++ ([48, 48] ++ (String.utf8EncodeChar (hexDigit (c.toNat / 16)) ++
      String.utf8EncodeChar (hexDigit (c.toNat % 16)))), ?_, ?_⟩
    · simp only [List.flatMap_cons, List.flatMap_nil, List.append_nil]
      rfl
    exact Reads.bind (reads_nextInString 117 fun _ => True) (reads_unicodeEscape_control h8)
      fun _ _ => trivial
  · simp [plainChar, h1, h2, Nat.not_lt.1 h8] at h

/-! ## Strings -/

/-- A run of bytes none of which stops a string is the plain prefix of any text it starts,
when the next byte stops it. -/
theorem plainPrefix_append {bs rest : List UInt8} (h : ∀ b ∈ bs, stopsString b = false)
    (hrest : ∃ b, rest.head? = some b ∧ stopsString b = true) : plainPrefix (bs ++ rest) = bs := by
  induction bs with
  | nil =>
    obtain ⟨b, hb, hs⟩ := hrest
    obtain ⟨r, rfl⟩ : ∃ r, rest = b :: r := by
      cases rest with
      | nil => cases hb
      | cons x r => exact ⟨r, by simp_all⟩
    simp [plainPrefix, hs]
  | cons x xs ih =>
    simp [plainPrefix, h x (by simp), ih fun b hb => h b (by simp [hb])]

theorem reads_plainRun {bs : List UInt8} (h : ∀ b ∈ bs, stopsString b = false) :
    Reads plainRun bs bs fun rest => ∃ b, rest.head? = some b ∧ stopsString b = true := by
  intro rest hrest line column
  refine ⟨line, column + bs.length, ?_⟩
  simp [plainRun, plainPrefix_append h hrest]

/-- Characters written as themselves are their UTF-8 bytes. -/
theorem flatMap_escapedBytes_of_plain {cs : List Char} (h : ∀ c ∈ cs, plainChar c = true) :
    cs.flatMap escapedBytes = cs.flatMap String.utf8EncodeChar :=
  List.flatMap_congr fun c hc => by simp [escapedBytes, escapeChar_of_plain (h c hc)]

/-- The body of a string literal: `cs` escaped, then the closing quote, read with the bytes of
`done` already collected. Each round takes the longest run of plain characters and then the
closing quote or one escape, which is at least one byte, so the fuel lasts. -/
theorem reads_stringBody (cs done : List Char) (fuel : Nat)
    (hfuel : (cs.flatMap escapedBytes).length < fuel) :
    Reads (stringBody (done.flatMap String.utf8EncodeChar) fuel) (cs.flatMap escapedBytes ++ [34])
      (String.ofList (done ++ cs)) fun _ => True := by
  obtain ⟨fuel, rfl⟩ : ∃ f, fuel = f + 1 := ⟨fuel - 1, by omega⟩
  have hsplit := List.takeWhile_append_dropWhile (p := plainChar) (l := cs)
  have hplain : ∀ c ∈ cs.takeWhile plainChar, plainChar c = true :=
    fun c hc => List.mem_takeWhile_imp hc
  generalize cs.takeWhile plainChar = p at hsplit hplain
  have hrun : ∀ b ∈ p.flatMap String.utf8EncodeChar, stopsString b = false := by
    intro b hb
    obtain ⟨c, hc, hbc⟩ := List.mem_flatMap.1 hb
    exact stopsString_utf8EncodeChar (hplain c hc) b hbc
  rcases htail : cs.dropWhile plainChar with _ | ⟨e, tail⟩
  · rw [htail, List.append_nil] at hsplit
    subst hsplit
    have hdec : decodeUtf8 (done.flatMap String.utf8EncodeChar ++
        p.flatMap String.utf8EncodeChar) = some (String.ofList (done ++ p)) := by
      rw [← List.flatMap_append, ← bytesOf_ofList, decodeUtf8_bytesOf]
    rw [flatMap_escapedBytes_of_plain hplain]
    refine Reads.bind (reads_plainRun hrun) ?_ fun _ _ => ⟨34, rfl, rfl⟩
    refine Reads.peek_bind ?_
    rw [hdec]
    exact Reads.bind (reads_bump 34 fun _ => True) (Reads.pure _) fun _ _ => trivial
  · have he : plainChar e = false := by
      simpa [htail] using List.head_dropWhile_not plainChar (l := cs) (by simp [htail])
    obtain ⟨code, hcode, hesc⟩ := escapedBytes_escape he
    rw [htail] at hsplit
    subst hsplit
    have hlen : (tail.flatMap escapedBytes).length < fuel := by
      simp only [List.flatMap_append, List.flatMap_cons, hcode, List.length_append,
        List.length_cons] at hfuel
      omega
    have ih := reads_stringBody tail (done ++ p ++ [e]) fuel hlen
    rw [List.flatMap_append, List.flatMap_append, List.flatMap_singleton] at ih
    have htext : (p ++ e :: tail).flatMap escapedBytes ++ [34] =
        p.flatMap String.utf8EncodeChar ++
          ([92] ++ (code ++ (tail.flatMap escapedBytes ++ [34]))) := by
      simp [flatMap_escapedBytes_of_plain hplain, hcode]
    rw [htext, show done ++ (p ++ e :: tail) = done ++ p ++ [e] ++ tail by simp]
    refine Reads.bind (reads_plainRun hrun) ?_ fun _ _ => ⟨92, rfl, rfl⟩
    refine Reads.peek_bind ?_
    refine Reads.bind (reads_bump 92 fun _ => True) ?_ fun _ _ => trivial
    exact Reads.bind hesc ih fun _ _ => trivial
termination_by cs.length
decreasing_by
  have h := congrArg List.length hsplit
  rw [‹List.dropWhile plainChar cs = e :: tail›] at h
  simp only [List.length_append, List.length_cons] at h
  omega

/-- A string literal written by `quote`, past its opening quote, reads back as the string. -/
theorem reads_readString (s : String) :
    Reads readString (s.toList.flatMap escapedBytes ++ [34]) s fun _ => True := by
  refine Reads.remaining_fuel (fun fuel hfuel => ?_) (Nat.le_refl _)
  have h := reads_stringBody s.toList [] fuel (by simp only [List.length_append] at hfuel; omega)
  rwa [List.nil_append, String.ofList_toList] at h

theorem bytesOf_quote (s : String) :
    bytesOf (quote s) = 34 :: (s.toList.flatMap escapedBytes ++ [34]) := by
  simp only [quote, bytesOf_append, bytesOf_ofList, List.flatMap_assoc, bytesOf_eq "\""]
  rfl

/-! ## Numbers -/

/-- A decimal digit is one byte, which the reader takes as a digit of the same value. -/
theorem digit_bytes {c : Char} (h : c.isDigit = true) :
    String.utf8EncodeChar c = [c.toNat.toUInt8] ∧ isDigit c.toNat.toUInt8 = true ∧
      c.toNat.toUInt8.toNat = c.toNat := by
  have hr := Char.isDigit_iff_toNat.1 h
  simp only [Char.reduceToNat] at hr
  have hv : c.val.toNat = c.toNat := rfl
  refine ⟨by simp [String.utf8EncodeChar, hv, show c.toNat ≤ 127 by omega], ?_, ?_⟩
  · simp [isDigit, UInt8.le_iff_toNat_le]; omega
  · simp; omega

theorem length_digitBytes {ds : List Char} (hds : ∀ d ∈ ds, d.isDigit = true) :
    (ds.flatMap String.utf8EncodeChar).length = ds.length := by
  induction ds with
  | nil => rfl
  | cons d ds ih => simp [(digit_bytes (hds d (by simp))).1, ih fun e he => hds e (by simp [he])]

/-- The decimal digits of a positive number do not start with `0`. -/
theorem toDigits_head {n : Nat} (h : 0 < n) : ∃ c ds, Nat.toDigits 10 n = c :: ds ∧ c ≠ '0' := by
  induction n using Nat.strong_induction_on with
  | _ n ih =>
    by_cases hn : n < 10
    · have hlead : ∀ m, m < 10 → 0 < m → m.digitChar ≠ '0' := by decide
      exact ⟨n.digitChar, [], Nat.toDigits_of_lt_base hn, hlead n hn h⟩
    · obtain ⟨c, ds, hcd, hc⟩ := ih (n / 10) (by omega) (by omega)
      refine ⟨c, ds ++ [(n % 10).digitChar], ?_, hc⟩
      rw [Nat.toDigits_of_base_le (by omega) (by omega), hcd, List.cons_append]

/-- One more digit `c` of the digits `c :: ds`: the value of the digits is read on from the
larger significand, and no overflow occurs while that value stays in range. -/
theorem digit_step {c : Char} (hc : c.isDigit = true) (ds : List Char) (sig : Nat)
    (hmax : Nat.ofDigitChars 10 (c :: ds) sig ≤ u64Max) :
    Nat.ofDigitChars 10 (c :: ds) sig =
      Nat.ofDigitChars 10 ds (sig * 10 + (c.toNat.toUInt8.toNat - 48)) ∧
    overflows sig (c.toNat.toUInt8.toNat - 48) = false := by
  have hstep : Nat.ofDigitChars 10 (c :: ds) sig =
      Nat.ofDigitChars 10 ds (sig * 10 + (c.toNat.toUInt8.toNat - 48)) := by
    rw [Nat.ofDigitChars_cons, (digit_bytes hc).2.2, Nat.mul_comm]
    rfl
  refine ⟨hstep, ?_⟩
  have hle := @Nat.ofDigitChars_eq_ofDigitChars_zero ds (sig * 10 + (c.toNat.toUInt8.toNat - 48))
  have hpos : 1 ≤ 10 ^ ds.length := Nat.one_le_pow _ _ (by decide)
  rw [hstep, hle] at hmax
  simp only [overflows, decide_eq_false_iff_not, Nat.not_lt]
  calc sig * 10 + (c.toNat.toUInt8.toNat - 48)
      ≤ 10 ^ ds.length * (sig * 10 + (c.toNat.toUInt8.toNat - 48)) :=
        Nat.le_mul_of_pos_left _ hpos
    _ ≤ u64Max := by omega

theorem le_ofDigitChars (ds : List Char) (sig : Nat) : sig ≤ Nat.ofDigitChars 10 ds sig := by
  rw [Nat.ofDigitChars_eq_ofDigitChars_zero]
  have hpos : 1 ≤ 10 ^ ds.length := Nat.one_le_pow _ _ (by decide)
  exact Nat.le_add_right_of_le (Nat.le_mul_of_pos_left _ hpos)

section Digits

variable {α : Type} {u : List UInt8} {P : List UInt8 → Prop}

/-- The bytes after `u`, for every rest `P` admits, do not start with a digit. -/
def NoDigitAfter (u : List UInt8) (P : List UInt8 → Prop) : Prop :=
  ∀ rest, P rest → ∀ b, (u ++ rest).head? = some b → isDigit b = false

theorem noDigitAfter_delimited : NoDigitAfter [] Delimited := by
  rintro rest (h | h) b hb <;>
    · rw [List.nil_append, h, Option.some.injEq] at hb
      subst hb
      rfl

theorem noDigitAfter_point (u : List UInt8) : NoDigitAfter (46 :: u) P := by
  intro rest _ b hb
  rw [List.cons_append, List.head?_cons, Option.some.injEq] at hb
  subst hb
  rfl

/-- A reader that, at a delimiter, reads nothing and gives `a`. -/
theorem Reads.at_delimiter {r : Reader α} {a : α}
    (h : ∀ b rest line column, (b = 44 ∨ b = 125) →
      r ⟨b :: rest, line, column⟩ = .ok a ⟨b :: rest, line, column⟩) :
    Reads r [] a Delimited := by
  rintro (_ | ⟨b, rest⟩) hb line column
  · simp [Delimited] at hb
  · simp only [Delimited, List.head?_cons, Option.some.injEq] at hb
    exact ⟨line, column, h b rest line column hb⟩

/-- Looking for a digit where none stands goes on as the reader for a byte that is no digit. -/
theorem Reads.peekOrNull_nondigit {g : UInt8 → Reader α} {k : Reader α} {a : α}
    (hu : NoDigitAfter u P) (hk : Reads k u a P) :
    Reads (peekOrNull >>= fun b => if isDigit b then g b else k) u a P := by
  intro rest hrest line column
  have hnd : isDigit ((u ++ rest).head?.getD 0) = false := by
    cases hh : (u ++ rest).head? with
    | none => rfl
    | some b => exact hu rest hrest b hh
  obtain ⟨line', column', h⟩ := hk rest hrest line column
  refine ⟨line', column', ?_⟩
  show EStateM.bind peekOrNull _ _ = _
  simp only [EStateM.bind, Reader.peekOrNull, Cursor.peek?, hnd, Bool.false_eq_true, if_false, h]

/-- Digits after the first, read into the significand `sig`: none overflows while the whole
value is at most `u64Max`, and where no digit follows the tail of the number takes over. -/
theorem reads_integerDigits_then (positive : Bool) (ds : List Char)
    (hds : ∀ c ∈ ds, c.isDigit = true) (sig fuel : Nat) (hfuel : ds.length < fuel)
    (hmax : Nat.ofDigitChars 10 ds sig ≤ u64Max) {v : ParsedNumber} (hu : NoDigitAfter u P)
    (htail : Reads (numberTail positive (Nat.ofDigitChars 10 ds sig)) u v P) :
    Reads (integerDigits positive sig fuel) (ds.flatMap String.utf8EncodeChar ++ u) v P := by
  obtain ⟨fuel, rfl⟩ : ∃ f, fuel = f + 1 := ⟨fuel - 1, by omega⟩
  induction ds generalizing sig fuel with
  | nil => exact Reads.peekOrNull_nondigit hu htail
  | cons c ds ih =>
    obtain ⟨hbyte, hdigit, -⟩ := digit_bytes (hds c (by simp))
    obtain ⟨hstep, hno⟩ := digit_step (hds c (by simp)) ds sig hmax
    obtain ⟨fuel', rfl⟩ : ∃ f, fuel = f + 1 := ⟨fuel - 1, by simp at hfuel; omega⟩
    rw [hstep] at hmax htail
    rw [List.flatMap_cons, hbyte, List.singleton_append, List.cons_append]
    refine Reads.peekOrNull_bind ?_
    simp only [hdigit, hno, if_true, Bool.false_eq_true, if_false]
    exact Reads.bump_bind (ih (fun d hd => hds d (by simp [hd])) _ hmax htail fuel'
      (by simp at hfuel; omega))

/-- Fraction digits, read into the significand `sig` with `after` counting down the digits
taken: none overflows while the whole value is at most `u64Max`, and a delimiter ends them. -/
theorem reads_fractionDigits (positive : Bool) (fs : List Char) (hfs : ∀ c ∈ fs, c.isDigit = true)
    (sig : Nat) (before after : Int) (fuel : Nat) (hfuel : fs.length < fuel)
    (hmax : Nat.ofDigitChars 10 fs sig ≤ u64Max) :
    Reads (fractionDigits positive sig before after fuel) (fs.flatMap String.utf8EncodeChar)
      (.inl (Nat.ofDigitChars 10 fs sig, after - fs.length)) Delimited := by
  obtain ⟨fuel, rfl⟩ : ∃ f, fuel = f + 1 := ⟨fuel - 1, by omega⟩
  induction fs generalizing sig after fuel with
  | nil =>
    refine Reads.at_delimiter fun b rest line column hb => ?_
    rcases hb with rfl | rfl <;> (simp [fractionDigits]; rfl)
  | cons c fs ih =>
    obtain ⟨hbyte, hdigit, -⟩ := digit_bytes (hfs c (by simp))
    obtain ⟨hstep, hno⟩ := digit_step (hfs c (by simp)) fs sig hmax
    obtain ⟨fuel', rfl⟩ : ∃ f, fuel = f + 1 := ⟨fuel - 1, by simp at hfuel; omega⟩
    have hexp : after - ((c :: fs).length : Int) = after - 1 - fs.length := by
      simp only [List.length_cons, Nat.cast_add, Nat.cast_one]
      omega
    rw [hstep] at hmax
    rw [hstep, hexp, List.flatMap_cons, hbyte, List.singleton_append]
    refine Reads.peekOrNull_bind ?_
    simp only [hdigit, hno, if_true, Bool.false_eq_true, if_false]
    exact Reads.bump_bind (ih (fun d hd => hfs d (by simp [hd])) _ _ hmax fuel'
      (by simp at hfuel; omega))

/-- A reader run on fuel of one more than the bytes left, then a second one. -/
theorem Reads.remaining_fuel_bind {β : Type} {f : Nat → Reader β} {g : β → Reader α} {a : α}
    {k : Nat} (h : ∀ fuel, k < fuel → Reads (f fuel >>= g) u a P) (hk : k ≤ u.length) :
    Reads (remaining >>= fun n => f (n + 1) >>= g) u a P :=
  Reads.remaining_fuel h hk

end Digits

/-- A fraction `.f…` before a delimiter: its digits are read on into the significand, each one
lowering the exponent, and the number is the float of significand and exponent. -/
theorem reads_fractionPart (positive : Bool) {sig : Nat} {fs : List Char}
    (hfs : ∀ c ∈ fs, c.isDigit = true) (hne : fs ≠ []) (hmax : Nat.ofDigitChars 10 fs sig ≤ u64Max)
    {x : Float}
    (hx : Decimal.approximate (!positive) (Nat.ofDigitChars 10 fs sig) (-(fs.length : Int)) = some x) :
    Reads (fractionPart positive sig 0) (46 :: fs.flatMap String.utf8EncodeChar) x Delimited := by
  refine Reads.bump_bind (Reads.remaining_fuel_bind (fun fuel hfuel => ?_) (length_digitBytes hfs).ge)
  refine Reads.bind_nil (reads_fractionDigits positive fs hfs sig 0 0 fuel hfuel hmax) ?_
    fun _ h => h
  -- past the digits: no exponent follows the delimiter
  refine Reads.at_delimiter fun b rest line column hb => ?_
  rcases hb with rfl | rfl <;> (simp [hne, fromParts, hx]; rfl)

/-- The tail `.f…` of a number before a delimiter reads the fraction. -/
theorem reads_numberTail_fraction (positive : Bool) {sig : Nat} {fs : List Char}
    (hfs : ∀ c ∈ fs, c.isDigit = true) (hne : fs ≠ []) (hmax : Nat.ofDigitChars 10 fs sig ≤ u64Max)
    {x : Float}
    (hx : Decimal.approximate (!positive) (Nat.ofDigitChars 10 fs sig) (-(fs.length : Int)) = some x) :
    Reads (numberTail positive sig) (46 :: fs.flatMap String.utf8EncodeChar) (.float x) Delimited :=
  Reads.peekOrNull_bind (Reads.map (reads_fractionPart positive hfs hne hmax hx))

/-- A number's tail at a delimiter: the number is the significand read. -/
theorem reads_numberTail_end (sig : Nat) : Reads (numberTail true sig) [] (.unsigned sig) Delimited :=
  Reads.at_delimiter fun b rest line column hb => by rcases hb with rfl | rfl <;> rfl

/-- The decimal digits of a number up to `u64Max`, then the rest of the number: the digits are
read into the number, and the tail of the number is read after them. -/
theorem reads_readNumber_then (positive : Bool) {n : Nat} (hn : n ≤ u64Max) {u : List UInt8}
    {v : ParsedNumber} {P : List UInt8 → Prop} (hu : NoDigitAfter u P)
    (htail : Reads (numberTail positive n) u v P) :
    Reads (readNumber positive) (bytesOf (toString n) ++ u) v P := by
  rw [Nat.toString_eq_ofList_toDigits, bytesOf_ofList]
  rcases Nat.eq_zero_or_pos n with rfl | hpos
  · -- `0` stands alone: the byte after it is no digit.
    exact Reads.next_bind (Reads.peekOrNull_nondigit hu htail)
  · obtain ⟨c, ds, hcd, hc0⟩ := toDigits_head hpos
    have hdig : ∀ d ∈ c :: ds, d.isDigit = true := fun d hd =>
      Nat.isDigit_of_mem_toDigits (by decide) (by decide) (hcd ▸ hd)
    obtain ⟨hbyte, hdigit, hval⟩ := digit_bytes (hdig c (by simp))
    have hvalue : Nat.ofDigitChars 10 ds (c.toNat.toUInt8.toNat - 48) = n := by
      have := Nat.ofDigitChars_ten_toDigits (n := n)
      rw [hcd, Nat.ofDigitChars_cons] at this
      simpa [hval] using this
    have h48 : c.toNat.toUInt8 ≠ 48 := by
      intro h
      apply hc0
      have : c.toNat = 48 := by rw [← hval, h]; rfl
      exact Char.ext (UInt32.toNat_inj.1 this)
    rw [hcd, List.flatMap_cons, hbyte, List.singleton_append, List.cons_append]
    refine Reads.next_bind ?_
    show Reads _ (ds.flatMap String.utf8EncodeChar ++ u) _ _
    split
    · contradiction
    · rename_i h
      exact absurd (Option.some.inj h) h48
    · rename_i b _ h
      obtain rfl := Option.some.inj h
      rw [if_pos hdigit]
      refine Reads.remaining_fuel (fun fuel hfuel => ?_) (show ds.length ≤ _ by
        rw [List.length_append, length_digitBytes fun d hd => hdig d (by simp [hd])]
        omega)
      rw [← hvalue] at htail
      exact reads_integerDigits_then positive ds (fun d hd => hdig d (by simp [hd])) _ fuel
        (by omega) (by omega) hu htail

/-- The decimal text of a number up to `u64Max` reads back as that number. -/
theorem reads_readNumber {n : Nat} (hn : n ≤ u64Max) :
    Reads (readNumber true) (bytesOf (toString n)) (.unsigned n) Delimited := by
  simpa using reads_readNumber_then true hn noDigitAfter_delimited (reads_numberTail_end n)

/-- The decimal text `n.f…` reads back as the float of its digits, positive or negative as the
sign read before it says. -/
theorem reads_readNumber_fraction (positive : Bool) {n : Nat} {fs : List Char}
    (hfs : ∀ c ∈ fs, c.isDigit = true) (hne : fs ≠ []) (hmax : Nat.ofDigitChars 10 fs n ≤ u64Max)
    {x : Float}
    (hx : Decimal.approximate (!positive) (Nat.ofDigitChars 10 fs n) (-(fs.length : Int)) = some x) :
    Reads (readNumber positive) (bytesOf (toString n) ++ 46 :: fs.flatMap String.utf8EncodeChar)
      (.float x) Delimited :=
  reads_readNumber_then positive ((le_ofDigitChars fs n).trans hmax) (noDigitAfter_point _)
    (reads_numberTail_fraction positive hfs hne hmax hx)

end Skirmish.Json
