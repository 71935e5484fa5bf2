import Skirmish.Proofs.Wire.Tokens

/-!
# Typed values read back

The typed readers read back what the writer writes: a number within their range
(`reads_number_nat`), a boolean, a string and the name of a variant, `null` or a value as an
option (`reads_option_null`, `reads_option_some`), and a record written as an object
(`reads_readStruct`, `reads_visit_map`).

An option looks at the first byte past any whitespace and hands everything but `null` to its
reader. That is right for a reader that skips whitespace itself and refuses `null`
(`RefusesNull`); every reader built by `visit` without a value for `null`, and every scalar
reader, is one.

A record's members are read in the order written, each by the field its key names; the fields
take the partial record through the members (`ReadsMembers`). Keys that come once are never
refused as repeats, and once the closing bracket comes every required field has been seen.
-/

namespace Skirmish.Typed

open Json Reader

variable {α σ : Type}

/-! ## Whitespace and `null` -/

theorem skipSpaceFrom_skipSpace (rest : List UInt8) (line column : Nat) :
    (skipSpaceFrom rest line column).skipSpace = skipSpaceFrom rest line column := by
  induction rest generalizing line column with
  | nil => rfl
  | cons b rest ih =>
    by_cases h10 : b = 10
    · simp [skipSpaceFrom, h10, ih]
    · by_cases hs : isSpace b = true
      · simp [skipSpaceFrom, h10, hs, ih]
      · simp [skipSpaceFrom, h10, hs, Cursor.skipSpace]

theorem Cursor.skipSpace_skipSpace (c : Cursor) : c.skipSpace.skipSpace = c.skipSpace :=
  skipSpaceFrom_skipSpace c.rest c.line c.column

/-- A reader that starts by skipping whitespace reads the same from past the whitespace. -/
theorem placed_skipSpace_bind (k : Option UInt8 → Reader α) (c : Cursor) :
    placed (skipSpace >>= k) c = placed (skipSpace >>= k) c.skipSpace := by
  show EStateM.tryCatch (EStateM.bind skipSpace k) placeAt c =
    EStateM.tryCatch (EStateM.bind skipSpace k) placeAt c.skipSpace
  simp only [EStateM.tryCatch, EStateM.bind, Reader.skipSpace, Cursor.skipSpace_skipSpace]

/-- A reader that fails on every text. -/
def Fails (r : Reader α) : Prop := ∀ c, ∃ e c', r c = .error e c'

theorem Fails.bind {β : Type} {r : Reader β} {f : β → Reader α} (h : ∀ b, Fails (f b)) :
    Fails (r >>= f) := by
  intro c
  show ∃ e c', EStateM.bind r f c = .error e c'
  simp only [EStateM.bind]
  split
  · exact h _ _
  · exact ⟨_, _, rfl⟩

theorem fails_placeAt (e : ReadError) : Fails (placeAt e : Reader α) := fun _ => ⟨_, _, rfl⟩

/-- `invalid type` is a failure, whatever the text holds. -/
theorem peekInvalid_fails (expected : String) : Fails (peekInvalid expected : Reader α) := by
  unfold peekInvalid
  refine Fails.bind fun b => ?_
  split
  case h_8 =>
    dsimp only
    split
    · exact Fails.bind fun _ => Fails.bind fun _ => fails_placeAt _
    · exact Fails.bind fun _ => fails_placeAt _
  all_goals dsimp only
  all_goals repeat refine Fails.bind fun _ => ?_
  all_goals exact fails_placeAt _

/-- A reader of the text that skips whitespace first and refuses `null`. -/
structure RefusesNull (read : Reader α) : Prop where
  skips : ∀ c, read c = read c.skipSpace
  null : ∀ c, c.skipSpace.peek? = some 110 → ∃ e c', read c = .error e c'

theorem RefusesNull.placed {k : Option UInt8 → Reader α}
    (hnull : ∀ c : Cursor, c.skipSpace.peek? = some 110 →
      ∃ e c', k (some 110) c.skipSpace = .error e c') :
    RefusesNull (placed (skipSpace >>= k)) where
  skips := placed_skipSpace_bind k
  null c h := by
    obtain ⟨e, c', hk⟩ := hnull c h
    show ∃ e c', EStateM.tryCatch (EStateM.bind skipSpace k) placeAt c = _
    simp only [EStateM.tryCatch, EStateM.bind, Reader.skipSpace, h, hk]
    exact ⟨_, _, rfl⟩

theorem refusesNull_number (expected : String) (accept : ParsedNumber → Except ReadError α)
    (depth : Nat) : RefusesNull (number expected accept (.text depth)) :=
  RefusesNull.placed fun c _ => peekInvalid_fails expected c.skipSpace

theorem refusesNull_boolean (depth : Nat) : RefusesNull (boolean (.text depth)) :=
  RefusesNull.placed fun c _ => peekInvalid_fails _ c.skipSpace

theorem refusesNull_visit {v : Visitor α} (hunit : v.unit = none) (depth : Nat) :
    RefusesNull (visit v (.text depth)) :=
  RefusesNull.placed fun c _ => by
    simp only [hunit]
    exact peekInvalid_fails _ c.skipSpace

/-- `null` reads as the absent value. -/
theorem reads_option_null (read : Source → Reader α) (depth : Nat) (P : List UInt8 → Prop) :
    Reads (option read (.text depth)) (bytesOf "null") none P := by
  rw [bytesOf_eq]
  intro rest _ line column
  exact ⟨line, column + 4, rfl⟩

theorem option_text_of_ne_null (read : Source → Reader α) (depth : Nat) {c : Cursor}
    (h : c.skipSpace.peek? ≠ some 110) :
    option read (.text depth) c = (some <$> read (.text depth)) c.skipSpace := by
  unfold option
  show EStateM.bind skipSpace _ c = _
  simp only [EStateM.bind, Reader.skipSpace]

/-- Any other value is read by the option's reader. -/
theorem reads_option_some {read : Source → Reader α} {depth : Nat} {t : List UInt8} {a : α}
    {P : List UInt8 → Prop} (hr : Reads (read (.text depth)) t a P)
    (hnull : RefusesNull (read (.text depth))) :
    Reads (option read (.text depth)) t (some a) P := by
  intro rest hrest line column
  obtain ⟨line', column', h⟩ := hr rest hrest line column
  refine ⟨line', column', ?_⟩
  have hpeek : (Cursor.skipSpace ⟨t ++ rest, line, column⟩).peek? ≠ some 110 := by
    intro hp
    obtain ⟨e, c', he⟩ := hnull.null _ hp
    rw [h] at he
    cases he
  rw [option_text_of_ne_null read depth hpeek]
  show EStateM.map some (read (.text depth)) _ = _
  simp only [EStateM.map, ← hnull.skips, h]

/-! ## Scalars -/

/-- The first byte of a number's decimal text is a digit. -/
theorem bytesOf_toString_head (n : Nat) :
    ∃ b t, bytesOf (toString n) = b :: t ∧ isDigit b = true := by
  rw [Nat.toString_eq_ofList_toDigits, bytesOf_ofList]
  obtain ⟨c, ds, hcd⟩ : ∃ c ds, Nat.toDigits 10 n = c :: ds :=
    List.exists_cons_of_ne_nil Nat.toDigits_ne_nil
  have hc : c.isDigit = true :=
    Nat.isDigit_of_mem_toDigits (b := 10) (n := n) (by decide) (by decide) (by simp [hcd])
  obtain ⟨hbyte, hdigit, -⟩ := digit_bytes hc
  exact ⟨_, _, by rw [hcd, List.flatMap_cons, hbyte]; rfl, hdigit⟩

theorem isSpace_of_isDigit {b : UInt8} (h : isDigit b = true) : isSpace b = false := by
  simp only [isDigit, Bool.and_eq_true, decide_eq_true_eq, UInt8.le_iff_toNat_le] at h
  simp only [isSpace, Bool.or_eq_false_iff, decide_eq_false_iff_not, UInt8.ext_iff]
  simp at h ⊢
  omega

/-- A number whose text starts with a digit, after a `-` when it is negative, reads back through
any reader of numbers that accepts what the number reader makes of it. -/
theorem reads_number_of_readNumber {expected : String} {accept : ParsedNumber → Except ReadError α}
    (positive : Bool) {b : UInt8} {t : List UInt8} {v : ParsedNumber} {a : α}
    (hb : isDigit b = true) (hread : Reads (readNumber positive) (b :: t) v Delimited)
    (hacc : accept v = .ok a) (depth : Nat) :
    Reads (number expected accept (.text depth)) ((if positive then [] else [45]) ++ b :: t) a
      Delimited := by
  have hdone : Reads (MonadExcept.ofExcept (accept v) : Reader α) [] a Delimited := by
    rw [hacc]
    exact Reads.ofExcept a
  cases positive with
  | true =>
    have h45 : b ≠ 45 := by rintro rfl; simp [isDigit] at hb
    refine Reads.placed (Reads.skipSpace_bind (isSpace_of_isDigit hb) ?_)
    split
    · contradiction
    · rename_i h; exact absurd (Option.some.inj h) h45
    · rename_i b' _ h
      obtain rfl := Option.some.inj h
      rw [if_pos hb]
      exact Reads.bind_nil hread hdone fun _ h => h
  | false =>
    refine Reads.placed (Reads.skipSpace_bind (show isSpace 45 = false from rfl) ?_)
    exact Reads.bump_bind (Reads.bind_nil hread hdone fun _ h => h)

/-- A number in range reads back through any reader of numbers that accepts it. -/
theorem reads_number_nat {expected : String} {accept : ParsedNumber → Except ReadError α}
    {n : Nat} {a : α} (hn : n ≤ u64Max) (hacc : accept (.unsigned n) = .ok a) (depth : Nat) :
    Reads (number expected accept (.text depth)) (bytesOf (toString n)) a Delimited := by
  obtain ⟨b, t, ht, hb⟩ := bytesOf_toString_head n
  have hread := reads_readNumber hn
  rw [ht] at hread ⊢
  exact reads_number_of_readNumber true hb hread hacc depth

theorem reads_boolean (b : Bool) (depth : Nat) (P : List UInt8 → Prop) :
    Reads (boolean (.text depth)) (bytesOf (write (.bool b))) b P := by
  intro rest _ line column
  cases b
  · exact ⟨line, column + 5, by rw [write, bytesOf_eq]; rfl⟩
  · exact ⟨line, column + 4, by rw [write, bytesOf_eq]; rfl⟩

/-- A string literal reads back through any reader of strings that accepts the string. -/
theorem reads_stringWith {expected : String} {accept : String → Except ReadError α} {s : String}
    {a : α} (hacc : accept s = .ok a) (depth : Nat) (P : List UInt8 → Prop) :
    Reads (stringWith expected accept (.text depth)) (bytesOf (quote s)) a P := by
  rw [bytesOf_quote]
  refine Reads.placed (Reads.skipSpace_bind rfl (Reads.bump_bind ?_))
  refine Reads.bind_nil (reads_readString s) ?_ fun _ _ => trivial
  rw [hacc]
  exact Reads.ofExcept a

theorem reads_string (s : String) (depth : Nat) (P : List UInt8 → Prop) :
    Reads (string (.text depth)) (bytesOf (quote s)) s P :=
  reads_stringWith rfl depth P

/-- The name of a variant reads back as the variant it names first. -/
theorem reads_variantName {all : List α} {name : α → String} {a : α}
    (h : all.find? (name · == name a) = some a) (depth : Nat) (P : List UInt8 → Prop) :
    Reads (variantName all name (.text depth)) (bytesOf (quote (name a))) a P :=
  reads_stringWith (by simp only [variantOf, h]) depth P

theorem reads_unitVariant {all : List α} {name : α → String} {a : α}
    (h : all.find? (name · == name a) = some a) (depth : Nat) (P : List UInt8 → Prop) :
    Reads (unitVariant all name (.text depth)) (bytesOf (quote (name a))) a P := by
  have hv := reads_variantName h depth P
  rw [bytesOf_quote] at hv ⊢
  exact Reads.skipSpace_bind rfl hv

/-! ## Members -/

/-- The written members `ms`, the first after a `,` unless `first`. -/
def membersBytes : Bool → List (String × Json) → List UInt8
  | _, [] => []
  | first, (k, v) :: ms =>
    (if first then [] else [44]) ++ bytesOf (quote k) ++ 58 :: (bytesOf (write v) ++
      membersBytes false ms)

theorem bytesOf_writeMembers (ms : List (String × Json)) :
    bytesOf (writeMembers ms) = membersBytes true ms := by
  have hcolon : bytesOf ":" = [58] := by rw [bytesOf_eq]; rfl
  have hcomma : bytesOf "," = [44] := by rw [bytesOf_eq]; rfl
  induction ms with
  | nil => simp [writeMembers, membersBytes, bytesOf_eq]
  | cons m ms ih =>
    obtain ⟨k, v⟩ := m
    cases ms with
    | nil => simp [writeMembers, membersBytes, hcolon]
    | cons m' ms' =>
      have hw : writeMembers ((k, v) :: m' :: ms') =
          quote k ++ ":" ++ write v ++ "," ++ writeMembers (m' :: ms') := rfl
      rw [hw, bytesOf_append, bytesOf_append, bytesOf_append, bytesOf_append, hcolon, hcomma, ih]
      obtain ⟨k', v'⟩ := m'
      simp [membersBytes]

theorem bytesOf_writeObject (ms : List (String × Json)) :
    bytesOf (write (.object ms)) = 123 :: (membersBytes true ms ++ [125]) := by
  rw [write, bytesOf_append, bytesOf_append, bytesOf_writeMembers, bytesOf_eq "\x7b",
    bytesOf_eq "\x7d"]
  rfl

theorem length_le_membersBytes (first : Bool) (ms : List (String × Json)) :
    ms.length ≤ (membersBytes first ms).length := by
  induction ms generalizing first with
  | nil => simp [membersBytes]
  | cons m ms ih =>
    obtain ⟨k, v⟩ := m
    have := ih false
    simp [membersBytes, bytesOf_quote]
    omega

theorem reads_nextKey_first : Reads (nextKey true) [] true (·.head? = some 34) := by
  rintro (_ | ⟨b, rest⟩) hb line column
  · cases hb
  · simp only [List.head?_cons, Option.some.injEq] at hb
    subst hb
    exact ⟨line, column, rfl⟩

theorem reads_nextKey_next : Reads (nextKey false) [44] true (·.head? = some 34) := by
  rintro (_ | ⟨b, rest⟩) hb line column
  · cases hb
  · simp only [List.head?_cons, Option.some.injEq] at hb
    subst hb
    exact ⟨line, column + 1, rfl⟩

theorem reads_key (depth : Nat) (first : Bool) (k : String) :
    Reads (Entries.key (.text depth first)) ((if first then [] else [44]) ++ bytesOf (quote k))
      (some (k, .text depth false)) fun _ => True := by
  have hkey : Reads (bump >>= fun _ => readString >>= fun k => pure (some (k, .text depth false)))
      (bytesOf (quote k)) (some (k, Entries.text depth false)) fun _ => True := by
    rw [bytesOf_quote]
    exact Reads.bump_bind (Reads.bind_nil (reads_readString k) (Reads.pure _) fun _ h => h)
  rw [bytesOf_quote] at hkey ⊢
  cases first
  · exact Reads.bind reads_nextKey_next hkey fun _ _ => rfl
  · exact Reads.bind reads_nextKey_first hkey fun _ _ => rfl

theorem reads_key_end (depth : Nat) (first : Bool) :
    Reads (Entries.key (.text depth first)) [] none (·.head? = some 125) := by
  rintro (_ | ⟨b, rest⟩) hb line column
  · cases hb
  · simp only [List.head?_cons, Option.some.injEq] at hb
    subst hb
    cases first <;> exact ⟨line, column, rfl⟩

theorem reads_value (depth : Nat) (first : Bool) (P : List UInt8 → Prop) :
    Reads (Entries.value (.text depth first)) [58] (.text depth, .text depth first) P :=
  fun _ _ line column => ⟨line, column + 1, rfl⟩

/-- The fields read the members `ms`, written in order, taking the partial record from `r` to
`r'`: each member's key names a field, which reads the member's written value. -/
inductive ReadsMembers (fields : List (RecordField σ)) (depth : Nat) :
    σ → List (String × Json) → σ → Prop where
  | nil (r : σ) : ReadsMembers fields depth r [] r
  | cons {r r' r'' : σ} {k : String} {v : Json} {ms : List (String × Json)} (f : RecordField σ)
      (hfind : fields.find? (·.name == k) = some f)
      (hread : Reads (f.read (.text depth) r) (bytesOf (write v)) r' Delimited)
      (hrest : ReadsMembers fields depth r' ms r'') :
      ReadsMembers fields depth r ((k, v) :: ms) r''

theorem membersBytes_delimited (ms : List (String × Json)) (rest : List UInt8)
    (hrest : rest.head? = some 125) : Delimited (membersBytes false ms ++ rest) := by
  cases ms with
  | nil => exact .inr hrest
  | cons m ms => exact .inl rfl

/-- The member loop reads the members written in order, each key once, up to the closing
bracket; the keys read are put in front of `seen`, last first. -/
theorem reads_readFields {fields : List (RecordField σ)} {depth : Nat} {r r' : σ}
    {ms : List (String × Json)} (h : ReadsMembers fields depth r ms r') (seen : List String)
    (first : Bool) (fuel : Nat) (hfuel : ms.length < fuel) (hnd : (ms.map Prod.fst).Nodup)
    (hseen : ∀ k ∈ ms.map Prod.fst, k ∉ seen) :
    Reads (readFields fields r seen (.text depth first) fuel) (membersBytes first ms)
      (r', (ms.map Prod.fst).reverse ++ seen) (·.head? = some 125) := by
  obtain ⟨fuel, rfl⟩ : ∃ f, fuel = f + 1 := ⟨fuel - 1, by omega⟩
  induction h generalizing seen first fuel with
  | nil r => exact Reads.bind_nil (reads_key_end depth first) (Reads.pure _) fun _ h => h
  | @cons r r' r'' k v ms f hfind hread hrest ih =>
    have hk : seen.contains k = false := by simpa using hseen k (by simp)
    simp only [List.map_cons, List.nodup_cons] at hnd
    obtain ⟨fuel', rfl⟩ : ∃ f, fuel = f + 1 := ⟨fuel - 1, by simp at hfuel; omega⟩
    have hfresh : ∀ k' ∈ ms.map Prod.fst, k' ∉ k :: seen := by
      intro k' hk' hin
      rcases List.mem_cons.1 hin with rfl | hin
      · exact hnd.1 hk'
      · exact hseen k' (by simp [hk']) hin
    have hrec := ih (k :: seen) false hnd.2 hfresh fuel' (by simp at hfuel; omega)
    rw [show (((k, v) :: ms).map Prod.fst).reverse ++ seen = (ms.map Prod.fst).reverse ++ k :: seen
      by simp]
    rw [show membersBytes first ((k, v) :: ms) = ((if first then [] else [44]) ++ bytesOf (quote k))
      ++ ([58] ++ (bytesOf (write v) ++ membersBytes false ms)) by simp [membersBytes]]
    refine Reads.bind (reads_key depth first k) ?_ fun _ _ => trivial
    simp only [hfind, hk, Bool.false_eq_true, if_false]
    refine Reads.bind (reads_value depth false fun _ => True) ?_ fun _ _ => trivial
    exact Reads.bind (Reads.tracked _ hread) hrec fun rest h => membersBytes_delimited ms rest h

/-- A loop over the members of the text runs on fuel of one more than the bytes left. -/
theorem Reads.entriesFuel_bind {f : Nat → Reader α} {depth : Nat} {first : Bool}
    {u : List UInt8} {a : α} {P : List UInt8 → Prop} {k : Nat}
    (h : ∀ fuel, k < fuel → Reads (f fuel) u a P) (hk : k ≤ u.length) :
    Reads ((Entries.text depth first).fuel >>= f) u a P :=
  Reads.remaining_fuel h hk

/-- A record's members are read in full when their keys are distinct and every required field
is among them. -/
theorem reads_readStruct {fields : List (RecordField σ)} {depth : Nat} {init r : σ}
    {ms : List (String × Json)} {required : List String} (h : ReadsMembers fields depth init ms r)
    (hnd : (ms.map Prod.fst).Nodup) (hreq : ∀ name ∈ required, name ∈ ms.map Prod.fst) :
    Reads (readStruct fields init required (.text depth true)) (membersBytes true ms) r
      (·.head? = some 125) := by
  have hfind : required.find? (fun name => !((ms.map Prod.fst).reverse ++ []).contains name) =
      none := by
    rw [List.find?_eq_none]
    intro name hname
    simpa using hreq name hname
  refine Reads.entriesFuel_bind (fun fuel hfuel => ?_) (length_le_membersBytes true ms)
  refine Reads.bind_nil (reads_readFields h [] true fuel hfuel hnd (by simp)) ?_ fun _ h => h
  simp only [hfind]
  exact Reads.pure r

/-- A visitor that reads objects reads a record written as one, its members one level in. -/
theorem reads_visit_map {v : Visitor α} {read : Entries → Reader α} (hmap : v.map = some read)
    {depth : Nat} (hd : 1 < depth) {t : List UInt8} {a : α}
    (h : Reads (read (.text (depth - 1) true)) t a (·.head? = some 125)) (P : List UInt8 → Prop) :
    Reads (visit v (.text depth)) (123 :: (t ++ [125])) a P := by
  refine Reads.placed (Reads.skipSpace_bind rfl ?_)
  refine Reads.bind (reads_enter hd fun _ => True) ?_ fun _ _ => trivial
  simp only [hmap]
  exact Reads.thenAlways h (reads_endObject P) fun _ _ => rfl

/-- A whole text read by `read`: the value, then nothing but the end. -/
theorem readWhole_eq_ok {read : Source → Reader α} {text : String} {a : α}
    (h : Reads (read (.text startDepth)) (bytesOf text) a fun _ => True) :
    readWhole read text = .ok a := by
  have hall : Reads (do let a ← read (.text startDepth); endOfText; pure a) (bytesOf text) a
      (· = []) :=
    Reads.bind_nil h (Reads.bind_nil reads_endOfText (Reads.pure a) fun _ h => h)
      fun _ _ => trivial
  obtain ⟨line', column', hrun⟩ := hall [] rfl 1 0
  simp only [List.append_nil] at hrun
  simp only [readWhole, Reader.run, Cursor.ofString_eq, hrun]

end Skirmish.Typed