import Mathlib
import Skirmish.Json.Typed
import Skirmish.Json.Write

/-!
# Reading written text back

`Reads r t a P` says that the reader `r`, started on the bytes `t` followed by any `rest` that
`P` allows, gives `a` and stops right before `rest`, at whatever line and column it started.
Which `rest` a reader needs to see depends on the token: a string or a container closes itself
and allows any, a number stops only at a byte that cannot continue it (`Delimited`), and a
reader that only peeks needs the byte it peeks at.

Readers compose as the text does (`Reads.bind`): the first reader's `rest` is the second's text
followed by the second's `rest`. The wrappers that only change failures (`placed`, `tracked`,
`thenAlways`) read what their reader reads. The rest of the module gives the cursor's steps and
the separators of objects: a key's comma, the colon, and the braces around members.
-/

namespace Skirmish.Json

open Reader

/-! ## The bytes of a text -/

/-- The UTF-8 bytes of a text, as a reader is given them. -/
def bytesOf (s : String) : List UInt8 := s.toUTF8.toList

theorem ByteArray.toList_loop (bs : ByteArray) (i : Nat) (r : List UInt8) :
    ByteArray.toList.loop bs i r = r.reverse ++ bs.data.toList.drop i := by
  fun_induction ByteArray.toList.loop bs i r with
  | case1 i r h ih =>
    have hi : i < bs.data.toList.length := by simpa using h
    rw [ih, List.drop_eq_getElem_cons hi]
    simp [ByteArray.get!, getElem!_pos bs.data i (by simpa using h)]
  | case2 i r h =>
    have hi : bs.data.toList.length ≤ i := by
      rw [Array.length_toList]; exact Nat.le_of_not_lt h
    simp [List.drop_eq_nil_of_le hi]

theorem bytesOf_eq_data (s : String) : bytesOf s = s.toByteArray.data.toList := by
  simp [bytesOf, ByteArray.toList, ByteArray.toList_loop]

/-- The bytes of a text are the UTF-8 encodings of its characters. -/
theorem bytesOf_eq (s : String) : bytesOf s = s.toList.flatMap String.utf8EncodeChar := by
  rw [bytesOf_eq_data, ← String.utf8Encode_toList, List.utf8Encode,
    List.toList_data_toByteArray]

@[simp] theorem bytesOf_append (s t : String) : bytesOf (s ++ t) = bytesOf s ++ bytesOf t := by
  simp [bytesOf_eq_data, String.toByteArray_append]

@[simp] theorem bytesOf_ofList (cs : List Char) :
    bytesOf (String.ofList cs) = cs.flatMap String.utf8EncodeChar := by
  rw [bytesOf_eq, String.toList_ofList]

theorem length_bytesOf (s : String) : (bytesOf s).length = s.utf8ByteSize := by
  rw [bytesOf_eq_data, ← String.size_toByteArray, Array.length_toList]
  rfl

/-- A text of one-byte characters has a byte for each character. -/
theorem length_flatMap_utf8EncodeChar {cs : List Char} (h : ∀ c ∈ cs, c.utf8Size = 1) :
    (cs.flatMap String.utf8EncodeChar).length = cs.length := by
  induction cs with
  | nil => rfl
  | cons c cs ih =>
    simp [String.length_utf8EncodeChar, h c (by simp), ih fun d hd => h d (by simp [hd])]
    omega

theorem Cursor.ofString_eq (s : String) : Cursor.ofString s = ⟨bytesOf s, 1, 0⟩ := rfl

/-- The bytes of a text decode to the text. -/
theorem decodeUtf8_bytesOf (s : String) : decodeUtf8 (bytesOf s) = some s := by
  rw [bytesOf_eq_data, decodeUtf8]
  simp [String.fromUTF8?, s.isValidUTF8]
  rfl

/-! ## Reading a text -/

/-- `r`, started on `t` followed by any `rest` that `P` allows, gives `a` and stops before
`rest`. -/
def Reads {α : Type} (r : Reader α) (t : List UInt8) (a : α) (P : List UInt8 → Prop) : Prop :=
  ∀ rest, P rest → ∀ line column, ∃ line' column',
    r ⟨t ++ rest, line, column⟩ = .ok a ⟨rest, line', column'⟩

/-- A value inside an object is followed by a comma or by the closing brace. -/
def Delimited (rest : List UInt8) : Prop := rest.head? = some 44 ∨ rest.head? = some 125

section Compose

variable {α β : Type} {r : Reader α} {t u : List UInt8} {a : α} {P Q : List UInt8 → Prop}

theorem Reads.mono (h : Reads r t a P) (hQ : ∀ rest, Q rest → P rest) : Reads r t a Q :=
  fun rest hr => h rest (hQ rest hr)

theorem Reads.pure (a : α) : Reads (Pure.pure a : Reader α) [] a P :=
  fun _ _ line column => ⟨line, column, rfl⟩

/-- Two readers in sequence read the two texts one after the other. -/
theorem Reads.bind {f : α → Reader β} {b : β} (hr : Reads r t a Q) (hf : Reads (f a) u b P)
    (hQ : ∀ rest, P rest → Q (u ++ rest)) : Reads (r >>= f) (t ++ u) b P := by
  intro rest hrest line column
  obtain ⟨line₁, column₁, h₁⟩ := hr (u ++ rest) (hQ rest hrest) line column
  obtain ⟨line₂, column₂, h₂⟩ := hf rest hrest line₁ column₁
  refine ⟨line₂, column₂, ?_⟩
  show EStateM.bind r f _ = _
  simp only [EStateM.bind, List.append_assoc, h₁, h₂]

/-- A reader followed by one that reads nothing more. -/
theorem Reads.bind_nil {f : α → Reader β} {b : β} (hr : Reads r t a Q) (hf : Reads (f a) [] b P)
    (hQ : ∀ rest, P rest → Q rest) : Reads (r >>= f) t b P := by
  simpa using Reads.bind hr hf hQ

/-- A reader whose value is put into a larger one, as a record's field reader does. -/
theorem Reads.bind_pure {f : α → β} (hr : Reads r t a P) :
    Reads (r >>= fun x => Pure.pure (f x)) t (f a) P :=
  Reads.bind_nil hr (Reads.pure _) fun _ h => h

theorem Reads.map {f : α → β} (hr : Reads r t a P) : Reads (f <$> r) t (f a) P := by
  intro rest hrest line column
  obtain ⟨line', column', h⟩ := hr rest hrest line column
  refine ⟨line', column', ?_⟩
  show EStateM.map f r _ = _
  simp only [EStateM.map, h]

theorem Reads.placed (hr : Reads r t a P) : Reads (placed r) t a P := by
  intro rest hrest line column
  obtain ⟨line', column', h⟩ := hr rest hrest line column
  refine ⟨line', column', ?_⟩
  show EStateM.tryCatch r placeAt _ = _
  simp only [EStateM.tryCatch, h]

theorem Reads.tracked (step : PathStep) (hr : Reads r t a P) : Reads (tracked step r) t a P := by
  intro rest hrest line column
  obtain ⟨line', column', h⟩ := hr rest hrest line column
  refine ⟨line', column', ?_⟩
  show EStateM.tryCatch r _ _ = _
  simp only [EStateM.tryCatch, h]

/-- A reader followed by a check that always runs reads the two texts in turn. -/
theorem Reads.thenAlways {after : Reader Unit} (hr : Reads r t a Q) (ha : Reads after u () P)
    (hQ : ∀ rest, P rest → Q (u ++ rest)) : Reads (thenAlways r after) (t ++ u) a P := by
  intro rest hrest line column
  obtain ⟨line₁, column₁, h₁⟩ := hr (u ++ rest) (hQ rest hrest) line column
  obtain ⟨line₂, column₂, h₂⟩ := ha rest hrest line₁ column₁
  exact ⟨line₂, column₂, by simp only [Reader.thenAlways, List.append_assoc, h₁, h₂]⟩

theorem Reads.ofExcept (a : α) :
    Reads (MonadExcept.ofExcept (Except.ok a : Except ReadError α) : Reader α) [] a P :=
  fun _ _ line column => ⟨line, column, rfl⟩

end Compose

/-! ## The cursor's steps -/

theorem Cursor.bump_rest (c : Cursor) : c.bump.rest = c.rest.tail := by
  rcases c with ⟨_ | ⟨b, rest⟩, line, column⟩
  · rfl
  · by_cases hb : b = 10 <;> simp [Cursor.bump, hb]

theorem Cursor.bumpN_rest (n : Nat) (c : Cursor) : (c.bumpN n).rest = c.rest.drop n := by
  induction n generalizing c with
  | zero => rfl
  | succ n ih => rw [Cursor.bumpN, ih, Cursor.bump_rest, List.drop_tail]

theorem reads_bump (b : UInt8) (P : List UInt8 → Prop) : Reads bump [b] () P := by
  intro _ _ line column
  by_cases hb : b = 10
  · exact ⟨line + 1, 0, by simp [Reader.bump, Cursor.bump, hb]⟩
  · exact ⟨line, column + 1, by simp [Reader.bump, Cursor.bump, hb]⟩

theorem reads_next (b : UInt8) (P : List UInt8 → Prop) : Reads next [b] (some b) P := by
  intro _ _ line column
  by_cases hb : b = 10
  · exact ⟨line + 1, 0, by simp [Reader.next, Cursor.peek?, Cursor.bump, hb]⟩
  · exact ⟨line, column + 1, by simp [Reader.next, Cursor.peek?, Cursor.bump, hb]⟩

theorem reads_peekOrNull (b : UInt8) : Reads peekOrNull [] b (·.head? = some b) := by
  intro rest hb line column
  exact ⟨line, column, by simp [Reader.peekOrNull, Cursor.peek?, hb]⟩

theorem reads_peek (b : UInt8) : Reads peek [] (some b) (·.head? = some b) := by
  intro rest hb line column
  exact ⟨line, column, by simp [Reader.peek, Cursor.peek?, hb]⟩

/-- Skipping whitespace where there is none moves nothing. -/
theorem reads_skipSpace {b : UInt8} (hb : isSpace b = false) :
    Reads skipSpace [] (some b) (·.head? = some b) := by
  intro rest hrest line column
  obtain ⟨rest', rfl⟩ : ∃ rest', rest = b :: rest' := by
    cases rest with
    | nil => cases hrest
    | cons x rest' => exact ⟨rest', by simp_all⟩
  have h10 : b ≠ 10 := by rintro rfl; cases hb
  refine ⟨line, column, ?_⟩
  simp [Reader.skipSpace, Cursor.skipSpace, skipSpaceFrom, h10, hb, Cursor.peek?]

/-! The steps that look at the next byte of a text that has one, and the step past it. -/

section Steps

variable {α : Type} {b : UInt8} {u : List UInt8} {a : α} {P : List UInt8 → Prop}

theorem Reads.peekOrNull_bind {f : UInt8 → Reader α} (h : Reads (f b) (b :: u) a P) :
    Reads (peekOrNull >>= f) (b :: u) a P :=
  Reads.bind (reads_peekOrNull b) h fun _ _ => rfl

theorem Reads.peek_bind {f : Option UInt8 → Reader α} (h : Reads (f (some b)) (b :: u) a P) :
    Reads (peek >>= f) (b :: u) a P :=
  Reads.bind (reads_peek b) h fun _ _ => rfl

theorem Reads.skipSpace_bind {f : Option UInt8 → Reader α} (hb : isSpace b = false)
    (h : Reads (f (some b)) (b :: u) a P) : Reads (skipSpace >>= f) (b :: u) a P :=
  Reads.bind (reads_skipSpace hb) h fun _ _ => rfl

theorem Reads.bump_bind {f : Unit → Reader α} (h : Reads (f ()) u a P) :
    Reads (bump >>= f) (b :: u) a P :=
  Reads.bind (reads_bump b fun _ => True) h fun _ _ => trivial

theorem Reads.next_bind {f : Option UInt8 → Reader α} (h : Reads (f (some b)) u a P) :
    Reads (next >>= f) (b :: u) a P :=
  Reads.bind (reads_next b fun _ => True) h fun _ _ => trivial

/-- A reader run on fuel of one more than the bytes left, whose fuel need only exceed `k`. -/
theorem Reads.remaining_fuel {f : Nat → Reader α} {k : Nat}
    (h : ∀ fuel, k < fuel → Reads (f fuel) u a P) (hk : k ≤ u.length) :
    Reads (remaining >>= fun n => f (n + 1)) u a P := by
  intro rest hrest line column
  obtain ⟨line', column', hf⟩ :=
    h ((u ++ rest).length + 1) (by simp only [List.length_append]; omega) rest hrest line column
  exact ⟨line', column', hf⟩

end Steps

/-! ## Around the members of an object -/

theorem reads_enter {depth : Nat} (h : 1 < depth) (P : List UInt8 → Prop) :
    Reads (enter depth) [123] (depth - 1) P := by
  intro rest _ line column
  refine ⟨line, column + 1, ?_⟩
  simp [enter, Nat.not_le.2 h]
  rfl

theorem reads_endObject (P : List UInt8 → Prop) : Reads endObject [125] () P :=
  fun _ _ line column => ⟨line, column + 1, rfl⟩

/-- Only the end of the text may follow a whole value. -/
theorem reads_endOfText : Reads endOfText [] () (· = []) := by
  rintro rest rfl line column
  exact ⟨line, column, rfl⟩

end Skirmish.Json
