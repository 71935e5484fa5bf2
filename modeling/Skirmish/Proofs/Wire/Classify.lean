import Skirmish.Proofs.Wire.ClientText

/-!
# Telling an unknown message type from a malformed message

`ClientMsg.decode` reads a text as a message; when that fails it reads the text again as a bare
envelope, to tell a type no client sends from a message of a known type that is malformed
(`decode_classifies`). The known types are a list kept by hand, `ClientMsg.types`, while the message
reader reads the `type` member against the wire names of the variants. The two agree exactly: the
list is the variants' wire names in order, so the type reader reads a quoted name exactly when it
is on the list, and then as the variant of that name; the payload reader of a variant builds a
message of that variant; and every listed name is the type of a message whose text reads back. So
a message of a known type is never reported as unknown, and no message of a type off the list is
ever read.

What a reader may give is stated by `Yields`, a postcondition on every successful run; it is
proved for each reader from its parts, by the rules of the `Yields` namespace. Where a reader goes
after a text it reads is stated by `Leads`.
-/

namespace Skirmish

open Json Typed Reader

/-! ## What a reader can give -/

/-- Every value `r` gives, when it succeeds, satisfies `P`. -/
def Yields {α : Type} (r : Reader α) (P : α → Prop) : Prop :=
  ∀ c a c', r c = .ok a c' → P a

namespace Yields

variable {α β : Type} {r : Reader β} {P : α → Prop}

theorem of_fails {r : Reader α} (h : Fails r) : Yields r P := by
  intro c a c' hr
  obtain ⟨e, c'', he⟩ := h c
  rw [he] at hr
  cases hr

theorem pure {a : α} (h : P a) : Yields (Pure.pure a : Reader α) P := by
  intro c a' c' hr
  cases hr
  exact h

theorem throw {e : ReadError} : Yields (MonadExcept.throw e : Reader α) P := by
  intro c a c' hr
  cases hr

/-- A reader run after another yields what the second one yields, whatever the first gave. -/
theorem bind {f : β → Reader α} (h : ∀ b, Yields (f b) P) : Yields (r >>= f) P := by
  intro c a c' hr
  change EStateM.bind r f c = _ at hr
  simp only [EStateM.bind] at hr
  split at hr
  · exact h _ _ a c' hr
  · cases hr

theorem map {f : β → α} (h : ∀ b, P (f b)) : Yields (f <$> r) P := by
  intro c a c' hr
  change EStateM.map f r c = _ at hr
  simp only [EStateM.map] at hr
  split at hr
  · cases hr
    exact h _
  · cases hr

theorem placed {r : Reader α} (h : Yields r P) : Yields (Reader.placed r) P := by
  intro c a c' hr
  change EStateM.tryCatch r placeAt c = _ at hr
  cases hrc : r c with
  | ok b c₁ =>
    simp only [EStateM.tryCatch, hrc] at hr
    cases hr
    exact h c _ _ hrc
  | error e c₁ =>
    simp only [EStateM.tryCatch, hrc, placeAt] at hr
    cases hr

theorem thenAlways {r : Reader α} {after : Reader Unit} (h : Yields r P) :
    Yields (Reader.thenAlways r after) P := by
  intro c a c' hr
  unfold Reader.thenAlways at hr
  cases hrc : r c with
  | ok b c₁ =>
    simp only [hrc] at hr
    split at hr
    · cases hr
      exact h c _ _ hrc
    · cases hr
  | error e c₁ =>
    simp only [hrc] at hr
    split at hr <;> cases hr

end Yields

theorem fails_failPeek {α : Type} (e : SyntaxError) : Fails (failPeek e : Reader α) :=
  fun _ => ⟨_, _, rfl⟩

/-- A reader of a value that carries nothing yields only the value `null` stands for. -/
theorem yields_visit_unit {α : Type} {v : Visitor α} {P : α → Prop} (hmap : v.map = none)
    (hseq : v.seq = none) (hunit : ∀ a, v.unit = some a → P a) (src : Source) :
    Yields (visit v src) P := by
  cases src with
  | text depth =>
    refine Yields.placed (Yields.bind fun b => ?_)
    split
    · exact Yields.of_fails (fails_failPeek _)
    · refine Yields.bind fun _ => Yields.thenAlways ?_
      rw [hseq]
      exact Yields.throw
    · refine Yields.bind fun _ => Yields.thenAlways ?_
      rw [hmap]
      exact Yields.throw
    · split
      · rename_i a ha
        exact Yields.bind fun _ => Yields.bind fun _ => Yields.pure (hunit a ha)
      · exact Yields.of_fails (peekInvalid_fails _)
    · exact Yields.of_fails (peekInvalid_fails _)
  | held j =>
    simp only [visit]
    split
    · rename_i a ha
      exact Yields.pure (hunit a ha)
    · rename_i read hread
      rw [hmap] at hread
      cases hread
    · rename_i read hread
      rw [hseq] at hread
      cases hread
    · exact Yields.throw

/-! ## Where a reader goes after a text it reads -/

/-- Over the text `t`, the reader `r` goes on as `r'`: run on `t` followed by a rest that satisfies
`P`, it does what `r'` does on the rest, wherever the cursor stood. -/
def Leads {α : Type} (r : Reader α) (t : List UInt8) (r' : Reader α) (P : List UInt8 → Prop) :
    Prop :=
  ∀ rest, P rest → ∀ line column, ∃ line' column',
    r ⟨t ++ rest, line, column⟩ = r' ⟨rest, line', column'⟩

namespace Leads

variable {α β : Type} {r r' r'' : Reader α} {t u : List UInt8} {P Q : List UInt8 → Prop}

/-- A reader that reads the text to a value goes on as its continuation at that value. -/
theorem bind {q : Reader β} {b : β} {f : β → Reader α} (hq : Reads q t b Q)
    (hP : ∀ rest, P rest → Q rest) : Leads (q >>= f) t (f b) P := by
  intro rest hrest line column
  obtain ⟨line', column', h⟩ := hq rest (hP rest hrest) line column
  refine ⟨line', column', ?_⟩
  show EStateM.bind q f _ = _
  simp only [EStateM.bind, h]

theorem trans (h₁ : Leads r t r' Q) (h₂ : Leads r' u r'' P)
    (hQ : ∀ rest, P rest → Q (u ++ rest)) : Leads r (t ++ u) r'' P := by
  intro rest hrest line column
  obtain ⟨line₁, column₁, e₁⟩ := h₁ (u ++ rest) (hQ rest hrest) line column
  obtain ⟨line₂, column₂, e₂⟩ := h₂ rest hrest line₁ column₁
  exact ⟨line₂, column₂, by rw [List.append_assoc, e₁, e₂]⟩

theorem placed (h : Leads r t r' P) : Leads (Reader.placed r) t (Reader.placed r') P := by
  intro rest hrest line column
  obtain ⟨line', column', e⟩ := h rest hrest line column
  refine ⟨line', column', ?_⟩
  show EStateM.tryCatch r placeAt _ = EStateM.tryCatch r' placeAt _
  simp only [EStateM.tryCatch, e]

end Leads

/-- A string reader on a quoted string goes on, past the closing quote, to accept the string. -/
theorem leads_stringWith {α : Type} (expected : String) (accept : String → Except ReadError α)
    (s : String) (depth : Nat) (P : List UInt8 → Prop) :
    Leads (stringWith expected accept (.text depth)) (bytesOf (quote s))
      (Reader.placed (MonadExcept.ofExcept (accept s))) P := by
  rw [bytesOf_quote]
  refine Leads.placed ?_
  have hstring : Leads (readString >>= fun s => MonadExcept.ofExcept (accept s))
      (s.toList.flatMap escapedBytes ++ [34]) (MonadExcept.ofExcept (accept s)) P :=
    Leads.bind (reads_readString s) fun _ _ => trivial
  have hbump : Leads (bump >>= fun _ => readString >>= fun s => MonadExcept.ofExcept (accept s))
      [34] (readString >>= fun s => MonadExcept.ofExcept (accept s)) fun _ => True :=
    Leads.bind (reads_bump 34 fun _ => True) fun _ _ => trivial
  exact (Leads.bind (reads_skipSpace (show isSpace 34 = false from rfl)) fun _ h => h).trans
    (hbump.trans hstring fun _ _ => trivial) fun _ _ => rfl

/-! ## The known types -/

theorem mem_types_iff {k : String} :
    k ∈ ClientMsg.types ↔ k = "join_room" ∨ k = "create_room" ∨ k = "leave_room" ∨
      k = "ready" ∨ k = "unready" ∨ k = "player_input" ∨ k = "ping" := by
  simp only [ClientMsg.types, List.mem_cons, List.not_mem_nil, or_false]

theorem ClientMsg.Kind.mem_all (k : ClientMsg.Kind) : k ∈ ClientMsg.Kind.all := by
  cases k <;> decide

/-- The hand-kept list of types is the list of the variants' wire names, in order. -/
theorem ClientMsg.Kind.map_wireName_all :
    ClientMsg.Kind.all.map ClientMsg.Kind.wireName = ClientMsg.types := by
  decide

/-- A name is a known type exactly when it is the wire name of a variant. -/
theorem mem_types_iff_wireName {s : String} :
    s ∈ ClientMsg.types ↔ ∃ k ∈ ClientMsg.Kind.all, k.wireName = s := by
  rw [← ClientMsg.Kind.map_wireName_all, List.mem_map]

theorem ClientMsg.type_mem_types (m : ClientMsg) : m.type ∈ ClientMsg.types :=
  mem_types_iff_wireName.2 ⟨m.kind, ClientMsg.Kind.mem_all _, rfl⟩

/-- On a quoted name, the type reader gives only the variant of that wire name. -/
theorem wireName_of_readTag {s : String} {depth line column : Nat} {rest : List UInt8}
    {k : ClientMsg.Kind} {c' : Cursor}
    (h : readTag (.text depth) ⟨bytesOf (quote s) ++ rest, line, column⟩ = .ok k c') :
    k.wireName = s := by
  obtain ⟨line', column', e⟩ := leads_stringWith "variant identifier"
    (variantOf ClientMsg.Kind.all ClientMsg.Kind.wireName) s depth (fun _ => True) rest trivial
    line column
  unfold readTag variantName at h
  rw [e, variantOf] at h
  cases hf : ClientMsg.Kind.all.find? (·.wireName == s) with
  | none =>
    simp only [hf] at h
    cases h
  | some a =>
    simp only [hf] at h
    cases h
    simpa using List.find?_some hf

/-- The type reader reads a quoted name exactly when the name is a known type. -/
theorem readTag_quote_iff (s : String) (depth : Nat) (rest : List UInt8) (line column : Nat) :
    (∃ k c', readTag (.text depth) ⟨bytesOf (quote s) ++ rest, line, column⟩ = .ok k c') ↔
      s ∈ ClientMsg.types := by
  constructor
  · rintro ⟨k, c', h⟩
    exact mem_types_iff_wireName.2 ⟨k, ClientMsg.Kind.mem_all k, wireName_of_readTag h⟩
  · intro hs
    obtain ⟨k, -, rfl⟩ := mem_types_iff_wireName.1 hs
    obtain ⟨line', column', h⟩ := reads_variantName (ClientMsg.Kind.find_wireName k) depth
      (fun _ => True) rest trivial line column
    exact ⟨k, _, h⟩

/-- The payload reader of a variant builds a message of that variant. -/
theorem yields_readPayload (k : ClientMsg.Kind) (src : Source) :
    Yields (readPayload k src) (·.kind = k) := by
  have hunit (m : ClientMsg) (variant : String) :
      Yields (emptyPayload variant m src) (·.kind = m.kind) :=
    yields_visit_unit rfl rfl (fun a ha => by cases ha; rfl) src
  cases k with
  | joinRoom => exact Yields.bind fun p => Yields.pure rfl
  | createRoom => exact Yields.map fun _ => rfl
  | leaveRoom => exact hunit .leaveRoom _
  | ready => exact hunit .ready _
  | unready => exact hunit .unready _
  | playerInput => exact Yields.map fun _ => rfl
  | ping => exact Yields.map fun _ => rfl

/-- A message read without a payload is of the variant read. -/
theorem withoutPayload_kind_eq {k : ClientMsg.Kind} {m : ClientMsg} (h : withoutPayload k = .ok m) :
    m.kind = k := by
  cases k <;> cases h <;> rfl

/-- Every known type is the type of a message whose text reads back as that message. -/
theorem exists_decode_of_mem_types {k : String} (hk : k ∈ ClientMsg.types) :
    ∃ m : ClientMsg, m.type = k ∧ ClientMsg.decode (write m.toJson) = .ok m := by
  have hdecode (m : ClientMsg) (hm : m.InRange) (hs : m.singles = []) :
      ClientMsg.decode (write m.toJson) = .ok m := by
    rw [ClientMsg.decode, readWhole_eq_ok (reads_toJson hm (by simp [hs]))]
  rcases mem_types_iff.mp hk with rfl | rfl | rfl | rfl | rfl | rfl | rfl
  · exact ⟨.joinRoom ⟨0⟩ 1, rfl, hdecode _ (by simp [ClientMsg.InRange]) rfl⟩
  · exact ⟨.createRoom CreateRoom.bare, rfl,
      hdecode _ (by simp [ClientMsg.InRange, CreateRoom.bare]) rfl⟩
  · exact ⟨.leaveRoom, rfl, hdecode _ trivial rfl⟩
  · exact ⟨.ready, rfl, hdecode _ trivial rfl⟩
  · exact ⟨.unready, rfl, hdecode _ trivial rfl⟩
  · exact ⟨.playerInput PlayerInput.empty, rfl,
      hdecode _ (by simp [ClientMsg.InRange, PlayerInput.empty]) rfl⟩
  · exact ⟨.ping 0, rfl, hdecode _ (by simp [ClientMsg.InRange]) rfl⟩

/-! ## The classification -/

section Classification

variable {text : String}

/-! When the message reader fails, the envelope decides the error. -/

theorem decode_of_envelope_error {e e' : ReadError} (h : readWhole readClientMsg text = .error e)
    (he : readWhole readEnvelope text = .error e') :
    ClientMsg.decode text = .error (.malformed e') := by
  simp only [ClientMsg.decode, h, he]

theorem decode_of_known {e : ReadError} {k : String} (h : readWhole readClientMsg text = .error e)
    (hk : readWhole readEnvelope text = .ok k) (hmem : k ∈ ClientMsg.types) :
    ClientMsg.decode text = .error (.malformed e) := by
  simp only [ClientMsg.decode, h, hk, List.elem_eq_true_of_mem hmem, if_true]

theorem decode_of_unknown {e : ReadError} {k : String} (h : readWhole readClientMsg text = .error e)
    (hk : readWhole readEnvelope text = .ok k) (hmem : k ∉ ClientMsg.types) :
    ClientMsg.decode text = .error (.unknownType k) := by
  have hcontains : ClientMsg.types.contains k = false := by simpa using hmem
  simp only [ClientMsg.decode, h, hk, hcontains, Bool.false_eq_true, if_false]

/-- A text the message reader refuses is refused. -/
theorem decode_of_error {e : ReadError} (h : readWhole readClientMsg text = .error e) :
    ∃ d, ClientMsg.decode text = .error d := by
  cases henv : readWhole readEnvelope text with
  | error e' => exact ⟨_, decode_of_envelope_error h henv⟩
  | ok k =>
    by_cases hk : k ∈ ClientMsg.types
    · exact ⟨_, decode_of_known h henv hk⟩
    · exact ⟨_, decode_of_unknown h henv hk⟩

theorem decode_eq_ok_iff {m : ClientMsg} :
    ClientMsg.decode text = .ok m ↔ readWhole readClientMsg text = .ok m := by
  cases hmsg : readWhole readClientMsg text with
  | ok m' => simp only [ClientMsg.decode, hmsg, Except.ok.injEq]
  | error e =>
    obtain ⟨d, hd⟩ := decode_of_error hmsg
    rw [hd]
    exact ⟨(fun h => by cases h), fun h => by cases h⟩

theorem decode_eq_unknownType_iff {k : String} :
    ClientMsg.decode text = .error (.unknownType k) ↔
      (∃ e, readWhole readClientMsg text = .error e) ∧ readWhole readEnvelope text = .ok k ∧
        k ∉ ClientMsg.types := by
  cases hmsg : readWhole readClientMsg text with
  | ok m =>
    rw [decode_eq_ok_iff.mpr hmsg]
    exact ⟨(fun h => by cases h), fun h => h.1.elim fun e he => by cases he⟩
  | error e =>
    cases henv : readWhole readEnvelope text with
    | error e' =>
      rw [decode_of_envelope_error hmsg henv]
      exact ⟨(fun h => by cases h), fun h => by cases h.2.1⟩
    | ok k' =>
      by_cases hk' : k' ∈ ClientMsg.types
      · rw [decode_of_known hmsg henv hk']
        exact ⟨(fun h => by cases h), fun h => by cases h.2.1; exact absurd hk' h.2.2⟩
      · rw [decode_of_unknown hmsg henv hk']
        constructor
        · intro h
          cases h
          exact ⟨⟨e, rfl⟩, rfl, hk'⟩
        · intro h
          cases h.2.1
          rfl

theorem decode_eq_malformed_iff {e : ReadError} :
    ClientMsg.decode text = .error (.malformed e) ↔
      (readWhole readClientMsg text = .error e ∧
        ∃ k ∈ ClientMsg.types, readWhole readEnvelope text = .ok k) ∨
      ((∃ e', readWhole readClientMsg text = .error e') ∧
        readWhole readEnvelope text = .error e) := by
  cases hmsg : readWhole readClientMsg text with
  | ok m =>
    rw [decode_eq_ok_iff.mpr hmsg]
    refine ⟨(fun h => by cases h), fun h => ?_⟩
    rcases h with ⟨he, _⟩ | ⟨⟨e', he⟩, _⟩ <;> cases he
  | error e₀ =>
    cases henv : readWhole readEnvelope text with
    | error e' =>
      rw [decode_of_envelope_error hmsg henv]
      constructor
      · intro h
        cases h
        exact Or.inr ⟨⟨e₀, rfl⟩, rfl⟩
      · rintro (⟨_, k, _, hk⟩ | ⟨_, he⟩)
        · cases hk
        · cases he
          rfl
    | ok k =>
      by_cases hk : k ∈ ClientMsg.types
      · rw [decode_of_known hmsg henv hk]
        constructor
        · intro h
          cases h
          exact Or.inl ⟨rfl, k, hk, rfl⟩
        · rintro (⟨he, _⟩ | ⟨_, he⟩)
          · cases he
            rfl
          · cases he
      · rw [decode_of_unknown hmsg henv hk]
        constructor
        · intro h
          cases h
        · rintro (⟨_, k', hk', he⟩ | ⟨_, he⟩)
          · cases he
            exact absurd hk' hk
          · cases he

end Classification

/-- A text decodes as a message, a message of unknown type, or a malformed message; the list of
types is the list of the variants' wire names, and the type reader accepts exactly those. -/
theorem decode_classifies :
    (∀ text m, ClientMsg.decode text = .ok m ↔ readWhole readClientMsg text = .ok m) ∧
    (∀ text k, ClientMsg.decode text = .error (.unknownType k) ↔
      (∃ e, readWhole readClientMsg text = .error e) ∧ readWhole readEnvelope text = .ok k ∧
        k ∉ ClientMsg.types) ∧
    (∀ text e, ClientMsg.decode text = .error (.malformed e) ↔
      (readWhole readClientMsg text = .error e ∧
        ∃ k ∈ ClientMsg.types, readWhole readEnvelope text = .ok k) ∨
      ((∃ e', readWhole readClientMsg text = .error e') ∧
        readWhole readEnvelope text = .error e)) ∧
    (∀ s, s ∈ ClientMsg.types ↔ ∃ k ∈ ClientMsg.Kind.all, k.wireName = s) ∧
    (∀ k : ClientMsg.Kind, k ∈ ClientMsg.Kind.all) ∧
    (∀ m : ClientMsg, m.type ∈ ClientMsg.types) ∧
    (∀ s depth rest line column,
      (∃ k c', readTag (.text depth) ⟨bytesOf (quote s) ++ rest, line, column⟩ = .ok k c') ↔
        s ∈ ClientMsg.types) ∧
    (∀ s depth rest line column k c',
      readTag (.text depth) ⟨bytesOf (quote s) ++ rest, line, column⟩ = .ok k c' →
        k.wireName = s) ∧
    (∀ k src, Yields (readPayload k src) (·.kind = k)) ∧
    (∀ k m, withoutPayload k = .ok m → m.kind = k) ∧
    (∀ s ∈ ClientMsg.types, ∃ m : ClientMsg,
      m.type = s ∧ ClientMsg.decode (write m.toJson) = .ok m) :=
  ⟨fun _ _ => decode_eq_ok_iff, fun _ _ => decode_eq_unknownType_iff,
    fun _ _ => decode_eq_malformed_iff, fun _ => mem_types_iff_wireName, ClientMsg.Kind.mem_all,
    ClientMsg.type_mem_types, readTag_quote_iff, fun _ _ _ _ _ _ _ h => wireName_of_readTag h,
    yields_readPayload, fun _ _ => withoutPayload_kind_eq, fun _ hk => exists_decode_of_mem_types hk⟩

end Skirmish
