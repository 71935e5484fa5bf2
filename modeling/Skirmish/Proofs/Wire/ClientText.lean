import Skirmish.Proofs.Wire.Records
import Skirmish.Wire.Decode

/-!
# Client messages read back from their text

`ClientMsg.toJson` writes a message in its wire shape: an object with the message's `type` and,
for the messages that carry data, its `payload`, every optional field written, as `null` when
absent. Reading that text back with `ClientMsg.decode` gives the message again, and so writing
the message read gives the same text (`decode_write_toJson`). This holds of every message a
client can hold (`ClientMsg.InRange`): each number fits the machine type of its field, and the
room id is a 128-bit UUID. Of the floats it needs what their text is chosen for: the shortest
digits of a finite 32-bit float read back as that float (`SingleReadsBack`). A float written as
a decimal `n.f…` does when the float of its digits rounds to it (`singleReadsBack_of_decimal`).

A payload is a record whose members are written in the order of its fields, so `ReadsMembers`
takes them one by one, each by the reader of its field. A room id is written as the hyphenated
text of its UUID, which parses back to it (`Uuid.parse_text`).
-/

namespace Skirmish

open Json Typed Reader

/-! ## The text of a UUID -/

namespace Uuid

theorem hexChar_facts : ∀ k, k < 16 →
    hexValue (hexChar k) = some k ∧ (hexChar k).utf8Size = 1 := by
  decide

theorem length_hexDigits (n c : Nat) : (hexDigits n c).length = c := by
  induction c generalizing n with
  | zero => rfl
  | succ c ih => simp [hexDigits, ih]

theorem mem_hexDigits {n k : Nat} {c : Char} (h : c ∈ hexDigits n k) :
    ∃ j < 16, c = hexChar j := by
  induction k generalizing n with
  | zero => simp [hexDigits] at h
  | succ k ih =>
    rcases List.mem_append.1 h with h | h
    · exact ih h
    · exact ⟨n % 16, Nat.mod_lt _ (by decide), List.mem_singleton.1 h⟩

/-- The `c` hex digits of `n` are the number `n` below `16 ^ c`. -/
theorem hexNumber_hexDigits (n c : Nat) : hexNumber (hexDigits n c) = some (n % 16 ^ c) := by
  induction c generalizing n with
  | zero => simp [hexDigits, hexNumber, Nat.mod_one]
  | succ c ih =>
    obtain ⟨hv, -⟩ := hexChar_facts (n % 16) (Nat.mod_lt _ (by decide))
    have ih' := ih (n / 16)
    simp only [hexNumber] at ih' ⊢
    rw [hexDigits, List.foldlM_append, ih']
    simp [hv]
    rw [Nat.pow_succ, Nat.mul_comm (16 ^ c), Nat.mod_mul]
    omega

/-- Five groups of 8, 4, 4, 4 and 12 characters joined by hyphens are a hyphenated form. -/
theorem hyphenatedDigits_groups {a b c e f : List Char} (ha : a.length = 8) (hb : b.length = 4)
    (hc : c.length = 4) (he : e.length = 4) (hf : f.length = 12) :
    hyphenatedDigits (a ++ ['-'] ++ b ++ ['-'] ++ c ++ ['-'] ++ e ++ ['-'] ++ f) =
      some (a ++ b ++ c ++ e ++ f) := by
  unfold hyphenatedDigits
  rw [if_pos]
  · simp [List.drop_append, List.drop_eq_nil_of_le, ha, hb, hc, he]
  · simp [ha, hb, hc, he, hf]

/-- The text of a 128-bit UUID parses back to it. -/
theorem parse_text {u : Uuid} (h : u.value < Nat.pow 2 128) : parse u.text = .ok u := by
  have hnum : hexNumber (hexDigits u.value 32) = some u.value := by
    rw [hexNumber_hexDigits, Nat.mod_eq_of_lt]
    exact Nat.lt_of_lt_of_eq h (by decide)
  have hlen := length_hexDigits u.value 32
  have hchars : ∀ c ∈ hexDigits u.value 32, c.utf8Size = 1 := by
    intro c hc
    obtain ⟨j, hj, rfl⟩ := mem_hexDigits hc
    exact (hexChar_facts j hj).2
  unfold text
  generalize hexDigits u.value 32 = d at hnum hlen hchars ⊢
  have hsplit : d.take 8 ++ (d.drop 8).take 4 ++ (d.drop 12).take 4 ++ (d.drop 16).take 4 ++
      d.drop 20 = d := by
    rw [show d.drop 12 = (d.drop 8).drop 4 by simp [List.drop_drop],
      show d.drop 16 = ((d.drop 8).drop 4).drop 4 by simp [List.drop_drop],
      show d.drop 20 = (((d.drop 8).drop 4).drop 4).drop 4 by simp [List.drop_drop]]
    simp only [List.append_assoc, List.take_append_drop]
  have hgroups := hyphenatedDigits_groups (a := d.take 8) (b := (d.drop 8).take 4)
    (c := (d.drop 12).take 4) (e := (d.drop 16).take 4) (f := d.drop 20)
    (by simp [hlen]) (by simp [hlen]) (by simp [hlen]) (by simp [hlen]) (by simp [hlen])
  rw [hsplit] at hgroups
  have hsize : (String.ofList (d.take 8 ++ ['-'] ++ (d.drop 8).take 4 ++ ['-'] ++
      (d.drop 12).take 4 ++ ['-'] ++ (d.drop 16).take 4 ++ ['-'] ++ d.drop 20)).utf8ByteSize = 36
      := by
    rw [← length_bytesOf, bytesOf_ofList, length_flatMap_utf8EncodeChar]
    · simp [hlen]
    · intro c hc
      simp only [List.mem_append, List.mem_singleton] at hc
      rcases hc with (((((((hc | rfl) | hc) | rfl) | hc) | rfl) | hc) | rfl) | hc
      · exact hchars c (List.mem_of_mem_take hc)
      · rfl
      · exact hchars c (List.mem_of_mem_drop (List.mem_of_mem_take hc))
      · rfl
      · exact hchars c (List.mem_of_mem_drop (List.mem_of_mem_take hc))
      · rfl
      · exact hchars c (List.mem_of_mem_drop (List.mem_of_mem_take hc))
      · rfl
      · exact hchars c (List.mem_of_mem_drop hc)
  unfold parse
  simp only [String.toList_ofList, hsize, hgroups, if_true]
  simp [hnum, hlen, pure, Except.pure]

end Uuid

/-! ## Fields -/

/-- The text written for the 32-bit float `x`, followed by a comma or a closing brace, reads back
as `x`: a finite float is written in the shortest digits that read back as it. -/
def SingleReadsBack (x : Float32) : Prop :=
  Reads (f32 (.text 0)) (bytesOf (write (.single x))) x Delimited

/-- The 32-bit floats of a vector. -/
def Vec2.singles (v : Vec2) : List Float32 := [v.x, v.y]

/-- The 32-bit floats of a player's input. -/
def PlayerInput.singles (i : PlayerInput) : List Float32 :=
  i.movement.toList.flatMap Vec2.singles ++ i.rotation.toList ++
    i.target.toList.flatMap Vec2.singles

/-- The 32-bit floats a message carries. -/
def ClientMsg.singles : ClientMsg → List Float32
  | .createRoom c => c.timeLimitSecs.toList
  | .playerInput i => i.singles
  | _ => []

/-- A message as a client holds it: every number fits the machine type of its field on the wire
(ids, counts and limits 32 bits, sizes and times 64), and the room id is a 128-bit UUID. -/
def ClientMsg.InRange : ClientMsg → Prop
  | .joinRoom r c => r.value < Nat.pow 2 128 ∧ c ≤ Nat.pow 2 32 - 1
  | .createRoom c => (∀ n ∈ c.maxPlayers, n ≤ Nat.pow 2 64 - 1) ∧
      (∀ n ∈ c.mapId, n ≤ Nat.pow 2 32 - 1) ∧ (∀ n ∈ c.scoreLimit, n ≤ Nat.pow 2 32 - 1) ∧
      c.characterId ≤ Nat.pow 2 32 - 1
  | .playerInput i => ∀ n ∈ i.skillId, n ≤ Nat.pow 2 32 - 1
  | .ping t => t ≤ Nat.pow 2 64 - 1
  | .leaveRoom | .ready | .unready => True

theorem reads_f32 {x : Float32} (hx : SingleReadsBack x) (depth : Nat) :
    Reads (f32 (.text depth)) (bytesOf (write (.single x))) x Delimited :=
  hx

/-- A float written as a decimal `n.f…`, after a `-` when negative, reads back when the float its
digits denote rounds to it. -/
theorem singleReadsBack_of_decimal {x : Float32} (positive : Bool) (n : Nat) (fs : List Char)
    (hw : write (.single x) =
      (if positive then "" else "-") ++ toString n ++ "." ++ String.ofList fs)
    (hfs : ∀ c ∈ fs, c.isDigit = true) (hne : fs ≠ []) (hmax : Nat.ofDigitChars 10 fs n ≤ u64Max)
    (hx : (Decimal.approximate (!positive) (Nat.ofDigitChars 10 fs n) (-(fs.length : Int))).map
      (fun y => roundSingle (.float y)) = some x) :
    SingleReadsBack x := by
  obtain ⟨y, hy, rfl⟩ := Option.map_eq_some_iff.1 hx
  obtain ⟨b, t, ht, hb⟩ := bytesOf_toString_head n
  have hread := reads_readNumber_fraction positive hfs hne hmax hy
  rw [ht, List.cons_append] at hread
  have hbytes : bytesOf (write (.single (roundSingle (.float y)))) =
      (if positive then [] else [45]) ++ b :: (t ++ 46 :: fs.flatMap String.utf8EncodeChar) := by
    have hdot : bytesOf "." = [46] := by rw [bytesOf_eq]; rfl
    have hminus : bytesOf "-" = [45] := by rw [bytesOf_eq]; rfl
    have hnone : bytesOf "" = [] := by rw [bytesOf_eq]; rfl
    rw [hw]
    cases positive
    · simp only [Bool.false_eq_true, if_false, bytesOf_append, ht, bytesOf_ofList, hdot, hminus,
        List.append_assoc, List.cons_append, List.nil_append]
    · simp only [if_true, bytesOf_append, ht, bytesOf_ofList, hdot, hnone, List.append_assoc,
        List.cons_append, List.nil_append]
  unfold SingleReadsBack
  rw [hbytes]
  show Reads (number "f32" (fun n => .ok (roundSingle n)) (.text 0)) _ _ _
  refine reads_number_of_readNumber positive hb hread ?_ 0
  rfl

/-- An unsigned number up to the reader's bound reads back. -/
theorem reads_unsigned {bound : Nat} {expected name : String} {n : Nat} (hn : n ≤ bound)
    (hb : bound ≤ u64Max) (depth : Nat) :
    Reads (number name (unsignedUpTo bound expected) (.text depth)) (bytesOf (write (.nat n))) n
      Delimited :=
  reads_number_nat (Nat.le_trans hn hb) (by simp [unsignedUpTo, hn]) depth

/-- An optional field reads back: `null` as absent, a value by its reader. -/
theorem reads_optional {β : Type} {read : Source → Reader β} {f : β → Json} {x : Option β}
    {depth : Nat} (hnull : RefusesNull (read (.text depth)))
    (h : ∀ a ∈ x, Reads (read (.text depth)) (bytesOf (write (f a))) a Delimited) :
    Reads (option read (.text depth)) (bytesOf (write (.optional f x))) x Delimited := by
  cases x with
  | none => exact reads_option_null read depth _
  | some a => exact reads_option_some (h a rfl) hnull

theorem reads_optionalUnsigned {bound : Nat} {expected name : String} {x : Option Nat}
    (hx : ∀ n ∈ x, n ≤ bound) (hb : bound ≤ u64Max) (depth : Nat) :
    Reads (option (number name (unsignedUpTo bound expected)) (.text depth))
      (bytesOf (write (.optional Json.nat x))) x Delimited :=
  reads_optional (refusesNull_number _ _ depth) fun n hn => reads_unsigned (hx n hn) hb depth

theorem reads_optionalF32 {x : Option Float32} (hx : ∀ y ∈ x, SingleReadsBack y) (depth : Nat) :
    Reads (option f32 (.text depth)) (bytesOf (write (.optional Json.single x))) x Delimited :=
  reads_optional (refusesNull_number _ _ depth) fun y hy => reads_f32 (hx y hy) depth

theorem reads_optionalBoolean (x : Option Bool) (depth : Nat) :
    Reads (option boolean (.text depth)) (bytesOf (write (.optional Json.bool x))) x Delimited :=
  reads_optional (refusesNull_boolean depth) fun b _ => reads_boolean b depth _

theorem reads_readVec2 {v : Vec2} (hv : ∀ x ∈ v.singles, SingleReadsBack x) {depth : Nat}
    (hd : 1 < depth) (P : List UInt8 → Prop) :
    Reads (readVec2 (.text depth)) (bytesOf (write (ClientMsg.vecJson v))) v P := by
  rw [ClientMsg.vecJson, bytesOf_writeObject]
  refine reads_visit_map rfl hd (reads_readStruct ?_ (by simp) (by simp)) P
  exact .cons _ rfl (Reads.bind_pure (reads_f32 (hv v.x (by simp [Vec2.singles])) _))
    (.cons _ rfl (Reads.bind_pure (reads_f32 (hv v.y (by simp [Vec2.singles])) _)) (.nil _))

theorem reads_optionalVec2 {x : Option Vec2} (hv : ∀ v ∈ x, ∀ y ∈ v.singles, SingleReadsBack y)
    {depth : Nat} (hd : 1 < depth) :
    Reads (option readVec2 (.text depth)) (bytesOf (write (.optional ClientMsg.vecJson x))) x
      Delimited :=
  reads_optional (refusesNull_visit rfl depth) fun v hx => reads_readVec2 (hv v hx) hd _

theorem reads_readUuid {u : Uuid} (hu : u.value < Nat.pow 2 128) (depth : Nat)
    (P : List UInt8 → Prop) : Reads (readUuid (.text depth)) (bytesOf (write (.string u.text))) u P :=
  reads_stringWith (by simp only [Uuid.parse_text hu]) depth P

theorem GameMode.find_name (g : GameMode) :
    GameMode.all.find? (GameMode.name · == GameMode.name g) = some g := by
  cases g <;> rfl

/-! ## Payloads -/

/-- The fields of a room creation request read its members back, in the order they are
written. -/
theorem readsMembers_createFields {c : CreateRoom} (hc : (ClientMsg.createRoom c).InRange)
    (hx : ∀ x ∈ c.timeLimitSecs, SingleReadsBack x) (depth : Nat) :
    ReadsMembers createFields depth CreateRoom.bare
      [("name", .string c.name), ("mode", .string c.mode.name),
        ("max_players", .optional Json.nat c.maxPlayers), ("map_id", .optional Json.nat c.mapId),
        ("time_limit_secs", .optional Json.single c.timeLimitSecs),
        ("score_limit", .optional Json.nat c.scoreLimit),
        ("friendly_fire", .optional Json.bool c.friendlyFire),
        ("private", .optional Json.bool c.isPrivate), ("character_id", .nat c.characterId)] c := by
  obtain ⟨hmax, hmap, hscore, hchar⟩ := hc
  refine .cons _ rfl (Reads.bind_pure (reads_string c.name depth _)) ?_
  refine .cons _ rfl (Reads.bind_pure (reads_unitVariant (GameMode.find_name c.mode) depth _)) ?_
  refine .cons _ rfl (Reads.bind_pure (reads_optionalUnsigned hmax (by decide) depth)) ?_
  refine .cons _ rfl (Reads.bind_pure (reads_optionalUnsigned hmap (by decide) depth)) ?_
  refine .cons _ rfl (Reads.bind_pure (reads_optionalF32 hx depth)) ?_
  refine .cons _ rfl (Reads.bind_pure (reads_optionalUnsigned hscore (by decide) depth)) ?_
  refine .cons _ rfl (Reads.bind_pure (reads_optionalBoolean c.friendlyFire depth)) ?_
  refine .cons _ rfl (Reads.bind_pure (reads_optionalBoolean c.isPrivate depth)) ?_
  exact .cons _ rfl (Reads.bind_pure (reads_unsigned hchar (by decide) depth)) (.nil _)

/-- The fields of a player's input read its members back, in the order they are written. -/
theorem readsMembers_inputFields {i : PlayerInput} (hi : (ClientMsg.playerInput i).InRange)
    (hx : ∀ x ∈ i.singles, SingleReadsBack x) {depth : Nat} (hd : 1 < depth) :
    ReadsMembers inputFields depth PlayerInput.empty
      [("movement", .optional ClientMsg.vecJson i.movement),
        ("rotation", .optional Json.single i.rotation), ("skill_id", .optional Json.nat i.skillId),
        ("target", .optional ClientMsg.vecJson i.target)] i := by
  have hmove : ∀ v ∈ i.movement, ∀ y ∈ v.singles, SingleReadsBack y := fun v hv y hy =>
    hx y (by simp only [PlayerInput.singles]; simp_all)
  have hrot : ∀ x ∈ i.rotation, SingleReadsBack x := fun x hr =>
    hx x (by simp only [PlayerInput.singles]; simp_all)
  have htarget : ∀ v ∈ i.target, ∀ y ∈ v.singles, SingleReadsBack y := fun v hv y hy =>
    hx y (by simp only [PlayerInput.singles]; simp_all)
  refine .cons _ rfl (Reads.bind_pure (reads_optionalVec2 hmove hd)) ?_
  refine .cons _ rfl (Reads.bind_pure (reads_optionalF32 hrot depth)) ?_
  refine .cons _ rfl (Reads.bind_pure (reads_optionalUnsigned hi (by decide) depth)) ?_
  exact .cons _ rfl (Reads.bind_pure (reads_optionalVec2 htarget hd)) (.nil _)

/-- The payload of a message in range reads back as the message, by the reader of its
variant. -/
theorem reads_payload {m : ClientMsg} (hm : m.InRange) (hx : ∀ x ∈ m.singles, SingleReadsBack x)
    {p : Json} (hp : m.payload? = some p) {depth : Nat} (hd : 2 < depth) :
    Reads (readPayload m.kind (.text depth)) (bytesOf (write p)) m fun _ => True := by
  cases m with
  | joinRoom r c =>
    cases hp
    obtain ⟨hr, hc⟩ := hm
    rw [bytesOf_writeObject]
    refine Reads.bind_nil (reads_visit_map rfl (by omega) (reads_readStruct
      (.cons _ rfl (Reads.bind_pure (reads_readUuid hr _ _))
        (.cons _ rfl (Reads.bind_pure (reads_unsigned hc (by decide) _)) (.nil _)))
      (by simp) (by simp)) _) ?_ fun _ h => h
    exact Reads.pure _
  | createRoom c =>
    cases hp
    rw [bytesOf_writeObject]
    exact Reads.map (reads_visit_map rfl (by omega)
      (reads_readStruct (readsMembers_createFields hm
        (fun x h => hx x (Option.mem_toList.2 h)) _) (by simp) (by simp)) _)
  | playerInput i =>
    cases hp
    rw [bytesOf_writeObject]
    exact Reads.map (reads_visit_map rfl (by omega)
      (reads_readStruct (readsMembers_inputFields hm hx (by omega)) (by simp) (by simp)) _)
  | ping t =>
    cases hp
    rw [bytesOf_writeObject]
    exact Reads.map (reads_visit_map rfl (by omega) (reads_readStruct
      (.cons _ rfl (reads_unsigned hm (Nat.le_refl _) (depth - 1)) (.nil _)) (by simp) (by simp)) _)
  | leaveRoom | ready | unready => cases hp

/-- Without a payload, the messages that carry none are their variant alone. -/
theorem withoutPayload_kind {m : ClientMsg} (hp : m.payload? = none) :
    withoutPayload m.kind = .ok m := by
  cases m with
  | joinRoom _ _ | createRoom _ | playerInput _ | ping _ => cases hp
  | leaveRoom | ready | unready => rfl

/-! ## The message -/

/-- The key of a part, `type` or `payload`, is read as that part. -/
theorem reads_nextPart (depth : Nat) (first part : Bool) :
    Reads (nextPart (.text depth first))
      ((if first then [] else [44]) ++ bytesOf (quote (if part then "type" else "payload")))
      (some (part, .text depth false)) fun _ => True := by
  refine Reads.entriesFuel_bind (fun fuel hfuel => ?_) (Nat.zero_le _)
  obtain ⟨fuel, rfl⟩ : ∃ f, fuel = f + 1 := ⟨fuel - 1, by omega⟩
  cases part with
  | false => exact Reads.bind_nil (reads_key depth first _) (Reads.pure _) fun _ _ => trivial
  | true => exact Reads.bind_nil (reads_key depth first _) (Reads.pure _) fun _ _ => trivial

/-- At the closing brace no part is left. -/
theorem reads_nextPart_end (depth : Nat) :
    Reads (nextPart (.text depth false)) [] none (·.head? = some 125) := by
  refine Reads.entriesFuel_bind (fun fuel hfuel => ?_) (Nat.zero_le _)
  obtain ⟨fuel, rfl⟩ : ∃ f, fuel = f + 1 := ⟨fuel - 1, by omega⟩
  exact Reads.bind_nil (reads_key_end depth false) (Reads.pure _) fun _ h => h

theorem reads_noMoreParts (depth : Nat) (m : ClientMsg) :
    Reads (noMoreParts (.text depth false) m) [] m (·.head? = some 125) :=
  Reads.bind_nil (reads_nextPart_end depth) (Reads.pure m) fun _ h => h

/-- Each variant is the first of the list to bear its wire name. -/
theorem ClientMsg.Kind.find_wireName (k : ClientMsg.Kind) :
    ClientMsg.Kind.all.find? (·.wireName == k.wireName) = some k := by
  cases k <;> rfl

/-- The members of a message with a payload read back as the message. -/
theorem reads_readTagged {m : ClientMsg} {p : Json} {depth : Nat}
    (hp : Reads (readPayload m.kind (.text depth)) (bytesOf (write p)) m fun _ => True) :
    Reads (readTagged (.text depth true))
      (membersBytes true [("type", .string m.type), ("payload", p)]) m (·.head? = some 125) := by
  refine Reads.bind (reads_nextPart depth true true) ?_ fun _ _ => trivial
  refine Reads.bind (reads_value depth false fun _ => True) ?_ fun _ _ => trivial
  refine Reads.bind (reads_variantName (ClientMsg.Kind.find_wireName m.kind) depth
    fun _ => True) ?_ fun _ _ => trivial
  refine Reads.bind (reads_nextPart depth false false) ?_ fun _ _ => trivial
  refine Reads.bind (reads_value depth false fun _ => True) ?_ fun _ _ => trivial
  exact Reads.bind hp (reads_noMoreParts depth m) fun _ _ => trivial

/-- The members of a message without a payload read back as the message. -/
theorem reads_readTagged_unit {m : ClientMsg} (hm : withoutPayload m.kind = .ok m)
    (depth : Nat) :
    Reads (readTagged (.text depth true)) (membersBytes true [("type", .string m.type)]) m
      (·.head? = some 125) := by
  refine Reads.bind (reads_nextPart depth true true) ?_ fun _ _ => trivial
  refine Reads.bind (reads_value depth false fun _ => True) ?_ fun _ _ => trivial
  refine Reads.bind (reads_variantName (ClientMsg.Kind.find_wireName m.kind) depth
    fun _ => True) ?_ fun _ _ => trivial
  refine Reads.bind_nil (reads_nextPart_end depth) ?_ fun _ h => h
  show Reads (MonadExcept.ofExcept (withoutPayload m.kind)) [] m _
  rw [hm]
  exact Reads.ofExcept m

/-- The text of every message in range reads back as the message. -/
theorem reads_toJson {m : ClientMsg} (hm : m.InRange) (hx : ∀ x ∈ m.singles, SingleReadsBack x) :
    Reads (readClientMsg (.text startDepth)) (bytesOf (write m.toJson)) m fun _ => True := by
  rw [ClientMsg.toJson]
  rcases hp : m.payload? with _ | p
  · dsimp only
    rw [bytesOf_writeObject]
    exact reads_visit_map rfl (by decide) (reads_readTagged_unit (withoutPayload_kind hp) _) _
  · dsimp only
    rw [bytesOf_writeObject]
    exact reads_visit_map rfl (by decide) (reads_readTagged (reads_payload hm hx hp (by decide))) _

/-- **Every message a client holds survives its wire text.** Decoding the text written for a
message in range gives the message back, and writing the decoded message gives the same text
again, as long as the floats it carries read back from their text. -/
theorem decode_write_toJson {m : ClientMsg} (hm : m.InRange)
    (hx : ∀ x ∈ m.singles, SingleReadsBack x) :
    ClientMsg.decode (write m.toJson) = .ok m ∧
      (fun m' => write m'.toJson) <$> ClientMsg.decode (write m.toJson) = .ok (write m.toJson) := by
  have hdecode : ClientMsg.decode (write m.toJson) = .ok m := by
    rw [ClientMsg.decode, readWhole_eq_ok (reads_toJson hm hx)]
  refine ⟨hdecode, ?_⟩
  rw [hdecode]
  rfl

/-- A move with a movement vector, a turn and an aimed skill, and a room with a time limit of
`120.5` seconds, decode from their wire text as themselves. -/
theorem decode_write_toJson_moves :
    let input := ClientMsg.playerInput ⟨some ⟨0.5, -1.5⟩, some 90.25, some 2, some ⟨100.5, 20.75⟩⟩
    let room := ClientMsg.createRoom ⟨"arena", .deathMatch, some 8, some 2, some 120.5, some 10,
      some true, some false, 3⟩
    input.InRange ∧ (∀ x ∈ input.singles, SingleReadsBack x) ∧
    ClientMsg.decode (write input.toJson) = .ok input ∧
    room.InRange ∧ (∀ x ∈ room.singles, SingleReadsBack x) ∧
    ClientMsg.decode (write room.toJson) = .ok room := by
  intro input room
  have hi : input.InRange := by simp [input, ClientMsg.InRange]
  have hr : room.InRange := by simp [room, ClientMsg.InRange]
  have hxi : ∀ x ∈ input.singles, SingleReadsBack x := by
    intro x hx
    simp only [input, ClientMsg.singles, PlayerInput.singles, Vec2.singles, Option.toList_some,
      List.flatMap_cons, List.flatMap_nil, List.append_nil, List.cons_append, List.nil_append,
      List.mem_cons, List.not_mem_nil, or_false] at hx
    rcases hx with rfl | rfl | rfl | rfl | rfl
    · exact singleReadsBack_of_decimal true 0 ['5'] rfl (by simp) (by simp) (by decide) rfl
    · exact singleReadsBack_of_decimal false 1 ['5'] rfl (by simp) (by simp) (by decide) rfl
    · exact singleReadsBack_of_decimal true 90 ['2', '5'] rfl (by simp) (by simp) (by decide) rfl
    · exact singleReadsBack_of_decimal true 100 ['5'] rfl (by simp) (by simp) (by decide) rfl
    · exact singleReadsBack_of_decimal true 20 ['7', '5'] rfl (by simp) (by simp) (by decide) rfl
  have hxr : ∀ x ∈ room.singles, SingleReadsBack x := by
    intro x hx
    simp only [room, ClientMsg.singles, Option.toList_some, List.mem_singleton] at hx
    subst hx
    exact singleReadsBack_of_decimal true 120 ['5'] rfl (by simp) (by simp) (by decide) rfl
  exact ⟨hi, hxi, (decode_write_toJson hi hxi).1, hr, hxr, (decode_write_toJson hr hxr).1⟩

end Skirmish
