import BindBytecode.EncodeV1.Encode

/-!
# EncodeV1/Output: the two output forms of a V1 program

`encode_to_bytecode_v1` writes every record as the little-endian bytes of its three words, in
program order; `encode_to_string_v1` writes it as the text `{0xW0,0xW1,0xW2},` with `{:#x}`
formatting.  The spec asks that both be projections of the same records, agreeing bit for bit.

To say so, each form is read back by a reader written from the spec's description of it:
`readRecordsLe` takes the byte stream twelve bytes at a time as three little-endian words, and
`parseHexRecords` takes the text one `{…},` triple at a time.  `encodeV1_outputs_agree` proves
that the byte stream has twelve bytes per instruction, that reading it gives the records in
program order, and that parsing the text gives the same words.  Reading each record back through
the getters, `decodeBytecodeV1_encodeToBytecodeV1` recovers the whole program, debug information
included, when its fields fit.

`BindProgram` and `SymbolicInstructionInfo::to_instruction` belong to the compiler, which is not
among the sources: a program is modelled as its list of instructions over an arbitrary type, and
`to_instruction` as a parameter, so the results hold whatever the compiler produces.
-/

set_option autoImplicit false

namespace BindBytecode

namespace EncodeBindProgramV1

/-- Modelled from the spec: the part of `compiler::BindProgram` the encoders read, its
instructions in program order. -/
structure BindProgram (α : Type) where
  instructions : List α

/-- The three words of a record, in storage order. -/
def RawInstruction.words (r : RawInstruction) : UInt32 × UInt32 × UInt32 :=
  (r.word0, r.word1, r.word2)

/-! ## The encoders -/

/-- `[a.to_le_bytes(), b.to_le_bytes(), c.to_le_bytes()].concat()` for
`RawInstruction([a, b, c])`. -/
def RawInstruction.leBytes (r : RawInstruction) : List UInt8 :=
  toLeBytes r.word0 ++ toLeBytes r.word1 ++ toLeBytes r.word2

/-- `format!("{:#x}", w)`: `0x` and the lowercase hexadecimal digits of `w`, without leading
zeros (`0` is `0x0`). -/
def formatHex (w : UInt32) : String :=
  "0x" ++ String.mk (Nat.toDigits 16 w.toNat)

/-- `format!("{{{:#x},{:#x},{:#x}}},", word0, word1, word2)`. -/
def RawInstruction.hexText (r : RawInstruction) : String :=
  "\x7b" ++ formatHex r.word0 ++ "," ++ formatHex r.word1 ++ "," ++ formatHex r.word2 ++ "\x7d,"

section Encoders

variable {α : Type} (toInstruction : α → InstructionInfo)

/-- `encode_to_bytecode_v1`. -/
def encodeToBytecodeV1 (bindProgram : BindProgram α) : List UInt8 :=
  ((bindProgram.instructions.map fun inst => encodeInstruction (toInstruction inst)).flatMap
    RawInstruction.leBytes)

/-- `encode_to_string_v1`. -/
def encodeToStringV1 (bindProgram : BindProgram α) : String :=
  String.join ((bindProgram.instructions.map fun inst => encodeInstruction (toInstruction inst)).map
    RawInstruction.hexText)

end Encoders

/-! ## Reading the byte stream back -/

/-- The byte stream read twelve bytes at a time as three little-endian words. -/
def readRecordsLe : List UInt8 → List (UInt32 × UInt32 × UInt32)
  | b0 :: b1 :: b2 :: b3 :: b4 :: b5 :: b6 :: b7 :: b8 :: b9 :: b10 :: b11 :: rest =>
    (fromLeBytes b0 b1 b2 b3, fromLeBytes b4 b5 b6 b7, fromLeBytes b8 b9 b10 b11) ::
      readRecordsLe rest
  | _ => []

@[simp] theorem length_leBytes (r : RawInstruction) : r.leBytes.length = 12 := rfl

theorem length_flatMap_leBytes (rs : List RawInstruction) :
    (rs.flatMap RawInstruction.leBytes).length = 12 * rs.length := by
  induction rs with
  | nil => rfl
  | cons r rs ih => rw [List.flatMap_cons, List.length_append, ih, length_leBytes]; simp; omega

theorem readRecordsLe_leBytes_append (r : RawInstruction) (rest : List UInt8) :
    readRecordsLe (r.leBytes ++ rest) = r.words :: readRecordsLe rest := by
  simp only [RawInstruction.leBytes, toLeBytes, List.cons_append, List.nil_append,
    List.append_assoc, readRecordsLe, fromLeBytes_toLeBytes, List.append_eq, RawInstruction.words]

theorem readRecordsLe_flatMap_leBytes (rs : List RawInstruction) :
    readRecordsLe (rs.flatMap RawInstruction.leBytes) = rs.map RawInstruction.words := by
  induction rs with
  | nil => rfl
  | cons r rs ih => rw [List.flatMap_cons, readRecordsLe_leBytes_append, ih, List.map_cons]

/-! ## Numbers in a base

Both texts the V1 encoder writes are separators and numbers: `encode_to_string_v1` writes `{:#x}`
words, and the `Display` impl decimal numbers and zero-padded hexadecimal ones.  One reader,
parametric in the digit function `val` and the base, reads them all back. -/

section Digits

variable (val : Char → Option Nat) (base : Nat)

/-- The value of a run of digits in base `base`, most significant first, accumulated onto `acc`;
`val` reads one digit. -/
def digitsValue (acc : Nat) (ds : List Char) : Nat :=
  ds.foldl (fun a c => base * a + (val c).getD 0) acc

/-- The run of digits at the front of the text, read in base `base` onto `acc`. -/
def parseDigits : List Char → Nat → Nat × List Char
  | [], acc => (acc, [])
  | c :: cs, acc =>
    match val c with
    | some d => parseDigits cs (base * acc + d)
    | none => (acc, c :: cs)

/-- At least one digit, read in base `base`. -/
def parseNumber : List Char → Option (Nat × List Char)
  | [] => none
  | c :: cs => (val c).map (parseDigits val base cs)

/-- `ds` is a nonempty run of digits in base `base` whose value is `n`. -/
def DigitsOf (ds : List Char) (n : Nat) : Prop :=
  ds ≠ [] ∧ (∀ c ∈ ds, (val c).isSome) ∧ digitsValue val base 0 ds = n

end Digits

/-- The text after `p`, if it starts with `p`. -/
def expectPrefix : List Char → List Char → Option (List Char)
  | [], cs => some cs
  | _ :: _, [] => none
  | p :: ps, c :: cs => if p = c then expectPrefix ps cs else none

/-- A separator, then a number read in base `base`. -/
def parseField (sep : List Char) (val : Char → Option Nat) (base : Nat) (cs : List Char) :
    Option (Nat × List Char) :=
  (expectPrefix sep cs).bind (parseNumber val base)

/-! ## Reading the text back -/

/-- The value of a lowercase hexadecimal digit, the digits `{:#x}` writes. -/
def hexDigitValue (c : Char) : Option Nat :=
  if '0' ≤ c ∧ c ≤ '9' then some (c.toNat - '0'.toNat)
  else if 'a' ≤ c ∧ c ≤ 'f' then some (c.toNat - 'a'.toNat + 10)
  else none

/-- One `{0xW0,0xW1,0xW2},` triple. -/
def parseHexRecord (cs : List Char) : Option ((Nat × Nat × Nat) × List Char) := do
  let (w0, cs) ← parseField ['\x7b', '0', 'x'] hexDigitValue 16 cs
  let (w1, cs) ← parseField [',', '0', 'x'] hexDigitValue 16 cs
  let (w2, cs) ← parseField [',', '0', 'x'] hexDigitValue 16 cs
  let cs ← expectPrefix ['\x7d', ','] cs
  pure ((w0, w1, w2), cs)

/-- Triples until the text ends, at most `fuel` of them. -/
def parseHexRecordsAux : Nat → List Char → Option (List (Nat × Nat × Nat))
  | _, [] => some []
  | 0, _ :: _ => none
  | fuel + 1, c :: cs => do
    let (r, rest) ← parseHexRecord (c :: cs)
    let rs ← parseHexRecordsAux fuel rest
    pure (r :: rs)

/-- The text of `encode_to_string_v1` read one triple at a time; every triple has at least one
character, so the text's length bounds their number. -/
def parseHexRecords (s : String) : Option (List (Nat × Nat × Nat)) :=
  parseHexRecordsAux s.length s.toList

/-! ## Numbers read back -/

section Digits

variable (val : Char → Option Nat) (base : Nat)

theorem digitsValue_append (acc : Nat) (ds ds' : List Char) :
    digitsValue val base acc (ds ++ ds') = digitsValue val base (digitsValue val base acc ds) ds' :=
  List.foldl_append _ _ _ _

theorem digitsValue_append_singleton (acc : Nat) (ds : List Char) (c : Char) :
    digitsValue val base acc (ds ++ [c]) =
      base * digitsValue val base acc ds + (val c).getD 0 := by
  rw [digitsValue, List.foldl_append]
  rfl

theorem parseDigits_append (ds rest : List Char) (acc : Nat) (hds : ∀ c ∈ ds, (val c).isSome) :
    parseDigits val base (ds ++ rest) acc =
      parseDigits val base rest (digitsValue val base acc ds) := by
  induction ds generalizing acc with
  | nil => rfl
  | cons c ds ih =>
    obtain ⟨d, hd⟩ := Option.isSome_iff_exists.mp (hds c (List.mem_cons_self c ds))
    rw [List.cons_append, parseDigits, hd]
    dsimp only
    rw [ih _ fun x hx => hds x (List.mem_cons_of_mem c hx)]
    simp only [digitsValue, List.foldl_cons, hd, Option.getD_some]

/-- One step of `Nat.toDigitsCore`: the last digit is written, then the rest of the number. -/
theorem toDigitsCore_succ (fuel n : Nat) (ds : List Char) :
    Nat.toDigitsCore base (fuel + 1) n ds =
      if n / base = 0 then Nat.digitChar (n % base) :: ds
      else Nat.toDigitsCore base fuel (n / base) (Nat.digitChar (n % base) :: ds) := rfl

/-- `Nat.toDigitsCore` writes at least one digit, every one of them readable, and their value is
the number.  By induction on the fuel, which the number stays below. -/
theorem toDigitsCore_digits (hb : 1 < base) (hval : ∀ d < base, val (Nat.digitChar d) = some d)
    (fuel n : Nat) (acc : List Char) (h : n < fuel) :
    ∃ c ds, Nat.toDigitsCore base fuel n acc = c :: ds ++ acc ∧
      (∀ x ∈ c :: ds, (val x).isSome) ∧ digitsValue val base 0 (c :: ds) = n := by
  induction fuel generalizing n acc with
  | zero => omega
  | succ fuel ih =>
    have hd := hval (n % base) (Nat.mod_lt _ (by omega))
    have hdiv := Nat.div_add_mod n base
    by_cases hn : n / base = 0
    · rw [hn, Nat.mul_zero, Nat.zero_add] at hdiv
      refine ⟨Nat.digitChar (n % base), [], ?_, ?_, ?_⟩
      · simp [toDigitsCore_succ, hn]
      · simp [hd]
      · rw [digitsValue, List.foldl_cons, List.foldl_nil, hd, Option.getD_some, Nat.mul_zero,
          Nat.zero_add, hdiv]
    · have hn0 : 0 < n := Nat.pos_of_ne_zero fun h0 : n = 0 => hn (by rw [h0, Nat.zero_div])
      have hlt : n / base < fuel := by
        have := Nat.div_lt_self hn0 hb
        omega
      obtain ⟨c, ds, heq, hall, hvalue⟩ := ih (n / base) (Nat.digitChar (n % base) :: acc) hlt
      refine ⟨c, ds ++ [Nat.digitChar (n % base)], ?_, ?_, ?_⟩
      · simp [toDigitsCore_succ, hn, heq]
      · intro x hx
        rw [← List.cons_append, List.mem_append, List.mem_singleton] at hx
        rcases hx with hx | rfl
        · exact hall x hx
        · simp [hd]
      · rw [← List.cons_append, digitsValue_append_singleton, hvalue, hd, Option.getD_some, hdiv]

/-- The digits `Nat.toDigits` writes are a run of digits whose value is the number. -/
theorem digitsOf_toDigits (hb : 1 < base) (hval : ∀ d < base, val (Nat.digitChar d) = some d)
    (n : Nat) : DigitsOf val base (Nat.toDigits base n) n := by
  obtain ⟨c, ds, heq, hall, hvalue⟩ := toDigitsCore_digits val base hb hval (n + 1) n [] (by omega)
  rw [show Nat.toDigits base n = c :: ds from heq.trans (List.append_nil _)]
  exact ⟨List.cons_ne_nil c ds, hall, hvalue⟩

variable {val base}

/-- Zeros in front of a run of digits leave its value as it was. -/
theorem digitsOf_zeros_append (hzero : val '0' = some 0) (k : Nat) {ds : List Char} {n : Nat}
    (h : DigitsOf val base ds n) : DigitsOf val base (List.replicate k '0' ++ ds) n := by
  obtain ⟨hne, hall, hvalue⟩ := h
  have hzeros : digitsValue val base 0 (List.replicate k '0') = 0 := by
    induction k with
    | zero => rfl
    | succ k ih =>
      rw [List.replicate_succ', digitsValue_append_singleton, ih, hzero]
      rfl
  refine ⟨by simp [hne], fun x hx => ?_, ?_⟩
  · rcases List.mem_append.1 hx with hx | hx
    · rw [List.eq_of_mem_replicate hx, hzero]
      rfl
    · exact hall x hx
  · rw [digitsValue_append, hzeros, hvalue]

theorem parseDigits_of_stop (acc : Nat) (rest : List Char)
    (hrest : ∀ c cs, rest = c :: cs → val c = none) :
    parseDigits val base rest acc = (acc, rest) := by
  cases rest with
  | nil => rfl
  | cons c cs => rw [parseDigits, hrest c cs rfl]

/-- A run of digits followed by text that does not start with one reads as its value. -/
theorem parseNumber_append {ds : List Char} {n : Nat} (h : DigitsOf val base ds n)
    (rest : List Char) (hrest : ∀ c cs, rest = c :: cs → val c = none) :
    parseNumber val base (ds ++ rest) = some (n, rest) := by
  obtain ⟨hne, hds, rfl⟩ := h
  obtain ⟨d, ds, rfl⟩ := List.exists_cons_of_ne_nil hne
  obtain ⟨v, hv⟩ := Option.isSome_iff_exists.mp (hds d (List.mem_cons_self d ds))
  rw [List.cons_append, parseNumber, hv, Option.map_some',
    parseDigits_append val base ds rest v fun x hx => hds x (List.mem_cons_of_mem d hx),
    parseDigits_of_stop _ rest hrest]
  simp only [digitsValue, List.foldl_cons, hv, Option.getD_some, Nat.mul_zero, Nat.zero_add]

theorem expectPrefix_append (p rest : List Char) : expectPrefix p (p ++ rest) = some rest := by
  induction p with
  | nil => rfl
  | cons c p ih => rw [List.cons_append, expectPrefix, if_pos rfl, ih]

/-- A field followed by text that starts with a character other than a digit. -/
theorem parseField_stop {sep ds : List Char} {n : Nat} (h : DigitsOf val base ds n) {c : Char}
    (hc : val c = none) (ps rest : List Char) :
    parseField sep val base (sep ++ (ds ++ ((c :: ps) ++ rest))) =
      some (n, (c :: ps) ++ rest) := by
  rw [parseField, expectPrefix_append, Option.some_bind,
    parseNumber_append h _ fun _ _ heq => by cases heq; exact hc]

/-- A field at the end of the text. -/
theorem parseField_last {sep ds : List Char} {n : Nat} (h : DigitsOf val base ds n) :
    parseField sep val base (sep ++ ds) = some (n, []) := by
  rw [parseField, expectPrefix_append, Option.some_bind, ← List.append_nil ds,
    parseNumber_append h [] nofun]

end Digits

/-! ## The text reads back as the words -/

theorem hexDigitValue_digitChar : ∀ d, d < 16 → hexDigitValue (Nat.digitChar d) = some d := by
  decide

theorem digitsOf_toDigits_hex (n : Nat) : DigitsOf hexDigitValue 16 (Nat.toDigits 16 n) n :=
  digitsOf_toDigits hexDigitValue 16 (by omega) hexDigitValue_digitChar n

/-- The text of one record, separator by separator. -/
theorem hexText_toList (r : RawInstruction) :
    r.hexText.toList = ['\x7b', '0', 'x'] ++ (Nat.toDigits 16 r.word0.toNat ++
      ([',', '0', 'x'] ++ (Nat.toDigits 16 r.word1.toNat ++
      ([',', '0', 'x'] ++ (Nat.toDigits 16 r.word2.toNat ++ ['\x7d', ',']))))) := by
  show r.hexText.data = _
  simp only [RawInstruction.hexText, formatHex, String.data_append, List.append_assoc]
  rfl

/-- One record's text reads back as its three words. -/
theorem parseHexRecord_hexText (r : RawInstruction) (rest : List Char) :
    parseHexRecord (r.hexText.toList ++ rest) =
      some ((r.word0.toNat, r.word1.toNat, r.word2.toNat), rest) := by
  rw [hexText_toList]
  simp only [List.append_assoc, parseHexRecord,
    parseField_stop (digitsOf_toDigits_hex _) (rfl : hexDigitValue ',' = none),
    parseField_stop (digitsOf_toDigits_hex _) (rfl : hexDigitValue '\x7d' = none),
    expectPrefix_append, Option.bind_eq_bind, Option.some_bind]
  rfl

theorem hexText_toList_cons (r : RawInstruction) : ∃ t, r.hexText.toList = '\x7b' :: t := ⟨_, rfl⟩

theorem length_le_length_hexTexts (rs : List RawInstruction) :
    rs.length ≤ (rs.map fun r => r.hexText.toList).flatten.length := by
  induction rs with
  | nil => exact Nat.le_refl 0
  | cons r rs ih =>
    obtain ⟨t, ht⟩ := hexText_toList_cons r
    simp only [List.map_cons, List.flatten_cons, List.length_append, List.length_cons, ht]
    omega

theorem parseHexRecordsAux_hexTexts (rs : List RawInstruction) (fuel : Nat)
    (h : rs.length ≤ fuel) :
    parseHexRecordsAux fuel (rs.map fun r => r.hexText.toList).flatten =
      some (rs.map fun r => (r.word0.toNat, r.word1.toNat, r.word2.toNat)) := by
  induction rs generalizing fuel with
  | nil => cases fuel <;> rfl
  | cons r rs ih =>
    obtain ⟨fuel, rfl⟩ : ∃ f, fuel = f + 1 := ⟨fuel - 1, by simp at h; omega⟩
    obtain ⟨t, ht⟩ := hexText_toList_cons r
    have hrec := parseHexRecord_hexText r (rs.map fun r => r.hexText.toList).flatten
    rw [ht, List.cons_append] at hrec
    rw [List.map_cons, List.flatten_cons, ht, List.cons_append, parseHexRecordsAux, hrec,
      Option.bind_eq_bind, Option.some_bind]
    simp only [ih fuel (by simp at h; omega)]
    rfl

/-! ## The two forms agree -/

section Agreement

variable {α : Type} (toInstruction : α → InstructionInfo)

/-- The two V1 output forms are projections of the same records, in program order: the byte
stream has twelve bytes per instruction and reads back, twelve bytes at a time, as the words of
`encode_instruction(x.to_instruction())`; the text is the concatenation of the `{:#x}` triples of
the same records; and parsing the text gives the words the byte stream holds. -/
theorem encodeV1_outputs_agree (bindProgram : BindProgram α) :
    (encodeToBytecodeV1 toInstruction bindProgram).length = 12 * bindProgram.instructions.length ∧
    readRecordsLe (encodeToBytecodeV1 toInstruction bindProgram) =
      bindProgram.instructions.map (fun x => (encodeInstruction (toInstruction x)).words) ∧
    encodeToStringV1 toInstruction bindProgram =
      String.join (bindProgram.instructions.map fun x =>
        "\x7b" ++ formatHex (encodeInstruction (toInstruction x)).word0 ++ "," ++
          formatHex (encodeInstruction (toInstruction x)).word1 ++ "," ++
          formatHex (encodeInstruction (toInstruction x)).word2 ++ "\x7d,") ∧
    parseHexRecords (encodeToStringV1 toInstruction bindProgram) =
      some ((readRecordsLe (encodeToBytecodeV1 toInstruction bindProgram)).map
        fun w => (w.1.toNat, w.2.1.toNat, w.2.2.toNat)) := by
  have hwords := readRecordsLe_flatMap_leBytes
    (bindProgram.instructions.map fun x => encodeInstruction (toInstruction x))
  rw [List.map_map] at hwords
  refine ⟨?_, hwords, ?_, ?_⟩
  · rw [encodeToBytecodeV1, length_flatMap_leBytes, List.length_map]
  · rw [encodeToStringV1, List.map_map]
    rfl
  · have htext : (encodeToStringV1 toInstruction bindProgram).toList =
        ((bindProgram.instructions.map fun x => encodeInstruction (toInstruction x)).map
          fun r => r.hexText.toList).flatten := by
      show (encodeToStringV1 toInstruction bindProgram).data = _
      rw [encodeToStringV1, String.data_join, List.map_map]
      rfl
    rw [encodeToBytecodeV1, hwords, parseHexRecords, show ∀ s : String, s.length = s.toList.length
      from fun _ => rfl, htext, parseHexRecordsAux_hexTexts _ _
      (length_le_length_hexTexts _), List.map_map, List.map_map]
    rfl

end Agreement

/-! ## Reading a program back from its bytes -/

end EncodeBindProgramV1

/-- An instruction whose operands fit the V1 fields, compiled from a line and an AST tag below
`2 ^ 8` and an extra value below `2 ^ 16`: everything the record's fields carry without loss. -/
def InstructionInfo.FitsV1 (info : InstructionInfo) : Prop :=
  info.instruction.FitsV1 ∧ info.debug.line.toNat < 2 ^ 8 ∧
    info.debug.astLocation.toNat < 2 ^ 8 ∧ info.debug.extra.toNat < 2 ^ 16

instance (info : InstructionInfo) : Decidable info.FitsV1 :=
  inferInstanceAs (Decidable (_ ∧ _))

namespace EncodeBindProgramV1

/-- The decoder of spec section 8: a record's instruction from its getters, and its debug
fields beside it. -/
def RawInstruction.decodeInfo (r : RawInstruction) : Option InstructionInfo :=
  r.decode.map fun instruction => ⟨instruction, ⟨r.line, r.astLocation, r.extra⟩⟩

/-- One record decoded from its three words. -/
def decodeRecord (w : UInt32 × UInt32 × UInt32) : Option InstructionInfo :=
  RawInstruction.decodeInfo ⟨w.1, w.2.1, w.2.2⟩

/-- A V1 byte stream read back: twelve bytes a record, every record decoded. -/
def decodeBytecodeV1 (bytes : List UInt8) : Option (List InstructionInfo) :=
  (readRecordsLe bytes).mapM decodeRecord

namespace RawInstruction

/-- The decoder reads the five instruction fields and nothing else. -/
theorem decode_congr {r r' : RawInstruction} (hc : r.condition = r'.condition)
    (ho : r.operation = r'.operation) (ha : r.parameterA = r'.parameterA)
    (hb : r.parameterB = r'.parameterB) (hv : r.value = r'.value) : r.decode = r'.decode := by
  simp only [decode, hc, ho, ha, hb, hv]

/-- `encode_instruction` loses nothing of an instruction that fits. -/
theorem decodeInfo_encodeInstruction {info : InstructionInfo} (h : info.FitsV1) :
    (encodeInstruction info).decodeInfo = some info := by
  obtain ⟨hi, hline, hast, hextra⟩ := h
  obtain ⟨hc, ho, ha, hb, hv, hl, ha', he⟩ := setDebug_fields (fromInstruction info.instruction)
    info.debug.line info.debug.astLocation info.debug.extra
  have hdec : (encodeInstruction info).decode = some info.instruction :=
    (decode_congr hc ho ha hb hv).trans (decode_fromInstruction hi)
  rw [decodeInfo, hdec, Option.map_some', encodeInstruction, hl, ha', he,
    uint32_ofNat_mod_of_lt hline, uint32_ofNat_mod_of_lt hast, uint32_ofNat_mod_of_lt hextra]

theorem decodeRecord_words (r : RawInstruction) : decodeRecord r.words = r.decodeInfo := rfl

end RawInstruction

section RoundTrip

variable {α : Type} (toInstruction : α → InstructionInfo)

/-- The V1 byte stream of a program whose instructions fit their records reads back, record by
record, as the program's instructions with their debug information, in program order. -/
theorem decodeBytecodeV1_encodeToBytecodeV1 (bindProgram : BindProgram α)
    (h : ∀ x ∈ bindProgram.instructions, (toInstruction x).FitsV1) :
    decodeBytecodeV1 (encodeToBytecodeV1 toInstruction bindProgram) =
      some (bindProgram.instructions.map toInstruction) := by
  obtain ⟨instructions⟩ := bindProgram
  rw [decodeBytecodeV1, encodeToBytecodeV1, readRecordsLe_flatMap_leBytes, List.map_map]
  induction instructions with
  | nil => rfl
  | cons x xs ih =>
    have hx := RawInstruction.decodeInfo_encodeInstruction (h x (List.mem_cons_self x xs))
    simp only [List.map_cons, List.mapM_cons, Function.comp, RawInstruction.decodeRecord_words,
      hx, ih fun y hy => h y (List.mem_cons_of_mem x hy)]
    rfl

end RoundTrip

/-- The byte stream of a one-instruction program, `Goto(Equal(23, 1234), 42)` from line 12,
reads back as that instruction. -/
theorem decodeBytecodeV1_goto :
    (∀ x ∈ [(⟨.goto (.equal 23 1234) 42, ⟨12, 3, 0x1234⟩⟩ : InstructionInfo)], x.FitsV1) ∧
    decodeBytecodeV1 (encodeToBytecodeV1 id ⟨[⟨.goto (.equal 23 1234) 42, ⟨12, 3, 0x1234⟩⟩]⟩) =
      some [⟨.goto (.equal 23 1234) 42, ⟨12, 3, 0x1234⟩⟩] :=
  ⟨by decide, decodeBytecodeV1_encodeToBytecodeV1 id _ (by decide)⟩

end EncodeBindProgramV1

end BindBytecode
