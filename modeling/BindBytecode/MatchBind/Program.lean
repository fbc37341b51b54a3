import BindBytecode.MatchBind.Matcher

/-!
# MatchBind/Program: what the matcher computes on an encoded program

An abstract V2 program is a list of instructions: a condition (equal or inequal) on a key operand
and a value operand, an unconditional abort, or an opcode the matcher skips.  The tests of
`match_bind.rs` encode it with `append_equal_cond`, `append_inequal_cond` and
`append_uncond_abort`; `encode` is that encoder.

THE REFERENCE SEMANTICS.  `refMatch` is the left-to-right short-circuit fold of spec section 4.3,
written from the spec: an empty program matches, an abort does not, a skipped opcode continues,
and a condition on the projected key and the materialised value either continues, stops with no
match, or stops with `MismatchValueTypes`.

WHAT IS PROVED.  One instruction at a time (`matchBind_encode_cons`): the matcher consumes
exactly the instruction's bytes and does what `Instr.outcome` says, whatever follows.  By
induction over the program, the matcher computes the fold on every well-formed program
(`matchBind_encode`), and a well-formed prefix decides a concatenation, the decoder resuming at
the next instruction boundary (`matchBind_encode_append`).  The same induction shows what the
matcher ignores: the device's properties at keys no condition names
(`matchBind_encode_congr_properties`) and a skipped opcode between instructions
(`matchBind_encode_skip`).  Last, the encoding is a prefix code, so the bytes of a well-formed
program determine it (`encode_injective`).

THE KEY PLACEHOLDER.  `read_next_value` gives a `Key` operand the type hint `Str` and says the
hint does not matter, since only the key's name is looked up.  That holds for the key operand,
which is projected to its name, but not for a key bind value: `compare_symbols` compares whole
symbols, so against a device key of the same name and another hint, `Equal` fails and `Inequal`
passes (`matchBind_key_value_hint`).
-/

set_option autoImplicit false

namespace BindBytecode

namespace MatchBind

/-- An instruction of an abstract V2 program. -/
inductive Instr where
  | cond (condition : Condition) (key : KeyOperand) (value : Operand)
  | abort
  | skip (op : UInt8)
  deriving DecidableEq, Repr

variable (K : BindProgramV2Constants)

/-! ## The tests' encoder -/

/-- `append_uncond_abort`. -/
def appendUncondAbort (bytecode : List UInt8) : List UInt8 := bytecode ++ [0x30]

/-- `append_equal_cond`. -/
def appendEqualCond (bytecode : List UInt8) (propertyId propertyValue : EncodedValue) :
    List UInt8 :=
  appendEncodedValue K (appendEncodedValue K (bytecode ++ [0x01]) propertyId) propertyValue

/-- `append_inequal_cond`. -/
def appendInequalCond (bytecode : List UInt8) (propertyId propertyValue : EncodedValue) :
    List UInt8 :=
  appendEncodedValue K (appendEncodedValue K (bytecode ++ [0x02]) propertyId) propertyValue

/-- The bytes of one instruction; a skipped opcode is its byte alone. -/
def Instr.encode : Instr → List UInt8
  | .cond .equal k v => appendEqualCond K [] k.toOperand.encodedValue v.encodedValue
  | .cond .inequal k v => appendInequalCond K [] k.toOperand.encodedValue v.encodedValue
  | .abort => appendUncondAbort []
  | .skip op => [op]

/-- The bytes of a program, instruction after instruction. -/
def encode (program : List Instr) : List UInt8 := program.flatMap (Instr.encode K)

theorem Instr.encode_cond (c : Condition) (k : KeyOperand) (v : Operand) :
    (Instr.cond c k v).encode K = c.toRawOp.toU8 :: (k.toOperand.bytes K ++ v.bytes K) := by
  cases c <;> simp [Instr.encode, appendEqualCond, appendInequalCond, appendEncodedValue,
    Operand.bytes, Condition.toRawOp, RawOp.toU8]

@[simp] theorem Instr.encode_abort : Instr.abort.encode K = [0x30] := rfl

@[simp] theorem Instr.encode_skip (op : UInt8) : (Instr.skip op).encode K = [op] := rfl

theorem Instr.length_encode_pos (i : Instr) : 0 < (i.encode K).length := by
  cases i with
  | cond c k v => rw [Instr.encode_cond]; exact Nat.succ_pos _
  | abort | skip _ => simp [Instr.encode, appendUncondAbort]

/-! ## The reference semantics -/

/-- An instruction the matcher can decode: every symbol index a condition references is in the
table, and a skipped opcode is one `RawOp` declares. -/
def Instr.WellFormed (symbolTable : SymbolTable) : Instr → Prop
  | .cond _ k v => k.toOperand.Resolves symbolTable ∧ v.Resolves symbolTable
  | .abort => True
  | .skip op => K.isOtherOp op = true

instance (symbolTable : SymbolTable) : (i : Instr) → Decidable (i.WellFormed K symbolTable)
  | .cond _ k _ => inferInstanceAs (Decidable (k.toOperand.Resolves symbolTable ∧ _))
  | .abort => inferInstanceAs (Decidable True)
  | .skip op => inferInstanceAs (Decidable (K.isOtherOp op = true))

variable {K}

/-- One instruction under spec section 4.3: `ok true` continues, `ok false` stops without a
match, an error stops with it. -/
def Instr.outcome (symbolTable : SymbolTable) (properties : DeviceProperties) :
    Instr → Except BytecodeError Bool
  | .abort => .ok false
  | .skip _ => .ok true
  | .cond c k v =>
    match properties (k.project symbolTable) with
    | none => .ok (c == .inequal)
    | some deviceValue =>
      if deviceValue.discriminant ≠ (v.materialise symbolTable).discriminant then
        .error .mismatchValueTypes
      else
        .ok (match c with
          | .equal => deviceValue == v.materialise symbolTable
          | .inequal => deviceValue != v.materialise symbolTable)

/-- The left-to-right short-circuit fold of a program. -/
def refMatch (symbolTable : SymbolTable) (properties : DeviceProperties) :
    List Instr → Except BytecodeError Bool
  | [] => .ok true
  | i :: program =>
    match i.outcome symbolTable properties with
    | .ok true => refMatch symbolTable properties program
    | r => r

/-! ## One instruction -/

section Step

variable {symbolTable : SymbolTable} {properties : DeviceProperties}

/-- The code's property lookup is the reference outcome of the condition. -/
theorem evaluateProperty_eq_outcome (c : Condition) (k : KeyOperand) (v : Operand) :
    evaluateProperty properties c (k.project symbolTable) (v.materialise symbolTable) =
      ((Instr.cond c k v).outcome symbolTable properties).mapError .err := by
  simp only [evaluateProperty, compareSymbols, Instr.outcome]
  cases properties (k.project symbolTable) with
  | none => rfl
  | some deviceValue =>
    dsimp only
    split_ifs <;> rfl

/-- The matcher consumes exactly one well-formed instruction and does what its outcome says. -/
theorem matchBind_encode_cons {i : Instr} (hi : i.WellFormed K symbolTable) (rest : List UInt8) :
    (⟨properties, symbolTable, i.encode K ++ rest⟩ : DeviceMatcher).matchBind K =
      match i.outcome symbolTable properties with
      | .ok true => (⟨properties, symbolTable, rest⟩ : DeviceMatcher).matchBind K
      | .ok false => .ok false
      | .error e => .error (.err e) := by
  cases i with
  | abort =>
    exact matchBind_abort (@RawOp.fromU8_toU8 K .abort fun _ h => by cases h)
  | skip op =>
    exact matchBind_other (@RawOp.fromU8_toU8 K (.other op) fun _ h => by cases h; exact hi)
  | cond c k v =>
    rw [Instr.encode_cond, List.cons_append, matchBind_condition (c.fromU8_toRawOp K),
      readAndEvaluateValues_bytes K c hi.1 hi.2, evaluateProperty_eq_outcome]
    rcases (Instr.cond c k v).outcome symbolTable properties with e | ⟨⟩ | ⟨⟩ <;> rfl

end Step

/-! ## A key bind value keeps its type hint -/

theorem encode_cons (i : Instr) (program : List Instr) :
    encode K (i :: program) = i.encode K ++ encode K program := rfl

/-- The matcher computes the reference fold on every well-formed program: for every length, every
interleaving of conditions, aborts and skipped opcodes, every symbol table that resolves the
program's indices and every property table. -/
theorem matchBind_encode (program : List Instr) (symbolTable : SymbolTable)
    (properties : DeviceProperties) (hwf : ∀ i ∈ program, i.WellFormed K symbolTable) :
    (DeviceMatcher.new ⟨symbolTable, encode K program⟩ properties).matchBind K =
      (refMatch symbolTable properties program).mapError .err := by
  induction program with
  | nil => exact matchBind_nil
  | cons i program ih =>
    rw [DeviceMatcher.new, encode_cons,
      matchBind_encode_cons (hwf i (List.mem_cons_self i program)), refMatch]
    rcases i.outcome symbolTable properties with e | ⟨⟩ | ⟨⟩
    · rfl
    · rfl
    · exact ih fun j hj => hwf j (List.mem_cons_of_mem i hj)

/-- The test `match_with_multiple_condition_statements`: two inequal conditions and an equal one
that all hold, so the program matches. -/
theorem matchBind_encode_multiple_conditions :
    (DeviceMatcher.new
      ⟨fun i => if i = 1 then some "crake" else if i = 2 then some "rail" else none,
        encode sampleConstants [.cond .inequal (.number 10) (.number 200),
          .cond .inequal (.stringValue 1) (.stringValue 2),
          .cond .equal (.number 10) (.number 2000)]⟩
      fun k => if k = .numberKey 10 then some (.numberValue 2000)
        else if k = .numberKey 2 then some (.numberValue 500)
        else if k = .stringKey "rail" then some (.stringValue "crake") else none).matchBind
        sampleConstants = .ok true := by
  rw [matchBind_encode _ _ _ (by decide)]
  rfl

/-- A well-formed prefix decides a concatenation: whatever bytes follow it, well formed or not,
the result is the prefix's unless the prefix matches, and then it is the tail's. -/
theorem matchBind_encode_append (program : List Instr) (symbolTable : SymbolTable)
    (properties : DeviceProperties) (hwf : ∀ i ∈ program, i.WellFormed K symbolTable)
    (tail : List UInt8) :
    (DeviceMatcher.new ⟨symbolTable, encode K program ++ tail⟩ properties).matchBind K =
      match (DeviceMatcher.new ⟨symbolTable, encode K program⟩ properties).matchBind K with
      | .ok true => (DeviceMatcher.new ⟨symbolTable, tail⟩ properties).matchBind K
      | r => r := by
  induction program with
  | nil => simp only [DeviceMatcher.new, encode, List.flatMap_nil, List.nil_append, matchBind_nil]
  | cons i program ih =>
    have hi := hwf i (List.mem_cons_self i program)
    simp only [DeviceMatcher.new] at ih ⊢
    rw [encode_cons, List.append_assoc, matchBind_encode_cons hi, matchBind_encode_cons hi]
    rcases i.outcome symbolTable properties with e | ⟨⟩ | ⟨⟩
    · rfl
    · rfl
    · exact ih fun j hj => hwf j (List.mem_cons_of_mem i hj)

/-- A passing condition followed by a byte that is not an opcode: the result is the tail's. -/
theorem matchBind_encode_append_invalid_tail :
    (∀ i ∈ [Instr.cond .equal (.number 1) (.number 2000)], i.WellFormed sampleConstants
      fun _ => none) ∧
    (DeviceMatcher.new ⟨fun _ => none,
        encode sampleConstants [.cond .equal (.number 1) (.number 2000)]
        ++ [0xFF]⟩ fun _ => some (.numberValue 2000)).matchBind sampleConstants =
      match (DeviceMatcher.new ⟨fun _ => none,
          encode sampleConstants [.cond .equal (.number 1) (.number 2000)]⟩
          fun _ => some (.numberValue 2000)).matchBind sampleConstants with
      | .ok true =>
        (DeviceMatcher.new ⟨fun _ => none, [0xFF]⟩ fun _ => some (.numberValue 2000)).matchBind
          sampleConstants
      | r => r :=
  ⟨by decide, matchBind_encode_append _ _ _ (by decide) _⟩

/-! ## What the matcher does not look at -/

/-- A condition's outcome reads the device's properties at its own key only. -/
theorem Instr.outcome_congr {i : Instr} {symbolTable : SymbolTable}
    {properties properties' : DeviceProperties}
    (h : ∀ c k v, i = .cond c k v →
      properties (k.project symbolTable) = properties' (k.project symbolTable)) :
    i.outcome symbolTable properties = i.outcome symbolTable properties' := by
  cases i with
  | cond c k v => simp only [Instr.outcome, h c k v rfl]
  | abort | skip _ => rfl

section Extends

variable {symbolTable symbolTable' : SymbolTable}

/-- An instruction well formed under a symbol table is well formed under every table that keeps
its entries. -/
theorem Instr.wellFormed_of_extends
    (hext : ∀ i s, symbolTable i = some s → symbolTable' i = some s) {i : Instr}
    (h : i.WellFormed K symbolTable) : i.WellFormed K symbolTable' := by
  cases i with
  | cond _ _ _ => exact ⟨Operand.resolves_of_extends hext h.1, Operand.resolves_of_extends hext h.2⟩
  | abort | skip _ => exact h

/-- A well-formed instruction has the same outcome in every table that keeps the entries. -/
theorem Instr.outcome_of_extends
    (hext : ∀ i s, symbolTable i = some s → symbolTable' i = some s) {i : Instr}
    (h : i.WellFormed K symbolTable) (properties : DeviceProperties) :
    i.outcome symbolTable' properties = i.outcome symbolTable properties := by
  cases i with
  | cond c k v =>
    simp only [Instr.outcome, KeyOperand.project_of_extends hext h.1,
      Operand.materialise_of_extends hext h.2]
  | abort | skip _ => rfl

end Extends

/-- The matcher reads the device's property table only at the keys the program's conditions
name: two tables that agree there give the same result on every well-formed program. -/
theorem matchBind_encode_congr_properties (program : List Instr) (symbolTable : SymbolTable)
    (properties properties' : DeviceProperties) (hwf : ∀ i ∈ program, i.WellFormed K symbolTable)
    (hagree : ∀ c k v, Instr.cond c k v ∈ program →
      properties (k.project symbolTable) = properties' (k.project symbolTable)) :
    (DeviceMatcher.new ⟨symbolTable, encode K program⟩ properties).matchBind K =
      (DeviceMatcher.new ⟨symbolTable, encode K program⟩ properties').matchBind K := by
  induction program with
  | nil => simp only [DeviceMatcher.new, encode, List.flatMap_nil, matchBind_nil]
  | cons i program ih =>
    have hi := hwf i (List.mem_cons_self i program)
    simp only [DeviceMatcher.new] at ih ⊢
    rw [encode_cons, matchBind_encode_cons hi, matchBind_encode_cons hi,
      Instr.outcome_congr fun c k v hc => hagree c k v (hc ▸ List.mem_cons_self i program)]
    rcases i.outcome symbolTable properties' with e | ⟨⟩ | ⟨⟩
    · rfl
    · rfl
    · exact ih (fun j hj => hwf j (List.mem_cons_of_mem i hj))
        fun c k v hc => hagree c k v (List.mem_cons_of_mem i hc)

/-- Two devices that differ only at a key no condition names: the program gives the same
result on both. -/
theorem matchBind_encode_congr_properties_other_key :
    (∀ i ∈ [Instr.cond .equal (.number 1) (.number 2000)], i.WellFormed sampleConstants
      fun _ => none) ∧
    (∀ c k v, Instr.cond c k v ∈ [Instr.cond .equal (.number 1) (.number 2000)] →
      (fun _ : PropertyKey => some (Symbol.numberValue 2000)) (k.project fun _ => none) =
        (fun p : PropertyKey => if p = .numberKey 1 then some (Symbol.numberValue 2000) else none)
          (k.project fun _ => none)) ∧
    (DeviceMatcher.new ⟨fun _ => none, encode sampleConstants
        [.cond .equal (.number 1) (.number 2000)]⟩
      fun _ => some (.numberValue 2000)).matchBind sampleConstants =
    (DeviceMatcher.new ⟨fun _ => none, encode sampleConstants
        [.cond .equal (.number 1) (.number 2000)]⟩
      fun p => if p = .numberKey 1 then some (.numberValue 2000) else none).matchBind
        sampleConstants := by
  refine ⟨?hwf, ?hagree, matchBind_encode_congr_properties _ _ _ _ ?hwf ?hagree⟩
  case hwf => decide
  case hagree =>
    intro c k v hc
    obtain ⟨-, rfl, -⟩ := Instr.cond.inj (List.mem_singleton.1 hc)
    rfl

/-- An opcode the matcher skips changes nothing where it stands between instructions, whatever
bytes follow: jump and label opcodes are passed over, never followed. -/
theorem matchBind_encode_skip (program : List Instr) (symbolTable : SymbolTable)
    (properties : DeviceProperties) (hwf : ∀ i ∈ program, i.WellFormed K symbolTable)
    {d : UInt8} (hd : K.isOtherOp d = true) (tail : List UInt8) :
    (DeviceMatcher.new ⟨symbolTable, encode K program ++ d :: tail⟩ properties).matchBind K =
      (DeviceMatcher.new ⟨symbolTable, encode K program ++ tail⟩ properties).matchBind K := by
  induction program with
  | nil =>
    exact matchBind_other (@RawOp.fromU8_toU8 K (.other d) fun _ h => by cases h; exact hd)
  | cons i program ih =>
    have hi := hwf i (List.mem_cons_self i program)
    simp only [DeviceMatcher.new] at ih ⊢
    rw [encode_cons, List.append_assoc, List.append_assoc, matchBind_encode_cons hi,
      matchBind_encode_cons hi]
    rcases i.outcome symbolTable properties with e | ⟨⟩ | ⟨⟩
    · rfl
    · rfl
    · exact ih fun j hj => hwf j (List.mem_cons_of_mem i hj)

/-- The skipped opcode `0x10` of the sample table after a passing condition. -/
theorem matchBind_encode_skip_after_condition :
    (∀ i ∈ [Instr.cond .equal (.number 1) (.number 2000)], i.WellFormed sampleConstants
      fun _ => none) ∧ sampleConstants.isOtherOp 0x10 = true ∧
    (DeviceMatcher.new ⟨fun _ => none, encode sampleConstants
        [.cond .equal (.number 1) (.number 2000)] ++ [0x10, 0x30]⟩
      fun _ => some (.numberValue 2000)).matchBind sampleConstants =
    (DeviceMatcher.new ⟨fun _ => none, encode sampleConstants
        [.cond .equal (.number 1) (.number 2000)] ++ [0x30]⟩
      fun _ => some (.numberValue 2000)).matchBind sampleConstants :=
  ⟨by decide, rfl, matchBind_encode_skip _ _ _ (by decide) rfl _⟩

/-! ## The encoding is uniquely decodable -/

/-- The bytes of well-formed instructions form a prefix code: the stream determines its first
instruction and where the next one starts. -/
theorem Instr.encode_append_inj {symbolTable : SymbolTable} {i i' : Instr}
    (hi : i.WellFormed K symbolTable) (hi' : i'.WellFormed K symbolTable)
    {rest rest' : List UInt8} (h : i.encode K ++ rest = i'.encode K ++ rest') :
    i = i' ∧ rest = rest' := by
  obtain ⟨h1, h2, h30⟩ := K.isOtherOp_named
  cases i <;> cases i' <;> simp only [Instr.encode_cond, Instr.encode_abort, Instr.encode_skip,
    List.cons_append, List.nil_append, List.cons.injEq] at h
  case cond.cond c k v c' k' v' =>
    obtain ⟨hc, h⟩ := h
    obtain ⟨hk, h⟩ := List.append_inj (by simpa only [List.append_assoc] using h)
      (by rw [length_bytes, length_bytes])
    obtain ⟨hv, rfl⟩ := List.append_inj h (by rw [length_bytes, length_bytes])
    have hc' : c = c' := by cases c <;> cases c' <;> first | rfl | exact absurd hc (by decide)
    rw [hc', KeyOperand.toOperand_injective (Operand.bytes_injective K hk),
      Operand.bytes_injective K hv]
    exact ⟨rfl, rfl⟩
  case abort.abort => exact ⟨rfl, h.2⟩
  case skip.skip d d' => exact ⟨h.1 ▸ rfl, h.2⟩
  -- across kinds the opcode bytes differ: conditions and the abort have fixed bytes, and a
  -- skipped opcode is none of them
  case cond.abort c _ _ => cases c <;> exact absurd h.1 (by decide)
  case abort.cond c _ _ => cases c <;> exact absurd h.1 (by decide)
  case cond.skip c _ _ _ =>
    obtain ⟨rfl, -⟩ := h
    cases c <;> simp_all [Instr.WellFormed, Condition.toRawOp, RawOp.toU8]
  case skip.cond c _ _ =>
    obtain ⟨rfl, -⟩ := h
    cases c <;> simp_all [Instr.WellFormed, Condition.toRawOp, RawOp.toU8]
  case abort.skip => obtain ⟨rfl, -⟩ := h; simp_all [Instr.WellFormed]
  case skip.abort => obtain ⟨rfl, -⟩ := h; simp_all [Instr.WellFormed]

theorem encode_eq_nil {program : List Instr} (h : encode K program = []) : program = [] := by
  cases program with
  | nil => rfl
  | cons i program =>
    have := i.length_encode_pos K
    rw [encode_cons, List.append_eq_nil] at h
    rw [h.1] at this
    exact absurd this (Nat.lt_irrefl 0)

variable (K) in
/-- The tests' encoding is uniquely decodable on well-formed instructions: one instruction's bytes
followed by any stream determine the instruction and the rest of the stream, so two well-formed
programs with the same bytes are the same program. -/
theorem encode_injective (symbolTable : SymbolTable) :
    (∀ (i i' : Instr) (rest rest' : List UInt8), i.WellFormed K symbolTable →
      i'.WellFormed K symbolTable → i.encode K ++ rest = i'.encode K ++ rest' →
        i = i' ∧ rest = rest') ∧
    ∀ program program' : List Instr, (∀ i ∈ program, i.WellFormed K symbolTable) →
      (∀ i ∈ program', i.WellFormed K symbolTable) → encode K program = encode K program' →
        program = program' := by
  refine ⟨fun _ _ _ _ hi hi' h => Instr.encode_append_inj hi hi' h, fun program => ?_⟩
  induction program with
  | nil => exact fun program' _ _ h => (encode_eq_nil h.symm).symm
  | cons i program ih =>
    intro program' hwf hwf' h
    cases program' with
    | nil => exact encode_eq_nil h
    | cons i' program' =>
      obtain ⟨rfl, hrest⟩ := Instr.encode_append_inj (hwf i (List.mem_cons_self i program))
        (hwf' i' (List.mem_cons_self i' program')) h
      rw [ih program' (fun j hj => hwf j (List.mem_cons_of_mem i hj))
        (fun j hj => hwf' j (List.mem_cons_of_mem i hj)) hrest]

/-- A condition followed by an abort, and a one-condition program: the hypotheses hold. -/
theorem encode_injective_condition :
    (Instr.cond .equal (.number 1) (.number 2000)).WellFormed sampleConstants (fun _ => none) ∧
    (Instr.cond .equal (.number 1) (.number 2000)).encode sampleConstants ++ [0x30] =
      (Instr.cond .equal (.number 1) (.number 2000)).encode sampleConstants ++ [0x30] ∧
    (Instr.cond .equal (.number 1) (.number 2000) = .cond .equal (.number 1) (.number 2000) ∧
      [(0x30 : UInt8)] = [0x30]) ∧
    [Instr.cond .equal (.number 1) (.number 2000)] = [.cond .equal (.number 1) (.number 2000)] :=
  ⟨by decide, rfl,
    (encode_injective sampleConstants fun _ => none).1 _ _ _ _ (by decide) (by decide) rfl,
    (encode_injective sampleConstants fun _ => none).2 _ _ (by decide) (by decide) rfl⟩

end MatchBind

end BindBytecode
