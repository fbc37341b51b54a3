import BindBytecode.MatchBind.Decode

/-!
# MatchBind/Matcher: the V2 matching engine

`DeviceMatcher::match_bind` consumes the instruction stream one opcode at a time.  A condition
opcode makes `evaluate_condition_inst` read two operands and compare the device's property with
the second; a failed condition or an unconditional abort ends the run with `Ok(false)`, an
opcode `RawOp` does not know ends it with `Err(InvalidOp)`, every other opcode is skipped, and an
exhausted stream gives `Ok(true)`.

The `while let` loop is modelled by well-founded recursion on the bytes left: every pass consumes
its opcode byte, and a condition consumes its operands on top (`evaluateConditionInst_length`).
Callers never unfold the loop; they use the five equations `matchBind_nil`,
`matchBind_invalidOp`, `matchBind_abort`, `matchBind_other` and `matchBind_condition`, one for
each way a pass can go.  Likewise a condition's reading of its operands is used only through
`readAndEvaluateValues_cases`, which lists everything it can do, and the computing lemmas beside
it.
-/

set_option autoImplicit false

namespace BindBytecode

namespace MatchBind

/-- The matcher's `Condition`. -/
inductive Condition where
  | equal
  | inequal
  deriving DecidableEq, Repr

/-- Modelled from the spec: `DecodedProgram`, the symbol table and the instruction bytes. -/
structure DecodedProgram where
  symbolTable : SymbolTable
  instructions : List UInt8

/-- `DeviceMatcher`: the device's properties, the program's symbol table, and the iterator over
the instruction bytes. -/
structure DeviceMatcher where
  properties : DeviceProperties
  symbolTable : SymbolTable
  iter : BytecodeIter

/-- `DeviceMatcher::new`. -/
def DeviceMatcher.new (bindRules : DecodedProgram) (properties : DeviceProperties) :
    DeviceMatcher :=
  ⟨properties, bindRules.symbolTable, bindRules.instructions⟩

/-- `compare_symbols`: symbols of different variants are an error, never a silent mismatch.
`lhs == rhs` is the derived equality of `Symbol`, which compares a key's type hint along with its
name. -/
def compareSymbols (condition : Condition) (lhs rhs : Symbol) : Except Fault Bool :=
  if lhs.discriminant ≠ rhs.discriminant then .error (.err .mismatchValueTypes)
  else
    .ok (match condition with
      | .equal => lhs == rhs
      | .inequal => lhs != rhs)

/-- The panic message of the `unimplemented!` arm of `read_and_evaluate_values`. -/
def unimplementedKeyTypeMessage : String :=
  "not implemented: Only number and string-based property keys are supported. See fxb/71834."

/-- The panic message of the `panic!` arm of `evaluate_condition_inst`. -/
def conditionInstMessage : String :=
  "evaluate_condition_inst() should only be called for Equal or Inequal instructions"

/-- The `match` of `read_and_evaluate_values` that projects the key operand to a property key:
numbers and strings are keys, any other symbol reaches `unimplemented!`. -/
def propertyKeyOf : Symbol → Except Fault PropertyKey
  | .numberValue key => .ok (.numberKey key)
  | .stringValue key => .ok (.stringKey key)
  | .key key _ => .ok (.stringKey key)
  | _ => .error (.panic unimplementedKeyTypeMessage)

/-- The end of `read_and_evaluate_values`: an absent key satisfies exactly the inequal
condition, a present one is compared with `compare_symbols`. -/
def evaluateProperty (properties : DeviceProperties) (condition : Condition)
    (propertyKey : PropertyKey) (bindValue : Symbol) : Except Fault Bool :=
  match properties propertyKey with
  | none => .ok (condition == .inequal)
  | some deviceValue => compareSymbols condition deviceValue bindValue

variable (K : BindProgramV2Constants)

/-- `read_and_evaluate_values`: the key operand is projected to a property key before the value
operand is read. -/
def readAndEvaluateValues (properties : DeviceProperties) (symbolTable : SymbolTable)
    (condition : Condition) : Step Bool := fun iter => do
  let (key, iter) ← readNextValue K symbolTable iter
  let propertyKey ← propertyKeyOf key
  let (bindValue, iter) ← readNextValue K symbolTable iter
  let result ← evaluateProperty properties condition propertyKey bindValue
  pure (result, iter)

/-- `evaluate_condition_inst`. -/
def evaluateConditionInst (properties : DeviceProperties) (symbolTable : SymbolTable) :
    RawOp → Step Bool
  | .equalCondition => readAndEvaluateValues K properties symbolTable .equal
  | .inequalCondition => readAndEvaluateValues K properties symbolTable .inequal
  | _ => fun _ => .error (.panic conditionInstMessage)

theorem readNextValue_length {symbolTable : SymbolTable} {it it' : BytecodeIter} {s : Symbol}
    (h : readNextValue K symbolTable it = .ok (s, it')) : it'.length + 5 = it.length := by
  obtain ⟨o, rfl, -⟩ := readNextValue_ok K h
  simp [length_bytes]
  omega

/-- A condition consumes its operands: the loop below terminates. -/
theorem evaluateConditionInst_length {properties : DeviceProperties} {symbolTable : SymbolTable}
    {op : RawOp} {it it' : BytecodeIter} {b : Bool}
    (h : evaluateConditionInst K properties symbolTable op it = .ok (b, it')) :
    it'.length < it.length := by
  have hread : ∀ c, readAndEvaluateValues K properties symbolTable c it = .ok (b, it') →
      it'.length < it.length := by
    intro c h
    obtain ⟨⟨key, it₁⟩, hkey, h⟩ := except_bind_eq_ok h
    obtain ⟨pk, -, h⟩ := except_bind_eq_ok h
    obtain ⟨⟨value, it₂⟩, hvalue, h⟩ := except_bind_eq_ok h
    have h₁ := readNextValue_length K hkey
    have h₂ := readNextValue_length K hvalue
    obtain ⟨r, -, h⟩ := except_bind_eq_ok h
    cases h
    omega
  cases op with
  | equalCondition => exact hread .equal h
  | inequalCondition => exact hread .inequal h
  | _ => cases h

/-- `DeviceMatcher::match_bind`. -/
def DeviceMatcher.matchBind (m : DeviceMatcher) : Except Fault Bool :=
  match _hiter : m.iter with
  | [] => .ok true
  | byte :: rest =>
    match RawOp.fromU8 K byte with
    | none => .error (.err (.invalidOp byte))
    | some op =>
      match op with
      | .equalCondition | .inequalCondition =>
        match _hcond : evaluateConditionInst K m.properties m.symbolTable op rest with
        | .error e => .error e
        | .ok (false, _) => .ok false
        | .ok (true, iter) => DeviceMatcher.matchBind { m with iter := iter }
      | .abort => .ok false
      | .other _ => DeviceMatcher.matchBind { m with iter := rest }
termination_by m.iter.length
decreasing_by
  all_goals simp only [_hiter, List.length_cons]
  · have := evaluateConditionInst_length K _hcond
    omega
  · have := evaluateConditionInst_length K _hcond
    omega
  · omega

/-- The opcode of a condition: the inverse of the `match` in `evaluate_condition_inst`. -/
def Condition.toRawOp : Condition → RawOp
  | .equal => .equalCondition
  | .inequal => .inequalCondition

theorem Condition.fromU8_toRawOp (c : Condition) :
    RawOp.fromU8 K c.toRawOp.toU8 = some c.toRawOp :=
  RawOp.fromU8_toU8 K fun _ h => by cases c <;> cases h

theorem evaluateConditionInst_toRawOp (properties : DeviceProperties) (symbolTable : SymbolTable)
    (c : Condition) :
    evaluateConditionInst K properties symbolTable c.toRawOp =
      readAndEvaluateValues K properties symbolTable c := by
  cases c <;> rfl

/-! ## One pass of the loop -/

section Loop

variable {K} {properties : DeviceProperties} {symbolTable : SymbolTable} {byte : UInt8}
  {rest : BytecodeIter}

theorem matchBind_nil : (⟨properties, symbolTable, []⟩ : DeviceMatcher).matchBind K = .ok true := by
  rw [DeviceMatcher.matchBind]

theorem matchBind_invalidOp (h : RawOp.fromU8 K byte = none) :
    (⟨properties, symbolTable, byte :: rest⟩ : DeviceMatcher).matchBind K =
      .error (.err (.invalidOp byte)) := by
  rw [DeviceMatcher.matchBind]; simp [h]

theorem matchBind_abort (h : RawOp.fromU8 K byte = some .abort) :
    (⟨properties, symbolTable, byte :: rest⟩ : DeviceMatcher).matchBind K = .ok false := by
  rw [DeviceMatcher.matchBind]; simp [h]

theorem matchBind_other {d : UInt8} (h : RawOp.fromU8 K byte = some (.other d)) :
    (⟨properties, symbolTable, byte :: rest⟩ : DeviceMatcher).matchBind K =
      (⟨properties, symbolTable, rest⟩ : DeviceMatcher).matchBind K := by
  rw [DeviceMatcher.matchBind]; simp [h]

theorem matchBind_condition {c : Condition} (h : RawOp.fromU8 K byte = some c.toRawOp) :
    (⟨properties, symbolTable, byte :: rest⟩ : DeviceMatcher).matchBind K =
      match readAndEvaluateValues K properties symbolTable c rest with
      | .error e => .error e
      | .ok (false, _) => .ok false
      | .ok (true, iter) => (⟨properties, symbolTable, iter⟩ : DeviceMatcher).matchBind K := by
  rw [DeviceMatcher.matchBind, ← evaluateConditionInst_toRawOp]
  cases c <;> simp only [h, Condition.toRawOp] <;> split <;> simp_all

end Loop

/-! ## Reading a condition's operands -/

section Condition

variable {properties : DeviceProperties} {symbolTable : SymbolTable}

theorem propertyKeyOf_project (k : KeyOperand) :
    propertyKeyOf (k.toOperand.materialise symbolTable) = .ok (k.project symbolTable) := by
  cases k <;> rfl

theorem propertyKeyOf_boolOrEnum {o : Operand} (h : o.IsBoolOrEnum) :
    propertyKeyOf (o.materialise symbolTable) = .error (.panic unimplementedKeyTypeMessage) := by
  cases o <;> first | rfl | exact h.elim

/-- A condition whose operands are well formed reads exactly their bytes and evaluates the
property lookup. -/
theorem readAndEvaluateValues_bytes (c : Condition) {k : KeyOperand} {v : Operand}
    (hk : k.toOperand.Resolves symbolTable) (hv : v.Resolves symbolTable) (rest : BytecodeIter) :
    readAndEvaluateValues K properties symbolTable c (k.toOperand.bytes K ++ v.bytes K ++ rest) =
      evaluateProperty properties c (k.project symbolTable) (v.materialise symbolTable) >>=
        fun b => .ok (b, rest) := by
  simp only [readAndEvaluateValues, List.append_assoc, readNextValue_bytes K symbolTable hk,
    readNextValue_bytes K symbolTable hv, except_ok_bind, propertyKeyOf_project]
  rfl

theorem readAndEvaluateValues_keyError (c : Condition) {it : BytecodeIter} {e : BytecodeError}
    (he : OperandError K symbolTable it e) :
    readAndEvaluateValues K properties symbolTable c it = .error (.err e) := by
  simp only [readAndEvaluateValues, readNextValue_of_operandError K he, except_error_bind]

theorem readAndEvaluateValues_valueError (c : Condition) {k : KeyOperand}
    (hk : k.toOperand.Resolves symbolTable) {rest : BytecodeIter} {e : BytecodeError}
    (he : OperandError K symbolTable rest e) :
    readAndEvaluateValues K properties symbolTable c (k.toOperand.bytes K ++ rest) =
      .error (.err e) := by
  simp only [readAndEvaluateValues, readNextValue_bytes K symbolTable hk, except_ok_bind,
    propertyKeyOf_project, readNextValue_of_operandError K he, except_error_bind]

theorem readAndEvaluateValues_boolOrEnum (c : Condition) {o : Operand} (ho : o.IsBoolOrEnum)
    (rest : BytecodeIter) :
    readAndEvaluateValues K properties symbolTable c (o.bytes K ++ rest) =
      .error (.panic unimplementedKeyTypeMessage) := by
  have hres : o.Resolves symbolTable := by cases o <;> trivial
  simp only [readAndEvaluateValues, readNextValue_bytes K symbolTable hres, except_ok_bind,
    propertyKeyOf_boolOrEnum ho, except_error_bind]

/-- Everything a condition can do with the bytes after its opcode: fail on its key operand,
panic on a boolean or enum key, fail on its value operand, or read both operands and look the
property up. -/
theorem readAndEvaluateValues_cases (c : Condition) (it : BytecodeIter) :
    (∃ e, OperandError K symbolTable it e ∧
      readAndEvaluateValues K properties symbolTable c it = .error (.err e)) ∨
    (∃ (o : Operand) (rest : BytecodeIter), it = o.bytes K ++ rest ∧ o.IsBoolOrEnum ∧
      readAndEvaluateValues K properties symbolTable c it =
        .error (.panic unimplementedKeyTypeMessage)) ∨
    (∃ (k : KeyOperand) (rest : BytecodeIter) (e : BytecodeError),
      it = k.toOperand.bytes K ++ rest ∧ k.toOperand.Resolves symbolTable ∧
      OperandError K symbolTable rest e ∧
      readAndEvaluateValues K properties symbolTable c it = .error (.err e)) ∨
    (∃ (k : KeyOperand) (v : Operand) (rest : BytecodeIter),
      it = k.toOperand.bytes K ++ v.bytes K ++ rest ∧ k.toOperand.Resolves symbolTable ∧
      v.Resolves symbolTable ∧ readAndEvaluateValues K properties symbolTable c it =
        evaluateProperty properties c (k.project symbolTable) (v.materialise symbolTable) >>=
          fun b => .ok (b, rest)) := by
  rcases readNextValue_cases K symbolTable it with ⟨o, rest, rfl, ho, -⟩ | ⟨e, he, -⟩
  · rcases o.key_or_boolOrEnum with ⟨k, rfl⟩ | hbe
    · rcases readNextValue_cases K symbolTable rest with ⟨v, rest', rfl, hv, -⟩ | ⟨e, he, -⟩
      · exact .inr (.inr (.inr ⟨k, v, rest', (List.append_assoc _ _ _).symm, ho, hv,
          by simpa only [List.append_assoc] using readAndEvaluateValues_bytes K c ho hv rest'⟩))
      · exact .inr (.inr (.inl ⟨k, rest, e, rfl, ho, he,
          readAndEvaluateValues_valueError K c ho he⟩))
    · exact .inr (.inl ⟨o, rest, rfl, hbe, readAndEvaluateValues_boolOrEnum K c hbe rest⟩)
  · exact .inl ⟨e, he, readAndEvaluateValues_keyError K c he⟩

end Condition

end MatchBind

end BindBytecode
