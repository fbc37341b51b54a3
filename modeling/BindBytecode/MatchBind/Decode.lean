import BindBytecode.MatchBind.Symbol

/-!
# MatchBind/Decode: reading one operand off the instruction stream

`read_next_value` reads a value-type byte, checks it against `RawValueType`, reads a
little-endian `u32`, and turns the pair into a `Symbol`, resolving string and key indices through
the symbol table.  The byte readers `next_u8`/`next_u32` belong to `bytecode_common`, which is not
among the sources; they are modelled from the spec (a truncated stream is `UnexpectedEnd`, values
are little-endian).

Every reader is a step `BytecodeIter → Except Fault (α × BytecodeIter)`: the iterator the matcher
holds is the state, threaded explicitly.

THE READER, ONCE.  The tests build operands with `append_encoded_value`; an `Operand` is the
abstract descriptor such a call writes (a number, a string or key index, a boolean, an enum).
Two computing lemmas say what the reader returns on an operand's bytes (`readNextValue_bytes`,
the symbol spec section 4.2 materialises) and on a stream that starts with one of the section's
decode errors (`readNextValue_of_operandError`, the error `OperandError` names).
`readNextValue_cases` says these are all it can do: every stream starts with an operand or with
such an error, so the reader never panics.  Later proofs use only these three lemmas.
-/

set_option autoImplicit false

namespace BindBytecode

namespace MatchBind

/-- `BytecodeIter`: the instruction bytes not yet consumed. -/
abbrev BytecodeIter := List UInt8

/-- A reader of the matcher: it consumes a prefix of the iterator and hands back the rest. -/
abbrev Step (α : Type) := BytecodeIter → Except Fault (α × BytecodeIter)

/-- Modelled from the spec: `bytecode_common::next_u8`. -/
def nextU8 : Step UInt8
  | [] => .error (.err .unexpectedEnd)
  | b :: rest => .ok (b, rest)

/-- Modelled from the spec: `bytecode_common::next_u32`, four bytes little-endian. -/
def nextU32 : Step UInt32 := fun iter => do
  let (b0, iter) ← nextU8 iter
  let (b1, iter) ← nextU8 iter
  let (b2, iter) ← nextU8 iter
  let (b3, iter) ← nextU8 iter
  pure (fromLeBytes b0 b1 b2 b3, iter)

/-- `DeviceMatcher::lookup_symbol_table`. -/
def lookupSymbolTable (symbolTable : SymbolTable) (key : UInt32) : Except Fault String :=
  match symbolTable key with
  | some val => .ok val
  | none => .error (.err (.missingEntryInSymbolTable key))

variable (K : BindProgramV2Constants)

/-- `DeviceMatcher::read_next_value`. -/
def readNextValue (symbolTable : SymbolTable) : Step Symbol := fun iter => do
  let (valueType, iter) ← nextU8 iter
  let some valueType := RawValueType.fromU8 K valueType
    | .error (.err (.invalidValueType valueType))
  let (value, iter) ← nextU32 iter
  match valueType with
  | .numberValue => pure (.numberValue value.toUInt64, iter)
  | .key => pure (.key (← lookupSymbolTable symbolTable value) .str, iter)
  | .stringValue => pure (.stringValue (← lookupSymbolTable symbolTable value), iter)
  | .boolValue =>
    if value = 0x0 then pure (.boolValue false, iter)
    else if value = 0x1 then pure (.boolValue true, iter)
    else .error (.err (.invalidBoolValue value))
  | .enumValue => pure (.enumValue, iter)

/-! ## Encoded operands -/

/-- The test module's `EncodedValue`. -/
structure EncodedValue where
  valueType : RawValueType
  value : UInt32
  deriving DecidableEq, Repr

/-- The test module's `append_encoded_value`: the type byte, then the value little-endian. -/
def appendEncodedValue (bytecode : List UInt8) (encodedVal : EncodedValue) : List UInt8 :=
  bytecode ++ K.valueTypeByte encodedVal.valueType :: toLeBytes encodedVal.value

/-- An operand descriptor: what one `append_encoded_value` call writes. -/
inductive Operand where
  | number (n : UInt32)
  | stringValue (index : UInt32)
  | key (index : UInt32)
  | bool (b : Bool)
  | enum (raw : UInt32)
  deriving DecidableEq, Repr

/-- The `EncodedValue` an operand is written from; a boolean is `0` or `1`. -/
def Operand.encodedValue : Operand → EncodedValue
  | .number n => ⟨.numberValue, n⟩
  | .stringValue i => ⟨.stringValue, i⟩
  | .key i => ⟨.key, i⟩
  | .bool b => ⟨.boolValue, if b then 1 else 0⟩
  | .enum raw => ⟨.enumValue, raw⟩

/-- The bytes of an operand. -/
def Operand.bytes (o : Operand) : List UInt8 := appendEncodedValue K [] o.encodedValue

/-- The symbol-table indices an operand references are present. -/
def Operand.Resolves (symbolTable : SymbolTable) : Operand → Prop
  | .stringValue i | .key i => (symbolTable i).isSome
  | _ => True

instance (symbolTable : SymbolTable) : (o : Operand) → Decidable (o.Resolves symbolTable)
  | .number _ | .bool _ | .enum _ => inferInstanceAs (Decidable True)
  | .stringValue i | .key i => inferInstanceAs (Decidable ((symbolTable i).isSome = true))

/-- The value spec section 4.2 materialises from an operand whose indices resolve. -/
def Operand.materialise (symbolTable : SymbolTable) : Operand → Symbol
  | .number n => .numberValue n.toUInt64
  | .stringValue i => .stringValue ((symbolTable i).getD "")
  | .key i => .key ((symbolTable i).getD "") .str
  | .bool b => .boolValue b
  | .enum _ => .enumValue

/-- An operand whose value `read_and_evaluate_values` does not project to a property key. -/
def Operand.IsBoolOrEnum : Operand → Prop
  | .bool _ | .enum _ => True
  | _ => False

/-- A key operand: a `NumberValue`, `StringValue` or `Key` descriptor. -/
inductive KeyOperand where
  | number (n : UInt32)
  | stringValue (index : UInt32)
  | key (index : UInt32)
  deriving DecidableEq, Repr

/-- The descriptor a key operand is. -/
def KeyOperand.toOperand : KeyOperand → Operand
  | .number n => .number n
  | .stringValue i => .stringValue i
  | .key i => .key i

/-- The projected key of spec section 4.2: a number is a number key, a string or key index is the
string key the symbol table holds for it. -/
def KeyOperand.project (symbolTable : SymbolTable) : KeyOperand → PropertyKey
  | .number n => .numberKey n.toUInt64
  | .stringValue i | .key i => .stringKey ((symbolTable i).getD "")

theorem length_bytes (o : Operand) : (o.bytes K).length = 5 := rfl

/-- An operand is determined by its value type and its value word. -/
theorem Operand.encodedValue_injective : Function.Injective Operand.encodedValue := by
  intro o o' h
  cases o <;> cases o' <;> simp only [Operand.encodedValue, EncodedValue.mk.injEq,
    reduceCtorEq, false_and, true_and] at h
  case bool.bool b b' => cases b <;> cases b' <;> first | rfl | cases h
  all_goals rw [h]

/-- Distinct operands have distinct bytes, whatever the discriminant table. -/
theorem Operand.bytes_injective : Function.Injective (Operand.bytes K) := by
  intro o o' h
  simp only [Operand.bytes, appendEncodedValue, List.nil_append, List.cons.injEq] at h
  obtain ⟨ht, hw⟩ := h
  apply Operand.encodedValue_injective
  generalize o.encodedValue = ev at ht hw ⊢
  generalize o'.encodedValue = ev' at ht hw ⊢
  cases ev
  cases ev'
  cases K.valueTypeByte_injective ht
  cases toLeBytes_injective hw
  rfl

theorem KeyOperand.toOperand_injective : Function.Injective KeyOperand.toOperand := by
  intro k k' h
  cases k <;> cases k' <;> cases h <;> rfl

/-- An operand is a key operand, or a boolean or an enum. -/
theorem Operand.key_or_boolOrEnum (o : Operand) :
    (∃ k : KeyOperand, k.toOperand = o) ∨ o.IsBoolOrEnum := by
  cases o with
  | number n => exact .inl ⟨.number n, rfl⟩
  | stringValue i => exact .inl ⟨.stringValue i, rfl⟩
  | key i => exact .inl ⟨.key i, rfl⟩
  | bool _ | enum _ => exact .inr trivial

section Extends

variable {symbolTable symbolTable' : SymbolTable}

/-- An operand that resolves in a symbol table resolves in every table that keeps its entries. -/
theorem Operand.resolves_of_extends
    (hext : ∀ i s, symbolTable i = some s → symbolTable' i = some s) {o : Operand}
    (h : o.Resolves symbolTable) : o.Resolves symbolTable' := by
  cases o with
  | stringValue i | key i =>
    obtain ⟨s, hs⟩ := Option.isSome_iff_exists.1 h
    exact Option.isSome_iff_exists.2 ⟨s, hext i s hs⟩
  | number _ | bool _ | enum _ => trivial

/-- An operand that resolves materialises to the same value in every table that keeps the
entries. -/
theorem Operand.materialise_of_extends
    (hext : ∀ i s, symbolTable i = some s → symbolTable' i = some s) {o : Operand}
    (h : o.Resolves symbolTable) : o.materialise symbolTable' = o.materialise symbolTable := by
  cases o with
  | stringValue i | key i =>
    obtain ⟨s, hs⟩ := Option.isSome_iff_exists.1 h
    simp only [Operand.materialise, hs, hext i s hs]
  | number _ | bool _ | enum _ => rfl

/-- A key operand that resolves projects to the same property key in every table that keeps the
entries. -/
theorem KeyOperand.project_of_extends
    (hext : ∀ i s, symbolTable i = some s → symbolTable' i = some s) {k : KeyOperand}
    (h : k.toOperand.Resolves symbolTable) : k.project symbolTable' = k.project symbolTable := by
  cases k with
  | stringValue i | key i =>
    obtain ⟨s, hs⟩ := Option.isSome_iff_exists.1 h
    simp only [KeyOperand.project, hs, hext i s hs]
  | number _ => rfl

end Extends

/-! ## The readers -/

theorem except_bind_eq_ok {ε α β : Type} {x : Except ε α} {f : α → Except ε β} {b : β}
    (h : (x >>= f) = .ok b) : ∃ a, x = .ok a ∧ f a = .ok b := by
  cases x with
  | error e => cases h
  | ok a => exact ⟨a, rfl, h⟩

theorem nextU32_toLeBytes (w : UInt32) (rest : BytecodeIter) :
    nextU32 (toLeBytes w ++ rest) = .ok (w, rest) := by
  simp [nextU32, nextU8, toLeBytes, fromLeBytes_toLeBytes]

theorem nextU32_ok {it it' : BytecodeIter} {w : UInt32} (h : nextU32 it = .ok (w, it')) :
    it = toLeBytes w ++ it' := by
  match it, h with
  | b0 :: b1 :: b2 :: b3 :: rest, h =>
    simp only [nextU32, nextU8, except_ok_bind, except_pure, Except.ok.injEq, Prod.mk.injEq] at h
    obtain ⟨rfl, rfl⟩ := h
    simp [toLeBytes_fromLeBytes]

/-- The reader consumes exactly an operand's bytes and returns what spec section 4.2 says. -/
theorem readNextValue_bytes (symbolTable : SymbolTable) {o : Operand}
    (h : o.Resolves symbolTable) (rest : BytecodeIter) :
    readNextValue K symbolTable (o.bytes K ++ rest) = .ok (o.materialise symbolTable, rest) := by
  have hhead : ∀ ev : EncodedValue, appendEncodedValue K [] ev ++ rest =
      K.valueTypeByte ev.valueType :: (toLeBytes ev.value ++ rest) := fun _ => rfl
  cases o with
  | stringValue i | key i =>
    obtain ⟨s, hs⟩ := Option.isSome_iff_exists.mp h
    simp only [readNextValue, Operand.bytes, hhead, Operand.encodedValue, nextU8,
      RawValueType.fromU8_valueTypeByte, nextU32_toLeBytes, lookupSymbolTable, hs,
      Operand.materialise, except_ok_bind, except_pure, Option.getD_some]
  | bool b =>
    cases b <;> simp only [readNextValue, Operand.bytes, hhead, Operand.encodedValue,
      nextU8, RawValueType.fromU8_valueTypeByte, nextU32_toLeBytes, Operand.materialise,
      except_ok_bind, except_pure] <;> rfl
  | _ =>
    simp only [readNextValue, Operand.bytes, hhead, Operand.encodedValue, nextU8,
      RawValueType.fromU8_valueTypeByte, nextU32_toLeBytes, Operand.materialise, except_ok_bind,
      except_pure]

/-! ## The reader's errors -/

/-- Spec section 4.2's decode errors for the operand at the front of a stream, in the order the
reader meets them: the type byte is missing, or it names no value type (checked before the value
is read), or fewer than four bytes follow it, or the value is a string or key index the table
lacks, or a boolean other than 0 or 1. -/
inductive OperandError (symbolTable : SymbolTable) : BytecodeIter → BytecodeError → Prop where
  | emptyStream : OperandError symbolTable [] .unexpectedEnd
  | invalidValueType (b : UInt8) (rest : BytecodeIter) (hb : RawValueType.fromU8 K b = none) :
    OperandError symbolTable (b :: rest) (.invalidValueType b)
  | truncatedValue (t : RawValueType) (rest : BytecodeIter) (hrest : rest.length < 4) :
    OperandError symbolTable (K.valueTypeByte t :: rest) .unexpectedEnd
  | missingEntry (t : RawValueType) (ht : t = .key ∨ t = .stringValue) (w : UInt32)
      (rest : BytecodeIter) (hw : symbolTable w = none) :
    OperandError symbolTable (K.valueTypeByte t :: (toLeBytes w ++ rest))
      (.missingEntryInSymbolTable w)
  | invalidBool (w : UInt32) (rest : BytecodeIter) (hw : w ≠ 0 ∧ w ≠ 1) :
    OperandError symbolTable (K.valueTypeByte .boolValue :: (toLeBytes w ++ rest))
      (.invalidBoolValue w)

theorem nextU32_error {it : BytecodeIter} {f : Fault} (h : nextU32 it = .error f) :
    f = .err .unexpectedEnd ∧ it.length < 4 := by
  match it, h with
  | [], h | [_], h | [_, _], h | [_, _, _], h => cases h; exact ⟨rfl, by simp⟩
  | _ :: _ :: _ :: _ :: _, h => cases h

theorem nextU32_short {it : BytecodeIter} (h : it.length < 4) :
    nextU32 it = .error (.err .unexpectedEnd) := by
  match it, h with
  | [], _ | [_], _ | [_, _], _ | [_, _, _], _ => rfl
  | _ :: _ :: _ :: _ :: _, h => simp only [List.length_cons] at h; omega

/-- Each error of spec section 4.2 is the one the reader returns. -/
theorem readNextValue_of_operandError {symbolTable : SymbolTable} {it : BytecodeIter}
    {e : BytecodeError} (h : OperandError K symbolTable it e) :
    readNextValue K symbolTable it = .error (.err e) := by
  cases h with
  | emptyStream => rfl
  | invalidValueType b rest hb => simp only [readNextValue, nextU8, except_ok_bind, hb]
  | truncatedValue t rest hrest =>
    simp only [readNextValue, nextU8, except_ok_bind, RawValueType.fromU8_valueTypeByte,
      nextU32_short hrest, except_error_bind]
  | missingEntry t ht w rest hw =>
    rcases ht with rfl | rfl <;>
    simp only [readNextValue, nextU8, except_ok_bind, RawValueType.fromU8_valueTypeByte,
      nextU32_toLeBytes, lookupSymbolTable, hw, except_error_bind]
  | invalidBool w rest hw =>
    simp only [readNextValue, nextU8, except_ok_bind, RawValueType.fromU8_valueTypeByte,
      nextU32_toLeBytes, hw.1, hw.2, if_false]

/-- Everything the reader can do: consume exactly the bytes of an operand whose indices resolve
and return its value, or fail with one of spec section 4.2's errors. -/
theorem readNextValue_cases (symbolTable : SymbolTable) (it : BytecodeIter) :
    (∃ (o : Operand) (it' : BytecodeIter), it = o.bytes K ++ it' ∧ o.Resolves symbolTable ∧
      readNextValue K symbolTable it = .ok (o.materialise symbolTable, it')) ∨
    ∃ e, OperandError K symbolTable it e ∧ readNextValue K symbolTable it = .error (.err e) := by
  -- each leaf names the operand or the error; the two computing lemmas give the result
  have hok : ∀ (o : Operand) (it' : BytecodeIter), o.Resolves symbolTable →
      ∃ (o' : Operand) (it'' : BytecodeIter), o.bytes K ++ it' = o'.bytes K ++ it'' ∧
        o'.Resolves symbolTable ∧
        readNextValue K symbolTable (o.bytes K ++ it') = .ok (o'.materialise symbolTable, it'') :=
    fun o it' h => ⟨o, it', rfl, h, readNextValue_bytes K symbolTable h it'⟩
  have herr : ∀ {it e}, OperandError K symbolTable it e →
      ∃ e, OperandError K symbolTable it e ∧ readNextValue K symbolTable it = .error (.err e) :=
    fun h => ⟨_, h, readNextValue_of_operandError K h⟩
  match it with
  | [] => exact .inr (herr .emptyStream)
  | t :: it =>
    cases hvt : RawValueType.fromU8 K t with
    | none => exact .inr (herr (.invalidValueType t it hvt))
    | some vt =>
      rw [← RawValueType.valueTypeByte_of_fromU8 K hvt]
      rcases hw : nextU32 it with f | ⟨w, it'⟩
      · exact .inr (herr (.truncatedValue vt it (nextU32_error hw).2))
      rw [nextU32_ok hw]
      cases vt with
      | numberValue => exact .inl (hok (.number w) it' trivial)
      | enumValue => exact .inl (hok (.enum w) it' trivial)
      | key =>
        cases hs : symbolTable w with
        | none => exact .inr (herr (.missingEntry .key (.inl rfl) w it' hs))
        | some _ => exact .inl (hok (.key w) it' (by simp [Operand.Resolves, hs]))
      | stringValue =>
        cases hs : symbolTable w with
        | none => exact .inr (herr (.missingEntry .stringValue (.inr rfl) w it' hs))
        | some _ => exact .inl (hok (.stringValue w) it' (by simp [Operand.Resolves, hs]))
      | boolValue =>
        by_cases h0 : w = 0
        · subst h0; exact .inl (hok (.bool false) it' trivial)
        by_cases h1 : w = 1
        · subst h1; exact .inl (hok (.bool true) it' trivial)
        exact .inr (herr (.invalidBool w it' ⟨h0, h1⟩))

/-- Whatever the reader accepts is the encoding of an operand whose indices resolve, and it
returns that operand's value. -/
theorem readNextValue_ok {symbolTable : SymbolTable} {it it' : BytecodeIter} {s : Symbol}
    (h : readNextValue K symbolTable it = .ok (s, it')) :
    ∃ o : Operand, it = o.bytes K ++ it' ∧ o.Resolves symbolTable ∧
      o.materialise symbolTable = s := by
  rcases readNextValue_cases K symbolTable it with ⟨o, it'', rfl, ho, hr⟩ | ⟨e, -, hr⟩
  · obtain ⟨rfl, rfl⟩ := Prod.mk.inj (Except.ok.inj (hr.symm.trans h))
    exact ⟨o, rfl, ho, rfl⟩
  · cases hr.symm.trans h

end MatchBind

end BindBytecode
