import BindBytecode.Bytes

/-!
# MatchBind/Symbol: values, keys, errors and discriminants of the V2 matcher

`match_bind.rs` evaluates V2 bytecode over a handful of types it imports from modules that are not
among the sources: `compiler::Symbol` (the typed values), `bind_library::ValueType` (the type hint
a `Key` carries), `bytecode_common::BytecodeError`, and the two enumerations of
`bind_program_v2_constants`, `RawOp` and `RawValueType`, whose `u8` discriminants the matcher
decodes with `FromPrimitive::from_u8`.  They are modelled here from the spec.

THE DISCRIMINANTS ARE A PARAMETER.  The spec fixes three opcodes (`EqualCondition = 0x01`,
`InequalCondition = 0x02`, `Abort = 0x30`), says the opcode enumeration has further members that
the matcher skips, and names the five value types without their bytes.  So the discriminants are a
structure, `BindProgramV2Constants`, whose fields say only what a Rust enumeration guarantees:
distinct discriminants.  Every result about the matcher holds for every such table.

FAULTS.  A matcher call returns `Ok(b)` or `Err(e)`, or panics.  The three outcomes are
`Except Fault Bool` with `Fault.err e` for a returned error and `Fault.panic msg` for a panic, so
that Rust's `?` is the monad's bind and a panic aborts the rest of the computation.
-/

set_option autoImplicit false

namespace BindBytecode

namespace MatchBind

/-! ## Values and keys -/

/-- Modelled from the spec: `bind_library::ValueType`, the declared-type hint of a key (number,
string, boolean or enum). -/
inductive ValueType where
  | number
  | str
  | bool
  | enum
  deriving DecidableEq, Repr

/-- Modelled from the spec: `compiler::Symbol`, the typed values the matcher compares.  Its
equality is the derived one, as `compiler::Symbol` derives `PartialEq` (the type is not among the
sources): two keys are equal when their names and their type hints both are, so the hint takes
part in every comparison of two keys, although spec section 4.2 compares a key by its name. -/
inductive Symbol where
  | numberValue (n : UInt64)
  | stringValue (s : String)
  | boolValue (b : Bool)
  | key (s : String) (valueType : ValueType)
  | enumValue
  deriving DecidableEq, Repr

/-- `std::mem::discriminant` of a symbol: which variant it is. -/
def Symbol.discriminant : Symbol → Nat
  | .numberValue _ => 0
  | .stringValue _ => 1
  | .boolValue _ => 2
  | .key .. => 3
  | .enumValue => 4

/-- `PropertyKey`. -/
inductive PropertyKey where
  | numberKey (n : UInt64)
  | stringKey (s : String)
  deriving DecidableEq, Repr

/-- `DeviceProperties = HashMap<PropertyKey, Symbol>`, read through `get`. -/
abbrev DeviceProperties := PropertyKey → Option Symbol

/-- The symbol table `HashMap<u32, String>`, read through `get`. -/
abbrev SymbolTable := UInt32 → Option String

/-! ## Errors and faults -/

/-- Modelled from the spec: the `bytecode_common::BytecodeError` variants the matcher returns. -/
inductive BytecodeError where
  | unexpectedEnd
  | invalidOp (byte : UInt8)
  | invalidValueType (byte : UInt8)
  | invalidBoolValue (value : UInt32)
  | mismatchValueTypes
  | missingEntryInSymbolTable (key : UInt32)
  deriving DecidableEq, Repr

/-- How a matcher call can end other than by returning a value. -/
inductive Fault where
  /-- `Err(e)` returned to the caller -/
  | err (e : BytecodeError)
  /-- a `panic!` or `unimplemented!`, with its message -/
  | panic (msg : String)
  deriving DecidableEq, Repr

@[simp] theorem except_ok_bind {ε α β : Type} (a : α) (f : α → Except ε β) :
    (Except.ok a >>= f) = f a := rfl

@[simp] theorem except_error_bind {ε α β : Type} (e : ε) (f : α → Except ε β) :
    (Except.error e >>= f) = Except.error e := rfl

@[simp] theorem except_pure {ε α : Type} (a : α) : (pure a : Except ε α) = .ok a := rfl

/-! ## The discriminants of `bind_program_v2_constants` -/

/-- `RawOp` of the V2 format: the two conditions, the unconditional abort, and the members the
matcher skips, carried by their discriminant. -/
inductive RawOp where
  | equalCondition
  | inequalCondition
  | abort
  | other (discriminant : UInt8)
  deriving DecidableEq, Repr

/-- `RawValueType`. -/
inductive RawValueType where
  | numberValue
  | key
  | stringValue
  | boolValue
  | enumValue
  deriving DecidableEq, Repr

/-- Modelled from the spec: the discriminant table of `bind_program_v2_constants`.  The opcodes the
spec names are fixed; the other opcodes and the value-type bytes are whatever the enumerations
declare, subject only to distinct discriminants. -/
structure BindProgramV2Constants where
  /-- the discriminants of the `RawOp` members other than the three the matcher names -/
  isOtherOp : UInt8 → Bool
  isOtherOp_named : isOtherOp 0x01 = false ∧ isOtherOp 0x02 = false ∧ isOtherOp 0x30 = false
  /-- `value_type as u8` -/
  valueTypeByte : RawValueType → UInt8
  valueTypeByte_injective : Function.Injective valueTypeByte

/-- A discriminant table consistent with the tests of `match_bind.rs` (`0xFF` is not an opcode,
`0x02` is a value type and `0x05` is not): the value types numbered in the order the spec lists
them, and one further opcode, `0x10`.  It instantiates the general results on concrete streams. -/
def sampleConstants : BindProgramV2Constants where
  isOtherOp b := b == 0x10
  isOtherOp_named := by decide
  valueTypeByte
    | .numberValue => 0
    | .key => 1
    | .stringValue => 2
    | .boolValue => 3
    | .enumValue => 4
  valueTypeByte_injective := by
    intro a b h
    cases a <;> cases b <;> first | rfl | cases h

variable (K : BindProgramV2Constants)

/-- `FromPrimitive::from_u8` for `RawOp`. -/
def RawOp.fromU8 (b : UInt8) : Option RawOp :=
  if b = 0x01 then some .equalCondition
  else if b = 0x02 then some .inequalCondition
  else if b = 0x30 then some .abort
  else if K.isOtherOp b then some (.other b)
  else none

/-- The opcode byte of a named opcode, `op as u8`. -/
def RawOp.toU8 : RawOp → UInt8
  | .equalCondition => 0x01
  | .inequalCondition => 0x02
  | .abort => 0x30
  | .other b => b

/-- `FromPrimitive::from_u8` for `RawValueType`: the member whose discriminant is `b`. -/
def RawValueType.fromU8 (b : UInt8) : Option RawValueType :=
  [RawValueType.numberValue, .key, .stringValue, .boolValue, .enumValue].find?
    fun t => K.valueTypeByte t = b

theorem RawOp.fromU8_toU8 {op : RawOp} (h : ∀ b, op = .other b → K.isOtherOp b) :
    RawOp.fromU8 K op.toU8 = some op := by
  obtain ⟨h1, h2, h30⟩ := K.isOtherOp_named
  cases op with
  | other b =>
    have hb := h b rfl
    have : b ≠ 0x01 ∧ b ≠ 0x02 ∧ b ≠ 0x30 :=
      ⟨fun e => by simp [e, h1] at hb, fun e => by simp [e, h2] at hb,
        fun e => by simp [e, h30] at hb⟩
    simp [fromU8, toU8, this, hb]
  | _ => rfl

/-- What `from_u8` can return for an opcode byte. -/
theorem RawOp.fromU8_eq_some {b : UInt8} {op : RawOp} (h : RawOp.fromU8 K b = some op) :
    op.toU8 = b ∧ ∀ d, op = .other d → K.isOtherOp d := by
  simp only [fromU8] at h
  split_ifs at h with h1 h2 h30 hother <;> cases h
  · exact ⟨h1.symm, fun _ e => by cases e⟩
  · exact ⟨h2.symm, fun _ e => by cases e⟩
  · exact ⟨h30.symm, fun _ e => by cases e⟩
  · exact ⟨rfl, fun _ e => by cases e; exact hother⟩

theorem RawValueType.fromU8_valueTypeByte (t : RawValueType) :
    RawValueType.fromU8 K (K.valueTypeByte t) = some t := by
  have hne : ∀ t', t' ≠ t → K.valueTypeByte t' ≠ K.valueTypeByte t :=
    fun t' h e => h (K.valueTypeByte_injective e)
  cases t <;> simp [fromU8, List.find?, hne]

theorem RawValueType.valueTypeByte_of_fromU8 {b : UInt8} {t : RawValueType}
    (h : RawValueType.fromU8 K b = some t) : K.valueTypeByte t = b := by
  simpa using List.find?_some h

end MatchBind

end BindBytecode
