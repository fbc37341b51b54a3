import BindBytecode.Bytes

/-!
# Instruction: the abstract instruction model the V1 encoder serialises

`encode_bind_program_v1.rs` imports `Condition`, `Instruction` and `InstructionInfo` from the
crate's `instruction` module, which is not among the sources.  They are modelled here from the
spec's data model: a condition is `Always`, `Equal(key, value)` or `NotEqual(key, value)`; an
instruction is `Abort(cond)`, `Match(cond)`, `Goto(cond, label)` or `Label(id)`; and an
`InstructionInfo` pairs an instruction with its debug metadata.  Every operand is a `u32`, as the
encoder's `(u32, u32, u32)` tuples require.
-/

set_option autoImplicit false

namespace BindBytecode

/-- Modelled from the spec: `instruction::Condition` (not among the sources).  The two operands of
`Equal` and `NotEqual` are the property key and the comparison value. -/
inductive Condition where
  | always
  | equal (key value : UInt32)
  | notEqual (key value : UInt32)
  deriving DecidableEq, Repr

/-- Modelled from the spec: `instruction::Instruction` (not among the sources). -/
inductive Instruction where
  | abort (condition : Condition)
  | «match» (condition : Condition)
  | goto (condition : Condition) (label : UInt32)
  | label (id : UInt32)
  deriving DecidableEq, Repr

/-- Modelled from the spec: the debug half of `instruction::InstructionInfo`.  The AST location is
an enumeration the sources do not declare; it is carried as the code `ast_location as u32`
produces, which is all the encoder reads of it. -/
structure InstructionDebug where
  line : UInt32
  astLocation : UInt32
  extra : UInt32
  deriving DecidableEq, Repr

/-- Modelled from the spec: `instruction::InstructionInfo`, an instruction with its debug
metadata. -/
structure InstructionInfo where
  instruction : Instruction
  debug : InstructionDebug
  deriving DecidableEq, Repr

end BindBytecode
