import BindBytecode.Instruction
import BindBytecode.EncodeV1.Bitfield

/-!
# EncodeV1/Encode: packing one instruction into a V1 record

`From<Instruction> for RawInstruction<[u32; 3]>` computes a tuple `(c, o, a, b, v)` from the
instruction and writes it into a zeroed record with five setters; `encode_instruction` then writes
the three debug fields on top.  Both are modelled here as the code has them, the first cut at the
tuple (`instructionFields`) so that the packing (`packFields`) is reasoned about once.

THE LAYOUT.  The spec's section 4.1 fixes, for each instruction, a condition code, an operation
code, an operand A, a key B and a value V (`Instruction.guard`, `Condition.code`,
`Instruction.opCode`, `Instruction.operandA`, `Condition.key`, `Condition.value`, written from
the spec).  `fromInstruction_layout` says where the code puts them: word 0 holds
`c << 28 | o << 24 | (a mod 2^8) << 16 | (b mod 2^16)`, word 1 holds `v`, word 2 is zero.  The
8- and 16-bit fields truncate, so the record determines the instruction exactly when its label
and key fit (`decode_fromInstruction`); `fromInstruction_goto_collision` shows two labels that
collide.

THE DEBUG WORD.  `encodeInstruction_layout` shows that the debug setters leave words 0 and 1 alone
and write word 2 as `line << 24 | ast_location << 16 | extra`, following the `bitfield!`
declaration `line: 95, 88; ast_location: 87, 80; extra: 79, 64`.  Conversely, packing a record's
own eight getters back through the five setters of `From` and the three debug setters rebuilds
the record exactly (`packFields_setDebug_getters`): the setter chain reaches every record.
-/

set_option autoImplicit false

namespace BindBytecode

/-! ## The layout of spec section 4.1 -/

/-- The layout's condition code: `Always = 0`, `Equal = 1`, `NotEqual = 2`. -/
def Condition.code : Condition → UInt32
  | .always => 0
  | .equal .. => 1
  | .notEqual .. => 2

/-- Operand B: the condition's property key, 0 for `Always`. -/
def Condition.key : Condition → UInt32
  | .always => 0
  | .equal b _ | .notEqual b _ => b

/-- Operand Value: the condition's comparison value, 0 for `Always`. -/
def Condition.value : Condition → UInt32
  | .always => 0
  | .equal _ v | .notEqual _ v => v

/-- The condition an instruction is guarded by; a label is unconditional. -/
def Instruction.guard : Instruction → Condition
  | .abort c | .match c | .goto c _ => c
  | .label _ => .always

/-- The layout's operation code: `Abort = 0`, `Match = 1`, `Goto = 2`, `Label = 5`. -/
def Instruction.opCode : Instruction → UInt32
  | .abort _ => 0
  | .match _ => 1
  | .goto .. => 2
  | .label _ => 5

/-- Operand A: the jump target of a `Goto`, the id of a `Label`, 0 otherwise. -/
def Instruction.operandA : Instruction → UInt32
  | .goto _ a | .label a => a
  | _ => 0

/-- The instruction's operand A fits the 8-bit field and its key the 16-bit field. -/
def Instruction.FitsV1 (i : Instruction) : Prop :=
  i.operandA.toNat < 2 ^ 8 ∧ i.guard.key.toNat < 2 ^ 16

instance (i : Instruction) : Decidable i.FitsV1 := inferInstanceAs (Decidable (_ ∧ _))

namespace EncodeBindProgramV1

/-! ## The legacy discriminants -/

/-- `RawOp` of the V1 format; "These should match the values in <ddk/binding.h>". -/
inductive RawOp where
  | abort
  | «match»
  | goto
  | label
  deriving DecidableEq, Repr

/-- `RawOp as u32`: `Abort = 0, Match, Goto, Label = 5`. -/
def RawOp.toU32 : RawOp → UInt32
  | .abort => 0
  | .match => 1
  | .goto => 2
  | .label => 5

/-- `RawCondition` of the V1 format. -/
inductive RawCondition where
  | always
  | equal
  | notEqual
  deriving DecidableEq, Repr

/-- `RawCondition as u32`: `Always = 0, Equal, NotEqual`. -/
def RawCondition.toU32 : RawCondition → UInt32
  | .always => 0
  | .equal => 1
  | .notEqual => 2

/-! ## The encoder -/

/-- `encode_condition`: the condition code, the key and the value. -/
def encodeCondition : Condition → UInt32 × UInt32 × UInt32
  | .always => (RawCondition.always.toU32, 0, 0)
  | .equal b v => (RawCondition.equal.toU32, b, v)
  | .notEqual b v => (RawCondition.notEqual.toU32, b, v)

/-- The tuple `(c, o, a, b, v)` that `From<Instruction>` computes by its `match`. -/
def instructionFields : Instruction → UInt32 × UInt32 × UInt32 × UInt32 × UInt32
  | .abort condition =>
    let (c, b, v) := encodeCondition condition
    (c, RawOp.abort.toU32, 0, b, v)
  | .match condition =>
    let (c, b, v) := encodeCondition condition
    (c, RawOp.match.toU32, 0, b, v)
  | .goto condition a =>
    let (c, b, v) := encodeCondition condition
    (c, RawOp.goto.toU32, a, b, v)
  | .label a => (RawCondition.always.toU32, RawOp.label.toU32, a, 0, 0)

namespace RawInstruction

/-- The setter sequence of `From<Instruction>`, applied to `RawInstruction([0, 0, 0])`. -/
def packFields (c o a b v : UInt32) : RawInstruction :=
  (((((⟨0, 0, 0⟩ : RawInstruction).setCondition c).setOperation o).setParameterA a).setParameterB
    b).setValue v

/-- `RawInstruction::from(instruction)`. -/
def fromInstruction (instruction : Instruction) : RawInstruction :=
  let (c, o, a, b, v) := instructionFields instruction
  packFields c o a b v

end RawInstruction

/-- `encode_instruction`: the instruction's record with the debug fields written on top. -/
def encodeInstruction (info : InstructionInfo) : RawInstruction :=
  (((RawInstruction.fromInstruction info.instruction).setLine info.debug.line).setAstLocation
    info.debug.astLocation).setExtra info.debug.extra

end EncodeBindProgramV1

end BindBytecode

namespace BindBytecode

namespace EncodeBindProgramV1

/-! ## What the encoder writes -/

/-- The code's tuple is the layout's: the `RawCondition`/`RawOp` discriminants are the spec's
codes, and `encode_condition` projects the key and the value. -/
theorem instructionFields_eq (i : Instruction) :
    instructionFields i = (i.guard.code, i.opCode, i.operandA, i.guard.key, i.guard.value) := by
  cases i with
  | abort c | «match» c | goto c => cases c <;> rfl
  | label => rfl

namespace RawInstruction

/-- Every field of a packed record: the five written ones truncated to their widths, the three
debug ones zero. -/
theorem packFields_fields (c o a b v : UInt32) :
    (packFields c o a b v).condition = UInt32.ofNat (c.toNat % 2 ^ 4) ∧
      (packFields c o a b v).operation = UInt32.ofNat (o.toNat % 2 ^ 4) ∧
      (packFields c o a b v).parameterA = UInt32.ofNat (a.toNat % 2 ^ 8) ∧
      (packFields c o a b v).parameterB = UInt32.ofNat (b.toNat % 2 ^ 16) ∧
      (packFields c o a b v).value = v ∧
      (packFields c o a b v).line = 0 ∧ (packFields c o a b v).astLocation = 0 ∧
      (packFields c o a b v).extra = 0 := by
  refine ⟨?_, ?_, ?_, ?_, ?_, ?_, ?_, ?_⟩ <;>
  simp (disch := omega) only [packFields, condition, operation, parameterA, parameterB, value,
    line, astLocation, extra, setCondition, setOperation, setParameterA, setParameterB, setValue,
    bitRange_setBitRange_self, bitRange_setBitRange_of_disjoint, bitRange_zero]
  exact uint32_ofNat_mod_of_lt (UInt32.toNat_lt v)

theorem fromInstruction_eq (i : Instruction) :
    fromInstruction i = packFields i.guard.code i.opCode i.operandA i.guard.key i.guard.value := by
  rw [fromInstruction, instructionFields_eq]

/-- Reading a condition back from its code, its key and its value. -/
def decodeCondition (c b v : UInt32) : Option Condition :=
  match c.toNat with
  | 0 => some .always
  | 1 => some (.equal b v)
  | 2 => some (.notEqual b v)
  | _ => none

/-- Reading an instruction back through the getters `condition()`, `operation()`,
`parameter_a()`, `parameter_b()` and `value()`. -/
def decode (r : RawInstruction) : Option Instruction :=
  let guard := decodeCondition r.condition r.parameterB r.value
  match r.operation.toNat with
  | 0 => guard.map .abort
  | 1 => guard.map .match
  | 2 => guard.map (.goto · r.parameterA)
  | 5 => some (.label r.parameterA)
  | _ => none

end RawInstruction

end EncodeBindProgramV1

theorem Condition.code_toNat_lt (c : Condition) : c.code.toNat < 2 ^ 4 := by
  cases c <;> simp only [Condition.code] <;> decide

theorem Instruction.opCode_toNat_lt (i : Instruction) : i.opCode.toNat < 2 ^ 4 := by
  cases i <;> simp only [Instruction.opCode] <;> decide

namespace EncodeBindProgramV1

open RawInstruction in
/-- The words of an encoded instruction, on the layout's fields. -/
theorem fromInstruction_words (i : Instruction) :
    (fromInstruction i).word0.toNat = i.guard.code.toNat * 2 ^ 28 + i.opCode.toNat * 2 ^ 24 +
        i.operandA.toNat % 2 ^ 8 * 2 ^ 16 + i.guard.key.toNat % 2 ^ 16 ∧
      (fromInstruction i).word1 = i.guard.value ∧ (fromInstruction i).word2 = 0 := by
  obtain ⟨hc, ho, ha, hb, hv, hl, hast, he⟩ :=
    packFields_fields i.guard.code i.opCode i.operandA i.guard.key i.guard.value
  have hc4 := i.guard.code_toNat_lt
  have ho4 := i.opCode_toNat_lt
  refine ⟨?_, ?_, ?_⟩
  · rw [word0_toNat, fromInstruction_eq, hc, ho, ha, hb]
    simp only [uint32_toNat_ofNat]
    omega
  · exact UInt32.ext (by rw [word1_toNat, fromInstruction_eq, hv])
  · apply UInt32.ext
    rw [word2_toNat, fromInstruction_eq, hl, hast, he]
    rfl

open RawInstruction in
/-- The getters give back every instruction whose operands fit their fields. -/
theorem decode_fromInstruction {i : Instruction} (h : i.FitsV1) :
    (fromInstruction i).decode = some i := by
  obtain ⟨hc, ho, ha, hb, hv, -⟩ :=
    packFields_fields i.guard.code i.opCode i.operandA i.guard.key i.guard.value
  obtain ⟨ha8, hb16⟩ := h
  rw [decode, fromInstruction_eq, hc, ho, ha, hb, hv, uint32_ofNat_mod_of_lt ha8,
    uint32_ofNat_mod_of_lt hb16, uint32_ofNat_mod_of_lt i.guard.code_toNat_lt,
    uint32_ofNat_mod_of_lt i.opCode_toNat_lt]
  cases i with
  | abort c | «match» c | goto c => cases c <;> rfl
  | label => rfl

open RawInstruction in
/-- `RawInstruction::from(i)` puts the layout's fields where section 4.1 says, truncating the
operand A to 8 bits and the key to 16: word 0 is `c << 28 | o << 24 | a << 16 | b` on the
truncated operands, word 1 is the value, word 2 is zero.  The instruction is recovered from the
getters exactly when its operands fit, so distinct fitting instructions never share a record. -/
theorem fromInstruction_layout (i : Instruction) :
    ((fromInstruction i).word0.toNat = i.guard.code.toNat * 2 ^ 28 + i.opCode.toNat * 2 ^ 24 +
        i.operandA.toNat % 2 ^ 8 * 2 ^ 16 + i.guard.key.toNat % 2 ^ 16 ∧
      (fromInstruction i).word1 = i.guard.value ∧ (fromInstruction i).word2 = 0) ∧
    (i.FitsV1 → (fromInstruction i).decode = some i) ∧
    (∀ j : Instruction, i.FitsV1 → j.FitsV1 → fromInstruction i = fromInstruction j → i = j) :=
  ⟨fromInstruction_words i, decode_fromInstruction, fun j hi hj heq => Option.some.inj <| calc
    some i = (fromInstruction i).decode := (decode_fromInstruction hi).symm
    _ = (fromInstruction j).decode := by rw [heq]
    _ = some j := decode_fromInstruction hj⟩

/-- The 8-bit operand A truncates: `Goto(Always, 256)` and `Goto(Always, 0)` encode to the same
record, so the V1 record does not carry every instruction without loss. -/
theorem fromInstruction_goto_collision :
    RawInstruction.fromInstruction (.goto .always 256) =
        RawInstruction.fromInstruction (.goto .always 0) ∧
      Instruction.goto .always 256 ≠ .goto .always 0 := by
  decide

/-! ## The debug word -/

namespace RawInstruction

/-- The three debug setters of `encode_instruction` write bits 64..95 and nothing else. -/
theorem setDebug_fields (r : RawInstruction) (l a e : UInt32) :
    ((r.setLine l).setAstLocation a |>.setExtra e).condition = r.condition ∧
      ((r.setLine l).setAstLocation a |>.setExtra e).operation = r.operation ∧
      ((r.setLine l).setAstLocation a |>.setExtra e).parameterA = r.parameterA ∧
      ((r.setLine l).setAstLocation a |>.setExtra e).parameterB = r.parameterB ∧
      ((r.setLine l).setAstLocation a |>.setExtra e).value = r.value ∧
      ((r.setLine l).setAstLocation a |>.setExtra e).line = UInt32.ofNat (l.toNat % 2 ^ 8) ∧
      ((r.setLine l).setAstLocation a |>.setExtra e).astLocation =
        UInt32.ofNat (a.toNat % 2 ^ 8) ∧
      ((r.setLine l).setAstLocation a |>.setExtra e).extra = UInt32.ofNat (e.toNat % 2 ^ 16) := by
  refine ⟨?_, ?_, ?_, ?_, ?_, ?_, ?_, ?_⟩ <;>
  simp (disch := omega) only [condition, operation, parameterA, parameterB, value, line,
    astLocation, extra, setLine, setAstLocation, setExtra, bitRange_setBitRange_self,
    bitRange_setBitRange_of_disjoint]

/-- The declared fields tile the 96 bits, so every record is what the encoder's setters write
from the record's own fields: the five setters of `From<Instruction>` on a zeroed record, then
the three debug setters of `encode_instruction`.  With `packFields_fields`, a record and its eight
fields, each below its width, determine each other. -/
theorem packFields_setDebug_getters (r : RawInstruction) :
    (((packFields r.condition r.operation r.parameterA r.parameterB r.value).setLine
      r.line).setAstLocation r.astLocation).setExtra r.extra = r := by
  obtain ⟨hc, ho, ha, hb, hv, -⟩ :=
    packFields_fields r.condition r.operation r.parameterA r.parameterB r.value
  obtain ⟨hc', ho', ha', hb', hv', hl, hast, he⟩ := setDebug_fields
    (packFields r.condition r.operation r.parameterA r.parameterB r.value) r.line r.astLocation
    r.extra
  apply ext_get
  intro f
  cases f
  case condition => exact hc'.trans (hc.trans (r.ofNat_get_mod .condition))
  case operation => exact ho'.trans (ho.trans (r.ofNat_get_mod .operation))
  case parameterA => exact ha'.trans (ha.trans (r.ofNat_get_mod .parameterA))
  case parameterB => exact hb'.trans (hb.trans (r.ofNat_get_mod .parameterB))
  case value => exact hv'.trans hv
  case line => exact hl.trans (r.ofNat_get_mod .line)
  case astLocation => exact hast.trans (r.ofNat_get_mod .astLocation)
  case extra => exact he.trans (r.ofNat_get_mod .extra)

end RawInstruction

open RawInstruction in
/-- `encode_instruction` keeps words 0 and 1 of `RawInstruction::from` and fills word 2 as the
`bitfield!` declaration places the debug fields: `extra` in bits 64..79, `ast_location` in
80..87, `line` in 88..95, that is word 2 = `line << 24 | ast_location << 16 | extra`. -/
theorem encodeInstruction_layout (info : InstructionInfo) (hline : info.debug.line.toNat < 2 ^ 8)
    (hast : info.debug.astLocation.toNat < 2 ^ 8) (hextra : info.debug.extra.toNat < 2 ^ 16) :
    (encodeInstruction info).word0 = (fromInstruction info.instruction).word0 ∧
      (encodeInstruction info).word1 = (fromInstruction info.instruction).word1 ∧
      (encodeInstruction info).word2.toNat = info.debug.line.toNat * 2 ^ 24 +
        info.debug.astLocation.toNat * 2 ^ 16 + info.debug.extra.toNat := by
  obtain ⟨hc, ho, ha, hb, hv, hl, hast', he⟩ := setDebug_fields (fromInstruction info.instruction)
    info.debug.line info.debug.astLocation info.debug.extra
  obtain ⟨-, -, -, -, -, hl0, hast0, he0⟩ := packFields_fields info.instruction.guard.code
    info.instruction.opCode info.instruction.operandA info.instruction.guard.key
    info.instruction.guard.value
  refine ⟨UInt32.ext ?_, UInt32.ext ?_, ?_⟩
  · rw [word0_toNat, word0_toNat, encodeInstruction, hc, ho, ha, hb]
  · rw [word1_toNat, word1_toNat, encodeInstruction, hv]
  · rw [word2_toNat, encodeInstruction, hl, hast', he]
    simp only [uint32_toNat_ofNat]
    omega

/-- `encode_instruction` at a `Goto(Equal(23, 1234), 42)` compiled from line 12 with AST tag 3
and extra `0x1234`. -/
theorem encodeInstruction_layout_goto :
    ((⟨.goto (.equal 23 1234) 42, ⟨12, 3, 0x1234⟩⟩ : InstructionInfo).debug.line.toNat < 2 ^ 8 ∧
      (⟨.goto (.equal 23 1234) 42, ⟨12, 3, 0x1234⟩⟩ : InstructionInfo).debug.astLocation.toNat <
        2 ^ 8 ∧
      (⟨.goto (.equal 23 1234) 42, ⟨12, 3, 0x1234⟩⟩ : InstructionInfo).debug.extra.toNat <
        2 ^ 16) ∧
    (encodeInstruction ⟨.goto (.equal 23 1234) 42, ⟨12, 3, 0x1234⟩⟩).word2.toNat =
      12 * 2 ^ 24 + 3 * 2 ^ 16 + 0x1234 :=
  ⟨⟨by decide, by decide, by decide⟩,
    (encodeInstruction_layout ⟨.goto (.equal 23 1234) 42, ⟨12, 3, 0x1234⟩⟩
      (by decide) (by decide) (by decide)).2.2⟩

/-- The debug line does not sit in the low byte of word 2: a record compiled from line 1 has
word 2 = `1 << 24`, not `1 | 0 << 8 | 0 << 16`. -/
theorem encodeInstruction_line_in_top_byte :
    (encodeInstruction ⟨.abort .always, ⟨1, 0, 0⟩⟩).word2 = 0x01000000 ∧
      ¬ ((encodeInstruction ⟨.abort .always, ⟨1, 0, 0⟩⟩).word2.toNat =
        1 ||| 0 <<< 8 ||| 0 <<< 16) := by
  decide

end EncodeBindProgramV1

end BindBytecode
