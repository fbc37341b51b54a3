import BindBytecode.Bytes

/-!
# EncodeV1/Bitfield: the `bitfield!` record of the V1 encoder

`encode_bind_program_v1.rs` declares its 96-bit record with the `bitfield` crate:

    pub struct RawInstruction([u32]);
    u32;
    pub condition, set_condition: 31, 28;
    pub operation, set_operation: 27, 24;
    pub parameter_a, set_parameter_a: 23, 16;
    pub parameter_b, set_parameter_b: 15, 0;
    pub value, set_value: 63, 32;
    pub line, set_line: 95, 88;
    pub ast_location, set_ast_location: 87, 80;
    pub extra, set_extra: 79, 64;

The crate's `BitRange` for a slice of words numbers the bits of the storage from the low bit of
the first word: bit `i` is bit `i % 32` of word `i / 32`.  `set_bit_range(msb, lsb, value)`
writes the low `msb - lsb + 1` bits of `value` into bits `lsb..=msb` and leaves every other bit
alone; `bit_range(msb, lsb)` reads them back.  So the storage is modelled as the 96-bit number
its three words spell, and the two crate operations as `extractBits`/`insertBits` on it.

WHAT IS PROVED.  Reading a range just written gives the written value truncated to the field's
width (`bitRange_setBitRange_self`), and writing a range leaves every disjoint range as it was
(`bitRange_setBitRange_of_disjoint`).  The three words are tiled by the declared fields
(`word0_toNat`, `word1_toNat`, `word2_toNat`).  Everything the encoder does is derived from
these; no later proof unfolds the arithmetic.

THE FIELDS AS LENSES.  The declaration's table is `RawInstruction.Field`, with its `msb`/`lsb`
columns; `get`/`set` are the generated getter and setter of a field.  Over every record and
value they satisfy the lens laws: reading a field just written gives the value truncated to the
field's width (`get_set_self`), writing a field leaves every other one alone (`get_set_of_ne`), a
record is determined by its eight fields (`ext_get`), and writes to distinct fields commute
(`set_comm`), so the order of the setter calls of `From<Instruction>` does not matter.
-/

set_option autoImplicit false

namespace BindBytecode

/-! ## Bit ranges of a natural -/

/-- The bits `lsb..=msb` of `n`, shifted down to bit 0. -/
def extractBits (n msb lsb : Nat) : Nat := n / 2 ^ lsb % 2 ^ (msb + 1 - lsb)

/-- `n` with its bits `lsb..=msb` replaced by the low `msb + 1 - lsb` bits of `v`: the bits above
`msb` and below `lsb` are kept. -/
def insertBits (n msb lsb v : Nat) : Nat :=
  2 ^ (msb + 1) * (n / 2 ^ (msb + 1)) + (2 ^ lsb * (v % 2 ^ (msb + 1 - lsb)) + n % 2 ^ lsb)

theorem testBit_extractBits (n msb lsb i : Nat) :
    (extractBits n msb lsb).testBit i = (decide (i < msb + 1 - lsb) && n.testBit (lsb + i)) := by
  rw [extractBits, Nat.testBit_mod_two_pow, ← Nat.shiftRight_eq_div_pow, Nat.testBit_shiftRight]

/-- The rewritten low part of `insertBits` stays below the kept high part. -/
theorem insertBits_low_lt {n msb lsb v : Nat} (h : lsb ≤ msb) :
    2 ^ lsb * (v % 2 ^ (msb + 1 - lsb)) + n % 2 ^ lsb < 2 ^ (msb + 1) := by
  have hv : v % 2 ^ (msb + 1 - lsb) + 1 ≤ 2 ^ (msb + 1 - lsb) := Nat.mod_lt _ (by positivity)
  have hn : n % 2 ^ lsb < 2 ^ lsb := Nat.mod_lt _ (by positivity)
  calc 2 ^ lsb * (v % 2 ^ (msb + 1 - lsb)) + n % 2 ^ lsb
      < 2 ^ lsb * (v % 2 ^ (msb + 1 - lsb) + 1) := by rw [Nat.mul_succ]; omega
    _ ≤ 2 ^ lsb * 2 ^ (msb + 1 - lsb) := Nat.mul_le_mul_left _ hv
    _ = 2 ^ (msb + 1) := by rw [← Nat.pow_add]; congr 1; omega

/-- Bit `i` after `insertBits`: inside the range it comes from `v`, outside from `n`. -/
theorem testBit_insertBits {n msb lsb v : Nat} (h : lsb ≤ msb) (i : Nat) :
    (insertBits n msb lsb v).testBit i =
      if lsb ≤ i ∧ i ≤ msb then v.testBit (i - lsb) else n.testBit i := by
  rw [insertBits, Nat.testBit_mul_pow_two_add _ (insertBits_low_lt h),
    Nat.testBit_mul_pow_two_add _ (Nat.mod_lt _ (by positivity)), Nat.testBit_mod_two_pow,
    Nat.testBit_mod_two_pow, ← Nat.shiftRight_eq_div_pow, Nat.testBit_shiftRight]
  by_cases hlow : i < lsb
  · simp [hlow, show i < msb + 1 by omega, show ¬(lsb ≤ i ∧ i ≤ msb) by omega]
  by_cases hhigh : i < msb + 1
  · simp [hlow, hhigh, show lsb ≤ i ∧ i ≤ msb by omega, show i - lsb < msb + 1 - lsb by omega]
  · simp [hhigh, show ¬(lsb ≤ i ∧ i ≤ msb) by omega, show msb + 1 + (i - (msb + 1)) = i by omega]

/-- Reading back the range just written gives the written value, truncated to its width. -/
theorem extractBits_insertBits_self {n msb lsb v : Nat} (h : lsb ≤ msb) :
    extractBits (insertBits n msb lsb v) msb lsb = v % 2 ^ (msb + 1 - lsb) := by
  apply Nat.eq_of_testBit_eq
  intro i
  rw [testBit_extractBits, testBit_insertBits h, Nat.testBit_mod_two_pow]
  by_cases hi : i < msb + 1 - lsb
  · simp [hi, show lsb ≤ lsb + i ∧ lsb + i ≤ msb by omega]
  · simp [hi]

/-- Writing one range leaves a disjoint range unchanged. -/
theorem extractBits_insertBits_of_disjoint {n msb lsb msb' lsb' v : Nat} (h : lsb ≤ msb)
    (hd : msb' < lsb ∨ msb < lsb') :
    extractBits (insertBits n msb lsb v) msb' lsb' = extractBits n msb' lsb' := by
  apply Nat.eq_of_testBit_eq
  intro i
  rw [testBit_extractBits, testBit_extractBits, testBit_insertBits h]
  by_cases hi : i < msb' + 1 - lsb'
  · simp [hi, show ¬(lsb ≤ lsb' + i ∧ lsb' + i ≤ msb) by omega]
  · simp [hi]

/-- A range below bit `k` does not see the bits from `k` up. -/
theorem extractBits_mod_two_pow {n msb lsb k : Nat} (h : msb < k) :
    extractBits (n % 2 ^ k) msb lsb = extractBits n msb lsb := by
  apply Nat.eq_of_testBit_eq
  intro i
  rw [testBit_extractBits, testBit_extractBits, Nat.testBit_mod_two_pow]
  by_cases hi : i < msb + 1 - lsb
  · simp [hi, show lsb + i < k by omega]
  · simp [hi]

theorem extractBits_lt (n msb lsb : Nat) : extractBits n msb lsb < 2 ^ (msb + 1 - lsb) :=
  Nat.mod_lt _ (by positivity)

namespace EncodeBindProgramV1

/-! ## The record -/

/-- `RawInstruction([u32; 3])`: the three words of one V1 record, in storage order. -/
structure RawInstruction where
  word0 : UInt32
  word1 : UInt32
  word2 : UInt32
  deriving DecidableEq, Repr

namespace RawInstruction

/-- The storage as the crate indexes it: bit `i` is bit `i % 32` of word `i / 32`. -/
def toNat (r : RawInstruction) : Nat :=
  r.word0.toNat + 2 ^ 32 * r.word1.toNat + 2 ^ 64 * r.word2.toNat

/-- The record whose storage holds the low 96 bits of `n`. -/
def ofNat (n : Nat) : RawInstruction :=
  ⟨UInt32.ofNat n, UInt32.ofNat (n / 2 ^ 32), UInt32.ofNat (n / 2 ^ 64)⟩

/-- `BitRange::bit_range(msb, lsb)` at the field type `u32`. -/
def bitRange (r : RawInstruction) (msb lsb : Nat) : UInt32 :=
  UInt32.ofNat (extractBits r.toNat msb lsb)

/-- `BitRange::set_bit_range(msb, lsb, value)`. -/
def setBitRange (r : RawInstruction) (msb lsb : Nat) (value : UInt32) : RawInstruction :=
  ofNat (insertBits r.toNat msb lsb value.toNat)

theorem toNat_ofNat (n : Nat) : (ofNat n).toNat = n % 2 ^ 96 := by
  simp only [toNat, ofNat, uint32_toNat_ofNat]
  omega

theorem toNat_bitRange {r : RawInstruction} {msb lsb : Nat} (h : msb + 1 - lsb ≤ 32) :
    (r.bitRange msb lsb).toNat = extractBits r.toNat msb lsb := by
  have := extractBits_lt r.toNat msb lsb
  have : 2 ^ (msb + 1 - lsb) ≤ 2 ^ 32 := Nat.pow_le_pow_right (by norm_num) h
  rw [bitRange, uint32_toNat_ofNat, Nat.mod_eq_of_lt (by omega)]

/-- Reading the range just written gives the value, truncated to the field's width. -/
theorem bitRange_setBitRange_self {r : RawInstruction} {msb lsb : Nat} (h : lsb ≤ msb)
    (h96 : msb < 96) (value : UInt32) :
    (r.setBitRange msb lsb value).bitRange msb lsb =
      UInt32.ofNat (value.toNat % 2 ^ (msb + 1 - lsb)) := by
  rw [bitRange, setBitRange, toNat_ofNat, extractBits_mod_two_pow h96,
    extractBits_insertBits_self h]

/-- Writing a range leaves every disjoint range as it was. -/
theorem bitRange_setBitRange_of_disjoint {r : RawInstruction} {msb lsb msb' lsb' : Nat}
    (h : lsb ≤ msb) (h96 : msb' < 96) (hd : msb' < lsb ∨ msb < lsb') (value : UInt32) :
    (r.setBitRange msb lsb value).bitRange msb' lsb' = r.bitRange msb' lsb' := by
  rw [bitRange, setBitRange, toNat_ofNat, extractBits_mod_two_pow h96,
    extractBits_insertBits_of_disjoint h hd, bitRange]

/-- Every range of the all-zero record `RawInstruction([0, 0, 0])` reads zero. -/
@[simp] theorem bitRange_zero (msb lsb : Nat) :
    (⟨0, 0, 0⟩ : RawInstruction).bitRange msb lsb = 0 := by
  simp [bitRange, toNat, extractBits]

/-! ## The declared fields -/

/-- `condition`, bits 31..28. -/
def condition (r : RawInstruction) : UInt32 := r.bitRange 31 28
/-- `operation`, bits 27..24. -/
def operation (r : RawInstruction) : UInt32 := r.bitRange 27 24
/-- `parameter_a`, bits 23..16. -/
def parameterA (r : RawInstruction) : UInt32 := r.bitRange 23 16
/-- `parameter_b`, bits 15..0. -/
def parameterB (r : RawInstruction) : UInt32 := r.bitRange 15 0
/-- `value`, bits 63..32. -/
def value (r : RawInstruction) : UInt32 := r.bitRange 63 32
/-- `line`, bits 95..88. -/
def line (r : RawInstruction) : UInt32 := r.bitRange 95 88
/-- `ast_location`, bits 87..80. -/
def astLocation (r : RawInstruction) : UInt32 := r.bitRange 87 80
/-- `extra`, bits 79..64. -/
def extra (r : RawInstruction) : UInt32 := r.bitRange 79 64

/-- `set_condition`. -/
def setCondition (r : RawInstruction) (v : UInt32) : RawInstruction := r.setBitRange 31 28 v
/-- `set_operation`. -/
def setOperation (r : RawInstruction) (v : UInt32) : RawInstruction := r.setBitRange 27 24 v
/-- `set_parameter_a`. -/
def setParameterA (r : RawInstruction) (v : UInt32) : RawInstruction := r.setBitRange 23 16 v
/-- `set_parameter_b`. -/
def setParameterB (r : RawInstruction) (v : UInt32) : RawInstruction := r.setBitRange 15 0 v
/-- `set_value`. -/
def setValue (r : RawInstruction) (v : UInt32) : RawInstruction := r.setBitRange 63 32 v
/-- `set_line`. -/
def setLine (r : RawInstruction) (v : UInt32) : RawInstruction := r.setBitRange 95 88 v
/-- `set_ast_location`. -/
def setAstLocation (r : RawInstruction) (v : UInt32) : RawInstruction := r.setBitRange 87 80 v
/-- `set_extra`. -/
def setExtra (r : RawInstruction) (v : UInt32) : RawInstruction := r.setBitRange 79 64 v

/-! ## The words are tiled by the fields -/

/-- Word 0 is `condition << 28 | operation << 24 | parameter_a << 16 | parameter_b`. -/
theorem word0_toNat (r : RawInstruction) :
    r.word0.toNat = r.condition.toNat * 2 ^ 28 + r.operation.toNat * 2 ^ 24 +
      r.parameterA.toNat * 2 ^ 16 + r.parameterB.toNat := by
  simp (disch := omega) only [condition, operation, parameterA, parameterB, toNat_bitRange,
    extractBits, toNat]
  have := UInt32.toNat_lt r.word0
  norm_num
  omega

/-- Word 1 is `value`. -/
theorem word1_toNat (r : RawInstruction) : r.word1.toNat = r.value.toNat := by
  simp (disch := omega) only [value, toNat_bitRange, extractBits, toNat]
  have := UInt32.toNat_lt r.word0
  have := UInt32.toNat_lt r.word1
  norm_num
  omega

/-- Word 2 is `line << 24 | ast_location << 16 | extra`. -/
theorem word2_toNat (r : RawInstruction) :
    r.word2.toNat = r.line.toNat * 2 ^ 24 + r.astLocation.toNat * 2 ^ 16 + r.extra.toNat := by
  simp (disch := omega) only [line, astLocation, extra, toNat_bitRange, extractBits, toNat]
  have := UInt32.toNat_lt r.word0
  have := UInt32.toNat_lt r.word1
  have := UInt32.toNat_lt r.word2
  norm_num
  omega

/-! ## The declaration as one table -/

/-- The eight fields of the `bitfield!` declaration. -/
inductive Field where
  | condition
  | operation
  | parameterA
  | parameterB
  | value
  | line
  | astLocation
  | extra
  deriving DecidableEq, Repr

/-- The field's most significant bit, as declared. -/
def Field.msb : Field → Nat
  | .condition => 31
  | .operation => 27
  | .parameterA => 23
  | .parameterB => 15
  | .value => 63
  | .line => 95
  | .astLocation => 87
  | .extra => 79

/-- The field's least significant bit, as declared. -/
def Field.lsb : Field → Nat
  | .condition => 28
  | .operation => 24
  | .parameterA => 16
  | .parameterB => 0
  | .value => 32
  | .line => 88
  | .astLocation => 80
  | .extra => 64

/-- The field's width in bits. -/
def Field.width (f : Field) : Nat := f.msb + 1 - f.lsb

/-- The getter of a field; `r.get .condition` is `r.condition`, and so on. -/
def get (r : RawInstruction) (f : Field) : UInt32 := r.bitRange f.msb f.lsb

/-- The setter of a field; `r.set .condition v` is `r.setCondition v`, and so on. -/
def set (r : RawInstruction) (f : Field) (v : UInt32) : RawInstruction :=
  r.setBitRange f.msb f.lsb v

theorem Field.lsb_le_msb (f : Field) : f.lsb ≤ f.msb := by
  cases f <;> decide

theorem Field.msb_lt (f : Field) : f.msb < 96 := by
  cases f <;> decide

theorem Field.width_le (f : Field) : f.width ≤ 32 := by
  cases f <;> decide

/-- The declared ranges are pairwise disjoint. -/
theorem Field.disjoint {f g : Field} (h : f ≠ g) : g.msb < f.lsb ∨ f.msb < g.lsb := by
  revert h
  cases f <;> cases g <;> decide

theorem toNat_get_lt (r : RawInstruction) (f : Field) : (r.get f).toNat < 2 ^ f.width := by
  rw [get, toNat_bitRange f.width_le]
  exact extractBits_lt _ _ _

theorem ofNat_get_mod (r : RawInstruction) (f : Field) :
    UInt32.ofNat ((r.get f).toNat % 2 ^ f.width) = r.get f :=
  uint32_ofNat_mod_of_lt (r.toNat_get_lt f)

/-- Reading a field just written gives the value truncated to the field's width. -/
theorem get_set_self (r : RawInstruction) (f : Field) (v : UInt32) :
    (r.set f v).get f = UInt32.ofNat (v.toNat % 2 ^ f.width) :=
  bitRange_setBitRange_self f.lsb_le_msb f.msb_lt v

/-- Writing a field leaves every other field as it was. -/
theorem get_set_of_ne (r : RawInstruction) {f g : Field} (h : f ≠ g) (v : UInt32) :
    (r.set f v).get g = r.get g :=
  bitRange_setBitRange_of_disjoint f.lsb_le_msb g.msb_lt (Field.disjoint h) v

/-- The declared fields cover the 96 bits: a record is determined by its eight fields. -/
theorem ext_get {r r' : RawInstruction} (h : ∀ f, r.get f = r'.get f) : r = r' := by
  have hc : r.condition = r'.condition := h .condition
  have ho : r.operation = r'.operation := h .operation
  have ha : r.parameterA = r'.parameterA := h .parameterA
  have hb : r.parameterB = r'.parameterB := h .parameterB
  have hv : r.value = r'.value := h .value
  have hl : r.line = r'.line := h .line
  have hast : r.astLocation = r'.astLocation := h .astLocation
  have he : r.extra = r'.extra := h .extra
  have h0 : r.word0.toNat = r'.word0.toNat := by rw [word0_toNat, word0_toNat, hc, ho, ha, hb]
  have h1 : r.word1.toNat = r'.word1.toNat := by rw [word1_toNat, word1_toNat, hv]
  have h2 : r.word2.toNat = r'.word2.toNat := by rw [word2_toNat, word2_toNat, hl, hast, he]
  cases r
  cases r'
  congr 1 <;> exact UInt32.ext ‹_›

/-- Writes to two distinct fields commute: the order in which a record's setters are called does
not matter. -/
theorem set_comm (r : RawInstruction) {f g : Field} (hfg : f ≠ g) (v w : UInt32) :
    (r.set f v).set g w = (r.set g w).set f v := by
  apply ext_get
  intro k
  by_cases hgk : g = k
  · subst hgk
    simp only [get_set_self, get_set_of_ne _ hfg]
  by_cases hfk : f = k
  · subst hfk
    simp only [get_set_self, get_set_of_ne _ (Ne.symm hfg)]
  simp only [get_set_of_ne _ hgk, get_set_of_ne _ hfk]

/-- The condition and the debug line of a zeroed record, written in either order. -/
theorem set_comm_condition_line :
    Field.condition ≠ Field.line ∧
      ((⟨0, 0, 0⟩ : RawInstruction).set .condition 1).set .line 12 =
        ((⟨0, 0, 0⟩ : RawInstruction).set .line 12).set .condition 1 :=
  ⟨by decide, set_comm _ (by decide) 1 12⟩

end RawInstruction

end EncodeBindProgramV1

end BindBytecode
