import BindBytecode.EncodeV1.Output
import Mathlib.Data.Nat.Digits

/-!
# EncodeV1/Display: the debug rendering of a V1 record

`impl fmt::Display for RawInstruction<[u32; 3]>` writes a record as

    c: {}, o: {}, a: {}, b: {:#06x}, v: {:#010x}

with `condition()`, `operation()` and `parameter_a()` in decimal, and `parameter_b()` and
`value()` in lowercase hexadecimal after `0x`, padded with zeros to 6 and 10 characters in all
(`{:#0W$x}` counts the prefix in the width, and pads no further than it).

WHAT IS PROVED.  The padding is exact: operand B is a 16-bit field and the value a `u32`, so
their digits never overflow the four and eight places the widths leave after `0x`, and the two
hexadecimal parts always take exactly 6 and 10 characters.  The text reads back, through
`parseDisplay` written from the format string, as the five fields, so no two records with
different instruction fields render alike (`parseDisplay_display`).  The debug word is not
rendered.
-/

set_option autoImplicit false

namespace BindBytecode

namespace EncodeBindProgramV1

/-! ## The rendering -/

/-- The digits of `{:#0W$x}`: zeros, then the lowercase hexadecimal digits, `W - 2` places in all
unless the number needs more. -/
def hexDigitsPadded (width : Nat) (x : UInt32) : List Char :=
  List.replicate (width - 2 - (Nat.toDigits 16 x.toNat).length) '0' ++ Nat.toDigits 16 x.toNat

/-- `format!("{:#0W$x}", x)`. -/
def formatHexWidth (width : Nat) (x : UInt32) : String :=
  "0x" ++ String.mk (hexDigitsPadded width x)

/-- `impl fmt::Display for RawInstruction<[u32; 3]>`. -/
def RawInstruction.display (r : RawInstruction) : String :=
  "c: " ++ toString r.condition ++ ", o: " ++ toString r.operation ++ ", a: " ++
    toString r.parameterA ++ ", b: " ++ formatHexWidth 6 r.parameterB ++ ", v: " ++
    formatHexWidth 10 r.value

/-! ## Reading it back -/

/-- The value of a decimal digit. -/
def decDigitValue (c : Char) : Option Nat :=
  if '0' ≤ c ∧ c ≤ '9' then some (c.toNat - '0'.toNat) else none

/-- The rendering read back, following the format string: `c: ` and a decimal number, `, o: ` and
one, `, a: ` and one, `, b: 0x` and hexadecimal digits, `, v: 0x` and hexadecimal digits, and
nothing after. -/
def parseDisplay (cs : List Char) : Option (Nat × Nat × Nat × Nat × Nat) := do
  let (c, cs) ← parseField ['c', ':', ' '] decDigitValue 10 cs
  let (o, cs) ← parseField [',', ' ', 'o', ':', ' '] decDigitValue 10 cs
  let (a, cs) ← parseField [',', ' ', 'a', ':', ' '] decDigitValue 10 cs
  let (b, cs) ← parseField [',', ' ', 'b', ':', ' ', '0', 'x'] hexDigitValue 16 cs
  let (v, cs) ← parseField [',', ' ', 'v', ':', ' ', '0', 'x'] hexDigitValue 16 cs
  if cs.isEmpty then pure (c, o, a, b, v) else none

/-! ## Numbers read back -/

theorem decDigitValue_digitChar : ∀ d, d < 10 → decDigitValue (Nat.digitChar d) = some d := by
  decide

theorem digitsOf_toDigits_dec (n : Nat) : DigitsOf decDigitValue 10 (Nat.toDigits 10 n) n :=
  digitsOf_toDigits decDigitValue 10 (by omega) decDigitValue_digitChar n

theorem digitsOf_hexDigitsPadded (width : Nat) (x : UInt32) :
    DigitsOf hexDigitValue 16 (hexDigitsPadded width x) x.toNat :=
  digitsOf_zeros_append (rfl : hexDigitValue '0' = some 0) _ (digitsOf_toDigits_hex x.toNat)

/-! ## The rendering is exact -/

theorem length_toDigits_le {n k : Nat} (h : n < 16 ^ k) (hk : 0 < k) :
    (Nat.toDigits 16 n).length ≤ k :=
  Nat.toDigitsCore_length 16 (by norm_num) (n + 1) n k h hk

theorem length_hexDigitsPadded {x : UInt32} {width : Nat} (hx : x.toNat < 16 ^ (width - 2))
    (hw : 2 < width) : (hexDigitsPadded width x).length = width - 2 := by
  have := length_toDigits_le hx (by omega)
  rw [hexDigitsPadded, List.length_append, List.length_replicate]
  omega

/-- The text of the rendering, piece by piece. -/
theorem display_toList (r : RawInstruction) :
    r.display.toList = ['c', ':', ' '] ++ (Nat.toDigits 10 r.condition.toNat ++
      ([',', ' ', 'o', ':', ' '] ++ (Nat.toDigits 10 r.operation.toNat ++
      ([',', ' ', 'a', ':', ' '] ++ (Nat.toDigits 10 r.parameterA.toNat ++
      ([',', ' ', 'b', ':', ' ', '0', 'x'] ++ (hexDigitsPadded 6 r.parameterB ++
      ([',', ' ', 'v', ':', ' ', '0', 'x'] ++ hexDigitsPadded 10 r.value)))))))) := by
  show r.display.data = _
  simp only [RawInstruction.display, formatHexWidth, String.data_append, List.append_assoc]
  rfl

/-- The rendering is exact and unambiguous: operand B and the value always take exactly the 6 and
10 characters the format asks for, and the text reads back as the record's five instruction
fields. -/
theorem parseDisplay_display (r : RawInstruction) :
    (formatHexWidth 6 r.parameterB).length = 6 ∧ (formatHexWidth 10 r.value).length = 10 ∧
      parseDisplay r.display.toList = some (r.condition.toNat, r.operation.toNat,
        r.parameterA.toNat, r.parameterB.toNat, r.value.toNat) := by
  have hb : r.parameterB.toNat < 16 ^ (6 - 2) := r.toNat_get_lt .parameterB
  have hv : r.value.toNat < 16 ^ (10 - 2) := UInt32.toNat_lt r.value
  refine ⟨?_, ?_, ?_⟩
  · show ("0x".toList ++ hexDigitsPadded 6 r.parameterB).length = 6
    rw [List.length_append, length_hexDigitsPadded hb (by omega)]
    rfl
  · show ("0x".toList ++ hexDigitsPadded 10 r.value).length = 10
    rw [List.length_append, length_hexDigitsPadded hv (by omega)]
    rfl
  have hdec : decDigitValue ',' = none := rfl
  have hhex : hexDigitValue ',' = none := rfl
  rw [display_toList]
  simp only [parseDisplay, parseField_stop (digitsOf_toDigits_dec _) hdec,
    parseField_stop (digitsOf_hexDigitsPadded _ _) hhex,
    parseField_last (digitsOf_hexDigitsPadded _ _), Option.bind_eq_bind, Option.some_bind]
  rfl

end EncodeBindProgramV1

end BindBytecode
