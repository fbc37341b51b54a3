import Mathlib.Data.String.Basic
import Mathlib.Tactic.Ring
import Mathlib.Tactic.Positivity

/-!
# Bytes: the fixed-width integers both codecs are written in

Both halves of the bind bytecode move `u32` values through bytes: the V1 encoder writes every
record word as `to_le_bytes`, and the V2 matcher reads every operand value back with
`from_le_bytes` after four calls of `next_u8`.  This module fixes those two conversions once,
over Lean's `UInt8`/`UInt32`, together with the handful of `toNat` facts the rest of the
development rewrites with.

The conversions are stated through `toNat`, so every later arithmetic goal about a record or an
operand is a goal about naturals below a power of two, which `omega` closes.
-/

set_option autoImplicit false

namespace BindBytecode

/-! ## `toNat` of the fixed-width types -/

@[simp] theorem uint8_toNat_ofNat (n : Nat) : (UInt8.ofNat n).toNat = n % 2 ^ 8 := by
  simp [UInt8.toNat, UInt8.ofNat]

@[simp] theorem uint32_toNat_ofNat (n : Nat) : (UInt32.ofNat n).toNat = n % 2 ^ 32 := by
  simp [UInt32.toNat, UInt32.ofNat]

@[simp] theorem uint32_ofNat_toNat (w : UInt32) : UInt32.ofNat w.toNat = w :=
  UInt32.ext (by rw [uint32_toNat_ofNat, Nat.mod_eq_of_lt (UInt32.toNat_lt w)])

/-- Truncating a word to `k` bits keeps it when it already fits. -/
theorem uint32_ofNat_mod_of_lt {w : UInt32} {k : Nat} (h : w.toNat < 2 ^ k) :
    UInt32.ofNat (w.toNat % 2 ^ k) = w := by
  rw [Nat.mod_eq_of_lt h, uint32_ofNat_toNat]

/-! ## Little-endian words -/

/-- `u32::to_le_bytes`, least significant byte first. -/
def toLeBytes (w : UInt32) : List UInt8 :=
  [UInt8.ofNat w.toNat, UInt8.ofNat (w.toNat / 256), UInt8.ofNat (w.toNat / 65536),
    UInt8.ofNat (w.toNat / 16777216)]

/-- `u32::from_le_bytes` of the four bytes `[b0, b1, b2, b3]`. -/
def fromLeBytes (b0 b1 b2 b3 : UInt8) : UInt32 :=
  UInt32.ofNat (b0.toNat + 256 * b1.toNat + 65536 * b2.toNat + 16777216 * b3.toNat)

/-- Reading back the bytes a word was written as gives the word. -/
theorem fromLeBytes_toLeBytes (w : UInt32) :
    fromLeBytes (UInt8.ofNat w.toNat) (UInt8.ofNat (w.toNat / 256))
      (UInt8.ofNat (w.toNat / 65536)) (UInt8.ofNat (w.toNat / 16777216)) = w := by
  apply UInt32.ext
  have := UInt32.toNat_lt w
  simp only [fromLeBytes, uint32_toNat_ofNat, uint8_toNat_ofNat]
  omega

theorem toLeBytes_injective : Function.Injective toLeBytes := by
  intro w w' h
  simp only [toLeBytes, List.cons.injEq] at h
  obtain ⟨h0, h1, h2, h3, -⟩ := h
  rw [← fromLeBytes_toLeBytes w, h0, h1, h2, h3, fromLeBytes_toLeBytes]

/-- Writing the word four bytes make gives those bytes back. -/
theorem toLeBytes_fromLeBytes (b0 b1 b2 b3 : UInt8) :
    toLeBytes (fromLeBytes b0 b1 b2 b3) = [b0, b1, b2, b3] := by
  have h0 := UInt8.toNat_lt b0
  have h1 := UInt8.toNat_lt b1
  have h2 := UInt8.toNat_lt b2
  have h3 := UInt8.toNat_lt b3
  simp only [toLeBytes, fromLeBytes, uint32_toNat_ofNat, List.cons.injEq, and_true]
  refine ⟨?_, ?_, ?_, ?_⟩ <;> apply UInt8.ext <;> simp only [uint8_toNat_ofNat] <;>
    omega

end BindBytecode
