import Mathlib.Data.List.Basic
import Mathlib.Data.List.Induction
import Mathlib.Tactic.Ring

/-!
# Fixed-width big-endian words

Unsigned integers written most significant byte first in a fixed number of
bytes.  A value that does not fit is reduced modulo the width, as a machine
conversion to an unsigned type does.
-/

namespace Rc2Compute

/-- A byte string. -/
abbrev Bytes := List UInt8

namespace BigEndian

/-- The `width` bytes of `n`, most significant first. -/
def encode : ℕ → ℕ → Bytes
  | 0, _ => []
  | width + 1, n => encode width (n / 256) ++ [UInt8.ofNat (n % 256)]

/-- The number written by a list of bytes, most significant first. -/
def decode (bytes : Bytes) : ℕ :=
  bytes.foldl (fun acc byte => acc * 256 + byte.toNat) 0

@[simp] theorem encode_length (width n : ℕ) :
    (encode width n).length = width := by
  induction width generalizing n with
  | zero => rfl
  | succ width ih => simp [encode, ih]

theorem decode_append_singleton (bytes : Bytes) (byte : UInt8) :
    decode (bytes ++ [byte]) = decode bytes * 256 + byte.toNat := by
  simp [decode]

/-- Reading back a written word gives the value modulo its width. -/
theorem decode_encode (width n : ℕ) :
    decode (encode width n) = n % 256 ^ width := by
  induction width generalizing n with
  | zero => simp [encode, decode, Nat.mod_one]
  | succ width ih =>
      rw [encode, decode_append_singleton, ih]
      have hlow : (UInt8.ofNat (n % 256)).toNat = n % 256 := by
        simp [UInt8.toNat_ofNat']
      rw [hlow, pow_succ', Nat.mod_mul]
      ring

theorem decode_encode_of_lt {width n : ℕ} (hn : n < 256 ^ width) :
    decode (encode width n) = n := by
  rw [decode_encode, Nat.mod_eq_of_lt hn]

theorem decode_lt (bytes : Bytes) : decode bytes < 256 ^ bytes.length := by
  induction bytes using List.reverseRecOn with
  | nil => simp [decode]
  | append_singleton bytes byte ih =>
      rw [decode_append_singleton, List.length_append, List.length_singleton,
        pow_succ]
      have := byte.toNat_lt
      omega

/-- Writing a word that has been read gives its bytes back. -/
theorem encode_decode (bytes : Bytes) :
    encode bytes.length (decode bytes) = bytes := by
  induction bytes using List.reverseRecOn with
  | nil => rfl
  | append_singleton bytes byte ih =>
      have hbyte := byte.toNat_lt
      have hhigh : (decode bytes * 256 + byte.toNat) / 256 = decode bytes := by
        omega
      have hlow : (decode bytes * 256 + byte.toNat) % 256 = byte.toNat := by
        omega
      rw [decode_append_singleton, List.length_append, List.length_singleton,
        encode, hhigh, hlow, ih, UInt8.ofNat_toNat]

end BigEndian

end Rc2Compute
