import Mathlib.Algebra.Order.Ring.Nat
import Mathlib.Tactic.Ring

/-! Little-endian bytes of natural numbers of a fixed width. -/

namespace F4MP.Library.LittleEndian

/-- The lowest `width` bytes of a number, least significant first. -/
def leBytes : Nat → Nat → List UInt8
  | 0, _ => []
  | width + 1, value => UInt8.ofNat (value % 256) :: leBytes width (value / 256)

/-- The number spelled by bytes, least significant first. -/
def leValue : List UInt8 → Nat
  | [] => 0
  | byte :: bytes => byte.toNat + 256 * leValue bytes

@[simp] theorem length_leBytes (width value : Nat) : (leBytes width value).length = width := by
  induction width generalizing value with
  | zero => rfl
  | succ width ih => simp [leBytes, ih]

theorem leValue_leBytes (width value : Nat) (h : value < 256 ^ width) :
    leValue (leBytes width value) = value := by
  induction width generalizing value with
  | zero =>
      have hzero : value = 0 := by simpa using h
      simp [leBytes, leValue, hzero]
  | succ width ih =>
      have hhigh : value / 256 < 256 ^ width := by
        rw [pow_succ] at h
        omega
      have hlow : (UInt8.ofNat (value % 256)).toNat = value % 256 := by
        simp
      rw [leBytes, leValue, ih _ hhigh, hlow]
      exact Nat.mod_add_div value 256

theorem leBytes_leValue (bytes : List UInt8) : leBytes bytes.length (leValue bytes) = bytes := by
  induction bytes with
  | nil => rfl
  | cons byte bytes ih =>
      have hbyte : byte.toNat < 256 := byte.toNat_lt
      have hlow : (byte.toNat + 256 * leValue bytes) % 256 = byte.toNat := by omega
      have hhigh : (byte.toNat + 256 * leValue bytes) / 256 = leValue bytes := by omega
      rw [List.length_cons, leValue, leBytes, hlow, hhigh, ih, UInt8.ofNat_toNat]

theorem leValue_lt (bytes : List UInt8) : leValue bytes < 256 ^ bytes.length := by
  induction bytes with
  | nil => simp [leValue]
  | cons byte bytes ih =>
      have hbyte : byte.toNat < 256 := byte.toNat_lt
      calc
        leValue (byte :: bytes) = byte.toNat + 256 * leValue bytes := rfl
        _ < 256 * (leValue bytes + 1) := by omega
        _ ≤ 256 * 256 ^ bytes.length := Nat.mul_le_mul_left 256 ih
        _ = 256 ^ (byte :: bytes).length := by rw [List.length_cons, pow_succ, Nat.mul_comm]

end F4MP.Library.LittleEndian
