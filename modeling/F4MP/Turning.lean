import Mathlib.Algebra.Order.Floor.Ring
import Mathlib.Tactic.Linarith
import Mathlib.Tactic.Ring
import F4MP.Interp

/-!
A yaw is interpolated along the shortest arc, whatever a whole turn measures and in
whatever field it is measured.
-/

namespace F4MP.Turning

open F4MP.Arith
open F4MP.Interp

variable {K : Type} [Field K] [LinearOrder K] [IsStrictOrderedRing K] [FloorRing K] {turn : K}

/-- `std::fmod` in exact arithmetic. -/
def remainder (a turn : K) : K := @CppFloat.fmod K (.exact K) a turn

/-- `LerpAngle` in exact arithmetic, for a given value of pi. -/
def lerpAngleExact (pi a b t : K) : K := @lerpAngleOn K (.exact K) pi a b t

/-- The truncated remainder is less than the divisor either way, and whole multiples away
from the dividend. -/
theorem remainder_spec (hturn : 0 < turn) (a : K) :
    |remainder a turn| < turn ∧ ∃ k : ℤ, remainder a turn = a + k * turn := by
  have hremainder : remainder a turn = a - turn * (if 0 ≤ a / turn then ⌊a / turn⌋ else ⌈a / turn⌉) :=
    rfl
  have hquot : a = a / turn * turn := (div_mul_cancel₀ a hturn.ne').symm
  rw [hremainder]
  refine ⟨?_, -(if 0 ≤ a / turn then ⌊a / turn⌋ else ⌈a / turn⌉), by push_cast; ring⟩
  split
  · have hlo := mul_le_mul_of_nonneg_right (Int.floor_le (a / turn)) hturn.le
    have hhi := mul_lt_mul_of_pos_right (Int.lt_floor_add_one (a / turn)) hturn
    rw [← hquot] at hlo hhi
    rw [abs_of_nonneg (by linarith)]
    linarith
  · have hlo := mul_lt_mul_of_pos_right (Int.ceil_lt_add_one (a / turn)) hturn
    have hhi := mul_le_mul_of_nonneg_right (Int.le_ceil (a / turn)) hturn.le
    rw [← hquot] at hhi
    rw [add_mul, ← hquot] at hlo
    rw [abs_of_nonpos (by linarith)]
    linarith

theorem abs_le_abs_add_turns {angle : K} (hangle : |angle| ≤ turn / 2) (k : ℤ) :
    |angle| ≤ |angle + k * turn| := by
  have hturn : 0 ≤ turn := by linarith [abs_nonneg angle]
  rcases eq_or_ne k 0 with rfl | hk
  · simp
  have hone : (1 : K) ≤ |(k : K)| := by
    rw [← Int.cast_abs]
    exact_mod_cast Int.one_le_abs hk
  have hfar : turn ≤ |k * turn| := by
    rw [abs_mul, abs_of_nonneg hturn]
    exact le_mul_of_one_le_left hturn hone
  have hsum : |k * turn| ≤ |angle + k * turn| + |angle| := by
    rw [← abs_neg angle]
    exact (congrArg abs (by ring : (k * turn : K) = angle + k * turn + -angle)).le.trans
      (abs_add_le _ _)
  linarith

def arc (turn a b : K) : K :=
  if turn / 2 < remainder (b - a) turn then remainder (b - a) turn - turn
  else if remainder (b - a) turn < 0 - turn / 2 then remainder (b - a) turn + turn
  else remainder (b - a) turn

theorem lerpAngleExact_eq (turn a b t : K) :
    lerpAngleExact (turn / 2) a b t = a + arc turn a b * t := by
  have htwo : ((2 : ℚ) : K) * (turn / 2) = turn := by
    rw [Rat.cast_ofNat]
    exact mul_div_cancel₀ turn two_ne_zero
  have hunfolded : lerpAngleExact (turn / 2) a b t =
      let twoPi := ((2 : ℚ) : K) * (turn / 2)
      let delta := remainder (b - a) twoPi
      a + (if turn / 2 < delta then delta - twoPi
        else if delta < ((0 : ℚ) : K) - turn / 2 then delta + twoPi
        else delta) * t := rfl
  rw [hunfolded, htwo, Rat.cast_zero]
  rfl

/-- The arc is half a turn or less, and leads to the other yaw up to whole turns. -/
theorem arc_spec (hturn : 0 < turn) (a b : K) :
    |arc turn a b| ≤ turn / 2 ∧ ∃ k : ℤ, a + arc turn a b = b + k * turn := by
  obtain ⟨hsmall, k, hk⟩ := remainder_spec hturn (b - a)
  obtain ⟨hlo, hhi⟩ := abs_lt.mp hsmall
  rw [arc]
  split
  · refine ⟨abs_le.mpr ⟨by linarith, by linarith⟩, k - 1, ?_⟩
    rw [hk]
    push_cast
    ring
  split
  · refine ⟨abs_le.mpr ⟨by linarith, by linarith⟩, k + 1, ?_⟩
    rw [hk]
    push_cast
    ring
  · refine ⟨abs_le.mpr ⟨by linarith, by linarith⟩, k, ?_⟩
    rw [hk]
    ring

/-- A yaw starts at one angle, ends at the other up to whole turns, and turns through the
least arc there is in between. -/
theorem lerpAngleExact_shortest (hturn : 0 < turn) (a b : K) {t : K} (ht : 0 ≤ t) :
    lerpAngleExact (turn / 2) a b 0 = a ∧
    (∃ k : ℤ, lerpAngleExact (turn / 2) a b 1 = b + k * turn) ∧
    |lerpAngleExact (turn / 2) a b t - a| ≤ t * (turn / 2) ∧
    lerpAngleExact (turn / 2) a b t - a = t * (lerpAngleExact (turn / 2) a b 1 - a) ∧
    ∀ k : ℤ, |lerpAngleExact (turn / 2) a b 1 - a| ≤ |b + k * turn - a| := by
  obtain ⟨hhalf, k, hk⟩ := arc_spec hturn a b
  simp only [lerpAngleExact_eq, mul_one, mul_zero, add_zero, add_sub_cancel_left]
  refine ⟨trivial, ⟨k, hk⟩, ?_, mul_comm _ _, fun l => ?_⟩
  · rw [abs_mul, abs_of_nonneg ht, mul_comm]
    exact mul_le_mul_of_nonneg_left hhalf ht
  · have hother : b + l * turn - a = arc turn a b + (l - k : ℤ) * turn := by
      push_cast
      linarith
    rw [hother]
    exact abs_le_abs_add_turns hhalf _

/-- Many turns apart, with a turn of 360. -/
theorem lerpAngleExact_degrees :
    |lerpAngleExact (360 / 2 : ℚ) 350 (-3230) (1 / 2) - 350| ≤ 1 / 2 * (360 / 2) :=
  (lerpAngleExact_shortest (by norm_num) 350 (-3230) (by norm_num)).2.2.1

end F4MP.Turning
