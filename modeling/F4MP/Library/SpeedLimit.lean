import Mathlib.Algebra.Order.Field.Basic
import Mathlib.Order.Interval.Set.Defs
import Mathlib.Tactic.Linarith
import Mathlib.Tactic.Positivity
import Mathlib.Tactic.Ring

/-!
Paths over an ordered field that never move faster than a limit: straight ones, ones that
wait or stop, and ones made of two pieces that meet.
-/

namespace F4MP.Library.SpeedLimit

variable {K : Type*} [Field K] [LinearOrder K] [IsStrictOrderedRing K]

/-- At these times the path moves no faster than the limit. -/
def Within (limit : K) (path : K → K) (times : Set K) : Prop :=
  ∀ s ∈ times, ∀ t ∈ times, s ≤ t → |path t - path s| ≤ limit * (t - s)

/-- The straight path from `x` at time `a` to `y` at time `b`. -/
def line (a b x y t : K) : K := x + (y - x) * ((t - a) / (b - a))

variable {limit : K} {path : K → K} {times : Set K}

theorem Within.abs_le_mul (h : Within limit path times) {s t : K} (hs : s ∈ times)
    (ht : t ∈ times) : |path s - path t| ≤ limit * |s - t| := by
  rcases le_total s t with hle | hle
  · rw [abs_sub_comm s t, abs_of_nonneg (sub_nonneg.mpr hle), abs_sub_comm]
    exact h s hs t ht hle
  · rw [abs_of_nonneg (sub_nonneg.mpr hle)]
    exact h t ht s hs hle

theorem Within.mono (h : Within limit path times) {higher : K} (hle : limit ≤ higher) :
    Within higher path times := by
  intro s hs t ht hst
  exact (h s hs t ht hst).trans (mul_le_mul_of_nonneg_right hle (sub_nonneg.mpr hst))

omit [IsStrictOrderedRing K] in
theorem Within.congr (h : Within limit path times) {other : K → K}
    (heq : ∀ t ∈ times, other t = path t) : Within limit other times := by
  intro s hs t ht hst
  rw [heq s hs, heq t ht]
  exact h s hs t ht hst

theorem within_const (hlimit : 0 ≤ limit) (x : K) : Within limit (fun _ => x) times := by
  intro s _ t _ hst
  rw [sub_self, abs_zero]
  exact mul_nonneg hlimit (sub_nonneg.mpr hst)

theorem within_line {a b : K} (hab : a < b) (x y : K) :
    Within (|y - x| / (b - a)) (line a b x y) times := by
  have hgap : 0 < b - a := sub_pos.mpr hab
  intro s _ t _ hst
  have hdiff : line a b x y t - line a b x y s = (y - x) / (b - a) * (t - s) := by
    simp only [line]
    ring
  rw [hdiff, abs_mul, abs_div, abs_of_pos hgap, abs_of_nonneg (sub_nonneg.mpr hst)]

omit [LinearOrder K] [IsStrictOrderedRing K] in
theorem line_start (a b x y : K) : line a b x y a = x := by
  rw [line, sub_self, zero_div, mul_zero, add_zero]

theorem line_stop {a b : K} (hab : a < b) (x y : K) : line a b x y b = y := by
  rw [line, div_self (sub_pos.mpr hab).ne']
  ring

theorem line_between {a b : K} (hab : a < b) (x y : K) {t : K} (ha : a ≤ t) (hb : t ≤ b) :
    min x y ≤ line a b x y t ∧ line a b x y t ≤ max x y := by
  have hgap : 0 < b - a := sub_pos.mpr hab
  have hlo : 0 ≤ (t - a) / (b - a) := div_nonneg (sub_nonneg.mpr ha) hgap.le
  have hhi : (t - a) / (b - a) ≤ 1 := (div_le_one hgap).mpr (by linarith)
  rw [line]
  rcases le_total x y with hxy | hyx
  · have hfar := mul_le_mul_of_nonneg_left hhi (sub_nonneg.mpr hxy)
    have hnear := mul_nonneg (sub_nonneg.mpr hxy) hlo
    rw [min_eq_left hxy, max_eq_right hxy]
    constructor <;> linarith
  · have hfar := mul_le_mul_of_nonpos_left hhi (sub_nonpos.mpr hyx)
    have hnear := mul_nonpos_of_nonpos_of_nonneg (sub_nonpos.mpr hyx) hlo
    rw [min_eq_right hyx, max_eq_left hyx]
    constructor <;> linarith

theorem Within.wait (h : Within limit path Set.univ) (hlimit : 0 ≤ limit) (c : K) :
    Within limit (fun t => path (max t c)) times := by
  intro s _ t _ hst
  have hmax : max s c ≤ max t c := max_le_max_right c hst
  have hlater : max t c - max s c ≤ t - s := by
    rcases le_total t c with htc | htc
    · rw [max_eq_right htc, max_eq_right (hst.trans htc)]
      linarith
    · rw [max_eq_left htc]
      linarith [le_max_left s c]
  exact (h _ trivial _ trivial hmax).trans (mul_le_mul_of_nonneg_left hlater hlimit)

theorem Within.stop (h : Within limit path Set.univ) (hlimit : 0 ≤ limit) (c : K) :
    Within limit (fun t => path (min t c)) times := by
  intro s _ t _ hst
  have hmin : min s c ≤ min t c := min_le_min_right c hst
  have hlater : min t c - min s c ≤ t - s := by
    rcases le_total s c with hsc | hsc
    · rw [min_eq_left hsc]
      linarith [min_le_left t c]
    · rw [min_eq_right hsc, min_eq_right (hsc.trans hst)]
      linarith
  exact (h _ trivial _ trivial hmin).trans (mul_le_mul_of_nonneg_left hlater hlimit)

theorem Within.glue {c : K} (hbefore : Within limit path (Set.Iic c))
    (hafter : Within limit path (Set.Ici c)) : Within limit path Set.univ := by
  intro s _ t _ hst
  rcases le_total t c with htc | htc
  · exact hbefore s (hst.trans htc) t htc hst
  rcases le_total c s with hcs | hcs
  · exact hafter s hcs t htc hst
  calc |path t - path s| ≤ |path t - path c| + |path c - path s| := abs_sub_le _ _ _
    _ ≤ limit * (t - c) + limit * (c - s) :=
        add_le_add (hafter c le_rfl t htc htc) (hbefore s hcs c le_rfl hcs)
    _ = limit * (t - s) := by ring

end F4MP.Library.SpeedLimit
