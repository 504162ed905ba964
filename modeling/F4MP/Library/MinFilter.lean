import Mathlib.Algebra.Order.Ring.Defs
import Mathlib.Data.List.Induction
import Mathlib.Tactic.Linarith
import Mathlib.Tactic.Ring

/-!
A minimum filter that drifts: an estimate takes a lower sample over at once and goes a
part of the way up to a higher one.
-/

namespace F4MP.Library.MinFilter

variable {K : Type*} [CommRing K] [LinearOrder K]

def follow (rate estimate sample : K) : K :=
  if sample < estimate then sample else estimate + (sample - estimate) * rate

variable [IsStrictOrderedRing K] {rate estimate : K}

theorem follow_le_sample (hone : rate ≤ 1) (sample : K) : follow rate estimate sample ≤ sample := by
  rw [follow]
  split
  next => exact le_rfl
  next hle =>
    have hup := mul_le_mul_of_nonneg_left hone (sub_nonneg.mpr (not_lt.mp hle))
    linarith

theorem le_follow (hrate : 0 ≤ rate) {lower sample : K} (hestimate : lower ≤ estimate)
    (hsample : lower ≤ sample) : lower ≤ follow rate estimate sample := by
  rw [follow]
  split
  next => exact hsample
  next hle =>
    have hup := mul_nonneg (sub_nonneg.mpr (not_lt.mp hle)) hrate
    linarith

theorem le_foldl_follow (hrate : 0 ≤ rate) {lower : K} (hestimate : lower ≤ estimate)
    {samples : List K} (hsamples : ∀ sample ∈ samples, lower ≤ sample) :
    lower ≤ samples.foldl (follow rate) estimate := by
  induction samples generalizing estimate with
  | nil => exact hestimate
  | cons sample samples ih =>
      obtain ⟨hsample, hlater⟩ := List.forall_mem_cons.mp hsamples
      exact ih (le_follow hrate hestimate hsample) hlater

/-- Samples that are above the first estimate by `late` at most raise it, whatever their
order, by no more than the same number of samples that are as high as that. -/
theorem foldl_follow_le (hrate : 0 ≤ rate) (hone : rate ≤ 1) {late : K} (hlate : 0 ≤ late)
    {samples : List K} (hsamples : ∀ sample ∈ samples, sample ≤ estimate + late) :
    samples.foldl (follow rate) estimate ≤
      estimate + (1 - (1 - rate) ^ samples.length) * late := by
  induction samples using List.reverseRecOn with
  | nil => simp
  | append_singleton samples sample ih =>
      have hbefore := ih fun other hother => hsamples other (List.mem_append_left _ hother)
      have hsample := hsamples sample (List.mem_append_right _ List.mem_cons_self)
      have hpow : 0 ≤ (1 - rate) ^ samples.length * rate * late :=
        mul_nonneg (mul_nonneg (pow_nonneg (sub_nonneg.mpr hone) _) hrate) hlate
      rw [List.foldl_append, List.foldl_cons, List.foldl_nil, List.length_append,
        List.length_singleton, pow_succ]
      generalize samples.foldl (follow rate) estimate = current at hbefore
      rw [follow]
      split
      · linarith
      · have hdown := mul_le_mul_of_nonneg_left hbefore (sub_nonneg.mpr hone)
        have hup := mul_le_mul_of_nonneg_right hsample hrate
        calc current + (sample - current) * rate = (1 - rate) * current + sample * rate := by ring
          _ ≤ (1 - rate) * (estimate + (1 - (1 - rate) ^ samples.length) * late) +
              (estimate + late) * rate := add_le_add hdown hup
          _ = estimate + (1 - (1 - rate) ^ samples.length * (1 - rate)) * late := by ring

end F4MP.Library.MinFilter
