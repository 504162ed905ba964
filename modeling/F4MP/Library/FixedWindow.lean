import Mathlib.Data.List.Basic

/-!
A rate limiter that keeps the start of one window and a counter.  A hit that comes a whole
window after the start opens the next window; what a hit is good for depends on its
number in the window alone.
-/

namespace F4MP.Library.FixedWindow

structure Limiter where
  start : Nat := 0
  count : Nat := 0

def Limiter.roll (window : Nat) (limiter : Limiter) (now : Nat) : Limiter :=
  if window ≤ now - limiter.start then { start := now, count := 0 } else limiter

def Limiter.hit (window : Nat) (limiter : Limiter) (now : Nat) : Limiter :=
  { limiter.roll window now with count := (limiter.roll window now).count + 1 }

/-- The hits between `a` and `a + window` whose number in their window is good. -/
def goodHits (window : Nat) (good : Nat → Bool) (a : Nat) (limiter : Limiter) : List Nat → Nat
  | [] => 0
  | now :: times =>
      (if a ≤ now && now < a + window && good (limiter.hit window now).count then 1 else 0) +
        goodHits window good a (limiter.hit window now) times

variable {window : Nat} {good : Nat → Bool} {a : Nat}

theorem goodHits_late (limiter : Limiter) {times : List Nat}
    (hlate : ∀ now ∈ times, a + window ≤ now) : goodHits window good a limiter times = 0 := by
  induction times generalizing limiter with
  | nil => rfl
  | cons now times ih =>
      have hnow := hlate now List.mem_cons_self
      rw [goodHits, ih _ fun other hother => hlate other (List.mem_cons_of_mem _ hother)]
      rw [if_neg]
      simp only [Bool.and_eq_true, decide_eq_true_eq]
      omega

section Budget

/-- How many more hits of a window can be good after `count` of them. -/
def Budget (good : Nat → Bool) (budget : Nat → Nat) : Prop :=
  ∀ count, (if good (count + 1) then 1 else 0) + budget (count + 1) ≤ budget count

variable {budget : Nat → Nat}

theorem Budget.antitone (h : Budget good budget) {m n : Nat} (hle : m ≤ n) :
    budget n ≤ budget m := by
  induction hle with
  | refl => exact Nat.le_refl _
  | @step n _ ih => exact Nat.le_trans (Nat.le_trans (Nat.le_add_left _ _) (h n)) ih

theorem goodHits_cons_le (limiter : Limiter) (now : Nat) (times : List Nat) {bound : Nat}
    (hrest : goodHits window good a (limiter.hit window now) times ≤ bound) :
    goodHits window good a limiter (now :: times) ≤
      (if good (limiter.hit window now).count then 1 else 0) + bound := by
  rw [goodHits]
  refine Nat.add_le_add ?_ hrest
  cases good (limiter.hit window now).count with
  | false => simp
  | true =>
      rw [if_pos rfl]
      split <;> omega

/-- Once the window opened at `a` or later, there is no other before `a + window`. -/
theorem goodHits_le_of_opened (h : Budget good budget) (hwindow : 0 < window)
    {limiter : Limiter} {times : List Nat} (htimes : times.Pairwise (· ≤ ·)) (hopened : a ≤ limiter.start) :
    goodHits window good a limiter times ≤ budget limiter.count := by
  induction times generalizing limiter with
  | nil => exact Nat.zero_le _
  | cons now times ih =>
      obtain ⟨hafter, htimes⟩ := List.pairwise_cons.mp htimes
      by_cases hnext : window ≤ now - limiter.start
      · -- the next window is out of reach
        have hlate : a + window ≤ now := by omega
        rw [goodHits_late]
        · exact Nat.zero_le _
        · intro other hother
          rcases List.mem_cons.mp hother with rfl | hother
          · exact hlate
          · exact Nat.le_trans hlate (hafter other hother)
      · have hroll : limiter.hit window now = { limiter with count := limiter.count + 1 } := by
          rw [Limiter.hit, Limiter.roll, if_neg hnext]
        have hrest := ih htimes
          (show a ≤ (limiter.hit window now).start by rw [hroll]; exact hopened)
        refine Nat.le_trans (goodHits_cons_le limiter now times hrest) ?_
        rw [hroll]
        exact h limiter.count

theorem goodHits_le_of_hit (h : Budget good budget) (hwindow : 0 < window) {limiter : Limiter}
    {now : Nat} {times : List Nat} (htimes : (now :: times).Pairwise (· ≤ ·))
    (hopened : a ≤ (limiter.hit window now).start) :
    goodHits window good a limiter (now :: times) ≤ budget 0 := by
  have hrest := goodHits_le_of_opened h hwindow (List.pairwise_cons.mp htimes).2 hopened
  refine Nat.le_trans (goodHits_cons_le limiter now times hrest) ?_
  exact Nat.le_trans (h (limiter.roll window now).count) (h.antitone (Nat.zero_le _))

theorem goodHits_le_of_begun (h : Budget good budget) (hwindow : 0 < window)
    {limiter : Limiter} {times : List Nat} (htimes : times.Pairwise (· ≤ ·)) (hbegun : ∀ now ∈ times, a ≤ now) :
    goodHits window good a limiter times ≤ budget limiter.count + budget 0 := by
  induction times generalizing limiter with
  | nil => exact Nat.zero_le _
  | cons now times ih =>
      obtain ⟨hafter, htimes'⟩ := List.pairwise_cons.mp htimes
      by_cases hnext : window ≤ now - limiter.start
      · have hroll : limiter.hit window now = { start := now, count := 0 + 1 } := by
          rw [Limiter.hit, Limiter.roll, if_pos hnext]
        refine Nat.le_trans (goodHits_le_of_hit h hwindow htimes ?_) (Nat.le_add_left _ _)
        rw [hroll]
        exact hbegun now List.mem_cons_self
      · have hroll : limiter.hit window now = { limiter with count := limiter.count + 1 } := by
          rw [Limiter.hit, Limiter.roll, if_neg hnext]
        have hrest : goodHits window good a (limiter.hit window now) times ≤ _ :=
          ih htimes' fun other hother => hbegun other (List.mem_cons_of_mem _ hother)
        refine Nat.le_trans (goodHits_cons_le limiter now times hrest) ?_
        rw [hroll, ← Nat.add_assoc]
        exact Nat.add_le_add_right (h limiter.count) _

/-- Whatever the interval, the hits good in it are those of two windows at most. -/
theorem goodHits_le (h : Budget good budget) (hwindow : 0 < window) (limiter : Limiter)
    {times : List Nat} (htimes : times.Pairwise (· ≤ ·)) :
    goodHits window good a limiter times ≤ budget 0 + budget 0 := by
  induction times generalizing limiter with
  | nil => exact Nat.zero_le _
  | cons now times ih =>
      by_cases hbegun : a ≤ now
      · refine Nat.le_trans (goodHits_le_of_begun h hwindow htimes ?_)
          (Nat.add_le_add_right (h.antitone (Nat.zero_le _)) _)
        intro other hother
        rcases List.mem_cons.mp hother with rfl | hother
        · exact hbegun
        · exact Nat.le_trans hbegun ((List.pairwise_cons.mp htimes).1 other hother)
      · rw [goodHits, if_neg (by simp [hbegun]), Nat.zero_add]
        exact ih _ (List.pairwise_cons.mp htimes).2

def Limiter.Worn (limiter : Limiter) : Prop := 0 < limiter.count ∨ limiter.start = 0

theorem Limiter.hit_worn (limiter : Limiter) (now : Nat) : (limiter.hit window now).Worn :=
  .inl (Nat.succ_pos _)

/-- The hit that opened the first of the two windows is not in the interval. -/
theorem goodHits_le_of_worn (h : Budget good budget) (hwindow : 0 < window) (hlater : window ≤ a)
    {limiter : Limiter} {times : List Nat} (htimes : times.Pairwise (· ≤ ·))
    (hworn : limiter.Worn) : goodHits window good a limiter times ≤ budget 1 + budget 0 := by
  induction times generalizing limiter with
  | nil => exact Nat.zero_le _
  | cons now times ih =>
      obtain ⟨hafter, htimes'⟩ := List.pairwise_cons.mp htimes
      by_cases hbegun : a ≤ now
      swap
      · rw [goodHits, if_neg (by simp [hbegun]), Nat.zero_add]
        exact ih htimes' (limiter.hit_worn now)
      have hall : ∀ other ∈ now :: times, a ≤ other := by
        intro other hother
        rcases List.mem_cons.mp hother with rfl | hother
        · exact hbegun
        · exact Nat.le_trans hbegun (hafter other hother)
      rcases hworn with hcount | hstart
      · exact Nat.le_trans (goodHits_le_of_begun h hwindow htimes hall)
          (Nat.add_le_add_right (h.antitone hcount) _)
      · -- the first hit of all opens a window
        have hopens : window ≤ now - limiter.start := by
          rw [hstart, Nat.sub_zero]
          exact Nat.le_trans hlater hbegun
        refine Nat.le_trans (goodHits_le_of_hit h hwindow htimes ?_) (Nat.le_add_left _ _)
        rw [Limiter.hit, Limiter.roll, if_pos hopens]
        exact hbegun

end Budget

end F4MP.Library.FixedWindow
