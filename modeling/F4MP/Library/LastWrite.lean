import Mathlib.Data.List.Basic

/-!
The last of a list of writes.  Whether an item writes, and what, may depend on all that
came before it.
-/

namespace F4MP.Library.LastWrite

variable {ι ν : Type*} {writes : List ι → ι → Option ν} {front rest : List ι} {x : ι} {v : ν}

/-- What the last write after `front` writes. -/
def lastAfter (writes : List ι → ι → Option ν) (front : List ι) : List ι → Option ν
  | [] => none
  | x :: rest => (lastAfter writes (front ++ [x]) rest).or (writes front x)

/-- No write after `front`. -/
def Unwritten (writes : List ι → ι → Option ν) (front rest : List ι) : Prop :=
  ∀ between other later, rest = between ++ other :: later →
    writes (front ++ between) other = none

theorem unwritten_cons :
    Unwritten writes front (x :: rest) ↔
      writes front x = none ∧ Unwritten writes (front ++ [x]) rest := by
  constructor
  · intro hnone
    refine ⟨?_, fun between other later hsplit => ?_⟩
    · have hhead := hnone [] x rest rfl
      rwa [List.append_nil] at hhead
    · have htail := hnone (x :: between) other later (congrArg (List.cons x) hsplit)
      rwa [List.append_assoc]
  · rintro ⟨hhead, htail⟩ between other later hsplit
    cases between with
    | nil =>
        obtain ⟨rfl, -⟩ := List.cons.inj hsplit
        rwa [List.append_nil]
    | cons y between =>
        obtain ⟨rfl, hrest⟩ := List.cons.inj hsplit
        have hlater := htail between other later hrest
        rwa [List.append_assoc] at hlater

theorem lastAfter_eq_none_iff : lastAfter writes front rest = none ↔ Unwritten writes front rest := by
  induction rest generalizing front with
  | nil =>
      refine iff_of_true rfl fun between other later hsplit => ?_
      cases between <;> cases hsplit
  | cons x rest ih =>
      rw [lastAfter, Option.or_eq_none_iff, ih, unwritten_cons, and_comm]

theorem lastAfter_append :
    ∀ middle, lastAfter writes front (middle ++ rest) =
      (lastAfter writes (front ++ middle) rest).or (lastAfter writes front middle) := by
  intro middle
  induction middle generalizing front with
  | nil => simp [lastAfter]
  | cons x middle ih =>
      rw [List.cons_append, lastAfter, lastAfter, ih, Option.or_assoc, List.append_assoc]
      rfl

theorem lastAfter_eq_some (hwrite : writes (front ++ rest) x = some v) {later : List ι}
    (hlast : Unwritten writes (front ++ rest ++ [x]) later) :
    lastAfter writes front (rest ++ x :: later) = some v := by
  rw [lastAfter_append, lastAfter, lastAfter_eq_none_iff.mpr hlast, hwrite]
  rfl

end F4MP.Library.LastWrite
