import Mathlib.Data.List.Basic

/-!
A wire with two channels.  What is posted on the first arrives complete and in order,
what is posted on the second in order but for losses; there is no order between the two.
-/

namespace F4MP.Library.Wires

variable {α : Type*} {first : α → Bool}

/-- What was posted on a wire, what arrived, and what is under way on the first channel and
on the second. -/
structure Wire (first : α → Bool) where
  posted : List α
  arrived : List α
  ordered : List α
  loose : List α
  kept : posted.filter first = arrived.filter first ++ ordered
  thinned : (arrived.filter (!first ·) ++ loose).Sublist (posted.filter (!first ·))

def Wire.empty : Wire first where
  posted := []
  arrived := []
  ordered := []
  loose := []
  kept := rfl
  thinned := List.Sublist.refl _

def Wire.post (w : Wire first) (x : α) : Wire first where
  posted := w.posted ++ [x]
  arrived := w.arrived
  ordered := w.ordered ++ if first x then [x] else []
  loose := w.loose ++ if first x then [] else [x]
  kept := by
    rw [List.filter_append, w.kept, List.append_assoc]
    cases hx : first x <;> simp [hx]
  thinned := by
    rw [List.filter_append, ← List.append_assoc]
    refine w.thinned.append ?_
    cases hx : first x <;> simp [hx]

def Wire.postAll (w : Wire first) (xs : List α) : Wire first := xs.foldl Wire.post w

section Arrivals

variable {w w' : Wire first} {x : α} {rest lost : List α}

theorem Wire.first_of_ordered (h : w.ordered = x :: rest) : first x = true := by
  have hmem : x ∈ w.posted.filter first := by
    rw [w.kept, h]
    simp
  exact (List.mem_filter.mp hmem).2

theorem Wire.not_first_of_loose (h : w.loose = lost ++ x :: rest) : first x = false := by
  have hmem : x ∈ w.posted.filter (!first ·) := by
    refine w.thinned.subset ?_
    rw [h]
    simp
  simpa using (List.mem_filter.mp hmem).2

/-- The next packet of the first channel arrives. -/
def Wire.takeOrdered (w : Wire first) (h : w.ordered = x :: rest) : Wire first where
  posted := w.posted
  arrived := w.arrived ++ [x]
  ordered := rest
  loose := w.loose
  kept := by
    have hx := Wire.first_of_ordered h
    simp [w.kept, h, hx]
  thinned := by
    have hx := Wire.first_of_ordered h
    simpa [hx] using w.thinned

/-- A packet of the second channel arrives, and those before it are lost. -/
def Wire.takeLoose (w : Wire first) (h : w.loose = lost ++ x :: rest) : Wire first where
  posted := w.posted
  arrived := w.arrived ++ [x]
  ordered := w.ordered
  loose := rest
  kept := by
    have hx := Wire.not_first_of_loose h
    simpa [hx] using w.kept
  thinned := by
    have hx := Wire.not_first_of_loose h
    refine List.Sublist.trans ?_ w.thinned
    rw [h, List.filter_append]
    simp [hx]

/-- One packet arrives. -/
inductive Arrives (w : Wire first) (x : α) : Wire first → Prop
  | ordered {rest : List α} (h : w.ordered = x :: rest) : Arrives w x (w.takeOrdered h)
  | loose {lost rest : List α} (h : w.loose = lost ++ x :: rest) : Arrives w x (w.takeLoose h)

theorem Arrives.posted_eq (h : Arrives w x w') : w'.posted = w.posted := by
  cases h <;> rfl

theorem Arrives.arrived_eq (h : Arrives w x w') : w'.arrived = w.arrived ++ [x] := by
  cases h <;> rfl

end Arrivals

@[simp] theorem Wire.posted_postAll (w : Wire first) (xs : List α) :
    (w.postAll xs).posted = w.posted ++ xs := by
  induction xs generalizing w with
  | nil => exact (List.append_nil _).symm
  | cons x xs ih =>
      rw [postAll, List.foldl_cons, ← postAll, ih, post, List.append_assoc]
      rfl

@[simp] theorem Wire.arrived_postAll (w : Wire first) (xs : List α) :
    (w.postAll xs).arrived = w.arrived := by
  induction xs generalizing w with
  | nil => rfl
  | cons x xs ih =>
      rw [postAll, List.foldl_cons, ← postAll, ih]
      rfl

/-- What arrived on the first channel is the beginning of what was posted there. -/
theorem Wire.front (w : Wire first) : w.arrived.filter first <+: w.posted.filter first :=
  ⟨w.ordered, w.kept.symm⟩

theorem Wire.remnant (w : Wire first) :
    (w.arrived.filter (!first ·)).Sublist (w.posted.filter (!first ·)) :=
  (List.sublist_append_left _ _).trans w.thinned

theorem Wire.arrived_of_ordered {w : Wire first} (h : w.ordered = []) :
    w.arrived.filter first = w.posted.filter first := by
  rw [w.kept, h, List.append_nil]

end F4MP.Library.Wires
