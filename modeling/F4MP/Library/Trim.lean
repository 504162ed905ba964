import Mathlib.Data.List.DropRight

/-!
Trimming a list at both ends of what a predicate holds of: what is left, that padding is
all that is lost, and when a list cut short is trimmed to the same.
-/

namespace F4MP.Library.Trim

variable {α : Type*}

def trim (p : α → Bool) (l : List α) : List α := (l.rdropWhile p).dropWhile p

/-- Nothing to trim at either end. -/
structure Trimmed (p : α → Bool) (l : List α) : Prop where
  head : ∀ x ∈ l.head?, p x = false
  last : ∀ x ∈ l.getLast?, p x = false

variable {p : α → Bool} {l : List α}

theorem isInfix_trim (p : α → Bool) (l : List α) : trim p l <:+: l :=
  (List.dropWhile_suffix p).isInfix.trans (List.rdropWhile_prefix p l).isInfix

theorem trimmed_trim (p : α → Bool) (l : List α) : Trimmed p (trim p l) where
  head x hx := by
    have hhead := List.head?_dropWhile_not p (l.rdropWhile p)
    rw [show (List.dropWhile p (l.rdropWhile p)).head? = some x from hx] at hhead
    exact hhead
  last x hx := by
    have hsuffix : trim p l <:+ l.rdropWhile p := List.dropWhile_suffix p
    obtain ⟨before, heq⟩ := hsuffix
    have hlast : (l.rdropWhile p).getLast? = some x := by
      rw [← heq, List.getLast?_append, hx]
      rfl
    obtain ⟨hne, rfl⟩ := List.mem_getLast?_eq_getLast hlast
    simpa using List.rdropWhile_last_not p l hne

theorem Trimmed.trim_eq (h : Trimmed p l) : trim p l = l := by
  have hright : l.rdropWhile p = l := by
    rw [List.rdropWhile_eq_self_iff]
    intro hne
    simp [h.last _ (List.getLast_mem_getLast? hne)]
  rw [trim, hright]
  cases l with
  | nil => rfl
  | cons x l => rw [List.dropWhile_cons_of_neg (by simp [h.head x rfl])]

theorem trim_eq_nil_iff : trim p l = [] ↔ ∀ x ∈ l, p x = true := by
  constructor
  · intro h
    rw [trim, List.dropWhile_eq_nil_iff] at h
    have hright : l.rdropWhile p = [] := by
      by_contra hne
      exact List.rdropWhile_last_not p l hne (h _ (List.getLast_mem hne))
    exact List.rdropWhile_eq_nil_iff.mp hright
  · intro h
    rw [trim, List.rdropWhile_eq_nil_iff.mpr h]
    rfl

theorem trim_append {pad : List α} (hpad : ∀ x ∈ pad, p x = true) (l : List α) :
    trim p (l ++ pad) = trim p l := by
  have hright : (l ++ pad).rdropWhile p = l.rdropWhile p := by
    rw [List.rdropWhile, List.reverse_append, List.dropWhile_append_of_pos (by simpa using hpad)]
    rfl
  rw [trim, hright]
  rfl

theorem trim_append_left {pad : List α} (hpad : ∀ x ∈ pad, p x = true) (l : List α) :
    trim p (pad ++ l) = trim p l := by
  by_cases hall : ∀ x ∈ l, p x = true
  · rw [trim_eq_nil_iff.mpr hall, trim_eq_nil_iff]
    intro x hx
    exact (List.mem_append.mp hx).elim (hpad x) (hall x)
  · have hright : (pad ++ l).rdropWhile p = pad ++ l.rdropWhile p := by
      rw [List.rdropWhile, List.reverse_append, List.dropWhile_append, if_neg]
      · simp [List.rdropWhile]
      · simpa [List.isEmpty_iff] using hall
    rw [trim, hright, List.dropWhile_append_of_pos hpad]
    rfl

/-- A list is what is trimmed at its ends and what is left in between. -/
theorem exists_trim_append (p : α → Bool) (l : List α) :
    ∃ pad, (∀ x ∈ pad, p x = true) ∧ l.takeWhile p ++ trim p l ++ pad = l := by
  by_cases hall : ∀ x ∈ l, p x = true
  · refine ⟨[], by rintro _ ⟨⟩, ?_⟩
    rw [trim_eq_nil_iff.mpr hall, List.takeWhile_eq_self_iff.mpr hall, List.append_nil,
      List.append_nil]
  · refine ⟨l.rtakeWhile p, fun x hx => List.mem_rtakeWhile_imp hx, ?_⟩
    have hfront : l.takeWhile p = (l.rdropWhile p).takeWhile p := by
      conv_lhs => rw [← List.rdropWhile_append_rtakeWhile (p := p) (l := l)]
      rw [List.takeWhile_append, if_neg]
      intro hlength
      have hself := (List.takeWhile_prefix p).eq_of_length hlength
      have hnil : trim p l = [] := by
        rw [trim, List.dropWhile_eq_nil_iff]
        exact List.takeWhile_eq_self_iff.mp hself
      exact hall (trim_eq_nil_iff.mp hnil)
    rw [hfront, trim, List.takeWhile_append_dropWhile, List.rdropWhile_append_rtakeWhile]

/-- A list cut short is trimmed to the same exactly if no more than what is trimmed
behind was cut off. -/
theorem trim_take_eq_iff {count : Nat} :
    trim p (l.take count) = trim p l ↔ (l.rdropWhile p).length ≤ count := by
  have hsplit : l.rdropWhile p ++ l.rtakeWhile p = l := List.rdropWhile_append_rtakeWhile
  have hpad : ∀ x ∈ l.rtakeWhile p, p x = true := fun x hx => List.mem_rtakeWhile_imp hx
  constructor
  · intro heq
    by_contra hcut
    rw [not_le] at hcut
    -- what is left of the front is padding and a proper part of what the trimmed list is
    have hfront : l.take count = ((l.rdropWhile p).takeWhile p ++ trim p l).take count := by
      rw [trim, List.takeWhile_append_dropWhile]
      conv_lhs => rw [← hsplit, List.take_append_of_le_length hcut.le]
    have hlength : (l.rdropWhile p).length =
        ((l.rdropWhile p).takeWhile p).length + (trim p l).length := by
      rw [trim, ← List.length_append, List.takeWhile_append_dropWhile]
    have hne : trim p l ≠ [] := by
      intro hnil
      rw [List.rdropWhile_eq_nil_iff.mpr (trim_eq_nil_iff.mp hnil)] at hcut
      exact absurd hcut (Nat.not_lt_zero _)
    have hpos := List.length_pos_iff.mpr hne
    rw [hfront, List.take_append, trim_append_left] at heq
    · have hle := (isInfix_trim p ((trim p l).take
        (count - ((l.rdropWhile p).takeWhile p).length))).length_le
      rw [heq, List.length_take] at hle
      omega
    · exact fun x hx => List.mem_takeWhile_imp (List.mem_of_mem_take hx)
  · intro hfits
    have hfront : l.take count = l.rdropWhile p ++
        (l.rtakeWhile p).take (count - (l.rdropWhile p).length) := by
      conv_lhs => rw [← hsplit, List.take_append, List.take_of_length_le hfits]
    rw [hfront, trim_append fun x hx => hpad x (List.mem_of_mem_take hx), ← trim_append hpad,
      hsplit]

end F4MP.Library.Trim
