import Mathlib.Data.List.Basic

/-!
The first and the last place of an item in a list, and how often it is there.
-/

namespace F4MP.Library.Occurrences

variable {α : Type*} {a : α} {before after : List α}

theorem exists_append_cons_of_mem {l : List α} (hmem : a ∈ l) :
    ∃ before after, l = before ++ a :: after ∧ a ∉ after := by
  obtain ⟨front, back, hsplit, hnot⟩ := List.eq_append_cons_of_mem (List.mem_reverse.mpr hmem)
  refine ⟨back.reverse, front.reverse, ?_, by simpa using hnot⟩
  have hreverse := congrArg List.reverse hsplit
  simpa using hreverse

variable [BEq α] [LawfulBEq α]

theorem idxOf?_append_cons (hbefore : a ∉ before) (after : List α) :
    (before ++ a :: after).idxOf? a = some before.length := by
  induction before with
  | nil => simp [List.idxOf?_cons]
  | cons b before ih =>
      obtain ⟨hne, hrest⟩ := not_or.mp (mt List.mem_cons.mpr hbefore)
      rw [List.cons_append, List.idxOf?_cons, if_neg (by simpa using Ne.symm hne), ih hrest]
      rfl

theorem count_append_cons (hbefore : a ∉ before) :
    (before ++ a :: after).count a = 1 ↔ a ∉ after := by
  rw [List.count_append, List.count_cons_self, List.count_eq_zero_of_not_mem hbefore, Nat.zero_add,
    Nat.add_eq_right, List.count_eq_zero]

theorem append_cons_inj {front back : List α} (hbefore : a ∉ before) (hafter : a ∉ after) :
    front ++ a :: back = before ++ a :: after ↔ front = before ∧ back = after := by
  constructor
  · intro heq
    have hcount := congrArg (List.count a) heq
    simp only [List.count_append, List.count_cons_self, List.count_eq_zero_of_not_mem hbefore,
      List.count_eq_zero_of_not_mem hafter] at hcount
    have hfront : a ∉ front := List.count_eq_zero.mp (by omega)
    have hindex := congrArg (List.idxOf? a) heq
    rw [idxOf?_append_cons hfront, idxOf?_append_cons hbefore, Option.some_inj] at hindex
    obtain ⟨hfronts, hbacks⟩ := List.append_inj heq hindex
    exact ⟨hfronts, (List.cons.inj hbacks).2⟩
  · rintro ⟨rfl, rfl⟩
    rfl

end F4MP.Library.Occurrences
