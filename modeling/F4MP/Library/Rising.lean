import Mathlib.Order.Defs.PartialOrder
import Mathlib.Data.List.Basic

/-!
Items that rise in time, each of which is in a log in the order of time: they are a part
of the log, in its order and none of them twice.
-/

namespace F4MP.Library.Rising

variable {α β γ τ : Type*}

theorem sublist_of_rising [Preorder τ] {time : α → τ} {stamp : β → τ} {value : α → γ}
    {entry : β → Option γ} {items : List α} {log : List β}
    (hrising : items.Pairwise fun a b => time a < time b)
    (hlog : log.Pairwise fun a b => stamp a ≤ stamp b)
    (hfound : ∀ a ∈ items, ∃ b ∈ log, stamp b = time a ∧ entry b = some (value a)) :
    (items.map value).Sublist (log.filterMap entry) := by
  induction log generalizing items with
  | nil =>
      cases items with
      | nil => exact .slnil
      | cons a items =>
          obtain ⟨b, hb, -⟩ := hfound a List.mem_cons_self
          cases hb
  | cons b log ih =>
      obtain ⟨hfirst, hsorted⟩ := List.pairwise_cons.mp hlog
      cases items with
      | nil => exact List.nil_sublist _
      | cons a items =>
          obtain ⟨hbefore, hrest⟩ := List.pairwise_cons.mp hrising
          obtain ⟨c, hc, hstamp, hentry⟩ := hfound a List.mem_cons_self
          -- the head of the log is not later than the first item, so no other item is there
          have hleast : stamp b ≤ time a := by
            rw [← hstamp]
            rcases List.mem_cons.mp hc with rfl | hc
            · exact le_rfl
            · exact hfirst c hc
          have hlater : ∀ a' ∈ items, ∃ b' ∈ log, stamp b' = time a' ∧
              entry b' = some (value a') := by
            intro a' ha'
            obtain ⟨b', hb', hstamp', hentry'⟩ := hfound a' (List.mem_cons_of_mem _ ha')
            rcases List.mem_cons.mp hb' with rfl | hb'
            · rw [hstamp'] at hleast
              exact absurd (lt_of_lt_of_le (hbefore a' ha') hleast) (lt_irrefl _)
            · exact ⟨b', hb', hstamp', hentry'⟩
          rcases List.mem_cons.mp hc with rfl | hc
          · rw [List.filterMap_cons_some hentry]
            exact (ih hrest hsorted hlater).cons_cons _
          · refine (ih hrising hsorted ?_).trans ((List.sublist_cons_self b log).filterMap entry)
            exact List.forall_mem_cons.mpr ⟨⟨c, hc, hstamp, hentry⟩, hlater⟩

/-- Of items no two of which have an entry there is at most one entry. -/
theorem filterMap_sublist_singleton {entry : β → Option γ} {log : List β} {x : γ}
    (halone : log.Pairwise fun a b => entry a = none ∨ entry b = none)
    (hentry : ∀ b ∈ log, ∀ y, entry b = some y → y = x) :
    (log.filterMap entry).Sublist [x] := by
  induction log with
  | nil => exact List.nil_sublist _
  | cons b log ih =>
      obtain ⟨hfirst, hrest⟩ := List.pairwise_cons.mp halone
      obtain ⟨hhead, htail⟩ := List.forall_mem_cons.mp hentry
      cases hb : entry b with
      | none =>
          rw [List.filterMap_cons_none hb]
          exact ih hrest htail
      | some y =>
          have hnone : log.filterMap entry = [] :=
            List.filterMap_eq_nil_iff.mpr fun c hc => (hfirst c hc).resolve_left (by simp [hb])
          rw [List.filterMap_cons_some hb, hnone, hhead y hb]

end F4MP.Library.Rising
