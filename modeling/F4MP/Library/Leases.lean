import Mathlib.Data.Set.Insert
import Mathlib.Logic.Function.Basic
import Mathlib.Logic.Relation

/-!
Resources that are handed out one by one and held until they are given back: while
every move keeps the books, each resource that exists is held by exactly one holder.
-/

namespace F4MP.Library.Leases

/-- Who holds what.  Resources are numbered in the order they are handed out. -/
@[ext] structure Ledger (κ : Type*) where
  next : ℕ
  live : Set ℕ
  held : κ → Option ℕ

namespace Ledger

variable {κ : Type*}

/-- The books of a holder that gives back what it holds, if anything. -/
def release [DecidableEq κ] (l : Ledger κ) (holder : κ) : Ledger κ where
  next := l.next
  live := {r | r ∈ l.live ∧ l.held holder ≠ some r}
  held := Function.update l.held holder none

/-- The books of a holder that is handed a fresh resource. -/
def acquire [DecidableEq κ] (l : Ledger κ) (holder : κ) : Ledger κ where
  next := l.next + 1
  live := insert l.next l.live
  held := Function.update l.held holder (some l.next)

/-- The books after a resource is gone by itself. -/
def lapse (l : Ledger κ) (r : ℕ) : Ledger κ where
  next := l.next
  live := l.live \ {r}
  held := l.held

/-- The books after everyone gave back everything. -/
def releaseAll (l : Ledger κ) : Ledger κ where
  next := l.next
  live := {r | r ∈ l.live ∧ ∀ holder, l.held holder ≠ some r}
  held := fun _ => none

/-- One change of the books.  Only a holder of nothing that exists is handed
something. -/
inductive Move [DecidableEq κ] (l : Ledger κ) : Ledger κ → Prop where
  | release (holder : κ) : Move l (l.release holder)
  | acquire (holder : κ) (hidle : ∀ r, l.held holder = some r → r ∉ l.live) :
      Move l (l.acquire holder)
  | lapse (r : ℕ) : Move l (l.lapse r)
  | releaseAll : Move l l.releaseAll

abbrev Moves [DecidableEq κ] : Ledger κ → Ledger κ → Prop := Relation.ReflTransGen Move

/-- What exists is held by exactly one holder, and what is held was handed out. -/
structure Sound (l : Ledger κ) : Prop where
  owned : ∀ r ∈ l.live, ∃! holder, l.held holder = some r
  issued : ∀ holder r, l.held holder = some r → r < l.next

/-- Nothing, not even what no longer exists, is held by two. -/
def Exclusive (l : Ledger κ) : Prop :=
  ∀ holder other r, l.held holder = some r → l.held other = some r → holder = other

theorem Sound.live_lt {l : Ledger κ} (h : l.Sound) {r : ℕ} (hr : r ∈ l.live) : r < l.next := by
  obtain ⟨holder, hheld, -⟩ := h.owned r hr
  exact h.issued holder r hheld

variable [DecidableEq κ]

theorem held_release (l : Ledger κ) (holder other : κ) :
    (l.release holder).held other = if other = holder then none else l.held other :=
  Function.update_apply _ _ _ _

theorem held_acquire (l : Ledger κ) (holder other : κ) :
    (l.acquire holder).held other = if other = holder then some l.next else l.held other :=
  Function.update_apply _ _ _ _

theorem Sound.release {l : Ledger κ} (h : l.Sound) (holder : κ) : (l.release holder).Sound where
  owned := by
    rintro r ⟨hr, hkept⟩
    obtain ⟨other, hheld, honly⟩ := h.owned r hr
    have hother : other ≠ holder := by
      rintro rfl
      exact hkept hheld
    refine ⟨other, ((held_release ..).trans (if_neg hother)).trans hheld, fun third hthird => ?_⟩
    have hthird := (held_release ..).symm.trans hthird
    split at hthird
    · cases hthird
    · exact honly third hthird
  issued := by
    intro other r hheld
    rw [held_release] at hheld
    split at hheld
    · cases hheld
    · exact h.issued other r hheld

theorem Sound.acquire {l : Ledger κ} (h : l.Sound) {holder : κ}
    (hidle : ∀ r, l.held holder = some r → r ∉ l.live) : (l.acquire holder).Sound where
  owned := by
    rintro r (rfl | hr)
    · refine ⟨holder, (held_acquire ..).trans (if_pos rfl), fun other hother => ?_⟩
      have hother := (held_acquire ..).symm.trans hother
      split at hother
      · assumption
      · exact absurd (h.issued other _ hother) (Nat.lt_irrefl _)
    · obtain ⟨other, hheld, honly⟩ := h.owned r hr
      have hother : other ≠ holder := by
        rintro rfl
        exact hidle r hheld hr
      refine ⟨other, ((held_acquire ..).trans (if_neg hother)).trans hheld,
        fun third hthird => ?_⟩
      have hthird := (held_acquire ..).symm.trans hthird
      split at hthird
      · obtain rfl := Option.some.inj hthird
        exact absurd (h.live_lt hr) (Nat.lt_irrefl _)
      · exact honly third hthird
  issued := by
    intro other r hheld
    rw [held_acquire] at hheld
    split at hheld
    · obtain rfl := Option.some.inj hheld
      exact Nat.lt_succ_self _
    · exact (h.issued other r hheld).trans (Nat.lt_succ_self _)

theorem Sound.move {l l' : Ledger κ} (h : l.Sound) (hmove : Move l l') : l'.Sound := by
  cases hmove with
  | release holder => exact h.release holder
  | acquire holder hidle => exact h.acquire hidle
  | lapse r => exact ⟨fun r' hr' => h.owned r' hr'.1, h.issued⟩
  | releaseAll =>
      refine ⟨fun r hr => ?_, by rintro _ _ ⟨⟩⟩
      obtain ⟨holder, hheld, -⟩ := h.owned r hr.1
      exact absurd hheld (hr.2 holder)

theorem Sound.moves {l l' : Ledger κ} (h : l.Sound) (hmoves : Moves l l') : l'.Sound := by
  induction hmoves with
  | refl => exact h
  | tail _ hmove ih => exact ih.move hmove

theorem Exclusive.move {l l' : Ledger κ} (h : l.Exclusive) (hsound : l.Sound) (hmove : Move l l') :
    l'.Exclusive := by
  intro one other r hone hother
  cases hmove with
  | release holder =>
      rw [held_release] at hone hother
      split at hone
      · cases hone
      · split at hother
        · cases hother
        · exact h one other r hone hother
  | acquire holder hidle =>
      have hissued : ∀ k, l.held k ≠ some l.next := fun k hk =>
        Nat.lt_irrefl _ (hsound.issued k _ hk)
      rw [held_acquire] at hone hother
      split at hone
      · rename_i heq
        obtain rfl := Option.some.inj hone
        split at hother
        · rename_i heq'
          exact heq.trans heq'.symm
        · exact absurd hother (hissued other)
      · split at hother
        · obtain rfl := Option.some.inj hother
          exact absurd hone (hissued one)
        · exact h one other r hone hother
  | lapse r => exact h one other _ hone hother
  | releaseAll => cases hone

theorem Exclusive.moves {l l' : Ledger κ} (h : l.Exclusive) (hsound : l.Sound)
    (hmoves : Moves l l') : l'.Exclusive := by
  induction hmoves with
  | refl => exact h
  | tail hbefore hmove ih => exact ih.move (hsound.moves hbefore) hmove

omit [DecidableEq κ] in
theorem Sound.live_releaseAll {l : Ledger κ} (h : l.Sound) : l.releaseAll.live = ∅ := by
  apply Set.eq_empty_of_forall_notMem
  intro r hr
  obtain ⟨holder, hheld, -⟩ := h.owned r hr.1
  exact hr.2 holder hheld

end Ledger

end F4MP.Library.Leases
