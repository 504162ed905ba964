import Mathlib.Data.List.Induction
import Mathlib.Logic.Function.Basic

/-!
A partial function kept up to date by insertions and erasures, against the relation
it is meant to show.
-/

namespace F4MP.Library.PartialView

variable {κ ν : Type*}

/-- The view has exactly the entries that are present. -/
def Shows (view : κ → Option ν) (present : κ → ν → Prop) : Prop :=
  ∀ key value, view key = some value ↔ present key value

theorem Shows.congr {view : κ → Option ν} {present present' : κ → ν → Prop}
    (h : Shows view present) (hpresent : ∀ key value, present' key value ↔ present key value) :
    Shows view present' := fun key value =>
  (h key value).trans (hpresent key value).symm

variable [DecidableEq κ]

theorem Shows.insert {view : κ → Option ν} {present present' : κ → ν → Prop} {key : κ} {value : ν}
    (h : Shows view present)
    (hpresent : ∀ k v, present' k v ↔ (k = key ∧ v = value) ∨ (k ≠ key ∧ present k v)) :
    Shows (Function.update view key (some value)) present' := by
  intro k v
  rw [hpresent]
  by_cases hk : k = key
  · subst hk
    rw [Function.update_self, Option.some.injEq]
    exact ⟨fun hv => .inl ⟨rfl, hv.symm⟩, fun hv => hv.elim (fun hv => hv.2.symm) fun hv =>
      absurd rfl hv.1⟩
  · rw [Function.update_of_ne hk, h k v]
    exact ⟨fun hv => .inr ⟨hk, hv⟩, fun hv => hv.elim (fun hv => absurd hv.1 hk) (·.2)⟩

theorem Shows.erase {view : κ → Option ν} {present present' : κ → ν → Prop} {key : κ}
    (h : Shows view present) (hpresent : ∀ k v, present' k v ↔ k ≠ key ∧ present k v) :
    Shows (Function.update view key none) present' := by
  intro k v
  rw [hpresent]
  by_cases hk : k = key
  · subst hk
    rw [Function.update_self]
    exact ⟨by rintro ⟨⟩, fun hv => absurd rfl hv.1⟩
  · rw [Function.update_of_ne hk, h k v]
    exact ⟨fun hv => ⟨hk, hv⟩, fun hv => hv.2⟩

def insertAll (view : κ → Option ν) (entries : List (κ × ν)) : κ → Option ν :=
  entries.foldl (fun view entry => Function.update view entry.1 (some entry.2)) view

def eraseAll (view : κ → Option ν) (keys : List κ) : κ → Option ν :=
  keys.foldl (fun view key => Function.update view key none) view

@[simp] theorem insertAll_nil (view : κ → Option ν) : insertAll view [] = view := rfl

@[simp] theorem insertAll_cons (view : κ → Option ν) (entry : κ × ν) (entries : List (κ × ν)) :
    insertAll view (entry :: entries) =
      insertAll (Function.update view entry.1 (some entry.2)) entries := rfl

theorem insertAll_append (view : κ → Option ν) (entries more : List (κ × ν)) :
    insertAll view (entries ++ more) = insertAll (insertAll view entries) more :=
  List.foldl_append

@[simp] theorem eraseAll_nil (view : κ → Option ν) : eraseAll view [] = view := rfl

@[simp] theorem eraseAll_cons (view : κ → Option ν) (key : κ) (keys : List κ) :
    eraseAll view (key :: keys) = eraseAll (Function.update view key none) keys := rfl

/-- Inserting a list whose keys determine their values shows that list. -/
theorem shows_insertAll {entries : List (κ × ν)}
    (hentries : ∀ key v w, (key, v) ∈ entries → (key, w) ∈ entries → v = w) :
    Shows (insertAll (fun _ => none) entries) fun key value => (key, value) ∈ entries := by
  induction entries using List.reverseRecOn with
  | nil => exact fun key value => ⟨by rintro ⟨⟩, by rintro ⟨⟩⟩
  | append_singleton entries entry ih =>
      rw [insertAll_append]
      refine (ih fun key v w hv hw => hentries key v w (List.mem_append_left _ hv)
        (List.mem_append_left _ hw)).insert fun k v => ?_
      rw [List.mem_append, List.mem_singleton]
      constructor
      · rintro (hold | rfl)
        · by_cases hk : k = entry.1
          · refine .inl ⟨hk, ?_⟩
            subst hk
            exact hentries _ _ _ (List.mem_append_left _ hold) (by simp)
          · exact .inr ⟨hk, hold⟩
        · exact .inl ⟨rfl, rfl⟩
      · rintro (⟨rfl, rfl⟩ | ⟨-, hold⟩)
        · exact .inr rfl
        · exact .inl hold

theorem Shows.eraseAll {view : κ → Option ν} {present : κ → ν → Prop} (h : Shows view present)
    (keys : List κ) :
    Shows (eraseAll view keys) fun key value => key ∉ keys ∧ present key value := by
  induction keys generalizing view present with
  | nil => exact h.congr fun key value => by simp
  | cons first keys ih =>
      have hfirst : Shows (Function.update view first none) fun k v => k ≠ first ∧ present k v :=
        h.erase fun k v => Iff.rfl
      refine (ih hfirst).congr fun k v => ?_
      rw [List.mem_cons, not_or]
      exact ⟨fun hv => ⟨hv.1.2, hv.1.1, hv.2⟩, fun hv => ⟨⟨hv.2.1, hv.1⟩, hv.2.2⟩⟩

end F4MP.Library.PartialView
