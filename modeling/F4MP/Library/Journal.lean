import F4MP.Library.Runs

/-!
A machine run by a journal of commands: a journal is terse if every command of a kind
changes something, which one who pushes differences only makes sure of.
-/

namespace F4MP.Library.Journal

open F4MP.Library.Runs

variable {σ ι : Type*} {step : σ → ι → σ} {counts : ι → Prop} {start : σ}

/-- Every command that counts changes the state it is given in. -/
def Terse (step : σ → ι → σ) (counts : ι → Prop) (start : σ) (journal : List ι) : Prop :=
  ∀ earlier command later, journal = earlier ++ command :: later → counts command →
    step (run step start earlier) command ≠ run step start earlier

theorem terse_nil : Terse step counts start [] := by
  intro earlier command later hsplit
  simp at hsplit

theorem terse_append {journal more : List ι} :
    Terse step counts start (journal ++ more) ↔
      Terse step counts start journal ∧ Terse step counts (run step start journal) more := by
  constructor
  · intro h
    refine ⟨fun earlier command later hsplit => ?_, fun earlier command later hsplit => ?_⟩
    · exact h earlier command (later ++ more) (by simp [hsplit])
    · rw [← run_append]
      exact h (journal ++ earlier) command later (by simp [hsplit])
  · rintro ⟨hjournal, hmore⟩ earlier command later hsplit
    rcases List.append_eq_append_iff.mp hsplit with ⟨middle, rfl, hrest⟩ | ⟨middle, hrest, hsplit'⟩
    · rw [run_append]
      exact hmore middle command later hrest
    · cases middle with
      | nil =>
          rw [List.append_nil] at hrest
          rw [← hrest]
          exact hmore [] command later hsplit'.symm
      | cons head middle =>
          obtain ⟨rfl, -⟩ := List.cons.inj hsplit'
          exact hjournal earlier command middle hrest

theorem terse_concat {journal : List ι} {command : ι} :
    Terse step counts start (journal ++ [command]) ↔ Terse step counts start journal ∧
      (counts command →
        step (run step start journal) command ≠ run step start journal) := by
  refine terse_append.trans (and_congr_right fun _ => ⟨fun h => h [] command [] rfl, ?_⟩)
  rintro h earlier other later hsplit
  obtain ⟨rfl, hrest⟩ | ⟨tail, -, hrest⟩ := List.cons_eq_append_iff.mp hsplit
  · obtain ⟨rfl, -⟩ := List.cons.inj hrest
    exact h
  · simp at hrest

theorem Terse.append_idle {journal more : List ι} (h : Terse step counts start journal)
    (hmore : ∀ command ∈ more, ¬ counts command) : Terse step counts start (journal ++ more) := by
  refine terse_append.mpr ⟨h, fun earlier command later hsplit hcounts => ?_⟩
  exact absurd hcounts (hmore command (by simp [hsplit]))

/-- Commands that leave every state alone leave the state of a run alone. -/
theorem run_append_idle {journal more : List ι}
    (hmore : ∀ command ∈ more, ∀ s, step s command = s) :
    run step start (journal ++ more) = run step start journal := by
  rw [run_append]
  induction more with
  | nil => rfl
  | cons command more ih =>
      change run step (step (run step start journal) command) more = _
      rw [hmore command List.mem_cons_self]
      exact ih fun other hother => hmore other (List.mem_cons_of_mem _ hother)

end F4MP.Library.Journal
