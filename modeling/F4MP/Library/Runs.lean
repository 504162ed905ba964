import Mathlib.Data.List.Induction

/-! Runs of a machine that takes one input at a time. -/

namespace F4MP.Library.Runs

variable {σ ι : Type*}

/-- The state after all the inputs. -/
def run (step : σ → ι → σ) (start : σ) (inputs : List ι) : σ := inputs.foldl step start

@[simp] theorem run_nil (step : σ → ι → σ) (start : σ) : run step start [] = start := rfl

@[simp] theorem run_concat (step : σ → ι → σ) (start : σ) (inputs : List ι) (input : ι) :
    run step start (inputs ++ [input]) = step (run step start inputs) input := by
  simp [run]

theorem run_append (step : σ → ι → σ) (start : σ) (inputs more : List ι) :
    run step start (inputs ++ more) = run step (run step start inputs) more :=
  List.foldl_append

/-- What holds at the start and is preserved by every step holds after every run.
The property may speak of the inputs taken so far. -/
theorem run_induction {P : List ι → σ → Prop} {step : σ → ι → σ} {start : σ}
    (hstart : P [] start)
    (hstep : ∀ inputs input, P inputs (run step start inputs) →
      P (inputs ++ [input]) (step (run step start inputs) input))
    (inputs : List ι) : P inputs (run step start inputs) := by
  induction inputs using List.reverseRecOn with
  | nil => exact hstart
  | append_singleton inputs input ih =>
      rw [run_concat]
      exact hstep inputs input ih

theorem run_invariant {P : σ → Prop} {step : σ → ι → σ} {start : σ} (hstart : P start)
    (hstep : ∀ s input, P s → P (step s input)) (inputs : List ι) : P (run step start inputs) :=
  run_induction (P := fun _ s => P s) hstart (fun _ _ ih => hstep _ _ ih) inputs

end F4MP.Library.Runs
