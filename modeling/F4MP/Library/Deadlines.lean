import F4MP.Library.Runs
import Mathlib.Tactic.Linarith

/-!
Machines that wait.  A state has a rank, which never grows, and an expiry: a frame that
finds nothing in its way leaves the state only to one of a lower rank, and does so once the
expiry has passed.  A machine with frames that are never far apart comes to rank zero in
bounded time.
-/

namespace F4MP.Library.Deadlines

open F4MP.Library.Runs

variable {σ ι : Type*}

/-- Inputs with times: a frame has a start and a finish, and no time passes at the others. -/
def Chronological (frame : ι → Option (Int × Int)) : Int → List ι → Prop
  | _, [] => True
  | last, input :: inputs =>
      match frame input with
      | none => Chronological frame last inputs
      | some (start, finish) =>
          last ≤ start ∧ start ≤ finish ∧ Chronological frame finish inputs

/-- The frames end no more than the gap after one another. -/
def Paced (frame : ι → Option (Int × Int)) (gap : Int) : Int → List ι → Prop
  | _, [] => True
  | last, input :: inputs =>
      match frame input with
      | none => Paced frame gap last inputs
      | some (_, finish) => finish ≤ last + gap ∧ Paced frame gap finish inputs

/-- The time after some inputs. -/
def timeAfter (frame : ι → Option (Int × Int)) (last : Int) (inputs : List ι) : Int :=
  inputs.foldl (fun last input => ((frame input).map (·.2)).getD last) last

theorem timeAfter_append (frame : ι → Option (Int × Int)) (last : Int) (inputs rest : List ι) :
    timeAfter frame last (inputs ++ rest) = timeAfter frame (timeAfter frame last inputs) rest :=
  List.foldl_append ..

theorem chronological_append {frame : ι → Option (Int × Int)} {last : Int} {inputs rest : List ι} :
    Chronological frame last (inputs ++ rest) ↔
      Chronological frame last inputs ∧ Chronological frame (timeAfter frame last inputs) rest := by
  induction inputs generalizing last with
  | nil => simp [Chronological, timeAfter]
  | cons input inputs ih =>
      rw [List.cons_append, Chronological, Chronological]
      cases hframe : frame input with
      | none =>
          have htime : timeAfter frame last (input :: inputs) = timeAfter frame last inputs := by
            simp [timeAfter, hframe]
          rw [htime]
          exact ih
      | some times =>
          obtain ⟨start, finish⟩ := times
          have htime : timeAfter frame last (input :: inputs) = timeAfter frame finish inputs := by
            simp [timeAfter, hframe]
          rw [htime]
          simp only [ih, and_assoc]

/-- A machine that waits.  `P` is what is known of a state at a time, and `calm` says of a
frame that nothing is in its way. -/
structure Waits (step : σ → ι → σ) (frame : ι → Option (Int × Int)) (rank : σ → Nat)
    (expiry : σ → Int) (patience : Int) (sound calm : ι → Prop) (P : Int → σ → Prop) : Prop where
  patient : 0 ≤ patience
  silent : ∀ {last s input}, P last s → sound input → frame input = none →
    P last (step s input) ∧ rank (step s input) = rank s ∧ expiry (step s input) = expiry s
  goes : ∀ {last s input start finish}, P last s → sound input →
    frame input = some (start, finish) → last ≤ start → start ≤ finish →
    P finish (step s input) ∧
      (rank (step s input) = rank s ∧ expiry (step s input) = expiry s ∧
          (calm input → rank s = 0 ∨ start ≤ expiry s) ∨
        rank (step s input) < rank s ∧ expiry (step s input) ≤ finish + patience)

section Machine

variable {step : σ → ι → σ} {frame : ι → Option (Int × Int)} {rank : σ → Nat} {expiry : σ → Int}
  {patience : Int} {sound calm : ι → Prop} {P : Int → σ → Prop}

/-- What is known stays known, the rank never grows, and no state expires later than the
patience from now. -/
theorem Waits.known (h : Waits step frame rank expiry patience sound calm P) {inputs : List ι}
    (hsound : ∀ input ∈ inputs, sound input) {last : Int} {s : σ}
    (htimes : Chronological frame last inputs) (hP : P last s) :
    P (timeAfter frame last inputs) (run step s inputs) ∧ rank (run step s inputs) ≤ rank s ∧
      (expiry s ≤ last + patience →
        expiry (run step s inputs) ≤ timeAfter frame last inputs + patience) := by
  induction inputs generalizing last s with
  | nil => exact ⟨hP, le_rfl, id⟩
  | cons input inputs ih =>
      obtain ⟨hinput, hinputs⟩ := List.forall_mem_cons.mp hsound
      rw [Chronological] at htimes
      cases hframe : frame input with
      | none =>
          rw [hframe] at htimes
          obtain ⟨hP', hrank, hsame⟩ := h.silent hP hinput hframe
          have hrest := ih hinputs htimes hP'
          rw [hrank, hsame] at hrest
          simpa [timeAfter, run, hframe] using hrest
      | some times =>
          obtain ⟨start, finish⟩ := times
          rw [hframe] at htimes
          obtain ⟨hstart, hfinish, htimes⟩ := htimes
          obtain ⟨hP', hstep⟩ := h.goes hP hinput hframe hstart hfinish
          obtain ⟨hP'', hrank', hexpiry'⟩ := ih hinputs htimes hP'
          have htime : timeAfter frame last (input :: inputs) = timeAfter frame finish inputs := by
            simp [timeAfter, hframe]
          rw [htime]
          refine ⟨hP'', ?_, fun hexpiry => hexpiry' ?_⟩
          · rcases hstep with ⟨hrank, -, -⟩ | ⟨hrank, -⟩
            · exact hrank'.trans hrank.le
            · exact hrank'.trans hrank.le
          · rcases hstep with ⟨-, hsame, -⟩ | ⟨-, hnew⟩
            · omega
            · exact hnew

/-- While nothing is in the way, a machine whose frames are no more than a gap apart is at
rank zero, or has not had its time yet. -/
theorem Waits.done (h : Waits step frame rank expiry patience sound calm P) {gap : Int}
    {inputs : List ι} (hsound : ∀ input ∈ inputs, sound input)
    (hcalm : ∀ input ∈ inputs, calm input) {last : Int} {s : σ}
    (htimes : Chronological frame last inputs) (hpaced : Paced frame gap last inputs) (hP : P last s)
    (hgap : 0 ≤ gap) :
    rank (run step s inputs) = 0 ∨ timeAfter frame last inputs ≤
      max (expiry s + gap) last + gap + rank s * (patience + 2 * gap) := by
  have hpatient := h.patient
  induction inputs generalizing last s with
  | nil =>
      refine .inr ?_
      have hpos : 0 ≤ (rank s : Int) * (patience + 2 * gap) := by positivity
      change last ≤ _
      omega
  | cons input inputs ih =>
      obtain ⟨hinput, hinputs⟩ := List.forall_mem_cons.mp hsound
      obtain ⟨hcalmly, hcalms⟩ := List.forall_mem_cons.mp hcalm
      rw [Chronological] at htimes
      rw [Paced] at hpaced
      cases hframe : frame input with
      | none =>
          rw [hframe] at htimes hpaced
          obtain ⟨hP', hrank, hsame⟩ := h.silent hP hinput hframe
          have hrest := ih hinputs hcalms htimes hpaced hP'
          rw [hrank, hsame] at hrest
          simpa [timeAfter, run, hframe] using hrest
      | some times =>
          obtain ⟨start, finish⟩ := times
          rw [hframe] at htimes hpaced
          obtain ⟨hstart, hfinish, htimes⟩ := htimes
          obtain ⟨hsoon, hpaced⟩ := hpaced
          obtain ⟨hP', hstep⟩ := h.goes hP hinput hframe hstart hfinish
          have hrest := ih hinputs hcalms htimes hpaced hP'
          have htime : timeAfter frame last (input :: inputs) = timeAfter frame finish inputs := by
            simp [timeAfter, hframe]
          have hrun : run step s (input :: inputs) = run step (step s input) inputs := rfl
          rw [htime, hrun]
          rcases hstep with ⟨hrank, hsame, hkept⟩ | ⟨hrank, hnew⟩
          · rcases hkept hcalmly with hzero | hopen
            · have hlow := (h.known hinputs htimes hP').2.1
              exact .inl (by omega)
            · -- the frame ends before the state has been expired for a gap
              rw [hrank, hsame] at hrest
              refine hrest.imp id fun hbound => hbound.trans ?_
              have hmax : max (expiry s + gap) finish ≤ max (expiry s + gap) last := by omega
              omega
          · -- the time of the new state is paid for by the rank
            refine hrest.imp id fun hbound => hbound.trans ?_
            have hpaid : (rank (step s input) : Int) * (patience + 2 * gap) + (patience + 2 * gap) ≤
                rank s * (patience + 2 * gap) := by
              have hless : (rank (step s input) : Int) + 1 ≤ rank s := by exact_mod_cast hrank
              have hmul := mul_le_mul_of_nonneg_right hless
                (by omega : (0 : Int) ≤ patience + 2 * gap)
              rwa [add_mul, one_mul] at hmul
            have hmax : max (expiry (step s input) + gap) finish ≤ finish + patience + gap := by omega
            omega

/-- From a start with a fresh expiry, the machine is at rank zero when, after inputs of any
kind, nothing has been in its way for the time of all the ranks. -/
theorem Waits.ends (h : Waits step frame rank expiry patience sound calm P) {gap : Int}
    {before quiet : List ι} (hsound : ∀ input ∈ before ++ quiet, sound input)
    (hcalm : ∀ input ∈ quiet, calm input) {last : Int} {s : σ}
    (htimes : Chronological frame last (before ++ quiet))
    (hpaced : Paced frame gap (timeAfter frame last before) quiet) (hP : P last s) {bound : Nat}
    (hrank : rank s ≤ bound) (hexpiry : expiry s ≤ last + patience) (hgap : 0 ≤ gap) :
    P (timeAfter frame last (before ++ quiet)) (run step s (before ++ quiet)) ∧
      (rank (run step s (before ++ quiet)) = 0 ∨ timeAfter frame last (before ++ quiet) ≤
        timeAfter frame last before + (bound + 1) * (patience + 2 * gap)) := by
  refine ⟨(h.known hsound htimes hP).1, ?_⟩
  obtain ⟨htimes, htimes'⟩ := chronological_append.mp htimes
  obtain ⟨hsound, hsound'⟩ := List.forall_mem_append.mp hsound
  obtain ⟨hP', hrank', hexpiry'⟩ := h.known hsound htimes hP
  rw [run_append, timeAfter_append]
  refine (h.done hsound' hcalm htimes' hpaced hP' hgap).imp id fun htime => htime.trans ?_
  have hpatient := h.patient
  have hmul := mul_le_mul_of_nonneg_right (Int.ofNat_le.mpr (hrank'.trans hrank))
    (by omega : 0 ≤ patience + 2 * gap)
  have hleft := hexpiry' hexpiry
  rw [add_mul, one_mul]
  omega

end Machine

end F4MP.Library.Deadlines
