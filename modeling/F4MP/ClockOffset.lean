import Mathlib.Data.List.MinMax
import F4MP.RenderTime

/-!
The offset to the server's clock over a whole run: it is the filter of the samples noted
since the last `Clear`, whoever's states they came with, and lies between the lowest of
them and the last.
-/

namespace F4MP.ClockOffset

open F4MP.Types
open F4MP.Arith
open F4MP.RemotePlayersModel
open F4MP.RenderTime
open F4MP.Library.MinFilter
open F4MP.Library.Runs

variable {F : Type}

/-- The filter of some samples: none before the first one. -/
def Filters (timing : Timing F) : List ℚ → Prop
  | [] => timing.hasOffset = false
  | first :: later => timing.hasOffset = true ∧ timing.offsetMs = later.foldl (follow drift) first

theorem filters_note {timing : Timing F} {samples : List ℚ} (hfilters : Filters timing samples)
    (sample : ℚ) : Filters (timing.note sample) (samples ++ [sample]) := by
  cases samples with
  | nil =>
      have hnone : timing.hasOffset = false := hfilters
      exact ⟨rfl, by simp [Timing.note, hnone]⟩
  | cons first later =>
      obtain ⟨hoffset, hoffsetMs⟩ := hfilters
      exact ⟨rfl, by simp [Timing.note, hoffset, hoffsetMs]⟩

theorem Filters.congr {timing timing' : Timing F} {samples : List ℚ}
    (hfilters : Filters timing samples) (hoffset : timing'.hasOffset = timing.hasOffset)
    (hoffsetMs : timing'.offsetMs = timing.offsetMs) : Filters timing' samples := by
  cases samples with
  | nil => exact hoffset.trans hfilters
  | cons first later => exact ⟨hoffset.trans hfilters.1, hoffsetMs.trans hfilters.2⟩

theorem Filters.bracket {timing : Timing F} {before : List ℚ} {sample : ℚ}
    (hfilters : Filters timing (before ++ [sample])) :
    timing.offsetMs ≤ sample ∧
      ∀ lower, (∀ other ∈ before ++ [sample], lower ≤ other) → lower ≤ timing.offsetMs := by
  cases before with
  | nil =>
      obtain ⟨-, hoffsetMs⟩ := hfilters
      rw [hoffsetMs]
      exact ⟨le_rfl, fun lower hlower => hlower sample List.mem_cons_self⟩
  | cons first later =>
      obtain ⟨-, hoffsetMs⟩ := hfilters
      rw [hoffsetMs, List.append_eq]
      refine ⟨?_, fun lower hlower => ?_⟩
      · rw [List.foldl_append, List.foldl_cons, List.foldl_nil]
        exact follow_le_sample (by norm_num [drift]) sample
      · obtain ⟨hfirst, hlater⟩ := List.forall_mem_cons.mp hlower
        exact le_foldl_follow (by norm_num [drift]) hfirst hlater

/-- The samples noted since the last `Clear`, after one more operation. -/
def notedBy (scene : Scene F ℚ) (noted : List ℚ) : Op F ℚ → List ℚ
  | .clear => []
  | op => noted ++ (sampleOf scene op).toList

variable [CppFloat F] [Libm F] [Narrow ℚ F] [Widen F ℚ]

/-- The samples noted since the last `Clear` of a run. -/
def notedAfter (scene : Scene F ℚ) (noted : List ℚ) : List (PlayerOrder F × Op F ℚ) → List ℚ
  | [] => noted
  | input :: inputs =>
      notedAfter (scene.step input) (notedBy (scene.reorder input.1) noted input.2) inputs

theorem filters_perform {scene : Scene F ℚ} {noted : List ℚ}
    (hfilters : Filters (timingOf scene) noted) (op : Op F ℚ) :
    Filters (timingOf (scene.perform op)) (notedBy scene noted op) := by
  by_cases hclear : op = .clear
  · subst hclear
    rfl
  · have hnoted : notedBy scene noted op = noted ++ (sampleOf scene op).toList := by
      cases op <;> first | rfl | exact absurd rfl hclear
    rw [hnoted]
    by_cases hcalm : Calm op
    · rw [timing_perform scene hcalm]
      cases hsample : sampleOf scene op with
      | none => simpa using hfilters
      | some sample => exact filters_note hfilters sample
    · cases op with
      | setInterpDelay interpDelayMs =>
          change Filters _ (noted ++ [])
          rw [List.append_nil]
          exact hfilters.congr rfl rfl
      | clear => exact absurd rfl hclear
      | _ => exact absurd trivial hcalm

theorem filters_run {scene : Scene F ℚ} {noted : List ℚ}
    (hfilters : Filters (timingOf scene) noted) (inputs : List (PlayerOrder F × Op F ℚ)) :
    Filters (timingOf (run Scene.step scene inputs)) (notedAfter scene noted inputs) := by
  induction inputs generalizing scene noted with
  | nil => exact hfilters
  | cons input inputs ih =>
      have hreordered : Filters (timingOf (scene.reorder input.1)) noted := hfilters
      exact ih (filters_perform hreordered input.2)

/-- After every state received in any run, the offset is at least the lowest sample since
the last `Clear` and at most the sample just noted: the estimated server time is neither
behind the stamp nor ahead of what the fastest packet implies. -/
theorem offset_bracketed (inputs : List (PlayerOrder F × Op F ℚ)) (order : PlayerOrder F)
    (id : PlayerId) (state : PlayerState F) (serverMs : UInt32) (localMs : ℚ) :
    let before := Scene.after inputs
    let stamp : ℚ := (before.remotes.serverClock.unwrap serverMs).1
    let sample := localMs - stamp
    let noted := notedAfter (Scene.initial F ℚ) [] inputs ++ [sample]
    let offsetMs := (before.step (order, .applyState id state serverMs localMs)).remotes.offsetMs
    ∃ smallest ∈ noted, (∀ other ∈ noted, smallest ≤ other) ∧
      smallest ≤ offsetMs ∧ offsetMs ≤ sample ∧
      stamp ≤ localMs - offsetMs ∧ localMs - offsetMs ≤ localMs - smallest := by
  have hstart : Filters (timingOf (Scene.initial F ℚ)) [] := rfl
  have hfilters : Filters (timingOf ((Scene.after inputs).reorder order))
      (notedAfter (Scene.initial F ℚ) [] inputs) := filters_run hstart inputs
  have hafter := filters_perform hfilters (.applyState id state serverMs localMs)
  obtain ⟨hsample, hlower⟩ := hafter.bracket
  intro before stamp sample noted offsetMs
  have hpos : 0 < noted.length := by simp [noted]
  have hsmallest : noted.minimum_of_length_pos hpos ≤ offsetMs :=
    hlower _ fun other hother => List.minimum_of_length_pos_le_of_mem hother hpos
  have hlast : offsetMs ≤ sample := hsample
  exact ⟨_, List.minimum_of_length_pos_mem hpos,
    fun other hother => List.minimum_of_length_pos_le_of_mem hother hpos, hsmallest, hlast,
    by linarith, by linarith⟩

end F4MP.ClockOffset
