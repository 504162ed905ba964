import Mathlib.Data.Rat.Sqrt
import F4MP.Library.MinFilter
import F4MP.Snapshots

/-!
The render time from one frame to another: it follows the local clock, except that the
offset to the server's clock drifts towards packets that took longer.
-/

namespace F4MP.RenderTime

open F4MP.Types
open F4MP.Arith
open F4MP.Interp
open F4MP.RemotePlayersModel
open F4MP.Library.MinFilter
open F4MP.Library.Runs

variable {F : Type}

/-- What a frame's render time is computed from. -/
structure Timing (F : Type) where
  hasOffset : Bool
  offsetMs : ℚ
  interpDelayMs : F

def timingOf (scene : Scene F ℚ) : Timing F where
  hasOffset := scene.remotes.hasOffset
  offsetMs := scene.remotes.offsetMs
  interpDelayMs := scene.remotes.interpDelayMs

/-- Neither a new connection nor another delay. -/
def Calm : Op F ℚ → Prop
  | .clear | .setInterpDelay _ => False
  | _ => True

def sampleOf (scene : Scene F ℚ) : Op F ℚ → Option ℚ
  | .applyState _ _ serverMs localMs =>
      some (localMs - (scene.remotes.serverClock.unwrap serverMs).1)
  | _ => none

/-- The share of a higher sample the offset takes over. -/
def drift : ℚ := 2 / 100

def Timing.note (timing : Timing F) (sample : ℚ) : Timing F where
  hasOffset := true
  offsetMs := if timing.hasOffset then follow drift timing.offsetMs sample else sample
  interpDelayMs := timing.interpDelayMs

theorem foldl_note {timing : Timing F} (hoffset : timing.hasOffset = true) (samples : List ℚ) :
    samples.foldl Timing.note timing =
      { timing with offsetMs := samples.foldl (follow drift) timing.offsetMs } := by
  induction samples generalizing timing with
  | nil => rfl
  | cons sample samples ih =>
      have hnote : timing.note sample =
          { timing with offsetMs := follow drift timing.offsetMs sample } := by
        simp [Timing.note, hoffset]
      rw [List.foldl_cons, hnote]
      exact ih hoffset

theorem noteServerTime_eq (remotes : RemotePlayers F ℚ) (serverMs : Int) (localMs : ℚ) :
    noteServerTime remotes serverMs localMs =
      { remotes with
        hasOffset := true
        offsetMs := if remotes.hasOffset then follow drift remotes.offsetMs (localMs - serverMs)
          else localMs - serverMs } := by
  have hcast : (toDouble serverMs : ℚ) = serverMs := rfl
  rw [noteServerTime, hcast]
  cases hoffset : remotes.hasOffset with
  | false => rfl
  | true =>
      rw [if_neg (by decide), if_pos rfl, follow]
      by_cases hlower : localMs - serverMs < remotes.offsetMs
      · rw [if_pos hlower, if_pos hlower]
      · rw [if_neg hlower, if_neg hlower]
        rfl

variable [CppFloat F]

theorem timing_applyState (scene : Scene F ℚ) (id : PlayerId) (state : PlayerState F)
    (serverMs : UInt32) (localMs : ℚ) :
    timingOf (applyState scene id state serverMs localMs) =
      (timingOf scene).note (localMs - (scene.remotes.serverClock.unwrap serverMs).1) := by
  obtain ⟨added, hadded, htiming, hclock⟩ : ∃ added : Scene F ℚ,
      (if id ∈ scene.remotes.players then scene else add scene id (placeholderName id)) = added ∧
      timingOf added = timingOf scene ∧ added.remotes.serverClock = scene.remotes.serverClock := by
    refine ⟨_, rfl, ?_⟩
    split <;> exact ⟨rfl, rfl⟩
  rw [applyState, hadded, hclock, ← htiming]
  simp only [noteServerTime_eq]
  rfl

variable [Libm F] [Narrow ℚ F] [Widen F ℚ]

theorem timing_update (scene : Scene F ℚ) (input : UpdateInput ℚ) :
    timingOf (update scene input) = timingOf scene := by
  rw [timingOf, update_remotes]
  rfl

/-- The samples noted by some operations. -/
def samples (scene : Scene F ℚ) : List (PlayerOrder F × Op F ℚ) → List ℚ
  | [] => []
  | input :: inputs =>
      (sampleOf (scene.reorder input.1) input.2).toList ++ samples (scene.step input) inputs

theorem timing_perform (scene : Scene F ℚ) {op : Op F ℚ} (hcalm : Calm op) :
    timingOf (scene.perform op) = (sampleOf scene op).toList.foldl Timing.note (timingOf scene) := by
  cases op with
  | clear | setInterpDelay => cases hcalm
  | applyState id state serverMs localMs => exact timing_applyState scene id state serverMs localMs
  | update input => exact timing_update scene input
  | rename id name =>
      rw [Scene.perform, rename]
      split <;> rfl
  | remove id =>
      rw [Scene.perform, remove]
      split <;> rfl
  | setCloneBase | setDrive | setPacify | setGhost | setDuplicate | setMove | respawn | add
  | despawnAll | forgetActors | actorDeleted => rfl

theorem timing_run {scene : Scene F ℚ} (hoffset : scene.remotes.hasOffset = true)
    {inputs : List (PlayerOrder F × Op F ℚ)} (hcalm : ∀ input ∈ inputs, Calm input.2) :
    timingOf (run Scene.step scene inputs) =
      { timingOf scene with
        offsetMs := (samples scene inputs).foldl (follow drift) scene.remotes.offsetMs } := by
  have htiming : (timingOf scene).hasOffset = true := hoffset
  refine Eq.trans ?_ (foldl_note htiming (samples scene inputs))
  clear hoffset htiming
  induction inputs generalizing scene with
  | nil => rfl
  | cons input inputs ih =>
      have hstep : timingOf (scene.step input) =
          (sampleOf (scene.reorder input.1) input.2).toList.foldl Timing.note (timingOf scene) :=
        timing_perform (scene.reorder input.1) (hcalm input List.mem_cons_self)
      rw [run, List.foldl_cons]
      refine (ih fun other hother => hcalm other (List.mem_cons_of_mem _ hother)).trans ?_
      rw [samples, List.foldl_append, hstep]

/-- From one frame to another the render time goes on by the local time in between, less
what the packets in between, none of them later than `late` above the offset, can raise
the offset by.  It goes back only if that is more. -/
theorem renderMs_between {scene : Scene F ℚ} (hoffset : scene.remotes.hasOffset = true)
    {inputs : List (PlayerOrder F × Op F ℚ)} (hcalm : ∀ input ∈ inputs, Calm input.2) {late : ℚ}
    (hlate : 0 ≤ late)
    (hsamples : ∀ sample ∈ samples scene inputs, sample ≤ scene.remotes.offsetMs + late)
    (first second : UpdateInput ℚ) :
    renderMsOf scene.remotes first + (second.localMs - first.localMs) -
        (1 - (1 - drift) ^ (samples scene inputs).length) * late ≤
      renderMsOf (run Scene.step scene inputs).remotes second ∧
    ((1 - (1 - drift) ^ (samples scene inputs).length) * late ≤ second.localMs - first.localMs →
      renderMsOf scene.remotes first ≤
        renderMsOf (run Scene.step scene inputs).remotes second) := by
  have hrun := timing_run hoffset hcalm
  have hdelay : (run Scene.step scene inputs).remotes.interpDelayMs = scene.remotes.interpDelayMs :=
    congrArg Timing.interpDelayMs hrun
  have hoffsetMs : (run Scene.step scene inputs).remotes.offsetMs =
      (samples scene inputs).foldl (follow drift) scene.remotes.offsetMs :=
    congrArg Timing.offsetMs hrun
  have hraised := foldl_follow_le (by norm_num [drift] : 0 ≤ drift) (by norm_num [drift]) hlate
    hsamples
  rw [← hoffsetMs] at hraised
  have hgone : renderMsOf scene.remotes first + (second.localMs - first.localMs) -
      (1 - (1 - drift) ^ (samples scene inputs).length) * late ≤
        renderMsOf (run Scene.step scene inputs).remotes second := by
    rw [renderMsOf, renderMsOf, hdelay]
    linarith
  exact ⟨hgone, fun henough => by linarith⟩

section Example

/-- Exact where a rational function can be: at squares and at zero. -/
local instance instLibmRat : Libm ℚ where
  sqrt := Rat.sqrt
  cos _ := 1
  sin q := q

def frameAt (localMs : ℚ) : UpdateInput ℚ where
  localSpace := some { worldspaceId := 1 }
  now := 0
  localMs := localMs
  answers _ := {}

def noted (serverMs : UInt32) (localMs : ℚ) : PlayerOrder ℚ × Op ℚ ℚ :=
  (.keep _, .applyState 7 (.initial ℚ) serverMs localMs)

/-- A packet that takes a second longer than the first one. -/
theorem renderMs_goes_back : ¬ ∀ (inputs between : List (PlayerOrder ℚ × Op ℚ ℚ))
    (first second : UpdateInput ℚ), (Scene.after inputs).remotes.hasOffset = true →
    (∀ input ∈ between, Calm input.2) → first.localMs ≤ second.localMs →
    renderMsOf (Scene.after inputs).remotes first ≤
      renderMsOf (run Scene.step (Scene.after inputs) between).remotes second := by
  intro h
  have hback := h [noted 1 1] [(.keep _, .update (frameAt 10000)), noted 9000 10008]
    (frameAt 10000) (frameAt 10016) (by decide +kernel) (by simp [Calm, noted])
    (by decide +kernel)
  exact absurd hback (by decide +kernel)

theorem renderMs_late :
    renderMsOf (Scene.after [noted 1 1]).remotes (frameAt 10000) ≤
      renderMsOf (run Scene.step (Scene.after [noted 1 1])
        [(.keep _, .update (frameAt 10000)), noted 9900 10008]).remotes (frameAt 10016) :=
  (renderMs_between (by decide +kernel) (by simp [Calm, noted]) (by norm_num : (0 : ℚ) ≤ 108)
    (by decide +kernel) _ _).2 (by decide +kernel)

end Example

end F4MP.RenderTime
