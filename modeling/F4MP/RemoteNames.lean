import F4MP.Delivery

/-!
The names a client has for the remote players, as what it was asked of them makes them:
nothing but messages about a player and the end of a connection changes them.
-/

namespace F4MP.RemoteNames

open F4MP.Types
open F4MP.Arith
open F4MP.GameUtil
open F4MP.ServerModel (Time)
open F4MP.RemotePlayersModel
open F4MP.CloneUpdate
open F4MP.Roster (Names)
open F4MP.Delivery
open F4MP.ClientRun
open F4MP.Library.Runs

variable {F D : Type}

def names (scene : Scene F D) : Names := fun id => (scene.find id).map (·.name)

def renamed (names : Names) : Op F D → Names
  | .add id name | .rename id name => Function.update names id (some name)
  | .applyState id _ _ _ =>
      Function.update names id (some ((names id).getD (placeholderName id)))
  | .remove id => Function.update names id none
  | .clear => fun _ => none
  | _ => names

section Frames

variable {remotes : RemotePlayers F D} {player : RemotePlayer F} {engine : Engine F}

@[simp] theorem name_tearDown (visible : Bool) (space : Space) :
    (tearDown player engine visible space).1.name = player.name := by
  rw [tearDown]
  split
  · rfl
  · split
    · rfl
    · split <;> rfl

@[simp] theorem name_chooseBase (answers : Answers) :
    (chooseBase remotes player engine answers).2.1.name = player.name := by
  rw [chooseBase]
  split
  · split <;> rfl
  · dsimp only
    split <;> rfl

@[simp] theorem name_present (answers : Answers) (ref : Ref) :
    (present remotes answers ref player engine).1.name = player.name := by
  rw [present]
  split
  rename_i heq
  split at heq <;> cases heq <;> rfl

@[simp] theorem name_animate (ref : Ref) (latest : PlayerState F) :
    (animate ref latest player engine).1.name = player.name := by
  rw [animate]
  split
  rename_i heq
  split at heq <;> cases heq <;> dsimp only <;> split <;> rfl

variable [CppFloat F]

@[simp] theorem name_spawnClone (now : Time) (answers : Answers) (latest : PlayerState F)
    (space : Space) :
    (spawnClone remotes now answers latest space player engine).1.name = player.name := by
  have hchosen : (chooseBase remotes { player with lastSpawnAttempt := now } engine
      answers).2.1.name = player.name := name_chooseBase answers
  rw [spawnClone]
  generalize chooseBase remotes { player with lastSpawnAttempt := now } engine answers = choice
    at hchosen
  obtain ⟨base, chosen, before⟩ := choice
  cases base with
  | none => exact hchosen
  | some base =>
      dsimp only
      split <;> exact hchosen

@[simp] theorem name_ensureActor (frame : Frame D) (answers : Answers) (latest : PlayerState F) :
    (ensureActor remotes frame answers latest player engine).1.name = player.name := by
  rw [ensureActor]
  dsimp only
  split
  · exact name_tearDown _ _
  · split
    · exact name_tearDown _ _
    · rw [name_spawnClone, name_tearDown]

variable [CppFloat D] [Libm F] [Narrow D F]

@[simp] theorem name_driveActor (frame : Frame D) (answers : Answers) (ref : Ref)
    (latest : PlayerState F) :
    (driveActor remotes frame answers ref latest player engine).1.name = player.name := by
  rw [driveActor]
  dsimp only
  split
  · exact name_present _ _
  · split
    · exact name_present _ _
    · rw [name_animate]
      exact name_present _ _

theorem steady_name : Steady D fun player : RemotePlayer F => player.name where
  despawned _ := rfl
  respawned _ := rfl
  forgetful _ := rfl
  updated remotes frame answers player engine := by
    rw [updateOne]
    dsimp only
    split
    · rfl
    · split
      · exact name_ensureActor _ _ _
      · rw [name_driveActor]
        exact name_ensureActor _ _ _

end Frames

theorem names_of_find {scene scene' : Scene F D} {id : PlayerId} {player : Option (RemotePlayer F)}
    (hfind : ∀ c, scene'.find c = if c = id then player else scene.find c) :
    names scene' = Function.update (names scene) id (player.map (·.name)) := by
  funext c
  rw [names, hfind, Function.update_apply]
  split <;> rfl

variable [CppFloat F] [CppFloat D] [Libm F] [Narrow D F] [Widen F D]

theorem names_perform (scene : Scene F D) (op : Op F D) :
    names (scene.perform op) = renamed (names scene) op := by
  have hneutral : Neutral op → names (scene.perform op) = names scene := fun hop =>
    funext (steady_name.perform scene hop).players
  cases op with
  | add id name => exact names_of_find (find_add scene id name)
  | rename id name => exact names_of_find (find_rename scene id name)
  | remove id => exact names_of_find (find_remove scene id)
  | applyState id state serverMs localMs =>
      rw [renamed, Scene.perform, names_of_find (find_applyState scene id state serverMs localMs),
        Option.map_some, stateEntry, names]
      cases scene.find id <;> rfl
  | clear => rfl
  | _ => exact hneutral trivial

theorem names_run (scene : Scene F D) (steps : List (PlayerOrder F × Op F D)) :
    names (run Scene.step scene steps) = (steps.map (·.2)).foldl renamed (names scene) := by
  induction steps using List.reverseRecOn with
  | nil => rfl
  | append_singleton steps step ih =>
      rw [run_concat, List.map_append, List.foldl_append, ← ih, Scene.step, names_perform]
      congr 1
      exact funext (sameUnder_reorder _ step.1).players

end F4MP.RemoteNames
