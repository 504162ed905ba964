import F4MP.GameUtil

/-!
The local player, as the client reads it from the engine to send it.
-/

namespace F4MP.LocalPlayer

open F4MP.Types
open F4MP.GameUtil

/-- A cell of the world, with the form of the worldspace it is in. -/
structure Cell where
  formId : UInt32
  isInterior : Bool
  worldSpace : Option UInt32

/-- What the engine says of the character that the player plays. -/
structure PlayerCharacter where
  parentCell : Option Cell
  position : Vec3 F32
  angleZ : F32
  isSneaking : Bool := false
  /-- `weaponState == WEAPON_STATE::kDrawn`. -/
  weaponDrawn : Bool := false
  isDead : Bool := false
  sprinting : Bool := false
  /-- The actor value of health and its base, if the engine has that value. -/
  health : Option (F32 × F32) := none

/-- The player, once it exists and is placed in a cell. -/
def getPlayer : Option PlayerCharacter → Option PlayerCharacter
  | none => none
  | some player => if player.parentCell.isNone then none else some player

def getSpace (ref : Option PlayerCharacter) : Option Space :=
  (ref.bind (·.parentCell)).map fun cell =>
    { worldspaceId := cell.worldSpace.getD 0, cellId := cell.formId, interior := cell.isInterior }

def stateFlags (player : PlayerCharacter) : UInt8 :=
  let flags := kStateNone
  let flags := if player.isSneaking then flags ||| kStateSneaking else flags
  let flags := if player.weaponDrawn then flags ||| kStateWeaponDrawn else flags
  let flags := if player.isDead then flags ||| kStateDead else flags
  if player.sprinting then flags ||| kStateSprinting else flags

/-- What `Sample` writes of a player in a space. -/
def readState (player : PlayerCharacter) (space : Space) : PlayerState F32 :=
  let out :=
    { PlayerState.initial F32 with
      position := player.position
      yaw := player.angleZ
      worldspaceId := space.worldspaceId
      cellId := space.cellId
      flags := stateFlags player }
  match player.health with
  | none => out
  | some (health, maxHealth) => { out with health, maxHealth }

/-- `Sample`; nothing where the source returns `false`. -/
def sample (singleton : Option PlayerCharacter) : Option (PlayerState F32) :=
  match getPlayer singleton with
  | none => none
  | some player =>
      match getSpace (some player) with
      | none => none
      | some space => some (readState player space)

theorem readState_eq (player : PlayerCharacter) (space : Space) :
    ∃ health maxHealth, readState player space =
      { position := player.position, yaw := player.angleZ, worldspaceId := space.worldspaceId,
        cellId := space.cellId, flags := stateFlags player, health, maxHealth } := by
  rw [readState]
  cases player.health with
  | none => exact ⟨_, _, rfl⟩
  | some health => exact ⟨_, _, rfl⟩

theorem sample_eq_some {singleton : Option PlayerCharacter} {state : PlayerState F32}
    (h : sample singleton = some state) : ∃ player space, singleton = some player ∧
      getSpace (some player) = some space ∧ state = readState player space := by
  have hget : ∀ player, getPlayer singleton = some player → singleton = some player := by
    intro player hplayer
    cases singleton with
    | none => cases hplayer
    | some found =>
        rw [getPlayer] at hplayer
        split at hplayer
        · cases hplayer
        · exact hplayer
  rw [sample] at h
  split at h
  · cases h
  · rename_i player hplayer
    split at h
    · cases h
    · rename_i space hspace
      exact ⟨player, space, hget player hplayer, hspace, (Option.some.inj h).symm⟩

/-- The others take a player to be where it is, if the cells without a worldspace are the
interior ones. -/
theorem spaceFromState_readState {player : PlayerCharacter} {cell : Cell}
    (hcell : player.parentCell = some cell)
    (hinterior : cell.isInterior = true ↔ cell.worldSpace.getD 0 = 0) {space : Space}
    (hspace : getSpace (some player) = some space) :
    spaceFromState (readState player space) = space := by
  obtain ⟨health, maxHealth, hstate⟩ := readState_eq player space
  rw [getSpace, Option.bind_some, hcell, Option.map_some] at hspace
  obtain rfl := Option.some.inj hspace
  rw [hstate, spaceFromState]
  simp only [Space.mk.injEq, true_and]
  rw [Bool.eq_iff_iff, hinterior, decide_eq_true_iff]

theorem stateFlags_spec (player : PlayerCharacter) :
    (stateFlags player &&& kStateDead ≠ 0 ↔ player.isDead = true) ∧
      (stateFlags player &&& kStateSneaking ≠ 0 ↔ player.isSneaking = true) ∧
      (stateFlags player &&& kStateWeaponDrawn ≠ 0 ↔ player.weaponDrawn = true) ∧
      (stateFlags player &&& kStateSprinting ≠ 0 ↔ player.sprinting = true) := by
  rw [stateFlags]
  cases player.isSneaking <;> cases player.weaponDrawn <;> cases player.isDead <;>
    cases player.sprinting <;> decide

end F4MP.LocalPlayer
