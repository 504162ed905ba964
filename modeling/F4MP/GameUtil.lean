import F4MP.Interp

/-!
The part of the engine the client uses, and the thin helpers around it.  What the
engine answers comes in from outside; what is asked of it is recorded in order.
-/

namespace F4MP.GameUtil

open F4MP.Types

/-- Where a reference is: exterior worldspace or interior cell. -/
structure Space where
  worldspaceId : UInt32 := 0
  cellId : UInt32 := 0
  interior : Bool := false
deriving DecidableEq

/-- True when two actors could see each other: same worldspace outdoors, same cell
indoors. -/
def Space.sameArea (space other : Space) : Bool :=
  if space.interior ≠ other.interior then false
  else if space.interior then space.cellId = other.cellId
  else space.worldspaceId = other.worldspaceId

def spaceFromState {F : Type} (state : PlayerState F) : Space where
  worldspaceId := state.worldspaceId
  cellId := state.cellId
  interior := state.worldspaceId = 0

theorem Space.sameArea_refl (space : Space) : space.sameArea space = true := by
  simp [Space.sameArea]

theorem Space.sameArea_symm {space other : Space} (h : space.sameArea other = true) :
    other.sameArea space = true := by
  unfold Space.sameArea at *
  grind

theorem Space.sameArea_trans {space other third : Space} (h : space.sameArea other = true)
    (h' : other.sameArea third = true) : space.sameArea third = true := by
  unfold Space.sameArea at *
  grind

/-- A reference, numbered in the order of creation; the local player was first. -/
abbrev Ref := Nat

def playerRef : Ref := 0

abbrev Form := UInt32

def playerBaseFormId : Form := 7

/-- What the client asks of the engine. -/
inductive Call (F : Type) where
  | createDuplicateForm (form source : Form) (ghost : Bool)
  | setFormFullName (base : Form) (name : Bytes)
  | createReferenceAtLocation (ref : Ref) (base : Form) (position : Vec3 F) (yaw : F)
      (space : Space)
  | setDisplayName (ref : Ref) (name : Bytes)
  | setGhost (ref : Ref)
  | initiateDoNothingPackage (ref : Ref)
  | stopCombat (ref : Ref)
  | setAlpha (ref : Ref)
  | driveClone (ref : Ref) (position : Vec3 F) (yaw : F)
  | driveCloneByMove (ref : Ref) (position : Vec3 F) (yaw deltaTime : F)
  | killImpl (ref : Ref)
  | resurrect (ref : Ref)
  | setSneaking (ref : Ref) (on : Bool)
  | drawWeaponMagicHands (ref : Ref) (on : Bool)
  | setSprinting (ref : Ref) (on : Bool)
  | setLocomotion (ref : Ref) (speed : F) (sprinting first : Bool)
  | disable (ref : Ref)
  | setDelete (ref : Ref)
deriving DecidableEq

/-- The engine as far as clones go: those that exist, and those among them the client
dropped its handles of. -/
structure Engine (F : Type) where
  nextRef : Ref := playerRef + 1
  actors : List Ref := []
  forgotten : List Ref := []
  calls : List (Call F) := []

/-- What `CreateReferenceAtLocation` makes. -/
inductive Placed where
  | nothing
  | localPlayer
  | clone
deriving DecidableEq

/-- The engine's answers about one clone in one frame. -/
structure Answers where
  base : Option Form := some playerBaseFormId
  placed : Placed := .clone
  hasProcess : Bool := true
  inCombat : Bool := false
  transparent : Bool := false

variable {F : Type}

def Engine.call (engine : Engine F) (call : Call F) : Engine F :=
  { engine with calls := engine.calls ++ [call] }

/-- `ObjectRefHandle::get`: a handle resolves while its reference exists. -/
def Engine.get (engine : Engine F) (handle : Option Ref) : Option Ref :=
  handle.filter fun ref => ref = playerRef || ref ∈ engine.actors

def renameCloneBase (engine : Engine F) (base : Option Form) (name : Bytes) : Engine F :=
  match base with
  | none => engine
  | some base => engine.call (.setFormFullName base name)

/-- A runtime copy of an NPC record, if the engine makes one. -/
def createCloneBase (engine : Engine F) (form : Option Form) (source : Form) (name : Bytes)
    (ghost : Bool) : Option Form × Engine F :=
  match form with
  | none => (none, engine)
  | some form =>
      (some form, renameCloneBase (engine.call (.createDuplicateForm form source ghost)) form name)

/-- A fresh reference, recorded with the call that makes it. -/
def Engine.create (engine : Engine F) (base : Form) (position : Vec3 F) (yaw : F)
    (space : Space) : Engine F :=
  { engine with
    nextRef := engine.nextRef + 1
    actors := engine.nextRef :: engine.actors
    calls := engine.calls ++
      [.createReferenceAtLocation engine.nextRef base position yaw space] }

/-- Spawns a clone at the given spot.  An empty handle on failure. -/
def spawnPlayerClone (engine : Engine F) (placed : Placed) (base : Form) (position : Vec3 F)
    (yaw : F) (space : Space) : Option Ref × Engine F :=
  match placed with
  | .nothing => (none, engine)
  | .localPlayer => (none, engine)
  | .clone => (some engine.nextRef, engine.create base position yaw space)

def applyCloneIdentity (engine : Engine F) (ref : Ref) (name : Bytes) (ghost : Bool) :
    Engine F :=
  let engine := engine.call (.setDisplayName ref name)
  if ghost then engine.call (.setGhost ref) else engine

/-- `false` while the actor has no AI process. -/
def pacifyClone (engine : Engine F) (answers : Answers) (ref : Ref) : Bool × Engine F :=
  if !answers.hasProcess then (false, engine)
  else
    let engine := engine.call (.initiateDoNothingPackage ref)
    (true, if answers.inCombat then engine.call (.stopCombat ref) else engine)

/-- Pushes every flag that changed into the clone. -/
def applyStateFlags (engine : Engine F) (ref : Ref) (flags previous : UInt8) : Engine F :=
  let changed := flags ^^^ previous
  let engine :=
    if changed &&& kStateSneaking ≠ 0 then
      engine.call (.setSneaking ref (flags &&& kStateSneaking ≠ 0))
    else engine
  let engine :=
    if changed &&& kStateWeaponDrawn ≠ 0 then
      engine.call (.drawWeaponMagicHands ref (flags &&& kStateWeaponDrawn ≠ 0))
    else engine
  if changed &&& kStateSprinting ≠ 0 then
    engine.call (.setSprinting ref (flags &&& kStateSprinting ≠ 0))
  else engine

def Engine.delete (engine : Engine F) (ref : Ref) : Engine F :=
  { engine with
    actors := engine.actors.filter (· ≠ ref)
    calls := engine.calls ++ [.disable ref, .setDelete ref] }

/-- Disables and deletes the reference, if it still exists.  The caller clears the
handle. -/
def despawn (engine : Engine F) (handle : Option Ref) : Engine F :=
  match engine.get handle with
  | none => engine
  | some ref => if ref = playerRef then engine else engine.delete ref

end F4MP.GameUtil
