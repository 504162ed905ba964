import F4MP.ClonePostures

/-!
How the clones walk: what their animation graphs are told, whatever these answer, and that
each of them is told the gait of its player's record.
-/

namespace F4MP.Locomotion

open F4MP.Types
open F4MP.Arith
open F4MP.Interp
open F4MP.GameUtil
open F4MP.ServerModel (Time)
open F4MP.RemotePlayersModel
open F4MP.CloneUpdate
open F4MP.Clones
open F4MP.ClonePostures (Faithful faithful_after faithful_updatePlayer)
open F4MP.Library.HashTable
open F4MP.Library.Leases
open F4MP.Library.Runs
open F4MP.Library.Journal

variable {F D : Type}

/-- The variables of the animation graph of an actor that read back, as numbers and as
truth values.  Behaviour graphs differ in them, and every call asks for them anew. -/
structure Names where
  floats : String → Bool
  bools : String → Bool

/-- What a graph is told, `SetGraphVariableFloat` or `SetGraphVariableBool`. -/
inductive Setting (F : Type) where
  | float (name : String) (value : F)
  | bool (name : String) (value : Bool)

def writeFloat (there : Names) (value : F) (name : String) : List (Setting F) :=
  if there.floats name then [.float name value] else []

def writeBool (there : Names) (value : Bool) (name : String) : List (Setting F) :=
  if there.bools name then [.bool name value] else []

def rootMotionNames : List String := ["bAnimationDriven", "bMotionDriven"]
def speedNames : List String := ["SpeedSampled", "Speed", "SpeedDamped", "fSpeed", "MoveSpeed"]
def runNames : List String := ["IsRunning", "bIsRunning"]
def sprintNames : List String := ["IsSprinting", "bIsSprinting"]

def Setting.toFloat (name : String) : Setting F → Option F
  | .float other value => if other = name then some value else none
  | .bool .. => none

def Setting.toBool (name : String) : Setting F → Option Bool
  | .bool other value => if other = name then some value else none
  | .float .. => none

def toldFloat (settings : List (Setting F)) (name : String) : Option F :=
  (settings.filterMap (Setting.toFloat name)).getLast?

def toldBool (settings : List (Setting F)) (name : String) : Option Bool :=
  (settings.filterMap (Setting.toBool name)).getLast?

theorem toldFloat_append (settings more : List (Setting F)) (name : String) :
    toldFloat (settings ++ more) name = (toldFloat more name).or (toldFloat settings name) := by
  rw [toldFloat, List.filterMap_append, List.getLast?_append, toldFloat, toldFloat]

theorem toldBool_append (settings more : List (Setting F)) (name : String) :
    toldBool (settings ++ more) name = (toldBool more name).or (toldBool settings name) := by
  rw [toldBool, List.filterMap_append, List.getLast?_append, toldBool, toldBool]

theorem toldFloat_writeFloat (there : Names) (value : F) (names : List String) (name : String) :
    toldFloat (names.flatMap (writeFloat there value)) name =
      if name ∈ names ∧ there.floats name = true then some value else none := by
  induction names with
  | nil => rfl
  | cons first names ih =>
      rw [List.flatMap_cons, toldFloat_append, ih]
      by_cases hname : first = name
      · subst hname
        cases hthere : there.floats first with
        | false => simp [writeFloat, toldFloat, hthere]
        | true =>
            simp only [writeFloat, hthere, toldFloat, List.mem_cons, true_or, and_self, and_true]
            split <;> simp [Setting.toFloat]
      · have hnone : toldFloat (writeFloat there value first) name = none := by
          rw [writeFloat]
          split
          · simp [toldFloat, Setting.toFloat, hname]
          · rfl
        simp [hnone, Ne.symm hname]

theorem toldBool_writeBool (there : Names) (value : Bool) (names : List String) (name : String) :
    toldBool (names.flatMap (writeBool (F := F) there value)) name =
      if name ∈ names ∧ there.bools name = true then some value else none := by
  induction names with
  | nil => rfl
  | cons first names ih =>
      rw [List.flatMap_cons, toldBool_append, ih]
      by_cases hname : first = name
      · subst hname
        cases hthere : there.bools first with
        | false => simp [writeBool, toldBool, hthere]
        | true =>
            simp only [writeBool, hthere, toldBool, List.mem_cons, true_or, and_self, and_true]
            split <;> simp [Setting.toBool]
      · have hnone : toldBool (writeBool (F := F) there value first) name = none := by
          rw [writeBool]
          split
          · simp [toldBool, Setting.toBool, hname]
          · rfl
        simp [hnone, Ne.symm hname]

theorem mem_writeFloat {there : Names} {value : F} {names : List String} {setting : Setting F}
    (h : setting ∈ names.flatMap (writeFloat there value)) :
    ∃ name ∈ names, setting = .float name value := by
  obtain ⟨name, hname, hwrite⟩ := List.mem_flatMap.mp h
  rw [writeFloat] at hwrite
  split at hwrite
  · exact ⟨name, hname, List.mem_singleton.mp hwrite⟩
  · cases hwrite

theorem mem_writeBool {there : Names} {value : Bool} {names : List String} {setting : Setting F}
    (h : setting ∈ names.flatMap (writeBool there value)) :
    ∃ name ∈ names, setting = .bool name value := by
  obtain ⟨name, hname, hwrite⟩ := List.mem_flatMap.mp h
  rw [writeBool] at hwrite
  split at hwrite
  · exact ⟨name, hname, List.mem_singleton.mp hwrite⟩
  · cases hwrite

theorem toldFloat_writeBool (there : Names) (value : Bool) (names : List String) (name : String) :
    toldFloat (names.flatMap (writeBool (F := F) there value)) name = none := by
  rw [toldFloat, List.getLast?_eq_none_iff, List.filterMap_eq_nil_iff]
  intro setting hsetting
  obtain ⟨other, -, rfl⟩ := mem_writeBool hsetting
  rfl

theorem toldBool_writeFloat (there : Names) (value : F) (names : List String) (name : String) :
    toldBool (names.flatMap (writeFloat there value)) name = none := by
  rw [toldBool, List.getLast?_eq_none_iff, List.filterMap_eq_nil_iff]
  intro setting hsetting
  obtain ⟨other, -, rfl⟩ := mem_writeFloat hsetting
  rfl

section Gaits

variable [CppFloat F]

def stopSpeed : F := CppFloat.ofRat 8
def runSpeed : F := CppFloat.ofRat 260
def maxSpeed : F := CppFloat.ofRat 900

/-- The speed that is written for one that is asked for. -/
def gaitSpeed (speed : F) : F :=
  let speed := clamp speed (CppFloat.ofRat 0) maxSpeed
  if speed < stopSpeed then CppFloat.ofRat 0 else speed

def setLocomotion (there : Names) (speed : F) (sprinting first : Bool) : List (Setting F) :=
  let speed := gaitSpeed speed
  -- root motion off, so a clip plays without shoving the actor away
  (if first then rootMotionNames.flatMap (writeBool there false) else []) ++
    speedNames.flatMap (writeFloat there speed) ++
    ["Direction"].flatMap (writeFloat there (CppFloat.ofRat 0)) ++
    runNames.flatMap (writeBool there (runSpeed ≤ speed)) ++
    sprintNames.flatMap (writeBool there (sprinting && CppFloat.ofRat 0 < speed))

/-- The numbers of a gait: all that stands for the speed the same, and the heading ahead. -/
def gaitFloat (speed : F) (name : String) : Option F :=
  if name ∈ speedNames then some (gaitSpeed speed)
  else if name = "Direction" then some (CppFloat.ofRat 0)
  else none

def gaitBool (speed : F) (sprinting : Bool) (name : String) : Option Bool :=
  if name ∈ sprintNames then some (sprinting && CppFloat.ofRat 0 < gaitSpeed speed)
  else if name ∈ runNames then some (runSpeed ≤ gaitSpeed speed)
  else none

theorem toldFloat_setLocomotion (there : Names) (speed : F) (sprinting first : Bool)
    (name : String) : toldFloat (setLocomotion there speed sprinting first) name =
      if there.floats name then gaitFloat speed name else none := by
  have hroot : toldFloat (F := F)
      (if first then rootMotionNames.flatMap (writeBool there false) else []) name = none := by
    split
    · exact toldFloat_writeBool _ _ _ _
    · rfl
  have hdirection : "Direction" ∉ speedNames := by decide
  rw [setLocomotion, toldFloat_append, toldFloat_append, toldFloat_append, toldFloat_append,
    toldFloat_writeBool, toldFloat_writeBool, toldFloat_writeFloat, toldFloat_writeFloat, hroot,
    gaitFloat]
  cases there.floats name <;> by_cases hspeed : name ∈ speedNames <;>
    by_cases hname : name = "Direction" <;> simp_all

theorem toldBool_setLocomotion (there : Names) (speed : F) (sprinting first : Bool)
    (name : String) : toldBool (setLocomotion there speed sprinting first) name =
      if there.bools name then
        (gaitBool speed sprinting name).or
          (if first ∧ name ∈ rootMotionNames then some false else none)
      else none := by
  have hroot : toldBool (F := F)
      (if first then rootMotionNames.flatMap (writeBool there false) else []) name =
        if there.bools name then (if first ∧ name ∈ rootMotionNames then some false else none)
        else none := by
    cases first with
    | false => cases there.bools name <;> rfl
    | true =>
        rw [if_pos rfl, toldBool_writeBool]
        cases there.bools name <;> simp
  rw [setLocomotion, toldBool_append, toldBool_append, toldBool_append, toldBool_append,
    toldBool_writeBool, toldBool_writeBool, toldBool_writeFloat, toldBool_writeFloat, hroot,
    gaitBool]
  cases there.bools name <;> by_cases hsprint : name ∈ sprintNames <;>
    by_cases hrun : name ∈ runNames <;> simp [hsprint, hrun]

def Wanted : Setting F → Prop
  | .float name value => name ∈ speedNames ∨ name = "Direction" ∧ value = CppFloat.ofRat 0
  | .bool name value =>
      name ∈ runNames ∨ name ∈ sprintNames ∨ name ∈ rootMotionNames ∧ value = false

theorem wanted_setLocomotion (there : Names) (speed : F) (sprinting first : Bool) :
    ∀ setting ∈ setLocomotion there speed sprinting first, Wanted setting := by
  intro setting hsetting
  simp only [setLocomotion, List.mem_append] at hsetting
  obtain (((hroot | hspeed) | hdirection) | hrun) | hsprint := hsetting
  · split at hroot
    · obtain ⟨name, hname, rfl⟩ := mem_writeBool hroot
      exact .inr (.inr ⟨hname, rfl⟩)
    · cases hroot
  · obtain ⟨name, hname, rfl⟩ := mem_writeFloat hspeed
    exact .inl hname
  · obtain ⟨name, hname, rfl⟩ := mem_writeFloat hdirection
    exact .inr ⟨List.mem_singleton.mp hname, rfl⟩
  · obtain ⟨name, hname, rfl⟩ := mem_writeBool hrun
    exact .inl hname
  · obtain ⟨name, hname, rfl⟩ := mem_writeBool hsprint
    exact .inr (.inl hname)

/-- A clone stands, or it walks at a speed the graph knows; one that stands does not run. -/
theorem gaitSpeed_spec [Rounds F] (speed : F) :
    (Rounds.value (gaitSpeed speed) = 0 ∧ ¬ (runSpeed : F) ≤ gaitSpeed speed) ∨
      (8 ≤ Rounds.value (gaitSpeed speed) ∧ Rounds.value (gaitSpeed speed) ≤ 900) := by
  have hvalue : ∀ z : ℤ, |z| ≤ 2 ^ 24 → Rounds.value (CppFloat.ofRat z : F) = z := fun z hz => by
    rw [Rounds.value_ofRat, Rounds.round_int z hz]
  have hzero : Rounds.value (CppFloat.ofRat 0 : F) = 0 := by simpa using hvalue 0 (by simp)
  have hstop : Rounds.value (stopSpeed : F) = 8 := by simpa [stopSpeed] using hvalue 8 (by simp)
  have hrun : Rounds.value (runSpeed : F) = 260 := by simpa [runSpeed] using hvalue 260 (by simp)
  have hmax : Rounds.value (maxSpeed : F) = 900 := by simpa [maxSpeed] using hvalue 900 (by simp)
  have hstill : ¬ (runSpeed : F) ≤ CppFloat.ofRat 0 := by
    rw [Rounds.value_le, hrun, hzero]
    norm_num
  rw [gaitSpeed]
  split
  · exact .inl ⟨hzero, hstill⟩
  · rename_i hmoves
    rw [Rounds.value_lt, hstop, not_lt] at hmoves
    refine .inr ⟨hmoves, ?_⟩
    rw [clamp]
    split
    · rw [hzero]
      norm_num
    · split
      · rw [hmax]
      · rename_i hbelow
        rwa [Rounds.value_lt, hmax, not_lt] at hbelow

end Gaits

def paced : Call F → Option Ref
  | .setLocomotion ref _ _ _ => some ref
  | _ => none

def Silent (call : Call F) : Prop := spawned call = none ∧ paced call = none

section Calls

variable {engine engine' : Engine F}

theorem silent_if {condition : Prop} [Decidable condition] {call : Call F} (h : Silent call) :
    Asked Silent engine (if condition then engine.call call else engine) := by
  split
  · exact asked_call h
  · exact .refl _

theorem silent_renameCloneBase (engine : Engine F) (base : Option Form) (name : Bytes) :
    Asked Silent engine (renameCloneBase engine base name) := by
  cases base with
  | none => exact .refl _
  | some base => exact asked_call ⟨rfl, rfl⟩

theorem silent_createCloneBase (engine : Engine F) (form : Option Form) (source : Form)
    (name : Bytes) (ghost : Bool) :
    Asked Silent engine (createCloneBase engine form source name ghost).2 := by
  cases form with
  | none => exact .refl _
  | some form => exact (asked_call ⟨rfl, rfl⟩).trans (silent_renameCloneBase _ _ _)

theorem silent_pacifyClone (engine : Engine F) (answers : Answers) (ref : Ref) :
    Asked Silent engine (pacifyClone engine answers ref).2 := by
  rw [pacifyClone]
  split
  · exact .refl _
  · exact (asked_call ⟨rfl, rfl⟩).trans (silent_if ⟨rfl, rfl⟩)

theorem silent_applyCloneIdentity (engine : Engine F) (ref : Ref) (name : Bytes) (ghost : Bool) :
    Asked Silent engine (applyCloneIdentity engine ref name ghost) :=
  (asked_call ⟨rfl, rfl⟩).trans (silent_if ⟨rfl, rfl⟩)

theorem silent_applyStateFlags (engine : Engine F) (ref : Ref) (flags previous : UInt8) :
    Asked Silent engine (applyStateFlags engine ref flags previous) :=
  ((silent_if ⟨rfl, rfl⟩).trans (silent_if ⟨rfl, rfl⟩)).trans (silent_if ⟨rfl, rfl⟩)

theorem silent_despawn (engine : Engine F) (handle : Option Ref) :
    Asked Silent engine (despawn engine handle) := by
  rw [despawn]
  split
  · exact .refl _
  · split
    · exact .refl _
    · refine ⟨_, rfl, ?_⟩
      simp [Silent, spawned, paced]

theorem silent_despawn_foldl (engine : Engine F)
    (entries : List (Sigma fun _ : PlayerId => RemotePlayer F)) :
    Asked Silent engine
      (entries.foldl (fun engine entry => despawn engine entry.2.actor) engine) := by
  induction entries generalizing engine with
  | nil => exact .refl _
  | cons entry entries ih => exact (silent_despawn _ _).trans (ih _)

end Calls

variable {there : Ref → Nat → Names}

/-- A call of `SetLocomotion` on an actor, and what its graph answers. -/
structure Stride (F : Type) where
  there : Names
  speed : F
  sprinting : Bool
  first : Bool

def Stride.settings [CppFloat F] (stride : Stride F) : List (Setting F) :=
  setLocomotion stride.there stride.speed stride.sprinting stride.first

/-- The strides of the actors after one more call; `there` is what the graph of an actor
answers during the calls on it, one after the other. -/
def hear (there : Ref → Nat → Names) (walked : Ref → List (Stride F)) (call : Call F) :
    Ref → List (Stride F) :=
  match call with
  | .createReferenceAtLocation ref _ _ _ _ => Function.update walked ref []
  | .setLocomotion ref speed sprinting first =>
      Function.update walked ref
        (walked ref ++ [⟨there ref (walked ref).length, speed, sprinting, first⟩])
  | _ => walked

/-- The strides that the calls so far made of the actors, since each was made. -/
def walked (there : Ref → Nat → Names) (engine : Engine F) : Ref → List (Stride F) :=
  run (hear there) (fun _ => []) engine.calls

theorem walked_call (engine : Engine F) (call : Call F) :
    walked there (engine.call call) = hear there (walked there engine) call := run_concat _ _ _ _

theorem walked_silent {engine engine' : Engine F} (h : Asked Silent engine engine') :
    walked there engine' = walked there engine := by
  obtain ⟨more, hcalls, hmore⟩ := h
  rw [walked, hcalls]
  refine run_append_idle fun call hcall walked => ?_
  obtain ⟨hspawned, hpaced⟩ := hmore call hcall
  cases call with
  | createReferenceAtLocation => cases hspawned
  | setLocomotion => cases hpaced
  | _ => rfl

def sprints (player : RemotePlayer F) : Bool := player.appliedFlags &&& kStateSprinting ≠ 0

/-- The strides of a clone of the player: none at first, and then the last one is that of
the record, unless the clone is a corpse. -/
structure Walks (log : List (Stride F)) (player : RemotePlayer F) : Prop where
  fresh : player.locomotionInit = false → log = []
  first : ∀ before stride after, log = before ++ stride :: after →
    (stride.first = true ↔ before = [])
  going : player.locomotionInit = true → ∃ last, log.getLast? = some last ∧
    last.sprinting = sprints player ∧ (player.actorDead = false → last.speed = player.speed)

/-- The clone of the record walks. -/
def Paced (there : Ref → Nat → Names) (record : RemotePlayer F × Engine F) : Prop :=
  ∀ ref, record.1.actor = some ref → Walks (walked there record.2 ref) record.1

/-- What a record says about the gait of its clone. -/
def pace (player : RemotePlayer F) : Bool × Bool × UInt8 × F :=
  (player.locomotionInit, player.actorDead, player.appliedFlags, player.speed)

theorem Walks.same {log : List (Stride F)} {player player' : RemotePlayer F}
    (h : Walks log player) (hpace : pace player' = pace player) : Walks log player' := by
  simp only [pace, Prod.mk.injEq] at hpace
  obtain ⟨hinit, hdead, hflags, hspeed⟩ := hpace
  refine ⟨fun hfresh => h.fresh (hinit ▸ hfresh), h.first, fun hgoing => ?_⟩
  rw [sprints, hflags, hdead, hspeed]
  exact h.going (hinit ▸ hgoing)

theorem Walks.stride {log : List (Stride F)} {player player' : RemotePlayer F}
    (h : Walks log player) {stride : Stride F} (hfirst : stride.first = !player.locomotionInit)
    (hinit : player'.locomotionInit = true) (hsprints : stride.sprinting = sprints player')
    (hspeed : stride.speed = player'.speed) : Walks (log ++ [stride]) player' where
  fresh hfresh := by cases hinit.symm.trans hfresh
  first := by
    have hnew : stride.first = true ↔ log = [] := by
      rw [hfirst]
      cases hgoing : player.locomotionInit with
      | false => simp [h.fresh hgoing]
      | true =>
          obtain ⟨last, hlast, -⟩ := h.going hgoing
          have hsome : log ≠ [] := by
            rintro rfl
            cases hlast
          simp [hsome]
    intro before other after hsplit
    rcases List.eq_nil_or_concat after with rfl | ⟨after, last, rfl⟩
    · obtain ⟨rfl, hlast⟩ := List.append_inj' hsplit rfl
      rwa [← List.singleton_inj.mp hlast]
    · rw [List.concat_eq_append, ← List.cons_append, ← List.append_assoc] at hsplit
      exact h.first before other after (List.append_inj' hsplit rfl).1
  going _ := ⟨stride, List.getLast?_concat, hsprints, fun _ => hspeed⟩

section Tellings

variable [CppFloat F] {log : List (Stride F)}

theorem toldFloat_concat (log : List (Stride F)) (last : Stride F) (name : String) :
    toldFloat ((log ++ [last]).flatMap Stride.settings) name =
      (toldFloat last.settings name).or (toldFloat (log.flatMap Stride.settings) name) := by
  rw [List.flatMap_append, List.flatMap_singleton, toldFloat_append]

theorem toldBool_concat (log : List (Stride F)) (last : Stride F) (name : String) :
    toldBool ((log ++ [last]).flatMap Stride.settings) name =
      (toldBool last.settings name).or (toldBool (log.flatMap Stride.settings) name) := by
  rw [List.flatMap_append, List.flatMap_singleton, toldBool_append]

theorem gaitBool_rootMotion (speed : F) (sprinting : Bool) {name : String}
    (hname : name ∈ rootMotionNames) : gaitBool speed sprinting name = none := by
  have hother : ∀ name ∈ rootMotionNames, name ∉ sprintNames ∧ name ∉ runNames := by decide
  rw [gaitBool, if_neg (hother name hname).1, if_neg (hother name hname).2]

theorem toldBool_later {name : String} (hname : name ∈ rootMotionNames)
    (hlater : ∀ stride ∈ log, stride.first = false) :
    toldBool (log.flatMap Stride.settings) name = none := by
  induction log with
  | nil => rfl
  | cons stride log ih =>
      have hfirst : stride.first = false := hlater stride List.mem_cons_self
      have hrest := ih fun other hother => hlater other (List.mem_cons_of_mem _ hother)
      rw [List.flatMap_cons, toldBool_append, hrest, Stride.settings, toldBool_setLocomotion,
        gaitBool_rootMotion _ _ hname, hfirst]
      simp

/-- What the graph of a clone of the player was told: nothing at first.  Then the last
stride is for its record, and each variable there in that stride was last told the gait;
root motion was told off, once and for all, in the first stride. -/
structure Told (log : List (Stride F)) (player : RemotePlayer F) : Prop where
  fresh : player.locomotionInit = false → log.flatMap Stride.settings = []
  going : player.locomotionInit = true → ∃ last, log.getLast? = some last ∧
    last.sprinting = sprints player ∧ (player.actorDead = false → last.speed = player.speed) ∧
    (∀ name value, last.there.floats name = true → gaitFloat last.speed name = some value →
      toldFloat (log.flatMap Stride.settings) name = some value) ∧
    (∀ name value, last.there.bools name = true →
      gaitBool last.speed last.sprinting name = some value →
      toldBool (log.flatMap Stride.settings) name = some value)
  rootMotion : ∀ name ∈ rootMotionNames, toldBool (log.flatMap Stride.settings) name =
    log.head?.bind fun first => if first.there.bools name then some false else none
  wanted : ∀ setting ∈ log.flatMap Stride.settings, Wanted setting

theorem Walks.told {player : RemotePlayer F} (h : Walks log player) : Told log player where
  fresh hfresh := by
    rw [h.fresh hfresh]
    rfl
  going hgoing := by
    obtain ⟨last, hlast, hsprints, hspeed⟩ := h.going hgoing
    refine ⟨last, hlast, hsprints, hspeed, fun name value hthere hvalue => ?_,
      fun name value hthere hvalue => ?_⟩
    · rw [← List.dropLast_append_getLast? last hlast, toldFloat_concat, Stride.settings,
        toldFloat_setLocomotion, if_pos hthere, hvalue, Option.some_or]
    · rw [← List.dropLast_append_getLast? last hlast, toldBool_concat, Stride.settings,
        toldBool_setLocomotion, if_pos hthere, hvalue, Option.some_or, Option.some_or]
  rootMotion := by
    intro name hname
    cases hlog : log with
    | nil => rfl
    | cons first rest =>
        have hfirst : first.first = true := (h.first [] first rest hlog).mpr rfl
        have hlater : ∀ stride ∈ rest, stride.first = false := by
          intro stride hstride
          obtain ⟨before, after, rfl⟩ := List.append_of_mem hstride
          have hiff := h.first (first :: before) stride after hlog
          simpa using hiff
        rw [List.flatMap_cons, toldBool_append, toldBool_later hname hlater, Stride.settings,
          toldBool_setLocomotion, gaitBool_rootMotion _ _ hname, hfirst]
        simp [hname]
  wanted := by
    intro setting hsetting
    obtain ⟨stride, -, hmember⟩ := List.mem_flatMap.mp hsetting
    exact wanted_setLocomotion _ _ _ _ setting hmember

end Tellings

/-- What a stage of an update does to the graphs. -/
structure Strides (there : Ref → Nat → Names) (before after : RemotePlayer F × Engine F) :
    Prop where
  paced : Paced there before → Paced there after
  others : ∀ ref, before.1.actor ≠ some ref → ref < before.2.nextRef →
    walked there after.2 ref = walked there before.2 ref ∧ after.1.actor ≠ some ref ∧
      ref < after.2.nextRef

theorem Strides.trans {first second third : RemotePlayer F × Engine F}
    (h : Strides there first second) (h' : Strides there second third) :
    Strides there first third where
  paced hpaced := h'.paced (h.paced hpaced)
  others := by
    intro ref href hissued
    obtain ⟨hgraph, href', hissued'⟩ := h.others ref href hissued
    obtain ⟨hgraph', hrest⟩ := h'.others ref href' hissued'
    exact ⟨hgraph'.trans hgraph, hrest⟩

/-- A stage that no graph depends on, and that leaves the player with the same clone. -/
structure SamePace (before after : RemotePlayer F × Engine F) : Prop where
  actor : after.1.actor = before.1.actor
  pace : pace after.1 = pace before.1
  nextRef : after.2.nextRef = before.2.nextRef
  asked : Asked Silent before.2 after.2

section Stages

variable {player player' : RemotePlayer F} {engine engine' : Engine F}

theorem SamePace.refl (record : RemotePlayer F × Engine F) : SamePace record record :=
  ⟨rfl, rfl, rfl, .refl _⟩

theorem SamePace.strides {before after : RemotePlayer F × Engine F} (h : SamePace before after) :
    Strides there before after where
  paced := by
    intro hpaced ref href
    rw [walked_silent h.asked]
    exact (hpaced ref (h.actor.symm.trans href)).same h.pace
  others := by
    intro ref href hissued
    exact ⟨by rw [walked_silent h.asked], by rwa [h.actor], by rwa [h.nextRef]⟩

theorem strides_dropped (hactor : player'.actor = none)
    (hnextRef : engine'.nextRef = engine.nextRef) (hasked : Asked Silent engine engine') :
    Strides there (player, engine) (player', engine') where
  paced := by
    intro hpaced ref href
    cases hactor.symm.trans href
  others := by
    intro ref href hissued
    refine ⟨by rw [walked_silent hasked], ?_, by rwa [hnextRef]⟩
    rw [hactor]
    rintro ⟨⟩

theorem strides_created (hactor : player'.actor = some engine.nextRef)
    (hinit : player'.locomotionInit = false) {base : Form} {position : Vec3 F} {yaw : F}
    {space : Space} (hnextRef : engine'.nextRef = engine.nextRef + 1)
    (hasked : Asked Silent (engine.create base position yaw space) engine') :
    Strides there (player, engine) (player', engine') := by
  have hgraphs : walked there engine' = Function.update (walked there engine) engine.nextRef [] :=
    (walked_silent hasked).trans (run_concat _ _ _ _)
  refine ⟨fun _ ref href => ?_, fun ref _ hissued => ?_⟩
  · obtain rfl := Option.some.inj (hactor.symm.trans href)
    dsimp only
    rw [hgraphs, Function.update_self]
    refine ⟨fun _ => rfl, fun before stride after hsplit => ?_, fun hgoing => ?_⟩
    · simp at hsplit
    · cases hinit.symm.trans hgoing
  · dsimp only at hissued ⊢
    refine ⟨by rw [hgraphs, Function.update_of_ne hissued.ne], ?_, ?_⟩
    · rw [hactor]
      exact fun heq => hissued.ne' (Option.some.inj heq)
    · rw [hnextRef]
      exact hissued.trans (Nat.lt_succ_self _)

theorem samePace_chooseBase (remotes : RemotePlayers F D) (player : RemotePlayer F)
    (engine : Engine F) (answers : Answers) :
    SamePace (player, engine) (chooseBase remotes player engine answers).2 := by
  have hspec := chooseBase_spec remotes player engine answers
  refine ⟨hspec.1.actor, ?_, hspec.2.nextRef, ?_⟩
  · rw [chooseBase]
    split
    · split <;> rfl
    · dsimp only
      split <;> rfl
  · rw [chooseBase]
    split
    · split
      · exact silent_createCloneBase _ _ _ _ _
      · exact .refl _
    · exact .refl _

theorem samePace_present (remotes : RemotePlayers F D) (answers : Answers) (ref : Ref)
    (player : RemotePlayer F) (engine : Engine F) :
    SamePace (player, engine) (present remotes answers ref player engine) := by
  have hspec := present_spec remotes answers ref player engine
  have halpha : ∀ engine : Engine F, Asked Silent engine
      (if answers.transparent then engine.call (.setAlpha ref) else engine) :=
    fun _ => silent_if ⟨rfl, rfl⟩
  refine ⟨hspec.1.actor, ?_, hspec.2.nextRef, ?_⟩
  · rw [present]
    by_cases hpacify : (remotes.pacify && !player.actorPacified) = true
    · rw [if_pos hpacify]
      rfl
    · rw [if_neg hpacify]
  · rw [present]
    by_cases hpacify : (remotes.pacify && !player.actorPacified) = true
    · rw [if_pos hpacify]
      exact (silent_pacifyClone engine answers ref).trans (halpha _)
    · rw [if_neg hpacify]
      exact halpha _

theorem strides_tearDown (player : RemotePlayer F) (engine : Engine F) (visible : Bool)
    (targetSpace : Space) :
    Strides there (player, engine) (tearDown player engine visible targetSpace) := by
  rcases tearDown_cases player engine visible targetSpace with ⟨hkept, -⟩ | htorn
  · rw [hkept]
    exact (SamePace.refl _).strides
  · rw [htorn]
    exact strides_dropped rfl (despawn_nextRef _ _) (silent_despawn _ _)

theorem strides_spawnClone [CppFloat F] (remotes : RemotePlayers F D) (now : Time)
    (answers : Answers) (latest : PlayerState F) (space : Space) (player : RemotePlayer F)
    (engine : Engine F) :
    Strides there (player, engine) (spawnClone remotes now answers latest space player engine) := by
  have hchoice := samePace_chooseBase remotes { player with lastSpawnAttempt := now } engine answers
  rw [spawnClone]
  generalize chooseBase remotes { player with lastSpawnAttempt := now } engine answers = choice
    at hchoice
  obtain ⟨base, chosen, before⟩ := choice
  have hchosen : SamePace (player, engine) (chosen, before) :=
    ⟨hchoice.actor, hchoice.pace, hchoice.nextRef, hchoice.asked⟩
  cases base with
  | none => exact hchosen.strides
  | some base =>
      cases answers.placed with
      | nothing => exact strides_dropped rfl hchosen.nextRef hchosen.asked
      | localPlayer => exact strides_dropped rfl hchosen.nextRef hchosen.asked
      | clone =>
          have hget : (before.create base latest.position latest.yaw space).get
              (some before.nextRef) = some before.nextRef :=
            get_eq_some.mpr ⟨rfl, .inr List.mem_cons_self⟩
          simp only [spawnPlayerClone, hget]
          have hnamed : ∀ duplicate : Bool, Asked Silent
              (before.create base latest.position latest.yaw space)
              (if duplicate then before.create base latest.position latest.yaw space
              else applyCloneIdentity (before.create base latest.position latest.yaw space)
                before.nextRef chosen.name remotes.ghost) := by
            intro duplicate
            cases duplicate with
            | true => exact .refl _
            | false => exact silent_applyCloneIdentity _ _ _ _
          refine hchosen.strides.trans (strides_created ?_ ?_ ?_ (hnamed remotes.duplicate))
          · rfl
          · rfl
          · split
            · rfl
            · exact (still_applyCloneIdentity _ _ _ _).nextRef

theorem strides_ensureActor [CppFloat F] (remotes : RemotePlayers F D) (frame : Frame D)
    (answers : Answers) (latest : PlayerState F) (player : RemotePlayer F) (engine : Engine F) :
    Strides there (player, engine) (ensureActor remotes frame answers latest player engine) := by
  have htorn : Strides there (player, engine) (tearDown player engine
      ((spaceFromState latest).sameArea frame.localSpace) (spaceFromState latest)) :=
    strides_tearDown _ _ _ _
  rw [ensureActor]
  dsimp only
  split
  · exact htorn
  · split
    · exact htorn
    · exact htorn.trans (strides_spawnClone _ _ _ _ _ _ _)

/-- Only the call for the gait of the living is heard. -/
theorem animate_cases (ref : Ref) (latest : PlayerState F) (player : RemotePlayer F)
    (engine : Engine F) :
    (∃ engine', animate ref latest player engine = ({ player with actorDead := true }, engine') ∧
      engine'.nextRef = engine.nextRef ∧ Asked Silent engine engine') ∨
    ∃ engine' flags, animate ref latest player engine =
        ({ player with actorDead := false, appliedFlags := flags, locomotionInit := true },
          engine'.call (.setLocomotion ref player.speed (flags &&& kStateSprinting ≠ 0)
            (!player.locomotionInit))) ∧
      engine'.nextRef = engine.nextRef ∧ Asked Silent engine engine' := by
  rw [animate]
  dsimp only
  generalize decide (latest.flags &&& kStateDead ≠ 0) = dead
  obtain ⟨engine', hfirst, hnextRef, hasked⟩ : ∃ engine',
      (if dead ≠ player.actorDead then
        ({ player with actorDead := dead },
          engine.call (if dead then .killImpl ref else .resurrect ref))
      else (player, engine)) = ({ player with actorDead := dead }, engine') ∧
        engine'.nextRef = engine.nextRef ∧ Asked Silent engine engine' := by
    by_cases hchanged : dead ≠ player.actorDead
    · refine ⟨_, if_pos hchanged, rfl, asked_call ?_⟩
      cases dead <;> exact ⟨rfl, rfl⟩
    · obtain rfl := not_not.mp hchanged
      exact ⟨engine, if_neg hchanged, rfl, .refl _⟩
  rw [hfirst]
  cases dead with
  | true => exact .inl ⟨engine', rfl, hnextRef, hasked⟩
  | false =>
      refine .inr ⟨_, latest.flags &&& ~~~kStateDead, rfl, ?_,
        hasked.trans (silent_applyStateFlags _ _ _ _)⟩
      exact (still_applyStateFlags _ _ _ _).nextRef.trans hnextRef

theorem strides_animate {ref : Ref} (latest : PlayerState F) {player : RemotePlayer F}
    (href : player.actor = some ref) (engine : Engine F) (speed : F)
    {before : RemotePlayer F × Engine F}
    (hbefore : SamePace before ({ player with speed }, engine)) :
    Strides there before (animate ref latest player engine) := by
  have hactor : before.1.actor = some ref := hbefore.actor.symm.trans href
  have hgraphs : walked there engine = walked there before.2 := walked_silent hbefore.asked
  have hwalks : Paced there before →
      Walks (walked there engine ref) { player with speed } := by
    intro hpaced
    have hwalked := (hpaced ref hactor).same hbefore.pace
    rwa [← hgraphs] at hwalked
  rcases animate_cases ref latest player engine with
    ⟨engine', hanimate, hnextRef, hasked⟩ | ⟨engine', flags, hanimate, hnextRef, hasked⟩
  · rw [hanimate]
    refine ⟨fun hpaced other hother => ?_, fun other hother hissued => ?_⟩
    · obtain rfl := Option.some.inj (href.symm.trans hother)
      dsimp only
      rw [walked_silent hasked]
      refine ⟨(hwalks hpaced).fresh, (hwalks hpaced).first, fun hgoing => ?_⟩
      -- a corpse stays in the gait it had
      obtain ⟨last, hlast, hsprints, -⟩ := (hwalks hpaced).going hgoing
      exact ⟨last, hlast, hsprints, by rintro ⟨⟩⟩
    · refine ⟨?_, ?_, ?_⟩
      · rw [walked_silent hasked, hgraphs]
      · rw [hactor] at hother
        rwa [href]
      · rw [hnextRef, hbefore.nextRef]
        exact hissued
  · rw [hanimate]
    have hheard : walked there (engine'.call (.setLocomotion ref player.speed
          (flags &&& kStateSprinting ≠ 0) (!player.locomotionInit))) =
        Function.update (walked there before.2) ref (walked there engine ref ++
          [⟨there ref (walked there engine ref).length, player.speed,
            flags &&& kStateSprinting ≠ 0, !player.locomotionInit⟩]) := by
      rw [walked_call, walked_silent hasked, ← hgraphs]
      rfl
    refine ⟨fun hpaced other hother => ?_, fun other hother hissued => ?_⟩
    · obtain rfl := Option.some.inj (href.symm.trans hother)
      dsimp only
      rw [hheard, Function.update_self]
      exact (hwalks hpaced).stride rfl rfl rfl rfl
    · rw [hactor] at hother
      refine ⟨?_, ?_, ?_⟩
      · dsimp only
        rw [hheard, Function.update_of_ne]
        rintro rfl
        exact hother rfl
      · rwa [href]
      · exact hissued.trans_eq (hbefore.nextRef.symm.trans hnextRef.symm)

variable [CppFloat F] [CppFloat D] [Libm F] [Narrow D F]

theorem strides_driveActor (remotes : RemotePlayers F D) (frame : Frame D) (answers : Answers)
    {ref : Ref} (latest : PlayerState F) {player : RemotePlayer F} (href : player.actor = some ref)
    (engine : Engine F) :
    Strides there (player, engine) (driveActor remotes frame answers ref latest player engine) := by
  have hpresent := samePace_present remotes answers ref player engine
  rw [driveActor]
  generalize present remotes answers ref player engine = presented at hpresent
  obtain ⟨presented, before⟩ := presented
  dsimp only
  split
  · exact hpresent.strides
  · cases hsample : sampleAt presented.snapshots frame.renderMs with
    | none => exact hpresent.strides
    | some sample =>
        have hactor : presented.actor = some ref := hpresent.actor.trans href
        dsimp only
        rw [render]
        dsimp only
        refine strides_animate latest ?_ _ presented.speed ?_
        · exact hactor
        · refine ⟨hpresent.actor, hpresent.pace, hpresent.nextRef,
            hpresent.asked.trans (asked_call ?_)⟩
          generalize (remotes.move && _) = byMove
          cases byMove <;> exact ⟨rfl, rfl⟩

theorem strides_updateOne (remotes : RemotePlayers F D) (frame : Frame D) (answers : Answers)
    (player : RemotePlayer F) (engine : Engine F) :
    Strides there (player, engine) (updateOne remotes frame answers player engine) := by
  have htrimmed : SamePace (player, engine)
      ({ player with snapshots := trim frame.renderMs player.snapshots }, engine) :=
    ⟨rfl, rfl, rfl, .refl _⟩
  rw [updateOne]
  dsimp only
  generalize { player with snapshots := trim frame.renderMs player.snapshots } = trimmed
    at htrimmed
  cases trimmed.latest with
  | none => exact htrimmed.strides
  | some latest =>
      have hensured : Strides there (player, engine)
          (ensureActor remotes frame answers latest trimmed engine) :=
        htrimmed.strides.trans (strides_ensureActor _ _ _ _ _ _)
      dsimp only
      generalize ensureActor remotes frame answers latest trimmed engine = ensured at hensured
      obtain ⟨ensured, before⟩ := ensured
      dsimp only
      cases hget : before.get ensured.actor with
      | none => exact hensured
      | some ref =>
          exact hensured.trans
            (strides_driveActor _ _ _ latest (get_eq_some.mp hget).1 before)

end Stages

/-- The graphs are left alone, and handles are kept with their records or given up. -/
structure Steady (scene scene' : Scene F D) : Prop where
  asked : Asked Silent scene.engine scene'.engine
  records : ∀ id player', scene'.find id = some player' → player'.actor = none ∨
    ∃ player, scene.find id = some player ∧ player'.actor = player.actor ∧
      pace player' = pace player

def AllPaced (there : Ref → Nat → Names) (scene : Scene F D) : Prop :=
  ∀ id player, scene.find id = some player → Paced there (player, scene.engine)

section Scenes

variable {scene scene' : Scene F D}

theorem AllPaced.steady (h : AllPaced there scene) (hsteady : Steady scene scene') :
    AllPaced there scene' := by
  intro id player' hplayer' ref href
  dsimp only at href ⊢
  rw [walked_silent hsteady.asked]
  rcases hsteady.records id player' hplayer' with hnone | ⟨player, hplayer, hactor, hpace⟩
  · cases hnone.symm.trans href
  · exact (h id player hplayer ref (hactor.symm.trans href)).same hpace

theorem Steady.of_same (hasked : Asked Silent scene.engine scene'.engine)
    (hfind : ∀ id, scene'.find id = scene.find id) : Steady scene scene' :=
  ⟨hasked, fun id player' hplayer' => .inr ⟨player', (hfind id).symm.trans hplayer', rfl, rfl⟩⟩

theorem Steady.of_record {id : PlayerId} {record : RemotePlayer F}
    (hasked : Asked Silent scene.engine scene'.engine)
    (hrecord : ∀ player, scene.find id = some player →
      record.actor = player.actor ∧ pace record = pace player)
    (hfresh : scene.find id = none → record.actor = none)
    (hfind : ∀ c, scene'.find c = if c = id then some record else scene.find c) :
    Steady scene scene' := by
  refine ⟨hasked, fun c player' hplayer' => ?_⟩
  rw [hfind] at hplayer'
  split at hplayer'
  · rename_i hc
    obtain rfl := Option.some.inj hplayer'
    rw [hc]
    cases hplayer : scene.find id with
    | none => exact .inl (hfresh hplayer)
    | some player => exact .inr ⟨player, rfl, hrecord player hplayer⟩
  · exact .inr ⟨player', hplayer', rfl, rfl⟩

theorem Steady.of_letGo (h : LetGo scene scene')
    (hasked : Asked Silent scene.engine scene'.engine) : Steady scene scene' :=
  ⟨hasked, fun id _ hplayer' => .inl ((handle_eq hplayer').symm.trans (h.handles id))⟩

theorem steady_add [CppFloat F] (scene : Scene F D) (id : PlayerId) (name : Bytes) :
    Steady scene (add scene id name) := by
  refine .of_record (silent_renameCloneBase _ _ _) (fun player hplayer => ?_) (fun hnone => ?_)
    (find_add scene id name)
  · rw [hplayer]
    exact ⟨rfl, rfl⟩
  · rw [hnone]
    rfl

theorem steady_rename [CppFloat F] (scene : Scene F D) (id : PlayerId) (name : Bytes) :
    Steady scene (rename scene id name) := by
  refine .of_record ?_ (fun player hplayer => ?_) (fun hnone => ?_) (find_rename scene id name)
  · rw [rename]
    split
    · exact silent_renameCloneBase _ _ _
    · dsimp only
      split
      · exact silent_renameCloneBase _ _ _
      · exact (silent_renameCloneBase _ _ _).trans (silent_applyCloneIdentity _ _ _ _)
  · rw [hplayer]
    exact ⟨rfl, rfl⟩
  · rw [hnone]
    rfl

theorem steady_remove (scene : Scene F D) (id : PlayerId) : Steady scene (remove scene id) := by
  refine ⟨?_, fun c player' hplayer' => ?_⟩
  · rw [remove]
    split
    · exact .refl _
    · exact silent_despawn _ _
  · rw [find_remove] at hplayer'
    split at hplayer'
    · cases hplayer'
    · exact .inr ⟨player', hplayer', rfl, rfl⟩

theorem steady_applyState [CppFloat F] [CppFloat D] (scene : Scene F D) (id : PlayerId)
    (state : PlayerState F) (serverMs : UInt32) (localMs : D) :
    Steady scene (applyState scene id state serverMs localMs) := by
  refine .of_record ?_ (fun player hplayer => ?_) (fun hnone => ?_)
    (find_applyState scene id state serverMs localMs)
  · rw [applyState]
    dsimp only
    split
    · exact .refl _
    · exact silent_renameCloneBase _ _ _
  · rw [stateEntry, hplayer]
    exact ⟨rfl, rfl⟩
  · rw [stateEntry, hnone]
    rfl

variable [CppFloat F] [CppFloat D] [Libm F] [Narrow D F]

theorem allPaced_updatePlayer (hfaithful : Faithful scene) (h : AllPaced there scene)
    (frame : Frame D) (id : PlayerId) : AllPaced there (updatePlayer frame scene id) := by
  cases hfind : scene.find id with
  | none =>
      rw [updatePlayer_of_none hfind]
      exact h
  | some player =>
      have hstrides : Strides there (player, scene.engine)
          (updateOne scene.remotes frame (frame.answers id) player scene.engine) :=
        strides_updateOne _ _ _ _ _
      obtain ⟨hengine, hfind'⟩ := updatePlayer_spec hfind frame
      intro c player' hplayer'
      rw [hengine]
      rw [hfind'] at hplayer'
      split at hplayer'
      · rw [← Option.some.inj hplayer']
        exact hstrides.paced (h id player hfind)
      · rename_i hc
        intro ref href
        -- nobody else holds the clone that was updated
        have hheld : handle scene c = some ref := (handle_eq hplayer').trans href
        have hother : player.actor ≠ some ref := fun heq =>
          hc (hfaithful.exclusive c id ref hheld ((handle_eq hfind).trans heq))
        have hkept := hstrides.others ref hother (hfaithful.confined.sound.issued c ref hheld)
        dsimp only at hkept ⊢
        rw [hkept.1]
        exact h c player' hplayer' ref href

variable [Widen F D]

theorem steady_perform (scene : Scene F D) {op : Op F D} (hop : ∀ input, op ≠ .update input) :
    Steady scene (scene.perform op) := by
  cases op with
  | setInterpDelay | setDrive | setMove => exact .of_same (.refl _) fun _ => rfl
  | setCloneBase | setPacify | setGhost | setDuplicate =>
      exact .of_letGo (letGo_respawnWith scene rfl) (silent_despawn_foldl _ _)
  | respawn => exact .of_letGo (letGo_respawn scene) (silent_despawn_foldl _ _)
  | add id name => exact steady_add scene id name
  | rename id name => exact steady_rename scene id name
  | remove id => exact steady_remove scene id
  | applyState id state serverMs localMs => exact steady_applyState scene id state serverMs localMs
  | update input => exact absurd rfl (hop input)
  | despawnAll => exact .of_letGo (letGo_despawnAll scene) (silent_despawn_foldl _ _)
  | forgetActors => exact .of_letGo (letGo_forgetActors scene) (.refl _)
  | clear => exact .of_letGo (letGo_clear scene) (silent_despawn_foldl _ _)
  | actorDeleted ref => exact .of_same (.refl _) fun _ => rfl

theorem allPaced_step (hfaithful : Faithful scene) (h : AllPaced there scene)
    (input : PlayerOrder F × Op F D) : AllPaced there (scene.step input) := by
  obtain ⟨order, op⟩ := input
  have hreordered : AllPaced there (scene.reorder order) :=
    h.steady (.of_same (.refl _) fun id => lookup_arrange order _ id)
  have hstill := hfaithful.reorder order
  by_cases hupdate : ∃ input, op = .update input
  · obtain ⟨input, rfl⟩ := hupdate
    change AllPaced there (update (scene.reorder order) input)
    rw [update]
    split
    · exact hreordered
    · rename_i localSpace hspace
      generalize (scene.reorder order).remotes.players.keys = ids
      generalize frameOf (scene.reorder order).remotes input localSpace = frame
      generalize scene.reorder order = start at hreordered hstill
      induction ids generalizing start with
      | nil => exact hreordered
      | cons id ids ih =>
          exact ih _ (allPaced_updatePlayer hstill hreordered frame id)
            (faithful_updatePlayer hstill frame id)
  · exact hreordered.steady (steady_perform _ fun input heq => hupdate ⟨input, heq⟩)

end Scenes

section Example

open F4MP.Native
open F4MP.ClonePostures (stateWith nearby)

/-- Graphs that answer for root motion only after the first call. -/
def tardy (_ : Ref) (calls : Nat) : Names where
  floats name := name = "Speed"
  bools name := name = "IsSprinting" ∨ name = "bMotionDriven" ∧ 0 < calls

def sprintingAt (x : ℚ) : PlayerState F32 :=
  { stateWith kStateSprinting with
    position := ⟨CppFloat.ofRat x, CppFloat.ofRat 0, CppFloat.ofRat 0⟩ }

def passing : List (PlayerOrder F32 × Op F32 F64) :=
  [(.keep _, .applyState 1 (sprintingAt 0) 1000 (CppFloat.ofRat 1000)),
    (.keep _, .update (nearby 1000000000)),
    (.keep _, .applyState 1 (sprintingAt 30) 1100 (CppFloat.ofRat 1100)),
    (.keep _, .update (nearby 1200000000)), (.keep _, .update (nearby 1250000000))]

end Example

end F4MP.Locomotion
