import Mathlib.Data.Nat.Bitwise
import F4MP.Snapshots
import F4MP.Library.Journal

/-!
The postures of the clones: what the calls so far made of each clone, and that the
records of the players mirror it.
-/

namespace F4MP.ClonePostures

open F4MP.Types
open F4MP.Arith
open F4MP.Interp
open F4MP.GameUtil
open F4MP.ServerModel
open F4MP.RemotePlayersModel
open F4MP.CloneUpdate
open F4MP.Clones
open F4MP.Snapshots
open F4MP.Library.HashTable
open F4MP.Library.Leases
open F4MP.Library.Runs
open F4MP.Library.Journal

/-- What is seen of a clone; as it starts, alive and with everything off. -/
structure Body where
  dead : Bool := false
  sneaking : Bool := false
  weaponDrawn : Bool := false
  sprinting : Bool := false

variable {F D : Type}

/-- The clone whose death or posture a call sets. -/
def setter : Call F → Option Ref
  | .killImpl ref => some ref
  | .resurrect ref => some ref
  | .setSneaking ref _ => some ref
  | .drawWeaponMagicHands ref _ => some ref
  | .setSprinting ref _ => some ref
  | _ => none

/-- What a call makes of the body of the clone it is about. -/
def Body.obey (body : Body) : Call F → Body
  | .createReferenceAtLocation _ _ _ _ _ => {}
  | .killImpl _ => { body with dead := true }
  | .resurrect _ => { body with dead := false }
  | .setSneaking _ on => { body with sneaking := on }
  | .drawWeaponMagicHands _ on => { body with weaponDrawn := on }
  | .setSprinting _ on => { body with sprinting := on }
  | _ => body

def hear (bodies : Ref → Body) (call : Call F) : Ref → Body :=
  match (spawned call).or (setter call) with
  | none => bodies
  | some ref => Function.update bodies ref ((bodies ref).obey call)

/-- The bodies the engine has made so far. -/
def bodies (engine : Engine F) : Ref → Body := run hear (fun _ => {}) engine.calls

/-- Every setter that was called so far changed the body of its clone. -/
def NoneIdle (engine : Engine F) : Prop :=
  Terse hear (fun call => setter call ≠ none) (fun _ => {}) engine.calls

def Body.ofFlags (dead : Bool) (flags : UInt8) : Body where
  dead := dead
  sneaking := flags &&& kStateSneaking ≠ 0
  weaponDrawn := flags &&& kStateWeaponDrawn ≠ 0
  sprinting := flags &&& kStateSprinting ≠ 0

/-- The body of the clone of a player, as the player's record has it. -/
def posture (player : RemotePlayer F) : Body := .ofFlags player.actorDead player.appliedFlags

def Neutral (call : Call F) : Prop := spawned call = none ∧ setter call = none

section Calls

variable {engine engine' : Engine F}

theorem hear_neutral {call : Call F} (h : Neutral call) (bodies : Ref → Body) :
    hear bodies call = bodies := by
  rw [hear, h.1, h.2]
  rfl

theorem bodies_call (engine : Engine F) (call : Call F) :
    bodies (engine.call call) = hear (bodies engine) call := run_concat _ _ _ _

theorem bodies_neutral (h : Asked Neutral engine engine') : bodies engine' = bodies engine := by
  obtain ⟨more, hmore, hneutral⟩ := h
  rw [bodies, hmore, run_append_idle fun call hcall => hear_neutral (hneutral call hcall)]
  rfl

theorem noneIdle_neutral (h : Asked Neutral engine engine') (hidle : NoneIdle engine) :
    NoneIdle engine' := by
  obtain ⟨more, hmore, hneutral⟩ := h
  rw [NoneIdle, hmore]
  exact Terse.append_idle hidle fun call hcall => not_not.mpr (hneutral call hcall).2

theorem neutral_if {condition : Prop} [Decidable condition] {call : Call F} (h : Neutral call) :
    Asked Neutral engine (if condition then engine.call call else engine) := by
  split
  · exact asked_call h
  · exact .refl _

theorem neutral_renameCloneBase (engine : Engine F) (base : Option Form) (name : Bytes) :
    Asked Neutral engine (renameCloneBase engine base name) := by
  cases base with
  | none => exact .refl _
  | some base => exact asked_call ⟨rfl, rfl⟩

theorem neutral_createCloneBase (engine : Engine F) (form : Option Form) (source : Form)
    (name : Bytes) (ghost : Bool) :
    Asked Neutral engine (createCloneBase engine form source name ghost).2 := by
  cases form with
  | none => exact .refl _
  | some form => exact Asked.trans (asked_call ⟨rfl, rfl⟩) (neutral_renameCloneBase _ _ _)

theorem neutral_pacifyClone (engine : Engine F) (answers : Answers) (ref : Ref) :
    Asked Neutral engine (pacifyClone engine answers ref).2 := by
  rw [pacifyClone]
  split
  · exact .refl _
  · exact Asked.trans (asked_call ⟨rfl, rfl⟩) (neutral_if ⟨rfl, rfl⟩)

theorem neutral_applyCloneIdentity (engine : Engine F) (ref : Ref) (name : Bytes) (ghost : Bool) :
    Asked Neutral engine (applyCloneIdentity engine ref name ghost) := by
  rw [applyCloneIdentity]
  exact Asked.trans (asked_call ⟨rfl, rfl⟩) (neutral_if ⟨rfl, rfl⟩)

theorem neutral_despawn (engine : Engine F) (handle : Option Ref) :
    Asked Neutral engine (despawn engine handle) := by
  rw [despawn]
  split
  · exact .refl _
  · split
    · exact .refl _
    · refine ⟨_, rfl, ?_⟩
      simp [Neutral, spawned, setter]

theorem neutral_despawn_foldl (engine : Engine F)
    (entries : List (Sigma fun _ : PlayerId => RemotePlayer F)) :
    Asked Neutral engine
      (entries.foldl (fun engine entry => despawn engine entry.2.actor) engine) := by
  induction entries generalizing engine with
  | nil => exact .refl _
  | cons entry entries ih => exact (neutral_despawn _ _).trans (ih _)

end Calls

/-- One bit of a byte differs exactly if it is on in one of two bytes. -/
theorem bit_xor_iff {bit : UInt8} {i : ℕ} (hbit : bit.toNat = 2 ^ i) (flags previous : UInt8) :
    (flags ^^^ previous) &&& bit ≠ 0 ↔
      decide (flags &&& bit ≠ 0) ≠ decide (previous &&& bit ≠ 0) := by
  have hone : ∀ x : UInt8, x &&& bit = 0 ∨ x &&& bit = bit := by
    intro x
    rw [← UInt8.toNat_inj, ← UInt8.toNat_inj, UInt8.toNat_and, hbit, Nat.and_two_pow]
    cases x.toNat.testBit i <;> simp
  have hdistrib : (flags ^^^ previous) &&& bit = (flags &&& bit) ^^^ (previous &&& bit) :=
    UInt8.toNat_inj.mp (by simp [Nat.and_xor_distrib_right])
  have hne : bit ≠ 0 := by
    rintro rfl
    exact absurd hbit.symm (by simp)
  rw [hdistrib]
  rcases hone flags with hflags | hflags <;>
    rcases hone previous with hprevious | hprevious <;>
      simp [hflags, hprevious, hne]

/-- The body of one clone was set, with calls that each changed it. -/
structure Pushed (ref : Ref) (body : Body) (engine engine' : Engine F) : Prop where
  nextRef : engine'.nextRef = engine.nextRef
  heard : bodies engine' = Function.update (bodies engine) ref body
  noneIdle : NoneIdle engine → NoneIdle engine'

section Setters

variable {engine engine' engine'' : Engine F} {ref : Ref} {body body' : Body}

theorem Pushed.trans (h : Pushed ref body engine engine') (h' : Pushed ref body' engine' engine'') :
    Pushed ref body' engine engine'' where
  nextRef := h'.nextRef.trans h.nextRef
  heard := by rw [h'.heard, h.heard, Function.update_idem]
  noneIdle hidle := h'.noneIdle (h.noneIdle hidle)

theorem Pushed.heard_self (h : Pushed ref body engine engine') : bodies engine' ref = body := by
  rw [h.heard, Function.update_self]

theorem Pushed.of_neutral (hnextRef : engine'.nextRef = engine.nextRef)
    (hasked : Asked Neutral engine engine') (hbody : bodies engine ref = body) :
    Pushed ref body engine engine' where
  nextRef := hnextRef
  heard := by rw [bodies_neutral hasked, ← hbody, Function.update_eq_self]
  noneIdle := noneIdle_neutral hasked

theorem pushed_if (call : Call F) (hcall : setter call = some ref) {condition : Prop}
    [Decidable condition] (hbody : bodies engine ref = body)
    (hcondition : condition ↔ body.obey call ≠ body) :
    Pushed ref (body.obey call) engine (if condition then engine.call call else engine) := by
  have hspawned : spawned call = none := by
    cases call <;> first | rfl | cases hcall
  have hheard : bodies (engine.call call) =
      Function.update (bodies engine) ref (body.obey call) := by
    rw [bodies_call, hear, hspawned, hcall, ← hbody]
    rfl
  split
  · rename_i hchanges
    refine ⟨rfl, hheard, fun hidle => terse_concat.mpr ⟨hidle, fun _ hsame => ?_⟩⟩
    have hkept : bodies (engine.call call) ref = bodies engine ref :=
      congrFun ((bodies_call engine call).trans hsame) ref
    rw [hheard, Function.update_self, hbody] at hkept
    exact hcondition.mp hchanges hkept
  · rename_i hsame
    rw [not_iff_not.mpr hcondition, not_not] at hsame
    exact .of_neutral rfl (.refl _) (hbody.trans hsame.symm)

end Setters

section Update

theorem pushed_applyStateFlags {engine : Engine F} {ref : Ref} {dead : Bool}
    {previous : UInt8} (hbody : bodies engine ref = .ofFlags dead previous) (flags : UInt8) :
    Pushed ref (.ofFlags dead flags) engine (applyStateFlags engine ref flags previous) := by
  have hsneaking := bit_xor_iff (show kStateSneaking.toNat = 2 ^ 0 from rfl) flags previous
  have hweapon := bit_xor_iff (show kStateWeaponDrawn.toNat = 2 ^ 1 from rfl) flags previous
  have hsprinting := bit_xor_iff (show kStateSprinting.toNat = 2 ^ 3 from rfl) flags previous
  have hfirst := pushed_if (.setSneaking ref (flags &&& kStateSneaking ≠ 0)) rfl hbody
    (hsneaking.trans (by simp [Body.obey, Body.ofFlags]))
  have hsecond := pushed_if (.drawWeaponMagicHands ref (flags &&& kStateWeaponDrawn ≠ 0)) rfl
    hfirst.heard_self (hweapon.trans (by simp [Body.obey, Body.ofFlags]))
  have hthird := pushed_if (.setSprinting ref (flags &&& kStateSprinting ≠ 0)) rfl
    hsecond.heard_self (hsprinting.trans (by simp [Body.obey, Body.ofFlags]))
  exact (hfirst.trans hsecond).trans hthird

/-- The record has the body of the player's clone. -/
def Mirrored (record : RemotePlayer F × Engine F) : Prop :=
  ∀ ref, record.1.actor = some ref → bodies record.2 ref = posture record.1

/-- What a stage of an update does to the bodies. -/
structure Posed (before after : RemotePlayer F × Engine F) : Prop where
  mirrored : Mirrored before → Mirrored after
  noneIdle : Mirrored before → NoneIdle before.2 → NoneIdle after.2
  others : Mirrored before → ∀ ref, before.1.actor ≠ some ref → ref < before.2.nextRef →
    bodies after.2 ref = bodies before.2 ref ∧ after.1.actor ≠ some ref ∧ ref < after.2.nextRef

theorem Posed.trans {first second third : RemotePlayer F × Engine F} (h : Posed first second)
    (h' : Posed second third) : Posed first third where
  mirrored hmirrored := h'.mirrored (h.mirrored hmirrored)
  noneIdle hmirrored hidle := h'.noneIdle (h.mirrored hmirrored) (h.noneIdle hmirrored hidle)
  others := by
    intro hmirrored ref href hissued
    obtain ⟨hbody, href', hissued'⟩ := h.others hmirrored ref href hissued
    obtain ⟨hbody', hrest⟩ := h'.others (h.mirrored hmirrored) ref href' hissued'
    exact ⟨hbody'.trans hbody, hrest⟩

section Stages

variable {player player' : RemotePlayer F} {engine engine' : Engine F}

theorem Posed.of_neutral (hactor : player'.actor = player.actor)
    (hposture : posture player' = posture player) (hnextRef : engine'.nextRef = engine.nextRef)
    (hasked : Asked Neutral engine engine') : Posed (player, engine) (player', engine') where
  mirrored := by
    intro hmirrored ref href
    dsimp only at href ⊢
    rw [bodies_neutral hasked, hposture]
    exact hmirrored ref (hactor.symm.trans href)
  noneIdle _ := noneIdle_neutral hasked
  others := by
    intro _ ref href hissued
    dsimp only at href hissued ⊢
    exact ⟨congrFun (bodies_neutral hasked) ref, by rwa [hactor], by rwa [hnextRef]⟩

theorem Posed.refl (record : RemotePlayer F × Engine F) : Posed record record :=
  .of_neutral rfl rfl rfl (.refl _)

theorem Posed.of_dropped (hactor : player'.actor = none)
    (hnextRef : engine'.nextRef = engine.nextRef) (hasked : Asked Neutral engine engine') :
    Posed (player, engine) (player', engine') where
  mirrored _ ref href := absurd (hactor.symm.trans href) (by rintro ⟨⟩)
  noneIdle _ := noneIdle_neutral hasked
  others := by
    intro _ ref _ hissued
    dsimp only at hissued ⊢
    refine ⟨congrFun (bodies_neutral hasked) ref, ?_, by rwa [hnextRef]⟩
    rw [hactor]
    rintro ⟨⟩

theorem Posed.of_created (hactor : player'.actor = some engine.nextRef)
    (hposture : posture player' = {}) {base : Form} {position : Vec3 F} {yaw : F} {space : Space}
    (hnextRef : engine'.nextRef = engine.nextRef + 1)
    (hasked : Asked Neutral (engine.create base position yaw space) engine') :
    Posed (player, engine) (player', engine') := by
  have hheard : bodies engine' = Function.update (bodies engine) engine.nextRef {} :=
    (bodies_neutral hasked).trans (run_concat _ _ _ _)
  refine ⟨fun _ ref href => ?_, fun _ hidle => ?_, fun _ ref _ hissued => ?_⟩
  · dsimp only at href ⊢
    obtain rfl := Option.some.inj (hactor.symm.trans href)
    rw [hheard, Function.update_self, hposture]
  · refine noneIdle_neutral hasked (Terse.append_idle hidle fun call hcall => ?_)
    rw [List.mem_singleton.mp hcall]
    exact not_not.mpr rfl
  · dsimp only at hissued ⊢
    refine ⟨?_, ?_, ?_⟩
    · rw [hheard, Function.update_of_ne hissued.ne]
    · rw [hactor]
      exact fun heq => hissued.ne' (Option.some.inj heq)
    · rw [hnextRef]
      exact hissued.trans (Nat.lt_succ_self _)

theorem Posed.of_pushed {ref : Ref} (href : player.actor = some ref)
    (hactor : player'.actor = player.actor)
    (hpushed : bodies engine ref = posture player → Pushed ref (posture player') engine engine') :
    Posed (player, engine) (player', engine') where
  mirrored := by
    intro hmirrored other hother
    obtain rfl := Option.some.inj (href.symm.trans (hactor.symm.trans hother))
    exact (hpushed (hmirrored ref href)).heard_self
  noneIdle hmirrored := (hpushed (hmirrored ref href)).noneIdle
  others := by
    intro hmirrored other hother hissued
    have hset := hpushed (hmirrored ref href)
    dsimp only at hother hissued ⊢
    refine ⟨?_, by rwa [hactor], by rwa [hset.nextRef]⟩
    have hne : other ≠ ref := by
      rintro rfl
      exact hother href
    rw [hset.heard, Function.update_of_ne hne]

end Stages

theorem posed_tearDown (player : RemotePlayer F) (engine : Engine F) (visible : Bool)
    (targetSpace : Space) :
    Posed (player, engine) (tearDown player engine visible targetSpace) := by
  rcases tearDown_cases player engine visible targetSpace with ⟨hkept, -⟩ | htorn
  · rw [hkept]
    exact .refl _
  · rw [htorn]
    exact .of_dropped rfl (despawn_nextRef _ _) (neutral_despawn _ _)

/-- A stage that no body depends on, and that leaves the player with the same clone. -/
structure SamePosture (before after : RemotePlayer F × Engine F) : Prop where
  actor : after.1.actor = before.1.actor
  posture : posture after.1 = posture before.1
  nextRef : after.2.nextRef = before.2.nextRef
  asked : Asked Neutral before.2 after.2

theorem SamePosture.posed {before after : RemotePlayer F × Engine F}
    (h : SamePosture before after) : Posed before after :=
  .of_neutral h.actor h.posture h.nextRef h.asked

theorem samePosture_chooseBase (remotes : RemotePlayers F D) (player : RemotePlayer F)
    (engine : Engine F) (answers : Answers) :
    SamePosture (player, engine) (chooseBase remotes player engine answers).2 := by
  have hstill := (chooseBase_spec remotes player engine answers).2.nextRef
  have hactor := (chooseBase_spec remotes player engine answers).1.actor
  refine ⟨hactor, ?_, hstill, ?_⟩
  · rw [chooseBase]
    split
    · split <;> rfl
    · dsimp only
      split <;> rfl
  · rw [chooseBase]
    split
    · split
      · exact neutral_createCloneBase _ _ _ _ _
      · exact .refl _
    · exact .refl _

theorem samePosture_present (remotes : RemotePlayers F D) (answers : Answers) (ref : Ref)
    (player : RemotePlayer F) (engine : Engine F) :
    SamePosture (player, engine) (present remotes answers ref player engine) := by
  have hspec := present_spec remotes answers ref player engine
  refine ⟨hspec.1.actor, ?_, hspec.2.nextRef, ?_⟩
  · rw [present]
    by_cases hpacify : (remotes.pacify && !player.actorPacified) = true
    · rw [if_pos hpacify]
      rfl
    · rw [if_neg hpacify]
  · have halpha : ∀ engine : Engine F, Asked Neutral engine
        (if answers.transparent then engine.call (.setAlpha ref) else engine) :=
      fun _ => neutral_if ⟨rfl, rfl⟩
    rw [present]
    by_cases hpacify : (remotes.pacify && !player.actorPacified) = true
    · rw [if_pos hpacify]
      exact (neutral_pacifyClone engine answers ref).trans (halpha _)
    · rw [if_neg hpacify]
      exact halpha _

/-- Death and posture are as in a state; a corpse keeps the posture it had. -/
def Shown (latest : PlayerState F) (player : RemotePlayer F) : Prop :=
  player.actorDead = decide (latest.flags &&& kStateDead ≠ 0) ∧
    (player.actorDead = false → player.appliedFlags = latest.flags &&& ~~~kStateDead)

theorem posed_animate {ref : Ref} (latest : PlayerState F) {player : RemotePlayer F}
    (href : player.actor = some ref) (engine : Engine F) :
    Posed (player, engine) (animate ref latest player engine) ∧
      Shown latest (animate ref latest player engine).1 := by
  rw [animate]
  dsimp only
  generalize hdead : decide (latest.flags &&& kStateDead ≠ 0) = dead
  obtain ⟨player₁, engine₁, hfirst, hactor₁, hdead₁, hpushed₁⟩ : ∃ player₁ engine₁,
      (if dead ≠ player.actorDead then
        ({ player with actorDead := dead },
          engine.call (if dead then .killImpl ref else .resurrect ref))
      else (player, engine)) = (player₁, engine₁) ∧ player₁.actor = player.actor ∧
        player₁.actorDead = dead ∧
        (bodies engine ref = posture player → Pushed ref (posture player₁) engine engine₁) := by
    by_cases hchanged : dead ≠ player.actorDead
    · refine ⟨_, _, if_pos hchanged, rfl, rfl, fun hbody => ?_⟩
      have hset : Pushed ref (.ofFlags dead player.appliedFlags) engine
          (if dead ≠ player.actorDead then
            engine.call (if dead then .killImpl ref else .resurrect ref)
          else engine) := by
        cases dead with
        | true =>
            exact pushed_if (.killImpl ref) rfl hbody
              (by simp [Body.obey, posture, Body.ofFlags])
        | false =>
            exact pushed_if (.resurrect ref) rfl hbody
              (by simp [Body.obey, posture, Body.ofFlags])
      rwa [if_pos hchanged] at hset
    · exact ⟨_, _, if_neg hchanged, rfl, (not_not.mp hchanged).symm,
        .of_neutral rfl (.refl _)⟩
  rw [hfirst]
  cases dead with
  | true =>
      refine ⟨.of_pushed href hactor₁ hpushed₁, hdead₁.trans hdead.symm, fun hlives => ?_⟩
      exact absurd (hdead₁.symm.trans hlives) (by rintro ⟨⟩)
  | false =>
      refine ⟨.of_pushed href hactor₁ fun hbody => ?_, hdead₁.trans hdead.symm, fun _ => rfl⟩
      have hset := hpushed₁ hbody
      have hposture := pushed_applyStateFlags hset.heard_self (latest.flags &&& ~~~kStateDead)
      exact (hset.trans hposture).trans
        (.of_neutral rfl (asked_call ⟨rfl, rfl⟩) hposture.heard_self)

variable [CppFloat F]

theorem posed_spawnClone (remotes : RemotePlayers F D) (now : Time) (answers : Answers)
    (latest : PlayerState F) (space : Space) (player : RemotePlayer F) (engine : Engine F) :
    Posed (player, engine) (spawnClone remotes now answers latest space player engine) := by
  have hchoice := samePosture_chooseBase remotes { player with lastSpawnAttempt := now } engine
    answers
  rw [spawnClone]
  generalize chooseBase remotes { player with lastSpawnAttempt := now } engine answers = choice
    at hchoice
  obtain ⟨base, chosen, before⟩ := choice
  obtain ⟨hactor, hposture, hnextRef, hasked⟩ := hchoice
  have hchosen : Posed (player, engine) (chosen, before) :=
    .of_neutral hactor hposture hnextRef hasked
  cases base with
  | none => exact hchosen
  | some base =>
      cases answers.placed with
      | nothing => exact .of_dropped rfl hnextRef hasked
      | localPlayer => exact .of_dropped rfl hnextRef hasked
      | clone =>
          have hget : (before.create base latest.position latest.yaw space).get
              (some before.nextRef) = some before.nextRef :=
            get_eq_some.mpr ⟨rfl, .inr List.mem_cons_self⟩
          simp only [spawnPlayerClone, hget]
          have hnamed : ∀ duplicate : Bool, Asked Neutral
              (before.create base latest.position latest.yaw space)
              (if duplicate then before.create base latest.position latest.yaw space
              else applyCloneIdentity (before.create base latest.position latest.yaw space)
                before.nextRef chosen.name remotes.ghost) := by
            intro duplicate
            cases duplicate with
            | true => exact .refl _
            | false => exact neutral_applyCloneIdentity _ _ _ _
          refine hchosen.trans (.of_created ?_ ?_ ?_ (hnamed remotes.duplicate))
          · rfl
          · simp [posture, Body.ofFlags, RemotePlayer.spawned, kStateNone]
          · split
            · rfl
            · exact (still_applyCloneIdentity _ _ _ _).nextRef

theorem posed_ensureActor (remotes : RemotePlayers F D) (frame : Frame D) (answers : Answers)
    (latest : PlayerState F) (player : RemotePlayer F) (engine : Engine F) :
    Posed (player, engine) (ensureActor remotes frame answers latest player engine) := by
  have htorn := posed_tearDown player engine ((spaceFromState latest).sameArea frame.localSpace)
    (spaceFromState latest)
  rw [ensureActor]
  dsimp only
  split
  · exact htorn
  · split
    · exact htorn
    · exact htorn.trans (posed_spawnClone _ _ _ _ _ _ _)

theorem samePosture_render [Libm F] (remotes : RemotePlayers F D) (now : Time) (ref : Ref)
    (sample : PlayerState F) (player : RemotePlayer F) (engine : Engine F) :
    SamePosture (player, engine) (render remotes now ref sample player engine) := by
  rw [render]
  refine ⟨rfl, rfl, rfl, asked_call ?_⟩
  generalize (remotes.move && _) = byMove
  cases byMove <;> exact ⟨rfl, rfl⟩

variable [CppFloat D] [Libm F] [Narrow D F]

theorem posed_driveActor (remotes : RemotePlayers F D) (frame : Frame D) (answers : Answers)
    {ref : Ref} (latest : PlayerState F) {player : RemotePlayer F}
    (href : player.actor = some ref) (engine : Engine F) :
    Posed (player, engine) (driveActor remotes frame answers ref latest player engine) ∧
      Asked (fun call => driven call ≠ none →
          Shown latest (driveActor remotes frame answers ref latest player engine).1)
        engine (driveActor remotes frame answers ref latest player engine).2 := by
  have hasked := (driveActor_spec remotes frame answers ref latest player engine).asked
  have hpresent := samePosture_present remotes answers ref player engine
  have hstill := (present_spec remotes answers ref player engine).2.asked
  rw [driveActor] at hasked ⊢
  generalize present remotes answers ref player engine = presented at hasked hpresent hstill ⊢
  obtain ⟨player₁, engine₁⟩ := presented
  have hquiet : ∀ {P : Prop}, Asked (fun call => driven call ≠ none → P) engine engine₁ :=
    hstill.mono fun call hcall hdriven => absurd hcall.1 hdriven
  dsimp only at hasked ⊢
  split
  · exact ⟨hpresent.posed, hquiet⟩
  · rename_i hdrive
    rw [if_neg hdrive] at hasked
    cases hsample : sampleAt player₁.snapshots frame.renderMs with
    | none => exact ⟨hpresent.posed, hquiet⟩
    | some sample =>
        rw [hsample] at hasked
        dsimp only at hasked ⊢
        have hrender := samePosture_render remotes frame.now ref sample player₁ engine₁
        have href₂ := hrender.actor.trans (hpresent.actor.trans href)
        obtain ⟨hanimate, hshown⟩ := posed_animate latest href₂
          (render remotes frame.now ref sample player₁ engine₁).2
        exact ⟨(hpresent.posed.trans hrender.posed).trans hanimate,
          hasked.mono fun _ _ _ => hshown⟩

theorem posed_updateOne (remotes : RemotePlayers F D) (frame : Frame D) (answers : Answers)
    (player : RemotePlayer F) (engine : Engine F) :
    Posed (player, engine) (updateOne remotes frame answers player engine) ∧
      Asked (fun call => driven call ≠ none → ∃ latest, player.latest = some latest ∧
          Shown latest (updateOne remotes frame answers player engine).1)
        engine (updateOne remotes frame answers player engine).2 := by
  have htrimmed : Posed (player, engine)
      ({ player with snapshots := trim frame.renderMs player.snapshots }, engine) :=
    .of_neutral rfl rfl rfl (.refl _)
  have hlatest : ({ player with snapshots := trim frame.renderMs player.snapshots } :
      RemotePlayer F).latest = player.latest := by
    rw [RemotePlayer.latest, RemotePlayer.latest, trim_getLast?]
  rw [updateOne]
  dsimp only
  rw [hlatest]
  generalize { player with snapshots := trim frame.renderMs player.snapshots } = trimmed
    at htrimmed
  cases hnewest : player.latest with
  | none => exact ⟨htrimmed, .refl _⟩
  | some latest =>
      have hensured := posed_ensureActor remotes frame answers latest trimmed engine
      have hasked := (ensureActor_spec remotes frame answers latest trimmed engine).1.asked
      dsimp only
      generalize ensureActor remotes frame answers latest trimmed engine = ensured
        at hensured hasked
      obtain ⟨player₁, engine₁⟩ := ensured
      dsimp only at hasked ⊢
      have hquiet : ∀ {P : Prop}, Asked (fun call => driven call ≠ none → P) engine engine₁ :=
        hasked.mono fun call hcall hdriven => absurd hcall hdriven
      cases hget : engine₁.get player₁.actor with
      | none => exact ⟨htrimmed.trans hensured, hquiet⟩
      | some ref =>
          obtain ⟨hdriven, hshown⟩ := posed_driveActor remotes frame answers latest
            (get_eq_some.mp hget).1 engine₁
          exact ⟨(htrimmed.trans hensured).trans hdriven,
            hquiet.trans (hshown.mono fun _ h hcall => ⟨latest, rfl, h hcall⟩)⟩

end Update

/-- All records mirror the bodies of the clones, and every setter changed one. -/
structure Faithful (scene : Scene F D) : Prop where
  confined : Confined scene
  exclusive : (ledger scene).Exclusive
  mirrored : ∀ id player, scene.find id = some player → Mirrored (player, scene.engine)
  noneIdle : NoneIdle scene.engine

/-- The bodies are left alone, and handles are kept with their records or given up. -/
structure Undisturbed (scene scene' : Scene F D) : Prop where
  asked : Asked Neutral scene.engine scene'.engine
  records : ∀ id player', scene'.find id = some player' → player'.actor = none ∨
    ∃ player, scene.find id = some player ∧ player'.actor = player.actor ∧
      posture player' = posture player

section Scenes

variable {scene scene' : Scene F D}

theorem Faithful.undisturbed (h : Faithful scene) (hevolves : Evolves scene scene')
    (hundisturbed : Undisturbed scene scene') : Faithful scene' where
  confined := h.confined.evolves hevolves
  exclusive := h.exclusive.moves h.confined.sound (hevolves.moves h.confined.sane)
  mirrored := by
    intro id player' hplayer' ref href
    dsimp only at href ⊢
    rw [bodies_neutral hundisturbed.asked]
    rcases hundisturbed.records id player' hplayer' with hnone | ⟨player, hplayer, hactor, hposture⟩
    · exact absurd (hnone.symm.trans href) (by rintro ⟨⟩)
    · rw [hposture]
      exact h.mirrored id player hplayer ref (hactor.symm.trans href)
  noneIdle := noneIdle_neutral hundisturbed.asked h.noneIdle

theorem Undisturbed.of_same (hasked : Asked Neutral scene.engine scene'.engine)
    (hfind : ∀ id, scene'.find id = scene.find id) : Undisturbed scene scene' :=
  ⟨hasked, fun id player' hplayer' => .inr ⟨player', (hfind id).symm.trans hplayer', rfl, rfl⟩⟩

theorem Faithful.reorder {scene : Scene F D} (h : Faithful scene) (order : PlayerOrder F) :
    Faithful (scene.reorder order) :=
  h.undisturbed (evolves_reorder scene order)
    (.of_same (.refl _) fun id => lookup_arrange order _ id)

theorem Undisturbed.of_record {id : PlayerId} {record : RemotePlayer F}
    (hasked : Asked Neutral scene.engine scene'.engine)
    (hrecord : ∀ player, scene.find id = some player →
      record.actor = player.actor ∧ posture record = posture player)
    (hfresh : scene.find id = none → record.actor = none)
    (hfind : ∀ c, scene'.find c = if c = id then some record else scene.find c) :
    Undisturbed scene scene' := by
  refine ⟨hasked, fun c player' hplayer' => ?_⟩
  rw [hfind] at hplayer'
  split at hplayer'
  · rename_i hc
    obtain rfl := Option.some.inj hplayer'
    rw [hc]
    cases hplayer : scene.find id with
    | none => exact .inl (hfresh hplayer)
    | some player => exact .inr ⟨player, rfl, hrecord player hplayer⟩
  · exact .inr ⟨player', hplayer', rfl, rfl⟩

theorem Undisturbed.of_letGo (h : LetGo scene scene')
    (hasked : Asked Neutral scene.engine scene'.engine) : Undisturbed scene scene' :=
  ⟨hasked, fun id _ hplayer' => .inl ((handle_eq hplayer').symm.trans (h.handles id))⟩

theorem undisturbed_remove (scene : Scene F D) (id : PlayerId) :
    Undisturbed scene (remove scene id) := by
  refine ⟨?_, fun c player' hplayer' => ?_⟩
  · rw [remove]
    split
    · exact .refl _
    · exact neutral_despawn _ _
  · rw [find_remove] at hplayer'
    split at hplayer'
    · cases hplayer'
    · exact .inr ⟨player', hplayer', rfl, rfl⟩

variable [CppFloat F]

theorem undisturbed_add (scene : Scene F D) (id : PlayerId) (name : Bytes) :
    Undisturbed scene (add scene id name) := by
  refine .of_record (neutral_renameCloneBase _ _ _) (fun player hplayer => ?_) (fun hnone => ?_)
    (find_add scene id name)
  · rw [hplayer]
    exact ⟨rfl, rfl⟩
  · rw [hnone]
    rfl

theorem undisturbed_rename (scene : Scene F D) (id : PlayerId) (name : Bytes) :
    Undisturbed scene (rename scene id name) := by
  refine .of_record ?_ (fun player hplayer => ?_) (fun hnone => ?_) (find_rename scene id name)
  · rw [rename]
    split
    · exact neutral_renameCloneBase _ _ _
    · dsimp only
      split
      · exact neutral_renameCloneBase _ _ _
      · exact (neutral_renameCloneBase _ _ _).trans (neutral_applyCloneIdentity _ _ _ _)
  · rw [hplayer]
    exact ⟨rfl, rfl⟩
  · rw [hnone]
    rfl

theorem undisturbed_applyState [CppFloat D] (scene : Scene F D) (id : PlayerId)
    (state : PlayerState F) (serverMs : UInt32) (localMs : D) :
    Undisturbed scene (applyState scene id state serverMs localMs) := by
  refine .of_record ?_ (fun player hplayer => ?_) (fun hnone => ?_)
    (find_applyState scene id state serverMs localMs)
  · rw [applyState]
    dsimp only
    split
    · exact .refl _
    · exact neutral_renameCloneBase _ _ _
  · rw [stateEntry, hplayer]
    exact ⟨rfl, rfl⟩
  · rw [stateEntry, hnone]
    rfl

theorem faithful_initial [CppFloat D] : Faithful (Scene.initial F D) where
  confined := confined_initial
  exclusive := by rintro _ _ _ ⟨⟩
  mirrored := by rintro _ _ ⟨⟩
  noneIdle := terse_nil

end Scenes

/-- The body is dead as a state says, and if alive it has the posture the state says. -/
structure Shows (latest : PlayerState F) (body : Body) : Prop where
  dead : body.dead = true ↔ latest.flags &&& kStateDead ≠ 0
  sneaking : body.dead = false → (body.sneaking = true ↔ latest.flags &&& kStateSneaking ≠ 0)
  weaponDrawn : body.dead = false →
    (body.weaponDrawn = true ↔ latest.flags &&& kStateWeaponDrawn ≠ 0)
  sprinting : body.dead = false → (body.sprinting = true ↔ latest.flags &&& kStateSprinting ≠ 0)

theorem Shown.shows {latest : PlayerState F} {player : RemotePlayer F} (h : Shown latest player) :
    Shows latest (posture player) := by
  obtain ⟨hdead, hflags⟩ := h
  -- taking the bit for death away leaves the others
  have hbit : ∀ bit : UInt8, ~~~kStateDead &&& bit = bit → player.actorDead = false →
      (decide (player.appliedFlags &&& bit ≠ 0) = true ↔ latest.flags &&& bit ≠ 0) := by
    intro bit hbit hlives
    rw [hflags hlives, UInt8.and_assoc, hbit, decide_eq_true_iff]
  refine ⟨?_, hbit kStateSneaking rfl, hbit kStateWeaponDrawn rfl, hbit kStateSprinting rfl⟩
  rw [posture, Body.ofFlags, hdead, decide_eq_true_iff]

section Runs

variable [CppFloat F] [CppFloat D] [Libm F] [Narrow D F]

theorem faithful_updatePlayer {scene : Scene F D} (h : Faithful scene) (frame : Frame D)
    (id : PlayerId) : Faithful (updatePlayer frame scene id) := by
  cases hfind : scene.find id with
  | none =>
      rw [updatePlayer_of_none hfind]
      exact h
  | some player =>
      have hevolves := (updatedAll_one frame scene id).evolves
      have hposed := (posed_updateOne scene.remotes frame (frame.answers id) player scene.engine).1
      obtain ⟨hengine, hfind'⟩ := updatePlayer_spec hfind frame
      have hmirrored := h.mirrored id player hfind
      refine ⟨h.confined.evolves hevolves, h.exclusive.moves h.confined.sound
        (hevolves.moves h.confined.sane), fun c player' hplayer' => ?_, ?_⟩
      · rw [hengine]
        rw [hfind'] at hplayer'
        split at hplayer'
        · rw [← Option.some.inj hplayer']
          exact hposed.mirrored hmirrored
        · rename_i hc
          intro ref href
          -- nobody else holds the clone that was updated
          have hheld : handle scene c = some ref := (handle_eq hplayer').trans href
          have hother : player.actor ≠ some ref := fun heq =>
            hc (h.exclusive c id ref hheld ((handle_eq hfind).trans heq))
          have hkept := hposed.others hmirrored ref hother (h.confined.sound.issued c ref hheld)
          exact hkept.1.trans (h.mirrored c player' hplayer' ref href)
      · rw [hengine]
        exact hposed.noneIdle hmirrored h.noneIdle

theorem shows_updatePlayer {scene : Scene F D} (h : Faithful scene) (frame : Frame D)
    (id : PlayerId) :
    Asked (fun call => ∀ ref position, driven call = some (ref, position) →
        ∃ player player' latest, scene.find id = some player ∧ player.latest = some latest ∧
          (updatePlayer frame scene id).find id = some player' ∧ player'.actor = some ref ∧
          Shows latest (bodies (updatePlayer frame scene id).engine ref))
      scene.engine (updatePlayer frame scene id).engine := by
  cases hfind : scene.find id with
  | none =>
      rw [updatePlayer_of_none hfind]
      exact .refl _
  | some player =>
      have hshown := (posed_updateOne scene.remotes frame (frame.answers id) player scene.engine).2
      have hdrives := (updateOne_spec scene.remotes frame (frame.answers id) player
        scene.engine).handled.asked
      obtain ⟨hengine, hfind'⟩ := updatePlayer_spec hfind frame
      have hself := (hfind' id).trans (if_pos rfl)
      have hmirrored := (faithful_updatePlayer h frame id).mirrored id _ hself
      rw [hengine] at hmirrored ⊢
      refine (hshown.and hdrives).mono fun call hcall ref position hdriven => ?_
      obtain ⟨latest, hlatest, hshown⟩ := hcall.1 (by rw [hdriven]; rintro ⟨⟩)
      have hactor := (hcall.2.1 ref position hdriven).1
      refine ⟨player, _, latest, rfl, hlatest, hself, hactor, ?_⟩
      rw [hmirrored ref hactor]
      exact hshown.shows

theorem Faithful.foldl {scene : Scene F D} (h : Faithful scene) (frame : Frame D)
    (ids : List PlayerId) : Faithful (ids.foldl (updatePlayer frame) scene) := by
  induction ids generalizing scene with
  | nil => exact h
  | cons id ids ih => exact ih (faithful_updatePlayer h frame id)

variable [Widen F D]

theorem undisturbed_perform (scene : Scene F D) {op : Op F D} (hop : ∀ input, op ≠ .update input) :
    Undisturbed scene (scene.perform op) := by
  cases op with
  | setInterpDelay | setDrive | setMove => exact .of_same (.refl _) fun _ => rfl
  | setCloneBase | setPacify | setGhost | setDuplicate =>
      exact .of_letGo (letGo_respawnWith scene rfl) (neutral_despawn_foldl _ _)
  | respawn => exact .of_letGo (letGo_respawn scene) (neutral_despawn_foldl _ _)
  | add id name => exact undisturbed_add scene id name
  | rename id name => exact undisturbed_rename scene id name
  | remove id => exact undisturbed_remove scene id
  | applyState id state serverMs localMs =>
      exact undisturbed_applyState scene id state serverMs localMs
  | update input => exact absurd rfl (hop input)
  | despawnAll => exact .of_letGo (letGo_despawnAll scene) (neutral_despawn_foldl _ _)
  | forgetActors => exact .of_letGo (letGo_forgetActors scene) (.refl _)
  | clear => exact .of_letGo (letGo_clear scene) (neutral_despawn_foldl _ _)
  | actorDeleted ref => exact .of_same (.refl _) fun _ => rfl

theorem Faithful.step {scene : Scene F D} (h : Faithful scene) (input : PlayerOrder F × Op F D) :
    Faithful (scene.step input) := by
  obtain ⟨order, op⟩ := input
  have hreordered := h.reorder order
  cases op with
  | update input =>
      change Faithful (update (scene.reorder order) input)
      rw [update]
      split
      · exact hreordered
      · exact hreordered.foldl _ _
  | _ =>
      exact hreordered.undisturbed (evolves_perform _ _)
        (undisturbed_perform _ (by rintro input ⟨⟩))

theorem faithful_after (inputs : List (PlayerOrder F × Op F D)) : Faithful (Scene.after inputs) :=
  run_invariant faithful_initial (fun _ input h => h.step input) inputs

/-- In every run no setter is called that changes nothing, and a clone that an update
drives, whichever players it came to before, is dead or alive and, if alive, postured as
the newest state of its player says. -/
theorem clones_mirror (inputs : List (PlayerOrder F × Op F D)) :
    NoneIdle (Scene.after inputs).engine ∧
    ∀ (order : PlayerOrder F) (input : UpdateInput D) (localSpace : Space)
      (earlier : List PlayerId) (id : PlayerId),
      let start := (Scene.after inputs).reorder order
      let frame := frameOf start.remotes input localSpace
      let before := earlier.foldl (updatePlayer frame) start
      let after := updatePlayer frame before id
      Asked (fun call => ∀ ref position, driven call = some (ref, position) →
          ∃ player player' latest, before.find id = some player ∧ player.latest = some latest ∧
            after.find id = some player' ∧ player'.actor = some ref ∧
            Shows latest (bodies after.engine ref))
        before.engine after.engine := by
  have hfaithful := faithful_after inputs
  refine ⟨hfaithful.noneIdle, ?_⟩
  intro order input localSpace earlier id start frame before after
  exact shows_updatePlayer ((hfaithful.reorder order).foldl frame earlier) frame id

end Runs

section Example

open F4MP.Native

def stateWith (flags : UInt8) : PlayerState F32 :=
  { PlayerState.initial F32 with worldspaceId := 1, flags }

def nearby (now : Time) : UpdateInput F64 where
  localSpace := some { worldspaceId := 1 }
  now := now
  localMs := CppFloat.ofRat (now / 1000000 : Nat)
  answers _ := {}

/-- A player sneaks with a drawn weapon, dies, and stands up again, still sneaking; the
second of four updates brings nothing new. -/
example :
    let after : Scene F32 F64 := Scene.after [
      (.keep _, .applyState 1 (stateWith (kStateSneaking ||| kStateWeaponDrawn)) 1000
        (CppFloat.ofRat 1000)),
      (.keep _, .update (nearby 1010000000)), (.keep _, .update (nearby 1020000000)),
      (.keep _, .applyState 1 (stateWith kStateDead) 1100 (CppFloat.ofRat 1100)),
      (.keep _, .update (nearby 1110000000)),
      (.keep _, .applyState 1 (stateWith kStateSneaking) 1200 (CppFloat.ofRat 1200)),
      (.keep _, .update (nearby 1210000000))]
    after.engine.calls.filter (fun call => setter call ≠ none) =
      [.setSneaking 1 true, .drawWeaponMagicHands 1 true, .killImpl 1, .resurrect 1,
        .drawWeaponMagicHands 1 false] := by
  decide +kernel

end Example

end F4MP.ClonePostures
