import F4MP.Library.Leases
import F4MP.RemotePlayersModel

/-!
What one update does to the clone of one player: stage by stage, what happens to its
handle, which clones exist, and what the engine is asked for.
-/

namespace F4MP.CloneUpdate

open F4MP.Types
open F4MP.Arith
open F4MP.Interp
open F4MP.GameUtil
open F4MP.ServerModel
open F4MP.RemotePlayersModel
open F4MP.Library.Leases

variable {F D : Type}

/-- The clone a call moves to a position. -/
def driven : Call F → Option (Ref × Vec3 F)
  | .driveClone ref position _ => some (ref, position)
  | .driveCloneByMove ref position _ _ => some (ref, position)
  | _ => none

def spawned : Call F → Option Ref
  | .createReferenceAtLocation ref _ _ _ _ => some ref
  | _ => none

/-- A call that neither makes nor moves a clone. -/
def Quiet (call : Call F) : Prop := driven call = none ∧ spawned call = none

/-- The engine was only asked for what satisfies `P`. -/
def Asked (P : Call F → Prop) (engine engine' : Engine F) : Prop :=
  ∃ more, engine'.calls = engine.calls ++ more ∧ ∀ call ∈ more, P call

section Asked

variable {P : Call F → Prop} {engine engine' engine'' : Engine F}

theorem Asked.refl (engine : Engine F) : Asked P engine engine := ⟨[], by simp, by rintro _ ⟨⟩⟩

theorem Asked.trans (h : Asked P engine engine') (h' : Asked P engine' engine'') :
    Asked P engine engine'' := by
  obtain ⟨more, hmore, hall⟩ := h
  obtain ⟨more', hmore', hall'⟩ := h'
  refine ⟨more ++ more', by rw [hmore', hmore, List.append_assoc], fun call hcall => ?_⟩
  exact (List.mem_append.mp hcall).elim (hall call) (hall' call)

theorem Asked.mono {Q : Call F → Prop} (h : Asked P engine engine') (hPQ : ∀ call, P call → Q call) :
    Asked Q engine engine' := by
  obtain ⟨more, hmore, hall⟩ := h
  exact ⟨more, hmore, fun call hcall => hPQ call (hall call hcall)⟩

theorem Asked.and {Q : Call F → Prop} (h : Asked P engine engine') (h' : Asked Q engine engine') :
    Asked (fun call => P call ∧ Q call) engine engine' := by
  obtain ⟨more, hmore, hall⟩ := h
  obtain ⟨more', hmore', hall'⟩ := h'
  obtain rfl := List.append_cancel_left (hmore.symm.trans hmore')
  exact ⟨more, hmore, fun call hcall => ⟨hall call hcall, hall' call hcall⟩⟩

theorem asked_call {call : Call F} (h : P call) : Asked P engine (engine.call call) :=
  ⟨[call], rfl, fun other hother => by rwa [List.mem_singleton.mp hother]⟩

end Asked

/-- The same clones exist, and none was made or moved. -/
structure Still (engine engine' : Engine F) : Prop where
  nextRef : engine'.nextRef = engine.nextRef
  actors : engine'.actors = engine.actors
  forgotten : engine'.forgotten = engine.forgotten
  asked : Asked Quiet engine engine'

section Still

variable {engine engine' engine'' : Engine F}

theorem Still.refl (engine : Engine F) : Still engine engine := ⟨rfl, rfl, rfl, .refl _⟩

theorem Still.trans (h : Still engine engine') (h' : Still engine' engine'') :
    Still engine engine'' where
  nextRef := h'.nextRef.trans h.nextRef
  actors := h'.actors.trans h.actors
  forgotten := h'.forgotten.trans h.forgotten
  asked := h.asked.trans h'.asked

theorem still_call {call : Call F} (h : Quiet call) : Still engine (engine.call call) :=
  ⟨rfl, rfl, rfl, asked_call h⟩

theorem Still.get (h : Still engine engine') (handle : Option Ref) :
    engine'.get handle = engine.get handle := by
  rw [Engine.get, Engine.get, h.actors]

theorem still_renameCloneBase (engine : Engine F) (base : Option Form) (name : Bytes) :
    Still engine (renameCloneBase engine base name) := by
  cases base with
  | none => exact .refl engine
  | some base => exact still_call ⟨rfl, rfl⟩

theorem still_createCloneBase (engine : Engine F) (form : Option Form) (source : Form)
    (name : Bytes) (ghost : Bool) :
    Still engine (createCloneBase engine form source name ghost).2 := by
  cases form with
  | none => exact .refl engine
  | some form =>
      have hcopy : Still engine (engine.call (.createDuplicateForm form source ghost)) :=
        still_call ⟨rfl, rfl⟩
      exact hcopy.trans (still_renameCloneBase _ (some form) name)

theorem still_applyCloneIdentity (engine : Engine F) (ref : Ref) (name : Bytes) (ghost : Bool) :
    Still engine (applyCloneIdentity engine ref name ghost) := by
  have hname : Still engine (engine.call (.setDisplayName ref name)) := still_call ⟨rfl, rfl⟩
  cases ghost with
  | false => exact hname
  | true => exact hname.trans (still_call ⟨rfl, rfl⟩)

theorem still_pacifyClone (engine : Engine F) (answers : Answers) (ref : Ref) :
    Still engine (pacifyClone engine answers ref).2 := by
  rw [pacifyClone]
  split
  · exact .refl engine
  · have hpackage : Still engine (engine.call (.initiateDoNothingPackage ref)) :=
      still_call ⟨rfl, rfl⟩
    dsimp only
    split
    · exact hpackage.trans (still_call ⟨rfl, rfl⟩)
    · exact hpackage

theorem still_applyStateFlags (engine : Engine F) (ref : Ref) (flags previous : UInt8) :
    Still engine (applyStateFlags engine ref flags previous) := by
  have hmaybe : ∀ (condition : Prop) [Decidable condition] (engine : Engine F) (call : Call F),
      Quiet call → Still engine (if condition then engine.call call else engine) := by
    intro condition _ engine call hquiet
    split
    · exact still_call hquiet
    · exact .refl engine
  exact ((hmaybe _ _ _ ⟨rfl, rfl⟩).trans (hmaybe _ _ _ ⟨rfl, rfl⟩)).trans (hmaybe _ _ _ ⟨rfl, rfl⟩)

end Still

/-- References are numbered from the local player's on. -/
structure Sane (engine : Engine F) : Prop where
  next : playerRef < engine.nextRef
  actors : ∀ ref ∈ engine.actors, playerRef < ref ∧ ref < engine.nextRef
  forgotten : ∀ ref ∈ engine.forgotten, ref < engine.nextRef

section Engines

variable {engine engine' : Engine F}

theorem Sane.still (h : Sane engine) (hstill : Still engine engine') : Sane engine' where
  next := hstill.nextRef ▸ h.next
  actors := by
    rw [hstill.actors, hstill.nextRef]
    exact h.actors
  forgotten := by
    rw [hstill.forgotten, hstill.nextRef]
    exact h.forgotten

theorem get_eq_some {handle : Option Ref} {ref : Ref} :
    engine.get handle = some ref ↔ handle = some ref ∧ (ref = playerRef ∨ ref ∈ engine.actors) := by
  rw [Engine.get, Option.filter_eq_some_iff]
  simp

theorem Sane.mem_despawn (h : Sane engine) (handle : Option Ref) (ref : Ref) :
    ref ∈ (despawn engine handle).actors ↔ ref ∈ engine.actors ∧ handle ≠ some ref := by
  rw [despawn]
  cases hget : engine.get handle with
  | none =>
      refine ⟨fun hmem => ⟨hmem, ?_⟩, fun hmem => hmem.1⟩
      rintro rfl
      exact absurd (get_eq_some.mpr ⟨rfl, .inr hmem⟩) (by simp [hget])
  | some found =>
      obtain ⟨rfl, hfound⟩ := get_eq_some.mp hget
      dsimp only
      split
      · rename_i hplayer
        refine ⟨fun hmem => ⟨hmem, ?_⟩, fun hmem => hmem.1⟩
        rintro heq
        obtain rfl := Option.some.inj heq
        exact absurd (h.actors _ hmem).1 (by simp [hplayer])
      · rw [Engine.delete, List.mem_filter, decide_eq_true_eq]
        exact and_congr_right fun _ => ⟨fun hne heq => hne (Option.some.inj heq).symm,
          fun hne heq => hne (congrArg some heq.symm)⟩

theorem despawn_nextRef (engine : Engine F) (handle : Option Ref) :
    (despawn engine handle).nextRef = engine.nextRef := by
  rw [despawn]
  split
  · rfl
  · split <;> rfl

theorem despawn_forgotten (engine : Engine F) (handle : Option Ref) :
    (despawn engine handle).forgotten = engine.forgotten := by
  rw [despawn]
  split
  · rfl
  · split <;> rfl

theorem asked_despawn (engine : Engine F) (handle : Option Ref) :
    Asked Quiet engine (despawn engine handle) := by
  rw [despawn]
  split
  · exact .refl _
  · split
    · exact .refl _
    · refine ⟨_, rfl, ?_⟩
      simp [Quiet, driven, spawned]

theorem Sane.despawn (h : Sane engine) (handle : Option Ref) :
    Sane (GameUtil.despawn engine handle) where
  next := (despawn_nextRef engine handle).symm ▸ h.next
  actors := by
    intro ref href
    rw [despawn_nextRef]
    exact h.actors ref ((h.mem_despawn handle ref).mp href).1
  forgotten := by
    rw [despawn_forgotten, despawn_nextRef]
    exact h.forgotten

theorem Sane.create (h : Sane engine) (base : Form) (position : Vec3 F) (yaw : F) (space : Space) :
    Sane (engine.create base position yaw space) where
  next := h.next.trans (Nat.lt_succ_self _)
  actors := by
    intro ref href
    rcases List.mem_cons.mp href with rfl | hold
    · exact ⟨h.next, Nat.lt_succ_self _⟩
    · exact ⟨(h.actors ref hold).1, (h.actors ref hold).2.trans (Nat.lt_succ_self _)⟩
  forgotten := fun ref href => (h.forgotten ref href).trans (Nat.lt_succ_self _)

end Engines

/-- The books of the engine, for given holders of handles. -/
def ledgerOf (engine : Engine F) (held : PlayerId → Option Ref) : Ledger PlayerId where
  next := engine.nextRef
  live := {ref | ref ∈ engine.actors ∧ ref ∉ engine.forgotten}
  held := held

/-- The handle of the player behind an id. -/
def handle (scene : Scene F D) (id : PlayerId) : Option Ref := (scene.find id).bind (·.actor)

/-- Who holds which clone. -/
def ledger (scene : Scene F D) : Ledger PlayerId := ledgerOf scene.engine (handle scene)

section Books

variable {engine engine' : Engine F} {held : PlayerId → Option Ref} {id : PlayerId}

theorem ledgerOf_still (h : Still engine engine') (held : PlayerId → Option Ref) :
    ledgerOf engine' held = ledgerOf engine held := by
  rw [ledgerOf, ledgerOf, h.nextRef, h.actors, h.forgotten]

theorem ledgerOf_despawn (h : Sane engine) (held : PlayerId → Option Ref) (id : PlayerId) :
    ledgerOf (despawn engine (held id)) (Function.update held id none) =
      (ledgerOf engine held).release id := by
  ext1
  · exact despawn_nextRef _ _
  · ext ref
    simp only [ledgerOf, Ledger.release, Set.mem_ofPred_eq, h.mem_despawn, despawn_forgotten]
    tauto
  · rfl

theorem ledgerOf_drop (h : engine.get (held id) = none) :
    ledgerOf engine (Function.update held id none) = (ledgerOf engine held).release id := by
  ext1
  · rfl
  · ext ref
    simp only [ledgerOf, Ledger.release, Set.mem_ofPred_eq]
    refine ⟨fun hlive => ⟨hlive, fun hheld => ?_⟩, fun hlive => hlive.1⟩
    rw [hheld] at h
    exact absurd (get_eq_some.mpr ⟨rfl, .inr hlive.1⟩) (by simp [h])
  · rfl

theorem ledgerOf_create (h : Sane engine) (held : PlayerId → Option Ref) (id : PlayerId)
    (base : Form) (position : Vec3 F) (yaw : F) (space : Space) :
    ledgerOf (engine.create base position yaw space)
        (Function.update held id (some engine.nextRef)) =
      (ledgerOf engine held).acquire id := by
  ext1
  · rfl
  · ext ref
    have hfresh : engine.nextRef ∉ engine.forgotten := fun hmem =>
      absurd (h.forgotten _ hmem) (Nat.lt_irrefl _)
    simp only [ledgerOf, Ledger.acquire, Engine.create, Set.mem_ofPred_eq, List.mem_cons,
      Set.mem_insert_iff]
    constructor
    · rintro ⟨rfl | hold, hremembered⟩
      · exact .inl rfl
      · exact .inr ⟨hold, hremembered⟩
    · rintro (rfl | hlive)
      · exact ⟨.inl rfl, hfresh⟩
      · exact ⟨.inr hlive.1, hlive.2⟩
  · rfl

end Books

/-- The clone of the player is the same, and so is what decides about it. -/
structure SameClone (player player' : RemotePlayer F) : Prop where
  actor : player'.actor = player.actor
  actorSpace : player'.actorSpace = player.actorSpace
  snapshots : player'.snapshots = player.snapshots

theorem SameClone.refl (player : RemotePlayer F) : SameClone player player := ⟨rfl, rfl, rfl⟩

theorem SameClone.trans {player player' player'' : RemotePlayer F} (h : SameClone player player')
    (h' : SameClone player' player'') : SameClone player player'' :=
  ⟨h'.actor.trans h.actor, h'.actorSpace.trans h.actorSpace, h'.snapshots.trans h.snapshots⟩

section Update

theorem tearDown_cases (player : RemotePlayer F) (engine : Engine F) (visible : Bool)
    (targetSpace : Space) :
    (tearDown player engine visible targetSpace = (player, engine) ∧
      ∀ ref, engine.get player.actor = some ref →
        visible = true ∧ player.actorSpace.sameArea targetSpace = true) ∨
    tearDown player engine visible targetSpace =
      ({ player with actor := none }, despawn engine player.actor) := by
  rw [tearDown]
  cases hget : engine.get player.actor with
  | none => exact .inl ⟨rfl, by rintro _ ⟨⟩⟩
  | some ref =>
      dsimp only
      split
      · rename_i hplayer
        refine .inr ?_
        rw [despawn, hget]
        dsimp only
        rw [if_pos hplayer]
      · split
        · exact .inr rfl
        · rename_i hstays
          simp only [Bool.or_eq_true, Bool.not_eq_true', not_or, Bool.not_eq_false] at hstays
          exact .inl ⟨rfl, fun _ _ => hstays⟩

theorem chooseBase_spec (remotes : RemotePlayers F D) (player : RemotePlayer F)
    (engine : Engine F) (answers : Answers) :
    SameClone player (chooseBase remotes player engine answers).2.1 ∧
      Still engine (chooseBase remotes player engine answers).2.2 := by
  rw [chooseBase]
  split
  · split
    · exact ⟨⟨rfl, rfl, rfl⟩, still_createCloneBase _ _ _ _ _⟩
    · exact ⟨.refl _, .refl _⟩
  · dsimp only
    split
    · exact ⟨⟨rfl, rfl, rfl⟩, .refl _⟩
    · exact ⟨.refl _, .refl _⟩

theorem present_spec (remotes : RemotePlayers F D) (answers : Answers) (ref : Ref)
    (player : RemotePlayer F) (engine : Engine F) :
    SameClone player (present remotes answers ref player engine).1 ∧
      Still engine (present remotes answers ref player engine).2 := by
  have halpha : ∀ engine : Engine F,
      Still engine (if answers.transparent then engine.call (.setAlpha ref) else engine) := by
    intro engine
    split
    · exact still_call ⟨rfl, rfl⟩
    · exact .refl _
  rw [present]
  by_cases hpacify : (remotes.pacify && !player.actorPacified) = true
  · rw [if_pos hpacify]
    exact ⟨⟨rfl, rfl, rfl⟩, (still_pacifyClone engine answers ref).trans (halpha _)⟩
  · rw [if_neg hpacify]
    exact ⟨.refl _, halpha _⟩

theorem animate_spec (ref : Ref) (latest : PlayerState F) (player : RemotePlayer F)
    (engine : Engine F) :
    SameClone player (animate ref latest player engine).1 ∧
      Still engine (animate ref latest player engine).2 := by
  have hlife : ∀ dead : Bool,
      Still engine (engine.call (if dead then .killImpl ref else .resurrect ref)) := by
    intro dead
    cases dead <;> exact still_call ⟨rfl, rfl⟩
  have hposture : ∀ (engine : Engine F) (flags previous : UInt8) (speed : F) (sprinting first : Bool),
      Still engine ((applyStateFlags engine ref flags previous).call
        (.setLocomotion ref speed sprinting first)) := fun engine flags previous speed sprinting first =>
    (still_applyStateFlags _ _ _ _).trans (still_call ⟨rfl, rfl⟩)
  rw [animate]
  dsimp only
  generalize decide (latest.flags &&& kStateDead ≠ 0) = dead
  by_cases hchanged : dead ≠ player.actorDead
  · rw [if_pos hchanged]
    cases dead with
    | true => exact ⟨⟨rfl, rfl, rfl⟩, hlife true⟩
    | false => exact ⟨⟨rfl, rfl, rfl⟩, (hlife false).trans (hposture _ _ _ _ _ _)⟩
  · rw [if_neg hchanged]
    cases dead with
    | true => exact ⟨.refl _, .refl _⟩
    | false => exact ⟨⟨rfl, rfl, rfl⟩, hposture _ _ _ _ _ _⟩

/-- What a stage of an update does to the handle of its player and to the engine. -/
structure Handled (P : Call F → Prop) (before after : RemotePlayer F × Engine F) : Prop where
  snapshots : after.1.snapshots = before.1.snapshots
  sane : Sane before.2 → Sane after.2
  nextRef_le : before.2.nextRef ≤ after.2.nextRef
  actors : ∀ ref ∈ after.2.actors, ref ∈ before.2.actors ∨ before.2.nextRef ≤ ref
  actor : ∀ ref, after.1.actor = some ref → before.1.actor = some ref ∨ before.2.nextRef ≤ ref
  moves : Sane before.2 → ∀ held id, held id = before.1.actor →
    Ledger.Moves (ledgerOf before.2 held)
      (ledgerOf after.2 (Function.update held id after.1.actor))
  asked : Asked P before.2 after.2

theorem Handled.trans {P : Call F → Prop} {first second third : RemotePlayer F × Engine F}
    (h : Handled P first second) (h' : Handled P second third) : Handled P first third where
  snapshots := h'.snapshots.trans h.snapshots
  sane hsane := h'.sane (h.sane hsane)
  nextRef_le := h.nextRef_le.trans h'.nextRef_le
  actors ref href :=
    (h'.actors ref href).elim (h.actors ref) fun hle => .inr (h.nextRef_le.trans hle)
  actor ref href :=
    (h'.actor ref href).elim (h.actor ref) fun hle => .inr (h.nextRef_le.trans hle)
  moves := by
    intro hsane held id hheld
    have hfirst := h.moves hsane held id hheld
    have hsecond := h'.moves (h.sane hsane) (Function.update held id second.1.actor) id
      (Function.update_self _ _ _)
    rw [Function.update_idem] at hsecond
    exact hfirst.trans hsecond
  asked := h.asked.trans h'.asked

theorem Handled.mono {P Q : Call F → Prop} {before after : RemotePlayer F × Engine F}
    (h : Handled P before after) (hPQ : ∀ call, P call → Q call) : Handled Q before after :=
  { h with asked := h.asked.mono hPQ }

theorem Handled.of_same {P : Call F → Prop} {before after : RemotePlayer F × Engine F}
    (hsnapshots : after.1.snapshots = before.1.snapshots) (hactor : after.1.actor = before.1.actor)
    (hnextRef : after.2.nextRef = before.2.nextRef) (hactors : after.2.actors = before.2.actors)
    (hforgotten : after.2.forgotten = before.2.forgotten) (hasked : Asked P before.2 after.2) :
    Handled P before after where
  snapshots := hsnapshots
  sane hsane := by
    refine ⟨?_, ?_, ?_⟩
    · rw [hnextRef]
      exact hsane.next
    · rw [hactors, hnextRef]
      exact hsane.actors
    · rw [hforgotten, hnextRef]
      exact hsane.forgotten
  nextRef_le := hnextRef.ge
  actors ref href := .inl (hactors ▸ href)
  actor ref href := .inl (hactor ▸ href)
  moves := by
    intro _ held id hheld
    rw [hactor, ← hheld, Function.update_eq_self, ledgerOf, ledgerOf, hnextRef, hactors, hforgotten]
  asked := hasked

theorem Handled.of_still {before after : RemotePlayer F × Engine F}
    (hsnapshots : after.1.snapshots = before.1.snapshots) (hactor : after.1.actor = before.1.actor)
    (hstill : Still before.2 after.2) : Handled Quiet before after :=
  .of_same hsnapshots hactor hstill.nextRef hstill.actors hstill.forgotten hstill.asked

theorem handled_tearDown (player : RemotePlayer F) (engine : Engine F) (visible : Bool)
    (targetSpace : Space) :
    Handled Quiet (player, engine) (tearDown player engine visible targetSpace) := by
  rcases tearDown_cases player engine visible targetSpace with ⟨hkept, -⟩ | htorn
  · rw [hkept]
    exact .of_still rfl rfl (.refl _)
  · rw [htorn]
    exact {
      snapshots := rfl
      sane := fun hsane => hsane.despawn _
      nextRef_le := (despawn_nextRef _ _).ge
      actors := by
        intro ref href
        refine .inl ?_
        rw [despawn] at href
        split at href
        · exact href
        · split at href
          · exact href
          · exact (List.mem_filter.mp href).1
      actor := by rintro _ ⟨⟩
      moves := by
        intro hsane held id hheld
        rw [← show held id = player.actor from hheld, ledgerOf_despawn hsane]
        exact .single (.release id)
      asked := asked_despawn _ _ }

@[simp] theorem trim_getLast? [CppFloat D] (renderMs : D) (snapshots : List (TimedState F)) :
    (trim renderMs snapshots).getLast? = snapshots.getLast? := by
  fun_induction trim renderMs snapshots with
  | case1 first second third rest _ ih => rw [ih, List.getLast?_cons_cons (a := first)]
  | case2 | case3 => rfl

variable [CppFloat F]

/-- Trying to make a clone: nothing, an empty handle, or a fresh clone in the space. -/
theorem spawnClone_cases (remotes : RemotePlayers F D) (now : Time) (answers : Answers)
    (latest : PlayerState F) (space : Space) (player : RemotePlayer F) (engine : Engine F) :
    ∃ player' engine', spawnClone remotes now answers latest space player engine =
        (player', engine') ∧ player'.snapshots = player.snapshots ∧
      ((player'.actor = player.actor ∧ Still engine engine') ∨
        (player'.actor = none ∧ Still engine engine') ∨
        (player'.actor = some engine.nextRef ∧ player'.actorSpace = space ∧
          ∃ before base, Still engine before ∧
            Still (before.create base latest.position latest.yaw space) engine')) := by
  obtain ⟨hsame, hstill⟩ :=
    chooseBase_spec remotes { player with lastSpawnAttempt := now } engine answers
  rw [spawnClone]
  generalize chooseBase remotes { player with lastSpawnAttempt := now } engine answers = choice
    at hsame hstill
  obtain ⟨base, chosen, before⟩ := choice
  cases base with
  | none => exact ⟨_, _, rfl, hsame.snapshots, .inl ⟨hsame.actor, hstill⟩⟩
  | some base =>
      cases answers.placed with
      | nothing => exact ⟨_, _, rfl, hsame.snapshots, .inr (.inl ⟨rfl, hstill⟩)⟩
      | localPlayer => exact ⟨_, _, rfl, hsame.snapshots, .inr (.inl ⟨rfl, hstill⟩)⟩
      | clone =>
          have hget : (before.create base latest.position latest.yaw space).get
              (some before.nextRef) = some before.nextRef :=
            get_eq_some.mpr ⟨rfl, .inr List.mem_cons_self⟩
          simp only [spawnPlayerClone, hget]
          refine ⟨_, _, rfl, hsame.snapshots, .inr (.inr ⟨congrArg some hstill.nextRef, rfl,
            before, base, hstill, ?_⟩)⟩
          split
          · exact .refl _
          · exact still_applyCloneIdentity _ _ _ _

theorem render_spec [Libm F] (remotes : RemotePlayers F D) (now : Time) (ref : Ref)
    (sample : PlayerState F) (player : RemotePlayer F) (engine : Engine F) :
    ∃ player' call, render remotes now ref sample player engine = (player', engine.call call) ∧
      SameClone player player' ∧ driven call = some (ref, sample.position) := by
  rw [render]
  refine ⟨_, _, rfl, ⟨rfl, rfl, rfl⟩, ?_⟩
  generalize (remotes.move && _) = byMove
  cases byMove <;> rfl

/-- A frame of a clone that exists: the clone moves to where it is sampled to be, if at
all. -/
structure Driven [CppFloat D] [Narrow D F] (frame : Frame D) (ref : Ref)
    (before after : RemotePlayer F × Engine F) : Prop where
  same : SameClone before.1 after.1
  nextRef : after.2.nextRef = before.2.nextRef
  actors : after.2.actors = before.2.actors
  forgotten : after.2.forgotten = before.2.forgotten
  asked : Asked (fun call => Quiet call ∨ ∃ sample,
    sampleAt before.1.snapshots frame.renderMs = some sample ∧
      driven call = some (ref, sample.position)) before.2 after.2

theorem Driven.of_still [CppFloat D] [Narrow D F] {frame : Frame D} {ref : Ref}
    {before after : RemotePlayer F × Engine F} (hsame : SameClone before.1 after.1)
    (hstill : Still before.2 after.2) : Driven frame ref before after :=
  ⟨hsame, hstill.nextRef, hstill.actors, hstill.forgotten, hstill.asked.mono fun _ => .inl⟩

theorem driveActor_spec [Libm F] [CppFloat D] [Narrow D F] (remotes : RemotePlayers F D) (frame : Frame D)
    (answers : Answers) (ref : Ref) (latest : PlayerState F) (player : RemotePlayer F)
    (engine : Engine F) :
    Driven frame ref (player, engine)
      (driveActor remotes frame answers ref latest player engine) := by
  obtain ⟨hsame, hstill⟩ := present_spec remotes answers ref player engine
  rw [driveActor]
  generalize present remotes answers ref player engine = presented at hsame hstill
  obtain ⟨player₁, engine₁⟩ := presented
  dsimp only at hsame hstill ⊢
  split
  · exact .of_still hsame hstill
  · cases hsample : sampleAt player₁.snapshots frame.renderMs with
    | none => exact .of_still hsame hstill
    | some sample =>
        obtain ⟨player₂, call, hrender, hsame₂, hcall⟩ :=
          render_spec remotes frame.now ref sample player₁ engine₁
        obtain ⟨hsame₃, hstill₃⟩ := animate_spec ref latest player₂ (engine₁.call call)
        dsimp only
        rw [hrender]
        refine ⟨(hsame.trans hsame₂).trans hsame₃, hstill₃.nextRef.trans hstill.nextRef,
          hstill₃.actors.trans hstill.actors, hstill₃.forgotten.trans hstill.forgotten, ?_⟩
        have hdriven : sampleAt player.snapshots frame.renderMs = some sample := by
          rw [← hsame.snapshots, hsample]
        exact ((hstill.asked.mono fun _ => .inl).trans
          (asked_call (.inr ⟨sample, hdriven, hcall⟩))).trans (hstill₃.asked.mono fun _ => .inl)

theorem handled_spawnClone (remotes : RemotePlayers F D) (now : Time) (answers : Answers)
    (latest : PlayerState F) (space : Space) {player : RemotePlayer F} {engine : Engine F}
    (hnone : engine.get player.actor = none) :
    Handled (fun call => driven call = none) (player, engine)
        (spawnClone remotes now answers latest space player engine) ∧
      ∀ ref, (spawnClone remotes now answers latest space player engine).2.get
          (spawnClone remotes now answers latest space player engine).1.actor = some ref →
        (spawnClone remotes now answers latest space player engine).1.actorSpace = space := by
  obtain ⟨player', engine', hspawn, hsnapshots, hcases⟩ :=
    spawnClone_cases remotes now answers latest space player engine
  rw [hspawn]
  rcases hcases with ⟨hactor, hstill⟩ | ⟨hactor, hstill⟩ | ⟨hactor, hspace, before, base, hbefore, hafter⟩
  · refine ⟨(Handled.of_still hsnapshots hactor hstill).mono fun _ => And.left, fun ref href => ?_⟩
    rw [hstill.get, hactor, hnone] at href
    cases href
  · refine ⟨?_, fun ref href => ?_⟩
    · exact {
        snapshots := hsnapshots
        sane := fun hsane => hsane.still hstill
        nextRef_le := hstill.nextRef.ge
        actors := fun ref href => .inl (hstill.actors ▸ href)
        actor := fun ref href => absurd (hactor.symm.trans href) (by rintro ⟨⟩)
        moves := by
          intro hsane held id hheld
          rw [hactor, ledgerOf_still hstill, ledgerOf_drop (by rw [hheld]; exact hnone)]
          exact .single (.release id)
        asked := hstill.asked.mono fun _ => And.left }
    · rw [hactor] at href
      cases href
  · refine ⟨?_, fun _ _ => hspace⟩
    have hnext : engine'.nextRef = engine.nextRef + 1 :=
      hafter.nextRef.trans (congrArg (· + 1) hbefore.nextRef)
    exact {
      snapshots := hsnapshots
      sane := fun hsane => ((hsane.still hbefore).create _ _ _ _).still hafter
      nextRef_le := by
        rw [hnext]
        exact Nat.le_succ _
      actors := by
        intro ref href
        rw [hafter.actors] at href
        rcases List.mem_cons.mp href with rfl | hold
        · exact .inr hbefore.nextRef.ge
        · exact .inl (hbefore.actors ▸ hold)
      actor := by
        intro ref href
        rw [hactor] at href
        exact .inr (Option.some.inj href).le
      moves := by
        intro hsane held id hheld
        rw [hactor, ledgerOf_still hafter, ← hbefore.nextRef,
          ledgerOf_create (hsane.still hbefore), ledgerOf_still hbefore]
        refine .single (.acquire id fun ref href hlive => ?_)
        have hfound : engine.get player.actor = some ref :=
          get_eq_some.mpr ⟨hheld.symm.trans href, .inr hlive.1⟩
        exact absurd (hnone.symm.trans hfound) (by rintro ⟨⟩)
      asked := by
        refine ((hbefore.asked.mono fun _ => And.left).trans ⟨[_], rfl, ?_⟩).trans
          (hafter.asked.mono fun _ => And.left)
        intro call hcall
        rw [List.mem_singleton.mp hcall]
        rfl }

/-- What becomes of the clone of a player whose newest state is known. -/
theorem ensureActor_spec (remotes : RemotePlayers F D) (frame : Frame D) (answers : Answers)
    (latest : PlayerState F) (player : RemotePlayer F) (engine : Engine F) :
    Handled (fun call => driven call = none) (player, engine)
        (ensureActor remotes frame answers latest player engine) ∧
      ∀ ref, (ensureActor remotes frame answers latest player engine).2.get
          (ensureActor remotes frame answers latest player engine).1.actor = some ref →
        (ensureActor remotes frame answers latest player engine).1.actorSpace.sameArea
            (spaceFromState latest) = true ∧
          (spaceFromState latest).sameArea frame.localSpace = true := by
  have htorn := (handled_tearDown player engine ((spaceFromState latest).sameArea frame.localSpace)
    (spaceFromState latest)).mono fun _ => And.left
  have hcases := tearDown_cases player engine ((spaceFromState latest).sameArea frame.localSpace)
    (spaceFromState latest)
  rw [ensureActor]
  dsimp only
  generalize tearDown player engine ((spaceFromState latest).sameArea frame.localSpace)
    (spaceFromState latest) = torn at htorn hcases
  obtain ⟨player₁, engine₁⟩ := torn
  dsimp only at htorn hcases ⊢
  by_cases hexists : (engine₁.get player₁.actor).isSome = true
  · rw [if_pos hexists]
    refine ⟨htorn, fun ref href => ?_⟩
    rcases hcases with ⟨hkept, harea⟩ | hgone
    · obtain ⟨rfl, rfl⟩ := Prod.mk.inj hkept
      exact (harea ref href).symm
    · obtain ⟨rfl, rfl⟩ := Prod.mk.inj hgone
      cases href
  · rw [if_neg hexists]
    have hnone : engine₁.get player₁.actor = none := by simpa using hexists
    split
    · exact ⟨htorn, fun ref href => absurd (hnone.symm.trans href) (by rintro ⟨⟩)⟩
    · rename_i hspawn
      simp only [Bool.or_eq_true, Bool.not_eq_true', not_or, Bool.not_eq_false] at hspawn
      obtain ⟨hmade, hspace⟩ := handled_spawnClone remotes frame.now answers latest
        (spaceFromState latest) hnone
      refine ⟨htorn.trans hmade, fun ref href => ⟨?_, hspawn.1⟩⟩
      rw [hspace ref href]
      exact Space.sameArea_refl _

variable [CppFloat D] [Libm F] [Narrow D F]

/-- The clone is in the area of the newest state of its player, and so is the local
player. -/
def InArea (localSpace : Space) (player : RemotePlayer F) : Prop :=
  ∃ latest, player.latest = some latest ∧
    player.actorSpace.sameArea (spaceFromState latest) = true ∧
    (spaceFromState latest).sameArea localSpace = true

/-- If the call moves a clone, it is the one of this player, and it moves to where the
snapshots say. -/
def DrivesFrom (renderMs : D) (player : RemotePlayer F) (call : Call F) : Prop :=
  ∀ ref position, driven call = some (ref, position) → player.actor = some ref ∧
    ∃ sample, sampleAt player.snapshots renderMs = some sample ∧ position = sample.position

/-- What one update does to one player. -/
structure Updated (frame : Frame D) (before after : RemotePlayer F × Engine F) : Prop where
  handled : Handled (fun call => DrivesFrom frame.renderMs after.1 call ∧
      (driven call ≠ none → after.2.get after.1.actor ≠ none))
    ({ before.1 with snapshots := trim frame.renderMs before.1.snapshots }, before.2) after
  idle : before.1.snapshots = [] → after.1.actor = before.1.actor
  area : ∀ ref, after.2.get after.1.actor = some ref →
    InArea frame.localSpace after.1 ∨ before.1.snapshots = []

theorem updateOne_spec (remotes : RemotePlayers F D) (frame : Frame D) (answers : Answers)
    (player : RemotePlayer F) (engine : Engine F) :
    Updated frame (player, engine) (updateOne remotes frame answers player engine) := by
  have hquiet : ∀ {renderMs : D} {player : RemotePlayer F} {engine : Engine F} {call : Call F},
      driven call = none → DrivesFrom renderMs player call ∧
        (driven call ≠ none → engine.get player.actor ≠ none) := by
    intro renderMs player engine call hnone
    exact ⟨fun ref position hdriven => absurd (hnone.symm.trans hdriven) (by rintro ⟨⟩),
      fun hsome => absurd hnone hsome⟩
  rw [updateOne]
  dsimp only
  generalize htrimmed : { player with snapshots := trim frame.renderMs player.snapshots } = trimmed
  have hlatest : trimmed.latest = player.latest := by
    rw [← htrimmed, RemotePlayer.latest, RemotePlayer.latest, trim_getLast?]
  have hsnapshots : player.snapshots = [] → trimmed.latest = none := by
    intro hempty
    rw [hlatest, RemotePlayer.latest, hempty]
    rfl
  cases hplayer : trimmed.latest with
  | none =>
      refine ⟨?_, fun _ => by rw [← htrimmed], fun ref href => .inr ?_⟩
      · rw [htrimmed]
        exact .of_same rfl rfl rfl rfl rfl (.refl _)
      · rw [hlatest, RemotePlayer.latest, Option.map_eq_none_iff, List.getLast?_eq_none_iff]
          at hplayer
        exact hplayer
  | some latest =>
      obtain ⟨hensured, harea⟩ := ensureActor_spec remotes frame answers latest trimmed engine
      dsimp only
      generalize ensureActor remotes frame answers latest trimmed engine = ensured
        at hensured harea
      obtain ⟨player₁, engine₁⟩ := ensured
      dsimp only at hensured harea ⊢
      have hlatest₁ : player₁.latest = some latest := by
        rw [← hplayer, RemotePlayer.latest, RemotePlayer.latest, hensured.snapshots]
      cases hget : engine₁.get player₁.actor with
      | none =>
          refine ⟨?_, fun hempty => absurd ((hsnapshots hempty).symm.trans hplayer) (by rintro ⟨⟩),
            fun ref href => absurd (hget.symm.trans href) (by rintro ⟨⟩)⟩
          rw [htrimmed]
          exact hensured.mono fun _ => hquiet
      | some ref =>
          have hdriven := driveActor_spec remotes frame answers ref latest player₁ engine₁
          dsimp only
          generalize driveActor remotes frame answers ref latest player₁ engine₁ = after at hdriven
          have hget' : after.2.get after.1.actor = some ref := by
            rw [Engine.get, hdriven.actors, hdriven.same.actor]
            exact hget
          refine ⟨?_, fun hempty => absurd ((hsnapshots hempty).symm.trans hplayer) (by rintro ⟨⟩),
            fun _ _ => .inl ⟨latest, ?_, ?_, (harea ref hget).2⟩⟩
          · rw [htrimmed]
            refine (hensured.mono fun _ => hquiet).trans (.of_same hdriven.same.snapshots
              hdriven.same.actor hdriven.nextRef hdriven.actors hdriven.forgotten
              (hdriven.asked.mono ?_))
            rintro call (hstill | ⟨sample, hsample, hcall⟩)
            · exact hquiet hstill.1
            · refine ⟨fun ref' position hmoves => ?_, fun _ => by rw [hget']; rintro ⟨⟩⟩
              rw [hcall] at hmoves
              cases hmoves
              exact ⟨(get_eq_some.mp hget').1, sample, by rw [hdriven.same.snapshots, hsample], rfl⟩
          · rw [← hlatest₁, RemotePlayer.latest, RemotePlayer.latest, hdriven.same.snapshots]
          · rw [hdriven.same.actorSpace]
            exact (harea ref hget).1

end Update

end F4MP.CloneUpdate
