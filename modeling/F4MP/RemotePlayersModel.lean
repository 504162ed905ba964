import F4MP.GameUtil
import F4MP.ServerModel

/-!
The other players as a client keeps them: their snapshots and the clones that stand
for them in the world.
-/

namespace F4MP.RemotePlayersModel

open F4MP.Types
open F4MP.Arith
open F4MP.Interp
open F4MP.GameUtil
open F4MP.ServerModel
open F4MP.Library.HashTable
open F4MP.Library.Runs

def spawnRetryInterval : Time := 1000000000
def maxSnapshots : Nat := 64

structure RemotePlayer (F : Type) where
  id : PlayerId
  name : Bytes
  snapshots : List (TimedState F)
  base : Option Form
  baseFailed : Bool
  actor : Option Ref
  actorSpace : Space
  actorDead : Bool
  actorPacified : Bool
  locomotionInit : Bool
  appliedFlags : UInt8
  lastSpawnAttempt : Time
  hasLastRender : Bool
  lastRenderPos : Vec3 F
  lastRenderTime : Time
  speed : F

/-- `RemotePlayer{}`. -/
def RemotePlayer.initial (F : Type) [CppFloat F] : RemotePlayer F where
  id := invalidPlayerId
  name := []
  snapshots := []
  base := none
  baseFailed := false
  actor := none
  actorSpace := {}
  actorDead := false
  actorPacified := false
  locomotionInit := false
  appliedFlags := kStateNone
  lastSpawnAttempt := 0
  hasLastRender := false
  lastRenderPos := ⟨CppFloat.ofRat 0, CppFloat.ofRat 0, CppFloat.ofRat 0⟩
  lastRenderTime := 0
  speed := CppFloat.ofRat 0

/-- The newest snapshot's state. -/
def RemotePlayer.latest {F : Type} (player : RemotePlayer F) : Option (PlayerState F) :=
  player.snapshots.getLast?.map (·.state)

/-- Owns the in-world representation of every other player on the server. -/
structure RemotePlayers (F D : Type) where
  players : UnorderedMap PlayerId (RemotePlayer F)
  interpDelayMs : F
  baseFormId : Form
  drive : Bool
  pacify : Bool
  ghost : Bool
  duplicate : Bool
  move : Bool
  hasOffset : Bool
  offsetMs : D
  serverClock : ServerClock

def RemotePlayers.initial (F D : Type) [CppFloat F] [CppFloat D] : RemotePlayers F D where
  players := ∅
  interpDelayMs := CppFloat.ofRat 100
  baseFormId := playerBaseFormId
  drive := true
  pacify := true
  ghost := true
  duplicate := false
  move := false
  hasOffset := false
  offsetMs := CppFloat.ofRat 0
  serverClock := {}

/-- The remote players and the engine they act on. -/
structure Scene (F D : Type) where
  remotes : RemotePlayers F D
  engine : Engine F

def Scene.initial (F D : Type) [CppFloat F] [CppFloat D] : Scene F D where
  remotes := .initial F D
  engine := {}

variable {F D : Type}

def Scene.find (scene : Scene F D) (id : PlayerId) : Option (RemotePlayer F) :=
  scene.remotes.players.lookup id

def Scene.withPlayers (scene : Scene F D) (players : UnorderedMap PlayerId (RemotePlayer F)) :
    Scene F D :=
  { scene with remotes := { scene.remotes with players } }

/-- The record behind an id, replaced where it stands. -/
def Scene.setPlayer (scene : Scene F D) (id : PlayerId) (player : RemotePlayer F) : Scene F D :=
  scene.withPlayers (modify id (fun _ => player) scene.remotes.players)

section Bookkeeping

variable [CppFloat F] [CppFloat D]

/-- `"#" + std::to_string(id)`. -/
def placeholderName (id : PlayerId) : Bytes := ascii "#" ++ ascii (toString id)

def add (scene : Scene F D) (id : PlayerId) (name : Bytes) : Scene F D :=
  let players := modify id (fun player => { player with id, name })
    (emplace id (.initial F) scene.remotes.players)
  let base := (players.lookup id).bind (·.base)
  { scene.withPlayers players with engine := renameCloneBase scene.engine base name }

def rename (scene : Scene F D) (id : PlayerId) (name : Bytes) : Scene F D :=
  match scene.find id with
  | none => add scene id name
  | some player =>
      let engine := renameCloneBase scene.engine player.base name
      { scene.setPlayer id { player with name } with
        engine :=
          match engine.get player.actor with
          | none => engine
          | some ref => applyCloneIdentity engine ref name false }

def remove (scene : Scene F D) (id : PlayerId) : Scene F D :=
  match scene.find id with
  | none => scene
  | some player =>
      { scene.withPlayers (scene.remotes.players.erase id) with
        engine := despawn scene.engine player.actor }

/-- A snapshot is kept if it is newer than the newest one. -/
def pushSnapshot (snapshots : List (TimedState F)) (snapshot : TimedState F) :
    List (TimedState F) :=
  match snapshots.getLast? with
  | some last =>
      if snapshot.timeMs ≤ last.timeMs then snapshots
      else
        let snapshots := snapshots ++ [snapshot]
        snapshots.drop (snapshots.length - maxSnapshots)
  | none => [snapshot]

/-- Follows the fastest packets, with a slow drift. -/
def noteServerTime (remotes : RemotePlayers F D) (serverMs : Int) (localMs : D) :
    RemotePlayers F D :=
  let sample := localMs - toDouble serverMs
  if !remotes.hasOffset then
    { remotes with hasOffset := true, offsetMs := sample }
  else if sample < remotes.offsetMs then
    { remotes with offsetMs := sample }
  else
    { remotes with
      offsetMs := remotes.offsetMs + (sample - remotes.offsetMs) * CppFloat.ofRat (2 / 100) }

def applyState (scene : Scene F D) (id : PlayerId) (state : PlayerState F) (serverMs : UInt32)
    (localMs : D) : Scene F D :=
  let scene := if id ∈ scene.remotes.players then scene else add scene id (placeholderName id)
  let (timeMs, serverClock) := scene.remotes.serverClock.unwrap serverMs
  let remotes := noteServerTime { scene.remotes with serverClock } timeMs localMs
  { scene with
    remotes := { remotes with
      players := modify id
        (fun player =>
          { player with snapshots := pushSnapshot player.snapshots { state, timeMs } })
        remotes.players } }

end Bookkeeping

section Lookups

variable {scene : Scene F D} {id : PlayerId}

theorem find_setPlayer {old : RemotePlayer F} (hold : scene.find id = some old)
    (player : RemotePlayer F) (c : PlayerId) :
    (scene.setPlayer id player).find c = if c = id then some player else scene.find c := by
  by_cases hc : c = id
  · subst hc
    rw [if_pos rfl]
    exact (lookup_modify _ _ _).trans (by rw [show scene.remotes.players.lookup c = _ from hold]; rfl)
  · rw [if_neg hc]
    exact lookup_modify_of_ne hc _ _

theorem find_remove (scene : Scene F D) (id c : PlayerId) :
    (remove scene id).find c = if c = id then none else scene.find c := by
  rw [remove]
  cases hfind : scene.find id with
  | none =>
      dsimp only
      split
      · rename_i hc
        rw [hc, hfind]
      · rfl
  | some player =>
      by_cases hc : c = id
      · subst hc
        rw [if_pos rfl]
        exact AList.lookup_erase _ _
      · rw [if_neg hc]
        exact AList.lookup_erase_ne hc

theorem pushSnapshot_ne_nil (snapshots : List (TimedState F)) (snapshot : TimedState F) :
    pushSnapshot snapshots snapshot ≠ [] := by
  rw [pushSnapshot]
  cases hlast : snapshots.getLast? with
  | none => rintro ⟨⟩
  | some last =>
      dsimp only
      split
      · rintro rfl
        cases hlast
      · intro hnil
        have hlength := congrArg List.length hnil
        simp only [List.length_drop, List.length_append, List.length_singleton, List.length_nil,
          maxSnapshots] at hlength
        omega

variable [CppFloat F]

theorem find_add (scene : Scene F D) (id : PlayerId) (name : Bytes) (c : PlayerId) :
    (add scene id name).find c = if c = id then
      some { (scene.find id).getD (.initial F) with id, name } else scene.find c := by
  by_cases hc : c = id
  · subst hc
    rw [if_pos rfl]
    refine (lookup_modify _ _ _).trans ?_
    cases hfind : scene.remotes.players.lookup c with
    | none => rw [lookup_emplace_of_none hfind, show scene.find c = none from hfind]; rfl
    | some player =>
        rw [emplace_of_some hfind, hfind, show scene.find c = some player from hfind]; rfl
  · rw [if_neg hc]
    exact (lookup_modify_of_ne hc _ _).trans (lookup_emplace_of_ne hc _ _)

theorem find_rename (scene : Scene F D) (id : PlayerId) (name : Bytes) (c : PlayerId) :
    (rename scene id name).find c = if c = id then
      some { (scene.find id).getD { RemotePlayer.initial F with id } with name }
    else scene.find c := by
  cases hfind : scene.find id with
  | none =>
      simp only [rename, hfind]
      rw [find_add, hfind]
      rfl
  | some player =>
      simp only [rename, hfind]
      exact find_setPlayer hfind { player with name } c

/-- The record a state goes to: a new one with a placeholder for a name, if there is
none. -/
def stateEntry (scene : Scene F D) (id : PlayerId) : RemotePlayer F :=
  (scene.find id).getD { RemotePlayer.initial F with id, name := placeholderName id }

omit [CppFloat F] in
/-- Noting a server time leaves all but the offset alone. -/
theorem noteServerTime_spec [CppFloat D] (remotes : RemotePlayers F D) (serverMs : Int) (localMs : D) :
    (noteServerTime remotes serverMs localMs).players = remotes.players ∧
      (noteServerTime remotes serverMs localMs).serverClock = remotes.serverClock ∧
      (noteServerTime remotes serverMs localMs).hasOffset = true := by
  rw [noteServerTime]
  split
  · exact ⟨rfl, rfl, rfl⟩
  · rename_i hoffset
    split <;> exact ⟨rfl, rfl, by simpa using hoffset⟩

theorem find_applyState [CppFloat D] (scene : Scene F D) (id : PlayerId) (state : PlayerState F)
    (serverMs : UInt32) (localMs : D) (c : PlayerId) :
    (applyState scene id state serverMs localMs).find c = if c = id then
      some { stateEntry scene id with
        snapshots := pushSnapshot (stateEntry scene id).snapshots
          { state, timeMs := (scene.remotes.serverClock.unwrap serverMs).1 } }
    else scene.find c := by
  obtain ⟨added, hadded, hclock, hentry, hothers⟩ : ∃ added : Scene F D,
      (if id ∈ scene.remotes.players then scene else add scene id (placeholderName id)) = added ∧
      added.remotes.serverClock = scene.remotes.serverClock ∧
      added.find id = some (stateEntry scene id) ∧ ∀ c, c ≠ id → added.find c = scene.find c := by
    refine ⟨_, rfl, ?_⟩
    by_cases hmem : id ∈ scene.remotes.players
    · rw [if_pos hmem]
      obtain ⟨player, hplayer⟩ := Option.isSome_iff_exists.mp (AList.lookup_isSome.mpr hmem)
      have hfind : scene.find id = some player := hplayer
      exact ⟨rfl, by rw [stateEntry, hfind]; rfl, fun _ _ => rfl⟩
    · rw [if_neg hmem]
      have hfind : scene.find id = none := AList.lookup_eq_none.mpr hmem
      refine ⟨rfl, ?_, fun c hc => by rw [find_add, if_neg hc]⟩
      rw [find_add, if_pos rfl, stateEntry, hfind]
      rfl
  rw [applyState, hadded, ← hclock]
  by_cases hc : c = id
  · subst hc
    rw [if_pos rfl]
    refine (lookup_modify _ _ _).trans ?_
    rw [(noteServerTime_spec _ _ _).1, show added.remotes.players.lookup c = _ from hentry]
    rfl
  · rw [if_neg hc, ← hothers c hc]
    refine (lookup_modify_of_ne hc _ _).trans ?_
    rw [(noteServerTime_spec _ _ _).1]
    rfl

end Lookups

/-- What one `Update` is about, for every player. -/
structure Frame (D : Type) where
  now : Time
  localSpace : Space
  renderMs : D
  answers : PlayerId → Answers

section Frames

variable [CppFloat F] [CppFloat D]

/-- `SNAPSHOT_KEEP_MS`. -/
def snapshotKeepMs : D := CppFloat.ofRat 1500

/-- Forgets history well behind the render time, but keeps two snapshots. -/
def trim (renderMs : D) : List (TimedState F) → List (TimedState F)
  | first :: second :: third :: rest =>
      if toDouble second.timeMs + snapshotKeepMs < renderMs then
        trim renderMs (second :: third :: rest)
      else first :: second :: third :: rest
  | snapshots => snapshots

/-- Takes the clone away when its player is somewhere it cannot be seen. -/
def tearDown (player : RemotePlayer F) (engine : Engine F) (visible : Bool)
    (targetSpace : Space) : RemotePlayer F × Engine F :=
  match engine.get player.actor with
  | none => (player, engine)
  | some ref =>
      -- never drive the local player as if it were a clone
      if ref = playerRef then ({ player with actor := none }, engine)
      else if !visible || !player.actorSpace.sameArea targetSpace then
        ({ player with actor := none }, despawn engine player.actor)
      else (player, engine)

/-- The record the clone is made from: shared, or a copy for this player. -/
def chooseBase (remotes : RemotePlayers F D) (player : RemotePlayer F) (engine : Engine F)
    (answers : Answers) : Option Form × RemotePlayer F × Engine F :=
  if remotes.duplicate then
    if player.base.isNone && !player.baseFailed then
      let (base, engine) :=
        createCloneBase engine answers.base remotes.baseFormId player.name remotes.ghost
      (base, { player with base, baseFailed := base.isNone }, engine)
    else (player.base, player, engine)
  else
    (answers.base,
      if answers.base.isNone && !player.baseFailed then { player with baseFailed := true }
      else player,
      engine)

/-- The record of a player whose clone was just made. -/
def RemotePlayer.spawned (player : RemotePlayer F) (space : Space) : RemotePlayer F :=
  { player with
    actorSpace := space
    actorDead := false
    actorPacified := false
    locomotionInit := false
    hasLastRender := false
    speed := CppFloat.ofRat 0
    appliedFlags := kStateNone }

def spawnClone (remotes : RemotePlayers F D) (now : Time) (answers : Answers)
    (latest : PlayerState F) (targetSpace : Space) (player : RemotePlayer F)
    (engine : Engine F) : RemotePlayer F × Engine F :=
  match chooseBase remotes { player with lastSpawnAttempt := now } engine answers with
  | (none, player, engine) => (player, engine)
  | (some base, player, engine) =>
      let (actor, engine) :=
        spawnPlayerClone engine answers.placed base latest.position latest.yaw targetSpace
      let player := { player with actor }
      match engine.get actor with
      | none => (player, engine)
      | some ref =>
          (player.spawned targetSpace,
            if remotes.duplicate then engine
            else applyCloneIdentity engine ref player.name remotes.ghost)

def present (remotes : RemotePlayers F D) (answers : Answers) (ref : Ref)
    (player : RemotePlayer F) (engine : Engine F) : RemotePlayer F × Engine F :=
  let (player, engine) :=
    if remotes.pacify && !player.actorPacified then
      let (actorPacified, engine) := pacifyClone engine answers ref
      ({ player with actorPacified }, engine)
    else (player, engine)
  (player, if answers.transparent then engine.call (.setAlpha ref) else engine)

/-- Seconds from one time to another, in a `float`. -/
def secondsBetween (start stop : Time) : F :=
  CppFloat.ofRat (stop - start : Nat) / CppFloat.ofRat 1000000000

variable [Libm F]

def smoothedSpeed (player : RemotePlayer F) (position : Vec3 F) (dt : F) : F :=
  if CppFloat.ofRat 0 < dt then
    let dx := position.x - player.lastRenderPos.x
    let dy := position.y - player.lastRenderPos.y
    let instant := Libm.sqrt (dx * dx + dy * dy) / dt
    player.speed + (instant - player.speed) *
      clamp (dt * CppFloat.ofRat 12) (CppFloat.ofRat 0) (CppFloat.ofRat 1)
  else player.speed

/-- Moves the clone to a rendered position and keeps track of its motion. -/
def render (remotes : RemotePlayers F D) (now : Time) (ref : Ref) (sample : PlayerState F)
    (player : RemotePlayer F) (engine : Engine F) : RemotePlayer F × Engine F :=
  let frameDt : F :=
    if player.hasLastRender then secondsBetween player.lastRenderTime now else CppFloat.ofRat 0
  ({ player with
      speed :=
        if player.hasLastRender then smoothedSpeed player sample.position frameDt
        else player.speed
      lastRenderPos := sample.position
      lastRenderTime := now
      hasLastRender := true },
    engine.call
      (if remotes.move && CppFloat.ofRat 0 < frameDt then
        .driveCloneByMove ref sample.position sample.yaw (minimum frameDt (CppFloat.ofRat (1 / 10)))
      else .driveClone ref sample.position sample.yaw))

/-- Death, posture and locomotion follow the newest state. -/
def animate (ref : Ref) (latest : PlayerState F) (player : RemotePlayer F) (engine : Engine F) :
    RemotePlayer F × Engine F :=
  let dead : Bool := latest.flags &&& kStateDead ≠ 0
  let (player, engine) :=
    if dead ≠ player.actorDead then
      ({ player with actorDead := dead },
        engine.call (if dead then .killImpl ref else .resurrect ref))
    else (player, engine)
  if dead then (player, engine)
  else
    let flags := latest.flags &&& ~~~kStateDead
    let engine := applyStateFlags engine ref flags player.appliedFlags
    ({ player with appliedFlags := flags, locomotionInit := true },
      engine.call (.setLocomotion ref player.speed (flags &&& kStateSprinting ≠ 0)
        (!player.locomotionInit)))

variable [Narrow D F]

def driveActor (remotes : RemotePlayers F D) (frame : Frame D) (answers : Answers) (ref : Ref)
    (latest : PlayerState F) (player : RemotePlayer F) (engine : Engine F) :
    RemotePlayer F × Engine F :=
  let (player, engine) := present remotes answers ref player engine
  if !remotes.drive then (player, engine)
  else
    match sampleAt player.snapshots frame.renderMs with
    | none => (player, engine)
    | some sample =>
        let (player, engine) := render remotes frame.now ref sample player engine
        animate ref latest player engine

/-- The clone of one player after the history is trimmed and a clone that must go is
gone: made if it may be, and nothing if there is none. -/
def ensureActor (remotes : RemotePlayers F D) (frame : Frame D) (answers : Answers)
    (latest : PlayerState F) (player : RemotePlayer F) (engine : Engine F) :
    RemotePlayer F × Engine F :=
  let targetSpace := spaceFromState latest
  let visible := targetSpace.sameArea frame.localSpace
  let (player, engine) := tearDown player engine visible targetSpace
  if (engine.get player.actor).isSome then (player, engine)
  else if !visible || frame.now - player.lastSpawnAttempt < spawnRetryInterval then
    (player, engine)
  else spawnClone remotes frame.now answers latest targetSpace player engine

def updateOne (remotes : RemotePlayers F D) (frame : Frame D) (answers : Answers)
    (player : RemotePlayer F) (engine : Engine F) : RemotePlayer F × Engine F :=
  let player := { player with snapshots := trim frame.renderMs player.snapshots }
  match player.latest with
  | none => (player, engine)
  | some latest =>
      let (player, engine) := ensureActor remotes frame answers latest player engine
      match engine.get player.actor with
      | none => (player, engine)
      | some ref => driveActor remotes frame answers ref latest player engine

/-- `UpdateOne` for the player behind an id. -/
def updatePlayer (frame : Frame D) (scene : Scene F D) (id : PlayerId) : Scene F D :=
  match scene.find id with
  | none => scene
  | some player =>
      let (player, engine) := updateOne scene.remotes frame (frame.answers id) player scene.engine
      { scene.setPlayer id player with engine }

theorem updatePlayer_of_none {scene : Scene F D} {id : PlayerId} (h : scene.find id = none)
    (frame : Frame D) : updatePlayer frame scene id = scene := by
  rw [updatePlayer, h]

/-- The record of the player and the engine are as `updateOne` leaves them; the other
records stay. -/
theorem updatePlayer_spec {scene : Scene F D} {id : PlayerId} {player : RemotePlayer F}
    (h : scene.find id = some player) (frame : Frame D) :
    (updatePlayer frame scene id).engine =
        (updateOne scene.remotes frame (frame.answers id) player scene.engine).2 ∧
      ∀ c, (updatePlayer frame scene id).find c = if c = id then
          some (updateOne scene.remotes frame (frame.answers id) player scene.engine).1
        else scene.find c := by
  rw [updatePlayer, h]
  exact ⟨rfl, find_setPlayer h _⟩

theorem updatePlayer_remotes (frame : Frame D) (scene : Scene F D) (id : PlayerId) :
    (updatePlayer frame scene id).remotes =
      { scene.remotes with players := (updatePlayer frame scene id).remotes.players } := by
  rw [updatePlayer]
  split <;> rfl

variable [Widen F D]

/-- What one `Update` reads of the clock and of the engine. -/
structure UpdateInput (D : Type) where
  localSpace : Option Space
  now : Time
  localMs : D
  answers : PlayerId → Answers

/-- Slightly in the past of the server. -/
def renderMsOf (remotes : RemotePlayers F D) (input : UpdateInput D) : D :=
  input.localMs - remotes.offsetMs - Widen.widen remotes.interpDelayMs

def frameOf (remotes : RemotePlayers F D) (input : UpdateInput D) (localSpace : Space) :
    Frame D where
  now := input.now
  localSpace := localSpace
  renderMs := renderMsOf remotes input
  answers := input.answers

def update (scene : Scene F D) (input : UpdateInput D) : Scene F D :=
  match input.localSpace with
  | none => scene
  | some localSpace =>
      scene.remotes.players.keys.foldl
        (updatePlayer (frameOf scene.remotes input localSpace)) scene

theorem update_remotes (scene : Scene F D) (input : UpdateInput D) :
    (update scene input).remotes =
      { scene.remotes with players := (update scene input).remotes.players } := by
  rw [update]
  split
  · rfl
  · generalize frameOf scene.remotes input _ = frame
    generalize scene.remotes.players.keys = ids
    induction ids generalizing scene with
    | nil => rfl
    | cons id ids ih =>
        rw [List.foldl_cons, ih, updatePlayer_remotes]

end Frames

section Lifecycle

variable [CppFloat F] [CppFloat D]

def despawnAll (scene : Scene F D) : Scene F D :=
  { scene.withPlayers (mapValues (fun _ player => { player with actor := none })
      scene.remotes.players) with
    engine := scene.remotes.players.entries.foldl
      (fun engine entry => despawn engine entry.2.actor) scene.engine }

def RemotePlayer.respawned (player : RemotePlayer F) : RemotePlayer F :=
  { player with
    base := none
    baseFailed := false
    actorDead := false
    actorPacified := false
    locomotionInit := false
    hasLastRender := false
    speed := CppFloat.ofRat 0
    appliedFlags := kStateNone
    lastSpawnAttempt := 0 }

def respawn (scene : Scene F D) : Scene F D :=
  let scene := despawnAll scene
  scene.withPlayers (mapValues (fun _ player => player.respawned) scene.remotes.players)

def setInterpDelay (scene : Scene F D) (interpDelayMs : F) : Scene F D :=
  { scene with remotes := { scene.remotes with interpDelayMs } }

def setCloneBase (scene : Scene F D) (baseFormId : Form) : Scene F D :=
  respawn { scene with remotes := { scene.remotes with baseFormId } }

def setDrive (scene : Scene F D) (drive : Bool) : Scene F D :=
  { scene with remotes := { scene.remotes with drive } }

def setPacify (scene : Scene F D) (pacify : Bool) : Scene F D :=
  respawn { scene with remotes := { scene.remotes with pacify } }

def setGhost (scene : Scene F D) (ghost : Bool) : Scene F D :=
  respawn { scene with remotes := { scene.remotes with ghost } }

def setDuplicate (scene : Scene F D) (duplicate : Bool) : Scene F D :=
  respawn { scene with remotes := { scene.remotes with duplicate } }

def setMove (scene : Scene F D) (move : Bool) : Scene F D :=
  { scene with remotes := { scene.remotes with move } }

/-- A player whose clone is gone with the previous game. -/
def RemotePlayer.forgetful (player : RemotePlayer F) : RemotePlayer F :=
  { player with
    actor := none
    actorDead := false
    actorPacified := false
    locomotionInit := false
    hasLastRender := false
    speed := CppFloat.ofRat 0
    appliedFlags := kStateNone
    base := none
    baseFailed := false }

/-- Drops handles and base forms without touching the engine, which keeps track of
the clones that no handle leads to any more. -/
def forgetActors (scene : Scene F D) : Scene F D :=
  { scene.withPlayers (mapValues (fun _ player => player.forgetful) scene.remotes.players) with
    engine := { scene.engine with
      forgotten :=
        scene.remotes.players.entries.filterMap (fun entry => scene.engine.get entry.2.actor) ++
          scene.engine.forgotten } }

def clear (scene : Scene F D) : Scene F D :=
  let scene := despawnAll scene
  { scene with remotes := { scene.remotes with
      players := ∅
      hasOffset := false
      serverClock := {} } }

end Lifecycle

/-- What can happen to the remote players, and the engine deleting a clone by itself. -/
inductive Op (F D : Type) where
  | setInterpDelay (interpDelayMs : F)
  | setCloneBase (baseFormId : Form)
  | setDrive (drive : Bool)
  | setPacify (pacify : Bool)
  | setGhost (ghost : Bool)
  | setDuplicate (duplicate : Bool)
  | setMove (move : Bool)
  | respawn
  | add (id : PlayerId) (name : Bytes)
  | rename (id : PlayerId) (name : Bytes)
  | remove (id : PlayerId)
  | applyState (id : PlayerId) (state : PlayerState F) (serverMs : UInt32) (localMs : D)
  | update (input : UpdateInput D)
  | despawnAll
  | forgetActors
  | clear
  | actorDeleted (ref : Ref)

/-- The order in which the map of players happens to be iterated. -/
abbrev PlayerOrder (F : Type) := Shuffle (Sigma fun _ : PlayerId => RemotePlayer F)

def Scene.reorder (scene : Scene F D) (order : PlayerOrder F) : Scene F D :=
  scene.withPlayers (arrange order scene.remotes.players)

section Runs

variable [CppFloat F] [CppFloat D] [Libm F] [Narrow D F] [Widen F D]

def Scene.perform (scene : Scene F D) : Op F D → Scene F D
  | .setInterpDelay interpDelayMs => RemotePlayersModel.setInterpDelay scene interpDelayMs
  | .setCloneBase baseFormId => RemotePlayersModel.setCloneBase scene baseFormId
  | .setDrive drive => RemotePlayersModel.setDrive scene drive
  | .setPacify pacify => RemotePlayersModel.setPacify scene pacify
  | .setGhost ghost => RemotePlayersModel.setGhost scene ghost
  | .setDuplicate duplicate => RemotePlayersModel.setDuplicate scene duplicate
  | .setMove move => RemotePlayersModel.setMove scene move
  | .respawn => RemotePlayersModel.respawn scene
  | .add id name => RemotePlayersModel.add scene id name
  | .rename id name => RemotePlayersModel.rename scene id name
  | .remove id => RemotePlayersModel.remove scene id
  | .applyState id state serverMs localMs =>
      RemotePlayersModel.applyState scene id state serverMs localMs
  | .update input => RemotePlayersModel.update scene input
  | .despawnAll => RemotePlayersModel.despawnAll scene
  | .forgetActors => RemotePlayersModel.forgetActors scene
  | .clear => RemotePlayersModel.clear scene
  | .actorDeleted ref =>
      { scene with engine := { scene.engine with
          actors := scene.engine.actors.filter (· ≠ ref) } }

/-- An operation, with the map in some order. -/
def Scene.step (scene : Scene F D) (input : PlayerOrder F × Op F D) : Scene F D :=
  (scene.reorder input.1).perform input.2

/-- The scene after some operations. -/
def Scene.after (inputs : List (PlayerOrder F × Op F D)) : Scene F D :=
  run Scene.step (Scene.initial F D) inputs

end Runs

end F4MP.RemotePlayersModel
