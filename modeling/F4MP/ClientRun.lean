import F4MP.Clones
import F4MP.SessionSteps

/-!
Whole runs of a client: every clone is where its player and the local player are, is
held by one player, and is neither made nor moved outside a world.
-/

namespace F4MP.ClientRun

open F4MP.Types
open F4MP.Messages
open F4MP.Arith
open F4MP.GameUtil
open F4MP.ServerModel (Time)
open F4MP.NetClientModel (Dial Request)
open F4MP.RemotePlayersModel
open F4MP.SessionModel
open F4MP.SessionSteps
open F4MP.CloneUpdate
open F4MP.Clones
open F4MP.Library.HashTable
open F4MP.Library.Leases
open F4MP.Library.Runs

variable {D : Type}

structure Client (D : Type) where
  session : Session
  scene : Scene F32 D

/-- What happens to a client, and the order of its player map at each operation. -/
structure Input (D : Type) where
  event : Event D
  orders : Nat → PlayerOrder F32

def remoteOps (actions : List (Action D)) : List (Op F32 D) :=
  actions.filterMap fun action =>
    match action with
    | .remotes op => some op
    | .dial .. | .net _ => none

theorem mem_remoteOps {actions : List (Action D)} {op : Op F32 D} :
    op ∈ remoteOps actions ↔ .remotes op ∈ actions := by
  rw [remoteOps, List.mem_filterMap]
  constructor
  · rintro ⟨action, haction, hop⟩
    cases action with
    | dial | net => cases hop
    | remotes other =>
        obtain rfl := Option.some.inj hop
        exact haction
  · exact fun hop => ⟨_, hop, rfl⟩

theorem remoteOps_concat (actions : List (Action D)) (action : Action D) :
    remoteOps (actions ++ [action]) = remoteOps actions ++
      match action with
      | .remotes op => [op]
      | .dial .. | .net _ => [] := by
  rw [remoteOps, List.filterMap_append]
  cases action <;> rfl

def ordered (orders : Nat → PlayerOrder F32) (ops : List (Op F32 D)) :
    List (PlayerOrder F32 × Op F32 D) :=
  ops.zipIdx.map fun op => (orders op.2, op.1)

theorem mem_of_mem_ordered {orders : Nat → PlayerOrder F32} {ops : List (Op F32 D)}
    {step : PlayerOrder F32 × Op F32 D} (h : step ∈ ordered orders ops) : step.2 ∈ ops := by
  obtain ⟨⟨op, i⟩, hmem, rfl⟩ := List.mem_map.mp h
  exact (List.mem_zipIdx hmem).2.2 ▸ List.getElem_mem _

theorem map_snd_ordered (orders : Nat → PlayerOrder F32) (ops : List (Op F32 D)) :
    (ordered orders ops).map (·.2) = ops := by
  rw [ordered, List.map_map]
  exact List.zipIdx_map_fst 0 ops

theorem ordered_append_one (orders : Nat → PlayerOrder F32) (ops : List (Op F32 D))
    (op : Op F32 D) :
    ordered orders (ops ++ [op]) = ordered orders ops ++ [(orders ops.length, op)] := by
  simp [ordered, List.zipIdx_append]

section Outside

/-- No update is asked for, and the client does not enter or leave a world. -/
structure Offstage (session : Session) (result : Result D) : Prop where
  inWorld : result.1.inWorld = session.inWorld
  idle : ∀ op, .remotes op ∈ result.2 → ∀ input, op ≠ .update input

variable {session : Session} {result : Result D}

theorem Offstage.andThen (h : Offstage session result) {next : Session → Result D}
    (hnext : Offstage result.1 (next result.1)) : Offstage session (result.andThen next) where
  inWorld := hnext.inWorld.trans h.inWorld
  idle op hop := (List.mem_append.mp hop).elim (h.idle op) (hnext.idle op)

theorem offstage_nothing (h : result.1.inWorld = session.inWorld) (hnone : result.2 = []) :
    Offstage session result := by
  refine ⟨h, fun op hop => ?_⟩
  rw [hnone] at hop
  cases hop

theorem offstage_requests (session' : Session) (h : session'.inWorld = session.inWorld)
    (asked : List Request) : Offstage session (requests session' asked : Result D) := by
  refine ⟨h, fun op hop => ?_⟩
  obtain ⟨request, -, heq⟩ := List.mem_map.mp hop
  cases heq

theorem offstage_dialled (session' : Session) (h : session'.inWorld = session.inWorld)
    (manual : Bool) (now : Time) (asked : List Request) :
    Offstage session ((session', .dial manual now :: asked.map .net) : Result D) := by
  refine ⟨h, fun op hop => ?_⟩
  have hasked := (List.mem_cons.mp hop).resolve_left (by rintro ⟨⟩)
  exact (offstage_requests session' h asked).idle op hasked

theorem offstage_tell (session' : Session) (h : session'.inWorld = session.inWorld)
    {op : Op F32 D} (hop : ∀ input, op ≠ .update input) :
    Offstage session (tell session' op) := by
  refine ⟨h, fun other hother => ?_⟩
  cases List.mem_singleton.mp hother
  exact hop

theorem offstage_onDisconnected (session' : Session) (h : session'.inWorld = session.inWorld) :
    Offstage session (onDisconnected session' : Result D) := by
  rw [onDisconnected]
  exact offstage_tell _ (by exact h) (by rintro _ ⟨⟩)

theorem offstage_resetNet (session : Session) : Offstage session (resetNet session : Result D) :=
  offstage_requests _ (by rfl) _

theorem offstage_disconnectNet (session' : Session) (h : session'.inWorld = session.inWorld) :
    Offstage session (disconnectNet session' : Result D) := by
  rw [disconnectNet]
  split
  · exact offstage_nothing h rfl
  · refine Offstage.andThen ?_ (offstage_onDisconnected _ (by rfl))
    exact ⟨h, (offstage_resetNet session').idle⟩

theorem offstage_connect (session : Session) (manual : Bool) (dial : Dial) (now : Time) :
    Offstage session (connect session manual dial now : Result D) := by
  rw [connect]
  split
  · exact offstage_nothing rfl rfl
  · dsimp only
    split
    · exact (offstage_disconnectNet _ (by rfl)).andThen (offstage_dialled _ (by rfl) _ _ _)
    · split
      · exact offstage_nothing rfl rfl
      · exact offstage_dialled _ (by rfl) _ _ _

variable [CppFloat F32]

theorem offstage_sendState (session' : Session) (h : session'.inWorld = session.inWorld)
    (force : Bool) (sample : Option (PlayerState F32)) (now : Time) :
    Offstage session (sendState session' force sample now : Result D) := by
  cases sample with
  | none => exact offstage_nothing h rfl
  | some state =>
      simp only [sendState]
      split
      · exact offstage_requests _ (by exact h) _
      · exact offstage_nothing h rfl

theorem offstage_handlePacket (session : Session) (bytes : Bytes) (reading : Reading D) :
    Offstage session (handlePacket session bytes reading) := by
  have hother : ∀ (id : PlayerId) {op : Op F32 D}, (∀ input, op ≠ .update input) →
      Offstage session (tellOfOther session id op) := by
    intro id op hop
    rw [tellOfOther]
    split
    · exact offstage_tell _ (by rfl) hop
    · exact offstage_nothing rfl rfl
  rw [handlePacket_eq]
  cases decode bytes with
  | none => exact offstage_nothing rfl rfl
  | some m =>
      cases m with
      | welcome => exact offstage_sendState _ (by rfl) _ _ _
      | playerJoined | playerRenamed | playerStateUpdate => exact hother _ (by rintro _ ⟨⟩)
      | playerLeft => exact offstage_tell _ (by rfl) (by rintro _ ⟨⟩)
      | reject | chatBroadcast | hello | playerState | chat | setName =>
          exact offstage_nothing rfl rfl

theorem offstage_handleNetEvents (session : Session) (events : List (NetEvent D)) :
    Offstage session (handleNetEvents session events) := by
  induction events generalizing session with
  | nil => exact offstage_nothing rfl rfl
  | cons event events ih =>
      rw [handleNetEvents]
      refine Offstage.andThen ?_ (ih _)
      cases event with
      | connect playerName => exact offstage_requests _ (by rfl) _
      | receive bytes reading => exact offstage_handlePacket session bytes reading
      | disconnect => exact offstage_onDisconnected _ (by rfl)

theorem offstage_pump (session : Session) (events : List (NetEvent D)) (now : Time) :
    Offstage session (pump session events now) := by
  rw [pump]
  split
  · exact offstage_nothing rfl rfl
  · refine (offstage_handleNetEvents session events).andThen ?_
    split
    · exact (offstage_resetNet _).andThen (offstage_onDisconnected _ (by rfl))
    · exact offstage_nothing rfl rfl

theorem idle_of_outside (houtside : session.inWorld = false) (event : Event D) {op : Op F32 D}
    (hop : .remotes op ∈ (step session event).2) (input : UpdateInput D) : op ≠ .update input := by
  have htold : ∀ {session' : Session} {other : Op F32 D}, (∀ input, other ≠ .update input) →
      .remotes op ∈ (tell session' other).2 → op ≠ .update input := by
    intro session' other hother hmem
    cases List.mem_singleton.mp hmem
    exact hother input
  cases event with
  | enterWorld | newGame | leaveWorld | preSave | setCloneBase | actorDeleted =>
      exact htold (by rintro _ ⟨⟩) hop
  | setServer | setPlayerName => cases hop
  | tick frame =>
      have hpump := offstage_pump session frame.events frame.pumpNow
      have hquiet : Offstage session (tick session frame) := by
        refine hpump.andThen ?_
        rw [hpump.inWorld, houtside]
        exact offstage_nothing rfl rfl
      exact hquiet.idle op hop input
  | connect dial now => exact (offstage_connect session true dial now).idle op hop input
  | disconnect =>
      have hquiet : Offstage session (SessionModel.disconnect session true : Result D) :=
        offstage_disconnectNet _ (by rfl)
      exact hquiet.idle op hop input
  | sendChat text =>
      rw [step, sendChat] at hop
      split at hop
      · cases hop
      · exact (offstage_requests _ rfl _ : Offstage session _).idle op hop input
  | setCloneOption option on =>
      rw [step, setCloneOption] at hop
      -- each option is one operation that is no update
      repeat' (split at hop; · exact htold (by rintro _ ⟨⟩) hop)
      cases hop

end Outside

section Runs

variable [CppFloat F32] [CppFloat D] [Libm F32] [Narrow D F32] [Widen F32 D]

/-- What an event does to the remote players. -/
def Client.performs (client : Client D) (input : Input D) : List (PlayerOrder F32 × Op F32 D) :=
  ordered input.orders (remoteOps (SessionModel.step client.session input.event).2)

def Client.step (client : Client D) (input : Input D) : Client D where
  session := (SessionModel.step client.session input.event).1
  scene := run Scene.step client.scene (client.performs input)

/-- A client that was just started. -/
def Client.initial (config : Config) (gameVersion : UInt32) (enetReady : Bool) : Client D where
  session := (init config gameVersion enetReady : Result D).1
  scene := run Scene.step (Scene.initial F32 D) (ordered (fun _ => .keep _)
    (remoteOps (init config gameVersion enetReady).2))

/-- The client after some inputs. -/
def Client.after (config : Config) (gameVersion : UInt32) (enetReady : Bool)
    (inputs : List (Input D)) : Client D :=
  run Client.step (.initial config gameVersion enetReady) inputs

theorem confined_run {scene : Scene F32 D} (h : Confined scene)
    (steps : List (PlayerOrder F32 × Op F32 D)) : Confined (run Scene.step scene steps) :=
  run_invariant h (fun scene input hconfined => hconfined.evolves (evolves_step scene input)) steps

theorem confined_client (config : Config) (gameVersion : UInt32) (enetReady : Bool)
    (inputs : List (Input D)) :
    Confined (Client.after config gameVersion enetReady inputs).scene :=
  run_invariant (P := fun client : Client D => Confined client.scene)
    (confined_run confined_initial _) (fun _ _ h => confined_run h _) inputs

theorem quiet_run (scene : Scene F32 D) {steps : List (PlayerOrder F32 × Op F32 D)}
    (h : ∀ step ∈ steps, ∀ input, step.2 ≠ .update input) :
    Asked Quiet scene.engine (run Scene.step scene steps).engine := by
  induction steps using List.reverseRecOn with
  | nil => exact .refl _
  | append_singleton steps step ih =>
      rw [run_concat]
      exact (ih fun other hother => h other (List.mem_append_left _ hother)).trans
        (quiet_perform ((run Scene.step scene steps).reorder step.1) (h step (by simp)))

/-- After every operation of every event of a run: a clone that exists, and was not
forgotten, is held by exactly one player; an update leaves clones in the area of
their players and of the local player only; despawning all and clearing leave none,
and the former is all a save does first; and none is made or moved outside a world. -/
theorem clones_confined (config : Config) (gameVersion : UInt32) (enetReady : Bool)
    (inputs : List (Input D)) (input : Input D) (count : Nat) :
    let client := Client.after config gameVersion enetReady inputs
    let done := (client.performs input).take count
    let scene := run Scene.step client.scene done
    (∀ ref ∈ scene.engine.actors, ref ∉ scene.engine.forgotten →
      ∃! id, handle scene id = some ref) ∧
    (∀ order frame localSpace, done.getLast? = some (order, .update frame) →
      frame.localSpace = some localSpace → ∀ id player, scene.find id = some player →
      scene.engine.get player.actor ≠ none → ∃ latest, player.latest = some latest ∧
        player.actorSpace.sameArea (spaceFromState latest) = true ∧
        player.actorSpace.sameArea localSpace = true) ∧
    (∀ order op, done.getLast? = some (order, op) → op = .despawnAll ∨ op = .clear →
      ∀ ref ∈ scene.engine.actors, ref ∈ scene.engine.forgotten) ∧
    (input.event = .preSave → client.performs input = [(input.orders 0, .despawnAll)]) ∧
    (client.session.inWorld = false → Asked Quiet client.scene.engine scene.engine) := by
  intro client done scene
  have hclient : Confined client.scene := confined_client config gameVersion enetReady inputs
  have hscene : Confined scene := confined_run hclient done
  -- the scene before the last operation
  have hlast : ∀ {order op}, done.getLast? = some (order, op) → ∃ before : Scene F32 D,
      Confined before ∧ scene = before.perform op := by
    intro order op hop
    have hsplit : done = done.dropLast ++ [(order, op)] :=
      (List.dropLast_append_getLast? _ hop).symm
    have hbefore : Confined (run Scene.step client.scene done.dropLast) := confined_run hclient _
    refine ⟨_, hbefore.evolves (evolves_reorder _ order), ?_⟩
    change run Scene.step client.scene done = _
    rw [hsplit, run_concat, List.dropLast_concat]
    rfl
  refine ⟨fun ref hactors hforgotten => hscene.sound.owned ref ⟨hactors, hforgotten⟩, ?_, ?_, ?_, ?_⟩
  · intro order frame localSpace hop hspace id player hplayer hget
    obtain ⟨before, hbefore, hafter⟩ := hlast hop
    have hspec := update_spec hspace before
    rw [show update before frame = scene from hafter.symm] at hspec
    have hlisted : id ∈ before.remotes.players.keys := by
      by_contra hmissing
      have hkept := (hspec.others id hmissing).symm.trans hplayer
      exact hmissing (AList.mem_keys.mpr (AList.lookup_isSome.mp (by
        rw [show before.remotes.players.lookup id = some player from hkept]
        rfl)))
    obtain ⟨latest, hlatest, hactor, hlocal⟩ := hspec.area hbefore id hlisted player hplayer hget
    exact ⟨latest, hlatest, hactor, Space.sameArea_trans hactor hlocal⟩
  · intro order op hop hkind ref hactors
    obtain ⟨before, hbefore, hafter⟩ := hlast hop
    have hgone : ledger scene = (ledger before).releaseAll := by
      rcases hkind with rfl | rfl
      · rw [hafter]
        exact (letGo_despawnAll before).ledger_eq hbefore.sane
      · rw [hafter]
        exact (letGo_clear before).ledger_eq hbefore.sane
    by_contra hforgotten
    have hlive : ref ∈ (ledger scene).live := ⟨hactors, hforgotten⟩
    rw [hgone, hbefore.sound.live_releaseAll] at hlive
    exact hlive
  · intro hevent
    rw [Client.performs, hevent]
    rfl
  · intro houtside
    refine quiet_run client.scene fun step hstep frame => ?_
    have hop := mem_of_mem_ordered (List.mem_of_mem_take hstep)
    exact idle_of_outside houtside input.event (mem_remoteOps.mp hop) frame

end Runs

end F4MP.ClientRun
