import F4MP.Chronicle
import F4MP.ClientRun

/-!
A client during one connection: it handles the packets the network delivers, each
channel in order for itself, and anything else but the end of the connection happens
to its remote players in between.
-/

namespace F4MP.Delivery

open F4MP.Types
open F4MP.Messages
open F4MP.Arith
open F4MP.Interp
open F4MP.ServerRun
open F4MP.ServerTraffic
open F4MP.Handshake
open F4MP.RemotePlayersModel
open F4MP.SessionModel
open F4MP.SessionSteps
open F4MP.CloneUpdate
open F4MP.Clones
open F4MP.ClientRun
open F4MP.Chronicle
open F4MP.Library.HashTable
open F4MP.Library.Runs

/-- Reliable packets arrive in send order without gaps, unreliable ones in send order;
nothing is said about the order between the two. -/
structure Delivers (link delivered : List Sent) : Prop where
  reliable : delivered.filter (·.channel = .kReliable) <+: link.filter (·.channel = .kReliable)
  unreliable :
    (delivered.filter (·.channel = .kUnreliable)).Sublist (link.filter (·.channel = .kUnreliable))

theorem Delivers.mem {link delivered : List Sent} (h : Delivers link delivered) {sent : Sent}
    (hsent : sent ∈ delivered) : sent ∈ link := by
  cases hchannel : sent.channel with
  | kReliable =>
      have hmem := h.reliable.subset (List.mem_filter.mpr ⟨hsent, decide_eq_true hchannel⟩)
      exact (List.mem_filter.mp hmem).1
  | kUnreliable =>
      have hmem := h.unreliable.subset (List.mem_filter.mpr ⟨hsent, decide_eq_true hchannel⟩)
      exact (List.mem_filter.mp hmem).1

theorem Delivers.of_append {link delivered more : List Sent}
    (h : Delivers link (delivered ++ more)) : Delivers link delivered where
  reliable := by
    have hreliable := h.reliable
    rw [List.filter_append] at hreliable
    exact (List.prefix_append _ _).trans hreliable
  unreliable := by
    have hunreliable := h.unreliable
    rw [List.filter_append] at hunreliable
    exact (List.sublist_append_left _ _).trans hunreliable

section Players

variable {F D : Type}

def Listed (scene : Scene F D) (id : PlayerId) : Prop := scene.find id ≠ none

def newest (scene : Scene F D) (id : PlayerId) : Option (TimedState F) :=
  (scene.find id).bind (·.snapshots.getLast?)

/-- The same players are listed, with the same newest snapshots. -/
structure SamePlayers (scene scene' : Scene F D) : Prop where
  clock : scene'.remotes.serverClock = scene.remotes.serverClock
  players : ∀ id, (scene'.find id).map (·.snapshots.getLast?) =
    (scene.find id).map (·.snapshots.getLast?)

variable {scene scene' scene'' : Scene F D}

theorem SamePlayers.trans (h : SamePlayers scene scene') (h' : SamePlayers scene' scene'') :
    SamePlayers scene scene'' :=
  ⟨h'.clock.trans h.clock, fun id => (h'.players id).trans (h.players id)⟩

theorem SamePlayers.listed (h : SamePlayers scene scene') (id : PlayerId) :
    Listed scene' id ↔ Listed scene id := by
  have hmap := h.players id
  rw [Listed, Listed]
  cases hfind : scene.find id <;> cases hfind' : scene'.find id <;> simp_all

theorem SamePlayers.newest (h : SamePlayers scene scene') (id : PlayerId) :
    Delivery.newest scene' id = Delivery.newest scene id := by
  have hbind : ∀ o : Option (RemotePlayer F), o.bind (·.snapshots.getLast?) =
      (o.map (·.snapshots.getLast?)).join := by
    intro o
    cases o <;> rfl
  rw [Delivery.newest, Delivery.newest, hbind, hbind, h.players id]

/-- Neither a message about another player nor the end of a connection. -/
def Neutral : Op F D → Prop
  | .add .. | .rename .. | .remove .. | .applyState .. | .clear => False
  | _ => True

/-- The same players are listed, and look the same in a view of them. -/
structure SameUnder {α : Type} (view : RemotePlayer F → α) (scene scene' : Scene F D) : Prop where
  clock : scene'.remotes.serverClock = scene.remotes.serverClock
  players : ∀ id, (scene'.find id).map view = (scene.find id).map view

section Views

variable {α : Type} {view : RemotePlayer F → α}

theorem SameUnder.refl (scene : Scene F D) : SameUnder view scene scene := ⟨rfl, fun _ => rfl⟩

theorem SameUnder.trans (h : SameUnder view scene scene') (h' : SameUnder view scene' scene'') :
    SameUnder view scene scene'' :=
  ⟨h'.clock.trans h.clock, fun id => (h'.players id).trans (h.players id)⟩

theorem SameUnder.of_mapValues (f : RemotePlayer F → RemotePlayer F)
    (hf : ∀ player, view (f player) = view player)
    (hclock : scene'.remotes.serverClock = scene.remotes.serverClock)
    (hplayers : scene'.remotes.players = mapValues (fun _ player => f player) scene.remotes.players) :
    SameUnder view scene scene' := by
  refine ⟨hclock, fun id => ?_⟩
  have hfind : scene'.find id = (scene.find id).map f := by
    rw [Scene.find, hplayers]
    exact lookup_mapValues _ _ _
  rw [hfind, Option.map_map]
  cases scene.find id with
  | none => rfl
  | some player => exact congrArg some (hf player)

theorem sameUnder_reorder (scene : Scene F D) (order : PlayerOrder F) :
    SameUnder view scene (scene.reorder order) :=
  ⟨rfl, fun id => congrArg (Option.map _) (lookup_arrange order _ id)⟩

end Views

theorem samePlayers_reorder (scene : Scene F D) (order : PlayerOrder F) :
    SamePlayers scene (scene.reorder order) :=
  ⟨rfl, (sameUnder_reorder scene order).players⟩

variable [CppFloat F] [CppFloat D] [Libm F] [Narrow D F]

/-- A view of a player that changes with messages about the player only. -/
structure Steady (D : Type) [CppFloat D] [Narrow D F] {α : Type} (view : RemotePlayer F → α) :
    Prop where
  despawned : ∀ player, view { player with actor := none } = view player
  respawned : ∀ player, view player.respawned = view player
  forgetful : ∀ player, view player.forgetful = view player
  updated : ∀ (remotes : RemotePlayers F D) frame answers player engine,
    view (updateOne remotes frame answers player engine).1 = view player

section Steady

variable {α : Type} {view : RemotePlayer F → α}

theorem Steady.respawn (h : Steady D view) (scene : Scene F D) :
    SameUnder view scene (RemotePlayersModel.respawn scene) := by
  have hdespawned : SameUnder view scene (despawnAll scene) :=
    .of_mapValues (fun player => { player with actor := none }) h.despawned rfl rfl
  exact hdespawned.trans (.of_mapValues (fun player => player.respawned) h.respawned rfl rfl)

theorem Steady.respawnWith (h : Steady D view) (scene : Scene F D) {remotes : RemotePlayers F D}
    (hclock : remotes.serverClock = scene.remotes.serverClock)
    (hplayers : remotes.players = scene.remotes.players) :
    SameUnder view scene (RemotePlayersModel.respawn { scene with remotes }) := by
  have hoptions : SameUnder view scene { scene with remotes } :=
    ⟨hclock, fun id => congrArg (fun players => (AList.lookup id players).map _) hplayers⟩
  exact hoptions.trans (h.respawn _)

theorem Steady.updatePlayer (h : Steady D view) (frame : Frame D) (scene : Scene F D)
    (id : PlayerId) : SameUnder view scene (RemotePlayersModel.updatePlayer frame scene id) := by
  cases hfind : scene.find id with
  | none =>
      rw [updatePlayer_of_none hfind]
      exact .refl scene
  | some player =>
      have hsame := h.updated scene.remotes frame (frame.answers id) player scene.engine
      refine ⟨by rw [updatePlayer_remotes], fun c => ?_⟩
      rw [(updatePlayer_spec hfind frame).2]
      split
      · rename_i hc
        rw [hc, hfind, Option.map_some, Option.map_some, hsame]
      · rfl

theorem steady_newest : Steady D fun player : RemotePlayer F => player.snapshots.getLast? where
  despawned _ := rfl
  respawned _ := rfl
  forgetful _ := rfl
  updated remotes frame answers player engine := by
    rw [(updateOne_spec remotes frame answers player engine).handled.snapshots]
    exact trim_getLast? _ _

variable [Widen F D]

theorem Steady.update (h : Steady D view) (scene : Scene F D) (input : UpdateInput D) :
    SameUnder view scene (RemotePlayersModel.update scene input) := by
  rw [RemotePlayersModel.update]
  cases input.localSpace with
  | none => exact .refl scene
  | some localSpace =>
      dsimp only
      generalize frameOf scene.remotes input localSpace = frame
      generalize scene.remotes.players.keys = ids
      induction ids generalizing scene with
      | nil => exact .refl scene
      | cons id ids ih => exact (h.updatePlayer frame scene id).trans (ih _)

theorem Steady.perform (h : Steady D view) (scene : Scene F D) {op : Op F D} (hop : Neutral op) :
    SameUnder view scene (scene.perform op) := by
  cases op with
  | setInterpDelay | setDrive | setMove | actorDeleted => exact ⟨rfl, fun _ => rfl⟩
  | setCloneBase | setPacify | setGhost | setDuplicate => exact h.respawnWith scene rfl rfl
  | respawn => exact h.respawn scene
  | update input => exact h.update scene input
  | despawnAll =>
      exact .of_mapValues (fun player => { player with actor := none }) h.despawned rfl rfl
  | forgetActors => exact .of_mapValues (fun player => player.forgetful) h.forgetful rfl rfl
  | add | rename | remove | applyState | clear => exact hop.elim

theorem samePlayers_perform (scene : Scene F D) {op : Op F D} (hop : Neutral op) :
    SamePlayers scene (scene.perform op) :=
  ⟨(steady_newest.perform scene hop).clock, (steady_newest.perform scene hop).players⟩

end Steady

end Players

section Packets

variable {D : Type}

/-- What a message makes of the remote players of the client whose id is `self`. -/
def told (self : PlayerId) (localMs : D) : Message → List (Op F32 D)
  | .playerJoined m => if m.id ≠ self then [.add m.id m.name] else []
  | .playerLeft m => [.remove m.id]
  | .playerRenamed m => if m.id ≠ self then [.rename m.id m.name] else []
  | .playerStateUpdate m =>
      if m.id ≠ self then [.applyState m.id m.state m.timeMs localMs] else []
  | _ => []

def selfAfter (self : PlayerId) : Message → PlayerId
  | .welcome m => m.id
  | _ => self

variable [CppFloat F32]

theorem sendState_keeps (session : Session) (force : Bool) (sample : Option (PlayerState F32))
    (now : ServerModel.Time) : remoteOps (sendState session force sample now : Result D).2 = [] ∧
      (sendState session force sample now : Result D).1.myId = session.myId := by
  have hrequests : ∀ (session : Session) (asked : List NetClientModel.Request),
      remoteOps (requests session asked : Result D).2 = [] := by
    intro session asked
    rw [requests, remoteOps, List.filterMap_map]
    exact List.filterMap_eq_nil_iff.mpr fun _ _ => rfl
  cases sample with
  | none => exact ⟨rfl, rfl⟩
  | some state =>
      simp only [sendState]
      split
      · exact ⟨hrequests _ _, rfl⟩
      · exact ⟨rfl, rfl⟩

theorem handlePacket_decoded (session : Session) (bytes : Bytes) (reading : Reading D) :
    remoteOps (handlePacket session bytes reading).2 =
        (decode bytes).elim [] (told session.myId reading.localMs) ∧
      (handlePacket session bytes reading).1.myId =
        (decode bytes).elim session.myId (selfAfter session.myId) := by
  have hother : ∀ (id : PlayerId) (op : Op F32 D),
      remoteOps (tellOfOther session id op).2 = (if id ≠ session.myId then [op] else []) ∧
        (tellOfOther session id op).1.myId = session.myId := by
    intro id op
    rw [tellOfOther]
    split <;> exact ⟨rfl, rfl⟩
  rw [handlePacket_eq]
  cases decode bytes with
  | none => exact ⟨rfl, rfl⟩
  | some m =>
      cases m with
      | welcome => exact sendState_keeps _ _ _ _
      | playerJoined | playerRenamed | playerStateUpdate => exact hother _ _
      | playerLeft | reject | chatBroadcast | hello | playerState | chat | setName =>
          exact ⟨rfl, rfl⟩

end Packets

section Connection

variable {D : Type}

/-- What happens to a client while a connection lasts: a packet arrives, or something is
done to the remote players that is not about who they are. -/
inductive Moment (D : Type) where
  | packet (sent : Sent) (reading : Reading D) (order : PlayerOrder F32)
  | meanwhile (order : PlayerOrder F32) (op : Op F32 D) (hop : Neutral op)

/-- The packets that arrived. -/
def packets (moments : List (Moment D)) : List Sent :=
  moments.filterMap fun moment =>
    match moment with
    | .packet sent _ _ => some sent
    | .meanwhile .. => none

@[simp] theorem packets_append (moments more : List (Moment D)) :
    packets (moments ++ more) = packets moments ++ packets more :=
  List.filterMap_append

@[simp] theorem packets_packet (sent : Sent) (reading : Reading D) (order : PlayerOrder F32) :
    packets [.packet sent reading order] = [sent] := rfl

@[simp] theorem packets_meanwhile (order : PlayerOrder F32) {op : Op F32 D} (hop : Neutral op) :
    packets [.meanwhile order op hop] = [] := rfl

/-- A client before the first packet of a connection. -/
structure Blank (client : Client D) : Prop where
  myId : client.session.myId = invalidPlayerId
  players : client.scene.remotes.players = ∅
  clock : client.scene.remotes.serverClock = {}

variable [CppFloat F32] [CppFloat D] [Libm F32] [Narrow D F32] [Widen F32 D]

theorem blank_initial (config : Config) (gameVersion : UInt32) (enetReady : Bool) :
    Blank (Client.initial config gameVersion enetReady : Client D) :=
  ⟨rfl, rfl, rfl⟩

theorem blank_onDisconnected (session : Session) (scene : Scene F32 D) :
    Blank { session := (onDisconnected session : Result D).1, scene := scene.perform .clear } :=
  ⟨rfl, rfl, rfl⟩

def live (client : Client D) : Moment D → Client D
  | .packet sent reading order =>
      let result := handlePacket client.session sent.bytes reading
      { session := result.1
        scene := run Scene.step client.scene ((remoteOps result.2).map fun op => (order, op)) }
  | .meanwhile order op _ => { client with scene := client.scene.step (order, op) }

/-- The client after what happened. -/
def lived (client : Client D) (moments : List (Moment D)) : Client D := run live client moments

@[simp] theorem lived_nil (client : Client D) : lived client [] = client := rfl

@[simp] theorem lived_concat (client : Client D) (moments : List (Moment D)) (moment : Moment D) :
    lived client (moments ++ [moment]) = live (lived client moments) moment :=
  run_concat _ _ _ _

variable {client : Client D}

theorem samePlayers_meanwhile (client : Client D) (order : PlayerOrder F32) {op : Op F32 D}
    (hop : Neutral op) : SamePlayers client.scene (live client (.meanwhile order op hop)).scene :=
  (samePlayers_reorder client.scene order).trans (samePlayers_perform _ hop)

theorem listed_packet (client : Client D) (sent : Sent) (reading : Reading D)
    (order : PlayerOrder F32) (id : PlayerId) :
    Listed (live client (.packet sent reading order)).scene id ↔
      (Concerns sent id ∧ id ≠ client.session.myId) ∨
        (Listed client.scene id ∧ ¬ Leaves sent id) := by
  have hreorder := (samePlayers_reorder client.scene order).listed id
  simp only [live, (handlePacket_decoded client.session sent.bytes reading).1, Concerns, Leaves]
  cases decode sent.bytes with
  | none => simp
  | some m =>
      simp only [Option.elim_some, Option.bind_some]
      -- an entry that is made or kept for an id, if it is not the client's own
      have hentry : ∀ {op : Op F32 D} {other : PlayerId} {player : RemotePlayer F32},
          (∀ c, ((client.scene.reorder order).perform op).find c =
            if c = other then some player else (client.scene.reorder order).find c) →
          (Listed (run Scene.step client.scene
              ((if other ≠ client.session.myId then [op] else []).map fun op => (order, op))) id ↔
            (some other = some id ∧ id ≠ client.session.myId) ∨
              (Listed client.scene id ∧ ¬ (none : Option PlayerId) = some id)) := by
        intro op other player hfind
        by_cases hself : other ≠ client.session.myId
        · rw [if_pos hself]
          change ((client.scene.reorder order).perform op).find id ≠ none ↔ _
          rw [hfind]
          by_cases hid : id = other
          · subst hid
            simp [hself]
          · rw [if_neg hid, ← hreorder]
            simp [Ne.symm hid, Listed]
        · rw [if_neg hself]
          rw [not_not] at hself
          simp only [List.map_nil, run_nil]
          grind
      cases m with
      | playerJoined m => exact hentry (find_add _ _ _)
      | playerRenamed m => exact hentry (find_rename _ _ _)
      | playerStateUpdate m => exact hentry (find_applyState _ _ _ _ _)
      | playerLeft m =>
          change (remove (client.scene.reorder order) m.id).find id ≠ none ↔ _
          rw [find_remove]
          by_cases hid : id = m.id
          · simp [hid, concerns, departs]
          · rw [if_neg hid, ← hreorder]
            simp [Ne.symm hid, concerns, departs, Listed]
      | _ => simp [told, concerns, departs]

theorem myId_packet (client : Client D) (sent : Sent) (reading : Reading D)
    (order : PlayerOrder F32) :
    (live client (.packet sent reading order)).session.myId =
      (decode sent.bytes).elim client.session.myId (selfAfter client.session.myId) :=
  (handlePacket_decoded client.session sent.bytes reading).2

theorem myId_lived (hblank : Blank client) (moments : List (Moment D)) :
    ((lived client moments).session.myId = invalidPlayerId ∧
        ∀ sent ∈ packets moments, ¬ IsWelcome sent) ∨
      ∃ sent ∈ packets moments, ∃ msg, decode sent.bytes = some (.welcome msg) ∧
        (lived client moments).session.myId = msg.id := by
  induction moments using List.reverseRecOn with
  | nil => exact .inl ⟨hblank.myId, by rintro _ ⟨⟩⟩
  | append_singleton moments moment ih =>
      -- a moment that is no welcome
      have hkept : (∀ sent ∈ packets [moment], ¬ IsWelcome sent) →
          (lived client (moments ++ [moment])).session.myId =
            (lived client moments).session.myId →
          ((lived client (moments ++ [moment])).session.myId = invalidPlayerId ∧
              ∀ sent ∈ packets (moments ++ [moment]), ¬ IsWelcome sent) ∨
            ∃ sent ∈ packets (moments ++ [moment]), ∃ msg, decode sent.bytes = some (.welcome msg) ∧
              (lived client (moments ++ [moment])).session.myId = msg.id := by
        intro hnone hsame
        rw [hsame, packets_append]
        rcases ih with ⟨hid, hbefore⟩ | ⟨sent, hsent, hwelcome⟩
        · refine .inl ⟨hid, fun sent hsent => ?_⟩
          exact (List.mem_append.mp hsent).elim (hbefore sent) (hnone sent)
        · exact .inr ⟨sent, List.mem_append_left _ hsent, hwelcome⟩
      cases moment with
      | meanwhile => exact hkept (by simp) (by rw [lived_concat]; rfl)
      | packet sent reading order =>
          have hmyId := myId_packet (lived client moments) sent reading order
          rw [← lived_concat] at hmyId
          have hother : kind sent ≠ some .kWelcome →
              ∀ other ∈ packets [.packet sent reading order], ¬ IsWelcome other := by
            intro hkind other hmem
            rwa [List.mem_singleton.mp hmem]
          cases hdecode : decode sent.bytes with
          | none =>
              exact hkept (hother (by rw [kind, hdecode]; rintro ⟨⟩)) (by rw [hmyId, hdecode]; rfl)
          | some m =>
              rw [hdecode] at hmyId
              cases m with
              | welcome msg => exact .inr ⟨sent, by simp, msg, hdecode, hmyId⟩
              | _ => exact hkept (hother (by rw [kind, hdecode]; rintro ⟨⟩)) hmyId

end Connection

end F4MP.Delivery
