import F4MP.ClonePostures
import F4MP.LocalPlayer
import F4MP.Sightings

/-!
A clone is a likeness of its player: dead or alive and, if alive, postured as the player
itself was when it was sampled, whatever happened to the sample on its way.
-/

namespace F4MP.Likeness

open F4MP.Types
open F4MP.Protocol
open F4MP.Messages
open F4MP.Arith
open F4MP.Interp
open F4MP.ServerModel (Peer Player Time)
open F4MP.ServerRun (Sent Network)
open F4MP.GameUtil
open F4MP.NetClientModel (NetClient Dial)
open F4MP.RemotePlayersModel
open F4MP.SessionModel
open F4MP.SessionSteps
open F4MP.Connection
open F4MP.ClientRun
open F4MP.CloneUpdate
open F4MP.Clones
open F4MP.Snapshots
open F4MP.ClonePostures hiding Neutral Shown
open F4MP.SentNames
open F4MP.NameAgreement
open F4MP.LocalPlayer
open F4MP.Sightings
open F4MP.WorldModel
open F4MP.Rehearsal
open F4MP.Library.HashTable
open F4MP.Library.Runs

section Records

variable {F D : Type} {P Q : PlayerState F → Prop} {player player' : RemotePlayer F}

/-- A clone has the posture it started with or one that some state with the property
asks for. -/
def Likened (P : PlayerState F → Prop) (player : RemotePlayer F) : Prop :=
  ∀ ref, player.actor = some ref →
    posture player = {} ∨ ∃ state, P state ∧ Shows state (posture player)

theorem Likened.mono (h : Likened P player) (hPQ : ∀ state, P state → Q state) :
    Likened Q player := by
  intro ref href
  rcases h ref href with hfresh | ⟨state, hstate, hshows⟩
  · exact .inl hfresh
  · exact .inr ⟨state, hPQ state hstate, hshows⟩

theorem Likened.same (h : Likened P player) (hactor : player'.actor = player.actor)
    (hposture : posture player' = posture player) : Likened P player' := by
  intro ref href
  rw [hposture]
  exact h ref (hactor.symm.trans href)

theorem likened_dropped (hactor : player.actor = none) : Likened P player := by
  intro ref href
  cases hactor.symm.trans href

theorem likened_tearDown (h : Likened P player) (engine : Engine F) (visible : Bool)
    (targetSpace : Space) : Likened P (tearDown player engine visible targetSpace).1 := by
  rcases tearDown_cases player engine visible targetSpace with ⟨hkept, -⟩ | htorn
  · rw [hkept]
    exact h
  · rw [htorn]
    exact likened_dropped rfl

variable [CppFloat F]

theorem likened_spawnClone (h : Likened P player) (remotes : RemotePlayers F D) (now : Time)
    (answers : Answers) (latest : PlayerState F) (space : Space) (engine : Engine F) :
    Likened P (spawnClone remotes now answers latest space player engine).1 := by
  have hchoice := samePosture_chooseBase remotes { player with lastSpawnAttempt := now } engine
    answers
  rw [spawnClone]
  generalize chooseBase remotes { player with lastSpawnAttempt := now } engine answers = choice
    at hchoice
  obtain ⟨base, chosen, before⟩ := choice
  cases base with
  | none => exact h.same hchoice.actor hchoice.posture
  | some base =>
      dsimp only
      split
      · rename_i hget
        generalize answers.placed = placed at hget ⊢
        cases placed with
        | nothing => exact likened_dropped rfl
        | localPlayer => exact likened_dropped rfl
        | clone =>
            have hmade : (before.create base latest.position latest.yaw space).get
                (some before.nextRef) = some before.nextRef :=
              get_eq_some.mpr ⟨rfl, .inr List.mem_cons_self⟩
            cases hmade.symm.trans hget
      · -- a new clone starts alive and with everything off
        exact fun _ _ => .inl (by simp [posture, Body.ofFlags, RemotePlayer.spawned, kStateNone])

theorem likened_ensureActor (h : Likened P player) (remotes : RemotePlayers F D) (frame : Frame D)
    (answers : Answers) (latest : PlayerState F) (engine : Engine F) :
    Likened P (ensureActor remotes frame answers latest player engine).1 := by
  have htorn := likened_tearDown h engine ((spaceFromState latest).sameArea frame.localSpace)
    (spaceFromState latest)
  rw [ensureActor]
  dsimp only
  split
  · exact htorn
  · split
    · exact htorn
    · exact likened_spawnClone htorn _ _ _ _ _ _

variable [CppFloat D] [Libm F] [Narrow D F]

theorem likened_driveActor (h : Likened P player) (remotes : RemotePlayers F D) (frame : Frame D)
    (answers : Answers) {ref : Ref} (href : player.actor = some ref) {latest : PlayerState F}
    (hlatest : P latest) (engine : Engine F) :
    Likened P (driveActor remotes frame answers ref latest player engine).1 := by
  have hpresent := samePosture_present remotes answers ref player engine
  rw [driveActor]
  generalize present remotes answers ref player engine = presented at hpresent
  obtain ⟨shown, before⟩ := presented
  have hshown : Likened P shown := h.same hpresent.actor hpresent.posture
  dsimp only
  split
  · exact hshown
  · split
    · exact hshown
    · rename_i sample hsample
      have hrender := samePosture_render remotes frame.now ref sample shown before
      generalize render remotes frame.now ref sample shown before = rendered at hrender
      obtain ⟨moved, after⟩ := rendered
      have hactor : moved.actor = some ref := hrender.actor.trans (hpresent.actor.trans href)
      exact fun _ _ => .inr ⟨latest, hlatest, (posed_animate latest hactor after).2.shows⟩

theorem likened_updateOne (h : Likened P player)
    (hsnapshots : ∀ snap ∈ player.snapshots, P snap.state)
    (remotes : RemotePlayers F D) (frame : Frame D) (answers : Answers) (engine : Engine F) :
    Likened P (updateOne remotes frame answers player engine).1 := by
  have htrimmed : Likened P { player with snapshots := trim frame.renderMs player.snapshots } :=
    h.same rfl rfl
  rw [updateOne]
  dsimp only
  split
  · exact htrimmed
  · rename_i latest hlatest
    have hstate : P latest := by
      obtain ⟨snap, hsnap, rfl⟩ := Option.map_eq_some_iff.mp hlatest
      exact hsnapshots snap ((trim_suffix _ _).subset (List.mem_of_getLast? hsnap))
    have hensured := likened_ensureActor htrimmed remotes frame answers latest engine
    generalize ensureActor remotes frame answers latest
      { player with snapshots := trim frame.renderMs player.snapshots } engine = ensured at hensured
    obtain ⟨there, before⟩ := ensured
    dsimp only
    split
    · exact hensured
    · rename_i ref href
      exact likened_driveActor hensured remotes frame answers (get_eq_some.mp href).1 hstate before

end Records

section Scenes

variable {D : Type} [CppFloat F32] [CppFloat D] [Libm F32] [Narrow D F32] [Widen F32 D]
  {P : PlayerId → PlayerState F32 → Prop} {scene : Scene F32 D}

/-- All clones are likened, and all snapshots are of states with the property. -/
structure Alike (P : PlayerId → PlayerState F32 → Prop) (scene : Scene F32 D) : Prop where
  likened : ∀ id player, scene.find id = some player → Likened (P id) player
  snapshots : ∀ id player, scene.find id = some player → ∀ snap ∈ player.snapshots, P id snap.state

omit [CppFloat F32] [CppFloat D] [Libm F32] [Narrow D F32] [Widen F32 D] in
theorem Alike.of_find {scene' : Scene F32 D} (h : Alike P scene)
    (hfind : ∀ id, scene'.find id = scene.find id) : Alike P scene' where
  likened id player hplayer := h.likened id player ((hfind id).symm.trans hplayer)
  snapshots id player hplayer := h.snapshots id player ((hfind id).symm.trans hplayer)

omit [Widen F32 D] in
theorem alike_updatePlayer (h : Alike P scene) (frame : Frame D) (id : PlayerId) :
    Alike P (updatePlayer frame scene id) := by
  cases hfind : scene.find id with
  | none =>
      rw [updatePlayer_of_none hfind]
      exact h
  | some player =>
      have hbefore := h.snapshots id player hfind
      refine ⟨fun c player' hplayer' => ?_, fun c player' hplayer' snap hsnap => ?_⟩
      · rw [(updatePlayer_spec hfind frame).2] at hplayer'
        split at hplayer'
        · rename_i hc
          obtain rfl := Option.some.inj hplayer'
          rw [hc]
          exact likened_updateOne (h.likened id player hfind) hbefore _ _ _ _
        · exact h.likened c player' hplayer'
      · have hupdated := updatedAll_one frame scene id
        by_cases hc : c = id
        · obtain ⟨old, hold, htrimmed⟩ :=
            hupdated.trimmed c (List.mem_singleton.mpr hc) player' hplayer'
          rw [htrimmed] at hsnap
          exact h.snapshots c old hold snap ((trim_suffix _ _).subset hsnap)
        · rw [hupdated.others c (by simpa using hc)] at hplayer'
          exact h.snapshots c player' hplayer' snap hsnap

theorem alike_update (h : Alike P scene) (input : UpdateInput D) :
    Alike P (update scene input) := by
  rw [update]
  split
  · exact h
  · rename_i localSpace hspace
    generalize scene.remotes.players.keys = ids
    generalize frameOf scene.remotes input localSpace = frame
    induction ids generalizing scene with
    | nil => exact h
    | cons id ids ih => exact ih (alike_updatePlayer h frame id)

theorem lasting_alike : Lasting (D := D) fun got scene => Alike (Sightings.Shown got) scene where
  nobody got scene h _ := by
    refine ⟨fun id player hplayer => ?_, fun id player hplayer => ?_⟩
    · cases (h id).symm.trans hplayer
    · cases (h id).symm.trans hplayer
  more got scene bytes h := by
    have hmore : ∀ id state, Sightings.Shown got id state →
        Sightings.Shown (got ++ [bytes]) id state := by
      rintro id state ⟨earlier, hmem, hshown⟩
      exact ⟨earlier, List.mem_append_left _ hmem, hshown⟩
    exact ⟨fun id player hplayer => (h.likened id player hplayer).mono (hmore id),
      fun id player hplayer snap hsnap => hmore id _ (h.snapshots id player hplayer snap hsnap)⟩
  step got scene order op h hop := by
    have hreordered : Alike (Sightings.Shown got) (scene.reorder order) :=
      h.of_find fun id => lookup_arrange order _ id
    by_cases hupdate : ∃ input, op = .update input
    · obtain ⟨input, rfl⟩ := hupdate
      exact alike_update hreordered input
    · have hrecords := (undisturbed_perform (scene.reorder order)
        fun input heq => hupdate ⟨input, heq⟩).records
      refine ⟨fun id player' hplayer' => ?_, ?_⟩
      · rcases hrecords id player' hplayer' with hdropped | ⟨player, hplayer, hactor, hposture⟩
        · exact likened_dropped hdropped
        · exact (hreordered.likened id player hplayer).same hactor hposture
      · exact lasting_seen.step got scene order op h.snapshots hop

theorem faithful_client (party : Party D) : Faithful party.scene := by
  have hrun : ∀ (scene : Scene F32 D) (steps : List (PlayerOrder F32 × Op F32 D)),
      Faithful scene → Faithful (run Scene.step scene steps) :=
    fun scene steps h => run_invariant h (fun _ step hfaithful => hfaithful.step step) steps
  rw [Party.scene, Party.watched, Watched.client_after]
  exact run_invariant (P := fun client : Client D => Faithful client.scene)
    (hrun _ _ faithful_initial) (fun _ _ h => hrun _ _ h) _

end Scenes

section Samples

variable {D : Type}

/-- What is sampled of the local player while an ENet event is handled. -/
def sampledIn : NetEvent D → List (PlayerState F32)
  | .receive _ reading => reading.sample.toList
  | .connect _ | .disconnect => []

/-- What is sampled of the local player in an event. -/
def samples : SessionModel.Event D → List (PlayerState F32)
  | .tick input => input.events.flatMap sampledIn ++ input.sample.toList
  | _ => []

def samplesOf (party : Party D) : List (PlayerState F32) :=
  party.inputs.flatMap fun input => samples input.event

/-- Every own state that is sent is one of these. -/
def StatesFrom (known : List (PlayerState F32)) (actions : List (Action D)) : Prop :=
  ∀ channel bytes, .net (.send channel bytes) ∈ actions → ∀ msg : PlayerStateMsg,
    decode bytes = some (.playerState msg) → msg.state ∈ known

variable {known more : List (PlayerState F32)} {actions rest : List (Action D)}

theorem StatesFrom.append (h : StatesFrom known actions) (hrest : StatesFrom more rest) :
    StatesFrom (known ++ more) (actions ++ rest) := by
  intro channel bytes hmem msg hdecode
  rcases List.mem_append.mp hmem with hfirst | hsecond
  · exact List.mem_append_left _ (h channel bytes hfirst msg hdecode)
  · exact List.mem_append_right _ (hrest channel bytes hsecond msg hdecode)

theorem StatesFrom.mono (h : StatesFrom known actions) (hmore : known ⊆ more) :
    StatesFrom more actions := fun channel bytes hmem msg hdecode =>
  hmore (h channel bytes hmem msg hdecode)

theorem statesFrom_append_nil (h : StatesFrom known actions) (hrest : StatesFrom [] rest) :
    StatesFrom known (actions ++ rest) := (h.append hrest).mono (by simp)

theorem statesFrom_told {session : Session} {op : Op F32 D} :
    StatesFrom known (tell session op).2 := by
  intro channel bytes hmem
  cases List.mem_singleton.mp hmem

theorem statesFrom_nothing : StatesFrom known ([] : List (Action D)) := by
  rintro _ _ ⟨⟩

theorem statesFrom_silent {asked : List NetClientModel.Request}
    (h : ∀ channel bytes, .send channel bytes ∉ asked) :
    StatesFrom known (asked.map .net : List (Action D)) := by
  intro channel bytes hmem
  obtain ⟨request, hrequest, heq⟩ := List.mem_map.mp hmem
  obtain rfl := Action.net.inj heq
  exact absurd hrequest (h channel bytes)

theorem statesFrom_send (net : NetClient) (channel : Channel) {bytes : Bytes}
    (h : ∀ msg : PlayerStateMsg, decode bytes = some (.playerState msg) → msg.state ∈ known) :
    StatesFrom known ((NetClientModel.send net channel bytes).map .net : List (Action D)) := by
  intro channel' bytes' hmem
  obtain ⟨request, hrequest, heq⟩ := List.mem_map.mp hmem
  obtain rfl := Action.net.inj heq
  rw [NetClientModel.send] at hrequest
  split at hrequest
  · cases hrequest
  · cases List.mem_singleton.mp hrequest
    exact h

theorem statesFrom_resetNet (session : Session) :
    StatesFrom known (resetNet session : Result D).2 := by
  change StatesFrom known ((NetClientModel.reset session.net).2.map .net)
  refine statesFrom_silent fun channel bytes hmem => ?_
  rw [NetClientModel.reset] at hmem
  dsimp only at hmem
  split at hmem
  · split at hmem <;> cases List.mem_singleton.mp hmem
  · cases hmem

theorem statesFrom_disconnectNet (session : Session) :
    StatesFrom known (disconnectNet session : Result D).2 := by
  rw [disconnectNet]
  split
  · exact statesFrom_nothing
  · exact statesFrom_append_nil (statesFrom_resetNet session) statesFrom_told

theorem statesFrom_dialled (session : Session) (manual : Bool) (dial : Dial) (now : Time)
    (host : Bytes) (port : UInt16) :
    StatesFrom known (.dial manual now ::
      (NetClientModel.connect session.net dial host port).2.2.map .net : List (Action D)) := by
  have hreset : StatesFrom known
      ((NetClientModel.reset session.net).2.map .net : List (Action D)) :=
    statesFrom_resetNet session
  intro channel bytes hmem
  have hasked := (List.mem_cons.mp hmem).resolve_left (by rintro ⟨⟩)
  rw [NetClientModel.connect] at hasked
  split at hasked
  · cases hasked
  · dsimp only at hasked
    split at hasked
    · exact hreset channel bytes hasked
    · rw [List.map_append] at hasked
      rcases List.mem_append.mp hasked with hfirst | hlast
      · exact hreset channel bytes hfirst
      · cases List.mem_singleton.mp hlast

theorem statesFrom_connect (session : Session) (manual : Bool) (dial : Dial) (now : Time) :
    StatesFrom known (connect session manual dial now : Result D).2 := by
  rw [connect]
  split
  · exact statesFrom_nothing
  · dsimp only
    split
    · exact statesFrom_append_nil (statesFrom_disconnectNet _) (statesFrom_dialled _ _ _ _ _ _)
    · split
      · exact statesFrom_nothing
      · exact statesFrom_dialled _ _ _ _ _ _

theorem statesFrom_autoConnect (session : Session) (dial : Dial) (now : Time) :
    StatesFrom known (autoConnect session dial now : Result D).2 := by
  rw [autoConnect]
  split
  · exact statesFrom_connect _ _ _ _
  · exact statesFrom_nothing

theorem statesFrom_syncName (session : Session) (playerName : Bytes) (now : Time) :
    StatesFrom known (syncName session playerName now : Result D).2 := by
  have hname : ∀ name : Bytes, ∀ msg : PlayerStateMsg,
      decode (encode { name : SetNameMsg }) = some (.playerState msg) → msg.state ∈ known := by
    intro name msg hdecode
    rw [decode_setName] at hdecode
    cases hdecode
  rw [syncName]
  split
  · exact statesFrom_nothing
  · dsimp only
    split
    · exact statesFrom_nothing
    · exact statesFrom_send _ _ (hname _)

variable [CppFloat F32]

theorem statesFrom_sendState (session : Session) (force : Bool) (sample : Option (PlayerState F32))
    (now : Time) : StatesFrom sample.toList (sendState session force sample now : Result D).2 := by
  cases sample with
  | none => exact statesFrom_nothing
  | some state =>
      rw [sendState]
      split
      · refine statesFrom_send _ _ fun msg hdecode => ?_
        rw [decode_playerState] at hdecode
        obtain rfl := Message.playerState.inj (Option.some.inj hdecode)
        exact List.mem_singleton.mpr rfl
      · exact statesFrom_nothing

theorem statesFrom_handlePacket (session : Session) (bytes : Bytes) (reading : Reading D) :
    StatesFrom reading.sample.toList (handlePacket session bytes reading).2 := by
  have hother : ∀ (id : PlayerId) (op : Op F32 D),
      StatesFrom reading.sample.toList (tellOfOther session id op).2 := by
    intro id op
    rw [tellOfOther]
    split
    · exact statesFrom_told
    · exact statesFrom_nothing
  rw [handlePacket_eq]
  cases decode bytes with
  | none => exact statesFrom_nothing
  | some m =>
      cases m with
      | welcome => exact statesFrom_sendState _ _ _ _
      | playerJoined | playerRenamed | playerStateUpdate => exact hother _ _
      | playerLeft => exact statesFrom_told
      | reject | chatBroadcast | hello | playerState | chat | setName => exact statesFrom_nothing

theorem statesFrom_handleNetEvents (session : Session) (events : List (NetEvent D)) :
    StatesFrom (events.flatMap sampledIn) (handleNetEvents session events).2 := by
  induction events generalizing session with
  | nil => exact statesFrom_nothing
  | cons event events ih =>
      rw [handleNetEvents, List.flatMap_cons]
      refine StatesFrom.append ?_ (ih _)
      cases event with
      | connect playerName =>
          refine statesFrom_send _ _ fun msg hdecode => ?_
          rw [decode_hello] at hdecode
          cases hdecode
      | receive bytes reading => exact statesFrom_handlePacket session bytes reading
      | disconnect => exact statesFrom_told

theorem statesFrom_tick (session : Session) (input : TickInput D) :
    StatesFrom (input.events.flatMap sampledIn ++ input.sample.toList) (tick session input).2 := by
  refine StatesFrom.append ?_ ?_
  · rw [pump]
    split
    · exact statesFrom_nothing
    · refine statesFrom_append_nil (statesFrom_handleNetEvents _ _) ?_
      dsimp only
      split
      · exact statesFrom_append_nil (statesFrom_resetNet _) statesFrom_told
      · exact statesFrom_nothing
  · dsimp only
    split
    · exact statesFrom_nothing
    · change StatesFrom ([] ++ input.sample.toList) _
      refine StatesFrom.append (statesFrom_autoConnect _ _ _) ?_
      dsimp only
      split
      · exact statesFrom_append_nil
          (statesFrom_append_nil (statesFrom_sendState _ _ _ _) (statesFrom_syncName _ _ _))
          statesFrom_told
      · exact statesFrom_nothing

theorem statesFrom_step (session : Session) (event : SessionModel.Event D) :
    StatesFrom (samples event) (SessionModel.step session event).2 := by
  cases event with
  | enterWorld | newGame | leaveWorld | preSave | setCloneBase | actorDeleted =>
      exact statesFrom_told
  | setServer | setPlayerName => exact statesFrom_nothing
  | connect dial now => exact statesFrom_connect _ _ _ _
  | disconnect => exact statesFrom_disconnectNet _
  | tick input => exact statesFrom_tick session input
  | sendChat text =>
      rw [SessionModel.step, sendChat]
      split
      · exact statesFrom_nothing
      · refine statesFrom_send _ _ fun msg hdecode => ?_
        rw [decode_chat] at hdecode
        cases hdecode
  | setCloneOption option on =>
      rw [SessionModel.step, setCloneOption]
      repeat' (split; · exact statesFrom_told)
      exact statesFrom_nothing

variable [CppFloat D] [Libm F32] [Narrow D F32] [Widen F32 D]

theorem sampled_of_sent {party : Party D} {packet : Sent} (hpacket : packet ∈ party.sent)
    {msg : PlayerStateMsg} (hdecode : decode packet.bytes = some (.playerState msg)) :
    msg.state ∈ samplesOf party := by
  have hposted : ∀ (actions : List (Action D)) (sent : List Sent),
      packet ∈ actions.foldl posted sent → packet ∈ sent ∨
        .net (.send packet.channel packet.bytes) ∈ actions := by
    intro actions
    induction actions using List.reverseRecOn with
    | nil => exact fun sent hmem => .inl hmem
    | append_singleton actions action ih =>
        intro sent hmem
        rw [List.foldl_concat] at hmem
        have hearlier : packet ∈ actions.foldl posted sent → packet ∈ sent ∨
            .net (.send packet.channel packet.bytes) ∈ actions ++ [action] := fun hold =>
          (ih sent hold).imp_right (List.mem_append_left _)
        cases action with
        | dial | remotes => exact hearlier hmem
        | net request =>
            cases request with
            | connect => cases hmem
            | disconnectNow | peerReset => exact hearlier hmem
            | send channel bytes =>
                rcases List.mem_append.mp hmem with hold | hlast
                · exact hearlier hold
                · rw [List.mem_singleton.mp hlast]
                  exact .inr (by simp)
  obtain ⟨config, gameVersion, enetReady, inputs⟩ := party
  have hsent := (hposted _ [] hpacket).resolve_left (by rintro ⟨⟩)
  clear hpacket
  have hrun : ∀ inputs : List (Input D), .net (.send packet.channel packet.bytes) ∈
      (Watched.after config gameVersion enetReady inputs).history →
        msg.state ∈ inputs.flatMap fun input => samples input.event := by
    intro inputs
    induction inputs using List.reverseRecOn with
    | nil => rintro ⟨⟩
    | append_singleton inputs input ih =>
        intro hmem
        rw [Watched.after, run_concat] at hmem
        rw [List.flatMap_append]
        rcases List.mem_append.mp hmem with hold | hnew
        · exact List.mem_append_left _ (ih hold)
        · refine List.mem_append_right _ ?_
          rw [List.flatMap_singleton]
          exact statesFrom_step _ _ _ _ hnew msg hdecode
  exact hrun inputs hsent

end Samples

section Worlds

variable {κ D : Type} [CppFloat F32] [CppFloat D] [Libm F32] [Narrow D F32] [Widen F32 D]
  [ServerConsole.Platform] [DecidableEq κ]

/-- In every world that can come about, while no id was given twice, and if what a client
samples is what the engine says of its player: the clone that another client has of this
player is as it was made, or it is dead or alive and, if alive, sneaks, has its weapon
drawn and sprints just as the player did at one of the samples. -/
theorem seen_as_it_was (config : ServerModel.Config) (startTime : Time) (w : World κ D)
    (hreachable : Reachable config startTime w)
    (hissued : (Network.after config startTime w.served).issued < 2 ^ 32 - 1) (j k : κ)
    (theirs own : Circuit) (htheirs : w.circuit j = some theirs) (hown : w.circuit k = some own)
    (c : Peer) (hpeer : theirs.peer = some c) (player : Player)
    (hplayer : (Network.after config startTime w.served).server.players.lookup c = some player)
    (hshake : player.handshaked = true)
    (hsampled : ∀ state ∈ samplesOf (w.party j), ∃ singleton, sample singleton = some state)
    (entry : RemotePlayer F32) (hentry : (w.party k).scene.find player.id = some entry) (ref : Ref)
    (hactor : entry.actor = some ref) :
    let body := bodies (w.party k).scene.engine ref
    body = {} ∨ ∃ (character : PlayerCharacter) (state : PlayerState F32),
      state ∈ samplesOf (w.party j) ∧ sample (some character) = some state ∧
        body.dead = character.isDead ∧
        (character.isDead = false → body.sneaking = character.isSneaking ∧
          body.weaponDrawn = character.weaponDrawn ∧ body.sprinting = character.sprinting) := by
  have hworld := inStep_reachable hreachable
  have hmirrored := (faithful_client (w.party k)).mirrored player.id entry hentry ref hactor
  have hlikened :=
    (lasting_alike.after (hworld.allowed k)).likened player.id entry hentry ref hactor
  dsimp only at hmirrored ⊢
  rw [hmirrored]
  rcases hlikened with hfresh | ⟨state, hshown, hshows⟩
  · exact .inl hfresh
  · right
    obtain ⟨packet, hpacket, msg, hdecode, rfl⟩ := sent_of_shown hworld hissued htheirs hown hpeer
      hplayer hshake (by rw [hentry]; rintro ⟨⟩) hshown
    have hmem := sampled_of_sent hpacket hdecode
    obtain ⟨singleton, hsample⟩ := hsampled msg.state hmem
    obtain ⟨character, space, rfl, -, hread⟩ := sample_eq_some hsample
    obtain ⟨health, maxHealth, hfields⟩ := readState_eq character space
    have hflags : msg.state.flags = stateFlags character := by rw [hread, hfields]
    obtain ⟨hdead, hsneaking, hdrawn, hsprinting⟩ := stateFlags_spec character
    rw [← hflags] at hdead hsneaking hdrawn hsprinting
    have hsame : (posture entry).dead = character.isDead :=
      Bool.eq_iff_iff.mpr (hshows.dead.trans hdead)
    refine ⟨character, msg.state, hmem, hsample, hsame, fun hlives => ?_⟩
    rw [← hsame] at hlives
    exact ⟨Bool.eq_iff_iff.mpr ((hshows.sneaking hlives).trans hsneaking),
      Bool.eq_iff_iff.mpr ((hshows.weaponDrawn hlives).trans hdrawn),
      Bool.eq_iff_iff.mpr ((hshows.sprinting hlives).trans hsprinting)⟩

end Worlds

section Example

open F4MP.Native

def prowler : PlayerCharacter where
  parentCell := some ⟨0, false, some 60⟩
  position := ⟨CppFloat.ofRat 3, CppFloat.ofRat 4, CppFloat.ofRat 5⟩
  angleZ := 0
  isSneaking := true
  weaponDrawn := true

/-- The first client is welcomed as well, and makes a clone of the second. -/
def meeting : List (Turn Bool F64) :=
  glimpse ++
    [.play false (.tick
      { Connection.frame [.receive (welcome 1) ⟨20400000000, CppFloat.ofRat 0, none⟩]
          20400000000 with
        update := ⟨some { worldspaceId := 60 }, 20400000000, CppFloat.ofRat 0, fun _ => {}⟩ })]

theorem meeting_goes : (rehearse {} 0 meeting).isSome = true := by decide +kernel

def met : World Bool F64 := (rehearse {} 0 meeting).get meeting_goes

/-- The clone sneaks as the second player did. -/
theorem seen_as_prowler : ∃ (character : PlayerCharacter) (state : PlayerState F32),
    state ∈ samplesOf (met.party true) ∧ sample (some character) = some state ∧
      (character.isDead = false →
        (bodies (met.party false).scene.engine 1).sneaking = character.isSneaking) := by
  obtain ⟨player, hplayer, hhandshake⟩ := Option.map_eq_some_iff.mp
    (show ((Network.after {} 0 met.served).server.players.lookup 1).map
      (fun player => (player.id, player.handshaked)) = some (2, true) by decide +kernel)
  obtain ⟨hid, hshake⟩ := Prod.mk.inj hhandshake
  obtain ⟨entry, hentry, hactor⟩ := Option.map_eq_some_iff.mp
    (show ((met.party false).scene.find 2).map (·.actor) = some (some 1) by decide +kernel)
  obtain ⟨theirs, htheirs, hpeer⟩ := Option.map_eq_some_iff.mp
    (show (met.circuit true).map (·.peer) = some (some 1) by decide +kernel)
  obtain ⟨own, hown⟩ := Option.isSome_iff_exists.mp
    (show (met.circuit false).isSome = true by decide +kernel)
  have hsampled : ∀ state ∈ samplesOf (met.party true),
      ∃ singleton, sample singleton = some state := by
    have hsame : ∀ state ∈ samplesOf (met.party true), state = prowling := by decide +kernel
    intro state hstate
    exact ⟨some prowler, by rw [hsame state hstate]; decide +kernel⟩
  rcases seen_as_it_was {} 0 met (reachable_rehearse (Option.some_get _).symm) (by decide +kernel)
    true false theirs own htheirs hown 1 hpeer player hplayer hshake hsampled entry
    (by rw [hid]; exact hentry) 1 hactor
    with hfresh | ⟨character, state, hmem, hsample, -, hposture⟩
  · have hsneaks : (bodies (met.party false).scene.engine 1).sneaking = true := by decide +kernel
    rw [hfresh] at hsneaks
    cases hsneaks
  · exact ⟨character, state, hmem, hsample, fun hlives => (hposture hlives).1⟩

end Example

end F4MP.Likeness
