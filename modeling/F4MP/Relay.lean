import F4MP.Native
import F4MP.Records
import F4MP.ServerOrigins

/-!
What the server passes on is what the player it names sent: states bit for bit, chat
and names from the player's own connection.
-/

namespace F4MP.Relay

open F4MP.Types
open F4MP.Protocol
open F4MP.Messages
open F4MP.Arith
open F4MP.ServerModel
open F4MP.ServerConsole
open F4MP.ServerRun
open F4MP.ServerTraffic
open F4MP.ServerEffects
open F4MP.ServerOrigins
open F4MP.Participants
open F4MP.Records
open F4MP.Library.HashTable
open F4MP.Library.Runs

/-- What the events of one connection amount to, by themselves: whether they complete
the handshake, and the last state after it that was fit to be passed on. -/
structure Trail where
  handshaked : Bool := false
  state : Option (PlayerState F32) := none

/-- All six numbers of a state are finite. -/
def SixFinite (s : PlayerState F32) : Prop :=
  s.position.x.isFinite = true ∧ s.position.y.isFinite = true ∧ s.position.z.isFinite = true ∧
    s.yaw.isFinite = true ∧ s.health.isFinite = true ∧ s.maxHealth.isFinite = true

instance (s : PlayerState F32) : Decidable (SixFinite s) := inferInstanceAs (Decidable (_ ∧ _))

def Trail.hear (trail : Trail) : Option Message → Trail
  | some (.hello hello) =>
      if hello.protocolVersion = currentProtocolVersion then { trail with handshaked := true }
      else trail
  | some (.playerState msg) =>
      if trail.handshaked = true ∧ SixFinite msg.state then { trail with state := some msg.state }
      else trail
  | _ => trail

def Trail.step (peer : Peer) (trail : Option Trail) (input : Input) : Option Trail :=
  match input.event with
  | .connect p => if p = peer then some (trail.getD {}) else trail
  | .disconnect p => if p = peer then none else trail
  | .receive p bytes => if p = peer then trail.map (·.hear (decode bytes)) else trail
  | _ => trail

/-- The trail of the connection at `peer`, if there is one, after some inputs. -/
def trailOf (peer : Peer) (inputs : List Input) : Option Trail :=
  inputs.foldl (Trail.step peer) none

def recorded (player : Player) : Trail where
  handshaked := player.handshaked
  state := if player.hasState then some player.state else none

theorem isPlausible_iff {s : PlayerState F32} : isPlausible s = true ↔ SixFinite s := by
  simp [isPlausible, finite, SixFinite, and_assoc]

theorem recorded_heard (s : Server) (now : Time) (player : Player) (bytes : Bytes) :
    recorded (heardRecord s now player (decode bytes)) = (recorded player).hear (decode bytes) := by
  cases decode bytes with
  | none => rfl
  | some m =>
      cases m with
      | hello hello =>
          simp only [heardRecord, Trail.hear]
          by_cases hversion : hello.protocolVersion = currentProtocolVersion
          · cases hshake : player.handshaked <;> simp [hversion, recorded, welcomedPlayer, hshake]
          · simp [hversion]
      | playerState msg =>
          simp only [heardRecord, Trail.hear, isPlausible_iff]
          split
          · rename_i hfit
            rw [if_pos (show (recorded player).handshaked = true ∧ _ from hfit)]
            rfl
          · rename_i hunfit
            rw [if_neg (show ¬ ((recorded player).handshaked = true ∧ _) from hunfit)]
      | chat msg =>
          simp only [heardRecord, Trail.hear]
          split
          · simp [recorded]
          · rfl
      | setName msg =>
          simp only [heardRecord, Trail.hear]
          split <;> rfl
      | _ => rfl

theorem trail_step_eq (peer : Peer) :
    Trail.step peer = track {} (fun trail bytes => trail.hear (decode bytes)) peer := by
  funext trail input
  obtain ⟨now, order, event⟩ := input
  cases event <;> rfl

section Runs

variable [CppFloat F32] [Libm F32] [Platform]

theorem trail_step (s : Server) (input : Input) (peer : Peer) :
    ((step s input).1.players.lookup peer).map recorded =
      Trail.step peer ((s.players.lookup peer).map recorded) input := by
  rw [trail_step_eq]
  exact view_step (fun _ => rfl) recorded_heard s input peer

theorem recorded_eq_trail (config : Config) (startTime : Time) (inputs : List Input)
    (peer : Peer) :
    ((Network.after config startTime inputs).server.players.lookup peer).map recorded =
      trailOf peer inputs := by
  rw [trailOf, trail_step_eq, foldl_track]
  exact view_after (fun _ => rfl) recorded_heard config startTime inputs peer

theorem trail_state {config : Config} {startTime : Time} {inputs : List Input} {peer : Peer}
    {player : Player}
    (hplayer : (Network.after config startTime inputs).server.players.lookup peer = some player)
    (hstate : player.hasState = true) :
    (trailOf peer inputs).bind (·.state) = some player.state := by
  rw [← recorded_eq_trail config startTime inputs peer, hplayer]
  simp [recorded, hstate]

end Runs

section Effects

variable {now : Time} {s s' : Server} {event : Event} {outs : List Out} {dest : Peer} {sent : Sent}

theorem sent_state (heffect : Effect now s event s' outs) (hids' : IdsDistinct s')
    (hsent : sent ∈ sentTo dest now outs) {msg : PlayerStateUpdateMsg}
    (hdecode : decode sent.bytes = some (.playerStateUpdate msg)) {peer : Peer} {player : Player}
    (hplayer : s'.players.lookup peer = some player) (hshake : player.handshaked = true)
    (hid : player.id = msg.id) : player.hasState = true ∧ player.state = msg.state := by
  have hsame : ∀ {other : Peer} {found : Player}, s'.players.lookup other = some found →
      found.handshaked = true → found.id = msg.id → found = player := by
    intro other found hfound hshake' hid'
    obtain rfl := hids'.players hfound hshake' hplayer hshake (hid'.trans hid.symm)
    exact Option.some.inj (hfound.symm.trans hplayer)
  have hannounced : ∀ {stamp : UInt32} {id : PlayerId} {name : Bytes} {hasState : Bool}
      {state : PlayerState F32}, Announces sent now stamp id name hasState state →
      hasState = true ∧ id = msg.id ∧ state = msg.state := by
    rintro stamp id name hasState state (rfl | ⟨hstate, rfl⟩)
    · cases (decode_playerJoined _).symm.trans hdecode
    · cases (decode_playerStateUpdate _).symm.trans hdecode
      exact ⟨hstate, rfl, rfl⟩
  have horigin := (origin_of_mem heffect hsent).1
  cases horigin with
  | caughtUp _ other found hne hfound hshake' hannounces =>
      obtain ⟨hstate, hid', hsent⟩ := hannounced hannounces
      rw [← hsame hfound hshake' hid']
      exact ⟨hstate, hsent⟩
  | caughtUpBot _ bot hbot hannounces =>
      obtain ⟨-, hid', -⟩ := hannounced hannounces
      exact absurd (hid.trans hid'.symm) (hids'.apart hplayer hshake hbot)
  | relayed other found bytes hevent hne hfound hshake' hstate =>
      cases (decode_playerStateUpdate _).symm.trans hdecode
      rw [← hsame hfound hshake' rfl]
      exact ⟨hstate, rfl⟩
  | botMoved bot _ hbot hid' =>
      cases (decode_playerStateUpdate _).symm.trans hdecode
      exact absurd (hid.trans hid') (hids'.apart hplayer hshake hbot)
  | rejected => cases (decode_reject _).symm.trans hdecode
  | notice | chatted => cases (decode_chatBroadcast _).symm.trans hdecode
  | welcomed => cases (decode_welcome _).symm.trans hdecode
  | arrived | botArrived => cases (decode_playerJoined _).symm.trans hdecode
  | departed => cases (decode_playerLeft _).symm.trans hdecode
  | renamed => cases (decode_playerRenamed _).symm.trans hdecode

/-- The id belongs to one player only, and the event is a packet of this player. -/
def CausedBy (s' : Server) (event : Event) (id : PlayerId) (said : Message → Prop) : Prop :=
  ∃ peer player bytes m, event = .receive peer bytes ∧ decode bytes = some m ∧ said m ∧
    s'.players.lookup peer = some player ∧ player.handshaked = true ∧ player.id = id ∧
    ∀ other found, s'.players.lookup other = some found → found.handshaked = true →
      found.id = id → other = peer

theorem sent_chat (heffect : Effect now s event s' outs) (hids' : IdsDistinct s')
    (hsent : sent ∈ sentTo dest now outs) {msg : ChatBroadcastMsg}
    (hdecode : decode sent.bytes = some (.chatBroadcast msg)) (hsender : msg.sender ≠ serverId) :
    CausedBy s' event msg.sender fun m => ∃ chat, m = .chat chat := by
  have horigin := (origin_of_mem heffect hsent).1
  cases horigin with
  | notice text =>
      cases (decode_chatBroadcast _).symm.trans hdecode
      exact absurd rfl hsender
  | chatted peer player bytes chat hevent hchat hplayer hshake =>
      cases (decode_chatBroadcast _).symm.trans hdecode
      exact ⟨peer, player, bytes, _, hevent, hchat, ⟨chat, rfl⟩, hplayer, hshake, rfl,
        fun other found hfound hshake' hid => hids'.players hfound hshake' hplayer hshake hid⟩
  | caughtUp _ _ _ _ _ _ hannounces | caughtUpBot _ _ _ hannounces =>
      rcases hannounces with rfl | ⟨-, rfl⟩
      · cases (decode_playerJoined _).symm.trans hdecode
      · cases (decode_playerStateUpdate _).symm.trans hdecode
  | rejected => cases (decode_reject _).symm.trans hdecode
  | welcomed => cases (decode_welcome _).symm.trans hdecode
  | arrived | botArrived => cases (decode_playerJoined _).symm.trans hdecode
  | departed => cases (decode_playerLeft _).symm.trans hdecode
  | relayed | botMoved => cases (decode_playerStateUpdate _).symm.trans hdecode
  | renamed => cases (decode_playerRenamed _).symm.trans hdecode

theorem sent_renamed (heffect : Effect now s event s' outs) (hids' : IdsDistinct s')
    (hsent : sent ∈ sentTo dest now outs) {msg : PlayerRenamedMsg}
    (hdecode : decode sent.bytes = some (.playerRenamed msg)) :
    CausedBy s' event msg.id fun m => ∃ name, m = .setName name := by
  have horigin := (origin_of_mem heffect hsent).1
  cases horigin with
  | renamed peer player bytes name hevent hname hplayer hshake =>
      cases (decode_playerRenamed _).symm.trans hdecode
      exact ⟨peer, player, bytes, _, hevent, hname, ⟨name, rfl⟩, hplayer, hshake, rfl,
        fun other found hfound hshake' hid => hids'.players hfound hshake' hplayer hshake hid⟩
  | caughtUp _ _ _ _ _ _ hannounces | caughtUpBot _ _ _ hannounces =>
      rcases hannounces with rfl | ⟨-, rfl⟩
      · cases (decode_playerJoined _).symm.trans hdecode
      · cases (decode_playerStateUpdate _).symm.trans hdecode
  | rejected => cases (decode_reject _).symm.trans hdecode
  | notice | chatted => cases (decode_chatBroadcast _).symm.trans hdecode
  | welcomed => cases (decode_welcome _).symm.trans hdecode
  | arrived | botArrived => cases (decode_playerJoined _).symm.trans hdecode
  | departed => cases (decode_playerLeft _).symm.trans hdecode
  | relayed | botMoved => cases (decode_playerStateUpdate _).symm.trans hdecode

end Effects

theorem relayed_once {s : Server} {now : Time} {peer : Peer} {bytes : Bytes} {player : Player}
    {msg : PlayerStateMsg} (hplayer : s.players.lookup peer = some player)
    (hshake : player.handshaked = true) (hdecode : decode bytes = some (.playerState msg))
    (hfinite : SixFinite msg.state) (dest : Peer) :
    sentTo dest now (handlePacket s now peer bytes).2 =
      if dest ≠ peer ∧ joined s dest = true then
        [⟨now, .kUnreliable, encode
          { id := player.id, timeMs := nowMs s now, state := msg.state : PlayerStateUpdateMsg }⟩]
      else [] := by
  obtain ⟨hid, hok⟩ := header_of_decode hdecode
  have haccept : handlePacket s now peer bytes = acceptState s now peer player msg.state := by
    rw [handlePacket_eq hplayer]
    dsimp only
    rw [hid, hok, hdecode, hshake]
    exact if_pos (isPlausible_iff.mpr hfinite)
  rw [haccept, acceptState, sentTo_broadcast]
  by_cases hdest : dest = peer
  · simp [hdest]
  · rw [joined_setPlayer hplayer, if_neg hdest]
    cases joined s dest <;> simp [hdest, nowMs, setPlayer]

section Runs

variable [CppFloat F32] [Libm F32] [Platform]

/-- What the server passes on in any step of any run: under the id of a player, the
last state fit for it that the player's own connection sent; such a state goes once,
when it comes in, to every other player and not to its sender; and chat and new names
that carry an id are caused by packets of the player with that id. -/
theorem relay_integrity (config : Config) (startTime : Time) (inputs : List Input) (input : Input)
    (hids : IdsDistinct (Network.after config startTime (inputs ++ [input])).server) :
    let before := (Network.after config startTime inputs).server
    let s := (Network.after config startTime (inputs ++ [input])).server
    let outs := (step before input).2
    (∀ dest, ∀ sent ∈ sentTo dest input.now outs, ∀ msg,
      decode sent.bytes = some (.playerStateUpdate msg) →
      ∀ peer player, s.players.lookup peer = some player → player.handshaked = true →
        player.id = msg.id →
        (trailOf peer (inputs ++ [input])).bind (·.state) = some msg.state) ∧
    (∀ peer bytes msg trail, input.event = .receive peer bytes →
      trailOf peer inputs = some trail → trail.handshaked = true →
      decode bytes = some (.playerState msg) → SixFinite msg.state →
      ∃ player, before.players.lookup peer = some player ∧
        ∀ dest, sentTo dest input.now outs =
          if dest ≠ peer ∧ joined before dest = true then
            [⟨input.now, .kUnreliable, encode { id := player.id, timeMs := nowMs before input.now,
                                                state := msg.state : PlayerStateUpdateMsg }⟩]
          else []) ∧
    (∀ dest, ∀ sent ∈ sentTo dest input.now outs,
      (∀ msg, decode sent.bytes = some (.chatBroadcast msg) → msg.sender ≠ serverId →
        CausedBy s input.event msg.sender fun m => ∃ chat, m = .chat chat) ∧
      (∀ msg, decode sent.bytes = some (.playerRenamed msg) →
        CausedBy s input.event msg.id fun m => ∃ name, m = .setName name)) := by
  intro before s outs
  have hs : s = (step before input).1 := by
    change (Network.after config startTime (inputs ++ [input])).server = _
    rw [Network.after_concat]
    rfl
  have heffect : Effect input.now (reorder before input.order) input.event s outs :=
    hs ▸ step_effect before input
  refine ⟨?_, ?_, ?_⟩
  · intro dest sent hsent msg hdecode peer player hplayer hshake hid
    obtain ⟨hstate, hsame⟩ := sent_state heffect hids hsent hdecode hplayer hshake hid
    rw [trail_state hplayer hstate, hsame]
  · intro peer bytes msg trail hevent htrail hjoined hdecode hfinite
    rw [← recorded_eq_trail config startTime inputs peer] at htrail
    obtain ⟨player, hplayer, rfl⟩ := Option.map_eq_some_iff.mp htrail
    refine ⟨player, hplayer, fun dest => ?_⟩
    have houts : outs = (handlePacket (reorder before input.order) input.now peer bytes).2 := by
      change (step before input).2 = _
      rw [step, hevent, handle]
    rw [houts, relayed_once ((lookup_reorder before _ _).trans hplayer) hjoined hdecode hfinite,
      joined_reorder]
    rfl
  · exact fun dest sent hsent => ⟨fun msg hdecode hsender =>
      sent_chat heffect hids hsent hdecode hsender, fun msg hdecode =>
      sent_renamed heffect hids hsent hdecode⟩

end Runs

section Example

open F4MP.Native

/-- The first of two players moves, and the second one is told. -/
theorem relay_of_first :
    let before := (Network.after {} 0 twoPlayers).server
    let msg : PlayerStateMsg := { state := .initial F32 }
    ∃ player, before.players.lookup 0 = some player ∧
      ∀ dest, sentTo dest 0 (step before ⟨0, .keep _, .receive 0 (encode msg)⟩).2 =
        if dest ≠ 0 ∧ joined before dest = true then
          [⟨0, .kUnreliable, encode { id := player.id, timeMs := nowMs before 0,
                                      state := msg.state : PlayerStateUpdateMsg }⟩]
        else [] := by
  refine (relay_integrity {} 0 twoPlayers ⟨0, .keep _, .receive 0
    (encode { state := .initial F32 : PlayerStateMsg })⟩ ?_).2.1 0 _ { state := .initial F32 }
    { handshaked := true } rfl (by rfl) rfl (by decide +kernel) (by decide)
  exact (idsIssued_after {} 0 _ (by decide +kernel)).distinct

end Example

end F4MP.Relay
