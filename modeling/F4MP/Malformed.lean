import F4MP.Delivery
import F4MP.Native
import F4MP.Relay

/-!
Packets that say nothing: what the two ends do with bytes that are no message they
expect.
-/

namespace F4MP.Malformed

open F4MP.Types
open F4MP.Protocol
open F4MP.Messages
open F4MP.Arith
open F4MP.ServerModel
open F4MP.ServerRun
open F4MP.ServerTraffic
open F4MP.ServerEffects
open F4MP.Relay
open F4MP.RemotePlayersModel
open F4MP.SessionModel
open F4MP.SessionSteps
open F4MP.ClientRun
open F4MP.Delivery

def fromClient : MsgId → Bool
  | .kHello | .kPlayerState | .kChat | .kSetName => true
  | _ => false

def fromServer : MsgId → Bool
  | .kWelcome | .kReject | .kPlayerJoined | .kPlayerLeft | .kPlayerStateUpdate
  | .kChatBroadcast | .kPlayerRenamed => true
  | _ => false

/-- What a player can send that is no message of a player. -/
inductive Unfit : Bytes → Prop where
  | empty : Unfit []
  | foreign (code : UInt8) (body : Bytes) (hcode : fromClient (.ofCode code) = false) :
      Unfit (code :: body)
  | garbled (code : UInt8) (body : Bytes)
      (hcode : MsgId.ofCode code = .kPlayerState ∨ MsgId.ofCode code = .kChat ∨
        MsgId.ofCode code = .kSetName)
      (hgarbled : decode (code :: body) = none) : Unfit (code :: body)
  | infinite (bytes : Bytes) (msg : PlayerStateMsg)
      (hdecode : decode bytes = some (.playerState msg)) (hinfinite : ¬ SixFinite msg.state) :
      Unfit bytes

/-- A `Hello` that cannot be read. -/
def GarbledHello (bytes : Bytes) : Prop :=
  ∃ code body, bytes = code :: body ∧ MsgId.ofCode code = .kHello ∧ decode bytes = none

section Server

variable {s : Server} {peer : Peer} {player : Player} {bytes : Bytes}

theorem handlePacket_of_none (hplayer : s.players.lookup peer = some player)
    (hshake : player.handshaked = true) (hdecode : decode bytes = none)
    (hhello : (readHeader { data := bytes }).2.ok = true →
      (readHeader { data := bytes }).1 ≠ .kHello) (now : Time) :
    ServerModel.handlePacket s now peer bytes = (s, []) := by
  rw [ServerEffects.handlePacket_eq hplayer, hdecode]
  dsimp only
  split
  · rfl
  · rename_i hok
    rw [if_neg (by simp [hshake]), if_neg (hhello (by simpa using hok))]

theorem unfit_ignored (hplayer : s.players.lookup peer = some player)
    (hshake : player.handshaked = true) (hunfit : Unfit bytes) (now : Time) :
    ServerModel.handlePacket s now peer bytes = (s, []) := by
  cases hunfit with
  | empty => exact handlePacket_of_none hplayer hshake decode_nil (by simp [readHeader_nil]) now
  | foreign code body hcode =>
      cases hdecode : decode (code :: body) with
      | none =>
          refine handlePacket_of_none hplayer hshake hdecode (fun _ hhello => ?_) now
          rw [readHeader_cons] at hhello
          rw [show MsgId.ofCode code = .kHello from hhello] at hcode
          cases hcode
      | some m =>
          have hforeign : fromClient m.id = false := by
            rw [← (header_of_decode hdecode).1, readHeader_cons]
            exact hcode
          rw [ServerEffects.handlePacket_eq hplayer, hdecode]
          dsimp only
          rw [if_neg (by simp), if_neg (by simp [hshake])]
          cases m with
          | hello | playerState | chat | setName => cases hforeign
          | welcome | reject | playerJoined | playerLeft | playerStateUpdate | chatBroadcast
          | playerRenamed => rfl
  | garbled code body hcode hgarbled =>
      refine handlePacket_of_none hplayer hshake hgarbled (fun _ hhello => ?_) now
      rw [readHeader_cons] at hhello
      rw [show MsgId.ofCode code = .kHello from hhello] at hcode
      rcases hcode with hcode | hcode | hcode <;> cases hcode
  | infinite bytes msg hdecode hinfinite =>
      have hok := (header_of_decode hdecode).2
      rw [ServerEffects.handlePacket_eq hplayer, hdecode]
      dsimp only
      rw [if_neg (by simp [hok]), if_neg (by simp [hshake]),
        if_neg fun h => hinfinite (isPlausible_iff.mp h)]

theorem garbledHello_rejected (hplayer : s.players.lookup peer = some player)
    (hgarbled : GarbledHello bytes) (now : Time) :
    ServerModel.handlePacket s now peer bytes = (s, kick peer (ascii "Malformed hello")) := by
  obtain ⟨code, body, rfl, hcode, hdecode⟩ := hgarbled
  rw [ServerEffects.handlePacket_eq hplayer, hdecode, readHeader_cons]
  simp [hcode]

end Server

section Client

variable {D : Type} [CppFloat F32]

/-- Bytes that are no message of a server. -/
def NoServerMessage (bytes : Bytes) : Prop := ∀ m, decode bytes = some m → fromServer m.id = false

theorem handlePacket_of_noServerMessage {bytes : Bytes} (h : NoServerMessage bytes)
    (session : Session) (reading : Reading D) :
    SessionModel.handlePacket session bytes reading = (session, []) := by
  rw [SessionSteps.handlePacket_eq]
  cases hdecode : decode bytes with
  | none => rfl
  | some m =>
      have hforeign := h m hdecode
      cases m with
      | hello | playerState | chat | setName => rfl
      | welcome | reject | playerJoined | playerLeft | playerStateUpdate | chatBroadcast
      | playerRenamed => cases hforeign

end Client

section Both

variable {D : Type} [CppFloat F32] [CppFloat D] [Libm F32] [Narrow D F32] [Widen F32 D]

/-- Malformed packets are inert.  A player's leave the server as it is and unheard, an
unreadable `Hello` gets its sender a `Reject` and nothing else; those a client gets leave
its session and its remote players as they are and make it send nothing. -/
theorem malformed_inert :
    (∀ (s : Server) (now : Time) (peer : Peer) (player : Player) (bytes : Bytes),
      s.players.lookup peer = some player → player.handshaked = true → Unfit bytes →
        ServerModel.handlePacket s now peer bytes = (s, [])) ∧
    (∀ (s : Server) (now : Time) (peer : Peer) (player : Player) (bytes : Bytes),
      s.players.lookup peer = some player → GarbledHello bytes →
        (ServerModel.handlePacket s now peer bytes).1 = s ∧
        ∀ dest, sentTo dest now (ServerModel.handlePacket s now peer bytes).2 =
          if peer = dest then
            [⟨now, .kReliable, encode { reason := ascii "Malformed hello" : RejectMsg }⟩]
          else []) ∧
    (∀ (client : Client D) (sent : Sent) (reading : Reading D) (order : PlayerOrder F32),
      NoServerMessage sent.bytes →
        SessionModel.handlePacket client.session sent.bytes reading = (client.session, []) ∧
        live client (.packet sent reading order) = client) := by
  refine ⟨?_, ?_, ?_⟩
  · intro s now peer player bytes hplayer hshake hunfit
    exact unfit_ignored hplayer hshake hunfit now
  · intro s now peer player bytes hplayer hgarbled
    rw [garbledHello_rejected hplayer hgarbled now]
    exact ⟨rfl, fun dest => sentTo_kick dest peer now _⟩
  · intro client sent reading order hmalformed
    have hsame := handlePacket_of_noServerMessage hmalformed client.session reading
    refine ⟨hsame, ?_⟩
    rw [live, hsame]
    rfl

end Both

section Example

open F4MP.Native

/-- A chat message of the second player whose text is cut off. -/
theorem garbled_chat_of_second :
    ServerModel.handlePacket (Network.after {} 0 twoPlayers).server 0 1 [3, 5, 0] =
      ((Network.after {} 0 twoPlayers).server, []) := by
  obtain ⟨player, hplayer, hshake⟩ := joined_iff.mp
    (by decide +kernel : joined (Network.after {} 0 twoPlayers).server 1 = true)
  exact (malformed_inert (D := F64)).1 _ 0 1 player [3, 5, 0] hplayer hshake
    (.garbled 3 [5, 0] (by decide) (by decide +kernel))

end Example

end F4MP.Malformed
