import F4MP.ChatFlood
import F4MP.Library.Utf8
import F4MP.Native
import F4MP.SessionModel

/-!
What becomes of the text of a chat message on its way to the other players: the client cuts
it, the server drops control bytes, and it stays valid UTF-8 if the cut does not go through
a character.
-/

namespace F4MP.ChatText

open F4MP.Types
open F4MP.Packet
open F4MP.Protocol
open F4MP.Messages
open F4MP.ServerModel
open F4MP.ServerRun
open F4MP.ServerTraffic
open F4MP.ServerEffects
open F4MP.SessionModel (Session Action)
open F4MP.Library.Utf8

section Client

variable {D : Type}

/-- The packets among what a client does. -/
def packets (actions : List (Action D)) : List Bytes :=
  actions.filterMap fun action =>
    match action with
    | .net (.send _ bytes) => some bytes
    | _ => none

/-- What a client sends for a text. -/
def chatPacket (text : Bytes) : Bytes := encode { text := text.take maxChatBytes : ChatMsg }

theorem take_of_clamp (text : Bytes) :
    (if text.length > maxChatBytes then text.take maxChatBytes else text) =
      text.take maxChatBytes := by
  split
  · rfl
  · rename_i hshort
    exact (List.take_of_length_le (not_lt.mp hshort)).symm

theorem mem_packets_sendChat {session : Session} {text packet : Bytes}
    (h : packet ∈ packets (SessionModel.sendChat session text : SessionModel.Result D).2) :
    text ≠ [] ∧ packet = chatPacket text := by
  rw [SessionModel.sendChat] at h
  split at h
  · cases h
  · rename_i hready
    simp only [Bool.or_eq_true, List.isEmpty_iff, not_or] at hready
    refine ⟨hready.1, ?_⟩
    rw [SessionModel.requests, NetClientModel.send, take_of_clamp] at h
    split at h
    · cases h
    · simpa [packets, chatPacket] using h

end Client

section Server

/-- What the server passes on of a text. -/
def accepted (text : Bytes) : Bytes :=
  (text.take maxChatBytes).filter fun c => !(c < 0x20 || c == 0x7F)

theorem cleanChat_eq (text : Bytes) : cleanChat (text.take maxChatBytes) = accepted text := by
  rw [cleanChat, take_of_clamp, List.take_take, min_self]
  rfl

theorem length_accepted_le (text : Bytes) : (accepted text).length ≤ maxChatBytes :=
  (List.length_filter_le _ _).trans (List.length_take_le _ _)

/-- The packet is passed on to all players as chat with this text.  A warning that it is too
much is not. -/
def Broadcasts (s : Server) (now : Time) (peer : Peer) (packet text : Bytes) : Prop :=
  ∃ player, s.players.lookup peer = some player ∧ player.handshaked = true ∧
    (rollChatWindow player now).chatWindowCount ≤ chatBurst ∧ text.length ≤ maxStringBytes ∧
    (handlePacket s now peer packet).2 =
      broadcast (handlePacket s now peer packet).1 .kReliable
        (encode { sender := player.id, text : ChatBroadcastMsg }) none

variable {s : Server} {peer : Peer} {player : Player}

theorem handlePacket_chat (hplayer : s.players.lookup peer = some player)
    (hshake : player.handshaked = true) (now : Time) {text : Bytes} (hsome : text ≠ []) :
    handlePacket s now peer (chatPacket text) =
      acceptChat s now peer player (text.take maxChatBytes) := by
  have hdecode : decode (chatPacket text) = some (.chat { text := text.take maxChatBytes }) := by
    rw [chatPacket, decode_chat]
    have hfits : (text.take maxChatBytes).take maxStringBytes = text.take maxChatBytes := by
      rw [List.take_take]
      rfl
    exact congrArg (fun text => some (Message.chat { text })) hfits
  obtain ⟨hid, hok⟩ := header_of_decode hdecode
  have hne : (text.take maxChatBytes).isEmpty = false := by
    cases text with
    | nil => exact absurd rfl hsome
    | cons c text => rfl
  rw [handlePacket_eq hplayer]
  dsimp only
  rw [hid, hok, hdecode, hshake]
  exact if_neg (hne ▸ Bool.false_ne_true)

theorem encode_chatBroadcast_inj {sender : PlayerId} {text text' : Bytes}
    (hfits : text.length ≤ maxStringBytes) (hfits' : text'.length ≤ maxStringBytes)
    (h : encode { sender, text : ChatBroadcastMsg } =
      encode { sender, text := text' : ChatBroadcastMsg }) : text = text' := by
  have hdecode := congrArg decode h
  rw [decode_chatBroadcast, decode_chatBroadcast] at hdecode
  have hmsg := Message.chatBroadcast.inj (Option.some.inj hdecode)
  have htext := congrArg ChatBroadcastMsg.text hmsg
  dsimp only at htext
  rwa [List.take_of_length_le hfits, List.take_of_length_le hfits'] at htext

theorem broadcasts_iff (hplayer : s.players.lookup peer = some player)
    (hshake : player.handshaked = true) {now : Time} {text : Bytes} (hsome : text ≠ [])
    {text' : Bytes} :
    Broadcasts s now peer (chatPacket text) text' ↔
      (rollChatWindow player now).chatWindowCount ≤ chatBurst ∧ accepted text ≠ [] ∧
        text' = accepted text := by
  have hjoined : joined (setPlayer s peer (rollChatWindow player now)) peer = true := by
    rw [joined_setPlayer hplayer, if_pos rfl, rollChatWindow_handshaked, hshake]
  have houts : (rollChatWindow player now).chatWindowCount ≤ chatBurst →
      handlePacket s now peer (chatPacket text) =
        (setPlayer s peer (rollChatWindow player now),
          if accepted text = [] then [] else
            broadcast (setPlayer s peer (rollChatWindow player now)) .kReliable
              (encode { sender := player.id, text := accepted text : ChatBroadcastMsg }) none) := by
    intro hburst
    rw [handlePacket_chat hplayer hshake now hsome, acceptChat, cleanChat_eq]
    dsimp only
    rw [if_neg (UInt32.not_lt.mpr hburst), rollChatWindow_id]
    by_cases hnone : accepted text = []
    · rw [if_pos (List.isEmpty_iff.mpr hnone), if_pos hnone]
    · rw [if_neg fun hempty => hnone (List.isEmpty_iff.mp hempty), if_neg hnone]
  constructor
  · rintro ⟨player', hplayer', -, hburst, hfits, hsent⟩
    cases hplayer.symm.trans hplayer'
    rw [houts hburst] at hsent
    -- the sender hears the broadcast too
    have hheard := congrArg (sentTo peer now) hsent
    have hspoken : ∀ msg : ChatBroadcastMsg, sentTo peer now
        (broadcast (setPlayer s peer (rollChatWindow player now)) .kReliable (encode msg) none) =
          [⟨now, .kReliable, encode msg⟩] := by
      intro msg
      rw [sentTo_broadcast, if_pos ⟨hjoined, by simp⟩]
    rw [hspoken] at hheard
    by_cases hnone : accepted text = []
    · dsimp only at hheard
      rw [if_pos hnone] at hheard
      cases hheard
    · dsimp only at hheard
      rw [if_neg hnone, hspoken] at hheard
      have hencode := congrArg Sent.bytes (List.singleton_injective hheard)
      refine ⟨hburst, hnone, (encode_chatBroadcast_inj ?_ hfits hencode).symm⟩
      exact (length_accepted_le text).trans (by decide)
  · rintro ⟨hburst, hne, rfl⟩
    refine ⟨player, hplayer, hshake, hburst, ?_, ?_⟩
    · exact (length_accepted_le text).trans (by decide)
    · rw [houts hburst]
      exact if_neg hne

theorem valid_accepted_iff {text : Bytes} (hutf8 : Valid text) :
    Valid (accepted text) ↔ ∀ b, text[maxChatBytes]? = some b → b.IsUTF8FirstByte := by
  refine hutf8.filter_take_iff (fun b hb => ?_) maxChatBytes
  have hcontrol : ¬ b < 0x20 := UInt8.not_lt.mpr (UInt8.le_trans (by decide) hb)
  have hdelete : b ≠ 0x7F := by
    rintro rfl
    exact absurd hb (by decide)
  simp [hcontrol, hdelete]

/-- What is passed on of a chat text is its first 512 bytes without control bytes.  It is
valid UTF-8 exactly if these do not end inside a character, or the sender is not in the
game or has said too much. -/
theorem chat_text_utf8 {D : Type} {session : Session} {text packet : Bytes} (hutf8 : Valid text)
    (hsent : packet ∈ packets (SessionModel.sendChat session text : SessionModel.Result D).2)
    (s : Server) (now : Time) (peer : Peer) :
    (∀ text', Broadcasts s now peer packet text' →
      text'.length ≤ 512 ∧ (∀ c ∈ text', 0x20 ≤ c ∧ c ≠ 0x7F) ∧
        text' = (text.take 512).filter fun c => !(c < 0x20 || c == 0x7F)) ∧
    ((∀ text', Broadcasts s now peer packet text' → Valid text') ↔
      ∀ player, s.players.lookup peer = some player → player.handshaked = true →
        (rollChatWindow player now).chatWindowCount ≤ chatBurst →
        ∀ b, text[512]? = some b → b.IsUTF8FirstByte) := by
  obtain ⟨hsome, rfl⟩ := mem_packets_sendChat hsent
  have haccepted : ∀ text', Broadcasts s now peer (chatPacket text) text' →
      text' = accepted text := by
    intro text' htext'
    obtain ⟨player, hplayer, hshake, -⟩ := id htext'
    exact ((broadcasts_iff hplayer hshake hsome).mp htext').2.2
  refine ⟨fun text' htext' => ?_, fun hvalid player hplayer hshake hburst => ?_,
    fun hcut text' htext' => ?_⟩
  · obtain rfl := haccepted text' htext'
    refine ⟨length_accepted_le text, fun c hc => ?_, rfl⟩
    have hkept := (List.mem_filter.mp hc).2
    simp only [Bool.not_eq_true', Bool.or_eq_false_iff, decide_eq_false_iff_not, beq_eq_false_iff_ne]
      at hkept
    exact ⟨UInt8.not_lt.mp hkept.1, hkept.2⟩
  · refine (valid_accepted_iff hutf8).mp ?_
    by_cases hnone : accepted text = []
    · -- nothing is broadcast, and the empty text is valid
      rw [hnone]
      exact ⟨[], rfl⟩
    · exact hvalid _ ((broadcasts_iff hplayer hshake hsome).mpr ⟨hburst, hnone, rfl⟩)
  · rw [haccepted text' htext']
    obtain ⟨player, hplayer, hshake, hburst, -⟩ := htext'
    exact (valid_accepted_iff hutf8).mpr (hcut player hplayer hshake hburst)

end Server

section Example

open F4MP.Native

def online : Session where
  config := {}
  net := { enetReady := true, host := true, peer := true, state := .kConnected }
  welcomed := true

/-- The first byte of the last character is the last one that is let through. -/
def longText : Bytes := List.replicate 511 0x61 ++ [0xC3, 0xA9]

theorem valid_longText : Valid longText :=
  ⟨List.replicate 511 'a' ++ ['é'], by decide +kernel⟩

def evenText : Bytes := List.replicate 510 0x61 ++ [0xC3, 0xA9, 0xC3, 0xA9]

theorem valid_evenText : Valid evenText :=
  ⟨List.replicate 510 'a' ++ ['é', 'é'], by decide +kernel⟩

theorem broadcasts_first {text : Bytes} (hsome : text ≠ []) (haccepted : accepted text ≠ []) :
    Broadcasts (Network.after {} 0 twoPlayers).server 1 0 (chatPacket text) (accepted text) :=
  (broadcasts_iff (by decide +kernel :
    _ = some { id := 1, name := ascii "Ada", handshaked := true }) rfl hsome).mpr
      ⟨by decide, haccepted, rfl⟩

theorem chat_cut_inside_character :
    ¬ ∀ (session : Session) (text packet text' : Bytes), Valid text →
      packet ∈ packets (SessionModel.sendChat session text : SessionModel.Result F32).2 →
      Broadcasts (Network.after {} 0 twoPlayers).server 1 0 packet text' → Valid text' := by
  intro h
  have hvalid := h online longText (chatPacket longText) (accepted longText) valid_longText
    (by decide +kernel) (broadcasts_first (by decide +kernel) (by decide +kernel))
  have hfirst := (valid_accepted_iff valid_longText).mp hvalid 0xA9 (by decide +kernel)
  exact absurd hfirst (by decide)

theorem chat_cut_between_characters : accepted evenText ≠ evenText ∧ Valid (accepted evenText) := by
  have hnext : ∀ b, evenText[512]? = some b → b.IsUTF8FirstByte := by
    intro b hb
    obtain rfl : 0xC3 = b := Option.some.inj
      ((by decide +kernel : evenText[512]? = some 0xC3).symm.trans hb)
    decide
  have hpacket : chatPacket evenText ∈
      packets (SessionModel.sendChat online evenText : SessionModel.Result F32).2 := by
    decide +kernel
  refine ⟨by decide +kernel, ?_⟩
  exact (chat_text_utf8 valid_evenText hpacket (Network.after {} 0 twoPlayers).server 1 0).2.mpr
    (fun _ _ _ _ => hnext) _ (broadcasts_first (by decide +kernel) (by decide +kernel))

end Example

end F4MP.ChatText
