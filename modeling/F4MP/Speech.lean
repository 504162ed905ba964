import F4MP.ChatText
import F4MP.ConsoleLanguage
import F4MP.Transcript

/-!
Chat from the console of one client to what the others read: one packet is sent for a line,
and it adds one line to the account of every player in the game.
-/

namespace F4MP.Speech

open F4MP.Types
open F4MP.Packet
open F4MP.Protocol
open F4MP.Messages
open F4MP.Arith
open F4MP.ServerModel
open F4MP.ServerConsole
open F4MP.ServerRun
open F4MP.ServerTraffic
open F4MP.Participants
open F4MP.ChatText
open F4MP.Transcript
open F4MP.SessionModel (Session isConnected)
open F4MP.IniModel (lower)
open F4MP.ConsoleCommands
open F4MP.ConsoleLanguage
open F4MP.Connection
open F4MP.NameAgreement
open F4MP.Library.HashTable

section Console

variable {D : Type} [Platform]

theorem text_ne_nil {line text : Bytes} (hline : Orders line (.say text)) : text ≠ [] := by
  cases hline with
  | known hlayout hmeans =>
      generalize lower _ = command at hmeans
      cases hmeans with
      | say hargument htext => exact htext

variable [CppFloat F32]

theorem perform_say {session : Session} {line text : Bytes} (hline : Orders line (.say text))
    (hconnected : isConnected session = true) (hpeer : session.net.peer = true)
    (dial : NetClientModel.Dial) (now : Time) :
    (perform dial now session (execute session line) : SessionModel.Result D) =
      (session, [.net (.send .kReliable (chatPacket text))]) := by
  have htext : text.isEmpty = false := by simpa using text_ne_nil hline
  have hstate : session.net.state = .kConnected := by
    rw [isConnected, Bool.and_eq_true, decide_eq_true_eq] at hconnected
    exact hconnected.1
  have hsend : (SessionModel.sendChat session text : SessionModel.Result D) =
      (session, [.net (.send .kReliable (chatPacket text))]) := by
    rw [SessionModel.sendChat, htext, hconnected]
    simp [SessionModel.requests, NetClientModel.send, hstate, hpeer, take_of_clamp, chatPacket]
  rw [execute_of_orders session hline]
  change SessionModel.Result.andThen (SessionModel.sendChat session text) _ = _
  rw [hsend]
  rfl

end Console

/-- The line a client reads for what a player says. -/
def heard (own : Prop) [Decidable own] (name text : Bytes) : Bytes :=
  (if own then ascii "You" else name) ++ ascii ": " ++ text

section Server

variable [CppFloat F32] [Libm F32] [Platform]

theorem account_receive (config : Config) (startTime : Time) (inputs : List Input) {input : Input}
    {c : Peer} {bytes : Bytes} (hevent : input.event = .receive c bytes) (d : Peer) :
    account config startTime (inputs ++ [input]) d = account config startTime inputs d ++
      ((sentTo d input.now (step (Network.after config startTime inputs).server input).2).filter
        (·.channel = .kReliable)).flatMap fun sent =>
          (decode sent.bytes).elim []
            (meant (Network.after config startTime inputs).server d input.event) := by
  have hopens : opens (Network.after config startTime inputs).server input d = false := by
    simp [opens, hevent]
  rw [account, notes_concat, hopens, if_neg Bool.false_ne_true, List.filter_append,
    List.flatMap_append, List.filter_map, List.flatMap_map]
  rfl

variable {s : Server} {input : Input} {c : Peer} {player : Player} {text : Bytes}

theorem step_chat (hplayer : s.players.lookup c = some player) (hshake : player.handshaked = true)
    (hevent : input.event = .receive c (chatPacket text)) (htext : text ≠ []) (d : Peer) :
    sentTo d input.now (step s input).2 =
      if (rollChatWindow player input.now).chatWindowCount ≤ chatBurst then
        if accepted text ≠ [] ∧ joined s d = true then
          [⟨input.now, .kReliable,
            encode { sender := player.id, text := accepted text : ChatBroadcastMsg }⟩]
        else []
      else if (rollChatWindow player input.now).chatWindowCount = chatBurst + 1 ∧ d = c then
        [⟨input.now, .kReliable, encode { text := ascii "Slow down." : ChatBroadcastMsg }⟩]
      else [] := by
  have hlookup : (reorder s input.order).players.lookup c = some player :=
    (lookup_reorder ..).trans hplayer
  rw [step, hevent]
  change sentTo d input.now (handlePacket (reorder s input.order) input.now c (chatPacket text)).2 = _
  rw [handlePacket_chat hlookup hshake input.now htext, acceptChat, cleanChat_eq]
  have hjoined : joined (setPlayer (reorder s input.order) c (rollChatWindow player input.now)) d =
      joined s d := by
    rw [joined_setPlayer hlookup, rollChatWindow_handshaked, joined_reorder]
    split
    next hd => rw [hd, joined_eq hplayer]
    next => rfl
  dsimp only
  by_cases hroom : (rollChatWindow player input.now).chatWindowCount ≤ chatBurst
  · have hfew : ¬(rollChatWindow player input.now).chatWindowCount > chatBurst :=
      UInt32.not_lt.mpr hroom
    rw [if_neg hfew, if_pos hroom]
    by_cases hempty : accepted text = []
    · rw [if_pos (List.isEmpty_iff.mpr hempty), if_neg fun h => h.1 hempty]
      rfl
    · rw [if_neg (by simpa using hempty), sentTo_broadcast, hjoined]
      simp [hempty, rollChatWindow_id]
  · have hmany : (rollChatWindow player input.now).chatWindowCount > chatBurst :=
      UInt32.not_le.mp hroom
    rw [if_pos hmany, if_neg hroom]
    by_cases hfirst : (rollChatWindow player input.now).chatWindowCount = chatBurst + 1
    · rw [if_pos hfirst, sentTo_send]
      simp [hfirst, eq_comm]
    · rw [if_neg hfirst]
      simp [hfirst]

/-- What one chat message adds to the account of a player: under the name of the speaker,
its text without control bytes; a warning to the speaker alone when it is the first too
many, and nothing after that. -/
theorem account_chat (config : Config) (startTime : Time) (inputs : List Input)
    (hissued : (Network.after config startTime inputs).issued < 2 ^ 32 - 1)
    (hplayer : (Network.after config startTime inputs).server.players.lookup c = some player)
    (hshake : player.handshaked = true) (hevent : input.event = .receive c (chatPacket text))
    (htext : text ≠ []) (d : Peer) :
    account config startTime (inputs ++ [input]) d = account config startTime inputs d ++
      if (rollChatWindow player input.now).chatWindowCount ≤ chatBurst then
        if accepted text ≠ [] ∧ joined (Network.after config startTime inputs).server d = true then
          [heard (d = c) player.name (accepted text)]
        else []
      else if (rollChatWindow player input.now).chatWindowCount = chatBurst + 1 ∧ d = c then
        [ascii "[Server] Slow down."]
      else [] := by
  have hpositive := ((idsIssued_after config startTime inputs hissued).player_pos hplayer hshake).1
  have hserver : player.id ≠ serverId := by
    intro h
    rw [h] at hpositive
    exact absurd hpositive (by decide)
  have hfits : (accepted text).take maxStringBytes = accepted text :=
    List.take_of_length_le ((length_accepted_le text).trans (by decide))
  rw [account_receive config startTime inputs hevent d, step_chat hplayer hshake hevent htext d]
  congr 1
  split
  · split
    · rw [List.filter_cons_of_pos (by rfl), List.filter_nil, List.flatMap_singleton,
        decode_chatBroadcast]
      change (if player.id = serverId then _ else if speaker input.event = some d then
        [ascii "You: " ++ (accepted text).take maxStringBytes] else [_ ++ ascii ": " ++
          (accepted text).take maxStringBytes]) = _
      rw [if_neg hserver, hfits, hevent, heard]
      simp only [speakerName, speaker, Option.bind_some, hplayer, Option.map_some,
        Option.getD_some, Option.some.injEq, eq_comm (a := c)]
      split <;> rfl
    · rfl
  · split
    · rw [List.filter_cons_of_pos (by rfl), List.filter_nil, List.flatMap_singleton,
        decode_chatBroadcast]
      rfl
    · rfl

end Server

section Runs

variable {D : Type} [CppFloat F32] [CppFloat D] [Libm F32] [Narrow D F32] [Widen F32 D] [Platform]

/-- A line that is typed to say something, by a client that is welcomed, is one packet; and
when it comes to the server, while no id was given twice, it adds to the account of every
player in the game the one line that is read there, cut and cleaned and under the name of
the one who typed it; too many lines are answered once, and otherwise lost. -/
theorem said_is_read (config : Config) (startTime : Time) (inputs : List Input)
    (hissued : (Network.after config startTime inputs).issued < 2 ^ 32 - 1) (party : Party D)
    (henet : party.watched.enet ≠ none) (hconnected : isConnected party.session = true)
    (line text : Bytes) (hline : Orders line (.say text)) :
    (∀ dial now, (perform dial now party.session (execute party.session line) :
      SessionModel.Result D) = (party.session, [.net (.send .kReliable (chatPacket text))])) ∧
    ∀ input c player, input.event = .receive c (chatPacket text) →
      (Network.after config startTime inputs).server.players.lookup c = some player →
      player.handshaked = true → ∀ d,
      account config startTime (inputs ++ [input]) d = account config startTime inputs d ++
        if (rollChatWindow player input.now).chatWindowCount ≤ chatBurst then
          if accepted text ≠ [] ∧
              joined (Network.after config startTime inputs).server d = true then
            [heard (d = c) player.name (accepted text)]
          else []
        else if (rollChatWindow player input.now).chatWindowCount = chatBurst + 1 ∧ d = c then
          [ascii "[Server] Slow down."]
        else [] := by
  constructor
  · obtain ⟨peer, hpeer⟩ := Option.ne_none_iff_exists'.mp henet
    obtain ⟨account, -, hsound, -⟩ := sound_after hpeer
    have hstate : party.session.net.state = .kConnected := by
      have hboth := hconnected
      rw [isConnected, Bool.and_eq_true, decide_eq_true_eq] at hboth
      exact hboth.1
    have hhas : party.session.net.peer = true := by
      refine hsound.hasPeer.trans (decide_eq_true ?_)
      rintro rfl
      have hfree := hsound.state.symm.trans hstate
      cases hfree
    exact perform_say hline hconnected hhas
  · intro input c player hevent hplayer hshake d
    exact account_chat config startTime inputs hissued hplayer hshake hevent (text_ne_nil hline) d

end Runs

section Example

open F4MP.Native

def typedLine : Bytes := ascii " player.F4MP  SAY \" hi  there \" "

theorem phrase_of_next {s word args : Bytes} (hnext : nextToken s = (word, args)) (hne : word ≠ []) :
    Phrase s word args := by
  have hphrase := (spaces_or_phrase s).resolve_left fun hspaces => by
    rw [nextToken_of_spaces hspaces] at hnext
    exact hne (Prod.mk.inj hnext).1.symm
  rwa [hnext] at hphrase

theorem orders_typedLine : Orders typedLine (.say (ascii "hi  there")) := by
  have hlayout : Layout typedLine (ascii "SAY") (ascii "\" hi  there \"") :=
    .named (@phrase_of_next typedLine (ascii "player.F4MP") (ascii "SAY \" hi  there \"")
      (by decide) (by decide)) (isCommandToken_iff.mp (by decide))
      (phrase_of_next (by decide) (by decide))
  have hpad : ConsoleText.Spaces (ascii " ") := by
    rw [ConsoleText.Spaces]
    decide +kernel
  have hargument : Argument (quote :: ((ascii " " ++ ascii "hi  there" ++ ascii " ") ++ [quote]))
      (ascii "hi  there") := .quoted hpad hpad ⟨by decide +kernel, by decide +kernel⟩
  exact .known hlayout (.say hargument (by decide))

/-- The second player reads it. -/
theorem said_is_read_by_second :
    account {} 0 (twoPlayers ++ [⟨0, .keep _, .receive 0 (chatPacket (ascii "hi  there"))⟩]) 1 =
      account {} 0 twoPlayers 1 ++ [ascii "Ada: hi  there"] := by
  have hrecord : (Network.after {} 0 twoPlayers).server.players.lookup 0 =
      some { id := 1, name := ascii "Ada", handshaked := true, joinedAt := 0 } := by decide +kernel
  have haccount := (said_is_read {} 0 twoPlayers (by decide +kernel) (ada twoPlayers)
    (by decide +kernel) (by decide +kernel) typedLine (ascii "hi  there") orders_typedLine).2
    ⟨0, .keep _, .receive 0 (chatPacket (ascii "hi  there"))⟩ 0 _ rfl hrecord rfl 1
  rw [haccount]
  congr 1

end Example

end F4MP.Speech
