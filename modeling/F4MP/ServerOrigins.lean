import F4MP.ServerEffects

/-!
Why a packet was sent: the inversion of the effects, packet by packet.
-/

namespace F4MP.ServerOrigins

open F4MP.Types
open F4MP.Protocol
open F4MP.Messages
open F4MP.ServerModel
open F4MP.ServerRun
open F4MP.ServerTraffic
open F4MP.ServerEffects

/-- The player or the bot under the id is taken out of the game. -/
def Departs (s s' : Server) (id : PlayerId) : Prop :=
  (∃ peer player, s.players.lookup peer = some player ∧ player.handshaked = true ∧
    player.id = id ∧ s' = { s with players := s.players.erase peer }) ∨
  ∃ removed kept bot, s.bots.Perm (removed ++ kept) ∧ bot ∈ removed ∧ bot.id = id ∧
    s' = { s with bots := kept }

/-- What is sent to a player in a step from `s` to `s'`. -/
inductive Origin (now : Time) (s : Server) (event : Event) (s' : Server) (dest : Peer) :
    Sent → Prop where
  | rejected (reason : Bytes) :
      Origin now s event s' dest ⟨now, .kReliable, encode { reason : RejectMsg }⟩
  | notice (text : Bytes) :
      Origin now s event s' dest ⟨now, .kReliable, encode { text : ChatBroadcastMsg }⟩
  | welcomed (player : Player) (hello : HelloMsg) (hplayer : s.players.lookup dest = some player)
      (hshake : player.handshaked = false) :
      Origin now s event s' dest
        ⟨now, .kReliable, encode (welcomeMsg s' (welcomedPlayer s player hello))⟩
  | caughtUp (sent : Sent) (peer : Peer) (player : Player) (hne : peer ≠ dest)
      (hplayer : s'.players.lookup peer = some player) (hshake : player.handshaked = true)
      (hannounces : Announces sent now (nowMs s' now) player.id player.name player.hasState
        player.state) : Origin now s event s' dest sent
  | caughtUpBot (sent : Sent) (bot : Bot) (hbot : bot ∈ s'.bots)
      (hannounces : Announces sent now (nowMs s' now) bot.id bot.name bot.hasState bot.state) :
      Origin now s event s' dest sent
  | arrived (peer : Peer) (player : Player) (hne : peer ≠ dest)
      (hplayer : s'.players.lookup peer = some player) (hshake : player.handshaked = true) :
      Origin now s event s' dest
        ⟨now, .kReliable, encode { id := player.id, name := player.name : PlayerJoinedMsg }⟩
  | botArrived (bot : Bot) (hbot : bot ∈ s'.bots) :
      Origin now s event s' dest
        ⟨now, .kReliable, encode { id := bot.id, name := bot.name : PlayerJoinedMsg }⟩
  | departed (id : PlayerId) (hdeparts : Departs s s' id) :
      Origin now s event s' dest ⟨now, .kReliable, encode { id : PlayerLeftMsg }⟩
  | relayed (peer : Peer) (player : Player) (bytes : Bytes) (hevent : event = .receive peer bytes)
      (hne : peer ≠ dest) (hplayer : s'.players.lookup peer = some player)
      (hshake : player.handshaked = true) (hstate : player.hasState = true) :
      Origin now s event s' dest
        ⟨now, .kUnreliable, encode
          { id := player.id, timeMs := nowMs s' now, state := player.state :
            PlayerStateUpdateMsg }⟩
  | botMoved (bot : Bot) (msg : PlayerStateUpdateMsg) (hbot : bot ∈ s'.bots)
      (hid : msg.id = bot.id) (htime : msg.timeMs = nowMs s' now) :
      Origin now s event s' dest ⟨now, .kUnreliable, encode msg⟩
  | chatted (peer : Peer) (player : Player) (bytes : Bytes) (chat : ChatMsg)
      (hevent : event = .receive peer bytes) (hdecode : decode bytes = some (.chat chat))
      (hplayer : s'.players.lookup peer = some player) (hshake : player.handshaked = true) :
      Origin now s event s' dest ⟨now, .kReliable,
        encode { sender := player.id, text := cleanChat chat.text : ChatBroadcastMsg }⟩
  | renamed (peer : Peer) (player : Player) (bytes : Bytes) (msg : SetNameMsg)
      (hevent : event = .receive peer bytes) (hdecode : decode bytes = some (.setName msg))
      (hplayer : s'.players.lookup peer = some player) (hshake : player.handshaked = true) :
      Origin now s event s' dest
        ⟨now, .kReliable, encode { id := player.id, name := player.name : PlayerRenamedMsg }⟩

theorem origin_of_mem {now : Time} {s s' : Server} {event : Event} {outs : List Out} {dest : Peer}
    {sent : Sent} (heffect : Effect now s event s' outs) (hsent : sent ∈ sentTo dest now outs) :
    Origin now s event s' dest sent ∧ (kind sent = some .kReject ∨ joined s' dest = true) := by
  have hchat : ∀ {t : Server} {text : Bytes}, t.players = s'.players →
      sent ∈ sentTo dest now (serverChat t text) →
      Origin now s event s' dest sent ∧ (kind sent = some .kReject ∨ joined s' dest = true) := by
    intro t text hplayers hmem
    obtain ⟨hdest, rfl⟩ := mem_sentTo_serverChat.mp hmem
    refine ⟨.notice text, .inr ?_⟩
    rwa [joined, ← hplayers]
  cases heffect with
  | idle | connected | dropped => cases hsent
  | kicked _ peer reason =>
      rw [sentTo_kick] at hsent
      split at hsent
      · obtain rfl := List.mem_singleton.mp hsent
        exact ⟨.rejected reason, .inl (kind_reject _ _ _)⟩
      · cases hsent
  | joined peer player bytes hello hplayer hshake =>
      have hnew : (seat s peer player hello).players.lookup peer =
          some (welcomedPlayer s player hello) := by
        rw [lookup_seat hplayer, if_pos rfl]
      rw [sentTo_greet] at hsent
      split at hsent
      · rename_i hdest
        subst hdest
        have hjoined : ServerTraffic.joined (seat s peer player hello) peer = true := by
          rw [joined_eq hnew]
          rfl
        refine ⟨?_, .inr hjoined⟩
        rcases List.mem_cons.mp hsent with rfl | hsent
        · exact .welcomed player hello hplayer hshake
        rcases List.mem_append.mp hsent with hcatch | hlast
        · rcases mem_sentTo_catchUp hcatch with
            ⟨d, found, hne, hfound, hshake', hann⟩ | ⟨bot, hbot, hann⟩
          · exact .caughtUp sent d found hne hfound hshake' hann
          · exact .caughtUpBot sent bot hbot hann
        · rw [if_pos hjoined] at hlast
          obtain rfl := List.mem_singleton.mp hlast
          exact .notice _
      · rename_i hne
        split at hsent
        · rename_i hjoined
          refine ⟨?_, .inr hjoined⟩
          rcases List.mem_pair.mp hsent with rfl | rfl
          · exact .arrived peer _ hne hnew rfl
          · exact .notice _
        · cases hsent
  | stated peer player bytes msg hplayer hshake =>
      obtain ⟨⟨hdest, hexcept⟩, rfl⟩ := mem_sentTo_broadcast.mp hsent
      refine ⟨.relayed peer { player with state := msg.state, hasState := true } bytes rfl ?_ ?_
        hshake rfl, .inr hdest⟩
      · rintro rfl
        exact hexcept rfl
      · rw [acceptState, lookup_setPlayer hplayer, if_pos rfl]
  | chatCounted peer player bytes _ hplayer hshake houts =>
      rcases houts with rfl | rfl
      · cases hsent
      · rw [sentTo_send] at hsent
        split at hsent
        · rename_i hdest
          subst hdest
          obtain rfl := List.mem_singleton.mp hsent
          refine ⟨.notice _, .inr ?_⟩
          rw [joined_setPlayer hplayer, if_pos rfl, rollChatWindow_handshaked, hshake]
        · cases hsent
  | chatted peer player bytes chat hplayer hshake hdecode =>
      obtain ⟨⟨hdest, -⟩, rfl⟩ := mem_sentTo_broadcast.mp hsent
      rw [← rollChatWindow_id player now]
      refine ⟨.chatted peer (rollChatWindow player now) bytes chat rfl hdecode ?_ ?_, .inr hdest⟩
      · rw [lookup_setPlayer hplayer, if_pos rfl]
      · rw [rollChatWindow_handshaked, hshake]
  | renamed peer player bytes msg hplayer hshake hdecode =>
      obtain ⟨⟨hdest, -⟩, rfl⟩ := mem_sentTo_broadcast.mp hsent
      refine ⟨.renamed peer { player with name := sanitizeName msg.name } bytes msg rfl hdecode ?_
        hshake, .inr hdest⟩
      rw [lookup_setPlayer hplayer, if_pos rfl]
  | left peer player hplayer hshake =>
      rw [sentTo_append, List.mem_append] at hsent
      rcases hsent with hleft | hlast
      · obtain ⟨⟨hdest, -⟩, rfl⟩ := mem_sentTo_broadcast.mp hleft
        exact ⟨.departed player.id (.inl ⟨peer, player, hplayer, hshake, rfl, rfl⟩), .inr hdest⟩
      · exact hchat rfl hlast
  | botAdded line mode name =>
      obtain ⟨bot, hbots, -, -, houts⟩ := addBot_spec s mode name
      rw [houts, sentTo_append, List.mem_append] at hsent
      rcases hsent with hfirst | hlast
      · obtain ⟨⟨hdest, -⟩, rfl⟩ := mem_sentTo_broadcast.mp hfirst
        exact ⟨.botArrived bot (by simp [hbots]), .inr hdest⟩
      · exact hchat rfl hlast
  | botsRemoved line removed kept hperm =>
      obtain ⟨hdest, bot, hbot, rfl | rfl⟩ := mem_sentTo_farewell hsent
      · exact ⟨.departed bot.id (.inr ⟨removed, kept, bot, hperm, hbot, rfl, rfl⟩), .inr hdest⟩
      · exact ⟨.notice _, .inr hdest⟩
  | said line text => exact hchat rfl hsent
  | botsUpdated pass hkeeps houts =>
      obtain ⟨hdest, bot, hbot, msg, hid, htime, rfl⟩ := mem_sentTo_pass houts hsent
      refine ⟨.botMoved (pass bot).1 msg (List.mem_map_of_mem hbot) ?_ htime, .inr hdest⟩
      rw [hid, (hkeeps bot).1]

end F4MP.ServerOrigins
