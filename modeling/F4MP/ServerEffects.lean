import F4MP.ServerTraffic

/-!
What one step of the server can do, said once.  Every input has one of a few
effects on the state and on the network; the invariants of whole runs are proved
effect by effect.
-/

namespace F4MP.ServerEffects

open F4MP.Types
open F4MP.Packet
open F4MP.Protocol
open F4MP.Messages
open F4MP.Arith
open F4MP.ServerModel
open F4MP.ServerConsole
open F4MP.ServerRun
open F4MP.ServerTraffic
open F4MP.Library.HashTable

theorem handlePacket_eq {s : Server} {peer : Peer} {player : Player}
    (hplayer : s.players.lookup peer = some player) (now : Time) (bytes : Bytes) :
    handlePacket s now peer bytes =
      let header := readHeader { data := bytes }
      if header.2.ok = false then (s, [])
      else if player.handshaked = false ∧ header.1 ≠ .kHello then
        (s, kick peer (ascii "Expected handshake"))
      else
        match decode bytes with
        | some (.hello hello) => acceptHello s now peer player hello
        | some (.playerState msg) =>
            if isPlausible msg.state then acceptState s now peer player msg.state else (s, [])
        | some (.chat msg) =>
            if msg.text.isEmpty then (s, []) else acceptChat s now peer player msg.text
        | some (.setName msg) => acceptName s peer player msg.name
        | some _ => (s, [])
        | none =>
            if header.1 = .kHello then (s, kick peer (ascii "Malformed hello")) else (s, []) := by
  simp only [handlePacket, hplayer]
  generalize hheader : readHeader { data := bytes } = header
  obtain ⟨id, r⟩ := header
  by_cases hok : r.ok = true
  swap
  · simp [hok]
  by_cases hgate : player.handshaked = false ∧ id ≠ .kHello
  · simp [hok, hgate]
  have hgate' : (!player.handshaked && id ≠ .kHello) = false := by
    simpa using hgate
  simp only [hok, hgate, hgate', Bool.not_true, Bool.false_eq_true, if_false]
  cases id with
  | kHello =>
      rw [decode_of_header hello_summand hheader hok]
      cases hread : ((WireMessage.read : Read HelloMsg) r).2.ok <;> simp [handleHello, hread]
  | kPlayerState =>
      rw [decode_of_header playerState_summand hheader hok]
      cases hread : ((WireMessage.read : Read PlayerStateMsg) r).2.ok <;> simp [handlePlayerState, hread]
      cases isPlausible _ <;> rfl
  | kChat =>
      rw [decode_of_header chat_summand hheader hok]
      cases hread : ((WireMessage.read : Read ChatMsg) r).2.ok <;> simp [handleChat, hread]
  | kSetName =>
      rw [decode_of_header setName_summand hheader hok]
      cases hread : ((WireMessage.read : Read SetNameMsg) r).2.ok <;> simp [handleSetName, hread]
  | kWelcome =>
      rw [decode_of_header welcome_summand hheader hok]
      cases ((WireMessage.read : Read WelcomeMsg) r).2.ok <;> rfl
  | kReject =>
      rw [decode_of_header reject_summand hheader hok]
      cases ((WireMessage.read : Read RejectMsg) r).2.ok <;> rfl
  | kPlayerJoined =>
      rw [decode_of_header playerJoined_summand hheader hok]
      cases ((WireMessage.read : Read PlayerJoinedMsg) r).2.ok <;> rfl
  | kPlayerLeft =>
      rw [decode_of_header playerLeft_summand hheader hok]
      cases ((WireMessage.read : Read PlayerLeftMsg) r).2.ok <;> rfl
  | kPlayerStateUpdate =>
      rw [decode_of_header playerStateUpdate_summand hheader hok]
      cases ((WireMessage.read : Read PlayerStateUpdateMsg) r).2.ok <;> rfl
  | kChatBroadcast =>
      rw [decode_of_header chatBroadcast_summand hheader hok]
      cases ((WireMessage.read : Read ChatBroadcastMsg) r).2.ok <;> rfl
  | kPlayerRenamed =>
      rw [decode_of_header playerRenamed_summand hheader hok]
      cases ((WireMessage.read : Read PlayerRenamedMsg) r).2.ok <;> rfl
  | other code =>
      have hnone : decode bytes = none := by simp [decode, hheader, hok, readBody, pure]
      simp [hnone]

/-- A new bot is the last one, and is announced to the players. -/
theorem addBot_spec (s : Server) (mode : BotMode) (name : Bytes) :
    ∃ bot, (addBot s mode name).1.bots = s.bots ++ [bot] ∧ bot.id = s.nextId ∧
      bot.name.length ≤ maxPlayerName ∧
      (addBot s mode name).2 =
        broadcast s .kReliable (encode { id := bot.id, name := bot.name : PlayerJoinedMsg }) none ++
          serverChat s (bot.name ++ ascii " joined the game") :=
  ⟨_, rfl, rfl, length_sanitizeName _, rfl⟩

theorem removeBot_some {s : Server} {id : PlayerId} {result : Server × List Out}
    (h : removeBot s id = some result) :
    ∃ bot kept, s.bots.Perm (bot :: kept) ∧ kept.Sublist s.bots ∧
      result = ({ s with bots := kept }, farewell s bot) := by
  unfold removeBot at h
  split at h
  · cases h
  · rename_i bot hfind
    obtain rfl := Option.some.inj h
    obtain ⟨before, after, hbots, hbefore⟩ := List.find?_eq_some_iff_append.mp hfind |>.2
    have herase : s.bots.eraseP (·.id == id) = before ++ after := by
      rw [hbots, List.eraseP_append_right _ fun b hb => by simpa using hbefore b hb]
      simp [(List.find?_eq_some_iff_append.mp hfind).1]
    refine ⟨bot, before ++ after, ?_, ?_, by rw [herase]⟩
    · rw [hbots]
      exact List.perm_middle
    · exact herase ▸ List.eraseP_sublist

theorem removeAllBots_eq (fuel : Nat) (s : Server) :
    ∃ removed kept, s.bots.Perm (removed ++ kept) ∧ kept.Sublist s.bots ∧
      removeAllBots fuel s = ({ s with bots := kept }, removed.flatMap (farewell s)) := by
  induction fuel generalizing s with
  | zero => exact ⟨[], s.bots, .refl _, .refl _, rfl⟩
  | succ fuel ih =>
      unfold removeAllBots
      split
      · exact ⟨[], s.bots, .refl _, .refl _, rfl⟩
      · split
        · exact ⟨[], s.bots, .refl _, .refl _, rfl⟩
        · rename_i hremove
          obtain ⟨bot, rest, hperm, hsub, hresult⟩ := removeBot_some hremove
          obtain ⟨rfl, rfl⟩ := Prod.mk.inj hresult
          obtain ⟨removed, kept, hperm', hsub', hrec⟩ := ih { s with bots := rest }
          refine ⟨bot :: removed, kept, ?_, hsub'.trans hsub, ?_⟩
          · exact hperm.trans (hperm'.cons bot)
          · rw [hrec]
            rfl

theorem removeAllBots_bots (s : Server) : (removeAllBots s.bots.length s).1.bots = [] := by
  suffices h : ∀ (fuel : Nat) (s : Server), s.bots.length ≤ fuel →
      (removeAllBots fuel s).1.bots = [] from h _ s le_rfl
  intro fuel
  induction fuel with
  | zero =>
      intro s hlength
      exact List.length_eq_zero_iff.mp (Nat.le_zero.mp hlength)
  | succ fuel ih =>
      intro s hlength
      unfold removeAllBots
      split
      · rename_i hlast
        exact List.getLast?_eq_none_iff.mp hlast
      · rename_i last hlast
        have hmem : last ∈ s.bots := List.mem_of_getLast? hlast
        split
        · rename_i hnone
          -- the last bot has its own id
          have hfind : s.bots.find? (·.id == last.id) = none := by
            unfold removeBot at hnone
            split at hnone
            · assumption
            · cases hnone
          exact absurd (List.find?_eq_none.mp hfind last hmem) (by simp)
        · rename_i hremove
          obtain ⟨bot, kept, hperm, -, hresult⟩ := removeBot_some hremove
          obtain ⟨rfl, rfl⟩ := Prod.mk.inj hresult
          apply ih
          have hcount := hperm.length_eq
          simp only [List.length_cons] at hcount
          change kept.length ≤ fuel
          omega

section UpdateBots

variable [CppFloat F32] [Libm F32]

theorem updateBot_keeps (s : Server) (now : Time) (dt : F32) (bot : Bot) :
    (updateBot s now dt bot).1.id = bot.id ∧ (updateBot s now dt bot).1.name = bot.name := by
  have hattach : (attachBot s bot).1.id = bot.id ∧ (attachBot s bot).1.name = bot.name := by
    unfold attachBot
    split
    · exact ⟨rfl, rfl⟩
    · split <;> exact ⟨rfl, rfl⟩
  have hstate : ∀ (bot : Bot) (target : Player),
      (botState bot target dt).id = bot.id ∧ (botState bot target dt).name = bot.name := by
    intro bot target
    unfold botState
    split <;> exact ⟨rfl, rfl⟩
  unfold updateBot
  split
  · rename_i attached heq
    rw [heq] at hattach
    exact hattach
  · rename_i attached target heq
    rw [heq] at hattach
    exact ⟨(hstate attached target).1.trans hattach.1, (hstate attached target).2.trans hattach.2⟩

theorem updateBot_outs (s : Server) (now : Time) (dt : F32) (bot : Bot) :
    (updateBot s now dt bot).2 = [] ∨
      (updateBot s now dt bot).2 = broadcast s .kUnreliable
        (encode { id := bot.id, timeMs := nowMs s now,
                  state := (updateBot s now dt bot).1.state : PlayerStateUpdateMsg }) none := by
  have hkeeps := (updateBot_keeps s now dt bot).1
  revert hkeeps
  unfold updateBot
  split
  · intro _
    exact .inl rfl
  · intro hkeeps
    refine .inr ?_
    change (botState _ _ dt).id = bot.id at hkeeps
    rw [← hkeeps]

end UpdateBots

/-- The server once a player whose `Hello` was accepted has its id. -/
def seat (s : Server) (peer : Peer) (player : Player) (hello : HelloMsg) : Server :=
  setPlayer { s with nextId := s.nextId + 1 } peer (welcomedPlayer s player hello)

theorem lookup_seat {s : Server} {peer : Peer} {player : Player}
    (hplayer : s.players.lookup peer = some player) (hello : HelloMsg) (c : Peer) :
    (seat s peer player hello).players.lookup c =
      if c = peer then some (welcomedPlayer s player hello) else s.players.lookup c :=
  lookup_setPlayer (s := { s with nextId := s.nextId + 1 }) hplayer _ c

theorem joined_seat {s : Server} {peer : Peer} {player : Player}
    (hplayer : s.players.lookup peer = some player) (hello : HelloMsg) (c : Peer) :
    joined (seat s peer player hello) c = if c = peer then true else joined s c :=
  joined_setPlayer (s := { s with nextId := s.nextId + 1 }) hplayer _ c

/-- What handling an event can do to the server, and what it sends. -/
inductive Effect (now : Time) (s : Server) : Event → Server → List Out → Prop where
  | idle (event : Event) : Effect now s event s []
  | kicked (event : Event) (peer : Peer) (reason : Bytes) :
      Effect now s event s (kick peer reason)
  | connected (peer : Peer) (hnew : s.players.lookup peer = none) :
      Effect now s (.connect peer)
        { s with players := emplace peer { joinedAt := now } s.players } []
  | joined (peer : Peer) (player : Player) (bytes : Bytes) (hello : HelloMsg)
      (hplayer : s.players.lookup peer = some player) (hshake : player.handshaked = false)
      (hdecode : decode bytes = some (.hello hello))
      (hversion : hello.protocolVersion = currentProtocolVersion) :
      Effect now s (.receive peer bytes) (seat s peer player hello)
        (greet (seat s peer player hello) now peer (welcomedPlayer s player hello))
  | stated (peer : Peer) (player : Player) (bytes : Bytes) (msg : PlayerStateMsg)
      (hplayer : s.players.lookup peer = some player) (hshake : player.handshaked = true)
      (hdecode : decode bytes = some (.playerState msg)) (hok : isPlausible msg.state = true) :
      Effect now s (.receive peer bytes) (acceptState s now peer player msg.state).1
        (acceptState s now peer player msg.state).2
  | chatCounted (peer : Peer) (player : Player) (bytes : Bytes) (outs : List Out)
      (hplayer : s.players.lookup peer = some player) (hshake : player.handshaked = true)
      (houts : outs = [] ∨ outs = send peer .kReliable
        (encode { text := ascii "Slow down." : ChatBroadcastMsg })) :
      Effect now s (.receive peer bytes) (setPlayer s peer (rollChatWindow player now)) outs
  | chatted (peer : Peer) (player : Player) (bytes : Bytes) (msg : ChatMsg)
      (hplayer : s.players.lookup peer = some player) (hshake : player.handshaked = true)
      (hdecode : decode bytes = some (.chat msg)) :
      Effect now s (.receive peer bytes) (setPlayer s peer (rollChatWindow player now))
        (broadcast (setPlayer s peer (rollChatWindow player now)) .kReliable
          (encode { sender := player.id, text := cleanChat msg.text : ChatBroadcastMsg }) none)
  | renamed (peer : Peer) (player : Player) (bytes : Bytes) (msg : SetNameMsg)
      (hplayer : s.players.lookup peer = some player) (hshake : player.handshaked = true)
      (hdecode : decode bytes = some (.setName msg)) :
      Effect now s (.receive peer bytes)
        (setPlayer s peer { player with name := sanitizeName msg.name })
        (broadcast (setPlayer s peer { player with name := sanitizeName msg.name }) .kReliable
          (encode { id := player.id, name := sanitizeName msg.name : PlayerRenamedMsg }) none)
  | left (peer : Peer) (player : Player)
      (hplayer : s.players.lookup peer = some player) (hshake : player.handshaked = true) :
      Effect now s (.disconnect peer) { s with players := s.players.erase peer }
        (broadcast { s with players := s.players.erase peer } .kReliable
            (encode { id := player.id : PlayerLeftMsg }) none ++
          serverChat { s with players := s.players.erase peer }
            (player.name ++ ascii " left the game"))
  | dropped (peer : Peer) (player : Player)
      (hplayer : s.players.lookup peer = some player) (hshake : player.handshaked = false) :
      Effect now s (.disconnect peer) { s with players := s.players.erase peer } []
  | botAdded (line : Bytes) (mode : BotMode) (name : Bytes) :
      Effect now s (.command line) (addBot s mode name).1 (addBot s mode name).2
  | botsRemoved (line : Bytes) (removed kept : List Bot)
      (hperm : s.bots.Perm (removed ++ kept)) (hkept : kept.Sublist s.bots) :
      Effect now s (.command line) { s with bots := kept } (removed.flatMap (farewell s))
  | said (line text : Bytes) : Effect now s (.command line) s (serverChat s text)
  | botsUpdated (pass : Bot → Bot × List Out)
      (hkeeps : ∀ bot, (pass bot).1.id = bot.id ∧ (pass bot).1.name = bot.name)
      (houts : ∀ bot, (pass bot).2 = [] ∨ ∃ msg : PlayerStateUpdateMsg, msg.id = bot.id ∧
        msg.timeMs = nowMs s now ∧
        (pass bot).2 = broadcast s .kUnreliable (encode msg) none) :
      Effect now s .updateBots
        { s with lastBotUpdate := now, bots := s.bots.map fun bot => (pass bot).1 }
        (s.bots.flatMap fun bot => (pass bot).2)

theorem mem_sentTo_pass {s : Server} {c : Peer} {now : Time} {sent : Sent}
    {pass : Bot → Bot × List Out}
    (houts : ∀ bot, (pass bot).2 = [] ∨ ∃ msg : PlayerStateUpdateMsg, msg.id = bot.id ∧
      msg.timeMs = nowMs s now ∧
      (pass bot).2 = broadcast s .kUnreliable (encode msg) none)
    (h : sent ∈ sentTo c now (s.bots.flatMap fun bot => (pass bot).2)) :
    joined s c = true ∧ ∃ bot ∈ s.bots, ∃ msg : PlayerStateUpdateMsg, msg.id = bot.id ∧
      msg.timeMs = nowMs s now ∧ sent = ⟨now, .kUnreliable, encode msg⟩ := by
  rw [sentTo_flatMap] at h
  obtain ⟨bot, hbot, hmem⟩ := List.mem_flatMap.mp h
  rcases houts bot with hnone | ⟨msg, hid, htime, hsent⟩
  · rw [hnone] at hmem
    cases hmem
  · rw [hsent, mem_sentTo_broadcast] at hmem
    exact ⟨hmem.1.1, bot, hbot, msg, hid, htime, hmem.2⟩

theorem acceptHello_effect {s : Server} {now : Time} {peer : Peer} {player : Player}
    {bytes : Bytes} {hello : HelloMsg} (hplayer : s.players.lookup peer = some player)
    (hdecode : decode bytes = some (.hello hello)) :
    Effect now s (.receive peer bytes) (acceptHello s now peer player hello).1
      (acceptHello s now peer player hello).2 := by
  by_cases hversion : hello.protocolVersion = currentProtocolVersion
  · cases hshake : player.handshaked with
    | false =>
        have hjoin : acceptHello s now peer player hello =
            (seat s peer player hello,
              greet (seat s peer player hello) now peer (welcomedPlayer s player hello)) := by
          simp [acceptHello, hversion, hshake, seat]
        rw [hjoin]
        exact .joined peer player bytes hello hplayer hshake hdecode hversion
    | true =>
        have hsame : acceptHello s now peer player hello = (s, []) := by
          simp [acceptHello, hversion, hshake]
        rw [hsame]
        exact .idle _
  · rw [acceptHello, if_pos hversion]
    exact .kicked _ peer _

theorem acceptChat_effect {s : Server} {now : Time} {peer : Peer} {player : Player}
    {bytes : Bytes} {msg : ChatMsg} (hplayer : s.players.lookup peer = some player)
    (hshake : player.handshaked = true) (hdecode : decode bytes = some (.chat msg)) :
    Effect now s (.receive peer bytes) (acceptChat s now peer player msg.text).1
      (acceptChat s now peer player msg.text).2 := by
  unfold acceptChat
  dsimp only
  split
  · split
    · exact .chatCounted peer player bytes _ hplayer hshake (.inr rfl)
    · exact .chatCounted peer player bytes _ hplayer hshake (.inl rfl)
  · split
    · exact .chatCounted peer player bytes _ hplayer hshake (.inl rfl)
    · rw [rollChatWindow_id]
      exact .chatted peer player bytes msg hplayer hshake hdecode

theorem acceptName_effect {s : Server} {now : Time} {peer : Peer} {player : Player}
    {bytes : Bytes} {msg : SetNameMsg} (hplayer : s.players.lookup peer = some player)
    (hshake : player.handshaked = true) (hdecode : decode bytes = some (.setName msg)) :
    Effect now s (.receive peer bytes) (acceptName s peer player msg.name).1
      (acceptName s peer player msg.name).2 := by
  unfold acceptName
  dsimp only
  split
  · exact .idle _
  · exact .renamed peer player bytes msg hplayer hshake hdecode

theorem handlePacket_effect (s : Server) (now : Time) (peer : Peer) (bytes : Bytes) :
    Effect now s (.receive peer bytes) (handlePacket s now peer bytes).1
      (handlePacket s now peer bytes).2 := by
  cases hplayer : s.players.lookup peer with
  | none =>
      simp only [handlePacket, hplayer]
      exact .idle _
  | some player =>
      rw [handlePacket_eq hplayer]
      dsimp only
      split
      · exact .idle _
      split
      · exact .kicked _ peer _
      rename_i hgate
      -- behind the gate, what decodes to anything but a hello comes from a player
      have hshake : ∀ m, decode bytes = some m → m.id ≠ .kHello → player.handshaked = true := by
        intro m hdecode hid
        rw [(header_of_decode hdecode).1] at hgate
        simpa [hid] using hgate
      cases hdecode : decode bytes with
      | none =>
          dsimp only
          split
          · exact .kicked _ peer _
          · exact .idle _
      | some m =>
          have hshake := hshake m hdecode
          cases m with
          | hello hello => exact acceptHello_effect hplayer hdecode
          | playerState msg =>
              dsimp only
              split
              · rename_i hok
                exact .stated peer player bytes msg hplayer (hshake (by rintro ⟨⟩)) hdecode hok
              · exact .idle _
          | chat msg =>
              dsimp only
              split
              · exact .idle _
              · exact acceptChat_effect hplayer (hshake (by rintro ⟨⟩)) hdecode
          | setName msg => exact acceptName_effect hplayer (hshake (by rintro ⟨⟩)) hdecode
          | _ => exact .idle _

theorem removeBot_effect (now : Time) {s : Server} (line : Bytes) {id : PlayerId}
    {result : Server × List Out} (h : removeBot s id = some result) :
    Effect now s (.command line) result.1 result.2 := by
  obtain ⟨bot, kept, hperm, hsub, rfl⟩ := removeBot_some h
  have heffect : Effect now s (.command line) { s with bots := kept }
      ([bot].flatMap (farewell s)) := .botsRemoved line [bot] kept hperm hsub
  rwa [List.flatMap_singleton] at heffect

theorem handleConnect_effect (s : Server) (now : Time) (peer : Peer) :
    Effect now s (.connect peer) (handleConnect s now peer).1 (handleConnect s now peer).2 := by
  cases hplayer : s.players.lookup peer with
  | none => exact .connected peer hplayer
  | some player =>
      rw [handleConnect, emplace_of_some hplayer]
      exact .idle _

theorem handleDisconnect_effect (s : Server) (now : Time) (peer : Peer) :
    Effect now s (.disconnect peer) (handleDisconnect s peer).1 (handleDisconnect s peer).2 := by
  unfold handleDisconnect
  split
  · exact .idle _
  · rename_i player hplayer
    dsimp only
    split
    · rename_i hshake
      exact .left peer player hplayer hshake
    · rename_i hshake
      exact .dropped peer player hplayer (Bool.eq_false_iff.mpr hshake)

section Step

variable [Platform]

theorem executeBot_effect (s : Server) (now : Time) (line : Bytes) (args : List Bytes) :
    Effect now s (.command line) (executeBot s args).1 (executeBot s args).2 := by
  have hremove : ∀ arg, Effect now s (.command line) (executeBotRemove s arg).1
      (executeBotRemove s arg).2 := by
    intro arg
    unfold executeBotRemove
    split
    · obtain ⟨removed, kept, hperm, hsub, hall⟩ := removeAllBots_eq s.bots.length s
      rw [hall]
      exact .botsRemoved line removed kept hperm hsub
    · split
      · exact .idle _
      · rename_i id _
        cases hone : removeBot s (UInt32.ofNat id) with
        | none => exact .idle _
        | some result => exact removeBot_effect now line hone
  have hadd : ∀ args, Effect now s (.command line) (executeBotAdd s args).1
      (executeBotAdd s args).2 := by
    intro args
    unfold executeBotAdd
    split
    · split
      · exact .botAdded line _ _
      · split <;> exact .botAdded line _ _
    · exact .botAdded line _ _
  unfold executeBot
  split
  · split
    · exact hadd _
    · split
      · split
        · exact hremove _
        · exact .idle _
      · exact .idle _
  · exact .idle _

theorem executeKick_effect (s : Server) (now : Time) (line : Bytes) (args : List Bytes) :
    Effect now s (.command line) (executeKick s line args).1 (executeKick s line args).2 := by
  unfold executeKick
  split
  · split
    · exact .idle _
    · split
      · rename_i hremove
        exact removeBot_effect now line hremove
      · split
        · exact .idle _
        · split
          · exact .kicked _ _ _
          · exact .idle _
  · exact .idle _

theorem executeCommand_effect (s : Server) (now : Time) (line : Bytes) :
    Effect now s (.command line) (executeCommand s line).1 (executeCommand s line).2 := by
  unfold executeCommand
  split
  · exact .idle _
  · split
    · exact executeBot_effect s now line _
    · split
      · unfold executeSay
        split
        · exact .idle _
        · exact .said line _
      · split
        · exact executeKick_effect s now line _
        · exact .idle _

variable [CppFloat F32] [Libm F32]

omit [Platform] in
theorem updateBots_effect (s : Server) (now : Time) :
    Effect now s .updateBots (updateBots s now).1 (updateBots s now).2 := by
  unfold updateBots
  split
  · exact .idle _
  · split
    · exact .idle _
    · dsimp only
      generalize (if CppFloat.ofRat (1 / 4) < seconds (now - s.lastBotUpdate) then
        seconds botUpdateInterval else seconds (now - s.lastBotUpdate)) = dt
      apply Effect.botsUpdated fun bot => updateBot { s with lastBotUpdate := now } now dt bot
      · exact updateBot_keeps _ now dt
      · intro bot
        rcases updateBot_outs { s with lastBotUpdate := now } now dt bot with hnone | hsent
        · exact .inl hnone
        · exact .inr ⟨_, rfl, rfl, hsent⟩

theorem handle_effect (s : Server) (now : Time) (event : Event) :
    Effect now s event (handle s now event).1 (handle s now event).2 := by
  cases event with
  | connect peer => exact handleConnect_effect s now peer
  | receive peer bytes => exact handlePacket_effect s now peer bytes
  | disconnect peer => exact handleDisconnect_effect s now peer
  | updateBots => exact updateBots_effect s now
  | command line => exact executeCommand_effect s now line

theorem step_effect (s : Server) (input : Input) :
    Effect input.now (reorder s input.order) input.event (step s input).1 (step s input).2 :=
  handle_effect _ _ _

end Step

/-- What a step does to the record of one connection. -/
theorem Effect.lookup_cases {now : Time} {s s' : Server} {event : Event} {outs : List Out}
    (h : Effect now s event s' outs) (c : Peer) :
    s'.players.lookup c = s.players.lookup c ∨
    (event = .connect c ∧ s.players.lookup c = none ∧
      s'.players.lookup c = some { joinedAt := now }) ∨
    (event = .disconnect c ∧ s'.players.lookup c = none) ∨
    (∃ player bytes hello, event = .receive c bytes ∧ s.players.lookup c = some player ∧
      player.handshaked = false ∧ decode bytes = some (.hello hello) ∧
      hello.protocolVersion = currentProtocolVersion ∧ s' = seat s c player hello ∧
      outs = greet (seat s c player hello) now c (welcomedPlayer s player hello)) ∨
    (∃ player player' bytes, event = .receive c bytes ∧ s.players.lookup c = some player ∧
      player.handshaked = true ∧ s'.players.lookup c = some player' ∧
      player'.handshaked = true ∧ player'.id = player.id) := by
  -- a player who was heard: its own record keeps the id, the others are not touched
  have hheard : ∀ {peer : Peer} {player : Player} {bytes : Bytes} (player' : Player),
      s.players.lookup peer = some player → player.handshaked = true →
      player'.handshaked = true → player'.id = player.id →
      (setPlayer s peer player').players.lookup c = s.players.lookup c ∨
      ∃ player₀ player₁ bytes', Event.receive peer bytes = .receive c bytes' ∧
        s.players.lookup c = some player₀ ∧ player₀.handshaked = true ∧
        (setPlayer s peer player').players.lookup c = some player₁ ∧
        player₁.handshaked = true ∧ player₁.id = player₀.id := by
    intro peer player bytes player' hplayer hshake hshake' hid
    by_cases hc : c = peer
    · subst hc
      exact .inr ⟨player, player', bytes, rfl, hplayer, hshake,
        by rw [lookup_setPlayer hplayer, if_pos rfl], hshake', hid⟩
    · exact .inl (by rw [lookup_setPlayer hplayer, if_neg hc])
  cases h with
  | idle | kicked | botAdded | botsRemoved | said | botsUpdated => exact .inl rfl
  | connected peer hnew =>
      by_cases hc : c = peer
      · subst hc
        exact .inr (.inl ⟨rfl, hnew, by rw [lookup_connected hnew, if_pos rfl]⟩)
      · exact .inl (by rw [lookup_connected hnew, if_neg hc])
  | joined peer player bytes hello hplayer hshake hdecode hversion =>
      by_cases hc : c = peer
      · subst hc
        exact .inr (.inr (.inr (.inl
          ⟨player, bytes, hello, rfl, hplayer, hshake, hdecode, hversion, rfl, rfl⟩)))
      · exact .inl (by rw [lookup_seat hplayer, if_neg hc])
  | stated peer player bytes msg hplayer hshake =>
      rcases hheard { player with state := msg.state, hasState := true }
        hplayer hshake hshake rfl with hkept | hown
      · exact .inl hkept
      · exact .inr (.inr (.inr (.inr hown)))
  | chatCounted peer player bytes _ hplayer hshake | chatted peer player bytes _ hplayer hshake =>
      rcases hheard (rollChatWindow player now) hplayer hshake (by simpa using hshake)
        (by simp) with hkept | hown
      · exact .inl hkept
      · exact .inr (.inr (.inr (.inr hown)))
  | renamed peer player bytes msg hplayer hshake =>
      rcases hheard { player with name := sanitizeName msg.name }
        hplayer hshake hshake rfl with hkept | hown
      · exact .inl hkept
      · exact .inr (.inr (.inr (.inr hown)))
  | left peer | dropped peer =>
      by_cases hc : c = peer
      · subst hc
        exact .inr (.inr (.inl ⟨rfl, by rw [lookup_withoutPlayer, if_pos rfl]⟩))
      · exact .inl (by rw [lookup_withoutPlayer, if_neg hc])

end F4MP.ServerEffects
