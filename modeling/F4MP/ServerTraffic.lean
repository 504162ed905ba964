import F4MP.ServerRun

/-!
Who gets what: the players a message reaches, and what one peer is sent by each of
the ways the server sends.
-/

namespace F4MP.ServerTraffic

open F4MP.Types
open F4MP.Protocol
open F4MP.Messages
open F4MP.ServerModel
open F4MP.ServerRun
open F4MP.Library.HashTable

theorem lookup_setPlayer {s : Server} {peer : Peer} {old : Player}
    (hold : s.players.lookup peer = some old) (player : Player) (c : Peer) :
    (setPlayer s peer player).players.lookup c =
      if c = peer then some player else s.players.lookup c := by
  by_cases h : c = peer
  · subst h
    simp [setPlayer, hold]
  · rw [if_neg h]
    exact lookup_modify_of_ne h _ _

theorem lookup_withoutPlayer (s : Server) (peer c : Peer) :
    (s.players.erase peer).lookup c = if c = peer then none else s.players.lookup c := by
  by_cases h : c = peer
  · subst h
    rw [if_pos rfl]
    exact AList.lookup_erase _ _
  · rw [if_neg h]
    exact AList.lookup_erase_ne h

theorem lookup_connected {s : Server} {peer : Peer} (hnew : s.players.lookup peer = none)
    (player : Player) (c : Peer) :
    (emplace peer player s.players).lookup c =
      if c = peer then some player else s.players.lookup c := by
  by_cases h : c = peer
  · subst h
    rw [if_pos rfl]
    exact lookup_emplace_of_none hnew player
  · rw [if_neg h]
    exact lookup_emplace_of_ne h player _

@[simp] theorem lookup_reorder (s : Server) (order : Shuffle (Sigma fun _ : Peer => Player))
    (c : Peer) : (reorder s order).players.lookup c = s.players.lookup c :=
  lookup_arrange order s.players c

theorem lookup_of_opens {s : Server} {input : Input} {c : Peer} (h : opens s input c = true) :
    s.players.lookup c = none := by
  simp only [opens, Bool.and_eq_true, Option.isNone_iff_eq_none] at h
  exact h.2

/-- A connected peer whose handshake is complete. -/
def joined (s : Server) (peer : Peer) : Bool := (s.players.lookup peer).any (·.handshaked)

theorem joined_iff {s : Server} {peer : Peer} :
    joined s peer = true ↔ ∃ player, s.players.lookup peer = some player ∧
      player.handshaked = true := by
  simp [joined, Option.any_eq_true]

theorem joined_eq_false {s : Server} {peer : Peer} (h : s.players.lookup peer = none) :
    joined s peer = false := by
  simp [joined, h]

theorem joined_eq {s : Server} {peer : Peer} {player : Player}
    (h : s.players.lookup peer = some player) : joined s peer = player.handshaked := by
  simp [joined, h]

@[simp] theorem joined_reorder (s : Server) (order : Shuffle (Sigma fun _ : Peer => Player))
    (c : Peer) : joined (reorder s order) c = joined s c := by
  simp [joined]

theorem joined_setPlayer {s : Server} {peer : Peer} {old : Player}
    (hold : s.players.lookup peer = some old) (player : Player) (c : Peer) :
    joined (setPlayer s peer player) c = if c = peer then player.handshaked else joined s c := by
  rw [joined, lookup_setPlayer hold]
  split <;> rfl

/-- The message type a packet decodes to. -/
def kind (sent : Sent) : Option MsgId := (decode sent.bytes).map Message.id

@[simp] theorem kind_welcome (now : Time) (channel : Channel) (m : WelcomeMsg) :
    kind ⟨now, channel, encode m⟩ = some .kWelcome := by
  rw [kind, decode_welcome]
  rfl

@[simp] theorem kind_reject (now : Time) (channel : Channel) (m : RejectMsg) :
    kind ⟨now, channel, encode m⟩ = some .kReject := by
  rw [kind, decode_reject]
  rfl

@[simp] theorem kind_playerJoined (now : Time) (channel : Channel) (m : PlayerJoinedMsg) :
    kind ⟨now, channel, encode m⟩ = some .kPlayerJoined := by
  rw [kind, decode_playerJoined]
  rfl

@[simp] theorem kind_playerLeft (now : Time) (channel : Channel) (m : PlayerLeftMsg) :
    kind ⟨now, channel, encode m⟩ = some .kPlayerLeft := by
  rw [kind, decode_playerLeft]
  rfl

@[simp] theorem kind_playerStateUpdate (now : Time) (channel : Channel) (m : PlayerStateUpdateMsg) :
    kind ⟨now, channel, encode m⟩ = some .kPlayerStateUpdate := by
  rw [kind, decode_playerStateUpdate]
  rfl

@[simp] theorem kind_chatBroadcast (now : Time) (channel : Channel) (m : ChatBroadcastMsg) :
    kind ⟨now, channel, encode m⟩ = some .kChatBroadcast := by
  rw [kind, decode_chatBroadcast]
  rfl

@[simp] theorem kind_playerRenamed (now : Time) (channel : Channel) (m : PlayerRenamedMsg) :
    kind ⟨now, channel, encode m⟩ = some .kPlayerRenamed := by
  rw [kind, decode_playerRenamed]
  rfl

@[simp] theorem sentTo_nil (c : Peer) (now : Time) : sentTo c now [] = [] := rfl

@[simp] theorem sentTo_append (c : Peer) (now : Time) (outs more : List Out) :
    sentTo c now (outs ++ more) = sentTo c now outs ++ sentTo c now more :=
  List.filterMap_append

theorem sentTo_flatMap {α : Type} (c : Peer) (now : Time) (items : List α)
    (f : α → List Out) :
    sentTo c now (items.flatMap f) = items.flatMap fun item => sentTo c now (f item) := by
  induction items with
  | nil => rfl
  | cons item items ih => simp [ih]

@[simp] theorem sentTo_send (c peer : Peer) (now : Time) (channel : Channel) (bytes : Bytes) :
    sentTo c now (send peer channel bytes) =
      if peer = c then [⟨now, channel, bytes⟩] else [] := by
  by_cases h : peer = c <;> simp [sentTo, send, h]

@[simp] theorem sentTo_kick (c peer : Peer) (now : Time) (reason : Bytes) :
    sentTo c now (kick peer reason) =
      if peer = c then [⟨now, .kReliable, encode { reason : RejectMsg }⟩] else [] := by
  rw [kick, sentTo_append, sentTo_send]
  exact List.append_nil _

theorem sentTo_broadcast (c : Peer) (now : Time) (s : Server) (channel : Channel)
    (bytes : Bytes) (except : Option Peer) :
    sentTo c now (broadcast s channel bytes except) =
      if joined s c = true ∧ some c ≠ except then [⟨now, channel, bytes⟩] else [] := by
  have hone : sentTo c now (broadcast s channel bytes except) =
      s.players.entries.filterMap fun entry =>
        if entry.1 = c then
          if entry.2.handshaked = true ∧ some c ≠ except then
            some ⟨now, channel, bytes⟩
          else none
        else none := by
    rw [sentTo, broadcast, List.filterMap_filterMap]
    apply List.filterMap_congr
    intro entry _
    by_cases hkey : entry.1 = c
    · subst hkey
      cases hshake : entry.2.handshaked <;> by_cases hexcept : some entry.1 = except <;>
        simp [hexcept]
    · cases hshake : entry.2.handshaked <;> by_cases hexcept : some entry.1 = except <;>
        simp [hkey, hexcept]
  refine hone.trans ((filterMap_entries_eq s.players c fun player =>
    if player.handshaked = true ∧ some c ≠ except then
      some (⟨now, channel, bytes⟩ : Sent)
    else none).trans ?_)
  rcases hplayer : s.players.lookup c with _ | player
  · simp [joined, hplayer]
  · by_cases hget : player.handshaked = true ∧ some c ≠ except <;> simp [joined, hplayer, hget]

theorem mem_sentTo_broadcast {c : Peer} {now : Time} {s : Server} {channel : Channel}
    {bytes : Bytes} {except : Option Peer} {sent : Sent} :
    sent ∈ sentTo c now (broadcast s channel bytes except) ↔
      (joined s c = true ∧ some c ≠ except) ∧ sent = ⟨now, channel, bytes⟩ := by
  rw [sentTo_broadcast]
  split
  · rename_i hget
    rw [List.mem_singleton]
    exact ⟨fun h => ⟨hget, h⟩, fun h => h.2⟩
  · rename_i hget
    exact ⟨by rintro ⟨⟩, fun h => absurd h.1 hget⟩

theorem sentTo_serverChat (c : Peer) (now : Time) (s : Server) (text : Bytes) :
    sentTo c now (serverChat s text) =
      if joined s c = true then
        [⟨now, .kReliable, encode { text : ChatBroadcastMsg }⟩]
      else [] := by
  rw [serverChat, sentTo_broadcast]
  simp

theorem mem_sentTo_serverChat {c : Peer} {now : Time} {s : Server} {text : Bytes} {sent : Sent} :
    sent ∈ sentTo c now (serverChat s text) ↔
      joined s c = true ∧ sent = ⟨now, .kReliable, encode { text : ChatBroadcastMsg }⟩ := by
  rw [serverChat, mem_sentTo_broadcast]
  exact ⟨fun h => ⟨h.1.1, h.2⟩, fun h => ⟨⟨h.1, by rintro ⟨⟩⟩, h.2⟩⟩

theorem mem_sentTo_farewell {c : Peer} {now : Time} {s : Server} {bots : List Bot} {sent : Sent}
    (h : sent ∈ sentTo c now (bots.flatMap (farewell s))) :
    joined s c = true ∧
      ∃ bot ∈ bots, sent = ⟨now, .kReliable, encode { id := bot.id : PlayerLeftMsg }⟩ ∨
        sent = ⟨now, .kReliable,
          encode { text := bot.name ++ ascii " left the game" : ChatBroadcastMsg }⟩ := by
  rw [sentTo_flatMap] at h
  obtain ⟨bot, hbot, hmem⟩ := List.mem_flatMap.mp h
  rw [farewell, sentTo_append, List.mem_append, mem_sentTo_broadcast, mem_sentTo_serverChat] at hmem
  rcases hmem with ⟨hget, hsent⟩ | ⟨hget, hsent⟩
  · exact ⟨hget.1, bot, hbot, .inl hsent⟩
  · exact ⟨hget, bot, hbot, .inr hsent⟩

theorem sentTo_announce (c peer : Peer) (now : Time) (stamp : UInt32) (id : PlayerId)
    (name : Bytes) (hasState : Bool) (state : PlayerState F32) :
    sentTo c now (announce peer stamp id name hasState state) =
      if peer = c then
        [⟨now, .kReliable, encode { id, name : PlayerJoinedMsg }⟩] ++
          if hasState then
            [⟨now, .kReliable, encode { id, timeMs := stamp, state : PlayerStateUpdateMsg }⟩]
          else []
      else [] := by
  by_cases h : peer = c <;> cases hasState <;> simp [announce, h]

theorem sentTo_catchUp_of_ne {c peer : Peer} (h : peer ≠ c) (now stamp : Time) (s : Server) :
    sentTo c now (catchUp s stamp peer) = [] := by
  rw [catchUp, sentTo_append, sentTo_flatMap, sentTo_flatMap, List.append_eq_nil_iff]
  constructor
  · apply List.flatMap_eq_nil_iff.mpr
    intro entry _
    split
    · rfl
    · rw [sentTo_announce, if_neg h]
  · apply List.flatMap_eq_nil_iff.mpr
    intro bot _
    rw [sentTo_announce, if_neg h]

theorem sentTo_greet (c peer : Peer) (now : Time) (s : Server) (player : Player) :
    sentTo c now (greet s now peer player) =
      if peer = c then
        ⟨now, .kReliable, encode (welcomeMsg s player)⟩ ::
          (sentTo c now (catchUp s now peer) ++
            if joined s c = true then
              [⟨now, .kReliable,
                encode { text := player.name ++ ascii " joined the game" : ChatBroadcastMsg }⟩]
            else [])
      else if joined s c = true then
        [⟨now, .kReliable, encode { id := player.id, name := player.name : PlayerJoinedMsg }⟩,
          ⟨now, .kReliable,
            encode { text := player.name ++ ascii " joined the game" : ChatBroadcastMsg }⟩]
      else [] := by
  rw [greet, sentTo_append, sentTo_append, sentTo_append, sentTo_send, sentTo_broadcast,
    sentTo_serverChat]
  by_cases h : peer = c
  · subst h
    simp
  · rw [sentTo_catchUp_of_ne h]
    have hne : c ≠ peer := Ne.symm h
    cases joined s c <;> simp [h, hne]

/-- The packets a newcomer is told about one player or bot with. -/
def Announces (sent : Sent) (now : Time) (stamp : UInt32) (id : PlayerId) (name : Bytes)
    (hasState : Bool) (state : PlayerState F32) : Prop :=
  sent = ⟨now, .kReliable, encode { id, name : PlayerJoinedMsg }⟩ ∨
  (hasState = true ∧
    sent = ⟨now, .kReliable, encode { id, timeMs := stamp, state : PlayerStateUpdateMsg }⟩)

theorem mem_sentTo_announce {c peer : Peer} {now : Time} {stamp : UInt32} {id : PlayerId}
    {name : Bytes} {hasState : Bool} {state : PlayerState F32} {sent : Sent}
    (h : sent ∈ sentTo c now (announce peer stamp id name hasState state)) :
    Announces sent now stamp id name hasState state := by
  rw [sentTo_announce] at h
  split at h
  · rcases List.mem_append.mp h with hjoined | hstate
    · exact .inl (List.mem_singleton.mp hjoined)
    · split at hstate
      · rename_i hhas
        exact .inr ⟨hhas, List.mem_singleton.mp hstate⟩
      · cases hstate
  · cases h

theorem mem_sentTo_catchUp {c peer : Peer} {now stamp : Time} {s : Server} {sent : Sent}
    (h : sent ∈ sentTo c now (catchUp s stamp peer)) :
    (∃ d player, d ≠ peer ∧ s.players.lookup d = some player ∧ player.handshaked = true ∧
      Announces sent now (nowMs s stamp) player.id player.name player.hasState player.state) ∨
    ∃ bot ∈ s.bots,
      Announces sent now (nowMs s stamp) bot.id bot.name bot.hasState bot.state := by
  rw [catchUp, sentTo_append, sentTo_flatMap, sentTo_flatMap] at h
  rcases List.mem_append.mp h with hplayers | hbots
  · obtain ⟨⟨d, player⟩, hentry, hmem⟩ := List.mem_flatMap.mp hplayers
    dsimp only at hmem
    split at hmem
    · cases hmem
    · rename_i hkeep
      simp only [Bool.or_eq_true, Bool.not_eq_true', decide_eq_true_eq, not_or] at hkeep
      exact .inl ⟨d, player, hkeep.2, mem_entries_iff.mp hentry, by simpa using hkeep.1,
        mem_sentTo_announce hmem⟩
  · obtain ⟨bot, hbot, hmem⟩ := List.mem_flatMap.mp hbots
    exact .inr ⟨bot, hbot, mem_sentTo_announce hmem⟩

theorem Announces.kind_eq {sent : Sent} {now : Time} {stamp : UInt32} {id : PlayerId}
    {name : Bytes} {hasState : Bool} {state : PlayerState F32}
    (h : Announces sent now stamp id name hasState state) :
    kind sent = some .kPlayerJoined ∨ kind sent = some .kPlayerStateUpdate := by
  rcases h with rfl | ⟨-, rfl⟩
  · exact .inl (kind_playerJoined _ _ _)
  · exact .inr (kind_playerStateUpdate _ _ _)

theorem kind_of_mem_catchUp {c peer : Peer} {now stamp : Time} {s : Server} {sent : Sent}
    (h : sent ∈ sentTo c now (catchUp s stamp peer)) :
    kind sent = some .kPlayerJoined ∨ kind sent = some .kPlayerStateUpdate := by
  rcases mem_sentTo_catchUp h with ⟨_, _, _, _, _, hannounces⟩ | ⟨_, _, hannounces⟩
  · exact hannounces.kind_eq
  · exact hannounces.kind_eq

end F4MP.ServerTraffic
