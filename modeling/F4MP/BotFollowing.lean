import F4MP.Native
import F4MP.ServerAlike

/-!
Whom the bots follow: a bot keeps to its player as long as that one is connected with a
state, and goes to the player with the smallest id otherwise.
-/

namespace F4MP.BotFollowing

open F4MP.Types
open F4MP.Protocol
open F4MP.Messages
open F4MP.Arith
open F4MP.ServerModel
open F4MP.ServerConsole
open F4MP.ServerRun
open F4MP.ServerTraffic
open F4MP.ServerAlike
open F4MP.Participants
open F4MP.Library.HashTable

def WithState (s : Server) (player : Player) : Prop :=
  ∃ peer, s.players.lookup peer = some player ∧ player.handshaked = true ∧
    player.hasState = true

section Lookups

variable {s : Server}

theorem mem_roll_iff {entry : Sigma fun _ : Peer => Player} :
    entry ∈ roll s ↔ s.players.lookup entry.1 = some entry.2 ∧ entry.2.handshaked = true := by
  rw [roll, List.mem_filter, mem_entries_iff]

theorem WithState.mem_roll {player : Player} (h : WithState s player) :
    ∃ entry ∈ roll s, entry.2 = player ∧ entry.2.hasState = true := by
  obtain ⟨peer, hplayer, hshake, hstate⟩ := h
  exact ⟨⟨peer, player⟩, mem_roll_iff.mpr ⟨hplayer, hshake⟩, rfl, hstate⟩

theorem withState_of_mem_roll {entry : Sigma fun _ : Peer => Player} (hmem : entry ∈ roll s)
    (hstate : entry.2.hasState = true) : WithState s entry.2 :=
  ⟨entry.1, (mem_roll_iff.mp hmem).1, (mem_roll_iff.mp hmem).2, hstate⟩

theorem findPlayer_spec {id : PlayerId} {entry : Sigma fun _ : Peer => Player}
    (h : findPlayer s id = some entry) : entry ∈ roll s ∧ entry.2.id = id := by
  rw [findPlayer_eq_roll] at h
  exact ⟨List.mem_of_find?_eq_some h, by simpa using List.find?_some h⟩

theorem findPlayer_of_withState (hids : IdsDistinct s) {player : Player}
    (h : WithState s player) : ∃ entry, findPlayer s player.id = some entry ∧ entry.2 = player := by
  obtain ⟨peer, hplayer, hshake, -⟩ := h
  cases hfound : findPlayer s player.id with
  | none =>
      rw [findPlayer_eq_roll] at hfound
      have hnone := List.find?_eq_none.mp hfound ⟨peer, player⟩ (mem_roll_iff.mpr ⟨hplayer, hshake⟩)
      simp at hnone
  | some entry =>
      obtain ⟨hmem, hid⟩ := findPlayer_spec hfound
      obtain ⟨hentry, hshake'⟩ := mem_roll_iff.mp hmem
      rw [hids.players hentry hshake' hplayer hshake hid, hplayer] at hentry
      exact ⟨entry, rfl, (Option.some.inj hentry).symm⟩

/-- Whom a bot is attached to. -/
inductive Attach (s : Server) (bot : Bot) : Option Player → Prop
  | kept (player : Player) (hstate : WithState s player) (hfollow : player.id = bot.follow) :
      Attach s bot (some player)
  | taken (player : Player) (hstate : WithState s player)
      (hgone : ∀ other, WithState s other → other.id ≠ bot.follow)
      (hleast : ∀ other, WithState s other → player.id ≤ other.id) : Attach s bot (some player)
  | none (hnobody : ∀ player, ¬ WithState s player) : Attach s bot none

theorem attachBot_spec (hids : IdsDistinct s) (bot : Bot) :
    (attachBot s bot).1 =
      { bot with follow := ((attachBot s bot).2.map (·.id)).getD invalidPlayerId } ∧
    Attach s bot (attachBot s bot).2 := by
  obtain ⟨hall, hfrom⟩ := firstPlayerWithState_spec s
  rw [attachBot]
  cases hfound : (findPlayer s bot.follow).filter (·.2.hasState) with
  | some entry =>
      obtain ⟨hentry, hstate⟩ := Option.filter_eq_some_iff.mp hfound
      obtain ⟨hmem, hid⟩ := findPlayer_spec hentry
      exact ⟨by simp [hid], .kept _ (withState_of_mem_roll hmem hstate) hid⟩
  | none =>
      have hgone : ∀ other, WithState s other → other.id ≠ bot.follow := by
        intro other hother hid
        obtain ⟨entry, hentry, rfl⟩ := findPlayer_of_withState hids hother
        obtain ⟨-, -, -, hstate⟩ := hother
        rw [← hid, hentry, Option.filter_some, if_pos hstate] at hfound
        cases hfound
      cases hfirst : firstPlayerWithState s with
      | some entry =>
          obtain ⟨hmem, hstate⟩ := hfrom entry hfirst
          refine ⟨rfl, .taken _ (withState_of_mem_roll hmem hstate) hgone fun other hother => ?_⟩
          obtain ⟨entry', hmem', rfl, hstate'⟩ := hother.mem_roll
          obtain ⟨found, hfound', hle⟩ := hall entry' hmem' hstate'
          rw [hfirst] at hfound'
          cases hfound'
          exact hle
      | none =>
          refine ⟨rfl, .none fun player hplayer => ?_⟩
          obtain ⟨entry, hmem, -, hstate⟩ := hplayer.mem_roll
          obtain ⟨found, hfound', -⟩ := hall entry hmem hstate
          rw [hfirst] at hfound'
          cases hfound'

end Lookups

section Pass

variable [CppFloat F32] [Libm F32] {s : Server}

/-- The fields a bot has from the player it follows. -/
structure Shadows (bot : Bot) (player : Player) : Prop where
  worldspaceId : bot.state.worldspaceId = player.state.worldspaceId
  cellId : bot.state.cellId = player.state.cellId
  flags : bot.state.flags = player.state.flags
  health : bot.state.health = player.state.health
  maxHealth : bot.state.maxHealth = player.state.maxHealth
  mirror : bot.mode = .kMirror →
    bot.state.position.x = player.state.position.x + botMirrorOffset ∧
      bot.state.position.y = player.state.position.y ∧
      bot.state.position.z = player.state.position.z ∧ bot.state.yaw = player.state.yaw

/-- What a pass makes of a bot. -/
structure Following (s : Server) (bot bot' : Bot) : Prop where
  same : bot'.id = bot.id ∧ bot'.name = bot.name ∧ bot'.mode = bot.mode
  follows : (∃ player, WithState s player ∧ bot'.follow = player.id ∧ bot'.hasState = true ∧
    Shadows bot' player) ∨ bot'.follow = invalidPlayerId ∧ bot'.hasState = false
  idle : (bot'.follow = invalidPlayerId ∧ bot'.hasState = false) ↔ ∀ player, ¬ WithState s player
  sticky : ∀ player, WithState s player → player.id = bot.follow → bot'.follow = bot.follow
  smallest : (∀ player, WithState s player → player.id ≠ bot.follow) →
    ∀ player, WithState s player → bot'.follow ≤ player.id

theorem botState_spec (bot : Bot) (player : Player) (dt : F32) :
    ((botState bot player dt).id = bot.id ∧ (botState bot player dt).name = bot.name ∧
      (botState bot player dt).mode = bot.mode) ∧
    (botState bot player dt).follow = bot.follow ∧ (botState bot player dt).hasState = true ∧
    Shadows (botState bot player dt) player := by
  obtain ⟨id, name, mode, follow, hasState, state, phase⟩ := bot
  cases mode with
  | kMirror =>
      exact ⟨⟨rfl, rfl, rfl⟩, rfl, rfl, rfl, rfl, rfl, rfl, rfl, fun _ => ⟨rfl, rfl, rfl, rfl⟩⟩
  | kOrbit => exact ⟨⟨rfl, rfl, rfl⟩, rfl, rfl, rfl, rfl, rfl, rfl, rfl, by rintro ⟨⟩⟩

/-- A bot that goes on with a player who has a state: the one it followed if that one
has, the one with the smallest id if not. -/
theorem following_botState {bot : Bot} {player : Player} (hstate : WithState s player)
    (hvalid : player.id ≠ invalidPlayerId)
    (hsticky : ∀ other, WithState s other → other.id = bot.follow → player.id = bot.follow)
    (hsmallest : (∀ other, WithState s other → other.id ≠ bot.follow) →
      ∀ other, WithState s other → player.id ≤ other.id) (dt : F32) :
    Following s bot (botState { bot with follow := player.id } player dt) := by
  obtain ⟨hsame, hfollow, hhas, hshadows⟩ := botState_spec { bot with follow := player.id } player dt
  refine ⟨hsame, .inl ⟨player, hstate, hfollow, hhas, hshadows⟩, ?_, ?_, ?_⟩
  · refine ⟨fun hidle => absurd (hfollow.symm.trans hidle.1) hvalid, fun hnobody => ?_⟩
    exact absurd hstate (hnobody player)
  · exact fun other hother hid => hfollow.trans (hsticky other hother hid)
  · intro hgone other hother
    rw [hfollow]
    exact hsmallest hgone other hother

def botUpdate (s : Server) (now : Time) (bot : Bot) : List Out :=
  if bot.hasState then
    broadcast s .kUnreliable
      (encode { id := bot.id, timeMs := nowMs s now, state := bot.state : PlayerStateUpdateMsg })
      none
  else []

/-- The state a client is sent for a bot. -/
def stateSent (s : Server) (now : Time) (bot : Bot) : Sent where
  sentAt := now
  channel := .kUnreliable
  bytes :=
    encode { id := bot.id, timeMs := nowMs s now, state := bot.state : PlayerStateUpdateMsg }

omit [CppFloat F32] [Libm F32] in
theorem sentTo_botUpdate (c : Peer) (now : Time) (bot : Bot) :
    sentTo c now (botUpdate s now bot) =
      if joined s c = true ∧ bot.hasState = true then [stateSent s now bot] else [] := by
  rw [botUpdate]
  cases bot.hasState with
  | false => simp
  | true =>
      rw [if_pos rfl, sentTo_broadcast]
      simp [stateSent]

omit [CppFloat F32] [Libm F32] in
theorem sentTo_botUpdates (c : Peer) (now : Time) (bots : List Bot) :
    sentTo c now (bots.flatMap (botUpdate s now)) =
      if joined s c then (bots.filter (·.hasState)).map (stateSent s now) else [] := by
  rw [sentTo_flatMap]
  induction bots with
  | nil => simp
  | cons bot bots ih =>
      rw [List.flatMap_cons, ih, sentTo_botUpdate]
      cases joined s c <;> cases hhas : bot.hasState <;> simp [hhas]

theorem updateBot_spec (hids : IdsDistinct s)
    (hvalid : ∀ player, WithState s player → player.id ≠ invalidPlayerId) (now : Time) (dt : F32)
    (bot : Bot) :
    Following s bot (updateBot s now dt bot).1 ∧
      (updateBot s now dt bot).2 = botUpdate s now (updateBot s now dt bot).1 := by
  obtain ⟨hbot, hattach⟩ := attachBot_spec hids bot
  rw [updateBot]
  generalize attachBot s bot = attached at hbot hattach
  obtain ⟨moved, target⟩ := attached
  dsimp only at hbot hattach
  subst hbot
  have hsent : ∀ player : Player, broadcast s .kUnreliable (encode
      { id := (botState { bot with follow := player.id } player dt).id, timeMs := nowMs s now,
        state := (botState { bot with follow := player.id } player dt).state :
          PlayerStateUpdateMsg }) none =
      botUpdate s now (botState { bot with follow := player.id } player dt) := by
    intro player
    rw [botUpdate, if_pos (botState_spec _ player dt).2.2.1]
  cases hattach with
  | kept player hstate hfollow =>
      refine ⟨following_botState hstate (hvalid player hstate) (fun _ _ _ => hfollow) ?_ dt,
        hsent player⟩
      exact fun hgone => absurd hfollow (hgone player hstate)
  | taken player hstate hgone hleast =>
      refine ⟨following_botState hstate (hvalid player hstate) ?_ (fun _ => hleast) dt,
        hsent player⟩
      exact fun other hother hid => absurd hid (hgone other hother)
  | none hnobody =>
      refine ⟨⟨⟨rfl, rfl, rfl⟩, .inr ⟨rfl, rfl⟩, ⟨fun _ => hnobody, fun _ => ⟨rfl, rfl⟩⟩, ?_, ?_⟩,
        rfl⟩
      · exact fun player hplayer => absurd hplayer (hnobody player)
      · exact fun _ player hplayer => absurd hplayer (hnobody player)

/-- A pass that is due gives every bot its place and sends the states that result. -/
theorem updateBots_spec (hids : IdsDistinct s)
    (hvalid : ∀ player, WithState s player → player.id ≠ invalidPlayerId) {now : Time}
    (hdue : botUpdateInterval ≤ now - s.lastBotUpdate) :
    List.Forall₂ (Following s) s.bots (updateBots s now).1.bots ∧
      (updateBots s now).2 = (updateBots s now).1.bots.flatMap (botUpdate s now) := by
  rw [updateBots]
  cases hbots : s.bots with
  | nil =>
      rw [if_pos (by simp)]
      exact ⟨by rw [hbots]; exact .nil, by rw [hbots]; rfl⟩
  | cons first rest =>
      have hone := updateBot_spec (s := { s with lastBotUpdate := now })
        ⟨hids.players, hids.bots, hids.apart⟩ hvalid now
      rw [if_neg (by simp), if_neg (not_lt.mpr hdue), ← hbots]
      dsimp only
      refine ⟨?_, ?_⟩
      · rw [List.forall₂_map_right_iff, List.forall₂_same]
        intro bot _
        obtain ⟨hsame, hfollows, hidle, hsticky, hsmallest⟩ := (hone _ bot).1
        exact ⟨hsame, hfollows, hidle, hsticky, hsmallest⟩
      · rw [List.flatMap_map]
        exact List.flatMap_congr fun bot _ => (hone _ bot).2

variable [Platform]

/-- After a pass of any run that is due, every bot follows whom it should and has the
fields of that player, and every player is sent one state for each bot that has one. -/
theorem bots_follow (config : Config) (startTime : Time) (inputs : List Input) {pass : Input}
    (hpass : pass.event = .updateBots)
    (hids : IdsDistinct (Network.after config startTime inputs).server)
    (hvalid : ∀ peer player,
      (Network.after config startTime inputs).server.players.lookup peer = some player →
      player.handshaked = true → player.id ≠ invalidPlayerId)
    (hdue : botUpdateInterval ≤
      pass.now - (Network.after config startTime inputs).server.lastBotUpdate) :
    let s := (Network.after config startTime inputs).server
    List.Forall₂ (Following s) s.bots (step s pass).1.bots ∧
      ∀ c, sentTo c pass.now (step s pass).2 =
        if joined s c then ((step s pass).1.bots.filter (·.hasState)).map (stateSent s pass.now)
        else [] := by
  intro s
  have hreorder : WithState (reorder s pass.order) = WithState s := by
    funext player
    simp only [WithState, lookup_reorder]
  have hvalid' : ∀ player, WithState (reorder s pass.order) player →
      player.id ≠ invalidPlayerId := by
    rw [hreorder]
    rintro player ⟨peer, hplayer, hshake, -⟩
    exact hvalid peer player hplayer hshake
  have hids' : IdsDistinct (reorder s pass.order) :=
    ⟨fun ha hshake hb => hids.players ((lookup_reorder s _ _).symm.trans ha) hshake
      ((lookup_reorder s _ _).symm.trans hb), hids.bots,
      fun ha => hids.apart ((lookup_reorder s _ _).symm.trans ha)⟩
  obtain ⟨hbots, houts⟩ := updateBots_spec hids' hvalid' hdue
  rw [step, hpass]
  refine ⟨hbots.imp fun bot bot' h => ?_, fun c => ?_⟩
  · obtain ⟨hsame, hfollows, hidle, hsticky, hsmallest⟩ := h
    rw [hreorder] at hfollows hidle hsticky hsmallest
    exact ⟨hsame, hfollows, hidle, hsticky, hsmallest⟩
  · change sentTo c pass.now (updateBots (reorder s pass.order) pass.now).2 = _
    rw [houts, sentTo_botUpdates, joined_reorder]
    rfl

end Pass

section Example

open F4MP.Native

def botForSecond : List Input :=
  twoPlayers ++
    [⟨1, .keep _, .receive 1 (encode { state := .initial F32 : PlayerStateMsg })⟩,
      ⟨2, .keep _, .command (ascii "bot add")⟩]

theorem bot_follows_second :
    let s := (Network.after {} 0 botForSecond).server
    List.Forall₂ (Following s) s.bots (step s ⟨60000000, .keep _, .updateBots⟩).1.bots := by
  have hissued := idsIssued_after {} 0 botForSecond (by decide +kernel)
  have hcount : (Network.after {} 0 botForSecond).issued = 3 := by decide +kernel
  refine (bots_follow {} 0 botForSecond rfl hissued.distinct ?_ (by decide +kernel)).1
  rintro peer player hplayer hshake hid
  have hle := (hissued.player_pos hplayer hshake).2
  rw [hid, hcount] at hle
  exact absurd hle (by decide)

end Example

end F4MP.BotFollowing
