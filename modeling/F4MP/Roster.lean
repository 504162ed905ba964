import F4MP.Handshake
import F4MP.Library.PartialView
import F4MP.Native
import F4MP.Participants

/-!
The player list a client builds from the reliable messages after its welcome is
the list of the other players and the bots the server has.
-/

namespace F4MP.Roster

open F4MP.Types
open F4MP.Protocol
open F4MP.Messages
open F4MP.Arith
open F4MP.ServerModel
open F4MP.ServerConsole
open F4MP.ServerRun
open F4MP.ServerTraffic
open F4MP.ServerEffects
open F4MP.ServerOrigins
open F4MP.Handshake
open F4MP.Participants
open F4MP.Library.HashTable
open F4MP.Library.PartialView

abbrev Names := PlayerId → Option Bytes

/-- What a message does to the names known to the client whose id is `self`. -/
def hear (self : PlayerId) (names : Names) : Message → Names
  | .playerJoined m => Function.update names m.id (some m.name)
  | .playerRenamed m =>
      if m.id = self then names
      else Function.update names m.id ((names m.id).map fun _ => m.name)
  | .playerLeft m => Function.update names m.id none
  | _ => names

/-- The reliable messages of a log, in send order. -/
def heard (link : List Sent) : List Message :=
  (link.filter fun sent => sent.channel = .kReliable).filterMap fun sent => decode sent.bytes

/-- What a log has after the first welcome. -/
def sinceWelcome (link : List Sent) : List Sent :=
  (link.dropWhile fun sent => kind sent ≠ some .kWelcome).tail

/-- The player list of a client after a log. -/
def rosterOf (self : PlayerId) (link : List Sent) : Names :=
  (heard link).foldl (hear self) fun _ => none

/-- Who is in the game besides the player at `c`, under which name. -/
def Present (s : Server) (c : Peer) (id : PlayerId) (name : Bytes) : Prop :=
  (∃ peer player, peer ≠ c ∧ s.players.lookup peer = some player ∧ player.handshaked = true ∧
    player.id = id ∧ player.name = name) ∨
  ∃ bot ∈ s.bots, bot.id = id ∧ bot.name = name

@[simp] theorem heard_nil : heard [] = [] := rfl

@[simp] theorem heard_append (link more : List Sent) :
    heard (link ++ more) = heard link ++ heard more := by
  simp [heard]

@[simp] theorem heard_reliable (now : Time) (bytes : Bytes) (link : List Sent) :
    heard (⟨now, .kReliable, bytes⟩ :: link) = (decode bytes).toList ++ heard link := by
  cases hdecode : decode bytes <;> simp [heard, hdecode]

@[simp] theorem heard_unreliable (now : Time) (bytes : Bytes) (link : List Sent) :
    heard (⟨now, .kUnreliable, bytes⟩ :: link) = heard link := by
  simp [heard]

theorem sinceWelcome_append {link : List Sent} (h : ∃ sent ∈ link, IsWelcome sent)
    (more : List Sent) : sinceWelcome (link ++ more) = sinceWelcome link ++ more := by
  have hsome : (link.dropWhile fun sent => kind sent ≠ some .kWelcome) ≠ [] := by
    intro hnil
    obtain ⟨sent, hsent, hwelcome⟩ := h
    have hall := List.dropWhile_eq_nil_iff.mp hnil sent hsent
    rw [show kind sent = some .kWelcome from hwelcome] at hall
    simp at hall
  rw [sinceWelcome, List.dropWhile_append]
  split
  · rename_i hempty
    exact absurd (List.isEmpty_iff.mp hempty) hsome
  · exact List.tail_append_of_ne_nil hsome

theorem sinceWelcome_rejects {rejects rest : List Sent} {welcome : Sent}
    (hrejects : ∀ sent ∈ rejects, IsReject sent) (hwelcome : IsWelcome welcome) :
    sinceWelcome (rejects ++ welcome :: rest) = rest := by
  have hskip : ∀ sent ∈ rejects, decide (kind sent ≠ some .kWelcome) = true := by
    intro sent hsent
    rw [show kind sent = some .kReject from hrejects sent hsent]
    rfl
  have hkind : kind welcome = some .kWelcome := hwelcome
  rw [sinceWelcome, List.dropWhile_append_of_pos hskip]
  simp [hkind]

theorem cut_name {name : Bytes} (h : name.length ≤ maxPlayerName) :
    name.take Packet.maxStringBytes = name :=
  List.take_of_length_le (h.trans (by decide))

theorem cut_playerJoined {id : PlayerId} {name : Bytes} (h : name.length ≤ maxPlayerName) :
    (Message.playerJoined { id, name }).cut = .playerJoined { id, name } := by
  rw [Message.cut, Message.mapStrings, cut_name h]

theorem cut_playerRenamed {id : PlayerId} {name : Bytes} (h : name.length ≤ maxPlayerName) :
    (Message.playerRenamed { id, name }).cut = .playerRenamed { id, name } := by
  rw [Message.cut, Message.mapStrings, cut_name h]

/-- The id and the name of a player who is in the game. -/
def badge (s : Server) (peer : Peer) : Option (PlayerId × Bytes) :=
  ((s.players.lookup peer).filter (·.handshaked)).map fun player => (player.id, player.name)

theorem badge_eq_some {s : Server} {peer : Peer} {id : PlayerId} {name : Bytes} :
    badge s peer = some (id, name) ↔ ∃ player, s.players.lookup peer = some player ∧
      player.handshaked = true ∧ player.id = id ∧ player.name = name := by
  simp [badge, Option.map_eq_some_iff, Option.filter_eq_some_iff, and_assoc]

theorem badge_of_lookup {s : Server} {peer : Peer} {player : Player}
    (hplayer : s.players.lookup peer = some player) (hshake : player.handshaked = true) :
    badge s peer = some (player.id, player.name) :=
  badge_eq_some.mpr ⟨player, hplayer, hshake, rfl, rfl⟩

theorem badge_setPlayer_same {s : Server} {peer : Peer} {player player' : Player}
    (hplayer : s.players.lookup peer = some player)
    (hshake : player'.handshaked = player.handshaked) (hid : player'.id = player.id)
    (hname : player'.name = player.name) : badge (setPlayer s peer player') = badge s := by
  funext d
  rw [badge, badge, lookup_setPlayer hplayer]
  split
  · rename_i hd
    subst hd
    rw [hplayer]
    simp [Option.filter_some, hshake, hid, hname]
  · rfl

theorem badge_setPlayer {s : Server} {peer : Peer} {player : Player} (player' : Player)
    (hplayer : s.players.lookup peer = some player) (hshake' : player'.handshaked = true)
    (d : Peer) : badge (setPlayer s peer player') d =
      if d = peer then some (player'.id, player'.name) else badge s d := by
  rw [badge, lookup_setPlayer hplayer]
  split
  · simp [hshake']
  · rfl

theorem badge_withoutPlayer (s : Server) (peer d : Peer) :
    badge { s with players := s.players.erase peer } d = if d = peer then none else badge s d := by
  rw [badge, lookup_withoutPlayer]
  split <;> rfl

theorem present_iff {s : Server} {c : Peer} {id : PlayerId} {name : Bytes} :
    Present s c id name ↔ (∃ peer, peer ≠ c ∧ badge s peer = some (id, name)) ∨
      (id, name) ∈ s.bots.map fun bot => (bot.id, bot.name) := by
  have hplayers : (∃ peer player, peer ≠ c ∧ s.players.lookup peer = some player ∧
      player.handshaked = true ∧ player.id = id ∧ player.name = name) ↔
      ∃ peer, peer ≠ c ∧ badge s peer = some (id, name) := by
    simp only [badge_eq_some, exists_and_left]
  rw [Present, hplayers]
  simp

theorem present_congr {s s' : Server} {c : Peer} (hbadge : ∀ d, d ≠ c → badge s' d = badge s d)
    (hbots : s'.bots.map (fun bot => (bot.id, bot.name)) =
      s.bots.map fun bot => (bot.id, bot.name)) (id : PlayerId) (name : Bytes) :
    Present s' c id name ↔ Present s c id name := by
  rw [present_iff, present_iff, hbots]
  refine or_congr_left (exists_congr fun peer => and_congr_right fun hne => ?_)
  rw [hbadge peer hne]

theorem mem_heard {link : List Sent} {m : Message} :
    m ∈ heard link ↔ ∃ sent ∈ link, sent.channel = .kReliable ∧ decode sent.bytes = some m := by
  simp [heard, and_assoc]

theorem foldl_hear_ignored {self : PlayerId} {messages : List Message}
    (h : ∀ m ∈ messages, ∀ names, hear self names m = names) (names : Names) :
    messages.foldl (hear self) names = names := by
  induction messages with
  | nil => rfl
  | cons m messages ih =>
      rw [List.foldl_cons, h m (by simp)]
      exact ih fun m hm => h m (by simp [hm])

theorem foldl_hear_farewell {s : Server} {c : Peer} (hc : joined s c = true) (self : PlayerId)
    (now : Time) (removed : List Bot) (names : Names) :
    (heard (sentTo c now (removed.flatMap (farewell s)))).foldl (hear self) names =
      eraseAll names (removed.map (·.id)) := by
  induction removed generalizing names with
  | nil => rfl
  | cons bot removed ih =>
      rw [List.flatMap_cons, sentTo_append, heard_append, List.foldl_append, ih, farewell,
        sentTo_append, sentTo_broadcast, sentTo_serverChat]
      simp [hc, Message.cut, Message.mapStrings, hear]

theorem badge_inj {s : Server} (hids : IdsDistinct s) {c d : Peer} {id : PlayerId}
    {name other : Bytes} (hc : badge s c = some (id, name)) (hd : badge s d = some (id, other)) :
    c = d := by
  obtain ⟨a, ha, hshake, hida, -⟩ := badge_eq_some.mp hc
  obtain ⟨b, hb, hshake', hidb, -⟩ := badge_eq_some.mp hd
  exact hids.players ha hshake hb hshake' (hida.trans hidb.symm)

theorem badge_ne_bot {s : Server} (hids : IdsDistinct s) {c : Peer} {id : PlayerId}
    {name : Bytes} (hc : badge s c = some (id, name)) {bot : Bot} (hbot : bot ∈ s.bots) :
    bot.id ≠ id := by
  obtain ⟨a, ha, hshake, hida, -⟩ := badge_eq_some.mp hc
  exact fun hid => hids.apart ha hshake hbot (hida.trans hid.symm)

theorem present_enter {s s' : Server} (hids' : IdsDistinct s') {c peer : Peer} (hne : peer ≠ c)
    {id : PlayerId} {name : Bytes}
    (hbadge : ∀ d, badge s' d = if d = peer then some (id, name) else badge s d)
    (hbots : s'.bots = s.bots)
    (hold : ∀ k v, badge s peer = some (k, v) → k = id) (k : PlayerId) (v : Bytes) :
    Present s' c k v ↔ (k = id ∧ v = name) ∨ (k ≠ id ∧ Present s c k v) := by
  have hpeer : badge s' peer = some (id, name) := by rw [hbadge, if_pos rfl]
  rw [present_iff, present_iff, hbots]
  constructor
  · rintro (⟨d, hd, hfound⟩ | hbot)
    · have hall := hfound
      rw [hbadge] at hfound
      split at hfound
      · cases hfound
        exact .inl ⟨rfl, rfl⟩
      · rename_i hdne
        refine .inr ⟨?_, .inl ⟨d, hd, hfound⟩⟩
        rintro rfl
        exact hdne (badge_inj hids' hall hpeer)
    · refine .inr ⟨?_, .inr hbot⟩
      rintro rfl
      obtain ⟨bot, hmem, heq⟩ := List.mem_map.mp hbot
      exact badge_ne_bot hids' hpeer (hbots ▸ hmem) (congrArg Prod.fst heq)
  · rintro (⟨rfl, rfl⟩ | ⟨hk, ⟨d, hd, hfound⟩ | hbot⟩)
    · exact .inl ⟨peer, hne, hpeer⟩
    · refine .inl ⟨d, hd, ?_⟩
      rw [hbadge, if_neg, hfound]
      rintro rfl
      exact hk (hold k v hfound)
    · exact .inr hbot

theorem present_leave {s s' : Server} (hids : IdsDistinct s) {c peer : Peer}
    {id : PlayerId} {name : Bytes} (hpeer : badge s peer = some (id, name))
    (hbadge : ∀ d, badge s' d = if d = peer then none else badge s d)
    (hbots : s'.bots = s.bots) (k : PlayerId) (v : Bytes) :
    Present s' c k v ↔ k ≠ id ∧ Present s c k v := by
  rw [present_iff, present_iff, hbots]
  constructor
  · rintro (⟨d, hd, hfound⟩ | hbot)
    · rw [hbadge] at hfound
      split at hfound
      · cases hfound
      · rename_i hdne
        refine ⟨?_, .inl ⟨d, hd, hfound⟩⟩
        rintro rfl
        exact hdne (badge_inj hids hfound hpeer)
    · refine ⟨?_, .inr hbot⟩
      rintro rfl
      obtain ⟨bot, hmem, heq⟩ := List.mem_map.mp hbot
      exact badge_ne_bot hids hpeer hmem (congrArg Prod.fst heq)
  · rintro ⟨hk, ⟨d, hd, hfound⟩ | hbot⟩
    · refine .inl ⟨d, hd, ?_⟩
      rw [hbadge, if_neg, hfound]
      rintro rfl
      rw [hpeer] at hfound
      cases hfound
      exact hk rfl
    · exact .inr hbot

theorem present_addBot {s : Server} {mode : BotMode} {name : Bytes}
    (hids' : IdsDistinct (addBot s mode name).1) {c : Peer} {bot : Bot}
    (hbots : (addBot s mode name).1.bots = s.bots ++ [bot]) (k : PlayerId) (v : Bytes) :
    Present (addBot s mode name).1 c k v ↔
      (k = bot.id ∧ v = bot.name) ∨ (k ≠ bot.id ∧ Present s c k v) := by
  have hbot : bot ∈ (addBot s mode name).1.bots := by simp [hbots]
  have hbadge : badge (addBot s mode name).1 = badge s := rfl
  have hnodup := hids'.bots
  rw [hbots, List.map_append, List.nodup_append] at hnodup
  rw [present_iff, present_iff, hbots, List.map_append, List.mem_append]
  constructor
  · rintro (⟨d, hd, hfound⟩ | hold | hnew)
    · refine .inr ⟨?_, .inl ⟨d, hd, hfound⟩⟩
      rintro rfl
      exact badge_ne_bot hids' (hbadge ▸ hfound) hbot rfl
    · refine .inr ⟨?_, .inr hold⟩
      rintro rfl
      obtain ⟨other, hmem, heq⟩ := List.mem_map.mp hold
      exact hnodup.2.2 _ (List.mem_map_of_mem hmem) _ (by simp) (congrArg Prod.fst heq)
    · cases List.mem_singleton.mp hnew
      exact .inl ⟨rfl, rfl⟩
  · rintro (⟨rfl, rfl⟩ | ⟨-, hplayer | hold⟩)
    · exact .inr (.inr (by simp))
    · exact .inl hplayer
    · exact .inr (.inl hold)

theorem present_removeBots {s : Server} (hids : IdsDistinct s) {removed kept : List Bot}
    (hperm : s.bots.Perm (removed ++ kept)) {c : Peer} (k : PlayerId) (v : Bytes) :
    Present { s with bots := kept } c k v ↔ k ∉ removed.map (·.id) ∧ Present s c k v := by
  have hnodup := (hperm.map (·.id)).nodup_iff.mp hids.bots
  rw [List.map_append, List.nodup_append] at hnodup
  have hbots := (hperm.map fun bot => (bot.id, bot.name)).mem_iff (a := (k, v))
  rw [List.map_append, List.mem_append] at hbots
  rw [present_iff, present_iff, hbots]
  constructor
  · rintro (⟨d, hd, hfound⟩ | hkept)
    · refine ⟨fun hgone => ?_, .inl ⟨d, hd, hfound⟩⟩
      obtain ⟨bot, hmem, heq⟩ := List.mem_map.mp hgone
      exact badge_ne_bot hids hfound (hperm.mem_iff.mpr (List.mem_append_left _ hmem)) heq
    · refine ⟨fun hgone => ?_, .inr (.inr hkept)⟩
      obtain ⟨bot, hmem, heq⟩ := List.mem_map.mp hkept
      exact hnodup.2.2 _ hgone _ (List.mem_map_of_mem hmem) (congrArg Prod.fst heq).symm
  · rintro ⟨hk, hplayer | hgone | hkept⟩
    · exact .inl hplayer
    · obtain ⟨bot, hmem, heq⟩ := List.mem_map.mp hgone
      exact absurd (List.mem_map.mpr ⟨bot, hmem, congrArg Prod.fst heq⟩) hk
    · exact .inr hkept

section Effects

variable {now : Time} {s s' : Server} {event : Event} {outs : List Out} {c : Peer}

theorem shows_effect (heffect : Effect now s event s' outs) (hids : IdsDistinct s)
    (hids' : IdsDistinct s') (hnames : NamesFit s') {player : Player}
    (hplayer : s.players.lookup c = some player) (hshake : player.handshaked = true)
    (hc' : joined s' c = true) {names : Names} (h : Shows names (Present s c)) :
    Shows ((heard (sentTo c now outs)).foldl (hear player.id) names) (Present s' c) := by
  have hc : joined s c = true := joined_iff.mpr ⟨player, hplayer, hshake⟩
  -- the cases in which nothing anybody sees has changed
  have hsame : ∀ {link : List Sent}, (∀ m ∈ heard link, ∀ names, hear player.id names m = names) →
      (∀ d, d ≠ c → badge s' d = badge s d) →
      s'.bots.map (fun bot => (bot.id, bot.name)) = s.bots.map (fun bot => (bot.id, bot.name)) →
      Shows ((heard link).foldl (hear player.id) names) (Present s' c) := by
    intro link hquiet hbadge hbots
    rw [foldl_hear_ignored hquiet]
    exact h.congr (present_congr hbadge hbots)
  cases heffect with
  | idle => exact h
  | kicked peer reason =>
      refine hsame ?_ (fun _ _ => rfl) rfl
      rw [sentTo_kick]
      split <;> simp [Message.cut, Message.mapStrings, hear]
  | connected peer hnew =>
      refine hsame (by simp) (fun d _ => ?_) rfl
      rw [badge, badge, lookup_connected hnew]
      split
      · rename_i hd
        rw [hd, hnew]
        rfl
      · rfl
  | joined peer new bytes hello hnew hnewShake =>
      have hne : peer ≠ c := by
        rintro rfl
        rw [joined_eq hnew, hnewShake] at hc
        cases hc
      have hname := length_sanitizeName hello.name
      rw [sentTo_greet, if_neg hne, if_pos hc']
      simp only [heard_reliable, decode_playerJoined, decode_chatBroadcast, welcomedPlayer,
        cut_playerJoined hname]
      refine h.insert (present_enter hids' hne ?_ rfl ?_)
      · exact badge_setPlayer (s := { s with nextId := s.nextId + 1 }) _ hnew rfl
      · intro k v hbadge
        simp [badge, hnew, hnewShake] at hbadge
  | stated peer other bytes msg hother hotherShake =>
      refine hsame ?_ (fun d _ => ?_) rfl
      · rw [acceptState, sentTo_broadcast]
        split <;> simp
      · rw [acceptState, badge_setPlayer_same hother] <;> rfl
  | chatCounted peer other bytes _ hother hotherShake houts =>
      refine hsame ?_ (fun d _ => congrFun (badge_setPlayer_same hother (by simp) (by simp)
        (by simp)) d) rfl
      rcases houts with rfl | rfl
      · simp
      · rw [sentTo_send]
        split <;> simp [Message.cut, Message.mapStrings, hear]
  | chatted peer other bytes msg hother hotherShake =>
      refine hsame ?_ (fun d _ => congrFun (badge_setPlayer_same hother (by simp) (by simp)
        (by simp)) d) rfl
      rw [sentTo_broadcast]
      split <;> simp [Message.cut, Message.mapStrings, hear]
  | renamed peer other bytes msg hother hotherShake =>
      have hbadge := badge_setPlayer { other with name := sanitizeName msg.name }
        hother hotherShake
      have hold := badge_of_lookup hother hotherShake
      rw [sentTo_broadcast, if_pos ⟨hc', by rintro ⟨⟩⟩]
      simp only [heard_reliable, decode_playerRenamed, Option.toList_some, heard_nil,
        cut_playerRenamed (length_sanitizeName msg.name), List.append_nil, List.foldl_cons,
        List.foldl_nil, hear]
      by_cases hne : peer = c
      · -- a client does not rename itself
        subst hne
        obtain rfl := Option.some.inj (hother.symm.trans hplayer)
        rw [if_pos rfl]
        refine h.congr (present_congr (fun d hd => ?_) rfl)
        rw [hbadge, if_neg hd]
      · have hid : other.id ≠ player.id := fun hid =>
          hne (hids.players hother hotherShake hplayer hshake hid)
        have hknown : names other.id = some other.name :=
          (h _ _).mpr (.inl ⟨peer, other, hne, hother, hotherShake, rfl, rfl⟩)
        rw [if_neg hid, hknown]
        refine h.insert (present_enter hids' hne hbadge rfl fun k v hfound => ?_)
        rw [hold] at hfound
        cases hfound
        rfl
  | left peer other hother hotherShake =>
      have hne : peer ≠ c := by
        rintro rfl
        simp [joined] at hc'
      rw [sentTo_append, sentTo_broadcast, sentTo_serverChat, if_pos ⟨hc', by rintro ⟨⟩⟩, if_pos hc']
      simp only [List.cons_append, List.nil_append, heard_reliable, decode_playerLeft,
        decode_chatBroadcast]
      refine h.erase (present_leave hids (badge_of_lookup hother hotherShake) ?_ rfl)
      exact badge_withoutPlayer s peer
  | dropped peer other hother hotherShake =>
      refine hsame (by simp) (fun d _ => ?_) rfl
      rw [badge_withoutPlayer]
      split
      · rename_i hd
        rw [badge, hd, hother]
        simp [hotherShake]
      · rfl
  | botAdded line mode name =>
      obtain ⟨bot, hbots, -, hname, houts⟩ := addBot_spec s mode name
      rw [houts, sentTo_append, sentTo_broadcast, sentTo_serverChat, if_pos ⟨hc, by rintro ⟨⟩⟩, if_pos hc]
      simp only [List.cons_append, List.nil_append, heard_reliable, decode_playerJoined,
        decode_chatBroadcast, cut_playerJoined hname]
      exact h.insert (present_addBot hids' hbots)
  | botsRemoved line removed kept hperm hkept =>
      rw [foldl_hear_farewell hc]
      exact (h.eraseAll _).congr (present_removeBots hids hperm)
  | said line text =>
      refine hsame ?_ (fun _ _ => rfl) rfl
      rw [sentTo_serverChat]
      split <;> simp [Message.cut, Message.mapStrings, hear]
  | botsUpdated pass hkeeps houts =>
      refine hsame ?_ (fun _ _ => rfl) ?_
      · intro m hm
        obtain ⟨sent, hsent, hreliable, -⟩ := mem_heard.mp hm
        obtain ⟨-, bot, -, msg, -, -, rfl⟩ := mem_sentTo_pass houts hsent
        cases hreliable
      · rw [List.map_map]
        apply List.map_congr_left
        intro bot _
        change ((pass bot).1.id, (pass bot).1.name) = _
        rw [(hkeeps bot).1, (hkeeps bot).2]

def others (s : Server) (c : Peer) : List (PlayerId × Bytes) :=
  (s.players.entries.filterMap fun entry =>
    if !entry.2.handshaked || entry.1 = c then none else some (entry.2.id, entry.2.name)) ++
    s.bots.map fun bot => (bot.id, bot.name)

theorem mem_others {id : PlayerId} {name : Bytes} : (id, name) ∈ others s c ↔ Present s c id name := by
  rw [others, List.mem_append, List.mem_filterMap, Present]
  refine or_congr ?_ (by simp)
  constructor
  · rintro ⟨⟨peer, player⟩, hmem, hsome⟩
    split at hsome
    · cases hsome
    · rename_i hkeep
      cases hsome
      simp only [Bool.or_eq_true, Bool.not_eq_true', decide_eq_true_eq, not_or] at hkeep
      exact ⟨peer, player, hkeep.2, mem_entries_iff.mp hmem, by simpa using hkeep.1, rfl, rfl⟩
  · rintro ⟨peer, player, hne, hplayer, hshake, rfl, rfl⟩
    exact ⟨⟨peer, player⟩, mem_entries_iff.mpr hplayer, by simp [hshake, hne]⟩

theorem present_functional (hids : IdsDistinct s) {id : PlayerId} {v w : Bytes}
    (hv : Present s c id v) (hw : Present s c id w) : v = w := by
  rw [present_iff] at hv hw
  rcases hv with ⟨d, -, hd⟩ | hv <;> rcases hw with ⟨e, -, he⟩ | hw
  · obtain rfl := badge_inj hids hd he
    cases hd.symm.trans he
    rfl
  · obtain ⟨bot, hbot, heq⟩ := List.mem_map.mp hw
    exact absurd (congrArg Prod.fst heq) (badge_ne_bot hids hd hbot)
  · obtain ⟨bot, hbot, heq⟩ := List.mem_map.mp hv
    exact absurd (congrArg Prod.fst heq) (badge_ne_bot hids he hbot)
  · obtain ⟨bot, hbot, heq⟩ := List.mem_map.mp hv
    obtain ⟨bot', hbot', heq'⟩ := List.mem_map.mp hw
    have hsame : bot = bot' := List.inj_on_of_nodup_map hids.bots hbot hbot'
      ((congrArg Prod.fst heq).trans (congrArg Prod.fst heq').symm)
    subst hsame
    exact (congrArg Prod.snd heq).symm.trans (congrArg Prod.snd heq')

theorem foldl_hear_flatMap {α : Type} {self : PlayerId} {items : List α} {f : α → List Out}
    {g : α → Option (PlayerId × Bytes)}
    (h : ∀ item ∈ items, ∀ names, (heard (sentTo c now (f item))).foldl (hear self) names =
      insertAll names (g item).toList)
    (names : Names) :
    (heard (sentTo c now (items.flatMap f))).foldl (hear self) names =
      insertAll names (items.filterMap g) := by
  induction items generalizing names with
  | nil => rfl
  | cons item items ih =>
      rw [List.flatMap_cons, sentTo_append, heard_append, List.foldl_append, h item (by simp),
        ih fun item hitem => h item (by simp [hitem])]
      cases hg : g item <;> simp [hg]

theorem foldl_hear_catchUp (hnames : NamesFit s) (self : PlayerId) (stamp : Time) (names : Names) :
    (heard (sentTo c now (catchUp s stamp c))).foldl (hear self) names =
      insertAll names (others s c) := by
  have hannounce : ∀ {id name hasState state}, name.length ≤ maxPlayerName → ∀ names : Names,
      (heard (sentTo c now (announce c (nowMs s stamp) id name hasState state))).foldl (hear self)
        names = Function.update names id (some name) := by
    intro id name hasState state hname names
    rw [sentTo_announce, if_pos rfl]
    cases hasState <;> simp [cut_playerJoined hname, hear]
  rw [catchUp, sentTo_append, heard_append, List.foldl_append, others, insertAll_append,
    ← List.filterMap_eq_map]
  rw [foldl_hear_flatMap, foldl_hear_flatMap]
  · rintro ⟨peer, player⟩ hentry names
    dsimp only
    split
    · rfl
    · rename_i hkeep
      simp only [Bool.or_eq_true, Bool.not_eq_true', not_or] at hkeep
      exact hannounce (hnames.player (mem_entries_iff.mp hentry) (by simpa using hkeep.1)) names
  · intro bot hbot names
    exact hannounce (hnames.bot hbot) names

/-- The id a message makes a client create or move a player under. -/
def introduces : Message → Option PlayerId
  | .playerJoined m => some m.id
  | .playerStateUpdate m => some m.id
  | _ => none

def NoEcho (id : PlayerId) (link : List Sent) : Prop :=
  ∀ sent ∈ link, ∀ m, decode sent.bytes = some m → introduces m ≠ some id

theorem noEcho_of_kind {link : List Sent} {id : PlayerId}
    (h : ∀ sent ∈ link, kind sent ≠ some .kPlayerJoined ∧ kind sent ≠ some .kPlayerStateUpdate) :
    NoEcho id link := by
  intro sent hsent m hdecode
  have hkind := h sent hsent
  rw [kind, hdecode] at hkind
  cases m with
  | playerJoined m => exact absurd rfl hkind.1
  | playerStateUpdate m => exact absurd rfl hkind.2
  | _ => rintro ⟨⟩

theorem introduces_of_announces {sent : Sent} {stamp : UInt32} {id : PlayerId} {name : Bytes}
    {hasState : Bool} {state : PlayerState F32}
    (h : Announces sent now stamp id name hasState state) {m : Message}
    (hdecode : decode sent.bytes = some m) : introduces m = some id := by
  rcases h with rfl | ⟨-, rfl⟩
  · rw [decode_playerJoined] at hdecode
    obtain rfl := Option.some.inj hdecode
    rfl
  · rw [decode_playerStateUpdate] at hdecode
    obtain rfl := Option.some.inj hdecode
    rfl

theorem noEcho_effect (heffect : Effect now s event s' outs) (hids' : IdsDistinct s')
    {player : Player} (hplayer' : s'.players.lookup c = some player)
    (hshake : player.handshaked = true) : NoEcho player.id (sentTo c now outs) := by
  intro sent hsent m hdecode hself
  have hother : ∀ {peer : Peer} {found : Player}, peer ≠ c → s'.players.lookup peer = some found →
      found.handshaked = true → found.id ≠ player.id := fun hne hfound hshake' hid =>
    hne (hids'.players hfound hshake' hplayer' hshake hid)
  have hbots : ∀ {bot : Bot}, bot ∈ s'.bots → bot.id ≠ player.id := fun hbot hid =>
    hids'.apart hplayer' hshake hbot hid.symm
  have horigin := (origin_of_mem heffect hsent).1
  cases horigin with
  | caughtUp _ peer found hne hfound hshake' hannounces =>
      rw [introduces_of_announces hannounces hdecode] at hself
      exact hother hne hfound hshake' (Option.some.inj hself)
  | caughtUpBot _ bot hbot hannounces =>
      rw [introduces_of_announces hannounces hdecode] at hself
      exact hbots hbot (Option.some.inj hself)
  | arrived peer found hne hfound hshake' =>
      cases (decode_playerJoined _).symm.trans hdecode
      exact hother hne hfound hshake' (Option.some.inj hself)
  | botArrived bot hbot =>
      cases (decode_playerJoined _).symm.trans hdecode
      exact hbots hbot (Option.some.inj hself)
  | relayed peer found bytes hevent hne hfound hshake' =>
      cases (decode_playerStateUpdate _).symm.trans hdecode
      exact hother hne hfound hshake' (Option.some.inj hself)
  | botMoved bot msg hbot hid =>
      cases (decode_playerStateUpdate _).symm.trans hdecode
      exact hbots hbot (hid.symm.trans (Option.some.inj hself))
  | rejected => cases (decode_reject _).symm.trans hdecode; cases hself
  | notice | chatted => cases (decode_chatBroadcast _).symm.trans hdecode; cases hself
  | welcomed => cases (decode_welcome _).symm.trans hdecode; cases hself
  | departed => cases (decode_playerLeft _).symm.trans hdecode; cases hself
  | renamed => cases (decode_playerRenamed _).symm.trans hdecode; cases hself

theorem noEcho_rejects {rejects : List Sent} (h : ∀ sent ∈ rejects, IsReject sent)
    (id : PlayerId) : NoEcho id rejects := by
  apply noEcho_of_kind
  intro sent hsent
  rw [show kind sent = some .kReject from h sent hsent]
  decide

theorem NoEcho.append {id : PlayerId} {link more : List Sent} (h : NoEcho id link)
    (hmore : NoEcho id more) : NoEcho id (link ++ more) := by
  intro sent hsent
  exact (List.mem_append.mp hsent).elim (h sent) (hmore sent)

end Effects

/-- The list a player has built is the list of the others. -/
def Synced (s : Server) (c : Peer) (link : List Sent) : Prop :=
  ∀ player, s.players.lookup c = some player → player.handshaked = true →
    Shows (rosterOf player.id (sinceWelcome link)) (Present s c) ∧ NoEcho player.id link

theorem synced_effect {now : Time} {s s' : Server} {event : Event} {outs : List Out} {c : Peer}
    {link : List Sent} (heffect : Effect now s event s' outs) (hids : IdsDistinct s)
    (hids' : IdsDistinct s') (hnames' : NamesFit s') (hgated : Gated s c link)
    (h : Synced s c link) : Synced s' c (link ++ sentTo c now outs) := by
  intro player' hplayer' hshake'
  have hc' : joined s' c = true := joined_iff.mpr ⟨player', hplayer', hshake'⟩
  obtain ⟨id, hgate, hid⟩ := hgated
  cases hc : joined s c with
  | true =>
      obtain ⟨player, hplayer, hshake⟩ := joined_iff.mp hc
      obtain ⟨hshows, hecho⟩ := h player hplayer hshake
      have hsame := (still_joined heffect hplayer hshake hplayer').2
      have hquiet := noEcho_effect heffect hids' hplayer' hshake'
      have hsome : ∃ sent ∈ link, IsWelcome sent := by
        rw [hgate.welcome_iff, hid player hplayer, if_pos hshake]
        rfl
      rw [hsame] at hquiet ⊢
      rw [sinceWelcome_append hsome, rosterOf, heard_append, List.foldl_append]
      exact ⟨shows_effect heffect hids hids' hnames' hplayer hshake hc' hshows,
        hecho.append hquiet⟩
  | false =>
      obtain ⟨player, bytes, hello, -, -, -, hplayer, hshake, rfl, rfl⟩ :=
        welcome_answers_hello heffect hc hc'
      have hnone := hid player hplayer
      rw [hshake] at hnone
      subst hnone
      cases hgate with
      | closed hrejects =>
          rw [sentTo_greet, if_pos rfl, if_pos hc']
          refine ⟨?_, ?_⟩
          · have hfill : Shows (insertAll (fun _ => none) (others (seat s c player hello) c))
                (Present (seat s c player hello) c) := by
              refine (shows_insertAll fun key v w hv hw => ?_).congr fun key value => mem_others.symm
              exact present_functional hids' (mem_others.mp hv) (mem_others.mp hw)
            rw [sinceWelcome_rejects hrejects (kind_welcome _ _ _), rosterOf, heard_append,
              List.foldl_append, foldl_hear_catchUp hnames']
            simpa [Message.cut, Message.mapStrings, hear] using hfill
          · refine (noEcho_rejects hrejects _).append ?_
            have hquiet := noEcho_effect heffect hids' hplayer' hshake'
            rwa [sentTo_greet, if_pos rfl, if_pos hc'] at hquiet

theorem Synced.reorder {s : Server} {c : Peer} {link : List Sent} (h : Synced s c link)
    (order : Shuffle (Sigma fun _ : Peer => Player)) :
    Synced (ServerRun.reorder s order) c link := by
  intro player hplayer hshake
  obtain ⟨hshows, hecho⟩ := h player (by simpa using hplayer) hshake
  refine ⟨hshows.congr fun id name => ?_, hecho⟩
  simp only [Present, lookup_reorder]
  rfl

section Runs

variable [CppFloat F32] [Libm F32] [Platform]

theorem synced_of_distinct (config : Config) (startTime : Time) (inputs : List Input) (c : Peer)
    (hids : ∀ before, before <+: inputs →
      IdsDistinct (Network.after config startTime before).server) :
    Synced (Network.after config startTime inputs).server c
      ((Network.after config startTime inputs).link c) := by
  induction inputs using List.reverseRecOn with
  | nil => rintro _ ⟨⟩
  | append_singleton inputs input ih =>
      have hbefore := hids inputs (List.prefix_append _ _)
      have hafter := hids _ (List.prefix_refl _)
      have hnames' := namesFit_after config startTime (inputs ++ [input])
      rw [Network.after_concat] at hafter hnames' ⊢
      refine synced_effect (step_effect _ input)
        (hbefore.keeps (keeps_reorder _ input.order)) hafter hnames' ?_ ?_
      · exact (gated_after config startTime inputs c).opens input
      · split
        · rename_i hopens
          intro player hplayer
          rw [lookup_reorder, lookup_of_opens hopens] at hplayer
          cases hplayer
        · refine (ih fun before hinit => ?_).reorder input.order
          exact hids before (hinit.trans (List.prefix_append _ _))

theorem synced_after (config : Config) (startTime : Time) (inputs : List Input) (c : Peer)
    (hissued : (Network.after config startTime inputs).issued < 2 ^ 32 - 1) :
    Synced (Network.after config startTime inputs).server c
      ((Network.after config startTime inputs).link c) :=
  synced_of_distinct config startTime inputs c (idsDistinct_of_earlier hissued)

/-- The player list a client builds from what it was sent since its welcome has
exactly the other players and the bots, under their names, and no packet makes the
client create or move itself. -/
theorem roster_simulation (config : Config) (startTime : Time) (inputs : List Input) (c : Peer)
    (player : Player)
    (hissued : (Network.after config startTime inputs).issued < 2 ^ 32 - 2)
    (hplayer : (Network.after config startTime inputs).server.players.lookup c = some player)
    (hshake : player.handshaked = true) :
    let net := Network.after config startTime inputs
    (∀ id name, rosterOf player.id (sinceWelcome (net.link c)) id = some name ↔
      Present net.server c id name) ∧
    ∀ sent ∈ net.link c,
      (∀ msg, decode sent.bytes = some (.playerJoined msg) → msg.id ≠ player.id) ∧
      (∀ msg, decode sent.bytes = some (.playerStateUpdate msg) → msg.id ≠ player.id) := by
  obtain ⟨hshows, hecho⟩ := synced_after config startTime inputs c (hissued.trans (by decide)) player
    hplayer hshake
  refine ⟨hshows, fun sent hsent => ⟨fun msg hdecode hid => ?_, fun msg hdecode hid => ?_⟩⟩
  · exact hecho sent hsent _ hdecode (congrArg some hid)
  · exact hecho sent hsent _ hdecode (congrArg some hid)

end Runs

section Example

open F4MP.Native

/-- The second of two players knows the first by name. -/
theorem roster_of_second :
    rosterOf 2 (sinceWelcome ((Network.after {} 0 twoPlayers).link 1)) 1 = some (ascii "Ada") := by
  refine ((roster_simulation {} 0 twoPlayers 1 { id := 2, name := ascii "Bob", handshaked := true }
    (by decide +kernel) (by decide +kernel) rfl).1 1 (ascii "Ada")).mpr (.inl ?_)
  exact ⟨0, { id := 1, name := ascii "Ada", handshaked := true }, by decide, by decide +kernel,
    rfl, rfl, rfl⟩

end Example

end F4MP.Roster
