import F4MP.Roster

/-!
The log of a connection as a chronicle: whom it speaks of is or was in the game, is
introduced in it, and is not spoken of on the reliable channel after leaving.
-/

namespace F4MP.Chronicle

open F4MP.Types
open F4MP.Protocol
open F4MP.Messages
open F4MP.Arith
open F4MP.ServerModel
open F4MP.ServerConsole
open F4MP.ServerRun
open F4MP.ServerTraffic
open F4MP.ServerEffects
open F4MP.ServerOrigins
open F4MP.Handshake
open F4MP.Participants
open F4MP.Roster
open F4MP.Library.HashTable

/-- The player or bot a message speaks of as being in the game. -/
def concerns : Message → Option PlayerId
  | .playerJoined m => some m.id
  | .playerRenamed m => some m.id
  | .playerStateUpdate m => some m.id
  | _ => none

/-- The player or bot a message takes out of the game. -/
def departs : Message → Option PlayerId
  | .playerLeft m => some m.id
  | _ => none

/-- The packet speaks of the id as being in the game. -/
def Concerns (sent : Sent) (id : PlayerId) : Prop := (decode sent.bytes).bind concerns = some id

def Leaves (sent : Sent) (id : PlayerId) : Prop := (decode sent.bytes).bind departs = some id

theorem not_concerns_of_leaves {sent : Sent} {id other : PlayerId} (h : Leaves sent id) :
    ¬ Concerns sent other := by
  intro hconcerns
  obtain ⟨m, hdecode, hdeparts⟩ := Option.bind_eq_some_iff.mp h
  rw [Concerns, hdecode, Option.bind_some] at hconcerns
  cases m with
  | playerLeft => cases hconcerns
  | _ => cases hdeparts

theorem not_concerns_of_reject {sent : Sent} (h : IsReject sent) (id : PlayerId) :
    ¬ Concerns sent id ∧ ¬ Leaves sent id := by
  obtain ⟨m, hdecode, hid⟩ := Option.map_eq_some_iff.mp h
  rw [Concerns, Leaves, hdecode]
  cases m with
  | reject => exact ⟨by rintro ⟨⟩, by rintro ⟨⟩⟩
  | _ => cases hid

def InGame (s : Server) (id : PlayerId) : Prop :=
  (∃ peer player, s.players.lookup peer = some player ∧ player.handshaked = true ∧
    player.id = id) ∨ ∃ bot ∈ s.bots, bot.id = id

section Effects

variable {now : Time} {s s' : Server} {event : Event} {outs : List Out} {c : Peer} {issued : Nat}

theorem InGame.keeps {id : PlayerId} (hkeeps : Keeps s s') (h : InGame s' id) : InGame s id := by
  rcases h with ⟨peer, player, hplayer, hshake, rfl⟩ | ⟨bot, hbot, rfl⟩
  · obtain ⟨old, hold, hshake', hid⟩ := hkeeps.player hplayer hshake
    exact .inl ⟨peer, old, hold, hshake', hid⟩
  · obtain ⟨old, hold, hid⟩ := List.mem_map.mp (hkeeps.bots.subset (List.mem_map_of_mem hbot))
    exact .inr ⟨old, hold, hid⟩

theorem InGame.before (heffect : Effect now s event s' outs) {id : PlayerId} (h : InGame s' id) :
    InGame s id ∨ id = s.nextId := by
  rcases ids_cases heffect with hkeeps | ⟨peer, player, hello, hplayer, -, rfl⟩ | ⟨mode, name, rfl⟩
  · exact .inl (h.keeps hkeeps)
  · rcases h with ⟨d, found, hfound, hshake, rfl⟩ | hbot
    · rw [lookup_seat hplayer] at hfound
      split at hfound
      · obtain rfl := Option.some.inj hfound
        exact .inr rfl
      · exact .inl (.inl ⟨d, found, hfound, hshake, rfl⟩)
    · exact .inl (.inr hbot)
  · rcases h with hplayer | ⟨bot, hbot, rfl⟩
    · exact .inl (.inl hplayer)
    · rcases List.mem_append.mp hbot with hold | hnew
      · exact .inl (.inr ⟨bot, hold, rfl⟩)
      · rw [List.mem_singleton.mp hnew]
        exact .inr rfl

theorem InGame.le_issued (hids : IdsIssued s issued) {id : PlayerId} (h : InGame s id) :
    id.toNat ≤ issued := by
  rcases h with ⟨peer, player, hplayer, hshake, rfl⟩ | ⟨bot, hbot, rfl⟩
  · exact (hids.player_pos hplayer hshake).2
  · exact (hids.bot_pos hbot).2

theorem not_inGame_of_departs (hids : IdsDistinct s) {id : PlayerId} (h : Departs s s' id) :
    InGame s id ∧ ¬ InGame s' id := by
  rcases h with ⟨peer, player, hplayer, hshake, rfl, rfl⟩ | ⟨removed, kept, bot, hperm, hbot, rfl, rfl⟩
  · refine ⟨.inl ⟨peer, player, hplayer, hshake, rfl⟩, ?_⟩
    rintro (⟨d, found, hfound, hshake', hid⟩ | ⟨bot, hbot, hid⟩)
    · rw [lookup_withoutPlayer] at hfound
      split at hfound
      · cases hfound
      · rename_i hd
        exact hd (hids.players hfound hshake' hplayer hshake hid)
    · exact hids.apart hplayer hshake hbot hid.symm
  · have hmem : bot ∈ s.bots := hperm.mem_iff.mpr (List.mem_append_left _ hbot)
    refine ⟨.inr ⟨bot, hmem, rfl⟩, ?_⟩
    rintro (⟨d, found, hfound, hshake', hid⟩ | ⟨other, hother, hid⟩)
    · exact hids.apart hfound hshake' hmem hid
    · have hnodup := (hperm.map (·.id)).nodup_iff.mp hids.bots
      rw [List.map_append, List.nodup_append] at hnodup
      exact hnodup.2.2 _ (List.mem_map_of_mem hbot) _ (List.mem_map_of_mem hother) hid.symm

/-- What a packet is about and how it travels. -/
structure Told (s s' : Server) (sent : Sent) : Prop where
  concerns : ∀ id, Concerns sent id → InGame s' id
  leaves : ∀ id, Leaves sent id → Departs s s' id
  reliable : sent.channel = .kUnreliable → kind sent = some .kPlayerStateUpdate

theorem told_of_concerns {sent : Sent} {m : Message} {id : PlayerId}
    (hdecode : decode sent.bytes = some m) (hconcerns : concerns m = some id) (hgame : InGame s' id)
    (hchannel : sent.channel = .kUnreliable → m.id = .kPlayerStateUpdate) : Told s s' sent := by
  have hthis : Concerns sent id := by rw [Concerns, hdecode, Option.bind_some, hconcerns]
  refine ⟨fun other hother => ?_, fun other hother => ?_, fun hunreliable => ?_⟩
  · obtain rfl := Option.some.inj (Eq.trans (Eq.symm hthis) hother)
    exact hgame
  · exact absurd hthis (not_concerns_of_leaves hother)
  · rw [kind, hdecode, Option.map_some, hchannel hunreliable]

theorem told_of_silent {sent : Sent} {m : Message} (hdecode : decode sent.bytes = some m)
    (hconcerns : concerns m = none) (hdeparts : departs m = none)
    (hchannel : sent.channel = .kReliable) : Told s s' sent := by
  have hneither : ∀ id, ¬ Concerns sent id ∧ ¬ Leaves sent id := by
    intro id
    rw [Concerns, Leaves, hdecode, Option.bind_some, Option.bind_some, hconcerns, hdeparts]
    exact ⟨by rintro ⟨⟩, by rintro ⟨⟩⟩
  refine ⟨fun id h => absurd h (hneither id).1, fun id h => absurd h (hneither id).2, ?_⟩
  rw [hchannel]
  rintro ⟨⟩

theorem told_of_announces {sent : Sent} {stamp : UInt32} {id : PlayerId} {name : Bytes}
    {hasState : Bool} {state : PlayerState F32}
    (h : Announces sent now stamp id name hasState state) (hgame : InGame s' id) :
    Told s s' sent := by
  rcases h with rfl | ⟨-, rfl⟩
  · exact told_of_concerns (decode_playerJoined _) rfl hgame (by rintro ⟨⟩)
  · exact told_of_concerns (decode_playerStateUpdate _) rfl hgame (by rintro ⟨⟩)

theorem told_of_mem (heffect : Effect now s event s' outs) {sent : Sent}
    (hsent : sent ∈ sentTo c now outs) : Told s s' sent := by
  have hplayer : ∀ {peer : Peer} {player : Player}, s'.players.lookup peer = some player →
      player.handshaked = true → InGame s' player.id :=
    fun hfound hshake => .inl ⟨_, _, hfound, hshake, rfl⟩
  have hbot : ∀ {bot : Bot}, bot ∈ s'.bots → InGame s' bot.id := fun hmem => .inr ⟨_, hmem, rfl⟩
  cases (origin_of_mem heffect hsent).1 with
  | rejected => exact told_of_silent (decode_reject _) rfl rfl rfl
  | notice | chatted => exact told_of_silent (decode_chatBroadcast _) rfl rfl rfl
  | welcomed => exact told_of_silent (decode_welcome _) rfl rfl rfl
  | caughtUp _ _ _ _ hfound hshake hannounces =>
      exact told_of_announces hannounces (hplayer hfound hshake)
  | caughtUpBot _ _ hmem hannounces => exact told_of_announces hannounces (hbot hmem)
  | arrived _ _ _ hfound hshake =>
      exact told_of_concerns (decode_playerJoined _) rfl (hplayer hfound hshake) (by rintro ⟨⟩)
  | botArrived _ hmem =>
      exact told_of_concerns (decode_playerJoined _) rfl (hbot hmem) (by rintro ⟨⟩)
  | departed id hdeparts =>
      have hleaves : Leaves ⟨now, .kReliable, encode { id : PlayerLeftMsg }⟩ id := by
        rw [Leaves, decode_playerLeft]
        rfl
      refine ⟨fun other hother => ?_, fun other hother => ?_, by rintro ⟨⟩⟩
      · exact absurd hother (not_concerns_of_leaves hleaves)
      · obtain rfl := Option.some.inj (Eq.trans (Eq.symm hleaves) hother)
        exact hdeparts
  | relayed _ _ _ _ _ hfound hshake =>
      exact told_of_concerns (decode_playerStateUpdate _) rfl (hplayer hfound hshake) fun _ => rfl
  | botMoved _ msg hmem hid =>
      exact told_of_concerns (decode_playerStateUpdate msg) (congrArg some hid) (hbot hmem)
        fun _ => rfl
  | renamed _ _ _ _ _ _ hfound hshake =>
      exact told_of_concerns (decode_playerRenamed _) rfl (hplayer hfound hshake) (by rintro ⟨⟩)

end Effects

/-- What is known of a log: whoever left is gone for good and not spoken of again,
and whoever is spoken of has an id that was given out.  Only states are sent
unreliably. -/
structure Orderly (s : Server) (issued : Nat) (link : List Sent) : Prop where
  gone : ∀ sent ∈ link, ∀ id, Leaves sent id → ¬ InGame s id ∧ id.toNat ≤ issued
  known : ∀ sent ∈ link, ∀ id, Concerns sent id → id.toNat ≤ issued
  silent : link.Pairwise fun sent later => ∀ id, Leaves sent id → ¬ Concerns later id
  reliable : ∀ sent ∈ link, sent.channel = .kUnreliable → kind sent = some .kPlayerStateUpdate

theorem orderly_nil (s : Server) (issued : Nat) : Orderly s issued [] :=
  ⟨by rintro _ ⟨⟩, by rintro _ ⟨⟩, .nil, by rintro _ ⟨⟩⟩

theorem Orderly.effect {now : Time} {s s' : Server} {event : Event} {outs : List Out} {c : Peer}
    {issued issued' : Nat} {link : List Sent} (h : Orderly s issued link)
    (heffect : Effect now s event s' outs) (hids : IdsIssued s issued)
    (hids' : IdsIssued s' issued') (hle : issued ≤ issued') :
    Orderly s' issued' (link ++ sentTo c now outs) := by
  have htold : ∀ sent ∈ sentTo c now outs, Told s s' sent := fun sent hsent =>
    told_of_mem heffect hsent
  have hgone : ∀ sent ∈ link ++ sentTo c now outs, ∀ id, Leaves sent id →
      ¬ InGame s' id ∧ id.toNat ≤ issued' := by
    intro sent hsent id hleaves
    rcases List.mem_append.mp hsent with hold | hnew
    · obtain ⟨hout, hissued⟩ := h.gone sent hold id hleaves
      refine ⟨fun hin => ?_, hissued.trans hle⟩
      -- an id that was given out is not the next one
      rcases hin.before heffect with hbefore | rfl
      · exact hout hbefore
      · rw [hids.nextId_eq] at hissued
        omega
    · obtain ⟨hwas, hout⟩ := not_inGame_of_departs hids.distinct ((htold sent hnew).leaves id hleaves)
      exact ⟨hout, (hwas.le_issued hids).trans hle⟩
  refine ⟨hgone, fun sent hsent id hconcerns => ?_, ?_, fun sent hsent => ?_⟩
  · rcases List.mem_append.mp hsent with hold | hnew
    · exact (h.known sent hold id hconcerns).trans hle
    · exact ((htold sent hnew).concerns id hconcerns).le_issued hids'
  · refine List.pairwise_append.mpr ⟨h.silent, ?_, fun sent hsent later hlater id hleaves hconcerns => ?_⟩
    · refine List.pairwise_of_forall_mem_list fun sent hsent later hlater id hleaves hconcerns => ?_
      exact (hgone sent (List.mem_append_right _ hsent) id hleaves).1
        ((htold later hlater).concerns id hconcerns)
    · exact (hgone sent (List.mem_append_left _ hsent) id hleaves).1
        ((htold later hlater).concerns id hconcerns)
  · exact (List.mem_append.mp hsent).elim (h.reliable sent) fun hnew => (htold sent hnew).reliable

theorem InGame.reorder {s : Server} {id : PlayerId}
    {order : Shuffle (Sigma fun _ : Peer => Player)} (h : InGame (ServerRun.reorder s order) id) :
    InGame s id := h.keeps (keeps_reorder s order)

theorem Orderly.reorder {s : Server} {issued : Nat} {link : List Sent} (h : Orderly s issued link)
    (order : Shuffle (Sigma fun _ : Peer => Player)) :
    Orderly (ServerRun.reorder s order) issued link :=
  { h with gone := fun sent hsent id hleaves =>
      ⟨fun hin => (h.gone sent hsent id hleaves).1 hin.reorder,
        (h.gone sent hsent id hleaves).2⟩ }

/-- Everyone a log speaks of was introduced in it, but for whom it welcomes, of whom it
only tells the new names. -/
def Introduced (link : List Sent) : Prop :=
  ∀ welcome ∈ link, ∀ msg, decode welcome.bytes = some (.welcome msg) →
    ∀ sent ∈ link, ∀ id, Concerns sent id →
      (id = msg.id → kind sent = some .kPlayerRenamed) ∧
      (id ≠ msg.id → ∃ name, .playerJoined ⟨id, name⟩ ∈ heard (sinceWelcome link))

theorem joined_of_roster {self : PlayerId} {messages : List Message} {id : PlayerId}
    (h : (messages.foldl (hear self) fun _ => none) id ≠ none) :
    ∃ name, .playerJoined ⟨id, name⟩ ∈ messages := by
  induction messages using List.reverseRecOn with
  | nil => exact absurd rfl h
  | append_singleton messages m ih =>
      have hold : (messages.foldl (hear self) fun _ => none) id ≠ none →
          ∃ name, .playerJoined ⟨id, name⟩ ∈ messages ++ [m] := by
        intro hlisted
        obtain ⟨name, hmem⟩ := ih hlisted
        exact ⟨name, List.mem_append_left _ hmem⟩
      rw [List.foldl_concat] at h
      generalize messages.foldl (hear self) (fun _ => none) = names at h hold
      cases m with
      | playerJoined msg =>
          by_cases hid : id = msg.id
          · subst hid
            exact ⟨msg.name, by simp⟩
          · rw [hear, Function.update_of_ne hid] at h
            exact hold h
      | playerRenamed msg =>
          rw [hear] at h
          split at h
          · exact hold h
          · by_cases hid : id = msg.id
            · subst hid
              rw [Function.update_self] at h
              exact hold fun hnone => h (by rw [hnone]; rfl)
            · rw [Function.update_of_ne hid] at h
              exact hold h
      | playerLeft msg =>
          rw [hear] at h
          by_cases hid : id = msg.id
          · subst hid
            rw [Function.update_self] at h
            exact absurd rfl h
          · rw [Function.update_of_ne hid] at h
            exact hold h
      | _ => exact hold h

theorem present_of_inGame {s : Server} {c : Peer} {player : Player}
    (hplayer : s.players.lookup c = some player) {id : PlayerId} (hne : id ≠ player.id)
    (h : InGame s id) : ∃ name, Present s c id name := by
  rcases h with ⟨peer, found, hfound, hshake, rfl⟩ | ⟨bot, hbot, rfl⟩
  · refine ⟨found.name, .inl ⟨peer, found, ?_, hfound, hshake, rfl, rfl⟩⟩
    rintro rfl
    exact hne (congrArg Player.id (Option.some.inj (hfound.symm.trans hplayer)))
  · exact ⟨bot.name, .inr ⟨bot, hbot, rfl, rfl⟩⟩

theorem inGame_of_present {s : Server} (hids : IdsDistinct s) {c : Peer} {player : Player}
    (hplayer : s.players.lookup c = some player) (hshake : player.handshaked = true)
    {id : PlayerId} {name : Bytes} (h : Present s c id name) : InGame s id ∧ id ≠ player.id := by
  rcases h with ⟨peer, found, hne, hfound, hshake', rfl, -⟩ | ⟨bot, hbot, rfl, -⟩
  · refine ⟨.inl ⟨peer, found, hfound, hshake', rfl⟩, fun hid => hne ?_⟩
    exact hids.players hfound hshake' hplayer hshake hid
  · exact ⟨.inr ⟨bot, hbot, rfl⟩, fun hid => hids.apart hplayer hshake hbot hid.symm⟩

theorem mem_heard_mono {link more : List Sent} (hwelcome : ∃ sent ∈ link, IsWelcome sent)
    {m : Message} (h : m ∈ heard (sinceWelcome link)) : m ∈ heard (sinceWelcome (link ++ more)) := by
  rw [sinceWelcome_append hwelcome, heard_append]
  exact List.mem_append_left _ h

theorem isWelcome_of_decode {sent : Sent} {msg : WelcomeMsg}
    (h : decode sent.bytes = some (.welcome msg)) : IsWelcome sent := by
  rw [IsWelcome, kind, h]
  rfl

theorem Introduced.effect {now : Time} {s s' : Server} {event : Event} {outs : List Out} {c : Peer}
    {link : List Sent} (h : Introduced link) (hgated : Gated s c link)
    (heffect : Effect now s event s' outs) (hgated' : Gated s' c (link ++ sentTo c now outs))
    (hsynced' : Synced s' c (link ++ sentTo c now outs)) :
    Introduced (link ++ sentTo c now outs) := by
  intro welcome hwelcome msg hdecode sent hsent id hconcerns
  by_cases hc' : joined s' c = true
  · obtain ⟨player, hplayer, hshake⟩ := joined_iff.mp hc'
    have hgate := hgated'.opened hplayer hshake
    obtain ⟨hshows, hecho⟩ := hsynced' player hplayer hshake
    have hself : player.id = msg.id :=
      Option.some.inj (hgate.id_of_welcome hwelcome hdecode)
    obtain ⟨m, hm, hmid⟩ := Option.bind_eq_some_iff.mp hconcerns
    refine ⟨fun heq => ?_, fun hne => ?_⟩
    · have hnone := hecho sent hsent m hm
      rw [kind, hm]
      cases m with
      | playerRenamed => rfl
      | playerJoined | playerStateUpdate =>
          exact absurd (hmid.trans (congrArg some (heq.trans hself.symm))) hnone
      | _ => cases hmid
    · rcases List.mem_append.mp hsent with hold | hnew
      · by_cases hbefore : ∃ sent ∈ link, IsWelcome sent
        · -- welcomed before: the same welcome
          obtain ⟨first, hfirst, hkind⟩ := hbefore
          obtain ⟨m', hm', hmid'⟩ := Option.map_eq_some_iff.mp hkind
          cases m' with
          | welcome msg' =>
              have hsame := hgate.id_of_welcome (List.mem_append_left _ hfirst) hm'
              rw [hgate.id_of_welcome hwelcome hdecode] at hsame
              have hid' := Option.some.inj hsame
              obtain ⟨name, hjoined⟩ := (h first hfirst msg' hm' sent hold id hconcerns).2
                (fun heq => hne (heq.trans hid'.symm))
              exact ⟨name, mem_heard_mono ⟨first, hfirst, hkind⟩ hjoined⟩
          | _ => cases hmid'
        · -- not welcomed before: nothing but rejections
          obtain ⟨gate₀, hgate₀, -⟩ := hgated
          obtain ⟨rejects, rest, rfl, hrejects, rfl | ⟨w, tail, rfl, hw, -⟩⟩ := hgate₀.shape
          · rw [List.append_nil] at hold
            exact absurd hconcerns (not_concerns_of_reject (hrejects sent hold) id).1
          · exact absurd ⟨w, by simp, hw⟩ hbefore
      · have hin := (told_of_mem heffect hnew).concerns id hconcerns
        obtain ⟨name, hpresent⟩ := present_of_inGame hplayer (fun heq => hne (heq.trans hself)) hin
        have hlisted : rosterOf player.id (sinceWelcome (link ++ sentTo c now outs)) id ≠ none := by
          rw [(hshows id name).mpr hpresent]
          rintro ⟨⟩
        exact joined_of_roster hlisted
  · -- nothing but rejections is sent, so that nothing changes
    have hrejects := rejects_of_unjoined heffect (Bool.eq_false_iff.mpr hc')
    have hnone : ∀ sent ∈ sentTo c now outs, ∀ id, ¬ Concerns sent id := fun sent hsent id =>
      (not_concerns_of_reject (hrejects sent hsent) id).1
    have hwelcome : welcome ∈ link := by
      rcases List.mem_append.mp hwelcome with hold | hnew
      · exact hold
      · have hkind : kind welcome = some .kReject := hrejects welcome hnew
        rw [kind, hdecode] at hkind
        cases hkind
    have hsent : sent ∈ link :=
      (List.mem_append.mp hsent).elim (fun hold => hold) fun hnew => absurd hconcerns (hnone sent hnew _)
    obtain ⟨hown, hother⟩ := h welcome hwelcome msg hdecode sent hsent id hconcerns
    refine ⟨hown, fun hne => ?_⟩
    obtain ⟨name, hjoined⟩ := hother hne
    exact ⟨name, mem_heard_mono ⟨welcome, hwelcome, isWelcome_of_decode hdecode⟩ hjoined⟩

section Runs

variable [CppFloat F32] [Libm F32] [Platform]

theorem orderly_after (config : Config) (startTime : Time) (inputs : List Input) (c : Peer)
    (hissued : (Network.after config startTime inputs).issued < 2 ^ 32 - 1) :
    Orderly (Network.after config startTime inputs).server
      (Network.after config startTime inputs).issued
      ((Network.after config startTime inputs).link c) := by
  revert hissued
  refine Network.after_induction (P := fun net => net.issued < 2 ^ 32 - 1 →
    Orderly net.server net.issued (net.link c)) (fun _ => orderly_nil _ _) ?_ inputs
  intro inputs input ih hissued
  have hbefore := (Nat.le_add_right _ _).trans_lt hissued
  have hids := idsIssued_after config startTime inputs hbefore
  refine Orderly.effect ?_ (step_effect _ input) (hids.keeps (keeps_reorder _ input.order))
    (idsIssued_step input hissued hids) (Nat.le_add_right _ _)
  split
  · exact orderly_nil _ _
  · exact (ih hbefore).reorder input.order

theorem introduced_after (config : Config) (startTime : Time) (inputs : List Input) (c : Peer)
    (hissued : (Network.after config startTime inputs).issued < 2 ^ 32 - 1) :
    Introduced ((Network.after config startTime inputs).link c) := by
  revert hissued
  refine Network.after_induction (P := fun net => net.issued < 2 ^ 32 - 1 →
    Introduced (net.link c)) (fun _ => by rintro _ ⟨⟩) ?_ inputs
  intro inputs input ih hissued
  have hgated := gated_after config startTime inputs c
  have hgated' := gated_step input hgated
  have hsynced' := synced_after config startTime (inputs ++ [input]) c
    (by rwa [Network.after_concat])
  rw [Network.after_concat] at hsynced'
  refine Introduced.effect ?_ (hgated.opens input) (step_effect _ input) hgated' hsynced'
  split
  · rintro _ ⟨⟩
  · exact ih ((Nat.le_add_right _ _).trans_lt hissued)

end Runs

end F4MP.Chronicle
