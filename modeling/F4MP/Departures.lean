import F4MP.Delivery

/-!
When players who left stay away from a client: exactly if no state of a player is
delivered after the message that the player left.
-/

namespace F4MP.Departures

open F4MP.Types
open F4MP.Protocol
open F4MP.Messages
open F4MP.Arith
open F4MP.ServerModel
open F4MP.ServerConsole
open F4MP.ServerRun
open F4MP.ServerTraffic
open F4MP.Handshake
open F4MP.Participants
open F4MP.Roster
open F4MP.RemotePlayersModel
open F4MP.SessionModel (Reading)
open F4MP.ClientRun
open F4MP.Chronicle
open F4MP.Delivery
open F4MP.Library.PartialView

/-- A state of a player is not delivered after the message that the player left. -/
def NoLateState (delivered : List Sent) : Prop :=
  delivered.Pairwise fun sent later =>
    ∀ id, Leaves sent id → Concerns later id → kind later ≠ some .kPlayerStateUpdate

/-- What holds of the packets of a log in send order holds of reliable ones in the order
they are delivered in. -/
theorem reliable_pair {R : Sent → Sent → Prop} {link delivered : List Sent} {sent later : Sent}
    (hlink : link.Pairwise R) (h : Delivers link (delivered ++ [later])) (hsent : sent ∈ delivered)
    (hreliable : sent.channel = .kReliable) (hlater : later.channel = .kReliable) :
    R sent later := by
  have hpairs := (hlink.sublist List.filter_sublist).sublist h.reliable.sublist
  rw [List.filter_append, List.pairwise_append] at hpairs
  exact hpairs.2.2 sent (List.mem_filter.mpr ⟨hsent, decide_eq_true hreliable⟩) later (by simp [hlater])

theorem first_mem_before {α : Type} {first : α} {rejects rest before after : List α} {item : α}
    (h : before ++ item :: after <+: rejects ++ first :: rest) (hitem : item ∉ rejects)
    (hne : item ≠ first) : first ∈ before := by
  induction rejects generalizing before with
  | nil =>
      cases before with
      | nil => exact absurd (List.cons_prefix_cons.mp h).1 hne
      | cons other before =>
          rw [(List.cons_prefix_cons.mp h).1]
          exact List.mem_cons_self
  | cons reject rejects ih =>
      cases before with
      | nil =>
          rw [(List.cons_prefix_cons.mp h).1] at hitem
          exact absurd List.mem_cons_self hitem
      | cons other before =>
          exact List.mem_cons_of_mem _ (ih (List.cons_prefix_cons.mp h).2 fun hmem =>
            hitem (List.mem_cons_of_mem _ hmem))

theorem mem_of_drained {link delivered : List Sent}
    (hdrained : delivered.filter (·.channel = .kReliable) = link.filter (·.channel = .kReliable))
    {sent : Sent} (hsent : sent ∈ link) (hchannel : sent.channel = .kReliable) :
    sent ∈ delivered := by
  have hmem := hdrained.symm ▸ List.mem_filter.mpr ⟨hsent, decide_eq_true hchannel⟩
  exact (List.mem_filter.mp hmem).1

theorem mem_of_mem_heard {link : List Sent} {m : Message} (hm : m ∈ heard (sinceWelcome link)) :
    ∃ sent ∈ link, sent.channel = .kReliable ∧ decode sent.bytes = some m := by
  obtain ⟨sent, hsent, hchannel, hdecode⟩ := mem_heard.mp hm
  exact ⟨sent, (List.dropWhile_sublist _).subset (List.mem_of_mem_tail hsent), hchannel, hdecode⟩

theorem reliable_of_kind {s : Server} {issued : Nat} {link : List Sent}
    (h : Orderly s issued link) {sent : Sent} (hsent : sent ∈ link)
    (hkind : kind sent ≠ some .kPlayerStateUpdate) : sent.channel = .kReliable := by
  cases hchannel : sent.channel with
  | kReliable => rfl
  | kUnreliable => exact absurd (h.reliable sent hsent hchannel) hkind

theorem kind_of_leaves {sent : Sent} {id : PlayerId} (h : Leaves sent id) :
    kind sent = some .kPlayerLeft := by
  obtain ⟨m, hdecode, hdeparts⟩ := Option.bind_eq_some_iff.mp h
  rw [kind, hdecode]
  cases m with
  | playerLeft => rfl
  | _ => cases hdeparts

theorem welcome_before {s : Server} {issued : Nat} {link before after : List Sent} {sent : Sent}
    {self : PlayerId} (horderly : Orderly s issued link) (hgate : Gate link (some self))
    (hdelivers : Delivers link (before ++ sent :: after))
    (hrenamed : kind sent = some .kPlayerRenamed) : ∃ first ∈ before, IsWelcome first := by
  have hchannel : sent.channel = .kReliable :=
    reliable_of_kind horderly (hdelivers.mem (by simp)) (by rw [hrenamed]; rintro ⟨⟩)
  obtain ⟨welcome, hwelcome, hkind⟩ := hgate.welcome_iff.mpr rfl
  obtain ⟨rejects, rest, rfl, hrejects, rfl | ⟨first, tail, rfl, hfirst, -⟩⟩ := hgate.shape
  · rw [List.append_nil] at hwelcome
    have hreject : kind welcome = some .kReject := hrejects welcome hwelcome
    rw [IsWelcome, hreject] at hkind
    cases hkind
  · have hfirstKind : kind first = some .kWelcome := hfirst
    have hreliable : first.channel = .kReliable :=
      reliable_of_kind horderly (by simp) (by rw [hfirstKind]; rintro ⟨⟩)
    have hinit := hdelivers.reliable
    rw [List.filter_append, List.filter_append, List.filter_cons_of_pos (by simp [hchannel]),
      List.filter_cons_of_pos (by simp [hreliable])] at hinit
    refine ⟨first, (List.mem_filter.mp (first_mem_before hinit ?_ ?_)).1, hfirst⟩
    · intro hmem
      have hreject : kind sent = some .kReject := hrejects sent (List.mem_filter.mp hmem).1
      rw [hrenamed] at hreject
      cases hreject
    · rintro rfl
      rw [hfirstKind] at hrenamed
      cases hrenamed

theorem roster_of_joined {self : PlayerId} {messages : List Message} {id : PlayerId} {name : Bytes}
    (hjoined : .playerJoined ⟨id, name⟩ ∈ messages) (hstays : ∀ m ∈ messages, departs m ≠ some id) :
    (messages.foldl (hear self) fun _ => none) id ≠ none := by
  induction messages using List.reverseRecOn with
  | nil => cases hjoined
  | append_singleton messages m ih =>
      rw [List.foldl_concat]
      rcases List.mem_append.mp hjoined with hold | hlast
      · have hlisted := ih hold fun m hm => hstays m (List.mem_append_left _ hm)
        have hm := hstays m (by simp)
        generalize messages.foldl (hear self) (fun _ => none) = names at hlisted
        cases m with
        | playerJoined msg =>
            rw [hear, Function.update_apply]
            split
            · rintro ⟨⟩
            · exact hlisted
        | playerRenamed msg =>
            rw [hear]
            split
            · exact hlisted
            · rw [Function.update_apply]
              split
              · rename_i hid
                rw [← hid]
                exact fun hnone => hlisted (Option.map_eq_none_iff.mp hnone)
              · exact hlisted
        | playerLeft msg =>
            rw [hear, Function.update_of_ne fun hid => hm (congrArg some hid.symm)]
            exact hlisted
        | _ => exact hlisted
      · rw [← List.mem_singleton.mp hlast, hear, Function.update_self]
        rintro ⟨⟩

/-- What is known of the log of a connection. -/
structure Recorded (s : Server) (issued : Nat) (c : Peer) (link : List Sent) : Prop where
  bound : issued < 2 ^ 32 - 2
  ids : IdsIssued s issued
  orderly : Orderly s issued link
  introduced : Introduced link
  gated : Gated s c link
  synced : Synced s c link

theorem Recorded.opened {s : Server} {issued : Nat} {c : Peer} {link : List Sent}
    (h : Recorded s issued c link) {player : Player}
    (hplayer : s.players.lookup c = some player) (hshake : player.handshaked = true) :
    Gate link (some player.id) ∧
      Shows (rosterOf player.id (sinceWelcome link)) (Present s c) := by
  exact ⟨h.gated.opened hplayer hshake, (h.synced player hplayer hshake).1⟩

theorem ne_invalid_of_le {issued : Nat} (hbound : issued < 2 ^ 32 - 1) {id : PlayerId}
    (hid : id.toNat ≤ issued) : id ≠ invalidPlayerId := by
  rintro rfl
  rw [show invalidPlayerId.toNat = 2 ^ 32 - 1 from rfl] at hid
  omega

section Client

variable {D : Type} [CppFloat F32] [CppFloat D] [Libm F32] [Narrow D F32] [Widen F32 D]
  {client : Client D}

/-- Once the message that a player left is handled, the player is not listed. -/
def Buried (client : Client D) (moments : List (Moment D)) : Prop :=
  ∀ before after, moments = before ++ after → ∀ sent ∈ packets before, ∀ id, Leaves sent id →
    ¬ Listed (lived client before).scene id

theorem Buried.of_append {moments more : List (Moment D)} (h : Buried client (moments ++ more)) :
    Buried client moments := by
  rintro before after rfl
  exact h before (after ++ more) (List.append_assoc _ _ _)

theorem concerned_of_listed (hblank : Blank client) {moments : List (Moment D)} {id : PlayerId}
    (h : Listed (lived client moments).scene id) :
    ∃ before sent reading order after, moments = before ++ .packet sent reading order :: after ∧
      Concerns sent id ∧ id ≠ (lived client before).session.myId := by
  induction moments using List.reverseRecOn with
  | nil =>
      rw [lived_nil, Listed, Scene.find, hblank.players] at h
      exact absurd rfl h
  | append_singleton moments moment ih =>
      have hold : Listed (lived client moments).scene id → ∃ before sent reading order after,
          moments ++ [moment] = before ++ .packet sent reading order :: after ∧
            Concerns sent id ∧ id ≠ (lived client before).session.myId := by
        intro hlisted
        obtain ⟨before, sent, reading, order, after, rfl, hrest⟩ := ih hlisted
        exact ⟨before, sent, reading, order, after ++ [moment], by simp, hrest⟩
      rw [lived_concat] at h
      cases moment with
      | meanwhile order op hop => exact hold (((samePlayers_meanwhile _ order hop).listed id).mp h)
      | packet sent reading order =>
          rcases (listed_packet _ sent reading order id).mp h with ⟨hconcerns, hne⟩ | ⟨hlisted, -⟩
          · exact ⟨moments, sent, reading, order, [], rfl, hconcerns, hne⟩
          · exact hold hlisted

theorem listed_of_concerned {moments : List (Moment D)} {id : PlayerId} {sent : Sent}
    (hsent : sent ∈ packets moments) (hconcerns : Concerns sent id)
    (hstays : ∀ sent ∈ packets moments, ¬ Leaves sent id)
    (hforeign : ∀ before after, moments = before ++ after →
      id ≠ (lived client before).session.myId) :
    Listed (lived client moments).scene id := by
  induction moments using List.reverseRecOn with
  | nil => cases hsent
  | append_singleton moments moment ih =>
      have hold : sent ∈ packets moments → Listed (lived client moments).scene id := by
        intro hmem
        refine ih hmem (fun other hother => hstays other ?_) ?_
        · rw [packets_append]
          exact List.mem_append_left _ hother
        · rintro before after rfl
          exact hforeign before (after ++ [moment]) (List.append_assoc _ _ _)
      rw [lived_concat]
      cases moment with
      | meanwhile order op hop =>
          rw [packets_append, packets_meanwhile, List.append_nil] at hsent
          exact ((samePlayers_meanwhile _ order hop).listed id).mpr (hold hsent)
      | packet last reading order =>
          rw [packets_append, packets_packet] at hsent hstays
          rcases List.mem_append.mp hsent with hmem | hlast
          · exact (listed_packet _ last reading order id).mpr (.inr ⟨hold hmem, hstays last (by simp)⟩)
          · obtain rfl := List.mem_singleton.mp hlast
            exact (listed_packet _ sent reading order id).mpr
              (.inl ⟨hconcerns, hforeign moments [_] rfl⟩)

end Client

section Connection

variable {D : Type} [CppFloat F32] [CppFloat D] [Libm F32] [Narrow D F32] [Widen F32 D]
  {client : Client D} {s : Server} {issued : Nat} {c : Peer} {link : List Sent}
  {moments : List (Moment D)}

theorem foreign (hbound : issued < 2 ^ 32 - 1) (horderly : Orderly s issued link)
    (hintroduced : Introduced link) (hblank : Blank client)
    (hpackets : ∀ sent ∈ packets moments, sent ∈ link) {sent : Sent} (hsent : sent ∈ link)
    {id : PlayerId} (hconcerns : Concerns sent id) (hkind : kind sent ≠ some .kPlayerRenamed) :
    id ≠ (lived client moments).session.myId := by
  rcases myId_lived hblank moments with ⟨hself, -⟩ | ⟨welcome, hwelcome, msg, hdecode, hself⟩
  · rw [hself]
    exact ne_invalid_of_le hbound (horderly.known sent hsent id hconcerns)
  · rw [hself]
    intro hid
    exact hkind ((hintroduced welcome (hpackets welcome hwelcome) msg hdecode sent hsent id
      hconcerns).1 hid)

theorem Recorded.foreign (h : Recorded s issued c link) (hblank : Blank client)
    (hpackets : ∀ sent ∈ packets moments, sent ∈ link) {sent : Sent} (hsent : sent ∈ link)
    {id : PlayerId} (hconcerns : Concerns sent id) (hkind : kind sent ≠ some .kPlayerRenamed) :
    id ≠ (lived client moments).session.myId :=
  Departures.foreign (h.bound.trans (by decide)) h.orderly h.introduced hblank hpackets hsent
    hconcerns hkind

theorem not_listed_of_left (h : Recorded s issued c link)
    (hdelivers : Delivers link (packets moments)) (hlate : NoLateState (packets moments)) :
    ∀ sent ∈ packets moments, ∀ id, Leaves sent id → ¬ Listed (lived client moments).scene id := by
  induction moments using List.reverseRecOn with
  | nil => rintro _ ⟨⟩
  | append_singleton moments moment ih =>
      intro sent hsent id hleaves hlisted
      rw [lived_concat] at hlisted
      rw [packets_append] at hdelivers hlate hsent
      have hbefore := ih hdelivers.of_append (hlate.sublist (List.sublist_append_left _ _))
      cases moment with
      | meanwhile order op hop =>
          rw [packets_meanwhile, List.append_nil] at hsent
          exact hbefore sent hsent id hleaves
            (((samePlayers_meanwhile _ order hop).listed id).mp hlisted)
      | packet later reading order =>
          rw [packets_packet] at hdelivers hlate hsent
          have hlater : later ∈ link := hdelivers.mem (by simp)
          rcases List.mem_append.mp hsent with hold | hlast
          · rcases (listed_packet _ later reading order id).mp hlisted with
              ⟨hconcerns, -⟩ | ⟨hlisted, -⟩
            · by_cases hstate : kind later = some .kPlayerStateUpdate
              · exact (List.pairwise_append.mp hlate).2.2 sent hold later (by simp) id hleaves
                  hconcerns hstate
              · have hsent : sent ∈ link := hdelivers.mem (List.mem_append_left _ hold)
                exact reliable_pair h.orderly.silent hdelivers hold
                  (reliable_of_kind h.orderly hsent (by rw [kind_of_leaves hleaves]; rintro ⟨⟩))
                  (reliable_of_kind h.orderly hlater hstate) id hleaves hconcerns
            · exact hbefore sent hold id hleaves hlisted
          · obtain rfl := List.mem_singleton.mp hlast
            rcases (listed_packet _ sent reading order id).mp hlisted with
              ⟨hconcerns, -⟩ | ⟨-, hstays⟩
            · exact not_concerns_of_leaves hleaves hconcerns
            · exact hstays hleaves

theorem buried_iff (h : Recorded s issued c link) (hblank : Blank client)
    (hdelivers : Delivers link (packets moments)) :
    Buried client moments ↔ NoLateState (packets moments) := by
  constructor
  · intro hburied
    induction moments using List.reverseRecOn with
    | nil => exact .nil
    | append_singleton moments moment ih =>
        have hbefore := hburied.of_append
        rw [packets_append] at hdelivers ⊢
        refine List.pairwise_append.mpr ⟨ih hdelivers.of_append hbefore, ?_, ?_⟩
        · cases moment with
          | meanwhile => exact .nil
          | packet => exact List.pairwise_singleton _ _
        · intro sent hsent later hlater id hleaves hconcerns hstate
          cases moment with
          | meanwhile => cases hlater
          | packet last reading order =>
              obtain rfl := List.mem_singleton.mp hlater
              have hgone := hburied (moments ++ [.packet later reading order]) []
                (List.append_nil _).symm sent (by simp [hsent]) id hleaves
              rw [lived_concat, listed_packet] at hgone
              refine hgone (.inl ⟨hconcerns, ?_⟩)
              exact h.foreign hblank (fun sent hsent => hdelivers.mem (List.mem_append_left _ hsent))
                (hdelivers.mem (by simp)) hconcerns (by rw [hstate]; rintro ⟨⟩)
  · rintro hlate before after rfl
    rw [packets_append] at hdelivers hlate
    exact not_listed_of_left h hdelivers.of_append (hlate.sublist (List.sublist_append_left _ _))

/-- A client and the server agree on who else is in the game. -/
def Agrees (s : Server) (c : Peer) (client : Client D) : Prop :=
  ∀ player, s.players.lookup c = some player → player.handshaked = true →
    ∀ id, Listed client.scene id ↔ ∃ name, Present s c id name

variable {player : Player}

theorem ne_self_of_told (h : Recorded s issued c link) (hblank : Blank client)
    {self : PlayerId} (hgate : Gate link (some self)) {before after : List (Moment D)} {sent : Sent}
    {reading : Reading D} {order : PlayerOrder F32}
    (hdelivers : Delivers link (packets (before ++ .packet sent reading order :: after)))
    {id : PlayerId} (hconcerns : Concerns sent id) (hne : id ≠ (lived client before).session.myId) :
    id ≠ self ∧ ∃ name, .playerJoined ⟨id, name⟩ ∈ heard (sinceWelcome link) := by
  obtain ⟨welcome, hwelcome, hkind⟩ := hgate.welcome_iff.mpr rfl
  obtain ⟨m, hm, hmid⟩ := Option.map_eq_some_iff.mp hkind
  obtain ⟨msg, rfl⟩ : ∃ msg, m = .welcome msg := by
    cases m with
    | welcome msg => exact ⟨msg, rfl⟩
    | _ => cases hmid
  have hself : ∀ {sent msg}, sent ∈ link → decode sent.bytes = some (.welcome msg) →
      msg.id = self := fun hsent hdecode =>
    (Option.some.inj (hgate.id_of_welcome hsent hdecode)).symm
  have hdelivers' : Delivers link (packets before ++ sent :: packets after) := by
    rw [packets_append] at hdelivers
    exact hdelivers
  have hknown := h.introduced welcome hwelcome msg hm sent (hdelivers'.mem (by simp)) id hconcerns
  have hother : id ≠ self := by
    intro hid
    have hrenamed := hknown.1 (hid.trans (hself hwelcome hm).symm)
    obtain ⟨first, hfirst, hiswelcome⟩ := welcome_before h.orderly hgate hdelivers' hrenamed
    rcases myId_lived hblank before with ⟨-, hnone⟩ | ⟨first, hfirst, msg', hdecode', hmyId⟩
    · exact hnone first hfirst hiswelcome
    · have hin : first ∈ link := hdelivers'.mem (List.mem_append_left _ hfirst)
      exact hne (hid.trans ((hself hin hdecode').symm.trans hmyId.symm))
  exact ⟨hother, hknown.2 fun hid => hother (hid.trans (hself hwelcome hm))⟩

theorem present_of_listed (h : Recorded s issued c link) (hblank : Blank client)
    (hdelivers : Delivers link (packets moments)) (hlate : NoLateState (packets moments))
    (hdrained : (packets moments).filter (·.channel = .kReliable) =
      link.filter (·.channel = .kReliable))
    (hplayer : s.players.lookup c = some player) (hshake : player.handshaked = true) {id : PlayerId}
    (hlisted : Listed (lived client moments).scene id) : ∃ name, Present s c id name := by
  obtain ⟨hgate, hshows⟩ := h.opened hplayer hshake
  obtain ⟨before, sent, reading, order, after, hsplit, hconcerns, hne⟩ :=
    concerned_of_listed hblank hlisted
  obtain ⟨-, name, hjoined⟩ := ne_self_of_told h hblank hgate (hsplit ▸ hdelivers) hconcerns hne
  have hstays : ∀ m ∈ heard (sinceWelcome link), departs m ≠ some id := by
    intro m hm hdeparts
    obtain ⟨left, hleft, hchannel, hdecode⟩ := mem_of_mem_heard hm
    have hleaves : Leaves left id := by rw [Leaves, hdecode, Option.bind_some, hdeparts]
    exact not_listed_of_left h hdelivers hlate left (mem_of_drained hdrained hleft hchannel) id
      hleaves hlisted
  obtain ⟨shown, hshown⟩ : ∃ shown, rosterOf player.id (sinceWelcome link) id = some shown :=
    Option.ne_none_iff_exists'.mp (roster_of_joined hjoined hstays)
  exact ⟨shown, (hshows id shown).mp hshown⟩

theorem listed_of_present (h : Recorded s issued c link) (hblank : Blank client)
    (hdelivers : Delivers link (packets moments))
    (hdrained : (packets moments).filter (·.channel = .kReliable) =
      link.filter (·.channel = .kReliable))
    (hplayer : s.players.lookup c = some player) (hshake : player.handshaked = true) {id : PlayerId}
    {name : Bytes} (hpresent : Present s c id name) : Listed (lived client moments).scene id := by
  obtain ⟨-, hshows⟩ := h.opened hplayer hshake
  obtain ⟨hin, hother⟩ := inGame_of_present h.ids.distinct hplayer hshake hpresent
  have hlisted : rosterOf player.id (sinceWelcome link) id ≠ none := by
    rw [(hshows id name).mpr hpresent]
    rintro ⟨⟩
  obtain ⟨joined, hjoined⟩ := joined_of_roster hlisted
  obtain ⟨sent, hmem, hchannel, hdecode⟩ := mem_of_mem_heard hjoined
  have hconcerns : Concerns sent id := by
    rw [Concerns, hdecode]
    rfl
  refine listed_of_concerned (mem_of_drained hdrained hmem hchannel) hconcerns
    (fun left hleft hleaves => ?_) ?_
  · exact (h.orderly.gone left (hdelivers.mem hleft) id hleaves).1 hin
  · rintro before after rfl
    refine h.foreign hblank (fun sent hsent => hdelivers.mem ?_) hmem hconcerns ?_
    · rw [packets_append]
      exact List.mem_append_left _ hsent
    · rw [kind, hdecode]
      rintro ⟨⟩

theorem agrees_of_drained (h : Recorded s issued c link) (hblank : Blank client)
    (hdelivers : Delivers link (packets moments)) (hlate : NoLateState (packets moments))
    (hdrained : (packets moments).filter (·.channel = .kReliable) =
      link.filter (·.channel = .kReliable)) : Agrees s c (lived client moments) := by
  intro player hplayer hshake id
  constructor
  · exact present_of_listed h hblank hdelivers hlate hdrained hplayer hshake
  · rintro ⟨name, hpresent⟩
    exact listed_of_present h hblank hdelivers hdrained hplayer hshake hpresent

end Connection

section Runs

variable {D : Type} [CppFloat F32] [CppFloat D] [Libm F32] [Narrow D F32] [Widen F32 D] [Platform]

theorem recorded_after (config : Config) (startTime : Time) (inputs : List ServerRun.Input) (c : Peer)
    (hissued : (Network.after config startTime inputs).issued < 2 ^ 32 - 2) :
    Recorded (Network.after config startTime inputs).server
      (Network.after config startTime inputs).issued c
      ((Network.after config startTime inputs).link c) :=
  have hfew := hissued.trans (by decide)
  ⟨hissued, idsIssued_after config startTime inputs hfew,
    orderly_after config startTime inputs c hfew,
    introduced_after config startTime inputs c hfew, gated_after config startTime inputs c,
    synced_after config startTime inputs c hfew⟩

/-- After any run of the server, and whatever of a connection reaches the client so far:
whoever left stays away from the client's list, and the list is the server's when the
reliable channel has drained, exactly if no state comes in after its player's leaving. -/
theorem stays_away_iff (config : Config) (startTime : Time) (inputs : List ServerRun.Input)
    (c : Peer) (hissued : (Network.after config startTime inputs).issued < 2 ^ 32 - 2)
    (client : Client D) (hblank : Blank client) (moments : List (Moment D))
    (hdelivers : Delivers ((Network.after config startTime inputs).link c) (packets moments)) :
    (Buried client moments ∧
      ((packets moments).filter (·.channel = .kReliable) =
          ((Network.after config startTime inputs).link c).filter (·.channel = .kReliable) →
        Agrees (Network.after config startTime inputs).server c (lived client moments))) ↔
      NoLateState (packets moments) := by
  have hrecorded := recorded_after config startTime inputs c hissued
  rw [← buried_iff hrecorded hblank hdelivers]
  refine ⟨fun h => h.1, fun hburied => ⟨hburied, fun hdrained => ?_⟩⟩
  exact agrees_of_drained hrecorded hblank hdelivers
    ((buried_iff hrecorded hblank hdelivers).mp hburied) hdrained

end Runs

section Example

open F4MP.Native

def stateAndLeave : List ServerRun.Input :=
  twoPlayers ++
    [⟨1000000, .keep _, .receive 0 (encode { state := .initial F32 : PlayerStateMsg })⟩,
      ⟨2000000, .keep _, .disconnect 0⟩]

def stateComesLate : List (Moment F64) :=
  let link := (Network.after {} 0 stateAndLeave).link 1
  (link.filter (·.channel = .kReliable) ++ link.filter (·.channel = .kUnreliable)).map fun sent =>
    .packet sent ⟨0, CppFloat.ofRat 0, none⟩ (.keep _)

theorem stateComesLate_delivered :
    Delivers ((Network.after {} 0 stateAndLeave).link 1) (packets stateComesLate) :=
  ⟨by decide +kernel, by decide +kernel⟩

/-- The second has the first on its list again. -/
theorem comes_back :
    Delivers ((Network.after {} 0 stateAndLeave).link 1) (packets stateComesLate) ∧
      ¬ Buried (Client.initial {} 0 true) stateComesLate := by
  refine ⟨stateComesLate_delivered, fun hburied => ?_⟩
  have hleft : ∃ sent ∈ packets stateComesLate, Leaves sent 1 := by
    unfold Leaves
    decide +kernel
  have hlisted : Listed (lived (Client.initial {} 0 true) stateComesLate).scene 1 := by
    unfold Listed
    decide +kernel
  obtain ⟨sent, hsent, hleaves⟩ := hleft
  exact hburied stateComesLate [] (List.append_nil _).symm sent hsent 1 hleaves hlisted

/-- The equivalence for what reaches the second. -/
theorem stays_away_of_second :
    (Buried (Client.initial {} 0 true) stateComesLate ∧
      ((packets stateComesLate).filter (·.channel = .kReliable) =
          ((Network.after {} 0 stateAndLeave).link 1).filter (·.channel = .kReliable) →
        Agrees (Network.after {} 0 stateAndLeave).server 1
          (lived (Client.initial {} 0 true) stateComesLate))) ↔
      NoLateState (packets stateComesLate) :=
  stays_away_iff {} 0 stateAndLeave 1 (by decide +kernel) _ (blank_initial _ _ _) stateComesLate
    stateComesLate_delivered

end Example

end F4MP.Departures
