import F4MP.NameAgreement
import F4MP.Printing
import F4MP.Relay

/-!
What a client prints of its packets is what the server meant: chat and renames under the
names the players had when they spoke, in the order in which they did.
-/

namespace F4MP.Transcript

open F4MP.Types
open F4MP.Protocol
open F4MP.Messages
open F4MP.Arith
open F4MP.ServerModel
open F4MP.ServerConsole
open F4MP.ServerRun
open F4MP.ServerTraffic
open F4MP.ServerEffects
open F4MP.Handshake
open F4MP.Participants
open F4MP.Roster
open F4MP.Relay
open F4MP.Printing
open F4MP.SessionModel (Session NetEvent)
open F4MP.ClientRun (Client remoteOps)
open F4MP.Connection
open F4MP.Delivery
open F4MP.RemoteNames
open F4MP.SentNames
open F4MP.NameAgreement
open F4MP.Library.HashTable
open F4MP.Library.Runs

def speaker : Event → Option Peer
  | .receive peer _ => some peer
  | _ => none

/-- The name of the player whose packet is handled. -/
def speakerName (s : Server) (event : Event) : Bytes :=
  (((speaker event).bind s.players.lookup).map (·.name)).getD []

/-- The lines a message is meant for, when it is sent to the player at `c` while the server
handles an event. -/
def meant (s : Server) (c : Peer) (event : Event) : Message → List Bytes
  | .welcome m => printWelcome m
  | .reject m => printReject m
  | .playerRenamed m =>
      if speaker event = some c then [ascii "[F4MP] You are now known as " ++ m.name]
      else [ascii "[F4MP] " ++ speakerName s event ++ ascii " is now known as " ++ m.name]
  | .chatBroadcast m =>
      if m.sender = serverId then [ascii "[Server] " ++ m.text]
      else if speaker event = some c then [ascii "You: " ++ m.text]
      else [speakerName s event ++ ascii ": " ++ m.text]
  | _ => []

abbrev Note := Sent × List Bytes

def noteOf (s : Server) (c : Peer) (event : Event) (sent : Sent) : Note :=
  (sent, (decode sent.bytes).elim [] (meant s c event))

@[simp] theorem map_fst_noteOf (s : Server) (c : Peer) (event : Event) (sents : List Sent) :
    (sents.map (noteOf s c event)).map Prod.fst = sents := by
  rw [List.map_map]
  exact List.map_id sents

theorem map_noteOf_split {s : Server} {c : Peer} {event : Event} {sents : List Sent}
    {before after : List Note} {note : Note}
    (h : sents.map (noteOf s c event) = before ++ note :: after) :
    sents = before.map Prod.fst ++ note.1 :: after.map Prod.fst ∧
      note = noteOf s c event note.1 := by
  obtain ⟨early, rest, rfl, rfl, hrest⟩ := List.map_eq_append_iff.mp h
  obtain ⟨sent, late, rfl, rfl, rfl⟩ := List.map_eq_cons_iff.mp hrest
  rw [map_fst_noteOf, map_fst_noteOf]
  exact ⟨rfl, rfl⟩

section Notes

variable [CppFloat F32] [Libm F32] [Platform]

def noted (c : Peer) (state : Network × List Note) (input : Input) : Network × List Note :=
  (state.1.step input,
    (if opens state.1.server input c then [] else state.2) ++
      (sentTo c input.now (ServerRun.step state.1.server input).2).map
        (noteOf state.1.server c input.event))

/-- The log of the connection at `c`, with what every packet was meant for. -/
def notes (config : Config) (startTime : Time) (inputs : List Input) (c : Peer) : List Note :=
  (run (noted c) (Network.initial config startTime, []) inputs).2

/-- All the lines meant for the player at `c` on its connection. -/
def account (config : Config) (startTime : Time) (inputs : List Input) (c : Peer) : List Bytes :=
  ((notes config startTime inputs c).filter (·.1.channel = .kReliable)).flatMap (·.2)

theorem noted_network (config : Config) (startTime : Time) (inputs : List Input) (c : Peer) :
    (run (noted c) (Network.initial config startTime, []) inputs).1 =
      Network.after config startTime inputs := by
  induction inputs using List.reverseRecOn with
  | nil => rfl
  | append_singleton inputs input ih =>
      rw [run_concat, Network.after_concat, ← ih]
      rfl

theorem notes_concat (config : Config) (startTime : Time) (inputs : List Input) (input : Input)
    (c : Peer) : notes config startTime (inputs ++ [input]) c =
      (if opens (Network.after config startTime inputs).server input c then []
        else notes config startTime inputs c) ++
        (sentTo c input.now
          (ServerRun.step (Network.after config startTime inputs).server input).2).map
          (noteOf (Network.after config startTime inputs).server c input.event) := by
  rw [notes, run_concat, noted, noted_network]
  rfl

theorem notes_fst (config : Config) (startTime : Time) (inputs : List Input) (c : Peer) :
    (notes config startTime inputs c).map Prod.fst =
      (Network.after config startTime inputs).link c := by
  induction inputs using List.reverseRecOn with
  | nil => rfl
  | append_singleton inputs input ih =>
      rw [notes_concat, Network.after_concat, List.map_append, map_fst_noteOf,
        apply_ite (List.map Prod.fst), ih]
      rfl

theorem note_origin {config : Config} {startTime : Time} {inputs : List Input} {c : Peer}
    {before after : List Note} {note : Note}
    (hsplit : notes config startTime inputs c = before ++ note :: after) :
    ∃ earlier input early late, earlier ++ [input] <+: inputs ∧
      let net := Network.after config startTime earlier
      sentTo c input.now (ServerRun.step net.server input).2 = early ++ note.1 :: late ∧
      note = noteOf net.server c input.event note.1 ∧
      before.map Prod.fst = (if opens net.server input c then [] else net.link c) ++ early := by
  induction inputs using List.reverseRecOn generalizing after with
  | nil => simp [notes] at hsplit
  | append_singleton inputs input ih =>
      have hfst : (if opens (Network.after config startTime inputs).server input c then []
          else notes config startTime inputs c).map Prod.fst =
            if opens (Network.after config startTime inputs).server input c then []
            else (Network.after config startTime inputs).link c := by
        rw [apply_ite (List.map Prod.fst), notes_fst]
        rfl
      rw [notes_concat] at hsplit
      rcases List.append_eq_append_iff.mp hsplit with ⟨middle, rfl, hnew⟩ | ⟨middle, hold, hafter⟩
      · -- it was sent in the last step
        obtain ⟨hsent, hnote⟩ := map_noteOf_split hnew
        refine ⟨inputs, input, _, _, List.prefix_refl _, hsent, hnote, ?_⟩
        rw [List.map_append, hfst]
      · cases middle with
        | nil =>
            rw [List.append_nil] at hold
            obtain ⟨hsent, hnote⟩ := @map_noteOf_split _ _ _ _ [] _ _ hafter.symm
            refine ⟨inputs, input, _, _, List.prefix_refl _, hsent, hnote, ?_⟩
            rw [← hold, hfst]
            exact (List.append_nil _).symm
        | cons first middle =>
            -- it was sent before
            obtain ⟨rfl, hrest⟩ := List.cons_eq_cons.mp hafter
            split at hold
            · simp at hold
            · obtain ⟨earlier, step, early, late, hfront, hfacts⟩ := ih hold
              exact ⟨earlier, step, early, late, hfront.trans (List.prefix_append _ _), hfacts⟩

end Notes

def spokenBy : Message → Option PlayerId
  | .chatBroadcast m => if m.sender = serverId then none else some m.sender
  | .playerRenamed m => some m.id
  | _ => none

/-- The player with the id spoke, while the one at `c` was in the game. -/
def Spoke (s : Server) (c : Peer) (event : Event) (id : PlayerId) : Prop :=
  joined s c = true ∧ ∃ peer player, speaker event = some peer ∧
    s.players.lookup peer = some player ∧ player.handshaked = true ∧ player.id = id

theorem of_one_split {α : Type} {p : Prop} [Decidable p] {only x : α} {early late : List α}
    (h : (if p then [only] else []) = early ++ x :: late) : p ∧ early = [] ∧ x = only := by
  split at h
  · rename_i hp
    cases early with
    | nil => exact ⟨hp, rfl, (List.cons_eq_cons.mp h).1.symm⟩
    | cons first early => simp at h
  · simp at h

section Effects

variable {now : Time} {s s' : Server} {event : Event} {outs : List Out} {c : Peer}
  {early late : List Sent} {sent : Sent} {m : Message} {id : PlayerId}

theorem event_of_spoken (heffect : Effect now s event s' outs) (hids' : IdsDistinct s')
    (hsent : sent ∈ sentTo c now outs) (hdecode : decode sent.bytes = some m)
    (hspoken : spokenBy m = some id) :
    ∃ peer bytes cause, event = .receive peer bytes ∧ decode bytes = some cause ∧
      (cause.id = .kChat ∨ cause.id = .kSetName) := by
  cases m with
  | chatBroadcast msg =>
      rw [spokenBy] at hspoken
      split at hspoken
      · cases hspoken
      · rename_i hsender
        obtain ⟨peer, -, bytes, -, hevent, hbytes, ⟨chat, rfl⟩, -⟩ :=
          sent_chat heffect hids' hsent hdecode hsender
        exact ⟨peer, bytes, _, hevent, hbytes, .inl rfl⟩
  | playerRenamed msg =>
      obtain ⟨peer, -, bytes, -, hevent, hbytes, ⟨name, rfl⟩, -⟩ :=
        sent_renamed heffect hids' hsent hdecode
      exact ⟨peer, bytes, _, hevent, hbytes, .inr rfl⟩
  | _ => cases hspoken

theorem spoke_of_spoken (heffect : Effect now s event s' outs) (hids' : IdsDistinct s')
    (hsent : sentTo c now outs = early ++ sent :: late) (hdecode : decode sent.bytes = some m)
    (hspoken : spokenBy m = some id) : early = [] ∧ Spoke s c event id := by
  have hmem : sent ∈ sentTo c now outs := by rw [hsent]; simp
  obtain ⟨peer, bytes, cause, rfl, hbytes, hcause⟩ := event_of_spoken heffect hids' hmem hdecode hspoken
  have hother : ∀ {m : Message}, decode bytes = some m → m.id ≠ .kChat → m.id ≠ .kSetName →
      early = [] ∧ Spoke s c (.receive peer bytes) id := by
    intro m hm hchat hname
    obtain rfl := Option.some.inj (hm.symm.trans hbytes)
    exact absurd hcause (not_or_intro hchat hname)
  -- what a player is broadcast of another
  have hsaid : ∀ {peer : Peer} {player player' : Player} {packet : Bytes},
      s.players.lookup peer = some player → player.handshaked = true → player'.handshaked = true →
      sentTo c now (broadcast (setPlayer s peer player') .kReliable packet none) =
        early ++ sent :: late → (sent.bytes = packet → player.id = id) →
      early = [] ∧ Spoke s c (.receive peer bytes) id := by
    intro peer player player' packet hplayer hshake hshake' hsent hid
    rw [sentTo_broadcast] at hsent
    obtain ⟨⟨hjoined, -⟩, hearly, rfl⟩ := of_one_split hsent
    refine ⟨hearly, ?_, peer, player, rfl, hplayer, hshake, hid rfl⟩
    rw [joined_setPlayer hplayer] at hjoined
    split at hjoined
    · rename_i hc
      rw [hc, joined_eq hplayer, hshake]
    · exact hjoined
  cases heffect with
  | idle => cases hmem
  | kicked _ _ reason =>
      rw [sentTo_kick] at hsent
      obtain ⟨-, -, rfl⟩ := of_one_split hsent
      rw [decode_reject] at hdecode
      cases hdecode
      cases hspoken
  | joined _ _ _ _ _ _ hhello => exact hother hhello (by rintro ⟨⟩) (by rintro ⟨⟩)
  | stated _ _ _ _ _ _ hstate => exact hother hstate (by rintro ⟨⟩) (by rintro ⟨⟩)
  | chatCounted peer player _ _ hplayer hshake houts =>
      rcases houts with rfl | rfl
      · cases hmem
      · rw [sentTo_send] at hsent
        obtain ⟨-, -, rfl⟩ := of_one_split hsent
        rw [decode_chatBroadcast] at hdecode
        cases hdecode
        cases hspoken
  | chatted peer player _ _ hplayer hshake _ =>
      refine hsaid hplayer hshake (by simp [hshake]) hsent fun hpacket => ?_
      rw [hpacket, decode_chatBroadcast] at hdecode
      cases hdecode
      change (if player.id = serverId then none else some player.id) = some id at hspoken
      split at hspoken
      · cases hspoken
      · exact Option.some.inj hspoken
  | renamed peer player _ msg hplayer hshake _ =>
      have hshake' : { player with name := sanitizeName msg.name }.handshaked = true := hshake
      refine hsaid hplayer hshake hshake' hsent fun hpacket => ?_
      rw [hpacket, decode_playerRenamed] at hdecode
      cases hdecode
      exact Option.some.inj hspoken

end Effects

def hearLine (state : (PlayerId × Names) × List Bytes) (bytes : Bytes) :
    (PlayerId × Names) × List Bytes :=
  (learn state.1 bytes, state.2 ++ printPacket state.1.1 state.1.2 bytes)

/-- What a client prints of the packets of a connection. -/
def printed (got : List Bytes) : List Bytes := (got.foldl hearLine (stranger, [])).2

theorem hearLine_fst (got : List Bytes) :
    (got.foldl hearLine (stranger, [])).1 = got.foldl learn stranger := by
  induction got using List.reverseRecOn with
  | nil => rfl
  | append_singleton got bytes ih =>
      rw [List.foldl_concat, List.foldl_concat, ← ih]
      rfl

theorem printed_concat (got : List Bytes) (bytes : Bytes) :
    printed (got ++ [bytes]) = printed got ++
      printPacket (got.foldl learn stranger).1 (got.foldl learn stranger).2 bytes := by
  rw [printed, List.foldl_concat, ← hearLine_fst]
  rfl

/-- A client that knows its id and the names of the others in the game. -/
structure Follows (s : Server) (c : Peer) (known : PlayerId × Names) : Prop where
  own : ∀ player, s.players.lookup c = some player → player.handshaked = true →
    known.1 = player.id
  others : ∀ id name, Present s c id name → known.2 id = some name

theorem linesOf_eq_meant {s : Server} {c : Peer} {event : Event} {known : PlayerId × Names}
    {m : Message} (hids : IdsDistinct s)
    (h : ∀ id, spokenBy m = some id → Spoke s c event id ∧ Follows s c known) :
    linesOf known.1 known.2 m = meant s c event m := by
  -- who is called by which name
  have hcalled : ∀ id, spokenBy m = some id →
      (speaker event = some c ↔ id = known.1) ∧
        (speaker event ≠ some c → nameOf known.2 id = speakerName s event) := by
    intro id hspoken
    obtain ⟨⟨hjoined, peer, player, hspeaker, hplayer, hshake, rfl⟩, hfollows⟩ := h id hspoken
    obtain ⟨own, hown, hownshake⟩ := joined_iff.mp hjoined
    rw [hspeaker, hfollows.own own hown hownshake, Option.some.injEq]
    refine ⟨⟨?_, fun hid => hids.players hplayer hshake hown hownshake hid⟩, fun hother => ?_⟩
    · rintro rfl
      rw [Option.some.inj (hplayer.symm.trans hown)]
    · have hname := hfollows.others player.id player.name
        (.inl ⟨peer, player, fun hc => hother (by rw [hc]), hplayer, hshake, rfl, rfl⟩)
      simp [nameOf, hname, speakerName, hspeaker, hplayer]
  cases m with
  | chatBroadcast msg =>
      dsimp only [linesOf, printChat, meant]
      by_cases hserver : msg.sender = serverId
      · rw [if_pos hserver, if_pos hserver]
      · obtain ⟨hown, hname⟩ := hcalled msg.sender (if_neg hserver)
        rw [if_neg hserver, if_neg hserver]
        by_cases hspeaker : speaker event = some c
        · rw [if_pos hspeaker, if_pos (hown.mp hspeaker)]
          rfl
        · rw [if_neg hspeaker, if_neg (fun hid => hspeaker (hown.mpr hid)), hname hspeaker]
  | playerRenamed msg =>
      obtain ⟨hown, hname⟩ := hcalled msg.id rfl
      dsimp only [linesOf, printRenamed, meant]
      by_cases hspeaker : speaker event = some c
      · rw [if_pos hspeaker, if_pos (hown.mp hspeaker)]
      · rw [if_neg hspeaker, if_neg (fun hid => hspeaker (hown.mpr hid)), hname hspeaker]
  | _ => rfl

theorem printPacket_state {myId : PlayerId} {names : Names} {sent : Sent}
    (h : kind sent = some .kPlayerStateUpdate) : printPacket myId names sent.bytes = [] := by
  rw [printPacket_eq]
  cases hdecode : decode sent.bytes with
  | none => rfl
  | some m =>
      rw [kind, hdecode] at h
      cases m with
      | playerStateUpdate => rfl
      | _ => cases h

section Runs

variable [CppFloat F32] [Libm F32] [Platform]

theorem follows_of_delivered {config : Config} {startTime : Time} {inputs : List Input} {c : Peer}
    (hids : ∀ before, before <+: inputs →
      IdsDistinct (Network.after config startTime before).server) {delivered : List Sent}
    (hjoined : joined (Network.after config startTime inputs).server c = true)
    (hstates : ∀ sent ∈ delivered, sent.channel = .kUnreliable →
      kind sent = some .kPlayerStateUpdate)
    (hdelivered : reliable delivered = reliable ((Network.after config startTime inputs).link c)) :
    Follows (Network.after config startTime inputs).server c
      ((delivered.map (·.bytes)).foldl learn stranger) := by
  obtain ⟨own, hown, hshake⟩ := joined_iff.mp hjoined
  have hgate := (gated_after config startTime inputs c).opened hown hshake
  have hshows := (synced_of_distinct config startTime inputs c hids own hown hshake).1
  have hall := states_after config startTime inputs c
  generalize (Network.after config startTime inputs).link c = link at *
  -- the states that came along, late or early, may as well have been sent in the end
  generalize hlate : delivered.filter (·.channel = .kUnreliable) = late
  have hchannel : ∀ sent ∈ late, sent.channel = .kUnreliable := fun sent hsent => by
    rw [← hlate] at hsent
    exact of_decide_eq_true (List.mem_filter.mp hsent).2
  have hkind : ∀ sent ∈ late, kind sent = some .kPlayerStateUpdate := fun sent hsent => by
    refine hstates sent ?_ (hchannel sent hsent)
    rw [← hlate] at hsent
    exact (List.mem_filter.mp hsent).1
  have hnone : reliable late = [] := List.filter_eq_nil_iff.mpr fun sent hsent => by
    rw [hchannel sent hsent]
    decide
  have hreliable : reliable (link ++ late) = reliable link := by
    rw [reliable, List.filter_append, ← reliable, ← reliable, hnone, List.append_nil]
  have hknows := @knows_of_drained _ delivered _ (hgate.append_opened fun sent hsent hwelcome => by
      rw [IsWelcome, hkind sent hsent] at hwelcome
      cases hwelcome)
    (fun sent hsent hunreliable => (List.mem_append.mp hsent).elim
      (fun hold => hall sent hold hunreliable) fun hnew => hkind sent hnew)
    ⟨by rw [← reliable, ← reliable, hreliable, hdelivered], by
      rw [hlate, List.filter_append]
      refine List.Sublist.trans ?_ (List.sublist_append_right _ _)
      rw [List.filter_eq_self.mpr fun sent hsent => decide_eq_true (hchannel sent hsent)]⟩
    (by rw [hreliable, hdelivered])
  rw [sinceWelcome_append (hgate.welcome_iff.mpr rfl), rosterOf, heard_append, heard_eq late, hnone,
    List.filterMap_nil, List.append_nil, ← rosterOf] at hknows
  refine ⟨fun player hplayer _ => ?_, fun id name hpresent => ?_⟩
  · rw [hknows.id_eq, Option.some.inj (hown.symm.trans hplayer)]
  · have hother := (Chronicle.inGame_of_present (hids inputs (List.prefix_refl _)) hown hshake
      hpresent).2
    exact hknows.names id hother name ((hshows id name).mpr hpresent)

theorem printPacket_note {config : Config} {startTime : Time} {inputs : List Input} {c : Peer}
    (hids : ∀ before, before <+: inputs →
      IdsDistinct (Network.after config startTime before).server)
    {before after : List Note} {note : Note}
    (hsplit : notes config startTime inputs c = before ++ note :: after) {delivered : List Sent}
    (hstates : ∀ sent ∈ delivered, sent.channel = .kUnreliable →
      kind sent = some .kPlayerStateUpdate)
    (hdelivered : reliable delivered = reliable (before.map Prod.fst)) :
    printPacket ((delivered.map (·.bytes)).foldl learn stranger).1
      ((delivered.map (·.bytes)).foldl learn stranger).2 note.1.bytes = note.2 := by
  obtain ⟨earlier, input, early, late, hfront, hsent, hnote, hbefore⟩ := note_origin hsplit
  have hfront' : earlier <+: inputs := (List.prefix_append _ _).trans hfront
  have heffect := step_effect (Network.after config startTime earlier).server input
  have hids' : IdsDistinct (ServerRun.step (Network.after config startTime earlier).server input).1 := by
    have hafter := hids _ hfront
    rwa [Network.after_concat] at hafter
  rw [printPacket_eq, hnote]
  cases hdecode : decode note.1.bytes with
  | none => simp [noteOf, hdecode]
  | some m =>
      simp only [noteOf, hdecode, Option.elim_some]
      refine linesOf_eq_meant (hids earlier hfront') fun id hspoken => ?_
      obtain ⟨hearly, hjoined, peer, player, hspeaker, hplayer, hshake, hid⟩ :=
        spoke_of_spoken heffect hids' hsent hdecode hspoken
      rw [joined_reorder] at hjoined
      rw [lookup_reorder] at hplayer
      refine ⟨⟨hjoined, peer, player, hspeaker, hplayer, hshake, hid⟩, ?_⟩
      -- whoever speaks is connected already
      have hopens : opens (Network.after config startTime earlier).server input c = false := by
        cases hevent : input.event with
        | receive => simp [opens, hevent]
        | connect | disconnect | updateBots | command => rw [hevent] at hspeaker; cases hspeaker
      rw [hopens, hearly, List.append_nil] at hbefore
      refine follows_of_delivered (fun first hfirst => hids first (hfirst.trans hfront')) hjoined
        hstates ?_
      rw [hdelivered, hbefore]
      rfl

/-- What is printed of the packets that arrive is what those that are reliable were meant
for. -/
theorem printed_of_delivers {config : Config} {startTime : Time} {inputs : List Input} {c : Peer}
    (hids : ∀ before, before <+: inputs →
      IdsDistinct (Network.after config startTime before).server) {delivered : List Sent}
    (hdelivers : Delivers ((Network.after config startTime inputs).link c) delivered) :
    printed (delivered.map (·.bytes)) =
      (((notes config startTime inputs c).filter (·.1.channel = .kReliable)).take
        (reliable delivered).length).flatMap (·.2) := by
  induction delivered using List.reverseRecOn with
  | nil => rfl
  | append_singleton delivered sent ih =>
      have hstates : ∀ packet ∈ delivered ++ [sent], packet.channel = .kUnreliable →
          kind packet = some .kPlayerStateUpdate := fun packet hpacket =>
        states_after config startTime inputs c packet (hdelivers.mem hpacket)
      rw [List.map_append, List.map_singleton, printed_concat, ih hdelivers.of_append, reliable,
        reliable, List.filter_append]
      cases hchannel : sent.channel with
      | kUnreliable =>
          rw [printPacket_state (hstates sent (by simp) hchannel), List.append_nil,
            List.filter_cons_of_neg (by simp [hchannel]), List.filter_nil, List.append_nil]
      | kReliable =>
          rw [List.filter_cons_of_pos (by simp [hchannel]), List.filter_nil, List.length_append,
            List.length_singleton]
          obtain ⟨rest, hrest⟩ := hdelivers.reliable
          rw [← notes_fst, List.filter_append, List.filter_cons_of_pos (by simp [hchannel]),
            List.filter_nil, List.append_assoc, List.singleton_append, List.filter_map] at hrest
          obtain ⟨first, others, hnotes, hfirst, hothers⟩ := List.map_eq_append_iff.mp hrest.symm
          obtain ⟨note, later, rfl, hnote, -⟩ := List.map_eq_cons_iff.mp hothers
          have hnotes' : (notes config startTime inputs c).filter (·.1.channel = .kReliable) =
              first ++ note :: later := hnotes
          obtain ⟨before, after, hsplit, hbefore, hafter⟩ := List.filter_eq_append_iff.mp hnotes'
          obtain ⟨between, last, rfl, hbetween, -, -⟩ := List.filter_eq_cons_iff.mp hafter
          rw [← List.append_assoc] at hsplit
          have hprints := @printPacket_note _ _ _ _ _ _ _ hids _ _ _ hsplit delivered
            (fun packet hpacket => hstates packet (List.mem_append_left _ hpacket)) ?_
          · rw [← hnote, hprints, hnotes', ← hfirst, List.length_map, List.take_left,
              List.take_length_add_append, List.flatMap_append]
            simp
          · have hnone : between.filter (·.1.channel = .kReliable) = [] :=
              List.filter_eq_nil_iff.mpr hbetween
            rw [reliable, reliable, List.filter_map, ← hfirst]
            change _ = ((before ++ between).filter (·.1.channel = .kReliable)).map Prod.fst
            rw [List.filter_append, hnone, List.append_nil, hbefore]

end Runs

section Parties

variable {D : Type} [CppFloat F32]

/-- An ENet event is handled, with what is printed of packets since the connection was
made. -/
def overhear (state : Session × Names × List Bytes) (event : NetEvent D) :
    Session × Names × List Bytes :=
  let result := SessionModel.handleNetEvent state.1 event
  (result.1, (remoteOps result.2).foldl renamed state.2.1,
    match event with
    | .connect _ => []
    | .receive bytes _ => state.2.2 ++ printPacket state.1.myId state.2.1 bytes
    | .disconnect => state.2.2)

/-- The ENet events a session handles in an event. -/
def heardEvents (session : Session) (event : SessionModel.Event D) : List (NetEvent D) :=
  if session.net.host then netEvents event else []

theorem overhear_events {peer after : EnetPeer} {account : Account} {session : Session}
    {sent : List Sent} {got : List Bytes} {names : Names} {events : List (NetEvent D)}
    (hsound : Sound peer account session) (h : Speaks sent got names session)
    (hraise : events.foldlM EnetPeer.raise peer = some after) :
    (events.foldl overhear (session, names, printed got)).2.2 = printed (events.foldl taken got) := by
  induction events generalizing peer account session sent got names with
  | nil => rfl
  | cons event events ih =>
      rw [List.foldlM_cons] at hraise
      obtain ⟨middle, hfirst, hrest⟩ := Option.bind_eq_some_iff.mp hraise
      obtain ⟨account', -, hsound'⟩ := keeps_handleNetEvent hsound hfirst
      have hafter := ih hsound' (h.turn (ClientTurns.turn_handleNetEvent hsound hfirst)) hrest
      rw [List.foldl_cons, List.foldl_nil] at hafter
      rw [List.foldl_cons, List.foldl_cons, ← hafter]
      cases event with
      | connect playerName | disconnect => rfl
      | receive bytes reading =>
          have hconnected : session.net.state = .kConnected := by
            cases peer with
            | free | connecting => cases hfirst
            | connected => exact hsound.state
          rw [taken, printed_concat, ← h.known hconnected]
          rfl

variable [CppFloat D] [Libm F32] [Narrow D F32] [Widen F32 D]

def transcribe (state : Client D × List Bytes) (input : ClientRun.Input D) : Client D × List Bytes :=
  (state.1.step input,
    ((heardEvents state.1.session input.event).foldl overhear
      (state.1.session, names state.1.scene, state.2)).2.2)

/-- What a client printed of the packets it got on its connection. -/
def transcript (party : Party D) : List Bytes :=
  (run transcribe (.initial party.config party.gameVersion party.enetReady, []) party.inputs).2

theorem transcribe_client (party : Party D) :
    (run transcribe (.initial party.config party.gameVersion party.enetReady, []) party.inputs).1 =
      party.watched.client := by
  rw [Party.watched, Watched.client_after, Client.after]
  generalize party.inputs = inputs
  induction inputs using List.reverseRecOn with
  | nil => rfl
  | append_singleton inputs input ih =>
      rw [run_concat, run_concat, ← ih]
      rfl

theorem transcript_eq {party : Party D} (henet : party.watched.enet ≠ none) :
    transcript party = printed party.received := by
  obtain ⟨config, gameVersion, enetReady, inputs⟩ := party
  induction inputs using List.reverseRecOn with
  | nil => rfl
  | append_singleton inputs input ih =>
      obtain ⟨before, after, account, hbefore, hsound, hraise⟩ := sound_before henet
      have hearlier : (Party.watched ⟨config, gameVersion, enetReady, inputs⟩ : Watched D).enet ≠
          none := by
        rw [Party.watched, hbefore]
        rintro ⟨⟩
      have hspeaks := speaks_after hearlier
      have hclient := transcribe_client (⟨config, gameVersion, enetReady, inputs⟩ : Party D)
      have hlines := ih hearlier
      rw [transcript] at hlines ⊢
      dsimp only at hclient hlines ⊢
      rw [run_concat, transcribe, hclient, hlines]
      -- without a host there was nothing to hear
      have hheard : heardEvents
          (Party.watched ⟨config, gameVersion, enetReady, inputs⟩ : Watched D).client.session
          input.event = netEvents input.event := by
        rw [heardEvents]
        split
        · rfl
        · rename_i hhost
          cases hevents : netEvents input.event with
          | nil => rfl
          | cons event events =>
              rw [hevents, List.foldlM_cons] at hraise
              refine absurd (hsound.host ?_) hhost
              rintro rfl
              cases hraise
      have hreceived : Party.received ⟨config, gameVersion, enetReady, inputs ++ [input]⟩ =
          (netEvents input.event).foldl taken
            (Party.received ⟨config, gameVersion, enetReady, inputs⟩) := by
        simp only [Party.received, eventsOf, List.flatMap_append, List.foldl_append,
          List.flatMap_singleton]
      rw [hheard, hreceived]
      exact overhear_events hsound hspeaks hraise

variable [Platform]

variable {config : Config} {startTime : Time} {inputs : List Input} {c : Peer} {party : Party D}
  {delivered : List Sent}

theorem transcript_of_delivers (hids : ∀ before, before <+: inputs →
      IdsDistinct (Network.after config startTime before).server)
    (henet : party.watched.enet ≠ none) (hreceived : party.received = delivered.map (·.bytes))
    (hdelivers : Delivers ((Network.after config startTime inputs).link c) delivered) :
    transcript party = (((notes config startTime inputs c).filter
      (·.1.channel = .kReliable)).take (reliable delivered).length).flatMap (·.2) := by
  rw [transcript_eq henet, hreceived, printed_of_delivers hids hdelivers]

theorem take_notes_front (config : Config) (startTime : Time) (inputs : List Input) (c : Peer)
    (n : Nat) : (((notes config startTime inputs c).filter (·.1.channel = .kReliable)).take
      n).flatMap (·.2) <+: account config startTime inputs c := by
  rw [account]
  conv_rhs => rw [← List.take_append_drop n ((notes config startTime inputs c).filter _),
    List.flatMap_append]
  exact List.prefix_append _ _

theorem take_notes_all (hdrained : reliable delivered =
      reliable ((Network.after config startTime inputs).link c)) :
    (((notes config startTime inputs c).filter (·.1.channel = .kReliable)).take
      (reliable delivered).length).flatMap (·.2) = account config startTime inputs c := by
  have hlength : ((notes config startTime inputs c).filter (·.1.channel = .kReliable)).length =
      (reliable delivered).length := by
    rw [hdrained, ← notes_fst, reliable, List.filter_map, List.length_map]
    rfl
  rw [List.take_of_length_le hlength.le, account]

/-- While no id was given twice: what a client prints on its connection of the packets
that arrived is the beginning of what the server meant for it, each line under the name
the speaker had when it spoke, and all of it once every reliable packet arrived. -/
theorem transcript_of_account (config : Config) (startTime : Time) (inputs : List Input)
    (hissued : (Network.after config startTime inputs).issued < 2 ^ 32 - 1) (c : Peer)
    (party : Party D) (henet : party.watched.enet ≠ none) (delivered : List Sent)
    (hreceived : party.received = delivered.map (·.bytes))
    (hdelivers : Delivers ((Network.after config startTime inputs).link c) delivered) :
    transcript party <+: account config startTime inputs c ∧
      (reliable delivered = reliable ((Network.after config startTime inputs).link c) →
        transcript party = account config startTime inputs c) := by
  rw [transcript_of_delivers (idsDistinct_of_earlier hissued) henet hreceived hdelivers]
  exact ⟨take_notes_front _ _ _ _ _, take_notes_all⟩

end Parties

section Example

open F4MP.Native

def greeted : List Input :=
  twoPlayers ++ [⟨0, .keep _, .receive 0 (encode { text := ascii "hi" : ChatMsg })⟩]

/-- The second one reads it under the name of the first. -/
theorem transcript_of_second : (transcript (bob greeted)).getLast? = some (ascii "Ada: hi") := by
  have haccount := (transcript_of_account {} 0 greeted (by decide +kernel) 1 (bob greeted)
    (by decide +kernel) ((Network.after {} 0 greeted).link 1) (by decide +kernel)
    ⟨List.prefix_refl _, List.Sublist.refl _⟩).2 rfl
  rw [haccount]
  decide +kernel

end Example

end F4MP.Transcript
