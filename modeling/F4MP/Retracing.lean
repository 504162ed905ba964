import F4MP.Library.Rising
import F4MP.Newest
import F4MP.ServerAlike
import F4MP.Sightings

/-!
A clone retraces its player: what a client holds of another player, oldest first, are
states that the player sent, in the order it sent them and none twice.
-/

namespace F4MP.Retracing

open F4MP.Types
open F4MP.Protocol
open F4MP.Messages
open F4MP.Arith
open F4MP.Interp
open F4MP.ServerModel (Peer Player Time Server Out Bot announce broadcast catchUp kick nowMs send
  serverChat acceptState addBot farewell welcomedPlayer)
open F4MP.ServerRun
open F4MP.ServerTraffic
open F4MP.ServerEffects
open F4MP.ServerAlike
open F4MP.Handshake
open F4MP.Participants
open F4MP.Records
open F4MP.RemotePlayersModel
open F4MP.Connection
open F4MP.ClientRun
open F4MP.NameAgreement
open F4MP.Snapshots (buffer buffer_eq buffers_perform buffers_reorder kept_after)
open F4MP.Relay
open F4MP.Sightings
open F4MP.Chronicle
open F4MP.Newest
open F4MP.Timeline
open F4MP.SentNames
open F4MP.Manners
open F4MP.WorldModel
open F4MP.Rehearsal
open F4MP.Library.Rising
open F4MP.Library.Runs
open F4MP.Library.Wires

/-- The state of the player that a packet of the server tells of. -/
def tellOf (id : PlayerId) (sent : Sent) : Option (PlayerState F32) :=
  (updateOf sent).bind fun msg => if msg.id = id then some msg.state else none

/-- The state that a packet of a client has. -/
def sayOf (bytes : Bytes) : Option (PlayerState F32) :=
  match decode bytes with
  | some (.playerState msg) => some msg.state
  | _ => none

theorem tellOf_eq_some {id : PlayerId} {sent : Sent} {state : PlayerState F32} :
    tellOf id sent = some state ↔
      ∃ msg, updateOf sent = some msg ∧ msg.id = id ∧ msg.state = state := by
  rw [tellOf, Option.bind_eq_some_iff]
  refine exists_congr fun msg => and_congr_right fun _ => ?_
  split
  · rename_i hid
    rw [Option.some.injEq]
    exact ⟨fun hstate => ⟨hid, hstate⟩, fun h => h.2⟩
  · rename_i hid
    exact ⟨by rintro ⟨⟩, fun h => absurd h.1 hid⟩

theorem sayOf_eq_some {bytes : Bytes} {state : PlayerState F32} :
    sayOf bytes = some state ↔
      ∃ msg : PlayerStateMsg, decode bytes = some (.playerState msg) ∧ msg.state = state := by
  rw [sayOf]
  split
  · rename_i msg hdecode
    rw [hdecode]
    simp
  · rename_i hnone
    exact ⟨by rintro ⟨⟩, by rintro ⟨msg, hdecode, -⟩; exact absurd hdecode (hnone msg)⟩

theorem tellOf_of_kind {id : PlayerId} {sent : Sent} (h : kind sent ≠ some .kPlayerStateUpdate) :
    tellOf id sent = none := by
  rw [Option.eq_none_iff_forall_ne_some]
  intro state htell
  obtain ⟨msg, hupdate, -⟩ := tellOf_eq_some.mp htell
  rw [kind, updateOf_eq_some.mp hupdate] at h
  exact h rfl

theorem tellOf_update (id : PlayerId) (now : Time) (channel : Channel)
    (msg : PlayerStateUpdateMsg) :
    tellOf id ⟨now, channel, encode msg⟩ = if msg.id = id then some msg.state else none := by
  have hupdate : updateOf ⟨now, channel, encode msg⟩ = some msg :=
    updateOf_eq_some.mpr (decode_playerStateUpdate msg)
  rw [tellOf, hupdate, Option.bind_some]

section Effects

variable {now : Time} {s s' : Server} {event : Event} {outs : List Out} {id : PlayerId} {d : Peer}

/-- The states of a player that one peer is told. -/
def tellsTo (id : PlayerId) (d : Peer) (now : Time) (outs : List Out) : List (PlayerState F32) :=
  (sentTo d now outs).filterMap (tellOf id)

theorem tellsTo_append (id : PlayerId) (d : Peer) (now : Time) (outs more : List Out) :
    tellsTo id d now (outs ++ more) = tellsTo id d now outs ++ tellsTo id d now more := by
  rw [tellsTo, sentTo_append, List.filterMap_append, tellsTo, tellsTo]

theorem tellsTo_flatMap {α : Type} (id : PlayerId) (d : Peer) (now : Time) (items : List α)
    (f : α → List Out) :
    tellsTo id d now (items.flatMap f) = items.flatMap fun item => tellsTo id d now (f item) := by
  rw [tellsTo, sentTo_flatMap, List.filterMap_flatMap]
  rfl

theorem tellsTo_of_kind (h : ∀ sent ∈ sentTo d now outs, kind sent ≠ some .kPlayerStateUpdate) :
    tellsTo id d now outs = [] :=
  List.filterMap_eq_nil_iff.mpr fun sent hsent => tellOf_of_kind (h sent hsent)

theorem tellsTo_broadcast {channel : Channel} {bytes : Bytes} {except : Option Peer}
    (h : kind ⟨now, channel, bytes⟩ ≠ some .kPlayerStateUpdate) :
    tellsTo id d now (broadcast s channel bytes except) = [] := by
  refine tellsTo_of_kind fun sent hsent => ?_
  rw [(mem_sentTo_broadcast.mp hsent).2]
  exact h

theorem tellsTo_serverChat (text : Bytes) : tellsTo id d now (serverChat s text) = [] :=
  tellsTo_broadcast (by simp)

theorem tellsTo_farewell (bots : List Bot) :
    tellsTo id d now (bots.flatMap (farewell s)) = [] := by
  refine tellsTo_of_kind fun sent hsent => ?_
  obtain ⟨-, bot, -, rfl | rfl⟩ := mem_sentTo_farewell hsent <;> simp

theorem tellsTo_announce (id' : PlayerId) (stamp : UInt32) (name : Bytes) (hasState : Bool)
    (state : PlayerState F32) :
    tellsTo id d now (announce d stamp id' name hasState state) =
      (if id' = id ∧ hasState = true then some state else none).toList := by
  have hjoined : tellOf id ⟨now, .kReliable, encode { id := id', name : PlayerJoinedMsg }⟩ = none :=
    tellOf_of_kind (by simp)
  rw [tellsTo, sentTo_announce, if_pos rfl, List.filterMap_append, List.filterMap_cons_none hjoined]
  cases hasState with
  | false => simp
  | true =>
      rw [if_pos rfl, List.filterMap_cons, tellOf_update]
      dsimp only
      by_cases hid : id' = id
      · rw [if_pos hid, if_pos ⟨hid, rfl⟩]
        rfl
      · rw [if_neg hid, if_neg fun h => hid h.1]
        rfl

theorem tellsTo_catchUp (hids : IdsDistinct s) {c : Peer} {player : Player}
    (hplayer : s.players.lookup c = some player) (hshake : player.handshaked = true) :
    (tellsTo player.id d now (catchUp s now d)).Sublist
      (if c ≠ d ∧ player.hasState = true then [player.state] else []) := by
  have hfound : ∀ entry ∈ told s d, entry.2.id = player.id → c ≠ d ∧ entry = ⟨c, player⟩ := by
    intro entry hentry hid
    obtain ⟨hroll, hne⟩ := List.mem_filter.mp hentry
    obtain ⟨hmem, hin⟩ := List.mem_filter.mp hroll
    have hlookup := AList.mem_lookup_iff.mpr hmem
    obtain rfl := hids.players hlookup hin hplayer hshake hid
    obtain rfl := Option.some.inj (hlookup.symm.trans hplayer)
    exact ⟨by simpa using hne, rfl⟩
  have hbots : (s.bots.flatMap fun bot => tellsTo player.id d now
      (announce d (nowMs s now) bot.id bot.name bot.hasState bot.state)) = [] := by
    refine List.flatMap_eq_nil_iff.mpr fun bot hbot => ?_
    rw [tellsTo_announce, if_neg fun h => hids.apart hplayer hshake hbot h.1.symm]
    rfl
  rw [catchUp_eq_told, tellsTo_append, tellsTo_flatMap, tellsTo_flatMap, hbots, List.append_nil]
  simp only [tellsTo_announce]
  rw [← List.filterMap_eq_flatMap_toList]
  split
  · refine filterMap_sublist_singleton ?_ ?_
    · have hkeys : (told s d).Pairwise fun a b => a.1 ≠ b.1 :=
        (List.nodupKeys_iff_pairwise.mp s.players.nodupKeys).sublist
          (List.filter_sublist.trans List.filter_sublist)
      refine hkeys.imp_of_mem fun {a b} ha hb hne => ?_
      by_contra hboth
      simp only [ite_eq_right_iff, reduceCtorEq, imp_false, not_or, not_not] at hboth
      rw [(hfound a ha hboth.1.1).2, (hfound b hb hboth.2.1).2] at hne
      exact hne rfl
    · intro entry hentry state hstate
      split at hstate
      · rename_i hid
        obtain rfl := Option.some.inj hstate
        rw [(hfound entry hentry hid.1).2]
      · cases hstate
  · rename_i hnot
    refine (List.filterMap_eq_nil_iff.mpr fun entry hentry => if_neg fun hid => ?_) ▸
      List.Sublist.refl _
    obtain ⟨hne, rfl⟩ := hfound entry hentry hid.1
    exact hnot ⟨hne, hid.2⟩

/-- What one step tells a peer of the states of a player: nothing, the state that the player
sends in it, or, if the peer is a newcomer, the state on record. -/
theorem tells_effect (heffect : Effect now s event s' outs) (hids' : IdsDistinct s') {c : Peer}
    {player : Player} (hplayer : s'.players.lookup c = some player)
    (hshake : player.handshaked = true) (d : Peer) :
    tellsTo player.id d now outs = [] ∨
      (∃ bytes, event = .receive c bytes ∧
        (tellsTo player.id d now outs).Sublist ([bytes].filterMap sayOf)) ∨
      ((∃ newcomer, s.players.lookup d = some newcomer ∧ newcomer.handshaked = false) ∧
        player.hasState = true ∧ (tellsTo player.id d now outs).Sublist [player.state]) := by
  cases heffect with
  | idle | connected | dropped => exact .inl rfl
  | kicked peer reason =>
      refine .inl (tellsTo_of_kind fun sent hsent => ?_)
      rw [sentTo_kick] at hsent
      split at hsent
      · rw [List.mem_singleton.mp hsent]
        simp
      · cases hsent
  | joined peer newcomer bytes hello hnewcomer hunshaken hdecode hversion =>
      by_cases hd : peer = d
      · subst hd
        have hcaught : (tellsTo player.id peer now
            (catchUp (seat s peer newcomer hello) now peer)).Sublist _ :=
          tellsTo_catchUp hids' hplayer hshake
        have hgreeted : tellsTo player.id peer now
            (ServerModel.greet (seat s peer newcomer hello) now peer
              (welcomedPlayer s newcomer hello)) =
            tellsTo player.id peer now (catchUp (seat s peer newcomer hello) now peer) := by
          have hwelcome : ∀ msg : WelcomeMsg,
              tellOf player.id ⟨now, .kReliable, encode msg⟩ = none :=
            fun msg => tellOf_of_kind (by simp)
          have hchat : ∀ msg : ChatBroadcastMsg,
              tellOf player.id ⟨now, .kReliable, encode msg⟩ = none :=
            fun msg => tellOf_of_kind (by simp)
          rw [tellsTo, sentTo_greet, if_pos rfl, List.filterMap_cons_none (hwelcome _),
            List.filterMap_append]
          split
          · rw [List.filterMap_cons_none (hchat _), List.filterMap_nil, List.append_nil, tellsTo]
          · rw [List.filterMap_nil, List.append_nil, tellsTo]
        rw [hgreeted]
        split at hcaught
        · rename_i hstate
          exact .inr (.inr ⟨⟨newcomer, hnewcomer, hunshaken⟩, hstate.2, hcaught⟩)
        · exact .inl (List.sublist_nil.mp hcaught)
      · refine .inl (tellsTo_of_kind fun sent hsent => ?_)
        rw [sentTo_greet, if_neg hd] at hsent
        split at hsent
        · rcases List.mem_cons.mp hsent with rfl | hsent
          · simp
          · rw [List.mem_singleton.mp hsent]
            simp
        · cases hsent
  | stated peer mover bytes msg hmover hmoves hdecode hok =>
      have htells : (tellsTo player.id d now (acceptState s now peer mover msg.state).2).Sublist
          (if mover.id = player.id then [msg.state] else []) := by
        rw [tellsTo, acceptState, sentTo_broadcast]
        split
        · rw [List.filterMap_cons, tellOf_update]
          dsimp only
          by_cases hid : mover.id = player.id
          · rw [if_pos hid, if_pos hid]
            exact List.Sublist.refl _
          · rw [if_neg hid, if_neg hid]
            exact List.Sublist.refl _
        · exact List.nil_sublist _
      split at htells
      · rename_i hid
        have hmoved : (acceptState s now peer mover msg.state).1.players.lookup peer =
            some { mover with state := msg.state, hasState := true } :=
          (lookup_setPlayer hmover _ peer).trans (if_pos rfl)
        obtain rfl := hids'.players hmoved hmoves hplayer hshake hid
        refine .inr (.inl ⟨bytes, rfl, ?_⟩)
        rwa [List.filterMap_cons_some (sayOf_eq_some.mpr ⟨msg, hdecode, rfl⟩), List.filterMap_nil]
      · exact .inl (List.sublist_nil.mp htells)
  | chatCounted peer talker bytes outs htalker htalks houts =>
      refine .inl (tellsTo_of_kind fun sent hsent => ?_)
      rcases houts with rfl | rfl
      · cases hsent
      · rw [sentTo_send] at hsent
        split at hsent
        · rw [List.mem_singleton.mp hsent]
          simp
        · cases hsent
  | chatted | renamed => exact .inl (tellsTo_broadcast (by simp))
  | left peer leaver hleaver hleft =>
      rw [tellsTo_append, tellsTo_broadcast (by simp), tellsTo_serverChat]
      exact .inl rfl
  | botAdded line mode name =>
      obtain ⟨bot, -, -, -, houts⟩ := addBot_spec s mode name
      rw [houts, tellsTo_append, tellsTo_broadcast (by simp), tellsTo_serverChat]
      exact .inl rfl
  | botsRemoved line removed kept hperm hkept => exact .inl (tellsTo_farewell removed)
  | said line text => exact .inl (tellsTo_serverChat text)
  | botsUpdated pass hkeeps houts =>
      refine .inl (List.filterMap_eq_nil_iff.mpr fun sent hsent => ?_)
      obtain ⟨-, bot, hbot, msg, hid, -, rfl⟩ := mem_sentTo_pass houts hsent
      rw [tellOf_update, if_neg]
      rintro hsame
      have hmem : (pass bot).1 ∈ s.bots.map fun bot => (pass bot).1 := List.mem_map_of_mem hbot
      exact hids'.apart hplayer hshake hmem (hsame.symm.trans (hid.trans (hkeeps bot).1.symm))

end Effects

section Server

variable [CppFloat F32] [Libm F32] [ServerConsole.Platform]

theorem untold_of_unshaken {config : ServerModel.Config} {startTime : Time}
    {inputs : List ServerRun.Input} (input : ServerRun.Input) {d : Peer} {newcomer : Player}
    (hnewcomer : (reorder (Network.after config startTime inputs).server
      input.order).players.lookup d = some newcomer)
    (hunshaken : newcomer.handshaked = false) (id : PlayerId) :
    (if opens (Network.after config startTime inputs).server input d then []
      else (Network.after config startTime inputs).link d).filterMap (tellOf id) = [] := by
  obtain ⟨given, hgate, hgiven⟩ := (gated_after config startTime inputs d).opens input
  rw [hgiven newcomer hnewcomer, hunshaken, if_neg Bool.false_ne_true] at hgate
  generalize (if opens (Network.after config startTime inputs).server input d then []
    else (Network.after config startTime inputs).link d) = log at hgate ⊢
  refine List.filterMap_eq_nil_iff.mpr fun sent hsent => tellOf_of_kind ?_
  cases hgate with
  | closed hrejects =>
      rw [show kind sent = _ from hrejects sent hsent]
      rintro ⟨⟩

theorem untold_of_next {config : ServerModel.Config} {startTime : Time}
    {inputs : List ServerRun.Input}
    (hissued : (Network.after config startTime inputs).issued < 2 ^ 32 - 1) (d : Peer) :
    ((Network.after config startTime inputs).link d).filterMap
      (tellOf (Network.after config startTime inputs).server.nextId) = [] := by
  refine List.filterMap_eq_nil_iff.mpr fun sent hsent => ?_
  rw [Option.eq_none_iff_forall_ne_some]
  intro state htell
  obtain ⟨msg, hupdate, hid, -⟩ := tellOf_eq_some.mp htell
  exact ne_nextId_of_told hissued hsent (updateOf_eq_some.mp hupdate) hid

/-- What anyone is told of the states of a player is what came in on the player's
connection, in the same order, with gaps at most. -/
theorem tells_after {config : ServerModel.Config} {startTime : Time}
    {inputs : List ServerRun.Input}
    (hissued : (Network.after config startTime inputs).issued < 2 ^ 32 - 1) (c d : Peer)
    {player : Player}
    (hplayer : (Network.after config startTime inputs).server.players.lookup c = some player)
    (hshake : player.handshaked = true) :
    ∃ got, arrivals c inputs = some got ∧
      (((Network.after config startTime inputs).link d).filterMap (tellOf player.id)).Sublist
        (got.filterMap sayOf) := by
  induction inputs using List.reverseRecOn generalizing player with
  | nil => cases hplayer
  | append_singleton inputs input ih =>
      have hids' := idsDistinct_of_earlier hissued _ List.prefix_rfl
      obtain ⟨got', hgot'⟩ := arrivals_of_lookup hplayer
      have hrecord := hplayer
      rw [Network.after_concat] at hissued hids' hplayer ⊢
      have heffect := step_effect (Network.after config startTime inputs).server input
      have hbound : (Network.after config startTime inputs).issued < 2 ^ 32 - 1 :=
        lt_of_le_of_lt (issued_le_run _ [input]) hissued
      -- what was told before, of what had come in before
      obtain ⟨got, hgot, hold⟩ : ∃ got, arrivals c inputs = some got ∧
          (((Network.after config startTime inputs).link d).filterMap (tellOf player.id)).Sublist
            (got.filterMap sayOf) := by
        rcases known_or_next heffect hplayer hshake with ⟨before, hbefore, hshaken, hsame⟩ |
          ⟨⟨before, hbefore⟩, hnext⟩
        · rw [← hsame]
          exact ih hbound ((lookup_reorder _ _ _).symm.trans hbefore) hshaken
        · obtain ⟨got, hgot⟩ := arrivals_of_lookup ((lookup_reorder _ _ _).symm.trans hbefore)
          refine ⟨got, hgot, ?_⟩
          rw [hnext]
          change (List.filterMap (tellOf (Network.after config startTime inputs).server.nextId)
            _).Sublist _
          rw [untold_of_next hbound d]
          exact List.nil_sublist _
      have hgrow : (got.filterMap sayOf).Sublist (got'.filterMap sayOf) :=
        (arrivals_grow hgot hgot').sublist.filterMap sayOf
      have hkept : ((if opens (Network.after config startTime inputs).server input d then []
          else (Network.after config startTime inputs).link d).filterMap
            (tellOf player.id)).Sublist (got.filterMap sayOf) := by
        split
        · exact List.nil_sublist _
        · exact hold
      refine ⟨got', hgot', ?_⟩
      change (List.filterMap _ (_ ++ _)).Sublist _
      rw [List.filterMap_append]
      rcases tells_effect heffect hids' hplayer hshake d with hnone | ⟨bytes, hevent, htells⟩ |
        ⟨⟨newcomer, hnewcomer, hunshaken⟩, hstate, htells⟩
      · rw [show (sentTo d _ _).filterMap (tellOf player.id) = [] from hnone, List.append_nil]
        exact hkept.trans hgrow
      · rw [arrivals_concat, hgot, track, hevent] at hgot'
        dsimp only at hgot'
        rw [if_pos rfl] at hgot'
        obtain rfl := Option.some.inj hgot'
        rw [List.filterMap_append]
        exact hkept.append htells
      · rw [untold_of_unshaken input hnewcomer hunshaken, List.nil_append]
        refine List.Sublist.trans htells (List.singleton_sublist.mpr ?_)
        -- the state on record came in
        have htrail := trail_state hrecord hstate
        rw [trailOf, trail_step_eq, foldl_track, hgot', Option.map_some, Option.bind_some]
          at htrail
        obtain ⟨early, hearly, msg, hdecode, hsame⟩ := stated_of_trail htrail
        exact List.mem_filterMap.mpr ⟨early, hearly, sayOf_eq_some.mpr ⟨msg, hdecode, hsame⟩⟩

end Server

section Clients

variable {D : Type} {got : List Bytes} {scene : Scene F32 D}

def stampIn (bytes : Bytes) : Option UInt32 :=
  match decode bytes with
  | some (.playerStateUpdate msg) => some msg.timeMs
  | _ => none

theorem stampIn_of_shownAt {id : PlayerId} {state : PlayerState F32} {serverMs : UInt32}
    (h : ShownAt got id state serverMs) : serverMs ∈ got.filterMap stampIn := by
  obtain ⟨bytes, hmem, hdecode⟩ := h
  exact List.mem_filterMap.mpr ⟨bytes, hmem, by rw [stampIn, hdecode]⟩

/-- The differences of the stamps, as signed numbers, add up: no two stamps are half their
range apart. -/
def Coherent (got : List Bytes) : Prop :=
  ∀ x ∈ got.filterMap stampIn, ∀ y ∈ got.filterMap stampIn, ∀ z ∈ got.filterMap stampIn,
    (y - x).toInt32.toInt + (z - y).toInt32.toInt = (z - x).toInt32.toInt

/-- The time of a stamp on the timeline that starts with another. -/
def timeOf (first stamp : UInt32) : Int := first.toNat + (stamp - first).toInt32.toInt

/-- Every snapshot comes from a packet, and is at the time of its stamp. -/
def Dated (got : List Bytes) (scene : Scene F32 D) : Prop :=
  (scene.remotes.serverClock.started = false ∧
    ∀ id player, scene.find id = some player → player.snapshots = []) ∨
  ∃ first ∈ got.filterMap stampIn, ∃ last ∈ got.filterMap stampIn,
    scene.remotes.serverClock = { started := true, last, now := timeOf first last } ∧
    ∀ id player, scene.find id = some player → ∀ snap ∈ player.snapshots,
      ∃ serverMs, ShownAt got id snap.state serverMs ∧ snap.timeMs = timeOf first serverMs

theorem Dated.more (h : Dated got scene) (bytes : Bytes) : Dated (got ++ [bytes]) scene := by
  have hmore : ∀ stamp ∈ got.filterMap stampIn, stamp ∈ (got ++ [bytes]).filterMap stampIn := by
    intro stamp hstamp
    rw [List.filterMap_append]
    exact List.mem_append_left _ hstamp
  rcases h with hstopped | ⟨first, hfirst, last, hlast, hclock, hsnaps⟩
  · exact .inl hstopped
  · refine .inr ⟨first, hmore first hfirst, last, hmore last hlast, hclock, ?_⟩
    intro id player hplayer snap hsnap
    obtain ⟨serverMs, ⟨earlier, hearlier, hdecode⟩, htime⟩ := hsnaps id player hplayer snap hsnap
    exact ⟨serverMs, ⟨earlier, List.mem_append_left _ hearlier, hdecode⟩, htime⟩

theorem mem_buffer {id : PlayerId} {snap : TimedState F32} (h : snap ∈ buffer scene id) :
    ∃ player, scene.find id = some player ∧ snap ∈ player.snapshots := by
  cases hfind : scene.find id with
  | none =>
      rw [buffer, hfind] at h
      cases h
  | some player =>
      rw [buffer_eq hfind] at h
      exact ⟨player, rfl, h⟩

variable [CppFloat F32] [CppFloat D] [Libm F32] [Narrow D F32] [Widen F32 D]

theorem lasting_dated : Lasting (D := D) fun got scene => Coherent got → Dated got scene where
  nobody got scene h hstopped _ := by
    refine .inl ⟨hstopped, fun id player hplayer => ?_⟩
    cases (h id).symm.trans hplayer
  more got scene bytes h hcoherent := by
    have hsubset : ∀ stamp ∈ got.filterMap stampIn, stamp ∈ (got ++ [bytes]).filterMap stampIn := by
      intro stamp hstamp
      rw [List.filterMap_append]
      exact List.mem_append_left _ hstamp
    exact (h fun x hx y hy z hz =>
      hcoherent x (hsubset x hx) y (hsubset y hy) z (hsubset z hz)).more bytes
  step got scene order op h hop hcoherent := by
    have hdated := h hcoherent
    by_cases hstate : ∃ id state serverMs localMs, op = .applyState id state serverMs localMs
    · obtain ⟨id, state, serverMs, localMs, rfl⟩ := hstate
      have hat := hop id state serverMs localMs rfl
      have hstamp := stampIn_of_shownAt hat
      right
      -- where the timeline starts, and what the clock makes of the stamp
      obtain ⟨first, hfirst, hunwrap, hsnaps⟩ : ∃ first ∈ got.filterMap stampIn,
          scene.remotes.serverClock.unwrap serverMs = (timeOf first serverMs,
            { started := true, last := serverMs, now := timeOf first serverMs }) ∧
          ∀ id player, scene.find id = some player → ∀ snap ∈ player.snapshots,
            ∃ serverMs, ShownAt got id snap.state serverMs ∧
              snap.timeMs = timeOf first serverMs := by
        rcases hdated with ⟨hstopped, hnone⟩ | ⟨first, hfirst, last, hlast, hclock, hsnaps⟩
        · refine ⟨serverMs, hstamp, ?_, fun c player hplayer snap hsnap => ?_⟩
          · have hzero : timeOf serverMs serverMs = serverMs.toNat := by
              rw [timeOf, UInt32.sub_self]
              exact Int.add_zero _
            rw [ServerClock.unwrap, hstopped, if_neg Bool.false_ne_true, hzero]
          · rw [hnone c player hplayer] at hsnap
            cases hsnap
        · refine ⟨first, hfirst, ?_, hsnaps⟩
          have htime : timeOf first last + (serverMs - last).toInt32.toInt =
              timeOf first serverMs := by
            rw [timeOf, timeOf, Int.add_assoc, hcoherent first hfirst last hlast serverMs hstamp]
          rw [hclock, ServerClock.unwrap, if_pos rfl]
          dsimp only
          rw [htime]
      refine ⟨first, hfirst, serverMs, hstamp, ?_, fun c player' hplayer' snap hsnap => ?_⟩
      · exact (clock_applyState id state serverMs localMs).trans (congrArg Prod.snd hunwrap)
      · rcases snapshots_perform _ _ hplayer' hsnap with hold | ⟨stamp, reading, heq, htime⟩
        · rw [buffer_reorder] at hold
          obtain ⟨player, hplayer, hmem⟩ := mem_buffer hold
          exact hsnaps c player hplayer snap hmem
        · cases heq
          exact ⟨serverMs, hat, htime.trans (congrArg Prod.fst hunwrap)⟩
    · have hquiet : ∀ id state serverMs localMs, op ≠ .applyState id state serverMs localMs :=
        fun id state serverMs localMs heq => hstate ⟨id, state, serverMs, localMs, heq⟩
      have hold : ∀ id player', (scene.step (order, op)).find id = some player' →
          ∀ snap ∈ player'.snapshots,
            ∃ player, scene.find id = some player ∧ snap ∈ player.snapshots := by
        intro id player' hplayer' snap hsnap
        rcases snapshots_perform _ op hplayer' hsnap with hmem | ⟨serverMs, localMs, heq, -⟩
        · rw [buffer_reorder] at hmem
          exact mem_buffer hmem
        · exact absurd heq (hquiet _ _ _ _)
      rcases clock_perform (scene.reorder order) hquiet with hclock | rfl
      · rcases hdated with ⟨hstopped, hnone⟩ | ⟨first, hfirst, last, hlast, hrunning, hsnaps⟩
        · refine .inl ⟨(congrArg ServerClock.started hclock).trans hstopped, ?_⟩
          intro id player' hplayer'
          refine List.eq_nil_iff_forall_not_mem.mpr fun snap hsnap => ?_
          obtain ⟨player, hplayer, hmem⟩ := hold id player' hplayer' snap hsnap
          rw [hnone id player hplayer] at hmem
          cases hmem
        · refine .inr ⟨first, hfirst, last, hlast, hclock.trans hrunning, ?_⟩
          intro id player' hplayer' snap hsnap
          obtain ⟨player, hplayer, hmem⟩ := hold id player' hplayer' snap hsnap
          exact hsnaps id player hplayer snap hmem
      · refine .inl ⟨rfl, fun id player' hplayer' => ?_⟩
        cases hplayer'

theorem kept_client (party : Party D) : Snapshots.Kept party.scene := by
  have hrun : ∀ (scene : Scene F32 D) (steps : List (PlayerOrder F32 × Op F32 D)),
      Snapshots.Kept scene → Snapshots.Kept (run Scene.step scene steps) :=
    fun scene steps h => run_invariant h (fun before step hkept =>
      (hkept.step (buffers_reorder before step.1)).step (buffers_perform _ step.2)) steps
  rw [Party.scene, Party.watched, Watched.client_after]
  exact run_invariant (P := fun client : Client D => Snapshots.Kept client.scene)
    (hrun _ _ (kept_after [])) (fun _ _ h => hrun _ _ h) _

end Clients

section Worlds

/-- The time of a packet on the timeline that starts with another. -/
def placeOf (startTime : Time) (start sent : Sent) : Int :=
  (stampOf (millis startTime start)).toNat +
    ((millis startTime sent : Int) - millis startTime start)

/-- Every state in a log has the stamp of its time. -/
def Stamped (startTime : Time) (log : List Sent) : Prop :=
  ∀ sent ∈ log, ∀ msg, updateOf sent = some msg → msg.timeMs = stampOf (millis startTime sent)

/-- No two states in a log are half the range of the stamps apart. -/
def Close (startTime : Time) (log : List Sent) : Prop :=
  ∀ a ∈ updates log, ∀ b ∈ updates log, Near (millis startTime a) (millis startTime b)

variable {startTime : Time} {log arrived : List Sent}

theorem mem_stamps (hstamped : Stamped startTime log) {stamp : UInt32}
    (h : stamp ∈ (log.map (·.bytes)).filterMap stampIn) :
    ∃ sent ∈ updates log, stamp = stampOf (millis startTime sent) := by
  obtain ⟨bytes, hbytes, hstampIn⟩ := List.mem_filterMap.mp h
  obtain ⟨sent, hsent, rfl⟩ := List.mem_map.mp hbytes
  rw [stampIn] at hstampIn
  split at hstampIn
  · rename_i msg hdecode
    have hupdate := updateOf_eq_some.mpr hdecode
    obtain rfl := Option.some.inj hstampIn
    exact ⟨sent, mem_updates.mpr ⟨hsent, msg, hupdate⟩, hstamped sent hsent msg hupdate⟩
  · cases hstampIn

theorem coherent_of_close (hstamped : Stamped startTime log) (hclose : Close startTime log) :
    Coherent (log.map (·.bytes)) := by
  intro x hx y hy z hz
  obtain ⟨a, ha, rfl⟩ := mem_stamps hstamped hx
  obtain ⟨b, hb, rfl⟩ := mem_stamps hstamped hy
  obtain ⟨c, hc, rfl⟩ := mem_stamps hstamped hz
  rw [toInt_stamp_sub (hclose a ha b hb), toInt_stamp_sub (hclose b hb c hc),
    toInt_stamp_sub (hclose a ha c hc)]
  omega

theorem snapshots_of_told {D : Type} {scene : Scene F32 D} (hkept : Snapshots.Kept scene)
    (hdated : Dated (arrived.map (·.bytes)) scene) (hposted : arrived ⊆ log)
    (hstamped : Stamped startTime log) (hclose : Close startTime arrived)
    (hsorted : log.Pairwise fun a b => a.sentAt ≤ b.sentAt) {id : PlayerId}
    {entry : RemotePlayer F32} (hentry : scene.find id = some entry) :
    (entry.snapshots.map (·.state)).Sublist (log.filterMap (tellOf id)) := by
  rcases hdated with ⟨-, hnone⟩ | ⟨first, hfirst, -, -, -, hsnaps⟩
  · rw [hnone id entry hentry]
    exact List.nil_sublist _
  · obtain ⟨start, hstart, rfl⟩ :=
      mem_stamps (fun sent hsent => hstamped sent (hposted hsent)) hfirst
    have hplaces : log.Pairwise fun a b =>
        placeOf startTime start a ≤ placeOf startTime start b := by
      refine hsorted.imp fun {a b} hle => ?_
      have hmillis : millis startTime a ≤ millis startTime b :=
        Nat.div_le_div_right (Nat.sub_le_sub_right hle _)
      rw [placeOf, placeOf]
      omega
    refine sublist_of_rising (hkept.ordered id entry hentry) hplaces fun snap hsnap => ?_
    obtain ⟨serverMs, ⟨bytes, hbytes, hdecode⟩, htime⟩ := hsnaps id entry hentry snap hsnap
    obtain ⟨sent, hsent, rfl⟩ := List.mem_map.mp hbytes
    have hupdate := updateOf_eq_some.mpr hdecode
    have hstamp : serverMs = stampOf (millis startTime sent) :=
      hstamped sent (hposted hsent) _ hupdate
    have hnear := hclose start hstart sent (mem_updates.mpr ⟨hsent, _, hupdate⟩)
    refine ⟨sent, hposted hsent, ?_, tellOf_eq_some.mpr ⟨_, hupdate, rfl, rfl⟩⟩
    rw [htime, hstamp, timeOf, toInt_stamp_sub hnear, placeOf]

theorem loose_of_talk {packet : Sent} (h : Talk packet) {state : PlayerState F32}
    (hsay : sayOf packet.bytes = some state) : isReliable packet = false := by
  obtain ⟨msg, hdecode, -⟩ := sayOf_eq_some.mp hsay
  cases h with
  | chat => cases (decode_chat _).symm.trans hdecode
  | name => cases (decode_setName _).symm.trans hdecode
  | state => rfl

theorem loose_after {D : Type} [CppFloat F32] [CppFloat D] [Libm F32] [Narrow D F32]
    [Widen F32 D] {party : Party D} (henet : party.watched.enet ≠ none)
    (hopen : party.session.net.state ≠ .kDisconnected) :
    ∀ packet ∈ party.sent, ∀ state, sayOf packet.bytes = some state →
      isReliable packet = false := by
  have hmannered := mannered_after henet
  intro packet hpacket state hsay
  cases hstate : party.session.net.state with
  | kDisconnected => exact absurd hstate hopen
  | kConnecting =>
      rw [hmannered.silent hstate] at hpacket
      cases hpacket
  | kConnected =>
      obtain ⟨gameVersion, name, rest, hsent, htalk, -⟩ := hmannered.opened hstate
      rw [hsent] at hpacket
      rcases List.mem_cons.mp hpacket with rfl | hrest
      · obtain ⟨msg, hdecode, -⟩ := sayOf_eq_some.mp hsay
        cases (decode_hello _).symm.trans hdecode
      · exact loose_of_talk (htalk packet hrest) hsay

theorem says_of_wire {wire : Wire isReliable}
    (hloose : ∀ packet ∈ wire.posted, ∀ state, sayOf packet.bytes = some state →
      isReliable packet = false) :
    (wire.arrived.filterMap fun packet => sayOf packet.bytes).Sublist
      (wire.posted.filterMap fun packet => sayOf packet.bytes) := by
  have hfilter : ∀ log ⊆ wire.posted, (log.filterMap fun packet => sayOf packet.bytes) =
      (log.filter (!isReliable ·)).filterMap fun packet => sayOf packet.bytes := by
    intro log hlog
    rw [List.filterMap_filter]
    refine List.filterMap_congr fun packet hpacket => ?_
    split
    · rfl
    · rename_i hreliable
      rw [Option.eq_none_iff_forall_ne_some]
      intro state hsay
      exact hreliable (by rw [hloose packet (hlog hpacket) state hsay]; rfl)
  rw [hfilter _ fun packet hpacket => (delivers_of_wire wire).mem hpacket,
    hfilter _ (List.Subset.refl _)]
  exact wire.remnant.filterMap _

variable {κ D : Type} [CppFloat F32] [CppFloat D] [Libm F32] [Narrow D F32] [Widen F32 D]
  [ServerConsole.Platform] [DecidableEq κ]

omit [CppFloat D] [Narrow D F32] [Widen F32 D] [DecidableEq κ] in
/-- What holds of every link of the server, and of an empty one, holds of what is posted to
a client. -/
theorem posted_of_link {config : ServerModel.Config} {served : List ServerRun.Input}
    {circuit : Circuit} {P : List Sent → Prop} (h : Served config startTime served circuit)
    (hnil : P []) (hlink : ∀ d, P ((Network.after config startTime served).link d)) :
    P circuit.down.posted := by
  cases hd : circuit.peer with
  | none =>
      rw [(h.silent hd).2]
      exact hnil
  | some d =>
      rw [← (h.up d hd).2]
      exact hlink d

/-- In every world that can come about, while no id was given twice: if the clock of the
server does not go back, and no two states that came to a client were sent half the range
of the stamps apart, then the states it has of another one's player are states the other
sent on the connection it has, in the order it sent them. -/
theorem clones_retrace (config : ServerModel.Config) (startTime : Time) (w : World κ D)
    (hreachable : Reachable config startTime w)
    (hissued : (Network.after config startTime w.served).issued < 2 ^ 32 - 1)
    (hclock : w.served.Pairwise fun a b => a.now ≤ b.now) (j k : κ)
    (theirs own : Circuit) (htheirs : w.circuit j = some theirs) (hown : w.circuit k = some own)
    (hclose : Close startTime own.down.arrived) (c : Peer) (hpeer : theirs.peer = some c)
    (player : Player)
    (hplayer : (Network.after config startTime w.served).server.players.lookup c = some player)
    (hshake : player.handshaked = true) (entry : RemotePlayer F32)
    (hentry : (w.party k).scene.find player.id = some entry) :
    (entry.snapshots.map (·.state)).Sublist
      ((w.party j).sent.filterMap fun packet => sayOf packet.bytes) := by
  have hworld := inStep_reachable hreachable
  have htuned := hworld.tuned k own hown
  have hserved := hworld.served k own hown
  have htheirTuned := hworld.tuned j theirs htheirs
  have hup : own.clientUp = true :=
    clientUp_of_listed hworld hown (by rw [hentry]; rintro ⟨⟩)
  have hposted : own.down.arrived ⊆ own.down.posted :=
    fun _ hsent => (delivers_of_wire own.down).mem hsent
  have hstamped : Stamped startTime own.down.posted :=
    posted_of_link hserved (by rintro _ ⟨⟩) (stamped_after config startTime w.served)
  have hsorted : own.down.posted.Pairwise fun a b => a.sentAt ≤ b.sentAt :=
    posted_of_link (P := fun log => log.Pairwise fun a b => a.sentAt ≤ b.sentAt) hserved .nil
      fun d => sorted_after config startTime w.served d hclock
  have hdated : Dated (own.down.arrived.map (·.bytes)) (w.party k).scene := by
    have hcoherent := coherent_of_close (fun sent hsent => hstamped sent (hposted hsent)) hclose
    rw [← htuned.received hup] at hcoherent ⊢
    exact lasting_dated.after (hworld.allowed k) hcoherent
  -- what the client was told came in on the other one's connection
  obtain ⟨harrivals, -⟩ := (hworld.served j theirs htheirs).up c hpeer
  have htold : (own.down.posted.filterMap (tellOf player.id)).Sublist
      (theirs.up.arrived.filterMap fun packet => sayOf packet.bytes) := by
    refine posted_of_link (P := fun log => (log.filterMap (tellOf player.id)).Sublist _) hserved
      (List.nil_sublist _) fun d => ?_
    obtain ⟨got, hgot, htells⟩ := tells_after hissued c d hplayer hshake
    obtain rfl := Option.some.inj (harrivals.symm.trans hgot)
    rw [List.filterMap_map] at htells
    exact htells
  -- where it came in the order it was sent
  have hopen : (w.party j).session.net.state ≠ .kDisconnected := by
    obtain ⟨account, -, hsound, -⟩ := sound_after htheirTuned.enet
    rw [show (w.party j).session.net.state = _ from hsound.state]
    split <;> rintro ⟨⟩
  have hloose := loose_after (hworld.allowed j) hopen
  rw [htheirTuned.posted] at hloose ⊢
  exact (snapshots_of_told (kept_client _) hdated hposted hstamped hclose hsorted hentry).trans
    (htold.trans (says_of_wire hloose))

end Worlds

section Example

open F4MP.Native

def strollingAt (x : ℚ) : PlayerState F32 :=
  { PlayerState.initial F32 with
    position := ⟨CppFloat.ofRat x, CppFloat.ofRat 0, CppFloat.ofRat 0⟩
    worldspaceId := 60 }

def step (x : ℚ) : Bytes := encode { state := strollingAt x : PlayerStateMsg }

def relayed (x : ℚ) (timeMs : UInt32) : Bytes :=
  encode { id := 1, timeMs, state := strollingAt x : PlayerStateUpdateMsg }

/-- The second of two clients takes four steps.  The first comes after two of them, and is
told the latest; of the others one is lost on the way to it. -/
def stroll : List (Turn Bool F64) :=
  knocks ++
    [.take true (hello true) 100000000,
      frame true 20200000000 [welcome 1] (some (strollingAt 1)),
      .take true (step 1) 210000000,
      frame true 20300000000 [] (some (strollingAt 2)),
      .take true (step 2) 310000000,
      .take false (hello false) 400000000,
      frame true 20500000000 [] (some (strollingAt 3)),
      .take true (step 3) 510000000,
      frame true 20600000000 [] (some (strollingAt 4)),
      .take true (step 4) 610000000,
      frame false 20700000000
        [welcome 2, encode { id := 1, name := nameOf true : PlayerJoinedMsg }, relayed 2 400,
          relayed 4 610] none]

theorem stroll_goes : (rehearse {} 0 stroll).isSome = true := by decide +kernel

def strolled : World Bool F64 := (rehearse {} 0 stroll).get stroll_goes

/-- The first client has two of the steps, in their order. -/
theorem retraced_by_first : [strollingAt 2, strollingAt 4].Sublist
    ((strolled.party true).sent.filterMap fun packet => sayOf packet.bytes) := by
  obtain ⟨player, hplayer, hhandshake⟩ := Option.map_eq_some_iff.mp
    (show ((Network.after {} 0 strolled.served).server.players.lookup 1).map
      (fun player => (player.id, player.handshaked)) = some (1, true) by decide +kernel)
  obtain ⟨hid, hshake⟩ := Prod.mk.inj hhandshake
  obtain ⟨entry, hentry, hstates⟩ := Option.map_eq_some_iff.mp
    (show ((strolled.party false).scene.find 1).map (·.snapshots.map (·.state)) =
      some [strollingAt 2, strollingAt 4] by decide +kernel)
  obtain ⟨theirs, htheirs, hpeer⟩ := Option.map_eq_some_iff.mp
    (show (strolled.circuit true).map (·.peer) = some (some 1) by decide +kernel)
  obtain ⟨own, hown, hlately⟩ := Option.map_eq_some_iff.mp
    (show (strolled.circuit false).map (fun own => (updates own.down.arrived).map (millis 0)) =
      some [400, 610] by decide +kernel)
  have hclose : Close 0 own.down.arrived := by
    intro a ha b hb
    have hstamps : ∀ sent ∈ updates own.down.arrived, millis 0 sent = 400 ∨ millis 0 sent = 610 := by
      intro sent hsent
      have hmem : millis 0 sent ∈ (updates own.down.arrived).map (millis 0) :=
        List.mem_map_of_mem hsent
      simpa [hlately] using hmem
    rcases hstamps a ha with ha | ha <;> rcases hstamps b hb with hb | hb <;>
      (rw [ha, hb]; decide)
  rw [← hstates]
  exact clones_retrace {} 0 strolled (reachable_rehearse (Option.some_get _).symm)
    (by decide +kernel) (by decide +kernel) true false theirs own htheirs hown hclose 1 hpeer
    player hplayer hshake entry (by rw [hid]; exact hentry)

end Example

end F4MP.Retracing
