import Mathlib.Data.List.Chain
import F4MP.Departures
import F4MP.Timeline

/-!
When the newest state wins: a client shows the last state it was told of a player
exactly if no two different states in a row were sent within one millisecond.
-/

namespace F4MP.Newest

open F4MP.Types
open F4MP.Protocol
open F4MP.Messages
open F4MP.Arith
open F4MP.Interp
open F4MP.ServerModel
open F4MP.ServerConsole
open F4MP.ServerRun
open F4MP.ServerTraffic
open F4MP.ServerEffects
open F4MP.ServerOrigins
open F4MP.Handshake
open F4MP.Participants
open F4MP.RemotePlayersModel
open F4MP.SessionModel (Reading)
open F4MP.ClientRun
open F4MP.Chronicle
open F4MP.Delivery
open F4MP.Departures
open F4MP.Timeline
open F4MP.Library.HashTable
open F4MP.Library.Runs

/-- What a packet tells of the state of a player. -/
def updateOf (sent : Sent) : Option PlayerStateUpdateMsg :=
  match decode sent.bytes with
  | some (.playerStateUpdate msg) => some msg
  | _ => none

/-- The packets that tell of states. -/
def updates (log : List Sent) : List Sent := log.filter fun sent => (updateOf sent).isSome

/-- How many milliseconds after its start the server sent a packet. -/
def millis (startTime : Time) (sent : Sent) : Nat := (sent.sentAt - startTime) / 1000000

/-- What a client was told last of the state of a player, since the player left if it
did. -/
def hold (id : PlayerId) (last : Option Sent) (sent : Sent) : Option Sent :=
  match decode sent.bytes with
  | some (.playerStateUpdate msg) => if msg.id = id then some sent else last
  | some (.playerLeft msg) => if msg.id = id then none else last
  | _ => last

def heldOf (id : PlayerId) (log : List Sent) : Option Sent := log.foldl (hold id) none

/-- Two states of the player that come in a row are not sent within one millisecond,
but if they are the same. -/
def Unmixed (startTime : Time) (id : PlayerId) (log : List Sent) : Prop :=
  ∀ before sent after msg, log = before ++ sent :: after → updateOf sent = some msg → msg.id = id →
    ∀ old told, heldOf id before = some old → updateOf old = some told →
      millis startTime old = millis startTime sent → told.state = msg.state

theorem updateOf_eq_some {sent : Sent} {msg : PlayerStateUpdateMsg} :
    updateOf sent = some msg ↔ decode sent.bytes = some (.playerStateUpdate msg) := by
  rw [updateOf]
  cases decode sent.bytes with
  | none => simp
  | some m => cases m <;> simp

theorem mem_updates {log : List Sent} {sent : Sent} :
    sent ∈ updates log ↔ sent ∈ log ∧ ∃ msg, updateOf sent = some msg := by
  rw [updates, List.mem_filter, Option.isSome_iff_exists]

theorem heldOf_concat (id : PlayerId) (log : List Sent) (sent : Sent) :
    heldOf id (log ++ [sent]) = hold id (heldOf id log) sent :=
  List.foldl_concat ..

theorem updateOf_heldOf {id : PlayerId} {log : List Sent} {sent : Sent}
    (h : heldOf id log = some sent) :
    sent ∈ updates log ∧ ∃ msg, updateOf sent = some msg ∧ msg.id = id := by
  induction log using List.reverseRecOn with
  | nil => cases h
  | append_singleton log last ih =>
      have hold' : heldOf id log = some sent →
          sent ∈ updates (log ++ [last]) ∧ ∃ msg, updateOf sent = some msg ∧ msg.id = id := by
        intro hbefore
        obtain ⟨hmem, hmsg⟩ := ih hbefore
        rw [updates, List.filter_append]
        exact ⟨List.mem_append_left _ hmem, hmsg⟩
      rw [heldOf_concat, hold] at h
      split at h
      · rename_i msg hdecode
        split at h
        · rename_i hid
          obtain rfl := Option.some.inj h
          have hupdate := updateOf_eq_some.mpr hdecode
          exact ⟨mem_updates.mpr ⟨by simp, msg, hupdate⟩, msg, hupdate, hid⟩
        · exact hold' h
      · split at h
        · cases h
        · exact hold' h
      · exact hold' h

theorem startTime_effect {now : Time} {s s' : Server} {event : ServerRun.Event} {outs : List Out}
    (h : Effect now s event s' outs) : s'.startTime = s.startTime := by
  cases h <;> rfl

theorem stamp_of_mem {now : Time} {s s' : Server} {event : ServerRun.Event} {outs : List Out}
    {c : Peer} (heffect : Effect now s event s' outs) {sent : Sent}
    (hsent : sent ∈ sentTo c now outs) {msg : PlayerStateUpdateMsg}
    (hupdate : updateOf sent = some msg) :
    sent.sentAt = now ∧ msg.timeMs = nowMs s' now := by
  rw [updateOf_eq_some] at hupdate
  have hannounced : ∀ {stamp : UInt32} {id : PlayerId} {name : Bytes} {hasState : Bool}
      {state : PlayerState F32}, Announces sent now stamp id name hasState state →
      sent.sentAt = now ∧ msg.timeMs = stamp := by
    rintro stamp id name hasState state (rfl | ⟨-, rfl⟩)
    · cases (decode_playerJoined _).symm.trans hupdate
    · cases (decode_playerStateUpdate _).symm.trans hupdate
      exact ⟨rfl, rfl⟩
  cases (origin_of_mem heffect hsent).1 with
  | caughtUp _ _ _ _ _ _ hannounces => exact hannounced hannounces
  | caughtUpBot _ _ _ hannounces => exact hannounced hannounces
  | relayed =>
      cases (decode_playerStateUpdate _).symm.trans hupdate
      exact ⟨rfl, rfl⟩
  | botMoved _ told _ _ htime =>
      cases (decode_playerStateUpdate _).symm.trans hupdate
      exact ⟨rfl, htime⟩
  | rejected => cases (decode_reject _).symm.trans hupdate
  | notice | chatted => cases (decode_chatBroadcast _).symm.trans hupdate
  | welcomed => cases (decode_welcome _).symm.trans hupdate
  | arrived | botArrived => cases (decode_playerJoined _).symm.trans hupdate
  | departed => cases (decode_playerLeft _).symm.trans hupdate
  | renamed => cases (decode_playerRenamed _).symm.trans hupdate

theorem sentAt_of_mem {c : Peer} {now : Time} {outs : List Out} {sent : Sent}
    (h : sent ∈ sentTo c now outs) : sent.sentAt = now := by
  obtain ⟨out, -, hout⟩ := List.mem_filterMap.mp h
  cases out with
  | send dest channel bytes =>
      dsimp only at hout
      split at hout
      · rw [← Option.some.inj hout]
      · cases hout
  | disconnectLater => cases hout

section Runs

variable [CppFloat F32] [Libm F32] [Platform]

theorem startTime_after (config : Config) (startTime : Time) (inputs : List ServerRun.Input) :
    (Network.after config startTime inputs).server.startTime = startTime :=
  Network.after_induction (P := fun net => net.server.startTime = startTime) rfl
    (fun _ input ih => (startTime_effect (step_effect _ input)).trans ih) inputs

theorem stamped_after (config : Config) (startTime : Time) (inputs : List ServerRun.Input) (c : Peer) :
    ∀ sent ∈ (Network.after config startTime inputs).link c, ∀ msg, updateOf sent = some msg →
      msg.timeMs = stampOf (millis startTime sent) := by
  refine Network.after_induction (P := fun net => ∀ sent ∈ net.link c, ∀ msg,
    updateOf sent = some msg → msg.timeMs = stampOf (millis startTime sent))
    (by rintro _ ⟨⟩) ?_ inputs
  intro inputs input ih sent hsent msg hupdate
  rcases List.mem_append.mp hsent with hold | hnew
  · split at hold
    · cases hold
    · exact ih sent hold msg hupdate
  · have heffect := step_effect (Network.after config startTime inputs).server input
    obtain ⟨hsentAt, hstamp⟩ := stamp_of_mem heffect hnew hupdate
    have hstart := (startTime_effect heffect).trans (startTime_after config startTime inputs)
    rw [hstamp, nowMs, hstart, millis, hsentAt, stampOf]

/-- If time does not go back, a log is in the order of time. -/
theorem sorted_after (config : Config) (startTime : Time) (inputs : List ServerRun.Input) (c : Peer)
    (hclock : inputs.Pairwise fun a b => a.now ≤ b.now) :
    ((Network.after config startTime inputs).link c).Pairwise fun a b => a.sentAt ≤ b.sentAt := by
  suffices h : ((Network.after config startTime inputs).link c).Pairwise
      (fun a b => a.sentAt ≤ b.sentAt) ∧
      ∀ sent ∈ (Network.after config startTime inputs).link c, ∃ input ∈ inputs,
        sent.sentAt = input.now from h.1
  induction inputs using List.reverseRecOn with
  | nil => exact ⟨.nil, by rintro _ ⟨⟩⟩
  | append_singleton inputs input ih =>
      obtain ⟨hbefore, -, hlast⟩ := List.pairwise_append.mp hclock
      obtain ⟨hsorted, htimes⟩ := ih hbefore
      rw [Network.after_concat]
      generalize Network.after config startTime inputs = net at hsorted htimes
      have hold : ∀ sent ∈ (if opens net.server input c then [] else net.link c),
          ∃ input ∈ inputs, sent.sentAt = input.now := by
        intro sent hsent
        split at hsent
        · cases hsent
        · exact htimes sent hsent
      refine ⟨List.pairwise_append.mpr ⟨?_, ?_, fun sent hsent later hlater => ?_⟩, ?_⟩
      · split
        · exact .nil
        · exact hsorted
      · refine List.pairwise_of_forall_mem_list fun sent hsent later hlater => ?_
        rw [sentAt_of_mem hsent, sentAt_of_mem hlater]
      · obtain ⟨earlier, hmem, htime⟩ := hold sent hsent
        rw [htime, sentAt_of_mem hlater]
        exact hlast earlier hmem input (by simp)
      · intro sent hsent
        rcases List.mem_append.mp hsent with hmem | hnew
        · obtain ⟨earlier, hin, htime⟩ := hold sent hmem
          exact ⟨earlier, List.mem_append_left _ hin, htime⟩
        · exact ⟨input, by simp, sentAt_of_mem hnew⟩

end Runs

/-- The newest of a history after a snapshot came in. -/
def newer {F : Type} (old : Option (TimedState F)) (snapshot : TimedState F) : TimedState F :=
  match old with
  | some last => if snapshot.timeMs ≤ last.timeMs then last else snapshot
  | none => snapshot

theorem getLast?_pushSnapshot {F : Type} (snapshots : List (TimedState F)) (snapshot : TimedState F) :
    (pushSnapshot snapshots snapshot).getLast? = some (newer snapshots.getLast? snapshot) := by
  rw [pushSnapshot]
  cases hlast : snapshots.getLast? with
  | none => rfl
  | some last =>
      dsimp only [newer]
      split
      · exact hlast
      · rw [List.getLast?_drop, if_neg, List.getLast?_concat]
        rw [List.length_append, List.length_singleton, maxSnapshots]
        omega

section Scenes

variable {F D : Type} {scene scene' : Scene F D}

theorem latest_eq (scene : Scene F D) (id : PlayerId) :
    (scene.find id).bind (·.latest) = (newest scene id).map (·.state) := by
  rw [newest]
  cases scene.find id <;> rfl

theorem newest_of_find {other : PlayerId} {player : Option (RemotePlayer F)}
    (hfind : ∀ c, scene'.find c = if c = other then player else scene.find c) (id : PlayerId) :
    newest scene' id =
      if id = other then player.bind (·.snapshots.getLast?) else newest scene id := by
  rw [newest, hfind]
  split <;> rfl

theorem getLast?_getD {id : PlayerId} {record : RemotePlayer F} (h : record.snapshots = []) :
    ((scene.find id).getD record).snapshots.getLast? = newest scene id := by
  rw [newest]
  cases scene.find id with
  | none => rw [Option.getD_none, h]; rfl
  | some player => rfl

variable [CppFloat F]

theorem newest_add (id : PlayerId) (name : Bytes) (c : PlayerId) :
    newest (add scene id name) c = newest scene c := by
  rw [newest_of_find (find_add scene id name)]
  split
  · rename_i hc
    rw [hc]
    exact getLast?_getD rfl
  · rfl

theorem newest_rename (id : PlayerId) (name : Bytes) (c : PlayerId) :
    newest (rename scene id name) c = newest scene c := by
  rw [newest_of_find (find_rename scene id name)]
  split
  · rename_i hc
    rw [hc]
    exact getLast?_getD rfl
  · rfl

variable [CppFloat D]

theorem newest_applyState (id : PlayerId) (state : PlayerState F) (serverMs : UInt32) (localMs : D)
    (c : PlayerId) : newest (applyState scene id state serverMs localMs) c =
      if c = id then
        some (newer (newest scene id) ⟨state, (scene.remotes.serverClock.unwrap serverMs).1⟩)
      else newest scene c := by
  rw [newest_of_find (find_applyState scene id state serverMs localMs)]
  split
  · rw [Option.bind_some, getLast?_pushSnapshot, stateEntry, getLast?_getD rfl]
  · rfl

theorem clock_applyState (id : PlayerId) (state : PlayerState F) (serverMs : UInt32) (localMs : D) :
    (applyState scene id state serverMs localMs).remotes.serverClock =
      (scene.remotes.serverClock.unwrap serverMs).2 := by
  have hclock : (if id ∈ scene.remotes.players then scene
      else add scene id (placeholderName id)).remotes.serverClock = scene.remotes.serverClock := by
    split <;> rfl
  rw [applyState]
  dsimp only
  rw [(noteServerTime_spec _ _ _).2.1, hclock]

end Scenes

/-- The histories are as before a packet, but for the one of a player who left. -/
structure Spares {D : Type} (sent : Sent) (scene scene' : Scene F32 D) : Prop where
  clock : scene'.remotes.serverClock = scene.remotes.serverClock
  gone : ∀ c, Leaves sent c → newest scene' c = none
  kept : ∀ c, ¬ Leaves sent c → newest scene' c = newest scene c

theorem Spares.of_same {D : Type} {sent : Sent} {scene scene' : Scene F32 D}
    (hstays : ∀ c, ¬ Leaves sent c)
    (hclock : scene'.remotes.serverClock = scene.remotes.serverClock)
    (hnewest : ∀ c, newest scene' c = newest scene c) : Spares sent scene scene' :=
  ⟨hclock, fun c hleaves => absurd hleaves (hstays c), fun c _ => hnewest c⟩

section Client

variable {D : Type} [CppFloat F32] [CppFloat D] [Libm F32] [Narrow D F32] [Widen F32 D]
  {client : Client D} {startTime : Time} {id : PlayerId} {log : List Sent}
  {moments : List (Moment D)}

theorem live_update (client : Client D) {sent : Sent} (reading : Reading D)
    (order : PlayerOrder F32) {msg : PlayerStateUpdateMsg} (hupdate : updateOf sent = some msg)
    (hforeign : msg.id ≠ client.session.myId) :
    (live client (.packet sent reading order)).scene.remotes.serverClock =
        (client.scene.remotes.serverClock.unwrap msg.timeMs).2 ∧
      ∀ c, newest (live client (.packet sent reading order)).scene c =
        if c = msg.id then some (newer (newest client.scene msg.id)
          ⟨msg.state, (client.scene.remotes.serverClock.unwrap msg.timeMs).1⟩)
        else newest client.scene c := by
  have hreorder := samePlayers_reorder client.scene order
  have hscene : (live client (.packet sent reading order)).scene =
      applyState (client.scene.reorder order) msg.id msg.state msg.timeMs reading.localMs := by
    simp only [live, (handlePacket_decoded client.session sent.bytes reading).1,
      updateOf_eq_some.mp hupdate, Option.elim_some, told, if_pos hforeign]
    rfl
  rw [hscene, clock_applyState, hreorder.clock]
  refine ⟨rfl, fun c => ?_⟩
  rw [newest_applyState, hreorder.newest, hreorder.newest, hreorder.clock]

theorem Spares.of_named {sent : Sent} {scene : Scene F32 D} {order : PlayerOrder F32}
    {op : Op F32 D} {own : Prop} [Decidable own] (hstays : ∀ c, ¬ Leaves sent c)
    (hclock : ((scene.reorder order).perform op).remotes.serverClock = scene.remotes.serverClock)
    (hnewest : ∀ c, newest ((scene.reorder order).perform op) c = newest (scene.reorder order) c) :
    Spares sent scene
      (run Scene.step scene ((if ¬ own then [op] else []).map fun op => (order, op))) := by
  split
  · exact .of_same hstays hclock fun c =>
      (hnewest c).trans ((samePlayers_reorder scene order).newest c)
  · exact .of_same hstays rfl fun _ => rfl

theorem live_other (client : Client D) {sent : Sent} (reading : Reading D)
    (order : PlayerOrder F32) (hother : updateOf sent = none) :
    Spares sent client.scene (live client (.packet sent reading order)).scene := by
  have hreorder := samePlayers_reorder client.scene order
  simp only [live, (handlePacket_decoded client.session sent.bytes reading).1]
  cases hdecode : decode sent.bytes with
  | none =>
      refine .of_same (fun c => ?_) rfl fun _ => rfl
      rw [Leaves, hdecode]
      rintro ⟨⟩
  | some m =>
      have hleaves : ∀ c, Leaves sent c ↔ departs m = some c := by
        intro c
        rw [Leaves, hdecode, Option.bind_some]
      have hstays : departs m = none → ∀ c, ¬ Leaves sent c := by
        intro hnone c
        rw [hleaves, hnone]
        rintro ⟨⟩
      cases m with
      | playerJoined m => exact .of_named (hstays rfl) rfl (newest_add m.id m.name)
      | playerRenamed m =>
          refine .of_named (hstays rfl) ?_ (newest_rename m.id m.name)
          change (rename _ _ _).remotes.serverClock = _
          rw [rename]
          split <;> rfl
      | playerStateUpdate m => rw [updateOf_eq_some.mpr hdecode] at hother; cases hother
      | playerLeft m =>
          have hnewest : ∀ c, newest (remove (client.scene.reorder order) m.id) c =
              if c = m.id then none else newest client.scene c := by
            intro c
            rw [newest_of_find (find_remove _ _), hreorder.newest]
            rfl
          constructor
          · change (remove (client.scene.reorder order) m.id).remotes.serverClock = _
            rw [remove]
            split <;> rfl
          · intro c hleft
            exact (hnewest c).trans (if_pos (Option.some.inj ((hleaves c).mp hleft)).symm)
          · intro c hstays
            refine (hnewest c).trans (if_neg fun hc => hstays ((hleaves c).mpr ?_))
            exact congrArg some hc.symm
      | _ => exact .of_same (hstays rfl) rfl fun _ => rfl

end Client

/-- A log of updates as the server makes it: each is stamped with the time it is sent at,
none is earlier than the one before, and none is half the range of the stamps later. -/
structure Paced (startTime : Time) (log : List Sent) : Prop where
  stamped : ∀ sent ∈ log, ∀ msg, updateOf sent = some msg →
    msg.timeMs = stampOf (millis startTime sent)
  sorted : (updates log).Pairwise fun a b => millis startTime a ≤ millis startTime b
  gaps : (updates log).IsChain fun a b => millis startTime b < millis startTime a + 2 ^ 31

theorem updates_append (log more : List Sent) : updates (log ++ more) = updates log ++ updates more :=
  List.filter_append _ _

theorem updates_update {sent : Sent} {msg : PlayerStateUpdateMsg} (h : updateOf sent = some msg) :
    updates [sent] = [sent] := by
  simp [updates, h]

theorem updates_other {sent : Sent} (h : updateOf sent = none) : updates [sent] = [] := by
  simp [updates, h]

theorem Paced.of_append {startTime : Time} {log more : List Sent}
    (h : Paced startTime (log ++ more)) : Paced startTime log where
  stamped sent hsent := h.stamped sent (List.mem_append_left _ hsent)
  sorted := by
    have hsorted := h.sorted
    rw [updates_append] at hsorted
    exact (List.pairwise_append.mp hsorted).1
  gaps := by
    have hgaps := h.gaps
    rw [updates_append] at hgaps
    exact hgaps.left_of_append

theorem Paced.later {startTime : Time} {log : List Sent} {sent : Sent}
    (h : Paced startTime (log ++ [sent])) {msg : PlayerStateUpdateMsg}
    (hupdate : updateOf sent = some msg) :
    ∀ old ∈ updates log, millis startTime old ≤ millis startTime sent := by
  have hsorted := h.sorted
  rw [updates_append, updates_update hupdate] at hsorted
  exact fun old hold => (List.pairwise_append.mp hsorted).2.2 old hold sent (by simp)

theorem Unmixed.of_append {startTime : Time} {id : PlayerId} {log more : List Sent}
    (h : Unmixed startTime id (log ++ more)) : Unmixed startTime id log := by
  rintro before sent after msg rfl
  exact h before sent (after ++ more) msg (by simp)

theorem hold_update {id : PlayerId} {last : Option Sent} {sent : Sent} {msg : PlayerStateUpdateMsg}
    (h : updateOf sent = some msg) : hold id last sent = if msg.id = id then some sent else last := by
  rw [hold, updateOf_eq_some.mp h]

theorem hold_other {id : PlayerId} {last : Option Sent} {sent : Sent} (h : updateOf sent = none) :
    (Leaves sent id → hold id last sent = none) ∧ (¬ Leaves sent id → hold id last sent = last) := by
  rw [hold, Leaves]
  cases hdecode : decode sent.bytes with
  | none => exact ⟨by rintro ⟨⟩, fun _ => rfl⟩
  | some m =>
      cases m with
      | playerStateUpdate m => rw [updateOf_eq_some.mpr hdecode] at h; cases h
      | playerLeft m =>
          constructor
          · intro hleaves
            exact if_pos (Option.some.inj hleaves)
          · intro hstays
            exact if_neg fun hid => hstays (congrArg some hid)
      | _ => exact ⟨by rintro ⟨⟩, fun _ => rfl⟩

section Times

variable {D : Type} {scene : Scene F32 D} {startTime : Time} {log : List Sent}

/-- The times a client makes of the stamps are those of the server, but for a shift. -/
structure Timed (startTime : Time) (shift : Int) (scene : Scene F32 D) (log : List Sent) : Prop where
  clock : scene.remotes.serverClock = (updates log).getLast?.elim {} fun last =>
    { started := true, last := stampOf (millis startTime last), now := shift + millis startTime last }
  times : ∀ id, (newest scene id).map (·.timeMs) =
    (heldOf id log).map fun sent => shift + (millis startTime sent : Int)

/-- A client shows the last state it was told of the player. -/
def Shows (id : PlayerId) (scene : Scene F32 D) (log : List Sent) : Prop :=
  (newest scene id).map (·.state) = ((heldOf id log).bind updateOf).map (·.state)

theorem Timed.unwrap {shift : Int} (h : Timed startTime shift scene log) {sent : Sent}
    {msg : PlayerStateUpdateMsg} (hupdate : updateOf sent = some msg)
    (hpaced : Paced startTime (log ++ [sent])) : ∃ shift' : Int,
      Timed startTime shift' scene log ∧
      scene.remotes.serverClock.unwrap msg.timeMs =
        (shift' + millis startTime sent,
          { started := true
            last := stampOf (millis startTime sent)
            now := shift' + millis startTime sent }) := by
  have hgaps := hpaced.gaps
  rw [updates_append, updates_update hupdate] at hgaps
  have hclock := h.clock
  rw [hpaced.stamped sent (by simp) msg hupdate]
  cases hlast : (updates log).getLast? with
  | none =>
      have hnone : ∀ id, heldOf id log = none := by
        intro id
        refine Option.eq_none_iff_forall_ne_some.mpr fun held hheld => ?_
        have hmem := (updateOf_heldOf hheld).1
        rw [List.getLast?_eq_none_iff.mp hlast] at hmem
        cases hmem
      rw [hlast, Option.elim_none] at hclock
      refine ⟨(millis startTime sent : Int) % 2 ^ 32 - millis startTime sent,
        ⟨by rw [hlast]; exact hclock, fun id => ?_⟩, ?_⟩
      · rw [h.times id, hnone id]
        rfl
      · rw [hclock, unwrap_fresh, Int.sub_add_cancel]
  | some last =>
      rw [hlast, Option.elim_some] at hclock
      have hnear : Near (millis startTime last) (millis startTime sent) := by
        have hle := hpaced.later hupdate last (List.mem_of_getLast? hlast)
        have hlt := (List.isChain_append.mp hgaps).2.2 last hlast sent rfl
        rw [Near]
        omega
      refine ⟨shift, h, ?_⟩
      rw [unwrap_started (by rw [hclock]) (by rw [hclock]) hnear, hclock]
      dsimp only
      have hsum : shift + (millis startTime last : Int) +
          (millis startTime sent - millis startTime last) = shift + millis startTime sent := by
        omega
      rw [hsum]

theorem Timed.newer {shift : Int} (h : Timed startTime shift scene log) {sent : Sent}
    (hlater : ∀ old ∈ updates log, millis startTime old ≤ millis startTime sent) (id : PlayerId)
    (state : PlayerState F32) :
    (newer (newest scene id) ⟨state, shift + millis startTime sent⟩).timeMs =
        shift + millis startTime sent ∧
      ((newer (newest scene id) ⟨state, shift + millis startTime sent⟩).state = state ↔
        ∀ old, heldOf id log = some old → millis startTime old = millis startTime sent →
          (newest scene id).map (·.state) = some state) := by
  have htimes := h.times id
  cases hheld : heldOf id log with
  | none =>
      rw [hheld, Option.map_none, Option.map_eq_none_iff] at htimes
      rw [htimes]
      exact ⟨rfl, fun _ => by rintro _ ⟨⟩, fun _ => rfl⟩
  | some old =>
      rw [hheld, Option.map_some] at htimes
      obtain ⟨last, hlast, htime⟩ := Option.map_eq_some_iff.mp htimes
      have hle := hlater old (updateOf_heldOf hheld).1
      rw [hlast]
      by_cases hsame : millis startTime old = millis startTime sent
      · -- the same millisecond: the old snapshot stays
        have hnewer : Newest.newer (some last) ⟨state, shift + millis startTime sent⟩ = last := by
          refine if_pos ?_
          dsimp only
          omega
        rw [hnewer]
        refine ⟨by rw [htime, hsame], fun hstate => ?_, fun hstate => ?_⟩
        · intro _ _ _
          rw [Option.map_some, hstate]
        · exact Option.some.inj (hstate old rfl hsame)
      · have hnewer : Newest.newer (some last) ⟨state, shift + millis startTime sent⟩ =
            ⟨state, shift + millis startTime sent⟩ := by
          refine if_neg ?_
          dsimp only
          omega
        rw [hnewer]
        refine ⟨rfl, fun _ => ?_, fun _ => rfl⟩
        rintro _ hold htime
        rw [Option.some.inj hold] at hsame
        exact absurd htime hsame

end Times

section Connection

variable {D : Type} [CppFloat F32] [CppFloat D] [Libm F32] [Narrow D F32] [Widen F32 D]
  {client : Client D} {startTime : Time} {id : PlayerId} {moments : List (Moment D)}

/-- No update is about the client itself. -/
def Foreign (client : Client D) (moments : List (Moment D)) : Prop :=
  ∀ before after, moments = before ++ after → ∀ sent ∈ packets moments, ∀ msg,
    updateOf sent = some msg → msg.id ≠ (lived client before).session.myId

theorem Foreign.of_append {moment : Moment D} (h : Foreign client (moments ++ [moment])) :
    Foreign client moments := by
  rintro before after rfl sent hsent
  refine h before (after ++ [moment]) (List.append_assoc _ _ _) sent ?_
  rw [packets_append]
  exact List.mem_append_left _ hsent

theorem timed_lived (hblank : Blank client) (hforeign : Foreign client moments)
    (hpaced : Paced startTime (packets moments)) :
    ∃ shift, Timed startTime shift (lived client moments).scene (packets moments) := by
  induction moments using List.reverseRecOn with
  | nil =>
      refine ⟨0, hblank.clock, fun id => ?_⟩
      rw [lived_nil, newest, Scene.find, hblank.players]
      rfl
  | append_singleton moments moment ih =>
      rw [packets_append] at hpaced ⊢
      obtain ⟨shift, htimed⟩ := ih hforeign.of_append hpaced.of_append
      rw [lived_concat]
      cases moment with
      | meanwhile order op hop =>
          have hsame := samePlayers_meanwhile (lived client moments) order hop
          rw [packets_meanwhile, List.append_nil]
          exact ⟨shift, hsame.clock.trans htimed.clock, fun id => by rw [hsame.newest, htimed.times]⟩
      | packet sent reading order =>
          rw [packets_packet] at hpaced ⊢
          cases hupdate : updateOf sent with
          | none =>
              have hspares := live_other (lived client moments) reading order hupdate
              refine ⟨shift, ?_, fun id => ?_⟩
              · rw [hspares.clock, htimed.clock, updates_append, updates_other hupdate,
                  List.append_nil]
              · rw [heldOf_concat]
                by_cases hleaves : Leaves sent id
                · rw [hspares.gone id hleaves, (hold_other hupdate).1 hleaves]
                  rfl
                · rw [hspares.kept id hleaves, (hold_other hupdate).2 hleaves, htimed.times]
          | some msg =>
              obtain ⟨shift', htimed, hunwrap⟩ := htimed.unwrap hupdate hpaced
              obtain ⟨hclock, hnewest⟩ := live_update (lived client moments) reading order hupdate
                (hforeign moments [_] rfl sent (by simp) msg hupdate)
              rw [hunwrap] at hclock hnewest
              refine ⟨shift', ?_, fun id => ?_⟩
              · rw [hclock, updates_append, updates_update hupdate, List.getLast?_concat]
                rfl
              · rw [hnewest, heldOf_concat, hold_update hupdate]
                by_cases hid : msg.id = id
                · rw [if_pos hid, if_pos hid.symm, Option.map_some, Option.map_some,
                    (htimed.newer (hpaced.later hupdate) _ _).1]
                · rw [if_neg hid, if_neg fun h => hid h.symm, htimed.times]

/-- An update of a player is what is shown after it, exactly if the update before was
not sent within the same millisecond, or tells the same. -/
theorem shows_update (hblank : Blank client) {sent : Sent} {reading : Reading D}
    {order : PlayerOrder F32} (hforeign : Foreign client (moments ++ [.packet sent reading order]))
    (hpaced : Paced startTime (packets moments ++ [sent])) {msg : PlayerStateUpdateMsg}
    (hupdate : updateOf sent = some msg) (hid : msg.id = id)
    (hshows : Shows id (lived client moments).scene (packets moments)) :
    (newest (lived client (moments ++ [.packet sent reading order])).scene id).map (·.state) =
        some msg.state ↔
      ∀ old told, heldOf id (packets moments) = some old → updateOf old = some told →
        millis startTime old = millis startTime sent → told.state = msg.state := by
  obtain ⟨_, htimed⟩ := timed_lived hblank hforeign.of_append hpaced.of_append
  obtain ⟨shift, htimed, hunwrap⟩ := htimed.unwrap hupdate hpaced
  obtain ⟨-, hnewest⟩ := live_update (lived client moments) reading order hupdate
    (hforeign moments [_] rfl sent (by simp) msg hupdate)
  rw [lived_concat, hnewest, if_pos hid.symm, hunwrap, Option.map_some, Option.some_inj,
    (htimed.newer (hpaced.later hupdate) _ _).2, hid, hshows]
  constructor
  · intro hsame old told hheld htold htime
    have hstate := hsame old hheld htime
    rw [hheld, Option.bind_some, htold, Option.map_some] at hstate
    exact Option.some.inj hstate
  · intro hsame old hheld htime
    obtain ⟨-, told, htold, -⟩ := updateOf_heldOf hheld
    rw [hheld, Option.bind_some, htold, Option.map_some, hsame old told hheld htold htime]

theorem shows_lived (hblank : Blank client) (hforeign : Foreign client moments)
    (hpaced : Paced startTime (packets moments)) (hunmixed : Unmixed startTime id (packets moments)) :
    Shows id (lived client moments).scene (packets moments) := by
  induction moments using List.reverseRecOn with
  | nil =>
      rw [Shows, lived_nil, newest, Scene.find, hblank.players]
      rfl
  | append_singleton moments moment ih =>
      rw [packets_append] at hpaced hunmixed ⊢
      have hshows := ih hforeign.of_append hpaced.of_append hunmixed.of_append
      cases moment with
      | meanwhile order op hop =>
          have hsame := samePlayers_meanwhile (lived client moments) order hop
          rwa [packets_meanwhile, List.append_nil, lived_concat, Shows, hsame.newest]
      | packet sent reading order =>
          rw [packets_packet] at hpaced hunmixed ⊢
          rw [Shows, heldOf_concat]
          cases hupdate : updateOf sent with
          | none =>
              have hspares := live_other (lived client moments) reading order hupdate
              rw [lived_concat]
              by_cases hleaves : Leaves sent id
              · rw [hspares.gone id hleaves, (hold_other hupdate).1 hleaves]
                rfl
              · rw [hspares.kept id hleaves, (hold_other hupdate).2 hleaves, hshows]
          | some msg =>
              rw [hold_update hupdate]
              by_cases hid : msg.id = id
              · rw [if_pos hid, Option.bind_some, hupdate, Option.map_some,
                  shows_update hblank hforeign hpaced hupdate hid hshows]
                exact hunmixed _ sent [] msg rfl hupdate hid
              · obtain ⟨-, hnewest⟩ := live_update (lived client moments) reading order hupdate
                  (hforeign moments [_] rfl sent (by simp) msg hupdate)
                rw [if_neg hid, lived_concat, hnewest, if_neg fun h => hid h.symm, hshows]

/-- After each update of the player, its state is the latest. -/
def NewestWins (id : PlayerId) (client : Client D) (moments : List (Moment D)) : Prop :=
  ∀ before sent reading order after msg, moments = before ++ .packet sent reading order :: after →
    updateOf sent = some msg → msg.id = id →
      ((lived client (before ++ [.packet sent reading order])).scene.find id).bind (·.latest) =
        some msg.state

theorem newestWins_iff (hblank : Blank client) (hforeign : Foreign client moments)
    (hpaced : Paced startTime (packets moments)) :
    NewestWins id client moments ↔ Unmixed startTime id (packets moments) := by
  constructor
  · intro hwins
    induction moments using List.reverseRecOn with
    | nil =>
        intro before sent after msg hsplit
        cases before <;> cases hsplit
    | append_singleton moments moment ih =>
        rw [packets_append] at hpaced ⊢
        have hunmixed := ih hforeign.of_append hpaced.of_append
          fun before sent reading order after msg hsplit =>
            hwins before sent reading order (after ++ [moment]) msg (by rw [hsplit]; simp)
        cases moment with
        | meanwhile => rwa [packets_meanwhile, List.append_nil]
        | packet last reading order =>
            rw [packets_packet] at hpaced ⊢
            intro before sent after msg hsplit hupdate hid
            rcases List.eq_nil_or_concat after with rfl | ⟨after, other, rfl⟩
            · obtain ⟨hbefore, hlast⟩ := List.append_inj' hsplit rfl
              obtain rfl := List.singleton_inj.mp hlast
              have hshown := hwins moments last reading order [] msg rfl hupdate hid
              rw [latest_eq] at hshown
              rw [← hbefore]
              exact (shows_update hblank hforeign hpaced hupdate hid
                (shows_lived hblank hforeign.of_append hpaced.of_append hunmixed)).mp hshown
            · refine hunmixed before sent after msg ?_ hupdate hid
              have hconcat : packets moments ++ [last] = (before ++ sent :: after) ++ [other] := by
                rw [hsplit]
                simp
              exact (List.append_inj' hconcat rfl).1
  · rintro hunmixed before sent reading order after msg rfl hupdate hid
    have hsplit : packets (before ++ .packet sent reading order :: after) =
        packets before ++ [sent] ++ packets after := by
      rw [List.append_cons, packets_append, packets_append, packets_packet]
    rw [hsplit] at hpaced hunmixed
    have hinit : Foreign client (before ++ [.packet sent reading order]) := by
      rintro earlier rest hrest other hother
      refine hforeign earlier (rest ++ after) ?_ other ?_
      · rw [List.append_cons, hrest, List.append_assoc]
      · rw [hsplit]
        exact List.mem_append_left _ (by simpa using hother)
    rw [latest_eq]
    refine (shows_update hblank hinit hpaced.of_append hupdate hid ?_).mpr ?_
    · exact shows_lived hblank hinit.of_append hpaced.of_append.of_append
        hunmixed.of_append.of_append
    · exact hunmixed.of_append _ sent [] msg rfl hupdate hid

end Connection

section Runs

variable {D : Type} [CppFloat F32] [CppFloat D] [Libm F32] [Narrow D F32] [Widen F32 D] [Platform]

theorem foreign_of_issued {config : Config} {startTime : Time} {inputs : List ServerRun.Input}
    {c : Peer} (hissued : (Network.after config startTime inputs).issued < 2 ^ 32 - 1)
    {client : Client D} (hblank : Blank client) {moments : List (Moment D)}
    (hdelivers : Delivers ((Network.after config startTime inputs).link c) (packets moments)) :
    Foreign client moments := by
  rintro before after rfl sent hsent msg hupdate
  refine foreign hissued (orderly_after config startTime inputs c hissued)
    (introduced_after config startTime inputs c hissued) hblank (fun other hother => ?_)
    (hdelivers.mem hsent) ?_ ?_
  · exact hdelivers.mem (by rw [packets_append]; exact List.mem_append_left _ hother)
  · rw [Concerns, updateOf_eq_some.mp hupdate]
    rfl
  · rw [kind, updateOf_eq_some.mp hupdate]
    rintro ⟨⟩

end Runs

section Example

open F4MP.Native

def facing (yaw : F32) : Bytes :=
  encode { state := { PlayerState.initial F32 with yaw } : PlayerStateMsg }

def turnsTwice : List ServerRun.Input :=
  twoPlayers ++
    [⟨1000000, .keep _, .receive 0 (facing (CppFloat.ofRat 1))⟩,
      ⟨1500000, .keep _, .receive 0 (facing (CppFloat.ofRat 2))⟩]

def allArrive : List (Moment F64) :=
  ((Network.after {} 0 turnsTwice).link 1).map fun sent =>
    .packet sent ⟨0, CppFloat.ofRat 0, none⟩ (.keep _)

theorem packets_allArrive : packets allArrive = (Network.after {} 0 turnsTwice).link 1 := by
  rw [packets, allArrive, List.filterMap_map]
  exact List.filterMap_some

theorem delivers_allArrive :
    Delivers ((Network.after {} 0 turnsTwice).link 1) (packets allArrive) := by
  rw [packets_allArrive]
  exact ⟨List.prefix_rfl, List.Sublist.refl _⟩

theorem turnsTwice_sends : (Network.after {} 0 turnsTwice).link 1 ≠ [] := by decide +kernel

def secondTurn : Sent := ((Network.after {} 0 turnsTwice).link 1).getLast turnsTwice_sends

end Example

end F4MP.Newest
