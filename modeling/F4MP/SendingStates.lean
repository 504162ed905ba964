import F4MP.Connection

/-!
Which states of the local player reach the server.  The last state sent is read off
the actions of a client, on the connection they were made on, and compared with the
sample that `SendState` holds back.
-/

namespace F4MP.SendingStates

open F4MP.Types
open F4MP.Protocol
open F4MP.Messages
open F4MP.Arith
open F4MP.ServerModel (Time)
open F4MP.NetClientModel (Dial NetClient)
open F4MP.RemotePlayersModel
open F4MP.SessionModel
open F4MP.SessionSteps
open F4MP.ClientRun
open F4MP.Connection
open F4MP.Library.Runs

variable {D : Type}

def stateIn (bytes : Bytes) : Option (PlayerState F32) :=
  match decode bytes with
  | some (.playerState m) => some m.state
  | _ => none

theorem stateIn_playerState (m : PlayerStateMsg) : stateIn (encode m) = some m.state := by
  simp [stateIn]

theorem stateIn_setName (m : SetNameMsg) : stateIn (encode m) = none := by
  simp [stateIn, Message.cut, Message.mapStrings]

theorem stateIn_chat (m : ChatMsg) : stateIn (encode m) = none := by
  simp [stateIn, Message.cut, Message.mapStrings]

/-- What the actions of a client, and when they are made, tell of the states it sent. -/
structure Ledger where
  /-- The last one since the last connection was asked for. -/
  last : Option (PlayerState F32) := none
  /-- Whether it was sent since the client entered its world or lost a connection. -/
  fresh : Bool := false
  /-- When a state was sent last. -/
  sentAt : Option Time := none
deriving DecidableEq

def Ledger.act (ledger : Ledger) : Time × Action D → Ledger
  | (_, .net (.connect ..)) => { ledger with last := none, fresh := false }
  | (_, .remotes .clear) => { ledger with fresh := false }
  | (now, .net (.send _ bytes)) =>
      match stateIn bytes with
      | some state => { last := some state, fresh := true, sentAt := some now }
      | none => ledger
  | _ => ledger

def Ledger.after (ledger : Ledger) (actions : List (Time × Action D)) : Ledger :=
  actions.foldl Ledger.act ledger

def madeAt (now : Time) (actions : List (Action D)) : List (Time × Action D) := actions.map (now, ·)

theorem Ledger.after_append (ledger : Ledger) (actions more : List (Time × Action D)) :
    ledger.after (actions ++ more) = (ledger.after actions).after more :=
  List.foldl_append

theorem madeAt_append (now : Time) (actions more : List (Action D)) :
    madeAt now (actions ++ more) = madeAt now actions ++ madeAt now more :=
  List.map_append

theorem Ledger.sentAt_act {ledger : Ledger} (h : ledger.last ≠ none → ledger.sentAt ≠ none)
    (action : Time × Action D) :
    (ledger.act action).last ≠ none → (ledger.act action).sentAt ≠ none := by
  unfold Ledger.act
  split
  · exact fun hlast => absurd rfl hlast
  · exact h
  · split
    · rintro - ⟨⟩
    · exact h
  · exact h

theorem Ledger.sentAt_after {ledger : Ledger} (h : ledger.last ≠ none → ledger.sentAt ≠ none)
    (actions : List (Time × Action D)) :
    (ledger.after actions).last ≠ none → (ledger.after actions).sentAt ≠ none := by
  induction actions generalizing ledger with
  | nil => exact h
  | cons action actions ih => exact ih (Ledger.sentAt_act h action)

def Silent (action : Action D) : Prop :=
  ∀ (ledger : Ledger) (now : Time), ledger.act (now, action) = ledger

def Stateless (action : Action D) : Prop :=
  ∀ (ledger : Ledger) (now : Time), (ledger.act (now, action)).sentAt = ledger.sentAt ∧
    (ledger.fresh = false → (ledger.act (now, action)).fresh = false)

theorem Silent.stateless {action : Action D} (h : Silent action) : Stateless action := by
  intro ledger now
  rw [h ledger now]
  exact ⟨rfl, id⟩

theorem Ledger.after_silent (ledger : Ledger) (now : Time) {actions : List (Action D)}
    (h : ∀ action ∈ actions, Silent action) : ledger.after (madeAt now actions) = ledger := by
  induction actions with
  | nil => rfl
  | cons action actions ih =>
      rw [madeAt, List.map_cons, Ledger.after, List.foldl_cons, h action List.mem_cons_self]
      exact ih fun other hother => h other (List.mem_cons_of_mem _ hother)

theorem Ledger.after_stateless (ledger : Ledger) (now : Time) {actions : List (Action D)}
    (h : ∀ action ∈ actions, Stateless action) :
    (ledger.after (madeAt now actions)).sentAt = ledger.sentAt ∧
      (ledger.fresh = false → (ledger.after (madeAt now actions)).fresh = false) := by
  induction actions generalizing ledger with
  | nil => exact ⟨rfl, id⟩
  | cons action actions ih =>
      obtain ⟨hsentAt, hfresh⟩ := h action List.mem_cons_self ledger now
      obtain ⟨hsentAt', hfresh'⟩ := ih (ledger.act (now, action)) fun other hother =>
        h other (List.mem_cons_of_mem _ hother)
      exact ⟨hsentAt'.trans hsentAt, fun hstale => hfresh' (hfresh hstale)⟩

theorem silent_tell (session : Session) {op : Op F32 D} (hop : op ≠ .clear) :
    ∀ action ∈ (tell session op).2, Silent action := by
  intro action haction ledger now
  rw [List.mem_singleton.mp haction]
  cases op with
  | clear => exact absurd rfl hop
  | _ => rfl

theorem silent_send (net : NetClient) (channel : Channel) {bytes : Bytes}
    (h : stateIn bytes = none) :
    ∀ action ∈ (NetClientModel.send net channel bytes).map (.net : _ → Action D),
      Silent action := by
  intro action haction ledger now
  rw [NetClientModel.send] at haction
  split at haction
  · cases haction
  · rw [List.mem_singleton.mp haction, Ledger.act, h]

theorem silent_reset (net : NetClient) :
    ∀ action ∈ (NetClientModel.reset net).2.map (.net : _ → Action D), Silent action := by
  intro action haction ledger now
  rw [NetClientModel.reset] at haction
  dsimp only at haction
  split at haction
  · rw [List.mem_singleton.mp haction]
    split <;> rfl
  · cases haction

theorem stateless_connect (net : NetClient) (dial : Dial) (host : Bytes) (port : UInt16) :
    ∀ action ∈ (NetClientModel.connect net dial host port).2.2.map (.net : _ → Action D),
      Stateless action := by
  intro action haction
  rw [NetClientModel.connect] at haction
  split at haction
  · cases haction
  dsimp only at haction
  split at haction
  · exact (silent_reset net action haction).stateless
  · rw [List.map_append, List.mem_append] at haction
    rcases haction with hreset | hconnect
    · exact (silent_reset net action hreset).stateless
    · rw [List.mem_singleton.mp hconnect]
      exact fun ledger now => ⟨rfl, fun _ => rfl⟩

/-- When an ENet event is handled.  The clock is read for packets only. -/
def clockOf : NetEvent D → Time
  | .receive _ reading => reading.now
  | .connect _ | .disconnect => 0

section Times

variable [CppFloat F32]

/-- The ENet events of a frame: without a host there is nothing to serve. -/
def handled (session : Session) (events : List (NetEvent D)) : Result D :=
  if !session.net.host then (session, []) else handleNetEvents session events

def timedEvents (session : Session) : List (NetEvent D) → List (Time × Action D)
  | [] => []
  | event :: events =>
      madeAt (clockOf event) (handleNetEvent session event).2 ++
        timedEvents (handleNetEvent session event).1 events

def timedHandled (session : Session) (events : List (NetEvent D)) : List (Time × Action D) :=
  if !session.net.host then [] else timedEvents session events

/-- What a frame does, and when: it handles the ENet events, and what comes after them is
done when it looks for a state to send. -/
def timedFrame (session : Session) (input : TickInput D) (actions : List (Action D)) :
    List (Time × Action D) :=
  let heard := timedHandled session input.events
  heard ++ madeAt input.sendNow (actions.drop heard.length)

/-- What an event does, and when.  It is frames that send states. -/
def timed (session : Session) (event : Event D) : List (Time × Action D) :=
  match event with
  | .tick input => timedFrame session input (step session event).2
  | _ => madeAt 0 (step session event).2

/-- The states sent before a world was entered are not those of its player. -/
def Ledger.enter (ledger : Ledger) : Event D → Ledger
  | .enterWorld | .newGame => { ledger with fresh := false }
  | _ => ledger

def Ledger.event (ledger : Ledger) (session : Session) (event : Event D) : Ledger :=
  (ledger.enter event).after (timed session event)

theorem length_timedEvents (session : Session) (events : List (NetEvent D)) :
    (timedEvents session events).length = (handleNetEvents session events).2.length := by
  induction events generalizing session with
  | nil => rfl
  | cons event events ih =>
      rw [timedEvents, List.length_append, ih, madeAt, List.length_map, handleNetEvents,
        Result.andThen, List.length_append]

theorem length_timedHandled (session : Session) (events : List (NetEvent D)) :
    (timedHandled session events).length = (handled session events).2.length := by
  rw [timedHandled, handled]
  split
  · rfl
  · exact length_timedEvents session events

/-- What a frame does between the ENet events and the state. -/
def between (host : Bool) (input : TickInput D) (session : Session) : Result D :=
  (if host && NetClientModel.timedOut session.net input.pumpNow then
    (resetNet session).andThen onDisconnected
  else (session, [])).andThen fun session =>
    if !session.inWorld then (session, [])
    else autoConnect session input.dial input.reconnectNow

theorem beforeSend_eq (session : Session) (input : TickInput D) :
    beforeSend session input =
      (handled session input.events).andThen (between session.net.host input) := by
  rw [beforeSend, pump, handled]
  cases session.net.host with
  | false => simp [Result.andThen, between]
  | true => simp [Result.andThen, between, List.append_assoc]

theorem timedFrame_append (session : Session) (input : TickInput D) (actions : List (Action D)) :
    timedFrame session input ((handled session input.events).2 ++ actions) =
      timedHandled session input.events ++ madeAt input.sendNow actions := by
  rw [timedFrame, length_timedHandled, List.drop_left]

end Times

/-- What a session keeps of the last state is the last one sent on its connection, and when
a state was sent last. -/
structure Recorded (ledger : Ledger) (session : Session) : Prop where
  fresh : session.sender.hasLastSent = ledger.fresh
  last : ledger.fresh = true → ledger.last = some session.sender.lastSent
  sentAt : session.sender.lastSend = ledger.sentAt.getD 0

def Records (now : Time) (ledger : Ledger) (result : Result D) : Prop :=
  Recorded (ledger.after (madeAt now result.2)) result.1

theorem Records.andThen {now : Time} {ledger : Ledger} {result : Result D}
    {next : Session → Result D} (h : Records now ledger result)
    (hnext : ∀ ledger', Recorded ledger' result.1 → Records now ledger' (next result.1)) :
    Records now ledger (result.andThen next) := by
  rw [Records, Result.andThen, madeAt_append, Ledger.after_append]
  exact hnext _ h

section Parts

variable {now : Time} {ledger : Ledger} {session session' : Session} {result : Result D}

theorem Recorded.same (h : Recorded ledger session) (hsender : session'.sender = session.sender) :
    Recorded ledger session' := by
  obtain ⟨hfresh, hlast, hsentAt⟩ := h
  rw [← hsender] at hfresh hlast hsentAt
  exact ⟨hfresh, hlast, hsentAt⟩

theorem Recorded.stale (h : Recorded ledger session) {ledger' : Ledger}
    (hsentAt : ledger'.sentAt = ledger.sentAt) (hfresh : ledger'.fresh = false)
    (hsender : session'.sender = { session.sender with hasLastSent := false }) :
    Recorded ledger' session' where
  fresh := by rw [hsender, hfresh]
  last := by
    rw [hfresh]
    rintro ⟨⟩
  sentAt := by
    rw [hsender, hsentAt]
    exact h.sentAt

theorem records_silent (h : Recorded ledger session) (hsender : result.1.sender = session.sender)
    (hsilent : ∀ action ∈ result.2, Silent action) : Records now ledger result := by
  rw [Records, Ledger.after_silent ledger now hsilent]
  exact h.same hsender

theorem records_stateless (h : Recorded ledger session)
    (hstale : session.sender.hasLastSent = false) (hsender : result.1.sender = session.sender)
    (hstateless : ∀ action ∈ result.2, Stateless action) : Records now ledger result := by
  obtain ⟨hsentAt, hfresh⟩ := Ledger.after_stateless ledger now hstateless
  refine h.stale hsentAt (hfresh (h.fresh.symm.trans hstale)) ?_
  rw [hsender, ← hstale]

theorem records_tell (h : Recorded ledger session) (hsender : session'.sender = session.sender)
    {op : Op F32 D} (hop : op ≠ .clear) : Records now ledger (tell session' op) :=
  records_silent h hsender (silent_tell session' hop)

theorem records_nothing (h : Recorded ledger session) :
    Records now ledger ((session, []) : Result D) := h

theorem records_onDisconnected (h : Recorded ledger session) :
    Records now ledger (onDisconnected session : Result D) :=
  h.stale rfl rfl rfl

theorem records_close (h : Recorded ledger session) :
    Records now ledger ((resetNet session).andThen onDisconnected : Result D) :=
  Records.andThen (records_silent h rfl (silent_reset session.net)) fun _ hrecorded =>
    records_onDisconnected hrecorded

theorem records_disconnectNet (h : Recorded ledger session) :
    Records now ledger (disconnectNet session : Result D) := by
  rw [disconnectNet]
  split
  · exact records_nothing h
  · exact records_close h

theorem hasLastSent_of_closed {peer : EnetPeer} {account : Account} (h : Sound peer account session)
    (hstate : session.net.state = .kDisconnected) : session.sender.hasLastSent = false := by
  refine (h.cleared ?_).1.hasLastSent
  rintro rfl
  cases h.state.symm.trans hstate

theorem records_dialled (h : Recorded ledger session)
    (hstale : session.sender.hasLastSent = false) (manual : Bool) (dial : Dial) (dialNow : Time)
    (host : Bytes) (port : UInt16) :
    Records now ledger (({ session with
      net := (NetClientModel.connect session.net dial host port).2.1 },
      .dial manual dialNow ::
        (NetClientModel.connect session.net dial host port).2.2.map .net) : Result D) := by
  refine records_stateless h hstale rfl fun action haction => ?_
  rcases List.mem_cons.mp haction with rfl | hasked
  · exact fun ledger now => ⟨rfl, id⟩
  · exact stateless_connect _ _ _ _ action hasked

theorem records_connect {peer : EnetPeer} {account : Account} (h : Sound peer account session)
    (hrecorded : Recorded ledger session) (manual : Bool) (dial : Dial) (dialNow : Time) :
    Records now ledger (connect session manual dial dialNow : Result D) := by
  rw [connect]
  split
  · exact records_nothing hrecorded
  dsimp only
  split
  · have hsession : Sound peer account
        { session with manualDisconnect := false, lastReconnectAttempt := dialNow } := h.same rfl
    obtain ⟨account', -, hsound⟩ := (keeps_disconnectNet (D := D) hsession).1
    have hclosed := (hsound.cleared (by rintro ⟨⟩)).1.hasLastSent
    refine (records_disconnectNet (hrecorded.same (by rfl))).andThen fun ledger' hrecorded' => ?_
    exact records_dialled hrecorded' hclosed _ _ _ _ _
  split
  · exact records_nothing hrecorded
  · rename_i hstate
    exact records_dialled hrecorded (hasLastSent_of_closed h (not_not.mp hstate)) _ _ _ _ _

theorem records_autoConnect {peer : EnetPeer} {account : Account} (h : Sound peer account session)
    (hrecorded : Recorded ledger session) (dial : Dial) (dialNow : Time) :
    Records now ledger (autoConnect session dial dialNow : Result D) := by
  rw [autoConnect]
  split
  · exact records_connect (h.same (by rfl)) (hrecorded.same (by rfl)) false dial dialNow
  · exact records_nothing hrecorded

theorem send_of_connected {account : Account} (h : Sound .connected account session)
    (channel : Channel) (bytes : Bytes) :
    NetClientModel.send session.net channel bytes = [.send channel bytes] := by
  rw [NetClientModel.send, if_neg]
  rw [h.state, h.hasPeer]
  decide

section Frames

variable [CppFloat F32]

theorem records_sendState {account : Account} (h : Sound .connected account session)
    (hrecorded : Recorded ledger session) (force : Bool) (sample : Option (PlayerState F32))
    (now : Time) : Records now ledger (sendState session force sample now : Result D) := by
  cases sample with
  | none => exact records_nothing hrecorded
  | some state =>
      simp only [sendState]
      split
      · rw [Records, requests, send_of_connected h]
        simp only [madeAt, List.map_cons, List.map_nil, Ledger.after, List.foldl_cons,
          List.foldl_nil, Ledger.act, stateIn_playerState]
        exact ⟨rfl, fun _ => rfl, rfl⟩
      · exact records_nothing hrecorded

theorem records_hear {account : Account} (h : Sound .connected account session)
    (hrecorded : Recorded ledger session) (reading : Reading D) (m : Message) :
    Records reading.now ledger (hear session reading m) := by
  have hother : ∀ (id : PlayerId) (op : Op F32 D), op ≠ .clear →
      Records reading.now ledger (tellOfOther session id op : Result D) := by
    intro id op hop
    rw [tellOfOther]
    split
    · exact records_tell hrecorded rfl hop
    · exact records_nothing hrecorded
  cases m with
  | welcome msg =>
      have hwelcomed : Sound .connected account
          { session with myId := msg.id, serverName := msg.serverName, welcomed := true } :=
        ⟨h.state, h.hasPeer, h.host, h.underWay, fun hpeer => absurd rfl hpeer⟩
      exact records_sendState hwelcomed (hrecorded.same rfl) true reading.sample reading.now
  | playerJoined | playerRenamed | playerStateUpdate => exact hother _ _ (by rintro ⟨⟩)
  | playerLeft => exact records_tell hrecorded rfl (by rintro ⟨⟩)
  | reject | chatBroadcast | hello | playerState | chat | setName => exact records_nothing hrecorded

theorem records_handleNetEvent {peer after : EnetPeer} {account : Account}
    (h : Sound peer account session) {event : NetEvent D} (hraise : peer.raise event = some after)
    (hrecorded : Recorded ledger session) :
    Records (clockOf event) ledger (handleNetEvent session event) := by
  cases event with
  | connect playerName =>
      refine records_silent hrecorded rfl (silent_send _ _ ?_)
      simp [stateIn, Message.cut, Message.mapStrings]
  | receive bytes reading =>
      cases peer with
      | free | connecting => cases hraise
      | connected =>
          rw [handleNetEvent, handlePacket_eq]
          cases decode bytes with
          | none => exact records_nothing hrecorded
          | some m => exact records_hear h hrecorded reading m
  | disconnect => exact records_onDisconnected (hrecorded.same rfl)

theorem recorded_handleNetEvents {peer after : EnetPeer} {account : Account}
    (h : Sound peer account session) {events : List (NetEvent D)}
    (hraise : events.foldlM EnetPeer.raise peer = some after)
    (hrecorded : Recorded ledger session) :
    Recorded (ledger.after (timedEvents session events)) (handleNetEvents session events).1 := by
  induction events generalizing peer account session ledger with
  | nil => exact hrecorded
  | cons event events ih =>
      rw [List.foldlM_cons] at hraise
      obtain ⟨middle, hfirst, hrest⟩ := Option.bind_eq_some_iff.mp hraise
      obtain ⟨account', -, hsound⟩ := keeps_handleNetEvent h hfirst
      rw [timedEvents, Ledger.after_append, handleNetEvents]
      exact ih hsound hrest (records_handleNetEvent h hfirst hrecorded)

theorem recorded_handled {peer after : EnetPeer} {account : Account}
    (h : Sound peer account session) {events : List (NetEvent D)}
    (hraise : events.foldlM EnetPeer.raise peer = some after)
    (hrecorded : Recorded ledger session) :
    Recorded (ledger.after (timedHandled session events)) (handled session events).1 := by
  rw [timedHandled, handled]
  split
  · exact hrecorded
  · exact recorded_handleNetEvents h hraise hrecorded

omit [CppFloat F32] in
theorem records_between {peer : EnetPeer} {account : Account} (h : Sound peer account session)
    (hrecorded : Recorded ledger session) (host : Bool) (input : TickInput D) :
    Records now ledger (between host input session) := by
  rw [between]
  split
  · rename_i htimeout
    rw [Bool.and_eq_true, NetClientModel.timedOut, Bool.and_eq_true, decide_eq_true_eq] at htimeout
    have hpeer : peer ≠ .free := by
      rintro rfl
      cases h.state.symm.trans htimeout.2.1
    obtain ⟨account', -, hsound⟩ := (keeps_close (D := D) h hpeer).1
    refine (records_close hrecorded).andThen fun ledger' hrecorded' => ?_
    split
    · exact records_nothing hrecorded'
    · exact records_autoConnect hsound hrecorded' _ _
  · refine Records.andThen (records_nothing hrecorded) fun ledger' hrecorded' => ?_
    dsimp only
    split
    · exact records_nothing hrecorded'
    · exact records_autoConnect h hrecorded' _ _

theorem recorded_beforeSend {peer after : EnetPeer} {account : Account}
    (h : Sound peer account session) {input : TickInput D}
    (hraise : input.events.foldlM EnetPeer.raise peer = some after)
    (hrecorded : Recorded ledger session) :
    Recorded (ledger.after (timedFrame session input (beforeSend session input).2))
      (beforeSend session input).1 := by
  have hheard := recorded_handled h hraise hrecorded
  have hsound : ∃ peer' account', Sound peer' account' (handled session input.events).1 := by
    rw [handled]
    split
    · exact ⟨peer, account, h⟩
    · obtain ⟨account', -, hsound⟩ := keeps_handleNetEvents h hraise
      exact ⟨after, account', hsound⟩
  obtain ⟨peer', account', hsound⟩ := hsound
  rw [beforeSend_eq, Result.andThen, timedFrame_append, Ledger.after_append]
  exact records_between hsound hheard session.net.host input

theorem records_play {account : Account} (h : Sound .connected account session)
    (hrecorded : Recorded ledger session) (input : TickInput D) :
    Records input.sendNow ledger (play input session) := by
  rw [play]
  split
  swap
  · exact records_nothing hrecorded
  refine Records.andThen ?_ fun ledger' hrecorded' => records_tell hrecorded' rfl (by rintro ⟨⟩)
  refine (records_sendState h hrecorded false input.sample input.sendNow).andThen
    fun ledger' hrecorded' => ?_
  rw [syncName]
  split
  · exact records_nothing hrecorded'
  dsimp only
  split
  · exact records_nothing (hrecorded'.same rfl)
  · exact records_silent hrecorded' rfl (silent_send _ _ (stateIn_setName _))

theorem recorded_tick {peer after : EnetPeer} {account : Account} (h : Sound peer account session)
    {input : TickInput D} (hraise : input.events.foldlM EnetPeer.raise peer = some after)
    (hrecorded : Recorded ledger session) :
    Recorded (ledger.after (timedFrame session input (tick session input).2))
      (tick session input).1 := by
  have hbefore := recorded_beforeSend h hraise hrecorded
  obtain ⟨account', -, hsound⟩ := keeps_beforeSend h hraise
  have hplay : Records input.sendNow
      (ledger.after (timedFrame session input (beforeSend session input).2))
      (if (beforeSend session input).1.inWorld then play input (beforeSend session input).1
      else ((beforeSend session input).1, [])) := by
    generalize asked after (beforeSend session input).2 = peer' at hsound
    split
    swap
    · exact records_nothing hbefore
    cases peer' with
    | connected => exact records_play hsound hbefore input
    | free | connecting =>
        rw [play, isConnected, hsound.state]
        exact records_nothing hbefore
  rw [Records, ← Ledger.after_append] at hplay
  rw [tick_eq_beforeSend, Result.andThen]
  rw [beforeSend_eq, Result.andThen] at hplay ⊢
  dsimp only at hplay ⊢
  rw [List.append_assoc, timedFrame_append, madeAt_append]
  rwa [timedFrame_append, List.append_assoc] at hplay

theorem recorded_step {peer after : EnetPeer} {account : Account} (h : Sound peer account session)
    {event : Event D} (hraise : (netEvents event).foldlM EnetPeer.raise peer = some after)
    (hrecorded : Recorded ledger session) :
    Recorded (ledger.event session event) (step session event).1 := by
  have hrecords : (∀ input, event ≠ .tick input) → ledger.enter event = ledger →
      Records 0 ledger (step session event) →
      Recorded (ledger.event session event) (step session event).1 := by
    intro hframe henter h
    rw [Ledger.event, henter, timed]
    · exact h
    · exact hframe
  have htell : ∀ (session' : Session) (op : Op F32 D), session'.sender = session.sender →
      op ≠ .clear → Records 0 ledger (tell session' op) :=
    fun _ _ hsender hop => records_tell hrecorded hsender hop
  cases event with
  | enterWorld | newGame => exact hrecorded.stale rfl rfl rfl
  | leaveWorld => exact hrecords (by rintro _ ⟨⟩) rfl (htell _ .forgetActors rfl (by rintro ⟨⟩))
  | preSave => exact hrecords (by rintro _ ⟨⟩) rfl (htell _ .despawnAll rfl (by rintro ⟨⟩))
  | setCloneBase form =>
      exact hrecords (by rintro _ ⟨⟩) rfl (htell _ (.setCloneBase form) rfl (by rintro ⟨⟩))
  | actorDeleted ref =>
      exact hrecords (by rintro _ ⟨⟩) rfl (htell _ (.actorDeleted ref) rfl (by rintro ⟨⟩))
  | tick input => exact recorded_tick h hraise hrecorded
  | connect dial now =>
      exact hrecords (by rintro _ ⟨⟩) rfl (records_connect h hrecorded true dial now)
  | disconnect =>
      exact hrecords (by rintro _ ⟨⟩) rfl (records_disconnectNet (hrecorded.same rfl))
  | sendChat text =>
      refine hrecords (by rintro _ ⟨⟩) rfl ?_
      rw [step, sendChat]
      split
      · exact records_nothing hrecorded
      · exact records_silent hrecorded rfl (silent_send _ _ (stateIn_chat _))
  | setServer hostPort =>
      refine hrecords (by rintro _ ⟨⟩) rfl (records_silent hrecorded ?_ (by rintro _ ⟨⟩))
      rw [step, setServer]
      repeat' split
      all_goals rfl
  | setPlayerName name => exact hrecords (by rintro _ ⟨⟩) rfl (hrecorded.same rfl)
  | setCloneOption option on =>
      refine hrecords (by rintro _ ⟨⟩) rfl ?_
      rw [step, setCloneOption]
      repeat' (split; · exact records_tell hrecorded rfl (by rintro ⟨⟩))
      exact records_nothing hrecorded

end Frames

end Parts

/-- A state with the numbers its floats stand for. -/
def valued (value : F32 → ℚ) (state : PlayerState F32) : PlayerState ℚ where
  position := ⟨value state.position.x, value state.position.y, value state.position.z⟩
  yaw := value state.yaw
  worldspaceId := state.worldspaceId
  cellId := state.cellId
  flags := state.flags
  health := value state.health
  maxHealth := value state.maxHealth

/-- Two states that agree in every field that travels. -/
structure Agrees (a b : PlayerState ℚ) : Prop where
  position : (a.position.x - b.position.x) ^ 2 + (a.position.y - b.position.y) ^ 2 +
    (a.position.z - b.position.z) ^ 2 ≤ (1 / 2) ^ 2
  yaw : |a.yaw - b.yaw| ≤ 5 / 1000
  worldspaceId : a.worldspaceId = b.worldspaceId
  cellId : a.cellId = b.cellId
  flags : a.flags = b.flags
  health : |a.health - b.health| ≤ 1 / 2
  maxHealth : a.maxHealth = b.maxHealth

theorem fabs_eq_abs (q : ℚ) : fabs q = |q| := by
  rw [fabs]
  split
  · rename_i hneg
    exact (zero_sub q).trans (abs_of_neg hneg).symm
  · rename_i hneg
    exact (abs_of_nonneg (not_lt.mp hneg)).symm

theorem agrees_iff (a b : PlayerState ℚ) :
    Agrees a b ↔ changed a b = false ∧ a.maxHealth = b.maxHealth := by
  have hchanged : changed a b = false ↔
      (a.position.x - b.position.x) ^ 2 + (a.position.y - b.position.y) ^ 2 +
        (a.position.z - b.position.z) ^ 2 ≤ (1 / 2) ^ 2 ∧
      |a.yaw - b.yaw| ≤ 5 / 1000 ∧ a.worldspaceId = b.worldspaceId ∧ a.cellId = b.cellId ∧
      a.flags = b.flags ∧ |a.health - b.health| ≤ 1 / 2 := by
    have hmove : (moveEpsilon * moveEpsilon : ℚ) = (1 / 2) ^ 2 := (sq _).symm
    have hyaw : (yawEpsilon : ℚ) = 5 / 1000 := rfl
    have hhealth : (healthEpsilon : ℚ) = 1 / 2 := rfl
    simp only [changed, fabs_eq_abs, hmove, hyaw, hhealth, ← sq]
    split
    · rename_i hmoved
      simp only [Bool.true_eq_false, false_iff, not_and]
      exact fun hposition => absurd hmoved (not_lt.mpr hposition)
    · rename_i hstays
      simp only [Bool.or_eq_false_iff, decide_eq_false_iff_not, not_lt, not_not, ne_eq, and_assoc,
        not_lt.mp hstays, true_and]
  rw [hchanged]
  constructor
  · rintro ⟨hposition, hyaw, hworldspace, hcell, hflags, hhealth, hmax⟩
    exact ⟨⟨hposition, hyaw, hworldspace, hcell, hflags, hhealth⟩, hmax⟩
  · rintro ⟨⟨hposition, hyaw, hworldspace, hcell, hflags, hhealth⟩, hmax⟩
    exact ⟨hposition, hyaw, hworldspace, hcell, hflags, hhealth, hmax⟩

def Sends (actions : List (Action D)) (state : PlayerState F32) : Prop :=
  ∃ channel bytes, .net (.send channel bytes) ∈ actions ∧ stateIn bytes = some state

def Limited (ledger : Ledger) (sendRate : UInt32) (now : Time) : Prop :=
  ∃ sentAt, ledger.sentAt = some sentAt ∧ now - sentAt < sendInterval sendRate

/-- The state was sent, or one was a moment ago, or what was sent on this connection less
than a second ago tells the same. -/
def Lossless (value : F32 → ℚ) (ledger : Ledger) (sendRate : UInt32) (state : PlayerState F32)
    (now : Time) (actions : List (Action D)) : Prop :=
  Sends actions state ∨ Limited ledger sendRate now ∨
    ∃ sentAt last, ledger.sentAt = some sentAt ∧ now - sentAt < heartbeatInterval ∧
      ledger.last = some last ∧ Agrees (valued value state) (valued value last)

/-- Nothing but the comparison with the last state sent holds the state back. -/
def Unchanged [CppFloat F32] (ledger : Ledger) (sendRate : UInt32) (state : PlayerState F32)
    (now : Time) (last : PlayerState F32) : Prop :=
  ∃ sentAt, ledger.sentAt = some sentAt ∧ sendInterval sendRate ≤ now - sentAt ∧
    now - sentAt < heartbeatInterval ∧ ledger.last = some last ∧ ledger.fresh = true ∧
    changed state last = false

section Held

variable [CppFloat F32] {ledger : Ledger} {session : Session}

/-- What `SendState` decides from what it keeps is decided by what was sent, and when. -/
theorem due_eq_false_iff (hrecorded : Recorded ledger session)
    (hsent : ledger.last ≠ none → ledger.sentAt ≠ none) (state : PlayerState F32) (now : Time) :
    session.sender.due session.config.sendRate false state now = false ↔
      Limited ledger session.config.sendRate now ∨
      (ledger.sentAt = none ∧ now < sendInterval session.config.sendRate) ∨
      ∃ last, Unchanged ledger session.config.sendRate state now last := by
  rw [StateSender.due, hrecorded.fresh, hrecorded.sentAt]
  simp only [Limited, Unchanged]
  generalize sendInterval session.config.sendRate = interval
  cases hsentAt : ledger.sentAt with
  | none =>
      have hstale : ledger.fresh = false := by
        by_contra hfresh
        rw [Bool.not_eq_false] at hfresh
        exact hsent (by rw [hrecorded.last hfresh]; rintro ⟨⟩) hsentAt
      simp [hstale]
  | some sentAt =>
      cases hfresh : ledger.fresh with
      | false => simp
      | true =>
          have hlast := hrecorded.last hfresh
          by_cases hlimited : now - sentAt < interval
          · simp [hlimited]
          · simp [hlimited, hlast, not_lt.mp hlimited]

theorem sends_iff {account : Account} (h : Sound .connected account session)
    (state : PlayerState F32) (now : Time) :
    Sends (sendState session false (some state) now : Result D).2 state ↔
      session.sender.due session.config.sendRate false state now = true := by
  simp only [sendState]
  split
  · rename_i hdue
    refine ⟨fun _ => hdue, fun _ => ?_⟩
    rw [requests, send_of_connected h]
    exact ⟨.kUnreliable, _, List.mem_singleton_self _, stateIn_playerState _⟩
  · rename_i hheld
    refine ⟨?_, fun hdue => absurd hdue hheld⟩
    rintro ⟨_, _, ⟨⟩, -⟩

/-- A state that is held back is lost if it differs in what is not compared, or if there
was no state before it to come too soon after. -/
theorem lossless_iff {account : Account} (h : Sound .connected account session)
    (hrecorded : Recorded ledger session) (hsent : ledger.last ≠ none → ledger.sentAt ≠ none)
    (value : F32 → ℚ) (state : PlayerState F32) (now : Time)
    (hexact : ∀ last, ledger.last = some last →
      changed state last = changed (valued value state) (valued value last)) :
    Lossless value ledger session.config.sendRate state now
        (sendState session false (some state) now : Result D).2 ↔
      (ledger.sentAt = none → sendInterval session.config.sendRate ≤ now) ∧
      ∀ last, Unchanged ledger session.config.sendRate state now last →
        value state.maxHealth = value last.maxHealth := by
  have hagrees : ∀ last, ledger.last = some last → changed state last = false →
      (Agrees (valued value state) (valued value last) ↔
        value state.maxHealth = value last.maxHealth) := by
    intro last hlast hsame
    rw [agrees_iff, ← hexact last hlast, hsame]
    exact and_iff_right rfl
  rw [Lossless, sends_iff h, ← Bool.not_eq_false, due_eq_false_iff hrecorded hsent]
  generalize session.config.sendRate = sendRate
  constructor
  · intro hlossless
    refine ⟨fun hnever => ?_, fun last hunchanged => ?_⟩
    · by_contra hearly
      rcases hlossless with hdue | ⟨sentAt, hsentAt, -⟩ | ⟨sentAt, -, hsentAt, -⟩
      · exact hdue (.inr (.inl ⟨hnever, not_le.mp hearly⟩))
      · cases hnever.symm.trans hsentAt
      · cases hnever.symm.trans hsentAt
    · obtain ⟨sentAt, hsentAt, hlate, -, hlast, -, hsame⟩ := id hunchanged
      rcases hlossless with hdue | ⟨sentAt', hsentAt', hsoon⟩ | ⟨-, last', -, -, hlast', hagree⟩
      · exact absurd (.inr (.inr ⟨last, hunchanged⟩)) hdue
      · obtain rfl := Option.some.inj (hsentAt.symm.trans hsentAt')
        exact absurd hsoon (not_lt.mpr hlate)
      · obtain rfl := Option.some.inj (hlast.symm.trans hlast')
        exact (hagrees last hlast hsame).mp hagree
  · rintro ⟨hfirst, hmax⟩
    by_contra hlost
    obtain ⟨hheld, hlost⟩ := not_or.mp hlost
    rcases not_not.mp hheld with hlimited | ⟨hnever, hearly⟩ | ⟨last, hunchanged⟩
    · exact hlost (.inl hlimited)
    · exact absurd hearly (not_lt.mpr (hfirst hnever))
    · obtain ⟨sentAt, hsentAt, -, hrecent, hlast, -, hsame⟩ := id hunchanged
      exact hlost (.inr ⟨sentAt, last, hsentAt, hrecent, hlast,
        (hagrees last hlast hsame).mpr (hmax last hunchanged)⟩)

end Held

section Runs

variable [CppFloat F32] [CppFloat D] [Libm F32] [Narrow D F32] [Widen F32 D]

/-- What a run tells of the states sent in it: it is read off what is done in each step and
when, and starts with nothing. -/
def ledgerAfter (config : Config) (gameVersion : UInt32) (enetReady : Bool)
    (inputs : List (Input D)) : Ledger :=
  (run (fun (account : Client D × Ledger) input =>
    (account.1.step input, account.2.event account.1.session input.event))
    (.initial config gameVersion enetReady, {}) inputs).2

theorem ledgerAfter_concat (config : Config) (gameVersion : UInt32) (enetReady : Bool)
    (inputs : List (Input D)) (input : Input D) :
    ledgerAfter config gameVersion enetReady (inputs ++ [input]) =
      (ledgerAfter config gameVersion enetReady inputs).event
        (Watched.after config gameVersion enetReady inputs).client.session input.event := by
  have hclient : ∀ inputs : List (Input D),
      (run (fun (account : Client D × Ledger) input =>
        (account.1.step input, account.2.event account.1.session input.event))
        (.initial config gameVersion enetReady, {}) inputs).1 =
        (Watched.after config gameVersion enetReady inputs).client := by
    intro inputs
    induction inputs using List.reverseRecOn with
    | nil => rfl
    | append_singleton inputs input ih =>
        rw [run_concat, Watched.after, run_concat]
        exact congrArg (Client.step · input) ih
  rw [ledgerAfter, run_concat]
  dsimp only
  rw [hclient, ledgerAfter]

omit [CppFloat D] [Libm F32] [Narrow D F32] [Widen F32 D] in
theorem sentAt_event {ledger : Ledger} (h : ledger.last ≠ none → ledger.sentAt ≠ none)
    (session : Session) (event : Event D) :
    (ledger.event session event).last ≠ none → (ledger.event session event).sentAt ≠ none := by
  refine Ledger.sentAt_after ?_ _
  cases event <;> exact h

theorem sentAt_ledgerAfter (config : Config) (gameVersion : UInt32) (enetReady : Bool)
    (inputs : List (Input D)) :
    (ledgerAfter config gameVersion enetReady inputs).last ≠ none →
      (ledgerAfter config gameVersion enetReady inputs).sentAt ≠ none := by
  induction inputs using List.reverseRecOn with
  | nil => exact fun h => absurd rfl h
  | append_singleton inputs input ih =>
      rw [ledgerAfter_concat]
      exact sentAt_event ih _ _

theorem recorded_after {config : Config} {gameVersion : UInt32} {enetReady : Bool}
    {inputs : List (Input D)}
    (henet : (Watched.after config gameVersion enetReady inputs).enet ≠ none) :
    Recorded (ledgerAfter config gameVersion enetReady inputs)
      (Watched.after config gameVersion enetReady inputs).client.session := by
  induction inputs using List.reverseRecOn with
  | nil => exact ⟨rfl, by rintro ⟨⟩, rfl⟩
  | append_singleton inputs input ih =>
      obtain ⟨before, after, account, hbefore, hsound, hraise⟩ := sound_before henet
      have hrecorded := ih (by rw [hbefore]; rintro ⟨⟩)
      have hsession :
          (Watched.after config gameVersion enetReady (inputs ++ [input])).client.session =
            (step (Watched.after config gameVersion enetReady inputs).client.session
              input.event).1 := by
        rw [Watched.after, run_concat]
        rfl
      rw [ledgerAfter_concat, hsession]
      exact recorded_step hsound hraise hrecorded

/-- While ENet keeps its promises, take any frame of any run in which a welcomed client in a
world has a sample, and compare exact numbers.  Nothing is lost exactly when two things
hold: if no state was ever sent, the clock is past the first interval; and if the sample is
held back for being unchanged, it has the `maxHealth` of the last state. -/
theorem suppressed_states (config : Config) (gameVersion : UInt32) (enetReady : Bool)
    (inputs : List (Input D)) (input : TickInput D) (orders : Nat → PlayerOrder F32)
    (state : PlayerState F32) (value : F32 → ℚ)
    (henet : (Watched.after config gameVersion enetReady
      (inputs ++ [⟨.tick input, orders⟩])).enet ≠ none)
    (hsample : input.sample = some state) :
    let start := (Watched.after config gameVersion enetReady inputs).client.session
    let session := (beforeSend start input).1
    let ledger := (ledgerAfter config gameVersion enetReady inputs).after
      (timedFrame start input (beforeSend start input).2)
    session.inWorld = true → isConnected session = true →
    (∀ last, ledger.last = some last →
      changed state last = changed (valued value state) (valued value last)) →
    (Lossless value ledger session.config.sendRate state input.sendNow
        (sendState session false input.sample input.sendNow : Result D).2 ↔
      (ledger.sentAt = none → sendInterval session.config.sendRate ≤ input.sendNow) ∧
      ∀ last, Unchanged ledger session.config.sendRate state input.sendNow last →
        value state.maxHealth = value last.maxHealth) := by
  intro start session ledger hworld hconnected hexact
  obtain ⟨peer, after, account, hbefore, hsound, hraise⟩ := sound_before henet
  have hrecorded : Recorded ledger session :=
    recorded_beforeSend hsound hraise (recorded_after (by rw [hbefore]; rintro ⟨⟩))
  obtain ⟨account', -, hsound'⟩ := keeps_beforeSend hsound hraise
  have hpeer' : asked after (beforeSend start input).2 = .connected := by
    rw [isConnected, Bool.and_eq_true, decide_eq_true_eq, hsound'.state] at hconnected
    revert hconnected
    cases asked after (beforeSend start input).2 with
    | connected => exact fun _ => rfl
    | free | connecting => rintro ⟨⟨⟩, -⟩
  rw [hpeer'] at hsound'
  rw [hsample]
  exact lossless_iff hsound' hrecorded
    (Ledger.sentAt_after (sentAt_ledgerAfter config gameVersion enetReady inputs) _) value state
    input.sendNow hexact

end Runs

section Example

open F4MP.Native

def wounded (health maxHealth : ℚ) : PlayerState F32 :=
  { PlayerState.initial F32 with
    worldspaceId := 0x3C
    cellId := 0xD93A
    health := CppFloat.ofRat health
    maxHealth := CppFloat.ofRat maxHealth }

/-- A client enters a world, connects and sends its first state when it is welcomed. -/
def joined : List (Input F64) :=
  [.enterWorld, .connect { now := 20000000000 } 20000000000,
    .tick (frame [.connect (ascii "Ada")] 20100000000),
    .tick (frame [.receive (encode { id := 1, serverName := [], motd := [] : WelcomeMsg })
      ⟨20200000000, CppFloat.ofRat 0, some (wounded 80 100)⟩] 20200000000)].map
    fun event => ⟨event, fun _ => .keep _⟩

/-- A frame a tenth of a second later. -/
def later (state : PlayerState F32) : TickInput F64 :=
  { frame [] 20300000000 with sample := some state }

def ledgerBefore (input : TickInput F64) : Ledger :=
  (ledgerAfter {} 0 true joined).after (timedFrame (Watched.after {} 0 true joined).client.session
    input (beforeSend (Watched.after {} 0 true joined).client.session input).2)

theorem ledgerBefore_later (state : PlayerState F32) :
    ledgerBefore (later state) = ⟨some (wounded 80 100), true, some 20200000000⟩ := by
  have hframe : ledgerBefore (later state) = ledgerBefore (frame [] 20300000000) := rfl
  rw [hframe]
  decide +kernel

/-- A player who heals a little is not sent again so soon. -/
theorem suppressed_states_healing :
    let session := (beforeSend (Watched.after {} 0 true joined).client.session
      (later (wounded (321 / 4) 100))).1
    Lossless value (ledgerBefore (later (wounded (321 / 4) 100))) session.config.sendRate
      (wounded (321 / 4) 100) 20300000000
      (sendState session false (some (wounded (321 / 4) 100)) 20300000000 : Result F64).2 := by
  have hlast : ∀ last, (ledgerBefore (later (wounded (321 / 4) 100))).last = some last →
      last = wounded 80 100 := by
    rw [ledgerBefore_later]
    rintro _ ⟨⟩
    rfl
  have hlossless := suppressed_states {} 0 true joined (later (wounded (321 / 4) 100))
    (fun _ => .keep _) (wounded (321 / 4) 100) value (by decide +kernel) rfl (by decide +kernel)
    (by decide +kernel) fun last h => by rw [hlast last h]; decide +kernel
  refine hlossless.mpr ⟨fun hnever => ?_, ?_⟩
  · have hsent := congrArg Ledger.sentAt (ledgerBefore_later (wounded (321 / 4) 100))
    cases hnever.symm.trans hsent
  · rintro last ⟨-, -, -, -, h, -⟩
    rw [hlast last h]
    decide +kernel

/-- A player whose greatest health grows, and nothing else, is held back. -/
theorem suppressed_states_stronger :
    let input := later (wounded 80 110)
    let session := (beforeSend (Watched.after {} 0 true joined).client.session input).1
    (Watched.after {} 0 true (joined ++ [⟨.tick input, fun _ => .keep _⟩])).enet ≠ none ∧
    session.inWorld = true ∧ isConnected session = true ∧
    changed (wounded 80 110) (wounded 80 100) =
      changed (valued value (wounded 80 110)) (valued value (wounded 80 100)) ∧
    (ledgerBefore input).last = some (wounded 80 100) ∧
    ¬ Lossless value (ledgerBefore input) session.config.sendRate (wounded 80 110)
      20300000000 (sendState session false (some (wounded 80 110)) 20300000000 : Result F64).2 := by
  intro input session
  have hledger : ledgerBefore input = _ := ledgerBefore_later (wounded 80 110)
  have hheld : (sendState session false (some (wounded 80 110)) 20300000000 :
      Result F64).2.isEmpty = true := by decide +kernel
  refine ⟨by decide +kernel, by decide +kernel, by decide +kernel, by decide +kernel,
    congrArg Ledger.last hledger, ?_⟩
  rw [hledger]
  rintro (⟨channel, bytes, hsent, -⟩ | ⟨sentAt, hsentAt, hshort⟩ | ⟨-, last, -, -, hsame, hagrees⟩)
  · rw [List.isEmpty_iff.mp hheld] at hsent
    cases hsent
  · cases hsentAt
    revert hshort
    decide +kernel
  · cases hsame
    exact absurd hagrees.maxHealth (by decide +kernel)

end Example

end F4MP.SendingStates
