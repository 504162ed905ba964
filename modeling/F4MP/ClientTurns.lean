import F4MP.Connection
import F4MP.Delivery

/-!
What a client does in an event, turn by turn: a few kinds of turns with their ENet
events and actions, of which every event is a succession.
-/

namespace F4MP.ClientTurns

open F4MP.Types
open F4MP.Protocol
open F4MP.Messages
open F4MP.Arith
open F4MP.ServerModel (Time)
open F4MP.NetClientModel (NetClient Dial send timedOut)
open F4MP.RemotePlayersModel
open F4MP.SessionModel
open F4MP.SessionSteps
open F4MP.Connection
open F4MP.Delivery

variable {D : Type}

/-- Chat or an own state, if there is a connection, or something asked of the remote
players. -/
inductive Plain (net : NetClient) : Action D → Prop where
  | chat (hconnected : net.state = .kConnected) (text : Bytes) :
      Plain net (.net (.send .kReliable (encode { text : ChatMsg })))
  | state (hconnected : net.state = .kConnected) (state : PlayerState F32) :
      Plain net (.net (.send .kUnreliable (encode { state : PlayerStateMsg })))
  | remotes (op : Op F32 D) : Plain net (.remotes op)

/-- Nothing is asked that is about who the remote players are. -/
def Uninvolved (actions : List (Action D)) : Prop := ∀ op, .remotes op ∈ actions → Neutral op

/-- The connection, the id and the name last sent are the same. -/
structure Constant (session session' : Session) : Prop where
  net : session'.net = session.net
  myId : session'.myId = session.myId
  sentName : session'.sentName = session.sentName

theorem Constant.refl (session : Session) : Constant session session := ⟨rfl, rfl, rfl⟩

section Turns

variable [CppFloat F32]

/-- One turn of a client: the ENet events that are handled in it, and its result. -/
inductive Turn (session : Session) : List (NetEvent D) → Result D → Prop where
  | plain {session' : Session} {actions : List (Action D)} (hsession : Constant session session')
      (hactions : ∀ action ∈ actions, Plain session.net action) (hneutral : Uninvolved actions) :
      Turn session [] (session', actions)
  | rename {session' : Session} (hconnected : session.net.state = .kConnected)
      (hnet : session'.net = session.net) (hid : session'.myId = session.myId) :
      Turn session [] (session', (send session.net .kReliable
        (encode { name := session'.sentName : SetNameMsg })).map .net)
  | hear (bytes : Bytes) (reading : Reading D) (hconnected : session.net.state = .kConnected) :
      Turn session [.receive bytes reading] (handlePacket session bytes reading)
  | opened (playerName : Bytes) (hconnecting : session.net.state = .kConnecting) :
      Turn session [.connect playerName]
        (onConnected { session with net := { session.net with state := .kConnected } } playerName)
  | lost (hstate : session.net.state ≠ .kDisconnected) :
      Turn session [.disconnect] (onDisconnected
        { session with net := { session.net with peer := false, state := .kDisconnected } })
  | closed (hstate : session.net.state ≠ .kDisconnected) :
      Turn session [] ((resetNet session).andThen onDisconnected)
  | dialled (manual : Bool) (dial : Dial) (now : Time) (host : Bytes) (port : UInt16)
      (hstate : session.net.state = .kDisconnected) :
      Turn session []
        ({ session with net := (NetClientModel.connect session.net dial host port).2.1 },
          .dial manual now :: (NetClientModel.connect session.net dial host port).2.2.map .net)

/-- Turns one after the other. -/
inductive Turns : Session → List (NetEvent D) → Result D → Prop where
  | done (session : Session) : Turns session [] (session, [])
  | turn {session : Session} {events more : List (NetEvent D)} {result last : Result D}
      (hturn : Turn session events result) (hrest : Turns result.1 more last) :
      Turns session (events ++ more) (last.1, result.2 ++ last.2)

variable {session session' : Session} {events more : List (NetEvent D)} {result : Result D}

theorem Turn.turns (h : Turn session events result) : Turns session events result := by
  have hturns := Turns.turn h (.done _)
  rwa [List.append_nil, List.append_nil] at hturns

theorem Turns.andThen {next : Session → Result D} (h : Turns session events result)
    (hnext : Turns result.1 more (next result.1)) :
    Turns session (events ++ more) (result.andThen next) := by
  induction h with
  | done => exact hnext
  | turn hturn _ ih =>
      have hrest := ih hnext
      rw [Result.andThen] at hrest ⊢
      rw [List.append_assoc, List.append_assoc]
      exact .turn hturn hrest

theorem Turns.andThen_quiet {next : Session → Result D} (h : Turns session [] result)
    (hnext : Turns result.1 [] (next result.1)) : Turns session [] (result.andThen next) :=
  h.andThen hnext

theorem Turns.after_change (hrest : Turns session' events result)
    (hsession : Constant session session') : Turns session events result := by
  have hturn : Turn (D := D) session [] (session', []) :=
    .plain hsession (by rintro _ ⟨⟩) (by rintro _ ⟨⟩)
  exact .turn hturn hrest

theorem turns_tell (hsession : Constant session session') {op : Op F32 D} (hop : Neutral op) :
    Turns session [] (tell session' op) := by
  refine (Turn.plain hsession (fun action haction => ?_) fun other hother => ?_).turns
  · rw [List.mem_singleton.mp haction]
    exact .remotes op
  · cases List.mem_singleton.mp hother
    exact hop

omit [CppFloat F32] in
theorem plain_send {net : NetClient} {channel : Channel} {bytes : Bytes}
    (h : net.state = .kConnected → Plain net (.net (.send channel bytes) : Action D)) :
    ∀ action ∈ ((send net channel bytes).map .net : List (Action D)), Plain net action := by
  rw [send]
  split
  · rintro _ ⟨⟩
  · rename_i hsent
    intro action haction
    rw [List.mem_singleton.mp haction]
    simp only [Bool.or_eq_true, decide_eq_true_eq, not_or, not_not] at hsent
    exact h hsent.1

omit [CppFloat F32] in
theorem uninvolved_send (net : NetClient) (channel : Channel) (bytes : Bytes) :
    Uninvolved ((send net channel bytes).map .net : List (Action D)) := by
  intro op hop
  obtain ⟨request, -, heq⟩ := List.mem_map.mp hop
  cases heq

theorem plain_sendState (session : Session) (force : Bool) (sample : Option (PlayerState F32))
    (now : Time) :
    (∀ action ∈ (sendState session force sample now : Result D).2, Plain session.net action) ∧
      Uninvolved (sendState session force sample now : Result D).2 := by
  cases sample with
  | none => exact ⟨by rintro _ ⟨⟩, by rintro _ ⟨⟩⟩
  | some state =>
      simp only [sendState]
      split
      · exact ⟨plain_send fun hconnected => .state hconnected state, uninvolved_send _ _ _⟩
      · exact ⟨by rintro _ ⟨⟩, by rintro _ ⟨⟩⟩

theorem plain_handlePacket (session : Session) (bytes : Bytes) (reading : Reading D) :
    ∀ action ∈ (handlePacket session bytes reading).2, Plain session.net action := by
  have hother : ∀ (id : PlayerId) (op : Op F32 D),
      ∀ action ∈ (tellOfOther session id op).2, Plain session.net action := by
    intro id op action haction
    rw [tellOfOther] at haction
    split at haction
    · rw [List.mem_singleton.mp haction]
      exact .remotes op
    · cases haction
  rw [SessionSteps.handlePacket_eq]
  cases decode bytes with
  | none => rintro _ ⟨⟩
  | some m =>
      cases m with
      | welcome => exact (plain_sendState _ _ _ _).1
      | playerJoined | playerRenamed | playerStateUpdate => exact hother _ _
      | playerLeft =>
          intro action haction
          rw [List.mem_singleton.mp haction]
          exact .remotes _
      | reject | chatBroadcast | hello | playerState | chat | setName => rintro _ ⟨⟩

theorem constant_sendState (session : Session) (force : Bool) (sample : Option (PlayerState F32))
    (now : Time) : Constant session (sendState session force sample now : Result D).1 := by
  rw [(sendState_spec session force sample now).1]
  exact ⟨rfl, rfl, rfl⟩

theorem turns_syncName (hconnected : session.net.state = .kConnected) (playerName : Bytes)
    (now : Time) : Turns session [] (syncName session playerName now : Result D) := by
  rw [syncName]
  split
  · exact .done session
  · dsimp only
    split
    · exact .after_change (.done _) ⟨rfl, rfl, rfl⟩
    · exact (Turn.rename hconnected (by rfl) (by rfl)).turns

theorem turns_play (session : Session) (input : TickInput D) :
    Turns session [] (play input session) := by
  rw [play]
  split
  · rename_i hplaying
    have hconnected : session.net.state = .kConnected := by
      rw [isConnected, Bool.and_eq_true] at hplaying
      exact of_decide_eq_true hplaying.1
    have hconstant := constant_sendState (D := D) session false input.sample input.sendNow
    refine Turns.andThen_quiet (Turns.andThen_quiet ?_ ?_) (turns_tell (.refl _) trivial)
    · obtain ⟨hactions, hneutral⟩ := plain_sendState (D := D) session false input.sample input.sendNow
      exact (Turn.plain hconstant hactions hneutral).turns
    · exact turns_syncName (by rw [hconstant.net, hconnected]) _ _
  · exact .done session

theorem turns_disconnectNet (session : Session) :
    Turns session [] (disconnectNet session : Result D) := by
  rw [disconnectNet]
  split
  · exact .done session
  · rename_i hstate
    exact (Turn.closed hstate).turns

omit [CppFloat F32] in
theorem disconnectNet_state (session : Session) :
    (disconnectNet session : Result D).1.net.state = .kDisconnected := by
  rw [disconnectNet]
  split
  · rename_i hstate
    exact hstate
  · rfl

theorem turns_connect (session : Session) (manual : Bool) (dial : Dial) (now : Time) :
    Turns session [] (connect session manual dial now : Result D) := by
  rw [connect]
  split
  · exact .done session
  dsimp only
  split
  · refine Turns.andThen_quiet (.after_change (turns_disconnectNet _) ⟨rfl, rfl, rfl⟩) ?_
    exact (Turn.dialled manual dial now _ _ (disconnectNet_state _)).turns
  split
  · exact .done session
  · rename_i hstate
    exact (Turn.dialled manual dial now _ _ (not_not.mp hstate)).turns

theorem turns_autoConnect (session : Session) (dial : Dial) (now : Time) :
    Turns session [] (autoConnect session dial now : Result D) := by
  rw [autoConnect]
  split
  · exact .after_change (turns_connect _ _ _ _) ⟨rfl, rfl, rfl⟩
  · exact .done session

variable {peer after : EnetPeer} {account : Account}

theorem turn_handleNetEvent (h : Sound peer account session) {event : NetEvent D}
    (hraise : peer.raise event = some after) : Turn session [event] (handleNetEvent session event) := by
  cases event with
  | connect playerName =>
      cases peer with
      | free | connected => cases hraise
      | connecting => exact .opened playerName h.state
  | receive bytes reading =>
      cases peer with
      | free | connecting => cases hraise
      | connected => exact .hear bytes reading h.state
  | disconnect =>
      cases peer with
      | free => cases hraise
      | connecting | connected => exact .lost (by rw [h.state]; rintro ⟨⟩)

theorem turns_handleNetEvents (h : Sound peer account session)
    (hraise : events.foldlM EnetPeer.raise peer = some after) :
    Turns session events (handleNetEvents session events) := by
  induction events generalizing peer account session with
  | nil => exact .done session
  | cons event events ih =>
      rw [List.foldlM_cons] at hraise
      obtain ⟨middle, hfirst, hrest⟩ := Option.bind_eq_some_iff.mp hraise
      obtain ⟨account', -, hsound⟩ := keeps_handleNetEvent h hfirst
      rw [handleNetEvents]
      exact (turn_handleNetEvent h hfirst).turns.andThen (ih hsound hrest)

theorem turns_pump (h : Sound peer account session)
    (hraise : events.foldlM EnetPeer.raise peer = some after) (now : Time) :
    Turns session events (pump session events now) := by
  rw [pump]
  split
  · rename_i hhost
    -- without a host there is no peer that could raise anything
    have hfree : peer = .free := by
      by_contra hpeer
      rw [h.host hpeer] at hhost
      cases hhost
    subst hfree
    cases events with
    | nil => exact .done session
    | cons event events =>
        rw [List.foldlM_cons] at hraise
        cases hraise
  · rw [← List.append_nil events]
    refine Turns.andThen (by rw [List.append_nil]; exact turns_handleNetEvents h hraise) ?_
    split
    · rename_i htimeout
      refine (Turn.closed ?_).turns
      rw [timedOut, Bool.and_eq_true, decide_eq_true_eq, List.append_nil] at htimeout
      rw [List.append_nil, htimeout.1]
      rintro ⟨⟩
    · exact .done _

theorem turns_tick {input : TickInput D} (h : Sound peer account session)
    (hraise : input.events.foldlM EnetPeer.raise peer = some after) :
    Turns session input.events (tick session input) := by
  rw [tick_eq, ← List.append_nil input.events]
  refine Turns.andThen (by rw [List.append_nil]; exact turns_pump h hraise input.pumpNow) ?_
  split
  · exact .done _
  · exact (turns_autoConnect _ _ _).andThen_quiet (turns_play _ _)

theorem turns_step {event : Event D} (h : Sound peer account session)
    (hraise : (netEvents event).foldlM EnetPeer.raise peer = some after) :
    Turns session (netEvents event) (step session event) := by
  cases event with
  | enterWorld | newGame =>
      rw [step, onEnterWorld]
      refine turns_tell ?_ trivial
      exact ⟨rfl, rfl, rfl⟩
  | leaveWorld =>
      rw [step, onLeaveWorld]
      refine turns_tell ?_ trivial
      exact ⟨rfl, rfl, rfl⟩
  | preSave | setCloneBase | actorDeleted => exact turns_tell (.refl session) trivial
  | tick input => exact turns_tick h hraise
  | connect dial now => exact turns_connect session true dial now
  | disconnect => exact .after_change (turns_disconnectNet _) ⟨rfl, rfl, rfl⟩
  | sendChat text =>
      rw [step, sendChat]
      split
      · exact .done session
      · exact (Turn.plain (.refl session) (plain_send fun hconnected => .chat hconnected _)
          (uninvolved_send _ _ _)).turns
  | setServer hostPort =>
      refine .after_change (.done _) ?_
      rw [setServer]
      repeat' split
      all_goals exact ⟨rfl, rfl, rfl⟩
  | setPlayerName name => exact .after_change (.done _) ⟨rfl, rfl, rfl⟩
  | setCloneOption option on =>
      rw [step, setCloneOption]
      repeat' (split; · exact turns_tell (.refl session) trivial)
      exact .done session

end Turns

end F4MP.ClientTurns
