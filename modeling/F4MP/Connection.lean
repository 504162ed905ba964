import F4MP.ClientRun
import F4MP.Native
import F4MP.SessionSteps

/-!
What belongs to a connection of the client and goes when the connection goes: the peer,
the welcome and the players heard of.
-/

namespace F4MP.Connection

open F4MP.Types
open F4MP.Protocol
open F4MP.Arith
open F4MP.ServerModel (Time)
open F4MP.NetClientModel (NetClient State Dial timedOut)
open F4MP.RemotePlayersModel
open F4MP.SessionModel
open F4MP.SessionSteps
open F4MP.ClientRun
open F4MP.Library.HashTable
open F4MP.Library.Runs

variable {D : Type}

/-- What ENet has for the client: no peer, one it is connecting, or a connected one. -/
inductive EnetPeer where
  | free
  | connecting
  | connected
deriving DecidableEq

/-- What an event makes of the peer; `none` for one that the peer cannot raise. -/
def EnetPeer.raise : EnetPeer → NetEvent D → Option EnetPeer
  | .connecting, .connect _ => some .connected
  | .connected, .receive .. => some .connected
  | .connecting, .disconnect => some .free
  | .connected, .disconnect => some .free
  | _, _ => none

def EnetPeer.ask : EnetPeer → Action D → EnetPeer
  | _, .net (.connect ..) => .connecting
  | _, .net .disconnectNow => .free
  | _, .net .peerReset => .free
  | peer, _ => peer

/-- The events of ENet that are part of an event of the client. -/
def netEvents : Event D → List (NetEvent D)
  | .tick input => input.events
  | _ => []

/-- Whether an attempt to connect is under way after an action.  `clear` is asked for by
`onDisconnected` alone; `none` for a second attempt before it, and for it without an
attempt. -/
def bracket : Bool → Action D → Option Bool
  | false, .net (.connect ..) => some true
  | true, .net (.connect ..) => none
  | true, .remotes .clear => some false
  | false, .remotes .clear => none
  | underWay, _ => some underWay

/-- Whether nothing was heard since the players were cleared. -/
def vacant : Bool → Action D → Bool
  | _, .remotes .clear => true
  | _, .remotes (.add ..) => false
  | _, .remotes (.rename ..) => false
  | _, .remotes (.applyState ..) => false
  | before, _ => before

/-- What the actions so far tell of a client. -/
structure Account where
  underWay : Bool := false
  vacant : Bool := true

def Account.act (account : Account) (action : Action D) : Option Account :=
  (bracket account.underWay action).map fun underWay =>
    { underWay, vacant := Connection.vacant account.vacant action }

/-- What a session keeps of a connection, when there is none. -/
structure Cleared (session : Session) : Prop where
  welcomed : session.welcomed = false
  myId : session.myId = invalidPlayerId
  serverName : session.serverName = []
  hasLastSent : session.sender.hasLastSent = false

/-- The state of the client that goes with a peer. -/
def EnetPeer.state : EnetPeer → State
  | .free => .kDisconnected
  | .connecting => .kConnecting
  | .connected => .kConnected

/-- A session in step with ENet and with what it did so far. -/
structure Sound (peer : EnetPeer) (account : Account) (session : Session) : Prop where
  state : session.net.state = peer.state
  hasPeer : session.net.peer = decide (peer ≠ .free)
  host : peer ≠ .free → session.net.host = true
  underWay : account.underWay = decide (peer ≠ .free)
  cleared : peer ≠ .connected → Cleared session ∧ account.vacant = true

/-- The result of something that fits what was done before and ends sound. -/
def Keeps (peer : EnetPeer) (account : Account) (result : Result D) : Prop :=
  ∃ account', result.2.foldlM Account.act account = some account' ∧ Sound peer account' result.1

theorem Keeps.andThen {peer after : EnetPeer} {account : Account} {result : Result D}
    {next : Session → Result D} (h : Keeps peer account result)
    (hnext : ∀ account', Sound peer account' result.1 → Keeps after account' (next result.1)) :
    Keeps after account (result.andThen next) := by
  obtain ⟨account', hfold, hsound⟩ := h
  obtain ⟨account'', hfold', hsound'⟩ := hnext account' hsound
  refine ⟨account'', ?_, hsound'⟩
  rw [Result.andThen, List.foldlM_append, hfold]
  exact hfold'

def asked (peer : EnetPeer) (actions : List (Action D)) : EnetPeer := actions.foldl EnetPeer.ask peer

@[simp] theorem asked_nil (peer : EnetPeer) : asked peer ([] : List (Action D)) = peer := rfl

theorem asked_andThen (peer : EnetPeer) (result : Result D) (next : Session → Result D) :
    asked peer (result.andThen next).2 = asked (asked peer result.2) (next result.1).2 :=
  List.foldl_append

def Spoken : Op F32 D → Prop
  | .add .. | .remove .. | .rename .. | .applyState .. => True
  | _ => False

section Parts

variable {peer : EnetPeer} {account : Account} {session session' : Session}

theorem keeps_nothing (h : Sound peer account session) :
    Keeps peer account ((session, []) : Result D) := ⟨account, rfl, h⟩

theorem Sound.congr (h : Sound peer account session) (hnet : session'.net = session.net)
    (hcleared : Cleared session → Cleared session') : Sound peer account session' where
  state := hnet ▸ h.state
  hasPeer := hnet ▸ h.hasPeer
  host := hnet ▸ h.host
  underWay := h.underWay
  cleared hpeer := ⟨hcleared (h.cleared hpeer).1, (h.cleared hpeer).2⟩

def connectionPart (session : Session) : NetClient × Bool × PlayerId × Bytes × StateSender F32 :=
  (session.net, session.welcomed, session.myId, session.serverName, session.sender)

theorem Sound.same (h : Sound peer account session)
    (hsame : connectionPart session' = connectionPart session) : Sound peer account session' := by
  simp only [connectionPart, Prod.mk.injEq] at hsame
  obtain ⟨hnet, hwelcomed, hmyId, hserverName, hsender⟩ := hsame
  refine h.congr hnet fun hcleared => ⟨?_, ?_, ?_, ?_⟩
  · exact hwelcomed.trans hcleared.welcomed
  · exact hmyId.trans hcleared.myId
  · exact hserverName.trans hcleared.serverName
  · exact hsender ▸ hcleared.hasLastSent

theorem asked_mild (peer : EnetPeer) {actions : List (Action D)} (h : Mild actions) :
    asked peer actions = peer := by
  induction actions with
  | nil => rfl
  | cons action actions ih =>
      have haction : peer.ask action = peer := by
        rcases h action List.mem_cons_self with ⟨channel, bytes, rfl⟩ | ⟨op, rfl, -⟩
        · cases peer <;> rfl
        · cases peer <;> rfl
      rw [asked, List.foldl_cons, haction]
      exact ih fun other hother => h other (List.mem_cons_of_mem _ hother)

theorem fold_mild (account : Account) {actions : List (Action D)} (h : Mild actions) :
    ∃ vacant, actions.foldlM Account.act account = some { account with vacant } := by
  induction actions generalizing account with
  | nil => exact ⟨account.vacant, rfl⟩
  | cons action actions ih =>
      have haction : ∃ vacant, account.act action = some { account with vacant } := by
        obtain ⟨underWay, before⟩ := account
        rcases h action List.mem_cons_self with ⟨channel, bytes, rfl⟩ | ⟨op, rfl, hop⟩
        · cases underWay <;> exact ⟨_, rfl⟩
        · cases op <;> first | exact absurd rfl hop | (cases underWay <;> exact ⟨_, rfl⟩)
      obtain ⟨vacant, hfirst⟩ := haction
      obtain ⟨vacant', hrest⟩ := ih { account with vacant } fun other hother =>
        h other (List.mem_cons_of_mem _ hother)
      refine ⟨vacant', ?_⟩
      rw [List.foldlM_cons, hfirst]
      exact hrest

theorem keeps_mild {result : Result D} (h : Sound .connected account session)
    (hnet : result.1.net = session.net) (hmild : Mild result.2) :
    Keeps .connected account result := by
  obtain ⟨vacant, hfold⟩ := fold_mild account hmild
  refine ⟨{ account with vacant }, hfold, ?_⟩
  exact ⟨hnet ▸ h.state, hnet ▸ h.hasPeer, hnet ▸ h.host, h.underWay, fun hpeer => absurd rfl hpeer⟩

/-- Something that is asked of the players and is not about who they are. -/
def Idle (op : Op F32 D) : Prop := ¬ Spoken op ∧ op ≠ .clear

theorem keeps_tell (h : Sound peer account session') {op : Op F32 D} (hop : Idle op) :
    Keeps peer account (tell session' op) := by
  refine ⟨account, ?_, h⟩
  obtain ⟨underWay, before⟩ := account
  obtain ⟨hspoken, hclear⟩ := hop
  cases op <;> first
    | exact absurd trivial hspoken
    | exact absurd rfl hclear
    | (cases underWay <;> rfl)

theorem keeps_close (h : Sound peer account session) (hpeer : peer ≠ .free) :
    let result : Result D := (resetNet session).andThen onDisconnected
    Keeps .free account result ∧ asked peer result.2 = .free := by
  obtain ⟨underWay, before⟩ := account
  have hunderWay : underWay = true := by rw [show underWay = _ from h.underWay, decide_eq_true hpeer]
  have hhas : session.net.peer = true := by rw [h.hasPeer, decide_eq_true hpeer]
  subst hunderWay
  refine ⟨⟨{ underWay := false, vacant := true }, ?_, ?_⟩, ?_⟩
  · simp only [resetNet, NetClientModel.reset, hhas, if_true]
    split <;> rfl
  · exact ⟨rfl, rfl, by simp, rfl, fun _ => ⟨⟨rfl, rfl, rfl, rfl⟩, rfl⟩⟩
  · simp only [resetNet, NetClientModel.reset, hhas, if_true]
    split <;> cases peer <;> rfl

theorem keeps_disconnectNet (h : Sound peer account session) :
    Keeps .free account (disconnectNet session : Result D) ∧
      asked peer (disconnectNet session : Result D).2 = .free := by
  rw [disconnectNet]
  split
  · rename_i hstate
    have hfree : peer = .free := by
      have hpeer := h.state.symm.trans hstate
      cases peer with
      | free => rfl
      | connecting | connected => cases hpeer
    subst hfree
    exact ⟨keeps_nothing h, rfl⟩
  · rename_i hstate
    refine keeps_close h ?_
    rintro rfl
    exact hstate h.state

theorem keeps_dialled (h : Sound .free account session) (manual : Bool) (dial : Dial) (now : Time)
    (host : Bytes) (port : UInt16) :
    let attempt := NetClientModel.connect session.net dial host port
    let result : Result D :=
      ({ session with net := attempt.2.1 }, .dial manual now :: attempt.2.2.map .net)
    Keeps (asked .free result.2) account result := by
  obtain ⟨underWay, before⟩ := account
  have hunderWay : underWay = false := h.underWay
  have hnone : session.net.peer = false := h.hasPeer
  have hcleared := h.cleared (by rintro ⟨⟩)
  have hbefore : before = true := hcleared.2
  subst hunderWay hbefore
  -- the peer is still free, whatever became of the host
  have hfailed : ∀ net : NetClient, net.state = .kDisconnected → net.peer = false →
      Keeps .free { underWay := false, vacant := true }
        (({ session with net }, [.dial manual now]) : Result D) := by
    intro net hstate hpeer
    exact ⟨_, rfl, hstate, hpeer, by simp, rfl, fun _ =>
      ⟨⟨hcleared.1.welcomed, hcleared.1.myId, hcleared.1.serverName, hcleared.1.hasLastSent⟩, rfl⟩⟩
  simp only [NetClientModel.connect, NetClientModel.reset, hnone]
  by_cases hready : session.net.enetReady = true
  swap
  · simp only [hready, Bool.not_false, if_true]
    exact hfailed _ h.state hnone
  simp only [hready, Bool.not_true, Bool.false_eq_true, if_false]
  split
  · exact hfailed _ rfl rfl
  · rename_i hstarted
    refine ⟨{ underWay := true, vacant := true }, rfl, rfl, rfl, fun _ => ?_, rfl, fun _ =>
      ⟨⟨hcleared.1.welcomed, hcleared.1.myId, hcleared.1.serverName, hcleared.1.hasLastSent⟩, rfl⟩⟩
    simp only [Bool.or_eq_true, Bool.not_eq_true', not_or, Bool.not_eq_false] at hstarted
    exact Bool.or_eq_true _ _ ▸ hstarted.1.1

theorem keeps_connect (h : Sound peer account session) (manual : Bool) (dial : Dial) (now : Time) :
    Keeps (asked peer (connect session manual dial now : Result D).2) account
      (connect session manual dial now : Result D) := by
  rw [connect]
  split
  · exact keeps_nothing h
  dsimp only
  split
  · have hsession : Sound peer account
        { session with manualDisconnect := false, lastReconnectAttempt := now } := h.same rfl
    obtain ⟨hclosed, hfree⟩ := keeps_disconnectNet (D := D) hsession
    rw [asked_andThen, hfree]
    exact hclosed.andThen fun account' hsound => keeps_dialled hsound manual dial now _ _
  split
  · exact keeps_nothing h
  · rename_i hstate
    have hfree : peer = .free := by
      have hpeer := h.state.symm.trans (not_not.mp hstate)
      cases peer with
      | free => rfl
      | connecting | connected => cases hpeer
    subst hfree
    exact keeps_dialled h manual dial now _ _

theorem keeps_autoConnect (h : Sound peer account session) (dial : Dial) (now : Time) :
    Keeps (asked peer (autoConnect session dial now : Result D).2) account
      (autoConnect session dial now : Result D) := by
  rw [autoConnect]
  split
  · exact keeps_connect (h.same (by rfl)) false dial now
  · exact keeps_nothing h

section Frames

variable [CppFloat F32]

theorem asked_handleNetEvents (peer : EnetPeer) (session : Session) (events : List (NetEvent D)) :
    asked peer (handleNetEvents session events).2 = peer := by
  induction events generalizing session with
  | nil => rfl
  | cons event events ih =>
      have hevent : asked peer (handleNetEvent session event).2 = peer := by
        cases event with
        | connect playerName => exact asked_mild peer (mild_send _ _ _)
        | receive bytes reading => exact asked_mild peer (handlePacket_spec session bytes reading).2
        | disconnect => cases peer <;> rfl
      rw [handleNetEvents, asked_andThen, hevent]
      exact ih _

theorem keeps_handleNetEvent {after : EnetPeer} (h : Sound peer account session)
    {event : NetEvent D} (hraise : peer.raise event = some after) :
    Keeps after account (handleNetEvent session event) := by
  cases event with
  | connect playerName =>
      cases peer with
      | free | connected => cases hraise
      | connecting =>
          obtain rfl := Option.some.inj hraise
          have hconnected : Sound .connected account
              { session with net := { session.net with state := .kConnected } } :=
            ⟨rfl, h.hasPeer, fun _ => h.host (by rintro ⟨⟩), h.underWay,
              fun hpeer => absurd rfl hpeer⟩
          exact keeps_mild hconnected rfl (mild_send _ _ _)
  | receive bytes reading =>
      cases peer with
      | free | connecting => cases hraise
      | connected =>
          obtain rfl := Option.some.inj hraise
          obtain ⟨hheard, hmild⟩ := handlePacket_spec session bytes reading
          exact keeps_mild h (by rw [handleNetEvent, hheard.rest]) hmild
  | disconnect =>
      have hleft : peer ≠ .free ∧ after = .free := by
        cases peer with
        | free => cases hraise
        | connecting | connected => exact ⟨by rintro ⟨⟩, (Option.some.inj hraise).symm⟩
      obtain ⟨hpeer, rfl⟩ := hleft
      obtain ⟨underWay, before⟩ := account
      have hunderWay : underWay = true := by
        rw [show underWay = _ from h.underWay, decide_eq_true hpeer]
      subst hunderWay
      exact ⟨_, rfl, rfl, rfl, by simp, rfl, fun _ => ⟨⟨rfl, rfl, rfl, rfl⟩, rfl⟩⟩

theorem keeps_handleNetEvents {events : List (NetEvent D)} {after : EnetPeer}
    (h : Sound peer account session) (hraise : events.foldlM EnetPeer.raise peer = some after) :
    Keeps after account (handleNetEvents session events) := by
  induction events generalizing peer account session with
  | nil =>
      obtain rfl := Option.some.inj hraise
      exact keeps_nothing h
  | cons event events ih =>
      rw [List.foldlM_cons] at hraise
      obtain ⟨middle, hfirst, hrest⟩ := Option.bind_eq_some_iff.mp hraise
      rw [handleNetEvents]
      exact (keeps_handleNetEvent h hfirst).andThen fun account' hsound => ih hsound hrest

theorem keeps_pump {events : List (NetEvent D)} {after : EnetPeer} (h : Sound peer account session)
    (hraise : events.foldlM EnetPeer.raise peer = some after) (now : Time) :
    Keeps (asked after (pump session events now).2) account (pump session events now) := by
  rw [pump]
  split
  · rename_i hhost
    -- without a host there is no peer that could raise anything
    have hfree : peer = .free := by
      by_contra hpeer
      rw [h.host hpeer] at hhost
      cases hhost
    subst hfree
    cases events with
    | nil =>
        obtain rfl := Option.some.inj hraise
        exact keeps_nothing h
    | cons event events =>
        rw [List.foldlM_cons] at hraise
        cases hraise
  · rw [asked_andThen, asked_handleNetEvents]
    have hevents := keeps_handleNetEvents h hraise
    refine hevents.andThen fun account' hsound => ?_
    split
    · rename_i htimeout
      have hconnecting : after ≠ .free := by
        rintro rfl
        rw [timedOut, hsound.state] at htimeout
        cases htimeout
      obtain ⟨hclosed, hfree⟩ := keeps_close (D := D) hsound hconnecting
      rw [hfree]
      exact hclosed
    · exact keeps_nothing hsound

/-- What a frame does before it comes to sending a state. -/
def beforeSend (session : Session) (input : TickInput D) : Result D :=
  (pump session input.events input.pumpNow).andThen fun session =>
    if !session.inWorld then (session, [])
    else autoConnect session input.dial input.reconnectNow

theorem tick_eq_beforeSend (session : Session) (input : TickInput D) :
    tick session input = (beforeSend session input).andThen fun session =>
      if session.inWorld then play input session else (session, []) := by
  rw [tick_eq, beforeSend]
  generalize pump session input.events input.pumpNow = pumped
  by_cases hworld : pumped.1.inWorld = true
  · have hstays : (autoConnect pumped.1 input.dial input.reconnectNow : Result D).1.inWorld =
        true := by
      rw [autoConnect]
      split
      · exact (offstage_connect _ false input.dial input.reconnectNow).inWorld.trans hworld
      · exact hworld
    simp [Result.andThen, hworld, hstays]
  · simp [Result.andThen, hworld]

theorem keeps_beforeSend {input : TickInput D} {after : EnetPeer} (h : Sound peer account session)
    (hraise : input.events.foldlM EnetPeer.raise peer = some after) :
    Keeps (asked after (beforeSend session input).2) account (beforeSend session input) := by
  rw [beforeSend, asked_andThen]
  refine (keeps_pump h hraise input.pumpNow).andThen fun account' hsound => ?_
  split
  · exact keeps_nothing hsound
  · exact keeps_autoConnect hsound input.dial input.reconnectNow

theorem keeps_tick {input : TickInput D} {after : EnetPeer} (h : Sound peer account session)
    (hraise : input.events.foldlM EnetPeer.raise peer = some after) :
    Keeps (asked after (tick session input).2) account (tick session input) := by
  rw [tick_eq_beforeSend, asked_andThen]
  refine (keeps_beforeSend h hraise).andThen fun account' hsound => ?_
  generalize asked after (beforeSend session input).2 = peer' at hsound
  split
  swap
  · exact keeps_nothing hsound
  obtain ⟨hplay, hmild⟩ := play_spec (beforeSend session input).1 input
  rw [asked_mild _ hmild]
  cases peer' with
  | connected => exact keeps_mild hsound (by rw [hplay]) hmild
  | free | connecting =>
      rw [play, isConnected, hsound.state]
      exact keeps_nothing hsound

theorem keeps_step {event : Event D} {after : EnetPeer} (h : Sound peer account session)
    (hraise : (netEvents event).foldlM EnetPeer.raise peer = some after) :
    Keeps (asked after (step session event).2) account (step session event) := by
  -- an event that is no frame raises nothing
  have hstill : netEvents event = [] → after = peer := by
    intro hnone
    rw [hnone] at hraise
    exact (Option.some.inj hraise).symm
  have htell : ∀ {session' : Session} {op : Op F32 D}, netEvents event = [] →
      Sound peer account session' → Idle op →
      Keeps (asked after (tell session' op : Result D).2) account (tell session' op) := by
    intro session' op hnone hsound hop
    obtain rfl := hstill hnone
    have hsame : asked after (tell session' op : Result D).2 = after := by
      cases after <;> rfl
    rw [hsame]
    exact keeps_tell hsound hop
  cases event with
  | enterWorld | newGame =>
      refine htell rfl (h.congr (by rfl) fun hcleared => ?_) ⟨fun hspoken => hspoken, by rintro ⟨⟩⟩
      exact ⟨hcleared.welcomed, hcleared.myId, hcleared.serverName, rfl⟩
  | leaveWorld => exact htell rfl (h.same (by rfl)) ⟨fun hspoken => hspoken, by rintro ⟨⟩⟩
  | preSave | setCloneBase | actorDeleted =>
      exact htell rfl h ⟨fun hspoken => hspoken, by rintro ⟨⟩⟩
  | tick input => exact keeps_tick h hraise
  | connect dial now =>
      obtain rfl := hstill rfl
      exact keeps_connect h true dial now
  | disconnect =>
      obtain rfl := hstill rfl
      have hsession : Sound after account { session with manualDisconnect := true } := h.same rfl
      obtain ⟨hclosed, hfree⟩ := keeps_disconnectNet (D := D) hsession
      rw [step, SessionModel.disconnect, if_pos rfl, hfree]
      exact hclosed
  | sendChat text =>
      obtain rfl := hstill rfl
      rw [step, sendChat]
      split
      · exact keeps_nothing h
      · rename_i hconnected
        simp only [isConnected, Bool.or_eq_true, Bool.not_eq_true', not_or, Bool.not_eq_false,
          Bool.and_eq_true, decide_eq_true_eq, h.state] at hconnected
        cases after with
        | free | connecting => cases hconnected.2.1
        | connected =>
            have hmild : ∀ bytes, Mild ((NetClientModel.send session.net .kReliable bytes).map .net :
                List (Action D)) := fun bytes => mild_send _ _ bytes
            rw [requests, asked_mild _ (hmild _)]
            exact keeps_mild h rfl (hmild _)
  | setServer hostPort =>
      obtain rfl := hstill rfl
      refine keeps_nothing (h.same ?_)
      rw [setServer]
      repeat' split
      all_goals rfl
  | setPlayerName name =>
      obtain rfl := hstill rfl
      exact keeps_nothing (h.same rfl)
  | setCloneOption option on =>
      rw [step, setCloneOption]
      repeat' (split; · exact htell rfl h ⟨fun hspoken => hspoken, by rintro ⟨⟩⟩)
      obtain rfl := hstill rfl
      exact keeps_nothing h

end Frames

end Parts

section Players

/-- Nobody is known, and nothing of the server's time. -/
structure Unknown (scene : Scene F32 D) : Prop where
  players : scene.remotes.players = ∅
  hasOffset : scene.remotes.hasOffset = false
  started : scene.remotes.serverClock.started = false

theorem Unknown.reorder {scene : Scene F32 D} (h : Unknown scene) (order : PlayerOrder F32) :
    Unknown (scene.reorder order) where
  players := by
    have hperm : (arrange order scene.remotes.players).entries.Perm [] := by
      have hentries := arrange_perm order scene.remotes.players
      rwa [h.players] at hentries ⊢
    exact AList.ext hperm.eq_nil
  hasOffset := h.hasOffset
  started := h.started

variable [CppFloat F32] [CppFloat D] [Libm F32] [Narrow D F32] [Widen F32 D]

theorem Unknown.perform {scene : Scene F32 D} (h : Unknown scene) {op : Op F32 D}
    (hop : ¬ Spoken op) : Unknown (scene.perform op) := by
  obtain ⟨⟨players, _, _, _, _, _, _, _, hasOffset, _, clock⟩, engine⟩ := scene
  obtain ⟨hplayers, hasOffset, hstarted⟩ := h
  dsimp only at hplayers
  subst hplayers
  -- without players there is nobody to do anything to
  cases op with
  | setInterpDelay | setDrive | setMove | actorDeleted | setCloneBase | setPacify | setGhost
  | setDuplicate | respawn | despawnAll | forgetActors => exact ⟨rfl, hasOffset, hstarted⟩
  | clear => exact ⟨rfl, rfl, rfl⟩
  | update input =>
      rw [Scene.perform, update]
      cases input.localSpace <;> exact ⟨rfl, hasOffset, hstarted⟩
  | add | rename | remove | applyState => exact absurd trivial hop

theorem unknown_clear (scene : Scene F32 D) : Unknown (scene.perform .clear) := ⟨rfl, rfl, rfl⟩

theorem Unknown.remove {scene : Scene F32 D} (h : Unknown scene) (id : PlayerId) :
    Unknown (scene.perform (.remove id)) := by
  have hfind : scene.find id = none := by
    rw [Scene.find, h.players]
    rfl
  rw [Scene.perform, RemotePlayersModel.remove, hfind]
  exact h

theorem unknown_run {scene : Scene F32 D} {actions : List (Action D)} {account account' : Account}
    (hfold : actions.foldlM Account.act account = some account')
    (hscene : account.vacant = true → Unknown scene) (orders : Nat → PlayerOrder F32) :
    account'.vacant = true →
      Unknown (run Scene.step scene (ordered orders (remoteOps actions))) := by
  induction actions using List.reverseRecOn generalizing account' with
  | nil =>
      obtain rfl := Option.some.inj hfold
      exact hscene
  | append_singleton actions action ih =>
      rw [List.foldlM_append] at hfold
      obtain ⟨middle, hbefore, hlast⟩ := Option.bind_eq_some_iff.mp hfold
      have hmiddle := ih hbefore
      have hact : middle.act action = some account' := by simpa using hlast
      obtain ⟨underWay, -, rfl⟩ := Option.map_eq_some_iff.mp hact
      cases action with
      | dial | net =>
          rw [remoteOps_concat, List.append_nil]
          exact hmiddle
      | remotes op =>
          rw [remoteOps_concat, ordered_append_one, run_concat]
          intro hvacant
          cases op with
          | clear => exact unknown_clear _
          | add | rename | applyState => cases hvacant
          | remove id => exact (hmiddle hvacant |>.reorder _).remove id
          | _ => exact (hmiddle hvacant |>.reorder _).perform fun hspoken => hspoken

end Players

theorem bracket_of_account {actions : List (Action D)} {account account' : Account}
    (h : actions.foldlM Account.act account = some account') :
    actions.foldlM bracket account.underWay = some account'.underWay := by
  induction actions generalizing account with
  | nil =>
      obtain rfl := Option.some.inj h
      rfl
  | cons action actions ih =>
      rw [List.foldlM_cons] at h ⊢
      obtain ⟨middle, hfirst, hrest⟩ := Option.bind_eq_some_iff.mp h
      obtain ⟨underWay, hbracket, rfl⟩ := Option.map_eq_some_iff.mp hfirst
      rw [hbracket]
      exact ih hrest

section Runs

variable [CppFloat F32] [CppFloat D] [Libm F32] [Narrow D F32] [Widen F32 D]

/-- A client, what ENet has for it (`none` once an event came that ENet promised not to
raise), and all it did. -/
structure Watched (D : Type) where
  client : Client D
  enet : Option EnetPeer
  history : List (Action D)

def Watched.step (watched : Watched D) (input : Input D) : Watched D :=
  let actions := (SessionModel.step watched.client.session input.event).2
  { client := watched.client.step input
    enet := watched.enet.bind fun peer =>
      ((netEvents input.event).foldlM EnetPeer.raise peer).map (asked · actions)
    history := watched.history ++ actions }

/-- A run of a client that was just started. -/
def Watched.after (config : Config) (gameVersion : UInt32) (enetReady : Bool)
    (inputs : List (Input D)) : Watched D :=
  run Watched.step ⟨.initial config gameVersion enetReady, some .free, []⟩ inputs

theorem Watched.client_after (config : Config) (gameVersion : UInt32) (enetReady : Bool)
    (inputs : List (Input D)) : (Watched.after config gameVersion enetReady inputs).client =
      Client.after config gameVersion enetReady inputs := by
  induction inputs using List.reverseRecOn with
  | nil => rfl
  | append_singleton inputs input ih =>
      rw [Watched.after, run_concat, Client.after, run_concat]
      exact congrArg (Client.step · input) ih

theorem Watched.raised {watched : Watched D} {input : Input D} {peer : EnetPeer}
    (henet : (watched.step input).enet = some peer) :
    ∃ before after, watched.enet = some before ∧
      (netEvents input.event).foldlM EnetPeer.raise before = some after ∧
      asked after (SessionModel.step watched.client.session input.event).2 = peer := by
  obtain ⟨before, hbefore, hmap⟩ := Option.bind_eq_some_iff.mp henet
  obtain ⟨after, hraise, hpeer⟩ := Option.map_eq_some_iff.mp hmap
  exact ⟨before, after, hbefore, hraise, hpeer⟩

/-- The account of all that was done is sound, and nobody is known while it says so. -/
theorem sound_after {config : Config} {gameVersion : UInt32} {enetReady : Bool}
    {inputs : List (Input D)} {peer : EnetPeer}
    (henet : (Watched.after config gameVersion enetReady inputs).enet = some peer) :
    let watched := Watched.after config gameVersion enetReady inputs
    ∃ account, watched.history.foldlM Account.act {} = some account ∧
      Sound peer account watched.client.session ∧
      (account.vacant = true → Unknown watched.client.scene) := by
  induction inputs using List.reverseRecOn generalizing peer with
  | nil =>
      obtain rfl := Option.some.inj henet
      refine ⟨{}, rfl, ⟨rfl, rfl, by simp, rfl, fun _ => ⟨⟨rfl, rfl, rfl, rfl⟩, rfl⟩⟩, fun _ => ?_⟩
      exact ⟨rfl, rfl, rfl⟩
  | append_singleton inputs input ih =>
      rw [Watched.after, run_concat, ← Watched.after] at henet ⊢
      generalize Watched.after config gameVersion enetReady inputs = watched at henet ih ⊢
      obtain ⟨before, after, hbefore, hraise, rfl⟩ := Watched.raised henet
      obtain ⟨account, hfold, hsound, hknown⟩ := ih hbefore
      obtain ⟨account', hfold', hsound'⟩ := keeps_step hsound hraise
      refine ⟨account', ?_, hsound', unknown_run hfold' hknown input.orders⟩
      rw [Watched.step, List.foldlM_append, hfold]
      exact hfold'

theorem sound_before {config : Config} {gameVersion : UInt32} {enetReady : Bool}
    {inputs : List (Input D)} {input : Input D}
    (henet : (Watched.after config gameVersion enetReady (inputs ++ [input])).enet ≠ none) :
    ∃ before after account, (Watched.after config gameVersion enetReady inputs).enet = some before ∧
      Sound before account (Watched.after config gameVersion enetReady inputs).client.session ∧
      (netEvents input.event).foldlM EnetPeer.raise before = some after := by
  obtain ⟨peer, hpeer⟩ := Option.ne_none_iff_exists'.mp henet
  rw [Watched.after, run_concat] at hpeer
  obtain ⟨before, after, hbefore, hraise, -⟩ := Watched.raised hpeer
  obtain ⟨account, -, hsound, -⟩ := sound_after hbefore
  exact ⟨before, after, account, hbefore, hsound, hraise⟩

/-- While ENet keeps its promises: there is a peer exactly when the client is not
disconnected; a client that is not connected has neither welcome nor id, server name,
sent state, players and server time; and every attempt that reached ENet is closed by
one `onDisconnected` before the next, the last one only if the client is disconnected. -/
theorem connection_scoped (config : Config) (gameVersion : UInt32) (enetReady : Bool)
    (inputs : List (Input D))
    (henet : (Watched.after config gameVersion enetReady inputs).enet ≠ none) :
    let watched := Watched.after config gameVersion enetReady inputs
    let session := watched.client.session
    let remotes := watched.client.scene.remotes
    (session.net.peer = true ↔ session.net.state ≠ .kDisconnected) ∧
    (session.net.state ≠ .kConnected →
      session.welcomed = false ∧ session.myId = invalidPlayerId ∧ session.serverName = [] ∧
      session.sender.hasLastSent = false ∧ remotes.players = ∅ ∧ remotes.hasOffset = false ∧
      remotes.serverClock.started = false) ∧
    watched.history.foldlM bracket false = some (decide (session.net.state ≠ .kDisconnected)) := by
  intro watched session remotes
  obtain ⟨peer, hpeer⟩ := Option.ne_none_iff_exists'.mp henet
  obtain ⟨account, hfold, hsound, hknown⟩ := sound_after hpeer
  have hstate : session.net.state = .kDisconnected ↔ peer = .free := by
    rw [show session.net.state = peer.state from hsound.state]
    cases peer <;> simp [EnetPeer.state]
  refine ⟨?_, fun hnot => ?_, ?_⟩
  · rw [show session.net.peer = _ from hsound.hasPeer, decide_eq_true_iff, not_iff_not]
    exact hstate.symm
  · have hpeer' : peer ≠ .connected := by
      rintro rfl
      exact hnot hsound.state
    obtain ⟨hcleared, hvacant⟩ := hsound.cleared hpeer'
    have hunknown := hknown hvacant
    exact ⟨hcleared.welcomed, hcleared.myId, hcleared.serverName, hcleared.hasLastSent,
      hunknown.players, hunknown.hasOffset, hunknown.started⟩
  · rw [bracket_of_account hfold, show account.underWay = _ from hsound.underWay]
    simp only [ne_eq, hstate]

end Runs

section Example

open F4MP.Native

/-- A frame in which ENet raises some events. -/
def frame (events : List (NetEvent F64)) (now : Time) : TickInput F64 where
  events := events
  pumpNow := now
  reconnectNow := now
  dial := { now }
  sample := none
  sendNow := now
  playerName := ascii "Ada"
  nameNow := now
  update := ⟨none, now, CppFloat.ofRat 0, fun _ => {}⟩

/-- A client enters a world, connects, is welcomed and leaves again. -/
def visit : List (Input F64) :=
  [.enterWorld, .connect { now := 20000000000 } 20000000000,
    .tick (frame [.connect (ascii "Ada")] 20100000000),
    .tick (frame [.receive (encode { id := 1, serverName := [], motd := [] : WelcomeMsg }) ⟨20200000000, CppFloat.ofRat 0, none⟩]
      20200000000),
    .disconnect].map fun event => ⟨event, fun _ => .keep _⟩

/-- The connection of that client is closed. -/
theorem connection_scoped_visit :
    let watched := Watched.after {} 0 true visit
    watched.history.foldlM bracket false = some false ∧ watched.client.session.myId =
      invalidPlayerId := by
  have hscoped := connection_scoped {} 0 true visit (by decide +kernel)
  have hstate : (Watched.after {} 0 true visit).client.session.net.state = .kDisconnected := by
    decide +kernel
  refine ⟨hscoped.2.2.trans (by rw [hstate]; rfl), (hscoped.2.1 ?_).2.1⟩
  rw [hstate]
  rintro ⟨⟩

end Example

end F4MP.Connection
