import F4MP.NetClientModel
import F4MP.RemotePlayersModel
import F4MP.ServerConsole

/-!
The session of a client: it ties the connection to the game.  Each of its functions
returns the new session with what it asks of ENet and of the remote players, in
order.  What is read of the clock and of the engine comes in from outside; printing
and the prologue skip are left out.
-/

namespace F4MP.SessionModel

open F4MP.Types
open F4MP.Packet
open F4MP.Protocol
open F4MP.Arith
open F4MP.GameUtil
open F4MP.ServerModel
open F4MP.ServerConsole
open F4MP.NetClientModel
open F4MP.RemotePlayersModel

def reconnectInterval : Time := 10000000000
def heartbeatInterval : Time := 1000000000
def nameCheckInterval : Time := 2000000000

/-- What was sent of the local player last. -/
structure StateSender (F : Type) where
  lastSend : Time := 0
  lastSent : PlayerState F
  hasLastSent : Bool := false
deriving DecidableEq

section Sending

variable {F : Type} [CppFloat F]

def fabs (f : F) : F := if f < CppFloat.ofRat 0 then CppFloat.ofRat 0 - f else f

def moveEpsilon : F := CppFloat.ofRat (1 / 2)
def yawEpsilon : F := CppFloat.ofRat (5 / 1000)
def healthEpsilon : F := CppFloat.ofRat (1 / 2)

def changed (a b : PlayerState F) : Bool :=
  let dx := a.position.x - b.position.x
  let dy := a.position.y - b.position.y
  let dz := a.position.z - b.position.z
  if moveEpsilon * moveEpsilon < dx * dx + dy * dy + dz * dz then true
  else
    yawEpsilon < fabs (a.yaw - b.yaw) ||
      a.worldspaceId ≠ b.worldspaceId ||
      a.cellId ≠ b.cellId ||
      a.flags ≠ b.flags ||
      healthEpsilon < fabs (a.health - b.health)

/-- The least time between two states. -/
def sendInterval (sendRate : UInt32) : Time := (1000 / max 1 sendRate).toNat * 1000000

/-- Whether `SendState` sends a state. -/
def StateSender.due (sender : StateSender F) (sendRate : UInt32) (force : Bool)
    (state : PlayerState F) (now : Time) : Bool :=
  if !force && now - sender.lastSend < sendInterval sendRate then false
  else
    let heartbeat := now - sender.lastSend ≥ heartbeatInterval
    force || heartbeat || !sender.hasLastSent || changed state sender.lastSent

end Sending

structure Config where
  host : Bytes := ascii "127.0.0.1"
  port : UInt16 := 27015
  autoConnect : Bool := true
  sendRate : UInt32 := 20
  /-- `100.0f`. -/
  interpDelayMs : F32 := ⟨0x42C80000⟩
  playerName : Bytes := []
  cloneBase : Form := 7
deriving DecidableEq

structure Session where
  config : Config
  /-- `GetRuntimeVersion()`, packed. -/
  gameVersion : UInt32 := 0
  net : NetClient
  myId : PlayerId := invalidPlayerId
  serverName : Bytes := []
  sentName : Bytes := []
  lastNameCheck : Time := 0
  inWorld : Bool := false
  welcomed : Bool := false
  manualDisconnect : Bool := false
  sender : StateSender F32 := { lastSent := .initial F32 }
  lastReconnectAttempt : Time := 0
deriving DecidableEq

/-- What a session makes others do.  `dial` is a call of `NetClient::Connect`, by whom
and when; what it asks of ENet follows. -/
inductive Action (D : Type) where
  | dial (manual : Bool) (now : Time)
  | net (request : Request)
  | remotes (op : Op F32 D)

/-- What the client reads while it handles a packet. -/
structure Reading (D : Type) where
  now : Time
  localMs : D
  sample : Option (PlayerState F32)

/-- An ENet event, with what is read while it is handled. -/
inductive NetEvent (D : Type) where
  | connect (playerName : Bytes)
  | receive (bytes : Bytes) (reading : Reading D)
  | disconnect

/-- What one frame reads of the clock, of ENet and of the engine. -/
structure TickInput (D : Type) where
  events : List (NetEvent D)
  pumpNow : Time
  reconnectNow : Time
  dial : Dial
  sample : Option (PlayerState F32)
  sendNow : Time
  playerName : Bytes
  nameNow : Time
  update : UpdateInput D

variable {D : Type}

abbrev Result (D : Type) := Session × List (Action D)

def Result.andThen (result : Result D) (next : Session → Result D) : Result D :=
  ((next result.1).1, result.2 ++ (next result.1).2)

def requests (session : Session) (requests : List Request) : Result D :=
  (session, requests.map .net)

def tell (session : Session) (op : Op F32 D) : Result D := (session, [.remotes op])

def isConnected (session : Session) : Bool := session.net.state = .kConnected && session.welcomed

/-- The name in the configuration, or the character's. -/
def ownName (session : Session) (playerName : Bytes) : Bytes :=
  if session.config.playerName.isEmpty then playerName else session.config.playerName

section Frames

variable [CppFloat F32]

def syncName (session : Session) (playerName : Bytes) (now : Time) : Result D :=
  if now - session.lastNameCheck < nameCheckInterval then (session, [])
  else
    let session := { session with lastNameCheck := now }
    let name := ownName session playerName
    if name = session.sentName then (session, [])
    else
      let session := { session with sentName := name }
      requests session (send session.net .kReliable (encode { name : SetNameMsg }))

def sendState (session : Session) (force : Bool) (sample : Option (PlayerState F32))
    (now : Time) : Result D :=
  match sample with
  | none => (session, [])
  | some state =>
      if session.sender.due session.config.sendRate force state now then
        requests
          { session with sender := { lastSend := now, lastSent := state, hasLastSent := true } }
          (send session.net .kUnreliable (encode { state : PlayerStateMsg }))
      else (session, [])

/-- A read message, handled unless the packet was malformed. -/
def handleMsg {T : Type} [WireMessage T] (session : Session) (r : Reader)
    (handler : T → Result D) : Result D :=
  let (msg, r) := (WireMessage.read : Read T) r
  if r.ok then handler msg else (session, [])

def handleWelcome (session : Session) (reading : Reading D) (msg : WelcomeMsg) : Result D :=
  sendState { session with myId := msg.id, serverName := msg.serverName, welcomed := true }
    true reading.sample reading.now

def tellOfOther (session : Session) (id : PlayerId) (op : Op F32 D) : Result D :=
  if id ≠ session.myId then tell session op else (session, [])

/-- A rejection and chat are only printed. -/
def handlePacket (session : Session) (bytes : Bytes) (reading : Reading D) : Result D :=
  let (id, r) := readHeader { data := bytes }
  if !r.ok then (session, [])
  else
    match id with
    | .kWelcome => handleMsg session r (handleWelcome session reading)
    | .kPlayerJoined =>
        handleMsg session r fun msg : PlayerJoinedMsg =>
          tellOfOther session msg.id (.add msg.id msg.name)
    | .kPlayerLeft =>
        handleMsg session r fun msg : PlayerLeftMsg => tell session (.remove msg.id)
    | .kPlayerRenamed =>
        handleMsg session r fun msg : PlayerRenamedMsg =>
          tellOfOther session msg.id (.rename msg.id msg.name)
    | .kPlayerStateUpdate =>
        handleMsg session r fun msg : PlayerStateUpdateMsg =>
          tellOfOther session msg.id (.applyState msg.id msg.state msg.timeMs reading.localMs)
    | _ => (session, [])

def onConnected (session : Session) (playerName : Bytes) : Result D :=
  let name := ownName session playerName
  let session := { session with sentName := name }
  requests session
    (send session.net .kReliable (encode { gameVersion := session.gameVersion, name : HelloMsg }))

def onDisconnected (session : Session) : Result D :=
  tell
    { session with
      welcomed := false
      myId := invalidPlayerId
      serverName := []
      sender := { session.sender with hasLastSent := false } }
    .clear

/-- `NetClient::Reset`. -/
def resetNet (session : Session) : Result D :=
  let (net, asked) := reset session.net
  requests { session with net } asked

/-- `NetClient::Disconnect`. -/
def disconnectNet (session : Session) : Result D :=
  if session.net.state = .kDisconnected then (session, [])
  else (resetNet session).andThen onDisconnected

def handleNetEvent (session : Session) : NetEvent D → Result D
  | .connect playerName =>
      onConnected { session with net := { session.net with state := .kConnected } } playerName
  | .receive bytes reading => handlePacket session bytes reading
  | .disconnect =>
      onDisconnected
        { session with net := { session.net with peer := false, state := .kDisconnected } }

def handleNetEvents (session : Session) : List (NetEvent D) → Result D
  | [] => (session, [])
  | event :: events =>
      (handleNetEvent session event).andThen fun session => handleNetEvents session events

def pump (session : Session) (events : List (NetEvent D)) (now : Time) : Result D :=
  if !session.net.host then (session, [])
  else
    (handleNetEvents session events).andThen fun session =>
      if timedOut session.net now then (resetNet session).andThen onDisconnected
      else (session, [])

/-- `manual` if it was asked for in the console. -/
def connect (session : Session) (manual : Bool) (dial : Dial) (now : Time) : Result D :=
  if !session.inWorld then (session, [])
  else
    let dialled := fun session : Session =>
      let (_, net, asked) := NetClientModel.connect session.net dial session.config.host
        session.config.port
      ({ session with net }, .dial manual now :: asked.map .net)
    if manual then
      let session := { session with manualDisconnect := false, lastReconnectAttempt := now }
      (disconnectNet session).andThen dialled
    else if session.net.state ≠ .kDisconnected then (session, [])
    else dialled session

def disconnect (session : Session) (manual : Bool) : Result D :=
  disconnectNet (if manual then { session with manualDisconnect := true } else session)

/-- An attempt to connect when none was made for a while. -/
def autoConnect (session : Session) (dial : Dial) (now : Time) : Result D :=
  if session.net.state = .kDisconnected && session.config.autoConnect &&
      !session.manualDisconnect && now - session.lastReconnectAttempt ≥ reconnectInterval then
    connect { session with lastReconnectAttempt := now } false dial now
  else (session, [])

def tick (session : Session) (input : TickInput D) : Result D :=
  (pump session input.events input.pumpNow).andThen fun session =>
    if !session.inWorld then (session, [])
    else
      (autoConnect session input.dial input.reconnectNow).andThen fun session =>
        if isConnected session then
          ((sendState session false input.sample input.sendNow).andThen fun session =>
            syncName session input.playerName input.nameNow).andThen fun session =>
              tell session (.update input.update)
        else (session, [])

end Frames

/-- `Init`: the session, and what it sets up. -/
def init (config : Config) (gameVersion : UInt32) (enetReady : Bool) : Result D :=
  ({ config, gameVersion, net := { enetReady } },
    [.remotes (.setInterpDelay config.interpDelayMs), .remotes (.setCloneBase config.cloneBase)])

def onEnterWorld (session : Session) : Result D :=
  tell
    { session with
      inWorld := true
      sender := { session.sender with hasLastSent := false }
      manualDisconnect := false
      lastReconnectAttempt := 0 }
    .forgetActors

def onLeaveWorld (session : Session) : Result D :=
  tell { session with inWorld := false } .forgetActors

def onPreSave (session : Session) : Result D := tell session .despawnAll

def sendChat (session : Session) (text : Bytes) : Result D :=
  if text.isEmpty || !isConnected session then (session, [])
  else
    let text := if text.length > maxChatBytes then text.take maxChatBytes else text
    requests session (send session.net .kReliable (encode { text : ChatMsg }))

/-- `std::from_chars` of a whole text into an `unsigned int`. -/
def fromChars (text : Bytes) : Option Nat :=
  if text.isEmpty || !text.all isDigit || digitsValue text ≥ 2 ^ 32 then none
  else some (digitsValue text)

/-- `std::string::rfind` of a character. -/
def rfind (c : UInt8) (text : Bytes) : Option Nat :=
  (text.reverse.idxOf? c).map fun fromEnd => text.length - 1 - fromEnd

/-- Host and port of `host:port`.  More than one colon is an IPv6 literal without a
port; nothing for a bad port. -/
def splitHostPort (hostPort : Bytes) (port : UInt16) : Option (Bytes × UInt16) :=
  match rfind 0x3A hostPort with
  | none => some (hostPort, port)
  | some colon =>
      if hostPort.idxOf? 0x3A = some colon then
        match fromChars (hostPort.drop (colon + 1)) with
        | none => none
        | some value =>
            if value = 0 ∨ value > 65535 then none
            else some (hostPort.take colon, UInt16.ofNat value)
      else some (hostPort, port)

/-- `false` if the address is bad. -/
def setServer (session : Session) (hostPort : Bytes) : Bool × Session :=
  match splitHostPort hostPort session.config.port with
  | none => (false, session)
  | some (host, port) =>
      if host.isEmpty then (false, session)
      else (true, { session with config := { session.config with host, port } })

def setPlayerName (session : Session) (name : Bytes) : Session :=
  { session with
    config := { session.config with playerName := sanitizeName name }
    lastNameCheck := 0 }

def setCloneBase (session : Session) (form : Form) : Result D := tell session (.setCloneBase form)

/-- `none` for an option there is not. -/
def setCloneOption (session : Session) (option : Bytes) (on : Bool) : Option (Result D) :=
  if option = ascii "sync" then some (tell session (.setDrive on))
  else if option = ascii "pacify" then some (tell session (.setPacify on))
  else if option = ascii "ghost" then some (tell session (.setGhost on))
  else if option = ascii "duplicate" then some (tell session (.setDuplicate on))
  else if option = ascii "move" then some (tell session (.setMove on))
  else if option = ascii "respawn" then some (tell session .respawn)
  else none

/-- What can happen to a client.  `connect` and `disconnect` are the console commands;
the engine may delete a clone between two frames. -/
inductive Event (D : Type) where
  | enterWorld
  | newGame
  | leaveWorld
  | preSave
  | tick (input : TickInput D)
  | connect (dial : Dial) (now : Time)
  | disconnect
  | sendChat (text : Bytes)
  | setServer (hostPort : Bytes)
  | setPlayerName (name : Bytes)
  | setCloneBase (form : Form)
  | setCloneOption (option : Bytes) (on : Bool)
  | actorDeleted (ref : Ref)

def step [CppFloat F32] (session : Session) : Event D → Result D
  | .enterWorld | .newGame => onEnterWorld session
  | .leaveWorld => onLeaveWorld session
  | .preSave => onPreSave session
  | .tick input => tick session input
  | .connect dial now => connect session true dial now
  | .disconnect => disconnect session true
  | .sendChat text => sendChat session text
  | .setServer hostPort => ((setServer session hostPort).2, [])
  | .setPlayerName name => (setPlayerName session name, [])
  | .setCloneBase form => setCloneBase session form
  | .setCloneOption option on => (setCloneOption session option on).getD (session, [])
  | .actorDeleted ref => tell session (.actorDeleted ref)

end F4MP.SessionModel
