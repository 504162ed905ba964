import F4MP.Arith
import F4MP.Library.HashTable
import F4MP.Library.Runs
import F4MP.Messages

/-!
The dedicated server as a function of its inputs: the records it keeps, the
handlers of the ENet events, the bots and the console.  A handler returns the new
state and the calls it makes on ENet, in order.  Logging is left out.
-/

namespace F4MP.ServerModel

open F4MP.Types
open F4MP.Packet
open F4MP.Protocol
open F4MP.Arith
open F4MP.Library.HashTable

/-- A `steady_clock` time point or duration, in nanoseconds. -/
abbrev Time := Nat

/-- An `ENetPeer*`: the key of a connection. -/
abbrev Peer := Nat

def chatWindow : Time := 5000000000
def chatBurst : UInt32 := 6
def botUpdateInterval : Time := 50000000

/-- The record of one connection.  Its peer is the key it is stored under. -/
structure Player where
  id : PlayerId := invalidPlayerId
  name : Bytes := []
  state : PlayerState F32 := .initial F32
  handshaked : Bool := false
  hasState : Bool := false
  gameVersion : UInt32 := 0
  joinedAt : Time := 0
  chatWindowStart : Time := 0
  chatWindowCount : UInt32 := 0
deriving DecidableEq

inductive BotMode where
  | kMirror
  | kOrbit
deriving DecidableEq

structure Bot where
  id : PlayerId := invalidPlayerId
  name : Bytes := []
  mode : BotMode := .kMirror
  follow : PlayerId := invalidPlayerId
  hasState : Bool := false
  state : PlayerState F32 := .initial F32
  phase : F32 := 0
deriving DecidableEq

structure Config where
  name : Bytes := ascii "F4MP Server"
  motd : Bytes := ascii "Welcome to the Commonwealth."
  port : UInt16 := 27015
  maxPlayers : UInt32 := 16
  tickRate : UInt32 := 30
deriving DecidableEq

structure Server where
  config : Config
  players : UnorderedMap Peer Player := ∅
  bots : List Bot := []
  lastBotUpdate : Time := 0
  startTime : Time := 0
  nextId : PlayerId := 1

/-- What the server asks ENet to do. -/
inductive Out where
  | send (peer : Peer) (channel : Channel) (bytes : Bytes)
  | disconnectLater (peer : Peer)
deriving DecidableEq

def finite (v : Vec3 F32) : Bool := v.x.isFinite && v.y.isFinite && v.z.isFinite

/-- Rejects states a real client can never produce. -/
def isPlausible (s : PlayerState F32) : Bool :=
  finite s.position && s.yaw.isFinite && s.health.isFinite && s.maxHealth.isFinite

def send (peer : Peer) (channel : Channel) (bytes : Bytes) : List Out :=
  [.send peer channel bytes]

def broadcast (s : Server) (channel : Channel) (bytes : Bytes) (except : Option Peer) :
    List Out :=
  s.players.entries.filterMap fun entry =>
    if !entry.2.handshaked || some entry.1 = except then none
    else some (.send entry.1 channel bytes)

def serverChat (s : Server) (text : Bytes) : List Out :=
  broadcast s .kReliable (encode { text : ChatBroadcastMsg }) none

def kick (peer : Peer) (reason : Bytes) : List Out :=
  send peer .kReliable (encode { reason : RejectMsg }) ++ [.disconnectLater peer]

/-- `FindPlayer(PlayerId)`: the first handshaked player with the id. -/
def findPlayer (s : Server) (id : PlayerId) : Option (Sigma fun _ : Peer => Player) :=
  s.players.entries.find? fun entry => entry.2.handshaked && entry.2.id == id

def firstPlayerWithState (s : Server) : Option (Sigma fun _ : Peer => Player) :=
  s.players.entries.foldl
    (fun best entry =>
      if entry.2.handshaked && entry.2.hasState &&
          (match best with
            | none => true
            | some other => entry.2.id < other.2.id) then
        some entry
      else best)
    none

/-- Milliseconds since the server started, as the wire carries them. -/
def nowMs (s : Server) (now : Time) : UInt32 :=
  UInt32.ofNat ((now - s.startTime) / 1000000)

/-- What a newcomer is told about one player or bot that is already here. -/
def announce (peer : Peer) (stamp : UInt32) (id : PlayerId) (name : Bytes) (hasState : Bool)
    (state : PlayerState F32) : List Out :=
  send peer .kReliable (encode { id, name : PlayerJoinedMsg }) ++
    if hasState then
      send peer .kReliable (encode { id, timeMs := stamp, state : PlayerStateUpdateMsg })
    else []

def catchUp (s : Server) (now : Time) (peer : Peer) : List Out :=
  (s.players.entries.flatMap fun entry =>
    if !entry.2.handshaked || entry.1 = peer then []
    else
      announce peer (nowMs s now) entry.2.id entry.2.name entry.2.hasState entry.2.state) ++
    s.bots.flatMap fun bot =>
      announce peer (nowMs s now) bot.id bot.name bot.hasState bot.state

def protocolMismatch (version : UInt32) : Bytes :=
  ascii "Protocol mismatch (server v" ++ ascii (toString currentProtocolVersion) ++
    ascii ", client v" ++ ascii (toString version) ++ ascii ")"

def setPlayer (s : Server) (peer : Peer) (player : Player) : Server :=
  { s with players := modify peer (fun _ => player) s.players }

/-- The record of a player whose `Hello` was accepted. -/
def welcomedPlayer (s : Server) (player : Player) (hello : HelloMsg) : Player :=
  { player with
    id := s.nextId
    name := sanitizeName hello.name
    gameVersion := hello.gameVersion
    handshaked := true }

def welcomeMsg (s : Server) (player : Player) : WelcomeMsg :=
  { id := player.id
    tickRate := (min s.config.tickRate 255).toUInt8
    serverName := s.config.name
    motd := s.config.motd }

/-- The messages that complete a handshake, to the newcomer first. -/
def greet (s : Server) (now : Time) (peer : Peer) (player : Player) : List Out :=
  send peer .kReliable (encode (welcomeMsg s player)) ++
    catchUp s now peer ++
    broadcast s .kReliable (encode { id := player.id, name := player.name : PlayerJoinedMsg })
      (some peer) ++
    serverChat s (player.name ++ ascii " joined the game")

/-- A `Hello` that was read. -/
def acceptHello (s : Server) (now : Time) (peer : Peer) (player : Player) (hello : HelloMsg) :
    Server × List Out :=
  if hello.protocolVersion ≠ currentProtocolVersion then
    (s, kick peer (protocolMismatch hello.protocolVersion))
  else if player.handshaked then
    (s, [])
  else
    let player := welcomedPlayer s player hello
    let s := setPlayer { s with nextId := s.nextId + 1 } peer player
    (s, greet s now peer player)

def handleHello (s : Server) (now : Time) (peer : Peer) (player : Player) (r : Reader) :
    Server × List Out :=
  let (hello, r) := (WireMessage.read : Read HelloMsg) r
  if !r.ok then (s, kick peer (ascii "Malformed hello"))
  else acceptHello s now peer player hello

def acceptState (s : Server) (now : Time) (peer : Peer) (player : Player)
    (state : PlayerState F32) : Server × List Out :=
  let s := setPlayer s peer { player with state, hasState := true }
  (s, broadcast s .kUnreliable
    (encode { id := player.id, timeMs := nowMs s now, state : PlayerStateUpdateMsg })
    (some peer))

def handlePlayerState (s : Server) (now : Time) (peer : Peer) (player : Player) (r : Reader) :
    Server × List Out :=
  let (msg, r) := (WireMessage.read : Read PlayerStateMsg) r
  if !r.ok || !isPlausible msg.state then (s, [])
  else acceptState s now peer player msg.state

/-- The flood window of a player at the time of a chat message. -/
def rollChatWindow (player : Player) (now : Time) : Player :=
  let player :=
    if now - player.chatWindowStart ≥ chatWindow then
      { player with chatWindowStart := now, chatWindowCount := 0 }
    else player
  { player with chatWindowCount := player.chatWindowCount + 1 }

@[simp] theorem rollChatWindow_id (player : Player) (now : Time) :
    (rollChatWindow player now).id = player.id := by
  unfold rollChatWindow
  split <;> rfl

@[simp] theorem rollChatWindow_name (player : Player) (now : Time) :
    (rollChatWindow player now).name = player.name := by
  unfold rollChatWindow
  split <;> rfl

@[simp] theorem rollChatWindow_handshaked (player : Player) (now : Time) :
    (rollChatWindow player now).handshaked = player.handshaked := by
  unfold rollChatWindow
  split <;> rfl

@[simp] theorem rollChatWindow_state (player : Player) (now : Time) :
    (rollChatWindow player now).state = player.state := by
  unfold rollChatWindow
  split <;> rfl

@[simp] theorem rollChatWindow_hasState (player : Player) (now : Time) :
    (rollChatWindow player now).hasState = player.hasState := by
  unfold rollChatWindow
  split <;> rfl

def cleanChat (text : Bytes) : Bytes :=
  let text := if text.length > maxChatBytes then text.take maxChatBytes else text
  text.filter fun c => !(c < 0x20 || c == 0x7F)

/-- A chat message that was read and is not empty. -/
def acceptChat (s : Server) (now : Time) (peer : Peer) (player : Player) (text : Bytes) :
    Server × List Out :=
  let player := rollChatWindow player now
  let s := setPlayer s peer player
  if player.chatWindowCount > chatBurst then
    (s, if player.chatWindowCount = chatBurst + 1 then
          send peer .kReliable (encode { text := ascii "Slow down." : ChatBroadcastMsg })
        else [])
  else
    let text := cleanChat text
    if text.isEmpty then (s, [])
    else
      (s, broadcast s .kReliable (encode { sender := player.id, text : ChatBroadcastMsg }) none)

def handleChat (s : Server) (now : Time) (peer : Peer) (player : Player) (r : Reader) :
    Server × List Out :=
  let (msg, r) := (WireMessage.read : Read ChatMsg) r
  if !r.ok || msg.text.isEmpty then (s, [])
  else acceptChat s now peer player msg.text

def acceptName (s : Server) (peer : Peer) (player : Player) (name : Bytes) :
    Server × List Out :=
  let name := sanitizeName name
  if name = player.name then (s, [])
  else
    let s := setPlayer s peer { player with name }
    (s, broadcast s .kReliable (encode { id := player.id, name : PlayerRenamedMsg }) none)

def handleSetName (s : Server) (peer : Peer) (player : Player) (r : Reader) :
    Server × List Out :=
  let (msg, r) := (WireMessage.read : Read SetNameMsg) r
  if !r.ok then (s, [])
  else acceptName s peer player msg.name

def handleConnect (s : Server) (now : Time) (peer : Peer) : Server × List Out :=
  ({ s with players := emplace peer { joinedAt := now } s.players }, [])

def handleDisconnect (s : Server) (peer : Peer) : Server × List Out :=
  match s.players.lookup peer with
  | none => (s, [])
  | some player =>
      let s := { s with players := s.players.erase peer }
      if player.handshaked then
        (s, broadcast s .kReliable (encode { id := player.id : PlayerLeftMsg }) none ++
          serverChat s (player.name ++ ascii " left the game"))
      else
        (s, [])

def handlePacket (s : Server) (now : Time) (peer : Peer) (bytes : Bytes) : Server × List Out :=
  match s.players.lookup peer with
  | none => (s, [])
  | some player =>
      let (id, r) := readHeader { data := bytes }
      if !r.ok then
        (s, [])
      else if !player.handshaked && id ≠ .kHello then
        (s, kick peer (ascii "Expected handshake"))
      else
        match id with
        | .kHello => handleHello s now peer player r
        | .kPlayerState => handlePlayerState s now peer player r
        | .kChat => handleChat s now peer player r
        | .kSetName => handleSetName s peer player r
        | _ => (s, [])

def addBot (s : Server) (mode : BotMode) (name : Bytes) : Server × List Out :=
  let id := s.nextId
  let name := sanitizeName (if name.isEmpty then ascii "Bot" ++ ascii (toString id) else name)
  let s := { s with nextId := s.nextId + 1, bots := s.bots ++ [{ id, name, mode }] }
  (s, broadcast s .kReliable (encode { id, name : PlayerJoinedMsg }) none ++
    serverChat s (name ++ ascii " joined the game"))

def farewell (s : Server) (bot : Bot) : List Out :=
  broadcast s .kReliable (encode { id := bot.id : PlayerLeftMsg }) none ++
    serverChat s (bot.name ++ ascii " left the game")

/-- `none` when there is no such bot (`false` in the source). -/
def removeBot (s : Server) (id : PlayerId) : Option (Server × List Out) :=
  match s.bots.find? (·.id == id) with
  | none => none
  | some bot => some ({ s with bots := s.bots.eraseP (·.id == id) }, farewell s bot)

/-- `while (!_bots.empty()) RemoveBot(_bots.back().id)`, `fuel` rounds at most. -/
def removeAllBots : Nat → Server → Server × List Out
  | 0, s => (s, [])
  | fuel + 1, s =>
      match s.bots.getLast? with
      | none => (s, [])
      | some last =>
          match removeBot s last.id with
          | none => (s, [])
          | some (s, outs) =>
              let (s', outs') := removeAllBots fuel s
              (s', outs ++ outs')

section Bots

variable [CppFloat F32] [Libm F32]

def botMirrorOffset : F32 := CppFloat.ofRat 200
def botOrbitRadius : F32 := CppFloat.ofRat 250
def botOrbitSpeed : F32 := CppFloat.ofRat (6 / 10)

/-- `2.0f * std::numbers::pi_v<float>`. -/
def twoPi : F32 := CppFloat.ofRat 2 * CppFloat.ofRat (13176795 / 4194304)

/-- `duration<float>` divides after it has rounded the nanoseconds. -/
def seconds (duration : Time) : F32 := CppFloat.ofRat duration / CppFloat.ofRat 1000000000

/-- The state a bot derives from the player it follows. -/
def botState (bot : Bot) (target : Player) (dt : F32) : Bot :=
  let s := target.state
  match bot.mode with
  | .kMirror =>
      { bot with
        hasState := true
        state := { s with position := { s.position with x := s.position.x + botMirrorOffset } } }
  | .kOrbit =>
      let phase := CppFloat.fmod (bot.phase + botOrbitSpeed * dt) twoPi
      { bot with
        hasState := true
        phase
        state := { s with
          position := { s.position with
            x := s.position.x + botOrbitRadius * Libm.cos phase
            y := s.position.y + botOrbitRadius * Libm.sin phase }
          yaw := CppFloat.fmod (twoPi - phase) twoPi } }

/-- Re-attaches a bot whose player is gone or has not sent a state yet. -/
def attachBot (s : Server) (bot : Bot) : Bot × Option Player :=
  match (findPlayer s bot.follow).filter (·.2.hasState) with
  | some entry => (bot, some entry.2)
  | none =>
      match firstPlayerWithState s with
      | some entry => ({ bot with follow := entry.2.id }, some entry.2)
      | none => ({ bot with follow := invalidPlayerId }, none)

def updateBot (s : Server) (now : Time) (dt : F32) (bot : Bot) : Bot × List Out :=
  match attachBot s bot with
  | (bot, none) => ({ bot with hasState := false }, [])
  | (bot, some target) =>
      let bot := botState bot target dt
      (bot, broadcast s .kUnreliable
        (encode { id := bot.id, timeMs := nowMs s now, state := bot.state :
          PlayerStateUpdateMsg }) none)

def updateBots (s : Server) (now : Time) : Server × List Out :=
  if s.bots.isEmpty then
    (s, [])
  else if now - s.lastBotUpdate < botUpdateInterval then
    (s, [])
  else
    let dt := seconds (now - s.lastBotUpdate)
    let dt := if CppFloat.ofRat (1 / 4) < dt then seconds botUpdateInterval else dt
    let s := { s with lastBotUpdate := now }
    ({ s with bots := s.bots.map fun bot => (updateBot s now dt bot).1 },
      s.bots.flatMap fun bot => (updateBot s now dt bot).2)

end Bots

end F4MP.ServerModel
