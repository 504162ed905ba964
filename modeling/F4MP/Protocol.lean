import F4MP.Packet
import Mathlib.Data.List.DropRight

/-!
The wire protocol shared by the client and the server: message identifiers, the
eleven messages with their field-by-field `Write` and `Read`, and the helpers
around them.
-/

namespace F4MP.Protocol

open F4MP.Types
open F4MP.Packet

def currentProtocolVersion : UInt32 := 3
def maxPlayerName : Nat := 32
def maxChatBytes : Nat := 512

inductive Channel where
  | kReliable
  | kUnreliable
deriving DecidableEq, Repr

/-- The id byte of a message.  The byte on the wire can be any value, so the
enumeration has room for the ones that name no message. -/
inductive MsgId where
  | kHello
  | kPlayerState
  | kChat
  | kSetName
  | kWelcome
  | kReject
  | kPlayerJoined
  | kPlayerLeft
  | kPlayerStateUpdate
  | kChatBroadcast
  | kPlayerRenamed
  | other (code : UInt8)
deriving DecidableEq, Repr

namespace MsgId

def code : MsgId → UInt8
  | kHello => 1
  | kPlayerState => 2
  | kChat => 3
  | kSetName => 4
  | kWelcome => 64
  | kReject => 65
  | kPlayerJoined => 66
  | kPlayerLeft => 67
  | kPlayerStateUpdate => 68
  | kChatBroadcast => 69
  | kPlayerRenamed => 70
  | other code => code

/-- `static_cast<MsgId>` of a byte. -/
def ofCode : UInt8 → MsgId
  | 1 => kHello
  | 2 => kPlayerState
  | 3 => kChat
  | 4 => kSetName
  | 64 => kWelcome
  | 65 => kReject
  | 66 => kPlayerJoined
  | 67 => kPlayerLeft
  | 68 => kPlayerStateUpdate
  | 69 => kChatBroadcast
  | 70 => kPlayerRenamed
  | code => other code

theorem code_ofCode (code : UInt8) : (ofCode code).code = code := by
  unfold ofCode
  split <;> rfl

end MsgId

/-- What `Encode` and the handlers need of a message type. -/
class WireMessage (T : Type) where
  id : MsgId
  write : Writer → T → Writer
  read : Read T

def writeVec3 (w : Writer) (v : Vec3 F32) : Writer :=
  ((w.f32 v.x).f32 v.y).f32 v.z

def readVec3 : Read (Vec3 F32) := do
  let x ← Reader.f32
  let y ← Reader.f32
  let z ← Reader.f32
  return ⟨x, y, z⟩

def writePlayerState (w : Writer) (s : PlayerState F32) : Writer :=
  let w := writeVec3 w s.position
  let w := w.f32 s.yaw
  let w := w.u32 s.worldspaceId
  let w := w.u32 s.cellId
  let w := w.u8 s.flags
  let w := w.f32 s.health
  w.f32 s.maxHealth

def readPlayerState : Read (PlayerState F32) := do
  let position ← readVec3
  let yaw ← Reader.f32
  let worldspaceId ← Reader.u32
  let cellId ← Reader.u32
  let flags ← Reader.u8
  let health ← Reader.f32
  let maxHealth ← Reader.f32
  return { position, yaw, worldspaceId, cellId, flags, health, maxHealth }

structure HelloMsg where
  protocolVersion : UInt32 := currentProtocolVersion
  gameVersion : UInt32 := 0
  name : Bytes
deriving DecidableEq, Repr

instance : WireMessage HelloMsg where
  id := .kHello
  write w m :=
    let w := w.u32 m.protocolVersion
    let w := w.u32 m.gameVersion
    w.str m.name
  read := do
    let protocolVersion ← Reader.u32
    let gameVersion ← Reader.u32
    let name ← Reader.str
    return { protocolVersion, gameVersion, name }

structure PlayerStateMsg where
  state : PlayerState F32
deriving DecidableEq, Repr

instance : WireMessage PlayerStateMsg where
  id := .kPlayerState
  write w m := writePlayerState w m.state
  read := do
    let state ← readPlayerState
    return { state }

structure ChatMsg where
  text : Bytes
deriving DecidableEq, Repr

instance : WireMessage ChatMsg where
  id := .kChat
  write w m := w.str m.text
  read := do
    let text ← Reader.str
    return { text }

/-- The character got (re)named after connecting. -/
structure SetNameMsg where
  name : Bytes
deriving DecidableEq, Repr

instance : WireMessage SetNameMsg where
  id := .kSetName
  write w m := w.str m.name
  read := do
    let name ← Reader.str
    return { name }

structure WelcomeMsg where
  id : PlayerId := invalidPlayerId
  tickRate : UInt8 := 20
  serverName : Bytes
  motd : Bytes
deriving DecidableEq, Repr

instance : WireMessage WelcomeMsg where
  id := .kWelcome
  write w m :=
    let w := w.u32 m.id
    let w := w.u8 m.tickRate
    let w := w.str m.serverName
    w.str m.motd
  read := do
    let id ← Reader.u32
    let tickRate ← Reader.u8
    let serverName ← Reader.str
    let motd ← Reader.str
    return { id, tickRate, serverName, motd }

structure RejectMsg where
  reason : Bytes
deriving DecidableEq, Repr

instance : WireMessage RejectMsg where
  id := .kReject
  write w m := w.str m.reason
  read := do
    let reason ← Reader.str
    return { reason }

structure PlayerJoinedMsg where
  id : PlayerId := invalidPlayerId
  name : Bytes
deriving DecidableEq, Repr

instance : WireMessage PlayerJoinedMsg where
  id := .kPlayerJoined
  write w m := (w.u32 m.id).str m.name
  read := do
    let id ← Reader.u32
    let name ← Reader.str
    return { id, name }

structure PlayerLeftMsg where
  id : PlayerId := invalidPlayerId
deriving DecidableEq, Repr

instance : WireMessage PlayerLeftMsg where
  id := .kPlayerLeft
  write w m := w.u32 m.id
  read := do
    let id ← Reader.u32
    return { id }

structure PlayerStateUpdateMsg where
  id : PlayerId := invalidPlayerId
  timeMs : UInt32 := 0
  state : PlayerState F32
deriving DecidableEq, Repr

instance : WireMessage PlayerStateUpdateMsg where
  id := .kPlayerStateUpdate
  write w m := writePlayerState ((w.u32 m.id).u32 m.timeMs) m.state
  read := do
    let id ← Reader.u32
    let timeMs ← Reader.u32
    let state ← readPlayerState
    return { id, timeMs, state }

/-- `sender` is the field the source calls `from`; `serverId` marks server messages. -/
structure ChatBroadcastMsg where
  sender : PlayerId := serverId
  text : Bytes
deriving DecidableEq, Repr

instance : WireMessage ChatBroadcastMsg where
  id := .kChatBroadcast
  write w m := (w.u32 m.sender).str m.text
  read := do
    let sender ← Reader.u32
    let text ← Reader.str
    return { sender, text }

structure PlayerRenamedMsg where
  id : PlayerId := invalidPlayerId
  name : Bytes
deriving DecidableEq, Repr

instance : WireMessage PlayerRenamedMsg where
  id := .kPlayerRenamed
  write w m := (w.u32 m.id).str m.name
  read := do
    let id ← Reader.u32
    let name ← Reader.str
    return { id, name }

def encode {T : Type} [WireMessage T] (msg : T) : Bytes :=
  let w : Writer := {}
  let w := w.u8 (WireMessage.id T).code
  (WireMessage.write w msg).buf

/-- Reads the message id and leaves the reader at the payload. -/
def readHeader (r : Reader) : MsgId × Reader :=
  let (code, r) := r.u8
  (MsgId.ofCode code, r)

/-- Strips control characters, clamps the length, trims, never returns an empty name. -/
def sanitizeName (name : Bytes) : Bytes :=
  let out := name.filter fun c => 0x20 ≤ c && c < 0x7F
  let out := if out.length > maxPlayerName then out.take maxPlayerName else out
  let out := out.rdropWhile (· == 0x20)
  let out := out.dropWhile (· == 0x20)
  if out.isEmpty then ascii "Wastelander" else out

theorem length_sanitizeName (name : Bytes) : (sanitizeName name).length ≤ maxPlayerName := by
  unfold sanitizeName
  generalize name.filter _ = out
  have hclamp : (if out.length > maxPlayerName then out.take maxPlayerName else out).length ≤
      maxPlayerName := by
    split
    · exact List.length_take_le _ _
    · omega
  revert hclamp
  dsimp only
  generalize (if out.length > maxPlayerName then out.take maxPlayerName else out) = out
  intro hclamp
  split
  · decide
  · calc
      ((out.rdropWhile (· == 0x20)).dropWhile (· == 0x20)).length
          ≤ (out.rdropWhile (· == 0x20)).length := (List.dropWhile_sublist _).length_le
      _ ≤ out.length := (List.rdropWhile_prefix _ out).length_le
      _ ≤ maxPlayerName := hclamp

end F4MP.Protocol
