import F4MP.Protocol

/-!
The eleven messages as formats.  Every `Write` prints its format and every `Read`
parses it, so that decoding undoes encoding and accepts nothing but encodings.
-/

namespace F4MP.ProtocolFormat

open F4MP.Types
open F4MP.Packet
open F4MP.Protocol
open F4MP.Library.WireFormat

def vec3Fields : F32 × F32 × F32 ≃ Vec3 F32 where
  toFun p := ⟨p.1, p.2.1, p.2.2⟩
  invFun v := (v.x, v.y, v.z)
  left_inv _ := rfl
  right_inv _ := rfl

def vec3Format : Format UInt8 (Vec3 F32) :=
  (f32Format.pair (f32Format.pair f32Format)).congr vec3Fields

theorem reads_vec3 : Reads readVec3 vec3Format :=
  (reads_f32.pair (reads_f32.pair reads_f32)).congr vec3Fields

theorem writes_vec3 : Writes writeVec3 vec3Format :=
  (writes_f32.pair (writes_f32.pair writes_f32)).congr vec3Fields

def playerStateFields :
    Vec3 F32 × F32 × UInt32 × UInt32 × UInt8 × F32 × F32 ≃ PlayerState F32 where
  toFun p := ⟨p.1, p.2.1, p.2.2.1, p.2.2.2.1, p.2.2.2.2.1, p.2.2.2.2.2.1, p.2.2.2.2.2.2⟩
  invFun s :=
    (s.position, s.yaw, s.worldspaceId, s.cellId, s.flags, s.health, s.maxHealth)
  left_inv _ := rfl
  right_inv _ := rfl

def playerStateFormat : Format UInt8 (PlayerState F32) :=
  (vec3Format.pair (f32Format.pair (u32Format.pair (u32Format.pair (u8Format.pair
    (f32Format.pair f32Format)))))).congr playerStateFields

theorem reads_playerState : Reads readPlayerState playerStateFormat :=
  (reads_vec3.pair (reads_f32.pair (reads_u32.pair (reads_u32.pair (reads_u8.pair
    (reads_f32.pair reads_f32)))))).congr playerStateFields

theorem writes_playerState : Writes writePlayerState playerStateFormat :=
  (writes_vec3.pair (writes_f32.pair (writes_u32.pair (writes_u32.pair (writes_u8.pair
    (writes_f32.pair writes_f32)))))).congr playerStateFields

/-- A message whose `Write` and `Read` are the printer and the parser of one format. -/
class FormattedMessage (T : Type) extends WireMessage T where
  format : Format UInt8 T
  reads : Reads read format
  writes : Writes write format

def helloFields : UInt32 × UInt32 × Bytes ≃ HelloMsg where
  toFun p := ⟨p.1, p.2.1, p.2.2⟩
  invFun m := (m.protocolVersion, m.gameVersion, m.name)
  left_inv _ := rfl
  right_inv _ := rfl

instance : FormattedMessage HelloMsg where
  format := (u32Format.pair (u32Format.pair strFormat)).congr helloFields
  reads := (reads_u32.pair (reads_u32.pair reads_str)).congr helloFields
  writes := (writes_u32.pair (writes_u32.pair writes_str)).congr helloFields

def playerStateMsgFields : PlayerState F32 ≃ PlayerStateMsg where
  toFun p := ⟨p⟩
  invFun m := m.state
  left_inv _ := rfl
  right_inv _ := rfl

instance : FormattedMessage PlayerStateMsg where
  format := playerStateFormat.congr playerStateMsgFields
  reads := reads_playerState.congr playerStateMsgFields
  writes := writes_playerState.congr playerStateMsgFields

def chatFields : Bytes ≃ ChatMsg where
  toFun p := ⟨p⟩
  invFun m := m.text
  left_inv _ := rfl
  right_inv _ := rfl

instance : FormattedMessage ChatMsg where
  format := strFormat.congr chatFields
  reads := reads_str.congr chatFields
  writes := writes_str.congr chatFields

def setNameFields : Bytes ≃ SetNameMsg where
  toFun p := ⟨p⟩
  invFun m := m.name
  left_inv _ := rfl
  right_inv _ := rfl

instance : FormattedMessage SetNameMsg where
  format := strFormat.congr setNameFields
  reads := reads_str.congr setNameFields
  writes := writes_str.congr setNameFields

def welcomeFields : PlayerId × UInt8 × Bytes × Bytes ≃ WelcomeMsg where
  toFun p := ⟨p.1, p.2.1, p.2.2.1, p.2.2.2⟩
  invFun m := (m.id, m.tickRate, m.serverName, m.motd)
  left_inv _ := rfl
  right_inv _ := rfl

instance : FormattedMessage WelcomeMsg where
  format := (u32Format.pair (u8Format.pair (strFormat.pair strFormat))).congr welcomeFields
  reads := (reads_u32.pair (reads_u8.pair (reads_str.pair reads_str))).congr welcomeFields
  writes := (writes_u32.pair (writes_u8.pair (writes_str.pair writes_str))).congr welcomeFields

def rejectFields : Bytes ≃ RejectMsg where
  toFun p := ⟨p⟩
  invFun m := m.reason
  left_inv _ := rfl
  right_inv _ := rfl

instance : FormattedMessage RejectMsg where
  format := strFormat.congr rejectFields
  reads := reads_str.congr rejectFields
  writes := writes_str.congr rejectFields

def playerJoinedFields : PlayerId × Bytes ≃ PlayerJoinedMsg where
  toFun p := ⟨p.1, p.2⟩
  invFun m := (m.id, m.name)
  left_inv _ := rfl
  right_inv _ := rfl

instance : FormattedMessage PlayerJoinedMsg where
  format := (u32Format.pair strFormat).congr playerJoinedFields
  reads := (reads_u32.pair reads_str).congr playerJoinedFields
  writes := (writes_u32.pair writes_str).congr playerJoinedFields

def playerLeftFields : PlayerId ≃ PlayerLeftMsg where
  toFun p := ⟨p⟩
  invFun m := m.id
  left_inv _ := rfl
  right_inv _ := rfl

instance : FormattedMessage PlayerLeftMsg where
  format := u32Format.congr playerLeftFields
  reads := reads_u32.congr playerLeftFields
  writes := writes_u32.congr playerLeftFields

def playerStateUpdateFields : PlayerId × UInt32 × PlayerState F32 ≃ PlayerStateUpdateMsg where
  toFun p := ⟨p.1, p.2.1, p.2.2⟩
  invFun m := (m.id, m.timeMs, m.state)
  left_inv _ := rfl
  right_inv _ := rfl

theorem reads_playerStateUpdate {read : Read (PlayerState F32)}
    {F : Format UInt8 (PlayerState F32)} (h : Reads read F) :
    Reads (do
      let id ← Reader.u32
      let timeMs ← Reader.u32
      let state ← read
      return ({ id, timeMs, state } : PlayerStateUpdateMsg) : Read PlayerStateUpdateMsg)
      ((u32Format.pair (u32Format.pair F)).congr playerStateUpdateFields) :=
  (reads_u32.pair (reads_u32.pair h)).congr playerStateUpdateFields

instance : FormattedMessage PlayerStateUpdateMsg where
  format := (u32Format.pair (u32Format.pair playerStateFormat)).congr playerStateUpdateFields
  reads := reads_playerStateUpdate reads_playerState
  writes := (writes_u32.pair (writes_u32.pair writes_playerState)).congr playerStateUpdateFields

def chatBroadcastFields : PlayerId × Bytes ≃ ChatBroadcastMsg where
  toFun p := ⟨p.1, p.2⟩
  invFun m := (m.sender, m.text)
  left_inv _ := rfl
  right_inv _ := rfl

instance : FormattedMessage ChatBroadcastMsg where
  format := (u32Format.pair strFormat).congr chatBroadcastFields
  reads := (reads_u32.pair reads_str).congr chatBroadcastFields
  writes := (writes_u32.pair writes_str).congr chatBroadcastFields

def playerRenamedFields : PlayerId × Bytes ≃ PlayerRenamedMsg where
  toFun p := ⟨p.1, p.2⟩
  invFun m := (m.id, m.name)
  left_inv _ := rfl
  right_inv _ := rfl

instance : FormattedMessage PlayerRenamedMsg where
  format := (u32Format.pair strFormat).congr playerRenamedFields
  reads := (reads_u32.pair reads_str).congr playerRenamedFields
  writes := (writes_u32.pair writes_str).congr playerRenamedFields

end F4MP.ProtocolFormat
