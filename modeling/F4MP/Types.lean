import Mathlib.Data.UInt

/-! The data every part of the program shares: identifiers, positions and states. -/

namespace F4MP.Types

/-- A `std::string` or a packet: arbitrary bytes, not only valid text. -/
abbrev Bytes := List UInt8

/-- The bytes of an ASCII literal of the source. -/
def ascii (text : String) : Bytes :=
  text.toList.map fun c => UInt8.ofNat c.toNat

abbrev PlayerId := UInt32

def serverId : PlayerId := 0
def invalidPlayerId : PlayerId := 0xFFFFFFFF

/-- A `float` as it travels: its 32 bits, not the number they stand for. -/
structure F32 where
  bits : UInt32
deriving DecidableEq, Repr

instance : Zero F32 := ⟨⟨0⟩⟩

/-- `std::isfinite`: the exponent field is not all ones. -/
def F32.isFinite (f : F32) : Bool :=
  (f.bits >>> 23) &&& 0xFF != 0xFF

@[ext] structure Vec3 (F : Type) where
  x : F
  y : F
  z : F
deriving DecidableEq, Repr

def kStateNone : UInt8 := 0
def kStateSneaking : UInt8 := 1
def kStateWeaponDrawn : UInt8 := 2
def kStateDead : UInt8 := 4
def kStateSprinting : UInt8 := 8

/-- Everything a client needs to place another player's character. -/
@[ext] structure PlayerState (F : Type) where
  position : Vec3 F
  yaw : F
  worldspaceId : UInt32
  cellId : UInt32
  flags : UInt8
  health : F
  maxHealth : F
deriving DecidableEq, Repr

/-- `PlayerState{}`. -/
def PlayerState.initial (F : Type) [Zero F] : PlayerState F :=
  { position := ⟨0, 0, 0⟩, yaw := 0, worldspaceId := 0, cellId := 0, flags := kStateNone,
    health := 0, maxHealth := 0 }

end F4MP.Types
