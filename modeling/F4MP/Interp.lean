import F4MP.Arith

/-!
Snapshot interpolation: the timeline the client unwraps the wire stamps onto, and
where a buffer of snapshots says a player was at a render time.
-/

namespace F4MP.Interp

open F4MP.Types
open F4MP.Arith

/-- A snapshot on the client's unwrapped server timeline. -/
@[ext] structure TimedState (F : Type) where
  state : PlayerState F
  timeMs : Int
deriving DecidableEq

/-- Turns the stamps on the wire, which wrap, into a timeline that does not. -/
structure ServerClock where
  started : Bool := false
  last : UInt32 := 0
  now : Int := 0
deriving DecidableEq

def ServerClock.unwrap (clock : ServerClock) (stamp : UInt32) : Int × ServerClock :=
  if clock.started then
    let now := clock.now + (stamp - clock.last).toInt32.toInt
    (now, { clock with last := stamp, now })
  else
    (stamp.toNat, { started := true, last := stamp, now := stamp.toNat })

section Blend

variable {F : Type} [CppFloat F]

def lerp (a b t : F) : F := a + (b - a) * t

/-- `LerpAngle` for a given value of pi. -/
def lerpAngleOn (pi a b t : F) : F :=
  let twoPi := CppFloat.ofRat 2 * pi
  let delta := CppFloat.fmod (b - a) twoPi
  let delta :=
    if pi < delta then delta - twoPi
    else if delta < CppFloat.ofRat 0 - pi then delta + twoPi
    else delta
  a + delta * t

def lerpAngle (a b t : F) : F := lerpAngleOn pi a b t

/-- Continuous fields are blended; discrete ones follow the nearer snapshot. -/
def blend (a b : PlayerState F) (t : F) : PlayerState F :=
  { (if t < CppFloat.ofRat (1 / 2) then a else b) with
    position := ⟨lerp a.position.x b.position.x t, lerp a.position.y b.position.y t,
      lerp a.position.z b.position.z t⟩
    yaw := lerpAngle a.yaw b.yaw t
    health := lerp a.health b.health t }

/-- `last` with the motion from `prev` carried on for `t` of the gap between them. -/
def carryOn (prev last : PlayerState F) (t : F) : PlayerState F :=
  { last with
    position :=
      ⟨last.position.x + (last.position.x - prev.position.x) * t,
        last.position.y + (last.position.y - prev.position.y) * t,
        last.position.z + (last.position.z - prev.position.z) * t⟩ }

end Blend

section Sample

variable {F D : Type} [CppFloat F] [CppFloat D] [Narrow D F]

def maxExtrapolateMs : D := CppFloat.ofRat 150
def maxVelocityGapMs : D := CppFloat.ofRat 400

/-- `static_cast<double>` of a time or a difference of two. -/
def toDouble (timeMs : Int) : D := CppFloat.ofRat timeMs

/-- After the newest snapshot: the last velocity is carried on for a while. -/
def extrapolate (prev last : TimedState F) (renderMs : D) : PlayerState F :=
  let gap : D := toDouble (last.timeMs - prev.timeMs)
  let ahead := minimum (renderMs - toDouble last.timeMs) maxExtrapolateMs
  if gap ≤ CppFloat.ofRat 0 ∨ maxVelocityGapMs < gap ∨ ahead ≤ CppFloat.ofRat 0 then
    last.state
  else
    carryOn prev.state last.state (Narrow.narrow (ahead / gap))

def interpolate (a b : TimedState F) (renderMs : D) : PlayerState F :=
  let span : D := toDouble (b.timeMs - a.timeMs)
  let t : F :=
    if CppFloat.ofRat 0 < span then Narrow.narrow ((renderMs - toDouble a.timeMs) / span)
    else CppFloat.ofRat 1
  blend a.state b.state (clamp t (CppFloat.ofRat 0) (CppFloat.ofRat 1))

/-- The render time is not outside the two snapshots. -/
def within (renderMs : D) (a b : TimedState F) : Bool :=
  !(renderMs < toDouble a.timeMs || toDouble b.timeMs < renderMs)

/-- The first two successive snapshots around the render time. -/
def bracket (renderMs : D) : List (TimedState F) → Option (TimedState F × TimedState F)
  | a :: b :: rest => if within renderMs a b then some (a, b) else bracket renderMs (b :: rest)
  | _ => none

def lastTwo : TimedState F → TimedState F → List (TimedState F) → TimedState F × TimedState F
  | prev, last, [] => (prev, last)
  | _, second, third :: rest => lastTwo second third rest

/-- Where the snapshots, oldest first, say the player was at a render time.  Nothing
for no snapshots, which the source rules out. -/
def sampleAt (snapshots : List (TimedState F)) (renderMs : D) : Option (PlayerState F) :=
  match snapshots with
  | [] => none
  | [first] => some first.state
  | first :: second :: rest =>
      if renderMs ≤ toDouble first.timeMs then
        some first.state
      else
        let (prev, last) := lastTwo first second rest
        if toDouble last.timeMs ≤ renderMs then
          some (extrapolate prev last renderMs)
        else
          match bracket renderMs snapshots with
          | some (a, b) => some (interpolate a b renderMs)
          | none => some last.state

end Sample

end F4MP.Interp
