import F4MP.Arith
import F4MP.ServerConsole

/-!
The numbers of the machine the program is built for: the IEEE `float` and `double`
and a 64-bit `unsigned long`.  The instances are scoped: the results hold for
any arithmetic, and runs that are evaluated use this one.
-/

namespace F4MP.Native

open F4MP.Types
open F4MP.Arith
open F4MP.ServerConsole

def toNative (f : F32) : Float32 := .ofBits f.bits

def ofNative (f : Float32) : F32 := ⟨f.toBits⟩

/-- `std::fmod` of a nonnegative by a positive number whose quotient is below 2, where
the subtraction is exact. -/
def fmod (a b : Float32) : Float32 := if a < b then a else a - b

scoped instance : CppFloat F32 where
  add a b := ofNative (toNative a + toNative b)
  sub a b := ofNative (toNative a - toNative b)
  mul a b := ofNative (toNative a * toNative b)
  div a b := ofNative (toNative a / toNative b)
  lt a b := toNative a < toNative b
  le a b := toNative a ≤ toNative b
  decidableLT a b := Float32.decLt (toNative a) (toNative b)
  decidableLE a b := Float32.decLe (toNative a) (toNative b)
  ofRat q := ofNative (Float32.ofInt q.num / Float32.ofNat q.den)
  fmod a b := ofNative (fmod (toNative a) (toNative b))

/-- The number that a finite `float` stands for. -/
def value (f : F32) : ℚ :=
  let exponent : Nat := f.bits.toNat / 2 ^ 23 % 2 ^ 8
  let fraction : Nat := f.bits.toNat % 2 ^ 23
  let magnitude : ℚ :=
    if exponent = 0 then mkRat fraction (2 ^ 149)
    else mkRat ((2 ^ 23 + fraction) * 2 ^ exponent) (2 ^ 150)
  if f.bits.toNat < 2 ^ 31 then magnitude else -magnitude

scoped instance : Libm F32 where
  sqrt f := ofNative (toNative f).sqrt
  cos f := ofNative (toNative f).cos
  sin f := ofNative (toNative f).sin

scoped instance : Platform where
  ulongMax := 2 ^ 64 - 1

/-- A `double` by its bits. -/
structure F64 where
  bits : UInt64
deriving DecidableEq

def F64.toNative (d : F64) : Float := .ofBits d.bits

def F64.ofNative (d : Float) : F64 := ⟨d.toBits⟩

scoped instance : CppFloat F64 where
  add a b := .ofNative (a.toNative + b.toNative)
  sub a b := .ofNative (a.toNative - b.toNative)
  mul a b := .ofNative (a.toNative * b.toNative)
  div a b := .ofNative (a.toNative / b.toNative)
  lt a b := a.toNative < b.toNative
  le a b := a.toNative ≤ b.toNative
  decidableLT a b := Float.decLt a.toNative b.toNative
  decidableLE a b := Float.decLe a.toNative b.toNative
  ofRat q := .ofNative (Float.ofInt q.num / Float.ofNat q.den)
  fmod a b := .ofNative (if a.toNative < b.toNative then a.toNative else a.toNative - b.toNative)

/-- The quotient by a power of two, rounded to the nearest, ties to even. -/
def roundShift (mantissa shift : Nat) : Nat :=
  let quotient := mantissa / 2 ^ shift
  let rest := 2 * (mantissa % 2 ^ shift)
  if 2 ^ shift < rest ∨ rest = 2 ^ shift ∧ quotient % 2 = 1 then quotient + 1 else quotient

/-- The conversion of a `double` to a `float`, rounded to the nearest. -/
def narrow (d : F64) : F32 :=
  let sign := d.bits.toNat / 2 ^ 63 * 2 ^ 31
  let exponent := d.bits.toNat / 2 ^ 52 % 2 ^ 11
  let fraction := d.bits.toNat % 2 ^ 52
  let infinity := 255 * 2 ^ 23
  let magnitude :=
    if exponent = 2047 then
      if fraction = 0 then infinity else infinity + 2 ^ 22
    else if 897 ≤ exponent then
      min infinity ((exponent - 897) * 2 ^ 23 + roundShift (2 ^ 52 + fraction) 29)
    else if exponent = 0 then 0
    else roundShift (2 ^ 52 + fraction) (29 + (897 - exponent))
  ⟨.ofNat (sign + magnitude)⟩

/-- The conversion of a `float` to a `double`, which is exact. -/
def widen (f : F32) : F64 :=
  let sign := f.bits.toNat / 2 ^ 31 * 2 ^ 63
  let exponent := f.bits.toNat / 2 ^ 23 % 2 ^ 8
  let fraction := f.bits.toNat % 2 ^ 23
  let magnitude :=
    if exponent = 255 then 2047 * 2 ^ 52 + fraction * 2 ^ 29
    else if exponent = 0 then
      -- a multiple of the least positive value
      if fraction = 0 then 0
      else (874 + fraction.log2) * 2 ^ 52 + (fraction * 2 ^ (52 - fraction.log2) - 2 ^ 52)
    else (exponent + 896) * 2 ^ 52 + fraction * 2 ^ 29
  ⟨.ofNat (sign + magnitude)⟩

scoped instance : Narrow F64 F32 := ⟨narrow⟩

scoped instance : Widen F32 F64 := ⟨widen⟩

end F4MP.Native
