import Mathlib.Data.Rat.Floor
import Mathlib.Order.Monotone.Defs
import F4MP.Types

/-!
The floating-point arithmetic of the program.  The functions that compute are
written over an arbitrary number type with these operations, so that they apply to
any rounding; `ℚ` is the exact instance.
-/

namespace F4MP.Arith

/-- A C++ floating-point type.  `ofRat` gives the value of a literal or of a
converted integer, rounded however the type rounds. -/
class CppFloat (F : Type) extends Add F, Sub F, Mul F, Div F, LT F, LE F where
  decidableLT : DecidableRel (α := F) (· < ·)
  decidableLE : DecidableRel (α := F) (· ≤ ·)
  ofRat : ℚ → F
  fmod : F → F → F

instance instDecidableLT {F : Type} [CppFloat F] : DecidableRel (α := F) (· < ·) :=
  CppFloat.decidableLT
instance instDecidableLE {F : Type} [CppFloat F] : DecidableRel (α := F) (· ≤ ·) :=
  CppFloat.decidableLE

/-- The functions of `<cmath>` that no exact instance has. -/
class Libm (F : Type) where
  sqrt : F → F
  cos : F → F
  sin : F → F

/-- `static_cast<float>` of a `double`. -/
class Narrow (D F : Type) where
  narrow : D → F

/-- `static_cast<double>` of a `float`. -/
class Widen (F D : Type) where
  widen : F → D

/-- Exact arithmetic: nothing is rounded and `fmod` is the truncated remainder. -/
instance : CppFloat ℚ where
  decidableLT := inferInstance
  decidableLE := inferInstance
  ofRat q := q
  fmod a b := a - b * (if 0 ≤ a / b then ⌊a / b⌋ else ⌈a / b⌉)

/-- The same in any ordered field, such as the real numbers. -/
abbrev CppFloat.exact (K : Type) [Field K] [LinearOrder K] [IsStrictOrderedRing K] [FloorRing K] :
    CppFloat K where
  decidableLT := inferInstance
  decidableLE := inferInstance
  ofRat q := q
  fmod a b := a - b * (if 0 ≤ a / b then ⌊a / b⌋ else ⌈a / b⌉)

instance : Narrow ℚ ℚ := ⟨id⟩

instance : Widen ℚ ℚ := ⟨id⟩

/-- The finite numbers of a type that rounds as IEEE 754 has it: numbers compare by their
values, a conversion or a sum gives the rounded exact one, and rounding keeps the order,
the numbers of the type and the integers of up to 24 bits. -/
class Rounds (D : Type) [CppFloat D] where
  value : D → ℚ
  round : ℚ → ℚ
  value_lt (a b : D) : a < b ↔ value a < value b
  value_le (a b : D) : a ≤ b ↔ value a ≤ value b
  value_ofRat (q : ℚ) : value (CppFloat.ofRat q) = round q
  value_add (a b : D) : value (a + b) = round (value a + value b)
  round_mono : Monotone round
  round_value (a : D) : round (value a) = value a
  round_int (z : ℤ) (hz : |z| ≤ 2 ^ 24) : round z = z

instance instRoundsRat : Rounds ℚ where
  value q := q
  round q := q
  value_lt _ _ := Iff.rfl
  value_le _ _ := Iff.rfl
  value_ofRat _ := rfl
  value_add _ _ := rfl
  round_mono := monotone_id
  round_value _ := rfl
  round_int _ _ := rfl

section Generic

variable {F : Type} [CppFloat F]

def minimum (a b : F) : F := if b < a then b else a

def clamp (v lo hi : F) : F := if v < lo then lo else if hi < v then hi else v

/-- `std::numbers::pi_v<float>`. -/
def pi : F := CppFloat.ofRat (13176795 / 4194304)

end Generic

end F4MP.Arith
