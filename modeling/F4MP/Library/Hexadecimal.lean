import Mathlib.Data.UInt

/-!
Hexadecimal numerals over bytes: what a run of digits denotes, and the numeral of a fixed
width a printer writes for a number.
-/

namespace F4MP.Library.Hexadecimal

/-- One of the sixteen ASCII digits, in either case. -/
def IsDigit (c : UInt8) : Prop :=
  0x30 ≤ c.toNat ∧ c.toNat ≤ 0x39 ∨ 0x41 ≤ c.toNat ∧ c.toNat ≤ 0x46 ∨
    0x61 ≤ c.toNat ∧ c.toNat ≤ 0x66

instance instDecidableIsDigit (c : UInt8) : Decidable (IsDigit c) :=
  inferInstanceAs (Decidable (_ ∨ _))

def digit (c : UInt8) : Nat :=
  if c.toNat ≤ 0x39 then c.toNat - 0x30
  else if c.toNat ≤ 0x46 then c.toNat - 0x41 + 10
  else c.toNat - 0x61 + 10

def value (digits : List UInt8) : Nat := digits.foldl (fun value c => value * 16 + digit c) 0

/-- One or more digits, of this value; leading zeros are allowed. -/
structure Denotes (text : List UInt8) (n : Nat) : Prop where
  ne_nil : text ≠ []
  digits : ∀ c ∈ text, IsDigit c
  value_eq : value text = n

theorem value_concat (digits : List UInt8) (c : UInt8) :
    value (digits ++ [c]) = value digits * 16 + digit c := by
  rw [value, List.foldl_append]
  rfl

theorem value_cons (c : UInt8) (digits : List UInt8) :
    value (c :: digits) = digit c * 16 ^ digits.length + value digits := by
  induction digits using List.reverseRecOn with
  | nil => simp [value]
  | append_singleton digits d ih =>
      rw [← List.cons_append, value_concat, ih, value_concat, List.length_append,
        List.length_singleton, pow_succ, Nat.add_mul, Nat.mul_assoc, Nat.add_assoc]

/-- The digit of a number below sixteen, in upper case. -/
def upperDigit (d : Nat) : UInt8 := UInt8.ofNat (if d < 10 then 0x30 + d else 0x41 + (d - 10))

theorem upperDigit_spec {d : Nat} (hd : d < 16) :
    IsDigit (upperDigit d) ∧ digit (upperDigit d) = d := by
  have hall : ∀ d < 16, IsDigit (upperDigit d) ∧ digit (upperDigit d) = d := by decide
  exact hall d hd

/-- The last `width` digits of a number. -/
def numeral : Nat → Nat → List UInt8
  | 0, _ => []
  | width + 1, n => upperDigit (n / 16 ^ width % 16) :: numeral width n

theorem length_numeral (width n : Nat) : (numeral width n).length = width := by
  induction width with
  | zero => rfl
  | succ width ih => rw [numeral, List.length_cons, ih]

theorem value_numeral (width n : Nat) : value (numeral width n) = n % 16 ^ width := by
  induction width with
  | zero => rw [pow_zero, Nat.mod_one, numeral, value, List.foldl_nil]
  | succ width ih =>
      rw [numeral, value_cons, (upperDigit_spec (Nat.mod_lt _ (by decide))).2, length_numeral, ih,
        Nat.mod_pow_succ, Nat.mul_comm, Nat.add_comm]

theorem isDigit_of_mem_numeral {width n : Nat} {c : UInt8} (hc : c ∈ numeral width n) :
    IsDigit c := by
  induction width with
  | zero => cases hc
  | succ width ih =>
      rcases List.mem_cons.mp hc with rfl | hc
      · exact (upperDigit_spec (Nat.mod_lt _ (by decide))).1
      · exact ih hc

theorem denotes_numeral {width n : Nat} (hwidth : 0 < width) (hn : n < 16 ^ width) :
    Denotes (numeral width n) n where
  ne_nil hnil := by
    have hlength := length_numeral width n
    rw [hnil] at hlength
    exact hwidth.ne hlength
  digits _ hc := isDigit_of_mem_numeral hc
  value_eq := by rw [value_numeral, Nat.mod_eq_of_lt hn]

end F4MP.Library.Hexadecimal
