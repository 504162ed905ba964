import Mathlib.Data.UInt

/-!
Decimal numerals over bytes: what a run of digits denotes, and the numeral a printer
writes for a number.
-/

namespace F4MP.Library.Decimal

def IsDigit (c : UInt8) : Prop := 0x30 ≤ c.toNat ∧ c.toNat ≤ 0x39

instance instDecidableIsDigit (c : UInt8) : Decidable (IsDigit c) :=
  inferInstanceAs (Decidable (0x30 ≤ c.toNat ∧ c.toNat ≤ 0x39))

def value (digits : List UInt8) : Nat :=
  digits.foldl (fun value c => value * 10 + (c.toNat - 0x30)) 0

/-- One or more digits, of this value; leading zeros are allowed. -/
structure Denotes (text : List UInt8) (n : Nat) : Prop where
  ne_nil : text ≠ []
  digits : ∀ c ∈ text, IsDigit c
  value_eq : value text = n

def bytesOf (text : List Char) : List UInt8 := text.map fun c => UInt8.ofNat c.toNat

/-- The numeral of a number, without leading zeros. -/
def numeral (n : Nat) : List UInt8 := bytesOf (Nat.toDigits 10 n)

theorem toNat_ofNat_of_isDigit {c : Char} (hdigit : c.isDigit = true) :
    (UInt8.ofNat c.toNat).toNat = c.toNat ∧ 0x30 ≤ c.toNat ∧ c.toNat ≤ 0x39 := by
  simp only [Char.isDigit, Bool.and_eq_true, decide_eq_true_eq, ge_iff_le,
    UInt32.le_iff_toNat_le] at hdigit
  obtain ⟨hlow, hhigh⟩ := hdigit
  change 0x30 ≤ c.toNat at hlow
  change c.toNat ≤ 0x39 at hhigh
  exact ⟨UInt8.toNat_ofNat_of_lt' (Nat.lt_of_le_of_lt hhigh (by decide)), hlow, hhigh⟩

theorem value_bytesOf {text : List Char} (hdigits : ∀ c ∈ text, c.isDigit = true) :
    value (bytesOf text) = Nat.ofDigitChars 10 text 0 := by
  rw [value, Nat.ofDigitChars_eq_foldl, bytesOf, List.foldl_map]
  generalize (0 : Nat) = start
  induction text generalizing start with
  | nil => rfl
  | cons c text ih =>
      obtain ⟨hc, htext⟩ := List.forall_mem_cons.mp hdigits
      rw [List.foldl_cons, List.foldl_cons, (toNat_ofNat_of_isDigit hc).1, Nat.mul_comm start]
      exact ih htext _

theorem denotes_numeral (n : Nat) : Denotes (numeral n) n where
  ne_nil := by simp [numeral, bytesOf]
  digits := by
    intro c hc
    obtain ⟨digit, hdigit, rfl⟩ := List.mem_map.mp hc
    have hdigit := Nat.isDigit_of_mem_toDigits (by decide) (by decide) hdigit
    obtain ⟨heq, hrange⟩ := toNat_ofNat_of_isDigit hdigit
    rw [IsDigit, heq]
    exact hrange
  value_eq := by
    have hdigits : ∀ c ∈ Nat.toDigits 10 n, c.isDigit = true := fun c hc =>
      Nat.isDigit_of_mem_toDigits (by decide) (by decide) hc
    rw [numeral, value_bytesOf hdigits, Nat.ofDigitChars_ten_toDigits]

theorem Denotes.not_mem {text : List UInt8} {n : Nat} (h : Denotes text n) {c : UInt8}
    (hc : ¬IsDigit c) : c ∉ text :=
  fun hmem => hc (h.digits c hmem)

/-- An optional minus sign and digits. -/
inductive DenotesInt : List UInt8 → Int → Prop
  | nonneg {text : List UInt8} {n : Nat} : Denotes text n → DenotesInt text n
  | neg {text : List UInt8} {n : Nat} : Denotes text n → DenotesInt (0x2D :: text) (-n)

def numeralInt : Int → List UInt8
  | .ofNat n => numeral n
  | .negSucc n => 0x2D :: numeral (n + 1)

theorem denotesInt_numeralInt (v : Int) : DenotesInt (numeralInt v) v := by
  cases v with
  | ofNat n => exact .nonneg (denotes_numeral n)
  | negSucc n => exact .neg (denotes_numeral (n + 1))

theorem DenotesInt.mem {text : List UInt8} {v : Int} (h : DenotesInt text v) {c : UInt8}
    (hc : c ∈ text) : IsDigit c ∨ c = 0x2D := by
  cases h with
  | nonneg h => exact .inl (h.digits c hc)
  | neg h => exact (List.mem_cons.mp hc).symm.imp_left (h.digits c)

end F4MP.Library.Decimal
