import F4MP.IniLayout
import F4MP.Library.Decimal

/-!
The integers a setting can hold: a whole signed numeral in the range of the type, with an
inline comment and whitespace around it or without.
-/

namespace F4MP.IniNumbers

open F4MP.Types
open F4MP.ServerConsole
open F4MP.IniModel
open F4MP.IniLayout
open F4MP.Library.Decimal

/-- What starts an inline comment. -/
def isComment (c : UInt8) : Bool := c == 0x3B || c == 0x23

theorem numeric_eq (s : Bytes) : numeric s = trim (s.takeWhile fun c => !isComment c) := by
  have hcut : ∀ t : Bytes, t.takeWhile (fun c => !isComment c) =
      ((t.findIdx? isComment).map t.take).getD t := by
    intro t
    induction t with
    | nil => rfl
    | cons c t ih =>
        rw [List.takeWhile_cons, List.findIdx?_cons, ih]
        cases hc : isComment c with
        | true => rfl
        | false => cases t.findIdx? isComment <;> rfl
  rw [numeric, hcut]
  split
  next comment hcomment =>
    change s.findIdx? isComment = some comment at hcomment
    rw [hcomment]
    rfl
  next hcomment =>
    change s.findIdx? isComment = none at hcomment
    rw [hcomment]
    rfl

/-- The range of a `long long`. -/
def InRange (v : Int) : Prop := -2 ^ 63 ≤ v ∧ v < 2 ^ 63

theorem drop_digits_eq_nil_iff (rest : Bytes) :
    rest.drop (rest.takeWhile isDigit).length = [] ↔ ∀ c ∈ rest, isDigit c = true := by
  have hsplit := List.takeWhile_append_dropWhile (p := isDigit) (l := rest)
  have hdrop := (congrArg (List.drop (rest.takeWhile isDigit).length) hsplit).symm.trans
    List.drop_left
  rw [hdrop, List.dropWhile_eq_nil_iff]

/-- The part after the sign, whose value is `value` of its digits. -/
theorem fromCharsInt_digits_iff (rest : Bytes) (value : Nat → Int) (v : Int) :
    (if (rest.takeWhile isDigit).isEmpty || value (digitsValue (rest.takeWhile isDigit)) < -2 ^ 63 ||
        2 ^ 63 ≤ value (digitsValue (rest.takeWhile isDigit)) then none
      else some (value (digitsValue (rest.takeWhile isDigit)),
        rest.drop (rest.takeWhile isDigit).length)) = some (v, []) ↔
    ∃ n, Denotes rest n ∧ v = value n ∧ InRange v := by
  constructor
  · intro h
    split at h
    next => cases h
    next hgood =>
      simp only [Bool.or_eq_true, List.isEmpty_iff, decide_eq_true_eq, not_or, not_lt,
        not_le] at hgood
      obtain ⟨⟨hne, hlow⟩, hhigh⟩ := hgood
      obtain ⟨rfl, hrest⟩ := Prod.mk.inj (Option.some.inj h)
      have hdigits := (drop_digits_eq_nil_iff rest).mp hrest
      have htake := List.takeWhile_eq_self_iff.mpr hdigits
      rw [htake] at hne hlow hhigh ⊢
      exact ⟨_, (denotes_iff rest _).mpr ⟨hne, hdigits, rfl⟩, rfl, hlow, hhigh⟩
  · rintro ⟨n, hdenotes, rfl, hlow, hhigh⟩
    obtain ⟨hne, hdigits, rfl⟩ := (denotes_iff rest n).mp hdenotes
    have htake := List.takeWhile_eq_self_iff.mpr hdigits
    rw [htake, if_neg, List.drop_length]
    simpa [hne] using And.intro hlow hhigh

theorem fromCharsInt_eq_some_iff (s : Bytes) (v : Int) :
    fromCharsInt s = some (v, []) ↔ DenotesInt s v ∧ InRange v := by
  by_cases hminus : ∃ rest, s = 0x2D :: rest
  · obtain ⟨rest, rfl⟩ := hminus
    refine (fromCharsInt_digits_iff rest (fun n => -n) v).trans ⟨?_, ?_⟩
    · rintro ⟨n, hdenotes, rfl, hrange⟩
      exact ⟨.neg hdenotes, hrange⟩
    · rintro ⟨hdenotes, hrange⟩
      cases hdenotes with
      | nonneg hdenotes => exact absurd (hdenotes.digits _ List.mem_cons_self) (by decide)
      | neg hdenotes => exact ⟨_, hdenotes, rfl, hrange⟩
  · have hparse : fromCharsInt s = some (v, []) ↔ ∃ n, Denotes s n ∧ v = (n : Int) ∧ InRange v := by
      rw [← fromCharsInt_digits_iff s (fun n => n) v, fromCharsInt]
      · rfl
      · exact fun rest hs => hminus ⟨rest, hs⟩
    rw [hparse]
    constructor
    · rintro ⟨n, hdenotes, rfl, hrange⟩
      exact ⟨.nonneg hdenotes, hrange⟩
    · rintro ⟨hdenotes, hrange⟩
      cases hdenotes with
      | nonneg hdenotes => exact ⟨_, hdenotes, rfl, hrange⟩
      | neg hdenotes => exact absurd ⟨_, rfl⟩ hminus

theorem isComment_iff (c : UInt8) : isComment c = true ↔ c = 0x3B ∨ c = 0x23 := by
  simp [isComment]

theorem numeralInt_plain {v : Int} {c : UInt8} (hc : c ∈ numeralInt v) :
    isSpace c = false ∧ isComment c = false := by
  rw [← Bool.not_eq_true, ← Bool.not_eq_true, isSpace_iff, isComment_iff, ← UInt8.toNat_inj,
    ← UInt8.toNat_inj]
  change _ ∧ ¬(c.toNat = 59 ∨ c.toNat = 35)
  rcases (denotesInt_numeralInt v).mem hc with ⟨hlow, hhigh⟩ | rfl
  · omega
  · decide

theorem numeric_numeral {v : Int} {pad pad' comment : Bytes}
    (hpad : ∀ c ∈ pad, isSpace c = true) (hpad' : ∀ c ∈ pad', isSpace c = true)
    (hcomment : ∀ c ∈ comment.head?, isComment c = true) :
    numeric (pad ++ numeralInt v ++ pad' ++ comment) = numeralInt v := by
  have hspace : ∀ c, isSpace c = true → (!isComment c) = true := by
    intro c hc
    by_contra hnot
    rw [Bool.not_eq_true, Bool.not_eq_false', isComment_iff] at hnot
    rcases hnot with rfl | rfl <;> exact absurd hc (by decide)
  have hplain : ∀ c ∈ pad ++ numeralInt v ++ pad', (!isComment c) = true := by
    intro c hc
    rcases List.mem_append.mp hc with hc | hc
    · rcases List.mem_append.mp hc with hc | hc
      · exact hspace c (hpad c hc)
      · rw [(numeralInt_plain hc).2]
        rfl
    · exact hspace c (hpad' c hc)
  have hend : comment.takeWhile (fun c => !isComment c) = [] := by
    cases comment with
    | nil => rfl
    | cons c comment => rw [List.takeWhile_cons_of_neg (by simp [hcomment c rfl])]
  have htrimmed : Library.Trim.Trimmed isSpace (numeralInt v) :=
    ⟨fun c hc => (numeralInt_plain (List.mem_of_mem_head? hc)).1,
      fun c hc => (numeralInt_plain (List.mem_of_mem_getLast? hc)).1⟩
  rw [numeric_eq, List.takeWhile_append_of_pos hplain, hend, List.append_nil,
    trim_padded hpad hpad', trim_eq, htrimmed.trim_eq]

/-- Integer settings are taken whole: what is in front of the first comment mark must be,
trimmed, a signed numeral in range, and anything else is the fallback.  A number printed
into a setting, with any whitespace and comment around it, is read back. -/
theorem getInt_spec (ini : Ini) (sectionName key : Bytes) (fallback : Int) :
    let s := ini.get sectionName key []
    let number := trim (s.takeWhile fun c => !isComment c)
    (∀ v, DenotesInt number v → InRange v → ini.getInt sectionName key fallback = v) ∧
    ((¬∃ v, DenotesInt number v ∧ InRange v) → ini.getInt sectionName key fallback = fallback) ∧
    ∀ v pad pad' comment, InRange v → (∀ c ∈ pad, isSpace c = true) →
      (∀ c ∈ pad', isSpace c = true) → (∀ c ∈ comment.head?, isComment c = true) →
      s = pad ++ numeralInt v ++ pad' ++ comment → ini.getInt sectionName key fallback = v := by
  intro s number
  have hread : ∀ v, DenotesInt number v → InRange v →
      ini.getInt sectionName key fallback = v := by
    intro v hdenotes hrange
    rw [Ini.getInt, numeric_eq, (fromCharsInt_eq_some_iff number v).mpr ⟨hdenotes, hrange⟩]
  refine ⟨hread, fun hnone => ?_, fun v pad pad' comment hrange hpad hpad' hcomment hs => ?_⟩
  · rw [Ini.getInt, numeric_eq]
    split
    next v hparsed => exact absurd ⟨v, (fromCharsInt_eq_some_iff number v).mp hparsed⟩ hnone
    next => rfl
  · apply hread v _ hrange
    rw [show number = numeralInt v from by
      rw [← numeric_numeral hpad hpad' hcomment, ← hs, numeric_eq]]
    exact denotesInt_numeralInt v

end F4MP.IniNumbers
