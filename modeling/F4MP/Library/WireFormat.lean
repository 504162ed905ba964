import Mathlib.Data.List.Infix
import Mathlib.Logic.Equiv.Defs

/-!
Formats: a printer and a parser for one kind of value that are each other's
inverse up to a normalisation of the value.  A format is assembled from smaller
ones, and every law of the whole follows from the laws of the parts.
-/

namespace F4MP.Library.WireFormat

/-- A printer and a parser over an alphabet `σ`.  `norm` is what a value becomes
when it is printed and read back; the parser returns the unread rest. -/
structure Format (σ α : Type*) where
  print : α → List σ
  parse : List σ → Option (α × List σ)
  norm : α → α
  parse_print : ∀ a rest, parse (print a ++ rest) = some (norm a, rest)
  print_of_parse : ∀ {input a rest}, parse input = some (a, rest) → input = print a ++ rest

namespace Format

variable {σ α β : Type*}

theorem norm_of_parse (F : Format σ α) {input rest : List σ} {a : α}
    (h : F.parse input = some (a, rest)) : F.norm a = a := by
  have hprint := F.parse_print a rest
  rw [← F.print_of_parse h, h] at hprint
  exact (congrArg Prod.fst (Option.some.inj hprint)).symm

theorem parse_append (F : Format σ α) {input rest : List σ} {a : α}
    (h : F.parse input = some (a, rest)) (more : List σ) :
    F.parse (input ++ more) = some (a, rest ++ more) := by
  rw [F.print_of_parse h, List.append_assoc, F.parse_print, F.norm_of_parse h]

theorem parse_eq_none_of_strictPrefix (F : Format σ α) {a : α} {input rest : List σ}
    (hsplit : F.print a = input ++ rest) (hrest : rest ≠ []) :
    F.parse input = none := by
  cases hparse : F.parse input with
  | none => rfl
  | some found =>
      obtain ⟨b, unread⟩ := found
      have hwhole := F.parse_append hparse rest
      have hprint := F.parse_print a []
      rw [List.append_nil, hsplit, hwhole] at hprint
      have hempty : unread ++ rest = [] := congrArg Prod.snd (Option.some.inj hprint)
      exact absurd (List.append_eq_nil_iff.mp hempty).2 hrest

/-- A block of exactly `width` letters. -/
def block (width : Nat) (encode : α → List σ) (decode : List σ → α)
    (length_encode : ∀ a, (encode a).length = width)
    (decode_encode : ∀ a, decode (encode a) = a)
    (encode_decode : ∀ letters, letters.length = width → encode (decode letters) = letters) :
    Format σ α where
  print := encode
  parse input :=
    if width ≤ input.length then some (decode (input.take width), input.drop width) else none
  norm := id
  parse_print a rest := by
    have hlength := length_encode a
    simp [← hlength, decode_encode]
  print_of_parse := by
    intro input a rest h
    split at h
    next hwidth =>
      obtain ⟨rfl, rfl⟩ := Prod.mk.inj (Option.some.inj h)
      rw [encode_decode _ (by rw [List.length_take]; exact Nat.min_eq_left hwidth),
        List.take_append_drop]
    next => cases h

def pair (F : Format σ α) (G : Format σ β) : Format σ (α × β) where
  print p := F.print p.1 ++ G.print p.2
  parse input :=
    (F.parse input).bind fun found =>
      (G.parse found.2).map fun next => ((found.1, next.1), next.2)
  norm p := (F.norm p.1, G.norm p.2)
  parse_print p rest := by
    simp [List.append_assoc, F.parse_print, G.parse_print]
  print_of_parse := by
    intro input p rest h
    obtain ⟨⟨a, afterFirst⟩, hfirst, h⟩ := Option.bind_eq_some_iff.mp h
    obtain ⟨⟨b, afterSecond⟩, hsecond, h⟩ := Option.map_eq_some_iff.mp h
    obtain ⟨rfl, rfl⟩ := Prod.mk.inj h
    change input = (F.print a ++ G.print b) ++ afterSecond
    rw [F.print_of_parse hfirst, List.append_assoc, ← G.print_of_parse hsecond]

def congr (e : α ≃ β) (F : Format σ α) : Format σ β where
  print b := F.print (e.symm b)
  parse input := (F.parse input).map fun found => (e found.1, found.2)
  norm b := e (F.norm (e.symm b))
  parse_print b rest := by simp [F.parse_print]
  print_of_parse := by
    intro input b rest h
    obtain ⟨⟨a, unread⟩, hparse, h⟩ := Option.map_eq_some_iff.mp h
    obtain ⟨rfl, rfl⟩ := Prod.mk.inj h
    simpa using F.print_of_parse hparse

/-- A word of letters behind its own length.  Longer words are cut to `max`
letters, and a length above `max` is refused. -/
def counted (max : Nat) (F : Format σ β) (size : β → Nat) (ofSize : Nat → β)
    (size_ofSize : ∀ n ≤ max, size (ofSize n) = n) (ofSize_size : ∀ b, ofSize (size b) = b)
    (norm_ofSize : ∀ n ≤ max, F.norm (ofSize n) = ofSize n) : Format σ (List σ) where
  print word := F.print (ofSize (min word.length max)) ++ word.take max
  parse input :=
    (F.parse input).bind fun found =>
      if size found.1 ≤ max ∧ size found.1 ≤ found.2.length then
        some (found.2.take (size found.1), found.2.drop (size found.1))
      else none
  norm word := word.take max
  parse_print word rest := by
    have hmin : min word.length max ≤ max := Nat.min_le_right _ _
    have htake : (word.take max).length = min word.length max := by
      rw [List.length_take, Nat.min_comm]
    simp only [List.append_assoc, F.parse_print, Option.bind_some, norm_ofSize _ hmin,
      size_ofSize _ hmin, List.length_append]
    rw [if_pos ⟨hmin, by omega⟩, ← htake, List.take_left, List.drop_left]
  print_of_parse := by
    intro input word rest h
    obtain ⟨⟨b, unread⟩, hlength, h⟩ := Option.bind_eq_some_iff.mp h
    split at h
    next hsize =>
      obtain ⟨rfl, rfl⟩ := Prod.mk.inj (Option.some.inj h)
      have htaken : (unread.take (size b)).length = size b := by
        rw [List.length_take]; exact Nat.min_eq_left hsize.2
      rw [F.print_of_parse hlength, htaken, Nat.min_eq_left hsize.1, ofSize_size,
        List.append_assoc, List.take_of_length_le (htaken.trans_le hsize.1),
        List.take_append_drop]
    next => cases h

end Format

end F4MP.Library.WireFormat
