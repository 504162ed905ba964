import F4MP.Library.Trim
import F4MP.SessionModel

/-!
What sanitising makes of a name: a canonical one, the same for the client and the server;
and what spaces around a name cost it, which are cut off only after the length is clamped.
-/

namespace F4MP.NameRules

open F4MP.Types
open F4MP.Protocol
open F4MP.ServerModel
open F4MP.Library.Trim

/-- A name with its non-printable bytes removed. -/
def printable (name : Bytes) : Bytes := name.filter fun c => 0x20 ≤ c && c < 0x7F

def isSpace (c : UInt8) : Bool := c == 0x20

/-- The part of a name that is looked at. -/
def shown (name : Bytes) : Bytes := (printable name).take maxPlayerName

def defaultName : Bytes := ascii "Wastelander"

theorem sanitizeName_eq (name : Bytes) :
    sanitizeName name =
      if trim isSpace (shown name) = [] then defaultName else trim isSpace (shown name) := by
  have hclamp : (if (printable name).length > maxPlayerName then
      (printable name).take maxPlayerName else printable name) = shown name := by
    split
    · rfl
    · rename_i hshort
      exact (List.take_of_length_le (not_lt.mp hshort)).symm
  rw [sanitizeName, show (name.filter fun c => 0x20 ≤ c && c < 0x7F) = printable name from rfl,
    hclamp]
  simp only [List.isEmpty_iff]
  rfl

def Printable (c : UInt8) : Prop := 0x20 ≤ c ∧ c ≤ 0x7E

theorem mem_printable {name : Bytes} {c : UInt8} :
    c ∈ printable name ↔ c ∈ name ∧ Printable c := by
  have hlast : c < 0x7F ↔ c ≤ 0x7E := by
    rw [UInt8.lt_iff_toNat_lt, UInt8.le_iff_toNat_le]
    exact Nat.lt_succ_iff
  rw [printable, List.mem_filter, Printable, Bool.and_eq_true, decide_eq_true_eq,
    decide_eq_true_eq, hlast]

theorem printable_eq_self {name : Bytes} (h : ∀ c ∈ name, Printable c) : printable name = name := by
  rw [printable, List.filter_eq_self]
  intro c hc
  have hmem : c ∈ printable name := mem_printable.mpr ⟨hc, h c hc⟩
  exact (List.mem_filter.mp hmem).2

/-- A name that sanitising leaves as it is. -/
structure Canonical (name : Bytes) : Prop where
  nonempty : name ≠ []
  short : name.length ≤ maxPlayerName
  bytes : ∀ c ∈ name, Printable c
  trimmed : Trimmed isSpace name

theorem canonical_default : Canonical defaultName := by
  refine ⟨by decide, by decide, fun c hc => ?_, fun c hc => ?_, fun c hc => ?_⟩
  · have hall : (defaultName.all fun c => 0x20 ≤ c && c ≤ 0x7E) = true := by decide
    simpa [Printable] using List.all_eq_true.mp hall c hc
  · cases hc
    rfl
  · cases hc
    rfl

theorem Canonical.sanitizeName_eq_self {name : Bytes} (h : Canonical name) :
    sanitizeName name = name := by
  have hshown : shown name = name := by
    rw [shown, printable_eq_self h.bytes, List.take_of_length_le h.short]
  rw [sanitizeName_eq, hshown, h.trimmed.trim_eq, if_neg h.nonempty]

theorem canonical_sanitizeName (name : Bytes) : Canonical (sanitizeName name) := by
  refine ⟨?_, length_sanitizeName name, ?_, ?_⟩ <;> rw [sanitizeName_eq]
  · split
    · exact canonical_default.nonempty
    · assumption
  · split
    · exact canonical_default.bytes
    · intro c hc
      have hshown : c ∈ shown name := (isInfix_trim isSpace _).subset hc
      exact (mem_printable.mp (List.mem_of_mem_take hshown)).2
  · split
    · exact canonical_default.trimmed
    · exact trimmed_trim isSpace _

/-- A sanitised name is not empty, short, printable, without spaces at its ends, either the
default or a piece of what is printable of the name, and sanitised again the same; so the
server makes of the name a client sends what it would have made of the one it was given. -/
theorem sanitizeName_canonical (name : Bytes) :
    sanitizeName name ≠ [] ∧ (sanitizeName name).length ≤ 32 ∧
    (∀ c ∈ sanitizeName name, 0x20 ≤ c ∧ c ≤ 0x7E) ∧
    (sanitizeName name).head? ≠ some 0x20 ∧ (sanitizeName name).getLast? ≠ some 0x20 ∧
    (sanitizeName name = ascii "Wastelander" ∨ sanitizeName name <:+: printable name) ∧
    sanitizeName (sanitizeName name) = sanitizeName name ∧
    ∀ (session : SessionModel.Session) (s : Server) (peer : Peer) (player : Player),
      acceptName s peer player (SessionModel.setPlayerName session name).config.playerName =
        acceptName s peer player name := by
  have hcanonical := canonical_sanitizeName name
  have htwice := hcanonical.sanitizeName_eq_self
  refine ⟨hcanonical.nonempty, hcanonical.short, hcanonical.bytes, fun hhead => ?_,
    fun hlast => ?_, ?_, htwice, fun session s peer player => ?_⟩
  · exact absurd (hcanonical.trimmed.head _ hhead) (by decide)
  · exact absurd (hcanonical.trimmed.last _ hlast) (by decide)
  · rw [sanitizeName_eq]
    split
    · exact .inl rfl
    · exact .inr ((isInfix_trim isSpace _).trans (List.take_prefix _ _).isInfix)
  · rw [acceptName, acceptName, SessionModel.setPlayerName, htwice]

def spaces (count : Nat) : Bytes := List.replicate count 0x20

theorem isSpace_of_mem_spaces {count : Nat} {c : UInt8} (h : c ∈ spaces count) :
    isSpace c = true := by
  rw [List.eq_of_mem_replicate h]
  rfl

theorem printable_padded (name : Bytes) (i j : Nat) :
    printable (spaces i ++ name ++ spaces j) = spaces i ++ printable name ++ spaces j := by
  have hspaces : ∀ count, printable (spaces count) = spaces count := by
    intro count
    refine printable_eq_self fun c hc => ?_
    rw [List.eq_of_mem_replicate hc]
    exact ⟨by decide, by decide⟩
  rw [printable, List.filter_append, List.filter_append]
  exact congrArg₂ (· ++ ·) (congrArg (· ++ _) (hspaces i)) (hspaces j)

theorem trim_shown_padded (name : Bytes) (i j : Nat) :
    trim isSpace (shown (spaces i ++ name ++ spaces j)) =
      trim isSpace ((shown name).take (maxPlayerName - i)) := by
  have hshown : shown (spaces i ++ name ++ spaces j) =
      (spaces i).take maxPlayerName ++ ((printable name).take (maxPlayerName - i) ++
        (spaces j).take (maxPlayerName - i - (printable name).length)) := by
    rw [shown, printable_padded, List.append_assoc, List.take_append, List.take_append]
    simp only [spaces, List.length_replicate]
  have hroom : (shown name).take (maxPlayerName - i) =
      (printable name).take (maxPlayerName - i) := by
    rw [shown, List.take_take, min_eq_left (Nat.sub_le _ _)]
  rw [hshown, hroom, trim_append_left fun c hc => isSpace_of_mem_spaces (List.mem_of_mem_take hc),
    trim_append fun c hc => isSpace_of_mem_spaces (List.mem_of_mem_take hc)]

/-- Spaces in front cost nothing: they leave room for what is looked at of the name, or
there is nothing to lose, or the default is just what gets lost. -/
def PadFits (name : Bytes) (i : Nat) : Prop :=
  i + ((shown name).rdropWhile isSpace).length ≤ maxPlayerName ∨
  (∀ c ∈ shown name, c = 0x20) ∨
  trim isSpace (shown name) = defaultName ∧ ∀ c ∈ (shown name).take (maxPlayerName - i), c = 0x20

/-- The name becomes the default, which is not what is left of it. -/
def Replaced (name : Bytes) : Prop :=
  sanitizeName name = defaultName ∧ trim isSpace (shown name) ≠ defaultName

theorem trim_eq_nil_iff_spaces {name : Bytes} :
    trim isSpace name = [] ↔ ∀ c ∈ name, c = 0x20 := by
  rw [trim_eq_nil_iff]
  exact forall₂_congr fun c _ => beq_iff_eq

theorem replaced_iff (name : Bytes) : Replaced name ↔ ∀ c ∈ shown name, c = 0x20 := by
  rw [Replaced, sanitizeName_eq, ← trim_eq_nil_iff_spaces]
  by_cases hnil : trim isSpace (shown name) = []
  · rw [if_pos hnil, hnil]
    exact iff_of_true ⟨rfl, by decide⟩ rfl
  · rw [if_neg hnil]
    exact iff_of_false (fun h => h.2 h.1) hnil

theorem padded_iff (name : Bytes) (i j : Nat) :
    sanitizeName (spaces i ++ name ++ spaces j) = sanitizeName name ↔ PadFits name i := by
  have hsame : trim isSpace ((shown name).take (maxPlayerName - i)) = trim isSpace (shown name) ↔
      i + ((shown name).rdropWhile isSpace).length ≤ maxPlayerName ∨
        ∀ c ∈ shown name, c = 0x20 := by
    rw [trim_take_eq_iff, ← trim_eq_nil_iff_spaces, trim_eq_nil_iff,
      ← List.rdropWhile_eq_nil_iff, ← List.length_eq_zero_iff]
    omega
  rw [sanitizeName_eq, sanitizeName_eq, trim_shown_padded, PadFits, ← or_assoc, ← hsame,
    ← trim_eq_nil_iff_spaces]
  by_cases hshort : trim isSpace ((shown name).take (maxPlayerName - i)) = []
  · rw [if_pos hshort]
    by_cases hlong : trim isSpace (shown name) = []
    · rw [if_pos hlong, hshort, hlong]
      simp
    · rw [if_neg hlong, hshort]
      constructor
      · intro hdefault
        exact .inr ⟨hdefault.symm, rfl⟩
      · rintro (hnil | ⟨hdefault, -⟩)
        · exact absurd hnil.symm hlong
        · exact hdefault.symm
  · have hlong : trim isSpace (shown name) ≠ [] := by
      intro hnil
      rw [trim_eq_nil_iff] at hnil
      exact hshort (trim_eq_nil_iff.mpr fun c hc => hnil c (List.mem_of_mem_take hc))
    rw [if_neg hshort, if_neg hlong]
    exact ⟨.inl, fun h => h.resolve_right fun hlost => hshort hlost.2⟩

/-- Exactly when spaces around a name, its own or others, cost it nothing, and when it is
replaced. -/
theorem sanitizeName_padded (name : Bytes) (i j : Nat) :
    (sanitizeName (spaces i ++ name ++ spaces j) = sanitizeName name ↔ PadFits name i) ∧
    (sanitizeName name = sanitizeName (trim isSpace (printable name)) ↔
      PadFits (trim isSpace (printable name)) ((printable name).takeWhile isSpace).length) ∧
    (Replaced name ↔ ∀ c ∈ shown name, c = 0x20) := by
  refine ⟨padded_iff name i j, ?_, replaced_iff name⟩
  have hspaces : ∀ {pad : Bytes}, (∀ c ∈ pad, isSpace c = true) → pad = spaces pad.length :=
    fun hpad => List.eq_replicate_iff.mpr ⟨rfl, fun c hc => beq_iff_eq.mp (hpad c hc)⟩
  have hprintable : sanitizeName name = sanitizeName (printable name) := by
    have htwice : printable (printable name) = printable name :=
      printable_eq_self fun c hc => (mem_printable.mp hc).2
    rw [sanitizeName_eq, sanitizeName_eq, shown, shown, htwice]
  obtain ⟨pad, hpad, hsplit⟩ := exists_trim_append isSpace (printable name)
  rw [hspaces (fun c hc => List.mem_takeWhile_imp hc : ∀ c ∈ (printable name).takeWhile isSpace, _),
    hspaces hpad] at hsplit
  rw [hprintable, ← padded_iff _ _ pad.length, hsplit]

/-- The padding alone fills the room there is for the name. -/
theorem sanitizeName_loses_name :
    ¬ ∀ (name : Bytes) (i j : Nat),
      sanitizeName (spaces i ++ name ++ spaces j) = sanitizeName name := by
  intro h
  exact absurd (h (ascii "Akira") 32 0) (by decide)

end F4MP.NameRules
