import F4MP.Library.LastWrite
import F4MP.Library.Occurrences
import F4MP.IniModel

/-!
What a file means, line by line: a header, an entry or nothing.  Where neither the
section nor the key asked for holds a slash, the last entry under both is what is read,
and two files with the same meaning read alike.
-/

namespace F4MP.IniReading

open F4MP.Types
open F4MP.PrologueSkipModel
open F4MP.ServerConsole
open F4MP.IniModel
open F4MP.Library.LastWrite
open F4MP.Library.Occurrences

def isMark (b : UInt8) : Bool := b.toNat < 0x41 || 0x5A < b.toNat && b.toNat < 0x61

theorem toLower_eq_iff (b : UInt8) (hmark : isMark b = true) (c : UInt8) :
    toLower c = b ↔ c = b := by
  rw [toLower]
  split
  next hletter =>
    simp only [isMark, Bool.or_eq_true, Bool.and_eq_true, decide_eq_true_eq] at hmark
    simp only [Bool.and_eq_true, decide_eq_true_eq, UInt8.le_iff_toNat_le] at hletter
    change 65 ≤ c.toNat ∧ c.toNat ≤ 90 at hletter
    rw [← UInt8.toNat_inj, ← UInt8.toNat_inj, UInt8.toNat_add]
    change (c.toNat + 32) % 256 = _ ↔ _
    omega
  next => rfl

theorem mem_lower_iff (b : UInt8) (hmark : isMark b = true) (s : Bytes) : b ∈ lower s ↔ b ∈ s := by
  simp [lower, toLower_eq_iff b hmark]

theorem isSpace_toLower (c : UInt8) : isSpace (toLower c) = isSpace c := by
  rw [toLower]
  split
  next hletter =>
    simp only [Bool.and_eq_true, decide_eq_true_eq, UInt8.le_iff_toNat_le] at hletter
    change 65 ≤ c.toNat ∧ c.toNat ≤ 90 at hletter
    rw [Bool.eq_iff_iff, isSpace_iff, isSpace_iff, UInt8.toNat_add]
    change (c.toNat + 32) % 256 = 32 ∨ 9 ≤ (c.toNat + 32) % 256 ∧ (c.toNat + 32) % 256 ≤ 13 ↔ _
    omega
  next => rfl

theorem trim_lower (s : Bytes) : trim (lower s) = lower (trim s) := by
  have hspace : isSpace ∘ toLower = isSpace := funext isSpace_toLower
  simp only [trim, lower, List.rdropWhile, List.dropWhile_map, ← List.map_reverse, hspace]

/-- A header names a section; an entry assigns its value to its key. -/
inductive Line where
  | nothing
  | header (sectionName : Bytes)
  | entry (key value : Bytes)
deriving DecidableEq

def Ignored (line : Bytes) : Prop :=
  trim line = [] ∨ (trim line).head? = some 0x3B ∨ (trim line).head? = some 0x23

instance instDecidableIgnored (line : Bytes) : Decidable (Ignored line) :=
  inferInstanceAs (Decidable (_ ∨ _ ∨ _))

/-- Of the form `[...]`. -/
def Bracketed (line : Bytes) : Prop :=
  (trim line).head? = some 0x5B ∧ (trim line).getLast? = some 0x5D

instance instDecidableBracketed (line : Bytes) : Decidable (Bracketed line) :=
  inferInstanceAs (Decidable (_ ∧ _))

/-- What a line says, names and keys as they are written. -/
def reading (line : Bytes) : Line :=
  if Ignored line then .nothing
  else if Bracketed line then .header (((trim line).drop 1).take ((trim line).length - 2))
  else
    match (trim line).idxOf? 0x3D with
    | none => .nothing
    | some eq => .entry (trim ((trim line).take eq)) (trim ((trim line).drop (eq + 1)))

def Line.lowered : Line → Line
  | .nothing => .nothing
  | .header sectionName => .header (lower sectionName)
  | .entry key value => .entry (lower key) value

/-- What a lowered line does. -/
def perform (loading : Loading) : Line → Loading
  | .nothing => loading
  | .header sectionName => { loading with sectionName }
  | .entry key value =>
      { loading with
        values := loading.values.insert (loading.sectionName ++ ascii "/" ++ key) value }

theorem loadLine_eq (loading : Loading) (line : Bytes) :
    loadLine loading line = perform loading (reading line).lowered := by
  rw [loadLine, reading]
  change (if Ignored line then _ else if Bracketed line then _ else _) = _
  split
  next => rfl
  next =>
    split
    next => rfl
    next =>
      cases hequals : (trim line).idxOf? 0x3D with
      | none => rfl
      | some pos => rfl

/-- The section named by the nearest header, if there is one. -/
def headerOf (before : List Bytes) : Option Bytes :=
  (before.filterMap fun line =>
    match reading line with
    | .header sectionName => some sectionName
    | _ => none).getLast?

/-- The section a line stands in: the empty one before the first header. -/
def sectionOf (before : List Bytes) : Bytes := (headerOf before).getD []

/-- What a line assigns to a key of a section. -/
def assigned (sectionName key : Bytes) (before : List Bytes) (line : Bytes) : Option Bytes :=
  match reading line with
  | .entry k v =>
      if lower (sectionOf before) = lower sectionName ∧ lower k = lower key then some v else none
  | _ => none

def slash : UInt8 := 0x2F

/-- A path leads to one section and key, if these hold no slash. -/
theorem path_eq_iff {sectionName key : Bytes} (hsection : slash ∉ sectionName)
    (hkey : slash ∉ key) (other k : Bytes) :
    other ++ ascii "/" ++ k = lower sectionName ++ ascii "/" ++ lower key ↔
      other = lower sectionName ∧ k = lower key := by
  rw [List.append_assoc, List.append_assoc]
  exact append_cons_inj (mt (mem_lower_iff slash rfl _).mp hsection)
    (mt (mem_lower_iff slash rfl _).mp hkey)

theorem sectionName_loadLine {loading : Loading} {front : List Bytes}
    (hloading : loading.sectionName = lower (sectionOf front)) (line : Bytes) :
    (loadLine loading line).sectionName = lower (sectionOf (front ++ [line])) := by
  rw [loadLine_eq, sectionOf, headerOf, List.filterMap_append]
  cases hreading : reading line <;>
    simp [perform, Line.lowered, hreading, hloading, sectionOf, headerOf]

theorem lookup_loadLine {sectionName key : Bytes} (hsection : slash ∉ sectionName)
    (hkey : slash ∉ key) {loading : Loading} {front : List Bytes}
    (hloading : loading.sectionName = lower (sectionOf front)) (line : Bytes) :
    (loadLine loading line).values.lookup (lower sectionName ++ ascii "/" ++ lower key) =
      (assigned sectionName key front line).or
        (loading.values.lookup (lower sectionName ++ ascii "/" ++ lower key)) := by
  rw [loadLine_eq, assigned]
  cases hreading : reading line with
  | nothing | header => rfl
  | entry k v =>
      simp only [perform, Line.lowered, hloading]
      by_cases hpath : lower (sectionOf front) = lower sectionName ∧ lower k = lower key
      · rw [if_pos hpath, hpath.1, hpath.2, AList.lookup_insert]
        rfl
      · rw [if_neg hpath, AList.lookup_insert_ne]
        · rfl
        · exact fun heq => hpath ((path_eq_iff hsection hkey _ _).mp heq.symm)

theorem lookup_foldl {sectionName key : Bytes} (hsection : slash ∉ sectionName)
    (hkey : slash ∉ key) {loading : Loading} {front : List Bytes}
    (hloading : loading.sectionName = lower (sectionOf front)) (rest : List Bytes) :
    (rest.foldl loadLine loading).values.lookup (lower sectionName ++ ascii "/" ++ lower key) =
      (lastAfter (assigned sectionName key) front rest).or
        (loading.values.lookup (lower sectionName ++ ascii "/" ++ lower key)) := by
  induction rest generalizing loading front with
  | nil => rfl
  | cons line rest ih =>
      rw [List.foldl_cons, ih (sectionName_loadLine hloading line),
        lookup_loadLine hsection hkey hloading, lastAfter, Option.or_assoc]

theorem get_load {sectionName key : Bytes} (hsection : slash ∉ sectionName) (hkey : slash ∉ key)
    (file fallback : Bytes) :
    (load file).get sectionName key fallback =
      (lastAfter (assigned sectionName key) [] (lines file)).getD fallback := by
  have hstart : ({} : Loading).sectionName = lower (sectionOf []) := rfl
  rw [Ini.get, load, lookup_foldl hsection hkey hstart]
  change (Option.or _ none).getD fallback = _
  rw [Option.or_none]

end F4MP.IniReading
