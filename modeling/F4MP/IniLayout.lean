import Mathlib.Logic.Relation
import F4MP.IniReading

/-!
The layout of a file: blank lines and comments, whitespace around what a line says, and
the case of names and keys.  None of it changes what is read.
-/

namespace F4MP.IniLayout

open F4MP.Types
open F4MP.ServerConsole
open F4MP.IniModel
open F4MP.IniReading
open F4MP.Library.LastWrite
open F4MP.Library.Occurrences

def unlines (ls : List Bytes) : Bytes := List.intercalate [0x0A] ls

def Unbroken (ls : List Bytes) : Prop := ∀ line ∈ ls, 0x0A ∉ line

/-- Every file is some lines joined, so that what is said of these is said of all files. -/
theorem exists_unlines (file : Bytes) : ∃ ls, Unbroken ls ∧ file = unlines ls := by
  suffices h : ∃ line ls, Unbroken (line :: ls) ∧ file = unlines (line :: ls) by
    obtain ⟨line, ls, h⟩ := h
    exact ⟨line :: ls, h⟩
  induction file with
  | nil => exact ⟨[], [], by simp [Unbroken], rfl⟩
  | cons c file ih =>
      obtain ⟨line, ls, hunbroken, rfl⟩ := ih
      by_cases hbreak : c = 0x0A
      · refine ⟨[], line :: ls, List.forall_mem_cons.mpr ⟨by simp, hunbroken⟩, ?_⟩
        rw [hbreak]
        simp [unlines, List.intercalate]
      · obtain ⟨hline, hls⟩ := List.forall_mem_cons.mp hunbroken
        refine ⟨c :: line, ls, List.forall_mem_cons.mpr ⟨by simp [hline, Ne.symm hbreak], hls⟩, ?_⟩
        cases ls <;> simp [unlines, List.intercalate]

/-- What some lines say, in lower case and without those that say nothing. -/
def meaning (ls : List Bytes) : List Line :=
  (ls.map fun line => (reading line).lowered).filter fun line => line ≠ .nothing

theorem meaning_append (ls ls' : List Bytes) : meaning (ls ++ ls') = meaning ls ++ meaning ls' := by
  simp [meaning]

theorem meaning_cons (line : Bytes) (ls : List Bytes) :
    meaning (line :: ls) = meaning [line] ++ meaning ls :=
  meaning_append [line] ls

theorem meaning_ignored {line : Bytes} (hignored : Ignored line) : meaning [line] = [] := by
  simp [meaning, reading, hignored, Line.lowered]

theorem foldl_perform_filter (loading : Loading) (said : List Line) :
    (said.filter fun line => line ≠ .nothing).foldl perform loading =
      said.foldl perform loading := by
  induction said generalizing loading with
  | nil => rfl
  | cons line said ih =>
      cases line with
      | nothing => exact ih loading
      | header sectionName => exact ih _
      | entry key value => exact ih _

theorem load_eq_meaning (file : Bytes) :
    load file = { values := ((meaning (lines file)).foldl perform {}).values } := by
  rw [meaning, foldl_perform_filter, List.foldl_map, load]
  simp only [← loadLine_eq]

theorem meaning_lines {ls : List Bytes} (hls : Unbroken ls) :
    meaning (lines (unlines ls)) = meaning ls := by
  by_cases hnil : ls = []
  · subst hnil
    rfl
  · have hsplit : (unlines ls).splitOn 0x0A = ls := List.splitOn_intercalate _ hls hnil
    rw [lines, hsplit]
    split
    next hempty =>
      obtain ⟨front, rfl⟩ : ∃ front, ls = front ++ [[]] :=
        List.getLast?_eq_some_iff.mp hempty
      rw [List.dropLast_concat, meaning_append, meaning_ignored (.inl rfl), List.append_nil]
    next => rfl

theorem reading_congr {line line' : Bytes} (htrim : trim line = trim line') :
    reading line = reading line' := by
  have hignored : Ignored line ↔ Ignored line' := by rw [Ignored, Ignored, htrim]
  have hbracketed : Bracketed line ↔ Bracketed line' := by rw [Bracketed, Bracketed, htrim]
  simp only [reading, hignored, hbracketed, htrim]

theorem trim_padded {pad pad' : Bytes} (hpad : ∀ c ∈ pad, isSpace c = true)
    (hpad' : ∀ c ∈ pad', isSpace c = true) (line : Bytes) :
    trim (pad ++ line ++ pad') = trim line := by
  rw [trim_eq, trim_eq, Library.Trim.trim_append hpad', Library.Trim.trim_append_left hpad]

theorem trim_append_cons {b : UInt8} (hb : isSpace b = false) (front back : Bytes) :
    trim (front ++ b :: back) = front.dropWhile isSpace ++ b :: back.rdropWhile isSpace := by
  have hdrop : ∀ s t : Bytes, (s ++ b :: t).dropWhile isSpace = s.dropWhile isSpace ++ b :: t := by
    intro s t
    rw [List.dropWhile_append]
    split
    next hempty => simp [List.isEmpty_iff.mp hempty, hb]
    next => rfl
  rw [trim, hdrop, List.rdropWhile, List.reverse_append, List.reverse_cons, List.append_assoc,
    List.singleton_append, hdrop]
  simp [List.rdropWhile]

theorem head?_dropWhile_append {pad : Bytes} (hpad : ∀ c ∈ pad, isSpace c = true) (s : Bytes) :
    ((s ++ pad).dropWhile isSpace).head? = (s.dropWhile isSpace).head? := by
  have hnone : pad.find? (fun c => !isSpace c) = none := by
    simpa using hpad
  rw [← List.find?_not_eq_head?_dropWhile, ← List.find?_not_eq_head?_dropWhile, List.find?_append,
    hnone, Option.or_none]

theorem ignored_iff_head? (line : Bytes) :
    Ignored line ↔ (trim line).head? = none ∨ (trim line).head? = some 0x3B ∨
      (trim line).head? = some 0x23 := by
  rw [List.head?_eq_none_iff, Ignored]

theorem ends_spread {b : UInt8} (hb : isSpace b = false) {pad pad' : Bytes}
    (hpad : ∀ c ∈ pad, isSpace c = true) (hpad' : ∀ c ∈ pad', isSpace c = true)
    (front back : Bytes) :
    (trim (front ++ pad ++ b :: (pad' ++ back))).head? = (trim (front ++ b :: back)).head? ∧
      (trim (front ++ pad ++ b :: (pad' ++ back))).getLast? =
        (trim (front ++ b :: back)).getLast? := by
  have hlast : ((pad' ++ back).rdropWhile isSpace).getLast? =
      (back.rdropWhile isSpace).getLast? := by
    rw [List.rdropWhile, List.rdropWhile, List.getLast?_reverse, List.getLast?_reverse,
      List.reverse_append]
    exact head?_dropWhile_append (by simpa using hpad') _
  rw [trim_append_cons hb, trim_append_cons hb]
  constructor
  · rw [List.head?_append, List.head?_append, head?_dropWhile_append hpad]
    rfl
  · rw [List.getLast?_append, List.getLast?_append, List.getLast?_cons, List.getLast?_cons, hlast]
    rfl

/-- A `Key=Value` line: not to be ignored, not in brackets, and split at its first `=`. -/
structure Entry (key value : Bytes) : Prop where
  first : 0x3D ∉ key
  said : ¬Ignored (key ++ 0x3D :: value)
  unbracketed : ¬Bracketed (key ++ 0x3D :: value)

theorem Entry.reading_eq {key value : Bytes} (hentry : Entry key value) :
    reading (key ++ 0x3D :: value) = .entry (trim key) (trim value) := by
  have hfirst : 0x3D ∉ key.dropWhile isSpace := fun hmem =>
    hentry.first ((List.dropWhile_sublist isSpace).subset hmem)
  have hkey : trim (key.dropWhile isSpace) = trim key := by
    rw [trim, trim, List.dropWhile_idempotent]
  have hvalue : trim (value.rdropWhile isSpace) = trim value := by
    rw [trim_eq, trim_eq, Library.Trim.trim, Library.Trim.trim, List.rdropWhile_idempotent]
  rw [reading, if_neg hentry.said, if_neg hentry.unbracketed, trim_append_cons (by decide),
    idxOf?_append_cons hfirst]
  simp [hkey, hvalue]

theorem Entry.spread {key value : Bytes} (hentry : Entry key value) {pad pad' : Bytes}
    (hpad : ∀ c ∈ pad, isSpace c = true) (hpad' : ∀ c ∈ pad', isSpace c = true) :
    Entry (key ++ pad) (pad' ++ value) where
  first := by
    intro hmem
    rcases List.mem_append.mp hmem with hkey | hspace
    · exact hentry.first hkey
    · exact absurd (hpad _ hspace) (by decide)
  said := by
    rw [ignored_iff_head?, (ends_spread (by decide) hpad hpad' key value).1, ← ignored_iff_head?]
    exact hentry.said
  unbracketed := by
    obtain ⟨hhead, hlast⟩ := ends_spread (b := 0x3D) (by decide) hpad hpad' key value
    rw [Bracketed, hhead, hlast]
    exact hentry.unbracketed

theorem ends_lower {b : UInt8} (hmark : isMark b = true) (line : Bytes) :
    ((trim (lower line)).head? = some b ↔ (trim line).head? = some b) ∧
      ((trim (lower line)).getLast? = some b ↔ (trim line).getLast? = some b) := by
  rw [trim_lower, lower, List.head?_map, List.getLast?_map]
  simp [toLower_eq_iff b hmark]

theorem Entry.recased {key key' value : Bytes} (hentry : Entry key value)
    (hlower : lower key' = lower key) : Entry key' value := by
  have hline : lower (key' ++ 0x3D :: value) = lower (key ++ 0x3D :: value) := by
    simp only [lower, List.map_append, List.map_cons] at hlower ⊢
    rw [hlower]
  have hhead : ∀ b, isMark b = true → ((trim (key' ++ 0x3D :: value)).head? = some b ↔
      (trim (key ++ 0x3D :: value)).head? = some b) := by
    intro b hmark
    rw [← (ends_lower hmark _).1, hline, (ends_lower hmark _).1]
  have hlast : ∀ b, isMark b = true → ((trim (key' ++ 0x3D :: value)).getLast? = some b ↔
      (trim (key ++ 0x3D :: value)).getLast? = some b) := by
    intro b hmark
    rw [← (ends_lower hmark _).2, hline, (ends_lower hmark _).2]
  have hnil : ∀ k, trim (k ++ 0x3D :: value) ≠ [] := by
    intro k
    rw [trim_append_cons (by decide)]
    simp
  constructor
  case first =>
      rw [← mem_lower_iff 0x3D rfl, hlower, mem_lower_iff 0x3D rfl]
      exact hentry.first
  case said =>
      have hsaid := hentry.said
      simp only [Ignored, hnil, false_or, hhead 0x3B rfl, hhead 0x23 rfl] at hsaid ⊢
      exact hsaid
  case unbracketed =>
      rw [Bracketed, hhead 0x5B rfl, hlast 0x5D rfl]
      exact hentry.unbracketed

theorem reading_header (sectionName : Bytes) :
    reading (0x5B :: sectionName ++ [0x5D]) = .header sectionName := by
  have htrim : trim (0x5B :: sectionName ++ [0x5D]) = 0x5B :: sectionName ++ [0x5D] := by
    have hclose := trim_append_cons (b := 0x5D) (by decide) (0x5B :: sectionName) []
    simpa [isSpace] using hclose
  have hsaid : ¬Ignored (0x5B :: sectionName ++ [0x5D]) := by
    rw [Ignored, htrim]
    simp
  have hbracketed : Bracketed (0x5B :: sectionName ++ [0x5D]) := by
    rw [Bracketed, htrim]
    exact ⟨rfl, List.getLast?_concat ..⟩
  rw [reading, if_neg hsaid, if_pos hbracketed, htrim]
  simp

/-- Whitespace within a line. -/
def Blank (pad : Bytes) : Prop := ∀ c ∈ pad, isSpace c = true ∧ c ≠ 0x0A

/-- One change of the layout of a file: a line that says nothing more, or, in one line,
whitespace at its ends or around its first `=`, or the case of a name or a key. -/
inductive Relaid : Bytes → Bytes → Prop
  | ignored {before after : List Bytes} {line : Bytes} :
      Unbroken (before ++ line :: after) → Ignored line →
        Relaid (unlines (before ++ after)) (unlines (before ++ line :: after))
  | padded {before after : List Bytes} {line pad pad' : Bytes} :
      Unbroken (before ++ line :: after) → Blank pad → Blank pad' →
        Relaid (unlines (before ++ line :: after)) (unlines (before ++ (pad ++ line ++ pad') :: after))
  | spread {before after : List Bytes} {key value pad pad' : Bytes} :
      Unbroken (before ++ (key ++ 0x3D :: value) :: after) → Entry key value →
        Blank pad → Blank pad' →
        Relaid (unlines (before ++ (key ++ 0x3D :: value) :: after))
          (unlines (before ++ (key ++ pad ++ 0x3D :: (pad' ++ value)) :: after))
  | header {before after : List Bytes} {sectionName sectionName' : Bytes} :
      Unbroken (before ++ (0x5B :: sectionName ++ [0x5D]) :: after) →
        lower sectionName' = lower sectionName →
        Relaid (unlines (before ++ (0x5B :: sectionName ++ [0x5D]) :: after))
          (unlines (before ++ (0x5B :: sectionName' ++ [0x5D]) :: after))
  | key {before after : List Bytes} {key key' value : Bytes} :
      Unbroken (before ++ (key ++ 0x3D :: value) :: after) → Entry key value →
        lower key' = lower key →
        Relaid (unlines (before ++ (key ++ 0x3D :: value) :: after))
          (unlines (before ++ (key' ++ 0x3D :: value) :: after))

theorem Blank.isSpace {pad : Bytes} (hpad : Blank pad) : ∀ c ∈ pad, isSpace c = true :=
  fun c hc => (hpad c hc).1

theorem Blank.not_mem {pad : Bytes} (hpad : Blank pad) : 0x0A ∉ pad :=
  fun hmem => (hpad _ hmem).2 rfl

theorem load_replace {before after : List Bytes} {line line' : Bytes}
    (hunbroken : Unbroken (before ++ line :: after)) (hline' : 0x0A ∉ line')
    (hsame : (reading line').lowered = (reading line).lowered) :
    load (unlines (before ++ line' :: after)) = load (unlines (before ++ line :: after)) := by
  have hunbroken' : Unbroken (before ++ line' :: after) := by
    intro other hother
    rcases List.mem_append.mp hother with hbefore | hother
    · exact hunbroken other (List.mem_append_left _ hbefore)
    · rcases List.mem_cons.mp hother with rfl | hafter
      · exact hline'
      · exact hunbroken other (List.mem_append_right _ (List.mem_cons_of_mem _ hafter))
  have hmeaning : meaning [line'] = meaning [line] := by simp [meaning, hsame]
  rw [load_eq_meaning, load_eq_meaning, meaning_lines hunbroken', meaning_lines hunbroken,
    meaning_append, meaning_append, meaning_cons line', meaning_cons line, hmeaning]

theorem load_relaid {file file' : Bytes} (hrelaid : Relaid file file') : load file' = load file := by
  cases hrelaid with
  | ignored hunbroken hignored =>
      rename_i before after line
      have hunbroken' : Unbroken (before ++ after) := by
        intro other hother
        refine hunbroken other ?_
        rcases List.mem_append.mp hother with hbefore | hafter
        · exact List.mem_append_left _ hbefore
        · exact List.mem_append_right _ (List.mem_cons_of_mem _ hafter)
      rw [load_eq_meaning, load_eq_meaning, meaning_lines hunbroken, meaning_lines hunbroken',
        meaning_append, meaning_append, meaning_cons, meaning_ignored hignored, List.nil_append]
  | padded hunbroken hpad hpad' =>
      rename_i before after line pad pad'
      have hline : 0x0A ∉ line := hunbroken _ (List.mem_append_right _ List.mem_cons_self)
      refine load_replace hunbroken ?_ ?_
      · simp [hline, hpad.not_mem, hpad'.not_mem]
      · rw [reading_congr (trim_padded hpad.isSpace hpad'.isSpace line)]
  | spread hunbroken hentry hpad hpad' =>
      rename_i before after key value pad pad'
      have hline : 0x0A ∉ key ++ 0x3D :: value :=
        hunbroken _ (List.mem_append_right _ List.mem_cons_self)
      have hnothing : ∀ c ∈ ([] : Bytes), isSpace c = true := by rintro c ⟨⟩
      have hkey : trim (key ++ pad) = trim key := trim_padded hnothing hpad.isSpace key
      have hvalue : trim (pad' ++ value) = trim value := by
        simpa using trim_padded hpad'.isSpace hnothing value
      refine load_replace hunbroken ?_ ?_
      · simpa [hpad.not_mem, hpad'.not_mem] using hline
      · rw [(hentry.spread hpad.isSpace hpad'.isSpace).reading_eq, hentry.reading_eq, hkey, hvalue]
  | header hunbroken hlower =>
      rename_i before after sectionName sectionName'
      have hline : 0x0A ∉ 0x5B :: sectionName ++ [0x5D] :=
        hunbroken _ (List.mem_append_right _ List.mem_cons_self)
      have hname : 0x0A ∉ sectionName' := by
        rw [← mem_lower_iff 0x0A rfl, hlower, mem_lower_iff 0x0A rfl]
        exact fun hmem => hline (by simp [hmem])
      refine load_replace hunbroken (by simpa using hname) ?_
      rw [reading_header, reading_header, Line.lowered, Line.lowered, hlower]
  | key hunbroken hentry hlower =>
      rename_i before after key key' value
      have hline : 0x0A ∉ key ++ 0x3D :: value :=
        hunbroken _ (List.mem_append_right _ List.mem_cons_self)
      have hkey : 0x0A ∉ key' := by
        rw [← mem_lower_iff 0x0A rfl, hlower, mem_lower_iff 0x0A rfl]
        exact fun hmem => hline (List.mem_append_left _ hmem)
      have hvalue : 0x0A ∉ value := fun hmem => hline (by simp [hmem])
      refine load_replace hunbroken (by simp [hkey, hvalue]) ?_
      rw [(hentry.recased hlower).reading_eq, hentry.reading_eq, Line.lowered, Line.lowered,
        ← trim_lower, ← trim_lower, hlower]

/-- The last assignment wins, and layout is irrelevant.  For names without a slash what is
read is the value of the last line that assigns one, and the fallback if none does; and
files that differ in layout only read alike, in whatever case one asks. -/
theorem ini_reading (file : Bytes) :
    (∀ sectionName key fallback, slash ∉ sectionName → slash ∉ key →
      (∀ before line after value, lines file = before ++ line :: after →
        assigned sectionName key before line = some value →
        Unwritten (assigned sectionName key) (before ++ [line]) after →
        (load file).get sectionName key fallback = value) ∧
      (Unwritten (assigned sectionName key) [] (lines file) →
        (load file).get sectionName key fallback = fallback)) ∧
    ∀ file', Relation.EqvGen Relaid file file' → ∀ sectionName sectionName' key key',
      lower sectionName' = lower sectionName → lower key' = lower key →
      (∀ fallback, (load file').get sectionName' key' fallback =
        (load file).get sectionName key fallback) ∧
      (∀ fallback, (load file').getInt sectionName' key' fallback =
        (load file).getInt sectionName key fallback) ∧
      ∀ fallback, (load file').getBool sectionName' key' fallback =
        (load file).getBool sectionName key fallback := by
  refine ⟨fun sectionName key fallback hsection hkey => ⟨?_, ?_⟩, ?_⟩
  · intro before line after value hsplit hassigned hlast
    rw [get_load hsection hkey, hsplit, lastAfter_eq_some hassigned hlast]
    rfl
  · intro hnone
    rw [get_load hsection hkey, lastAfter_eq_none_iff.mpr hnone]
    rfl
  · intro file' hrelaid sectionName sectionName' key key' hsection hkey
    have hload : load file' = load file := by
      induction hrelaid with
      | rel file file' hrelaid => exact load_relaid hrelaid
      | refl file => rfl
      | symm file file' _ ih => exact ih.symm
      | trans file file' file'' _ _ ih ih' => exact ih'.trans ih
    have hget : ∀ fallback, (load file').get sectionName' key' fallback =
        (load file).get sectionName key fallback := by
      intro fallback
      rw [hload, Ini.get, Ini.get, hsection, hkey]
    exact ⟨hget, fun fallback => by rw [Ini.getInt, Ini.getInt, hget],
      fun fallback => by rw [Ini.getBool, Ini.getBool, hget]⟩

/-- A port that is given twice, and one in another section. -/
def portLines : List Bytes :=
  [ascii "[Server]", ascii "Port = 7777", ascii " port=7779 ", ascii "[Client]", ascii "Port=1"]

/-- The last port of the section is read, and a comment changes nothing. -/
theorem last_port_is_read :
    (load (unlines portLines)).get (ascii "server") (ascii "PORT") [] = ascii "7779" ∧
      (load (unlines (ascii "; ports" :: portLines))).getInt (ascii "Server") (ascii "Port") 0 =
        (load (unlines portLines)).getInt (ascii "server") (ascii "PORT") 0 := by
  have hreading := ini_reading (unlines portLines)
  constructor
  · exact (hreading.1 (ascii "server") (ascii "PORT") [] (by decide) (by decide)).1
      (portLines.take 2) (ascii " port=7779 ") (portLines.drop 3) (ascii "7779") (by decide +kernel)
      (by decide +kernel) (lastAfter_eq_none_iff.mp (by decide +kernel))
  · have hcomment : Relaid (unlines ([] ++ portLines))
        (unlines ([] ++ ascii "; ports" :: portLines)) :=
      .ignored (by rw [Unbroken]; decide +kernel) (by rw [Ignored]; decide +kernel)
    exact (hreading.2 _ (.rel _ _ hcomment) _ _ _ _ (by decide +kernel) (by decide +kernel)).2.1 0

/-- What a line assigns under a header that is there. -/
def assignedUnderHeader (sectionName key : Bytes) (before : List Bytes) (line : Bytes) :
    Option Bytes :=
  if (headerOf before).isSome then assigned sectionName key before line else none

/-- A line before the first header belongs to the section without a name. -/
theorem ini_headerless : ¬ ∀ file sectionName key fallback : Bytes,
    slash ∉ sectionName → slash ∉ key →
    Unwritten (assignedUnderHeader sectionName key) [] (lines file) →
      (load file).get sectionName key fallback = fallback := by
  intro h
  have hread : (load (ascii "a=1")).get [] (ascii "a") [] = ascii "1" := by decide +kernel
  have hfallback := h (ascii "a=1") [] (ascii "a") [] (by decide) (by decide)
    (lastAfter_eq_none_iff.mp (by decide +kernel))
  exact absurd (hread.symm.trans hfallback) (by decide)

end F4MP.IniLayout
