import F4MP.ClientConfig
import F4MP.IniLayout
import F4MP.Native

/-!
The list of skip commands: what the splitting loop makes of any value, that it ends, and
that a list written on one line is read back.
-/

namespace F4MP.SkipCommands

open F4MP.Types
open F4MP.Arith
open F4MP.ServerConsole
open F4MP.IniModel
open F4MP.IniReading
open F4MP.IniLayout
open F4MP.ClientConfig
open F4MP.Library.LastWrite
open F4MP.Library.Occurrences

def semicolon : UInt8 := 0x3B

def trimBlank (item : Bytes) : Bytes := Library.Trim.trim isBlank item

/-- The items of a list that are not empty, without the blanks around them. -/
def commandsOf (list : Bytes) : List Bytes :=
  ((list.splitOn semicolon).map trimBlank).filter fun item => item ≠ []

theorem findIdx?_append_cons {p : UInt8 → Bool} {front : Bytes} (hfront : ∀ c ∈ front, p c = false)
    {c : UInt8} (hc : p c = true) (back : Bytes) :
    (front ++ c :: back).findIdx? p = some front.length := by
  have hnone : front.findIdx? p = none := List.findIdx?_eq_none_iff.mpr hfront
  rw [List.findIdx?_append, hnone, List.findIdx?_cons, if_pos hc]
  simp

theorem pushItem_eq (commands : List Bytes) (item : Bytes) :
    pushItem commands item = commands ++ [trimBlank item].filter fun item => item ≠ [] := by
  obtain ⟨back, hback, hsplit⟩ := Library.Trim.exists_trim_append isBlank item
  have htrimmed := Library.Trim.trimmed_trim isBlank item
  have hfront : ∀ c ∈ item.takeWhile isBlank, (!isBlank c) = false := by
    intro c hc
    rw [List.mem_takeWhile_imp hc]
    rfl
  have hback : ∀ c ∈ back.reverse, (!isBlank c) = false := by
    intro c hc
    rw [hback c (List.mem_reverse.mp hc)]
    rfl
  change item.takeWhile isBlank ++ trimBlank item ++ back = item at hsplit
  change Library.Trim.Trimmed isBlank (trimBlank item) at htrimmed
  generalize item.takeWhile isBlank = front at hfront hsplit
  generalize trimBlank item = middle at htrimmed hsplit
  subst hsplit
  rcases List.eq_nil_or_concat middle with rfl | ⟨init, y, hmiddle⟩
  · have hnone : findFirstNotBlank (front ++ [] ++ back) = none := by
      refine List.findIdx?_eq_none_iff.mpr fun c hc => ?_
      rw [List.append_nil] at hc
      exact (List.mem_append.mp hc).elim (hfront c) fun hc => hback c (by simpa using hc)
    rw [pushItem, hnone]
    simp
  · obtain ⟨c, rest, hcons⟩ := List.exists_cons_of_ne_nil (l := middle) (by simp [hmiddle])
    have hc : (!isBlank c) = true := by
      rw [htrimmed.head c (by simp [hcons])]
      rfl
    have hy : (!isBlank y) = true := by
      rw [htrimmed.last y (by simp [hmiddle])]
      rfl
    have hfirst : findFirstNotBlank (front ++ middle ++ back) = some front.length := by
      rw [findFirstNotBlank, hcons, List.append_assoc, List.cons_append,
        findIdx?_append_cons hfront hc]
    have hlast : findLastNotBlank (front ++ middle ++ back) =
        some ((front ++ middle ++ back).length - 1 - back.length) := by
      have hreverse : (front ++ middle ++ back).reverse =
          back.reverse ++ y :: (init.reverse ++ front.reverse) := by
        simp [hmiddle]
      rw [findLastNotBlank, hreverse, findIdx?_append_cons hback hy]
      simp
    have hlength : (front ++ middle ++ back).length - 1 - back.length - front.length + 1 =
        middle.length := by
      have hpos : 0 < middle.length := by simp [hmiddle]
      simp only [List.length_append]
      omega
    rw [pushItem, hfirst, hlast]
    simp only [hlength]
    simp [hcons]

theorem commandsOf_append_cons (front back : Bytes) :
    commandsOf (front ++ semicolon :: back) = commandsOf front ++ commandsOf back := by
  rw [commandsOf, List.splitOn_append_cons_self, List.map_append, List.filter_append]
  rfl

theorem commandsOf_of_not_mem {item : Bytes} (hitem : semicolon ∉ item) :
    commandsOf item = [trimBlank item].filter fun item => item ≠ [] := by
  rw [commandsOf, List.splitOn_eq_singleton hitem]
  rfl

theorem splitCommands_eq {fuel start : Nat} {list : Bytes} (hfuel : list.length + 1 < fuel + start)
    (hstart : start ≤ list.length + 1) (commands : List Bytes) :
    splitCommands fuel list start commands =
      some (commands ++ if start ≤ list.length then commandsOf (list.drop start) else []) := by
  induction fuel generalizing start commands with
  | zero => omega
  | succ fuel ih =>
      rw [splitCommands]
      by_cases hleft : start ≤ list.length
      · rw [if_pos hleft, if_pos hleft]
        have hlength := List.length_drop (l := list) (i := start)
        generalize hrest : list.drop start = rest at hlength
        by_cases hmem : semicolon ∈ rest
        · obtain ⟨front, back, rfl, hfront⟩ := List.eq_append_cons_of_mem hmem
          have hfind : findFrom 0x3B list start = some (start + front.length) := by
            rw [findFrom, hrest]
            exact congrArg _ (idxOf?_append_cons hfront back)
          have hback : list.drop (start + front.length + 1) = back := by
            rw [Nat.add_assoc, ← List.drop_drop, hrest]
            simp
          simp only [List.length_append, List.length_cons] at hlength
          rw [hfind, ih (by simp only [Option.getD_some]; omega)
            (by simp only [Option.getD_some]; omega)]
          simp only [Option.getD_some, Nat.add_sub_cancel_left, List.take_left', hback]
          rw [if_pos (by omega), pushItem_eq, commandsOf_append_cons, List.append_assoc,
            commandsOf_of_not_mem hfront]
        · have hnone : rest.idxOf? 0x3B = none := List.idxOf?_eq_none_iff.mpr hmem
          have hfind : findFrom 0x3B list start = none := by
            rw [findFrom, hrest, hnone]
            rfl
          have hitem : rest.take (list.length - start) = rest :=
            List.take_of_length_le (by omega)
          rw [hfind, ih (by simp only [Option.getD_none]; omega)
            (by simp only [Option.getD_none]; omega)]
          simp only [Option.getD_none, hitem]
          rw [if_neg (by omega), List.append_nil, pushItem_eq, commandsOf_of_not_mem hmem]
      · rw [if_neg hleft, if_neg hleft, List.append_nil]

theorem splitCommands_enough (list : Bytes) :
    splitCommands (enoughRounds list) list 0 [] = some (commandsOf list) := by
  rw [splitCommands_eq (by rw [enoughRounds]; omega) (Nat.zero_le _), if_pos (Nat.zero_le _)]
  rfl

theorem blank_not_mem {pad : Bytes} (hpad : ∀ c ∈ pad, isBlank c = true) : semicolon ∉ pad :=
  fun hmem => absurd (hpad _ hmem) (by decide)

theorem commandsOf_append_left {pad : Bytes} (hpad : ∀ c ∈ pad, isBlank c = true) (list : Bytes) :
    commandsOf (pad ++ list) = commandsOf list := by
  have hitem : ∀ item, semicolon ∉ item → commandsOf (pad ++ item) = commandsOf item := by
    intro item hitem
    have hnot : semicolon ∉ pad ++ item := by simp [blank_not_mem hpad, hitem]
    rw [commandsOf_of_not_mem hnot, commandsOf_of_not_mem hitem, trimBlank, trimBlank,
      Library.Trim.trim_append_left hpad]
  by_cases hmem : semicolon ∈ list
  · obtain ⟨front, back, rfl, hfront⟩ := List.eq_append_cons_of_mem hmem
    rw [← List.append_assoc, commandsOf_append_cons, commandsOf_append_cons, hitem front hfront]
  · exact hitem list hmem

theorem commandsOf_append {pad : Bytes} (hpad : ∀ c ∈ pad, isBlank c = true) (list : Bytes) :
    commandsOf (list ++ pad) = commandsOf list := by
  have hitem : ∀ item, semicolon ∉ item → commandsOf (item ++ pad) = commandsOf item := by
    intro item hitem
    have hnot : semicolon ∉ item ++ pad := by simp [blank_not_mem hpad, hitem]
    rw [commandsOf_of_not_mem hnot, commandsOf_of_not_mem hitem, trimBlank, trimBlank,
      Library.Trim.trim_append hpad]
  by_cases hmem : semicolon ∈ list
  · obtain ⟨front, back, rfl, hback⟩ := exists_append_cons_of_mem hmem
    rw [List.append_assoc, List.cons_append, commandsOf_append_cons, commandsOf_append_cons,
      hitem back hback]
  · exact hitem list hmem

/-- A value loses nothing of its list when the line is trimmed, if its whitespace is blanks. -/
theorem commandsOf_trim {value : Bytes} (hvalue : ∀ c ∈ value, isSpace c = true → isBlank c = true) :
    commandsOf (trim value) = commandsOf value := by
  obtain ⟨back, hback, hsplit⟩ := Library.Trim.exists_trim_append isSpace value
  have hfront : ∀ c ∈ value.takeWhile isSpace, isBlank c = true := fun c hc =>
    hvalue c ((List.takeWhile_sublist isSpace).subset hc) (List.mem_takeWhile_imp hc)
  have hback' : ∀ c ∈ back, isBlank c = true := fun c hc =>
    hvalue c (hsplit ▸ List.mem_append_right _ hc) (hback c hc)
  conv_rhs => rw [← hsplit]
  rw [trim_eq, commandsOf_append hback', commandsOf_append_left hfront]

/-- A command a list can hold. -/
structure Command (command : Bytes) : Prop where
  ne_nil : command ≠ []
  printable : ∀ c ∈ command, 0x20 ≤ c.toNat ∧ c.toNat ≤ 0x7E
  whole : semicolon ∉ command
  trimmed : Library.Trim.Trimmed isBlank command

/-- An item as it is written: a command, or nothing, between blanks. -/
structure Written where
  pad : Bytes
  command : Option Bytes
  pad' : Bytes

def Written.text (item : Written) : Bytes := item.pad ++ item.command.getD [] ++ item.pad'

structure Written.Good (item : Written) : Prop where
  pad : ∀ c ∈ item.pad, isBlank c = true
  command : ∀ command ∈ item.command, Command command
  pad' : ∀ c ∈ item.pad', isBlank c = true

/-- Items written side by side. -/
def valueOf (items : List Written) : Bytes := List.intercalate [semicolon] (items.map Written.text)

theorem Written.Good.mem {item : Written} (hitem : item.Good) {c : UInt8} (hc : c ∈ item.text) :
    isBlank c = true ∨ (0x20 ≤ c.toNat ∧ c.toNat ≤ 0x7E) ∧ c ≠ semicolon := by
  obtain ⟨pad, command, pad'⟩ := item
  rcases List.mem_append.mp hc with hc | hc
  · rcases List.mem_append.mp hc with hc | hc
    · exact .inl (hitem.pad c hc)
    · cases command with
      | none => cases hc
      | some command =>
          have hcommand := hitem.command command rfl
          exact .inr ⟨hcommand.printable c hc, fun heq => hcommand.whole (heq ▸ hc)⟩
  · exact .inl (hitem.pad' c hc)

theorem Written.Good.not_mem {item : Written} (hitem : item.Good) : semicolon ∉ item.text := by
  intro hmem
  rcases hitem.mem hmem with hblank | ⟨-, hne⟩
  · exact absurd hblank (by decide)
  · exact hne rfl

theorem Written.Good.trimBlank_eq {item : Written} (hitem : item.Good) :
    trimBlank item.text = item.command.getD [] := by
  obtain ⟨pad, command, pad'⟩ := item
  rw [trimBlank, Written.text, Library.Trim.trim_append hitem.pad',
    Library.Trim.trim_append_left hitem.pad]
  cases command with
  | none => rfl
  | some command => exact (hitem.command command rfl).trimmed.trim_eq

theorem commandsOf_valueOf {items : List Written} (hitems : ∀ item ∈ items, item.Good) :
    commandsOf (valueOf items) = items.filterMap Written.command := by
  have hkept : ((items.map Written.text).map trimBlank).filter (fun item => item ≠ []) =
      items.filterMap Written.command := by
    induction items with
    | nil => rfl
    | cons item items ih =>
        obtain ⟨hitem, hrest⟩ := List.forall_mem_cons.mp hitems
        rw [List.map_cons, List.map_cons, hitem.trimBlank_eq, List.filter_cons, ih hrest,
          List.filterMap_cons]
        cases hcommand : item.command with
        | none => rfl
        | some command =>
            rw [Option.getD_some, if_pos (by simpa using (hitem.command command hcommand).ne_nil)]
  by_cases hnil : items = []
  · subst hnil
    rfl
  · have hwhole : ∀ text ∈ items.map Written.text, semicolon ∉ text := by
      intro text htext
      obtain ⟨item, hitem, rfl⟩ := List.mem_map.mp htext
      exact (hitems item hitem).not_mem
    rw [commandsOf, valueOf, List.splitOn_intercalate _ hwhole (by simpa using hnil), hkept]

theorem mem_valueOf {items : List Written} {c : UInt8} (hc : c ∈ valueOf items) :
    c = semicolon ∨ ∃ item ∈ items, c ∈ item.text := by
  induction items with
  | nil => cases hc
  | cons item items ih =>
      by_cases hnil : items = []
      · subst hnil
        refine .inr ⟨item, List.mem_cons_self, ?_⟩
        simpa [valueOf, List.intercalate] using hc
      · have hsplit : valueOf (item :: items) = item.text ++ semicolon :: valueOf items := by
          obtain ⟨other, rest, rfl⟩ := List.exists_cons_of_ne_nil hnil
          simp [valueOf, List.intercalate]
        rw [hsplit] at hc
        rcases List.mem_append.mp hc with hc | hc
        · exact .inr ⟨item, List.mem_cons_self, hc⟩
        · rcases List.mem_cons.mp hc with heq | hc
          · exact .inl heq
          · rcases ih hc with heq | ⟨other, hother, hc⟩
            · exact .inl heq
            · exact .inr ⟨other, List.mem_cons_of_mem _ hother, hc⟩

theorem valueOf_plain {items : List Written} (hitems : ∀ item ∈ items, item.Good) {c : UInt8}
    (hc : c ∈ valueOf items) : (isSpace c = true → isBlank c = true) ∧ c ≠ 0x01 := by
  have hblank : isBlank c = true → (isSpace c = true → isBlank c = true) ∧ c ≠ 0x01 := by
    intro hblank
    refine ⟨fun _ => hblank, ?_⟩
    rintro rfl
    exact absurd hblank (by decide)
  rcases mem_valueOf hc with rfl | ⟨item, hitem, hc⟩
  · decide
  · rcases (hitems item hitem).mem hc with hc | ⟨⟨hlow, hhigh⟩, -⟩
    · exact hblank hc
    · constructor
      · rw [isSpace_iff]
        intro hspace
        have hc : c = 0x20 := UInt8.toNat_inj.mp (by change c.toNat = 32; omega)
        subst hc
        rfl
      · rintro rfl
        exact absurd hlow (by decide)

def skipCommandsKey : Bytes := ascii "SkipCommands"

theorem reading_skipCommands (value : Bytes) :
    reading (skipCommandsKey ++ 0x3D :: value) = .entry skipCommandsKey (trim value) := by
  have hkey : skipCommandsKey.dropWhile isSpace = skipCommandsKey := by decide
  have hhead : (trim (skipCommandsKey ++ 0x3D :: value)).head? = some 0x53 := by
    rw [trim_append_cons (by decide), hkey]
    rfl
  have hentry : Entry skipCommandsKey value :=
    { first := by decide
      said := by
        rw [ignored_iff_head?, hhead]
        decide
      unbracketed := by
        rw [Bracketed, hhead]
        exact fun h => absurd h.1 (by decide) }
  rw [hentry.reading_eq]
  congr 1

section RoundTrip

variable {F D : Type} [CppFloat F] [CppFloat D] [Widen F D] [Narrow D F] [FromCharsDouble D]
  [Platform]

theorem load_skipCommands (file : Bytes) :
    ∃ cfg : Config F, ClientConfig.load D (some file) = some cfg ∧
      (((IniModel.load file).get newGame skipCommandsKey [0x01] ≠ [0x01]) →
        cfg.skipCommands = commandsOf ((IniModel.load file).get newGame skipCommandsKey [0x01])) := by
  obtain ⟨commands, hcommands, hthere⟩ : ∃ commands,
      skipCommandsOf (IniModel.load file) (Config.initial F).skipCommands = some commands ∧
      ((IniModel.load file).get newGame skipCommandsKey [0x01] ≠ [0x01] →
        commands = commandsOf ((IniModel.load file).get newGame skipCommandsKey [0x01])) := by
    by_cases hlist : (IniModel.load file).get newGame skipCommandsKey [0x01] ≠ [0x01]
    · exact ⟨_, (if_pos hlist).trans (splitCommands_enough _), fun _ => rfl⟩
    · exact ⟨_, if_neg hlist, fun h => absurd h hlist⟩
  exact ⟨_, congrArg (Option.map _) hcommands, hthere⟩

/-- A list of commands written on one line of the section, with blanks around the commands
and items left empty, is the list the client has; and the loop ends for every value. -/
theorem skipCommands_round_trip :
    (∀ list, ∃ commands, ∀ rounds ≥ enoughRounds list,
      splitCommands rounds list 0 [] = some commands) ∧
    ∀ (commands : List Bytes) (items : List Written) (file : Bytes) (before after : List Bytes),
      items.filterMap Written.command = commands → (∀ item ∈ items, item.Good) →
      lines file = before ++ (ascii "SkipCommands=" ++ valueOf items) :: after →
      lower (sectionOf before) = lower newGame →
      Unwritten (assigned newGame skipCommandsKey)
        (before ++ [ascii "SkipCommands=" ++ valueOf items]) after →
      ∃ cfg : Config F, ClientConfig.load D (some file) = some cfg ∧ cfg.skipCommands = commands := by
  refine ⟨fun list => ⟨commandsOf list, fun rounds hrounds => ?_⟩, ?_⟩
  · rw [enoughRounds] at hrounds
    rw [splitCommands_eq (by omega) (Nat.zero_le _), if_pos (Nat.zero_le _)]
    rfl
  · intro commands items file before after hcommands hitems hlines hsection hlast
    have hline : ascii "SkipCommands=" ++ valueOf items =
        skipCommandsKey ++ 0x3D :: valueOf items := rfl
    have hassigned : assigned newGame skipCommandsKey before
        (ascii "SkipCommands=" ++ valueOf items) = some (trim (valueOf items)) := by
      rw [hline, assigned, reading_skipCommands]
      exact if_pos ⟨hsection, rfl⟩
    have hget : (IniModel.load file).get newGame skipCommandsKey [0x01] = trim (valueOf items) := by
      rw [get_load (by decide) (by decide), hlines, lastAfter_eq_some hassigned hlast]
      rfl
    have hthere : trim (valueOf items) ≠ [0x01] := by
      intro heq
      have hmem : 0x01 ∈ trim (valueOf items) := heq ▸ List.mem_cons_self
      rw [trim_eq] at hmem
      have hmem := (Library.Trim.isInfix_trim isSpace (valueOf items)).subset hmem
      exact (valueOf_plain hitems hmem).2 rfl
    obtain ⟨cfg, hload, hskip⟩ := load_skipCommands (F := F) (D := D) file
    refine ⟨cfg, hload, ?_⟩
    rw [hskip (hget.symm ▸ hthere), hget,
      commandsOf_trim fun c hc => (valueOf_plain hitems hc).1, commandsOf_valueOf hitems, hcommands]

end RoundTrip

section Example

open F4MP.Native

/-- Of whole numbers. -/
local instance instFromCharsRat : FromCharsDouble ℚ where
  fromChars text :=
    let digits := text.takeWhile isDigit
    if digits.isEmpty then none else some (digitsValue digits, text.drop digits.length)

def startItems : List Written :=
  [⟨ascii " ", some (ascii "coc Sanctuary"), [0x09]⟩, ⟨ascii " ", none, []⟩,
    ⟨[], some (ascii "wait 2"), ascii " "⟩]

def startLine : Bytes := ascii "SkipCommands=" ++ valueOf startItems

theorem good_startItems : ∀ item ∈ startItems, item.Good := by
  have hpads : ∀ item ∈ startItems, (∀ c ∈ item.pad, isBlank c = true) ∧
      ∀ c ∈ item.pad', isBlank c = true := by
    decide +kernel
  have hcommands : ∀ item ∈ startItems, ∀ command ∈ item.command,
      (command ≠ [] ∧ (∀ c ∈ command, 0x20 ≤ c.toNat ∧ c.toNat ≤ 0x7E) ∧ semicolon ∉ command) ∧
        (∀ c ∈ command.head?, isBlank c = false) ∧ ∀ c ∈ command.getLast?, isBlank c = false := by
    decide +kernel
  intro item hitem
  refine ⟨(hpads item hitem).1, fun command hcommand => ?_, (hpads item hitem).2⟩
  obtain ⟨⟨hne, hprintable, hwhole⟩, hhead, hlast⟩ := hcommands item hitem command hcommand
  exact ⟨hne, hprintable, hwhole, hhead, hlast⟩

/-- They are read back from the second line of a file. -/
theorem start_is_read : ∃ cfg : Config ℚ,
    ClientConfig.load ℚ (some (unlines [ascii "[newgame]", startLine])) = some cfg ∧
      cfg.skipCommands = [ascii "coc Sanctuary", ascii "wait 2"] :=
  skipCommands_round_trip.2 _ startItems _ [ascii "[newgame]"] [] rfl good_startItems
    (by decide +kernel) (by decide +kernel) (lastAfter_eq_none_iff.mp rfl)

end Example

end F4MP.SkipCommands
