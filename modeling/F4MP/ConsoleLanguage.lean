import F4MP.ConsoleCommands
import F4MP.ConsoleText
import F4MP.IniLayout
import F4MP.Library.Hexadecimal
import F4MP.Library.Occurrences
import F4MP.ServerAddress
import Mathlib.Tactic.FinCases

/-!
The language of the client's console command: what a line orders, whatever its
whitespace, its case and its quotes, and that `Execute` carries out just that.
-/

namespace F4MP.ConsoleLanguage

open F4MP.Types
open F4MP.Arith
open F4MP.GameUtil
open F4MP.ServerConsole
open F4MP.SessionModel
open F4MP.PrologueSkipModel (toLower)
open F4MP.IniModel
open F4MP.IniReading
open F4MP.IniLayout
open F4MP.ClientConfig
open F4MP.ConsoleText
open F4MP.ServerAddress
open F4MP.ConsoleCommands
open F4MP.Library.Occurrences
open F4MP.Library.Trim (Trimmed)

/-- A text that is a word and its arguments, between whitespace. -/
structure Phrase (s word args : Bytes) : Prop where
  layout : ∃ pad gap pad', s = pad ++ (word ++ gap ++ args) ++ pad' ∧
    Spaces pad ∧ Spaces gap ∧ Spaces pad' ∧ (args ≠ [] → gap ≠ [])
  ne_nil : word ≠ []
  whole : ∀ c ∈ word, isSpace c = false
  trimmed : Trimmed isSpace args

theorem takeWhile_word {word : Bytes} (hword : ∀ c ∈ word, isSpace c = false) {back : Bytes}
    (hback : ∀ c ∈ back.head?, isSpace c = true) :
    ((word ++ back).takeWhile fun c => !isSpace c) = word ∧
      ((word ++ back).dropWhile fun c => !isSpace c) = back := by
  have hpos : ∀ c ∈ word, (!isSpace c) = true := fun c hc => by simp [hword c hc]
  rw [List.takeWhile_append_of_pos hpos, List.dropWhile_append_of_pos hpos]
  cases back with
  | nil => simp
  | cons c back =>
      have hc : isSpace c = true := hback c rfl
      simp [hc]

theorem trimmed_of_whole {word : Bytes} (hword : ∀ c ∈ word, isSpace c = false) :
    Trimmed isSpace word where
  head c hc := hword c (List.mem_of_mem_head? hc)
  last c hc := hword c (List.mem_of_getLast? hc)

theorem head_of_spaces {gap : Bytes} (hgap : Spaces gap) (hne : gap ≠ []) (back : Bytes) :
    ∀ c ∈ (gap ++ back).head?, isSpace c = true := by
  cases gap with
  | nil => exact absurd rfl hne
  | cons d gap =>
      intro c hc
      obtain rfl := Option.some.inj hc
      exact hgap _ List.mem_cons_self

theorem nextToken_of_phrase {s word args : Bytes} (h : Phrase s word args) :
    nextToken s = (word, args) := by
  obtain ⟨pad, gap, pad', rfl, hpad, hgap, hpad', hne⟩ := h.layout
  have htrim : trim args = args := by rw [trim_eq, h.trimmed.trim_eq]
  have hwhole : trim word = word := by rw [trim_eq, (trimmed_of_whole h.whole).trim_eq]
  rw [nextToken, trim_padded hpad hpad']
  by_cases hargs : args = []
  · subst hargs
    have hword : trim (word ++ gap ++ []) = word := by
      have hpadded := @trim_padded [] gap (by rintro _ ⟨⟩) hgap word
      rwa [List.nil_append, hwhole, ← List.append_nil (word ++ gap)] at hpadded
    have hcut := @takeWhile_word word h.whole [] (by rintro _ ⟨⟩)
    rw [List.append_nil] at hcut
    rw [hword]
    rw [hcut.1, hcut.2]
    rfl
  · have hbody : Trimmed isSpace (word ++ gap ++ args) := by
      constructor
      · intro c hc
        rw [List.append_assoc, List.head?_append_of_ne_nil _ h.ne_nil] at hc
        exact h.whole c (List.mem_of_mem_head? hc)
      · intro c hc
        rw [List.getLast?_append_of_ne_nil _ hargs] at hc
        exact h.trimmed.last c hc
    have hcut := takeWhile_word h.whole (head_of_spaces hgap (hne hargs) args)
    rw [trim_eq (word ++ gap ++ args), hbody.trim_eq, List.append_assoc]
    rw [hcut.1, hcut.2]
    have hpadded := @trim_padded gap [] hgap (by rintro _ ⟨⟩) args
    rw [List.append_nil, htrim] at hpadded
    rw [hpadded]

theorem spaces_or_phrase (s : Bytes) :
    Spaces s ∨ Phrase s (nextToken s).1 (nextToken s).2 := by
  by_cases hspaces : Spaces s
  · exact .inl hspaces
  right
  obtain ⟨pad', hpad', hsplit⟩ := Library.Trim.exists_trim_append isSpace s
  rw [← trim_eq] at hsplit
  have htrimmed : Trimmed isSpace (trim s) := by
    rw [trim_eq]
    exact Library.Trim.trimmed_trim isSpace s
  have hne : trim s ≠ [] := by
    rw [trim_eq]
    exact mt Library.Trim.trim_eq_nil_iff.mp hspaces
  have hbody : (trim s).takeWhile (fun c => !isSpace c) ++
      (trim s).dropWhile (fun c => !isSpace c) = trim s := List.takeWhile_append_dropWhile
  obtain ⟨pad'', hpad'', hrest⟩ := Library.Trim.exists_trim_append isSpace
    ((trim s).dropWhile fun c => !isSpace c)
  rw [← trim_eq] at hrest
  refine ⟨⟨s.takeWhile isSpace, ((trim s).dropWhile fun c => !isSpace c).takeWhile isSpace,
    pad'' ++ pad', ?_, fun c hc => List.mem_takeWhile_imp hc,
    fun c hc => List.mem_takeWhile_imp hc,
    fun c hc => (List.mem_append.mp hc).elim (hpad'' c) (hpad' c), ?_⟩, ?_, ?_, ?_⟩
  · rw [nextToken]
    calc s = s.takeWhile isSpace ++ trim s ++ pad' := hsplit.symm
      _ = _ := by
        conv_lhs => rw [← hbody, ← hrest]
        simp only [List.append_assoc]
  · -- arguments start after the word, with whitespace
    intro hargs hgap
    cases hback : (trim s).dropWhile fun c => !isSpace c with
    | nil =>
        rw [nextToken] at hargs
        dsimp only at hargs
        rw [hback] at hargs
        exact hargs rfl
    | cons c back =>
        have hhead := List.head?_dropWhile_not (fun c => !isSpace c) (trim s)
        rw [hback] at hhead
        rw [hback, List.takeWhile_cons_of_pos (by simpa using hhead)] at hgap
        cases hgap
  · rw [nextToken]
    intro hword
    dsimp only at hword
    cases hfront : trim s with
    | nil => exact hne hfront
    | cons c back =>
        have hc : isSpace c = false := htrimmed.head c (by rw [hfront]; rfl)
        rw [hfront, List.takeWhile_cons_of_pos (by simp [hc])] at hword
        cases hword
  · intro c hc
    rw [nextToken] at hc
    simpa using List.mem_takeWhile_imp hc
  · rw [nextToken]
    dsimp only
    rw [trim_eq ((trim s).dropWhile _)]
    exact Library.Trim.trimmed_trim _ _

theorem Phrase.eq {s word args word' args' : Bytes} (h : Phrase s word args)
    (h' : Phrase s word' args') : word = word' ∧ args = args' :=
  Prod.mk.inj ((nextToken_of_phrase h).symm.trans (nextToken_of_phrase h'))

theorem nextToken_of_spaces {s : Bytes} (h : Spaces s) : nextToken s = ([], []) := by
  have htrim : trim s = [] := by
    rw [trim_eq]
    exact Library.Trim.trim_eq_nil_iff.mpr h
  rw [nextToken, htrim]
  rfl

theorem Phrase.not_spaces {s word args : Bytes} (h : Phrase s word args) : ¬Spaces s := by
  intro hspaces
  have hnext := nextToken_of_phrase h
  rw [nextToken_of_spaces hspaces] at hnext
  exact h.ne_nil (Prod.mk.inj hnext).1.symm

/-- The name of the console command, in any case, perhaps behind a dot. -/
def Names (token : Bytes) : Prop :=
  ∃ name, lower name = ascii "f4mp" ∧ (token = name ∨ ∃ front, token = front ++ 0x2E :: name)

/-- Nothing is ordered: there is no word but the name of the console command. -/
inductive Blank : Bytes → Prop
  | spaces {line : Bytes} : Spaces line → Blank line
  | name {line token : Bytes} : Phrase line token [] → Names token → Blank line

/-- The command of a line, and its arguments. -/
inductive Layout : Bytes → Bytes → Bytes → Prop
  | bare {line word args : Bytes} : Phrase line word args → ¬Names word → Layout line word args
  | named {line token rest word args : Bytes} : Phrase line token rest → Names token →
      Phrase rest word args → Layout line word args

theorem iEquals_iff {a b : Bytes} : iEquals a b = true ↔ lower a = lower b := decide_eq_true_iff

theorem dot_not_mem {name : Bytes} (hname : lower name = ascii "f4mp") : (0x2E : UInt8) ∉ name := by
  rw [← mem_lower_iff 0x2E rfl, hname]
  decide

theorem isCommandToken_iff {token : Bytes} : isCommandToken token = true ↔ Names token := by
  by_cases hmem : (0x2E : UInt8) ∈ token
  · obtain ⟨front, back, rfl, hback⟩ := exists_append_cons_of_mem hmem
    have hdrop : (front ++ 0x2E :: back).drop (front.length + 1) = back := by simp
    rw [isCommandToken, rfind_append_cons hback]
    dsimp only
    rw [hdrop, iEquals_iff]
    constructor
    · exact fun hname => ⟨back, hname, .inr ⟨front, rfl⟩⟩
    · rintro ⟨name, hname, rfl | ⟨other, hsplit⟩⟩
      · exact absurd hmem (dot_not_mem hname)
      · -- the last dot is the same
        have hlast := rfind_append_cons (dot_not_mem hname) other
        rw [← hsplit, rfind_append_cons hback] at hlast
        have htails := (List.append_inj hsplit (Option.some.inj hlast)).2
        rw [(List.cons.inj htails).2]
        exact hname
  · rw [isCommandToken, rfind_eq_none hmem, iEquals_iff]
    constructor
    · exact fun hname => ⟨token, hname, .inl rfl⟩
    · rintro ⟨name, hname, rfl | ⟨front, rfl⟩⟩
      · exact hname
      · exact absurd (List.mem_append_right _ List.mem_cons_self) hmem

theorem blank_or_layout (line : Bytes) : Blank line ∨ ∃ word args, Layout line word args := by
  rcases spaces_or_phrase line with hspaces | hphrase
  · exact .inl (.spaces hspaces)
  by_cases hname : Names (nextToken line).1
  · rcases spaces_or_phrase (nextToken line).2 with hspaces | hrest
    · refine .inl (.name ?_ hname)
      have hnil : (nextToken line).2 = [] := by
        rw [← hphrase.trimmed.trim_eq]
        exact Library.Trim.trim_eq_nil_iff.mpr hspaces
      rwa [hnil] at hphrase
    · exact .inr ⟨_, _, .named hphrase hname hrest⟩
  · exact .inr ⟨_, _, .bare hphrase hname⟩

theorem layout_unique {line word args word' args' : Bytes} (h : Layout line word args)
    (h' : Layout line word' args') : word = word' ∧ args = args' := by
  cases h with
  | bare hphrase hname =>
      cases h' with
      | bare hphrase' hname' => exact hphrase.eq hphrase'
      | named hphrase' hname' hrest' =>
          obtain ⟨rfl, -⟩ := hphrase.eq hphrase'
          exact absurd hname' hname
  | named hphrase hname hrest =>
      cases h' with
      | bare hphrase' hname' =>
          obtain ⟨rfl, -⟩ := hphrase.eq hphrase'
          exact absurd hname hname'
      | named hphrase' hname' hrest' =>
          obtain ⟨rfl, rfl⟩ := hphrase.eq hphrase'
          exact hrest.eq hrest'

theorem Layout.word_ne_nil {line word args : Bytes} (h : Layout line word args) : word ≠ [] := by
  cases h with
  | bare hphrase => exact hphrase.ne_nil
  | named _ _ hphrase => exact hphrase.ne_nil

theorem Layout.trimmed {line word args : Bytes} (h : Layout line word args) :
    Trimmed isSpace args := by
  cases h with
  | bare hphrase => exact hphrase.trimmed
  | named _ _ hphrase => exact hphrase.trimmed

theorem nextToken_trim (s : Bytes) : nextToken (trim s) = nextToken s := by
  have htrim : trim (trim s) = trim s := by
    simp only [trim_eq]
    exact (Library.Trim.trimmed_trim isSpace s).trim_eq
  rw [nextToken, nextToken, htrim]

section Execute

variable [Platform]

theorem execute_of_layout (session : Session) {line word args : Bytes}
    (h : Layout line word args) : execute session line = dispatch session word args := by
  cases h with
  | bare hphrase hname =>
      have htoken : isCommandToken word = false :=
        Bool.eq_false_iff.mpr (mt isCommandToken_iff.mp hname)
      rw [execute]
      simp only [nextToken_trim, nextToken_of_phrase hphrase, htoken, Bool.false_eq_true, if_false]
  | named hphrase hname hrest =>
      rw [execute]
      simp only [nextToken_trim, nextToken_of_phrase hphrase, isCommandToken_iff.mpr hname, if_true,
        nextToken_of_phrase hrest]

theorem execute_of_blank (session : Session) {line : Bytes} (h : Blank line) :
    execute session line = usage := by
  cases h with
  | spaces hspaces =>
      have htoken : isCommandToken [] = false := by decide
      rw [execute]
      simp only [nextToken_trim, nextToken_of_spaces hspaces, htoken, Bool.false_eq_true, if_false]
      rfl
  | name hphrase hname =>
      rw [execute]
      simp only [nextToken_trim, nextToken_of_phrase hphrase, isCommandToken_iff.mpr hname, if_true]
      rfl

end Execute

/-- A text given as it is or in quotes; inside the quotes whitespace around it is lost. -/
inductive Argument : Bytes → Bytes → Prop
  | bare {text : Bytes} : (∀ inside, text ≠ quote :: (inside ++ [quote])) → Argument text text
  | quoted {pad text pad' : Bytes} : Spaces pad → Spaces pad' → Trimmed isSpace text →
      Argument (quote :: ((pad ++ text ++ pad') ++ [quote])) text

theorem stripQuotes_quoted (inside : Bytes) :
    stripQuotes (quote :: (inside ++ [quote])) = trim inside := by
  have hlast : (quote :: (inside ++ [quote])).getLast? = some quote := by
    rw [← List.cons_append, List.getLast?_concat]
  rw [stripQuotes, hlast]
  simp

theorem stripQuotes_bare {text : Bytes} (hbare : ∀ inside, text ≠ quote :: (inside ++ [quote])) :
    stripQuotes text = trim text := by
  rw [stripQuotes, if_neg]
  rintro hquoted
  simp only [Bool.and_eq_true, decide_eq_true_eq] at hquoted
  obtain ⟨⟨hlength, hhead⟩, hlast⟩ := hquoted
  cases text with
  | nil => cases hhead
  | cons c rest =>
      obtain rfl := Option.some.inj hhead
      rcases List.eq_nil_or_concat rest with rfl | ⟨inside, d, rfl⟩
      · simp at hlength
      · rw [List.concat_eq_append] at hlast hbare
        rw [← List.cons_append, List.getLast?_concat] at hlast
        obtain rfl := Option.some.inj hlast
        exact hbare inside rfl

theorem stripQuotes_of_argument {args text : Bytes} (htrimmed : Trimmed isSpace args)
    (h : Argument args text) : stripQuotes args = text := by
  cases h with
  | bare hbare => rw [stripQuotes_bare hbare, trim_eq, htrimmed.trim_eq]
  | quoted hpad hpad' htext =>
      rw [stripQuotes_quoted, trim_padded hpad hpad', trim_eq, htext.trim_eq]

theorem exists_argument {args : Bytes} (htrimmed : Trimmed isSpace args) :
    ∃ text, Argument args text := by
  by_cases hquoted : ∃ inside, args = quote :: (inside ++ [quote])
  · obtain ⟨inside, rfl⟩ := hquoted
    obtain ⟨pad', hpad', hsplit⟩ := Library.Trim.exists_trim_append isSpace inside
    rw [← hsplit]
    exact ⟨_, .quoted (fun c hc => List.mem_takeWhile_imp hc) hpad'
      (Library.Trim.trimmed_trim isSpace inside)⟩
  · exact ⟨args, .bare fun inside heq => hquoted ⟨inside, heq⟩⟩

theorem split_of_phrase {s word args : Bytes} (h : Phrase s word args) :
    split s = word :: split args := by
  obtain ⟨pad, gap, pad', rfl, hpad, hgap, hpad', hne⟩ := h.layout
  have hback : ∀ back : Bytes, Spaces back → Library.Words.words isSpace back = [] := by
    intro back hback
    have hnil := Library.Words.words_append_left hback []
    rwa [List.append_nil] at hnil
  have hargs : Library.Words.words isSpace (gap ++ args ++ pad') = split args := by
    rw [List.append_assoc, Library.Words.words_append_left hgap]
    cases pad' with
    | nil => rw [List.append_nil]; rfl
    | cons c pad' =>
        rw [Library.Words.words_append_cons args pad' (hpad' c List.mem_cons_self),
          hback pad' fun d hd => hpad' d (List.mem_cons_of_mem c hd), List.append_nil]
        rfl
  have hfirst : Library.Words.FirstWord isSpace pad word (gap ++ args ++ pad') := by
    refine ⟨hpad, h.ne_nil, h.whole, ?_⟩
    cases gap with
    | nil =>
        have hnil : args = [] := by
          by_contra hargs
          exact hne hargs rfl
        intro c hc
        rw [hnil] at hc
        exact hpad' c (List.mem_of_mem_head? hc)
    | cons d gap =>
        rw [List.append_assoc]
        exact head_of_spaces hgap (List.cons_ne_nil d gap) _
  rw [← hargs, ← hfirst.words_eq]
  simp only [List.append_assoc]
  rfl

theorem split_of_spaces {s : Bytes} (h : Spaces s) : split s = [] := by
  have hnil := Library.Words.words_append_left h []
  rwa [List.append_nil] at hnil

theorem Phrase.length_lt {s word args : Bytes} (h : Phrase s word args) :
    args.length < s.length := by
  obtain ⟨pad, gap, pad', rfl, -⟩ := h.layout
  have hpos := List.length_pos_iff.mpr h.ne_nil
  simp only [List.length_append]
  omega

theorem graphNames_eq {fuel : Nat} {remaining : Bytes} (hfuel : remaining.length < fuel)
    (names : List Bytes) : graphNames fuel remaining names = some (names ++ split remaining) := by
  induction fuel generalizing remaining names with
  | zero => exact absurd hfuel (Nat.not_lt_zero _)
  | succ fuel ih =>
      rw [graphNames]
      rcases spaces_or_phrase remaining with hspaces | hphrase
      · simp [nextToken_of_spaces hspaces, split_of_spaces hspaces]
      · have hne : remaining ≠ [] := by
          rintro rfl
          exact hphrase.not_spaces (by rintro _ ⟨⟩)
        have hshort := hphrase.length_lt
        rw [if_neg (by simpa using hne)]
        dsimp only
        rw [if_neg (by simpa using hphrase.ne_nil), ih (by omega), split_of_phrase hphrase,
          List.append_assoc]
        rfl

theorem isHexDigit_iff (c : UInt8) : isHexDigit c = true ↔ Library.Hexadecimal.IsDigit c := by
  simp only [isHexDigit, isDigit, Library.Hexadecimal.IsDigit, Bool.or_eq_true, Bool.and_eq_true,
    decide_eq_true_eq, UInt8.le_iff_toNat_le, or_assoc]
  rfl

theorem hexDigitValue_eq {c : UInt8} (hc : Library.Hexadecimal.IsDigit c) :
    hexDigitValue c = Library.Hexadecimal.digit c := by
  have hlower : (toLower c).toNat = if 0x41 ≤ c.toNat ∧ c.toNat ≤ 0x5A then c.toNat + 0x20
      else c.toNat := by
    rw [toLower]
    simp only [Bool.and_eq_true, decide_eq_true_eq, UInt8.le_iff_toNat_le]
    split
    next hletter =>
      change 65 ≤ c.toNat ∧ c.toNat ≤ 90 at hletter
      rw [if_pos hletter, UInt8.toNat_add]
      exact Nat.mod_eq_of_lt (by change c.toNat + 32 < 256; omega)
    next hletter => exact (if_neg hletter).symm
  have hdigit : isDigit c = true ↔ 0x30 ≤ c.toNat ∧ c.toNat ≤ 0x39 := by
    simp only [isDigit, Bool.and_eq_true, decide_eq_true_eq, UInt8.le_iff_toNat_le]
    rfl
  rw [hexDigitValue, Library.Hexadecimal.digit, hlower]
  simp only [hdigit]
  rcases hc with hc | hc | hc <;> split_ifs <;> omega

theorem hexValue_eq {text : Bytes} (htext : ∀ c ∈ text, Library.Hexadecimal.IsDigit c) :
    text.foldl (fun value c => value * 16 + hexDigitValue c) 0 = Library.Hexadecimal.value text := by
  rw [Library.Hexadecimal.value]
  exact List.foldl_ext _ _ _ fun value c hc => by rw [hexDigitValue_eq (htext c hc)]

theorem mark_of_digits {text : Bytes} (htext : ∀ c ∈ text, Library.Hexadecimal.IsDigit c) :
    text.take 2 ≠ ascii "0x" ∧ text.take 2 ≠ ascii "0X" := by
  have hmem : ∀ mark : Bytes, text.take 2 = mark → ∀ c ∈ mark, Library.Hexadecimal.IsDigit c :=
    fun mark hmark c hc => htext c (List.mem_of_mem_take (hmark ▸ hc))
  exact ⟨fun h => absurd (hmem _ h 0x78 (by decide)) (by decide),
    fun h => absurd (hmem _ h 0x58 (by decide)) (by decide)⟩

theorem stripHexMark_of_digits {text : Bytes}
    (htext : ∀ c ∈ text, Library.Hexadecimal.IsDigit c) : stripHexMark text = text := by
  have hmark := mark_of_digits htext
  rw [stripHexMark, if_neg]
  simp [hmark.1, hmark.2]

theorem stripHexMark_mark {mark digits : Bytes} (hmark : mark = ascii "0x" ∨ mark = ascii "0X")
    (hdigits : digits ≠ []) : stripHexMark (mark ++ digits) = digits := by
  have hlength : mark.length = 2 := by rcases hmark with rfl | rfl <;> rfl
  have hpos := List.length_pos_iff.mpr hdigits
  have htake : (mark ++ digits).take 2 = mark := by rw [← hlength, List.take_left]
  have hdrop : (mark ++ digits).drop 2 = digits := by rw [← hlength, List.drop_left]
  rw [stripHexMark, htake, hdrop, if_pos]
  simp only [Bool.and_eq_true, Bool.or_eq_true, decide_eq_true_eq, List.length_append, hlength]
  exact ⟨by omega, hmark⟩

section FormIds

variable [Platform]

/-- The texts of a number that fits an `unsigned long`. -/
inductive FormId : Bytes → Nat → Prop
  | plain {text : Bytes} {n : Nat} : Library.Hexadecimal.Denotes text n →
      n ≤ Platform.ulongMax → FormId text n
  | marked {mark digits : Bytes} {n : Nat} : mark = ascii "0x" ∨ mark = ascii "0X" →
      Library.Hexadecimal.Denotes digits n → n ≤ Platform.ulongMax → FormId (mark ++ digits) n

theorem fromCharsHex_eq_some_iff {text : Bytes} {n : Nat} :
    fromCharsHex text = some n ↔ Library.Hexadecimal.Denotes text n ∧ n ≤ Platform.ulongMax := by
  rw [fromCharsHex]
  by_cases hdigits : ∀ c ∈ text, Library.Hexadecimal.IsDigit c
  · have hall : text.all isHexDigit = true :=
      List.all_eq_true.mpr fun c hc => (isHexDigit_iff c).mpr (hdigits c hc)
    rw [hexValue_eq hdigits, hall]
    constructor
    · intro h
      split at h
      · cases h
      next hno =>
        simp only [Bool.or_eq_true, List.isEmpty_iff, Bool.not_true, Bool.false_eq_true, or_false,
          decide_eq_true_eq, not_or, not_lt] at hno
        obtain rfl := Option.some.inj h
        exact ⟨⟨hno.1, hdigits, rfl⟩, hno.2⟩
    · rintro ⟨hdenotes, hn⟩
      rw [hdenotes.value_eq, if_neg]
      simpa [hdenotes.ne_nil] using hn
  · have hall : text.all isHexDigit = false := by
      rw [List.all_eq_false]
      simp only [not_forall] at hdigits
      obtain ⟨c, hc, hno⟩ := hdigits
      exact ⟨c, hc, mt (isHexDigit_iff c).mp hno⟩
    rw [hall, if_pos (by simp)]
    constructor
    · rintro ⟨⟩
    · exact fun h => absurd h.1.digits hdigits

/-- The texts of form ids are those that are read. -/
theorem formId_iff {text : Bytes} {n : Nat} :
    FormId text n ↔ fromCharsHex (stripHexMark text) = some n := by
  rw [fromCharsHex_eq_some_iff]
  constructor
  · rintro (⟨hdenotes, hn⟩ | ⟨hmark, hdenotes, hn⟩)
    · rw [stripHexMark_of_digits hdenotes.digits]
      exact ⟨hdenotes, hn⟩
    · rw [stripHexMark_mark hmark hdenotes.ne_nil]
      exact ⟨hdenotes, hn⟩
  · rintro ⟨hdenotes, hn⟩
    rw [stripHexMark] at hdenotes
    split at hdenotes
    next hmarked =>
      simp only [Bool.and_eq_true, Bool.or_eq_true, decide_eq_true_eq] at hmarked
      have hsplit := List.take_append_drop 2 text
      rw [← hsplit]
      exact .marked hmarked.2 hdenotes hn
    next => exact .plain hdenotes hn

end FormIds

/-- What can be ordered. -/
inductive Order where
  | help
  | status
  | connect (address : Option Bytes)
  | disconnect
  | say (text : Bytes)
  | list
  | rename (name : Bytes)
  | unstick
  | debug
  | graph (names : List Bytes)
  | clones (option : Bytes) (on : Bool)
  | cloneBase (form : Form)
  | misused (usage : Bytes)
  | unknown (word : Bytes)
deriving DecidableEq

def cloneOptions : List Bytes :=
  [ascii "sync", ascii "pacify", ascii "ghost", ascii "duplicate", ascii "move", ascii "respawn"]

def commandWords : List Bytes :=
  [ascii "help", ascii "status", ascii "connect", ascii "disconnect", ascii "say", ascii "list",
    ascii "players", ascii "name", ascii "unstick", ascii "debug", ascii "graph",
    ascii "clonebase"] ++ cloneOptions

def offWords : List Bytes := [ascii "off", ascii "0", ascii "false"]

section Orders

variable [Platform]

/-- What a command and its arguments order, by the command in lower case. -/
inductive Means (args : Bytes) : Bytes → Order → Prop
  | help : Means args (ascii "help") .help
  | status : Means args (ascii "status") .status
  | connect : args = [] → Means args (ascii "connect") (.connect none)
  | connectTo {address : Bytes} : args ≠ [] → Argument args address →
      Means args (ascii "connect") (.connect (some address))
  | disconnect : Means args (ascii "disconnect") .disconnect
  | say {text : Bytes} : Argument args text → text ≠ [] → Means args (ascii "say") (.say text)
  | sayNothing : Argument args [] →
      Means args (ascii "say") (.misused (ascii "[F4MP] Usage: f4mp say <text>"))
  | list : Means args (ascii "list") .list
  | players : Means args (ascii "players") .list
  | name {text : Bytes} : Argument args text → text ≠ [] → Means args (ascii "name") (.rename text)
  | nameNothing : Argument args [] →
      Means args (ascii "name") (.misused (ascii "[F4MP] Usage: f4mp name <name>"))
  | unstick : Means args (ascii "unstick") .unstick
  | debug : Means args (ascii "debug") .debug
  | graph : Means args (ascii "graph") (.graph (split args))
  | clones {option : Bytes} : option ∈ cloneOptions →
      Means args option (.clones option ((split args).head?.all fun word => lower word ∉ offWords))
  | cloneBase {text : Bytes} {n : Nat} : Argument args text → FormId text n →
      Means args (ascii "clonebase") (.cloneBase (UInt32.ofNat n))
  | cloneBaseNothing {text : Bytes} : Argument args text → (∀ n, ¬FormId text n) →
      Means args (ascii "clonebase")
        (.misused (ascii "[F4MP] Usage: f4mp clonebase <NPC form id in hex, e.g. 7 or A7D34>"))

/-- What a line orders. -/
inductive Orders : Bytes → Order → Prop
  | blank {line : Bytes} : Blank line → Orders line .help
  | known {line word args : Bytes} {order : Order} : Layout line word args →
      Means args (lower word) order → Orders line order
  | unknown {line word args : Bytes} : Layout line word args → lower word ∉ commandWords →
      Orders line (.unknown word)

/-- How an order is carried out. -/
def Order.calls (session : Session) : Order → List Call
  | .help => usage
  | .status => [.printStatus]
  | .connect none => [.connect]
  | .connect (some address) =>
      .setServer address ::
        if (setServer session address).1 then [.connect]
        else [.consolePrint (ascii "[F4MP] Usage: f4mp connect [host[:port]]")]
  | .disconnect => [.disconnect]
  | .say text => [.sendChat text]
  | .list => [.printPlayers]
  | .rename name => [.setPlayerName name]
  | .unstick =>
      [.restorePlayerControl, .consolePrint (ascii "[F4MP] Controls, HUD and camera restored.")]
  | .debug => [.printDebug]
  | .graph names => [.printGraph names]
  | .clones option on => [.setCloneOption option on]
  | .cloneBase form => [.setCloneBase form]
  | .misused usage => [.consolePrint usage]
  | .unknown word => .consolePrint (ascii "[F4MP] Unknown command \"" ++ word ++ ascii "\"") :: usage

omit [Platform] in
theorem head_split (args : Bytes) :
    ((split args).head?.all fun word => lower word ∉ offWords) =
      !(iEquals (nextToken args).1 (ascii "off") || iEquals (nextToken args).1 (ascii "0") ||
        iEquals (nextToken args).1 (ascii "false")) := by
  rcases spaces_or_phrase args with hspaces | hphrase
  · rw [split_of_spaces hspaces, nextToken_of_spaces hspaces]
    decide
  · rw [split_of_phrase hphrase]
    have hoff : lower (ascii "off") = ascii "off" := by decide
    have hzero : lower (ascii "0") = ascii "0" := by decide
    have hfalse : lower (ascii "false") = ascii "false" := by decide
    simp [iEquals, offWords, hoff, hzero, hfalse, Bool.and_assoc]

theorem dispatch_of_means (session : Session) {word args : Bytes} {order : Order}
    (hne : word ≠ []) (htrimmed : Trimmed isSpace args) (h : Means args (lower word) order) :
    dispatch session word args = order.calls session := by
  have hword : word.isEmpty = false := by simpa using hne
  obtain ⟨command, hlower⟩ : ∃ command, lower word = command := ⟨_, rfl⟩
  rw [hlower] at h
  rw [dispatch, hword]
  simp only [iEquals, hlower]
  cases h with
  | help => rfl
  | status => rfl
  | connect hargs =>
      subst hargs
      rfl
  | @connectTo address hargs hargument =>
      have hargs : args.isEmpty = false := by simpa using hargs
      rw [stripQuotes_of_argument htrimmed hargument, hargs]
      change (if (setServer session address).1 then [Call.setServer address, .connect] else
        [.setServer address, .consolePrint (ascii "[F4MP] Usage: f4mp connect [host[:port]]")]) =
          .setServer address :: (if (setServer session address).1 then [.connect] else
            [.consolePrint (ascii "[F4MP] Usage: f4mp connect [host[:port]]")])
      split <;> rfl
  | disconnect => rfl
  | @say text hargument htext | @name text hargument htext =>
      have htext : text.isEmpty = false := by simpa using htext
      rw [stripQuotes_of_argument htrimmed hargument, htext]
      rfl
  | sayNothing hargument | nameNothing hargument =>
      rw [stripQuotes_of_argument htrimmed hargument]
      rfl
  | list => rfl
  | players => rfl
  | unstick => rfl
  | debug => rfl
  | graph =>
      rw [graphNames_eq (Nat.lt_succ_self _), List.nil_append]
      rfl
  | clones hoption =>
      rw [Order.calls, head_split]
      simp only [iEquals]
      fin_cases hoption <;> rfl
  | cloneBase hargument hid =>
      rw [stripQuotes_of_argument htrimmed hargument, formId_iff.mp hid]
      rfl
  | cloneBaseNothing hargument hno =>
      have hnone : fromCharsHex (stripHexMark _) = none :=
        Option.eq_none_iff_forall_ne_some.mpr fun n hn => hno n (formId_iff.mpr hn)
      rw [stripQuotes_of_argument htrimmed hargument, hnone]
      rfl

theorem dispatch_of_unknown (session : Session) {word : Bytes} (hne : word ≠ [])
    (hword : lower word ∉ commandWords) (args : Bytes) :
    dispatch session word args = (Order.unknown word).calls session := by
  have hno : ∀ known ∈ commandWords, iEquals word known = false := by
    intro known hknown
    have hlower : lower known = known := by
      revert known
      decide
    rw [Bool.eq_false_iff, Ne, iEquals_iff, hlower]
    exact fun heq => hword (heq ▸ hknown)
  simp only [commandWords, cloneOptions, List.cons_append, List.nil_append,
    List.forall_mem_cons] at hno
  simp only [dispatch, List.isEmpty_eq_false_iff.mpr hne, hno, Bool.or_self, Bool.false_eq_true,
    if_false]
  rfl

theorem exists_means {command args : Bytes} (hcommand : command ∈ commandWords)
    (htrimmed : Trimmed isSpace args) : ∃ order, Means args command order := by
  obtain ⟨text, hargument⟩ := exists_argument htrimmed
  rcases List.mem_append.mp hcommand with hword | hoption
  · fin_cases hword
    · exact ⟨_, .help⟩
    · exact ⟨_, .status⟩
    · by_cases hargs : args = []
      · exact ⟨_, .connect hargs⟩
      · exact ⟨_, .connectTo hargs hargument⟩
    · exact ⟨_, .disconnect⟩
    · by_cases htext : text = []
      · exact ⟨_, .sayNothing (htext ▸ hargument)⟩
      · exact ⟨_, .say hargument htext⟩
    · exact ⟨_, .list⟩
    · exact ⟨_, .players⟩
    · by_cases htext : text = []
      · exact ⟨_, .nameNothing (htext ▸ hargument)⟩
      · exact ⟨_, .name hargument htext⟩
    · exact ⟨_, .unstick⟩
    · exact ⟨_, .debug⟩
    · exact ⟨_, .graph⟩
    · by_cases hid : ∃ n, FormId text n
      · exact ⟨_, .cloneBase hargument hid.choose_spec⟩
      · exact ⟨_, .cloneBaseNothing hargument fun n hn => hid ⟨n, hn⟩⟩
  · exact ⟨_, .clones hoption⟩

omit [Platform] in
theorem calls_injective (session : Session) : Function.Injective (Order.calls session) := by
  intro order order' h
  cases order with
  | connect address =>
      cases order' with
      | connect address' => cases address <;> cases address' <;> simp_all [Order.calls]
      | _ => cases address <;> simp_all [Order.calls, usage]
  | help | misused | unknown =>
      cases order' with
      | connect address' => cases address' <;> simp_all [Order.calls, usage]
      | _ => simp_all [Order.calls, usage]
  | _ =>
      cases order' with
      | connect address' => cases address' <;> simp_all [Order.calls]
      | _ => simp_all [Order.calls, usage]

theorem execute_of_orders (session : Session) {line : Bytes} {order : Order}
    (h : Orders line order) : execute session line = order.calls session := by
  cases h with
  | blank hblank => exact execute_of_blank session hblank
  | known hlayout hmeans =>
      rw [execute_of_layout session hlayout]
      exact dispatch_of_means session hlayout.word_ne_nil hlayout.trimmed hmeans
  | unknown hlayout hword =>
      rw [execute_of_layout session hlayout]
      exact dispatch_of_unknown session hlayout.word_ne_nil hword _

/-- Every line orders one thing, and just that is carried out. -/
theorem execute_spec (session : Session) (line : Bytes) :
    ∃ order, Orders line order ∧ (∀ other, Orders line other → other = order) ∧
      execute session line = order.calls session := by
  have hunique : ∀ order other, Orders line order → Orders line other → other = order :=
    fun order other horder hother => calls_injective session
      ((execute_of_orders session hother).symm.trans (execute_of_orders session horder))
  rcases blank_or_layout line with hblank | ⟨word, args, hlayout⟩
  · exact ⟨_, .blank hblank, fun other => hunique _ other (.blank hblank),
      execute_of_blank session hblank⟩
  by_cases hword : lower word ∈ commandWords
  · obtain ⟨order, hmeans⟩ := exists_means hword hlayout.trimmed
    exact ⟨order, .known hlayout hmeans, fun other => hunique _ other (.known hlayout hmeans),
      execute_of_orders session (.known hlayout hmeans)⟩
  · exact ⟨_, .unknown hlayout hword, fun other => hunique _ other (.unknown hlayout hword),
      execute_of_orders session (.unknown hlayout hword)⟩

end Orders

end F4MP.ConsoleLanguage
