import F4MP.ConsoleLanguage
import F4MP.SkipCommands

/-!
The ids of base records: the console, the configuration and what is printed agree on how
an id is written.
-/

namespace F4MP.FormIds

open F4MP.Types
open F4MP.Arith
open F4MP.GameUtil
open F4MP.PrologueSkipModel (toLower)
open F4MP.ServerConsole
open F4MP.SessionModel
open F4MP.IniModel
open F4MP.ClientConfig
open F4MP.ConsoleText
open F4MP.ConsoleCommands
open F4MP.ConsoleLanguage
open F4MP.SkipCommands
open F4MP.Library.Hexadecimal
open F4MP.Library.Trim (Trimmed)

/-- `0x{:08X}`, as `SetCloneBase` prints it. -/
def hexText (form : Form) : Bytes := ascii "0x" ++ numeral 8 form.toNat

theorem digit_apart {c : UInt8} (hc : IsDigit c) :
    isSpace c = false ∧ c ≠ 0x2D ∧ c ≠ 0x2B ∧ toLower c ≠ 0x78 := by
  have hall : ∀ n < 256, IsDigit (UInt8.ofNat n) → isSpace (UInt8.ofNat n) = false ∧
      UInt8.ofNat n ≠ 0x2D ∧ UInt8.ofNat n ≠ 0x2B ∧ toLower (UInt8.ofNat n) ≠ 0x78 := by decide +kernel
  have hat := hall c.toNat c.toNat_lt
  rw [UInt8.ofNat_toNat] at hat
  exact hat hc

theorem takeWhile_digits {digits : Bytes} (hdigits : ∀ c ∈ digits, IsDigit c) :
    digits.takeWhile isHexDigit = digits :=
  List.takeWhile_eq_self_iff.mpr fun c hc => (isHexDigit_iff c).mpr (hdigits c hc)

section Reading

variable [Platform]

theorem stoulHex_of_digits {text digits : Bytes} {n : Nat} (hdenotes : Denotes digits n)
    (hn : n ≤ Platform.ulongMax) (hspace : ∀ c ∈ text.head?, isSpace c = false)
    (hminus : text.head? ≠ some 0x2D) (hplus : text.head? ≠ some 0x2B)
    (hdigits : (if (text.take 2).map toLower = ascii "0x" ∧ ((text.drop 2).head?).any isHexDigit then
      text.drop 2 else text) = digits) : stoulHex text = some n := by
  have hdrop : text.dropWhile isSpace = text := by
    cases text with
    | nil => rfl
    | cons c rest => rw [List.dropWhile_cons_of_neg (by simp [hspace c rfl])]
  have hempty : digits.isEmpty = false := by simpa using hdenotes.ne_nil
  rw [stoulHex, hdrop]
  simp only [hminus, hplus, or_self, if_false, hdigits, takeWhile_digits hdenotes.digits,
    hexValue_eq hdenotes.digits, hdenotes.value_eq, hempty, Bool.false_or, decide_eq_true_eq,
    not_lt.mpr hn]

theorem stoulHex_of_formId {text : Bytes} {n : Nat} (h : FormId text n) :
    stoulHex text = some n := by
  cases h with
  | plain hdenotes hn =>
      have hhead : ∀ c ∈ text.head?, IsDigit c :=
        fun c hc => hdenotes.digits c (List.mem_of_mem_head? hc)
      refine stoulHex_of_digits hdenotes hn (fun c hc => (digit_apart (hhead c hc)).1)
        (fun h => (digit_apart (hhead _ h)).2.1 rfl)
        (fun h => (digit_apart (hhead _ h)).2.2.1 rfl) (if_neg ?_)
      rintro ⟨hmark, -⟩
      have hmem : (0x78 : UInt8) ∈ (text.take 2).map toLower := by
        rw [hmark]
        decide
      obtain ⟨c, hc, hlower⟩ := List.mem_map.mp hmem
      exact (digit_apart (hdenotes.digits c (List.mem_of_mem_take hc))).2.2.2 hlower
  | @marked mark digits _ hmark hdenotes hn =>
      have hdrop : (mark ++ digits).drop 2 = digits := by rcases hmark with rfl | rfl <;> rfl
      have hlower : ((mark ++ digits).take 2).map toLower = ascii "0x" := by
        rcases hmark with rfl | rfl <;> rfl
      have hhead : (mark ++ digits).head? = some 0x30 := by rcases hmark with rfl | rfl <;> rfl
      have hfirst : (digits.head?).any isHexDigit = true := by
        cases digits with
        | nil => exact absurd rfl hdenotes.ne_nil
        | cons c rest => exact (isHexDigit_iff c).mpr (hdenotes.digits c List.mem_cons_self)
      refine stoulHex_of_digits hdenotes hn ?_ (by rw [hhead]; decide) (by rw [hhead]; decide) ?_
      · rw [hhead]
        rintro _ ⟨⟩
        rfl
      · rw [hdrop]
        exact if_pos ⟨hlower, hfirst⟩

theorem formId_hexText (form : Form) (hplatform : 2 ^ 32 - 1 ≤ Platform.ulongMax) :
    FormId (hexText form) form.toNat := by
  have hlt : form.toNat < 16 ^ 8 := form.toNat_lt
  exact .marked (.inl rfl) (denotes_numeral (by decide) hlt) (by omega)

theorem execute_cloneBase (session : Session) {line word args text : Bytes}
    (hlayout : Layout line word args) (hword : lower word = ascii "clonebase")
    (hargument : Argument args text) (form : Form) :
    execute session line = [.setCloneBase form] ↔ ∃ n, FormId text n ∧ form = UInt32.ofNat n := by
  constructor
  · intro h
    by_cases hid : ∃ n, FormId text n
    · obtain ⟨n, hn⟩ := hid
      have horder := execute_of_orders session
        (.known hlayout (by rw [hword]; exact .cloneBase hargument hn))
      rw [h] at horder
      obtain ⟨hform⟩ := Call.setCloneBase.inj (List.cons.inj horder).1
      exact ⟨n, hn, rfl⟩
    · have horder := execute_of_orders session
        (.known hlayout (by rw [hword]; exact .cloneBaseNothing hargument fun n hn => hid ⟨n, hn⟩))
      rw [h] at horder
      cases horder
  · rintro ⟨n, hn, rfl⟩
    exact execute_of_orders session
      (.known hlayout (by rw [hword]; exact .cloneBase hargument hn))

variable {F D : Type} [CppFloat F] [CppFloat D] [Widen F D] [Narrow D F] [FromCharsDouble D]

theorem load_cloneBase {file text : Bytes} {n : Nat} (hid : FormId text n)
    (hvalue : (IniModel.load file).get (ascii "Sync") (ascii "CloneBase") [] = text) :
    ∃ cfg : ClientConfig.Config F, ClientConfig.load D (some file) = some cfg ∧
      cfg.cloneBase = UInt32.ofNat n := by
  have hread := stoulHex_of_formId hid
  have hne : text ≠ [] := by
    rintro rfl
    cases hread
  obtain ⟨commands, hcommands⟩ : ∃ commands, skipCommandsOf (IniModel.load file)
      (ClientConfig.Config.initial F).skipCommands = some commands := by
    by_cases hlist : (IniModel.load file).get newGame skipCommandsKey [0x01] ≠ [0x01]
    · exact ⟨_, (if_pos hlist).trans (splitCommands_enough _)⟩
    · exact ⟨_, if_neg hlist⟩
  refine ⟨_, congrArg (Option.map _) hcommands, ?_⟩
  dsimp only
  rw [hvalue, if_pos hne, hread]
  rfl

/-- The console sets an id exactly if its argument is the text of one; the configuration
takes every such text for the same id; and an id that is printed is one, where an
`unsigned long` has its 32 bits. -/
theorem form_ids_agree (session : Session) :
    (∀ line word args text, Layout line word args → lower word = ascii "clonebase" →
      Argument args text → ∀ form, execute session line = [.setCloneBase form] ↔
        ∃ n, FormId text n ∧ form = UInt32.ofNat n) ∧
    (∀ text n, FormId text n → ∀ file,
      (IniModel.load file).get (ascii "Sync") (ascii "CloneBase") [] = text →
        ∃ cfg : ClientConfig.Config F, ClientConfig.load D (some file) = some cfg ∧
          cfg.cloneBase = UInt32.ofNat n) ∧
    (2 ^ 32 - 1 ≤ Platform.ulongMax →
      ∀ form : Form, ∃ n, FormId (hexText form) n ∧ form = UInt32.ofNat n) :=
  ⟨fun _ _ _ _ hlayout hword hargument => execute_cloneBase session hlayout hword hargument,
    fun _ _ hid _ => load_cloneBase hid,
    fun hplatform form => ⟨_, formId_hexText form hplatform, UInt32.ofNat_toNat.symm⟩⟩

end Reading

end F4MP.FormIds
