import F4MP.Library.Occurrences
import F4MP.Library.Words
import F4MP.Native
import F4MP.ServerConsole

/-!
The free text of a console line: what arrives of what `say` broadcasts and of what `kick`
gives as its reason.  The line is split at any whitespace, but the text is cut out by
searches of its own: `say` takes what follows the first space.  A packet has room for the
first 4096 bytes of a text.
-/

namespace F4MP.ConsoleText

open F4MP.Types
open F4MP.Packet
open F4MP.Protocol
open F4MP.Messages
open F4MP.ServerModel
open F4MP.ServerConsole
open F4MP.Library.HashTable
open F4MP.Library.Occurrences
open F4MP.Library.Words

/-- A run of whitespace. -/
def Spaces (pad : Bytes) : Prop := ∀ c ∈ pad, isSpace c = true

/-- The line is some front, one whitespace character and the text. -/
structure Follows (line front : Bytes) (w : UInt8) (text : Bytes) : Prop where
  line_eq : line = front ++ w :: text
  space : isSpace w = true

theorem exists_token {line token next : Bytes} {later : List Bytes}
    (hsplit : split line = token :: next :: later) :
    ∃ pad rest, line = pad ++ token ++ rest ∧ Spaces pad ∧ token ≠ [] ∧
      (∀ c ∈ token, isSpace c = false) ∧ split rest = next :: later ∧
      ∃ w text, rest = w :: text ∧ isSpace w = true := by
  obtain ⟨pad, rest, hline, hfirst, hrest⟩ := exists_firstWord (p := isSpace) hsplit
  refine ⟨pad, rest, hline, hfirst.pad, hfirst.ne_nil, hfirst.word, hrest, ?_⟩
  cases rest with
  | nil => cases hrest
  | cons w text => exact ⟨w, text, rfl, hfirst.rest w rfl⟩

/-- The text `say` hands to `ServerChat`. -/
def sayText (line : Bytes) : Option Bytes :=
  (line.idxOf? 0x20).map fun pos => line.drop (pos + 1)

theorem executeSay_eq (s : Server) (line : Bytes) :
    executeSay s line = (s, ((sayText line).map (serverChat s)).getD []) := by
  rw [executeSay, sayText]
  cases line.idxOf? 0x20 <;> rfl

theorem sayText_eq_some {line text : Bytes} :
    sayText line = some text ↔ ∃ front, line = front ++ 0x20 :: text ∧ 0x20 ∉ front := by
  constructor
  · intro hsay
    obtain ⟨pos, hpos, rfl⟩ := Option.map_eq_some_iff.mp hsay
    obtain ⟨hlt, hat, hbefore⟩ := List.idxOf?_eq_some_iff.mp hpos
    refine ⟨line.take pos, ?_, fun hmem => ?_⟩
    · rw [← hat, List.getElem_cons_drop, List.take_append_drop]
    · obtain ⟨j, hj, hspace⟩ := List.getElem_of_mem hmem
      rw [List.getElem_take] at hspace
      exact hbefore j (hj.trans_le (List.length_take_le _ _)) hspace
  · rintro ⟨front, rfl, hfront⟩
    rw [sayText, idxOf?_append_cons hfront]
    simp

/-- The text of a chat message on the wire. -/
def chatText (bytes : Bytes) : Option Bytes :=
  match decode bytes with
  | some (.chatBroadcast m) => some m.text
  | _ => none

theorem chatText_encode (m : ChatBroadcastMsg) :
    chatText (encode m) = some (m.text.take maxStringBytes) := by
  rw [chatText, decode_chatBroadcast]
  rfl

theorem take_eq_iff {long text : Bytes} (h : text.length < long.length) (n : Nat) :
    long.take n = text ↔ text.length = n ∧ text <+: long := by
  constructor
  · rintro rfl
    rw [List.length_take] at h ⊢
    exact ⟨by omega, List.take_prefix n long⟩
  · rintro ⟨rfl, hprefix⟩
    exact (List.prefix_iff_eq_take.mp hprefix).symm

/-- Behind a space in front of the word, more than the text is said. -/
theorem take_sayText_early {front more text : Bytes} {w : UInt8} (hfront : 0x20 ∉ front) :
    (sayText (front ++ 0x20 :: more ++ ascii "say" ++ w :: text)).map (·.take maxStringBytes) =
        some text ↔
      text.length = maxStringBytes ∧ text <+: more ++ ascii "say" ++ w :: text := by
  have hsay : sayText (front ++ 0x20 :: more ++ ascii "say" ++ w :: text) =
      some (more ++ ascii "say" ++ w :: text) :=
    sayText_eq_some.mpr ⟨front, by simp, hfront⟩
  rw [hsay, Option.map_some, Option.some_inj]
  exact take_eq_iff (by simp; omega) _

/-- The first space is in the text, so less than the text is said. -/
theorem length_sayText_late {pad text said : Bytes} {w : UInt8} (hpad : 0x20 ∉ pad)
    (hw : w ≠ 0x20) (hsaid : sayText (pad ++ ascii "say" ++ w :: text) = some said) :
    said.length < text.length := by
  obtain ⟨front, hline, hfront⟩ := sayText_eq_some.mp hsaid
  have hword : (0x20 : UInt8) ∉ ascii "say" := by decide
  have hlong : (pad ++ ascii "say" ++ [w]).length ≤ front.length := by
    by_contra hshort
    have hsplit : front ++ [0x20] <+: pad ++ ascii "say" ++ w :: text :=
      ⟨said, by rw [hline]; simp⟩
    have hprefix : front ++ [0x20] <+: pad ++ ascii "say" ++ [w] := by
      refine List.prefix_of_prefix_length_le hsplit ⟨text, by simp⟩ ?_
      simp only [List.length_append, List.length_singleton] at hshort ⊢
      omega
    have hmem : (0x20 : UInt8) ∈ pad ++ ascii "say" ++ [w] := hprefix.subset (by simp)
    simp [hpad, hword, Ne.symm hw] at hmem
  have hlength := congrArg List.length hline
  simp only [List.length_append, List.length_cons, List.length_nil] at hlength hlong
  omega

/-- The text arrives exactly if it fits a packet and the first space of the line is the
character right after the word; or if it fills a packet, and the line says the same from
its first space on, which is in front of the word. -/
theorem take_sayText_eq_iff {pad text : Bytes} {w : UInt8} :
    (sayText (pad ++ ascii "say" ++ w :: text)).map (·.take maxStringBytes) = some text ↔
      (0x20 ∉ pad ∧ w = 0x20 ∧ text.length ≤ maxStringBytes) ∨
      (text.length = maxStringBytes ∧ ∃ front more, pad = front ++ 0x20 :: more ∧ 0x20 ∉ front ∧
        text <+: more ++ ascii "say" ++ w :: text) := by
  have hword : (0x20 : UInt8) ∉ ascii "say" := by decide
  by_cases hpad : 0x20 ∈ pad
  · constructor
    · intro harrives
      obtain ⟨front, more, rfl, hfront⟩ := List.eq_append_cons_of_mem hpad
      obtain ⟨hlength, hsame⟩ := (take_sayText_early hfront).mp harrives
      exact .inr ⟨hlength, front, more, rfl, hfront, hsame⟩
    · rintro (⟨hnone, -⟩ | ⟨hlength, front, more, rfl, hfront, hsame⟩)
      · exact absurd hpad hnone
      · exact (take_sayText_early hfront).mpr ⟨hlength, hsame⟩
  have hlate : ¬ ∃ front more, pad = front ++ 0x20 :: more ∧ 0x20 ∉ front ∧
      text <+: more ++ ascii "say" ++ w :: text := by
    rintro ⟨front, more, rfl, -⟩
    exact hpad (by simp)
  simp only [hpad, hlate, and_false, or_false, not_false_eq_true, true_and]
  by_cases hw : w = 0x20
  · subst hw
    have hsay : sayText (pad ++ ascii "say" ++ 0x20 :: text) = some text :=
      sayText_eq_some.mpr ⟨_, rfl, by simp [hpad, hword]⟩
    rw [hsay, Option.map_some, Option.some_inj, List.take_eq_self_iff]
    exact (and_iff_right rfl).symm
  · refine iff_of_false (fun harrives => ?_) fun h => hw h.1
    obtain ⟨said, hsaid, htake⟩ := Option.map_eq_some_iff.mp harrives
    have hshort := length_sayText_late hpad hw hsaid
    have hlength := congrArg List.length htake
    rw [List.length_take] at hlength
    omega

theorem findSub_of_prefix (needle back : Bytes) : findSub needle (needle ++ back) = some 0 := by
  cases hall : needle ++ back with
  | nil =>
      obtain ⟨rfl, -⟩ := List.append_eq_nil_iff.mp hall
      rfl
  | cons c rest =>
      rw [findSub, if_pos]
      rw [← hall, List.isPrefixOf_iff_prefix]
      exact List.prefix_append needle back

theorem findSub_append (needle front back : Bytes) :
    ∃ pos ≤ front.length, findSub needle (front ++ (needle ++ back)) = some pos := by
  induction front with
  | nil => exact ⟨0, le_rfl, findSub_of_prefix needle back⟩
  | cons c front ih =>
      obtain ⟨pos, hle, hfound⟩ := ih
      rw [List.cons_append, findSub]
      split
      · exact ⟨0, Nat.zero_le _, rfl⟩
      · rw [hfound]
        exact ⟨pos + 1, Nat.succ_le_succ hle, rfl⟩

theorem findSub_eq {needle front : Bytes} (hne : needle ≠ [])
    (hfront : ∀ c ∈ needle.head?, c ∉ front) (back : Bytes) :
    findSub needle (front ++ (needle ++ back)) = some front.length := by
  obtain ⟨c, tail, rfl⟩ := List.exists_cons_of_ne_nil hne
  have hc := hfront c rfl
  induction front with
  | nil => exact findSub_of_prefix _ back
  | cons d front ih =>
      obtain ⟨hd, hfront'⟩ := not_or.mp (mt List.mem_cons.mpr hc)
      have hnot : ¬(c :: tail).isPrefixOf (d :: (front ++ (c :: tail ++ back))) = true := by
        simp [List.isPrefixOf, hd]
      rw [List.cons_append, findSub, if_neg hnot, ih _ hfront']
      · rfl
      · rintro _ ⟨⟩
        exact hfront'

theorem exists_reason {line idText word : Bytes} {words : List Bytes}
    (hsplit : split line = ascii "kick" :: idText :: word :: words) :
    ∃ pad gap w text, Follows line (pad ++ ascii "kick" ++ gap ++ idText) w text ∧
      Spaces pad ∧ Spaces gap ∧ idText ≠ [] ∧ ∀ c ∈ idText, isSpace c = false := by
  obtain ⟨pad, rest, rfl, hpad, -, -, hrest, -⟩ := exists_token hsplit
  obtain ⟨gap, back, rfl, hgap, hne, htoken, -, w, text, rfl, hw⟩ := exists_token hrest
  exact ⟨pad, gap, w, text, ⟨by simp, hw⟩, hpad, hgap, hne, htoken⟩

theorem kickReason_ne_none {line idText : Bytes} {words : List Bytes}
    (hsplit : split line = ascii "kick" :: idText :: words) :
    kickReason line (ascii "kick" :: idText :: words) idText ≠ none := by
  cases words with
  | nil => simp [kickReason]
  | cons word words =>
      obtain ⟨pad, gap, w, text, hline, -, -, -, -⟩ := exists_reason hsplit
      obtain ⟨pos, hle, hfound⟩ := findSub_append idText (pad ++ ascii "kick" ++ gap) (w :: text)
      rw [← List.append_assoc, ← hline.line_eq] at hfound
      have hlength : pos + idText.length + 1 ≤ line.length := by
        rw [hline.line_eq]
        simp only [List.length_append, List.length_cons] at hle ⊢
        omega
      rw [kickReason, if_pos (by simp), hfound, Option.bind_some, substr, if_pos hlength]
      exact Option.some_ne_none _

section Commands

variable [Platform]

theorem head_of_stoul {token : Bytes} {id : Nat} (hread : stoul token = some id) :
    ∀ c ∈ token.head?, isDigit c = true ∨ c = 0x2D ∨ c = 0x2B := by
  cases token with
  | nil => rintro c ⟨⟩
  | cons c rest =>
      rintro _ ⟨⟩
      by_contra hnot
      obtain ⟨hdigit, hminus, hplus⟩ := not_or.mp hnot |>.imp_right not_or.mp
      have htake : (c :: rest).takeWhile isDigit = [] := List.takeWhile_cons_of_neg hdigit
      rw [stoul] at hread
      · rw [htake] at hread
        cases hread
      · rintro rest ⟨⟩
        exact hminus rfl
      · rintro rest ⟨⟩
        exact hplus rfl

/-- The reason is what follows the id: nothing in front of an id looks like its beginning. -/
theorem kickReason_eq {line idText word : Bytes} {words : List Bytes} {id : Nat}
    {pad gap text : Bytes} {w : UInt8}
    (hline : Follows line (pad ++ ascii "kick" ++ gap ++ idText) w text) (hpad : Spaces pad)
    (hgap : Spaces gap) (hne : idText ≠ []) (htoken : ∀ c ∈ idText, isSpace c = false)
    (hread : stoul idText = some id) :
    kickReason line (ascii "kick" :: idText :: word :: words) idText = some text := by
  have hfront : ∀ c ∈ idText.head?, c ∉ pad ++ ascii "kick" ++ gap := by
    intro c hc hmem
    have hspace : isSpace c = false := htoken c (List.mem_of_mem_head? hc)
    rcases List.mem_append.mp hmem with hmem | hmem
    · rcases List.mem_append.mp hmem with hmem | hmem
      · exact absurd (hpad c hmem) (by simp [hspace])
      · have hletter : ∀ c ∈ ascii "kick", isDigit c = false ∧ c ≠ 0x2D ∧ c ≠ 0x2B := by
          decide +kernel
        obtain ⟨hdigit, hminus, hplus⟩ := hletter c hmem
        rcases head_of_stoul hread c hc with h | h | h
        · exact absurd h (by simp [hdigit])
        · exact hminus h
        · exact hplus h
    · exact absurd (hgap c hmem) (by simp [hspace])
  have hfound := findSub_eq hne hfront (w :: text)
  rw [← List.append_assoc, ← hline.line_eq] at hfound
  have hsubstr : substr line ((pad ++ ascii "kick" ++ gap).length + idText.length + 1) =
      some text := by
    rw [← List.length_append, hline.line_eq]
    generalize pad ++ ascii "kick" ++ gap ++ idText = front
    rw [substr, if_pos (by simp)]
    simp
  rw [kickReason, if_pos (by simp), hfound, Option.bind_some, hsubstr]

/-- The reason in a rejection on the wire. -/
def rejectReason (bytes : Bytes) : Option Bytes :=
  match decode bytes with
  | some (.reject m) => some m.reason
  | _ => none

omit [Platform] in
theorem rejectReason_encode (m : RejectMsg) :
    rejectReason (encode m) = some (m.reason.take maxStringBytes) := by
  rw [rejectReason, decode_reject]
  rfl

/-- On every line: what `say` broadcasts to everyone reads as the part after its word
exactly if that part fits a packet and the first space of the line is the character right
after the word, but for texts that fill a packet and that the line repeats from an earlier
space on; what `kick` rejects a player with reads as the part after the id exactly if that
part fits a packet; and nothing is cut out from past the end. -/
theorem console_text (line : Bytes) :
    (∀ next later, split line = ascii "say" :: next :: later →
      ∃ pad w text, ∃ packet : Option Bytes, Follows line (pad ++ ascii "say") w text ∧
        Spaces pad ∧
        (∀ s, executeCommand s line =
          (s, (packet.map fun bytes => broadcast s .kReliable bytes none).getD [])) ∧
        (packet.bind chatText = some text ↔
          (0x20 ∉ pad ∧ w = 0x20 ∧ text.length ≤ maxStringBytes) ∨
          (text.length = maxStringBytes ∧ ∃ front more, pad = front ++ 0x20 :: more ∧
            0x20 ∉ front ∧ text <+: more ++ ascii "say" ++ w :: text))) ∧
    (∀ idText word words, split line = ascii "kick" :: idText :: word :: words →
      ∃ pad gap w text packet, Follows line (pad ++ ascii "kick" ++ gap ++ idText) w text ∧
        Spaces pad ∧ Spaces gap ∧
        (∀ s id entry, stoul idText = some id → removeBot s (UInt32.ofNat id) = none →
          findPlayer s (UInt32.ofNat id) = some entry → executeCommand s line =
            (s, send entry.1 .kReliable packet ++ [.disconnectLater entry.1])) ∧
        (rejectReason packet = some text ↔ text.length ≤ maxStringBytes)) ∧
    (∀ pos, line.idxOf? 0x20 = some pos → pos + 1 ≤ line.length) ∧
    ∀ idText words, split line = ascii "kick" :: idText :: words →
      kickReason line (split line) idText ≠ none := by
  refine ⟨fun next later hsplit => ?_, fun idText word words hsplit => ?_, fun pos hpos => ?_,
    fun idText words hsplit => ?_⟩
  · obtain ⟨pad, _, hline, hpad, -, -, -, w, text, rfl, hw⟩ := exists_token hsplit
    refine ⟨pad, w, text, (sayText line).map fun text => encode { text : ChatBroadcastMsg },
      ⟨hline, hw⟩, hpad, fun s => ?_, ?_⟩
    · rw [Option.map_map]
      refine Eq.trans ?_ (executeSay_eq s line)
      rw [executeCommand, hsplit]
      rfl
    · rw [hline, ← take_sayText_eq_iff, Option.bind_map]
      cases sayText (pad ++ ascii "say" ++ w :: text) with
      | none => rfl
      | some said => rw [Option.bind_some, Function.comp_apply, chatText_encode, Option.map_some]
  · obtain ⟨pad, gap, w, text, hline, hpad, hgap, hne, htoken⟩ := exists_reason hsplit
    refine ⟨pad, gap, w, text, encode { reason := text : RejectMsg }, hline, hpad, hgap,
      fun s id entry hread hbot hplayer => ?_, ?_⟩
    swap
    · rw [rejectReason_encode, Option.some_inj, List.take_eq_self_iff]
    have hreason : kickReason line (ascii "kick" :: idText :: word :: words) idText = some text :=
      kickReason_eq hline hpad hgap hne htoken hread
    rw [executeCommand, hsplit]
    dsimp only
    rw [if_neg (by decide), if_neg (by decide), if_pos rfl, executeKick]
    simp only [hread, hbot, hplayer, hreason]
    rfl
  · obtain ⟨hlt, -, -⟩ := List.idxOf?_eq_some_iff.mp hpos
    exact hlt
  · rw [hsplit]
    exact kickReason_ne_none hsplit

end Commands

section Example

open F4MP.Native

def audience : Server where
  config := {}
  players := (∅ : UnorderedMap Peer Player).insert 1 { id := 1, handshaked := true }

/-- A tab after the word. -/
theorem say_tab : ¬ ∀ (line next pad text : Bytes) (later : List Bytes) (w : UInt8),
    split line = ascii "say" :: next :: later → Follows line (pad ++ ascii "say") w text →
      Spaces pad → ∃ packet, chatText packet = some text ∧
        ∀ s, executeCommand s line = (s, broadcast s .kReliable packet none) := by
  intro h
  obtain ⟨packet, htext, hsaid⟩ := h (ascii "say" ++ 0x09 :: ascii "hello world") (ascii "hello") []
    (ascii "hello world") [ascii "world"] 0x09 (by decide +kernel) ⟨rfl, by decide⟩
    (by rintro c ⟨⟩)
  have hworld : (executeCommand audience (ascii "say" ++ 0x09 :: ascii "hello world")).2 =
      [.send 1 .kReliable (encode { text := ascii "world" : ChatBroadcastMsg })] := by
    decide +kernel
  have hsent : broadcast audience .kReliable packet none = [.send 1 .kReliable packet] := rfl
  rw [hsaid audience, hsent] at hworld
  cases hworld
  exact absurd htext (by decide +kernel)

end Example

end F4MP.ConsoleText
