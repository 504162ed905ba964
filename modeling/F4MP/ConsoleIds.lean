import F4MP.ConsoleText

/-!
The ids of a console line: whom `kick` and `bot remove` act on.  The number at the front
of the argument is taken, whatever follows it, and cut to 32 bits.
-/

namespace F4MP.ConsoleIds

open F4MP.Types
open F4MP.ServerModel
open F4MP.ServerConsole
open F4MP.ConsoleText
open F4MP.Library.Decimal

theorem removeBot_ne {s : Server} {id : PlayerId} {result : Server × List Out}
    (hremove : removeBot s id = some result) : result ≠ (s, []) := by
  rintro rfl
  rw [removeBot] at hremove
  cases hfind : s.bots.find? (·.id == id) with
  | none =>
      rw [hfind] at hremove
      cases hremove
  | some bot =>
      rw [hfind] at hremove
      have hbots := congrArg (fun result : Server × List Out => result.1.bots.length)
        (Option.some.inj hremove)
      have hlength := List.length_eraseP_of_mem (List.mem_of_find?_eq_some hfind)
        (List.find?_some hfind)
      have hpos := List.length_pos_of_mem (List.mem_of_find?_eq_some hfind)
      dsimp only at hbots
      omega

theorem kick_ne {s : Server} {peer : Peer} {reason : Bytes} : (s, kick peer reason) ≠ (s, []) := by
  intro heq
  have houts := congrArg Prod.snd heq
  simp [kick] at houts

section Commands

variable [Platform]

def Removes (s : Server) (line : Bytes) (id : PlayerId) : Prop :=
  ∃ result, removeBot s id = some result ∧ executeCommand s line = result

def Kicks (s : Server) (line : Bytes) (id : PlayerId) : Prop :=
  ∃ entry reason, findPlayer s id = some entry ∧ executeCommand s line = (s, kick entry.1 reason)

/-- Nothing happens, or the argument is a numeral and the one with that id is struck. -/
def TakenWhole (s : Server) (line arg : Bytes) : Prop :=
  executeCommand s line = (s, []) ∨
    ∃ id : PlayerId, Denotes arg id.toNat ∧ (Removes s line id ∨ Kicks s line id)

/-- The argument is the numeral of an id. -/
def IdNumeral (arg : Bytes) : Prop := ∃ id : PlayerId, Denotes arg id.toNat

/-- `std::stoul` does not take the argument, or no bot has the number cut to 32 bits. -/
def NoBot (s : Server) (arg : Bytes) : Prop :=
  ∀ n, stoul arg = some n → removeBot s (UInt32.ofNat n) = none

/-- Nor has a player. -/
def NoPlayer (s : Server) (arg : Bytes) : Prop :=
  ∀ n, stoul arg = some n → findPlayer s (UInt32.ofNat n) = none

theorem stoul_of_idNumeral {arg : Bytes} {id : PlayerId} (hdenotes : Denotes arg id.toNat) {n : Nat}
    (hread : stoul arg = some n) : UInt32.ofNat n = id := by
  rw [stoul_of_denotes hdenotes] at hread
  split at hread
  next => cases hread
  next =>
    cases hread
    exact UInt32.ofNat_toNat

/-- What a command may do for which `nobody` says that there is nobody to strike. -/
theorem takenWhole_iff {s : Server} {line arg : Bytes} {nobody : Prop}
    (hidle : nobody → executeCommand s line = (s, []))
    (hstrikes : executeCommand s line = (s, []) ∧ nobody ∨ ∃ n, stoul arg = some n ∧
      (Removes s line (UInt32.ofNat n) ∨ Kicks s line (UInt32.ofNat n))) :
    TakenWhole s line arg ↔ IdNumeral arg ∨ nobody := by
  constructor
  · rintro (hnothing | ⟨id, hdenotes, -⟩)
    · rcases hstrikes with ⟨-, hnobody⟩ | ⟨n, -, hremoves | hkicks⟩
      · exact .inr hnobody
      · obtain ⟨result, hremove, hresult⟩ := hremoves
        exact absurd (hresult.symm.trans hnothing) (removeBot_ne hremove)
      · obtain ⟨entry, reason, -, hresult⟩ := hkicks
        exact absurd (hresult.symm.trans hnothing) kick_ne
    · exact .inl ⟨id, hdenotes⟩
  · rintro (⟨id, hdenotes⟩ | hnobody)
    · rcases hstrikes with ⟨hnothing, -⟩ | ⟨n, hread, hstruck⟩
      · exact .inl hnothing
      · rw [stoul_of_idNumeral hdenotes hread] at hstruck
        exact .inr ⟨id, hdenotes, hstruck⟩
    · exact .inl (hidle hnobody)

theorem executeCommand_remove (s : Server) {line arg : Bytes} {rest : List Bytes}
    (hsplit : split line = ascii "bot" :: ascii "remove" :: arg :: rest) (hall : arg ≠ ascii "all") :
    executeCommand s line =
      ((stoul arg).bind fun n => removeBot s (UInt32.ofNat n)).getD (s, []) := by
  have hbot : executeCommand s line = executeBotRemove s arg := by
    rw [executeCommand, hsplit]
    rfl
  rw [hbot, executeBotRemove, if_neg hall]
  cases stoul arg <;> rfl

theorem takenWhole_remove (s : Server) {line arg : Bytes} {rest : List Bytes}
    (hsplit : split line = ascii "bot" :: ascii "remove" :: arg :: rest) (hall : arg ≠ ascii "all") :
    TakenWhole s line arg ↔ IdNumeral arg ∨ NoBot s arg := by
  have hcommand := executeCommand_remove s hsplit hall
  have hidle : NoBot s arg → executeCommand s line = (s, []) := by
    intro hnobody
    rw [hcommand]
    cases hread : stoul arg with
    | none => rfl
    | some n => rw [Option.bind_some, hnobody n hread, Option.getD_none]
  refine takenWhole_iff hidle ?_
  by_cases hnobody : NoBot s arg
  · exact .inl ⟨hidle hnobody, hnobody⟩
  · simp only [NoBot, not_forall] at hnobody
    obtain ⟨n, hread, hbot⟩ := hnobody
    obtain ⟨result, hresult⟩ := Option.ne_none_iff_exists'.mp hbot
    refine .inr ⟨n, hread, .inl ⟨result, hresult, ?_⟩⟩
    rw [hcommand, hread, Option.bind_some, hresult, Option.getD_some]

theorem executeCommand_kick (s : Server) {line arg : Bytes} {rest : List Bytes}
    (hsplit : split line = ascii "kick" :: arg :: rest) :
    executeCommand s line = executeKick s line (ascii "kick" :: arg :: rest) := by
  rw [executeCommand, hsplit]
  rfl

theorem takenWhole_kick (s : Server) {line arg : Bytes} {rest : List Bytes}
    (hsplit : split line = ascii "kick" :: arg :: rest) :
    TakenWhole s line arg ↔ IdNumeral arg ∨ NoBot s arg ∧ NoPlayer s arg := by
  have hcommand := executeCommand_kick s hsplit
  have hidle : NoBot s arg ∧ NoPlayer s arg → executeCommand s line = (s, []) := by
    rintro ⟨hnobot, hnoplayer⟩
    rw [hcommand, executeKick]
    cases hread : stoul arg with
    | none => rfl
    | some n => simp only [hnobot n hread, hnoplayer n hread]
  refine takenWhole_iff hidle ?_
  by_cases hnobody : NoBot s arg ∧ NoPlayer s arg
  · exact .inl ⟨hidle hnobody, hnobody⟩
  · obtain ⟨n, hread, hsomebody⟩ : ∃ n, stoul arg = some n ∧
        (removeBot s (UInt32.ofNat n) = none → findPlayer s (UInt32.ofNat n) ≠ none) := by
      by_contra hnone
      simp only [not_exists, not_and, Classical.not_imp, not_not] at hnone
      exact hnobody ⟨fun n hread => (hnone n hread).1, fun n hread => (hnone n hread).2⟩
    refine .inr ⟨n, hread, ?_⟩
    cases hbot : removeBot s (UInt32.ofNat n) with
    | some result =>
        refine .inl ⟨result, hbot, ?_⟩
        rw [hcommand, executeKick]
        simp only [hread, hbot]
    | none =>
        obtain ⟨entry, hplayer⟩ := Option.ne_none_iff_exists'.mp (hsomebody hbot)
        obtain ⟨reason, hreason⟩ := Option.ne_none_iff_exists'.mp (kickReason_ne_none hsplit)
        refine .inr ⟨entry, reason, hplayer, ?_⟩
        rw [hcommand, executeKick]
        simp only [hread, hbot, hplayer, hreason]

/-- An id on a console line is taken whole exactly if it is the numeral of an id, or
`std::stoul` refuses it, or nobody has the number at its front, cut to 32 bits. -/
theorem console_ids (s : Server) (line arg : Bytes) (rest : List Bytes) :
    (split line = ascii "bot" :: ascii "remove" :: arg :: rest → arg ≠ ascii "all" →
      (TakenWhole s line arg ↔ IdNumeral arg ∨ NoBot s arg)) ∧
    (split line = ascii "kick" :: arg :: rest →
      (TakenWhole s line arg ↔ IdNumeral arg ∨ NoBot s arg ∧ NoPlayer s arg)) :=
  ⟨fun hsplit hall => takenWhole_remove s hsplit hall, fun hsplit => takenWhole_kick s hsplit⟩

end Commands

section Example

open F4MP.Native

/-- A numeral of an id strikes its player, also with a zero before it, and a number with
letters behind it strikes no bot if there is none. -/
theorem numeral_is_taken :
    TakenWhole audience (ascii "kick 01 bye") (ascii "01") ∧
      TakenWhole audience (ascii "bot remove 2nd") (ascii "2nd") := by
  constructor
  · refine ((console_ids audience _ _ [ascii "bye"]).2 (by decide +kernel)).mpr (.inl ⟨1, ?_⟩)
    exact ⟨by decide, by decide +kernel, by decide⟩
  · refine ((console_ids audience _ _ []).1 (by decide +kernel) (by decide)).mpr (.inr ?_)
    exact fun n _ => rfl

/-- A player is kicked by a number with letters behind it. -/
theorem kick_prefixed : ¬ ∀ (s : Server) (line arg : Bytes) (rest : List Bytes),
    split line = ascii "kick" :: arg :: rest → TakenWhole s line arg := by
  intro h
  rcases h audience (ascii "kick 1abc") (ascii "1abc") [] (by decide +kernel) with hnothing | hwhole
  · exact absurd (congrArg Prod.snd hnothing) (by decide +kernel)
  · obtain ⟨id, hdenotes, -⟩ := hwhole
    exact absurd (hdenotes.digits 0x61 (by decide)) (by decide)

end Example

end F4MP.ConsoleIds
