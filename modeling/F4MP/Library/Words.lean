import Mathlib.Data.List.TakeWhile

/-!
The words of a list: its maximal runs without a separator.
-/

namespace F4MP.Library.Words

variable {α : Type*} {p : α → Bool}

def words (p : α → Bool) (l : List α) : List (List α) :=
  (l.splitOnP p).filter fun word => !word.isEmpty

theorem words_append_cons (front back : List α) {c : α} (hc : p c = true) :
    words p (front ++ c :: back) = words p front ++ words p back := by
  rw [words, List.splitOnP_append_cons front back hc, List.filter_append]
  rfl

theorem words_cons {c : α} (hc : p c = true) (l : List α) : words p (c :: l) = words p l :=
  words_append_cons [] l hc

theorem words_append_left {pad : List α} (hpad : ∀ c ∈ pad, p c = true) (l : List α) :
    words p (pad ++ l) = words p l := by
  induction pad with
  | nil => rfl
  | cons c pad ih =>
      obtain ⟨hc, hpad⟩ := List.forall_mem_cons.mp hpad
      rw [List.cons_append, words_cons hc, ih hpad]

theorem words_eq_singleton {word : List α} (hne : word ≠ []) (hword : ∀ c ∈ word, p c = false) :
    words p word = [word] := by
  rw [words, List.splitOnP_eq_singleton hword]
  simp [hne]

/-- A list with a first word: separators, the word, and what is left, which starts with a
separator. -/
structure FirstWord (p : α → Bool) (pad word rest : List α) : Prop where
  pad : ∀ c ∈ pad, p c = true
  ne_nil : word ≠ []
  word : ∀ c ∈ word, p c = false
  rest : ∀ c ∈ rest.head?, p c = true

theorem FirstWord.words_eq {pad word rest : List α} (h : FirstWord p pad word rest) :
    words p (pad ++ word ++ rest) = word :: words p rest := by
  rw [List.append_assoc, words_append_left h.pad]
  cases rest with
  | nil =>
      rw [List.append_nil, words_eq_singleton h.ne_nil h.word]
      rfl
  | cons c rest =>
      have hc : p c = true := h.rest c rfl
      rw [words_append_cons word rest hc, words_eq_singleton h.ne_nil h.word, words_cons hc]
      rfl

theorem exists_firstWord {l word : List α} {later : List (List α)} (h : words p l = word :: later) :
    ∃ pad rest, l = pad ++ word ++ rest ∧ FirstWord p pad word rest ∧ words p rest = later := by
  have hpad : ∀ c ∈ l.takeWhile p, p c = true := fun c hc => List.mem_takeWhile_imp hc
  have hsplit := List.takeWhile_append_dropWhile (p := p) (l := l)
  cases hleft : l.dropWhile p with
  | nil =>
      rw [hleft] at hsplit
      rw [← hsplit, words_append_left hpad] at h
      cases h
  | cons c back =>
      have hc : p c = false := by
        have hhead := List.head?_dropWhile_not p l
        rw [hleft] at hhead
        exact hhead
      have hback := List.takeWhile_append_dropWhile (p := fun c => !p c) (l := c :: back)
      have hfirst : FirstWord p (l.takeWhile p) ((c :: back).takeWhile fun c => !p c)
          ((c :: back).dropWhile fun c => !p c) := by
        refine ⟨hpad, ?_, fun d hd => by simpa using List.mem_takeWhile_imp hd, fun d hd => ?_⟩
        · rw [List.takeWhile_cons_of_pos (by simp [hc])]
          exact List.cons_ne_nil _ _
        · have hhead := List.head?_dropWhile_not (fun c => !p c) (c :: back)
          rw [show (List.dropWhile (fun c => !p c) (c :: back)).head? = some d from hd] at hhead
          simpa using hhead
      rw [hleft, ← hback, ← List.append_assoc] at hsplit
      rw [← hsplit, hfirst.words_eq] at h
      obtain ⟨rfl, rfl⟩ := List.cons.inj h
      exact ⟨_, _, hsplit.symm, hfirst, rfl⟩

end F4MP.Library.Words
