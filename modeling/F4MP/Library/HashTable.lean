import Mathlib.Data.List.AList

/-!
A hash map with unspecified iteration order: an association list with distinct
keys whose entries may be put in any order before they are iterated over.
-/

namespace F4MP.Library.HashTable

/-- A map whose list of entries is one of the orders an iteration can take. -/
abbrev UnorderedMap (κ ν : Type) := AList fun _ : κ => ν

/-- An order to iterate in: some rearrangement of every list. -/
structure Shuffle (α : Type) where
  apply : List α → List α
  perm : ∀ entries, (apply entries).Perm entries

def Shuffle.keep (α : Type) : Shuffle α := ⟨id, fun _ => .refl _⟩

/-- An order that takes the entries as they stand in `target`, if these are the same. -/
def Shuffle.toward {α : Type} [DecidableEq α] (target : List α) : Shuffle α where
  apply entries := if entries.Perm target then target else entries
  perm entries := by
    split
    · rename_i hperm
      exact hperm.symm
    · exact .refl _

variable {κ ν β : Type}

def arrange (order : Shuffle (Sigma fun _ : κ => ν)) (m : UnorderedMap κ ν) :
    UnorderedMap κ ν where
  entries := order.apply m.entries
  nodupKeys := (List.perm_nodupKeys (order.perm m.entries)).mpr m.nodupKeys

theorem arrange_perm (order : Shuffle (Sigma fun _ : κ => ν)) (m : UnorderedMap κ ν) :
    (arrange order m).entries.Perm m.entries :=
  order.perm m.entries

/-- Every value replaced, each entry where it stands. -/
def mapValues (f : κ → ν → ν) (m : UnorderedMap κ ν) : UnorderedMap κ ν where
  entries := m.entries.map fun entry => ⟨entry.1, f entry.1 entry.2⟩
  nodupKeys := by
    have hkeys : (m.entries.map fun entry => (⟨entry.1, f entry.1 entry.2⟩ :
        Sigma fun _ : κ => ν)).keys = m.entries.keys := by
      simp [List.keys, List.map_map, Function.comp_def]
    rw [List.NodupKeys, hkeys]
    exact m.nodupKeys

variable [DecidableEq κ]

/-- `try_emplace`: an entry that is there already is left alone. -/
def emplace (key : κ) (value : ν) (m : UnorderedMap κ ν) : UnorderedMap κ ν :=
  if key ∈ m then m else m.insert key value

/-- Changes the value behind one key, where it stands. -/
def modify (key : κ) (f : ν → ν) (m : UnorderedMap κ ν) : UnorderedMap κ ν :=
  mapValues (fun k value => if k = key then f value else value) m

@[simp] theorem lookup_arrange (order : Shuffle (Sigma fun _ : κ => ν)) (m : UnorderedMap κ ν)
    (key : κ) : (arrange order m).lookup key = m.lookup key :=
  AList.perm_lookup (arrange_perm order m)

@[simp] theorem lookup_mapValues (f : κ → ν → ν) (m : UnorderedMap κ ν) (key : κ) :
    (mapValues f m).lookup key = (m.lookup key).map (f key) :=
  List.dlookup_map₂ key

@[simp] theorem lookup_modify (key : κ) (f : ν → ν) (m : UnorderedMap κ ν) :
    (modify key f m).lookup key = (m.lookup key).map f := by
  simp [modify]

theorem lookup_modify_of_ne {key other : κ} (h : other ≠ key) (f : ν → ν)
    (m : UnorderedMap κ ν) : (modify key f m).lookup other = m.lookup other := by
  simp [modify, h]

theorem lookup_emplace_of_none {key : κ} {m : UnorderedMap κ ν} (h : m.lookup key = none)
    (value : ν) : (emplace key value m).lookup key = some value := by
  simp [emplace, AList.lookup_eq_none.mp h]

theorem emplace_of_some {key : κ} {m : UnorderedMap κ ν} {old : ν} (h : m.lookup key = some old)
    (value : ν) : emplace key value m = m := by
  have hmem : key ∈ m := AList.lookup_isSome.mp (by rw [h]; rfl)
  rw [emplace, if_pos hmem]

theorem lookup_emplace_of_ne {key other : κ} (h : other ≠ key) (value : ν)
    (m : UnorderedMap κ ν) : (emplace key value m).lookup other = m.lookup other := by
  unfold emplace
  split
  · rfl
  · exact AList.lookup_insert_ne h

theorem mem_entries_iff {m : UnorderedMap κ ν} {key : κ} {value : ν} :
    (⟨key, value⟩ : Sigma fun _ : κ => ν) ∈ m.entries ↔ m.lookup key = some value :=
  AList.mem_lookup_iff.symm

/-- A loop that keeps one key sees the value behind that key and nothing else. -/
theorem filterMap_entries_eq (m : UnorderedMap κ ν) (key : κ) (f : ν → Option β) :
    (m.entries.filterMap fun entry => if entry.1 = key then f entry.2 else none) =
      ((m.lookup key).bind f).toList := by
  have hall : ∀ entries : List (Sigma fun _ : κ => ν),
      (entries.filterMap fun entry => if entry.1 = key then f entry.2 else none) =
        (entries.lookupAll key).filterMap f := by
    intro entries
    induction entries with
    | nil => rfl
    | cons entry entries ih =>
        obtain ⟨k, value⟩ := entry
        by_cases hkey : k = key
        · subst hkey
          simp [List.lookupAll_cons_eq, List.filterMap_cons, ih]
        · rw [List.lookupAll_cons_ne _ _ (Ne.symm hkey)]
          simpa [List.filterMap_cons, hkey] using ih
  rw [hall, List.lookupAll_eq_dlookup key m.nodupKeys, AList.lookup]
  cases List.dlookup key m.entries <;> simp [List.filterMap_cons]
  cases f _ <;> rfl

end F4MP.Library.HashTable
