import F4MP.Clones
import F4MP.Native

/-!
Which snapshots the position of a clone comes from, and when they are all of the area
the clone stands in.
-/

namespace F4MP.CloneAreas

open F4MP.Types
open F4MP.Arith
open F4MP.Interp
open F4MP.GameUtil
open F4MP.RemotePlayersModel
open F4MP.CloneUpdate
open F4MP.Clones
open F4MP.Library.HashTable

section Around

variable {F D : Type} [CppFloat D]

/-- The snapshots next to a render time: the oldest or the newest of all, the two on
either side, or the last two while a motion is carried on. -/
def around (renderMs : D) (snapshots : List (TimedState F)) : List (TimedState F) :=
  match snapshots with
  | [] => []
  | [first] => [first]
  | first :: second :: rest =>
      if renderMs ≤ toDouble first.timeMs then [first]
      else
        let (prev, last) := lastTwo first second rest
        let gap : D := toDouble (last.timeMs - prev.timeMs)
        if toDouble last.timeMs ≤ renderMs then
          if gap ≤ CppFloat.ofRat 0 ∨ maxVelocityGapMs < gap ∨
              minimum (renderMs - toDouble last.timeMs) maxExtrapolateMs ≤ CppFloat.ofRat 0 then
            [last]
          else [prev, last]
        else
          match bracket renderMs snapshots with
          | some (a, b) => [a, b]
          | none => [last]

theorem lastTwo_mem (first second : TimedState F) (rest : List (TimedState F)) :
    (lastTwo first second rest).1 ∈ first :: second :: rest ∧
      (lastTwo first second rest).2 ∈ first :: second :: rest := by
  induction rest generalizing first second with
  | nil => exact ⟨List.mem_cons_self, List.mem_cons_of_mem _ List.mem_cons_self⟩
  | cons third rest ih =>
      obtain ⟨hprev, hlast⟩ := ih second third
      exact ⟨List.mem_cons_of_mem _ hprev, List.mem_cons_of_mem _ hlast⟩

theorem bracket_mem {renderMs : D} {snapshots : List (TimedState F)} {a b : TimedState F}
    (h : bracket renderMs snapshots = some (a, b)) : a ∈ snapshots ∧ b ∈ snapshots := by
  fun_induction bracket renderMs snapshots with
  | case1 a' b' rest hwithin =>
      cases h
      exact ⟨List.mem_cons_self, List.mem_cons_of_mem _ List.mem_cons_self⟩
  | case2 a' b' rest hwithin ih =>
      obtain ⟨ha, hb⟩ := ih h
      exact ⟨List.mem_cons_of_mem _ ha, List.mem_cons_of_mem _ hb⟩
  | case3 => cases h

theorem mem_of_mem_around {renderMs : D} {snapshots : List (TimedState F)} {s : TimedState F}
    (h : s ∈ around renderMs snapshots) : s ∈ snapshots := by
  have hpair : ∀ {a b : TimedState F}, a ∈ snapshots → b ∈ snapshots → s ∈ [a, b] →
      s ∈ snapshots := by
    intro a b ha hb hs
    simp only [List.mem_cons, List.not_mem_nil, or_false] at hs
    rcases hs with rfl | rfl
    · exact ha
    · exact hb
  have hone : ∀ {a : TimedState F}, a ∈ snapshots → s ∈ [a] → s ∈ snapshots :=
    fun ha hs => List.mem_singleton.mp hs ▸ ha
  match snapshots with
  | [] => exact h
  | [first] => exact h
  | first :: second :: rest =>
      obtain ⟨hprev, hlast⟩ := lastTwo_mem first second rest
      rw [around] at h
      dsimp only at h
      split at h
      · exact hone List.mem_cons_self h
      · split at h
        · split at h
          · exact hone hlast h
          · exact hpair hprev hlast h
        · cases hfound : bracket renderMs (first :: second :: rest) with
          | none =>
              rw [hfound] at h
              exact hone hlast h
          | some pair =>
              rw [hfound] at h
              exact hpair (bracket_mem hfound).1 (bracket_mem hfound).2 h

theorem lastTwo_map (f : TimedState F → TimedState F) (first second : TimedState F)
    (rest : List (TimedState F)) :
    lastTwo (f first) (f second) (rest.map f) =
      (f (lastTwo first second rest).1, f (lastTwo first second rest).2) := by
  induction rest generalizing first second with
  | nil => rfl
  | cons third rest ih => exact ih second third

theorem bracket_map {f : TimedState F → TimedState F} (hf : ∀ s, (f s).timeMs = s.timeMs)
    (renderMs : D) (snapshots : List (TimedState F)) :
    bracket renderMs (snapshots.map f) =
      (bracket renderMs snapshots).map fun pair => (f pair.1, f pair.2) := by
  induction snapshots with
  | nil => rfl
  | cons first rest ih =>
      cases rest with
      | nil => rfl
      | cons second rest =>
          rw [List.map_cons, List.map_cons, bracket, bracket]
          have hwithin : within renderMs (f first) (f second) = within renderMs first second := by
            rw [within, within, hf, hf]
          rw [hwithin]
          split
          · rfl
          · exact ih

variable [CppFloat F] [Narrow D F]

/-- What is sampled depends on the snapshots next to the render time only, and on the
times of the others. -/
theorem sampleAt_map {f : TimedState F → TimedState F} (hf : ∀ s, (f s).timeMs = s.timeMs)
    {renderMs : D} {snapshots : List (TimedState F)}
    (hsame : ∀ s ∈ around renderMs snapshots, f s = s) :
    sampleAt (snapshots.map f) renderMs = sampleAt snapshots renderMs := by
  cases snapshots with
  | nil => rfl
  | cons first rest =>
      cases rest with
      | nil =>
          have hfirst := hsame first (by rw [around]; exact List.mem_cons_self)
          rw [List.map_cons, List.map_nil, hfirst]
      | cons second rest =>
          have hbracket := bracket_map hf renderMs (first :: second :: rest)
          rw [List.map_cons, List.map_cons] at hbracket ⊢
          simp only [sampleAt, around, hf, lastTwo_map] at hsame ⊢
          generalize lastTwo first second rest = newest at hsame ⊢
          obtain ⟨prev, last⟩ := newest
          dsimp only at hsame ⊢
          by_cases hearly : renderMs ≤ toDouble first.timeMs
          · rw [if_pos hearly] at hsame ⊢
            rw [if_pos hearly, hsame first List.mem_cons_self]
          rw [if_neg hearly] at hsame ⊢
          rw [if_neg hearly]
          by_cases hlate : toDouble last.timeMs ≤ renderMs
          · rw [if_pos hlate] at hsame ⊢
            rw [if_pos hlate, extrapolate, extrapolate]
            simp only [hf]
            split at hsame
            · rename_i hstill
              rw [if_pos hstill, if_pos hstill, hsame last List.mem_cons_self]
            · rename_i hmoves
              rw [if_neg hmoves, if_neg hmoves, hsame prev List.mem_cons_self,
                hsame last (List.mem_cons_of_mem _ List.mem_cons_self)]
          · rw [if_neg hlate] at hsame ⊢
            rw [if_neg hlate, hbracket]
            cases hfound : bracket renderMs (first :: second :: rest) with
            | none =>
                rw [hfound] at hsame
                rw [Option.map_none, hsame last List.mem_cons_self]
            | some pair =>
                obtain ⟨a, b⟩ := pair
                rw [hfound] at hsame
                rw [Option.map_some, hsame a List.mem_cons_self,
                  hsame b (List.mem_cons_of_mem _ List.mem_cons_self)]

end Around

section Areas

variable {F D : Type} [CppFloat D]

def areaOf (snapshot : TimedState F) : Space := spaceFromState snapshot.state

/-- The snapshots the player's position comes from are of the area its clone is in. -/
def DrawnInside (renderMs : D) (player : RemotePlayer F) : Prop :=
  ∀ s ∈ around renderMs player.snapshots, (areaOf s).sameArea player.actorSpace = true

instance (renderMs : D) (player : RemotePlayer F) : Decidable (DrawnInside renderMs player) :=
  inferInstanceAs (Decidable (∀ s ∈ around renderMs player.snapshots, _))

/-- No snapshot next to the render time is of another area than the newest of all. -/
def Settled (renderMs : D) (snapshots : List (TimedState F)) : Prop :=
  ∀ s ∈ around renderMs (trim renderMs snapshots), ∀ newest, snapshots.getLast? = some newest →
    (areaOf s).sameArea (areaOf newest) = true

theorem mem_of_mem_trim {renderMs : D} {snapshots : List (TimedState F)} {s : TimedState F}
    (h : s ∈ trim renderMs snapshots) : s ∈ snapshots := by
  fun_induction trim renderMs snapshots with
  | case1 first second third rest _ ih => exact List.mem_cons_of_mem _ (ih h)
  | case2 | case3 => exact h

theorem settled_of_one_area {snapshots : List (TimedState F)}
    (h : ∀ s ∈ snapshots, ∀ s' ∈ snapshots, (areaOf s).sameArea (areaOf s') = true)
    (renderMs : D) : Settled renderMs snapshots :=
  fun s hs newest hnewest =>
    h s (mem_of_mem_trim (mem_of_mem_around hs)) newest (List.mem_of_getLast? hnewest)

/-- For a clone that is in the area of the newest state, inside is settled. -/
theorem drawnInside_iff {localSpace : Space} {renderMs : D} {snapshots : List (TimedState F)}
    {player : RemotePlayer F} (htrimmed : player.snapshots = trim renderMs snapshots)
    (harea : InArea localSpace player) :
    DrawnInside renderMs player ↔ Settled renderMs snapshots := by
  obtain ⟨latest, hlatest, hactor, -⟩ := harea
  rw [RemotePlayer.latest, htrimmed, trim_getLast?, Option.map_eq_some_iff] at hlatest
  obtain ⟨newest, hnewest, rfl⟩ := hlatest
  rw [DrawnInside, Settled, htrimmed]
  refine forall₂_congr fun s _ => ⟨fun hinside other hother => ?_, fun hsettled => ?_⟩
  · obtain rfl := Option.some.inj (hnewest.symm.trans hother)
    exact Space.sameArea_trans hinside hactor
  · exact Space.sameArea_trans (hsettled newest hnewest) (Space.sameArea_symm hactor)

variable [CppFloat F] [Libm F] [Narrow D F] [Widen F D]

/-- Whenever an update moves a clone, the position comes from snapshots of the area the
clone is in exactly if the player was settled before. -/
theorem drawn_inside_iff_settled (inputs : List (PlayerOrder F × Op F D)) (order : PlayerOrder F)
    (input : UpdateInput D) :
    let before := Scene.after inputs
    let after := before.step (order, .update input)
    let renderMs := renderMsOf before.remotes input
    Asked (fun call => ∀ ref position, driven call = some (ref, position) →
      ∃ id player player', before.find id = some player ∧ after.find id = some player' ∧
        player'.actor = some ref ∧
        (∃ sample, sampleAt player'.snapshots renderMs = some sample ∧
          position = sample.position) ∧
        (DrawnInside renderMs player' ↔ Settled renderMs player.snapshots))
      before.engine after.engine := by
  intro before after renderMs
  cases hspace : input.localSpace with
  | none =>
      have hnothing : after = before.reorder order := by
        change update (before.reorder order) input = _
        rw [update, hspace]
      rw [hnothing]
      exact .refl _
  | some localSpace =>
      have hconfined : Confined (before.reorder order) :=
        (confined_after inputs).evolves (evolves_reorder before order)
      have hspec := update_spec hspace (before.reorder order)
      refine (hspec.asked hconfined).mono fun call hcall ref position hdriven => ?_
      obtain ⟨id, hid, player', hplayer', harea, hdrives⟩ := hcall (by rw [hdriven]; rintro ⟨⟩)
      obtain ⟨player, hplayer, htrimmed⟩ := hspec.trimmed id hid player' hplayer'
      obtain ⟨hactor, hsample⟩ := hdrives ref position hdriven
      exact ⟨id, player, player', (lookup_arrange order _ id).symm.trans hplayer, hplayer',
        hactor, hsample, drawnInside_iff htrimmed harea⟩

end Areas

section Example

open F4MP.Native

def stateAt (worldspaceId : UInt32) (x : F32) : PlayerState F32 :=
  { PlayerState.initial F32 with position := ⟨x, 0, 0⟩, worldspaceId }

def twoWorldspaces : List (PlayerOrder F32 × Op F32 F64) :=
  [(.keep _, .applyState 1 (stateAt 1 (CppFloat.ofRat 0)) 1000 (CppFloat.ofRat 1000)),
    (.keep _, .applyState 1 (stateAt 2 (CppFloat.ofRat 100)) 1100 (CppFloat.ofRat 1100))]

def soonAfter : UpdateInput F64 where
  localSpace := some { worldspaceId := 2 }
  now := 1150000000
  localMs := CppFloat.ofRat 1150
  answers _ := {}

/-- The clone in the second worldspace is put halfway to where its player stood in the
first. -/
theorem drawn_across_worldspaces :
    let before : Scene F32 F64 := Scene.after twoWorldspaces
    let after := before.step (.keep _, .update soonAfter)
    before.engine.calls = [] ∧
      after.engine.calls.filterMap driven = [(1, ⟨CppFloat.ofRat 50, 0, 0⟩)] ∧
      ∃ player ∈ after.find 1, player.actor = some 1 ∧ player.actorSpace = { worldspaceId := 2 } ∧
        ¬ DrawnInside (renderMsOf before.remotes soonAfter) player :=
  ⟨by decide +kernel, by decide +kernel, by decide +kernel⟩

end Example

end F4MP.CloneAreas
