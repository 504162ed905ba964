import Mathlib.Algebra.Order.Group.MinMax
import Mathlib.Tactic.FieldSimp
import F4MP.CloneAreas
import F4MP.Library.SpeedLimit
import F4MP.Snapshots

/-!
Where a buffer of snapshots puts a player between, before and after them: which snapshot
the discrete fields follow, how fast the position moves, and that forgotten history is
never missed.
-/

namespace F4MP.Sampling

open F4MP.Types
open F4MP.Arith
open F4MP.Interp
open F4MP.RemotePlayersModel
open F4MP.Library.SpeedLimit
open F4MP.Snapshots (Ordered)
open F4MP.CloneAreas (lastTwo_mem)

section Regimes

variable {F D : Type} [CppFloat F] [CppFloat D] [Narrow D F]

theorem sampleAt_hold {first : TimedState F} {renderMs : D}
    (hle : renderMs ≤ toDouble first.timeMs) (rest : List (TimedState F)) :
    sampleAt (first :: rest) renderMs = some first.state := by
  cases rest with
  | nil => rfl
  | cons second rest => exact if_pos hle

theorem sampleAt_carry {prev last : TimedState F} {renderMs : D}
    (hprev : ¬ renderMs ≤ toDouble prev.timeMs) (hlast : toDouble last.timeMs ≤ renderMs) :
    sampleAt [prev, last] renderMs = some (extrapolate prev last renderMs) := by
  rw [sampleAt, if_neg hprev]
  exact if_pos hlast

/-- Between the first two snapshots, when those are not all there is up to the render
time. -/
theorem sampleAt_blend {a b : TimedState F} {rest : List (TimedState F)} {renderMs : D}
    (ha : ¬ renderMs ≤ toDouble a.timeMs) (hwithin : within renderMs a b = true)
    (hlast : ¬ toDouble (lastTwo a b rest).2.timeMs ≤ renderMs) :
    sampleAt (a :: b :: rest) renderMs = some (interpolate a b renderMs) := by
  simp only [sampleAt, if_neg ha, if_neg hlast, bracket, if_pos hwithin]

theorem toDouble_mono [Rounds D] {s t : Int} (hle : s ≤ t) :
    (toDouble s : D) ≤ toDouble t := by
  rw [Rounds.value_le, toDouble, toDouble, Rounds.value_ofRat, Rounds.value_ofRat]
  exact Rounds.round_mono (Int.cast_le.mpr hle)

/-- A snapshot whose successor is behind the render time has no say, if two others are
left. -/
theorem sampleAt_tail [Rounds D] {a b : TimedState F} {rest : List (TimedState F)} {renderMs : D}
    (hrest : rest ≠ []) (hab : a.timeMs ≤ b.timeMs) (hb : toDouble b.timeMs < renderMs) :
    sampleAt (a :: b :: rest) renderMs = sampleAt (b :: rest) renderMs := by
  have hbehind : ¬ renderMs ≤ toDouble b.timeMs := by
    rw [Rounds.value_le]
    exact not_le.mpr ((Rounds.value_lt _ _).mp hb)
  have hfirst : ¬ renderMs ≤ toDouble a.timeMs := by
    intro hle
    rw [Rounds.value_le] at hle hbehind
    exact hbehind (hle.trans ((Rounds.value_le _ _).mp (toDouble_mono hab)))
  have hnot : within renderMs a b = false := by simp [within, hb]
  cases rest with
  | nil => exact absurd rfl hrest
  | cons c rest =>
      simp only [sampleAt, if_neg hfirst, if_neg hbehind, lastTwo, bracket, hnot]
      simp

end Regimes

section History

variable {F D : Type} [CppFloat F] [CppFloat D] [Rounds D] [Narrow D F]

/-- A time more than the history kept behind one render time is behind every other that is
not more than that earlier. -/
theorem toDouble_lt_of_forgotten {timeMs : Int} {renderMs renderMs' : D}
    (hforgotten : toDouble timeMs + snapshotKeepMs < renderMs)
    (hrender : Rounds.value renderMs - 1500 ≤ Rounds.value renderMs') :
    toDouble timeMs < renderMs' := by
  have hkeep : Rounds.value (snapshotKeepMs : D) = 1500 := by
    rw [snapshotKeepMs, Rounds.value_ofRat]
    exact_mod_cast Rounds.round_int (D := D) 1500 (by norm_num)
  rw [Rounds.value_lt, Rounds.value_add, hkeep] at hforgotten
  rw [Rounds.value_lt]
  by_contra hbehind
  have hsum : Rounds.value renderMs ≤ Rounds.value (toDouble timeMs : D) + 1500 := by linarith
  have hround := Rounds.round_mono (D := D) hsum
  rw [Rounds.round_value] at hround
  exact absurd hforgotten (not_lt.mpr hround)

/-- History forgotten at one render time is missed at no other that is at most as much
earlier as the history kept. -/
theorem sampleAt_trim {snapshots : List (TimedState F)} (hordered : Ordered snapshots)
    {renderMs renderMs' : D} (hrender : Rounds.value renderMs - 1500 ≤ Rounds.value renderMs') :
    sampleAt (trim renderMs snapshots) renderMs' = sampleAt snapshots renderMs' := by
  induction snapshots using trim.induct renderMs with
  | case1 first second third rest hforgotten ih =>
      have hle : first.timeMs ≤ second.timeMs :=
        le_of_lt (List.rel_of_pairwise_cons hordered List.mem_cons_self)
      rw [trim, if_pos hforgotten, ih hordered.of_cons,
        sampleAt_tail (List.cons_ne_nil _ _) hle (toDouble_lt_of_forgotten hforgotten hrender)]
  | case2 first second third rest hkept => rw [trim, if_neg hkept]
  | case3 snapshots hshort => rw [trim]; exact hshort

def seen (x : ℚ) (timeMs : Int) (cellId : UInt32) : TimedState ℚ where
  state :=
    { PlayerState.initial ℚ with position := ⟨x, 0, 0⟩, worldspaceId := 60, cellId }
  timeMs := timeMs

/-- Three snapshots of someone who walks along the axis into another cell. -/
def walk : List (TimedState ℚ) := [seen 0 0 1, seen 10 100 1, seen 40 1000 2]

theorem ordered_walk : Ordered walk := by
  simp [Ordered, walk, seen]

theorem walk_trim : sampleAt (trim (1700 : ℚ) walk) (200 : ℚ) = sampleAt walk (200 : ℚ) :=
  sampleAt_trim ordered_walk (by simp only [Rounds.value]; norm_num)

end History

section Exact

/-- Which of the snapshots a sample is made of, and how. -/
inductive Regime (snapshots : List (TimedState ℚ)) (renderMs : ℚ) : PlayerState ℚ → Prop
  | held (first : TimedState ℚ) (rest : List (TimedState ℚ)) (hall : snapshots = first :: rest)
      (hbefore : rest = [] ∨ renderMs ≤ first.timeMs) : Regime snapshots renderMs first.state
  | blended (before : List (TimedState ℚ)) (a b : TimedState ℚ) (after : List (TimedState ℚ))
      (hall : snapshots = before ++ a :: b :: after) (ha : a.timeMs < renderMs)
      (hb : renderMs ≤ b.timeMs) : Regime snapshots renderMs (interpolate a b renderMs)
  | carried (before : List (TimedState ℚ)) (prev last : TimedState ℚ)
      (hall : snapshots = before ++ [prev, last]) (hlast : last.timeMs ≤ renderMs) :
      Regime snapshots renderMs (extrapolate prev last renderMs)

theorem Regime.cons {b : TimedState ℚ} {rest : List (TimedState ℚ)} {renderMs : ℚ}
    {state : PlayerState ℚ} (h : Regime (b :: rest) renderMs state) (hrest : rest ≠ [])
    (hb : b.timeMs < renderMs) (a : TimedState ℚ) : Regime (a :: b :: rest) renderMs state := by
  cases h with
  | held first others hall hbefore =>
      cases hall
      rcases hbefore with hnil | hle
      · exact absurd hnil hrest
      · exact absurd hb (not_lt.mpr hle)
  | blended before c d after hall hc hd =>
      exact .blended (a :: before) c d after (by rw [hall]; rfl) hc hd
  | carried before prev last hall hlast =>
      exact .carried (a :: before) prev last (by rw [hall]; rfl) hlast

theorem within_iff {a b : TimedState ℚ} {renderMs : ℚ} :
    within renderMs a b = true ↔ a.timeMs ≤ renderMs ∧ renderMs ≤ b.timeMs := by
  simp only [within, Bool.not_eq_true', Bool.or_eq_false_iff, decide_eq_false_iff_not]
  exact and_congr not_lt not_lt

theorem lt_lastTwo {b c : TimedState ℚ} {rest : List (TimedState ℚ)}
    (hordered : Ordered (b :: c :: rest)) : b.timeMs < (lastTwo b c rest).2.timeMs := by
  refine List.rel_of_pairwise_cons hordered ?_
  cases rest with
  | nil => exact List.mem_cons_self
  | cons d rest => exact (lastTwo_mem c d rest).2

theorem sampleAt_first {a b : TimedState ℚ} {rest : List (TimedState ℚ)}
    (hordered : Ordered (a :: b :: rest)) {renderMs : ℚ} (ha : a.timeMs < renderMs)
    (hb : renderMs ≤ b.timeMs) (hrest : rest = [] → renderMs < b.timeMs) :
    sampleAt (a :: b :: rest) renderMs = some (interpolate a b renderMs) := by
  refine sampleAt_blend (not_le.mpr ha) (within_iff.mpr ⟨ha.le, hb⟩) ?_
  cases rest with
  | nil => exact not_le.mpr (hrest rfl)
  | cons c rest =>
      have hnewest : b.timeMs < (lastTwo b c rest).2.timeMs := lt_lastTwo hordered.of_cons
      exact not_le.mpr (hb.trans_lt (Int.cast_lt.mpr hnewest))

theorem sampleAt_regime {snapshots : List (TimedState ℚ)} (hsome : snapshots ≠ [])
    (hordered : Ordered snapshots) (renderMs : ℚ) :
    ∃ state, sampleAt snapshots renderMs = some state ∧ Regime snapshots renderMs state := by
  induction snapshots with
  | nil => exact absurd rfl hsome
  | cons a rest ih =>
      rcases le_or_gt renderMs a.timeMs with hle | ha
      · exact ⟨a.state, sampleAt_hold hle rest, .held a rest rfl (.inr hle)⟩
      cases rest with
      | nil => exact ⟨a.state, rfl, .held a [] rfl (.inl rfl)⟩
      | cons b rest =>
          rcases le_or_gt renderMs b.timeMs with hb | hb
          · by_cases hpast : rest = [] ∧ (b.timeMs : ℚ) ≤ renderMs
            · obtain ⟨rfl, hpast⟩ := hpast
              exact ⟨_, sampleAt_carry (not_le.mpr ha) hpast, .carried [] a b rfl hpast⟩
            · exact ⟨_, sampleAt_first hordered ha hb fun hrest =>
                lt_of_not_ge fun hge => hpast ⟨hrest, hge⟩, .blended [] a b rest rfl ha hb⟩
          · cases rest with
            | nil => exact ⟨_, sampleAt_carry (not_le.mpr ha) hb.le, .carried [] a b rfl hb.le⟩
            | cons c rest =>
                obtain ⟨state, hstate, hregime⟩ := ih (List.cons_ne_nil _ _) hordered.of_cons
                have hab : a.timeMs < b.timeMs :=
                  List.rel_of_pairwise_cons hordered List.mem_cons_self
                exact ⟨state, (sampleAt_tail (List.cons_ne_nil _ _) hab.le hb).trans hstate,
                  hregime.cons (List.cons_ne_nil _ _) hb a⟩

end Exact

section Discrete

/-- The fields that are never mixed. -/
def SameDiscrete (p q : PlayerState ℚ) : Prop :=
  p.worldspaceId = q.worldspaceId ∧ p.cellId = q.cellId ∧ p.flags = q.flags ∧
    p.maxHealth = q.maxHealth

/-- A snapshot that no other is nearer to the render time than, nor as near and later. -/
def Nearest (snapshots : List (TimedState ℚ)) (renderMs : ℚ) (s : TimedState ℚ) : Prop :=
  s ∈ snapshots ∧ ∀ o ∈ snapshots, |renderMs - s.timeMs| ≤ |renderMs - o.timeMs| ∧
    (|renderMs - s.timeMs| = |renderMs - o.timeMs| → o.timeMs ≤ s.timeMs)

variable {snapshots : List (TimedState ℚ)} {renderMs : ℚ}

/-- A later snapshot after the render time is farther from it. -/
theorem farther_after {s o : Int} (hs : renderMs ≤ s) (ho : s ≤ o) :
    |renderMs - s| ≤ |renderMs - o| ∧ (|renderMs - s| = |renderMs - o| → o ≤ s) := by
  have hcast : (s : ℚ) ≤ o := Int.cast_le.mpr ho
  rw [abs_of_nonpos (sub_nonpos.mpr hs), abs_of_nonpos (sub_nonpos.mpr (hs.trans hcast))]
  exact ⟨by linarith, fun heq => Int.cast_le (R := ℚ).mp (by linarith)⟩

theorem farther_before {s o : Int} (hs : s ≤ renderMs) (ho : o ≤ s) :
    |renderMs - s| ≤ |renderMs - o| ∧ (|renderMs - s| = |renderMs - o| → o ≤ s) := by
  have hcast : (o : ℚ) ≤ s := Int.cast_le.mpr ho
  rw [abs_of_nonneg (sub_nonneg.mpr hs), abs_of_nonneg (sub_nonneg.mpr (hcast.trans hs))]
  exact ⟨by linarith, fun _ => ho⟩

theorem outside {before after : List (TimedState ℚ)} {a b o : TimedState ℚ}
    (hordered : Ordered (before ++ a :: b :: after)) (ho : o ∈ before ++ a :: b :: after) :
    o.timeMs ≤ a.timeMs ∨ b.timeMs ≤ o.timeMs := by
  obtain ⟨-, hafter, hbefore⟩ := List.pairwise_append.mp hordered
  rcases List.mem_append.mp ho with ho | ho
  · exact .inl (hbefore o ho a List.mem_cons_self).le
  rcases List.mem_cons.mp ho with rfl | ho
  · exact .inl le_rfl
  rcases List.mem_cons.mp ho with rfl | ho
  · exact .inr le_rfl
  · exact .inr (List.rel_of_pairwise_cons hafter.of_cons ho).le

theorem interpolate_eq {a b : TimedState ℚ} (ha : a.timeMs < renderMs)
    (hb : renderMs ≤ b.timeMs) :
    interpolate a b renderMs =
      blend a.state b.state ((renderMs - a.timeMs) / (b.timeMs - a.timeMs)) := by
  have hgap : (0 : ℚ) < b.timeMs - a.timeMs := by linarith
  have hlo : ¬ (renderMs - a.timeMs) / (b.timeMs - a.timeMs) < 0 :=
    not_lt.mpr (div_nonneg (by linarith) hgap.le)
  have hhi : ¬ 1 < (renderMs - a.timeMs) / (b.timeMs - a.timeMs) :=
    not_lt.mpr ((div_le_one hgap).mpr (by linarith))
  have hspan : (toDouble (b.timeMs - a.timeMs) : ℚ) = b.timeMs - a.timeMs := Int.cast_sub _ _
  rw [interpolate, hspan]
  exact congrArg _ ((congrArg (clamp · 0 1) (if_pos hgap)).trans
    ((if_neg hlo).trans (if_neg hhi)))

theorem blended_nearest {before after : List (TimedState ℚ)} {a b : TimedState ℚ}
    (hordered : Ordered (before ++ a :: b :: after)) (ha : a.timeMs < renderMs)
    (hb : renderMs ≤ b.timeMs) :
    ∃ s, Nearest (before ++ a :: b :: after) renderMs s ∧
      SameDiscrete (interpolate a b renderMs) s.state := by
  have hgap : (0 : ℚ) < b.timeMs - a.timeMs := by linarith
  rw [interpolate_eq ha hb]
  by_cases hhalf : (renderMs - a.timeMs) / (b.timeMs - a.timeMs) < 1 / 2
  · refine ⟨a, ⟨by simp, fun o ho => ?_⟩, ?_⟩
    · have hnearer : renderMs - a.timeMs < b.timeMs - renderMs := by
        rw [div_lt_iff₀ hgap] at hhalf
        linarith
      rcases outside hordered ho with hle | hge
      · exact farther_before ha.le hle
      · have hcast : (b.timeMs : ℚ) ≤ o.timeMs := Int.cast_le.mpr hge
        rw [abs_of_pos (sub_pos.mpr ha), abs_of_nonpos (by linarith)]
        exact ⟨by linarith, fun heq => absurd heq (by linarith)⟩
    · rw [blend, if_pos (show _ < CppFloat.ofRat (1 / 2) from hhalf)]
      exact ⟨rfl, rfl, rfl, rfl⟩
  · refine ⟨b, ⟨by simp, fun o ho => ?_⟩, ?_⟩
    · have hnearer : b.timeMs - renderMs ≤ renderMs - a.timeMs := by
        rw [div_lt_iff₀ hgap] at hhalf
        linarith
      rcases outside hordered ho with hle | hge
      · have hcast : (o.timeMs : ℚ) ≤ a.timeMs := Int.cast_le.mpr hle
        rw [abs_of_nonpos (sub_nonpos.mpr hb), abs_of_nonneg (by linarith)]
        exact ⟨by linarith, fun _ => Int.cast_le (R := ℚ).mp (by linarith)⟩
      · exact farther_after hb hge
    · rw [blend, if_neg (show ¬ _ < CppFloat.ofRat (1 / 2) from hhalf)]
      exact ⟨rfl, rfl, rfl, rfl⟩

theorem sameDiscrete_extrapolate (prev last : TimedState ℚ) :
    SameDiscrete (extrapolate prev last renderMs) last.state := by
  rw [extrapolate]
  split <;> exact ⟨rfl, rfl, rfl, rfl⟩

theorem Regime.nearest {state : PlayerState ℚ} (h : Regime snapshots renderMs state)
    (hordered : Ordered snapshots) :
    ∃ s, Nearest snapshots renderMs s ∧ SameDiscrete state s.state := by
  cases h with
  | held first rest hall hbefore =>
      subst hall
      refine ⟨first, ⟨List.mem_cons_self, fun o ho => ?_⟩, rfl, rfl, rfl, rfl⟩
      rcases List.mem_cons.mp ho with rfl | ho
      · exact ⟨le_rfl, fun _ => le_rfl⟩
      rcases hbefore with rfl | hle
      · cases ho
      · exact farther_after hle (List.rel_of_pairwise_cons hordered ho).le
  | blended before a b after hall ha hb =>
      subst hall
      exact blended_nearest hordered ha hb
  | carried before prev last hall hlast =>
      subst hall
      refine ⟨last, ⟨by simp, fun o ho => farther_before hlast ?_⟩, sameDiscrete_extrapolate _ _⟩
      have hprev : prev.timeMs < last.timeMs :=
        List.rel_of_pairwise_cons (List.pairwise_append.mp hordered).2.1 List.mem_cons_self
      obtain ⟨-, -, hbefore⟩ := List.pairwise_append.mp hordered
      rcases List.mem_append.mp ho with ho | ho
      · exact (hbefore o ho last (by simp)).le
      · rcases List.mem_pair.mp ho with rfl | rfl
        · exact hprev.le
        · exact le_rfl

theorem bracket_isSome {first last : TimedState ℚ} {rest : List (TimedState ℚ)}
    (hlast : (first :: rest).getLast? = some last) (hfirst : first.timeMs < renderMs)
    (hbefore : renderMs < last.timeMs) : (bracket renderMs (first :: rest)).isSome := by
  induction rest generalizing first with
  | nil =>
      cases hlast
      exact absurd hfirst (not_lt.mpr hbefore.le)
  | cons second rest ih =>
      rw [bracket]
      split
      · rfl
      · rename_i hwithin
        rw [within_iff, not_and, not_le] at hwithin
        exact ih (by simpa using hlast) (hwithin hfirst.le)

end Discrete

section Continuous

inductive Axis where
  | x
  | y
  | z

def Axis.of {F : Type} (axis : Axis) (position : Vec3 F) : F :=
  match axis with
  | .x => position.x
  | .y => position.y
  | .z => position.z

def Blended (value : PlayerState ℚ → ℚ) : Prop :=
  ∀ a b t, value (blend a b t) = lerp (value a) (value b) t

/-- A field that is carried on past the newest snapshot. -/
def Carried (value : PlayerState ℚ → ℚ) : Prop :=
  ∀ prev last t, value (carryOn prev last t) = value last + (value last - value prev) * t

theorem blended_axis (axis : Axis) : Blended fun state => axis.of state.position := by
  intro a b t
  cases axis <;> rfl

theorem carried_axis (axis : Axis) : Carried fun state => axis.of state.position := by
  intro prev last t
  cases axis <;> rfl

theorem blended_health : Blended fun state => state.health := fun _ _ _ => rfl

def track (value : PlayerState ℚ → ℚ) (snapshots : List (TimedState ℚ)) (renderMs : ℚ) : ℚ :=
  (sampleAt snapshots renderMs).elim 0 value

theorem track_eq {value : PlayerState ℚ → ℚ} {snapshots : List (TimedState ℚ)} {renderMs : ℚ}
    {state : PlayerState ℚ} (h : sampleAt snapshots renderMs = some state) :
    track value snapshots renderMs = value state := by
  rw [track, h]
  rfl

variable {value : PlayerState ℚ → ℚ} {a b : TimedState ℚ} {rest : List (TimedState ℚ)}
  {renderMs : ℚ}

theorem track_hold (hle : renderMs ≤ a.timeMs) (rest : List (TimedState ℚ)) :
    track value (a :: rest) renderMs = value a.state :=
  track_eq (sampleAt_hold hle rest)

theorem value_extrapolate (hcarried : Carried value) (hab : a.timeMs < b.timeMs)
    (hb : b.timeMs ≤ renderMs) :
    value (extrapolate a b renderMs) =
      if (400 : ℚ) < b.timeMs - a.timeMs then value b.state
      else line (a.timeMs : ℚ) b.timeMs (value a.state) (value b.state)
        (min renderMs (b.timeMs + 150)) := by
  have hgap : (0 : ℚ) < b.timeMs - a.timeMs := sub_pos.mpr (Int.cast_lt.mpr hab)
  have hcast : (toDouble (b.timeMs - a.timeMs) : ℚ) = b.timeMs - a.timeMs := Int.cast_sub _ _
  have hahead : minimum (renderMs - toDouble b.timeMs) maxExtrapolateMs =
      min renderMs (b.timeMs + 150) - b.timeMs := by
    have hmin : minimum (renderMs - b.timeMs) 150 = min (renderMs - b.timeMs) 150 := by
      rw [min_comm, min_def_lt]
      rfl
    exact hmin.trans (by rw [← min_sub_sub_right, add_sub_cancel_left])
  rw [extrapolate, hcast, hahead]
  by_cases hwide : (400 : ℚ) < b.timeMs - a.timeMs
  · rw [if_pos hwide, if_pos (.inr (.inl hwide))]
  rw [if_neg hwide]
  by_cases hstill : min renderMs (b.timeMs + 150) - b.timeMs ≤ (0 : ℚ)
  · have hsame : min renderMs (b.timeMs + 150) = (b.timeMs : ℚ) :=
      le_antisymm (by linarith) (le_min hb (by linarith))
    rw [if_pos (.inr (.inr hstill)), hsame, line_stop (Int.cast_lt.mpr hab)]
  · rw [if_neg]
    · refine (hcarried _ _ _).trans ?_
      have hcarry : ∀ x y t : ℚ, y + (y - x) * t = x + (y - x) * (1 + t) := by
        intro x y t
        ring
      have hsplit : (min renderMs (b.timeMs + 150) - a.timeMs) / (b.timeMs - a.timeMs) =
          1 + (min renderMs (b.timeMs + 150) - b.timeMs) / ((b.timeMs : ℚ) - a.timeMs) := by
        field_simp
        ring
      rw [line, hsplit]
      exact hcarry _ _ _
    · rintro (hle | hlt | hle)
      · exact absurd hgap (not_lt.mpr hle)
      · exact hwide hlt
      · exact hstill hle

theorem track_pair (hblended : Blended value) (hordered : Ordered (a :: b :: rest))
    (hb : renderMs ≤ b.timeMs) :
    track value (a :: b :: rest) renderMs =
      line (a.timeMs : ℚ) b.timeMs (value a.state) (value b.state) (max renderMs a.timeMs) := by
  have hab : a.timeMs < b.timeMs := List.rel_of_pairwise_cons hordered List.mem_cons_self
  have hcast : (a.timeMs : ℚ) < b.timeMs := Int.cast_lt.mpr hab
  rcases le_or_gt renderMs a.timeMs with hle | ha
  · rw [track_hold hle, max_eq_right hle, line_start]
  rw [max_eq_left ha.le]
  by_cases hlast : rest = [] ∧ renderMs = b.timeMs
  · obtain ⟨rfl, rfl⟩ := hlast
    have hstill : extrapolate a b (b.timeMs : ℚ) = b.state := by
      refine if_pos (.inr (.inr ?_))
      have hmin : minimum ((b.timeMs : ℚ) - b.timeMs) 150 = 0 := by
        rw [sub_self]
        rfl
      exact hmin.le
    rw [track_eq (sampleAt_carry (not_le.mpr ha) le_rfl), hstill, line_stop hcast]
  · rw [track_eq (sampleAt_first hordered ha hb fun hrest => lt_of_le_of_ne hb fun heq =>
      hlast ⟨hrest, heq⟩), interpolate_eq ha hb, hblended]
    rfl

theorem track_tail (hblended : Blended value) (hordered : Ordered (a :: b :: rest))
    (hrest : rest ≠ []) (hb : b.timeMs ≤ renderMs) :
    track value (a :: b :: rest) renderMs = track value (b :: rest) renderMs := by
  have hab : a.timeMs < b.timeMs := List.rel_of_pairwise_cons hordered List.mem_cons_self
  have hcast : (a.timeMs : ℚ) < b.timeMs := Int.cast_lt.mpr hab
  rcases hb.lt_or_eq with hlt | rfl
  · rw [track, track, sampleAt_tail hrest hab.le hlt]
  · rw [track_pair hblended hordered le_rfl, max_eq_left hcast.le, line_stop hcast,
      track_hold le_rfl]

/-- Between two successive snapshots, wherever they are, a field follows a straight
line. -/
theorem track_between (hblended : Blended value) {before after : List (TimedState ℚ)}
    (hordered : Ordered (before ++ a :: b :: after)) (ha : a.timeMs ≤ renderMs)
    (hb : renderMs ≤ b.timeMs) :
    track value (before ++ a :: b :: after) renderMs =
      line (a.timeMs : ℚ) b.timeMs (value a.state) (value b.state) renderMs := by
  induction before with
  | nil => exact (track_pair hblended hordered hb).trans (by rw [max_eq_left ha])
  | cons p before ih =>
      have htail : track value (p :: (before ++ a :: b :: after)) renderMs =
          track value (before ++ a :: b :: after) renderMs := by
        cases before with
        | nil => exact track_tail hblended hordered (List.cons_ne_nil _ _) ha
        | cons q before =>
            have hqa : q.timeMs < a.timeMs :=
              List.rel_of_pairwise_cons hordered.of_cons (by simp)
            exact track_tail hblended hordered (by simp)
              ((Int.cast_lt.mpr hqa).le.trans ha)
      exact htail.trans (ih hordered.of_cons)

/-- In between: neither beyond both. -/
def Between (x y v : ℚ) : Prop := min x y ≤ v ∧ v ≤ max x y

/-- The greatest speed at which a field goes from a snapshot to the next. -/
def steepest (value : PlayerState ℚ → ℚ) : List (TimedState ℚ) → ℚ
  | a :: b :: rest =>
      max (|value b.state - value a.state| / (b.timeMs - a.timeMs)) (steepest value (b :: rest))
  | _ => 0

theorem between_track (hblended : Blended value) {before after : List (TimedState ℚ)}
    (hordered : Ordered (before ++ a :: b :: after)) (ha : a.timeMs ≤ renderMs)
    (hb : renderMs ≤ b.timeMs) :
    Between (value a.state) (value b.state) (track value (before ++ a :: b :: after) renderMs) := by
  have hab : a.timeMs < b.timeMs :=
    List.rel_of_pairwise_cons (List.pairwise_append.mp hordered).2.1 List.mem_cons_self
  rw [track_between hblended hordered ha hb]
  exact line_between (Int.cast_lt.mpr hab) _ _ ha hb

theorem within_pair (hblended : Blended value) (hordered : Ordered (a :: b :: rest)) :
    Within (|value b.state - value a.state| / (b.timeMs - a.timeMs))
      (track value (a :: b :: rest)) (Set.Iic b.timeMs) := by
  have hab : a.timeMs < b.timeMs := List.rel_of_pairwise_cons hordered List.mem_cons_self
  have hcast : (a.timeMs : ℚ) < b.timeMs := Int.cast_lt.mpr hab
  have hspeed : 0 ≤ |value b.state - value a.state| / (b.timeMs - a.timeMs : ℚ) :=
    div_nonneg (abs_nonneg _) (sub_pos.mpr hcast).le
  exact ((within_line hcast _ _).wait hspeed _).congr fun t ht => track_pair hblended hordered ht

theorem within_carried (hcarried : Carried value) (hordered : Ordered [a, b]) :
    Within (|value b.state - value a.state| / (b.timeMs - a.timeMs))
      (track value [a, b]) (Set.Ici b.timeMs) := by
  have hab : a.timeMs < b.timeMs := List.rel_of_pairwise_cons hordered List.mem_cons_self
  have hcast : (a.timeMs : ℚ) < b.timeMs := Int.cast_lt.mpr hab
  have hspeed : 0 ≤ |value b.state - value a.state| / (b.timeMs - a.timeMs : ℚ) :=
    div_nonneg (abs_nonneg _) (sub_pos.mpr hcast).le
  have hpast : ∀ t ∈ Set.Ici (b.timeMs : ℚ),
      track value [a, b] t = value (extrapolate a b t) :=
    fun t ht => track_eq (sampleAt_carry (not_le.mpr (hcast.trans_le ht)) ht)
  by_cases hwide : (400 : ℚ) < b.timeMs - a.timeMs
  · refine (within_const hspeed (value b.state)).congr fun t ht => ?_
    rw [hpast t ht, value_extrapolate hcarried hab ht, if_pos hwide]
  · refine ((within_line hcast (value a.state) (value b.state)).stop hspeed
      (b.timeMs + 150)).congr fun t ht => ?_
    rw [hpast t ht, value_extrapolate hcarried hab ht, if_neg hwide]

theorem within_track (hblended : Blended value) (hcarried : Carried value)
    {snapshots : List (TimedState ℚ)} (hsome : snapshots ≠ []) (hordered : Ordered snapshots) :
    Within (steepest value snapshots) (track value snapshots) Set.univ := by
  induction snapshots with
  | nil => exact absurd rfl hsome
  | cons a rest ih =>
      cases rest with
      | nil => exact within_const le_rfl (value a.state)
      | cons b rest =>
          refine ((within_pair hblended hordered).mono (le_max_left _ _)).glue ?_
          cases rest with
          | nil => exact (within_carried hcarried hordered).mono (le_max_left _ _)
          | cons c rest =>
              have hrest := (ih (List.cons_ne_nil _ _) hordered.of_cons).mono
                (le_max_right (|value b.state - value a.state| / (b.timeMs - a.timeMs : ℚ)) _)
              intro s hs t ht hst
              rw [track_tail hblended hordered (List.cons_ne_nil _ _) hs,
                track_tail hblended hordered (List.cons_ne_nil _ _) ht]
              exact hrest s trivial t trivial hst

theorem track_stored (hblended : Blended value) {snapshots : List (TimedState ℚ)}
    (hordered : Ordered snapshots) {snapshot : TimedState ℚ} (hmem : snapshot ∈ snapshots) :
    track value snapshots snapshot.timeMs = value snapshot.state := by
  obtain ⟨before, after, rfl⟩ := List.append_of_mem hmem
  cases after with
  | cons next after =>
      have hnext : snapshot.timeMs < next.timeMs :=
        List.rel_of_pairwise_cons (List.pairwise_append.mp hordered).2.1 List.mem_cons_self
      rw [track_between hblended hordered le_rfl (Int.cast_lt.mpr hnext).le, line_start]
  | nil =>
      rcases List.eq_nil_or_concat' before with rfl | ⟨before, prev, rfl⟩
      · exact track_hold le_rfl []
      · rw [List.append_assoc, List.singleton_append] at hordered ⊢
        have hprev : prev.timeMs < snapshot.timeMs :=
          List.rel_of_pairwise_cons (List.pairwise_append.mp hordered).2.1 List.mem_cons_self
        have hcast : (prev.timeMs : ℚ) < snapshot.timeMs := Int.cast_lt.mpr hprev
        rw [track_between hblended hordered hcast.le le_rfl, line_stop hcast]

theorem sampleAt_past {before : List (TimedState ℚ)} (hordered : Ordered (before ++ [a, b]))
    (hb : b.timeMs ≤ renderMs) :
    sampleAt (before ++ [a, b]) renderMs = some (extrapolate a b renderMs) := by
  induction before with
  | nil =>
      have hab : a.timeMs < b.timeMs := List.rel_of_pairwise_cons hordered List.mem_cons_self
      exact sampleAt_carry (not_le.mpr ((Int.cast_lt.mpr hab).trans_le hb)) hb
  | cons p before ih =>
      refine Eq.trans ?_ (ih hordered.of_cons)
      cases before with
      | nil =>
          have hpa : p.timeMs < a.timeMs := List.rel_of_pairwise_cons hordered List.mem_cons_self
          have hab : a.timeMs < b.timeMs :=
            List.rel_of_pairwise_cons hordered.of_cons List.mem_cons_self
          exact sampleAt_tail (List.cons_ne_nil _ _) hpa.le ((Int.cast_lt.mpr hab).trans_le hb)
      | cons q before =>
          have hpq : p.timeMs < q.timeMs := List.rel_of_pairwise_cons hordered List.mem_cons_self
          have hqb : q.timeMs < b.timeMs :=
            List.rel_of_pairwise_cons hordered.of_cons (by simp)
          exact sampleAt_tail (by simp) hpq.le ((Int.cast_lt.mpr hqb).trans_le hb)

/-- Carried on, a field is no farther from the newest snapshot than it gets in 150 ms at
the last speed. -/
theorem abs_extrapolate_le (hcarried : Carried value) (hab : a.timeMs < b.timeMs)
    (hb : b.timeMs ≤ renderMs) :
    |value (extrapolate a b renderMs) - value b.state| ≤
      150 * (|value b.state - value a.state| / (b.timeMs - a.timeMs)) := by
  have hcast : (a.timeMs : ℚ) < b.timeMs := Int.cast_lt.mpr hab
  have hspeed : 0 ≤ |value b.state - value a.state| / (b.timeMs - a.timeMs : ℚ) :=
    div_nonneg (abs_nonneg _) (sub_pos.mpr hcast).le
  rw [value_extrapolate hcarried hab hb]
  split
  · rw [sub_self, abs_zero]
    exact mul_nonneg (by norm_num) hspeed
  · have hafter : (b.timeMs : ℚ) ≤ min renderMs (b.timeMs + 150) := le_min hb (by linarith)
    have hline : Within _ (line (a.timeMs : ℚ) b.timeMs (value a.state) (value b.state)) .univ :=
      within_line hcast _ _
    have hmoved := hline _ trivial _ trivial hafter
    rw [line_stop hcast] at hmoved
    have hcapped : min renderMs (b.timeMs + 150) - b.timeMs ≤ (150 : ℚ) := by
      linarith [min_le_right renderMs ((b.timeMs : ℚ) + 150)]
    rw [mul_comm]
    exact hmoved.trans (mul_le_mul_of_nonneg_left hcapped hspeed)

end Continuous

section Samples

variable {snapshots : List (TimedState ℚ)}

/-- The position never moves faster than between two successive snapshots, goes through
each snapshot, and stops after 150 ms without one. -/
theorem sampleAt_speed (hsome : snapshots ≠ []) (hordered : Ordered snapshots) :
    (∀ r₁ r₂ : ℚ, ∃ s₁ s₂, sampleAt snapshots r₁ = some s₁ ∧ sampleAt snapshots r₂ = some s₂ ∧
      ∀ axis : Axis, |axis.of s₁.position - axis.of s₂.position| ≤
        steepest (fun state => axis.of state.position) snapshots * |r₁ - r₂|) ∧
    (∀ snapshot ∈ snapshots, ∃ state, sampleAt snapshots (snapshot.timeMs : ℚ) = some state ∧
      state.position = snapshot.state.position) ∧
    ∀ before prev last, snapshots = before ++ [prev, last] → ∀ r : ℚ, last.timeMs ≤ r →
      ∃ state, sampleAt snapshots r = some state ∧
        ∀ axis : Axis, |axis.of state.position - axis.of last.state.position| ≤
          150 * (|axis.of last.state.position - axis.of prev.state.position| /
            (last.timeMs - prev.timeMs)) := by
  refine ⟨fun r₁ r₂ => ?_, fun snapshot hmem => ?_, fun before prev last hall r hr => ?_⟩
  · obtain ⟨s₁, hs₁, -⟩ := sampleAt_regime hsome hordered r₁
    obtain ⟨s₂, hs₂, -⟩ := sampleAt_regime hsome hordered r₂
    refine ⟨s₁, s₂, hs₁, hs₂, fun axis => ?_⟩
    have hwithin := within_track (blended_axis axis) (carried_axis axis) hsome hordered
    have hmoved := hwithin.abs_le_mul (Set.mem_univ r₁) (Set.mem_univ r₂)
    rwa [track_eq hs₁, track_eq hs₂] at hmoved
  · obtain ⟨state, hstate, -⟩ := sampleAt_regime hsome hordered snapshot.timeMs
    have hthrough : ∀ axis : Axis, axis.of state.position = axis.of snapshot.state.position := by
      intro axis
      have hstored := track_stored (blended_axis axis) hordered hmem
      rwa [track_eq hstate] at hstored
    exact ⟨state, hstate, Vec3.ext (hthrough .x) (hthrough .y) (hthrough .z)⟩
  · subst hall
    have hprev : prev.timeMs < last.timeMs :=
      List.rel_of_pairwise_cons (List.pairwise_append.mp hordered).2.1 List.mem_cons_self
    refine ⟨extrapolate prev last r, sampleAt_past hordered hr, fun axis => ?_⟩
    have hfar := abs_extrapolate_le (carried_axis axis) hprev hr
    exact hfar

theorem walk_speed : ∃ s₁ s₂, sampleAt walk (50 : ℚ) = some s₁ ∧
    sampleAt walk (1200 : ℚ) = some s₂ ∧ ∀ axis : Axis, |axis.of s₁.position - axis.of s₂.position| ≤
      steepest (fun state => axis.of state.position) walk * |50 - 1200| :=
  (sampleAt_speed (by simp [walk]) ordered_walk).1 50 1200

/-- The discrete fields are those of the nearest snapshot; in between, position and health
are between those of the snapshots around; and the loop always finds these. -/
theorem sampleAt_discrete (hsome : snapshots ≠ []) (hordered : Ordered snapshots)
    (renderMs : ℚ) :
    (∃ state, sampleAt snapshots renderMs = some state ∧
      (∃ s, Nearest snapshots renderMs s ∧ SameDiscrete state s.state) ∧
      ∀ before a b after, snapshots = before ++ a :: b :: after →
        a.timeMs ≤ renderMs → renderMs ≤ b.timeMs →
        (∀ axis : Axis, Between (axis.of a.state.position) (axis.of b.state.position)
          (axis.of state.position)) ∧
        Between a.state.health b.state.health state.health) ∧
    ∀ first last, snapshots.head? = some first → snapshots.getLast? = some last →
      first.timeMs < renderMs → renderMs < last.timeMs → (bracket renderMs snapshots).isSome := by
  obtain ⟨state, hstate, hregime⟩ := sampleAt_regime hsome hordered renderMs
  refine ⟨⟨state, hstate, hregime.nearest hordered, ?_⟩, ?_⟩
  · rintro before a b after rfl ha hb
    have hbetween : ∀ value : PlayerState ℚ → ℚ, Blended value →
        Between (value a.state) (value b.state) (value state) := by
      intro value hblended
      have hbetween := between_track hblended hordered ha hb
      rwa [track_eq hstate] at hbetween
    exact ⟨fun axis => hbetween (fun state => axis.of state.position) (blended_axis axis),
      hbetween (fun state => state.health) blended_health⟩
  · intro first last hfirst hlast hafter hbefore
    obtain ⟨rest, rfl⟩ := List.head?_eq_some_iff.mp hfirst
    exact bracket_isSome hlast hafter hbefore

theorem walk_discrete : (bracket (550 : ℚ) walk).isSome :=
  (sampleAt_discrete (by simp [walk]) ordered_walk 550).2 _ _ rfl rfl (by norm_num [seen])
    (by norm_num [seen])

end Samples

end F4MP.Sampling
