import F4MP.Library.Deadlines
import F4MP.Prologue

/-!
The prologue skip ends: whatever the quests and the player do, it is over in bounded time
once nothing is in its way.
-/

namespace F4MP.PrologueEnd

open F4MP.Types
open F4MP.Arith
open F4MP.PrologueSkipModel
open F4MP.Prologue
open F4MP.Library.Runs
open F4MP.Library.Deadlines (Paced timeAfter)

/-- The start and the finish of a frame. -/
def frameOf : Event → Option (Instant × Instant)
  | .update answers => some (answers.now, answers.latest)
  | .newGame _ | .leaveWorld | .answered _ => none

/-- No other game is started, and the world is not left. -/
def Stays : Event → Prop
  | .update _ | .answered _ => True
  | .newGame _ | .leaveWorld => False

/-- An event of an arming, with the clock read in order. -/
def Sound : Event → Prop
  | .update answers => answers.now ≤ answers.later ∧ answers.later ≤ answers.latest
  | .answered _ => True
  | .newGame _ | .leaveWorld => False

/-- The character is there and loaded, and no menu is open. -/
def Calm : Event → Prop
  | .update answers => answers.hasPlayer = true ∧ answers.is3DLoaded = true ∧
      answers.looksMenuOpen = false ∧ answers.specialMenuOpen = false
  | .newGame _ | .leaveWorld | .answered _ => True

variable {F : Type}

def rank (skip : PrologueSkip F) : Nat :=
  match skip.state with
  | .kIdle | .kDone => 0
  | .kSpecialMenu => 1
  | .kFaceMenu => 2
  | .kWaitForPod => 3
  | .kRunning => 4 + (skip.settings.commands.length - skip.next)
  | .kSexChoice => 5 + skip.settings.commands.length + if skip.sexChanged then 0 else 1
  | .kArmed => 7 + skip.settings.commands.length + if skip.questStartedAt = 0 then 1 else 0

section Waiting

variable [CppFloat F] [Seconds F] [FromChars F]

def pauseOf (command : Bytes) : Instant :=
  Seconds.seconds ((FromChars.fromChars (command.drop 5)).getD (CppFloat.ofRat 1) : F)

def waits (settings : Settings F) : List Instant :=
  [Seconds.seconds (questStartFallback : F), Seconds.seconds settings.startDelay,
    Seconds.seconds settings.podTimeout, Seconds.seconds (sexChangeSettle : F),
    Seconds.seconds (menuGrace : F)] ++ settings.commands.map (pauseOf (F := F))

/-- The longest time that is waited at once. -/
def patience (settings : Settings F) : Instant := (waits settings).foldr max 0

def expiry (skip : PrologueSkip F) : Instant :=
  match skip.state with
  | .kIdle | .kDone => 0
  | .kSpecialMenu | .kFaceMenu => skip.stateSince + Seconds.seconds (menuGrace : F)
  | .kWaitForPod => skip.stateSince + Seconds.seconds skip.settings.podTimeout
  | .kRunning => skip.waitUntil
  | .kSexChoice =>
      max skip.waitUntil (skip.stateSince + Seconds.seconds skip.settings.podTimeout)
  | .kArmed =>
      if skip.questStartedAt = 0 then skip.armedAt + Seconds.seconds (questStartFallback : F)
      else max (skip.armedAt + Seconds.seconds (questStartFallback : F))
        (skip.questStartedAt + Seconds.seconds skip.settings.startDelay)

theorem foldr_max_bounds (times : List Instant) :
    0 ≤ times.foldr max 0 ∧ ∀ time ∈ times, time ≤ times.foldr max 0 := by
  induction times with
  | nil => exact ⟨le_rfl, by rintro _ ⟨⟩⟩
  | cons first times ih =>
      rw [List.foldr_cons]
      refine ⟨ih.1.trans (le_max_right _ _), List.forall_mem_cons.mpr ⟨le_max_left _ _, ?_⟩⟩
      exact fun time htime => (ih.2 time htime).trans (le_max_right _ _)

theorem patience_nonneg (settings : Settings F) : 0 ≤ patience settings :=
  (foldr_max_bounds _).1

theorem le_patience {settings : Settings F} {time : Instant} (h : time ∈ waits settings) :
    time ≤ patience settings :=
  (foldr_max_bounds _).2 time h

end Waiting

/-- What is known of an arming at a time. -/
structure Known (settings : Settings F) (last : Instant) (skip : PrologueSkip F) : Prop where
  settings : skip.settings = settings
  clock : 0 ≤ last
  active : skip.state ≠ .kIdle
  armed : skip.state = .kArmed → 0 < skip.armedAt ∧ skip.armedAt ≤ last
  since : skip.state ≠ .kArmed → skip.state ≠ .kDone → skip.stateSince ≤ last

section Frames

variable [CppFloat F] [Seconds F] [FromChars F] {settings : Settings F} {last : Instant}
  {skip : PrologueSkip F} {answers : Answers}

/-- A state of a rank below the bound, left soon enough. -/
structure Arrives (settings : Settings F) (answers : Answers) (bound : Nat)
    (skip : PrologueSkip F) : Prop where
  known : Known settings answers.latest skip
  rank_lt : rank skip < bound
  expiry_le : expiry skip ≤ answers.latest + patience settings

/-- A frame keeps a state that has not expired, unless something is in its way, or leads on. -/
def Goes (settings : Settings F) (answers : Answers) (skip skip' : PrologueSkip F) : Prop :=
  Known settings answers.latest skip' ∧ rank skip' = rank skip ∧ expiry skip' = expiry skip ∧
      (Calm (.update answers) → answers.now ≤ expiry skip) ∨
    Arrives settings answers (rank skip) skip'

omit [CppFloat F] [Seconds F] [FromChars F] in
theorem Known.mono (h : Known settings last skip) {now : Instant} (hnow : last ≤ now) :
    Known settings now skip where
  settings := h.settings
  clock := h.clock.trans hnow
  active := h.active
  armed hstate := ⟨(h.armed hstate).1, (h.armed hstate).2.trans hnow⟩
  since harmed hdone := (h.since harmed hdone).trans hnow

theorem goes_same (h : Known settings answers.latest skip)
    (hkept : Calm (.update answers) → answers.now ≤ expiry skip) : Goes settings answers skip skip :=
  .inl ⟨h, rfl, rfl, hkept⟩

theorem arrives_finish (h : Known settings answers.latest skip) {bound : Nat} (hbound : 0 < bound) :
    Arrives settings answers bound (finish skip) where
  known := ⟨h.settings, h.clock, by rintro ⟨⟩, by rintro ⟨⟩, fun _ hdone => absurd rfl hdone⟩
  rank_lt := hbound
  expiry_le := add_nonneg h.clock (patience_nonneg settings)

theorem arrives_beginCommands (h : Known settings answers.latest skip)
    (hlatest : answers.later ≤ answers.latest) {bound : Nat}
    (hbound : 4 + settings.commands.length < bound) :
    Arrives settings answers bound (beginCommands skip answers) where
  known := ⟨h.settings, h.clock, by rintro ⟨⟩, by rintro ⟨⟩, fun _ _ => le_rfl⟩
  rank_lt := by
    change 4 + (skip.settings.commands.length - 0) < bound
    rw [h.settings]
    exact hbound
  expiry_le := hlatest.trans (le_add_of_nonneg_right (patience_nonneg settings))

theorem arrives_askSex (h : Known settings answers.latest skip)
    (hlatest : answers.later ≤ answers.latest) {bound : Nat}
    (hbound : 6 + settings.commands.length < bound) :
    Arrives settings answers bound (askSex skip answers).1 := by
  rw [askSex]
  split
  · exact arrives_beginCommands h hlatest (by omega)
  · refine ⟨⟨h.settings, h.clock, by rintro ⟨⟩, by rintro ⟨⟩, fun _ _ => le_rfl⟩, ?_, ?_⟩
    · refine lt_of_le_of_lt ?_ hbound
      change 5 + skip.settings.commands.length + (if skip.sexChanged then 0 else 1) ≤ _
      rw [h.settings]
      split <;> omega
    · have hpod : Seconds.seconds settings.podTimeout ≤ patience settings :=
        le_patience (by simp [waits])
      have hpos := patience_nonneg settings
      change max answers.later (answers.latest + Seconds.seconds skip.settings.podTimeout) ≤ _
      rw [h.settings]
      exact max_le (hlatest.trans (le_add_of_nonneg_right hpos)) (add_le_add le_rfl hpod)

theorem arrives_start (h : Known settings answers.latest skip)
    (hlatest : answers.later ≤ answers.latest) {bound : Nat}
    (hbound : 6 + settings.commands.length < bound) :
    Arrives settings answers bound (start skip answers).1 := by
  rw [start]
  split
  · exact arrives_finish h (by omega)
  · dsimp only
    split
    · exact arrives_askSex h hlatest hbound
    · exact arrives_beginCommands h hlatest (by omega)

omit [CppFloat F] [Seconds F] [FromChars F] in
theorem rank_armed (skip : PrologueSkip F) (hstate : skip.state = .kArmed) :
    rank skip = 7 + skip.settings.commands.length + if skip.questStartedAt = 0 then 1 else 0 := by
  rw [rank, hstate]

omit [FromChars F] in
theorem expiry_armed (skip : PrologueSkip F) (hstate : skip.state = .kArmed) :
    expiry skip = if skip.questStartedAt = 0 then
        skip.armedAt + Seconds.seconds (questStartFallback : F)
      else max (skip.armedAt + Seconds.seconds (questStartFallback : F))
        (skip.questStartedAt + Seconds.seconds skip.settings.startDelay) := by
  rw [expiry, hstate]

omit [FromChars F] in
theorem fallback_le_expiry (hstate : skip.state = .kArmed) :
    skip.armedAt + Seconds.seconds (questStartFallback : F) ≤ expiry skip := by
  rw [expiry_armed _ hstate]
  split
  · exact le_rfl
  · exact le_max_left _ _

theorem goes_updateArmed (h : Known settings last skip) (hstate : skip.state = .kArmed)
    (hnow : last ≤ answers.now) (hlater : answers.now ≤ answers.later)
    (hlatest : answers.later ≤ answers.latest) :
    Goes settings answers skip (updateArmed skip answers).1 := by
  have hknown := h.mono (hnow.trans (hlater.trans hlatest))
  obtain ⟨hpositive, harmed⟩ := h.armed hstate
  have hrank : 6 + settings.commands.length < rank skip := by
    rw [rank_armed _ hstate, h.settings]
    omega
  rw [updateArmed]
  split
  next hplayer =>
    refine goes_same hknown fun hcalm => ?_
    rw [hcalm.1] at hplayer
    cases hplayer
  split
  next hquest =>
    refine goes_same hknown fun _ => ?_
    simp only [Bool.and_eq_true, decide_eq_true_eq] at hquest
    exact (sub_lt_iff_lt_add'.mp hquest.2).le.trans (fallback_le_expiry hstate)
  by_cases hfirst : skip.questStartedAt = 0
  · -- the start is seen for the first time
    have hknown' : Known settings answers.latest { skip with questStartedAt := answers.now } :=
      ⟨hknown.settings, hknown.clock, hknown.active, hknown.armed, hknown.since⟩
    rw [if_pos hfirst]
    dsimp only
    split
    · have hne : answers.now ≠ 0 := (hpositive.trans_le (harmed.trans hnow)).ne'
      have hfallback : Seconds.seconds (questStartFallback : F) ≤ patience settings :=
        le_patience (by simp [waits])
      have hdelay : Seconds.seconds settings.startDelay ≤ patience settings :=
        le_patience (by simp [waits])
      refine .inr ⟨hknown', ?_, ?_⟩
      · rw [rank_armed _ hstate, rank_armed { skip with questStartedAt := answers.now } hstate,
          if_pos hfirst, if_neg hne]
        exact Nat.lt_succ_self _
      · rw [expiry_armed { skip with questStartedAt := answers.now } hstate, if_neg hne]
        dsimp only
        rw [h.settings]
        exact max_le (add_le_add (hknown.armed hstate).2 hfallback)
          (add_le_add (hlater.trans hlatest) hdelay)
    · exact .inr (arrives_start hknown' hlatest hrank)
  · rw [if_neg hfirst]
    dsimp only
    split
    next hdelay =>
      refine goes_same hknown fun _ => ?_
      rw [expiry_armed _ hstate, if_neg hfirst]
      exact (sub_lt_iff_lt_add'.mp hdelay).le.trans (le_max_right _ _)
    next => exact .inr (arrives_start hknown hlatest hrank)

theorem goes_updateSexChoice (h : Known settings last skip) (hstate : skip.state = .kSexChoice)
    (hnow : last ≤ answers.now) (hlater : answers.now ≤ answers.later)
    (hlatest : answers.later ≤ answers.latest) :
    Goes settings answers skip (updateSexChoice skip answers).1 := by
  have hknown := h.mono (hnow.trans (hlater.trans hlatest))
  have hsince := h.since (by rw [hstate]; decide) (by rw [hstate]; decide)
  have hexpiry : expiry skip =
      max skip.waitUntil (skip.stateSince + Seconds.seconds skip.settings.podTimeout) := by
    rw [expiry, hstate]
  have hrank : rank skip = 5 + skip.settings.commands.length + if skip.sexChanged then 0 else 1 := by
    rw [rank, hstate]
  have hbound : 4 + settings.commands.length < rank skip := by
    rw [hrank, h.settings]
    omega
  rw [updateSexChoice]
  split
  next hwait =>
    refine goes_same hknown fun _ => ?_
    rw [hexpiry]
    exact hwait.le.trans (le_max_left _ _)
  split
  next hloading =>
    refine goes_same hknown fun hcalm => ?_
    rw [hcalm.2.1] at hloading
    simp at hloading
  split
  · split
    · exact .inr (arrives_beginCommands hknown hlatest hbound)
    next hpatient =>
      refine goes_same hknown fun _ => ?_
      rw [hexpiry]
      exact (sub_le_iff_le_add'.mp (not_lt.mp hpatient)).trans (le_max_right _ _)
  · rcases applySexChoice_cases skip answers skip.sexChoice with hresult | ⟨hunchanged, hresult⟩
    · rw [hresult]
      exact .inr (arrives_beginCommands hknown hlatest hbound)
    · have hsettle : Seconds.seconds (sexChangeSettle : F) ≤ patience settings :=
        le_patience (by simp [waits])
      have hpod : Seconds.seconds settings.podTimeout ≤ patience settings :=
        le_patience (by simp [waits])
      rw [hresult]
      refine .inr ⟨⟨h.settings, hknown.clock, hknown.active, hknown.armed, hknown.since⟩, ?_, ?_⟩
      · rw [hrank, hunchanged, rank]
        dsimp only
        rw [hstate]
        exact Nat.lt_succ_self _
      · rw [expiry]
        dsimp only
        rw [hstate, h.settings]
        exact max_le (add_le_add hlatest hsettle)
          (add_le_add (hsince.trans (hnow.trans (hlater.trans hlatest))) hpod)

omit [CppFloat F] [Seconds F] [FromChars F] in
theorem rank_running (skip : PrologueSkip F) (hstate : skip.state = .kRunning) :
    rank skip = 4 + (skip.settings.commands.length - skip.next) := by
  rw [rank, hstate]

theorem arrives_runCommands (hlatest : answers.later ≤ answers.latest) {fuel : Nat}
    {result : Result F} (h : Known settings answers.latest skip) (hstate : skip.state = .kRunning)
    (hresult : runCommands answers fuel skip = some result) :
    Arrives settings answers (rank skip) result.1 := by
  induction fuel generalizing skip result with
  | zero => cases hresult
  | succ fuel ih =>
      rw [runCommands, if_neg (by simp [hstate]), runNextCommand] at hresult
      have hrank := rank_running _ hstate
      cases hcommand : skip.settings.commands[skip.next]? with
      | none =>
          rw [hcommand] at hresult
          obtain rfl := Option.some.inj hresult
          dsimp only
          split
          · have hpod : Seconds.seconds settings.podTimeout ≤ patience settings :=
              le_patience (by simp [waits])
            refine ⟨⟨h.settings, h.clock, by rintro ⟨⟩, by rintro ⟨⟩, fun _ _ => hlatest⟩, ?_, ?_⟩
            · rw [hrank]
              exact (Nat.le_add_right 4 _ : 3 < _)
            · change answers.later + Seconds.seconds skip.settings.podTimeout ≤ _
              rw [h.settings]
              exact add_le_add hlatest hpod
          · refine ⟨⟨h.settings, h.clock, by rintro ⟨⟩, by rintro ⟨⟩,
              fun _ hdone => absurd rfl hdone⟩, ?_, ?_⟩
            · rw [hrank]
              exact Nat.lt_add_right _ (by decide : 0 < 4)
            · exact add_nonneg h.clock (patience_nonneg settings)
      | some command =>
          have hnext : skip.next < skip.settings.commands.length :=
            (List.getElem?_eq_some_iff.mp hcommand).choose
          have hless : ∀ waitUntil, rank { skip with next := skip.next + 1, waitUntil } < rank skip := by
            intro waitUntil
            rw [hrank, rank_running { skip with next := skip.next + 1, waitUntil } hstate]
            dsimp only
            omega
          rw [hcommand] at hresult
          dsimp only at hresult
          by_cases hwait : isWait command = true
          · rw [if_pos hwait] at hresult
            obtain rfl := Option.some.inj hresult
            have hpause : pauseOf (F := F) command ≤ patience settings := by
              refine le_patience (List.mem_append_right _ (List.mem_map.mpr ⟨command, ?_, rfl⟩))
              rw [← h.settings]
              exact List.mem_of_getElem? hcommand
            refine ⟨⟨h.settings, h.clock, h.active, h.armed, h.since⟩, hless _, ?_⟩
            rw [expiry]
            dsimp only
            rw [hstate]
            exact add_le_add hlatest hpause
          · rw [if_neg hwait] at hresult
            obtain ⟨rest, hrest, rfl⟩ := Option.map_eq_some_iff.mp hresult
            have hrec := ih (⟨h.settings, h.clock, h.active, h.armed, h.since⟩ : Known settings answers.latest
              { skip with next := skip.next + 1 }) hstate hrest
            exact ⟨hrec.known, hrec.rank_lt.trans (hless skip.waitUntil), hrec.expiry_le⟩

theorem goes_updateRunning (h : Known settings last skip) (hstate : skip.state = .kRunning)
    (hnow : last ≤ answers.now) (hlater : answers.now ≤ answers.later)
    (hlatest : answers.later ≤ answers.latest) :
    Goes settings answers skip (updateRunning skip answers).1 := by
  have hknown := h.mono (hnow.trans (hlater.trans hlatest))
  rw [updateRunning]
  split
  next hwait =>
    refine goes_same hknown fun _ => ?_
    rw [expiry, hstate]
    exact hwait.le
  next =>
    obtain ⟨result, hresult⟩ := runCommands_ends skip answers
    rw [hresult]
    exact .inr (arrives_runCommands hlatest hknown hstate hresult)

theorem goes_updateWaitForPod (h : Known settings last skip) (hstate : skip.state = .kWaitForPod)
    (hnow : last ≤ answers.now) (hlater : answers.now ≤ answers.later)
    (hlatest : answers.later ≤ answers.latest) :
    Goes settings answers skip (updateWaitForPod skip answers).1 := by
  have hknown := h.mono (hnow.trans (hlater.trans hlatest))
  have hrank : rank skip = 3 := by rw [rank, hstate]
  have hfinish : Arrives settings answers (rank skip) (finish skip) :=
    arrives_finish hknown (by omega)
  rw [updateWaitForPod]
  split
  · split
    · rw [openFaceMenu]
      split
      · exact .inr hfinish
      · have hgrace : Seconds.seconds (menuGrace : F) ≤ patience settings :=
          le_patience (by simp [waits])
        refine .inr ⟨⟨h.settings, hknown.clock, by rintro ⟨⟩, by rintro ⟨⟩, fun _ _ => hlatest⟩,
          ?_, ?_⟩
        · rw [hrank]
          exact (by decide : 2 < 3)
        · exact add_le_add hlatest hgrace
    · exact .inr hfinish
  · split
    · exact .inr hfinish
    next hpatient =>
      refine goes_same hknown fun _ => ?_
      rw [expiry, hstate]
      exact sub_le_iff_le_add'.mp (not_lt.mp hpatient)

theorem goes_updateFaceMenu (h : Known settings last skip) (hstate : skip.state = .kFaceMenu)
    (hnow : last ≤ answers.now) (hlater : answers.now ≤ answers.later)
    (hlatest : answers.later ≤ answers.latest) :
    Goes settings answers skip (updateFaceMenu skip answers).1 := by
  have hknown := h.mono (hnow.trans (hlater.trans hlatest))
  have hrank : rank skip = 2 := by rw [rank, hstate]
  have hexpiry : expiry skip = skip.stateSince + Seconds.seconds (menuGrace : F) := by
    rw [expiry, hstate]
  rw [updateFaceMenu]
  split
  next hmenu =>
    refine .inl ⟨⟨h.settings, hknown.clock, hknown.active, hknown.armed, hknown.since⟩, ?_, ?_,
      fun hcalm => ?_⟩
    · rw [hrank, rank]
      dsimp only
      rw [hstate]
    · rw [hexpiry, expiry]
      dsimp only
      rw [hstate]
    · rw [hcalm.2.2.1] at hmenu
      cases hmenu
  split
  next hgrace =>
    simp only [Bool.and_eq_true, decide_eq_true_eq] at hgrace
    refine goes_same hknown fun _ => ?_
    rw [hexpiry]
    exact (sub_lt_iff_lt_add'.mp hgrace.2).le
  next =>
    have hgrace : Seconds.seconds (menuGrace : F) ≤ patience settings :=
      le_patience (by simp [waits])
    have hfinish := hlater.trans hlatest
    refine .inr ⟨⟨h.settings, hknown.clock, by rintro ⟨⟩, by rintro ⟨⟩, fun _ _ => hfinish⟩, ?_, ?_⟩
    · rw [hrank]
      exact (by decide : 1 < 2)
    · exact add_le_add hfinish hgrace

theorem goes_updateSpecialMenu (h : Known settings last skip) (hstate : skip.state = .kSpecialMenu)
    (hnow : last ≤ answers.now) (hlater : answers.now ≤ answers.later)
    (hlatest : answers.later ≤ answers.latest) :
    Goes settings answers skip (updateSpecialMenu skip answers).1 := by
  have hknown := h.mono (hnow.trans (hlater.trans hlatest))
  have hrank : rank skip = 1 := by rw [rank, hstate]
  have hexpiry : expiry skip = skip.stateSince + Seconds.seconds (menuGrace : F) := by
    rw [expiry, hstate]
  rw [updateSpecialMenu]
  split
  next hmenu =>
    refine .inl ⟨⟨h.settings, hknown.clock, hknown.active, hknown.armed, hknown.since⟩, ?_, ?_,
      fun hcalm => ?_⟩
    · rw [hrank, rank]
      dsimp only
      rw [hstate]
    · rw [hexpiry, expiry]
      dsimp only
      rw [hstate]
    · rw [hcalm.2.2.2] at hmenu
      cases hmenu
  split
  next hgrace =>
    simp only [Bool.and_eq_true, decide_eq_true_eq] at hgrace
    refine goes_same hknown fun _ => ?_
    rw [hexpiry]
    exact (sub_lt_iff_lt_add'.mp hgrace.2).le
  next => exact .inr (arrives_finish hknown (by omega))

theorem update_done (hstate : skip.state = .kDone) : update skip answers = (skip, []) := by
  rw [update, hstate]

theorem goes_update (h : Known settings last skip) (hnow : last ≤ answers.now)
    (hlater : answers.now ≤ answers.later) (hlatest : answers.later ≤ answers.latest) :
    Known settings answers.latest (update skip answers).1 ∧
      (rank (update skip answers).1 = rank skip ∧ expiry (update skip answers).1 = expiry skip ∧
          (Calm (.update answers) → rank skip = 0 ∨ answers.now ≤ expiry skip) ∨
        rank (update skip answers).1 < rank skip ∧
          expiry (update skip answers).1 ≤ answers.latest + patience settings) := by
  by_cases hdone : skip.state = .kDone
  · rw [update_done hdone]
    exact ⟨h.mono (hnow.trans (hlater.trans hlatest)),
      .inl ⟨rfl, rfl, fun _ => .inl (by rw [rank, hdone])⟩⟩
  have hgoes : Goes settings answers skip (update skip answers).1 := by
    rw [update]
    cases hstate : skip.state with
    | kIdle => exact absurd hstate h.active
    | kDone => exact absurd hstate hdone
    | kArmed => exact goes_updateArmed h hstate hnow hlater hlatest
    | kSexChoice => exact goes_updateSexChoice h hstate hnow hlater hlatest
    | kRunning => exact goes_updateRunning h hstate hnow hlater hlatest
    | kWaitForPod => exact goes_updateWaitForPod h hstate hnow hlater hlatest
    | kFaceMenu => exact goes_updateFaceMenu h hstate hnow hlater hlatest
    | kSpecialMenu => exact goes_updateSpecialMenu h hstate hnow hlater hlatest
  rcases hgoes with ⟨hknown, hrank, hexpiry, hkept⟩ | harrives
  · exact ⟨hknown, .inl ⟨hrank, hexpiry, fun hcalm => .inr (hkept hcalm)⟩⟩
  · exact ⟨harrives.known, .inr ⟨harrives.rank_lt, harrives.expiry_le⟩⟩

/-- The skip waits: for no longer than its patience in any state, if nothing is in its way. -/
theorem skip_waits (settings : Settings F) :
    Library.Deadlines.Waits (fun skip event => (step skip event).1) frameOf rank expiry
      (patience settings) Sound Calm (Known settings) where
  patient := patience_nonneg settings
  silent := by
    intro last skip event hknown hsound hframe
    cases event with
    | newGame now => exact absurd hsound id
    | leaveWorld => exact absurd hsound id
    | update answers => cases hframe
    | answered button =>
        exact ⟨⟨hknown.settings, hknown.clock, hknown.active, hknown.armed, hknown.since⟩, rfl, rfl⟩
  goes := by
    intro last skip event start finish hknown hsound hframe hstart hfinish
    cases event with
    | newGame now => cases hframe
    | leaveWorld => cases hframe
    | answered button => cases hframe
    | update answers =>
        obtain ⟨rfl, rfl⟩ := Prod.mk.inj (Option.some.inj hframe)
        exact goes_update hknown hstart hsound.1 hsound.2

omit [CppFloat F] [Seconds F] [FromChars F] in
theorem chronological_frames {events : List Event} (hchronological : Chronological last events)
    (hstays : ∀ event ∈ events, Stays event) :
    Library.Deadlines.Chronological frameOf last events ∧ ∀ event ∈ events, Sound event := by
  induction events generalizing last with
  | nil => exact ⟨trivial, by rintro _ ⟨⟩⟩
  | cons event events ih =>
      obtain ⟨hstay, hrest⟩ := List.forall_mem_cons.mp hstays
      rw [List.forall_mem_cons]
      cases event with
      | newGame now => exact absurd hstay id
      | leaveWorld => exact absurd hstay id
      | answered button =>
          obtain ⟨htimes, hsound⟩ := ih hchronological hrest
          exact ⟨htimes, trivial, hsound⟩
      | update answers =>
          obtain ⟨hnow, hlater, hlatest, hchronological⟩ := hchronological
          obtain ⟨htimes, hsound⟩ := ih hchronological hrest
          exact ⟨⟨hnow, hlater.trans hlatest, htimes⟩, ⟨hlater, hlatest⟩, hsound⟩

omit [CppFloat F] [Seconds F] [FromChars F] in
theorem known_onNewGame {now : Instant} (hnow : 0 < now) (hsettings : skip.settings = settings) :
    Known settings now (onNewGame skip now) := by
  rw [onNewGame]
  split
  · exact ⟨hsettings, hnow.le, by rintro ⟨⟩, by rintro ⟨⟩, fun _ hdone => absurd rfl hdone⟩
  · exact ⟨hsettings, hnow.le, by rintro ⟨⟩, fun _ => ⟨hnow, le_rfl⟩, fun harmed => absurd rfl harmed⟩

omit [CppFloat F] [Seconds F] [FromChars F] in
theorem rank_onNewGame (skip : PrologueSkip F) (now : Instant) :
    rank (onNewGame skip now) ≤ skip.settings.commands.length + 8 := by
  rw [onNewGame]
  split
  · exact Nat.zero_le _
  · change 7 + skip.settings.commands.length + 1 ≤ _
    omega

theorem expiry_onNewGame (skip : PrologueSkip F) {now : Instant} (hnow : 0 < now) :
    expiry (onNewGame skip now) ≤ now + patience skip.settings := by
  rw [onNewGame]
  split
  · exact add_nonneg hnow.le (patience_nonneg skip.settings)
  · exact add_le_add le_rfl (le_patience (by simp [waits]))

omit [CppFloat F] [Seconds F] [FromChars F] in
theorem done_of_rank (h : Known settings last skip) (hrank : rank skip = 0) :
    skip.state = .kDone := by
  rw [rank] at hrank
  cases hstate : skip.state with
  | kIdle => exact absurd hstate h.active
  | kDone => rfl
  | kArmed | kSexChoice | kRunning | kWaitForPod | kFaceMenu | kSpecialMenu =>
      rw [hstate] at hrank
      dsimp only at hrank
      omega

/-- The skip ends.  Whatever the quests, the commands, the message box and the menus did
before, once the character is there and no menu is open, it is over after a time for each
command and each state, and the states and their number are bounded beforehand. -/
theorem prologue_ends {now gap : Int} (hnow : 0 < now) (hgap : 0 ≤ gap)
    (hsettings : skip.settings = settings) {rest quiet : List Event}
    (hchronological : Chronological now (rest ++ quiet))
    (hstays : ∀ event ∈ rest ++ quiet, Stays event) (hcalm : ∀ event ∈ quiet, Calm event)
    (hpaced : Paced frameOf gap (timeAfter frameOf now rest) quiet) :
    (stateAfter (onNewGame skip now) (rest ++ quiet)).state = .kDone ∨
      timeAfter frameOf now (rest ++ quiet) ≤ timeAfter frameOf now rest +
        ((settings.commands.length + 8 : Nat) + 1) * (patience settings + 2 * gap) := by
  obtain ⟨htimes, hsound⟩ := chronological_frames hchronological hstays
  have hrank := rank_onNewGame skip now
  have hexpiry := expiry_onNewGame skip hnow
  rw [hsettings] at hrank hexpiry
  obtain ⟨hknown, hend⟩ := (skip_waits settings).ends hsound hcalm htimes hpaced
    (known_onNewGame hnow hsettings) hrank hexpiry hgap
  exact hend.imp (done_of_rank hknown) id

end Frames

section Example

def slowFrames : List Event :=
  (List.range 20).map fun i => .update
    { now := (i + 1) * 1000000000000, later := (i + 1) * 1000000000000
      latest := (i + 1) * 1000000000000 }

/-- After them the skip is over, though the quests never started. -/
theorem prologue_ends_slowly :
    (stateAfter (onNewGame { settings := faceOnly } 1000000000) slowFrames).state = .kDone := by
  have hend := @prologue_ends ℚ _ _ _ faceOnly { settings := faceOnly } 1000000000 1000000000000
    (by decide) (by decide) rfl [] slowFrames
    (by simp [slowFrames, Chronological, List.range, List.range.loop])
    (by simp [slowFrames, Stays]) (by simp [slowFrames, Calm])
    (by simp [slowFrames, Paced, frameOf, timeAfter, List.range, List.range.loop])
  refine hend.resolve_right ?_
  decide +kernel

end Example

end F4MP.PrologueEnd
