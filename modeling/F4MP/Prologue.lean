import F4MP.Library.Runs
import F4MP.PrologueSkipModel

/-!
What one arming of the prologue skip does: the opening in the bathroom, one sex change at
most, the commands in order, and the three steps of the character creator.
-/

namespace F4MP.Prologue

open F4MP.Types
open F4MP.Arith
open F4MP.PrologueSkipModel
open F4MP.Library.Runs

/-- What was done in an arming, in the order of the source: `done` commands, and whether
the other steps were taken. -/
structure Story where
  opening : List Call := []
  sexChange : Bool := false
  done : Nat := 0
  race : Bool := false
  special : Bool := false
  restored : Bool := false

def stepOf (command : Bytes) : Call := if isWait command then .pause command else .command command

def taken (step : Bool) (call : Call) : List Call := if step then [call] else []

def Story.calls (commands : List Bytes) (story : Story) : List Call :=
  story.opening ++ taken story.sexChange .sexChange ++ (commands.take story.done).map stepOf ++
    taken story.race .showRaceMenu ++ taken story.special .showSpecialMenu ++
    taken story.restored .restorePlayerControl

/-- What is done before anything changes in the game. -/
def IsOpening : Call → Prop
  | .print _ | .hideLooksMenu | .askSex => True
  | _ => False

/-- A story in which every step has those before it behind it.  The form for the name may
be left out for an excuse. -/
structure Ordered (commands : List Bytes) (excused : Prop) (story : Story) : Prop where
  opening : ∀ call ∈ story.opening, IsOpening call
  race : story.race = true → commands.length ≤ story.done
  special : story.special = true → story.race = true
  restored : story.restored = true → story.race = true ∧ (story.special = true ∨ excused)

def Stage {F : Type} (excused : Prop) (skip : PrologueSkip F) (story : Story) : Prop :=
  match skip.state with
  | .kIdle | .kDone => True
  | .kArmed => story = {} ∧ skip.sexChanged = false
  | .kSexChoice => story = { opening := story.opening, sexChange := skip.sexChanged }
  | .kRunning =>
      story = { opening := story.opening, sexChange := story.sexChange, done := skip.next } ∧
        skip.next ≤ skip.settings.commands.length
  | .kWaitForPod =>
      story = { opening := story.opening, sexChange := story.sexChange, done := story.done } ∧
        skip.settings.commands.length ≤ story.done
  | .kFaceMenu =>
      story = { opening := story.opening, sexChange := story.sexChange, done := story.done,
                race := true } ∧
        skip.settings.commands.length ≤ story.done
  | .kSpecialMenu =>
      story = { opening := story.opening, sexChange := story.sexChange, done := story.done,
                race := true, special := story.special } ∧
        skip.settings.commands.length ≤ story.done ∧ (story.special = true ∨ excused)

/-- The calls of an arming so far tell such a story. -/
def Tells {F : Type} (settings : Settings F) (excused : Prop) (skip : PrologueSkip F)
    (calls : List Call) : Prop :=
  skip.settings = settings ∧ ∃ story : Story, calls = story.calls settings.commands ∧
    Ordered settings.commands excused story ∧ Stage excused skip story

section Steps

variable {F : Type} {settings : Settings F} {excused : Prop} {skip : PrologueSkip F}
variable {calls : List Call}

theorem Ordered.excuse {commands : List Bytes} {story : Story} {excused' : Prop}
    (h : Ordered commands excused story) (himp : excused → excused') :
    Ordered commands excused' story where
  opening := h.opening
  race := h.race
  special := h.special
  restored hrestored := ⟨(h.restored hrestored).1, (h.restored hrestored).2.imp_right himp⟩

theorem Stage.excuse {story : Story} {excused' : Prop} (h : Stage excused skip story)
    (himp : excused → excused') : Stage excused' skip story := by
  rw [Stage] at h ⊢
  cases hstate : skip.state with
  | kSpecialMenu =>
      rw [hstate] at h
      exact ⟨h.1, h.2.1, h.2.2.imp_right himp⟩
  | _ =>
      rw [hstate] at h
      exact h

theorem Tells.excuse {excused' : Prop} (h : Tells settings excused skip calls)
    (himp : excused → excused') : Tells settings excused' skip calls := by
  obtain ⟨hsettings, story, hcalls, hordered, hstage⟩ := h
  exact ⟨hsettings, story, hcalls, hordered.excuse himp, hstage.excuse himp⟩

/-- A story that is nothing but an opening and perhaps a sex change. -/
def Early (story : Story) : Prop :=
  story = { opening := story.opening, sexChange := story.sexChange }

theorem tells_beginCommands (hsettings : skip.settings = settings) {story : Story}
    (hcalls : calls = story.calls settings.commands)
    (hordered : Ordered settings.commands excused story) (hearly : Early story)
    (answers : Answers) : Tells settings excused (beginCommands skip answers) calls :=
  ⟨hsettings, story, hcalls, hordered, hearly, Nat.zero_le _⟩

theorem tells_finish (h : Tells settings excused skip calls) :
    Tells settings excused (finish skip) calls := by
  obtain ⟨hsettings, story, hcalls, hordered, -⟩ := h
  exact ⟨hsettings, story, hcalls, hordered, trivial⟩

theorem tells_askSex (hsettings : skip.settings = settings) {story : Story}
    (hcalls : calls = story.calls settings.commands)
    (hordered : Ordered settings.commands excused story)
    (hfirst : story = { opening := story.opening }) (hsex : skip.sexChanged = false)
    (answers : Answers) :
    Tells settings excused (askSex skip answers).1 (calls ++ (askSex skip answers).2) := by
  have hearly : Early story := by
    rw [hfirst]
    rfl
  rw [askSex]
  split
  · rw [List.append_nil]
    exact tells_beginCommands hsettings hcalls hordered hearly answers
  · refine ⟨hsettings, { opening := story.opening ++ [.askSex] }, ?_,
      ⟨?_, by rintro ⟨⟩, by rintro ⟨⟩, by rintro ⟨⟩⟩, ?_⟩
    · rw [hcalls, hfirst]
      simp [Story.calls, taken]
    · intro call hcall
      rcases List.mem_append.mp hcall with hold | hnew
      · exact hordered.opening call hold
      · rw [List.mem_singleton.mp hnew]
        trivial
    · change _ = _
      rw [hsex]

theorem tells_start (hsettings : skip.settings = settings) (hsex : skip.sexChanged = false)
    (answers : Answers) :
    Tells settings excused (start skip answers).1 (start skip answers).2 := by
  rw [start]
  split
  · exact ⟨hsettings, {}, rfl, ⟨by rintro _ ⟨⟩, by rintro ⟨⟩, by rintro ⟨⟩, by rintro ⟨⟩⟩, trivial⟩
  · dsimp only
    generalize hclosed :
      (if answers.looksMenuOpen && answers.hasQueue then [Call.hideLooksMenu] else []) = closed
    let story : Story := { opening := .print (ascii "[F4MP] Skipping the prologue...") :: closed }
    have hcalls : story.opening = story.calls settings.commands := by
      simp [story, Story.calls, taken]
    have hordered : Ordered settings.commands excused story := by
      refine ⟨fun call hcall => ?_, by rintro ⟨⟩, by rintro ⟨⟩, by rintro ⟨⟩⟩
      rcases List.mem_cons.mp hcall with rfl | hcall
      · trivial
      · rw [← hclosed] at hcall
        split at hcall
        · rw [List.mem_singleton.mp hcall]
          trivial
        · cases hcall
    split
    · exact tells_askSex hsettings hcalls hordered rfl hsex answers
    · rw [List.append_nil]
      exact tells_beginCommands hsettings hcalls hordered rfl answers

theorem tells_onNewGame (hsettings : skip.settings = settings) (now : Instant) :
    Tells settings False (onNewGame skip now) [] := by
  rw [onNewGame]
  split
  · exact ⟨hsettings, {}, rfl, ⟨by rintro _ ⟨⟩, by rintro ⟨⟩, by rintro ⟨⟩, by rintro ⟨⟩⟩, trivial⟩
  · exact ⟨hsettings, {}, rfl, ⟨by rintro _ ⟨⟩, by rintro ⟨⟩, by rintro ⟨⟩, by rintro ⟨⟩⟩, rfl, rfl⟩

section Frames

variable [CppFloat F] [Seconds F]

theorem tells_updateArmed (h : Tells settings excused skip calls) (hstate : skip.state = .kArmed)
    (answers : Answers) :
    Tells settings excused (updateArmed skip answers).1
      (calls ++ (updateArmed skip answers).2) := by
  obtain ⟨hsettings, story, hcalls, hordered, hstage⟩ := h
  have hwait : ∀ skip' : PrologueSkip F, skip'.settings = skip.settings →
      skip'.state = skip.state → skip'.sexChanged = skip.sexChanged →
      Tells settings excused skip' (calls ++ []) := by
    intro skip' hsettings' hstate' hsex
    rw [Stage, hstate] at hstage
    rw [List.append_nil]
    refine ⟨hsettings'.trans hsettings, story, hcalls, hordered, ?_⟩
    rw [Stage, hstate', hstate, hsex]
    exact hstage
  rw [Stage, hstate] at hstage
  obtain ⟨rfl, hsex⟩ := hstage
  obtain rfl : calls = [] := hcalls
  rw [updateArmed]
  split
  · exact hwait skip rfl rfl rfl
  split
  · exact hwait skip rfl rfl rfl
  dsimp only
  generalize hseen :
    (if skip.questStartedAt = 0 then { skip with questStartedAt := answers.now } else skip) = seen
  have hkept : seen.settings = skip.settings ∧ seen.state = skip.state ∧
      seen.sexChanged = skip.sexChanged := by
    rw [← hseen]
    split <;> exact ⟨rfl, rfl, rfl⟩
  split
  · exact hwait seen hkept.1 hkept.2.1 hkept.2.2
  · exact tells_start (hkept.1.trans hsettings) (hkept.2.2.trans hsex) answers

/-- The answer starts the commands, or changes the sex for the first time. -/
theorem applySexChoice_cases (skip : PrologueSkip F) (answers : Answers) (choice : Int) :
    applySexChoice skip answers choice = (beginCommands skip answers, []) ∨
      (skip.sexChanged = false ∧ applySexChoice skip answers choice =
        ({ skip with
            sexChanged := true
            waitUntil := answers.later + Seconds.seconds (sexChangeSettle : F) },
          [.sexChange])) := by
  rw [applySexChoice]
  generalize (if choice = 1 then Sex.kFemale else Sex.kMale) = wanted
  generalize (if answers.hasPlayer then answers.sex else Sex.kNone) = current
  split
  · rename_i hchange
    rw [Bool.and_eq_true, Bool.not_eq_true'] at hchange
    exact .inr ⟨hchange.2, rfl⟩
  · exact .inl rfl

theorem tells_updateSexChoice (h : Tells settings excused skip calls)
    (hstate : skip.state = .kSexChoice) (answers : Answers) :
    Tells settings excused (updateSexChoice skip answers).1
      (calls ++ (updateSexChoice skip answers).2) := by
  have hwait : Tells settings excused skip (calls ++ []) := by rwa [List.append_nil]
  obtain ⟨hsettings, story, hcalls, hordered, hstage⟩ := h
  rw [Stage, hstate] at hstage
  have hearly : Early story := by
    rw [hstage]
    rfl
  have hbegin : Tells settings excused (beginCommands skip answers) (calls ++ []) := by
    rw [List.append_nil]
    exact tells_beginCommands hsettings hcalls hordered hearly answers
  rw [updateSexChoice]
  split
  · exact hwait
  split
  · exact hwait
  split
  · split
    · exact hbegin
    · exact hwait
  rcases applySexChoice_cases skip answers skip.sexChoice with hresult | ⟨hsex, hresult⟩
  · rw [hresult]
    exact hbegin
  · rw [hresult]
    refine ⟨hsettings, { opening := story.opening, sexChange := true }, ?_,
      ⟨hordered.opening, by rintro ⟨⟩, by rintro ⟨⟩, by rintro ⟨⟩⟩, ?_⟩
    · rw [hcalls, hstage, hsex]
      simp [Story.calls, taken]
    · rw [Stage, hstate]

theorem calls_next {story : Story} {command : Bytes} {commands : List Bytes}
    (hrest : story = { opening := story.opening, sexChange := story.sexChange, done := story.done })
    (hcommand : commands[story.done]? = some command) :
    ({ story with done := story.done + 1 } : Story).calls commands =
      story.calls commands ++ [stepOf command] := by
  rw [hrest]
  simp [Story.calls, taken, List.take_add_one, hcommand]

variable [FromChars F]

/-- A command is done and the loop goes on; a pause ends it. -/
theorem runNextCommand_cases {command : Bytes} (answers : Answers)
    (hcommand : skip.settings.commands[skip.next]? = some command) :
    (isWait command = true ∧ ∃ waitUntil, runNextCommand skip answers =
        (false, { skip with next := skip.next + 1, waitUntil }, [.pause command])) ∨
      (isWait command = false ∧ runNextCommand skip answers =
        (true, { skip with next := skip.next + 1 }, [.command command])) := by
  rw [runNextCommand, hcommand]
  dsimp only
  cases isWait command with
  | true => exact .inl ⟨rfl, _, rfl⟩
  | false => exact .inr ⟨rfl, rfl⟩

theorem tells_runCommands {fuel : Nat} {answers : Answers} {result : Result F}
    (h : Tells settings excused skip calls) (hstate : skip.state = .kRunning)
    (hresult : runCommands answers fuel skip = some result) :
    Tells settings excused result.1 (calls ++ result.2) := by
  induction fuel generalizing skip calls result with
  | zero => cases hresult
  | succ fuel ih =>
      obtain ⟨hsettings, story, hcalls, hordered, hstage⟩ := h
      rw [Stage, hstate] at hstage
      obtain ⟨hstory, hnext⟩ := hstage
      have hdone : story.done = skip.next := by rw [hstory]
      rw [← hdone] at hstory
      rw [runCommands, hstate, if_neg (by simp)] at hresult
      cases hcommand : skip.settings.commands[skip.next]? with
      | none =>
          rw [runNextCommand, hcommand] at hresult
          obtain rfl := Option.some.inj hresult
          have hall : skip.settings.commands.length ≤ story.done := by
            rw [hdone]
            exact List.getElem?_eq_none_iff.mp hcommand
          dsimp only
          rw [List.append_nil]
          split
          · exact ⟨hsettings, story, hcalls, hordered, hstory, hall⟩
          · exact ⟨hsettings, story, hcalls, hordered, trivial⟩
      | some command =>
          have hbound : skip.next < skip.settings.commands.length :=
            (List.getElem?_eq_some_iff.mp hcommand).choose
          -- one more command is done
          have hmore : ∀ waitUntil, Tells settings excused
              { skip with next := skip.next + 1, waitUntil } (calls ++ [stepOf command]) := by
            intro waitUntil
            refine ⟨hsettings, { story with done := story.done + 1 }, ?_,
              ⟨hordered.opening, ?_, ?_, ?_⟩, ?_⟩
            · rw [calls_next hstory (by rw [hdone, ← hsettings]; exact hcommand), hcalls]
            iterate 3
              rw [hstory]
              rintro ⟨⟩
            · rw [Stage, hstate]
              exact ⟨by rw [hstory, hdone], hbound⟩
          rcases runNextCommand_cases answers hcommand with
            ⟨hwait, waitUntil, hnext⟩ | ⟨hwait, hnext⟩
          · rw [hnext] at hresult
            obtain rfl := Option.some.inj hresult
            rw [stepOf, if_pos hwait] at hmore
            exact hmore waitUntil
          · rw [hnext] at hresult
            obtain ⟨rest, hrest, rfl⟩ := Option.map_eq_some_iff.mp hresult
            rw [stepOf, if_neg (by rw [hwait]; rintro ⟨⟩)] at hmore
            have hrec := ih (hmore skip.waitUntil) hstate hrest
            rwa [List.append_assoc] at hrec

/-- The loop of one frame always ends: a round for each command and one more are enough. -/
theorem runCommands_ends (skip : PrologueSkip F) (answers : Answers) :
    ∃ result, runCommands answers (skip.settings.commands.length + 1) skip = some result := by
  suffices h : ∀ (fuel : Nat) (skip : PrologueSkip F),
      skip.settings.commands.length - skip.next < fuel →
      ∃ result, runCommands answers fuel skip = some result from
    h _ skip (by omega)
  intro fuel
  induction fuel with
  | zero => exact fun skip hfuel => absurd hfuel (Nat.not_lt_zero _)
  | succ fuel ih =>
      intro skip hfuel
      rw [runCommands]
      split
      · exact ⟨_, rfl⟩
      cases hcommand : skip.settings.commands[skip.next]? with
      | none =>
          rw [runNextCommand, hcommand]
          exact ⟨_, rfl⟩
      | some command =>
          have hbound : skip.next < skip.settings.commands.length :=
            (List.getElem?_eq_some_iff.mp hcommand).choose
          rcases runNextCommand_cases answers hcommand with ⟨-, waitUntil, hnext⟩ | ⟨-, hnext⟩
          · rw [hnext]
            exact ⟨_, rfl⟩
          · obtain ⟨result, hresult⟩ := ih { skip with next := skip.next + 1 }
              (by dsimp only; omega)
            rw [hnext]
            dsimp only
            rw [hresult]
            exact ⟨_, rfl⟩

theorem tells_updateRunning (h : Tells settings excused skip calls)
    (hstate : skip.state = .kRunning) (answers : Answers) :
    Tells settings excused (updateRunning skip answers).1
      (calls ++ (updateRunning skip answers).2) := by
  rw [updateRunning]
  split
  · rwa [List.append_nil]
  · obtain ⟨result, hresult⟩ := runCommands_ends skip answers
    rw [hresult]
    exact tells_runCommands h hstate hresult

omit [CppFloat F] [FromChars F] in
theorem tells_updateWaitForPod (h : Tells settings excused skip calls)
    (hstate : skip.state = .kWaitForPod) (answers : Answers) :
    Tells settings excused (updateWaitForPod skip answers).1
      (calls ++ (updateWaitForPod skip answers).2) := by
  have hfinish : Tells settings excused (finish skip) (calls ++ []) := by
    rw [List.append_nil]
    exact tells_finish h
  rw [updateWaitForPod]
  split
  · split
    · rw [openFaceMenu]
      split
      · exact hfinish
      · obtain ⟨hsettings, story, hcalls, hordered, hstage⟩ := h
        rw [Stage, hstate] at hstage
        obtain ⟨hstory, hall⟩ := hstage
        refine ⟨hsettings, { story with race := true }, ?_,
          ⟨hordered.opening, fun _ => by rwa [← hsettings], fun _ => rfl, ?_⟩, ?_, hall⟩
        · rw [hcalls, hstory]
          simp [Story.calls, taken]
        · rw [hstory]
          rintro ⟨⟩
        · rw [hstory]
    · exact hfinish
  · split
    · exact hfinish
    · rwa [List.append_nil]

omit [FromChars F] in
theorem tells_updateFaceMenu (h : Tells settings excused skip calls)
    (hstate : skip.state = .kFaceMenu) (answers : Answers) {excused' : Prop}
    (himp : excused → excused')
    (hleft : (updateFaceMenu skip answers).1.state = .kSpecialMenu →
      answers.specialMenuOpen = true ∨ answers.hasVM = false → excused') :
    Tells settings excused' (updateFaceMenu skip answers).1
      (calls ++ (updateFaceMenu skip answers).2) := by
  have hweaker : Tells settings excused' skip calls := h.excuse himp
  obtain ⟨hsettings, story, hcalls, hordered, hstage⟩ := hweaker
  rw [Stage, hstate] at hstage
  obtain ⟨hstory, hall⟩ := hstage
  rw [updateFaceMenu] at hleft ⊢
  split
  · rw [List.append_nil]
    refine ⟨hsettings, story, hcalls, hordered, ?_⟩
    rw [Stage, hstate]
    exact ⟨hstory, hall⟩
  rename_i hlooks
  rw [if_neg hlooks] at hleft
  split
  · rw [List.append_nil]
    refine ⟨hsettings, story, hcalls, hordered, ?_⟩
    rw [Stage, hstate]
    exact ⟨hstory, hall⟩
  rename_i hgrace
  rw [if_neg hgrace] at hleft
  -- the form is asked for, or there is an excuse
  have hkept : story.restored = false := by rw [hstory]
  have hspecial : story.special = false := by rw [hstory]
  have hrace : story.race = true := by rw [hstory]
  have hexcused : (answers.specialMenuOpen = true ∨ answers.hasVM = false) →
      Tells settings excused'
        { skip with
          specialMenuSeen := false, stateSince := answers.now, state := .kSpecialMenu }
        (calls ++ []) := by
    intro hexcuse
    rw [List.append_nil]
    refine ⟨hsettings, story, hcalls, hordered, ?_, hall, .inr (hleft rfl hexcuse)⟩
    rw [hstory]
  rw [openSpecialMenu]
  split
  · rename_i hopen
    exact hexcused (.inl hopen)
  split
  · rename_i hvm
    exact hexcused (.inr (by simpa using hvm))
  · refine ⟨hsettings, { story with special := true }, ?_,
      ⟨hordered.opening, hordered.race, fun _ => hrace, ?_⟩, ?_, hall, .inl rfl⟩
    · rw [hcalls, hstory]
      simp [Story.calls, taken]
    · intro hrestored
      exact absurd (hkept.symm.trans hrestored) (by rintro ⟨⟩)
    · rw [hstory]

omit [FromChars F] in
theorem tells_updateSpecialMenu (h : Tells settings excused skip calls)
    (hstate : skip.state = .kSpecialMenu) (answers : Answers) :
    Tells settings excused (updateSpecialMenu skip answers).1
      (calls ++ (updateSpecialMenu skip answers).2) := by
  obtain ⟨hsettings, story, hcalls, hordered, hstage⟩ := h
  rw [Stage, hstate] at hstage
  obtain ⟨hstory, hall, hspecial⟩ := hstage
  have hrace : story.race = true := by rw [hstory]
  rw [updateSpecialMenu]
  split
  · rw [List.append_nil]
    refine ⟨hsettings, story, hcalls, hordered, ?_⟩
    rw [Stage, hstate]
    exact ⟨hstory, hall, hspecial⟩
  split
  · rw [List.append_nil]
    refine ⟨hsettings, story, hcalls, hordered, ?_⟩
    rw [Stage, hstate]
    exact ⟨hstory, hall, hspecial⟩
  · refine ⟨hsettings, { story with restored := true }, ?_,
      ⟨hordered.opening, hordered.race, hordered.special, fun _ => ⟨hrace, hspecial⟩⟩, trivial⟩
    rw [hcalls, hstory]
    simp [Story.calls, taken]

/-- The frame that is done with the face finds the form for the name open already, or no
script VM to ask for it. -/
def LeavesFormOut (skip : PrologueSkip F) (answers : Answers) : Prop :=
  skip.state = .kFaceMenu ∧ (update skip answers).1.state = .kSpecialMenu ∧
    (answers.specialMenuOpen = true ∨ answers.hasVM = false)

theorem tells_update (h : Tells settings excused skip calls) (answers : Answers) :
    Tells settings (excused ∨ LeavesFormOut skip answers) (update skip answers).1
      (calls ++ (update skip answers).2) := by
  generalize hleft : LeavesFormOut skip answers = left
  rw [update]
  split
  · rename_i hstate
    rw [List.append_nil]
    exact h.excuse .inl
  · rw [List.append_nil]
    exact h.excuse .inl
  · rename_i hstate
    exact (tells_updateArmed h hstate answers).excuse .inl
  · rename_i hstate
    exact (tells_updateSexChoice h hstate answers).excuse .inl
  · rename_i hstate
    exact (tells_updateRunning h hstate answers).excuse .inl
  · rename_i hstate
    exact (tells_updateWaitForPod h hstate answers).excuse .inl
  · rename_i hstate
    refine tells_updateFaceMenu h hstate answers .inl fun hdone hexcuse => .inr ?_
    rw [← hleft, LeavesFormOut, update, hstate]
    exact ⟨rfl, hdone, hexcuse⟩
  · rename_i hstate
    exact (tells_updateSpecialMenu h hstate answers).excuse .inl

end Frames

end Steps

section Runs

variable {F : Type} [CppFloat F] [Seconds F] [FromChars F]

/-- The skip after some events. -/
def stateAfter (skip : PrologueSkip F) (events : List Event) : PrologueSkip F :=
  run (fun skip event => (step skip event).1) skip events

/-- What is asked of the engine during some events. -/
def callsOf (skip : PrologueSkip F) : List Event → List Call
  | [] => []
  | event :: events => (step skip event).2 ++ callsOf (step skip event).1 events

/-- What does not end an arming. -/
def within : Event → Bool
  | .update _ | .answered _ => true
  | .newGame _ | .leaveWorld => false

/-- Some frame left the form for the name out. -/
def Excused (skip : PrologueSkip F) (events : List Event) : Prop :=
  ∃ pre answers post, events = pre ++ .update answers :: post ∧
    LeavesFormOut (stateAfter skip pre) answers

variable {settings : Settings F} {skip : PrologueSkip F}

theorem Excused.cons {event : Event} {events : List Event}
    (h : Excused (step skip event).1 events) : Excused skip (event :: events) := by
  obtain ⟨pre, answers, post, rfl, hleft⟩ := h
  exact ⟨event :: pre, answers, post, rfl, hleft⟩

theorem tells_step {excused : Prop} {calls : List Call} (h : Tells settings excused skip calls)
    {event : Event} (hwithin : within event = true) :
    Tells settings (excused ∨ ∃ answers, event = .update answers ∧ LeavesFormOut skip answers)
      (step skip event).1 (calls ++ (step skip event).2) := by
  cases event with
  | newGame | leaveWorld => cases hwithin
  | update answers =>
      exact (tells_update h answers).excuse (Or.imp_right fun hleft => ⟨answers, rfl, hleft⟩)
  | answered button =>
      refine Tells.excuse ?_ .inl
      obtain ⟨hsettings, story, hcalls, hordered, hstage⟩ := h
      refine ⟨hsettings, story, ?_, hordered, hstage⟩
      rw [← hcalls]
      exact List.append_nil _

theorem tells_callsOf {excused : Prop} {calls : List Call} (h : Tells settings excused skip calls)
    (events : List Event) (hwithin : ∀ event ∈ events, within event = true) :
    Tells settings (excused ∨ Excused skip events) (stateAfter skip events)
      (calls ++ callsOf skip events) := by
  induction events generalizing excused skip calls with
  | nil =>
      rw [callsOf, List.append_nil]
      exact h.excuse .inl
  | cons event events ih =>
      have hrest := ih (tells_step h (hwithin event List.mem_cons_self)) fun other hother =>
        hwithin other (List.mem_cons_of_mem _ hother)
      rw [callsOf, ← List.append_assoc]
      refine hrest.excuse ?_
      rintro ((hbefore | ⟨answers, rfl, hleft⟩) | hlater)
      · exact .inl hbefore
      · exact .inr ⟨[], answers, events, rfl, hleft⟩
      · exact .inr hlater.cons

end Runs

def lineOf : Call → Option Bytes
  | .command line | .pause line => some line
  | _ => none

def commandOf : Call → Option Bytes
  | .command line => some line
  | _ => none

/-- The configured commands done, pauses among them. -/
def steps (calls : List Call) : List Bytes := calls.filterMap lineOf

/-- The console commands executed. -/
def commandsOf (calls : List Call) : List Bytes := calls.filterMap commandOf

section Reading

variable {commands : List Bytes} {excused : Prop} {story : Story}

@[simp] theorem lineOf_stepOf (command : Bytes) : lineOf (stepOf command) = some command := by
  rw [stepOf]
  split <;> rfl

@[simp] theorem commandOf_stepOf (command : Bytes) :
    commandOf (stepOf command) = if isWait command then none else some command := by
  rw [stepOf]
  split <;> rfl

theorem mem_taken {step : Bool} {call other : Call} :
    call ∈ taken step other ↔ step = true ∧ call = other := by
  cases step <;> simp [taken]

theorem not_mem_steps {call : Call} (hcall : lineOf call = none) (commands : List Bytes) :
    call ∉ commands.map stepOf := by
  intro hmem
  obtain ⟨command, -, rfl⟩ := List.mem_map.mp hmem
  rw [lineOf_stepOf] at hcall
  cases hcall

theorem Ordered.not_mem_opening (h : Ordered commands excused story) {call : Call}
    (hcall : ¬ IsOpening call) : call ∉ story.opening := fun hmem => hcall (h.opening call hmem)

theorem Ordered.lineOf_opening (h : Ordered commands excused story) {call : Call}
    (hcall : call ∈ story.opening) : lineOf call = none := by
  have hopening := h.opening call hcall
  cases call with
  | print | hideLooksMenu | askSex => rfl
  | _ => exact hopening.elim

theorem Ordered.steps_opening (h : Ordered commands excused story) : steps story.opening = [] :=
  List.filterMap_eq_nil_iff.mpr fun _ hcall => h.lineOf_opening hcall

theorem steps_taken {step : Bool} {call : Call} (hcall : lineOf call = none) :
    steps (taken step call) = [] := by
  cases step with
  | false => rfl
  | true => simp [steps, taken, hcall]

theorem steps_append (calls more : List Call) : steps (calls ++ more) = steps calls ++ steps more :=
  List.filterMap_append

theorem steps_map_stepOf (commands : List Bytes) : steps (commands.map stepOf) = commands := by
  rw [steps, List.filterMap_map]
  simp

theorem once_between {step : Bool} {call : Call} {calls before after : List Call}
    (hcalls : calls = before ++ taken step call ++ after) (hbefore : call ∉ before)
    (hafter : call ∉ after) :
    calls.count call ≤ 1 ∧
      ∀ pre post, calls = pre ++ call :: post → step = true ∧ pre = before := by
  subst hcalls
  constructor
  · rw [List.count_append, List.count_append, List.count_eq_zero.mpr hbefore,
      List.count_eq_zero.mpr hafter, taken]
    split <;> simp
  intro pre post h
  cases step with
  | false =>
      have hmem : call ∈ before ++ taken false call ++ after := by
        rw [h]
        simp
      simp [taken, hbefore, hafter] at hmem
  | true =>
      refine ⟨rfl, ?_⟩
      rw [taken, if_pos rfl, List.append_assoc, List.singleton_append] at h
      rcases List.append_eq_append_iff.mp h with ⟨rest, rfl, hrest⟩ | ⟨rest, rfl, hrest⟩
      · cases rest with
        | nil => exact List.append_nil _
        | cons first rest =>
            obtain ⟨rfl, rfl⟩ := List.cons.inj hrest
            exact absurd (by simp) hafter
      · cases rest with
        | nil => exact (List.append_nil _).symm
        | cons first rest =>
            obtain ⟨rfl, rfl⟩ := List.cons.inj hrest
            exact absurd (by simp) hbefore

theorem Ordered.commandsOf_prefix (h : Ordered commands excused story) :
    commandsOf (story.calls commands) <+: commands.filter (!isWait ·) := by
  have hopening : commandsOf story.opening = [] := by
    refine List.filterMap_eq_nil_iff.mpr fun call hcall => ?_
    have hline := h.lineOf_opening hcall
    cases call <;> first | rfl | cases hline
  have htaken : ∀ (step : Bool) (call : Call), commandOf call = none →
      commandsOf (taken step call) = [] := by
    intro step call hcall
    cases step <;> simp [commandsOf, taken, hcall]
  have hsteps : ∀ commands : List Bytes, commandsOf (commands.map stepOf) =
      commands.filter (!isWait ·) := by
    intro commands
    rw [commandsOf, List.filterMap_map, ← List.filterMap_eq_filter]
    refine List.filterMap_congr fun command _ => ?_
    rw [Function.comp_apply, commandOf_stepOf]
    cases hwait : isWait command <;> simp [Option.guard, hwait]
  have happend : ∀ calls more : List Call,
      commandsOf (calls ++ more) = commandsOf calls ++ commandsOf more :=
    fun calls more => List.filterMap_append
  rw [Story.calls, happend, happend, happend, happend, happend, hopening, hsteps,
    htaken _ _ rfl, htaken _ _ rfl, htaken _ _ rfl, htaken _ _ rfl]
  simpa using (List.take_prefix story.done commands).filter (!isWait ·)

def Story.prelude (commands : List Bytes) (story : Story) : List Call :=
  story.opening ++ taken story.sexChange .sexChange ++ (commands.take story.done).map stepOf

theorem Ordered.not_mem_prelude (h : Ordered commands excused story) {call : Call}
    (hopening : ¬ IsOpening call) (hsex : call ≠ .sexChange) (hline : lineOf call = none) :
    call ∉ story.prelude commands := by
  intro hmem
  rcases List.mem_append.mp hmem with hmem | hmem
  · rcases List.mem_append.mp hmem with hmem | hmem
    · exact h.not_mem_opening hopening hmem
    · exact hsex (mem_taken.mp hmem).2
  · exact not_mem_steps hline _ hmem

theorem Ordered.sexChange_first (h : Ordered commands excused story) :
    (story.calls commands).count .sexChange ≤ 1 ∧
      ∀ pre post, story.calls commands = pre ++ .sexChange :: post → steps pre = [] := by
  have hcalls : story.calls commands = story.opening ++ taken story.sexChange .sexChange ++
      ((commands.take story.done).map stepOf ++ taken story.race .showRaceMenu ++
        taken story.special .showSpecialMenu ++ taken story.restored .restorePlayerControl) := by
    simp only [Story.calls, List.append_assoc]
  have hafter : .sexChange ∉ (commands.take story.done).map stepOf ++
      taken story.race .showRaceMenu ++ taken story.special .showSpecialMenu ++
        taken story.restored .restorePlayerControl := by
    have hsteps : .sexChange ∉ (commands.take story.done).map stepOf := not_mem_steps rfl _
    simp only [List.mem_append, mem_taken, not_or]
    exact ⟨⟨⟨hsteps, by simp⟩, by simp⟩, by simp⟩
  obtain ⟨hcount, hsplit⟩ := once_between hcalls
    (h.not_mem_opening fun hopening => hopening) hafter
  refine ⟨hcount, fun pre post heq => ?_⟩
  rw [(hsplit pre post heq).2]
  exact h.steps_opening

theorem Ordered.showRaceMenu_after (h : Ordered commands excused story) :
    (story.calls commands).count .showRaceMenu ≤ 1 ∧
      ∀ pre post, story.calls commands = pre ++ .showRaceMenu :: post → steps pre = commands := by
  have hcalls : story.calls commands = story.prelude commands ++ taken story.race .showRaceMenu ++
      (taken story.special .showSpecialMenu ++ taken story.restored .restorePlayerControl) := by
    simp only [Story.calls, Story.prelude, List.append_assoc]
  have hafter : .showRaceMenu ∉ taken story.special .showSpecialMenu ++
      taken story.restored .restorePlayerControl := by
    simp only [List.mem_append, mem_taken, not_or]
    exact ⟨by simp, by simp⟩
  obtain ⟨hcount, hsplit⟩ := once_between hcalls
    (h.not_mem_prelude (fun hopening => hopening) (by rintro ⟨⟩) rfl) hafter
  refine ⟨hcount, fun pre post heq => ?_⟩
  obtain ⟨hrace, rfl⟩ := hsplit pre post heq
  rw [Story.prelude, steps_append, steps_append, h.steps_opening, steps_taken rfl,
    steps_map_stepOf, List.take_of_length_le (h.race hrace)]
  rfl

theorem Ordered.showSpecialMenu_after (h : Ordered commands excused story) :
    (story.calls commands).count .showSpecialMenu ≤ 1 ∧
      ∀ pre post, story.calls commands = pre ++ .showSpecialMenu :: post →
        .showRaceMenu ∈ pre := by
  have hcalls : story.calls commands =
      (story.prelude commands ++ taken story.race .showRaceMenu) ++
        taken story.special .showSpecialMenu ++ taken story.restored .restorePlayerControl := rfl
  have hbefore : .showSpecialMenu ∉ story.prelude commands ++ taken story.race .showRaceMenu := by
    rw [List.mem_append, mem_taken, not_or]
    exact ⟨h.not_mem_prelude (fun hopening => hopening) (by rintro ⟨⟩) rfl, by simp⟩
  have hafter : .showSpecialMenu ∉ taken story.restored .restorePlayerControl := by
    rw [mem_taken]
    rintro ⟨-, ⟨⟩⟩
  obtain ⟨hcount, hsplit⟩ := once_between hcalls hbefore hafter
  refine ⟨hcount, fun pre post heq => ?_⟩
  obtain ⟨hspecial, rfl⟩ := hsplit pre post heq
  exact List.mem_append_right _ (mem_taken.mpr ⟨h.special hspecial, rfl⟩)

theorem Ordered.restorePlayerControl_after (h : Ordered commands excused story) :
    (story.calls commands).count .restorePlayerControl ≤ 1 ∧
      ∀ pre post, story.calls commands = pre ++ .restorePlayerControl :: post →
        .showRaceMenu ∈ pre ∧ (.showSpecialMenu ∈ pre ∨ excused) := by
  have hcalls : story.calls commands =
      (story.prelude commands ++ taken story.race .showRaceMenu ++
        taken story.special .showSpecialMenu) ++ taken story.restored .restorePlayerControl ++ [] :=
    (List.append_nil _).symm
  have hbefore : .restorePlayerControl ∉ story.prelude commands ++
      taken story.race .showRaceMenu ++ taken story.special .showSpecialMenu := by
    simp only [List.mem_append, mem_taken, not_or]
    exact ⟨⟨h.not_mem_prelude (fun hopening => hopening) (by rintro ⟨⟩) rfl, by simp⟩, by simp⟩
  obtain ⟨hcount, hsplit⟩ := once_between hcalls hbefore List.not_mem_nil
  refine ⟨hcount, fun pre post heq => ?_⟩
  obtain ⟨hrestored, rfl⟩ := hsplit pre post heq
  obtain ⟨hrace, hspecial⟩ := h.restored hrestored
  refine ⟨?_, hspecial.imp_left fun hspecial => ?_⟩
  · exact List.mem_append_left _ (List.mem_append_right _ (mem_taken.mpr ⟨hrace, rfl⟩))
  · exact List.mem_append_right _ (mem_taken.mpr ⟨hspecial, rfl⟩)

end Reading

section Start

variable {F : Type}

/-- The settings stay, and an arming that has started is not armed again. -/
structure Moves (skip skip' : PrologueSkip F) : Prop where
  settings : skip'.settings = skip.settings
  state : skip.state ≠ .kArmed → skip'.state ≠ .kArmed

theorem Moves.refl (skip : PrologueSkip F) : Moves skip skip := ⟨rfl, fun h => h⟩

theorem Moves.trans {skip skip' skip'' : PrologueSkip F} (h : Moves skip skip')
    (h' : Moves skip' skip'') : Moves skip skip'' :=
  ⟨h'.settings.trans h.settings, fun hstate => h'.state (h.state hstate)⟩

variable [CppFloat F] [Seconds F] [FromChars F]

theorem moves_runCommands {answers : Answers} {fuel : Nat} {skip : PrologueSkip F}
    {result : Result F} (hresult : runCommands answers fuel skip = some result) :
    Moves skip result.1 := by
  induction fuel generalizing skip result with
  | zero => cases hresult
  | succ fuel ih =>
      rw [runCommands] at hresult
      split at hresult
      · obtain rfl := Option.some.inj hresult
        exact .refl skip
      cases hcommand : skip.settings.commands[skip.next]? with
      | none =>
          rw [runNextCommand, hcommand] at hresult
          obtain rfl := Option.some.inj hresult
          dsimp only
          split <;> exact ⟨rfl, by rintro _ ⟨⟩⟩
      | some command =>
          rcases runNextCommand_cases answers hcommand with ⟨-, waitUntil, hnext⟩ | ⟨-, hnext⟩
          · rw [hnext] at hresult
            obtain rfl := Option.some.inj hresult
            exact ⟨rfl, fun h => h⟩
          · rw [hnext] at hresult
            obtain ⟨rest, hrest, rfl⟩ := Option.map_eq_some_iff.mp hresult
            have hmore : Moves skip { skip with next := skip.next + 1 } := ⟨rfl, fun h => h⟩
            exact hmore.trans (show Moves _ rest.1 from ih hrest)

omit [CppFloat F] [Seconds F] [FromChars F] in
theorem moves_start (skip : PrologueSkip F) (answers : Answers) :
    (start skip answers).1.settings = skip.settings ∧ (start skip answers).1.state ≠ .kArmed := by
  rw [start]
  split
  · exact ⟨rfl, by rintro ⟨⟩⟩
  · dsimp only
    split
    · rw [askSex]
      split <;> exact ⟨rfl, by rintro ⟨⟩⟩
    · exact ⟨rfl, by rintro ⟨⟩⟩

omit [FromChars F] in
/-- MQ101 is seen at stage 10, or the wait for it is over. -/
def seesStart (F : Type) [CppFloat F] [Seconds F] (armedAt : Instant) (answers : Answers) : Bool :=
  answers.hasPlayer && (mq101Started ≤ answers.mq101 ||
    Seconds.seconds (questStartFallback : F) ≤ answers.now - armedAt)

/-- The skip once the start was seen. -/
def noted (skip : PrologueSkip F) (now : Instant) : PrologueSkip F :=
  if skip.questStartedAt = 0 then { skip with questStartedAt := now } else skip

omit [FromChars F] in
/-- An armed skip waits until the start is seen, and then for the delay. -/
theorem updateArmed_cases (skip : PrologueSkip F) (answers : Answers) :
    (seesStart F skip.armedAt answers = false ∧ updateArmed skip answers = (skip, [])) ∨
    (seesStart F skip.armedAt answers = true ∧
      (updateArmed skip answers = (noted skip answers.now, []) ∨
        ((noted skip answers.now).questStartedAt + Seconds.seconds skip.settings.startDelay ≤
            answers.now ∧
          updateArmed skip answers = start (noted skip answers.now) answers))) := by
  have hsettings : (noted skip answers.now).settings = skip.settings := by
    rw [noted]
    split <;> rfl
  rw [updateArmed, seesStart]
  cases hplayer : answers.hasPlayer with
  | false => exact .inl ⟨rfl, rfl⟩
  | true =>
      simp only [Bool.not_true, Bool.false_eq_true, if_false, Bool.true_and]
      split
      · rename_i hearly
        simp only [Bool.and_eq_true, decide_eq_true_eq] at hearly
        refine .inl ⟨?_, rfl⟩
        simp only [Bool.or_eq_false_iff, decide_eq_false_iff_not, UInt16.not_le, Int.not_le]
        exact hearly
      · rename_i hlate
        simp only [Bool.and_eq_true, decide_eq_true_eq, not_and_or, UInt16.not_lt, Int.not_lt]
          at hlate
        refine .inr ⟨by simpa using hlate, ?_⟩
        rw [← noted, hsettings]
        split
        · exact .inl rfl
        · rename_i hdelay
          exact .inr ⟨Int.add_le_of_le_sub_left (Int.not_lt.mp hdelay), rfl⟩

theorem moves_update (skip : PrologueSkip F) (answers : Answers) :
    Moves skip (update skip answers).1 := by
  rw [update]
  split
  · exact .refl skip
  · exact .refl skip
  · rename_i hstate
    refine ⟨?_, fun h => absurd hstate h⟩
    have hnoted : (noted skip answers.now).settings = skip.settings := by
      rw [noted]
      split <;> rfl
    rcases updateArmed_cases skip answers with ⟨-, hresult⟩ | ⟨-, hresult | ⟨-, hresult⟩⟩
    · rw [hresult]
    · rw [hresult]
      exact hnoted
    · rw [hresult, (moves_start _ answers).1]
      exact hnoted
  · rw [updateSexChoice]
    have hbegin : Moves skip (beginCommands skip answers) := ⟨rfl, by rintro _ ⟨⟩⟩
    split
    · exact .refl skip
    split
    · exact .refl skip
    split
    · split
      · exact hbegin
      · exact .refl skip
    rcases applySexChoice_cases skip answers skip.sexChoice with hresult | ⟨-, hresult⟩
    · rw [hresult]
      exact hbegin
    · rw [hresult]
      exact ⟨rfl, fun h => h⟩
  · rw [updateRunning]
    split
    · exact .refl skip
    · obtain ⟨result, hresult⟩ := runCommands_ends skip answers
      rw [hresult]
      exact moves_runCommands hresult
  · rw [updateWaitForPod, openFaceMenu]
    repeat' split
    all_goals exact ⟨rfl, fun h => by first | exact h | rintro ⟨⟩⟩
  · rw [updateFaceMenu]
    repeat' split
    all_goals exact ⟨rfl, fun h => by first | exact h | rintro ⟨⟩⟩
  · rw [updateSpecialMenu]
    repeat' split
    all_goals exact ⟨rfl, fun h => by first | exact h | rintro ⟨⟩⟩

/-- The clock never goes back. -/
def Chronological : Instant → List Event → Prop
  | _, [] => True
  | last, .newGame now :: events => last ≤ now ∧ Chronological now events
  | last, .update answers :: events =>
      last ≤ answers.now ∧ answers.now ≤ answers.later ∧ answers.later ≤ answers.latest ∧
        Chronological answers.latest events
  | last, .leaveWorld :: events => Chronological last events
  | last, .answered _ :: events => Chronological last events

/-- The first frame that sees the start of an arming. -/
def firstSeen (F : Type) [CppFloat F] [Seconds F] (armedAt : Instant) (events : List Event) :
    Option Answers :=
  events.findSome? fun event =>
    match event with
    | .update answers => if seesStart F armedAt answers then some answers else none
    | _ => none

/-- The start was seen, and the delay has passed since. -/
def Due (settings : Settings F) (armedAt now : Instant) (events : List Event) : Prop :=
  ∃ seen, firstSeen F armedAt events = some seen ∧
    seen.now + Seconds.seconds settings.startDelay ≤ now

/-- What an arming knows of its start at the time `last`, after the events of the past. -/
def Waits (settings : Settings F) (armedAt last : Instant) (past : List Event)
    (skip : PrologueSkip F) : Prop :=
  match skip.state with
  | .kIdle | .kDone => True
  | .kArmed => skip.armedAt = armedAt ∧
      (firstSeen F armedAt past = none → skip.questStartedAt = 0) ∧
      ∀ seen, firstSeen F armedAt past = some seen →
        seen.now ≤ last ∧ (skip.questStartedAt = 0 ∨ seen.now ≤ skip.questStartedAt)
  | _ => Due settings armedAt last past

variable {settings : Settings F} {armedAt last : Instant} {past : List Event}
  {skip : PrologueSkip F}

omit [FromChars F] in
theorem firstSeen_concat (armedAt : Instant) (past : List Event) (event : Event) :
    firstSeen F armedAt (past ++ [event]) =
      (firstSeen F armedAt past).or (firstSeen F armedAt [event]) := by
  rw [firstSeen, List.findSome?_append]
  rfl

omit [FromChars F] in
theorem Due.mono {now : Instant} (h : Due settings armedAt last past) (hnow : last ≤ now)
    (event : Event) : Due settings armedAt now (past ++ [event]) := by
  obtain ⟨seen, hseen, hdelay⟩ := h
  refine ⟨seen, ?_, Int.le_trans hdelay hnow⟩
  rw [firstSeen_concat, hseen]
  rfl

omit [FromChars F] in
theorem waits_of_due (h : Due settings armedAt last past) (hstate : skip.state ≠ .kArmed) :
    Waits settings armedAt last past skip := by
  rw [Waits]
  split
  · trivial
  · trivial
  · rename_i harmed
    exact absurd harmed hstate
  · exact h

omit [FromChars F] in
theorem seen_of_waits (h : Waits settings armedAt last past skip) (hstate : skip.state = .kArmed)
    {answers : Answers} (hnow : last ≤ answers.now) (hsees : seesStart F armedAt answers = true) :
    ∃ seen, firstSeen F armedAt (past ++ [.update answers]) = some seen ∧
      seen.now ≤ answers.now ∧ seen.now ≤ (noted skip answers.now).questStartedAt := by
  rw [Waits, hstate] at h
  obtain ⟨-, hfresh, hseen⟩ := h
  rw [firstSeen_concat, noted]
  cases hfirst : firstSeen F armedAt past with
  | none =>
      refine ⟨answers, ?_, Int.le_refl _, ?_⟩
      · simp [firstSeen, hsees]
      · rw [if_pos (hfresh hfirst)]
  | some seen =>
      obtain ⟨hlast, hstarted⟩ := hseen seen hfirst
      refine ⟨seen, rfl, Int.le_trans hlast hnow, ?_⟩
      split
      · exact Int.le_trans hlast hnow
      · rename_i hquest
        exact hstarted.resolve_left hquest

theorem waits_update (h : Waits settings armedAt last past skip) (hsettings : skip.settings = settings)
    {answers : Answers} (hnow : last ≤ answers.now) (hlater : answers.now ≤ answers.later)
    (hlatest : answers.later ≤ answers.latest) :
    ((update skip answers).2 ≠ [] → Due settings armedAt answers.now (past ++ [.update answers])) ∧
      Waits settings armedAt answers.latest (past ++ [.update answers]) (update skip answers).1 := by
  have hend : answers.now ≤ answers.latest := Int.le_trans hlater hlatest
  have hmoves := moves_update skip answers
  -- once the start is behind, the delay is over
  have hstarted : skip.state ≠ .kArmed → Due settings armedAt last past →
      ((update skip answers).2 ≠ [] →
        Due settings armedAt answers.now (past ++ [.update answers])) ∧
        Waits settings armedAt answers.latest (past ++ [.update answers])
          (update skip answers).1 := by
    intro hstate hdue
    refine ⟨fun _ => hdue.mono hnow _, waits_of_due ?_ (hmoves.state hstate)⟩
    exact hdue.mono (Int.le_trans hnow hend) _
  cases hstate : skip.state with
  | kIdle | kDone =>
      rw [update, hstate]
      refine ⟨fun hcalls => absurd rfl hcalls, ?_⟩
      rw [Waits, hstate]
      trivial
  | kArmed =>
      have hwaits := h
      rw [Waits, hstate] at h
      obtain ⟨harmed, hfresh, hseen⟩ := h
      rw [update, hstate]
      dsimp only
      rcases updateArmed_cases skip answers with ⟨hsees, hresult⟩ | ⟨hsees, hresult⟩
      · rw [hresult]
        refine ⟨fun hcalls => absurd rfl hcalls, ?_⟩
        rw [harmed] at hsees
        have hsame : firstSeen F armedAt (past ++ [.update answers]) = firstSeen F armedAt past := by
          rw [firstSeen_concat]
          simp [firstSeen, hsees]
        rw [Waits, hstate, hsame]
        refine ⟨harmed, hfresh, fun seen hfirst => ?_⟩
        obtain ⟨hlast, hquest⟩ := hseen seen hfirst
        exact ⟨Int.le_trans hlast (Int.le_trans hnow hend), hquest⟩
      rw [harmed] at hsees
      obtain ⟨seen, hfirst, hbefore, hquest⟩ := seen_of_waits hwaits hstate hnow hsees
      rcases hresult with hresult | ⟨hdelay, hresult⟩
      · rw [hresult]
        refine ⟨fun hcalls => absurd rfl hcalls, ?_⟩
        have hnoted : (noted skip answers.now).state = .kArmed ∧
            (noted skip answers.now).armedAt = armedAt := by
          rw [noted]
          split <;> exact ⟨hstate, harmed⟩
        rw [Waits, hnoted.1]
        refine ⟨hnoted.2, fun hnone => ?_, fun other hother => ?_⟩
        · rw [hfirst] at hnone
          cases hnone
        · obtain rfl := Option.some.inj (hfirst.symm.trans hother)
          exact ⟨Int.le_trans hbefore hend, .inr hquest⟩
      · rw [hresult]
        rw [hsettings] at hdelay
        have hdue : Due settings armedAt answers.now (past ++ [.update answers]) :=
          ⟨seen, hfirst, Int.le_trans (Int.add_le_add_right hquest _) hdelay⟩
        refine ⟨fun _ => hdue, waits_of_due ?_ (moves_start _ answers).2⟩
        obtain ⟨seen, hfirst, hdelay⟩ := hdue
        exact ⟨seen, hfirst, Int.le_trans hdelay hend⟩
  | kSexChoice | kRunning | kWaitForPod | kFaceMenu | kSpecialMenu =>
      refine hstarted (by rw [hstate]; rintro ⟨⟩) ?_
      rw [Waits, hstate] at h
      exact h

theorem due_of_callsOf (h : Waits settings armedAt last past skip) (hsettings : skip.settings = settings)
    {events : List Event} (hwithin : ∀ event ∈ events, within event = true)
    (htimes : Chronological last events) {pre post : List Event} {answers : Answers}
    (hsplit : events = pre ++ .update answers :: post)
    (hcalls : (update (stateAfter skip pre) answers).2 ≠ []) :
    Due settings armedAt answers.now (past ++ pre ++ [.update answers]) := by
  induction pre generalizing events last past skip with
  | nil =>
      subst hsplit
      obtain ⟨hnow, hlater, hlatest, -⟩ := htimes
      rw [List.append_nil]
      exact (waits_update h hsettings hnow hlater hlatest).1 hcalls
  | cons event pre ih =>
      subst hsplit
      have hrest : ∀ other ∈ pre ++ .update answers :: post, within other = true :=
        fun other hother => hwithin other (List.mem_cons_of_mem _ hother)
      rw [show past ++ event :: pre ++ [.update answers] =
        past ++ [event] ++ pre ++ [.update answers] by simp]
      cases event with
      | newGame | leaveWorld => cases hwithin _ List.mem_cons_self
      | update first =>
          obtain ⟨hnow, hlater, hlatest, htimes⟩ := htimes
          exact ih (waits_update h hsettings hnow hlater hlatest).2
            ((moves_update skip first).settings.trans hsettings) hrest htimes rfl hcalls
      | answered button =>
          have hanswered : Waits settings armedAt last (past ++ [.answered button])
              { skip with sexChoice := button.toNat } := by
            have hsame : firstSeen F armedAt (past ++ [.answered button]) =
                firstSeen F armedAt past := by
              rw [firstSeen_concat]
              exact Option.or_none
            rw [Waits, Due, hsame]
            exact h
          exact ih hanswered hsettings hrest htimes rfl hcalls

omit [FromChars F] in
theorem waits_onNewGame (skip : PrologueSkip F) (now : Instant) :
    Waits settings now now [] (onNewGame skip now) := by
  rw [onNewGame]
  split
  · trivial
  · exact ⟨rfl, fun _ => rfl, by rintro _ ⟨⟩⟩

theorem settings_stateAfter (skip : PrologueSkip F) (events : List Event) :
    (stateAfter skip events).settings = skip.settings := by
  refine run_invariant (P := fun skip' : PrologueSkip F => skip'.settings = skip.settings) rfl
    (fun skip' event h => ?_) events
  cases event with
  | newGame now =>
      rw [step, onNewGame]
      split <;> exact h
  | leaveWorld | answered => exact h
  | update answers => exact (moves_update skip' answers).settings.trans h

theorem callsOf_quiet (hstate : skip.state = .kIdle ∨ skip.state = .kDone) {events : List Event}
    (hwithin : ∀ event ∈ events, within event = true) : callsOf skip events = [] := by
  induction events generalizing skip with
  | nil => rfl
  | cons event events ih =>
      have hrest : ∀ other ∈ events, within other = true :=
        fun other hother => hwithin other (List.mem_cons_of_mem _ hother)
      cases event with
      | newGame | leaveWorld => cases hwithin _ List.mem_cons_self
      | answered button =>
          refine ih ?_ hrest
          exact hstate
      | update answers =>
          have hupdate : update skip answers = (skip, []) := by
            rw [update]
            rcases hstate with hstate | hstate <;> rw [hstate]
          rw [callsOf, step, hupdate]
          exact ih hstate hrest

end Start

section Arming

variable {F : Type} [CppFloat F] [Seconds F] [FromChars F]

/-- In every run, from a new game to the next one or to the leaving of the world: the
console commands are a prefix of the configured ones, in order; the sex is changed once
at most, before the first of them; the character creator is opened once at most, after
the last; the form for the name is asked for once at most, after that; control is given
back once at most, after the creator and the form, which is left out only if the frame
that is done with the face finds it open already, or no script VM to ask for it; nothing
at all is done before the delay has passed since the start was seen, nor by a skip that is
disabled, idle or done; and the loop over the commands always ends. -/
theorem prologue_ordered (settings : Settings F) (before rest : List Event) (now : Instant) :
    let skip := onNewGame (stateAfter { settings } before) now
    let arming := rest.takeWhile within
    let calls := callsOf skip arming
    commandsOf calls <+: settings.commands.filter (!isWait ·) ∧
    (calls.count .sexChange ≤ 1 ∧
      ∀ pre post, calls = pre ++ .sexChange :: post → steps pre = []) ∧
    (calls.count .showRaceMenu ≤ 1 ∧
      ∀ pre post, calls = pre ++ .showRaceMenu :: post → steps pre = settings.commands) ∧
    (calls.count .showSpecialMenu ≤ 1 ∧
      ∀ pre post, calls = pre ++ .showSpecialMenu :: post → .showRaceMenu ∈ pre) ∧
    (calls.count .restorePlayerControl ≤ 1 ∧
      ∀ pre post, calls = pre ++ .restorePlayerControl :: post →
        .showRaceMenu ∈ pre ∧ (.showSpecialMenu ∈ pre ∨ Excused skip arming)) ∧
    (Chronological now arming → ∀ pre answers post, arming = pre ++ .update answers :: post →
      (update (stateAfter skip pre) answers).2 ≠ [] →
        Due settings now answers.now (pre ++ [.update answers])) ∧
    (settings.enabled = false → calls = []) ∧
    (∀ skip : PrologueSkip F, skip.state = .kIdle ∨ skip.state = .kDone →
      callsOf skip arming = []) ∧
    ∀ (skip : PrologueSkip F) (answers : Answers), ∃ result,
      runCommands answers (skip.settings.commands.length + 1) skip = some result := by
  intro skip arming calls
  have hwithin : ∀ event ∈ arming, within event = true :=
    fun event hevent => List.all_eq_true.mp List.all_takeWhile event hevent
  have hsettings : (stateAfter ({ settings } : PrologueSkip F) before).settings = settings :=
    settings_stateAfter _ _
  have hskip : skip.settings = settings := by
    change (onNewGame _ now).settings = settings
    rw [onNewGame]
    split <;> exact hsettings
  obtain ⟨-, story, hcalls, hordered, -⟩ :=
    tells_callsOf (tells_onNewGame hsettings now) arming hwithin
  have hordered' : Ordered settings.commands (Excused skip arming) story :=
    hordered.excuse fun hexcuse => hexcuse.resolve_left fun h => h
  have hstory : calls = story.calls settings.commands := hcalls
  rw [hstory]
  refine ⟨hordered'.commandsOf_prefix, hordered'.sexChange_first, hordered'.showRaceMenu_after,
    hordered'.showSpecialMenu_after, hordered'.restorePlayerControl_after, ?_, ?_, ?_, ?_⟩
  · intro htimes pre answers post hsplit hasked
    exact due_of_callsOf (waits_onNewGame _ now) hskip hwithin htimes hsplit hasked
  · intro hdisabled
    rw [← hstory]
    refine callsOf_quiet (.inr ?_) hwithin
    change (onNewGame _ now).state = .kDone
    rw [onNewGame, hsettings, hdisabled]
    rfl
  · exact fun quiet hstate => callsOf_quiet hstate hwithin
  · exact runCommands_ends

end Arming

section Example

instance : Seconds ℚ := ⟨fun s => (s * 1000000000).num.tdiv (s * 1000000000).den⟩

/-- Of whole numbers. -/
instance : FromChars ℚ where
  fromChars text :=
    let digits := text.takeWhile fun c => 0x30 ≤ c && c ≤ 0x39
    if digits.isEmpty then none
    else some (digits.foldl (fun value c => value * 10 + (c.toNat - 0x30)) 0)

def faceOnly : Settings ℚ := { Settings.initial ℚ with startDelay := 0, chargenMode := 1 }

/-- One frame every ten seconds; the script VM is gone when the face is done. -/
def withoutVM : List Event :=
  [.update { now := 10000000000, later := 10000000000, latest := 10000000000, mq101 := 10 },
    .update { now := 20000000000, later := 20000000000, latest := 20000000000 },
    .update { now := 30000000000, later := 30000000000, latest := 30000000000, mq102 := 1 },
    .update { now := 40000000000, later := 40000000000, latest := 40000000000, hasVM := false },
    .update { now := 50000000000, later := 50000000000, latest := 50000000000 }]

/-- Control is given back though the form for the name was never asked for. -/
theorem restored_without_form :
    ¬ ∀ pre post, callsOf (onNewGame { settings := faceOnly } 1000000000) withoutVM =
      pre ++ .restorePlayerControl :: post → .showSpecialMenu ∈ pre := by
  intro h
  have hcalls : callsOf (onNewGame { settings := faceOnly } 1000000000) withoutVM =
      [.print (ascii "[F4MP] Skipping the prologue..."), .showRaceMenu] ++
        .restorePlayerControl :: [] := by
    decide +kernel
  exact absurd (h _ _ hcalls) (by decide +kernel)

end Example

end F4MP.Prologue
