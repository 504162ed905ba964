import F4MP.Arith

/-!
The prologue skip of a new game, frame by frame.  What the engine and the clock answer
comes in from outside; a frame returns the new state with what it asks of the engine, in
order.  Logging is left out.
-/

namespace F4MP.PrologueSkipModel

open F4MP.Types
open F4MP.Arith

/-- A `steady_clock` time point or duration, in nanoseconds. -/
abbrev Instant := Int

/-- `duration_cast` of seconds in a `float` to the ticks of the clock. -/
class Seconds (F : Type) where
  seconds : F → Instant

/-- `std::from_chars` of a `float`: the number at the front of a text, if there is one
and it is in range. -/
class FromChars (F : Type) where
  fromChars : Bytes → Option F

/-- `std::tolower` in the "C" locale. -/
def toLower (c : UInt8) : UInt8 := if 0x41 ≤ c && c ≤ 0x5A then c + 0x20 else c

def startsWithIgnoreCase (s start : Bytes) : Bool :=
  start.length ≤ s.length && (s.take start.length).map toLower == start.map toLower

/-- A command that is no console command but a pause. -/
def isWait (command : Bytes) : Bool := startsWithIgnoreCase command (ascii "wait ")

def mq101Started : UInt16 := 10
def mq101PodOpens : UInt16 := 900

structure Settings (F : Type) where
  enabled : Bool
  startDelay : F
  podTimeout : F
  commands : List Bytes
  chargen : Bool
  chargenMode : Int32

/-- `Settings{}`. -/
def Settings.initial (F : Type) [CppFloat F] : Settings F where
  enabled := true
  startDelay := CppFloat.ofRat 2
  podTimeout := CppFloat.ofRat 120
  commands := []
  chargen := true
  chargenMode := 0

inductive State where
  | kIdle
  | kArmed
  | kSexChoice
  | kRunning
  | kWaitForPod
  | kFaceMenu
  | kSpecialMenu
  | kDone
deriving DecidableEq

/-- The answer to the message box is `sexChoice`, `-1` while there is none. -/
structure PrologueSkip (F : Type) where
  settings : Settings F
  state : State := .kIdle
  next : Nat := 0
  armedAt : Instant := 0
  questStartedAt : Instant := 0
  stateSince : Instant := 0
  waitUntil : Instant := 0
  faceMenuSeen : Bool := false
  specialMenuSeen : Bool := false
  sexChanged : Bool := false
  sexChoice : Int := -1

inductive Sex where
  | kNone
  | kMale
  | kFemale
deriving DecidableEq

/-- What the engine and the clock answer during one frame.  The clock is read three times
at most. -/
structure Answers where
  now : Instant
  later : Instant
  latest : Instant
  hasPlayer : Bool := true
  hasQueue : Bool := true
  hasManager : Bool := true
  hasVM : Bool := true
  mq101 : UInt16 := 0
  mq102 : UInt16 := 0
  looksMenuOpen : Bool := false
  specialMenuOpen : Bool := false
  is3DLoaded : Bool := true
  sex : Sex := .kMale

/-- What the skip asks of the engine.  A pause asks for nothing; it is there to show
where it stands among the commands. -/
inductive Call where
  | print (text : Bytes)
  | hideLooksMenu
  | askSex
  | sexChange
  | command (line : Bytes)
  | pause (line : Bytes)
  | showRaceMenu
  | showSpecialMenu
  | restorePlayerControl
deriving DecidableEq

variable {F : Type}

abbrev Result (F : Type) := PrologueSkip F × List Call

def onNewGame (skip : PrologueSkip F) (now : Instant) : PrologueSkip F :=
  if !skip.settings.enabled then { skip with state := .kDone }
  else
    { skip with
      state := .kArmed
      armedAt := now
      questStartedAt := 0
      next := 0
      faceMenuSeen := false
      specialMenuSeen := false
      sexChanged := false
      sexChoice := -1 }

def onLeaveWorld (skip : PrologueSkip F) : PrologueSkip F := { skip with state := .kIdle }

def finish (skip : PrologueSkip F) : PrologueSkip F := { skip with state := .kDone }

def beginCommands (skip : PrologueSkip F) (answers : Answers) : PrologueSkip F :=
  { skip with
    next := 0
    waitUntil := answers.later
    stateSince := answers.latest
    state := .kRunning }

def askSex (skip : PrologueSkip F) (answers : Answers) : Result F :=
  if !answers.hasManager then (beginCommands skip answers, [])
  else
    ({ skip with
        sexChoice := -1
        waitUntil := answers.later
        stateSince := answers.latest
        state := .kSexChoice },
      [.askSex])

def start (skip : PrologueSkip F) (answers : Answers) : Result F :=
  if answers.mq101 ≥ mq101PodOpens || answers.mq102 ≥ 1 then (finish skip, [])
  else
    let closed := if answers.looksMenuOpen && answers.hasQueue then [Call.hideLooksMenu] else []
    let (skip, asked) :=
      if skip.settings.chargen && skip.settings.chargenMode = 0 then askSex skip answers
      else (beginCommands skip answers, [])
    (skip, .print (ascii "[F4MP] Skipping the prologue...") :: closed ++ asked)

section Steps

variable [CppFloat F] [Seconds F] [FromChars F]

def menuGrace : F := CppFloat.ofRat 3

/-- Seconds after which the skip runs even if the quest never started. -/
def questStartFallback : F := CppFloat.ofRat 45

def sexChangeSettle : F := CppFloat.ofRat 3

def applySexChoice (skip : PrologueSkip F) (answers : Answers) (choice : Int) : Result F :=
  let wanted := if choice = 1 then Sex.kFemale else .kMale
  let current := if answers.hasPlayer then answers.sex else .kNone
  if current ≠ wanted && !skip.sexChanged then
    ({ skip with
        sexChanged := true
        waitUntil := answers.later + Seconds.seconds (sexChangeSettle : F) },
      [.sexChange])
  else (beginCommands skip answers, [])

/-- The result of `RunNextCommand` comes first. -/
def runNextCommand (skip : PrologueSkip F) (answers : Answers) : Bool × Result F :=
  match skip.settings.commands[skip.next]? with
  | none =>
      let skip := { skip with stateSince := answers.later }
      (false,
        if skip.settings.chargen then { skip with state := .kWaitForPod } else finish skip, [])
  | some cmd =>
      let skip := { skip with next := skip.next + 1 }
      if isWait cmd then
        let seconds : F := (FromChars.fromChars (cmd.drop 5)).getD (CppFloat.ofRat 1)
        (false, { skip with waitUntil := answers.later + Seconds.seconds seconds }, [.pause cmd])
      else (true, skip, [.command cmd])

/-- The loop over consecutive commands, `none` if it does not end within `fuel` rounds. -/
def runCommands (answers : Answers) : Nat → PrologueSkip F → Option (Result F)
  | 0, _ => none
  | fuel + 1, skip =>
      if skip.state ≠ .kRunning then some (skip, [])
      else
        match runNextCommand skip answers with
        | (false, result) => some result
        | (true, skip, calls) =>
            (runCommands answers fuel skip).map fun result => (result.1, calls ++ result.2)

def openFaceMenu (skip : PrologueSkip F) (answers : Answers) : Result F :=
  if !answers.hasPlayer || !answers.hasVM then (finish skip, [])
  else
    ({ skip with faceMenuSeen := false, stateSince := answers.later, state := .kFaceMenu },
      [.showRaceMenu])

def openSpecialMenu (answers : Answers) : List Call :=
  if answers.specialMenuOpen then []
  else if !answers.hasVM then []
  else [.showSpecialMenu]

def updateArmed (skip : PrologueSkip F) (answers : Answers) : Result F :=
  if !answers.hasPlayer then (skip, [])
  else if answers.mq101 < mq101Started &&
      answers.now - skip.armedAt < Seconds.seconds (questStartFallback : F) then (skip, [])
  else
    let skip :=
      if skip.questStartedAt = 0 then { skip with questStartedAt := answers.now } else skip
    if answers.now - skip.questStartedAt < Seconds.seconds skip.settings.startDelay then (skip, [])
    else start skip answers

def updateSexChoice (skip : PrologueSkip F) (answers : Answers) : Result F :=
  if answers.now < skip.waitUntil then (skip, [])
  else if skip.sexChanged && answers.hasPlayer && !answers.is3DLoaded then (skip, [])
  else if skip.sexChoice < 0 then
    if Seconds.seconds skip.settings.podTimeout < answers.now - skip.stateSince then
      (beginCommands skip answers, [])
    else (skip, [])
  else applySexChoice skip answers skip.sexChoice

def updateRunning (skip : PrologueSkip F) (answers : Answers) : Result F :=
  if answers.now < skip.waitUntil then (skip, [])
  else (runCommands answers (skip.settings.commands.length + 1) skip).getD (skip, [])

def updateWaitForPod (skip : PrologueSkip F) (answers : Answers) : Result F :=
  if answers.mq102 ≥ 1 || answers.mq101 ≥ 1000 then
    if skip.settings.chargen then openFaceMenu skip answers else (finish skip, [])
  else if Seconds.seconds skip.settings.podTimeout < answers.now - skip.stateSince then
    (finish skip, [])
  else (skip, [])

def updateFaceMenu (skip : PrologueSkip F) (answers : Answers) : Result F :=
  if answers.looksMenuOpen then ({ skip with faceMenuSeen := true }, [])
  else if !skip.faceMenuSeen && answers.now - skip.stateSince < Seconds.seconds (menuGrace : F) then
    (skip, [])
  else
    ({ skip with specialMenuSeen := false, stateSince := answers.now, state := .kSpecialMenu },
      openSpecialMenu answers)

def updateSpecialMenu (skip : PrologueSkip F) (answers : Answers) : Result F :=
  if answers.specialMenuOpen then ({ skip with specialMenuSeen := true }, [])
  else if !skip.specialMenuSeen &&
      answers.now - skip.stateSince < Seconds.seconds (menuGrace : F) then (skip, [])
  else (finish skip, [.restorePlayerControl])

def update (skip : PrologueSkip F) (answers : Answers) : Result F :=
  match skip.state with
  | .kIdle | .kDone => (skip, [])
  | .kArmed => updateArmed skip answers
  | .kSexChoice => updateSexChoice skip answers
  | .kRunning => updateRunning skip answers
  | .kWaitForPod => updateWaitForPod skip answers
  | .kFaceMenu => updateFaceMenu skip answers
  | .kSpecialMenu => updateSpecialMenu skip answers

/-- What can happen to the skip.  The message box may be answered at any time. -/
inductive Event where
  | newGame (now : Instant)
  | leaveWorld
  | update (answers : Answers)
  | answered (button : UInt8)

def step (skip : PrologueSkip F) : Event → Result F
  | .newGame now => (onNewGame skip now, [])
  | .leaveWorld => (onLeaveWorld skip, [])
  | .update answers => update skip answers
  | .answered button => ({ skip with sexChoice := button.toNat }, [])

end Steps

end F4MP.PrologueSkipModel
