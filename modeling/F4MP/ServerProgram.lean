import F4MP.Native
import F4MP.ServerRun

/-!
The program of the server: the thread that reads the console, the main loop, and the end.
The two threads share a queue of lines and a flag.
-/

namespace F4MP.ServerProgram

open F4MP.Types
open F4MP.Arith
open F4MP.ServerModel
open F4MP.ServerConsole
open F4MP.ServerRun
open F4MP.Library.HashTable
open F4MP.Library.Runs

/-- `std::getline` and what `ReadLoop` makes of a line. -/
def readLine (line : Bytes) : Bytes :=
  if line.getLast? = some 0x0D then line.dropLast else line

/-- `TryPop`: the first line, if there is one, and those left. -/
def tryPop (lines : List Bytes) : Option Bytes × List Bytes :=
  match lines with
  | [] => (none, [])
  | line :: lines => (some line, lines)

def isStop (line : Bytes) : Bool :=
  line = ascii "stop" || line = ascii "quit" || line = ascii "exit"

/-- Where the main thread is: before the test of the loop, in `Service`, in the loop over
the lines, or behind `Stop`. -/
inductive Point where
  | test
  | service
  | drain
  | stopped
deriving DecidableEq

structure Process where
  point : Point := .test
  /-- `g_running`. -/
  running : Bool := true
  /-- The ENet host is there. -/
  host : Bool := true
  server : Server
  lines : List Bytes := []

/-- What ENet raises. -/
inductive Raised where
  | connect (peer : Peer)
  | receive (peer : Peer) (bytes : Bytes)
  | disconnect (peer : Peer)

def Raised.event : Raised → Event
  | .connect peer => .connect peer
  | .receive peer bytes => .receive peer bytes
  | .disconnect peer => .disconnect peer

/-- What one of the threads does next, or a signal.  `now` and `order` are the clock and
the order of the player map at that time. -/
inductive Action where
  | typed (line : Bytes)
  | signal
  | test
  | raised (now : Time) (order : Shuffle (Sigma fun _ : Peer => Player)) (raised : Raised)
  | serviced (now : Time) (order : Shuffle (Sigma fun _ : Peer => Player))
  | pop (now : Time) (order : Shuffle (Sigma fun _ : Peer => Player))

/-- `Stop`: every peer is disconnected, and the host is gone. -/
def stop (process : Process) : Process × List Peer :=
  if !process.host then (process, [])
  else
    ({ process with host := false, server := { process.server with players := ∅ } },
      process.server.players.keys)

/-- What was done so far. -/
structure Log where
  /-- The lines that were read. -/
  typed : List Bytes := []
  /-- The lines the main thread took. -/
  popped : List Bytes := []
  /-- What the server handled. -/
  inputs : List Input := []
  /-- Who was disconnected at the end. -/
  dropped : List Peer := []

section Program

variable [CppFloat F32] [Libm F32] [Platform]

def Process.serve (process : Process) (input : Input) : Process :=
  { process with server := (ServerRun.step process.server input).1 }

/-- One step of the program, if it can be taken. -/
def act (state : Process × Log) (action : Action) : Option (Process × Log) :=
  let (process, log) := state
  match action with
  | .typed line =>
      some ({ process with lines := process.lines ++ [readLine line] },
        { log with typed := log.typed ++ [readLine line] })
  | .signal => some ({ process with running := false }, log)
  | .test =>
      if process.point = .test then
        if process.running then some ({ process with point := .service }, log)
        else
          let (process, dropped) := stop process
          some ({ process with point := .stopped }, { log with dropped := log.dropped ++ dropped })
      else none
  | .raised now order raised =>
      if process.point = .service then
        let input : Input := ⟨now, order, raised.event⟩
        some (process.serve input, { log with inputs := log.inputs ++ [input] })
      else none
  | .serviced now order =>
      if process.point = .service then
        let input : Input := ⟨now, order, .updateBots⟩
        some ({ process.serve input with point := .drain },
          { log with inputs := log.inputs ++ [input] })
      else none
  | .pop now order =>
      if process.point = .drain then
        match tryPop process.lines with
        | (none, _) => some ({ process with point := .test }, log)
        | (some line, lines) =>
            let log := { log with popped := log.popped ++ [line] }
            if isStop line then
              some ({ process with point := .test, running := false, lines }, log)
            else
              let input : Input := ⟨now, order, .command line⟩
              some ({ process.serve input with lines },
                { log with inputs := log.inputs ++ [input] })
      else none

/-- The program after some steps, if they can be taken. -/
def acts (state : Process × Log) (actions : List Action) : Option (Process × Log) :=
  actions.foldlM act state

/-- `Start` succeeded: `initialized` is what `enet_initialize` says and `bound` whether
`enet_host_create` gave a host.  Otherwise the program ends. -/
def boot (config : Config) (startTime : Time) (initialized bound : Bool) :
    Option (Process × Log) :=
  if !initialized || !bound then none else some ({ server := { config, startTime } }, {})

/-- What one step does to the program. -/
inductive Effect (process : Process) (log : Log) : Action → Process → Log → Prop where
  | typed (line : Bytes) : Effect process log (.typed line)
      { process with lines := process.lines ++ [readLine line] }
      { log with typed := log.typed ++ [readLine line] }
  | signal : Effect process log .signal { process with running := false } log
  | goOn (hpoint : process.point = .test) (hrunning : process.running = true) :
      Effect process log .test { process with point := .service } log
  | stop (hpoint : process.point = .test) (hrunning : process.running = false) :
      Effect process log .test { (stop process).1 with point := .stopped }
        { log with dropped := log.dropped ++ (stop process).2 }
  | raised (now : Time) (order : Shuffle (Sigma fun _ : Peer => Player)) (raised : Raised)
      (hpoint : process.point = .service) :
      Effect process log (.raised now order raised) (process.serve ⟨now, order, raised.event⟩)
        { log with inputs := log.inputs ++ [⟨now, order, raised.event⟩] }
  | serviced (now : Time) (order : Shuffle (Sigma fun _ : Peer => Player))
      (hpoint : process.point = .service) :
      Effect process log (.serviced now order)
        { process.serve ⟨now, order, .updateBots⟩ with point := .drain }
        { log with inputs := log.inputs ++ [⟨now, order, .updateBots⟩] }
  | drained (now : Time) (order : Shuffle (Sigma fun _ : Peer => Player))
      (hpoint : process.point = .drain) (hlines : process.lines = []) :
      Effect process log (.pop now order) { process with point := .test } log
  | stopWord (now : Time) (order : Shuffle (Sigma fun _ : Peer => Player)) (line : Bytes)
      (lines : List Bytes) (hpoint : process.point = .drain)
      (hlines : process.lines = line :: lines) (hstop : isStop line = true) :
      Effect process log (.pop now order) { process with point := .test, running := false, lines }
        { log with popped := log.popped ++ [line] }
  | command (now : Time) (order : Shuffle (Sigma fun _ : Peer => Player)) (line : Bytes)
      (lines : List Bytes) (hpoint : process.point = .drain)
      (hlines : process.lines = line :: lines) (hstop : isStop line = false) :
      Effect process log (.pop now order)
        { process.serve ⟨now, order, .command line⟩ with lines }
        { log with
          popped := log.popped ++ [line]
          inputs := log.inputs ++ [⟨now, order, .command line⟩] }

theorem act_effect {process : Process} {log : Log} {action : Action} {state' : Process × Log}
    (h : act (process, log) action = some state') :
    Effect process log action state'.1 state'.2 := by
  cases action with
  | typed line =>
      obtain rfl := Option.some.inj h
      exact .typed line
  | signal =>
      obtain rfl := Option.some.inj h
      exact .signal
  | test =>
      rw [act] at h
      dsimp only at h
      split at h
      next hpoint =>
        split at h
        next hrunning =>
          obtain rfl := Option.some.inj h
          exact .goOn hpoint hrunning
        next hrunning =>
          obtain rfl := Option.some.inj h
          exact .stop hpoint (Bool.eq_false_iff.mpr hrunning)
      · cases h
  | raised now order raised =>
      obtain ⟨hpoint, heq⟩ := Option.ite_none_right_eq_some.mp h
      obtain rfl := Option.some.inj heq
      exact .raised now order raised hpoint
  | serviced now order =>
      obtain ⟨hpoint, heq⟩ := Option.ite_none_right_eq_some.mp h
      obtain rfl := Option.some.inj heq
      exact .serviced now order hpoint
  | pop now order =>
      obtain ⟨hpoint, heq⟩ := Option.ite_none_right_eq_some.mp h
      cases hlines : process.lines with
      | nil =>
          have htry : tryPop process.lines = (none, []) := by rw [hlines]; rfl
          rw [htry] at heq
          obtain rfl := Option.some.inj heq
          exact .drained now order hpoint hlines
      | cons line lines =>
          have htry : tryPop process.lines = (some line, lines) := by rw [hlines]; rfl
          rw [htry] at heq
          dsimp only at heq
          split at heq
          next hstop =>
            obtain rfl := Option.some.inj heq
            exact .stopWord now order line lines hpoint hlines hstop
          next hstop =>
            obtain rfl := Option.some.inj heq
            exact .command now order line lines hpoint hlines (Bool.eq_false_iff.mpr hstop)

end Program

/-- The commands among what the server handled. -/
def commands (inputs : List Input) : List Bytes :=
  inputs.filterMap fun input =>
    match input.event with
    | .command line => some line
    | _ => none

theorem commands_concat (inputs : List Input) (input : Input) :
    commands (inputs ++ [input]) = commands inputs ++
      match input.event with
      | .command line => [line]
      | _ => [] := by
  rw [commands, List.filterMap_append]
  obtain ⟨now, order, event⟩ := input
  cases event <;> rfl

/-- What holds of the program as long as it runs. -/
structure Tracked (config : Config) (startTime : Time) [CppFloat F32] [Libm F32] [Platform]
    (process : Process) (log : Log) : Prop where
  lines : log.typed = log.popped ++ process.lines
  popped : ∃ ending, log.popped = commands log.inputs ++ ending ∧ ending.length ≤ 1 ∧
    (∀ line ∈ ending, isStop line = true) ∧
    (ending ≠ [] → process.running = false ∧ (process.point = .test ∨ process.point = .stopped))
  noStop : ∀ line ∈ commands log.inputs, isStop line = false
  alive : process.point ≠ .stopped → process.host = true ∧ log.dropped = [] ∧
    process.server = (Network.after config startTime log.inputs).server
  dead : process.point = .stopped → process.host = false ∧
    log.dropped = (Network.after config startTime log.inputs).server.players.keys ∧
    process.server = { (Network.after config startTime log.inputs).server with players := ∅ }

section Program

variable [CppFloat F32] [Libm F32] [Platform] {config : Config} {startTime : Time}
  {process process' : Process} {log log' : Log} {action : Action}

theorem Tracked.busy (h : Tracked config startTime process log)
    (hpoint : process.point = .service ∨ process.point = .drain) :
    log.popped = commands log.inputs := by
  obtain ⟨ending, hpopped, -, -, hlast⟩ := h.popped
  by_cases hnil : ending = []
  · rw [hpopped, hnil, List.append_nil]
  · rcases hpoint with hpoint | hpoint <;> rcases (hlast hnil).2 with hother | hother <;>
      rw [hpoint] at hother <;> cases hother

theorem Tracked.serve (h : Tracked config startTime process log) {input : Input}
    (hpoint : process.point = .service) (hevent : ∀ line, input.event ≠ .command line) {point : Point}
    (hnext : point ≠ .stopped) :
    Tracked config startTime { process.serve input with point }
      { log with inputs := log.inputs ++ [input] } := by
  have hcommands : commands (log.inputs ++ [input]) = commands log.inputs := by
    rw [commands_concat]
    obtain ⟨now, order, event⟩ := input
    cases event with
    | command line => exact absurd rfl (hevent line)
    | _ => exact List.append_nil _
  obtain ⟨hhost, hdropped, hserver⟩ := h.alive (by rw [hpoint]; decide)
  refine ⟨h.lines, ⟨[], ?_, Nat.zero_le 1, by rintro _ ⟨⟩, fun hne => absurd rfl hne⟩,
    hcommands.symm ▸ h.noStop, fun _ => ⟨hhost, hdropped, ?_⟩, fun hstopped => absurd hstopped hnext⟩
  · rw [List.append_nil, hcommands]
    exact h.busy (.inl hpoint)
  · rw [Network.after_concat, Network.step, ← hserver]
    rfl

theorem Tracked.effect (h : Tracked config startTime process log)
    (heffect : Effect process log action process' log') : Tracked config startTime process' log' := by
  cases heffect with
  | typed line =>
      refine ⟨?_, h.popped, h.noStop, h.alive, h.dead⟩
      rw [h.lines, List.append_assoc]
  | signal =>
      obtain ⟨ending, hpopped, hlength, hending, hlast⟩ := h.popped
      exact ⟨h.lines, ⟨ending, hpopped, hlength, hending, fun hne => ⟨rfl, (hlast hne).2⟩⟩,
        h.noStop, h.alive, h.dead⟩
  | goOn hpoint hrunning =>
      obtain ⟨ending, hpopped, hlength, hending, hlast⟩ := h.popped
      refine ⟨h.lines, ⟨ending, hpopped, hlength, hending, fun hne => ?_⟩, h.noStop,
        fun _ => h.alive (by rw [hpoint]; decide), by rintro ⟨⟩⟩
      rw [(hlast hne).1] at hrunning
      cases hrunning
  | stop hpoint hrunning =>
      obtain ⟨hhost, hdropped, hserver⟩ := h.alive (by rw [hpoint]; decide)
      have hstop : stop process = ({ process with
          host := false, server := { process.server with players := ∅ } },
            process.server.players.keys) := by
        rw [stop, hhost]
        rfl
      obtain ⟨ending, hpopped, hlength, hending, -⟩ := h.popped
      rw [hstop]
      exact ⟨h.lines, ⟨ending, hpopped, hlength, hending, fun _ => ⟨hrunning, .inr rfl⟩⟩, h.noStop,
        fun hne => absurd rfl hne, fun _ => ⟨rfl, by rw [hdropped, hserver]; rfl, by rw [hserver]⟩⟩
  | raised now order raised hpoint =>
      have hserve := @Tracked.serve _ _ _ _ _ _ _ h ⟨now, order, raised.event⟩ hpoint
        (by cases raised <;> rintro line ⟨⟩) .service (by decide)
      rw [← hpoint] at hserve
      exact hserve
  | serviced now order hpoint => exact h.serve hpoint (by rintro line ⟨⟩) (by decide)
  | drained now order hpoint hlines =>
      obtain ⟨ending, hpopped, hlength, hending, hlast⟩ := h.popped
      exact ⟨h.lines, ⟨ending, hpopped, hlength, hending, fun hne => ⟨(hlast hne).1, .inl rfl⟩⟩,
        h.noStop, fun _ => h.alive (by rw [hpoint]; decide), by rintro ⟨⟩⟩
  | stopWord now order line lines hpoint hlines hstop =>
      refine ⟨?_, ⟨[line], ?_, le_rfl, List.forall_mem_singleton.mpr hstop, fun _ => ⟨rfl, .inl rfl⟩⟩,
        h.noStop, fun _ => h.alive (by rw [hpoint]; decide), by rintro ⟨⟩⟩
      · rw [h.lines, hlines, List.append_assoc]
        rfl
      · rw [h.busy (.inr hpoint)]
  | command now order line lines hpoint hlines hstop =>
      obtain ⟨hhost, hdropped, hserver⟩ := h.alive (by rw [hpoint]; decide)
      have hcommands : commands (log.inputs ++ [⟨now, order, .command line⟩]) =
          commands log.inputs ++ [line] := commands_concat _ _
      refine ⟨?_, ⟨[], ?_, Nat.zero_le 1, by rintro _ ⟨⟩, fun hne => absurd rfl hne⟩, ?_,
        fun _ => ⟨hhost, hdropped, ?_⟩, fun hstopped => ?_⟩
      · rw [h.lines, hlines, List.append_assoc]
        rfl
      · rw [hcommands, List.append_nil, h.busy (.inr hpoint)]
      · rw [hcommands]
        intro other hother
        rcases List.mem_append.mp hother with hother | hother
        · exact h.noStop other hother
        · rwa [List.mem_singleton.mp hother]
      · rw [Network.after_concat, Network.step, ← hserver]
        rfl
      · rw [show process.point = .stopped from hstopped] at hpoint
        cases hpoint

theorem Effect.stopped (heffect : Effect process log action process' log')
    (hpoint : process.point = .stopped) :
    process'.point = .stopped ∧ log'.inputs = log.inputs ∧ log'.dropped = log.dropped := by
  cases heffect with
  | typed | signal => exact ⟨hpoint, rfl, rfl⟩
  | goOn hother | stop hother | raised _ _ _ hother | serviced _ _ hother | drained _ _ hother
  | stopWord _ _ _ _ hother | command _ _ _ _ hother =>
      rw [hpoint] at hother
      cases hother

theorem acts_stopped {actions : List Action} {state state' : Process × Log}
    (hpoint : state.1.point = .stopped) (hacts : acts state actions = some state') :
    state'.1.point = .stopped ∧ state'.2.inputs = state.2.inputs ∧
      state'.2.dropped = state.2.dropped := by
  induction actions generalizing state with
  | nil =>
      obtain rfl := Option.some.inj hacts
      exact ⟨hpoint, rfl, rfl⟩
  | cons action actions ih =>
      obtain ⟨middle, hact, hrest⟩ := Option.bind_eq_some_iff.mp hacts
      obtain ⟨hstopped, hinputs, hdropped⟩ := (act_effect hact).stopped hpoint
      obtain ⟨hstopped', hinputs', hdropped'⟩ := ih hstopped hrest
      exact ⟨hstopped', hinputs'.trans hinputs, hdropped'.trans hdropped⟩

theorem tracked_boot {initialized bound : Bool} {state : Process × Log}
    (hboot : boot config startTime initialized bound = some state) :
    Tracked config startTime state.1 state.2 := by
  obtain ⟨-, heq⟩ := Option.ite_none_left_eq_some.mp hboot
  obtain rfl := Option.some.inj heq
  exact ⟨rfl, ⟨[], rfl, Nat.zero_le 1, by rintro _ ⟨⟩, fun hne => absurd rfl hne⟩, by rintro _ ⟨⟩,
    fun _ => ⟨rfl, rfl, rfl⟩, by rintro ⟨⟩⟩

theorem tracked_acts {actions : List Action} {state state' : Process × Log}
    (h : Tracked config startTime state.1 state.2) (hacts : acts state actions = some state') :
    Tracked config startTime state'.1 state'.2 := by
  induction actions generalizing state with
  | nil =>
      obtain rfl := Option.some.inj hacts
      exact h
  | cons action actions ih =>
      obtain ⟨middle, hact, hrest⟩ := Option.bind_eq_some_iff.mp hacts
      exact ih (h.effect (act_effect hact)) hrest

/-- The lines that are typed in some steps, without what `ReadLoop` drops. -/
def typedLines (actions : List Action) : List Bytes :=
  actions.filterMap fun action =>
    match action with
    | .typed line => some (readLine line)
    | _ => none

omit [CppFloat F32] [Libm F32] [Platform] in
theorem typedLines_cons (action : Action) (actions : List Action) :
    typedLines (action :: actions) =
      (match action with
      | .typed line => [readLine line]
      | _ => []) ++ typedLines actions := by
  cases action <;> rfl

theorem typed_acts {actions : List Action} {state state' : Process × Log}
    (hacts : acts state actions = some state') :
    state'.2.typed = state.2.typed ++ typedLines actions := by
  induction actions generalizing state with
  | nil =>
      obtain rfl := Option.some.inj hacts
      exact (List.append_nil _).symm
  | cons action actions ih =>
      obtain ⟨middle, hact, hrest⟩ := Option.bind_eq_some_iff.mp hacts
      rw [ih hrest, typedLines_cons]
      have heffect := act_effect hact
      generalize middle.1 = process', middle.2 = log' at heffect
      cases heffect with
      | typed line => rw [List.append_assoc]
      | _ => rfl

/-- However the threads take turns: every line that is typed is a command the server
carries out once, in order, or the one word that stops it, or waits; as long as the program
runs the server is as after what it handled; and at the end every player is disconnected
once, nobody is left, and nothing more is handled. -/
theorem program_serves (config : Config) (startTime : Time) (initialized bound : Bool)
    (state : Process × Log) (hboot : boot config startTime initialized bound = some state)
    (actions : List Action) (process : Process) (log : Log)
    (hacts : acts state actions = some (process, log)) :
    (∃ ending, typedLines actions = commands log.inputs ++ ending ++ process.lines ∧
      ending.length ≤ 1 ∧ (∀ line ∈ ending, isStop line = true) ∧
      (ending ≠ [] → process.running = false ∧ process.point ≠ .service ∧ process.point ≠ .drain)) ∧
    (∀ line ∈ commands log.inputs, isStop line = false) ∧
    (process.point ≠ .stopped →
      process.server = (Network.after config startTime log.inputs).server) ∧
    (process.point = .stopped → process.server.players = ∅ ∧ log.dropped.Nodup ∧
      (∀ c, c ∈ log.dropped ↔
        ((Network.after config startTime log.inputs).server.players.lookup c).isSome = true) ∧
      ∀ more state', acts (process, log) more = some state' → state'.1.point = .stopped ∧
        state'.2.inputs = log.inputs ∧ state'.2.dropped = log.dropped) := by
  have htracked := tracked_acts (tracked_boot hboot) hacts
  have htyped := typed_acts hacts
  obtain ⟨-, hstart⟩ := Option.ite_none_left_eq_some.mp hboot
  obtain rfl := Option.some.inj hstart
  obtain ⟨ending, hpopped, hlength, hending, hlast⟩ := htracked.popped
  refine ⟨⟨ending, ?_, hlength, hending, fun hne => ⟨(hlast hne).1, ?_, ?_⟩⟩, htracked.noStop,
    fun hpoint => (htracked.alive hpoint).2.2, fun hpoint => ?_⟩
  · rw [← hpopped]
    exact htyped.symm.trans htracked.lines
  · rintro hpoint
    rcases (hlast hne).2 with hother | hother <;> rw [hpoint] at hother <;> cases hother
  · rintro hpoint
    rcases (hlast hne).2 with hother | hother <;> rw [hpoint] at hother <;> cases hother
  · obtain ⟨-, hdropped, hserver⟩ := htracked.dead hpoint
    refine ⟨by rw [hserver], ?_, fun c => ?_, fun more state' hmore => acts_stopped hpoint hmore⟩
    · rw [hdropped]
      exact AList.keys_nodup _
    · rw [hdropped, AList.lookup_isSome, AList.mem_keys]

/-- A step of the main thread other than handling what ENet raises. -/
def isTurn : Action → Bool
  | .test | .serviced .. | .pop .. => true
  | .typed _ | .signal | .raised .. => false

/-- How many turns are left at most, if a word that stops the program is among the lines
or it does not run any more. -/
def turnsLeft (lines : List Bytes) (running : Bool) : Point → Option Nat
  | .test => if running then (lines.findIdx? isStop).map (· + 4) else some 1
  | .service => (lines.findIdx? isStop).map (· + 3)
  | .drain => (lines.findIdx? isStop).map (· + 2)
  | .stopped => some 0

def Process.turnsLeft (process : Process) : Option Nat :=
  ServerProgram.turnsLeft process.lines process.running process.point

omit [CppFloat F32] [Libm F32] [Platform] in
theorem turnsLeft_append {lines : List Bytes} {running : Bool} {point : Point} {n : Nat}
    (h : turnsLeft lines running point = some n) (more : List Bytes) :
    turnsLeft (lines ++ more) running point = some n := by
  have hmap : ∀ m, (lines.findIdx? isStop).map (· + m) = some n →
      ((lines ++ more).findIdx? isStop).map (· + m) = some n := by
    intro m hm
    obtain ⟨i, hi, rfl⟩ := Option.map_eq_some_iff.mp hm
    rw [List.findIdx?_append, hi]
    rfl
  cases point with
  | test =>
      cases running with
      | true => exact hmap 4 h
      | false => exact h
  | service => exact hmap 3 h
  | drain => exact hmap 2 h
  | stopped => exact h

omit [CppFloat F32] [Libm F32] [Platform] in
theorem turnsLeft_signal {lines : List Bytes} {running : Bool} {point : Point} {n : Nat}
    (h : turnsLeft lines running point = some n) :
    ∃ n', turnsLeft lines false point = some n' ∧ n' ≤ n := by
  cases point with
  | test =>
      refine ⟨1, rfl, ?_⟩
      cases running with
      | true =>
          obtain ⟨i, -, rfl⟩ := Option.map_eq_some_iff.mp h
          exact Nat.le_add_left 1 (i + 3)
      | false => exact (Option.some.inj h).le
  | service | drain | stopped => exact ⟨n, h, le_rfl⟩

theorem turnsLeft_effect {n : Nat} (h : process.turnsLeft = some n)
    (heffect : Effect process log action process' log') :
    ∃ n', process'.turnsLeft = some n' ∧ n' + (if isTurn action then 1 else 0) ≤ n := by
  rw [Process.turnsLeft] at h
  cases heffect with
  | typed line => exact ⟨n, turnsLeft_append h _, le_rfl⟩
  | signal => exact turnsLeft_signal h
  | goOn hpoint hrunning =>
      rw [hpoint, hrunning] at h
      obtain ⟨i, hi, rfl⟩ := Option.map_eq_some_iff.mp h
      exact ⟨i + 3, congrArg (Option.map (· + 3)) hi, le_rfl⟩
  | stop hpoint hrunning =>
      rw [hpoint, hrunning] at h
      exact ⟨0, rfl, (Option.some.inj h).le⟩
  | raised now order raised hpoint => exact ⟨n, h, le_rfl⟩
  | serviced now order hpoint =>
      rw [hpoint] at h
      obtain ⟨i, hi, rfl⟩ := Option.map_eq_some_iff.mp h
      exact ⟨i + 2, congrArg (Option.map (· + 2)) hi, le_rfl⟩
  | drained now order hpoint hlines =>
      rw [hpoint, hlines] at h
      cases h
  | stopWord now order line lines hpoint hlines hstop =>
      rw [hpoint] at h
      obtain ⟨i, -, rfl⟩ := Option.map_eq_some_iff.mp h
      exact ⟨1, rfl, Nat.le_add_left 2 i⟩
  | command now order line lines hpoint hlines hstop =>
      rw [hpoint, hlines] at h
      obtain ⟨i, hi, rfl⟩ := Option.map_eq_some_iff.mp h
      rw [List.findIdx?_cons, hstop] at hi
      obtain ⟨j, hj, rfl⟩ := Option.map_eq_some_iff.mp hi
      refine ⟨j + 2, ?_, le_rfl⟩
      change turnsLeft lines process.running process.point = _
      rw [hpoint]
      exact congrArg (Option.map (· + 2)) hj

theorem exists_turn {state : Process × Log} (hpoint : state.1.point ≠ .stopped) :
    ∃ turn, isTurn turn = true ∧ (act state turn).isSome = true := by
  obtain ⟨process, log⟩ := state
  cases hat : process.point with
  | test =>
      refine ⟨.test, rfl, ?_⟩
      rw [act]
      dsimp only
      rw [if_pos hat]
      split <;> rfl
  | service =>
      refine ⟨.serviced 0 (.keep _), rfl, ?_⟩
      rw [act]
      dsimp only
      rw [if_pos hat]
      rfl
  | drain =>
      refine ⟨.pop 0 (.keep _), rfl, ?_⟩
      rw [act]
      dsimp only
      rw [if_pos hat]
      cases process.lines with
      | nil => rfl
      | cons line lines =>
          rw [tryPop]
          dsimp only
          split <;> rfl
  | stopped => exact absurd hat hpoint

theorem turns_acts {actions : List Action} {state state' : Process × Log} {n : Nat}
    (h : state.1.turnsLeft = some n) (hacts : acts state actions = some state') :
    actions.countP isTurn ≤ n := by
  induction actions generalizing state n with
  | nil => exact Nat.zero_le n
  | cons action actions ih =>
      obtain ⟨middle, hact, hrest⟩ := Option.bind_eq_some_iff.mp hacts
      obtain ⟨n', hn', hle⟩ := turnsLeft_effect h (act_effect hact)
      have hcount := ih hn' hrest
      rw [List.countP_cons]
      omega

/-- Once a word that stops the program is typed, with so many lines before it, the main
thread takes at most four turns more than these, whatever else is typed and whatever ENet
raises; and it can take one until the program has stopped. -/
theorem stop_is_prompt (process : Process) (log : Log) (waiting : Nat)
    (hwaiting : process.lines.findIdx? isStop = some waiting) (actions : List Action)
    (state' : Process × Log) (hacts : acts (process, log) actions = some state') :
    actions.countP isTurn ≤ waiting + 4 ∧
      (state'.1.point = .stopped ∨
        ∃ turn, isTurn turn = true ∧ (act state' turn).isSome = true) := by
  have hleft : ∃ n, process.turnsLeft = some n ∧ n ≤ waiting + 4 := by
    rw [Process.turnsLeft]
    cases process.point with
    | test =>
        rw [turnsLeft, hwaiting]
        split
        · exact ⟨waiting + 4, rfl, le_rfl⟩
        · exact ⟨1, rfl, Nat.le_add_left 1 (waiting + 3)⟩
    | service =>
        rw [turnsLeft, hwaiting]
        exact ⟨waiting + 3, rfl, Nat.le_succ _⟩
    | drain =>
        rw [turnsLeft, hwaiting]
        exact ⟨waiting + 2, rfl, by omega⟩
    | stopped => exact ⟨0, rfl, Nat.zero_le _⟩
  obtain ⟨n, hn, hle⟩ := hleft
  refine ⟨(turns_acts hn hacts).trans hle, ?_⟩
  by_cases hpoint : state'.1.point = .stopped
  · exact .inl hpoint
  · exact .inr (exists_turn hpoint)

end Program

section Example

open F4MP.Native

def booted : Process × Log := ({ server := { config := {}, startTime := 0 } }, {})

def shutdown : List Action :=
  [.typed (ascii "say hi"), .test, .raised 0 (.keep _) (.connect 0), .typed (ascii "stop\r"),
    .serviced 0 (.keep _), .pop 0 (.keep _), .typed (ascii "say bye"), .pop 0 (.keep _), .test]

/-- The server ends with nobody there, and never says the last line. -/
theorem program_serves_shutdown : ∃ process log, acts booted shutdown = some (process, log) ∧
    process.server.players = ∅ ∧ ascii "stop" ∉ commands log.inputs := by
  have hdone : (acts booted shutdown).map (·.1.point) = some .stopped := by decide +kernel
  obtain ⟨state, hacts, hpoint⟩ := Option.map_eq_some_iff.mp hdone
  have hserves := program_serves {} 0 true true booted rfl shutdown state.1 state.2 hacts
  refine ⟨state.1, state.2, hacts, (hserves.2.2.2 hpoint).1, fun hmem => ?_⟩
  have hno := hserves.2.1 _ hmem
  revert hno
  decide

def closing : Process := { booted.1 with lines := [ascii "say hi", ascii "exit"] }

theorem stop_is_prompt_closing : ∃ state',
    acts (closing, {}) [.test, .serviced 0 (.keep _), .pop 0 (.keep _)] = some state' ∧
      ∃ turn, isTurn turn = true ∧ (act state' turn).isSome = true := by
  have hpoint : (acts (closing, {}) [.test, .serviced 0 (.keep _), .pop 0 (.keep _)]).map
      (·.1.point) = some .drain := by decide +kernel
  obtain ⟨state', hacts, hdrain⟩ := Option.map_eq_some_iff.mp hpoint
  have hprompt := stop_is_prompt closing {} 1 (by decide +kernel) _ state' hacts
  refine ⟨state', hacts, hprompt.2.resolve_left fun hstopped => ?_⟩
  rw [hdrain] at hstopped
  cases hstopped

end Example

end F4MP.ServerProgram
