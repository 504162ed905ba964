import Mathlib.Data.Fintype.Basic
import F4MP.WorldModel

/-!
Worlds by computation: turns say who does what, and a world takes them one after another
as long as they are steps of it.
-/

namespace F4MP.Rehearsal

open F4MP.Types
open F4MP.Protocol
open F4MP.Messages
open F4MP.Arith
open F4MP.ServerModel
open F4MP.ServerConsole
open F4MP.ServerRun
open F4MP.SessionModel (NetEvent)
open F4MP.Connection (netEvents)
open F4MP.WorldModel
open F4MP.Library.Wires

/-- The next packet of the first channel arrives, if it is the one. -/
def pullOrdered (wire : Wire isReliable) (bytes : Bytes) : Option (Wire isReliable) :=
  match hordered : wire.ordered with
  | [] => none
  | sent :: _ => if sent.bytes = bytes then some (wire.takeOrdered hordered) else none

/-- The packet arrives that is the first such one on the second channel; those before it
are lost. -/
def pullLoose (wire : Wire isReliable) (bytes : Bytes) : Option (Wire isReliable) :=
  match hrest : wire.loose.dropWhile (·.bytes ≠ bytes) with
  | [] => none
  | sent :: rest =>
      have hsplit : wire.loose = wire.loose.takeWhile (·.bytes ≠ bytes) ++ sent :: rest := by
        rw [← hrest, List.takeWhile_append_dropWhile]
      some (wire.takeLoose hsplit)

def pull (wire : Wire isReliable) (bytes : Bytes) : Option (Wire isReliable) :=
  (pullOrdered wire bytes).or (pullLoose wire bytes)

theorem arrives_of_pull {wire wire' : Wire isReliable} {bytes : Bytes}
    (h : pull wire bytes = some wire') : ∃ sent, sent.bytes = bytes ∧ Arrives wire sent wire' := by
  rcases Option.or_eq_some_iff.mp h with hordered | ⟨-, hloose⟩
  · rw [pullOrdered] at hordered
    split at hordered
    · cases hordered
    · split at hordered
      · rename_i sent rest hnext hbytes
        obtain rfl := Option.some.inj hordered
        exact ⟨sent, hbytes, .ordered hnext⟩
      · cases hordered
  · rw [pullLoose] at hloose
    split at hloose
    · cases hloose
    · rename_i sent rest hrest
      obtain rfl := Option.some.inj hloose
      have hfirst := List.head?_dropWhile_not (·.bytes ≠ bytes) wire.loose
      rw [hrest] at hfirst
      exact ⟨sent, not_not.mp (of_decide_eq_false hfirst), .loose _⟩

variable {κ D : Type}

def hear : Option Circuit → NetEvent D → Option (Option Circuit)
  | none, _ => some none
  | some circuit, .connect _ => some (some { circuit with clientUp := true })
  | some circuit, .receive bytes _ =>
      (pull circuit.down bytes).map fun down => some { circuit with down }
  | some _, .disconnect => some none

theorem hears_of_hear {before after : Option Circuit} {event : NetEvent D}
    (h : hear before event = some after) : Hears before event after := by
  cases before with
  | none =>
      obtain rfl := Option.some.inj h
      exact .elsewhere event
  | some circuit =>
      cases event with
      | connect playerName =>
          obtain rfl := Option.some.inj h
          exact .opened circuit playerName
      | receive bytes reading =>
          obtain ⟨down, hpull, rfl⟩ := Option.map_eq_some_iff.mp h
          obtain ⟨sent, rfl, harrives⟩ := arrives_of_pull hpull
          exact .received circuit sent reading down harrives
      | disconnect =>
          obtain rfl := Option.some.inj h
          exact .lost circuit

theorem hearsAll_of_hear {events : List (NetEvent D)} :
    ∀ {before after : Option Circuit}, events.foldlM hear before = some after →
      HearsAll before events after := by
  induction events with
  | nil =>
      intro before after h
      obtain rfl := Option.some.inj h
      exact .nil before
  | cons event events ih =>
      intro before after h
      rw [List.foldlM_cons] at h
      obtain ⟨middle, hfirst, hrest⟩ := Option.bind_eq_some_iff.mp h
      exact .cons (hears_of_hear hfirst) (ih hrest)

/-- What may happen next: the server's end of a connection comes up, a packet of a client
arrives at the server, a client has an event. -/
inductive Turn (κ D : Type)
  | accept (k : κ) (c : Peer) (now : Time)
  | take (k : κ) (bytes : Bytes) (now : Time)
  | play (k : κ) (event : SessionModel.Event D)

section Turns

variable [CppFloat F32] [CppFloat D] [Libm F32] [Narrow D F32] [Widen F32 D] [Platform]
  [DecidableEq κ] [Fintype κ]

/-- The world after a turn, if this is a step of it. -/
def turn (config : Config) (startTime : Time) (w : World κ D) : Turn κ D → Option (World κ D)
  | .accept k c now =>
      (w.circuit k).bind fun circuit =>
        if circuit.peer = none ∧ (∀ j, (w.circuit j).bind (·.peer) ≠ some c) ∧
            (Network.after config startTime w.served).server.players.lookup c = none then
          some ((w.setCircuit k (some { circuit with peer := some c })).serve config startTime
            ⟨now, .keep _, .connect c⟩)
        else none
  | .take k bytes now =>
      (w.circuit k).bind fun circuit =>
        circuit.peer.bind fun c =>
          (pull circuit.up bytes).map fun up =>
            (w.setCircuit k (some { circuit with up })).serve config startTime
              ⟨now, .keep _, .receive c bytes⟩
  | .play k event =>
      ((netEvents event).foldlM hear (w.circuit k)).bind fun circuit =>
        if (next (w.party k) ⟨event, fun _ => .keep _⟩).watched.enet ≠ none then
          some
            { w with
              party := Function.update w.party k (next (w.party k) ⟨event, fun _ => .keep _⟩)
              circuit := Function.update w.circuit k
                ((actions (w.party k) ⟨event, fun _ => .keep _⟩).foldl (ask true) circuit) }
        else none

theorem step_of_turn {config : Config} {startTime : Time} {w w' : World κ D} {what : Turn κ D}
    (h : turn config startTime w what = some w') : Step config startTime w w' := by
  cases what with
  | accept k c now =>
      obtain ⟨circuit, hcircuit, hrest⟩ := Option.bind_eq_some_iff.mp h
      split at hrest
      · rename_i hall
        obtain ⟨hpeer, hfree, hnew⟩ := hall
        obtain rfl := Option.some.inj hrest
        refine .accept k circuit c _ hcircuit hpeer (fun j other hother hc => hfree j ?_) hnew rfl
        rw [hother, Option.bind_some, hc]
      · cases hrest
  | take k bytes now =>
      obtain ⟨circuit, hcircuit, hrest⟩ := Option.bind_eq_some_iff.mp h
      obtain ⟨c, hpeer, hpulled⟩ := Option.bind_eq_some_iff.mp hrest
      obtain ⟨up, hpull, rfl⟩ := Option.map_eq_some_iff.mp hpulled
      obtain ⟨sent, rfl, harrives⟩ := arrives_of_pull hpull
      exact .take k circuit c sent up _ hcircuit hpeer harrives rfl
  | play k event =>
      obtain ⟨circuit, hheard, hrest⟩ := Option.bind_eq_some_iff.mp h
      split at hrest
      · rename_i henet
        obtain rfl := Option.some.inj hrest
        exact .play k ⟨event, fun _ => .keep _⟩ true circuit (hearsAll_of_hear hheard) henet
      · cases hrest

/-- No server input, no client input, no connection. -/
def started (κ D : Type) : World κ D := ⟨[], fun _ => { inputs := [] }, fun _ => none⟩

/-- The world after all the turns, if they are steps of it. -/
def rehearse (config : Config) (startTime : Time) (turns : List (Turn κ D)) :
    Option (World κ D) :=
  turns.foldlM (turn config startTime) (started κ D)

theorem reachable_rehearse {config : Config} {startTime : Time} {turns : List (Turn κ D)}
    {w : World κ D} (h : rehearse config startTime turns = some w) :
    Reachable config startTime w := by
  refine ⟨started κ D, ⟨rfl, fun _ => rfl, fun _ => rfl⟩, ?_⟩
  rw [rehearse] at h
  generalize started κ D = start at h
  induction turns generalizing start with
  | nil =>
      obtain rfl := Option.some.inj h
      exact .refl
  | cons what turns ih =>
      rw [List.foldlM_cons] at h
      obtain ⟨middle, hfirst, hrest⟩ := Option.bind_eq_some_iff.mp h
      exact .head (step_of_turn hfirst) (ih middle hrest)

end Turns

section Example

open F4MP.Native
open F4MP.Transcript (transcript account)

def nameOf (k : Bool) : Bytes := ascii (if k then "Bob" else "Ada")

def hello (k : Bool) : Bytes := encode { name := nameOf k : HelloMsg }

def welcome (id : PlayerId) : Bytes :=
  encode
    { id, tickRate := 30, serverName := ascii "F4MP Server",
      motd := ascii "Welcome to the Commonwealth." : WelcomeMsg }

def announcement (k : Bool) : Bytes :=
  encode { text := nameOf k ++ ascii " joined the game" : ChatBroadcastMsg }

/-- A frame of a client in which packets arrive, and what the engine says of its player. -/
def frame (k : Bool) (now : Time) (packets : List Bytes) (sample : Option (PlayerState F32)) :
    Turn Bool F64 :=
  .play k (.tick
    { Connection.frame (packets.map fun bytes =>
        .receive bytes ⟨now, CppFloat.ofRat (now / 1000000 : Nat), sample⟩) now with
      sample
      playerName := nameOf k })

/-- Two clients ask for a connection in their worlds, and the server hears both. -/
def knocks : List (Turn Bool F64) :=
  [.play false .enterWorld,
    .play true .enterWorld,
    .play false (.connect { now := 20000000000 } 20000000000),
    .play true (.connect { now := 20000000000 } 20000000000),
    .play false (.tick (Connection.frame [.connect (nameOf false)] 20100000000)),
    .play true (.tick (Connection.frame [.connect (nameOf true)] 20100000000)),
    .accept false 0 0,
    .accept true 1 0]

def introductions : List (Turn Bool F64) :=
  knocks ++
    [.take false (hello false) 100000000,
      .take true (hello true) 110000000,
      frame false 20200000000
        [welcome 1, announcement false, encode { id := 2, name := nameOf true : PlayerJoinedMsg },
          announcement true] none,
      frame true 20200000000
        [welcome 2, encode { id := 1, name := nameOf false : PlayerJoinedMsg },
          announcement true] none]

theorem introductions_go : (rehearse {} 0 introductions).isSome = true := by decide +kernel

def introduced : World Bool F64 := (rehearse {} 0 introductions).get introductions_go

/-- The first client is who the server takes it for, read what it was told, and is on the
list of the second. -/
theorem worlds_agree_of_two : ∃ player entry,
    (Network.after {} 0 introduced.served).server.players.lookup 0 = some player ∧
      (introduced.party false).session.myId = player.id ∧
      transcript (introduced.party false) = account {} 0 introduced.served 0 ∧
      (introduced.party true).scene.find player.id = some entry ∧ entry.name = player.name := by
  obtain ⟨own, hown, hcalm⟩ := Option.map_eq_some_iff.mp
    (show (introduced.circuit false).map
      (fun circuit => (circuit.peer, circuit.up.ordered, circuit.down.ordered)) =
        some (some 0, [], []) by decide +kernel)
  obtain ⟨theirs, htheirs, hcalm'⟩ := Option.map_eq_some_iff.mp
    (show (introduced.circuit true).map
      (fun circuit => (circuit.up.ordered, circuit.down.ordered)) = some ([], []) by
        decide +kernel)
  simp only [Prod.mk.injEq] at hcalm hcalm'
  obtain ⟨c, player, hc, hplayer, -, -, hid, -, -, htranscript, hothers⟩ :=
    (worlds_agree {} 0 introduced (reachable_rehearse (Option.some_get _).symm)
      (by decide +kernel) false own hown (by decide +kernel)).2 hcalm.2
  obtain rfl := Option.some.inj (hcalm.1.symm.trans hc)
  obtain ⟨entry, hentry, hname⟩ :=
    hothers true Bool.noConfusion theirs htheirs (by decide +kernel) hcalm'
  exact ⟨player, entry, hplayer, hid, htranscript, hentry, hname⟩

end Example

end F4MP.Rehearsal
