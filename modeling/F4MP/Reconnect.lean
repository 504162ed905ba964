import F4MP.Connection

/-!
When a client tries to connect: in a world only, not against the wish of the player,
and by itself not too often.
-/

namespace F4MP.Reconnect

open F4MP.Types
open F4MP.Arith
open F4MP.ServerModel (Time)
open F4MP.NetClientModel (Request Dial)
open F4MP.RemotePlayersModel
open F4MP.SessionModel
open F4MP.SessionSteps
open F4MP.ClientRun
open F4MP.Library.Runs

variable {D : Type}

/-- The attempts to connect among some actions: from the console or not, and when. -/
def dials (actions : List (Action D)) : List (Bool × Time) :=
  actions.filterMap fun action =>
    match action with
    | .dial manual now => some (manual, now)
    | .net _ | .remotes _ => none

theorem dials_append (actions more : List (Action D)) :
    dials (actions ++ more) = dials actions ++ dials more := List.filterMap_append

theorem dials_requests (asked : List Request) :
    dials (asked.map .net : List (Action D)) = [] := by
  rw [dials, List.filterMap_map]
  exact List.filterMap_eq_nil_iff.mpr fun _ _ => rfl

theorem dials_mild {actions : List (Action D)} (h : Mild actions) : dials actions = [] := by
  refine List.filterMap_eq_nil_iff.mpr fun action haction => ?_
  rcases h action haction with ⟨channel, bytes, rfl⟩ | ⟨op, rfl, -⟩ <;> rfl

/-- What attempts depend on, but for the connection itself. -/
structure Policy where
  inWorld : Bool := false
  manualDisconnect : Bool := false
  lastReconnectAttempt : Time := 0

def policy (session : Session) : Policy where
  inWorld := session.inWorld
  manualDisconnect := session.manualDisconnect
  lastReconnectAttempt := session.lastReconnectAttempt

/-- A save was loaded, or a new game started. -/
def Enters : Event D → Prop
  | .enterWorld | .newGame => True
  | _ => False

/-- Whether the client is in a world after an event. -/
def worldAfter (world : Bool) : Event D → Bool
  | .enterWorld | .newGame => true
  | .leaveWorld => false
  | _ => world

/-- What an event can do to the policy, and the attempts it makes. -/
inductive Effect (before : Policy) : Event D → Policy → List (Bool × Time) → Prop where
  | entered (event : Event D) (henters : Enters event) :
      Effect before event { inWorld := true } []
  | left : Effect before .leaveWorld { before with inWorld := false } []
  | stopped : Effect before .disconnect { before with manualDisconnect := true } []
  | asked (dial : Dial) (now : Time) (hworld : before.inWorld = true) :
      Effect before (.connect dial now)
        { before with manualDisconnect := false, lastReconnectAttempt := now } [(true, now)]
  | retried (input : TickInput D) (hworld : before.inWorld = true)
      (hmanual : before.manualDisconnect = false)
      (hwait : before.lastReconnectAttempt + reconnectInterval ≤ input.reconnectNow) :
      Effect before (.tick input) { before with lastReconnectAttempt := input.reconnectNow }
        [(false, input.reconnectNow)]
  | kept (event : Event D) (hworld : ∀ world, worldAfter world event = world)
      (hstop : event ≠ .disconnect) : Effect before event before []

/-- A manual connect in a world, or the next world. -/
def Resumes (world : Bool) : Event D → Prop
  | .enterWorld | .newGame => True
  | .connect .. => world = true
  | _ => False

section Effects

variable {before after : Policy} {event : Event D} {dials : List (Bool × Time)}

theorem Effect.world (h : Effect before event after dials) :
    after.inWorld = worldAfter before.inWorld event := by
  cases h with
  | entered _ henters => cases event <;> first | rfl | exact henters.elim
  | left | stopped | asked | retried => rfl
  | kept _ hworld => exact (hworld _).symm

theorem Effect.length_dials (h : Effect before event after dials) : dials.length ≤ 1 := by
  cases h <;> simp

theorem Effect.of_dial (h : Effect before event after dials) {manual : Bool} {now : Time}
    (hdial : (manual, now) ∈ dials) :
    before.inWorld = true ∧ after.lastReconnectAttempt = now ∧
      (manual = false → before.lastReconnectAttempt + reconnectInterval ≤ now) := by
  cases h with
  | entered | left | stopped | kept => cases hdial
  | asked dial time hworld =>
      obtain ⟨rfl, rfl⟩ := Prod.mk.inj (List.mem_singleton.mp hdial)
      exact ⟨hworld, rfl, by rintro ⟨⟩⟩
  | retried input hworld _ hwait =>
      obtain ⟨-, rfl⟩ := Prod.mk.inj (List.mem_singleton.mp hdial)
      exact ⟨hworld, rfl, fun _ => hwait⟩

theorem Effect.lastReconnectAttempt_eq (h : Effect before event after dials)
    (henters : ¬ Enters event) (hnone : dials = []) :
    after.lastReconnectAttempt = before.lastReconnectAttempt := by
  cases h with
  | entered _ h => exact absurd h henters
  | left | stopped | kept => rfl
  | asked | retried => cases hnone

theorem Effect.stops (h : Effect before (.disconnect : Event D) after dials) :
    after.manualDisconnect = true := by
  cases h with
  | entered _ henters => exact henters.elim
  | stopped => rfl
  | kept _ _ hstop => exact absurd rfl hstop

theorem Effect.stays_stopped (h : Effect before event after dials)
    (hstopped : before.manualDisconnect = true) (hresumes : ¬ Resumes before.inWorld event) :
    after.manualDisconnect = true ∧ dials = [] := by
  cases h with
  | entered _ henters => cases event <;> first | exact absurd trivial hresumes | exact henters.elim
  | left | kept => exact ⟨hstopped, rfl⟩
  | stopped => exact ⟨rfl, rfl⟩
  | asked dial now hworld => exact absurd hworld hresumes
  | retried _ _ hmanual => exact absurd (hstopped.symm.trans hmanual) (by rintro ⟨⟩)

end Effects

section Step

/-- No attempt is made, and the policy stays. -/
structure Still (session : Session) (result : Result D) : Prop where
  policy : policy result.1 = policy session
  dials : dials result.2 = []

variable {session : Session} {result : Result D}

theorem Still.andThen (h : Still session result) {next : Session → Result D}
    (hnext : Still result.1 (next result.1)) : Still session (result.andThen next) where
  policy := hnext.policy.trans h.policy
  dials := by
    rw [Result.andThen, dials_append, h.dials, hnext.dials]
    rfl

theorem still_nothing (session : Session) : Still session ((session, []) : Result D) := ⟨rfl, rfl⟩

theorem still_resetNet (session : Session) : Still session (resetNet session : Result D) :=
  ⟨rfl, dials_requests _⟩

theorem still_onDisconnected (session : Session) :
    Still session (onDisconnected session : Result D) := ⟨rfl, rfl⟩

theorem still_disconnectNet (session : Session) :
    Still session (disconnectNet session : Result D) := by
  rw [disconnectNet]
  split
  · exact still_nothing session
  · exact (still_resetNet session).andThen (still_onDisconnected _)

variable [CppFloat F32]

theorem still_handleNetEvents (session : Session) (events : List (NetEvent D)) :
    Still session (handleNetEvents session events) := by
  induction events generalizing session with
  | nil => exact still_nothing session
  | cons event events ih =>
      have hevent : Still session (handleNetEvent session event) := by
        cases event with
        | connect playerName => exact ⟨rfl, dials_requests _⟩
        | receive bytes reading =>
            obtain ⟨hheard, hmild⟩ := handlePacket_spec session bytes reading
            refine ⟨?_, dials_mild hmild⟩
            rw [handleNetEvent, hheard.rest]
            rfl
        | disconnect => exact ⟨rfl, rfl⟩
      rw [handleNetEvents]
      exact hevent.andThen (ih _)

theorem still_pump (session : Session) (events : List (NetEvent D)) (now : Time) :
    Still session (pump session events now) := by
  rw [pump]
  split
  · exact still_nothing session
  · refine (still_handleNetEvents session events).andThen ?_
    split
    · exact (still_resetNet _).andThen (still_onDisconnected _)
    · exact still_nothing _

theorem still_play (session : Session) (input : TickInput D) :
    Still session (play input session) := by
  obtain ⟨hplay, hmild⟩ := play_spec session input
  refine ⟨?_, dials_mild hmild⟩
  rw [hplay]
  rfl

omit [CppFloat F32] in
theorem autoConnect_effect (session : Session) (hworld : session.inWorld = true) (dial : Dial)
    (now : Time) :
    Still session (autoConnect session dial now : Result D) ∨
      (session.manualDisconnect = false ∧
        session.lastReconnectAttempt + reconnectInterval ≤ now ∧
        policy (autoConnect session dial now : Result D).1 =
          { policy session with lastReconnectAttempt := now } ∧
        dials (autoConnect session dial now : Result D).2 = [(false, now)]) := by
  rw [autoConnect]
  split
  · rename_i hready
    simp only [Bool.and_eq_true, Bool.not_eq_true', decide_eq_true_eq] at hready
    obtain ⟨⟨⟨hstate, -⟩, hmanual⟩, hwait⟩ := hready
    have hlong : 0 < now - session.lastReconnectAttempt :=
      Nat.lt_of_lt_of_le (show 0 < reconnectInterval by decide) hwait
    have hdue := (Nat.le_sub_iff_add_le' (Nat.lt_of_sub_pos hlong).le).mp hwait
    refine .inr ⟨hmanual, hdue, ?_⟩
    rw [connect]
    simp only [hworld, hstate, Bool.not_true, Bool.false_eq_true, if_false, ne_eq, not_true]
    refine ⟨by rw [policy, policy, hworld], ?_⟩
    exact congrArg ((false, now) :: ·) (dials_requests _)
  · exact .inl (still_nothing session)

theorem step_effect (session : Session) (event : Event D) :
    Effect (policy session) event (policy (step session event).1) (dials (step session event).2) := by
  have hkept : ∀ {result : Result D}, (∀ world, worldAfter world event = world) →
      event ≠ .disconnect → Still session result →
      Effect (policy session) event (policy result.1) (dials result.2) := by
    intro result hworld hstop hstill
    rw [hstill.policy, hstill.dials]
    exact .kept event hworld hstop
  cases event with
  | enterWorld | newGame => exact .entered _ trivial
  | leaveWorld => exact .left
  | preSave | setCloneBase | actorDeleted | setPlayerName =>
      exact hkept (fun _ => rfl) (by rintro ⟨⟩) ⟨rfl, rfl⟩
  | tick input =>
      have hpump := still_pump session input.events input.pumpNow
      rw [step, tick_eq]
      generalize pump session input.events input.pumpNow = pumped at hpump
      obtain ⟨session', actions⟩ := pumped
      cases hworld : session'.inWorld with
      | false =>
          refine hkept (fun _ => rfl) (by rintro ⟨⟩) (hpump.andThen ?_)
          dsimp only
          rw [hworld]
          exact still_nothing session'
      | true =>
          have hplay := still_play (autoConnect session' input.dial input.reconnectNow : Result D).1
            input
          rcases autoConnect_effect (D := D) session' hworld input.dial input.reconnectNow with
            hstill | ⟨hmanual, hwait, hpolicy, hdials⟩
          · refine hkept (fun _ => rfl) (by rintro ⟨⟩) (hpump.andThen ?_)
            dsimp only
            rw [hworld]
            exact hstill.andThen hplay
          · have hsame : policy session' = policy session := hpump.policy
            have hafter : policy ((autoConnect session' input.dial input.reconnectNow).andThen
                (play input)).1 =
                { policy session with lastReconnectAttempt := input.reconnectNow } := by
              rw [Result.andThen, hplay.policy, hpolicy, hsame]
            rw [Result.andThen]
            dsimp only
            rw [hworld, Bool.not_true, if_neg (by rintro ⟨⟩), hafter, dials_append, hpump.dials,
              Result.andThen, dials_append, hdials, hplay.dials]
            refine .retried input ?_ ?_ ?_
            · exact (congrArg Policy.inWorld hsame).symm.trans hworld
            · exact (congrArg Policy.manualDisconnect hsame).symm.trans hmanual
            · rw [← hsame]
              exact hwait
  | connect dial now =>
      rw [step, connect]
      by_cases hworld : session.inWorld = true
      swap
      · rw [if_pos (by simpa using hworld)]
        exact hkept (fun _ => rfl) (by rintro ⟨⟩) (still_nothing session)
      · rw [if_neg (by simpa using hworld)]
        dsimp only
        rw [if_pos rfl]
        have hclosed := still_disconnectNet (D := D)
          { session with manualDisconnect := false, lastReconnectAttempt := now }
        have hpolicy : ∀ net, policy { (disconnectNet { session with
            manualDisconnect := false, lastReconnectAttempt := now } : Result D).1 with net } =
            { policy session with manualDisconnect := false, lastReconnectAttempt := now } := by
          intro net
          exact hclosed.policy
        rw [Result.andThen, dials_append, hclosed.dials, hpolicy]
        dsimp only
        rw [show ∀ asked : List Request, dials (.dial true now :: asked.map .net : List (Action D)) =
          [(true, now)] from fun asked => congrArg ((true, now) :: ·) (dials_requests asked)]
        exact .asked dial now hworld
  | disconnect =>
      have hclosed := still_disconnectNet (D := D) { session with manualDisconnect := true }
      rw [step, SessionModel.disconnect, if_pos rfl, hclosed.policy, hclosed.dials]
      exact .stopped
  | sendChat text =>
      refine hkept (fun _ => rfl) (by rintro ⟨⟩) ?_
      rw [step, sendChat]
      split
      · exact still_nothing session
      · exact ⟨rfl, dials_requests _⟩
  | setServer hostPort =>
      refine hkept (fun _ => rfl) (by rintro ⟨⟩) ⟨?_, rfl⟩
      rw [step, setServer]
      repeat' split
      all_goals rfl
  | setCloneOption option on =>
      refine hkept (fun _ => rfl) (by rintro ⟨⟩) ?_
      rw [step, setCloneOption]
      repeat' split
      all_goals exact ⟨rfl, rfl⟩

end Step

section Runs

variable [CppFloat F32] [CppFloat D] [Libm F32] [Narrow D F32] [Widen F32 D]

/-- Whether a client is in a world after some inputs. -/
def inWorldAfter (inputs : List (Input D)) : Bool :=
  inputs.foldl (fun world input => worldAfter world input.event) false

/-- The attempts to connect a client makes at an input, after some others. -/
def attempts (config : Config) (gameVersion : UInt32) (enetReady : Bool) (before : List (Input D))
    (input : Input D) : List (Bool × Time) :=
  dials (step (Client.after config gameVersion enetReady before).session input.event).2

variable (config : Config) (gameVersion : UInt32) (enetReady : Bool)

theorem effect_after (before : List (Input D)) (input : Input D) :
    Effect (policy (Client.after config gameVersion enetReady before).session) input.event
      (policy (Client.after config gameVersion enetReady (before ++ [input])).session)
      (attempts config gameVersion enetReady before input) := by
  rw [Client.after, Client.after, run_concat]
  exact step_effect _ _

theorem inWorld_after (inputs : List (Input D)) :
    (policy (Client.after config gameVersion enetReady inputs).session).inWorld =
      inWorldAfter inputs := by
  induction inputs using List.reverseRecOn with
  | nil => rfl
  | append_singleton inputs input ih =>
      have hfold : inWorldAfter (inputs ++ [input]) =
          worldAfter (inWorldAfter inputs) input.event := by
        rw [inWorldAfter, List.foldl_append]
        rfl
      rw [(effect_after _ _ _ inputs input).world, ih, hfold]

variable {config gameVersion enetReady}

/-- After a manual disconnect, and nothing that resumes, attempts are off. -/
theorem stopped_after {earlier between : List (Input D)} {stop : Input D}
    (hstop : stop.event = .disconnect)
    (hresumes : ∀ mid other rest, between = mid ++ other :: rest →
      ¬ Resumes (inWorldAfter (earlier ++ stop :: mid)) other.event) :
    (policy (Client.after config gameVersion enetReady
      (earlier ++ stop :: between)).session).manualDisconnect = true := by
  induction between using List.reverseRecOn with
  | nil =>
      have heffect := effect_after config gameVersion enetReady earlier stop
      rw [hstop] at heffect
      exact heffect.stops
  | append_singleton between input ih =>
      have hbefore := ih fun mid other rest hsplit =>
        hresumes mid other (rest ++ [input]) (by rw [hsplit]; simp)
      have heffect := effect_after config gameVersion enetReady (earlier ++ stop :: between) input
      rw [show earlier ++ stop :: (between ++ [input]) = (earlier ++ stop :: between) ++ [input] by
        simp]
      refine (heffect.stays_stopped hbefore ?_).1
      rw [inWorld_after]
      exact hresumes between input [] rfl

/-- The time of an attempt is remembered until the next attempt, or the next world. -/
theorem remembered_after {earlier between : List (Input D)} {last : Input D} {manual : Bool}
    {time : Time} (hlast : (manual, time) ∈ attempts config gameVersion enetReady earlier last)
    (hbetween : ∀ mid other rest, between = mid ++ other :: rest → ¬ Enters other.event ∧
      attempts config gameVersion enetReady (earlier ++ last :: mid) other = []) :
    (policy (Client.after config gameVersion enetReady
      (earlier ++ last :: between)).session).lastReconnectAttempt = time := by
  induction between using List.reverseRecOn with
  | nil => exact ((effect_after _ _ _ earlier last).of_dial hlast).2.1
  | append_singleton between input ih =>
      have hbefore := ih fun mid other rest hsplit =>
        hbetween mid other (rest ++ [input]) (by rw [hsplit]; simp)
      obtain ⟨henters, hnone⟩ := hbetween between input [] rfl
      rw [show earlier ++ last :: (between ++ [input]) = (earlier ++ last :: between) ++ [input] by
        simp]
      exact ((effect_after _ _ _ _ input).lastReconnectAttempt_eq henters hnone).trans hbefore

/-- In every run of a client, an event makes one attempt to connect at most, and in a
world only; none comes between a manual disconnect and the next manual connect in a world
or the next world; and an automatic one comes 10 s after the previous attempt at least,
if no world was entered in between. -/
theorem reconnect_policy (config : Config) (gameVersion : UInt32) (enetReady : Bool)
    (before : List (Input D)) (input : Input D) :
    let dials := attempts config gameVersion enetReady before input
    dials.length ≤ 1 ∧
    (dials ≠ [] → inWorldAfter before = true) ∧
    (∀ earlier stop between, before = earlier ++ stop :: between → stop.event = .disconnect →
      (∀ mid other rest, between ++ [input] = mid ++ other :: rest →
        ¬ Resumes (inWorldAfter (earlier ++ stop :: mid)) other.event) →
      dials = []) ∧
    (∀ earlier last between, before = earlier ++ last :: between →
      (∀ mid other rest, between = mid ++ other :: rest → ¬ Enters other.event ∧
        attempts config gameVersion enetReady (earlier ++ last :: mid) other = []) →
      ∀ manual previous now, (manual, previous) ∈ attempts config gameVersion enetReady earlier last →
        (false, now) ∈ dials → previous + 10000000000 ≤ now) := by
  intro dials
  have heffect := effect_after config gameVersion enetReady before input
  refine ⟨heffect.length_dials, fun hdials => ?_, ?_, ?_⟩
  · obtain ⟨⟨manual, now⟩, hmem⟩ := List.exists_mem_of_ne_nil _ hdials
    rw [← inWorld_after config gameVersion enetReady]
    exact (heffect.of_dial hmem).1
  · rintro earlier stop between rfl hstop hresumes
    have hstopped : (policy (Client.after config gameVersion enetReady
        (earlier ++ stop :: between)).session).manualDisconnect = true :=
      stopped_after hstop fun mid other rest hsplit =>
        hresumes mid other (rest ++ [input]) (by rw [hsplit]; simp)
    refine (heffect.stays_stopped hstopped ?_).2
    rw [inWorld_after]
    exact hresumes between input [] rfl
  · rintro earlier last between rfl hbetween manual previous now hlast hdial
    have hwait := (heffect.of_dial hdial).2.2 rfl
    rwa [remembered_after hlast hbetween] at hwait

end Runs

end F4MP.Reconnect
