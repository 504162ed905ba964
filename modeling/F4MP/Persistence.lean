import F4MP.Reconnect

/-!
A client that is meant to be connected keeps trying: ten seconds never pass without an
attempt while it is in a world, unless it is connected.
-/

namespace F4MP.Persistence

open F4MP.Types
open F4MP.Arith
open F4MP.ServerModel (Time)
open F4MP.NetClientModel (NetClient Dial timedOut connectTimeout)
open F4MP.RemotePlayersModel
open F4MP.SessionModel
open F4MP.SessionSteps
open F4MP.ClientRun
open F4MP.Reconnect
open F4MP.Library.Runs

variable {D : Type}

/-- The times that are read in an event about the connection. -/
def readings : Event D → List Time
  | .tick input => [input.pumpNow, input.reconnectNow, input.dial.now]
  | .connect dial now => [now, dial.now]
  | _ => []

/-- A session that is connecting afterwards was so before, or an attempt was made, at one
of the times. -/
structure Leads (times : List Time) (session : Session) (result : Result D) : Prop where
  auto : result.1.config.autoConnect = session.config.autoConnect
  net : result.1.net.state = .kConnecting → result.1.net = session.net ∨
    dials result.2 ≠ [] ∧ result.1.net.host = true ∧ result.1.net.connectStart ∈ times

section Parts

variable {times : List Time} {session : Session} {result : Result D}

theorem Leads.andThen (h : Leads times session result) {next : Session → Result D}
    (hnext : Leads times result.1 (next result.1)) : Leads times session (result.andThen next) where
  auto := hnext.auto.trans h.auto
  net := by
    intro hconnecting
    rw [Result.andThen, dials_append]
    rcases hnext.net hconnecting with hsame | ⟨hdials, hattempt⟩
    · change (next result.1).1.net.state = _ at hconnecting
      rw [hsame] at hconnecting
      rcases h.net hconnecting with hold | ⟨hdials, hhost, hstart⟩
      · exact .inl (hsame.trans hold)
      · dsimp only
        rw [hsame]
        exact .inr ⟨fun hnone => hdials (List.append_eq_nil_iff.mp hnone).1, hhost, hstart⟩
    · exact .inr ⟨fun hnone => hdials (List.append_eq_nil_iff.mp hnone).2, hattempt⟩

theorem leads_same (hauto : result.1.config.autoConnect = session.config.autoConnect)
    (hnet : result.1.net = session.net) : Leads times session result :=
  ⟨hauto, fun _ => .inl hnet⟩

theorem leads_elsewhere (hauto : result.1.config.autoConnect = session.config.autoConnect)
    (hstate : result.1.net.state ≠ .kConnecting) : Leads times session result :=
  ⟨hauto, fun hconnecting => absurd hconnecting hstate⟩

theorem leads_disconnectNet (session : Session) :
    Leads times session (disconnectNet session : Result D) := by
  rw [disconnectNet]
  split
  · exact leads_same rfl rfl
  · exact leads_elsewhere rfl (by rintro ⟨⟩)

theorem connect_connecting {net : NetClient} {dial : Dial} {host : Bytes} {port : UInt16}
    (h : (NetClientModel.connect net dial host port).2.1.state = .kConnecting) :
    (NetClientModel.connect net dial host port).2.1 = net ∨
      (NetClientModel.connect net dial host port).2.1.host = true ∧
        (NetClientModel.connect net dial host port).2.1.connectStart = dial.now := by
  rw [NetClientModel.connect] at h ⊢
  by_cases hready : (!net.enetReady) = true
  · rw [if_pos hready]
    exact .inl rfl
  · rw [if_neg hready] at h ⊢
    dsimp only at h ⊢
    split at h
    · cases h
    · rename_i hcreated
      rw [if_neg hcreated]
      refine .inr ⟨?_, rfl⟩
      simp only [Bool.or_eq_true, Bool.not_eq_true', not_or, Bool.not_eq_false] at hcreated
      exact (Bool.or_eq_true _ _).mpr hcreated.1.1

theorem leads_dialled (session : Session) (manual : Bool) (dial : Dial) (now : Time) (host : Bytes)
    (port : UInt16) (hmem : dial.now ∈ times) :
    Leads times session
      (({ session with net := (NetClientModel.connect session.net dial host port).2.1 },
        .dial manual now :: (NetClientModel.connect session.net dial host port).2.2.map .net) :
        Result D) := by
  refine ⟨rfl, fun hconnecting => (connect_connecting hconnecting).imp_right fun hattempt => ?_⟩
  refine ⟨?_, hattempt.1, hattempt.2 ▸ hmem⟩
  rintro ⟨⟩

theorem leads_connect (session : Session) (manual : Bool) (dial : Dial) (now : Time)
    (hmem : dial.now ∈ times) :
    Leads times session (connect session manual dial now : Result D) := by
  rw [connect]
  split
  · exact leads_same rfl rfl
  · dsimp only
    split
    · have hleft : Leads times
          { session with manualDisconnect := false, lastReconnectAttempt := now }
          (disconnectNet
            { session with manualDisconnect := false, lastReconnectAttempt := now } : Result D) :=
        leads_disconnectNet _
      have hclosed : Leads times session (disconnectNet
          { session with manualDisconnect := false, lastReconnectAttempt := now } : Result D) :=
        ⟨hleft.auto, hleft.net⟩
      exact hclosed.andThen (leads_dialled _ _ _ _ _ _ hmem)
    · split
      · exact leads_same rfl rfl
      · exact leads_dialled _ _ _ _ _ _ hmem

theorem leads_autoConnect (session : Session) (dial : Dial) (now : Time) (hmem : dial.now ∈ times) :
    Leads times session (autoConnect session dial now : Result D) := by
  rw [autoConnect]
  split
  · have hattempt : Leads times { session with lastReconnectAttempt := now }
        (connect { session with lastReconnectAttempt := now } false dial now : Result D) :=
      leads_connect _ _ _ _ hmem
    exact ⟨hattempt.auto, hattempt.net⟩
  · exact leads_same rfl rfl

variable [CppFloat F32]

theorem leads_handlePacket (session : Session) (bytes : Bytes) (reading : Reading D) :
    Leads times session (handlePacket session bytes reading) := by
  have hrest := (handlePacket_spec session bytes reading).1.rest
  refine leads_same ?_ ?_ <;> rw [hrest]

theorem leads_handleNetEvents (session : Session) (events : List (NetEvent D)) :
    Leads times session (handleNetEvents session events) := by
  induction events generalizing session with
  | nil => exact leads_same rfl rfl
  | cons event events ih =>
      refine Leads.andThen ?_ (ih _)
      cases event with
      | connect playerName => exact leads_elsewhere rfl (by rintro ⟨⟩)
      | receive bytes reading => exact leads_handlePacket session bytes reading
      | disconnect => exact leads_elsewhere rfl (by rintro ⟨⟩)

theorem leads_pump (session : Session) (events : List (NetEvent D)) (now : Time) :
    Leads times session (pump session events now) := by
  rw [pump]
  split
  · exact leads_same rfl rfl
  · refine (leads_handleNetEvents session events).andThen ?_
    split
    · exact leads_elsewhere rfl (by rintro ⟨⟩)
    · exact leads_same rfl rfl

theorem leads_play (session : Session) (input : TickInput D) :
    Leads times session (play input session) := by
  have hrest := (play_spec session input).1
  refine leads_same ?_ ?_ <;> rw [hrest]

theorem leads_step (session : Session) (event : Event D) :
    Leads (readings event) session (step session event) := by
  cases event with
  | enterWorld | newGame | leaveWorld | preSave | setPlayerName | setCloneBase | actorDeleted =>
      exact leads_same rfl rfl
  | disconnect =>
      have hclosed : Leads [] { session with manualDisconnect := true }
          (disconnectNet { session with manualDisconnect := true } : Result D) :=
        leads_disconnectNet _
      exact ⟨hclosed.auto, hclosed.net⟩
  | connect dial now => exact leads_connect _ _ _ _ (by simp [readings])
  | tick input =>
      rw [step, tick_eq]
      refine (leads_pump _ _ _).andThen ?_
      split
      · exact leads_same rfl rfl
      · exact (leads_autoConnect _ _ _ (by simp [readings])).andThen (leads_play _ _)
  | sendChat text =>
      rw [step, sendChat]
      split <;> exact leads_same rfl rfl
  | setServer hostPort =>
      rw [step, setServer]
      split
      · exact leads_same rfl rfl
      · split <;> exact leads_same rfl rfl
  | setCloneOption option on =>
      rw [step, setCloneOption]
      repeat' (split; · exact leads_same rfl rfl)
      exact leads_same rfl rfl

end Parts

/-- In a world, and meant to be connected. -/
structure Wants (session : Session) : Prop where
  inWorld : session.inWorld = true
  willing : session.manualDisconnect = false
  auto : session.config.autoConnect = true

/-- Nothing that is waited for began after the time. -/
structure Dated (time : Time) (session : Session) : Prop where
  attempted : session.lastReconnectAttempt ≤ time
  connecting : session.net.state = .kConnecting →
    session.net.host = true ∧ session.net.connectStart ≤ time

section Steps

variable [CppFloat F32] {time : Time} {session : Session} {event : Event D}

theorem dated_step (h : Dated time session) (hreadings : ∀ t ∈ readings event, t ≤ time) :
    Dated time (step session event).1 := by
  have heffect := step_effect session event
  have hleads := leads_step session event
  refine ⟨?_, fun hconnecting => ?_⟩
  · change (policy (step session event).1).lastReconnectAttempt ≤ time
    generalize policy (step session event).1 = after at heffect ⊢
    generalize dials (step session event).2 = made at heffect
    cases heffect with
    | entered => exact Nat.zero_le _
    | left | stopped | kept => exact h.attempted
    | asked dial now => exact hreadings now (by simp [readings])
    | retried input => exact hreadings input.reconnectNow (by simp [readings])
  · rcases hleads.net hconnecting with hsame | ⟨-, hhost, hstart⟩
    · rw [hsame] at hconnecting ⊢
      exact h.connecting hconnecting
    · exact ⟨hhost, hreadings _ hstart⟩

theorem dated_quiet (h : Dated time session) (hnone : dials (step session event).2 = []) :
    Dated time (step session event).1 := by
  have heffect := step_effect session event
  rw [hnone] at heffect
  refine ⟨?_, fun hconnecting => ?_⟩
  · change (policy (step session event).1).lastReconnectAttempt ≤ time
    generalize policy (step session event).1 = after at heffect ⊢
    cases heffect with
    | entered => exact Nat.zero_le _
    | left | stopped | kept => exact h.attempted
  · rcases (leads_step session event).net hconnecting with hsame | ⟨hdials, -⟩
    · rw [hsame] at hconnecting ⊢
      exact h.connecting hconnecting
    · exact absurd hnone hdials

theorem wants_step (h : Wants session) (hleaves : event ≠ .leaveWorld)
    (hstops : event ≠ .disconnect) :
    Wants (step session event).1 := by
  have heffect := step_effect session event
  have hpolicy : (policy (step session event).1).inWorld = true ∧
      (policy (step session event).1).manualDisconnect = false := by
    generalize policy (step session event).1 = after at heffect ⊢
    generalize dials (step session event).2 = made at heffect
    cases heffect with
    | entered => exact ⟨rfl, rfl⟩
    | left => exact absurd rfl hleaves
    | stopped => exact absurd rfl hstops
    | asked => exact ⟨h.inWorld, rfl⟩
    | retried | kept => exact ⟨h.inWorld, h.willing⟩
  exact ⟨hpolicy.1, hpolicy.2, (leads_step session event).auto.trans h.auto⟩

theorem pump_gives_up (h : Dated time session) {events : List (NetEvent D)} {now : Time}
    (hnow : time + connectTimeout < now) :
    (pump session events now).1.net.state ≠ .kConnecting := by
  intro hconnecting
  have hpumped : Leads [] session (pump session events now) := leads_pump _ _ _
  have hsame : (pump session events now).1.net = session.net :=
    (hpumped.net hconnecting).resolve_right fun hattempt =>
      hattempt.1 (still_pump session events now).dials
  rw [hsame] at hconnecting
  obtain ⟨hhost, hstart⟩ := h.connecting hconnecting
  have htimedOut : timedOut session.net now = true := by
    have hlate : connectTimeout < now - session.net.connectStart :=
      Nat.lt_sub_iff_add_lt.mpr
        ((Nat.add_comm _ _).trans_lt ((Nat.add_le_add_right hstart _).trans_lt hnow))
    simp [timedOut, hconnecting, hlate]
  rw [pump, hhost, Bool.not_true, if_neg Bool.false_ne_true, Result.andThen] at hsame
  dsimp only at hsame
  split at hsame
  · have hreset := congrArg NetClient.state hsame
    rw [hconnecting] at hreset
    cases hreset
  · rename_i hpatient
    rw [show (handleNetEvents session events).1.net = session.net from hsame] at hpatient
    exact hpatient htimedOut

theorem tries_again (hwants : Wants session) (hdated : Dated time session) (input : TickInput D)
    (hpump : time + connectTimeout < input.pumpNow)
    (hretry : time + reconnectInterval ≤ input.reconnectNow) :
    dials (step session (.tick input)).2 ≠ [] ∨
      (step session (.tick input)).1.net.state = .kConnected := by
  have hstill := still_pump session input.events input.pumpNow
  have hleads : Leads [] session (pump session input.events input.pumpNow) := leads_pump _ _ _
  -- an attempt that goes on is given up first
  have hgivesUp : (pump session input.events input.pumpNow).1.net.state ≠ .kConnecting :=
    pump_gives_up hdated hpump
  rw [step, tick_eq, Result.andThen, dials_append, hstill.dials, List.nil_append]
  generalize pump session input.events input.pumpNow = pumped at hstill hleads hgivesUp ⊢
  have hworld : pumped.1.inWorld = true :=
    (congrArg Policy.inWorld hstill.policy).trans hwants.inWorld
  have hwilling : pumped.1.manualDisconnect = false :=
    (congrArg Policy.manualDisconnect hstill.policy).trans hwants.willing
  have hlast : pumped.1.lastReconnectAttempt ≤ time :=
    (congrArg Policy.lastReconnectAttempt hstill.policy).trans_le hdated.attempted
  dsimp only
  rw [hworld, Bool.not_true, if_neg Bool.false_ne_true, Result.andThen, dials_append]
  cases hstate : pumped.1.net.state with
  | kConnecting => exact absurd hstate hgivesUp
  | kConnected =>
      right
      have hnothing : (autoConnect pumped.1 input.dial input.reconnectNow : Result D) =
          (pumped.1, []) := by
        rw [autoConnect, if_neg]
        simp [hstate]
      rw [hnothing]
      dsimp only
      rw [(play_spec pumped.1 input).1]
      exact hstate
  | kDisconnected =>
      left
      have hdue : input.reconnectNow - pumped.1.lastReconnectAttempt ≥ reconnectInterval :=
        Nat.le_sub_of_add_le
          ((Nat.add_comm _ _).trans_le ((Nat.add_le_add_right hlast _).trans hretry))
      have hauto : pumped.1.config.autoConnect = true := hleads.auto.trans hwants.auto
      have hattempt :
          dials (autoConnect pumped.1 input.dial input.reconnectNow : Result D).2 ≠ [] := by
        rw [autoConnect, if_pos (by simp [hstate, hauto, hwilling, hdue]), connect,
          if_neg (by simp [hworld])]
        dsimp only
        rw [if_neg Bool.false_ne_true, if_neg (by simp [hstate])]
        rintro ⟨⟩
      exact fun hnone => hattempt (List.append_eq_nil_iff.mp hnone).1

end Steps

section Runs

variable [CppFloat F32] [CppFloat D] [Libm F32] [Narrow D F32] [Widen F32 D]

/-- All times that were read about the connection. -/
def clockOf (inputs : List (Input D)) : List Time :=
  inputs.flatMap fun input => readings input.event

variable (config : Config) (gameVersion : UInt32) (enetReady : Bool)

/-- Whatever began did so at a time that was read. -/
theorem dated_after {inputs : List (Input D)} {time : Time}
    (hclock : ∀ t ∈ clockOf inputs, t ≤ time) :
    Dated time (Client.after config gameVersion enetReady inputs).session := by
  induction inputs using List.reverseRecOn with
  | nil => exact ⟨Nat.zero_le _, by rintro ⟨⟩⟩
  | append_singleton inputs input ih =>
      rw [clockOf, List.flatMap_append, List.flatMap_singleton] at hclock
      rw [Client.after, run_concat]
      refine dated_step (ih fun t ht => ?_) fun t ht => ?_
      · exact hclock t (List.mem_append_left _ ht)
      · exact hclock t (List.mem_append_right _ ht)

/-- Among some inputs, after others, there is one at which an attempt is made. -/
def Tries (before stretch : List (Input D)) : Prop :=
  ∃ mid other rest, stretch = mid ++ other :: rest ∧
    attempts config gameVersion enetReady (before ++ mid) other ≠ []

/-- In every run: while a client is in a world and meant to be connected, and the player
neither leaves the world nor disconnects, it tries to connect, or is connected, by any frame
ten seconds after all that was before. -/
theorem keeps_trying (before stretch : List (Input D)) (last : Input D) (input : TickInput D)
    (htick : last.event = .tick input)
    (hwants : Wants (Client.after config gameVersion enetReady before).session)
    (hstays : ∀ other ∈ stretch, other.event ≠ .leaveWorld ∧ other.event ≠ .disconnect)
    (hlate : ∀ t ∈ 0 :: clockOf before, t + reconnectInterval ≤ input.pumpNow)
    (hclock : input.pumpNow ≤ input.reconnectNow) :
    Tries config gameVersion enetReady before (stretch ++ [last]) ∨
      (Client.after config gameVersion enetReady
        (before ++ stretch ++ [last])).session.net.state = .kConnected := by
  have hwaits : Tries config gameVersion enetReady before stretch ∨
      Wants (Client.after config gameVersion enetReady (before ++ stretch)).session ∧
        Dated (input.pumpNow - reconnectInterval)
          (Client.after config gameVersion enetReady (before ++ stretch)).session := by
    induction stretch using List.reverseRecOn with
    | nil =>
        refine .inr ⟨by rwa [List.append_nil], ?_⟩
        rw [List.append_nil]
        exact dated_after _ _ _ fun t ht =>
          Nat.le_sub_of_add_le (hlate t (List.mem_cons_of_mem _ ht))
    | append_singleton stretch other ih =>
        rcases ih fun other hother => hstays other (List.mem_append_left _ hother) with
          ⟨mid, found, rest, hsplit, htries⟩ | ⟨hwanted, hdated⟩
        · exact .inl ⟨mid, found, rest ++ [other], by simp [hsplit], htries⟩
        · by_cases hnone : attempts config gameVersion enetReady (before ++ stretch) other = []
          · obtain ⟨hleaves, hstops⟩ := hstays other (by simp)
            right
            rw [← List.append_assoc, Client.after, run_concat]
            exact ⟨wants_step hwanted hleaves hstops, dated_quiet hdated hnone⟩
          · exact .inl ⟨stretch, other, [], rfl, hnone⟩
  have hstart : reconnectInterval ≤ input.pumpNow := by
    simpa using hlate 0 List.mem_cons_self
  rcases hwaits with ⟨mid, found, rest, hsplit, htries⟩ | ⟨hwanted, hdated⟩
  · exact .inl ⟨mid, found, rest ++ [last], by simp [hsplit], htries⟩
  · have htimes : input.pumpNow - reconnectInterval + reconnectInterval = input.pumpNow :=
      Nat.sub_add_cancel hstart
    have hpump : input.pumpNow - reconnectInterval + connectTimeout < input.pumpNow := by
      rw [← htimes, Nat.add_sub_cancel]
      exact Nat.add_lt_add_left (by decide) _
    rcases tries_again hwanted hdated input hpump (htimes.trans_le hclock) with htries | hconnected
    · exact .inl ⟨stretch, last, [], rfl, by rwa [attempts, htick]⟩
    · right
      rw [Client.after, run_concat]
      change (step _ last.event).1.net.state = _
      rwa [htick]

end Runs

section Example

open F4MP.Native
open F4MP.Connection (frame visit)

def lost : List (Input F64) := [⟨.tick (frame [.disconnect] 20300000000), fun _ => .keep _⟩]

def later : Input F64 := ⟨.tick (frame [] 31000000000), fun _ => .keep _⟩

/-- It tries again. -/
theorem tries_after_loss : Tries {} 0 true (visit.take 4) (lost ++ [later]) := by
  have hwants : Wants (Client.after {} 0 true (visit.take 4)).session :=
    ⟨by decide +kernel, by decide +kernel, by decide +kernel⟩
  have hstays : ∀ other ∈ lost, other.event ≠ .leaveWorld ∧ other.event ≠ .disconnect := by
    intro other hother
    rw [List.mem_singleton.mp hother]
    exact ⟨by rintro ⟨⟩, by rintro ⟨⟩⟩
  refine (keeps_trying {} 0 true (visit.take 4) lost later (frame [] 31000000000) rfl hwants hstays
    (by decide +kernel) le_rfl).resolve_right fun hconnected => ?_
  have hconnecting : (Client.after {} 0 true
      (visit.take 4 ++ lost ++ [later])).session.net.state = .kConnecting := by
    decide +kernel
  cases hconnecting.symm.trans hconnected

end Example

end F4MP.Persistence
