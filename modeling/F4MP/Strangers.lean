import F4MP.Handshake
import F4MP.Relay
import F4MP.ServerAlike

/-!
Connections that never complete their handshake leave no trace: a run without their
events has the same players, bots and ids, and sends every player the same.
-/

namespace F4MP.Strangers

open F4MP.Types
open F4MP.Protocol
open F4MP.Messages
open F4MP.Arith
open F4MP.ServerModel
open F4MP.ServerConsole
open F4MP.ServerRun
open F4MP.ServerTraffic
open F4MP.ServerEffects
open F4MP.Handshake
open F4MP.Participants
open F4MP.Relay
open F4MP.ServerAlike
open F4MP.Library.HashTable
open F4MP.Library.Runs

/-- Whether the connection that is open at `peer` completes its handshake in the inputs
to come. -/
def completes (peer : Peer) : List Input → Bool
  | [] => false
  | input :: rest =>
      match input.event with
      | .disconnect p => if p = peer then false else completes peer rest
      | .receive p bytes => (p = peer && isHello bytes) || completes peer rest
      | _ => completes peer rest

/-- For each peer with an open connection, whether that ever completes its handshake. -/
abbrev Conns := Peer → Option Bool

def Conns.next (conns : Conns) (input : Input) (rest : List Input) : Conns :=
  match input.event with
  | .connect p =>
      if conns p = none then Function.update conns p (some (completes p rest)) else conns
  | .disconnect p => Function.update conns p none
  | _ => conns

/-- The event belongs to a connection that never completes its handshake. -/
def ofStranger (conns : Conns) (input : Input) (rest : List Input) : Bool :=
  match input.event with
  | .connect p => (conns p).getD (completes p rest) = false
  | .receive p _ => conns p = some false
  | .disconnect p => conns p = some false
  | _ => false

/-- The inputs without those of strangers, if `future` is what comes after them. -/
def strip (future : List Input) : Conns → List Input → List Input
  | _, [] => []
  | conns, input :: rest =>
      let kept := strip future (conns.next input (rest ++ future)) rest
      if ofStranger conns input (rest ++ future) then kept else input :: kept

/-- The time and the event of an input, without the order of the map. -/
def stamp (input : Input) : Time × Event := (input.now, input.event)

/-- Two logs that differ at most in the order in which the players present are
announced after the welcome. -/
def SameLog (link link' : List Sent) : Prop :=
  link = link' ∨ ∃ before greeting greeting' after, SameGreeting greeting greeting' ∧
    link = before ++ greeting ++ after ∧ link' = before ++ greeting' ++ after

/-- What a relation on logs needs to be carried through a run. -/
structure LogRelation (R : List Sent → List Sent → Prop) : Prop where
  refl : ∀ link, R link link
  append : ∀ link link' more, R link link' → R (link ++ more) (link' ++ more)

theorem sameLog_relation : LogRelation SameLog where
  refl link := .inl rfl
  append link link' more h := by
    rcases h with rfl | ⟨before, greeting, greeting', after, hgreet, rfl, rfl⟩
    · exact .inl rfl
    · exact .inr ⟨before, greeting, greeting', after ++ more, hgreet, by simp, by simp⟩

theorem eq_relation : LogRelation Eq where
  refl _ := rfl
  append _ _ more h := congrArg (· ++ more) h

/-- The network of a run, and that of the run without strangers. -/
structure Related (R : List Sent → List Sent → Prop) (conns : Conns) (rest : List Input)
    (net net' : Network) : Prop where
  alike : Alike (fun c => conns c = some false) net.server net'.server
  live : ∀ c, (net.server.players.lookup c).isSome = (conns c).isSome
  never : ∀ c, conns c = some false → completes c rest = false
  links : ∀ c player, net.server.players.lookup c = some player → conns c = some true →
    (player.handshaked = true → R (net.link c) (net'.link c)) ∧
    (player.handshaked = false → net'.link c = net.link c)

theorem never_next {conns : Conns} {input : Input} {rest : List Input}
    (h : ∀ c, conns c = some false → completes c (input :: rest) = false) (c : Peer)
    (hc : conns.next input rest c = some false) : completes c rest = false := by
  rw [Conns.next] at hc
  have hnever := h c
  rw [completes] at hnever
  cases hevent : input.event with
  | connect p =>
      simp only [hevent] at hc hnever
      split at hc
      · by_cases hp : c = p
        · subst hp
          rw [Function.update_self] at hc
          exact Option.some.inj hc
        · rw [Function.update_of_ne hp] at hc
          exact hnever hc
      · exact hnever hc
  | disconnect p =>
      simp only [hevent] at hc hnever
      by_cases hp : c = p
      · subst hp
        rw [Function.update_self] at hc
        cases hc
      · rw [Function.update_of_ne hp] at hc
        have hfalse := hnever hc
        rwa [if_neg (Ne.symm hp)] at hfalse
  | receive p bytes =>
      simp only [hevent] at hc hnever
      exact (Bool.or_eq_false_iff.mp (hnever hc)).2
  | updateBots | command =>
      simp only [hevent] at hc hnever
      exact hnever hc

theorem next_stranger {conns : Conns} {input : Input} {rest : List Input}
    (h : ofStranger conns input rest = false) (c : Peer) :
    conns.next input rest c = some false ↔ conns c = some false := by
  rw [ofStranger] at h
  rw [Conns.next]
  cases hevent : input.event with
  | connect p =>
      simp only [hevent] at h ⊢
      split
      · rename_i hnone
        rw [hnone] at h
        by_cases hp : c = p
        · subst hp
          rw [Function.update_self, hnone]
          simpa using h
        · rw [Function.update_of_ne hp]
      · rfl
  | disconnect p =>
      simp only [hevent] at h ⊢
      by_cases hp : c = p
      · subst hp
        rw [Function.update_self]
        simpa using h
      · rw [Function.update_of_ne hp]
  | receive | updateBots | command => rfl

theorem open_or_opens {conns : Conns} {input : Input} {rest : List Input} {c : Peer}
    (hc : conns.next input rest c = some true) (hcs : ¬ conns c = some false) :
    conns c = some true ∨ (input.event = .connect c ∧ conns c = none) := by
  cases hconn : conns c with
  | some completing =>
      cases completing with
      | true => exact .inl rfl
      | false => exact absurd hconn hcs
  | none =>
      rw [Conns.next] at hc
      cases hevent : input.event with
      | connect p =>
          by_cases hp : p = c
          · rw [hp]
            exact .inr ⟨rfl, rfl⟩
          · simp only [hevent] at hc
            split at hc
            · rw [Function.update_of_ne (Ne.symm hp), hconn] at hc
              cases hc
            · rw [hconn] at hc
              cases hc
      | disconnect p =>
          simp only [hevent, Function.update_apply, hconn, ite_self] at hc
          cases hc
      | receive | updateBots | command =>
          simp only [hevent, hconn] at hc
          cases hc

theorem not_stranger {conns : Conns} {input : Input} {rest : List Input}
    (h : ofStranger conns input rest = false) (peer : Peer)
    (hpeer : eventPeer input.event = some peer) : ¬ conns peer = some false := by
  intro hstranger
  rw [ofStranger] at h
  cases hevent : input.event with
  | connect p | disconnect p | receive p bytes =>
      rw [hevent] at h hpeer
      obtain rfl := Option.some.inj hpeer
      simp [hstranger] at h
  | updateBots | command =>
      rw [hevent] at hpeer
      cases hpeer

theorem Related.link_opens {R : List Sent → List Sent → Prop} {conns : Conns}
    {input kinput : Input} {rest : List Input} {net net' : Network}
    (h : Related R conns (input :: rest) net net')
    (hR : LogRelation R) (hsame : kinput.event = input.event) {c : Peer}
    (hc : conns.next input rest c = some true) (hcs : ¬ conns c = some false) :
    (joined net.server c = true →
      R (if opens net.server input c then [] else net.link c)
        (if opens net'.server kinput c then [] else net'.link c)) ∧
    (joined net.server c = false →
      (if opens net'.server kinput c then [] else net'.link c) =
        if opens net.server input c then [] else net.link c) := by
  have hopens : opens net'.server kinput c = opens net.server input c := by
    rw [opens, opens, hsame, h.alike.kept c hcs]
  rw [hopens]
  cases hnew : opens net.server input c with
  | true => exact ⟨fun _ => hR.refl [], fun _ => rfl⟩
  | false =>
      have hlive := h.live c
      have hconn : conns c = some true := by
        rcases open_or_opens hc hcs with hold | ⟨hconnect, hnone⟩
        · exact hold
        · rw [hnone] at hlive
          simp only [opens, hconnect, decide_true, Bool.true_and] at hnew
          rw [Option.isNone_eq_false_iff, hlive] at hnew
          cases hnew
      rw [hconn] at hlive
      obtain ⟨player, hplayer⟩ := Option.isSome_iff_exists.mp hlive
      rw [joined_eq hplayer]
      exact h.links c player hplayer hconn

theorem related_initial (R : List Sent → List Sent → Prop) (config : Config) (startTime : Time)
    (inputs : List Input) :
    Related R (fun _ => none) inputs (Network.initial config startTime)
      (Network.initial config startTime) where
  alike := ⟨rfl, fun _ _ => rfl, by simp, by simp⟩
  live _ := rfl
  never := by rintro _ ⟨⟩
  links := by rintro _ _ ⟨⟩

/-- Two runs that no player can tell apart by what it is sent. -/
structure Untouched (R : List Sent → List Sent → Prop) (net net' : Network) : Prop where
  players : ∀ c player, player.handshaked = true →
    (net'.server.players.lookup c = some player ↔ net.server.players.lookup c = some player)
  bots : net'.server.bots = net.server.bots
  nextId : net'.server.nextId = net.server.nextId
  logs : ∀ c, joined net.server c = true → R (net.link c) (net'.link c)

theorem Related.untouched {R : List Sent → List Sent → Prop} {conns : Conns} {rest : List Input}
    {net net' : Network} (h : Related R conns rest net net') : Untouched R net net' where
  players := by
    intro c player hshake
    by_cases hc : conns c = some false
    · rw [h.alike.gone c hc]
      refine ⟨by rintro ⟨⟩, fun hplayer => ?_⟩
      exact absurd (hshake.symm.trans (h.alike.quiet c player hc hplayer)) (by rintro ⟨⟩)
    · rw [h.alike.kept c hc]
  bots := h.alike.bots_eq
  nextId := h.alike.nextId_eq
  logs := by
    intro c hjoined
    obtain ⟨player, hplayer, hshake⟩ := joined_iff.mp hjoined
    have hlive := h.live c
    rw [hplayer] at hlive
    cases hconn : conns c with
    | none =>
        rw [hconn] at hlive
        cases hlive
    | some completing =>
        cases completing with
        | true => exact (h.links c player hplayer hconn).1 hshake
        | false =>
            exact absurd (hshake.symm.trans (h.alike.quiet c player hconn hplayer)) (by rintro ⟨⟩)

theorem exists_order {t : Server} {target : List (Sigma fun _ : Peer => Player)}
    (hperm : (roll t).Perm target) : ∃ order, roll (reorder t order) = target := by
  let rest := t.players.entries.filter fun entry => !entry.2.handshaked
  have hentries : t.players.entries.Perm (target ++ rest) :=
    (List.filter_append_perm _ t.players.entries).symm.trans (hperm.append_right rest)
  refine ⟨.toward (target ++ rest), ?_⟩
  have horder : (reorder t (.toward (target ++ rest))).players.entries = target ++ rest :=
    if_pos hentries
  rw [roll, horder, List.filter_append]
  have htarget : target.filter (·.2.handshaked) = target := by
    apply List.filter_eq_self.mpr
    exact fun entry hentry => (List.mem_filter.mp (hperm.mem_iff.mpr hentry)).2
  have hrest : rest.filter (·.2.handshaked) = [] := by
    apply List.filter_eq_nil_iff.mpr
    intro entry hentry
    have hopen := (List.mem_filter.mp hentry).2
    simpa using hopen
  rw [htarget, hrest, List.append_nil]

theorem hear_handshaked (trail : Trail) (bytes : Bytes) :
    (trail.hear (decode bytes)).handshaked = (trail.handshaked || isHello bytes) := by
  rw [isHello]
  cases hdecode : decode bytes with
  | none => simp [Trail.hear]
  | some m =>
      cases m with
      | hello hello =>
          by_cases hversion : hello.protocolVersion = currentProtocolVersion <;>
            simp [Trail.hear, hversion]
      | playerState msg =>
          simp only [Trail.hear, Bool.or_false]
          split <;> rfl
      | _ => simp [Trail.hear]

section Steps

variable [CppFloat F32] [Libm F32] [Platform]

theorem live_step (s : Server) (input : Input) (conns : Conns) (rest : List Input)
    (h : ∀ c, (s.players.lookup c).isSome = (conns c).isSome) (c : Peer) :
    ((step s input).1.players.lookup c).isSome = (conns.next input rest c).isSome := by
  have htrail := congrArg Option.isSome (trail_step s input c)
  rw [Option.isSome_map] at htrail
  rw [htrail, Trail.step, Conns.next]
  cases hevent : input.event with
  | connect p =>
      dsimp only
      by_cases hp : p = c
      · subst hp
        rw [if_pos rfl]
        split
        · rw [Function.update_self]
          rfl
        · rename_i hsome
          rw [Option.isSome_iff_ne_none.mpr hsome]
          rfl
      · rw [if_neg hp, Option.isSome_map, h c]
        split
        · rw [Function.update_of_ne (Ne.symm hp)]
        · rfl
  | disconnect p =>
      dsimp only
      by_cases hp : p = c
      · subst hp
        rw [if_pos rfl, Function.update_self]
        rfl
      · rw [if_neg hp, Option.isSome_map, h c, Function.update_of_ne (Ne.symm hp)]
  | receive p bytes =>
      dsimp only
      split <;> simp only [Option.isSome_map, h c]
  | updateBots | command => exact (Option.isSome_map ..).trans (h c)

section Related

variable {R : List Sent → List Sent → Prop} {conns : Conns} {input kinput : Input}
  {rest : List Input} {net net' : Network}

theorem Related.passedOver (h : Related R conns (input :: rest) net net')
    (halike : Alike (fun c => conns.next input rest c = some false)
      (step net.server input).1 net'.server)
    (hothers : ∀ c, conns.next input rest c = some true → conns c = some true ∧
      (step net.server input).1.players.lookup c = net.server.players.lookup c ∧
      sentTo c input.now (step net.server input).2 = []) :
    Related R (conns.next input rest) rest (net.step input) net' where
  alike := halike
  live := live_step net.server input conns rest h.live
  never := never_next h.never
  links := by
    intro c player hplayer hc
    obtain ⟨hold, hkept, hnothing⟩ := hothers c hc
    have hplayer' : net.server.players.lookup c = some player := hkept.symm.trans hplayer
    have hopens : opens net.server input c = false := by simp [opens, hplayer']
    have hlink : (net.step input).link c = net.link c := by
      simp [Network.step, hopens, hnothing]
    rw [hlink]
    exact h.links c player hplayer' hold

theorem Related.unmoved (h : Related R conns (input :: rest) net net')
    (hnext : conns.next input rest = conns)
    (hserver : (step net.server input).1 = reorder net.server input.order)
    (hnothing : ∀ c, conns c = some true → sentTo c input.now (step net.server input).2 = []) :
    Related R (conns.next input rest) rest (net.step input) net' := by
  apply h.passedOver
  · rw [hnext, hserver]
    exact h.alike.reorder input.order (.keep _)
  · intro c hc
    rw [hnext] at hc
    rw [hserver, lookup_reorder]
    exact ⟨hc, rfl, hnothing c hc⟩

theorem Related.stranger (h : Related R conns (input :: rest) net net')
    (hstranger : ofStranger conns input rest = true) :
    Related R (conns.next input rest) rest (net.step input) net' := by
  have hs : Alike (fun c => conns c = some false) (reorder net.server input.order) net'.server :=
    h.alike.reorder input.order (.keep _)
  rw [ofStranger] at hstranger
  cases hevent : input.event with
  | connect p =>
      have hstep : step net.server input =
          handleConnect (reorder net.server input.order) input.now p := by
        rw [step, hevent, handle]
      have hlive := h.live p
      simp only [hevent, decide_eq_true_eq] at hstranger
      cases hconn : conns p with
      | none =>
          -- a new stranger
          rw [hconn] at hlive hstranger
          have hnew : (reorder net.server input.order).players.lookup p = none := by
            rw [lookup_reorder]
            simpa using hlive
          have hnext : conns.next input rest = Function.update conns p (some false) := by
            simp only [Conns.next, hevent, hconn, if_true]
            rw [← hstranger]
            rfl
          apply h.passedOver
          · rw [hstep, hnext]
            convert hs.strangerConnects hnew input.now using 2 with c
            by_cases hc : c = p <;> simp [hc]
          · intro c hc
            have hne : c ≠ p := by
              rintro rfl
              rw [hnext, Function.update_self] at hc
              cases hc
            rw [hnext, Function.update_of_ne hne] at hc
            rw [hstep, handleConnect, lookup_connected hnew, if_neg hne, lookup_reorder]
            exact ⟨hc, rfl, rfl⟩
      | some completing =>
          -- the connection is there already
          rw [hconn] at hlive
          obtain ⟨player, hplayer⟩ := Option.isSome_iff_exists.mp hlive
          have hsame : step net.server input = (reorder net.server input.order, []) := by
            rw [hstep, handleConnect, emplace_of_some ((lookup_reorder ..).trans hplayer)]
          apply h.unmoved
          · simp [Conns.next, hevent, hconn]
          · rw [hsame]
          · intro c _
            rw [hsame, sentTo_nil]
  | receive p bytes =>
      have hstep : step net.server input =
          handlePacket (reorder net.server input.order) input.now p bytes := by
        rw [step, hevent, handle]
      simp only [hevent, decide_eq_true_eq] at hstranger
      have hlive := h.live p
      rw [hstranger] at hlive
      obtain ⟨player, hplayer⟩ := Option.isSome_iff_exists.mp hlive
      have hhello : isHello bytes = false := by
        have hnever := h.never p hstranger
        simp only [completes, hevent, decide_true, Bool.true_and, Bool.or_eq_false_iff] at hnever
        exact hnever.1
      obtain ⟨hserver, hnothing⟩ := stranger_handlePacket input.now
        (s := reorder net.server input.order) ((lookup_reorder ..).trans hplayer)
        (h.alike.quiet p player hstranger hplayer) hhello
      apply h.unmoved
      · simp [Conns.next, hevent]
      · rw [hstep, hserver]
      · intro c hc
        rw [hstep]
        apply hnothing
        rintro rfl
        exact absurd (hc.symm.trans hstranger) (by rintro ⟨⟩)
  | disconnect p =>
      have hstep : step net.server input =
          handleDisconnect (reorder net.server input.order) p := by
        rw [step, hevent, handle]
      simp only [hevent, decide_eq_true_eq] at hstranger
      have hnext : conns.next input rest = Function.update conns p none := by
        simp [Conns.next, hevent]
      obtain ⟨halike, hnothing⟩ := hs.strangerLeaves hstranger
      apply h.passedOver
      · rw [hstep, hnext]
        convert halike using 2 with c
        by_cases hc : c = p <;> simp [hc]
      · intro c hc
        have hne : c ≠ p := by
          rintro rfl
          rw [hnext, Function.update_self] at hc
          cases hc
        rw [hnext, Function.update_of_ne hne] at hc
        refine ⟨hc, ?_, by rw [hstep, hnothing, sentTo_nil]⟩
        rcases (step_effect net.server input).lookup_cases c with hkept | hother
        · rw [hkept, lookup_reorder]
        · simp [hevent, Ne.symm hne] at hother
  | updateBots | command =>
      rw [hevent] at hstranger
      cases hstranger

theorem Related.kept (h : Related R conns (input :: rest) net net') (hR : LogRelation R)
    (hown : ofStranger conns input rest = false) (hstamp : stamp kinput = stamp input)
    (hfinds : SameFinds (reorder net.server input.order) (reorder net'.server kinput.order))
    (hgreet : roll (reorder net'.server kinput.order) ≠ roll (reorder net.server input.order) →
      ∀ link greeting greeting', SameGreeting greeting greeting' →
        R (link ++ greeting) (link ++ greeting')) :
    Related R (conns.next input rest) rest (net.step input) (net'.step kinput) := by
  have hnow : kinput.now = input.now := congrArg Prod.fst hstamp
  have hevent : kinput.event = input.event := congrArg Prod.snd hstamp
  have hnext := next_stranger hown
  obtain ⟨halike, hsent⟩ := same_handle (h.alike.reorder input.order kinput.order) hfinds
    input.now (not_stranger hown)
  have hkstep : step net'.server kinput =
      handle (reorder net'.server kinput.order) input.now input.event := by
    rw [step, hnow, hevent]
  have hstep : step net.server input =
      handle (reorder net.server input.order) input.now input.event := rfl
  rw [← hkstep, ← hstep] at halike
  rw [← hkstep, ← hstep] at hsent
  refine ⟨?_, live_step net.server input conns rest h.live, never_next h.never, ?_⟩
  · have hsame : (fun c => conns.next input rest c = some false) = fun c => conns c = some false :=
      funext fun c => propext (hnext c)
    rw [hsame]
    exact halike
  · intro c player hplayer hc
    have hcs : ¬ conns c = some false := by
      rw [← hnext c, hc]
      rintro ⟨⟩
    obtain ⟨hjoined, hunjoined⟩ := h.link_opens hR hevent hc hcs
    have heffect := step_effect net.server input
    simp only [Network.step, hnow]
    constructor
    · intro hshake
      cases hbefore : joined net.server c with
      | true =>
          rcases hsent c with heq | ⟨hfalse, -⟩
          · rw [heq]
            exact hR.append _ _ _ (hjoined hbefore)
          · rw [joined_reorder, hbefore] at hfalse
            cases hfalse
      | false =>
          rw [hunjoined hbefore]
          rcases hsent c with heq | ⟨-, hroll, hgreeting⟩
          · rw [heq]
            exact hR.refl _
          · exact hgreet hroll _ _ _ hgreeting
    · intro hshake
      have hbefore : joined net.server c = false := by
        apply Bool.eq_false_iff.mpr
        intro hbefore
        obtain ⟨old, hold, holdshake⟩ := joined_iff.mp hbefore
        have hstill := (still_joined heffect ((lookup_reorder ..).trans hold) holdshake hplayer).1
        exact absurd (hshake.symm.trans hstill) (by rintro ⟨⟩)
      rw [hunjoined hbefore]
      rcases hsent c with heq | ⟨-, -, hgreeting⟩
      · rw [heq]
      · -- whoever is not welcomed yet is only sent rejections
        obtain ⟨welcome, blocks, _, after, hwelcome, _, _, hall, _⟩ := hgreeting
        have hafter : joined (step net.server input).1 c = false := (joined_eq hplayer).trans hshake
        have hreject : IsReject welcome := rejects_of_unjoined heffect hafter welcome
          (by rw [hall]; exact List.mem_cons_self)
        exact absurd (hwelcome.symm.trans hreject) (by rintro ⟨⟩)

end Related

section Runs

/-- The peer is a player at some point before its connection ends. -/
def Joins (net : Network) (peer : Peer) (inputs : List Input) : Prop :=
  ∃ before after, inputs = before ++ after ∧ (∀ input ∈ before, input.event ≠ .disconnect peer) ∧
    joined (run Network.step net before).server peer = true

theorem joins_nil {net : Network} {peer : Peer} :
    Joins net peer [] ↔ joined net.server peer = true := by
  constructor
  · rintro ⟨before, after, hnil, -, hjoined⟩
    obtain ⟨rfl, rfl⟩ := List.append_eq_nil_iff.mp hnil.symm
    exact hjoined
  · exact fun hjoined => ⟨[], [], rfl, by rintro _ ⟨⟩, hjoined⟩

theorem joins_cons {net : Network} {peer : Peer} (hnot : joined net.server peer = false)
    (input : Input) (rest : List Input) :
    Joins net peer (input :: rest) ↔
      input.event ≠ .disconnect peer ∧ Joins (net.step input) peer rest := by
  constructor
  · rintro ⟨before, after, hrest, hopen, hjoined⟩
    cases before with
    | nil => exact absurd (hnot.symm.trans hjoined) (by rintro ⟨⟩)
    | cons first before =>
        obtain ⟨rfl, rfl⟩ := List.cons.inj hrest
        obtain ⟨hfirst, hbefore⟩ := List.forall_mem_cons.mp hopen
        exact ⟨hfirst, before, after, rfl, hbefore, hjoined⟩
  · rintro ⟨hfirst, before, after, rfl, hopen, hjoined⟩
    exact ⟨input :: before, after, rfl, List.forall_mem_cons.mpr ⟨hfirst, hopen⟩, hjoined⟩

/-- Completing the handshake is becoming a player before the connection ends. -/
theorem completes_iff {net : Network} {peer : Peer} {player : Player}
    (hplayer : net.server.players.lookup peer = some player) (hshake : player.handshaked = false)
    (inputs : List Input) : completes peer inputs = true ↔ Joins net peer inputs := by
  have hnot : joined net.server peer = false := (joined_eq hplayer).trans hshake
  induction inputs generalizing net player with
  | nil =>
      rw [joins_nil, hnot]
      rfl
  | cons input rest ih =>
      have htrail := trail_step net.server input peer
      rw [hplayer, Trail.step] at htrail
      rw [joins_cons hnot, completes]
      -- what the record of the peer says after the event
      have hrecord : ∀ trail, ((net.step input).server.players.lookup peer).map recorded =
          some trail → trail.handshaked = false →
          (completes peer rest = true ↔ Joins (net.step input) peer rest) := by
        intro trail hrecorded hfalse
        obtain ⟨player', hplayer', rfl⟩ := Option.map_eq_some_iff.mp hrecorded
        exact ih hplayer' hfalse ((joined_eq hplayer').trans hfalse)
      cases hevent : input.event with
      | connect p =>
          rw [hevent] at htrail
          have hsame := hrecord (recorded player) (htrail.trans (by simp)) hshake
          simp [hsame]
      | disconnect p =>
          rw [hevent] at htrail
          by_cases hp : p = peer
          · simp [hp]
          · have hsame := hrecord (recorded player) (htrail.trans (if_neg hp)) hshake
            simp [hp, hsame]
      | receive p bytes =>
          rw [hevent] at htrail
          by_cases hp : p = peer
          · have hheard := htrail.trans (if_pos hp)
            have hheard' := hear_handshaked (recorded player) bytes
            cases hhello : isHello bytes with
            | false =>
                rw [hhello, Bool.or_false] at hheard'
                have hsame := hrecord _ hheard (hheard'.trans hshake)
                simp [hp, hhello, hsame]
            | true =>
                rw [hhello, Bool.or_true] at hheard'
                obtain ⟨player', hplayer', hrecorded⟩ := Option.map_eq_some_iff.mp hheard
                have hshake' : player'.handshaked = true :=
                  (congrArg Trail.handshaked hrecorded).trans hheard'
                have hjoins : Joins (net.step input) peer rest :=
                  ⟨[], rest, rfl, by rintro _ ⟨⟩, (joined_eq hplayer').trans hshake'⟩
                simp [hp, hhello, hjoins]
          · have hsame := hrecord (recorded player) (htrail.trans (if_neg hp)) hshake
            simp [hp, hsame]
      | updateBots | command =>
          rw [hevent] at htrail
          have hsame := hrecord (recorded player) htrail hshake
          simp [hsame]

theorem related_any {future inputs kept : List Input} {conns : Conns} {net net' : Network}
    (h : Related SameLog conns (inputs ++ future) net net') (hids : IdsIssued net.server net.issued)
    (hissued : (run Network.step net inputs).issued < 2 ^ 32 - 2)
    (hkept : kept.map stamp = (strip future conns inputs).map stamp) :
    ∃ conns', Related SameLog conns' future (run Network.step net inputs)
      (run Network.step net' kept) := by
  induction inputs generalizing conns net net' kept with
  | nil =>
      obtain rfl := List.map_eq_nil_iff.mp hkept
      exact ⟨conns, h⟩
  | cons input inputs ih =>
      have hnext := idsIssued_step input
        ((issued_le_run _ inputs).trans_lt (hissued.trans (by decide))) hids
      rw [strip] at hkept
      split at hkept
      · rename_i hstranger
        exact ih (h.stranger hstranger) hnext hissued hkept
      · rename_i hown
        obtain ⟨kinput, kept, rfl, hstamp, hrest⟩ := List.map_eq_cons_iff.mp hkept
        have hdistinct := (hids.keeps (keeps_reorder net.server input.order)).distinct
        have halike := h.alike.reorder input.order kinput.order
        have hboth := h.kept sameLog_relation (Bool.eq_false_iff.mpr hown) hstamp
          (.of_distinct halike hdistinct) fun _ link greeting greeting' hgreet =>
            .inr ⟨link, greeting, greeting', [], hgreet, by simp, by simp⟩
        obtain ⟨conns', hrelated⟩ := ih hboth hnext hissued hrest
        exact ⟨conns', hrelated⟩

theorem related_some {future inputs : List Input} {conns : Conns} {net net' : Network}
    (h : Related Eq conns (inputs ++ future) net net') :
    ∃ kept conns', kept.map stamp = (strip future conns inputs).map stamp ∧
      Related Eq conns' future (run Network.step net inputs) (run Network.step net' kept) := by
  induction inputs generalizing conns net net' with
  | nil => exact ⟨[], conns, rfl, h⟩
  | cons input inputs ih =>
      rw [strip]
      split
      · rename_i hstranger
        exact ih (h.stranger hstranger)
      · rename_i hown
        obtain ⟨order, hroll⟩ := exists_order (h.alike.reorder input.order (.keep _)).roll_perm
        have hroll' : roll (reorder net'.server order) = roll (reorder net.server input.order) :=
          hroll
        have hsame : stamp { input with order } = stamp input := rfl
        obtain ⟨kept, conns', hstamp, hrelated⟩ := ih (h.kept eq_relation
          (Bool.eq_false_iff.mpr hown) hsame (.of_roll hroll')
          fun hne => absurd hroll' hne)
        exact ⟨{ input with order } :: kept, conns', by rw [List.map_cons, List.map_cons, hstamp]; rfl,
          hrelated⟩

/-- Taking the events of strangers out of a run changes no player, no bot and no id,
nor what a player is sent, but for the order in which a newcomer is told about the
players present: whatever the iteration orders of the two runs while no id is given
twice, and for some orders not even that. -/
theorem strangers_leave_no_trace (config : Config) (startTime : Time)
    (inputs future : List Input) :
    let net := Network.after config startTime inputs
    let stripped := (strip future (fun _ => none) inputs).map stamp
    (net.issued < 2 ^ 32 - 2 → ∀ kept : List Input, kept.map stamp = stripped →
      Untouched SameLog net (Network.after config startTime kept)) ∧
    ∃ kept : List Input, kept.map stamp = stripped ∧
      Untouched Eq net (Network.after config startTime kept) := by
  intro net stripped
  constructor
  · intro hissued kept hkept
    obtain ⟨_, hrelated⟩ := related_any (related_initial SameLog config startTime (inputs ++ future))
      (idsIssued_after config startTime [] (Nat.zero_lt_succ _)) hissued hkept
    exact hrelated.untouched
  · obtain ⟨kept, _, hkept, hrelated⟩ :=
      related_some (related_initial Eq config startTime (inputs ++ future))
    exact ⟨kept, hkept, hrelated.untouched⟩

end Runs

end Steps

end F4MP.Strangers
