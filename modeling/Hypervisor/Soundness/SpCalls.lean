import Hypervisor.Model.Spmc
import Mathlib.Data.List.Count

/-! # Calls to secure partitions

A direct request to an SP is accepted when the SP is idle and stays open while the SP is preempted;
`FFA_RUN` takes it up where it was interrupted. The manager answers with the registers of whatever
exit ends the stay.
-/

namespace Hypervisor

namespace SpContext

variable (sp : SpContext)

/-- An SP after a stay. -/
def ended (exit : SpExit) : SpContext :=
  { sp with ctx := exit.context, state := if exit.preempted then .preempted else .idle }

@[simp] theorem ended_id (exit : SpExit) : (sp.ended exit).id = sp.id := rfl

@[simp] theorem setArgs_state (args : SmcResult8) : (sp.setArgs args).state = sp.state := rfl

@[simp] theorem setArgs_ended (args : SmcResult8) (exit : SpExit) : (sp.setArgs args).ended exit = sp.ended exit := rfl

end SpContext

/-- The response to the normal world after a stay. -/
def SpExit.response (exit : SpExit) : SmcResult8 :=
  let x := exit.context.gpRegs
  if exit.preempted then { x0 := ffaInterrupt } else ⟨x 0, x 1, x 2, x 3, x 4, x 5, x 6, x 7⟩

/-- One request, how the SP that it entered ended its stay, and what became of it. -/
structure SpmcEvent where
  req : SmcResult8
  exit : SpExit
  out : Dispatched

namespace SpmcEvent

def enters (i : Fin maxSps) (event : SpmcEvent) : Bool := event.out.entered.any fun entry => entry.slot = i

/-- A direct request that the SP in slot `i` takes up. -/
def accepts (i : Fin maxSps) (event : SpmcEvent) : Bool := Spmc.isDirectReq event.req && event.enters i

/-- The SP in slot `i` is through with its request. -/
def completes (i : Fin maxSps) (event : SpmcEvent) : Bool := event.enters i && !event.exit.preempted

end SpmcEvent

namespace Spmc

variable {s s' start : Spmc} {req : SmcResult8} {exit : SpExit} {out : Dispatched} {i slot : Fin maxSps} {sp : SpContext}
  {spId : U16}

/-! ## One request -/

theorem findSp_eq_some (found : s.findSp spId = some (slot, sp)) :
    s.getSp spId = some slot ∧ s.spStore slot = some sp ∧ sp.id = spId := by
  obtain ⟨slot', first, there⟩ := Option.bind_eq_some_iff.mp found
  obtain ⟨sp', stored, same⟩ := Option.map_eq_some_iff.mp there
  obtain ⟨rfl, rfl⟩ := Prod.mk.inj same
  refine ⟨first, stored, ?_⟩
  have named := List.find?_some first
  rw [stored, Option.any_some, beq_iff_eq] at named
  exact named

theorem findSp_of_getSp (first : s.getSp spId = some slot) (stored : s.spStore slot = some sp) :
    s.findSp spId = some (slot, sp) := by
  rw [findSp, first, Option.bind_some, stored, Option.map_some]

/-- A stay goes through, as both states from which an SP is entered lead to running. -/
theorem runSp_eq (s : Spmc) (slot : Fin maxSps) {sp : SpContext} (exit : SpExit)
    (rests : sp.state = .idle ∨ sp.state = .preempted) :
    s.runSp slot sp exit = .ok ⟨exit.response, s.setSp slot (sp.ended exit), some ⟨slot, sp.ctx, sp.vsttbr⟩⟩ := by
  have valid : SpContext.validTransition sp.state .running = true := by
    rcases rests with idle | preempted
    · rw [idle]
      rfl
    · rw [preempted]
      rfl
  rw [runSp, SpContext.transitionTo, if_pos valid, SpContext.ended, SpExit.response]
  cases exit.preempted with
  | true => rfl
  | false => rfl

/-- How a request comes to enter an SP, and with which registers. -/
inductive Enters (s : Spmc) (req : SmcResult8) (slot : Fin maxSps) (sp : SpContext) : VcpuContext → Prop
  | request (direct : isDirectReq req = true) (found : s.findSp (destOf req) = some (slot, sp))
      (idle : sp.state = .idle) : Enters s req slot sp (sp.setArgs req).ctx
  | resume (run : req.x0 = ffaRun) (found : s.findSp (runTarget req) = some (slot, sp))
      (preempted : sp.state = .preempted) : Enters s req slot sp sp.ctx

theorem isDirectReq_of_run (run : req.x0 = ffaRun) : isDirectReq req = false := by
  rw [isDirectReq, run]
  decide

theorem Enters.found {ctx : VcpuContext} (enters : s.Enters req slot sp ctx) :
    ∃ spId, s.findSp spId = some (slot, sp) := by
  cases enters with
  | request _ found => exact ⟨_, found⟩
  | resume _ found => exact ⟨_, found⟩

/-- All that a request can come to. -/
inductive Outcome (s : Spmc) (req : SmcResult8) (exit : SpExit) : Dispatched → Prop
  /-- No SP is entered, and the store is as before. -/
  | answered {out : Dispatched} (none : out.entered = none) (store : out.spmc.spStore = s.spStore) : Outcome s req exit out
  | entered {slot : Fin maxSps} {sp : SpContext} {ctx : VcpuContext} (enters : s.Enters req slot sp ctx) :
      Outcome s req exit ⟨exit.response, s.setSp slot (sp.ended exit), some ⟨slot, ctx, sp.vsttbr⟩⟩

theorem ite_spStore {test : Prop} [Decidable test] {a b : SmcResult8 × Spmc} (left : a.2.spStore = s.spStore)
    (right : b.2.spStore = s.spStore) : (if test then a else b).2.spStore = s.spStore := by
  split
  · exact left
  · exact right

/-- The manager's own answers do not touch the store. -/
theorem dispatchFfa_spStore (s : Spmc) (req : SmcResult8) : (s.dispatchFfa req).2.spStore = s.spStore := by
  have map : (s.handleRxtxMap req).2.spStore = s.spStore := ite_spStore rfl (ite_spStore rfl rfl)
  have unmap : s.handleRxtxUnmap.2.spStore = s.spStore := ite_spStore rfl rfl
  have release : s.handleRxRelease.2.spStore = s.spStore := ite_spStore rfl rfl
  have info : s.handlePartitionInfoGet.2.spStore = s.spStore := rfl
  exact ite_spStore rfl <| ite_spStore rfl <| ite_spStore rfl <| ite_spStore rfl <| ite_spStore map <|
    ite_spStore unmap <| ite_spStore release <| ite_spStore info <| ite_spStore rfl <| ite_spStore rfl rfl

/-- No `expect` fails, whatever state the SPs are in. -/
theorem dispatchRequest_outcome (s : Spmc) (req : SmcResult8) (exit : SpExit) :
    ∃ out, s.dispatchRequest req exit = .ok out ∧ s.Outcome req exit out := by
  unfold dispatchRequest
  split_ifs with direct run
  · unfold dispatchToSp
    split
    · exact ⟨_, rfl, .answered rfl rfl⟩
    · rename_i slot sp found
      split_ifs with busy
      · exact ⟨_, rfl, .answered rfl rfl⟩
      · have idle : sp.state = .idle := not_not.mp busy
        exact ⟨_, @runSp_eq s slot (sp.setArgs req) exit (.inl idle),
          @Outcome.entered _ _ _ _ sp _ (.request direct.1 found idle)⟩
  · unfold resumePreemptedSp
    split
    · exact ⟨_, rfl, .answered rfl rfl⟩
    · rename_i slot sp found
      split_ifs with denied
      · exact ⟨_, rfl, .answered rfl rfl⟩
      · have preempted : sp.state = .preempted := not_not.mp denied
        exact ⟨_, runSp_eq s slot exit (.inr preempted), .entered (.resume run found preempted)⟩
  · exact ⟨_, rfl, .answered rfl (dispatchFfa_spStore s req)⟩

theorem outcome_of_dispatchRequest (run : s.dispatchRequest req exit = .ok out) : s.Outcome req exit out := by
  obtain ⟨out', run', outcome⟩ := dispatchRequest_outcome s req exit
  cases run.symm.trans run'
  exact outcome

/-! ## Runs -/

/-- The requests since the start, the last one first. -/
inductive Run (start : Spmc) : List SpmcEvent → Spmc → Prop
  | nil : Run start [] start
  | step {trace : List SpmcEvent} {s : Spmc} {req : SmcResult8} {exit : SpExit} {out : Dispatched}
      (run : Run start trace s) (dispatched : s.dispatchRequest req exit = .ok out) : Run start (⟨req, exit, out⟩ :: trace) out.spmc

/-- The request that the SP in slot `i` is still at work on. -/
def openCall (i : Fin maxSps) : List SpmcEvent → Option SmcResult8
  | [] => none
  | event :: trace =>
      if event.enters i then
        if event.exit.preempted then if isDirectReq event.req then some event.req else openCall i trace else none
      else openCall i trace

def isPreempted (s : Spmc) (i : Fin maxSps) : Bool := (s.spStore i).any fun sp => sp.state = .preempted

/-- No SP is in the middle of something. -/
def Booted (s : Spmc) : Prop := ∀ i sp, s.spStore i = some sp → sp.state = .reset ∨ sp.state = .idle

/-- What a run says about the SP in slot `i`. -/
structure Tracks (trace : List SpmcEvent) (s : Spmc) (i : Fin maxSps) : Prop where
  resting : ∀ sp, s.spStore i = some sp → sp.state = .reset ∨ sp.state = .idle ∨ sp.state = .preempted
  /-- An SP that was entered is the first one with its identifier. -/
  first : ∀ sp, s.spStore i = some sp → sp.state = .preempted → s.getSp sp.id = some i
  saved : ∀ sp, s.spStore i = some sp → sp.state = .preempted →
    ∃ event, trace.find? (·.enters i) = some event ∧ event.exit.preempted = true ∧ event.exit.context = sp.ctx
  balance : trace.countP (·.accepts i) = trace.countP (·.completes i) + if s.isPreempted i then 1 else 0
  pending : (openCall i trace).isSome = s.isPreempted i

theorem getSp_congr (ids : ∀ i, (s'.spStore i).map (·.id) = (s.spStore i).map (·.id)) : s'.getSp spId = s.getSp spId := by
  have same (slot : Fin maxSps) :
      ((s'.spStore slot).any fun sp => sp.id == spId) = (s.spStore slot).any fun sp => sp.id == spId := by
    have named (o : Option SpContext) : (o.any fun sp => sp.id == spId) = (o.map (·.id)).any (· == spId) := by
      cases o <;> rfl
    rw [named, ids, ← named]
  rw [getSp, getSp]
  simp only [same]

@[simp] theorem setSp_same (s : Spmc) (slot : Fin maxSps) (sp : SpContext) : (s.setSp slot sp).spStore slot = some sp :=
  Function.update_self ..

theorem setSp_of_ne (s : Spmc) (sp : SpContext) (other : i ≠ slot) : (s.setSp slot sp).spStore i = s.spStore i :=
  Function.update_of_ne other ..

theorem getSp_setSp_ended (stored : s.spStore slot = some sp) (exit : SpExit) (spId : U16) :
    (s.setSp slot (sp.ended exit)).getSp spId = s.getSp spId := by
  refine getSp_congr fun i => ?_
  by_cases same : i = slot
  · rw [same, setSp_same, stored, Option.map_some, Option.map_some, SpContext.ended_id]
  · rw [setSp_of_ne s _ same]

theorem isPreempted_of_stored (stored : s.spStore i = some sp) : s.isPreempted i = decide (sp.state = .preempted) := by
  rw [isPreempted, stored, Option.any_some]

theorem isPreempted_congr (same : s'.spStore i = s.spStore i) : s'.isPreempted i = s.isPreempted i := by
  rw [isPreempted, same, isPreempted]

theorem Booted.tracks (booted : start.Booted) (i : Fin maxSps) : start.Tracks [] i := by
  have not_preempted (sp : SpContext) (stored : start.spStore i = some sp) : sp.state ≠ .preempted := by
    rcases booted i sp stored with reset | idle
    · rw [reset]
      decide
    · rw [idle]
      decide
  have calm : start.isPreempted i = false := by
    cases stored : start.spStore i with
    | none => rw [isPreempted, stored, Option.any_none]
    | some sp => rw [isPreempted_of_stored stored, decide_eq_false (not_preempted sp stored)]
  exact {
    resting := fun sp stored => (booted i sp stored).imp_right .inl
    first := fun sp stored preempted => absurd preempted (not_preempted sp stored)
    saved := fun sp stored preempted => absurd preempted (not_preempted sp stored)
    balance := by rw [calm]; rfl
    pending := by rw [calm]; rfl }

section Step

variable {trace : List SpmcEvent} {event : SpmcEvent}

/-- A request that does not enter the SP in slot `i` says nothing about it. -/
theorem Tracks.pass (tracks : s.Tracks trace i) (elsewhere : event.enters i = false)
    (store : s'.spStore i = s.spStore i) (names : ∀ spId, s'.getSp spId = s.getSp spId) :
    s'.Tracks (event :: trace) i where
  resting sp stored := tracks.resting sp (store ▸ stored)
  first sp stored preempted := by rw [names, tracks.first sp (store ▸ stored) preempted]
  saved sp stored preempted := by
    rw [List.find?_cons_of_neg (by rw [elsewhere]; decide)]
    exact tracks.saved sp (store ▸ stored) preempted
  balance := by
    rw [List.countP_cons_of_neg (by rw [SpmcEvent.accepts, elsewhere, Bool.and_false]; decide),
      List.countP_cons_of_neg (by rw [SpmcEvent.completes, elsewhere, Bool.false_and]; decide), isPreempted_congr store,
      tracks.balance]
  pending := by rw [openCall, if_neg (by rw [elsewhere]; decide), isPreempted_congr store, tracks.pending]

/-- A stay of the SP in slot `i`. -/
theorem Tracks.stay (tracks : s.Tracks trace slot) {ctx : VcpuContext} (enters : s.Enters req slot sp ctx)
    (exit : SpExit) :
    (s.setSp slot (sp.ended exit)).Tracks
      (⟨req, exit, exit.response, s.setSp slot (sp.ended exit), some ⟨slot, ctx, sp.vsttbr⟩⟩ :: trace) slot := by
  obtain ⟨spId, found⟩ := enters.found
  obtain ⟨first, stored, named⟩ := findSp_eq_some found
  have here : SpmcEvent.enters slot ⟨req, exit, exit.response, s.setSp slot (sp.ended exit),
      some ⟨slot, ctx, sp.vsttbr⟩⟩ = true := decide_eq_true rfl
  have now : (s.setSp slot (sp.ended exit)).isPreempted slot = exit.preempted := by
    rw [isPreempted_of_stored (setSp_same ..), SpContext.ended]
    cases exit.preempted with
    | true => rfl
    | false => rfl
  have before := isPreempted_of_stored stored
  have balance := tracks.balance
  have pending := tracks.pending
  exact {
    resting := fun sp' stored' => by
      rw [setSp_same] at stored'
      obtain rfl := Option.some.inj stored'
      rw [SpContext.ended]
      cases exit.preempted with
      | true => exact .inr (.inr rfl)
      | false => exact .inr (.inl rfl)
    first := fun sp' stored' _ => by
      rw [setSp_same] at stored'
      obtain rfl := Option.some.inj stored'
      rw [getSp_setSp_ended stored, SpContext.ended_id, named, first]
    saved := fun sp' stored' preempted => by
      rw [setSp_same] at stored'
      obtain rfl := Option.some.inj stored'
      refine ⟨_, List.find?_cons_of_pos here, ?_, rfl⟩
      rwa [← now, isPreempted_of_stored (setSp_same ..), decide_eq_true_iff]
    balance := by
      rw [List.countP_cons, List.countP_cons, now, SpmcEvent.accepts, SpmcEvent.completes, here]
      cases enters with
      | request direct _ idle =>
          rw [before, idle] at balance
          cases preempted : exit.preempted with
          | true => simpa [direct] using balance
          | false => simpa [direct] using balance
      | resume run _ resumed =>
          rw [before, resumed] at balance
          cases preempted : exit.preempted with
          | true => simpa [isDirectReq_of_run run] using balance
          | false => simpa [isDirectReq_of_run run] using balance
    pending := by
      rw [openCall, if_pos here, now]
      cases preempted : exit.preempted with
      | false => simp
      | true =>
          cases enters with
          | request direct => simp [direct]
          | resume run _ resumed =>
              rw [before, resumed] at pending
              simpa [preempted, isDirectReq_of_run run] using pending }

theorem Tracks.step (tracks : ∀ i, s.Tracks trace i) (dispatched : s.dispatchRequest req exit = .ok out) (i : Fin maxSps) :
    out.spmc.Tracks (⟨req, exit, out⟩ :: trace) i := by
  cases outcome_of_dispatchRequest dispatched with
  | answered none store =>
      refine (tracks i).pass ?_ (by rw [store]) fun spId => getSp_congr fun slot => by rw [store]
      rw [SpmcEvent.enters, none, Option.any_none]
  | @entered slot sp ctx enters =>
      by_cases same : i = slot
      · subst same
        exact (tracks i).stay enters exit
      · obtain ⟨spId, found⟩ := enters.found
        obtain ⟨-, stored, -⟩ := findSp_eq_some found
        exact (tracks i).pass (decide_eq_false (Ne.symm same)) (setSp_of_ne s _ same) (getSp_setSp_ended stored exit)

theorem Run.tracks (booted : start.Booted) (run : Run start trace s) (i : Fin maxSps) : s.Tracks trace i := by
  induction run generalizing i with
  | nil => exact booted.tracks i
  | step _ dispatched ih => exact Tracks.step ih dispatched i

end Step

/-! ## The protocol -/

section Protocol

variable {trace : List SpmcEvent}

theorem dispatchRequest_busy (first : s.getSp sp.id = some i) (stored : s.spStore i = some sp)
    (preempted : sp.state = .preempted) (direct : isDirectReq req = true) (dest : destOf req = sp.id) (exit : SpExit) :
    s.dispatchRequest req exit = .ok ⟨makeError ffaBusy, s, none⟩ := by
  have found := findSp_of_getSp first stored
  have registered : s.isRegisteredSp sp.id = true := by rw [isRegisteredSp, first, Option.isSome_some]
  rw [dispatchRequest, dest, if_pos ⟨direct, registered⟩, dispatchToSp, found]
  simp [preempted]

theorem dispatchRequest_run (first : s.getSp sp.id = some i) (stored : s.spStore i = some sp)
    (preempted : sp.state = .preempted) (run : req.x0 = ffaRun) (target : runTarget req = sp.id) (exit : SpExit) :
    s.dispatchRequest req exit =
      .ok ⟨exit.response, s.setSp i (sp.ended exit), some ⟨i, sp.ctx, sp.vsttbr⟩⟩ := by
  rw [dispatchRequest, if_neg (by rw [isDirectReq_of_run run]; simp), if_pos run, target, resumePreemptedSp,
    findSp_of_getSp first stored]
  simp only [preempted, ne_eq, not_true_eq_false, if_false]
  exact runSp_eq s i exit (.inr preempted)

/-- The call protocol of SPs over every sequence of requests: no transition fails; between requests an SP
is reset, idle or preempted; while it is preempted a direct request to it is turned away without any
effect, and `FFA_RUN` enters it with the registers that its last exit saved; and one request is open
exactly while it is preempted. -/
theorem sp_call_protocol (booted : start.Booted) (run : Run start trace s) :
    (∀ req exit, ∃ out, s.dispatchRequest req exit = .ok out) ∧
    ∀ i, (∀ sp, s.spStore i = some sp → sp.state = .reset ∨ sp.state = .idle ∨ sp.state = .preempted) ∧
      (∀ sp, s.spStore i = some sp → sp.state = .preempted →
        (∀ req exit, isDirectReq req = true → destOf req = sp.id →
          s.dispatchRequest req exit = .ok ⟨makeError ffaBusy, s, none⟩) ∧
        ∃ last, trace.find? (·.enters i) = some last ∧ last.exit.preempted = true ∧
          ∀ req exit, req.x0 = ffaRun → runTarget req = sp.id →
            ∃ out, s.dispatchRequest req exit = .ok out ∧ out.entered = some ⟨i, last.exit.context, sp.vsttbr⟩) ∧
      trace.countP (·.accepts i) = trace.countP (·.completes i) + if s.isPreempted i then 1 else 0 := by
  refine ⟨fun req exit => ?_, fun i => ?_⟩
  · obtain ⟨out, dispatched, -⟩ := dispatchRequest_outcome s req exit
    exact ⟨out, dispatched⟩
  have tracks := run.tracks booted i
  refine ⟨tracks.resting, fun sp stored preempted => ?_, tracks.balance⟩
  have first := tracks.first sp stored preempted
  obtain ⟨last, latest, left, saved⟩ := tracks.saved sp stored preempted
  refine ⟨fun req exit direct dest => dispatchRequest_busy first stored preempted direct dest exit, last, latest, left,
    fun req exit run target => ⟨_, dispatchRequest_run first stored preempted run target exit, ?_⟩⟩
  rw [saved]

end Protocol

/-- An SP that waits for a message. -/
def waitingSp : SpContext := { SpContext.new 0x8001 0x0E300000 0x0E400000 fun _ => 0 with state := .idle }

/-- A manager with that SP only. -/
def oneSp : Spmc where
  spStore i := if i = 0 then some waitingSp else none
  nwdRxtx := ⟨0, 0, 0, false⟩
  ram _ := 0

theorem oneSp_booted : oneSp.Booted := by
  intro i sp stored
  rw [oneSp] at stored
  dsimp only at stored
  split_ifs at stored
  cases stored
  exact .inr rfl

/-- A direct request of partition 1 to SP 0x8001. -/
def pingSp : SmcResult8 := { x0 := ffaMsgSendDirectReq32, x1 := 0x18001, x3 := 42 }

/-- An exit with given x0 and x1. -/
def exitWith (x0 x1 : U64) (reason : Option ExitReason) : SpExit where
  context := ⟨fun n => if n = 0 then x0 else if n = 1 then x1 else 0, 0, 0, 0, 0x0E300100, 0⟩
  reason := reason

/-- The SP is interrupted while it works on the request. -/
def interruptedPing : SpmcEvent where
  req := pingSp
  exit := exitWith 7 8 none
  out := ⟨{ x0 := ffaInterrupt }, oneSp.setSp 0 (waitingSp.ended (exitWith 7 8 none)),
    some ⟨0, (waitingSp.setArgs pingSp).ctx, 0⟩⟩

theorem run_interruptedPing : Run oneSp [interruptedPing] interruptedPing.out.spmc := .step .nil rfl

theorem sp_call_protocol_interruptedPing :
    interruptedPing.accepts 0 = true ∧ interruptedPing.completes 0 = false ∧
      interruptedPing.out.spmc.dispatchRequest pingSp (exitWith 0 0 none) =
        .ok ⟨makeError ffaBusy, interruptedPing.out.spmc, none⟩ := by
  obtain ⟨-, slots⟩ := sp_call_protocol oneSp_booted run_interruptedPing
  obtain ⟨-, preempted, -⟩ := slots 0
  exact ⟨rfl, rfl, (preempted _ rfl rfl).1 _ _ rfl rfl⟩

/-! ## Responses -/

def IsDirectResp (x0 : U64) : Prop := x0 = ffaMsgSendDirectResp32 ∨ x0 = ffaMsgSendDirectResp64

/-- The source of a request or of a response. -/
def sourceOf (x1 : U64) : U16 := (x1 >>> 16).setWidth 16

/-- x1 names the SP as the source and the requester as the destination. -/
def NamesCall (spId requester : U16) (x1 : U64) : Prop := sourceOf x1 = spId ∧ x1.setWidth 16 = requester

/-- The response is an error or a direct response of the SP to the requester, and no other exit than an
SMC is reported as a direct response. -/
structure Authentic (spId requester : U16) (exit : SpExit) (response : SmcResult8) : Prop where
  genuine : response.x0 = ffaErrorId ∨ IsDirectResp response.x0 ∧ NamesCall spId requester response.x1
  reported : IsDirectResp response.x0 → exit.reason = some .smcCall

/-- The SP leaves with an error, or by an SMC with a direct response to the requester. -/
def AnswersCall (spId requester : U16) (exit : SpExit) : Prop :=
  exit.context.gpRegs 0 = ffaErrorId ∨ exit.reason = some .smcCall ∧ IsDirectResp (exit.context.gpRegs 0) ∧
    NamesCall spId requester (exit.context.gpRegs 1)

theorem authentic_response_iff {requester : U16} (left : exit.preempted = false) :
    Authentic spId requester exit exit.response ↔ AnswersCall spId requester exit := by
  have x0 : exit.response.x0 = exit.context.gpRegs 0 := by rw [SpExit.response, left]; rfl
  have x1 : exit.response.x1 = exit.context.gpRegs 1 := by rw [SpExit.response, left]; rfl
  rw [AnswersCall]
  constructor
  · rintro ⟨error | ⟨direct, names⟩, reported⟩
    · exact .inl (x0 ▸ error)
    · exact .inr ⟨reported direct, x0 ▸ direct, x1 ▸ names⟩
  · rintro (error | ⟨smc, direct, names⟩)
    · refine ⟨.inl (x0 ▸ error), fun direct => ?_⟩
      rw [x0, error] at direct
      exact absurd direct (by rintro (⟨⟨⟩⟩ | ⟨⟨⟩⟩))
    · exact ⟨.inr ⟨x0.symm ▸ direct, x1.symm ▸ names⟩, fun _ => smc⟩

/-- The request that a stay in the SP in slot `i` is for: the one that starts it, or the open one that it
takes up again. -/
def callOf (i : Fin maxSps) (req : SmcResult8) (trace : List SpmcEvent) : Option SmcResult8 :=
  if isDirectReq req then some req else openCall i trace

/-- What is returned for a request in the end is authentic exactly if the SP makes it so: its registers are
passed on as they are, whatever the exit. -/
theorem authentic_iff {trace : List SpmcEvent} {entry : SpEntry} (booted : start.Booted) (run : Run start trace s)
    (dispatched : s.dispatchRequest req exit = .ok out) (entered : out.entered = some entry)
    (left : exit.preempted = false) :
    ∃ sp call, s.spStore entry.slot = some sp ∧ callOf entry.slot req trace = some call ∧
      (Authentic sp.id (sourceOf call.x1) exit out.response ↔ AnswersCall sp.id (sourceOf call.x1) exit) := by
  cases outcome_of_dispatchRequest dispatched with
  | answered none => cases none.symm.trans entered
  | @entered slot sp ctx enters =>
      obtain rfl := Option.some.inj entered
      obtain ⟨spId, found⟩ := enters.found
      obtain ⟨-, stored, -⟩ := findSp_eq_some found
      have call : ∃ call, callOf slot req trace = some call := by
        rw [callOf]
        cases enters with
        | request direct => exact ⟨req, if_pos direct⟩
        | resume resumed _ preempted =>
            have pending := (run.tracks booted slot).pending
            rw [isPreempted_of_stored stored, preempted, decide_eq_true rfl] at pending
            obtain ⟨call, same⟩ := Option.isSome_iff_exists.mp pending
            exact ⟨call, by rw [if_neg (by rw [isDirectReq_of_run resumed]; decide), same]⟩
      obtain ⟨call, same⟩ := call
      exact ⟨sp, call, stored, same, authentic_response_iff left⟩

/-- SP 0x8001 answers once it has been resumed. -/
theorem authentic_interruptedPing :
    ∃ out, interruptedPing.out.spmc.dispatchRequest { x0 := ffaRun, x1 := 0x80010000 }
        (exitWith ffaMsgSendDirectResp32 0x80010001 (some .smcCall)) = .ok out ∧
      Authentic 0x8001 1 (exitWith ffaMsgSendDirectResp32 0x80010001 (some .smcCall)) out.response := by
  have dispatched : interruptedPing.out.spmc.dispatchRequest { x0 := ffaRun, x1 := 0x80010000 }
      (exitWith ffaMsgSendDirectResp32 0x80010001 (some .smcCall)) = .ok _ := rfl
  obtain ⟨sp, call, stored, same, authentic⟩ := authentic_iff oneSp_booted run_interruptedPing dispatched rfl rfl
  cases stored
  cases same
  exact ⟨_, dispatched, authentic.mpr (.inr ⟨rfl, .inl rfl, rfl, rfl⟩)⟩

/-- SP 0x8001 aborts with the registers of the request: the normal world is handed a direct request. -/
theorem abort_is_not_an_answer :
    ∃ out, oneSp.dispatchRequest pingSp (exitWith ffaMsgSendDirectReq32 0x18001 (some .dataAbort)) = .ok out ∧
      out.entered.isSome = true ∧
      ¬ Authentic 0x8001 1 (exitWith ffaMsgSendDirectReq32 0x18001 (some .dataAbort)) out.response := by
  refine ⟨_, rfl, rfl, ?_⟩
  rintro ⟨⟨⟨⟩⟩ | ⟨⟨⟨⟩⟩ | ⟨⟨⟩⟩, -⟩, -⟩

end Spmc

end Hypervisor
