/-
Every interleaving of the commits of one `CoordinationRuntime` over one
shared-state store.

An invocation is prepared with a snapshot, goes through the first validation of
its proposals, enters `decision`, treats its candidates one by one, completes and
leaves. The admission monitor inside is the system of
`MininetAi.Coordination.AdmissionSystem`, driven through its own steps, so what
holds there holds here. Between two steps of one invocation any others may run;
each read of the store and each application of updates is one step.

The label of a step carries what the environment answers: the response of the
agent, the engine's verdicts, the executor's results, and storage failures. An
exception may end an invocation anywhere.
-/
import MininetAi.Coordination.AdmissionSafety
import MininetAi.Coordination.Commit

set_option autoImplicit false

namespace MininetAi

variable {I R : Type}

/-! ## States -/

/-- What is fixed for one run. -/
structure CommitConfig where
  policy : ArbitrationPolicy
  catalog : ExecutionCatalog
  agent_instances : List AgentInstance
  run_id : String

/-- The local variables of `_finish_prepared`. `validated` is bookkeeping: the
version check has passed inside `decision`. -/
structure Finishing where
  arbitration : ArbitrationPlan
  rejections : List (String × ArbitrationCandidate)
  loop : FinishLoop
  validated : Bool := false

/-- How a commit ends. -/
inductive Completion where
  /-- Some action did not succeed; shared state is not touched. -/
  | unsuccessful (results : List ActionResult)
  /-- `complete` reports a shared-state failure. -/
  | state_failed (results : List ActionResult) (error : SharedStateError)
  /-- The updates are in the store. -/
  | committed (results : List ActionResult) (changes : List SharedStateChange)
  /-- An exception is on its way. -/
  | raised

/-- Where an invocation is. -/
inductive CommitStage where
  /-- In the first validation, with the proposals still to come. -/
  | validating (pass : FirstPass) (rest : List ActionProposal)
  /-- In `decision`, waiting there or before the first of the candidates left. -/
  | finishing (f : Finishing) (rest : List ArbitrationCandidate)
  /-- The candidate has passed validation and goes to `admit`. -/
  | admitting (f : Finishing) (c : ArbitrationCandidate) (rest : List ArbitrationCandidate)
  /-- In `complete`, before the version check. -/
  | completing (f : Finishing) (results : List ActionResult)
  /-- In `complete`, before the updates are applied. -/
  | applying (f : Finishing) (results : List ActionResult)
  /-- Behind `complete`, or unwinding, still in `decision`. -/
  | leaving (completion : Completion)
  /-- Behind `decision`, or never there. -/
  | left (completion : Completion)

/-- One invocation. `request` names the list `history` it uses. -/
structure CommitInvocation (R : Type) where
  request : R
  agent : AgentInstance
  prepared : PreparedAgentInvocation
  stage : CommitStage

/-- An applied batch of updates. -/
structure CommitRecord where
  prepared : PreparedAgentInvocation
  access : SharedStateAccess

/-- The monitor, the store and the invocations. `initial` and `commits` are
bookkeeping: the store at the start, and what has been applied to it in order. -/
structure CommitState (I R : Type) where
  initial : Entries
  coordination : AdmissionState I R := {}
  store : Entries := initial
  invocation : I → Option (CommitInvocation R) := fun _ => none
  commits : List CommitRecord := []

/-- The steps; `engine`, `result` and `storage` are what the environment answers. -/
inductive CommitEvent (I R : Type) where
  | prepare (i : I) (request : R) (agent : AgentInstance) (invocation_id : String)
      (response : AgentResponse)
  | validate (i : I) (engine : Option EngineRejection) (storage : Option SharedStateError)
  | decide (i : I)
  | recheck (i : I)
  | candidate (i : I) (engine : Option EngineRejection) (storage : Option SharedStateError)
  | admission (i : I)
  | execute (i : I) (result : ActionResult)
  | lose (i : I)
  | finish (i : I)
  | check (i : I) (storage : Option SharedStateError)
  | apply (i : I) (storage : Option SharedStateError)
  | raise (i : I)
  | leave (i : I)

/-- The access of an invocation. -/
def CommitConfig.access (config : CommitConfig) (inv : CommitInvocation R) : SharedStateAccess :=
  shared_access config.agent_instances config.run_id inv.agent

def CommitConfig.record (config : CommitConfig) (inv : CommitInvocation R) : CommitRecord where
  prepared := inv.prepared
  access := config.access inv

/-- The store as the version check of an invocation reads it. -/
def store_read (access : SharedStateAccess) (store : Entries) (storage : Option SharedStateError) :
    StoreRead :=
  storage.elim (.ok (snapshot store access)) .error

/-- `_check_shared_state` of an invocation on the store. -/
def check_versions (config : CommitConfig) (inv : CommitInvocation R) (store : Entries)
    (storage : Option SharedStateError) : Except SharedStateError Unit :=
  check_shared_state (config.access inv) (some (store_read (config.access inv) store storage))
    inv.prepared

/-! ## Where a section leads -/

/-- One iteration of the loop, up to `admit`. -/
def candidate_stage (config : CommitConfig) (inv : CommitInvocation R) (store : Entries)
    (f : Finishing) (c : ArbitrationCandidate) (rest : List ArbitrationCandidate)
    (engine : Option EngineRejection) (storage : Option SharedStateError) : CommitStage :=
  if f.loop.halted then .finishing { f with loop := f.loop.stop inv.prepared c } rest
  else match f.rejections.lookup c.candidate_id with
    | some winner => .finishing { f with loop := f.loop.conflict inv.prepared c winner } rest
    | none =>
      let f := { f with
        validated := f.validated || (check_versions config inv store storage).isOk }
      match validate (config.access inv) (some (store_read (config.access inv) store storage))
        inv.prepared c.proposal engine with
      | some r => .finishing { f with loop := f.loop.invalid inv.prepared c r } rest
      | none => .admitting f c rest

/-- Behind the loop: the results of the dropped candidates, all results in order,
and the check that they belong to the proposals. -/
def finish_stage (inv : CommitInvocation R) (f : Finishing) : CommitStage :=
  let loop := f.loop.drop_rejected inv.prepared f.arbitration
  match ordered_results inv.prepared loop.action_results with
  | some results =>
    if results.map ActionResult.request_id = inv.prepared.response.proposals.map ActionProposal.id
    then .completing { f with loop := loop } results
    else .leaving .raised
  | none => .leaving .raised

/-- The version check of `complete`. -/
def check_stage (config : CommitConfig) (inv : CommitInvocation R) (store : Entries)
    (f : Finishing) (results : List ActionResult) (storage : Option SharedStateError) :
    CommitStage :=
  if all_succeeded results then
    if checks_again inv.prepared.response then
      match check_versions config inv store storage with
      | .error e => .leaving (.state_failed results e)
      | .ok () => .applying f results
    else .applying f results
  else .leaving (.unsuccessful results)

/-- `_apply_shared_state`; a failing storage leaves the table as it was. -/
def apply_outcome (config : CommitConfig) (inv : CommitInvocation R) (store : Entries)
    (storage : Option SharedStateError) :
    Except SharedStateError (Option Entries × List SharedStateChange) :=
  match inv.prepared.response.shared_state_updates, storage with
  | _ :: _, some e => .error e
  | updates, _ => apply_shared_state inv.prepared.context (config.access inv) (some store) updates

/-- A batch that is not empty and has been applied. -/
theorem apply_outcome_ok {config : CommitConfig} {inv : CommitInvocation R} {store : Entries}
    {storage : Option SharedStateError} {result : Option Entries} {changes : List SharedStateChange}
    (hne : inv.prepared.response.shared_state_updates ≠ [])
    (h : apply_outcome config inv store storage = .ok (result, changes)) :
    ∃ entries, apply_updates (config.access inv) store
        (versioned inv.prepared.context inv.prepared.response.shared_state_updates)
          = .ok (entries, changes) ∧ result = some entries := by
  unfold apply_outcome at h
  split at h
  · cases h
  · rw [apply_shared_state, if_neg hne] at h
    simp only at h
    cases happly : apply_updates (config.access inv) store
        (versioned inv.prepared.context inv.prepared.response.shared_state_updates) with
    | error e => rw [happly] at h; cases h
    | ok r =>
      obtain ⟨entries, changes'⟩ := r
      rw [happly] at h
      cases h
      exact ⟨entries, rfl, rfl⟩

/-! ## Steps -/

section Steps

variable [DecidableEq I] [DecidableEq R] (config : CommitConfig)

/-- Invocation `i` moves to `stage`. -/
def CommitState.goto (s : CommitState I R) (i : I) (inv : CommitInvocation R)
    (stage : CommitStage) : CommitState I R :=
  { s with invocation := Function.update s.invocation i (some { inv with stage := stage }) }

/-- A step of the monitor. -/
def CommitState.coordinate (s : CommitState I R) (e : AdmissionEvent I R) :
    Option (CommitState I R) :=
  ((admission_system config.policy).step s.coordination e).map fun a =>
    { s with coordination := a }

/-- The monitor has the invocation in this stage. -/
def CommitState.admission_stage (s : CommitState I R) (i : I) : Option AdmissionStage :=
  (s.coordination.participant i).map Participant.stage

/-- A new invocation, with the snapshot it takes. -/
def new_invocation (s : CommitState I R) (request : R) (agent : AgentInstance)
    (invocation_id : String) (response : AgentResponse) : CommitInvocation R where
  request := request
  agent := agent
  prepared :=
    { context :=
        prepared_context config.agent_instances s.store config.run_id invocation_id agent
      response := response }
  stage := .validating {} response.proposals

/-- What an invocation passes to `decision` after its first validation. -/
def decision_call (inv : CommitInvocation R) (pass : FirstPass) : DecisionCall R where
  request := inv.request
  context := inv.prepared.context
  response := inv.prepared.response
  candidates := (arbitrate config.policy config.catalog pass.admitted).ordered

/-- The variables of `_finish_prepared` on entry to `decision`. -/
def entered (s : CommitState I R) (inv : CommitInvocation R) (pass : FirstPass) : Finishing :=
  let arbitration := arbitrate config.policy config.catalog pass.admitted
  { arbitration := arbitration
    rejections := s.coordination.admission.rejections config.policy arbitration.ordered
      (s.coordination.history inv.request)
    loop := FinishLoop.start inv.prepared.response arbitration pass.action_results }

/-- The section an event names, for the invocation it names. -/
def commit_section (s : CommitState I R) (i : I) (inv : CommitInvocation R) :
    CommitEvent I R → Option (CommitState I R)
  | .prepare .. => none
  | .validate _ engine storage => match inv.stage with
    | .validating pass (p :: rest) =>
      let rejection := validate (config.access inv)
        (some (store_read (config.access inv) s.store storage)) inv.prepared p engine
      some (s.goto i inv (.validating (pass.next inv.prepared p rejection) rest))
    | _ => none
  | .decide _ => match inv.stage with
    | .validating pass [] =>
      let f := entered config s inv pass
      (s.coordinate config (.decision_enter i (decision_call config inv pass))).map fun t =>
        t.goto i inv (.finishing f f.arbitration.ordered)
    | _ => none
  | .recheck _ => match inv.stage with
    | .finishing _ _ => s.coordinate config (.decision_recheck i)
    | .admitting _ _ _ => s.coordinate config (.admit_recheck i)
    | _ => none
  | .candidate _ engine storage => match inv.stage with
    | .finishing f (c :: rest) =>
      if s.admission_stage i = some .deciding then
        some (s.goto i inv (candidate_stage config inv s.store f c rest engine storage))
      else none
    | _ => none
  | .admission _ => match inv.stage with
    | .admitting _ c _ => s.coordinate config (.admit_enter i c)
    | _ => none
  | .execute _ result => match inv.stage with
    | .admitting f c rest =>
      if s.admission_stage i = some (.acting c) then
        (s.coordinate config (.admit_exit i false)).map fun t =>
          t.goto i inv (.finishing { f with loop := f.loop.execute inv.prepared c result } rest)
      else none
    | _ => none
  | .lose _ => match inv.stage, s.admission_stage i with
    | .admitting f c rest, some (.refused _ winner) =>
      (s.coordinate config (.admit_exit i false)).map fun t =>
        t.goto i inv (.finishing { f with loop := f.loop.conflict inv.prepared c winner } rest)
    | _, _ => none
  | .finish _ => match inv.stage with
    | .finishing f [] =>
      if s.admission_stage i = some .deciding then some (s.goto i inv (finish_stage inv f))
      else none
    | _ => none
  | .check _ storage => match inv.stage with
    | .completing f results =>
      some (s.goto i inv (check_stage config inv s.store f results storage))
    | _ => none
  | .apply _ storage => match inv.stage with
    | .applying _ results =>
      match apply_outcome config inv s.store storage with
      | .error e => some (s.goto i inv (.leaving (.state_failed results e)))
      | .ok (store, changes) =>
        let t := s.goto i inv (.leaving (.committed results changes))
        some (if inv.prepared.response.shared_state_updates = [] then t
          else { t with
            store := store.getD s.store
            commits := s.commits ++ [config.record inv] })
    | _ => none
  | .raise _ => match inv.stage, s.admission_stage i with
    | .validating _ _, _ => some (s.goto i inv (.left .raised))
    | .finishing _ _, some .deciding | .admitting _ _ _, some .deciding
    | .completing _ _, _ | .applying _ _, _ => some (s.goto i inv (.leaving .raised))
    | .admitting _ _ _, some (.acting _) | .admitting _ _ _, some (.refused _ _) =>
      (s.coordinate config (.admit_exit i true)).map fun t => t.goto i inv (.leaving .raised)
    | _, _ => none
  | .leave _ => match inv.stage with
    | .leaving completion =>
      (s.coordinate config (.decision_exit i (completion matches .raised))).map fun t =>
        t.goto i inv (.left completion)
    | _ => none

/-- The invocation an event belongs to. -/
def CommitEvent.invocation : CommitEvent I R → I
  | .prepare i _ _ _ _ | .validate i _ _ | .decide i | .recheck i | .candidate i _ _
  | .admission i | .execute i _ | .lose i | .finish i | .check i _ | .apply i _ | .raise i
  | .leave i => i

/-- The commits of one coordination runtime. -/
def commit_system : System (CommitState I R) (CommitEvent I R) where
  init s := ∃ entries, s = { initial := entries }
  step s e :=
    match e, s.invocation e.invocation with
    | .prepare i request agent invocation_id response, none =>
      some (s.goto i (new_invocation config s request agent invocation_id response)
        (.validating {} response.proposals))
    | e, some inv => commit_section config s e.invocation inv e
    | _, none => none

/-! ## What a step can do -/

/-- The ways a section can end; `a` is the monitor behind a step of it. -/
inductive CommitStep (s : CommitState I R) : CommitEvent I R → CommitState I R → Prop
  | prepare {i : I} {request : R} {agent : AgentInstance} {invocation_id : String}
      {response : AgentResponse} (hnone : s.invocation i = none) :
      CommitStep s (.prepare i request agent invocation_id response)
        (s.goto i (new_invocation config s request agent invocation_id response)
          (.validating {} response.proposals))
  | validate {i : I} {inv : CommitInvocation R} {pass : FirstPass} {p : ActionProposal}
      {rest : List ActionProposal} {engine : Option EngineRejection}
      {storage : Option SharedStateError} (hinv : s.invocation i = some inv)
      (hstage : inv.stage = .validating pass (p :: rest)) :
      CommitStep s (.validate i engine storage)
        (s.goto i inv (.validating (pass.next inv.prepared p
          (MininetAi.validate (config.access inv)
            (some (store_read (config.access inv) s.store storage)) inv.prepared p engine)) rest))
  | decide {i : I} {inv : CommitInvocation R} {pass : FirstPass} {a : AdmissionState I R}
      (hinv : s.invocation i = some inv) (hstage : inv.stage = .validating pass [])
      (ha : (admission_system config.policy).step s.coordination
        (.decision_enter i (decision_call config inv pass)) = some a) :
      CommitStep s (.decide i)
        (({ s with coordination := a } : CommitState I R).goto i inv
          (.finishing (entered config s inv pass) (entered config s inv pass).arbitration.ordered))
  | recheck {i : I} {inv : CommitInvocation R} {e : AdmissionEvent I R} {a : AdmissionState I R}
      (hinv : s.invocation i = some inv) (he : e = .decision_recheck i ∨ e = .admit_recheck i)
      (ha : (admission_system config.policy).step s.coordination e = some a) :
      CommitStep s (.recheck i) { s with coordination := a }
  | candidate {i : I} {inv : CommitInvocation R} {f : Finishing} {c : ArbitrationCandidate}
      {rest : List ArbitrationCandidate} {engine : Option EngineRejection}
      {storage : Option SharedStateError} (hinv : s.invocation i = some inv)
      (hstage : inv.stage = .finishing f (c :: rest))
      (hbody : s.admission_stage i = some .deciding) :
      CommitStep s (.candidate i engine storage)
        (s.goto i inv (candidate_stage config inv s.store f c rest engine storage))
  | admission {i : I} {inv : CommitInvocation R} {f : Finishing} {c : ArbitrationCandidate}
      {rest : List ArbitrationCandidate} {a : AdmissionState I R}
      (hinv : s.invocation i = some inv) (hstage : inv.stage = .admitting f c rest)
      (ha : (admission_system config.policy).step s.coordination (.admit_enter i c) = some a) :
      CommitStep s (.admission i) { s with coordination := a }
  | execute {i : I} {inv : CommitInvocation R} {f : Finishing} {c : ArbitrationCandidate}
      {rest : List ArbitrationCandidate} {result : ActionResult} {a : AdmissionState I R}
      (hinv : s.invocation i = some inv) (hstage : inv.stage = .admitting f c rest)
      (hbody : s.admission_stage i = some (.acting c))
      (ha : (admission_system config.policy).step s.coordination (.admit_exit i false) = some a) :
      CommitStep s (.execute i result)
        (({ s with coordination := a } : CommitState I R).goto i inv
          (.finishing { f with loop := f.loop.execute inv.prepared c result } rest))
  | lose {i : I} {inv : CommitInvocation R} {f : Finishing} {c d winner : ArbitrationCandidate}
      {rest : List ArbitrationCandidate} {a : AdmissionState I R}
      (hinv : s.invocation i = some inv) (hstage : inv.stage = .admitting f c rest)
      (hbody : s.admission_stage i = some (.refused d winner))
      (ha : (admission_system config.policy).step s.coordination (.admit_exit i false) = some a) :
      CommitStep s (.lose i)
        (({ s with coordination := a } : CommitState I R).goto i inv
          (.finishing { f with loop := f.loop.conflict inv.prepared c winner } rest))
  | finish {i : I} {inv : CommitInvocation R} {f : Finishing} (hinv : s.invocation i = some inv)
      (hstage : inv.stage = .finishing f []) (hbody : s.admission_stage i = some .deciding) :
      CommitStep s (.finish i) (s.goto i inv (finish_stage inv f))
  | check {i : I} {inv : CommitInvocation R} {f : Finishing} {results : List ActionResult}
      {storage : Option SharedStateError} (hinv : s.invocation i = some inv)
      (hstage : inv.stage = .completing f results) :
      CommitStep s (.check i storage)
        (s.goto i inv (check_stage config inv s.store f results storage))
  | apply_failed {i : I} {inv : CommitInvocation R} {f : Finishing} {results : List ActionResult}
      {storage : Option SharedStateError} {e : SharedStateError}
      (hinv : s.invocation i = some inv) (hstage : inv.stage = .applying f results)
      (hfail : apply_outcome config inv s.store storage = .error e) :
      CommitStep s (.apply i storage) (s.goto i inv (.leaving (.state_failed results e)))
  | apply_nothing {i : I} {inv : CommitInvocation R} {f : Finishing}
      {results : List ActionResult} {storage : Option SharedStateError}
      {changes : List SharedStateChange}
      (hinv : s.invocation i = some inv) (hstage : inv.stage = .applying f results) :
      CommitStep s (.apply i storage) (s.goto i inv (.leaving (.committed results changes)))
  | apply_commit {i : I} {inv : CommitInvocation R} {f : Finishing} {results : List ActionResult}
      {storage : Option SharedStateError} {store : Entries} {changes : List SharedStateChange}
      (hinv : s.invocation i = some inv) (hstage : inv.stage = .applying f results)
      (happly : apply_updates (config.access inv) s.store
        (versioned inv.prepared.context inv.prepared.response.shared_state_updates)
          = .ok (store, changes)) :
      CommitStep s (.apply i storage)
        { s.goto i inv (.leaving (.committed results changes)) with
          store := store
          commits := s.commits ++ [config.record inv] }
  | raise_early {i : I} {inv : CommitInvocation R} (hinv : s.invocation i = some inv) :
      CommitStep s (.raise i) (s.goto i inv (.left .raised))
  | raise_body {i : I} {inv : CommitInvocation R} (hinv : s.invocation i = some inv) :
      CommitStep s (.raise i) (s.goto i inv (.leaving .raised))
  | raise_admitted {i : I} {inv : CommitInvocation R} {a : AdmissionState I R}
      (hinv : s.invocation i = some inv)
      (ha : (admission_system config.policy).step s.coordination (.admit_exit i true) = some a) :
      CommitStep s (.raise i)
        (({ s with coordination := a } : CommitState I R).goto i inv (.leaving .raised))
  | leave {i : I} {inv : CommitInvocation R} {completion : Completion} {raised : Bool}
      {a : AdmissionState I R} (hinv : s.invocation i = some inv)
      (hstage : inv.stage = .leaving completion)
      (ha : (admission_system config.policy).step s.coordination (.decision_exit i raised)
        = some a) :
      CommitStep s (.leave i)
        (({ s with coordination := a } : CommitState I R).goto i inv (.left completion))

variable {config}

variable {s s' : CommitState I R} {e : CommitEvent I R}

theorem coordinate_eq_some {t : CommitState I R} {e : AdmissionEvent I R}
    (h : s.coordinate config e = some t) :
    ∃ a, (admission_system config.policy).step s.coordination e = some a ∧
      t = { s with coordination := a } := by
  obtain ⟨a, ha, rfl⟩ := Option.map_eq_some_iff.mp h
  exact ⟨a, ha, rfl⟩

/-- The section of a known invocation. -/
theorem commit_section_step {inv : CommitInvocation R}
    (hinv : s.invocation e.invocation = some inv)
    (h : commit_section config s e.invocation inv e = some s') : CommitStep config s e s' := by
  cases e with
  | prepare i request agent invocation_id response => cases h
  | validate i engine storage =>
    simp only [commit_section] at h
    split at h
    · rename_i pass p rest hstage
      cases h
      exact .validate hinv hstage
    · cases h
  | decide i =>
    simp only [commit_section] at h
    split at h
    · rename_i pass hstage
      obtain ⟨t, ht, rfl⟩ := Option.map_eq_some_iff.mp h
      obtain ⟨a, ha, rfl⟩ := coordinate_eq_some ht
      exact .decide hinv hstage ha
    · cases h
  | recheck i =>
    simp only [commit_section] at h
    split at h
    · obtain ⟨a, ha, rfl⟩ := coordinate_eq_some h
      exact .recheck hinv (Or.inl rfl) ha
    · obtain ⟨a, ha, rfl⟩ := coordinate_eq_some h
      exact .recheck hinv (Or.inr rfl) ha
    · cases h
  | candidate i engine storage =>
    simp only [commit_section] at h
    split at h
    · rename_i f c rest hstage
      split at h
      · rename_i hbody
        cases h
        exact .candidate hinv hstage hbody
      · cases h
    · cases h
  | admission i =>
    simp only [commit_section] at h
    split at h
    · rename_i f c rest hstage
      obtain ⟨a, ha, rfl⟩ := coordinate_eq_some h
      exact .admission hinv hstage ha
    · cases h
  | execute i result =>
    simp only [commit_section] at h
    split at h
    · rename_i f c rest hstage
      split at h
      · rename_i hbody
        obtain ⟨t, ht, rfl⟩ := Option.map_eq_some_iff.mp h
        obtain ⟨a, ha, rfl⟩ := coordinate_eq_some ht
        exact .execute hinv hstage hbody ha
      · cases h
    · cases h
  | lose i =>
    simp only [commit_section] at h
    split at h
    · rename_i f c rest d winner hstage hbody
      obtain ⟨t, ht, rfl⟩ := Option.map_eq_some_iff.mp h
      obtain ⟨a, ha, rfl⟩ := coordinate_eq_some ht
      exact .lose hinv hstage hbody ha
    · cases h
  | finish i =>
    simp only [commit_section] at h
    split at h
    · rename_i f hstage
      split at h
      · rename_i hbody
        cases h
        exact .finish hinv hstage hbody
      · cases h
    · cases h
  | check i storage =>
    simp only [commit_section] at h
    split at h
    · rename_i f results hstage
      cases h
      exact .check hinv hstage
    · cases h
  | apply i storage =>
    simp only [commit_section] at h
    split at h
    · rename_i f results hstage
      split at h
      · rename_i e hfail
        cases h
        exact .apply_failed hinv hstage hfail
      · rename_i store changes hok
        split at h
        · cases h
          exact .apply_nothing hinv hstage
        · rename_i hupdates
          obtain ⟨entries, happly, rfl⟩ := apply_outcome_ok hupdates hok
          cases h
          exact .apply_commit hinv hstage happly
    · cases h
  | raise i =>
    simp only [commit_section] at h
    split at h
    · cases h
      exact .raise_early hinv
    · cases h
      exact .raise_body hinv
    · cases h
      exact .raise_body hinv
    · cases h
      exact .raise_body hinv
    · cases h
      exact .raise_body hinv
    · obtain ⟨t, ht, rfl⟩ := Option.map_eq_some_iff.mp h
      obtain ⟨a, ha, rfl⟩ := coordinate_eq_some ht
      exact .raise_admitted hinv ha
    · obtain ⟨t, ht, rfl⟩ := Option.map_eq_some_iff.mp h
      obtain ⟨a, ha, rfl⟩ := coordinate_eq_some ht
      exact .raise_admitted hinv ha
    · cases h
  | leave i =>
    simp only [commit_section] at h
    split at h
    · rename_i completion hstage
      obtain ⟨t, ht, rfl⟩ := Option.map_eq_some_iff.mp h
      obtain ⟨a, ha, rfl⟩ := coordinate_eq_some ht
      exact .leave hinv hstage ha
    · cases h

/-- Every step ends in one of the ways above. -/
theorem commit_step (h : (commit_system config).step s e = some s') : CommitStep config s e s' := by
  cases hinv : s.invocation e.invocation with
  | some inv =>
    have hsection : commit_section config s e.invocation inv e = some s' := by
      cases e <;> simpa [commit_system, hinv] using h
    exact commit_section_step hinv hsection
  | none =>
    cases e with
    | prepare i request agent invocation_id response =>
      have hnone : s.invocation i = none := hinv
      simp only [commit_system, hinv, Option.some.injEq] at h
      exact h ▸ .prepare hnone
    | _ => simp [commit_system, hinv] at h

end Steps

end MininetAi
