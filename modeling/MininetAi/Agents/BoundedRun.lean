/-
A run of the bounded adapter (`BoundedDecisionAdapter.run` and `_inspect_policy` of
`mininet_ai/agents/bounded.py`, `DecisionScenario` of `mininet_ai/specification/models.py`).

The scenario fixes one bundle of steps. The adapter inspects which steps are installed,
asks the native model for a choice, and emits what is left of the bundle, numbered by the
positions of its steps. It stops at the first thing it is not sure of: an expired budget,
a revoked authority, a state that is no prefix of the bundle, evidence that is not fresh.

The clock, the inspector, the transport, the authority and the substrate are the
environment's. The records of a decision and the context sent to the model are left out.
-/
import MininetAi.Agents.Bounded
import MininetAi.Agents.NativeChoice
import MininetAi.Agents.Reconciliation
import MininetAi.Agents.RecoveryEvidence

set_option autoImplicit false

namespace MininetAi

open List Except

/-! ## Scenarios -/

inductive InputMode where
  | recovery_history
  | current_only
  deriving DecidableEq

structure DecisionChoice where
  id : String
  description : String
  proposals : List BundleStep := []
  description_nonempty : description ≠ ""
  bundle_given : id = "install_recovery" → proposals ≠ []

/-- `DecisionScenario`; `max_age` is that of its observations. The last fields are what its
validator checks of the choices. -/
structure DecisionScenario where
  input_mode : InputMode := .recovery_history
  choices : List DecisionChoice
  max_age : ℚ := 2
  ids_unique : (choices.map DecisionChoice.id).Nodup
  current_only : input_mode = .current_only → ∀ choice ∈ choices, choice.proposals = []
  recovery_history : input_mode = .recovery_history →
    choices.map DecisionChoice.id = ["no_action", "install_recovery"] ∧
      ∀ choice ∈ choices, choice.id = "no_action" → choice.proposals = []

namespace DecisionScenario

/-- The choices with their bundles. -/
def bundles (scenario : DecisionScenario) : List (String × List BundleStep) :=
  scenario.choices.map fun choice => (choice.id, choice.proposals)

/-- The choices with their descriptions. -/
def criteria (scenario : DecisionScenario) : List (String × String) :=
  scenario.choices.map fun choice => (choice.id, choice.description)

/-- The bundle that `_bundle_requests` is built from. -/
def bundle (scenario : DecisionScenario) : List BundleStep :=
  (scenario.choices.find? fun choice => choice.id = "install_recovery").elim []
    DecisionChoice.proposals

end DecisionScenario

/-! ## Runs -/

/-- What a run meets, in this order. -/
structure DecisionEnvironment where
  deadline : ℚ
  /-- The reading of the clock before the inspection. -/
  inspected : ℚ
  /-- What the inspector does; `none` when there is none. -/
  inspector : Option (Except String (List String))
  /-- The reading after the input assembly. -/
  assembled : ℚ
  reply : Except TransportError NativePayload
  /-- The reading after the inference, and what the authority says. -/
  decided : ℚ
  revoked : Option RevocationReason := none
  /-- The reading before the recheck. -/
  rechecking : ℚ
  substrate : Option ObserveCall := none
  /-- How many calls in each other the interpreter has room for. -/
  room : ℕ
  /-- The reading after the recheck, and what the authority says. -/
  rechecked : ℚ
  revoked_again : Option RevocationReason := none

/-- What `_inspect_policy` records. -/
structure PolicyInspection where
  status : String
  states : List String
  reconciled : Reconciliation
  failure : Option String

def inspect_policy (bundle : List BundleStep) (inspector : Option (Except String (List String)))
    (timeout_seconds : ℚ) : PolicyInspection :=
  let record (status : String) (states : List String) (failure : Option String) :
      PolicyInspection := ⟨status, states, reconcile_bundle states, failure⟩
  let unreadable := replicate bundle.length "unreadable"
  if timeout_seconds ≤ 0 then
    record "expired" unreadable
      (some "decision deadline expired before scenario rule inspection")
  else match inspector with
  | none => record "unsupported" (replicate bundle.length "unknown")
      (some "substrate does not provide trusted scenario rule inspection")
  | some (.error message) => record "unreadable" unreadable (some message)
  | some (.ok states) =>
    if states.length ≠ bundle.length then
      record "unreadable" unreadable
        (some "ValueError: inspection returned an incomplete rule state")
    else record "recorded" states none

/-- The error of a result that comes too late. -/
def late_error (message : String) (revoked : Option RevocationReason) : BoundedError :=
  bounded_error (if revoked = some .cancelled then "cancelled" else "timeout") message

/-- The id of a step is its position in the bundle. -/
def bounded_proposal (index : ℕ) (step : BundleStep) : ActionProposal where
  id := "bounded-" ++ toString (index + 1)
  capability := step.capability
  target := step.target
  arguments := step.arguments

/-- What a run decides. -/
structure BoundedDecision where
  choice_id : String
  proposals : List ActionProposal
  deriving DecidableEq

def recursion_error : BoundedError where
  code := none
  message := "maximum recursion depth exceeded"

/-- The part of `run` about a recovery. -/
def confirm_recovery (agent : BoundAgent) (scenario : DecisionScenario)
    (environment : DecisionEnvironment) (run_id : String) (policy : PolicyState) :
    Except BoundedError Unit := do
  refuse_if (policy = .unknown) (bounded_error "reconciliation-failed"
    "scenario-owned rule state is unknown; recovery retry refused")
  refuse_if (policy = .verified_recovery) (bounded_error "redundant-recovery"
    "recovery was selected after the full policy was already verified")
  let evidence ← (recheck_recovery_evidence environment.room agent environment.substrate
    scenario.max_age run_id (max 0 (environment.deadline - environment.rechecking))).elim
    (.error recursion_error) .ok
  refuse_if (environment.revoked_again ≠ none ∨ environment.deadline ≤ environment.rechecked)
    (late_error
      "bounded decision deadline or cancellation occurred during recovery evidence recheck"
      environment.revoked_again)
  refuse_if (evidence.eligible = false) (bounded_error "retry-ineligible" evidence.message)

/-- The positions of the steps that are emitted. -/
def emitted_indexes (result : ChoiceResult) (reconciled : Reconciliation) : List ℕ :=
  if result.choice_id = "install_recovery" ∧ reconciled.policy = .partially then
    (range result.proposals.length).filter fun index => index ∉ reconciled.present
  else range result.proposals.length

/-- What a run knows of the bundle; in a scenario with current inputs only it does not look. -/
def known_policy (scenario : DecisionScenario) (environment : DecisionEnvironment) :
    Reconciliation :=
  match scenario.input_mode with
  | .current_only => { policy := .unknown, present := [], missing := [] }
  | .recovery_history => (inspect_policy scenario.bundle environment.inspector
      (max 0 (environment.deadline - environment.inspected))).reconciled

/-- `run`. -/
def bounded_run (agent : BoundAgent) (scenario : DecisionScenario)
    (environment : DecisionEnvironment) (run_id : String) : Except BoundedError BoundedDecision := do
  let reconciled := known_policy scenario environment
  refuse_if (environment.deadline - environment.assembled ≤ 0)
    (bounded_error "timeout" "bounded decision deadline expired during input assembly")
  let result ← (NativeSystemOneClient.decide scenario.criteria scenario.bundles environment.reply).mapError
    DecisionError.error
  refuse_if (result.choice_id = "no_action" ∧ result.proposals ≠ [])
    (bounded_error "native-contract-violation" "no_action unexpectedly mapped to proposals")
  refuse_if (environment.revoked ≠ none ∨ environment.deadline ≤ environment.decided)
    (late_error ("bounded decision result arrived after cancellation or its admission deadline; " ++
      "late result discarded") environment.revoked)
  if result.choice_id = "install_recovery" then
    confirm_recovery agent scenario environment run_id reconciled.policy
  let proposals := (emitted_indexes result reconciled).filterMap fun index =>
    result.proposals[index]?.map (bounded_proposal index)
  refuse_if (¬ (proposals.map ActionProposal.id).Nodup)
    { code := none, message := "action proposal ids must be unique" }
  pure { choice_id := result.choice_id, proposals := proposals }

/-! ## Bundles -/

/-- `p` is the step of the bundle at a position, under the id of that position. -/
def StepAt (bundle : List BundleStep) (index : ℕ) (p : ActionProposal) : Prop :=
  ∃ step, bundle[index]? = some step ∧ p = bounded_proposal index step

/-- The inspection has found `k` steps installed and the `m` after them missing. -/
structure Resumable (scenario : DecisionScenario) (environment : DecisionEnvironment) (k m : ℕ) :
    Prop where
  found : environment.inspector = some (.ok (installed k m))
  some_missing : 0 < m
  all_steps : k + m = scenario.bundle.length

variable {bundle : List BundleStep}

theorem steps_at {indexes : List ℕ} (h : ∀ index ∈ indexes, index < bundle.length) :
    Forall₂ (StepAt bundle) indexes
      (indexes.filterMap fun index => bundle[index]?.map (bounded_proposal index)) := by
  induction indexes with
  | nil => exact .nil
  | cons index indexes ih =>
    have hlt := h index mem_cons_self
    have hstep := getElem?_eq_getElem hlt
    rw [filterMap_cons, hstep]
    refine .cons ⟨bundle[index], hstep, rfl⟩ (ih fun other hother => ?_)
    exact h other (mem_cons_of_mem _ hother)

variable {scenario : DecisionScenario} {proposals : List BundleStep}

/-- The bundle of a choice. -/
theorem DecisionScenario.lookup_bundles {id : String}
    (h : scenario.bundles.lookup id = some proposals) :
    (id = "install_recovery" → proposals = scenario.bundle) ∧
      (id ≠ "install_recovery" → proposals = []) := by
  have hfind : ∃ choice ∈ scenario.choices, choice.id = id ∧ choice.proposals = proposals := by
    obtain ⟨_, _, heq, -⟩ := List.lookup_eq_some_iff.mp h
    have hmem : (id, proposals) ∈ scenario.bundles := by
      rw [heq]
      exact mem_append_right _ mem_cons_self
    obtain ⟨choice, hchoice, hpair⟩ := mem_map.mp hmem
    exact ⟨choice, hchoice, congrArg Prod.fst hpair, congrArg Prod.snd hpair⟩
  obtain ⟨choice, hchoice, hid, hproposals⟩ := hfind
  constructor
  · intro hinstall
    rw [hinstall] at hid
    have hsome : (scenario.choices.find? fun choice => choice.id = "install_recovery").isSome := by
      rw [find?_isSome]
      exact ⟨choice, hchoice, decide_eq_true hid⟩
    obtain ⟨found, hfound⟩ := Option.isSome_iff_exists.mp hsome
    have hfoundid := find?_some hfound
    have hsame := inj_on_of_nodup_map scenario.ids_unique
      (mem_of_find?_eq_some hfound) hchoice ((of_decide_eq_true hfoundid).trans hid.symm)
    rw [DecisionScenario.bundle, hfound, Option.elim_some, hsame, hproposals]
  · intro hother
    rw [← hproposals]
    cases hmode : scenario.input_mode with
    | current_only => exact scenario.current_only hmode choice hchoice
    | recovery_history =>
      obtain ⟨hids, hnone⟩ := scenario.recovery_history hmode
      have hmem := mem_map_of_mem (f := DecisionChoice.id) hchoice
      rw [hids, hid] at hmem
      rcases mem_cons.mp hmem with heq | hmem
      · exact hnone choice hchoice (hid.trans heq)
      · exact absurd (mem_singleton.mp hmem) hother

/-- A scenario with an installing choice has steps to install. -/
theorem DecisionScenario.bundle_nonempty
    (h : scenario.bundles.lookup "install_recovery" = some proposals) : scenario.bundle ≠ [] := by
  have heq := (DecisionScenario.lookup_bundles h).1 rfl
  obtain ⟨_, _, hsplit, -⟩ := List.lookup_eq_some_iff.mp h
  have hmem : ("install_recovery", proposals) ∈ scenario.bundles := by
    rw [hsplit]
    exact mem_append_right _ mem_cons_self
  obtain ⟨choice, -, hpair⟩ := mem_map.mp hmem
  have hid : choice.id = "install_recovery" := congrArg Prod.fst hpair
  have hproposals : choice.proposals = proposals := congrArg Prod.snd hpair
  rw [← heq, ← hproposals]
  exact choice.bundle_given hid

/-! ## Inspections -/

/-- States that nobody has reported are unknown. -/
theorem reconcile_unreported {n : ℕ} {state : String} (hpresent : state ≠ "present")
    (hmissing : state ≠ "missing") (hn : n ≠ 0) :
    (reconcile_bundle (replicate n state)).policy = .unknown := by
  have hin : ∃ other ∈ replicate n state, other ≠ "present" ∧ other ≠ "missing" :=
    ⟨state, mem_replicate.mpr ⟨hn, rfl⟩, hpresent, hmissing⟩
  rw [reconcile_bundle, if_pos hin]

/-- A policy that is not unknown is that of states the inspector has reported. -/
theorem inspect_policy_known
    {inspector : Option (Except String (List String))} {timeout_seconds : ℚ} (hsome : bundle ≠ [])
    (h : (inspect_policy bundle inspector timeout_seconds).reconciled.policy ≠ .unknown) :
    ∃ states, inspector = some (.ok states) ∧ states.length = bundle.length ∧
      (inspect_policy bundle inspector timeout_seconds).reconciled = reconcile_bundle states := by
  have hn : bundle.length ≠ 0 := mt length_eq_zero_iff.mp hsome
  have hunreadable : (reconcile_bundle
      (replicate bundle.length "unreadable")).policy = .unknown :=
    reconcile_unreported (by decide) (by decide) hn
  have hunsupported : (reconcile_bundle
      (replicate bundle.length "unknown")).policy = .unknown :=
    reconcile_unreported (by decide) (by decide) hn
  unfold inspect_policy at h ⊢
  simp only at h ⊢
  by_cases htime : timeout_seconds ≤ 0
  · rw [if_pos htime] at h
    exact absurd hunreadable h
  rw [if_neg htime] at h ⊢
  cases inspector with
  | none => exact absurd hunsupported h
  | some reported =>
    cases reported with
    | error message => exact absurd hunreadable h
    | ok states =>
      simp only at h ⊢
      by_cases hlength : states.length ≠ bundle.length
      · rw [if_pos hlength] at h
        exact absurd hunreadable h
      · rw [if_neg hlength]
        exact ⟨states, rfl, not_not.mp hlength, rfl⟩

/-- A recovery that is confirmed can be resumed, and its policy is the reported one. -/
theorem confirm_recovery_ok {agent : BoundAgent} {environment : DecisionEnvironment}
    {run_id : String} (hbundle : scenario.bundles.lookup "install_recovery" = some proposals)
    (h : confirm_recovery agent scenario environment run_id
      (known_policy scenario environment).policy = .ok ()) :
    ∃ k m, Resumable scenario environment k m ∧
      known_policy scenario environment = reconcile_bundle (installed k m) := by
  obtain ⟨_, hunknown, h⟩ := bind_ok_iff.mp h
  obtain ⟨_, hrecovered, -⟩ := bind_ok_iff.mp h
  have hknown := refuse_if_ok_iff.mp hunknown
  have hpending := refuse_if_ok_iff.mp hrecovered
  have hsome := DecisionScenario.bundle_nonempty hbundle
  unfold known_policy at hknown hpending ⊢
  cases hmode : scenario.input_mode with
  | current_only =>
    rw [hmode] at hknown
    exact absurd rfl hknown
  | recovery_history =>
    rw [hmode] at hknown hpending
    obtain ⟨states, hinspector, hlength, hreconciled⟩ := inspect_policy_known hsome hknown
    simp only at hknown hpending ⊢
    rw [hreconciled] at hknown hpending ⊢
    have hstates : states ≠ [] := by
      intro hempty
      rw [hempty] at hlength
      exact hsome (length_eq_zero_iff.mp hlength.symm)
    obtain ⟨k, m, rfl, hm⟩ := resumable_cases hknown hpending hstates
    refine ⟨k, m, ⟨hinspector, hm, ?_⟩, rfl⟩
    rw [← hlength, installed, length_append, length_replicate, length_replicate]

/-- The steps left of a bundle. -/
theorem remaining_indexes (k m : ℕ) :
    ((range (k + m)).filter fun index => index ∉ range k) = range' k m := by
  have hsplit : range (k + m) = range k ++ range' k m := by
    rw [range_eq_range', range_eq_range', ← range'_append_1, Nat.zero_add]
  rw [hsplit, filter_append]
  have hnone : (range k).filter (fun index => index ∉ range k) = [] := by
    refine filter_eq_nil_iff.mpr fun index hmem hnot => ?_
    exact of_decide_eq_true hnot hmem
  have hall : (range' k m).filter (fun index => index ∉ range k) = range' k m := by
    refine filter_eq_self.mpr fun index hmem => decide_eq_true fun hlt => ?_
    have hle := (mem_range'_1.mp hmem).1
    have hlt := mem_range.mp hlt
    omega
  rw [hnone, hall, nil_append]

theorem emitted_of_installed {result : ChoiceResult} {k m : ℕ}
    (hinstall : result.choice_id = "install_recovery") (hm : 0 < m)
    (hlength : k + m = result.proposals.length) :
    emitted_indexes result (reconcile_bundle (installed k m)) = range' k m := by
  unfold emitted_indexes
  rw [reconcile_installed]
  simp only
  rw [← hlength]
  by_cases hk : k = 0
  · have hpolicy : installed_policy k m = .verified_primary := if_pos hk
    have hprimary : ¬ (result.choice_id = "install_recovery" ∧
        installed_policy k m = .partially) := by
      rintro ⟨-, h⟩
      rw [hpolicy] at h
      cases h
    rw [if_neg hprimary, hk, Nat.zero_add, range_eq_range']
  · have hpolicy : installed_policy k m = .partially := by
      rw [installed_policy, if_neg hk, if_neg (Nat.pos_iff_ne_zero.mp hm)]
    rw [if_pos ⟨hinstall, hpolicy⟩]
    exact remaining_indexes k m

/-! ## The resume law -/

/-- What a run may emit. -/
structure ResumeLaw (scenario : DecisionScenario) (environment : DecisionEnvironment)
    (decision : BoundedDecision) : Prop where
  steps : ∃ indexes : List ℕ, indexes.Pairwise (· < ·) ∧
    Forall₂ (StepAt scenario.bundle) indexes decision.proposals
  no_action : decision.choice_id = "no_action" → decision.proposals = []
  install : decision.choice_id = "install_recovery" → ∃ k m, Resumable scenario environment k m ∧
    Forall₂ (StepAt scenario.bundle) (range' k m) decision.proposals

theorem install_ne_no_action : "install_recovery" ≠ "no_action" := by decide

/-- The resume law: what a run emits is steps of the bundle, a recovery emits exactly the
missing suffix of a prefix, and a recovery of any other state is refused. -/
theorem bounded_resume (agent : BoundAgent) (scenario : DecisionScenario)
    (environment : DecisionEnvironment) (run_id : String) :
    (∀ decision, bounded_run agent scenario environment run_id = .ok decision →
      ResumeLaw scenario environment decision) ∧
    ∀ result, NativeSystemOneClient.decide scenario.criteria scenario.bundles environment.reply =
        .ok result → result.choice_id = "install_recovery" →
      (¬ ∃ k m, Resumable scenario environment k m) →
      ∃ e, bounded_run agent scenario environment run_id = .error e := by
  have hrun : ∀ decision, bounded_run agent scenario environment run_id = .ok decision →
      ∃ result, NativeSystemOneClient.decide scenario.criteria scenario.bundles
          environment.reply = .ok result ∧ result.choice_id = decision.choice_id ∧
        ResumeLaw scenario environment decision := by
    intro decision h
    obtain ⟨_, -, h⟩ := bind_ok_iff.mp h
    obtain ⟨result, hdecide, h⟩ := bind_ok_iff.mp h
    have hdecide := mapError_ok_iff.mp hdecide
    obtain ⟨_, -, h⟩ := bind_ok_iff.mp h
    obtain ⟨_, -, h⟩ := bind_ok_iff.mp h
    refine ⟨result, hdecide, ?_⟩
    obtain ⟨payload, -, hmap⟩ := NativeSystemOneClient.decide_ok hdecide
    have hselects := map_choice_ok hmap
    obtain ⟨hinstalls, hothers⟩ := DecisionScenario.lookup_bundles hselects.bundle
    by_cases hinstall : result.choice_id = "install_recovery"
    · rw [if_pos hinstall] at h
      obtain ⟨_, hconfirm, h⟩ := bind_ok_iff.mp h
      obtain ⟨_, -, h⟩ := bind_ok_iff.mp h
      cases h
      refine ⟨rfl, ?_⟩
      have hbundle := hselects.bundle
      rw [hinstall] at hbundle
      obtain ⟨k, m, hresumable, hknown⟩ := confirm_recovery_ok hbundle hconfirm
      have hlength : k + m = result.proposals.length := by
        rw [hinstalls hinstall]
        exact hresumable.all_steps
      have hsteps : Forall₂ (StepAt scenario.bundle) (range' k m)
          ((emitted_indexes result (known_policy scenario environment)).filterMap fun index =>
            result.proposals[index]?.map (bounded_proposal index)) := by
        rw [hknown, emitted_of_installed hinstall hresumable.some_missing hlength,
          hinstalls hinstall]
        refine steps_at fun index hmem => ?_
        have hlt := (mem_range'_1.mp hmem).2
        have hall := hresumable.all_steps
        omega
      refine ⟨⟨_, pairwise_lt_range', hsteps⟩, fun hnone => ?_, fun _ => ⟨k, m, hresumable, hsteps⟩⟩
      rw [hinstall] at hnone
      exact absurd hnone install_ne_no_action
    · rw [if_neg hinstall] at h
      obtain ⟨_, -, h⟩ := bind_ok_iff.mp h
      cases h
      have hempty := hothers hinstall
      have hnothing : (emitted_indexes result (known_policy scenario environment)).filterMap
          (fun index => result.proposals[index]?.map (bounded_proposal index)) = [] := by
        refine filterMap_eq_nil_iff.mpr fun index _ => ?_
        rw [hempty, getElem?_nil, Option.map_none]
      refine ⟨rfl, ⟨[], .nil, ?_⟩, fun _ => hnothing, fun h => absurd h hinstall⟩
      simp only [hnothing]
      exact .nil
  refine ⟨fun decision h => ?_, fun result hdecide hinstall hnot => ?_⟩
  · obtain ⟨result, -, -, hlaw⟩ := hrun decision h
    exact hlaw
  · cases hresult : bounded_run agent scenario environment run_id with
    | error e => exact ⟨e, rfl⟩
    | ok decision =>
      obtain ⟨result', hdecide', hsame, hlaw⟩ := hrun decision hresult
      rw [hdecide] at hdecide'
      cases hdecide'
      obtain ⟨k, m, hresumable, -⟩ := hlaw.install (hsame.symm.trans hinstall)
      exact absurd ⟨k, m, hresumable⟩ hnot

/-- A bundle of two steps. -/
def two_step_scenario : DecisionScenario where
  choices :=
    [{ id := "no_action"
       description := "wait"
       description_nonempty := by decide
       bundle_given := by decide },
     { id := "install_recovery"
       description := "recover"
       proposals := [{ capability := "flow", target := "s1" }, { capability := "flow", target := "s2" }]
       description_nonempty := by decide
       bundle_given := by decide }]
  ids_unique := by decide
  current_only := by decide
  recovery_history := by decide

/-- The response that selects the recovery. -/
def recovery_response : NativeValue :=
  .obj [("answers", .obj [("next_action",
    .obj [("type", .str "choice"), ("choice", .str "install_recovery")])])]

/-- A substrate whose probes find every target eligible. -/
def eligible_substrate : ObserveCall := fun run_id query =>
  .ok
    { observed :=
        { run_id := run_id
          query := query
          observed_at := 0
          values := query.targets.map fun target => (target, .obj [("eligible", .bool true)]) }
      now := 1 }

/-- The first step is installed, and there is time for everything. -/
def one_step_installed : DecisionEnvironment where
  deadline := 5
  inspected := 0
  inspector := some (.ok ["present", "missing"])
  assembled := 0
  reply := .ok (.value recovery_response)
  decided := 1
  rechecking := 1
  substrate := some eligible_substrate
  room := 900
  rechecked := 1

/-- Whether a run has emitted the second step alone. -/
def emits_second (decision : BoundedDecision) : Bool :=
  decision.choice_id = "install_recovery" ∧
    decision.proposals.map ActionProposal.id = ["bounded-2"]

/-- The run of the adapter that the second step is left of. -/
theorem bounded_resume_second :
    ∃ decision, bounded_run { decision_inputs := [("pathProbes", "probes")], targets := ["s1"] }
        two_step_scenario one_step_installed "r" = .ok decision ∧
      ResumeLaw two_step_scenario one_step_installed decision ∧
      decision.proposals.map ActionProposal.id = ["bounded-2"] := by
  have hruns : (bounded_run { decision_inputs := [("pathProbes", "probes")], targets := ["s1"] }
      two_step_scenario one_step_installed "r").toOption.any emits_second = true := by
    decide +kernel
  obtain ⟨decision, hdecision, hemits⟩ := (Option.any_eq_true _ _).mp hruns
  have hok := toOption_some_iff.mp hdecision
  exact ⟨decision, hok, (bounded_resume _ _ _ _).1 decision hok, (of_decide_eq_true hemits).2⟩

end MininetAi
