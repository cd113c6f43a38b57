/-
What is reported of a commit (`complete` of `mininet_ai/agents/runtime.py`).

The store commits only when every action has succeeded. What it has committed is in every result
that the part behind the commit returns. So a commit is reported when this part is reached and
returns, which depends on the audit recorder and on the clock; an exception of the provider costs
nothing as long as it has a text.
-/
import Mathlib.Algebra.Order.Ring.Unbundled.Rat
import MininetAi.Agents.Completion

set_option autoImplicit false

namespace MininetAi

open Except

namespace CompletionEnvironment

variable {env : CompletionEnvironment} {prepared : PreparedAgentInvocation}

/-! ## What the calls do -/

/-- A record is made, or there is no recorder. -/
def Audited (env : CompletionEnvironment) (site : AuditSite) : Prop := env.audit_record site = .ok ()

/-- The clock is read, and is not behind the start. -/
def Timed (env : CompletionEnvironment) (site : ClockSite) : Prop := ∃ t, env.clock site = .ok t ∧ env.started_at ≤ t

/-- An exception that an issue can be made of. -/
def Described (failure : CallFailure) : Prop :=
  failure.is_caught = true ∧ ∃ message, failure.message = .ok message ∧ message ≠ ""

/-- The failure in an update of the provider. -/
def update_report (response : AgentResponse) : Option (List (String × JsonValue)) → Except CallFailure (Option JsonValue)
  | none => .ok none
  | some update => execution_record response update >>= reported_failure

/-- What the provider reports of the results: nothing, a correctness failure, or an exception. -/
def provider_report (env : CompletionEnvironment) (response : AgentResponse) : Except CallFailure (Option JsonValue) :=
  env.record_action_results >>= update_report response

/-- What the handling of the results raises. -/
inductive Raises (env : CompletionEnvironment) (prepared : PreparedAgentInvocation) : CallFailure → Prop where
  | provider {e : CallFailure} (report : env.provider_report prepared.response = .error e) : Raises env prepared e
  | clock {failure : JsonValue} {e : CallFailure} (report : env.provider_report prepared.response = .ok (some failure))
      (raises : env.clock .incorrect = .error e) : Raises env prepared e
  | issue {failure : JsonValue} {e : CallFailure} {t : ℚ} (report : env.provider_report prepared.response = .ok (some failure))
      (read : env.clock .incorrect = .ok t) (invalid : correctness_issue prepared.context.agent_id failure = .error e) :
      Raises env prepared e
  | early {failure : JsonValue} {t : ℚ} {issue : AgentRuntimeIssue}
      (report : env.provider_report prepared.response = .ok (some failure)) (read : env.clock .incorrect = .ok t)
      (built : correctness_issue prepared.context.agent_id failure = .ok issue) (behind : t < env.started_at) :
      Raises env prepared (.raised (validation_error "AgentInvocationResult"))
  | audit {failure : JsonValue} {e : CallFailure} {issue : AgentRuntimeIssue}
      (report : env.provider_report prepared.response = .ok (some failure)) (timed : env.Timed .incorrect)
      (built : correctness_issue prepared.context.agent_id failure = .ok issue)
      (raises : env.audit_record .finalized_incorrect = .error e) : Raises env prepared e

/-- The part behind the commit returns: the results are handled without an exception, or with one that
becomes a failed result. -/
inductive Concludes (env : CompletionEnvironment) (prepared : PreparedAgentInvocation) : Prop where
  | quiet (report : env.provider_report prepared.response = .ok none) (timed : env.Timed .completed)
      (audited : env.Audited .finalized) : Concludes env prepared
  | incorrect {failure : JsonValue} {issue : AgentRuntimeIssue}
      (report : env.provider_report prepared.response = .ok (some failure))
      (built : correctness_issue prepared.context.agent_id failure = .ok issue) (timed : env.Timed .incorrect)
      (audited : env.Audited .finalized_incorrect) : Concludes env prepared
  | failed {e : CallFailure} (raises : env.Raises prepared e) (described : Described e) (recorded : env.Audited .agent_failed)
      (timed : env.Timed .failed) (audited : env.Audited .finalized_failed) : Concludes env prepared

/-! ## Results -/

variable {r : AgentInvocationResult} {response : AgentResponse}
  {action_results : List ActionResult} {changes : List SharedStateChange} {e : CallFailure}

theorem timed_result_ok_iff {α : Type} {site : ClockSite} {issue : Except CallFailure α}
    {result : α → AgentInvocationResult} :
    env.timed_result site issue result = .ok r ↔ env.Timed site ∧ ∃ built, issue = .ok built ∧ result built = r := by
  constructor
  · intro h
    obtain ⟨t, ht, h⟩ := bind_ok_iff.mp h
    obtain ⟨built, hbuilt, h⟩ := bind_ok_iff.mp h
    obtain ⟨_, hstart, h⟩ := bind_ok_iff.mp h
    exact ⟨⟨t, ht, not_lt.mp (refuse_if_ok_iff.mp hstart)⟩, built, hbuilt, Except.ok.inj h⟩
  · rintro ⟨⟨t, ht, hstart⟩, built, hbuilt, rfl⟩
    exact bind_ok_iff.mpr ⟨t, ht, bind_ok_iff.mpr ⟨built, hbuilt, bind_ok_iff.mpr
      ⟨(), refuse_if_ok_iff.mpr (not_lt.mpr hstart), rfl⟩⟩⟩

theorem error_code_nonempty (failure : CallFailure) : failure.error_code ≠ "" := by
  rw [CallFailure.error_code]
  cases hcode : failure.code.filter fun code => code ≠ "" with
  | none =>
    by_cases htimeout : failure.is_timeout = true
    · rw [if_pos htimeout]
      decide
    · rw [if_neg htimeout]
      decide
  | some code => exact of_decide_eq_true (Option.filter_eq_some_iff.mp hcode).2

/-- The handler of an exception returns a failed result when the exception is described, and the calls
on the way succeed. -/
theorem handling_failed_ok_iff :
    (∃ r, env.handling_failed prepared response action_results changes e = .ok r) ↔
      Described e ∧ env.Audited .agent_failed ∧ env.Timed .failed ∧ env.Audited .finalized_failed := by
  have hissue : ∀ message, (∃ issue, invocation_issue prepared.context.agent_id e.error_code message = .ok issue) ↔
      message ≠ "" := by
    intro message
    rw [invocation_issue]
    by_cases hempty : message = ""
    · rw [if_pos (Or.inr hempty)]
      exact iff_of_false (fun ⟨_, h⟩ => by cases h) fun hne => hne hempty
    · rw [if_neg (not_or.mpr ⟨error_code_nonempty e, hempty⟩)]
      exact iff_of_true ⟨_, rfl⟩ hempty
  constructor
  · rintro ⟨r, h⟩
    obtain ⟨_, hcaught, h⟩ := bind_ok_iff.mp h
    obtain ⟨_, -, h⟩ := bind_ok_iff.mp h
    obtain ⟨_, hrecorded, h⟩ := bind_ok_iff.mp h
    obtain ⟨result, hresult, h⟩ := bind_ok_iff.mp h
    obtain ⟨_, haudited, -⟩ := bind_ok_iff.mp h
    obtain ⟨htimed, issue, hbuilt, -⟩ := timed_result_ok_iff.mp hresult
    obtain ⟨message, hmessage, hbuilt⟩ := bind_ok_iff.mp hbuilt
    have hcaught := Bool.eq_true_of_not_eq_false (refuse_if_ok_iff.mp hcaught)
    exact ⟨⟨hcaught, message, hmessage, (hissue message).mp ⟨issue, hbuilt⟩⟩, hrecorded, htimed, haudited⟩
  · rintro ⟨⟨hcaught, message, hmessage, hne⟩, hrecorded, htimed, haudited⟩
    obtain ⟨issue, hbuilt⟩ := (hissue message).mpr hne
    have hdata : ∃ text, env.error_data e = .ok text := by
      rw [error_data]
      by_cases haudit : env.audit.isSome = true
      · rw [if_pos haudit]
        exact ⟨message, hmessage⟩
      · rw [if_neg haudit]
        exact ⟨"", rfl⟩
    obtain ⟨text, htext⟩ := hdata
    have hpasses : ¬ e.is_caught = false := ne_false_of_eq_true hcaught
    refine ⟨_, bind_ok_iff.mpr ⟨(), refuse_if_ok_iff.mpr hpasses, bind_ok_iff.mpr ⟨text, htext,
      bind_ok_iff.mpr ⟨(), hrecorded, bind_ok_iff.mpr ⟨_, timed_result_ok_iff.mpr
        ⟨htimed, issue, bind_ok_iff.mpr ⟨message, hmessage, hbuilt⟩, rfl⟩, bind_ok_iff.mpr ⟨(), haudited, rfl⟩⟩⟩⟩⟩⟩

theorem handling_failed_changes
    (h : env.handling_failed prepared response action_results changes e = .ok r) :
    r.shared_state_changes = changes := by
  obtain ⟨_, -, h⟩ := bind_ok_iff.mp h
  obtain ⟨_, -, h⟩ := bind_ok_iff.mp h
  obtain ⟨_, -, h⟩ := bind_ok_iff.mp h
  obtain ⟨result, hresult, h⟩ := bind_ok_iff.mp h
  obtain ⟨_, -, h⟩ := bind_ok_iff.mp h
  obtain ⟨-, issue, -, rfl⟩ := timed_result_ok_iff.mp hresult
  rw [← Except.ok.inj h]
  rfl

/-! ## The handling of the results -/

section Handling

variable {action_results : List ActionResult} {changes : List SharedStateChange}

/-- What the provider reports decides what the handling does. -/
theorem handle_results_eq : ∃ response, env.handle_results prepared action_results changes =
    (response, env.provider_report prepared.response >>= env.incorrect_result prepared response action_results changes) := by
  rw [handle_results, provider_report]
  cases env.record_action_results with
  | error e => exact ⟨_, rfl⟩
  | ok update =>
    cases update with
    | none => exact ⟨_, rfl⟩
    | some update =>
      show ∃ response, _ = (response, (execution_record prepared.response update >>= reported_failure) >>= _)
      cases hrecord : execution_record prepared.response update with
      | error e =>
        simp only [hrecord]
        exact ⟨prepared.response, rfl⟩
      | ok record =>
        simp only [hrecord]
        exact ⟨_, rfl⟩

variable {response : AgentResponse} {r : AgentInvocationResult}

theorem handled_quiet_iff :
    (env.provider_report prepared.response >>= env.incorrect_result prepared response action_results changes) = .ok none ↔
      env.provider_report prepared.response = .ok none := by
  rw [bind_ok_iff]
  constructor
  · rintro ⟨report, hreport, h⟩
    cases report with
    | none => exact hreport
    | some failure =>
      obtain ⟨result, -, h⟩ := bind_ok_iff.mp h
      obtain ⟨_, -, h⟩ := bind_ok_iff.mp h
      cases h
  · exact fun h => ⟨none, h, rfl⟩

theorem handled_incorrect
    (h : (env.provider_report prepared.response >>= env.incorrect_result prepared response action_results changes) =
      .ok (some r)) :
    r.shared_state_changes = changes ∧ ∃ failure issue, env.provider_report prepared.response = .ok (some failure) ∧
      correctness_issue prepared.context.agent_id failure = .ok issue ∧ env.Timed .incorrect ∧
      env.Audited .finalized_incorrect := by
  obtain ⟨report, hreport, h⟩ := bind_ok_iff.mp h
  cases report with
  | none => cases h
  | some failure =>
    obtain ⟨result, hresult, h⟩ := bind_ok_iff.mp h
    obtain ⟨_, haudited, h⟩ := bind_ok_iff.mp h
    obtain ⟨htimed, issue, hbuilt, rfl⟩ := timed_result_ok_iff.mp hresult
    rw [← Option.some.inj (Except.ok.inj h)]
    exact ⟨rfl, failure, issue, hreport, hbuilt, htimed, haudited⟩

theorem handled_of_incorrect {failure : JsonValue} {issue : AgentRuntimeIssue}
    (hreport : env.provider_report prepared.response = .ok (some failure))
    (hbuilt : correctness_issue prepared.context.agent_id failure = .ok issue)
    (htimed : env.Timed .incorrect) (haudited : env.Audited .finalized_incorrect) :
    (env.provider_report prepared.response >>= env.incorrect_result prepared response action_results changes) =
      .ok (some (failed_invocation prepared response action_results changes issue)) :=
  bind_ok_iff.mpr ⟨_, hreport, bind_ok_iff.mpr
    ⟨_, timed_result_ok_iff.mpr ⟨htimed, issue, hbuilt, rfl⟩, bind_ok_iff.mpr ⟨(), haudited, rfl⟩⟩⟩

theorem handled_raises_iff {e : CallFailure} :
    (env.provider_report prepared.response >>= env.incorrect_result prepared response action_results changes) = .error e ↔
      env.Raises prepared e := by
  constructor
  · intro h
    rcases bind_error_iff.mp h with hreport | ⟨report, hreport, h⟩
    · exact .provider hreport
    cases report with
    | none => cases h
    | some failure =>
      rcases bind_error_iff.mp h with hresult | ⟨result, hresult, h⟩
      · rcases bind_error_iff.mp hresult with hclock | ⟨t, ht, hresult⟩
        · exact .clock hreport hclock
        rcases bind_error_iff.mp hresult with hissue | ⟨issue, hissue, hresult⟩
        · exact .issue hreport ht hissue
        rcases bind_error_iff.mp hresult with hearly | ⟨_, -, hreturned⟩
        · by_cases hbehind : t < env.started_at
          · rw [refuse_if, if_pos hbehind] at hearly
            rw [← Except.error.inj hearly]
            exact .early hreport ht hissue hbehind
          · rw [refuse_if, if_neg hbehind] at hearly
            cases hearly
        · cases hreturned
      · obtain ⟨htimed, issue, hissue, -⟩ := timed_result_ok_iff.mp hresult
        rcases bind_error_iff.mp h with haudit | ⟨_, -, hreturned⟩
        · exact .audit hreport htimed hissue haudit
        · cases hreturned
  · intro h
    cases h with
    | provider hreport => exact bind_error_iff.mpr (Or.inl hreport)
    | clock hreport hclock =>
      exact bind_error_iff.mpr (Or.inr ⟨_, hreport, bind_error_iff.mpr (Or.inl
        (bind_error_iff.mpr (Or.inl hclock)))⟩)
    | issue hreport hread hissue =>
      exact bind_error_iff.mpr (Or.inr ⟨_, hreport, bind_error_iff.mpr (Or.inl
        (bind_error_iff.mpr (Or.inr ⟨_, hread, bind_error_iff.mpr (Or.inl hissue)⟩)))⟩)
    | early hreport hread hissue hbehind =>
      exact bind_error_iff.mpr (Or.inr ⟨_, hreport, bind_error_iff.mpr (Or.inl
        (bind_error_iff.mpr (Or.inr ⟨_, hread, bind_error_iff.mpr (Or.inr ⟨_, hissue,
          bind_error_iff.mpr (Or.inl (if_pos hbehind))⟩)⟩)))⟩)
    | audit hreport htimed hissue haudit =>
      exact bind_error_iff.mpr (Or.inr ⟨_, hreport, bind_error_iff.mpr (Or.inr
        ⟨_, timed_result_ok_iff.mpr ⟨htimed, _, hissue, rfl⟩, bind_error_iff.mpr (Or.inl haudit)⟩)⟩)

section

variable (hall : all_succeeded action_results = true)
include hall

/-- The result of an invocation whose actions have all succeeded. -/
theorem result_of_succeeded (response : AgentResponse) :
    env.result_of prepared response action_results changes =
      env.timed_result .completed (.ok ()) fun _ => succeeded_invocation prepared response action_results changes := by
  have hnone : (action_results.find? fun result => result.status ≠ .succeeded) = none := by
    rw [List.find?_eq_none]
    intro result hresult
    have hsucceeded := of_decide_eq_true (List.all_eq_true.mp hall result hresult)
    rw [decide_eq_true_eq]
    exact not_not.mpr hsucceeded
  rw [result_of, hnone]

/-- The part behind the commit returns, with the changes, exactly when it concludes. -/
theorem finish_iff :
    (∃ r, env.finish prepared action_results changes = .ok r) ↔ env.Concludes prepared := by
  obtain ⟨response, hhandled⟩ := @handle_results_eq env prepared action_results changes
  rw [finish, hhandled]
  cases hreport : env.provider_report prepared.response >>= env.incorrect_result prepared response action_results changes with
  | error e =>
    have hraises := handled_raises_iff.mp hreport
    simp only [handling_failed_ok_iff]
    constructor
    · rintro ⟨hdescribed, hrecorded, htimed, haudited⟩
      exact .failed hraises hdescribed hrecorded htimed haudited
    · intro h
      cases h with
      | quiet hquiet =>
        rw [handled_quiet_iff.mpr hquiet] at hreport
        cases hreport
      | incorrect hincorrect hbuilt htimed haudited =>
        rw [handled_of_incorrect hincorrect hbuilt htimed haudited] at hreport
        cases hreport
      | failed hother hdescribed hrecorded htimed haudited =>
        rw [handled_raises_iff.mpr hother] at hreport
        rw [← Except.error.inj hreport]
        exact ⟨hdescribed, hrecorded, htimed, haudited⟩
  | ok found =>
    cases found with
    | some r =>
      obtain ⟨-, failure, issue, hincorrect, hbuilt, htimed, haudited⟩ := handled_incorrect hreport
      exact iff_of_true ⟨r, rfl⟩ (.incorrect hincorrect hbuilt htimed haudited)
    | none =>
      have hquiet := handled_quiet_iff.mp hreport
      simp only [result_of_succeeded hall]
      constructor
      · rintro ⟨r, h⟩
        obtain ⟨result, hresult, h⟩ := bind_ok_iff.mp h
        obtain ⟨_, haudited, -⟩ := bind_ok_iff.mp h
        exact .quiet hquiet (timed_result_ok_iff.mp hresult).1 haudited
      · intro h
        cases h with
        | quiet _ htimed haudited =>
          exact ⟨_, bind_ok_iff.mpr ⟨_, timed_result_ok_iff.mpr ⟨htimed, (), rfl, rfl⟩,
            bind_ok_iff.mpr ⟨(), haudited, rfl⟩⟩⟩
        | incorrect hincorrect =>
          rw [hincorrect] at hquiet
          cases hquiet
        | failed hraises =>
          rw [handled_raises_iff.mpr hraises] at hreport
          cases hreport

/-- What is returned behind the commit has the changes. -/
theorem finish_changes
    (h : env.finish prepared action_results changes = .ok r) : r.shared_state_changes = changes := by
  obtain ⟨response, hhandled⟩ := @handle_results_eq env prepared action_results changes
  rw [finish, hhandled] at h
  cases hreport : env.provider_report prepared.response >>= env.incorrect_result prepared response action_results changes with
  | error e =>
    rw [hreport] at h
    exact handling_failed_changes h
  | ok found =>
    rw [hreport] at h
    cases found with
    | some result =>
      rw [← Except.ok.inj h]
      exact (handled_incorrect hreport).1
    | none =>
      simp only [result_of_succeeded hall] at h
      obtain ⟨result, hresult, h⟩ := bind_ok_iff.mp h
      obtain ⟨_, -, h⟩ := bind_ok_iff.mp h
      obtain ⟨-, _, -, rfl⟩ := timed_result_ok_iff.mp hresult
      rw [← Except.ok.inj h]
      rfl

end

end Handling

/-! ## The commit -/

section Commit

variable {action_results : List ActionResult} {changes earlier : List SharedStateChange}

/-- Behind a commit stands the audit record of the update. -/
theorem commit_state_committed (h : (env.commit_state prepared).1 = some changes) :
    (env.commit_state prepared).2 = (env.audit_record .shared_state_updated).map fun _ => changes := by
  rw [commit_state] at h ⊢
  cases hcheck : env.check_again prepared with
  | error e =>
    rw [hcheck] at h
    cases h
  | ok _ =>
    rw [hcheck] at h
    simp only at h ⊢
    cases haccess : env.access with
    | error e =>
      rw [haccess] at h
      cases h
    | ok access =>
      rw [haccess] at h
      simp only at h ⊢
      rw [apply_state] at h ⊢
      by_cases hnone : prepared.response.shared_state_updates = []
      · rw [if_pos hnone] at h
        cases h
      rw [if_neg hnone] at h ⊢
      cases hstore : env.store with
      | none =>
        rw [hstore] at h
        cases h
      | some store =>
        rw [hstore] at h
        simp only at h ⊢
        cases happly : store.apply access (versioned prepared.context prepared.response.shared_state_updates) with
        | error e =>
          rw [happly] at h
          cases h
        | ok applied =>
          rw [happly] at h
          rw [Option.some.inj h]

theorem complete_applied_committed (committed : Option (List SharedStateChange))
    (applied : Except CallFailure (List SharedStateChange)) :
    (env.complete_applied prepared action_results committed applied).committed = committed := by
  cases applied with
  | ok changes => rfl
  | error e =>
    cases e with
    | shared_state error => rfl
    | raised e => rfl

/-- A completion that commits has passed its checks. -/
theorem complete_committed (h : (env.complete prepared action_results earlier).committed = some changes) :
    all_succeeded action_results = true ∧ (env.commit_state prepared).1 = some changes ∧
      env.complete prepared action_results earlier = env.complete_checked prepared action_results earlier := by
  rw [complete] at h ⊢
  by_cases howned : env.owned = false
  · rw [if_pos howned] at h
    cases h
  rw [if_neg howned] at h ⊢
  by_cases hids : action_results.map ActionResult.request_id ≠ prepared.response.proposals.map ActionProposal.id
  · rw [if_pos hids] at h
    cases h
  rw [if_neg hids] at h ⊢
  cases htimings : env.timings with
  | error e =>
    rw [htimings] at h
    cases h
  | ok _ =>
    rw [htimings] at h
    simp only at h ⊢
    rw [complete_checked] at h
    by_cases hall : all_succeeded action_results = true
    · rw [if_pos hall] at h
      refine ⟨hall, ?_, trivial⟩
      rw [← h]
      exact (complete_applied_committed _ _).symm
    · rw [if_neg hall] at h
      cases h

theorem state_failure_fails (prepared : PreparedAgentInvocation) (error : SharedStateError)
    (action_results : List ActionResult) : (state_failure prepared error action_results).status ≠ .succeeded := by
  show (if error.conflict then InvocationStatus.rejected else .failed) ≠ .succeeded
  cases error.conflict with
  | false => decide
  | true => decide

/-- A result of the handler of a `SharedStateError` is a failure, and has no changes. -/
theorem state_failed_result {error : SharedStateError} {r : AgentInvocationResult}
    (h : env.state_failed prepared error action_results = .ok r) :
    r.status ≠ .succeeded ∧ r.shared_state_changes = [] := by
  obtain ⟨_, -, h⟩ := bind_ok_iff.mp h
  obtain ⟨failure, hfailure, h⟩ := bind_ok_iff.mp h
  obtain ⟨_, -, h⟩ := bind_ok_iff.mp h
  obtain ⟨-, issue, -, rfl⟩ := timed_result_ok_iff.mp hfailure
  rw [← Except.ok.inj h]
  exact ⟨state_failure_fails prepared error action_results, rfl⟩

end Commit

/-! ## A recorder that fails -/

/-- A change of one key. -/
def one_change : SharedStateChange where
  scope := .run
  operation := .set
  key := "k"
  value := some .null
  version := 1
  version_pos := by decide

/-- An invocation that sets this key, without actions. -/
def one_update : PreparedAgentInvocation where
  context := { invocation_id := "i", run_id := "r", agent_id := "a", deployment := "d" }
  response := { shared_state_updates := [{ scope := .run, key := "k" }] }

/-- An agent with one entry in the shared state of the run. -/
def sharing_agent : AgentInstance where
  id := "a"
  deployment := "d"
  shared := some { scopes := [.run], max_entries := 1 }

/-- A store that commits, a clock that stands, a provider that reports nothing, and a recorder. -/
def committing (audit : Option (AuditSite → Except CallFailure Unit)) : CompletionEnvironment where
  owned := true
  timings := .ok ()
  access := .ok (shared_access [sharing_agent] "r" sharing_agent)
  store := some { snapshot := .ok {}, apply := fun _ _ => .ok [one_change] }
  audit := audit
  started_at := 0
  clock _ := .ok 1
  record_action_results := .ok none

/-- The error of a recorder whose sink fails. -/
def sink_failed : CallFailure :=
  .raised (.mk .other "AuditError" (some "audit.write.failed") (.ok "audit sink failed: disk full"))

end CompletionEnvironment

end MininetAi
