/-
Routing of one request (`mininet_ai/coordination/routing.py`): the messages it
causes, what becomes of the result of an invocation, and one delegation.

The executor is the environment. What it does with one message is an
`Invocation`; preparation, admission and completion inside it are the subject of
`Coordination/Commit`. A text that the source formats is kept as what it is
formatted from.
-/
import MininetAi.Agents.Runtime
import MininetAi.Coordination.Channel
import MininetAi.Coordination.Graph

set_option autoImplicit false

namespace MininetAi

/-! ## Requests -/

/-- One externally submitted intent. -/
structure CoordinationRequest where
  run_id : String
  requested_agent_id : String
  intent : String
  correlation_id : String
  triggering_event_id : Option String := none
  deadline_started_at : Option ℚ := none
  deadline_seconds : Option ℚ := none
  deriving DecidableEq

/-- The metadata of the root: the deadline, when both parts are there. -/
def CoordinationRequest.metadata (r : CoordinationRequest) : List (String × JsonValue) :=
  match r.deadline_started_at, r.deadline_seconds with
  | some started, some seconds =>
    [("deadlineStartedAt", .num started), ("deadlineSeconds", .num seconds)]
  | _, _ => []

/-- The root message of a request. -/
def root_message (r : CoordinationRequest) (entry_agent message_id : String) :
    CoordinationMessage where
  message_id := message_id
  run_id := r.run_id
  kind := .intent
  target_agent_id := entry_agent
  correlation_id := r.correlation_id
  triggering_event_id := r.triggering_event_id
  payload :=
    { intent := r.intent, requested_agent_id := r.requested_agent_id, metadata := r.metadata }

/-! ## Issues -/

/-- The message of an issue. -/
inductive IssueText where
  | text (s : String)
  | graph (error : CoordinationGraphError)
  | hop_limit (source target : String) (limit : ℕ)
  | channel (error : MessageChannelError)
  deriving DecidableEq

/-- One message or invocation that could not be completed. -/
structure CoordinationIssue where
  code : String
  message : IssueText
  message_id : Option String := none
  source_agent_id : Option String := none
  target_agent_id : Option String := none
  deriving DecidableEq

/-- The attribute `code` of an exception. -/
inductive ErrorCode where
  | absent
  | text (code : String)
  /-- Anything but a text, or reading it raises. -/
  | other
  deriving DecidableEq

/-- An exception that leaves the executor. -/
structure InvocationError where
  code : ErrorCode := .absent
  /-- `str(error)`, unless that raises. -/
  message : Option IssueText
  type_name : String
  /-- Not so for what `except Exception` lets through, and for a result of another type,
  over which the loop itself raises. -/
  is_caught : Bool := true
  deriving DecidableEq

/-- The code of the issue, unless the issue refuses it. -/
def InvocationError.issue_code (e : InvocationError) : Option String :=
  match e.code with
  | .absent => some "coordination.invocation.failed"
  | .text code => if code = "" then none else some code
  | .other => none

/-- The text of the issue, unless the issue refuses it. -/
def InvocationError.issue_text (e : InvocationError) : Option IssueText :=
  e.message.bind fun text =>
    if text ≠ .text "" then some text
    else if e.type_name = "" then none else some (.text e.type_name)

/-- An issue can be built about the exception. -/
def InvocationError.reportable (e : InvocationError) : Bool :=
  e.is_caught && e.issue_code.isSome && e.issue_text.isSome

/-- The issue about a message whose invocation raised; `none` when there is none, which
raises out of the request. -/
def InvocationError.issue (e : InvocationError) (m : CoordinationMessage) :
    Option CoordinationIssue :=
  if e.is_caught then do
    let code ← e.issue_code
    let text ← e.issue_text
    some
      { code := code
        message := text
        message_id := some m.message_id
        source_agent_id := m.source_agent_id
        target_agent_id := some m.target_agent_id }
  else none

theorem InvocationError.issue_none_iff (e : InvocationError) (m : CoordinationMessage) :
    e.issue m = none ↔ e.reportable = false := by
  unfold issue reportable
  cases e.is_caught <;> cases e.issue_code <;> cases e.issue_text <;> simp

/-- What `sink.write` raises. -/
inductive SinkError where
  /-- A `MessageChannelError`. -/
  | channel (code text : String)
  | other
  deriving DecidableEq

/-- An issue can be built about what the sink raises. -/
def SinkError.reportable : SinkError → Bool
  | .channel code text => code ≠ "" ∧ text ≠ ""
  | .other => false

/-- The issue about a message that the channel did not take. -/
def channel_issue (child : CoordinationMessage) (code : String) (message : IssueText) :
    CoordinationIssue where
  code := code
  message := message
  message_id := some child.message_id
  source_agent_id := child.source_agent_id
  target_agent_id := some child.target_agent_id

/-- The issue about a message at which the sink raised, if there is one. -/
def SinkError.issue (e : SinkError) (child : CoordinationMessage) : Option CoordinationIssue :=
  match e with
  | .channel code text =>
    if code ≠ "" ∧ text ≠ "" then some (channel_issue child code (.text text)) else none
  | .other => none

theorem SinkError.issue_none_iff (e : SinkError) (child : CoordinationMessage) :
    e.issue child = none ↔ e.reportable = false := by
  rcases e with ⟨code, text⟩ | _ <;> simp [issue, reportable]

/-- The error of a result for another run or agent. -/
def invalid_identity : InvocationError where
  code := .text "coordination.invocation.invalid-identity"
  message := some (.text "agent invoker returned a result for another run or agent")
  type_name := "CoordinationRuntimeError"

/-! ## Invocations -/

/-- What the executor does with one message. A result that `prepare` returns by
itself is not a success. -/
inductive Invocation where
  | raises (error : InvocationError)
  | ends (result : AgentInvocationResult) (not_succeeded : result.status ≠ .succeeded)
  | commits (prepared : PreparedAgentInvocation) (result : AgentInvocationResult)

/-- What the future of an invocation holds. -/
abbrev InvocationOutcome := Except InvocationError (AgentInvocationResult × Option AgentResponse)

/-- `_invoke_message`, without its lease. -/
def invoke_message (graph : CoordinationGraph) (m : CoordinationMessage) (invocation : Invocation) :
    InvocationOutcome :=
  match graph.destinations m.target_agent_id with
  | .error e =>
    .error
      { code := .text e.code, message := some (.graph e), type_name := "CoordinationGraphError" }
  | .ok _ => match invocation with
    | .raises e => .error e
    | .ends result _ =>
      if result.run_id ≠ m.run_id ∨ result.agent_id ≠ m.target_agent_id then
        .error invalid_identity
      else .ok (result, none)
    | .commits prepared result =>
      if prepared.context.run_id ≠ m.run_id ∨ prepared.context.agent_id ≠ m.target_agent_id then
        .error invalid_identity
      else .ok (result, if result.status = .succeeded then some prepared.response else none)

/-- What becomes of the outcome of an invocation. -/
inductive Routed where
  | failed (issue : CoordinationIssue)
  /-- There is no issue about it. -/
  | unusable
  | invoked (result : AgentInvocationResult) (delegations : List DelegationProposal)

/-- The part of the loop of `_coordinate` that looks at one finished future. -/
def route_outcome (m : CoordinationMessage) (outcome : InvocationOutcome) : Routed :=
  match outcome with
  | .error e => match e.issue m with
    | some issue => .failed issue
    | none => .unusable
  | .ok (result, response) =>
    if result.run_id ≠ m.run_id ∨ result.agent_id ≠ m.target_agent_id then
      .failed
        { code := "coordination.invocation.invalid-identity"
          message := .text "agent invoker returned a result for another run or agent"
          message_id := some m.message_id
          source_agent_id := m.source_agent_id
          target_agent_id := some m.target_agent_id }
    else .invoked result (response.elim [] AgentResponse.delegations)

variable {graph : CoordinationGraph} {m parent : CoordinationMessage}
  {result : AgentInvocationResult} {message_id : String} {d : DelegationProposal}

variable {invocation : Invocation} {delegations : List DelegationProposal}
  {channel : MessageChannel} {invocation_id : String} {made : Option String}
  {raised : Option SinkError} {child : CoordinationMessage} {channel' : MessageChannel}
  {edge : CoordinationEdge}

/-- Only a succeeded invocation hands on its response. -/
theorem invoke_message_response {response : AgentResponse}
    (h : invoke_message graph m invocation = .ok (result, some response)) :
    result.status = .succeeded := by
  unfold invoke_message at h
  split at h
  · cases h
  split at h
  · cases h
  · split at h <;> cases h
  · split at h
    · cases h
    · simp only [Except.ok.injEq, Prod.mk.injEq] at h
      obtain ⟨rfl, hresponse⟩ := h
      by_contra hstatus
      rw [if_neg hstatus] at hresponse
      cases hresponse

/-- What is routed as an invocation is the result of the future. -/
theorem route_outcome_invoked {outcome : InvocationOutcome}
    (h : route_outcome m outcome = .invoked result delegations) :
    ∃ response, outcome = .ok (result, response) ∧
      delegations = response.elim [] AgentResponse.delegations := by
  unfold route_outcome at h
  split at h
  · split at h <;> cases h
  · rename_i own response
    split at h
    · cases h
    · cases h
      exact ⟨response, rfl, rfl⟩

/-- Only a succeeded invocation has delegations to route. -/
theorem succeeded_of_delegations
    (h : route_outcome m (invoke_message graph m invocation) = .invoked result delegations)
    (hne : delegations ≠ []) : result.status = .succeeded := by
  obtain ⟨response, hok, hdelegations⟩ := route_outcome_invoked h
  rcases response with _ | response
  · exact absurd hdelegations hne
  · exact invoke_message_response hok

/-! ## Delegations -/

def delegated_message (parent : CoordinationMessage) (parent_invocation_id : String)
    (d : DelegationProposal) (message_id : String) : CoordinationMessage where
  message_id := message_id
  run_id := parent.run_id
  kind := .delegation
  source_agent_id := some parent.target_agent_id
  target_agent_id := d.target_agent_id
  correlation_id := parent.correlation_id
  causation_id := some parent.message_id
  parent_invocation_id := some parent_invocation_id
  triggering_event_id := parent.triggering_event_id
  hop_count := parent.hop_count + 1
  traversed_message_ids := parent.traversed_message_ids ++ [parent.message_id]
  payload :=
    { intent := d.intent
      requested_agent_id := parent.payload.requested_agent_id
      delegation_id := some d.id
      metadata := d.metadata }

/-- What `_delegate` raises. -/
inductive DelegateError where
  /-- The factory or the clock raises, or a part of the message is not of its type. -/
  | unbuilt
  /-- The message does not pass its validators. -/
  | invalid_message
  | sink (e : SinkError)
  deriving DecidableEq

/-- What `_delegate` does with one delegation. -/
inductive Delegated where
  | refused (issue : CoordinationIssue)
  | raised (e : DelegateError)
  | accepted (child : CoordinationMessage) (channel : MessageChannel)

/-- `_next_message_id`, of what the factory returns if it does; `none` when it raises. -/
def next_message_id (made : Option String) : Option String :=
  made.filter fun message_id => message_id ≠ ""

/-- The end of `_delegate`: the message is validated and sent. -/
def deliver (channel : MessageChannel) (child : CoordinationMessage) (raised : Option SinkError) :
    Delegated :=
  if child.Consistent then match channel.send child raised with
    | .error (.rejected e) => .refused (channel_issue child e.code (.channel e))
    | .error (.sink e) => match e.issue child with
      | some issue => .refused issue
      | none => .raised (.sink e)
    | .ok channel => .accepted child channel
  else .raised .invalid_message

/-- `_delegate`; `made` is the id of the message when it can be built, and `raised` what
the sink raises. -/
def delegate (graph : CoordinationGraph) (channel : MessageChannel) (parent : CoordinationMessage)
    (parent_invocation_id : String) (d : DelegationProposal) (made : Option String)
    (raised : Option SinkError) : Delegated :=
  match graph.authorize parent.target_agent_id d.target_agent_id with
  | .error e => .refused
      { code := e.code
        message := .graph e
        message_id := some parent.message_id
        source_agent_id := some parent.target_agent_id
        target_agent_id := some d.target_agent_id }
  | .ok _ =>
    if graph.hop_limit < parent.hop_count + 1 then .refused
      { code := "coordination.message.hop-limit-exceeded"
        message := .hop_limit parent.target_agent_id d.target_agent_id graph.hop_limit
        message_id := some parent.message_id
        source_agent_id := some parent.target_agent_id
        target_agent_id := some d.target_agent_id }
    else match next_message_id made with
      | none => .raised .unbuilt
      | some message_id =>
        deliver channel (delegated_message parent parent_invocation_id d message_id) raised

theorem deliver_accepted {child sent : CoordinationMessage}
    (h : deliver channel child raised = .accepted sent channel') :
    sent = child ∧ child.Consistent ∧ channel.send child raised = .ok channel' := by
  unfold deliver at h
  split at h
  swap
  · cases h
  rename_i hconsistent
  split at h
  · cases h
  · split at h <;> cases h
  · rename_i hsend
    cases h
    exact ⟨rfl, hconsistent, hsend⟩

/-- The validators refuse the message, or it is new to an open channel with room, whose
sink raises what no issue can tell. -/
theorem deliver_raised_iff : (∃ e, deliver channel child raised = .raised e) ↔ ¬ child.Consistent ∨
      channel.is_closed = false ∧ child.message_id ∉ channel.accepted_ids ∧
        channel.messages.length < channel.capacity ∧ ∃ e, raised = some e ∧ e.reportable = false := by
  unfold deliver
  by_cases hconsistent : child.Consistent
  swap
  · simp [hconsistent]
  rw [if_pos hconsistent]
  constructor
  · rintro ⟨error, h⟩
    split at h
    · cases h
    · rename_i e hsend
      obtain ⟨hraised, hopen, hnew, hroom⟩ := MessageChannel.send_sink_iff.mp hsend
      split at h
      · cases h
      · rename_i hissue
        exact Or.inr ⟨hopen, hnew, hroom, e, hraised, (e.issue_none_iff child).mp hissue⟩
    · cases h
  · rintro (hc | ⟨hopen, hnew, hroom, e, hraised, hreport⟩)
    · exact absurd hconsistent hc
    · rw [MessageChannel.send_sink_iff.mpr ⟨hraised, hopen, hnew, hroom⟩]
      simp only [(e.issue_none_iff child).mpr hreport]
      exact ⟨_, rfl⟩

/-- An accepted delegation goes along an edge of the graph and stays within the hop
limit. -/
theorem delegate_accepted
    (h : delegate graph channel parent invocation_id d made raised = .accepted child channel') :
    (∃ message_id, child = delegated_message parent invocation_id d message_id) ∧
      child.Consistent ∧
      (∃ edge, graph.authorize parent.target_agent_id d.target_agent_id = .ok edge) ∧
      parent.hop_count + 1 ≤ graph.hop_limit ∧ channel.send child raised = .ok channel' := by
  unfold delegate at h
  split at h
  · cases h
  rename_i edge hedge
  split at h
  · cases h
  rename_i hhop
  split at h
  · cases h
  rename_i message_id _
  obtain ⟨rfl, hconsistent, hsend⟩ := deliver_accepted h
  exact ⟨⟨message_id, rfl⟩, hconsistent, ⟨edge, hedge⟩, by omega, hsend⟩

/-- The message of a delegation passes its validators when its id is not one of the
path to it. -/
theorem delegated_message_consistent (hgraph : graph.Accepted) (hparent : parent.Consistent)
    (hedge : graph.authorize parent.target_agent_id d.target_agent_id = .ok edge)
    (invocation_id : String) (hne : message_id ≠ parent.message_id)
    (hpath : message_id ∉ parent.traversed_message_ids) :
    (delegated_message parent invocation_id d message_id).Consistent where
  source_present _ := Option.some_ne_none _
  not_to_source := by
    obtain ⟨hmem, hsource, htarget⟩ := CoordinationGraph.authorize_ok hedge
    have hself := hgraph.no_self_edge edge hmem
    rw [hsource, htarget] at hself
    exact fun heq => hself (Option.some.inj heq)
  traversed_nodup := by
    show (parent.traversed_message_ids ++ [parent.message_id]).Nodup
    rw [List.nodup_append]
    refine ⟨hparent.traversed_nodup, List.nodup_singleton _, ?_⟩
    intro a ha b hb hab
    rw [List.mem_singleton.mp hb] at hab
    exact hparent.not_traversed (hab ▸ ha)
  not_traversed := by
    show message_id ∉ parent.traversed_message_ids ++ [parent.message_id]
    rw [List.mem_append, List.mem_singleton]
    rintro (hold | hnew)
    · exact hpath hold
    · exact hne hnew
  hop_count_eq := by
    show parent.hop_count + 1 = (parent.traversed_message_ids ++ [parent.message_id]).length
    rw [List.length_append, hparent.hop_count_eq]
    rfl
  causation_present _ := Option.some_ne_none _

/-- So it does only then. -/
theorem delegated_message_consistent_iff (hgraph : graph.Accepted) (hparent : parent.Consistent)
    (hedge : graph.authorize parent.target_agent_id d.target_agent_id = .ok edge)
    (invocation_id message_id : String) :
    (delegated_message parent invocation_id d message_id).Consistent ↔
      message_id ∉ parent.message_id :: parent.traversed_message_ids := by
  rw [List.mem_cons, not_or]
  refine ⟨fun h => ?_, fun h => delegated_message_consistent hgraph hparent hedge _ h.1 h.2⟩
  have hnot := h.not_traversed
  change message_id ∉ parent.traversed_message_ids ++ [parent.message_id] at hnot
  rw [List.mem_append, List.mem_singleton, not_or] at hnot
  exact hnot.symm

/-- The delegation is allowed, and its message cannot be built, has an id of its path, or
is new to an open channel with room, whose sink raises what no issue can tell. -/
def delegation_raises (graph : CoordinationGraph) (channel : MessageChannel)
    (parent : CoordinationMessage) (d : DelegationProposal) (made : Option String)
    (raised : Option SinkError) : Bool :=
  (graph.authorize parent.target_agent_id d.target_agent_id).isOk &&
    parent.hop_count + 1 ≤ graph.hop_limit &&
    (next_message_id made).all fun message_id =>
      message_id ∈ parent.message_id :: parent.traversed_message_ids ∨
        channel.is_closed = false ∧ message_id ∉ channel.accepted_ids ∧
          channel.messages.length < channel.capacity ∧ raised.any fun e => !e.reportable

/-- These are the delegations at which `_delegate` raises. -/
theorem delegate_raised_iff (hgraph : graph.Accepted) (hparent : parent.Consistent) :
    (∃ e, delegate graph channel parent invocation_id d made raised = .raised e) ↔
      delegation_raises graph channel parent d made raised = true := by
  unfold delegate delegation_raises
  cases hedge : graph.authorize parent.target_agent_id d.target_agent_id with
  | error e => simp [Except.isOk, Except.toBool]
  | ok edge =>
    by_cases hhop : graph.hop_limit < parent.hop_count + 1
    · simp [hhop, Nat.not_le.mpr hhop]
    rcases hmade : next_message_id made with _ | message_id
    · simp [hhop, Nat.not_lt.mp hhop, Except.isOk, Except.toBool]
    · simp only [if_neg hhop, deliver_raised_iff,
        delegated_message_consistent_iff hgraph hparent hedge, not_not]
      simp [Nat.not_lt.mp hhop, Except.isOk, Except.toBool, Option.any_eq_true, delegated_message]

theorem root_message_consistent (r : CoordinationRequest) (entry_agent message_id : String) :
    (root_message r entry_agent message_id).Consistent where
  source_present h := absurd rfl h
  not_to_source h := by cases h
  traversed_nodup := List.nodup_nil
  not_traversed := List.not_mem_nil
  hop_count_eq := rfl
  causation_present h := absurd h (Nat.lt_irrefl 0)

end MininetAi
