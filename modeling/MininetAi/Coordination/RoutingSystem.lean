/-
One coordination runtime under any requests (`CoordinationRuntime` in
`mininet_ai/coordination/routing.py`).

A request is one call of `coordinate`; its thread runs the loop of `_coordinate`
and its futures run in the pool. They share the channel, the counters behind
`_slots` and the leases. A lease is an index: `reserve_invocation` and a message
take add one, and closing it has two sections, the flag and the release, because
the counters are behind another lock than the flag.

The environment chooses when callers reserve, close and pass their leases, what the
executor does with a message, the ids of messages, what the sink of the channel raises,
and whether the pool takes a submission.
-/
import MininetAi.Coordination.Routing
import MininetAi.Lib.Occupancy
import MininetAi.Lib.Transition

set_option autoImplicit false

namespace MininetAi

open List

/-! ## Configuration -/

/-- An accepted plan and its limits. -/
structure RoutingConfig where
  plan : CoordinationPlan
  graph : CoordinationGraph
  accepted : CoordinationGraph.build plan = .ok graph
  max_concurrent_invocations : ℕ
  max_positive : 0 < max_concurrent_invocations
  agent_limits : String → ℕ
  limits_positive : ∀ agent, 0 < agent_limits agent
  channel_capacity : ℕ

/-! ## Leases -/

/-- How far a lease is: `closing` has its flag set and is not yet released. -/
inductive LeaseStage where
  | opened
  | closing
  | closed
  deriving DecidableEq

/-- Who is to close a lease: the caller that reserved it, or a request. -/
inductive LeaseOwner where
  | caller
  | request (i : ℕ)
  deriving DecidableEq

/-- One `InvocationLease`. -/
structure Lease where
  agent_id : String
  stage : LeaseStage := .opened
  owner : LeaseOwner
  deriving DecidableEq

/-! ## Requests -/

/-- Where an invocation in the pool is. -/
inductive FutureStage where
  | queued
  | running
  /-- At the end of `with lease`. -/
  | exiting (outcome : InvocationOutcome)
  | done (outcome : InvocationOutcome)

/-- One submitted invocation. -/
structure InvocationFuture where
  message : CoordinationMessage
  lease : ℕ
  stage : FutureStage := .queued

/-- What `coordinate` raises. -/
inductive RoutingError where
  | graph (error : CoordinationGraphError)
  /-- The root cannot be built. -/
  | unbuilt
  | closed
  | channel (error : SendError SinkError)
  | foreign_lease
  | pool
  | unusable_issue
  /-- `_delegate` raised, with the delegations in `rest` unsettled. -/
  | delegation (error : DelegateError) (parent : CoordinationMessage)
      (rest : List DelegationProposal)
  deriving DecidableEq

/-- It was raised in `_delegate`. -/
def RoutingError.in_delegation : RoutingError → Bool
  | .delegation _ _ _ => true
  | _ => false

/-- Where the thread of a request is. -/
inductive RequestStage where
  | called
  /-- In the session, before the root is sent. -/
  | sending (root : CoordinationMessage)
  /-- The root is sent and a lease was given. -/
  | checking (root : CoordinationMessage)
  /-- In the loop, between a take, a look at the futures and the end. -/
  | routing
  | submitting (message : CoordinationMessage) (lease : ℕ)
  /-- The pool refused; the lease is to be closed. -/
  | refused (lease : ℕ)
  | delegating (parent : CoordinationMessage) (invocation_id : String)
      (rest : List DelegationProposal)
  /-- At the end of the session. -/
  | exiting (raised : Option RoutingError)
  /-- In the `finally` of `coordinate`. -/
  | closing (raised : Option RoutingError)
  | ended (raised : Option RoutingError)

/-- What became of a message or of a delegation. -/
inductive RoutingRecord where
  | invoked (message : CoordinationMessage) (result : AgentInvocationResult)
      (delegations : List DelegationProposal)
  | failed (message : CoordinationMessage) (issue : CoordinationIssue)
  | delegated (parent : CoordinationMessage) (delegation : DelegationProposal)
      (child : CoordinationMessage)
  | refused (parent : CoordinationMessage) (delegation : DelegationProposal)
      (issue : CoordinationIssue)

/-- One call of `coordinate`. `messages` is read behind the send of the root only,
so it starts there. `log` is bookkeeping. -/
structure RoutingRequest where
  request : CoordinationRequest
  lease : Option ℕ
  stage : RequestStage := .called
  messages : List CoordinationMessage := []
  submitted : List String := []
  futures : List InvocationFuture := []
  invocations : List (CoordinationMessage × AgentInvocationResult) := []
  issues : List CoordinationIssue := []
  log : List RoutingRecord := []

/-- The accepted messages that are not submitted. -/
def RoutingRequest.pending (r : RoutingRequest) : List CoordinationMessage :=
  r.messages.filter fun m => m.message_id ∉ r.submitted

/-- A future of the request is at another stage. -/
def RoutingRequest.set_future (r : RoutingRequest) (k : ℕ) (f : InvocationFuture)
    (stage : FutureStage) : RoutingRequest :=
  { r with futures := r.futures.set k { f with stage := stage } }

variable {r : RoutingRequest} {i : ℕ}

/-- The move keeps what does not look at the stage. -/
theorem RoutingRequest.map_set_future {α : Type} (g : InvocationFuture → α) {k : ℕ}
    {f : InvocationFuture} (hf : r.futures[k]? = some f) (stage : FutureStage)
    (hg : g { f with stage := stage } = g f) :
    (r.set_future k f stage).futures.map g = r.futures.map g :=
  List.map_set_of_eq g hf hg

/-! ## The system -/

/-- The runtime. `releases` is bookkeeping: the order in which leases were released. -/
structure RoutingState where
  channel : MessageChannel
  active : ℤ := 0
  active_agents : String → ℤ := fun _ => 0
  sessions : ℤ := 0
  is_closing : Bool := false
  leases : List Lease := []
  requests : List RoutingRequest := []
  releases : List ℕ := []

def RoutingState.available (config : RoutingConfig) (s : RoutingState) (agent_id : String) : Bool :=
  s.active < config.max_concurrent_invocations ∧
    s.active_agents agent_id < config.agent_limits agent_id

/-- `_allocate_invocation`. -/
def RoutingState.allocate (s : RoutingState) (agent_id : String) (owner : LeaseOwner) :
    RoutingState :=
  { s with
    active := s.active + 1
    active_agents := Function.update s.active_agents agent_id (s.active_agents agent_id + 1)
    leases := s.leases ++ [{ agent_id := agent_id, owner := owner }] }

/-- The flag of a lease is set. -/
def RoutingState.mark (s : RoutingState) (ℓ : ℕ) (l : Lease) : RoutingState :=
  { s with leases := s.leases.set ℓ { l with stage := .closing } }

def RoutingState.release (s : RoutingState) (ℓ : ℕ) (l : Lease) : RoutingState :=
  { s with
    active := s.active - 1
    active_agents := Function.update s.active_agents l.agent_id (s.active_agents l.agent_id - 1)
    leases := s.leases.set ℓ { l with stage := .closed }
    releases := s.releases ++ [ℓ] }

/-- Request `i` is now `r`. -/
def RoutingState.put (s : RoutingState) (i : ℕ) (r : RoutingRequest) : RoutingState :=
  { s with requests := s.requests.set i r }

/-- Whether a lease has been released. -/
def RoutingState.is_closed (s : RoutingState) (ℓ : ℕ) : Bool :=
  (s.leases[ℓ]?).any fun l => l.stage = .closed

/-- Who calls `close`. -/
inductive Closer where
  /-- The caller that holds it, or anybody once it is closed. -/
  | caller (lease : ℕ)
  | refused (i : ℕ)
  | future (i k : ℕ)
  | entry (i : ℕ)

/-- The lease somebody is about to close. -/
def closer_lease (s : RoutingState) : Closer → Option ℕ
  | .caller ℓ => match s.leases[ℓ]? with
    | some l => if l.owner = .caller ∨ l.stage = .closed then some ℓ else none
    | none => none
  | .refused i => match s.requests[i]? with
    | some r => match r.stage with
      | .refused ℓ => some ℓ
      | _ => none
    | none => none
  | .future i k => match s.requests[i]? with
    | some r => match r.futures[k]? with
      | some f => match f.stage with
        | .exiting _ => some f.lease
        | _ => none
      | none => none
    | none => none
  | .entry i => match s.requests[i]? with
    | some r => match r.stage with
      | .closing _ => r.lease
      | _ => none
    | none => none

/-- The sections of one request and of its futures. -/
inductive RequestEvent where
  | enter (made : Option String)
  | send_root (raised : Option SinkError)
  | check_lease
  | take
  | submit (accepted : Bool)
  | settle_refused
  | start (k : ℕ)
  | finish (k : ℕ) (invocation : Invocation)
  | settle (k : ℕ)
  | process (k : ℕ)
  | delegate (made : Option String) (raised : Option SinkError)
  | complete
  | exit_session
  | finish_call

/-- The sections of the runtime and of its callers. -/
inductive RoutingEvent where
  | reserve (agent_id : String)
  | close (closer : Closer)
  | release (lease : ℕ)
  | coordinate (request : CoordinationRequest) (lease : Option ℕ)
  | close_runtime
  | close_channel
  | request (i : ℕ) (e : RequestEvent)

/-- The stage behind the delegations that are left. -/
def delegation_stage (parent : CoordinationMessage) (invocation_id : String) :
    List DelegationProposal → RequestStage
  | [] => .routing
  | rest => .delegating parent invocation_id rest

/-- The loop looks at a finished future. -/
def process_outcome (r : RoutingRequest) (m : CoordinationMessage) (outcome : InvocationOutcome) :
    RoutingRequest :=
  match route_outcome m outcome with
  | .failed issue => { r with issues := r.issues ++ [issue], log := r.log ++ [.failed m issue] }
  | .unusable => { r with stage := .exiting (some .unusable_issue) }
  | .invoked result delegations =>
    { r with
      invocations := r.invocations ++ [(m, result)]
      log := r.log ++ [.invoked m result delegations]
      stage := delegation_stage m result.invocation_id delegations }

/-- One section of request `i`, which is at `r`. -/
def request_section (config : RoutingConfig) (s : RoutingState) (i : ℕ) (r : RoutingRequest) :
    RequestEvent → Option RoutingState
  | .enter made => match r.stage with
    | .called => match config.graph.entry_agent r.request.requested_agent_id with
      | .error e => some (s.put i { r with stage := .closing (some (.graph e)) })
      | .ok entry => match next_message_id made with
        | none => some (s.put i { r with stage := .closing (some .unbuilt) })
        | some message_id =>
          if s.is_closing then some (s.put i { r with stage := .closing (some .closed) })
          else some (({ s with sessions := s.sessions + 1 } : RoutingState).put i
            { r with stage := .sending (root_message r.request entry message_id) })
    | _ => none
  | .send_root raised => match r.stage with
    | .sending root => match s.channel.send root raised with
      | .error e => some (s.put i { r with stage := .exiting (some (.channel e)) })
      | .ok channel => some (({ s with channel := channel } : RoutingState).put i
          { r with
            messages := [root]
            stage := if r.lease = none then .routing else .checking root })
    | _ => none
  | .check_lease => match r.stage, r.lease with
    | .checking root, some ℓ => match s.leases[ℓ]? with
      | some l =>
        if l.agent_id ≠ root.target_agent_id then
          some (s.put i { r with stage := .exiting (some .foreign_lease) })
        else
          let channel := match s.channel.receive [root.message_id] with
            | some (_, channel) => channel
            | none => s.channel
          some (({ s with channel := channel } : RoutingState).put i
            { r with stage := .submitting root ℓ })
      | none => none
    | _, _ => none
  | .take => match r.stage with
    | .routing =>
      let eligible := (r.pending.filter fun m => s.available config m.target_agent_id).map
        CoordinationMessage.message_id
      match s.channel.receive eligible with
      | some (m, channel) =>
        some ((({ s with channel := channel } : RoutingState).allocate m.target_agent_id
            (.request i)).put i { r with stage := .submitting m s.leases.length })
      | none => none
    | _ => none
  | .submit accepted => match r.stage with
    | .submitting m ℓ => some (s.put i (if accepted then
          { r with
            futures := r.futures ++ [{ message := m, lease := ℓ }]
            submitted := r.submitted ++ [m.message_id]
            stage := .routing }
        else { r with stage := .refused ℓ }))
    | _ => none
  | .settle_refused => match r.stage with
    | .refused ℓ =>
      if s.is_closed ℓ then some (s.put i { r with stage := .exiting (some .pool) }) else none
    | _ => none
  | .start k => match r.futures[k]? with
    | some f => match f.stage with
      | .queued => some (s.put i (r.set_future k f .running))
      | _ => none
    | none => none
  | .finish k invocation => match r.futures[k]? with
    | some f => match f.stage with
      | .running => some (s.put i
          (r.set_future k f (.exiting (invoke_message config.graph f.message invocation))))
      | _ => none
    | none => none
  | .settle k => match r.futures[k]? with
    | some f => match f.stage with
      | .exiting outcome =>
        if s.is_closed f.lease then some (s.put i (r.set_future k f (.done outcome))) else none
      | _ => none
    | none => none
  | .process k => match r.stage, r.futures[k]? with
    | .routing, some f => match f.stage with
      | .done outcome =>
        let r := { r with futures := r.futures.eraseIdx k }
        some (s.put i (process_outcome r f.message outcome))
      | _ => none
    | _, _ => none
  | .delegate made raised => match r.stage with
    | .delegating parent invocation_id (d :: rest) =>
      match delegate config.graph s.channel parent invocation_id d made raised with
      | .refused issue => some (s.put i
          { r with
            issues := r.issues ++ [issue]
            log := r.log ++ [.refused parent d issue]
            stage := delegation_stage parent invocation_id rest })
      | .raised e => some (s.put i
          { r with stage := .exiting (some (.delegation e parent (d :: rest))) })
      | .accepted child channel => some (({ s with channel := channel } : RoutingState).put i
          { r with
            messages := r.messages ++ [child]
            log := r.log ++ [.delegated parent d child]
            stage := delegation_stage parent invocation_id rest })
    | _ => none
  | .complete => match r.stage with
    | .routing =>
      if r.futures.isEmpty ∧ r.pending = [] then
        some (s.put i { r with stage := .exiting none })
      else none
    | _ => none
  | .exit_session => match r.stage with
    | .exiting raised => some (({ s with sessions := s.sessions - 1 } : RoutingState).put i
        { r with stage := .closing raised })
    | _ => none
  | .finish_call => match r.stage with
    | .closing raised =>
      if r.lease.all s.is_closed then some (s.put i { r with stage := .ended raised }) else none
    | _ => none

/-- One coordination runtime. -/
def routing_system (config : RoutingConfig) : System RoutingState RoutingEvent where
  init s := s = { channel := { capacity := config.channel_capacity } }
  step s
    | .reserve agent_id =>
      if ¬ s.is_closing ∧ agent_id ∈ config.graph.agents ∧ s.available config agent_id then
        some (s.allocate agent_id .caller)
      else none
    | .close closer => do
        let ℓ ← closer_lease s closer
        let l ← s.leases[ℓ]?
        some (if l.stage = .opened then s.mark ℓ l else s)
    | .release ℓ => match s.leases[ℓ]? with
      | some l => if l.stage = .closing then some (s.release ℓ l) else none
      | none => none
    | .coordinate request none =>
      some { s with requests := s.requests ++ [{ request := request, lease := none }] }
    | .coordinate request (some ℓ) => match s.leases[ℓ]? with
      | some l =>
        if l.owner = .caller ∧ l.stage = .opened then some { s with
          leases := s.leases.set ℓ { l with owner := .request s.requests.length }
          requests := s.requests ++ [{ request := request, lease := some ℓ }] }
        else none
      | none => none
    | .close_runtime => some { s with is_closing := true }
    | .close_channel => some { s with channel := s.channel.close }
    | .request i e => match s.requests[i]? with
      | some r => request_section config s i r e
      | none => none

/-! ## What a step can do -/

/-- The events that get something done: a section of a request or of one of its
invocations, and the two sections of a lease that is not closed yet. -/
def RoutingState.work (s : RoutingState) : RoutingEvent → Bool
  | .request _ _ | .release _ => true
  | .close closer => ((closer_lease s closer).bind (s.leases[·]?)).any fun l => l.stage = .opened
  | _ => false

/-- The moves of a request that change nothing but its stage. -/
inductive StageMove (config : RoutingConfig) (s : RoutingState) (r : RoutingRequest) :
    RequestEvent → RequestStage → Prop
  | enter_failed (hstage : r.stage = .called) (made : Option String) (e : RoutingError)
      (hplain : e.in_delegation = false) : StageMove config s r (.enter made) (.closing (some e))
  | enter (hstage : r.stage = .called) (entry message_id : String) (made : Option String)
      (hentry : config.graph.entry_agent r.request.requested_agent_id = .ok entry) :
      StageMove config s r (.enter made) (.sending (root_message r.request entry message_id))
  | send_failed (root : CoordinationMessage) (hstage : r.stage = .sending root)
      (raised : Option SinkError) (e : SendError SinkError) :
      StageMove config s r (.send_root raised) (.exiting (some (.channel e)))
  | foreign (root : CoordinationMessage) (hstage : r.stage = .checking root) (ℓ : ℕ)
      (hlease : r.lease = some ℓ) (l : Lease) (hl : s.leases[ℓ]? = some l)
      (hforeign : l.agent_id ≠ root.target_agent_id) :
      StageMove config s r .check_lease (.exiting (some .foreign_lease))
  | submit_refused (m : CoordinationMessage) (ℓ : ℕ) (hstage : r.stage = .submitting m ℓ) :
      StageMove config s r (.submit false) (.refused ℓ)
  | settle_refused (ℓ : ℕ) (hstage : r.stage = .refused ℓ) (hclosed : s.is_closed ℓ = true) :
      StageMove config s r .settle_refused (.exiting (some .pool))
  | delegate_raised (parent : CoordinationMessage) (invocation_id : String)
      (d : DelegationProposal) (rest : List DelegationProposal)
      (hstage : r.stage = .delegating parent invocation_id (d :: rest)) (made : Option String)
      (raised : Option SinkError) (e : DelegateError)
      (hraised : delegate config.graph s.channel parent invocation_id d made raised = .raised e) :
      StageMove config s r (.delegate made raised)
        (.exiting (some (.delegation e parent (d :: rest))))
  | complete (hstage : r.stage = .routing) (hfutures : r.futures = [])
      (hpending : r.pending = []) : StageMove config s r .complete (.exiting none)
  | exit_session (raised : Option RoutingError) (hstage : r.stage = .exiting raised) :
      StageMove config s r .exit_session (.closing raised)
  | finish_call (raised : Option RoutingError) (hstage : r.stage = .closing raised)
      (hclosed : r.lease.all s.is_closed = true) : StageMove config s r .finish_call (.ended raised)

/-- The moves of future `k`. -/
inductive FutureMove (config : RoutingConfig) (s : RoutingState) (k : ℕ) (f : InvocationFuture) :
    RequestEvent → FutureStage → Prop
  | start (hstage : f.stage = .queued) : FutureMove config s k f (.start k) .running
  | finish (hstage : f.stage = .running) (invocation : Invocation) :
      FutureMove config s k f (.finish k invocation)
        (.exiting (invoke_message config.graph f.message invocation))
  | settle (outcome : InvocationOutcome) (hstage : f.stage = .exiting outcome)
      (hclosed : s.is_closed f.lease = true) : FutureMove config s k f (.settle k) (.done outcome)

/-- What a step can do. -/
inductive RoutingStep (config : RoutingConfig) (s : RoutingState) :
    RoutingEvent → RoutingState → Prop
  | flags (e : RoutingEvent) (hidle : s.work e = false) (is_closing is_closed : Bool) :
      RoutingStep config s e
        { s with is_closing := is_closing, channel := { s.channel with is_closed := is_closed } }
  | reserve (agent_id : String) (hagent : agent_id ∈ config.graph.agents)
      (havailable : s.available config agent_id = true) :
      RoutingStep config s (.reserve agent_id) (s.allocate agent_id .caller)
  | mark (closer : Closer) (ℓ : ℕ) (hcloser : closer_lease s closer = some ℓ) (l : Lease)
      (hl : s.leases[ℓ]? = some l) (hopen : l.stage = .opened) :
      RoutingStep config s (.close closer) (s.mark ℓ l)
  | release (ℓ : ℕ) (l : Lease) (hl : s.leases[ℓ]? = some l) (hclosing : l.stage = .closing) :
      RoutingStep config s (.release ℓ) (s.release ℓ l)
  | call (request : CoordinationRequest) :
      RoutingStep config s (.coordinate request none)
        { s with requests := s.requests ++ [{ request := request, lease := none }] }
  | call_lease (request : CoordinationRequest) (ℓ : ℕ) (l : Lease) (hl : s.leases[ℓ]? = some l)
      (howner : l.owner = .caller) (hopen : l.stage = .opened) :
      RoutingStep config s (.coordinate request (some ℓ)) { s with
        leases := s.leases.set ℓ { l with owner := .request s.requests.length }
        requests := s.requests ++ [{ request := request, lease := some ℓ }] }
  | restage (i : ℕ) (r : RoutingRequest) (hr : s.requests[i]? = some r) (a : RequestEvent)
      (stage : RequestStage) (hmove : StageMove config s r a stage) (sessions : ℤ) :
      RoutingStep config s (.request i a) (({ s with sessions := sessions } : RoutingState).put i
        { r with stage := stage })
  | send (i : ℕ) (r : RoutingRequest) (hr : s.requests[i]? = some r) (root : CoordinationMessage)
      (hstage : r.stage = .sending root) (raised : Option SinkError) (channel : MessageChannel)
      (hsend : s.channel.send root raised = .ok channel) :
      RoutingStep config s (.request i (.send_root raised))
        (({ s with channel := channel } : RoutingState).put i { r with
          messages := [root]
          stage := if r.lease = none then .routing else .checking root })
  | check (i : ℕ) (r : RoutingRequest) (hr : s.requests[i]? = some r) (root : CoordinationMessage)
      (hstage : r.stage = .checking root) (ℓ : ℕ) (hlease : r.lease = some ℓ) (l : Lease)
      (hl : s.leases[ℓ]? = some l) (hown : l.agent_id = root.target_agent_id)
      (channel : MessageChannel)
      (hchannel : channel = match s.channel.receive [root.message_id] with
        | some (_, channel) => channel
        | none => s.channel) :
      RoutingStep config s (.request i .check_lease)
        (({ s with channel := channel } : RoutingState).put i
          { r with stage := .submitting root ℓ })
  | take (i : ℕ) (r : RoutingRequest) (hr : s.requests[i]? = some r) (hstage : r.stage = .routing)
      (m : CoordinationMessage) (channel : MessageChannel)
      (hreceive : s.channel.receive ((r.pending.filter fun m =>
        s.available config m.target_agent_id).map CoordinationMessage.message_id)
          = some (m, channel)) :
      RoutingStep config s (.request i .take)
        ((({ s with channel := channel } : RoutingState).allocate m.target_agent_id
          (.request i)).put i { r with stage := .submitting m s.leases.length })
  | submit (i : ℕ) (r : RoutingRequest) (hr : s.requests[i]? = some r) (m : CoordinationMessage)
      (ℓ : ℕ) (hstage : r.stage = .submitting m ℓ) :
      RoutingStep config s (.request i (.submit true)) (s.put i { r with
        futures := r.futures ++ [{ message := m, lease := ℓ }]
        submitted := r.submitted ++ [m.message_id]
        stage := .routing })
  | future (i : ℕ) (r : RoutingRequest) (hr : s.requests[i]? = some r) (k : ℕ)
      (f : InvocationFuture) (hf : r.futures[k]? = some f) (a : RequestEvent) (stage : FutureStage)
      (hmove : FutureMove config s k f a stage) :
      RoutingStep config s (.request i a) (s.put i (r.set_future k f stage))
  | process (i : ℕ) (r : RoutingRequest) (hr : s.requests[i]? = some r) (hstage : r.stage = .routing)
      (k : ℕ) (f : InvocationFuture) (hf : r.futures[k]? = some f) (outcome : InvocationOutcome)
      (hdone : f.stage = .done outcome) :
      RoutingStep config s (.request i (.process k))
        (s.put i (process_outcome { r with futures := r.futures.eraseIdx k } f.message outcome))
  | refuse (i : ℕ) (r : RoutingRequest) (hr : s.requests[i]? = some r) (parent : CoordinationMessage)
      (invocation_id : String) (d : DelegationProposal) (rest : List DelegationProposal)
      (hstage : r.stage = .delegating parent invocation_id (d :: rest)) (made : Option String)
      (raised : Option SinkError) (issue : CoordinationIssue)
      (hrefused : delegate config.graph s.channel parent invocation_id d made raised
        = .refused issue) :
      RoutingStep config s (.request i (.delegate made raised)) (s.put i { r with
        issues := r.issues ++ [issue]
        log := r.log ++ [.refused parent d issue]
        stage := delegation_stage parent invocation_id rest })
  | accept (i : ℕ) (r : RoutingRequest) (hr : s.requests[i]? = some r) (parent : CoordinationMessage)
      (invocation_id : String) (d : DelegationProposal) (rest : List DelegationProposal)
      (hstage : r.stage = .delegating parent invocation_id (d :: rest)) (made : Option String)
      (raised : Option SinkError) (child : CoordinationMessage) (channel : MessageChannel)
      (haccepted : delegate config.graph s.channel parent invocation_id d made raised
        = .accepted child channel) :
      RoutingStep config s (.request i (.delegate made raised))
        (({ s with channel := channel } : RoutingState).put i { r with
          messages := r.messages ++ [child]
          log := r.log ++ [.delegated parent d child]
          stage := delegation_stage parent invocation_id rest })

variable {config : RoutingConfig} {s s' : RoutingState}

theorem request_section_step {e : RequestEvent} (hr : s.requests[i]? = some r)
    (h : request_section config s i r e = some s') : RoutingStep config s (.request i e) s' := by
  rcases e with made | raised | _ | _ | accepted | _ | k | ⟨k, invocation⟩ | k | k |
    ⟨made, raised⟩ | _ | _ | _
  · simp only [request_section] at h
    split at h
    swap
    · cases h
    rename_i hstage
    split at h
    · cases h
      exact .restage i r hr _ _ (.enter_failed hstage made _ rfl) s.sessions
    rename_i entry hentry
    split at h
    · cases h
      exact .restage i r hr _ _ (.enter_failed hstage made _ rfl) s.sessions
    rename_i message_id _
    split at h
    · cases h
      exact .restage i r hr _ _ (.enter_failed hstage made _ rfl) s.sessions
    · cases h
      exact .restage i r hr _ _ (.enter hstage entry message_id made hentry) _
  · simp only [request_section] at h
    split at h
    swap
    · cases h
    rename_i root hstage
    split at h
    · cases h
      exact .restage i r hr _ _ (.send_failed root hstage raised _) s.sessions
    · rename_i channel hsend
      cases h
      exact .send i r hr root hstage raised channel hsend
  · simp only [request_section] at h
    split at h
    swap
    · cases h
    rename_i root ℓ hstage hlease
    split at h
    swap
    · cases h
    rename_i l hl
    split at h
    · rename_i hforeign
      cases h
      exact .restage i r hr _ _ (.foreign root hstage ℓ hlease l hl hforeign) s.sessions
    · rename_i hown
      cases h
      exact .check i r hr root hstage ℓ hlease l hl (not_not.mp hown) _ rfl
  · simp only [request_section] at h
    split at h
    swap
    · cases h
    rename_i hstage
    split at h
    · rename_i m channel hreceive
      cases h
      exact .take i r hr hstage m channel hreceive
    · cases h
  · simp only [request_section] at h
    split at h
    swap
    · cases h
    rename_i m ℓ hstage
    cases accepted with
    | true =>
      cases h
      exact .submit i r hr m ℓ hstage
    | false =>
      cases h
      exact .restage i r hr _ _ (.submit_refused m ℓ hstage) s.sessions
  · simp only [request_section] at h
    split at h
    swap
    · cases h
    rename_i ℓ hstage
    split at h
    · rename_i hclosed
      cases h
      exact .restage i r hr _ _ (.settle_refused ℓ hstage hclosed) s.sessions
    · cases h
  · simp only [request_section] at h
    split at h
    swap
    · cases h
    rename_i f hf
    split at h
    · rename_i hstage
      cases h
      exact .future i r hr k f hf _ _ (.start hstage)
    · cases h
  · simp only [request_section] at h
    split at h
    swap
    · cases h
    rename_i f hf
    split at h
    · rename_i hstage
      cases h
      exact .future i r hr k f hf _ _ (.finish hstage invocation)
    · cases h
  · simp only [request_section] at h
    split at h
    swap
    · cases h
    rename_i f hf
    split at h
    swap
    · cases h
    rename_i outcome hstage
    split at h
    · rename_i hclosed
      cases h
      exact .future i r hr k f hf _ _ (.settle outcome hstage hclosed)
    · cases h
  · simp only [request_section] at h
    split at h
    swap
    · cases h
    rename_i f hstage hf
    split at h
    · rename_i outcome hdone
      cases h
      exact .process i r hr hstage k f hf outcome hdone
    · cases h
  · simp only [request_section] at h
    split at h
    swap
    · cases h
    rename_i parent invocation_id d rest hstage
    split at h
    · rename_i issue hrefused
      cases h
      exact .refuse i r hr parent invocation_id d rest hstage made raised issue hrefused
    · rename_i e hraised
      cases h
      exact .restage i r hr _ _
        (.delegate_raised parent invocation_id d rest hstage made raised e hraised) s.sessions
    · rename_i child channel haccepted
      cases h
      exact .accept i r hr parent invocation_id d rest hstage made raised child channel haccepted
  · simp only [request_section] at h
    split at h
    swap
    · cases h
    rename_i hstage
    split at h
    · rename_i hdone
      cases h
      exact .restage i r hr _ _ (.complete hstage (List.isEmpty_iff.mp hdone.1) hdone.2) s.sessions
    · cases h
  · simp only [request_section] at h
    split at h
    · rename_i raised hstage
      cases h
      exact .restage i r hr _ _ (.exit_session raised hstage) _
    · cases h
  · simp only [request_section] at h
    split at h
    swap
    · cases h
    rename_i raised hstage
    split at h
    · rename_i hclosed
      cases h
      exact .restage i r hr _ _ (.finish_call raised hstage hclosed) s.sessions
    · cases h

theorem routing_step {e : RoutingEvent} (h : (routing_system config).step s e = some s') :
    RoutingStep config s e s' := by
  rcases e with agent_id | closer | ℓ | ⟨request, lease⟩ | _ | _ | ⟨i, e⟩
  · simp only [routing_system] at h
    split at h
    · rename_i hopen
      cases h
      exact .reserve agent_id hopen.2.1 hopen.2.2
    · cases h
  · simp only [routing_system, Option.bind_eq_bind, Option.bind_eq_some_iff,
      Option.some.injEq] at h
    obtain ⟨ℓ, hcloser, l, hl, rfl⟩ := h
    by_cases hopen : l.stage = .opened
    · rw [if_pos hopen]
      exact .mark closer ℓ hcloser l hl hopen
    · -- the flag is set already
      rw [if_neg hopen]
      refine .flags _ ?_ s.is_closing s.channel.is_closed
      simp [RoutingState.work, hcloser, hl, hopen]
  · simp only [routing_system] at h
    split at h
    swap
    · cases h
    rename_i l hl
    split at h
    · rename_i hclosing
      cases h
      exact .release ℓ l hl hclosing
    · cases h
  · rcases lease with _ | ℓ
    · cases h
      exact .call request
    · simp only [routing_system] at h
      split at h
      swap
      · cases h
      rename_i l hl
      split at h
      · rename_i howner
        cases h
        exact .call_lease request ℓ l hl howner.1 howner.2
      · cases h
  · cases h
    exact .flags _ rfl true s.channel.is_closed
  · cases h
    exact .flags _ rfl s.is_closing true
  · simp only [routing_system] at h
    split at h
    · rename_i r hr
      exact request_section_step hr h
    · cases h

/-! ## Identities -/

/-- What a look at a finished future leaves alone. -/
theorem process_outcome_frame (r : RoutingRequest) (m : CoordinationMessage)
    (outcome : InvocationOutcome) : (process_outcome r m outcome).lease = r.lease ∧
      (process_outcome r m outcome).futures = r.futures ∧
      (process_outcome r m outcome).messages = r.messages ∧
      (process_outcome r m outcome).submitted = r.submitted := by
  unfold process_outcome
  split
  · exact ⟨rfl, rfl, rfl, rfl⟩
  · exact ⟨rfl, rfl, rfl, rfl⟩
  · exact ⟨rfl, rfl, rfl, rfl⟩

/-- The message is queued, or some request has it. -/
def RoutingState.Known (s : RoutingState) (m : CoordinationMessage) : Prop :=
  m ∈ s.channel.messages ∨ ∃ r ∈ s.requests, m ∈ r.messages

/-- The channel has accepted every known message, and an id names one message. -/
structure IdentityInv (s : RoutingState) : Prop where
  accepted : ∀ m, s.Known m → m.message_id ∈ s.channel.accepted_ids
  unique : ∀ m m', s.Known m → s.Known m' → m.message_id = m'.message_id → m = m'

theorem IdentityInv.subset (h : IdentityInv s)
    (haccepted : s'.channel.accepted_ids = s.channel.accepted_ids)
    (hknown : ∀ m, s'.Known m → s.Known m) : IdentityInv s' where
  accepted m hm := by
    rw [haccepted]
    exact h.accepted m (hknown m hm)
  unique m m' hm hm' heq := h.unique m m' (hknown m hm) (hknown m' hm') heq

/-- The channel accepts one message, under a new id. -/
theorem IdentityInv.send (h : IdentityInv s) {new : CoordinationMessage}
    (hnew : new.message_id ∉ s.channel.accepted_ids)
    (haccepted : s'.channel.accepted_ids = s.channel.accepted_ids ++ [new.message_id])
    (hknown : ∀ m, s'.Known m → s.Known m ∨ m = new) : IdentityInv s' where
  accepted m hm := by
    rw [haccepted, mem_append]
    rcases hknown m hm with hold | rfl
    · exact Or.inl (h.accepted m hold)
    · exact Or.inr (mem_singleton.mpr rfl)
  unique m m' hm hm' heq := by
    rcases hknown m hm with hold | rfl <;> rcases hknown m' hm' with hold' | rfl
    · exact h.unique m m' hold hold' heq
    · exact absurd (heq ▸ h.accepted m hold) hnew
    · exact absurd (heq ▸ h.accepted m' hold') hnew
    · rfl

/-- What a changed request knows. -/
theorem RoutingState.Known.of_put {base : RoutingState} {r' : RoutingRequest}
    (hrequests : base.requests = s.requests) {m : CoordinationMessage}
    (h : (base.put i r').Known m) :
    m ∈ base.channel.messages ∨ (∃ q ∈ s.requests, m ∈ q.messages) ∨ m ∈ r'.messages := by
  rcases h with hqueued | ⟨q, hq, hm⟩
  · exact Or.inl hqueued
  · change q ∈ base.requests.set i r' at hq
    rcases mem_or_eq_of_mem_set hq with hold | rfl
    · exact Or.inr (Or.inl ⟨q, hrequests ▸ hold, hm⟩)
    · exact Or.inr (Or.inr hm)

theorem identity_inv_step {e : RoutingEvent} (h : IdentityInv s) (hs : RoutingStep config s e s') :
    IdentityInv s' := by
  -- a step of a request that accepts nothing
  have hput : ∀ (base : RoutingState) (i : ℕ) (r r' : RoutingRequest),
      s.requests[i]? = some r → base.requests = s.requests →
      base.channel.accepted_ids = s.channel.accepted_ids →
      (∀ m ∈ base.channel.messages, m ∈ s.channel.messages) → r'.messages = r.messages →
      IdentityInv (base.put i r') := by
    intro base i r r' hr hrequests haccepted hqueued hmessages
    refine h.subset haccepted fun m hm => ?_
    rcases hm.of_put hrequests with hq | hold | hown
    · exact Or.inl (hqueued m hq)
    · exact Or.inr hold
    · exact Or.inr ⟨r, mem_of_getElem? hr, hmessages ▸ hown⟩
  have hcall : ∀ (t : RoutingState) (q : RoutingRequest), t.channel = s.channel →
      t.requests = s.requests ++ [q] → q.messages = [] → IdentityInv t := by
    intro t q hchannel hrequests hq
    refine h.subset (by rw [hchannel]) ?_
    rintro m (hqueued | ⟨p, hp, hm⟩)
    · exact Or.inl (hchannel ▸ hqueued)
    · rw [hrequests] at hp
      rcases mem_append.mp hp with hold | hnew
      · exact Or.inr ⟨p, hold, hm⟩
      · rw [mem_singleton.mp hnew, hq] at hm
        cases hm
  rcases hs with ⟨e, hidle, is_closing, is_closed⟩ | ⟨agent_id, hagent, havailable⟩ |
    ⟨closer, ℓ, hcloser, l, hl, hopen⟩ | ⟨ℓ, l, hl, hclosing⟩ | ⟨request⟩ |
    ⟨request, ℓ, l, hl, howner, hopen⟩ | ⟨i, r, hr, a, stage, hmove, sessions⟩ |
    ⟨i, r, hr, root, hstage, raised, channel, hsend⟩ |
    ⟨i, r, hr, root, hstage, ℓ, hlease, l, hl, hown, channel, hchannel⟩ |
    ⟨i, r, hr, hstage, m, channel, hreceive⟩ | ⟨i, r, hr, m, ℓ, hstage⟩ |
    ⟨i, r, hr, k, f, hf, a, stage, hmove⟩ | ⟨i, r, hr, hstage, k, f, hf, outcome, hdone⟩ |
    ⟨i, r, hr, parent, invocation_id, d, rest, hstage, made, raised, issue, hrefused⟩ |
    ⟨i, r, hr, parent, invocation_id, d, rest, hstage, made, raised, child, channel, haccepted⟩
  case flags | reserve | mark | release => exact h.subset rfl fun m hm => hm
  case call => exact hcall _ _ rfl rfl rfl
  case call_lease => exact hcall _ _ rfl rfl rfl
  case restage | submit | future | refuse => exact hput _ i r _ hr rfl rfl (fun m hm => hm) rfl
  case process =>
    exact hput _ i r _ hr rfl rfl (fun m hm => hm) (process_outcome_frame _ f.message outcome).2.2.1
  case check =>
    subst hchannel
    refine hput _ i r _ hr rfl ?_ ?_ rfl
    · dsimp only
      split
      · rename_i received channel hreceive
        rw [(MessageChannel.receive_some hreceive).2.2]
      · rfl
    · intro m hm
      dsimp only at hm
      split at hm
      · rename_i received channel hreceive
        rw [(MessageChannel.receive_some hreceive).2.2] at hm
        exact mem_of_mem_erase hm
      · exact hm
  case take =>
    obtain ⟨-, -, rfl⟩ := MessageChannel.receive_some hreceive
    exact hput _ i r _ hr rfl rfl (fun m hm => mem_of_mem_erase hm) rfl
  case send =>
    obtain ⟨hnew, -, rfl⟩ := MessageChannel.send_ok hsend
    refine h.send hnew rfl fun m hm => ?_
    rcases hm.of_put rfl with hq | hold | hown
    · rcases mem_append.mp hq with hold | hlast
      · exact Or.inl (Or.inl hold)
      · exact Or.inr (mem_singleton.mp hlast)
    · exact Or.inl (Or.inr hold)
    · exact Or.inr (mem_singleton.mp hown)
  case accept =>
    obtain ⟨-, -, -, -, hsend⟩ := delegate_accepted haccepted
    obtain ⟨hnew, -, rfl⟩ := MessageChannel.send_ok hsend
    refine h.send hnew rfl fun m hm => ?_
    rcases hm.of_put rfl with hq | hold | hown
    · rcases mem_append.mp hq with hold | hlast
      · exact Or.inl (Or.inl hold)
      · exact Or.inr (mem_singleton.mp hlast)
    · exact Or.inl (Or.inr hold)
    · rcases mem_append.mp hown with hold | hlast
      · exact Or.inl (Or.inr ⟨r, mem_of_getElem? hr, hold⟩)
      · exact Or.inr (mem_singleton.mp hlast)

theorem identity_inv (h : (routing_system config).Reachable s) : IdentityInv s := by
  refine h.invariant ?_ fun s e s' _ hinv hs => identity_inv_step hinv (routing_step hs)
  rintro s rfl
  have hnone : ∀ m, ¬ ({ channel := { capacity := config.channel_capacity } } : RoutingState).Known m := by
    rintro m (hq | ⟨r, hr, -⟩)
    · cases hq
    · cases hr
  exact ⟨fun m hm => absurd hm (hnone m), fun m _ hm => absurd hm (hnone m)⟩

end MininetAi
