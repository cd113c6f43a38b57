/-
The part of the agent runtime that coordination drives
(`OneShotAgentRuntime` in `mininet_ai/agents/runtime.py`): the context an
invocation is prepared with, the check of its shared-state versions, and what
`complete` makes of its action results.

`complete` reads the store in the version check and writes it afterwards, in two
sections of the store's lock. Its two halves are separate definitions here, and
what happens between them is the business of
`MininetAi.Coordination.CommitSystem`. Model calls, timings, audit records and
the provider's own result handling touch no shared state and are left out.
-/
import MininetAi.Runtime.State

set_option autoImplicit false

namespace MininetAi

/-! ## Agents and their shared memory -/

/-- `memory.shared` of an agent. -/
structure SharedMemoryConfiguration where
  scopes : List SharedScope
  max_entries : ℕ
  deriving DecidableEq

/-- The part of a compiled agent that an invocation's context and access use. -/
structure AgentInstance where
  id : String
  deployment : String
  priority : ℤ := 0
  shared : Option SharedMemoryConfiguration := none
  deriving DecidableEq

/-- The capacity of a scope for one agent: the least one that any agent sharing
the namespace declares. -/
def scope_limit (agent_instances : List AgentInstance) (agent : AgentInstance)
    (scope : SharedScope) : Option ℕ :=
  agent.shared.bind fun configuration =>
    if scope ∈ configuration.scopes then
      (agent_instances.filterMap fun other => other.shared.bind fun shared =>
        if scope ∈ shared.scopes ∧ (scope = .deployment → other.deployment = agent.deployment) then
          some shared.max_entries
        else none).min?
    else none

def shared_access (agent_instances : List AgentInstance) (run_id : String)
    (agent : AgentInstance) : SharedStateAccess where
  run_id := run_id
  deployment := agent.deployment
  agent_id := agent.id
  limits := scope_limit agent_instances agent

/-! ## Prepared invocations -/

/-- An invocation that has reasoned and is ready to commit. -/
structure PreparedAgentInvocation where
  context : AgentContext
  response : AgentResponse
  deriving DecidableEq

/-- The context `prepare` builds, with the snapshot it takes. -/
def prepared_context (agent_instances : List AgentInstance) (entries : Entries)
    (run_id invocation_id : String) (agent : AgentInstance) : AgentContext where
  invocation_id := invocation_id
  run_id := run_id
  agent_id := agent.id
  deployment := agent.deployment
  shared_state := snapshot entries (shared_access agent_instances run_id agent)
  priority := agent.priority

def snapshot_version (context : AgentContext) (scope : SharedScope) (key : String) : ℕ :=
  entry_version ((context.shared_state.scope scope).lookup key)

/-! ## The version check -/

/-- The keys a response reads or writes. -/
def identities (response : AgentResponse) : List (SharedScope × String) :=
  (response.shared_state_reads.map fun r => (r.scope, r.key)) ++
    response.shared_state_updates.map fun u => (u.scope, u.key)

/-- `explicit.get((scope, key))`: of several updates of one key the last one
counts. -/
def explicit_version (updates : List SharedStateUpdate) (scope : SharedScope) (key : String) :
    Option ℕ :=
  (updates.reverse.find? fun u => u.scope = scope ∧ u.key = key).bind
    SharedStateUpdate.expected_version

/-- One iteration of the check: what the store shows now, what the update
expects and what the invocation saw are the same version. -/
def check_identity (context : AgentContext) (updates : List SharedStateUpdate)
    (current : SharedStateSnapshot) (identity : SharedScope × String) :
    Except SharedStateError Unit :=
  let (scope, key) := identity
  let observed := snapshot_version context scope key
  let expected := (explicit_version updates scope key).getD observed
  let actual := entry_version ((current.scope scope).lookup key)
  if actual ≠ expected ∨ expected ≠ observed then
    .error
      { message := "shared-state version conflict for " ++ scope.text ++ ":" ++ key ++
          "; expected " ++ toString expected ++ ", found " ++ toString actual
        code := "state.version.conflict"
        conflict := true }
  else .ok ()

/-- What reading the store gives: a snapshot or the storage's failure. -/
abbrev StoreRead := Except SharedStateError SharedStateSnapshot

/-- `_check_shared_state`, given what it reads, if a store is configured. -/
def check_shared_state (access : SharedStateAccess) (store : Option StoreRead)
    (prepared : PreparedAgentInvocation) : Except SharedStateError Unit :=
  let response := prepared.response
  match store with
  | none =>
    if response.shared_state_updates ≠ [] then
      .error { message := "no shared-state store is configured", code := "state.store.required" }
    else .ok ()
  | some read => do
      let current ← read
      response.shared_state_updates.forM fun u => do let _ ← access.scope_namespace u.scope
      response.shared_state_reads.forM fun r => do let _ ← access.scope_namespace r.scope
      (identities response).forM
        (check_identity prepared.context response.shared_state_updates current)

/-- A loop that only checks passes when every iteration does. -/
theorem forM_ok_iff {α : Type} {l : List α} {f : α → Except SharedStateError Unit} :
    l.forM f = .ok () ↔ ∀ x ∈ l, f x = .ok () := by
  induction l with
  | nil => simp [pure, Except.pure]
  | cons x l ih =>
    have hcons : (x :: l).forM f = (f x >>= fun _ => l.forM f) := rfl
    rw [hcons, List.forall_mem_cons, ← ih]
    cases hx : f x with
    | error e => simp [bind, Except.bind]
    | ok u => simp [bind, Except.bind]

theorem namespace_checked_iff (access : SharedStateAccess) (scope : SharedScope) :
    (do let _ ← access.scope_namespace scope : Except SharedStateError Unit) = .ok () ↔
      (access.limits scope).isSome := by
  cases h : access.scope_namespace scope with
  | error e =>
    simp only [bind, Except.bind, reduceCtorEq, false_iff]
    intro hsome
    rw [scope_namespace_of_isSome hsome] at h
    cases h
  | ok ns => simp [bind, Except.bind, pure, Except.pure, (scope_namespace_ok h).1]

variable {current : SharedStateSnapshot} {access : SharedStateAccess}
  {prepared : PreparedAgentInvocation}

theorem check_identity_iff {context : AgentContext} {updates : List SharedStateUpdate}
    {scope : SharedScope} {key : String} :
    check_identity context updates current (scope, key) = .ok () ↔
      entry_version ((current.scope scope).lookup key) = snapshot_version context scope key ∧
        (explicit_version updates scope key).getD (snapshot_version context scope key)
          = snapshot_version context scope key := by
  unfold check_identity
  simp only
  split
  · rename_i hne
    simp only [reduceCtorEq, false_iff, not_and]
    intro hactual hexpected
    rcases hne with hne | hne
    · exact hne (hactual.trans hexpected.symm)
    · exact hne hexpected
  · rename_i heq
    simp only [ne_eq, not_or, not_not] at heq
    exact ⟨fun _ => ⟨heq.1.trans heq.2, heq.2⟩, fun _ => rfl⟩

/-- What the check establishes: the scopes are authorized, and each key the
response reads or writes has the version the invocation saw. -/
theorem check_shared_state_iff :
    check_shared_state access (some (.ok current)) prepared = .ok () ↔
      (∀ u ∈ prepared.response.shared_state_updates, (access.limits u.scope).isSome) ∧
        (∀ r ∈ prepared.response.shared_state_reads, (access.limits r.scope).isSome) ∧
        ∀ id ∈ identities prepared.response,
          check_identity prepared.context prepared.response.shared_state_updates current id
            = .ok () := by
  unfold check_shared_state
  simp only
  have hread : ∀ f : SharedStateSnapshot → Except SharedStateError Unit,
      (Except.ok current >>= f) = f current := fun f => rfl
  rw [hread]
  have hbind : ∀ (a b : Except SharedStateError Unit),
      (do a; b) = .ok () ↔ a = .ok () ∧ b = .ok () := by
    intro a b
    cases a with
    | error e => simp [bind, Except.bind]
    | ok u => simp [bind, Except.bind]
  rw [hbind, hbind, forM_ok_iff, forM_ok_iff, forM_ok_iff]
  simp only [namespace_checked_iff]

/-- The check looks at the keys of the response only. -/
theorem check_shared_state_congr {now : SharedStateSnapshot}
    (h : ∀ id ∈ identities prepared.response,
      (now.scope id.1).lookup id.2 = (current.scope id.1).lookup id.2) :
    check_shared_state access (some (.ok now)) prepared = .ok () ↔
      check_shared_state access (some (.ok current)) prepared = .ok () := by
  rw [check_shared_state_iff, check_shared_state_iff]
  have hid : ∀ id ∈ identities prepared.response,
      (check_identity prepared.context prepared.response.shared_state_updates now id = .ok () ↔
        check_identity prepared.context prepared.response.shared_state_updates current id
          = .ok ()) := by
    intro id hmem
    rw [check_identity, check_identity, h id hmem]
  simp only [and_congr_right_iff]
  exact fun _ _ => forall₂_congr hid

/-! ## Validation and rejection of proposals -/

/-- What the capability engine returns for a proposal it does not accept. -/
abbrev EngineRejection := { r : ActionResult // r.status ≠ .succeeded }

def reject (prepared : PreparedAgentInvocation) (proposal : ActionProposal)
    (code message : String) : ActionResult where
  run_id := prepared.context.run_id
  request_id := proposal.id
  status := .rejected
  issue := some { code := code, message := message, target := some proposal.target }

/-- `validate`: the version check, then the engine. -/
def validate (access : SharedStateAccess) (store : Option StoreRead)
    (prepared : PreparedAgentInvocation) (proposal : ActionProposal)
    (engine : Option EngineRejection) : Option ActionResult :=
  match check_shared_state access store prepared with
  | .error e => some (reject prepared proposal e.code e.message)
  | .ok () => engine.map Subtype.val

variable {store : Option StoreRead} {proposal : ActionProposal} {engine : Option EngineRejection}

/-- Who passes validation has passed the version check. -/
theorem check_of_validate (h : validate access store prepared proposal engine = none) :
    check_shared_state access store prepared = .ok () := by
  unfold validate at h
  split at h
  · cases h
  · assumption

/-- No rejection is a success. -/
theorem validate_not_succeeded {r : ActionResult}
    (h : validate access store prepared proposal engine = some r) : r.status ≠ .succeeded := by
  unfold validate at h
  split at h
  · cases h
    simp [reject]
  · obtain ⟨e, -, rfl⟩ := Option.map_eq_some_iff.mp h
    exact e.2

/-! ## Completion -/

/-- `complete` touches shared state only when every action succeeded. -/
def all_succeeded (action_results : List ActionResult) : Bool :=
  action_results.all fun r => r.status = .succeeded

/-- `complete` checks the versions again unless there is nothing to check. -/
def checks_again (response : AgentResponse) : Bool :=
  response.shared_state_updates ≠ [] || response.shared_state_reads ≠ []

/-- The updates as they reach the store: an update without an expected version
expects the one of the invocation's snapshot. -/
def versioned (context : AgentContext) (updates : List SharedStateUpdate) :
    List SharedStateUpdate :=
  updates.map fun u => { u with
    expected_version := some (u.expected_version.getD (snapshot_version context u.scope u.key)) }

def apply_shared_state (context : AgentContext) (access : SharedStateAccess)
    (store : Option Entries) (updates : List SharedStateUpdate) :
    Except SharedStateError (Option Entries × List SharedStateChange) :=
  if updates = [] then .ok (store, [])
  else match store with
    | none =>
      .error
        { message := "agent proposed shared-state updates without a configured store"
          code := "state.store.required" }
    | some entries => (apply_updates access entries (versioned context updates)).map
        fun (entries, changes) => (some entries, changes)

/-- `_state_failure`, with the action results `complete` adds. -/
def state_failure (prepared : PreparedAgentInvocation) (error : SharedStateError)
    (action_results : List ActionResult) : AgentInvocationResult where
  invocation_id := prepared.context.invocation_id
  run_id := prepared.context.run_id
  agent_id := prepared.context.agent_id
  status := if error.conflict then .rejected else .failed
  response := some prepared.response
  action_results := action_results
  issue := some
    { code := error.code, message := error.message, agent_id := some prepared.context.agent_id }
  issue_matches_status := by cases error.conflict <;> simp

/-- The updates that reach the store name the keys of the response. -/
theorem map_versioned (context : AgentContext) (updates : List SharedStateUpdate) :
    (versioned context updates).map (fun u => (u.scope, u.key))
      = updates.map fun u => (u.scope, u.key) := by
  simp [versioned]

/-- After the check, each update expects what the store shows, unless the batch
names one key twice. -/
theorem checked_of_check {entries : Entries}
    (h : check_shared_state access (some (.ok (snapshot entries access))) prepared = .ok ())
    (hnodup : (prepared.response.shared_state_updates.map fun u => (u.scope, u.key)).Nodup) :
    ∀ u ∈ versioned prepared.context prepared.response.shared_state_updates,
      Checked access entries u := by
  obtain ⟨hlimits, -, hids⟩ := check_shared_state_iff.mp h
  intro v hv
  obtain ⟨u, hu, rfl⟩ := List.mem_map.mp hv
  have hmem : (u.scope, u.key) ∈ identities prepared.response :=
    List.mem_append.mpr (Or.inr (List.mem_map.mpr ⟨u, hu, rfl⟩))
  obtain ⟨hactual, hexpected⟩ := check_identity_iff.mp (hids _ hmem)
  -- the last update of the key is this one
  have hexplicit : explicit_version prepared.response.shared_state_updates u.scope u.key
      = u.expected_version := by
    have hfind : (prepared.response.shared_state_updates.reverse.find?
        fun w => w.scope = u.scope ∧ w.key = u.key) = some u := by
      cases hw : prepared.response.shared_state_updates.reverse.find?
          fun w => w.scope = u.scope ∧ w.key = u.key with
      | none =>
        have hnone := List.find?_eq_none.mp hw u (List.mem_reverse.mpr hu)
        simp at hnone
      | some w =>
        have hsame := List.find?_some hw
        simp only [decide_eq_true_eq] at hsame
        have hwmem := List.mem_reverse.mp (List.mem_of_find?_eq_some hw)
        rw [List.inj_on_of_nodup_map hnodup hwmem hu (Prod.ext hsame.1 hsame.2)]
    rw [explicit_version, hfind]
    rfl
  refine ⟨hlimits u hu, ?_⟩
  rw [hexplicit] at hexpected
  rw [lookup_snapshot (scope_namespace_of_isSome (hlimits u hu)), entry_version_eq] at hactual
  exact congrArg some (hexpected.trans hactual.symm)

end MininetAi
