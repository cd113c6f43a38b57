/-
What becomes of the messages of a request.

The log of a request says what happened to each message and to each delegation. An
accepted message is at one place: it waits to be submitted, is with a future, or has
its record in the log; only a failed invocation whose issue cannot be built leaves a
message without one. The delegations of an invocation are those in the log and those
that are left. So when nothing is left, everything has its record.

These are facts about one request; the channel enters by the ids it has accepted.
-/
import MininetAi.Coordination.RoutingSystem

set_option autoImplicit false

namespace MininetAi

open List

/-! ## What a record says -/

/-- The message whose invocation is reported. -/
def RoutingRecord.answered : RoutingRecord → Option CoordinationMessage
  | .invoked m _ _ | .failed m _ => some m
  | _ => none

/-- The message that was accepted. -/
def RoutingRecord.child : RoutingRecord → Option CoordinationMessage
  | .delegated _ _ child => some child
  | _ => none

def RoutingRecord.invocation : RoutingRecord → Option (CoordinationMessage × AgentInvocationResult)
  | .invoked m result _ => some (m, result)
  | _ => none

def RoutingRecord.issue : RoutingRecord → Option CoordinationIssue
  | .failed _ issue | .refused _ _ issue => some issue
  | _ => none

/-- The delegations of the invocation with `m` that are to be routed. -/
def RoutingRecord.proposed (m : CoordinationMessage) : RoutingRecord → List DelegationProposal
  | .invoked m' _ delegations => if m' = m then delegations else []
  | _ => []

/-- The delegation of the invocation with `m` that is settled. -/
def RoutingRecord.handled (m : CoordinationMessage) : RoutingRecord → List DelegationProposal
  | .delegated p d _ | .refused p d _ => if p = m then [d] else []
  | _ => []

/-- The message between its take and its submission. -/
def RequestStage.held : RequestStage → Option CoordinationMessage
  | .submitting m _ => some m
  | _ => none

/-- What the request raises, if anything, once it is on its way out. -/
def RequestStage.ending : RequestStage → Option (Option RoutingError)
  | .exiting raised | .closing raised | .ended raised => some raised
  | _ => none

/-- The delegations of the invocation with `m` that nothing has settled. -/
def RoutingError.left (m : CoordinationMessage) : RoutingError → List DelegationProposal
  | .delegation _ p rest => if p = m then rest else []
  | _ => []

/-- The delegations of the invocation with `m` that are left. -/
def RequestStage.left (m : CoordinationMessage) (stage : RequestStage) : List DelegationProposal :=
  match stage with
  | .delegating p _ rest => if p = m then rest else []
  | _ => (stage.ending.bind id).elim [] (RoutingError.left m)

def RequestStage.delegates : RequestStage → Bool
  | .delegating _ _ _ => true
  | _ => false

/-- The root is not sent. -/
def RequestStage.before_send : RequestStage → Bool
  | .called | .sending _ => true
  | _ => false

def FutureStage.outcome : FutureStage → Option InvocationOutcome
  | .exiting outcome | .done outcome => some outcome
  | _ => none

/-- The messages whose invocation is reported. -/
def RoutingRequest.answered (r : RoutingRequest) : List CoordinationMessage :=
  r.log.filterMap RoutingRecord.answered

/-- The messages that were accepted behind the root. -/
def RoutingRequest.children (r : RoutingRequest) : List CoordinationMessage :=
  r.log.filterMap RoutingRecord.child

variable {stage : RequestStage}

theorem RequestStage.left_of_ending (h : stage.delegates = false) (m : CoordinationMessage) :
    stage.left m = (stage.ending.bind id).elim [] (RoutingError.left m) := by
  cases stage with
  | delegating p invocation_id rest => cases h
  | _ => rfl

theorem RequestStage.left_nil (h : stage.delegates = false)
    (hending : ∀ e, stage.ending = some (some e) → e.in_delegation = false)
    (m : CoordinationMessage) : stage.left m = [] := by
  rw [RequestStage.left_of_ending h]
  rcases hraised : stage.ending with _ | _ | e
  · rfl
  · rfl
  · cases e with
    | delegation error p rest => cases hending _ hraised
    | _ => rfl

theorem delegation_stage_left (m parent : CoordinationMessage) (invocation_id : String)
    (rest : List DelegationProposal) :
    (delegation_stage parent invocation_id rest).left m = if parent = m then rest else [] := by
  rcases rest with _ | ⟨d, rest⟩
  · exact (ite_self []).symm
  · rfl

theorem delegation_stage_held (parent : CoordinationMessage) (invocation_id : String)
    (rest : List DelegationProposal) :
    (delegation_stage parent invocation_id rest).held = none ∧
      (delegation_stage parent invocation_id rest).ending = none ∧
      (delegation_stage parent invocation_id rest).before_send = false := by
  rcases rest with _ | ⟨d, rest⟩
  · exact ⟨rfl, rfl, rfl⟩
  · exact ⟨rfl, rfl, rfl⟩

variable {parent m : CoordinationMessage} {invocation_id message_id : String}
  {rest : List DelegationProposal} {r r' : RoutingRequest} {config : RoutingConfig}
  {d : DelegationProposal} {f : InvocationFuture} {s : RoutingState} {ids : List String}

variable {p : CoordinationMessage} {x : RoutingRecord} {k : ℕ} {a : RequestEvent}

theorem delegation_stage_eq {id : String} {ds : List DelegationProposal}
    (h : delegation_stage parent invocation_id rest = .delegating p id ds) :
    parent = p ∧ rest = ds ∧ ds ≠ [] := by
  rcases rest with _ | ⟨d, rest⟩
  · cases h
  · cases h
    exact ⟨rfl, rfl, cons_ne_nil d rest⟩

/-! ## The tree -/

/-- The message is `n` delegations below the root. -/
inductive RoutingRequest.Depth (r : RoutingRequest) : CoordinationMessage → ℕ → Prop
  | root {m : CoordinationMessage} (h : r.messages.head? = some m) : Depth r m 0
  | child {p m : CoordinationMessage} {d : DelegationProposal} {n : ℕ}
      (h : .delegated p d m ∈ r.log) (hp : Depth r p n) : Depth r m (n + 1)

theorem RoutingRequest.Depth.mono
    (hroot : ∀ m, r.messages.head? = some m → r'.messages.head? = some m)
    (hlog : ∀ x ∈ r.log, x ∈ r'.log) {n : ℕ} (h : r.Depth m n) : r'.Depth m n := by
  induction h with
  | root h => exact .root (hroot _ h)
  | child h _ ih => exact .child (hlog _ h) ih

/-- What an accepted delegation is: the invocation succeeded and proposed it, the
graph has its edge, and it stays within the hop limit. -/
structure Delegation (config : RoutingConfig) (r : RoutingRequest) (p : CoordinationMessage)
    (d : DelegationProposal) (m : CoordinationMessage) : Prop where
  parent_accepted : p ∈ r.messages
  invocation : ∃ result delegations, .invoked p result delegations ∈ r.log ∧
    result.status = .succeeded ∧ d ∈ delegations
  message : ∃ invocation_id message_id, m = delegated_message p invocation_id d message_id
  edge : ∃ edge ∈ config.graph.edges, edge.source = p.target_agent_id ∧
    edge.target = m.target_agent_id
  hop_limit : m.hop_count ≤ config.graph.hop_limit

theorem Delegation.mono (hmessages : ∀ m ∈ r.messages, m ∈ r'.messages)
    (hlog : ∀ x ∈ r.log, x ∈ r'.log) (h : Delegation config r p d m) :
    Delegation config r' p d m := by
  obtain ⟨result, delegations, hmem, hsucceeded, hd⟩ := h.invocation
  exact ⟨hmessages p h.parent_accepted, ⟨result, delegations, hlog _ hmem, hsucceeded, hd⟩,
    h.message, h.edge, h.hop_limit⟩

/-! ## The log of a request -/

/-- The log accounts for what the request reports and for the delegations, and the
accepted messages are a tree. -/
structure RoutingLogInv (config : RoutingConfig) (r : RoutingRequest) : Prop where
  invocations : r.invocations = r.log.filterMap RoutingRecord.invocation
  issues : r.issues = r.log.filterMap RoutingRecord.issue
  messages : r.messages = r.messages.head?.toList ++ r.children
  root : ∀ m, r.messages.head? = some m → ∃ entry message_id,
    config.graph.entry_agent r.request.requested_agent_id = .ok entry ∧
      m = root_message r.request entry message_id
  settled : ∀ m, r.log.flatMap (RoutingRecord.handled m) ++ r.stage.left m
    = r.log.flatMap (RoutingRecord.proposed m)
  delegating : ∀ p invocation_id rest, r.stage = .delegating p invocation_id rest →
    rest ≠ [] ∧ p ∈ r.messages ∧ ∃ result delegations, .invoked p result delegations ∈ r.log ∧
      result.status = .succeeded ∧ ∀ d ∈ rest, d ∈ delegations
  delegated : ∀ p d m, .delegated p d m ∈ r.log → Delegation config r p d m
  depth : ∀ m ∈ r.messages, r.Depth m m.hop_count

/-- Everything but the stage is the same, and it leaves the same delegations. -/
theorem RoutingLogInv.restage (h : RoutingLogInv config r) (hrequest : r'.request = r.request)
    (hmessages : r'.messages = r.messages) (hlog : r'.log = r.log)
    (hinvocations : r'.invocations = r.invocations) (hissues : r'.issues = r.issues)
    (hleft : ∀ m, r'.stage.left m = r.stage.left m)
    (hstage : r'.stage = r.stage ∨ r'.stage.delegates = false) : RoutingLogInv config r' where
  invocations := by rw [hinvocations, hlog, h.invocations]
  issues := by rw [hissues, hlog, h.issues]
  messages := by
    rw [hmessages, RoutingRequest.children, hlog]
    exact h.messages
  root m hm := by
    rw [hmessages] at hm
    rw [hrequest]
    exact h.root m hm
  settled m := by
    rw [hlog, hleft]
    exact h.settled m
  delegating p invocation_id rest hp := by
    rcases hstage with heq | hnew
    · rw [heq] at hp
      rw [hmessages, hlog]
      exact h.delegating p invocation_id rest hp
    · rw [hp] at hnew
      cases hnew
  delegated p d m hm := by
    rw [hlog] at hm
    exact (h.delegated p d m hm).mono (fun _ => hmessages ▸ id) fun _ => hlog ▸ id
  depth m hm := by
    rw [hmessages] at hm
    exact (h.depth m hm).mono (fun _ => hmessages ▸ id) fun _ => hlog ▸ id

/-- One record is added. -/
theorem RoutingLogInv.append (h : RoutingLogInv config r) (hne : r.messages ≠ [])
    (hrequest : r'.request = r.request) (hmessages : r'.messages = r.messages ++ x.child.toList)
    (hlog : r'.log = r.log ++ [x])
    (hinvocations : r'.invocations = r.invocations ++ x.invocation.toList)
    (hissues : r'.issues = r.issues ++ x.issue.toList)
    (hsettled : ∀ m, x.handled m ++ r'.stage.left m = r.stage.left m ++ x.proposed m)
    (hdelegating : ∀ p invocation_id rest, r'.stage = .delegating p invocation_id rest →
      rest ≠ [] ∧ p ∈ r'.messages ∧ ∃ result delegations,
        .invoked p result delegations ∈ r'.log ∧ result.status = .succeeded ∧
          ∀ d ∈ rest, d ∈ delegations)
    (hdelegated : ∀ p d m, x = .delegated p d m → Delegation config r' p d m)
    (hdepth : ∀ m, x.child = some m → r'.Depth m m.hop_count) : RoutingLogInv config r' := by
  have hhead : r'.messages.head? = r.messages.head? := by
    rw [hmessages, head?_append_of_ne_nil _ hne]
  have hmem : ∀ m ∈ r.messages, m ∈ r'.messages := by
    rw [hmessages]
    exact fun m hm => mem_append_left _ hm
  have hrecords : ∀ y ∈ r.log, y ∈ r'.log := by
    rw [hlog]
    exact fun y hy => mem_append_left _ hy
  refine ⟨?_, ?_, ?_, ?_, ?_, hdelegating, ?_, ?_⟩
  · rw [hinvocations, hlog, filterMap_append, h.invocations]
    rfl
  · rw [hissues, hlog, filterMap_append, h.issues]
    rfl
  · rw [hhead, RoutingRequest.children, hlog, filterMap_append, ← append_assoc]
    show r'.messages = (r.messages.head?.toList ++ r.children) ++ _
    rw [← h.messages, hmessages]
    rfl
  · intro m hm
    rw [hhead] at hm
    rw [hrequest]
    exact h.root m hm
  · intro m
    rw [hlog, flatMap_append, flatMap_append, flatMap_singleton,
      flatMap_singleton, append_assoc, hsettled m, ← append_assoc, h.settled m]
  · intro p d m hm
    rw [hlog, mem_append, mem_singleton] at hm
    rcases hm with hold | hnew
    · exact (h.delegated p d m hold).mono hmem hrecords
    · exact hdelegated p d m hnew.symm
  · intro m hm
    rw [hmessages, mem_append] at hm
    rcases hm with hold | hnew
    · exact (h.depth m hold).mono (fun _ => hhead ▸ id) hrecords
    · exact hdepth m (Option.mem_toList.mp hnew)

/-- The root is sent. -/
theorem RoutingLogInv.send (h : RoutingLogInv config r) (hempty : r.log = []) {entry : String}
    (hentry : config.graph.entry_agent r.request.requested_agent_id = .ok entry)
    (hstage : stage.delegates = false) (hending : stage.ending = none) :
    RoutingLogInv config { r with
      messages := [root_message r.request entry message_id]
      stage := stage } where
  invocations := h.invocations
  issues := h.issues
  messages := by
    rw [RoutingRequest.children, hempty]
    rfl
  root m hm := by
    rw [← Option.some.inj hm]
    exact ⟨entry, message_id, hentry, rfl⟩
  settled m := by
    rw [hempty, RequestStage.left_of_ending hstage, hending]
    rfl
  delegating p invocation_id rest hp := by
    change stage = _ at hp
    rw [hp] at hstage
    cases hstage
  delegated p d m hm := by
    rw [hempty] at hm
    cases hm
  depth m hm := by
    rw [mem_singleton.mp hm]
    exact .root rfl

/-- A finished future is looked at. -/
theorem RoutingLogInv.process {config : RoutingConfig} {r : RoutingRequest} (h : RoutingLogInv config r)
    (hstage : r.stage = .routing) {m : CoordinationMessage} (hm : m ∈ r.messages)
    (invocation : Invocation) :
    RoutingLogInv config (process_outcome r m (invoke_message config.graph m invocation)) := by
  have hne : r.messages ≠ [] := ne_nil_of_mem hm
  have hleft : ∀ m', r.stage.left m' = [] := fun m' => by rw [hstage]; rfl
  unfold process_outcome
  split
  · rename_i issue hroute
    refine h.append (x := .failed m issue) hne rfl (append_nil _).symm rfl
      (append_nil _).symm rfl ?_ ?_ ?_ ?_
    · intro m'
      rw [show (r.stage.left m') = [] from hleft m']
      rfl
    · intro p invocation_id rest hp
      rw [show r.stage = RequestStage.routing from hstage] at hp
      cases hp
    · intro p d c hc
      cases hc
    · intro c hc
      cases hc
  · exact h.restage rfl rfl rfl rfl rfl (fun m' => (hleft m').symm) (Or.inr rfl)
  · rename_i result delegations hroute
    refine h.append (x := .invoked m result delegations) hne rfl (append_nil _).symm rfl rfl
      (append_nil _).symm ?_ ?_ ?_ ?_
    · intro m'
      rw [hleft m']
      exact delegation_stage_left m' m _ delegations
    · intro p invocation_id rest hp
      obtain ⟨rfl, rfl, hrest⟩ := delegation_stage_eq hp
      exact ⟨hrest, hm, result, delegations, mem_append_right _ (mem_singleton_self _),
        succeeded_of_delegations hroute hrest, fun d hd => hd⟩
    · intro p d c hc
      cases hc
    · intro c hc
      cases hc

/-- What is left behind one delegation. -/
theorem RoutingLogInv.left_behind (h : RoutingLogInv config r)
    (hstage : r.stage = .delegating parent invocation_id (d :: rest))
    (hmessages : ∀ m ∈ r.messages, m ∈ r'.messages) (hlog : ∀ x ∈ r.log, x ∈ r'.log)
    (hstage' : r'.stage = delegation_stage parent invocation_id rest) :
    ∀ p id ds, r'.stage = .delegating p id ds → ds ≠ [] ∧ p ∈ r'.messages ∧
      ∃ result delegations, .invoked p result delegations ∈ r'.log ∧ result.status = .succeeded ∧
        ∀ e ∈ ds, e ∈ delegations := by
  intro p id ds hp
  rw [hstage'] at hp
  obtain ⟨rfl, rfl, hne⟩ := delegation_stage_eq hp
  obtain ⟨-, hparent, result, delegations, hinvoked, hsucceeded, hall⟩ :=
    h.delegating parent invocation_id (d :: rest) hstage
  exact ⟨hne, hmessages parent hparent, result, delegations, hlog _ hinvoked, hsucceeded,
    fun e he => hall e (mem_cons_of_mem d he)⟩

/-- One delegation of `parent` is settled by a record of it. -/
theorem settled_one (hstage : stage = .delegating parent invocation_id (d :: rest))
    (hhandled : ∀ m, x.handled m = if parent = m then [d] else [])
    (hproposed : ∀ m, x.proposed m = []) (m : CoordinationMessage) :
    x.handled m ++ (delegation_stage parent invocation_id rest).left m
      = stage.left m ++ x.proposed m := by
  rw [delegation_stage_left, hhandled, hproposed, hstage, append_nil]
  show _ = if parent = m then d :: rest else []
  by_cases hm : parent = m
  · rw [if_pos hm, if_pos hm, if_pos hm]
    rfl
  · rw [if_neg hm, if_neg hm, if_neg hm]
    rfl

/-- A delegation is refused. -/
theorem RoutingLogInv.refuse (h : RoutingLogInv config r)
    (hstage : r.stage = .delegating parent invocation_id (d :: rest)) (issue : CoordinationIssue) :
    RoutingLogInv config { r with
      issues := r.issues ++ [issue]
      log := r.log ++ [.refused parent d issue]
      stage := delegation_stage parent invocation_id rest } := by
  have hparent := (h.delegating _ _ _ hstage).2.1
  refine h.append (x := .refused parent d issue) (ne_nil_of_mem hparent) rfl
    (append_nil _).symm rfl (append_nil _).symm rfl ?_ ?_ ?_ ?_
  · exact settled_one hstage (fun m => rfl) fun m => rfl
  · exact h.left_behind hstage (fun m hm => hm) (fun x hx => mem_append_left _ hx) rfl
  · intro p d' m hm
    cases hm
  · intro m hm
    cases hm

/-- A delegation is accepted. -/
theorem RoutingLogInv.accept (h : RoutingLogInv config r)
    (hstage : r.stage = .delegating parent invocation_id (d :: rest)) {edge : CoordinationEdge}
    (hedge : config.graph.authorize parent.target_agent_id d.target_agent_id = .ok edge)
    (hhop : parent.hop_count + 1 ≤ config.graph.hop_limit) :
    RoutingLogInv config { r with
      messages := r.messages ++ [delegated_message parent invocation_id d message_id]
      log := r.log ++ [.delegated parent d (delegated_message parent invocation_id d message_id)]
      stage := delegation_stage parent invocation_id rest } := by
  obtain ⟨-, hparent, result, delegations, hinvoked, hsucceeded, hall⟩ :=
    h.delegating _ _ _ hstage
  have hne : r.messages ≠ [] := ne_nil_of_mem hparent
  refine h.append (x := .delegated parent d (delegated_message parent invocation_id d message_id))
    hne rfl rfl rfl (append_nil _).symm (append_nil _).symm ?_ ?_ ?_ ?_
  · exact settled_one hstage (fun m => rfl) fun m => rfl
  · exact h.left_behind hstage (fun m hm => mem_append_left _ hm)
      (fun x hx => mem_append_left _ hx) rfl
  · intro p d' m hm
    obtain ⟨rfl, rfl, rfl⟩ := RoutingRecord.delegated.inj hm
    obtain ⟨hmem, hsource, htarget⟩ := CoordinationGraph.authorize_ok hedge
    refine ⟨mem_append_left _ hparent, ?_, ⟨invocation_id, message_id, rfl⟩,
      ⟨edge, hmem, hsource, htarget⟩, hhop⟩
    exact ⟨result, delegations, mem_append_left _ hinvoked, hsucceeded,
      hall d mem_cons_self⟩
  · intro m hm
    obtain rfl := Option.some.inj hm
    refine .child (mem_append_right _ (mem_singleton_self _)) ?_
    refine (h.depth parent hparent).mono ?_ fun x hx => mem_append_left _ hx
    intro root hroot
    rw [head?_append_of_ne_nil _ hne]
    exact hroot

/-! ## The places of the messages -/

/-- The elements with a given key, when the keys differ. -/
theorem filter_key_eq {α β : Type} [DecidableEq β] (key : α → β) {l : List α}
    (hnodup : (l.map key).Nodup) {a : α} (ha : a ∈ l) :
    l.filter (fun x => key x = key a) = [a] := by
  induction l with
  | nil => cases ha
  | cons b l ih =>
    rw [map_cons, List.nodup_cons] at hnodup
    obtain ⟨hfirst, hrest⟩ := hnodup
    rcases mem_cons.mp ha with rfl | hmem
    · have hnone : l.filter (fun x => key x = key a) = [] := by
        rw [filter_eq_nil_iff]
        intro x hx hkey
        exact hfirst (of_decide_eq_true hkey ▸ mem_map_of_mem hx)
      rw [filter_cons_of_pos (by simp), hnone]
    · have hb : key b ≠ key a := fun heq => hfirst (heq ▸ mem_map_of_mem hmem)
      rw [filter_cons_of_neg (by simpa using hb)]
      exact ih hrest hmem

theorem RoutingRequest.mem_pending :
    m ∈ r.pending ↔ m ∈ r.messages ∧ m.message_id ∉ r.submitted := by
  rw [RoutingRequest.pending, mem_filter, decide_eq_true_eq]

/-- New messages wait. -/
theorem RoutingRequest.pending_append {new : List CoordinationMessage}
    (hmessages : r'.messages = r.messages ++ new) (hsubmitted : r'.submitted = r.submitted)
    (hnew : ∀ m ∈ new, m.message_id ∉ r.submitted) : r'.pending = r.pending ++ new := by
  rw [RoutingRequest.pending, hmessages, hsubmitted, filter_append]
  show r.pending ++ _ = _
  rw [filter_eq_self.mpr]
  exact fun m hm => decide_eq_true (hnew m hm)

/-- An accepted message waits to be submitted, is with a future or has its record.
Only an issue that cannot be built leaves one without. -/
structure FlowInv (config : RoutingConfig) (r : RoutingRequest) : Prop where
  unsent : r.stage.before_send = true →
    r.messages = [] ∧ r.submitted = [] ∧ r.futures = [] ∧ r.log = []
  ids_nodup : (r.messages.map CoordinationMessage.message_id).Nodup
  submitted : ∀ id ∈ r.submitted, ∃ m ∈ r.messages, m.message_id = id
  places : ∃ lost, r.messages.Perm
      (r.pending ++ r.futures.map InvocationFuture.message ++ r.answered ++ lost) ∧
    (lost = [] ∨ r.stage.ending = some (some .unusable_issue))
  held : ∀ m, r.stage.held = some m → m ∈ r.pending
  outcomes : ∀ f ∈ r.futures, ∀ o, f.stage.outcome = some o →
    ∃ invocation, o = invoke_message config.graph f.message invocation

theorem FlowInv.future_accepted (h : FlowInv config r) (hf : f ∈ r.futures) :
    f.message ∈ r.messages := by
  obtain ⟨lost, hperm, -⟩ := h.places
  refine hperm.mem_iff.mpr ?_
  have hmem : f.message ∈ r.futures.map InvocationFuture.message := mem_map_of_mem hf
  simp only [mem_append, hmem, or_true, true_or]

/-- A move of the stage. -/
theorem FlowInv.restage (h : FlowInv config r)
    (hbefore : stage.before_send = true → r.stage.before_send = true)
    (hending : r.stage.ending = none ∨ stage.ending = r.stage.ending)
    (hheld : ∀ m, stage.held = some m → m ∈ r.pending) :
    FlowInv config { r with stage := stage } where
  unsent hs := h.unsent (hbefore hs)
  ids_nodup := h.ids_nodup
  submitted := h.submitted
  places := by
    obtain ⟨lost, hperm, hlost⟩ := h.places
    refine ⟨lost, hperm, ?_⟩
    rcases hlost with hnil | hraised
    · exact Or.inl hnil
    · rcases hending with hnone | hsame
      · rw [hnone] at hraised
        cases hraised
      · exact Or.inr (hsame.trans hraised)
  held := hheld
  outcomes := h.outcomes

/-- The root is sent. -/
theorem FlowInv.send (h : FlowInv config r) (hbefore : r.stage.before_send = true)
    (root : CoordinationMessage) (hstage : stage.before_send = false) (hheld : stage.held = none) :
    FlowInv config { r with messages := [root], stage := stage } := by
  obtain ⟨-, hsubmitted, hfutures, hlog⟩ := h.unsent hbefore
  refine ⟨?_, nodup_singleton _, ?_, ⟨[], ?_, Or.inl rfl⟩, ?_, ?_⟩
  · intro hs
    change stage.before_send = true at hs
    rw [hstage] at hs
    cases hs
  · rw [hsubmitted]
    intro id hid
    cases hid
  · simp [RoutingRequest.pending, RoutingRequest.answered, hsubmitted, hfutures, hlog]
  · intro m hm
    change stage.held = some m at hm
    rw [hheld] at hm
    cases hm
  · rw [hfutures]
    intro f hf
    cases hf

/-- A submitted message does not wait any more. -/
theorem pending_submit (hids : (r.messages.map CoordinationMessage.message_id).Nodup)
    (hm : m ∈ r.pending) :
    r.pending.Perm
      (m :: r.messages.filter fun x => x.message_id ∉ r.submitted ++ [m.message_id]) := by
  have hnodup : (r.pending.map CoordinationMessage.message_id).Nodup :=
    hids.sublist (filter_sublist.map _)
  have hsame : r.pending.filter (fun x => x.message_id = m.message_id) = [m] :=
    filter_key_eq CoordinationMessage.message_id hnodup hm
  have hother : r.pending.filter (fun x => !decide (x.message_id = m.message_id))
      = r.messages.filter fun x => x.message_id ∉ r.submitted ++ [m.message_id] := by
    rw [RoutingRequest.pending, filter_filter]
    refine filter_congr fun x _ => ?_
    simp only [mem_append, mem_singleton, not_or, Bool.decide_and, decide_not]
    exact Bool.and_comm _ _
  have hsplit := filter_append_perm (fun x => decide (x.message_id = m.message_id)) r.pending
  rw [hsame, hother] at hsplit
  exact hsplit.symm

theorem FlowInv.submit {config : RoutingConfig} {r : RoutingRequest} (h : FlowInv config r)
    {m : CoordinationMessage} {ℓ : ℕ} (hstage : r.stage = .submitting m ℓ) :
    FlowInv config { r with
      futures := r.futures ++ [{ message := m, lease := ℓ }]
      submitted := r.submitted ++ [m.message_id]
      stage := .routing } := by
  have hm : m ∈ r.pending := h.held m (by rw [hstage]; rfl)
  obtain ⟨lost, hperm, hlost⟩ := h.places
  refine ⟨fun hs => (by cases hs), h.ids_nodup, ?_, ⟨lost, ?_, ?_⟩, fun m' hm' => (by cases hm'), ?_⟩
  · intro id hid
    rcases mem_append.mp hid with hold | hnew
    · exact h.submitted id hold
    · exact ⟨m, (RoutingRequest.mem_pending.mp hm).1, (mem_singleton.mp hnew).symm⟩
  · -- the message moves from the waiting ones to the futures
    refine hperm.trans ?_
    rw [map_append, map_singleton]
    refine Perm.append_right lost (Perm.append_right r.answered ?_)
    refine ((pending_submit h.ids_nodup hm).append_right _).trans ?_
    rw [← append_assoc]
    exact (perm_append_singleton m _).symm
  · rcases hlost with hnil | hraised
    · exact Or.inl hnil
    · rw [hstage] at hraised
      cases hraised
  · intro f hf o ho
    rcases mem_append.mp hf with hold | hnew
    · exact h.outcomes f hold o ho
    · rw [mem_singleton.mp hnew] at ho
      cases ho

/-- A future moves. -/
theorem FlowInv.future (h : FlowInv config r) (hf : r.futures[k]? = some f)
    {stage : FutureStage} (hmove : FutureMove config s k f a stage) :
    FlowInv config (r.set_future k f stage) := by
  have hmem : f ∈ r.futures := mem_of_getElem? hf
  have hmessages := RoutingRequest.map_set_future InvocationFuture.message hf stage rfl
  refine ⟨?_, h.ids_nodup, h.submitted, ?_, h.held, ?_⟩
  · intro hs
    have hnil := (h.unsent hs).2.2.1
    rw [hnil] at hmem
    cases hmem
  · rw [hmessages]
    exact h.places
  · intro g hg o ho
    rcases mem_or_eq_of_mem_set hg with hold | rfl
    · exact h.outcomes g hold o ho
    · rcases hmove with hstage | ⟨hstage, invocation⟩ | ⟨outcome, hstage, -⟩
      · cases ho
      · exact ⟨invocation, (Option.some.inj ho).symm⟩
      · exact h.outcomes f hmem o (by rw [hstage]; exact ho)

/-- A finished future is looked at: its message has its record, or no issue can be
built about it. -/
theorem FlowInv.process {config : RoutingConfig} {r : RoutingRequest} (h : FlowInv config r)
    (hstage : r.stage = .routing) {k : ℕ} {f : InvocationFuture} (hf : r.futures[k]? = some f)
    (outcome : InvocationOutcome) :
    FlowInv config
      (process_outcome { r with futures := r.futures.eraseIdx k } f.message outcome) := by
  obtain ⟨hk, hfk⟩ := List.getElem?_eq_some_iff.mp hf
  obtain ⟨lost, hperm, hlost⟩ := h.places
  have hnil : lost = [] := by
    rcases hlost with hnil | hraised
    · exact hnil
    · rw [hstage] at hraised
      cases hraised
  subst hnil
  have hfutures : (r.futures.map InvocationFuture.message).Perm
      (f.message :: (r.futures.eraseIdx k).map InvocationFuture.message) := by
    have hperm := (getElem_cons_eraseIdx_perm hk).map InvocationFuture.message
    rw [hfk] at hperm
    exact hperm.symm
  have houtcomes : ∀ g ∈ r.futures.eraseIdx k, ∀ o, g.stage.outcome = some o →
      ∃ invocation, o = invoke_message config.graph g.message invocation :=
    fun g hg => h.outcomes g ((eraseIdx_sublist r.futures k).subset hg)
  -- the message moves from the futures to the end
  have hplaces : r.messages.Perm (r.pending ++ (r.futures.eraseIdx k).map InvocationFuture.message
      ++ r.answered ++ [f.message]) := by
    rw [append_nil] at hperm
    refine hperm.trans ?_
    rw [append_assoc, append_assoc, append_assoc]
    refine Perm.append_left r.pending ?_
    refine (hfutures.append_right r.answered).trans ?_
    rw [← append_assoc]
    exact (perm_append_singleton f.message _).symm
  have hkept : ∀ log' : List RoutingRecord, log'.filterMap RoutingRecord.answered
        = r.answered ++ [f.message] →
      r.messages.Perm (r.pending ++ (r.futures.eraseIdx k).map InvocationFuture.message
        ++ log'.filterMap RoutingRecord.answered ++ []) := by
    intro log' hlog'
    rw [hlog', append_nil, ← append_assoc]
    exact hplaces
  have hroute : r.stage.before_send = false ∧ r.stage.held = none := by
    rw [hstage]
    exact ⟨rfl, rfl⟩
  unfold process_outcome
  split
  · rename_i issue _
    refine ⟨?_, h.ids_nodup, h.submitted, ⟨[], hkept _ ?_, Or.inl rfl⟩, h.held, houtcomes⟩
    · intro hs
      exact absurd (hs : r.stage.before_send = true) (by rw [hroute.1]; exact Bool.false_ne_true)
    · exact filterMap_append
  · refine ⟨fun hs => (by cases hs), h.ids_nodup, h.submitted,
      ⟨[f.message], hplaces, Or.inr rfl⟩, fun m hm => (by cases hm), houtcomes⟩
  · rename_i result delegations _
    obtain ⟨hheld, hending, hbefore⟩ :=
      delegation_stage_held f.message result.invocation_id delegations
    refine ⟨?_, h.ids_nodup, h.submitted, ⟨[], hkept _ ?_, Or.inl rfl⟩, ?_, houtcomes⟩
    · intro hs
      exact absurd (hbefore ▸ hs : false = true) Bool.false_ne_true
    · exact filterMap_append
    · intro m hm
      cases hheld.symm.trans hm

/-- One delegation is settled, and the message it causes waits. -/
theorem FlowInv.delegated (h : FlowInv config r)
    (hstage : r.stage = .delegating parent invocation_id (d :: rest))
    (hstage' : r'.stage = delegation_stage parent invocation_id rest)
    (new : List CoordinationMessage) (hmessages : r'.messages = r.messages ++ new)
    (hsubmitted : r'.submitted = r.submitted) (hfutures : r'.futures = r.futures)
    (hanswered : r'.answered = r.answered) (hnew : (new.map CoordinationMessage.message_id).Nodup)
    (hids : ∀ m ∈ new, ∀ m' ∈ r.messages, m'.message_id ≠ m.message_id) : FlowInv config r' := by
  obtain ⟨hheld, hending, hbefore⟩ := delegation_stage_held parent invocation_id rest
  obtain ⟨lost, hperm, hlost⟩ := h.places
  have hpending : r'.pending = r.pending ++ new := by
    refine RoutingRequest.pending_append hmessages hsubmitted fun m hm hmem => ?_
    obtain ⟨m', hm', hid⟩ := h.submitted _ hmem
    exact hids m hm m' hm' hid
  refine ⟨?_, ?_, ?_, ⟨lost, ?_, ?_⟩, ?_, ?_⟩
  · intro hs
    rw [hstage', hbefore] at hs
    cases hs
  · rw [hmessages, map_append, nodup_append]
    refine ⟨h.ids_nodup, hnew, ?_⟩
    intro a ha b hb
    obtain ⟨m', hm', rfl⟩ := mem_map.mp ha
    obtain ⟨m, hm, rfl⟩ := mem_map.mp hb
    exact hids m hm m' hm'
  · intro id hid
    rw [hsubmitted] at hid
    obtain ⟨m, hm, hmid⟩ := h.submitted id hid
    rw [hmessages]
    exact ⟨m, mem_append_left _ hm, hmid⟩
  · rw [hmessages, hpending, hfutures, hanswered]
    refine (hperm.append_right new).trans ?_
    simp only [append_assoc]
    refine Perm.append_left r.pending ?_
    have hback : r.futures.map InvocationFuture.message ++ (r.answered ++ (lost ++ new))
        = (r.futures.map InvocationFuture.message ++ (r.answered ++ lost)) ++ new := by
      simp only [append_assoc]
    rw [hback]
    exact perm_append_comm
  · rcases hlost with hnil | hraised
    · exact Or.inl hnil
    · rw [hstage] at hraised
      cases hraised
  · intro m hm
    rw [hstage', hheld] at hm
    cases hm
  · rw [hfutures]
    exact h.outcomes

/-! ## One request -/

/-- What holds of a request, with the ids the channel has accepted. -/
structure RequestDelivery (config : RoutingConfig) (ids : List String) (r : RoutingRequest) :
    Prop where
  log : RoutingLogInv config r
  flow : FlowInv config r
  sound : ∀ m ∈ r.messages, m.Consistent ∧ ∀ id ∈ m.traversed_message_ids, id ∈ ids
  sending : ∀ root, r.stage = .sending root → ∃ entry message_id,
    config.graph.entry_agent r.request.requested_agent_id = .ok entry ∧
      root = root_message r.request entry message_id
  checking : ∀ root, r.stage = .checking root → r.messages = [root] ∧ r.submitted = []
  complete : r.stage.ending = some none → r.pending = [] ∧ r.futures = []
  raised : ∀ e, r.stage.ending = some (some e) →
    r.messages = [] ∨ e = .foreign_lease ∨ e = .pool ∨ e = .unusable_issue ∨
      e.in_delegation = true

theorem RequestDelivery.mono {ids' : List String} (h : RequestDelivery config ids r)
    (hids : ∀ id ∈ ids, id ∈ ids') : RequestDelivery config ids' r :=
  { h with
    sound := fun m hm => ⟨(h.sound m hm).1, fun id hid => hids id ((h.sound m hm).2 id hid)⟩ }

theorem request_delivery_new (config : RoutingConfig) (ids : List String)
    (request : CoordinationRequest) (lease : Option ℕ) :
    RequestDelivery config ids { request := request, lease := lease } where
  log :=
    { invocations := rfl
      issues := rfl
      messages := rfl
      root := fun m hm => by cases hm
      settled := fun m => rfl
      delegating := fun p id rest hp => by cases hp
      delegated := fun p d m hm => by cases hm
      depth := fun m hm => by cases hm }
  flow :=
    { unsent := fun _ => ⟨rfl, rfl, rfl, rfl⟩
      ids_nodup := nodup_nil
      submitted := fun id hid => by cases hid
      places := ⟨[], Perm.refl _, Or.inl rfl⟩
      held := fun m hm => by cases hm
      outcomes := fun f hf => by cases hf }
  sound m hm := by cases hm
  sending root hroot := by cases hroot
  checking root hroot := by cases hroot
  complete hs := by cases hs
  raised e he := by cases he

/-- A move of the stage to one at which nothing is looked at. -/
theorem RequestDelivery.leave {config : RoutingConfig} {ids : List String} {r : RoutingRequest}
    (h : RequestDelivery config ids r) {stage : RequestStage}
    (hleft : ∀ m, stage.left m = r.stage.left m) (hstage : stage.delegates = false)
    (hbefore : stage.before_send = false) (hheld : stage.held = none)
    (hchecking : ∀ root, stage ≠ .checking root)
    (hending : r.stage.ending = none ∨ stage.ending = r.stage.ending)
    (hcomplete : stage.ending = some none → r.pending = [] ∧ r.futures = [])
    (hraised : ∀ e, stage.ending = some (some e) →
      r.messages = [] ∨ e = .foreign_lease ∨ e = .pool ∨ e = .unusable_issue ∨
        e.in_delegation = true) :
    RequestDelivery config ids { r with stage := stage } where
  log := h.log.restage rfl rfl rfl rfl rfl hleft (Or.inr hstage)
  flow := by
    refine h.flow.restage ?_ hending ?_
    · rw [hbefore]
      exact fun hc => absurd hc Bool.false_ne_true
    · rw [hheld]
      exact fun m hm => by cases hm
  sound := h.sound
  sending root hroot := by
    change stage = _ at hroot
    rw [hroot] at hbefore
    cases hbefore
  checking root hroot := absurd hroot (hchecking root)
  complete := hcomplete
  raised := hraised

section

variable (h : RequestDelivery config ids r)
include h

/-- A fresh id is none of those the messages of the request know. -/
theorem RequestDelivery.fresh
    (hids : ∀ m ∈ r.messages, m.message_id ∈ ids) (hnew : message_id ∉ ids)
    (hparent : parent ∈ r.messages) :
    message_id ∉ parent.message_id :: parent.traversed_message_ids := by
  rw [mem_cons, not_or]
  constructor
  · intro heq
    exact hnew (heq ▸ hids parent hparent)
  · exact fun hmem => hnew ((h.sound parent hparent).2 message_id hmem)

/-- The moves of the stage. -/
theorem RequestDelivery.restage (hmove : StageMove config s r a stage) :
    RequestDelivery config ids { r with stage := stage } := by
  rcases hmove with ⟨hstage, made, e, hplain⟩ | ⟨hstage, entry, message_id, made, hentry⟩ |
    ⟨root, hstage, answer, e⟩ | ⟨root, hstage, ℓ, -, l, -, -⟩ | ⟨m, ℓ, hstage⟩ | ⟨ℓ, hstage, -⟩ |
    ⟨parent, invocation_id, d, rest, hstage, made, answer, e, hraised⟩ |
    ⟨hstage, hfutures, hpending⟩ | ⟨raised, hstage⟩ | ⟨raised, hstage, -⟩
  · -- nothing is accepted before the root is sent
    have hnone := (h.flow.unsent (by rw [hstage]; rfl)).1
    refine h.leave (fun m => ?_) rfl rfl rfl (fun _ hc => by cases hc)
      (Or.inl (by rw [hstage]; rfl)) nofun fun _ _ => Or.inl hnone
    rw [hstage, RequestStage.left_nil rfl fun e' he => ?_]
    · rfl
    · rw [← Option.some.inj (Option.some.inj he)]
      exact hplain
  · refine ⟨h.log.restage rfl rfl rfl rfl rfl (fun m => by rw [hstage]; rfl) (Or.inr rfl), ?_,
      h.sound, ?_, (fun root hroot => by cases hroot), nofun, (fun e hc => by cases hc)⟩
    · exact h.flow.restage (fun _ => by rw [hstage]; rfl) (Or.inl (by rw [hstage]; rfl))
        fun m hm => by cases hm
    · intro root hroot
      rw [← RequestStage.sending.inj hroot]
      exact ⟨entry, message_id, hentry, rfl⟩
  · have hnone := (h.flow.unsent (by rw [hstage]; rfl)).1
    exact h.leave (fun m => by rw [hstage]; rfl) rfl rfl rfl (fun _ hc => by cases hc)
      (Or.inl (by rw [hstage]; rfl)) nofun fun _ _ => Or.inl hnone
  · refine h.leave (fun m => by rw [hstage]; rfl) rfl rfl rfl (fun _ hc => by cases hc)
      (Or.inl (by rw [hstage]; rfl)) nofun fun e he => ?_
    rw [← Option.some.inj (Option.some.inj he)]
    exact Or.inr (Or.inl rfl)
  · exact h.leave (fun m => by rw [hstage]; rfl) rfl rfl rfl (fun _ hc => by cases hc)
      (Or.inl (by rw [hstage]; rfl)) nofun fun e he => by cases he
  · refine h.leave (fun m => by rw [hstage]; rfl) rfl rfl rfl (fun _ hc => by cases hc)
      (Or.inl (by rw [hstage]; rfl)) nofun fun e he => ?_
    rw [← Option.some.inj (Option.some.inj he)]
    exact Or.inr (Or.inr (Or.inl rfl))
  · -- the delegations that are left are those of the error
    refine h.leave (fun m => by rw [hstage]; rfl) rfl rfl rfl (fun _ hc => by cases hc)
      (Or.inl (by rw [hstage]; rfl)) nofun fun e' he => ?_
    rw [← Option.some.inj (Option.some.inj he)]
    exact Or.inr (Or.inr (Or.inr (Or.inr rfl)))
  · exact h.leave (fun m => by rw [hstage]; rfl) rfl rfl rfl (fun _ hc => by cases hc)
      (Or.inl (by rw [hstage]; rfl)) (fun _ => ⟨hpending, hfutures⟩) fun e he => by cases he
  · have hending : r.stage.ending = some raised := by rw [hstage]; rfl
    exact h.leave (fun m => by rw [hstage]; rfl) rfl rfl rfl (fun _ hc => by cases hc)
      (Or.inr hending.symm) (fun hc => h.complete (hending.trans hc))
      fun e he => h.raised e (hending.trans he)
  · have hending : r.stage.ending = some raised := by rw [hstage]; rfl
    exact h.leave (fun m => by rw [hstage]; rfl) rfl rfl rfl (fun _ hc => by cases hc)
      (Or.inr hending.symm) (fun hc => h.complete (hending.trans hc))
      fun e he => h.raised e (hending.trans he)

/-- The root is sent. -/
theorem RequestDelivery.send {root : CoordinationMessage}
    (hstage : r.stage = .sending root) (ids' : List String) :
    RequestDelivery config ids' { r with
      messages := [root]
      stage := if r.lease = none then .routing else .checking root } := by
  obtain ⟨entry, message_id, hentry, rfl⟩ := h.sending root hstage
  have hbefore : r.stage.before_send = true := by rw [hstage]; rfl
  obtain ⟨-, hsubmitted, -, hlog⟩ := h.flow.unsent hbefore
  have hsound : ∀ m ∈ [root_message r.request entry message_id],
      m.Consistent ∧ ∀ id ∈ m.traversed_message_ids, id ∈ ids' := by
    intro m hm
    rw [mem_singleton.mp hm]
    exact ⟨root_message_consistent r.request entry message_id, fun id hid => by cases hid⟩
  by_cases hlease : r.lease = none
  · rw [if_pos hlease]
    refine ⟨h.log.send hlog hentry rfl rfl, h.flow.send hbefore _ rfl rfl, hsound, ?_, ?_, ?_, ?_⟩
    · exact fun _ hc => by cases hc
    · exact fun _ hc => by cases hc
    · exact nofun
    · exact fun _ hc => by cases hc
  · rw [if_neg hlease]
    refine ⟨h.log.send hlog hentry rfl rfl, h.flow.send hbefore _ rfl rfl, hsound, ?_, ?_, ?_, ?_⟩
    · exact fun _ hc => by cases hc
    · intro root hroot
      rw [← RequestStage.checking.inj hroot]
      exact ⟨rfl, hsubmitted⟩
    · exact nofun
    · exact fun _ hc => by cases hc

/-- A waiting message is taken. -/
theorem RequestDelivery.hold
    (hdelegates : r.stage.delegates = false) (hending : r.stage.ending = none)
    (hm : m ∈ r.pending) (ℓ : ℕ) :
    RequestDelivery config ids { r with stage := .submitting m ℓ } where
  log := by
    refine h.log.restage rfl rfl rfl rfl rfl (fun m' => ?_) (Or.inr rfl)
    rw [RequestStage.left_of_ending hdelegates, hending]
    rfl
  flow := by
    refine h.flow.restage nofun (Or.inl hending) ?_
    intro m' hm'
    rw [← Option.some.inj hm']
    exact hm
  sound := h.sound
  sending _ hc := by cases hc
  checking _ hc := by cases hc
  complete hc := by cases hc
  raised _ hc := by cases hc

end

/-- It is in the pool. -/
theorem RequestDelivery.submit {config : RoutingConfig} {ids : List String} {r : RoutingRequest}
    (h : RequestDelivery config ids r) {m : CoordinationMessage} {ℓ : ℕ}
    (hstage : r.stage = .submitting m ℓ) :
    RequestDelivery config ids { r with
      futures := r.futures ++ [{ message := m, lease := ℓ }]
      submitted := r.submitted ++ [m.message_id]
      stage := .routing } where
  log := h.log.restage rfl rfl rfl rfl rfl (fun m' => by rw [hstage]; rfl) (Or.inr rfl)
  flow := h.flow.submit hstage
  sound := h.sound
  sending _ hc := by cases hc
  checking _ hc := by cases hc
  complete hc := by cases hc
  raised _ hc := by cases hc

/-- A future moves. -/
theorem RequestDelivery.future (h : RequestDelivery config ids r) (hf : r.futures[k]? = some f)
    {stage : FutureStage} (hmove : FutureMove config s k f a stage) :
    RequestDelivery config ids (r.set_future k f stage) where
  log := h.log.restage rfl rfl rfl rfl rfl (fun _ => rfl) (Or.inl rfl)
  flow := h.flow.future hf hmove
  sound := h.sound
  sending := h.sending
  checking := h.checking
  complete hc := by
    have hmem := mem_of_getElem? hf
    rw [(h.complete hc).2] at hmem
    cases hmem
  raised := h.raised

/-- Where a request is behind a look at a finished future. -/
theorem process_outcome_stage (r : RoutingRequest) (m : CoordinationMessage)
    (outcome : InvocationOutcome) (hstage : r.stage = .routing) :
    (process_outcome r m outcome).stage = .exiting (some .unusable_issue) ∨
      ∃ invocation_id rest, (process_outcome r m outcome).stage
        = delegation_stage m invocation_id rest := by
  unfold process_outcome
  split
  · exact Or.inr ⟨"", [], hstage⟩
  · exact Or.inl rfl
  · exact Or.inr ⟨_, _, rfl⟩

theorem delegation_stage_plain_stage (parent : CoordinationMessage) (invocation_id : String)
    (rest : List DelegationProposal) :
    (∀ root, delegation_stage parent invocation_id rest ≠ .sending root) ∧
      ∀ root, delegation_stage parent invocation_id rest ≠ .checking root := by
  rcases rest with _ | ⟨d, rest⟩
  · exact ⟨fun _ hc => (by cases hc), fun _ hc => (by cases hc)⟩
  · exact ⟨fun _ hc => (by cases hc), fun _ hc => (by cases hc)⟩

/-- A finished future is looked at. -/
theorem RequestDelivery.process {config : RoutingConfig} {ids : List String} {r : RoutingRequest}
    (h : RequestDelivery config ids r) (hstage : r.stage = .routing) {k : ℕ} {f : InvocationFuture}
    (hf : r.futures[k]? = some f) {outcome : InvocationOutcome} (hdone : f.stage = .done outcome) :
    RequestDelivery config ids
      (process_outcome { r with futures := r.futures.eraseIdx k } f.message outcome) := by
  have hmem := mem_of_getElem? hf
  have haccepted := h.flow.future_accepted hmem
  obtain ⟨invocation, rfl⟩ := h.flow.outcomes f hmem outcome (by rw [hdone]; rfl)
  have hlog : RoutingLogInv config { r with futures := r.futures.eraseIdx k } :=
    h.log.restage rfl rfl rfl rfl rfl (fun _ => rfl) (Or.inl rfl)
  refine ⟨hlog.process hstage haccepted invocation, h.flow.process hstage hf _, ?_, ?_, ?_, ?_, ?_⟩
  · rw [(process_outcome_frame _ _ _).2.2.1]
    exact h.sound
  all_goals
    rcases process_outcome_stage { r with futures := r.futures.eraseIdx k } f.message
      (invoke_message config.graph f.message invocation) hstage with heq | ⟨id, rest, heq⟩
  · rw [heq]
    exact fun _ hc => by cases hc
  · rw [heq]
    exact fun root hc => absurd hc ((delegation_stage_plain_stage _ _ _).1 root)
  · rw [heq]
    exact fun _ hc => by cases hc
  · rw [heq]
    exact fun root hc => absurd hc ((delegation_stage_plain_stage _ _ _).2 root)
  · rw [heq]
    exact nofun
  · rw [heq, (delegation_stage_held _ _ _).2.1]
    exact nofun
  · rw [heq]
    intro e he
    rw [← Option.some.inj (Option.some.inj he)]
    exact Or.inr (Or.inr (Or.inr (Or.inl rfl)))
  · rw [heq, (delegation_stage_held _ _ _).2.1]
    exact fun _ hc => by cases hc

/-- Behind a delegation a request is at no other stage. -/
theorem RequestDelivery.delegated (hlog : RoutingLogInv config r) (hflow : FlowInv config r)
    (hsound : ∀ m ∈ r.messages, m.Consistent ∧ ∀ id ∈ m.traversed_message_ids, id ∈ ids)
    (hstage : r.stage = delegation_stage parent invocation_id rest) :
    RequestDelivery config ids r := by
  obtain ⟨-, hending, -⟩ := delegation_stage_held parent invocation_id rest
  obtain ⟨hsending, hchecking⟩ := delegation_stage_plain_stage parent invocation_id rest
  refine ⟨hlog, hflow, hsound, ?_, ?_, ?_, ?_⟩
  · rw [hstage]
    exact fun root hc => absurd hc (hsending root)
  · rw [hstage]
    exact fun root hc => absurd hc (hchecking root)
  · rw [hstage, hending]
    exact nofun
  · rw [hstage, hending]
    exact fun _ hc => by cases hc

/-- A delegation is refused. -/
theorem RequestDelivery.refuse (h : RequestDelivery config ids r)
    (hstage : r.stage = .delegating parent invocation_id (d :: rest)) (issue : CoordinationIssue) :
    RequestDelivery config ids { r with
      issues := r.issues ++ [issue]
      log := r.log ++ [.refused parent d issue]
      stage := delegation_stage parent invocation_id rest } := by
  refine .delegated (h.log.refuse hstage issue) ?_ h.sound rfl
  refine h.flow.delegated hstage rfl [] (append_nil _).symm rfl rfl ?_ nodup_nil ?_
  · rw [RoutingRequest.answered, filterMap_append]
    exact append_nil _
  · intro m hm
    cases hm

/-- A delegation is accepted. -/
theorem RequestDelivery.accept {channel channel' : MessageChannel}
    (h : RequestDelivery config channel.accepted_ids r)
    (hids : ∀ m ∈ r.messages, m.message_id ∈ channel.accepted_ids)
    (hstage : r.stage = .delegating parent invocation_id (d :: rest))
    {made : Option String} {answer : Option SinkError} {child : CoordinationMessage}
    (haccepted : delegate config.graph channel parent invocation_id d made answer
      = .accepted child channel') :
    RequestDelivery config channel'.accepted_ids { r with
      messages := r.messages ++ [child]
      log := r.log ++ [.delegated parent d child]
      stage := delegation_stage parent invocation_id rest } := by
  obtain ⟨⟨message_id, rfl⟩, hconsistent, ⟨edge, hedge⟩, hhop, hsend⟩ := delegate_accepted haccepted
  obtain ⟨hnew, -, rfl⟩ := MessageChannel.send_ok hsend
  have hparent := (h.log.delegating _ _ _ hstage).2.1
  refine .delegated (h.log.accept hstage hedge hhop) ?_ ?_ rfl
  · refine h.flow.delegated hstage rfl [delegated_message parent invocation_id d message_id] rfl rfl
      rfl ?_ (nodup_singleton _) ?_
    · rw [RoutingRequest.answered, filterMap_append]
      exact append_nil _
    · intro m hm m' hm' heq
      rw [mem_singleton.mp hm] at heq
      exact hnew (heq ▸ hids m' hm')
  · intro m hm
    rcases mem_append.mp hm with hold | hlast
    · obtain ⟨hm, hpath⟩ := h.sound m hold
      exact ⟨hm, fun id hid => mem_append_left _ (hpath id hid)⟩
    · rw [mem_singleton.mp hlast]
      refine ⟨hconsistent, fun id hid => mem_append_left _ ?_⟩
      -- the path to a child is the path to its parent and the parent
      rcases mem_append.mp hid with hpath | hself
      · exact (h.sound parent hparent).2 id hpath
      · rw [mem_singleton.mp hself]
        exact hids parent hparent

end MininetAi
