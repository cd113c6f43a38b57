/-
Every request comes to its end, with everything it accepted accounted for.

The loop of `_coordinate` is a worklist. A message on its way, and a delegation that
is left, has a rank: the hops that are left weigh more than the point it has reached,
so the messages that an invocation causes are all below it, however many they are.
The multiset of ranks goes down with every section of a request and of its
invocations. So no run does this work for ever. And as long as a request is not over
some such section can run: a lease that a message waits for is held by somebody who
can go on and close it.
-/
import Mathlib.Data.Fintype.EquivFin
import MininetAi.Coordination.RoutingQueue
import MininetAi.Lib.Descent

set_option autoImplicit false

namespace MininetAi

open List RoutingRequest

/-! ## Ranks -/

/-- The rank of a message with so many hops, at a point of its way. -/
def hop_rank (config : RoutingConfig) (hop_count point : ℕ) : ℕ :=
  8 * (config.graph.hop_limit + 1 - hop_count) + point

def FutureStage.rank : FutureStage → ℕ
  | .queued => 5
  | .running => 4
  | .exiting _ => 3
  | .done _ => 2

def RequestStage.rank (config : RoutingConfig) : RequestStage → ℕ
  | .called => 8 * (config.graph.hop_limit + 2) + 1
  | .sending _ => 8 * (config.graph.hop_limit + 2)
  | .checking _ => 6
  | .routing | .delegating _ _ _ => 5
  | .submitting _ _ => 4
  | .refused _ => 3
  | .exiting _ => 2
  | .closing _ => 1
  | .ended _ => 0

/-- The ranks of the delegations that are left. -/
def RequestStage.left_rank (config : RoutingConfig) : RequestStage → Multiset ℕ
  | .delegating p _ rest => Multiset.replicate rest.length (hop_rank config p.hop_count 0)
  | _ => 0

def RoutingRequest.waiting_rank (config : RoutingConfig) (r : RoutingRequest) : Multiset ℕ :=
  (r.pending.map fun m => hop_rank config m.hop_count 6 : List ℕ)

def InvocationFuture.rank (config : RoutingConfig) (f : InvocationFuture) : ℕ :=
  hop_rank config f.message.hop_count f.stage.rank

def RoutingRequest.futures_rank (config : RoutingConfig) (r : RoutingRequest) : Multiset ℕ :=
  (r.futures.map (InvocationFuture.rank config) : List ℕ)

/-- The rank of a request. -/
def RoutingRequest.rank (config : RoutingConfig) (r : RoutingRequest) : Multiset ℕ :=
  r.waiting_rank config + r.futures_rank config + r.stage.left_rank config +
    {r.stage.rank config}

def Lease.rank (l : Lease) : Multiset ℕ :=
  match l.stage with
  | .opened => {2}
  | .closing => {1}
  | .closed => 0

/-- The rank of the runtime. -/
def RoutingState.rank (config : RoutingConfig) (s : RoutingState) : Multiset ℕ :=
  (s.requests.map (RoutingRequest.rank config)).sum + (s.leases.map Lease.rank).sum

variable {stage : RequestStage}

theorem RequestStage.left_rank_zero (config : RoutingConfig)
    (h : stage.delegates = false) : stage.left_rank config = 0 := by
  cases stage with
  | delegating p invocation_id rest => cases h
  | _ => rfl

theorem delegation_stage_rank (config : RoutingConfig) (p : CoordinationMessage)
    (invocation_id : String) (rest : List DelegationProposal) :
    (delegation_stage p invocation_id rest).rank config = 5 ∧
      (delegation_stage p invocation_id rest).left_rank config
        = Multiset.replicate rest.length (hop_rank config p.hop_count 0) := by
  rcases rest with _ | ⟨d, rest⟩
  · exact ⟨rfl, rfl⟩
  · exact ⟨rfl, rfl⟩

variable {config : RoutingConfig} {r : RoutingRequest} {m : CoordinationMessage}
  {s s' : RoutingState} {i ℓ : ℕ} {e : RoutingEvent} {l : Lease} {rest : List DelegationProposal}
  {parent : CoordinationMessage} {invocation_id : String} {r' : RoutingRequest}

/-- A message that was accepted is within the hop limit. -/
theorem RoutingLogInv.hop_le (h : RoutingLogInv config r) (hm : m ∈ r.messages) :
    m.hop_count ≤ config.graph.hop_limit := by
  rw [h.messages, mem_append] at hm
  rcases hm with hroot | hchild
  · obtain ⟨entry, message_id, -, rfl⟩ := h.root m (Option.mem_toList.mp hroot)
    exact Nat.zero_le _
  · obtain ⟨x, hx, hchild⟩ := mem_filterMap.mp hchild
    cases x with
    | delegated p d child =>
      obtain rfl := Option.some.inj hchild
      exact (h.delegated p d child hx).hop_limit
    | _ => cases hchild

/-! ## What a section of a request does to its rank -/

section Descent

variable {config : RoutingConfig} {r : RoutingRequest}

/-- The stage goes down. -/
theorem RoutingRequest.rank_restage (hstage : stage.delegates = false)
    (hlt : stage.rank config < r.stage.rank config) :
    Multiset.IsDershowitzMannaLT
      (RoutingRequest.rank config { r with stage := stage }) (r.rank config) := by
  have hold : r.rank config = r.waiting_rank config + r.futures_rank config +
      (r.stage.left_rank config + {r.stage.rank config}) := add_assoc _ _ _
  have hnew : RoutingRequest.rank config { r with stage := stage }
      = r.waiting_rank config + r.futures_rank config + {stage.rank config} := by
    show r.waiting_rank config + r.futures_rank config + stage.left_rank config + _ = _
    rw [RequestStage.left_rank_zero config hstage, add_zero]
  have hmem : r.stage.rank config ∈ r.stage.left_rank config + {r.stage.rank config} :=
    Multiset.mem_add.mpr (Or.inr (Multiset.mem_singleton_self _))
  rw [hold, hnew]
  refine .replace _ hmem fun y hy => ⟨_, hmem, ?_⟩
  rw [Multiset.mem_singleton.mp hy]
  exact hlt

/-- A message that waits is taken. -/
theorem RoutingRequest.rank_hold (config : RoutingConfig) (hstage : r.stage.delegates = false)
    (m : CoordinationMessage) (ℓ : ℕ) :
    ∃ others, r.rank config = others + {r.stage.rank config} ∧
      RoutingRequest.rank config { r with stage := .submitting m ℓ } = others + {4} := by
  refine ⟨r.waiting_rank config + r.futures_rank config, ?_, ?_⟩
  · rw [RoutingRequest.rank, RequestStage.left_rank_zero config hstage, add_zero]
  · show r.waiting_rank config + r.futures_rank config + 0 + {4} = _
    rw [add_zero]

/-- The root is sent. -/
theorem RoutingRequest.rank_send (hflow : FlowInv config r) {root : CoordinationMessage}
    (hstage : r.stage = .sending root) (hhop : root.hop_count = 0) :
    Multiset.IsDershowitzMannaLT
      (RoutingRequest.rank config { r with
        messages := [root]
        stage := if r.lease = none then .routing else .checking root }) (r.rank config) := by
  obtain ⟨hmessages, hsubmitted, hfutures, -⟩ := hflow.unsent (by rw [hstage]; rfl)
  have hold : r.rank config = 0 + {8 * (config.graph.hop_limit + 2)} := by
    simp [RoutingRequest.rank, RoutingRequest.waiting_rank, RoutingRequest.futures_rank,
      pending, hmessages, hfutures, hstage, RequestStage.left_rank,
      RequestStage.rank]
  obtain ⟨c, hc, hnew⟩ : ∃ c, c ≤ 6 ∧ RoutingRequest.rank config { r with
        messages := [root]
        stage := if r.lease = none then .routing else .checking root }
      = 0 + ({hop_rank config 0 6} + {c}) := by
    by_cases hlease : r.lease = none
    · refine ⟨5, by omega, ?_⟩
      simp [RoutingRequest.rank, RoutingRequest.waiting_rank, RoutingRequest.futures_rank,
        pending, hsubmitted, hfutures, hlease, RequestStage.left_rank,
        RequestStage.rank, hhop]
    · refine ⟨6, by omega, ?_⟩
      simp [RoutingRequest.rank, RoutingRequest.waiting_rank, RoutingRequest.futures_rank,
        pending, hsubmitted, hfutures, hlease, RequestStage.left_rank,
        RequestStage.rank, hhop]
  rw [hold, hnew]
  refine .replace _ (Multiset.mem_singleton_self _) fun y hy => ⟨_, Multiset.mem_singleton_self _, ?_⟩
  rcases Multiset.mem_add.mp hy with hroot | hloop
  · rw [Multiset.mem_singleton.mp hroot, hop_rank]
    omega
  · rw [Multiset.mem_singleton.mp hloop]
    omega

/-- A message is submitted. -/
theorem RoutingRequest.rank_submit (hflow : FlowInv config r) {m : CoordinationMessage} {ℓ : ℕ}
    (hstage : r.stage = .submitting m ℓ) :
    Multiset.IsDershowitzMannaLT
      (RoutingRequest.rank config { r with
        futures := r.futures ++ [{ message := m, lease := ℓ }]
        submitted := r.submitted ++ [m.message_id]
        stage := .routing }) (r.rank config) := by
  have hm : m ∈ r.pending := hflow.held m (by rw [hstage]; rfl)
  obtain ⟨waiting, hwaiting⟩ : ∃ waiting : List CoordinationMessage,
      waiting = r.messages.filter fun x => x.message_id ∉ r.submitted ++ [m.message_id] :=
    ⟨_, rfl⟩
  have hperm : r.pending.Perm (m :: waiting) := hwaiting ▸ pending_submit hflow.ids_nodup hm
  have hrest : r.waiting_rank config = {hop_rank config m.hop_count 6} +
      ((waiting.map fun m => hop_rank config m.hop_count 6 : List ℕ) : Multiset ℕ) :=
    Multiset.coe_eq_coe.mpr (hperm.map _)
  have hold : r.rank config =
      (((waiting.map fun m => hop_rank config m.hop_count 6 : List ℕ) : Multiset ℕ) +
        r.futures_rank config) + ({hop_rank config m.hop_count 6} + {4}) := by
    rw [RoutingRequest.rank, hrest, hstage]
    show _ + _ + 0 + {4} = _
    abel
  have hfutures : RoutingRequest.futures_rank config { r with
      futures := r.futures ++ [{ message := m, lease := ℓ }]
      submitted := r.submitted ++ [m.message_id]
      stage := .routing } = r.futures_rank config + {hop_rank config m.hop_count 5} := by
    show ((map _ (r.futures ++ [_]) : List ℕ) : Multiset ℕ) = _
    rw [map_append, ← Multiset.coe_add]
    rfl
  have hnew : RoutingRequest.rank config { r with
      futures := r.futures ++ [{ message := m, lease := ℓ }]
      submitted := r.submitted ++ [m.message_id]
      stage := .routing } =
      (((waiting.map fun m => hop_rank config m.hop_count 6 : List ℕ) : Multiset ℕ) +
        r.futures_rank config) + ({hop_rank config m.hop_count 5} + {5}) := by
    rw [RoutingRequest.rank, hfutures, RoutingRequest.waiting_rank, pending,
      ← hwaiting]
    show _ + (_ + _) + 0 + {5} = _
    abel
  have hmem : hop_rank config m.hop_count 6 ∈
      ({hop_rank config m.hop_count 6} + {4} : Multiset ℕ) :=
    Multiset.mem_add.mpr (Or.inl (Multiset.mem_singleton_self _))
  rw [hold, hnew]
  refine .replace _ hmem fun y hy => ⟨_, hmem, ?_⟩
  rcases Multiset.mem_add.mp hy with hfuture | hloop
  · rw [Multiset.mem_singleton.mp hfuture, hop_rank, hop_rank]
    omega
  · rw [Multiset.mem_singleton.mp hloop, hop_rank]
    omega

variable {k : ℕ} {f : InvocationFuture}

/-- The futures without future `k`. -/
theorem RoutingRequest.futures_rank_erase (hf : r.futures[k]? = some f) :
    r.futures_rank config = ((((r.futures.eraseIdx k).map (InvocationFuture.rank config) :
      List ℕ) : Multiset ℕ)) + {f.rank config} := by
  obtain ⟨hk, rfl⟩ := List.getElem?_eq_some_iff.mp hf
  rw [add_comm]
  exact Multiset.coe_eq_coe.mpr
    ((getElem_cons_eraseIdx_perm hk).map (InvocationFuture.rank config)).symm

/-- A future moves. -/
theorem RoutingRequest.rank_future {s : RoutingState} (hf : r.futures[k]? = some f)
    {a : RequestEvent} {stage : FutureStage} (hmove : FutureMove config s k f a stage) :
    Multiset.IsDershowitzMannaLT ((r.set_future k f stage).rank config) (r.rank config) := by
  obtain ⟨hk, hfk⟩ := List.getElem?_eq_some_iff.mp hf
  have hpoint : stage.rank < f.stage.rank := by
    cases hmove with
    | start hstage =>
      rw [hstage]
      exact Nat.lt_succ_self 4
    | finish hstage invocation =>
      rw [hstage]
      exact Nat.lt_succ_self 3
    | settle outcome hstage =>
      rw [hstage]
      exact Nat.lt_succ_self 2
  have hnew : (r.set_future k f stage).futures_rank config =
      ((((r.futures.eraseIdx k).map (InvocationFuture.rank config) : List ℕ) : Multiset ℕ)) +
        {InvocationFuture.rank config { f with stage := stage }} := by
    rw [add_comm]
    exact Multiset.coe_eq_coe.mpr
      ((set_perm_cons_eraseIdx hk { f with stage := stage }).map
        (InvocationFuture.rank config))
  have hrank : ∀ q : RoutingRequest, q.rank config = (q.waiting_rank config +
      q.stage.left_rank config + {q.stage.rank config}) + q.futures_rank config := by
    intro q
    rw [RoutingRequest.rank]
    abel
  rw [hrank, hrank r, RoutingRequest.futures_rank_erase hf, hnew, ← add_assoc, ← add_assoc]
  refine .replace _ (Multiset.mem_singleton_self _) fun y hy =>
    ⟨_, Multiset.mem_singleton_self _, ?_⟩
  rw [Multiset.mem_singleton.mp hy, InvocationFuture.rank, InvocationFuture.rank, hop_rank, hop_rank]
  exact Nat.add_lt_add_left hpoint _

/-- A finished future is looked at. -/
theorem RoutingRequest.rank_process (hlog : RoutingLogInv config r) (hflow : FlowInv config r)
    (hstage : r.stage = .routing) (hf : r.futures[k]? = some f) {outcome : InvocationOutcome}
    (hdone : f.stage = .done outcome) :
    Multiset.IsDershowitzMannaLT
      ((process_outcome { r with futures := r.futures.eraseIdx k } f.message outcome).rank config)
      (r.rank config) := by
  have hhop := hlog.hop_le (hflow.future_accepted (mem_of_getElem? hf))
  obtain ⟨rest, hrest⟩ : ∃ rest : Multiset ℕ, rest = r.waiting_rank config +
      ((((r.futures.eraseIdx k).map (InvocationFuture.rank config) : List ℕ) : Multiset ℕ)) :=
    ⟨_, rfl⟩
  have hold : r.rank config = rest + ({f.rank config} + {5}) := by
    rw [RoutingRequest.rank, RoutingRequest.futures_rank_erase hf, hstage, hrest]
    show _ + (_ + _) + 0 + {5} = _
    abel
  have hmem : f.rank config ∈ ({f.rank config} + {5} : Multiset ℕ) :=
    Multiset.mem_add.mpr (Or.inl (Multiset.mem_singleton_self _))
  have hpoint : f.rank config = hop_rank config f.message.hop_count 2 := by
    rw [InvocationFuture.rank, hdone]
    rfl
  -- what is left of the message is below its finished future
  have hlower : ∀ new : Multiset ℕ, (∀ y ∈ new, y ≤ 5 ∨ y = hop_rank config f.message.hop_count 0) →
      Multiset.IsDershowitzMannaLT (rest + new) (r.rank config) := by
    intro new hnew
    rw [hold]
    refine .replace _ hmem fun y hy => ⟨_, hmem, ?_⟩
    rw [hpoint, hop_rank]
    rcases hnew y hy with hle | rfl
    · omega
    · rw [hop_rank]
      omega
  unfold process_outcome
  split
  · rename_i issue _
    have hnew : RoutingRequest.rank config { r with
        futures := r.futures.eraseIdx k
        issues := r.issues ++ [issue]
        log := r.log ++ [.failed f.message issue] } = rest + {5} := by
      rw [RoutingRequest.rank, hrest]
      simp only [hstage]
      show _ + _ + 0 + {5} = _
      rw [add_zero]
      rfl
    rw [hnew]
    exact hlower _ fun y hy => Or.inl (Multiset.mem_singleton.mp hy).le
  · have hnew : RoutingRequest.rank config { r with
        futures := r.futures.eraseIdx k
        stage := .exiting (some .unusable_issue) } = rest + {2} := by
      rw [RoutingRequest.rank, hrest]
      show _ + _ + 0 + {2} = _
      rw [add_zero]
      rfl
    rw [hnew]
    refine hlower _ fun y hy => Or.inl ?_
    rw [Multiset.mem_singleton.mp hy]
    omega
  · rename_i result delegations _
    obtain ⟨hrank, hleft⟩ :=
      delegation_stage_rank config f.message result.invocation_id delegations
    have hnew : RoutingRequest.rank config { r with
        futures := r.futures.eraseIdx k
        invocations := r.invocations ++ [(f.message, result)]
        log := r.log ++ [.invoked f.message result delegations]
        stage := delegation_stage f.message result.invocation_id delegations } = rest +
          (Multiset.replicate delegations.length (hop_rank config f.message.hop_count 0) + {5}) := by
      rw [RoutingRequest.rank, hrest]
      simp only [hrank, hleft]
      rw [← add_assoc]
      rfl
    rw [hnew]
    refine hlower _ fun y hy => ?_
    rcases Multiset.mem_add.mp hy with hdelegation | hloop
    · exact Or.inr (Multiset.eq_of_mem_replicate hdelegation)
    · exact Or.inl (Multiset.mem_singleton.mp hloop).le

/-- One delegation is settled: the message it causes, if any, has a hop more. -/
theorem RoutingRequest.rank_delegated {d : DelegationProposal}
    (hstage : r.stage = .delegating parent invocation_id (d :: rest))
    (hstage' : r'.stage = delegation_stage parent invocation_id rest)
    (hfutures : r'.futures = r.futures) (new : List CoordinationMessage)
    (hpending : r'.pending = r.pending ++ new)
    (hnew : ∀ m ∈ new, m.hop_count = parent.hop_count + 1 ∧
      parent.hop_count + 1 ≤ config.graph.hop_limit) :
    Multiset.IsDershowitzMannaLT (r'.rank config) (r.rank config) := by
  obtain ⟨hrank, hleft⟩ := delegation_stage_rank config parent invocation_id rest
  have hold : r.rank config = (r.waiting_rank config + r.futures_rank config +
      Multiset.replicate rest.length (hop_rank config parent.hop_count 0) + {5}) +
        {hop_rank config parent.hop_count 0} := by
    rw [RoutingRequest.rank, hstage]
    show _ + _ + Multiset.replicate (rest.length + 1) _ + {5} = _
    rw [Multiset.replicate_succ, ← Multiset.singleton_add]
    abel
  have hnew_rank : r'.rank config = (r.waiting_rank config + r.futures_rank config +
      Multiset.replicate rest.length (hop_rank config parent.hop_count 0) + {5}) +
        ((new.map fun m => hop_rank config m.hop_count 6 : List ℕ) : Multiset ℕ) := by
    rw [RoutingRequest.rank, hstage', hrank, hleft, RoutingRequest.waiting_rank, hpending,
      map_append, ← Multiset.coe_add, RoutingRequest.futures_rank, hfutures]
    show _ = (((r.pending.map _ : List ℕ) : Multiset ℕ) + ((r.futures.map _ : List ℕ) : Multiset ℕ)
      + _ + _) + _
    abel
  rw [hold, hnew_rank]
  refine .replace _ (Multiset.mem_singleton_self _) fun y hy =>
    ⟨_, Multiset.mem_singleton_self _, ?_⟩
  obtain ⟨m, hm, rfl⟩ := mem_map.mp (Multiset.mem_coe.mp hy)
  obtain ⟨hhop, hlimit⟩ := hnew m hm
  rw [hhop, hop_rank, hop_rank]
  omega

end Descent

/-! ## What a step does to the rank -/

variable {a : RequestEvent} {d : DelegationProposal}

theorem StageMove.rank_lt (h : StageMove config s r a stage) :
    stage.delegates = false ∧ stage.rank config < r.stage.rank config := by
  cases h
  all_goals
    refine ⟨rfl, ?_⟩
    simp only [RequestStage.rank, *]
    omega

/-- The section of a request lowers its rank; with a take a lease comes into being. -/
theorem RoutingStep.own (hids : IdentityInv s) (hinv : QueueInv config s)
    (hs : RoutingStep config s (.request i a) s') :
    ∃ (r r' : RoutingRequest) (new : List Lease), s.requests[i]? = some r ∧
      s'.requests = s.requests.set i r' ∧ s'.leases = s.leases ++ new ∧
      Multiset.IsDershowitzMannaLT (r'.rank config + (new.map Lease.rank).sum) (r.rank config) := by
  -- without a new lease
  have hplain : ∀ (r r' : RoutingRequest) (t : RoutingState), s.requests[i]? = some r →
      t.requests = s.requests.set i r' → t.leases = s.leases →
      Multiset.IsDershowitzMannaLT (r'.rank config) (r.rank config) →
      ∃ (r r' : RoutingRequest) (new : List Lease), s.requests[i]? = some r ∧
        t.requests = s.requests.set i r' ∧ t.leases = s.leases ++ new ∧
        Multiset.IsDershowitzMannaLT (r'.rank config + (new.map Lease.rank).sum)
          (r.rank config) := by
    intro r r' t hr hrequests hleases hlt
    refine ⟨r, r', [], hr, hrequests, hleases.trans (append_nil _).symm, ?_⟩
    rw [map_nil, sum_nil, add_zero]
    exact hlt
  cases hs with
  | flags _ hidle => cases hidle
  | restage _ r hr _ stage hmove sessions =>
    obtain ⟨hstage, hlt⟩ := hmove.rank_lt
    exact hplain r { r with stage := stage } _ hr rfl rfl (RoutingRequest.rank_restage hstage hlt)
  | send _ r hr root hstage raised channel hsend =>
    have hreq := hinv.requests i r hr
    obtain ⟨entry, message_id, -, rfl⟩ := hreq.sending root hstage
    exact hplain r _ _ hr rfl rfl (RoutingRequest.rank_send hreq.flow hstage rfl)
  | check _ r hr root hstage ℓ hlease l hl hown channel hchannel =>
    refine hplain r { r with stage := .submitting root ℓ } _ hr rfl rfl ?_
    refine RoutingRequest.rank_restage rfl ?_
    rw [hstage]
    exact Nat.lt_of_sub_eq_succ rfl
  | take _ r hr hstage m channel hreceive =>
    refine ⟨r, { r with stage := .submitting m s.leases.length },
      [{ agent_id := m.target_agent_id, owner := .request i }], hr, rfl, rfl, ?_⟩
    obtain ⟨others, hold, hnew⟩ :=
      RoutingRequest.rank_hold config (by rw [hstage]; rfl) m s.leases.length
    rw [hold, hnew, hstage, add_assoc]
    refine .replace _ (Multiset.mem_singleton_self _) fun y hy =>
      ⟨5, Multiset.mem_singleton_self _, ?_⟩
    -- the stage and the new lease
    rcases Multiset.mem_add.mp hy with hstage | hlease
    · rw [Multiset.mem_singleton.mp hstage]
      omega
    · simp only [map_cons, map_nil, sum_cons, sum_nil, add_zero,
        Lease.rank, Multiset.mem_singleton] at hlease
      omega
  | submit _ r hr m ℓ hstage =>
    exact hplain r _ _ hr rfl rfl
      (RoutingRequest.rank_submit (hinv.requests i r hr).flow hstage)
  | future _ r hr k f hf _ stage hmove =>
    exact hplain r _ _ hr rfl rfl (RoutingRequest.rank_future hf hmove)
  | process _ r hr hstage k f hf outcome hdone =>
    have hreq := hinv.requests i r hr
    exact hplain r _ _ hr rfl rfl
      (RoutingRequest.rank_process hreq.log hreq.flow hstage hf hdone)
  | refuse _ r hr parent invocation_id d rest hstage made raised issue hrefused =>
    refine hplain r _ _ hr rfl rfl ?_
    refine RoutingRequest.rank_delegated hstage rfl rfl [] (append_nil _).symm ?_
    exact fun m hm => by cases hm
  | accept _ r hr parent invocation_id d rest hstage made raised child channel haccepted =>
    obtain ⟨⟨message_id, rfl⟩, -, -, hhop, hsend⟩ := delegate_accepted haccepted
    refine hplain r _ _ hr rfl rfl ?_
    refine RoutingRequest.rank_delegated hstage rfl rfl
      [delegated_message parent invocation_id d message_id] ?_ ?_
    · refine pending_append rfl rfl fun m hm => ?_
      rw [mem_singleton.mp hm]
      exact hids.not_submitted hr (hinv.requests i r hr) (MessageChannel.send_ok hsend).1
    · intro m hm
      rw [mem_singleton.mp hm]
      exact ⟨rfl, hhop⟩

/-- A step that is not the request's leaves it alone. -/
theorem RoutingStep.others (hs : RoutingStep config s e s') (hi : i < s.requests.length)
    (he : ∀ a, e ≠ .request i a) : s'.requests[i]? = s.requests[i]? := by
  have hput : ∀ (j : ℕ) (r : RoutingRequest) (a : RequestEvent) (base : RoutingState),
      (∀ b, RoutingEvent.request j a ≠ .request i b) → base.requests = s.requests →
      (base.put j r).requests[i]? = s.requests[i]? := by
    intro j r a base hne hrequests
    show (base.requests.set j r)[i]? = _
    rw [hrequests, getElem?_set_ne]
    rintro rfl
    exact hne a rfl
  cases hs with
  | flags | reserve | mark | release => rfl
  | call | call_lease => exact getElem?_append_left hi
  | restage j r hr a => exact hput j _ a _ he rfl
  | send j => exact hput j _ _ _ he rfl
  | check j => exact hput j _ _ _ he rfl
  | take j => exact hput j _ _ _ he rfl
  | submit j => exact hput j _ _ _ he rfl
  | future j r hr k f hf a => exact hput j _ a _ he rfl
  | process j => exact hput j _ _ _ he rfl
  | refuse j => exact hput j _ _ _ he rfl
  | accept j => exact hput j _ _ _ he rfl

/-- Requests do not go away. -/
theorem RoutingStep.length_le (hs : RoutingStep config s e s') :
    s.requests.length ≤ s'.requests.length := by
  have hput : ∀ (j : ℕ) (r : RoutingRequest) (base : RoutingState),
      base.requests = s.requests → s.requests.length ≤ (base.put j r).requests.length := by
    intro j r base hrequests
    show _ ≤ (base.requests.set j r).length
    rw [length_set, hrequests]
  cases hs with
  | flags | reserve | mark | release => exact Nat.le_refl _
  | call | call_lease =>
    show _ ≤ (s.requests ++ [_]).length
    rw [length_append]
    exact Nat.le_add_right _ _
  | _ => exact hput _ _ _ rfl

/-- A lease that is being closed goes down. -/
theorem lease_rank_set {stage : LeaseStage} {leases : List Lease} (hl : leases[ℓ]? = some l)
    (hlt : Multiset.IsDershowitzMannaLT (Lease.rank { l with stage := stage }) l.rank)
    (others : Multiset ℕ) :
    Multiset.IsDershowitzMannaLT
      (others + ((leases.set ℓ { l with stage := stage }).map Lease.rank).sum)
      (others + (leases.map Lease.rank).sum) := by
  obtain ⟨rest, hold, hnew⟩ := List.sum_map_set Lease.rank hl
  rw [hold, hnew, ← add_assoc, ← add_assoc]
  exact hlt.add_left _

/-- Work lowers the rank of the runtime. -/
theorem RoutingStep.rank_lt (hids : IdentityInv s) (hinv : QueueInv config s)
    (hwork : s.work e = true) (hs : RoutingStep config s e s') :
    Multiset.IsDershowitzMannaLT (s'.rank config) (s.rank config) := by
  rcases e with agent_id | closer | ℓ | ⟨request, lease⟩ | _ | _ | ⟨i, a⟩
  · cases hwork
  · cases hs with
    | flags _ hidle =>
      rw [hidle] at hwork
      cases hwork
    | mark _ ℓ hcloser l hl hopen =>
      refine lease_rank_set hl ?_ _
      have hold : l.rank = 0 + {2} := by rw [Lease.rank, hopen, zero_add]
      have hnew : Lease.rank { l with stage := .closing } = 0 + {1} := (zero_add _).symm
      rw [hold, hnew]
      refine .replace _ (Multiset.mem_singleton_self _) fun y hy =>
        ⟨2, Multiset.mem_singleton_self _, ?_⟩
      rw [Multiset.mem_singleton.mp hy]
      omega
  · cases hs with
    | flags _ hidle => cases hidle
    | release _ l hl hclosing =>
      refine lease_rank_set hl ?_ _
      have hold : l.rank = 0 + {1} := by rw [Lease.rank, hclosing, zero_add]
      have hnew : Lease.rank { l with stage := .closed } = 0 + 0 := (zero_add _).symm
      rw [hold, hnew]
      exact .replace _ (Multiset.mem_singleton_self _) fun y hy => absurd hy (Multiset.notMem_zero y)
  · cases hwork
  · cases hwork
  · cases hwork
  · obtain ⟨r, r', new, hr, hrequests, hleases, hlt⟩ := hs.own hids hinv
    obtain ⟨others, hold, hnew⟩ := List.sum_map_set (RoutingRequest.rank config) hr
    have hrank : s.rank config = (others + (s.leases.map Lease.rank).sum) + r.rank config := by
      rw [RoutingState.rank, hold]
      abel
    have hrank' : s'.rank config = (others + (s.leases.map Lease.rank).sum) +
        (r'.rank config + (new.map Lease.rank).sum) := by
      rw [RoutingState.rank, hrequests, hleases, hnew, map_append, sum_append]
      abel
    rw [hrank, hrank']
    exact hlt.add_left _

/-! ## Runs -/

/-- Work comes to an end. -/
theorem work_ends (run : (routing_system config).EndlessRun) :
    ∃ n, (run.state n).work (run.event n) = false := by
  by_contra hall
  push Not at hall
  have hwork : ∀ n, (run.state n).work (run.event n) = true := fun n => by simpa using hall n
  obtain ⟨N, hN⟩ := run.eventually_idle Multiset.wellFounded_isDershowitzMannaLT
    (RoutingState.rank config) (fun s e => s.work e = true)
    (fun n hn => RoutingStep.rank_lt (identity_inv (run.reachable n)) (queue_inv (run.reachable n))
      hn (routing_step (run.step n)))
    (fun n hn => absurd (hwork n) hn)
  exact hN N (Nat.le_refl N) (hwork N)

/-- Whatever else goes on, a request has finitely many sections. -/
theorem request_ends (run : (routing_system config).EndlessRun)
    (hi : i < (run.state 0).requests.length) :
    ∃ N, ∀ n, N ≤ n → ∀ a, run.event n ≠ .request i a := by
  have hlength : ∀ n, i < (run.state n).requests.length := by
    intro n
    induction n with
    | zero => exact hi
    | succ n ih => exact Nat.lt_of_lt_of_le ih (routing_step (run.step n)).length_le
  obtain ⟨rank, hrank⟩ : ∃ rank : RoutingState → Multiset ℕ,
      ∀ s, rank s = (s.requests[i]?).elim 0 (RoutingRequest.rank config) := ⟨_, fun _ => rfl⟩
  have hwork : ∀ n, (∃ a, run.event n = .request i a) →
      Multiset.IsDershowitzMannaLT (rank (run.state (n + 1))) (rank (run.state n)) := by
    rintro n ⟨a, ha⟩
    have hstep := routing_step (run.step n)
    rw [ha] at hstep
    obtain ⟨r, r', new, hr, hrequests, -, hlt⟩ :=
      hstep.own (identity_inv (run.reachable n)) (queue_inv (run.reachable n))
    have hr' : (run.state (n + 1)).requests[i]? = some r' := by
      rw [hrequests, getElem?_set_self (hlength n)]
    rw [hrank, hrank, hr, hr']
    exact hlt.of_add
  have hidle : ∀ n, ¬ (∃ a, run.event n = .request i a) →
      rank (run.state (n + 1)) = rank (run.state n) := by
    intro n hn
    rw [hrank, hrank, (routing_step (run.step n)).others (hlength n) fun a ha => hn ⟨a, ha⟩]
  obtain ⟨N, hN⟩ := run.eventually_idle Multiset.wellFounded_isDershowitzMannaLT rank
    (fun _ e => ∃ a, e = .request i a) hwork hidle
  exact ⟨N, fun n hn a ha => hN n hn ⟨a, ha⟩⟩

/-! ## The lease a request was passed -/

/-- Who has the lease that was passed, unless it is closed. -/
inductive EntryUse (s : RoutingState) (r : RoutingRequest) (ℓ : ℕ) : Prop
  | closed (h : s.is_closed ℓ = true)
  | unused (h : r.stage.before_use = true)
  | ending (h : r.stage.ending ≠ none)
  | taken (h : ℓ ∈ r.taken)

/-- Between the look at it and the end of the request the root uses it. -/
structure EntryInv (s : RoutingState) : Prop where
  used : ∀ (i : ℕ) (r : RoutingRequest) (ℓ : ℕ), s.requests[i]? = some r → r.lease = some ℓ →
    EntryUse s r ℓ
  checked : ∀ (i : ℕ) (r : RoutingRequest) (root : CoordinationMessage),
    s.requests[i]? = some r → r.stage = .checking root → r.lease ≠ none

/-- While delegations are routed the futures alone have leases. -/
theorem EntryUse.delegated (h : EntryUse s r ℓ)
    (hstage : r.stage = .delegating parent invocation_id (d :: rest))
    (hfutures : r'.futures = r.futures) : EntryUse s r' ℓ := by
  rcases h with hc | hb | he | htaken
  · exact .closed hc
  · rw [hstage] at hb
    cases hb
  · rw [hstage] at he
    exact absurd rfl he
  · refine .taken (mem_append_right _ ?_)
    rw [RoutingRequest.taken, hstage] at htaken
    rw [hfutures]
    exact htaken

/-- What is released stays released. -/
theorem RoutingStep.releases_grow (hs : RoutingStep config s e s') :
    ∀ ℓ ∈ s.releases, ℓ ∈ s'.releases := by
  cases hs with
  | release => exact fun ℓ hℓ => mem_append_left _ hℓ
  | _ => exact fun ℓ hℓ => hℓ

theorem RoutingStep.closed (hinv : LeasesInv config s) (hinv' : LeasesInv config s')
    (hs : RoutingStep config s e s') (hclosed : s.is_closed ℓ = true) : s'.is_closed ℓ = true :=
  (hinv'.budget.released_iff ℓ).mp (hs.releases_grow ℓ ((hinv.budget.released_iff ℓ).mpr hclosed))

theorem entry_inv_step (hleases : LeasesInv config s) (hleases' : LeasesInv config s')
    (h : EntryInv s) (hs : RoutingStep config s e s') : EntryInv s' := by
  have hclosed : ∀ ℓ, s.is_closed ℓ = true → s'.is_closed ℓ = true :=
    fun ℓ => hs.closed hleases hleases'
  have hmono : ∀ (t : RoutingState) (q : RoutingRequest) (ℓ : ℕ), t.is_closed = s'.is_closed →
      EntryUse s q ℓ → EntryUse t q ℓ := by
    intro t q ℓ ht huse
    rcases huse with hc | hb | he | htaken
    · exact .closed (by rw [ht]; exact hclosed ℓ hc)
    · exact .unused hb
    · exact .ending he
    · exact .taken htaken
  -- the rule for a step of request `i`
  have hput : ∀ (t : RoutingState) (i : ℕ) (r r' : RoutingRequest), t.is_closed = s'.is_closed →
      s.requests[i]? = some r → t.requests = s.requests.set i r' → r'.lease = r.lease →
      (∀ ℓ, r.lease = some ℓ → EntryUse s r ℓ → EntryUse s r' ℓ) →
      (∀ root, r'.stage = .checking root → r.lease ≠ none) → EntryInv t := by
    intro t i r r' ht hr hrequests hlease hused hchecked
    have hcases : ∀ (j : ℕ) (q : RoutingRequest), t.requests[j]? = some q →
        j = i ∧ q = r' ∨ s.requests[j]? = some q := by
      intro j q hq
      rw [hrequests] at hq
      exact (getElem?_set_cases hq).imp_right And.right
    refine ⟨fun j q ℓ hq hℓ => ?_, fun j q root hq hroot => ?_⟩
    · rcases hcases j q hq with ⟨rfl, rfl⟩ | hold
      · rw [hlease] at hℓ
        exact hmono t q ℓ ht (hused ℓ hℓ (h.used j r ℓ hr hℓ))
      · exact hmono t q ℓ ht (h.used j q ℓ hold hℓ)
    · rcases hcases j q hq with ⟨rfl, rfl⟩ | hold
      · rw [hlease]
        exact hchecked root hroot
      · exact h.checked j q root hold hroot
  have hsame : s'.requests = s.requests → EntryInv s' := by
    intro hrequests
    refine ⟨fun j q ℓ hq hℓ => ?_, fun j q root hq hroot => ?_⟩
    · rw [hrequests] at hq
      exact hmono s' q ℓ rfl (h.used j q ℓ hq hℓ)
    · rw [hrequests] at hq
      exact h.checked j q root hq hroot
  have hcall : ∀ (request : CoordinationRequest) (lease : Option ℕ),
      s'.requests = s.requests ++ [{ request := request, lease := lease }] → EntryInv s' := by
    intro request lease hrequests
    have hcases : ∀ (j : ℕ) (q : RoutingRequest), s'.requests[j]? = some q →
        s.requests[j]? = some q ∨ q = { request := request, lease := lease } := by
      intro j q hq
      rw [hrequests] at hq
      exact (getElem?_concat_cases hq).imp_right And.right
    refine ⟨fun j q ℓ hq hℓ => ?_, fun j q root hq hroot => ?_⟩
    · rcases hcases j q hq with hold | rfl
      · exact hmono s' q ℓ rfl (h.used j q ℓ hold hℓ)
      · exact .unused rfl
    · rcases hcases j q hq with hold | rfl
      · exact h.checked j q root hold hroot
      · cases hroot
  cases hs with
  | flags | reserve | mark | release => exact hsame rfl
  | call => exact hcall _ _ rfl
  | call_lease => exact hcall _ _ rfl
  | restage i r hr a stage hmove sessions =>
    refine hput _ i r { r with stage := stage } rfl hr rfl rfl ?_ ?_
    · intro ℓ hℓ hold
      cases hmove with
      | enter => exact .unused rfl
      | submit_refused m ℓ' hstage =>
        -- the lease is held until it is closed
        rcases hold with hc | hb | he | htaken
        · exact .closed hc
        · rw [hstage] at hb
          cases hb
        · rw [hstage] at he
          exact absurd rfl he
        · refine .taken ?_
          simpa [RoutingRequest.taken, hstage, RequestStage.lease] using htaken
      | _ => exact .ending (Option.some_ne_none _)
    · intro root hroot
      cases hmove <;> cases hroot
  | send i r hr root hstage channel hsend =>
    refine hput _ i r _ rfl hr rfl rfl ?_ ?_
    · intro ℓ hℓ _
      refine .unused ?_
      show (if r.lease = none then RequestStage.routing else .checking root).before_use = true
      rw [if_neg (by rw [hℓ]; exact Option.some_ne_none ℓ)]
      rfl
    · intro root' hroot
      by_contra hnone
      dsimp only at hroot
      rw [if_pos hnone] at hroot
      cases hroot
  | check i r hr root hstage ℓ hlease l hl hown channel hchannel =>
    refine hput _ i r { r with stage := .submitting root ℓ } rfl hr rfl rfl ?_
      fun _ hroot => by cases hroot
    intro ℓ' hℓ' _
    obtain rfl := Option.some.inj (hlease.symm.trans hℓ')
    exact .taken (mem_append_left _ (mem_singleton_self ℓ))
  | take i r hr hstage m channel hreceive =>
    refine hput _ i r { r with stage := .submitting m s.leases.length } rfl hr rfl rfl ?_
      fun _ hroot => by cases hroot
    intro ℓ' hℓ' hold
    rcases hold with hc | hb | he | htaken
    · exact .closed hc
    · rw [hstage] at hb
      cases hb
    · rw [hstage] at he
      exact absurd rfl he
    · refine .taken (mem_append_right _ ?_)
      rw [RoutingRequest.taken, hstage] at htaken
      exact htaken
  | submit i r hr m ℓ hstage =>
    refine hput _ i r _ rfl hr rfl rfl ?_ fun _ hroot => by cases hroot
    intro ℓ' hℓ' hold
    rcases hold with hc | hb | he | htaken
    · exact .closed hc
    · rw [hstage] at hb
      cases hb
    · rw [hstage] at he
      exact absurd rfl he
    · refine .taken ?_
      simp only [RoutingRequest.taken, hstage, RequestStage.lease, Option.toList_some,
        singleton_append, mem_cons] at htaken
      simp only [RoutingRequest.taken, RequestStage.lease, Option.toList_none, nil_append,
        map_append, map_singleton, mem_append, mem_singleton]
      exact htaken.symm
  | future i r hr k f hf a stage hmove =>
    refine hput _ i r (r.set_future k f stage) rfl hr rfl rfl ?_
      fun root hroot => h.checked i r root hr hroot
    intro ℓ' hℓ' hold
    rcases hold with hc | hb | he | htaken
    · exact .closed hc
    · exact .unused hb
    · exact .ending he
    · refine .taken ?_
      rw [taken_set_future hf]
      exact htaken
  | process i r hr hstage k f hf outcome hdone =>
    obtain ⟨hlease, hfutures, -, -⟩ :=
      process_outcome_frame { r with futures := r.futures.eraseIdx k } f.message outcome
    refine hput _ i r _ rfl hr rfl hlease ?_ ?_
    · intro ℓ' hℓ' hold
      rcases hold with hc | hb | he | htaken
      · exact .closed hc
      · rw [hstage] at hb
        cases hb
      · rw [hstage] at he
        exact absurd rfl he
      · rw [RoutingRequest.taken, hstage] at htaken
        obtain ⟨g, hg, rfl⟩ := mem_map.mp htaken
        obtain ⟨j, hj⟩ := getElem?_of_mem hg
        by_cases hjk : j = k
        · -- a finished future has closed its lease
          subst hjk
          obtain rfl := Option.some.inj (hf.symm.trans hj)
          exact .closed ((hleases.requests i r hr).done_closed f hg (by rw [hdone]; rfl))
        · refine .taken (mem_append_right _ ?_)
          rw [hfutures]
          exact mem_map_of_mem (mem_eraseIdx_iff_getElem?.mpr ⟨j, hjk, hj⟩)
    · intro root hroot
      rcases process_outcome_stage { r with futures := r.futures.eraseIdx k } f.message outcome
        hstage with heq | ⟨id, rest, heq⟩
      · rw [heq] at hroot
        cases hroot
      · rw [heq] at hroot
        exact absurd hroot ((delegation_stage_plain_stage _ _ _).2 root)
  | refuse i r hr parent invocation_id d rest hstage made raised issue hrefused =>
    refine hput _ i r _ rfl hr rfl rfl (fun ℓ' hℓ' hold => ?_) fun root hroot =>
      absurd hroot ((delegation_stage_plain_stage _ _ _).2 root)
    exact hold.delegated hstage rfl
  | accept i r hr parent invocation_id d rest hstage made raised child channel haccepted =>
    refine hput _ i r _ rfl hr rfl rfl (fun ℓ' hℓ' hold => ?_) fun root hroot =>
      absurd hroot ((delegation_stage_plain_stage _ _ _).2 root)
    exact hold.delegated hstage rfl

theorem entry_inv (h : (routing_system config).Reachable s) : EntryInv s := by
  refine h.invariant ?_ fun s e s' hreach hinv hs =>
    entry_inv_step (leases_inv hreach) (leases_inv (.step hreach hs)) hinv (routing_step hs)
  rintro s rfl
  refine ⟨?_, ?_⟩
  · intro i r ℓ hr
    cases hr
  · intro i r root hr
    cases hr

/-! ## Progress -/

/-- The id is fresh and not empty. -/
def fresh_id (s : RoutingState) (message_id : String) : Bool :=
  message_id ≠ "" ∧ message_id ∉ s.channel.accepted_ids

/-- Messages are built, under fresh ids that are not empty, and the sink does not fail. -/
def RoutingState.steady (s : RoutingState) : RoutingEvent → Bool
  | .request _ (.enter made) => made.any (fresh_id s)
  | .request _ (.send_root raised) => raised.isNone
  | .request _ (.delegate made raised) => made.any (fresh_id s) && raised.isNone
  | _ => true

/-- Some work can be done. -/
def CanWork (config : RoutingConfig) (s : RoutingState) : Prop :=
  ∃ e s', (routing_system config).step s e = some s' ∧ s.work e = true ∧ s.steady e = true

theorem exists_fresh (s : RoutingState) : ∃ message_id, fresh_id s message_id = true := by
  obtain ⟨message_id, hnew⟩ :=
    Infinite.exists_notMem_finset ("" :: s.channel.accepted_ids).toFinset
  rw [mem_toFinset, mem_cons, not_or] at hnew
  exact ⟨message_id, by simpa [fresh_id] using hnew⟩

/-- A section of a request that can run. -/
theorem can_work_request (hr : s.requests[i]? = some r) (a : RequestEvent)
    (ha : (request_section config s i r a).isSome = true)
    (hsteady : s.steady (.request i a) = true) : CanWork config s := by
  obtain ⟨s', hs'⟩ := Option.isSome_iff_exists.mp ha
  refine ⟨.request i a, s', ?_, rfl, hsteady⟩
  simp only [routing_system, hr]
  exact hs'

/-- Whoever is about to close a lease that is not closed can, or its flag is set and it
can be released. -/
theorem can_work_close {closer : Closer} (hcloser : closer_lease s closer = some ℓ)
    (hl : s.leases[ℓ]? = some l) (hopen : s.is_closed ℓ ≠ true) : CanWork config s := by
  cases hstage : l.stage with
  | opened =>
    refine ⟨.close closer, s.mark ℓ l, ?_, ?_⟩
    · simp [routing_system, hcloser, hl, hstage]
    · simp [RoutingState.work, RoutingState.steady, hcloser, hl, hstage]
  | closing =>
    refine ⟨.release ℓ, s.release ℓ l, ?_, rfl, rfl⟩
    simp [routing_system, hl, hstage]
  | closed =>
    refine absurd ?_ hopen
    simp [RoutingState.is_closed, hl, hstage]

/-- A future that is not done goes on. -/
theorem can_work_future (hinv : LeasesInv config s) (hr : s.requests[i]? = some r)
    {f : InvocationFuture} (hf : f ∈ r.futures) (hdone : f.stage.is_done = false) :
    CanWork config s := by
  obtain ⟨k, hk⟩ := getElem?_of_mem hf
  cases hstage : f.stage with
  | queued => exact can_work_request hr (.start k) (by simp [request_section, hk, hstage]) rfl
  | running =>
    exact can_work_request hr (.finish k (.raises { message := none, type_name := "" }))
      (by simp [request_section, hk, hstage]) rfl
  | exiting outcome =>
    by_cases hclosed : s.is_closed f.lease = true
    · exact can_work_request hr (.settle k) (by simp [request_section, hk, hstage, hclosed]) rfl
    · obtain ⟨l, hl, -⟩ := (hinv.requests i r hr).future_agent f hf
      have hcloser : closer_lease s (.future i k) = some f.lease := by
        simp [closer_lease, hr, hk, hstage]
      exact can_work_close hcloser hl hclosed
  | done outcome =>
    rw [hstage] at hdone
    cases hdone

/-- Out of its loop, a request waits for nothing but the release of its own lease. -/
theorem can_work_outside (h : (routing_system config).Reachable s) (hr : s.requests[i]? = some r)
    (hloop : r.stage ≠ .routing) (hover : r.stage.is_over = false) : CanWork config s := by
  have hreq := (leases_inv h).requests i r hr
  obtain ⟨message_id, hfresh⟩ := exists_fresh s
  cases hstage : r.stage with
  | called =>
    refine can_work_request hr (.enter (some message_id)) ?_ hfresh
    simp only [request_section, hstage]
    split
    · rfl
    · split
      · rfl
      · split <;> rfl
  | sending root =>
    refine can_work_request hr (.send_root none) ?_ rfl
    simp only [request_section, hstage]
    split <;> rfl
  | checking root =>
    obtain ⟨ℓ, hℓ⟩ := Option.ne_none_iff_exists'.mp ((entry_inv h).checked i r root hr hstage)
    obtain ⟨l, hl, -⟩ := hreq.owned ℓ (Or.inr hℓ)
    refine can_work_request hr .check_lease ?_ rfl
    simp only [request_section, hstage, hℓ, hl]
    split <;> rfl
  | routing => exact absurd hstage hloop
  | submitting m ℓ => exact can_work_request hr (.submit true) (by simp [request_section, hstage]) rfl
  | refused ℓ =>
    by_cases hclosed : s.is_closed ℓ = true
    · exact can_work_request hr .settle_refused (by simp [request_section, hstage, hclosed]) rfl
    · have htaken : ℓ ∈ r.taken := by
        rw [RoutingRequest.taken, hstage]
        exact mem_append_left _ (mem_singleton_self ℓ)
      obtain ⟨l, hl, -⟩ := hreq.owned ℓ (Or.inl htaken)
      have hcloser : closer_lease s (.refused i) = some ℓ := by simp [closer_lease, hr, hstage]
      exact can_work_close hcloser hl hclosed
  | delegating parent invocation_id rest =>
    rcases rest with _ | ⟨d, rest⟩
    · exact absurd rfl (((queue_inv h).requests i r hr).log.delegating _ _ _ hstage).1
    · refine can_work_request hr (.delegate (some message_id) none) ?_ (by simpa [RoutingState.steady])
      simp only [request_section, hstage]
      split <;> rfl
  | exiting raised => exact can_work_request hr .exit_session (by simp [request_section, hstage]) rfl
  | closing raised =>
    by_cases hclosed : r.lease.all s.is_closed = true
    · exact can_work_request hr .finish_call (by simp [request_section, hstage, hclosed]) rfl
    · obtain ⟨ℓ, hℓ, hopen⟩ : ∃ ℓ, r.lease = some ℓ ∧ s.is_closed ℓ ≠ true := by
        rcases hlease : r.lease with _ | ℓ
        · rw [hlease] at hclosed
          exact absurd rfl hclosed
        · rw [hlease] at hclosed
          exact ⟨ℓ, rfl, hclosed⟩
      obtain ⟨l, hl, -⟩ := hreq.owned ℓ (Or.inr hℓ)
      have hcloser : closer_lease s (.entry i) = some ℓ := by
        simp [closer_lease, hr, hstage, hℓ]
      exact can_work_close hcloser hl hopen
  | ended raised =>
    rw [hstage] at hover
    cases hover

/-- Whoever has a lease that is not closed goes on. -/
theorem can_work_holder (h : (routing_system config).Reachable s) (hl : s.leases[ℓ]? = some l)
    (hopen : l.is_open = true) : CanWork config s := by
  have hleases := leases_inv h
  have hnot := not_closed_of_open hl hopen
  cases howner : l.owner with
  | caller =>
    have hcloser : closer_lease s (.caller ℓ) = some ℓ := by simp [closer_lease, hl, howner]
    exact can_work_close hcloser hl hnot
  | request j =>
    have hlt := hleases.owners ℓ l j hl howner
    obtain ⟨r, hr⟩ : ∃ r, s.requests[j]? = some r := ⟨_, getElem?_eq_getElem hlt⟩
    have hreq := hleases.requests j r hr
    rcases hreq.accounted ℓ l hl howner hopen with ⟨hlease, hover⟩ | hstage | ⟨f, hf, -, hdone⟩
    · by_cases hloop : r.stage = .routing
      swap
      · exact can_work_outside h hr hloop hover
      -- in the loop the root has the lease that was passed
      rcases (entry_inv h).used j r ℓ hr hlease with hclosed | hbefore | hending | htaken
      · exact absurd hclosed hnot
      · rw [hloop] at hbefore
        cases hbefore
      · rw [hloop] at hending
        exact absurd rfl hending
      · rw [RoutingRequest.taken, hloop] at htaken
        obtain ⟨f, hf, rfl⟩ := mem_map.mp htaken
        refine can_work_future hleases hr hf ?_
        by_contra hdone
        exact hnot (hreq.done_closed f hf (by simpa using hdone))
    · refine can_work_outside h hr ?_ ?_
      · rintro hloop
        rw [hloop] at hstage
        cases hstage
      · cases hstage' : r.stage with
        | ended raised =>
          rw [hstage'] at hstage
          cases hstage
        | _ => rfl
    · exact can_work_future hleases hr hf hdone

/-- When the budget is used up, a lease is open. -/
theorem BudgetInv.exists_open (h : BudgetInv config s) {agent_id : String}
    (hfull : s.available config agent_id ≠ true) :
    ∃ (ℓ : ℕ) (l : Lease), s.leases[ℓ]? = some l ∧ l.is_open = true := by
  have hpositive := config.max_positive
  have hlimit := config.limits_positive agent_id
  have hused : 0 < s.leases.countP Lease.is_open := by
    have hactive := h.active_eq
    have hagent := h.agent_eq agent_id
    have hle : s.leases.countP (Lease.is_open_for agent_id) ≤ s.leases.countP Lease.is_open := by
      refine countP_mono_left fun l _ hl => ?_
      rw [Lease.is_open_for, Bool.and_eq_true] at hl
      exact hl.1
    simp only [RoutingState.available, Bool.decide_and, ne_eq, Bool.and_eq_true, decide_eq_true_eq,
      not_and, not_lt] at hfull
    by_contra hnone
    have hlow : s.active < config.max_concurrent_invocations := by omega
    have hhigh := hfull hlow
    omega
  obtain ⟨l, hl, hopen⟩ := countP_pos_iff.mp hused
  obtain ⟨ℓ, hℓ⟩ := getElem?_of_mem hl
  exact ⟨ℓ, l, hℓ, hopen⟩

/-- As long as a request is not over, some work can be done. -/
theorem request_progress (h : (routing_system config).Reachable s) (hr : s.requests[i]? = some r)
    (hover : r.stage.is_over = false) : CanWork config s := by
  by_cases hloop : r.stage = .routing
  swap
  · exact can_work_outside h hr hloop hover
  rcases hfutures : r.futures with _ | ⟨f, rest⟩
  swap
  · have hf : f ∈ r.futures := by
      rw [hfutures]
      exact mem_cons_self
    cases hdone : f.stage with
    | done outcome =>
      exact can_work_request hr (.process 0) (by simp [request_section, hloop, hfutures, hdone]) rfl
    | _ => exact can_work_future (leases_inv h) hr hf (by rw [hdone]; rfl)
  by_cases hpending : r.pending = []
  · exact can_work_request hr .complete (by simp [request_section, hloop, hfutures, hpending]) rfl
  -- a message waits for its turn in the budget
  obtain ⟨m, hm⟩ := exists_mem_of_ne_nil _ hpending
  by_cases havailable : s.available config m.target_agent_id = true
  · have hqueued : m ∈ s.channel.messages := by
      refine ((queue_inv h).waiting_queued i r m hr (by rw [hloop]; rfl) hm).resolve_right ?_
      rw [hloop]
      exact fun h => by cases h
    have heligible : m ∈ r.pending.filter fun m => s.available config m.target_agent_id :=
      mem_filter.mpr ⟨hm, havailable⟩
    have hsome := MessageChannel.receive_isSome hqueued (mem_map_of_mem heligible)
    obtain ⟨⟨m', channel⟩, hreceive⟩ := Option.isSome_iff_exists.mp hsome
    refine can_work_request hr .take ?_ rfl
    simp only [request_section, hloop, hreceive, Option.isSome_some]
  · obtain ⟨ℓ, l, hl, hopen⟩ := (leases_inv h).budget.exists_open havailable
    exact can_work_holder h hl hopen

/-! ## The contract -/

/-- What one request delivers. -/
structure RequestContract (config : RoutingConfig) (r : RoutingRequest) : Prop where
  /-- The log is what the request reports. -/
  invocations : r.invocations = r.log.filterMap RoutingRecord.invocation
  issues : r.issues = r.log.filterMap RoutingRecord.issue
  messages : r.messages = r.messages.head?.toList ++ r.children
  /-- The messages are a tree under the intent, along edges of the graph, and a message
  with children has a succeeded invocation. -/
  root : ∀ m, r.messages.head? = some m → ∃ entry message_id,
    config.graph.entry_agent r.request.requested_agent_id = .ok entry ∧
      m = root_message r.request entry message_id
  ids_nodup : (r.messages.map CoordinationMessage.message_id).Nodup
  delegated : ∀ p d m, .delegated p d m ∈ r.log → Delegation config r p d m
  one_parent : ∀ p p' d d' m, .delegated p d m ∈ r.log → .delegated p' d' m ∈ r.log →
    p = p' ∧ d = d'
  depth : ∀ m ∈ r.messages, ∀ n, r.Depth m n ↔ n = m.hop_count
  hop_le : ∀ m ∈ r.messages, m.hop_count ≤ max 1 (2 * config.graph.agents.length)
  /-- No message has two records, and each has one when the request returns. -/
  answered_accepted : ∀ m ∈ r.answered, m ∈ r.messages
  answered_at_most_once : ∀ m, r.answered.count m ≤ 1
  answered_once : r.stage.ending = some none → ∀ m ∈ r.messages, r.answered.count m = 1
  /-- The delegations of an invocation are settled one by one, and all of them. -/
  settled : ∀ m, r.log.flatMap (RoutingRecord.handled m) ++ r.stage.left m
    = r.log.flatMap (RoutingRecord.proposed m)
  settled_once : r.stage.ending ≠ none → ∀ m,
    r.log.flatMap (RoutingRecord.handled m) = r.log.flatMap (RoutingRecord.proposed m)
  /-- Once its root is accepted, a request raises for a lease of another agent, for the
  pool or for an exception that no issue can be built about. -/
  raised : ∀ e, r.stage.ending = some (some e) →
    r.messages = [] ∨ e = .foreign_lease ∨ e = .pool ∨ e = .unusable_issue

/-- A message is as deep as its hop count says. -/
theorem RoutingLogInv.depth_unique (h : RoutingLogInv config r) {n : ℕ} (hm : r.Depth m n) :
    n = m.hop_count := by
  induction hm with
  | root hroot =>
    obtain ⟨entry, message_id, -, rfl⟩ := h.root _ hroot
    rfl
  | child hchild _ ih =>
    obtain ⟨invocation_id, message_id, rfl⟩ := (h.delegated _ _ _ hchild).message
    rw [ih]
    rfl

/-- A message names its parent and its delegation. -/
theorem RoutingLogInv.one_parent (h : RoutingLogInv config r)
    (hids : (r.messages.map CoordinationMessage.message_id).Nodup) {p p' : CoordinationMessage}
    {d' : DelegationProposal} (hd : .delegated p d m ∈ r.log) (hd' : .delegated p' d' m ∈ r.log) :
    p = p' ∧ d = d' := by
  have hp := h.delegated p d m hd
  have hp' := h.delegated p' d' m hd'
  obtain ⟨invocation_id, message_id, rfl⟩ := hp.message
  obtain ⟨invocation_id', message_id', heq⟩ := hp'.message
  simp only [delegated_message, CoordinationMessage.mk.injEq, Option.some.injEq,
    CoordinationIntentPayload.mk.injEq] at heq
  obtain ⟨-, -, -, -, htarget, -, hparent, -, -, -, -, hintent, -, hid, hmetadata⟩ := heq
  refine ⟨inj_on_of_nodup_map hids hp.parent_accepted hp'.parent_accepted hparent, ?_⟩
  cases d
  cases d'
  simp only [DelegationProposal.mk.injEq]
  exact ⟨hid, htarget, hintent, hmetadata⟩

theorem RequestDelivery.contract {ids : List String} (h : RequestDelivery config ids r)
    (hquiet : ∀ e, r.stage.ending = some (some e) → e.in_delegation = false) :
    RequestContract config r := by
  obtain ⟨lost, hperm, hlost⟩ := h.flow.places
  have hmessages : r.messages.Nodup := h.flow.ids_nodup.of_map _
  -- the records are those of different messages
  have hanswered : r.answered.Nodup := by
    have hplaces := hperm.nodup_iff.mp hmessages
    rw [nodup_append] at hplaces
    exact (nodup_append.mp hplaces.1).2.1
  refine ⟨h.log.invocations, h.log.issues, h.log.messages, h.log.root, h.flow.ids_nodup,
    h.log.delegated, fun p p' d d' m => h.log.one_parent h.flow.ids_nodup, ?_, ?_, ?_,
    nodup_iff_count_le_one.mp hanswered, ?_, h.log.settled, ?_, ?_⟩
  · intro m hm n
    constructor
    · exact h.log.depth_unique
    · rintro rfl
      exact h.log.depth m hm
  · intro m hm
    have hle := h.log.hop_le hm
    rw [CoordinationGraph.hop_limit, Nat.mul_comm] at hle
    exact hle
  · intro m hm
    refine hperm.mem_iff.mpr ?_
    simp only [mem_append, hm, or_true, true_or]
  · intro hending m hm
    -- nothing waits, nothing is with a future and nothing is lost
    obtain ⟨hpending, hfutures⟩ := h.complete hending
    have hnil : lost = [] := by
      rcases hlost with hnil | hc
      · exact hnil
      · rw [hending] at hc
        cases hc
    rw [hpending, hfutures, hnil, map_nil, append_nil, append_nil,
      nil_append] at hperm
    exact count_eq_one_of_mem hanswered (hperm.mem_iff.mp hm)
  · intro hending m
    have hsettled := h.log.settled m
    have hdelegates : r.stage.delegates = false := by
      cases hstage : r.stage with
      | delegating p invocation_id rest =>
        rw [hstage] at hending
        exact absurd rfl hending
      | _ => rfl
    rwa [RequestStage.left_nil hdelegates hquiet, append_nil] at hsettled
  · intro e he
    rcases h.raised e he with hnone | hforeign | hpool | hissue | hdelegation
    · exact Or.inl hnone
    · exact Or.inr (Or.inl hforeign)
    · exact Or.inr (Or.inr (Or.inl hpool))
    · exact Or.inr (Or.inr (Or.inr hissue))
    · rw [hquiet e he] at hdelegation
      cases hdelegation

/-- In a run whose ids are fresh and whose sink does not fail `_delegate` does not raise. -/
theorem QueueInv.steady_delegation (hids : IdentityInv s) (h : QueueInv config s)
    (hr : s.requests[i]? = some r)
    (hstage : r.stage = .delegating parent invocation_id (d :: rest))
    {made : Option String} {raised : Option SinkError} {error : DelegateError}
    (hsteady : s.steady (.request i (.delegate made raised)) = true) :
    delegate config.graph s.channel parent invocation_id d made raised ≠ .raised error := by
  intro hraised
  have hraises := (h.delegating_raises hr hstage).mp ⟨error, hraised⟩
  have hreq := h.requests i r hr
  have hparent := (hreq.log.delegating parent invocation_id _ hstage).2.1
  simp only [RoutingState.steady, Bool.and_eq_true, Option.any_eq_true, Option.isNone_iff_eq_none,
    fresh_id, Bool.decide_and, decide_eq_true_eq] at hsteady
  obtain ⟨⟨message_id, rfl, hne, hnew⟩, rfl⟩ := hsteady
  have hpath := hreq.fresh (hids.request hr) hnew hparent
  simp [delegation_raises, next_message_id, hne] at hraises
  exact hpath (mem_cons.mpr hraises.2)

/-- No request of such a run raises in `_delegate`. -/
def QuietInv (s : RoutingState) : Prop :=
  ∀ (i : ℕ) (r : RoutingRequest), s.requests[i]? = some r → ∀ e,
    r.stage.ending = some (some e) → e.in_delegation = false

theorem quiet_inv_step (hids : IdentityInv s) (hqueue : QueueInv config s) (h : QuietInv s)
    (hsteady : s.steady e = true) (hs : RoutingStep config s e s') : QuietInv s' := by
  -- a step of request `i`, behind which it raises what it raised or nothing from there
  have hput : ∀ (base : RoutingState) (i : ℕ) (r' : RoutingRequest), base.requests = s.requests →
      (∀ e, r'.stage.ending = some (some e) → e.in_delegation = false) →
      QuietInv (base.put i r') := by
    intro base i r' hrequests hquiet j q hq
    change (base.requests.set i r')[j]? = some q at hq
    rw [hrequests] at hq
    rcases mem_or_eq_of_mem_set (mem_of_getElem? hq) with hold | rfl
    · obtain ⟨k, hk⟩ := getElem?_of_mem hold
      exact h k q hk
    · exact hquiet
  have hloop : ∀ (stage : RequestStage), stage.ending = none →
      ∀ e, stage.ending = some (some e) → e.in_delegation = false := by
    intro stage hnone e he
    rw [hnone] at he
    cases he
  have hcall : ∀ (t : RoutingState) (p : RoutingRequest), t.requests = s.requests ++ [p] →
      p.stage = .called → QuietInv t := by
    intro t p hrequests hp j q hq
    rw [hrequests] at hq
    rcases mem_append.mp (mem_of_getElem? hq) with hold | hnew
    · obtain ⟨k, hk⟩ := getElem?_of_mem hold
      exact h k q hk
    · exact hloop _ (by rw [mem_singleton.mp hnew, hp]; rfl)
  cases hs with
  | flags | reserve | mark | release => exact h
  | call request => exact hcall _ _ rfl rfl
  | call_lease request ℓ l hl howner hopen => exact hcall _ _ rfl rfl
  | restage i r hr a stage hmove sessions =>
    refine hput _ i _ rfl fun error he => ?_
    change stage.ending = some (some error) at he
    cases hmove with
    | enter_failed hstage made error' hplain =>
      rw [← Option.some.inj (Option.some.inj he)]
      exact hplain
    | delegate_raised parent invocation_id d rest hstage made raised error' hraised =>
      exact absurd hraised (hqueue.steady_delegation hids hr hstage hsteady)
    | exit_session raised hstage => exact h i r hr error (by rw [hstage]; exact he)
    | finish_call raised hstage => exact h i r hr error (by rw [hstage]; exact he)
    | enter | submit_refused | complete => cases he
    | send_failed | foreign | settle_refused => exact (Option.some.inj (Option.some.inj he)) ▸ rfl
  | send i r hr root hstage raised channel hsend =>
    refine hput _ i _ rfl (hloop _ ?_)
    dsimp only
    split <;> rfl
  | check | take | submit => exact hput _ _ _ rfl (hloop _ rfl)
  | future i r hr k f hf a stage hmove => exact hput _ i _ rfl (h i r hr)
  | process i r hr hstage k f hf outcome hdone =>
    refine hput _ i _ rfl ?_
    rcases process_outcome_stage { r with futures := r.futures.eraseIdx k } f.message outcome hstage
      with heq | ⟨invocation_id, rest, heq⟩
    · intro error he
      rw [heq] at he
      exact (Option.some.inj (Option.some.inj he)) ▸ rfl
    · rw [heq]
      exact hloop _ (delegation_stage_held _ _ _).2.1
  | refuse | accept => exact hput _ _ _ rfl (hloop _ (delegation_stage_held _ _ _).2.1)

theorem quiet_inv (h : (routing_system config).ReachableUnder (fun s e => s.steady e = true) s) :
    QuietInv s := by
  refine h.invariant ?_ fun s e s' hreach hinv hsteady hs =>
    quiet_inv_step (identity_inv hreach) (queue_inv hreach) hinv hsteady (routing_step hs)
  rintro s rfl i r hr
  cases hr

/-- What a runtime delivers, and that it comes to its end. -/
structure RoutingContract (config : RoutingConfig) (s : RoutingState) : Prop where
  requests : ∀ (i : ℕ) (r : RoutingRequest), s.requests[i]? = some r → RequestContract config r
  /-- While a request is not over, some section of a request or of its invocations, or
  the closing of a lease, can run. -/
  progress : ∀ (i : ℕ) (r : RoutingRequest), s.requests[i]? = some r →
    r.stage.is_over = false → CanWork config s
  /-- These come to an end. -/
  work_ends : ∀ run : (routing_system config).EndlessRun, run.state 0 = s →
    ∃ n, (run.state n).work (run.event n) = false
  /-- Whatever else goes on, a request has finitely many of them. -/
  request_ends : ∀ run : (routing_system config).EndlessRun, run.state 0 = s →
    ∀ i, i < s.requests.length → ∃ N, ∀ n, N ≤ n → ∀ a, run.event n ≠ .request i a

/-- When the ids of messages are fresh and the sink does not fail, every request is
delivered. -/
theorem routing_contract {config : RoutingConfig} {s : RoutingState}
    (h : (routing_system config).ReachableUnder (fun s e => s.steady e = true) s) :
    RoutingContract config s := by
  have hreach := h.reachable
  refine ⟨?_, fun i r hr hover => request_progress hreach hr hover, fun run _ => work_ends run, ?_⟩
  · exact fun i r hr => ((queue_inv hreach).requests i r hr).contract (quiet_inv h i r hr)
  · rintro run rfl i hi
    exact request_ends run hi

theorem routing_contract_delegated :
    ∃ s : RoutingState,
      ((routing_system peer_config).guarded fun s e => s.steady e = true).run
        { channel := { capacity := peer_config.channel_capacity } } delegated_run = some s ∧
      (∃ r ∈ s.requests, r.stage.is_over = true ∧ r.answered.length = 2) ∧
      RoutingContract peer_config s := by
  have hrun : (((routing_system peer_config).guarded fun s e => s.steady e = true).run
      { channel := { capacity := peer_config.channel_capacity } } delegated_run).any
        (fun s : RoutingState => s.requests.any fun r =>
          r.stage.is_over && r.answered.length = 2) = true := by decide
  obtain ⟨s, hs, hstate⟩ := (Option.any_eq_true _ _).mp hrun
  obtain ⟨r, hr, hover⟩ := any_eq_true.mp hstate
  rw [Bool.and_eq_true, decide_eq_true_eq] at hover
  have hreach : ((routing_system peer_config).guarded fun s e => s.steady e = true).Reachable s :=
    System.Reachable.run (.init rfl) hs
  exact ⟨s, hs, ⟨r, hr, hover⟩, routing_contract hreach.unguarded⟩

end MininetAi
