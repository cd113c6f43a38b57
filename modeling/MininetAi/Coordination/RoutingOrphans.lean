/-
Work items that the pool keeps although their submission raised (`_submit_invocation`
in `mininet_ai/coordination/routing.py` over `ThreadPoolExecutor.submit`).

`submit` puts the item into the queue of the pool before it starts a thread for it.
Where starting the thread raises, the request has no future and closes the lease, but
the item stays in the queue and another worker runs it. Apart from such items the
runtime is `routing_system`: an item that runs on closes a lease that its request is
closing anyway.
-/
import MininetAi.Coordination.RoutingTermination

set_option autoImplicit false

namespace MininetAi

open List Option

/-! ## The pool -/

/-- Where an item is. -/
inductive OrphanStage where
  | queued
  | running
  | ended
  deriving DecidableEq

/-- An item whose submission raised, and the request that submitted it. -/
structure Orphan where
  request : ℕ
  message : CoordinationMessage
  lease : ℕ
  stage : OrphanStage := .queued

/-- The runtime and the items that no future stands for. -/
structure PoolState where
  routing : RoutingState
  orphans : List Orphan := []

inductive QueuedEvent where
  | routing (e : RoutingEvent)
  /-- The submission of request `i` raises, with the item in the queue. -/
  | strand (i : ℕ)
  | start (k : ℕ)
  /-- The invocation is over, and `with lease` closes its lease. -/
  | finish (k : ℕ)

/-- A runtime over such a pool. -/
def pool_system (config : RoutingConfig) : System PoolState QueuedEvent where
  init p := (routing_system config).init p.routing ∧ p.orphans = []
  step p
    | .routing e =>
      ((routing_system config).step p.routing e).map fun s => { p with routing := s }
    | .strand i => do
      let r ← p.routing.requests[i]?
      match r.stage with
      | .submitting m ℓ =>
        ((routing_system config).step p.routing (.request i (.submit false))).map fun s =>
          { routing := s, orphans := p.orphans ++ [{ request := i, message := m, lease := ℓ }] }
      | _ => none
    | .start k => do
      let o ← p.orphans[k]?
      if o.stage = .queued then
        some { p with orphans := p.orphans.set k { o with stage := .running } }
      else none
    | .finish k => do
      let o ← p.orphans[k]?
      let l ← p.routing.leases[o.lease]?
      if o.stage = .running then
        some
          { routing := if l.stage = .opened then p.routing.mark o.lease l else p.routing
            orphans := p.orphans.set k { o with stage := .ended } }
      else none

/-- A submission raises that has queued its item. -/
def QueuedEvent.strands : QueuedEvent → Bool
  | .strand _ => true
  | _ => false

variable {config : RoutingConfig} {s s' : RoutingState} {p p' : PoolState} {e : RoutingEvent}
  {o : Orphan} {i k ℓ : ℕ}

/-! ## The runtime under it -/

/-- The request that submitted the item still has to see its lease closed, or it is. -/
def Orphan.Awaited (s : RoutingState) (o : Orphan) : Prop :=
  (∃ r, s.requests[o.request]? = some r ∧ r.stage = .refused o.lease) ∨ s.is_closed o.lease = true

theorem Orphan.Awaited.same {o' : Orphan} (h : o.Awaited s) (hrequest : o'.request = o.request)
    (hlease : o'.lease = o.lease) : o'.Awaited s := by
  unfold Orphan.Awaited
  rw [hrequest, hlease]
  exact h

/-- A request whose submission raised waits until its lease is closed. -/
theorem RoutingStep.refused {a : RequestEvent} {r : RoutingRequest}
    (hs : RoutingStep config s (.request i a) s') (hr : s.requests[i]? = some r)
    (hstage : r.stage = .refused ℓ) :
    (∃ r', s'.requests[i]? = some r' ∧ r'.stage = .refused ℓ) ∨ s.is_closed ℓ = true := by
  have hlt := (List.getElem?_eq_some_iff.mp hr).1
  have hsame : ∀ q, s.requests[i]? = some q → q = r :=
    fun q hq => Option.some.inj (hq.symm.trans hr)
  cases hs with
  | flags _ hidle => cases hidle
  | restage _ q hq _ stage hmove sessions =>
    obtain rfl := hsame q hq
    cases hmove with
    | settle_refused ℓ' hstage' hclosed =>
      obtain rfl := RequestStage.refused.inj (hstage'.symm.trans hstage)
      exact Or.inr hclosed
    | enter_failed hstage' | enter hstage' | send_failed _ hstage' | foreign _ hstage'
    | submit_refused _ _ hstage' | delegate_raised _ _ _ _ hstage' | complete hstage'
    | exit_session _ hstage' | finish_call _ hstage' => cases hstage'.symm.trans hstage
  | future _ q hq k f hf _ stage hmove =>
    obtain rfl := hsame q hq
    exact Or.inl ⟨_, getElem?_set_self hlt, hstage⟩
  | send _ q hq _ hstage' | check _ q hq _ hstage' | take _ q hq hstage'
  | submit _ q hq _ _ hstage' | process _ q hq hstage' | refuse _ q hq _ _ _ _ hstage'
  | accept _ q hq _ _ _ _ hstage' =>
    obtain rfl := hsame q hq
    cases hstage'.symm.trans hstage

theorem Orphan.Awaited.step (hinv : LeasesInv config s) (hinv' : LeasesInv config s')
    (hs : RoutingStep config s e s') (h : o.Awaited s) : o.Awaited s' := by
  rcases h with ⟨r, hr, hstage⟩ | hclosed
  swap
  · exact Or.inr (hs.closed hinv hinv' hclosed)
  by_cases hown : ∃ a, e = .request o.request a
  · obtain ⟨a, rfl⟩ := hown
    rcases hs.refused hr hstage with hwaits | hclosed
    · exact Or.inl hwaits
    · exact Or.inr (hs.closed hinv hinv' hclosed)
  · refine Or.inl ⟨r, ?_, hstage⟩
    rw [hs.others (List.getElem?_eq_some_iff.mp hr).1 fun a ha => hown ⟨a, ha⟩, hr]

/-- What holds of the items, and of the runtime without them. -/
structure PoolInv (config : RoutingConfig) (p : PoolState) : Prop where
  routing : (routing_system config).Reachable p.routing
  awaited : ∀ o ∈ p.orphans, o.Awaited p.routing

/-- A section of the runtime, which leaves the items that there are. -/
theorem PoolInv.section (h : PoolInv config p) (hs : (routing_system config).step p.routing e = some s) :
    (routing_system config).Reachable s ∧ ∀ o ∈ p.orphans, o.Awaited s := by
  have hreach := h.routing.step hs
  exact ⟨hreach, fun o ho =>
    (h.awaited o ho).step (leases_inv h.routing) (leases_inv hreach) (routing_step hs)⟩

/-- An item that ends closes a lease which its request is about to close, or which is
closed. -/
theorem Orphan.Awaited.closes (h : o.Awaited s) {l : Lease} (hl : s.leases[o.lease]? = some l) :
    (routing_system config).step s (.close (.refused o.request)) =
        some (if l.stage = .opened then s.mark o.lease l else s) ∨ l.stage = .closed := by
  rcases h with ⟨r, hr, hstage⟩ | hclosed
  · refine Or.inl ?_
    simp [routing_system, closer_lease, hr, hstage, hl]
  · refine Or.inr ?_
    simpa [RoutingState.is_closed, hl] using hclosed

theorem pool_inv_step {e : QueuedEvent} (h : PoolInv config p)
    (hs : (pool_system config).step p e = some p') : PoolInv config p' := by
  have hset : ∀ (k : ℕ) (o : Orphan) (stage : OrphanStage), p.orphans[k]? = some o →
      ∀ q ∈ p.orphans.set k { o with stage := stage }, ∃ o' ∈ p.orphans, q.request = o'.request ∧
        q.lease = o'.lease := by
    intro k o stage ho q hq
    rcases mem_or_eq_of_mem_set hq with hold | rfl
    · exact ⟨q, hold, rfl, rfl⟩
    · exact ⟨o, mem_of_getElem? ho, rfl, rfl⟩
  cases e with
  | routing e =>
    obtain ⟨s, hsection, rfl⟩ := map_eq_some_iff.mp hs
    exact ⟨(h.section hsection).1, (h.section hsection).2⟩
  | strand i =>
    obtain ⟨r, hr, hs⟩ := bind_eq_some_iff.mp hs
    split at hs
    swap
    · cases hs
    rename_i m ℓ hstage
    obtain ⟨s, hsection, rfl⟩ := map_eq_some_iff.mp hs
    refine ⟨(h.section hsection).1, fun o ho => ?_⟩
    rcases mem_append.mp ho with hold | hnew
    · exact (h.section hsection).2 o hold
    · -- the request has just been refused
      rw [mem_singleton.mp hnew]
      simp only [routing_system, request_section, hr, hstage, Option.some.injEq] at hsection
      rw [← hsection]
      exact Or.inl ⟨_, getElem?_set_self (List.getElem?_eq_some_iff.mp hr).1, rfl⟩
  | start k =>
    obtain ⟨o, ho, hs⟩ := bind_eq_some_iff.mp hs
    simp only [ite_none_right_eq_some, Option.some.injEq] at hs
    obtain ⟨-, rfl⟩ := hs
    refine ⟨h.routing, fun q hq => ?_⟩
    obtain ⟨o', ho', hrequest, hlease⟩ := hset k o _ ho q hq
    exact (h.awaited o' ho').same hrequest hlease
  | finish k =>
    obtain ⟨o, ho, hs⟩ := bind_eq_some_iff.mp hs
    obtain ⟨l, hl, hs⟩ := bind_eq_some_iff.mp hs
    simp only [ite_none_right_eq_some, Option.some.injEq] at hs
    obtain ⟨-, rfl⟩ := hs
    have hkept : (routing_system config).Reachable
          (if l.stage = .opened then p.routing.mark o.lease l else p.routing) ∧
        ∀ q ∈ p.orphans, q.Awaited
          (if l.stage = .opened then p.routing.mark o.lease l else p.routing) := by
      rcases (h.awaited o (mem_of_getElem? ho)).closes hl with hclose | hclosed
      · exact h.section hclose
      · rw [hclosed, if_neg fun h => by cases h]
        exact ⟨h.routing, h.awaited⟩
    refine ⟨hkept.1, fun q hq => ?_⟩
    obtain ⟨o', ho', hrequest, hlease⟩ := hset k o _ ho q hq
    exact (hkept.2 o' ho').same hrequest hlease

theorem pool_inv (h : (pool_system config).Reachable p) : PoolInv config p := by
  refine h.invariant ?_ fun p e p' _ hinv hs => pool_inv_step hinv hs
  rintro p ⟨hinit, hnone⟩
  refine ⟨.init hinit, fun o ho => ?_⟩
  rw [hnone] at ho
  cases ho

/-! ## The contract -/

/-- The budget, and a lease that is open for every invocation that runs, whether a
future stands for it or not. -/
structure PoolContract (config : RoutingConfig) (p : PoolState) : Prop where
  budget : BudgetContract config p.routing
  orphans_open : ∀ o ∈ p.orphans, o.stage = .running →
    ∃ l, p.routing.leases[o.lease]? = some l ∧ l.is_open = true ∧
      l.agent_id = o.message.target_agent_id

/-- The counters, the limits and the releases are right in every run. -/
theorem pool_budget (h : (pool_system config).Reachable p) : BudgetContract config p.routing :=
  budget_contract (pool_inv h).routing

theorem no_orphans (h : (pool_system config).ReachableUnder (fun _ e => e.strands = false) p) :
    p.orphans = [] := by
  refine System.ReachableUnder.invariant (P := fun p => p.orphans = []) (fun p hinit => ?_)
    (fun p e p' _ hnone hquiet hs => ?_) h
  · exact hinit.2
  cases e with
  | strand i => cases hquiet
  | routing e =>
    obtain ⟨s, -, rfl⟩ := map_eq_some_iff.mp hs
    exact hnone
  | start k | finish k =>
    obtain ⟨o, ho, -⟩ := bind_eq_some_iff.mp hs
    rw [hnone] at ho
    cases ho

/-- When no submission raises with its item in the queue, every invocation runs under
an open lease. -/
theorem pool_contract {config : RoutingConfig} {p : PoolState}
    (h : (pool_system config).ReachableUnder (fun _ e => e.strands = false) p) :
    PoolContract config p := by
  refine ⟨pool_budget h.reachable, fun o ho => ?_⟩
  rw [no_orphans h] at ho
  cases ho

/-! ## What an item left behind does -/

/-- Sections of the runtime leave the items alone. -/
theorem pool_run_routing (es : List RoutingEvent) (p : PoolState) (rest : List QueuedEvent) :
    (pool_system config).run p (es.map .routing ++ rest) =
      ((routing_system config).run p.routing es).bind fun s =>
        (pool_system config).run { p with routing := s } rest := by
  induction es generalizing p with
  | nil => rfl
  | cons e es ih =>
    simp only [map_cons, cons_append, System.run]
    cases hs : (routing_system config).step p.routing e with
    | none => simp [pool_system, hs]
    | some s => simpa [pool_system, hs] using ih { p with routing := s }

/-- The request closes the lease. -/
theorem Orphan.Awaited.closed (hinv : LeasesInv config s) (h : o.Awaited s) :
    ∃ es s', (routing_system config).run s es = some s' ∧ s'.is_closed o.lease = true := by
  rcases h with ⟨r, hr, hstage⟩ | hclosed
  swap
  · exact ⟨[], s, rfl, hclosed⟩
  have htaken : o.lease ∈ r.taken := by
    rw [RoutingRequest.taken, hstage]
    exact mem_append_left _ (mem_singleton_self _)
  obtain ⟨l, hl, -⟩ := (hinv.requests _ r hr).owned o.lease (Or.inl htaken)
  have hlt := (List.getElem?_eq_some_iff.mp hl).1
  cases hlease : l.stage with
  | opened =>
    refine ⟨[.close (.refused o.request), .release o.lease],
      (s.mark o.lease l).release o.lease { l with stage := .closing }, ?_, ?_⟩
    · simp [System.run, routing_system, closer_lease, hr, hstage, hl, hlease, RoutingState.mark,
        getElem?_set_self hlt]
    · simp [RoutingState.is_closed, RoutingState.release, RoutingState.mark, hlt]
  | closing =>
    refine ⟨[.release o.lease], s.release o.lease l, ?_, ?_⟩
    · simp [System.run, routing_system, hl, hlease]
    · simp [RoutingState.is_closed, RoutingState.release, hlt]
  | closed => exact ⟨[], s, rfl, by simp [RoutingState.is_closed, hl, hlease]⟩

/-- The condition is exact: behind a submission that raises with its item in the queue,
the item can run with its lease closed. -/
theorem strand_escapes (h : (pool_system config).Reachable p)
    (hs : (pool_system config).step p (.strand i) = some p') :
    ∃ es q, (pool_system config).run p' es = some q ∧ ¬ PoolContract config q := by
  have hinv := pool_inv (h.step hs)
  obtain ⟨r, hr, hs⟩ := bind_eq_some_iff.mp hs
  split at hs
  swap
  · cases hs
  rename_i m ℓ hstage
  obtain ⟨s, -, rfl⟩ := map_eq_some_iff.mp hs
  obtain ⟨o, ho⟩ : ∃ o : Orphan, o = { request := i, message := m, lease := ℓ } := ⟨_, rfl⟩
  rw [← ho] at hinv ⊢
  obtain ⟨es, s', hrun, hclosed⟩ :=
    (hinv.awaited o (mem_append_right _ (mem_singleton_self o))).closed (leases_inv hinv.routing)
  have hrunning : { o with stage := .running } ∈
      (p.orphans ++ [o]).set p.orphans.length { o with stage := .running } := by simp
  refine ⟨es.map .routing ++ [.start p.orphans.length],
    { routing := s'
      orphans := (p.orphans ++ [o]).set p.orphans.length { o with stage := .running } },
    ?_, fun hcontract => ?_⟩
  · rw [pool_run_routing, hrun]
    simp [System.run, pool_system, ho]
  · obtain ⟨l, hl, hopen, -⟩ := hcontract.orphans_open _ hrunning rfl
    exact not_closed_of_open hl hopen hclosed

/-! One worker runs the first request. The thread for the second one cannot be started,
and when the worker is free it runs that item, too. -/

/-- An intent for the second peer. -/
def other_request : CoordinationRequest where
  run_id := "run"
  requested_agent_id := "b"
  intent := "verify"
  correlation_id := "event-2"

/-- Both requests up to the second submission. -/
def crowded_run : List RoutingEvent :=
  [.coordinate peer_request none, .request 0 (.enter (some "message-1")),
    .request 0 (.send_root none), .request 0 .take, .request 0 (.submit true),
    .request 0 (.start 0), .coordinate other_request none, .request 1 (.enter (some "message-2")),
    .request 1 (.send_root none), .request 1 .take]

/-- The first invocation raises, and the second request closes its lease. -/
def failing_run : List RoutingEvent :=
  [.request 0 (.finish 0 (.raises { message := some (.text "timeout"), type_name := "TimeoutError" })),
    .close (.refused 1), .release 1, .request 1 .settle_refused]

theorem orphan_runs_closed : ∃ p : PoolState,
    (pool_system peer_config).run { routing := { channel := { capacity := 2 } } }
        (crowded_run.map .routing ++ .strand 1 :: (failing_run.map .routing ++ [.start 0]))
      = some p ∧
    (∃ o ∈ p.orphans, o.stage = .running ∧ p.routing.is_closed o.lease = true) ∧
    ¬ PoolContract peer_config p := by
  have hrun : ((pool_system peer_config).run { routing := { channel := { capacity := 2 } } }
      (crowded_run.map .routing ++ .strand 1 :: (failing_run.map .routing ++ [.start 0]))).any
        (fun p : PoolState => p.orphans.any fun o =>
          o.stage = .running ∧ p.routing.is_closed o.lease = true) = true := by decide
  obtain ⟨p, hp, hstate⟩ := (any_eq_true _ _).mp hrun
  obtain ⟨o, ho, hrunning⟩ := any_eq_true.mp hstate
  obtain ⟨hstage, hclosed⟩ := of_decide_eq_true hrunning
  refine ⟨p, hp, ⟨o, ho, hstage, hclosed⟩, fun hcontract => ?_⟩
  obtain ⟨l, hl, hopen, -⟩ := hcontract.orphans_open o ho hstage
  exact not_closed_of_open hl hopen hclosed

theorem pool_contract_failing_root : ∃ p : PoolState,
    ((pool_system peer_config).guarded fun _ e => e.strands = false).run
        { routing := { channel := { capacity := peer_config.channel_capacity } } }
        (failing_root.map .routing) = some p ∧
      p.routing.releases = [1, 0] ∧ p.routing.active = 0 ∧ PoolContract peer_config p := by
  have hrun : (((pool_system peer_config).guarded fun _ e => e.strands = false).run
      { routing := { channel := { capacity := peer_config.channel_capacity } } }
      (failing_root.map .routing)).any
        (fun p : PoolState => p.routing.releases = [1, 0] ∧ p.routing.active = 0) = true := by
    decide
  obtain ⟨p, hp, hstate⟩ := (any_eq_true _ _).mp hrun
  obtain ⟨hreleases, hactive⟩ := of_decide_eq_true hstate
  have hinit : (pool_system peer_config).init
      { routing := { channel := { capacity := peer_config.channel_capacity } } } := ⟨rfl, rfl⟩
  have hreach : ((pool_system peer_config).guarded fun _ e => e.strands = false).Reachable p :=
    System.Reachable.run (.init hinit) hp
  exact ⟨p, hp, hreleases, hactive, pool_contract hreach.unguarded⟩

end MininetAi
