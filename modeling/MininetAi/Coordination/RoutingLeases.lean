/-
The execution budget of a coordination runtime: the counters count the open leases,
and every lease is released once.

A lease changes hands: a caller reserves it and passes it to a request, or a
message take allocates it, and then a future runs with it. What keeps this in order
is who may close it. A lease has one owner, an owner's futures have different
leases, and the lease a caller passed is used by the root alone, while nothing else
of the request can run or raise.
-/
import MininetAi.Coordination.RoutingSystem

set_option autoImplicit false

namespace MininetAi

open Option Function

open List

/-! ## Budget -/

/-- The lease has not been released. -/
def Lease.is_open (l : Lease) : Bool := l.stage ≠ .closed

/-- The lease is open and names the agent. -/
def Lease.is_open_for (agent_id : String) (l : Lease) : Bool := l.is_open && l.agent_id = agent_id

/-- The counters count open leases, within the limits. -/
structure BudgetInv (config : RoutingConfig) (s : RoutingState) : Prop where
  active_eq : s.active = s.leases.countP Lease.is_open
  agent_eq : ∀ agent, s.active_agents agent = s.leases.countP (Lease.is_open_for agent)
  active_le : s.active ≤ config.max_concurrent_invocations
  agent_le : ∀ agent, s.active_agents agent ≤ config.agent_limits agent
  known : ∀ l ∈ s.leases, l.agent_id ∈ config.graph.agents
  released_nodup : s.releases.Nodup
  released_iff : ∀ ℓ, ℓ ∈ s.releases ↔ s.is_closed ℓ = true

variable {config : RoutingConfig} {s s' : RoutingState} {ℓ i : ℕ} {l : Lease}
  {r r' : RoutingRequest} {f : InvocationFuture}

/-- A change of one lease that leaves it as open as it was, and its agent. -/
theorem BudgetInv.set (h : BudgetInv config s) (hl : s.leases[ℓ]? = some l) (l' : Lease)
    (hleases : s'.leases = s.leases.set ℓ l') (hagent : l'.agent_id = l.agent_id)
    (hopen : l.stage ≠ .closed) (hopen' : l'.stage ≠ .closed) (hactive : s'.active = s.active)
    (hagents : s'.active_agents = s.active_agents) (hreleases : s'.releases = s.releases) :
    BudgetInv config s' where
  active_eq := by
    rw [hactive, hleases, countP_set_int _ l' hl, h.active_eq]
    simp [Lease.is_open, hopen, hopen']
  agent_eq agent := by
    rw [hagents, hleases, countP_set_int _ l' hl, h.agent_eq]
    simp [Lease.is_open_for, Lease.is_open, hopen, hopen', hagent]
  active_le := hactive ▸ h.active_le
  agent_le := hagents ▸ h.agent_le
  known l'' hmem := by
    rw [hleases] at hmem
    rcases mem_or_eq_of_mem_set hmem with hold | rfl
    · exact h.known l'' hold
    · rw [hagent]
      exact h.known l (mem_of_getElem? hl)
  released_nodup := hreleases ▸ h.released_nodup
  released_iff ℓ' := by
    rw [hreleases, h.released_iff ℓ', RoutingState.is_closed, RoutingState.is_closed, hleases]
    by_cases hℓ : ℓ' = ℓ
    · subst hℓ
      obtain ⟨hlt, -⟩ := List.getElem?_eq_some_iff.mp hl
      simp [hl, getElem?_set_self hlt, hopen, hopen']
    · rw [getElem?_set_ne (Ne.symm hℓ)]

/-- A new lease within the limits. -/
theorem BudgetInv.allocate (h : BudgetInv config s) {agent_id : String}
    (hagent : agent_id ∈ config.graph.agents) (havailable : s.available config agent_id = true)
    (owner : LeaseOwner) : BudgetInv config (s.allocate agent_id owner) := by
  obtain ⟨hactive, hlimit⟩ : s.active < config.max_concurrent_invocations ∧
      s.active_agents agent_id < config.agent_limits agent_id := by
    simpa [RoutingState.available] using havailable
  refine ⟨?_, ?_, ?_, ?_, ?_, h.released_nodup, ?_⟩
  · show s.active + 1 = _
    simp only [RoutingState.allocate, countP_append, countP_singleton, h.active_eq]
    simp [Lease.is_open]
  · intro agent
    simp only [RoutingState.allocate, countP_append, countP_singleton]
    by_cases heq : agent = agent_id
    · subst heq
      simp [Lease.is_open_for, Lease.is_open, h.agent_eq]
    · simp [Lease.is_open_for, Lease.is_open, h.agent_eq, heq, Ne.symm heq]
  · show s.active + 1 ≤ _
    omega
  · intro agent
    show update s.active_agents agent_id (s.active_agents agent_id + 1) agent ≤ _
    by_cases heq : agent = agent_id
    · subst heq
      rw [update_self]
      omega
    · rw [update_of_ne heq]
      exact h.agent_le agent
  · intro l hl
    rcases mem_append.mp hl with hold | hnew
    · exact h.known l hold
    · rw [mem_singleton.mp hnew]
      exact hagent
  · intro ℓ
    show ℓ ∈ s.releases ↔ ((s.leases ++ _)[ℓ]?).any _ = true
    rw [h.released_iff ℓ, RoutingState.is_closed]
    rcases lt_trichotomy ℓ s.leases.length with hlt | rfl | hgt
    · rw [getElem?_append_left hlt]
    · simp
    · rw [getElem?_eq_none (by omega), getElem?_eq_none (by simp; omega)]

/-- The release of a lease whose flag is set. -/
theorem BudgetInv.release {config : RoutingConfig} {s : RoutingState} (h : BudgetInv config s)
    {ℓ : ℕ} {l : Lease} (hl : s.leases[ℓ]? = some l) (hclosing : l.stage = .closing) :
    BudgetInv config (s.release ℓ l) := by
  obtain ⟨hlt, -⟩ := List.getElem?_eq_some_iff.mp hl
  have hnew : ℓ ∉ s.releases := by
    rw [h.released_iff, RoutingState.is_closed, hl]
    simp [hclosing]
  refine ⟨?_, ?_, ?_, ?_, ?_, ?_, ?_⟩
  · show s.active - 1 = ((s.leases.set ℓ _).countP _ : ℤ)
    rw [countP_set_int _ _ hl, h.active_eq]
    simp [Lease.is_open, hclosing]
  · intro agent
    show update s.active_agents l.agent_id _ agent = ((s.leases.set ℓ _).countP _ : ℤ)
    rw [countP_set_int _ _ hl]
    by_cases heq : agent = l.agent_id
    · subst heq
      rw [update_self, h.agent_eq]
      simp [Lease.is_open_for, Lease.is_open, hclosing]
    · rw [update_of_ne heq, h.agent_eq]
      simp [Lease.is_open_for, Lease.is_open, hclosing, Ne.symm heq]
  · show s.active - 1 ≤ _
    have hle := h.active_le
    omega
  · intro agent
    show update s.active_agents l.agent_id (s.active_agents l.agent_id - 1) agent ≤ _
    have hle := h.agent_le agent
    by_cases heq : agent = l.agent_id
    · subst heq
      rw [update_self]
      omega
    · rw [update_of_ne heq]
      exact hle
  · intro l' hl'
    rcases mem_or_eq_of_mem_set hl' with hold | rfl
    · exact h.known l' hold
    · exact h.known l (mem_of_getElem? hl)
  · show (s.releases ++ [ℓ]).Nodup
    rw [nodup_append]
    refine ⟨h.released_nodup, nodup_singleton ℓ, ?_⟩
    intro a ha b hb hab
    rw [mem_singleton.mp hb] at hab
    exact hnew (hab ▸ ha)
  · intro ℓ'
    show ℓ' ∈ s.releases ++ [ℓ] ↔ ((s.leases.set ℓ _)[ℓ']?).any _ = true
    rw [mem_append, mem_singleton, h.released_iff, RoutingState.is_closed]
    by_cases hℓ : ℓ' = ℓ
    · subst hℓ
      rw [getElem?_set_self hlt]
      simp
    · rw [getElem?_set_ne (Ne.symm hℓ)]
      simp [hℓ]

/-! ## Who uses a lease -/

/-- The lease a request is submitting or has failed to submit. -/
def RequestStage.lease : RequestStage → Option ℕ
  | .submitting _ ℓ | .refused ℓ => some ℓ
  | _ => none

/-- The lease that was passed has not been looked at. -/
def RequestStage.before_use : RequestStage → Bool
  | .called | .sending _ | .checking _ => true
  | _ => false

def RequestStage.is_over : RequestStage → Bool
  | .ended _ => true
  | _ => false

def FutureStage.in_use : FutureStage → Bool
  | .queued | .running => true
  | _ => false

def FutureStage.is_done : FutureStage → Bool
  | .done _ => true
  | _ => false

/-- The leases of the submitted invocations and of the one that is being submitted. -/
def RoutingRequest.taken (r : RoutingRequest) : List ℕ :=
  r.stage.lease.toList ++ r.futures.map InvocationFuture.lease

/-- The request relies on the lease being open. -/
inductive RoutingRequest.Needs (r : RoutingRequest) : ℕ → Prop
  | future (f : InvocationFuture) (hf : f ∈ r.futures) (huse : f.stage.in_use = true) :
      Needs r f.lease
  | submitting (m : CoordinationMessage) (ℓ : ℕ) (hstage : r.stage = .submitting m ℓ) : Needs r ℓ
  | entry (ℓ : ℕ) (hlease : r.lease = some ℓ) (hstage : r.stage.before_use = true) : Needs r ℓ

/-- The request, or one of its futures, is going to close the lease. -/
def RoutingRequest.Accounts (r : RoutingRequest) (ℓ : ℕ) : Prop :=
  (r.lease = some ℓ ∧ r.stage.is_over = false) ∨ r.stage.lease = some ℓ ∨
    ∃ f ∈ r.futures, f.lease = ℓ ∧ f.stage.is_done = false

/-- What holds of the leases of request `i`. -/
structure RequestLeases (s : RoutingState) (i : ℕ) (r : RoutingRequest) : Prop where
  owned : ∀ ℓ, ℓ ∈ r.taken ∨ r.lease = some ℓ →
    ∃ l, s.leases[ℓ]? = some l ∧ l.owner = .request i
  needed : ∀ ℓ, r.Needs ℓ → ∃ l, s.leases[ℓ]? = some l ∧ l.stage = .opened
  submitting_agent : ∀ m ℓ, r.stage = .submitting m ℓ →
    ∃ l, s.leases[ℓ]? = some l ∧ l.agent_id = m.target_agent_id
  future_agent : ∀ f ∈ r.futures,
    ∃ l, s.leases[f.lease]? = some l ∧ l.agent_id = f.message.target_agent_id
  nodup : r.taken.Nodup
  done_closed : ∀ f ∈ r.futures, f.stage.is_done = true → s.is_closed f.lease = true
  unused : r.stage.before_use = true → r.futures = [] ∧ r.submitted = []
  checking : ∀ root, r.stage = .checking root → r.messages = [root]
  /-- With the lease that was passed, the root is submitted and nothing else. -/
  entry_submit : ∀ m ℓ, r.stage = .submitting m ℓ → r.lease = some ℓ →
    r.futures = [] ∧ r.messages = [m] ∧ r.submitted = []
  /-- While it is used, nothing else of the request can happen. -/
  entry_use : ∀ f ∈ r.futures, r.lease = some f.lease → f.stage.is_done = true ∨
    (r.stage = .routing ∧ r.futures = [f] ∧ r.pending = [])
  over_closed : ∀ ℓ, r.stage.is_over = true → r.lease = some ℓ → s.is_closed ℓ = true
  accounted : ∀ (ℓ : ℕ) (l : Lease), s.leases[ℓ]? = some l → l.owner = .request i → l.is_open = true →
    r.Accounts ℓ

/-! ### Other leases -/

/-- What a change of the leases leaves to request `i`. -/
structure LeaseFrame (s s' : RoutingState) (i : ℕ) (r : RoutingRequest) : Prop where
  later : ∀ (ℓ : ℕ) (l : Lease), s.leases[ℓ]? = some l → ∃ l', s'.leases[ℓ]? = some l' ∧
    l'.agent_id = l.agent_id ∧ (l.owner = .request i → l'.owner = .request i) ∧
    (l.stage = .closed → l'.stage = .closed)
  opened : ∀ (ℓ : ℕ) (l : Lease), r.Needs ℓ → s.leases[ℓ]? = some l → l.stage = .opened →
    ∃ l', s'.leases[ℓ]? = some l' ∧ l'.stage = .opened
  earlier : ∀ (ℓ : ℕ) (l' : Lease), s'.leases[ℓ]? = some l' → l'.owner = .request i → l'.is_open = true →
    ∃ l, s.leases[ℓ]? = some l ∧ l.owner = .request i ∧ l.is_open = true

theorem LeaseFrame.closed (h : LeaseFrame s s' i r) (hclosed : s.is_closed ℓ = true) :
    s'.is_closed ℓ = true := by
  obtain ⟨l, hl, hstage⟩ := (any_eq_true _ _).mp hclosed
  obtain ⟨l', hl', -, -, hstage'⟩ := h.later ℓ l hl
  rw [RoutingState.is_closed, hl']
  simpa using hstage' (of_decide_eq_true hstage)

theorem RequestLeases.frame (h : RequestLeases s i r) (hframe : LeaseFrame s s' i r) :
    RequestLeases s' i r where
  owned ℓ hℓ := by
    obtain ⟨l, hl, howner⟩ := h.owned ℓ hℓ
    obtain ⟨l', hl', -, howner', -⟩ := hframe.later ℓ l hl
    exact ⟨l', hl', howner' howner⟩
  needed ℓ hℓ := by
    obtain ⟨l, hl, hopen⟩ := h.needed ℓ hℓ
    exact hframe.opened ℓ l hℓ hl hopen
  submitting_agent m ℓ hstage := by
    obtain ⟨l, hl, hagent⟩ := h.submitting_agent m ℓ hstage
    obtain ⟨l', hl', hagent', -⟩ := hframe.later ℓ l hl
    exact ⟨l', hl', hagent'.trans hagent⟩
  future_agent f hf := by
    obtain ⟨l, hl, hagent⟩ := h.future_agent f hf
    obtain ⟨l', hl', hagent', -⟩ := hframe.later f.lease l hl
    exact ⟨l', hl', hagent'.trans hagent⟩
  nodup := h.nodup
  done_closed f hf hdone := hframe.closed (h.done_closed f hf hdone)
  unused := h.unused
  checking := h.checking
  entry_submit := h.entry_submit
  entry_use := h.entry_use
  over_closed ℓ hover hlease := hframe.closed (h.over_closed ℓ hover hlease)
  accounted ℓ l' hl' howner hopen := by
    obtain ⟨l, hl, howner', hopen'⟩ := hframe.earlier ℓ l' hl' howner hopen
    exact h.accounted ℓ l hl howner' hopen'

theorem LeaseFrame.same (h : s'.leases = s.leases) : LeaseFrame s s' i r where
  later _ l hl := ⟨l, h ▸ hl, rfl, id, id⟩
  opened _ l _ hl hopen := ⟨l, h ▸ hl, hopen⟩
  earlier _ l hl howner hopen := ⟨l, h ▸ hl, howner, hopen⟩

/-- One lease changes; the request does not rely on it unless it stays open, and
does not lose or win it. -/
theorem LeaseFrame.set (hl : s.leases[ℓ]? = some l) (l' : Lease)
    (h : s'.leases = s.leases.set ℓ l') (hagent : l'.agent_id = l.agent_id)
    (howner : l'.owner = .request i ↔ l.owner = .request i)
    (hclosed : l.stage = .closed → l'.stage = .closed)
    (hneeds : r.Needs ℓ → l.stage = .opened → l'.stage = .opened) : LeaseFrame s s' i r := by
  obtain ⟨hlt, -⟩ := List.getElem?_eq_some_iff.mp hl
  have hself : s'.leases[ℓ]? = some l' := by rw [h, getElem?_set_self hlt]
  have hother : ∀ ℓ', ℓ' ≠ ℓ → s'.leases[ℓ']? = s.leases[ℓ']? := by
    intro ℓ' hne
    rw [h, getElem?_set_ne (Ne.symm hne)]
  refine ⟨?_, ?_, ?_⟩
  · intro ℓ' m hm
    by_cases hℓ : ℓ' = ℓ
    · subst hℓ
      obtain rfl := Option.some.inj (hl.symm.trans hm)
      exact ⟨l', hself, hagent, howner.mpr, hclosed⟩
    · exact ⟨m, (hother ℓ' hℓ).trans hm, rfl, id, id⟩
  · intro ℓ' m hn hm hopen
    by_cases hℓ : ℓ' = ℓ
    · subst hℓ
      obtain rfl := Option.some.inj (hl.symm.trans hm)
      exact ⟨l', hself, hneeds hn hopen⟩
    · exact ⟨m, (hother ℓ' hℓ).trans hm, hopen⟩
  · intro ℓ' m hm howner' hopen
    by_cases hℓ : ℓ' = ℓ
    · subst hℓ
      obtain rfl := Option.some.inj (hself.symm.trans hm)
      refine ⟨l, hl, howner.mp howner', ?_⟩
      simp only [Lease.is_open, decide_eq_true_eq] at hopen ⊢
      exact fun hc => hopen (hclosed hc)
    · exact ⟨m, (hother ℓ' hℓ).symm.trans hm, howner', hopen⟩

variable {l' : Lease} {a : RequestEvent} {k : ℕ} {base : RoutingState} {stage : RequestStage}

/-- A lease of somebody else is added. -/
theorem LeaseFrame.append (h : s'.leases = s.leases ++ [l']) (howner : l'.owner ≠ .request i) :
    LeaseFrame s s' i r := by
  have hold : ∀ (ℓ : ℕ) (l : Lease), s.leases[ℓ]? = some l → s'.leases[ℓ]? = some l := by
    intro ℓ l hl
    obtain ⟨hlt, -⟩ := List.getElem?_eq_some_iff.mp hl
    rw [h, getElem?_append_left hlt, hl]
  refine ⟨fun ℓ l hl => ⟨l, hold ℓ l hl, rfl, id, id⟩,
    fun ℓ l _ hl hopen => ⟨l, hold ℓ l hl, hopen⟩, ?_⟩
  intro ℓ l hl howner' hopen
  rw [h] at hl
  rcases getElem?_concat_cases hl with hl | ⟨-, rfl⟩
  · exact ⟨l, hl, howner', hopen⟩
  · exact absurd howner' howner

/-! ### Moves of a request -/

/-- At such a stage a request neither submits nor waits to look at its lease. -/
def RequestStage.plain : RequestStage → Bool
  | .routing | .delegating _ _ _ | .exiting _ | .closing _ | .ended _ => true
  | _ => false

theorem RequestStage.plain_lease (h : stage.plain = true) : stage.lease = none := by
  cases stage <;> simp_all [RequestStage.plain, RequestStage.lease]

theorem RequestStage.plain_before_use (h : stage.plain = true) : stage.before_use = false := by
  cases stage <;> simp_all [RequestStage.plain, RequestStage.before_use]

/-- An open lease is not closed. -/
theorem not_closed_of_open (hl : s.leases[ℓ]? = some l) (hopen : l.is_open = true) :
    s.is_closed ℓ ≠ true := by
  rw [RoutingState.is_closed, hl]
  simpa [Lease.is_open] using hopen

section

variable (h : RequestLeases s i r)
include h

theorem RequestLeases.futures_nodup : (r.futures.map InvocationFuture.lease).Nodup :=
  h.nodup.sublist (sublist_append_right _ _)

/-- A move to a plain stage that drops finished futures only, and a lease it held
when that is closed. -/
theorem RequestLeases.plain (hlease : r'.lease = r.lease)
    (hplain : r'.stage.plain = true) (hsub : r'.futures.Sublist r.futures)
    (hdropped : ∀ f ∈ r.futures, f ∈ r'.futures ∨ f.stage.is_done = true)
    (hheld : ∀ ℓ, r.stage.lease = some ℓ → s.is_closed ℓ = true)
    (hover : r'.stage.is_over = true → ∀ ℓ, r.lease = some ℓ → s.is_closed ℓ = true)
    (hentry : ∀ f ∈ r'.futures, r.lease = some f.lease → f.stage.is_done = true ∨
      (r'.stage = .routing ∧ r'.futures = [f] ∧ r'.pending = [])) : RequestLeases s i r' := by
  have htaken : r'.taken = r'.futures.map InvocationFuture.lease := by
    rw [RoutingRequest.taken, RequestStage.plain_lease hplain]
    rfl
  have hbefore := RequestStage.plain_before_use hplain
  refine ⟨?_, ?_, ?_, ?_, ?_, ?_, ?_, ?_, ?_, ?_, ?_, ?_⟩
  · intro ℓ hℓ
    refine h.owned ℓ ?_
    rcases hℓ with hmem | hentry'
    · rw [htaken] at hmem
      exact Or.inl (mem_append_right _ ((hsub.map _).subset hmem))
    · exact Or.inr (hlease ▸ hentry')
  · rintro ℓ (⟨f, hf, huse⟩ | ⟨m, _, hstage⟩ | ⟨_, -, hstage⟩)
    · exact h.needed _ (.future f (hsub.subset hf) huse)
    · rw [hstage] at hplain
      cases hplain
    · rw [hbefore] at hstage
      cases hstage
  · intro m ℓ hstage
    rw [hstage] at hplain
    cases hplain
  · exact fun f hf => h.future_agent f (hsub.subset hf)
  · rw [htaken]
    exact h.futures_nodup.sublist (hsub.map _)
  · exact fun f hf => h.done_closed f (hsub.subset hf)
  · intro hstage
    rw [hbefore] at hstage
    cases hstage
  · intro root hstage
    rw [hstage] at hplain
    cases hplain
  · intro m ℓ hstage
    rw [hstage] at hplain
    cases hplain
  · exact fun f hf hl => hentry f hf (hlease ▸ hl)
  · exact fun ℓ ho hl => hover ho ℓ (hlease ▸ hl)
  · intro ℓ l hl howner hopen
    have hnot := not_closed_of_open hl hopen
    rcases h.accounted ℓ l hl howner hopen with ⟨hown, -⟩ | hstage | ⟨f, hf, hfl, hdone⟩
    · refine Or.inl ⟨hlease.trans hown, ?_⟩
      by_contra ho
      exact hnot (hover (by simpa using ho) ℓ hown)
    · exact absurd (hheld ℓ hstage) hnot
    · refine Or.inr (Or.inr ⟨f, ?_, hfl, hdone⟩)
      rcases hdropped f hf with hmem | hd
      · exact hmem
      · rw [hd] at hdone
        cases hdone

/-- The futures of a request that is not in the loop have left its lease alone. -/
theorem RequestLeases.entry_done (hstage : r.stage ≠ .routing)
    (hf : f ∈ r.futures) (hl : r.lease = some f.lease) : f.stage.is_done = true := by
  rcases h.entry_use f hf hl with hdone | ⟨hrouting, -⟩
  · exact hdone
  · exact absurd hrouting hstage

/-- The moves of the stage. -/
theorem RequestLeases.restage
    (hmove : StageMove config s r a stage) : RequestLeases s i { r with stage := stage } := by
  -- a move between two stages outside the loop keeps every future
  have hplain : stage.plain = true → r.stage ≠ .routing →
      (∀ ℓ, r.stage.lease = some ℓ → s.is_closed ℓ = true) →
      (stage.is_over = true → ∀ ℓ, r.lease = some ℓ → s.is_closed ℓ = true) →
      RequestLeases s i { r with stage := stage } := by
    intro hp hrouting hheld hover
    refine h.plain rfl hp (Sublist.refl _) (fun f hf => Or.inl hf) hheld hover ?_
    exact fun f hf hl => Or.inl (h.entry_done hrouting hf hl)
  rcases hmove with ⟨hstage, made, e, -⟩ | ⟨hstage, entry, message_id, made, -⟩ |
    ⟨root, hstage, answer, e⟩ | ⟨root, hstage, ℓ, -, l, -, -⟩ | ⟨m, ℓ, hstage⟩ |
    ⟨ℓ, hstage, hclosed⟩ | ⟨parent, invocation_id, d, rest, hstage, made, answer, e, -⟩ |
    ⟨hstage, hfutures, -⟩ | ⟨raised, hstage⟩ | ⟨raised, hstage, hclosed⟩
  · exact hplain rfl (by simp [hstage]) (by simp [hstage, RequestStage.lease])
      (by simp [RequestStage.is_over])
  · -- the lease is still unused
    have hbefore : r.stage.before_use = true := by rw [hstage]; rfl
    refine ⟨?_, ?_, by simp, h.future_agent, ?_, h.done_closed, fun _ => h.unused hbefore, by simp,
      by simp, ?_, by simp [RequestStage.is_over], ?_⟩
    · intro ℓ hℓ
      refine h.owned ℓ ?_
      simpa [RoutingRequest.taken, hstage, RequestStage.lease] using hℓ
    · rintro ℓ (⟨f, hf, huse⟩ | ⟨m, _, hs⟩ | ⟨_, hl, -⟩)
      · exact h.needed _ (.future f hf huse)
      · cases hs
      · exact h.needed _ (.entry _ hl hbefore)
    · exact h.futures_nodup
    · exact fun f hf hl => Or.inl (h.entry_done (by simp [hstage]) hf hl)
    · intro ℓ l hl howner hopen
      rcases h.accounted ℓ l hl howner hopen with ⟨hown, -⟩ | hs | hf
      · exact Or.inl ⟨hown, rfl⟩
      · rw [hstage] at hs
        cases hs
      · exact Or.inr (Or.inr hf)
  · exact hplain rfl (by simp [hstage]) (by simp [hstage, RequestStage.lease])
      (by simp [RequestStage.is_over])
  · exact hplain rfl (by simp [hstage]) (by simp [hstage, RequestStage.lease])
      (by simp [RequestStage.is_over])
  · -- the lease is held until it is closed
    refine ⟨?_, ?_, by simp, h.future_agent, ?_, h.done_closed, by simp [RequestStage.before_use],
      by simp, by simp, ?_, by simp [RequestStage.is_over], ?_⟩
    · intro ℓ' hℓ'
      refine h.owned ℓ' ?_
      simpa [RoutingRequest.taken, hstage, RequestStage.lease] using hℓ'
    · rintro ℓ' (⟨f, hf, huse⟩ | ⟨m', _, hs⟩ | ⟨_, -, hs⟩)
      · exact h.needed _ (.future f hf huse)
      · cases hs
      · cases hs
    · have hnodup := h.nodup
      simpa [RoutingRequest.taken, hstage, RequestStage.lease] using hnodup
    · exact fun f hf hl => Or.inl (h.entry_done (by simp [hstage]) hf hl)
    · intro ℓ' l hl howner hopen
      rcases h.accounted ℓ' l hl howner hopen with ⟨hown, -⟩ | hs | hf
      · exact Or.inl ⟨hown, rfl⟩
      · rw [hstage] at hs
        exact Or.inr (Or.inl hs)
      · exact Or.inr (Or.inr hf)
  · refine hplain rfl (by simp [hstage]) ?_ (by simp [RequestStage.is_over])
    intro ℓ' hℓ'
    rw [hstage] at hℓ'
    rw [← Option.some.inj hℓ']
    exact hclosed
  · exact hplain rfl (by simp [hstage]) (by simp [hstage, RequestStage.lease])
      (by simp [RequestStage.is_over])
  · refine h.plain rfl rfl (Sublist.refl _) (fun f hf => Or.inl hf)
      (by simp [hstage, RequestStage.lease]) (by simp [RequestStage.is_over]) ?_
    intro f hf
    simp only [hfutures] at hf
    cases hf
  · exact hplain rfl (by simp [hstage]) (by simp [hstage, RequestStage.lease])
      (by simp [RequestStage.is_over])
  · refine hplain rfl (by simp [hstage]) (by simp [hstage, RequestStage.lease]) ?_
    intro _ ℓ hlease
    rw [hlease] at hclosed
    exact hclosed

end

theorem delegation_stage_plain (parent : CoordinationMessage) (invocation_id : String)
    (rest : List DelegationProposal) :
    (delegation_stage parent invocation_id rest).plain = true ∧
      (delegation_stage parent invocation_id rest).is_over = false := by
  rcases rest with _ | _
  · exact ⟨rfl, rfl⟩
  · exact ⟨rfl, rfl⟩

theorem process_outcome_plain (r : RoutingRequest) (m : CoordinationMessage)
    (outcome : InvocationOutcome) (hstage : r.stage = .routing) :
    (process_outcome r m outcome).stage.plain = true ∧
      (process_outcome r m outcome).stage.is_over = false := by
  unfold process_outcome
  split
  · rw [hstage]
    exact ⟨rfl, rfl⟩
  · exact ⟨rfl, rfl⟩
  · exact delegation_stage_plain m _ _

/-- A delegation is routed while no future uses the lease of the request. -/
theorem RequestLeases.delegated (h : RequestLeases s i r) {parent : CoordinationMessage}
    {invocation_id : String} {d : DelegationProposal} {rest : List DelegationProposal}
    (hstage : r.stage = .delegating parent invocation_id (d :: rest))
    (hlease : r'.lease = r.lease) (hfutures : r'.futures = r.futures)
    (hstage' : r'.stage = delegation_stage parent invocation_id rest) : RequestLeases s i r' := by
  obtain ⟨hplain, hover⟩ := delegation_stage_plain parent invocation_id rest
  refine h.plain hlease (hstage' ▸ hplain) ?_ ?_ (by simp [hstage, RequestStage.lease]) ?_ ?_
  · rw [hfutures]
  · exact fun f hf => Or.inl (hfutures ▸ hf)
  · rw [hstage', hover]
    exact fun hc => absurd hc Bool.false_ne_true
  · exact fun f hf hl => Or.inl (h.entry_done (by simp [hstage]) (hfutures ▸ hf) hl)

/-- A finished future is looked at. -/
theorem RequestLeases.process {s : RoutingState} {i : ℕ} {r : RoutingRequest}
    (h : RequestLeases s i r) (hstage : r.stage = .routing) {k : ℕ} {f : InvocationFuture}
    (hf : r.futures[k]? = some f) {outcome : InvocationOutcome} (hdone : f.stage = .done outcome) :
    RequestLeases s i
      (process_outcome { r with futures := r.futures.eraseIdx k } f.message outcome) := by
  obtain ⟨hlease, hfutures, -⟩ :=
    process_outcome_frame { r with futures := r.futures.eraseIdx k } f.message outcome
  obtain ⟨hplain, hover⟩ :=
    process_outcome_plain { r with futures := r.futures.eraseIdx k } f.message outcome hstage
  obtain ⟨hk, hfk⟩ := List.getElem?_eq_some_iff.mp hf
  refine h.plain hlease hplain ?_ ?_ (by simp [hstage, RequestStage.lease]) ?_ ?_
  · rw [hfutures]
    exact eraseIdx_sublist r.futures k
  · intro g hg
    obtain ⟨j, hj⟩ := getElem?_of_mem hg
    by_cases hjk : j = k
    · subst hjk
      obtain rfl := Option.some.inj (hf.symm.trans hj)
      exact Or.inr (by rw [hdone]; rfl)
    · rw [hfutures]
      exact Or.inl (mem_eraseIdx_iff_getElem?.mpr ⟨j, hjk, hj⟩)
  · rw [hover]
    exact fun hc => absurd hc Bool.false_ne_true
  · intro g hg hl
    rw [hfutures] at hg
    rcases h.entry_use g ((eraseIdx_sublist r.futures k).subset hg) hl with hd | ⟨-, hall, -⟩
    · exact Or.inl hd
    · -- `f` is the only future
      have hfg : f ∈ [g] := hall ▸ mem_of_getElem? hf
      rw [← mem_singleton.mp hfg]
      exact Or.inl (by rw [hdone]; rfl)

/-- The root is sent. -/
theorem RequestLeases.send (h : RequestLeases s i r) {root : CoordinationMessage}
    (hstage : r.stage = .sending root) :
    RequestLeases s i { r with
      messages := [root]
      stage := if r.lease = none then .routing else .checking root } := by
  have hbefore : r.stage.before_use = true := by rw [hstage]; rfl
  obtain ⟨hfutures, hsubmitted⟩ := h.unused hbefore
  by_cases hlease : r.lease = none
  · rw [if_pos hlease]
    refine h.plain rfl rfl (Sublist.refl _) (fun f hf => Or.inl hf)
      (by simp [hstage, RequestStage.lease]) (by simp [RequestStage.is_over]) ?_
    intro f hf
    simp only [hfutures] at hf
    cases hf
  rw [if_neg hlease]
  refine ⟨?_, ?_, by simp, h.future_agent, ?_, h.done_closed, fun _ => ⟨hfutures, hsubmitted⟩, ?_,
    by simp, ?_, by simp [RequestStage.is_over], ?_⟩
  · intro ℓ hℓ
    refine h.owned ℓ ?_
    simpa [RoutingRequest.taken, hstage, RequestStage.lease] using hℓ
  · rintro ℓ (⟨f, hf, huse⟩ | ⟨m, _, hs⟩ | ⟨_, hl, -⟩)
    · exact h.needed _ (.future f hf huse)
    · cases hs
    · exact h.needed _ (.entry _ hl hbefore)
  · exact h.futures_nodup
  · rintro root' hroot
    rw [RequestStage.checking.inj hroot]
  · exact fun f hf hl => Or.inl (h.entry_done (by simp [hstage]) hf hl)
  · intro ℓ l hl howner hopen
    rcases h.accounted ℓ l hl howner hopen with ⟨hown, -⟩ | hs | hf
    · exact Or.inl ⟨hown, rfl⟩
    · rw [hstage] at hs
      cases hs
    · exact Or.inr (Or.inr hf)

/-- The lease that was passed is for the root. -/
theorem RequestLeases.check {s : RoutingState} {i : ℕ} {r : RoutingRequest}
    (h : RequestLeases s i r) {root : CoordinationMessage} (hstage : r.stage = .checking root)
    {ℓ : ℕ} (hlease : r.lease = some ℓ) {l : Lease} (hl : s.leases[ℓ]? = some l)
    (hown : l.agent_id = root.target_agent_id) :
    RequestLeases s i { r with stage := .submitting root ℓ } := by
  have hbefore : r.stage.before_use = true := by rw [hstage]; rfl
  obtain ⟨hfutures, hsubmitted⟩ := h.unused hbefore
  refine ⟨?_, ?_, ?_, h.future_agent, ?_, h.done_closed, by simp [RequestStage.before_use], by simp,
    ?_, ?_, by simp [RequestStage.is_over], ?_⟩
  · intro ℓ' hℓ'
    refine h.owned ℓ' ?_
    rcases hℓ' with hmem | hentry
    · simp only [RoutingRequest.taken, RequestStage.lease, hfutures, map_nil,
        append_nil, toList_some, mem_singleton] at hmem
      exact Or.inr (hmem ▸ hlease)
    · exact Or.inr hentry
  · rintro ℓ' (⟨f, hf, huse⟩ | ⟨m, _, hs⟩ | ⟨_, -, hs⟩)
    · exact h.needed _ (.future f hf huse)
    · obtain ⟨rfl, rfl⟩ := RequestStage.submitting.inj hs
      exact h.needed _ (.entry _ hlease hbefore)
    · cases hs
  · intro m ℓ' hs
    obtain ⟨rfl, rfl⟩ := RequestStage.submitting.inj hs
    exact ⟨l, hl, hown⟩
  · simp [RoutingRequest.taken, RequestStage.lease, hfutures]
  · intro m ℓ' hs _
    obtain ⟨rfl, rfl⟩ := RequestStage.submitting.inj hs
    exact ⟨hfutures, h.checking root hstage, hsubmitted⟩
  · exact fun f hf hl' => Or.inl (h.entry_done (by simp [hstage]) hf hl')
  · intro ℓ' l' hl' howner hopen
    rcases h.accounted ℓ' l' hl' howner hopen with ⟨hown', -⟩ | hs | hf
    · exact Or.inl ⟨hown', rfl⟩
    · rw [hstage] at hs
      cases hs
    · exact Or.inr (Or.inr hf)

/-- The invocation is in the pool. -/
theorem RequestLeases.submit {s : RoutingState} {i : ℕ} {r : RoutingRequest}
    (h : RequestLeases s i r) {m : CoordinationMessage} {ℓ : ℕ}
    (hstage : r.stage = .submitting m ℓ) :
    RequestLeases s i { r with
      futures := r.futures ++ [{ message := m, lease := ℓ }]
      submitted := r.submitted ++ [m.message_id]
      stage := .routing } := by
  have hheld : ℓ ∈ r.taken := by
    simp [RoutingRequest.taken, hstage, RequestStage.lease]
  have hneeds : r.Needs ℓ := .submitting m ℓ hstage
  refine ⟨?_, ?_, by simp, ?_, ?_, ?_, by simp [RequestStage.before_use], by simp, by simp, ?_,
    by simp [RequestStage.is_over], ?_⟩
  · intro ℓ' hℓ'
    rcases hℓ' with hmem | hentry
    · refine h.owned ℓ' (Or.inl ?_)
      simp only [RoutingRequest.taken, RequestStage.lease, toList_none, nil_append,
        map_append, map_singleton, mem_append, mem_singleton] at hmem
      rcases hmem with hold | rfl
      · exact mem_append_right _ hold
      · exact hheld
    · exact h.owned ℓ' (Or.inr hentry)
  · rintro ℓ' (⟨f, hf, huse⟩ | ⟨m', _, hs⟩ | ⟨_, -, hs⟩)
    · rcases mem_append.mp hf with hold | hnew
      · exact h.needed _ (.future f hold huse)
      · rw [mem_singleton.mp hnew]
        exact h.needed ℓ hneeds
    · cases hs
    · cases hs
  · intro f hf
    rcases mem_append.mp hf with hold | hnew
    · exact h.future_agent f hold
    · rw [mem_singleton.mp hnew]
      exact h.submitting_agent m ℓ hstage
  · have hnodup := h.nodup
    simp only [RoutingRequest.taken, hstage, RequestStage.lease, toList_some,
      singleton_append, nodup_cons] at hnodup
    simp only [RoutingRequest.taken, RequestStage.lease, toList_none, nil_append,
      map_append, map_singleton, nodup_append]
    refine ⟨hnodup.2, nodup_singleton _, ?_⟩
    intro a ha b hb hab
    rw [mem_singleton.mp hb] at hab
    exact hnodup.1 (hab ▸ ha)
  · intro f hf hdone
    rcases mem_append.mp hf with hold | hnew
    · exact h.done_closed f hold hdone
    · rw [mem_singleton.mp hnew] at hdone
      cases hdone
  · intro f hf hl
    rcases mem_append.mp hf with hold | hnew
    · exact Or.inl (h.entry_done (by simp [hstage]) hold hl)
    · -- the root with the lease that was passed
      obtain rfl := mem_singleton.mp hnew
      obtain ⟨hfutures, hmessages, hsubmitted⟩ := h.entry_submit m ℓ hstage hl
      refine Or.inr ⟨rfl, ?_, ?_⟩
      · simp [hfutures]
      · simp [RoutingRequest.pending, hmessages, hsubmitted]
  · intro ℓ' l hl howner hopen
    rcases h.accounted ℓ' l hl howner hopen with ⟨hown, -⟩ | hs | ⟨f, hf, hfl⟩
    · exact Or.inl ⟨hown, rfl⟩
    · rw [hstage] at hs
      obtain rfl := Option.some.inj hs
      exact Or.inr (Or.inr ⟨_, mem_append_right _ mem_cons_self, rfl, rfl⟩)
    · exact Or.inr (Or.inr ⟨f, mem_append_left _ hf, hfl⟩)

/-- A move of a future keeps the leases of the futures. -/
theorem RoutingRequest.taken_set_future (hf : r.futures[k]? = some f) (stage : FutureStage) :
    (r.set_future k f stage).taken = r.taken := by
  rw [RoutingRequest.taken, RoutingRequest.map_set_future InvocationFuture.lease hf stage rfl]
  rfl

/-- A future moves. -/
theorem RequestLeases.future (h : RequestLeases s i r) (hf : r.futures[k]? = some f)
    {stage : FutureStage} (hmove : FutureMove config s k f a stage) :
    RequestLeases s i (r.set_future k f stage) := by
  obtain ⟨hk, hfk⟩ := List.getElem?_eq_some_iff.mp hf
  have hmem : f ∈ r.futures := mem_of_getElem? hf
  have hnot_done : f.stage.is_done = false := by
    rcases hmove with hstage | ⟨hstage, -⟩ | ⟨outcome, hstage, -⟩ <;> rw [hstage] <;> rfl
  have huse : stage.in_use = true → f.stage.in_use = true := by
    rcases hmove with hstage | ⟨hstage, -⟩ | ⟨outcome, hstage, -⟩
    · exact fun _ => by rw [hstage]; rfl
    · exact nofun
    · exact nofun
  have hdone : stage.is_done = true → s.is_closed f.lease = true := by
    rcases hmove with hstage | ⟨hstage, -⟩ | ⟨outcome, hstage, hclosed⟩
    · exact nofun
    · exact nofun
    · exact fun _ => hclosed
  have htaken := RoutingRequest.taken_set_future hf stage
  have hcases : ∀ g ∈ (r.set_future k f stage).futures, g ∈ r.futures ∨
      g = { f with stage := stage } := fun g hg => mem_or_eq_of_mem_set hg
  refine ⟨?_, ?_, h.submitting_agent, ?_, ?_, ?_, ?_, h.checking, ?_, ?_, h.over_closed, ?_⟩
  · intro ℓ hℓ
    rw [htaken] at hℓ
    exact h.owned ℓ hℓ
  · rintro ℓ (⟨g, hg, hguse⟩ | ⟨m, _, hs⟩ | ⟨_, hl, hs⟩)
    · rcases hcases g hg with hold | rfl
      · exact h.needed _ (.future g hold hguse)
      · exact h.needed _ (.future f hmem (huse hguse))
    · exact h.needed _ (.submitting m _ hs)
    · exact h.needed _ (.entry _ hl hs)
  · intro g hg
    rcases hcases g hg with hold | rfl
    · exact h.future_agent g hold
    · exact h.future_agent f hmem
  · rw [htaken]
    exact h.nodup
  · intro g hg hgdone
    rcases hcases g hg with hold | rfl
    · exact h.done_closed g hold hgdone
    · exact hdone hgdone
  · intro hs
    have hnil := (h.unused hs).1
    rw [hnil] at hmem
    cases hmem
  · intro m ℓ hs hl
    have hnil := (h.entry_submit m ℓ hs hl).1
    rw [hnil] at hmem
    cases hmem
  · intro g hg hl
    rcases hcases g hg with hold | rfl
    · rcases h.entry_use g hold hl with hgd | ⟨hrouting, hall, hpending⟩
      · exact Or.inl hgd
      · -- the only future is the one that moves
        have hfg : f = g := mem_singleton.mp (hall ▸ hmem)
        subst hfg
        have hset : (r.set_future k f stage).futures = [{ f with stage := stage }] := by
          have hk0 : k = 0 := by
            rw [hall] at hk
            simpa using hk
          subst hk0
          show r.futures.set 0 _ = _
          rw [hall]
          rfl
        rw [hset] at hg
        exact Or.inr ⟨hrouting, by rw [hset, ← mem_singleton.mp hg], hpending⟩
    · rcases h.entry_use f hmem hl with hfd | ⟨hrouting, hall, hpending⟩
      · rw [hnot_done] at hfd
        cases hfd
      · refine Or.inr ⟨hrouting, ?_, hpending⟩
        have hk0 : k = 0 := by
          rw [hall] at hk
          simpa using hk
        subst hk0
        show r.futures.set 0 _ = _
        rw [hall]
        rfl
  · intro ℓ l hl howner hopen
    rcases h.accounted ℓ l hl howner hopen with hown | hs | ⟨g, hg, hgl, hgdone⟩
    · exact Or.inl hown
    · exact Or.inr (Or.inl hs)
    · obtain ⟨j, hj⟩ := getElem?_of_mem hg
      by_cases hjk : j = k
      · subst hjk
        obtain rfl := Option.some.inj (hf.symm.trans hj)
        refine Or.inr (Or.inr ⟨{ f with stage := stage }, mem_set hk _, hgl, ?_⟩)
        by_contra hc
        have hclosed := hdone (by simpa using hc)
        rw [hgl] at hclosed
        exact not_closed_of_open hl hopen hclosed
      · refine Or.inr (Or.inr ⟨g, ?_, hgl, hgdone⟩)
        refine mem_of_getElem? (i := j) ?_
        show (r.futures.set k _)[j]? = some g
        rw [getElem?_set_ne (Ne.symm hjk), hj]

/-- A message is taken with a new lease. -/
theorem RequestLeases.take {s s' : RoutingState} {i : ℕ} {r : RoutingRequest}
    (h : RequestLeases s i r) (hstage : r.stage = .routing) (hpending : r.pending ≠ [])
    {m : CoordinationMessage} (hleases : s'.leases
      = s.leases ++ [{ agent_id := m.target_agent_id, owner := .request i }]) :
    RequestLeases s' i { r with stage := .submitting m s.leases.length } := by
  have hold : ∀ (ℓ : ℕ) (l : Lease), s.leases[ℓ]? = some l → s'.leases[ℓ]? = some l := by
    intro ℓ l hl
    obtain ⟨hlt, -⟩ := List.getElem?_eq_some_iff.mp hl
    rw [hleases, getElem?_append_left hlt, hl]
  have hnew : s'.leases[s.leases.length]?
      = some { agent_id := m.target_agent_id, owner := .request i } := by
    rw [hleases, getElem?_append_right (Nat.le_refl _), Nat.sub_self]
    rfl
  -- what the request had before is an older lease
  have hlt : ∀ ℓ, ℓ ∈ r.taken ∨ r.lease = some ℓ → ℓ < s.leases.length := by
    intro ℓ hℓ
    obtain ⟨l, hl, -⟩ := h.owned ℓ hℓ
    exact (List.getElem?_eq_some_iff.mp hl).1
  have htaken : r.taken = r.futures.map InvocationFuture.lease := by
    rw [RoutingRequest.taken, hstage]
    rfl
  refine ⟨?_, ?_, ?_, ?_, ?_, ?_, by simp [RequestStage.before_use], by simp, ?_, ?_,
    by simp [RequestStage.is_over], ?_⟩
  · intro ℓ hℓ
    by_cases heq : ℓ = s.leases.length
    · subst heq
      exact ⟨_, hnew, rfl⟩
    · have hown : ℓ ∈ r.taken ∨ r.lease = some ℓ := by
        rcases hℓ with hmem | hentry
        · simp only [RoutingRequest.taken, RequestStage.lease, toList_some,
            singleton_append, mem_cons] at hmem
          rw [htaken]
          exact Or.inl (hmem.resolve_left heq)
        · exact Or.inr hentry
      obtain ⟨l, hl, howner⟩ := h.owned ℓ hown
      exact ⟨l, hold ℓ l hl, howner⟩
  · rintro ℓ (⟨f, hf, huse⟩ | ⟨m', _, hs⟩ | ⟨_, -, hs⟩)
    · obtain ⟨l, hl, hopen⟩ := h.needed _ (.future f hf huse)
      exact ⟨l, hold _ l hl, hopen⟩
    · obtain ⟨rfl, rfl⟩ := RequestStage.submitting.inj hs
      exact ⟨_, hnew, rfl⟩
    · cases hs
  · intro m' ℓ hs
    obtain ⟨rfl, rfl⟩ := RequestStage.submitting.inj hs
    exact ⟨_, hnew, rfl⟩
  · intro f hf
    obtain ⟨l, hl, hagent⟩ := h.future_agent f hf
    exact ⟨l, hold _ l hl, hagent⟩
  · simp only [RoutingRequest.taken, RequestStage.lease, toList_some,
      singleton_append, nodup_cons]
    refine ⟨?_, h.futures_nodup⟩
    intro hmem
    exact Nat.lt_irrefl _ (hlt _ (Or.inl (htaken ▸ hmem)))
  · intro f hf hdone
    have hclosed := h.done_closed f hf hdone
    obtain ⟨l, hl, hs⟩ := (any_eq_true _ _).mp hclosed
    rw [RoutingState.is_closed, hold _ l hl]
    exact hs
  · intro m' ℓ hs hl
    obtain ⟨rfl, rfl⟩ := RequestStage.submitting.inj hs
    exact absurd (hlt _ (Or.inr hl)) (Nat.lt_irrefl _)
  · intro f hf hl
    rcases h.entry_use f hf hl with hdone | ⟨-, -, hnone⟩
    · exact Or.inl hdone
    · exact absurd hnone hpending
  · intro ℓ l hl howner hopen
    by_cases heq : ℓ = s.leases.length
    · subst heq
      exact Or.inr (Or.inl rfl)
    · have hlt' : ℓ < s.leases.length := by
        obtain ⟨hbound, -⟩ := List.getElem?_eq_some_iff.mp hl
        rw [hleases, length_append, length_singleton] at hbound
        omega
      rw [hleases, getElem?_append_left hlt'] at hl
      rcases h.accounted ℓ l hl howner hopen with ⟨hown, -⟩ | hs | hf
      · exact Or.inl ⟨hown, rfl⟩
      · rw [hstage] at hs
        cases hs
      · exact Or.inr (Or.inr hf)

/-! ### Closing -/

theorem RoutingRequest.Needs.held (h : r.Needs ℓ) : ℓ ∈ r.taken ∨ r.lease = some ℓ := by
  rcases h with ⟨f, hf, -⟩ | ⟨m, _, hstage⟩ | ⟨_, hlease, -⟩
  · exact Or.inl (mem_append_right _ (mem_map_of_mem hf))
  · refine Or.inl (mem_append_left _ ?_)
    rw [hstage]
    exact mem_singleton.mpr rfl
  · exact Or.inr hlease

/-- A lease belongs to one request. -/
theorem RequestLeases.same_owner {j : ℕ} {q : RoutingRequest} (hr : RequestLeases s i r)
    (hq : RequestLeases s j q) (hℓ : ℓ ∈ r.taken ∨ r.lease = some ℓ)
    (hℓ' : ℓ ∈ q.taken ∨ q.lease = some ℓ) : i = j := by
  obtain ⟨l, hl, howner⟩ := hr.owned ℓ hℓ
  obtain ⟨l', hl', howner'⟩ := hq.owned ℓ hℓ'
  obtain rfl := Option.some.inj (hl.symm.trans hl')
  exact LeaseOwner.request.inj (howner.symm.trans howner')

/-- Nobody closes a lease that a request relies on. -/
theorem not_needed_of_closer (h : ∀ i r, s.requests[i]? = some r → RequestLeases s i r)
    {closer : Closer} (hcloser : closer_lease s closer = some ℓ) (hl : s.leases[ℓ]? = some l)
    (hopen : l.stage = .opened) (hr : s.requests[i]? = some r) : ¬ r.Needs ℓ := by
  intro hneeds
  have hi := h i r hr
  rcases closer with ℓ' | j | ⟨j, k⟩ | j
  · -- a caller closes its own lease only
    simp only [closer_lease] at hcloser
    split at hcloser
    swap
    · cases hcloser
    rename_i l' hl'
    split at hcloser
    swap
    · cases hcloser
    rename_i hallowed
    obtain rfl := Option.some.inj hcloser
    obtain rfl := Option.some.inj (hl.symm.trans hl')
    obtain ⟨l'', hl'', howner⟩ := hi.owned _ hneeds.held
    obtain rfl := Option.some.inj (hl.symm.trans hl'')
    rcases hallowed with hcaller | hclosed
    · rw [howner] at hcaller
      cases hcaller
    · rw [hopen] at hclosed
      cases hclosed
  · simp only [closer_lease] at hcloser
    split at hcloser
    swap
    · cases hcloser
    rename_i q hq
    split at hcloser
    swap
    · cases hcloser
    rename_i ℓ' hstage
    obtain rfl := Option.some.inj hcloser
    have htaken : ℓ' ∈ q.taken := by
      simp [RoutingRequest.taken, hstage, RequestStage.lease]
    obtain rfl := hi.same_owner (h j q hq) hneeds.held (Or.inl htaken)
    obtain rfl := Option.some.inj (hr.symm.trans hq)
    have hnodup := hi.nodup
    simp only [RoutingRequest.taken, hstage, RequestStage.lease, toList_some,
      singleton_append, nodup_cons] at hnodup
    rcases hneeds with ⟨f, hf, -⟩ | ⟨m, _, hs⟩ | ⟨_, -, hs⟩
    · exact hnodup.1 (mem_map_of_mem hf)
    · rw [hstage] at hs
      cases hs
    · rw [hstage] at hs
      cases hs
  · simp only [closer_lease] at hcloser
    split at hcloser
    swap
    · cases hcloser
    rename_i q hq
    split at hcloser
    swap
    · cases hcloser
    rename_i f hf
    split at hcloser
    swap
    · cases hcloser
    rename_i outcome hstage
    obtain rfl := Option.some.inj hcloser
    have hmem : f ∈ q.futures := mem_of_getElem? hf
    have htaken : f.lease ∈ q.taken := mem_append_right _ (mem_map_of_mem hmem)
    obtain rfl := hi.same_owner (h j q hq) hneeds.held (Or.inl htaken)
    obtain rfl := Option.some.inj (hr.symm.trans hq)
    generalize hfl : f.lease = ℓ at hneeds
    rcases hneeds with ⟨g, hg, huse⟩ | ⟨m, _, hs⟩ | ⟨_, -, hs⟩
    · -- two futures have two leases
      obtain rfl := inj_on_of_nodup_map hi.futures_nodup hmem hg hfl
      rw [hstage] at huse
      cases huse
    · have hnodup := hi.nodup
      simp only [RoutingRequest.taken, hs, RequestStage.lease, toList_some,
        singleton_append, nodup_cons] at hnodup
      exact hnodup.1 (hfl ▸ mem_map_of_mem hmem)
    · rw [(hi.unused hs).1] at hmem
      cases hmem
  · simp only [closer_lease] at hcloser
    split at hcloser
    swap
    · cases hcloser
    rename_i q hq
    split at hcloser
    swap
    · cases hcloser
    rename_i raised hstage
    obtain rfl := hi.same_owner (h j q hq) hneeds.held (Or.inr hcloser)
    obtain rfl := Option.some.inj (hr.symm.trans hq)
    rcases hneeds with ⟨f, hf, huse⟩ | ⟨m, _, hs⟩ | ⟨_, -, hs⟩
    · -- the root is over when `coordinate` closes its lease
      have hdone := hi.entry_done (by simp [hstage]) hf hcloser
      cases hfs : f.stage <;> simp [hfs, FutureStage.in_use, FutureStage.is_done] at huse hdone
    · rw [hstage] at hs
      cases hs
    · rw [hstage] at hs
      cases hs

/-! ## The invariant -/

structure LeasesInv (config : RoutingConfig) (s : RoutingState) : Prop where
  budget : BudgetInv config s
  requests : ∀ i r, s.requests[i]? = some r → RequestLeases s i r
  owners : ∀ (ℓ : ℕ) (l : Lease) (i : ℕ), s.leases[ℓ]? = some l → l.owner = .request i →
    i < s.requests.length
  sending_known : ∀ r ∈ s.requests, ∀ root, r.stage = .sending root →
    root.target_agent_id ∈ config.graph.agents
  queued_known : ∀ m ∈ s.channel.messages, m.target_agent_id ∈ config.graph.agents

theorem BudgetInv.congr (h : BudgetInv config s) (hleases : s'.leases = s.leases)
    (hactive : s'.active = s.active) (hagents : s'.active_agents = s.active_agents)
    (hreleases : s'.releases = s.releases) :
    BudgetInv config s' where
  active_eq := by rw [hactive, hleases]; exact h.active_eq
  agent_eq := by rw [hagents, hleases]; exact h.agent_eq
  active_le := by rw [hactive]; exact h.active_le
  agent_le := by rw [hagents]; exact h.agent_le
  known := by rw [hleases]; exact h.known
  released_nodup := by rw [hreleases]; exact h.released_nodup
  released_iff := by
    intro ℓ
    rw [hreleases, h.released_iff, RoutingState.is_closed, RoutingState.is_closed, hleases]

section

variable (h : LeasesInv config s)
include h

/-- The rule for a step of request `i`. -/
theorem LeasesInv.put (hr : s.requests[i]? = some r)
    (hrequests : base.requests = s.requests) (hbudget : BudgetInv config base)
    (howners : ∀ (ℓ : ℕ) (l : Lease) (j : ℕ), base.leases[ℓ]? = some l → l.owner = .request j →
      j < s.requests.length) (hothers : ∀ j q, j ≠ i → LeaseFrame s base j q)
    (hself : RequestLeases base i r')
    (hsending : ∀ root, r'.stage = .sending root → root.target_agent_id ∈ config.graph.agents)
    (hqueued : ∀ m ∈ base.channel.messages, m.target_agent_id ∈ config.graph.agents) :
    LeasesInv config (base.put i r') := by
  obtain ⟨hlt, -⟩ := List.getElem?_eq_some_iff.mp hr
  have hsame : ∀ j q, LeaseFrame base (base.put i r') j q := fun j q => LeaseFrame.same rfl
  refine ⟨hbudget.congr rfl rfl rfl rfl, ?_, ?_, ?_, hqueued⟩
  · intro j q hq
    rcases getElem?_set_cases hq with ⟨rfl, rfl⟩ | ⟨hj, hq⟩
    · exact hself.frame (hsame j q)
    · rw [hrequests] at hq
      exact ((h.requests j q hq).frame (hothers j q hj)).frame (hsame j q)
  · intro ℓ l j hl howner
    show j < (base.requests.set i r').length
    rw [length_set, hrequests]
    exact howners ℓ l j hl howner
  · intro q hq root hstage
    change q ∈ base.requests.set i r' at hq
    rcases mem_or_eq_of_mem_set hq with hold | rfl
    · exact h.sending_known q (hrequests ▸ hold) root hstage
    · exact hsending root hstage

/-- A step of request `i` that leaves the leases alone. -/
theorem LeasesInv.put_same (hr : s.requests[i]? = some r)
    (hrequests : base.requests = s.requests) (hleases : base.leases = s.leases)
    (hactive : base.active = s.active) (hagents : base.active_agents = s.active_agents)
    (hreleases : base.releases = s.releases) (hself : RequestLeases s i r')
    (hsending : ∀ root, r'.stage = .sending root → root.target_agent_id ∈ config.graph.agents)
    (hqueued : ∀ m ∈ base.channel.messages, m.target_agent_id ∈ config.graph.agents) :
    LeasesInv config (base.put i r') := by
  refine h.put hr hrequests (h.budget.congr hleases hactive hagents hreleases) ?_
    (fun j q _ => LeaseFrame.same hleases) (hself.frame (LeaseFrame.same hleases))
    hsending hqueued
  rw [hleases]
  exact h.owners

/-- A step that is nobody's. -/
theorem LeasesInv.leases_only (hrequests : s'.requests = s.requests)
    (hchannel : s'.channel.messages = s.channel.messages) (hbudget : BudgetInv config s')
    (howners : ∀ (ℓ : ℕ) (l : Lease) (j : ℕ), s'.leases[ℓ]? = some l → l.owner = .request j →
      j < s.requests.length) (hframe : ∀ j q, s.requests[j]? = some q → LeaseFrame s s' j q) :
    LeasesInv config s' where
  budget := hbudget
  requests j q hq := by
    rw [hrequests] at hq
    exact (h.requests j q hq).frame (hframe j q hq)
  owners ℓ l j hl howner := by
    rw [hrequests]
    exact howners ℓ l j hl howner
  sending_known := by rw [hrequests]; exact h.sending_known
  queued_known := by rw [hchannel]; exact h.queued_known

/-- What a changed lease may say about its owner. -/
theorem LeasesInv.owners_set (hl : s.leases[ℓ]? = some l) (howner : l'.owner = l.owner) :
    ∀ (ℓ' : ℕ) (m : Lease) (j : ℕ), (s.leases.set ℓ l')[ℓ']? = some m → m.owner = .request j →
      j < s.requests.length := by
  intro ℓ' m j hm hj
  rcases getElem?_set_cases hm with ⟨rfl, rfl⟩ | ⟨-, hm⟩
  · exact h.owners ℓ' l j hl (howner ▸ hj)
  · exact h.owners ℓ' m j hm hj

/-- A new request owns nothing but the lease it was passed. -/
theorem LeasesInv.call {request : CoordinationRequest} {lease : Option ℕ}
    (hrequests : s'.requests = s.requests ++ [{ request := request, lease := lease }])
    (hchannel : s'.channel = s.channel) (hbudget : BudgetInv config s')
    (hframe : ∀ j q, j < s.requests.length → LeaseFrame s s' j q)
    (howned : ∀ ℓ, lease = some ℓ → ∃ l, s'.leases[ℓ]? = some l ∧
      l.owner = .request s.requests.length ∧ l.stage = .opened)
    (howner : ∀ (ℓ : ℕ) (l : Lease), s'.leases[ℓ]? = some l →
      l.owner = .request s.requests.length → lease = some ℓ)
    (howners : ∀ (ℓ : ℕ) (l : Lease) (j : ℕ), s'.leases[ℓ]? = some l → l.owner = .request j →
      j ≤ s.requests.length) : LeasesInv config s' where
  budget := hbudget
  requests j q hq := by
    rw [hrequests] at hq
    rcases getElem?_concat_cases hq with hq | ⟨rfl, rfl⟩
    · have hlt := (List.getElem?_eq_some_iff.mp hq).1
      exact (h.requests j q hq).frame (hframe j q hlt)
    · refine ⟨?_, ?_, by simp, by simp, nodup_nil, by simp, fun _ => ⟨rfl, rfl⟩, by simp,
        by simp, by simp, by simp [RequestStage.is_over], ?_⟩
      · intro ℓ hℓ
        rcases hℓ with hmem | hl
        · cases hmem
        · obtain ⟨l, hl', hown, -⟩ := howned ℓ hl
          exact ⟨l, hl', hown⟩
      · rintro ℓ (⟨f, hf, -⟩ | ⟨m, _, hs⟩ | ⟨_, hl, -⟩)
        · cases hf
        · cases hs
        · obtain ⟨l, hl', -, hopen⟩ := howned ℓ hl
          exact ⟨l, hl', hopen⟩
      · exact fun ℓ l hl hown _ => Or.inl ⟨howner ℓ l hl hown, rfl⟩
  owners ℓ l j hl hown := by
    rw [hrequests, length_append, length_singleton]
    have hle := howners ℓ l j hl hown
    omega
  sending_known q hq root hstage := by
    rw [hrequests] at hq
    rcases mem_append.mp hq with hold | hnew
    · exact h.sending_known q hold root hstage
    · rw [mem_singleton.mp hnew] at hstage
      cases hstage
  queued_known := by rw [hchannel]; exact h.queued_known

end

theorem leases_inv_step (hids : IdentityInv s) (h : LeasesInv config s) {e : RoutingEvent}
    (hs : RoutingStep config s e s') : LeasesInv config s' := by
  have hgraph := CoordinationGraph.build_ok config.accepted
  rcases hs with ⟨e, hidle, is_closing, is_closed⟩ | ⟨agent_id, hagent, havailable⟩ |
    ⟨closer, ℓ, hcloser, l, hl, hopen⟩ | ⟨ℓ, l, hl, hclosing⟩ | ⟨request⟩ |
    ⟨request, ℓ, l, hl, howner, hopen⟩ | ⟨i, r, hr, a, stage, hmove, sessions⟩ |
    ⟨i, r, hr, root, hstage, raised, channel, hsend⟩ |
    ⟨i, r, hr, root, hstage, ℓ, hlease, l, hl, hown, channel, hchannel⟩ |
    ⟨i, r, hr, hstage, m, channel, hreceive⟩ | ⟨i, r, hr, m, ℓ, hstage⟩ |
    ⟨i, r, hr, k, f, hf, a, stage, hmove⟩ | ⟨i, r, hr, hstage, k, f, hf, outcome, hdone⟩ |
    ⟨i, r, hr, parent, invocation_id, d, rest, hstage, made, raised, issue, hrefused⟩ |
    ⟨i, r, hr, parent, invocation_id, d, rest, hstage, made, raised, child, channel, haccepted⟩
  · exact h.leases_only rfl rfl (h.budget.congr rfl rfl rfl rfl) h.owners
      fun j q _ => LeaseFrame.same rfl
  · refine h.leases_only rfl rfl (h.budget.allocate hagent havailable .caller) ?_ fun j q _ =>
      LeaseFrame.append rfl (by simp)
    intro ℓ l j hl hj
    rcases mem_append.mp (mem_of_getElem? hl) with hold | hnew
    · obtain ⟨ℓ', hℓ'⟩ := getElem?_of_mem hold
      exact h.owners ℓ' l j hℓ' hj
    · rw [mem_singleton.mp hnew] at hj
      cases hj
  · have hstage : l.stage ≠ .closed := by
      rw [hopen]
      exact nofun
    refine h.leases_only rfl rfl ?_ (h.owners_set hl rfl) fun j q hq => ?_
    · exact h.budget.set hl { l with stage := .closing } rfl rfl hstage nofun
        rfl rfl rfl
    · refine LeaseFrame.set hl { l with stage := .closing } rfl rfl Iff.rfl
        (fun hc => absurd hc hstage) fun hneeds => ?_
      exact absurd hneeds (not_needed_of_closer h.requests hcloser hl hopen hq)
  · refine h.leases_only rfl rfl (h.budget.release hl hclosing) (h.owners_set hl rfl)
      fun j q _ => ?_
    refine LeaseFrame.set hl { l with stage := .closed } rfl rfl Iff.rfl (fun _ => rfl)
      fun _ hopen => ?_
    rw [hclosing] at hopen
    cases hopen
  · refine h.call rfl rfl (h.budget.congr rfl rfl rfl rfl) (fun j q _ => LeaseFrame.same rfl)
      (by simp) ?_ fun ℓ l j hl hj => Nat.le_of_lt (h.owners ℓ l j hl hj)
    exact fun ℓ l hl hown => absurd (h.owners ℓ l _ hl hown) (Nat.lt_irrefl _)
  · obtain ⟨hlt, -⟩ := List.getElem?_eq_some_iff.mp hl
    have hstage : l.stage ≠ .closed := by
      rw [hopen]
      exact nofun
    refine h.call rfl rfl ?_ (fun j q hj => ?_) ?_ ?_ ?_
    · exact h.budget.set hl { l with owner := .request s.requests.length } rfl rfl hstage hstage
        rfl rfl rfl
    · refine LeaseFrame.set hl { l with owner := .request s.requests.length } rfl rfl ?_ id
        fun _ => id
      simp only [howner, LeaseOwner.request.injEq, reduceCtorEq, iff_false]
      omega
    · rintro ℓ' hℓ'
      obtain rfl := Option.some.inj hℓ'
      exact ⟨_, getElem?_set_self hlt, rfl, hopen⟩
    · intro ℓ' l' hl' hown
      rcases getElem?_set_cases hl' with ⟨rfl, -⟩ | ⟨-, hl'⟩
      · rfl
      · exact absurd (h.owners ℓ' l' _ hl' hown) (Nat.lt_irrefl _)
    · intro ℓ' l' j hl' hown
      rcases getElem?_set_cases hl' with ⟨rfl, rfl⟩ | ⟨-, hl'⟩
      · rw [← LeaseOwner.request.inj hown]
      · exact Nat.le_of_lt (h.owners ℓ' l' j hl' hown)
  · refine h.put_same hr rfl rfl rfl rfl rfl ((h.requests i r hr).restage hmove) ?_ h.queued_known
    rintro root rfl
    rcases hmove with _ | ⟨-, entry, message_id, made, hentry⟩
    exact hgraph.entry_known hentry
  · refine h.put_same hr rfl rfl rfl rfl rfl ((h.requests i r hr).send hstage) ?_ ?_
    · intro root' hroot
      dsimp only at hroot
      split at hroot <;> cases hroot
    · obtain ⟨-, -, rfl⟩ := MessageChannel.send_ok hsend
      intro m hm
      rcases mem_append.mp hm with hold | hnew
      · exact h.queued_known m hold
      · rw [mem_singleton.mp hnew]
        exact h.sending_known r (mem_of_getElem? hr) root hstage
  · refine h.put_same hr rfl rfl rfl rfl rfl ((h.requests i r hr).check hstage hlease hl hown)
      (by simp) ?_
    subst hchannel
    intro m hm
    dsimp only at hm
    split at hm
    · rename_i received channel hreceive
      obtain ⟨-, -, rfl⟩ := MessageChannel.receive_some hreceive
      exact h.queued_known m (mem_of_mem_erase hm)
    · exact h.queued_known m hm
  · obtain ⟨hmem, hid, rfl⟩ := MessageChannel.receive_some hreceive
    -- the message is the pending one of that id, which may run
    obtain ⟨p, hp, hpid⟩ := mem_map.mp hid
    obtain ⟨hpending, havailable⟩ := mem_filter.mp hp
    have hpm : p = m := by
      refine hids.unique p m (Or.inr ⟨r, mem_of_getElem? hr, ?_⟩) (Or.inl hmem) hpid
      exact (mem_filter.mp hpending).1
    rw [hpm] at havailable
    have hknown := h.queued_known m hmem
    have hself : RequestLeases
        (({ s with channel := { s.channel with messages := s.channel.messages.erase m } } :
          RoutingState).allocate m.target_agent_id (.request i)) i
        { r with stage := .submitting m s.leases.length } :=
      (h.requests i r hr).take hstage (ne_nil_of_mem hpending) rfl
    refine h.put hr rfl ?_ ?_ ?_ hself (by simp) fun m' hm' =>
      h.queued_known m' (mem_of_mem_erase hm')
    · have hbudget : BudgetInv config
          { s with channel := { s.channel with messages := s.channel.messages.erase m } } :=
        h.budget.congr rfl rfl rfl rfl
      exact hbudget.allocate hknown havailable _
    · intro ℓ l j hl hj
      rcases mem_append.mp (mem_of_getElem? hl) with hold | hnew
      · obtain ⟨ℓ', hℓ'⟩ := getElem?_of_mem hold
        exact h.owners ℓ' l j hℓ' hj
      · rw [mem_singleton.mp hnew] at hj
        rw [← LeaseOwner.request.inj hj]
        exact (List.getElem?_eq_some_iff.mp hr).1
    · intro j q hj
      refine LeaseFrame.append rfl ?_
      exact fun heq => hj (LeaseOwner.request.inj heq).symm
  · exact h.put_same hr rfl rfl rfl rfl rfl ((h.requests i r hr).submit hstage) (by simp)
      h.queued_known
  · refine h.put_same hr rfl rfl rfl rfl rfl ((h.requests i r hr).future hf hmove) ?_ h.queued_known
    exact fun root hroot => h.sending_known r (mem_of_getElem? hr) root hroot
  · refine h.put_same hr rfl rfl rfl rfl rfl ((h.requests i r hr).process hstage hf hdone) ?_
      h.queued_known
    intro root hroot
    have hplain := (process_outcome_plain { r with futures := r.futures.eraseIdx k } f.message
      outcome hstage).1
    rw [hroot] at hplain
    cases hplain
  · refine h.put_same hr rfl rfl rfl rfl rfl ((h.requests i r hr).delegated hstage rfl rfl rfl) ?_
      h.queued_known
    intro root hroot
    have hplain := (delegation_stage_plain parent invocation_id rest).1
    change delegation_stage parent invocation_id rest = .sending root at hroot
    rw [hroot] at hplain
    cases hplain
  · obtain ⟨⟨message_id, rfl⟩, -, ⟨edge, hedge⟩, -, hsend⟩ := delegate_accepted haccepted
    refine h.put_same hr rfl rfl rfl rfl rfl ((h.requests i r hr).delegated hstage rfl rfl rfl) ?_ ?_
    · intro root hroot
      have hplain := (delegation_stage_plain parent invocation_id rest).1
      change delegation_stage parent invocation_id rest = .sending root at hroot
      rw [hroot] at hplain
      cases hplain
    · obtain ⟨-, -, rfl⟩ := MessageChannel.send_ok hsend
      obtain ⟨hmem, -, htarget⟩ := CoordinationGraph.authorize_ok hedge
      intro m hm
      rcases mem_append.mp hm with hold | hnew
      · exact h.queued_known m hold
      · rw [mem_singleton.mp hnew]
        show d.target_agent_id ∈ config.graph.agents
        rw [← htarget]
        exact hgraph.target_known edge hmem

theorem leases_inv (h : (routing_system config).Reachable s) : LeasesInv config s := by
  refine h.invariant ?_ fun s e s' hreach hinv hs =>
    leases_inv_step (identity_inv hreach) hinv (routing_step hs)
  rintro s rfl
  refine ⟨⟨rfl, fun _ => rfl, ?_, ?_, by simp, nodup_nil, ?_⟩, by simp, by simp, by simp,
    by simp⟩
  · exact Int.natCast_nonneg _
  · exact fun agent => Int.natCast_nonneg _
  · intro ℓ
    simp [RoutingState.is_closed]

/-! ## The execution budget -/

/-- The counters of the agents sum to the count of all open leases. -/
theorem sum_open_leases {agents : List String} {leases : List Lease}
    (hknown : ∀ l ∈ leases, l.agent_id ∈ agents) :
    ∑ agent ∈ agents.toFinset, (leases.countP (Lease.is_open_for agent) : ℤ)
      = leases.countP Lease.is_open := by
  induction leases with
  | nil => simp
  | cons l rest ih =>
    have hrest := ih fun l' hl' => hknown l' (mem_cons_of_mem l hl')
    have hmem : l.agent_id ∈ agents.toFinset :=
      mem_toFinset.mpr (hknown l mem_cons_self)
    -- the head is counted for its own agent only
    have hhead : ∑ agent ∈ agents.toFinset, (if l.is_open_for agent then (1 : ℤ) else 0)
        = if l.is_open then 1 else 0 := by
      rw [Finset.sum_eq_single_of_mem l.agent_id hmem]
      · simp [Lease.is_open_for]
      · intro agent _ hne
        simp [Lease.is_open_for, Ne.symm hne]
    simp only [countP_cons, Int.natCast_add, Finset.sum_add_distrib, hrest]
    congr 1
    simpa only [Nat.cast_ite, Nat.cast_one, Nat.cast_zero] using hhead

/-- What the budget of a coordination runtime guarantees. -/
structure BudgetContract (config : RoutingConfig) (s : RoutingState) : Prop where
  active_eq : s.active = s.leases.countP Lease.is_open
  active_le : s.active ≤ config.max_concurrent_invocations
  agent_eq : ∀ agent, s.active_agents agent = s.leases.countP (Lease.is_open_for agent)
  agent_le : ∀ agent, s.active_agents agent ≤ config.agent_limits agent
  agents_sum : ∑ agent ∈ config.graph.agents.toFinset, s.active_agents agent = s.active
  running_open : ∀ (i : ℕ) (r : RoutingRequest) (f : InvocationFuture), s.requests[i]? = some r →
    f ∈ r.futures → f.stage = .running → ∃ l, s.leases[f.lease]? = some l ∧ l.is_open = true ∧
      l.agent_id = f.message.target_agent_id
  /-- Two running invocations hold two leases. -/
  running_apart : ∀ (i j : ℕ) (r q : RoutingRequest) (f g : InvocationFuture),
    s.requests[i]? = some r → s.requests[j]? = some q → f ∈ r.futures → g ∈ q.futures →
    f.lease = g.lease → i = j ∧ f = g
  released_once : s.releases.Nodup
  released_iff : ∀ ℓ, ℓ ∈ s.releases ↔ s.is_closed ℓ = true
  /-- An open lease is with the caller that reserved it, or somebody of one request
  is going to close it. -/
  open_accounted : ∀ (ℓ : ℕ) (l : Lease), s.leases[ℓ]? = some l → l.is_open = true →
    l.owner = .caller ∨
      ∃ (i : ℕ) (r : RoutingRequest), s.requests[i]? = some r ∧ r.Accounts ℓ
  /-- Who is about to close a lease can, and so can who has set its flag. -/
  closer_enabled : ∀ closer ℓ, closer_lease s closer = some ℓ → (s.leases[ℓ]?).isSome →
    ((routing_system config).step s (.close closer)).isSome
  release_enabled : ∀ (ℓ : ℕ) (l : Lease), s.leases[ℓ]? = some l → l.stage = .closing →
    ((routing_system config).step s (.release ℓ)).isSome
  done_closed : ∀ (i : ℕ) (r : RoutingRequest) (f : InvocationFuture), s.requests[i]? = some r →
    f ∈ r.futures → f.stage.is_done = true → s.is_closed f.lease = true
  over_closed : ∀ (i : ℕ) (r : RoutingRequest) (ℓ : ℕ), s.requests[i]? = some r →
    r.stage.is_over = true → r.lease = some ℓ → s.is_closed ℓ = true

theorem budget_contract {config : RoutingConfig} {s : RoutingState}
    (h : (routing_system config).Reachable s) : BudgetContract config s := by
  have hinv := leases_inv h
  refine ⟨hinv.budget.active_eq, hinv.budget.active_le, hinv.budget.agent_eq,
    hinv.budget.agent_le, ?_, ?_, ?_, hinv.budget.released_nodup, hinv.budget.released_iff, ?_, ?_,
    ?_, fun i r f hr => (hinv.requests i r hr).done_closed f,
    fun i r ℓ hr => (hinv.requests i r hr).over_closed ℓ⟩
  · rw [hinv.budget.active_eq, ← sum_open_leases hinv.budget.known]
    exact Finset.sum_congr rfl fun agent _ => hinv.budget.agent_eq agent
  · intro i r f hr hf hrunning
    have hreq := hinv.requests i r hr
    obtain ⟨l, hl, hopen⟩ := hreq.needed f.lease (.future f hf (by rw [hrunning]; rfl))
    obtain ⟨l', hl', hagent⟩ := hreq.future_agent f hf
    obtain rfl := Option.some.inj (hl.symm.trans hl')
    exact ⟨l, hl, by simp [Lease.is_open, hopen], hagent⟩
  · intro i j r q f g hr hq hf hg hfg
    have hreq := hinv.requests i r hr
    have hf' : f.lease ∈ r.taken := mem_append_right _ (mem_map_of_mem hf)
    have hg' : g.lease ∈ q.taken := mem_append_right _ (mem_map_of_mem hg)
    obtain rfl := hreq.same_owner (hinv.requests j q hq) (Or.inl hf') (Or.inl (hfg ▸ hg'))
    obtain rfl := Option.some.inj (hr.symm.trans hq)
    exact ⟨rfl, inj_on_of_nodup_map hreq.futures_nodup hf hg hfg⟩
  · intro ℓ l hl hopen
    rcases howner : l.owner with _ | i
    · exact Or.inl rfl
    · have hlt := hinv.owners ℓ l i hl howner
      have hr : s.requests[i]? = some s.requests[i] := getElem?_eq_getElem hlt
      exact Or.inr ⟨i, _, hr, (hinv.requests i _ hr).accounted ℓ l hl howner hopen⟩
  · intro closer ℓ hcloser hsome
    obtain ⟨l, hl⟩ := isSome_iff_exists.mp hsome
    simp [routing_system, hcloser, hl]
  · intro ℓ l hl hclosing
    simp [routing_system, hl, hclosing]

/-! A lease is reserved, passed and used by the root, whose invocation raises; another
one is reserved, closed twice and never passed. -/

/-- Two peers. -/
def peers : CoordinationPlan where
  agent_ids := ["a", "b"]
  mode := .distributed
  edges :=
    [{ source := "a", target := "b", relationship := .peer },
      { source := "b", target := "a", relationship := .peer }]

/-- The graph of two peers. -/
def peer_graph : CoordinationGraph where
  mode := .distributed
  agents := ["a", "b"]
  edges :=
    [{ source := "a", target := "b", relationship := .peer },
      { source := "b", target := "a", relationship := .peer }]

theorem peers_accepted : CoordinationGraph.build peers = .ok peer_graph := by decide

/-- At most two invocations, one for each agent. -/
def peer_config : RoutingConfig where
  plan := peers
  graph := peer_graph
  accepted := peers_accepted
  max_concurrent_invocations := 2
  max_positive := Nat.two_pos
  agent_limits _ := 1
  limits_positive _ := Nat.one_pos
  channel_capacity := 2

/-- An intent for the first peer. -/
def peer_request : CoordinationRequest where
  run_id := "run"
  requested_agent_id := "a"
  intent := "restore"
  correlation_id := "event-1"

/-- The root fails with the lease it was passed. -/
def failing_root : List RoutingEvent :=
  [.reserve "a", .reserve "b", .coordinate peer_request (some 0),
    .request 0 (.enter (some "message-1")), .request 0 (.send_root none), .request 0 .check_lease,
    .request 0 (.submit true), .request 0 (.start 0),
    .close (.caller 1), .release 1, .close (.caller 1),
    .request 0 (.finish 0 (.raises { message := some (.text "timeout"), type_name := "TimeoutError" })),
    .close (.future 0 0), .release 0, .request 0 (.settle 0), .request 0 (.process 0),
    .request 0 .complete, .request 0 .exit_session, .close (.entry 0), .request 0 .finish_call]

end MininetAi
