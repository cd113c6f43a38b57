/-
What the commits of one coordination runtime guarantee: serializability in commit
order, and what a shared-state failure behind successful actions can still be.

The argument has three parts. The monitor keeps the reservations of the decisions
in progress disjoint, so while an invocation is inside `decision` nobody else
writes what it reads or writes; a version check that has passed there keeps
passing. An invocation whose reservation was cleared has no action that succeeds,
so it writes nothing, and the first part is not needed for it. And a version that
is still the one of the snapshot means that the entry is, because versions only
grow; so every commit sees, on its keys, the state its predecessors left.
-/
import MininetAi.Coordination.CommitSystem

set_option autoImplicit false

namespace MininetAi

open Function

open List

open ActionAdmission

variable {I R : Type}

/-! ## Keys and places -/

/-- The place of a key in the store. -/
def key_place (k : StateKey) : String × String :=
  (namespace_name k.run_id (k.deployment.getD "") k.scope, k.name)

theorem key_place_state_key (context : AgentContext) (scope : SharedScope) (name : String) :
    key_place (state_key context scope name)
      = (namespace_name context.run_id context.deployment scope, name) := by
  cases scope <;> rfl

/-- Within a run two keys share a place only when they are one key. -/
theorem state_key_eq_of_place {context context' : AgentContext}
    (hrun : context.run_id = context'.run_id) {scope scope' : SharedScope} {name name' : String}
    (h : (namespace_name context.run_id context.deployment scope, name)
      = (namespace_name context'.run_id context'.deployment scope', name')) :
    state_key context scope name = state_key context' scope' name' := by
  obtain ⟨hns, hname⟩ := Prod.ext_iff.mp h
  have hns' : namespace_name context.run_id context.deployment scope
      = namespace_name context.run_id context'.deployment scope' := by
    rw [hrun]; rw [hrun] at hns; exact hns
  obtain ⟨hscope, hdep⟩ := namespace_name_inj hns'
  have hname' : name = name' := hname
  subst hscope hname'
  unfold state_key
  rw [hrun]
  by_cases hd : scope = .deployment
  · rw [if_pos hd, if_pos hd, hdep hd]
  · rw [if_neg hd, if_neg hd]

/-! ## Invariants -/

/-- The reservation an invocation has made. -/
def commit_reservation (i : I) (inv : CommitInvocation R) (f : Finishing) : CommitReservation I :=
  reservation i inv.prepared.context inv.prepared.response
    (kept_candidates f.rejections f.arbitration.ordered)

/-- Its reads and writes have not been cleared. -/
def Uncleared (inv : CommitInvocation R) (f : Finishing) : Prop :=
  inv.prepared.response.proposals = [] ∨ kept_candidates f.rejections f.arbitration.ordered ≠ []

variable {i : I} {inv : CommitInvocation R} {f : Finishing} {id : SharedScope × String}

/-- An uncleared reservation covers the keys of the response. -/
theorem mem_reservation (h : Uncleared inv f) (hid : id ∈ identities inv.prepared.response) :
    state_key inv.prepared.context id.1 id.2 ∈
      (commit_reservation i inv f).reads ∪ (commit_reservation i inv f).writes := by
  have hno : ¬ (inv.prepared.response.proposals ≠ [] ∧
      kept_candidates f.rejections f.arbitration.ordered = []) := by
    rintro ⟨hprop, hkept⟩
    rcases h with h | h
    · exact hprop h
    · exact h hkept
  simp only [commit_reservation, reservation, if_neg hno, Finset.mem_union, mem_toFinset]
  rcases mem_append.mp hid with hr | hu
  · obtain ⟨r, hmem, rfl⟩ := mem_map.mp hr
    exact Or.inl (mem_map_of_mem hmem)
  · obtain ⟨u, hmem, rfl⟩ := mem_map.mp hu
    exact Or.inr (mem_map_of_mem hmem)

theorem mem_writes (h : Uncleared inv f) {u : SharedStateUpdate}
    (hu : u ∈ inv.prepared.response.shared_state_updates) :
    state_key inv.prepared.context u.scope u.key ∈ (commit_reservation i inv f).writes := by
  have hno : ¬ (inv.prepared.response.proposals ≠ [] ∧
      kept_candidates f.rejections f.arbitration.ordered = []) := by
    rintro ⟨hprop, hkept⟩
    rcases h with h | h
    · exact hprop h
    · exact h hkept
  simp only [commit_reservation, reservation, if_neg hno, mem_toFinset]
  exact mem_map_of_mem hu

section Invariants

variable (config : CommitConfig)

/-- The version check of an invocation passes now. -/
def Fresh (s : CommitState I R) (inv : CommitInvocation R) : Prop :=
  check_versions config inv s.store none = .ok ()

/-- The monitor knows the invocation with its reservation. -/
def Linked (s : CommitState I R) (i : I) (inv : CommitInvocation R) (f : Finishing) : Prop :=
  ∃ p, s.coordination.participant i = some p ∧ p.reservation = commit_reservation i inv f

/-- The reservation is in commitment. -/
def Holding (s : CommitState I R) (i : I) (inv : CommitInvocation R) (f : Finishing) : Prop :=
  ∃ p, s.coordination.participant i = some p ∧ p.reservation = commit_reservation i inv f ∧
    p.committing_entry.isSome

/-- What holds of the local variables of `_finish_prepared`: without a passed
version check no action has been executed or has succeeded, and after one the
check still passes. -/
structure FinishingInv (s : CommitState I R) (i : I) (inv : CommitInvocation R) (f : Finishing) :
    Prop where
  linked : Linked s i inv f
  succeeded : ∀ id r, f.loop.action_results.lookup id = some r → r.status = .succeeded →
    f.validated = true
  executed : f.loop.executed ≠ [] → f.validated = true
  kept : f.validated = true → kept_candidates f.rejections f.arbitration.ordered ≠ []
  held : f.validated = true → Holding s i inv f
  fresh : f.validated = true → Fresh config s inv

/-- What holds at each stage. -/
def StageInv (s : CommitState I R) (i : I) (inv : CommitInvocation R) (stage : CommitStage) : Prop :=
  match stage with
  | .validating pass _ => s.coordination.participant i = none ∧
      ∀ id r, pass.action_results.lookup id = some r → r.status ≠ .succeeded
  | .finishing f rest => FinishingInv config s i inv f ∧ ∀ c ∈ rest, c ∈ f.arbitration.ordered
  | .admitting f c rest => FinishingInv config s i inv f ∧ f.validated = true ∧
      ∀ d ∈ c :: rest, d ∈ f.arbitration.ordered
  | .completing f results => FinishingInv config s i inv f ∧ Holding s i inv f ∧
      (all_succeeded results = true → inv.prepared.response.proposals ≠ [] → f.validated = true)
  | .applying f results => FinishingInv config s i inv f ∧ Holding s i inv f ∧
      (all_succeeded results = true → inv.prepared.response.proposals ≠ [] → f.validated = true) ∧
      Uncleared inv f ∧ Fresh config s inv
  | .leaving _ | .left _ => True

/-- The context of an invocation and what it saw: some earlier state of each cell
it may read. -/
structure SnapshotInv (s : CommitState I R) (inv : CommitInvocation R) : Prop where
  run_id : inv.prepared.context.run_id = config.run_id
  deployment : inv.prepared.context.deployment = inv.agent.deployment
  seen : ∀ scope, ((config.access inv).limits scope).isSome → ∀ key, ∃ row : Option StoredEntry,
    (inv.prepared.context.shared_state.scope scope).lookup key = (stored_cell row).value ∧
      (stored_cell row).Later (stored_cell (s.store.lookup
        (namespace_name config.run_id inv.agent.deployment scope, key)))

/-! ## Serial runs of commits -/

/-- What a snapshot of the store shows at a key. -/
def view (entries : Entries) (k : StateKey) : Option SharedStateEntry :=
  (stored_cell (entries.lookup (key_place k))).value

/-- A commit as a transaction: it rests on the keys its response reads or writes,
it saw its snapshot, and it applies its updates. -/
def CommitRecord.transaction (r : CommitRecord) :
    Transaction Entries StateKey (Option SharedStateEntry) where
  footprint := { k | ∃ id ∈ identities r.prepared.response,
    k = state_key r.prepared.context id.1 id.2 }
  seen k := (r.prepared.context.shared_state.scope k.scope).lookup k.name
  commit entries := (apply_updates r.access entries
    (versioned r.prepared.context r.prepared.response.shared_state_updates)).toOption.map Prod.fst

variable [DecidableEq I] [DecidableEq R]

/-- The invariant of the commit system. -/
structure CommitInv (s : CommitState I R) : Prop where
  coordination : (admission_system config.policy).Reachable s.coordination
  strangers : ∀ i, s.invocation i = none → s.coordination.participant i = none
  stages : ∀ i inv, s.invocation i = some inv → StageInv config s i inv inv.stage
  snapshots : ∀ i inv, s.invocation i = some inv → SnapshotInv config s inv
  serial : Serial view s.initial (s.commits.map CommitRecord.transaction) s.store

/-! ## Other invocations' steps -/

/-- What a step of another invocation leaves to this one. -/
structure Undisturbed (s t : CommitState I R) (i : I) (inv : CommitInvocation R) : Prop where
  keeps : Keeps s.coordination t.coordination i
  stranger : s.coordination.participant i = none → t.coordination.participant i = none
  fresh : ∀ f, Holding s i inv f → Uncleared inv f → Fresh config s inv → Fresh config t inv

variable {config}

variable {t : CommitState I R} {i : I} {inv : CommitInvocation R} {f : Finishing}
  {stage : CommitStage} {a : AdmissionState I R} {changes : List SharedStateChange}
  {s : CommitState I R}

section

omit [DecidableEq I] [DecidableEq R]

theorem Keeps.linked (h : Keeps s.coordination t.coordination i)
    (hl : Linked s i inv f) : Linked t i inv f := by
  obtain ⟨p, hp, hres⟩ := hl
  obtain ⟨q, hq, -, hres', -⟩ := h p hp
  exact ⟨q, hq, hres'.trans hres⟩

theorem Keeps.holding (h : Keeps s.coordination t.coordination i)
    (hl : Holding s i inv f) : Holding t i inv f := by
  obtain ⟨p, hp, hres, hin⟩ := hl
  obtain ⟨q, hq, -, hres', hin'⟩ := h p hp
  exact ⟨q, hq, hres'.trans hres, hin' hin⟩

theorem FinishingInv.undisturbed (h : FinishingInv config s i inv f)
    (hu : Undisturbed config s t i inv) : FinishingInv config t i inv f where
  linked := hu.keeps.linked h.linked
  succeeded := h.succeeded
  executed := h.executed
  kept := h.kept
  held hv := hu.keeps.holding (h.held hv)
  fresh hv := hu.fresh f (h.held hv) (Or.inr (h.kept hv)) (h.fresh hv)

/-- The stage invariant survives what others do. -/
theorem StageInv.undisturbed (h : StageInv config s i inv stage)
    (hu : Undisturbed config s t i inv) : StageInv config t i inv stage := by
  cases stage with
  | validating pass rest => exact ⟨hu.stranger h.1, h.2⟩
  | finishing f rest => exact ⟨h.1.undisturbed hu, h.2⟩
  | admitting f c rest => exact ⟨h.1.undisturbed hu, h.2⟩
  | completing f results => exact ⟨h.1.undisturbed hu, hu.keeps.holding h.2.1, h.2.2⟩
  | applying f results =>
    obtain ⟨hfin, hhold, hval, hunc, hfresh⟩ := h
    exact ⟨hfin.undisturbed hu, hu.keeps.holding hhold, hval, hunc,
      hu.fresh f hhold hunc hfresh⟩
  | leaving completion => trivial
  | left completion => trivial

end

/-! ## The loop of an invocation -/

/-- The loop has gone on without a new success and without executing anything. -/
structure NoSuccess (l l' : FinishLoop) : Prop where
  results : ∀ id r, l'.action_results.lookup id = some r → r.status = .succeeded →
    ∃ r', l.action_results.lookup id = some r' ∧ r'.status = .succeeded
  executed : l'.executed = l.executed

/-- A rejection is entered under the id of a candidate. -/
theorem lookup_insert_rejection {results : ActionResults} {id id' : String} {r r' : ActionResult}
    (hr : r.status ≠ .succeeded) (h : (results.insert id r).lookup id' = some r')
    (hr' : r'.status = .succeeded) : results.lookup id' = some r' := by
  by_cases hid : id' = id
  · subst hid
    rw [AList.lookup_insert] at h
    cases h
    exact absurd hr' hr
  · rwa [AList.lookup_insert_ne hid] at h

theorem no_success_stop (l : FinishLoop) (prepared : PreparedAgentInvocation)
    (c : ArbitrationCandidate) : NoSuccess l (l.stop prepared c) where
  results _ r h hr := ⟨r, lookup_insert_rejection (by simp [reject]) h hr, hr⟩
  executed := rfl

theorem no_success_conflict (l : FinishLoop) (prepared : PreparedAgentInvocation)
    (c winner : ArbitrationCandidate) : NoSuccess l (l.conflict prepared c winner) where
  results _ r h hr :=
    ⟨r, lookup_insert_rejection (by simp [conflict_rejection, reject]) h hr, hr⟩
  executed := rfl

theorem no_success_invalid (l : FinishLoop) (prepared : PreparedAgentInvocation)
    (c : ArbitrationCandidate) {rejection : ActionResult} (hrej : rejection.status ≠ .succeeded) :
    NoSuccess l (l.invalid prepared c rejection) where
  results _ r h hr := ⟨r, lookup_insert_rejection hrej h hr, hr⟩
  executed := rfl

theorem no_success_drop (l : FinishLoop) (prepared : PreparedAgentInvocation)
    (arbitration : ArbitrationPlan) : NoSuccess l (l.drop_rejected prepared arbitration) where
  results id r h hr := by
    refine ⟨r, ?_, hr⟩
    have hfold : ∀ (cs : List ArbitrationCandidate) (results : ActionResults),
        (cs.foldl (fun results c =>
          if c.candidate_id ∈ arbitration.rejected then
            results.insert c.candidate_id (conflict_rejection prepared c)
          else results) results).lookup id = some r → results.lookup id = some r := by
      intro cs
      induction cs with
      | nil => exact fun _ h => h
      | cons c cs ih =>
        intro results h
        have hnext := ih _ h
        by_cases hrej : c.candidate_id ∈ arbitration.rejected
        · simp only [if_pos hrej] at hnext
          exact lookup_insert_rejection (by simp [conflict_rejection, reject]) hnext hr
        · simp only [if_neg hrej] at hnext
          exact hnext
    exact hfold _ _ h
  executed := rfl

omit [DecidableEq I] [DecidableEq R] in
/-- The loop invariant after something that was no success. -/
theorem FinishingInv.no_success {s : CommitState I R} (h : FinishingInv config s i inv f)
    {l : FinishLoop} (hl : NoSuccess f.loop l) : FinishingInv config s i inv { f with loop := l } where
  linked := h.linked
  succeeded id r hr hs := by
    obtain ⟨r', hr', hs'⟩ := hl.results id r hr hs
    exact h.succeeded id r' hr' hs'
  executed he := h.executed (by rw [← hl.executed]; exact he)
  kept := h.kept
  held := h.held
  fresh := h.fresh

omit [DecidableEq I] [DecidableEq R] in
/-- After a version check has passed inside `decision` anything may follow in the
loop. -/
theorem FinishingInv.validated {s : CommitState I R} (h : FinishingInv config s i inv f)
    (hkept : kept_candidates f.rejections f.arbitration.ordered ≠ []) (hheld : Holding s i inv f)
    (hfresh : Fresh config s inv) (l : FinishLoop) :
    FinishingInv config s i inv { f with loop := l, validated := true } where
  linked := h.linked
  succeeded _ _ _ _ := rfl
  executed _ := rfl
  kept _ := hkept
  held _ := hheld
  fresh _ := hfresh

variable {storage : Option SharedStateError} {store : Entries} {error : SharedStateError}
  {inv' : CommitInvocation R} {results : List ActionResult} {e : AdmissionEvent I R}
  {c : ArbitrationCandidate}

omit [DecidableEq I] [DecidableEq R] in
/-- A check that passes has read the store. -/
theorem fresh_of_check {s : CommitState I R}
    (h : check_versions config inv s.store storage = .ok ()) : Fresh config s inv := by
  cases storage with
  | none => exact h
  | some e => cases h

/-- A candidate that is not refused on entry is kept. -/
theorem kept_of_lookup {rejections : List (String × ArbitrationCandidate)}
    {candidates : List ArbitrationCandidate} (hc : c ∈ candidates)
    (h : rejections.lookup c.candidate_id = none) : kept_candidates rejections candidates ≠ [] := by
  refine ne_nil_of_mem (a := c) ?_
  rw [kept_candidates, mem_filter]
  exact ⟨hc, by rw [h]; rfl⟩

theorem results_of_ordered {prepared : PreparedAgentInvocation} {results : ActionResults}
    {rs : List ActionResult} (h : ordered_results prepared results = some rs)
    (hne : prepared.response.proposals ≠ []) : ∃ r ∈ rs, ∃ id, results.lookup id = some r := by
  unfold ordered_results at h
  cases hps : prepared.response.proposals with
  | nil => exact absurd hps hne
  | cons p ps =>
    rw [hps, ← mapM'_eq_mapM, mapM'_cons] at h
    obtain ⟨r, hr, h⟩ := Option.bind_eq_some_iff.mp h
    obtain ⟨rest, hrest, h⟩ := Option.bind_eq_some_iff.mp h
    cases h
    exact ⟨r, mem_cons_self, _, hr⟩

/-! ## Own steps -/

section Own

variable {s : CommitState I R} {i : I} {inv : CommitInvocation R}

variable {f : Finishing}

section

omit [DecidableEq I] [DecidableEq R]

/-- In the body of `decision` the reservation is held. -/
theorem holding_of_deciding (h : Linked s i inv f) (hbody : s.admission_stage i = some .deciding) :
    Holding s i inv f := by
  obtain ⟨p, hp, hres⟩ := h
  refine ⟨p, hp, hres, ?_⟩
  simp only [CommitState.admission_stage, hp, Option.map_some, Option.some.injEq] at hbody
  simp [Participant.committing_entry, hbody]

theorem stage_inv_candidate {rest : List ArbitrationCandidate}
    (h : FinishingInv config s i inv f) (hrest : ∀ d ∈ c :: rest, d ∈ f.arbitration.ordered)
    (hbody : s.admission_stage i = some .deciding) (engine : Option EngineRejection)
    (storage : Option SharedStateError) :
    StageInv config s i inv (candidate_stage config inv s.store f c rest engine storage) := by
  have hrest' : ∀ d ∈ rest, d ∈ f.arbitration.ordered :=
    fun d hd => hrest d (mem_cons_of_mem c hd)
  unfold candidate_stage
  split
  · exact ⟨h.no_success (no_success_stop f.loop inv.prepared c), hrest'⟩
  · split
    · rename_i winner hwinner
      exact ⟨h.no_success (no_success_conflict f.loop inv.prepared c winner), hrest'⟩
    · rename_i hnone
      have hkept := kept_of_lookup (hrest c mem_cons_self) hnone
      have hheld := holding_of_deciding h.linked hbody
      -- whether or not the engine objects, a passed version check is recorded
      have hfin : ∀ l, (l = f.loop ∨ NoSuccess f.loop l) → FinishingInv config s i inv
          { f with
            loop := l
            validated := f.validated || (check_versions config inv s.store storage).isOk } := by
        intro l hl
        cases hcheck : check_versions config inv s.store storage with
        | ok u =>
          have hfresh : Fresh config s inv := fresh_of_check hcheck
          simp only [Except.isOk, Except.toBool, Bool.or_true]
          exact h.validated hkept hheld hfresh l
        | error e =>
          simp only [Except.isOk, Except.toBool, Bool.or_false]
          rcases hl with rfl | hl
          · exact h
          · exact h.no_success hl
      split
      · rename_i r hr
        exact ⟨hfin _ (Or.inr (no_success_invalid f.loop inv.prepared c
          (validate_not_succeeded hr))), hrest'⟩
      · rename_i hpass
        have hcheck : check_versions config inv s.store storage = .ok () := check_of_validate hpass
        refine ⟨hfin _ (Or.inl rfl), ?_, hrest⟩
        simp [hcheck, Except.isOk, Except.toBool]

theorem stage_inv_finish (h : FinishingInv config s i inv f)
    (hbody : s.admission_stage i = some .deciding) :
    StageInv config s i inv (finish_stage inv f) := by
  have hdrop := h.no_success (no_success_drop f.loop inv.prepared f.arbitration)
  unfold finish_stage
  simp only
  split
  · rename_i results hresults
    split
    · refine ⟨hdrop, holding_of_deciding h.linked hbody, ?_⟩
      intro hall hne
      obtain ⟨r, hr, id, hid⟩ := results_of_ordered hresults hne
      have hsucc := all_eq_true.mp hall r hr
      exact hdrop.succeeded id r hid (of_decide_eq_true hsucc)
    · trivial
  · trivial

theorem stage_inv_check (h : FinishingInv config s i inv f) (hheld : Holding s i inv f)
    (hval : all_succeeded results = true → inv.prepared.response.proposals ≠ [] →
      f.validated = true) (storage : Option SharedStateError) :
    StageInv config s i inv (check_stage config inv s.store f results storage) := by
  unfold check_stage
  split
  · rename_i hall
    have hunc : Uncleared inv f := by
      by_cases hne : inv.prepared.response.proposals = []
      · exact Or.inl hne
      · exact Or.inr (h.kept (hval hall hne))
    split
    · split
      · trivial
      · rename_i hcheck
        have hfresh : Fresh config s inv := fresh_of_check hcheck
        exact ⟨h, hheld, hval, hunc, hfresh⟩
    · rename_i hnothing
      -- no reads and no updates: there is nothing to check
      simp only [checks_again, Bool.or_eq_true, decide_eq_true_eq, not_or, not_not] at hnothing
      refine ⟨h, hheld, hval, hunc, ?_⟩
      refine check_shared_state_iff.mpr ⟨?_, ?_, ?_⟩
      · rw [hnothing.1]; simp
      · rw [hnothing.2]; simp
      · simp [identities, hnothing.1, hnothing.2]
  · trivial

end

end Own

/-! ## Every step -/

section

omit [DecidableEq I] [DecidableEq R]

/-- The stage of an invocation is no part of what its invariant speaks about. -/
theorem StageInv.restage (h : StageInv config s i inv stage) (x : CommitStage) :
    StageInv config s i { inv with stage := x } stage := by
  have hfin : ∀ f, FinishingInv config s i inv f →
      FinishingInv config s i { inv with stage := x } f :=
    fun f hf => ⟨hf.linked, hf.succeeded, hf.executed, hf.kept, hf.held, hf.fresh⟩
  cases stage with
  | validating pass rest => exact h
  | finishing f rest => exact ⟨hfin f h.1, h.2⟩
  | admitting f c rest => exact ⟨hfin f h.1, h.2⟩
  | completing f results => exact ⟨hfin f h.1, h.2⟩
  | applying f results => exact ⟨hfin f h.1, h.2⟩
  | leaving completion => trivial
  | left completion => trivial

theorem Keeps.refl (a : AdmissionState I R) (j : I) : Keeps a a j :=
  fun p hp => ⟨p, hp, rfl, rfl, id⟩

/-- As long as nobody writes to the store, only the monitor matters. -/
theorem undisturbed_of_keeps (hstore : t.store = s.store)
    (hkeeps : Keeps s.coordination t.coordination i)
    (hstranger : s.coordination.participant i = none → t.coordination.participant i = none) :
    Undisturbed config s t i inv where
  keeps := hkeeps
  stranger := hstranger
  fresh _ _ _ hfresh := by
    unfold Fresh at hfresh ⊢
    rw [hstore]
    exact hfresh

theorem SnapshotInv.of_store (h : SnapshotInv config s inv)
    (hstore : t.store = s.store) : SnapshotInv config t inv where
  run_id := h.run_id
  deployment := h.deployment
  seen := by rw [hstore]; exact h.seen

end

/-- A step of invocation `i` that writes nothing to the store. -/
theorem CommitInv.of_store_same (h : CommitInv config s)
    (hstore : t.store = s.store) (hinitial : t.initial = s.initial)
    (hcommits : t.commits = s.commits)
    (hcoord : t.coordination = s.coordination ∨ ∃ e : AdmissionEvent I R, e.invocation = i ∧
      (admission_system config.policy).step s.coordination e = some t.coordination)
    (hothers : ∀ j, j ≠ i → t.invocation j = s.invocation j) (hown : t.invocation i = some inv)
    (hstage : StageInv config t i inv inv.stage) (hsnap : SnapshotInv config s inv) :
    CommitInv config t := by
  have hkeeps : ∀ j, j ≠ i → Keeps s.coordination t.coordination j ∧
      (s.coordination.participant j = none → t.coordination.participant j = none) := by
    intro j hj
    rcases hcoord with hsame | ⟨e, he, ha⟩
    · rw [hsame]
      exact ⟨Keeps.refl _ j, id⟩
    · have hstep := admission_step config.policy ha
      refine ⟨hstep.keeps ?_, hstep.stranger (by rw [he]; exact hj)⟩
      rintro raised rfl
      exact hj he
  refine ⟨?_, ?_, ?_, ?_, ?_⟩
  · rcases hcoord with hsame | ⟨e, -, ha⟩
    · rw [hsame]; exact h.coordination
    · exact .step h.coordination ha
  · intro j hnone
    have hj : j ≠ i := by rintro rfl; rw [hown] at hnone; cases hnone
    exact (hkeeps j hj).2 (h.strangers j (by rw [← hothers j hj]; exact hnone))
  · intro j inv' hinv'
    by_cases hj : j = i
    · subst hj
      rw [hown] at hinv'
      cases hinv'
      exact hstage
    · rw [hothers j hj] at hinv'
      exact (h.stages j inv' hinv').undisturbed
        (undisturbed_of_keeps hstore (hkeeps j hj).1 (hkeeps j hj).2)
  · intro j inv' hinv'
    by_cases hj : j = i
    · subst hj
      rw [hown] at hinv'
      cases hinv'
      exact hsnap.of_store hstore
    · rw [hothers j hj] at hinv'
      exact (h.snapshots j inv' hinv').of_store hstore
  · rw [hstore, hinitial, hcommits]
    exact h.serial

/-- A step of invocation `i` that changes its stage and nothing else. -/
theorem CommitInv.goto (h : CommitInv config s)
    (hstage : StageInv config s i inv stage) (hsnap : SnapshotInv config s inv) :
    CommitInv config (s.goto i inv stage) := by
  refine h.of_store_same (i := i) rfl rfl rfl (Or.inl rfl)
    (fun j hj => update_of_ne hj _ _) (update_self _ _ _) ?_
    ⟨hsnap.run_id, hsnap.deployment, hsnap.seen⟩
  exact (hstage.restage stage).undisturbed (undisturbed_of_keeps rfl (Keeps.refl _ i) id)

/-- A step of the monitor for invocation `i`, which then changes its stage. -/
theorem CommitInv.coordinate (h : CommitInv config s) (he : e.invocation = i)
    (ha : (admission_system config.policy).step s.coordination e = some a)
    (hstage : StageInv config ({ s with coordination := a } : CommitState I R) i inv stage)
    (hsnap : SnapshotInv config s inv) :
    CommitInv config (({ s with coordination := a } : CommitState I R).goto i inv stage) := by
  refine h.of_store_same (i := i) rfl rfl rfl (Or.inr ⟨e, he, ha⟩)
    (fun j hj => update_of_ne hj _ _) (update_self _ _ _) ?_
    ⟨hsnap.run_id, hsnap.deployment, hsnap.seen⟩
  exact (hstage.restage stage).undisturbed (undisturbed_of_keeps rfl (Keeps.refl _ i) id)

/-- A stage behind the entry of `decision` survives a step of the monitor that is
not its exit. -/
theorem StageInv.keeps (h : StageInv config s i inv stage) (hlinked : Linked s i inv f)
    (hstay : ∀ raised, e ≠ .decision_exit i raised)
    (ha : (admission_system config.policy).step s.coordination e = some a) :
    StageInv config ({ s with coordination := a } : CommitState I R) i inv stage := by
  refine h.undisturbed (undisturbed_of_keeps rfl ((admission_step config.policy ha).keeps hstay) ?_)
  intro hnone
  obtain ⟨p, hp, -⟩ := hlinked
  rw [hnone] at hp
  cases hp

/-- Only who has entered is woken up. -/
theorem recheck_known {s : AdmissionState I R}
    (he : e = .decision_recheck i ∨ e = .admit_recheck i)
    (ha : (admission_system config.policy).step s e = some a) : s.participant i ≠ none := by
  intro hnone
  rcases he with rfl | rfl
  · simp [admission_system, decision_recheck, hnone] at ha
  · simp [admission_system, admit_recheck, hnone] at ha

omit [DecidableEq I] [DecidableEq R] in
/-- A new invocation sees the store. -/
theorem snapshot_inv_new (s : CommitState I R) (request : R) (agent : AgentInstance)
    (invocation_id : String) (response : AgentResponse) :
    SnapshotInv config s (new_invocation config s request agent invocation_id response) where
  run_id := rfl
  deployment := rfl
  seen := by
    intro scope hlimit key
    refine ⟨s.store.lookup (namespace_name config.run_id agent.deployment scope, key), ?_,
      Cell.Later.refl _⟩
    have hns := scope_namespace_of_isSome hlimit
    exact lookup_snapshot hns s.store key

/-! ## Commits -/

section

omit [DecidableEq I] [DecidableEq R]

/-- The scopes of the keys an invocation reads or writes are its own once the
version check has passed. -/
theorem limits_of_fresh (h : Fresh config s inv) (hid : id ∈ identities inv.prepared.response) :
    ((config.access inv).limits id.1).isSome := by
  obtain ⟨hupdates, hreads, -⟩ := check_shared_state_iff.mp h
  rcases mem_append.mp hid with hr | hu
  · obtain ⟨r, hmem, rfl⟩ := mem_map.mp hr
    exact hreads r hmem
  · obtain ⟨u, hmem, rfl⟩ := mem_map.mp hu
    exact hupdates u hmem

/-- What the store shows at a key an invocation may use. -/
theorem lookup_access_snapshot {scope : SharedScope}
    (hlimit : ((config.access inv).limits scope).isSome) (key : String) :
    ((snapshot s.store (config.access inv)).scope scope).lookup key
      = (stored_cell (s.store.lookup
          (namespace_name config.run_id inv.agent.deployment scope, key))).value :=
  lookup_snapshot (scope_namespace_of_isSome hlimit) s.store key

/-- A passed check means: each key still shows the version of the snapshot. -/
theorem version_of_fresh (h : Fresh config s inv) (hid : id ∈ identities inv.prepared.response) :
    (stored_cell (s.store.lookup
        (namespace_name config.run_id inv.agent.deployment id.1, id.2))).visible_version
      = snapshot_version inv.prepared.context id.1 id.2 := by
  obtain ⟨-, -, hids⟩ := check_shared_state_iff.mp h
  have hactual := (check_identity_iff.mp (hids id hid)).1
  rw [lookup_access_snapshot (limits_of_fresh h hid), entry_version_eq] at hactual
  exact hactual

/-- So each key still shows the entry of the snapshot. -/
theorem entry_of_fresh (hsnap : SnapshotInv config s inv) (h : Fresh config s inv)
    (hid : id ∈ identities inv.prepared.response) :
    (stored_cell (s.store.lookup
        (namespace_name config.run_id inv.agent.deployment id.1, id.2))).value
      = (inv.prepared.context.shared_state.scope id.1).lookup id.2 := by
  obtain ⟨row, hseen, hlater⟩ := hsnap.seen id.1 (limits_of_fresh h hid) id.2
  have hversion := version_of_fresh h hid
  rw [snapshot_version, hseen, entry_version_eq] at hversion
  rw [hseen]
  exact hlater.value_eq hversion

end

/-- What an invocation commits is not read or written by another one that holds
its reservation, so the version check of the other one keeps passing. -/
theorem fresh_after_commit {j : I} {other : CommitInvocation R}
    {g : Finishing} (h : CommitInv config s) (hij : i ≠ j) (hinv : SnapshotInv config s inv)
    (hother : SnapshotInv config s other) (hheld : Holding s i inv f) (hunc : Uncleared inv f)
    (happly : apply_updates (config.access inv) s.store
      (versioned inv.prepared.context inv.prepared.response.shared_state_updates)
        = .ok (t.store, changes)) (hheld' : Holding s j other g) (hunc' : Uncleared other g)
    (hfresh : Fresh config s other) : Fresh config t other := by
  obtain ⟨p, hp, hpres, hpin⟩ := hheld
  obtain ⟨q, hq, hqres, hqin⟩ := hheld'
  have hdisjoint := (admission_inv h.coordination).disjoint (Ne.symm hij) hq hp hqin hpin
  rw [hpres, hqres] at hdisjoint
  refine (check_shared_state_congr ?_).mpr hfresh
  intro id hid
  have hlimit := limits_of_fresh hfresh hid
  rw [lookup_access_snapshot hlimit, lookup_access_snapshot hlimit]
  -- the place of the key is none of those the commit writes
  have hframe : t.store.lookup (namespace_name config.run_id other.agent.deployment id.1, id.2)
      = s.store.lookup (namespace_name config.run_id other.agent.deployment id.1, id.2) := by
    refine apply_to_frame (apply_updates_ok happly) ?_
    intro v hv ns hns hplace
    obtain ⟨u, hu, rfl⟩ := mem_map.mp hv
    have hns' := (scope_namespace_ok hns).2
    have hplaces : (namespace_name other.prepared.context.run_id other.prepared.context.deployment
          id.1, id.2)
        = (namespace_name inv.prepared.context.run_id inv.prepared.context.deployment u.scope,
          u.key) := by
      rw [hother.run_id, hother.deployment, hinv.run_id, hinv.deployment, hplace, hns']
      rfl
    have hkey := state_key_eq_of_place (hother.run_id.trans hinv.run_id.symm) hplaces
    have hwrites := mem_writes (i := i) hunc hu
    rw [← hkey] at hwrites
    exact Finset.disjoint_left.mp hdisjoint hwrites (mem_reservation hunc' hid)
  rw [hframe]

omit [DecidableEq I] [DecidableEq R] in
theorem SnapshotInv.of_apply {s : CommitState I R} {access : SharedStateAccess}
    {updates : List SharedStateUpdate} (h : SnapshotInv config s inv)
    (happly : apply_updates access s.store updates = .ok (t.store, changes)) :
    SnapshotInv config t inv where
  run_id := h.run_id
  deployment := h.deployment
  seen := by
    intro scope hlimit key
    obtain ⟨row, hseen, hlater⟩ := h.seen scope hlimit key
    exact ⟨row, hseen, hlater.trans (apply_to_later (apply_updates_ok happly) _)⟩

/-- A commit extends the serial run. -/
theorem serial_commit (h : CommitInv config s)
    (hsnap : SnapshotInv config s inv) (hfresh : Fresh config s inv)
    (happly : apply_updates (config.access inv) s.store
      (versioned inv.prepared.context inv.prepared.response.shared_state_updates)
        = .ok (store, changes)) :
    Serial view s.initial ((s.commits ++ [config.record inv]).map CommitRecord.transaction)
      store := by
  rw [map_append, map_singleton]
  refine .commit h.serial ?_ ?_
  · rintro k ⟨id, hid, rfl⟩
    have hplace : key_place (state_key inv.prepared.context id.1 id.2)
        = (namespace_name config.run_id inv.agent.deployment id.1, id.2) := by
      rw [key_place_state_key, hsnap.run_id, hsnap.deployment]
    show (stored_cell (s.store.lookup (key_place (state_key inv.prepared.context id.1 id.2)))).value
      = (inv.prepared.context.shared_state.scope id.1).lookup id.2
    rw [hplace]
    exact entry_of_fresh hsnap hfresh hid
  · simp only [CommitRecord.transaction, CommitConfig.record, happly, Except.toOption,
      Option.map_some]

theorem CommitInv.commit (h : CommitInv config s) (hinv : s.invocation i = some inv)
    (hstage : inv.stage = .applying f results) (happly : apply_updates (config.access inv) s.store
      (versioned inv.prepared.context inv.prepared.response.shared_state_updates)
        = .ok (store, changes)) (completion : Completion) :
    CommitInv config
      { s.goto i inv (.leaving completion) with
        store := store
        commits := s.commits ++ [config.record inv] } := by
  have hsnap := h.snapshots i inv hinv
  have hstageinv := h.stages i inv hinv
  rw [hstage] at hstageinv
  obtain ⟨-, hheld, -, hunc, hfresh⟩ := hstageinv
  refine ⟨h.coordination, ?_, ?_, ?_, serial_commit h hsnap hfresh happly⟩
  · intro j hnone
    by_cases hj : j = i
    · subst hj; simp [CommitState.goto] at hnone
    · simp only [CommitState.goto, update_of_ne hj] at hnone
      exact h.strangers j hnone
  · intro j inv' hinv'
    by_cases hj : j = i
    · subst hj
      simp only [CommitState.goto, update_self, Option.some.injEq] at hinv'
      subst hinv'
      trivial
    · simp only [CommitState.goto, update_of_ne hj] at hinv'
      refine (h.stages j inv' hinv').undisturbed ⟨Keeps.refl _ j, id, ?_⟩
      intro g hheld' hunc' hfresh'
      exact fresh_after_commit h (Ne.symm hj) hsnap (h.snapshots j inv' hinv') hheld hunc happly
        hheld' hunc' hfresh'
  · intro j inv' hinv'
    by_cases hj : j = i
    · subst hj
      simp only [CommitState.goto, update_self, Option.some.injEq] at hinv'
      subst hinv'
      have happlied := hsnap.of_apply (t := { s with store := store }) happly
      exact ⟨happlied.run_id, happlied.deployment, happlied.seen⟩
    · simp only [CommitState.goto, update_of_ne hj] at hinv'
      have happlied := (h.snapshots j inv' hinv').of_apply (t := { s with store := store }) happly
      exact ⟨happlied.run_id, happlied.deployment, happlied.seen⟩

/-- Every step keeps the invariant. -/
theorem CommitInv.step {s s' : CommitState I R} {e : CommitEvent I R} (h : CommitInv config s)
    (hs : CommitStep config s e s') : CommitInv config s' := by
  cases hs with
  | @prepare i request agent invocation_id response hnone =>
    refine h.goto ⟨h.strangers i hnone, ?_⟩ (snapshot_inv_new s request agent invocation_id response)
    intro id r hr
    simp at hr
  | @validate i inv pass p rest engine storage hinv hstage =>
    have hinv' := h.stages i inv hinv
    rw [hstage] at hinv'
    refine h.goto ⟨hinv'.1, ?_⟩ (h.snapshots i inv hinv)
    intro id r hr
    unfold FirstPass.next at hr
    split at hr
    · exact hinv'.2 id r hr
    · rename_i rejection hrej
      intro hsucc
      exact hinv'.2 id r (lookup_insert_rejection (validate_not_succeeded hrej) hr hsucc) hsucc
  | @decide i inv pass a hinv hstage ha =>
    have hinv' := h.stages i inv hinv
    rw [hstage] at hinv'
    obtain ⟨q, hq, -, hres⟩ := (admission_step config.policy ha).entered
    refine h.coordinate rfl ha ⟨?_, fun c hc => hc⟩ (h.snapshots i inv hinv)
    exact
      { linked := ⟨q, hq, hres⟩
        succeeded := fun id r hr hsucc => absurd hsucc (hinv'.2 id r hr)
        executed := fun hne => absurd rfl hne
        kept := nofun
        held := nofun
        fresh := fun hval => by cases hval }
  | @recheck i inv e a hinv he ha =>
    have hinv' := h.stages i inv hinv
    have hown : e.invocation = i := by rcases he with rfl | rfl <;> rfl
    have hstay : ∀ raised, e ≠ .decision_exit i raised := by
      rcases he with rfl | rfl <;> exact fun _ hc => by cases hc
    have hknown : s.coordination.participant i ≠ none := recheck_known he ha
    refine h.of_store_same (i := i) rfl rfl rfl (Or.inr ⟨e, hown, ha⟩) (fun _ _ => rfl) hinv ?_
      (h.snapshots i inv hinv)
    exact hinv'.undisturbed (undisturbed_of_keeps rfl
      ((admission_step config.policy ha).keeps hstay) fun hnone => absurd hnone hknown)
  | @candidate i inv f c rest engine storage hinv hstage hbody =>
    have hinv' := h.stages i inv hinv
    rw [hstage] at hinv'
    exact h.goto (stage_inv_candidate hinv'.1 hinv'.2 hbody engine storage)
      (h.snapshots i inv hinv)
  | @admission i inv f c rest a hinv hstage ha =>
    have hinv' := h.stages i inv hinv
    have hlinked : Linked s i inv f := by rw [hstage] at hinv'; exact hinv'.1.linked
    refine h.of_store_same (i := i) rfl rfl rfl (Or.inr ⟨_, rfl, ha⟩) (fun _ _ => rfl) hinv ?_
      (h.snapshots i inv hinv)
    exact hinv'.keeps hlinked (fun _ hc => by cases hc) ha
  | @execute i inv f c rest result a hinv hstage hbody ha =>
    have hinv' := h.stages i inv hinv
    rw [hstage] at hinv'
    have hkept := hinv'.keeps hinv'.1.linked (fun _ hc => by cases hc) ha
    refine h.coordinate rfl ha ⟨?_, fun d hd => hinv'.2.2 d (mem_cons_of_mem c hd)⟩
      (h.snapshots i inv hinv)
    have hexec := hkept.1.validated (hkept.1.kept hkept.2.1) (hkept.1.held hkept.2.1)
      (hkept.1.fresh hkept.2.1) (f.loop.execute inv.prepared c result)
    exact ⟨hexec.linked, fun _ _ _ _ => hkept.2.1, fun _ => hkept.2.1, hkept.1.kept,
      hkept.1.held, hkept.1.fresh⟩
  | @lose i inv f c d winner rest a hinv hstage hbody ha =>
    have hinv' := h.stages i inv hinv
    rw [hstage] at hinv'
    have hkept := hinv'.keeps hinv'.1.linked (fun _ hc => by cases hc) ha
    refine h.coordinate rfl ha ⟨?_, fun d hd => hinv'.2.2 d (mem_cons_of_mem c hd)⟩
      (h.snapshots i inv hinv)
    exact hkept.1.no_success (no_success_conflict f.loop inv.prepared c winner)
  | @finish i inv f hinv hstage hbody =>
    have hinv' := h.stages i inv hinv
    rw [hstage] at hinv'
    exact h.goto (stage_inv_finish hinv'.1 hbody) (h.snapshots i inv hinv)
  | @check i inv f results storage hinv hstage =>
    have hinv' := h.stages i inv hinv
    rw [hstage] at hinv'
    exact h.goto (stage_inv_check hinv'.1 hinv'.2.1 hinv'.2.2 storage) (h.snapshots i inv hinv)
  | @apply_failed i inv f results storage e hinv hstage hfail =>
    exact h.goto trivial (h.snapshots i inv hinv)
  | @apply_nothing i inv f results storage changes hinv hstage =>
    exact h.goto trivial (h.snapshots i inv hinv)
  | @apply_commit i inv f results storage store changes hinv hstage happly =>
    exact h.commit hinv hstage happly _
  | @raise_early i inv hinv => exact h.goto trivial (h.snapshots i inv hinv)
  | @raise_body i inv hinv => exact h.goto trivial (h.snapshots i inv hinv)
  | @raise_admitted i inv a hinv ha =>
    exact h.coordinate rfl ha trivial (h.snapshots i inv hinv)
  | @leave i inv completion raised a hinv hstage ha =>
    exact h.coordinate rfl ha trivial (h.snapshots i inv hinv)

theorem commit_inv (h : (commit_system config).Reachable s) : CommitInv config s := by
  refine h.invariant ?_ fun _ _ _ _ hinv hs => hinv.step (commit_step hs)
  rintro s ⟨entries, rfl⟩
  refine ⟨.init rfl, fun _ _ => rfl, ?_, ?_, .nil⟩
  · intro i inv hinv; cases hinv
  · intro i inv hinv; cases hinv

/-! ## Serializability -/

/-- The version a reader of the store sees at a key. -/
def visible_version (entries : Entries) (k : StateKey) : ℕ :=
  (stored_cell (entries.lookup (key_place k))).visible_version

/-- The local variables of an invocation inside `decision`. -/
def CommitStage.in_decision : CommitStage → Option Finishing
  | .finishing f _ | .admitting f _ _ | .completing f _ | .applying f _ => some f
  | _ => none

omit [DecidableEq I] [DecidableEq R] in
theorem StageInv.finishing_inv {s : CommitState I R} (h : StageInv config s i inv stage)
    (hf : stage.in_decision = some f) : FinishingInv config s i inv f := by
  cases stage <;> cases hf
  · exact h.1
  · exact h.1
  · exact h.1
  · exact h.1

omit [DecidableEq I] [DecidableEq R] in
theorem visible_version_of_fresh {s : CommitState I R} (hsnap : SnapshotInv config s inv)
    (h : Fresh config s inv) {id : SharedScope × String}
    (hid : id ∈ identities inv.prepared.response) :
    visible_version s.store (state_key inv.prepared.context id.1 id.2)
      = snapshot_version inv.prepared.context id.1 id.2 := by
  rw [visible_version, key_place_state_key, hsnap.run_id, hsnap.deployment]
  exact version_of_fresh h hid

variable (config) in
/-- What holds of the commits in every reachable state. -/
structure CommitContract (s : CommitState I R) : Prop where
  /-- Whoever changes the store commits, and at that moment every key it reads or
  writes has the version it saw in its snapshot. -/
  versions : ∀ e s', (commit_system config).step s e = some s' →
    (s'.store ≠ s.store ∨ s'.commits ≠ s.commits) →
    ∃ inv, s.invocation e.invocation = some inv ∧
      s'.commits = s.commits ++ [config.record inv] ∧
      ∀ id ∈ identities inv.prepared.response,
        visible_version s.store (state_key inv.prepared.context id.1 id.2)
          = snapshot_version inv.prepared.context id.1 id.2
  /-- The store is what the commits give one after another, and each of them sees
  its snapshot on the keys it reads or writes. -/
  serial : Serial view s.initial (s.commits.map CommitRecord.transaction) s.store
  /-- After a passed version check inside `decision`, the check of `complete` would
  pass in this state too. -/
  validated : ∀ i inv f, s.invocation i = some inv → inv.stage.in_decision = some f →
    f.validated = true → check_versions config inv s.store none = .ok ()

/-- No update is lost and no decision rests on what is no longer there. -/
theorem commit_contract {s : CommitState I R} (h : (commit_system config).Reachable s) :
    CommitContract config s := by
  have hinv := commit_inv h
  refine ⟨?_, hinv.serial, ?_⟩
  · intro e s' hs hchange
    cases commit_step hs with
    | @apply_commit i inv f results storage store changes hi hstage happly =>
      have hstageinv := hinv.stages i inv hi
      rw [hstage] at hstageinv
      have hfresh : Fresh config s inv := hstageinv.2.2.2.2
      exact ⟨inv, hi, rfl, fun id hid =>
        visible_version_of_fresh (hinv.snapshots i inv hi) hfresh hid⟩
    | _ =>
      rcases hchange with hstore | hcommits
      · exact absurd rfl hstore
      · exact absurd rfl hcommits
  · intro i inv f hi hf hval
    exact ((hinv.stages i inv hi).finishing_inv hf).fresh hval

/-! Two agents have read one key before either of them writes it. The second one
waits for the first one's decision, and its version check then fails. -/

/-- What `complete` has reported. -/
def CommitStage.reported : CommitStage → Option (List ActionResult × SharedStateError)
  | .leaving (.state_failed results error) => some (results, error)
  | _ => none

/-- An agent with room for one entry in the scope of the run. -/
def lab_agent : AgentInstance where
  id := "planner"
  deployment := "lab"
  shared := some { scopes := [.run], max_entries := 1 }

def lab_config : CommitConfig where
  policy := .serialize
  catalog := fun _ => []
  agent_instances := [lab_agent]
  run_id := "run"

/-- A response that sets one key of the run. -/
def set_response (key : String) (proposals : List ActionProposal)
    (h : (proposals.map ActionProposal.id).Nodup) : AgentResponse where
  proposals := proposals
  shared_state_updates := [{ scope := .run, key := key, value := .bool true }]
  proposal_ids_unique := h

/-- Both are prepared, the first one commits, the second one follows. -/
def two_writers : List (CommitEvent ℕ ℕ) :=
  [.prepare 0 0 lab_agent "a" (set_response "route" [] (by simp)),
    .prepare 1 0 lab_agent "b" (set_response "route" [] (by simp)),
    .decide 0, .decide 1, .finish 0, .check 0 none, .apply 0 none, .leave 0,
    .recheck 1, .finish 1, .check 1 none]

theorem commit_contract_two_writers :
    ∃ s : CommitState ℕ ℕ, (commit_system lab_config).run { initial := ∅ } two_writers = some s ∧
      s.commits.length = 1 ∧
      ((s.invocation 1).bind fun inv => inv.stage.reported.map fun r => r.2.code)
        = some "state.version.conflict" ∧
      CommitContract lab_config s := by
  have hrun : ((commit_system lab_config).run { initial := ∅ } two_writers).any
      (fun s : CommitState ℕ ℕ => s.commits.length = 1 ∧
        ((s.invocation 1).bind fun inv => inv.stage.reported.map fun r => r.2.code)
          = some "state.version.conflict") = true := by decide
  obtain ⟨s, hs, hend⟩ := (Option.any_eq_true _ _).mp hrun
  have hboth := of_decide_eq_true hend
  exact ⟨s, hs, hboth.1, hboth.2,
    commit_contract (System.Reachable.run (.init ⟨∅, rfl⟩) hs)⟩

/-! ## Failures behind successful actions -/

variable (config) in
/-- What a shared-state failure can be after the actions of an invocation. -/
structure EffectContract (s : CommitState I R) : Prop where
  /-- Once an action has been executed the version check passes until the end. -/
  executed : ∀ i inv f, s.invocation i = some inv → inv.stage.in_decision = some f →
    f.loop.executed ≠ [] → check_versions config inv s.store none = .ok ()
  /-- When all actions succeeded and `complete` then reports a shared-state
  failure, it is the storage's own failure or the entry limit, unless the batch
  updates one key twice or deletes a key that was not there. -/
  reported : ∀ e s' inv inv' results error, (commit_system config).step s e = some s' →
    s.invocation e.invocation = some inv → s'.invocation e.invocation = some inv' →
    (∀ completion, inv.stage ≠ .leaving completion) →
    inv'.stage = .leaving (.state_failed results error) →
    all_succeeded results = true → inv.prepared.response.proposals ≠ [] →
    (e = .check e.invocation (some error) ∨ e = .apply e.invocation (some error)) ∨
      error.code = "state.capacity.exceeded" ∨
      (error.code = "state.update.duplicate" ∧
        ¬ (inv.prepared.response.shared_state_updates.map fun u => (u.scope, u.key)).Nodup) ∨
      error.code = "state.entry.missing" ∧
        ∃ u ∈ inv.prepared.response.shared_state_updates, u.operation = .delete ∧
          snapshot_version inv.prepared.context u.scope u.key = 0

omit [DecidableEq I] [DecidableEq R] in
/-- How a checked batch can fail in the store. -/
theorem apply_outcome_error {s : CommitState I R} (hfresh : Fresh config s inv)
    (h : apply_outcome config inv s.store storage = .error error) :
    storage = some error ∨ error.code = "state.capacity.exceeded" ∨
      (error.code = "state.update.duplicate" ∧
        ¬ (inv.prepared.response.shared_state_updates.map fun u => (u.scope, u.key)).Nodup) ∨
      error.code = "state.entry.missing" ∧
        ∃ u ∈ inv.prepared.response.shared_state_updates, u.operation = .delete ∧
          snapshot_version inv.prepared.context u.scope u.key = 0 := by
  unfold apply_outcome at h
  split at h
  · cases h
    exact Or.inl rfl
  · refine Or.inr ?_
    unfold apply_shared_state at h
    split at h
    · cases h
    · simp only at h
      have hlimits : ∀ v ∈ versioned inv.prepared.context inv.prepared.response.shared_state_updates,
          ((config.access inv).limits v.scope).isSome := by
        intro v hv
        obtain ⟨u, hu, rfl⟩ := mem_map.mp hv
        exact (check_shared_state_iff.mp hfresh).1 u hu
      have herror : apply_updates (config.access inv) s.store
          (versioned inv.prepared.context inv.prepared.response.shared_state_updates)
            = .error error := by
        cases happly : apply_updates (config.access inv) s.store
            (versioned inv.prepared.context inv.prepared.response.shared_state_updates) with
        | error e => rw [happly] at h; cases h; rfl
        | ok r => rw [happly] at h; cases h
      have hchecked := apply_updates_error hlimits (fun hnodup => by
        rw [map_versioned] at hnodup
        exact checked_of_check hfresh hnodup) herror
      rw [map_versioned] at hchecked
      refine hchecked.imp_right (Or.imp_right ?_)
      rintro ⟨hcode, v, hv, hdel, hversion⟩
      obtain ⟨u, hu, rfl⟩ := mem_map.mp hv
      refine ⟨hcode, u, hu, hdel, ?_⟩
      have hid : (u.scope, u.key) ∈ identities inv.prepared.response :=
        mem_append.mpr (Or.inr (mem_map.mpr ⟨u, hu, rfl⟩))
      exact (version_of_fresh hfresh hid).symm.trans hversion

omit [DecidableEq R] in
/-- The stage behind a step that moves the invocation. -/
theorem stage_goto {s : CommitState I R} (h : (s.goto i inv stage).invocation i = some inv') :
    inv'.stage = stage := by
  simp only [CommitState.goto, update_self, Option.some.injEq] at h
  rw [← h]

/-- Only the two halves of `complete` report a shared-state failure. -/
theorem CommitStep.reports {s s' : CommitState I R} {e : CommitEvent I R}
    (hs : CommitStep config s e s')
    (hi : s.invocation e.invocation = some inv) (hi' : s'.invocation e.invocation = some inv')
    (hbefore : ∀ completion, inv.stage ≠ .leaving completion)
    (hafter : inv'.stage = .leaving (.state_failed results error)) :
    (∃ i f storage, e = .check i storage ∧ inv.stage = .completing f results ∧
        all_succeeded results = true ∧ check_versions config inv s.store storage = .error error) ∨
      ∃ i f storage, e = .apply i storage ∧ inv.stage = .applying f results ∧
        apply_outcome config inv s.store storage = .error error := by
  cases hs with
  | prepare hnone =>
    rw [stage_goto hi'] at hafter
    cases hafter
  | validate =>
    rw [stage_goto hi'] at hafter
    cases hafter
  | decide =>
    rw [stage_goto hi'] at hafter
    cases hafter
  | recheck =>
    obtain rfl : inv = inv' := Option.some.inj (hi.symm.trans hi')
    exact absurd hafter (hbefore _)
  | candidate =>
    rw [stage_goto hi'] at hafter
    unfold candidate_stage at hafter
    split at hafter
    · cases hafter
    · split at hafter
      · cases hafter
      · simp only at hafter
        split at hafter <;> cases hafter
  | admission =>
    obtain rfl : inv = inv' := Option.some.inj (hi.symm.trans hi')
    exact absurd hafter (hbefore _)
  | execute =>
    rw [stage_goto hi'] at hafter
    cases hafter
  | lose =>
    rw [stage_goto hi'] at hafter
    cases hafter
  | finish =>
    rw [stage_goto hi'] at hafter
    unfold finish_stage at hafter
    simp only at hafter
    split at hafter
    · split at hafter <;> cases hafter
    · cases hafter
  | @check i own f found storage hown hstage =>
    obtain rfl : own = inv := Option.some.inj (hown.symm.trans hi)
    rw [stage_goto hi'] at hafter
    unfold check_stage at hafter
    split at hafter
    · rename_i hfound
      split at hafter
      · split at hafter
        · rename_i e hcheck
          cases hafter
          exact Or.inl ⟨i, f, storage, rfl, hstage, hfound, hcheck⟩
        · cases hafter
      · cases hafter
    · cases hafter
  | @apply_failed i own f found storage e hown hstage hfail =>
    obtain rfl : own = inv := Option.some.inj (hown.symm.trans hi)
    rw [stage_goto hi'] at hafter
    cases hafter
    exact Or.inr ⟨i, f, storage, rfl, hstage, hfail⟩
  | apply_nothing =>
    rw [stage_goto hi'] at hafter
    cases hafter
  | apply_commit =>
    rw [stage_goto hi'] at hafter
    cases hafter
  | raise_early =>
    rw [stage_goto hi'] at hafter
    cases hafter
  | raise_body =>
    rw [stage_goto hi'] at hafter
    cases hafter
  | raise_admitted =>
    rw [stage_goto hi'] at hafter
    cases hafter
  | leave =>
    rw [stage_goto hi'] at hafter
    cases hafter

theorem effect_contract {s : CommitState I R} (h : (commit_system config).Reachable s) :
    EffectContract config s := by
  have hinv := commit_inv h
  refine ⟨?_, ?_⟩
  · intro i inv f hi hf hexec
    have hfin := (hinv.stages i inv hi).finishing_inv hf
    exact hfin.fresh (hfin.executed hexec)
  · intro e s' inv inv' results error hs hi hi' hbefore hafter hall hne
    have hstageinv := hinv.stages _ inv hi
    rcases (commit_step hs).reports hi hi' hbefore hafter with
      ⟨i, f, storage, rfl, hstage, -, hcheck⟩ | ⟨i, f, storage, rfl, hstage, hfail⟩
    · rw [hstage] at hstageinv
      have hfresh : check_versions config inv s.store none = .ok () :=
        hstageinv.1.fresh (hstageinv.2.2 hall hne)
      cases storage with
      | none => rw [hfresh] at hcheck; cases hcheck
      | some e' => cases hcheck; exact Or.inl (Or.inl rfl)
    · rw [hstage] at hstageinv
      rcases apply_outcome_error hstageinv.2.2.2.2 hfail with rfl | hcode
      · exact Or.inl (Or.inr rfl)
      · exact Or.inr hcode

/-! The scope is full. The action of the invocation is executed and succeeds, no
storage fails, and `complete` reports the entry limit afterwards. -/

/-- A store whose run scope has one entry. -/
def full_store : Entries :=
  (∅ : Entries).insert ("run:run", "topology")
    { value := .null, version := 1, deleted := false, updated_by := "planner"
      version_pos := Nat.one_pos }

/-- The commit of one invocation with one action, up to the application of its
updates. -/
def one_action (update : String) : List (CommitEvent ℕ ℕ) :=
  [.prepare 0 0 lab_agent "a"
      (set_response update [{ id := "drop", capability := "link.down", target := "s1-s3" }]
        (by decide)),
    .validate 0 none none, .decide 0, .candidate 0 none none, .admission 0,
    .execute 0 (.success "run" "drop"),
    .finish 0, .check 0 none, .apply 0 none]

theorem effect_contract_full :
    ∃ s : CommitState ℕ ℕ,
      (commit_system lab_config).run { initial := full_store } (one_action "route") = some s ∧
      EffectContract lab_config s := by
  have hrun : ((commit_system lab_config).run { initial := full_store }
      (one_action "route")).isSome = true := by decide
  obtain ⟨s, hs⟩ := Option.isSome_iff_exists.mp hrun
  exact ⟨s, hs, effect_contract (System.Reachable.run (.init ⟨full_store, rfl⟩) hs)⟩

theorem entry_limit_after_effect :
    ((commit_system lab_config).run { initial := full_store } (one_action "route")).bind
        (fun s : CommitState ℕ ℕ => (s.invocation 0).bind fun inv => inv.stage.reported.map fun r =>
          (all_succeeded r.1, r.1.length, r.2.code))
      = some (true, 1, "state.capacity.exceeded") := by
  decide

end Invariants

end MininetAi
