/-
What `writers_stopped` certifies.

The verdict, the cleanup it is about and the state are written by whoever holds the shutdown:
the thread that starts, as long as it starts or cleans up after its failure, and after that
the thread whose stop has passed the gate. There is one hole: `start` is `RUNNING` before its
last record, so a record that fails makes it clean up while a stop may be at work, and the two
write over each other. Where that does not happen, the verdict stands for the cleanup that is
recorded with it.
-/
import MininetAi.Experiment.TeardownOrder

set_option autoImplicit false

namespace MininetAi

open Routine ExperimentRuntime
open MininetOVSRuntime (TeardownResult)

variable {κ : Type}

/-! ## The recorded cleanup -/

/-- The fields the verdict is about. -/
structure Standing (κ : Type) where
  state : ExperimentRuntimeState
  run : Option RunInfo
  writers_stopped : Bool
  cleanup : CleanupOutcome
  history : History κ

def Experiment.standing (m : Experiment κ) : Standing κ :=
  ⟨m.state, m.run, m.writers_stopped, m.cleanup, m.history⟩

/-- A teardown has returned this result, and nothing was torn down after it. -/
def Standing.TornDownBy (v : Standing κ) (result : TeardownResult) : Prop :=
  (∃ id past, v.history.teardowns = (id, .ok result) :: past) ∧ v.cleanup = result.cleanup

/-- `deploy` has failed with the cleanup that is recorded. -/
def Standing.DeployFailed (v : Standing κ) : Prop :=
  v.run = none ∧ ∃ e, v.history.deploy = some (.error e) ∧ e.cleanup = v.cleanup

/-- The recorded cleanup has succeeded without any issue: it is the verified evidence of a
teardown, or of a `deploy` that has failed. -/
structure Standing.Recorded (v : Standing κ) : Prop where
  issues : v.history.issues = []
  verified : v.cleanup.verified = true
  source : (∃ result, v.TornDownBy result ∧ result.succeeded = true) ∨ v.DeployFailed

/-- What holds of the verdict in every state. -/
structure Certified (v : Standing κ) : Prop where
  recorded : v.writers_stopped = true → v.Recorded
  running : v.state = .running → v.run.isSome = true ∧
    (v.history.unrecorded = false → v.writers_stopped = false)
  fresh : v.state = .created → v = ({} : Experiment κ).standing

/-! ## Who holds the shutdown -/

/-- The thread that may write the verdict. -/
def Standing.holder (v : Standing κ) : Option κ :=
  match v.state with
  | .starting => v.history.starter
  | .running => if v.history.unrecorded = true then v.history.starter else none
  | .stopping => v.history.stopper
  | .created | .stopped | .failed => none

/-- The thread `i` has started the layers and has its last record before it. -/
structure Begun (i : κ) (v : Standing κ) : Prop where
  starter : v.history.starter = some i
  recorded : v.history.unrecorded = false
  created : v.state ≠ .created
  starting : v.state ≠ .starting

/-- No stop is at work when the record of the running run fails, and none begins before that
start has ended. -/
def RecordUndisturbed (o : ExperimentOp κ) (a : ExperimentAnswer) (m : Experiment κ) : Prop :=
  match o with
  | .call (.append entry) => entry.type = "run.running" → a.raised.isSome = true → m.state = .running
  | .begin_stop => m.state = .running → m.history.unrecorded = false
  | .call _ | .continuous_report | .begin_start | .update _ => True

instance (o : ExperimentOp κ) (a : ExperimentAnswer) (m : Experiment κ) : Decidable (RecordUndisturbed o a m) :=
  match o with
  | .call (.append entry) =>
    inferInstanceAs (Decidable (entry.type = "run.running" → a.raised.isSome = true → m.state = .running))
  | .begin_stop => inferInstanceAs (Decidable (m.state = .running → m.history.unrecorded = false))
  | .call .verify_bounded_startup | .call .deploy | .call .create_run | .call (.construct _) | .call (.launch _)
  | .call .join_samplers | .call (.shut_down _) | .call .close_agents | .call (.teardown _)
  | .continuous_report | .begin_start | .update _ => inferInstanceAs (Decidable True)

/-- What a thread can rely on. -/
structure EvidenceKept (i : κ) (s t : Experiment κ) : Prop where
  certified : Certified s.standing → Certified t.standing
  held : s.standing.holder = some i → t.standing = s.standing
  begun : Begun i s.standing → Begun i t.standing

variable {i : κ} {s : Experiment κ} {v : Standing κ}

variable {t : Experiment κ} {s : Experiment κ}

theorem EvidenceKept.still (h : t.standing = s.standing) : EvidenceKept i s t where
  certified hs := h ▸ hs
  held _ := h
  begun hs := h ▸ hs

theorem EvidenceKept.trans (s t u : Experiment κ) (h : EvidenceKept i s t)
    (h' : EvidenceKept i t u) :
    EvidenceKept i s u where
  certified hs := h'.certified (h.certified hs)
  held hs := by
    have ht := h.held hs
    rw [← ht] at hs
    exact (h'.held hs).trans ht
  begun hs := h'.begun (h.begun hs)

/-- What it guarantees. -/
def EvidenceGuaranteed (i : κ) (s t : Experiment κ) : Prop :=
  (Certified s.standing → Certified t.standing) ∧ ∀ j, j ≠ i → EvidenceKept j s t

theorem EvidenceGuaranteed.still (h : t.standing = s.standing) : EvidenceGuaranteed i s t :=
  ⟨fun hs => h ▸ hs, fun _ _ => .still h⟩

/-- The terms of a thread. -/
def evidence_terms (i : κ) : Terms (ExperimentOp κ) ExperimentOp.Reply (Experiment κ) :=
  turns i RecordUndisturbed (EvidenceKept i) (EvidenceGuaranteed i) (fun _ => .still rfl) EvidenceKept.trans

/-- What a call of thread `i` does beside the others, as far as the evidence goes. -/
abbrev Attests (i : κ) {α : Type} (P : Experiment κ → Prop) (x : ExperimentRoutine κ α)
    (Q : α → Experiment κ → Prop) (R : ExperimentError → Experiment κ → Prop) : Prop :=
  Meets (evidence_terms i) P x Q R

/-! ## Assertions -/

/-- An assertion about what the verdict is about. -/
def At (P : Standing κ → Prop) (m : Experiment κ) : Prop := P m.standing

/-- The thread `i` holds the shutdown. -/
structure Holds (i : κ) (F : Standing κ → Prop) (v : Standing κ) : Prop where
  certified : Certified v
  holder : v.holder = some i
  holds : F v

section

variable {i : κ} {F G : Standing κ → Prop}

theorem holds_withstands : Withstands (EvidenceKept i) (At (Holds i F)) := by
  intro s t hs hst
  unfold At
  rw [hst.held hs.holder]
  exact hs

theorem certified_withstands : Withstands (EvidenceKept i) (At Certified) := fun _ _ hs hst => hst.certified hs

theorem begun_withstands : Withstands (EvidenceKept i) (At fun v : Standing κ => Certified v ∧ Begun i v) :=
  fun _ _ hs hst => ⟨hst.certified hs.1, hst.begun hs.2⟩

theorem Holds.not_created {v : Standing κ} (h : Holds i F v) : v.state ≠ .created := by
  intro hcreated
  have hholder := h.holder
  unfold Standing.holder at hholder
  rw [hcreated] at hholder
  cases hholder

/-- A running run whose shutdown is held was not recorded. -/
theorem Holds.unrecorded {v : Standing κ} (h : Holds i F v) (hrunning : v.state = .running) :
    v.history.unrecorded = true := by
  have hholder := h.holder
  unfold Standing.holder at hholder
  rw [hrunning] at hholder
  by_contra hunrecorded
  rw [if_neg hunrecorded] at hholder
  cases hholder

/-- What the holder does is certified, as far as it says so. -/
theorem Holds.guaranteed {s t : Experiment κ} (hs : Holds i F s.standing) (ht : Certified t.standing)
    (hbegun : ∀ j, j ≠ i → Begun j s.standing → Begun j t.standing) : EvidenceGuaranteed i s t := by
  refine ⟨fun _ => ht, fun j hj => ⟨fun _ => ht, fun hheld => ?_, hbegun j hj⟩⟩
  exact absurd (Option.some.inj (hheld.symm.trans hs.holder)) hj

/-- A step that keeps the hold, the run and the threads, and gives no verdict. -/
theorem Holds.step {s t : Experiment κ} (hs : Holds i F s.standing) (hstate : t.state = s.state)
    (hstarter : t.history.starter = s.history.starter) (hstopper : t.history.stopper = s.history.stopper)
    (hunrecorded : t.history.unrecorded = s.history.unrecorded)
    (hrun : s.run.isSome = true → t.run.isSome = true) (hverdict : t.writers_stopped = false)
    (hG : G t.standing) : EvidenceGuaranteed i s t ∧ At (Holds i G) t := by
  have hcertified : Certified t.standing :=
    { recorded := fun h => absurd (hverdict.symm.trans h) Bool.false_ne_true
      running := fun hrunning =>
        ⟨hrun (hs.certified.running (hstate.symm.trans hrunning)).1, fun _ => hverdict⟩
      fresh := fun hcreated => absurd (hstate.symm.trans hcreated) hs.not_created }
  have hholder : t.standing.holder = some i := by
    have hsame : t.standing.holder = s.standing.holder := by
      unfold Standing.holder Experiment.standing
      simp only [hstate, hstarter, hstopper, hunrecorded]
    rw [hsame]
    exact hs.holder
  refine ⟨hs.guaranteed hcertified fun j _ hj => ⟨hstarter.trans hj.starter, hunrecorded.trans hj.recorded, ?_, ?_⟩,
    hcertified, hholder, hG⟩
  · exact fun h => hj.created (hstate.symm.trans h)
  · exact fun h => hj.starting (hstate.symm.trans h)

end

/-! ## What leaves the verdict alone -/

section Still

variable {i : κ} {P : Standing κ → Prop} (hP : Withstands (EvidenceKept i) (At P))
include hP

variable {f : Experiment κ → Experiment κ} {drain : Bool}

theorem still_access (hf : ∀ s, (f s).standing = s.standing) :
    Attests i (At P) (access f) (fun m s => P m.standing ∧ At P s) fun _ => At P := by
  refine access_meets hP (fun m s t hs hst => ⟨hs.1, hP s t hs.2 hst⟩) (fun _ => hP)
    (fun s _ => .still (hf s)) fun s hs => ⟨hs, ?_⟩
  unfold At
  rw [hf]
  exact hs

theorem still_assign (hf : ∀ s, (f s).standing = s.standing) :
    Attests i (At P) (assign f) (fun _ => At P) fun _ => At P := by
  refine assign_meets hP hP (fun _ => hP) (fun s _ => .still (hf s)) fun s hs => ?_
  unfold At
  rw [hf]
  exact hs

variable {α : Type} {x : ExperimentRoutine κ α} {config : ExperimentConfig}
  {entry : LifecycleEntry} {c : Component}

theorem still_then {Q : α → Experiment κ → Prop} (hf : ∀ s, (f s).standing = s.standing)
    (hx : Attests i (At P) x Q fun _ => At P) :
    Attests i (At P) (assign f >>= fun _ => x) Q fun _ => At P :=
  (still_assign hP hf).bind (fun _ => hx) fun _ => hP

theorem still_fields : Attests i (At P) fields (fun _ => At P) fun _ => At P :=
  (still_access hP fun _ => rfl).on_return fun _ _ hs => hs.2

omit hP in
/-- A call the history has nothing of. -/
theorem recorded_still {c : ExperimentCall} (hc : c.plain = true)
    (hentry : ∀ entry, c = .append entry → entry.type ≠ "run.running") (a : ExperimentAnswer)
    (past : History κ) : c.recorded a past = past := by
  cases c with
  | verify_bounded_startup => cases hc
  | deploy => cases hc
  | teardown id => cases hc
  | append entry => exact if_neg fun h => hentry entry rfl h.1
  | _ => rfl

theorem still_call {c : ExperimentCall} (hc : c.plain = true)
    (hentry : ∀ entry, c = .append entry → entry.type ≠ "run.running") :
    Attests i (At P) (experiment_call c) (fun _ => At P) fun _ => At P := by
  have hsame : ∀ (s : Experiment κ) (a : ExperimentAnswer),
      ({ s with history := c.recorded a s.history } : Experiment κ) = s := by
    intro s a
    rw [recorded_still hc hentry]
  refine call_meets hP (fun _ => hP) (fun _ => hP) ⟨fun s a _ _ => ?_, fun s a hs _ => ?_⟩
  · exact .still (congrArg Experiment.standing (hsame s a))
  · have hnext : At P { s with history := c.recorded a s.history } := by
      rw [hsame]
      exact hs
    exact ExperimentCall.outcome_ends (fun _ _ => hnext) fun _ _ => hnext

theorem still_calls {calls : List ExperimentCall} (hcalls : ∀ c ∈ calls, c.plain = true)
    (hentries : ∀ c ∈ calls, ∀ entry, c = .append entry → entry.type ≠ "run.running") :
    Attests i (At P) (call_all calls) (fun _ => At P) fun _ => At P :=
  (call_all_meets (K := fun _ => True) hP (fun _ => hP) fun c hc =>
    (still_call hP (hcalls c hc) (hentries c hc)).on_return fun _ _ hs => ⟨trivial, hs⟩).on_return fun _ _ hs => hs.2

/-- A call that may be left out. -/
theorem still_call_if {p : Prop} [Decidable p] {c : ExperimentCall} (hc : c.plain = true)
    (hentry : ∀ entry, c = .append entry → entry.type ≠ "run.running") :
    Attests i (At P) (call_all (if p then [c] else [])) (fun _ => At P) fun _ => At P := by
  by_cases hp : p
  · rw [if_pos hp]
    refine still_calls hP (fun c' hc' => ?_) fun c' hc' => ?_
    · rw [List.mem_singleton.mp hc']
      exact hc
    · rw [List.mem_singleton.mp hc']
      exact hentry
  · rw [if_neg hp]
    exact Meets.pure hP fun _ hs => hs

theorem still_tried (hx : Attests i (At P) x (fun _ => At P) fun _ => At P) :
    Attests i (At P) (tried x) (fun _ => At P) fun _ => At P := by
  refine (tried_meets (fun _ => hP) (fun _ => hP) hx).post (fun r s hs => ?_)
    fun _ _ hs => hs.2
  cases r with
  | ok _ => exact hs
  | error e => exact hs.2

theorem still_record (hentry : entry.type ≠ "run.running") :
    Attests i (At P) (record_lifecycle config entry) (fun _ => At P) fun _ => At P := by
  refine (still_fields hP).bind (fun m => ?_) fun _ => hP
  refine still_call_if hP rfl fun entry' heq => ?_
  cases heq
  exact hentry

theorem still_record_issues (hentry : entry.type ≠ "run.running") :
    Attests i (At P) (record_issues config entry) (fun _ => At P) fun _ => At P :=
  (still_tried hP (still_record hP hentry)).bind (fun _ => Meets.pure hP fun _ hs => hs) fun _ => hP

theorem still_component_stop : Attests i (At P) (c.stop drain) (fun _ => At P) fun _ => At P := by
  have hgate : Attests i (At P) (access (Experiment.begin_wind_down c)) (fun _ => At P)
      fun _ => At P := by
    refine (still_access hP fun s => ?_).on_return fun _ _ hs => hs.2
    unfold Experiment.begin_wind_down
    by_cases hrunning : s.component c = some .running
    · rw [if_pos hrunning]
      rfl
    · rw [if_neg hrunning]
  have hdown : Attests i (At P) (c.wound_down drain) (fun _ => At P) fun _ => At P := by
    refine (still_calls hP (fun c' hc' => ?_) fun c' hc' entry heq => ?_).bind
      (fun _ => still_assign hP (by intro _; rfl)) fun _ => hP
    · rw [List.mem_singleton.mp hc']
      cases c <;> rfl
    · rw [List.mem_singleton.mp hc'] at heq
      cases c <;> cases heq
  refine hgate.bind (fun m => ?_) fun _ => hP
  cases m.component c with
  | none => exact Meets.raise hP fun _ hs => hs
  | some state =>
    cases state with
    | created => exact Meets.raise hP fun _ hs => hs
    | running => exact hdown
    | stopping => exact hdown
    | stopped => exact Meets.pure hP fun _ hs => hs

theorem still_stop_and_note :
    Attests i (At P) (stop_and_note c drain) (fun _ => At P) fun _ => At P :=
  (still_component_stop hP).bind (fun _ => still_assign hP (by intro _; rfl)) fun _ => hP

theorem still_stop_layer : Attests i (At P) (stop_layer c drain) (fun _ => At P) fun _ => At P := by
  refine (still_fields hP).bind (fun m => ?_) fun _ => hP
  refine Meets.ite (fun _ => Meets.pure hP fun _ hs => hs) fun _ => ?_
  exact (still_tried hP (still_stop_and_note hP)).bind (fun _ => Meets.pure hP fun _ hs => hs) fun _ => hP

theorem still_stop_started : Attests i (At P) (stop_started c) (fun _ => At P) fun _ => At P := by
  refine (still_fields hP).bind (fun m => (still_fields hP).bind (fun m' => ?_) fun _ => hP) fun _ => hP
  refine Meets.ite (fun _ => ?_) fun _ => Meets.pure hP fun _ hs => hs
  exact (still_tried hP (still_stop_and_note hP)).bind (fun _ => Meets.pure hP fun _ hs => hs) fun _ => hP

theorem still_report_continuous :
    Attests i (At P) report_continuous (fun _ => At P) fun _ => At P := by
  refine (still_fields hP).bind (fun m => ?_) fun _ => hP
  refine Meets.ite (fun _ => Meets.pure hP fun _ hs => hs) fun _ => ?_
  exact perform_meets (o := .continuous_report) (k := .ok) hP (fun _ => hP) (fun _ => hP)
    ⟨fun _ _ _ _ => .still rfl, fun _ _ hs _ => hs⟩

theorem still_launch : Attests i (At P) (launch c) (fun _ => At P) fun _ => At P := by
  refine still_then hP (by intro _; rfl) ?_
  have hgate : Attests i (At P) (access (Experiment.begin_launch c)) (fun _ => At P)
      fun _ => At P := by
    refine (still_access hP fun s => ?_).on_return fun _ _ hs => hs.2
    unfold Experiment.begin_launch
    by_cases hcreated : s.component c = some .created
    · rw [if_pos hcreated]
      rfl
    · rw [if_neg hcreated]
  refine hgate.bind (fun m => ?_) fun _ => hP
  cases m.component c with
  | none => exact Meets.raise hP fun _ hs => hs
  | some state =>
    cases state with
    | created => exact still_call hP rfl fun entry heq => by cases heq
    | running => exact Meets.raise hP fun _ hs => hs
    | stopping => exact Meets.raise hP fun _ hs => hs
    | stopped => exact Meets.raise hP fun _ hs => hs

end Still

/-! ## The cleanup of the holder -/

/-- No verdict is given yet, and without a run the evidence is that of `deploy`. -/
def Unjudged (v : Standing κ) : Prop :=
  v.writers_stopped = false ∧ (v.run = none → v.cleanup.verified = true → v.DeployFailed)

/-- No verdict is given yet, and there is a run. -/
def Manned (v : Standing κ) : Prop := v.writers_stopped = false ∧ v.run.isSome = true

/-- What a teardown leaves for the verdict. -/
def Evident (teardown : Option TeardownResult) (v : Standing κ) : Prop :=
  Unjudged v ∧ ∀ result, teardown = some result → v.TornDownBy result

theorem Manned.unjudged (h : Manned v) : Unjudged v := by
  refine ⟨h.1, fun hnone => ?_⟩
  have hsome := h.2
  rw [hnone] at hsome
  cases hsome

theorem Holds.mono {F G : Standing κ → Prop} (h : Holds i F v) (hG : F v → G v) : Holds i G v :=
  ⟨h.certified, h.holder, hG h.holds⟩

section Teardown

variable {i : κ} {F G : Standing κ → Prop} {config : ExperimentConfig}

/-- The fields of the holder are as it has read them. -/
theorem holds_fields :
    Attests i (At (Holds i F)) fields
      (fun m => At (Holds i fun v => F v ∧ v = m.standing)) fun _ => At (Holds i F) :=
  access_meets holds_withstands (fun _ => holds_withstands) (fun _ => holds_withstands)
    (fun _ _ => .still rfl) fun _ hs => hs.mono fun h => ⟨h, rfl⟩

/-- The holder writes a field the threads do not look at. -/
theorem holds_assign {f : Experiment κ → Experiment κ} {R : ExperimentError → Experiment κ → Prop}
    (hstate : ∀ s, (f s).state = s.state) (hhistory : ∀ s, (f s).history = s.history)
    (hrun : ∀ s, s.run.isSome = true → (f s).run.isSome = true)
    (hverdict : ∀ s : Experiment κ, F s.standing → (f s).writers_stopped = false)
    (hG : ∀ s : Experiment κ, F s.standing → G (f s).standing) (hR : ∀ e, Withstands (EvidenceKept i) (R e)) :
    Attests i (At (Holds i F)) (assign f) (fun _ => At (Holds i G)) R := by
  have hstep : ∀ s, At (Holds i F) s → EvidenceGuaranteed i s (f s) ∧ At (Holds i G) (f s) := fun s hs =>
    Holds.step hs (hstate s) (congrArg _ (hhistory s)) (congrArg _ (hhistory s)) (congrArg _ (hhistory s))
      (hrun s) (hverdict s hs.holds) (hG s hs.holds)
  exact assign_meets holds_withstands holds_withstands hR (fun s hs => (hstep s hs).1) fun s hs => (hstep s hs).2

theorem teardown_call_evidence {id : String} :
    Attests i (At (Holds i Manned)) (experiment_call (.teardown id))
      (fun result => At (Holds i fun v =>
        Manned v ∧ ∃ id past, v.history.teardowns = (id, .ok result) :: past)) fun _ => At (Holds i Manned) := by
  have hstep : ∀ (s : Experiment κ) (a : ExperimentAnswer), At (Holds i Manned) s →
      EvidenceGuaranteed i s { s with history := (ExperimentCall.teardown id).recorded a s.history } ∧
        At (Holds i fun v => Manned v ∧
            v.history.teardowns = (id, (ExperimentCall.teardown id).outcome a) :: s.history.teardowns)
          { s with history := (ExperimentCall.teardown id).recorded a s.history } := fun s a hs =>
    Holds.step hs rfl rfl rfl rfl (fun h => h) hs.holds.1 ⟨hs.holds, rfl⟩
  refine call_meets holds_withstands (fun _ => holds_withstands) (fun _ => holds_withstands)
    ⟨fun s a hs _ => (hstep s a hs).1, fun s a hs _ => ?_⟩
  have hnext := (hstep s a hs).2
  show ends _ _ ((ExperimentCall.teardown id).outcome a) _
  cases houtcome : (ExperimentCall.teardown id).outcome a with
  | ok result =>
    rw [houtcome] at hnext
    exact hnext.mono fun h => ⟨h.1, id, s.history.teardowns, h.2⟩
  | error e => exact hnext.mono fun h => h.1

variable {issues : List ExperimentRuntimeIssue}

theorem teardown_settled_evidence {result : Except ExperimentError TeardownResult} :
    Attests i (At (Holds i fun v => Manned v ∧
        ∀ r, result = .ok r → ∃ id past, v.history.teardowns = (id, .ok r) :: past))
      (teardown_settled issues result) (fun r => At (Holds i (Evident r.1))) fun _ => At (Holds i Unjudged) := by
  cases result with
  | ok result =>
    refine (holds_assign (G := Evident (some result)) (by intro _; rfl) (by intro _; rfl) (by intro _ h; exact h)
      (fun s hs => hs.1.1) (fun s hs => ⟨?_, ?_⟩) fun _ => holds_withstands).bind
        (fun _ => Meets.pure holds_withstands fun _ hs => hs) fun _ => holds_withstands
    · exact Manned.unjudged hs.1
    · rintro r ⟨⟩
      exact ⟨hs.2 _ rfl, rfl⟩
  | error e =>
    have hmanned : Attests i (At (Holds i Manned)) (teardown_settled issues (.error e))
        (fun r => At (Holds i fun v => Manned v ∧ r.1 = none)) fun _ => At (Holds i Manned) := by
      refine (conclude_meets holds_withstands).right.bind (fun failure => ?_) fun _ => holds_withstands
      refine still_then holds_withstands (by intro _; rfl) ?_
      refine (still_fields holds_withstands).bind (fun m => ?_) fun _ => holds_withstands
      refine (demand_meets holds_withstands).right.bind (fun _ => ?_) fun _ => holds_withstands
      refine Meets.bind (Q := fun _ => At (Holds i Manned))
        (holds_assign (by intro _; rfl) (by intro _; rfl) (by intro _ h; exact h) (fun s hs => hs.1)
          (fun s hs => hs) fun _ => holds_withstands) (fun _ => ?_) fun _ => holds_withstands
      exact Meets.pure holds_withstands fun s hs => hs.mono fun h => ⟨h, rfl⟩
    refine hmanned.mono (fun s hs => hs.mono fun h => h.1) (fun r s hs => hs.mono fun h => ⟨h.1.unjudged, ?_⟩)
      fun _ s hs => hs.mono Manned.unjudged
    intro result hresult
    rw [h.2] at hresult
    cases hresult

/-- `_teardown` of the holder. -/
theorem teardown_evidence :
    Attests i (At (Holds i Unjudged)) (teardown config)
      (fun r => At (Holds i (Evident r.1))) fun _ => At (Holds i Unjudged) := by
  refine still_then holds_withstands (by intro _; rfl) ?_
  refine (still_tried holds_withstands (still_call_if holds_withstands rfl fun entry heq => by cases heq)).bind
    (fun closing => ?_) fun _ => holds_withstands
  refine holds_fields.bind (fun m => ?_) fun _ => holds_withstands
  cases hrun : m.run with
  | none =>
    refine Meets.pure holds_withstands fun s hs => hs.mono fun h => ⟨h.1, fun result hresult => ?_⟩
    cases hresult
  | some run =>
    have htried := tried_meets (fun _ => holds_withstands) (fun _ => holds_withstands)
      (@teardown_call_evidence κ i run.id)
    have hmanned : ∀ s, At (Holds i fun v => Unjudged v ∧ v = m.standing) s → At (Holds i Manned) s := by
      intro s hs
      refine Holds.mono hs fun h => ⟨h.1.1, ?_⟩
      rw [h.2, show m.standing.run = m.run from rfl, hrun]
      rfl
    refine (htried.mono hmanned (fun r s hs => ?_) fun _ s hs => hs.2.mono Manned.unjudged).bind
      (fun result => teardown_settled_evidence) fun _ => holds_withstands
    cases r with
    | ok result =>
      refine Holds.mono hs fun h => ⟨h.1, ?_⟩
      rintro r ⟨⟩
      exact h.2
    | error e => exact hs.2.mono fun h => ⟨h, fun r hr => by cases hr⟩

variable {t : Experiment κ} {teardown : Option TeardownResult}

/-- The verdict of a stop, or of the cleanup of a start that has failed. -/
theorem Holds.judged {verdict : Bool} (hs : Holds i (Evident teardown) s.standing)
    (hverdict : verdict = true →
      issues = [] ∧ (s.run = none ∧ s.cleanup.verified = true ∨ torn_down teardown = true))
    (ht : t.standing =
      { s.standing with
        state := t.state
        writers_stopped := verdict
        history := { s.history with issues := issues } }) : verdict = true → t.standing.Recorded := by
  intro hstopped
  obtain ⟨hissues, hsource⟩ := hverdict hstopped
  obtain ⟨hunjudged, htorn⟩ := hs.holds
  rw [ht]
  rcases hsource with ⟨hrun, hverified⟩ | hdown
  · exact ⟨hissues, hverified, Or.inr (hunjudged.2 hrun hverified)⟩
  · obtain ⟨result, hresult, hsucceeded⟩ := (Option.any_eq_true _ _).mp hdown
    have hby := htorn result hresult
    refine ⟨hissues, ?_, Or.inl ⟨result, hby, hsucceeded⟩⟩
    show s.standing.cleanup.verified = true
    rw [hby.2]
    exact ((Bool.and_eq_true _ _).mp hsucceeded).2

/-- The cleanup of a start that has failed gives its verdict. -/
theorem note_cleanup_evidence :
    Attests i (At (Holds i (Evident teardown)))
      (assign (note_cleanup (start_verdict issues teardown) issues)) (fun _ => At (Holds i fun _ => True))
      fun _ => At Certified := by
  have hstep : ∀ s : Experiment κ, At (Holds i (Evident teardown)) s →
      EvidenceGuaranteed i s (note_cleanup (start_verdict issues teardown) issues s) ∧
        At (Holds i fun _ => True) (note_cleanup (start_verdict issues teardown) issues s) := by
    intro s hs
    have hverdict : start_verdict issues teardown s = true →
        issues = [] ∧ (s.run = none ∧ s.cleanup.verified = true ∨ torn_down teardown = true) := by
      intro h
      obtain ⟨hissues, hsource⟩ := (Bool.and_eq_true _ _).mp h
      refine ⟨List.isEmpty_iff.mp hissues, ((Bool.or_eq_true _ _).mp hsource).imp (fun hnone => ?_) id⟩
      exact ⟨Option.isNone_iff_eq_none.mp ((Bool.and_eq_true _ _).mp hnone).1, ((Bool.and_eq_true _ _).mp hnone).2⟩
    have hcertified : Certified (note_cleanup (start_verdict issues teardown) issues s).standing :=
      { recorded := hs.judged hverdict rfl
        running := fun hrunning =>
          ⟨(hs.certified.running hrunning).1, fun h => absurd (h.symm.trans (hs.unrecorded hrunning)) Bool.false_ne_true⟩
        fresh := fun hcreated => absurd hcreated hs.not_created }
    exact ⟨hs.guaranteed hcertified fun j _ hj => ⟨hj.starter, hj.recorded, hj.created, hj.starting⟩,
      hcertified, hs.holder, trivial⟩
  exact assign_meets holds_withstands holds_withstands (fun _ => certified_withstands)
    (fun s hs => (hstep s hs).1) fun s hs => (hstep s hs).2

/-- The state that ends a call. -/
theorem Holds.ends (hs : Holds i F s.standing) (hstate : t.state = .stopped ∨ t.state = .failed)
    (hhistory : t.history.starter = s.history.starter ∧ t.history.unrecorded = s.history.unrecorded)
    (hrecorded : t.writers_stopped = true → t.standing.Recorded) :
    EvidenceGuaranteed i s t ∧ At Certified t := by
  have hended : ∀ {state : ExperimentRuntimeState}, state ≠ .stopped → state ≠ .failed → t.state ≠ state := by
    intro state hstopped hfailed heq
    rcases hstate with h | h
    · exact hstopped (heq.symm.trans h)
    · exact hfailed (heq.symm.trans h)
  have hcertified : Certified t.standing :=
    { recorded := hrecorded
      running := fun hrunning => absurd hrunning (hended (by decide) (by decide))
      fresh := fun hcreated => absurd hcreated (hended (by decide) (by decide)) }
  refine ⟨hs.guaranteed hcertified fun j _ hj => ?_, hcertified⟩
  exact ⟨hhistory.1.trans hj.starter, hhistory.2.trans hj.recorded, hended (by decide) (by decide),
    hended (by decide) (by decide)⟩

end Teardown

/-! ## Stopping -/

section Stopping

variable {i : κ} {config : ExperimentConfig}

theorem stopping_entry_type (retrying : Bool) : (stopping_entry retrying).type ≠ "run.running" := by
  cases retrying <;> decide

theorem stopped_entry_type (issues : List ExperimentRuntimeIssue) (failed : Bool) :
    (stopped_entry issues failed).type ≠ "run.running" := by
  unfold stopped_entry
  by_cases hfailed : final_state issues failed = .failed
  · rw [if_pos hfailed]
    exact (by decide : "run.failed" ≠ "run.running")
  · rw [if_neg hfailed]
    exact (by decide : "run.stopped" ≠ "run.running")

theorem final_state_ended (issues : List ExperimentRuntimeIssue) (failed : Bool) :
    final_state issues failed = .stopped ∨ final_state issues failed = .failed := by
  unfold final_state
  by_cases hclean : issues = [] ∧ failed = false
  · exact Or.inl (if_pos hclean)
  · exact Or.inr (if_neg hclean)

variable {o : StopOutcome}

variable {issues : List ExperimentRuntimeIssue} {failed drain : Bool}

/-- The section that gives the verdict of a stop. -/
theorem settle_stop_evidence :
    Attests i (At (Holds i (Evident o.teardown))) (assign (settle_stop o issues failed))
      (fun _ => At Certified) fun _ => At Certified := by
  have hstep : ∀ s : Experiment κ, At (Holds i (Evident o.teardown)) s →
      EvidenceGuaranteed i s (settle_stop o issues failed s) ∧ At Certified (settle_stop o issues failed s) := by
    intro s hs
    refine hs.ends (final_state_ended issues failed) ⟨rfl, rfl⟩ (hs.judged (fun h => ?_) rfl)
    obtain ⟨hsafe, hdown⟩ := (Bool.and_eq_true _ _).mp h
    exact ⟨List.isEmpty_iff.mp ((Bool.and_eq_true _ _).mp hsafe).2, Or.inr hdown⟩
  exact assign_meets holds_withstands certified_withstands (fun _ => certified_withstands)
    (fun s hs => (hstep s hs).1) fun s hs => (hstep s hs).2

theorem publish_evidence :
    Attests i (At Certified) (publish o issues failed) (fun _ => At Certified)
      fun _ => At Certified := by
  refine (still_fields certified_withstands).bind (fun m => ?_) fun _ => certified_withstands
  refine (conclude_meets certified_withstands).right.bind (fun run => ?_) fun _ => certified_withstands
  exact still_then certified_withstands (by intro _; rfl) (Meets.pure certified_withstands fun _ hs => hs)

/-- The end of a stop. -/
theorem finish_evidence :
    Attests i (At (Holds i (Evident o.teardown))) (finish config o) (fun _ => At Certified)
      fun _ => At Certified := by
  have hforget : ∀ s : Experiment κ, At (Holds i (Evident o.teardown)) s → At Certified s := fun _ hs => hs.certified
  refine ((still_access holds_withstands (by intro _; rfl)).post (fun _ _ hs => hs.2)
    fun _ => hforget).bind (fun m => ?_) fun _ => certified_withstands
  refine ((still_record_issues holds_withstands (stopped_entry_type _ _)).on_raise fun _ => hforget).bind (fun recorded => ?_) fun _ => certified_withstands
  refine ((still_assign holds_withstands (by intro _; rfl)).on_raise
    fun _ => hforget).bind (fun _ => ?_) fun _ => certified_withstands
  exact settle_stop_evidence.bind (fun _ => publish_evidence) fun _ => certified_withstands

/-- A stop past its gate. -/
theorem stopping_evidence {retrying : Bool} :
    Attests i (At (Holds i Manned)) (stopping config drain retrying) (fun _ => At Certified)
      fun _ => At Certified := by
  have hforget : ∀ {F : Standing κ → Prop} (s : Experiment κ), At (Holds i F) s → At Certified s :=
    fun _ hs => hs.certified
  refine ((still_fields holds_withstands).on_raise fun _ => hforget).bind
    (fun m => ?_) fun _ => certified_withstands
  refine ((still_record_issues holds_withstands (stopping_entry_type _)).on_raise fun _ => hforget).bind (fun recorded => ?_) fun _ => certified_withstands
  refine ((still_stop_layer holds_withstands).on_raise fun _ => hforget).bind
    (fun telemetry => ?_) fun _ => certified_withstands
  refine ((still_stop_layer holds_withstands).on_raise fun _ => hforget).bind
    (fun continuous => ?_) fun _ => certified_withstands
  refine ((still_report_continuous holds_withstands).on_raise
    fun _ => hforget).bind (fun report => ?_) fun _ => certified_withstands
  refine Meets.bind (Q := fun r => At (Holds i (Evident r.1))) ?_
    (fun result => finish_evidence.pre fun _ hs => hs) fun _ => certified_withstands
  refine Meets.ite (fun _ => ?_) fun _ => ?_
  · exact teardown_evidence.mono (fun s hs => hs.mono Manned.unjudged) (fun _ _ hs => hs) fun _ => hforget
  · refine Meets.pure holds_withstands fun s hs => hs.mono fun h => ⟨h.unjudged, fun result hresult => ?_⟩
    cases hresult

/-- The gate of `stop`. -/
theorem begin_stop_evidence {a : ExperimentAnswer} (hs : Certified s.standing)
    (ha : RecordUndisturbed .begin_stop a s) :
    EvidenceGuaranteed i s (s.begin_stop i) ∧ (s.stoppable = true → At (Holds i Manned) (s.begin_stop i)) := by
  unfold Experiment.begin_stop
  by_cases hopen : s.stoppable = true
  · rw [if_pos hopen]
    have hfacts : s.standing.holder = none ∧ s.writers_stopped = false ∧ s.run.isSome = true ∧ Late s := by
      have hstate := ((Bool.and_eq_true _ _).mp hopen).2
      rcases (Bool.or_eq_true _ _).mp hstate with hdecided | hretrying
      · have hrunning := of_decide_eq_true hdecided
        have hrecorded := ha hrunning
        have hrun := hs.running hrunning
        refine ⟨?_, hrun.2 hrecorded, hrun.1, late_of hrunning (by decide)⟩
        unfold Standing.holder
        rw [show s.standing.state = .running from hrunning]
        exact if_neg (by rw [show s.standing.history.unrecorded = false from hrecorded]; decide)
      · obtain ⟨hfront, hverdict⟩ := (Bool.and_eq_true _ _).mp hretrying
        obtain ⟨hfailed, hrun⟩ := (Bool.and_eq_true _ _).mp hfront
        refine ⟨?_, (Bool.not_eq_true' _).mp hverdict, hrun, late_of (of_decide_eq_true hfailed) (by decide)⟩
        unfold Standing.holder
        rw [show s.standing.state = .failed from of_decide_eq_true hfailed]
    obtain ⟨hholder, hverdict, hrun, hlate⟩ := hfacts
    have hcertified : Certified ({ s with
        state := .stopping, history := { s.history with stopper := some i } } : Experiment κ).standing :=
      { recorded := fun h => absurd (hverdict.symm.trans h) Bool.false_ne_true
        running := fun h => ExperimentRuntimeState.noConfusion h
        fresh := fun h => ExperimentRuntimeState.noConfusion h }
    refine ⟨⟨fun _ => hcertified, fun j _ => ⟨fun _ => hcertified, fun hheld => ?_, fun hj => ?_⟩⟩,
      fun _ => ⟨hcertified, rfl, hverdict, hrun⟩⟩
    · rw [hholder] at hheld
      cases hheld
    · exact ⟨hj.starter, hj.recorded, fun h => ExperimentRuntimeState.noConfusion h,
        fun h => ExperimentRuntimeState.noConfusion h⟩
  · rw [if_neg hopen]
    exact ⟨.still rfl, fun h => absurd h hopen⟩

theorem stop_evidence {timeout_seconds : ℚ} :
    Attests i (At Certified) (stop config drain timeout_seconds) (fun _ => At Certified)
      fun _ => At Certified := by
  have hgate : Attests i (At Certified)
      (Program.perform .begin_stop fun m => .done (.ok m) : ExperimentRoutine κ (Experiment κ))
      (fun m s => At Certified s ∧ (m.stoppable = true → At (Holds i Manned) s)) fun _ => At Certified :=
    perform_meets (o := .begin_stop) (k := .ok) certified_withstands
      (fun m s t hs hst => ⟨certified_withstands s t hs.1 hst, fun hm => holds_withstands s t (hs.2 hm) hst⟩)
      (fun _ => certified_withstands)
      ⟨fun s a hs ha => (begin_stop_evidence hs ha).1, fun s a hs ha =>
        ⟨(begin_stop_evidence hs ha).1.1 hs, (begin_stop_evidence hs ha).2⟩⟩
  refine (demand_meets certified_withstands).right.bind (fun _ => ?_) fun _ => certified_withstands
  refine hgate.bind (fun m => ?_) fun _ => certified_withstands
  refine Meets.ite (fun hopen => ?_) fun _ => ?_
  · exact stopping_evidence.pre fun s hs => hs.2 hopen
  · exact ((conclude_meets certified_withstands).mono (fun _ hs => hs.1) (fun _ _ hs => hs.2)
      fun _ _ hs => hs.2)

end Stopping

/-! ## Starting -/

/-- What the handler of a start that fails has to find. -/
def Faces (e : ExperimentError) (v : Standing κ) : Prop :=
  v.writers_stopped = false ∧ (v.run = none → e.cleanup.verified = true →
    ∃ e', v.history.deploy = some (.error e') ∧ e'.cleanup = e.cleanup)

/-- The network is not there yet. -/
structure Bare (v : Standing κ) : Prop where
  verdict : v.writers_stopped = false
  run : v.run = none
  unverified : v.cleanup.verified = false
  recorded : v.history.unrecorded = false
  starting : v.state = .starting

/-- The network is there, and the layers are on their way. -/
structure Underway (v : Standing κ) : Prop where
  manned : Manned v
  recorded : v.history.unrecorded = false
  starting : v.state = .starting

theorem Manned.faces {e : ExperimentError} (h : Manned v) : Faces e v := by
  refine ⟨h.1, fun hnone => ?_⟩
  have hsome := h.2
  rw [hnone] at hsome
  cases hsome

section Starting

variable {i : κ} {config : ExperimentConfig}

theorem faces_withstands (e : ExperimentError) : Withstands (EvidenceKept i) (At (Holds i (@Faces κ e))) :=
  holds_withstands

variable {s : Experiment κ}

variable {e : ExperimentError}

/-- An exception once the network is there. -/
theorem deployed_faces (hs : At (Holds i Underway) s) : At (Holds i (Faces e)) s :=
  Holds.mono hs fun h => h.manned.faces

/-- The bounded startup check has no evidence of a cleanup. -/
theorem verify_evidence :
    Attests i (At (Holds i Bare)) (experiment_call .verify_bounded_startup)
      (fun _ => At (Holds i Bare)) fun e => At (Holds i (Faces e)) := by
  refine call_meets holds_withstands (fun _ => holds_withstands) faces_withstands
    ⟨fun s a hs _ => .still rfl, fun s a hs _ => ?_⟩
  show ends _ _ (ExperimentCall.verify_bounded_startup.outcome a) s
  unfold ExperimentCall.outcome
  cases a.raised with
  | none => exact hs
  | some e => exact Holds.mono hs fun h => ⟨h.verdict, fun _ hverified => absurd hverified Bool.false_ne_true⟩

/-- A `deploy` that fails brings its evidence. -/
theorem deploy_evidence :
    Attests i (At (Holds i Bare)) (experiment_call .deploy)
      (fun _ => At (Holds i Bare)) fun e => At (Holds i (Faces e)) := by
  have hstep : ∀ (s : Experiment κ) (a : ExperimentAnswer), At (Holds i Bare) s →
      EvidenceGuaranteed i s { s with history := ExperimentCall.deploy.recorded a s.history } ∧
        At (Holds i fun v => Bare v ∧ v.history.deploy = some (a.reply a.run))
          { s with history := ExperimentCall.deploy.recorded a s.history } := by
    intro s a hs
    refine Holds.step hs rfl rfl rfl rfl id hs.holds.verdict ⟨?_, rfl⟩
    exact ⟨hs.holds.verdict, hs.holds.run, hs.holds.unverified, hs.holds.recorded, hs.holds.starting⟩
  refine call_meets holds_withstands (fun _ => holds_withstands) faces_withstands
    ⟨fun s a hs _ => (hstep s a hs).1, fun s a hs _ => ?_⟩
  refine ExperimentAnswer.reply_ends (fun _ => (hstep s a hs).2.mono And.left) fun e he => ?_
  refine (hstep s a hs).2.mono fun h => ⟨h.1.verdict, fun _ _ => ⟨e, ?_, rfl⟩⟩
  rw [h.2]
  unfold ExperimentAnswer.reply
  rw [he]
  rfl

/-- Calls and records while the layers are on their way. -/
theorem still_deployed {α : Type} {x : ExperimentRoutine κ α}
    (hx : Attests i (At (Holds i Underway)) x (fun _ => At (Holds i Underway))
      fun _ => At (Holds i Underway)) :
    Attests i (At (Holds i Underway)) x (fun _ => At (Holds i Underway))
      fun e => At (Holds i (Faces e)) :=
  hx.on_raise fun _ _ => deployed_faces

/-- What `start` does before the layers are there. -/
theorem prepare_evidence :
    Attests i (At (Holds i Bare)) (prepare config) (fun _ => At (Holds i Underway))
      fun e => At (Holds i (Faces e)) := by
  refine verify_evidence.bind (fun _ => ?_) faces_withstands
  refine deploy_evidence.bind (fun run => ?_) faces_withstands
  refine Meets.bind (Q := fun _ => At (Holds i Underway)) ?_ (fun _ => ?_) faces_withstands
  · exact holds_assign (by intro _; rfl) (by intro _; rfl) (fun _ _ => rfl) (fun s hs => hs.verdict)
      (fun s hs => ⟨⟨hs.verdict, rfl⟩, hs.recorded, hs.starting⟩) faces_withstands
  refine (still_deployed (still_call_if holds_withstands rfl fun entry heq => by cases heq)).bind
    (fun _ => ?_) faces_withstands
  refine (still_deployed (still_record holds_withstands (by decide))).bind (fun _ => ?_) faces_withstands
  refine (still_deployed (still_calls holds_withstands (fun c hc => ?_) fun c hc entry heq => ?_)).bind
    (fun _ => Meets.pure holds_withstands fun _ hs => hs) faces_withstands
  · obtain ⟨part, -, rfl⟩ := List.mem_map.mp hc
    rfl
  · obtain ⟨part, -, rfl⟩ := List.mem_map.mp hc
    cases heq

/-- The layers are up. -/
theorem running_evidence :
    Attests i (At (Holds i Underway)) (assign fun m => { m with state := .running })
      (fun _ => At fun v => Certified v ∧ Begun i v) fun e => At (Holds i (Faces e)) := by
  have hstep : ∀ s : Experiment κ, At (Holds i Underway) s →
      EvidenceGuaranteed i s { s with state := .running } ∧
        Certified ({ s with state := .running } : Experiment κ).standing ∧
        Begun i ({ s with state := .running } : Experiment κ).standing := by
    intro s hs
    have hcertified : Certified ({ s with state := .running } : Experiment κ).standing :=
      { recorded := fun h => absurd (hs.holds.manned.1.symm.trans h) Bool.false_ne_true
        running := fun _ => ⟨hs.holds.manned.2, fun _ => hs.holds.manned.1⟩
        fresh := fun h => ExperimentRuntimeState.noConfusion h }
    have hstarter : s.history.starter = some i := by
      have hholder := hs.holder
      unfold Standing.holder at hholder
      rw [hs.holds.starting] at hholder
      exact hholder
    refine ⟨hs.guaranteed hcertified fun j _ hj => absurd hs.holds.starting hj.starting, hcertified, ?_⟩
    exact ⟨hstarter, hs.holds.recorded, fun h => ExperimentRuntimeState.noConfusion h,
      fun h => ExperimentRuntimeState.noConfusion h⟩
  exact assign_meets holds_withstands begun_withstands faces_withstands (fun s hs => (hstep s hs).1)
    fun s hs => (hstep s hs).2

/-- The last record fails: the thread has the shutdown, for nobody has begun a stop. -/
theorem Begun.unrecorded (hs : Certified s.standing ∧ Begun i s.standing)
    (hrunning : s.state = .running) :
    EvidenceGuaranteed i s { s with history := { s.history with unrecorded := true } } ∧
      At (Holds i Manned) { s with history := { s.history with unrecorded := true } } := by
  obtain ⟨hcertified, hbegun⟩ := hs
  obtain ⟨hrun, hverdict⟩ := hcertified.running hrunning
  have hfalse : s.writers_stopped = false := hverdict hbegun.recorded
  have hnext : Certified
      ({ s with history := { s.history with unrecorded := true } } : Experiment κ).standing :=
    { recorded := fun h => absurd (hfalse.symm.trans h) Bool.false_ne_true
      running := fun _ => ⟨hrun, fun _ => hfalse⟩
      fresh := fun hcreated => absurd hcreated hbegun.created }
  have hfree : s.standing.holder = none := by
    unfold Standing.holder
    rw [show s.standing.state = .running from hrunning]
    exact if_neg (by rw [hbegun.recorded]; decide)
  have hholder : ({ s with history := { s.history with unrecorded := true } } : Experiment κ).standing.holder =
      some i := by
    unfold Standing.holder
    rw [show ({ s with history := { s.history with unrecorded := true } } : Experiment κ).standing.state =
      .running from hrunning]
    exact hbegun.starter
  refine ⟨⟨fun _ => hnext, fun j hj => ⟨fun _ => hnext, fun hheld => ?_, fun hother => ?_⟩⟩,
    hnext, hholder, hfalse, hrun⟩
  · rw [hfree] at hheld
    cases hheld
  · exact absurd (Option.some.inj (hother.starter.symm.trans hbegun.starter)) hj

/-- The last record of a start. -/
theorem running_record_evidence {entry : LifecycleEntry} (hentry : entry.type = "run.running") :
    Attests i (At fun v => Certified v ∧ Begun i v) (experiment_call (.append entry))
      (fun _ => At Certified) fun e => At (Holds i (Faces e)) := by
  have hrecorded : ∀ (s : Experiment κ) (a : ExperimentAnswer), a.raised.isSome = true →
      ({ s with history := (ExperimentCall.append entry).recorded a s.history } : Experiment κ) =
        { s with history := { s.history with unrecorded := true } } := fun s a ha =>
    congrArg (fun past => ({ s with history := past } : Experiment κ)) (if_pos ⟨hentry, ha⟩)
  have hsame : ∀ (s : Experiment κ) (a : ExperimentAnswer), ¬ a.raised.isSome = true →
      ({ s with history := (ExperimentCall.append entry).recorded a s.history } : Experiment κ) = s := fun s a ha =>
    congrArg (fun past => ({ s with history := past } : Experiment κ)) (if_neg fun h => ha h.2)
  refine call_meets begun_withstands (fun _ => certified_withstands) faces_withstands
    ⟨fun s a hs ha => ?_, fun s a hs ha => ?_⟩
  · by_cases hraised : a.raised.isSome = true
    · show EvidenceGuaranteed i s { s with history := (ExperimentCall.append entry).recorded a s.history }
      rw [hrecorded s a hraised]
      exact (Begun.unrecorded hs (ha hentry hraised)).1
    · exact .still (congrArg Experiment.standing (hsame s a hraised))
  · refine ExperimentAnswer.reply_ends (fun hreturns => ?_) fun e hraises => ?_
    · have hraised : ¬ a.raised.isSome = true := by
        rw [hreturns]
        decide
      show At Certified { s with history := (ExperimentCall.append entry).recorded a s.history }
      rw [hsame s a hraised]
      exact hs.1
    · have hraised : a.raised.isSome = true := by
        rw [hraises]
        rfl
      show At (Holds i (Faces e)) { s with history := (ExperimentCall.append entry).recorded a s.history }
      rw [hrecorded s a hraised]
      exact (Begun.unrecorded hs (ha hentry hraised)).2.mono Manned.faces

/-- The body of `start`. -/
theorem starting_evidence :
    Attests i (At (Holds i Bare)) (starting config) (fun _ => At Certified)
      fun e => At (Holds i (Faces e)) := by
  refine prepare_evidence.bind (fun run => ?_) faces_withstands
  refine (still_deployed (still_assign holds_withstands (by intro _; rfl))).bind (fun _ => ?_) faces_withstands
  refine (still_deployed (still_launch holds_withstands)).bind (fun _ => ?_) faces_withstands
  refine (still_deployed (still_launch holds_withstands)).bind (fun _ => ?_) faces_withstands
  refine running_evidence.bind (fun _ => ?_) faces_withstands
  refine Meets.bind (Q := fun _ => At Certified) ?_
    (fun _ => Meets.pure certified_withstands fun _ hs => hs) faces_withstands
  have hread : Attests i (At fun v : Standing κ => Certified v ∧ Begun i v) fields
      (fun _ => At fun v => Certified v ∧ Begun i v) fun e => At (Holds i (Faces e)) :=
    access_meets begun_withstands (fun _ => begun_withstands) faces_withstands (fun _ _ => .still rfl)
      fun _ hs => hs
  refine hread.bind (fun m => ?_) faces_withstands
  by_cases hrecords : config.ledger = true ∧ m.run.isSome = true
  · rw [if_pos hrecords]
    exact (running_record_evidence rfl).bind (fun _ => Meets.pure certified_withstands fun _ hs => hs)
      faces_withstands
  · rw [if_neg hrecords]
    exact Meets.pure begun_withstands fun _ hs => hs.1

theorem cleanup_start_failure_evidence :
    Attests i (At (Holds i Unjudged)) (cleanup_start_failure config)
      (fun _ => At (Holds i fun _ => True)) fun _ => At Certified := by
  have hforget : ∀ {F : Standing κ → Prop} (s : Experiment κ), At (Holds i F) s → At Certified s :=
    fun _ hs => hs.certified
  refine ((still_stop_started holds_withstands).on_raise fun _ => hforget).bind
    (fun telemetry => ?_) fun _ => certified_withstands
  refine ((still_stop_started holds_withstands).on_raise fun _ => hforget).bind
    (fun continuous => ?_) fun _ => certified_withstands
  refine Meets.ite (fun _ => ?_) fun _ => Meets.pure holds_withstands fun s hs => hs.mono fun _ => trivial
  exact (teardown_evidence.on_raise fun _ => hforget).bind
    (fun result => note_cleanup_evidence) fun _ => certified_withstands

/-- The handler of `start`. -/
theorem start_failed_evidence :
    Attests i (At (Holds i (Faces e))) (start_failed config e) (fun _ => At Certified)
      fun _ => At Certified := by
  have hforget : ∀ {F : Standing κ → Prop} (s : Experiment κ), At (Holds i F) s → At Certified s :=
    fun _ hs => hs.certified
  refine ((still_assign holds_withstands (by intro _; rfl)).on_raise
    fun _ => hforget).bind (fun _ => ?_) fun _ => certified_withstands
  refine Meets.bind (Q := fun _ => At (Holds i Unjudged)) ?_ (fun _ => ?_) fun _ => certified_withstands
  · refine holds_assign (by intro _; rfl) (by intro _; rfl) (fun _ h => h) (fun s hs => hs.1)
      (fun s hs => ⟨hs.1, fun hrun hverified => ?_⟩) fun _ => certified_withstands
    exact ⟨hrun, hs.2 hrun hverified⟩
  refine cleanup_start_failure_evidence.bind (fun _ => ?_) fun _ => certified_withstands
  refine Meets.bind (Q := fun _ => At Certified) ?_ (fun _ => ?_) fun _ => certified_withstands
  · have hstep : ∀ s : Experiment κ, At (Holds i fun _ => True) s →
        EvidenceGuaranteed i s { s with state := .failed } ∧ At Certified { s with state := .failed } := by
      intro s hs
      refine hs.ends (Or.inr rfl) ⟨rfl, rfl⟩ fun h => ?_
      have hrecorded := hs.certified.recorded h
      exact ⟨hrecorded.issues, hrecorded.verified, hrecorded.source⟩
    exact assign_meets holds_withstands certified_withstands (fun _ => certified_withstands)
      (fun s hs => (hstep s hs).1) fun s hs => (hstep s hs).2
  · exact (still_fields certified_withstands).bind (fun m => Meets.raise certified_withstands fun _ hs => hs)
      fun _ => certified_withstands

/-- The gate of `start`. -/
theorem begin_start_evidence (hs : Certified s.standing) :
    EvidenceGuaranteed i s (s.begin_start i) ∧ (s.state = .created → At (Holds i Bare) (s.begin_start i)) := by
  unfold Experiment.begin_start
  by_cases hcreated : s.state = .created
  · rw [if_pos hcreated]
    have hfresh := hs.fresh hcreated
    have hverdict : s.writers_stopped = false := congrArg Standing.writers_stopped hfresh
    have hcertified : Certified ({ s with
        state := .starting, history := { s.history with starter := some i } } : Experiment κ).standing :=
      { recorded := fun h => absurd (hverdict.symm.trans h) Bool.false_ne_true
        running := fun h => ExperimentRuntimeState.noConfusion h
        fresh := fun h => ExperimentRuntimeState.noConfusion h }
    refine ⟨⟨fun _ => hcertified, fun j _ => ⟨fun _ => hcertified, fun hheld => ?_, fun hj => ?_⟩⟩,
      fun _ => ⟨hcertified, rfl, hverdict, ?_, ?_, ?_, rfl⟩⟩
    · rw [hfresh] at hheld
      cases hheld
    · exact absurd hcreated hj.created
    · exact congrArg Standing.run hfresh
    · show s.standing.cleanup.verified = false
      rw [hfresh]
      rfl
    · exact congrArg (fun v => v.history.unrecorded) hfresh
  · rw [if_neg hcreated]
    exact ⟨.still rfl, fun h => absurd h hcreated⟩

theorem start_evidence :
    Attests i (At Certified) (start config) (fun _ => At Certified) fun _ => At Certified := by
  have hgate : Attests i (At Certified)
      (Program.perform .begin_start fun m => .done (.ok m) : ExperimentRoutine κ (Experiment κ))
      (fun m s => At Certified s ∧ (m.state = .created → At (Holds i Bare) s)) fun _ => At Certified :=
    perform_meets (o := .begin_start) (k := .ok) certified_withstands
      (fun m s t hs hst => ⟨certified_withstands s t hs.1 hst, fun hm => holds_withstands s t (hs.2 hm) hst⟩)
      (fun _ => certified_withstands)
      ⟨fun s a hs _ => (begin_start_evidence hs).1, fun s a hs _ =>
        ⟨(begin_start_evidence hs).1.1 hs, (begin_start_evidence hs).2⟩⟩
  refine hgate.bind (fun m => ?_) fun _ => certified_withstands
  refine Meets.ite (fun hcreated => ?_) fun _ =>
    Meets.pre (P := At Certified) (Meets.raise certified_withstands fun _ hs => hs) fun _ hs => hs.1
  exact (starting_evidence.handle (fun e => start_failed_evidence) fun _ => certified_withstands).pre
    fun s hs => hs.2 hcreated

end Starting

/-! ## In every run -/

theorem request_evidence {config : ExperimentConfig} {request : ExperimentRequest}
    (hs : Certified s.standing) :
    (request.body config).Ensures (evidence_terms i) (fun _ => At Certified) s := by
  have hend : ∀ {α : Type} (r : Except ExperimentError α) (t : Experiment κ),
      ends (fun _ : α => At Certified) (fun _ => At Certified) r t →
        (Program.done () : Program (ExperimentOp κ) ExperimentOp.Reply Unit).Ensures (evidence_terms i)
          (fun _ => At Certified) t := by
    intro α r t hr u hu
    cases r with
    | ok _ => exact certified_withstands t u hr hu
    | error _ => exact certified_withstands t u hr hu
  cases request with
  | start => exact Program.Ensures.bind ((start_evidence s hs).mono fun r t hr => hend r t hr)
  | stop drain timeout_seconds =>
    exact Program.Ensures.bind ((stop_evidence s hs).mono fun r t hr => hend r t hr)

/-- The threads keep to the evidence. -/
theorem evidence_discipline [DecidableEq κ] (config : ExperimentConfig) :
    (@experiment_threads κ _ config).Discipline (fun _ o a s => RecordUndisturbed o a s) evidence_terms
      (At Certified) fun _ => At Certified where
  init m hm := by
    rw [show m = {} from hm]
    have hcertified : At Certified ({} : Experiment κ) :=
      { recorded := fun h => absurd h Bool.false_ne_true
        running := fun h => ExperimentRuntimeState.noConfusion h
        fresh := fun _ => rfl }
    exact ⟨hcertified, fun _ => hcertified⟩
  act i o a s ha := ⟨a, ha, rfl⟩
  body i c s hs _ := request_evidence hs
  keeps i s t hs hguar := hguar.1 hs
  relied i j s t hj _ hguar := hguar.2 j hj
  idle i := certified_withstands
  die i s hs := ⟨hs, hs, fun j _ => .still rfl⟩

/-- What a state of a run has to meet: no teardown was called under running writers, and the
verdict stands for the recorded cleanup. -/
structure ShutdownSafe (p : Pool (ExperimentOp κ) ExperimentOp.Reply (Experiment κ) κ) : Prop where
  ordered : TeardownOrdered p
  certified : p.shared.writers_stopped = true → p.shared.standing.Recorded

/-- In every run of starts and stops where the record of the running run does not fail
beside a stop, every state is safe. -/
theorem shutdown_safe_undisturbed [DecidableEq κ] (config : ExperimentConfig)
    {p : Pool (ExperimentOp κ) ExperimentOp.Reply (Experiment κ) κ}
    (hp : (experiment_threads config).system.ReachableUnder
      (Threads.Permitted fun _ o a s => RecordUndisturbed o a s) p) : ShutdownSafe p where
  ordered := teardown_ordered config hp.reachable
  certified := ((evidence_discipline config).reachable hp).1.recorded

/-! ### A start beside a stop -/

theorem cleanup_verified : CleanupEvidence .verified [] [] ["no owned resource is left"] [] where
  verified _ := ⟨List.cons_ne_nil _ _, rfl, rfl, rfl⟩
  incomplete h := by cases h

/-- The network is gone. -/
def removed : TeardownResult where
  run := { id := "run-1", state := .stopped }
  operation := .succeeded
  cleanup :=
    { status := .verified
      remaining_resources := []
      unknown_resources := []
      evidence := ["no owned resource is left"]
      evidence_gaps := []
      verification_requires_evidence := cleanup_verified }

/-- The thread `true` starts the experiment, up to its last record. -/
def started_schedule : List (PoolEvent Bool ExperimentRequest ExperimentAnswer) :=
  .call true .start :: List.replicate 21 (.act true {})

/-- The thread `false` stops it, up to its verdict. -/
def stopped_schedule : List (PoolEvent Bool ExperimentRequest ExperimentAnswer) :=
  .call false (.stop true 30) :: List.replicate 19 (.act false {}) ++
    .act false { result := removed } :: List.replicate 6 (.act false {})

/-- The record of the running run fails, and the handler notes a cleanup that is unknown. -/
def unrecorded_schedule : List (PoolEvent Bool ExperimentRequest ExperimentAnswer) :=
  [.act true { raised := some { class_name := "LedgerError" } }, .act true {}, .act true {}]

/-- Nobody has called anything yet. -/
def experiment_unused : Pool (ExperimentOp Bool) ExperimentOp.Reply (Experiment Bool) Bool where
  shared := {}
  running _ := none

theorem experiment_unused_init : (@experiment_threads Bool _ {}).system.init experiment_unused :=
  ⟨rfl, fun _ => rfl⟩

/-- The record passes, and then the experiment is stopped. -/
theorem shutdown_safe_stopped : ∃ p : Pool (ExperimentOp Bool) ExperimentOp.Reply (Experiment Bool) Bool,
    p.shared.writers_stopped = true ∧ ShutdownSafe p := by
  have hrun : ((((@experiment_threads Bool _ {}).system.guarded
      (Threads.Permitted fun _ o a s => RecordUndisturbed o a s)).run experiment_unused
        (started_schedule ++ .act true {} :: stopped_schedule)).any fun p => p.shared.writers_stopped) = true := by
    decide
  obtain ⟨p, hp, hstopped⟩ := (Option.any_eq_true _ _).mp hrun
  have hreachable : ((@experiment_threads Bool _ {}).system.guarded
      (Threads.Permitted fun _ o a s => RecordUndisturbed o a s)).Reachable p :=
    System.Reachable.run (.init experiment_unused_init) hp
  exact ⟨p, hstopped, shutdown_safe_undisturbed {} hreachable.unguarded⟩

/-- The record fails when a stop has verified the teardown: the verdict is true, and the
recorded cleanup is unknown. -/
theorem writers_stopped_unverified :
    ¬ ∀ p : Pool (ExperimentOp Bool) ExperimentOp.Reply (Experiment Bool) Bool,
      (experiment_threads {}).system.Reachable p → ShutdownSafe p := by
  intro hclaim
  have hrun : (((@experiment_threads Bool _ {}).system.run experiment_unused
      (started_schedule ++ stopped_schedule ++ unrecorded_schedule)).any fun p =>
        p.shared.writers_stopped && !p.shared.cleanup.verified) = true := by
    decide
  obtain ⟨p, hp, hends⟩ := (Option.any_eq_true _ _).mp hrun
  obtain ⟨hstopped, hunverified⟩ := (Bool.and_eq_true _ _).mp hends
  have hsafe := hclaim p (System.Reachable.run (.init experiment_unused_init) hp)
  have hverified : p.shared.cleanup.verified = true := (hsafe.certified hstopped).verified
  rw [hverified] at hunverified
  cases hunverified

end MininetAi
