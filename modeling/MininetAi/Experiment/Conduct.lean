/-
Rules for the routines of the experiment, whatever its threads rely on.

The terms of a thread are its answers (`A` says which of them count), what it relies on and
what it guarantees. The rules take a routine apart into its operations; each operation has
to keep to the guarantee and to lead from one assertion to the next.
-/
import MininetAi.Experiment.Runtime

set_option autoImplicit false

namespace MininetAi

open Routine

variable {κ : Type}

/-- The terms of the thread `i`. -/
def turns (i : κ) (A : ExperimentOp κ → ExperimentAnswer → Experiment κ → Prop)
    (rely guar : Experiment κ → Experiment κ → Prop) (hrefl : ∀ s, rely s s)
    (htrans : ∀ s t u, rely s t → rely t u → rely s u) :
    Terms (ExperimentOp κ) ExperimentOp.Reply (Experiment κ) where
  act o s r t := ∃ a, A o a s ∧ ExperimentOp.act i a o s = (r, t)
  rely := rely
  guar := guar
  rely_refl := hrefl
  rely_trans := htrans

/-- The calls that return nothing and note nothing but a record that fails. -/
def ExperimentCall.plain : ExperimentCall → Bool
  | verify_bounded_startup | deploy | teardown _ => false
  | _ => true

variable {c : ExperimentCall}

theorem ExperimentCall.outcome_plain (h : c.plain = true) (a : ExperimentAnswer) :
    ∃ v, c.outcome a = a.reply v := by
  cases c with
  | verify_bounded_startup => cases h
  | deploy => cases h
  | teardown id => cases h
  | _ => exact ⟨(), rfl⟩

variable {a : ExperimentAnswer} {s : Experiment κ} {R : ExperimentError → Experiment κ → Prop}

/-- A call that raises nothing returns, and one that raises does so. -/
theorem ExperimentAnswer.reply_ends {α : Type} {v : α} {Q : α → Experiment κ → Prop}
    (hQ : a.raised = none → Q v s) (hR : ∀ e, a.raised = some e → R e s) : ends Q R (a.reply v) s := by
  unfold reply
  cases hraised : a.raised with
  | none => exact hQ hraised
  | some e => exact hR e hraised

/-- Any call returns or raises as its answer does. -/
theorem ExperimentCall.outcome_ends {Q : c.Value → Experiment κ → Prop}
    (hQ : a.raised = none → ∀ v, Q v s) (hR : a.raised ≠ none → ∀ e, R e s) :
    ends Q R (c.outcome a) s := by
  cases c with
  | verify_bounded_startup =>
    unfold outcome
    cases hraised : a.raised with
    | none => exact hQ hraised ()
    | some e => exact hR (by rw [hraised]; exact Option.some_ne_none e) _
  | _ =>
    exact ExperimentAnswer.reply_ends (fun h => hQ h _) fun e h =>
      hR (by rw [h]; exact Option.some_ne_none e) e

/-- What the history has besides, after a plain call. -/
theorem ExperimentCall.recorded_plain (h : c.plain = true) (a : ExperimentAnswer)
    (past : History κ) : ∃ b, c.recorded a past = { past with unrecorded := b } := by
  cases c with
  | verify_bounded_startup => cases h
  | deploy => cases h
  | teardown id => cases h
  | append entry =>
    by_cases hfails : entry.type = "run.running" ∧ a.raised.isSome = true
    · exact ⟨true, if_pos hfails⟩
    · exact ⟨past.unrecorded, if_neg hfails⟩
  | _ => exact ⟨past.unrecorded, rfl⟩

section

variable {i : κ} {A : ExperimentOp κ → ExperimentAnswer → Experiment κ → Prop}
  {rely guar : Experiment κ → Experiment κ → Prop} {hrefl : ∀ s, rely s s}
  {htrans : ∀ s t u, rely s t → rely t u → rely s u} {α β : Type}

/-- Others keep an assertion. -/
def Withstands (rely : Experiment κ → Experiment κ → Prop) (P : Experiment κ → Prop) : Prop :=
  ∀ s t, P s → rely s t → P t

/-- What one operation of a thread has to do. -/
structure Leads (i : κ) (A : ExperimentOp κ → ExperimentAnswer → Experiment κ → Prop)
    (guar : Experiment κ → Experiment κ → Prop) (P : Experiment κ → Prop) (o : ExperimentOp κ)
    (Q : o.Reply → Experiment κ → Prop) : Prop where
  kept : ∀ s a, P s → A o a s → guar s (o.act i a s).2
  next : ∀ s a, P s → A o a s → Q (o.act i a s).1 (o.act i a s).2

variable {P : Experiment κ → Prop} {R : ExperimentError → Experiment κ → Prop}
  {Q : α → Experiment κ → Prop}

theorem perform_meets {o : ExperimentOp κ}
    {k : o.Reply → Except ExperimentError α} (hP : Withstands rely P)
    (hQ : ∀ a, Withstands rely (Q a)) (hR : ∀ e, Withstands rely (R e))
    (h : Leads i A guar P o fun r => ends Q R (k r)) : Meets (turns i A rely guar hrefl htrans) P
      (Program.perform o fun r => .done (k r) : ExperimentRoutine κ α) Q R := by
  rintro s hs t hst r u ⟨a, ha, hact⟩
  have hkept := h.kept t a (hP s t hs hst) ha
  have hnext := h.next t a (hP s t hs hst) ha
  rw [hact] at hkept hnext
  refine ⟨hkept, fun v hv => ?_⟩
  cases hk : k r with
  | ok b =>
    rw [hk] at hnext
    exact hQ b u v hnext hv
  | error e =>
    rw [hk] at hnext
    exact hR e u v hnext hv

theorem call_meets {c : ExperimentCall} {Q : c.Value → Experiment κ → Prop}
    (hP : Withstands rely P) (hQ : ∀ v, Withstands rely (Q v)) (hR : ∀ e, Withstands rely (R e))
    (h : Leads i A guar P (.call c) fun r => ends Q R r) :
    Meets (turns i A rely guar hrefl htrans) P (experiment_call c) Q R :=
  perform_meets (o := .call c) (k := fun r => r) hP hQ hR h

variable {f : Experiment κ → Experiment κ}

theorem access_meets {Q : Experiment κ → Experiment κ → Prop} (hP : Withstands rely P)
    (hQ : ∀ m, Withstands rely (Q m)) (hR : ∀ e, Withstands rely (R e))
    (hkept : ∀ s, P s → guar s (f s)) (hnext : ∀ s, P s → Q s (f s)) :
    Meets (turns i A rely guar hrefl htrans) P (access f) Q R :=
  perform_meets (k := .ok) hP hQ hR ⟨fun s _ hs _ => hkept s hs, fun s _ hs _ => hnext s hs⟩

theorem assign_meets {Q : Experiment κ → Prop} (hP : Withstands rely P) (hQ : Withstands rely Q)
    (hR : ∀ e, Withstands rely (R e)) (hkept : ∀ s, P s → guar s (f s))
    (hnext : ∀ s, P s → Q (f s)) :
    Meets (turns i A rely guar hrefl htrans) P (assign f) (fun _ => Q) R :=
  perform_meets (k := fun _ => .ok ()) hP (fun _ => hQ) hR
    ⟨fun s _ hs _ => hkept s hs, fun s _ hs _ => hnext s hs⟩

/-- Calls one after the other, with what each return says. The induction is on the calls. -/
theorem call_all_meets {K : ExperimentCall → Prop} {calls : List ExperimentCall}
    (hP : Withstands rely P) (hR : ∀ e, Withstands rely (R e)) (h : ∀ c ∈ calls,
      Meets (turns i A rely guar hrefl htrans) P (experiment_call c) (fun _ s => K c ∧ P s) R) :
    Meets (turns i A rely guar hrefl htrans) P (call_all calls) (fun _ s => (∀ c ∈ calls, K c) ∧ P s) R := by
  induction calls with
  | nil => exact Meets.pure hP fun s hs => ⟨fun c hc => absurd hc List.not_mem_nil, hs⟩
  | cons c rest ih =>
    have hrest := ih fun c' hc' => h c' (List.mem_cons_of_mem c hc')
    refine (h c List.mem_cons_self).bind (fun v => Meets.given fun hc => ?_) hR
    refine hrest.on_return fun _ s hs => ⟨?_, hs.2⟩
    exact List.forall_mem_cons.mpr ⟨hc, hs.1⟩

/-- An exception that is caught. -/
theorem tried_meets {x : ExperimentRoutine κ α}
    (hQ : ∀ a, Withstands rely (Q a)) (hR : ∀ e, Withstands rely (R e))
    (hx : Meets (turns i A rely guar hrefl htrans) P x Q R) :
    Meets (turns i A rely guar hrefl htrans) P (tried x)
      (ends Q fun e s => e.is_exception = true ∧ R e s) fun e s => e.is_exception = false ∧ R e s := by
  refine hx.attempt (fun a => Meets.pure (hQ a) fun s hs => hs) fun e => ?_
  refine Meets.ite (fun he => Meets.pure (hR e) fun s hs => ⟨he, hs⟩) fun he => ?_
  exact Meets.raise (hR e) fun s hs => ⟨(Bool.not_eq_true _).mp he, hs⟩

theorem demand_meets {b : Bool} {e : ExperimentError} (hP : Withstands rely P) :
    Meets (turns i A rely guar hrefl htrans) P (demand b e) (fun _ s => b = true ∧ P s)
      (fun e' s => (b = false ∧ e' = e) ∧ P s) :=
  Meets.ite (fun hb => Meets.pure hP fun _ hs => ⟨hb, hs⟩) fun hb =>
    Meets.raise hP fun _ hs => ⟨⟨(Bool.not_eq_true _).mp hb, rfl⟩, hs⟩

theorem conclude_meets {result : Except ExperimentError α} (hP : Withstands rely P) :
    Meets (turns i A rely guar hrefl htrans) P (conclude result) (fun a s => result = .ok a ∧ P s)
      (fun e s => result = .error e ∧ P s) := by
  cases result with
  | ok a => exact Meets.pure hP fun _ hs => ⟨rfl, hs⟩
  | error e => exact Meets.raise hP fun _ hs => ⟨rfl, hs⟩

end

end MininetAi
