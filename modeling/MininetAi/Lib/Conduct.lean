/-
Rely and guarantee for programs over operations.

A program runs among others. Its terms say what its operations do, which moves the others
make between two of them (rely), and which moves its own operations are to be
(guarantee). `Meets P x Q R` says that from a state with `P` the routine `x` keeps to its
guarantee, ends in `Q` when it returns and in `R` when it raises; the rules take a
routine apart into its parts. A program that runs by itself is the case of a rely that
changes nothing.
-/
import MininetAi.Lib.Program

set_option autoImplicit false

/-- The terms of a program: `rely` is any number of moves of the others. -/
structure Terms (ω : Type) (ρ : ω → Type) (σ : Type) where
  act : (o : ω) → σ → ρ o → σ → Prop
  rely : σ → σ → Prop
  guar : σ → σ → Prop
  rely_refl : ∀ s, rely s s
  rely_trans : ∀ s t u, rely s t → rely t u → rely s u

namespace Terms

variable {ω : Type} {ρ : ω → Type} {σ : Type}

/-- The others keep it. -/
def Stable (T : Terms ω ρ σ) (P : σ → Prop) : Prop := ∀ s t, P s → T.rely s t → P t

/-- The terms of a program that an interpreter runs by itself. -/
def alone (I : (o : ω) → σ → ρ o × σ) : Terms ω ρ σ where
  act o s r t := I o s = (r, t)
  rely s t := s = t
  guar _ _ := True
  rely_refl _ := rfl
  rely_trans _ _ _ h h' := h.trans h'

theorem alone_stable (I : (o : ω) → σ → ρ o × σ) (P : σ → Prop) : (alone I).Stable P := by
  intro s t hs hst
  rw [← show s = t from hst]
  exact hs

end Terms

/-! ## Programs -/

namespace Program

variable {ω : Type} {ρ : ω → Type} {σ α β : Type} {T : Terms ω ρ σ}

/-- From `s` on the program keeps to its guarantee and ends in `Q`. -/
def Ensures (T : Terms ω ρ σ) : Program ω ρ α → (α → σ → Prop) → σ → Prop
  | done a, Q, s => ∀ t, T.rely s t → Q a t
  | perform o next, Q, s =>
    ∀ t, T.rely s t → ∀ r u, T.act o t r u → T.guar t u ∧ (next r).Ensures T Q u

variable {p : Program ω ρ α} {s t : σ} {Q' : α → σ → Prop} {a : α} {I : (o : ω) → σ → ρ o × σ}
  {Q : α → σ → Prop}

/-- The others keep what is ensured. -/
theorem Ensures.stable (h : p.Ensures T Q s) (hst : T.rely s t) : p.Ensures T Q t := by
  cases p with
  | done a => exact fun u hu => h u (T.rely_trans s t u hst hu)
  | perform o next => exact fun u hu => h u (T.rely_trans s t u hst hu)

theorem Ensures.mono (h : p.Ensures T Q s) (hQ : ∀ a t, Q a t → Q' a t) : p.Ensures T Q' s := by
  induction p generalizing s with
  | done a => exact fun t ht => hQ a t (h t ht)
  | perform o next ih =>
    intro t ht r u hact
    exact ⟨(h t ht r u hact).1, ih r (h t ht r u hact).2⟩

theorem Ensures.and (h : p.Ensures T Q s) (h' : p.Ensures T Q' s) :
    p.Ensures T (fun a t => Q a t ∧ Q' a t) s := by
  induction p generalizing s with
  | done a => exact fun t ht => ⟨h t ht, h' t ht⟩
  | perform o next ih =>
    intro t ht r u hact
    exact ⟨(h t ht r u hact).1, ih r (h t ht r u hact).2 (h' t ht r u hact).2⟩

theorem Ensures.bind {f : α → Program ω ρ β} {Q : β → σ → Prop}
    (h : p.Ensures T (fun a t => (f a).Ensures T Q t) s) : (p.bind f).Ensures T Q s := by
  induction p generalizing s with
  | done a => exact h s (T.rely_refl s)
  | perform o next ih =>
    intro t ht r u hact
    exact ⟨(h t ht r u hact).1, ih r (h t ht r u hact).2⟩

/-- The next operation of a program that keeps to its terms. -/
theorem Ensures.act {o : ω} {next : ρ o → Program ω ρ α} {r : ρ o}
    (h : (perform o next).Ensures T Q s) (hact : T.act o s r t) :
    T.guar s t ∧ (next r).Ensures T Q t :=
  h s (T.rely_refl s) r t hact

/-- The end of such a program. -/
theorem Ensures.ended (h : (done a : Program ω ρ α).Ensures T Q s) : Q a s :=
  h s (T.rely_refl s)

/-- From `s` on the program may end with `a` in `t`. -/
inductive Ended (T : Terms ω ρ σ) : Program ω ρ α → σ → α → σ → Prop
  | done {a : α} {s t : σ} (h : T.rely s t) : Ended T (done a) s a t
  | perform {o : ω} {next : ρ o → Program ω ρ α} {s t u v : σ} {r : ρ o} {a : α} (h : T.rely s t)
      (hact : T.act o t r u) (hnext : Ended T (next r) u a v) : Ended T (perform o next) s a v

/-- What is ensured holds in the end. -/
theorem Ensures.of_ended (h : p.Ensures T Q s) (hended : Ended T p s a t) : Q a t := by
  induction hended with
  | done hst => exact h _ hst
  | perform hst hact _ ih => exact ih (h _ hst _ _ hact).2

/-- Every operation of a run is allowed. -/
def runs_under (allowed : ω → σ → Bool) (I : (o : ω) → σ → ρ o × σ) : Program ω ρ α → σ → Bool
  | done _, _ => true
  | perform o next, s => allowed o s && (next (I o s).1).runs_under allowed I (I o s).2

/-- A run whose operations keep to the terms when they are allowed. -/
theorem Ended.of_run {allowed : ω → σ → Bool}
    (hI : ∀ o s, allowed o s = true → ∃ t, T.rely s t ∧ T.act o t (I o s).1 (I o s).2)
    (p : Program ω ρ α) :
    ∀ s, p.runs_under allowed I s = true → Ended T p s (p.run I s).1 (p.run I s).2 := by
  induction p with
  | done a => exact fun s _ => .done (T.rely_refl s)
  | perform o next ih =>
    intro s hs
    obtain ⟨ho, hnext⟩ := Bool.and_eq_true_iff.mp hs
    obtain ⟨t, hst, hact⟩ := hI o s ho
    exact .perform hst hact (ih _ _ hnext)

/-- A program that an interpreter of its terms runs. -/
theorem Ensures.run_of (hI : ∀ o s, T.act o s (I o s).1 (I o s).2)
    (h : p.Ensures T Q s) : Q (p.run I s).1 (p.run I s).2 := by
  induction p generalizing s with
  | done a => exact h.ended
  | perform o next ih => exact ih (I o s).1 (h.act (hI o s)).2

/-- A program that runs by itself. -/
theorem Ensures.run (h : p.Ensures (Terms.alone I) Q s) : Q (p.run I s).1 (p.run I s).2 :=
  h.run_of fun _ _ => rfl

end Program

/-! ## Routines -/

namespace Routine

variable {ω : Type} {ρ : ω → Type} {σ ε α β : Type} {T : Terms ω ρ σ}

/-- A postcondition for returning and one for raising. -/
def ends (Q : α → σ → Prop) (R : ε → σ → Prop) : Except ε α → σ → Prop
  | .ok a => Q a
  | .error e => R e

/-- From `P` on the routine keeps to its guarantee, returns in `Q` and raises in `R`. -/
def Meets (T : Terms ω ρ σ) (P : σ → Prop) (x : Routine ω ρ ε α) (Q : α → σ → Prop)
    (R : ε → σ → Prop) : Prop :=
  ∀ s, P s → Program.Ensures T x (ends Q R) s

variable {P P' : σ → Prop} {Q Q' : α → σ → Prop} {R R' : ε → σ → Prop} {x : Routine ω ρ ε α}

section

variable (h : Meets T P x Q R)
include h

theorem Meets.mono (hP : ∀ s, P' s → P s) (hQ : ∀ a s, Q a s → Q' a s)
    (hR : ∀ e s, R e s → R' e s) : Meets T P' x Q' R' := by
  intro s hs
  refine (h s (hP s hs)).mono fun r t hr => ?_
  cases r with
  | ok a => exact hQ a t hr
  | error e => exact hR e t hr

theorem Meets.pre (hP : ∀ s, P' s → P s) : Meets T P' x Q R :=
  h.mono hP (fun _ _ hs => hs) fun _ _ hs => hs

theorem Meets.post (hQ : ∀ a s, Q a s → Q' a s) (hR : ∀ e s, R e s → R' e s) : Meets T P x Q' R' :=
  h.mono (fun _ hs => hs) hQ hR

theorem Meets.on_return (hQ : ∀ a s, Q a s → Q' a s) : Meets T P x Q' R :=
  h.post hQ fun _ _ hs => hs

theorem Meets.on_raise (hR : ∀ e s, R e s → R' e s) : Meets T P x Q R' :=
  h.post (fun _ _ hs => hs) hR

end

/-- Beside what is remembered of the start. -/
theorem Meets.right (h : Meets T P x (fun a s => Q a s ∧ Q' a s) fun e s => R e s ∧ R' e s) :
    Meets T P x Q' R' :=
  h.post (fun _ _ hs => hs.2) fun _ _ hs => hs.2

/-- A start that does not happen. -/
theorem Meets.never (h : ∀ s, ¬ P s) : Meets T P x Q R := fun s hs => absurd hs (h s)

/-- A routine that does not raise. -/
theorem Meets.quiet (h : Meets T P x Q fun _ _ => False) : Meets T P x Q R :=
  h.mono (fun _ => id) (fun _ _ => id) fun _ _ => False.elim

theorem Meets.and (h : Meets T P x Q R) (h' : Meets T P x Q' R') :
    Meets T P x (fun a s => Q a s ∧ Q' a s) (fun e s => R e s ∧ R' e s) := by
  intro s hs
  refine ((h s hs).and (h' s hs)).mono fun r t hr => ?_
  cases r with
  | ok a => exact hr
  | error e => exact hr

theorem Meets.pure {a : α} (hstable : T.Stable P) (h : ∀ s, P s → Q a s) :
    Meets T P (Pure.pure a : Routine ω ρ ε α) Q R :=
  fun s hs t ht => h t (hstable s t hs ht)

theorem Meets.raise {e : ε} (hstable : T.Stable P) (h : ∀ s, P s → R e s) :
    Meets T P (Routine.raise e : Routine ω ρ ε α) Q R :=
  fun s hs t ht => h t (hstable s t hs ht)

/-- One operation. -/
theorem Meets.ask {o : ω} {Q : ρ o → σ → Prop} (hP : T.Stable P)
    (h : ∀ s r t, P s → T.act o s r t → T.guar s t ∧ Q r t) (hQ : ∀ r, T.Stable (Q r)) :
    Meets T P (Routine.lift (Program.ask o) : Routine ω ρ ε (ρ o)) Q R := by
  intro s hs t ht r u hact
  obtain ⟨hguar, hr⟩ := h t r u (hP s t hs ht) hact
  exact ⟨hguar, fun v hv => hQ r u v hr hv⟩

/-- A sequence. -/
theorem Meets.bind {f : α → Routine ω ρ ε β} {Q' : β → σ → Prop} (hx : Meets T P x Q R)
    (hf : ∀ a, Meets T (Q a) (f a) Q' R) (hR : ∀ e, T.Stable (R e)) : Meets T P (x >>= f) Q' R := by
  intro s hs
  refine Program.Ensures.bind ((hx s hs).mono fun r t hr => ?_)
  cases r with
  | ok a => exact hf a t hr
  | error e => exact fun u hu => hR e t u hr hu

/-- A body and its handler. -/
theorem Meets.handle {handler : ε → Routine ω ρ ε α} (hx : Meets T P x Q R)
    (hh : ∀ e, Meets T (R e) (handler e) Q R') (hQ : ∀ a, T.Stable (Q a)) :
    Meets T P (x.handle handler) Q R' := by
  intro s hs
  refine Program.Ensures.bind ((hx s hs).mono fun r t hr => ?_)
  cases r with
  | ok a => exact fun u hu => hQ a t u hr hu
  | error e => exact hh e t hr

/-- A body whose end is a value. -/
theorem Meets.attempt {f : Except ε α → Routine ω ρ ε β} {Q' : β → σ → Prop} (hx : Meets T P x Q R)
    (hok : ∀ a, Meets T (Q a) (f (.ok a)) Q' R') (herror : ∀ e, Meets T (R e) (f (.error e)) Q' R') :
    Meets T P (x.attempt >>= f) Q' R' := by
  intro s hs
  refine Program.Ensures.bind (Program.Ensures.bind ((hx s hs).mono fun r t hr => ?_))
  intro u hu
  cases r with
  | ok a => exact (hok a t hr).stable hu
  | error e => exact (herror e t hr).stable hu

/-- A body and what is done in any case. -/
theorem Meets.eventually {clause : Routine ω ρ ε Unit} (hx : Meets T P x Q R)
    (hok : ∀ a, Meets T (Q a) clause (fun _ => Q' a) R')
    (herror : ∀ e, Meets T (R e) clause (fun _ => R' e) R')
    (hQ : ∀ a, T.Stable (Q' a)) (hR : ∀ e, T.Stable (R' e)) :
    Meets T P (x.eventually clause) Q' R' := by
  intro s hs
  refine Program.Ensures.bind ((hx s hs).mono fun r t hr => ?_)
  have hend : Program.Ensures T clause (ends (fun _ => ends Q' R' r) R') t := by
    cases r with
    | ok a => exact hok a t hr
    | error e => exact herror e t hr
  refine Program.Ensures.bind (hend.mono fun r' u hr' => ?_)
  cases r' with
  | error e => exact fun v hv => hR e u v hr' hv
  | ok _ =>
    intro v hv
    cases r with
    | ok a => exact hQ a u v hr' hv
    | error e => exact hR e u v hr' hv

variable {c : Prop}

/-- A branch. -/
theorem Meets.ite [Decidable c] {y : Routine ω ρ ε α} (hx : c → Meets T P x Q R)
    (hy : ¬ c → Meets T P y Q R) : Meets T P (if c then x else y) Q R := by
  by_cases h : c
  · rw [if_pos h]
    exact hx h
  · rw [if_neg h]
    exact hy h

/-- A fact about the start that does not change. -/
theorem Meets.given (h : c → Meets T P x Q R) : Meets T (fun s => c ∧ P s) x Q R :=
  fun s hs => h hs.1 s hs.2

/-- A start with something that is not known. -/
theorem Meets.of_exists {ι : Type} {P : ι → σ → Prop} (h : ∀ k, Meets T (P k) x Q R) :
    Meets T (fun s => ∃ k, P k s) x Q R :=
  fun s ⟨k, hk⟩ => h k s hk

/-- A routine that runs by itself. -/
theorem Meets.run {I : (o : ω) → σ → ρ o × σ} {s : σ} (h : Meets (Terms.alone I) P x Q R) (hs : P s) :
    ends Q R (x.run I s).1 (x.run I s).2 :=
  (h s hs).run

end Routine
