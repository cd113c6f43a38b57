/-
Verification of postconditions (`mininet_ai/capabilities/verification.py`).

A postcondition is polled: it is observed, compared, and observed again until it holds or
the clock has reached its deadline. The observer and the clock are a sequence of attempts
which the environment may choose freely, but for one thing that sleeping guarantees: some
attempt ends after the deadline. So the loop ends, and its number of rounds is known
before it starts.

Digits in paths are the ASCII ones. Timings are left out of the results.
-/
import MininetAi.Capabilities.Exceptions

set_option autoImplicit false

namespace MininetAi

open Except

/-! ## Values -/

mutual

/-- `==` of two JSON values in Python: a truth value equals the number it stands for, and
an object its permutations. -/
def JsonValue.py_eq : (a b : JsonValue) → Bool
  | .null, .null => true
  | .bool a, .bool b => a == b
  | .bool a, .num q => (if a then 1 else 0) = q
  | .num q, .bool b => q = (if b then 1 else 0)
  | .num p, .num q => p = q
  | .str a, .str b => a = b
  | .arr a, .arr b => JsonValue.py_eq_list a b
  | .obj a, .obj b => a.length = b.length && JsonValue.py_eq_fields a b
  | _, _ => false

def JsonValue.py_eq_list : (a b : List JsonValue) → Bool
  | [], [] => true
  | a :: as, b :: bs => JsonValue.py_eq a b && JsonValue.py_eq_list as bs
  | _, _ => false

/-- Every field of the first object is one of the second. -/
def JsonValue.py_eq_fields : (a b : List (String × JsonValue)) → Bool
  | [], _ => true
  | (key, value) :: fields, others =>
    (match others.lookup key with
      | none => false
      | some other => JsonValue.py_eq value other) && JsonValue.py_eq_fields fields others

end

/-- `part.isdigit()`. -/
def is_digit_text (part : String) : Bool :=
  part ≠ "" && part.toList.all Char.isDigit

/-- One part of a path. -/
def read_part (value : JsonValue) (part : String) : Option JsonValue :=
  match value with
  | .obj fields => fields.lookup part
  | .arr values => if is_digit_text part then values[part.toNat!]? else none
  | _ => none

/-- `_read_path`; `none` is `_MISSING`. -/
def read_path (root : Option JsonValue) (path : String) : Option JsonValue :=
  (path.splitOn ".").foldl (fun value part => value.bind fun value => read_part value part) root

/-- `_compare`. -/
def compare_values (actual : JsonValue) (operator : PostconditionOperator)
    (expected : JsonValue) : Bool :=
  match operator with
  | .eq => actual.py_eq expected
  | .ne => ! actual.py_eq expected
  | _ => match actual, expected with
    | .num p, .num q => match operator with
      | .gt => q < p
      | .gte => q ≤ p
      | .lt => p < q
      | _ => p ≤ q
    | _, _ => false

/-! ## Attempts -/

/-- What one observation does: it raises, or it returns values for a query. A result whose
values are not JSON raises when it is read. -/
inductive Observed where
  | raises (e : RaisedException)
  | result (run_id : String) (same_query : Bool) (values : List (String × JsonValue))

/-- One round of the loop: the observation, and whether the clock has reached the deadline
after it. -/
structure Attempt where
  observed : Observed
  expired : Bool

/-- The rounds of one postcondition. -/
structure Polling where
  attempt : ℕ → Attempt
  expires : ∃ n, (attempt n).expired = true

/-- The variables of the loop. -/
structure PollState where
  attempts : ℕ := 0
  actual : Option JsonValue := none
  issue : Option RuntimeIssue := none
  satisfied : Bool := false
  deriving DecidableEq

structure PostconditionResult where
  observation : String
  path : String
  operator : PostconditionOperator
  expected : JsonValue
  actual : Option JsonValue := none
  satisfied : Bool
  attempts : ℕ
  issue : Option RuntimeIssue := none
  deriving DecidableEq

namespace PostconditionVerifier

/-- The error of a result for another run or query. -/
def identity_error : RaisedException :=
  .mk .other "ValueError" none (.ok "postcondition observation changed request identity")

/-- The handler of the loop. -/
def failed_attempt (target : String) (s : PollState) (e : RaisedException) :
    Except RaisedException PollState := do
  let issue ← describe "capability.postcondition.observation-failed" target e
  pure { s with attempts := s.attempts + 1, issue := some issue }

/-- The body of the loop, up to reading the clock. -/
def observe_once (run_id target : String) (postcondition : PostconditionDefinition)
    (s : PollState) : Observed → Except RaisedException PollState
  | .raises e => failed_attempt target s e
  | .result found_run same_query values =>
    if found_run ≠ run_id ∨ same_query = false then failed_attempt target s identity_error
    else match read_path (values.lookup target) postcondition.path with
      | none => do
          let issue ← runtime_issue "capability.postcondition.path-missing"
            (worded "observation "
              [quoted postcondition.observation, " has no path ", quoted postcondition.path,
                " for ", quoted target]) target
          pure { s with attempts := s.attempts + 1, actual := none, issue := some issue }
      | some actual => .ok
          { attempts := s.attempts + 1
            actual := some actual
            issue := none
            satisfied := compare_values actual postcondition.operator postcondition.expected }

/-- The loop, from the attempt with a number on. -/
def poll (run_id target : String) (postcondition : PostconditionDefinition) (polling : Polling) :
    ℕ → ℕ → PollState → Except RaisedException PollState
  | 0, _, s => .ok s
  | rounds + 1, n, s => do
      let s ← observe_once run_id target postcondition s (polling.attempt n).observed
      if s.satisfied = true ∨ (polling.attempt n).expired = true then pure s
      else poll run_id target postcondition polling rounds (n + 1) s

/-- The rounds the loop has at most. -/
def Polling.rounds (polling : Polling) : ℕ := Nat.find polling.expires + 1

def verify_one (run_id target : String) (postcondition : PostconditionDefinition)
    (polling : Polling) : Except RaisedException PostconditionResult := do
  let s ← poll run_id target postcondition polling (Polling.rounds polling) 0 {}
  pure
    { observation := postcondition.observation
      path := postcondition.path
      operator := postcondition.operator
      expected := postcondition.expected
      actual := s.actual
      satisfied := s.satisfied
      attempts := s.attempts
      issue := s.issue }

/-- `verify`: the checks, in the order of the postconditions. -/
def verify (run_id target : String) (pollings : ℕ → Polling) :
    ℕ → List PostconditionDefinition → Except RaisedException (List PostconditionResult)
  | _, [] => .ok []
  | position, postcondition :: postconditions => do
      let check ← verify_one run_id target postcondition (pollings position)
      let checks ← verify run_id target pollings (position + 1) postconditions
      pure (check :: checks)

/-! ## What is observed -/

/-- An attempt that observes the postcondition satisfied. -/
def Holds (run_id target : String) (postcondition : PostconditionDefinition) (a : Attempt) : Prop :=
  ∃ values actual, a.observed = .result run_id true values ∧
    read_path (values.lookup target) postcondition.path = some actual ∧
    compare_values actual postcondition.operator postcondition.expected = true

/-- The loop goes on after an attempt. -/
def Continues (run_id target : String) (postcondition : PostconditionDefinition) (a : Attempt) :
    Prop :=
  ¬ Holds run_id target postcondition a ∧ a.expired = false

/-- The loop gets to an attempt. -/
def Made (run_id target : String) (postcondition : PostconditionDefinition) (polling : Polling)
    (n : ℕ) : Prop :=
  ∀ j < n, Continues run_id target postcondition (polling.attempt j)

variable {target run_id : String} {s s' : PollState} {postcondition : PostconditionDefinition}
  {polling : Polling}

variable {e : RaisedException} {pollings : ℕ → Polling} {position : ℕ}
  {postconditions : List PostconditionDefinition}

theorem failed_attempt_ok (h : failed_attempt target s e = .ok s') :
    s'.satisfied = s.satisfied := by
  obtain ⟨issue, -, h⟩ := bind_ok_iff.mp h
  cases h
  rfl

theorem failed_attempt_ok_iff : (∃ s', failed_attempt target s e = .ok s') ↔ Describable e := by
  have hcode : "capability.postcondition.observation-failed" ≠ "" := by decide
  rw [← @describe_ok_iff _ target hcode]
  constructor
  · rintro ⟨s', h⟩
    obtain ⟨issue, hissue, -⟩ := bind_ok_iff.mp h
    exact ⟨issue, hissue⟩
  · rintro ⟨issue, hissue⟩
    exact ⟨_, bind_ok_iff.mpr ⟨issue, hissue, rfl⟩⟩

theorem identity_error_describable : Describable identity_error :=
  ⟨rfl, _, rfl, Or.inl (by decide)⟩

/-- The body of the loop lets no exception out but one of the observer that cannot be
described. -/
theorem observe_once_ok_iff {o : Observed} :
    (∃ s', observe_once run_id target postcondition s o = .ok s') ↔
      ∀ e, o = .raises e → Describable e := by
  cases o with
  | raises e =>
    rw [observe_once, failed_attempt_ok_iff]
    constructor
    · intro h _ heq
      cases heq
      exact h
    · exact fun h => h e rfl
  | result found_run same_query values =>
    refine iff_of_true ?_ fun _ heq => by cases heq
    rw [observe_once]
    split
    · exact failed_attempt_ok_iff.mpr identity_error_describable
    · split
      · have hcode : "capability.postcondition.path-missing" ≠ "" := by decide
        have hmessage : "observation " ≠ "" := by decide
        obtain ⟨issue, hissue⟩ := runtime_issue_ok_iff.mpr ⟨hcode, worded_nonempty hmessage _⟩
        exact ⟨_, bind_ok_iff.mpr ⟨issue, hissue, rfl⟩⟩
      · exact ⟨_, rfl⟩

/-- An attempt is recorded as satisfied when it is one that observes the postcondition so. -/
theorem observe_once_satisfied {a : Attempt} (hs : s.satisfied = false)
    (h : observe_once run_id target postcondition s a.observed = .ok s') :
    s'.satisfied = true ↔ Holds run_id target postcondition a := by
  unfold Holds
  cases ho : a.observed with
  | raises e =>
    rw [ho] at h
    rw [failed_attempt_ok h, hs]
    refine iff_of_false Bool.false_ne_true ?_
    rintro ⟨_, _, heq, -⟩
    cases heq
  | result found_run same_query values =>
    rw [ho, observe_once] at h
    split at h
    · rename_i hidentity
      rw [failed_attempt_ok h, hs]
      refine iff_of_false Bool.false_ne_true ?_
      rintro ⟨_, _, heq, -⟩
      cases heq
      exact hidentity.elim (fun hrun => hrun rfl) nofun
    · rename_i hidentity
      obtain ⟨hrun, hquery⟩ := not_or.mp hidentity
      have hquery' : same_query = true := Bool.eq_true_of_not_eq_false hquery
      split at h
      · rename_i hmissing
        obtain ⟨issue, -, h⟩ := bind_ok_iff.mp h
        cases h
        refine iff_of_false (fun hsatisfied => by rw [hs] at hsatisfied; cases hsatisfied) ?_
        rintro ⟨_, actual, heq, hread, -⟩
        cases heq
        rw [hmissing] at hread
        cases hread
      · rename_i actual hread
        cases h
        constructor
        · intro hcompare
          exact ⟨values, actual, by rw [not_not.mp hrun, hquery'], hread, hcompare⟩
        · rintro ⟨_, actual', heq, hread', hcompare⟩
          cases heq
          rw [hread] at hread'
          cases hread'
          exact hcompare

/-! ## The loop -/

/-- The loop returns exactly when every exception of an attempt it gets to can be described.
The induction is on the rounds; there is one left as long as no attempt has expired. -/
theorem poll_ok_iff {run_id target : String} {postcondition : PostconditionDefinition}
    {polling : Polling} {rounds n : ℕ} {s : PollState} (hs : s.satisfied = false)
    (hearly : n ≤ Nat.find polling.expires) (hrounds : Nat.find polling.expires < n + rounds) :
    (∃ s', poll run_id target postcondition polling rounds n s = .ok s') ↔ ∀ k, n ≤ k →
        (∀ j, n ≤ j → j < k → Continues run_id target postcondition (polling.attempt j)) →
        ∀ e, (polling.attempt k).observed = .raises e → Describable e := by
  induction rounds generalizing n s with
  | zero => omega
  | succ rounds ih =>
    rw [poll]
    by_cases hfirst : ∀ e, (polling.attempt n).observed = .raises e → Describable e
    · obtain ⟨s', hs'⟩ := observe_once_ok_iff.mpr hfirst
      have hholds := observe_once_satisfied hs hs'
      by_cases hstop : s'.satisfied = true ∨ (polling.attempt n).expired = true
      · -- the loop ends here, and gets to no later attempt
        have hend : ¬ Continues run_id target postcondition (polling.attempt n) := by
          rintro ⟨hnot, hexpired⟩
          rcases hstop with hsatisfied | hlate
          · exact hnot (hholds.mp hsatisfied)
          · rw [hexpired] at hlate
            cases hlate
        refine iff_of_true ⟨s', bind_ok_iff.mpr ⟨s', hs', if_pos hstop⟩⟩ ?_
        intro k hk hbefore
        rcases Nat.eq_or_lt_of_le hk with rfl | hlt
        · exact hfirst
        · exact absurd (hbefore n (Nat.le_refl n) hlt) hend
      · obtain ⟨hnot, hexpired⟩ := not_or.mp hstop
        have hcontinues : Continues run_id target postcondition (polling.attempt n) :=
          ⟨fun h => hnot (hholds.mpr h), Bool.eq_false_iff.mpr hexpired⟩
        have hnext : n + 1 ≤ Nat.find polling.expires := by
          rcases Nat.eq_or_lt_of_le hearly with heq | hlt
          · exact absurd (heq ▸ Nat.find_spec polling.expires) hexpired
          · exact hlt
        have hrest := ih (n := n + 1) (Bool.eq_false_iff.mpr hnot) hnext (by omega)
        have hone : (∃ s'', (observe_once run_id target postcondition s
            (polling.attempt n).observed >>= fun s =>
              if s.satisfied = true ∨ (polling.attempt n).expired = true then pure s
              else poll run_id target postcondition polling rounds (n + 1) s) = .ok s'') ↔
            ∃ s'', poll run_id target postcondition polling rounds (n + 1) s' = .ok s'' := by
          refine exists_congr fun s'' => ?_
          rw [hs']
          exact iff_of_eq (congrArg (· = ok s'') (if_neg hstop))
        rw [hone, hrest]
        constructor
        · intro h k hk hbefore
          rcases Nat.eq_or_lt_of_le hk with rfl | hlt
          · exact hfirst
          · exact h k hlt fun j hj hjk => hbefore j (by omega) hjk
        · intro h k hk hbefore
          refine h k (by omega) fun j hj hjk => ?_
          rcases Nat.eq_or_lt_of_le hj with rfl | hlt
          · exact hcontinues
          · exact hbefore j hlt hjk
    · refine iff_of_false ?_ fun h => ?_
      · rintro ⟨s', h⟩
        obtain ⟨s'', hs'', -⟩ := bind_ok_iff.mp h
        exact hfirst (observe_once_ok_iff.mp ⟨s'', hs''⟩)
      · exact hfirst (h n (Nat.le_refl n) fun j hj hjn => by omega)

/-- What the loop returns is satisfied exactly when some attempt it gets to observes the
postcondition so. -/
theorem poll_satisfied_iff {rounds n : ℕ} (hs : s.satisfied = false)
    (hearly : n ≤ Nat.find polling.expires) (hrounds : Nat.find polling.expires < n + rounds)
    (h : poll run_id target postcondition polling rounds n s = .ok s') :
    s'.satisfied = true ↔ ∃ k, n ≤ k ∧
      (∀ j, n ≤ j → j < k → Continues run_id target postcondition (polling.attempt j)) ∧
      Holds run_id target postcondition (polling.attempt k) := by
  induction rounds generalizing n s with
  | zero => omega
  | succ rounds ih =>
    obtain ⟨s'', hone, h⟩ := bind_ok_iff.mp h
    have hholds := observe_once_satisfied hs hone
    by_cases hstop : s''.satisfied = true ∨ (polling.attempt n).expired = true
    · rw [if_pos hstop] at h
      cases h
      rw [hholds]
      constructor
      · exact fun hfirst => ⟨n, Nat.le_refl n, fun j hj hjn => by omega, hfirst⟩
      · rintro ⟨k, hk, hbefore, hlast⟩
        rcases Nat.eq_or_lt_of_le hk with rfl | hlt
        · exact hlast
        · obtain ⟨hnot, hexpired⟩ := hbefore n (Nat.le_refl n) hlt
          rcases hstop with hsatisfied | hlate
          · exact absurd (hholds.mp hsatisfied) hnot
          · rw [hexpired] at hlate
            cases hlate
    · rw [if_neg hstop] at h
      obtain ⟨hnot, hexpired⟩ := not_or.mp hstop
      have hcontinues : Continues run_id target postcondition (polling.attempt n) :=
        ⟨fun hfirst => hnot (hholds.mpr hfirst), Bool.eq_false_iff.mpr hexpired⟩
      have hnext : n + 1 ≤ Nat.find polling.expires := by
        rcases Nat.eq_or_lt_of_le hearly with heq | hlt
        · exact absurd (heq ▸ Nat.find_spec polling.expires) hexpired
        · exact hlt
      rw [ih (Bool.eq_false_iff.mpr hnot) hnext (by omega) h]
      constructor
      · rintro ⟨k, hk, hbefore, hlast⟩
        refine ⟨k, by omega, fun j hj hjk => ?_, hlast⟩
        rcases Nat.eq_or_lt_of_le hj with rfl | hlt
        · exact hcontinues
        · exact hbefore j hlt hjk
      · rintro ⟨k, hk, hbefore, hlast⟩
        rcases Nat.eq_or_lt_of_le hk with rfl | hlt
        · exact absurd hlast hcontinues.1
        · exact ⟨k, hlt, fun j hj hjk => hbefore j (by omega) hjk, hlast⟩

theorem Polling.rounds_enough (polling : Polling) :
    Nat.find polling.expires < 0 + Polling.rounds polling := by
  rw [Polling.rounds]
  omega

theorem verify_one_ok_iff : (∃ check, verify_one run_id target postcondition polling = .ok check) ↔
      ∀ k, Made run_id target postcondition polling k →
        ∀ e, (polling.attempt k).observed = .raises e → Describable e := by
  have hpoll := @poll_ok_iff run_id target postcondition polling (Polling.rounds polling) 0 {} rfl
    (Nat.zero_le _) (Polling.rounds_enough polling)
  constructor
  · rintro ⟨check, h⟩
    obtain ⟨s, hs, -⟩ := bind_ok_iff.mp h
    intro k hmade
    exact hpoll.mp ⟨s, hs⟩ k (Nat.zero_le k) fun j _ hj => hmade j hj
  · intro h
    obtain ⟨s, hs⟩ := hpoll.mpr fun k _ hbefore => h k fun j hj => hbefore j (Nat.zero_le j) hj
    exact ⟨_, bind_ok_iff.mpr ⟨s, hs, rfl⟩⟩

/-- Some attempt that is made observes the postcondition satisfied. -/
def PollSatisfied (run_id target : String) (postcondition : PostconditionDefinition)
    (polling : Polling) : Prop :=
  ∃ k, Made run_id target postcondition polling k ∧
    Holds run_id target postcondition (polling.attempt k)

theorem verify_one_satisfied_iff {check : PostconditionResult}
    (h : verify_one run_id target postcondition polling = .ok check) :
    check.satisfied = true ↔ PollSatisfied run_id target postcondition polling := by
  obtain ⟨s, hs, h⟩ := bind_ok_iff.mp h
  cases h
  rw [poll_satisfied_iff rfl (Nat.zero_le _) (Polling.rounds_enough polling) hs]
  constructor
  · rintro ⟨k, -, hbefore, hlast⟩
    exact ⟨k, fun j hj => hbefore j (Nat.zero_le j) hj, hlast⟩
  · rintro ⟨k, hmade, hlast⟩
    exact ⟨k, Nat.zero_le k, fun j _ hj => hmade j hj, hlast⟩

/-! ## Reports -/

/-- An exception that the observer raises at an attempt that is made. -/
def Encountered (run_id target : String) (pollings : ℕ → Polling) :
    ℕ → List PostconditionDefinition → RaisedException → Prop
  | _, [], _ => False
  | position, postcondition :: postconditions, e =>
    (∃ k, Made run_id target postcondition (pollings position) k ∧
      ((pollings position).attempt k).observed = .raises e) ∨
    Encountered run_id target pollings (position + 1) postconditions e

/-- The report is built exactly when every exception on the way can be described. -/
theorem verify_ok_iff :
    (∃ checks, verify run_id target pollings position postconditions = .ok checks) ↔
      ∀ e, Encountered run_id target pollings position postconditions e → Describable e := by
  induction postconditions generalizing position with
  | nil => exact iff_of_true ⟨[], rfl⟩ fun e h => h.elim
  | cons postcondition postconditions ih =>
    simp only [Encountered, or_imp, forall_and]
    rw [← ih]
    constructor
    · rintro ⟨checks, h⟩
      obtain ⟨check, hcheck, h⟩ := bind_ok_iff.mp h
      obtain ⟨rest, hrest, -⟩ := bind_ok_iff.mp h
      refine ⟨?_, rest, hrest⟩
      rintro e ⟨k, hmade, hraises⟩
      exact verify_one_ok_iff.mp ⟨check, hcheck⟩ k hmade e hraises
    · rintro ⟨hfirst, rest, hrest⟩
      obtain ⟨check, hcheck⟩ := verify_one_ok_iff.mpr
        fun k hmade e hraises => hfirst e ⟨k, hmade, hraises⟩
      exact ⟨_, bind_ok_iff.mpr
        ⟨check, hcheck, bind_ok_iff.mpr ⟨rest, hrest, rfl⟩⟩⟩

/-- Every postcondition is observed satisfied. -/
def AllSatisfied (run_id target : String) (pollings : ℕ → Polling) :
    ℕ → List PostconditionDefinition → Prop
  | _, [] => True
  | position, postcondition :: postconditions =>
    PollSatisfied run_id target postcondition (pollings position) ∧
      AllSatisfied run_id target pollings (position + 1) postconditions

/-- The checks of a report are all satisfied exactly when every postcondition has been
observed so. -/
theorem verify_satisfied_iff {checks : List PostconditionResult}
    (h : verify run_id target pollings position postconditions = .ok checks) :
    (∀ check ∈ checks, check.satisfied = true) ↔
      AllSatisfied run_id target pollings position postconditions := by
  induction postconditions generalizing position checks with
  | nil =>
    cases h
    exact iff_of_true (fun _ hmem => absurd hmem List.not_mem_nil) trivial
  | cons postcondition postconditions ih =>
    obtain ⟨check, hcheck, h⟩ := bind_ok_iff.mp h
    obtain ⟨rest, hrest, h⟩ := bind_ok_iff.mp h
    cases h
    rw [List.forall_mem_cons, verify_one_satisfied_iff hcheck, ih hrest, AllSatisfied]

end PostconditionVerifier

end MininetAi
