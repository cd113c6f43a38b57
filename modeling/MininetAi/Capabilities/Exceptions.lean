/-
Exceptions of untrusted callees, and the issues that handlers build from them
(`RuntimeIssue` in `mininet_ai/substrates/runtime.py`, the handlers of
`mininet_ai/capabilities/engine.py` and `mininet_ai/capabilities/verification.py`).

Building an issue can fail in two ways: `str` of the exception may raise, and pydantic
refuses an issue with an empty code or message. An exception raised in a handler leaves
the function, so what a handler asks of an exception is what keeps the exception inside:
`Reportable` for the handlers of an execution, `Describable` for those of a rollback and
of an observation, which have a code and a message of their own to fall back on. What is no
subclass of `Exception` gets past them all.

A text that is no Unicode, which pydantic refuses, counts as a `str` that raises.
-/
import MininetAi.Lib.Results
import MininetAi.Specification.Models

set_option autoImplicit false

namespace MininetAi

open Except

/-! ## Exceptions -/

/-- The classes that handlers tell apart, with the attributes they read. -/
inductive ExceptionClass where
  | capability_error (status : ActionStatus) (message : String)
  | agent_runtime_error
  | capability_provider_error (status : ActionStatus)
  | timeout_error
  | other
  /-- Outside `Exception`. -/
  | base_exception
  deriving DecidableEq

/-- An exception: its class, the name of its type, its attribute `code` when that is a
text, and what `str` returns or raises. -/
inductive RaisedException where
  | mk (kind : ExceptionClass) (type_name : String) (code : Option String)
      (text : Except RaisedException String)

namespace RaisedException

def kind : RaisedException → ExceptionClass
  | mk kind _ _ _ => kind

/-- `type(error).__name__`. -/
def type_name : RaisedException → String
  | mk _ type_name _ _ => type_name

/-- `getattr(error, "code", None)` when it is a text. -/
def code : RaisedException → Option String
  | mk _ _ code _ => code

/-- `str(error)`. -/
def str : RaisedException → Except RaisedException String
  | mk _ _ _ text => text

/-- Whether `except Exception` catches it. -/
def is_caught (e : RaisedException) : Bool := e.kind ≠ .base_exception

end RaisedException

/-- The error pydantic raises. -/
def validation_error (model : String) : RaisedException :=
  .mk .other "ValidationError" none (.ok (worded "validation error for " [model]))

/-- `RuntimeIssue(code=..., message=..., target=...)`. -/
def runtime_issue (code message target : String) : Except RaisedException RuntimeIssue :=
  if code = "" ∨ message = "" then .error (validation_error "RuntimeIssue")
  else .ok { code := code, message := message, target := some target }

/-- `RuntimeIssue(code=error.code, ...)`. -/
def issue_with_code (code : Option String) (message target : String) :
    Except RaisedException RuntimeIssue :=
  match code with
  | none => .error (validation_error "RuntimeIssue")
  | some code => runtime_issue code message target

/-! ## Handlers -/

/-- An issue with the code and the text of the exception. -/
def repeat_error (status : ActionStatus) (target : String) (e : RaisedException) :
    Except RaisedException (ActionStatus × RuntimeIssue) := do
  let text ← e.str
  let issue ← issue_with_code e.code text target
  pure (status, issue)

/-- An issue of a failure with a code of the handler's own. -/
def word_error (code : String) (message : String → String) (target : String)
    (e : RaisedException) : Except RaisedException (ActionStatus × RuntimeIssue) := do
  let text ← e.str
  let issue ← runtime_issue code (message text) target
  pure (.failed, issue)

/-- The handler of a `_CapabilityError`: it reads the message, not the text. -/
def carry_error (status : ActionStatus) (message target : String) (e : RaisedException) :
    Except RaisedException (ActionStatus × RuntimeIssue) := do
  let issue ← issue_with_code e.code message target
  pure (status, issue)

def timeout_message (text : String) : String :=
  if text = "" then "capability execution timed out" else text

/-- The handlers of `execute`: the status and the issue of the result. -/
def handle_execution (target : String) (e : RaisedException) :
    Except RaisedException (ActionStatus × RuntimeIssue) :=
  match e.kind with
  | .capability_error status message => carry_error status message target e
  | .agent_runtime_error => repeat_error .failed target e
  | .capability_provider_error status => repeat_error status target e
  | .timeout_error => word_error "capability.timeout" timeout_message target e
  | .other =>
    word_error "capability.execution.failed"
      (fun text => worded "capability execution failed: " [text]) target e
  | .base_exception => .error e

/-- The handlers of `validate`. -/
def handle_admission (target : String) (e : RaisedException) :
    Except RaisedException (ActionStatus × RuntimeIssue) :=
  match e.kind with
  | .capability_error status message => carry_error status message target e
  | .agent_runtime_error => repeat_error .failed target e
  | .base_exception => .error e
  | _ => word_error "capability.execution.failed"
      (fun text => worded "capability admission failed: " [text]) target e

/-- `code if isinstance(code, str) and code else default`. -/
def code_or (default_code : String) (code : Option String) : String :=
  match code with
  | none => default_code
  | some code => if code = "" then default_code else code

/-- The handler of a rollback and of an observation. -/
def describe (default_code target : String) (e : RaisedException) :
    Except RaisedException RuntimeIssue := do
  refuse_if (e.is_caught = false) e
  let text ← e.str
  runtime_issue (code_or default_code e.code) (if text = "" then e.type_name else text) target

/-! ## What handlers ask -/

theorem runtime_issue_ok_iff {code message target : String} :
    (∃ issue, runtime_issue code message target = .ok issue) ↔ code ≠ "" ∧ message ≠ "" := by
  unfold runtime_issue
  split
  · rename_i hempty
    exact iff_of_false (fun ⟨_, h⟩ => by cases h) fun h => hempty.elim h.1 h.2
  · rename_i hfull
    exact iff_of_true ⟨_, rfl⟩ (not_or.mp hfull)

/-- A code that is a text, and not empty. -/
def HasCode (e : RaisedException) : Prop :=
  ∃ code, e.code = some code ∧ code ≠ ""

/-- `str` returns a text. -/
def HasText (e : RaisedException) : Prop :=
  ∃ text, e.str = .ok text

/-- `str` returns a text that is not empty. -/
def HasMessage (e : RaisedException) : Prop :=
  ∃ text, e.str = .ok text ∧ text ≠ ""

/-- What the handlers of `execute` ask of an exception to report it: a code and a message
where the result repeats them, a failing status where it takes that from the exception. -/
def Reportable (e : RaisedException) : Prop :=
  match e.kind with
  | .capability_error status message => status ≠ .succeeded ∧ HasCode e ∧ message ≠ ""
  | .agent_runtime_error => HasCode e ∧ HasMessage e
  | .capability_provider_error status => status ≠ .succeeded ∧ HasCode e ∧ HasMessage e
  | .timeout_error => HasText e
  | .other => HasText e
  | .base_exception => False

/-- What the handlers of a rollback and of an observation ask of an exception. -/
def Describable (e : RaisedException) : Prop :=
  e.is_caught = true ∧ ∃ text, e.str = .ok text ∧ (text ≠ "" ∨ e.type_name ≠ "")

variable {e : RaisedException} {target : String} {status : ActionStatus}

theorem issue_with_code_ok_iff {message : String} :
    (∃ issue, issue_with_code e.code message target = .ok issue) ↔ HasCode e ∧ message ≠ "" := by
  unfold issue_with_code HasCode
  cases hcode : e.code with
  | none =>
    refine iff_of_false (fun ⟨_, h⟩ => by cases h) ?_
    rintro ⟨⟨code, h, -⟩, -⟩
    cases h
  | some code =>
    simp only
    rw [runtime_issue_ok_iff]
    refine and_congr_left fun _ => ?_
    constructor
    · exact fun h => ⟨code, rfl, h⟩
    · rintro ⟨_, heq, h⟩
      cases heq
      exact h

theorem repeat_error_ok_iff :
    (∃ status' issue, repeat_error status target e = .ok (status', issue) ∧
      status' ≠ .succeeded) ↔ status ≠ .succeeded ∧ HasCode e ∧ HasMessage e := by
  constructor
  · rintro ⟨status', issue, h, hstatus⟩
    obtain ⟨text, htext, h⟩ := bind_ok_iff.mp h
    obtain ⟨issue', hissue, h⟩ := bind_ok_iff.mp h
    cases h
    obtain ⟨hcode, hmessage⟩ := issue_with_code_ok_iff.mp ⟨_, hissue⟩
    exact ⟨hstatus, hcode, text, htext, hmessage⟩
  · rintro ⟨hstatus, hcode, text, htext, hmessage⟩
    obtain ⟨issue, hissue⟩ := issue_with_code_ok_iff.mpr ⟨hcode, hmessage⟩
    refine ⟨status, issue, bind_ok_iff.mpr ⟨text, htext, ?_⟩, hstatus⟩
    exact bind_ok_iff.mpr ⟨issue, hissue, rfl⟩

theorem word_error_ok_iff {code : String} {message : String → String} (hcode : code ≠ "")
    (hmessage : ∀ text, message text ≠ "") :
    (∃ status issue, word_error code message target e = .ok (status, issue) ∧
      status ≠ .succeeded) ↔ HasText e := by
  constructor
  · rintro ⟨status, issue, h, -⟩
    obtain ⟨text, htext, -⟩ := bind_ok_iff.mp h
    exact ⟨text, htext⟩
  · rintro ⟨text, htext⟩
    obtain ⟨issue, hissue⟩ := runtime_issue_ok_iff.mpr ⟨hcode, hmessage text⟩
    refine ⟨.failed, issue, bind_ok_iff.mpr ⟨text, htext, ?_⟩, by decide⟩
    exact bind_ok_iff.mpr ⟨issue, hissue, rfl⟩

theorem carry_error_ok_iff {message : String} :
    (∃ status' issue, carry_error status message target e = .ok (status', issue) ∧
      status' ≠ .succeeded) ↔ status ≠ .succeeded ∧ HasCode e ∧ message ≠ "" := by
  constructor
  · rintro ⟨status', issue, h, hstatus⟩
    obtain ⟨issue', hissue, h⟩ := bind_ok_iff.mp h
    cases h
    exact ⟨hstatus, issue_with_code_ok_iff.mp ⟨_, hissue⟩⟩
  · rintro ⟨hstatus, hissue⟩
    obtain ⟨issue, hissue⟩ := issue_with_code_ok_iff.mpr hissue
    exact ⟨status, issue, bind_ok_iff.mpr ⟨issue, hissue, rfl⟩, hstatus⟩

theorem timeout_message_nonempty (text : String) : timeout_message text ≠ "" := by
  unfold timeout_message
  split
  · decide
  · assumption

/-- A handler of `execute` returns a status and an issue, and the status fails, exactly for
an exception that can be reported. -/
theorem handle_execution_ok_iff {target : String} {e : RaisedException} :
    (∃ status issue, handle_execution target e = .ok (status, issue) ∧ status ≠ .succeeded) ↔
      Reportable e := by
  unfold handle_execution Reportable
  cases e.kind with
  | capability_error status message => exact carry_error_ok_iff
  | agent_runtime_error =>
    have hfailed : ActionStatus.failed ≠ .succeeded := by decide
    rw [repeat_error_ok_iff, and_iff_right hfailed]
  | capability_provider_error status => exact repeat_error_ok_iff
  | timeout_error => exact word_error_ok_iff (by decide) timeout_message_nonempty
  | other => exact word_error_ok_iff (by decide) fun text => worded_nonempty (by decide) [text]
  | base_exception => exact iff_of_false (fun ⟨_, _, h, _⟩ => by cases h) id

theorem code_or_nonempty {default_code : String} (h : default_code ≠ "") (code : Option String) :
    code_or default_code code ≠ "" := by
  unfold code_or
  split
  · exact h
  · split
    · exact h
    · assumption

theorem describe_ok_iff {default_code target : String} (hcode : default_code ≠ "")
    {e : RaisedException} :
    (∃ issue, describe default_code target e = .ok issue) ↔ Describable e := by
  have hmessage : ∀ text : String, (if text = "" then e.type_name else text) ≠ "" ↔
      text ≠ "" ∨ e.type_name ≠ "" := by
    intro text
    by_cases htext : text = ""
    · rw [if_pos htext]
      exact ⟨Or.inr, fun h => h.resolve_left fun h => h htext⟩
    · rw [if_neg htext]
      exact iff_of_true htext (Or.inl htext)
  constructor
  · rintro ⟨issue, h⟩
    obtain ⟨_, hcaught, h⟩ := bind_ok_iff.mp h
    obtain ⟨text, htext, h⟩ := bind_ok_iff.mp h
    have hcaught := Bool.eq_true_of_not_eq_false (refuse_if_ok_iff.mp hcaught)
    exact ⟨hcaught, text, htext, (hmessage text).mp (runtime_issue_ok_iff.mp ⟨_, h⟩).2⟩
  · rintro ⟨hcaught, text, htext, h⟩
    obtain ⟨issue, hissue⟩ := runtime_issue_ok_iff.mpr
      ⟨code_or_nonempty hcode e.code, (hmessage text).mpr h⟩
    have hnot : ¬ e.is_caught = false := ne_false_of_eq_true hcaught
    exact ⟨issue, bind_ok_iff.mpr
      ⟨(), refuse_if_ok_iff.mpr hnot, bind_ok_iff.mpr ⟨text, htext, hissue⟩⟩⟩

end MininetAi
