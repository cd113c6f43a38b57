/-
`JsonLinesAuditSink.write` of `mininet_ai/audit/sinks.py`: the audit log that threads and
processes append to.

A call opens the log, takes its file lock, writes its payload in as many pieces as the
system makes of it, and closes. An open, a lock, a piece or a sync can fail, and a failed
call leaves in the log what it had written. `_lock`, which the threads of one process take
in front of the file lock, is left out: the lock of a descriptor of its own excludes them.
-/
import Mathlib.Data.Nat.Notation
import Mathlib.Logic.Function.Basic
import MininetAi.Lib.Transition

set_option autoImplicit false

namespace MininetAi

open Function

open Option

/-- Where a call of `write` is. -/
inductive AuditWriteStage where
  | idle
  | opened (payload : List UInt8)
  /-- In the loop of `_write_all`. -/
  | writing (payload : List UInt8) (written : ℕ)
  /-- Before the sync. -/
  | written (payload : List UInt8)
  | leaving
  deriving DecidableEq

/-- How a call ended that had the lock: what it wrote, and whether it returned. -/
structure AuditAppend where
  payload : List UInt8
  chunk : List UInt8
  returned : Bool
  deriving DecidableEq

/-- The log, who has its lock, the calls, and how the earlier ones ended. -/
structure AuditLog (κ : Type) where
  content : List UInt8
  holder : Option κ
  calls : κ → AuditWriteStage
  appends : List AuditAppend

inductive AuditLogEvent (κ : Type) where
  /-- The open and the checks of the descriptor, which may raise. -/
  | call (i : κ) (payload : List UInt8) (opened : Bool)
  | flock (i : κ) (ok : Bool)
  /-- `os.write`: how many bytes, or that it raises. -/
  | write (i : κ) (answer : Option ℕ)
  | sync (i : κ) (ok : Bool)
  /-- The unlock and the close. -/
  | close (i : κ)

namespace AuditLog

variable {κ : Type} [DecidableEq κ] (limit : κ → ℕ) (s : AuditLog κ)

def set (i : κ) (stage : AuditWriteStage) : AuditLog κ :=
  { s with calls := Function.update s.calls i stage }

/-- The end of the block of a call. -/
def leave (i : κ) (a : AuditAppend) : AuditLog κ :=
  { s.set i .leaving with appends := s.appends ++ [a] }

/-- The condition of the loop. -/
def next_stage (payload : List UInt8) (written : ℕ) : AuditWriteStage :=
  if written < payload.length then .writing payload written else .written payload

def step : AuditLogEvent κ → Option (AuditLog κ)
  | .call i payload opened =>
    if s.calls i = .idle then
      -- "audit event exceeds the configured size limit"
      if limit i < payload.length then some s
      else some (if opened then s.set i (.opened payload) else s)
    else none
  | .flock i ok =>
    match s.calls i with
    | .opened payload =>
      if ok = false then some (s.set i .idle)
      else if s.holder = none then some { s.set i (next_stage payload 0) with holder := some i }
      else none
    | _ => none
  | .write i answer =>
    match s.calls i, answer with
    | .writing payload written, some (n + 1) =>
      some { s.set i (next_stage payload (written + (n + 1))) with
        content := s.content ++ (payload.drop written).take (n + 1) }
    -- it raises, or "audit write made no progress"
    | .writing payload written, _ => some (s.leave i ⟨payload, payload.take written, false⟩)
    | _, _ => none
  | .sync i ok =>
    match s.calls i with
    | .written payload => some (s.leave i ⟨payload, payload, ok⟩)
    | _ => none
  | .close i =>
    if s.calls i = .leaving then
      some { s.set i .idle with holder := if s.holder = some i then none else s.holder }
    else none

/-- What the ended calls have left in the log. -/
def left : List UInt8 := (s.appends.map AuditAppend.chunk).flatten

end AuditLog

/-- The log before the first call may contain anything. -/
def audit_log {κ : Type} [DecidableEq κ] (limit : κ → ℕ) (before : List UInt8) :
    System (AuditLog κ) (AuditLogEvent κ) where
  init s := s.content = before ∧ s.holder = none ∧ (∀ i, s.calls i = .idle) ∧ s.appends = []
  step := AuditLog.step limit

/-! ## Every run -/

/-- What a call that has the lock has written. -/
def AuditWriteStage.progress : AuditWriteStage → List UInt8
  | .writing payload count => payload.take count
  | .written payload => payload
  | _ => []

/-- Whether a call is between the lock and the close. -/
def AuditWriteStage.locked : AuditWriteStage → Bool
  | .idle => false
  | .opened _ => false
  | _ => true

section Runs

variable {κ : Type} {limit : κ → ℕ} {before : List UInt8} {s s' : AuditLog κ} {i : κ} {stage : AuditWriteStage}

theorem progress_next_stage (payload : List UInt8) (written : ℕ) :
    (AuditLog.next_stage payload written).progress = payload.take written ∧
      (AuditLog.next_stage payload written).locked = true := by
  unfold AuditLog.next_stage
  split
  next => exact ⟨rfl, rfl⟩
  next hle => exact ⟨(List.take_of_length_le (Nat.le_of_not_lt hle)).symm, rfl⟩

theorem progress_of_unlocked (h : stage.locked = false) : stage.progress = [] := by
  cases stage <;> first | rfl | cases h

/-- The log is what it was, what the ended calls left, and what the holder of the lock has
written. -/
structure AuditLogInv (before : List UInt8) (s : AuditLog κ) : Prop where
  held : ∀ i, (s.calls i).locked = true → s.holder = some i
  content : s.content = before ++ s.left ++ s.holder.elim [] fun i => (s.calls i).progress
  whole : ∀ a ∈ s.appends, a.chunk <+: a.payload ∧ (a.returned = true → a.chunk = a.payload)

/-- The holder of the lock is the only call in its block. -/
theorem AuditLogInv.alone (h : AuditLogInv before s) (hi : (s.calls i).locked = true) :
    ∀ j, j ≠ i → (s.calls j).locked = false := by
  intro j hj
  refine Bool.eq_false_iff.mpr fun hl => hj ?_
  exact Option.some.inj ((h.held j hl).symm.trans (h.held i hi))

variable [DecidableEq κ]

/-- Outside of its block a call changes nothing. -/
theorem AuditLogInv.outside (h : AuditLogInv before s) (hi : (s.calls i).locked = false)
    (hstage : stage.locked = false) : AuditLogInv before (s.set i stage) := by
  have hsame : ∀ j, ((s.set i stage).calls j).progress = (s.calls j).progress := by
    intro j
    by_cases hj : j = i
    · simp only [AuditLog.set, hj, update_self, progress_of_unlocked hi, progress_of_unlocked hstage]
    · simp only [AuditLog.set, update_of_ne hj]
  refine ⟨fun j hl => ?_, ?_, h.whole⟩
  · by_cases hj : j = i
    · simp only [AuditLog.set, hj, update_self, hstage, Bool.false_eq_true] at hl
    · simp only [AuditLog.set, update_of_ne hj] at hl
      exact h.held j hl
  · simp only [hsame]
    exact h.content

/-- In its block it is alone. -/
theorem AuditLogInv.inside (hothers : ∀ j, j ≠ i → (s.calls j).locked = false)
    (hcalls : s'.calls = Function.update s.calls i stage)
    (hholder : s'.holder = some i ∨ stage.locked = false ∧ s'.holder = none)
    (hcontent : s'.content = before ++ s'.left ++ stage.progress)
    (hwhole : ∀ a ∈ s'.appends, a.chunk <+: a.payload ∧ (a.returned = true → a.chunk = a.payload)) :
    AuditLogInv before s' := by
  refine ⟨fun j hl => ?_, hcontent.trans (congrArg _ ?_), hwhole⟩
  · rw [hcalls] at hl
    by_cases hj : j = i
    · rw [hj, update_self] at hl
      rw [hj]
      refine hholder.resolve_right fun hstage => ?_
      rw [hstage.1] at hl
      cases hl
    · rw [update_of_ne hj, hothers j hj] at hl
      cases hl
  · rcases hholder with hmine | ⟨hstage, hnone⟩
    · rw [hmine, hcalls, elim_some, update_self]
    · rw [hnone, elim_none, progress_of_unlocked hstage]

/-- The end of a block: what the call wrote stays in the log. -/
theorem AuditLogInv.leave (h : AuditLogInv before s) (hi : (s.calls i).locked = true) {a : AuditAppend}
    (hchunk : a.chunk = (s.calls i).progress)
    (hwhole : a.chunk <+: a.payload ∧ (a.returned = true → a.chunk = a.payload)) :
    AuditLogInv before (s.leave i a) := by
  have hheld := h.held i hi
  refine AuditLogInv.inside (h.alone hi) rfl (.inl hheld) ?_ fun b hb => ?_
  · refine h.content.trans ?_
    simp [AuditLog.leave, AuditLog.set, AuditLog.left, hheld, hchunk, AuditWriteStage.progress]
  · rcases List.mem_append.mp hb with hold | hnew
    · exact h.whole b hold
    · exact List.mem_singleton.mp hnew ▸ hwhole

theorem AuditLogInv.step (h : AuditLogInv before s) {e : AuditLogEvent κ} (hs : s.step limit e = some s') :
    AuditLogInv before s' := by
  cases e with
  | call i payload opened =>
    simp only [AuditLog.step, ite_none_right_eq_some] at hs
    obtain ⟨hidle, hs⟩ := hs
    have hout : (s.calls i).locked = false := by rw [hidle]; rfl
    split at hs
    · exact Option.some.inj hs ▸ h
    · rw [← Option.some.inj hs]
      split
      · exact h.outside hout rfl
      · exact h
  | flock i ok =>
    simp only [AuditLog.step] at hs
    split at hs
    next payload hstage =>
      have hout : (s.calls i).locked = false := by rw [hstage]; rfl
      obtain ⟨hempty, -⟩ := progress_next_stage payload 0
      split at hs
      · exact Option.some.inj hs ▸ h.outside hout rfl
      · obtain ⟨hfree, hs⟩ := ite_none_right_eq_some.mp hs
        rw [← Option.some.inj hs]
        refine AuditLogInv.inside (fun j _ => ?_) rfl (.inl rfl) ?_ h.whole
        · refine Bool.eq_false_iff.mpr fun hl => ?_
          have hheld := h.held j hl
          rw [hfree] at hheld
          cases hheld
        · rw [hempty]
          have hcontent := h.content
          rw [hfree] at hcontent
          exact hcontent
    next => cases hs
  | write i answer =>
    simp only [AuditLog.step] at hs
    split at hs
    next payload written n hstage =>
      have hi : (s.calls i).locked = true := by rw [hstage]; rfl
      rw [← Option.some.inj hs]
      refine AuditLogInv.inside (h.alone hi) rfl (.inl (h.held i hi)) ?_ h.whole
      have hcontent := h.content
      rw [h.held i hi, elim_some, hstage] at hcontent
      have hpiece : payload.take (written + (n + 1)) =
          payload.take written ++ (payload.drop written).take (n + 1) := List.take_add
      rw [(progress_next_stage _ _).1, hpiece, ← List.append_assoc]
      exact congrArg (· ++ (payload.drop written).take (n + 1)) hcontent
    next payload written hstage _ =>
      have hi : (s.calls i).locked = true := by rw [hstage]; rfl
      exact Option.some.inj hs ▸ h.leave hi (by rw [hstage]; rfl) ⟨List.take_prefix _ _, fun hr => by cases hr⟩
    next => cases hs
  | sync i ok =>
    simp only [AuditLog.step] at hs
    split at hs
    next payload hstage =>
      have hi : (s.calls i).locked = true := by rw [hstage]; rfl
      exact Option.some.inj hs ▸ h.leave hi (by rw [hstage]; rfl) ⟨List.prefix_refl _, fun _ => rfl⟩
    next => cases hs
  | close i =>
    simp only [AuditLog.step, ite_none_right_eq_some, Option.some.injEq] at hs
    obtain ⟨hstage, rfl⟩ := hs
    have hi : (s.calls i).locked = true := by rw [hstage]; rfl
    have hheld := h.held i hi
    refine AuditLogInv.inside (h.alone hi) rfl (.inr ⟨rfl, if_pos hheld⟩) ?_ h.whole
    have hcontent := h.content
    rw [hheld, elim_some, hstage] at hcontent
    exact hcontent

theorem audit_log_inv (h : (audit_log limit before).Reachable s) : AuditLogInv before s := by
  refine h.invariant (fun s hinit => ?_) fun s e s' _ hinv hs => hinv.step hs
  obtain ⟨hcontent, hholder, hidle, happends⟩ := hinit
  refine ⟨fun i hl => ?_, ?_, fun a ha => ?_⟩
  · rw [hidle i] at hl
    cases hl
  · rw [hcontent, hholder, AuditLog.left, happends]
    simp
  · rw [happends] at ha
    cases ha

/-- Whatever calls overlap, in whatever pieces they write and wherever they fail: when no
call has the lock, the log is what it was and the chunks of the calls one after the other,
in the order in which they had the lock; the chunk of a call that returned is its payload,
so its line is there whole. -/
theorem audit_log_kept (h : (audit_log limit before).Reachable s)
    (hquiet : ∀ i, (s.calls i).locked = false) : s.content = before ++ s.left ∧
      ∀ a ∈ s.appends, a.chunk <+: a.payload ∧ (a.returned = true → a.chunk = a.payload) := by
  have hinv := audit_log_inv h
  refine ⟨hinv.content.trans ?_, hinv.whole⟩
  cases s.holder with
  | none => exact List.append_nil _
  | some i => rw [elim_some, progress_of_unlocked (hquiet i), List.append_nil]

/-- Two calls overlap, one writes its line in two pieces, and the other fails half-way. -/
theorem audit_log_kept_overlapping : ∃ s : AuditLog Bool,
    s.content = [7, 1, 2, 10, 3] ∧ s.appends = [⟨[1, 2, 10], [1, 2, 10], true⟩, ⟨[3, 10], [3], false⟩] ∧
      s.content = [7] ++ s.left := by
  have hrun : ((audit_log (fun _ => 8) [7]).run ⟨[7], none, fun _ => .idle, []⟩
      [.call true [1, 2, 10] true, .call false [3, 10] true, .flock true true, .write true (some 1),
        .write true (some 2), .sync true true, .close true, .flock false true, .write false (some 1),
        .write false none, .close false]).any
      (fun s => decide (s.content = [7, 1, 2, 10, 3] ∧
        s.appends = [⟨[1, 2, 10], [1, 2, 10], true⟩, ⟨[3, 10], [3], false⟩] ∧
        ∀ i, (s.calls i).locked = false)) = true := by
    decide
  obtain ⟨s, hs, hend⟩ := (any_eq_true _ _).mp hrun
  obtain ⟨hcontent, happends, hquiet⟩ := of_decide_eq_true hend
  have hreach : (audit_log (fun _ => 8) [7]).Reachable s :=
    System.Reachable.run (.init ⟨rfl, rfl, fun _ => rfl, rfl⟩) hs
  exact ⟨s, hcontent, happends, (audit_log_kept hreach hquiet).1⟩

end Runs

end MininetAi
