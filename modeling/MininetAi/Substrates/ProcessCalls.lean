/-
Runs of the actions on processes.

Calls follow each other in any order, and in between the processes do what they like. A
start is refused because of its id as long as the registry has the id, which is as long
as its process runs only when no process has ended under it before. A stop acts on the
newest start of its id, and what is reported as owned is what runs.

Where every leader that is found to have exited was the last of its group, a stop that
returns leaves no process of the group alive, and `close` none of any group.
-/
import MininetAi.Substrates.ProcessActions

set_option autoImplicit false

namespace MininetAi

open ProcessHost Routine

/-! ## Runs -/

inductive ProcessCall where
  | start (request : ActionRequest)
  | stop (request : ActionRequest)
  | owned
  | release (pids : List ℕ)
  | close

/-- A call from `s` may end in `t`. -/
inductive Calls (C : ProcessOp → ProcessHost → Prop) (plan : NetworkPlan) (s t : ProcessHost) :
    ProcessCall → Prop
  | start {request : ActionRequest} {result : Except ProcessRaised CapabilityOutcome}
      (h : Program.Ended (sequential C) (start_process plan request) s result t) : Calls C plan s t (.start request)
  | stop {request : ActionRequest} {result : Except ProcessRaised CapabilityOutcome}
      (h : Program.Ended (sequential C) (stop_process plan request) s result t) : Calls C plan s t (.stop request)
  | owned {result : Except ProcessRaised (List ℕ)}
      (h : Program.Ended (sequential C) owned_pids s result t) : Calls C plan s t .owned
  | release {pids : List ℕ} {result : Except ProcessRaised Unit}
      (h : Program.Ended (sequential C) (release_pids pids) s result t) : Calls C plan s t (.release pids)
  | close {result : Except ProcessRaised Unit}
      (h : Program.Ended (sequential C) MininetAi.close s result t) : Calls C plan s t .close

/-- The states of runs in which the operations of each call meet its condition. To begin
with nothing was started. -/
inductive Reaches (C : ProcessCall → ProcessOp → ProcessHost → Prop) (plan : NetworkPlan) :
    ProcessHost → Prop
  | first {s : ProcessHost} (hsound : s.OsSound) (hregistry : s.registry = []) (hchildren : s.children = [])
      (hstarted : s.started = []) : Reaches C plan s
  | moves {s : ProcessHost} (h : Reaches C plan s) (moves : List ProcessMove) : Reaches C plan (s.moved moves)
  | call {s t : ProcessHost} {c : ProcessCall} (h : Reaches C plan s) (hc : Calls (C c) plan s t c) :
      Reaches C plan t

variable {C : ProcessCall → ProcessOp → ProcessHost → Prop} {plan : NetworkPlan} {strict : Prop}

variable {s : ProcessHost}

/-- A routine that keeps the invariant, however it ends. -/
theorem registered_of_ended {D : ProcessOp → ProcessHost → Prop} {α : Type} {x : ProcessRoutine α}
    {t : ProcessHost} {result : Except ProcessRaised α} {P : ProcessHost → Prop}
    {Q : α → ProcessHost → Prop} {R : ProcessRaised → ProcessHost → Prop}
    (h : Meets (sequential D) P x (fun a s => Registered strict [] s ∧ Q a s)
      fun e s => Registered strict [] s ∧ R e s) (hs : P s)
    (hended : Program.Ended (sequential D) x s result t) : Registered strict [] t := by
  have hend := (h s hs).of_ended hended
  cases result with
  | ok a => exact hend.1
  | error e => exact hend.1

/-- The registry names what runs, whenever no call is made. -/
theorem reaches_registered (hC : ∀ c, c ≠ .owned → strict → Strict (C c)) (h : Reaches C plan s) :
    Registered strict [] s := by
  induction h with
  | @first s hsound hregistry hchildren hstarted =>
    refine ⟨hsound, ?_, ?_, ?_, ?_, ?_, ?_⟩
    · rw [hregistry]
      exact List.nodup_nil
    · rw [hregistry]
      exact fun _ _ hnone => by cases hnone
    · rw [hstarted]
      exact fun _ hmem => by cases hmem
    · rw [hregistry]
      exact fun _ _ hnone => by cases hnone
    · rw [hstarted]
      exact fun _ hmem => by cases hmem
    · rw [hchildren]
      exact fun _ _ hmem => by cases hmem
  | moves h moves ih => exact ih.later (Later.moved moves _) (same_moved moves _).1
  | call h hc ih =>
    cases hc with
    | start hended =>
      exact registered_of_ended (start_process_meets (hC _ (fun heq => by cases heq)) plan _ _) ⟨ih, rfl⟩ hended
    | stop hended =>
      exact registered_of_ended (stop_process_meets plan _ _) ⟨ih, ⟨rfl, rfl, rfl⟩, rfl⟩ hended
    | owned hended =>
      exact registered_of_ended ((owned_pids_meets ih).quiet (R := fun _ s => Registered strict [] s ∧ True))
        ⟨ih, Later.refl _, ⟨rfl, rfl, rfl⟩⟩ hended
    | release hended =>
      exact registered_of_ended (release_pids_meets (hC _ (fun heq => by cases heq)) _) ⟨ih, trivial⟩ hended
    | close hended =>
      exact registered_of_ended (close_meets (hC _ (fun heq => by cases heq))) ⟨ih, trivial⟩ hended

/-- The condition that asks for nothing. -/
def anything : ProcessCall → ProcessOp → ProcessHost → Prop := fun _ _ _ => True

instance (c : ProcessCall) (o : ProcessOp) (s : ProcessHost) : Decidable (anything c o s) :=
  inferInstanceAs (Decidable True)

/-- The registry has the newest start of an id. -/
def NewestStart (s : ProcessHost) (id : String) (pid : ℕ) : Prop :=
  (s.started.filter fun entry => entry.1 = id).getLast? = some (id, pid)

instance (s : ProcessHost) (id : String) (pid : ℕ) : Decidable (NewestStart s id pid) :=
  inferInstanceAs (Decidable (_ = _))

/-- A run of a routine: the processes make the same moves before each operation, and the
environment gives the same answer. -/
def run_among (moves : List ProcessMove) (answer : ProcessAnswer) {α : Type} (x : ProcessRoutine α)
    (s : ProcessHost) : Except ProcessRaised α × ProcessHost :=
  x.run (fun o s => o.act answer (s.moved moves)) s

theorem ended_among {D : ProcessOp → ProcessHost → Prop} [∀ o s, Decidable (D o s)] {α : Type}
    {x : ProcessRoutine α} {moves : List ProcessMove} {answer : ProcessAnswer} {s : ProcessHost}
    (h : Program.runs_under (fun o s => decide (D o (s.moved moves)))
      (fun o s => o.act answer (s.moved moves)) x s = true) :
    Program.Ended (sequential D) x s (run_among moves answer x s).1 (run_among moves answer x s).2 := by
  refine Program.Ended.of_run (fun o s hallowed => ?_) x s h
  exact ⟨s.moved moves, ⟨moves, rfl⟩, of_decide_eq_true hallowed, answer, rfl⟩

/-! ## Groups that are stopped -/

/-- A leader that is found to have exited was the last of its group. What is owned may be
asked for at any time. -/
def leader_last : ProcessCall → ProcessOp → ProcessHost → Prop
  | .owned => fun _ _ => True
  | _ => LeaderLast

theorem leader_last_strict (c : ProcessCall) (hc : c ≠ .owned) : Strict (leader_last c) := by
  cases c with
  | owned => exact absurd rfl hc
  | start request => exact fun _ _ h => h
  | stop request => exact fun _ _ h => h
  | release pids => exact fun _ _ h => h
  | close => exact fun _ _ h => h

/-- In every run in which a leader that is found to have exited was the last of its group:
when a stop of an id returns, no process of the group of its newest start is alive, and
when `close` returns, none of any group that was started. -/
theorem stopped_groups_are_dead (plan : NetworkPlan) {s t : ProcessHost} (h : Reaches leader_last plan s) :
    (∀ request outcome,
      Program.Ended (sequential LeaderLast) (stop_process plan request) s (.ok outcome) t →
        ∃ process_id pid, requested_process request = .ok process_id ∧ NewestStart s process_id pid ∧
          t.alive pid = false) ∧
    (Program.Ended (sequential LeaderLast) MininetAi.close s (.ok ()) t →
      ∀ pid ∈ t.children, t.alive pid = false) := by
  have hs : Registered True [] s := reaches_registered (fun c hc _ => leader_last_strict c hc) h
  have hstrict : Strict LeaderLast := fun _ _ h => h
  constructor
  · intro request outcome hended
    obtain ⟨_, _, process_id, managed, hid, hmanaged, hstopped⟩ :=
      (stop_process_meets plan request s s ⟨hs, ⟨rfl, rfl, rfl⟩, rfl⟩).of_ended hended
    exact ⟨process_id, managed.pid, hid, hs.newest process_id managed hmanaged, hstopped.2 hstrict⟩
  · intro hended pid hpid
    obtain ⟨hclosed, hempty⟩ := (close_meets (fun _ => hstrict) s ⟨hs, trivial⟩).of_ended hended
    by_contra halive
    rcases hclosed.living trivial pid hpid ((Bool.not_eq_false _).mp halive) with hmem | ⟨id, managed, hlookup, _⟩
    · cases hmem
    · rw [hempty] at hlookup
      cases hlookup

/-- What `LeaderLast` asks for, computed. -/
def leader_was_last : ProcessOp → ProcessHost → Bool
  | .poll pid, s => s.runs pid || !s.alive pid
  | .getpgid pid, s => (s.processes pid).isSome || !s.alive pid
  | _, _ => true

instance (o : ProcessOp) (s : ProcessHost) : Decidable (LeaderLast o s) :=
  decidable_of_iff (leader_was_last o s = true) (by
    cases o with
    | poll pid => simp [leader_was_last, LeaderLast, or_iff_not_imp_left]
    | getpgid pid => simp [leader_was_last, LeaderLast, or_iff_not_imp_left]
    | _ => exact iff_of_true rfl trivial)

/-- A plan whose targets are hosts that are live. -/
def host_plan : NetworkPlan where
  resources _ := some (.other "host")
  interface_is_live _ := true
  node_is_live _ := true

def start_shell : ActionRequest where
  id := "shell"
  name := "host.process.start"
  target := "h1"
  parameters := [("command", .str "sh")]

def stop_shell : ActionRequest where
  id := "halt"
  name := "host.process.stop"
  target := "h1"
  parameters := [("processId", .str "shell")]

/-- A shell was started. -/
def with_shell : ProcessHost := (run_among [] {} (start_process host_plan start_shell) {}).2

theorem os_sound_empty : ({} : ProcessHost).OsSound where
  bound := fun _ _ heq => by cases heq
  children_lt := fun _ hmem => by cases hmem
  own_lt := Nat.zero_lt_one
  own := fun hmem => by cases hmem
  leads := fun _ hmem => by cases hmem
  present := fun _ hmem => by cases hmem
  gone := fun _ _ heq => by cases heq

theorem reaches_shell : Reaches leader_last host_plan with_shell := by
  refine .call (c := .start start_shell) (.first os_sound_empty rfl rfl rfl)
    (.start (ended_among (D := LeaderLast) ?_))
  decide +kernel

theorem reaches_any_shell : Reaches anything host_plan with_shell := by
  refine .call (c := .start start_shell) (.first os_sound_empty rfl rfl rfl)
    (.start (ended_among (D := anything (.start start_shell)) ?_))
  decide

/-- The shell has a descendant that ignores `SIGTERM` and is waited for as soon as it has
exited. -/
theorem stopped_groups_are_dead_shell :
    let s := with_shell.moved [.fork 1]
    let t := (run_among [.reap 2] { rounds := 1 } (stop_process host_plan stop_shell) s).2
    s.alive 1 = true ∧ ∃ process_id pid, requested_process stop_shell = .ok process_id ∧
      NewestStart s process_id pid ∧ t.alive pid = false := by
  intro s t
  have hended := @ended_among LeaderLast _ _ (stop_process host_plan stop_shell) [.reap 2]
    { rounds := 1 } s (by decide +kernel)
  have hok : (run_among [.reap 2] { rounds := 1 } (stop_process host_plan stop_shell) s).1.isOk = true := by
    decide
  cases hresult : (run_among [.reap 2] { rounds := 1 } (stop_process host_plan stop_shell) s).1 with
  | error e =>
    rw [hresult] at hok
    cases hok
  | ok outcome =>
    rw [hresult] at hended
    exact ⟨by decide,
      (stopped_groups_are_dead host_plan (reaches_shell.moves [.fork 1])).1 stop_shell outcome hended⟩

/-- The shell exits before its descendant. Then its stop succeeds, and so does `close`, and
the descendant is alive after either. -/
theorem descendants_survive_their_leader :
    let s := with_shell.moved [.fork 1, .exit 1 0]
    Reaches anything host_plan s ∧ NewestStart s "shell" 1 ∧
      (∃ outcome t, Program.Ended (sequential (anything (.stop stop_shell)))
        (stop_process host_plan stop_shell) s (.ok outcome) t ∧ t.alive 1 = true) ∧
      ∃ t, Program.Ended (sequential (anything .close)) MininetAi.close s (.ok ()) t ∧
        1 ∈ t.children ∧ t.alive 1 = true := by
  intro s
  have hstop := @ended_among (anything (.stop stop_shell)) _ _ (stop_process host_plan stop_shell) []
    {} s (by decide +kernel)
  have hclose := @ended_among (anything .close) _ _ MininetAi.close [] {} s (by decide)
  have hstopped : (run_among [] {} (stop_process host_plan stop_shell) s).1.isOk = true := by
    decide
  have hclosed : (run_among [] {} MininetAi.close s).1.isOk = true := by decide
  refine ⟨reaches_any_shell.moves _, by decide, ?_, ?_⟩
  · cases hresult : (run_among [] {} (stop_process host_plan stop_shell) s).1 with
    | error e =>
      rw [hresult] at hstopped
      cases hstopped
    | ok outcome =>
      rw [hresult] at hstop
      exact ⟨outcome, _, hstop, by decide⟩
  · cases hresult : (run_among [] {} MininetAi.close s).1 with
    | error e =>
      rw [hresult] at hclosed
      cases hclosed
    | ok _ =>
      rw [hresult] at hclose
      exact ⟨_, hclose, by decide, by decide⟩

/-! ## Ids, stops and what is owned -/

/-- A start that is refused in this state because of its id is refused while a process that
was started under the id runs. -/
def RefusedWhileRunning (plan : NetworkPlan) (s : ProcessHost) (request : ActionRequest) : Prop :=
  ∀ answer, ((start_process plan request).run (fun o s => o.act answer s) s).1 =
      .error (already_in_use request.id) →
    ∃ entry ∈ s.started, entry.1 = request.id ∧ s.runs entry.2 = true

/-- A stop signals the newest start of its id alone, and this has stopped when the stop
returns. -/
def StopsNewest (plan : NetworkPlan) (s : ProcessHost) : Prop :=
  ∀ request result t, Program.Ended (sequential (anything .owned)) (stop_process plan request) s result t →
    (t.signals = s.signals ∨ ∃ process_id pid, requested_process request = .ok process_id ∧
      NewestStart s process_id pid ∧ SignalsOnly pid s t) ∧
    ∀ outcome, result = .ok outcome → ∃ process_id pid, requested_process request = .ok process_id ∧
      NewestStart s process_id pid ∧ t.runs pid = false

/-- What is reported as owned was started and ran, and everything that was started and still
runs is reported. -/
def OwnedReported (s : ProcessHost) : Prop :=
  ∀ pids t, Program.Ended (sequential (anything .owned)) owned_pids s (.ok pids) t →
    (∀ pid ∈ pids, (∃ entry ∈ s.started, entry.2 = pid) ∧ s.runs pid = true) ∧
      ∀ entry ∈ s.started, t.runs entry.2 = true → entry.2 ∈ pids

theorem stops_newest (plan : NetworkPlan) (hs : Registered False [] s) : StopsNewest plan s := by
  intro request result t hended
  have hend := (stop_process_meets plan request s s ⟨hs, ⟨rfl, rfl, rfl⟩, rfl⟩).of_ended hended
  have hnewest : StopActs request s t → t.signals = s.signals ∨ ∃ process_id pid,
      requested_process request = .ok process_id ∧ NewestStart s process_id pid ∧ SignalsOnly pid s t := by
    refine Or.imp_right ?_
    rintro ⟨process_id, managed, hid, hmanaged, honly⟩
    exact ⟨process_id, managed.pid, hid, hs.newest process_id managed hmanaged, honly⟩
  cases result with
  | error e => exact ⟨hnewest hend.2, fun outcome heq => by cases heq⟩
  | ok outcome =>
    obtain ⟨_, hacts, process_id, managed, hid, hmanaged, hstopped⟩ := hend
    refine ⟨hnewest hacts, fun _ _ => ?_⟩
    exact ⟨process_id, managed.pid, hid, hs.newest process_id managed hmanaged, hstopped.1⟩

theorem NewestStart.mem {id : String} {pid : ℕ} (h : NewestStart s id pid) :
    (id, pid) ∈ s.started :=
  (List.mem_filter.mp (List.mem_of_getLast? h)).1

theorem owned_reported (hs : Registered False [] s) : OwnedReported s := by
  intro pids t hended
  obtain ⟨_, hlater, hpids, hrunning⟩ :=
    (owned_pids_meets hs s ⟨hs, Later.refl s, ⟨rfl, rfl, rfl⟩⟩).of_ended hended
  refine ⟨fun pid hpid => ?_, fun entry hentry hruns => ?_⟩
  · obtain ⟨⟨entry, hentry, rfl⟩, hruns⟩ := hpids pid hpid
    have hnewest := hs.newest entry.1 entry.2 ((lookup_eq_some_iff hs.keys).mpr hentry)
    exact ⟨⟨_, NewestStart.mem hnewest, rfl⟩, hruns⟩
  · have hbefore := runs_before hs.sound hlater (hs.children entry hentry) hruns
    obtain ⟨managed, hmanaged, hpid⟩ := hs.running entry hentry hbefore
    have hmem := (lookup_eq_some_iff hs.keys).mp hmanaged
    rw [← hpid] at hruns ⊢
    exact hrunning _ hmem hruns

/-- A start that comes as far as its command does not complain about its id. -/
theorem start_command_ne (I : (o : ProcessOp) → ProcessHost → o.Reply × ProcessHost) (request : ActionRequest)
    (command : String) (arguments : List String) (s : ProcessHost) :
    ((start_command request command arguments).run I s).1 ≠ .error (already_in_use request.id) := by
  rw [start_command, ask_host, Routine.run_ask_bind]
  rcases I (.popen request.target command arguments) s with ⟨started, s₁⟩
  cases started with
  | error text => exact fun heq => action_failed_ne _ _ (Except.error.inj heq)
  | ok pid =>
    dsimp only
    rw [ask_host, Routine.run_ask_bind]
    rcases I (.poll pid) s₁ with ⟨code, s₂⟩
    cases code with
    | some status => exact fun heq => action_failed_ne _ _ (Except.error.inj heq)
    | none =>
      dsimp only
      rw [ask_host, Routine.run_ask_bind]
      exact fun heq => by cases heq

/-- The id is refused exactly when the registry has it. -/
theorem start_refused_iff (plan : NetworkPlan) (request : ActionRequest) (s : ProcessHost)
    (answer : ProcessAnswer) :
    ((start_process plan request).run (fun o s => o.act answer s) s).1 = .error (already_in_use request.id) ↔
      plan.require_host request.target = .ok () ∧ (∃ command, requested_command request = .ok command) ∧
        ∃ managed, s.registry.lookup request.id = some managed := by
  rw [start_process]
  cases hhost : plan.require_host request.target with
  | error e =>
    refine iff_of_false (fun heq => ?_) fun hall => by cases hall.1
    exact require_host_ne hhost _ (Except.error.inj heq)
  | ok _ =>
    cases hcommand : requested_command request with
    | error e =>
      refine iff_of_false (fun heq => ?_) fun hall => by cases hall.2.1.choose_spec
      exact requested_command_ne hcommand _ (Except.error.inj heq)
    | ok command =>
      have hlookup : (ProcessOp.lookup request.id).act answer s = (s.registry.lookup request.id, s) := rfl
      rw [checked, Routine.run_pure_bind, checked, Routine.run_pure_bind, ask_host, Routine.run_ask_bind,
        hlookup]
      cases hmanaged : s.registry.lookup request.id with
      | some managed => exact iff_of_true rfl ⟨rfl, ⟨command, rfl⟩, managed, rfl⟩
      | none =>
        refine iff_of_false ?_ fun hall => by cases hall.2.2.choose_spec
        by_cases hlive : plan.node_is_live request.target = false
        · dsimp only
          rw [if_pos hlive]
          exact fun heq => action_failed_ne _ _ (Except.error.inj heq)
        · dsimp only
          rw [if_neg hlive]
          exact start_command_ne _ request command.1 command.2 s

/-- In every reachable state: starts are refused because of their id only while a process
of that id runs, stops act on the newest start of their id, and what is owned is what
runs, exactly when no process of an id has ended that is asked for again. -/
theorem registry_follows_processes (plan : NetworkPlan) {s : ProcessHost} (h : Reaches anything plan s)
    (request : ActionRequest) :
    (RefusedWhileRunning plan s request ∧ StopsNewest plan s ∧ OwnedReported s) ↔
      (plan.require_host request.target = .ok () → (∃ command, requested_command request = .ok command) →
        ∀ managed, s.registry.lookup request.id = some managed → s.runs managed.pid = true) := by
  have hs : Registered False [] s := reaches_registered (fun _ _ hfalse => hfalse.elim) h
  have hrest := And.intro (stops_newest plan hs) (owned_reported hs)
  constructor
  · rintro ⟨hrefused, _⟩ hhost hcommand managed hmanaged
    obtain ⟨entry, hentry, hid, hruns⟩ := hrefused {}
      ((start_refused_iff plan request s {}).mpr ⟨hhost, hcommand, managed, hmanaged⟩)
    obtain ⟨found, hfound, hpid⟩ := hs.running entry hentry hruns
    rw [hid, hmanaged] at hfound
    rw [Option.some.inj hfound, hpid]
    exact hruns
  · intro hcondition
    refine ⟨fun answer hrefused => ?_, hrest⟩
    obtain ⟨hhost, hcommand, managed, hmanaged⟩ := (start_refused_iff plan request s answer).mp hrefused
    exact ⟨_, NewestStart.mem (hs.newest _ managed hmanaged), rfl,
      hcondition hhost hcommand managed hmanaged⟩

/-- While the shell runs its id is in use. -/
theorem registry_follows_processes_shell :
    RefusedWhileRunning host_plan with_shell start_shell ∧ StopsNewest host_plan with_shell ∧
      OwnedReported with_shell := by
  have hlookup : with_shell.registry.lookup "shell" = some ⟨"h1", 1⟩ := by decide
  refine (registry_follows_processes host_plan reaches_any_shell start_shell).mpr ?_
  intro _ _ managed hmanaged
  have hrun : with_shell.runs 1 = true := by decide
  rw [← Option.some.inj (hlookup.symm.trans hmanaged)]
  exact hrun

/-- The shell has exited by itself, and its id is refused as being in use. -/
theorem ended_process_keeps_its_id :
    Reaches anything host_plan (with_shell.moved [.exit 1 0]) ∧
      ¬ RefusedWhileRunning host_plan (with_shell.moved [.exit 1 0]) start_shell := by
  refine ⟨reaches_any_shell.moves _, fun hrefused => ?_⟩
  have hstarted : (with_shell.moved [.exit 1 0]).started = [("shell", 1)] := by decide
  have hstopped : (with_shell.moved [.exit 1 0]).runs 1 = false := by decide
  have hlookup : (with_shell.moved [.exit 1 0]).registry.lookup start_shell.id = some ⟨"h1", 1⟩ := by
    decide
  obtain ⟨entry, hentry, _, hruns⟩ := hrefused {}
    ((start_refused_iff host_plan start_shell _ {}).mpr ⟨rfl, ⟨_, rfl⟩, _, hlookup⟩)
  rw [hstarted] at hentry
  rw [List.mem_singleton.mp hentry, hstopped] at hruns
  cases hruns

end MininetAi
