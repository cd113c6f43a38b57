/-
What the actions on processes do to the registry (`_start_process`, `_stop_process`,
`release_pids`, `close` and `owned_pids`), one call at a time.

Each rule starts from the invariant of the registry and ends with it, whether the call
returns or raises; what else holds at the end is what the call is for.
-/
import MininetAi.Substrates.ProcessRegistry

set_option autoImplicit false

namespace MininetAi

open List

open ProcessHost Routine

variable {strict : Prop} {loose : List ℕ}

/-! ## Assertions between two operations -/

/-- A fact that the processes keep. -/
def Steady (strict : Prop) (loose : List ℕ) (G : ProcessHost → Prop) : Prop :=
  ∀ s t : ProcessHost, Registered strict loose s → s.Later t → Same s t → t.signals = s.signals → G s → G t

/-- A fact that operations on one process keep as well. -/
def Lasting (strict : Prop) (loose : List ℕ) (pid : ℕ) (G : ProcessHost → Prop) : Prop :=
  ∀ s t : ProcessHost, Registered strict loose s → s.Later t → Same s t → SignalsOnly pid s t → G s → G t

section Assertions

variable {C : ProcessOp → ProcessHost → Prop} {G : ProcessHost → Prop} {pid : ℕ}

theorem Lasting.quiet (h : Lasting strict loose pid G) : Steady strict loose G :=
  fun s t hs hlater hsame hsignals => h s t hs hlater hsame (.of_eq hsignals)

theorem lasting_true (pid : ℕ) : Lasting strict loose pid fun _ => True :=
  fun _ _ _ _ _ _ => id

theorem quiet_stable (hG : Steady strict loose G) :
    (sequential C).Stable fun s => Registered strict loose s ∧ G s := by
  rintro s _ ⟨hs, hfact⟩ ⟨moves, rfl⟩
  obtain ⟨hsame, hsignals⟩ := same_moved moves s
  exact ⟨hs.later (Later.moved moves s) hsame, hG _ _ hs (Later.moved moves s) hsame hsignals hfact⟩

theorem lasting_kept (hG : Lasting strict loose pid G) :
    Upheld (sequential C) pid fun s => Registered strict loose s ∧ G s := by
  refine ⟨quiet_stable hG.quiet, fun o s r t ho hs hact => ?_⟩
  obtain ⟨_, a, heq⟩ := hact
  have hlater := later_act o a s
  obtain ⟨hsame, hsignals⟩ := same_act ho a s
  rw [heq] at hlater hsame hsignals
  exact ⟨hs.1.later hlater hsame, hG s t hs.1 hlater hsame hsignals hs.2⟩

/-- A check raises or returns. -/
theorem checked_meets {α : Type} {P : ProcessHost → Prop} {T : Terms ProcessOp ProcessOp.Reply ProcessHost}
    (hP : T.Stable P) (result : Except ActionExecutionError α) :
    Meets T P (checked result) (fun a s => result = .ok a ∧ P s)
      fun e s => (∃ error, result = .error error ∧ e = .action error) ∧ P s := by
  cases result with
  | ok a => exact Meets.pure hP fun s hs => ⟨rfl, hs⟩
  | error error => exact Meets.raise hP fun s hs => ⟨⟨error, rfl, rfl⟩, hs⟩

/-- A question about the registry. -/
theorem registry_meets {R : ProcessRaised → ProcessHost → Prop} (hG : Steady strict loose G)
    {o : ProcessOp} {answer : List (String × ManagedProcess) → o.Reply}
    (ho : ∀ a s, o.act a s = (answer s.registry, s)) :
    Meets (sequential C) (fun s => Registered strict loose s ∧ G s) (ask_host o)
      (fun r s => Registered strict loose s ∧ G s ∧ r = answer s.registry) R := by
  refine Meets.ask (quiet_stable hG) (fun s r t hs hact => ?_) fun r => quiet_stable ?_
  · obtain ⟨_, a, heq⟩ := hact
    rw [ho] at heq
    cases heq
    exact ⟨trivial, hs.1, hs.2, rfl⟩
  · intro s t hs hlater hsame hsignals h
    exact ⟨hG s t hs hlater hsame hsignals h.1, by rw [hsame.registry]; exact h.2⟩

variable {R : ProcessRaised → ProcessHost → Prop} {request : ActionRequest}
  {error : ActionExecutionError}

theorem lookup_meets (hG : Steady strict loose G) (id : String) :
    Meets (sequential C) (fun s => Registered strict loose s ∧ G s) (ask_host (.lookup id))
      (fun r s => Registered strict loose s ∧ G s ∧ r = s.registry.lookup id) R :=
  @registry_meets strict loose C G R hG (.lookup id) (fun registry => registry.lookup id) fun _ _ => rfl

theorem entries_meets (hG : Steady strict loose G) :
    Meets (sequential C) (fun s => Registered strict loose s ∧ G s) (ask_host .entries)
      (fun r s => Registered strict loose s ∧ G s ∧ r = s.registry) R :=
  @registry_meets strict loose C G R hG .entries (fun registry => registry) fun _ _ => rfl

/-- A process of the registry is stopped. -/
theorem stop_registered_meets (hG : Lasting strict loose pid G)
    (hchild : ∀ s : ProcessHost, Registered strict loose s → G s → pid ∈ s.children) (timeout : ℚ) :
    Meets (sequential C) (fun s => Registered strict loose s ∧ G s) (stop_running pid timeout)
      (fun _ s => Registered strict loose s ∧ G s ∧ Stopped C pid s)
      (fun _ s => Registered strict loose s ∧ G s) :=
  (stop_running_meets (lasting_kept hG) (ordinary_sequential C) timeout).mono
    (fun s hs => ⟨⟨hs.1.sound, hchild s hs.1 hs.2, hs⟩, trivial⟩)
    (fun _ _ hs => ⟨hs.1.kept.1, hs.1.kept.2, hs.2⟩) fun _ _ hs => hs.1.kept

/-! ## Starting -/

variable {c : Char} {s₀ s : ProcessHost}

theorem head_worded {first : String} (h : first.toList.head? = some c) (rest : List String) :
    (worded first rest).toList.head? = some c := by
  rw [worded, String.toList_append, head?_append, h]
  rfl

theorem action_failed_ne (message id : String) : action_failed message ≠ already_in_use id := by
  intro heq
  have hstatus : ActionStatus.failed = ActionStatus.rejected :=
    congrArg ActionExecutionError.status (ProcessRaised.action.inj heq)
  cases hstatus

/-- A message that starts otherwise. -/
theorem reject_ne {message : String} (h : message.toList.head? = some c) (hc : c ≠ 'p')
    (id : String) : ProcessRaised.action (.reject message) ≠ already_in_use id := by
  intro heq
  have hmessage : message = worded "process id '" [id, "' is already in use"] :=
    congrArg ActionExecutionError.message (ProcessRaised.action.inj heq)
  rw [hmessage, head_worded (c := 'p') rfl] at h
  exact hc (Option.some.inj h).symm

theorem only_parameters_ne {known : List String}
    (h : only_parameters request known = .error error) (id : String) :
    ProcessRaised.action error ≠ already_in_use id := by
  unfold only_parameters at h
  dsimp only at h
  split at h
  · cases h
    exact reject_ne (head_worded (c := 'u') rfl _) (by decide) id
  · cases h

theorem require_host_ne {plan : NetworkPlan} {target : String}
    (h : plan.require_host target = .error error) (id : String) :
    ProcessRaised.action error ≠ already_in_use id := by
  have hkind : ∀ kind, ProcessRaised.action (wrong_kind target "host" kind) ≠ already_in_use id :=
    fun kind => reject_ne (head_worded (c := 'a') rfl _) (by decide) id
  unfold NetworkPlan.require_host at h
  split at h
  · cases h
    exact action_failed_ne _ id
  · cases h
    exact hkind "switch"
  · cases h
    exact hkind "link"
  · split at h
    · cases h
    · cases h
      exact hkind _

theorem requested_command_ne (h : requested_command request = .error error) (id : String) :
    ProcessRaised.action error ≠ already_in_use id := by
  have hcommand : ProcessRaised.action (.reject "command must be a non-empty string") ≠
      already_in_use id := reject_ne (c := 'c') rfl (by decide) id
  have harguments : ProcessRaised.action (.reject "arguments must be a list of strings") ≠
      already_in_use id := reject_ne (c := 'a') rfl (by decide) id
  unfold requested_command at h
  cases honly : only_parameters request ["command", "arguments"] with
  | error e =>
    rw [honly] at h
    cases h
    exact only_parameters_ne honly id
  | ok _ =>
    rw [honly] at h
    simp only [bind, Except.bind] at h
    split at h
    · cases h
      exact hcommand
    · split at h
      · cases h
        exact hcommand
      · split at h
        · split at h
          · cases h
          · cases h
            exact harguments
        · cases h
          exact harguments

/-- The id is free, and the process was started. -/
theorem lasting_free (id : String) (pid : ℕ) :
    Lasting strict loose pid fun s => s.registry.lookup id = none ∧ pid ∈ s.children := by
  intro s t _ _ hsame _ h
  rw [hsame.registry, hsame.children]
  exact h

/-- A new process is not registered yet. -/
theorem popen_meets (id host command : String) (arguments : List String) :
    Meets (sequential C) (fun s => Registered strict [] s ∧ s.registry.lookup id = none)
      (ask_host (.popen host command arguments)) (fun r s =>
        (∀ text, r = .error text → Registered strict [] s ∧ s.registry.lookup id = none) ∧
        ∀ pid, r = .ok pid → Registered strict [pid] s ∧ s.registry.lookup id = none ∧ pid ∈ s.children)
      R := by
  have hfree : ∀ loose : List ℕ, Steady strict loose fun s => s.registry.lookup id = none := by
    intro loose s t _ _ hsame _ h
    rw [hsame.registry]
    exact h
  refine Meets.ask (quiet_stable (hfree [])) (fun s r t hs hact => ⟨trivial, ?_⟩) fun r s t h hst => ?_
  · obtain ⟨_, a, heq⟩ := hact
    rw [ProcessOp.act] at heq
    cases hrefusal : a.refusal with
    | some text =>
      rw [hrefusal] at heq
      cases heq
      exact ⟨fun _ _ => hs, fun pid hpid => by cases hpid⟩
    | none =>
      rw [hrefusal] at heq
      cases heq
      refine ⟨fun text htext => (by cases htext), fun pid hpid => ?_⟩
      cases hpid
      exact ⟨hs.1.popen, hs.2, mem_append_right _ (mem_singleton_self _)⟩
  · exact ⟨fun text htext => quiet_stable (hfree []) s t (h.1 text htext) hst,
      fun pid hpid => quiet_stable (lasting_free id pid).quiet s t (h.2 pid hpid) hst⟩

/-- A process that was started is registered, unless it has exited. -/
theorem start_command_meets (hC : strict → Strict C) (request : ActionRequest) (command : String)
    (arguments : List String) :
    Meets (sequential C) (fun s => Registered strict [] s ∧ s.registry.lookup request.id = none)
      (start_command request command arguments) (fun _ s => Registered strict [] s ∧ True)
      (fun e s => Registered strict [] s ∧ e ≠ already_in_use request.id) := by
  have hR : ∀ e : ProcessRaised,
      (sequential C).Stable fun s => Registered strict [] s ∧ e ≠ already_in_use request.id :=
    fun e => quiet_stable fun _ _ _ _ _ _ => id
  have hend : (sequential C).Stable fun s => Registered strict [] s ∧ True :=
    quiet_stable (lasting_true 0).quiet
  refine Meets.bind (popen_meets request.id request.target command arguments) (fun r => ?_) hR
  match r with
  | .error text =>
    refine (Meets.raise hend fun s hs => ⟨hs.1, action_failed_ne _ _⟩).pre fun s hs => ?_
    exact ⟨(hs.1 text rfl).1, trivial⟩
  | .ok pid =>
    have hfree := @lasting_free strict [pid] request.id pid
    refine Meets.mono (P := fun s => Registered strict [pid] s ∧
      s.registry.lookup request.id = none ∧ pid ∈ s.children) ?_ (fun s hs => hs.2 pid rfl)
      (fun _ _ => id) (fun _ _ => id)
    have hpoll := (poll_meets (R := fun e s => Registered strict [] s ∧ e ≠ already_in_use request.id)
      (lasting_kept (C := C) hfree) (ordinary_sequential C)).pre
        fun s (hs : Registered strict [pid] s ∧ _) => ⟨⟨hs.1.sound, hs.2.2, hs⟩, trivial⟩
    refine Meets.bind hpoll (fun code => ?_) hR
    cases code with
    | some status =>
      refine (Meets.raise hend fun s hs => ⟨hs.1, action_failed_ne _ _⟩).pre fun s hs => ?_
      exact ⟨hs.1.kept.1.settle hC (hs.2 fun hnone => by cases hnone), trivial⟩
    | none =>
      have hregister : Meets (sequential C) (fun s => Registered strict [pid] s ∧
          s.registry.lookup request.id = none ∧ pid ∈ s.children)
          (ask_host (.register request.id ⟨request.target, pid⟩))
          (fun _ s => Registered strict [] s ∧ True)
          fun e s => Registered strict [] s ∧ e ≠ already_in_use request.id := by
        refine Meets.ask (quiet_stable hfree.quiet) (fun s r t hs hact => ⟨trivial, ?_⟩) fun _ => hend
        obtain ⟨_, a, heq⟩ := hact
        cases heq
        exact ⟨hs.1.register hs.2.1 hs.2.2, trivial⟩
      exact Meets.bind (hregister.pre fun s hs => hs.1.kept)
        (fun _ => Meets.pure hend fun s hs => hs) hR

/-- `_start_process`: the id is refused when the registry has it. -/
theorem start_process_meets (hC : strict → Strict C) (plan : NetworkPlan) (request : ActionRequest)
    (registry : List (String × ManagedProcess)) :
    Meets (sequential C) (fun s => Registered strict [] s ∧ s.registry = registry)
      (start_process plan request) (fun _ s => Registered strict [] s ∧ True)
      (fun e s => Registered strict [] s ∧
        (e = already_in_use request.id → ∃ managed, registry.lookup request.id = some managed)) := by
  have hG : Steady strict [] fun s => s.registry = registry :=
    fun s t _ _ hsame _ h => hsame.registry.trans h
  have hR : ∀ e : ProcessRaised, (sequential C).Stable fun s => Registered strict [] s ∧
      (e = already_in_use request.id → ∃ managed, registry.lookup request.id = some managed) :=
    fun e => quiet_stable fun _ _ _ _ _ _ => id
  refine Meets.bind ((checked_meets (quiet_stable hG) _).mono (fun _ => id) (fun _ _ hs => hs.2) ?_)
    (fun _ => ?_) hR
  · rintro e s ⟨⟨error, herror, rfl⟩, hs⟩
    exact ⟨hs.1, fun heq => absurd heq (require_host_ne herror _)⟩
  refine Meets.bind ((checked_meets (quiet_stable hG) _).mono (fun _ => id) (fun _ _ hs => hs.2) ?_)
    (fun command => ?_) hR
  · rintro e s ⟨⟨error, herror, rfl⟩, hs⟩
    exact ⟨hs.1, fun heq => absurd heq (requested_command_ne herror _)⟩
  refine Meets.bind (lookup_meets hG request.id) (fun found => ?_) hR
  have hfound : Steady strict [] fun s => s.registry = registry ∧ found = s.registry.lookup request.id := by
    intro s t hs hlater hsame hsignals h
    exact ⟨hG s t hs hlater hsame hsignals h.1, hsame.registry ▸ h.2⟩
  cases found with
  | some managed =>
    refine Meets.raise (quiet_stable hfound) fun s hs => ⟨hs.1, fun _ => ⟨managed, ?_⟩⟩
    rw [← hs.2.1]
    exact hs.2.2.symm
  | none =>
    refine Meets.ite (fun _ => ?_) fun _ => ?_
    · exact Meets.raise (quiet_stable hfound) fun s hs =>
        ⟨hs.1, fun heq => absurd heq (action_failed_ne _ _)⟩
    · exact (start_command_meets hC request command.1 command.2).mono (fun s hs => ⟨hs.1, hs.2.2.symm⟩)
        (fun _ _ => id) fun e s hs => ⟨hs.1, fun heq => absurd heq hs.2⟩

/-! ## Stopping -/

/-- The signals of a stop went to the process that the registry has under its id. -/
def StopActs (request : ActionRequest) (s t : ProcessHost) : Prop :=
  t.signals = s.signals ∨ ∃ id managed, requested_process request = .ok id ∧
    s.registry.lookup id = some managed ∧ SignalsOnly managed.pid s t

theorem lasting_signals (s₀ : ProcessHost) (pid : ℕ) :
    Lasting strict loose pid fun s => Same s₀ s ∧ SignalsOnly pid s₀ s :=
  fun _ _ _ _ hsame hsignals h => ⟨h.1.trans hsame, h.2.trans hsignals⟩

theorem quiet_acts (request : ActionRequest) (s₀ : ProcessHost) :
    Steady strict loose (StopActs request s₀) := by
  intro s t _ _ _ hsignals h
  rcases h with hsame | ⟨process_id, managed, hid, hmanaged, honly⟩
  · exact .inl (hsignals.trans hsame)
  · exact .inr ⟨process_id, managed, hid, hmanaged, honly.trans (.of_eq hsignals)⟩

/-- A process that the registry has is stopped. -/
theorem stop_managed_meets {process_id : String} {managed : ManagedProcess}
    (hid : requested_process request = .ok process_id)
    (hmanaged : s₀.registry.lookup process_id = some managed) :
    Meets (sequential C) (fun s => Registered strict [] s ∧ Same s₀ s ∧ SignalsOnly managed.pid s₀ s)
      (stop_managed request process_id managed)
      (fun _ s => Registered strict [] s ∧ StopActs request s₀ s ∧ Stopped C managed.pid s)
      (fun _ s => Registered strict [] s ∧ StopActs request s₀ s) := by
  have hlasting := @lasting_signals strict [] s₀ managed.pid
  have hacts : ∀ s, SignalsOnly managed.pid s₀ s → StopActs request s₀ s :=
    fun s hs => .inr ⟨process_id, managed, hid, hmanaged, hs⟩
  have hchild : ∀ s, Registered strict [] s → Same s₀ s → managed.pid ∈ s.children :=
    fun s hs hsame => hs.named process_id managed (hsame.registry.symm ▸ hmanaged)
  have hR : ∀ _ : ProcessRaised,
      (sequential C).Stable fun s => Registered strict [] s ∧ StopActs request s₀ s :=
    fun _ => quiet_stable (quiet_acts request s₀)
  refine Meets.ite (fun _ => ?_) fun _ => ?_
  · exact Meets.raise (quiet_stable hlasting.quiet) fun s hs => ⟨hs.1, hacts s hs.2.2⟩
  have hstop := stop_registered_meets (C := C) hlasting (fun s hs h => hchild s hs h.1)
    request.timeout_seconds
  refine Meets.bind (hstop.mono (fun _ => id) (fun _ _ => id) fun _ s hs => ⟨hs.1, hacts s hs.2.2⟩)
    (fun running => ?_) hR
  have hstopped : Lasting strict [] managed.pid fun s =>
      (Same s₀ s ∧ SignalsOnly managed.pid s₀ s) ∧ Stopped C managed.pid s :=
    fun s t hs hlater hsame hsignals h => ⟨hlasting s t hs hlater hsame hsignals h.1,
      past_over C managed.pid s t hs.sound (hchild s hs h.1.1) hlater h.2⟩
  have hcode := (lasting_kept (C := C) hstopped).ask_any
    (R := fun _ s => Registered strict [] s ∧ StopActs request s₀ s) (ordinary_sequential C)
    (o := .returncode managed.pid) (decide_eq_true rfl)
  refine Meets.bind (hcode.mono (fun s hs => ⟨⟨hs.1.sound, hchild s hs.1 hs.2.1.1, hs⟩, trivial⟩)
    (fun _ _ hs => hs.1.kept) fun _ _ => id) (fun code => ?_) hR
  exact Meets.pure (quiet_stable hstopped.quiet) fun s hs => ⟨hs.1, hacts s hs.2.1.2, hs.2.2⟩

/-- `_stop_process`: what it does it does to the process that the registry has, and when it
returns this has stopped. -/
theorem stop_process_meets (plan : NetworkPlan) (request : ActionRequest) (s₀ : ProcessHost) :
    Meets (sequential C) (fun s => Registered strict [] s ∧ Same s₀ s ∧ s.signals = s₀.signals)
      (stop_process plan request) (fun _ s => Registered strict [] s ∧ StopActs request s₀ s ∧
        ∃ process_id managed, requested_process request = .ok process_id ∧
          s₀.registry.lookup process_id = some managed ∧ Stopped C managed.pid s)
      (fun _ s => Registered strict [] s ∧ StopActs request s₀ s) := by
  have hG : Steady strict [] fun s => Same s₀ s ∧ s.signals = s₀.signals :=
    fun s t _ _ hsame hsignals h => ⟨h.1.trans hsame, hsignals.trans h.2⟩
  have hR : ∀ _ : ProcessRaised,
      (sequential C).Stable fun s => Registered strict [] s ∧ StopActs request s₀ s :=
    fun _ => quiet_stable (quiet_acts request s₀)
  refine Meets.bind ((checked_meets (quiet_stable hG) _).mono (fun _ => id) (fun _ _ hs => hs.2)
    fun _ _ hs => ⟨hs.2.1, .inl hs.2.2.2⟩) (fun _ => ?_) hR
  refine Meets.bind ((checked_meets (quiet_stable hG) _).mono (fun _ => id) (fun _ _ => id)
    fun _ _ hs => ⟨hs.2.1, .inl hs.2.2.2⟩) (fun process_id => Meets.given fun hid => ?_) hR
  refine Meets.bind (lookup_meets hG process_id) (fun found => ?_) hR
  have hfound : Steady strict [] fun s =>
      (Same s₀ s ∧ s.signals = s₀.signals) ∧ found = s.registry.lookup process_id :=
    fun s t hs hlater hsame hsignals h => ⟨hG s t hs hlater hsame hsignals h.1, hsame.registry ▸ h.2⟩
  cases found with
  | none => exact Meets.raise (quiet_stable hfound) fun s hs => ⟨hs.1, .inl hs.2.1.2⟩
  | some managed =>
    refine Meets.mono (P := fun s => s₀.registry.lookup process_id = some managed ∧
      Registered strict [] s ∧ Same s₀ s ∧ SignalsOnly managed.pid s₀ s)
      (Meets.given fun hmanaged => (stop_managed_meets hid hmanaged).mono (fun _ => id)
        (fun _ s hs => ⟨hs.1, hs.2.1, process_id, managed, hid, hmanaged, hs.2.2⟩) fun _ _ => id)
      (fun s hs => ⟨?_, hs.1, hs.2.1.1, .of_eq hs.2.1.2⟩) (fun _ _ => id) (fun _ _ => id)
    rw [← hs.2.1.1.registry]
    exact hs.2.2.symm

/-! ## Releasing and closing -/

/-- The entries are those of the registry. -/
def HasEntries (entries : List (String × ManagedProcess)) (s : ProcessHost) : Prop :=
  (entries.map Prod.fst).Nodup ∧ ∀ entry ∈ entries, s.registry.lookup entry.1 = some entry.2

theorem lasting_entries (entries : List (String × ManagedProcess)) (pid : ℕ) :
    Lasting strict loose pid (HasEntries entries) := by
  intro s t _ _ hsame _ h
  rw [HasEntries, hsame.registry]
  exact h

/-- An entry whose process has stopped leaves the registry. -/
theorem unregister_meets (hC : strict → Strict C) {entry : String × ManagedProcess}
    {entries : List (String × ManagedProcess)} :
    Meets (sequential C) (fun s => Registered strict [] s ∧ HasEntries (entry :: entries) s ∧
        Stopped C entry.2.pid s) (ask_host (.unregister entry.1))
      (fun _ s => Registered strict [] s ∧ HasEntries entries s) R := by
  have hbefore : Lasting strict [] entry.2.pid fun s =>
      HasEntries (entry :: entries) s ∧ Stopped C entry.2.pid s := by
    intro s t hs hlater hsame hsignals h
    have hchild := hs.named entry.1 entry.2 (h.1.2 entry mem_cons_self)
    exact ⟨lasting_entries _ _ s t hs hlater hsame hsignals h.1,
      past_over C _ s t hs.sound hchild hlater h.2⟩
  refine Meets.ask (quiet_stable hbefore.quiet) (fun s r t hs hact => ⟨trivial, ?_⟩)
    fun _ => quiet_stable (lasting_entries entries 0).quiet
  obtain ⟨_, a, heq⟩ := hact
  cases heq
  obtain ⟨hs, ⟨hkeys, hentries⟩, hstopped⟩ := hs
  rw [map_cons] at hkeys
  obtain ⟨hfresh, hrest⟩ := List.nodup_cons.mp hkeys
  have hown := hentries entry mem_cons_self
  refine ⟨hs.forget hC ?_ (fun other managed hother => ?_) (fun other managed hother => ?_), hrest,
    fun later hlater => ?_⟩
  · exact Nodup.sublist (Sublist.map _ filter_sublist) hs.keys
  · by_cases heq : other = entry.1
    · rw [heq, lookup_dict_del_self] at hother
      cases hother
    · rw [lookup_dict_del_of_ne heq] at hother
      exact hother
  · by_cases heq : other = entry.1
    · rw [heq, hown] at hother
      exact .inr (Option.some.inj hother ▸ hstopped)
    · rw [lookup_dict_del_of_ne heq]
      exact .inl hother
  · have hne : later.1 ≠ entry.1 := fun heq => hfresh (heq ▸ mem_map_of_mem hlater)
    dsimp only
    rw [lookup_dict_del_of_ne hne]
    exact hentries later (mem_cons_of_mem _ hlater)

theorem release_entries_meets (hC : strict → Strict C) (requested : List ℕ)
    (entries : List (String × ManagedProcess)) :
    Meets (sequential C) (fun s => Registered strict [] s ∧ HasEntries entries s)
      (release_entries requested entries) (fun _ s => Registered strict [] s ∧ True)
      (fun _ s => Registered strict [] s ∧ True) := by
  have hR : ∀ _ : ProcessRaised, (sequential C).Stable fun s => Registered strict [] s ∧ True :=
    fun _ => quiet_stable (lasting_true 0).quiet
  induction entries with
  | nil => exact Meets.pure (quiet_stable (lasting_entries [] 0).quiet) fun s hs => ⟨hs.1, trivial⟩
  | cons entry entries ih =>
    refine Meets.ite (fun _ => ?_) fun _ => ?_
    · have hstop := stop_registered_meets (C := C) (lasting_entries (entry :: entries) entry.2.pid)
        (fun s (hs : Registered strict [] s) h => hs.named _ _ (h.2 entry mem_cons_self)) 2
      refine Meets.bind (hstop.mono (fun _ => id) (fun _ _ => id) fun _ s hs => ⟨hs.1, trivial⟩)
        (fun _ => ?_) hR
      exact Meets.bind (unregister_meets hC) (fun _ => ih) hR
    · refine ih.pre fun s hs => ⟨hs.1, (List.nodup_cons.mp hs.2.1).2, fun later hlater => ?_⟩
      exact hs.2.2 later (mem_cons_of_mem _ hlater)

/-- `release_pids`. -/
theorem release_pids_meets (hC : strict → Strict C) (pids : List ℕ) :
    Meets (sequential C) (fun s => Registered strict [] s ∧ True) (release_pids pids)
      (fun _ s => Registered strict [] s ∧ True) (fun _ s => Registered strict [] s ∧ True) := by
  refine Meets.bind (entries_meets (lasting_true 0).quiet) (fun entries => ?_)
    fun _ => quiet_stable (lasting_true 0).quiet
  refine (release_entries_meets hC pids entries).pre fun s hs => ⟨hs.1, ?_⟩
  rw [hs.2.2]
  exact ⟨hs.1.keys, fun entry hentry => (lookup_eq_some_iff hs.1.keys).mpr hentry⟩

/-- What the registry has has stopped, or its id is still to come. -/
def StoppedExcept (C : ProcessOp → ProcessHost → Prop) (ids : List String) (s : ProcessHost) : Prop :=
  ∀ id managed, s.registry.lookup id = some managed → id ∈ ids ∨ Stopped C managed.pid s

theorem lasting_stopped_but (C : ProcessOp → ProcessHost → Prop) (ids : List String) (pid : ℕ) :
    Lasting strict loose pid (StoppedExcept C ids) := by
  intro s t hs hlater hsame _ h id managed hmanaged
  rw [hsame.registry] at hmanaged
  exact (h id managed hmanaged).imp_right
    (past_over C managed.pid s t hs.sound (hs.named id managed hmanaged) hlater)

theorem close_entries_meets (ids : List String) :
    Meets (sequential C) (fun s => Registered strict [] s ∧ StoppedExcept C ids s) (close_entries ids)
      (fun _ s => Registered strict [] s ∧ StoppedExcept C [] s)
      (fun _ s => Registered strict [] s ∧ True) := by
  have hR : ∀ _ : ProcessRaised, (sequential C).Stable fun s => Registered strict [] s ∧ True :=
    fun _ => quiet_stable (lasting_true 0).quiet
  induction ids with
  | nil => exact Meets.pure (quiet_stable (lasting_stopped_but C [] 0).quiet) fun s hs => hs
  | cons id ids ih =>
    refine Meets.bind (lookup_meets (lasting_stopped_but C (id :: ids) 0).quiet id) (fun found => ?_) hR
    have hfound : ∀ pid, Lasting strict [] pid fun s =>
        StoppedExcept C (id :: ids) s ∧ found = s.registry.lookup id :=
      fun pid s t hs hlater hsame hsignals h =>
        ⟨lasting_stopped_but C _ pid s t hs hlater hsame hsignals h.1, hsame.registry ▸ h.2⟩
    cases found with
    | none => exact Meets.raise (quiet_stable (hfound 0).quiet) fun s hs => ⟨hs.1, trivial⟩
    | some managed =>
      have hstop := stop_registered_meets (C := C) (hfound managed.pid)
        (fun s (hs : Registered strict [] s) h => hs.named id managed h.2.symm) 2
      refine Meets.bind (hstop.on_raise
        fun _ s hs => ⟨hs.1, trivial⟩) (fun _ => ih.pre fun s hs => ⟨hs.1, ?_⟩) hR
      intro other managed' hother
      rcases hs.2.1.1 other managed' hother with hmem | hstopped
      · rcases mem_cons.mp hmem with rfl | hlater
        · rw [← hs.2.1.2] at hother
          exact .inr (Option.some.inj hother ▸ hs.2.2)
        · exact .inl hlater
      · exact .inr hstopped

/-- `close`. When it returns the registry is empty. -/
theorem close_meets (hC : strict → Strict C) :
    Meets (sequential C) (fun s => Registered strict [] s ∧ True) close
      (fun _ s => Registered strict [] s ∧ s.registry = []) (fun _ s => Registered strict [] s ∧ True) := by
  have hR : ∀ _ : ProcessRaised, (sequential C).Stable fun s => Registered strict [] s ∧ True :=
    fun _ => quiet_stable (lasting_true 0).quiet
  have hempty : Steady strict [] fun s => s.registry = [] :=
    fun s t _ _ hsame _ h => hsame.registry.trans h
  refine Meets.bind (entries_meets (lasting_true 0).quiet) (fun entries => ?_) hR
  refine Meets.bind ((close_entries_meets (entries.map Prod.fst)).pre fun s hs => ⟨hs.1, ?_⟩)
    (fun _ => ?_) hR
  · intro id managed hmanaged
    rw [hs.2.2]
    exact .inl (mem_map_of_mem ((lookup_eq_some_iff hs.1.keys).mp hmanaged))
  · refine Meets.ask (quiet_stable (lasting_stopped_but C [] 0).quiet) (fun s r t hs hact => ?_)
      fun _ => quiet_stable hempty
    obtain ⟨_, a, heq⟩ := hact
    cases heq
    refine ⟨trivial, hs.1.forget hC nodup_nil (fun _ _ hnone => (by cases hnone)) ?_, rfl⟩
    exact fun id managed hmanaged => .inr ((hs.2 id managed hmanaged).resolve_left fun hmem => by cases hmem)

/-! ## Owned processes -/

/-- The pids that are reported ran at the start, and those that run now are reported. -/
def ReportsOwned (s₀ : ProcessHost) (entries : List (String × ManagedProcess)) (pids : List ℕ)
    (s : ProcessHost) : Prop :=
  (∀ pid ∈ pids, (∃ entry ∈ entries, entry.2.pid = pid) ∧ s₀.runs pid = true) ∧
    ∀ entry ∈ entries, s.runs entry.2.pid = true → entry.2.pid ∈ pids

/-- What runs later ran before. -/
theorem runs_before {t : ProcessHost} (hs : s.OsSound) (hlater : s.Later t) {pid : ℕ}
    (hchild : pid ∈ s.children) (hruns : t.runs pid = true) : s.runs pid = true := by
  by_contra hstopped
  rw [past_stopped pid s t hs hchild hlater ((Bool.not_eq_true _).mp hstopped)] at hruns
  cases hruns

/-- A leader that `poll` finds running runs. -/
theorem runs_of_waited (hs : s.OsSound) (hchild : pid ∈ s.children)
    (hnone : (s.waited pid).1 = none) : s.runs pid = true := by
  unfold ProcessHost.waited at hnone
  cases hreturn : s.returncode pid with
  | some code =>
    rw [hreturn] at hnone
    cases hnone
  | none =>
    obtain ⟨p, hp⟩ := Option.ne_none_iff_exists'.mp (hs.present pid hchild hreturn)
    cases hstatus : p.status with
    | none => exact runs_iff.mpr ⟨p, hp, hstatus⟩
    | some code =>
      rw [hreturn, hp, Option.bind_some, hstatus] at hnone
      cases hnone

/-- What was reported of the later entries and what `poll` says of the first one. -/
theorem ReportsOwned.cons {s₀ u t : ProcessHost} {entry : String × ManagedProcess}
    {entries : List (String × ManagedProcess)} {code : Option ℤ} {pids : List ℕ} (hs₀ : s₀.OsSound)
    (hchildren : ∀ other ∈ entry :: entries, other.2.pid ∈ s₀.children) (hbefore : s₀.Later u)
    (hafter : u.Later t) (hnone : code = none → s₀.runs entry.2.pid = true)
    (hsome : code ≠ none → u.runs entry.2.pid = false) (h : ReportsOwned u entries pids t) :
    ReportsOwned s₀ (entry :: entries) (if code.isNone = true then entry.2.pid :: pids else pids) t := by
  have hlater : ∀ pid ∈ pids, (∃ other ∈ entry :: entries, other.2.pid = pid) ∧ s₀.runs pid = true := by
    intro pid hpid
    obtain ⟨⟨other, hother, rfl⟩, hruns⟩ := h.1 pid hpid
    have hmem := mem_cons_of_mem entry hother
    exact ⟨⟨other, hmem, rfl⟩, runs_before hs₀ hbefore (hchildren other hmem) hruns⟩
  cases code with
  | some status =>
    refine ⟨hlater, fun other hother hruns => ?_⟩
    rcases mem_cons.mp hother with rfl | hmem
    · have hstopped := hsome nofun
      have hchild := hbefore.children _ (hchildren other hother)
      rw [past_stopped _ u t (hbefore.sound hs₀) hchild hafter hstopped] at hruns
      cases hruns
    · exact h.2 other hmem hruns
  | none =>
    refine ⟨fun pid hpid => ?_, fun other hother hruns => ?_⟩
    · rcases mem_cons.mp hpid with rfl | hmem
      · exact ⟨⟨entry, mem_cons_self, rfl⟩, hnone rfl⟩
      · exact hlater pid hmem
    · rcases mem_cons.mp hother with rfl | hmem
      · exact mem_cons_self
      · exact mem_cons_of_mem _ (h.2 other hmem hruns)

theorem lasting_later (s₀ : ProcessHost) (pid : ℕ) : Lasting strict loose pid s₀.Later :=
  fun _ _ _ hlater _ _ h => h.trans hlater

/-- The loop of `owned_pids`. The induction is on the entries; what is over at the first one
is over at the others. -/
theorem live_pids_meets (entries : List (String × ManagedProcess)) : ∀ s₀ : ProcessHost, s₀.OsSound →
    (∀ entry ∈ entries, entry.2.pid ∈ s₀.children) →
      Meets (sequential C) (fun s => Registered strict [] s ∧ s₀.Later s) (live_pids entries)
        (fun pids s => Registered strict [] s ∧ s₀.Later s ∧ ReportsOwned s₀ entries pids s)
        fun _ _ => False := by
  induction entries with
  | nil =>
    intro s₀ hs₀ _
    refine Meets.pure (quiet_stable (lasting_later s₀ 0).quiet) fun s hs => ⟨hs.1, hs.2, ?_, ?_⟩
    · exact fun pid hpid => by cases hpid
    · exact fun entry hentry => by cases hentry
  | cons entry entries ih =>
    intro s₀ hs₀ hchildren
    have hpid := hchildren entry mem_cons_self
    have hfalse : ∀ _ : ProcessRaised, (sequential C).Stable fun _ => False := fun _ _ _ h _ => h
    have hpoll : Meets (sequential C) (fun s => Registered strict [] s ∧ s₀.Later s)
        (ask_host (.poll entry.2.pid)) (fun code s => (Registered strict [] s ∧ s₀.Later s) ∧
          (code = none → s₀.runs entry.2.pid = true) ∧ (code ≠ none → s.runs entry.2.pid = false))
        fun _ _ => False := by
      refine (((lasting_kept (C := C) (lasting_later s₀ entry.2.pid)).ask (ordinary_sequential C)
        (o := .poll entry.2.pid) (decide_eq_true rfl) (past_true _) (G := fun code s =>
          (code = none → s₀.runs entry.2.pid = true) ∧ (code ≠ none → s.runs entry.2.pid = false))
        (fun code => ?_) ?_)).mono (fun s hs => ⟨⟨hs.1.sound, hs.2.children _ hpid, hs⟩, trivial⟩)
          (fun _ _ hs => ⟨hs.1.kept, hs.2⟩) fun _ _ => id
      · exact StaysOver.and (fun _ _ _ _ _ => id) (StaysOver.imp fun _ => past_stopped _)
      · intro s a hknown _ _
        refine ⟨fun hnone => ?_, fun hsome => ?_⟩
        · exact runs_before hs₀ hknown.kept.2 hpid (runs_of_waited hknown.sound hknown.child hnone)
        · obtain ⟨status, hstatus⟩ := Option.ne_none_iff_exists'.mp hsome
          exact waited_stopped hknown.sound hstatus
    refine Meets.bind hpoll (fun code => ?_) hfalse
    rintro u ⟨⟨hu, hbefore⟩, hnone, hsome⟩
    -- the rest is reported relative to the state after the poll
    have hrest := ih u hu.sound fun other hother =>
      hbefore.children _ (hchildren other (mem_cons_of_mem entry hother))
    refine (Meets.bind hrest (fun pids => ?_) hfalse) u ⟨hu, Later.refl u⟩
    have hstable : (sequential C).Stable fun s =>
        Registered strict [] s ∧ u.Later s ∧ ReportsOwned u entries pids s := by
      refine quiet_stable fun s t hs hlater _ _ h => ⟨h.1.trans hlater, h.2.1, fun other hother hruns => ?_⟩
      have hchild := h.1.children _ (hbefore.children _ (hchildren other (mem_cons_of_mem entry hother)))
      exact h.2.2 other hother (runs_before hs.sound hlater hchild hruns)
    exact Meets.pure hstable fun s hs =>
      ⟨hs.1, hbefore.trans hs.2.1, hs.2.2.cons hs₀ hchildren hbefore hs.2.1 hnone hsome⟩

/-- `owned_pids`. -/
theorem owned_pids_meets (hs₀ : Registered strict [] s₀) :
    Meets (sequential C) (fun s => Registered strict [] s ∧ s₀.Later s ∧ Same s₀ s) owned_pids
      (fun pids s => Registered strict [] s ∧ s₀.Later s ∧ ReportsOwned s₀ s₀.registry pids s)
      fun _ _ => False := by
  have hfalse : ∀ _ : ProcessRaised, (sequential C).Stable fun _ => False := fun _ _ _ h _ => h
  have hG : Lasting strict [] 0 fun s => s₀.Later s ∧ Same s₀ s :=
    fun s t _ hlater hsame _ h => ⟨h.1.trans hlater, h.2.trans hsame⟩
  have hchildren : ∀ entry ∈ s₀.registry, entry.2.pid ∈ s₀.children :=
    fun entry hentry => hs₀.named entry.1 entry.2 ((lookup_eq_some_iff hs₀.keys).mpr hentry)
  refine Meets.bind (entries_meets hG.quiet) (fun entries => ?_) hfalse
  refine Meets.mono (P := fun s => entries = s₀.registry ∧ Registered strict [] s ∧ s₀.Later s)
    (Meets.given ?_) (fun s hs => ⟨?_, hs.1, hs.2.1.1⟩) (fun _ _ => id) (fun _ _ => id)
  · rintro rfl
    refine Meets.bind (live_pids_meets s₀.registry s₀ hs₀.sound hchildren) (fun pids => ?_) hfalse
    have hstable : (sequential C).Stable fun s =>
        Registered strict [] s ∧ s₀.Later s ∧ ReportsOwned s₀ s₀.registry pids s := by
      refine quiet_stable fun s t hs hlater _ _ h => ⟨h.1.trans hlater, h.2.1, fun entry hentry hruns => ?_⟩
      exact h.2.2 entry hentry
        (runs_before hs.sound hlater (h.1.children _ (hchildren entry hentry)) hruns)
    refine Meets.pure hstable fun s hs =>
      ⟨hs.1, hs.2.1, fun pid hpid => ?_, fun entry hentry hruns => ?_⟩
    · exact hs.2.2.1 pid ((mem_insertionSort _).mp hpid)
    · exact (mem_insertionSort _).mpr (hs.2.2.2 entry hentry hruns)
  · rw [hs.2.2, hs.2.1.2.registry]

end Assertions

end MininetAi
