/-
The processes of the Mininet/OVS runtime on one host.

Each process makes one call at a time; between two steps of it the others may take any
number of theirs, and it may crash, which takes its memory and gives its lock back but
leaves on the host what it has built. A process that holds the lock is alone with the
record and with what is left of the runs. An assertion about a call says, therefore, what
holds while its process has the lock and what its memory holds when it does not, and the
rules here take a call apart into its steps.
-/
import MininetAi.Lib.Pool
import MininetAi.Substrates.Runtime

set_option autoImplicit false

namespace MininetAi

open Routine RunStateStore

/-! ## The threads -/

/-- The host and the memories of its processes. -/
structure Machine (κ : Type) where
  host : Host κ := {}
  memory : κ → Memory := fun _ => {}

/-- A call of the runtime. -/
inductive RuntimeCall where
  | deploy (plan : DeploymentPlan)
  | teardown (run_id : String)

/-- The call, whose result the caller gets. -/
def RuntimeCall.body : RuntimeCall → Program HostOp HostOp.Reply Unit
  | .deploy plan => Program.bind (MininetOVSRuntime.deploy plan) fun _ => Program.done ()
  | .teardown run_id => Program.bind (MininetOVSRuntime.teardown run_id) fun _ => Program.done ()

section Machine

variable {κ : Type} [DecidableEq κ]

/-- The host and the memory of process `i` change. -/
def Machine.moved (s : Machine κ) (i : κ) (h : Host κ) (m : Memory) : Machine κ where
  host := h
  memory := Function.update s.memory i m

/-- An operation of process `i` on its side of the machine. -/
def Machine.act (i : κ) (o : HostOp) (a : Answer) (s : Machine κ) : o.Reply × Machine κ :=
  ((o.act i a (s.host, s.memory i)).1,
    s.moved i (o.act i a (s.host, s.memory i)).2.1 (o.act i a (s.host, s.memory i)).2.2)

def Machine.crash (i : κ) (s : Machine κ) : Machine κ :=
  s.moved i (if s.host.lock = some i then s.host.set_lock none else s.host) {}

theorem Machine.moved_memory (s : Machine κ) (i : κ) (h : Host κ) (m : Memory) : (s.moved i h m).memory i = m :=
  Function.update_self _ _ _

variable {j : κ} {h : Host κ} {run : String} {α : Type} {Q : α → Machine κ → Prop} {m : Memory}
  {text : String} {e : RaisedError} {w : Writing} {content : StoredRecord}

theorem Machine.moved_others (s : Machine κ) {i : κ} (hj : j ≠ i) (h : Host κ) (m : Memory) :
    (s.moved i h m).memory j = s.memory j :=
  Function.update_of_ne hj _ _

theorem Machine.moved_same (s : Machine κ) (i : κ) : s.moved i s.host (s.memory i) = s := by
  rw [Machine.moved, Function.update_eq_self]

/-- The processes of one host. To begin with nothing is left of any run. -/
def runtime_processes : Threads HostOp HostOp.Reply (Machine κ) κ RuntimeCall Answer where
  init s := s.host.lock = none ∧ (∀ run, s.host.left run = []) ∧ ∀ i, s.memory i = {}
  body _ c := c.body
  act := Machine.act
  die := Machine.crash

/-! ## The record and what is left -/

/-- What is left of a run is named by the record. -/
def Host.Named (h : Host κ) : Prop := ∀ run, h.left run ≠ [] → ∃ r, h.record = some r ∧ r.run.id = run

/-- A lock stream is there exactly when the kernel's lock is its process's, and what is left of a
run is named by the record. -/
structure Machine.Sound (s : Machine κ) : Prop where
  agrees : ∀ i, (s.memory i).acquired = true ↔ s.host.lock = some i
  named : s.host.Named

/-- The record stays the record of its run, and is cleared only when nothing is left of it. -/
structure RunRecordKept (h h' : Host κ) : Prop where
  cleared : ∀ r, h.record = some r → h'.record = none → h.left r.run.id = []
  same : ∀ r r', h.record = some r → h'.record = some r' → r'.run.id = r.run.id

omit [DecidableEq κ] in
theorem RunRecordKept.refl {h' : Host κ} (heq : h'.record = h.record) : RunRecordKept h h' where
  cleared r hr hnone := by
    rw [heq, hr] at hnone
    cases hnone
  same r r' hr hr' := by
    rw [heq, hr] at hr'
    rw [Option.some.inj hr']

omit [DecidableEq κ] in
/-- Nothing is left of anything but the run of the record. -/
theorem Host.Named.nothing (hnamed : h.Named) (hrecord : ∀ r, h.record = some r → r.run.id ≠ run) :
    h.left run = [] := by
  by_contra hleft
  obtain ⟨r, hr, hid⟩ := hnamed run hleft
  exact hrecord r hr hid

/-- The system calls and attributes that answer for the record and the network: a record that is
there is found, and a network that has left anything is true. -/
def faithful (i : κ) (o : HostOp) (a : Answer) (s : Machine κ) : Bool :=
  match o with
  | .host .state_exists _ => a.yes || a.raised.isSome || s.host.record.isNone
  | .host (.asks .network_truth) _ =>
    a.yes || a.raised.isSome || (s.host.left (s.memory i).deploying.info.id).isEmpty
  | _ => true

/-! ## Terms -/

/-- What an operation of process `i` does. -/
structure ProcessGuarantee (i : κ) (s t : Machine κ) : Prop where
  sound : s.Sound → t.Sound
  kept : RunRecordKept s.host t.host
  memory : ∀ j, j ≠ i → t.memory j = s.memory j
  lock : ∀ j, j ≠ i → (t.host.lock = some j ↔ s.host.lock = some j)
  free : s.host.lock ≠ some i → t.host.record = s.host.record ∧ t.host.left = s.host.left

/-- What the others do between two operations of process `i`. -/
structure ProcessRely (i : κ) (s t : Machine κ) : Prop where
  sound : s.Sound → t.Sound
  memory : t.memory i = s.memory i
  lock : t.host.lock = some i ↔ s.host.lock = some i
  held : s.host.lock = some i → t.host.record = s.host.record ∧ t.host.left = s.host.left

/-- The terms of process `i`. -/
def process_terms (i : κ) : Terms HostOp HostOp.Reply (Machine κ) where
  act o s r t := ∃ a, faithful i o a s = true ∧ Machine.act i o a s = (r, t)
  rely := ProcessRely i
  guar := ProcessGuarantee i
  rely_refl _ := ⟨id, rfl, Iff.rfl, fun _ => ⟨rfl, rfl⟩⟩
  rely_trans _ _ _ hst htu :=
    ⟨fun h => htu.sound (hst.sound h), htu.memory.trans hst.memory, htu.lock.trans hst.lock, fun h =>
      ⟨(htu.held (hst.lock.mpr h)).1.trans (hst.held h).1, (htu.held (hst.lock.mpr h)).2.trans (hst.held h).2⟩⟩

/-- What a call of process `i` does beside the calls of others. -/
abbrev Among (i : κ) {α : Type} (P : Machine κ → Prop) (x : HostRoutine α) (Q : α → Machine κ → Prop)
    (R : RaisedError → Machine κ → Prop) : Prop := Meets (process_terms i) P x Q R

omit [DecidableEq κ] in
/-- What one process guarantees another one can rely on. -/
theorem ProcessGuarantee.relied {i : κ} {s t : Machine κ} (h : ProcessGuarantee i s t)
    (hj : j ≠ i) : ProcessRely j s t where
  sound := h.sound
  memory := h.memory j hj
  lock := h.lock j hj
  held hlock := h.free fun hother => hj (Option.some.inj (hlock.symm.trans hother))

/-! ## Assertions -/

/-- What a process sees: the record, what is left of the runs, and its memory. -/
structure Side where
  record : Option PersistedRun
  left : String → List Residue
  memory : Memory

def Machine.side (s : Machine κ) (i : κ) : Side := ⟨s.host.record, s.host.left, s.memory i⟩

/-- `Φ` holds of the side of a process that has the lock, and `Ψ` of the memory of one that has
not. -/
structure Within (i : κ) (Φ : Side → Prop) (Ψ : Memory → Prop) (s : Machine κ) : Prop where
  sound : s.Sound
  held : s.host.lock = some i → Φ (s.side i)
  free : s.host.lock ≠ some i → Ψ (s.memory i)

/-- The process has the lock. -/
def Held (i : κ) (Φ : Side → Prop) : Machine κ → Prop := Within i Φ fun _ => False

/-- The process does not have the lock. -/
def Free (i : κ) (Ψ : Memory → Prop) : Machine κ → Prop := Within i (fun _ => False) Ψ

variable {i : κ} {Φ Φ' : Side → Prop} {Ψ Ψ' : Memory → Prop} {s : Machine κ}

section

omit [DecidableEq κ]

theorem Within.mono (h : Within i Φ Ψ s) (hΦ : ∀ x, Φ x → Φ' x) (hΨ : ∀ m, Ψ m → Ψ' m) :
    Within i Φ' Ψ' s :=
  ⟨h.sound, fun hlock => hΦ _ (h.held hlock), fun hlock => hΨ _ (h.free hlock)⟩

theorem Held.lock (h : Held i Φ s) : s.host.lock = some i := by
  by_contra hlock
  exact h.free hlock

theorem Held.side (h : Held i Φ s) : Φ (s.side i) := Within.held h h.lock

theorem Held.within (h : Held i Φ s) : Within i Φ Ψ s := h.mono (fun _ hx => hx) fun _ hm => hm.elim

theorem Held.mono (h : Held i Φ s) (hΦ : ∀ x, Φ x → Φ' x) : Held i Φ' s :=
  Within.mono h hΦ fun _ hm => hm

end

theorem within_stable : (process_terms i).Stable (Within i Φ Ψ) := by
  intro s t hs hst
  refine ⟨hst.sound hs.sound, fun hlock => ?_, fun hlock => ?_⟩
  · have hbefore := hst.lock.mp hlock
    have hside : t.side i = s.side i := by
      rw [Machine.side, hst.memory, (hst.held hbefore).1, (hst.held hbefore).2]
      rfl
    rw [hside]
    exact hs.held hbefore
  · rw [hst.memory]
    exact hs.free fun hbefore => hlock (hst.lock.mpr hbefore)

theorem held_stable : (process_terms i).Stable (Held i Φ) := within_stable

theorem free_stable : (process_terms i).Stable (Free i Ψ) := within_stable

/-! ## Operations -/

/-- One operation. -/
theorem operation_meets {o : HostOp} {k : o.Reply → Except RaisedError α} {P : Machine κ → Prop}
    {R : RaisedError → Machine κ → Prop} (hP : (process_terms i).Stable P)
    (hQ : ∀ v, (process_terms i).Stable (Q v)) (hR : ∀ e, (process_terms i).Stable (R e))
    (h : ∀ s a, P s → faithful i o a s = true → ProcessGuarantee i s (Machine.act i o a s).2 ∧
      ends Q R (k (Machine.act i o a s).1) (Machine.act i o a s).2) :
    Among i P (Program.perform o fun r => Program.done (k r)) Q R := by
  intro s hs t hst r u hact
  obtain ⟨a, ha, hact⟩ := hact
  obtain ⟨hguar, hends⟩ := h t a (hP s t hs hst) ha
  rw [hact] at hguar hends
  refine ⟨hguar, fun v hv => ?_⟩
  have hresult : k r = k (Machine.act i o a t).1 := by rw [hact]
  cases hr : k r with
  | ok x =>
    rw [hr] at hends
    exact hQ x u v hends hv
  | error e =>
    rw [hr] at hends
    exact hR e u v hends hv

/-- A step that leaves the locks alone. -/
theorem ProcessGuarantee.of (hlock : h.lock = s.host.lock)
    (hacquired : m.acquired = (s.memory i).acquired) (hkept : RunRecordKept s.host h)
    (hnamed : s.Sound → h.Named)
    (hfree : s.host.lock ≠ some i → h.record = s.host.record ∧ h.left = s.host.left) :
    ProcessGuarantee i s (s.moved i h m) where
  sound hs := by
    refine ⟨fun j => ?_, hnamed hs⟩
    have hsame : (s.moved i h m).host.lock = s.host.lock := hlock
    rw [hsame, ← hs.agrees]
    by_cases hj : j = i
    · subst hj
      rw [s.moved_memory, hacquired]
    · rw [s.moved_others hj]
  kept := hkept
  memory j hj := s.moved_others hj h m
  lock j _ := by
    have hsame : (s.moved i h m).host.lock = s.host.lock := hlock
    rw [hsame]
  free := hfree

/-- The steps that change neither the record nor what is left nor the lock. -/
def HostStep.still : HostStep → Bool
  | flock | unlock | write _ .replace | unlink_state | build_network | close_actions | stop_network
  | remove_owned_artifacts | recovery => false
  | _ => true

theorem HostStep.effect_still {s : HostStep} (hs : s.still = true) (run : String) (h : Host κ) (m : Memory)
    (a : Answer) : (s.effect i run h m a).2 = m ∧ (s.effect i run h m a).1.record = h.record ∧
      (s.effect i run h m a).1.left = h.left ∧ (s.effect i run h m a).1.lock = h.lock := by
  cases s with
  | unlink_stopped =>
    have heffect : HostStep.unlink_stopped.effect i run h m a =
        (if a.effective = true then { h with stopped := none } else h, m) := rfl
    rw [heffect]
    by_cases heffective : a.effective = true
    · rw [if_pos heffective]
      exact ⟨rfl, rfl, rfl, rfl⟩
    · rw [if_neg heffective]
      exact ⟨rfl, rfl, rfl, rfl⟩
  | write w s =>
    cases s with
    | replace => cases hs
    | _ => exact ⟨rfl, rfl, rfl, rfl⟩
  | flock => cases hs
  | unlock => cases hs
  | unlink_state => cases hs
  | build_network => cases hs
  | close_actions => cases hs
  | stop_network => cases hs
  | remove_owned_artifacts => cases hs
  | recovery => cases hs
  | _ => exact ⟨rfl, rfl, rfl, rfl⟩

/-- A step that changes nothing the assertions speak about; `F` is what its value says. -/
theorem still_tells {s : HostStep} {run : String} (hs : s.still = true) {F : s.Value → Side → Prop}
    (hF : ∀ m a v, faithful i (.host s run) a m = true → s.outcome i m.host (m.memory i) a = .ok v →
      F v (m.side i)) : Among i (Within i Φ Ψ) (host s run)
      (fun v => Within i (fun x => Φ x ∧ F v x) Ψ) fun _ => Within i Φ Ψ := by
  refine operation_meets (o := .host s run) (k := id) within_stable (fun _ => within_stable)
    (fun _ => within_stable) fun t a ht ha => ?_
  obtain ⟨hmemory, hrecord, hleft, hlock⟩ := HostStep.effect_still (i := i) hs run t.host (t.memory i) a
  have hnamed : (s.effect i run t.host (t.memory i) a).1.Named := by
    intro q hq
    rw [hleft] at hq
    rw [hrecord]
    exact ht.sound.named q hq
  have hguar : ProcessGuarantee i t (Machine.act i (.host s run) a t).2 :=
    .of hlock (congrArg Memory.acquired hmemory) (.refl hrecord) (fun _ => hnamed) fun _ => ⟨hrecord, hleft⟩
  have hside : (Machine.act i (.host s run) a t).2.side i = t.side i := by
    show (⟨(s.effect i run t.host (t.memory i) a).1.record, (s.effect i run t.host (t.memory i) a).1.left,
      (t.moved i _ (s.effect i run t.host (t.memory i) a).2).memory i⟩ : Side) = t.side i
    rw [hrecord, hleft, t.moved_memory, hmemory]
    rfl
  have hheld : (Machine.act i (.host s run) a t).2.host.lock = t.host.lock := hlock
  refine ⟨hguar, ?_⟩
  show ends _ _ (s.outcome i t.host (t.memory i) a) _
  cases houtcome : s.outcome i t.host (t.memory i) a with
  | ok v =>
    refine ⟨hguar.sound ht.sound, fun hlocked => ?_, fun hlocked => ?_⟩
    · rw [hside]
      exact ⟨ht.held (hheld.symm.trans hlocked), hF t a v ha houtcome⟩
    · have hfree := ht.free fun h => hlocked (hheld.trans h)
      rw [show (Machine.act i (.host s run) a t).2.memory i = t.memory i from congrArg Side.memory hside]
      exact hfree
  | error e =>
    refine ⟨hguar.sound ht.sound, fun hlocked => ?_, fun hlocked => ?_⟩
    · rw [hside]
      exact ht.held (hheld.symm.trans hlocked)
    · have hfree := ht.free fun h => hlocked (hheld.trans h)
      rw [show (Machine.act i (.host s run) a t).2.memory i = t.memory i from congrArg Side.memory hside]
      exact hfree

theorem still_meets {s : HostStep} (hs : s.still = true) :
    Among i (Within i Φ Ψ) (host s run) (fun _ => Within i Φ Ψ) fun _ => Within i Φ Ψ :=
  (still_tells (F := fun _ _ => True) hs fun _ _ _ _ _ => trivial).post
    (fun _ _ h => h.mono (fun _ hx => hx.1) fun _ hm => hm) fun _ _ h => h

/-- A step of a process that has the lock. -/
theorem held_meets {s : HostStep} {F : s.Value → Side → Prop} {G : Side → Prop}
    (hquiet : s ≠ .flock ∧ s ≠ .unlock)
    (h : ∀ (g : Host κ) (m : Memory) (a : Answer), g.Named → Φ ⟨g.record, g.left, m⟩ →
      RunRecordKept g (s.effect i run g m a).1 ∧ (s.effect i run g m a).1.Named ∧
        ends F (fun _ => G) (s.outcome i g m a)
          ⟨(s.effect i run g m a).1.record, (s.effect i run g m a).1.left, m⟩) :
    Among i (Held i Φ) (host s run) (fun v => Held i (F v)) fun _ => Held i G := by
  refine operation_meets (o := .host s run) (k := id) held_stable (fun _ => held_stable)
    (fun _ => held_stable) fun t a ht ha => ?_
  obtain ⟨hmemory, hlock⟩ := HostStep.effect_quiet i hquiet.1 hquiet.2 run t.host (t.memory i) a
  obtain ⟨hkept, hnamed, hends⟩ := h t.host (t.memory i) a ht.sound.named ht.side
  have hguar : ProcessGuarantee i t (Machine.act i (.host s run) a t).2 :=
    .of hlock (congrArg Memory.acquired hmemory) hkept (fun _ => hnamed) fun hother => absurd ht.lock hother
  have hside : (Machine.act i (.host s run) a t).2.side i =
      ⟨(s.effect i run t.host (t.memory i) a).1.record, (s.effect i run t.host (t.memory i) a).1.left,
        t.memory i⟩ := by
    show (⟨_, _, (t.moved i _ (s.effect i run t.host (t.memory i) a).2).memory i⟩ : Side) = _
    rw [t.moved_memory, hmemory]
    rfl
  have hlocked : (Machine.act i (.host s run) a t).2.host.lock = some i := hlock.trans ht.lock
  have hwithin : ∀ {P : Side → Prop}, P ((Machine.act i (.host s run) a t).2.side i) →
      Held i P (Machine.act i (.host s run) a t).2 := fun hP =>
    ⟨hguar.sound ht.sound, fun _ => hP, fun hfree => hfree hlocked⟩
  refine ⟨hguar, ?_⟩
  show ends _ _ (s.outcome i t.host (t.memory i) a) _
  cases houtcome : s.outcome i t.host (t.memory i) a with
  | ok v =>
    rw [houtcome] at hends
    exact hwithin (hside ▸ hends)
  | error e =>
    rw [houtcome] at hends
    exact hwithin (hside ▸ hends)

section Rules

variable {α β : Type} {x : HostRoutine α} {P : Machine κ → Prop} {Q : α → Machine κ → Prop}
  {R : RaisedError → Machine κ → Prop}

/-- A routine that does not raise. -/
theorem process_returns (h : Among i P x Q fun _ _ => False) : Among i P x Q R :=
  h.on_raise fun _ _ hs => hs.elim

/-- A sequence whose parts raise with the same assertion. -/
theorem within_bind {f : α → HostRoutine β} {Q' : β → Machine κ → Prop}
    (hx : Among i P x Q fun _ => Within i Φ Ψ)
    (hf : ∀ a, Among i (Q a) (f a) Q' fun _ => Within i Φ Ψ) :
    Among i P (x >>= f) Q' fun _ => Within i Φ Ψ :=
  hx.bind hf fun _ => within_stable

theorem within_pure {a : α} (h : ∀ s, Within i Φ Ψ s → Within i Φ' Ψ' s) :
    Among i (Within i Φ Ψ) (pure a : HostRoutine α) (fun _ => Within i Φ' Ψ') R :=
  Meets.pure within_stable h

theorem within_raise {e : RaisedError} (h : ∀ s, Within i Φ Ψ s → Within i Φ' Ψ' s) :
    Among i (Within i Φ Ψ) (raise e : HostRoutine α) Q fun _ => Within i Φ' Ψ' :=
  Meets.raise within_stable h

end Rules

/-! ## The memory -/

theorem memory_tells : Among i (Within i Φ Ψ) memory
    (fun m => Within i (fun x => Φ x ∧ x.memory = m) fun n => Ψ n ∧ n = m) fun _ _ => False := by
  refine operation_meets (o := .get) (k := .ok) within_stable (fun _ => within_stable)
    (fun _ _ _ h _ => h) fun t a ht _ => ?_
  have hsame : (Machine.act i .get a t).2 = t := t.moved_same i
  rw [hsame]
  exact ⟨⟨id, .refl rfl, fun _ _ => rfl, fun _ _ => Iff.rfl, fun _ => ⟨rfl, rfl⟩⟩, ht.sound,
    fun hlock => ⟨ht.held hlock, rfl⟩, fun hlock => ⟨ht.free hlock, rfl⟩⟩

theorem remember_tells (hΦ : ∀ x, Φ x → Φ' { x with memory := m.set_acquired x.memory.acquired })
    (hΨ : ∀ n, Ψ n → Ψ' (m.set_acquired n.acquired)) :
    Among i (Within i Φ Ψ) (remember m) (fun _ => Within i Φ' Ψ') fun _ _ => False := by
  refine operation_meets (o := .put m) (k := .ok) within_stable (fun _ => within_stable)
    (fun _ _ _ h _ => h) fun t a ht _ => ?_
  have hguar : ProcessGuarantee i t (Machine.act i (.put m) a t).2 :=
    .of rfl rfl (.refl rfl) (fun hs => hs.named) fun _ => ⟨rfl, rfl⟩
  have hmemory : (Machine.act i (.put m) a t).2.memory i = m.set_acquired (t.memory i).acquired :=
    t.moved_memory i _ _
  refine ⟨hguar, hguar.sound ht.sound, fun hlock => ?_, fun hlock => ?_⟩
  · have hside : (Machine.act i (.put m) a t).2.side i =
        { t.side i with memory := m.set_acquired (t.memory i).acquired } := by
      rw [Machine.side, hmemory]
      rfl
    rw [hside]
    exact hΦ _ (ht.held hlock)
  · rw [hmemory]
    exact hΨ _ (ht.free hlock)

/-- The memory changes as a function of itself. -/
theorem modify_tells {f : Memory → Memory}
    (hΦ : ∀ x, Φ x → Φ' { x with memory := (f x.memory).set_acquired x.memory.acquired })
    (hΨ : ∀ n, Ψ n → Ψ' ((f n).set_acquired n.acquired)) :
    Among i (Within i Φ Ψ) (memory >>= fun m => remember (f m)) (fun _ => Within i Φ' Ψ')
      fun _ _ => False := by
  refine memory_tells.bind (fun m => remember_tells ?_ ?_) fun _ _ _ h _ => h
  · rintro x ⟨hx, rfl⟩
    exact hΦ x hx
  · rintro n ⟨hn, rfl⟩
    exact hΨ n hn

/-! ## The lock -/

theorem acquired_tells : Among i (Within i Φ Ψ) acquired
    (fun b => Within i (fun x => b = true ∧ Φ x) fun m => b = false ∧ Ψ m) fun _ _ => False := by
  refine memory_tells.bind (fun m => Meets.pure within_stable fun s hs => ⟨hs.sound, fun hlock => ?_,
    fun hlock => ?_⟩) fun _ _ _ h _ => h
  · obtain ⟨hΦ, hm⟩ := hs.held hlock
    exact ⟨hm ▸ (hs.sound.agrees i).mpr hlock, hΦ⟩
  · obtain ⟨hΨ, hm⟩ := hs.free hlock
    refine ⟨?_, hΨ⟩
    rw [← hm, ← Bool.not_eq_true, hs.sound.agrees i]
    exact hlock

theorem require_lock_tells : Among i (Within i Φ Ψ) require_lock
    (fun _ => Held i Φ) fun _ => Within i Φ Ψ := by
  refine within_bind (process_returns acquired_tells) fun b => ?_
  cases b with
  | true => exact Meets.pure within_stable fun s hs => hs.mono (fun _ hx => hx.2) fun _ hm => by cases hm.1
  | false => exact within_raise fun s hs => hs.mono (fun _ hx => hx.2) fun _ hm => hm.2

theorem perform_all_still {steps : List HostStep} (hsteps : ∀ s ∈ steps, s.still = true) :
    Among i (Within i Φ Ψ) (perform_all run steps) (fun _ => Within i Φ Ψ)
      fun _ => Within i Φ Ψ := by
  induction steps with
  | nil => exact within_pure fun _ h => h
  | cons s rest ih =>
    exact within_bind (still_meets (hsteps s List.mem_cons_self)) fun _ =>
      ih fun t ht => hsteps t (List.mem_cons_of_mem s ht)

/-- `flock` takes the lock when it is nobody else's. -/
theorem process_flock_meets (hΨ : ∀ r l m, Ψ m → Φ ⟨r, l, m.set_acquired true⟩) :
    Among i (Free i Ψ) (host .flock) (fun _ => Held i Φ) fun _ => Free i Ψ := by
  refine operation_meets (o := .host .flock "") (k := id) free_stable (fun _ => held_stable)
    (fun _ => free_stable) fun t a ht _ => ?_
  have hother : t.host.lock ≠ some i := fun hlock => Within.held ht hlock
  by_cases hout : (a.raised.isSome || t.host.locked_out i) = true
  · have heffect : HostStep.flock.effect i "" t.host (t.memory i) a = (t.host, t.memory i) := by
      unfold HostStep.effect
      exact if_pos hout
    have hsame : (Machine.act i (.host .flock "") a t).2 = t := by
      show t.moved i (HostStep.flock.effect i "" t.host (t.memory i) a).1
        (HostStep.flock.effect i "" t.host (t.memory i) a).2 = t
      rw [heffect, t.moved_same]
    have hraises : ∃ e, HostStep.flock.outcome i t.host (t.memory i) a = .error e := by
      unfold HostStep.outcome Answer.reply
      cases hraised : a.raised with
      | some e => exact ⟨_, rfl⟩
      | none =>
        rw [hraised] at hout
        exact ⟨_, if_pos hout⟩
    obtain ⟨e, he⟩ := hraises
    rw [hsame]
    refine ⟨⟨id, .refl rfl, fun _ _ => rfl, fun _ _ => Iff.rfl, fun _ => ⟨rfl, rfl⟩⟩, ?_⟩
    show ends _ _ (HostStep.flock.outcome i t.host (t.memory i) a) t
    rw [he]
    exact ht
  · have heffect : HostStep.flock.effect i "" t.host (t.memory i) a =
        (t.host.set_lock (some i), (t.memory i).set_acquired true) := by
      unfold HostStep.effect
      exact if_neg hout
    obtain ⟨hraised, hlocked⟩ := Bool.or_eq_false_iff.mp ((Bool.not_eq_true _).mp hout)
    have hfree : ∀ j, j ≠ i → t.host.lock ≠ some j := by
      intro j hj hlock
      unfold Host.locked_out at hlocked
      rw [hlock] at hlocked
      exact absurd hlocked (by simpa using hj)
    have hstate : (Machine.act i (.host .flock "") a t).2 =
        t.moved i (t.host.set_lock (some i)) ((t.memory i).set_acquired true) := by
      show t.moved i (HostStep.flock.effect i "" t.host (t.memory i) a).1
        (HostStep.flock.effect i "" t.host (t.memory i) a).2 = _
      rw [heffect]
    have hguar : ProcessGuarantee i t (Machine.act i (.host .flock "") a t).2 := by
      rw [hstate]
      refine ⟨fun hs => ⟨fun j => ?_, hs.named⟩, .refl rfl, fun j hj => t.moved_others hj _ _, fun j hj => ?_,
        fun _ => ⟨rfl, rfl⟩⟩
      · by_cases hj : j = i
        · subst hj
          rw [t.moved_memory]
          exact iff_of_true rfl rfl
        · rw [t.moved_others hj, hs.agrees]
          exact iff_of_false (hfree j hj) fun h => hj (Option.some.inj h).symm
      · exact iff_of_false (fun h => hj (Option.some.inj h).symm) (hfree j hj)
    have hok : HostStep.flock.outcome i t.host (t.memory i) a = .ok () := by
      unfold HostStep.outcome Answer.reply
      rw [Option.isSome_eq_false_iff, Option.isNone_iff_eq_none] at hraised
      rw [hraised, hlocked]
      rfl
    refine ⟨hguar, ?_⟩
    show ends _ _ (HostStep.flock.outcome i t.host (t.memory i) a) _
    rw [hok]
    refine ⟨hguar.sound ht.sound, fun _ => ?_, fun hlock => hlock (by rw [hstate]; rfl)⟩
    rw [hstate, Machine.side, t.moved_memory]
    exact hΨ _ _ _ (Within.free ht hother)

/-- `unlock` gives the lock back, whether or not it raises. -/
theorem unlock_meets (hΦ : ∀ x, Φ x → Ψ' (x.memory.set_acquired false)) (hΨ : ∀ m, Ψ m → Ψ' m) :
    Among i (Within i Φ Ψ) release (fun _ => Free i Ψ') fun _ => Free i Ψ' := by
  refine operation_meets (o := .host .unlock "") (k := id) within_stable (fun _ => free_stable)
    (fun _ => free_stable) fun t a ht _ => ?_
  have hends : ∀ {s : Machine κ}, Free i Ψ' s → ends (fun _ => Free i Ψ') (fun _ => Free i Ψ')
      (HostStep.unlock.outcome i t.host (t.memory i) a) s := by
    intro s hs
    cases HostStep.unlock.outcome i t.host (t.memory i) a with
    | ok _ => exact hs
    | error _ => exact hs
  by_cases hacquired : (t.memory i).acquired = true
  · have hlock := (ht.sound.agrees i).mp hacquired
    have hstate : (Machine.act i (.host .unlock "") a t).2 =
        t.moved i (t.host.set_lock none) ((t.memory i).set_acquired false) := by
      show t.moved i (HostStep.unlock.effect i "" t.host (t.memory i) a).1
        (HostStep.unlock.effect i "" t.host (t.memory i) a).2 = _
      unfold HostStep.effect
      rw [if_pos hacquired]
    have hguar : ProcessGuarantee i t (Machine.act i (.host .unlock "") a t).2 := by
      rw [hstate]
      refine ⟨fun hs => ⟨fun j => ?_, hs.named⟩, .refl rfl, fun j hj => t.moved_others hj _ _, fun j hj => ?_,
        fun hother => absurd hlock hother⟩
      · by_cases hj : j = i
        · subst hj
          rw [t.moved_memory]
          exact iff_of_false Bool.false_ne_true nofun
        · rw [t.moved_others hj, hs.agrees, hlock]
          exact iff_of_false (fun h => hj (Option.some.inj h).symm) nofun
      · rw [hlock]
        exact iff_of_false nofun fun h => hj (Option.some.inj h).symm
    refine ⟨hguar, hends ⟨hguar.sound ht.sound, fun h => ?_, fun _ => ?_⟩⟩
    · rw [hstate] at h
      cases h
    · rw [hstate]
      rw [t.moved_memory]
      exact hΦ _ (ht.held hlock)
  · have hlock : t.host.lock ≠ some i := fun h => hacquired ((ht.sound.agrees i).mpr h)
    have hsame : (Machine.act i (.host .unlock "") a t).2 = t := by
      show t.moved i (HostStep.unlock.effect i "" t.host (t.memory i) a).1
        (HostStep.unlock.effect i "" t.host (t.memory i) a).2 = t
      unfold HostStep.effect
      rw [if_neg hacquired, t.moved_same]
    rw [hsame]
    exact ⟨⟨id, .refl rfl, fun _ _ => rfl, fun _ _ => Iff.rfl, fun _ => ⟨rfl, rfl⟩⟩,
      hends ⟨ht.sound, fun h => hlock h, fun h => hΨ _ (ht.free h)⟩⟩

theorem lock_acquired_meets (hΦ : ∀ x, Φ x → Φ' x) (hΨ : ∀ r l m, Ψ m → Φ' ⟨r, l, m.set_acquired true⟩) :
    Among i (Within i Φ Ψ) acquire (fun _ => Held i Φ') fun _ => Within i Φ Ψ := by
  refine within_bind (process_returns acquired_tells) fun b => ?_
  cases b with
  | true =>
    exact Meets.pure within_stable fun s hs => hs.mono (fun x hx => hΦ x hx.2) fun _ hm => by cases hm.1
  | false =>
    have hfree : ∀ s, Within i (fun x => false = true ∧ Φ x) (fun m => false = false ∧ Ψ m) s → Free i Ψ s :=
      fun s hs => hs.mono (fun _ hx => by cases hx.1) fun _ hm => hm.2
    have hback : ∀ s, Free i Ψ s → Within i Φ Ψ s := fun s hs => hs.mono (fun _ hx => hx.elim) fun _ hm => hm
    refine Meets.pre (P := Free i Ψ) ?_ hfree
    refine within_bind ((perform_all_still (by decide)).on_raise fun _ s h => hback s h)
      fun _ => ?_
    refine Meets.handle (process_flock_meets hΨ) (fun e => ?_) fun _ => held_stable
    unfold flock_failed
    exact Meets.ite (fun _ => within_raise hback) fun _ => within_raise hback

/-! ## Reading and clearing -/

theorem unreadable_meets : Among i (Within i Φ Ψ) (unreadable text e) Q fun _ => Within i Φ Ψ :=
  Meets.ite (fun _ => within_raise fun _ h => h) fun _ => within_raise fun _ h => h

/-- A record that is there is found. -/
theorem read_tells : Among i (Within i Φ Ψ) read
    (fun record => Within i (fun x => Φ x ∧ x.record = record) Ψ) fun _ => Within i Φ Ψ := by
  have hexists : Among i (Within i Φ Ψ) (host .state_exists)
      (fun found : Bool => Within i (fun x => Φ x ∧ found = x.record.isSome) Ψ) fun _ => Within i Φ Ψ := by
    refine @still_tells _ _ i Φ Ψ .state_exists "" rfl (fun found x => found = x.record.isSome) ?_
    intro m a v hfaithful houtcome
    have hreply : a.reply (.ok (m.host.record.isSome && a.yes)) = .ok v := houtcome
    unfold Answer.reply at hreply
    cases hraised : a.raised with
    | some e =>
      rw [hraised] at hreply
      cases hreply
    | none =>
      rw [hraised] at hreply
      have hv := Except.ok.inj hreply
      have hyes : (a.yes || a.raised.isSome || m.host.record.isNone) = true := hfaithful
      rw [← hv]
      show (m.host.record.isSome && a.yes) = m.host.record.isSome
      rw [hraised] at hyes
      cases hrecord : m.host.record with
      | none => rfl
      | some r =>
        rw [hrecord] at hyes
        simpa using hyes
  have hread : Among i (Within i Φ Ψ) (host .read_state)
      (fun r : PersistedRun => Within i (fun x => Φ x ∧ x.record = some r) Ψ) fun _ => Within i Φ Ψ := by
    refine @still_tells _ _ i Φ Ψ .read_state "" rfl (fun r x => x.record = some r) ?_
    intro m a v _ houtcome
    have hreply : a.reply (m.host.record.elim (.error no_such_file) .ok) = .ok v := houtcome
    unfold Answer.reply at hreply
    cases hraised : a.raised with
    | some e =>
      rw [hraised] at hreply
      cases hreply
    | none =>
      rw [hraised] at hreply
      show m.host.record = some v
      cases hrecord : m.host.record with
      | none =>
        rw [hrecord] at hreply
        cases hreply
      | some r =>
        rw [hrecord] at hreply
        exact congrArg some (Except.ok.inj hreply)
  have hfound : Among i (Within i Φ Ψ) (some <$> host .read_state)
      (fun record : Option PersistedRun => Within i (fun x => Φ x ∧ x.record = record) Ψ) fun _ => Within i Φ Ψ :=
    within_bind hread fun r => Meets.pure within_stable fun s hs => hs
  refine within_bind hexists fun found => ?_
  cases found with
  | true =>
    refine Meets.pre (P := Within i Φ Ψ) ?_ fun s hs => hs.mono (fun _ hx => hx.1) fun _ hm => hm
    exact hfound.handle (fun e => unreadable_meets) fun _ => within_stable
  | false =>
    refine Meets.pure within_stable fun s hs => hs.mono (fun x hx => ⟨hx.1, ?_⟩) fun _ hm => hm
    exact Option.isNone_iff_eq_none.mp (Option.isSome_eq_false_iff.mp hx.2.symm)

theorem read_stopped_meets : Among i (Within i Φ Ψ) read_stopped
    (fun _ => Within i Φ Ψ) fun _ => Within i Φ Ψ := by
  refine within_bind (still_meets rfl) fun found => ?_
  cases found with
  | true =>
    exact (within_bind (still_meets rfl) fun r => within_pure fun s hs => hs).handle (fun e => unreadable_meets)
      fun _ => within_stable
  | false => exact within_pure fun _ h => h

theorem unlink_still {s : HostStep} (hs : s.still = true) : Among i (Within i Φ Ψ)
    (unlink s) (fun _ => Within i Φ Ψ) fun _ => Within i Φ Ψ := by
  refine (perform_all_still fun t ht => ?_).handle (fun e => ?_) fun _ => within_stable
  · rw [List.mem_singleton.mp ht]
    exact hs
  · unfold missing_ok
    exact Meets.ite (fun _ => within_pure fun _ h => h) fun _ => within_raise fun _ h => h

theorem unremovable_meets : Among i (Within i Φ Ψ)
    (unremovable text e) (fun _ => Within i Φ Ψ) fun _ => Within i Φ Ψ := by
  refine Meets.ite (fun _ => within_pure fun _ h => h) fun _ => Meets.ite (fun _ => ?_) fun _ =>
    within_raise fun _ h => h
  exact Meets.ite (fun _ => within_pure fun _ h => h) fun _ => within_raise fun _ h => h

theorem clear_stopped_still : Among i (Within i Φ Ψ) clear_stopped
    (fun _ => Held i Φ) fun _ => Within i Φ Ψ := by
  refine within_bind require_lock_tells fun _ => ?_
  refine Meets.mono (P := Held i Φ) (R := fun _ => Held i Φ) ?_ (fun _ h => h) (fun _ _ h => h)
    fun _ _ h => h.within
  refine (within_bind (unlink_still rfl) fun _ => still_meets rfl).handle (fun e => unremovable_meets)
    fun _ => within_stable

/-- The record goes when nothing is left of its run. -/
theorem unlink_record_meets (hleft : ∀ x, Φ x → ∀ r, x.record = some r → x.left r.run.id = [])
    (hnone : ∀ x, Φ x → Φ { x with record := none }) :
    Among i (Held i Φ) (host .unlink_state) (fun _ => Held i Φ) fun _ => Held i Φ := by
  refine held_meets (F := fun _ => Φ) ⟨by decide, by decide⟩ fun g m a hnamed hΦ => ?_
  have hends : ∀ {x : Side}, Φ x → ends (fun _ => Φ) (fun _ => Φ) (HostStep.unlink_state.outcome i g m a) x := by
    intro x hx
    cases HostStep.unlink_state.outcome i g m a with
    | ok _ => exact hx
    | error _ => exact hx
  have heffect : HostStep.unlink_state.effect i "" g m a =
      (if a.effective = true then { g with record := none } else g, m) := rfl
  rw [heffect]
  by_cases heffective : a.effective = true
  · rw [if_pos heffective]
    refine ⟨⟨fun r hr _ => hleft _ hΦ r hr, fun r r' _ hr' => by cases hr'⟩, fun run hrun => ?_, hends (hnone _ hΦ)⟩
    obtain ⟨r, hr, hid⟩ := hnamed run hrun
    exact absurd (hid ▸ hleft _ hΦ r hr) hrun
  · rw [if_neg heffective]
    exact ⟨.refl rfl, hnamed, hends hΦ⟩

theorem clear_record_meets (hleft : ∀ x, Φ x → ∀ r, x.record = some r → x.left r.run.id = [])
    (hnone : ∀ x, Φ x → Φ { x with record := none }) :
    Among i (Within i Φ Ψ) clear (fun _ => Held i Φ) fun _ => Within i Φ Ψ := by
  have hunlink : Among i (Held i Φ) (unlink .unlink_state) (fun _ => Held i Φ)
      fun _ => Held i Φ := by
    refine Meets.handle (within_bind (unlink_record_meets hleft hnone) fun _ => within_pure fun _ h => h)
      (fun e => ?_) fun _ => within_stable
    unfold missing_ok
    exact Meets.ite (fun _ => within_pure fun _ h => h) fun _ => within_raise fun _ h => h
  refine within_bind require_lock_tells fun _ => ?_
  refine Meets.mono (P := Held i Φ) (R := fun _ => Held i Φ) ?_ (fun _ h => h) (fun _ _ h => h)
    fun _ _ h => h.within
  refine (within_bind (still_meets rfl) fun _ => within_bind hunlink fun _ => still_meets rfl).handle
    (fun e => unremovable_meets) fun _ => within_stable

/-! ## Writing -/

/-- The record once the file is in its place. -/
def StoredRecord.after : StoredRecord → Option PersistedRun → Option PersistedRun
  | .active record, _ => some record
  | .stopped _, before => before

omit [DecidableEq κ] in
theorem Host.store_after (h : Host κ) (content : StoredRecord) :
    (h.store (some content)).record = content.after h.record ∧ (h.store (some content)).left = h.left := by
  cases content with
  | active r => exact ⟨rfl, rfl⟩
  | stopped r => exact ⟨rfl, rfl⟩

theorem StoredRecord.after_after (content : StoredRecord) (record : Option PersistedRun) :
    content.after (content.after record) = content.after record := by
  cases content with
  | active r => rfl
  | stopped r => rfl

/-- What an assertion needs to stand through a write: the record keeps its run, and the assertion
does not speak about the temporary file nor break when the file takes its place. -/
structure Writable (content : StoredRecord) (Φ : Side → Prop) : Prop where
  kept : ∀ x, Φ x → ∀ r, x.record = some r → ∃ r', content.after x.record = some r' ∧ r'.run.id = r.run.id
  temporary : ∀ x c, Φ x → Φ { x with memory := { x.memory with temporary := c } }
  after : ∀ x, Φ x → Φ { x with record := content.after x.record }

theorem replace_meets (hw : Writable content Φ) :
    Among i (Held i fun x => Φ x ∧ x.memory.temporary = some content) (host (.write w .replace))
      (fun _ => Held i fun x => Φ x ∧ content.after x.record = x.record) fun _ => Held i Φ := by
  have hquiet : HostStep.write w .replace ≠ .flock ∧ HostStep.write w .replace ≠ .unlock :=
    ⟨fun h => (by cases h), fun h => (by cases h)⟩
  refine held_meets (F := fun _ x => Φ x ∧ content.after x.record = x.record) hquiet fun g m a hnamed hΦ => ?_
  obtain ⟨hΦ, htemporary⟩ := hΦ
  have houtcome : (HostStep.write w .replace).outcome i g m a = a.reply (.ok ()) := rfl
  have heffect : (HostStep.write w .replace).effect i "" g m a =
      (if a.effective = true then g.store m.temporary else g, m) := rfl
  rw [heffect, houtcome]
  have hm : m.temporary = some content := htemporary
  rw [hm]
  obtain ⟨hrecord, hleft⟩ := g.store_after content
  by_cases heffective : a.effective = true
  · rw [if_pos heffective]
    have hafter : Φ ⟨content.after g.record, g.left, m⟩ := hw.after _ hΦ
    refine ⟨⟨fun r hr hnone => ?_, fun r r' hr hr' => ?_⟩, fun run hrun => ?_, ?_⟩
    · obtain ⟨r', hr', -⟩ := hw.kept _ hΦ r hr
      rw [hrecord, hr'] at hnone
      cases hnone
    · obtain ⟨r'', hr'', hid⟩ := hw.kept _ hΦ r hr
      rw [hrecord, hr''] at hr'
      rw [← Option.some.inj hr']
      exact hid
    · rw [hleft] at hrun
      obtain ⟨r, hr, hid⟩ := hnamed run hrun
      obtain ⟨r', hr', hid'⟩ := hw.kept _ hΦ r hr
      exact ⟨r', hrecord.trans hr', hid'.trans hid⟩
    · rw [hrecord, hleft]
      unfold Answer.reply
      cases a.raised with
      | none => exact ⟨hafter, content.after_after g.record⟩
      | some e => exact hafter
  · rw [if_neg heffective]
    refine ⟨.refl rfl, hnamed, ?_⟩
    unfold Answer.reply
    cases hraised : a.raised with
    | none =>
      unfold Answer.effective at heffective
      rw [hraised] at heffective
      exact absurd rfl heffective
    | some e => exact hΦ

theorem write_json_tells (hw : Writable content Φ) :
    Among i (Within i Φ Ψ) (write_json w content)
      (fun _ => Held i fun x => Φ x ∧ content.after x.record = x.record) fun _ => Within i Φ Ψ := by
  have hforget : ∀ {P : Side → Prop} (s : Machine κ), Held i (fun x => Φ x ∧ P x) s → Held i Φ s :=
    fun s hs => hs.mono fun _ hx => hx.1
  have hdump : Among i (Held i Φ) (dump content)
      (fun _ => Held i fun x => Φ x ∧ x.memory.temporary = some content) fun _ _ => False :=
    modify_tells (f := fun m => { m with temporary := some content })
      (fun x hx => ⟨hw.temporary x (some content) hx, rfl⟩) fun _ hm => hm
  have hguarded : Among i (Held i fun x => Φ x ∧ x.memory.temporary = some content)
      (perform_all "" (guarded_steps w))
      (fun _ => Held i fun x => Φ x ∧ content.after x.record = x.record) fun _ => Held i Φ := by
    have hquiet : ∀ {P : Side → Prop} {s : HostStep}, s.still = true → Among i
        (Held i fun x => Φ x ∧ P x) (host s) (fun _ => Held i fun x => Φ x ∧ P x) fun _ => Held i Φ :=
      fun hs => (still_meets hs).on_raise fun _ => hforget
    refine within_bind (hquiet rfl) fun _ => within_bind (hquiet rfl) fun _ => ?_
    refine within_bind (replace_meets hw) fun _ => within_bind (hquiet rfl) fun _ => ?_
    exact within_pure fun _ h => h
  have hunwritable : ∀ e, Among i (Held i Φ) (unwritable w e)
      (fun _ => Held i fun x => Φ x ∧ content.after x.record = x.record) fun _ => Held i Φ := by
    intro e
    refine Meets.ite (fun _ => ?_) fun _ => within_raise fun _ h => h
    exact within_bind (unlink_still rfl) fun _ => within_raise fun _ h => h
  have hheld : ∀ (e : RaisedError) (s : Machine κ), Held i Φ s → Within i Φ Ψ s := fun _ s hs => hs.within
  refine within_bind require_lock_tells fun _ => ?_
  refine within_bind ((perform_all_still fun s hs => ?_).on_raise hheld) fun _ => ?_
  · simp only [unguarded_steps, List.mem_cons, List.not_mem_nil, or_false] at hs
    rcases hs with rfl | rfl | rfl <;> rfl
  refine within_bind (process_returns hdump) fun _ => ?_
  exact (hguarded.handle hunwritable fun _ => held_stable).on_raise hheld

end Machine

end MininetAi
