/-
The registry of the processes that actions have started, over sequences of calls.

Calls come one after another, and the processes do what they like between any two
operations. The registry names, under the id of its start, every process that was started
and still runs, and what it names is the newest start of its id. It keeps the processes
that have ended as well: an entry leaves it only with `release_pids` and `close`.
-/
import MininetAi.Substrates.ProcessGroups

set_option autoImplicit false

namespace MininetAi

open List

open ProcessHost Routine

/-! ## One call at a time -/

/-- Operations meet `C`, and the others are the processes. -/
def sequential (C : ProcessOp → ProcessHost → Prop) : Terms ProcessOp ProcessOp.Reply ProcessHost where
  act o s r t := C o s ∧ ∃ a, o.act a s = (r, t)
  rely s t := ∃ moves, t = s.moved moves
  guar _ _ := True
  rely_refl s := ⟨[], rfl⟩
  rely_trans := by
    rintro s _ _ ⟨moves, rfl⟩ ⟨moves', rfl⟩
    exact ⟨moves ++ moves', (foldl_append ..).symm⟩

theorem ordinary_sequential (C : ProcessOp → ProcessHost → Prop) : Ordinary C (sequential C) where
  act _ _ _ _ h := h
  rely s t := by
    rintro ⟨moves, rfl⟩
    exact Later.moved moves s
  guar _ _ _ _ _ _ _ := trivial

/-- The code's own memory, and what it has started. -/
structure Same (s t : ProcessHost) : Prop where
  registry : t.registry = s.registry
  started : t.started = s.started
  children : t.children = s.children

variable {s t : ProcessHost} {pid : ℕ}

variable {u : ProcessHost} {C : ProcessOp → ProcessHost → Prop}

theorem Same.trans (h : Same s t) (h' : Same t u) : Same s u :=
  ⟨h'.registry.trans h.registry, h'.started.trans h.started, h'.children.trans h.children⟩

theorem same_move (s : ProcessHost) (m : ProcessMove) : Same s (s.move m) ∧ (s.move m).signals = s.signals := by
  cases m with
  | exit pid status => exact ⟨⟨rfl, rfl, rfl⟩, rfl⟩
  | fork pid =>
    rw [ProcessHost.move]
    split
    · exact ⟨⟨rfl, rfl, rfl⟩, rfl⟩
    · exact ⟨⟨rfl, rfl, rfl⟩, rfl⟩
  | reap pid =>
    rw [ProcessHost.move]
    split
    · exact ⟨⟨rfl, rfl, rfl⟩, rfl⟩
    · exact ⟨⟨rfl, rfl, rfl⟩, rfl⟩
  | regroup pid group =>
    rw [ProcessHost.move]
    split
    · exact ⟨⟨rfl, rfl, rfl⟩, rfl⟩
    · exact ⟨⟨rfl, rfl, rfl⟩, rfl⟩

/-- The processes do not touch the code's memory, and send nothing. -/
theorem same_moved (moves : List ProcessMove) :
    ∀ s : ProcessHost, Same s (s.moved moves) ∧ (s.moved moves).signals = s.signals := by
  induction moves with
  | nil => exact fun s => ⟨⟨rfl, rfl, rfl⟩, rfl⟩
  | cons m moves ih =>
    intro s
    obtain ⟨hsame, hsignals⟩ := same_move s m
    exact ⟨hsame.trans (ih _).1, (ih _).2.trans hsignals⟩

theorem same_waited (s : ProcessHost) (pid : ℕ) :
    Same s (s.waited pid).2 ∧ (s.waited pid).2.signals = s.signals := by
  unfold ProcessHost.waited
  split
  · exact ⟨⟨rfl, rfl, rfl⟩, rfl⟩
  · split
    · exact ⟨⟨rfl, rfl, rfl⟩, rfl⟩
    · exact ⟨⟨rfl, rfl, rfl⟩, rfl⟩

/-- The signals that were sent since a state all went to one process and its group. -/
def SignalsOnly (pid : ℕ) (s t : ProcessHost) : Prop :=
  ∃ sent, t.signals = s.signals ++ sent ∧ ∀ entry ∈ sent, entry.1 = pid

theorem SignalsOnly.of_eq (h : t.signals = s.signals) : SignalsOnly pid s t :=
  ⟨[], by rw [h, append_nil], fun _ hmem => by cases hmem⟩

theorem SignalsOnly.trans (h : SignalsOnly pid s t) (h' : SignalsOnly pid t u) :
    SignalsOnly pid s u := by
  obtain ⟨sent, hsent, hall⟩ := h
  obtain ⟨sent', hsent', hall'⟩ := h'
  refine ⟨sent ++ sent', by rw [hsent', hsent, append_assoc], fun entry hmem => ?_⟩
  rcases mem_append.mp hmem with hmem | hmem
  · exact hall entry hmem
  · exact hall' entry hmem

theorem SignalsOnly.sent {signal : ProcessSignal} (h : t.signals = s.signals ++ [(pid, signal)]) :
    SignalsOnly pid s t :=
  ⟨[(pid, signal)], h, fun entry hmem => by rw [mem_singleton.mp hmem]⟩

/-- An operation on one process keeps the code's memory and signals only this process. -/
theorem same_act {o : ProcessOp} (ho : o.concerns pid = true) (a : ProcessAnswer)
    (s : ProcessHost) : Same s (o.act a s).2 ∧ SignalsOnly pid s (o.act a s).2 := by
  have hwaited := same_waited s pid
  cases o with
  | poll other =>
    cases of_decide_eq_true ho
    exact ⟨hwaited.1, .of_eq hwaited.2⟩
  | collect other =>
    cases of_decide_eq_true ho
    exact ⟨hwaited.1, .of_eq hwaited.2⟩
  | wait other timeout =>
    cases of_decide_eq_true ho
    exact ⟨hwaited.1, .of_eq hwaited.2⟩
  | getpgid other =>
    rw [ProcessOp.act]
    split
    · exact ⟨⟨rfl, rfl, rfl⟩, .of_eq rfl⟩
    · exact ⟨⟨rfl, rfl, rfl⟩, .of_eq rfl⟩
  | send other signal =>
    cases of_decide_eq_true ho
    rw [ProcessOp.act, ProcessHost.send]
    generalize s.waited pid = result at hwaited ⊢
    obtain ⟨code, t⟩ := result
    obtain ⟨hsame, hsignals⟩ := hwaited
    have hsent : ∀ {u : ProcessHost}, Same t u → u.signals = t.signals ++ [(pid, signal)] →
        Same s u ∧ SignalsOnly pid s u :=
      fun hu hsent => ⟨hsame.trans hu, .sent (hsent.trans (congrArg (· ++ _) hsignals))⟩
    cases code with
    | some code => exact ⟨hsame, .of_eq hsignals⟩
    | none =>
      dsimp only
      split
      · exact ⟨hsame, .of_eq hsignals⟩
      cases signal with
      | probe => exact hsent ⟨rfl, rfl, rfl⟩ rfl
      | term => exact hsent ⟨rfl, rfl, rfl⟩ rfl
      | kill => exact hsent ⟨rfl, rfl, rfl⟩ rfl
  | killpg group signal =>
    cases of_decide_eq_true ho
    rw [ProcessOp.act]
    unfold ProcessHost.killpg
    split
    · exact ⟨⟨rfl, rfl, rfl⟩, .of_eq rfl⟩
    split
    · exact ⟨⟨rfl, rfl, rfl⟩, .of_eq rfl⟩
    cases signal with
    | probe => exact ⟨⟨rfl, rfl, rfl⟩, .of_eq rfl⟩
    | term => exact ⟨⟨rfl, rfl, rfl⟩, .sent rfl⟩
    | kill => exact ⟨⟨rfl, rfl, rfl⟩, .sent rfl⟩
  | returncode other => exact ⟨⟨rfl, rfl, rfl⟩, .of_eq rfl⟩
  | getpgrp => exact ⟨⟨rfl, rfl, rfl⟩, .of_eq rfl⟩
  | deadline timeout => exact ⟨⟨rfl, rfl, rfl⟩, .of_eq rfl⟩
  | lookup id => cases ho
  | entries => cases ho
  | register id managed => cases ho
  | unregister id => cases ho
  | clear => cases ho
  | popen host command arguments => cases ho

/-! ## The invariant -/

/-- What the registry is to the processes. The processes of `loose` are not registered yet. -/
structure Registered (strict : Prop) (loose : List ℕ) (w : ProcessHost) : Prop where
  sound : w.OsSound
  keys : (w.registry.map Prod.fst).Nodup
  named : ∀ id managed, w.registry.lookup id = some managed → managed.pid ∈ w.children
  children : ∀ entry ∈ w.started, entry.2 ∈ w.children
  /-- An id has its newest start. -/
  newest : ∀ id managed, w.registry.lookup id = some managed →
    (w.started.filter fun entry => entry.1 = id).getLast? = some (id, managed.pid)
  /-- A process that runs is registered. -/
  running : ∀ entry ∈ w.started, w.runs entry.2 = true →
    ∃ managed, w.registry.lookup entry.1 = some managed ∧ managed.pid = entry.2
  /-- When leaders are the last of their groups, a group that is alive is registered. -/
  living : strict → ∀ pid ∈ w.children, w.alive pid = true →
    pid ∈ loose ∨ ∃ id managed, w.registry.lookup id = some managed ∧ managed.pid = pid

variable {strict : Prop} {loose : List ℕ}

/-- What is over does not matter to the registry. -/
theorem Registered.later (h : Registered strict loose s) (hlater : s.Later t) (hsame : Same s t) :
    Registered strict loose t := by
  obtain ⟨hregistry, hstarted, hchildren⟩ := hsame
  refine ⟨hlater.sound h.sound, ?_, ?_, ?_, ?_, fun entry hentry hruns => ?_, fun hstrict pid hpid halive => ?_⟩
  · rw [hregistry]
    exact h.keys
  · rw [hregistry, hchildren]
    exact h.named
  · rw [hstarted, hchildren]
    exact h.children
  · rw [hregistry, hstarted]
    exact h.newest
  · rw [hstarted] at hentry
    have hbefore : s.runs entry.2 = true := by
      by_contra hstopped
      rw [hlater.stopped h.sound entry.2 (h.sound.children_lt _ (h.children entry hentry))
        ((Bool.not_eq_true _).mp hstopped)] at hruns
      cases hruns
    rw [hregistry]
    exact h.running entry hentry hbefore
  · rw [hchildren] at hpid
    have hbefore : s.alive pid = true := by
      by_contra hdead
      rw [hlater.dead h.sound pid hpid ((Bool.not_eq_true _).mp hdead)] at halive
      cases halive
    rw [hregistry]
    exact h.living hstrict pid hpid hbefore

/-! ## What changes the registry -/

theorem Registered.popen (h : Registered strict [] s) : Registered strict [s.next_pid] { s with
      processes := Function.update s.processes s.next_pid (some ⟨s.next_pid, none⟩)
      next_pid := s.next_pid + 1
      children := s.children ++ [s.next_pid] } := by
  have hlater := Later.popen s
  refine ⟨hlater.sound h.sound, h.keys, fun id managed hlookup => ?_, fun entry hentry => ?_, h.newest,
    fun entry hentry hruns => ?_, fun hstrict pid hpid halive => ?_⟩
  · exact mem_append_left _ (h.named id managed hlookup)
  · exact mem_append_left _ (h.children entry hentry)
  · refine h.running entry hentry ?_
    by_contra hstopped
    rw [hlater.stopped h.sound entry.2 (h.sound.children_lt _ (h.children entry hentry))
      ((Bool.not_eq_true _).mp hstopped)] at hruns
    cases hruns
  · rcases mem_append.mp hpid with hold | hnew
    · refine .inr ((h.living hstrict pid hold ?_).resolve_left fun hmem => by cases hmem)
      by_contra hdead
      rw [hlater.dead h.sound pid hold ((Bool.not_eq_true _).mp hdead)] at halive
      cases halive
    · exact .inl hnew

/-- A process that is started under a free id is registered. -/
theorem Registered.register {id : String} {managed : ManagedProcess}
    (h : Registered strict [managed.pid] s) (hfree : s.registry.lookup id = none)
    (hchild : managed.pid ∈ s.children) : Registered strict [] { s with
      registry := dict_set id managed s.registry
      started := s.started ++ [(id, managed.pid)] } := by
  have hlater : s.Later { s with
      registry := dict_set id managed s.registry
      started := s.started ++ [(id, managed.pid)] } := Later.of_same rfl rfl rfl rfl rfl
  have hlookup : ∀ other found, (dict_set id managed s.registry).lookup other = some found →
      other = id ∧ found = managed ∨ other ≠ id ∧ s.registry.lookup other = some found := by
    intro other found hfound
    rw [lookup_dict_set] at hfound
    by_cases heq : other = id
    · rw [if_pos heq] at hfound
      exact .inl ⟨heq, (Option.some.inj hfound).symm⟩
    · rw [if_neg heq] at hfound
      exact .inr ⟨heq, hfound⟩
  have hkept : ∀ other found, s.registry.lookup other = some found →
      (dict_set id managed s.registry).lookup other = some found := by
    intro other found hfound
    have hne : other ≠ id := fun heq => by rw [heq, hfree] at hfound; cases hfound
    rw [lookup_dict_set_of_ne hne]
    exact hfound
  refine ⟨hlater.sound h.sound, nodup_dict_set h.keys id managed, fun other found hfound => ?_,
    fun entry hentry => ?_, fun other found hfound => ?_, fun entry hentry hruns => ?_,
    fun hstrict pid hpid halive => .inr ?_⟩
  · rcases hlookup other found hfound with ⟨_, rfl⟩ | ⟨_, hold⟩
    · exact hchild
    · exact h.named other found hold
  · rcases mem_append.mp hentry with hold | hnew
    · exact h.children entry hold
    · rw [mem_singleton.mp hnew]
      exact hchild
  · dsimp only
    rw [filter_append]
    rcases hlookup other found hfound with ⟨rfl, rfl⟩ | ⟨hne, hold⟩
    · rw [filter_cons, if_pos (decide_eq_true rfl), filter_nil, getLast?_concat]
    · have hskip : ¬ decide (id = other) = true := fun heq => hne (of_decide_eq_true heq).symm
      rw [filter_cons, if_neg hskip, filter_nil, append_nil]
      exact h.newest other found hold
  · rcases mem_append.mp hentry with hold | hnew
    · obtain ⟨found, hfound, hpid⟩ := h.running entry hold hruns
      exact ⟨found, hkept _ _ hfound, hpid⟩
    · rw [mem_singleton.mp hnew]
      exact ⟨managed, lookup_dict_set_self id managed _, rfl⟩
  · rcases h.living hstrict pid hpid halive with hloose | ⟨other, found, hfound, heq⟩
    · exact ⟨id, managed, lookup_dict_set_self id managed _, (mem_singleton.mp hloose).symm⟩
    · exact ⟨other, found, hkept _ _ hfound, heq⟩

/-- A process that has stopped is no longer loose. -/
theorem Registered.settle (hC : strict → Strict C) (h : Registered strict [pid] s)
    (hstopped : Stopped C pid s) : Registered strict [] s := by
  refine ⟨h.sound, h.keys, h.named, h.children, h.newest, h.running, fun hstrict other hother halive => ?_⟩
  refine (h.living hstrict other hother halive).imp_left fun hloose => ?_
  rw [mem_singleton.mp hloose, hstopped.2 (hC hstrict)] at halive
  cases halive

/-- A part of the registry is left, and what is left out has stopped. -/
theorem Registered.forget (hC : strict → Strict C) {registry : List (String × ManagedProcess)}
    (h : Registered strict [] s) (hkeys : (registry.map Prod.fst).Nodup)
    (hkept : ∀ id managed, registry.lookup id = some managed → s.registry.lookup id = some managed)
    (hgone : ∀ id managed, s.registry.lookup id = some managed →
      registry.lookup id = some managed ∨ Stopped C managed.pid s) :
    Registered strict [] { s with registry := registry } := by
  have hlater : s.Later { s with registry := registry } := Later.of_same rfl rfl rfl rfl rfl
  refine ⟨hlater.sound h.sound, hkeys, fun id managed hlookup => h.named id managed (hkept id managed hlookup),
    h.children, fun id managed hlookup => h.newest id managed (hkept id managed hlookup),
    fun entry hentry hruns => ?_, fun hstrict pid hpid halive => ?_⟩
  · obtain ⟨managed, hlookup, hpid⟩ := h.running entry hentry hruns
    refine ⟨managed, (hgone _ _ hlookup).resolve_right fun hstopped => ?_, hpid⟩
    have hruns' : s.runs entry.2 = true := hruns
    rw [← hpid, hstopped.1] at hruns'
    cases hruns'
  · refine (h.living hstrict pid hpid halive).imp_right fun hregistered => ?_
    obtain ⟨id, managed, hlookup, heq⟩ := hregistered
    refine ⟨id, managed, (hgone _ _ hlookup).resolve_right fun hstopped => ?_, heq⟩
    have halive' : s.alive pid = true := halive
    rw [← heq, hstopped.2 (hC hstrict)] at halive'
    cases halive'

end MininetAi
