/-
What stays true of the processes of a host.

A process that has stopped does not run again, and a group that a started leader leads
stays dead once it is: only a process that is alive forks, a group is joined while it
has one, and the leader itself does not come back. A state is `Later` than another when
it keeps what is over; every operation of the code and every move of the processes leads
to a later state, so these facts hold under any of them.
-/
import MininetAi.Substrates.ManagedProcesses

set_option autoImplicit false

namespace MininetAi

open Function

namespace ProcessHost

/-! ## Sound tables -/

/-- Pids are below the next one, leaders lead their groups, and a leader is gone once it
was waited for. -/
structure OsSound (w : ProcessHost) : Prop where
  bound : ∀ pid p, w.processes pid = some p → pid < w.next_pid
  children_lt : ∀ pid ∈ w.children, pid < w.next_pid
  own_lt : w.own_group < w.next_pid
  own : w.own_group ∉ w.children
  leads : ∀ pid ∈ w.children, ∀ p, w.processes pid = some p → p.group = pid
  present : ∀ pid ∈ w.children, w.returncode pid = none → w.processes pid ≠ none
  gone : ∀ pid code, w.returncode pid = some code → w.processes pid = none ∧ pid < w.next_pid

variable {w s : ProcessHost} {pid group : ℕ}

theorem runs_iff : w.runs pid = true ↔ ∃ p, w.processes pid = some p ∧ p.status = none := by
  rw [runs, Option.any_eq_true]
  simp only [Option.isNone_iff_eq_none]

theorem runs_eq_false_iff :
    w.runs pid = false ↔ ∀ p, w.processes pid = some p → p.status ≠ none := by
  rw [← Bool.not_eq_true, runs_iff]
  constructor
  · exact fun h p hp hnone => h ⟨p, hp, hnone⟩
  · rintro h ⟨p, hp, hnone⟩
    exact h p hp hnone

theorem mem_members (h : w.OsSound) :
    pid ∈ w.members group ↔ ∃ p, w.processes pid = some p ∧ p.group = group := by
  rw [members, List.mem_filter, List.mem_range, Option.any_eq_true]
  constructor
  · rintro ⟨_, p, hp, hgroup⟩
    exact ⟨p, hp, of_decide_eq_true hgroup⟩
  · rintro ⟨p, hp, hgroup⟩
    exact ⟨h.bound pid p hp, p, hp, decide_eq_true hgroup⟩

theorem alive_eq_false_iff (h : w.OsSound) :
    w.alive group = false ↔ ∀ pid p, w.processes pid = some p → p.group = group → p.status ≠ none := by
  rw [alive, List.any_eq_false]
  constructor
  · intro hnone pid p hp hgroup hstatus
    exact hnone pid ((mem_members h).mpr ⟨p, hp, hgroup⟩) (runs_iff.mpr ⟨p, hp, hstatus⟩)
  · intro hnone pid hpid hruns
    obtain ⟨p, hp, hgroup⟩ := (mem_members h).mp hpid
    obtain ⟨q, hq, hstatus⟩ := runs_iff.mp hruns
    rw [hp] at hq
    exact hnone pid p hp hgroup (Option.some.inj hq ▸ hstatus)

/-- A leader of a dead group does not run. -/
theorem OsSound.leader_stopped (h : w.OsSound) (hpid : pid ∈ w.children)
    (hdead : w.alive pid = false) : w.runs pid = false :=
  runs_eq_false_iff.mpr fun p hp => (alive_eq_false_iff h).mp hdead pid p hp (h.leads pid hpid p hp)

/-- A group without processes is dead. -/
theorem dead_of_members (hnone : w.members group = []) : w.alive group = false := by
  rw [alive, hnone, List.any_nil]

/-! ## Later states -/

/-- A state that keeps what is over. -/
structure Later (s t : ProcessHost) : Prop where
  sound : s.OsSound → t.OsSound
  children : ∀ pid ∈ s.children, pid ∈ t.children
  returned : ∀ pid code, s.returncode pid = some code → t.returncode pid = some code
  own : t.own_group = s.own_group
  next : s.next_pid ≤ t.next_pid
  stopped : s.OsSound → ∀ pid, pid < s.next_pid → s.runs pid = false → t.runs pid = false
  dead : s.OsSound → ∀ pid ∈ s.children, s.alive pid = false → t.alive pid = false

theorem Later.refl (s : ProcessHost) : s.Later s :=
  ⟨id, fun _ => id, fun _ _ => id, rfl, Nat.le_refl _, fun _ _ _ => id, fun _ _ _ => id⟩

theorem Later.trans {t u : ProcessHost} (h : s.Later t) (h' : t.Later u) : s.Later u where
  sound hs := h'.sound (h.sound hs)
  children pid hpid := h'.children pid (h.children pid hpid)
  returned pid code hcode := h'.returned pid code (h.returned pid code hcode)
  own := h'.own.trans h.own
  next := Nat.le_trans h.next h'.next
  stopped hs pid hpid hstopped :=
    h'.stopped (h.sound hs) pid (Nat.lt_of_lt_of_le hpid h.next) (h.stopped hs pid hpid hstopped)
  dead hs pid hpid hdead := h'.dead (h.sound hs) pid (h.children pid hpid) (h.dead hs pid hpid hdead)

/-- The registry, the histories and the signals do not matter. -/
theorem Later.of_same {t : ProcessHost} (hprocesses : t.processes = s.processes)
    (hnext : t.next_pid = s.next_pid) (hown : t.own_group = s.own_group)
    (hreturn : t.returncode = s.returncode) (hchildren : t.children = s.children) : s.Later t := by
  have hruns : ∀ pid, t.runs pid = s.runs pid := fun pid => by rw [runs, runs, hprocesses]
  have halive : ∀ group, t.alive group = s.alive group := fun group => by
    rw [alive, alive, members, members, hnext, hprocesses, funext hruns]
  refine ⟨fun h => ⟨?_, ?_, ?_, ?_, ?_, ?_, ?_⟩, ?_, ?_, hown, hnext.ge, ?_, ?_⟩
  · rw [hprocesses, hnext]
    exact h.bound
  · rw [hchildren, hnext]
    exact h.children_lt
  · rw [hown, hnext]
    exact h.own_lt
  · rw [hown, hchildren]
    exact h.own
  · rw [hprocesses, hchildren]
    exact h.leads
  · rw [hprocesses, hchildren, hreturn]
    exact h.present
  · rw [hprocesses, hreturn, hnext]
    exact h.gone
  · rw [hchildren]
    exact fun _ => id
  · rw [hreturn]
    exact fun _ _ => id
  · intro _ pid _
    rw [hruns]
    exact id
  · intro _ pid _
    rw [halive]
    exact id

/-! ## What is over stays over -/

/-- Processes exit. -/
theorem Later.ended (s : ProcessHost) (which : ℕ → HostProcess → Bool) (status : ℤ) :
    s.Later (s.ended which status) := by
  have hback : ∀ pid q, (s.ended which status).processes pid = some q →
      ∃ p, s.processes pid = some p ∧ q.group = p.group ∧ (q.status = none → p.status = none) := by
    intro pid q hq
    obtain ⟨p, hp, rfl⟩ := Option.map_eq_some_iff.mp hq
    refine ⟨p, hp, ?_, ?_⟩
    · split
      · rfl
      · rfl
    · intro hnone
      split at hnone
      · cases hnone
      · exact hnone
  have hnone : ∀ pid, (s.ended which status).processes pid = none ↔ s.processes pid = none :=
    fun pid => Option.map_eq_none_iff
  have hsound : s.OsSound → (s.ended which status).OsSound := by
    intro h
    refine ⟨fun pid q hq => ?_, h.children_lt, h.own_lt, h.own, fun pid hpid q hq => ?_,
      fun pid hpid hcode hgone => ?_, fun pid code hcode => ?_⟩
    · obtain ⟨p, hp, _⟩ := hback pid q hq
      exact h.bound pid p hp
    · obtain ⟨p, hp, hgroup, _⟩ := hback pid q hq
      exact hgroup.trans (h.leads pid hpid p hp)
    · exact h.present pid hpid hcode ((hnone pid).mp hgone)
    · exact ⟨(hnone pid).mpr (h.gone pid code hcode).1, (h.gone pid code hcode).2⟩
  refine ⟨hsound, fun _ => id, fun _ _ => id, rfl, Nat.le_refl _, fun _ pid _ hstopped => ?_,
    fun h pid _ hdead => ?_⟩
  · refine runs_eq_false_iff.mpr fun q hq hstatus => ?_
    obtain ⟨p, hp, _, hback⟩ := hback pid q hq
    exact runs_eq_false_iff.mp hstopped p hp (hback hstatus)
  · refine (alive_eq_false_iff (hsound h)).mpr fun other q hq hgroup hstatus => ?_
    obtain ⟨p, hp, hsame, hback⟩ := hback other q hq
    exact (alive_eq_false_iff h).mp hdead other p hp (hsame ▸ hgroup) (hback hstatus)

/-- A process that has stopped is waited for. -/
theorem Later.removed {codes : ℕ → Option ℤ}
    (hcodes : ∀ other code, s.returncode other = some code → codes other = some code)
    (hnew : s.OsSound → ∀ other code, codes other = some code → s.returncode other = some code ∨
      other = pid ∧ pid < s.next_pid) (hwaited : pid ∈ s.children → codes pid ≠ none) :
    s.Later { s with processes := update s.processes pid none, returncode := codes } := by
  have hback : ∀ other q, update s.processes pid none other = some q →
      other ≠ pid ∧ s.processes other = some q := by
    intro other q hq
    by_cases heq : other = pid
    · rw [heq, update_self] at hq
      cases hq
    · rw [update_of_ne heq] at hq
      exact ⟨heq, hq⟩
  have hsound : s.OsSound → OsSound
      { s with processes := update s.processes pid none, returncode := codes } := by
    intro h
    refine ⟨fun other q hq => h.bound other q (hback other q hq).2, h.children_lt, h.own_lt, h.own,
      fun other hother q hq => h.leads other hother q (hback other q hq).2,
      fun other hother hcode hgone => ?_, fun other code hcode => ?_⟩
    · dsimp only at hcode hgone
      by_cases heq : other = pid
      · rw [heq] at hother hcode
        exact hwaited hother hcode
      · rw [update_of_ne heq] at hgone
        refine h.present other hother ?_ hgone
        cases hold : s.returncode other with
        | none => rfl
        | some code => rw [hcodes other code hold] at hcode; cases hcode
    · dsimp only
      by_cases heq : other = pid
      · rw [heq, update_self]
        rcases hnew h other code hcode with hold | ⟨_, hlt⟩
        · exact ⟨rfl, heq ▸ (h.gone other code hold).2⟩
        · exact ⟨rfl, hlt⟩
      · rw [update_of_ne heq]
        rcases hnew h other code hcode with hold | ⟨hpid, _⟩
        · exact h.gone other code hold
        · exact absurd hpid heq
  refine ⟨hsound, fun _ => id, hcodes, rfl, Nat.le_refl _, fun _ other _ hstopped => ?_,
    fun h other _ hdead => ?_⟩
  · exact runs_eq_false_iff.mpr fun q hq => runs_eq_false_iff.mp hstopped q (hback other q hq).2
  · exact (alive_eq_false_iff (hsound h)).mpr fun member q hq =>
      (alive_eq_false_iff h).mp hdead member q (hback member q hq).2

theorem Later.waited (s : ProcessHost) (pid : ℕ) : s.Later (s.waited pid).2 := by
  unfold ProcessHost.waited
  cases hcode : s.returncode pid with
  | some code => exact Later.refl s
  | none =>
    cases hstatus : (s.processes pid).bind HostProcess.status with
    | none => exact Later.refl s
    | some code =>
      obtain ⟨p, hp, _⟩ := Option.bind_eq_some_iff.mp hstatus
      refine Later.removed (fun other old hold => ?_) (fun h other new hnew => ?_) fun _ => ?_
      · have hne : other ≠ pid := fun heq => by rw [heq, hcode] at hold; cases hold
        rw [update_of_ne hne]
        exact hold
      · by_cases heq : other = pid
        · exact .inr ⟨heq, h.bound pid p hp⟩
        · rw [update_of_ne heq] at hnew
          exact .inl hnew
      · rw [update_self]
        exact nofun

/-- A process is new, or one that runs changes its group. -/
theorem Later.placed {next : ℕ} {children : List ℕ} (hnext : s.next_pid ≤ next)
    (hlt : s.OsSound → pid < next) (hfree : pid = s.next_pid ∨ s.runs pid = true)
    (hpid : s.OsSound → pid ∉ s.children) (hkept : ∀ child ∈ s.children, child ∈ children)
    (hnew : ∀ child ∈ children, child ∈ s.children ∨ child = pid)
    (hleads : s.OsSound → pid ∈ children → group = pid) (hown : s.OsSound → s.own_group ∉ children)
    (hjoined : s.OsSound → ∀ child ∈ s.children, group = child → s.alive child = true) :
    s.Later { s with
      processes := update s.processes pid (some ⟨group, none⟩)
      next_pid := next
      children := children } := by
  have hback : ∀ other q, update s.processes pid (some ⟨group, none⟩) other = some q →
      other = pid ∧ q = ⟨group, none⟩ ∨ other ≠ pid ∧ s.processes other = some q := by
    intro other q hq
    by_cases heq : other = pid
    · rw [heq, update_self] at hq
      exact .inl ⟨heq, (Option.some.inj hq).symm⟩
    · rw [update_of_ne heq] at hq
      exact .inr ⟨heq, hq⟩
  have hsound : s.OsSound → OsSound
      { s with
        processes := update s.processes pid (some ⟨group, none⟩)
        next_pid := next
        children := children } := by
    intro h
    refine ⟨fun other q hq => ?_, fun child hchild => ?_, Nat.lt_of_lt_of_le h.own_lt hnext, hown h,
      fun child hchild q hq => ?_, fun child hchild hcode => ?_, fun other code hcode => ?_⟩
    · rcases hback other q hq with ⟨heq, _⟩ | ⟨_, hold⟩
      · exact heq ▸ hlt h
      · exact Nat.lt_of_lt_of_le (h.bound other q hold) hnext
    · rcases hnew child hchild with hold | heq
      · exact Nat.lt_of_lt_of_le (h.children_lt child hold) hnext
      · exact heq ▸ hlt h
    · rcases hback child q hq with ⟨heq, rfl⟩ | ⟨hne, hold⟩
      · rw [heq] at hchild ⊢
        exact hleads h hchild
      · exact h.leads child ((hnew child hchild).resolve_right hne) q hold
    · dsimp only
      by_cases heq : child = pid
      · rw [heq, update_self]
        exact nofun
      · rw [update_of_ne heq]
        exact h.present child ((hnew child hchild).resolve_right heq) hcode
    · obtain ⟨hgone, hbefore⟩ := h.gone other code hcode
      have hne : other ≠ pid := by
        rintro rfl
        rcases hfree with rfl | hruns
        · exact absurd hbefore (Nat.lt_irrefl _)
        · obtain ⟨p, hp, _⟩ := runs_iff.mp hruns
          rw [hgone] at hp
          cases hp
      exact ⟨(update_of_ne hne _ _).trans hgone, Nat.lt_of_lt_of_le hbefore hnext⟩
  refine ⟨hsound, hkept, fun _ _ => id, rfl, hnext, fun h other hother hstopped => ?_,
    fun h child hchild hdead => ?_⟩
  · refine runs_eq_false_iff.mpr fun q hq => ?_
    rcases hback other q hq with ⟨heq, _⟩ | ⟨_, hold⟩
    · rw [heq] at hother hstopped
      rcases hfree with heq | hruns
      · exact absurd heq (Nat.ne_of_lt hother)
      · rw [hstopped] at hruns
        cases hruns
    · exact runs_eq_false_iff.mp hstopped q hold
  · refine (alive_eq_false_iff (hsound h)).mpr fun member q hq hgroup => ?_
    rcases hback member q hq with ⟨_, rfl⟩ | ⟨_, hold⟩
    · rw [hjoined h child hchild hgroup] at hdead
      cases hdead
    · exact (alive_eq_false_iff h).mp hdead member q hold hgroup

/-- The processes move to later states. -/
theorem Later.move (s : ProcessHost) (m : ProcessMove) : s.Later (s.move m) := by
  cases m with
  | exit pid status => exact Later.ended s _ status
  | reap pid =>
    rw [ProcessHost.move]
    by_cases hreap : pid ∉ s.children ∧ s.runs pid = false
    · rw [if_pos hreap]
      exact Later.removed (fun _ _ => id) (fun _ _ _ => .inl) fun hchild => absurd hchild hreap.1
    · rw [if_neg hreap]
      exact Later.refl s
  | regroup pid group =>
    rw [ProcessHost.move]
    by_cases hmove : pid ∉ s.children ∧ s.runs pid = true ∧ (group = pid ∨ s.alive group = true)
    · rw [if_pos hmove]
      obtain ⟨hnot, hruns, hgroup⟩ := hmove
      obtain ⟨p, hp, _⟩ := runs_iff.mp hruns
      refine Later.placed (Nat.le_refl _) (fun h => h.bound pid p hp) (.inr hruns) (fun _ => hnot)
        (fun _ => id) (fun _ => .inl) (fun _ hchild => absurd hchild hnot) (fun h => h.own)
        fun _ child hchild heq => ?_
      rcases hgroup with hself | halive
      · exact absurd (hself ▸ heq ▸ hchild) hnot
      · exact heq ▸ halive
    · rw [if_neg hmove]
      exact Later.refl s
  | fork pid =>
    rw [ProcessHost.move]
    split
    · rename_i group hparent
      refine Later.placed (Nat.le_succ _) (fun _ => Nat.lt_succ_self _) (.inl rfl)
        (fun h hchild => absurd (h.children_lt _ hchild) (Nat.lt_irrefl _)) (fun _ => id) (fun _ => .inl)
        (fun h hchild => absurd (h.children_lt _ hchild) (Nat.lt_irrefl _)) (fun h => h.own)
        fun h child hchild heq => ?_
      rw [← Bool.not_eq_false, alive_eq_false_iff h]
      exact fun hdead => hdead pid _ hparent heq rfl
    · exact Later.refl s

theorem Later.moved (moves : List ProcessMove) : ∀ s : ProcessHost, s.Later (s.moved moves) := by
  induction moves with
  | nil => exact Later.refl
  | cons m moves ih => exact fun s => (Later.move s m).trans (ih (s.move m))

/-! ## Operations -/

theorem Later.killpg (s : ProcessHost) (group : ℕ) (signal : ProcessSignal) (denied : Bool) :
    s.Later (s.killpg group signal denied).2 := by
  unfold ProcessHost.killpg
  split
  · exact Later.refl s
  split
  · exact Later.refl s
  cases signal with
  | probe => exact Later.refl s
  | term => exact Later.of_same rfl rfl rfl rfl rfl
  | kill => exact (Later.ended s _ _).trans (Later.of_same rfl rfl rfl rfl rfl)

theorem Later.send (s : ProcessHost) (pid : ℕ) (signal : ProcessSignal) (denied : Bool) :
    s.Later (s.send pid signal denied).2 := by
  have hwaited := Later.waited s pid
  unfold ProcessHost.send
  generalize s.waited pid = result at hwaited ⊢
  obtain ⟨code, t⟩ := result
  cases code with
  | some code => exact hwaited
  | none =>
    dsimp only
    split
    · exact hwaited
    cases signal with
    | probe => exact hwaited.trans (Later.of_same rfl rfl rfl rfl rfl)
    | term => exact hwaited.trans (Later.of_same rfl rfl rfl rfl rfl)
    | kill => exact hwaited.trans ((Later.ended t _ _).trans (Later.of_same rfl rfl rfl rfl rfl))

/-- A new process leads a group of its own. -/
theorem Later.popen (s : ProcessHost) :
    s.Later { s with
      processes := update s.processes s.next_pid (some ⟨s.next_pid, none⟩)
      next_pid := s.next_pid + 1
      children := s.children ++ [s.next_pid] } := by
  refine Later.placed (Nat.le_succ _) (fun _ => Nat.lt_succ_self _) (.inl rfl)
    (fun h hchild => absurd (h.children_lt _ hchild) (Nat.lt_irrefl _))
    (fun _ hchild => List.mem_append_left _ hchild) (fun child hchild => ?_) (fun _ _ => rfl)
    (fun h hchild => ?_) fun h child hchild heq => ?_
  · exact (List.mem_append.mp hchild).imp_right List.mem_singleton.mp
  · rcases List.mem_append.mp hchild with hold | hnew
    · exact h.own hold
    · exact absurd h.own_lt (List.mem_singleton.mp hnew ▸ Nat.lt_irrefl _)
  · exact absurd (heq ▸ h.children_lt child hchild) (Nat.lt_irrefl _)

end ProcessHost

/-- The code moves to later states. -/
theorem later_act (o : ProcessOp) (a : ProcessAnswer) (s : ProcessHost) : s.Later (o.act a s).2 := by
  cases o with
  | popen =>
    rw [ProcessOp.act]
    split
    · exact .refl s
    · exact .popen s
  | poll pid => exact .waited s pid
  | collect pid => exact .waited s pid
  | wait pid => exact .waited s pid
  | getpgid pid =>
    rw [ProcessOp.act]
    split
    · exact .refl s
    · exact .refl s
  | send pid signal => exact .send s pid signal a.denied
  | killpg group signal => exact .killpg s group signal a.denied
  | _ => exact .of_same rfl rfl rfl rfl rfl

end MininetAi
