/-
The two searches for descendants of the observation provider
(`_process_descendants` and `_descendant_names` in
`mininet_ai/substrates/mininet_ovs/observations.py`).

A process table is read while processes come and go, so its parents may run in circles, and
a process may even be its own parent. The search through a plan does not count the resource
it starts from as found, unless something leads back to it.
-/
import MininetAi.Lib.Sweep
import MininetAi.Specification.Models

set_option autoImplicit false

namespace MininetAi

/-! ## Processes -/

/-- One line of the process table. -/
structure ProcessEntry where
  pid : ℤ
  parent_pid : ℤ
  state : String := "S"
  command : String := ""
  arguments : String := ""
  deriving DecidableEq

/-- The table, by process ids. -/
def process_table : ParentTable ProcessEntry ℤ where
  parent process := some process.parent_pid
  name := ProcessEntry.pid

/-- `_process_descendants`; a root that is not an integer has none. -/
def process_descendants (processes : List ProcessEntry) (root_pid : Option ℤ) : List ProcessEntry :=
  root_pid.elim [] fun root_pid =>
    let selected_pids := process_table.search ∅ processes {root_pid}
    processes.filter fun process => process.pid ∈ selected_pids

/-! ## Resources -/

/-- A plan, by the names of resources. -/
def resource_table : ParentTable PlannedResource String where
  parent := PlannedResource.parent
  name := PlannedResource.name

def descendant_names (resources : List PlannedResource) (target : String) : Finset String :=
  resource_table.search {target} resources ∅

/-! ## What they find -/

/-- A process and one that names it as its parent. -/
def ProcessChild (processes : List ProcessEntry) (a b : ℤ) : Prop :=
  ∃ process ∈ processes, process.parent_pid = a ∧ process.pid = b

/-- A resource and one that names it as its parent. -/
def ResourceChild (resources : List PlannedResource) (a b : String) : Prop :=
  ∃ resource ∈ resources, resource.parent = some a ∧ resource.name = b

theorem process_child_eq (processes : List ProcessEntry) :
    process_table.Child processes = ProcessChild processes := by
  funext a b
  unfold ParentTable.Child ProcessChild process_table
  simp only [Option.some.injEq]

theorem mem_selected_pids {processes : List ProcessEntry} {root_pid pid : ℤ} :
    pid ∈ process_table.search ∅ processes {root_pid} ↔
      Relation.ReflTransGen (ProcessChild processes) root_pid pid := by
  rw [ParentTable.mem_search_iff, process_child_eq, Relation.reflTransGen_iff_eq_or_transGen]
  simp

theorem mem_descendant_names {resources : List PlannedResource} {target name : String} :
    name ∈ descendant_names resources target ↔
      Relation.TransGen (ResourceChild resources) target name := by
  have hchild : resource_table.Child resources = ResourceChild resources := rfl
  unfold descendant_names
  rw [ParentTable.mem_search_iff, hchild]
  simp

open scoped Classical in
/-- For every table and every plan, with circles or without, the searches end, the one with the
entries of the root and of everything below it, in the order of the table, the other with the
names of everything below its target. -/
theorem descendants_are_closures :
    (∀ (processes : List ProcessEntry) (root_pid : ℤ), process_descendants processes (some root_pid) =
      processes.filter fun process => Relation.ReflTransGen (ProcessChild processes) root_pid process.pid) ∧
    ∀ (resources : List PlannedResource) (target name : String),
      name ∈ descendant_names resources target ↔ Relation.TransGen (ResourceChild resources) target name := by
  refine ⟨fun processes root_pid => ?_, fun resources target name => mem_descendant_names⟩
  refine List.filter_congr fun process _ => ?_
  rw [decide_eq_decide]
  exact mem_selected_pids

/-- Two processes that name each other, and one that names itself. -/
example : process_descendants
    [{ pid := 7, parent_pid := 8 }, { pid := 8, parent_pid := 7 }, { pid := 9, parent_pid := 9 }] (some 7) =
      [{ pid := 7, parent_pid := 8 }, { pid := 8, parent_pid := 7 }] := by
  decide +kernel

end MininetAi
