/-
A search that sweeps over a table until a sweep adds nothing.

Each entry of the table has a name and perhaps the name of a parent. A sweep goes through
the table once and adds the name of every entry whose parent it has found by then. Every
sweep but the last adds a name of the table, so the search ends, however the parents run in
circles; and what it ends with is what can be reached from where it starts.
-/
import Mathlib.Data.Finset.Card

set_option autoImplicit false

universe u v

/-- How an entry is read. -/
structure ParentTable (ε : Type u) (α : Type v) where
  parent : ε → Option α
  name : ε → α

namespace ParentTable

variable {ε : Type u} {α : Type v} [DecidableEq α] (T : ParentTable ε α)

/-- An entry whose parent is found, or is a root, is found; the roots need not be. -/
def visit (roots : Finset α) (state : Finset α × Bool) (e : ε) : Finset α × Bool :=
  if (T.parent e).any (fun p => p ∈ state.1 ∪ roots) ∧ T.name e ∉ state.1 then
    (insert (T.name e) state.1, true)
  else
    state

/-- One pass over the table, and whether it has added anything. -/
def sweep (roots : Finset α) (entries : List ε) (found : Finset α) : Finset α × Bool :=
  entries.foldl (T.visit roots) (found, false)

/-- The names of the table. -/
def names (entries : List ε) : Finset α := (entries.map T.name).toFinset

/-- `b` is the name of an entry under `a`. -/
def Child (entries : List ε) (a b : α) : Prop := ∃ e ∈ entries, T.parent e = some a ∧ T.name e = b

/-- What is found cannot be left over an entry. -/
def Closed (roots : Finset α) (entries : List ε) (found : Finset α) : Prop :=
  ∀ a b, T.Child entries a b → a ∈ found ∪ roots → b ∈ found

variable {T} {roots found : Finset α} {entries : List ε}

theorem mem_names {e : ε} (he : e ∈ entries) : T.name e ∈ T.names entries :=
  List.mem_toFinset.mpr (List.mem_map_of_mem he)

/-- A visit adds an unfound name of the table, or leaves the state alone. -/
theorem visit_cases (state : Finset α × Bool) (e : ε) :
    T.visit roots state e = (insert (T.name e) state.1, true) ∧ T.name e ∉ state.1 ∧
        (∃ p, T.parent e = some p ∧ p ∈ state.1 ∪ roots) ∨
      T.visit roots state e = state ∧ ∀ p, T.parent e = some p → p ∈ state.1 ∪ roots → T.name e ∈ state.1 := by
  unfold visit
  by_cases h : (T.parent e).any (fun p => p ∈ state.1 ∪ roots) = true ∧ T.name e ∉ state.1
  · rw [if_pos h]
    obtain ⟨p, hp, hfound⟩ := (Option.any_eq_true _ _).mp h.1
    exact .inl ⟨rfl, h.2, p, hp, of_decide_eq_true hfound⟩
  · rw [if_neg h]
    refine .inr ⟨rfl, fun p hp hfound => ?_⟩
    by_contra hname
    refine h ⟨?_, hname⟩
    rw [hp]
    simpa using hfound

/-- What a pass does from any state. -/
structure Swept (T : ParentTable ε α) (roots : Finset α) (entries : List ε) (s t : Finset α × Bool) : Prop where
  grows : s.1 ⊆ t.1
  known : t.1 ⊆ s.1 ∪ T.names entries
  kept : s.2 = true → t.2 = true
  added : t.2 = true → s.2 = true ∨ ∃ b ∈ T.names entries, b ∉ s.1 ∧ b ∈ t.1
  still : t.2 = false → t.1 = s.1 ∧ T.Closed roots entries s.1
  within : ∀ c : Finset α, T.Closed roots entries c → s.1 ⊆ c → t.1 ⊆ c

theorem swept_foldl (entries : List ε) (s : Finset α × Bool) :
    Swept T roots entries s (entries.foldl (T.visit roots) s) := by
  induction entries generalizing s with
  | nil =>
    refine ⟨fun _ h => h, Finset.subset_union_left, id, .inl, fun _ => ⟨rfl, ?_⟩, fun _ _ h => h⟩
    intro a b hchild
    obtain ⟨e, he, -⟩ := hchild
    cases he
  | cons e rest ih =>
    rw [List.foldl_cons]
    have hrest := ih (T.visit roots s e)
    have hnames : T.names rest ⊆ T.names (e :: rest) := by
      intro b hb
      obtain ⟨e', he', rfl⟩ := List.mem_map.mp (List.mem_toFinset.mp hb)
      exact mem_names (List.mem_cons_of_mem e he')
    have hclosed : ∀ c : Finset α, T.Closed roots (e :: rest) c → T.Closed roots rest c := by
      intro c hc a b hchild
      obtain ⟨e', he', hentry⟩ := hchild
      exact hc a b ⟨e', List.mem_cons_of_mem e he', hentry⟩
    rcases @visit_cases _ _ _ T roots s e with ⟨hvisit, hnew, p, hp, hfound⟩ | ⟨hvisit, hold⟩
    · rw [hvisit] at hrest ⊢
      have hname : T.name e ∈ T.names (e :: rest) := mem_names List.mem_cons_self
      refine ⟨fun b hb => hrest.grows (Finset.mem_insert_of_mem hb), fun b hb => ?_, fun _ => hrest.kept rfl,
        fun _ => .inr ⟨T.name e, hname, hnew, hrest.grows (Finset.mem_insert_self _ _)⟩, fun hno => ?_,
        fun c hc hs => hrest.within c (hclosed c hc) ?_⟩
      · rcases Finset.mem_union.mp (hrest.known hb) with hb | hb
        · rcases Finset.mem_insert.mp hb with rfl | hb
          · exact Finset.mem_union_right _ hname
          · exact Finset.mem_union_left _ hb
        · exact Finset.mem_union_right _ (hnames hb)
      · rw [hrest.kept rfl] at hno
        cases hno
      · refine Finset.insert_subset ?_ hs
        refine hc p (T.name e) ⟨e, List.mem_cons_self, hp, rfl⟩ ?_
        exact Finset.union_subset_union_left hs hfound
    · rw [hvisit] at hrest ⊢
      refine ⟨hrest.grows, fun b hb => ?_, hrest.kept, fun h => ?_, fun hno => ?_, fun c hc hs =>
        hrest.within c (hclosed c hc) hs⟩
      · exact Finset.union_subset_union_right hnames (hrest.known hb)
      · rcases hrest.added h with h | ⟨b, hb, hnew, hmem⟩
        · exact .inl h
        · exact .inr ⟨b, hnames hb, hnew, hmem⟩
      · obtain ⟨hsame, hclosed'⟩ := hrest.still hno
        refine ⟨hsame, fun a b hchild ha => ?_⟩
        obtain ⟨e', he', hparent, hname⟩ := hchild
        rcases List.mem_cons.mp he' with rfl | he'
        · rw [← hname]
          exact hold a hparent ha
        · exact hclosed' a b ⟨e', he', hparent, hname⟩ ha

theorem swept (found : Finset α) : Swept T roots entries (found, false) (T.sweep roots entries found) :=
  swept_foldl entries (found, false)

/-- A pass that has added something leaves fewer names to add. -/
theorem sweep_decreases (h : (T.sweep roots entries found).2 = true) :
    (T.names entries \ (T.sweep roots entries found).1).card < (T.names entries \ found).card := by
  have hswept : Swept T roots entries (found, false) (T.sweep roots entries found) := swept found
  rcases hswept.added h with hno | ⟨b, hb, hnew, hmem⟩
  · cases hno
  refine Finset.card_lt_card ⟨Finset.sdiff_subset_sdiff (fun _ h => h) hswept.grows, fun hsub => ?_⟩
  have hleft : b ∈ T.names entries \ found := Finset.mem_sdiff.mpr ⟨hb, hnew⟩
  exact (Finset.mem_sdiff.mp (hsub hleft)).2 hmem

variable (T roots entries) in
/-- Passes over the table until one of them adds nothing. -/
def search (found : Finset α) : Finset α :=
  if (T.sweep roots entries found).2 = true then search (T.sweep roots entries found).1
  else (T.sweep roots entries found).1
  termination_by (T.names entries \ found).card
  decreasing_by exact sweep_decreases ‹_›

/-- The search ends with a closed set, the least one around what it starts from. -/
theorem search_least (found : Finset α) : found ⊆ T.search roots entries found ∧
    T.Closed roots entries (T.search roots entries found) ∧
      ∀ c : Finset α, T.Closed roots entries c → found ⊆ c → T.search roots entries found ⊆ c := by
  have hswept : Swept T roots entries (found, false) (T.sweep roots entries found) := swept found
  rw [search]
  by_cases h : (T.sweep roots entries found).2 = true
  · rw [if_pos h]
    obtain ⟨hgrows, hclosed, hleast⟩ := search_least (T.sweep roots entries found).1
    exact ⟨hswept.grows.trans hgrows, hclosed, fun c hc hfound => hleast c hc (hswept.within c hc hfound)⟩
  · rw [if_neg h]
    obtain ⟨hsame, hclosed⟩ := hswept.still ((Bool.not_eq_true _).mp h)
    refine ⟨hswept.grows, ?_, hswept.within⟩
    rw [hsame]
    exact hclosed
  termination_by (T.names entries \ found).card
  decreasing_by exact sweep_decreases h

/-- What can be reached is found. -/
theorem Closed.trans {a b : α} (h : T.Closed roots entries found) (ha : a ∈ found ∪ roots)
    (hab : Relation.TransGen (T.Child entries) a b) : b ∈ found := by
  induction hab with
  | single hchild => exact h _ _ hchild ha
  | tail _ hchild ih => exact h _ _ hchild (Finset.mem_union_left _ ih)

/-- The search finds what it starts from and what can be reached from there or from a root. -/
theorem mem_search_iff {b : α} : b ∈ T.search roots entries found ↔
    b ∈ found ∨ ∃ a ∈ found ∪ roots, Relation.TransGen (T.Child entries) a b := by
  obtain ⟨hgrows, hclosed, hleast⟩ := @search_least _ _ _ T roots entries found
  constructor
  · intro hb
    classical
    let reached : Finset α := (T.search roots entries found).filter fun c =>
      c ∈ found ∨ ∃ a ∈ found ∪ roots, Relation.TransGen (T.Child entries) a c
    have hfound : found ⊆ reached := fun c hc => Finset.mem_filter.mpr ⟨hgrows hc, .inl hc⟩
    have hreached : T.Closed roots entries reached := by
      intro a c hchild ha
      rcases Finset.mem_union.mp ha with ha | ha
      · obtain ⟨ha, hway⟩ := Finset.mem_filter.mp ha
        refine Finset.mem_filter.mpr ⟨hclosed a c hchild (Finset.mem_union_left _ ha), .inr ?_⟩
        rcases hway with hstart | ⟨start, hstart, hway⟩
        · exact ⟨a, Finset.mem_union_left _ hstart, .single hchild⟩
        · exact ⟨start, hstart, hway.tail hchild⟩
      · have hroot : a ∈ found ∪ roots := Finset.mem_union_right _ ha
        refine Finset.mem_filter.mpr ⟨hclosed a c hchild (Finset.mem_union_right _ ha), .inr ?_⟩
        exact ⟨a, hroot, .single hchild⟩
    exact (Finset.mem_filter.mp (hleast reached hreached hfound hb)).2
  · rintro (hb | ⟨a, ha, hab⟩)
    · exact hgrows hb
    · exact hclosed.trans (Finset.union_subset_union_left hgrows ha) hab

end ParentTable
