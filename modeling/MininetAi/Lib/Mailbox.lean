/-
A queue whose readers take what they select.

Messages are accepted at the end; a reader takes the first one its filter selects, from
wherever it stands. What the queue holds is then what was accepted and has not been
taken, and each filter gets its messages in the order they were accepted: whatever a
filter selects and what stands before something it has taken is gone.
-/
import MininetAi.Lib.Waiting

set_option autoImplicit false

universe u v

/-- What was accepted, and what was taken by whom. -/
structure Mail (α : Type u) (β : Type v) where
  accepted : List α := []
  taken : List (β × α) := []

namespace Mail

variable {α : Type u} {β : Type v} [DecidableEq α] [DecidableEq β]

/-- The messages that were taken. -/
def delivered (m : Mail α β) : List α := m.taken.map Prod.snd

/-- The messages that one filter took. -/
def delivered_for (m : Mail α β) (f : β) : List α :=
  (m.taken.filter fun e => e.1 = f).map Prod.snd

/-- What has not been taken. -/
def pending (m : Mail α β) : List α := m.accepted.filter fun a => a ∉ m.delivered

def accept (m : Mail α β) (a : α) : Mail α β := { m with accepted := m.accepted ++ [a] }

def take (m : Mail α β) (f : β) (a : α) : Mail α β := { m with taken := m.taken ++ [(f, a)] }

/-- Nothing is accepted or taken twice, and nothing is passed over. -/
structure Fair (selects : β → α → Bool) (m : Mail α β) : Prop where
  accepted_once : m.accepted.Nodup
  taken_once : m.delivered.Nodup
  known : ∀ a ∈ m.delivered, a ∈ m.accepted
  passed : ∀ e ∈ m.taken, ∀ a ∈ m.accepted, m.accepted.idxOf a < m.accepted.idxOf e.2 →
    selects e.1 a = true → a ∈ m.delivered
  ordered : ∀ f, (m.delivered_for f).Pairwise fun a b => m.accepted.idxOf a < m.accepted.idxOf b

variable {selects : β → α → Bool} {m : Mail α β} {f : β} {a : α}

omit [DecidableEq α] [DecidableEq β] in
theorem delivered_take : (m.take f a).delivered = m.delivered ++ [a] := by
  simp [delivered, take]

omit [DecidableEq α] in
theorem delivered_for_subset (f : β) : ∀ b ∈ m.delivered_for f, b ∈ m.delivered := by
  intro b hb
  obtain ⟨e, he, rfl⟩ := List.mem_map.mp hb
  exact List.mem_map_of_mem (List.mem_of_mem_filter he)

omit [DecidableEq β] in
theorem mem_pending : a ∈ m.pending ↔ a ∈ m.accepted ∧ a ∉ m.delivered := by
  simp [pending]

theorem fair_empty : Fair selects ({} : Mail α β) where
  accepted_once := List.nodup_nil
  taken_once := List.nodup_nil
  known a ha := by simp [delivered] at ha
  passed e he := by simp at he
  ordered f := List.Pairwise.nil

omit [DecidableEq β] in
/-- What is accepted waits at the end. -/
theorem pending_accept (ha : a ∉ m.delivered) : (m.accept a).pending = m.pending ++ [a] := by
  have hsame : (m.accept a).delivered = m.delivered := rfl
  unfold pending
  rw [hsame, accept, List.filter_append]
  simp [ha]

/-- A new message is accepted. -/
theorem Fair.accept (h : Fair selects m) (ha : a ∉ m.accepted) : Fair selects (m.accept a) where
  accepted_once := by
    have hdisjoint : m.accepted.Disjoint [a] := List.disjoint_singleton.mpr ha
    exact h.accepted_once.append (List.nodup_singleton a) hdisjoint
  taken_once := h.taken_once
  known b hb := List.mem_append_left [a] (h.known b hb)
  passed e he b hb hlt hselects := by
    have hknown : e.2 ∈ m.accepted := h.known e.2 (List.mem_map_of_mem he)
    have hposition : (m.accept a).accepted.idxOf e.2 = m.accepted.idxOf e.2 :=
      List.idxOf_append_singleton hknown a
    rw [hposition] at hlt
    rcases List.mem_append.mp hb with hold | hnew
    · have hbefore : (m.accept a).accepted.idxOf b = m.accepted.idxOf b := List.idxOf_append_singleton hold a
      rw [hbefore] at hlt
      exact h.passed e he b hold hlt hselects
    · -- the new one stands behind everything that was taken
      rw [List.mem_singleton] at hnew
      subst hnew
      have hlast : (m.accept b).accepted.idxOf b = m.accepted.length := by
        simp [Mail.accept, List.idxOf_append_of_notMem ha]
      have hin : m.accepted.idxOf e.2 < m.accepted.length := List.idxOf_lt_length_iff.mpr hknown
      omega
  ordered f := by
    refine (h.ordered f).imp_of_mem fun {b c} hb hc hlt => ?_
    have hb' : b ∈ m.accepted := h.known b (delivered_for_subset f b hb)
    have hc' : c ∈ m.accepted := h.known c (delivered_for_subset f c hc)
    show (m.accepted ++ [a]).idxOf b < (m.accepted ++ [a]).idxOf c
    rw [List.idxOf_append_singleton hb', List.idxOf_append_singleton hc']
    exact hlt

/-- In a list without duplicates positions are in order. -/
theorem pairwise_idxOf {l : List α} (h : l.Nodup) : l.Pairwise fun a b => l.idxOf a < l.idxOf b := by
  rw [List.pairwise_iff_getElem]
  intro i j hi hj hlt
  rw [h.idxOf_getElem i hi, h.idxOf_getElem j hj]
  exact hlt

omit [DecidableEq β] in
/-- What a filter takes is the first of what it selects. -/
theorem find_pending (h : m.accepted.Nodup) (ha : m.pending.find? (selects f) = some a) :
    a ∈ m.accepted ∧ a ∉ m.delivered ∧ selects f a = true ∧
      ∀ b ∈ m.pending, m.accepted.idxOf b < m.accepted.idxOf a → selects f b = false := by
  obtain ⟨hselects, before, after, hsplit, hbefore⟩ := List.find?_eq_some_iff_append.mp ha
  have hmem : a ∈ m.pending := List.mem_of_find?_eq_some ha
  refine ⟨(mem_pending.mp hmem).1, (mem_pending.mp hmem).2, hselects, fun b hb hlt => ?_⟩
  have hpairwise : m.pending.Pairwise fun b c => m.accepted.idxOf b < m.accepted.idxOf c :=
    (pairwise_idxOf h).sublist List.filter_sublist
  rw [hsplit] at hb hpairwise
  have htail := (List.pairwise_append.mp hpairwise).2.1
  rcases List.mem_append.mp hb with hfirst | hrest
  · simpa using hbefore b hfirst
  · rcases List.mem_cons.mp hrest with rfl | hlater
    · omega
    · have hgt := (List.pairwise_cons.mp htail).1 b hlater
      omega

omit [DecidableEq β] in
/-- What is taken is gone. -/
theorem pending_take (h : m.accepted.Nodup) : (m.take f a).pending = m.pending.erase a := by
  have hnodup : m.pending.Nodup := h.filter _
  rw [hnodup.erase_eq_filter]
  unfold pending
  rw [delivered_take, List.filter_filter]
  refine List.filter_congr fun b _ => ?_
  by_cases hb : b = a
  · simp [hb]
  · simp [hb]

omit [DecidableEq α] in
theorem delivered_for_take (g : β) :
    (m.take f a).delivered_for g = m.delivered_for g ++ if f = g then [a] else [] := by
  unfold delivered_for
  rw [take, List.filter_append, List.map_append]
  by_cases hfg : f = g
  · simp [hfg]
  · simp [hfg]

/-- A filter takes the first message it selects. -/
theorem Fair.take (h : Fair selects m) (ha : m.pending.find? (selects f) = some a) :
    Fair selects (m.take f a) := by
  obtain ⟨hknown, hnew, hselects, hfirst⟩ := find_pending h.accepted_once ha
  have hkeep : ∀ b ∈ m.delivered, b ∈ (m.take f a).delivered := by
    intro b hb
    rw [delivered_take]
    exact List.mem_append_left [a] hb
  refine ⟨h.accepted_once, ?_, fun b hb => ?_, fun e he b hb hlt hb' => ?_, fun g => ?_⟩
  · rw [delivered_take]
    exact h.taken_once.append (List.nodup_singleton a) (List.disjoint_singleton.mpr hnew)
  · rw [delivered_take] at hb
    rcases List.mem_append.mp hb with hold | hlast
    · exact h.known b hold
    · rw [List.mem_singleton.mp hlast]
      exact hknown
  · rcases List.mem_append.mp he with hold | hlast
    · exact hkeep b (h.passed e hold b hb hlt hb')
    · rw [List.mem_singleton] at hlast
      subst hlast
      by_contra hwaits
      have hpending : b ∈ m.pending := mem_pending.mpr ⟨hb, fun hb => hwaits (hkeep b hb)⟩
      have hno := hfirst b hpending hlt
      rw [hno] at hb'
      exact Bool.false_ne_true hb'
  · rw [delivered_for_take]
    refine List.pairwise_append.mpr ⟨h.ordered g, ?_, fun b hb c hc => ?_⟩
    · by_cases hfg : f = g
      · simp [hfg]
      · simp [hfg]
    · by_cases hfg : f = g
      · rw [if_pos hfg, List.mem_singleton] at hc
        subst hc
        subst hfg
        obtain ⟨e, he, rfl⟩ := List.mem_map.mp hb
        obtain ⟨he, hfilter⟩ := List.mem_filter.mp he
        have hf : e.1 = f := of_decide_eq_true hfilter
        by_contra hlt
        -- the later one would have been passed over when the earlier one was taken
        have hne : e.2 ≠ c := fun heq => hnew (heq ▸ List.mem_map_of_mem he)
        have hpositions : m.accepted.idxOf e.2 ≠ m.accepted.idxOf c := fun heq =>
          hne ((List.idxOf_inj (h.known _ (List.mem_map_of_mem he))).mp heq)
        have hbefore : m.accepted.idxOf c < m.accepted.idxOf e.2 := by
          have hle : ¬ m.accepted.idxOf e.2 < m.accepted.idxOf c := hlt
          omega
        exact hnew (h.passed e he c hknown hbefore (hf ▸ hselects))
      · rw [if_neg hfg] at hc
        cases hc

end Mail
