/-
One loop of `_finish_prepared` and what it reports.

As long as a candidate is still to come or has been executed its decision says `execute`;
once it has been turned down (the bundle has halted, it lost to another, it no longer
passes validation) its decision says `reject` and it has a result without success. Behind
the loop and the results of the dropped candidates, every candidate has been executed or
has such a result.
-/
import MininetAi.Coordination.Report

set_option autoImplicit false

namespace MininetAi

open List

variable {I R : Type}

/-! ## The loop of an invocation -/

/-- The loop before the candidates `rest`. -/
structure LoopReport (arbitration : ArbitrationPlan) (l : FinishLoop) (rest : List ArbitrationCandidate) :
    Prop where
  decides : DecidesFor arbitration.candidates l.decisions fun c => c ∈ l.executed ∨ c ∈ rest
  executed : ∀ c ∈ l.executed, c ∈ arbitration.ordered
  coming : rest.Sublist arbitration.ordered
  fresh : ∀ c ∈ rest, c ∉ l.executed
  refused : ∀ c ∈ arbitration.ordered, c ∉ l.executed → c ∉ rest →
    ∃ r, l.action_results.lookup c.candidate_id = some r ∧ r.status ≠ .succeeded

/-- The candidate has been turned down: it has a result without success, and its decision
says so. -/
structure TurnedDown (l l' : FinishLoop) (c : ArbitrationCandidate) : Prop where
  result : ∃ r, r.status ≠ .succeeded ∧ l'.action_results = l.action_results.insert c.candidate_id r
  decision : ∃ winner, l'.decisions = mark_rejected l.decisions c.candidate_id winner
  executed : l'.executed = l.executed

theorem reject_not_succeeded (prepared : PreparedAgentInvocation) (proposal : ActionProposal) (code message : String) :
    (reject prepared proposal code message).status ≠ .succeeded := by simp [reject]

theorem turned_down_stop (l : FinishLoop) (prepared : PreparedAgentInvocation) (c : ArbitrationCandidate) :
    TurnedDown l (l.stop prepared c) c :=
  ⟨⟨_, reject_not_succeeded prepared _ _ _, rfl⟩, ⟨none, rfl⟩, rfl⟩

theorem turned_down_conflict (l : FinishLoop) (prepared : PreparedAgentInvocation) (c winner : ArbitrationCandidate) :
    TurnedDown l (l.conflict prepared c winner) c :=
  ⟨⟨_, reject_not_succeeded prepared _ _ _, rfl⟩, ⟨some winner.candidate_id, rfl⟩, rfl⟩

theorem turned_down_invalid (l : FinishLoop) (prepared : PreparedAgentInvocation) (c : ArbitrationCandidate)
    {rejection : ActionResult} (h : rejection.status ≠ .succeeded) : TurnedDown l (l.invalid prepared c rejection) c :=
  ⟨⟨rejection, h, rfl⟩, ⟨none, rfl⟩, rfl⟩

section Loop

variable {context : AgentContext} {arbitration : ArbitrationPlan} {l l' : FinishLoop} {c : ArbitrationCandidate}
  {rest : List ArbitrationCandidate}

/-- A candidate the arbiter let through has its own id. -/
theorem Arbitrated.ordered_ids (h : Arbitrated context arbitration) : DistinctIds arbitration.ordered :=
  h.distinct.sublist (h.ordered.map _)

/-- The loop starts with the arbiter's decisions. -/
theorem loop_report_start (h : Arbitrated context arbitration) (response : AgentResponse)
    (action_results : ActionResults) :
    LoopReport arbitration (FinishLoop.start response arbitration action_results) arbitration.ordered where
  decides := h.decides.congr fun c _ => by simp [FinishLoop.start]
  executed c hc := absurd hc not_mem_nil
  coming := Sublist.refl _
  fresh c _ := not_mem_nil
  refused c hc _ hout := absurd hc hout

/-- The next candidate is turned down. -/
theorem LoopReport.turned_down (h : LoopReport arbitration l (c :: rest)) (harb : Arbitrated context arbitration)
    (hdown : TurnedDown l l' c) : LoopReport arbitration l' rest := by
  obtain ⟨⟨r, hr, hresults⟩, ⟨winner, hdecisions⟩, hexecuted⟩ := hdown
  have hordered : c ∈ arbitration.ordered := h.coming.subset mem_cons_self
  have hc : c ∈ arbitration.candidates := harb.ordered.subset hordered
  have hnodup : (c :: rest).Nodup := (Nodup.of_map _ harb.ordered_ids).sublist h.coming
  have hrest : c ∉ rest := (List.nodup_cons.mp hnodup).1
  have hout : c ∉ l.executed := h.fresh c mem_cons_self
  refine ⟨?_, ?_, (sublist_cons_self c rest).trans h.coming, ?_, ?_⟩
  · rw [hdecisions]
    refine h.decides.mark harb.distinct hc ?_ (fun a _ hne => ?_) winner
    · rw [hexecuted]
      exact fun hor => hor.elim hout hrest
    · rw [hexecuted, mem_cons]
      simp only [hne, false_or]
  · rw [hexecuted]
    exact h.executed
  · rw [hexecuted]
    exact fun d hd => h.fresh d (mem_cons_of_mem c hd)
  · intro d hd hnone hdrest
    rw [hexecuted] at hnone
    rw [hresults]
    by_cases hdc : d = c
    · exact ⟨r, by rw [hdc, AList.lookup_insert], hr⟩
    · have hid : d.candidate_id ≠ c.candidate_id := fun heq => hdc (harb.ordered_ids.eq_of_id hd hordered heq)
      rw [AList.lookup_insert_ne hid]
      refine h.refused d hd hnone ?_
      rw [mem_cons]
      exact fun hor => hor.elim hdc hdrest

/-- The next candidate is executed. -/
theorem LoopReport.execute (h : LoopReport arbitration l (c :: rest)) (harb : Arbitrated context arbitration)
    (prepared : PreparedAgentInvocation) (result : ActionResult) :
    LoopReport arbitration (l.execute prepared c result) rest := by
  have hordered : c ∈ arbitration.ordered := h.coming.subset mem_cons_self
  have hnodup : (c :: rest).Nodup := (Nodup.of_map _ harb.ordered_ids).sublist h.coming
  have hmem : ∀ a, a ∈ (l.execute prepared c result).executed ↔ a ∈ l.executed ∨ a = c := by
    intro a
    rw [FinishLoop.execute, mem_append, mem_singleton]
  refine ⟨h.decides.congr fun a _ => ?_, fun a ha => ?_, (sublist_cons_self c rest).trans h.coming,
    fun a ha => ?_, fun a ha hnone hrest => ?_⟩
  · rw [hmem, mem_cons, or_assoc]
  · rcases (hmem a).mp ha with hold | rfl
    · exact h.executed a hold
    · exact hordered
  · rw [hmem]
    rintro (hold | rfl)
    · exact h.fresh a (mem_cons_of_mem c ha) hold
    · exact (List.nodup_cons.mp hnodup).1 ha
  · rw [hmem, not_or] at hnone
    have hid : a.candidate_id ≠ c.candidate_id := fun heq => hnone.2 (harb.ordered_ids.eq_of_id ha hordered heq)
    rw [FinishLoop.execute, AList.lookup_insert_ne hid]
    refine h.refused a ha hnone.1 ?_
    rw [mem_cons]
    exact fun hor => hor.elim hnone.2 hrest

/-- A loop that is over: every candidate has been executed or has a result without
success. -/
structure LoopOver (arbitration : ArbitrationPlan) (l : FinishLoop) : Prop where
  decides : DecidesFor arbitration.candidates l.decisions fun c => c ∈ l.executed
  executed : ∀ c ∈ l.executed, c ∈ arbitration.ordered
  refused : ∀ c ∈ arbitration.candidates, c ∉ l.executed →
    ∃ r, l.action_results.lookup c.candidate_id = some r ∧ r.status ≠ .succeeded

/-- What the last loop of `_finish_prepared` leaves at an id: the results of the dropped
candidates are entered, the others stay. -/
theorem lookup_drop_rejected (prepared : PreparedAgentInvocation) (l : FinishLoop) (id : String) :
    (l.drop_rejected prepared arbitration).action_results.lookup id = l.action_results.lookup id ∧
        (id ∈ arbitration.rejected → ∀ c ∈ arbitration.candidates, c.candidate_id ≠ id) ∨
      id ∈ arbitration.rejected ∧ ∃ r, r.status ≠ .succeeded ∧
        (l.drop_rejected prepared arbitration).action_results.lookup id = some r := by
  rw [FinishLoop.drop_rejected]
  induction arbitration.candidates using reverseRecOn with
  | nil => exact Or.inl ⟨rfl, fun _ c hc => absurd hc not_mem_nil⟩
  | append_singleton cs c ih =>
    simp only [foldl_append, foldl_cons, foldl_nil] at ih ⊢
    by_cases hc : c.candidate_id ∈ arbitration.rejected
    · rw [if_pos hc]
      by_cases hid : id = c.candidate_id
      · right
        rw [hid]
        exact ⟨hc, _, reject_not_succeeded prepared _ _ _, AList.lookup_insert _⟩
      · rw [AList.lookup_insert_ne hid]
        refine ih.imp_left fun hold => ⟨hold.1, fun hrej a ha => ?_⟩
        rcases mem_append.mp ha with hin | hlast
        · exact hold.2 hrej a hin
        · rw [mem_singleton.mp hlast]
          exact fun heq => hid heq.symm
    · rw [if_neg hc]
      refine ih.imp_left fun hold => ⟨hold.1, fun hrej a ha => ?_⟩
      rcases mem_append.mp ha with hin | hlast
      · exact hold.2 hrej a hin
      · rw [mem_singleton.mp hlast]
        rintro rfl
        exact hc hrej

/-- Behind both loops. -/
theorem LoopReport.ended (h : LoopReport arbitration l []) (harb : Arbitrated context arbitration)
    (prepared : PreparedAgentInvocation) : LoopOver arbitration (l.drop_rejected prepared arbitration) where
  decides := h.decides.congr fun c _ => by simp [FinishLoop.drop_rejected]
  executed := h.executed
  refused c hc hnone := by
    rcases @lookup_drop_rejected arbitration prepared l c.candidate_id with ⟨hsame, hfree⟩ | ⟨-, r, hr, hlookup⟩
    · have hordered : c ∈ arbitration.ordered := by
        by_contra hout
        exact hfree ((harb.dropped c hc).mpr hout) c hc rfl
      rw [hsame]
      exact h.refused c hordered hnone not_mem_nil
    · exact ⟨r, hlookup, hr⟩

end Loop

/-! ## Results and proposals -/

/-- The results `complete` is called with: one for each proposal, in their order. -/
structure HandsBack (prepared : PreparedAgentInvocation) (l : FinishLoop) (results : List ActionResult) : Prop where
  ordered : ordered_results prepared l.action_results = some results
  requests : results.map ActionResult.request_id = prepared.response.proposals.map ActionProposal.id

/-- Lists with equal images of which one is read off the other. -/
theorem mem_of_mapM {α β γ : Type} {f : α → Option β} {key : α → γ} {key' : β → γ} {l : List α} {m : List β}
    (h : l.mapM f = some m) (hkeys : m.map key' = l.map key) {a : α} (ha : a ∈ l) :
    ∃ b ∈ m, f a = some b ∧ key' b = key a := by
  rw [← mapM'_eq_mapM] at h
  induction l generalizing m with
  | nil => exact absurd ha not_mem_nil
  | cons x l ih =>
    rw [mapM'_cons] at h
    obtain ⟨y, hy, h⟩ := Option.bind_eq_some_iff.mp h
    obtain ⟨m', hm', h⟩ := Option.bind_eq_some_iff.mp h
    obtain rfl := Option.some.inj h
    obtain ⟨hkey, hrest⟩ := List.cons.inj hkeys
    rcases mem_cons.mp ha with rfl | ha
    · exact ⟨y, mem_cons_self, hy, hkey⟩
    · obtain ⟨b, hb, hfb, hbkey⟩ := ih hm' hrest ha
      exact ⟨b, mem_cons_of_mem y hb, hfb, hbkey⟩

/-- Every proposal has its result among them. -/
theorem HandsBack.result {prepared : PreparedAgentInvocation} {l : FinishLoop} {results : List ActionResult}
    (h : HandsBack prepared l results) {p : ActionProposal} (hp : p ∈ prepared.response.proposals) :
    ∃ r ∈ results, l.action_results.lookup (candidate_id prepared.context p) = some r ∧ r.request_id = p.id :=
  mem_of_mapM h.ordered h.requests hp

end MininetAi
