/-
Frames out of a stream: a receiver reads what has arrived, a bounded piece at a time, until
a delimiter is in it or more has come than a frame may hold.

What one read brings depends on how the stream was cut up on its way, and so does what else
comes with the delimiter. `Delivers` says what a receiver needs for a frame without its loop:
pieces of the full size, the delimiter in the last one, and all of them within the limit.
A stream that brings a frame and its delimiter and stops there delivers that frame, however
it was cut up (`Delivers.of_stream`).
-/
import Mathlib.Data.List.TakeWhile

set_option autoImplicit false

universe u v

namespace Frames

variable {α : Type u} {ε : Type v}

/-! ## Streams -/

/-- What a receiver that waits finds next: some data, or a failure. When nothing is left the
other side has closed the stream. -/
inductive Arrival (α : Type u) (ε : Type v) where
  | data (first : α) (rest : List α)
  | failure (e : ε)
  deriving DecidableEq

/-- Data that is found before what comes after it. -/
def Arrival.before : List α → List (Arrival α ε) → List (Arrival α ε)
  | [], rest => rest
  | a :: as, rest => .data a as :: rest

/-- All the data of a stream up to its first failure. -/
def Arrival.stream : List (Arrival α ε) → List α
  | [] => []
  | .data a as :: rest => a :: (as ++ stream rest)
  | .failure _ :: _ => []

@[simp] theorem Arrival.stream_before (as : List α) (rest : List (Arrival α ε)) :
    Arrival.stream (Arrival.before as rest) = as ++ Arrival.stream rest := by
  cases as with
  | nil => rfl
  | cons a as => rfl

/-- Reads at most `n` of what is there: nothing at the end of the stream. -/
def recv (n : ℕ) : List (Arrival α ε) → Except ε (List α × List (Arrival α ε))
  | [] => .ok ([], [])
  | .failure e :: _ => .error e
  | .data a as :: rest => .ok ((a :: as).take n, Arrival.before ((a :: as).drop n) rest)

variable {n m : ℕ} {s s' : List (Arrival α ε)} {piece : List α}

/-- What is read and what is left is the stream. -/
theorem recv_stream (h : recv n s = .ok (piece, s')) :
    Arrival.stream s = piece ++ Arrival.stream s' := by
  unfold recv at h
  split at h
  · cases h
    rfl
  · cases h
  · rename_i a as rest
    cases h
    rw [Arrival.stream_before, ← List.append_assoc, List.take_append_drop]
    rfl

/-- A read that asks for less gets the same, or as much as it asked for. -/
theorem recv_min (h : recv (min m n) s = .ok (piece, s')) :
    recv m s = .ok (piece, s') ∨ piece.length = n := by
  by_cases hle : m ≤ n
  · rw [Nat.min_eq_left hle] at h
    exact Or.inl h
  · rw [Nat.min_eq_right (by omega)] at h
    unfold recv at h ⊢
    split at h
    · exact Or.inl h
    · exact Or.inl h
    · rename_i a as rest
      by_cases hlong : n ≤ (a :: as).length
      · right
        cases h
        rw [List.length_take, Nat.min_eq_left hlong]
      · -- all that is there is less than either asks for
        left
        have hall : (a :: as).length ≤ n := by omega
        have hall' : (a :: as).length ≤ m := by omega
        rw [List.take_of_length_le hall, List.drop_of_length_le hall] at h
        rw [List.take_of_length_le hall', List.drop_of_length_le hall']
        exact h

/-- A read that brought less than `n` would bring the same if it asked for no more than that. -/
theorem recv_min_of_lt (h : recv m s = .ok (piece, s')) (hlt : piece.length < n) :
    recv (min m n) s = .ok (piece, s') := by
  by_cases hle : m ≤ n
  · rw [Nat.min_eq_left hle]
    exact h
  · rw [Nat.min_eq_right (by omega)]
    unfold recv at h ⊢
    split at h
    · exact h
    · exact h
    · rename_i a as rest
      cases h
      have hall : (a :: as).length ≤ n := by
        rw [List.length_take] at hlt
        omega
      have hall' : (a :: as).length ≤ m := by omega
      simp only [List.take_of_length_le hall, List.take_of_length_le hall', List.drop_of_length_le hall,
        List.drop_of_length_le hall']

/-- While there is data a read brings some of it. -/
theorem recv_of_stream (hn : 0 < n) (h : Arrival.stream s ≠ []) :
    ∃ piece s', piece ≠ [] ∧ recv n s = .ok (piece, s') := by
  unfold Arrival.stream at h
  split at h
  · exact absurd rfl h
  · rename_i a as rest
    refine ⟨(a :: as).take n, _, ?_, rfl⟩
    rw [ne_eq, List.take_eq_nil_iff, not_or]
    exact ⟨by omega, List.cons_ne_nil a as⟩
  · exact absurd rfl h

/-! ## The receiver -/

/-- How a receiver ends. -/
inductive Received (α : Type u) (ε : Type v) where
  | frame (f : List α)
  | closed
  | too_long
  | failed (e : ε)
  deriving DecidableEq

/-- Reads pieces of at most `size`, and no more than one over the `limit`, until the delimiter
is in one of them. Every pass takes something, so the passes end. -/
def receive [DecidableEq α] (limit size : ℕ) (d : α) :
    ℕ → List α → List (Arrival α ε) → Received α ε
  | 0, _, _ => .too_long
  | passes + 1, data, s =>
    match recv (min size (limit + 1 - data.length)) s with
    | .error e => .failed e
    | .ok ([], _) => .closed
    | .ok (a :: as, s') =>
      if limit < (data ++ a :: as).length then .too_long
      else if d ∈ a :: as then .frame ((data ++ a :: as).takeWhile (· ≠ d))
      else receive limit size d passes (data ++ a :: as) s'

/-! ## What is delivered -/

/-- Reads of `size` bring these pieces one after the other. -/
inductive Reads (size : ℕ) : List (Arrival α ε) → List (List α) → List (Arrival α ε) → Prop
  | nil (s : List (Arrival α ε)) : Reads size s [] s
  | cons {s s' s'' : List (Arrival α ε)} {piece : List α} {pieces : List (List α)} (hpiece : piece ≠ [])
      (h : recv size s = .ok (piece, s')) (hrest : Reads size s' pieces s'') : Reads size s (piece :: pieces) s''

/-- The delimiter comes for the first time in a piece that ends within the limit, and the frame
is what came before it. -/
def Delivers (limit size : ℕ) (d : α) (s : List (Arrival α ε)) (f : List α) : Prop :=
  ∃ pieces rest s', Reads size s pieces s' ∧ pieces.flatten.length ≤ limit ∧
    d ∉ pieces.dropLast.flatten ∧ d ∉ f ∧ pieces.flatten = f ++ d :: rest

section Receiver

variable [DecidableEq α] {limit size : ℕ} {d : α}

variable {f data rest : List α} {passes : ℕ} {s s' : List (Arrival α ε)}

/-- What was read before the delimiter is what the frame starts with. -/
theorem takeWhile_ne_iff {l : List α} :
    d ∈ l ∧ l.takeWhile (· ≠ d) = f ↔ d ∉ f ∧ ∃ rest, l = f ++ d :: rest := by
  constructor
  · rintro ⟨hmem, rfl⟩
    have hnot : d ∉ l.takeWhile (· ≠ d) := fun h => by simpa using List.mem_takeWhile_imp h
    refine ⟨hnot, ?_⟩
    have hsplit := List.takeWhile_append_dropWhile (p := fun x => decide (x ≠ d)) (l := l)
    rcases hdrop : l.dropWhile (fun x => decide (x ≠ d)) with _ | ⟨x, rest⟩
    · have hnone := List.dropWhile_eq_nil_iff.mp hdrop d hmem
      exact absurd rfl (of_decide_eq_true hnone)
    · have hhead := List.head?_dropWhile_not (fun x => decide (x ≠ d)) l
      rw [hdrop] at hhead
      have hx : x = d := by simpa using hhead
      rw [hdrop, hx] at hsplit
      exact ⟨rest, hsplit.symm⟩
  · rintro ⟨hf, rest, rfl⟩
    refine ⟨by simp, ?_⟩
    rw [List.takeWhile_append_of_pos (by simpa using fun x hx => ne_of_mem_of_not_mem hx hf)]
    simp

/-- One pass that goes on: it read something, the delimiter is not in it and there is room for more. -/
theorem receive_succ {piece : List α} (hpiece : piece ≠ [])
    (h : recv (min size (limit + 1 - data.length)) s = .ok (piece, s')) :
    receive limit size d (passes + 1) data s = if limit < (data ++ piece).length then .too_long
      else if d ∈ piece then .frame ((data ++ piece).takeWhile (· ≠ d))
      else receive limit size d passes (data ++ piece) s' := by
  cases piece with
  | nil => exact absurd rfl hpiece
  | cons a as => rw [receive, h]

/-- A frame that is received was delivered, with the data that was read before. -/
theorem receive_frame (hdata : d ∉ data) (h : receive limit size d passes data s = .frame f) :
    ∃ pieces rest s', Reads size s pieces s' ∧ (data ++ pieces.flatten).length ≤ limit ∧
      d ∉ pieces.dropLast.flatten ∧ d ∉ f ∧ data ++ pieces.flatten = f ++ d :: rest := by
  induction passes generalizing data s with
  | zero => cases h
  | succ passes ih =>
    rcases hrecv : recv (min size (limit + 1 - data.length)) s with e | ⟨piece, s'⟩
    · rw [receive, hrecv] at h
      cases h
    by_cases hpiece : piece = []
    · rw [receive, hrecv, hpiece] at h
      cases h
    rw [receive_succ hpiece hrecv] at h
    split at h
    · cases h
    rename_i hroom
    have hlen : (data ++ piece).length ≤ limit := Nat.le_of_not_lt hroom
    -- there was room for more, so the read brought all that it could
    have hfull : recv size s = .ok (piece, s') := by
      refine (recv_min hrecv).resolve_right fun hcut => ?_
      rw [List.length_append] at hlen
      omega
    split at h
    · rename_i hmem
      cases h
      obtain ⟨hf, rest, hsplit⟩ := takeWhile_ne_iff.mp ⟨List.mem_append_right data hmem, rfl⟩
      refine ⟨[piece], rest, s', .cons hpiece hfull (.nil s'), ?_, List.not_mem_nil, hf, ?_⟩
      · rw [List.flatten_singleton]
        exact hlen
      · rw [List.flatten_singleton]
        exact hsplit
    · rename_i hmem
      have hnot : d ∉ data ++ piece := by
        rw [List.mem_append]
        exact not_or.mpr ⟨hdata, hmem⟩
      obtain ⟨pieces, rest, s'', hreads, hlimit, hbefore, hf, hsplit⟩ := ih hnot h
      have hne : pieces ≠ [] := by
        rintro rfl
        rw [List.flatten_nil, List.append_nil] at hsplit
        rw [hsplit] at hnot
        exact hnot (by simp)
      rw [List.append_assoc] at hlimit hsplit
      refine ⟨piece :: pieces, rest, s'', .cons hpiece hfull hreads, hlimit, ?_, hf, hsplit⟩
      rw [List.dropLast_cons_of_ne_nil hne, List.flatten_cons, List.mem_append]
      exact not_or.mpr ⟨hmem, hbefore⟩

/-- What is delivered is received. -/
theorem receive_of_reads {pieces : List (List α)} (hdata : d ∉ data)
    (hpasses : limit < passes + data.length) (hreads : Reads size s pieces s')
    (hlimit : (data ++ pieces.flatten).length ≤ limit) (hbefore : d ∉ pieces.dropLast.flatten)
    (hf : d ∉ f) (hsplit : data ++ pieces.flatten = f ++ d :: rest) :
    receive limit size d passes data s = .frame f := by
  induction hreads generalizing passes data with
  | nil s =>
    rw [List.flatten_nil, List.append_nil] at hsplit
    rw [hsplit] at hdata
    exact absurd (by simp) hdata
  | @cons s s₁ s₂ piece pieces hpiece h hrest ih =>
    rw [List.flatten_cons, ← List.append_assoc] at hlimit hsplit
    have hlen : (data ++ piece).length ≤ limit := by
      rw [List.length_append] at hlimit
      omega
    obtain ⟨passes, rfl⟩ : ∃ n, passes = n + 1 := Nat.exists_eq_add_one.mpr (by
      rw [List.length_append] at hlen
      omega)
    have hrecv : recv (min size (limit + 1 - data.length)) s = .ok (piece, s₁) := by
      refine recv_min_of_lt h ?_
      rw [List.length_append] at hlen
      omega
    rw [receive_succ hpiece hrecv, if_neg (Nat.not_lt.mpr hlen)]
    by_cases hmem : d ∈ piece
    · -- nothing comes after the piece with the delimiter
      have hlast : pieces = [] := by
        by_contra hne
        rw [List.dropLast_cons_of_ne_nil hne, List.flatten_cons, List.mem_append] at hbefore
        exact hbefore (Or.inl hmem)
      rw [hlast, List.flatten_nil, List.append_nil] at hsplit
      rw [if_pos hmem, (takeWhile_ne_iff.mpr ⟨hf, rest, hsplit⟩).2]
    · rw [if_neg hmem]
      have hnot : d ∉ data ++ piece := by
        rw [List.mem_append]
        exact not_or.mpr ⟨hdata, hmem⟩
      refine ih hnot ?_ hlimit (fun hin => hbefore ?_) hsplit
      · have hpos : 0 < piece.length := List.length_pos_iff.mpr hpiece
        rw [List.length_append]
        omega
      · have hne : pieces ≠ [] := by
          rintro rfl
          cases hin
        rw [List.dropLast_cons_of_ne_nil hne, List.flatten_cons, List.mem_append]
        exact Or.inr hin

/-- The receiver returns the frames that are delivered, and no others. -/
theorem receive_iff :
    receive limit size d (limit + 1) [] s = .frame f ↔ Delivers limit size d s f := by
  constructor
  · intro h
    obtain ⟨pieces, rest, s', hreads, hlimit, hbefore, hf, hsplit⟩ := receive_frame List.not_mem_nil h
    rw [List.nil_append] at hlimit hsplit
    exact ⟨pieces, rest, s', hreads, hlimit, hbefore, hf, hsplit⟩
  · rintro ⟨pieces, rest, s', hreads, hlimit, hbefore, hf, hsplit⟩
    exact receive_of_reads List.not_mem_nil (by simp) hreads hlimit hbefore hf hsplit

omit [DecidableEq α] in
/-- However a stream was cut up: what it brings up to its first delimiter is delivered if all that
it brings is within the limit. -/
theorem Delivers.of_stream (hsize : 0 < size) (hf : d ∉ f)
    (hstream : Arrival.stream s = f ++ d :: rest) (hlimit : (f ++ d :: rest).length ≤ limit) :
    Delivers limit size d s f := by
  obtain ⟨pieces, rest', s', hreads, hbefore, hsplit, htail⟩ : ∃ pieces rest' s', Reads size s pieces s' ∧
      d ∉ pieces.dropLast.flatten ∧ pieces.flatten = f ++ d :: rest' ∧ rest' <+: rest := by
    clear hlimit
    induction hn : f.length using Nat.strong_induction_on generalizing f s with
    | _ n ih =>
      have hne : Arrival.stream s ≠ [] := by
        rw [hstream]
        simp
      obtain ⟨piece, s', hpiece, hrecv⟩ := recv_of_stream hsize hne
      have hread := recv_stream hrecv
      rw [hstream] at hread
      -- a piece without the delimiter leaves a shorter frame to be read
      have hmore : ∀ t, f = piece ++ t → Arrival.stream s' = t ++ d :: rest →
          ∃ pieces rest' s'', Reads size s pieces s'' ∧ d ∉ pieces.dropLast.flatten ∧
            pieces.flatten = f ++ d :: rest' ∧ rest' <+: rest := by
        intro t hpre htail
        have hpos : 0 < piece.length := List.length_pos_iff.mpr hpiece
        have hlt : t.length < n := by
          rw [← hn, hpre, List.length_append]
          omega
        rw [hpre, List.mem_append, not_or] at hf
        obtain ⟨pieces, rest', s'', hreads, hbefore, hsplit, hrest⟩ := ih _ hlt hf.2 htail rfl
        refine ⟨piece :: pieces, rest', s'', .cons hpiece hrecv hreads, ?_, ?_, hrest⟩
        · have hne : pieces ≠ [] := by
            rintro rfl
            have hnil := congrArg List.length hsplit
            simp at hnil
          rw [List.dropLast_cons_of_ne_nil hne, List.flatten_cons, List.mem_append]
          exact not_or.mpr ⟨hf.1, hbefore⟩
        · rw [List.flatten_cons, hsplit, hpre, List.append_assoc]
      rcases List.append_eq_append_iff.mp hread with ⟨t, hpre, htail⟩ | ⟨t, hpre, htail⟩
      · cases t with
        | nil =>
          rw [List.append_nil] at hpre
          refine hmore [] ?_ htail.symm
          rw [hpre, List.append_nil]
        | cons x t =>
          obtain ⟨rfl, ht⟩ := List.cons.inj htail
          refine ⟨[piece], t, s', .cons hpiece hrecv (.nil s'), List.not_mem_nil, ?_, ?_⟩
          · rw [List.flatten_singleton]
            exact hpre
          · rw [ht]
            exact List.prefix_append t _
      · exact hmore t hpre htail
  refine ⟨pieces, rest', s', hreads, ?_, hbefore, hf, hsplit⟩
  have hle := htail.length_le
  rw [hsplit]
  simp only [List.length_append, List.length_cons] at hlimit ⊢
  omega

end Receiver

end Frames
