/-
Texts as lists of characters, with the operations of `str` that parsers are written with:
`strip`, `partition` at a character, the leftmost match of a pattern, `splitlines`, and
`int(text, 0)`.

A parser that splits a text at a separator reads a printer's parts back when none of them
contains the separator; what is stripped off a part is read back when the part has no blank
at its ends. The lemmas say when an operation gives back what was joined, and what it can
never give.
-/
import Mathlib.Data.List.DropRight
import Mathlib.Data.List.Infix

set_option autoImplicit false

namespace Text

variable {s : List Char} {c : Char}

/-- What holds of every character of a text is found by going through it. -/
theorem forall_of_all {P : Char → Prop} [DecidablePred P]
    (h : (s.all fun c => decide (P c)) = true) : ∀ c ∈ s, P c :=
  fun c hc => of_decide_eq_true (List.all_eq_true.mp h c hc)

/-! ## Blanks -/

/-- `str.isspace` of a character. -/
def is_space (c : Char) : Bool :=
  decide ((9 ≤ c.toNat ∧ c.toNat ≤ 13) ∨ (28 ≤ c.toNat ∧ c.toNat ≤ 32) ∨
    (0x2000 ≤ c.toNat ∧ c.toNat ≤ 0x200a) ∨
    c.toNat ∈ [0x85, 0xa0, 0x1680, 0x2028, 0x2029, 0x202f, 0x205f, 0x3000])

/-- `text.strip()`. -/
def strip (s : List Char) : List Char := (s.dropWhile is_space).rdropWhile is_space

theorem strip_sublist (s : List Char) : (strip s).Sublist s := by
  have hpre := List.rdropWhile_prefix is_space (s.dropWhile is_space)
  exact hpre.sublist.trans (List.dropWhile_sublist is_space)

theorem mem_of_mem_strip (h : c ∈ strip s) : c ∈ s := (strip_sublist s).subset h

variable {t : List Char} {α : Type*}

/-- A text that is stripped starts with no blank. -/
theorem strip_head (h : strip s = c :: t) : is_space c = false := by
  have hpre := List.rdropWhile_prefix is_space (s.dropWhile is_space)
  unfold strip at h
  rw [h] at hpre
  obtain ⟨u, hu⟩ := hpre
  have hhead := List.head?_dropWhile_not is_space s
  rw [← hu] at hhead
  simpa using hhead

/-- A text that is stripped ends with no blank. -/
theorem strip_last (h : strip s = t ++ [c]) : is_space c = false := by
  have hne : strip s ≠ [] := by
    rw [h]
    exact List.append_ne_nil_of_right_ne_nil _ (List.cons_ne_nil _ _)
  have hlast := List.rdropWhile_last_not is_space (s.dropWhile is_space) hne
  have hc : (strip s).getLast hne = c := by
    simp only [h, List.getLast_append_singleton]
  unfold strip at hc
  rw [hc] at hlast
  exact eq_false_of_ne_true hlast

theorem strip_cons (h : is_space c = true) (s : List Char) : strip (c :: s) = strip s := by
  unfold strip
  rw [List.dropWhile_cons_of_pos h]

theorem strip_blanks {b : List Char} (h : ∀ c ∈ b, is_space c = true) (s : List Char) : strip (b ++ s) = strip s := by
  induction b with
  | nil => rfl
  | cons c b ih =>
    obtain ⟨hc, hb⟩ := List.forall_mem_cons.mp h
    rw [List.cons_append, strip_cons hc, ih hb]

theorem strip_concat (h : is_space c = true) (s : List Char) : strip (s ++ [c]) = strip s := by
  unfold strip
  by_cases hblank : ∀ x ∈ s, is_space x = true
  · have hall : ∀ x ∈ s ++ [c], is_space x = true := by
      intro x hx
      rcases List.mem_append.mp hx with hs | hc
      · exact hblank x hs
      · rw [List.mem_singleton.mp hc]
        exact h
    rw [List.dropWhile_eq_nil_iff.mpr hall, List.dropWhile_eq_nil_iff.mpr hblank]
  · have hne : s.dropWhile is_space ≠ [] := fun hnil => hblank (List.dropWhile_eq_nil_iff.mp hnil)
    rw [List.dropWhile_append, if_neg (by rw [List.isEmpty_iff]; exact hne), List.rdropWhile_concat_pos _ _ _ h]

/-- Nothing is stripped off a text without a blank at its ends. -/
theorem strip_eq_self (hfirst : ∀ c t, s = c :: t → is_space c = false)
    (hlast : ∀ t c, s = t ++ [c] → is_space c = false) : strip s = s := by
  have hdrop : s.dropWhile is_space = s := by
    cases s with
    | nil => rfl
    | cons c t => rw [List.dropWhile_cons_of_neg (Bool.eq_false_iff.mp (hfirst c t rfl))]
  unfold strip
  rw [hdrop]
  rcases List.eq_nil_or_concat s with rfl | ⟨t, c, rfl⟩
  · rfl
  · rw [List.concat_eq_append] at hlast ⊢
    exact List.rdropWhile_concat_neg _ _ _ (Bool.eq_false_iff.mp (hlast t c rfl))

theorem strip_strip (s : List Char) : strip (strip s) = strip s :=
  strip_eq_self (fun _ _ => strip_head) fun _ _ => strip_last

/-- A text without blanks stays as it is. -/
theorem strip_of_no_space (h : ∀ c ∈ s, is_space c = false) : strip s = s := by
  refine strip_eq_self (fun c t hs => ?_) fun t c hs => ?_
  · rw [hs] at h
    exact h c List.mem_cons_self
  · rw [hs] at h
    exact h c (List.mem_append_right _ List.mem_cons_self)

/-- A text is blanks, what is left when it is stripped, and blanks. -/
theorem strip_decompose (s : List Char) : ∃ b b', (∀ c ∈ b, is_space c = true) ∧ (∀ c ∈ b', is_space c = true) ∧
    s = b ++ strip s ++ b' := by
  refine ⟨s.takeWhile is_space, (s.dropWhile is_space).rtakeWhile is_space, ?_, ?_, ?_⟩
  · exact fun c hc => List.mem_takeWhile_imp hc
  · exact fun c hc => List.mem_rtakeWhile_imp hc
  · unfold strip
    rw [List.append_assoc, List.rdropWhile_append_rtakeWhile, List.takeWhile_append_dropWhile]

/-- A character that is no blank stays as often as it was. -/
theorem count_strip (h : is_space c = false) (s : List Char) : (strip s).count c = s.count c := by
  have hblanks : ∀ b : List Char, (∀ x ∈ b, is_space x = true) → b.count c = 0 := by
    intro b hb
    refine List.count_eq_zero.mpr fun hmem => ?_
    rw [hb c hmem] at h
    cases h
  obtain ⟨b, b', hb, hb', hs⟩ := strip_decompose s
  have hcount := congrArg (List.count c) hs
  rw [List.count_append, List.count_append, hblanks b hb, hblanks b' hb'] at hcount
  omega

/-- A text without a blank at its ends stays when something is joined to it and the whole is stripped. -/
theorem strip_append {u : List Char} (hfirst : ∃ c t, u = c :: t ∧ is_space c = false)
    (hlast : ∃ t c, u = t ++ [c] ∧ is_space c = false) (v : List Char) : strip (u ++ v) = u ++ v.rdropWhile is_space := by
  obtain ⟨c, t, hc, hspace⟩ := hfirst
  have hdrop : (u ++ v).dropWhile is_space = u ++ v := by
    rw [hc, List.cons_append, List.dropWhile_cons_of_neg (Bool.eq_false_iff.mp hspace)]
  unfold strip
  rw [hdrop]
  induction v using List.reverseRecOn with
  | nil =>
    obtain ⟨t', c', hc', hspace'⟩ := hlast
    rw [List.append_nil, List.rdropWhile_nil, List.append_nil, hc',
      List.rdropWhile_concat_neg _ _ _ (Bool.eq_false_iff.mp hspace')]
  | append_singleton v d ih =>
    have hinit : (u ++ v).dropWhile is_space = u ++ v := by
      rw [hc, List.cons_append, List.dropWhile_cons_of_neg (Bool.eq_false_iff.mp hspace)]
    rw [← List.append_assoc]
    by_cases hd : is_space d = true
    · rw [List.rdropWhile_concat_pos _ _ _ hd, List.rdropWhile_concat_pos _ _ _ hd, ih hinit]
    · rw [List.rdropWhile_concat_neg _ _ _ hd, List.rdropWhile_concat_neg _ _ _ hd, List.append_assoc]

/-! ## Partition at a character -/

section Cut

variable {α : Type*} [DecidableEq α]

/-- `text.partition(c)`: what stands before the first `c`, and what stands after it. -/
def cut (c : α) : List α → List α × Option (List α)
  | [] => ([], none)
  | a :: s => if a = c then ([], some s) else (a :: (cut c s).1, (cut c s).2)

variable {c : α} {s : List α}

theorem cut_of_not_mem (h : c ∉ s) : cut c s = (s, none) := by
  induction s with
  | nil => rfl
  | cons a s ih =>
    rw [List.mem_cons, not_or] at h
    rw [cut, if_neg (Ne.symm h.1), ih h.2]

theorem cut_append {n : List α} (h : c ∉ n) (v : List α) : cut c (n ++ c :: v) = (n, some v) := by
  induction n with
  | nil => rw [List.nil_append, cut, if_pos rfl]
  | cons a n ih =>
    rw [List.mem_cons, not_or] at h
    rw [List.cons_append, cut, if_neg (Ne.symm h.1), ih h.2]

theorem cut_fst_not_mem (c : α) (s : List α) : c ∉ (cut c s).1 := by
  induction s with
  | nil => exact List.not_mem_nil
  | cons a s ih =>
    rw [cut]
    by_cases h : a = c
    · rw [if_pos h]
      exact List.not_mem_nil
    · rw [if_neg h, List.mem_cons, not_or]
      exact ⟨Ne.symm h, ih⟩

/-- The parts are parts of the text. -/
theorem cut_none (h : (cut c s).2 = none) : c ∉ s ∧ (cut c s).1 = s := by
  induction s with
  | nil => exact ⟨List.not_mem_nil, rfl⟩
  | cons a s ih =>
    rw [cut] at h ⊢
    by_cases hac : a = c
    · rw [if_pos hac] at h
      cases h
    · rw [if_neg hac] at h ⊢
      obtain ⟨hmem, hfst⟩ := ih h
      exact ⟨List.not_mem_cons_of_ne_of_not_mem (Ne.symm hac) hmem, congrArg (List.cons a) hfst⟩

theorem cut_some {v : List α} (h : (cut c s).2 = some v) : s = (cut c s).1 ++ c :: v := by
  induction s with
  | nil => cases h
  | cons a s ih =>
    rw [cut] at h ⊢
    by_cases hac : a = c
    · rw [if_pos hac] at h ⊢
      rw [← Option.some.inj h, hac]
      rfl
    · rw [if_neg hac] at h ⊢
      exact congrArg (List.cons a) (ih h)

end Cut

/-- What a text is split into has no separator. -/
theorem not_mem_of_mem_splitOn [BEq α] [LawfulBEq α] {c : α} {s part : List α} (h : part ∈ s.splitOn c) :
    c ∉ part := by
  induction s generalizing part with
  | nil =>
    rw [List.splitOn_nil] at h
    rw [List.mem_singleton.mp h]
    exact List.not_mem_nil
  | cons a s ih =>
    rw [List.splitOn_cons_eq_if_modifyHead] at h
    by_cases hac : (a == c) = true
    · rw [if_pos hac] at h
      rcases List.mem_cons.mp h with rfl | hrest
      · exact List.not_mem_nil
      · exact ih hrest
    · rw [if_neg hac] at h
      cases hparts : s.splitOn c with
      | nil => exact absurd hparts (List.splitOn_ne_nil c s)
      | cons first parts =>
        rw [hparts, List.modifyHead_cons] at h
        rw [hparts] at ih
        rcases List.mem_cons.mp h with rfl | hrest
        · have hne : c ≠ a := fun heq => hac (by rw [heq, beq_self_eq_true])
          exact List.not_mem_cons_of_ne_of_not_mem hne (ih List.mem_cons_self)
        · exact ih (List.mem_cons_of_mem _ hrest)

/-- When a text goes on, its parts stay, and the last of them may go on. -/
theorem splitOn_append [BEq α] [LawfulBEq α] {c : α} {s last : List α} {parts : List (List α)}
    (h : s.splitOn c = parts ++ [last]) (t : List α) :
    ∃ more others, (s ++ t).splitOn c = parts ++ (last ++ more) :: others := by
  induction s generalizing parts last with
  | nil =>
    rw [List.splitOn_nil] at h
    obtain ⟨rfl, hlast⟩ := (List.append_eq_singleton_iff.mp h.symm).resolve_right fun hright => by cases hright.2
    obtain rfl : last = [] := (List.cons.inj hlast).1
    exact List.exists_cons_of_ne_nil (List.splitOn_ne_nil c t)
  | cons a s ih =>
    rw [List.splitOn_cons_eq_if_modifyHead] at h
    rw [List.cons_append, List.splitOn_cons_eq_if_modifyHead]
    by_cases hac : (a == c) = true
    · rw [if_pos hac] at h ⊢
      cases parts with
      | nil => exact absurd (List.cons.inj h).2 (List.splitOn_ne_nil c s)
      | cons part parts =>
        obtain ⟨rfl, hrest⟩ := List.cons.inj h
        obtain ⟨more, others, hmore⟩ := ih hrest
        exact ⟨more, others, by rw [hmore]; rfl⟩
    · rw [if_neg hac] at h ⊢
      obtain ⟨first, rest, hfirst⟩ := List.exists_cons_of_ne_nil (List.splitOn_ne_nil c s)
      rw [hfirst, List.modifyHead_cons] at h
      cases parts with
      | nil =>
        obtain ⟨rfl, rfl⟩ := List.cons.inj h
        obtain ⟨more, others, hmore⟩ := @ih first [] hfirst
        exact ⟨more, others, by rw [hmore]; rfl⟩
      | cons part parts =>
        obtain ⟨rfl, rfl⟩ := List.cons.inj h
        obtain ⟨more, others, hmore⟩ := @ih last (first :: parts) hfirst
        exact ⟨more, others, by rw [hmore]; rfl⟩

/-- A part of the start of a text starts a part of the text. -/
theorem mem_splitOn_append [BEq α] [LawfulBEq α] {c : α} {s part : List α} (h : part ∈ s.splitOn c)
    (t : List α) : ∃ more, part ++ more ∈ (s ++ t).splitOn c := by
  obtain ⟨parts, last, hparts⟩ := (List.eq_nil_or_concat (s.splitOn c)).resolve_left (List.splitOn_ne_nil c s)
  rw [List.concat_eq_append] at hparts
  obtain ⟨more, others, hmore⟩ := splitOn_append hparts t
  rw [hparts, List.mem_append, List.mem_singleton] at h
  rcases h with hearly | rfl
  · exact ⟨[], by rw [hmore, List.append_nil]; exact List.mem_append_left _ hearly⟩
  · exact ⟨more, by rw [hmore]; exact List.mem_append_right _ List.mem_cons_self⟩

/-- What starts a text in front of a separator starts the part before it. -/
theorem starts_before {c : α} {w u r : List α} (hc : c ∉ w) (h : w <+: u ++ c :: r) : w <+: u := by
  rcases List.prefix_or_prefix_of_prefix h (List.prefix_append u (c :: r)) with hshort | ⟨x, hx⟩
  · exact hshort
  · cases x with
    | nil =>
      rw [List.append_nil] at hx
      rw [hx]
    | cons a x =>
      obtain ⟨y, hy⟩ := h
      rw [← hx, List.append_assoc, List.append_cancel_left_eq] at hy
      refine absurd ?_ hc
      rw [← hx, ← (List.cons.inj hy).1]
      exact List.mem_append_right _ List.mem_cons_self

/-! ## The leftmost match -/

section Search

variable {α β : Type*} {p : List α → Option β}

/-- The leftmost place of a text where `p` matches: what stands before it, and what `p` gives. -/
def search (p : List α → Option β) : List α → Option (List α × β)
  | [] => none
  | a :: s => match p (a :: s) with
    | some b => some ([], b)
    | none => (search p s).map fun found => (a :: found.1, found.2)

variable {a : α} {s l : List α} {b : β}

theorem search_cons_some (h : p (a :: s) = some b) : search p (a :: s) = some ([], b) := by
  rw [search, h]

theorem search_cons_none (h : p (a :: s) = none) :
    search p (a :: s) = (search p s).map fun found => (a :: found.1, found.2) := by
  rw [search, h]

/-- Where nothing in front of a text matches, the match of the text is the leftmost. -/
theorem search_append (h : ∀ l₁ l₂, l = l₁ ++ l₂ → l₂ ≠ [] → p (l₂ ++ s) = none) :
    search p (l ++ s) = (search p s).map fun found => (l ++ found.1, found.2) := by
  induction l with
  | nil => simp only [List.nil_append, Option.map_id']
  | cons a l ih =>
    have hhead := h [] (a :: l) rfl (List.cons_ne_nil _ _)
    have htail := ih fun l₁ l₂ hl hne => h (a :: l₁) l₂ (by rw [hl, List.cons_append]) hne
    rw [List.cons_append] at hhead ⊢
    rw [search_cons_none hhead, htail, Option.map_map]
    rfl

/-- What the leftmost match is made of. -/
theorem search_some (h : search p s = some (l, b)) :
    ∃ m, s = l ++ m ∧ m ≠ [] ∧ p m = some b ∧ ∀ l₁ l₂, l = l₁ ++ l₂ → l₂ ≠ [] → p (l₂ ++ m) = none := by
  induction s generalizing l with
  | nil => cases h
  | cons a s ih =>
    cases hp : p (a :: s) with
    | some b' =>
      rw [search_cons_some hp] at h
      obtain ⟨rfl, rfl⟩ := Prod.ext_iff.mp (Option.some.inj h)
      refine ⟨a :: s, rfl, List.cons_ne_nil _ _, hp, fun l₁ l₂ hl hne => ?_⟩
      exact absurd (List.append_eq_nil_iff.mp hl.symm).2 hne
    | none =>
      rw [search_cons_none hp, Option.map_eq_some_iff] at h
      obtain ⟨⟨l', b'⟩, hfound, heq⟩ := h
      obtain ⟨rfl, rfl⟩ := Prod.ext_iff.mp heq
      obtain ⟨m, rfl, hm, hpm, hbefore⟩ := ih hfound
      refine ⟨m, rfl, hm, hpm, fun l₁ l₂ hl hne => ?_⟩
      cases l₁ with
      | nil =>
        rw [List.nil_append] at hl
        rw [← hl]
        exact hp
      | cons _ l₁ => exact hbefore l₁ l₂ (List.cons.inj hl).2 hne

/-- A text that matches somewhere has a leftmost match. -/
theorem search_isSome {m : List α} (hm : m ≠ []) (h : p m = some b) :
    (search p (l ++ m)).isSome = true := by
  induction l with
  | nil =>
    cases m with
    | nil => exact absurd rfl hm
    | cons a s => rw [List.nil_append, search_cons_some h, Option.isSome_some]
  | cons a l ih =>
    rw [List.cons_append]
    cases hp : p (a :: (l ++ m)) with
    | some b' => rw [search_cons_some hp, Option.isSome_some]
    | none => rw [search_cons_none hp, Option.isSome_map, ih]

end Search

/-! ## Lines -/

/-- The characters that end a line. -/
def is_line_break (c : Char) : Bool :=
  decide ((10 ≤ c.toNat ∧ c.toNat ≤ 13) ∨ (28 ≤ c.toNat ∧ c.toNat ≤ 30) ∨ c.toNat ∈ [0x85, 0x2028, 0x2029])

/-- `text.splitlines()`. -/
def split_lines : List Char → List (List Char)
  | [] => []
  | '\r' :: '\n' :: s => [] :: split_lines s
  | c :: s =>
    if is_line_break c = true then [] :: split_lines s
    else match split_lines s with
      | [] => [[c]]
      | line :: lines => (c :: line) :: lines

theorem split_lines_break (h : is_line_break c = true) (hc : c ≠ '\r') (s : List Char) :
    split_lines (c :: s) = [] :: split_lines s := by
  rw [split_lines, if_pos h]
  exact fun _ hcr _ => hc hcr

theorem split_lines_cons (h : is_line_break c = false) (s : List Char) :
    split_lines (c :: s) = (split_lines s).head?.elim [[c]] fun line => (c :: line) :: (split_lines s).tail := by
  rw [split_lines, if_neg (Bool.eq_false_iff.mp h)]
  · cases split_lines s with
    | nil => rfl
    | cons line lines => rfl
  · rintro _ rfl _
    cases h

/-- A line and the end of it are read first. -/
theorem split_lines_append {line : List Char} (h : ∀ c ∈ line, is_line_break c = false) (s : List Char) :
    split_lines (line ++ '\n' :: s) = line :: split_lines s := by
  induction line with
  | nil => exact split_lines_break rfl (by decide) s
  | cons c line ih =>
    obtain ⟨hc, hline⟩ := List.forall_mem_cons.mp h
    rw [List.cons_append, split_lines_cons hc, ih hline]
    rfl

/-- Lines that are written one after the other are read back. -/
theorem split_lines_lines {lines : List (List Char)} (h : ∀ line ∈ lines, ∀ c ∈ line, is_line_break c = false) :
    split_lines (lines.flatMap fun line => line ++ ['\n']) = lines := by
  induction lines with
  | nil => rfl
  | cons line lines ih =>
    obtain ⟨hline, hlines⟩ := List.forall_mem_cons.mp h
    rw [List.flatMap_cons, List.append_assoc, List.singleton_append, split_lines_append hline, ih hlines]

end Text
