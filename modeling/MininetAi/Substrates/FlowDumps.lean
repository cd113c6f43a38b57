/-
Flow expressions as they are listed in a dump.

A record of a dump is an expression with counters among its first fields, blanks behind its
commas, and a space in front of its actions. The parser sees the same of the record as of the
expression, since counters enter nothing and blanks are stripped; only an expression that starts
with its actions is seen otherwise, because the parser looks for them behind a comma or a blank.
-/
import MininetAi.Substrates.FlowActions

set_option autoImplicit false

namespace MininetAi

open Option Text

open List

/-! ## What is read behind a comma -/

/-- What the parser sees of a text behind a comma: the entries of its fields, and its actions. -/
def reading (text : FlowText) : Option (List (FlowText × FlowItem) × FlowText) :=
  (search actions_here (',' :: text)).map fun place =>
    (field_entries ((place.1.drop 1).splitOn ','), strip place.2)

variable {b : Char} {text line : FlowText}

/-- A blank in front of fields enters nothing. -/
theorem field_entries_cons_blank (hb : is_space b = true) (text : FlowText) :
    field_entries ((b :: text).splitOn ',') = field_entries (text.splitOn ',') := by
  have hcomma : (b == ',') = false := by
    refine beq_false_of_ne fun heq => ?_
    rw [heq] at hb
    exact absurd hb (by decide)
  rw [splitOn_cons_eq_if_modifyHead, if_neg (by rw [hcomma]; exact Bool.noConfusion)]
  obtain ⟨first, rest, hrest⟩ := exists_cons_of_ne_nil (splitOn_ne_nil ',' text)
  rw [hrest, modifyHead_cons]
  unfold field_entries
  rw [filterMap_cons, filterMap_cons, field_entry_congr (strip_cons hb first)]

/-- Where the actions do not start at once, they are looked for in the text. -/
theorem reading_skip (h : ¬ "actions=".toList <+: text) :
    reading text = (search actions_here text).map fun place =>
      (field_entries (place.1.splitOn ','), strip place.2) := by
  rw [reading, search_cons_none (actions_here_none fun _ => h), Option.map_map]
  rfl

/-- Actions that start at once are read with no fields. -/
theorem reading_actions {actions : FlowText} (h : '\n' ∉ actions) :
    reading ("actions=".toList ++ actions) = some ([], strip actions) := by
  rw [reading, search_cons_some (actions_here_of (Or.inl rfl) h)]
  rfl

theorem not_actions_of_blank (hb : is_space b = true) (text : FlowText) :
    ¬ "actions=".toList <+: b :: text := by
  intro hstart
  obtain ⟨rest, hrest⟩ := hstart
  rw [← (List.cons.inj hrest).1] at hb
  exact absurd hb (by decide)

/-- A blank behind the comma makes no difference. -/
theorem reading_cons_blank (hb : is_space b = true) (text : FlowText) :
    reading (b :: text) = reading text := by
  have hsame : actions_here (b :: text) = actions_here (',' :: text) := by
    rw [actions_here, actions_here]
    simp only [hb, or_true, true_or, true_and]
  rw [reading_skip (not_actions_of_blank hb text), reading]
  cases hhere : actions_here (',' :: text) with
  | some found =>
    rw [search_cons_some (hsame.trans hhere), search_cons_some hhere]
    rfl
  | none =>
    rw [search_cons_none (hsame.trans hhere), search_cons_none hhere, Option.map_map, Option.map_map]
    congr 1
    funext place
    simp only [Function.comp_apply, drop_one, tail_cons, field_entries_cons_blank hb]

theorem reading_blanks {blanks : FlowText} (h : ∀ c ∈ blanks, is_space c = true) (text : FlowText) :
    reading (blanks ++ text) = reading text := by
  induction blanks with
  | nil => rfl
  | cons b blanks ih =>
    obtain ⟨hb, hblanks⟩ := forall_mem_cons.mp h
    rw [cons_append, reading_cons_blank hb, ih hblanks]

/-- A field in front of a text. -/
structure PlainStart (field : FlowText) : Prop where
  no_comma : ',' ∉ field
  no_space : ∀ c ∈ field, is_space c = false
  no_actions : ¬ "actions=".toList <+: field

/-- A field in front of a text adds its entry. -/
theorem reading_field {field : FlowText} (h : PlainStart field) (text : FlowText) :
    reading (field ++ ',' :: text) = (reading text).map fun read => ((field_entry field).toList ++ read.1, read.2) := by
  have hskip : ∀ l₁ l₂, field = l₁ ++ l₂ → l₂ ≠ [] → actions_here (l₂ ++ ',' :: text) = none := by
    intro l₁ l₂ hfield hne
    obtain ⟨c, m, rfl⟩ := exists_cons_of_ne_nil hne
    have hmem : c ∈ field := hfield ▸ mem_append_right _ mem_cons_self
    refine actions_here_none fun hsep => ?_
    rcases hsep with rfl | hspace
    · exact absurd hmem h.no_comma
    · rw [h.no_space c hmem] at hspace
      cases hspace
  rw [reading_skip fun hstart => h.no_actions (starts_before actions_no_comma hstart), search_append hskip, reading,
    Option.map_map, Option.map_map]
  cases hplace : search actions_here (',' :: text) with
  | none => rfl
  | some place =>
    obtain ⟨m, hm, -, -, -⟩ := search_some (l := place.1) (b := place.2) hplace
    simp only [map_some, Function.comp_apply, Option.some.injEq, Prod.mk.injEq, and_true]
    -- what stands in front of the actions is nothing, or starts with the comma
    cases hbefore : place.1 with
    | nil =>
      rw [append_nil, splitOn_eq_singleton h.no_comma]
      unfold field_entries
      rw [filterMap_cons]
      cases field_entry field with
      | none => rfl
      | some entry => rfl
    | cons c rest =>
      rw [hbefore] at hm
      rw [← (List.cons.inj hm).1, splitOn_append_cons_self_of_not_mem h.no_comma]
      unfold field_entries
      rw [filterMap_cons]
      cases field_entry field with
      | none => rfl
      | some entry => rfl

/-! ## Blanks at the end -/

theorem actions_here_concat (hb : is_space b = true) (hline : b ≠ '\n') (s : FlowText) :
    actions_here (s ++ [b]) = (actions_here s).map fun found => found ++ [b] := by
  cases s with
  | nil =>
    refine actions_here_none fun _ hstart => ?_
    exact absurd (prefix_nil.mp hstart) (by decide)
  | cons c s =>
    have hends : ("actions=".toList <+: s ++ [b]) ↔ "actions=".toList <+: s := by
      constructor
      · rw [prefix_concat_iff]
        rintro (heq | hstart)
        · have hlast := congrArg getLast? heq
          rw [getLast?_concat] at hlast
          have hequals : '=' = b := Option.some.inj hlast
          rw [← hequals] at hb
          exact absurd hb (by decide)
        · exact hstart
      · exact fun hstart => hstart.trans (prefix_append s [b])
    rw [cons_append, actions_here, actions_here]
    simp only [hends]
    by_cases hstart : "actions=".toList <+: s
    · have hlength : 8 ≤ s.length := hstart.length_le
      have hdrop : (s ++ [b]).drop 8 = s.drop 8 ++ [b] := drop_append_of_le_length hlength
      have hnewline : '\n' ∉ s.drop 8 ++ [b] ↔ '\n' ∉ s.drop 8 := by
        rw [mem_append, mem_singleton, not_or]
        exact and_iff_left (Ne.symm hline)
      rw [hdrop]
      simp only [hnewline]
      by_cases hall : (c = ',' ∨ is_space c = true) ∧ "actions=".toList <+: s ∧ '\n' ∉ s.drop 8
      · rw [if_pos hall, if_pos hall, map_some]
      · rw [if_neg hall, if_neg hall, map_none]
    · rw [if_neg fun hall => hstart hall.2.1, if_neg fun hall => hstart hall.2.1, map_none]

theorem search_concat (hb : is_space b = true) (hline : b ≠ '\n') (s : FlowText) :
    search actions_here (s ++ [b]) = (search actions_here s).map fun place => (place.1, place.2 ++ [b]) := by
  induction s with
  | nil =>
    have hnone := actions_here_concat hb hline []
    rw [nil_append] at hnone ⊢
    rw [search_cons_none hnone]
    rfl
  | cons c s ih =>
    have hhere := actions_here_concat hb hline (c :: s)
    rw [cons_append] at hhere ⊢
    cases hfound : actions_here (c :: s) with
    | some found =>
      rw [hfound] at hhere
      rw [search_cons_some hhere, search_cons_some hfound]
      rfl
    | none =>
      rw [hfound] at hhere
      rw [search_cons_none hhere, search_cons_none hfound, ih, Option.map_map, Option.map_map]
      rfl

/-- A blank at the end makes no difference. -/
theorem reading_concat_blank (hb : is_space b = true) (hline : b ≠ '\n') (text : FlowText) :
    reading (text ++ [b]) = reading text := by
  rw [reading, reading, ← cons_append, search_concat hb hline, Option.map_map]
  congr 1
  funext place
  simp only [Function.comp_apply, strip_concat hb]

/-- What is stripped makes no difference. -/
theorem reading_strip (h : '\n' ∉ text) : reading (strip text) = reading text := by
  obtain ⟨b, b', hb, hb', hdecompose⟩ := strip_decompose text
  have hline : '\n' ∉ b' := fun hmem => h (by rw [hdecompose]; exact mem_append_right _ hmem)
  have hend : ∀ b' : FlowText, (∀ c ∈ b', is_space c = true) → '\n' ∉ b' → ∀ s : FlowText, reading (s ++ b') = reading s := by
    intro b'
    induction b' with
    | nil => exact fun _ _ s => by rw [append_nil]
    | cons c b' ih =>
      intro hblanks hnewline s
      obtain ⟨hc, hblanks⟩ := forall_mem_cons.mp hblanks
      rw [mem_cons, not_or] at hnewline
      rw [← singleton_append, ← append_assoc, ih hblanks hnewline.2, reading_concat_blank hc (Ne.symm hnewline.1)]
  conv_rhs => rw [hdecompose]
  rw [append_assoc, reading_blanks hb, hend b' hb' hline]

/-! ## Rules from readings -/

theorem read_rule_strip (fields : List FlowText) (actions : FlowText) :
    read_rule fields (strip actions) = read_rule fields actions := by
  unfold read_rule
  rw [strip_strip]

/-- What the parser makes of a text that does not start with its actions, from its reading. -/
theorem parse_of_reading (hstart : ¬ "actions=".toList <+: strip text) (hline : '\n' ∉ text) :
    (reading text = none ∧ parse_flow_expression text = .ok none) ∨
      ∃ fields actions, reading text = some (field_entries fields, strip actions) ∧
        parse_flow_expression text = (read_rule fields actions).map some := by
  rw [← reading_strip hline, reading_skip hstart, parse_flow_expression]
  cases hsearch : search actions_here (strip text) with
  | none => exact Or.inl ⟨rfl, rfl⟩
  | some place => exact Or.inr ⟨place.1.splitOn ',', place.2, rfl, rfl⟩

/-- Texts with one reading are parsed alike. -/
theorem parse_congr {text' : FlowText} (hstart : ¬ "actions=".toList <+: strip text)
    (hstart' : ¬ "actions=".toList <+: strip text') (hline : '\n' ∉ text)
    (hline' : '\n' ∉ text') (h : reading text = reading text') :
    (parse_flow_expression text).toOption = (parse_flow_expression text').toOption := by
  rcases parse_of_reading hstart hline with ⟨hnone, hparse⟩ | ⟨fields, actions, hread, hparse⟩
  · rcases parse_of_reading hstart' hline' with ⟨-, hparse'⟩ | ⟨fields', actions', hread', -⟩
    · rw [hparse, hparse']
    · rw [← h, hnone] at hread'
      cases hread'
  · rcases parse_of_reading hstart' hline' with ⟨hnone', -⟩ | ⟨fields', actions', hread', hparse'⟩
    · rw [h, hnone'] at hread
      cases hread
    · rw [h, hread'] at hread
      obtain ⟨hentries, hactions⟩ := Prod.mk.inj (Option.some.inj hread)
      have hrule : (read_rule fields actions).toOption = (read_rule fields' actions').toOption := by
        rw [← read_rule_strip fields actions, ← read_rule_strip fields' actions', hactions]
        exact (read_rule_congr hentries (strip actions)).symm
      have hmap : ∀ e : Except FlowText FlowRecord, (e.map some).toOption = e.toOption.map some := by
        intro e
        cases e with
        | error name => rfl
        | ok record => rfl
      rw [hparse, hparse', hmap, hmap, hrule]

/-! ## Records of a dump -/

/-- A text as it is listed: with counters and blanks among its first fields, and with its actions behind
a space or a comma. -/
inductive DumpLine : FlowText → FlowText → Prop where
  | same (text : FlowText) : DumpLine text text
  | spaced {head actions : FlowText} (no_actions : ¬ "actions=".toList <+: head)
      (no_place : ∀ l c m, head = l ++ c :: m → c = ',' ∨ is_space c = true → ¬ "actions=".toList <+: m) :
      DumpLine (head ++ ',' :: ("actions=".toList ++ actions)) (head ++ ' ' :: ("actions=".toList ++ actions))
  | counter {blanks name value text line : FlowText} (blank : ∀ c ∈ blanks, is_space c = true)
      (counted : name ∈ counter_names) (chars : ∀ c ∈ value, is_number_char c = true) (rest : DumpLine text line) :
      DumpLine text (blanks ++ (assigned name value ++ ',' :: line))
  | field {blanks field text line : FlowText} (blank : ∀ c ∈ blanks, is_space c = true) (plain : PlainStart field)
      (rest : DumpLine text line) : DumpLine (field ++ ',' :: text) (blanks ++ (field ++ ',' :: line))

theorem is_number_char_facts {c : Char} (h : is_number_char c = true) :
    c ≠ ',' ∧ c ≠ '=' ∧ is_space c = false ∧ is_line_break c = false := by
  simp only [is_number_char, Bool.and_eq_true, decide_eq_true_eq, Bool.not_eq_true', ne_eq] at h
  tauto

theorem counter_names_plain : ∀ name ∈ counter_names, PlainStart name ∧ (∀ c ∈ name, is_number_char c = true) ∧
    ¬ name <+: "actions=".toList := by
  have hnames : ∀ name ∈ counter_names, name.all is_number_char = true ∧ ¬ "actions=".toList <+: name ∧
      ¬ name <+: "actions=".toList := by decide
  intro name hname
  obtain ⟨hchars, hstart, hlong⟩ := hnames name hname
  have hall : ∀ c ∈ name, is_number_char c = true := all_eq_true.mp hchars
  exact ⟨⟨fun hmem => (is_number_char_facts (hall ',' hmem)).1 rfl, fun c hc => (is_number_char_facts (hall c hc)).2.2.1,
    hstart⟩, hall, hlong⟩

/-- A counter is a field that enters nothing. -/
theorem counter_plain {name value : FlowText} (hname : name ∈ counter_names) (hvalue : ∀ c ∈ value, is_number_char c = true) :
    PlainStart (assigned name value) ∧ field_entry (assigned name value) = none := by
  obtain ⟨hplain, hchars, hlong⟩ := counter_names_plain name hname
  have hspace : ∀ c ∈ assigned name value, is_space c = false := by
    intro c hc
    rcases mem_append.mp hc with hfirst | hrest
    · exact hplain.no_space c hfirst
    · rcases mem_cons.mp hrest with rfl | hc
      · decide
      · exact (is_number_char_facts (hvalue c hc)).2.2.1
  refine ⟨⟨fun hmem => ?_, hspace, fun hstart => ?_⟩, field_entry_counter hname (strip_of_no_space hspace)⟩
  · rcases mem_append.mp hmem with hfirst | hrest
    · exact hplain.no_comma hfirst
    · rcases mem_cons.mp hrest with heq | hc
      · exact absurd heq (by decide)
      · exact (is_number_char_facts (hvalue ',' hc)).1 rfl
  · rcases List.prefix_or_prefix_of_prefix hstart (prefix_append name ('=' :: value)) with hone | hother
    · exact hplain.no_actions hone
    · exact hlong hother

/-- The actions are read where they stand, behind a comma or a blank. -/
theorem reading_place {head actions : FlowText} {sep : Char} (hsep : sep = ',' ∨ is_space sep = true)
    (hactions : ¬ "actions=".toList <+: head)
    (hplace : ∀ l c m, head = l ++ c :: m → c = ',' ∨ is_space c = true → ¬ "actions=".toList <+: m)
    (hline : '\n' ∉ actions) : reading (head ++ sep :: ("actions=".toList ++ actions)) =
      some (field_entries (head.splitOn ','), strip actions) := by
  have hfree : sep ∉ "actions=".toList := by
    have hall : ∀ c ∈ "actions=".toList, c ≠ ',' ∧ is_space c = false := forall_of_all (by decide)
    intro hmem
    obtain ⟨hcomma, hblank⟩ := hall sep hmem
    rcases hsep with heq | hspace
    · exact hcomma heq
    · rw [hspace] at hblank
      cases hblank
  have hskip : ∀ l₁ l₂, head = l₁ ++ l₂ → l₂ ≠ [] →
      actions_here (l₂ ++ sep :: ("actions=".toList ++ actions)) = none := by
    intro l₁ l₂ hhead hne
    obtain ⟨c, m, rfl⟩ := exists_cons_of_ne_nil hne
    exact actions_here_none fun hc hstart => hplace l₁ c m hhead hc (starts_before hfree hstart)
  rw [reading_skip fun hstart => hactions (starts_before hfree hstart), search_append hskip,
    search_cons_some (actions_here_of hsep hline)]
  simp only [map_some, append_nil]

/-- A record is read as its text. -/
theorem DumpLine.reading_eq (h : DumpLine text line) (hline : '\n' ∉ line) :
    reading line = reading text := by
  induction h with
  | same text => rfl
  | spaced hactions hplace =>
    rename_i head actions
    have hnewline : '\n' ∉ actions := fun hmem =>
      hline (mem_append_right _ (mem_cons_of_mem _ (mem_append_right _ hmem)))
    rw [reading_place (Or.inr (by decide)) hactions hplace hnewline, reading_place (Or.inl rfl) hactions hplace hnewline]
  | counter hblank hcounted hchars hrest ih =>
    rename_i blanks name value text line
    obtain ⟨hplain, hnone⟩ := counter_plain hcounted hchars
    have hnewline : '\n' ∉ line := fun hmem =>
      hline (mem_append_right _ (mem_append_right _ (mem_cons_of_mem _ hmem)))
    rw [reading_blanks hblank, reading_field hplain, hnone, ih hnewline]
    exact map_id'
  | field hblank hplain hrest ih =>
    rename_i blanks field text line
    have hnewline : '\n' ∉ line := fun hmem =>
      hline (mem_append_right _ (mem_append_right _ (mem_cons_of_mem _ hmem)))
    rw [reading_blanks hblank, reading_field hplain, reading_field hplain, ih hnewline]

/-- Nothing of a text but commas is left out of its record. -/
theorem DumpLine.subset (h : DumpLine text line) : ∀ c ∈ text, c ∈ line ∨ c = ',' := by
  induction h with
  | same text => exact fun c hc => Or.inl hc
  | spaced hactions hplace =>
    intro c hc
    rcases mem_append.mp hc with hhead | hrest
    · exact Or.inl (mem_append_left _ hhead)
    · rcases mem_cons.mp hrest with rfl | hc
      · exact Or.inr rfl
      · exact Or.inl (mem_append_right _ (mem_cons_of_mem _ hc))
  | counter hblank hcounted hchars hrest ih =>
    intro c hc
    exact (ih c hc).imp (fun hmem => mem_append_right _ (mem_append_right _ (mem_cons_of_mem _ hmem))) id
  | field hblank hplain hrest ih =>
    intro c hc
    rcases mem_append.mp hc with hfield | hrest
    · exact Or.inl (mem_append_right _ (mem_append_left _ hfield))
    · rcases mem_cons.mp hrest with rfl | hc
      · exact Or.inr rfl
      · exact (ih c hc).imp (fun hmem => mem_append_right _ (mem_append_right _ (mem_cons_of_mem _ hmem))) id

/-- A text on one line. -/
def OneLine (text : FlowText) : Prop := ∀ c ∈ text, is_line_break c = false

theorem OneLine.no_newline (h : OneLine text) : '\n' ∉ text := fun hmem =>
  absurd (h '\n' hmem) (by decide)

/-- A record of a dump: it is one line, and its counters stand in front of its actions. -/
structure DumpRecord (text line : FlowText) : Prop where
  listed : DumpLine text line
  one_line : OneLine line
  counters_first : ¬ "actions=".toList <+: strip line

theorem DumpRecord.text_one_line (h : DumpRecord text line) : OneLine text := by
  intro c hc
  rcases h.listed.subset c hc with hmem | rfl
  · exact h.one_line c hmem
  · decide

/-- A record of a text that does not start with its actions is parsed as the text. -/
theorem DumpRecord.parse_eq (h : DumpRecord text line)
    (hstart : ¬ "actions=".toList <+: strip text) :
    (parse_flow_expression line).toOption = (parse_flow_expression text).toOption :=
  parse_congr h.counters_first hstart h.one_line.no_newline h.text_one_line.no_newline
    (h.listed.reading_eq h.one_line.no_newline)

/-- A record with one counter. -/
def counted (text : FlowText) : FlowText := assigned "duration".toList "0s".toList ++ ',' :: text

theorem counted_record (h : OneLine text) : DumpRecord text (counted text) := by
  have hchars : ∀ c ∈ "0s".toList, is_number_char c = true := all_eq_true.mp (by decide)
  refine ⟨@DumpLine.counter [] "duration".toList "0s".toList text text (fun c hc => absurd hc not_mem_nil) (by decide)
    hchars (DumpLine.same text), ?_, ?_⟩
  · have hfirst : ∀ c ∈ assigned "duration".toList "0s".toList ++ [','], is_line_break c = false :=
      forall_of_all (by decide)
    intro c hc
    rcases mem_append.mp hc with hcounter | hrest
    · exact hfirst c (mem_append_left _ hcounter)
    · rcases mem_cons.mp hrest with rfl | hc
      · decide
      · exact h c hc
  · intro hstart
    have hstrip := strip_append (u := assigned "duration".toList "0s".toList ++ [',']) ⟨'d', _, rfl, by decide⟩
      ⟨_, ',', rfl, by decide⟩ text
    rw [append_assoc, singleton_append] at hstrip
    rw [counted, hstrip] at hstart
    exact absurd (cons_prefix_cons.mp hstart).1 (by decide)

end MininetAi
