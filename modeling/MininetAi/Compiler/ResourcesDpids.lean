/-
DPIDs of switches (`_allocate_switch_dpids`).

Who has which number is a list in which every number is once, so distinct DPIDs are
distinct numbers. The search for a free number walks in a circle from one to the largest
number and does not count its steps: it ends as long as there are fewer owners than
numbers. The loop is therefore a relation here, of which the bounded search of the model
is one run.
-/
import MininetAi.Compiler.ResourcesAddresses

set_option autoImplicit false

namespace MininetAi

open List Prod

/-! ## DPIDs as texts -/

section Texts

/-- `int(dpid, 16)`. -/
def dpid_number (dpid : String) : ℕ := digits_value 16 dpid.toList

/-- `[0-9a-f]`. -/
def is_lower_hex (c : Char) : Bool := c.isDigit || decide ('a' ≤ c ∧ c ≤ 'f')

/-- `[0-9a-fA-F]`. -/
def is_hex (c : Char) : Bool := is_lower_hex c || decide ('A' ≤ c ∧ c ≤ 'F')

/-- `value.zfill(16)`, of a text without a sign. -/
def zfill (width : ℕ) (value : String) : String :=
  String.ofList (replicate (width - value.length) '0' ++ value.toList)

/-- `SwitchResource.valid_dpid`, of a value that is given. -/
def valid_dpid (value : String) : Except String String :=
  if ¬ (1 ≤ value.length ∧ value.length ≤ 16 ∧ value.toList.all is_hex = true) then
    .error "DPID must contain 1 to 16 hexadecimal digits"
  else if dpid_number value = 0 then .error "DPID must be non-zero"
  else .ok (zfill 16 value.toLower)

/-- The value of a digit. -/
def digit_number (c : Char) : ℕ := if c.isDigit then c.toNat - 48 else c.toLower.toNat - 87

theorem digit_number_digitChar : ∀ d < 16, digit_number (Nat.digitChar d) = d ∧ is_lower_hex (Nat.digitChar d) = true := by
  decide

theorem digits_value_toDigits (n : ℕ) : digits_value 16 (Nat.toDigits 16 n) = n := by
  have hsame := @foldl_ext ℕ Char (fun v c => v * 16 + digit_number c)
    (fun v c => v * 16 + (Text.digit_of c).getD 0) 0 (Nat.toDigits 16 n) fun v c hc => ?_
  · exact hsame.trans (Text.foldl_toDigits (by decide) (by decide))
  · obtain ⟨d, hd, rfl⟩ := Text.digit_of_mem_toDigits (by decide) (by decide) c hc
    rw [(digit_number_digitChar d hd).1, (Text.digit_of_digitChar d hd).1]
    rfl

theorem digits_value_zeros (k : ℕ) (s : List Char) :
    digits_value 16 (replicate k '0' ++ s) = digits_value 16 s := by
  induction k with
  | zero => rfl
  | succ k ih => exact ih

/-- The number is read back from its digits. -/
theorem dpid_number_hex_text (value : ℕ) : dpid_number (hex_text 16 value) = value := by
  rw [dpid_number, hex_text, String.toList_ofList, digits_value_zeros, digits_value_toDigits]

/-- Sixteen digits, in lower case. -/
theorem hex_text_digits {value : ℕ} (h : value ≤ dpid_maximum) :
    (hex_text 16 value).length = 16 ∧ (hex_text 16 value).toList.all is_lower_hex = true := by
  have hlt : value < 16 ^ 16 := by
    rw [dpid_maximum] at h
    omega
  have hlength := (Nat.length_toDigits_le_iff (b := 16) (by decide) (by decide)).mpr hlt
  refine ⟨?_, all_eq_true.mpr fun c hc => ?_⟩
  · rw [hex_text, String.length_ofList, length_append, length_replicate]
    omega
  · rw [hex_text, String.toList_ofList] at hc
    rcases mem_append.mp hc with hzero | hdigit
    · rw [eq_of_mem_replicate hzero]
      decide
    · obtain ⟨d, hd, rfl⟩ := Text.digit_of_mem_toDigits (by decide) (by decide) c hdigit
      exact (digit_number_digitChar d hd).2

variable {c : Char}

theorem is_hex_bound (h : is_hex c = true) : c.toNat < 103 := by
  rw [is_hex, is_lower_hex, Bool.or_eq_true, Bool.or_eq_true, Char.isDigit_iff_toNat, decide_eq_true_eq,
    decide_eq_true_eq] at h
  rcases h with (hdigit | hlower) | hupper
  · exact Nat.lt_of_le_of_lt hdigit.2 (by decide)
  · have hle : c.toNat ≤ 'f'.toNat := hlower.2
    exact Nat.lt_of_le_of_lt hle (by decide)
  · have hle : c.toNat ≤ 'F'.toNat := hupper.2
    exact Nat.lt_of_le_of_lt hle (by decide)

/-- A digit in lower case has the value it had. -/
theorem digit_number_hex (h : is_hex c = true) :
    digit_number c.toLower = digit_number c ∧ digit_number c < 16 := by
  have hall : ∀ n < 103, is_hex (Char.ofNat n) = true →
      digit_number (Char.ofNat n).toLower = digit_number (Char.ofNat n) ∧ digit_number (Char.ofNat n) < 16 := by
    decide
  have hone := hall c.toNat (is_hex_bound h)
  rw [Char.ofNat_toNat] at hone
  exact hone h

theorem digits_value_lt {s : List Char} (h : ∀ c ∈ s, is_hex c = true) : digits_value 16 s < 16 ^ s.length := by
  induction s using reverseRecOn with
  | nil => exact Nat.one_pos
  | append_singleton s c ih =>
    have hrest := ih fun c' hc' => h c' (mem_append_left _ hc')
    have hdigit := (digit_number_hex (h c (mem_append_right _ (mem_singleton_self c)))).2
    have hsplit : digits_value 16 (s ++ [c]) = digits_value 16 s * 16 + digit_number c := foldl_concat ..
    rw [hsplit, length_append, length_singleton, Nat.pow_succ]
    omega

/-- Validation keeps the number, which is a DPID. -/
theorem valid_dpid_ok {value dpid : String} (h : valid_dpid value = .ok dpid) :
    dpid_number dpid = dpid_number value ∧ 0 < dpid_number value ∧ dpid_number value ≤ dpid_maximum := by
  unfold valid_dpid at h
  by_cases hform : 1 ≤ value.length ∧ value.length ≤ 16 ∧ value.toList.all is_hex = true
  · rw [if_neg (not_not_intro hform)] at h
    by_cases hzero : dpid_number value = 0
    · rw [if_pos hzero] at h
      cases h
    rw [if_neg hzero] at h
    have hdigits : ∀ c ∈ value.toList, is_hex c = true := all_eq_true.mp hform.2.2
    refine ⟨?_, Nat.pos_of_ne_zero hzero, ?_⟩
    · have hlower : value.toLower = value.map Char.toLower := rfl
      rw [← Except.ok.inj h, dpid_number, zfill, String.toList_ofList, digits_value_zeros, hlower,
        String.toList_map, digits_value, foldl_map]
      refine foldl_ext _ _ _ fun v c hc => ?_
      exact congrArg (v * 16 + ·) (digit_number_hex (hdigits c hc)).1
    · have hlt := digits_value_lt hdigits
      have hpow : 16 ^ value.toList.length ≤ 16 ^ 16 := Nat.pow_le_pow_right (by decide) hform.2.1
      rw [dpid_number, dpid_maximum]
      omega
  · rw [if_pos hform] at h
    cases h

end Texts

/-! ## The search -/

section Probe

variable {owners : Owners ℕ} {value result : ℕ}

/-- `while value in owners: value = value % maximum + 1` ends with a value. -/
inductive ProbeEnds (owners : Owners ℕ) : ℕ → ℕ → Prop
  | free {value : ℕ} (h : owners.owner value = none) : ProbeEnds owners value value
  | taken {value result : ℕ} (h : (owners.owner value).isSome = true)
      (rest : ProbeEnds owners (value % dpid_maximum + 1) result) : ProbeEnds owners value result

/-- The numbers of DPIDs. -/
def IsDpid (value : ℕ) : Prop := 0 < value ∧ value ≤ dpid_maximum

theorem next_is_dpid (value : ℕ) : IsDpid (value % dpid_maximum + 1) :=
  ⟨Nat.succ_pos _, Nat.succ_le_of_lt (Nat.mod_lt value (by decide))⟩

/-- The loop stays among the DPIDs and stops at one that nobody has. -/
theorem ProbeEnds.found (h : ProbeEnds owners value result) (hvalue : IsDpid value) :
    IsDpid result ∧ owners.owner result = none := by
  induction h with
  | free hfree => exact ⟨hvalue, hfree⟩
  | taken _ _ ih => exact ih (next_is_dpid _)

theorem probe_first_outside {fuel : ℕ}
    (h : (owners.owner (first_outside (fun n => (owners.owner n).isSome) (fun n => n % dpid_maximum + 1) fuel
      value)).isSome = false) : ProbeEnds owners value
      (first_outside (fun n => (owners.owner n).isSome) (fun n => n % dpid_maximum + 1) fuel value) := by
  induction fuel generalizing value with
  | zero => exact .free (Option.isNone_iff_eq_none.mp (Option.isSome_eq_false_iff.mp h))
  | succ fuel ih =>
    rw [first_outside] at h ⊢
    by_cases htaken : (owners.owner value).isSome = true
    · rw [if_pos htaken] at h ⊢
      exact .taken htaken (ih h)
    · rw [if_neg htaken] at h ⊢
      exact .free (Option.isNone_iff_eq_none.mp (Option.isSome_eq_false_iff.mp h))

/-- The loop ends while there are more numbers than owners. -/
theorem probe_ends (hvalue : IsDpid value) (howners : owners.length < dpid_maximum) :
    ProbeEnds owners value (free_dpid owners value) :=
  probe_first_outside (free_dpid_free hvalue.1 hvalue.2 howners)

end Probe

/-! ## Fixed DPIDs -/

section Reserve

variable {owners owners' : Owners ℕ} {switches : List TopologyResource}

/-- The DPID that the author gives a switch. -/
def authored_dpid (resource : TopologyResource) : Option String :=
  match resource.detail with
  | .switch dpid _ _ _ _ _ => dpid
  | .network | .region | .flow | .controller _ _ _ _ | .controller_domain _ | .host _ _ => none

/-- The authored DPIDs have passed their validator. -/
def DpidsValid (switches : List TopologyResource) : Prop :=
  ∀ s ∈ switches, ∀ dpid ∈ authored_dpid s, ∃ value, valid_dpid value = .ok dpid

/-- What a switch's fixed DPID is the number of: an authored text, or the digits after `s`. -/
inductive FixedId (switch : TopologyResource) : ℕ → Prop
  | authored {value dpid : String} (hdpid : authored_dpid switch = some dpid) (hvalid : valid_dpid value = .ok dpid) :
      FixedId switch (dpid_number value)
  | named {digits : List Char} (hnone : authored_dpid switch = none) (hname : switch.name.toList = 's' :: digits)
      (hdigits : digits ≠ [] ∧ digits.all Char.isDigit = true) (hpos : 0 < digits_value 10 digits)
      (hmax : digits_value 10 digits < 2 ^ 64) : FixedId switch (digits_value 10 digits)

variable {name : String} {value : ℕ} {switch : TopologyResource}

theorem named_dpid_iff : named_dpid name = some value ↔ ∃ digits, name.toList = 's' :: digits ∧
      (digits ≠ [] ∧ digits.all Char.isDigit = true) ∧ 0 < digits_value 10 digits ∧
        digits_value 10 digits ≤ dpid_maximum ∧ digits_value 10 digits = value := by
  unfold named_dpid
  split
  · next digits hname =>
      rw [hname]
      constructor
      · intro h
        by_cases hform : digits ≠ [] ∧ digits.all Char.isDigit = true ∧ 0 < digits_value 10 digits ∧
            digits_value 10 digits ≤ dpid_maximum
        · rw [if_pos hform] at h
          exact ⟨digits, rfl, ⟨hform.1, hform.2.1⟩, hform.2.2.1, hform.2.2.2, Option.some.inj h⟩
        · rw [if_neg hform] at h
          cases h
      · rintro ⟨digits', hsame, ⟨hne, hall⟩, hpos, hmax, hvalue⟩
        obtain ⟨-, rfl⟩ := List.cons.inj hsame
        rw [if_pos ⟨hne, hall, hpos, hmax⟩, hvalue]
  · next hother =>
      constructor
      · intro h
        cases h
      · rintro ⟨digits, hname, -⟩
        exact absurd hname (hother digits)

theorem fixed_dpid_authored {dpid : String} (h : authored_dpid switch = some dpid) :
    fixed_dpid switch = some (dpid_number dpid) := by
  unfold authored_dpid at h
  unfold fixed_dpid
  split at h
  · next hdetail =>
      rw [hdetail, h]
      rfl
  all_goals cases h

theorem fixed_dpid_unauthored (hswitch : switch.kind = .switch) (h : authored_dpid switch = none) :
    fixed_dpid switch = named_dpid switch.name := by
  unfold TopologyResource.kind at hswitch
  unfold authored_dpid at h
  unfold fixed_dpid
  split at h
  · next hdetail => rw [hdetail, h]
  all_goals
    next hdetail =>
      rw [hdetail] at hswitch
      cases hswitch

theorem fixed_dpid_iff (hswitch : switch.kind = .switch)
    (hvalid : ∀ dpid ∈ authored_dpid switch, ∃ value, valid_dpid value = .ok dpid) :
    fixed_dpid switch = some value ↔ FixedId switch value := by
  cases hdpid : authored_dpid switch with
  | some dpid =>
    obtain ⟨text, htext⟩ := hvalid dpid hdpid
    rw [fixed_dpid_authored hdpid]
    constructor
    · intro h
      rw [← Option.some.inj h, (valid_dpid_ok htext).1]
      exact .authored hdpid htext
    · intro h
      cases h with
      | authored hdpid' hvalid' =>
        have hsame := Option.some.inj (hdpid.symm.trans hdpid')
        rw [hsame, (valid_dpid_ok hvalid').1]
      | named hnone =>
        rw [hdpid] at hnone
        cases hnone
  | none =>
    rw [fixed_dpid_unauthored hswitch hdpid, named_dpid_iff]
    constructor
    · rintro ⟨digits, hname, hdigits, hpos, hmax, rfl⟩
      exact .named hdpid hname hdigits hpos (Nat.lt_of_le_of_lt hmax (by decide))
    · intro h
      cases h with
      | authored hdpid' =>
        rw [hdpid] at hdpid'
        cases hdpid'
      | @named digits _ hname hdigits hpos hmax =>
        exact ⟨digits, hname, hdigits, hpos, Nat.le_sub_one_of_lt hmax, rfl⟩

theorem FixedId.is_dpid (h : FixedId switch value) : IsDpid value := by
  cases h with
  | authored _ hvalid => exact (valid_dpid_ok hvalid).2
  | named _ _ _ hpos hmax => exact ⟨hpos, Nat.le_sub_one_of_lt hmax⟩

/-- The entries of the fixed DPIDs. -/
def reserved_entries (switches : List TopologyResource) : Owners ℕ :=
  switches.filterMap fun s => (fixed_dpid s).map fun value => (value, s.name)

/-- The pass over fixed DPIDs, when it succeeds. -/
theorem reserve_dpids_ok (hunique : (owners.map fst).Nodup) (h : reserve_dpids owners switches = .ok owners') :
    owners' = (reserved_entries switches).reverse ++ owners ∧ (owners'.map fst).Nodup := by
  induction switches generalizing owners with
  | nil =>
    rw [← Except.ok.inj h]
    exact ⟨rfl, hunique⟩
  | cons s switches ih =>
    rw [reserve_dpids] at h
    cases hfixed : fixed_dpid s with
    | none =>
      simp only [hfixed] at h
      have hentries : reserved_entries (s :: switches) = reserved_entries switches := by
        rw [reserved_entries, filterMap_cons_none (by rw [hfixed]; rfl), ← reserved_entries]
      rw [hentries]
      exact ih hunique h
    | some value =>
      simp only [hfixed] at h
      have hentries : reserved_entries (s :: switches) = (value, s.name) :: reserved_entries switches := by
        rw [reserved_entries, filterMap_cons_some (by rw [hfixed]; rfl), ← reserved_entries]
      cases howner : owners.owner value with
      | some first =>
        simp only [howner] at h
        cases h
      | none =>
        simp only [howner] at h
        obtain ⟨heq, hunique'⟩ := ih (Owners.nodup_cons hunique howner s.name) h
        rw [hentries, reverse_cons, append_assoc, singleton_append]
        exact ⟨heq, hunique'⟩

theorem reserved_entries_names (switches : List TopologyResource) :
    (reserved_entries switches).map snd =
      (switches.filter fun s => (fixed_dpid s).isSome).map TopologyResource.name := by
  induction switches with
  | nil => rfl
  | cons s switches ih =>
    unfold reserved_entries at ih ⊢
    cases hfixed : fixed_dpid s with
    | none =>
      rw [filterMap_cons_none (by rw [hfixed]; rfl), ih, filter_cons_of_neg (by rw [hfixed]; decide)]
    | some value =>
      rw [filterMap_cons_some (by rw [hfixed]; rfl), filter_cons_of_pos (by rw [hfixed]; rfl),
        map_cons, ih, map_cons]

theorem mem_reserved_entries :
    (value, name) ∈ reserved_entries switches ↔ ∃ s ∈ switches, fixed_dpid s = some value ∧ s.name = name := by
  unfold reserved_entries
  rw [mem_filterMap]
  constructor
  · rintro ⟨s, hs, hentry⟩
    obtain ⟨value', hvalue, heq⟩ := Option.map_eq_some_iff.mp hentry
    obtain ⟨rfl, rfl⟩ := mk.inj heq
    exact ⟨s, hs, hvalue, rfl⟩
  · rintro ⟨s, hs, hvalue, rfl⟩
    exact ⟨s, hs, Option.map_eq_some_iff.mpr ⟨value, hvalue, rfl⟩⟩

/-- The pass over fixed DPIDs succeeds when they are distinct, and not among those there are. -/
theorem reserve_dpids_ok_iff (hunique : (owners.map fst).Nodup) :
    (∃ owners', reserve_dpids owners switches = .ok owners') ↔
      (owners.map fst ++ switches.filterMap fixed_dpid).Nodup := by
  induction switches generalizing owners with
  | nil =>
    rw [filterMap_nil, append_nil]
    exact iff_of_true ⟨owners, rfl⟩ hunique
  | cons s switches ih =>
    rw [reserve_dpids]
    cases hfixed : fixed_dpid s with
    | none =>
      rw [filterMap_cons_none hfixed]
      exact ih hunique
    | some value =>
      rw [filterMap_cons_some hfixed]
      cases howner : owners.owner value with
      | some first =>
        have hmem : value ∈ owners.map fst := Owners.mem_of_owner (by rw [howner]; rfl)
        simp only [howner]
        constructor
        · rintro ⟨owners', h⟩
          cases h
        · intro hnodup
          exact absurd mem_cons_self (disjoint_of_nodup_append hnodup hmem)
      | none =>
        have hone := ih (Owners.nodup_cons hunique howner s.name)
        rw [map_cons, cons_append] at hone
        simp only [howner]
        rw [perm_middle.nodup_iff]
        exact hone

/-- Two switches whose fixed DPIDs are one number. -/
def SharedFixed (switches : List TopologyResource) : Prop :=
  ∃ s ∈ switches, ∃ s' ∈ switches, s.name ≠ s'.name ∧ ∃ value, FixedId s value ∧ FixedId s' value

/-- The pass over fixed DPIDs fails exactly when two of them are one number. -/
theorem reserve_dpids_error_iff (hnames : (switches.map TopologyResource.name).Nodup)
    (hswitches : ∀ s ∈ switches, s.kind = .switch) (hvalid : DpidsValid switches) :
    (∃ e, reserve_dpids [] switches = .error e) ↔ SharedFixed switches := by
  have hempty : (([] : Owners ℕ).map fst).Nodup := nodup_nil
  have hfixed : ∀ s ∈ switches, ∀ value, fixed_dpid s = some value ↔ FixedId s value :=
    fun s hs value => fixed_dpid_iff (hswitches s hs) (hvalid s hs)
  constructor
  · rintro ⟨e, herror⟩
    by_contra hnone
    have hnodup : (switches.filterMap fixed_dpid).Nodup := by
      refine pairwise_filterMap.mpr ?_
      refine (pairwise_map.mp hnames).imp_of_mem ?_
      intro s s' hs hs' hname value hvalue value' hvalue' heq
      rw [← heq] at hvalue'
      exact hnone ⟨s, hs, s', hs', hname, value, (hfixed s hs value).mp hvalue, (hfixed s' hs' value).mp hvalue'⟩
    obtain ⟨owners', hok⟩ := (reserve_dpids_ok_iff hempty).mpr hnodup
    rw [herror] at hok
    cases hok
  · rintro ⟨s, hs, s', hs', hname, value, hvalue, hvalue'⟩
    cases hresult : reserve_dpids [] switches with
    | error e => exact ⟨e, rfl⟩
    | ok owners' =>
      obtain ⟨heq, hunique⟩ := reserve_dpids_ok hempty hresult
      have hentry : ∀ r ∈ switches, FixedId r value → (value, r.name) ∈ owners' := by
        intro r hr hid
        rw [heq, append_nil, mem_reverse]
        exact mem_reserved_entries.mpr ⟨r, hr, (hfixed r hr value).mpr hid, rfl⟩
      exact absurd (Owners.owner_unique hunique (hentry s hs hvalue) (hentry s' hs' hvalue')) hname

end Reserve

/-! ## Searched DPIDs -/

section Search

variable {sha256 : String → ℕ} {owners owners' : Owners ℕ} {switches : List TopologyResource}

/-- Where the search for a name starts. -/
def first_candidate (sha256 : String → ℕ) (name : String) : ℕ := if sha256 name = 0 then 1 else sha256 name

/-- The pass over the other switches, as runs of its loop. -/
inductive DpidsSearched (sha256 : String → ℕ) : Owners ℕ → List TopologyResource → Owners ℕ → Prop
  | done {owners : Owners ℕ} : DpidsSearched sha256 owners [] owners
  | fixed {owners owners' : Owners ℕ} {s : TopologyResource} {switches : List TopologyResource}
      (hfixed : (fixed_dpid s).isSome = true) (rest : DpidsSearched sha256 owners switches owners') :
      DpidsSearched sha256 owners (s :: switches) owners'
  | searched {owners owners' : Owners ℕ} {s : TopologyResource} {switches : List TopologyResource} {value : ℕ}
      (hfixed : ¬ (fixed_dpid s).isSome = true) (hprobe : ProbeEnds owners (first_candidate sha256 s.name) value)
      (rest : DpidsSearched sha256 ((value, s.name) :: owners) switches owners') :
      DpidsSearched sha256 owners (s :: switches) owners'

/-- The switches whose DPID is searched for. -/
def searched_switches (switches : List TopologyResource) : List TopologyResource :=
  switches.filter fun s => ! (fixed_dpid s).isSome

theorem first_candidate_is_dpid (hdigest : ∀ name, sha256 name < 2 ^ 64) (name : String) :
    IsDpid (first_candidate sha256 name) := by
  have hlt := hdigest name
  unfold first_candidate
  by_cases hzero : sha256 name = 0
  · rw [if_pos hzero]
    exact ⟨by decide, by decide⟩
  · rw [if_neg hzero]
    exact ⟨Nat.pos_of_ne_zero hzero, Nat.le_sub_one_of_lt hlt⟩

/-- The run lemma: each switch is entered once, with a number of its own. -/
theorem DpidsSearched.spec (h : DpidsSearched sha256 owners switches owners')
    (hdigest : ∀ name, sha256 name < 2 ^ 64) (hunique : (owners.map fst).Nodup)
    (hrange : ∀ value ∈ owners.map fst, IsDpid value) :
    ∃ chosen : Owners ℕ, owners' = chosen ++ owners ∧
      chosen.map snd = ((searched_switches switches).map TopologyResource.name).reverse ∧
      (owners'.map fst).Nodup ∧ ∀ value ∈ owners'.map fst, IsDpid value := by
  induction h with
  | done => exact ⟨[], rfl, rfl, hunique, hrange⟩
  | @fixed owners owners' s switches hfixed _ ih =>
    have hsame : searched_switches (s :: switches) = searched_switches switches :=
      filter_cons_of_neg (by rw [hfixed]; decide)
    rw [hsame]
    exact ih hunique hrange
  | @searched owners owners' s switches value hfixed hprobe _ ih =>
    obtain ⟨hvalue, hfree⟩ := hprobe.found (first_candidate_is_dpid hdigest s.name)
    have hmore : searched_switches (s :: switches) = s :: searched_switches switches :=
      filter_cons_of_pos (by rw [(Bool.not_eq_true _).mp hfixed]; rfl)
    obtain ⟨chosen, heq, hnames, hunique', hrange'⟩ := ih (Owners.nodup_cons hunique hfree s.name) fun other hother =>
      (mem_cons.mp hother).elim (fun hthis => hthis ▸ hvalue) (hrange other)
    refine ⟨chosen ++ [(value, s.name)], ?_, ?_, hunique', hrange'⟩
    · rw [heq, append_assoc, singleton_append]
    · rw [hmore, map_append, map_singleton, hnames, map_cons, reverse_cons]

/-- The pass ends, and the bounded search is its run, when there are numbers enough. -/
theorem search_dpids_ends (hdigest : ∀ name, sha256 name < 2 ^ 64)
    (hfew : owners.length + (searched_switches switches).length ≤ dpid_maximum) :
    DpidsSearched sha256 owners switches (search_dpids sha256 owners switches) := by
  induction switches generalizing owners with
  | nil => exact .done
  | cons s switches ih =>
    rw [search_dpids]
    by_cases hfixed : (fixed_dpid s).isSome = true
    · rw [if_pos hfixed]
      have hsame : searched_switches (s :: switches) = searched_switches switches :=
        filter_cons_of_neg (by rw [hfixed]; decide)
      rw [hsame] at hfew
      exact .fixed hfixed (ih hfew)
    · rw [if_neg hfixed]
      have hmore : searched_switches (s :: switches) = s :: searched_switches switches :=
        filter_cons_of_pos (by rw [(Bool.not_eq_true _).mp hfixed]; rfl)
      rw [hmore, length_cons] at hfew
      have hprobe := @probe_ends owners _ (first_candidate_is_dpid hdigest s.name) (by omega)
      exact .searched hfixed hprobe (ih (by rw [length_cons]; omega))

end Search

/-! ## The allocation -/

section DpidAllocation

variable {sha256 : String → ℕ} {resources : List TopologyResource} {owners : Owners ℕ}

/-- The runs of `_allocate_switch_dpids` that end, with what they return or raise. -/
inductive DpidsReturned (sha256 : String → ℕ) (resources : List TopologyResource) :
    Except ResourceError (Owners ℕ) → Prop
  | shared {e : ResourceError} (h : reserve_dpids [] (sorted_switches resources) = .error e) :
      DpidsReturned sha256 resources (.error e)
  | allocated {owners owners' : Owners ℕ} (h : reserve_dpids [] (sorted_switches resources) = .ok owners)
      (hsearch : DpidsSearched sha256 owners (sorted_switches resources) owners') :
      DpidsReturned sha256 resources (.ok owners')

/-- The DPIDs of switches, as texts under their names. -/
structure DpidsAllocated (switches : List TopologyResource) (owners : Owners ℕ) : Prop where
  digits : ∀ s ∈ switches, (switch_dpid owners s.name).length = 16 ∧
    (switch_dpid owners s.name).toList.all is_lower_hex = true
  nonzero : ∀ s ∈ switches, dpid_number (switch_dpid owners s.name) ≠ 0
  distinct : ∀ s ∈ switches, ∀ s' ∈ switches,
    dpid_number (switch_dpid owners s.name) = dpid_number (switch_dpid owners s'.name) → s = s'
  fixed : ∀ s ∈ switches, ∀ value, FixedId s value → dpid_number (switch_dpid owners s.name) = value

theorem sorted_switches_perm (resources : List TopologyResource) :
    (sorted_switches resources).Perm (resources.filter fun r => r.kind = .switch) :=
  perm_insertionSort _ _

variable {s : TopologyResource}

theorem switch_of_sorted (h : s ∈ sorted_switches resources) : s.kind = .switch :=
  of_decide_eq_true (mem_filter.mp ((sorted_switches_perm resources).mem_iff.mp h)).2

section

variable (hdigest : ∀ name, sha256 name < 2 ^ 64)
include hdigest

/-- What a run that returns has entered: every switch once, with numbers that are distinct. -/
theorem returned_owners (hvalid : DpidsValid (sorted_switches resources))
    (h : DpidsReturned sha256 resources (.ok owners)) :
    (owners.map snd).Perm ((sorted_switches resources).map TopologyResource.name) ∧
      (owners.map fst).Nodup ∧ (∀ value ∈ owners.map fst, IsDpid value) ∧
      ∀ s ∈ sorted_switches resources, ∀ value ∈ fixed_dpid s, (value, s.name) ∈ owners := by
  have hempty : (([] : Owners ℕ).map fst).Nodup := nodup_nil
  cases h with
  | @allocated reserved _ hreserved hsearch =>
    obtain ⟨hentries, hunique⟩ := reserve_dpids_ok hempty hreserved
    rw [append_nil] at hentries
    have hrange : ∀ value ∈ reserved.map fst, IsDpid value := by
      intro value hvalue
      obtain ⟨⟨value', name⟩, hentry, rfl⟩ := mem_map.mp hvalue
      rw [hentries, mem_reverse] at hentry
      obtain ⟨s, hs, hfixed, -⟩ := mem_reserved_entries.mp hentry
      exact ((fixed_dpid_iff (switch_of_sorted hs) (hvalid s hs)).mp hfixed).is_dpid
    obtain ⟨chosen, heq, hnames, hunique', hrange'⟩ := hsearch.spec hdigest hunique hrange
    refine ⟨?_, hunique', hrange', fun s hs value hvalue => ?_⟩
    · rw [heq, map_append, hnames, hentries, map_reverse, reserved_entries_names]
      refine ((reverse_perm _).append (reverse_perm _)).trans ?_
      rw [← map_append]
      exact (perm_append_comm.trans (filter_append_perm _ _)).map _
    · rw [heq, hentries]
      exact mem_append_right _ (mem_reverse.mpr (mem_reserved_entries.mpr ⟨s, hs, hvalue, rfl⟩))

theorem dpids_allocated_of_returned
    (hnames : ((sorted_switches resources).map TopologyResource.name).Nodup)
    (hvalid : DpidsValid (sorted_switches resources)) (h : DpidsReturned sha256 resources (.ok owners)) :
    DpidsAllocated (sorted_switches resources) owners := by
  obtain ⟨hperm, hunique, hrange, hfixed⟩ := returned_owners hdigest hvalid h
  have hkeys : (owners.map snd).Nodup := hperm.nodup_iff.mpr hnames
  have htext : ∀ {value : ℕ} {name : String}, (value, name) ∈ owners → switch_dpid owners name = hex_text 16 value := by
    intro value name hmem
    have hfind : Keyed.find snd owners name = some (value, name) :=
      (Keyed.find_eq_some_iff hkeys).mpr ⟨hmem, rfl⟩
    rw [switch_dpid, hfind]
    rfl
  have hentry : ∀ s ∈ sorted_switches resources, ∃ value, IsDpid value ∧ (value, s.name) ∈ owners := by
    intro s hs
    obtain ⟨⟨value, name⟩, hmem, rfl⟩ := mem_map.mp (hperm.mem_iff.mpr (mem_map_of_mem hs))
    exact ⟨value, hrange value (mem_map_of_mem hmem), hmem⟩
  refine ⟨fun s hs => ?_, fun s hs => ?_, fun s hs s' hs' hsame => ?_, fun s hs value hid => ?_⟩
  · obtain ⟨value, hvalue, hmem⟩ := hentry s hs
    rw [htext hmem]
    exact hex_text_digits hvalue.2
  · obtain ⟨value, hvalue, hmem⟩ := hentry s hs
    rw [htext hmem, dpid_number_hex_text]
    exact Nat.pos_iff_ne_zero.mp hvalue.1
  · obtain ⟨value, -, hmem⟩ := hentry s hs
    obtain ⟨value', -, hmem'⟩ := hentry s' hs'
    rw [htext hmem, htext hmem', dpid_number_hex_text, dpid_number_hex_text] at hsame
    rw [← hsame] at hmem'
    exact inj_on_of_nodup_map hnames hs hs' (Owners.owner_unique hunique hmem hmem')
  · have hvalue := (fixed_dpid_iff (switch_of_sorted hs) (hvalid s hs)).mpr hid
    rw [htext (hfixed s hs value hvalue), dpid_number_hex_text]

/-- With numbers enough the allocation returns what the bounded one does. -/
theorem returned_of_few (hfew : (sorted_switches resources).length ≤ dpid_maximum) :
    DpidsReturned sha256 resources (allocate_switch_dpids sha256 resources) := by
  have hempty : (([] : Owners ℕ).map fst).Nodup := nodup_nil
  unfold allocate_switch_dpids
  cases hreserved : reserve_dpids [] (sorted_switches resources) with
  | error e => exact .shared hreserved
  | ok reserved =>
    refine .allocated hreserved (search_dpids_ends hdigest ?_)
    obtain ⟨hentries, -⟩ := reserve_dpids_ok hempty hreserved
    have hlength : reserved.length = ((sorted_switches resources).filter fun s => (fixed_dpid s).isSome).length := by
      rw [hentries, append_nil, length_reverse, ← length_map snd, reserved_entries_names,
        length_map]
    have hsplit := (filter_append_perm (fun s => (fixed_dpid s).isSome) (sorted_switches resources)).length_eq
    rw [length_append] at hsplit
    rw [hlength, searched_switches, hsplit]
    exact hfew

end

/-- The allocation of DPIDs, of switches that are fewer than the numbers of 64 bits: it
ends, it fails exactly when two fixed DPIDs are one number, and what it returns. -/
theorem dpids_allocated (digest : String → Fin (2 ^ 64)) (hnames : ((sorted_switches resources).map TopologyResource.name).Nodup)
    (hvalid : DpidsValid (sorted_switches resources)) (hfew : (sorted_switches resources).length < 2 ^ 64) :
    (∃ result, DpidsReturned (fun name => digest name) resources result) ∧
    ((∃ e, DpidsReturned (fun name => digest name) resources (.error e)) ↔ SharedFixed (sorted_switches resources)) ∧
    ∀ owners, DpidsReturned (fun name => digest name) resources (.ok owners) →
      DpidsAllocated (sorted_switches resources) owners := by
  have hdigest : ∀ name, ((digest name : Fin (2 ^ 64)) : ℕ) < 2 ^ 64 := fun name => (digest name).isLt
  have herror := reserve_dpids_error_iff hnames (fun s hs => switch_of_sorted hs) hvalid
  refine ⟨⟨_, returned_of_few hdigest (Nat.le_sub_one_of_lt hfew)⟩, ?_,
    fun owners => dpids_allocated_of_returned hdigest hnames hvalid⟩
  rw [← herror]
  constructor
  · rintro ⟨e, hreturned⟩
    cases hreturned with
    | shared h => exact ⟨e, h⟩
  · rintro ⟨e, h⟩
    exact ⟨e, .shared h⟩

/-- A switch without a DPID. -/
def plain_switch (name : String) : TopologyResource where
  name := name
  detail := .switch none .secure .kernel [] [.openflow_13] []

/-- A DPID in capitals, a name that fixes the number after it, and a search that starts at the first of them. -/
def mixed_switches : List TopologyResource :=
  [plain_switch "edge", { plain_switch "core" with
    detail := .switch "000000000000000a" .secure .kernel [] [.openflow_13] [] }, plain_switch "s11"]

theorem dpids_allocated_mixed :
    ∃ owners, DpidsReturned (fun _ => 10) mixed_switches (.ok owners) ∧ valid_dpid "A" = .ok "000000000000000a" ∧
      ["core", "edge", "s11"].map (switch_dpid owners) = ["000000000000000a", "000000000000000c", "000000000000000b"] ∧
      DpidsAllocated (sorted_switches mixed_switches) owners := by
  have hvalidated : valid_dpid "A" = .ok "000000000000000a" := by decide +kernel
  have hnames : ((sorted_switches mixed_switches).map TopologyResource.name).Nodup := by decide
  have hvalid : DpidsValid (sorted_switches mixed_switches) := by
    intro s hs dpid hdpid
    have hmem := (mem_filter.mp ((sorted_switches_perm mixed_switches).mem_iff.mp hs)).1
    simp only [mixed_switches, mem_cons, not_mem_nil, or_false] at hmem
    rcases hmem with rfl | rfl | rfl
    · cases hdpid
    · exact ⟨"A", by rw [← Option.some.inj hdpid]; exact hvalidated⟩
    · cases hdpid
  have hall := dpids_allocated (fun _ => 10) hnames hvalid (by decide +kernel)
  have htexts : ((allocate_switch_dpids (fun _ => 10) mixed_switches).toOption.map fun owners =>
      ["core", "edge", "s11"].map (switch_dpid owners)) =
        some ["000000000000000a", "000000000000000c", "000000000000000b"] := by decide
  have hreturned : DpidsReturned (fun _ => 10) mixed_switches (allocate_switch_dpids (fun _ => 10) mixed_switches) :=
    returned_of_few (fun _ => by decide) (by decide +kernel)
  cases hresult : allocate_switch_dpids (fun _ => 10) mixed_switches with
  | error e =>
    rw [hresult] at htexts
    cases htexts
  | ok owners =>
    rw [hresult] at htexts hreturned
    exact ⟨owners, hreturned, hvalidated, Option.some.inj htexts, hall.2.2 owners hreturned⟩

end DpidAllocation

end MininetAi
