/-
Addresses of host interfaces (`_allocate_addresses`).

Both allocations write down who owns a value before they choose more of them, so what is
distinct are the values in that list: an interface whose address is there under its own
name shares it with nobody. The search for addresses goes up once, so it stops only when
everything between the network and the broadcast address is written down.

The validators of the specification bring MAC addresses and their prefix to lower case, so
MAC addresses are compared as texts.
-/
import Mathlib.Order.Interval.Finset.Nat
import MininetAi.Compiler.ResourcesAdapters
import MininetAi.Lib.IntegerText
import MininetAi.Lib.Separator

set_option autoImplicit false

namespace MininetAi

open Option Except Prod

open List

/-! ## Texts of addresses -/

section Texts

theorem digit_ne_of_mem {n : ℕ} {c : Char} (hc : ∀ d < 10, c ≠ Nat.digitChar d) : c ∉ (toString n).toList := by
  rw [Nat.toString_eq_repr, Nat.toList_repr]
  intro hmem
  obtain ⟨d, hd, hchar⟩ := @Text.digit_of_mem_toDigits 10 n (by decide) (by decide) c hmem
  exact hc d hd hchar

theorem dot_not_in_number (n : ℕ) : '.' ∉ (toString n).toList := digit_ne_of_mem (by decide)

theorem slash_not_in_number (n : ℕ) : '/' ∉ (toString n).toList := digit_ne_of_mem (by decide)

/-- The four octets of an address. -/
theorem address_text_toList (address : ℕ) : (address_text address).toList =
      (toString (address / 2 ^ 24 % 256)).toList ++ ([] ++ '.' :: ((toString (address / 2 ^ 16 % 256)).toList ++
        ([] ++ '.' :: ((toString (address / 2 ^ 8 % 256)).toList ++
          ([] ++ '.' :: (toString (address / 2 ^ 0 % 256)).toList))))) := by
  rw [address_text, String.toList_intercalate]
  simp only [map_cons, map_nil, intercalate_cons_cons, intercalate_singleton, append_assoc]
  rfl

variable {x y : ℕ}

/-- The text of an address determines it. -/
theorem address_text_inj (hx : x < 2 ^ 32) (hy : y < 2 ^ 32) (h : address_text x = address_text y) :
    x = y := by
  have hlist := congrArg String.toList h
  rw [address_text_toList, address_text_toList] at hlist
  -- the octets are read back from the last one on
  have hregroup : ∀ a b c d : List Char, a ++ ([] ++ '.' :: (b ++ ([] ++ '.' :: (c ++ ([] ++ '.' :: d))))) =
      (a ++ '.' :: (b ++ '.' :: c)) ++ ([] ++ '.' :: d) := by
    intro a b c d
    simp only [nil_append, append_assoc, cons_append]
  rw [hregroup, hregroup] at hlist
  obtain ⟨hfirst, hlast⟩ := (List.append_separator_inj (dot_not_in_number _) (dot_not_in_number _)).mp hlist
  have hregroup' : ∀ a b c : List Char, a ++ '.' :: (b ++ '.' :: c) = (a ++ '.' :: b) ++ ([] ++ '.' :: c) := by
    intro a b c
    simp only [nil_append, append_assoc, cons_append]
  rw [hregroup', hregroup'] at hfirst
  obtain ⟨hfirst, hthird⟩ := (List.append_separator_inj (dot_not_in_number _) (dot_not_in_number _)).mp hfirst
  rw [← nil_append ('.' :: (toString (x / 2 ^ 16 % 256)).toList),
    ← nil_append ('.' :: (toString (y / 2 ^ 16 % 256)).toList)] at hfirst
  obtain ⟨hfirst, hsecond⟩ := (List.append_separator_inj (dot_not_in_number _) (dot_not_in_number _)).mp hfirst
  have hoctet : ∀ {m n : ℕ}, (toString m).toList = (toString n).toList → m = n :=
    fun heq => Text.toString_inj (String.toList_injective heq)
  have h1 := hoctet hfirst
  have h2 := hoctet hsecond
  have h3 := hoctet hthird
  have h4 := hoctet hlast
  omega

theorem interface_text_inj {p q : ℕ} (hx : x < 2 ^ 32) (hy : y < 2 ^ 32)
    (h : interface_text x p = interface_text y q) : x = y := by
  have hlist := congrArg String.toList h
  simp only [interface_text, String.toList_append, append_assoc] at hlist
  have hsplit := (List.append_separator_inj (s := []) (slash_not_in_number p) (slash_not_in_number q)).mp hlist
  exact address_text_inj hx hy (String.toList_injective hsplit.1)

end Texts

/-! ## Who owns a value -/

section Values

variable {α : Type} [DecidableEq α] {used : Owners α}

variable {value : α}

theorem Owners.owner_none_iff : used.owner value = none ↔ value ∉ used.map fst := by
  rw [Owners.owner, map_eq_none_iff]
  exact Keyed.find_none_iff

theorem Owners.nodup_cons (hused : (used.map fst).Nodup) (hfree : used.owner value = none)
    (name : String) : (((value, name) :: used : Owners α).map fst).Nodup :=
  List.nodup_cons.mpr ⟨Owners.owner_none_iff.mp hfree, hused⟩

omit [DecidableEq α] in
/-- A value has one owner. -/
theorem Owners.owner_unique (hused : (used.map fst).Nodup) {name name' : String}
    (h : (value, name) ∈ used) (h' : (value, name') ∈ used) : name = name' :=
  (mk.inj (inj_on_of_nodup_map hused h h' rfl)).2

end Values

/-! ## IPv4 addresses -/

section Addresses

variable {subnet : IPv4Network} {used : Owners ℕ} {adapters : List AdapterDraft}

/-- The address that an adapter is given. -/
def authored_address (adapter : AdapterDraft) : Option ℕ :=
  match adapter.ipv4_setting with
  | some (.fixed setting) => some setting.ip
  | some .auto | some .unset | none => none

/-- The adapter with the address it is given. -/
def fix_address (adapter : AdapterDraft) : AdapterDraft :=
  match adapter.ipv4_setting with
  | some (.fixed setting) => { adapter with ipv4 := some (interface_text setting.ip setting.prefixlen) }
  | some .auto | some .unset | none => adapter

/-- The address is one of the subnet's hosts. -/
def IPv4Network.Inside (subnet : IPv4Network) (address : ℕ) : Prop :=
  subnet.network_address < address ∧ address < subnet.broadcast_address

variable {adapter : String} {address candidate : ℕ}

theorem check_address_ok (h : check_address subnet used adapter address = .ok ()) :
    subnet.Inside address ∧ used.owner address = none := by
  unfold check_address at h
  by_cases houtside : address < subnet.network_address ∨ subnet.broadcast_address < address
  · rw [if_pos houtside] at h
    cases h
  rw [if_neg houtside] at h
  by_cases hreserved : address = subnet.network_address ∨ address = subnet.broadcast_address
  · rw [if_pos hreserved] at h
    cases h
  rw [if_neg hreserved] at h
  cases howner : used.owner address with
  | some first =>
    rw [howner] at h
    cases h
  | none => exact ⟨⟨by omega, by omega⟩, rfl⟩

theorem check_address_error :
    check_address subnet used adapter address ≠ .error .addresses_exhausted := by
  intro h
  unfold check_address at h
  by_cases houtside : address < subnet.network_address ∨ subnet.broadcast_address < address
  · rw [if_pos houtside] at h
    cases h
  rw [if_neg houtside] at h
  by_cases hreserved : address = subnet.network_address ∨ address = subnet.broadcast_address
  · rw [if_pos hreserved] at h
    cases h
  rw [if_neg hreserved] at h
  cases howner : used.owner address with
  | some first =>
    rw [howner] at h
    cases h
  | none =>
    rw [howner] at h
    cases h

/-- What the first pass leaves: the addresses that are given, each with its owner. -/
structure AddressesFixed (subnet : IPv4Network) (used : Owners ℕ) (adapters fixed : List AdapterDraft)
    (used' : Owners ℕ) : Prop where
  fixed : fixed = adapters.map fix_address
  unique : (used'.map fst).Nodup
  kept : used ⊆ used'
  values : ∀ value, value ∈ used'.map fst ↔ value ∈ used.map fst ∨ value ∈ adapters.filterMap authored_address
  owned : ∀ adapter ∈ adapters, ∀ address ∈ authored_address adapter,
    (address, adapter.name) ∈ used' ∧ subnet.Inside address

theorem fix_addresses_ok {fixed : List AdapterDraft} {used' : Owners ℕ} (hused : (used.map fst).Nodup)
    (h : fix_addresses subnet used adapters = .ok (fixed, used')) : AddressesFixed subnet used adapters fixed used' := by
  induction adapters generalizing used fixed with
  | nil =>
    obtain ⟨rfl, rfl⟩ := mk.inj (Except.ok.inj h)
    refine ⟨rfl, hused, fun _ hmem => hmem, fun value => ?_, fun adapter hmem => absurd hmem not_mem_nil⟩
    exact (or_iff_left not_mem_nil).symm
  | cons adapter adapters ih =>
    rw [fix_addresses] at h
    have hskip : authored_address adapter = none → fix_address adapter = adapter →
        (do
          let rest ← fix_addresses subnet used adapters
          pure (adapter :: rest.1, rest.2)) = Except.ok (fixed, used') →
        AddressesFixed subnet used (adapter :: adapters) fixed used' := by
      intro hnone hsame hrun
      obtain ⟨⟨rest, owners⟩, hrest, hresult⟩ := bind_ok_iff.mp hrun
      obtain ⟨rfl, rfl⟩ := mk.inj (Except.ok.inj hresult)
      have hall := ih hused hrest
      refine ⟨?_, hall.unique, hall.kept, fun value => ?_, fun other hother => ?_⟩
      · rw [map_cons, hsame, ← hall.fixed]
      · rw [filterMap_cons_none hnone]
        exact hall.values value
      · rcases mem_cons.mp hother with rfl | hother
        · intro address haddress
          rw [hnone] at haddress
          cases haddress
        · exact hall.owned other hother
    cases hsetting : adapter.ipv4_setting with
    | none =>
      simp only [hsetting] at h
      exact hskip (by rw [authored_address, hsetting]) (by rw [fix_address, hsetting]) h
    | some setting =>
      cases setting with
      | auto =>
        simp only [hsetting] at h
        exact hskip (by rw [authored_address, hsetting]) (by rw [fix_address, hsetting]) h
      | unset =>
        simp only [hsetting] at h
        exact hskip (by rw [authored_address, hsetting]) (by rw [fix_address, hsetting]) h
      | fixed interface =>
        simp only [hsetting] at h
        obtain ⟨⟨⟩, hcheck, h⟩ := bind_ok_iff.mp h
        obtain ⟨⟨rest, owners⟩, hrest, hresult⟩ := bind_ok_iff.mp h
        obtain ⟨rfl, rfl⟩ := mk.inj (Except.ok.inj hresult)
        obtain ⟨hinside, hfree⟩ := check_address_ok hcheck
        have hauthored : authored_address adapter = some interface.ip := by rw [authored_address, hsetting]
        have hall := ih (Owners.nodup_cons hused hfree adapter.name) hrest
        refine ⟨?_, hall.unique, ?_, fun value => ?_, fun other hother => ?_⟩
        · rw [map_cons, ← hall.fixed, fix_address, hsetting]
        · exact fun entry hentry => hall.kept (mem_cons_of_mem _ hentry)
        · rw [hall.values, filterMap_cons_some hauthored, map_cons, mem_cons, mem_cons]
          tauto
        · rcases mem_cons.mp hother with rfl | hother
          · intro address haddress
            rw [hauthored] at haddress
            rw [← Option.some.inj haddress]
            exact ⟨hall.kept mem_cons_self, hinside⟩
          · exact hall.owned other hother

theorem fix_addresses_error : fix_addresses subnet used adapters ≠ .error .addresses_exhausted := by
  induction adapters generalizing used with
  | nil => exact nofun
  | cons adapter adapters ih =>
    intro h
    rw [fix_addresses] at h
    cases hsetting : adapter.ipv4_setting with
    | none =>
      simp only [hsetting] at h
      rcases bind_error_iff.mp h with hrest | ⟨_, -, hpure⟩
      · exact ih hrest
      · cases hpure
    | some setting =>
      cases setting with
      | auto =>
        simp only [hsetting] at h
        rcases bind_error_iff.mp h with hrest | ⟨_, -, hpure⟩
        · exact ih hrest
        · cases hpure
      | unset =>
        simp only [hsetting] at h
        rcases bind_error_iff.mp h with hrest | ⟨_, -, hpure⟩
        · exact ih hrest
        · cases hpure
      | fixed interface =>
        simp only [hsetting] at h
        rcases bind_error_iff.mp h with hcheck | ⟨_, -, h⟩
        · exact check_address_error hcheck
        · rcases bind_error_iff.mp h with hrest | ⟨_, -, hpure⟩
          · exact ih hrest
          · cases hpure

/-- The second pass chooses an address for the adapter. -/
def needs_address (adapter : AdapterDraft) : Bool :=
  decide (¬ (adapter.ipv4_setting = some .unset ∨ adapter.ipv4.isSome = true))

/-- What the second pass makes of an adapter. -/
def AddressChosen (subnet : IPv4Network) (owners : Owners ℕ) (adapter result : AdapterDraft) : Prop :=
  (needs_address adapter = false ∧ result = adapter) ∨
    needs_address adapter = true ∧ ∃ address, subnet.Inside address ∧ (address, adapter.name) ∈ owners ∧
      result = { adapter with ipv4 := some (interface_text address subnet.prefixlen) }

/-- The search goes up from the candidate and passes only addresses that are used. -/
theorem free_address_spec (last : ℕ) (used : Owners ℕ) (candidate : ℕ) :
    candidate ≤ free_address last used candidate ∧
      ∀ n, candidate ≤ n → n < free_address last used candidate → n ≤ last ∧ n ∈ used.map fst := by
  obtain ⟨hle, hbetween⟩ := @first_outside_succ_spec (fun n => decide (n ≤ last) && (used.owner n).isSome)
    used.length candidate
  refine ⟨hle, fun n hfrom hto => ?_⟩
  obtain ⟨hlast, hsome⟩ := (Bool.and_eq_true _ _).mp (hbetween n hfrom hto)
  exact ⟨of_decide_eq_true hlast, Owners.mem_of_owner hsome⟩

theorem choose_addresses_cons (subnet : IPv4Network) (candidate : ℕ) (used : Owners ℕ) (adapter : AdapterDraft)
    (adapters : List AdapterDraft) :
    choose_addresses subnet candidate used (adapter :: adapters) =
      if needs_address adapter = true then
        if subnet.broadcast_address - 1 < free_address (subnet.broadcast_address - 1) used candidate then
          .error .addresses_exhausted
        else (choose_addresses subnet (free_address (subnet.broadcast_address - 1) used candidate + 1)
            ((free_address (subnet.broadcast_address - 1) used candidate, adapter.name) :: used) adapters).map fun rest =>
          { adapter with ipv4 := some (interface_text (free_address (subnet.broadcast_address - 1) used candidate)
              subnet.prefixlen) } :: rest
      else (choose_addresses subnet candidate used adapters).map fun rest => adapter :: rest := by
  rw [choose_addresses]
  by_cases hskip : adapter.ipv4_setting = some .unset ∨ adapter.ipv4.isSome = true
  · have hneeds : ¬ needs_address adapter = true := by
      rw [needs_address, decide_eq_true_eq, not_not]
      exact hskip
    rw [if_pos hskip, if_neg hneeds]
    cases choose_addresses subnet candidate used adapters <;> rfl
  · have hneeds : needs_address adapter = true := decide_eq_true hskip
    rw [if_neg hskip, if_pos hneeds]
    refine if_congr Iff.rfl rfl ?_
    cases choose_addresses subnet (free_address (subnet.broadcast_address - 1) used candidate + 1)
      ((free_address (subnet.broadcast_address - 1) used candidate, adapter.name) :: used) adapters <;> rfl

/-- The run lemma of the second pass. -/
theorem choose_addresses_ok {result : List AdapterDraft} (hused : (used.map fst).Nodup)
    (hfrom : subnet.network_address < candidate)
    (h : choose_addresses subnet candidate used adapters = .ok result) :
    ∃ used', used ⊆ used' ∧ (used'.map fst).Nodup ∧ Forall₂ (AddressChosen subnet used') adapters result := by
  induction adapters generalizing candidate used result with
  | nil =>
    rw [← Except.ok.inj h]
    exact ⟨used, fun _ hmem => hmem, hused, .nil⟩
  | cons adapter adapters ih =>
    rw [choose_addresses_cons] at h
    by_cases hneeds : needs_address adapter = true
    · rw [if_pos hneeds] at h
      obtain ⟨hle, -⟩ := free_address_spec (subnet.broadcast_address - 1) used candidate
      have hfree := free_address_free (subnet.broadcast_address - 1) used candidate
      set address := free_address (subnet.broadcast_address - 1) used candidate
      by_cases hlast : subnet.broadcast_address - 1 < address
      · rw [if_pos hlast] at h
        cases h
      rw [if_neg hlast] at h
      obtain ⟨rest, hrest, rfl⟩ := map_ok_iff.mp h
      have hnone : used.owner address = none := by
        have hnot := hfree.resolve_left hlast
        rwa [isSome_eq_false_iff, isNone_iff_eq_none] at hnot
      obtain ⟨used', hmore, hunique, hall⟩ := ih (Owners.nodup_cons hused hnone adapter.name) (by omega) hrest
      refine ⟨used', fun entry hentry => hmore (mem_cons_of_mem _ hentry), hunique, .cons ?_ hall⟩
      exact Or.inr ⟨hneeds, address, ⟨by omega, by omega⟩, hmore mem_cons_self, rfl⟩
    · rw [if_neg hneeds] at h
      obtain ⟨rest, hrest, rfl⟩ := map_ok_iff.mp h
      obtain ⟨used', hmore, hunique, hall⟩ := ih hused hfrom hrest
      exact ⟨used', hmore, hunique, .cons (Or.inl ⟨(Bool.not_eq_true _).mp hneeds, rfl⟩) hall⟩

/-- The addresses from a candidate on that nobody has. -/
def free_addresses (subnet : IPv4Network) (candidate : ℕ) (used : Owners ℕ) : Finset ℕ :=
  (Finset.Icc candidate (subnet.broadcast_address - 1)).filter fun n => n ∉ used.map fst

/-- The pool is exhausted only when more addresses are needed than are free. -/
theorem choose_addresses_error {e : ResourceError}
    (h : choose_addresses subnet candidate used adapters = .error e) :
    (free_addresses subnet candidate used).card < adapters.countP needs_address := by
  induction adapters generalizing candidate used e with
  | nil => cases h
  | cons adapter adapters ih =>
    rw [choose_addresses_cons] at h
    by_cases hneeds : needs_address adapter = true
    · rw [if_pos hneeds] at h
      rw [countP_cons_of_pos hneeds]
      obtain ⟨hle, hbetween⟩ := free_address_spec (subnet.broadcast_address - 1) used candidate
      set address := free_address (subnet.broadcast_address - 1) used candidate
      by_cases hlast : subnet.broadcast_address - 1 < address
      · -- everything from the candidate to the last address is used
        have hempty : free_addresses subnet candidate used = ∅ := by
          refine Finset.filter_eq_empty_iff.mpr fun n hn => ?_
          rw [Finset.mem_Icc] at hn
          exact not_not_intro (hbetween n hn.1 (by omega)).2
        rw [hempty, Finset.card_empty]
        exact Nat.succ_pos _
      rw [if_neg hlast] at h
      have hfew := ih (map_error_iff.mp h)
      have hsubset : free_addresses subnet candidate used ⊆
          insert address (free_addresses subnet (address + 1) ((address, adapter.name) :: used)) := by
        intro n hn
        obtain ⟨hrange, hnot⟩ := Finset.mem_filter.mp hn
        rw [Finset.mem_Icc] at hrange
        rw [Finset.mem_insert]
        by_cases heq : n = address
        · exact Or.inl heq
        · have hgt : address < n := by
            by_contra hle'
            exact hnot (hbetween n hrange.1 (by omega)).2
          refine Or.inr (Finset.mem_filter.mpr ⟨Finset.mem_Icc.mpr ⟨by omega, hrange.2⟩, ?_⟩)
          rw [map_cons, mem_cons]
          exact fun hmem => hmem.elim heq hnot
      have hcard := (Finset.card_le_card hsubset).trans (Finset.card_insert_le _ _)
      omega
    · rw [if_neg hneeds] at h
      rw [countP_cons_of_neg hneeds]
      exact ih (map_error_iff.mp h)

end Addresses

/-! ## MAC addresses -/

section Macs

variable {used : Owners String} {adapters : List AdapterDraft}

/-- The MAC address that an adapter is given. -/
def authored_mac (adapter : AdapterDraft) : Option String :=
  if adapter.mac_setting.getD "" = "" ∨ adapter.mac_setting.getD "" = "auto" then none
  else some (adapter.mac_setting.getD "").toLower

/-- The adapter with the MAC address it is given. -/
def fix_mac (adapter : AdapterDraft) : AdapterDraft :=
  match authored_mac adapter with
  | some mac => { adapter with mac := some mac }
  | none => adapter

variable {adapter : AdapterDraft} {mac : String}

theorem authored_mac_none (h : authored_mac adapter = none) :
    adapter.mac_setting.getD "" = "" ∨ adapter.mac_setting.getD "" = "auto" := by
  by_contra hgiven
  rw [authored_mac, if_neg hgiven] at h
  cases h

theorem authored_mac_some (h : authored_mac adapter = some mac) :
    ¬ (adapter.mac_setting.getD "" = "" ∨ adapter.mac_setting.getD "" = "auto") ∧
      (adapter.mac_setting.getD "").toLower = mac := by
  unfold authored_mac at h
  by_cases hskip : adapter.mac_setting.getD "" = "" ∨ adapter.mac_setting.getD "" = "auto"
  · rw [if_pos hskip] at h
    cases h
  · rw [if_neg hskip] at h
    exact ⟨hskip, Option.some.inj h⟩

theorem fix_macs_skip (h : authored_mac adapter = none) :
    fix_macs used (adapter :: adapters) = (fix_macs used adapters).map fun rest => (adapter :: rest.1, rest.2) := by
  rw [fix_macs, if_pos (authored_mac_none h)]
  cases fix_macs used adapters <;> rfl

theorem fix_macs_shared {first : String} (h : authored_mac adapter = some mac)
    (howner : used.owner mac = some first) :
    fix_macs used (adapter :: adapters) = .error (.mac_shared first adapter.name mac) := by
  obtain ⟨hgiven, rfl⟩ := authored_mac_some h
  rw [fix_macs, if_neg hgiven, howner]

theorem fix_macs_given (h : authored_mac adapter = some mac) (howner : used.owner mac = none) :
    fix_macs used (adapter :: adapters) = (fix_macs ((mac, adapter.name) :: used) adapters).map fun rest =>
      ({ adapter with mac := some mac } :: rest.1, rest.2) := by
  obtain ⟨hgiven, rfl⟩ := authored_mac_some h
  rw [fix_macs, if_neg hgiven, howner]
  simp only
  cases fix_macs (((adapter.mac_setting.getD "").toLower, adapter.name) :: used) adapters <;> rfl

/-- What the first pass over MAC addresses leaves. -/
structure MacsFixed (used : Owners String) (adapters fixed : List AdapterDraft) (used' : Owners String) : Prop where
  fixed : fixed = adapters.map fix_mac
  unique : (used'.map fst).Nodup
  kept : used ⊆ used'
  owned : ∀ adapter ∈ adapters, ∀ mac ∈ authored_mac adapter, (mac, adapter.name) ∈ used'

theorem fix_macs_ok {fixed : List AdapterDraft} {used' : Owners String} (hused : (used.map fst).Nodup)
    (h : fix_macs used adapters = .ok (fixed, used')) : MacsFixed used adapters fixed used' := by
  induction adapters generalizing used fixed with
  | nil =>
    obtain ⟨rfl, rfl⟩ := mk.inj (Except.ok.inj h)
    exact ⟨rfl, hused, fun _ hmem => hmem, fun adapter hmem => absurd hmem not_mem_nil⟩
  | cons adapter adapters ih =>
    cases hmac : authored_mac adapter with
    | none =>
      rw [fix_macs_skip hmac] at h
      obtain ⟨rest, hrest, hresult⟩ := map_ok_iff.mp h
      obtain ⟨rfl, rfl⟩ := mk.inj hresult
      have hall := ih hused hrest
      refine ⟨?_, hall.unique, hall.kept, fun other hother => ?_⟩
      · rw [map_cons, fix_mac, hmac, ← hall.fixed]
      · rcases mem_cons.mp hother with rfl | hother
        · intro mac hgiven
          rw [hmac] at hgiven
          cases hgiven
        · exact hall.owned other hother
    | some mac =>
      cases howner : used.owner mac with
      | some first =>
        rw [fix_macs_shared hmac howner] at h
        cases h
      | none =>
        rw [fix_macs_given hmac howner] at h
        obtain ⟨rest, hrest, hresult⟩ := map_ok_iff.mp h
        obtain ⟨rfl, rfl⟩ := mk.inj hresult
        have hall := ih (Owners.nodup_cons hused howner adapter.name) hrest
        have hkept : used ⊆ rest.2 := fun entry hentry => hall.kept (mem_cons_of_mem _ hentry)
        refine ⟨?_, hall.unique, hkept, fun other hother => ?_⟩
        · rw [map_cons, fix_mac, hmac, ← hall.fixed]
        · rcases mem_cons.mp hother with rfl | hother
          · intro mac' hgiven
            rw [hmac] at hgiven
            rw [← Option.some.inj hgiven]
            exact hall.kept mem_cons_self
          · exact hall.owned other hother

theorem fix_macs_error : fix_macs used adapters ≠ .error .addresses_exhausted := by
  induction adapters generalizing used with
  | nil => exact nofun
  | cons adapter adapters ih =>
    intro h
    cases hmac : authored_mac adapter with
    | none =>
      rw [fix_macs_skip hmac] at h
      exact ih (map_error_iff.mp h)
    | some mac =>
      cases howner : used.owner mac with
      | some first =>
        rw [fix_macs_shared hmac howner] at h
        cases h
      | none =>
        rw [fix_macs_given hmac howner] at h
        exact ih (map_error_iff.mp h)

/-- What the second pass over MAC addresses makes of an adapter. -/
def MacChosen (owners : Owners String) (adapter result : AdapterDraft) : Prop :=
  (adapter.mac.isSome = true ∧ result = adapter) ∨
    adapter.mac = none ∧ ∃ mac, (mac, adapter.name) ∈ owners ∧ result = { adapter with mac := some mac }

theorem choose_macs_cons (base : String) (used : Owners String) (adapter : AdapterDraft)
    (adapters : List AdapterDraft) : choose_macs base used (adapter :: adapters) =
      if adapter.mac.isSome = true then (choose_macs base used adapters).map fun rest => adapter :: rest
      else if 0x1000000 ≤ free_suffix base used then .error .macs_exhausted
      else (choose_macs base ((mac_text base (free_suffix base used), adapter.name) :: used)
        adapters).map fun rest => { adapter with mac := some (mac_text base (free_suffix base used)) } :: rest := by
  rw [choose_macs]
  refine if_congr Iff.rfl ?_ (if_congr Iff.rfl rfl ?_)
  · cases choose_macs base used adapters <;> rfl
  · dsimp only
    cases choose_macs base ((mac_text base (free_suffix base used), adapter.name) :: used) adapters <;>
      rfl

variable {base : String}

theorem choose_macs_ok {result : List AdapterDraft} (hused : (used.map fst).Nodup)
    (h : choose_macs base used adapters = .ok result) :
    ∃ used', used ⊆ used' ∧ (used'.map fst).Nodup ∧ Forall₂ (MacChosen used') adapters result := by
  induction adapters generalizing used result with
  | nil =>
    rw [← Except.ok.inj h]
    exact ⟨used, fun _ hmem => hmem, hused, .nil⟩
  | cons adapter adapters ih =>
    rw [choose_macs_cons] at h
    by_cases hgiven : adapter.mac.isSome = true
    · rw [if_pos hgiven] at h
      obtain ⟨rest, hrest, rfl⟩ := map_ok_iff.mp h
      obtain ⟨used', hmore, hunique, hall⟩ := ih hused hrest
      exact ⟨used', hmore, hunique, .cons (Or.inl ⟨hgiven, rfl⟩) hall⟩
    · rw [if_neg hgiven] at h
      have hfree := free_suffix_free base used
      by_cases hend : 0x1000000 ≤ free_suffix base used
      · rw [if_pos hend] at h
        cases h
      rw [if_neg hend] at h
      obtain ⟨rest, hrest, rfl⟩ := map_ok_iff.mp h
      have hnone : used.owner (mac_text base (free_suffix base used)) = none := by
        have hnot := hfree.resolve_left hend
        rwa [isSome_eq_false_iff, isNone_iff_eq_none] at hnot
      obtain ⟨used', hmore, hunique, hall⟩ := ih (Owners.nodup_cons hused hnone adapter.name) hrest
      refine ⟨used', fun entry hentry => hmore (mem_cons_of_mem _ hentry), hunique, .cons ?_ hall⟩
      have hmac : adapter.mac = none := by
        rwa [Bool.not_eq_true, isSome_eq_false_iff, isNone_iff_eq_none] at hgiven
      exact Or.inr ⟨hmac, _, hmore mem_cons_self, rfl⟩

theorem choose_macs_error : choose_macs base used adapters ≠ .error .addresses_exhausted := by
  induction adapters generalizing used with
  | nil => exact nofun
  | cons adapter adapters ih =>
    rw [choose_macs_cons]
    intro h
    by_cases hgiven : adapter.mac.isSome = true
    · rw [if_pos hgiven] at h
      exact ih (map_error_iff.mp h)
    · rw [if_neg hgiven] at h
      by_cases hend : 0x1000000 ≤ free_suffix base used
      · rw [if_pos hend] at h
        cases h
      · rw [if_neg hend] at h
        exact ih (map_error_iff.mp h)

end Macs

/-! ## Adapters without addresses -/

section Unwritten

variable {rs : List TopologyResource} {t t' : AdapterTable}

/-- No address is written into the adapter yet. -/
def AdapterDraft.Unwritten (adapter : AdapterDraft) : Prop := adapter.ipv4 = none ∧ adapter.mac = none

theorem switch_drafts_unwritten (owner : String) (used : List ℕ) (next_number : ℕ) (ports : List SwitchPort) :
    ∀ adapter ∈ switch_drafts owner used next_number ports, adapter.Unwritten := by
  induction ports generalizing used next_number with
  | nil => exact fun adapter hadapter => absurd hadapter not_mem_nil
  | cons port ports ih =>
    intro adapter hadapter
    rw [switch_drafts] at hadapter
    cases hnumber : port.number with
    | some number =>
      simp only [hnumber] at hadapter
      rcases mem_cons.mp hadapter with rfl | hrest
      · exact ⟨rfl, rfl⟩
      · exact ih _ _ adapter hrest
    | none =>
      simp only [hnumber] at hadapter
      rcases mem_cons.mp hadapter with rfl | hrest
      · exact ⟨rfl, rfl⟩
      · exact ih _ _ adapter hrest

theorem declared_unwritten {r : TopologyResource} : ∀ adapter ∈ declared_adapters r, adapter.Unwritten := by
  intro adapter hadapter
  unfold declared_adapters at hadapter
  cases hdetail : r.detail with
  | host interfaces route =>
    simp only [hdetail] at hadapter
    obtain ⟨entry, -, rfl⟩ := mem_map.mp hadapter
    exact ⟨rfl, rfl⟩
  | switch dpid fail datapath controllers protocols ports =>
    simp only [hdetail] at hadapter
    exact switch_drafts_unwritten _ _ _ _ adapter hadapter
  | _ =>
    simp only [hdetail] at hadapter
    exact absurd hadapter not_mem_nil

theorem EndpointResolved.unwritten {endpoint : LinkEndpoint} {name : String}
    (h : EndpointResolved rs endpoint t name t') (hbefore : ∀ adapter ∈ t.adapters, adapter.Unwritten) :
    ∀ adapter ∈ t'.adapters, adapter.Unwritten := by
  rcases h.adapters with ⟨hsame, -⟩ | ⟨node, -, -, hadded, -⟩
  · rw [hsame]
    exact hbefore
  · rw [hadded]
    intro adapter hadapter
    rcases mem_append.mp hadapter with hold | hnew
    · exact hbefore adapter hold
    · rw [mem_singleton.mp hnew]
      exact ⟨rfl, rfl⟩

theorem resolve_endpoints_unwritten {endpoints : List (String × LinkEndpoint)} {names : List String}
    (hbefore : ∀ adapter ∈ t.adapters, adapter.Unwritten) (h : resolve_endpoints rs endpoints t = .ok (names, t')) :
    ∀ adapter ∈ t'.adapters, adapter.Unwritten := by
  induction endpoints generalizing t names with
  | nil =>
    obtain ⟨-, rfl⟩ := mk.inj (Except.ok.inj h)
    exact hbefore
  | cons endpoint endpoints ih =>
    rw [resolve_endpoints] at h
    obtain ⟨⟨name, after⟩, hfirst, h⟩ := bind_ok_iff.mp h
    obtain ⟨⟨rest, last⟩, hrest, h⟩ := bind_ok_iff.mp h
    obtain ⟨-, rfl⟩ := mk.inj (Except.ok.inj h)
    exact ih ((resolve_endpoint_ok hfirst).unwritten hbefore) hrest

/-- What the allocation receives has no addresses. -/
theorem resolved_unwritten {topology : Topology} {adapters : List AdapterDraft}
    {resolved : List ResourcePlan × AdapterTable}
    (hdeclared : declare_adapters (authored_names topology) topology.resources = .ok adapters)
    (hlinks : resolve_links topology.resources topology.links (declared_table topology adapters) = .ok resolved) :
    ∀ adapter ∈ resolved.2.adapters, adapter.Unwritten := by
  rw [resolve_links_eq] at hlinks
  obtain ⟨⟨names, last⟩, hrun, rfl⟩ := map_ok_iff.mp hlinks
  refine resolve_endpoints_unwritten (fun adapter hadapter => ?_) hrun
  obtain ⟨-, rfl, -, -⟩ := declare_adapters_iff.mp hdeclared
  obtain ⟨r, -, hmine⟩ := mem_flatMap.mp hadapter
  exact declared_unwritten adapter hmine

end Unwritten

/-! ## The allocation -/

section Allocation

variable {topology : Topology} {hosts : List AdapterDraft}

/-- The network of a prefix: its address is the first of a block that ends with its broadcast address. -/
def IPv4Network.Valid (subnet : IPv4Network) : Prop :=
  subnet.prefixlen ≤ 32 ∧ 2 ^ (32 - subnet.prefixlen) ∣ subnet.network_address ∧ subnet.network_address < 2 ^ 32

instance (subnet : IPv4Network) : Decidable subnet.Valid := inferInstanceAs (Decidable (_ ∧ _ ∧ _))

variable {subnet : IPv4Network} {adapter result : AdapterDraft} {adapters : List AdapterDraft}
  {owners : Owners ℕ}

theorem IPv4Network.Valid.broadcast_lt (h : subnet.Valid) : subnet.broadcast_address < 2 ^ 32 := by
  obtain ⟨hbits, ⟨block, hblock⟩, hlt⟩ := h
  have hsize : 2 ^ (32 - subnet.prefixlen) * 2 ^ subnet.prefixlen = 2 ^ 32 := by
    rw [← Nat.pow_add, Nat.sub_add_cancel hbits]
  have hpos : 0 < 2 ^ (32 - subnet.prefixlen) := Nat.two_pow_pos _
  have hfew : block < 2 ^ subnet.prefixlen := by
    rw [hblock, ← hsize] at hlt
    exact Nat.lt_of_mul_lt_mul_left hlt
  have hend : subnet.network_address + 2 ^ (32 - subnet.prefixlen) ≤ 2 ^ 32 := by
    rw [hblock, ← hsize, ← Nat.mul_succ]
    exact Nat.mul_le_mul_left _ hfew
  rw [broadcast_address]
  omega

/-- The interface gets an address of the allocation's choice. -/
def automatic_address (adapter : AdapterDraft) : Bool :=
  match adapter.ipv4_setting with
  | some .auto | none => true
  | some (.fixed _) | some .unset => false

/-- The addresses between the network's and the broadcast address that no interface is given. -/
def address_pool (subnet : IPv4Network) (adapters : List AdapterDraft) : Finset ℕ :=
  (Finset.Ioo subnet.network_address subnet.broadcast_address).filter fun address =>
    address ∉ adapters.filterMap authored_address

/-- The interface has the address. -/
def HasAddress (adapter : AdapterDraft) (address : ℕ) : Prop :=
  address < 2 ^ 32 ∧ ∃ prefixlen, adapter.ipv4 = some (interface_text address prefixlen)

/-- What the allocation makes of an interface. -/
structure HostAddressed (subnet : IPv4Network) (adapter result : AdapterDraft) : Prop where
  name : result.name = adapter.name
  kept : ∀ setting, adapter.ipv4_setting = some (.fixed setting) →
    result.ipv4 = some (interface_text setting.ip setting.prefixlen)
  unset : adapter.ipv4_setting = some .unset → result.ipv4 = none
  automatic : automatic_address adapter = true →
    ∃ address, HasAddress result address ∧ result.ipv4 = some (interface_text address subnet.prefixlen)
  inside : ∀ address, HasAddress result address → subnet.Inside address
  mac_kept : ∀ mac ∈ authored_mac adapter, result.mac = some mac
  mac_given : result.mac.isSome = true

/-- The addresses of the interfaces of hosts. -/
structure AddressesAllocated (subnet : IPv4Network) (adapters hosts : List AdapterDraft) : Prop where
  each : Forall₂ (HostAddressed subnet) adapters hosts
  unique : (hosts.map AdapterDraft.name).Nodup
  addresses_distinct : ∀ first ∈ hosts, ∀ second ∈ hosts, ∀ address,
    HasAddress first address → HasAddress second address → first = second
  macs_distinct : ∀ first ∈ hosts, ∀ second ∈ hosts, first.mac = second.mac → first = second

theorem needs_fixed_address (hunwritten : adapter.Unwritten) :
    needs_address (fix_address adapter) = automatic_address adapter := by
  unfold fix_address automatic_address needs_address
  cases hsetting : adapter.ipv4_setting with
  | none =>
    simp only [hunwritten.1, hsetting]
    rfl
  | some setting =>
    cases setting with
    | auto =>
      simp only [hunwritten.1, hsetting]
      rfl
    | unset =>
      simp only [hsetting]
      rfl
    | fixed interface =>
      simp only
      exact decide_eq_false fun hnot => hnot (Or.inr rfl)

/-- What the two passes over addresses make of an interface. -/
structure AddressWritten (subnet : IPv4Network) (owners : Owners ℕ) (adapter result : AdapterDraft) : Prop where
  name : result.name = adapter.name
  mac : result.mac = none
  mac_setting : result.mac_setting = adapter.mac_setting
  kept : ∀ setting, adapter.ipv4_setting = some (.fixed setting) →
    result.ipv4 = some (interface_text setting.ip setting.prefixlen)
  unset : adapter.ipv4_setting = some .unset → result.ipv4 = none
  automatic : automatic_address adapter = true →
    ∃ address, HasAddress result address ∧ result.ipv4 = some (interface_text address subnet.prefixlen)
  recorded : ∀ address, HasAddress result address → (address, result.name) ∈ owners ∧ subnet.Inside address

/-- An address that is written into an interface is the only one it has. -/
theorem recorded_of_written (hsubnet : subnet.Valid) {written prefixlen : ℕ}
    (hinside : subnet.Inside written) (howned : (written, adapter.name) ∈ owners) {address : ℕ}
    (h : HasAddress { adapter with ipv4 := some (interface_text written prefixlen) } address) :
    (address, adapter.name) ∈ owners ∧ subnet.Inside address := by
  obtain ⟨hlt, prefixlen', htext⟩ := h
  have hbound := hsubnet.broadcast_lt
  have heq : written = address := interface_text_inj (hinside.2.trans hbound) hlt (Option.some.inj htext)
  rw [← heq]
  exact ⟨howned, hinside⟩

theorem fix_address_other (h : authored_address adapter = none) :
    fix_address adapter = adapter := by
  unfold authored_address at h
  unfold fix_address
  split at h
  · cases h
  · rfl
  · rfl
  · rfl

theorem authored_of_automatic (h : automatic_address adapter = true) :
    authored_address adapter = none := by
  unfold automatic_address at h
  split at h
  · next hauto => rw [authored_address, hauto]
  · next hnone => rw [authored_address, hnone]
  · cases h
  · cases h

theorem address_written (hsubnet : subnet.Valid) (hunwritten : adapter.Unwritten)
    (howned : ∀ address ∈ authored_address adapter, (address, adapter.name) ∈ owners ∧ subnet.Inside address)
    (h : AddressChosen subnet owners (fix_address adapter) result) :
    AddressWritten subnet owners adapter result := by
  rw [AddressChosen, needs_fixed_address hunwritten] at h
  rcases h with ⟨hgiven, rfl⟩ | ⟨hneeds, address, hinside, hmem, rfl⟩
  · -- nothing is chosen: the interface has an address, or is to have none
    have hnot : automatic_address adapter ≠ true := by
      rw [hgiven]
      exact Bool.false_ne_true
    cases hauthored : authored_address adapter with
    | none =>
      rw [fix_address_other hauthored]
      refine ⟨rfl, hunwritten.2, rfl, fun setting hfixed => ?_, fun _ => hunwritten.1, fun hneeds => absurd hneeds hnot, ?_⟩
      · rw [authored_address, hfixed] at hauthored
        cases hauthored
      · rintro address ⟨-, prefixlen, htext⟩
        rw [hunwritten.1] at htext
        cases htext
    | some ip =>
      obtain ⟨interface, hsetting, rfl⟩ : ∃ interface, adapter.ipv4_setting = some (.fixed interface) ∧
          interface.ip = ip := by
        unfold authored_address at hauthored
        split at hauthored
        · exact ⟨_, by assumption, Option.some.inj hauthored⟩
        · cases hauthored
        · cases hauthored
        · cases hauthored
      obtain ⟨hmem, hinside⟩ := howned interface.ip hauthored
      have hfix : fix_address adapter =
          { adapter with ipv4 := some (interface_text interface.ip interface.prefixlen) } := by
        rw [fix_address, hsetting]
      rw [hfix]
      refine ⟨rfl, hunwritten.2, rfl, fun setting hfixed => ?_, fun hunset => ?_, fun hneeds => absurd hneeds hnot, ?_⟩
      · rw [hsetting] at hfixed
        rw [IPv4Setting.fixed.inj (Option.some.inj hfixed)]
      · rw [hsetting] at hunset
        cases hunset
      · exact fun address => recorded_of_written hsubnet hinside hmem
  · rw [fix_address_other (authored_of_automatic hneeds)] at hmem ⊢
    have hbound := hsubnet.broadcast_lt
    refine ⟨rfl, hunwritten.2, rfl, fun setting hfixed => ?_, fun hunset => ?_, fun _ => ?_, ?_⟩
    · rw [automatic_address, hfixed] at hneeds
      cases hneeds
    · rw [automatic_address, hunset] at hneeds
      cases hneeds
    · exact ⟨address, ⟨hinside.2.trans hbound, _, rfl⟩, rfl⟩
    · exact fun address' => recorded_of_written hsubnet hinside hmem

/-- What the two passes over MAC addresses make of an interface. -/
theorem mac_written {owners : Owners String} (hmac : adapter.mac = none)
    (howned : ∀ mac ∈ authored_mac adapter, (mac, adapter.name) ∈ owners)
    (h : MacChosen owners (fix_mac adapter) result) :
    result.name = adapter.name ∧ result.ipv4 = adapter.ipv4 ∧ (∀ mac ∈ authored_mac adapter, result.mac = some mac) ∧
      ∃ mac, result.mac = some mac ∧ (mac, result.name) ∈ owners := by
  unfold fix_mac at h
  cases hauthored : authored_mac adapter with
  | none =>
    simp only [hauthored] at h
    rcases h with ⟨hgiven, -⟩ | ⟨-, mac, hmem, rfl⟩
    · rw [hmac] at hgiven
      cases hgiven
    · exact ⟨rfl, rfl, fun other hother => (not_mem_none other hother).elim, mac, rfl, hmem⟩
  | some mac =>
    simp only [hauthored] at h
    rcases h with ⟨-, rfl⟩ | ⟨hnone, -⟩
    · refine ⟨rfl, rfl, fun other hother => hother, mac, rfl, howned mac hauthored⟩
    · cases hnone

/-- What both allocations make of an interface. -/
structure HostWritten (subnet : IPv4Network) (owners : Owners ℕ) (mac_owners : Owners String)
    (adapter result : AdapterDraft) : Prop where
  addressed : HostAddressed subnet adapter result
  address_owned : ∀ address, HasAddress result address → (address, result.name) ∈ owners
  mac_owned : ∀ mac, result.mac = some mac → (mac, result.name) ∈ mac_owners

theorem host_written {mac_owners : Owners String} {middle : AdapterDraft}
    (haddress : AddressWritten subnet owners adapter middle)
    (howned : ∀ mac ∈ authored_mac middle, (mac, middle.name) ∈ mac_owners)
    (hmac : MacChosen mac_owners (fix_mac middle) result) :
    HostWritten subnet owners mac_owners adapter result := by
  obtain ⟨hname, hipv4, hkept, mac, hgiven, hmem⟩ := mac_written haddress.mac howned hmac
  have hhas : ∀ address, HasAddress result address ↔ HasAddress middle address := fun address => by
    rw [HasAddress, HasAddress, hipv4]
  have hsame : authored_mac middle = authored_mac adapter := by
    rw [authored_mac, authored_mac, haddress.mac_setting]
  refine ⟨⟨hname.trans haddress.name, fun setting hfixed => hipv4.trans (haddress.kept setting hfixed),
    fun hunset => hipv4.trans (haddress.unset hunset), fun hneeds => ?_, fun address hresult => ?_, ?_, ?_⟩, ?_, ?_⟩
  · obtain ⟨address, hmiddle, htext⟩ := haddress.automatic hneeds
    exact ⟨address, (hhas address).mpr hmiddle, hipv4.trans htext⟩
  · exact (haddress.recorded address ((hhas address).mp hresult)).2
  · rw [← hsame]
    exact hkept
  · rw [hgiven]
    rfl
  · intro address hresult
    rw [hname]
    exact (haddress.recorded address ((hhas address).mp hresult)).1
  · intro other hother
    rw [← Option.some.inj (hgiven.symm.trans hother)]
    exact hmem

/-- One relation after another, element by element. -/
theorem forall₂_chain {α β γ : Type} {R : α → β → Prop} {S : β → γ → Prop} {T : α → γ → Prop}
    (hchain : ∀ a b c, R a b → S b c → T a c) {as : List α} {bs : List β} {cs : List γ}
    (h : Forall₂ R as bs) (h' : Forall₂ S bs cs) : Forall₂ T as cs := by
  induction h generalizing cs with
  | nil =>
    rw [forall₂_nil_left_iff.mp h']
    exact .nil
  | cons hhead _ ih =>
    obtain ⟨c, rest, hc, hrest, rfl⟩ := forall₂_cons_left_iff.mp h'
    exact .cons (hchain _ _ _ hhead hc) (ih hrest)

theorem mem_of_host_adapters (h : adapter ∈ host_adapters adapters) : adapter ∈ adapters :=
  (mem_filter.mp ((perm_insertionSort _ _).mem_iff.mp h)).1

theorem host_adapters_unique (h : (adapter_names adapters).Nodup) :
    ((host_adapters adapters).map AdapterDraft.name).Nodup :=
  ((perm_insertionSort _ _).map _).nodup_iff.mpr (h.sublist (filter_sublist.map _))

/-- The passes of an allocation that succeeds, with the owners they write down. -/
theorem allocate_addresses_ok (hsubnet : topology.subnet.Valid)
    (hunwritten : ∀ adapter ∈ adapters, adapter.Unwritten)
    (h : allocate_addresses topology adapters = .ok hosts) :
    ∃ owners mac_owners, (owners.map fst).Nodup ∧ (mac_owners.map fst).Nodup ∧
      Forall₂ (HostWritten topology.subnet owners mac_owners) (host_adapters adapters) hosts := by
  unfold allocate_addresses at h
  obtain ⟨⟨fixed, used⟩, hfixed, h⟩ := bind_ok_iff.mp h
  obtain ⟨addressed, haddressed, h⟩ := bind_ok_iff.mp h
  obtain ⟨⟨macs, mac_used⟩, hmacs, hchosen⟩ := bind_ok_iff.mp h
  have hempty : (([] : Owners ℕ).map fst).Nodup := nodup_nil
  have hmac_empty : (([] : Owners String).map fst).Nodup := nodup_nil
  have hauthored := fix_addresses_ok hempty hfixed
  obtain ⟨owners, hkept, hunique, hpass⟩ := choose_addresses_ok hauthored.unique (Nat.lt_succ_self _) haddressed
  have hmac_authored := fix_macs_ok hmac_empty hmacs
  obtain ⟨mac_owners, hmac_kept, hmac_unique, hmac_pass⟩ := choose_macs_ok hmac_authored.unique hchosen
  simp only [hauthored.fixed, hmac_authored.fixed] at hpass hmac_pass
  rw [forall₂_map_left_iff] at hpass hmac_pass
  refine ⟨owners, mac_owners, hunique, hmac_unique, ?_⟩
  -- what an interface is given was written down in the first pass over it
  have hpass' := (forall₂_and_left (p := fun adapter : AdapterDraft => adapter.Unwritten ∧
      ∀ address ∈ authored_address adapter, (address, adapter.name) ∈ owners ∧ topology.subnet.Inside address)
    _ _).mpr ⟨fun adapter hadapter => ?_, hpass⟩
  · have hmac_pass' := (forall₂_and_left
      (p := fun adapter : AdapterDraft => ∀ mac ∈ authored_mac adapter, (mac, adapter.name) ∈ mac_owners) _ _).mpr
      ⟨fun adapter hadapter mac hmac => hmac_kept (hmac_authored.owned adapter hadapter mac hmac), hmac_pass⟩
    refine forall₂_chain (fun adapter middle result hfirst hsecond => ?_) hpass' hmac_pass'
    obtain ⟨⟨hnone, howned⟩, haddress⟩ := hfirst
    exact host_written (address_written hsubnet hnone howned haddress) hsecond.1 hsecond.2
  · refine ⟨hunwritten adapter (mem_of_host_adapters hadapter), fun address hgiven => ?_⟩
    obtain ⟨howned, hinside⟩ := hauthored.owned adapter hadapter address hgiven
    exact ⟨hkept howned, hinside⟩

theorem addresses_allocated_of_ok (hsubnet : topology.subnet.Valid)
    (hunwritten : ∀ adapter ∈ adapters, adapter.Unwritten)
    (hunique : (adapter_names adapters).Nodup)
    (h : allocate_addresses topology adapters = .ok hosts) :
    AddressesAllocated topology.subnet (host_adapters adapters) hosts := by
  obtain ⟨owners, mac_owners, howners, hmac_owners, hall⟩ := allocate_addresses_ok hsubnet hunwritten h
  have hnames : hosts.map AdapterDraft.name = (host_adapters adapters).map AdapterDraft.name := by
    have hsame : Forall₂ (fun first second => first = second) (hosts.map AdapterDraft.name)
        ((host_adapters adapters).map AdapterDraft.name) := by
      rw [forall₂_map_left_iff, forall₂_map_right_iff]
      exact (hall.imp fun adapter result hwritten => hwritten.addressed.name).flip
    rwa [forall₂_eq_eq_eq] at hsame
  have hunique' : (hosts.map AdapterDraft.name).Nodup := by
    rw [hnames]
    exact host_adapters_unique hunique
  have heach : ∀ result ∈ hosts, ∃ adapter, HostWritten topology.subnet owners mac_owners adapter result := by
    intro result hresult
    obtain ⟨i, hi, rfl⟩ := mem_iff_getElem.mp hresult
    exact ⟨_, hall.get (hall.length_eq ▸ hi) hi⟩
  refine ⟨hall.imp fun _ _ hwritten => hwritten.addressed, hunique', ?_, ?_⟩
  · intro first hfirst second hsecond address hhas hhas'
    obtain ⟨_, hwritten⟩ := heach first hfirst
    obtain ⟨_, hwritten'⟩ := heach second hsecond
    have hname : first.name = second.name :=
      Owners.owner_unique howners (hwritten.address_owned address hhas) (hwritten'.address_owned address hhas')
    exact inj_on_of_nodup_map hunique' hfirst hsecond hname
  · intro first hfirst second hsecond hsame
    obtain ⟨_, hwritten⟩ := heach first hfirst
    obtain ⟨_, hwritten'⟩ := heach second hsecond
    obtain ⟨mac, hmac⟩ := isSome_iff_exists.mp hwritten.addressed.mac_given
    have hname : first.name = second.name :=
      Owners.owner_unique hmac_owners (hwritten.mac_owned mac hmac) (hwritten'.mac_owned mac (hsame.symm.trans hmac))
    exact inj_on_of_nodup_map hunique' hfirst hsecond hname

/-- The pool is exhausted only when the interfaces that need an address are more than the pool. -/
theorem pool_exhausted_of_error (hunwritten : ∀ adapter ∈ adapters, adapter.Unwritten)
    (h : allocate_addresses topology adapters = .error .addresses_exhausted) :
    (address_pool topology.subnet (host_adapters adapters)).card < (host_adapters adapters).countP automatic_address := by
  have hempty : (([] : Owners ℕ).map fst).Nodup := nodup_nil
  unfold allocate_addresses at h
  rcases bind_error_iff.mp h with hfixed | ⟨⟨fixed, used⟩, hfixed, h⟩
  · exact absurd hfixed fix_addresses_error
  have hauthored := fix_addresses_ok hempty hfixed
  rcases bind_error_iff.mp h with haddressed | ⟨addressed, -, h⟩
  · have hfew := choose_addresses_error haddressed
    have hneeds : fixed.countP needs_address = (host_adapters adapters).countP automatic_address := by
      rw [hauthored.fixed, countP_map]
      refine countP_congr fun adapter hadapter => ?_
      rw [Function.comp_apply, needs_fixed_address (hunwritten adapter (mem_of_host_adapters hadapter))]
    have hpool : free_addresses topology.subnet (topology.subnet.network_address + 1) used =
        address_pool topology.subnet (host_adapters adapters) := by
      ext address
      rw [free_addresses, address_pool, Finset.mem_filter, Finset.mem_filter, Finset.mem_Icc, Finset.mem_Ioo,
        hauthored.values]
      have hnone : address ∉ ([] : Owners ℕ).map fst := not_mem_nil
      constructor
      · rintro ⟨hrange, hnot⟩
        exact ⟨by omega, fun hmem => hnot (Or.inr hmem)⟩
      · rintro ⟨hrange, hnot⟩
        exact ⟨by omega, fun hmem => hmem.elim hnone hnot⟩
    rw [← hneeds, ← hpool]
    exact hfew
  · rcases bind_error_iff.mp h with hmacs | ⟨macs, -, hchosen⟩
    · exact absurd hmacs fix_macs_error
    · exact absurd hchosen choose_macs_error

/-- The allocation of a topology: what it leaves when it succeeds, and what it means that the pool is exhausted. -/
theorem addresses_allocated {adapters : List AdapterDraft} {resolved : List ResourcePlan × AdapterTable}
    (hsubnet : topology.subnet.Valid) (hunique : (topology.resources.map TopologyResource.name).Nodup)
    (hdeclared : declare_adapters (authored_names topology) topology.resources = .ok adapters)
    (hlinks : resolve_links topology.resources topology.links (declared_table topology adapters) = .ok resolved) :
    (∀ hosts, allocate_addresses topology resolved.2.adapters = .ok hosts →
      AddressesAllocated topology.subnet (host_adapters resolved.2.adapters) hosts) ∧
    (allocate_addresses topology resolved.2.adapters = .error .addresses_exhausted →
      (address_pool topology.subnet (host_adapters resolved.2.adapters)).card <
        (host_adapters resolved.2.adapters).countP automatic_address) := by
  have hunwritten := resolved_unwritten hdeclared hlinks
  have hsound := resolve_links_sound hlinks hunique (declared_table_sound hdeclared)
  exact ⟨fun hosts => addresses_allocated_of_ok hsubnet hunwritten hsound.unique, pool_exhausted_of_error hunwritten⟩

/-- A pool of two addresses, one of them given, and a host that wants none. -/
def small_pool : Topology where
  subnet := { network_address := 10 * 2 ^ 24, prefixlen := 30 }
  mac_prefix := "02:00:00"
  resources :=
    [{ name := "h3", detail := .host [{ ipv4 := .unset }] none },
      { name := "h2", detail := .host [{ mac := "02:00:00:00:00:01" }] none },
      { name := "h1", detail := .host [{ ipv4 := .fixed { ip := 10 * 2 ^ 24 + 1, prefixlen := 30 } }] none }]

theorem addresses_allocated_small_pool :
    ∃ adapters resolved hosts, declare_adapters (authored_names small_pool) small_pool.resources = .ok adapters ∧
      resolve_links small_pool.resources small_pool.links (declared_table small_pool adapters) = .ok resolved ∧
      allocate_addresses small_pool resolved.2.adapters = .ok hosts ∧
      hosts.map AdapterDraft.ipv4 = [some "10.0.0.1/30", some "10.0.0.2/30", none] ∧
      AddressesAllocated small_pool.subnet (host_adapters resolved.2.adapters) hosts := by
  have hbuilds : (build_resources (fun _ => 1) small_pool).toBool = true := by decide +kernel
  have haddresses : ((allocate_addresses small_pool (small_pool.resources.flatMap declared_adapters)).toOption.map
      fun hosts => hosts.map AdapterDraft.ipv4) = some [some "10.0.0.1/30", some "10.0.0.2/30", none] := by
    decide +kernel
  cases hplanned : build_resources (fun _ => 1) small_pool with
  | error e =>
    rw [hplanned] at hbuilds
    cases hbuilds
  | ok planned =>
    obtain ⟨adapters, resolved, hosts, owners, hbuilt, -⟩ := build_resources_iff.mp hplanned
    have hsubnet : small_pool.subnet.Valid := by decide
    have hall := addresses_allocated hsubnet hbuilt.unique hbuilt.declared hbuilt.links
    refine ⟨adapters, resolved, hosts, hbuilt.declared, hbuilt.links, hbuilt.addressed, ?_,
      hall.1 hosts hbuilt.addressed⟩
    have hsame : resolved.2.adapters = small_pool.resources.flatMap declared_adapters := by
      obtain ⟨-, rfl, -, -⟩ := declare_adapters_iff.mp hbuilt.declared
      rw [← Except.ok.inj hbuilt.links]
      rfl
    have haddressed := hbuilt.addressed
    rw [hsame] at haddressed
    rw [haddressed] at haddresses
    exact Option.some.inj haddresses

end Allocation

end MininetAi
