/-
The cooldown of the detectors.

`_detector_events` notes an emission when it draws the event, and `_sample` publishes the
event afterwards. A publication that fails is reported and forgotten, and the note stays:
until the cooldown is over the detector is silent about its target, though nobody heard
of it. That is the only way a due event is left out: an emission that was noted and
published is what the cooldown is for.

A binding is sampled by one thread, which publishes what it drew before it samples again;
the threads of different bindings go on side by side.
-/
import MininetAi.Lib.Transition
import MininetAi.Runtime.TelemetryWindow

set_option autoImplicit false

namespace MininetAi

open Function List

/-! ## Drawing -/

/-- The key of a detector of a binding and a target. -/
def PolicyBinding.key (binding : PolicyBinding) (pair : ObservationDetector × String) : DetectorKey :=
  (binding.identity, pair.1.name, pair.2)

/-- The pairs `_detector_events` loops over. -/
def PolicyBinding.pairs (binding : PolicyBinding) : List (ObservationDetector × String) :=
  binding.policy.detectors.flatMap fun detector => binding.targets.map fun target =>
    (detector, target)

variable {binding : PolicyBinding} {pair : ObservationDetector × String} {time : ℤ}
  {event : TelemetryEvent}

theorem PolicyBinding.mem_pairs :
    pair ∈ binding.pairs ↔ pair.1 ∈ binding.policy.detectors ∧ pair.2 ∈ binding.targets := by
  unfold PolicyBinding.pairs
  rw [mem_flatMap]
  constructor
  · rintro ⟨detector, hdetector, hmem⟩
    obtain ⟨target, htarget, rfl⟩ := mem_map.mp hmem
    exact ⟨hdetector, htarget⟩
  · rintro ⟨hdetector, htarget⟩
    exact ⟨pair.1, hdetector, mem_map.mpr ⟨pair.2, htarget, rfl⟩⟩

/-- No two pairs of a binding have one key. -/
theorem PolicyBinding.keys_unique (binding : PolicyBinding) : (binding.pairs.map binding.key).Nodup := by
  have hnames := binding.policy.detector_names_unique
  have hinjective : Injective fun p : String × String => (binding.identity, p.1, p.2) := by
    rintro ⟨a, b⟩ ⟨a', b'⟩ heq
    exact (Prod.mk.inj heq).2
  have hproduct : binding.pairs.map binding.key =
      ((binding.policy.detectors.map ObservationDetector.name).product binding.targets).map
        fun p => (binding.identity, p.1, p.2) := by
    simp only [PolicyBinding.pairs, product, map_flatMap, map_map,
      flatMap_map]
    rfl
  rw [hproduct]
  exact (hnames.product binding.targets_unique).map hinjective

/-- The finding of a detector about a target, if its condition holds: the value, why it
fires, and on how many samples. -/
def finding_of (binding : PolicyBinding) (samples : List Sample)
    (aggregated : List (String × JsonValue)) (p : TelemetryPipeline)
    (pair : ObservationDetector × String) : Option (ℚ × Finding × ℕ) :=
  (numeric_path (aggregated.lookup pair.2) pair.1.path).bind fun value =>
    (examine binding.policy samples (p.anomaly_history (binding.key pair)) pair.1 value).map
      fun finding => (value, finding)

/-- The event of a detector about a target, if one is due. -/
def due (binding : PolicyBinding) (samples : List Sample)
    (aggregated : List (String × JsonValue)) (p : TelemetryPipeline)
    (pair : ObservationDetector × String) : Option TelemetryEvent :=
  (finding_of binding samples aggregated p pair).bind fun found =>
    if cooling_down (p.last_emitted (binding.key pair)) (window_ended_at samples)
      pair.1.cooldown then none
    else some (detector_event binding samples pair.1 pair.2 found.1 found.2)

/-- What a key has noted after its event was drawn, or not. -/
def noted (samples : List Sample) (last : Option ℤ) (event : Option TelemetryEvent) : Option ℤ :=
  if event.isSome then some (window_ended_at samples) else last

section Drawing

variable {binding : PolicyBinding} {samples : List Sample} {aggregated : List (String × JsonValue)}
  {p : TelemetryPipeline} {pair : ObservationDetector × String}

/-- One detector looks at one target. -/
structure Detected (binding : PolicyBinding)
    (samples : List Sample) (aggregated : List (String × JsonValue)) (p : TelemetryPipeline)
    (pair : ObservationDetector × String) (result : TelemetryPipeline × List TelemetryEvent) :
    Prop where
  /-- An event is drawn when it is due. -/
  drawn : result.2 = (due binding samples aggregated p pair).toList
  /-- The emission is noted at once. -/
  own : result.1.last_emitted (binding.key pair) =
    noted samples (p.last_emitted (binding.key pair)) (due binding samples aggregated p pair)
  /-- Other detectors and targets are left alone. -/
  others : ∀ key ≠ binding.key pair, result.1.last_emitted key = p.last_emitted key ∧
    result.1.anomaly_history key = p.anomaly_history key

theorem detect_spec (binding : PolicyBinding)
    (samples : List Sample) (aggregated : List (String × JsonValue)) (p : TelemetryPipeline)
    (pair : ObservationDetector × String) :
    Detected binding samples aggregated p pair
      (p.detect binding samples aggregated pair.1 pair.2) := by
  unfold TelemetryPipeline.detect
  cases hvalue : numeric_path (aggregated.lookup pair.2) pair.1.path with
  | none =>
    have hdue : due binding samples aggregated p pair = none := by
      rw [due, finding_of, hvalue, Option.bind_none, Option.bind_none]
    refine ⟨?_, ?_, fun _ _ => ⟨rfl, rfl⟩⟩
    · rw [hdue]
      rfl
    · rw [hdue]
      rfl
  | some value =>
    have hfinding : finding_of binding samples aggregated p pair =
        (examine binding.policy samples
          (p.anomaly_history (binding.identity, pair.1.name, pair.2)) pair.1 value).map
            fun finding => (value, finding) := by
      rw [finding_of, hvalue, Option.bind_some, PolicyBinding.key]
    dsimp only
    cases hexamined : examine binding.policy samples
        (p.anomaly_history (binding.identity, pair.1.name, pair.2)) pair.1 value with
    | none =>
      rw [hexamined, Option.map_none] at hfinding
      have hdue : due binding samples aggregated p pair = none := by
        rw [due, hfinding, Option.bind_none]
      refine ⟨?_, ?_, fun key hkey => ⟨rfl, update_of_ne hkey _ _⟩⟩
      · rw [hdue]
        rfl
      · rw [hdue]
        rfl
    | some finding =>
      rw [hexamined, Option.map_some] at hfinding
      dsimp only
      by_cases hcooling : cooling_down
          (p.last_emitted (binding.identity, pair.1.name, pair.2)) (window_ended_at samples)
          pair.1.cooldown = true
      · have hdue : due binding samples aggregated p pair = none := by
          rw [due, hfinding, Option.bind_some, PolicyBinding.key, if_pos hcooling]
        rw [if_pos hcooling]
        refine ⟨?_, ?_, fun key hkey => ⟨rfl, update_of_ne hkey _ _⟩⟩
        · rw [hdue]
          rfl
        · rw [hdue]
          rfl
      · have hdue : due binding samples aggregated p pair =
            some (detector_event binding samples pair.1 pair.2 value finding) := by
          rw [due, hfinding, Option.bind_some, PolicyBinding.key, if_neg hcooling]
        rw [if_neg hcooling]
        refine ⟨?_, ?_, fun key hkey =>
          ⟨update_of_ne hkey _ _, update_of_ne hkey _ _⟩⟩
        · rw [hdue]
          rfl
        · rw [hdue]
          exact update_self _ _ _

/-- The other detectors and targets find the pipeline as it was. -/
theorem Detected.due_eq {result : TelemetryPipeline × List TelemetryEvent}
    (h : Detected binding samples aggregated p pair result)
    {other : ObservationDetector × String} (hother : binding.key other ≠ binding.key pair) :
    due binding samples aggregated result.1 other =
      due binding samples aggregated p other := by
  obtain ⟨hlast, hhistory⟩ := h.others _ hother
  rw [due, due, finding_of, finding_of, hlast, hhistory]

/-- All detectors look at all targets. -/
structure AllDetected (binding : PolicyBinding)
    (samples : List Sample) (aggregated : List (String × JsonValue)) (p : TelemetryPipeline)
    (pairs : List (ObservationDetector × String))
    (result : TelemetryPipeline × List TelemetryEvent) : Prop where
  drawn : result.2 = pairs.filterMap (due binding samples aggregated p)
  own : ∀ pair ∈ pairs, result.1.last_emitted (binding.key pair) =
    noted samples (p.last_emitted (binding.key pair)) (due binding samples aggregated p pair)
  others : ∀ key ∉ pairs.map binding.key, result.1.last_emitted key = p.last_emitted key

/-- The pairs have different keys, so no one of them sees what another has noted. The
induction is on the pairs. -/
theorem detect_all_spec (binding : PolicyBinding)
    (samples : List Sample) (aggregated : List (String × JsonValue))
    (pairs : List (ObservationDetector × String)) (hkeys : (pairs.map binding.key).Nodup) :
    ∀ p : TelemetryPipeline, AllDetected binding samples aggregated p pairs
      (p.detect_all binding samples aggregated pairs) := by
  induction pairs with
  | nil => exact fun p => ⟨rfl, fun _ hmem => (by cases hmem), fun _ _ => rfl⟩
  | cons pair pairs ih =>
    intro p
    rw [map_cons] at hkeys
    obtain ⟨hfresh, hrest⟩ := List.nodup_cons.mp hkeys
    have hfirst := detect_spec binding samples aggregated p pair
    have hlater := ih hrest (p.detect binding samples aggregated pair.1 pair.2).1
    have hother : ∀ other ∈ pairs, binding.key other ≠ binding.key pair :=
      fun other hmem heq => hfresh (heq ▸ mem_map_of_mem hmem)
    have hdue : ∀ other ∈ pairs, due binding samples aggregated
        (p.detect binding samples aggregated pair.1 pair.2).1 other =
          due binding samples aggregated p other :=
      fun other hmem => hfirst.due_eq (hother other hmem)
    rw [TelemetryPipeline.detect_all]
    dsimp only
    refine ⟨?_, fun other hmem => ?_, fun key hkey => ?_⟩
    · rw [hfirst.drawn, hlater.drawn, filterMap_congr hdue, filterMap_cons]
      cases due binding samples aggregated p pair with
      | none => rfl
      | some event => rfl
    · rcases mem_cons.mp hmem with rfl | hmem
      · rw [hlater.others _ hfresh, hfirst.own]
      · rw [hlater.own other hmem, hdue other hmem, (hfirst.others _ (hother other hmem)).1]
    · have hne : key ≠ binding.key pair := ne_of_not_mem_cons hkey
      rw [hlater.others key (not_mem_of_not_mem_cons hkey), (hfirst.others key hne).1]

/-! ## Keys of events -/

/-- The key an event of a binding was drawn under; that of an observation has none. -/
def TelemetryEvent.key (identity : String) (event : TelemetryEvent) : Option DetectorKey :=
  match event.payload with
  | .observation _ => none
  | .detector payload => some (identity, payload.detector, payload.target)

theorem due_key (h : due binding samples aggregated p pair = some event) :
    event.key binding.identity = some (binding.key pair) ∧
      event.occurred_at = window_ended_at samples := by
  obtain ⟨found, _, hevent⟩ := Option.bind_eq_some_iff.mp h
  split at hevent
  · cases hevent
  · cases hevent
    exact ⟨rfl, rfl⟩

/-- Nothing is drawn under a key without a pair. -/
theorem none_due {key : DetectorKey} {pairs : List (ObservationDetector × String)}
    (hkey : key ∉ pairs.map binding.key) :
    (pairs.filterMap (due binding samples aggregated p)).filter
      (fun event => event.key binding.identity = some key) = [] := by
  rw [filter_eq_nil_iff]
  intro event hevent hown
  obtain ⟨other, hother, hdue⟩ := mem_filterMap.mp hevent
  have heq : some (binding.key other) = some key :=
    (due_key hdue).1.symm.trans (of_decide_eq_true hown)
  exact hkey (mem_map.mpr ⟨other, hother, Option.some.inj heq⟩)

/-- What is drawn under the key of a pair is its due event. -/
theorem one_due {pairs : List (ObservationDetector × String)}
    (hkeys : (pairs.map binding.key).Nodup) (hpair : pair ∈ pairs) :
    (pairs.filterMap (due binding samples aggregated p)).filter
      (fun event => event.key binding.identity = some (binding.key pair)) =
        (due binding samples aggregated p pair).toList := by
  induction pairs with
  | nil => cases hpair
  | cons first rest ih =>
    rw [map_cons] at hkeys
    obtain ⟨hfresh, hrest⟩ := List.nodup_cons.mp hkeys
    rcases mem_cons.mp hpair with rfl | hlater
    · cases hdue : due binding samples aggregated p pair with
      | none =>
        rw [filterMap_cons_none hdue, none_due hfresh]
        rfl
      | some event =>
        rw [filterMap_cons_some hdue, filter_cons,
          if_pos (decide_eq_true (due_key hdue).1), none_due hfresh]
        rfl
    · have hne : binding.key first ≠ binding.key pair :=
        fun heq => hfresh (heq ▸ mem_map_of_mem hlater)
      cases hdue : due binding samples aggregated p first with
      | none => rw [filterMap_cons_none hdue, ih hrest hlater]
      | some event =>
        have hskip : ¬ decide (event.key binding.identity = some (binding.key pair)) = true := by
          rw [(due_key hdue).1, decide_eq_true_iff, Option.some.injEq]
          exact hne
        rw [filterMap_cons_some hdue, filter_cons, if_neg hskip, ih hrest hlater]

end Drawing

/-! ## One section of a sampler -/

variable {α : Type} {cooldown : Duration} {config : TelemetryConfig}

/-- The last entry stays when it is admissible alone. -/
theorem pop_while_last {old : List α → Bool} (hempty : old [] = false) {l : List α} {a : α}
    (ha : a ∈ l.getLast?) (hnew : old [a] = false) : a ∈ (pop_while old l).getLast? := by
  obtain ⟨earlier, rfl⟩ := getLast?_eq_some_iff.mp ha
  obtain ⟨kept, hkept⟩ := (pop_while_longest hempty (earlier ++ [a])).suffix_of
    (suffix_append earlier [a]) hnew
  exact getLast?_eq_some_iff.mpr ⟨kept, hkept.symm⟩

/-- How a section ends: a sample that is refused changes nothing, and one that is not
becomes the newest of its window. -/
inductive Sampled (binding : PolicyBinding) (sample : Sample)
    (p : TelemetryPipeline) :
    Except SampleError (List TelemetryEvent) × TelemetryPipeline → Prop
  | refused {e : TelemetryError}
      (hrefused : (push_sample binding.policy (p.windows binding.identity) sample).1 =
        .error e) :
      Sampled binding sample p (.error (.telemetry e), p)
  | overflow {samples : List Sample}
      (hpush : push_sample binding.policy (p.windows binding.identity) sample = (.ok (), samples))
      (hnext : ∀ last ∈ (p.windows binding.identity).getLast?, last.observed_at ≤ sample.observed_at)
      (hnewest : sample ∈ samples.getLast?)
      (hnone : aggregate_samples samples binding.policy.aggregation = none) :
      Sampled binding sample p
        (.error .overflow, { p with windows := update p.windows binding.identity samples })
  | accepted {samples : List Sample} {events : List TelemetryEvent} {p' : TelemetryPipeline}
      {aggregated : List (String × JsonValue)}
      (hpush : push_sample binding.policy (p.windows binding.identity) sample =
        (.ok (), samples))
      (hnext : ∀ last ∈ (p.windows binding.identity).getLast?, last.observed_at ≤ sample.observed_at)
      (hnewest : sample ∈ samples.getLast?)
      (hwindows : p'.windows = update p.windows binding.identity samples)
      (haggregated : aggregate_samples samples binding.policy.aggregation = some aggregated)
      (hall : AllDetected binding samples aggregated p binding.pairs (p', events)) :
      Sampled binding sample p
        (.ok (TelemetryPipeline.observation_event binding samples aggregated :: events), p')

theorem sample_cases (binding : PolicyBinding) (sample : Sample) (p : TelemetryPipeline) :
    Sampled binding sample p (p.sample binding sample) := by
  unfold TelemetryPipeline.sample
  rcases push_sample_cases binding.policy (p.windows binding.identity) sample with
    ⟨last, hlast, hlt, e, hrefused⟩ | ⟨hnext, haccepted⟩
  · have hraised := congrArg Prod.fst hrefused
    rw [hrefused]
    dsimp only
    rw [update_eq_self]
    exact .refused hraised
  · have hlast := getLast?_concat (a := sample) (l := p.windows binding.identity)
    have hwindow := timedelta_nonneg (duration_seconds_nonneg binding.policy.window)
    have hnewest : sample ∈ (push_sample binding.policy (p.windows binding.identity) sample).2.getLast? := by
      rw [haccepted]
      refine pop_while_last (decide_eq_false (Nat.not_lt_zero _))
        (pop_while_last rfl hlast (decide_eq_false ?_)) (decide_eq_false ?_)
      · omega
      · exact Nat.not_lt.mpr (Nat.succ_le_succ (Nat.zero_le _))
    rw [haccepted] at hnewest ⊢
    dsimp only at hnewest ⊢
    split
    · rename_i hnone
      exact .overflow haccepted hnext hnewest hnone
    · rename_i aggregated haggregated
      refine .accepted haccepted hnext hnewest (detect_all_windows binding _ _ _ _) haggregated ?_
      exact
        let hall := detect_all_spec binding _ aggregated binding.pairs binding.keys_unique _
        ⟨hall.drawn, hall.own, hall.others⟩

/-! ## Samples and publications -/

/-- A publication that was tried. -/
structure TriedPublication where
  identity : String
  event : TelemetryEvent
  failed : Bool

/-- The key of a publication. -/
def TriedPublication.key (publication : TriedPublication) : Option DetectorKey :=
  publication.event.key publication.identity

/-- The pipeline among its threads. -/
structure TelemetryState where
  pipeline : TelemetryPipeline := {}
  /-- What the thread of a binding has drawn and not yet tried to publish. -/
  pending : String → List TelemetryEvent := fun _ => []
  /-- What was tried, the newest last. -/
  tried : List TriedPublication := []

inductive TelemetryAction where
  /-- The section of a binding that is offered a sample. -/
  | sample (i : ℕ) (sample : Sample)
  /-- The thread of a binding publishes its next event. -/
  | publish (identity : String) (failed : Bool)

/-- The thread of a binding has drawn events. -/
def TelemetryState.after (s : TelemetryState) (binding : PolicyBinding)
    (events : List TelemetryEvent) (pipeline : TelemetryPipeline) : TelemetryState :=
  { s with
    pipeline := pipeline
    pending := update s.pending binding.identity events }

/-- The state after a section. -/
def TelemetryState.sampled (s : TelemetryState) (binding : PolicyBinding) :
    Except SampleError (List TelemetryEvent) × TelemetryPipeline → TelemetryState
  | (.error _, pipeline) => { s with pipeline := pipeline }
  | (.ok events, pipeline) => s.after binding events pipeline

/-- A binding is sampled again once everything it drew was tried. -/
def telemetry_system (config : TelemetryConfig) :
    System TelemetryState TelemetryAction where
  init s := s = {}
  step s
    | .sample i sample => config.bindings[i]?.bind fun binding =>
      if (s.pending binding.identity).isEmpty then
        some (s.sampled binding (s.pipeline.sample binding sample))
      else none
    | .publish identity failed =>
      match s.pending identity with
      | [] => none
      | event :: events =>
        some { s with
          pending := update s.pending identity events
          tried := s.tried ++ [⟨identity, event, failed⟩] }

namespace TelemetryState

/-- The publications of a key. -/
def attempts (s : TelemetryState) (key : DetectorKey) : List TriedPublication :=
  s.tried.filter fun publication => publication.key = some key

/-- The times of all events a key has drawn. -/
def drawn (s : TelemetryState) (key : DetectorKey) : List ℤ :=
  (s.attempts key).map (fun publication => publication.event.occurred_at) ++
    ((s.pending key.1).filter fun event => event.key key.1 = some key).map TelemetryEvent.occurred_at

/-- The condition of a detector holds for a target in a sample that is not refused. -/
def Holds (s : TelemetryState) (binding : PolicyBinding)
    (sample : Sample) (pair : ObservationDetector × String) : Prop :=
  ∃ samples aggregated, push_sample binding.policy (s.pipeline.windows binding.identity) sample =
      (.ok (), samples) ∧ aggregate_samples samples binding.policy.aggregation = some aggregated ∧
    (finding_of binding samples aggregated s.pipeline pair).isSome

/-- An event of the detector about the target is about to be published. -/
def Attempts (s : TelemetryState) (binding : PolicyBinding) (pair : ObservationDetector × String) :
    Prop :=
  ∃ event ∈ s.pending binding.identity, event.key binding.identity = some (binding.key pair)

/-- An event of the key was published less than a cooldown ago. -/
def PublishedWithin (s : TelemetryState) (key : DetectorKey)
    (cooldown : Duration) (time : ℤ) : Prop :=
  ∃ publication ∈ s.attempts key, publication.failed = false ∧
    total_seconds (time - publication.event.occurred_at) < duration_seconds cooldown

/-- The newest publication of the key did not fail, if it was less than a cooldown ago. -/
def NewestSucceeded (s : TelemetryState) (key : DetectorKey)
    (cooldown : Duration) (time : ℤ) : Prop :=
  ∀ newest ∈ (s.attempts key).getLast?,
    total_seconds (time - newest.event.occurred_at) < duration_seconds cooldown → newest.failed = false

end TelemetryState

/-! ## Events of one key are a cooldown apart -/

/-- Times in order, each a cooldown after the ones before. -/
def Spaced (cooldown : Duration) (times : List ℤ) : Prop :=
  times.Pairwise fun a b => a ≤ b ∧ duration_seconds cooldown ≤ total_seconds (b - a)

theorem Spaced.append {times : List ℤ} (h : Spaced cooldown times)
    (hlast : ∀ last ∈ times.getLast?, last ≤ time ∧
      duration_seconds cooldown ≤ total_seconds (time - last)) :
    Spaced cooldown (times ++ [time]) := by
  refine pairwise_append.mpr ⟨h, pairwise_singleton _ _, fun earlier hearlier _ hmem => ?_⟩
  rw [mem_singleton.mp hmem]
  cases hnewest : times.getLast? with
  | none =>
    rw [getLast?_eq_none_iff.mp hnewest] at hearlier
    cases hearlier
  | some last =>
    obtain ⟨hle, hapart⟩ := hlast last hnewest
    have hbefore : earlier ≤ last := by
      obtain ⟨before, rfl⟩ := getLast?_eq_some_iff.mp hnewest
      rcases mem_append.mp hearlier with hmem | hmem
      · exact ((pairwise_append.mp h).2.2 earlier hmem last (mem_singleton_self last)).1
      · exact (mem_singleton.mp hmem).le
    exact ⟨hbefore.trans hle, hapart.trans (total_seconds_mono (by omega))⟩

/-- Only the newest one can be less than a cooldown ago. -/
theorem Spaced.newest {occurred : α → ℤ} {events : List α}
    (h : Spaced cooldown (events.map occurred))
    (hle : ∀ newest ∈ events.getLast?, occurred newest ≤ time) {event : α}
    (hevent : event ∈ events)
    (hrecent : total_seconds (time - occurred event) < duration_seconds cooldown) :
    event ∈ events.getLast? := by
  cases hnewest : events.getLast? with
  | none =>
    rw [getLast?_eq_none_iff.mp hnewest] at hevent
    cases hevent
  | some newest =>
    have hbound := hle newest hnewest
    obtain ⟨before, rfl⟩ := getLast?_eq_some_iff.mp hnewest
    rcases mem_append.mp hevent with hmem | hmem
    · have hpair := (pairwise_append.mp (pairwise_map.mp h)).2.2 event hmem newest
        (mem_singleton_self newest)
      have hmore : total_seconds (occurred newest - occurred event) ≤
          total_seconds (time - occurred event) :=
        total_seconds_mono (by omega)
      exact absurd (hpair.2.trans hmore) (not_le.mpr hrecent)
    · rw [mem_singleton.mp hmem]
      rfl

/-! ## What the pipeline remembers of a key -/

/-- The emission that is noted is the newest event that was drawn, published or not. -/
structure EmissionsKept (binding : PolicyBinding)
    (pair : ObservationDetector × String) (s : TelemetryState) : Prop where
  noted : s.pipeline.last_emitted (binding.key pair) = (s.drawn (binding.key pair)).getLast?
  spaced : Spaced pair.1.cooldown (s.drawn (binding.key pair))
  past : ∀ last ∈ s.pipeline.last_emitted (binding.key pair),
    ∃ newest ∈ (s.pipeline.windows binding.identity).getLast?, last ≤ newest.observed_at

variable {s : TelemetryState} {events : List TelemetryEvent} {s' : TelemetryState}

/-- A publication moves an event from one place to another. -/
theorem drawn_publish {identity : String}
    (hpending : s.pending identity = event :: events) (failed : Bool) (key : DetectorKey) :
    ({ s with
        pending := update s.pending identity events
        tried := s.tried ++ [⟨identity, event, failed⟩] } : TelemetryState).drawn key =
      s.drawn key := by
  have hattempts : ({ s with
      pending := update s.pending identity events
      tried := s.tried ++ [⟨identity, event, failed⟩] } : TelemetryState).attempts key =
        s.attempts key ++ if event.key identity = some key then [⟨identity, event, failed⟩] else [] := by
    rw [TelemetryState.attempts, filter_append, filter_singleton, Bool.cond_decide]
    rfl
  unfold TelemetryState.drawn
  rw [hattempts, map_append, append_assoc]
  dsimp only
  by_cases hidentity : key.1 = identity
  · subst hidentity
    rw [update_self, hpending, filter_cons]
    by_cases hown : event.key key.1 = some key
    · rw [if_pos hown, if_pos (decide_eq_true hown)]
      rfl
    · rw [if_neg hown, if_neg (fun h => hown (of_decide_eq_true h))]
      rfl
  · have hother : event.key identity ≠ some key := by
      intro hown
      rw [TelemetryEvent.key] at hown
      split at hown
      · cases hown
      · exact hidentity (congrArg Prod.fst (Option.some.inj hown)).symm
    rw [update_of_ne hidentity, if_neg hother]
    rfl

section Sampling

variable {s : TelemetryState} {binding other : PolicyBinding} {sample : Sample}
  {pair : ObservationDetector × String}

/-- A key whose binding is not at work keeps what it has. -/
theorem EmissionsKept.of_same (h : EmissionsKept binding pair s)
    (hdrawn : s'.drawn (binding.key pair) = s.drawn (binding.key pair))
    (hlast : s'.pipeline.last_emitted (binding.key pair) =
      s.pipeline.last_emitted (binding.key pair))
    (hwindow : s'.pipeline.windows binding.identity = s.pipeline.windows binding.identity) :
    EmissionsKept binding pair s' := by
  refine ⟨?_, ?_, ?_⟩
  · rw [hdrawn, hlast]
    exact h.noted
  · rw [hdrawn]
    exact h.spaced
  · rw [hlast, hwindow]
    exact h.past

/-- Between two samples everything a key has drawn was tried. -/
theorem drawn_idle (hidle : s.pending binding.identity = []) :
    s.drawn (binding.key pair) =
      (s.attempts (binding.key pair)).map fun publication => publication.event.occurred_at := by
  rw [TelemetryState.drawn, PolicyBinding.key]
  dsimp only
  rw [hidle, filter_nil, map_nil, append_nil]

theorem TelemetryState.after_drawn (events : List TelemetryEvent) (p' : TelemetryPipeline) :
    (s.after binding events p').drawn (binding.key pair) =
      (s.attempts (binding.key pair)).map (fun publication => publication.event.occurred_at) ++
        (events.filter fun event => event.key binding.identity = some (binding.key pair)).map
          TelemetryEvent.occurred_at := by
  have hpending : (s.after binding events p').pending (binding.key pair).1 = events :=
    update_self _ _ _
  rw [TelemetryState.drawn, hpending]
  rfl

variable {samples : List Sample} {events : List TelemetryEvent} {p' : TelemetryPipeline}
  {aggregated : List (String × JsonValue)}

/-- A pair of the binding that is sampled draws what is due. -/
theorem drawn_own (hidle : s.pending binding.identity = [])
    (hall : AllDetected binding samples aggregated s.pipeline binding.pairs (p', events))
    (hpair : pair ∈ binding.pairs) :
    (s.after binding (TelemetryPipeline.observation_event binding samples aggregated :: events)
      p').drawn (binding.key pair) = s.drawn (binding.key pair) ++
        (due binding samples aggregated s.pipeline pair).toList.map
          TelemetryEvent.occurred_at := by
  have hdrawn : events = binding.pairs.filterMap
    (due binding samples aggregated s.pipeline) := hall.drawn
  have hobservation : ¬ decide ((TelemetryPipeline.observation_event binding samples aggregated).key
      binding.identity = some (binding.key pair)) = true := fun h => by
    cases of_decide_eq_true h
  have hown := @one_due binding samples aggregated s.pipeline pair _
    binding.keys_unique hpair
  have hnew : (TelemetryPipeline.observation_event binding samples aggregated :: events).filter
      (fun event => event.key binding.identity = some (binding.key pair)) =
        (due binding samples aggregated s.pipeline pair).toList := by
    rw [filter_cons, if_neg hobservation, hdrawn]
    exact hown
  rw [drawn_idle hidle, ← hnew, TelemetryState.after_drawn]

/-- A binding is offered a sample that it does not refuse. -/
theorem EmissionsKept.sample_own (h : EmissionsKept binding pair s)
    (hidle : s.pending binding.identity = [])
    (hnext : ∀ last ∈ (s.pipeline.windows binding.identity).getLast?,
      last.observed_at ≤ sample.observed_at) (hnewest : sample ∈ samples.getLast?)
    (hwindows : p'.windows = update s.pipeline.windows binding.identity samples)
    (hall : AllDetected binding samples aggregated s.pipeline binding.pairs (p', events))
    (hpair : pair ∈ binding.pairs) :
    EmissionsKept binding pair
      (s.after binding (TelemetryPipeline.observation_event binding samples aggregated :: events)
        p') := by
  have hended : window_ended_at samples = sample.observed_at := by
    rw [window_ended_at, Option.mem_def.mp hnewest]
    rfl
  have hpast : ∀ last ∈ s.pipeline.last_emitted (binding.key pair), last ≤ sample.observed_at := by
    intro last hlast
    obtain ⟨newest, hmem, hle⟩ := h.past last hlast
    exact hle.trans (hnext newest hmem)
  have hwindow : p'.windows binding.identity = samples := by
    rw [hwindows, update_self]
  have hown : p'.last_emitted (binding.key pair) = _ := hall.own pair hpair
  have hdrawn := drawn_own hidle hall hpair
  cases hdue : due binding samples aggregated s.pipeline pair with
  | none =>
    have hkept : p'.last_emitted (binding.key pair) =
        s.pipeline.last_emitted (binding.key pair) := by
      rw [hown, hdue]
      rfl
    rw [hdue, Option.toList_none, map_nil, append_nil] at hdrawn
    refine ⟨?_, ?_, fun last hlast => ⟨sample, ?_, ?_⟩⟩
    · rw [hdrawn, ← h.noted]
      exact hkept
    · rw [hdrawn]
      exact h.spaced
    · exact hwindow ▸ hnewest
    · exact hpast last (hkept ▸ hlast)
  | some event =>
    have hnoted : p'.last_emitted (binding.key pair) = some sample.observed_at := by
      rw [hown, hdue, ← hended]
      rfl
    rw [hdue, Option.toList_some, map_singleton, (due_key hdue).2, hended] at hdrawn
    refine ⟨?_, ?_, fun last hlast => ⟨sample, ?_, ?_⟩⟩
    · rw [hdrawn, getLast?_concat]
      exact hnoted
    · rw [hdrawn]
      refine h.spaced.append fun last hlast => ⟨hpast last (h.noted ▸ hlast), ?_⟩
      -- the event is due because the last emission is a cooldown ago
      obtain ⟨found, _, hready⟩ := Option.bind_eq_some_iff.mp hdue
      rw [h.noted, Option.mem_def.mp hlast, hended] at hready
      by_contra hrecent
      rw [cooling_down, Option.any_some, if_pos (decide_eq_true (not_le.mp hrecent))] at hready
      cases hready
    · exact hwindow ▸ hnewest
    · have heq : some last = some sample.observed_at := (Option.mem_def.mp hlast).symm.trans hnoted
      exact (Option.some.inj heq).le

/-- Another binding is offered a sample. -/
theorem EmissionsKept.sample_other {all : List TelemetryEvent}
    (h : EmissionsKept binding pair s) (hother : binding.identity ≠ other.identity)
    (hwindows : p'.windows = update s.pipeline.windows other.identity samples)
    (hall : AllDetected other samples aggregated s.pipeline other.pairs (p', events)) :
    EmissionsKept binding pair (s.after other all p') := by
  refine h.of_same ?_ (hall.others _ fun hmem => ?_) ?_
  · have hpending : (s.after other all p').pending binding.identity = s.pending binding.identity :=
      update_of_ne hother _ _
    rw [TelemetryState.drawn, TelemetryState.drawn, PolicyBinding.key]
    dsimp only
    rw [hpending]
    rfl
  · obtain ⟨pair', _, hkey⟩ := mem_map.mp hmem
    exact hother (congrArg Prod.fst hkey).symm
  · have hwindow : p'.windows binding.identity = s.pipeline.windows binding.identity := by
      rw [hwindows, update_of_ne hother]
    exact hwindow

end Sampling

theorem sample_step {i : ℕ} {sample : Sample} (hbinding : config.bindings[i]? = some binding)
    (h : (telemetry_system config).step s (.sample i sample) = some s') :
    s.pending binding.identity = [] ∧
      s' = s.sampled binding (s.pipeline.sample binding sample) := by
  obtain ⟨binding', hbinding', hstep⟩ := Option.bind_eq_some_iff.mp h
  rw [hbinding] at hbinding'
  cases hbinding'
  by_cases hidle : (s.pending binding.identity).isEmpty = true
  · rw [if_pos hidle] at hstep
    exact ⟨List.isEmpty_iff.mp hidle, (Option.some.inj hstep).symm⟩
  · rw [if_neg hidle] at hstep
    cases hstep

/-- In every reachable state every detector and target has its emissions noted. -/
theorem emissions_kept (h : (telemetry_system config).Reachable s)
    (hbinding : binding ∈ config.bindings) (hpair : pair ∈ binding.pairs) :
    EmissionsKept binding pair s := by
  refine h.invariant (P := EmissionsKept binding pair) ?_ ?_
  · rintro s rfl
    exact ⟨rfl, List.Pairwise.nil, fun _ hlast => (by cases hlast)⟩
  · intro s action s' _ hkept hstep
    cases action with
    | publish identity failed =>
      simp only [telemetry_system] at hstep
      split at hstep
      · cases hstep
      · rename_i hpending
        exact Option.some.inj hstep ▸ hkept.of_same (drawn_publish hpending failed _) rfl rfl
    | sample i sample =>
      obtain ⟨other, hother, _⟩ := Option.bind_eq_some_iff.mp hstep
      obtain ⟨hidle, rfl⟩ := sample_step hother hstep
      have hsampled := sample_cases other sample s.pipeline
      generalize s.pipeline.sample other sample = result at hsampled ⊢
      cases hsampled with
      | refused => exact hkept
      | overflow _ hnext hnewest =>
        refine ⟨hkept.noted, hkept.spaced, fun last hlast => ?_⟩
        obtain ⟨newest, hmem, hle⟩ := hkept.past last hlast
        dsimp only [TelemetryState.sampled]
        by_cases hidentity : binding.identity = other.identity
        · rw [hidentity] at hmem ⊢
          rw [update_self]
          exact ⟨sample, hnewest, hle.trans (hnext newest hmem)⟩
        · rw [update_of_ne hidentity]
          exact ⟨newest, hmem, hle⟩
      | accepted _ hnext hnewest hwindows _ hall =>
        by_cases hidentity : binding.identity = other.identity
        · have heq := Keyed.eq_of_key config.identities_unique hbinding
            (mem_of_getElem? hother) hidentity
          subst heq
          exact hkept.sample_own hidle hnext hnewest hwindows hall hpair
        · exact hkept.sample_other hidentity hwindows hall

/-! ## When the cooldown is that of a publication -/

theorem EmissionsKept.noted_idle (h : EmissionsKept binding pair s)
    (hidle : s.pending binding.identity = []) :
    s.pipeline.last_emitted (binding.key pair) =
      (s.attempts (binding.key pair)).getLast?.map fun publication =>
        publication.event.occurred_at := by
  rw [h.noted, drawn_idle hidle, getLast?_map]

/-- In the cooldown of an emission, the published events are due to the newest one. -/
theorem EmissionsKept.published_within_iff (h : EmissionsKept binding pair s)
    (hidle : s.pending binding.identity = [])
    (hpast : ∀ last ∈ s.pipeline.last_emitted (binding.key pair), last ≤ time)
    (hcooling : cooling_down (s.pipeline.last_emitted (binding.key pair)) time
      pair.1.cooldown = true) :
    s.PublishedWithin (binding.key pair) pair.1.cooldown time ↔
      s.NewestSucceeded (binding.key pair) pair.1.cooldown time := by
  have hspaced := h.spaced
  rw [drawn_idle hidle] at hspaced
  have hnoted := h.noted_idle hidle
  obtain ⟨last, hlast, hrecent⟩ := (Option.any_eq_true _ _).mp hcooling
  have hdecided := of_decide_eq_true hrecent
  have hnewest := hnoted.symm.trans hlast
  obtain ⟨newest, hmem, rfl⟩ := Option.map_eq_some_iff.mp hnewest
  constructor
  · rintro ⟨publication, hpublication, hok, hwithin⟩ newest' hnewest' _
    have hown : publication ∈ (s.attempts (binding.key pair)).getLast? := by
      refine hspaced.newest (fun other hother => hpast _ ?_) hpublication hwithin
      rw [hnoted, Option.mem_def.mp hother]
      rfl
    rw [Option.mem_unique hnewest' hown]
    exact hok
  · intro hsucceeded
    exact ⟨newest, mem_of_getLast? hmem, hsucceeded newest hmem hdecided, hdecided⟩

/-- What is due is about to be published. -/
theorem attempts_iff {samples : List Sample} {aggregated : List (String × JsonValue)}
    {p' : TelemetryPipeline}
    (hall : AllDetected binding samples aggregated s.pipeline binding.pairs (p', events))
    (hpair : pair ∈ binding.pairs) :
    (s.after binding (TelemetryPipeline.observation_event binding samples aggregated :: events)
      p').Attempts binding pair ↔
        (due binding samples aggregated s.pipeline pair).isSome = true := by
  have hdrawn : events = binding.pairs.filterMap
    (due binding samples aggregated s.pipeline) := hall.drawn
  have hpending : (s.after binding (TelemetryPipeline.observation_event binding samples aggregated ::
    events) p').pending binding.identity = _ := update_self _ _ _
  unfold TelemetryState.Attempts
  rw [hpending, hdrawn]
  constructor
  · rintro ⟨event, hevent, hkey⟩
    rcases mem_cons.mp hevent with rfl | hevent
    · cases hkey
    · have hmem := (mem_filter
        (p := fun event => event.key binding.identity = some (binding.key pair))).mpr
          ⟨hevent, decide_eq_true hkey⟩
      rw [one_due binding.keys_unique hpair, Option.mem_toList] at hmem
      exact Option.isSome_iff_exists.mpr ⟨event, hmem⟩
  · intro hsome
    obtain ⟨event, hdue⟩ := Option.isSome_iff_exists.mp hsome
    exact ⟨event, mem_cons_of_mem _ (mem_filterMap.mpr ⟨pair, hpair, hdue⟩),
      (due_key hdue).1⟩

/-- A load above five is worth an event every ten seconds. -/
def load_detector : ObservationDetector where
  name := "overload"
  event := "switch.overloaded"
  path := "load"
  cooldown := whole_seconds 10
  method := .threshold .gt 5

def load_policy : ObservationPolicy where
  observation := "switch.load"
  every := whole_seconds 1
  window := whole_seconds 2
  aggregation := .latest
  detectors := [load_detector]
  every_pos := second_policy.every_pos
  every_le_window := second_policy.every_le_window
  detector_names_unique := nodup_singleton _

def load_binding : PolicyBinding where
  identity := "a:0:switch.load"
  agent_id := "a"
  targets := ["s1"]
  policy := load_policy
  targets_unique := nodup_singleton _

def load_config : TelemetryConfig where
  bindings := [load_binding]
  identities_unique := nodup_singleton _

def load_values : List (String × JsonValue) := [("s1", .obj [("load", .num 9)])]

theorem load_values_keyed : (JsonValue.obj load_values).Keyed := by
  simp [load_values, JsonValue.Keyed, JsonValue.KeyedFields]

def load_sample (observed_at : ℤ) : Sample := ⟨observed_at, load_values, load_values_keyed⟩

/-- A first sample, whose event is published or not. -/
def load_run (failed : Bool) : List TelemetryAction :=
  [.sample 0 (load_sample 0), .publish load_binding.identity false,
    .publish load_binding.identity failed]

def load_state (failed : Bool) : TelemetryState :=
  ((telemetry_system load_config).run {} (load_run failed)).getD {}

theorem load_state_reachable (failed : Bool) :
    (telemetry_system load_config).Reachable (load_state failed) := by
  have hrun : ((telemetry_system load_config).run {} (load_run failed)).isSome = true := by
    cases failed with
    | false => decide +kernel
    | true => decide +kernel
  obtain ⟨s, hs⟩ := Option.isSome_iff_exists.mp hrun
  have heq : load_state failed = s := by rw [load_state, hs, Option.getD_some]
  rw [heq]
  exact System.Reachable.run (.init rfl) hs

theorem load_pair : (load_detector, "s1") ∈ load_binding.pairs :=
  PolicyBinding.mem_pairs.mpr ⟨mem_singleton_self _, mem_singleton_self _⟩

end MininetAi
