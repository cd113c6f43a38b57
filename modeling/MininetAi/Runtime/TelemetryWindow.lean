/-
The windows of the telemetry pipeline.

The samples of a binding that are not refused come in the order of their times. Under
that order a sample is too old exactly when one drops it at the front, so the two
loops of `_sample` leave the longest suffix of all accepted samples that is neither
too old nor too long: no sample was dropped too early, and none is missing in between.
-/
import MininetAi.Runtime.Telemetry

set_option autoImplicit false

namespace MininetAi

open List Function

variable {policy : ObservationPolicy}

/-! ## One window -/

/-- The samples are in the order of their times. -/
def TimeOrdered (samples : List Sample) : Prop :=
  samples.Pairwise fun a b => a.observed_at ≤ b.observed_at

/-- The samples lie in the window that ends at a time, and there are not too many. -/
def InWindow (policy : ObservationPolicy) (ended_at : ℤ)
    (samples : List Sample) : Prop :=
  (∀ sample ∈ samples, ended_at - timedelta (duration_seconds policy.window) ≤ sample.observed_at ∧
    sample.observed_at ≤ ended_at) ∧ samples.length ≤ max_samples policy

/-- What the window of a binding is to the samples that were accepted. -/
structure WindowOf (policy : ObservationPolicy)
    (accepted window : List Sample) : Prop where
  ordered : TimeOrdered accepted
  longest : ∀ newest ∈ accepted.getLast?,
    LongestSuffix (InWindow policy newest.observed_at) accepted window
  empty : accepted = [] → window = []

variable {samples accepted window : List Sample}

section

variable (h : TimeOrdered samples)
include h

theorem TimeOrdered.suffix {others : List Sample}
    (hsuffix : others <:+ samples) : TimeOrdered others :=
  h.sublist hsuffix.sublist

/-- Of samples in order the first one is the oldest. -/
theorem TimeOrdered.recent_iff (cutoff : ℤ) :
    (samples.head?.any fun first => first.observed_at < cutoff) = false ↔
      ∀ sample ∈ samples, cutoff ≤ sample.observed_at := by
  cases samples with
  | nil => simp
  | cons first rest =>
    rw [head?_cons, Option.any_some, decide_eq_false_iff_not, not_lt]
    constructor
    · intro hfirst sample hsample
      rcases mem_cons.mp hsample with rfl | hrest
      · exact hfirst
      · exact hfirst.trans ((pairwise_cons.mp h).1 sample hrest)
    · exact fun hall => hall first mem_cons_self

/-- The newest sample comes last. -/
theorem TimeOrdered.le_last {newest : Sample} (hnewest : newest ∈ samples.getLast?) :
    ∀ sample ∈ samples, sample.observed_at ≤ newest.observed_at := by
  obtain ⟨earlier, rfl⟩ := getLast?_eq_some_iff.mp hnewest
  intro sample hsample
  rcases mem_append.mp hsample with hearlier | hlast
  · exact (pairwise_append.mp h).2.2 sample hearlier newest (mem_singleton_self newest)
  · rw [mem_singleton.mp hlast]

/-- The two loops of `_sample` leave the longest suffix that lies in the window. -/
theorem trim_longest {newest : Sample} (hnewest : newest ∈ samples.getLast?) :
    LongestSuffix (InWindow policy newest.observed_at) samples
      (pop_while (fun window => max_samples policy < window.length)
        (pop_while (fun window => window.head?.any fun first =>
          first.observed_at < newest.observed_at - timedelta (duration_seconds policy.window)) samples)) := by
  have hle := h.le_last hnewest
  have hage : LongestSuffix (fun window : List Sample =>
      (window.head?.any fun first =>
        first.observed_at < newest.observed_at - timedelta (duration_seconds policy.window)) = false)
      samples _ := pop_while_longest rfl samples
  have hcount : ∀ window : List Sample, LongestSuffix (fun window : List Sample =>
      decide (max_samples policy < window.length) = false) window _ :=
    fun window => pop_while_longest (decide_eq_false (Nat.not_lt_zero _)) window
  refine (hage.inner (hcount _) fun window hwindow => ?_).congr fun window hwindow => ?_
  · have hkept := ((h.suffix hage.suffix).recent_iff _).mp hage.admissible
    exact ((h.suffix (hwindow.trans hage.suffix)).recent_iff _).mpr
      fun sample hsample => hkept sample (hwindow.subset hsample)
  · rw [(h.suffix hwindow).recent_iff, decide_eq_false_iff_not, not_lt]
    refine and_congr_left fun _ => forall₂_congr fun sample hsample => ?_
    exact (and_iff_left (hle sample (hwindow.subset hsample))).symm

end

/-- The window of a policy has room for its newest sample. -/
theorem in_window_newest (policy : ObservationPolicy)
    (newest : Sample) : InWindow policy newest.observed_at [newest] := by
  have hwindow := timedelta_nonneg (duration_seconds_nonneg policy.window)
  refine ⟨fun sample hsample => ?_, Nat.succ_le_succ (Nat.zero_le _)⟩
  rw [mem_singleton.mp hsample]
  omega

/-- The newest sample is the last one of the window. -/
theorem WindowOf.newest (h : WindowOf policy accepted window) {newest : Sample}
    (hnewest : newest ∈ accepted.getLast?) : newest ∈ window.getLast? := by
  have hlongest := h.longest newest hnewest
  have hlast : [newest] <:+ accepted := by
    obtain ⟨earlier, rfl⟩ := getLast?_eq_some_iff.mp hnewest
    exact suffix_append earlier [newest]
  obtain ⟨earlier, hwindow⟩ := hlongest.suffix_of hlast (in_window_newest policy newest)
  exact getLast?_eq_some_iff.mpr ⟨earlier, hwindow.symm⟩

/-- A window ends as the accepted samples do. -/
theorem WindowOf.getLast?_eq (h : WindowOf policy accepted window) :
    window.getLast? = accepted.getLast? := by
  cases hnewest : accepted.getLast? with
  | none => rw [h.empty (getLast?_eq_none_iff.mp hnewest), getLast?_nil]
  | some newest => exact h.newest hnewest

theorem WindowOf.window_ordered (h : WindowOf policy accepted window) : TimeOrdered window := by
  cases hnewest : accepted.getLast? with
  | none =>
    rw [h.empty (getLast?_eq_none_iff.mp hnewest)]
    exact List.Pairwise.nil
  | some newest => exact h.ordered.suffix (h.longest newest hnewest).suffix

/-- How the update of a window ends. -/
theorem push_sample_cases (policy : ObservationPolicy) (window : List Sample) (sample : Sample) :
    (∃ last ∈ window.getLast?, sample.observed_at < last.observed_at ∧ ∃ e,
      push_sample policy window sample = (.error e, window)) ∨
      ((∀ last ∈ window.getLast?, last.observed_at ≤ sample.observed_at) ∧
        push_sample policy window sample = (.ok (),
          pop_while (fun window => max_samples policy < window.length)
            (pop_while (fun window => window.head?.any fun first =>
              first.observed_at < sample.observed_at - timedelta (duration_seconds policy.window))
              (window ++ [sample])))) := by
  unfold push_sample
  by_cases hback : (window.getLast?.any fun last => sample.observed_at < last.observed_at) = true
  · rw [if_pos hback]
    obtain ⟨last, hlast, hlt⟩ := (Option.any_eq_true _ _).mp hback
    exact .inl ⟨last, hlast, of_decide_eq_true hlt, _, rfl⟩
  · rw [if_neg hback]
    refine .inr ⟨fun last hlast => ?_, rfl⟩
    by_contra hlt
    exact hback ((Option.any_eq_true _ _).mpr ⟨last, hlast, decide_eq_true (not_le.mp hlt)⟩)

/-- A sample that is not refused goes on with the accepted ones. -/
theorem WindowOf.push {sample : Sample} (h : WindowOf policy accepted window)
    (hnext : ∀ last ∈ window.getLast?, last.observed_at ≤ sample.observed_at) :
    WindowOf policy (accepted ++ [sample])
      (pop_while (fun window => max_samples policy < window.length)
        (pop_while (fun window => window.head?.any fun first =>
          first.observed_at < sample.observed_at - timedelta (duration_seconds policy.window))
          (window ++ [sample]))) := by
  have hlast : ∀ samples : List Sample, sample ∈ (samples ++ [sample]).getLast? :=
    fun samples => getLast?_eq_some_iff.mpr ⟨samples, rfl⟩
  cases hnewest : accepted.getLast? with
  | none =>
    have haccepted := getLast?_eq_none_iff.mp hnewest
    rw [haccepted, h.empty haccepted]
    have hordered : TimeOrdered [sample] := pairwise_singleton _ _
    refine ⟨hordered, fun newest hmem => ?_, fun hnil => by cases hnil⟩
    cases hmem
    exact trim_longest hordered (hlast [])
  | some newest =>
    have hold := h.ordered.le_last hnewest
    have hle : newest.observed_at ≤ sample.observed_at := hnext newest (h.newest hnewest)
    have hordered : TimeOrdered (accepted ++ [sample]) := by
      refine pairwise_append.mpr ⟨h.ordered, pairwise_singleton _ _, ?_⟩
      intro earlier hearlier _ hsample
      rw [mem_singleton.mp hsample]
      exact (hold earlier hearlier).trans hle
    refine ⟨hordered, fun sample' hmem => ?_, fun hnil => ?_⟩
    · rw [getLast?_concat] at hmem
      cases hmem
      have hlongest := h.longest newest hnewest
      have hsuffix : window ++ [sample] <:+ accepted ++ [sample] :=
        suffix_concat_iff.mpr (.inr ⟨window, rfl, hlongest.suffix⟩)
      refine hlongest.push (trim_longest (hordered.suffix hsuffix) (hlast window)) ?_
      -- what lies in the window of the new sample lay in that of the one before
      rintro l hl ⟨hages, hcount⟩
      refine ⟨fun earlier hearlier => ⟨?_, hold earlier (hl.subset hearlier)⟩, ?_⟩
      · have hage := (hages earlier (mem_append_left _ hearlier)).1
        omega
      · rw [length_append, length_singleton] at hcount
        omega
    · exact absurd hnil (append_ne_nil_of_right_ne_nil _ (cons_ne_nil _ _))

/-! ## All windows -/

/-- The detectors leave the windows alone. -/
theorem detect_windows (binding : PolicyBinding) (samples : List Sample)
    (aggregated : List (String × JsonValue)) (p : TelemetryPipeline)
    (detector : ObservationDetector) (target : String) :
    (p.detect binding samples aggregated detector target).1.windows = p.windows := by
  unfold TelemetryPipeline.detect
  split
  · rfl
  · dsimp only
    split
    · rfl
    · split
      · rfl
      · rfl

theorem detect_all_windows (binding : PolicyBinding) (samples : List Sample)
    (aggregated : List (String × JsonValue)) (pairs : List (ObservationDetector × String)) :
    ∀ p : TelemetryPipeline,
      (p.detect_all binding samples aggregated pairs).1.windows = p.windows := by
  induction pairs with
  | nil => exact fun _ => rfl
  | cons pair pairs ih =>
    intro p
    rw [TelemetryPipeline.detect_all]
    exact (ih _).trans (detect_windows binding samples aggregated p pair.1 pair.2)

/-- A section changes the window of its binding, and refuses a sample when the update does. -/
theorem sample_windows (binding : PolicyBinding) (sample : Sample) (p : TelemetryPipeline) :
    (p.sample binding sample).2.windows = update p.windows binding.identity
        (push_sample binding.policy (p.windows binding.identity) sample).2 ∧
      ∀ e, (p.sample binding sample).1 = .error (.telemetry e) ↔
        (push_sample binding.policy (p.windows binding.identity) sample).1 = .error e := by
  unfold TelemetryPipeline.sample
  rcases push_sample binding.policy (p.windows binding.identity) sample with ⟨outcome, samples⟩
  cases outcome with
  | error e => exact ⟨rfl, fun e' => by simp only [Except.error.injEq, SampleError.telemetry.injEq]⟩
  | ok _ =>
    dsimp only
    cases aggregate_samples samples binding.policy.aggregation with
    | none => exact ⟨rfl, fun e => by simp only [Except.error.injEq, reduceCtorEq]⟩
    | some aggregated =>
      exact ⟨detect_all_windows binding samples aggregated _ _, fun e => by simp only [reduceCtorEq]⟩

/-- The pipeline, and the samples each binding has accepted. -/
structure SampledPipeline where
  pipeline : TelemetryPipeline := {}
  accepted : String → List Sample := fun _ => []

namespace SampledPipeline

/-- A binding is offered a sample. -/
def offer (s : SampledPipeline) (binding : PolicyBinding)
    (sample : Sample) : SampledPipeline :=
  match s.pipeline.sample binding sample with
  | (.error (.telemetry _), pipeline) => { s with pipeline := pipeline }
  | (_, pipeline) =>
    { pipeline := pipeline
      accepted := update s.accepted binding.identity
        (s.accepted binding.identity ++ [sample]) }

/-- The bindings of a plan are offered samples, in any order. -/
def offer_all {config : TelemetryConfig} (s : SampledPipeline) :
    List ({binding // binding ∈ config.bindings} × Sample) → SampledPipeline
  | [] => s
  | (binding, sample) :: offered => (s.offer binding sample).offer_all offered

/-- Every binding has the window of what it has accepted. -/
def WindowsKept (config : TelemetryConfig) (s : SampledPipeline) : Prop :=
  ∀ binding ∈ config.bindings, WindowOf binding.policy (s.accepted binding.identity)
    (s.pipeline.windows binding.identity)

variable {config : TelemetryConfig}

theorem WindowsKept.offer {s : SampledPipeline} (h : s.WindowsKept config)
    {binding : PolicyBinding} (hbinding : binding ∈ config.bindings) (sample : Sample) :
    (s.offer binding sample).WindowsKept config := by
  obtain ⟨hwindows, hraises⟩ := sample_windows binding sample s.pipeline
  have hpush := push_sample_cases binding.policy (s.pipeline.windows binding.identity) sample
  unfold SampledPipeline.offer
  rcases hsample : s.pipeline.sample binding sample with ⟨outcome, pipeline⟩
  rw [hsample] at hwindows hraises
  dsimp only at hwindows hraises
  rcases hpush with ⟨_, _, _, e, hrefused⟩ | ⟨hnext, haccepted⟩
  · -- a refused sample leaves every window as it is
    rw [hrefused] at hwindows hraises
    rw [(hraises e).mpr rfl]
    intro other hother
    dsimp only at hwindows ⊢
    rw [hwindows, update_eq_self]
    exact h other hother
  · rw [haccepted] at hwindows hraises
    have hgoes_on : WindowsKept config
        { pipeline := pipeline
          accepted := update s.accepted binding.identity
            (s.accepted binding.identity ++ [sample]) } := by
      intro other hother
      dsimp only
      rw [hwindows]
      by_cases hidentity : other.identity = binding.identity
      · rw [Keyed.eq_of_key config.identities_unique hother hbinding hidentity,
          update_self, update_self]
        exact (h binding hbinding).push hnext
      · rw [update_of_ne hidentity, update_of_ne hidentity]
        exact h other hother
    rcases outcome with (e | _) | events
    · cases (hraises e).mp rfl
    · exact hgoes_on
    · exact hgoes_on

theorem WindowsKept.offer_all (offered : List ({binding // binding ∈ config.bindings} × Sample)) :
    ∀ {s : SampledPipeline}, s.WindowsKept config →
      (s.offer_all offered).WindowsKept config := by
  induction offered with
  | nil => exact fun h => h
  | cons o offered ih => exact fun h => ih (h.offer o.1.2 o.2)

theorem windows_start (config : TelemetryConfig) : ({} : SampledPipeline).WindowsKept config :=
  fun _ _ => ⟨List.Pairwise.nil, fun _ hnewest => (by cases hnewest), fun _ => rfl⟩

end SampledPipeline

/-- A policy without detectors. -/
def bare_policy (every window : Duration) (hevery : 0 < duration_seconds every)
    (hwindow : duration_seconds every ≤ duration_seconds window) : ObservationPolicy where
  observation := "tc.queue-occupancy"
  every := every
  window := window
  aggregation := .latest
  detectors := []
  every_pos := hevery
  every_le_window := hwindow
  detector_names_unique := List.nodup_nil

def whole_seconds (number : ℕ) : Duration := ⟨number, .s, Nat.cast_nonneg number⟩

/-- A policy that samples every second. -/
def second_policy : ObservationPolicy :=
  bare_policy (whole_seconds 1) (whole_seconds 2) (by decide +kernel) (by decide +kernel)

/-- The only binding of a plan. -/
def one_binding (policy : ObservationPolicy) : PolicyBinding where
  identity := "a:0:tc.queue-occupancy"
  agent_id := "a"
  targets := []
  policy := policy
  targets_unique := List.nodup_nil

def one_config (policy : ObservationPolicy) : TelemetryConfig where
  bindings := [one_binding policy]
  identities_unique := nodup_singleton _

theorem no_values_keyed : (JsonValue.obj []).Keyed := ⟨nodup_nil, trivial⟩

/-- A sample without values. -/
def empty_sample (observed_at : ℤ) : Sample := ⟨observed_at, [], no_values_keyed⟩

/-- The binding is offered samples of these times. -/
def offered_at (policy : ObservationPolicy) (times : List ℤ) :
    List ({binding // binding ∈ (one_config policy).bindings} × Sample) :=
  times.map fun time => (⟨one_binding policy, mem_singleton_self _⟩, empty_sample time)

/-- The samples lie in the window that the durations denote, without rounding. -/
def InDenotedWindow (policy : ObservationPolicy) (ended_at : ℤ) (samples : List Sample) : Prop :=
  (∀ sample ∈ samples, ended_at - policy.window.seconds * 1000000 ≤ sample.observed_at ∧
    sample.observed_at ≤ ended_at) ∧
    samples.length ≤ ⌈policy.window.seconds / policy.every.seconds⌉.toNat + 1

/-- Three tenths of a second are seven times in 2.1 seconds, but the quotient of their
doubles is more than seven. -/
def tenths_policy : ObservationPolicy :=
  bare_policy ⟨3 / 10, .s, by norm_num⟩ ⟨21 / 10, .s, by norm_num⟩ (by decide +kernel) (by decide +kernel)

/-- Six tenths of a microsecond are a microsecond for `timedelta`. -/
def brief_policy : ObservationPolicy :=
  bare_policy ⟨6 / 10, .us, by norm_num⟩ ⟨6 / 10, .us, by norm_num⟩ (by decide +kernel) (by decide +kernel)

end MininetAi
