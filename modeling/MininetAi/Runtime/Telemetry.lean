/-
The telemetry pipeline (`TelemetryPipeline` in `mininet_ai/runtime/telemetry.py`).

A sampler observes the targets of its agent and pushes the sample to the window of
its policy. The samples of the window are aggregated path by path, and the detectors
of the policy look at the aggregated values. One section under `_data_lock` does all
of this and draws the events; they are published after it, one at a time, and each
publication may fail.

Times are microseconds. A number of a sample is an integer or a double, and what is
computed from numbers is rounded to doubles; an infinite one stands as `2 ^ 1024` or its
negative. That the mean of a baseline overflows, the sequences of the events and the
counters of the report are left out.
-/
import Mathlib.Data.Nat.Size
import Mathlib.Data.Prod.Lex
import MininetAi.Durations
import MininetAi.Lib.Keyed
import MininetAi.Lib.OrderedDict
import MininetAi.Lib.Window
import MininetAi.Runtime.Events
import MininetAi.Substrates.FakeRuntime

set_option autoImplicit false

namespace MininetAi

open Binary64

/-! ## Policies -/

inductive Aggregation where
  | latest
  | minimum
  | maximum
  | mean
  | sum
  deriving DecidableEq

inductive ThresholdOperator where
  | gt
  | gte
  | lt
  | lte
  | eq
  | ne
  deriving DecidableEq

/-- What a detector looks for. -/
inductive DetectorMethod where
  | threshold (operator : ThresholdOperator) (value : ℚ)
  | anomaly (sensitivity : ℚ) (min_samples : ℕ)
  deriving DecidableEq

/-- A `ThresholdDetector` or an `AnomalyDetector`. -/
structure ObservationDetector where
  name : String
  event : String
  path : String
  cooldown : Duration
  method : DetectorMethod
  deriving DecidableEq

/-- An `ObservationPolicy`. The last fields are what its validator checks. -/
structure ObservationPolicy where
  observation : String
  every : Duration
  window : Duration
  aggregation : Aggregation
  detectors : List ObservationDetector
  every_pos : 0 < duration_seconds every
  every_le_window : duration_seconds every ≤ duration_seconds window
  detector_names_unique : (detectors.map ObservationDetector.name).Nodup

/-- A `_PolicyBinding`, with the agent's id and the targets of its attachment. -/
structure PolicyBinding where
  identity : String
  agent_id : String
  targets : List String
  policy : ObservationPolicy
  targets_unique : targets.Nodup

/-! ## Samples -/

/-- A `_Sample`: what was observed of each target. -/
structure Sample where
  observed_at : ℤ
  values : List (String × JsonValue)
  keyed : (JsonValue.obj values).Keyed

/-- A `TelemetryPipelineError`. -/
structure TelemetryError where
  message : String
  code : String
  deriving DecidableEq

/-- What the section of `_sample` raises: a `TelemetryPipelineError`, or the
`OverflowError` of a number that no finite double is near to. -/
inductive SampleError where
  | telemetry (error : TelemetryError)
  | overflow
  deriving DecidableEq

/-- `max_samples` of `_sample`. -/
def max_samples (policy : ObservationPolicy) : ℕ :=
  ⌈nearest (duration_seconds policy.window / duration_seconds policy.every)⌉.toNat + 1

/-- The update of the window in `_sample`: how it ends, and the window after it. -/
def push_sample (policy : ObservationPolicy)
    (window : List Sample) (sample : Sample) : Except TelemetryError Unit × List Sample :=
  if window.getLast?.any fun last => sample.observed_at < last.observed_at then
    (.error
      { message := "substrate observation timestamp moved backwards"
        code := "telemetry.observation.out-of-order" }, window)
  else
    let cutoff := sample.observed_at - timedelta (duration_seconds policy.window)
    let window := window ++ [sample]
    let window := pop_while (fun window => window.head?.any fun first => first.observed_at < cutoff)
      window
    let window := pop_while (fun window => max_samples policy < window.length) window
    (.ok (), window)

/-! ## Aggregation -/

/-- A dotted path. -/
abbrev PathText := List Char

/-- `f"{prefix}.{key}" if prefix else key`. -/
def dotted (path : PathText) (key : String) : PathText :=
  if path = [] then key.toList else path ++ '.' :: key.toList

mutual

def flatten (path : PathText) : JsonValue → List (PathText × JsonValue)
  | .obj fields => flatten_fields path [] fields
  | .null => if path = [] then [] else [(path, .null)]
  | .bool b => if path = [] then [] else [(path, .bool b)]
  | .num q => if path = [] then [] else [(path, .num q)]
  | .str s => if path = [] then [] else [(path, .str s)]
  | .arr values => if path = [] then [] else [(path, .arr values)]

/-- The loop of `_flatten`. -/
def flatten_fields (path : PathText) (result : List (PathText × JsonValue)) :
    List (String × JsonValue) → List (PathText × JsonValue)
  | [] => result
  | (key, child) :: fields =>
    flatten_fields path (dict_update result (flatten (dotted path key) child)) fields

end

/-- `path.split(".")`. -/
def split_path (path : PathText) : List String := (path.splitOn '.').map String.ofList

/-- `_assign`, in the dictionary of an object. -/
def assign_path (value : JsonValue) : List String → List (String × JsonValue) →
    List (String × JsonValue)
  | [], current => current
  | [part], current => dict_set part value current
  | part :: parts, current =>
    let child := match current.lookup part with
      | some (.obj fields) => fields
      | _ => []
    dict_set part (.obj (assign_path value parts child)) current

/-- The number of a value that is one; a `bool` is not. -/
def JsonValue.number : JsonValue → Option ℚ
  | .num q => some q
  | _ => none

/-- One round of `sum()` over doubles: the total and the compensation of its rounding. An
infinite total stays. -/
def add_compensated (total : ℚ × ℚ) (x : ℚ) : ℚ × ℚ :=
  if |total.1| = 2 ^ 1024 then total
  else
    let t := clamped (total.1 + x)
    let lost := if |x| ≤ |total.1| then nearest (total.1 - t) + x else nearest (x - t) + total.1
    (t, nearest (total.2 + nearest lost))

/-- `sum()`, of doubles. -/
def float_sum : List ℚ → ℚ
  | [] => 0
  | x :: xs =>
    let total := xs.foldl add_compensated (x, 0)
    if |total.1| = 2 ^ 1024 then total.1 else clamped (total.1 + total.2)

/-- `fmean`: the exact sum is rounded once, and the quotient again. It raises an
`OverflowError` when the sum of a first part is too large. -/
def fmean (values : List ℚ) : Option ℚ :=
  if ∀ n ≤ values.length, InRange (values.take n).sum then
    some (nearest (nearest values.sum / values.length))
  else none

/-- What the values of one path are aggregated to, after `float()` of each number. -/
def aggregate_values (aggregation : Aggregation) (values : List JsonValue) : Option JsonValue :=
  let numbers := values.filterMap JsonValue.number
  if ∀ q ∈ numbers, InRange q then
    let numeric := numbers.map nearest
    let newest := values.getLast?.getD .null
    if aggregation = .latest ∨ numeric.length ≠ values.length then some newest
    else match aggregation with
      | .latest => some newest
      | .minimum => some (.num (numeric.min?.getD 0))
      | .maximum => some (.num (numeric.max?.getD 0))
      | .mean => (fmean numeric).map .num
      | .sum => some (.num (float_sum numeric))
  else none

/-- `paths.setdefault(key, []).append(leaf)`. -/
def file_leaf (paths : List ((String × PathText) × List JsonValue)) (key : String × PathText)
    (leaf : JsonValue) : List ((String × PathText) × List JsonValue) :=
  dict_set key ((paths.lookup key).getD [] ++ [leaf]) paths

/-- The leaves of one sample are filed under their targets and paths. -/
def file_sample (paths : List ((String × PathText) × List JsonValue)) (sample : Sample) :
    List ((String × PathText) × List JsonValue) :=
  sample.values.foldl
    (fun paths entry => (flatten [] entry.2).foldl
      (fun paths leaf => file_leaf paths (entry.1, leaf.1) leaf.2) paths) paths

/-- The order of the targets and paths. -/
def path_key (entry : (String × PathText) × List JsonValue) : List Char ×ₗ PathText :=
  toLex (entry.1.1.toList, entry.1.2)

/-- The values of one path join the object of their target, which `setdefault` adds
when it is missing. -/
def assign_aggregated (aggregation : Aggregation) (result : List (String × JsonValue))
    (entry : (String × PathText) × List JsonValue) : Option (List (String × JsonValue)) :=
  (aggregate_values aggregation entry.2).map fun aggregated =>
    let target_values := match result.lookup entry.1.1 with
      | some (.obj fields) => fields
      | _ => []
    dict_set entry.1.1 (.obj (assign_path aggregated (split_path entry.1.2) target_values)) result

/-- `_aggregate_samples`, or nothing when it raises an `OverflowError`. -/
def aggregate_samples (samples : List Sample) (aggregation : Aggregation) :
    Option (List (String × JsonValue)) :=
  (Keyed.sort path_key (samples.foldl file_sample [])).foldlM (assign_aggregated aggregation) []

/-! ## Detectors -/

/-- `current[part]`, of a dictionary that has it. -/
def JsonValue.get (value : JsonValue) (part : String) : Option JsonValue :=
  match value with
  | .obj fields => fields.lookup part
  | _ => none

/-- `_numeric_path`. That the value is aggregated means that its number has been converted. -/
def numeric_path (value : Option JsonValue) (path : String) : Option ℚ :=
  let current := (split_path path.toList).foldl
    (fun current part => current.bind (JsonValue.get · part)) value
  (current.bind JsonValue.number).bind fun q => if InRange q then some (nearest q) else none

/-- `_compare`. -/
def compare_numbers (value : ℚ) (operator : ThresholdOperator) (expected : ℚ) : Bool :=
  match operator with
  | .gt => expected < value
  | .gte => expected ≤ value
  | .lt => value < expected
  | .lte => value ≤ expected
  | .eq => value = expected
  | .ne => value ≠ expected

/-- `_integer_sqrt_of_frac_rto`: the root of a fraction, odd when it is not exact. -/
def sqrt_to_odd (n m : ℕ) : ℕ :=
  let a := Nat.sqrt (n / m)
  if a * a * m = n then a else a ||| 1

/-- `pstdev`: the root of the exact variance, rounded once. -/
def pstdev (data : List ℚ) : ℚ :=
  let mean := data.sum / data.length
  let variance := (data.map fun x => (x - mean) * (x - mean)).sum / data.length
  let n := variance.num.toNat
  let m := variance.den
  let q : ℤ := ((Nat.size n : ℤ) - Nat.size m - 109) / 2
  if 0 ≤ q then nearest (sqrt_to_odd n (m * 4 ^ q.toNat) * 2 ^ q.toNat)
  else nearest (sqrt_to_odd (n * 4 ^ (-q).toNat) m / 2 ^ (-q).toNat)

/-- `sys.float_info.max`. -/
def float_max : ℚ := (2 ^ 53 - 1) * 2 ^ 971

/-- `_anomaly`: mean and standard deviation of the baseline, and the score. -/
def anomaly (value : ℚ) (baseline : List ℚ) (sensitivity : ℚ) (min_samples : ℕ) :
    Option (ℚ × ℚ × ℚ) :=
  if baseline.length < min_samples then none
  else
    let mean := nearest (nearest baseline.sum / baseline.length)
    let stddev := pstdev baseline
    let distance := |clamped (value - mean)|
    let score :=
      if stddev = 0 then (if value = mean then 0 else float_max)
      else if distance = 2 ^ 1024 then distance
      else clamped (distance / stddev)
    if score < sensitivity then none else some (mean, stddev, score)

/-- Why a detector fires. -/
inductive Finding where
  | threshold (operator : ThresholdOperator) (threshold : ℚ)
  | anomaly (baseline_mean baseline_stddev score : ℚ)
  deriving DecidableEq

structure DetectorEventPayload where
  agent_id : String
  observation : String
  detector : String
  aggregation : Aggregation
  target : String
  path : String
  value : ℚ
  finding : Finding
  sample_count : ℕ
  window_started_at : ℤ
  window_ended_at : ℤ
  deriving DecidableEq

/-- An `ObservationRecordedPayload` of the pipeline. -/
structure ObservationRecordedPayload where
  agent_id : String
  observation : String
  targets : List String
  values : List (String × JsonValue)
  aggregation : Aggregation
  sample_count : ℕ
  window_started_at : ℤ
  window_ended_at : ℤ
  deriving DecidableEq

inductive TelemetryPayload where
  | observation (payload : ObservationRecordedPayload)
  | detector (payload : DetectorEventPayload)
  deriving DecidableEq

/-- An event of the pipeline. -/
structure TelemetryEvent where
  type : String
  subject : String
  occurred_at : ℤ
  payload : TelemetryPayload
  deriving DecidableEq

/-- Binding, detector and target. -/
abbrev DetectorKey := String × String × String

/-- What the pipeline keeps under `_data_lock`. -/
structure TelemetryPipeline where
  windows : String → List Sample := fun _ => []
  anomaly_history : DetectorKey → List (ℤ × ℚ) := fun _ => []
  last_emitted : DetectorKey → Option ℤ := fun _ => none

/-- `samples[0].observed_at`. The window of a sample is not empty. -/
def window_started_at (samples : List Sample) : ℤ :=
  (samples.head?.map Sample.observed_at).getD 0

/-- `samples[-1].observed_at`. -/
def window_ended_at (samples : List Sample) : ℤ :=
  (samples.getLast?.map Sample.observed_at).getD 0

/-- The history of an anomaly detector without what is older than the window. -/
def recent_history (policy : ObservationPolicy) (ended_at : ℤ)
    (history : List (ℤ × ℚ)) : List (ℤ × ℚ) :=
  pop_while (fun history => history.head?.any fun first =>
    first.1 < ended_at - timedelta (duration_seconds policy.window)) history

/-- Whether a detector fires on a value of a target: why, and on how many samples. -/
def examine (policy : ObservationPolicy) (samples : List Sample)
    (history : List (ℤ × ℚ)) (detector : ObservationDetector) (value : ℚ) : Option (Finding × ℕ) :=
  match detector.method with
  | .threshold operator threshold =>
    if compare_numbers value operator threshold then
      some (.threshold operator threshold, samples.length)
    else none
  | .anomaly sensitivity min_samples =>
    let baseline := (recent_history policy (window_ended_at samples) history).map Prod.snd
    (anomaly value baseline sensitivity min_samples).map fun (mean, stddev, score) =>
      (.anomaly mean stddev score, baseline.length)

/-- The history after the value of a sample. -/
def extend_history (policy : ObservationPolicy)
    (samples : List Sample) (history : List (ℤ × ℚ)) (detector : ObservationDetector) (value : ℚ) :
    List (ℤ × ℚ) :=
  match detector.method with
  | .threshold _ _ => history
  | .anomaly _ _ =>
    recent_history policy (window_ended_at samples) history ++
      [(window_ended_at samples, value)]

/-- Whether the last emission is less than a cooldown ago. -/
def cooling_down (last : Option ℤ) (ended_at : ℤ) (cooldown : Duration) : Bool :=
  last.any fun last => total_seconds (ended_at - last) < duration_seconds cooldown

/-- The event of a detector that fires. -/
def detector_event (binding : PolicyBinding) (samples : List Sample)
    (detector : ObservationDetector) (target : String) (value : ℚ) (finding : Finding × ℕ) :
    TelemetryEvent where
  type := detector.event
  subject := target
  occurred_at := window_ended_at samples
  payload := .detector
    { agent_id := binding.agent_id
      observation := binding.policy.observation
      detector := detector.name
      aggregation := binding.policy.aggregation
      target := target
      path := detector.path
      value := value
      finding := finding.1
      sample_count := finding.2
      window_started_at := window_started_at samples
      window_ended_at := window_ended_at samples }

namespace TelemetryPipeline

/-- One detector looks at one target. -/
def detect (binding : PolicyBinding) (samples : List Sample)
    (aggregated : List (String × JsonValue)) (p : TelemetryPipeline)
    (detector : ObservationDetector) (target : String) : TelemetryPipeline × List TelemetryEvent :=
  match numeric_path (aggregated.lookup target) detector.path with
  | none => (p, [])
  | some value =>
    let key := (binding.identity, detector.name, target)
    let history := p.anomaly_history key
    let ended_at := window_ended_at samples
    let extended := extend_history binding.policy samples history detector value
    let p := { p with anomaly_history := Function.update p.anomaly_history key extended }
    match examine binding.policy samples history detector value with
    | none => (p, [])
    | some finding =>
      if cooling_down (p.last_emitted key) ended_at detector.cooldown then (p, [])
      else
        ({ p with last_emitted := Function.update p.last_emitted key (some ended_at) },
          [detector_event binding samples detector target value finding])

/-- The loops of `_detector_events`, over pairs of a detector and a target. -/
def detect_all (binding : PolicyBinding) (samples : List Sample)
    (aggregated : List (String × JsonValue)) (p : TelemetryPipeline) :
    List (ObservationDetector × String) → TelemetryPipeline × List TelemetryEvent
  | [] => (p, [])
  | (detector, target) :: pairs =>
    let (p, events) := p.detect binding samples aggregated detector target
    let (p, more) := p.detect_all binding samples aggregated pairs
    (p, events ++ more)

def detector_events (binding : PolicyBinding)
    (samples : List Sample) (aggregated : List (String × JsonValue)) (p : TelemetryPipeline) :
    TelemetryPipeline × List TelemetryEvent :=
  p.detect_all binding samples aggregated
    (binding.policy.detectors.flatMap fun detector => binding.targets.map fun target =>
      (detector, target))

/-- The event of the observation itself. -/
def observation_event (binding : PolicyBinding) (samples : List Sample)
    (aggregated : List (String × JsonValue)) : TelemetryEvent where
  type := RuntimeEventType.observation_recorded
  subject := binding.agent_id
  occurred_at := window_ended_at samples
  payload := .observation
    { agent_id := binding.agent_id
      observation := binding.policy.observation
      targets := binding.targets
      values := aggregated
      aggregation := binding.policy.aggregation
      sample_count := samples.length
      window_started_at := window_started_at samples
      window_ended_at := window_ended_at samples }

/-- The section of `_sample` under `_data_lock`: the events it draws or the error it
raises, and the pipeline after it. -/
def sample (binding : PolicyBinding) (sample : Sample)
    (p : TelemetryPipeline) : Except SampleError (List TelemetryEvent) × TelemetryPipeline :=
  let (outcome, samples) :=
    push_sample binding.policy (p.windows binding.identity) sample
  let p := { p with windows := Function.update p.windows binding.identity samples }
  match outcome with
  | .error e => (.error (.telemetry e), p)
  | .ok () => match aggregate_samples samples binding.policy.aggregation with
    | none => (.error .overflow, p)
    | some aggregated =>
      let (p, events) := p.detector_events binding samples aggregated
      (.ok (observation_event binding samples aggregated :: events), p)

end TelemetryPipeline

/-- The bindings of a plan. -/
structure TelemetryConfig where
  bindings : List PolicyBinding
  identities_unique : (bindings.map PolicyBinding.identity).Nodup

end MininetAi
