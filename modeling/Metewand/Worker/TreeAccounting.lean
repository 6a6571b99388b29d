import Mathlib.Algebra.BigOperators.Group.Finset.Basic
import Mathlib.Algebra.Order.BigOperators.Group.Finset
import Mathlib.Data.Prod.Lex
import Metewand.Core.Json
import Metewand.Lib.OrderedMap

/-!
# CPU time of a process tree

`runtime/resource_accounting/tree.rs`: the accumulator behind the tree monitor, which is sampled in
the background, when measuring starts or goes on, and when it pauses.  `History` is what the same
calls mean: the active intervals, each with the samples before and inside it.  `run_total` says that
the running total is what the processes gained over the intervals.
-/

namespace Metewand.Worker

open Lib (OrderedMap)

/-! ## The accumulator -/

/-- A process: its id and its start time. -/
abbrev Process := Nat ×ₗ Nat

/-- The CPU time of each process of the tree. -/
abbrev Sample := OrderedMap Process Nat

def u64Max : Nat := 2 ^ 64 - 1

def saturatingAdd (a b : Nat) : Nat := min (a + b) u64Max

structure Accumulator where
  active : Bool := false
  started : Bool := false
  previous : Sample := ∅
  total : Nat := 0
  observed : Bool := false
  lost : Bool := false

namespace Accumulator

/-- What one process adds since it was last sampled. -/
def charge (state : Accumulator) (entry : Process × Nat) : Accumulator :=
  let baseline := (state.previous.get entry.1).getD 0
  if baseline ≤ entry.2 then { state with total := saturatingAdd state.total (entry.2 - baseline) }
  else { state with lost := true }

def sample (state : Accumulator) : Option Sample → Accumulator
  | none => { state with lost := true }
  | some sample =>
      let observed := { state with observed := true }
      let charged := if state.active then sample.entries.foldl charge observed else observed
      -- Processes that are gone keep their last value.
      { charged with previous := charged.previous.extend sample }

end Accumulator

/-! ## The monitor -/

inductive TreeSource where
  | linux
  | windows
  | unavailable
  deriving DecidableEq, Repr

inductive MissingReason where
  | notStarted
  | unsupported
  | accountingUnavailable
  | outOfRange
  deriving DecidableEq, Repr

inductive PartialReason where
  | interrupted
  | sampledProcessTree
  deriving DecidableEq, Repr

inductive Measurement where
  | complete (value : Nat)
  | part (value : Nat) (reason : PartialReason)
  | unavailable (reason : MissingReason)
  deriving DecidableEq, Repr

namespace Accumulator

/-- The background thread samples only while the accumulator is active. -/
def tick (state : Accumulator) (read : Option Sample) : Accumulator :=
  if state.active then state.sample read else state

def beginFromLaunch (state : Accumulator) (read : Option Sample) : Accumulator :=
  { state with previous := ∅, active := true, started := true }.sample read

def resume (state : Accumulator) (read : Option Sample) : Accumulator :=
  { state.sample read with active := true, started := true }

/-- `onWindows` is the platform that the program was built for. -/
def measurement (source : TreeSource) (onWindows : Bool) (state : Accumulator) : Measurement :=
  if source = .unavailable then .unavailable .unsupported
  else if ¬ state.observed then .unavailable .accountingUnavailable
  else if maxSafeInteger < state.total then .unavailable .outOfRange
  else if onWindows ∧ ¬ state.lost then .complete state.total
  else .part state.total (if onWindows then .interrupted else .sampledProcessTree)

def pause (source : TreeSource) (onWindows : Bool) (state : Accumulator) (read : Option Sample) :
    Accumulator × Measurement :=
  if ¬ state.started then (state, .unavailable .notStarted)
  else
    let paused := { state.sample read with active := false }
    (paused, paused.measurement source onWindows)

end Accumulator

namespace Accumulator

/-- A reported value is the total, as it is and within the range of JSON integers. -/
theorem measurement_value {source : TreeSource} {onWindows : Bool} {state : Accumulator} {v : Nat}
    (reported : state.measurement source onWindows = .complete v ∨
      ∃ reason, state.measurement source onWindows = .part v reason) :
    v = state.total ∧ v ≤ maxSafeInteger ∧ state.observed := by
  unfold measurement at reported
  split at reported
  · rcases reported with is | ⟨_, is⟩ <;> cases is
  · split at reported
    · rcases reported with is | ⟨_, is⟩ <;> cases is
    · rename_i observed
      split at reported
      · rcases reported with is | ⟨_, is⟩ <;> cases is
      · rename_i small
        have value : v = state.total := by
          split at reported
          · rcases reported with is | ⟨_, is⟩ <;> cases is
            rfl
          · rcases reported with is | ⟨_, is⟩ <;> cases is
            rfl
        exact ⟨value, by omega, not_not.mp observed⟩

end Accumulator

/-- What is called on the monitor, each with what the source reads at that moment. -/
inductive MonitorCall where
  | sample (read : Option Sample)
  | tick (read : Option Sample)
  | beginFromLaunch (read : Option Sample)
  | resume (read : Option Sample)
  | pause (read : Option Sample)

/-- The state after a call; what `pause` reports does not depend on the source. -/
def Accumulator.call (state : Accumulator) : MonitorCall → Accumulator
  | .sample read => state.sample read
  | .tick read => state.tick read
  | .beginFromLaunch read => state.beginFromLaunch read
  | .resume read => state.resume read
  | .pause read => (state.pause .linux false read).1

/-- The accumulator after a run of calls, from the one that `TreeMonitor::new` starts with. -/
def Accumulator.run (calls : List MonitorCall) : Accumulator := calls.foldl Accumulator.call {}

/-! ## Active intervals -/

/-- The value of a process in the last of some samples that has it. -/
def lastValue (samples : List Sample) (process : Process) : Option Nat :=
  samples.foldl (fun last sample => (sample.get process).or last) none

/-- A time in which the tree is charged. -/
structure Interval where
  fromLaunch : Bool
  /-- The samples that a launch made void. -/
  forgotten : List Sample
  before : List Sample
  inside : List Sample

namespace Interval

def processes (interval : Interval) : Finset Process :=
  (interval.inside.flatMap OrderedMap.keys).toFinset

/-- The gain of a process from a baseline to its last value inside. -/
def gain (interval : Interval) (baseline : Nat) (process : Process) : Nat :=
  (lastValue interval.inside process).getD 0 - baseline

/-- What a process gained over the interval. -/
def spent (interval : Interval) (process : Process) : Nat :=
  interval.gain ((lastValue interval.before process).getD 0) process

/-- What all processes gained over the interval. -/
def cost (interval : Interval) : Nat := ∑ process ∈ interval.processes, interval.spent process

/-- The gain from the last value of any earlier sample, one that a launch made void included. -/
def costSinceAny (interval : Interval) : Nat :=
  ∑ process ∈ interval.processes, interval.gain
    (if interval.fromLaunch then 0
      else (lastValue (interval.forgotten ++ interval.before) process).getD 0) process

end Interval

/-- The meaning of the calls so far. -/
structure History where
  closed : List Interval := []
  current : Option Interval := none
  /-- The samples that a launch made void, and those taken since. -/
  forgotten : List Sample := []
  samples : List Sample := []
  /-- A sample failed. -/
  missed : Bool := false

namespace History

def intervals (history : History) : List Interval := history.closed ++ history.current.toList

/-- All samples that were taken. -/
def taken (history : History) : List Sample := history.forgotten ++ history.samples

def read (history : History) : Option Sample → History
  | none => { history with missed := true }
  | some sample =>
      { history with
        samples := history.samples ++ [sample]
        current := history.current.map fun interval =>
          { interval with inside := interval.inside ++ [sample] } }

def enter (history : History) : History :=
  { history with
    current := some (history.current.getD ⟨false, history.forgotten, history.samples, []⟩) }

def leave (history : History) : History :=
  { history with closed := history.intervals, current := none }

/-- A launch starts the first interval without any samples before it. -/
def launch (history : History) : History :=
  { history with
    forgotten := history.taken
    samples := []
    current := some (history.current.getD ⟨true, history.taken, [], []⟩) }

def call (history : History) : MonitorCall → History
  | .sample read => history.read read
  | .tick read => if history.current.isSome then history.read read else history
  | .beginFromLaunch read => history.launch.read read
  | .resume read => (history.read read).enter
  | .pause read => if history.intervals = [] then history else (history.read read).leave

end History

/-- The meaning of a run of calls. -/
def historyOf (calls : List MonitorCall) : History := calls.foldl History.call {}

/-- No sample has less for a process than an earlier one. -/
def Nondecreasing (samples : List Sample) : Prop :=
  samples.Pairwise fun earlier later => ∀ process v w,
    earlier.get process = some v → later.get process = some w → v ≤ w

/-- A launch comes before the first active interval. -/
def LaunchedFirst (calls : List MonitorCall) : Prop :=
  ∀ earlier read later, calls = earlier ++ .beginFromLaunch read :: later → (historyOf earlier).intervals = []

section LastValues

variable {samples others : List Sample} {sample : Sample} {process : Process} {v : Nat}

theorem lastValue_concat (samples : List Sample) (sample : Sample) (process : Process) :
    lastValue (samples ++ [sample]) process = (sample.get process).or (lastValue samples process) := by
  rw [lastValue, List.foldl_append]
  rfl

theorem lastValue_append (samples others : List Sample) (process : Process) :
    lastValue (samples ++ others) process = (lastValue others process).or (lastValue samples process) := by
  induction others using List.reverseRecOn with
  | nil => rw [List.append_nil, lastValue, lastValue, List.foldl_nil, Option.none_or]
  | append_singleton others sample ih =>
      rw [← List.append_assoc, lastValue_concat, lastValue_concat, ih, Option.or_assoc]

theorem exists_of_lastValue (last : lastValue samples process = some v) :
    ∃ sample ∈ samples, sample.get process = some v := by
  induction samples using List.reverseRecOn with
  | nil => cases last
  | append_singleton samples sample ih =>
      rw [lastValue_concat, Option.or_eq_some_iff] at last
      rcases last with here | ⟨-, before⟩
      · exact ⟨sample, by simp, here⟩
      · obtain ⟨other, member, is⟩ := ih before
        exact ⟨other, List.mem_append_left _ member, is⟩

theorem lastValue_eq_none (absent : ∀ sample ∈ samples, sample.get process = none) :
    lastValue samples process = none := by
  rw [Option.eq_none_iff_forall_ne_some]
  intro v last
  obtain ⟨sample, member, is⟩ := exists_of_lastValue last
  rw [absent sample member] at is
  cases is

/-- Of nondecreasing samples, later ones have no less. -/
theorem Nondecreasing.lastValue_le (ordered : Nondecreasing (samples ++ others)) {w : Nat}
    (early : lastValue samples process = some v) (late : lastValue others process = some w) : v ≤ w := by
  obtain ⟨earlier, before, is⟩ := exists_of_lastValue early
  obtain ⟨later, after, is'⟩ := exists_of_lastValue late
  exact (List.pairwise_append.mp ordered).2.2 earlier before later after process v w is is'

end LastValues

/-! ## What a sample adds -/

/-- What one process gained in a sample since its last value before. -/
def delta (samples : List Sample) (sample : Sample) (process : Process) : Nat :=
  (sample.get process).getD 0 - (lastValue samples process).getD 0

namespace Interval

variable {interval : Interval} {sample : Sample} {process : Process}

theorem spent_eq_zero (absent : process ∉ interval.processes) : interval.spent process = 0 := by
  have none : lastValue interval.inside process = none := by
    refine lastValue_eq_none fun sample member => ?_
    rw [processes, List.mem_toFinset, List.mem_flatMap, not_exists] at absent
    have outside := not_and.mp (absent sample) member
    rwa [OrderedMap.mem_keys, Option.not_isSome_iff_eq_none] at outside
  rw [spent, gain, none, Option.getD_none, Nat.zero_sub]

theorem spent_concat (ordered : Nondecreasing (interval.before ++ interval.inside ++ [sample])) (process : Process) :
    ({ interval with inside := interval.inside ++ [sample] } : Interval).spent process =
      interval.spent process + delta (interval.before ++ interval.inside) sample process := by
  have last := lastValue_concat interval.inside sample process
  have base := lastValue_append interval.before interval.inside process
  rw [spent, spent, gain, gain, delta, last, base]
  cases now : sample.get process with
  | none =>
      simp only [Option.none_or, Option.getD_none, Nat.zero_sub, Nat.add_zero]
  | some w =>
      cases inside : lastValue interval.inside process with
      | none => simp
      | some v =>
          have grows : v ≤ w := by
            have only : lastValue [sample] process = some w := by rw [lastValue]; simpa using now
            have whole := lastValue_append interval.before interval.inside process
            rw [inside, Option.some_or] at whole
            exact ordered.lastValue_le whole only
          have started : (lastValue interval.before process).getD 0 ≤ v := by
            cases before : lastValue interval.before process with
            | none => exact Nat.zero_le v
            | some b =>
                have earlier : Nondecreasing (interval.before ++ interval.inside) :=
                  (List.pairwise_append.mp ordered).1
                exact earlier.lastValue_le before inside
          simp only [Option.some_or, Option.getD_some]
          omega

/-- A sample adds to the cost what its processes gained in it. -/
theorem cost_concat (ordered : Nondecreasing (interval.before ++ interval.inside ++ [sample])) :
    ({ interval with inside := interval.inside ++ [sample] } : Interval).cost =
      interval.cost + ∑ process ∈ sample.keys.toFinset, delta (interval.before ++ interval.inside) sample process := by
  have processes : ({ interval with inside := interval.inside ++ [sample] } : Interval).processes =
      interval.processes ∪ sample.keys.toFinset := by
    rw [Interval.processes, Interval.processes, List.flatMap_append, List.toFinset_append]
    simp
  have idle : ∀ process ∉ sample.keys.toFinset,
      delta (interval.before ++ interval.inside) sample process = 0 := by
    intro process absent
    rw [List.mem_toFinset, OrderedMap.mem_keys, Option.not_isSome_iff_eq_none] at absent
    rw [delta, absent, Option.getD_none, Nat.zero_sub]
  rw [cost, processes, Finset.sum_congr rfl fun process _ => spent_concat ordered process,
    Finset.sum_add_distrib]
  congr 1
  · exact (Finset.sum_subset Finset.subset_union_left fun process _ absent => spent_eq_zero absent).symm
  · exact (Finset.sum_subset Finset.subset_union_right fun process _ absent => idle process absent).symm

end Interval

/-! ## The running total -/

namespace Accumulator

/-- The loop over a sample: without a decrease, it adds what every process gained. -/
theorem foldl_charge (entries : List (Process × Nat)) : ∀ {state : Accumulator},
    (∀ entry ∈ entries, (state.previous.get entry.1).getD 0 ≤ entry.2) → state.total ≤ u64Max →
    entries.foldl charge state =
      { state with
        total := saturatingAdd state.total
          (entries.map fun entry => entry.2 - (state.previous.get entry.1).getD 0).sum } := by
  induction entries with
  | nil =>
      intro state _ bounded
      rw [List.foldl_nil, List.map_nil, List.sum_nil, saturatingAdd, Nat.add_zero, Nat.min_eq_left bounded]
  | cons entry entries ih =>
      intro state grows bounded
      have first := grows entry List.mem_cons_self
      have charged : state.charge entry =
          { state with
            total := saturatingAdd state.total (entry.2 - (state.previous.get entry.1).getD 0) } := by
        rw [charge, if_pos first]
      have rest := @ih (state.charge entry)
        (by rw [charged]; exact fun later member => grows later (List.mem_cons_of_mem _ member))
        (by rw [charged]; exact Nat.min_le_right _ _)
      rw [List.foldl_cons, rest, charged]
      simp only [List.map_cons, List.sum_cons, saturatingAdd, Accumulator.mk.injEq, true_and, and_true]
      omega

end Accumulator

theorem entries_sum (sample : Sample) (before : Process → Nat) :
    (sample.entries.map fun entry => entry.2 - before entry.1).sum =
      ∑ process ∈ sample.keys.toFinset, ((sample.get process).getD 0 - before process) := by
  have distinct : sample.keys.Nodup :=
    List.pairwise_map.mpr (sample.ascending.imp fun less => less.ne)
  have values : sample.entries.map (fun entry => entry.2 - before entry.1) =
      sample.keys.map fun process => (sample.get process).getD 0 - before process := by
    rw [OrderedMap.keys, List.map_map]
    refine List.map_congr_left fun entry member => ?_
    rw [Function.comp_apply, OrderedMap.get_eq_some.mpr member, Option.getD_some]
  rw [values, List.sum_toFinset _ distinct]

/-- The accumulator holds what the history means. -/
structure Tracks (state : Accumulator) (history : History) : Prop where
  active : state.active = history.current.isSome
  started : state.started = false ↔ history.intervals = []
  previous : ∀ process, state.previous.get process = lastValue history.samples process
  total : state.total = min (history.intervals.map Interval.cost).sum u64Max
  lost : state.lost = history.missed
  /-- The open interval has all samples since it started. -/
  current : ∀ interval ∈ history.current, history.samples = interval.before ++ interval.inside
  /-- What closed intervals were charged for lies before the open one. -/
  settled : ∀ process, (history.closed.map fun interval => interval.spent process).sum ≤
    (lastValue (history.current.elim history.samples Interval.before) process).getD 0

namespace Tracks

variable {state : Accumulator} {history : History}

theorem initial : Tracks {} {} where
  active := rfl
  started := by simp [History.intervals]
  previous _ := rfl
  total := rfl
  lost := rfl
  current _ member := by cases member
  settled _ := Nat.le_refl _

/-- A value that follows others of its process is no less. -/
theorem last_le (tracks : Tracks state history) {sample : Sample} (ordered : Nondecreasing (history.samples ++ [sample]))
    {process : Process} {w : Nat} (now : sample.get process = some w) :
    (state.previous.get process).getD 0 ≤ w := by
  rw [tracks.previous]
  cases before : lastValue history.samples process with
  | none => exact Nat.zero_le w
  | some v =>
      have only : lastValue [sample] process = some w := by rw [lastValue]; simpa using now
      exact ordered.lastValue_le before only

theorem previous_extend (tracks : Tracks state history) (sample : Sample) (process : Process) :
    (state.previous.extend sample).get process = lastValue (history.samples ++ [sample]) process := by
  rw [OrderedMap.get_extend, tracks.previous, lastValue_concat]

/-- Outside an interval, a sample only moves the baselines. -/
theorem read_idle (tracks : Tracks state history) {sample : Sample} (idle : history.current = none)
    (ordered : Nondecreasing (history.samples ++ [sample])) :
    Tracks (state.sample (some sample)) (history.read (some sample)) := by
  have inactive : state.active = false := by rw [tracks.active, idle, Option.isSome_none]
  have sampled : state.sample (some sample) =
      { state with observed := true, previous := state.previous.extend sample } := by
    rw [Accumulator.sample]
    simp only [inactive, Bool.false_eq_true, if_false]
  have same : history.read (some sample) = { history with samples := history.samples ++ [sample] } := by
    simp only [History.read, idle, Option.map_none]
  have settled := tracks.settled
  rw [idle] at settled
  rw [sampled, same]
  refine ⟨tracks.active, tracks.started, tracks.previous_extend sample, tracks.total, tracks.lost, ?_, ?_⟩
  · intro interval member
    rw [idle] at member
    cases member
  · intro process
    refine Nat.le_trans (settled process) ?_
    dsimp only
    rw [idle, Option.elim_none, Option.elim_none, lastValue_concat]
    cases now : sample.get process with
    | none => exact Nat.le_refl _
    | some w =>
        have grows := tracks.last_le ordered now
        rwa [tracks.previous] at grows

/-- Inside an interval, a sample adds what its processes gained. -/
theorem read_busy (tracks : Tracks state history) {sample : Sample} {interval : Interval}
    (busy : history.current = some interval) (ordered : Nondecreasing (history.samples ++ [sample])) :
    Tracks (state.sample (some sample)) (history.read (some sample)) := by
  have active : state.active = true := by rw [tracks.active, busy, Option.isSome_some]
  have held := tracks.current interval busy
  have grows : ∀ entry ∈ sample.entries, (state.previous.get entry.1).getD 0 ≤ entry.2 := fun entry member =>
    tracks.last_le ordered (OrderedMap.get_eq_some.mpr member)
  have bounded : state.total ≤ u64Max := tracks.total ▸ Nat.min_le_right _ _
  have charged := @Accumulator.foldl_charge sample.entries { state with observed := true } grows bounded
  have gained : (sample.entries.map fun entry => entry.2 - (state.previous.get entry.1).getD 0).sum =
      ∑ process ∈ sample.keys.toFinset, delta history.samples sample process := by
    rw [entries_sum sample fun process => (state.previous.get process).getD 0]
    exact Finset.sum_congr rfl fun process _ => by rw [delta, tracks.previous]
  have cost := @Interval.cost_concat interval sample (held ▸ ordered)
  rw [← held, ← gained] at cost
  have sampled : state.sample (some sample) =
      { state with
        observed := true
        total := saturatingAdd state.total
          (sample.entries.map fun entry => entry.2 - (state.previous.get entry.1).getD 0).sum
        previous := state.previous.extend sample } := by
    rw [Accumulator.sample]
    simp only [if_pos active]
    rw [charged]
  have now : history.read (some sample) =
      { history with
        samples := history.samples ++ [sample]
        current := some { interval with inside := interval.inside ++ [sample] } } := by
    simp only [History.read, busy, Option.map_some]
  have total := tracks.total
  have settled := tracks.settled
  rw [sampled, now]
  refine ⟨active, ?_, tracks.previous_extend sample, ?_, tracks.lost, ?_, ?_⟩
  · have started := tracks.started
    simp only [History.intervals, busy, Option.toList_some] at started ⊢
    simpa using started
  · simp only [History.intervals, busy, Option.toList_some, List.map_append, List.map_cons, List.map_nil,
      List.sum_append, List.sum_cons, List.sum_nil, Nat.add_zero] at total ⊢
    rw [cost, saturatingAdd, total]
    omega
  · intro _ member
    cases member
    rw [held, List.append_assoc]
  · intro process
    have before := settled process
    rw [busy] at before
    exact before

theorem read (tracks : Tracks state history) {read : Option Sample}
    (ordered : Nondecreasing (history.read read).taken) : Tracks (state.sample read) (history.read read) := by
  cases read with
  | none =>
      exact ⟨tracks.active, tracks.started, tracks.previous, tracks.total, rfl, tracks.current, tracks.settled⟩
  | some sample =>
      have parts : Nondecreasing (history.forgotten ++ (history.samples ++ [sample])) := ordered
      have whole : Nondecreasing (history.samples ++ [sample]) := (List.pairwise_append.mp parts).2.1
      cases now : history.current with
      | none => exact tracks.read_idle now whole
      | some interval => exact tracks.read_busy now whole

theorem enter (tracks : Tracks state history) :
    Tracks { state with active := true, started := true } history.enter := by
  cases now : history.current with
  | none =>
      have same : history.enter =
          { history with current := some ⟨false, history.forgotten, history.samples, []⟩ } := by
        rw [History.enter, now, Option.getD_none]
      have total := tracks.total
      have settled := tracks.settled
      have empty : Interval.cost ⟨false, history.forgotten, history.samples, []⟩ = 0 := rfl
      rw [now] at settled
      rw [same]
      refine ⟨rfl, by simp [History.intervals], tracks.previous, ?_, tracks.lost, ?_, settled⟩
      · simpa [History.intervals, now, empty] using total
      · intro _ member
        cases member
        rw [List.append_nil]
  | some interval =>
      have same : history.enter = history := by
        rw [History.enter, now, Option.getD_some, ← now]
      rw [same]
      refine ⟨by rw [now]; rfl, by simp [History.intervals, now], tracks.previous, tracks.total, tracks.lost,
        tracks.current, tracks.settled⟩

/-- What a process was charged for in all intervals is no more than its last value. -/
theorem charged_le (tracks : Tracks state history) (ordered : Nondecreasing history.samples) (process : Process) :
    (history.intervals.map fun interval => interval.spent process).sum ≤
      (lastValue history.samples process).getD 0 := by
  have settled := tracks.settled process
  cases now : history.current with
  | none =>
      rw [now] at settled
      simpa [History.intervals, now] using settled
  | some interval =>
      have held := tracks.current interval now
      rw [now, Option.elim_some] at settled
      rw [held] at ordered
      rw [History.intervals, now, Option.toList_some, List.map_append, List.sum_append, List.map_cons, List.map_nil,
        List.sum_cons, List.sum_nil, Nat.add_zero, held, lastValue_append, Interval.spent, Interval.gain]
      cases inside : lastValue interval.inside process with
      | none =>
          simpa using settled
      | some v =>
          have below : (lastValue interval.before process).getD 0 ≤ v := by
            cases before : lastValue interval.before process with
            | none => exact Nat.zero_le v
            | some b => exact ordered.lastValue_le before inside
          simp only [Option.some_or, Option.getD_some]
          omega

theorem leave (tracks : Tracks state history) (ordered : Nondecreasing history.samples) :
    Tracks { state with active := false } history.leave where
  active := rfl
  started := by simpa [History.leave, History.intervals] using tracks.started
  previous := tracks.previous
  total := by simpa [History.leave, History.intervals] using tracks.total
  lost := tracks.lost
  current _ member := by cases member
  settled := tracks.charged_le ordered

theorem launch (tracks : Tracks state history) (first : history.intervals = []) :
    Tracks { state with previous := ∅, active := true, started := true } history.launch := by
  obtain ⟨closed, current⟩ := List.append_eq_nil_iff.mp first
  rw [Option.toList_eq_nil_iff] at current
  have same : history.launch =
      { history with
        closed := [], forgotten := history.taken, samples := []
        current := some ⟨true, history.taken, [], []⟩ } := by
    rw [History.launch, current, closed, Option.getD_none]
  have total := tracks.total
  have empty : Interval.cost ⟨true, history.taken, [], []⟩ = 0 := rfl
  rw [first] at total
  rw [same]
  refine ⟨rfl, by simp [History.intervals], fun _ => rfl, ?_, tracks.lost, ?_, fun _ => Nat.zero_le _⟩
  · simpa [History.intervals, empty] using total
  · intro _ member
    cases member
    rfl

end Tracks

/-! ## Runs -/

namespace History

theorem taken_read (history : History) (read : Option Sample) :
    (history.read read).taken = history.taken ++ read.toList := by
  cases read with
  | none => exact (List.append_nil _).symm
  | some sample => exact (List.append_assoc history.forgotten history.samples [sample]).symm

theorem taken_launch (history : History) : history.launch.taken = history.taken := List.append_nil _

/-- A call only adds samples. -/
theorem taken_call (history : History) (call : MonitorCall) :
    ∃ more, (history.call call).taken = history.taken ++ more := by
  cases call with
  | sample read => exact ⟨_, history.taken_read read⟩
  | tick read =>
      rw [History.call]
      split
      · exact ⟨_, history.taken_read read⟩
      · exact ⟨[], (List.append_nil _).symm⟩
  | beginFromLaunch read =>
      refine ⟨read.toList, ?_⟩
      rw [History.call, taken_read, taken_launch]
  | resume read => exact ⟨_, history.taken_read read⟩
  | pause read =>
      rw [History.call]
      split
      · exact ⟨[], (List.append_nil _).symm⟩
      · exact ⟨_, history.taken_read read⟩

end History

theorem Nondecreasing.of_append {samples others : List Sample} (ordered : Nondecreasing (samples ++ others)) :
    Nondecreasing samples := (List.pairwise_append.mp ordered).1

/-- One call keeps the accumulator on the history. -/
theorem Tracks.call {state : Accumulator} {history : History} (tracks : Tracks state history) (call : MonitorCall)
    (first : ∀ read, call = .beginFromLaunch read → history.intervals = [])
    (ordered : Nondecreasing (history.call call).taken) : Tracks (state.call call) (history.call call) := by
  cases call with
  | sample read => exact tracks.read ordered
  | tick read =>
      rw [History.call] at ordered ⊢
      rw [Accumulator.call, Accumulator.tick, tracks.active]
      split at ordered
      · rename_i busy
        rw [if_pos busy, if_pos busy]
        exact tracks.read ordered
      · rename_i idle
        rw [if_neg idle, if_neg idle]
        exact tracks
  | beginFromLaunch read => exact (tracks.launch (first read rfl)).read ordered
  | resume read => exact (tracks.read ordered).enter
  | pause read =>
      rw [History.call] at ordered ⊢
      rw [Accumulator.call, Accumulator.pause]
      have started := tracks.started
      by_cases none : history.intervals = []
      · rw [if_pos none, started.mpr none]
        exact tracks
      · rw [if_neg none] at ordered ⊢
        have begun : state.started = true := by simpa using mt started.mp none
        simp only [begun, not_true_eq_false, if_false]
        have parts : Nondecreasing ((history.read read).forgotten ++ (history.read read).samples) := ordered
        exact (tracks.read ordered).leave (List.pairwise_append.mp parts).2.1

theorem LaunchedFirst.of_append {calls later : List MonitorCall} (launched : LaunchedFirst (calls ++ later)) :
    LaunchedFirst calls := by
  intro earlier read rest is
  exact launched earlier read (rest ++ later) (by rw [is, List.append_assoc, List.cons_append])

theorem historyOf_concat (calls : List MonitorCall) (call : MonitorCall) :
    historyOf (calls ++ [call]) = (historyOf calls).call call := by
  rw [historyOf, List.foldl_append]
  rfl

theorem run_tracks (calls : List MonitorCall) : LaunchedFirst calls → Nondecreasing (historyOf calls).taken →
    Tracks (Accumulator.run calls) (historyOf calls) := by
  induction calls using List.reverseRecOn with
  | nil => exact fun _ _ => Tracks.initial
  | append_singleton calls call ih =>
      intro launched ordered
      rw [historyOf_concat] at ordered ⊢
      obtain ⟨more, grown⟩ := (historyOf calls).taken_call call
      have before := ih launched.of_append (grown ▸ ordered).of_append
      have first : ∀ read, call = .beginFromLaunch read → (historyOf calls).intervals = [] := by
        rintro read rfl
        exact launched calls read [] rfl
      rw [Accumulator.run, List.foldl_append]
      exact before.call call first ordered

/-! ## Where an interval starts -/

/-- What is fixed when an interval starts. -/
def Interval.start (interval : Interval) : Bool × List Sample × List Sample :=
  (interval.fromLaunch, interval.forgotten, interval.before)

namespace History

theorem starts_read (history : History) (read : Option Sample) :
    (history.read read).intervals.map Interval.start = history.intervals.map Interval.start := by
  cases read with
  | none => rfl
  | some sample =>
      cases now : history.current with
      | none => simp [History.read, intervals, now]
      | some interval => simp [History.read, intervals, now, Interval.start]

theorem starts_enter (history : History) :
    history.intervals.map Interval.start <+: history.enter.intervals.map Interval.start := by
  cases now : history.current with
  | none => simp [enter, intervals, now]
  | some interval => simp [enter, intervals, now]

theorem starts_launch (history : History) :
    history.intervals.map Interval.start <+: history.launch.intervals.map Interval.start := by
  cases now : history.current with
  | none => simp [launch, intervals, now]
  | some interval => simp [launch, intervals, now]

theorem starts_leave (history : History) :
    history.leave.intervals.map Interval.start = history.intervals.map Interval.start := by
  rw [leave, intervals, Option.toList_none, List.append_nil]

/-- A call leaves the starts of the intervals so far. -/
theorem starts_call (history : History) (call : MonitorCall) :
    history.intervals.map Interval.start <+: (history.call call).intervals.map Interval.start := by
  cases call with
  | sample read => rw [History.call, starts_read]
  | tick read =>
      rw [History.call]
      split
      · rw [starts_read]
      · exact List.prefix_rfl
  | beginFromLaunch read =>
      rw [History.call, starts_read]
      exact history.starts_launch
  | resume read =>
      have opened := (history.read read).starts_enter
      rwa [starts_read] at opened
  | pause read =>
      rw [History.call]
      split
      · exact List.prefix_rfl
      · rw [starts_leave, starts_read]

theorem starts_calls (later : List MonitorCall) : ∀ history : History,
    history.intervals.map Interval.start <+: (later.foldl History.call history).intervals.map Interval.start := by
  induction later with
  | nil => exact fun _ => List.prefix_rfl
  | cons call later ih => exact fun history => (history.starts_call call).trans (ih _)

end History

/-- A resume outside an interval opens the next one right after its sample. -/
theorem resumed (earlier later : List MonitorCall) (read : Option Sample)
    (idle : (historyOf earlier).current = none) :
    ∃ interval, (historyOf (earlier ++ .resume read :: later)).intervals[(historyOf earlier).intervals.length]? =
      some interval ∧ interval.before = (historyOf earlier).samples ++ read.toList := by
  have opened : ((historyOf earlier).call (.resume read)).intervals.map Interval.start =
      (historyOf earlier).intervals.map Interval.start ++
        [(false, (historyOf earlier).forgotten, (historyOf earlier).samples ++ read.toList)] := by
    cases read with
    | none => simp [History.call, History.read, History.enter, History.intervals, Interval.start, idle]
    | some sample => simp [History.call, History.read, History.enter, History.intervals, Interval.start, idle]
  have kept := History.starts_calls later ((historyOf earlier).call (.resume read))
  have whole : historyOf (earlier ++ .resume read :: later) =
      later.foldl History.call ((historyOf earlier).call (.resume read)) := by
    rw [historyOf, List.foldl_append]
    rfl
  rw [← whole, opened] at kept
  obtain ⟨rest, same⟩ := kept
  have at' := congrArg (fun starts => starts[(historyOf earlier).intervals.length]?) same
  simp only [List.append_assoc, List.getElem?_map] at at'
  rw [List.getElem?_append_right (by simp)] at at'
  simp only [List.length_map, Nat.sub_self, List.cons_append, List.nil_append, List.getElem?_cons_zero] at at'
  obtain ⟨interval, found, start⟩ := Option.map_eq_some_iff.mp at'.symm
  exact ⟨interval, found, congrArg (fun start => start.2.2) start⟩

/-! ## Main result -/

/-- The total is what the processes gained over the active intervals, each from its last value before
the interval (samples that a launch made void do not count), up to the largest value.  No process is
charged for more than its last value; after a resume that sampled a process, its baseline is that
sample; and a value is lost only with a failed sample. -/
theorem run_total (calls : List MonitorCall) (launched : LaunchedFirst calls)
    (ordered : Nondecreasing (historyOf calls).taken) :
    (Accumulator.run calls).total = min ((historyOf calls).intervals.map Interval.cost).sum u64Max ∧
    (∀ process, ((historyOf calls).intervals.map fun interval => interval.spent process).sum ≤
      (lastValue (historyOf calls).taken process).getD 0) ∧
    (∀ earlier sample later, calls = earlier ++ .resume (some sample) :: later →
      (historyOf earlier).current = none →
      ∃ interval, (historyOf calls).intervals[(historyOf earlier).intervals.length]? = some interval ∧
        ∀ process v, sample.get process = some v → interval.spent process = interval.gain v process) ∧
    (Accumulator.run calls).lost = (historyOf calls).missed := by
  have tracks := run_tracks calls launched ordered
  refine ⟨tracks.total, ?_, ?_, tracks.lost⟩
  · intro process
    have parts : Nondecreasing ((historyOf calls).forgotten ++ (historyOf calls).samples) := ordered
    have charged := tracks.charged_le (List.pairwise_append.mp parts).2.1 process
    refine Nat.le_trans charged ?_
    rw [History.taken, lastValue_append]
    cases lastValue (historyOf calls).samples process with
    | none => exact Nat.zero_le _
    | some v => exact Nat.le_refl v
  · rintro earlier sample later rfl idle
    obtain ⟨interval, found, before⟩ := resumed earlier later (some sample) idle
    refine ⟨interval, found, fun process v is => ?_⟩
    rw [Interval.spent, before, Option.toList_some, lastValue_concat, is, Option.some_or, Option.getD_some]

/-- A tree of one process. -/
def loneProcess (cpu : Nat) : Sample := (∅ : Sample).insert (toLex (1, 10)) cpu

theorem loneProcess_ordered {cpu cpu' : Nat} (grows : cpu ≤ cpu') :
    Nondecreasing [loneProcess cpu, loneProcess cpu'] := by
  refine List.pairwise_pair.mpr fun process v w early late => ?_
  rw [loneProcess, OrderedMap.get_insert] at early late
  split at early
  · rename_i same
    rw [if_pos same] at late
    cases early
    cases late
    exact grows
  · cases early

theorem run_total_sample :
    (Accumulator.run [.sample (some (loneProcess 100)), .resume none, .pause (some (loneProcess 120))]).total = 20 ∧
    (Accumulator.run [.sample (some (loneProcess 100)), .resume none, .pause (some (loneProcess 120))]).lost = true := by
  have launched : LaunchedFirst
      [.sample (some (loneProcess 100)), .resume none, .pause (some (loneProcess 120))] := by
    intro earlier read later is
    have member : MonitorCall.beginFromLaunch read ∈
        [.sample (some (loneProcess 100)), .resume none, .pause (some (loneProcess 120))] := by
      rw [is]
      simp
    simp at member
  obtain ⟨total, -, -, lost⟩ := run_total
    [.sample (some (loneProcess 100)), .resume none, .pause (some (loneProcess 120))] launched
    (loneProcess_ordered (by decide))
  exact ⟨total.trans (by decide), lost.trans (by decide)⟩

/-- A process sampled before a launch, missed at it and found again in a later interval, is charged
from zero. -/
theorem total_ne_since_any :
    ¬ ∀ calls : List MonitorCall, LaunchedFirst calls → Nondecreasing (historyOf calls).taken →
      (Accumulator.run calls).total =
        min ((historyOf calls).intervals.map Interval.costSinceAny).sum u64Max := by
  intro all
  have launched : LaunchedFirst [.sample (some (loneProcess 100)), .beginFromLaunch none, .pause none, .resume none,
      .sample (some (loneProcess 150))] := by
    intro earlier read later is
    match earlier, is with
    | [], is => cases is
    | [_], is =>
        cases is
        rfl
    | [_, _], is => cases is
    | [_, _, _], is => cases is
    | [_, _, _, _], is => cases is
    | _ :: _ :: _ :: _ :: _ :: [], is => cases is
  have same := all _ launched (loneProcess_ordered (by decide))
  exact absurd same (by decide)

end Metewand.Worker
