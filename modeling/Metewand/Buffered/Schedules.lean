import Metewand.Buffered.Documents
import Metewand.Core.Policies
import Mathlib.Order.Bounds.Basic

/-!
# Check schedules, read and enumerated

`CheckSchedule` as it is read from a document, with the geometric form that expands into
explicit indices, and its counterpart of the Python adapter (`_schedules.py`).

`nextAfter` is the least eligible index (`nextAfter_eq_some`, `nextAfter_eq_none`), so
following it from the start walks through all of them (`walk_eq`).
-/

namespace Metewand

open Lib Lib.Check

namespace CheckSchedule

/-! ## Reading -/

def readIndices (v : Json) : Option (List Nat) := v.asArray?.bind (·.mapM (Json.asUnsigned? 64))

/-- No member has another key. -/
def onlyKeys (keys : List String) (members : List (String × Json)) : Bool :=
  members.all fun m => keys.contains m.1

/-- A 64-bit member, or its default when it is missing. -/
def readDefault {α : Type} (read : Json → Option α) (default : α) : Option Json → Option α
  | none => some default
  | some v => read v

def readPeriodic (members : List (String × Json)) : Option CheckSchedule :=
  if onlyKeys ["every", "start"] members then do
    let every ← (Json.lookupMember "every" members).bind (Json.asUnsigned? 64)
    let start ← readDefault (Json.asUnsigned? 64) 0 (Json.lookupMember "start" members)
    return .periodic every start
  else none

def readExplicit (members : List (String × Json)) : Option CheckSchedule :=
  if onlyKeys ["indices"] members then
    ((Json.lookupMember "indices" members).bind readIndices).map .explicit
  else none

/-- The geometric form as it is declared. -/
structure Generated where
  start : Nat
  ratio : Nat
  count : Nat
  leading : List Nat

/-- The unit variant `geometric`, as text or as an object holding `null`. -/
def isGeometric : Json → Bool
  | .str name => name = "geometric"
  | .obj [(name, .null)] => name = "geometric"
  | _ => false

/-- The declared form from its members. -/
def Generated.read (kind start ratio count leading : Option Json) : Option Generated := do
  let _ ← kind.filter isGeometric
  return {
    start := ← start.bind (Json.asUnsigned? 64)
    ratio := ← ratio.bind (Json.asUnsigned? 64)
    count := ← count.bind (Json.asUnsigned? 64)
    leading := ← readDefault readIndices [] leading }

def readGenerated (members : List (String × Json)) : Option Generated :=
  if onlyKeys ["kind", "start", "ratio", "count", "prefix"] members then
    Generated.read (Json.lookupMember "kind" members) (Json.lookupMember "start" members)
      (Json.lookupMember "ratio" members) (Json.lookupMember "count" members)
      (Json.lookupMember "prefix" members)
  else none

namespace Generated

/-- The loop over the generated indices; the product after the last one is not taken. -/
def push (ratio : Nat) : Nat → Nat → List Nat → Except String (List Nat)
  | 0, _, indices => .ok indices
  | remaining + 1, value, indices =>
      if maxSafeInteger < value then .error "checkpoint indices must be safe integers"
      else if remaining = 0 then .ok (indices ++ [value])
      else
        match checkedU64 (value * ratio) with
        | none => .error "checkpoint arithmetic overflow"
        | some next => push ratio remaining next (indices ++ [value])

def expand (raw : Generated) : Except String CheckSchedule := do
  reject (raw.count = 0 ∨ maxSafeInteger < raw.count ∨ raw.start = 0 ∨ raw.ratio < 2 ∨
      maxSafeInteger < raw.ratio)
    "geometric checkpoints require positive start and count, and an integer ratio of at least two"
  let indices ← push raw.ratio raw.count raw.start raw.leading
  let schedule := CheckSchedule.explicit indices
  schedule.validate
  return schedule

end Generated

/-- `CheckSchedule::deserialize`: the first of the three forms that fits. -/
def deserialize : Json → Except String CheckSchedule
  | .obj members =>
      match readPeriodic members, readExplicit members, readGenerated members with
      | some schedule, _, _ | none, some schedule, _ => .ok schedule
      | none, none, some raw => raw.expand
      | none, none, none => .error "data did not match any variant of untagged enum Raw"
  | _ => .error "data did not match any variant of untagged enum Raw"

/-! ## The next check -/

/-- What may be checked after `previous`. -/
def Eligible (schedule : CheckSchedule) (previous : Option Nat) (index : Nat) : Prop :=
  schedule.includes index ∧ After previous index ∧ index ≤ maxSafeInteger

theorem nextAfter_eq_none {schedule : CheckSchedule} {previous : Option Nat}
    (valid : schedule.valid = true) (safe : ∀ p ∈ previous, p ≤ maxSafeInteger) :
    schedule.nextAfter previous = none ↔ ¬ ∃ i, schedule.Eligible previous i := by
  constructor
  · intro missing ⟨i, included, after, small⟩
    exact absurd small (Nat.not_le.mpr (nextAfter_none valid safe missing i included after))
  · intro absent
    cases found : schedule.nextAfter previous with
    | none => rfl
    | some next =>
        obtain ⟨included, small, after, -⟩ := nextAfter_some valid safe found
        exact absurd ⟨next, included, after, small⟩ absent

theorem nextAfter_eq_some {schedule : CheckSchedule} {previous : Option Nat}
    (valid : schedule.valid = true) (safe : ∀ p ∈ previous, p ≤ maxSafeInteger) {next : Nat} :
    schedule.nextAfter previous = some next ↔ IsLeast {i | schedule.Eligible previous i} next := by
  constructor
  · intro found
    obtain ⟨included, small, after, least⟩ := nextAfter_some valid safe found
    exact ⟨⟨included, after, small⟩, fun i eligible => least i eligible.1 eligible.2.1⟩
  · intro ⟨eligible, least⟩
    cases found : schedule.nextAfter previous with
    | none => exact absurd ⟨next, eligible⟩ ((nextAfter_eq_none valid safe).mp found)
    | some other =>
        obtain ⟨included, small, after, least'⟩ := nextAfter_some valid safe found
        have left : next ≤ other := least ⟨included, after, small⟩
        have right : other ≤ next := least' next eligible.1 eligible.2.1
        rw [Nat.le_antisymm left right]

/-! ## Enumeration -/

/-- The indices met by following `nextAfter` at most `n` times. -/
def walk (schedule : CheckSchedule) : Nat → Option Nat → List Nat
  | 0, _ => []
  | n + 1, previous =>
      match schedule.nextAfter previous with
      | none => []
      | some next => next :: schedule.walk n (some next)

instance (previous : Option Nat) (index : Nat) : Decidable (After previous index) :=
  match previous with
  | none => isTrue fun _ absent => by cases absent
  | some p => decidable_of_iff (p < index) ⟨fun less _ same => by cases same; exact less, fun h => h p rfl⟩

/-- All included safe indices after `previous`, in ascending order. -/
def safeIndices (schedule : CheckSchedule) (previous : Option Nat) : List Nat :=
  (List.range (maxSafeInteger + 1)).filter fun i => schedule.includes i && decide (After previous i)

theorem mem_safeIndices {schedule : CheckSchedule} {previous : Option Nat} {i : Nat} :
    i ∈ schedule.safeIndices previous ↔ schedule.Eligible previous i := by
  rw [safeIndices, List.mem_filter, List.mem_range, Bool.and_eq_true, decide_eq_true_eq,
    Nat.lt_succ_iff]
  exact ⟨fun ⟨small, included, after⟩ => ⟨included, after, small⟩,
    fun ⟨included, after, small⟩ => ⟨small, included, after⟩⟩

theorem safeIndices_ascending (schedule : CheckSchedule) (previous : Option Nat) :
    (schedule.safeIndices previous).Pairwise (· < ·) := List.pairwise_lt_range.filter _

/-- After the first index the later ones remain. -/
theorem safeIndices_cons {schedule : CheckSchedule} {previous : Option Nat} {next : Nat}
    (least : IsLeast {i | schedule.Eligible previous i} next) :
    schedule.safeIndices previous = next :: schedule.safeIndices (some next) := by
  have ascending : (next :: schedule.safeIndices (some next)).Pairwise (· < ·) :=
    List.pairwise_cons.mpr ⟨fun i member => (mem_safeIndices.mp member).2.1 next rfl,
      schedule.safeIndices_ascending _⟩
  have members : ∀ i, i ∈ schedule.safeIndices previous ↔ i ∈ next :: schedule.safeIndices (some next) := by
    intro i
    rw [List.mem_cons, mem_safeIndices, mem_safeIndices]
    constructor
    · intro eligible
      rcases Nat.eq_or_lt_of_le (least.2 eligible) with same | later
      · exact .inl same.symm
      · exact .inr ⟨eligible.1, fun p same => by cases same; exact later, eligible.2.2⟩
    · rintro (rfl | ⟨included, after, small⟩)
      · exact least.1
      · refine ⟨included, fun p same => ?_, small⟩
        exact Nat.lt_trans (least.1.2.1 p same) (after next rfl)
  have before := schedule.safeIndices_ascending previous
  have perm : (schedule.safeIndices previous).Perm (next :: schedule.safeIndices (some next)) :=
    (List.perm_ext_iff_of_nodup (before.imp Nat.ne_of_lt) (ascending.imp Nat.ne_of_lt)).mpr members
  exact perm.eq_of_pairwise (fun _ _ _ _ less more => absurd more (Nat.lt_asymm less)) before ascending

/-- Following `nextAfter` visits the included indices one by one. -/
theorem walk_eq {schedule : CheckSchedule} (valid : schedule.valid = true) (n : Nat) {previous : Option Nat}
    (safe : ∀ p ∈ previous, p ≤ maxSafeInteger) :
    schedule.walk n previous = (schedule.safeIndices previous).take n := by
  induction n generalizing previous with
  | zero => rfl
  | succ n ih =>
      unfold walk
      cases found : schedule.nextAfter previous with
      | none =>
          have empty : schedule.safeIndices previous = [] := by
            refine List.eq_nil_iff_forall_not_mem.mpr fun i member => ?_
            exact (nextAfter_eq_none valid safe).mp found ⟨i, mem_safeIndices.mp member⟩
          rw [empty]
          rfl
      | some next =>
          have least := (nextAfter_eq_some valid safe).mp found
          rw [safeIndices_cons least, List.take_succ_cons]
          exact congrArg _ (ih fun p same => by cases same; exact least.1.2.2)

/-! ## The geometric form -/

/-- The indices a geometric declaration stands for. -/
def Generated.indices (raw : Generated) : List Nat :=
  raw.leading ++ (List.range raw.count).map fun k => raw.start * raw.ratio ^ k

/-- In range, and every index safe and above the one before. -/
structure Generated.Expands (raw : Generated) : Prop where
  count : 0 < raw.count ∧ raw.count ≤ maxSafeInteger
  start : 0 < raw.start
  ratio : 2 ≤ raw.ratio ∧ raw.ratio ≤ maxSafeInteger
  safe : ∀ i ∈ raw.indices, i ≤ maxSafeInteger
  increasing : raw.indices.Pairwise (· < ·)

theorem push_eq_ok {ratio count value : Nat} {indices result : List Nat} :
    Generated.push ratio count value indices = .ok result ↔
      (∀ k < count, value * ratio ^ k ≤ maxSafeInteger) ∧
        result = indices ++ (List.range count).map fun k => value * ratio ^ k := by
  induction count generalizing value indices with
  | zero => simp [Generated.push, eq_comm]
  | succ remaining ih =>
      unfold Generated.push
      split
      · rename_i unsafe_
        refine iff_of_false (by simp) fun ⟨safe, _⟩ => ?_
        have first := safe 0 (Nat.succ_pos _)
        rw [Nat.pow_zero, Nat.mul_one] at first
        omega
      · rename_i small
        have tail : (List.range (remaining + 1)).map (fun k => value * ratio ^ k) =
            value :: (List.range remaining).map fun k => value * ratio * ratio ^ k := by
          rw [List.range_succ_eq_map, List.map_cons, List.map_map, Nat.pow_zero, Nat.mul_one]
          refine congrArg _ (List.map_congr_left fun k _ => ?_)
          simp only [Function.comp, Nat.pow_succ, Nat.mul_comm (ratio ^ k), Nat.mul_assoc]
        have shift : (∀ k < remaining + 1, value * ratio ^ k ≤ maxSafeInteger) ↔
            ∀ k < remaining, value * ratio * ratio ^ k ≤ maxSafeInteger := by
          constructor
          · intro safe k below
            rw [Nat.mul_assoc, ← Nat.pow_succ']
            exact safe (k + 1) (by omega)
          · intro safe k below
            cases k with
            | zero => simpa using small
            | succ k =>
                rw [Nat.pow_succ', ← Nat.mul_assoc]
                exact safe k (by omega)
        rw [shift, tail]
        split
        · rename_i last
          subst last
          simp [eq_comm]
        · rename_i more
          unfold checkedU64
          split
          · rename_i overflow
            refine iff_of_false (by simp) fun ⟨safe, _⟩ => ?_
            have next := safe 0 (Nat.pos_of_ne_zero more)
            have limit : maxSafeInteger < 2 ^ 64 := by decide
            split at overflow
            · cases overflow
            · rw [Nat.pow_zero, Nat.mul_one] at next
              omega
          · rename_i next taken
            split at taken
            · cases taken
              rw [ih, List.append_assoc]
              rfl
            · cases taken

theorem pairwise_increasing {indices : List Nat} :
    increasing indices = true ↔ indices.Pairwise (· < ·) := by
  refine ⟨increasing_pairwise, fun ascending => ?_⟩
  induction indices with
  | nil => rfl
  | cons a rest ih =>
      obtain ⟨first, others⟩ := List.pairwise_cons.mp ascending
      cases rest with
      | nil => rfl
      | cons b rest =>
          simp only [increasing, Bool.and_eq_true, decide_eq_true_eq]
          exact ⟨first b List.mem_cons_self, ih others⟩

theorem validate_explicit {indices : List Nat} {u : Unit} :
    (explicit indices).validate = .ok u ↔
      indices ≠ [] ∧ (∀ i ∈ indices, i ≤ maxSafeInteger) ∧ indices.Pairwise (· < ·) := by
  unfold validate
  rw [ok_reject, Bool.not_eq_false]
  simp [valid, pairwise_increasing, and_assoc]

/-- A geometric form expands exactly when it stands for safe increasing indices. -/
theorem expand_eq_ok {raw : Generated} {schedule : CheckSchedule} :
    raw.expand = .ok schedule ↔ raw.Expands ∧ schedule = .explicit raw.indices := by
  simp only [Generated.expand, ok_bind, ok_reject, ok_pure, not_or, push_eq_ok, validate_explicit,
    Nat.not_lt]
  constructor
  · rintro ⟨_, ⟨count, most, start, two, ratio⟩, _, ⟨-, rfl⟩, _, ⟨-, safe, increasing⟩, rfl⟩
    exact ⟨⟨⟨Nat.pos_of_ne_zero count, most⟩, Nat.pos_of_ne_zero start, ⟨two, ratio⟩, safe, increasing⟩, rfl⟩
  · rintro ⟨expands, rfl⟩
    obtain ⟨⟨count, most⟩, start, ⟨two, ratio⟩, safe, increasing⟩ := expands
    refine ⟨(), ⟨Nat.ne_of_gt count, most, Nat.ne_of_gt start, two, ratio⟩, raw.indices, ⟨?_, rfl⟩, (),
      ⟨?_, safe, increasing⟩, rfl⟩
    · intro k below
      exact safe _ (List.mem_append_right _ (List.mem_map_of_mem (List.mem_range.mpr below)))
    · refine List.append_ne_nil_of_right_ne_nil _ fun empty => ?_
      rw [List.map_eq_nil_iff, List.range_eq_nil] at empty
      omega

/-- An object declares the geometric form with these values. -/
structure DeclaresGeometric (m : OrderedMap String Json) (start ratio count : Nat)
    (leading : Option (List Nat)) : Prop where
  kind : m.get "kind" = some (.str "geometric")
  start : m.get "start" = some (.nat start)
  ratio : m.get "ratio" = some (.nat ratio)
  count : m.get "count" = some (.nat count)
  leading : m.get "prefix" = leading.map fun indices => .arr (indices.map .nat)
  only : ∀ key ∈ m.keys, key ∈ ["kind", "start", "ratio", "count", "prefix"]

theorem lookup_entries (m : OrderedMap String Json) (key : String) :
    Json.lookupMember key m.entries = m.get key := by
  unfold OrderedMap.get
  induction m.entries with
  | nil => rfl
  | cons entry rest ih =>
      simp only [Json.lookupMember, lookupEntry, ih]

theorem onlyKeys_entries {m : OrderedMap String Json} {keys : List String} :
    onlyKeys keys m.entries = true ↔ ∀ key ∈ m.keys, key ∈ keys := by
  simp [onlyKeys, OrderedMap.keys]

theorem asUnsigned_nat {n m : Nat} :
    (Json.nat n).asUnsigned? 64 = some m ↔ n < 2 ^ 64 ∧ m = n := by
  simp only [Json.asUnsigned?, Json.nat]
  by_cases small : n < 2 ^ 64
  · have cast : (0 : Int) ≤ (n : Int) ∧ (n : Int) < 2 ^ 64 := by omega
    rw [if_pos cast, Option.some.injEq, Int.toNat_natCast]
    constructor
    · intro same
      exact ⟨small, same.symm⟩
    · rintro ⟨-, same⟩
      exact same.symm
  · rw [if_neg (by omega)]
    constructor
    · intro impossible
      cases impossible
    · rintro ⟨less, -⟩
      exact absurd less small

theorem readIndices_nat {indices result : List Nat} :
    readIndices (.arr (indices.map .nat)) = some result ↔
      (∀ i ∈ indices, i < 2 ^ 64) ∧ result = indices := by
  have each : ∀ indices result : List Nat, (indices.map Json.nat).mapM (Json.asUnsigned? 64) = some result ↔
      (∀ i ∈ indices, i < 2 ^ 64) ∧ result = indices := by
    intro indices
    induction indices with
    | nil => simp [eq_comm]
    | cons i rest ih =>
        intro result
        simp only [List.map_cons, List.mapM_cons, Option.bind_eq_bind, Option.bind_eq_some_iff,
          asUnsigned_nat, ih, Option.pure_def, Option.some.injEq, List.forall_mem_cons]
        constructor
        · rintro ⟨_, ⟨small, rfl⟩, _, ⟨others, rfl⟩, rfl⟩
          exact ⟨⟨small, others⟩, rfl⟩
        · rintro ⟨⟨small, others⟩, rfl⟩
          exact ⟨i, ⟨small, rfl⟩, rest, ⟨others, rfl⟩, rfl⟩
  exact each indices result

theorem read_eq_some {start ratio count : Nat} {leading : Option (List Nat)} {raw : Generated} :
    Generated.read (some (.str "geometric")) (some (.nat start)) (some (.nat ratio))
        (some (.nat count)) (leading.map fun indices => .arr (indices.map .nat)) = some raw ↔
      (start < 2 ^ 64 ∧ ratio < 2 ^ 64 ∧ count < 2 ^ 64 ∧ ∀ i ∈ leading.getD [], i < 2 ^ 64) ∧
        raw = ⟨start, ratio, count, leading.getD []⟩ := by
  have kind : (some (Json.str "geometric")).filter isGeometric = some (.str "geometric") := by
    simp [Option.filter, isGeometric]
  have prefix_ : ∀ result, readDefault readIndices [] (leading.map fun indices => .arr (indices.map .nat)) =
      some result ↔ (∀ i ∈ leading.getD [], i < 2 ^ 64) ∧ result = leading.getD [] := by
    intro result
    cases leading with
    | none => simp [readDefault, eq_comm]
    | some indices => exact readIndices_nat
  unfold Generated.read
  rw [kind]
  simp only [Option.bind_eq_bind, Option.bind_eq_some_iff, Option.some.injEq, exists_eq_left',
    asUnsigned_nat, prefix_, Option.pure_def]
  constructor
  · rintro ⟨_, ⟨start, rfl⟩, _, ⟨ratio, rfl⟩, _, ⟨count, rfl⟩, _, ⟨each, rfl⟩, rfl⟩
    exact ⟨⟨start, ratio, count, each⟩, rfl⟩
  · rintro ⟨⟨start, ratio, count, each⟩, rfl⟩
    exact ⟨_, ⟨start, rfl⟩, _, ⟨ratio, rfl⟩, _, ⟨count, rfl⟩, _, ⟨each, rfl⟩, rfl⟩

/-- The declared values are read when they are 64-bit integers. -/
theorem readGenerated_eq_some {m : OrderedMap String Json} {start ratio count : Nat}
    {leading : Option (List Nat)} (declares : DeclaresGeometric m start ratio count leading)
    {raw : Generated} :
    readGenerated m.entries = some raw ↔ (start < 2 ^ 64 ∧ ratio < 2 ^ 64 ∧ count < 2 ^ 64 ∧
      ∀ i ∈ leading.getD [], i < 2 ^ 64) ∧ raw = ⟨start, ratio, count, leading.getD []⟩ := by
  unfold readGenerated
  rw [if_pos (onlyKeys_entries.mpr declares.only), lookup_entries, lookup_entries, lookup_entries,
    lookup_entries, lookup_entries, declares.kind, declares.start, declares.ratio, declares.count,
    declares.leading]
  exact read_eq_some

/-- A declared geometric form is read as the indices it stands for, or refused. -/
theorem deserialize_geometric {m : OrderedMap String Json} {start ratio count : Nat}
    {leading : Option (List Nat)} (declares : DeclaresGeometric m start ratio count leading)
    {schedule : CheckSchedule} :
    deserialize (.obj m.entries) = .ok schedule ↔
      Generated.Expands ⟨start, ratio, count, leading.getD []⟩ ∧
        schedule = .explicit (Generated.indices ⟨start, ratio, count, leading.getD []⟩) := by
  have key : "kind" ∈ m.keys := OrderedMap.mem_keys.mpr (by rw [declares.kind]; rfl)
  have periodic : readPeriodic m.entries = none :=
    if_neg fun only => absurd (onlyKeys_entries.mp only _ key) (by decide)
  have explicit : readExplicit m.entries = none :=
    if_neg fun only => absurd (onlyKeys_entries.mp only _ key) (by decide)
  simp only [deserialize, periodic, explicit]
  cases read : readGenerated m.entries with
  | some raw =>
      obtain ⟨-, rfl⟩ := (readGenerated_eq_some declares).mp read
      exact expand_eq_ok
  | none =>
      refine iff_of_false (by simp) fun ⟨expands, _⟩ => ?_
      have limit : maxSafeInteger < 2 ^ 64 := by decide
      have first : start ∈ Generated.indices ⟨start, ratio, count, leading.getD []⟩ := by
        refine List.mem_append_right _ (List.mem_map.mpr ⟨0, List.mem_range.mpr expands.count.1, ?_⟩)
        exact Nat.mul_one start
      have small := expands.safe start first
      have many : count ≤ maxSafeInteger := expands.count.2
      have factor : ratio ≤ maxSafeInteger := expands.ratio.2
      have read' := (readGenerated_eq_some declares).mpr ⟨⟨by omega, by omega, by omega, fun i member =>
        Nat.lt_of_le_of_lt (expands.safe i (List.mem_append_left _ member)) limit⟩, rfl⟩
      rw [read] at read'
      cases read'

end CheckSchedule

/-! ## The Python adapter -/

namespace Adapter

structure WorkerError where
  code : String
  message : String
  deriving DecidableEq

/-- `CheckSchedule` of `_schedules.py`; `every` is absent beside explicit indices. -/
structure CheckSchedule where
  indices : Option (List Nat)
  every : Option Nat
  start : Nat

/-- `valid_integer`: the value of an `int` in range. -/
def validInteger (minimum : Nat) : Json → Option Nat
  | .num (.int value) =>
      if (minimum : Int) ≤ value ∧ value ≤ maxSafeInteger then some value.toNat else none
  | _ => none

/-- `bisect_right`, on ascending indices. -/
def bisectRight (indices : List Nat) (index : Nat) : Nat := (indices.takeWhile (· ≤ index)).length

namespace CheckSchedule

/-- The explicit form: a nonempty list of ascending valid integers. -/
def ofIndices (items : List Json) : Option CheckSchedule := do
  let indices ← items.mapM (validInteger 0)
  if items ≠ [] ∧ Metewand.CheckSchedule.increasing indices then
    some ⟨some indices, none, 0⟩
  else none

def ofPeriod (every start : Option Json) : Option CheckSchedule := do
  let every ← every.bind (validInteger 1)
  let start ← Metewand.CheckSchedule.readDefault (validInteger 0) 0 start
  return ⟨none, some every, start⟩

/-- `CheckSchedule.__init__` on a dictionary. -/
def init (specification : OrderedMap String Json) : Except WorkerError CheckSchedule :=
  expect (match specification.get "indices" with
    | none | some .null =>
        if ∀ key ∈ specification.keys, key ∈ ["every", "start"] then
          ofPeriod (specification.get "every") (specification.get "start")
        else none
    | some (.arr items) =>
        if ∀ key ∈ specification.keys, key ∈ ["indices"] then ofIndices items else none
    | some _ => none)
    ⟨"operation_failed", "Invalid checkpoint schedule."⟩

variable (schedule : CheckSchedule)

def includes (index : Nat) : Bool :=
  match schedule.indices with
  | some indices =>
      let position := bisectRight indices index
      decide (0 < position) && indices[position - 1]? = some index
  | none =>
      decide (schedule.start ≤ index) &&
        schedule.every.any fun every => (index - schedule.start) % every = 0

def nextAfter (previous : Option Nat) : Option Nat :=
  match schedule.indices with
  | some indices =>
      indices[match previous with
        | none => 0
        | some index => bisectRight indices index]?
  | none =>
      match previous with
      | none => some schedule.start
      | some index =>
          if index < schedule.start then some schedule.start
          else schedule.every.bind fun every =>
            (some (schedule.start + ((index - schedule.start) / every + 1) * every)).filter
              (· ≤ maxSafeInteger)

end CheckSchedule

/-! ## Agreement -/

theorem validInteger_eq_some {minimum n : Nat} {v : Json} :
    validInteger minimum v = some n ↔ v.asUnsigned? 64 = some n ∧ minimum ≤ n ∧ n ≤ maxSafeInteger := by
  have limit : maxSafeInteger < 2 ^ 64 := by decide
  unfold validInteger Json.asUnsigned?
  cases v with
  | num number =>
      cases number with
      | int value =>
          simp only [Option.ite_none_right_eq_some, Option.some.injEq]
          omega
      | float bits => simp
  | null | bool _ | str _ | arr _ | obj _ => simp

theorem validIntegers_eq_some {items : List Json} {indices : List Nat} :
    items.mapM (validInteger 0) = some indices ↔
      items.mapM (Json.asUnsigned? 64) = some indices ∧ ∀ i ∈ indices, i ≤ maxSafeInteger := by
  induction items generalizing indices with
  | nil =>
      constructor
      · intro same
        cases same
        exact ⟨rfl, by simp⟩
      · exact fun ⟨same, _⟩ => same
  | cons v rest ih =>
      simp only [List.mapM_cons, Option.bind_eq_bind, Option.bind_eq_some_iff, Option.pure_def,
        Option.some.injEq, validInteger_eq_some, ih]
      constructor
      · rintro ⟨n, ⟨read, -, small⟩, others, ⟨reads, each⟩, rfl⟩
        exact ⟨⟨n, read, others, reads, rfl⟩, List.forall_mem_cons.mpr ⟨small, each⟩⟩
      · rintro ⟨⟨n, read, others, reads, rfl⟩, each⟩
        obtain ⟨small, each⟩ := List.forall_mem_cons.mp each
        exact ⟨n, ⟨read, Nat.zero_le _, small⟩, others, ⟨reads, each⟩, rfl⟩

/-- The adapter's form of a schedule. -/
def CheckSchedule.ofCore : Metewand.CheckSchedule → CheckSchedule
  | .periodic every start => ⟨none, some every, start⟩
  | .explicit indices => ⟨some indices, none, 0⟩

theorem ofPeriod_eq_some {every start : Option Json} {p : CheckSchedule} :
    CheckSchedule.ofPeriod every start = some p ↔ ∃ e s, every.bind (Json.asUnsigned? 64) = some e ∧
      Metewand.CheckSchedule.readDefault (Json.asUnsigned? 64) 0 start = some s ∧
      (0 < e ∧ e ≤ maxSafeInteger ∧ s ≤ maxSafeInteger) ∧ p = ⟨none, some e, s⟩ := by
  have read : ∀ s, Metewand.CheckSchedule.readDefault (validInteger 0) 0 start = some s ↔
      Metewand.CheckSchedule.readDefault (Json.asUnsigned? 64) 0 start = some s ∧ s ≤ maxSafeInteger := by
    intro s
    cases start with
    | none =>
        simp only [Metewand.CheckSchedule.readDefault, Option.some.injEq]
        exact ⟨fun same => ⟨same, same ▸ Nat.zero_le _⟩, And.left⟩
    | some v => simpa [Metewand.CheckSchedule.readDefault] using @validInteger_eq_some 0 s v
  unfold CheckSchedule.ofPeriod
  simp only [Option.bind_eq_bind, Option.bind_eq_some_iff, validInteger_eq_some, read,
    Option.pure_def, Option.some.injEq]
  constructor
  · rintro ⟨e, ⟨v, given, value, positive, small⟩, s, ⟨start, small'⟩, rfl⟩
    exact ⟨e, s, ⟨v, given, value⟩, start, ⟨positive, small, small'⟩, rfl⟩
  · rintro ⟨e, s, ⟨v, given, value⟩, start, ⟨positive, small, small'⟩, rfl⟩
    exact ⟨e, ⟨v, given, value, positive, small⟩, s, ⟨start, small'⟩, rfl⟩

theorem ofIndices_eq_some {items : List Json} {p : CheckSchedule} :
    CheckSchedule.ofIndices items = some p ↔ ∃ indices,
      Metewand.CheckSchedule.readIndices (.arr items) = some indices ∧
        (Metewand.CheckSchedule.explicit indices).valid = true ∧ p = ⟨some indices, none, 0⟩ := by
  have length : ∀ indices, items.mapM (Json.asUnsigned? 64) = some indices →
      (items ≠ [] ↔ indices.isEmpty = false) := by
    intro indices read
    cases items with
    | nil =>
        cases read
        simp
    | cons v rest =>
        simp only [List.mapM_cons, Option.bind_eq_bind, Option.bind_eq_some_iff, Option.pure_def,
          Option.some.injEq] at read
        obtain ⟨n, -, others, -, rfl⟩ := read
        simp
  unfold CheckSchedule.ofIndices Metewand.CheckSchedule.readIndices Metewand.CheckSchedule.valid
  simp only [Option.bind_eq_bind, Option.bind_eq_some_iff, validIntegers_eq_some, Json.asArray?,
    Option.some.injEq, Option.ite_none_right_eq_some, exists_eq_left', Bool.and_eq_true,
    Bool.not_eq_true', List.all_eq_true, decide_eq_true_eq]
  constructor
  · rintro ⟨indices, ⟨read, small⟩, ⟨nonempty, increases⟩, rfl⟩
    exact ⟨indices, read, ⟨⟨(length indices read).mp nonempty, small⟩, increases⟩, rfl⟩
  · rintro ⟨indices, read, ⟨⟨nonempty, small⟩, increases⟩, rfl⟩
    exact ⟨indices, ⟨read, small⟩, ⟨(length indices read).mpr nonempty, increases⟩, rfl⟩

/-- Outside the geometric form the adapter accepts what is read and valid. -/
theorem init_eq_ok {m : OrderedMap String Json} (plain : m.get "kind" = none) {p : CheckSchedule} :
    CheckSchedule.init m = .ok p ↔ ∃ s, Metewand.CheckSchedule.deserialize (.obj m.entries) = .ok s ∧
      s.validate = .ok () ∧ p = .ofCore s := by
  open Metewand.CheckSchedule in
  have generated : readGenerated m.entries = none := by
    unfold readGenerated
    split
    · rw [lookup_entries, plain]
      rfl
    · rfl
  have valid : ∀ s : Metewand.CheckSchedule, s.validate = .ok () ↔ s.valid = true := by
    intro s
    unfold Metewand.CheckSchedule.validate
    rw [ok_reject, Bool.not_eq_false]
  have deserialized : ∀ s, deserialize (.obj m.entries) = .ok s ↔
      readPeriodic m.entries = some s ∨ readPeriodic m.entries = none ∧ readExplicit m.entries = some s := by
    intro s
    simp only [deserialize, generated]
    cases readPeriodic m.entries <;> cases readExplicit m.entries <;> simp
  simp only [CheckSchedule.init, ok_expect, deserialized, valid]
  by_cases keys : ∀ key ∈ m.keys, key ∈ ["every", "start"]
  · have absent : m.get "indices" = none := by
      cases found : m.get "indices" with
      | none => rfl
      | some v =>
          have key : "indices" ∈ m.keys := OrderedMap.mem_keys.mpr (by rw [found]; rfl)
          exact absurd (keys _ key) (by decide)
    have explicit : readExplicit m.entries = none := by
      unfold readExplicit
      rw [lookup_entries, absent]
      split <;> rfl
    have periodic : ∀ s, readPeriodic m.entries = some s ↔ ∃ every start,
        (m.get "every").bind (Json.asUnsigned? 64) = some every ∧
          readDefault (Json.asUnsigned? 64) 0 (m.get "start") = some start ∧
            s = .periodic every start := by
      intro s
      unfold readPeriodic
      rw [if_pos (onlyKeys_entries.mpr keys), lookup_entries, lookup_entries]
      generalize (m.get "every").bind (Json.asUnsigned? 64) = every
      generalize readDefault (Json.asUnsigned? 64) 0 (m.get "start") = start
      simp only [Option.bind_eq_bind, Option.bind_eq_some_iff, Option.pure_def, Option.some.injEq]
      constructor
      · rintro ⟨every, read, start, read', rfl⟩
        exact ⟨every, start, read, read', rfl⟩
      · rintro ⟨every, start, read, read', rfl⟩
        exact ⟨every, read, start, read', rfl⟩
    rw [absent]
    simp only [if_pos keys, ofPeriod_eq_some, explicit, periodic]
    constructor
    · rintro ⟨every, start, read, read', bounds, rfl⟩
      exact ⟨.periodic every start, .inl ⟨every, start, read, read', rfl⟩, decide_eq_true bounds, rfl⟩
    · rintro ⟨_, ⟨every, start, read, read', rfl⟩ | ⟨-, none⟩, bounds, rfl⟩
      · exact ⟨every, start, read, read', of_decide_eq_true bounds, rfl⟩
      · cases none
  · have periodic : readPeriodic m.entries = none :=
      if_neg fun only => keys (onlyKeys_entries.mp only)
    have explicit : ∀ s, readExplicit m.entries = some s ↔ (∀ key ∈ m.keys, key ∈ ["indices"]) ∧
        ∃ v indices, m.get "indices" = some v ∧ readIndices v = some indices ∧ s = .explicit indices := by
      intro s
      unfold readExplicit
      rw [Option.ite_none_right_eq_some, onlyKeys_entries, lookup_entries, Option.map_eq_some_iff]
      refine and_congr_right fun _ => ?_
      simp only [Option.bind_eq_some_iff]
      constructor
      · rintro ⟨indices, ⟨v, given, read⟩, rfl⟩
        exact ⟨v, indices, given, read, rfl⟩
      · rintro ⟨v, indices, given, read, rfl⟩
        exact ⟨indices, ⟨v, given, read⟩, rfl⟩
    simp only [periodic, explicit, if_neg keys]
    cases given : m.get "indices" with
    | none => simp
    | some v =>
        cases v with
        | arr items =>
            simp only [Option.ite_none_right_eq_some, ofIndices_eq_some, Option.some.injEq]
            constructor
            · rintro ⟨only, indices, read, bounds, rfl⟩
              exact ⟨.explicit indices, .inr ⟨trivial, only, _, indices, rfl, read, rfl⟩, bounds, rfl⟩
            · rintro ⟨_, none | ⟨-, only, _, indices, rfl, read, rfl⟩, bounds, rfl⟩
              · cases none
              · exact ⟨only, indices, read, bounds, rfl⟩
        | null | bool _ | num _ | str _ | obj _ => simp [readIndices, Json.asArray?]

/-- The bisection point separates the indices up to `index` from the later ones. -/
theorem getElem_bisectRight (indices : List Nat) (index : Nat) :
    indices[bisectRight indices index]? = (indices.dropWhile (· ≤ index)).head? := by
  unfold bisectRight
  have split := @List.takeWhile_append_dropWhile _ (fun i => decide (i ≤ index)) indices
  calc indices[(indices.takeWhile (· ≤ index)).length]?
      = (indices.takeWhile (· ≤ index) ++ indices.dropWhile (· ≤ index))[
          (indices.takeWhile (· ≤ index)).length]? := by rw [split]
    _ = (indices.dropWhile (· ≤ index)).head? := by
        rw [List.getElem?_append_right (Nat.le_refl _), Nat.sub_self, List.head?_eq_getElem?]

/-- Just before the bisection point stands the index itself, when it is among them. -/
theorem bisectRight_found {indices : List Nat} (ascending : indices.Pairwise (· < ·)) (index : Nat) :
    (decide (0 < bisectRight indices index) &&
      decide (indices[bisectRight indices index - 1]? = some index)) = indices.contains index := by
  induction indices with
  | nil => rfl
  | cons a rest ih =>
      obtain ⟨first, others⟩ := List.pairwise_cons.mp ascending
      by_cases passed : a ≤ index
      · have position : bisectRight (a :: rest) index = bisectRight rest index + 1 := by
          simp [bisectRight, passed]
        have found := ih others
        rw [position, Nat.add_sub_cancel, List.contains_cons]
        cases later : bisectRight rest index with
        | zero =>
            rw [later] at found
            have absent : rest.contains index = false := found.symm
            rw [absent, Bool.or_false]
            change decide (some a = some index) = (index == a)
            by_cases same : index = a
            · simp [same]
            · simp [same, Ne.symm same]
        | succ k =>
            have apart : index ≠ a := by
              intro same
              cases rest with
              | nil => cases later
              | cons b rest =>
                  have above := first b List.mem_cons_self
                  simp [bisectRight, same, Nat.not_le.mpr above] at later
            rw [later] at found
            rw [← found]
            simp [apart]
      · have position : bisectRight (a :: rest) index = 0 := by
          simp [bisectRight, passed]
        have absent : index ∉ a :: rest := by
          intro member
          rcases List.mem_cons.mp member with same | later
          · omega
          · have := first index later
            omega
        rw [position]
        simpa using absent

theorem includes_ofCore {s : Metewand.CheckSchedule} (valid : s.valid = true) (index : Nat) :
    (CheckSchedule.ofCore s).includes index = s.includes index := by
  cases s with
  | periodic every start =>
      simp only [Metewand.CheckSchedule.valid, decide_eq_true_eq] at valid
      change (decide (start ≤ index) && (some every).any fun every => (index - start) % every = 0) =
        decide (0 < every ∧ start ≤ index ∧ (index - start) % every = 0)
      simp [valid.1]
  | explicit indices =>
      simp only [Metewand.CheckSchedule.valid, Bool.and_eq_true] at valid
      exact bisectRight_found (Metewand.CheckSchedule.increasing_pairwise valid.2) index

/-- Where the checked arithmetic overflows, the unbounded sum is past the safe integers. -/
theorem nextAfter_ofCore {s : Metewand.CheckSchedule} (valid : s.valid = true)
    (previous : Option Nat) : (CheckSchedule.ofCore s).nextAfter previous = s.nextAfter previous := by
  cases s with
  | periodic every start =>
      simp only [Metewand.CheckSchedule.valid, decide_eq_true_eq] at valid
      obtain ⟨positive, small, first⟩ := valid
      have limit : maxSafeInteger < 2 ^ 64 := by decide
      cases previous with
      | none =>
          simp only [CheckSchedule.ofCore, CheckSchedule.nextAfter, Metewand.CheckSchedule.nextAfter]
          rw [Option.filter_some, if_pos (decide_eq_true first)]
      | some index =>
          change (if index < start then some start else (some every).bind fun every =>
            (some (start + ((index - start) / every + 1) * every)).filter (· ≤ maxSafeInteger)) = _
          simp only [Metewand.CheckSchedule.nextAfter]
          by_cases below : index < start
          · rw [if_pos below, if_pos below, Option.filter_some, if_pos (decide_eq_true first)]
          · rw [if_neg below, if_neg below, if_neg (Nat.ne_of_gt positive), Option.bind_some]
            generalize (index - start) / every + 1 = steps
            have grows : steps ≤ steps * every := Nat.le_mul_of_pos_right _ positive
            simp only [Metewand.CheckSchedule.checkedU64, Option.bind_eq_bind]
            rw [Nat.add_comm start]
            by_cases fits : steps * every + start < 2 ^ 64
            · rw [if_pos (by omega), Option.bind_some, if_pos (by omega), Option.bind_some, if_pos fits]
            · have past : ¬ steps * every + start ≤ maxSafeInteger := by omega
              rw [Option.filter_some, if_neg (by simpa using past)]
              by_cases first : steps < 2 ^ 64
              · by_cases second : steps * every < 2 ^ 64
                · rw [if_pos first, Option.bind_some, if_pos second, Option.bind_some, if_neg fits]
                  rfl
                · rw [if_pos first, Option.bind_some, if_neg second]
                  rfl
              · rw [if_neg first]
                rfl
  | explicit indices =>
      cases previous with
      | none => cases indices <;> rfl
      | some index => exact getElem_bisectRight indices index

end Adapter

/-! ## Exactness -/

/-- A schedule's next check is the least eligible index, found without overflow. -/
structure NextExact (schedule : CheckSchedule) (previous : Option Nat) : Prop where
  some : ∀ next, schedule.nextAfter previous = some next ↔
    IsLeast {i | schedule.Eligible previous i} next
  none : schedule.nextAfter previous = none ↔ ¬ ∃ i, schedule.Eligible previous i
  fits : ∀ every start, schedule = .periodic every start → ∀ index ∈ previous, start ≤ index →
    (index - start) / every + 1 < 2 ^ 64 ∧ ((index - start) / every + 1) * every < 2 ^ 64 ∧
      ((index - start) / every + 1) * every + start < 2 ^ 64

theorem nextExact {schedule : CheckSchedule} (valid : schedule.valid = true) {previous : Option Nat}
    (safe : ∀ p ∈ previous, p ≤ maxSafeInteger) : NextExact schedule previous := by
  refine ⟨fun next => CheckSchedule.nextAfter_eq_some valid safe,
    CheckSchedule.nextAfter_eq_none valid safe, ?_⟩
  rintro every start rfl index same above
  simp only [CheckSchedule.valid, decide_eq_true_eq] at valid
  obtain ⟨positive, small, first⟩ := valid
  have bound : maxSafeInteger = 2 ^ 53 - 1 := rfl
  have limit := safe index same
  have split := Nat.div_add_mod (index - start) every
  have quotient : (index - start) / every ≤ index - start := Nat.div_le_self _ _
  have product : ((index - start) / every + 1) * every ≤ index - start + every := by
    rw [Nat.add_mul, Nat.mul_comm ((index - start) / every)]
    omega
  omega

/-- Both languages read one schedule from an object and follow it alike. -/
structure AdapterAgrees (m : OrderedMap String Json) : Prop where
  accepts : (∃ p, Adapter.CheckSchedule.init m = .ok p) ↔
    ∃ s, CheckSchedule.deserialize (.obj m.entries) = .ok s ∧ s.validate = .ok ()
  same : ∀ p s, Adapter.CheckSchedule.init m = .ok p →
    CheckSchedule.deserialize (.obj m.entries) = .ok s → ∀ index,
      p.includes index = s.includes index ∧ p.nextAfter (some index) = s.nextAfter (some index) ∧
        p.nextAfter none = s.nextAfter none

theorem adapterAgrees {m : OrderedMap String Json} (plain : m.get "kind" = none) : AdapterAgrees m := by
  refine ⟨?_, ?_⟩
  · constructor
    · rintro ⟨p, accepted⟩
      obtain ⟨s, read, valid, -⟩ := (Adapter.init_eq_ok plain).mp accepted
      exact ⟨s, read, valid⟩
    · rintro ⟨s, read, valid⟩
      exact ⟨_, (Adapter.init_eq_ok plain).mpr ⟨s, read, valid, rfl⟩⟩
  · intro p s accepted read index
    obtain ⟨s', read', valid, rfl⟩ := (Adapter.init_eq_ok plain).mp accepted
    cases read.symm.trans read'
    have valid := CheckSchedule.valid_of_validate valid
    exact ⟨Adapter.includes_ofCore valid index, Adapter.nextAfter_ofCore valid _,
      Adapter.nextAfter_ofCore valid _⟩

/-- Check schedules enumerate exactly their indices, in both languages. -/
theorem checkSchedule_exact :
    (∀ schedule : CheckSchedule, schedule.validate = .ok () →
      (∀ previous, (∀ p ∈ previous, p ≤ maxSafeInteger) → NextExact schedule previous) ∧
        ∀ n, schedule.walk n none = (schedule.safeIndices none).take n) ∧
    (∀ m start ratio count leading, CheckSchedule.DeclaresGeometric m start ratio count leading →
      ∀ schedule, CheckSchedule.deserialize (.obj m.entries) = .ok schedule ↔
        CheckSchedule.Generated.Expands ⟨start, ratio, count, leading.getD []⟩ ∧
          schedule = .explicit (CheckSchedule.Generated.indices ⟨start, ratio, count, leading.getD []⟩)) ∧
    ∀ m : OrderedMap String Json, m.get "kind" = none → AdapterAgrees m := by
  refine ⟨fun schedule valid => ?_, fun m start ratio count leading declares schedule =>
    CheckSchedule.deserialize_geometric declares, fun m plain => adapterAgrees plain⟩
  have valid := CheckSchedule.valid_of_validate valid
  exact ⟨fun previous safe => nextExact valid safe, fun n =>
    CheckSchedule.walk_eq valid n (fun p absent => by cases absent)⟩

/-! Every second index from one on, and a declaration of the powers of two. -/

def doubling : OrderedMap String Json :=
  (((∅ : OrderedMap String Json).insert "kind" (.str "geometric")).insert "start" (.nat 1)).insert
    "ratio" (.nat 2) |>.insert "count" (.nat 3)

theorem doubling_declares : CheckSchedule.DeclaresGeometric doubling 1 2 3 none := by
  refine ⟨?_, ?_, ?_, ?_, ?_, ?_⟩
  · decide
  · decide
  · decide
  · decide
  · decide
  · decide

theorem checkSchedule_exact_sample :
    NextExact (.periodic 2 1) (some 3) ∧
      (CheckSchedule.periodic 2 1).walk 3 none = ((CheckSchedule.periodic 2 1).safeIndices none).take 3 ∧
      CheckSchedule.deserialize (.obj doubling.entries) = .ok (.explicit [1, 2, 4]) ∧
      AdapterAgrees (∅ : OrderedMap String Json) := by
  obtain ⟨exact_, geometric, agrees⟩ := checkSchedule_exact
  obtain ⟨next, listed⟩ := exact_ (.periodic 2 1) rfl
  have safe : ∀ p ∈ some 3, p ≤ maxSafeInteger := by decide
  refine ⟨next (some 3) safe, listed 3, ?_, agrees ∅ rfl⟩
  have expands : CheckSchedule.Generated.Expands ⟨1, 2, 3, []⟩ := by
    refine ⟨?_, ?_, ?_, ?_, ?_⟩ <;> decide
  exact (geometric doubling 1 2 3 none doubling_declares _).mpr ⟨expands, rfl⟩

end Metewand
