import Metewand.Core.Parameters
import Metewand.Core.Profile

/-!
# Profile bindings and their schedules

`CheckSchedule` and `ControlSchedule` of `core/profile.rs`, the delivery bindings an
observation policy gives its implementations, and what `ProfileBinding.validate` asks of
them.  A fresh binding's controls are expanded in the arithmetic of binary64 values,
which `F64.add` and `F64.mul` compute on their bits.

A valid binding leaves room for one observation (`ProfileBinding.validate_bounds`), and a
valid fresh schedule expands to exactly `len` controls (`ControlSchedule.expand_length`).
-/

namespace Metewand

open Lib Lib.Check

/-! ## Binary64 arithmetic -/

namespace F64

def nan : UInt64 := 0x7ff8000000000000

def signBit (bits : UInt64) : Bool := bits.toNat / 2 ^ 63 = 1

/-- The binary64 value nearest to `n / 2 ^ (1074 + e)`, ties to even. -/
def round (negative : Bool) (n e : Nat) : UInt64 :=
  let raised := n.log2 + 1 - 53 - e
  let dropped := raised + e
  let quotient := n / 2 ^ dropped
  let twice := 2 * (n % 2 ^ dropped)
  let nearest :=
    if 2 ^ dropped < twice ∨ (2 ^ dropped = twice ∧ quotient % 2 = 1) then quotient + 1
    else quotient
  -- a carry out of the significand raises the exponent, and past the largest one to infinity
  .ofNat ((if negative then 2 ^ 63 else 0) + min (raised * 2 ^ 52 + nearest) (2047 * 2 ^ 52))

/-- The sum; a result that is not a number stands for every operation on infinities. -/
def add (a b : UInt64) : UInt64 :=
  if isFinite a ∧ isFinite b then
    let sum := magnitude a + magnitude b
    round (decide (sum < 0) || (decide (sum = 0) && signBit a && signBit b)) sum.natAbs 1
  else nan

/-- The product, as `add`. -/
def mul (a b : UInt64) : UInt64 :=
  if isFinite a ∧ isFinite b then
    round (signBit a != signBit b) (magnitude a * magnitude b).natAbs 1076
  else nan

example : add 0x3fb999999999999a 0x3fc999999999999a = 0x3fd3333333333334 := by decide +kernel

/-- A finite value as a JSON number: integers in the safe range are written as such. -/
def number (bits : UInt64) : Json :=
  match Json.integral? bits with
  | some value => if value.natAbs ≤ maxSafeInteger then .num (.int value) else .num (.float bits)
  | none => .num (.float bits)

end F64

/-! ## Check schedules -/

inductive CheckSchedule where
  | periodic (every start : Nat)
  | explicit (indices : List Nat)
  deriving DecidableEq, Repr

namespace CheckSchedule

/-- Adjacent indices ascend. -/
def increasing : List Nat → Bool
  | a :: b :: rest => decide (a < b) && increasing (b :: rest)
  | _ => true

def valid : CheckSchedule → Bool
  | .periodic every start => decide (0 < every ∧ every ≤ maxSafeInteger ∧ start ≤ maxSafeInteger)
  | .explicit indices =>
      !indices.isEmpty && indices.all (· ≤ maxSafeInteger) && increasing indices

def validate (schedule : CheckSchedule) : Except String Unit :=
  reject (schedule.valid = false)
    "check schedules require a positive safe interval or strictly increasing safe indices"

def includes (schedule : CheckSchedule) (index : Nat) : Bool :=
  match schedule with
  | .periodic every start => decide (0 < every ∧ start ≤ index ∧ (index - start) % every = 0)
  | .explicit indices => indices.contains index

def checkedU64 (n : Nat) : Option Nat := if n < 2 ^ 64 then some n else none

def nextAfter (schedule : CheckSchedule) (previous : Option Nat) : Option Nat :=
  match schedule with
  | .periodic every start =>
      let next :=
        match previous with
        | none => some start
        | some index =>
            if index < start then some start
            else if every = 0 then none
            else do
              let steps ← checkedU64 ((index - start) / every + 1)
              let distance ← checkedU64 (steps * every)
              checkedU64 (distance + start)
      next.filter (· ≤ maxSafeInteger)
  | .explicit indices =>
      -- the indices up to the previous one are passed over
      match previous with
      | none => indices.head?
      | some index => (indices.dropWhile (· ≤ index)).head?

def json : CheckSchedule → Json
  | .periodic every start => .object [("every", .nat every), ("start", .nat start)]
  | .explicit indices => .object [("indices", .arr (indices.map .nat))]

end CheckSchedule

/-! ## Control schedules -/

/-- Why a control schedule does not expand. -/
inductive ControlScheduleError where
  | text (message : String)
  | canonicalJson (violation : Json.CanonicalValueViolation)
  deriving DecidableEq

inductive ControlSchedule where
  | explicit (controls : List Json)
  | linear (field : String) (start step : UInt64) (count : Nat) (leading : List Json)
  | geometric (field : String) (start ratio : UInt64) (count : Nat) (leading : List Json)

namespace ControlSchedule

/-- `ControlSchedule::prefix`. -/
def leading : ControlSchedule → List Json
  | .explicit _ => []
  | .linear _ _ _ _ values | .geometric _ _ _ _ values => values

/-- The number of controls, saturating at the largest 64-bit count. -/
def len : ControlSchedule → Nat
  | .explicit controls => controls.length
  | .linear _ _ _ count values | .geometric _ _ _ count values =>
      min (count + values.length) (2 ^ 64 - 1)

/-- A literal control must be an object. -/
def literal (value : Json) : Except ControlScheduleError CanonicalValue := do
  reject (value.isObject = false) (.text "observation controls must be objects")
  (CanonicalValue.tryFrom value).mapError .canonicalJson

/-- The generated controls, one value after the other. -/
def generate (field : String) (next : UInt64 → UInt64) :
    Nat → UInt64 → Except ControlScheduleError (List CanonicalValue)
  | 0, _ => .ok []
  | count + 1, value => do
      reject (F64.isFinite value = false) (.text "schedule arithmetic must remain finite")
      let control ←
        (CanonicalValue.tryFrom (.object [(field, F64.number value)])).mapError .canonicalJson
      let rest ← generate field next count (next value)
      return control :: rest

/-- The literal controls, then the generated ones. -/
def expandGenerated (field : String) (start : UInt64) (next : UInt64 → UInt64) (count : Nat)
    (values : List Json) : Except ControlScheduleError (List CanonicalValue) := do
  reject (field = "") (.text "schedule field must be nonempty")
  let literals ← traverseAll literal values
  let generated := count - values.length
  reject (generated = 0) (.text "generated schedules require a positive count")
  let rest ← generate field next generated start
  return literals ++ rest

def expand (schedule : ControlSchedule) (bound : Nat) :
    Except ControlScheduleError (List CanonicalValue) := do
  reject (schedule.len = 0 ∨ bound < schedule.len ∨ maxSafeInteger < schedule.len)
    (.text "control schedules require a positive count within max-observations")
  match schedule with
  | .explicit controls => traverseAll literal controls
  | .linear field start step _ values =>
      expandGenerated field start (F64.add · step) schedule.len values
  | .geometric field start ratio _ values =>
      expandGenerated field start (F64.mul · ratio) schedule.len values

theorem generate_length {field : String} {next : UInt64 → UInt64} {count : Nat} {value : UInt64}
    {controls : List CanonicalValue} (generated : generate field next count value = .ok controls) :
    controls.length = count := by
  induction count generalizing value controls with
  | zero =>
      cases generated
      rfl
  | succ count ih =>
      simp only [generate, ok_bind, ok_pure] at generated
      obtain ⟨-, -, control, -, rest, tail, rfl⟩ := generated
      rw [List.length_cons, ih tail]

theorem expandGenerated_length {field : String} {start : UInt64} {next : UInt64 → UInt64}
    {count : Nat} {values : List Json} {controls : List CanonicalValue}
    (expanded : expandGenerated field start next count values = .ok controls) :
    controls.length = count := by
  simp only [expandGenerated, ok_bind, ok_pure, ok_reject] at expanded
  obtain ⟨-, -, literals, read, -, positive, rest, generated, rfl⟩ := expanded
  have literal := (ok_traverseAll.mp read).length_eq
  rw [List.length_append, generate_length generated]
  omega

/-- A schedule expands to as many controls as it announces, within the bound. -/
theorem expand_length {schedule : ControlSchedule} {bound : Nat} {controls : List CanonicalValue}
    (expanded : schedule.expand bound = .ok controls) :
    controls.length = schedule.len ∧ 0 < controls.length ∧ controls.length ≤ bound := by
  simp only [expand, ok_bind, ok_reject, not_or] at expanded
  obtain ⟨-, ⟨nonempty, within, -⟩, expanded⟩ := expanded
  have length : controls.length = schedule.len := by
    cases schedule with
    | explicit values => exact (ok_traverseAll.mp expanded).length_eq.symm
    | linear field start step count values => exact expandGenerated_length expanded
    | geometric field start ratio count values => exact expandGenerated_length expanded
  omega

def json : ControlSchedule → Json
  | .explicit controls => .object [("kind", .str "explicit"), ("controls", .arr controls)]
  | .linear field start step count values =>
      .object ([("kind", .str "linear"), ("field", .str field), ("start", F64.json start),
        ("step", F64.json step), ("count", .nat count)] ++
        if values.isEmpty then [] else [("prefix", .arr values)])
  | .geometric field start ratio count values =>
      .object ([("kind", .str "geometric"), ("field", .str field), ("start", F64.json start),
        ("ratio", F64.json ratio), ("count", .nat count)] ++
        if values.isEmpty then [] else [("prefix", .arr values)])

end ControlSchedule

/-! ## Bindings -/

/-- A reusable repository schema or an inline document. -/
structure SchemaDeclaration where
  path : String
  document : Option CanonicalValue
  deriving DecidableEq

def SchemaDeclaration.declarationValue (schema : SchemaDeclaration) : Json :=
  match schema.document with
  | none => .str schema.path
  | some document => document.value

structure BufferedBinding where
  instrumentedScope : String
  instrumentationSchema : SchemaDeclaration
  instrumentation : Json
  checkSchedule : CheckSchedule

structure FreshBinding where
  controlSchema : SchemaDeclaration
  schedule : ControlSchedule

structure StreamingBinding where
  checkSchedule : CheckSchedule

/-- Delivery-specific authoring fields share a completion policy. -/
inductive ProfileBinding where
  | buffered (binding : BufferedBinding)
  | fresh (binding : FreshBinding)
  | streaming (binding : StreamingBinding)

namespace ProfileBinding

def schema : ProfileBinding → Option SchemaDeclaration
  | .buffered b => some b.instrumentationSchema
  | .fresh b => some b.controlSchema
  | .streaming _ => none

def declarationValue : ProfileBinding → Json
  | .streaming b =>
      .object [("delivery", .str "streaming_profile"),
        ("measurement-basis", .str "executor_observed"), ("check-schedule", b.checkSchedule.json)]
  | .buffered b =>
      .object [("delivery", .str "buffered_profile"), ("measurement-basis", .str "instrumented"),
        ("instrumented-scope", .str b.instrumentedScope),
        ("instrumentation-schema", b.instrumentationSchema.declarationValue),
        ("instrumentation", b.instrumentation), ("check-schedule", b.checkSchedule.json)]
  | .fresh b =>
      .object [("delivery", .str "fresh_sequence"),
        ("control-schema", b.controlSchema.declarationValue), ("schedule", b.schedule.json)]

def validate (binding : ProfileBinding) (policy : ProfilePolicy) :
    Except ControlScheduleError Unit :=
  match binding with
  | .streaming b => do
      reject (policy.maxCheckpointBytes = 0 ∨ maxSafeInteger < policy.maxCheckpointBytes)
        (.text "streaming profiles require a positive safe max-checkpoint-bytes")
      b.checkSchedule.validate.mapError .text
  | .buffered b => do
      policy.validateBuffered.mapError .text
      b.checkSchedule.validate.mapError .text
      reject (b.instrumentedScope = "" ∨ b.instrumentation.isObject = false)
        (.text "buffered binding requires a scope, instrumentation object, and positive safe check interval")
  | .fresh b => do
      reject (b.schedule.len = 0 ∨ policy.maxObservations < b.schedule.len ∨
          (policy.metric = none ∧ b.schedule.len ≠ policy.maxObservations))
        (.text "fresh schedules must fit max-observations; fixed counts must match exactly")
      let _ ← b.schedule.expand policy.maxObservations
      return ()

end ProfileBinding

/-- A policy and the binding of each implementation it covers. -/
structure ProfileDefinition where
  policy : ProfilePolicy
  implementations : OrderedMap String ProfileBinding

def ProfileDefinition.declarationValue (profile : ProfileDefinition) : Json :=
  profile.policy.json.set "implementations"
    (.object (profile.implementations.entries.map fun entry =>
      (entry.1, entry.2.declarationValue)))

end Metewand
