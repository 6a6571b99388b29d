import Metewand.Planning.Measurements

/-!
# Logical preselection

`preselect` of `runtime/run/selection.rs`: a plan is cut down to the work that a set of
logical identities selects before anything is resolved.  A measured slot of a non-fresh
specification is kept with its whole trajectory, which is recovered by chunking the
observation slots; a fresh specification is kept or emptied as a whole.

The source hands one set of matched identities through its four nested loops; here each
level returns the identities it has matched, and their union is compared at the end.
-/

namespace Metewand.Planning

open Lib Lib.Check

/-! ## Selected identities -/

/-- The part of the run options that selection reads. -/
structure RunOptions where
  maxAttempts : Option Nat
  selectedIds : List String

inductive SelectionError where
  | attemptBound
  | invalidIdentity (id : String)
  | unmatched (id : String)
  | panicked (message : String)
  deriving DecidableEq

def SelectionError.message : SelectionError → String
  | .attemptBound => "maximum attempts must be a positive safe integer"
  | .invalidIdentity id => "invalid selected identity `" ++ id ++ "`"
  | .unmatched id => "selected identity `" ++ id ++ "` matches no measured slot"
  | .panicked message => message

/-- The text before and after the last hyphen. -/
def rsplitOnce (text : List Char) : Option (List Char × List Char) :=
  let after := text.reverse.takeWhile (· ≠ '-')
  match text.reverse.drop after.length with
  | [] => none
  | _ :: before => some (before.reverse, after.reverse)

def selectableKinds : List String :=
  ["mw1-logical-candidate", "mw1-logical-specification", "mw1-logical-observation-slot",
    "mw1-logical-attempt-slot", "mw1-resolved-specification", "mw1-resolved-observation-slot",
    "mw1-resolved-attempt-slot", "mw1-attempt", "mw1-observation"]

def unconditionalPrefix : String := "run-store-v1:unconditional:"

/-- A selected identity has a known kind and sixty-four lowercase digits. -/
def wellFormed (id : String) : Bool :=
  let spelled :=
    if startsWith unconditionalPrefix id then
      id.toList.drop unconditionalPrefix.toList.length
    else id.toList
  match rsplitOnce spelled with
  | none => false
  | some (kind, digest) =>
      selectableKinds.any (fun selectable => selectable.toList = kind) &&
        decide (digest.length = 64) && digest.all isHexDigit

def isLogical (id : String) : Bool :=
  ["mw1-logical-candidate-", "mw1-logical-specification-", "mw1-logical-observation-slot-",
    "mw1-logical-attempt-slot-"].any (startsWith · id)

/-! ## Specifications -/

/-- A number of the observation policy, read as the source reads it. -/
def asU64? : Json → Option Nat
  | .num (.int value) => if 0 ≤ value ∧ value < 2 ^ 64 then some value.toNat else none
  | _ => none

/-- The bound of an experiment's common observation policy. -/
def preselectBound (record : ObservationPolicyRecord) : Nat :=
  (record.profile.bind fun profile => asU64? (profile.value.get "max-observations")).getD 1

section Specification

variable (logical : List String) (candidate : RecordId .logicalCandidate)

/-- A fresh specification is kept entire when one of its identities is selected. -/
def selectFresh (specification : OneShotSpecificationPlan) :
    List String × OneShotSpecificationPlan :=
  let ids := candidate.text :: specification.specification.id.text ::
    (specification.attemptSlots.map (·.id.text) ++
      specification.observationSlots.map (·.id.text))
  let found := logical.filter (· ∈ ids)
  if found = [] then ([], { specification with observationSlots := [], attemptSlots := [] })
  else (found, specification)

/-- The trajectories of a specification, each under the identity of its first slot. -/
def captures (bound : Nat) (specification : OneShotSpecificationPlan) :
    List (RecordId .logicalObservationSlot × List (RecordId .logicalObservationSlot)) :=
  (chunks bound specification.observationSlots).filterMap fun group =>
    group.head?.map fun first => (first.id, group.map (·.id))

/-- The trajectory recorded last under an identity. -/
def findCapture
    (captures : List (RecordId .logicalObservationSlot × List (RecordId .logicalObservationSlot)))
    (observation : RecordId .logicalObservationSlot) :
    Option (List (RecordId .logicalObservationSlot)) :=
  (captures.reverse.find? fun capture => capture.1 = observation).map Prod.snd

/-- What has been kept of a specification. -/
structure Retained where
  matched : List String
  observations : List (RecordId .logicalObservationSlot)
  attemptSlots : List AttemptSlot

def retainAttempt (bound : Nat) (specification : OneShotSpecificationPlan) (state : Retained)
    (slot : AttemptSlot) : Except SelectionError Retained :=
  match slot.record.role with
  | .warmup _ => .ok { state with attemptSlots := state.attemptSlots ++ [slot] }
  | .measured observation => do
      let capture ← expect (findCapture (captures bound specification) observation)
        (.panicked "no entry found for key")
      let ids := [candidate.text, specification.specification.id.text, slot.id.text,
        observation.text] ++ capture.map RecordId.text
      let found := logical.filter (· ∈ ids)
      if found = [] then return state
      else return {
        matched := state.matched ++ found
        observations := state.observations ++ capture
        attemptSlots := state.attemptSlots ++ [slot] }

def selectMeasured (bound : Nat) (specification : OneShotSpecificationPlan) :
    Except SelectionError (List String × OneShotSpecificationPlan) := do
  reject (bound = 0) (.panicked "chunk size must be non-zero")
  let retained ←
    thread (retainAttempt logical candidate bound specification) ⟨[], [], []⟩
      specification.attemptSlots
  return (retained.matched,
    { specification with
      attemptSlots := retained.attemptSlots
      observationSlots := specification.observationSlots.filter (·.id ∈ retained.observations) })

def selectSpecification (bound : Nat) (specification : OneShotSpecificationPlan) :
    Except SelectionError (List String × OneShotSpecificationPlan) :=
  if specification.observationSlots.any (fun slot => slot.record.fresh.isSome) then
    .ok (selectFresh logical candidate specification)
  else selectMeasured logical candidate bound specification

end Specification

/-! ## Plans -/

def selectCandidate (logical : List String) (bound : Nat) (candidate : LogicalCandidatePlan) :
    Except SelectionError (List String × LogicalCandidatePlan) := do
  let parts ←
    traverseAll (selectSpecification logical candidate.candidate.id bound) candidate.specifications
  return (parts.flatMap Prod.fst,
    { candidate with
      specifications := (parts.map Prod.snd).filter fun specification =>
        !specification.observationSlots.isEmpty })

def selectExperiment (logical : List String) (experiment : LogicalExperimentPlan) :
    Except SelectionError (List String × LogicalExperimentPlan) := do
  let bound := preselectBound experiment.observationPolicy.record
  let parts ← traverseAll (selectCandidate logical bound) experiment.candidates
  return (parts.flatMap Prod.fst,
    { experiment with
      candidates := (parts.map Prod.snd).filter fun candidate =>
        !candidate.specifications.isEmpty })

/-- The selected plan; every selected identity must have matched something. -/
def selectPlan (logical : List String) (plan : LogicalPlan) : Except SelectionError LogicalPlan := do
  let parts ← traverseAll (selectExperiment logical) plan.experiments
  let found := parts.flatMap Prod.fst
  each (fun id => reject (id ∉ found) (.unmatched id)) logical
  return ⟨(parts.map Prod.snd).filter fun experiment => !experiment.candidates.isEmpty⟩

def preselect (plan : LogicalPlan) (options : RunOptions) : Except SelectionError LogicalPlan := do
  reject (options.maxAttempts.any fun bound => bound = 0 ∨ maxSafeInteger < bound) .attemptBound
  if options.selectedIds = [] then return plan
  else do
    each (fun id => reject (wellFormed id = false) (.invalidIdentity id)) options.selectedIds
    let logical := ((options.selectedIds.filter isLogical).dedup).insertionSort (· ≤ ·)
    -- resolved identities need acquisition before their dependencies are known
    if options.selectedIds.any (fun id => id ∉ logical) then return plan
    else selectPlan logical plan

end Metewand.Planning
