import Metewand.Core.Json
import Metewand.Lib.Check
import Metewand.Lib.OrderedMap

/-!
# Canonical values and parameter resolution

A `CanonicalValue` carries the proof that normalization leaves it alone.
`resolveParameters` is `resolve_parameters` of `core/parameters.rs`: supplied
parameters are merged over literal defaults, object by object, and the result is
validated.  Schema validation is the parameter `SchemaCatalog`.

`lookup_mergeObjects` describes the merge key by key.
-/

namespace Metewand

open Lib Lib.Check

/-! ## Canonical values -/

/-- A value of the version-1 canonical domain. -/
structure CanonicalValue where
  value : Json
  canonical : value.normalize = .ok value

namespace CanonicalValue

instance : DecidableEq CanonicalValue := fun a b =>
  decidable_of_iff (a.value = b.value) (by cases a; cases b; simp)

/-- `CanonicalValue::try_from`. -/
def tryFrom (v : Json) : Except Json.CanonicalValueViolation CanonicalValue :=
  match normalized : v.normalize with
  | .ok w => .ok ⟨w, Json.normalize_idempotent normalized⟩
  | .error e => .error e

theorem tryFrom_ok {v : Json} {c : CanonicalValue} :
    tryFrom v = .ok c ↔ v.normalize = .ok c.value := by
  unfold tryFrom
  split
  · rename_i w normalized
    constructor
    · intro h
      cases h
      exact normalized
    · intro h
      obtain ⟨value, canonical⟩ := c
      cases normalized.symm.trans h
      rfl
  · rename_i e failed
    constructor
    · intro h
      cases h
    · intro h
      cases failed.symm.trans h

theorem tryFrom_value (c : CanonicalValue) : tryFrom c.value = .ok c :=
  tryFrom_ok.mpr c.canonical

/-- The object with the given members. -/
def members (entries : List (String × CanonicalValue)) : List (String × Json) :=
  entries.map fun entry => (entry.1, entry.2.value)

theorem normalizeMembers_members (entries : List (String × CanonicalValue)) :
    Json.normalizeMembers (members entries) = .ok (members entries) := by
  induction entries with
  | nil => rfl
  | cons entry rest ih =>
      obtain ⟨key, value⟩ := entry
      have tail : Json.normalizeMembers (members rest) = .ok (members rest) := ih
      simp only [members, List.map_cons, Json.normalizeMembers, value.canonical] at tail ⊢
      rw [tail]
      rfl

/-- Canonical members make a canonical object. -/
def object (entries : List (String × CanonicalValue)) : CanonicalValue :=
  ⟨.obj (members entries), by
    simp only [Json.normalize, normalizeMembers_members]
    rfl⟩

end CanonicalValue

/-! ## Merging -/

/-- The members of an object. -/
def Json.asObject? : Json → Option (List (String × Json))
  | .obj members => some members
  | _ => none

theorem Json.lookupMember_eq (key : String) (members : List (String × Json)) :
    Json.lookupMember key members = Lib.lookupEntry key members := by
  induction members with
  | nil => rfl
  | cons member rest ih => rw [Json.lookupMember, Lib.lookupEntry, ih]

theorem Json.insertMember_eq (key : String) (value : Json) (members : List (String × Json)) :
    Json.insertMember key value members = insertEntry key value members := by
  induction members with
  | nil => rfl
  | cons member rest ih =>
      obtain ⟨k, v⟩ := member
      by_cases same : key = k
      · simp only [Json.insertMember, insertEntry, if_pos same]
      · by_cases before : key < k
        · simp only [Json.insertMember, insertEntry, if_neg same, if_pos before]
        · simp only [Json.insertMember, insertEntry, if_neg same, if_neg before, ih]

mutual

/-- A supplied value over the target's value of the same key. -/
def mergeValue (old : Option Json) : Json → Json
  | .obj supplied =>
      match old with
      | some (.obj target) => .obj (mergeObjects target supplied)
      | _ => .obj supplied
  | other => other

/-- `merge_objects`. -/
def mergeObjects (target : List (String × Json)) : List (String × Json) → List (String × Json)
  | [] => target
  | (key, supplied) :: rest =>
      mergeObjects
        (Json.insertMember key (mergeValue (Json.lookupMember key target) supplied) target) rest

end

/-- Supplied keys take the merged value, all others keep the target's. -/
theorem lookup_mergeObjects {target supplied : List (String × Json)} (distinct : Ascending supplied)
    (key : String) :
    Json.lookupMember key (mergeObjects target supplied) =
      match Json.lookupMember key supplied with
      | some value => some (mergeValue (Json.lookupMember key target) value)
      | none => Json.lookupMember key target := by
  induction supplied generalizing target with
  | nil => rfl
  | cons member rest ih =>
      obtain ⟨k, value⟩ := member
      obtain ⟨above, tail⟩ := List.pairwise_cons.mp distinct
      rw [mergeObjects, ih tail, Json.lookup_insertMember]
      by_cases same : key = k
      · subst same
        have absent : Json.lookupMember key rest = none := by
          have none : ∀ members : List (String × Json), (∀ member ∈ members, key < member.1) →
              Json.lookupMember key members = none := by
            intro members later
            induction members with
            | nil => rfl
            | cons first others ih =>
                rw [Json.lookupMember, if_neg (later first List.mem_cons_self).ne]
                exact ih fun member inside => later member (List.mem_cons_of_mem _ inside)
          exact none rest fun member inside => above member inside
        simp [Json.lookupMember, absent]
      · simp [Json.lookupMember, same]

/-! ## Resolution -/

/-- The repository's schemas: the violations of a value, by catalog path. -/
structure SchemaCatalog where
  validate : String → Json → Except String Unit

inductive ParameterResolutionError where
  | defaultsMustBeObject
  | parametersMustBeObject
  | canonicalJson (violation : Json.CanonicalValueViolation)
  | validation (message : String)
  deriving DecidableEq

/-- `resolve_parameters`. -/
def resolveParameters (schemas : SchemaCatalog) (schemaPath : String)
    (parameterDefaults : Option CanonicalValue) (suppliedParameters : CanonicalValue) :
    Except ParameterResolutionError CanonicalValue := do
  let supplied ← expect suppliedParameters.value.asObject? .parametersMustBeObject
  let target ←
    match parameterDefaults with
    | some defaults => expect defaults.value.asObject? .defaultsMustBeObject
    | none => .ok []
  let resolved ←
    (CanonicalValue.tryFrom (.obj (mergeObjects target supplied))).mapError .canonicalJson
  (schemas.validate schemaPath resolved.value).mapError .validation
  return resolved

end Metewand
