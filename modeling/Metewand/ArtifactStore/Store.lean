import Mathlib.Data.List.Dedup
import Mathlib.Data.List.Sort
import Mathlib.Logic.Function.Basic
import Metewand.ArtifactStore.Objects
import Metewand.Lib.OrderedMap

/-!
# The cache directory and its catalog

`Catalog` is the SQLite catalog of `artifact_store/catalog.rs` with its three tables,
`Lease` a directory below `leases`, and `Store` the whole cache directory.  The
directories `objects/<id>` and `garbage/<id>` are addressed by the digest that `id`
spells, since `parse_target` accepts one spelling only (`parseTarget_eq_ok`).

`collectReport` is the first half of `ArtifactStore::collect`: it validates the whole
selection against one snapshot and writes nothing.
-/

namespace Metewand.ArtifactStore

open Lib.Check

/-! ## The catalog -/

/-- The rows of `objects`, `roots` and `gc_pending`. -/
structure Catalog where
  /-- Tree hash and marker hash. -/
  objects : List (Digest × Digest)
  /-- Name and tree hash. -/
  roots : List (String × Digest)
  /-- Tree hash and whether the move has been recorded. -/
  pending : List (Digest × Bool)
  deriving DecidableEq

namespace Catalog

def empty : Catalog := ⟨[], [], []⟩

/-- The registered marker of a tree. -/
def manifest (c : Catalog) (digest : Digest) : Option Digest := c.objects.lookup digest

/-- The `detached` column of a tree's pending row. -/
def detached (c : Catalog) (digest : Digest) : Option Bool := c.pending.lookup digest

/-- The names of the roots of a tree, in order. -/
def rootNames (c : Catalog) (digest : Digest) : List String :=
  ((c.roots.filter fun row => row.2 = digest).map Prod.fst).insertionSort (· ≤ ·)

/-- `foreign_key_check` finds nothing. -/
def Referential (c : Catalog) : Prop :=
  (∀ row ∈ c.roots, (c.manifest row.2).isSome) ∧ ∀ row ∈ c.pending, (c.manifest row.1).isSome

instance (c : Catalog) : Decidable c.Referential :=
  inferInstanceAs (Decidable (_ ∧ _))

/-- `Catalog::read`. -/
def read (c : Catalog) : Except ArtifactStoreError Catalog := do
  reject (¬c.Referential) (.catalog "catalog integrity check failed")
  return c

/-- `Catalog::register`: the first marker of a tree stays. -/
def register (c : Catalog) (digest marker : Digest) : Except ArtifactStoreError Catalog :=
  match c.manifest digest with
  | some expected => do
      reject (expected ≠ marker) .changedContent
      return c
  | none => .ok { c with objects := c.objects ++ [(digest, marker)] }

/-- `Catalog::root`. -/
def root (c : Catalog) (digest : Digest) (name : String) (add : Bool) :
    Except ArtifactStoreError Catalog :=
  if add then
    if (name, digest) ∈ c.roots then .ok c
    else do
      reject (c.manifest digest = none) .sqlite
      return { c with roots := c.roots ++ [(name, digest)] }
  else do
    reject ((name, digest) ∉ c.roots) (.unknownRoot name)
    return { c with roots := c.roots.filter fun row => row ≠ (name, digest) }

/-- `Catalog::pending`. -/
def setPending (c : Catalog) (digest : Digest) (detached : Bool) :
    Except ArtifactStoreError Catalog := do
  reject (c.manifest digest = none) .sqlite
  return { c with pending := (digest, detached) :: c.pending.filter fun row => row.1 ≠ digest }

/-- `Catalog::forget`; a root that still names the tree makes the deletion fail. -/
def forget (c : Catalog) (digest : Digest) : Except ArtifactStoreError Catalog := do
  reject (∃ row ∈ c.roots, row.2 = digest) .sqlite
  return { c with
    pending := c.pending.filter fun row => row.1 ≠ digest
    objects := c.objects.filter fun row => row.1 ≠ digest }

end Catalog

/-! ## Leases and the cache directory -/

inductive Purpose where
  | publication | read | mapping | view
  deriving DecidableEq, Repr

def Purpose.text : Purpose → String
  | .publication => "publication"
  | .read => "read"
  | .mapping => "mapping"
  | .view => "view"

/-- A directory below `leases`. -/
structure Lease where
  name : Nat
  owner : Nat
  purpose : Purpose
  digest : Digest
  /-- The receipt has been written. -/
  written : Bool
  /-- The owner holds the kernel lock. -/
  held : Bool
  deriving DecidableEq

def Lease.Active (lease : Lease) : Prop := lease.written = true ∧ lease.held = true

instance (lease : Lease) : Decidable lease.Active := inferInstanceAs (Decidable (_ ∧ _))

/-- The cache directory. -/
structure Store (Tree : Type) where
  objects : Digest → Option (Object Tree)
  garbage : Digest → Option (Object Tree)
  catalog : Catalog
  leases : List Lease
  /-- Names of the lease directories below `quarantine`. -/
  quarantine : List Nat
  /-- Derivation and output hash of the mappings below `derivations`. -/
  derivations : List (String × Digest)

namespace Store

variable {Tree : Type}

def empty : Store Tree := ⟨fun _ => none, fun _ => none, .empty, [], [], []⟩

def setObject (s : Store Tree) (digest : Digest) (object : Option (Object Tree)) : Store Tree :=
  { s with objects := Function.update s.objects digest object }

def setGarbage (s : Store Tree) (digest : Digest) (object : Option (Object Tree)) : Store Tree :=
  { s with garbage := Function.update s.garbage digest object }

/-- The purposes under which active leases carry a digest, as `leases_by_digest` lists them. -/
def leasePurposes (s : Store Tree) (digest : Digest) : List String :=
  (((s.leases.filter fun lease => lease.Active ∧ lease.digest = digest).map
    fun lease => lease.purpose.text).dedup).insertionSort (· ≤ ·)

/-- A root names the digest or an active lease carries it. -/
def Protected (s : Store Tree) (digest : Digest) : Prop :=
  (∃ row ∈ s.catalog.roots, row.2 = digest) ∨
    ∃ lease ∈ s.leases, lease.Active ∧ lease.digest = digest

theorem rootNames_eq_nil {c : Catalog} {digest : Digest} :
    c.rootNames digest = [] ↔ ∀ row ∈ c.roots, row.2 ≠ digest := by
  unfold Catalog.rootNames
  rw [← List.length_eq_zero_iff, List.length_insertionSort, List.length_map,
    List.length_eq_zero_iff, List.filter_eq_nil_iff]
  simp only [decide_eq_true_eq, ne_eq]

theorem leasePurposes_eq_nil {s : Store Tree} {digest : Digest} :
    s.leasePurposes digest = [] ↔ ∀ lease ∈ s.leases, lease.Active → lease.digest ≠ digest := by
  unfold leasePurposes
  rw [List.eq_nil_iff_forall_not_mem]
  simp only [List.mem_insertionSort, List.mem_dedup, List.mem_map, List.mem_filter,
    decide_eq_true_eq, not_exists, not_and, and_imp, ne_eq]
  constructor
  · intro none lease member active same
    exact none _ lease member active same rfl
  · intro none _ lease member active same
    exact absurd same (none lease member active)

/-- The two lists of a target report are empty exactly for an unprotected digest. -/
theorem not_protected_iff {s : Store Tree} {digest : Digest} :
    ¬s.Protected digest ↔ s.catalog.rootNames digest = [] ∧ s.leasePurposes digest = [] := by
  rw [rootNames_eq_nil, leasePurposes_eq_nil]
  unfold Protected
  push Not
  rfl

end Store

/-! ## Targets -/

/-- The name of an object directory. -/
def targetId (digest : Digest) : String := "tree-v1-" ++ digest.hex

def parseTarget (id : String) : Except ArtifactStoreError Digest :=
  if startsWith "tree-v1-" id = true then
    expect (Digest.parse (id.toList.drop "tree-v1-".toList.length)) (.invalidTarget id)
  else .error (.invalidTarget id)

/-- A target is read from its directory name and from no other text. -/
theorem parseTarget_eq_ok {id : String} {digest : Digest} :
    parseTarget id = .ok digest ↔ id = targetId digest := by
  have spelled : (targetId digest).toList = "tree-v1-".toList ++ digest.hex.toList := by
    unfold targetId
    rw [String.toList_append]
  unfold parseTarget startsWith
  constructor
  · intro read
    split at read
    · rename_i start
      obtain ⟨rest, same⟩ := List.isPrefixOf_iff_prefix.mp start
      rw [ok_expect, ← same, List.drop_left] at read
      refine String.toList_injective ?_
      rw [spelled, ← same, Digest.hex_of_parse read]
    · cases read
  · rintro rfl
    rw [if_pos (List.isPrefixOf_iff_prefix.mpr ⟨_, spelled.symm⟩), ok_expect, spelled,
      List.drop_left, Digest.parse_hex]

theorem targetId_injective {a b : Digest} (same : targetId a = targetId b) : a = b := by
  have left := parseTarget_eq_ok.mpr (rfl : targetId a = targetId a)
  rw [same, parseTarget_eq_ok.mpr (rfl : targetId b = targetId b)] at left
  exact (Except.ok.inj left).symm

/-- `targets`: the named digests in the order of their names, or the first bad name. -/
def targets : List String → Except ArtifactStoreError (List (String × Digest))
  | [] => .ok []
  | id :: rest => do
      let digest ← parseTarget id
      let others ← targets rest
      return Lib.insertEntry id digest others

/-! ## Validation of a collection -/

inductive CacheTargetState where
  | retained | deleted | wouldDelete | missing
  deriving DecidableEq, Repr

structure CacheTargetReport where
  id : String
  state : CacheTargetState
  roots : List String
  leases : List String
  deriving DecidableEq

section Collection

variable {Tree : Type} (trees : Trees Tree)

/-- `verify_registered`: content and, for a registered tree, its marker. -/
def verifyRegistered (object : Object Tree) (digest : Digest) (catalog : Catalog) :
    Except ArtifactStoreError Unit := do
  verifyObject trees object digest
  match catalog.manifest digest with
  | some expected => do
      let marker ← markerHash trees object
      reject (marker ≠ expected) .changedContent
  | none => .ok ()

/-- A live object must verify. -/
def verifyLive (s : Store Tree) (digest : Digest) : Except ArtifactStoreError Unit :=
  match s.objects digest with
  | some live => verifyRegistered trees live digest s.catalog
  | none => .ok ()

/-- Garbage must be claimed, and verify unless its move has been recorded. -/
def verifyGarbage (s : Store Tree) (digest : Digest) : Except ArtifactStoreError Unit :=
  match s.garbage digest with
  | none => .ok ()
  | some garbage =>
      match s.catalog.detached digest with
      | some true => .ok ()
      | some false => verifyRegistered trees garbage digest s.catalog
      | none => .error (.catalog "unclaimed garbage path")

/-- The content checks on one unprotected target. -/
def verifyTarget (s : Store Tree) (digest : Digest) : Except ArtifactStoreError Unit := do
  verifyLive trees s digest
  verifyGarbage trees s digest

/-- Something of the target is left to remove. -/
def Store.Present (s : Store Tree) (digest : Digest) : Prop :=
  (s.objects digest).isSome ∨ (s.garbage digest).isSome ∨ (s.catalog.detached digest).isSome

instance (s : Store Tree) (digest : Digest) : Decidable (s.Present digest) :=
  inferInstanceAs (Decidable (_ ∨ _))

/-- The report on one target of a collection. -/
def validateTarget (s : Store Tree) (dryRun : Bool) (target : String × Digest) :
    Except ArtifactStoreError CacheTargetReport := do
  reject (s.catalog.manifest target.2 = none) (.unknownTarget target.1)
  let report : CacheTargetReport :=
    { id := target.1, state := .retained, roots := s.catalog.rootNames target.2,
      leases := s.leasePurposes target.2 }
  if report.roots = [] ∧ report.leases = [] then do
    verifyTarget trees s target.2
    return { report with
      state :=
        if s.Present target.2 then (if dryRun then .wouldDelete else .deleted) else .missing }
  else return report

/-- The reports on all targets, in order; the first failure ends the collection. -/
def validateTargets (s : Store Tree) (dryRun : Bool) :
    List (String × Digest) → Except ArtifactStoreError (List (CacheTargetReport × Digest))
  | [] => .ok []
  | target :: rest => do
      let report ← validateTarget trees s dryRun target
      let others ← validateTargets s dryRun rest
      return (report, target.2) :: others

/-- The targets of a collection: the named ones, or every registered tree. -/
def selection (catalog : Catalog) (ids : List String) (named : List (String × Digest)) :
    Except ArtifactStoreError (List (String × Digest)) :=
  if ids = [] then targets (catalog.objects.map fun row => targetId row.1) else .ok named

/-- `collect` up to its first write: the report on every target with its digest. -/
def collectReport (s : Store Tree) (ids : List String) (dryRun : Bool) :
    Except ArtifactStoreError (List (CacheTargetReport × Digest)) := do
  let named ← targets ids
  let snapshot ← s.catalog.read
  let selected ← selection snapshot ids named
  validateTargets trees s dryRun selected

/-- The digests of the targets a collection is going to delete. -/
def deletions (report : List (CacheTargetReport × Digest)) : List Digest :=
  (report.filter fun entry => entry.1.state = .deleted).map Prod.snd

end Collection

end Metewand.ArtifactStore
