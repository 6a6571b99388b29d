import Metewand.RunStore.Registered
import Metewand.Archive.Soundness
import Metewand.Core.Encoding

/-!
# Observation documents carry their identity

The observation a store registers is exported with the document it was registered with, and
the archive recomputes the identity of the observation from that document
(`verifyObservation_records`).  Two rows with one identity that are both accepted agree on
everything the identity covers, unless two representations have one hash
(`sameObservation_of_verify`).
-/

namespace Metewand.RunStore

open Lib Lib.Check Archive

variable {hash : Hasher}

/-! ## Durations -/

theorem normalize_duration {duration : Duration} (bounded : duration.secs ≤ maxSafeInteger) :
    duration.json.normalize = .ok duration.json := by
  have below : duration.nanos ≤ maxSafeInteger := by
    have := duration.subsecond
    have : 1000000000 ≤ maxSafeInteger := by decide
    omega
  exact Json.normalize_object (.cons ⟨rfl, Json.normalize_nat.mpr ⟨bounded, rfl⟩⟩
    (.cons ⟨rfl, Json.normalize_nat.mpr ⟨below, rfl⟩⟩ .nil))

/-- The count of nanoseconds is read back as the duration. -/
theorem duration_of_nanos (duration : Duration) :
    Json.object [("seconds", .nat (duration.asNanos / 1000000000)),
      ("nanoseconds", .nat (duration.asNanos % 1000000000))] = duration.json := by
  have := duration.subsecond
  have seconds : duration.asNanos / 1000000000 = duration.secs := by
    unfold Duration.asNanos
    omega
  have below : duration.asNanos % 1000000000 = duration.nanos := by
    unfold Duration.asNanos
    omega
  rw [seconds, below, Duration.json]

theorem documentDuration_of {document : Json} {key : String} {duration : Duration} {n : Nat}
    (counted : nanoseconds duration = .ok n) (read : (document.get "timing").get key = .nat n) :
    documentDuration document key = .ok duration.json := by
  unfold nanoseconds at counted
  split at counted
  · cases counted
    rename_i bounded
    have some : (document.get "timing").get key ≠ .null := by
      rw [read]
      nofun
    unfold documentDuration
    rw [if_neg some]
    simp only [integer, ok_bind, ok_expect, ok_pure, read]
    exact ⟨duration.asNanos, asU64?_nat bounded, duration_of_nanos duration⟩
  · cases counted

theorem documentDuration_ofOption {document : Json} {key : String} {duration : Option Duration} {v : Json}
    (counted : optionalNanoseconds duration = .ok v) (read : (document.get "timing").get key = v) :
    documentDuration document key = .ok (.ofOption Duration.json duration) := by
  cases duration with
  | none =>
      cases counted
      unfold documentDuration
      rw [if_pos read]
      rfl
  | some duration =>
      obtain ⟨n, passed, rfl⟩ := ok_map.mp counted
      exact documentDuration_of passed read

theorem optionalNanoseconds_normal {duration : Option Duration} {v w : Json}
    (counted : optionalNanoseconds duration = .ok v) (normal : v.normalize = .ok w) : w = v := by
  cases duration with
  | none =>
      cases counted
      cases normal
      rfl
  | some duration =>
      obtain ⟨n, -, rfl⟩ := ok_map.mp counted
      exact (Json.normalize_nat.mp normal).2

/-! ## The registered document -/

/-- The members of a registered document. -/
structure Renders (id : RecordId .observation) (record : RunObservationRecord) (document : Json) : Prop where
  primary : record.timing.primaryTime = .timedWallTime
  id : document.get "id" = .str id.text
  slot : document.get "slot_id" = .str record.slot.text
  attempt : document.get "attempt_id" = .str record.producingAttempt.text
  result : record.result.json.normalize = .ok (document.get "result")
  metrics : record.metrics.json.normalize = .ok (document.get "metrics")
  valid : (document.get "validity").get "valid" = .bool true
  completion : (document.get "validity").get "completion" = .str record.completion.name
  primaryTime : (document.get "timing").get "primary_time" = .str "timed_wall_time"
  wall : documentDuration document "timed_wall_time_ns" = .ok record.timing.timedWallTime.json
  implementation : documentDuration document "implementation_time_ns" =
    .ok (.ofOption Duration.json record.timing.implementationTime)
  evaluation : documentDuration document "evaluation_time_ns" = .ok record.timing.evaluationTime.json
  cpu : documentDuration document "cpu_time_ns" = .ok (.ofOption Duration.json record.timing.cpuTime)
  peak : (Json.ofOption .nat record.timing.peakRssBytes).normalize =
    .ok ((document.get "timing").get "peak_rss_bytes")
  profile : record.profile.map (fun profile => profile.json.normalize) =
    (member? "profile" document).map .ok

/-- A field of an object whose first fields have other keys. -/
theorem normalize_get_append {fields others : List (String × Json)} {w : Json} {key : String}
    (normal : (Json.object (fields ++ others)).normalize = .ok w) (absent : ∀ field ∈ fields, key ≠ field.1) :
    ((Json.object others).get key).normalize = .ok (w.get key) := by
  have member := Json.normalize_get key normal
  rw [Json.get_object_append absent] at member
  exact member

theorem member_normalize {v w : Json} (normal : v.normalize = .ok w) (key : String) :
    (member? key v).map Json.normalize = (member? key w).map .ok := by
  cases v with
  | obj members =>
      obtain ⟨members', each, rfl⟩ := ok_map.mp normal
      exact Json.normalize_lookup each key
  | null | bool _ | str _ =>
      cases normal
      rfl
  | num n | arr items =>
      obtain ⟨_, -, rfl⟩ := ok_map.mp normal
      rfl

theorem member_object_cons (key k : String) (value : Json) (fields : List (String × Json)) :
    member? k (.object ((key, value) :: fields)) = if k = key then some value else member? k (.object fields) :=
  Json.lookup_insertMember key k value _

theorem member_object_nil (key : String) : member? key (.object []) = none := rfl

theorem canonicalDocument_ok {α : Type} {value : Except Json.CanonicalValueViolation α} {a : α} :
    canonicalDocument value = .ok a ↔ value = .ok a := by
  cases value with
  | ok b => exact ⟨congrArg _ ∘ Except.ok.inj, congrArg _ ∘ Except.ok.inj⟩
  | error e => exact ⟨nofun, nofun⟩

theorem renders_of_document {id : RecordId .observation} {record : RunObservationRecord} {document : Json}
    (identity : recordId hash record = .ok id) (rendered : observationDocument hash record = .ok document) :
    Renders id record document := by
  by_cases primary : record.timing.primaryTime = .timedWallTime
  swap
  · simp only [observationDocument, if_pos primary] at rendered
    cases rendered
  simp only [observationDocument, if_neg (not_not.mpr primary), identity, ok_bind, ok_pure,
    canonicalDocument_ok, Except.ok.injEq] at rendered
  obtain ⟨_, rfl, wall, counted, implementation, optional, evaluation, counted', cpu, optional', normal⟩ :=
    rendered
  have absent : ∀ key, key ≠ "profile" → ∀ field ∈ record.profileField, key ≠ field.1 := by
    intro key other
    unfold RunObservationRecord.profileField
    cases record.profile with
    | none => simp
    | some profile => simp [other]
  have field := fun key (other : key ≠ "profile") => normalize_get_append normal (absent key other)
  have named := field "id" (by decide)
  have slot := field "slot_id" (by decide)
  have attempt := field "attempt_id" (by decide)
  have result := field "result" (by decide)
  have metrics := field "metrics" (by decide)
  have timing := field "timing" (by decide)
  have validity := field "validity" (by decide)
  simp only [Json.get_object_cons, String.reduceEq, if_true, if_false] at named slot attempt
  simp only [Json.get_object_cons, String.reduceEq, if_true, if_false] at result metrics timing validity
  have valid := Json.normalize_get "valid" validity
  have completion := Json.normalize_get "completion" validity
  have primaryTime := Json.normalize_get "primary_time" timing
  have wallTime := Json.normalize_get "timed_wall_time_ns" timing
  have implementationTime := Json.normalize_get "implementation_time_ns" timing
  have evaluationTime := Json.normalize_get "evaluation_time_ns" timing
  have cpuTime := Json.normalize_get "cpu_time_ns" timing
  have peak := Json.normalize_get "peak_rss_bytes" timing
  simp only [Json.get_object_cons, String.reduceEq, if_true, if_false] at valid completion primaryTime
  simp only [Json.get_object_cons, String.reduceEq, if_true, if_false] at wallTime implementationTime
  simp only [Json.get_object_cons, String.reduceEq, if_true, if_false] at evaluationTime cpuTime peak
  have text : ∀ {s : String} {v : Json}, (Json.str s).normalize = .ok v → v = .str s :=
    fun same => (Except.ok.inj same).symm
  have whole : ∀ {n : Nat} {v : Json}, (Json.nat n).normalize = .ok v → v = .nat n :=
    fun same => (Json.normalize_nat.mp same).2
  exact {
    primary := primary
    id := text named
    slot := text slot
    attempt := text attempt
    result := result
    metrics := metrics
    valid := (Except.ok.inj valid).symm
    completion := text completion
    primaryTime := text primaryTime
    wall := documentDuration_of counted (whole wallTime)
    implementation := documentDuration_ofOption optional (optionalNanoseconds_normal optional implementationTime)
    evaluation := documentDuration_of counted' (whole evaluationTime)
    cpu := documentDuration_ofOption optional' (optionalNanoseconds_normal optional' cpuTime)
    peak := peak
    profile := by
      have member := member_normalize normal "profile"
      unfold RunObservationRecord.profileField at member
      cases found : record.profile with
      | none =>
          rw [found] at member
          simpa [member_object_cons, member_object_nil] using member
      | some profile =>
          rw [found] at member
          simpa [member_object_cons] using member }

/-! ## The archive accepts the row -/

theorem verifyIdentity_of_normalize {kind : IdentityKind} {id : RecordId kind} {representation canonical : Json}
    (version : representation.get "version" = .nat identityVersion)
    (normal : representation.normalize = .ok canonical) (hashed : id = ⟨hash kind canonical⟩) :
    verifyIdentity hash kind id.text representation = .ok () := by
  unfold verifyIdentity
  rw [RecordId.parse_eq_ok.mpr rfl, normal]
  simp only [ok_bind, ok_reject, not_not]
  exact ⟨(), version, hashed⟩

/-- The fields of a representation besides the profile. -/
def representationFields (row document wall implementation evaluation cpu : Json) : List (String × Json) := [
  ("version", .nat identityVersion),
  ("slot", row.get "slot_id"),
  ("producing_attempt", row.get "attempt_id"),
  ("result", document.get "result"),
  ("metrics", document.get "metrics"),
  ("completion", row.get "completion"),
  ("timing", .object [
    ("primary_time", (document.get "timing").get "primary_time"),
    ("timed_wall_time", wall),
    ("implementation_time", implementation),
    ("evaluation_time", evaluation),
    ("cpu_time", cpu),
    ("peak_rss_bytes", (document.get "timing").get "peak_rss_bytes")])]

section Representation

variable {row document wall implementation evaluation cpu : Json}

theorem observationRepresentation_some {p : Json} (present : member? "profile" document = some p) :
    observationRepresentation row document wall implementation evaluation cpu =
      .object (("profile", p) :: representationFields row document wall implementation evaluation cpu) := by
  unfold observationRepresentation
  rw [present]
  rfl

theorem observationRepresentation_none (absent : member? "profile" document = none) :
    observationRepresentation row document wall implementation evaluation cpu =
      .object (representationFields row document wall implementation evaluation cpu) := by
  unfold observationRepresentation
  rw [absent]
  rfl

theorem representation_get {key : String} (other : key ≠ "profile") :
    (observationRepresentation row document wall implementation evaluation cpu).get key =
      (Json.object (representationFields row document wall implementation evaluation cpu)).get key := by
  cases profile : member? "profile" document with
  | none => rw [observationRepresentation_none profile]
  | some p => rw [observationRepresentation_some profile, Json.get_object_cons, if_neg other]

theorem representation_version :
    (observationRepresentation row document wall implementation evaluation cpu).get "version" =
      .nat identityVersion := by
  rw [representation_get (by decide), representationFields, Json.get_object_cons, if_pos rfl]

theorem representation_profile :
    member? "profile" (observationRepresentation row document wall implementation evaluation cpu) =
      member? "profile" document := by
  cases profile : member? "profile" document with
  | none =>
      rw [observationRepresentation_none profile]
      simp [representationFields, member_object_cons, member_object_nil]
  | some p => rw [observationRepresentation_some profile, member_object_cons, if_pos rfl]

end Representation

/-- The representation a row determines is that of the record. -/
theorem Renders.representation {id : RecordId .observation} {record : RunObservationRecord}
    {document row : Json} (renders : Renders id record document)
    (slot : row.get "slot_id" = .str record.slot.text)
    (attempt : row.get "attempt_id" = .str record.producingAttempt.text)
    (completion : row.get "completion" = .str record.completion.name) :
    (observationRepresentation row document record.timing.timedWallTime.json
      (.ofOption Duration.json record.timing.implementationTime) record.timing.evaluationTime.json
      (.ofOption Duration.json record.timing.cpuTime)).normalize = canonicalIdentity record := by
  have same : ∀ {key : String} {v w : Json}, v.normalize = .ok w → Json.SameMember (key, w) (key, v) :=
    fun normal => ⟨rfl, (Json.normalize_idempotent normal).trans normal.symm⟩
  have own : ∀ {key : String} {v : Json}, Json.SameMember (key, v) (key, v) := ⟨rfl, rfl⟩
  have timing : Json.SameMember
      ("timing", .object [("primary_time", (document.get "timing").get "primary_time"),
        ("timed_wall_time", record.timing.timedWallTime.json),
        ("implementation_time", .ofOption Duration.json record.timing.implementationTime),
        ("evaluation_time", record.timing.evaluationTime.json),
        ("cpu_time", .ofOption Duration.json record.timing.cpuTime),
        ("peak_rss_bytes", (document.get "timing").get "peak_rss_bytes")])
      ("timing", record.timing.json) := by
    refine ⟨rfl, Json.normalize_object_congr (.cons ?_ (.cons own (.cons own (.cons own (.cons own
      (.cons (same renders.peak) .nil))))))⟩
    rw [renders.primaryTime, renders.primary]
    exact own
  have profile := renders.profile
  unfold canonicalIdentity
  simp only [IdentityRecord.identityFields, RunObservationRecord.profileField]
  cases found : record.profile with
  | none =>
      rw [found] at profile
      have absent : member? "profile" document = none := by simpa using profile.symm
      rw [observationRepresentation_none absent, representationFields, slot, attempt, completion]
      refine (congrArg Json.normalize (Json.object_congr ?_ (by simp))).trans
        (Json.normalize_object_congr (.cons own (.cons own (.cons own (.cons (same renders.result)
          (.cons (same renders.metrics) (.cons timing (.cons own .nil))))))))
      exact (((((List.Perm.swap _ _ _).cons _).cons _).cons _).cons _).cons _
  | some evidence =>
      rw [found] at profile
      obtain ⟨p, present, normal⟩ : ∃ p, member? "profile" document = some p ∧
          evidence.json.normalize = .ok p := by
        cases member : member? "profile" document with
        | none =>
            rw [member] at profile
            cases profile
        | some p =>
            rw [member] at profile
            exact ⟨p, rfl, Option.some.inj profile⟩
      rw [observationRepresentation_some present, representationFields, slot, attempt, completion]
      refine (congrArg Json.normalize (@Json.object_congr (("profile", p) :: _) _ ?_ (by simp))).trans
        (Json.normalize_object_congr (.cons own (.cons (same normal) (.cons own (.cons own
          (.cons (same renders.result) (.cons (same renders.metrics) (.cons timing (.cons own .nil)))))))))
      exact (List.Perm.swap _ _ _).trans
        ((((((List.Perm.swap _ _ _).cons _).cons _).cons _).cons _).cons _ |>.cons _)

/-- The archive accepts the row of a registered observation. -/
theorem verifyObservation_records {observation : IdentifiedRecord RunObservationRecord .observation}
    {o : ObservationRow} (records : o.Records hash observation) (db : Db) :
    verifyObservation hash (o.evidence db).value = .ok () := by
  have renders := renders_of_document records.identity records.document
  have document : (o.evidence db).value.get "definition" = o.recordJson := by
    simp [ObservationRow.evidence, ObservationEvidence.value]
  have id : (o.evidence db).value.get "id" = .str observation.id.text := by
    simp [ObservationRow.evidence, ObservationEvidence.value, records.id]
  have slot : (o.evidence db).value.get "slot_id" = .str observation.record.slot.text := by
    simp [ObservationRow.evidence, ObservationEvidence.value, records.slotId]
  have attempt : (o.evidence db).value.get "attempt_id" = .str observation.record.producingAttempt.text := by
    simp [ObservationRow.evidence, ObservationEvidence.value, records.producer]
  have valid : (o.evidence db).value.get "valid" = .bool true := by
    simp [ObservationRow.evidence, ObservationEvidence.value, records.valid]
  have completion : (o.evidence db).value.get "completion" = .str observation.record.completion.name := by
    simp [ObservationRow.evidence, ObservationEvidence.value, records.completion]
  obtain ⟨canonical, normal, hashed⟩ := ok_map.mp records.identity
  have normal' := renders.representation slot attempt completion
  unfold verifyObservation
  simp only [document, id, slot, attempt, valid, completion, ok_bind, ok_reject, ok_text]
  refine ⟨(), ?_, _, renders.wall, _, renders.implementation, _, renders.evaluation, _, renders.cpu, _, rfl,
    verifyIdentity_of_normalize representation_version (normal'.trans normal) hashed.symm⟩
  simp [renders.id, renders.slot, renders.attempt, renders.valid, renders.completion]

/-! ## Two rows with one identity -/

/-- The representation the archive computes from a row. -/
def rowRepresentation (row : Json) : Checked Json := do
  let document := row.get "definition"
  let wall ← documentDuration document "timed_wall_time_ns"
  let implementation ← documentDuration document "implementation_time_ns"
  let evaluation ← documentDuration document "evaluation_time_ns"
  let cpu ← documentDuration document "cpu_time_ns"
  return observationRepresentation row document wall implementation evaluation cpu

/-- No two different representations of the rows have one hash. -/
def Distinguishes (hash : Hasher) (row row' : Json) : Prop :=
  ∀ r r' v v', rowRepresentation row = .ok r → rowRepresentation row' = .ok r' → r.normalize = .ok v →
    r'.normalize = .ok v' → hash .observation v = hash .observation v' → v = v'

/-- Values that denote the same: their canonical forms agree. -/
def SameValue (v w : Json) : Prop := v.normalize = w.normalize

/-- The counts of nanoseconds of a document. -/
def durationKeys : List String :=
  ["timed_wall_time_ns", "implementation_time_ns", "evaluation_time_ns", "cpu_time_ns"]

/-- Two rows agree on everything an identity covers, in the document and in the row's copies. -/
structure SameObservation (row row' : Json) : Prop where
  /-- `slot_id` and `attempt_id` of the row and of its document. -/
  references : ∀ key ∈ ["slot_id", "attempt_id"], SameValue (row.get key) (row'.get key) ∧
    SameValue ((row.get "definition").get key) ((row'.get "definition").get key)
  completion : SameValue (row.get "completion") (row'.get "completion") ∧
    SameValue (((row.get "definition").get "validity").get "completion")
      (((row'.get "definition").get "validity").get "completion")
  artifacts : ∀ key ∈ ["result", "metrics"],
    SameValue ((row.get "definition").get key) ((row'.get "definition").get key)
  durations : ∀ key ∈ durationKeys, ((row.get "definition").get "timing").get key =
    ((row'.get "definition").get "timing").get key
  measures : ∀ key ∈ ["primary_time", "peak_rss_bytes"],
    SameValue (((row.get "definition").get "timing").get key) (((row'.get "definition").get "timing").get key)
  /-- Present in both with one value, or absent from both. -/
  profile : (member? "profile" (row.get "definition")).map Json.normalize =
    (member? "profile" (row'.get "definition")).map Json.normalize

/-- What an accepted row has. -/
theorem verifyObservation_parts {row : Json} (accepted : verifyObservation hash row = .ok ()) :
    ∃ wall implementation evaluation cpu id canonical,
      documentDuration (row.get "definition") "timed_wall_time_ns" = .ok wall ∧
      documentDuration (row.get "definition") "implementation_time_ns" = .ok implementation ∧
      documentDuration (row.get "definition") "evaluation_time_ns" = .ok evaluation ∧
      documentDuration (row.get "definition") "cpu_time_ns" = .ok cpu ∧
      (row.get "definition").get "slot_id" = row.get "slot_id" ∧
      (row.get "definition").get "attempt_id" = row.get "attempt_id" ∧
      ((row.get "definition").get "validity").get "completion" = row.get "completion" ∧
      row.get "id" = .str id ∧ id = (⟨hash .observation canonical⟩ : RecordId .observation).text ∧
      (observationRepresentation row (row.get "definition") wall implementation evaluation cpu).normalize =
        .ok canonical := by
  simp only [verifyObservation, ok_bind, ok_reject, ok_text, not_or, not_not] at accepted
  obtain ⟨-, ⟨-, slot, attempt, -, completion⟩, wall, first, implementation, second, evaluation, third, cpu,
    fourth, id, named, identity⟩ := accepted
  obtain ⟨-, canonical, normal, hashed⟩ := verifyIdentity_ok identity
  exact ⟨wall, implementation, evaluation, cpu, id, canonical, first, second, third, fourth, slot, attempt,
    completion, named, hashed, normal⟩

/-- The duration a count of nanoseconds is written as. -/
def Duration.ofNanos (n : Nat) : Duration := ⟨n / 1000000000, n % 1000000000, Nat.mod_lt _ (by decide)⟩

theorem documentDuration_ok {document : Json} {key : String} {v : Json}
    (read : documentDuration document key = .ok v) :
    ((document.get "timing").get key = .null ∧ v = .null) ∨
      ∃ n, (document.get "timing").get key = .nat n ∧ n < 2 ^ 64 ∧ v = (Duration.ofNanos n).json := by
  unfold documentDuration at read
  split at read
  · rename_i absent
    cases read
    exact .inl ⟨absent, rfl⟩
  · simp only [integer, ok_bind, ok_expect, ok_pure] at read
    obtain ⟨n, found, rfl⟩ := read
    obtain ⟨shape, bounded⟩ := asU64?_eq_some found
    exact .inr ⟨n, shape, bounded, rfl⟩

/-- A duration determines the count it was made of. -/
theorem documentDuration_injective {document document' : Json} {key : String} {v v' : Json}
    (first : documentDuration document key = .ok v) (second : documentDuration document' key = .ok v')
    (same : v.normalize = v'.normalize) :
    (document.get "timing").get key = (document'.get "timing").get key := by
  have normal : ∀ {n : Nat}, n < 2 ^ 64 → (Duration.ofNanos n).json.normalize = .ok (Duration.ofNanos n).json := by
    intro n bounded
    refine normalize_duration ?_
    have : maxSafeInteger = 9007199254740991 := by decide
    simp only [Duration.ofNanos]
    omega
  rcases documentDuration_ok first with ⟨absent, rfl⟩ | ⟨n, read, bounded, rfl⟩
  · rcases documentDuration_ok second with ⟨absent', rfl⟩ | ⟨n', read', bounded', rfl⟩
    · rw [absent, absent']
    · rw [normal bounded'] at same
      cases same
  · rcases documentDuration_ok second with ⟨absent', rfl⟩ | ⟨n', read', bounded', rfl⟩
    · rw [normal bounded] at same
      cases same
    · rw [normal bounded, normal bounded'] at same
      have whole := Except.ok.inj same
      have seconds := congrArg (Json.get "seconds") whole
      have nanos := congrArg (Json.get "nanoseconds") whole
      simp [Duration.json, Duration.ofNanos, Json.nat] at seconds nanos
      rw [read, read']
      have equal : n = n' := by omega
      rw [equal]

/-- Accepted rows with one identity agree on what it covers. -/
theorem sameObservation_of_verify {row row' : Json} (accepted : verifyObservation hash row = .ok ())
    (accepted' : verifyObservation hash row' = .ok ()) (id : row'.get "id" = row.get "id")
    (distinguishes : Distinguishes hash row row') : SameObservation row row' := by
  obtain ⟨wall, implementation, evaluation, cpu, name, canonical, readWall, readImplementation, readEvaluation,
    readCpu, slot, attempt, completion, named, hashed, normal⟩ := verifyObservation_parts accepted
  obtain ⟨wall', implementation', evaluation', cpu', name', canonical', readWall', readImplementation',
    readEvaluation', readCpu', slot', attempt', completion', named', hashed', normal'⟩ :=
    verifyObservation_parts accepted'
  -- the two canonical forms are one
  have equal : canonical = canonical' := by
    have names : name = name' := by
      rw [named, named'] at id
      exact (Json.str.inj id).symm
    rw [hashed, hashed'] at names
    refine distinguishes _ _ canonical canonical' ?_ ?_ normal normal'
      (congrArg RecordId.digest (RecordId.text_injective names))
    · simp only [rowRepresentation, ok_bind, ok_pure]
      exact ⟨wall, readWall, implementation, readImplementation, evaluation, readEvaluation, cpu, readCpu, rfl⟩
    · simp only [rowRepresentation, ok_bind, ok_pure]
      exact ⟨wall', readWall', implementation', readImplementation', evaluation', readEvaluation', cpu',
        readCpu', rfl⟩
  subst equal
  have member : ∀ key, key ≠ "profile" → SameValue
      ((Json.object (representationFields row (row.get "definition") wall implementation evaluation cpu)).get key)
      ((Json.object (representationFields row' (row'.get "definition") wall' implementation' evaluation'
        cpu')).get key) := by
    intro key other
    have left := Json.normalize_get key normal
    have right := Json.normalize_get key normal'
    rw [representation_get other] at left right
    exact left.trans right.symm
  have slots := member "slot" (by decide)
  have attempts := member "producing_attempt" (by decide)
  have completions := member "completion" (by decide)
  have results := member "result" (by decide)
  have metrics := member "metrics" (by decide)
  have timing : ∀ {r d w i e c : Json}, (observationRepresentation r d w i e c).normalize = .ok canonical →
      (Json.object [("primary_time", (d.get "timing").get "primary_time"), ("timed_wall_time", w),
        ("implementation_time", i), ("evaluation_time", e), ("cpu_time", c),
        ("peak_rss_bytes", (d.get "timing").get "peak_rss_bytes")]).normalize = .ok (canonical.get "timing") := by
    intro r d w i e c normal
    have inside := Json.normalize_get "timing" normal
    rw [representation_get (by decide)] at inside
    simpa only [representationFields, Json.get_object_cons, String.reduceEq, if_true, if_false] using inside
  have time := fun key => (Json.normalize_get key (timing normal)).trans (Json.normalize_get key (timing normal')).symm
  have walls := time "timed_wall_time"
  have implementations := time "implementation_time"
  have evaluations := time "evaluation_time"
  have cpus := time "cpu_time"
  have primaries := time "primary_time"
  have peaks := time "peak_rss_bytes"
  simp only [representationFields, Json.get_object_cons, String.reduceEq, if_true, if_false] at slots attempts
  simp only [representationFields, Json.get_object_cons, String.reduceEq, if_true, if_false] at completions
  simp only [representationFields, Json.get_object_cons, String.reduceEq, if_true, if_false] at results metrics
  simp only [Json.get_object_cons, String.reduceEq, if_true, if_false] at walls implementations evaluations
  simp only [Json.get_object_cons, String.reduceEq, if_true, if_false] at cpus primaries peaks
  have profile := member_normalize normal "profile"
  have profile' := member_normalize normal' "profile"
  rw [representation_profile] at profile profile'
  refine ⟨?_, ⟨completions, by rw [completion, completion']; exact completions⟩, ?_, ?_, ?_,
    profile.trans profile'.symm⟩
  · simp only [List.forall_mem_cons, slot, slot', attempt, attempt']
    exact ⟨⟨slots, slots⟩, ⟨attempts, attempts⟩, by simp⟩
  · simp only [List.forall_mem_cons]
    exact ⟨results, metrics, by simp⟩
  · simp only [durationKeys, List.forall_mem_cons]
    exact ⟨documentDuration_injective readWall readWall' walls,
      documentDuration_injective readImplementation readImplementation' implementations,
      documentDuration_injective readEvaluation readEvaluation' evaluations,
      documentDuration_injective readCpu readCpu' cpus, by simp⟩
  · simp only [List.forall_mem_cons]
    exact ⟨primaries, peaks, by simp⟩

/-- The row a store keeps of an observation passes, and another row with its identity passes only
when it agrees on everything the identity covers. -/
theorem observation_identity (hash : Hasher) :
    (∀ (record : RunObservationRecord) (id : RecordId .observation) (document : Json),
      recordId hash record = .ok id → observationDocument hash record = .ok document →
      ∀ (slot : RecordId .resolvedAttemptSlot) (artifact : String) (db : Db), verifyObservation hash
        ((ObservationRow.mk id record.slot record.producingAttempt slot true record.completion artifact
          document).evidence db).value = .ok ()) ∧
    ∀ row row' : Json, verifyObservation hash row = .ok () → row'.get "id" = row.get "id" →
      Distinguishes hash row row' → ¬SameObservation row row' → verifyObservation hash row' ≠ .ok () := by
  refine ⟨fun record id document identity rendered slot artifact db => ?_, ?_⟩
  · exact @verifyObservation_records hash ⟨id, record⟩ _ ⟨identity, rfl, rfl, rfl, rfl, rfl, rendered⟩ db
  · intro row row' accepted id distinguishes apart accepted'
    exact apart (sameObservation_of_verify accepted accepted' id distinguishes)

/-! ## A sample -/

def sampleDocument : Json :=
  (observationDocument sampleHash (sampleObservation 0 1 .reached).record).toOption.getD .null

/-- The exported row of the sample observation with the given document. -/
def sampleRow (document : Json) : Json :=
  ((ObservationRow.mk (sampleObservation 0 1 .reached).id sampleObservationSlot.id (sampleAttempt 0) sampleSlot.id
    true .reached "artifact" document).evidence (Db.create 3)).value

/-- The sample document with another peak memory. -/
def sampleEdit : Json :=
  sampleDocument.set "timing" ((sampleDocument.get "timing").set "peak_rss_bytes" (.nat 2))

theorem observation_identity_sample : verifyObservation sampleHash (sampleRow sampleDocument) = .ok () ∧
    verifyObservation sampleHash (sampleRow sampleEdit) ≠ .ok () := by
  obtain ⟨passes, edited⟩ := observation_identity sampleHash
  have identity : recordId sampleHash (sampleObservation 0 1 .reached).record =
      .ok (sampleObservation 0 1 .reached).id := by decide +kernel
  have rendered : observationDocument sampleHash (sampleObservation 0 1 .reached).record = .ok sampleDocument :=
    Check.toOption_eq_some.mp (by decide +kernel)
  have accepted := passes _ _ _ identity rendered sampleSlot.id "artifact" (Db.create 3)
  refine ⟨accepted, edited _ _ accepted (by decide +kernel) ?_ ?_⟩
  · intro r r' v v' first second normal normal' same
    have one : (rowRepresentation (sampleRow sampleDocument)).toOption = some r := toOption_eq_some.mpr first
    have two : (rowRepresentation (sampleRow sampleEdit)).toOption = some r' := toOption_eq_some.mpr second
    have hashes : ((rowRepresentation (sampleRow sampleDocument)).toOption.bind fun r =>
        r.normalize.toOption.map (sampleHash .observation)) ≠
          (rowRepresentation (sampleRow sampleEdit)).toOption.bind fun r =>
            r.normalize.toOption.map (sampleHash .observation) := by decide +kernel
    rw [one, two, Option.bind_some, Option.bind_some, normal, normal'] at hashes
    exact absurd (congrArg some same) hashes
  · intro agree
    have peaks := agree.measures "peak_rss_bytes" (by simp)
    revert peaks
    unfold SameValue
    decide +kernel

end Metewand.RunStore
