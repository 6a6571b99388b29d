import Metewand.Archive.Validation

/-!
# What the indexes and histories of accepted evidence hold

One rule for each reading primitive of the validator.  `Lists xs value f m` says
that the index `m` has exactly the rows of the typed records `xs`, each under its
own key; `checkHistory_ok` reads the loop over a history as a chain of typed
transitions.
-/

namespace Metewand.Archive

open Lib Check

/-! ## Fields -/

@[simp]
theorem ok_text {row : Json} {key value : String} :
    text row key = .ok value ↔ row.get key = .str value := by
  unfold text
  rw [ok_expect]
  cases row.get key <;> simp [Json.asStr?]

theorem asU64?_eq_some {value : Json} {n : Nat} (read : asU64? value = some n) :
    value = .nat n ∧ n < 2 ^ 64 := by
  unfold asU64? at read
  split at read
  · split at read
    · rename_i bounds
      cases read
      refine ⟨?_, by omega⟩
      unfold Json.nat
      rw [Int.toNat_of_nonneg bounds.1]
    · cases read
  · cases read

theorem asU64?_nat {n : Nat} (small : n < 2 ^ 64) : asU64? (.nat n) = some n := by
  simp only [asU64?, Json.nat]
  rw [if_pos (by omega), Int.toNat_natCast]

theorem ok_integer {row : Json} {key : String} {n : Nat} (read : integer row key = .ok n) :
    row.get key = .nat n ∧ n < 2 ^ 64 :=
  asU64?_eq_some (ok_expect.mp read)

@[simp]
theorem ok_timestamp {row : Json} {key : String} {n : Nat} :
    timestamp row key = .ok n ↔ ∃ value, row.get key = .str value ∧ parseUnsigned value = some n := by
  unfold timestamp
  simp

@[simp]
theorem ok_reference {index : Index} {row target : Json} {key : String} :
    reference index row key = .ok target ↔
      ∃ id, row.get key = .str id ∧ index.get id = some target := by
  unfold reference
  simp

@[simp]
theorem nat_inj {m n : Nat} : Json.nat m = .nat n ↔ m = n := by
  unfold Json.nat
  simp

@[simp]
theorem optionalText_inj {a b : Option String} : optionalText a = optionalText b ↔ a = b := by
  cases a <;> cases b <;> simp [optionalText, Json.ofOption]

@[simp]
theorem optionalText_eq_str {a : Option String} {b : String} :
    optionalText a = .str b ↔ a = some b := by
  cases a <;> simp [optionalText, Json.ofOption]

@[simp]
theorem optionalText_eq_null {a : Option String} : optionalText a = .null ↔ a = none := by
  cases a <;> simp [optionalText, Json.ofOption]

/-! ## Indexes -/

/-- The index holds exactly the rows, each under the text of its key field. -/
structure Indexed (rows : List Json) (key : String) (m : Index) : Prop where
  keyed : ∀ row ∈ rows, ∃ id, row.get key = .str id ∧ m.get id = some row
  found : ∀ {id row}, m.get id = some row → row ∈ rows ∧ row.get key = .str id
  nodup : (rows.map fun row => row.get key).Nodup
  values : m.values.Perm rows

theorem values_insertMember {id : String} {row : Json} {m : Index} (new : m.get id = none) :
    (Index.values (Json.insertMember id row m)).Perm (row :: m.values) := by
  induction m with
  | nil => exact .refl _
  | cons entry rest ih =>
      obtain ⟨key, value⟩ := entry
      unfold Index.get at new
      simp only [Json.lookupMember] at new
      split at new
      · cases new
      · rename_i different
        simp only [Json.insertMember, if_neg different]
        split
        · exact .refl _
        · exact ((ih new).cons value).trans (.swap _ _ _)

theorem Indexed.enter {rows : List Json} {key : String} {m m' : Index} {row : Json}
    (old : Indexed rows key m) (entered : enter key m row = .ok m') :
    Indexed (rows ++ [row]) key m' := by
  unfold Archive.enter at entered
  simp only [ok_bind, ok_text, ok_reject, ok_pure, Option.not_isSome_iff_eq_none] at entered
  obtain ⟨id, field, -, new, rfl⟩ := entered
  have lookup : ∀ other, Index.get (Json.insertMember id row m) other =
      if other = id then some row else m.get other :=
    fun other => Json.lookup_insertMember id other row m
  refine ⟨fun r member => ?_, fun {other r} at_ => ?_, ?_, ?_⟩
  · rcases List.mem_append.mp member with older | last
    · obtain ⟨other, text, there⟩ := old.keyed r older
      refine ⟨other, text, ?_⟩
      have different : other ≠ id := by
        rintro rfl
        rw [new] at there
        cases there
      rw [lookup, if_neg different]
      exact there
    · rw [List.mem_singleton.mp last]
      exact ⟨id, field, by rw [lookup, if_pos rfl]⟩
  · rw [lookup] at at_
    split at at_
    · rename_i same
      cases at_
      exact ⟨List.mem_append_right _ (List.mem_singleton_self _), same ▸ field⟩
    · exact (old.found at_).imp_left (List.mem_append_left _)
  · rw [List.map_append, List.map_cons, List.map_nil]
    refine List.Nodup.append old.nodup (List.nodup_singleton _) fun value left right => ?_
    rw [List.mem_singleton.mp right] at left
    obtain ⟨r, member, same⟩ := List.mem_map.mp left
    obtain ⟨other, text, there⟩ := old.keyed r member
    rw [same, field] at text
    cases text
    rw [new] at there
    cases there
  · exact (values_insertMember new).trans
      ((old.values.cons row).trans (List.perm_append_singleton row rows).symm)

theorem index_ok {rows : List Json} {key : String} {m : Index} (built : index rows key = .ok m) :
    Indexed rows key m := by
  have start : Indexed [] key [] := by
    refine ⟨fun _ member => absurd member List.not_mem_nil, fun at_ => ?_, .nil, .refl _⟩
    cases at_
  exact @thread_invariant _ _ _ (enter key) (fun done m => Indexed done key m) [] [] m rows
    (fun old entered => old.enter entered) start built

/-- The index holds the typed records, each under its own key. -/
structure Lists {α : Type} (xs : List α) (value : α → Json) (f : α → String) (m : Index) :
    Prop where
  get : ∀ x ∈ xs, m.get (f x) = some (value x)
  found : ∀ {id row}, m.get id = some row → ∃ x ∈ xs, value x = row ∧ f x = id
  nodup : (xs.map f).Nodup
  values : m.values.Perm (xs.map value)

section Typed

variable {α : Type} {xs : List α} {value : α → Json} {f : α → String} {m : Index} {key : String}

theorem lists_of_index (field : ∀ x, (value x).get key = .str (f x))
    (built : index (xs.map value) key = .ok m) : Lists xs value f m := by
  have indexed := index_ok built
  refine ⟨fun x member => ?_, fun {id row} at_ => ?_, ?_, indexed.values⟩
  · obtain ⟨id, text, there⟩ := indexed.keyed (value x) (List.mem_map_of_mem member)
    rw [field] at text
    cases text
    exact there
  · obtain ⟨member, text⟩ := indexed.found at_
    obtain ⟨x, inside, rfl⟩ := List.mem_map.mp member
    rw [field] at text
    cases text
    exact ⟨x, inside, rfl, rfl⟩
  · have keys := indexed.nodup
    rw [List.map_map] at keys
    refine List.Nodup.of_map Json.str ?_
    rw [List.map_map]
    have same : (fun row : Json => row.get key) ∘ value = Json.str ∘ f := funext field
    rwa [same] at keys

/-- Records under different keys can be indexed. -/
theorem exists_index (field : ∀ x, (value x).get key = .str (f x)) (nodup : (xs.map f).Nodup) :
    ∃ m, index (xs.map value) key = .ok m := by
  have enters : ∀ (start : Index), (∀ x ∈ xs, start.get (f x) = none) →
      ∃ m, thread (enter key) start (xs.map value) = .ok m := by
    induction xs with
    | nil => exact fun start _ => ⟨start, rfl⟩
    | cons x rest ih =>
        intro start free
        rw [List.map_cons, List.nodup_cons] at nodup
        have new : enter key start (value x) = .ok (Json.insertMember (f x) (value x) start) := by
          unfold enter
          simp only [ok_bind, ok_text, ok_reject, ok_pure, field]
          exact ⟨f x, rfl, (), by simp [free x List.mem_cons_self], rfl⟩
        obtain ⟨m, run⟩ := ih nodup.2 (Json.insertMember (f x) (value x) start) fun y member => by
          have different : f y ≠ f x := fun same => nodup.1 (same ▸ List.mem_map_of_mem member)
          unfold Index.get
          rw [Json.lookup_insertMember, if_neg different]
          exact free y (List.mem_cons_of_mem _ member)
        refine ⟨m, ?_⟩
        simp only [List.map_cons, thread, ok_bind]
        exact ⟨_, new, run⟩
  exact enters [] fun _ _ => rfl

/-- The records in another order. -/
theorem Lists.of_perm {ys : List α} (lists : Lists xs value f m) (perm : xs.Perm ys) :
    Lists ys value f m where
  get := fun y member => lists.get y (perm.mem_iff.mpr member)
  found := fun at_ => by
    obtain ⟨x, member, same⟩ := lists.found at_
    exact ⟨x, perm.mem_iff.mp member, same⟩
  nodup := (perm.map f).nodup_iff.mp lists.nodup
  values := lists.values.trans (perm.map value)

/-- Records that are made from rows. -/
theorem Lists.of_map {β : Type} {rows : List β} {g : β → α} (lists : Lists (rows.map g) value f m) :
    Lists rows (fun row => value (g row)) (fun row => f (g row)) m where
  get := fun row member => lists.get (g row) (List.mem_map_of_mem member)
  found := fun at_ => by
    obtain ⟨x, member, same⟩ := lists.found at_
    obtain ⟨row, inside, rfl⟩ := List.mem_map.mp member
    exact ⟨row, inside, same⟩
  nodup := by simpa only [List.map_map, Function.comp_def] using lists.nodup
  values := by simpa only [List.map_map, Function.comp_def] using lists.values

theorem Lists.mem_values (lists : Lists xs value f m) {x : α} (member : x ∈ xs) :
    value x ∈ m.values :=
  lists.values.mem_iff.mpr (List.mem_map_of_mem member)

/-- A check that every record passes. -/
theorem Lists.each (lists : Lists xs value f m) {check : Json → Checked Unit}
    (passes : ∀ x ∈ xs, check (value x) = .ok ()) : each check m.values = .ok () := by
  rw [ok_each]
  intro row member
  obtain ⟨x, inside, rfl⟩ := List.mem_map.mp (lists.values.mem_iff.mp member)
  exact passes x inside

/-- Two records under one key are the same record. -/
theorem Lists.eq_of_key (lists : Lists xs value f m) {x y : α} (left : x ∈ xs) (right : y ∈ xs)
    (same : f x = f y) : x = y :=
  List.inj_on_of_nodup_map lists.nodup left right same

end Typed

/-- Rows that a `unique` check accepted differ in a list of typed keys. -/
theorem nodup_of_unique {α β : Type} {xs : List α} {value : α → Json} {keys : List String}
    {f : α → β} (fields : ∀ x y, f x = f y → (keys.map fun key => (value x).get key) =
      keys.map fun key => (value y).get key)
    (accepted : unique (xs.map value) keys = .ok ()) : (xs.map f).Nodup := by
  unfold unique at accepted
  rw [ok_reject, not_not, List.map_map] at accepted
  rw [List.nodup_iff_pairwise_ne, List.pairwise_map] at accepted ⊢
  exact accepted.imp fun different same => different (fields _ _ same)

/-! ## Histories -/

/-- One transition after another: an allowed edge, linked, and not back in time. -/
structure Follows (t u : TransitionEvidence) : Prop where
  allowed : allowedTransition t.toState u.toState = true
  revision : u.previousRevision = some t.revision
  source : u.fromState = some t.toState
  time : ∃ before now, parseUnsigned t.occurredAtNs = some before ∧
    parseUnsigned u.occurredAtNs = some now ∧ before ≤ now

/-- A first transition: the reservation at the start of the attempt. -/
structure Begins (start : Nat) (t : TransitionEvidence) : Prop where
  target : t.toState = "reserved"
  source : t.fromState = none
  revision : t.previousRevision = none
  time : parseUnsigned t.occurredAtNs = some start

/-- The event of a transition. -/
def EventOf (events : List EventEvidence) (attempt : String) (t : TransitionEvidence)
    (v : EventEvidence) : Prop :=
  v ∈ events ∧ v.sequence = t.eventSequence ∧ v.attemptId = some attempt ∧
    v.occurredAtNs = t.occurredAtNs

theorem ofOption_nat_eq_nat {a : Option Nat} {b : Nat} :
    Json.ofOption .nat a = .nat b ↔ a = some b := by
  cases a with
  | none => simp [Json.ofOption, Json.nat]
  | some n => simp [Json.ofOption]

theorem ofOption_nat_eq_null {a : Option Nat} : Json.ofOption .nat a = .null ↔ a = none := by
  cases a with
  | none => simp [Json.ofOption]
  | some n => simp [Json.ofOption, Json.nat]

theorem checkEdge_ok {start : Nat} {previous : Option TransitionEvidence} {t : TransitionEvidence}
    (accepted : checkEdge start (previous.map TransitionEvidence.value) t.value = .ok ()) :
    (∀ p ∈ previous, Follows p t) ∧ (previous = none → Begins start t) := by
  cases previous with
  | none =>
      simp only [checkEdge, Option.map_none, ok_bind, ok_reject, ok_timestamp, not_or,
        not_not] at accepted
      obtain ⟨-, ⟨target, source, revision⟩, now, ⟨value, field, time⟩, rfl⟩ := accepted
      simp [TransitionEvidence.value, ofOption_nat_eq_null] at target source revision field
      refine ⟨fun p member => ?_, fun _ => ⟨target, source, revision, field ▸ time⟩⟩
      cases member
  | some p =>
      simp only [checkEdge, Option.map_some, ok_bind, ok_reject, ok_timestamp, ok_text, not_or,
        not_not, Bool.not_eq_false, not_lt] at accepted
      obtain ⟨from_, source, to_, target, -, allowed, -, ⟨revision, link⟩, now, ⟨value, field, read⟩,
        before, ⟨value', field', read'⟩, order⟩ := accepted
      simp [TransitionEvidence.value, ofOption_nat_eq_nat] at source target revision link field field'
      refine ⟨fun q same => ?_, fun none => ?_⟩
      · cases same
        exact ⟨by rw [source, target]; exact allowed, revision, link,
          before, now, field' ▸ read', field ▸ read, order⟩
      · cases none

/-- The loop over a history finds a chain of transitions, each with its event. -/
theorem checkHistory_ok {events : List EventEvidence} {a : AttemptEvidence} {start n : Nat}
    {previous : Option TransitionEvidence} {ts : List TransitionEvidence} {last : Option Json}
    (accepted : checkHistory (events.map EventEvidence.value) a.value start n
      (previous.map TransitionEvidence.value) (ts.map TransitionEvidence.value) = .ok last) :
    (∀ k t, ts[k]? = some t → t.revision = n + k) ∧
      (∀ p ∈ previous, List.IsChain Follows (p :: ts)) ∧
      (previous = none → List.IsChain Follows ts ∧ ∀ t ∈ ts.head?, Begins start t) ∧
      (∀ t ∈ ts, ∃ v, EventOf events a.id t v) ∧
      last = (ts.getLast?.or previous).map TransitionEvidence.value := by
  induction ts generalizing n previous with
  | nil =>
      simp only [checkHistory, List.map_nil, ok_pure] at accepted
      subst accepted
      simp
  | cons t rest ih =>
      simp only [checkHistory, checkTransition, List.map_cons, ok_bind, ok_reject, ok_expect, not_or,
        not_not] at accepted
      obtain ⟨⟨⟩, ⟨found, read, ⟨⟩, revision, ⟨⟩, edge, event, search, owner, time⟩, tail⟩ := accepted
      obtain ⟨numbered, chained, -, owned, end_⟩ :=
        @ih (n + 1) (some t) (by simpa using tail)
      obtain ⟨follows, begins⟩ := checkEdge_ok edge
      have number : t.revision = n := by
        have field := (ok_integer read).1
        simp [TransitionEvidence.value] at field
        rw [field, revision]
      refine ⟨fun k u at_ => ?_, fun p same => ?_, fun first => ?_, fun u member => ?_, ?_⟩
      · cases k with
        | zero =>
            cases at_
            exact number
        | succ k =>
            have next := numbered k u (by simpa using at_)
            omega
      · exact List.isChain_cons_cons.mpr ⟨follows p same, chained t rfl⟩
      · exact ⟨chained t rfl, fun u head => by cases head; exact begins first⟩
      · rcases List.mem_cons.mp member with rfl | later
        · have inside := List.mem_of_find?_eq_some search
          have same := List.find?_some search
          obtain ⟨v, known, rfl⟩ := List.mem_map.mp inside
          simp [EventEvidence.value, TransitionEvidence.value, AttemptEvidence.value]
            at same owner time
          exact ⟨v, known, same, owner, time⟩
        · exact owned u later
      · rw [end_, List.getLast?_cons]
        cases rest.getLast? with
        | none => rfl
        | some u => rfl

end Metewand.Archive
