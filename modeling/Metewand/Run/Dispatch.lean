import Metewand.Run.Covering

/-!
# Dispatching batches

The loop of `run` over its batches and `execute_batch`: the slots of a batch are reserved in
order, the reserved ones are executed side by side, each by the worker of its lane, and the
batch is joined before the next one starts.

The store, the event sink, the threads and the attempts themselves are an `Environment`.
-/

namespace Metewand.Run

open Lib Lib.Check

variable {Attempt : Type}

/-- What `AttemptExecution::reserve` answers. -/
inductive Reservation where
  | owned
  /-- The slot is satisfied, or its retry is not authorized. -/
  | absent
  | sequenceBusy
  | failed (error : RunError)
  deriving DecidableEq

/-- How `execute` ends. -/
inductive Execution (Attempt : Type) where
  | attempt (attempt : Attempt)
  | failed (error : RunError)
  | panicked

/-- What surrounds the loop, by the batches before and what is acted on. -/
structure Environment (Attempt : Type) where
  reserve : Nat → Slot → Reservation
  /-- The event sink, by sequence number. -/
  sink : Nat → Option RunError
  spawns : Nat → Nat → Bool
  execute : Nat → Slot → Nat → Execution Attempt

/-- The execution reserved for a slot. -/
structure AttemptExecution where
  slot : Slot
  deriving DecidableEq

/-- `max_attempts` is reached. -/
def Reached (maxAttempts : Option Nat) (attempts : Nat) : Prop :=
  ∃ bound, maxAttempts = some bound ∧ bound ≤ attempts

instance (maxAttempts : Option Nat) (attempts : Nat) : Decidable (Reached maxAttempts attempts) :=
  decidable_of_iff (maxAttempts.any (· ≤ attempts)) (by cases maxAttempts <;> simp [Reached])

/-! ## Reserving -/

structure Reserving where
  slots : List Slot
  executions : List AttemptExecution
  busy : List Repetition

def reserveBatch (environment : Environment Attempt) (maxAttempts : Option Nat)
    (candidates : List ResolvedCandidate) (batch attempts : Nat) :
    List Slot → Reserving → Except RunError Reserving
  | [], state => .ok state
  | slot :: rest, state =>
      if Reached maxAttempts (attempts + state.executions.length) then .ok state
      else
        match slotAt candidates slot with
        | none => .error .panicked
        | some measurement =>
            if measurement.fresh.isSome ∧ measurement.repetition ∈ state.busy then
              reserveBatch environment maxAttempts candidates batch attempts rest state
            else
              match environment.reserve batch slot with
              | .owned =>
                  reserveBatch environment maxAttempts candidates batch attempts rest
                    { state with
                      slots := state.slots ++ [slot]
                      executions := state.executions ++ [⟨slot⟩] }
              | .absent => reserveBatch environment maxAttempts candidates batch attempts rest state
              | .sequenceBusy =>
                  -- A later point must not be reserved before its owner is through.
                  reserveBatch environment maxAttempts candidates batch attempts rest
                    { state with busy := measurement.repetition :: state.busy }
              | .failed e => .error e

/-- The batch size and the lane a reserved slot really gets. -/
def relane (batchSize : Nat) (candidates : List ResolvedCandidate) (entry : Slot × Nat) :
    Except RunError (List ResolvedCandidate) := do
  let measurement ← expect (slotAt candidates entry.1) .panicked
  let place ← indexSet "batch_size" (.nat batchSize) (measurement.provenance.get "concurrency")
  let place ← indexSet "lane_index" (.nat entry.2) place
  let value ← indexSet "concurrency" place measurement.provenance
  let provenance ← canonical value
  return setProvenance candidates entry.1 provenance

/-- One event for each of a list, from a sequence number on. -/
def emitEach (environment : Environment Attempt) (events : Nat) : Nat → Except RunError Nat
  | 0 => .ok events
  | count + 1 =>
      match environment.sink events with
      | some e => .error e
      | none => emitEach environment (events + 1) count

/-! ## Executing -/

/-- A slot, the lane of the worker it runs on, and the execution it runs under. -/
abbrev Pairing : Type := (Slot × Nat) × AttemptExecution

/-- `results.into_iter().collect()` over the joined threads. -/
def collect (environment : Environment Attempt) (batch : Nat) : List Pairing → Except RunError (List Attempt) :=
  traverseAll fun pairing =>
    match environment.execute batch pairing.1.1 pairing.1.2 with
    | .attempt attempt => .ok attempt
    | .failed e => .error e
    | .panicked => .error .executionThreadPanic

/-- `execute_batch`: which slot ran on which worker, and the outcome. -/
def executeBatch (environment : Environment Attempt) (batch : Nat) (slots : List Slot)
    (executions : List AttemptExecution) (workers : Nat) :
    List Pairing × Except RunError (List Attempt) :=
  match slots with
  | [slot] =>
      match (List.range workers).head?, executions.head? with
      | some lane, some execution =>
          ([((slot, lane), execution)],
            match environment.execute batch slot lane with
            | .attempt attempt => .ok [attempt]
            | .failed e => .error e
            | .panicked => .error .panicked)
      | _, _ => ([], .error .panicked)
  | slots =>
      let pairings := (slots.zip (List.range workers)).zip executions
      let started := pairings.takeWhile fun pairing => environment.spawns batch pairing.1.2
      (started,
        if started.length < pairings.length then .error .io else collect environment batch started)

/-! ## The loop -/

/-- One batch that was executed. -/
structure Dispatch where
  batch : ResolvedBatch
  workers : Nat
  slots : List Slot
  pairings : List Pairing

structure Dispatching (Attempt : Type) where
  candidates : List ResolvedCandidate
  attempts : List Attempt
  busy : List Repetition
  events : Nat
  log : List Dispatch

/-- What happens to a batch before its attempts run. -/
def prepareBatch (environment : Environment Attempt) (maxAttempts : Option Nat) (schedule : List Slot)
    (batch : ResolvedBatch) (state : Dispatching Attempt) :
    Except RunError (Reserving × List ResolvedCandidate × Nat) := do
  reject (schedule.length < batch.stop) .panicked
  let reserved ← reserveBatch environment maxAttempts state.candidates state.log.length
    state.attempts.length (slice schedule batch) ⟨[], [], state.busy⟩
  let candidates ← thread (relane reserved.slots.length) state.candidates reserved.slots.zipIdx
  let events ← emitEach environment state.events reserved.slots.length
  return (reserved, candidates, events)

def dispatchBatch (environment : Environment Attempt) (maxAttempts : Option Nat) (schedule : List Slot)
    (batch : ResolvedBatch) (state : Dispatching Attempt) :
    Dispatching Attempt × Except RunError Unit :=
  match prepareBatch environment maxAttempts schedule batch state with
  | .error e => (state, .error e)
  | .ok (reserved, candidates, events) =>
      let executed := executeBatch environment state.log.length reserved.slots reserved.executions
        batch.laneCount
      let state := { state with
        candidates := candidates, busy := reserved.busy, events := events,
        log := state.log ++ [⟨batch, batch.laneCount, reserved.slots, executed.1⟩] }
      match executed.2 with
      | .error e => (state, .error e)
      | .ok completed =>
          match emitEach environment events completed.length with
          | .error e => (state, .error e)
          | .ok events =>
              ({ state with attempts := state.attempts ++ completed, events := events }, .ok ())

/-- The dispatch loop of `run`. -/
def dispatch (environment : Environment Attempt) (maxAttempts : Option Nat) (schedule : List Slot) :
    List ResolvedBatch → Dispatching Attempt → Dispatching Attempt × Except RunError Unit
  | [], state => (state, .ok ())
  | batch :: rest, state =>
      if Reached maxAttempts state.attempts.length then (state, .ok ())
      else
        match dispatchBatch environment maxAttempts schedule batch state with
        | (state, .ok ()) => dispatch environment maxAttempts schedule rest state
        | failed => failed

/-- One invocation over a resolved run. -/
def invoke (environment : Environment Attempt) (maxAttempts : Option Nat) (resolved : ResolvedRun)
    (events : Nat) : Dispatching Attempt × Except RunError Unit :=
  dispatch environment maxAttempts resolved.schedule resolved.batches
    ⟨resolved.candidates, [], [], events, []⟩

/-! ## Its guarantees -/

variable {environment : Environment Attempt} {maxAttempts : Option Nat} {schedule : List Slot}
  {candidates candidates' : List ResolvedCandidate}

theorem Reached.mono {fewer more : Nat} (reached : Reached maxAttempts fewer) (le : fewer ≤ more) :
    Reached maxAttempts more := by
  obtain ⟨bound, is, below⟩ := reached
  exact ⟨bound, is, Nat.le_trans below le⟩

/-- Why a slot may be left out. -/
def PassedOver (environment : Environment Attempt) (maxAttempts : Option Nat)
    (candidates : List ResolvedCandidate) (attempts : Nat) (busy : List Repetition) (slot : Slot) : Prop :=
  Reached maxAttempts attempts ∨
    (∃ batch, environment.reserve batch slot = .absent ∨ environment.reserve batch slot = .sequenceBusy) ∨
    ∃ repetition ∈ busy, repetitionOf candidates slot = some repetition

theorem PassedOver.mono {attempts attempts' : Nat} {busy busy' : List Repetition} {slot : Slot}
    (passed : PassedOver environment maxAttempts candidates attempts busy slot)
    (more : attempts ≤ attempts') (grown : busy ⊆ busy') :
    PassedOver environment maxAttempts candidates attempts' busy' slot := by
  rcases passed with reached | refused | ⟨repetition, member, is⟩
  · exact .inl (reached.mono more)
  · exact .inr (.inl refused)
  · exact .inr (.inr ⟨repetition, grown member, is⟩)

/-- Reserving takes a selection of the slots, in order, and one execution for each. -/
theorem reserveBatch_ok {batch attempts : Nat} {slots : List Slot} : ∀ {state state' : Reserving},
    reserveBatch environment maxAttempts candidates batch attempts slots state = .ok state' →
      ∃ taken, taken.Sublist slots ∧ state'.slots = state.slots ++ taken ∧
        state'.executions = state.executions ++ taken.map AttemptExecution.mk ∧
        state.busy ⊆ state'.busy ∧
        ∀ slot ∈ slots, slot ∉ taken →
          PassedOver environment maxAttempts candidates (attempts + state'.executions.length)
            state'.busy slot := by
  induction slots with
  | nil =>
      intro state state' reserved
      cases reserved
      exact ⟨[], .slnil, by simp, by simp, fun _ => id, by simp⟩
  | cons slot rest ih =>
      intro state state' reserved
      change ite _ _ _ = _ at reserved
      split at reserved
      · rename_i reached
        cases reserved
        exact ⟨[], List.nil_sublist _, by simp, by simp, fun _ => id, fun _ _ _ => .inl reached⟩
      · cases found : slotAt candidates slot with
        | none =>
            rw [found] at reserved
            cases reserved
        | some measurement =>
            rw [found] at reserved
            simp only at reserved
            split at reserved
            · rename_i owned
              obtain ⟨taken, among, slots, executions, busy, passed⟩ := ih reserved
              refine ⟨taken, among.cons slot, slots, executions, busy, fun other member left => ?_⟩
              rcases List.mem_cons.mp member with rfl | later
              · refine .inr (.inr ⟨measurement.repetition, busy owned.2, ?_⟩)
                rw [repetitionOf, found, Option.bind_some, if_pos owned.1]
              · exact passed other later left
            · cases answer : environment.reserve batch slot with
              | owned =>
                  rw [answer] at reserved
                  obtain ⟨taken, among, slots, executions, busy, passed⟩ := ih reserved
                  refine ⟨slot :: taken, among.cons_cons slot, by simpa using slots, by simpa using executions,
                    busy, fun other member left => ?_⟩
                  obtain ⟨new, absent⟩ := not_or.mp (List.mem_cons.not.mp left)
                  exact passed other ((List.mem_cons.mp member).resolve_left new) absent
              | absent =>
                  rw [answer] at reserved
                  obtain ⟨taken, among, slots, executions, busy, passed⟩ := ih reserved
                  refine ⟨taken, among.cons slot, slots, executions, busy, fun other member left => ?_⟩
                  rcases List.mem_cons.mp member with rfl | later
                  · exact .inr (.inl ⟨batch, .inl answer⟩)
                  · exact passed other later left
              | sequenceBusy =>
                  rw [answer] at reserved
                  obtain ⟨taken, among, slots, executions, busy, passed⟩ := ih reserved
                  refine ⟨taken, among.cons slot, slots, executions,
                    fun _ member => busy (List.mem_cons_of_mem _ member), fun other member left => ?_⟩
                  rcases List.mem_cons.mp member with rfl | later
                  · exact .inr (.inl ⟨batch, .inr answer⟩)
                  · exact passed other later left
              | failed e =>
                  rw [answer] at reserved
                  cases reserved

/-- Every slot with the worker of its own lane and its own execution. -/
def ownPairings (slots : List Slot) : List Pairing := slots.zipIdx.map fun entry => (entry, ⟨entry.1⟩)

theorem zip_own {slots : List Slot} {workers : Nat} (enough : slots.length ≤ workers) :
    (slots.zip (List.range workers)).zip (slots.map AttemptExecution.mk) = ownPairings slots := by
  refine List.ext_getElem ?_ fun i left right => ?_
  · simp [ownPairings, enough]
  · simp [ownPairings]

theorem collect_length {batch : Nat} {pairings : List Pairing} {attempts : List Attempt}
    (collected : collect environment batch pairings = .ok attempts) :
    attempts.length = pairings.length := (ok_traverseAll.mp collected).length_eq.symm

/-- `execute_batch` runs every slot on a worker of its own; only a thread that cannot be
started leaves some out, and it fails the batch. -/
theorem executeBatch_exact {batch workers : Nat} {slots : List Slot} (enough : slots.length ≤ workers) :
    let executed := executeBatch environment batch slots (slots.map AttemptExecution.mk) workers
    executed.1 <+: ownPairings slots ∧
      (executed.1 = ownPairings slots ∨ executed.2 = .error .io) ∧
      ∀ attempts, executed.2 = .ok attempts → attempts.length = slots.length := by
  have several : ∀ slots : List Slot, slots.length ≤ workers →
      let started := (ownPairings slots).takeWhile fun pairing => environment.spawns batch pairing.1.2
      let outcome := if started.length < (ownPairings slots).length then .error .io
        else collect environment batch started
      started <+: ownPairings slots ∧ (started = ownPairings slots ∨ outcome = .error .io) ∧
        ∀ attempts, outcome = .ok attempts → attempts.length = slots.length := by
    intro slots enough started outcome
    have leading : started <+: ownPairings slots := List.takeWhile_prefix _
    have size : (ownPairings slots).length = slots.length := by simp [ownPairings]
    by_cases fewer : started.length < (ownPairings slots).length
    · have failed : outcome = .error .io := if_pos fewer
      refine ⟨leading, .inr failed, fun attempts fine => ?_⟩
      rw [failed] at fine
      cases fine
    · have all := leading.eq_of_length_le (Nat.not_lt.mp fewer)
      refine ⟨leading, .inl all, fun attempts fine => ?_⟩
      have outcomeIs : outcome = collect environment batch started := if_neg fewer
      rw [outcomeIs] at fine
      rw [collect_length fine, all, size]
  unfold executeBatch
  split
  · rename_i slot
    obtain ⟨workers, rfl⟩ := Nat.exists_eq_add_one.mpr enough
    simp only [List.head?_range, Nat.succ_ne_zero, if_false, List.map_cons, List.head?_cons]
    refine ⟨List.prefix_refl _, .inl rfl, fun attempts fine => ?_⟩
    cases ran : environment.execute batch slot 0 with
    | attempt attempt =>
        rw [ran] at fine
        cases fine
        rfl
    | failed e =>
        rw [ran] at fine
        cases fine
    | panicked =>
        rw [ran] at fine
        cases fine
  · simp only [zip_own enough]
    exact several slots enough

theorem relane_still {size : Nat} {entry : Slot × Nat}
    (relaned : relane size candidates entry = .ok candidates') : Still candidates candidates' := by
  simp only [relane, ok_bind, ok_pure] at relaned
  obtain ⟨_, -, _, -, _, -, _, -, _, -, rfl⟩ := relaned
  exact still_setProvenance _ _ _

theorem relanes_still {size : Nat} {entries : List (Slot × Nat)}
    (relaned : thread (relane size) candidates entries = .ok candidates') : Still candidates candidates' := by
  refine thread_all (fun _ candidates' => Still candidates candidates') rfl ?_ relaned
  intro done before entry after still step
  exact still.trans (relane_still step)

/-- A dispatched batch: a selection of its slots, no more than its workers, each paired with
its own. -/
structure DispatchExact (schedule : List Slot) (dispatch : Dispatch) : Prop where
  among : dispatch.slots.Sublist (slice schedule dispatch.batch)
  workers : dispatch.slots.length ≤ dispatch.workers
  own : dispatch.pairings <+: ownPairings dispatch.slots

/-- The slots that were executed. -/
def executedSlots (log : List Dispatch) : List Slot :=
  log.flatMap fun dispatch => dispatch.pairings.map fun pairing => pairing.1.1

/-- After a batch without an error: every reserved slot ran, and the others were passed
over. -/
structure Accounted (environment : Environment Attempt) (maxAttempts : Option Nat) (schedule : List Slot)
    (dispatch : Dispatch) (state state' : Dispatching Attempt) : Prop where
  complete : dispatch.pairings = ownPairings dispatch.slots
  attempts : state.attempts.length ≤ state'.attempts.length
  busy : state.busy ⊆ state'.busy
  passed : ∀ slot ∈ slice schedule dispatch.batch, slot ∉ dispatch.slots →
    PassedOver environment maxAttempts state.candidates state'.attempts.length state'.busy slot

theorem prepareBatch_ok {batch : ResolvedBatch} {state : Dispatching Attempt} {reserved : Reserving}
    {events : Nat} (prepared : prepareBatch environment maxAttempts schedule batch state =
      .ok (reserved, candidates, events)) :
    Still state.candidates candidates ∧ reserved.slots.Sublist (slice schedule batch) ∧
      reserved.executions = reserved.slots.map AttemptExecution.mk ∧ state.busy ⊆ reserved.busy ∧
      ∀ slot ∈ slice schedule batch, slot ∉ reserved.slots →
        PassedOver environment maxAttempts state.candidates
          (state.attempts.length + reserved.slots.length) reserved.busy slot := by
  simp only [prepareBatch, ok_bind, ok_reject, ok_pure, Prod.mk.injEq] at prepared
  obtain ⟨_, -, reserved', took, candidates', relaned, events', -, rfl, rfl, rfl⟩ := prepared
  obtain ⟨taken, among, slots, executions, busy, passed⟩ := reserveBatch_ok took
  rw [List.nil_append] at slots executions
  subst slots
  refine ⟨relanes_still relaned, among, executions, busy, fun slot member left => ?_⟩
  have each := passed slot member left
  rw [executions, List.length_map] at each
  exact each

/-- One batch: nothing ran and the run ends, or the batch was dispatched. -/
theorem dispatchBatch_step {batch : ResolvedBatch} (inside : batch.size ≤ batch.laneCount)
    (state : Dispatching Attempt) :
    let result := dispatchBatch environment maxAttempts schedule batch state
    (result.1 = state ∧ ∃ e, result.2 = .error e) ∨
      ∃ dispatch, result.1.log = state.log ++ [dispatch] ∧ dispatch.batch = batch ∧
        DispatchExact schedule dispatch ∧ Still state.candidates result.1.candidates ∧
        (dispatch.pairings = ownPairings dispatch.slots ∨ result.2 = .error .io) ∧
        (∀ u, result.2 = .ok u → Accounted environment maxAttempts schedule dispatch state result.1) := by
  intro result
  cases prepared : prepareBatch environment maxAttempts schedule batch state with
  | error e =>
      left
      simp only [result, dispatchBatch, prepared]
      exact ⟨trivial, e, rfl⟩
  | ok ready =>
      obtain ⟨reserved, candidates, events⟩ := ready
      obtain ⟨still, among, executions, busy, passed⟩ := prepareBatch_ok prepared
      have enough : reserved.slots.length ≤ batch.laneCount := by
        have few := among.length_le
        have size : (slice schedule batch).length ≤ batch.size := List.length_take_le _ _
        omega
      obtain ⟨leading, complete, counted⟩ := @executeBatch_exact Attempt environment
        state.log.length batch.laneCount reserved.slots enough
      rw [← executions] at leading complete counted
      right
      generalize executedIs : executeBatch environment state.log.length reserved.slots reserved.executions
        batch.laneCount = executed at *
      obtain ⟨pairings, outcome⟩ := executed
      refine ⟨⟨batch, batch.laneCount, reserved.slots, pairings⟩, ?_⟩
      have exact_ : DispatchExact schedule ⟨batch, batch.laneCount, reserved.slots, pairings⟩ :=
        ⟨among, enough, leading⟩
      cases outcome with
      | error e =>
          simp only [result, dispatchBatch, prepared, executedIs]
          refine ⟨trivial, trivial, exact_, still, complete.imp id fun is => ?_, fun u no => ?_⟩
          · cases is
            rfl
          · cases no
      | ok attempts =>
          have all := complete.resolve_right (fun no => by cases no)
          have length := counted attempts rfl
          cases emitted : emitEach environment events attempts.length with
          | error e =>
              simp only [result, dispatchBatch, prepared, executedIs, emitted]
              exact ⟨trivial, trivial, exact_, still, .inl all, fun u no => by cases no⟩
          | ok events' =>
              simp only [result, dispatchBatch, prepared, executedIs, emitted]
              refine ⟨trivial, trivial, exact_, still, .inl all, fun u _ => ⟨all, ?_, busy, ?_⟩⟩
              · rw [List.length_append]
                exact Nat.le_add_right _ _
              · intro slot member left
                rw [List.length_append, length]
                exact passed slot member left

theorem PassedOver.still (still : Still candidates candidates') {attempts : Nat} {busy : List Repetition}
    {slot : Slot} (passed : PassedOver environment maxAttempts candidates' attempts busy slot) :
    PassedOver environment maxAttempts candidates attempts busy slot := by
  unfold PassedOver at passed ⊢
  rw [still.repetitionOf] at passed
  exact passed

/-- What a run of the loop leaves. -/
structure Dispatched (environment : Environment Attempt) (maxAttempts : Option Nat) (schedule : List Slot)
    (batches : List ResolvedBatch) (state state' : Dispatching Attempt) (outcome : Except RunError Unit)
    (added : List Dispatch) : Prop where
  log : state'.log = state.log ++ added
  leading : added.map (·.batch) <+: batches
  each : ∀ dispatch ∈ added, DispatchExact schedule dispatch ∧
    (dispatch.pairings = ownPairings dispatch.slots ∨ outcome = .error .io)
  attempts : ∀ u, outcome = .ok u → state.attempts.length ≤ state'.attempts.length
  busy : ∀ u, outcome = .ok u → state.busy ⊆ state'.busy
  covered : ∀ u, outcome = .ok u → ∀ batch ∈ batches, ∀ slot ∈ slice schedule batch,
    slot ∈ added.flatMap (·.slots) ∨
      PassedOver environment maxAttempts state.candidates state'.attempts.length state'.busy slot

theorem dispatch_exact {batches : List ResolvedBatch} (inside : ∀ batch ∈ batches, batch.size ≤ batch.laneCount) :
    ∀ state : Dispatching Attempt,
      let result := dispatch environment maxAttempts schedule batches state
      ∃ added, Dispatched environment maxAttempts schedule batches state result.1 result.2 added := by
  induction batches with
  | nil =>
      intro state
      exact ⟨[], by simp [dispatch], List.prefix_refl _, by simp, fun _ _ => Nat.le_refl _, fun _ _ _ => id, by simp⟩
  | cons batch rest ih =>
      intro state
      obtain ⟨here, later⟩ := List.forall_mem_cons.mp inside
      unfold dispatch
      split
      · rename_i reached
        exact ⟨[], by simp, List.nil_prefix, by simp, fun _ _ => Nat.le_refl _, fun _ _ _ => id,
          fun _ _ _ _ _ _ => .inr (.inl reached)⟩
      · have step := @dispatchBatch_step Attempt environment maxAttempts schedule batch here state
        generalize dispatchBatch environment maxAttempts schedule batch state = result at step
        obtain ⟨next, outcome⟩ := result
        cases outcome with
        | error e =>
            rcases step with ⟨same, -⟩ | ⟨dispatch, log, is, exact_, -, complete, -⟩
            · refine ⟨[], by simpa using congrArg Dispatching.log same, List.nil_prefix, by simp, ?_, ?_, ?_⟩
              all_goals
                intro u no
                cases no
            · refine ⟨[dispatch], log, by simp [is], ?_, ?_, ?_, ?_⟩
              · intro other member
                cases List.mem_singleton.mp member
                exact ⟨exact_, complete⟩
              all_goals
                intro u no
                cases no
        | ok u =>
            rcases step with ⟨-, e, no⟩ | ⟨dispatch, log, is, exact_, still, -, accounted⟩
            · cases no
            · have account := accounted u rfl
              obtain ⟨added, run⟩ := ih later next
              refine ⟨dispatch :: added, ?_, ?_, ?_, ?_, ?_, ?_⟩
              · rw [run.log, log, List.append_assoc]
                rfl
              · rw [List.map_cons, is]
                exact (List.prefix_cons_inj _).mpr run.leading
              · exact List.forall_mem_cons.mpr ⟨⟨exact_, .inl account.complete⟩, run.each⟩
              · exact fun v fine => Nat.le_trans account.attempts (run.attempts v fine)
              · exact fun v fine => List.Subset.trans account.busy (run.busy v fine)
              · intro v fine other member slot slotIn
                rw [List.flatMap_cons, List.mem_append]
                rcases List.mem_cons.mp member with rfl | more
                · by_cases took : slot ∈ dispatch.slots
                  · exact .inl (.inl took)
                  · rw [← is] at slotIn
                    exact .inr ((account.passed slot slotIn took).mono (run.attempts v fine)
                      (run.busy v fine))
                · exact (run.covered v fine other more slot slotIn).imp .inr fun passed => passed.still still

theorem ownPairings_slots (slots : List Slot) :
    (ownPairings slots).map (fun pairing => pairing.1.1) = slots := by
  unfold ownPairings
  rw [List.map_map]
  exact List.zipIdx_map_fst 0 slots

theorem executedSlots_sublist {log : List Dispatch} (each : ∀ dispatch ∈ log, DispatchExact schedule dispatch) :
    (executedSlots log).Sublist ((log.map (·.batch)).flatMap (slice schedule)) := by
  induction log with
  | nil => exact .slnil
  | cons dispatch rest ih =>
      obtain ⟨here, later⟩ := List.forall_mem_cons.mp each
      have ran : (dispatch.pairings.map fun pairing => pairing.1.1).Sublist dispatch.slots := by
        have leading := here.own.sublist.map fun pairing : Pairing => pairing.1.1
        rwa [ownPairings_slots] at leading
      exact (ran.trans here.among).append (ih later)

/-- Batches cover the schedule exactly, and dispatching runs each slot at most once, on its own
worker. -/
theorem rebuildBatches_covers {resolved : ResolvedRun} {schedule : List Slot} (distinct : schedule.Nodup)
    (valid : ∀ slot ∈ schedule, (slotAt resolved.candidates slot).isSome)
    (shared : SharedBounds resolved.candidates)
    (positive : ∀ candidate ∈ resolved.candidates, 0 < candidate.maxConcurrency) :
    ∃ result, (∀ fuel ≥ schedule.length, rebuildBatches fuel resolved schedule = some result) ∧
      (CanonicalProvenances resolved.candidates →
        (∀ candidate ∈ resolved.candidates, candidate.maxConcurrency ≤ maxSafeInteger) →
          schedule.length ≤ maxSafeInteger → ∃ rebuilt, result = .ok rebuilt) ∧
      ∀ rebuilt, result = .ok rebuilt → Exact resolved.candidates schedule rebuilt ∧
        ∀ {Attempt : Type} (environment : Environment Attempt) (maxAttempts : Option Nat) (events : Nat),
          let run := invoke environment maxAttempts rebuilt events
          (∀ dispatch ∈ run.1.log, dispatch.batch ∈ rebuilt.batches ∧ DispatchExact schedule dispatch ∧
            (dispatch.pairings = ownPairings dispatch.slots ∨ run.2 = .error .io)) ∧
          (executedSlots run.1.log).Sublist schedule ∧ (executedSlots run.1.log).Nodup ∧
          ∀ u, run.2 = .ok u → ∀ slot ∈ schedule, slot ∈ executedSlots run.1.log ∨
            PassedOver environment maxAttempts resolved.candidates run.1.attempts.length run.1.busy slot := by
  obtain ⟨result, terminates, exact_, fine⟩ := rebuildBatches_exact distinct valid shared positive
  refine ⟨result, terminates, fine, fun rebuilt is => ?_⟩
  have covers := exact_ rebuilt is
  refine ⟨covers, ?_⟩
  intro Attempt environment maxAttempts events run
  obtain ⟨added, ran⟩ := @dispatch_exact _ environment maxAttempts schedule rebuilt.batches
    (fun batch member => (covers.each batch member).lanes) ⟨rebuilt.candidates, [], [], events, []⟩
  rw [← covers.slots] at ran
  change Dispatched environment maxAttempts rebuilt.schedule rebuilt.batches _ run.1 run.2 added at ran
  rw [covers.slots] at ran
  have logged : run.1.log = added := ran.log
  have among : (executedSlots added).Sublist schedule := by
    have some := executedSlots_sublist fun dispatch member => (ran.each dispatch member).1
    obtain ⟨others, split⟩ := ran.leading
    have all := covers.concat
    rw [← split, List.flatMap_append] at all
    rw [← all]
    exact some.trans (List.sublist_append_left _ _)
  rw [logged]
  refine ⟨fun dispatch member => ⟨?_, ran.each dispatch member⟩, among, distinct.sublist among,
    fun u fine slot member => ?_⟩
  · exact ran.leading.subset (List.mem_map_of_mem member)
  · rw [← covers.concat] at member
    obtain ⟨batch, batchIn, slotIn⟩ := List.mem_flatMap.mp member
    refine (ran.covered u fine batch batchIn slot slotIn).imp (fun taken => ?_) fun passed =>
      passed.still covers.still
    obtain ⟨dispatch, dispatchIn, slotHere⟩ := List.mem_flatMap.mp taken
    refine List.mem_flatMap.mpr ⟨dispatch, dispatchIn, ?_⟩
    have complete := (ran.each dispatch dispatchIn).2.resolve_right fun no => by
      rw [fine] at no
      cases no
    rw [complete, ownPairings_slots]
    exact slotHere

def samplePoint (fill : UInt8) : ResolvedMeasurement := ⟨none, ⟨.fill fill⟩, 0, .obj []⟩

/-- Two candidates of one experiment with two lanes, and one of another. -/
def sampleRun : ResolvedRun where
  candidates := [⟨"speed", 2, [samplePoint 1, samplePoint 2]⟩, ⟨"speed", 2, [samplePoint 3]⟩,
    ⟨"memory", 1, [samplePoint 4]⟩]
  schedule := []
  batches := []

theorem rebuildBatches_covers_sample :
    ∃ rebuilt, rebuildBatches 4 sampleRun [(1, 0), (0, 0), (0, 1), (2, 0)] = some (.ok rebuilt) ∧
      Exact sampleRun.candidates [(1, 0), (0, 0), (0, 1), (2, 0)] rebuilt := by
  have positive : ∀ candidate ∈ sampleRun.candidates, 0 < candidate.maxConcurrency := by
    simp [sampleRun]
  have shared : SharedBounds sampleRun.candidates := by
    simp [SharedBounds, sampleRun]
  obtain ⟨result, terminates, fine, exact_⟩ := @rebuildBatches_covers sampleRun
    [(1, 0), (0, 0), (0, 1), (2, 0)] (by decide) (by simp [sampleRun, slotAt]) shared positive
  have canonical : CanonicalProvenances sampleRun.candidates := by
    intro slot measurement found
    obtain ⟨candidate, candidateAt, measurementAt⟩ := Option.bind_eq_some_iff.mp found
    have empty : ∀ c ∈ sampleRun.candidates, ∀ m ∈ c.measurements, m.provenance = .obj [] := by
      simp [sampleRun, samplePoint]
    rw [empty _ (List.mem_of_getElem? candidateAt) _ (List.mem_of_getElem? measurementAt)]
    exact ⟨rfl, rfl⟩
  obtain ⟨rebuilt, rfl⟩ := fine canonical (by simp [sampleRun, maxSafeInteger]) (by simp [maxSafeInteger])
  exact ⟨rebuilt, terminates 4 (Nat.le_refl _), (exact_ rebuilt rfl).1⟩

end Metewand.Run
