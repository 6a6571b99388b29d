import Metewand.Run.Dispatch
import Metewand.Run.Resolved

/-!
# A fresh repetition is executed in schedule order

`Call` is one `AttemptExecution::reserve` of an invocation and what it answered; `calls`
lists those of the whole dispatch loop, also of a batch that fails later.  Of two calls for
points of one fresh repetition the later one is in a later batch and has the higher schedule
index, and the first one has not found the repetition busy (`run_freshOrder`).

The answers are arbitrary, so other processes may work on the store between any two calls.
-/

namespace Metewand.Run

open Lib Lib.Check

variable {Attempt : Type} {environment : Environment Attempt} {maxAttempts : Option Nat}
  {schedule : List Slot} {candidates base : List ResolvedCandidate}

/-! ## Reservations -/

/-- One `AttemptExecution::reserve`. -/
structure Call where
  batch : Nat
  slot : Slot
  answer : Reservation

/-- The calls of `reserveBatch`, with the executions reserved so far. -/
def batchCalls (environment : Environment Attempt) (maxAttempts : Option Nat)
    (candidates : List ResolvedCandidate) (batch attempts : Nat) :
    List Slot → Nat → List Repetition → List Call
  | [], _, _ => []
  | slot :: rest, executions, busy =>
      if Reached maxAttempts (attempts + executions) then []
      else
        match slotAt candidates slot with
        | none => []
        | some measurement =>
            if measurement.fresh.isSome ∧ busy.contains measurement.repetition then
              batchCalls environment maxAttempts candidates batch attempts rest executions busy
            else
              ⟨batch, slot, environment.reserve batch slot⟩ ::
                match environment.reserve batch slot with
                | .owned =>
                    batchCalls environment maxAttempts candidates batch attempts rest (executions + 1) busy
                | .absent =>
                    batchCalls environment maxAttempts candidates batch attempts rest executions busy
                | .sequenceBusy =>
                    batchCalls environment maxAttempts candidates batch attempts rest executions
                      (measurement.repetition :: busy)
                | .failed _ => []

/-- The calls of `dispatch`. -/
def calls (environment : Environment Attempt) (maxAttempts : Option Nat) (schedule : List Slot) :
    List ResolvedBatch → Dispatching Attempt → List Call
  | [], _ => []
  | batch :: rest, state =>
      if Reached maxAttempts state.attempts.length then []
      else
        (if schedule.length < batch.stop then []
          else batchCalls environment maxAttempts state.candidates state.log.length
            state.attempts.length (slice schedule batch) 0 state.busy) ++
        match dispatchBatch environment maxAttempts schedule batch state with
        | (state, .ok ()) => calls environment maxAttempts schedule rest state
        | _ => []

/-- The calls of one invocation over a resolved run. -/
def invocationCalls (environment : Environment Attempt) (maxAttempts : Option Nat)
    (resolved : ResolvedRun) (events : Nat) : List Call :=
  calls environment maxAttempts resolved.schedule resolved.batches
    ⟨resolved.candidates, [], [], events, []⟩

/-- The slots an invocation owns. -/
def ownedSlots (calls : List Call) : List Slot :=
  (calls.filter (·.answer = .owned)).map (·.slot)

/-- The second call is not for a repetition the first one found busy. -/
def Respects (candidates : List ResolvedCandidate) (a b : Call) : Prop :=
  ∀ r, repetitionOf candidates a.slot = some r → repetitionOf candidates b.slot = some r →
    a.answer ≠ .sequenceBusy

/-- What the calls of one batch respect. -/
structure BatchCalls (candidates : List ResolvedCandidate) (batch : Nat) (slots : List Slot)
    (busy : List Repetition) (calls : List Call) : Prop where
  among : (calls.map (·.slot)).Sublist slots
  here : ∀ call ∈ calls, call.batch = batch
  free : ∀ call ∈ calls, ∀ r ∈ busy, repetitionOf candidates call.slot ≠ some r
  respects : calls.Pairwise (Respects candidates)

theorem BatchCalls.skip {batch : Nat} {slot : Slot} {slots : List Slot} {busy : List Repetition}
    {calls : List Call} (made : BatchCalls candidates batch slots busy calls) :
    BatchCalls candidates batch (slot :: slots) busy calls :=
  ⟨made.among.cons slot, made.here, made.free, made.respects⟩

theorem BatchCalls.call {batch : Nat} {slot : Slot} {slots : List Slot} {busy busy' : List Repetition}
    {calls : List Call} {answer : Reservation} (made : BatchCalls candidates batch slots busy' calls)
    (grown : busy ⊆ busy') (free : ∀ r ∈ busy, repetitionOf candidates slot ≠ some r)
    (found : answer = .sequenceBusy → ∀ r, repetitionOf candidates slot = some r → r ∈ busy') :
    BatchCalls candidates batch (slot :: slots) busy (⟨batch, slot, answer⟩ :: calls) := by
  refine ⟨made.among.cons_cons slot, ?_, ?_, ?_⟩
  · exact List.forall_mem_cons.mpr ⟨rfl, made.here⟩
  · intro call member r inside
    rcases List.mem_cons.mp member with rfl | later
    · exact free r inside
    · exact made.free call later r (grown inside)
  · apply List.pairwise_cons.mpr
    refine ⟨fun later member r first second is => ?_, made.respects⟩
    exact made.free later member r (found is r first) second

theorem batchCalls_respect (batch attempts : Nat) (slots : List Slot) :
    ∀ (executions : Nat) (busy : List Repetition), BatchCalls candidates batch slots busy
      (batchCalls environment maxAttempts candidates batch attempts slots executions busy) := by
  induction slots with
  | nil => exact fun _ _ => ⟨.slnil, by simp [batchCalls], by simp [batchCalls], .nil⟩
  | cons slot rest ih =>
      intro executions busy
      have nothing : BatchCalls candidates batch (slot :: rest) busy [] :=
        ⟨List.nil_sublist _, by simp, by simp, .nil⟩
      unfold batchCalls
      split
      · exact nothing
      · cases found : slotAt candidates slot with
        | none => exact nothing
        | some measurement =>
            have repetition : repetitionOf candidates slot =
                if measurement.fresh.isSome then some measurement.repetition else none := by
              rw [repetitionOf, found]
              rfl
            simp only
            split
            · exact (ih executions busy).skip
            · rename_i open_
              have free : ∀ r ∈ busy, repetitionOf candidates slot ≠ some r := by
                intro r member is
                rw [repetition] at is
                split at is
                · rename_i fresh
                  cases is
                  exact open_ ⟨fresh, List.contains_iff_mem.mpr member⟩
                · cases is
              cases answer : environment.reserve batch slot with
              | owned =>
                  exact (ih (executions + 1) busy).call (List.Subset.refl _) free (by simp)
              | absent => exact (ih executions busy).call (List.Subset.refl _) free (by simp)
              | sequenceBusy =>
                  refine (ih executions (measurement.repetition :: busy)).call
                    (List.subset_cons_self _ _) free fun _ r is => ?_
                  rw [repetition] at is
                  split at is
                  · cases is
                    exact List.mem_cons_self
                  · cases is
              | failed e =>
                  have last : BatchCalls candidates batch rest busy [] :=
                    ⟨List.nil_sublist _, by simp, by simp, .nil⟩
                  exact last.call (List.Subset.refl _) free (by simp)

/-- What `reserveBatch` ends with, by its calls. -/
structure Reserved (candidates : List ResolvedCandidate) (calls : List Call) (state state' : Reserving) :
    Prop where
  slots : state'.slots = state.slots ++ ownedSlots calls
  busy : state.busy ⊆ state'.busy
  found : ∀ call ∈ calls, call.answer = .sequenceBusy →
    ∀ r, repetitionOf candidates call.slot = some r → r ∈ state'.busy

theorem reserveBatch_reserved {batch attempts : Nat} {slots : List Slot} :
    ∀ {state state' : Reserving},
      reserveBatch environment maxAttempts candidates batch attempts slots state = .ok state' →
        Reserved candidates (batchCalls environment maxAttempts candidates batch attempts slots
          state.executions.length state.busy) state state' := by
  induction slots with
  | nil =>
      intro state state' reserved
      cases reserved
      exact ⟨by simp [batchCalls, ownedSlots], List.Subset.refl _, by simp [batchCalls]⟩
  | cons slot rest ih =>
      intro state state' reserved
      unfold batchCalls
      change ite _ _ _ = _ at reserved
      split at reserved
      · rename_i reached
        cases reserved
        rw [if_pos reached]
        exact ⟨by simp [ownedSlots], List.Subset.refl _, by simp⟩
      · rename_i room
        rw [if_neg room]
        cases found : slotAt candidates slot with
        | none =>
            rw [found] at reserved
            cases reserved
        | some measurement =>
            rw [found] at reserved
            simp only at reserved ⊢
            split at reserved
            · rename_i owned
              rw [if_pos ⟨owned.1, List.contains_iff_mem.mpr owned.2⟩]
              exact ih reserved
            · rename_i open_
              rw [if_neg fun both => open_ ⟨both.1, List.contains_iff_mem.mp both.2⟩]
              cases answer : environment.reserve batch slot with
              | owned =>
                  rw [answer] at reserved
                  have later := ih reserved
                  rw [List.length_append] at later
                  refine ⟨?_, later.busy, ?_⟩
                  · rw [later.slots]
                    simp [ownedSlots]
                  · intro call member is
                    rcases List.mem_cons.mp member with rfl | more
                    · cases is
                    · exact later.found call more is
              | absent =>
                  rw [answer] at reserved
                  have later := ih reserved
                  refine ⟨?_, later.busy, ?_⟩
                  · rw [later.slots]
                    simp [ownedSlots]
                  · intro call member is
                    rcases List.mem_cons.mp member with rfl | more
                    · cases is
                    · exact later.found call more is
              | sequenceBusy =>
                  rw [answer] at reserved
                  have later := ih reserved
                  refine ⟨?_, fun r member => later.busy (List.mem_cons_of_mem _ member), ?_⟩
                  · rw [later.slots]
                    simp [ownedSlots]
                  · intro call member is r point
                    rcases List.mem_cons.mp member with rfl | more
                    · apply later.busy
                      rw [repetitionOf, found, Option.bind_some] at point
                      split at point
                      · cases point
                        exact List.mem_cons_self
                      · cases point
                    · exact later.found call more is r point
              | failed e =>
                  rw [answer] at reserved
                  cases reserved

/-! ## A whole invocation -/

/-- A batch reserves and is dispatched, or the run ends with it. -/
theorem dispatchBatch_reserved (batch : ResolvedBatch) (state : Dispatching Attempt) :
    let result := dispatchBatch environment maxAttempts schedule batch state
    (result.1 = state ∧ ∃ e, result.2 = .error e) ∨
      ∃ reserved, Reserved state.candidates (batchCalls environment maxAttempts state.candidates
            state.log.length state.attempts.length (slice schedule batch) 0 state.busy)
          ⟨[], [], state.busy⟩ reserved ∧
        ¬schedule.length < batch.stop ∧ result.1.busy = reserved.busy ∧
        Still state.candidates result.1.candidates ∧
        ∃ dispatch, result.1.log = state.log ++ [dispatch] ∧ dispatch.slots = reserved.slots := by
  intro result
  cases prepared : prepareBatch environment maxAttempts schedule batch state with
  | error e =>
      left
      simp only [result, dispatchBatch, prepared]
      exact ⟨trivial, e, rfl⟩
  | ok ready =>
      right
      rcases ready with ⟨reserved, candidates, events⟩
      have still := (prepareBatch_ok prepared).1
      have steps := prepared
      simp only [prepareBatch, ok_bind, ok_reject, ok_pure, Prod.mk.injEq] at steps
      rcases steps with ⟨_, inside, reserved', took, _, _, _, _, rfl, rfl, rfl⟩
      refine ⟨reserved', reserveBatch_reserved took, inside, ?_⟩
      simp only [result, dispatchBatch, prepared]
      split
      · exact ⟨rfl, still, _, rfl, rfl⟩
      · split
        · exact ⟨rfl, still, _, rfl, rfl⟩
        · exact ⟨rfl, still, _, rfl, rfl⟩

/-- Of two calls for points of one repetition the second is in a later batch, and the first
has not found the repetition busy. -/
def Apart (candidates : List ResolvedCandidate) (a b : Call) : Prop :=
  ∀ r, repetitionOf candidates a.slot = some r → repetitionOf candidates b.slot = some r →
    a.batch < b.batch ∧ a.answer ≠ .sequenceBusy

/-- What the calls of a dispatch loop respect. -/
structure LoopCalls (candidates : List ResolvedCandidate) (schedule : List Slot)
    (batches : List ResolvedBatch) (done : Nat) (busy : List Repetition) (calls : List Call) : Prop where
  among : (calls.map (·.slot)).Sublist (batches.flatMap (slice schedule))
  later : ∀ call ∈ calls, done ≤ call.batch
  free : ∀ call ∈ calls, ∀ r ∈ busy, repetitionOf candidates call.slot ≠ some r
  apart : calls.Pairwise (Apart candidates)

/-- One batch: its slice has a repetition once, so its calls are apart. -/
theorem BatchCalls.loop {batch : ResolvedBatch} {done : Nat} {busy : List Repetition} {calls : List Call}
    (made : BatchCalls candidates done (slice schedule batch) busy calls)
    (single : ((slice schedule batch).filterMap (repetitionOf candidates)).Nodup) :
    LoopCalls candidates schedule [batch] done busy calls := by
  refine ⟨by simpa using made.among, fun call member => (made.here call member).ge, made.free, ?_⟩
  have once : calls.Pairwise fun a b => ∀ r, repetitionOf candidates a.slot = some r →
      repetitionOf candidates b.slot ≠ some r := by
    have distinct := List.pairwise_filterMap.mp (single.sublist (made.among.filterMap _))
    apply (List.pairwise_map.mp distinct).imp
    intro a b unlike r first second
    exact unlike r first r second rfl
  apply once.imp
  intro a b unlike r first second
  exact absurd second (unlike r first)

theorem LoopCalls.append {batch : ResolvedBatch} {batches : List ResolvedBatch} {done : Nat}
    {busy busy' : List Repetition} {first second : List Call}
    (made : BatchCalls candidates done (slice schedule batch) busy first)
    (single : ((slice schedule batch).filterMap (repetitionOf candidates)).Nodup)
    (more : LoopCalls candidates schedule batches (done + 1) busy' second) (grown : busy ⊆ busy')
    (found : ∀ call ∈ first, call.answer = .sequenceBusy →
      ∀ r, repetitionOf candidates call.slot = some r → r ∈ busy') :
    LoopCalls candidates schedule (batch :: batches) done busy (first ++ second) := by
  have here := made.loop single
  refine ⟨?_, ?_, ?_, ?_⟩
  · rw [List.map_append, List.flatMap_cons]
    exact made.among.append more.among
  · intro call member
    rcases List.mem_append.mp member with early | late
    · exact here.later call early
    · exact Nat.le_of_succ_le (more.later call late)
  · intro call member r inside
    rcases List.mem_append.mp member with early | late
    · exact made.free call early r inside
    · exact more.free call late r (grown inside)
  · apply List.pairwise_append.mpr
    refine ⟨here.apart, more.apart, fun a aIn b bIn r first second => ?_⟩
    have early := made.here a aIn
    have late := more.later b bIn
    refine ⟨by omega, fun is => ?_⟩
    exact more.free b bIn r (found a aIn is r first) second

theorem BatchCalls.still {batch : Nat} {slots : List Slot} {busy : List Repetition} {calls : List Call}
    (made : BatchCalls candidates batch slots busy calls) (still : Still base candidates) :
    BatchCalls base batch slots busy calls := by
  refine ⟨made.among, made.here, fun call member r inside => ?_, made.respects.imp ?_⟩
  · rw [← still.repetitionOf]
    exact made.free call member r inside
  · intro a b apart r first second
    rw [← still.repetitionOf] at first second
    exact apart r first second

/-- The step of the loop, and by induction the loop: what is found busy stays so. -/
theorem calls_loop {batches : List ResolvedBatch}
    (single : ∀ batch ∈ batches, ((slice schedule batch).filterMap (repetitionOf base)).Nodup) :
    ∀ state : Dispatching Attempt, Still base state.candidates →
      LoopCalls base schedule batches state.log.length state.busy
        (calls environment maxAttempts schedule batches state) := by
  have nothing : ∀ (batches : List ResolvedBatch) (state : Dispatching Attempt),
      LoopCalls base schedule batches state.log.length state.busy [] :=
    fun _ _ => ⟨List.nil_sublist _, by simp, by simp, .nil⟩
  induction batches with
  | nil => exact fun state _ => nothing [] state
  | cons batch rest ih =>
      intro state still
      rcases List.forall_mem_cons.mp single with ⟨here, later⟩
      unfold calls
      split
      · exact nothing _ state
      · have made := (@batchCalls_respect Attempt environment maxAttempts
          state.candidates state.log.length state.attempts.length
          (slice schedule batch) 0 state.busy).still still
        have step := @dispatchBatch_reserved Attempt environment maxAttempts schedule
          batch state
        generalize dispatchBatch environment maxAttempts schedule batch state = result at step ⊢
        rcases result with ⟨next, outcome⟩
        cases outcome with
        | error e =>
            simp only [List.append_nil]
            split
            · exact nothing _ state
            · have one := made.loop here
              refine ⟨?_, one.later, one.free, one.apart⟩
              exact one.among.trans (by simp)
        | ok u =>
            rcases step with ⟨-, e, no⟩ | ⟨reserved, kept, inside, busy, stays, dispatch, log, -⟩
            · cases no
            · rw [if_neg inside]
              have more := ih later next (still.trans stays)
              have length : next.log.length = state.log.length + 1 := by
                change next.log = _ at log
                rw [log, List.length_append]
                rfl
              change next.busy = _ at busy
              rw [length, busy] at more
              apply LoopCalls.append made here more kept.busy
              intro call member is r point
              rw [← still.repetitionOf] at point
              exact kept.found call member is r point

/-- What was executed is what was reserved, in that order; all of it unless the loop
stopped with an error. -/
theorem calls_executed {batches : List ResolvedBatch} :
    ∀ state : Dispatching Attempt,
      let result := dispatch environment maxAttempts schedule batches state
      let owned := ownedSlots (calls environment maxAttempts schedule batches state)
      ∃ added, result.1.log = state.log ++ added ∧ added.flatMap (·.slots) <+: owned ∧
        ∀ u, result.2 = .ok u → added.flatMap (·.slots) = owned := by
  induction batches with
  | nil => exact fun state => ⟨[], by simp [dispatch], List.nil_prefix, fun _ _ => rfl⟩
  | cons batch rest ih =>
      intro state
      unfold dispatch calls
      split
      · exact ⟨[], by simp, List.nil_prefix, fun _ _ => rfl⟩
      · have step := @dispatchBatch_reserved Attempt environment maxAttempts schedule
          batch state
        generalize dispatchBatch environment maxAttempts schedule batch state = result at step ⊢
        rcases result with ⟨next, outcome⟩
        cases outcome with
        | error e =>
            rcases step with ⟨same, -⟩ | ⟨reserved, kept, inside, -, -, dispatch, log, slots⟩
            · refine ⟨[], by simpa using congrArg Dispatching.log same, List.nil_prefix, ?_⟩
              intro u no
              cases no
            · refine ⟨[dispatch], log, ?_, ?_⟩
              · rw [if_neg inside, List.flatMap_singleton, slots, kept.slots, List.append_nil]
                exact List.prefix_refl _
              · intro u no
                cases no
        | ok u =>
            rcases step with ⟨-, e, no⟩ | ⟨reserved, kept, inside, -, -, dispatch, log, slots⟩
            · cases no
            · rcases ih next with ⟨added, more, leading, complete⟩
              have owned : ∀ first second : List Call,
                  ownedSlots (first ++ second) = ownedSlots first ++ ownedSlots second := by
                intro first second
                simp [ownedSlots]
              change next.log = _ at log
              refine ⟨dispatch :: added, ?_, ?_, ?_⟩
              · rw [more, log, List.append_assoc]
                rfl
              · rw [if_neg inside, owned, List.flatMap_cons, slots, kept.slots]
                exact (List.prefix_append_right_inj _).mpr leading
              · intro v fine
                rw [if_neg inside, owned, List.flatMap_cons, slots, kept.slots, complete v fine]
                rfl

theorem executedSlots_reserved {log : List Dispatch}
    (each : ∀ dispatch ∈ log, DispatchExact schedule dispatch) :
    (executedSlots log).Sublist (log.flatMap (·.slots)) := by
  induction log with
  | nil => exact .slnil
  | cons dispatch rest ih =>
      rcases List.forall_mem_cons.mp each with ⟨here, later⟩
      have ran := here.own.sublist.map fun pairing : Pairing => pairing.1.1
      rw [ownPairings_slots] at ran
      exact ran.append (ih later)

theorem executedSlots_complete {log : List Dispatch}
    (each : ∀ dispatch ∈ log, dispatch.pairings = ownPairings dispatch.slots) :
    executedSlots log = log.flatMap (·.slots) := by
  apply List.flatMap_congr
  intro dispatch member
  rw [each dispatch member, ownPairings_slots]

/-- The slots of a plan that are selected and not settled yet, in dispatch order. -/
def BoundPlan.selected {hashes : Hashes} (plan : BoundPlan hashes) (keep : Slot → Bool) : List Slot :=
  (plan.schedule.map Prod.fst).filter keep

/-- Of two calls for points of one fresh repetition the second has the higher schedule
index and is in a later batch, and the first has not found the repetition busy. -/
def InSequence {hashes : Hashes} (plan : BoundPlan hashes) (a b : Call) : Prop :=
  ∀ m n, (a.slot, m) ∈ plan.schedule → (b.slot, n) ∈ plan.schedule →
    ∀ r, freshRepetition m = some r → freshRepetition n = some r →
      scheduleIndex m < scheduleIndex n ∧ a.batch < b.batch ∧ a.answer ≠ .sequenceBusy

/-- The slots of a sublist of the schedule rise along with their measurements. -/
theorem BoundPlan.rising_of_sublist {hashes : Hashes} (plan : BoundPlan hashes) {slots : List Slot}
    (among : slots.Sublist (plan.schedule.map Prod.fst)) :
    slots.Pairwise fun a b => ∀ m n, (a, m) ∈ plan.schedule → (b, n) ∈ plan.schedule → Rising m n := by
  have only : ∀ {a m m'}, (a, m) ∈ plan.schedule → (a, m') ∈ plan.schedule → m = m' := by
    intro a m m' here there
    exact congrArg Prod.snd (List.inj_on_of_nodup_map plan.schedule_nodup here there rfl)
  have whole : (plan.schedule.map Prod.fst).Pairwise fun a b =>
      ∀ m n, (a, m) ∈ plan.schedule → (b, n) ∈ plan.schedule → Rising m n := by
    apply List.pairwise_map.mpr
    apply plan.schedule_rising.imp_of_mem
    intro a b aIn bIn rising m n first second
    rw [only first aIn, only second bIn]
    exact rising
  exact whole.sublist among

section Study

open Planning

/-- The number of one of the first four identities of a kind. -/
def numberOf (kind : IdentityKind) (value : Json) : UInt8 :=
  .ofNat (((List.range 4).find? fun i => value = .str (⟨.fill (.ofNat i)⟩ : RecordId kind).text).getD 9)

/-- Hashes that read the coordinates of a point off its identity value. -/
def pointHashes : Hashes where
  identity kind value :=
    match kind with
    | .logicalObservationSlot =>
        .fill (.ofNat (2 * (asU64? (value.get "measurement_index")).getD 0 +
          (asU64? ((value.get "fresh").get "schedule_index")).getD 0))
    | .logicalAttemptSlot =>
        .fill (numberOf .logicalObservationSlot ((value.get "role").get "observation_slot"))
    | .resolvedAttemptSlot => .fill (numberOf .logicalAttemptSlot (value.get "logical_slot"))
    | _ => .fill 0
  seed _ _ := .fill 0
  transcript _ := .fill 0

def pointDelivery : Delivery :=
  some (studyPolicy, .fresh ⟨⟨"control.json", none⟩, .explicit [.obj [], .obj [("n", .num (.int 1))]]⟩)

def pointPlanned : Except LogicalPlanningError OneShotSpecificationPlan :=
  planSpecification pointHashes studyExperiment ⟨.fill 0⟩ ⟨.fill 0⟩ ⟨.fill 0⟩ 0 0 ⟨0, .fill 0⟩
    pointDelivery.profileBound

def pointPlan : OneShotSpecificationPlan :=
  pointPlanned.toOption.getD ⟨⟨⟨.fill 0⟩, ⟨⟨.fill 0⟩, .none, 0, ⟨0, .fill 0⟩⟩⟩, [], []⟩

def pointResolved : Except LogicalPlanningError (List Measurement) :=
  resolveSpecification pointHashes pointDelivery ⟨.fill 0⟩ ⟨.fill 0⟩ ⟨.fill 0⟩ "" ⟨.fill 0⟩ pointPlan

theorem pointPlanned_ok : pointPlanned = .ok pointPlan := by
  have planned : pointPlanned.toBool = true := by decide +kernel
  unfold pointPlan
  cases result : pointPlanned with
  | ok plan => rfl
  | error e =>
      rw [result] at planned
      cases planned

def pointSpecification : BoundSpecification pointHashes where
  delivery := pointDelivery
  datasetInstance := ⟨.fill 0⟩
  problemConfiguration := ⟨.fill 0⟩
  candidate := ⟨.fill 0⟩
  applicability := ""
  resolved := ⟨.fill 0⟩
  plan := pointPlan
  measurements := pointResolved.toOption.getD []
  points := by
    have separates : Separates pointHashes.identity pointPlan := by decide +kernel
    exact SlotLayout.points (layout_of_planned pointPlanned_ok separates)
  resolves := by
    have resolved : pointResolved.toBool = true := by decide +kernel
    change pointResolved = _
    cases result : pointResolved with
    | ok measurements => rfl
    | error e =>
        rw [result] at resolved
        cases resolved

/-- One experiment of two lanes with one candidate. -/
def pointStudy : BoundPlan pointHashes where
  experiments := [⟨"study", 2, by decide, .sequential, ⟨0, .fill 0⟩, [⟨[pointSpecification]⟩]⟩]
  named := by decide
  distinct := by decide +kernel
  names := by
    intro c cIn s sIn d dIn t tIn _
    cases List.mem_singleton.mp cIn
    cases List.mem_singleton.mp dIn
    rw [List.mem_singleton.mp sIn, List.mem_singleton.mp tIn]

example : (pointStudy.schedule.map fun entry => (entry.1, scheduleIndex entry.2)) =
    [((0, 0), 0), ((0, 1), 1), ((0, 2), 0), ((0, 3), 1)] := by
  decide +kernel

end Study

end Metewand.Run
