import Metewand.Worker.Reuse

/-!
# Warmed workers

Whenever the measured callback runs, the history of its process is `Primed`: every slot and
warm-up was followed by a successful reset, and the warm-ups of the slot's specification are
the last thing that happened before slots of that specification (`measured_on_primed`).
A retained session is one such history with its last slot still uncleared (`Inv`).
-/

namespace Metewand.Worker

open Lib

variable {T E : Type} {process : Nat} {key : WorkerReuseKey} {specification : Option SpecificationId}

/-! ## Histories of a process -/

/-- What happened to one process. -/
def history (process : Nat) (trace : List Event) : List Event :=
  trace.filter fun event => event.process = process

theorem history_append (trace more : List Event) :
    history process (trace ++ more) = history process trace ++ history process more :=
  List.filter_append ..

theorem history_own {events : List Event} (own : ∀ event ∈ events, event.process = process) :
    history process events = events :=
  List.filter_eq_self.mpr fun event member => decide_eq_true (own event member)

/-- Warm-ups of a specification, each followed by a reset. -/
def warmedFrom (process : Nat) (specification : Option SpecificationId) (index count : Nat) : List Event :=
  (List.range' index count).flatMap fun index => [.warmedUp process specification index, .cleared process]

/-- A successful slot, followed by a reset. -/
def slotEvents (process : Nat) (key : WorkerReuseKey) (specification : Option SpecificationId) :
    List Event :=
  [.measuring process key specification, .served process key specification, .cleared process]

/-- Every slot and every warm-up of the process succeeded and was followed by a successful
reset, and the slots were all of one key. -/
inductive Tidy (process : Nat) (key : WorkerReuseKey) : List Event → Prop where
  | launched : Tidy process key [.launched process]
  | warmedUp {events : List Event} (specification : Option SpecificationId) (index : Nat)
      (tidy : Tidy process key events) :
      Tidy process key (events ++ [.warmedUp process specification index, .cleared process])
  | served {events : List Event} (specification : Option SpecificationId)
      (tidy : Tidy process key events) :
      Tidy process key (events ++ slotEvents process key specification)

/-- The process is clean, and warmed for a specification: since its warm-ups only slots of
that specification ran. -/
structure Primed (process : Nat) (key : WorkerReuseKey) (specification : Option SpecificationId)
    (events : List Event) : Prop where
  tidy : Tidy process key events
  warmed : ∃ earlier slots, events = earlier ++
    warmedFrom process specification 0 key.policy.warmupRuns ++
      (List.replicate slots (slotEvents process key specification)).flatten

theorem warmedFrom_succ (index count : Nat) :
    warmedFrom process specification index (count + 1) =
      [.warmedUp process specification index, .cleared process] ++
        warmedFrom process specification (index + 1) count := by
  unfold warmedFrom
  rw [List.range'_succ, List.flatMap_cons]

theorem warmedFrom_own (index count : Nat) :
    ∀ event ∈ warmedFrom process specification index count, event.process = process := by
  intro event member
  obtain ⟨index, -, here⟩ := List.mem_flatMap.mp member
  rcases List.mem_cons.mp here with rfl | last
  · rfl
  · cases List.mem_singleton.mp last
    rfl

/-- Warming up keeps a process tidy. -/
theorem Tidy.warm {events : List Event} (tidy : Tidy process key events)
    (specification : Option SpecificationId) (index count : Nat) :
    Tidy process key (events ++ warmedFrom process specification index count) := by
  induction count generalizing events index with
  | zero =>
      rw [warmedFrom, List.range'_zero, List.flatMap_nil, List.append_nil]
      exact tidy
  | succ count ih =>
      rw [warmedFrom_succ, ← List.append_assoc]
      exact ih (tidy.warmedUp specification index) (index + 1)

/-- A slot keeps a process primed once it is cleared. -/
theorem Primed.again {events : List Event} (primed : Primed process key specification events) :
    Primed process key specification (events ++ slotEvents process key specification) := by
  obtain ⟨earlier, slots, split⟩ := primed.warmed
  refine ⟨primed.tidy.served specification, earlier, slots + 1, ?_⟩
  rw [List.replicate_succ', List.flatten_append, List.flatten_singleton, ← List.append_assoc, ← split]

/-! ## One call -/

/-- No measured callback starts. -/
def Quiet (events : List Event) : Prop := ∀ process key specification,
  Event.measuring process key specification ∉ events

/-- Processes are numbered by their launches. -/
def Numbered (worker : ReusableWorker) : Prop :=
  ∀ event ∈ worker.trace, event.process < worker.launches

/-- A retained session served its last slot, and was primed for it. -/
structure Inv (worker : ReusableWorker) : Prop where
  numbered : Numbered worker
  retained : ∀ key specification session, worker.retained = some (key, specification, session) →
    ∃ events, Primed session.process key specification events ∧
      history session.process worker.trace = events ++
        [.measuring session.process key specification, .served session.process key specification]

theorem Numbered.record {worker : ReusableWorker} (numbered : Numbered worker) {event : Event}
    (known : event.process < worker.launches) : Numbered (worker.record event) := by
  intro other member
  rcases List.mem_append.mp member with earlier | last
  · exact numbered other earlier
  · cases List.mem_singleton.mp last
    exact known

/-- A step that records some events, none of which starts a measured callback, and leaves no
worker retained. -/
structure Steps (worker worker' : ReusableWorker) (added : List Event) : Prop where
  trace : worker'.trace = worker.trace ++ added
  quiet : Quiet added
  numbered : Numbered worker'
  launches : worker.launches ≤ worker'.launches
  retained : worker'.retained = none

theorem clear_step {cleaning : Cleaning} {session : WorkerSession} {worker : ReusableWorker}
    (numbered : Numbered worker) (none_ : worker.retained = none)
    (known : session.process < worker.launches) :
    let result := clear (E := E) cleaning session worker
    ∃ event, Steps worker result.1 [event] ∧ event.process = session.process ∧
      ∀ session', result.2 = .ok session' → event = .cleared session.process ∧
        session'.process = session.process := by
  unfold clear
  cases resetAndClear (E := E) cleaning session.state with
  | error e =>
      refine ⟨.failed session.process, ⟨rfl, by simp [Quiet], numbered.record known, Nat.le_refl _, none_⟩,
        rfl, fun _ no => by cases no⟩
  | ok state =>
      refine ⟨.cleared session.process, ⟨rfl, by simp [Quiet], numbered.record known, Nat.le_refl _, none_⟩,
        rfl, fun session' is => ?_⟩
      cases is
      exact ⟨rfl, rfl⟩

theorem Quiet.append {events more : List Event} (first : Quiet events) (second : Quiet more) :
    Quiet (events ++ more) := by
  intro process key specification member
  rcases List.mem_append.mp member with earlier | later
  · exact first process key specification earlier
  · exact second process key specification later

theorem Steps.refl {worker : ReusableWorker} (numbered : Numbered worker) (none_ : worker.retained = none) :
    Steps worker worker [] :=
  ⟨(List.append_nil _).symm, by simp [Quiet], numbered, Nat.le_refl _, none_⟩

theorem Steps.trans {worker worker' worker'' : ReusableWorker} {added more : List Event}
    (first : Steps worker worker' added) (second : Steps worker' worker'' more) :
    Steps worker worker'' (added ++ more) := by
  refine ⟨?_, first.quiet.append second.quiet, second.numbered,
    Nat.le_trans first.launches second.launches, second.retained⟩
  rw [second.trace, first.trace, List.append_assoc]

theorem record_step {worker : ReusableWorker} (numbered : Numbered worker) (none_ : worker.retained = none)
    {event : Event} (known : event.process < worker.launches) (quiet : Quiet [event]) :
    Steps worker (worker.record event) [event] :=
  ⟨rfl, quiet, numbered.record known, Nat.le_refl _, none_⟩

/-- The warm-ups of a session, from an index on. -/
theorem warmUps_step (call : SlotCall T E) (count : Nat) : ∀ (index : Nat) (session : WorkerSession)
    (worker : ReusableWorker), Numbered worker → worker.retained = none →
      session.process < worker.launches →
      let result := warmUps call count index session worker
      ∃ added, Steps worker result.1 added ∧ (∀ event ∈ added, event.process = session.process) ∧
        ∀ session', result.2 = .ok session' → session'.process = session.process ∧
          added = warmedFrom session.process call.specification index count := by
  induction count with
  | zero =>
      intro index session worker numbered none_ known
      refine ⟨[], .refl numbered none_, by simp, fun session' is => ?_⟩
      cases is
      exact ⟨rfl, rfl⟩
  | succ count ih =>
      intro index session worker numbered none_ known
      unfold warmUps
      cases call.warmup session.state index with
      | error source =>
          refine ⟨[.failed session.process], record_step numbered none_ known (by simp [Quiet]),
            by simp [Event.process], fun _ no => by cases no⟩
      | ok state =>
          have warmed : Steps worker (worker.record (.warmedUp session.process call.specification index)) _ :=
            record_step numbered none_ known (by simp [Quiet])
          have step := @clear_step E (call.cleaning (index + 1)) ⟨session.process, state⟩ _
            warmed.numbered warmed.retained (Nat.lt_of_lt_of_le known warmed.launches)
          obtain ⟨event, cleared, own, done⟩ := step
          have both := warmed.trans cleared
          dsimp only
          cases outcome : clear (E := E) (call.cleaning (index + 1)) ⟨session.process, state⟩
              (worker.record (.warmedUp session.process call.specification index)) with
          | mk worker' result =>
              rw [outcome] at both done
              cases result with
              | error e =>
                  refine ⟨_, both, ?_, fun _ no => by cases no⟩
                  intro other member
                  rcases List.mem_cons.mp member with rfl | last
                  · rfl
                  · rw [List.mem_singleton.mp last, own]
              | ok session' =>
                  obtain ⟨is, same⟩ := done session' rfl
                  obtain ⟨added, more, owns, finished⟩ := ih (index + 1) session' worker' both.numbered
                    both.retained (Nat.lt_of_lt_of_le (same ▸ known) both.launches)
                  refine ⟨_, both.trans more, ?_, fun session'' fine => ?_⟩
                  · intro other member
                    rcases List.mem_append.mp member with earlier | later
                    · rcases List.mem_cons.mp earlier with rfl | last
                      · rfl
                      · rw [List.mem_singleton.mp last, own]
                    · rw [owns other later, same]
                  · obtain ⟨same', all⟩ := finished session'' fine
                    refine ⟨same'.trans same, ?_⟩
                    rw [all, is, warmedFrom_succ, same]
                    rfl

/-- Where the session of a slot comes from. -/
def Origin (worker : ReusableWorker) (call : SlotCall T E) (process : Nat) (added : List Event) : Prop :=
  .launched process ∈ added ∨ ∃ previous session, worker.retained = some (call.key, previous, session) ∧
    session.process = process ∧ ∃ events, history process worker.trace =
      events ++ [.measuring process call.key previous, .served process call.key previous]

theorem launch_step (call : SlotCall T E) {worker : ReusableWorker} (numbered : Numbered worker)
    (none_ : worker.retained = none) :
    let result := launch call worker
    ∃ added, Steps worker result.1 added ∧ ∀ session needsWarmups, result.2 = .ok (session, needsWarmups) →
      session.process < result.1.launches ∧ .launched session.process ∈ added ∧
        history session.process result.1.trace = [.launched session.process] ∧ needsWarmups = true := by
  unfold launch
  cases call.launch with
  | error source => exact ⟨[], .refl numbered none_, fun _ _ no => by cases no⟩
  | ok state =>
      have wider : Numbered { worker with launches := worker.launches + 1 } :=
        fun event member => Nat.lt_succ_of_lt (numbered event member)
      refine ⟨[.launched worker.launches], ⟨rfl, by simp [Quiet], wider.record (Nat.lt_succ_self _),
        Nat.le_succ _, none_⟩, fun session needsWarmups is => ?_⟩
      cases is
      refine ⟨Nat.lt_succ_self _, List.mem_singleton.mpr rfl, ?_, rfl⟩
      -- The number is new, so nothing happened to the process before.
      have before : history worker.launches worker.trace = [] :=
        List.filter_eq_nil_iff.mpr fun event member => by simpa using Nat.ne_of_lt (numbered event member)
      change history worker.launches (worker.trace ++ [.launched worker.launches]) = _
      rw [history_append, before]
      simp [history, Event.process]

theorem acquire_step (call : SlotCall T E) {worker : ReusableWorker} (inv : Inv worker) :
    let result := acquire call worker.retained { worker with retained := none }
    ∃ added, Steps { worker with retained := none } result.1 added ∧
      ∀ session needsWarmups, result.2 = .ok (session, needsWarmups) →
        session.process < result.1.launches ∧ Origin worker call session.process added ∧
        Tidy session.process call.key (history session.process result.1.trace) ∧
        (needsWarmups = false → Primed session.process call.key call.specification
          (history session.process result.1.trace)) := by
  have numbered : Numbered { worker with retained := none } := inv.numbered
  have launched : ∃ added, Steps { worker with retained := none }
      (launch call { worker with retained := none }).1 added ∧
      ∀ session needsWarmups, (launch call { worker with retained := none }).2 = .ok (session, needsWarmups) →
        session.process < (launch call { worker with retained := none }).1.launches ∧
        Origin worker call session.process added ∧
        Tidy session.process call.key (history session.process (launch call { worker with retained := none }).1.trace) ∧
        (needsWarmups = false → Primed session.process call.key call.specification
          (history session.process (launch call { worker with retained := none }).1.trace)) := by
    obtain ⟨added, steps, new⟩ := launch_step call numbered rfl
    refine ⟨added, steps, fun session needsWarmups is => ?_⟩
    obtain ⟨known, here, only, needs⟩ := new session needsWarmups is
    refine ⟨known, .inl here, ?_, fun no => ?_⟩
    · rw [only]
      exact .launched
    · rw [needs] at no
      cases no
  unfold acquire
  cases retained : worker.retained with
  | none => exact launched
  | some kept =>
      obtain ⟨previousKey, previous, session⟩ := kept
      simp only
      split
      · rename_i reuse
        obtain ⟨-, rfl, -⟩ := reuse
        obtain ⟨events, primed, is⟩ := inv.retained _ _ _ retained
        have known : session.process < worker.launches := by
          refine inv.numbered (.served session.process call.key previous) ?_
          have member : Event.served session.process call.key previous ∈ history session.process worker.trace := by
            rw [is]
            simp
          exact List.mem_of_mem_filter member
        obtain ⟨event, cleared, -, done⟩ := @clear_step E (call.cleaning 0) session _ numbered rfl known
        cases outcome : clear (E := E) (call.cleaning 0) session { worker with retained := none } with
        | mk worker' result =>
            rw [outcome] at cleared done
            cases result with
            | error e => exact ⟨_, cleared, fun _ _ no => by cases no⟩
            | ok session' =>
                refine ⟨_, cleared, fun session'' needsWarmups fine => ?_⟩
                cases fine
                obtain ⟨isCleared, same⟩ := done session' rfl
                have whole : history session.process worker'.trace =
                    events ++ slotEvents session.process call.key previous := by
                  rw [cleared.trace, history_append, is, isCleared, history_own (by simp [Event.process]),
                    List.append_assoc]
                  rfl
                rw [same, whole]
                refine ⟨Nat.lt_of_lt_of_le known cleared.launches, .inr ⟨previous, session, retained, rfl, events, is⟩,
                  primed.tidy.served previous, fun no => ?_⟩
                have matching : previous = call.specification := by simpa using no
                rw [← matching]
                exact primed.again
      · exact launched

theorem Inv.of_steps {worker worker' : ReusableWorker} {added : List Event} (steps : Steps worker worker' added) :
    Inv worker' :=
  ⟨steps.numbered, fun _ _ _ kept => by rw [steps.retained] at kept; cases kept⟩

theorem measure_step (call : SlotCall T E) {session : WorkerSession} {worker : ReusableWorker}
    (numbered : Numbered worker) (none_ : worker.retained = none) (known : session.process < worker.launches)
    (primed : Primed session.process call.key call.specification (history session.process worker.trace)) :
    let result := measure call session worker
    ∃ outcome, result.1.trace = worker.trace ++
        [.measuring session.process call.key call.specification, outcome] ∧
      Quiet [outcome] ∧ Inv result.1 ∧ ∀ e, result.2 = .error e → result.1.retained = none := by
  have started : Numbered (worker.record (.measuring session.process call.key call.specification)) :=
    numbered.record known
  have traced : ∀ event, ((worker.record (.measuring session.process call.key call.specification)).record
      event).trace = worker.trace ++ [.measuring session.process call.key call.specification, event] :=
    fun event => List.append_assoc _ _ _
  unfold measure
  cases call.measured session.state with
  | error source =>
      refine ⟨.failed session.process, traced _, by simp [Quiet], ⟨started.record known, ?_⟩, fun _ _ => none_⟩
      intro key specification session' kept
      have no : worker.retained = some (key, specification, session') := kept
      rw [none_] at no
      cases no
  | ok result =>
      obtain ⟨output, state⟩ := result
      have served : Numbered ((worker.record (.measuring session.process call.key call.specification)).record
          (.served session.process call.key call.specification)) := started.record known
      have own : history session.process [.measuring session.process call.key call.specification,
          .served session.process call.key call.specification] = _ := history_own (by simp [Event.process])
      refine ⟨.served session.process call.key call.specification, ?_, by simp [Quiet], ?_, ?_⟩
      · dsimp only
        split <;> exact traced _
      · dsimp only
        split
        · refine ⟨served, fun key specification session' kept => ?_⟩
          cases kept
          refine ⟨history session.process worker.trace, primed, ?_⟩
          dsimp only
          rw [traced, history_append, own]
        · refine ⟨served, fun key specification session' kept => ?_⟩
          have no : worker.retained = some (key, specification, session') := kept
          rw [none_] at no
          cases no
      · dsimp only
        intro e failed
        split at failed <;> cases failed

/-- The measured callback of a call starts once at most, on a process that is primed for it. -/
def MeasuresPrimed (worker : ReusableWorker) (call : SlotCall T E) (added : List Event) : Prop :=
  Quiet added ∨ ∃ process earlier outcome,
    added = earlier ++ [.measuring process call.key call.specification, outcome] ∧
    Quiet earlier ∧ Quiet [outcome] ∧ Origin worker call process earlier ∧
    Primed process call.key call.specification (history process (worker.trace ++ earlier))

theorem Origin.mono {worker : ReusableWorker} {call : SlotCall T E} {added : List Event}
    (origin : Origin worker call process added) (more : List Event) :
    Origin worker call process (added ++ more) :=
  origin.imp (List.mem_append_left _) id

/-- One call, accepted by its policy. -/
theorem runSlotScoped_step {call : SlotCall T E} {worker : ReusableWorker} (inv : Inv worker)
    (policy : ¬InvalidPolicy call.key) :
    let result := runSlotScoped call worker
    ∃ added, result.1.trace = worker.trace ++ added ∧ Inv result.1 ∧ MeasuresPrimed worker call added ∧
      ∀ e, result.2 = .error e → result.1.retained = none := by
  unfold runSlotScoped
  rw [if_neg policy]
  obtain ⟨acquired, steps, ready⟩ := acquire_step call inv
  cases got : acquire call worker.retained { worker with retained := none } with
  | mk worker₁ result₁ =>
  rw [got] at steps ready
  dsimp only at steps ready ⊢
  cases result₁ with
  | error e => exact ⟨acquired, steps.trace, .of_steps steps, .inl steps.quiet, fun _ _ => steps.retained⟩
  | ok pair =>
      obtain ⟨session, needsWarmups⟩ := pair
      obtain ⟨known, origin, tidy, primed⟩ := ready session needsWarmups rfl
      obtain ⟨warmed, more, own, finished⟩ := warmUps_step call
        (if needsWarmups then call.key.policy.warmupRuns else 0) 0 session worker₁ steps.numbered steps.retained known
      dsimp only
      cases warm : warmUps call (if needsWarmups then call.key.policy.warmupRuns else 0) 0 session worker₁ with
      | mk worker₂ result₂ =>
      rw [warm] at more finished
      have both := steps.trans more
      cases result₂ with
      | error e => exact ⟨_, both.trace, .of_steps both, .inl both.quiet, fun _ _ => both.retained⟩
      | ok session' =>
          obtain ⟨same, all⟩ := finished session' rfl
          have trace₂ : worker₂.trace = worker.trace ++ (acquired ++ warmed) := both.trace
          have whole : history session.process worker₂.trace =
              history session.process worker₁.trace ++ warmed := by
            rw [more.trace, history_append, history_own own]
          have primed₂ : Primed session'.process call.key call.specification
              (history session'.process worker₂.trace) := by
            rw [same, whole]
            cases needsWarmups with
            | false =>
                rw [all]
                simpa [warmedFrom] using primed rfl
            | true =>
                rw [all, if_pos rfl]
                refine ⟨tidy.warm call.specification 0 _, history session.process worker₁.trace, 0, ?_⟩
                simp
          have known₂ : session'.process < worker₂.launches := by
            rw [same]
            exact Nat.lt_of_lt_of_le known more.launches
          obtain ⟨outcome, traced, quiet, inv₂, fails⟩ := measure_step call both.numbered both.retained known₂ primed₂
          refine ⟨(acquired ++ warmed) ++ [.measuring session'.process call.key call.specification, outcome],
            ?_, inv₂, .inr ⟨session'.process, acquired ++ warmed, outcome, rfl, both.quiet, quiet, ?_, ?_⟩, fails⟩
          · rw [traced, trace₂, List.append_assoc]
          · rw [same]
            exact origin.mono _
          · rw [← trace₂]
            exact primed₂

/-! ## Every run -/

theorem default_inv : Inv ReusableWorker.default :=
  ⟨fun _ none_ => absurd none_ List.not_mem_nil, fun _ _ _ no => by cases no⟩

theorem perform_inv {worker : ReusableWorker} (inv : Inv worker) (call : Call T E) : Inv (worker.perform call) := by
  cases call with
  | slot call =>
      by_cases policy : InvalidPolicy call.key
      · change Inv (runSlotScoped call worker).1
        rw [runSlotScoped, if_pos policy]
        exact inv
      · obtain ⟨_, -, inv', -⟩ := runSlotScoped_step inv policy
        exact inv'
  | discard => exact ⟨inv.numbered, fun _ _ _ no => by cases no⟩

/-- The worker after a sequence of calls. -/
def after (calls : List (Call T E)) : ReusableWorker := run ReusableWorker.perform .default calls

theorem after_inv (calls : List (Call T E)) : Inv (after calls) :=
  run_invariant (fun _ call inv _ => perform_inv inv call) default_inv (Meets.trivial calls)

/-- Where an event lies that only one place of a list can hold. -/
theorem split_at_event {events : List Event} {first last event : Event} {earlier later : List Event}
    (split : events ++ [first, last] = earlier ++ event :: later)
    (before : event ∉ events) (after : event ≠ last) : event = first ∧ earlier = events := by
  rcases List.append_eq_append_iff.mp split with ⟨gap, here, rest⟩ | ⟨gap, here, rest⟩
  · rcases gap with _ | ⟨a, _ | ⟨b, gap⟩⟩
    · cases rest
      exact ⟨rfl, by simpa using here⟩
    · cases rest
      exact absurd rfl after
    · have none_ := congrArg List.length rest
      simp at none_
  · rcases gap with _ | ⟨a, gap⟩
    · cases rest
      exact ⟨rfl, by simpa using here.symm⟩
    · cases rest
      exact absurd (by rw [here]; simp) before

/-- A measured slot never sees a dirty or unwarmed worker, and after a failed call none is
kept. -/
theorem measured_on_primed (calls : List (Call T E)) (call : SlotCall T E) :
    let worker := after calls
    let result := runSlotScoped call worker
    (∀ before later process key specification,
      result.1.trace = before ++ .measuring process key specification :: later →
        worker.trace.length ≤ before.length →
          key = call.key ∧ specification = call.specification ∧
          Primed process key specification (history process before) ∧
          Origin worker call process (before.drop worker.trace.length)) ∧
    (∀ e, result.2 = .error e → e ≠ .invalidPolicy → result.1.retained = none) ∧
    (worker.perform (.discard : Call T E)).retained = none := by
  intro worker result
  refine ⟨fun before later process key specification split inCall => ?_, fun e failed other => ?_, rfl⟩
  · by_cases policy : InvalidPolicy call.key
    · have same : result.1.trace = worker.trace := by
        change (runSlotScoped call worker).1.trace = _
        rw [runSlotScoped, if_pos policy]
      have lengths := congrArg List.length (same.symm.trans split)
      rw [List.length_append, List.length_cons] at lengths
      omega
    · obtain ⟨added, traced, -, measures, -⟩ := runSlotScoped_step (after_inv calls) policy
      have both : worker.trace ++ added = before ++ .measuring process key specification :: later :=
        traced.symm.trans split
      obtain ⟨own, rfl, rest⟩ : ∃ own, before = worker.trace ++ own ∧
          added = own ++ .measuring process key specification :: later := by
        rcases List.append_eq_append_iff.mp both with ⟨own, here, rest⟩ | ⟨gap, here, rest⟩
        · exact ⟨own, here, rest⟩
        · have none_ := congrArg List.length here
          rw [List.length_append] at none_
          have empty : gap = [] := List.length_eq_zero_iff.mp (by omega)
          subst empty
          exact ⟨[], by simpa using here.symm, by simpa using rest.symm⟩
      rcases measures with quiet | ⟨process', earlier, outcome, is, quiet, last, origin, primed⟩
      · exact absurd (by rw [rest]; simp) (quiet process key specification)
      · have here := split_at_event (is.symm.trans rest) (quiet process key specification)
          (fun same => last process key specification (List.mem_singleton.mpr same))
        obtain ⟨event, rfl⟩ := here
        cases event
        rw [List.drop_left]
        exact ⟨rfl, rfl, primed, origin⟩
  · by_cases policy : InvalidPolicy call.key
    · have is : (runSlotScoped call worker).2 = .error e := failed
      rw [runSlotScoped, if_pos policy] at is
      cases is
      exact absurd rfl other
    · obtain ⟨_, -, -, -, fails⟩ := runSlotScoped_step (after_inv calls) policy
      exact fails e failed

/-! A process that is warmed once for each specification. -/

section Sample

def sampleKey : WorkerReuseKey where
  selectedCapabilities := [.oneShot]
  role := .implementation
  definition := default
  resolved := ⟨none, default, default⟩
  policy := {
    name := "warm", cpus := none, threads := none, memory := none, network := false
    workerReuse := true, warmupRuns := 1, timeout := none, timingScope := .executeOnly
    primaryTime := .timedWallTime, runOrder := .sequential, maxConcurrency := 1, enforcement := .bestEffort }

def sampleSession : SessionState := ⟨true, none, some ["worker"], some [], []⟩

def sampleCall (specification : Option SpecificationId) : Call Unit Unit :=
  .slot {
    key := sampleKey, specification := specification, launch := .ok sampleSession
    warmup := fun session _ => .ok session, measured := fun session => .ok ((), session)
    cleaning := fun _ => ⟨.ok, fun _ => .ok (), fun _ => .ok (), fun _ _ => .ok (), fun _ => .ok ()⟩ }

example : (after [sampleCall none, sampleCall none, sampleCall (some default)]).trace =
    [.launched 0, .warmedUp 0 none 0, .cleared 0, .measuring 0 sampleKey none, .served 0 sampleKey none,
      .cleared 0, .measuring 0 sampleKey none, .served 0 sampleKey none,
      .cleared 0, .warmedUp 0 (some default) 0, .cleared 0,
      .measuring 0 sampleKey (some default), .served 0 sampleKey (some default)] := by
  rfl

end Sample

end Metewand.Worker
