import Mathlib.Data.List.Dedup
import Metewand.RunStore.Stopping

/-!
# What a recovery pass can do

`PassStep` is everything one transaction of a pass can do, with what it has read;
`advance_passStep` says that there is nothing else.  Two facts are carried along a
pass: `Sifted`, that the evidence it holds for an attempt is exactly what the
orphans of the attempt passed validation with, and `Unlocked`, that it works on no
attempt whose stage was locked when the pass began.
-/

namespace Metewand.RunStore

open Lib

/-! ## One transaction of a pass -/

/-- The time a pass checks an attempt at. -/
def Pass.checkedAt (pass : Pass) (clock : Nat) : Nat :=
  match pass.phase with
  | .checking _ checked _ _ _ => max (max clock pass.now) checked
  | .publishing _ failure _ => max clock failure.finished
  | _ => max clock pass.now

/-- The guard of the attempt a pass is settling. -/
def Phase.guard : Phase → Option OwnedAttempt
  | .checking g _ _ _ _ | .publishing g _ _ => some g
  | _ => none

/-- What one transaction of a pass does to the pass and the database. -/
inductive PassStep (hash : Hasher) (db : Db) (pass : Pass) (reading : Reading) :
    Pass → Db → Prop
  | scanned {next : Pass} {db' : Db} (idle : pass.phase.guard = none)
      (idle' : next.phase.guard = none) (busy : next.busy = pass.busy)
      (same : SameBut [.artifacts] db db') : PassStep hash db pass reading next db'
  | taken {g : OwnedAttempt} {a : AttemptRow} {l : LeaseRow} {db' : Db}
      {attempts : List (RecordId .attempt)} (phase : pass.phase = .choosing (a.id :: attempts))
      (free : a.id ∉ pass.busy) (expired : Expired db (pass.checkedAt reading.clock) a l)
      (id : g.id = a.id)
      (moved : db' = db ∨ ∃ b, Advanced db db' a b ∧ b.state = .finalizing) :
      PassStep hash db pass reading { pass with
        phase := .checking g (pass.checkedAt reading.clock) (pass.candidates a.id) [] attempts } db'
  | passed {g : OwnedAttempt} {checked : Nat} {orphan : Orphan} {orphans : List Orphan}
      {valid : List (Orphan × Evidence)} {attempts : List (RecordId .attempt)}
      {evidence : Evidence} {db' : Db}
      (phase : pass.phase = .checking g checked (orphan :: orphans) valid attempts)
      (run : Tx.Yields (checkOrphan hash g orphan checked reading.intact) db evidence db') :
      PassStep hash db pass reading { pass with
        phase := .checking g checked orphans (valid ++ [(orphan, evidence)]) attempts } db
  | rejected {g : OwnedAttempt} {checked : Nat} {orphan : Orphan} {orphans : List Orphan}
      {valid : List (Orphan × Evidence)} {attempts : List (RecordId .attempt)}
      {e : RunStoreError}
      (phase : pass.phase = .checking g checked (orphan :: orphans) valid attempts)
      (run : checkOrphan hash g orphan checked reading.intact db = .error e) :
      PassStep hash db pass reading
        ({ pass with phase := .checking g checked orphans valid attempts }.reject
          orphan.artifact.relativePath e) db
  | imported {g : OwnedAttempt} {checked : Nat} {orphan : Orphan} {evidence evidence' : Evidence}
      {attempts : List (RecordId .attempt)} {terminal : TerminalAttempt} {a b : AttemptRow}
      {db' : Db} (phase : pass.phase = .checking g checked [] [(orphan, evidence)] attempts)
      (row : RecoveryFinished db db' g evidence.outcome evidence.finished
        (pass.checkedAt reading.clock) a b)
      (validated : Validated db g orphan (pass.checkedAt reading.clock) evidence')
      (outcome : evidence'.outcome = evidence.outcome)
      (references : evidence'.references = evidence.references)
      (finished : evidence'.finished = evidence.finished) :
      PassStep hash db pass reading (pass.settled terminal attempts) db'
  | doubted {g : OwnedAttempt} {checked : Nat} {valid : List (Orphan × Evidence)}
      {attempts : List (RecordId .attempt)} {next : Pass} {failure : Interrupted}
      (phase : pass.phase = .checking g checked [] valid attempts) (many : valid.length ≠ 1)
      (busy : next.busy = pass.busy) (phase' : next.phase = .publishing g failure attempts) :
      PassStep hash db pass reading next db
  | failed {g : OwnedAttempt} {failure : Interrupted} {attempts : List (RecordId .attempt)}
      {terminal : TerminalAttempt} {a b : AttemptRow} {db' : Db}
      (phase : pass.phase = .publishing g failure attempts)
      (row : RecoveryFinished db db' g interruptedOutcome failure.finished
        (pass.checkedAt reading.clock) a b) :
      PassStep hash db pass reading (pass.settled terminal attempts) db'
  | quarantined {next : Pass} {stage : RecoveredStage} {stages : List RecoveredStage} {db' : Db}
      (phase : pass.phase = .quarantining (stage :: stages))
      (phase' : next.phase = .quarantining stages) (busy : next.busy = pass.busy)
      (rows : Leased db db') : PassStep hash db pass reading next db'

section Advance

variable {hash : Hasher} {db db' : Db} {pass pass' : Pass} {reading : Reading}

theorem findOrphan_kept {name : String} {names : List String} {directory : Directory}
    (run : Tx.Yields (pass.findOrphan name names directory) db pass' db') :
    pass'.busy = pass.busy ∧ pass'.phase = .scanning names ∧ SameBut [.artifacts] db db' := by
  have stays : SameBut [.artifacts] db db := ⟨rfl, fun t _ => .rfl t⟩
  simp only [Pass.findOrphan, Tx.yields_get_bind, Tx.yields_ite] at run
  rcases run with ⟨-, run⟩ | ⟨-, run⟩
  · obtain ⟨rfl, rfl⟩ := Tx.yields_pure.mp run
    exact ⟨rfl, rfl, stays⟩
  · split at run
    · obtain ⟨rfl, rfl⟩ := Tx.yields_pure.mp run
      exact ⟨rfl, rfl, stays⟩
    · simp only [Tx.yields_ite] at run
      rcases run with ⟨-, run⟩ | ⟨-, run⟩
      · split at run
        · obtain ⟨rfl, rfl⟩ := Tx.yields_pure.mp run
          exact ⟨rfl, rfl, stays⟩
        · split at run
          · simp only [Tx.yields_ite] at run
            rcases run with ⟨-, run⟩ | ⟨-, run⟩
            · obtain ⟨rfl, rfl⟩ := Tx.yields_pure.mp run
              exact ⟨rfl, rfl, stays⟩
            · obtain ⟨rfl, rfl⟩ := Tx.yields_pure.mp run
              exact ⟨rfl, rfl, stays⟩
          · obtain ⟨rfl, rfl⟩ := Tx.yields_pure.mp run
            exact ⟨rfl, rfl, stays⟩
      · obtain ⟨⟨⟩, mid, registered, run⟩ := Tx.yields_bind.mp run
        simp only [yields_commit_bind, Tx.yields_pure] at run
        obtain ⟨-, rfl, rfl⟩ := run
        exact ⟨rfl, rfl, Uses.registerArtifact.sameBut registered⟩

theorem choose_passStep (h : Sound hash db) {id : RecordId .attempt}
    {attempts : List (RecordId .attempt)} (phase : pass.phase = .choosing (id :: attempts))
    (run : Tx.Yields (pass.choose hash id attempts reading.clock) db pass' db') :
    PassStep hash db pass reading pass' db' := by
  have at_ : pass.checkedAt reading.clock = max reading.clock pass.now := by
    simp only [Pass.checkedAt, phase]
  have skipped : PassStep hash db pass reading { pass with phase := .choosing attempts } db :=
    .scanned (by rw [phase]; rfl) rfl rfl ⟨rfl, fun t _ => .rfl t⟩
  simp only [Pass.choose, Tx.yields_ite, Tx.yields_pure, yields_timestamp_bind] at run
  rcases run with ⟨-, rfl, rfl⟩ | ⟨free, small, run⟩
  · exact skipped
  · obtain ⟨taken, mid, taking, rest⟩ := Tx.yields_bind.mp run
    obtain ⟨-, ⟨rfl, same, -⟩ | ⟨a, l, rfl, expired, cases_⟩⟩ :=
      yields_takeOver h.toIntegrity h.projected small taking
    · obtain ⟨rfl, rfl⟩ := Tx.yields_pure.mp rest
      rw [same]
      exact skipped
    · rw [← at_] at expired
      rcases cases_ with ⟨-, rfl, same⟩ | ⟨b, row, finalizing, rfl⟩
      · obtain ⟨rfl, rfl⟩ := Tx.yields_pure.mp rest
        rw [← at_]
        exact .taken phase free expired rfl (.inl same)
      · obtain ⟨rfl, rfl⟩ := Tx.yields_pure.mp rest
        rw [← at_]
        exact .taken phase free expired rfl (.inr ⟨b, row, finalizing⟩)

theorem checkNext_passStep {g : OwnedAttempt} {checked : Nat} {orphan : Orphan}
    {orphans : List Orphan} {valid : List (Orphan × Evidence)}
    {attempts : List (RecordId .attempt)}
    (phase : pass.phase = .checking g checked (orphan :: orphans) valid attempts)
    (run : Tx.Yields (pass.checkNext hash g checked orphan orphans valid attempts reading.intact) db
      pass' db') : PassStep hash db pass reading pass' db' := by
  simp only [Pass.checkNext, Tx.yields_get_bind] at run
  split at run
  · rename_i evidence last found
    obtain ⟨rfl, rfl⟩ := Tx.yields_pure.mp run
    exact .passed phase found
  · simp at run
  · simp at run
  · rename_i e _ _ found
    obtain ⟨rfl, rfl⟩ := Tx.yields_pure.mp run
    exact .rejected phase found

theorem conclude_passStep (h : Sound hash db) {g : OwnedAttempt} {checked : Nat}
    {valid : List (Orphan × Evidence)} {attempts : List (RecordId .attempt)}
    (parsed : ∀ found ∈ valid, found.2.Parsed found.1)
    (phase : pass.phase = .checking g checked [] valid attempts)
    (run : Tx.Yields (pass.conclude hash g checked valid attempts reading) db pass' db') :
    PassStep hash db pass reading pass' db' := by
  have at_ : pass.checkedAt reading.clock = max (max reading.clock pass.now) checked := by
    simp only [Pass.checkedAt, phase]
  unfold Pass.conclude at run
  split at run
  · rename_i orphan evidence
    obtain ⟨⟨⟩, mid, intact, run⟩ := Tx.yields_bind.mp run
    obtain rfl : db = mid := by
      have reads : Uses [] (Tx.each (fun root => Tx.check (reading.intact root)) evidence.roots) :=
        .each fun _ => .check
      exact (reads.readOnly intact).symm
    obtain ⟨terminal, last, importing, run⟩ := Tx.yields_bind.mp run
    obtain ⟨rfl, rfl⟩ := Tx.yields_pure.mp run
    rw [← at_] at importing
    obtain ⟨⟨a, b, done⟩, ⟨evidence', validated, outcome, references, finished⟩, -⟩ :=
      yields_importOutcome h.toIntegrity h.projected
        (parsed (orphan, evidence) (List.mem_singleton_self _)) importing
    exact .imported phase done validated outcome references finished
  · rename_i several
    obtain ⟨failure, documented, run⟩ := Uses.documentInterrupted.readOnly_bind run
    obtain ⟨rfl, rfl⟩ := Tx.yields_pure.mp run
    have many : valid.length ≠ 1 := by
      intro one
      obtain ⟨⟨orphan, evidence⟩, rfl⟩ := List.length_eq_one_iff.mp one
      exact several orphan evidence rfl
    obtain ⟨-, busy, phase'⟩ := foldl_reject (v := valid)
    exact .doubted phase many busy phase'

/-- Every transaction of a pass that goes on is one of the steps. -/
theorem advance_passStep (h : Sound hash db) (sound : CallSound db (.recover pass))
    {outcome : Pass ⊕ RecoveryReport}
    (run : Tx.Yields (pass.advance hash reading) db outcome db') :
    (∃ pass', outcome = .inl pass' ∧ PassStep hash db pass reading pass' db') ∨
      ((∃ report, outcome = .inr report) ∧ db' = db) := by
  have stays : SameBut [.artifacts] db db := ⟨rfl, fun t _ => .rfl t⟩
  obtain ⟨stages, local_⟩ := sound
  revert local_
  unfold Pass.advance at run
  split at run
  · rename_i name names phase
    intro _
    obtain ⟨next', mid, found, run⟩ := Tx.yields_bind.mp run
    obtain ⟨rfl, rfl⟩ := Tx.yields_pure.mp run
    obtain ⟨busy, phase', same⟩ := findOrphan_kept found
    exact .inl ⟨next', rfl, .scanned (by rw [phase]; rfl) (by rw [phase']; rfl) busy same⟩
  · rename_i phase
    intro _
    simp only [Tx.yields_get_bind, Tx.yields_pure] at run
    obtain ⟨rfl, rfl⟩ := run
    exact .inl ⟨_, rfl, .scanned (by rw [phase]; rfl) rfl rfl stays⟩
  · rename_i id attempts phase
    intro _
    obtain ⟨next', mid, chosen, run⟩ := Tx.yields_bind.mp run
    obtain ⟨rfl, rfl⟩ := Tx.yields_pure.mp run
    exact .inl ⟨next', rfl, choose_passStep h phase chosen⟩
  · rename_i phase
    intro _
    obtain ⟨rfl, rfl⟩ := Tx.yields_pure.mp run
    exact .inl ⟨_, rfl, .scanned (by rw [phase]; rfl) rfl rfl stays⟩
  · rename_i g checked orphan orphans valid attempts phase
    intro _
    obtain ⟨next', mid, checked, run⟩ := Tx.yields_bind.mp run
    obtain ⟨rfl, rfl⟩ := Tx.yields_pure.mp run
    exact .inl ⟨next', rfl, checkNext_passStep phase checked⟩
  · rename_i g checked valid attempts phase
    rw [phase]
    intro facts
    obtain ⟨next', mid, concluded, run⟩ := Tx.yields_bind.mp run
    obtain ⟨rfl, rfl⟩ := Tx.yields_pure.mp run
    exact .inl ⟨next', rfl, conclude_passStep h facts.2 phase concluded⟩
  · rename_i g failure attempts phase
    intro _
    obtain ⟨terminal, mid, failing, run⟩ := Tx.yields_bind.mp run
    obtain ⟨rfl, rfl⟩ := Tx.yields_pure.mp run
    have at_ : pass.checkedAt reading.clock = max reading.clock failure.finished := by
      simp only [Pass.checkedAt, phase]
    rw [← at_] at failing
    obtain ⟨⟨a, b, done⟩, -⟩ := yields_failInterrupted h.toIntegrity h.projected failing
    exact .inl ⟨_, rfl, .failed phase done⟩
  · rename_i stage rest phase
    rw [phase]
    intro facts
    obtain ⟨next', mid, settling, run⟩ := Tx.yields_bind.mp run
    obtain ⟨rfl, rfl⟩ := Tx.yields_pure.mp run
    obtain ⟨settled, last, settle, rest'⟩ := Tx.yields_bind.mp settling
    obtain ⟨rfl, rfl⟩ := Tx.yields_pure.mp rest'
    obtain ⟨rows, -⟩ := yields_settleStage h.toIntegrity h.projected
      (facts stage List.mem_cons_self) settle
    exact .inl ⟨_, rfl, .quarantined phase rfl rfl rows⟩
  · intro _
    obtain ⟨rfl, rfl⟩ := Tx.yields_pure.mp run
    exact .inr ⟨⟨_, rfl⟩, rfl⟩

end Advance

/-! ## Passes of a world -/

section Worlds

variable {hash : Hasher} {w : World} {pass : Pass}

/-- A request begins a pass only if it is a recovery. -/
theorem request_begins {db db' : Db} {request : Request} {answer : Answer}
    (run : Tx.Yields (requestTransaction hash request) db answer db')
    (begun : Call.recover pass ∈ answer.calls) :
    ∃ clock staged lock names, request = .recover clock staged lock names ∧
      Tx.Yields (beginRecovery clock staged lock names) db pass db' := by
  have none : ∀ {guards : List OwnedAttempt}, answer = ⟨guards, []⟩ → False := by
    rintro guards rfl
    exact absurd begun List.not_mem_nil
  have other : ∀ {guards : List OwnedAttempt} {call : Call}, answer = ⟨guards, [call]⟩ →
      (∀ pass, call ≠ .recover pass) → False := by
    rintro guards call rfl different
    exact different pass (List.mem_singleton.mp begun).symm
  cases request with
  | recover clock staged lock names =>
      obtain ⟨pass', mid, ran, run⟩ := Tx.yields_bind.mp run
      obtain ⟨rfl, rfl⟩ := Tx.yields_pure.mp run
      obtain rfl : pass = pass' := Call.recover.inj (List.mem_singleton.mp begun)
      exact ⟨clock, staged, lock, names, rfl, ran⟩
  | registerFresh candidate spec slot observation point =>
      obtain ⟨_, mid, ran, run⟩ := Tx.yields_bind.mp run
      exact (other (Tx.yields_pure.mp run).1 fun _ => Call.noConfusion).elim
  | publishArtifact g kind relative now =>
      simp only [requestTransaction, Tx.yields_require_bind] at run
      obtain ⟨-, run⟩ := run
      obtain ⟨_, mid, ran, run⟩ := Tx.yields_bind.mp run
      exact (other (Tx.yields_pure.mp run).1 fun _ => Call.noConfusion).elim
  | publishFinalization g outcome references relative now =>
      simp only [requestTransaction, Tx.yields_check_bind] at run
      obtain ⟨_, -, run⟩ := run
      obtain ⟨_, mid, ran, run⟩ := Tx.yields_bind.mp run
      exact (other (Tx.yields_pure.mp run).1 fun _ => Call.noConfusion).elim
  | _ =>
      obtain ⟨_, mid, ran, run⟩ := Tx.yields_bind.mp run
      exact (none (Tx.yields_pure.mp run).1).elim

/-- A suspended call goes on as a pass only if it is one. -/
theorem resume_passes {db db' : Db} {reading : Reading} {call : Call} {answer : Answer}
    (h : Sound hash db) (sound : CallSound db call)
    (run : Tx.Yields (resumeCall hash reading call) db answer db')
    (going : Call.recover pass ∈ answer.calls) :
    ∃ before, call = .recover before ∧ PassStep hash db before reading pass db' := by
  have none : ∀ {guards : List OwnedAttempt}, answer = ⟨guards, []⟩ → False := by
    rintro guards rfl
    exact absurd going List.not_mem_nil
  unfold resumeCall at run
  split at run
  · simp at run
  cases call with
  | recover before =>
      obtain ⟨outcome, mid, ran, run⟩ := Tx.yields_bind.mp run
      rcases advance_passStep h sound ran with ⟨pass', rfl, step⟩ | ⟨⟨report, rfl⟩, -⟩
      · obtain ⟨rfl, rfl⟩ := Tx.yields_pure.mp run
        obtain rfl : pass = pass' := Call.recover.inj (List.mem_singleton.mp going)
        exact ⟨before, rfl, step⟩
      · exact (none (Tx.yields_pure.mp run).1).elim
  | documentOutcome g outcome references stage =>
      obtain ⟨_, mid, ran, run⟩ := Tx.yields_bind.mp run
      obtain ⟨rfl, -⟩ := Tx.yields_pure.mp run
      exact Call.noConfusion (List.mem_singleton.mp going)
  | _ =>
      obtain ⟨_, mid, ran, run⟩ := Tx.yields_bind.mp run
      exact (none (Tx.yields_pure.mp run).1).elim

/-- A step commits the answer of a transaction or leaves the database and issues nothing. -/
theorem next_cases (hash : Hasher) (w : World) (label : Label) :
    (∃ body answer db', w.transaction hash label = some body ∧ Tx.Yields body w.db answer db' ∧
        next hash w label = ⟨db', w.guards ++ answer.guards, w.suspended label ++ answer.calls⟩) ∨
      ((next hash w label).db = w.db ∧ ∀ c ∈ (next hash w label).calls, c ∈ w.calls) := by
  unfold next
  cases transaction : w.transaction hash label with
  | none => exact .inr ⟨rfl, fun _ member => member⟩
  | some body =>
      rcases Tx.atomically_cases body w.db with ⟨answer, db', run, outcome⟩ | ⟨e, -, outcome⟩
      · refine .inl ⟨body, answer, db', rfl, run, ?_⟩
        simp only [outcome]
      · simp only [outcome]
        exact .inr ⟨trivial, w.suspended_subset label⟩

/-- The rule for what passes carry along: it survives the steps of others, holds when
a pass begins, and is kept by the pass's own steps. -/
theorem Reachable.carries {inv : Db → Pass → Prop}
    (grown : ∀ {db db' pass}, Grown db db' → inv db pass → inv db' pass)
    (begun : ∀ {db db' pass clock staged lock names}, Integrity db →
      Tx.Yields (beginRecovery clock staged lock names) db pass db' → inv db pass)
    (step : ∀ {w : World} {pass pass' db' reading}, Reachable hash w → Grown w.db db' →
      inv w.db pass → PassStep hash w.db pass reading pass' db' → inv db' pass')
    (reach : Reachable hash w) : ∀ pass, .recover pass ∈ w.calls → inv w.db pass := by
  have both : Reachable hash w ∧ ∀ pass, .recover pass ∈ w.calls → inv w.db pass := by
    refine @Lib.Reachable.invariant _ _ (next hash) World.Initial w
      (fun w => Reachable hash w ∧ ∀ pass, .recover pass ∈ w.calls → inv w.db pass)
      (fun w first => ⟨.of_initial first, ?_⟩) (fun w label hold => ⟨hold.1.after label, ?_⟩) reach
    · obtain ⟨layout, -, rfl⟩ := first
      exact fun _ member => absurd member List.not_mem_nil
    · obtain ⟨reach, old⟩ := hold
      have later := (reach.sound.stepped label).grown
      intro pass member
      rcases next_cases hash w label with ⟨body, answer, db', transaction, run, after⟩ |
        ⟨same, subset⟩
      · rw [after] at member later ⊢
        rcases List.mem_append.mp member with before | new
        · exact grown later (old pass (w.suspended_subset label _ before))
        · cases label with
          | request request =>
              simp only [World.transaction] at transaction
              split at transaction
              · cases transaction
                obtain ⟨clock, staged, lock, names, -, began⟩ := request_begins run new
                exact grown later (begun reach.sound.db.toIntegrity began)
              · cases transaction
          | resume index reading =>
              obtain ⟨call, at_, rfl⟩ := Option.map_eq_some_iff.mp transaction
              have suspended := List.mem_of_getElem? at_
              obtain ⟨before, rfl, stepped⟩ :=
                resume_passes reach.sound.db (reach.sound.calls call suspended) run new
              exact step reach later (old before suspended) stepped
      · rw [same]
        exact old pass (subset _ member)
  exact both.2

end Worlds

/-! ## The evidence a pass holds -/

/-- The orphan was checked for the attempt, with this result, at an earlier world. -/
def Tried (hash : Hasher) (db : Db) (g : OwnedAttempt) (checked : Nat)
    (trial : Orphan × Option Evidence) : Prop :=
  ∃ (v : World) (intact : ArtifactRow → Except RunStoreError Unit), Reachable hash v ∧
    Grown v.db db ∧
    match trial.2 with
    | some evidence =>
        ∃ db', Tx.Yields (checkOrphan hash g trial.1 checked intact) v.db evidence db'
    | none => ∃ e, checkOrphan hash g trial.1 checked intact v.db = .error e

/-- The evidence of the orphans that passed. -/
def passing (trials : List (Orphan × Option Evidence)) : List (Orphan × Evidence) :=
  trials.filterMap fun trial => trial.2.map fun evidence => (trial.1, evidence)

/-- A pass that is checking an attempt has tried the first orphans of the attempt, holds
what passed, and has the others left. -/
def Sifted (hash : Hasher) (db : Db) (pass : Pass) : Prop :=
  ∀ g checked orphans valid attempts, pass.phase = .checking g checked orphans valid attempts →
    ∃ trials, pass.candidates g.id = trials.map Prod.fst ++ orphans ∧ valid = passing trials ∧
      ∀ trial ∈ trials, Tried hash db g checked trial

/-- A pass works on no attempt whose stage was locked. -/
def Unlocked (pass : Pass) : Prop := ∀ g ∈ pass.phase.guard, g.id ∉ pass.busy

section Carried

variable {hash : Hasher} {w : World} {pass : Pass}

theorem Tried.grown {db db' : Db} {g : OwnedAttempt} {checked : Nat}
    {trial : Orphan × Option Evidence} (grown : Grown db db')
    (tried : Tried hash db g checked trial) : Tried hash db' g checked trial := by
  obtain ⟨v, intact, reach, before, result⟩ := tried
  exact ⟨v, intact, reach, before.trans grown, result⟩

theorem passing_append (trials : List (Orphan × Option Evidence)) (orphan : Orphan)
    (result : Option Evidence) : passing (trials ++ [(orphan, result)]) =
      passing trials ++ (result.map fun evidence => (orphan, evidence)).toList := by
  unfold passing
  rw [List.filterMap_append]
  cases result with
  | none => rfl
  | some evidence => rfl

theorem beginRecovery_phase {db db' : Db} {clock : Nat} {staged : List String}
    {lock : String → StageLock} {names : List String}
    (run : Tx.Yields (beginRecovery clock staged lock names) db pass db') :
    pass.phase.guard = none := by
  simp only [beginRecovery, yields_timestamp_bind, Tx.yields_get_bind, Tx.yields_check_bind,
    Tx.yields_pure] at run
  obtain ⟨-, paths, -, found, -, rfl, -⟩ := run
  rfl

theorem Phase.not_checking {phase : Phase} (idle : phase.guard = none) {g : OwnedAttempt}
    {checked : Nat} {orphans : List Orphan} {valid : List (Orphan × Evidence)}
    {attempts : List (RecordId .attempt)} :
    phase ≠ .checking g checked orphans valid attempts := by
  rintro rfl
  cases idle

/-- One more orphan has been tried. -/
theorem Sifted.tried {orphan : Orphan} {orphans : List Orphan}
    {valid : List (Orphan × Evidence)} {attempts : List (RecordId .attempt)} {g : OwnedAttempt}
    {checked : Nat} (sifted : Sifted hash w.db pass)
    (phase : pass.phase = .checking g checked (orphan :: orphans) valid attempts)
    {result : Option Evidence} (tried : Tried hash w.db g checked (orphan, result)) :
    ∃ trials, pass.candidates g.id = trials.map Prod.fst ++ orphans ∧
      valid ++ (result.map fun evidence => (orphan, evidence)).toList = passing trials ∧
      ∀ trial ∈ trials, Tried hash w.db g checked trial := by
  obtain ⟨trials, split, rfl, all⟩ := sifted g checked _ valid attempts phase
  refine ⟨trials ++ [(orphan, result)], ?_, (passing_append trials orphan result).symm, ?_⟩
  · rw [split, List.map_append, List.append_assoc]
    rfl
  · exact forall_append_one all tried

theorem PassStep.sifted {pass' : Pass} {db' : Db} {reading : Reading} (reach : Reachable hash w)
    (grown : Grown w.db db') (sifted : Sifted hash w.db pass)
    (step : PassStep hash w.db pass reading pass' db') : Sifted hash db' pass' := by
  intro g checked orphans valid attempts phase
  cases step with
  | scanned _ idle' _ _ => exact absurd phase (Phase.not_checking idle')
  | @taken g' a l _ attempts' phase₀ free expired id moved =>
      cases phase
      exact ⟨[], by rw [id]; rfl, rfl, fun _ member => absurd member List.not_mem_nil⟩
  | @passed _ _ orphan _ valid' _ evidence last phase₀ run =>
      cases phase
      have tried : Tried hash w.db g checked (orphan, some evidence) :=
        ⟨w, reading.intact, reach, .rfl _, ⟨last, run⟩⟩
      exact sifted.tried phase₀ tried
  | @rejected _ _ orphan _ valid' _ e phase₀ run =>
      cases phase
      have tried : Tried hash w.db g checked (orphan, none) :=
        ⟨w, reading.intact, reach, .rfl _, ⟨e, run⟩⟩
      obtain ⟨trials, split, rows, all⟩ := sifted.tried phase₀ tried
      rw [Option.map_none, Option.toList_none, List.append_nil] at rows
      exact ⟨trials, split, rows, all⟩
  | imported _ _ _ _ _ _ => cases phase
  | doubted _ _ _ phase' =>
      rw [phase'] at phase
      cases phase
  | failed _ _ => cases phase
  | quarantined _ phase' _ _ =>
      rw [phase'] at phase
      cases phase

theorem Reachable.sifted (reach : Reachable hash w) :
    ∀ pass, .recover pass ∈ w.calls → Sifted hash w.db pass := by
  refine reach.carries (fun grown sifted => ?_) (fun _ began => ?_)
    (fun reach grown sifted step => step.sifted reach grown sifted)
  · intro g checked orphans valid attempts phase
    obtain ⟨trials, split, rows, all⟩ := sifted g checked orphans valid attempts phase
    exact ⟨trials, split, rows, fun trial member => (all trial member).grown grown⟩
  · exact fun g checked orphans valid attempts phase =>
      absurd phase (Phase.not_checking (beginRecovery_phase began))

theorem PassStep.unlocked {db db' : Db} {pass' : Pass} {reading : Reading}
    (unlocked : Unlocked pass) (step : PassStep hash db pass reading pass' db') :
    Unlocked pass' := by
  intro g guard
  cases step with
  | scanned _ idle' _ _ =>
      rw [idle'] at guard
      cases guard
  | taken phase₀ free expired id moved =>
      obtain rfl := Option.some.inj guard
      rw [id]
      exact free
  | passed phase₀ run =>
      refine unlocked g ?_
      rw [phase₀]
      exact guard
  | rejected phase₀ run =>
      refine unlocked g ?_
      rw [phase₀]
      exact guard
  | imported _ _ _ _ _ _ => cases guard
  | doubted phase₀ _ busy phase' =>
      rw [phase'] at guard
      rw [busy]
      refine unlocked g ?_
      rw [phase₀]
      exact guard
  | failed _ _ => cases guard
  | quarantined _ phase' _ _ =>
      rw [phase'] at guard
      cases guard

theorem Reachable.unlocked (reach : Reachable hash w) :
    ∀ pass, .recover pass ∈ w.calls → Unlocked pass := by
  refine @Reachable.carries hash w (fun _ pass => Unlocked pass) (fun _ unlocked => unlocked)
    (fun _ began => ?_) (fun _ _ unlocked step => step.unlocked unlocked) reach
  intro g guard
  rw [beginRecovery_phase began] at guard
  cases guard

end Carried

/-! ## What a pass leaves alone -/

/-- Attempts, their histories and claims, selections and dispositions are as before. -/
structure Settlements (db db' : Db) : Prop where
  attempts : db'.attempts = db.attempts
  transitions : db'.attemptTransitions = db.attemptTransitions
  claims : db'.finalizationClaims = db.finalizationClaims
  selections : db'.selectedObservations = db.selectedObservations
  dispositions : db'.freshDispositions = db.freshDispositions

theorem Settlements.of_same {written : List Table} {db db' : Db} (same : SameBut written db db')
    (attempts : .attempts ∉ written) (transitions : .attemptTransitions ∉ written)
    (claims : .finalizationClaims ∉ written) (selections : .selectedObservations ∉ written)
    (dispositions : .freshDispositions ∉ written) : Settlements db db' :=
  ⟨same.2 .attempts attempts, same.2 .attemptTransitions transitions,
    same.2 .finalizationClaims claims, same.2 .selectedObservations selections,
    same.2 .freshDispositions dispositions⟩

theorem Settlements.trans {a b c : Db} (first : Settlements a b) (second : Settlements b c) :
    Settlements a c :=
  ⟨second.attempts.trans first.attempts, second.transitions.trans first.transitions,
    second.claims.trans first.claims, second.selections.trans first.selections,
    second.dispositions.trans first.dispositions⟩

section Frame

variable {hash : Hasher} {db db' : Db} {pass pass' : Pass} {reading : Reading}

/-- A step of a pass settles nothing, or moves one expired attempt that is not locked. -/
theorem PassStep.moves (unlocked : Unlocked pass)
    (step : PassStep hash db pass reading pass' db') :
    db'.freshBudget = db.freshBudget ∧ (Settlements db db' ∨
      ∃ a b l, Expired db (pass.checkedAt reading.clock) a l ∧ a.id ∉ pass.busy ∧
        Moved db db' a b ∧ ∀ c, c.attemptId ≠ a.id →
          (c ∈ db'.finalizationClaims ↔ c ∈ db.finalizationClaims)) := by
  have stays : Settlements db db := ⟨rfl, rfl, rfl, rfl, rfl⟩
  have ended : ∀ {g : OwnedAttempt} {outcome : TerminalOutcome} {finished : Nat}
      {a b : AttemptRow}, pass.phase.guard = some g →
      RecoveryFinished db db' g outcome finished (pass.checkedAt reading.clock) a b →
      ∃ a b l, Expired db (pass.checkedAt reading.clock) a l ∧ a.id ∉ pass.busy ∧
        Moved db db' a b ∧ ∀ c, c.attemptId ≠ a.id →
          (c ∈ db'.finalizationClaims ↔ c ∈ db.finalizationClaims) := by
    intro g outcome finished a b guard row
    obtain ⟨l, expired⟩ := row.expired
    refine ⟨a, b, l, expired.toExpired, ?_, row.toMoved, fun c other => ?_⟩
    · rw [row.guard]
      exact unlocked g guard
    · rw [row.claims, List.mem_filter, ← row.guard]
      exact ⟨fun kept => kept.1, fun member => ⟨member, by simpa using other⟩⟩
  cases step with
  | scanned _ _ _ same =>
      exact ⟨same.2 .freshBudget (by decide), .inl (.of_same same (by decide) (by decide)
        (by decide) (by decide) (by decide))⟩
  | @taken g a l _ attempts phase free expired id moved =>
      rcases moved with rfl | ⟨b, row, -⟩
      · exact ⟨rfl, .inl stays⟩
      · refine ⟨row.same.2 .freshBudget (by decide), .inr ⟨a, b, l, expired, free, row.toMoved,
          fun c _ => ?_⟩⟩
        rw [show db'.finalizationClaims = db.finalizationClaims from
          row.same.2 .finalizationClaims (by decide)]
  | passed _ _ => exact ⟨rfl, .inl stays⟩
  | rejected _ _ => exact ⟨rfl, .inl stays⟩
  | imported phase row _ _ _ _ =>
      exact ⟨row.same.2 .freshBudget (by decide), .inr (ended (by rw [phase]; rfl) row)⟩
  | doubted _ _ _ _ => exact ⟨rfl, .inl stays⟩
  | failed phase row =>
      exact ⟨row.same.2 .freshBudget (by decide), .inr (ended (by rw [phase]; rfl) row)⟩
  | quarantined _ _ _ rows =>
      exact ⟨rows.same.2 .freshBudget (by decide), .inl (.of_same rows.same (by decide) (by decide)
        (by decide) (by decide) (by decide))⟩

/-- An attempt a pass must leave alone keeps its row, its history and its claim. -/
structure Untouched (db db' : Db) (a : AttemptRow) : Prop where
  row : a ∈ db'.attempts
  history : history db' a.id = history db a.id
  claim : ∀ c, c.attemptId = a.id → (c ∈ db'.finalizationClaims ↔ c ∈ db.finalizationClaims)

theorem Untouched.rfl {a : AttemptRow} (member : a ∈ db.attempts) : Untouched db db a :=
  ⟨member, Eq.refl _, fun _ _ => Iff.rfl⟩

theorem PassStep.untouched (h : Integrity db) (unlocked : Unlocked pass)
    (step : PassStep hash db pass reading pass' db') {a : AttemptRow} (member : a ∈ db.attempts)
    (excused : a.id ∈ pass.busy ∨ ∀ l, ¬Expired db (pass.checkedAt reading.clock) a l) :
    Untouched db db' a := by
  obtain ⟨-, same | ⟨x, y, l, expired, free, moved, claims⟩⟩ := step.moves unlocked
  · refine ⟨same.attempts ▸ member, ?_, fun c _ => by rw [same.claims]⟩
    unfold RunStore.history
    rw [same.transitions]
  · have other : x.id ≠ a.id := by
      intro equal
      rcases excused with busy | live
      · exact free (equal ▸ busy)
      · rw [h.attemptIds.eq_of_key moved.member member equal] at expired
        exact live l expired
    refine ⟨moved.mem_other member (Ne.symm other), ?_, fun c mine => claims c ?_⟩
    · obtain ⟨sequence, appended⟩ := moved.transitions
      rw [history_append appended, if_neg other, List.append_nil]
    · rw [mine]
      exact Ne.symm other

end Frame

/-- The lease of a held stage names a busy attempt. -/
theorem lockStages_busy {db : Db} (h : Integrity db) {lock : String → StageLock}
    {paths : List String}
    {found : List RecoveredStage × List String × List (RecordId .attempt)}
    (locked : lockStages db lock paths = .ok found) {l : LeaseRow} (member : l ∈ db.leases)
    {path : String} (staged : l.stagingPath = some path) (held : lock path = .held)
    (listed : path ∈ paths) : l.attemptId ∈ found.2.2 := by
  induction paths generalizing found with
  | nil => exact absurd listed List.not_mem_nil
  | cons head rest ih =>
      rw [lockStages] at locked
      cases tail : lockStages db lock rest with
      | error e => split at locked <;> simp_all
      | ok later =>
          rw [tail] at locked
          rcases List.mem_cons.mp listed with rfl | deeper
          · simp only [held] at locked
            cases locked
            refine List.mem_append_left _ ?_
            have lease : db.leases.find? (fun x => x.stagingPath = some path) = some l := by
              cases at_ : db.leases.find? fun x => decide (x.stagingPath = some path) with
              | none =>
                  have absent := List.find?_eq_none.mp at_ l member
                  simp [staged] at absent
              | some x =>
                  have same : x.stagingPath = some path := by simpa using List.find?_some at_
                  rw [h.leaseIds.eq_of_key (List.mem_of_find?_eq_some at_) member
                    (h.leasePaths x (List.mem_of_find?_eq_some at_) l member path same staged)]
            rw [lease]
            exact List.mem_singleton_self _
          · have inner := ih tail deeper
            cases state : lock head <;> simp only [state] at locked
            case unsafeEntry => cases locked
            case unreadable => cases locked
            case held =>
                cases locked
                exact List.mem_append_right _ inner
            all_goals
              cases locked
              exact inner

theorem stagePaths_covers {db : Db} (h : Integrity db) {staged paths : List String}
    (found : stagePaths db staged = .ok paths) {l : LeaseRow} (member : l ∈ db.leases)
    {path : String} (at_ : l.stagingPath = some path) : path ∈ paths := by
  have staging := (h.leaseStaging l member).mpr (by rw [at_]; rfl)
  have leased : path ∈ (db.leases.filter fun l => l.purpose = .staging).filterMap
      LeaseRow.stagingPath :=
    List.mem_filterMap.mpr ⟨l, List.mem_filter.mpr ⟨member, by simpa using staging⟩, at_⟩
  unfold stagePaths at found
  simp only at found
  split at found
  · cases found
  · cases found
    rw [List.mem_insertionSort, List.mem_dedup]
    exact List.mem_append_right _ leased

/-! ## Recovery over whole runs -/

/-- What recovery has established when it accepts the attempt `a`. -/
structure AcceptedBy (hash : Hasher) (w : World) (pass : Pass) (clock : Nat) (g : OwnedAttempt)
    (orphan : Orphan) (evidence : Evidence) (a : AttemptRow) (l : LeaseRow) : Prop where
  expired : Expired w.db (pass.checkedAt clock) a l
  guard : a.id = g.id ∧ a.slotId = g.slot ∧ a.revision = g.revision
  /-- The orphans of the attempt were all tried, and this one alone passed. -/
  alone : ∃ checked trials, pass.candidates a.id = trials.map Prod.fst ∧
    passing trials = [(orphan, evidence)] ∧ ∀ trial ∈ trials, Tried hash w.db g checked trial
  finish : documentFinish orphan.document = .ok evidence.finished
  document : Tx.Yields (buildOutcomeDocument g .accepted evidence.references evidence.finished)
    w.db orphan.document w.db
  after : a.updatedAtNs ≤ evidence.finished
  before : evidence.finished ≤ pass.checkedAt clock
  claim : AuthorizedClaim w.db g evidence.finished
  acceptance : Tx.Yields (validateAcceptance g) w.db () w.db

/-- The step belongs to a recovery. -/
def Recovering (w : World) : Label → Prop
  | .request (.recover _ _ _ _) => True
  | .request _ => False
  | .resume index _ => ∃ pass, w.calls[index]? = some (.recover pass)

/-- Recovery at one reachable world and along every run from it. -/
structure RecoverySafe (hash : Hasher) (w : World) : Prop where
  accepts : ∀ index reading pass, w.calls[index]? = some (.recover pass) →
    ∀ b ∈ (next hash w (.resume index reading)).db.attempts, b.state = .accepted →
      b ∉ w.db.attempts → ∃ g orphan evidence a l, a.id = b.id ∧
        AcceptedBy hash w pass reading.clock g orphan evidence a l
  /-- Without exactly one valid orphan the pass goes on to publish a failure, if at all. -/
  doubts : ∀ index reading pass g checked valid attempts,
    w.calls[index]? = some (.recover pass) →
    pass.phase = .checking g checked [] valid attempts → valid.length ≠ 1 →
    (next hash w (.resume index reading)).db = w.db ∧
      ∀ c ∈ (next hash w (.resume index reading)).calls, c ∈ w.calls ∨
        ∃ pass' failure, c = .recover pass' ∧ pass'.phase = .publishing g failure attempts
  /-- A pass that publishes a failure goes on only once it has committed it. -/
  interrupts : ∀ index reading pass g failure attempts,
    w.calls[index]? = some (.recover pass) → pass.phase = .publishing g failure attempts →
    ((next hash w (.resume index reading)).db = w.db ∧
        ∀ c ∈ (next hash w (.resume index reading)).calls, c ∈ w.calls) ∨
      ∃ b ∈ (next hash w (.resume index reading)).db.attempts, b.id = g.id ∧ b.state = .failed ∧
        b.failureCode = some "interrupted_attempt" ∧
        ∀ c ∈ (next hash w (.resume index reading)).calls, c ∈ w.calls ∨
          ∃ pass', c = .recover pass' ∧ pass'.phase = .choosing attempts
  locks : ∀ clock staged lock names pass db',
    Tx.Yields (beginRecovery clock staged lock names) w.db pass db' →
    ∀ l ∈ w.db.leases, ∀ path, l.stagingPath = some path → lock path = .held →
      l.attemptId ∈ pass.busy
  untouched : ∀ index reading pass, w.calls[index]? = some (.recover pass) →
    ∀ a ∈ w.db.attempts,
      (a.id ∈ pass.busy ∨ ∀ l, ¬Expired w.db (pass.checkedAt reading.clock) a l) →
      Untouched w.db (next hash w (.resume index reading)).db a
  /-- More recovery keeps every terminal attempt, selection, disposition and budget row, and
  adds nothing to them once every attempt is terminal. -/
  again : ∀ labels, Meets (next hash) Recovering w labels →
    (∀ a ∈ w.db.attempts, a.state.terminal = true →
        a ∈ (run (next hash) w labels).db.attempts) ∧
      (∀ s ∈ w.db.selectedObservations, s ∈ (run (next hash) w labels).db.selectedObservations) ∧
      (∀ d ∈ w.db.freshDispositions, d ∈ (run (next hash) w labels).db.freshDispositions) ∧
      (run (next hash) w labels).db.freshBudget = w.db.freshBudget ∧
      ((∀ a ∈ w.db.attempts, a.state.terminal = true) →
        Settlements w.db (run (next hash) w labels).db)

section Recovery

variable {hash : Hasher} {w : World}

/-- How a step of a pass ends: with nothing done, or with a pass that goes on. -/
theorem Reachable.pass_cases (reach : Reachable hash w) {index : Nat} {pass : Pass}
    (at_ : w.calls[index]? = some (.recover pass)) (reading : Reading) :
    ((next hash w (.resume index reading)).db = w.db ∧
        ∀ c ∈ (next hash w (.resume index reading)).calls, c ∈ w.calls) ∨
      ∃ pass', PassStep hash w.db pass reading pass' (next hash w (.resume index reading)).db ∧
        ∀ c ∈ (next hash w (.resume index reading)).calls, c ∈ w.calls ∨ c = .recover pass' := by
  have suspended := List.mem_of_getElem? at_
  rcases next_cases hash w (.resume index reading) with
    ⟨body, answer, db', transaction, ran, after⟩ | same
  · obtain ⟨call, at', rfl⟩ := Option.map_eq_some_iff.mp transaction
    obtain rfl := Option.some.inj (at_.symm.trans at')
    rw [after]
    unfold resumeCall at ran
    split at ran
    · simp at ran
    obtain ⟨outcome, mid, advanced, ran⟩ := Tx.yields_bind.mp ran
    rcases advance_passStep reach.sound.db (reach.sound.calls _ suspended) advanced with
      ⟨pass', rfl, step⟩ | ⟨⟨report, rfl⟩, same⟩
    · obtain ⟨rfl, rfl⟩ := Tx.yields_pure.mp ran
      refine .inr ⟨pass', step, fun c member => ?_⟩
      rcases List.mem_append.mp member with before | new
      · exact .inl (w.suspended_subset _ c before)
      · exact .inr (List.mem_singleton.mp new)
    · obtain ⟨rfl, rfl⟩ := Tx.yields_pure.mp ran
      refine .inl ⟨same, fun c member => ?_⟩
      rcases List.mem_append.mp member with before | new
      · exact w.suspended_subset _ c before
      · exact absurd new List.not_mem_nil
  · exact .inl same

theorem PassStep.acceptedBy {db' : Db} {pass pass' : Pass} {reading : Reading}
    (reach : Reachable hash w) (issued : ∀ g ∈ pass.phase.guard, Issued w.db g)
    (sifted : Sifted hash w.db pass) (step : PassStep hash w.db pass reading pass' db')
    {b : AttemptRow} (member : b ∈ db'.attempts) (accepted : b.state = .accepted)
    (new : b ∉ w.db.attempts) : ∃ g orphan evidence a l, a.id = b.id ∧
      AcceptedBy hash w pass reading.clock g orphan evidence a l := by
  have h := reach.sound.db.toIntegrity
  cases step with
  | imported phase row validated outcome references finished =>
      rename_i g checked orphan evidence evidence' attempts terminal a b'
      rcases row.toMoved.mem_cases member with rfl | ⟨known, -⟩
      · have accepting : evidence.outcome = .accepted :=
          TerminalOutcome.eq_accepted_of_state (row.target.symm.trans accepted)
        have given := issued g (by rw [phase]; rfl)
        obtain ⟨l, expired⟩ := row.expired
        obtain ⟨trials, split, rows, all⟩ := sifted _ _ _ _ _ phase
        have time := given.current h reach.sound.db.projected row.member row.guard
          row.guardRevision
        have document := validated.document
        rw [outcome, accepting, references, finished] at document
        refine ⟨g, orphan, evidence, a, l, row.id.symm, expired.toExpired,
          ⟨row.guard, (given.slot_of_id h row.member row.guard).1, row.guardRevision⟩,
          ⟨checked, trials, ?_, rows.symm, all⟩, ?_, document, ?_, ?_, ?_, ?_⟩
        · rw [row.guard, split, List.append_nil]
        · rw [validated.finish, finished]
        · rw [time, ← finished]
          exact validated.after
        · rw [← finished]
          exact validated.before
        · rw [← finished]
          exact validated.claim (outcome.trans accepting)
        · exact validated.accepting (outcome.trans accepting)
      · exact absurd known new
  | failed phase row =>
      rcases row.toMoved.mem_cases member with rfl | ⟨known, -⟩
      · rw [row.target] at accepted
        cases accepted
      · exact absurd known new
  | @taken g a l _ attempts phase free expired id moved =>
      rcases moved with rfl | ⟨x, row, finalizing⟩
      · exact absurd member new
      · rcases row.toMoved.mem_cases member with rfl | ⟨known, -⟩
        · rw [finalizing] at accepted
          cases accepted
        · exact absurd known new
  | scanned _ _ _ same =>
      rw [show db'.attempts = w.db.attempts from same.2 .attempts (by decide)] at member
      exact absurd member new
  | passed _ _ => exact absurd member new
  | rejected _ _ => exact absurd member new
  | doubted _ _ _ _ => exact absurd member new
  | quarantined _ _ _ rows =>
      rw [show db'.attempts = w.db.attempts from rows.same.2 .attempts (by decide)] at member
      exact absurd member new

theorem Reachable.issued_guard (reach : Reachable hash w) {pass : Pass}
    (suspended : .recover pass ∈ w.calls) : ∀ g ∈ pass.phase.guard, Issued w.db g := by
  intro g guard
  obtain ⟨-, facts⟩ := reach.sound.calls _ suspended
  cases phase : pass.phase with
  | checking g' checked orphans valid attempts =>
      rw [phase] at guard facts
      obtain rfl := Option.some.inj guard
      exact facts.1
  | publishing g' failure attempts =>
      rw [phase] at guard facts
      obtain rfl := Option.some.inj guard
      exact facts
  | scanning names =>
      rw [phase] at guard
      cases guard
  | choosing attempts =>
      rw [phase] at guard
      cases guard
  | quarantining stages =>
      rw [phase] at guard
      cases guard

/-- A step of recovery takes no budget, and settles nothing once every attempt has ended. -/
theorem Reachable.recovering (reach : Reachable hash w) {label : Label}
    (recovering : Recovering w label) :
    (next hash w label).db.freshBudget = w.db.freshBudget ∧
      ((∀ a ∈ w.db.attempts, a.state.terminal = true) →
        Settlements w.db (next hash w label).db) := by
  have idle : (next hash w label).db = w.db →
      (next hash w label).db.freshBudget = w.db.freshBudget ∧
      ((∀ a ∈ w.db.attempts, a.state.terminal = true) →
        Settlements w.db (next hash w label).db) := by
    intro same
    rw [same]
    exact ⟨rfl, fun _ => ⟨rfl, rfl, rfl, rfl, rfl⟩⟩
  cases label with
  | request request =>
      cases request with
      | recover clock staged lock names =>
          refine idle (next_idle fun {body answer db'} transaction ran => ?_)
          simp only [World.transaction] at transaction
          split at transaction
          · cases transaction
            have reads : Uses [] (requestTransaction hash (.recover clock staged lock names)) :=
              .bind (.bind .timestamp fun _ => .bind .get fun _ => .bind .check fun _ =>
                .bind .check fun _ => .pure) fun _ => .pure
            exact reads.readOnly ran
          · cases transaction
      | _ => exact recovering.elim
  | resume index reading =>
      obtain ⟨pass, at_⟩ := recovering
      rcases reach.pass_cases at_ reading with ⟨same, -⟩ | ⟨pass', step, -⟩
      · exact idle same
      · have unlocked := reach.unlocked pass (List.mem_of_getElem? at_)
        obtain ⟨budget, same | ⟨x, y, l, expired, -⟩⟩ := step.moves unlocked
        · exact ⟨budget, fun _ => same⟩
        · refine ⟨budget, fun ended => ?_⟩
          have finish := reach.sound.db.attemptFinish x expired.member
          rw [expired.active, ended x expired.member] at finish
          cases finish

theorem recovery_safe_of_reachable (reach : Reachable hash w) : RecoverySafe hash w where
  accepts := by
    intro index reading pass at_ b member accepted new
    have suspended := List.mem_of_getElem? at_
    rcases reach.pass_cases at_ reading with ⟨same, -⟩ | ⟨pass', step, -⟩
    · rw [same] at member
      exact absurd member new
    · exact step.acceptedBy reach (reach.issued_guard suspended) (reach.sifted pass suspended)
        member accepted new
  doubts := by
    intro index reading pass g checked valid attempts at_ phase many
    rcases reach.pass_cases at_ reading with ⟨same, calls⟩ | ⟨pass', step, calls⟩
    · exact ⟨same, fun c member => .inl (calls c member)⟩
    · generalize (next hash w (.resume index reading)).db = db' at step
      cases step with
      | doubted phase₀ _ _ phase' =>
          rw [phase] at phase₀
          cases phase₀
          refine ⟨rfl, fun c member => (calls c member).imp_right fun new => ?_⟩
          exact ⟨pass', _, new, phase'⟩
      | imported phase₀ _ _ _ _ _ =>
          rw [phase] at phase₀
          cases phase₀
          exact absurd rfl many
      | scanned idle _ _ _ => exact absurd phase (Phase.not_checking idle)
      | taken phase₀ _ _ _ _ => exact absurd (phase.symm.trans phase₀) Phase.noConfusion
      | passed phase₀ _ =>
          rw [phase] at phase₀
          cases phase₀
      | rejected phase₀ _ =>
          rw [phase] at phase₀
          cases phase₀
      | failed phase₀ _ => exact absurd (phase.symm.trans phase₀) Phase.noConfusion
      | quarantined phase₀ _ _ _ => exact absurd (phase.symm.trans phase₀) Phase.noConfusion
  interrupts := by
    intro index reading pass g failure attempts at_ phase
    rcases reach.pass_cases at_ reading with same | ⟨pass', step, calls⟩
    · exact .inl same
    · refine .inr ?_
      generalize (next hash w (.resume index reading)).db = db' at step
      cases step with
      | failed phase₀ row =>
          rw [phase] at phase₀
          cases phase₀
          refine ⟨_, row.toMoved.member', row.id.trans row.guard, row.target, row.code,
            fun c member => (calls c member).imp_right fun new => ?_⟩
          exact ⟨_, new, rfl⟩
      | scanned idle _ _ _ =>
          rw [phase] at idle
          cases idle
      | taken phase₀ _ _ _ _ => exact absurd (phase.symm.trans phase₀) Phase.noConfusion
      | passed phase₀ _ => exact absurd (phase.symm.trans phase₀) Phase.noConfusion
      | rejected phase₀ _ => exact absurd (phase.symm.trans phase₀) Phase.noConfusion
      | imported phase₀ _ _ _ _ _ => exact absurd (phase.symm.trans phase₀) Phase.noConfusion
      | doubted phase₀ _ _ _ => exact absurd (phase.symm.trans phase₀) Phase.noConfusion
      | quarantined phase₀ _ _ _ => exact absurd (phase.symm.trans phase₀) Phase.noConfusion
  locks := by
    intro clock staged lock names pass db' began l member path at_ held
    have h := reach.sound.db.toIntegrity
    simp only [beginRecovery, yields_timestamp_bind, Tx.yields_get_bind, Tx.yields_check_bind,
      Tx.yields_pure] at began
    obtain ⟨-, paths, listed, found, locked, rfl, -⟩ := began
    exact lockStages_busy h locked member at_ held (stagePaths_covers h listed member at_)
  untouched := by
    intro index reading pass at_ a member excused
    rcases reach.pass_cases at_ reading with ⟨same, -⟩ | ⟨pass', step, -⟩
    · rw [same]
      exact .rfl member
    · exact step.untouched reach.sound.db.toIntegrity
        (reach.unlocked pass (List.mem_of_getElem? at_)) member excused
  again := by
    intro labels recovering
    have grown := reach.grown labels
    refine ⟨fun a member terminal => grown.terminal_mem member terminal,
      fun s member => mem_of_extends_eq grown.selections member,
      fun d member => mem_of_extends_eq grown.dispositions member, ?_, ?_⟩
    · exact @Lib.run_related _ _ (next hash) Recovering w labels
        (fun v w => w.db.freshBudget = v.db.freshBudget) (fun _ => rfl)
        (fun first second => second.trans first) (Reachable hash)
        (fun _ label reach => reach.after label)
        (fun _ _ reach step => (reach.recovering step).1) reach recovering
    · intro ended
      refine (@Lib.run_invariant_of _ _ (next hash) Recovering w labels (Reachable hash)
        (fun v => Settlements w.db v.db) (fun _ label reach => reach.after label)
        (fun v label reach same step => ?_) reach ⟨rfl, rfl, rfl, rfl, rfl⟩ recovering)
      refine same.trans ((reach.recovering step).2 ?_)
      rw [same.attempts]
      exact ended

end Recovery

/-- Recovery takes the silent attempt over, finds no outcome of it and fails it. -/
theorem recovery_safe_of_interruptedRun :
    ((run (next sampleHash) (sampleWorld 3) (takenOverRun ++
        List.replicate 2 (.resume 0 (sampleReading 100 3)))).db.attempts.map fun a =>
          (a.state, a.failureCode)) = [(.failed, some "interrupted_attempt")] ∧
      RecoverySafe sampleHash (run (next sampleHash) (sampleWorld 3) takenOverRun) :=
  ⟨by decide +kernel, recovery_safe_of_reachable ⟨_, takenOverRun, sampleWorld_initial, rfl⟩⟩

end Metewand.RunStore
