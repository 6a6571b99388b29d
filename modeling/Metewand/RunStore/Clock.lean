import Metewand.RunStore.Passes

/-!
# Clocks that step back

An owner's clock is clamped to the guard's last transition and, in a publication, to
the acquisition of its own stage and to the finish time.  So the reservation and the
claim of an attempt are never younger than its last transition (`Dated`), and a
publication's own stage is never younger than its finish time (`World.Staged`),
whatever the clock reads.

The terminal commit releases every lease the attempt still holds, with them the
stages that earlier publications left behind when they failed.  Nothing clamps the
commit to those: `commit_times_iff` gives the one condition under which its times are
in order.
-/

namespace Metewand.RunStore

open Lib

/-! ## Reservations and claims -/

/-- What an attempt holds besides stages was acquired by its last transition. -/
def Dated (db : Db) : Prop :=
  ∀ l ∈ db.leases, l.purpose ≠ .staging → ∀ a ∈ db.attempts, a.id = l.attemptId →
    l.acquiredAtNs ≤ a.updatedAtNs

theorem Dated.create (layout : Nat) : Dated (Db.create layout) :=
  fun _ member => nomatch member

/-- A kept row was there before. -/
theorem exists_earlier {old kept : List LeaseRow} {l : LeaseRow}
    (moved : List.Forall₂ LeaseRow.Later old kept) (member : l ∈ kept) :
    ∃ m ∈ old, m.Later l := by
  have back : Extends (flip LeaseRow.Later) kept old :=
    ⟨old, [], (List.append_nil old).symm, moved.flip⟩
  exact back.mem member

/-- A lease of the next database was there before, is a stage, or dates from the move
that acquired it. -/
theorem Change.lease_cases {hash : Hasher} {db db' : Db} {actor : Actor}
    (change : Change hash db actor db') {l : LeaseRow} (member : l ∈ db'.leases) :
    (∃ m ∈ db.leases, m.Later l) ∨ l.purpose = .staging ∨
      ∀ a ∈ db'.attempts, a.id = l.attemptId → l.acquiredAtNs ≤ a.updatedAtNs := by
  have untouched : ∀ {written : List Table}, SameBut written db db' → .leases ∉ written →
      ∃ m ∈ db.leases, m.Later l := by
    intro written same leases
    rw [show db'.leases = db.leases from same.2 .leases leases] at member
    exact ⟨l, member, .rfl l⟩
  cases change with
  | idle => exact .inl ⟨l, member, .rfl l⟩
  | registered same => exact .inl (untouched same (by decide))
  | enrolled row => exact .inl (untouched row.same (by decide))
  | imported same => exact .inl (untouched same (by decide))
  | reserved row =>
      obtain ⟨expires, rows⟩ := row.leases
      rw [rows] at member
      rcases List.mem_append.mp member with old | new
      · exact .inl ⟨l, old, .rfl l⟩
      · refine .inr (.inr fun a inside owner => ?_)
        rw [List.mem_singleton.mp new] at owner ⊢
        rcases row.mem_cases inside with older | rfl
        · exact absurd owner (row.new a older)
        · exact le_refl _
  | advanced row => exact .inl (untouched row.same (by decide))
  | claimed row =>
      obtain ⟨lease, r, -, -, -, -, -, owner, -, -, rows, -⟩ := row.leases
      rcases row.dated l member with old | time
      · exact .inl ⟨l, old, .rfl l⟩
      · rw [rows] at member
        rcases List.mem_append.mp member with old | new
        · exact .inl ⟨l, old, .rfl l⟩
        · refine .inr (.inr fun x inside same => ?_)
          rw [List.mem_singleton.mp new, owner] at same
          rcases row.toMoved.mem_cases inside with rfl | ⟨-, other⟩
          · exact time.le
          · exact absurd same other
  | leased _ _ rows =>
      obtain ⟨kept, new, leases, moved, staging⟩ := rows.leases
      rw [leases] at member
      rcases List.mem_append.mp member with old | fresh
      · exact .inl (exists_earlier (moved.imp fun _ _ kept => kept.toLater) old)
      · exact .inr (.inl (staging l fresh))
  | observed row => exact .inl (untouched row.same (by decide))
  | budgeted row => exact .inl (untouched row.same (by decide))
  | charged row => exact .inl (untouched row.same (by decide))
  | finished row =>
      obtain ⟨released, rows⟩ := row.leases
      rw [rows] at member
      obtain ⟨m, inside, rfl⟩ := List.mem_map.mp member
      exact .inl ⟨m, inside, LeaseRow.release_later _ _ m⟩

theorem Dated.step {hash : Hasher} {db db' : Db} {actor : Actor} (h : Integrity db)
    (h' : Integrity db') (grown : Grown db db') (old : Dated db)
    (change : Change hash db actor db') : Dated db' := by
  intro l member other b inside owner
  rcases change.lease_cases member with ⟨m, before, later⟩ | staging | acquired
  · -- the attempt's row has only moved on since
    obtain ⟨a, row, id⟩ := h.leaseAttempt m before
    obtain ⟨c, row', after⟩ := grown.attempts.mem row
    have same : c = b := h'.attemptIds.eq_of_key row' inside
      ((after.id.trans id).trans (later.attemptId.symm.trans owner.symm))
    subst same
    have dated := old m before (by rw [← later.purpose]; exact other) a row id
    rw [later.acquiredAtNs]
    exact dated.trans after.updatedAtNs
  · exact absurd staging other
  · exact acquired b inside owner

theorem Reachable.dated {hash : Hasher} {w : World} (reach : Reachable hash w) : Dated w.db := by
  refine reach.always .create fun w label reach old => ?_
  have stepped := reach.sound.stepped label
  exact old.step reach.sound.db.toIntegrity stepped.sound.db.toIntegrity stepped.grown
    stepped.change

/-! ## Stages of suspended publications -/

/-- The call's stage has its lease row, and the finish time is not before it. -/
def Call.Staged (db : Db) : Call → Prop
  | .publishArtifact _ _ stage | .documentOutcome _ _ _ stage => StageDated db stage
  | .publishFinalization _ _ _ finished stage _ =>
      StageDated db stage ∧ stage.acquiredAtNs ≤ finished
  | .registerMember _ _ _ | .recover _ => True

theorem StageDated.grown {db db' : Db} {stage : Stage} (dated : StageDated db stage)
    (grown : Grown db db') : StageDated db' stage := by
  obtain ⟨l, member, named, purpose, acquired⟩ := dated
  obtain ⟨m, inside, later⟩ := grown.leases.mem member
  exact ⟨m, inside, later.id.trans named, later.purpose.trans purpose,
    later.acquiredAtNs.trans acquired⟩

theorem Call.Staged.grown {db db' : Db} {call : Call} (staged : call.Staged db)
    (grown : Grown db db') : call.Staged db' := by
  cases call with
  | registerMember run slot point => trivial
  | publishArtifact g kind stage => exact StageDated.grown staged grown
  | documentOutcome g outcome references stage => exact StageDated.grown staged grown
  | publishFinalization g outcome references finished stage document =>
      exact ⟨StageDated.grown staged.1 grown, staged.2⟩
  | recover pass => trivial

/-- A request suspends only calls whose stage it has leased. -/
theorem request_staged {hash : Hasher} {db db' : Db} {request : Request} {answer : Answer}
    (run : Tx.Yields (requestTransaction hash request) db answer db') :
    ∀ c ∈ answer.calls, c.Staged db' := by
  have none : ∀ {guards : List OwnedAttempt}, answer = ⟨guards, []⟩ →
      ∀ c ∈ answer.calls, c.Staged db' := by
    rintro guards rfl c member
    exact absurd member List.not_mem_nil
  cases request with
  | registerFresh candidate spec slot observation point =>
      obtain ⟨_, mid, ran, run⟩ := Tx.yields_bind.mp run
      obtain ⟨rfl, rfl⟩ := Tx.yields_pure.mp run
      intro c member
      rw [List.mem_singleton.mp member]
      trivial
  | recover clock staged lock names =>
      obtain ⟨pass, mid, ran, run⟩ := Tx.yields_bind.mp run
      obtain ⟨rfl, rfl⟩ := Tx.yields_pure.mp run
      intro c member
      rw [List.mem_singleton.mp member]
      trivial
  | publishArtifact g kind relative now =>
      simp only [requestTransaction, Tx.yields_require_bind] at run
      obtain ⟨-, run⟩ := run
      obtain ⟨taken, mid, ran, run⟩ := Tx.yields_bind.mp run
      obtain ⟨rfl, rfl⟩ := Tx.yields_pure.mp run
      intro c member
      rw [List.mem_singleton.mp member]
      exact (yields_stage ran).2.2.2
  | publishFinalization g outcome references relative now =>
      simp only [requestTransaction, Tx.yields_check_bind] at run
      obtain ⟨_, -, run⟩ := run
      obtain ⟨taken, mid, ran, run⟩ := Tx.yields_bind.mp run
      obtain ⟨rfl, rfl⟩ := Tx.yields_pure.mp run
      intro c member
      rw [List.mem_singleton.mp member]
      exact (yields_stage ran).2.2.2
  | _ =>
      obtain ⟨_, mid, ran, run⟩ := Tx.yields_bind.mp run
      exact none (Tx.yields_pure.mp run).1

/-- Going on with a call suspends at most a call with the same stage; the finish time
is clamped to its acquisition. -/
theorem resume_staged {hash : Hasher} {db db' : Db} {reading : Reading} {call : Call}
    {answer : Answer} (staged : call.Staged db) (grown : Grown db db')
    (run : Tx.Yields (resumeCall hash reading call) db answer db') :
    ∀ c ∈ answer.calls, c.Staged db' := by
  have none : ∀ {guards : List OwnedAttempt}, answer = ⟨guards, []⟩ →
      ∀ c ∈ answer.calls, c.Staged db' := by
    rintro guards rfl c member
    exact absurd member List.not_mem_nil
  unfold resumeCall at run
  split at run
  · simp at run
  cases call with
  | recover before =>
      obtain ⟨outcome, mid, ran, run⟩ := Tx.yields_bind.mp run
      cases outcome with
      | inl pass =>
          obtain ⟨rfl, rfl⟩ := Tx.yields_pure.mp run
          intro c member
          rw [List.mem_singleton.mp member]
          trivial
      | inr report => exact none (Tx.yields_pure.mp run).1
  | documentOutcome g outcome references stage =>
      obtain ⟨document, mid, ran, run⟩ := Tx.yields_bind.mp run
      obtain ⟨rfl, rfl⟩ := Tx.yields_pure.mp run
      intro c member
      rw [List.mem_singleton.mp member]
      exact ⟨StageDated.grown staged grown, le_max_right _ _⟩
  | _ =>
      obtain ⟨_, mid, ran, run⟩ := Tx.yields_bind.mp run
      exact none (Tx.yields_pure.mp run).1

/-- The run lemma. -/
theorem Reachable.staged {hash : Hasher} {w : World} (reach : Reachable hash w) :
    ∀ c ∈ w.calls, c.Staged w.db := by
  have both : Reachable hash w ∧ ∀ c ∈ w.calls, c.Staged w.db := by
    refine @Lib.Reachable.invariant _ _ (next hash) World.Initial w
      (fun w => Reachable hash w ∧ ∀ c ∈ w.calls, c.Staged w.db)
      (fun w first => ⟨.of_initial first, ?_⟩) (fun w label hold => ⟨hold.1.after label, ?_⟩) reach
    · obtain ⟨layout, -, rfl⟩ := first
      exact fun _ member => absurd member List.not_mem_nil
    · obtain ⟨reach, old⟩ := hold
      have later := (reach.sound.stepped label).grown
      intro c member
      rcases next_cases hash w label with ⟨body, answer, db', transaction, run, after⟩ |
        ⟨same, subset⟩
      · rw [after] at member later ⊢
        rcases List.mem_append.mp member with before | new
        · exact (old c (w.suspended_subset label c before)).grown later
        · cases label with
          | request request =>
              simp only [World.transaction] at transaction
              split at transaction
              · cases transaction
                exact request_staged run c new
              · cases transaction
          | resume index reading =>
              obtain ⟨call, at_, rfl⟩ := Option.map_eq_some_iff.mp transaction
              exact resume_staged (old call (List.mem_of_getElem? at_)) later run c new
      · rw [same]
        exact old c (subset c member)
  exact both.2

/-! ## The times of the commit -/

/-- When a terminal commit releases the leases of its attempt. -/
def releaseTime (g : OwnedAttempt) (finished checked : Nat) : Nat :=
  max checked (max finished g.updatedAtNs)

/-- The terminal commit breaks no constraint on times. -/
structure CommitTimes (db : Db) (g : OwnedAttempt) (artifact : ArtifactRegistration)
    (finished checked : Nat) : Prop where
  released : ∀ l ∈ db.leases, l.attemptId = g.id → l.releasedAtNs = none →
    l.acquiredAtNs ≤ releaseTime g finished checked
  updated : ∀ a ∈ db.attempts, a.id = g.id → a.updatedAtNs ≤ max finished g.updatedAtNs
  verified : artifact.verifiedAtNs ≤ releaseTime g finished checked

/-- The stages other publications of the attempt have left leased were acquired by `now`. -/
def AbandonedBy (db : Db) (g : OwnedAttempt) (stage : Stage) (now : Nat) : Prop :=
  ∀ l ∈ db.leases, l.attemptId = g.id → l.purpose = .staging → l.releasedAtNs = none →
    l.id ≠ stage.leaseId → l.acquiredAtNs ≤ now

/-- A guard that passes the fence carries the time of its attempt's last transition. -/
theorem Issued.updated {hash : Hasher} {db : Db} {g : OwnedAttempt} {now : Nat}
    {a : AttemptRow} (h : Sound hash db) (issued : Issued db g)
    (fenced : ∃ a, Fenced db g now a) (member : a ∈ db.attempts) (id : a.id = g.id) :
    a.updatedAtNs = g.updatedAtNs := by
  obtain ⟨b, fenced⟩ := fenced
  have same := fenced.unique h.toIntegrity member id
  subst same
  exact issued.current h.toIntegrity h.projected member id fenced.row.2.2.2.1

/-- The fence and the stage check leave one thing open: the abandoned stages. -/
theorem commit_times {hash : Hasher} {db : Db} {g : OwnedAttempt} {stage : Stage}
    {finished clock : Nat} {content manifest : Digest} (h : Sound hash db) (dated : Dated db)
    (issued : Issued db g) (staged : StageDated db stage) (begun : stage.acquiredAtNs ≤ finished)
    (fenced : ∃ a, Fenced db g (max clock finished) a) :
    CommitTimes db g (publishStage .attempt content manifest (max clock finished)) finished
        (max clock finished) ↔
      AbandonedBy db g stage (max (max clock finished) g.updatedAtNs) := by
  have updated := @Issued.updated hash db g (max clock finished)
  have release : releaseTime g finished (max clock finished) =
      max (max clock finished) g.updatedAtNs := by
    unfold releaseTime
    omega
  constructor
  · intro times l member owner _ held _
    rw [← release]
    exact times.released l member owner held
  · intro abandoned
    refine ⟨fun l member owner held => ?_, fun a member id => ?_, ?_⟩
    · rw [release]
      by_cases staging : l.purpose = .staging
      · by_cases own : l.id = stage.leaseId
        · obtain ⟨m, inside, named, -, acquired⟩ := staged
          have same := h.leaseIds.eq_of_key member inside (own.trans named.symm)
          subst same
          omega
        · exact abandoned l member owner staging held own
      · obtain ⟨a, row, id⟩ := h.leaseAttempt l member
        have acquired := dated l member staging a row id
        have time := updated h issued fenced row (id.trans owner)
        omega
    · have time := updated h issued fenced member id
      omega
    · change max clock finished ≤ _
      rw [release]
      exact le_max_left _ _

/-- A commit that succeeds has released no lease before its acquisition. -/
theorem yields_commitTerminalIn_released {db db' : Db} {g : OwnedAttempt}
    {outcome : TerminalOutcome} {artifact : ArtifactRegistration}
    {references : List (String × String)} {finished checked : Nat} {terminal : TerminalAttempt}
    (run : Tx.Yields (commitTerminalIn g outcome artifact references finished checked) db terminal
      db') :
    ∀ l ∈ db.leases, l.attemptId = g.id → l.releasedAtNs = none →
      l.acquiredAtNs ≤ releaseTime g finished checked := by
  simp only [commitTerminalIn] at run
  obtain ⟨⟨⟩, chosen, selected, run⟩ := Tx.yields_bind.mp run
  simp only [yields_timestamp_bind, Tx.yields_require_bind] at run
  obtain ⟨-, -, -, -, -, run⟩ := run
  obtain ⟨⟨⟩, stopped, stopping, run⟩ := Tx.yields_bind.mp run
  simp only [Tx.yields_check_bind] at run
  obtain ⟨details, -, run⟩ := run
  obtain ⟨⟨⟩, recorded, recording, run⟩ := Tx.yields_bind.mp run
  obtain ⟨g', moved, moving, run⟩ := Tx.yields_bind.mp run
  simp only [Tx.yields_get_bind, Tx.yields_expect_bind] at run
  obtain ⟨row, -, run⟩ := run
  obtain ⟨⟨⟩, freed, deleting, run⟩ := Tx.yields_bind.mp run
  obtain ⟨⟨⟩, last, releasing, -⟩ := Tx.yields_bind.mp run
  -- nothing before the release touches the leases
  have chosen_leases : chosen.leases = db.leases :=
    (Uses.selectTrajectory.sameBut selected).2 .leases (by decide)
  have stopped_leases : stopped.leases = chosen.leases :=
    (Uses.finish.sameBut stopping).2 .leases (by decide)
  have recorded_leases : recorded.leases = stopped.leases :=
    (Uses.recordArtifacts.sameBut recording).2 .leases (by decide)
  have moved_leases : moved.leases = recorded.leases :=
    (Uses.transition.sameBut moving).2 .leases (by decide)
  simp only [deleteClaims, Tx.yields_get_bind, yields_constraint_bind, Tx.yields_modify]
    at deleting
  obtain ⟨-, rfl⟩ := deleting
  simp only [releaseLeases, Tx.yields_get_bind, yields_constraint_bind] at releasing
  rw [moved_leases, recorded_leases, stopped_leases, chosen_leases] at releasing
  exact releasing.1

/-- Without them the last transaction of a publication cannot commit. -/
theorem yields_publishFinalization_released {db db' : Db} {g : OwnedAttempt}
    {outcome : TerminalOutcome} {references : List (String × String)} {finished : Nat}
    {stage : Stage} {document : Json} {content manifest : Digest} {clock : Nat}
    {terminal : TerminalAttempt}
    (run : Tx.Yields (publishFinalization g outcome references finished stage document content
      manifest clock) db terminal db') :
    ∀ l ∈ db.leases, l.attemptId = g.id → l.releasedAtNs = none →
      l.acquiredAtNs ≤ releaseTime g finished (max clock finished) := by
  simp only [publishFinalization] at run
  obtain ⟨⟨⟩, -, run⟩ := Uses.checkStage.readOnly_bind run
  obtain ⟨snapshot, -, run⟩ := Uses.coordinationSnapshot.readOnly_bind run
  simp only [Tx.yields_require_bind] at run
  obtain ⟨-, run⟩ := run
  obtain ⟨t, mid, committing, -⟩ := Tx.yields_bind.mp run
  simp only [commitFinalizationIn, yields_timestamp_bind] at committing
  obtain ⟨-, -, -, committing⟩ := committing
  obtain ⟨⟨⟩, -, committing⟩ := Uses.validateFinalization.readOnly_bind committing
  exact yields_commitTerminalIn_released committing

/-- At the final transaction of a publication whose fence and stage check pass, the
times are in order exactly when no stage left behind by another publication of the
attempt is younger; otherwise the owner's commit leaves the database as it was. -/
theorem commit_times_iff {hash : Hasher} {w : World} (reach : Reachable hash w) {index : Nat}
    {reading : Reading} {g : OwnedAttempt} {outcome : TerminalOutcome}
    {references : List (String × String)} {finished : Nat} {stage : Stage} {document : Json}
    (call : w.calls[index]? =
      some (.publishFinalization g outcome references finished stage document))
    (checks : Tx.Yields (checkStage g stage (max reading.clock finished)) w.db () w.db) :
    (CommitTimes w.db g (publishStage .attempt reading.content reading.manifest
        (max reading.clock finished)) finished (max reading.clock finished) ↔
      AbandonedBy w.db g stage (max (max reading.clock finished) g.updatedAtNs)) ∧
    (¬AbandonedBy w.db g stage (max (max reading.clock finished) g.updatedAtNs) →
      (next hash w (.resume index reading)).db = w.db) := by
  have suspended := List.mem_of_getElem? call
  have issued : Issued w.db g := reach.sound.calls _ suspended
  obtain ⟨staged, begun⟩ := reach.staged _ suspended
  have exact_ := @commit_times hash w.db g stage finished reading.clock reading.content
    reading.manifest reach.sound.db reach.dated issued staged begun (yields_checkStage checks).1
  refine ⟨exact_, fun late => ?_⟩
  refine next_idle fun {body answer db'} transaction run => ?_
  simp only [World.transaction, call, Option.map_some, Option.some.injEq] at transaction
  subst transaction
  unfold resumeCall at run
  split at run
  · simp at run
  obtain ⟨terminal, mid, ran, -⟩ := Tx.yields_bind.mp run
  refine absurd (fun l member owner _ held _ => ?_) late
  have released := yields_publishFinalization_released ran l member owner held
  unfold releaseTime at released
  omega

/-! ## A publication that failed before the clock stepped back -/

/-- What a suspended publication of a finalization carries. -/
def Call.publication : Call → Option (OwnedAttempt × Nat × Stage)
  | .publishFinalization g _ _ finished stage _ => some (g, finished, stage)
  | _ => none

theorem Call.publication_some {call : Option Call} {g : OwnedAttempt} {finished : Nat}
    {stage : Stage} (named : call.bind Call.publication = some (g, finished, stage)) :
    ∃ outcome references document,
      call = some (.publishFinalization g outcome references finished stage document) := by
  obtain ⟨c, rfl, found⟩ := Option.bind_eq_some_iff.mp named
  cases c with
  | publishFinalization g' outcome references finished' stage' document =>
      cases found
      exact ⟨outcome, references, document, rfl⟩
  | _ => cases found

/-- An observation's publication is staged at 30 and fails; the attempt then publishes
its failure under a clock that reads `clock`. -/
def abandonedRun (clock : Nat) : List Label := [
  .request (.registerOneShot default sampleSpecification sampleSlot sampleObservationSlot),
  .request (.reserve sampleSlot.id (.next true) ⟨"lease-0", "owner", 60⟩ 10),
  .request (.beginFinalization (sampleGuard 0 0 10) ⟨"claim-0", "owner", 60⟩ 11),
  .request (.publishArtifact (sampleGuard 0 1 11) .observation "artifacts/.staging-0" 30),
  .resume 0 { sampleReading 31 1 with failure := some .io },
  .request (.publishFinalization (sampleGuard 0 1 11) (.failed "timeout" (.object [])) []
    "artifacts/.staging-1" clock),
  .resume 0 (sampleReading (clock + 1) 2)]

/-- The world before the last transaction of that publication. -/
def abandonedWorld (clock : Nat) : World :=
  run (next sampleHash) (sampleWorld 3) (abandonedRun clock)

theorem abandonedWorld_reachable (clock : Nat) : Reachable sampleHash (abandonedWorld clock) :=
  ⟨_, abandonedRun clock, sampleWorld_initial, rfl⟩

/-- The stage of that publication. -/
def finalStage (clock : Nat) : Stage := ⟨"staging:artifacts/.staging-1", clock⟩

/-- The publication waits for its last transaction, and its guard still passes there. -/
structure Awaiting (w : World) (g : OwnedAttempt) (finished : Nat) (stage : Stage)
    (clock : Nat) : Prop where
  call : w.calls[0]?.bind Call.publication = some (g, finished, stage)
  checks : (checkStage g stage (max clock finished) w.db).toBool = true

instance (w : World) (g : OwnedAttempt) (finished : Nat) (stage : Stage) (clock : Nat) :
    Decidable (Awaiting w g finished stage clock) :=
  decidable_of_iff (w.calls[0]?.bind Call.publication = some (g, finished, stage) ∧
      (checkStage g stage (max clock finished) w.db).toBool = true)
    ⟨fun h => ⟨h.1, h.2⟩, fun h => ⟨h.call, h.checks⟩⟩

instance (db : Db) (g : OwnedAttempt) (stage : Stage) (now : Nat) :
    Decidable (AbandonedBy db g stage now) := by
  unfold AbandonedBy
  infer_instance

/-- Under a clock that has passed the abandoned stage the commit is in order. -/
theorem commit_times_iff_sample :
    CommitTimes (abandonedWorld 40).db (sampleGuard 0 1 11)
      (publishStage .attempt (.fill 2) default 42) 41 42 := by
  have waits : Awaiting (abandonedWorld 40) (sampleGuard 0 1 11) 41 (finalStage 40) 42 := by
    decide +kernel
  obtain ⟨outcome, references, document, call⟩ := Call.publication_some waits.call
  obtain ⟨⟨⟩, checks⟩ := Uses.checkStage.yields_of_success waits.checks
  have exact_ := @commit_times_iff _ _ (abandonedWorld_reachable 40) 0 (sampleReading 42 2) _ _ _ _
    _ _ call checks
  exact exact_.1.mpr (by decide +kernel)

/-- Under a clock that has stepped back behind it the owner's fence and stage check
pass, and the commit is refused. -/
theorem clock_blocks_owner :
    ∃ w reading g outcome references finished stage document, Reachable sampleHash w ∧
      w.calls[0]? = some (.publishFinalization g outcome references finished stage document) ∧
      Tx.Yields (checkStage g stage (max reading.clock finished)) w.db () w.db ∧
      ¬CommitTimes w.db g (publishStage .attempt reading.content reading.manifest
        (max reading.clock finished)) finished (max reading.clock finished) ∧
      (next sampleHash w (.resume 0 reading)).db.attempts.map AttemptRow.state = [.finalizing] := by
  have waits : Awaiting (abandonedWorld 20) (sampleGuard 0 1 11) 21 (finalStage 20) 22 := by
    decide +kernel
  obtain ⟨outcome, references, document, call⟩ := Call.publication_some waits.call
  obtain ⟨⟨⟩, checks⟩ := Uses.checkStage.yields_of_success waits.checks
  refine ⟨abandonedWorld 20, sampleReading 22 2, _, outcome, references, 21, finalStage 20,
    document, abandonedWorld_reachable 20, call, checks, fun times => ?_, by decide +kernel⟩
  have released : ¬∀ l ∈ (abandonedWorld 20).db.leases, l.attemptId = (sampleGuard 0 1 11).id →
      l.releasedAtNs = none → l.acquiredAtNs ≤ releaseTime (sampleGuard 0 1 11) 21 22 := by
    decide +kernel
  exact released times.released

end Metewand.RunStore
