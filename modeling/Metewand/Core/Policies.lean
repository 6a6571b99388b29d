import Metewand.Core.Binding

/-!
# What valid policies and schedules satisfy

One lemma for each check of `core/profile.rs`: what `validate`, `validate_buffered` and the
check schedule's `validate` accept, and that `next_after` is the least scheduled index
above the previous one (`CheckSchedule.nextAfter_some`, `CheckSchedule.nextAfter_none`).
-/

namespace Metewand

open Lib Lib.Check

/-! ## Policies -/

structure ProfilePolicy.Valid (policy : ProfilePolicy) : Prop where
  positive : 0 < policy.maxObservations
  safe : policy.maxObservations ≤ maxSafeInteger
  active : ∃ limit, policy.activeTimeNs = .ok limit
  kind : (policy.metric = none ∧ policy.direction = none ∧ policy.threshold = none ∧
      policy.recordThresholds = [] ∧
        (policy.maxTracePoints ≠ 0 → policy.maxObservations ≤ policy.maxTracePoints)) ∨
    ∃ metric direction target, policy.metric = some metric ∧ policy.direction = some direction ∧
      policy.threshold = some target ∧ metric ≠ "" ∧ F64.isFinite target ∧
      policy.thresholds.length ≤ policy.maxObservations ∧
      policy.thresholds.getLast?.any (F64.eq · target) ∧ policy.thresholds.all F64.isFinite ∧
      policy.ordered policy.thresholds

theorem ProfilePolicy.validate_ok {policy : ProfilePolicy} (valid : policy.validate = .ok ()) :
    policy.Valid := by
  unfold validate at valid
  simp only [bind, Except.bind, throw, throwThe, MonadExceptOf.throw, pure, Except.pure] at valid
  have bounds : ¬(policy.maxObservations = 0 ∨ maxSafeInteger < policy.maxObservations) := by
    intro outside
    simp only [if_pos outside] at valid
    cases valid
  simp only [if_neg bounds] at valid
  cases limit : policy.activeTimeNs with
  | error e =>
      simp only [limit] at valid
      split at valid
      · split at valid <;> cases valid
      · cases valid
  | ok active =>
      refine ⟨by omega, by omega, ⟨active, limit⟩, ?_⟩
      simp only [limit] at valid
      have kinds : ∀ {x : Except String Unit}, (if policy.maxTracePoints ≠ 0 ∨
          policy.maxBufferBytes ≠ 0 ∨ policy.terminalReserveBytes ≠ 0 then
            policy.validateBuffered.bind fun _ => x
          else x) = .ok () → x = .ok () := by
        intro x accepted
        split at accepted
        · cases buffered : policy.validateBuffered with
          | error e =>
              rw [buffered] at accepted
              cases accepted
          | ok u =>
              rw [buffered] at accepted
              exact accepted
        · exact accepted
      simp only [Except.bind] at kinds
      cases metric : policy.metric <;> cases direction : policy.direction <;>
        cases threshold : policy.threshold <;>
        simp only [metric, direction, threshold] at valid <;> have valid := kinds valid
      all_goals first | cases valid | skip
      · split at valid
        · cases valid
        · rename_i empty
          split at valid
          · cases valid
          · rename_i room
            refine .inl ⟨rfl, rfl, rfl, by simpa using empty, fun bounded => ?_⟩
            exact Nat.le_of_not_lt fun less => room ⟨bounded, less⟩
      · split at valid
        · cases valid
        · rename_i named
          split at valid
          · cases valid
          · rename_i ordered
            simp only [not_or, Bool.not_eq_true, Bool.not_eq_false, Bool.not_eq_eq_eq_not,
              Bool.not_true] at named ordered
            refine .inr ⟨_, _, _, rfl, rfl, rfl, ?_, named.2, Nat.le_of_not_lt ordered.1,
              ordered.2.1, ordered.2.2.1, ordered.2.2.2⟩
            intro empty
            rw [empty] at named
            exact absurd named.1 (by decide)

/-- What `validate_buffered` accepts. -/
structure ProfilePolicy.BufferedBounds (policy : ProfilePolicy) : Prop where
  tracePoints : 0 < policy.maxTracePoints ∧ policy.maxTracePoints ≤ maxSafeInteger
  bufferBytes : 0 < policy.maxBufferBytes ∧ policy.maxBufferBytes ≤ maxSafeInteger
  reserve : 0 < policy.terminalReserveBytes ∧ policy.terminalReserveBytes ≤ policy.maxBufferBytes

theorem ProfilePolicy.validateBuffered_ok {policy : ProfilePolicy} {u : Unit} :
    policy.validateBuffered = .ok u ↔ policy.BufferedBounds := by
  have all : policy.validateBuffered = .ok u ↔
      ¬([policy.maxTracePoints, policy.maxBufferBytes, policy.terminalReserveBytes].any
          (fun v => v == 0 || decide (maxSafeInteger < v)) = true ∨
        policy.maxBufferBytes < policy.terminalReserveBytes) := by
    unfold validateBuffered
    split
    · rename_i outside
      exact iff_of_false (fun accepted => by cases accepted) (not_not.mpr outside)
    · rename_i inside
      exact iff_of_true rfl inside
  rw [all]
  simp only [List.any_cons, List.any_nil, Bool.or_false, Bool.or_eq_true, beq_iff_eq,
    decide_eq_true_eq]
  constructor
  · intro h
    exact ⟨by omega, by omega, by omega⟩
  · intro bounds
    have := bounds.tracePoints
    have := bounds.bufferBytes
    have := bounds.reserve
    omega

/-- A policy without a metric has no thresholds. -/
theorem ProfilePolicy.Valid.unmetered {policy : ProfilePolicy} (valid : policy.Valid)
    (none : policy.metric = none) : policy.threshold = .none ∧ policy.thresholds = [] ∧
      (policy.maxTracePoints ≠ 0 → policy.maxObservations ≤ policy.maxTracePoints) := by
  rcases valid.kind with ⟨-, -, threshold, empty, room⟩ | ⟨metric, _, _, named, -⟩
  · refine ⟨threshold, ?_, room⟩
    simp [thresholds, threshold, empty]
  · rw [none] at named
    cases named

/-! ## Check schedules -/

namespace CheckSchedule

/-- Above the previous check, when there was one. -/
def After (previous : Option Nat) (index : Nat) : Prop := ∀ p ∈ previous, p < index

theorem increasing_pairwise {indices : List Nat} (increases : increasing indices = true) :
    indices.Pairwise (· < ·) := by
  rw [← List.isChain_iff_pairwise]
  induction indices with
  | nil => exact .nil
  | cons a rest ih =>
      cases rest with
      | nil => exact .singleton a
      | cons b rest =>
          simp only [increasing, Bool.and_eq_true, decide_eq_true_eq] at increases
          exact .cons_cons increases.1 (ih increases.2)

theorem valid_of_validate {schedule : CheckSchedule} {u : Unit}
    (accepted : schedule.validate = .ok u) : schedule.valid = true := by
  simpa [validate] using accepted

/-- The least index of a periodic schedule above an index it passed. -/
theorem periodic_next {every start index : Nat} (positive : 0 < every) (above : start ≤ index) :
    index < ((index - start) / every + 1) * every + start ∧
      ∀ i, start ≤ i → (i - start) % every = 0 → index < i →
        ((index - start) / every + 1) * every + start ≤ i := by
  have split := Nat.div_add_mod (index - start) every
  have remainder := Nat.mod_lt (index - start) positive
  constructor
  · rw [Nat.add_mul, Nat.mul_comm ((index - start) / every)]
    omega
  · intro i from_ divides later
    obtain ⟨k, count⟩ := Nat.dvd_of_mod_eq_zero divides
    have more : (index - start) / every < k := by
      rw [Nat.div_lt_iff_lt_mul positive, Nat.mul_comm, ← count]
      omega
    have : ((index - start) / every + 1) * every ≤ k * every := Nat.mul_le_mul_right _ more
    rw [Nat.mul_comm k, ← count] at this
    omega

/-- The index a periodic schedule proposes. -/
def candidate (every start : Nat) : Option Nat → Nat
  | none => start
  | some index => if index < start then start else ((index - start) / every + 1) * every + start

/-- With safe values no step of the arithmetic overflows. -/
theorem nextAfter_periodic {every start : Nat} (positive : 0 < every)
    (small : every ≤ maxSafeInteger) (small' : start ≤ maxSafeInteger) {previous : Option Nat}
    (safe : ∀ p ∈ previous, p ≤ maxSafeInteger) :
    (periodic every start).nextAfter previous =
      (some (candidate every start previous)).filter (· ≤ maxSafeInteger) := by
  cases previous with
  | none => rfl
  | some index =>
      simp only [nextAfter, candidate]
      split
      · rfl
      · rename_i above
        have limit := safe index rfl
        have bound : maxSafeInteger = 2 ^ 53 - 1 := rfl
        have split := Nat.div_add_mod (index - start) every
        have quotient : (index - start) / every ≤ index - start := Nat.div_le_self _ _
        have product : ((index - start) / every + 1) * every ≤ index - start + every := by
          rw [Nat.add_mul, Nat.mul_comm ((index - start) / every)]
          omega
        rw [if_neg (by omega)]
        simp only [checkedU64, Option.bind_eq_bind]
        rw [if_pos (by omega)]
        simp only [Option.bind_some]
        rw [if_pos (by omega)]
        simp only [Option.bind_some]
        rw [if_pos (by omega)]

theorem candidate_least {every start : Nat} (positive : 0 < every) (previous : Option Nat) :
    (periodic every start).includes (candidate every start previous) ∧
      After previous (candidate every start previous) ∧
      ∀ i, (periodic every start).includes i → After previous i →
        candidate every start previous ≤ i := by
  simp only [includes, decide_eq_true_eq]
  cases previous with
  | none =>
      exact ⟨⟨positive, Nat.le_refl _, by simp [candidate]⟩, fun p absent => absurd absent (by simp),
        fun i included _ => included.2.1⟩
  | some index =>
      simp only [candidate]
      split
      · rename_i below
        refine ⟨⟨positive, Nat.le_refl _, by simp⟩, ?_, fun i included _ => included.2.1⟩
        intro p same
        cases same
        exact below
      · rename_i above
        obtain ⟨later, least⟩ := periodic_next positive (Nat.le_of_not_lt above)
        refine ⟨⟨positive, Nat.le_add_left _ _, by simp⟩, ?_, ?_⟩
        · intro p same
          cases same
          exact later
        · exact fun i included after => least i included.2.1 included.2.2 (after index rfl)

/-- The first index left after the passed ones are dropped. -/
theorem nextAfter_explicit (indices : List Nat) (previous : Option Nat) :
    (explicit indices).nextAfter previous =
      (indices.dropWhile fun i => previous.any (i ≤ ·)).head? := by
  cases previous with
  | none => cases indices <;> rfl
  | some index => rfl

theorem explicit_least {indices : List Nat} (ascending : indices.Pairwise (· < ·))
    (previous : Option Nat) :
    (∀ next ∈ (indices.dropWhile fun i => previous.any (i ≤ ·)).head?,
      next ∈ indices ∧ After previous next ∧ ∀ i ∈ indices, After previous i → next ≤ i) ∧
    ((indices.dropWhile fun i => previous.any (i ≤ ·)).head? = none →
      ∀ i ∈ indices, ¬ After previous i) := by
  induction indices with
  | nil =>
      exact ⟨fun next absent => absurd absent (by simp), fun _ i member => absurd member List.not_mem_nil⟩
  | cons a rest ih =>
      obtain ⟨first, others⟩ := List.pairwise_cons.mp ascending
      obtain ⟨found, missing⟩ := ih others
      by_cases passed : previous.any (a ≤ ·) = true
      · simp only [List.dropWhile_cons, if_pos passed]
        have behind : ¬ After previous a := by
          intro after
          obtain ⟨p, same, le⟩ := (Option.any_eq_true _ _).mp passed
          have := after p same
          simp only [decide_eq_true_eq] at le
          omega
        constructor
        · intro next head
          obtain ⟨inside, after, least⟩ := found next head
          refine ⟨List.mem_cons_of_mem _ inside, after, fun i member later => ?_⟩
          rcases List.mem_cons.mp member with rfl | member
          · exact absurd later behind
          · exact least i member later
        · intro none i member later
          rcases List.mem_cons.mp member with rfl | member
          · exact behind later
          · exact missing none i member later
      · simp only [List.dropWhile_cons, if_neg passed, List.head?_cons]
        constructor
        · intro next head
          cases head
          refine ⟨List.mem_cons_self, fun p same => ?_, fun i member _ => ?_⟩
          · refine Nat.lt_of_not_le fun le => passed ?_
            exact (Option.any_eq_true _ _).mpr ⟨p, same, by simpa using le⟩
          · rcases List.mem_cons.mp member with rfl | member
            · exact Nat.le_refl _
            · exact Nat.le_of_lt (first i member)
        · intro none
          cases none

/-- The next check is scheduled, above the previous one, and nothing scheduled is between. -/
theorem nextAfter_some {schedule : CheckSchedule} (valid : schedule.valid = true)
    {previous : Option Nat} (safe : ∀ p ∈ previous, p ≤ maxSafeInteger) {next : Nat}
    (found : schedule.nextAfter previous = some next) :
    schedule.includes next ∧ next ≤ maxSafeInteger ∧ After previous next ∧
      ∀ i, schedule.includes i → After previous i → next ≤ i := by
  cases schedule with
  | periodic every start =>
      simp only [CheckSchedule.valid, decide_eq_true_eq] at valid
      rw [nextAfter_periodic valid.1 valid.2.1 valid.2.2 safe] at found
      obtain ⟨same, small⟩ := Option.filter_eq_some_iff.mp found
      cases same
      obtain ⟨included, after, least⟩ := @candidate_least every start valid.1 previous
      exact ⟨included, by simpa using small, after, least⟩
  | explicit indices =>
      simp only [CheckSchedule.valid, Bool.and_eq_true, List.all_eq_true, decide_eq_true_eq] at valid
      rw [nextAfter_explicit] at found
      obtain ⟨inside, after, least⟩ :=
        (explicit_least (increasing_pairwise valid.2) previous).1 next found
      simp only [includes, List.contains_iff_mem]
      exact ⟨inside, valid.1.2 next inside, after, least⟩

theorem nextAfter_none {schedule : CheckSchedule} (valid : schedule.valid = true)
    {previous : Option Nat} (safe : ∀ p ∈ previous, p ≤ maxSafeInteger)
    (missing : schedule.nextAfter previous = none) :
    ∀ i, schedule.includes i → After previous i → maxSafeInteger < i := by
  cases schedule with
  | periodic every start =>
      simp only [CheckSchedule.valid, decide_eq_true_eq] at valid
      rw [nextAfter_periodic valid.1 valid.2.1 valid.2.2 safe] at missing
      intro i included after
      have least := (@candidate_least every start valid.1 previous).2.2 i included after
      have large : ¬ candidate every start previous ≤ maxSafeInteger := by
        simpa using missing
      omega
  | explicit indices =>
      simp only [CheckSchedule.valid, Bool.and_eq_true, List.all_eq_true, decide_eq_true_eq] at valid
      rw [nextAfter_explicit] at missing
      intro i included after
      simp only [includes, List.contains_iff_mem] at included
      exact absurd after
        ((explicit_least (increasing_pairwise valid.2) previous).2 missing i included)

end CheckSchedule

end Metewand
