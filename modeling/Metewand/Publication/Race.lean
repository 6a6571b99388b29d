import Metewand.Publication.Exact
import Metewand.Lib.Transition
import Mathlib.Logic.Function.Basic

/-!
# Publishing by several writers

`publish_prepared_directory` as a system.  Any number of calls publish their prepared stages at
one destination; a label lets one call take its next step.  `proceed` is the next operation of
the call, `fault` an operation that the file system fails, and `unlink` a step of
`remove_dir_all`, which leaves some part of the stage.  A rename that must not replace
anything is one step.

The first rename decides (`kept`, `took_unique`).  A call that loses compares the destination
with its stage; it succeeds exactly when they match, unless an operation fails (`raceSound`).
-/

namespace Metewand.Publication

open Lib Lib.Check Evidence

/-! ## Calls -/

/-- The next operation of a call. -/
inductive Phase where
  | verifying
  | moving
  /-- The rename found the destination there. -/
  | occupied
  | comparing
  | synchronizing
  | removing
  /-- The namespace change is being synchronized. -/
  | completing
  | returned (answer : Except PublicationError Unit)

structure PublishCall where
  stage : Option Node
  phase : Phase

inductive Event where
  | proceed
  | fault
  | unlink (rest : Node)

def Event.proceeds : Event → Bool
  | .proceed => true
  | _ => false

/-- The phase after a check. -/
def onward {α : Type} (checked : Except PublicationError α) (next : α → Phase) : Phase :=
  match checked with
  | .ok a => next a
  | .error e => .returned (.error e)

section System

variable (sha256 : List UInt8 → Digest) (lib : JsonLibrary) (schema : Json → Bool)

/-- A path that may be missing is verified. -/
def verifyAt (path : Option Node) : Except PublicationError Unit := do
  verifyFinalizedDirectory sha256 lib schema (← expect path .io)

def sameAt (left right : Option Node) : Except PublicationError Bool := do
  sameContents sha256 (← expect left .io) (← expect right .io)

/-- The operation of a phase, on the stage and the destination. -/
def PublishCall.proceed (call : PublishCall) (destination : Option Node) : PublishCall × Option Node :=
  match call.phase with
  | .verifying =>
      ({ call with phase := onward (verifyAt sha256 lib schema call.stage) fun _ => .moving }, destination)
  | .moving =>
      match call.stage, destination with
      | none, _ => ({ call with phase := .returned (.error .io) }, destination)
      | some stage, none => (⟨none, .completing⟩, some stage)
      | some _, some _ => ({ call with phase := .occupied }, destination)
  | .occupied =>
      ({ call with phase := onward (verifyAt sha256 lib schema destination) fun _ => .comparing }, destination)
  | .comparing =>
      ({ call with phase := onward (sameAt sha256 call.stage destination) fun same =>
          if same then .synchronizing else .returned (.error (.conflict "")) }, destination)
  | .synchronizing =>
      ({ call with phase := onward (expect destination .io >>= inventory sha256) fun _ => .removing },
        destination)
  | .removing => (⟨none, .completing⟩, destination)
  | .completing => ({ call with phase := .returned (.ok ()) }, destination)
  | .returned _ => (call, destination)

/-- How many operations a call has before it. -/
def Phase.rank : Phase → Nat
  | .verifying => 7
  | .moving => 6
  | .occupied => 5
  | .comparing => 4
  | .synchronizing => 3
  | .removing => 2
  | .completing => 1
  | .returned _ => 0

/-- A failed operation ends the call. -/
def PublishCall.fault (call : PublishCall) : PublishCall :=
  match call.phase with
  | .returned _ => call
  | _ => { call with phase := .returned (.error .io) }

def PublishCall.unlink (call : PublishCall) (rest : Node) : PublishCall :=
  match call.phase with
  | .removing => { call with stage := some rest }
  | _ => call

variable {ι : Type}

structure World (ι : Type) where
  destination : Option Node
  calls : ι → PublishCall

variable [DecidableEq ι]

/-- One step of one call. -/
def World.next (w : World ι) (label : ι × Event) : World ι :=
  let call := w.calls label.1
  match label.2 with
  | .proceed =>
      let after := call.proceed sha256 lib schema w.destination
      ⟨after.2, Function.update w.calls label.1 after.1⟩
  | .fault => ⟨w.destination, Function.update w.calls label.1 call.fault⟩
  | .unlink rest => ⟨w.destination, Function.update w.calls label.1 (call.unlink rest)⟩

/-- Calls with prepared stages for one destination, which something else may occupy. -/
structure Contest (ι : Type) where
  stages : ι → Node
  destination : Option Node
  prepared : ∀ i, ∃ tree, Listed tree ∧ prepareDirectory sha256 lib schema tree = .ok (stages i)
  listed : ∀ d ∈ destination, Listed d

end System

/-! ## One call -/

section Call

variable {sha256 : List UInt8 → Digest} {lib : JsonLibrary} {schema : Json → Bool}

/-- A destination that is accepted and compares as equal. -/
def Equal (sha256 : List UInt8 → Digest) (lib : JsonLibrary) (schema : Json → Bool) (own : Node)
    (destination : Option Node) : Prop :=
  ∃ node, destination = some node ∧ verifyFinalizedDirectory sha256 lib schema node = .ok () ∧
    sameContents sha256 own node = .ok true

/-- The stage is the destination, or equals the one that was there. -/
def Placed (sha256 : List UInt8 → Digest) (lib : JsonLibrary) (schema : Json → Bool) (own : Node)
    (took : Prop) (destination : Option Node) : Prop :=
  took ∧ destination = some own ∨ ¬took ∧ Equal sha256 lib schema own destination

/-- What a call has established, by its phase. -/
def Stands (sha256 : List UInt8 → Digest) (lib : JsonLibrary) (schema : Json → Bool) (own : Node)
    (took faulted late : Prop) (destination : Option Node) (call : PublishCall) : Prop :=
  match call.phase with
  | .verifying | .moving => call.stage = some own ∧ ¬took
  | .occupied => call.stage = some own ∧ ¬took ∧ destination ≠ none
  | .comparing => call.stage = some own ∧ ¬took ∧ ∃ node, destination = some node ∧
      verifyFinalizedDirectory sha256 lib schema node = .ok ()
  | .synchronizing => call.stage = some own ∧ ¬took ∧ Equal sha256 lib schema own destination
  | .removing => ¬took ∧ Equal sha256 lib schema own destination
  | .completing | .returned (.ok _) => call.stage = none ∧ Placed sha256 lib schema own took destination
  | .returned (.error _) =>
      call.stage = some own ∧ ¬took ∧
          (faulted ∨ destination ≠ none ∧ ¬Equal sha256 lib schema own destination) ∨
        late ∧ Placed sha256 lib schema own took destination

theorem verifyAt_some {node : Node} :
    verifyAt sha256 lib schema (some node) = verifyFinalizedDirectory sha256 lib schema node := rfl

variable {own : Node} {took faulted late : Prop} {destination : Option Node} {call : PublishCall}

/-- The steps of other calls do not disturb it. -/
theorem Stands.other (stands : Stands sha256 lib schema own took faulted late destination call)
    {destination' : Option Node} (kept : destination' = destination ∨ destination = none)
    {faulted' late' : Prop} (faults : faulted → faulted') (lates : late → late') :
    Stands sha256 lib schema own took faulted' late' destination' call := by
  have equal : Equal sha256 lib schema own destination → Equal sha256 lib schema own destination' := by
    rintro ⟨node, there, rest⟩
    rcases kept with rfl | absent
    · exact ⟨node, there, rest⟩
    · rw [absent] at there
      cases there
  have placed : Placed sha256 lib schema own took destination →
      Placed sha256 lib schema own took destination' := by
    rintro (⟨mine, there⟩ | ⟨none, same⟩)
    · rcases kept with rfl | absent
      · exact .inl ⟨mine, there⟩
      · rw [absent] at there
        cases there
    · exact .inr ⟨none, equal same⟩
  have some : destination ≠ none → destination' = destination := fun there =>
    kept.resolve_right there
  unfold Stands at stands ⊢
  cases phase : call.phase with
  | verifying | moving =>
      rw [phase] at stands
      exact stands
  | occupied =>
      rw [phase] at stands
      exact ⟨stands.1, stands.2.1, some stands.2.2 ▸ stands.2.2⟩
  | comparing =>
      rw [phase] at stands
      obtain ⟨stage, mine, node, there, verified⟩ := stands
      exact ⟨stage, mine, node, (some (by rw [there]; simp)).trans there, verified⟩
  | synchronizing =>
      rw [phase] at stands
      exact ⟨stands.1, stands.2.1, equal stands.2.2⟩
  | removing =>
      rw [phase] at stands
      exact ⟨stands.1, equal stands.2⟩
  | completing =>
      rw [phase] at stands
      exact ⟨stands.1, placed stands.2⟩
  | returned answer =>
      rw [phase] at stands
      cases answer with
      | ok u => exact ⟨stands.1, placed stands.2⟩
      | error e =>
          rcases stands with ⟨stage, mine, fault | ⟨there, apart⟩⟩ | ⟨later, place⟩
          · exact .inl ⟨stage, mine, .inl (faults fault)⟩
          · exact .inl ⟨stage, mine, .inr (some there ▸ ⟨there, apart⟩)⟩
          · exact .inr ⟨lates later, placed place⟩

theorem unlink_stands (stands : Stands sha256 lib schema own took faulted late destination call)
    (rest : Node) : Stands sha256 lib schema own took faulted late destination (call.unlink rest) := by
  unfold PublishCall.unlink
  cases phase : call.phase with
  | removing =>
      unfold Stands at stands ⊢
      rw [phase] at stands
      simp only [phase]
      exact stands
  | verifying | moving | occupied | comparing | synchronizing | completing | returned _ => exact stands

/-- A failed operation leaves the stage alone unless it was already given up. -/
theorem fault_stands (stands : Stands sha256 lib schema own took faulted late destination call)
    {late' : Prop} (lates : late ∨ call.phase = .removing ∨ call.phase = .completing → late') :
    Stands sha256 lib schema own took True late' destination call.fault := by
  unfold PublishCall.fault
  cases phase : call.phase with
  | returned answer =>
      exact stands.other (.inl rfl) (fun _ => trivial) fun before => lates (.inl before)
  | verifying | moving =>
      unfold Stands at stands ⊢
      rw [phase] at stands
      exact .inl ⟨stands.1, stands.2, .inl trivial⟩
  | occupied | comparing | synchronizing =>
      unfold Stands at stands ⊢
      rw [phase] at stands
      exact .inl ⟨stands.1, stands.2.1, .inl trivial⟩
  | removing =>
      unfold Stands at stands ⊢
      rw [phase] at stands
      exact .inr ⟨lates (.inr (.inl phase)), .inr stands⟩
  | completing =>
      unfold Stands at stands ⊢
      rw [phase] at stands
      exact .inr ⟨lates (.inr (.inr phase)), stands.2⟩

/-- A phase that was reached by a check that passed, or the end of the call. -/
theorem proceed_stands (verified : verifyFinalizedDirectory sha256 lib schema own = .ok ())
    (stands : Stands sha256 lib schema own took faulted late destination call) :
    Stands sha256 lib schema own
      (took ∨ destination = none ∧ (call.proceed sha256 lib schema destination).2 ≠ none) faulted late
      (call.proceed sha256 lib schema destination).2 (call.proceed sha256 lib schema destination).1 := by
  have unmoved : (took ∨ destination = none ∧ destination ≠ none) = took := by
    refine propext ⟨fun either => ?_, .inl⟩
    rcases either with mine | ⟨absent, there⟩
    · exact mine
    · exact absurd absent there
  obtain ⟨stage, phase⟩ := call
  cases phase with
  | verifying =>
      obtain ⟨rfl, mine⟩ := stands
      have passed : verifyAt sha256 lib schema (some own) = .ok () := verifyAt_some.trans verified
      simp only [PublishCall.proceed, passed, onward, unmoved]
      exact ⟨rfl, mine⟩
  | moving =>
      obtain ⟨rfl, mine⟩ := stands
      cases destination with
      | none =>
          simp only [PublishCall.proceed]
          exact ⟨rfl, .inl ⟨.inr ⟨trivial, by simp⟩, rfl⟩⟩
      | some node =>
          simp only [PublishCall.proceed, unmoved]
          exact ⟨rfl, mine, by simp⟩
  | occupied =>
      obtain ⟨rfl, mine, there⟩ := stands
      simp only [PublishCall.proceed, unmoved]
      cases destination with
      | none => exact absurd rfl there
      | some node =>
          rw [verifyAt_some]
          cases checked : verifyFinalizedDirectory sha256 lib schema node with
          | ok u => exact ⟨rfl, mine, node, rfl, checked⟩
          | error e =>
              refine .inl ⟨rfl, mine, .inr ⟨by simp, ?_⟩⟩
              rintro ⟨_, same, accepted, -⟩
              cases same
              rw [checked] at accepted
              cases accepted
  | comparing =>
      obtain ⟨rfl, mine, node, rfl, accepted⟩ := stands
      simp only [PublishCall.proceed, unmoved]
      have compares : sameAt sha256 (some own) (some node) = sameContents sha256 own node := rfl
      rw [compares]
      have differs : sameContents sha256 own node ≠ .ok true →
          ¬Equal sha256 lib schema own (some node) := by
        rintro other ⟨_, same, -, equal⟩
        cases same
        exact other equal
      cases compared : sameContents sha256 own node with
      | error e => exact .inl ⟨rfl, mine, .inr ⟨by simp, differs (by rw [compared]; simp)⟩⟩
      | ok same =>
          cases same with
          | true => exact ⟨rfl, mine, node, rfl, accepted, compared⟩
          | false => exact .inl ⟨rfl, mine, .inr ⟨by simp, differs (by rw [compared]; simp)⟩⟩
  | synchronizing =>
      obtain ⟨rfl, mine, node, rfl, accepted, equal⟩ := stands
      obtain ⟨marker, m, -, found, -⟩ := verify_ok.mp accepted
      have passed : (expect (some node) PublicationError.io >>= inventory sha256) = .ok m := found
      simp only [PublishCall.proceed, passed, onward, unmoved]
      exact ⟨mine, node, rfl, accepted, equal⟩
  | removing =>
      simp only [PublishCall.proceed, unmoved]
      exact ⟨rfl, .inr stands⟩
  | completing =>
      simp only [PublishCall.proceed, unmoved]
      exact stands
  | returned answer =>
      simp only [PublishCall.proceed, unmoved]
      exact stands

end Call

namespace Contest

variable {sha256 : List UInt8 → Digest} {lib : JsonLibrary} {schema : Json → Bool} {ι : Type}
  [DecidableEq ι] (c : Contest sha256 lib schema ι)

/-- Before any call has taken a step. -/
def start : World ι := ⟨c.destination, fun i => ⟨some (c.stages i), .verifying⟩⟩

/-- After the given steps. -/
def after (ls : List (ι × Event)) : World ι := run (World.next sha256 lib schema) c.start ls

/-- A step of the call has put its stage at the destination. -/
def Took (i : ι) : List (ι × Event) → Prop :=
  Past fun ks l => l.1 = i ∧ (c.after ks).destination = none ∧ (c.after (ks ++ [l])).destination ≠ none

/-- An operation of the call has failed after the call began to remove its stage, or after its
rename. -/
def Late (i : ι) : List (ι × Event) → Prop :=
  Past fun ks l => l = (i, .fault) ∧
    (((c.after ks).calls i).phase = .removing ∨ ((c.after ks).calls i).phase = .completing)

/-- No step of the call has changed the destination. -/
def Untouched (i : ι) (ls : List (ι × Event)) : Prop :=
  ∀ ks l ms, ls = ks ++ l :: ms → l.1 = i → (c.after (ks ++ [l])).destination = (c.after ks).destination

/-! ## Steps and runs -/

variable {c}

theorem after_concat {ls : List (ι × Event)} {l : ι × Event} :
    c.after (ls ++ [l]) = (c.after ls).next sha256 lib schema l := run_concat

theorem next_calls_other {w : World ι} {l : ι × Event} {i : ι} (other : l.1 ≠ i) :
    (w.next sha256 lib schema l).calls i = w.calls i := by
  obtain ⟨j, event⟩ := l
  cases event <;> exact Function.update_of_ne other.symm _ _

theorem next_proceed {w : World ι} {i : ι} :
    ((w.next sha256 lib schema (i, .proceed)).calls i, (w.next sha256 lib schema (i, .proceed)).destination) =
      (w.calls i).proceed sha256 lib schema w.destination :=
  Prod.ext (Function.update_self _ _ _) rfl

theorem next_fault {w : World ι} {i : ι} :
    (w.next sha256 lib schema (i, .fault)).calls i = (w.calls i).fault := Function.update_self _ _ _

theorem next_unlink {w : World ι} {i : ι} {rest : Node} :
    (w.next sha256 lib schema (i, .unlink rest)).calls i = (w.calls i).unlink rest :=
  Function.update_self _ _ _

/-- A step changes the destination only by a rename that finds nothing there. -/
theorem next_destination (w : World ι) (l : ι × Event) :
    (w.next sha256 lib schema l).destination = w.destination ∨
      w.destination = none ∧ (w.calls l.1).phase = .moving ∧ ∃ stage, (w.calls l.1).stage = some stage ∧
        (w.next sha256 lib schema l).destination = some stage ∧
        (w.next sha256 lib schema l).calls l.1 = ⟨none, .completing⟩ := by
  obtain ⟨i, event⟩ := l
  cases event with
  | fault | unlink rest => exact .inl rfl
  | proceed =>
      have moved := @next_proceed sha256 lib schema ι _ w i
      cases call : w.calls i with
      | mk stage phase =>
          rw [call] at moved
          cases phase with
          | moving =>
              cases stage with
              | none => exact .inl (congrArg Prod.snd moved)
              | some stage =>
                  cases found : w.destination with
                  | none =>
                      rw [found] at moved
                      exact .inr ⟨rfl, rfl, stage, rfl, congrArg Prod.snd moved, congrArg Prod.fst moved⟩
                  | some there =>
                      rw [found] at moved
                      exact .inl (congrArg Prod.snd moved)
          | verifying | occupied | comparing | synchronizing | removing | completing | returned _ =>
              exact .inl (congrArg Prod.snd moved)

theorem kept_or_absent (w : World ι) (l : ι × Event) :
    (w.next sha256 lib schema l).destination = w.destination ∨ w.destination = none := by
  rcases next_destination w l with same | ⟨absent, -⟩
  · exact .inl same
  · exact .inr absent

theorem took_other {ls : List (ι × Event)} {l : ι × Event} {i : ι} (other : l.1 ≠ i) :
    c.Took i (ls ++ [l]) ↔ c.Took i ls := by
  unfold Took
  rw [past_concat]
  exact or_iff_left fun mine => other mine.1

theorem took_own {ls : List (ι × Event)} {l : ι × Event} : c.Took l.1 (ls ++ [l]) ↔
    c.Took l.1 ls ∨ (c.after ls).destination = none ∧ (c.after (ls ++ [l])).destination ≠ none := by
  unfold Took
  rw [past_concat]
  exact or_congr_right (and_iff_right rfl)

theorem took_unmoved {ls : List (ι × Event)} {l : ι × Event} {i : ι}
    (same : (c.after (ls ++ [l])).destination = (c.after ls).destination) :
    c.Took i (ls ++ [l]) ↔ c.Took i ls := by
  unfold Took
  rw [past_concat]
  refine or_iff_left ?_
  rintro ⟨-, absent, there⟩
  exact there (same.trans absent)

theorem Late.concat {ls : List (ι × Event)} {i : ι} (late : c.Late i ls) (l : ι × Event) :
    c.Late i (ls ++ [l]) := past_concat.mpr (.inl late)

theorem accepted (c : Contest sha256 lib schema ι) (i : ι) : IsPrepared sha256 lib schema (c.stages i) := by
  obtain ⟨tree, listed, done⟩ := c.prepared i
  exact isPrepared listed done

/-- What a call has established holds in every run. -/
theorem stands (c : Contest sha256 lib schema ι) (i : ι) (ls : List (ι × Event)) :
    Stands sha256 lib schema (c.stages i) (c.Took i ls) ((i, .fault) ∈ ls) (c.Late i ls)
      (c.after ls).destination ((c.after ls).calls i) := by
  induction ls using List.reverseRecOn with
  | nil => exact ⟨rfl, not_past_nil⟩
  | append_singleton ls l ih =>
      have faults : (i, Event.fault) ∈ ls → (i, Event.fault) ∈ ls ++ [l] := List.mem_append_left _
      have lates : c.Late i ls → c.Late i (ls ++ [l]) := fun late => late.concat l
      by_cases own : l.1 = i
      · obtain ⟨j, event⟩ := l
        cases own
        cases event with
        | proceed =>
            have moved := proceed_stands (c.accepted j).accepted ih
            have taken := propext (@took_own _ _ _ _ _ c ls (j, .proceed))
            rw [taken, after_concat]
            rw [← next_proceed] at moved
            exact moved.other (.inl rfl) faults lates
        | fault =>
            have taken : c.Took j (ls ++ [(j, .fault)]) = c.Took j ls :=
              propext (took_unmoved ((congrArg World.destination after_concat).trans rfl))
            rw [taken, after_concat, next_fault]
            have failed := @fault_stands _ _ _ _ _ _ _ _ _ ih (c.Late j (ls ++ [(j, .fault)])) (by
              rintro (late | phase)
              · exact lates late
              · exact past_concat.mpr (.inr ⟨rfl, phase⟩))
            exact failed.other (.inl rfl) (fun _ => List.mem_append_right _ (List.mem_singleton_self _)) id
        | unlink rest =>
            have taken : c.Took j (ls ++ [(j, .unlink rest)]) = c.Took j ls :=
              propext (took_unmoved ((congrArg World.destination after_concat).trans rfl))
            rw [taken, after_concat, next_unlink]
            exact (unlink_stands ih rest).other (.inl rfl) faults lates
      · rw [propext (took_other own), after_concat, next_calls_other own]
        exact ih.other (kept_or_absent _ _) faults lates

/-- What stands at the destination: what stood there before, or the stage of the one call that
took it. -/
theorem occupant (c : Contest sha256 lib schema ι) (ls : List (ι × Event)) :
    ((c.after ls).destination = c.destination ∧ ∀ i, ¬c.Took i ls) ∨
      c.destination = none ∧ ∃ i, (c.after ls).destination = some (c.stages i) ∧
        ∀ j, c.Took j ls ↔ i = j := by
  induction ls using List.reverseRecOn with
  | nil => exact .inl ⟨rfl, fun _ => not_past_nil⟩
  | append_singleton ls l ih =>
      rcases next_destination (c.after ls) l with same | ⟨absent, phase, stage, held, moved, -⟩
      · rw [← after_concat] at same
        rw [same]
        simp only [took_unmoved same]
        exact ih
      · have own : stage = c.stages l.1 := by
          have stood := c.stands l.1 ls
          unfold Stands at stood
          rw [phase] at stood
          exact Option.some.inj (held.symm.trans stood.1)
        rw [← after_concat, own] at moved
        rcases ih with ⟨before, unclaimed⟩ | ⟨-, i, there, -⟩
        · refine .inr ⟨before.symm.trans absent, l.1, moved, fun j => ?_⟩
          unfold Took
          rw [past_concat]
          constructor
          · rintro (earlier | now)
            · exact absurd earlier (unclaimed j)
            · exact now.1
          · intro now
            refine .inr ⟨now, absent, ?_⟩
            rw [moved]
            exact Option.some_ne_none _
        · rw [absent] at there
          cases there

theorem listed_after (c : Contest sha256 lib schema ι) (ls : List (ι × Event)) {d : Node}
    (there : (c.after ls).destination = some d) : Listed d := by
  rcases c.occupant ls with ⟨same, -⟩ | ⟨-, i, same, -⟩
  · exact c.listed d (same.symm.trans there)
  · rw [there] at same
    cases same
    exact (c.accepted i).listed

theorem kept (c : Contest sha256 lib schema ι) (ls ms : List (ι × Event)) {d : Node}
    (there : (c.after ls).destination = some d) : (c.after (ls ++ ms)).destination = some d := by
  induction ms using List.reverseRecOn with
  | nil => rwa [List.append_nil]
  | append_singleton ms l ih =>
      rw [← List.append_assoc, after_concat]
      rcases kept_or_absent (c.after (ls ++ ms)) l with same | absent
      · exact same.trans ih
      · rw [absent] at ih
        cases ih

theorem placed (c : Contest sha256 lib schema ι) (ls : List (ι × Event)) (l : ι × Event)
    (changed : (c.after (ls ++ [l])).destination ≠ (c.after ls).destination) :
    (c.after ls).destination = none ∧ (c.after (ls ++ [l])).destination = some (c.stages l.1) ∧
      ((c.after (ls ++ [l])).calls l.1).stage = none := by
  rw [after_concat] at changed ⊢
  obtain ⟨absent, phase, stage, held, moved, call⟩ :=
    (next_destination (c.after ls) l).resolve_left changed
  have stood := c.stands l.1 ls
  unfold Stands at stood
  rw [phase] at stood
  rw [held] at stood
  rw [moved, call]
  exact ⟨absent, stood.1, rfl⟩

theorem untouched {ls : List (ι × Event)} {i : ι} (free : ¬c.Took i ls) : c.Untouched i ls := by
  intro ks l ms split own
  by_contra changed
  obtain ⟨absent, moved, -⟩ := c.placed ks l changed
  exact free ⟨ks, l, ms, split, own, absent, by rw [moved]; exact Option.some_ne_none _⟩

theorem took_destination {ls : List (ι × Event)} {i : ι} (took : c.Took i ls) :
    (c.after ls).destination = some (c.stages i) := by
  rcases c.occupant ls with ⟨-, unclaimed⟩ | ⟨-, j, there, only⟩
  · exact absurd took (unclaimed i)
  · rw [there, (only i).mp took]

theorem took_unique {ls : List (ι × Event)} {i j : ι} (first : c.Took i ls) (second : c.Took j ls) :
    i = j := by
  rcases c.occupant ls with ⟨-, unclaimed⟩ | ⟨-, k, -, only⟩
  · exact absurd first (unclaimed i)
  · exact ((only i).mp first).symm.trans ((only j).mp second)

theorem Late.fault {ls : List (ι × Event)} {i : ι} (late : c.Late i ls) : (i, Event.fault) ∈ ls := by
  obtain ⟨ks, l, ms, rfl, rfl, -⟩ := late
  exact List.mem_append_right _ List.mem_cons_self

/-! ## Comparing with the destination -/

/-- A destination is found equal exactly when it has the files of the stage and nothing else. -/
theorem equal_iff {own d : Node} (whole : IsPrepared sha256 lib schema own) (listed : Listed d) :
    Equal sha256 lib schema own (some d) ↔ Matches own d := by
  constructor
  · rintro ⟨_, same, verified, equal⟩
    cases same
    obtain ⟨_, _, -, found, -⟩ := verify_ok.mp verified
    have readable := (readable_of_inventory listed found).1
    obtain ⟨same, compared, iff⟩ := @sameContents_iff sha256 _ _ whole.readable readable
    rw [compared] at equal
    cases equal
    exact ⟨readable.solid, iff.mp rfl⟩
  · intro same
    obtain ⟨equal, compared, iff⟩ :=
      @sameContents_iff sha256 _ _ whole.readable (same.readable whole.readable listed)
    rw [iff.mpr same.files] at compared
    exact ⟨d, rfl, same.verify whole.listed listed whole.accepted, compared⟩

/-- A call whose stage was given up has it at the destination, or the same files. -/
theorem placed_matches {ls : List (ι × Event)} {i : ι}
    (place : Placed sha256 lib schema (c.stages i) (c.Took i ls) (c.after ls).destination) :
    ∃ d, (c.after ls).destination = some d ∧ Matches (c.stages i) d := by
  rcases place with ⟨-, there⟩ | ⟨-, equal⟩
  · exact ⟨_, there, ⟨(c.accepted i).readable.solid, fun _ => Iff.rfl⟩⟩
  · cases there : (c.after ls).destination with
    | none =>
        obtain ⟨_, impossible, -⟩ := there ▸ equal
        cases impossible
    | some d =>
        rw [there] at equal
        exact ⟨d, rfl, (equal_iff (c.accepted i) (c.listed_after ls there)).mp equal⟩

/-! ## Every call returns -/

theorem onward_rank {α : Type} {checked : Except PublicationError α} {next : α → Phase} {n : Nat}
    (each : ∀ a, (next a).rank ≤ n) : (onward checked next).rank ≤ n := by
  cases checked with
  | ok a => exact each a
  | error e => exact Nat.zero_le n

theorem proceed_rank (call : PublishCall) (destination : Option Node) :
    (call.proceed sha256 lib schema destination).1.phase.rank ≤ call.phase.rank - 1 := by
  obtain ⟨stage, phase⟩ := call
  cases phase with
  | verifying => exact onward_rank fun _ => Nat.le_refl 6
  | moving => cases stage <;> cases destination <;> simp [PublishCall.proceed, Phase.rank]
  | occupied => exact onward_rank fun _ => Nat.le_refl 4
  | comparing =>
      refine onward_rank fun same => ?_
      cases same <;> simp [Phase.rank]
  | synchronizing => exact onward_rank fun _ => Nat.le_refl 2
  | removing => exact Nat.le_refl 1
  | completing => exact Nat.le_refl 0
  | returned answer => exact Nat.le_refl 0

theorem next_rank (w : World ι) (l : ι × Event) (i : ι) :
    ((w.next sha256 lib schema l).calls i).phase.rank ≤
      (w.calls i).phase.rank - [l].countP fun l => decide (l.1 = i) && l.2.proceeds := by
  by_cases own : l.1 = i
  · obtain ⟨j, event⟩ := l
    cases own
    cases event with
    | proceed =>
        have less := @proceed_rank sha256 lib schema (w.calls j) w.destination
        rw [← next_proceed] at less
        simpa [Event.proceeds] using less
    | fault =>
        rw [next_fault]
        unfold PublishCall.fault
        cases phase : (w.calls j).phase <;> simp [Event.proceeds, Phase.rank, phase]
    | unlink rest =>
        rw [next_unlink]
        unfold PublishCall.unlink
        cases phase : (w.calls j).phase <;> simp [Event.proceeds, phase]
  · rw [next_calls_other own]
    simp [own]

theorem rank_after (c : Contest sha256 lib schema ι) (i : ι) (ls : List (ι × Event)) :
    ((c.after ls).calls i).phase.rank ≤ 7 - ls.countP fun l => decide (l.1 = i) && l.2.proceeds := by
  induction ls using List.reverseRecOn with
  | nil => exact Nat.le_refl 7
  | append_singleton ls l ih =>
      rw [after_concat, List.countP_append]
      have step := @next_rank sha256 lib schema ι _ (c.after ls) l i
      omega

end Contest

/-! ## The race -/

/-- What holds of a destination for which several calls contend, in every run. -/
structure RaceSound {sha256 : List UInt8 → Digest} {lib : JsonLibrary} {schema : Json → Bool} {ι : Type}
    [DecidableEq ι] (c : Contest sha256 lib schema ι) : Prop where
  /-- What stands at the destination is never changed. -/
  kept : ∀ ls ms d, (c.after ls).destination = some d → (c.after (ls ++ ms)).destination = some d
  /-- Only the whole stage of a call gets there, by a step of that call. -/
  placed : ∀ ls l, (c.after (ls ++ [l])).destination ≠ (c.after ls).destination →
    (c.after ls).destination = none ∧ (c.after (ls ++ [l])).destination = some (c.stages l.1) ∧
      ((c.after (ls ++ [l])).calls l.1).stage = none
  unique : ∀ ls i j, c.Took i ls → c.Took j ls → i = j
  succeeded : ∀ ls i, ((c.after ls).calls i).phase = .returned (.ok ()) →
    ((c.after ls).calls i).stage = none ∧ ∃ d, (c.after ls).destination = some d ∧ Matches (c.stages i) d
  failed : ∀ ls i e, ((c.after ls).calls i).phase = .returned (.error e) →
    ((c.after ls).calls i).stage = some (c.stages i) ∧ c.Untouched i ls ∨
      c.Late i ls ∧ ∃ d, (c.after ls).destination = some d ∧ Matches (c.stages i) d
  /-- Unless an operation fails, the files at the destination decide. -/
  decided : ∀ ls i answer, (i, .fault) ∉ ls → ((c.after ls).calls i).phase = .returned answer →
    ∃ d, (c.after ls).destination = some d ∧ (answer = .ok () ↔ Matches (c.stages i) d) ∧
      (c.destination = none → (answer = .ok () ↔ ∀ f, f ∈ files d ↔ f ∈ files (c.stages i)))
  returns : ∀ ls i, 7 ≤ (ls.countP fun l => decide (l.1 = i) && l.2.proceeds) →
    ∃ answer, ((c.after ls).calls i).phase = .returned answer

section Race

variable {sha256 : List UInt8 → Digest} {lib : JsonLibrary} {schema : Json → Bool} {ι : Type}
  [DecidableEq ι] (c : Contest sha256 lib schema ι) {ls : List (ι × Event)} {i : ι}

namespace Contest

theorem succeeded (done : ((c.after ls).calls i).phase = .returned (.ok ())) :
    ((c.after ls).calls i).stage = none ∧
      ∃ d, (c.after ls).destination = some d ∧ Matches (c.stages i) d := by
  have stood := c.stands i ls
  unfold Stands at stood
  rw [done] at stood
  exact ⟨stood.1, placed_matches stood.2⟩

theorem failed {e : PublicationError} (done : ((c.after ls).calls i).phase = .returned (.error e)) :
    ((c.after ls).calls i).stage = some (c.stages i) ∧ c.Untouched i ls ∨
      c.Late i ls ∧ ∃ d, (c.after ls).destination = some d ∧ Matches (c.stages i) d := by
  have stood := c.stands i ls
  unfold Stands at stood
  rw [done] at stood
  rcases stood with ⟨stage, free, -⟩ | ⟨late, place⟩
  · exact .inl ⟨stage, untouched free⟩
  · exact .inr ⟨late, placed_matches place⟩

theorem decided {answer : Except PublicationError Unit} (faultless : (i, .fault) ∉ ls)
    (done : ((c.after ls).calls i).phase = .returned answer) :
    ∃ d, (c.after ls).destination = some d ∧ (answer = .ok () ↔ Matches (c.stages i) d) := by
  cases answer with
  | ok u =>
      obtain ⟨-, d, there, same⟩ := c.succeeded done
      exact ⟨d, there, iff_of_true rfl same⟩
  | error e =>
      have stood := c.stands i ls
      unfold Stands at stood
      rw [done] at stood
      rcases stood with ⟨-, -, fault | ⟨there, apart⟩⟩ | ⟨late, -⟩
      · exact absurd fault faultless
      · cases found : (c.after ls).destination with
        | none => exact absurd found there
        | some d =>
            rw [found, equal_iff (c.accepted i) (c.listed_after ls found)] at apart
            exact ⟨d, rfl, iff_of_false (by simp) apart⟩
      · exact absurd late.fault faultless

/-- Where nothing stood before, what stands there is a prepared directory. -/
theorem solid_after (free : c.destination = none) {d : Node} (there : (c.after ls).destination = some d) :
    SolidRoot d := by
  rcases c.occupant ls with ⟨same, -⟩ | ⟨-, j, same, -⟩
  · rw [there, free] at same
    cases same
  · rw [there] at same
    cases same
    exact (c.accepted j).readable.solid

end Contest

theorem raceSound : RaceSound c where
  kept := fun ls ms _ there => c.kept ls ms there
  placed := c.placed
  unique := fun _ _ _ first second => Contest.took_unique first second
  succeeded := fun _ _ done => c.succeeded done
  failed := fun _ _ _ done => c.failed done
  decided := by
    intro ls i answer faultless done
    obtain ⟨d, there, same⟩ := c.decided faultless done
    refine ⟨d, there, same, fun free => same.trans ⟨Matches.files, fun files => ?_⟩⟩
    exact ⟨c.solid_after free there, files⟩
  returns := by
    intro ls i often
    have bound := c.rank_after i ls
    have ended : ((c.after ls).calls i).phase.rank = 0 := by omega
    cases phase : ((c.after ls).calls i).phase with
    | returned answer => exact ⟨answer, rfl⟩
    | verifying | moving | occupied | comparing | synchronizing | removing | completing =>
        rw [phase] at ended
        cases ended

end Race

/-- Verification accepts exactly what was prepared, and the first call to rename decides what
is published. -/
theorem publication_exact (sha256 : List UInt8 → Digest) (lib : JsonLibrary) (schema : Json → Bool) :
    (∀ stage prepared, Listed stage → prepareDirectory sha256 lib schema stage = .ok prepared →
      ExactlyVerified sha256 lib schema prepared) ∧
    ∀ (ι : Type) [DecidableEq ι] (c : Contest sha256 lib schema ι), RaceSound c :=
  ⟨fun _ _ listed done => (isPrepared listed done).exactlyVerified, fun _ _ c => raceSound c⟩

/-! ## A sample -/

/-- SHA-256 of the file of the sample and of its marker. -/
def sampleHash (input : List UInt8) : Digest :=
  if input = [1] then
    ⟨[75, 245, 18, 47, 52, 69, 84, 197, 59, 222, 46, 187, 140, 210, 183, 227, 209, 96, 10, 214, 49, 195,
      133, 165, 215, 204, 226, 60, 119, 133, 69, 154], rfl⟩
  else
    ⟨[100, 143, 20, 125, 201, 2, 77, 154, 93, 154, 77, 165, 167, 39, 191, 94, 184, 60, 18, 252, 166, 31,
      126, 22, 0, 49, 33, 133, 14, 202, 247, 149], rfl⟩

def sampleMarker : Json := markerJson [fileEntry sampleHash "a" [1]]

def sampleBytes : List UInt8 := JsonLibrary.encode ⟨fun _ => [], fun _ => none⟩ sampleMarker

def sampleLibrary : JsonLibrary where
  fractionText _ := ['0', '.', '5']
  parse input := if input = sampleBytes then some sampleMarker else none

def sampleStage : Node := .directory [("a", .file [1] false)]

def samplePrepared : Node :=
  .directory [("a", .file [1] false), ("manifest.json", .file sampleBytes false)]

theorem sampleStage_listed : Listed sampleStage := by
  refine ⟨by unfold Keyed; decide, ?_, trivial, trivial⟩
  decide

theorem prepare_sample :
    prepareDirectory sampleHash sampleLibrary (fun _ => true) sampleStage = .ok samplePrepared := by
  have listing : inventory sampleHash sampleStage =
      .ok (.ofRows FileEntry.path [fileEntry sampleHash "a" [1]]) := by decide +kernel
  have normal : sampleMarker.normalize = .ok sampleMarker := by decide +kernel
  have accepted : verifyFinalizedDirectory sampleHash sampleLibrary (fun _ => true) samplePrepared = .ok () := by
    decide +kernel
  simp only [prepareDirectory, ok_bind, ok_reject, ok_mapError, ok_pure]
  refine ⟨_, listing, (), by decide +kernel, ⟨sampleMarker, Json.normalize_idempotent normal⟩,
    CanonicalValue.tryFrom_ok.mpr normal, (), by decide, samplePrepared, rfl, (), accepted, rfl⟩

/-- Two calls publish the same tree where nothing stands yet. -/
def sampleContest : Contest sampleHash sampleLibrary (fun _ => true) Bool where
  stages _ := samplePrepared
  destination := none
  prepared _ := ⟨sampleStage, sampleStage_listed, prepare_sample⟩
  listed := by simp

theorem publication_exact_sample :
    ExactlyVerified sampleHash sampleLibrary (fun _ => true) samplePrepared ∧ RaceSound sampleContest := by
  have exact := publication_exact sampleHash sampleLibrary fun _ => true
  exact ⟨exact.1 _ _ sampleStage_listed prepare_sample, exact.2 Bool sampleContest⟩

/-- The first call renames its stage, and then fails to synchronize the namespace. -/
def sampleFault : List (Bool × Event) := [(true, .proceed), (true, .proceed), (true, .fault)]

/-- A call that failed has published its stage. -/
theorem publication_fault :
    ((sampleContest.after sampleFault).calls true).phase = .returned (.error .io) ∧
      ((sampleContest.after sampleFault).calls true).stage = none ∧
      (sampleContest.after sampleFault).destination = some samplePrepared ∧
      sampleContest.destination = none := by
  obtain ⟨_, _, -, -, -, accepted⟩ := prepare_ok prepare_sample
  have verified : verifyAt sampleHash sampleLibrary (fun _ => true) (some samplePrepared) = .ok () :=
    verifyAt_some.trans accepted
  simp [Contest.after, Contest.start, sampleContest, sampleFault, run, World.next, PublishCall.proceed,
    PublishCall.fault, onward, verified]

end Metewand.Publication
