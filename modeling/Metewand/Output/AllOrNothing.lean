import Metewand.Output.Reading

/-!
# All or nothing

Publication is a row of operations any of which may fail, at a deadline or for its own reasons,
while other parties change the directory.  At every path they leave alone the directory holds
what it held, or a file of the call that took a free place (`Safe`); dropping the files of the
call therefore restores it.  Undisturbed, the directory is the old one with the files of the
call laid over it (`Overlay`), and in the end these are the documents.

`finalize_all_or_nothing` is the result.  It fails at one place: when the draft has been removed
the deadline is checked again, and a call that is late there drops its documents and has no draft to
put back.
-/

namespace Metewand.Output

open Lib Lib.Check Lib.Effect Execution

/-! ## A failed call -/

/-- Other parties leave the path alone. -/
def Quiet (env : Nat → Moment) (p : String) : Prop :=
  ∀ n (tree : Tree), ((env n).others tree).get p = tree.get p

/-- The temporary files and the documents of the call. -/
def World.owned (w : World) : List String := w.staged.map Prod.fst ++ w.published

/-- A path that others leave alone holds what it held, or a file of the call that took a free
place. -/
structure Safe (env : Nat → Moment) (base : Tree) (response : Json) (w : World) : Prop where
  answer : w.response = response
  free : ∀ p, Quiet env p → p ∈ w.owned → base.get p = none
  same : ∀ p, Quiet env p → p ∉ w.owned → w.tree.get p = base.get p

section Failure

variable {env : Nat → Moment} {deadline : Option Nat} {base : Tree} {response : Json}

theorem Safe.stable : Stable env (Safe env base response) :=
  fun w safe => ⟨safe.answer, safe.free, fun p quiet other =>
    (quiet w.time w.tree).trans (safe.same p quiet other)⟩

/-- A path that is free now was free. -/
theorem Safe.of_free {w : World} (safe : Safe env base response w) {p : String} (quiet : Quiet env p)
    (empty : w.tree.get p = none) : base.get p = none := by
  by_cases own : p ∈ w.owned
  · exact safe.free p quiet own
  · rw [← safe.same p quiet own, empty]

theorem createTemp_safe (name : String) :
    Holds (Safe env base response) (createTemp env name)
      (fun temp w => Safe env base response w ∧ temp ∈ w.staged.map Prod.fst)
      (fun _ => Safe env base response) := by
  refine (operate_keeps Safe.stable).bind fun m => ?_
  refine holds_via (fun v w => Safe env base response w ∧ w = v) ?_ fun v => ?_
  · exact holds_get fun w start => ⟨start, rfl⟩
  refine holds_via (fun _ w => Safe env base response w ∧ w.tree.get m.name = none) ?_ fun _ => ?_
  · refine holds_require (fun empty w start => ?_) fun _ w start => start.1
    obtain ⟨start, rfl⟩ := start
    exact ⟨start, empty⟩
  refine holds_via (fun _ w => Safe env base response w ∧ m.name ∈ w.staged.map Prod.fst) ?_
    fun _ => holds_pure fun w start => start
  refine holds_modify ?_
  rintro w ⟨start, empty⟩
  refine ⟨⟨start.answer, fun p quiet own => ?_, fun p quiet other => ?_⟩, by simp⟩
  · by_cases here : p = m.name
    · subst here
      exact start.of_free quiet empty
    · refine start.free p quiet ?_
      simp only [World.owned, List.map_append, List.mem_append, List.map_cons, List.map_nil,
        List.mem_singleton] at own ⊢
      tauto
  · simp only [World.owned, List.map_append, List.mem_append, List.map_cons, List.map_nil,
      List.mem_singleton, not_or] at other
    rw [OrderedMap.get_insert, if_neg other.1.2]
    refine start.same p quiet ?_
    simp only [World.owned, List.mem_append, not_or]
    exact ⟨other.1.1, other.2⟩

theorem get_appendTo {temp q : String} {chunk : List UInt8} {tree : Tree} (other : q ≠ temp) :
    (appendTo temp chunk tree).get q = tree.get q := by
  unfold appendTo
  split
  · rw [OrderedMap.get_insert, if_neg other]
  · rfl

theorem writeChunk_safe (temp : String) (chunk : List UInt8) :
    Holds (fun w => Safe env base response w ∧ temp ∈ w.staged.map Prod.fst)
      (writeChunk env deadline temp chunk)
      (fun _ w => Safe env base response w ∧ temp ∈ w.staged.map Prod.fst)
      (fun _ w => Safe env base response w ∧ temp ∈ w.staged.map Prod.fst) := by
  have stable : Stable env fun w => Safe env base response w ∧ temp ∈ w.staged.map Prod.fst :=
    fun w start => ⟨Safe.stable w start.1, start.2⟩
  refine (checkDeadline_keeps stable).bind fun _ => (operate_keeps stable).bind fun _ => ?_
  refine keeps_modify ?_
  rintro w ⟨start, own⟩
  refine ⟨⟨start.answer, start.free, fun p quiet other => ?_⟩, own⟩
  have apart : p ≠ temp := by
    rintro rfl
    exact other (List.mem_append_left _ own)
  exact (get_appendTo apart).trans (start.same p quiet other)

theorem stageDocument_safe (document : String × List UInt8) :
    Holds (Safe env base response) (stageDocument env deadline document)
      (fun _ => Safe env base response) (fun _ => Safe env base response) := by
  refine (checkDeadline_keeps Safe.stable).bind fun _ => ?_
  refine (createTemp_safe document.1).bind fun temp => ?_
  exact (Holds.forEach _ (fun chunk => writeChunk_safe temp chunk) _).weaken
    (fun _ start => start) (fun _ _ start => start.1) fun _ _ start => start.1

theorem persist_safe (staged : String × String) (rest : List (String × String)) :
    Holds (fun w => Safe env base response w ∧ w.staged = staged :: rest)
      (persist env deadline staged)
      (fun _ w => Safe env base response w ∧ w.staged = rest) (fun _ => Safe env base response) := by
  have stable : Stable env fun w => Safe env base response w ∧ w.staged = staged :: rest :=
    fun w start => ⟨Safe.stable w start.1, start.2⟩
  have weak : ∀ (_ : OutputError) (w : World),
      Safe env base response w ∧ w.staged = staged :: rest → Safe env base response w :=
    fun _ _ start => start.1
  refine Holds.bind ((checkDeadline_keeps stable).weaken (fun _ start => start)
    (fun _ _ start => start) weak) fun _ => ?_
  refine Holds.bind ((operate_keeps stable).weaken (fun _ start => start)
    (fun _ _ start => start) weak) fun _ => ?_
  refine holds_via (fun v w => (Safe env base response w ∧ w.staged = staged :: rest) ∧ w = v) ?_
    fun v => ?_
  · exact holds_get fun w start => ⟨start, rfl⟩
  refine holds_via (fun _ w => ((Safe env base response w ∧ w.staged = staged :: rest) ∧ w = v) ∧
    w.tree.get staged.2 = none) ?_ fun _ => ?_
  · refine holds_require (fun empty w start => ⟨start, ?_⟩) fun _ w start => start.1.1
    rw [start.2]
    exact empty
  cases found : v.tree.get staged.1 with
  | none => exact holds_fail fun w start => start.1.1.1
  | some entry =>
      refine holds_modify ?_
      rintro w ⟨⟨⟨start, waiting⟩, -⟩, empty⟩
      have owns : w.owned = staged.1 :: (rest.map Prod.fst ++ w.published) := by
        unfold World.owned
        rw [waiting]
        rfl
      refine ⟨⟨start.answer, fun p quiet own => ?_, fun p quiet other => ?_⟩,
        by simp [waiting]⟩
      · by_cases here : p = staged.2
        · subst here
          exact start.of_free quiet empty
        · refine start.free p quiet ?_
          rw [owns]
          simp only [World.owned, waiting, List.tail_cons, List.mem_append, List.mem_singleton] at own
          simp only [List.mem_cons, List.mem_append]
          tauto
      · simp only [World.owned, waiting, List.tail_cons, List.mem_append, List.mem_singleton,
          not_or] at other
        rw [OrderedMap.get_insert, if_neg other.2.2, OrderedMap.get_erase]
        split
        · rename_i moved
          refine (start.free p quiet ?_).symm
          rw [owns, moved]
          exact List.mem_cons_self
        · rename_i apart
          refine start.same p quiet ?_
          rw [owns]
          simp only [List.mem_cons, List.mem_append, not_or]
          exact ⟨apart, other.1, other.2.1⟩

/-- The draft is gone, and every other path is safe. -/
structure Removed (env : Nat → Moment) (base : Tree) (response : Json) (draftPath : String)
    (w : World) : Prop where
  draft : w.tree.get draftPath = none
  answer : w.response = response
  free : ∀ p, Quiet env p → p ∈ w.owned → base.get p = none
  same : ∀ p, Quiet env p → p ≠ draftPath → p ∉ w.owned → w.tree.get p = base.get p

theorem removeDraft_safe (path : String) :
    Holds (Safe env base response) (removeDraft env path) (fun _ => Removed env base response path)
      (fun _ => Safe env base response) := by
  refine (operate_keeps Safe.stable).bind fun _ => ?_
  refine Holds.bind keeps_get fun v => Holds.bind (keeps_require fun _ start => start) fun _ => ?_
  refine holds_modify fun w start => ⟨?_, start.answer, start.free, fun p quiet apart other => ?_⟩
  · rw [OrderedMap.get_erase, if_pos rfl]
  · rw [OrderedMap.get_erase, if_neg apart]
    exact start.same p quiet other

/-- Every path is safe until the draft is removed. -/
theorem placeDocuments_safe (prepared : PreparedOutput) :
    Holds (Safe env base response) (placeDocuments env deadline prepared)
      (fun _ => Removed env base response prepared.draftPath) (fun _ => Safe env base response) := by
  refine (Holds.forEach _ stageDocument_safe _).bind fun _ => ?_
  refine holds_via (fun v w => Safe env base response w ∧ w.staged = v.staged) ?_ fun v => ?_
  · exact holds_get fun w start => ⟨start, rfl⟩
  refine holds_via (fun _ => Safe env base response) ?_ fun _ => ?_
  · exact (holds_forEach_rest (fun rest w => Safe env base response w ∧ w.staged = rest)
      persist_safe v.staged).weaken (fun _ start => start) (fun _ _ start => start.1)
        fun _ _ start => start
  exact (checkDeadline_keeps Safe.stable).bind fun _ => removeDraft_safe _

theorem get_foldl_erase (keys : List String) (tree : Tree) (q : String) :
    (keys.foldl OrderedMap.erase tree).get q = if q ∈ keys then none else tree.get q := by
  induction keys generalizing tree with
  | nil => simp
  | cons key rest ih =>
      rw [List.foldl_cons, ih, OrderedMap.get_erase]
      by_cases later : q ∈ rest
      · simp [later]
      · by_cases here : q = key
        · simp [here]
        · simp [here, later]

/-- The response is the worker's, and what others leave alone is as it was. -/
structure Unchanged (env : Nat → Moment) (base : Tree) (response : Json) (w : World) : Prop where
  answer : w.response = response
  tree : ∀ p, Quiet env p → w.tree.get p = base.get p

/-- Dropping the files of the call restores the directory. -/
theorem Safe.dropped {w : World} (safe : Safe env base response w) :
    Unchanged env base response (Output.dropped w) := by
  refine ⟨safe.answer, fun p quiet => ?_⟩
  unfold Output.dropped
  rw [get_foldl_erase]
  split
  · rename_i own
    exact (safe.free p quiet own).symm
  · rename_i other
    exact safe.same p quiet other

/-- The deadline has passed at the check after the draft's removal. -/
def Late (env : Nat → Moment) (deadline : Option Nat) (prepared : PreparedOutput) (w : World) : Prop :=
  ∃ w', placeDocuments env deadline prepared w = (w', .ok ()) ∧ Expired deadline (env w'.time).now

theorem checkDeadline_late {w : World} (late : Expired deadline (env w.time).now) :
    checkDeadline env deadline w = (w.passed env, .error .timedOut) := by
  unfold checkDeadline
  rw [bind_ok (show moment env w = (w.passed env, .ok (env w.time)) from rfl)]
  unfold require
  rw [if_neg (not_not_intro late)]
  rfl

theorem checkDeadline_inTime {w : World} (early : ¬Expired deadline (env w.time).now) :
    checkDeadline env deadline w = (w.passed env, .ok ()) := by
  unfold checkDeadline
  rw [bind_ok (show moment env w = (w.passed env, .ok (env w.time)) from rfl)]
  unfold require
  rw [if_pos early]
  rfl

/-- A publication that finds the deadline passed drops its files, and the draft is gone. -/
theorem publish_late {prepared : PreparedOutput} {w w' : World}
    (placed : placeDocuments env deadline prepared w = (w', .ok ()))
    (late : Expired deadline (env w'.time).now) :
    publish env deadline prepared w = (dropped (w'.passed env), .error .timedOut) := by
  have body : publishBody env deadline prepared w = (w'.passed env, .error .timedOut) := by
    unfold publishBody
    rw [bind_ok placed, bind_error (checkDeadline_late late)]
  unfold publish
  rw [body]

theorem publish_inTime {prepared : PreparedOutput} {w w' : World}
    (placed : placeDocuments env deadline prepared w = (w', .ok ()))
    (early : ¬Expired deadline (env w'.time).now) :
    publish env deadline prepared w = (dropped { w'.passed env with
      response := answered prepared.expected prepared.manifest w'.response, published := [] },
      .ok ()) := by
  have body : publishBody env deadline prepared w = ({ w'.passed env with
      response := answered prepared.expected prepared.manifest w'.response, published := [] },
      .ok ()) := by
    unfold publishBody
    rw [bind_ok placed, bind_ok (checkDeadline_inTime early)]
    rfl
  unfold publish
  rw [body]

/-- Where others change the draft's place, dropping the files of the call restores the rest. -/
theorem Removed.dropped {draftPath : String} {w : World}
    (removed : Removed env base response draftPath w) (disturbed : ¬Quiet env draftPath) :
    Unchanged env base response (Output.dropped (w.passed env)) := by
  refine ⟨removed.answer, fun p quiet => ?_⟩
  have apart : p ≠ draftPath := by
    rintro rfl
    exact disturbed quiet
  unfold Output.dropped
  rw [get_foldl_erase]
  split
  · rename_i own
    exact (removed.free p quiet own).symm
  · rename_i other
    exact (quiet w.time w.tree).trans (removed.same p quiet apart other)

/-- A publication that fails restores the directory, unless it was late. -/
theorem publish_fails {prepared : PreparedOutput} {w : World} (start : Safe env base response w)
    (inTime : Quiet env prepared.draftPath → ¬Late env deadline prepared w) {w' : World}
    {e : OutputError} (failed : publish env deadline prepared w = (w', .error e)) :
    Unchanged env base response w' := by
  have safe := @placeDocuments_safe env deadline base response prepared w start
  cases placed : placeDocuments env deadline prepared w with
  | mk w₁ outcome =>
      rw [placed] at safe
      cases outcome with
      | ok done =>
          by_cases late : Expired deadline (env w₁.time).now
          · rw [publish_late placed late] at failed
            cases failed
            exact Removed.dropped safe fun quiet => inTime quiet ⟨w₁, placed, late⟩
          · rw [publish_inTime placed late] at failed
            cases failed
      | error e' =>
          have body : publishBody env deadline prepared w = (w₁, .error e') := by
            unfold publishBody
            rw [bind_error placed]
          unfold publish at failed
          rw [body] at failed
          cases failed
          exact Safe.dropped safe

end Failure

/-! ## A call that nobody disturbs -/

/-- Other parties leave every path alone. -/
def Undisturbed (env : Nat → Moment) : Prop := ∀ p, Quiet env p

/-- The call has begun, and the directory is `base`. -/
structure Fresh (base : Tree) (response : Json) (w : World) : Prop where
  tree : w.tree = base
  answer : w.response = response
  staged : w.staged = []
  published : w.published = []

/-- The directory is `base` under the files `own`, whose places were free. -/
structure Overlay (base : Tree) (response : Json) (own : List (String × List UInt8)) (w : World) :
    Prop where
  answer : w.response = response
  holds : ∀ e ∈ own, w.tree.get e.1 = some (.file e.2)
  rest : ∀ p, p ∉ own.map Prod.fst → w.tree.get p = base.get p
  free : ∀ e ∈ own, base.get e.1 = none
  distinct : (own.map Prod.fst).Nodup

/-- A temporary file: its name and the document it is for. -/
abbrev Staging : Type := String × String × List UInt8

/-- What a temporary file holds when it is written. -/
def Staging.holds (s : Staging) : String × List UInt8 := (s.1, s.2.2)

/-- The pair the call keeps of a temporary file. -/
def Staging.pair (s : Staging) : String × String := (s.1, s.2.1)

section Success

variable {env : Nat → Moment} {deadline : Option Nat} {base : Tree} {response : Json}
  {own : List (String × List UInt8)}

theorem Overlay.stable (calm : Undisturbed env) : Stable env (Overlay base response own) :=
  fun w laid => ⟨laid.answer, fun e member => (calm e.1 w.time w.tree).trans (laid.holds e member),
    fun p other => (calm p w.time w.tree).trans (laid.rest p other), laid.free, laid.distinct⟩

theorem Fresh.stable (calm : Undisturbed env) : Stable env (Fresh base response) :=
  fun w fresh => ⟨(OrderedMap.ext_get fun p => calm p w.time w.tree).trans fresh.tree, fresh.answer,
    fresh.staged, fresh.published⟩

/-- A free place is no place of the call, and was free before. -/
theorem Overlay.of_free {w : World} (laid : Overlay base response own w) {p : String}
    (empty : w.tree.get p = none) : p ∉ own.map Prod.fst ∧ base.get p = none := by
  have other : p ∉ own.map Prod.fst := by
    intro listed
    obtain ⟨e, member, rfl⟩ := List.mem_map.mp listed
    rw [laid.holds e member] at empty
    cases empty
  exact ⟨other, (laid.rest p other).symm.trans empty⟩

/-- One more file in a free place. -/
theorem Overlay.insert {w w' : World} (laid : Overlay base response own w) {p : String}
    {content : List UInt8} (empty : w.tree.get p = none)
    (tree : w'.tree = w.tree.insert p (.file content)) (answer : w'.response = w.response) :
    Overlay base response (own ++ [(p, content)]) w' := by
  obtain ⟨other, before⟩ := laid.of_free empty
  refine ⟨answer.trans laid.answer, ?_, ?_, ?_, ?_⟩
  · refine List.forall_mem_append.mpr ⟨fun e member => ?_, List.forall_mem_singleton.mpr ?_⟩
    swap
    · rw [tree, OrderedMap.get_insert, if_pos rfl]
    have apart : e.1 ≠ p := by
      rintro rfl
      exact other (List.mem_map_of_mem member)
    rw [tree, OrderedMap.get_insert, if_neg apart]
    exact laid.holds e member
  · intro q absent
    simp only [List.map_append, List.map_cons, List.map_nil, List.mem_append, List.mem_singleton,
      not_or] at absent
    rw [tree, OrderedMap.get_insert, if_neg absent.2]
    exact laid.rest q absent.1
  · exact List.forall_mem_append.mpr ⟨laid.free, List.forall_mem_singleton.mpr before⟩
  · rw [List.map_append, List.map_cons, List.map_nil, List.nodup_append]
    refine ⟨laid.distinct, List.nodup_singleton _, fun a member b single => ?_⟩
    rw [List.mem_singleton.mp single]
    rintro rfl
    exact other member

/-- A file of the call is replaced by another in a place that is its own or free. -/
theorem Overlay.replace {w w' : World} {before after : List (String × List UInt8)}
    {old new : String × List UInt8} (laid : Overlay base response (before ++ old :: after) w)
    (place : new.1 = old.1 ∨ w.tree.get new.1 = none)
    (tree : w'.tree = (w.tree.erase old.1).insert new.1 (.file new.2))
    (answer : w'.response = w.response) :
    Overlay base response (before ++ new :: after) w' := by
  have distinct := laid.distinct
  rw [List.map_append, List.map_cons, List.nodup_middle, List.nodup_cons, ← List.map_append]
    at distinct
  -- the new place is not one of the other files, and was free
  have fresh : new.1 ∉ (before ++ after).map Prod.fst ∧ base.get new.1 = none := by
    rcases place with same | empty
    · rw [same]
      exact ⟨distinct.1, laid.free old (by simp)⟩
    · obtain ⟨other, free⟩ := laid.of_free empty
      refine ⟨fun listed => other ?_, free⟩
      simp only [List.map_append, List.map_cons, List.mem_append, List.mem_cons] at listed ⊢
      tauto
  have lookup : ∀ q, w'.tree.get q = if q = new.1 then some (.file new.2)
      else if q = old.1 then none else w.tree.get q := by
    intro q
    rw [tree, OrderedMap.get_insert, OrderedMap.get_erase]
  have others : ∀ e ∈ before ++ after, e.1 ≠ new.1 ∧ e.1 ≠ old.1 := by
    intro e member
    have key := List.mem_map_of_mem (f := Prod.fst) member
    exact ⟨fun same => fresh.1 (same ▸ key), fun same => distinct.1 (same ▸ key)⟩
  have old_rows : ∀ e ∈ before ++ after, e ∈ before ++ old :: after := by
    intro e member
    simp only [List.mem_append, List.mem_cons] at member ⊢
    tauto
  have split : ∀ e ∈ before ++ new :: after, e = new ∨ e ∈ before ++ after := by
    intro e member
    simp only [List.mem_append, List.mem_cons] at member ⊢
    tauto
  refine ⟨answer.trans laid.answer, fun e member => ?_, fun q absent => ?_, fun e member => ?_, ?_⟩
  · rcases split e member with rfl | other
    · rw [lookup, if_pos rfl]
    · rw [lookup, if_neg (others e other).1, if_neg (others e other).2]
      exact laid.holds e (old_rows e other)
  · simp only [List.map_append, List.map_cons, List.mem_append, List.mem_cons, not_or] at absent
    rw [lookup, if_neg absent.2.1]
    split
    · rename_i moved
      rw [moved]
      exact (laid.free old (by simp)).symm
    · rename_i apart
      refine laid.rest q ?_
      simp only [List.map_append, List.map_cons, List.mem_append, List.mem_cons, not_or]
      exact ⟨absent.1, apart, absent.2.2⟩
  · rcases split e member with rfl | other
    · exact fresh.2
    · exact laid.free e (old_rows e other)
  · rw [List.map_append, List.map_cons, List.nodup_middle, List.nodup_cons, ← List.map_append]
    exact ⟨fresh.1, distinct.2⟩

/-- The call has staged some documents and published none. -/
structure Staged (base : Tree) (response : Json) (stagings : List Staging) (w : World) : Prop where
  laid : Overlay base response (stagings.map Staging.holds) w
  staged : w.staged = stagings.map Staging.pair
  published : w.published = []

theorem Staged.stable (calm : Undisturbed env) {stagings : List Staging} :
    Stable env (Staged base response stagings) :=
  fun w start => ⟨Overlay.stable calm w start.laid, start.staged, start.published⟩

theorem Fresh.nothingStaged {w : World} (fresh : Fresh base response w) : Staged base response [] w where
  laid := ⟨fresh.answer, fun _ member => absurd member List.not_mem_nil,
    fun p _ => by rw [fresh.tree], fun _ member => absurd member List.not_mem_nil, .nil⟩
  staged := fresh.staged
  published := fresh.published

/-- A contract whose failures are not looked at. -/
theorem succeeds {α : Type} {pre : World → Prop} {step : Call α} {post : α → World → Prop}
    {fails : OutputError → World → Prop} (holds : Holds pre step post fails) :
    Holds pre step post fun _ _ => True :=
  holds.weaken (fun _ start => start) (fun _ _ done => done) fun _ _ _ => trivial

theorem createTemp_stages (calm : Undisturbed env) (stagings : List Staging) (name : String) :
    Holds (Staged base response stagings) (createTemp env name)
      (fun temp => Staged base response (stagings ++ [(temp, name, [])])) fun _ _ => True := by
  refine (succeeds (operate_keeps (Staged.stable calm))).bind fun m => ?_
  refine holds_via (fun v w => Staged base response stagings w ∧ w = v) ?_ fun v => ?_
  · exact holds_get fun w start => ⟨start, rfl⟩
  refine holds_via (fun _ w => Staged base response stagings w ∧ w.tree.get m.name = none) ?_
    fun _ => ?_
  · refine holds_require (fun empty w start => ?_) fun _ _ _ => trivial
    obtain ⟨start, rfl⟩ := start
    exact ⟨start, empty⟩
  refine holds_via (fun _ => Staged base response (stagings ++ [(m.name, name, [])])) ?_ fun _ =>
    holds_pure fun w start => start
  refine holds_modify ?_
  rintro w ⟨start, empty⟩
  refine ⟨?_, ?_, start.published⟩
  · rw [List.map_append]
    exact start.laid.insert empty rfl rfl
  · simp only [start.staged, List.map_append]
    rfl

theorem writeChunk_stages (calm : Undisturbed env) (stagings : List Staging) (temp name : String)
    (content chunk : List UInt8) :
    Holds (Staged base response (stagings ++ [(temp, name, content)]))
      (writeChunk env deadline temp chunk)
      (fun _ => Staged base response (stagings ++ [(temp, name, content ++ chunk)]))
      fun _ _ => True := by
  refine (succeeds (checkDeadline_keeps (Staged.stable calm))).bind fun _ => ?_
  refine (succeeds (operate_keeps (Staged.stable calm))).bind fun _ => holds_modify fun w start => ?_
  have laid := start.laid
  rw [List.map_append] at laid
  have held : w.tree.get temp = some (.file content) := laid.holds (temp, content) (by
    simp [Staging.holds])
  refine ⟨?_, ?_, start.published⟩
  · rw [List.map_append]
    refine @Overlay.replace base response w _ (stagings.map Staging.holds) [] (temp, content)
      (temp, content ++ chunk) laid (.inl rfl) ?_ rfl
    refine OrderedMap.ext_get fun q => ?_
    simp only [appendTo, held, OrderedMap.get_insert, OrderedMap.get_erase]
    split <;> rfl
  · rw [show ({ w with tree := appendTo temp chunk w.tree } : World).staged = w.staged from rfl,
      start.staged, List.map_append, List.map_append]
    rfl

theorem stageDocument_stages (calm : Undisturbed env) (stagings : List Staging)
    (document : String × List UInt8) :
    Holds (Staged base response stagings) (stageDocument env deadline document)
      (fun _ w => ∃ temp, Staged base response (stagings ++ [(temp, document)]) w)
      fun _ _ => True := by
  refine (succeeds (checkDeadline_keeps (Staged.stable calm))).bind fun _ => ?_
  refine (createTemp_stages calm stagings document.1).bind fun temp => ?_
  let inv : List (List UInt8) → World → Prop := fun rest w => ∃ content,
    Staged base response (stagings ++ [(temp, document.1, content)]) w ∧
      content ++ rest.flatten = document.2
  have step : ∀ chunk rest, Holds (inv (chunk :: rest)) (writeChunk env deadline temp chunk)
      (fun _ => inv rest) fun _ _ => True := by
    intro chunk rest
    refine holds_exists fun content => ?_
    by_cases split : content ++ (chunk :: rest).flatten = document.2
    · refine (writeChunk_stages calm stagings temp document.1 content chunk).weaken
        (fun _ start => start.1) (fun _ w written => ?_) fun _ _ _ => trivial
      exact ⟨content ++ chunk, written, by rw [← split, List.flatten_cons, List.append_assoc]⟩
    · exact fun w start => absurd start.2 split
  refine (holds_forEach_rest inv step (chunks bufferSize document.2)).weaken (fun w start => ?_)
    (fun _ w done => ?_) fun _ _ _ => trivial
  · exact ⟨[], start, flatten_chunks (by decide) document.2⟩
  · obtain ⟨content, written, split⟩ := done
    rw [List.flatten_nil, List.append_nil] at split
    subst split
    exact ⟨temp, written⟩

theorem stageAll_stages (calm : Undisturbed env) (documents : List (String × List UInt8)) :
    Holds (Fresh base response) (forEach (stageDocument env deadline) documents)
      (fun _ w => ∃ stagings : List Staging, Staged base response stagings w ∧
        stagings.map Prod.snd = documents) fun _ _ => True := by
  let inv : List (String × List UInt8) → World → Prop := fun rest w => ∃ stagings : List Staging,
    Staged base response stagings w ∧ stagings.map Prod.snd ++ rest = documents
  have step : ∀ document rest, Holds (inv (document :: rest)) (stageDocument env deadline document)
      (fun _ => inv rest) fun _ _ => True := by
    intro document rest
    refine holds_exists fun stagings => ?_
    by_cases split : stagings.map Prod.snd ++ document :: rest = documents
    · refine (stageDocument_stages calm stagings document).weaken (fun _ start => start.1)
        (fun _ w staged => ?_) fun _ _ _ => trivial
      obtain ⟨temp, staged⟩ := staged
      exact ⟨_, staged, by rw [← split, List.map_append, List.append_assoc]; rfl⟩
    · exact fun w start => absurd start.2 split
  refine (holds_forEach_rest inv step documents).weaken (fun w start => ?_) (fun _ w done => ?_)
    fun _ _ _ => trivial
  · exact ⟨[], start.nothingStaged, rfl⟩
  · obtain ⟨stagings, staged, split⟩ := done
    exact ⟨stagings, staged, by rw [← split, List.append_nil]⟩

/-- Some documents are published, and the others wait in temporary files. -/
structure Publishing (base : Tree) (response : Json) (done : List (String × List UInt8))
    (waiting : List Staging) (w : World) : Prop where
  laid : Overlay base response (done ++ waiting.map Staging.holds) w
  staged : w.staged = waiting.map Staging.pair

theorem Publishing.stable (calm : Undisturbed env) {done : List (String × List UInt8)}
    {waiting : List Staging} : Stable env (Publishing base response done waiting) :=
  fun w start => ⟨Overlay.stable calm w start.laid, start.staged⟩

theorem persist_publishes (calm : Undisturbed env) (done : List (String × List UInt8))
    (staging : Staging) (waiting : List Staging) :
    Holds (Publishing base response done (staging :: waiting)) (persist env deadline staging.pair)
      (fun _ => Publishing base response (done ++ [staging.2]) waiting) fun _ _ => True := by
  refine (succeeds (checkDeadline_keeps (Publishing.stable calm))).bind fun _ => ?_
  refine (succeeds (operate_keeps (Publishing.stable calm))).bind fun _ => ?_
  refine holds_via (fun v w => Publishing base response done (staging :: waiting) w ∧ w = v) ?_
    fun v => ?_
  · exact holds_get fun w start => ⟨start, rfl⟩
  refine holds_via (fun _ w => (Publishing base response done (staging :: waiting) w ∧ w = v) ∧
    w.tree.get staging.2.1 = none) ?_ fun _ => ?_
  · refine holds_require (fun empty w start => ⟨start, ?_⟩) fun _ _ _ => trivial
    rw [start.2]
    exact empty
  cases found : v.tree.get staging.pair.1 with
  | none => exact holds_fail fun _ _ => trivial
  | some entry =>
      refine holds_modify ?_
      rintro w ⟨⟨start, rfl⟩, empty⟩
      have held : w.tree.get staging.1 = some (.file staging.2.2) :=
        start.laid.holds staging.holds (by simp)
      have same : entry = .file staging.2.2 := Option.some.inj (found.symm.trans held)
      subst same
      refine ⟨?_, by simp [start.staged]⟩
      rw [List.append_assoc]
      exact @Overlay.replace base response w _ done (waiting.map Staging.holds) staging.holds
        staging.2 start.laid (.inr empty) rfl rfl

theorem persistAll_publishes (calm : Undisturbed env) (stagings : List Staging) :
    Holds (Staged base response stagings) (forEach (persist env deadline) (stagings.map Staging.pair))
      (fun _ => Publishing base response (stagings.map Prod.snd) []) fun _ _ => True := by
  let inv : List (String × String) → World → Prop := fun rest w =>
    ∃ waiting : List Staging, ∃ done, Publishing base response done waiting w ∧
      rest = waiting.map Staging.pair ∧ done ++ waiting.map Prod.snd = stagings.map Prod.snd
  have step : ∀ pair rest, Holds (inv (pair :: rest)) (persist env deadline pair)
      (fun _ => inv rest) fun _ _ => True := by
    intro pair rest
    refine holds_exists fun waiting => holds_exists fun done => ?_
    cases waiting with
    | nil => exact fun w start => nomatch start.2.1
    | cons staging more =>
        by_cases facts : pair :: rest = (staging :: more).map Staging.pair ∧
            done ++ (staging :: more).map Prod.snd = stagings.map Prod.snd
        · obtain ⟨shape, split⟩ := facts
          obtain ⟨rfl, rfl⟩ := List.cons.inj shape
          refine (persist_publishes calm done staging more).weaken (fun _ start => start.1)
            (fun _ w published => ?_) fun _ _ _ => trivial
          exact ⟨more, _, published, rfl, by rw [← split, List.append_assoc]; rfl⟩
        · exact fun w start => absurd start.2 facts
  refine (holds_forEach_rest inv step (stagings.map Staging.pair)).weaken (fun w start => ?_)
    (fun _ w finished => ?_) fun _ _ _ => trivial
  · exact ⟨stagings, [], ⟨start.laid, start.staged⟩, rfl, rfl⟩
  · obtain ⟨waiting, done, published, none, split⟩ := finished
    rw [List.map_eq_nil_iff.mp none.symm] at published split
    rw [List.map_nil, List.append_nil] at split
    rw [← split]
    exact published

/-- The documents are in place, and the draft is gone. -/
structure Placed (base : Tree) (prepared : PreparedOutput) (w : World) : Prop where
  draft : w.tree.get prepared.draftPath = none
  written : ∀ d ∈ prepared.documents, base.get d.1 = none ∧
    (d.1 ≠ prepared.draftPath → w.tree.get d.1 = some (.file d.2))
  rest : ∀ p, p ≠ prepared.draftPath → p ∉ prepared.documents.map Prod.fst →
    w.tree.get p = base.get p
  staged : w.staged = []

theorem Placed.congr {prepared : PreparedOutput} {w w' : World} (placed : Placed base prepared w)
    (tree : ∀ p, w'.tree.get p = w.tree.get p) (staged : w'.staged = []) :
    Placed base prepared w' where
  draft := (tree _).trans placed.draft
  written := fun d member => ⟨(placed.written d member).1, fun other =>
    (tree _).trans ((placed.written d member).2 other)⟩
  rest := fun p other absent => (tree p).trans (placed.rest p other absent)
  staged := staged

theorem placeDocuments_places (calm : Undisturbed env) (prepared : PreparedOutput) :
    Holds (Fresh base response) (placeDocuments env deadline prepared)
      (fun _ w => Placed base prepared w ∧ w.response = response) fun _ _ => True := by
  refine (stageAll_stages calm prepared.documents).bind fun _ => holds_exists fun stagings => ?_
  refine holds_via (fun v w => (Staged base response stagings w ∧
    stagings.map Prod.snd = prepared.documents) ∧ v = w) ?_ fun v => ?_
  · exact holds_get fun w start => ⟨start, rfl⟩
  refine holds_via (fun _ => Publishing base response prepared.documents []) ?_ fun _ => ?_
  · rintro w ⟨⟨start, named⟩, rfl⟩
    rw [start.staged, ← named]
    exact persistAll_publishes calm stagings v start
  refine (succeeds (checkDeadline_keeps (Publishing.stable calm))).bind fun _ => ?_
  refine (succeeds (operate_keeps (Publishing.stable calm))).bind fun _ => ?_
  refine Holds.bind keeps_get fun _ => Holds.bind (keeps_require fun _ _ => trivial) fun _ =>
    holds_modify fun w start => ?_
  have laid := start.laid
  rw [List.map_nil, List.append_nil] at laid
  refine ⟨⟨?_, fun d member => ?_, fun p other absent => ?_, start.staged⟩, laid.answer⟩
  · rw [OrderedMap.get_erase, if_pos rfl]
  · refine ⟨laid.free d member, fun other => ?_⟩
    rw [OrderedMap.get_erase, if_neg other]
    exact laid.holds d member
  · rw [OrderedMap.get_erase, if_neg other]
    exact laid.rest p absent

/-- The documents are in place, the draft is gone, and the response names the manifest. -/
structure Published (base : Tree) (response : Json) (prepared : PreparedOutput) (w : World) : Prop where
  placed : Placed base prepared w
  answer : w.response = answered prepared.expected prepared.manifest response

theorem publish_publishes (calm : Undisturbed env) {prepared : PreparedOutput} {w w' : World}
    (start : Fresh base response w)
    (published : publish env deadline prepared w = (w', .ok ())) :
    Published base response prepared w' := by
  have places := @placeDocuments_places env deadline base response calm prepared w start
  cases placed : placeDocuments env deadline prepared w with
  | mk w₁ outcome =>
      rw [placed] at places
      cases outcome with
      | error e =>
          have body : publishBody env deadline prepared w = (w₁, .error e) := by
            unfold publishBody
            rw [bind_error placed]
          unfold publish at published
          rw [body] at published
          cases published
      | ok done =>
          obtain ⟨there, answer⟩ : Placed base prepared w₁ ∧ w₁.response = response := places
          by_cases late : Expired deadline (env w₁.time).now
          · rw [publish_late placed late] at published
            cases published
          · rw [publish_inTime placed late] at published
            cases published
            refine ⟨there.congr (fun p => ?_) rfl, by rw [← answer]; rfl⟩
            simp only [dropped, World.passed, there.staged, List.map_nil, List.append_nil,
              List.foldl_nil]
            exact calm p w₁.time w₁.tree

end Success

/-! ## The manifest -/

theorem sortRecords_perm (records : List FileRecord) : (sortRecords records).Perm records :=
  List.perm_insertionSort _ _

/-- Records of different paths are listed in the order of the paths. -/
theorem sortRecords_sorted {records : List FileRecord}
    (distinct : (records.map FileRecord.path).Nodup) :
    ((sortRecords records).map FileRecord.path).Pairwise (· < ·) := by
  have sorted : (sortRecords records).map FileRecord.path =
      (records.map FileRecord.path).insertionSort (· ≤ ·) :=
    List.map_insertionSort _ _ _ _ fun _ _ _ _ => Iff.rfl
  have nodup : ((records.map FileRecord.path).insertionSort (· ≤ ·)).Nodup :=
    (List.perm_insertionSort _ _).nodup_iff.mpr distinct
  rw [sorted]
  exact (List.pairwise_insertionSort (· ≤ ·) _).imp₂ (fun _ _ le ne => lt_of_le_of_ne le ne) nodup

/-- The document of an output whose files are listed so. -/
def manifestJson (kind : OutputKind) (data : Option Json) (listing : List FileRecord) : Json :=
  match kind with
  | .dataset => .object [("schema_version", .nat 1), ("complete", .bool true),
      ("files", .arr (listing.map FileRecord.json))]
  | .result => .object [("schema_version", .nat 1), ("data", data.getD .null),
      ("files", .arr (listing.map FileRecord.json))]
  | .metrics => .object [("schema_version", .nat 1), ("data", data.getD .null)]

/-- What a finished output consists of. -/
structure FinishedOutput where
  kind : OutputKind
  manifest : String
  draftPath : String
  draft : Draft
  listing : List FileRecord
  documents : List (String × List UInt8)

/-- The names of its documents: a dataset's own data stand beside the manifest. -/
def FinishedOutput.names (out : FinishedOutput) : List String :=
  if out.kind = .dataset ∧ out.draft.data.isSome = true then ["data.json", out.manifest]
  else [out.manifest]

/-- The directory holds the declared files and the documents, and the response names the
manifest. -/
structure Finalized (lib : JsonLibrary) (sha256 : List UInt8 → Digest) (schema : Json → Bool)
    (request : Json) (before after : Tree) (response response' : Json) (out : FinishedOutput) :
    Prop where
  target : target request = .ok (out.kind, out.manifest)
  reference : (response.get "draft").asStr? = some out.draftPath
  spelled : ∃ content, before.get out.draftPath = some (.file content) ∧
    Spells lib schema content out.draft
  version : out.draft.schemaVersion = 1 ∧ out.draft.kind = out.kind.name
  declared : ∀ p, (∃ c, before.get p = some (.file c)) ↔
    p = out.draftPath ∨ p ∈ out.draft.files.map Artifact.path
  exact_ : ∀ p, (∃ c, after.get p = some (.file c)) ↔
    p ∈ out.draft.files.map Artifact.path ∨ p ∈ out.documents.map Prod.fst
  gone : after.get out.draftPath = none
  kept : ∀ p, p ≠ out.draftPath → p ∉ out.documents.map Prod.fst → after.get p = before.get p
  written : ∀ d ∈ out.documents, before.get d.1 = none ∧ after.get d.1 = some (.file d.2)
  names : out.documents.map Prod.fst = out.names
  document : ∃ bytes, after.get out.manifest = some (.file bytes) ∧
    lib.bytes (manifestJson out.kind out.draft.data out.listing) = .ok bytes
  ordered : (out.listing.map FileRecord.path).Pairwise (· < ·)
  lists : ∀ record, record ∈ out.listing ↔
    (∃ file ∈ out.draft.files, ∃ c, after.get file.path = some (.file c) ∧
      record = fileRecord sha256 file c) ∨
    (out.kind = .dataset ∧ ∃ data c, out.draft.data = some data ∧ lib.bytes data = .ok c ∧
      after.get "data.json" = some (.file c) ∧ record = dataRecord sha256 c)
  answer : response' = answered out.kind out.manifest response

section Result

variable {lib : JsonLibrary} {sha256 : List UInt8 → Digest} {schema : Json → Bool}

/-- The documents of a draft: the manifest lists the records, and those of a dataset's data. -/
structure Lists (lib : JsonLibrary) (sha256 : List UInt8 → Digest) (kind : OutputKind)
    (manifest : String) (declared : List String) (data : Option Json)
    (documents : List (String × List UInt8)) (records all : List FileRecord) : Prop where
  names : documents.map Prod.fst =
    if kind = .dataset ∧ data.isSome = true then ["data.json", manifest] else [manifest]
  document : ∃ bytes, (manifest, bytes) ∈ documents ∧
    lib.bytes (manifestJson kind data (sortRecords all)) = .ok bytes
  records : (∃ d c, kind = .dataset ∧ data = some d ∧ lib.bytes d = .ok c ∧
      ("data.json", c) ∈ documents ∧ "data.json" ∉ declared ∧ all = records ++ [dataRecord sha256 c]) ∨
    (¬(kind = .dataset ∧ data.isSome = true) ∧ all = records)

theorem DocumentsOf.lists {kind : OutputKind} {manifest : String} {declared : List String}
    {data : Option Json} {records : List FileRecord} {documents : List (String × List UInt8)}
    (written : DocumentsOf lib sha256 kind manifest declared data records documents) :
    ∃ all, Lists lib sha256 kind manifest declared data documents records all := by
  cases data with
  | none =>
      cases kind with
      | dataset =>
          obtain ⟨document, bytes, rfl⟩ := written
          exact ⟨records, by simp, ⟨document, by simp, bytes⟩, .inr ⟨by simp, rfl⟩⟩
      | result => cases written
      | metrics => cases written
  | some d =>
      cases kind with
      | dataset =>
          obtain ⟨absent, bytes, document, content, written, rfl⟩ := written
          exact ⟨records ++ [dataRecord sha256 bytes], by simp, ⟨document, by simp, written⟩,
            .inl ⟨d, bytes, rfl, rfl, content, by simp, absent, rfl⟩⟩
      | result =>
          obtain ⟨document, bytes, rfl⟩ := written
          exact ⟨records, by simp, ⟨document, by simp, bytes⟩, .inr ⟨by simp, rfl⟩⟩
      | metrics =>
          obtain ⟨document, bytes, rfl⟩ := written
          exact ⟨records, by simp, ⟨document, by simp, bytes⟩, .inr ⟨by simp, rfl⟩⟩

theorem mem_regularFiles {tree : Tree} (regular : ∀ e ∈ tree.entries, e.2 ≠ .special) (p : String) :
    p ∈ regularFiles tree ↔ ∃ c, tree.get p = some (.file c) := by
  unfold regularFiles
  constructor
  · intro listed
    obtain ⟨e, member, rfl⟩ := List.mem_map.mp listed
    obtain ⟨inside, file⟩ := List.mem_filter.mp member
    have found := OrderedMap.get_eq_some.mpr inside
    cases entry : e.2 with
    | file c => exact ⟨c, entry ▸ found⟩
    | directory => simp [entry] at file
    | special => exact absurd entry (regular e inside)
  · rintro ⟨c, found⟩
    refine List.mem_map.mpr ⟨(p, .file c), List.mem_filter.mpr ⟨?_, by simp⟩, rfl⟩
    exact OrderedMap.get_eq_some.mp found

/-- What was seen of the directory is what it held. -/
theorem seen_fresh {base : Tree} {response : Json} {p : String} {entry : Entry}
    (seen : Seen (Fresh base response) fun w => w.tree.get p = some entry) :
    base.get p = some entry := by
  obtain ⟨w, fresh, found⟩ := seen
  rw [← fresh.tree]
  exact found

theorem recorded_path {inv : World → Prop} {files : List Artifact} {records : List FileRecord}
    (recorded : List.Forall₂ (Recorded sha256 inv) files records) :
    records.map FileRecord.path = files.map Artifact.path := by
  induction recorded with
  | nil => rfl
  | cons head _ ih =>
      obtain ⟨c, -, rfl⟩ := head
      rw [List.map_cons, List.map_cons, ih]
      rfl

theorem recorded_mem {base : Tree} {response : Json} {files : List Artifact}
    {records : List FileRecord}
    (recorded : List.Forall₂ (Recorded sha256 (Fresh base response)) files records)
    (record : FileRecord) : record ∈ records ↔ ∃ file ∈ files, ∃ c,
      base.get file.path = some (.file c) ∧ record = fileRecord sha256 file c := by
  induction recorded with
  | nil => simp
  | @cons file r files records head _ ih =>
      obtain ⟨c, seen, rfl⟩ := head
      have found := seen_fresh seen
      simp only [List.mem_cons, ih, exists_eq_or_imp]
      refine or_congr_left ⟨fun same => ⟨c, found, same⟩, fun facts => ?_⟩
      obtain ⟨c', found', rfl⟩ := facts
      rw [found] at found'
      cases found'
      rfl

/-- Published documents of a prepared output finish it. -/
theorem finalized_of_published {base : Tree} {response request : Json} {prepared : PreparedOutput}
    {draft : Draft} {declared : List String} {records : List FileRecord} {w : World}
    (is : IsPrepared lib sha256 schema (Fresh base response) request prepared draft declared records)
    (published : Published base response prepared w) :
    ∃ out, Finalized lib sha256 schema request base w.tree response w.response out := by
  obtain ⟨all, lists⟩ := is.documents.lists
  obtain ⟨content, seen, spelled⟩ := is.spelled
  have draftFile := seen_fresh seen
  have members : ∀ p, p ∈ declared ↔
      p = prepared.draftPath ∨ p ∈ draft.files.map Artifact.path := by
    intro p
    rw [is.declares.members p, List.mem_singleton]
  have files : ∀ p, (∃ c, base.get p = some (.file c)) ↔
      p = prepared.draftPath ∨ p ∈ draft.files.map Artifact.path := by
    intro p
    obtain ⟨v, fresh, regular, same⟩ := is.listed
    rw [← fresh.tree, ← mem_regularFiles regular, same p, members p]
  -- a document's place was free, so it is neither the draft nor a declared file
  have apart : ∀ p ∈ prepared.documents.map Prod.fst,
      p ≠ prepared.draftPath ∧ p ∉ draft.files.map Artifact.path := by
    intro p listed
    obtain ⟨d, member, rfl⟩ := List.mem_map.mp listed
    have free := (published.placed.written d member).1
    have none : ¬∃ c, base.get d.1 = some (.file c) := by
      rintro ⟨c, found⟩
      rw [free] at found
      cases found
    rw [files d.1] at none
    exact not_or.mp none
  have written : ∀ d ∈ prepared.documents, w.tree.get d.1 = some (.file d.2) := fun d member =>
    (published.placed.written d member).2 (apart d.1 (List.mem_map_of_mem member)).1
  have gone : w.tree.get prepared.draftPath = none :=
    published.placed.draft
  have unmoved : ∀ p ∈ draft.files.map Artifact.path, w.tree.get p = base.get p := by
    intro p listed
    refine published.placed.rest p ?_ fun document => (apart p document).2 listed
    obtain ⟨file, member, rfl⟩ := List.mem_map.mp listed
    exact fun same => (is.declares.fresh file member).1 (List.mem_singleton.mpr same)
  have recorded : ∀ record, record ∈ records ↔ ∃ file ∈ draft.files, ∃ c,
      w.tree.get file.path = some (.file c) ∧ record = fileRecord sha256 file c := by
    intro record
    rw [recorded_mem is.recorded]
    refine exists_congr fun file => and_congr_right fun member => ?_
    rw [unmoved file.path (List.mem_map_of_mem member)]
  obtain ⟨bytes, document, encoded⟩ := lists.document
  refine ⟨⟨prepared.expected, prepared.manifest, prepared.draftPath, draft, sortRecords all,
    prepared.documents⟩, ?_⟩
  exact {
    target := is.target
    reference := by
      obtain ⟨v, fresh, reference⟩ := is.reference
      rw [← fresh.answer]
      exact reference
    spelled := ⟨content, draftFile, spelled⟩
    version := is.kind
    declared := files
    exact_ := by
      intro p
      by_cases document : p ∈ prepared.documents.map Prod.fst
      · obtain ⟨d, member, rfl⟩ := List.mem_map.mp document
        exact ⟨fun _ => .inr document, fun _ => ⟨d.2, written d member⟩⟩
      · by_cases isDraft : p = prepared.draftPath
        · subst isDraft
          refine ⟨fun found => ?_, fun listed => ?_⟩
          · obtain ⟨c, found⟩ := found
            rw [gone] at found
            cases found
          · rcases listed with file | doc
            · obtain ⟨file, member, same⟩ := List.mem_map.mp file
              exact absurd (List.mem_singleton.mpr same) (is.declares.fresh file member).1
            · exact absurd doc document
        · rw [published.placed.rest p isDraft document, files p]
          simp [isDraft, document]
    gone := gone
    kept := published.placed.rest
    written := fun d member => ⟨(published.placed.written d member).1, written d member⟩
    names := lists.names
    document := ⟨bytes, written _ document, encoded⟩
    ordered := by
      refine sortRecords_sorted ?_
      have paths := recorded_path is.recorded
      rcases lists.records with ⟨d, c, -, -, -, -, absent, rfl⟩ | ⟨-, rfl⟩
      · rw [List.map_append, paths, List.nodup_append]
        refine ⟨is.declares.distinct, List.nodup_singleton _, fun p listed q data => ?_⟩
        rw [List.mem_singleton.mp data]
        rintro rfl
        exact absent ((members _).mpr (.inr listed))
      · rw [paths]
        exact is.declares.distinct
    lists := by
      intro record
      rw [(sortRecords_perm all).mem_iff]
      rcases lists.records with ⟨d, c, dataset, data, content, data_json, absent, rfl⟩ |
        ⟨other, rfl⟩
      · rw [List.mem_append, recorded, List.mem_singleton]
        refine or_congr_right ⟨fun same => ⟨dataset, d, c, data, content, written _ data_json, same⟩,
          fun facts => ?_⟩
        obtain ⟨-, d', c', data', content', -, rfl⟩ := facts
        rw [data] at data'
        cases data'
        rw [content] at content'
        cases content'
        rfl
      · rw [recorded]
        refine ⟨.inl, fun facts => ?_⟩
        rcases facts with file | ⟨dataset, d, c, data, -⟩
        · exact file
        · exact absurd ⟨dataset, by rw [data]; rfl⟩ other
    answer := published.answer }

variable {env : Nat → Moment} {deadline : Option Nat} {realRoot : Bool} {base : Tree}
  {request response : Json}

/-- The call has not begun to write. -/
structure Untouched (env : Nat → Moment) (base : Tree) (response : Json) (w : World) : Prop where
  unchanged : Unchanged env base response w
  nothingOwned : w.owned = []

theorem Untouched.stable : Stable env (Untouched env base response) :=
  fun w start => ⟨⟨start.unchanged.answer, fun p quiet =>
    (quiet w.time w.tree).trans (start.unchanged.tree p quiet)⟩, start.nothingOwned⟩

theorem Untouched.safe {w : World} (start : Untouched env base response w) :
    Safe env base response w where
  answer := start.unchanged.answer
  free := fun p _ own => by
    rw [start.nothingOwned] at own
    exact absurd own List.not_mem_nil
  same := fun p quiet _ => start.unchanged.tree p quiet

/-- The draft of a response was prepared, and publication begins in `w`. -/
def Prepares (env : Nat → Moment) (deadline : Option Nat) (lib : JsonLibrary)
    (sha256 : List UInt8 → Digest) (schema : Json → Bool) (realRoot : Bool) (request : Json)
    (start : World) (prepared : PreparedOutput) (w : World) : Prop :=
  drafted start.response ∧ ∃ checked, checkDeadline env deadline start = (checked, .ok ()) ∧
    prepareWithin env deadline lib sha256 schema realRoot request checked = (w, .ok prepared)

/-- The deadline has not passed at the check after the draft's removal, or others put something in
the draft's place. -/
def InTime (env : Nat → Moment) (deadline : Option Nat) (lib : JsonLibrary)
    (sha256 : List UInt8 → Digest) (schema : Json → Bool) (realRoot : Bool) (request : Json)
    (start : World) : Prop :=
  ∀ prepared w, Prepares env deadline lib sha256 schema realRoot request start prepared w →
    Quiet env prepared.draftPath → ¬Late env deadline prepared w

/-- Before publication whatever other parties keep holds. -/
theorem Prepares.holds {inv : World → Prop} (stable : Stable env inv) {start w : World}
    {prepared : PreparedOutput} (first : inv start)
    (prepares : Prepares env deadline lib sha256 schema realRoot request start prepared w) :
    inv w ∧ ∃ draft declared records,
      IsPrepared lib sha256 schema inv request prepared draft declared records := by
  obtain ⟨-, v, check, ready⟩ := prepares
  have checked := @checkDeadline_keeps env deadline inv stable start first
  rw [check] at checked
  have prepared := @prepareWithin_holds env deadline inv lib sha256 schema realRoot stable request v
    checked
  rw [ready] at prepared
  exact prepared

/-- `finalize` after its first check. -/
theorem finalize_checked {start v : World} (check : checkDeadline env deadline start = (v, .ok ())) :
    finalize env deadline lib sha256 schema realRoot request start =
      (if drafted v.response then do
        let prepared ← prepareWithin env deadline lib sha256 schema realRoot request
        publish env deadline prepared
      else pure ()) v := by
  unfold finalize
  rw [bind_ok check, bind_ok (show Effect.get v = (v, .ok v) from rfl)]

theorem checkDeadline_answer {start v : World} {outcome : Except OutputError Unit}
    (check : checkDeadline env deadline start = (v, outcome)) : v.response = start.response := by
  by_cases late : Expired deadline (env start.time).now
  · rw [checkDeadline_late late] at check
    cases check
    rfl
  · rw [checkDeadline_inTime late] at check
    cases check
    rfl

/-- A prepared draft is published. -/
theorem Prepares.finalize_eq {start w : World} {prepared : PreparedOutput}
    (prepares : Prepares env deadline lib sha256 schema realRoot request start prepared w) :
    finalize env deadline lib sha256 schema realRoot request start =
      publish env deadline prepared w := by
  obtain ⟨has, v, check, ready⟩ := prepares
  rw [finalize_checked check, checkDeadline_answer check, if_pos has, bind_ok ready]

/-- Without a prepared draft nothing is written: the call fails, or there was no draft. -/
theorem finalize_unprepared {start : World} (first : Untouched env base response start)
    (idle : ∀ prepared w,
      ¬Prepares env deadline lib sha256 schema realRoot request start prepared w) :
    Outcome (fun _ w => ¬drafted response ∧ Untouched env base response w)
      (fun _ => Untouched env base response)
      (finalize env deadline lib sha256 schema realRoot request start) := by
  have checked := @checkDeadline_keeps env deadline _ (@Untouched.stable env base response) start first
  cases check : checkDeadline env deadline start with
  | mk v outcome =>
      rw [check] at checked
      cases outcome with
      | error e =>
          unfold finalize
          rw [bind_error check]
          exact checked
      | ok done =>
          rw [finalize_checked check, checkDeadline_answer check]
          by_cases has : drafted start.response
          · rw [if_pos has]
            have prepares := @prepareWithin_holds env deadline _ lib sha256 schema realRoot
              (@Untouched.stable env base response) request v checked
            cases ready : prepareWithin env deadline lib sha256 schema realRoot request v with
            | mk w outcome =>
                rw [ready] at prepares
                cases outcome with
                | error e =>
                    rw [bind_error ready]
                    exact prepares
                | ok prepared => exact absurd ⟨has, v, check, ready⟩ (idle prepared w)
          · rw [if_neg has]
            rw [first.unchanged.answer] at has
            exact ⟨has, checked⟩

/-- What a finalization ends in. -/
structure AllOrNothing (lib : JsonLibrary) (sha256 : List UInt8 → Digest) (schema : Json → Bool)
    (env : Nat → Moment) (request : Json) (tree : Tree) (response : Json)
    (ended : World × Except OutputError Unit) : Prop where
  /-- Success finishes the output. -/
  finished : ended.2 = .ok () → drafted response → Undisturbed env →
    ∃ out, Finalized lib sha256 schema request tree ended.1.tree response ended.1.response out
  /-- A response without a draft is none of its business. -/
  idle : ended.2 = .ok () → ¬drafted response → Unchanged env tree response ended.1
  /-- A failure changes nothing. -/
  failed : ∀ e, ended.2 = .error e → Unchanged env tree response ended.1

theorem World.start_untouched : Untouched env base response (World.start base response) :=
  ⟨⟨rfl, fun _ _ => rfl⟩, rfl⟩

/-- Published by a call that nobody disturbs, an output is finished. -/
theorem publish_finishes (calm : Undisturbed env) {prepared : PreparedOutput} {w w' : World}
    (prepares : Prepares env deadline lib sha256 schema realRoot request
      (World.start base response) prepared w)
    (published : publish env deadline prepared w = (w', .ok ())) :
    ∃ out, Finalized lib sha256 schema request base w'.tree response w'.response out := by
  obtain ⟨fresh, draft, declared, records, is⟩ :=
    prepares.holds (Fresh.stable calm) (⟨rfl, rfl, rfl, rfl⟩ : Fresh base response _)
  exact finalized_of_published is (publish_publishes calm fresh published)

/-- A late publication has lost the draft. -/
theorem publish_late_loses {prepared : PreparedOutput} {w : World}
    (prepares : Prepares env deadline lib sha256 schema realRoot request
      (World.start base response) prepared w)
    (quiet : Quiet env prepared.draftPath) (late : Late env deadline prepared w) :
    ∃ w', publish env deadline prepared w = (w', .error .timedOut) ∧
      ¬Unchanged env base response w' := by
  obtain ⟨untouched, draft, declared, records, is⟩ :=
    prepares.holds Untouched.stable World.start_untouched
  obtain ⟨w₁, placed, expired⟩ := late
  have removed := @placeDocuments_safe env deadline base response prepared w untouched.safe
  rw [placed] at removed
  refine ⟨_, publish_late placed expired, fun unchanged => ?_⟩
  have gone : (dropped (w₁.passed env)).tree.get prepared.draftPath = none := by
    unfold dropped
    rw [get_foldl_erase]
    split
    · rfl
    · exact (quiet w₁.time w₁.tree).trans (Removed.draft removed)
  obtain ⟨content, ⟨v, seen, found⟩, -⟩ := is.spelled
  rw [unchanged.tree _ quiet, ← seen.unchanged.tree _ quiet, found] at gone
  cases gone

/-- Finalization is all or nothing exactly when it is in time. -/
theorem finalize_all_or_nothing (lib : JsonLibrary) (sha256 : List UInt8 → Digest)
    (schema : Json → Bool) (env : Nat → Moment) (deadline : Option Nat) (realRoot : Bool)
    (request : Json) (tree : Tree) (response : Json) :
    AllOrNothing lib sha256 schema env request tree response
      (finalize env deadline lib sha256 schema realRoot request (World.start tree response)) ↔
    InTime env deadline lib sha256 schema realRoot request (World.start tree response) := by
  constructor
  · intro whole prepared w prepares quiet late
    obtain ⟨w', ended, changed⟩ := publish_late_loses prepares quiet late
    have failed := whole.failed .timedOut
    rw [prepares.finalize_eq, ended] at failed
    exact changed (failed rfl)
  · intro inTime
    by_cases ready : ∃ prepared w, Prepares env deadline lib sha256 schema realRoot request
      (World.start tree response) prepared w
    · obtain ⟨prepared, w, prepares⟩ := ready
      obtain ⟨untouched, -⟩ := prepares.holds Untouched.stable World.start_untouched
      rw [prepares.finalize_eq]
      cases published : publish env deadline prepared w with
      | mk w' outcome =>
          cases outcome with
          | ok done =>
              exact ⟨fun _ _ calm => publish_finishes calm prepares published,
                fun _ none => absurd prepares.1 none, fun _ failed => by cases failed⟩
          | error e =>
              exact ⟨(by intro ok; cases ok), (by intro ok; cases ok), fun _ _ =>
                publish_fails untouched.safe (inTime prepared w prepares) published⟩
    · have ends := @finalize_unprepared lib sha256 schema env deadline realRoot tree request response
        _ World.start_untouched fun prepared w prepares => ready ⟨prepared, w, prepares⟩
      cases ended : finalize env deadline lib sha256 schema realRoot request
          (World.start tree response) with
      | mk w outcome =>
          rw [ended] at ends
          cases outcome with
          | ok done =>
              exact ⟨fun _ has => absurd has ends.1, fun _ _ => ends.2.unchanged,
                fun _ failed => by cases failed⟩
          | error e =>
              exact ⟨(by intro ok; cases ok), (by intro ok; cases ok), fun _ _ =>
                Untouched.unchanged ends⟩

/-! A call whose deadline passes between the removal of the draft and the next check. -/

def sampleDraft : Json :=
  .object [("schema_version", .nat 1), ("kind", .str "metrics"), ("data", .object []),
    ("files", .arr [])]

/-- A library that reads one document. -/
def sampleLibrary : JsonLibrary where
  fractionText _ := ['0', '.', '5']
  parse input := if input = [1] then some sampleDraft else none

def sampleRequest : Json :=
  .object [("id", .str "1"), ("method", .str "evaluate"), ("metrics_path", .str "out/metrics.json")]

def sampleResponse : Json :=
  .object [("id", .str "1"), ("ok", .bool true), ("draft", .str "draft.json")]

def sampleTree : Tree := OrderedMap.insert ∅ "draft.json" (.file [1])

/-- Nothing fails and nobody interferes; the deadline passes before operation `late`. -/
def sampleMoments (late n : Nat) : Moment := ⟨if n < late then 0 else 1, false, ".tmp", id⟩

/-- A finalization with the deadline 1. -/
def sampleRun (late : Nat) : World × Except OutputError Unit :=
  finalize (sampleMoments late) (some 1) sampleLibrary (fun _ => default) (fun _ => true) true
    sampleRequest (World.start sampleTree sampleResponse)

-- one operation earlier the draft stays, one later the metrics are published
example : (sampleRun 23).1.tree.keys = ["draft.json"] ∧ (sampleRun 26).1.tree.keys = ["metrics.json"] := by
  decide +kernel

theorem late_finalize_loses_draft :
    ¬AllOrNothing sampleLibrary (fun _ => default) (fun _ => true) (sampleMoments 25) sampleRequest
      sampleTree sampleResponse (sampleRun 25) := by
  intro whole
  have late : (sampleRun 25).2 = .error .timedOut := by decide +kernel
  have kept := (whole.failed .timedOut late).tree "draft.json" fun _ _ => rfl
  have gone : (sampleRun 25).1.tree.get "draft.json" = none := by decide +kernel
  rw [gone] at kept
  exact absurd kept (by decide +kernel)

end Result

end Metewand.Output
