import Mathlib.Data.List.Basic

/-!
# Covered by occurrences

The positions of a list that lie in an occurrence of a pattern, the list with these positions
masked, and its text with every maximal masked run replaced.  Over a self-synchronizing code,
occurrences in an encoded list are the encodings of occurrences.
-/

namespace Metewand.Lib

section Masks

variable {α : Type}

/-- Position `i` lies in an occurrence of a pattern. -/
def Covered (patterns : List (List α)) (stream : List α) (i : Nat) : Prop :=
  ∃ pattern ∈ patterns, ∃ start, start ≤ i ∧ i < start + pattern.length ∧ pattern <+: stream.drop start

theorem covered_iff_bounded {patterns : List (List α)} {stream : List α} {i : Nat} :
    Covered patterns stream i ↔
      ∃ pattern ∈ patterns, ∃ start ∈ List.range (i + 1),
        i < start + pattern.length ∧ pattern <+: stream.drop start := by
  unfold Covered
  simp only [List.mem_range, Nat.lt_succ_iff]

instance [DecidableEq α] (patterns : List (List α)) (stream : List α) (i : Nat) :
    Decidable (Covered patterns stream i) :=
  decidable_of_iff _ covered_iff_bounded.symm

/-- An occurrence that covers a position ends at most a pattern's length behind it. -/
theorem covered_take {patterns : List (List α)} {width : Nat}
    (within : ∀ pattern ∈ patterns, pattern.length ≤ width) (stream : List α) {n i : Nat}
    (ahead : i + width ≤ n) : Covered patterns (stream.take n) i ↔ Covered patterns stream i := by
  constructor
  · rintro ⟨pattern, member, start, starts, ends, found⟩
    refine ⟨pattern, member, start, starts, ends, found.trans ?_⟩
    rw [List.drop_take]
    exact List.take_prefix _ _
  · rintro ⟨pattern, member, start, starts, ends, found⟩
    refine ⟨pattern, member, start, starts, ends, ?_⟩
    have short := within pattern member
    rw [List.drop_take, List.prefix_take_iff]
    exact ⟨found, by omega⟩

def veil (item : α × Bool) : Option α := if item.2 then none else some item.1

/-- The list with the covered positions hidden. -/
def mask (covered : Nat → Prop) [DecidablePred covered] (stream : List α) : List (Option α) :=
  stream.mapIdx fun i a => if covered i then none else some a

theorem getElem?_mask (covered : Nat → Prop) [DecidablePred covered] (stream : List α) (i : Nat) :
    (mask covered stream)[i]? = stream[i]?.map fun a => if covered i then none else some a :=
  List.getElem?_mapIdx

theorem length_mask (covered : Nat → Prop) [DecidablePred covered] (stream : List α) :
    (mask covered stream).length = stream.length :=
  List.length_mapIdx

theorem mask_take (covered : Nat → Prop) [DecidablePred covered] (stream : List α) (n : Nat) :
    mask covered (stream.take n) = (mask covered stream).take n := by
  apply List.ext_getElem?
  intro i
  rw [getElem?_mask, List.getElem?_take, List.getElem?_take, getElem?_mask]
  by_cases inside : i < n
  · rw [if_pos inside, if_pos inside]
  · rw [if_neg inside, if_neg inside]
    rfl

theorem mask_congr {covered covered' : Nat → Prop} [DecidablePred covered] [DecidablePred covered']
    {stream : List α} (same : ∀ i < stream.length, covered i ↔ covered' i) :
    mask covered stream = mask covered' stream := by
  apply List.ext_getElem?
  intro i
  rw [getElem?_mask, getElem?_mask]
  rcases Nat.lt_or_ge i stream.length with inside | outside
  · rw [List.getElem?_eq_getElem inside]
    simp only [Option.map_some, same i inside]
  · rw [List.getElem?_eq_none outside]
    rfl

theorem mask_append (covered : Nat → Prop) [DecidablePred covered] (front back : List α) :
    mask covered (front ++ back) = mask covered front ++ mask (fun i => covered (i + front.length)) back :=
  List.mapIdx_append

theorem dropWhile_veil (items : List (α × Bool)) :
    (items.map veil).dropWhile Option.isNone = (items.dropWhile (·.2)).map veil := by
  rw [List.dropWhile_map]
  congr 2
  funext item
  obtain ⟨a, hidden⟩ := item
  cases hidden <;> rfl

/-- The list with one marker for every maximal hidden run. -/
def replaceRuns (marker : List α) : List (Option α) → List α
  | [] => []
  | some a :: rest => a :: replaceRuns marker rest
  | none :: rest => marker ++ replaceRuns marker (rest.dropWhile Option.isNone)
termination_by masked => masked.length
decreasing_by
  all_goals
    have shorter := (List.dropWhile_sublist Option.isNone (l := rest)).length_le
    simp only [List.length_cons]
    omega

@[simp]
theorem replaceRuns_nil (marker : List α) : replaceRuns marker [] = [] := by
  unfold replaceRuns
  rfl

@[simp]
theorem replaceRuns_some (marker : List α) (a : α) (rest : List (Option α)) :
    replaceRuns marker (some a :: rest) = a :: replaceRuns marker rest := by
  rw [replaceRuns]

@[simp]
theorem replaceRuns_none (marker : List α) (rest : List (Option α)) :
    replaceRuns marker (none :: rest) = marker ++ replaceRuns marker (rest.dropWhile Option.isNone) := by
  rw [replaceRuns]

theorem replaceRuns_shown (marker shown : List α) (rest : List (Option α)) :
    replaceRuns marker (shown.map some ++ rest) = shown ++ replaceRuns marker rest := by
  induction shown with
  | nil => rfl
  | cons a shown ih => rw [List.map_cons, List.cons_append, replaceRuns_some, ih, List.cons_append]

/-- More of a masked list only adds to its replacement. -/
theorem replaceRuns_grows (marker : List α) (front back : List (Option α)) :
    replaceRuns marker front <+: replaceRuns marker (front ++ back) := by
  induction hn : front.length using Nat.strongRecOn generalizing front with
  | _ n ih =>
      cases front with
      | nil =>
          rw [replaceRuns_nil]
          exact List.nil_prefix
      | cons item front =>
          rw [List.length_cons] at hn
          rw [List.cons_append]
          cases item with
          | some a =>
              rw [replaceRuns_some, replaceRuns_some]
              exact (List.prefix_append_right_inj [a]).mpr (ih front.length (by omega) front rfl)
          | none =>
              have shorter := (List.dropWhile_sublist Option.isNone (l := front)).length_le
              rw [replaceRuns_none, replaceRuns_none, List.dropWhile_append]
              apply (List.prefix_append_right_inj marker).mpr
              by_cases all : (front.dropWhile Option.isNone).isEmpty = true
              · rw [List.isEmpty_iff.mp all, replaceRuns_nil]
                exact List.nil_prefix
              · rw [if_neg all]
                exact ih _ (by omega) _ rfl

end Masks

/-! ## Codes -/

/-- A code whose words begin with a leading symbol, go on without one, and do not begin one another. -/
structure Synchronizing {α β : Type} (encode : α → List β) (lead : β → Prop) : Prop where
  shape : ∀ a, ∃ first rest, encode a = first :: rest ∧ lead first ∧ ∀ b ∈ rest, ¬ lead b
  apart : ∀ a a' x y, encode a ++ x = encode a' ++ y → a = a'

namespace Synchronizing

variable {α β : Type} {encode : α → List β} {lead : β → Prop}

theorem encode_ne_nil (code : Synchronizing encode lead) (a : α) : encode a ≠ [] := by
  obtain ⟨first, rest, is, -⟩ := code.shape a
  rw [is]
  exact List.cons_ne_nil _ _

/-- A leading symbol begins a word. -/
theorem boundary (code : Synchronizing encode lead) {first : β} (leads : lead first) {back : List β}
    (cs : List α) : ∀ front, cs.flatMap encode = front ++ first :: back →
      ∃ before after, cs = before ++ after ∧ front = before.flatMap encode ∧
        first :: back = after.flatMap encode := by
  induction cs with
  | nil =>
      intro front split
      have impossible := congrArg List.length split
      simp at impossible
  | cons c cs ih =>
      intro front split
      cases front with
      | nil => exact ⟨[], c :: cs, rfl, rfl, split.symm⟩
      | cons b front =>
          rw [List.flatMap_cons] at split
          rcases List.append_eq_append_iff.mp split with ⟨later, is, remains⟩ | ⟨cut, is, remains⟩
          · obtain ⟨before, after, parts, ahead, behind⟩ := ih later remains
            refine ⟨c :: before, after, ?_, ?_, behind⟩
            · rw [parts, List.cons_append]
            · rw [is, ahead, List.flatMap_cons]
          · obtain ⟨head, tail, word, -, continues⟩ := code.shape c
            rw [word, List.cons_append] at is
            injection is with same inner
            cases cut with
            | nil =>
                refine ⟨[c], cs, rfl, ?_, remains⟩
                rw [List.flatMap_cons, List.flatMap_nil, List.append_nil, word, inner, List.append_nil, same]
            | cons d cut =>
                injection remains with begins
                subst begins
                exact absurd leads (continues first (by rw [inner]; simp))

/-- The words at the front of an encoded list are its first items. -/
theorem leading_words (code : Synchronizing encode lead) {back : List β} (ss : List α) :
    ∀ cs : List α, cs.flatMap encode = ss.flatMap encode ++ back →
      ∃ after, cs = ss ++ after ∧ back = after.flatMap encode := by
  induction ss with
  | nil =>
      intro cs split
      exact ⟨cs, rfl, split.symm⟩
  | cons s ss ih =>
      intro cs split
      rw [List.flatMap_cons, List.append_assoc] at split
      cases cs with
      | nil =>
          have empty : encode s = [] := (List.append_eq_nil_iff.mp split.symm).1
          exact absurd empty (code.encode_ne_nil s)
      | cons c cs =>
          rw [List.flatMap_cons] at split
          have same := code.apart c s _ _ split
          subst same
          obtain ⟨after, is, behind⟩ := ih cs (List.append_cancel_left split)
          exact ⟨after, by rw [is, List.cons_append], behind⟩

/-- An occurrence of an encoded list in an encoded list is the encoding of an occurrence. -/
theorem occurrence (code : Synchronizing encode lead) {cs ss : List α} {front back : List β} (some : ss ≠ [])
    (split : cs.flatMap encode = front ++ (ss.flatMap encode ++ back)) :
    ∃ before after, cs = before ++ (ss ++ after) ∧ front = before.flatMap encode := by
  cases ss with
  | nil => exact absurd rfl some
  | cons s ss =>
      obtain ⟨first, rest, word, leads, -⟩ := code.shape s
      have starts : (s :: ss).flatMap encode ++ back = first :: (rest ++ (ss.flatMap encode ++ back)) := by
        rw [List.flatMap_cons, word]
        simp
      rw [starts] at split
      obtain ⟨before, tail, parts, ahead, behind⟩ := code.boundary leads cs front split
      obtain ⟨after, is, -⟩ := code.leading_words (s :: ss) tail (behind.symm.trans starts.symm)
      exact ⟨before, after, by rw [parts, is], ahead⟩

/-- A cut of the list lies before an item exactly when the encoded cut lies before a symbol of its word. -/
theorem cut_le_iff {before after front back : List α} {c : α} {j : Nat}
    (whole : before ++ c :: after = front ++ back) (inside : j < (encode c).length) :
    (front.flatMap encode).length ≤ (before.flatMap encode).length + j ↔ front.length ≤ before.length := by
  rcases List.append_eq_append_iff.mp whole with ⟨later, is, remains⟩ | ⟨between, is, -⟩
  · cases later with
    | nil =>
        rw [is, List.append_nil]
        omega
    | cons d later =>
        injection remains with same _
        subst same
        rw [is, List.flatMap_append, List.flatMap_cons, List.length_append, List.length_append,
          List.length_append, List.length_cons]
        omega
  · rw [is, List.flatMap_append, List.length_append, List.length_append]
    omega

/-- A symbol of a word is covered exactly when the word's item is. -/
theorem covered_iff (code : Synchronizing encode lead) {patterns : List (List α)}
    (nonempty : ∀ pattern ∈ patterns, pattern ≠ []) {before after : List α} {c : α} {j : Nat}
    (inside : j < (encode c).length) :
    Covered (patterns.map (·.flatMap encode)) ((before ++ c :: after).flatMap encode)
        ((before.flatMap encode).length + j) ↔
      Covered patterns (before ++ c :: after) before.length := by
  constructor
  · rintro ⟨word, member, start, starts, ends, rest, found⟩
    obtain ⟨pattern, known, rfl⟩ := List.mem_map.mp member
    have split : (before ++ c :: after).flatMap encode =
        ((before ++ c :: after).flatMap encode).take start ++ (pattern.flatMap encode ++ rest) := by
      rw [found, List.take_append_drop]
    obtain ⟨ahead, behind, is, front⟩ := code.occurrence (nonempty pattern known) split
    have reached : start ≤ ((before ++ c :: after).flatMap encode).length := by
      rw [List.flatMap_append, List.flatMap_cons, List.length_append, List.length_append]
      omega
    have begins : start = (ahead.flatMap encode).length := by
      rw [← front, List.length_take, Nat.min_eq_left reached]
    have within := (cut_le_iff is inside).mp (by omega)
    have whole : before ++ c :: after = (ahead ++ pattern) ++ behind := by rw [is, List.append_assoc]
    have beyond : ¬ (ahead ++ pattern).length ≤ before.length := by
      rw [← cut_le_iff whole inside, List.flatMap_append, List.length_append]
      omega
    rw [List.length_append] at beyond
    refine ⟨pattern, known, ahead.length, within, by omega, ?_⟩
    rw [is, List.drop_left]
    exact List.prefix_append _ _
  · rintro ⟨pattern, known, start, starts, ends, rest, found⟩
    obtain ⟨front, is, begins⟩ :
        ∃ front, before ++ c :: after = front ++ (pattern ++ rest) ∧ front.length = start := by
      refine ⟨(before ++ c :: after).take start, ?_, ?_⟩
      · rw [found, List.take_append_drop]
      · rw [List.length_take, List.length_append, List.length_cons]
        omega
    subst begins
    have within := (cut_le_iff is inside).mpr starts
    have whole : before ++ c :: after = (front ++ pattern) ++ rest := by rw [is, List.append_assoc]
    have beyond : ¬ ((front ++ pattern).flatMap encode).length ≤ (before.flatMap encode).length + j := by
      rw [cut_le_iff whole inside, List.length_append]
      omega
    rw [List.flatMap_append, List.length_append] at beyond
    refine ⟨pattern.flatMap encode, List.mem_map_of_mem known, (front.flatMap encode).length, within, by omega, ?_⟩
    rw [is, List.flatMap_append, List.drop_left, List.flatMap_append]
    exact List.prefix_append _ _

/-- The word of an item, hidden or not as a whole. -/
def spread (encode : α → List β) (item : α × Bool) : List (Option β) :=
  (encode item.1).map fun b => if item.2 then none else some b

/-- A mask that hides whole words is the mask of their items, spread over the words. -/
theorem mask_flatMap {symbols items : Nat → Prop} [DecidablePred symbols] [DecidablePred items] (cs : List α)
    (uniform : ∀ before c after j, cs = before ++ c :: after → j < (encode c).length →
      (symbols ((before.flatMap encode).length + j) ↔ items before.length)) :
    mask symbols (cs.flatMap encode) = (cs.mapIdx fun k c => (c, decide (items k))).flatMap (spread encode) := by
  induction cs generalizing symbols items with
  | nil => rfl
  | cons c cs ih =>
      rw [List.flatMap_cons, mask_append, List.mapIdx_cons, List.flatMap_cons]
      congr 1
      · apply List.ext_getElem?
        intro j
        rw [getElem?_mask, spread, List.getElem?_map]
        rcases Nat.lt_or_ge j (encode c).length with inside | outside
        · have first := uniform [] c cs j rfl inside
          simp only [List.flatMap_nil, List.length_nil, Nat.zero_add] at first
          simp only [first, decide_eq_true_eq]
        · rw [List.getElem?_eq_none outside]
          rfl
      · apply ih
        intro before d after j is inside
        have later := uniform (c :: before) d after j (by rw [is, List.cons_append]) inside
        rw [List.flatMap_cons, List.length_append, List.length_cons] at later
        rw [← later]
        have position : (encode c).length + (before.flatMap encode).length + j =
            (before.flatMap encode).length + j + (encode c).length := by omega
        rw [position]

theorem spread_hidden (code : Synchronizing encode lead) (c : α) :
    ∃ rest, spread encode (c, true) = none :: rest ∧ ∀ item ∈ rest, item = none := by
  obtain ⟨first, rest, word, -⟩ := code.shape c
  refine ⟨rest.map fun _ => none, ?_, ?_⟩
  · simp [spread, word]
  · intro item member
    obtain ⟨_, -, rfl⟩ := List.mem_map.mp member
    rfl

theorem spread_shown (c : α) : spread encode (c, false) = (encode c).map some := by
  simp [spread]

theorem dropWhile_hidden {hidden : List (Option β)} (all : ∀ item ∈ hidden, item = none)
    (rest : List (Option β)) : (hidden ++ rest).dropWhile Option.isNone = rest.dropWhile Option.isNone := by
  rw [List.dropWhile_append_of_pos]
  intro item member
  rw [all item member]
  rfl

theorem dropWhile_spread (code : Synchronizing encode lead) (items : List (α × Bool)) :
    (items.flatMap (spread encode)).dropWhile Option.isNone =
      (items.dropWhile (·.2)).flatMap (spread encode) := by
  induction items with
  | nil => rfl
  | cons item items ih =>
      obtain ⟨c, hidden⟩ := item
      cases hidden with
      | true =>
          obtain ⟨rest, is, all⟩ := code.spread_hidden c
          rw [List.flatMap_cons, is, List.cons_append, List.dropWhile_cons_of_pos rfl, dropWhile_hidden all, ih,
            List.dropWhile_cons_of_pos rfl]
      | false =>
          obtain ⟨first, rest, word, -⟩ := code.shape c
          rw [List.dropWhile_cons_of_neg Bool.false_ne_true, List.flatMap_cons, spread_shown, word, List.map_cons,
            List.cons_append, List.dropWhile_cons_of_neg Bool.false_ne_true]

/-- Replacing the hidden runs of an encoded list encodes the list with its hidden runs replaced. -/
theorem replaceRuns_spread (code : Synchronizing encode lead) (marker : List α) (items : List (α × Bool)) :
    replaceRuns (marker.flatMap encode) (items.flatMap (spread encode)) =
      (replaceRuns marker (items.map veil)).flatMap encode := by
  induction hn : items.length using Nat.strongRecOn generalizing items with
  | _ n ih =>
      cases items with
      | nil => simp
      | cons item items =>
          obtain ⟨c, hidden⟩ := item
          rw [List.length_cons] at hn
          cases hidden with
          | false =>
              rw [List.flatMap_cons, spread_shown, replaceRuns_shown, ih items.length (by omega) items rfl]
              simp [veil]
          | true =>
              obtain ⟨rest, is, all⟩ := code.spread_hidden c
              have shorter := (List.dropWhile_sublist (·.2) (l := items)).length_le
              rw [List.flatMap_cons, is, List.cons_append, replaceRuns_none, dropWhile_hidden all,
                code.dropWhile_spread, ih _ (by omega) _ rfl, List.map_cons, veil, if_pos rfl, replaceRuns_none,
                dropWhile_veil, List.flatMap_append]

end Synchronizing

end Metewand.Lib
