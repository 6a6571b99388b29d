import Mathlib.Data.List.Induction
import Mathlib.Data.List.TakeWhile
import Mathlib.Data.String.Basic

/-!
# URI references

The components of a URI reference, the removal of dot segments and the resolution against a base,
after RFC 3986.  `removeDots` also counts the `..` segments that have nothing left to remove.
-/

namespace Metewand.Lib.Uri

/-- The components of a reference. -/
structure Reference where
  scheme : Option (List Char)
  authority : Option (List Char)
  path : List Char
  query : Option (List Char)
  fragment : Option (List Char)
  deriving DecidableEq, Repr

/-- The part before a separator: the characters up to any of `ends`. -/
def upTo (ends text : List Char) : List Char := text.takeWhile (· ∉ ends)

def after (ends text : List Char) : List Char := text.dropWhile (· ∉ ends)

/-- The scheme and what follows it. -/
def splitScheme (text : List Char) : Option (List Char) × List Char :=
  match upTo [':', '/', '?', '#'] text, after [':', '/', '?', '#'] text with
  | c :: scheme, ':' :: rest => (some (c :: scheme), rest)
  | _, _ => (none, text)

def splitAuthority : List Char → Option (List Char) × List Char
  | '/' :: '/' :: rest => (some (upTo ['/', '?', '#'] rest), after ['/', '?', '#'] rest)
  | text => (none, text)

def splitQuery : List Char → Option (List Char) × List Char
  | '?' :: rest => (some (upTo ['#'] rest), after ['#'] rest)
  | text => (none, text)

def splitFragment : List Char → Option (List Char)
  | '#' :: rest => some rest
  | _ => none

theorem upTo_after (ends text : List Char) : upTo ends text ++ after ends text = text :=
  List.takeWhile_append_dropWhile

theorem after_length (ends text : List Char) : (after ends text).length ≤ text.length := by
  have parts := congrArg List.length (upTo_after ends text)
  rw [List.length_append] at parts
  omega

/-- The components of a text. -/
def split (text : List Char) : Reference :=
  let scheme := splitScheme text
  let authority := splitAuthority scheme.2
  let query := splitQuery (after ['?', '#'] authority.2)
  { scheme := scheme.1
    authority := authority.1
    path := upTo ['?', '#'] authority.2
    query := query.1
    fragment := splitFragment query.2 }

/-- The text of components. -/
def recompose (reference : Reference) : List Char :=
  (reference.scheme.elim [] fun scheme => scheme ++ [':']) ++
    (reference.authority.elim [] fun authority => '/' :: '/' :: authority) ++ reference.path ++
    (reference.query.elim [] fun query => '?' :: query) ++
    reference.fragment.elim [] fun fragment => '#' :: fragment

/-! ## Dot segments -/

def Dot (segment : List Char) : Prop := segment = ['.'] ∨ segment = ['.', '.']

instance (segment : List Char) : Decidable (Dot segment) := inferInstanceAs (Decidable (_ ∨ _))

/-- Remove the last segment of a path and the slash before it. -/
def removeSegment (path : List Char) : List Char := ((path.reverse.dropWhile (· ≠ '/')).drop 1).reverse

/-- The input after a dot segment: a slash stays when it was the last one. -/
def remaining (rest : List Char) : List Char := if after ['/'] rest = [] then ['/'] else after ['/'] rest

theorem remaining_length {segment rest : List Char} (filled : segment ≠ []) (first : upTo ['/'] rest = segment) :
    (remaining rest).length < rest.length + 1 := by
  have parts := congrArg List.length (upTo_after ['/'] rest)
  have positive := List.length_pos_iff.mpr filled
  rw [List.length_append, first] at parts
  unfold remaining
  split
  · rw [List.length_singleton]
    omega
  · omega

/-- `remove_dot_segments`, with the number of `..` that were dropped at the root. -/
def removeDots : List Char → List Char → Nat → List Char × Nat
  | [], output, dropped => (output, dropped)
  | c :: rest, output, dropped =>
      if c = '/' then
        if upTo ['/'] rest = ['.'] then removeDots (remaining rest) output dropped
        else if upTo ['/'] rest = ['.', '.'] then
          removeDots (remaining rest) (removeSegment output) (if output = [] then dropped + 1 else dropped)
        else removeDots (after ['/'] rest) (output ++ '/' :: upTo ['/'] rest) dropped
      else if Dot (upTo ['/'] (c :: rest)) then removeDots ((after ['/'] (c :: rest)).drop 1) output dropped
      else removeDots (after ['/'] (c :: rest)) (output ++ upTo ['/'] (c :: rest)) dropped
termination_by input => input.length
decreasing_by
  · rename_i is
    exact remaining_length (by simp) is
  · rename_i is
    exact remaining_length (by simp) is
  · have shorter := after_length ['/'] rest
    rw [List.length_cons]
    omega
  · rename_i slash _
    have tail : after ['/'] (c :: rest) = after ['/'] rest := by
      rw [after, List.dropWhile_cons_of_pos (by simpa using slash)]
      rfl
    have shorter := after_length ['/'] rest
    rw [List.length_cons, List.length_drop, tail]
    omega
  · rename_i slash _
    have tail : after ['/'] (c :: rest) = after ['/'] rest := by
      rw [after, List.dropWhile_cons_of_pos (by simpa using slash)]
      rfl
    have shorter := after_length ['/'] rest
    rw [List.length_cons, tail]
    omega

/-! ## Resolution -/

/-- A relative path after the directory of the base. -/
def merge (base : Reference) (path : List Char) : List Char :=
  if base.authority.isSome ∧ base.path = [] then '/' :: path
  else (base.path.reverse.dropWhile (· ≠ '/')).reverse ++ path

/-- The path of a resolution before its dot segments are removed; none where it is the base's own. -/
def dotted (base reference : Reference) : Option (List Char) :=
  if reference.scheme.isSome ∨ reference.authority.isSome then some reference.path
  else if reference.path = [] then none
  else if reference.path.head? = some '/' then some reference.path
  else some (merge base reference.path)

/-- The components that a reference leads to from a base. -/
def resolved (base reference : Reference) : Reference :=
  { scheme := reference.scheme.or base.scheme
    authority := if reference.scheme.isSome then reference.authority else reference.authority.or base.authority
    path := (dotted base reference).elim base.path fun path => (removeDots path [] 0).1
    query := if (dotted base reference).isSome then reference.query else reference.query.or base.query
    fragment := reference.fragment }

/-- A path that would read as an authority is kept apart from the scheme. -/
def apart (reference : Reference) : Reference :=
  if reference.authority = none ∧ ['/', '/'] <+: reference.path then
    { reference with path := '/' :: '.' :: reference.path }
  else reference

/-- How many `..` a resolution drops at the root. -/
def dropped (base reference : Reference) : Nat :=
  (dotted base reference).elim 0 fun path => (removeDots path [] 0).2

/-! ## Paths of segments -/

/-- A path that starts with a slash. -/
def pathOf (segments : List (List Char)) : List Char := segments.flatMap fun segment => '/' :: segment

/-- `removeDots` on segments. -/
def walk : List (List Char) → List (List Char) → Nat → List (List Char) × Nat
  | [], stack, dropped => (stack, dropped)
  | segment :: rest, stack, dropped =>
      let last := if rest = [] then [[]] else []
      if segment = ['.'] then walk rest (stack ++ last) dropped
      else if segment = ['.', '.'] then
        walk rest (stack.dropLast ++ last) (if stack = [] then dropped + 1 else dropped)
      else walk rest (stack ++ [segment]) dropped

theorem upTo_slash {segment rest : List Char} (plain : '/' ∉ segment) (tail : rest = [] ∨ rest.head? = some '/') :
    upTo ['/'] (segment ++ rest) = segment ∧ after ['/'] (segment ++ rest) = rest := by
  have all : ∀ c ∈ segment, (fun c => decide (c ∉ ['/'])) c = true := by
    intro c member
    have other : c ≠ '/' := fun same => plain (same ▸ member)
    simpa using other
  have none : rest.takeWhile (fun c => decide (c ∉ ['/'])) = [] ∧ rest.dropWhile (fun c => decide (c ∉ ['/'])) = rest := by
    cases rest with
    | nil => exact ⟨rfl, rfl⟩
    | cons c rest =>
        obtain rfl : c = '/' := by simpa using tail
        simp
  rw [upTo, after, List.takeWhile_append_of_pos all, List.dropWhile_append_of_pos all, none.1, none.2,
    List.append_nil]
  exact ⟨rfl, rfl⟩

theorem pathOf_head (segments : List (List Char)) : pathOf segments = [] ∨ (pathOf segments).head? = some '/' := by
  cases segments with
  | nil => exact .inl rfl
  | cons segment rest => exact .inr rfl

theorem pathOf_append (a b : List (List Char)) : pathOf (a ++ b) = pathOf a ++ pathOf b := List.flatMap_append

theorem pathOf_singleton (segment : List Char) : pathOf [segment] = '/' :: segment := by simp [pathOf]

theorem removeSegment_concat (path : List Char) {segment : List Char} (plain : '/' ∉ segment) :
    removeSegment (path ++ '/' :: segment) = path := by
  have all : ∀ c ∈ segment.reverse, (fun c => decide (c ≠ '/')) c = true := by
    intro c member
    have other : c ≠ '/' := fun same => plain (same ▸ List.mem_reverse.mp member)
    simpa using other
  rw [removeSegment, List.reverse_append, List.reverse_cons, List.append_assoc, List.dropWhile_append_of_pos all]
  simp

/-- Removing the dots of a path works on its segments. -/
theorem removeDots_pathOf (segments : List (List Char)) : ∀ (stack : List (List Char)) (dropped : Nat),
    (∀ segment ∈ segments, '/' ∉ segment) → (∀ segment ∈ stack, '/' ∉ segment) →
    removeDots (pathOf segments) (pathOf stack) dropped =
      (pathOf (walk segments stack dropped).1, (walk segments stack dropped).2) := by
  induction segments with
  | nil =>
      intro stack dropped _ _
      rw [pathOf, List.flatMap_nil, removeDots, walk]
  | cons segment rest ih =>
      intro stack dropped plain held
      have own := plain segment List.mem_cons_self
      have others : ∀ segment ∈ rest, '/' ∉ segment := fun segment member => plain segment (List.mem_cons_of_mem _ member)
      obtain ⟨first, tail⟩ := upTo_slash own (pathOf_head rest)
      have shape : pathOf (segment :: rest) = '/' :: (segment ++ pathOf rest) := rfl
      have root : ∀ output dropped, removeDots ['/'] output dropped = (output ++ ['/'], dropped) := by
        intro output dropped
        rw [removeDots, if_pos rfl]
        simp [upTo, after, removeDots]
      have next : remaining (segment ++ pathOf rest) = if rest = [] then ['/'] else pathOf rest := by
        rw [remaining, tail]
        cases rest with
        | nil => rfl
        | cons other rest => rw [if_neg (by simp [pathOf]), if_neg (List.cons_ne_nil _ _)]
      -- After a dot segment: an empty last segment, or the rest.
      have go : ∀ stack : List (List Char), (∀ segment ∈ stack, '/' ∉ segment) → ∀ dropped,
          removeDots (remaining (segment ++ pathOf rest)) (pathOf stack) dropped =
            (pathOf (walk rest (stack ++ if rest = [] then [[]] else []) dropped).1,
              (walk rest (stack ++ if rest = [] then [[]] else []) dropped).2) := by
        intro stack held dropped
        rw [next]
        cases rest with
        | nil => rw [if_pos rfl, if_pos rfl, root, walk, pathOf_append, pathOf_singleton]
        | cons other rest =>
            rw [if_neg (List.cons_ne_nil _ _), if_neg (List.cons_ne_nil _ _), List.append_nil,
              ih stack dropped others held]
      rw [shape, removeDots, if_pos rfl, walk, first, tail]
      split
      · exact go stack held dropped
      · split
        · cases stack using List.reverseRecOn with
          | nil => exact go [] (fun _ member => absurd member List.not_mem_nil) _
          | append_singleton stack top _ =>
              have plainTop := held top (by simp)
              have before : ∀ segment ∈ stack, '/' ∉ segment := fun segment member =>
                held segment (List.mem_append_left _ member)
              have filled : stack ++ [top] ≠ [] := by simp
              have filledPath : pathOf stack ++ '/' :: top ≠ [] := by simp
              rw [pathOf_append, pathOf_singleton, removeSegment_concat _ plainTop, if_neg filledPath,
                List.dropLast_concat, if_neg filled]
              exact go stack before dropped
        · have pushed := ih (stack ++ [segment]) dropped others (by
            intro other member
            rcases List.mem_append.mp member with inside | inside
            · exact held other inside
            · exact List.mem_singleton.mp inside ▸ own)
          rwa [pathOf_append, pathOf_singleton] at pushed

/-- What the walk does to segments that are no dots. -/
theorem walk_push (segments rest : List (List Char)) : ∀ (stack : List (List Char)) (dropped : Nat),
    (∀ segment ∈ segments, ¬ Dot segment) → walk (segments ++ rest) stack dropped = walk rest (stack ++ segments) dropped := by
  induction segments with
  | nil =>
      intro stack dropped _
      rw [List.nil_append, List.append_nil]
  | cons segment segments ih =>
      intro stack dropped plain
      obtain ⟨notDot, notDots⟩ := not_or.mp (plain segment List.mem_cons_self)
      rw [List.cons_append, walk, if_neg notDot, if_neg notDots,
        ih _ _ fun other member => plain other (List.mem_cons_of_mem _ member), List.append_assoc,
        List.singleton_append]

/-! ## Paths without dot segments -/

/-- No segment between slashes is a dot segment. -/
def Clean (path : List Char) : Prop := ∀ segment ∈ path.splitOn '/', ¬ Dot segment

theorem splitOn_plain {segment : List Char} (plain : '/' ∉ segment) : segment.splitOn '/' = [segment] := by
  rw [List.splitOn]
  refine List.splitOnP_eq_singleton fun c member => ?_
  have other : c ≠ '/' := fun same => plain (same ▸ member)
  simpa using other

theorem splitOn_slash (path rest : List Char) :
    (path ++ '/' :: rest).splitOn '/' = path.splitOn '/' ++ rest.splitOn '/' := by
  rw [List.splitOn, List.splitOn, List.splitOn, List.splitOnP_append_cons _ _ (by decide)]

theorem clean_nil : Clean [] := by
  intro segment member
  rw [splitOn_plain List.not_mem_nil] at member
  rw [List.mem_singleton.mp member]
  decide

theorem clean_append {path rest : List Char} : Clean (path ++ '/' :: rest) ↔ Clean path ∧ Clean rest := by
  unfold Clean
  rw [splitOn_slash]
  constructor
  · intro all
    exact ⟨fun segment member => all segment (List.mem_append_left _ member),
      fun segment member => all segment (List.mem_append_right _ member)⟩
  · rintro ⟨left, right⟩ segment member
    rcases List.mem_append.mp member with inside | inside
    · exact left segment inside
    · exact right segment inside

theorem clean_segment {segment : List Char} (plain : '/' ∉ segment) (notDot : ¬ Dot segment) : Clean segment := by
  intro other member
  rw [splitOn_plain plain] at member
  rwa [List.mem_singleton.mp member]

/-- A path has a last segment, or no slash. -/
theorem exists_last (path : List Char) :
    '/' ∉ path ∨ ∃ before segment, path = before ++ '/' :: segment ∧ '/' ∉ segment := by
  induction path using List.reverseRecOn with
  | nil => exact .inl List.not_mem_nil
  | append_singleton path c ih =>
      by_cases slash : c = '/'
      · exact .inr ⟨path, [], by rw [slash], List.not_mem_nil⟩
      · have other : '/' ∉ [c] := by simpa using Ne.symm slash
        rcases ih with none | ⟨before, segment, rfl, plain⟩
        · left
          intro member
          rcases List.mem_append.mp member with inside | inside
          · exact none inside
          · exact other inside
        · refine .inr ⟨before, segment ++ [c], by simp, ?_⟩
          intro member
          rcases List.mem_append.mp member with inside | inside
          · exact plain inside
          · exact other inside

theorem removeSegment_plain {path : List Char} (plain : '/' ∉ path) : removeSegment path = [] := by
  have all : ∀ c ∈ path.reverse, (fun c => decide (c ≠ '/')) c = true := by
    intro c member
    have other : c ≠ '/' := fun same => plain (same ▸ List.mem_reverse.mp member)
    simpa using other
  rw [removeSegment, ← List.append_nil path.reverse, List.dropWhile_append_of_pos all]
  rfl

theorem clean_removeSegment {path : List Char} (clean : Clean path) : Clean (removeSegment path) := by
  rcases exists_last path with none | ⟨before, segment, rfl, plain⟩
  · rw [removeSegment_plain none]
    exact clean_nil
  · rw [removeSegment_concat before plain]
    exact (clean_append.mp clean).1

theorem slash_not_mem_upTo {ends : List Char} (among : '/' ∈ ends) (text : List Char) : '/' ∉ upTo ends text := by
  intro member
  have kept := List.mem_takeWhile_imp member
  simp [among] at kept

theorem after_ends (ends text : List Char) : after ends text = [] ∨ ∃ c ∈ ends, (after ends text).head? = some c := by
  have stops := List.head?_dropWhile_not (fun c => decide (c ∉ ends)) text
  cases rest : after ends text with
  | nil => exact .inl rfl
  | cons c rest' =>
      rw [after] at rest
      rw [rest] at stops
      exact .inr ⟨c, by simpa using stops, rfl⟩

theorem after_head (text : List Char) : after ['/'] text = [] ∨ (after ['/'] text).head? = some '/' := by
  rcases after_ends ['/'] text with none | ⟨c, member, head⟩
  · exact .inl none
  · exact .inr (List.mem_singleton.mp member ▸ head)

/-- Removing dots leaves none. -/
theorem clean_removeDots (input output : List Char) (dropped : Nat) :
    Clean output → (input = [] ∨ input.head? = some '/' ∨ output = []) →
      Clean (removeDots input output dropped).1 := by
  have stays : ∀ rest, remaining rest = [] ∨ (remaining rest).head? = some '/' := by
    intro rest
    unfold remaining
    split
    · exact .inr rfl
    · exact after_head rest
  induction input, output, dropped using removeDots.induct with
  | case1 output dropped =>
      intro clean _
      rwa [removeDots]
  | case2 rest output dropped dot ih =>
      intro clean _
      rw [removeDots, if_pos rfl, if_pos dot]
      exact ih clean ((stays rest).imp_right .inl)
  | case3 rest output dropped notDot dots ih =>
      intro clean _
      rw [removeDots, if_pos rfl, if_neg notDot, if_pos dots]
      exact ih (clean_removeSegment clean) ((stays rest).imp_right .inl)
  | case4 rest output dropped notDot notDots ih =>
      intro clean _
      rw [removeDots, if_pos rfl, if_neg notDot, if_neg notDots]
      have segment := clean_segment (slash_not_mem_upTo (by simp) rest) (not_or.mpr ⟨notDot, notDots⟩)
      exact ih (clean_append.mpr ⟨clean, segment⟩) ((after_head rest).imp_right .inl)
  | case5 c rest output dropped slash dot ih =>
      intro clean place
      rw [removeDots, if_neg slash, if_pos dot]
      rcases place with impossible | impossible | rfl
      · cases impossible
      · exact absurd (by simpa using impossible) slash
      · exact ih clean (.inr (.inr rfl))
  | case6 c rest output dropped slash notDot ih =>
      intro clean place
      rw [removeDots, if_neg slash, if_neg notDot]
      rcases place with impossible | impossible | rfl
      · cases impossible
      · exact absurd (by simpa using impossible) slash
      · exact ih (clean_segment (slash_not_mem_upTo (by simp) _) notDot) ((after_head _).imp_right .inl)

/-! ## Recomposition -/

/-- Components whose characters do not end them. -/
structure Reference.Plain (reference : Reference) : Prop where
  scheme : ∀ scheme, reference.scheme = some scheme → scheme ≠ [] ∧ ∀ c ∈ scheme, c ∉ [':', '/', '?', '#']
  authority : ∀ authority, reference.authority = some authority → ∀ c ∈ authority, c ∉ ['/', '?', '#']
  rooted : reference.authority.isSome → reference.path = [] ∨ reference.path.head? = some '/'
  path : ∀ c ∈ reference.path, c ∉ ['?', '#']
  query : ∀ query, reference.query = some query → ∀ c ∈ query, c ∉ ['#']

/-- Components that can be told apart in a text, under a scheme. -/
structure Reference.Formed (reference : Reference) : Prop extends reference.Plain where
  absolute : reference.scheme.isSome
  apart : reference.authority = none → ¬['/', '/'] <+: reference.path

/-- A part up to the separator that follows it. -/
theorem upTo_part {ends segment rest : List Char} (plain : ∀ c ∈ segment, c ∉ ends)
    (tail : rest = [] ∨ ∃ c ∈ ends, rest.head? = some c) :
    upTo ends (segment ++ rest) = segment ∧ after ends (segment ++ rest) = rest := by
  have all : ∀ c ∈ segment, (fun c => decide (c ∉ ends)) c = true := fun c member => decide_eq_true (plain c member)
  have none : rest.takeWhile (fun c => decide (c ∉ ends)) = [] ∧ rest.dropWhile (fun c => decide (c ∉ ends)) = rest := by
    cases rest with
    | nil => exact ⟨rfl, rfl⟩
    | cons c rest =>
        rcases tail with impossible | ⟨d, member, same⟩
        · cases impossible
        · obtain rfl : c = d := by simpa using same
          simp [member]
  rw [upTo, after, List.takeWhile_append_of_pos all, List.dropWhile_append_of_pos all, none.1, none.2,
    List.append_nil]
  exact ⟨rfl, rfl⟩

theorem splitFragment_text (fragment : Option (List Char)) :
    splitFragment (fragment.elim [] fun fragment => '#' :: fragment) = fragment := by
  cases fragment with
  | none => rfl
  | some fragment => rfl

theorem splitQuery_text {query : Option (List Char)} (plain : ∀ text, query = some text → ∀ c ∈ text, c ∉ ['#'])
    {rest : List Char} (tail : rest = [] ∨ rest.head? = some '#') :
    splitQuery ((query.elim [] fun query => '?' :: query) ++ rest) = (query, rest) := by
  cases query with
  | some text =>
      obtain ⟨own, others⟩ := @upTo_part ['#'] text rest (plain text rfl) (tail.imp_right fun head => ⟨_, by simp, head⟩)
      change (some (upTo ['#'] (text ++ rest)), after ['#'] (text ++ rest)) = _
      rw [own, others]
  | none =>
      rcases tail with rfl | head
      · rfl
      · cases rest with
        | nil => rfl
        | cons c rest =>
            obtain rfl : c = '#' := by simpa using head
            rfl

theorem splitAuthority_text {authority : Option (List Char)} {path rest : List Char}
    (plain : ∀ text, authority = some text → ∀ c ∈ text, c ∉ ['/', '?', '#'])
    (rooted : authority.isSome → path = [] ∨ path.head? = some '/') (apart : authority = none → ¬['/', '/'] <+: path)
    (tail : rest = [] ∨ ∃ c ∈ ['?', '#'], rest.head? = some c) :
    splitAuthority ((authority.elim [] fun authority => '/' :: '/' :: authority) ++ (path ++ rest)) =
      (authority, path ++ rest) := by
  cases authority with
  | some authority =>
      have stop : path ++ rest = [] ∨ ∃ c ∈ ['/', '?', '#'], (path ++ rest).head? = some c := by
        rcases rooted rfl with rfl | head
        · exact tail.imp_right fun ⟨c, member, head⟩ => ⟨c, List.mem_cons_of_mem _ member, head⟩
        · refine .inr ⟨'/', by simp, ?_⟩
          rw [List.head?_append, head]
          rfl
      obtain ⟨own, others⟩ := upTo_part (plain authority rfl) stop
      change (some (upTo ['/', '?', '#'] (authority ++ _)), after ['/', '?', '#'] (authority ++ _)) = _
      rw [own, others]
  | none =>
      have separate := apart rfl
      have noSlash : ∀ more, rest ≠ '/' :: more := by
        rintro more rfl
        rcases tail with impossible | ⟨c, member, head⟩
        · cases impossible
        · obtain rfl : '/' = c := by simpa using head
          simp at member
      change splitAuthority (path ++ rest) = _
      unfold splitAuthority
      split
      · rename_i more shape
        exfalso
        rcases path with _ | ⟨a, _ | ⟨b, path⟩⟩
        · exact noSlash _ shape
        · exact noSlash _ (List.cons.inj shape).2
        · have first := (List.cons.inj shape).1
          have second := (List.cons.inj (List.cons.inj shape).2).1
          exact separate ⟨path, by rw [first, second]; rfl⟩
      · rfl

/-- Formed components are read back. -/
theorem split_recompose {reference : Reference} (formed : reference.Formed) : split (recompose reference) = reference := by
  obtain ⟨scheme, authority, path, query, fragment⟩ := reference
  obtain ⟨⟨schemeChars, authorityChars, rooted, pathChars, queryChars⟩, absolute, single⟩ := formed
  dsimp only at *
  obtain ⟨name, rfl⟩ := Option.isSome_iff_exists.mp absolute
  obtain ⟨filled, nameChars⟩ := schemeChars name rfl
  have ending : (fragment.elim [] fun fragment => '#' :: fragment) = [] ∨
      (fragment.elim [] fun fragment => '#' :: fragment).head? = some '#' := by
    cases fragment with
    | none => exact .inl rfl
    | some fragment => exact .inr rfl
  have queried := splitQuery_text queryChars ending
  have next : (query.elim [] fun query => '?' :: query) ++ (fragment.elim [] fun fragment => '#' :: fragment) = [] ∨
      ∃ c ∈ ['?', '#'], ((query.elim [] fun query => '?' :: query) ++
        (fragment.elim [] fun fragment => '#' :: fragment)).head? = some c := by
    cases query with
    | some query => exact .inr ⟨'?', by simp, rfl⟩
    | none => exact ending.imp_right fun head => ⟨'#', by simp, head⟩
  obtain ⟨pathOwn, pathRest⟩ := upTo_part pathChars next
  have named : ∀ rest, splitScheme (name ++ ':' :: rest) = (some name, rest) := by
    intro rest
    obtain ⟨own, others⟩ := @upTo_part [':', '/', '?', '#'] name (':' :: rest) nameChars (.inr ⟨':', by simp, rfl⟩)
    obtain ⟨c, name, rfl⟩ := List.exists_cons_of_ne_nil filled
    rw [splitScheme, own, others]
    rfl
  have text : recompose ⟨some name, authority, path, query, fragment⟩ = name ++ ':' ::
      ((authority.elim [] fun authority => '/' :: '/' :: authority) ++ (path ++
        ((query.elim [] fun query => '?' :: query) ++ fragment.elim [] fun fragment => '#' :: fragment))) := by
    simp [recompose]
  rw [text, split, named]
  dsimp only
  rw [splitAuthority_text authorityChars rooted single next]
  dsimp only
  rw [pathOwn, pathRest, queried]
  dsimp only
  rw [splitFragment_text]

/-- The components of a text are plain. -/
theorem split_plain (text : List Char) : (split text).Plain := by
  have upToChars : ∀ {ends text : List Char}, ∀ c ∈ upTo ends text, c ∉ ends := by
    intro ends text c member
    simpa using List.mem_takeWhile_imp member
  refine ⟨?_, ?_, ?_, upToChars, ?_⟩
  · intro scheme here
    change (splitScheme text).1 = some scheme at here
    unfold splitScheme at here
    split at here
    · rename_i c name rest before next
      cases here
      refine ⟨List.cons_ne_nil _ _, fun c member => ?_⟩
      rw [← before] at member
      exact upToChars c member
    · cases here
  · intro authority here
    change (splitAuthority (splitScheme text).2).1 = some authority at here
    unfold splitAuthority at here
    split at here
    · cases here
      exact upToChars
    · cases here
  · intro here
    change (splitAuthority (splitScheme text).2).1.isSome at here
    change upTo ['?', '#'] (splitAuthority (splitScheme text).2).2 = [] ∨
      (upTo ['?', '#'] (splitAuthority (splitScheme text).2).2).head? = some '/'
    unfold splitAuthority at here ⊢
    split at here
    · rename_i rest shape
      dsimp only
      clear shape
      rcases after_ends ['/', '?', '#'] rest with none | ⟨c, member, head⟩
      · rw [none]
        exact .inl rfl
      · cases shape : after ['/', '?', '#'] rest with
        | nil => exact .inl rfl
        | cons d tail =>
            rw [shape] at head
            obtain rfl : d = c := by simpa using head
            rcases List.mem_cons.mp member with rfl | other
            · exact .inr rfl
            · exact .inl (List.takeWhile_cons_of_neg (by
                simp only [decide_eq_true_eq, not_not]
                exact other))
    · cases here
  · intro query here
    change (splitQuery _).1 = some query at here
    unfold splitQuery at here
    split at here
    · cases here
      exact upToChars
    · cases here

/-! ## What a resolution keeps -/

theorem mem_removeDots {c : Char} (input output : List Char) (dropped : Nat) :
    c ∈ (removeDots input output dropped).1 → c ∈ input ∨ c ∈ output ∨ c = '/' := by
  have part : ∀ {ends text : List Char}, c ∈ after ends text → c ∈ text :=
    fun member => (List.dropWhile_sublist _).subset member
  have part' : ∀ {ends text : List Char}, c ∈ upTo ends text → c ∈ text :=
    fun member => (List.takeWhile_sublist _).subset member
  have left : ∀ {rest : List Char}, c ∈ remaining rest → c ∈ rest ∨ c = '/' := by
    intro rest member
    unfold remaining at member
    split at member
    · exact .inr (List.mem_singleton.mp member)
    · exact .inl (part member)
  induction input, output, dropped using removeDots.induct with
  | case1 output dropped =>
      rw [removeDots]
      exact fun member => .inr (.inl member)
  | case2 rest output dropped dot ih =>
      rw [removeDots, if_pos rfl, if_pos dot]
      intro member
      rcases ih member with more | more | more
      · exact (left more).imp (List.mem_cons_of_mem _) .inr
      · exact .inr (.inl more)
      · exact .inr (.inr more)
  | case3 rest output dropped notDot dots ih =>
      rw [removeDots, if_pos rfl, if_neg notDot, if_pos dots]
      intro member
      rcases ih member with more | more | more
      · exact (left more).imp (List.mem_cons_of_mem _) .inr
      · have inside : c ∈ output := List.mem_reverse.mp ((List.dropWhile_sublist _).subset
          (List.mem_of_mem_drop (List.mem_reverse.mp more)))
        exact .inr (.inl inside)
      · exact .inr (.inr more)
  | case4 rest output dropped notDot notDots ih =>
      rw [removeDots, if_pos rfl, if_neg notDot, if_neg notDots]
      intro member
      rcases ih member with more | more | more
      · exact .inl (List.mem_cons_of_mem _ (part more))
      · rcases List.mem_append.mp more with before | here
        · exact .inr (.inl before)
        · rcases List.mem_cons.mp here with slash | here
          · exact .inr (.inr slash)
          · exact .inl (List.mem_cons_of_mem _ (part' here))
      · exact .inr (.inr more)
  | case5 d rest output dropped slash dot ih =>
      rw [removeDots, if_neg slash, if_pos dot]
      intro member
      rcases ih member with more | more
      · exact .inl (part (List.mem_of_mem_drop more))
      · exact .inr more
  | case6 d rest output dropped slash notDot ih =>
      rw [removeDots, if_neg slash, if_neg notDot]
      intro member
      rcases ih member with more | more | more
      · exact .inl (part more)
      · rcases List.mem_append.mp more with before | here
        · exact .inr (.inl before)
        · exact .inl (part' here)
      · exact .inr (.inr more)

/-- A rooted path stays one. -/
theorem removeDots_rooted (input output : List Char) (dropped : Nat) :
    (input = [] ∨ input.head? = some '/') → (output = [] ∨ output.head? = some '/') →
      ((removeDots input output dropped).1 = [] ∨ (removeDots input output dropped).1.head? = some '/') := by
  have stays : ∀ rest, remaining rest = [] ∨ (remaining rest).head? = some '/' := by
    intro rest
    unfold remaining
    split
    · exact .inr rfl
    · exact after_head rest
  have shorter : ∀ output : List Char, output = [] ∨ output.head? = some '/' →
      removeSegment output = [] ∨ (removeSegment output).head? = some '/' := by
    intro output start
    rcases exists_last output with none | ⟨before, segment, rfl, plain⟩
    · exact .inl (removeSegment_plain none)
    · rw [removeSegment_concat before plain]
      cases before with
      | nil => exact .inl rfl
      | cons c before =>
          refine .inr ?_
          simpa using start
  induction input, output, dropped using removeDots.induct with
  | case1 output dropped =>
      intro _ start
      rwa [removeDots]
  | case2 rest output dropped dot ih =>
      intro _ start
      rw [removeDots, if_pos rfl, if_pos dot]
      exact ih (stays rest) start
  | case3 rest output dropped notDot dots ih =>
      intro _ start
      rw [removeDots, if_pos rfl, if_neg notDot, if_pos dots]
      exact ih (stays rest) (shorter output start)
  | case4 rest output dropped notDot notDots ih =>
      intro _ start
      rw [removeDots, if_pos rfl, if_neg notDot, if_neg notDots]
      refine ih (after_head rest) (.inr ?_)
      rcases start with rfl | start
      · rfl
      · rw [List.head?_append, start]
        rfl
  | case5 d rest output dropped slash dot ih =>
      intro place _
      exact absurd (by simpa using place) slash
  | case6 d rest output dropped slash notDot ih =>
      intro place _
      exact absurd (by simpa using place) slash

/-- A merged path is plain, and rooted under an authority. -/
theorem merge_plain {base : Reference} (plain : base.Plain) {path : List Char} (chars : ∀ c ∈ path, c ∉ ['?', '#']) :
    (∀ c ∈ merge base path, c ∉ ['?', '#']) ∧
      (base.authority.isSome → (merge base path).head? = some '/') := by
  unfold merge
  split
  · refine ⟨fun c member => ?_, fun _ => rfl⟩
    rcases List.mem_cons.mp member with rfl | inside
    · decide
    · exact chars c inside
  · rename_i other
    refine ⟨fun c member => ?_, fun some => ?_⟩
    · rcases List.mem_append.mp member with before | inside
      · exact plain.path c (List.mem_reverse.mp ((List.dropWhile_sublist _).subset (List.mem_reverse.mp before)))
      · exact chars c inside
    · rcases plain.rooted some with empty | head
      · exact absurd ⟨some, empty⟩ other
      · rcases exists_last base.path with none | ⟨before, segment, shape, last⟩
        · exact absurd (List.mem_of_mem_head? head) none
        · have all : ∀ c ∈ segment.reverse, (fun c => decide (c ≠ '/')) c = true := by
            intro c member
            have other : c ≠ '/' := fun same => last (same ▸ List.mem_reverse.mp member)
            simpa using other
          rw [shape] at head ⊢
          rw [List.reverse_append, List.reverse_cons, List.append_assoc, List.dropWhile_append_of_pos all]
          cases before with
          | nil => rfl
          | cons c before => simpa using head

theorem resolved_plain {base reference : Reference} (plainBase : base.Plain) (plain : reference.Plain) :
    (resolved base reference).Plain := by
  have removed : ∀ path : List Char, (∀ c ∈ path, c ∉ ['?', '#']) →
      ∀ c ∈ (removeDots path [] 0).1, c ∉ ['?', '#'] := by
    intro path chars c member
    rcases mem_removeDots path [] 0 member with inside | impossible | rfl
    · exact chars c inside
    · cases impossible
    · decide
  have merged := merge_plain plainBase plain.path
  refine ⟨?_, ?_, ?_, ?_, ?_⟩
  · intro scheme here
    rcases Option.or_eq_some_iff.mp here with own | ⟨-, other⟩
    · exact plain.scheme scheme own
    · exact plainBase.scheme scheme other
  · intro authority here
    change (if _ then _ else _) = some authority at here
    split at here
    · exact plain.authority authority here
    · rcases Option.or_eq_some_iff.mp here with own | ⟨-, other⟩
      · exact plain.authority authority own
      · exact plainBase.authority authority other
  · intro here
    change (if _ then _ else _ : Option (List Char)).isSome at here
    change (dotted base reference).elim _ _ = [] ∨ List.head? ((dotted base reference).elim _ _) = some '/'
    unfold dotted
    split
    · rename_i own
      refine removeDots_rooted _ _ _ (plain.rooted ?_) (.inl rfl)
      split at here
      · exact here
      · rename_i none
        exact own.resolve_left none
    · rename_i relative
      obtain ⟨noScheme, noAuthority⟩ := not_or.mp relative
      rw [if_neg noScheme, Option.not_isSome_iff_eq_none.mp noAuthority, Option.none_or] at here
      split
      · exact plainBase.rooted here
      · split
        · rename_i head
          exact removeDots_rooted _ _ _ (.inr head) (.inl rfl)
        · exact removeDots_rooted _ _ _ (.inr (merged.2 here)) (.inl rfl)
  · change ∀ c ∈ (dotted base reference).elim _ _, _
    unfold dotted
    split
    · exact removed _ plain.path
    · split
      · exact plainBase.path
      · split
        · exact removed _ plain.path
        · exact removed _ merged.1
  · intro query here
    change (if _ then _ else _) = some query at here
    split at here
    · exact plain.query query here
    · rcases Option.or_eq_some_iff.mp here with own | ⟨-, other⟩
      · exact plain.query query own
      · exact plainBase.query query other

theorem apart_formed {reference : Reference} (plain : reference.Plain) (absolute : reference.scheme.isSome) :
    (apart reference).Formed := by
  unfold apart
  split
  · rename_i here
    refine ⟨⟨plain.scheme, plain.authority, fun _ => .inr rfl, ?_, plain.query⟩, absolute, fun _ => ?_⟩
    · intro c member
      rcases List.mem_cons.mp member with rfl | member
      · decide
      · rcases List.mem_cons.mp member with rfl | member
        · decide
        · exact plain.path c member
    · rintro ⟨rest, same⟩
      simp at same
  · rename_i other
    exact ⟨plain, absolute, fun none starts => other ⟨none, starts⟩⟩

/-! ## Rooted bases -/

theorem splitOn_plain_segments : ∀ (n : Nat) (path : List Char), path.length ≤ n →
    (∀ segment ∈ path.splitOn '/', '/' ∉ segment) ∧ pathOf (path.splitOn '/') = '/' :: path ∧
      path.splitOn '/' ≠ [] := by
  intro n
  induction n with
  | zero =>
      intro path short
      obtain rfl := List.length_eq_zero_iff.mp (Nat.le_zero.mp short)
      rw [splitOn_plain List.not_mem_nil]
      exact ⟨fun segment member => List.mem_singleton.mp member ▸ List.not_mem_nil, rfl, List.cons_ne_nil _ _⟩
  | succ n ih =>
      intro path short
      rcases exists_last path with none | ⟨before, segment, rfl, plain⟩
      · rw [splitOn_plain none, pathOf_singleton]
        exact ⟨fun segment member => List.mem_singleton.mp member ▸ none, rfl, List.cons_ne_nil _ _⟩
      · rw [List.length_append, List.length_cons] at short
        obtain ⟨inner, whole, -⟩ := ih before (by omega)
        rw [splitOn_slash, splitOn_plain plain, pathOf_append, pathOf_singleton, whole]
        refine ⟨fun other member => ?_, rfl, by simp⟩
        rcases List.mem_append.mp member with inside | inside
        · exact inner other inside
        · exact List.mem_singleton.mp inside ▸ plain

theorem not_slash_mem_splitOn {path segment : List Char} (member : segment ∈ path.splitOn '/') : '/' ∉ segment :=
  (splitOn_plain_segments _ path le_rfl).1 segment member

theorem pathOf_splitOn (path : List Char) : pathOf (path.splitOn '/') = '/' :: path :=
  (splitOn_plain_segments _ path le_rfl).2.1

theorem splitOn_ne_nil (path : List Char) : path.splitOn '/' ≠ [] := (splitOn_plain_segments _ path le_rfl).2.2

/-- A walk over some segments ends below the root. -/
theorem walk_ne_nil (segments : List (List Char)) : ∀ (stack : List (List Char)) (dropped : Nat),
    segments ≠ [] → (walk segments stack dropped).1 ≠ [] := by
  induction segments with
  | nil =>
      intro _ _ none
      exact absurd rfl none
  | cons segment rest ih =>
      intro stack dropped _
      by_cases last : rest = []
      · subst last
        rw [walk]
        split
        · simp [walk]
        · split
          · simp [walk]
          · simp [walk]
      · rw [walk]
        split
        · exact ih _ _ last
        · split
          · exact ih _ _ last
          · exact ih _ _ last

/-- The segments before the last one of a rooted path. -/
def directory (path : List Char) : List (List Char) := ((path.drop 1).splitOn '/').dropLast

/-- A rooted path is its directory and a last segment. -/
theorem exists_directory {path : List Char} (rooted : path.head? = some '/') :
    ∃ last, '/' ∉ last ∧ path = pathOf (directory path) ++ '/' :: last ∧
      path.splitOn '/' = [] :: directory path ++ [last] := by
  obtain ⟨tail, rfl⟩ : ∃ tail, path = '/' :: tail := by
    cases path with
    | nil => cases rooted
    | cons c tail => exact ⟨tail, by rw [Option.some.inj rooted]⟩
  have filled := splitOn_ne_nil tail
  have parts : directory ('/' :: tail) ++ [(tail.splitOn '/').getLast filled] = tail.splitOn '/' :=
    List.dropLast_append_getLast filled
  refine ⟨(tail.splitOn '/').getLast filled, not_slash_mem_splitOn (List.getLast_mem filled), ?_, ?_⟩
  · have whole := pathOf_splitOn tail
    rw [← parts, pathOf_append, pathOf_singleton] at whole
    exact whole.symm
  · have cut := splitOn_slash [] tail
    rw [splitOn_plain List.not_mem_nil, List.nil_append] at cut
    rw [List.cons_append, parts, cut]
    rfl

theorem directory_plain {path : List Char} (clean : Clean path) (rooted : path.head? = some '/') :
    ∀ segment ∈ directory path, '/' ∉ segment ∧ ¬Dot segment := by
  obtain ⟨last, -, -, parts⟩ := exists_directory rooted
  intro segment member
  have inside : segment ∈ path.splitOn '/' := by
    rw [parts]
    exact List.mem_append_left _ (List.mem_cons_of_mem _ member)
  exact ⟨not_slash_mem_splitOn inside, clean segment inside⟩

/-- A path below a rooted base without dots is walked from the directory of the base. -/
theorem removeDots_merge {base : Reference} (clean : Clean base.path) (rooted : base.path.head? = some '/')
    (path : List Char) : removeDots (merge base path) [] 0 =
      (pathOf (walk (path.splitOn '/') (directory base.path) 0).1,
        (walk (path.splitOn '/') (directory base.path) 0).2) := by
  obtain ⟨last, plain, shape, -⟩ := exists_directory rooted
  have segments := directory_plain clean rooted
  have before : (base.path.reverse.dropWhile (· ≠ '/')).reverse = pathOf (directory base.path) ++ ['/'] := by
    have all : ∀ c ∈ last.reverse, (fun c => decide (c ≠ '/')) c = true := by
      intro c member
      have other : c ≠ '/' := fun same => plain (same ▸ List.mem_reverse.mp member)
      simpa using other
    conv => lhs; rw [shape]
    rw [List.reverse_append, List.reverse_cons, List.append_assoc, List.dropWhile_append_of_pos all]
    simp
  have merged : merge base path = pathOf (directory base.path ++ path.splitOn '/') := by
    rw [merge, if_neg (fun both => by rw [both.2] at rooted; cases rooted), before, pathOf_append, pathOf_splitOn,
      List.append_assoc]
    rfl
  have whole := removeDots_pathOf (directory base.path ++ path.splitOn '/') [] 0
    (fun segment member => (List.mem_append.mp member).elim (fun inside => (segments segment inside).1)
      not_slash_mem_splitOn) (fun _ impossible => absurd impossible List.not_mem_nil)
  rw [walk_push _ _ _ _ fun segment member => (segments segment member).2, List.nil_append] at whole
  rw [merged]
  exact whole

/-- The text of a resolution has the components of the resolution. -/
theorem split_resolved {base reference : List Char} (absolute : (split base).scheme.isSome) :
    split (recompose (apart (resolved (split base) (split reference)))) =
      apart (resolved (split base) (split reference)) := by
  refine split_recompose (apart_formed (resolved_plain (split_plain base) (split_plain reference)) ?_)
  change (Option.or _ _).isSome
  rw [Option.isSome_or, absolute, Bool.or_true]

end Metewand.Lib.Uri
