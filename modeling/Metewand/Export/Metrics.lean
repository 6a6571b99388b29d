import Metewand.Core.Deserializer
import Metewand.Core.Parameters
import Metewand.Lib.Pointer

/-!
# Metric values

`metric_values` of `core/export.rs` flattens the metrics of a record: one row for each value that is
no object with members, under the pointer of its keys.  `leaves` is the same by paths of keys, and
`rebuild` puts rows together again.
-/

namespace Metewand.Export

open Lib

/-- A pointer and the value it leads to. -/
abbrev MetricValue := String × Json

def escapeKey (key : String) : String := String.ofList (Pointer.escape key.toList)

/-- Entries in key order. -/
def sorted {α : Type} (entries : List (String × α)) : List (String × α) :=
  entries.foldl (fun sorted entry => insertEntry entry.1 entry.2 sorted) []

mutual

def visit (pointer : String) : Json → List MetricValue
  | .obj members =>
      if members.isEmpty then [(pointer, .obj members)]
      else (sorted (visitMembers pointer members)).flatMap Prod.snd
  | value => [(pointer, value)]

/-- The rows of each member. -/
def visitMembers (pointer : String) : List (String × Json) → List (String × List MetricValue)
  | [] => []
  | (key, value) :: rest =>
      (key, visit (pointer ++ "/" ++ escapeKey key) value) :: visitMembers pointer rest

end

def metricValues : Json → List MetricValue
  | .obj members => if members.isEmpty then [] else visit "" (.obj members)
  | _ => []

/-! ## Pointers into a value -/

/-- `parse_index` of the JSON library. -/
def parseIndex (token : String) : Option Nat :=
  if token.startsWith "+" ∨ (token.startsWith "0" ∧ token.length ≠ 1) then none else token.toNat?

def resolveToken (target : Json) (token : String) : Option Json :=
  match target with
  | .obj members => Json.lookupMember token members
  | .arr items => (parseIndex token).bind fun index => items[index]?
  | _ => none

def pointerTokens (pointer : String) : List String := (Pointer.tokens pointer.toList).map String.ofList

/-- The value a pointer leads to. -/
def pointer (value : Json) (pointer : String) : Option Json :=
  if pointer.toList = [] then some value
  else if pointer.toList.head? ≠ some '/' then none
  else (pointerTokens pointer).foldlM resolveToken value

/-! ## Paths -/

def pointerOf (path : List String) : String := String.ofList (Pointer.text (path.map String.toList))

mutual

/-- The values that are no object with members, each with its path. -/
def leaves : Json → List (List String × Json)
  | .obj members => if members.isEmpty then [([], .obj members)] else memberLeaves members
  | value => [([], value)]

def memberLeaves : List (String × Json) → List (List String × Json)
  | [] => []
  | (key, value) :: rest => (leaves value).map (fun leaf => (key :: leaf.1, leaf.2)) ++ memberLeaves rest

end

/-- Put a value at a path, with the objects on the way. -/
def setPath (value : Json) : List String → Json → Json
  | [], _ => value
  | key :: path, .obj members =>
      .obj (Json.insertMember key (setPath value path ((Json.lookupMember key members).getD (.obj []))) members)
  | key :: path, _ => .obj [(key, setPath value path (.obj []))]

/-- The object that rows come from. -/
def rebuild (rows : List MetricValue) : Json :=
  rows.foldl (fun value row => setPath row.2 (pointerTokens row.1) value) (.obj [])

/-! ## Rows are leaves -/

theorem sorted_ascending {α : Type} {entries : List (String × α)} (ascending : Ascending entries) :
    sorted entries = entries := by
  have from' : ∀ before, Ascending (before ++ entries) →
      entries.foldl (fun sorted entry => insertEntry entry.1 entry.2 sorted) before = before ++ entries := by
    induction entries with
    | nil => exact fun before _ => (List.append_nil before).symm
    | cons entry rest ih =>
        intro before whole
        have above : ∀ other ∈ before, other.1 < entry.1 := fun other member =>
          (List.pairwise_append.mp whole).2.2 other member entry List.mem_cons_self
        rw [List.foldl_cons, insertEntry_append above, ih (List.pairwise_cons.mp ascending).2]
        · rw [List.append_assoc, List.singleton_append]
        · rwa [List.append_assoc, List.singleton_append]
  exact from' [] ascending

theorem visitMembers_keys (pointer : String) (members : List (String × Json)) :
    (visitMembers pointer members).map Prod.fst = members.map Prod.fst := by
  induction members with
  | nil => rfl
  | cons member rest ih => rw [visitMembers, List.map_cons, List.map_cons, ih]

theorem ascending_of_keys {α β : Type} {entries : List (String × α)} {others : List (String × β)}
    (same : entries.map Prod.fst = others.map Prod.fst) (ascending : Ascending others) : Ascending entries := by
  have keys : (others.map Prod.fst).Pairwise (· < ·) := List.pairwise_map.mpr ascending
  rw [← same] at keys
  exact List.pairwise_map.mp keys

theorem pointerOf_nil : pointerOf [] = "" := rfl

theorem pointerOf_cons (key : String) (path : List String) :
    pointerOf (key :: path) = "/" ++ escapeKey key ++ pointerOf path := by
  refine String.toList_inj.mp ?_
  simp [pointerOf, escapeKey, Pointer.text_cons]

/-- The rows below a pointer are the leaves, each under its own path. -/
theorem visit_eq {v : Json} (ordered : v.Ordered) : ∀ pointer : String,
    visit pointer v = (leaves v).map fun leaf => (pointer ++ pointerOf leaf.1, leaf.2) := by
  induction v using Json.induction with
  | null | bool | num | str | arr => intro pointer; simp [visit, leaves, pointerOf_nil]
  | obj members ih =>
      intro pointer
      obtain ⟨ascending, each⟩ := ordered
      cases members with
      | nil => simp [visit, leaves, pointerOf_nil]
      | cons member rest =>
          have keyed := ascending_of_keys (visitMembers_keys pointer (member :: rest)) ascending
          have below : ∀ members : List (String × Json), (∀ m ∈ members, m ∈ member :: rest) →
              (visitMembers pointer members).flatMap Prod.snd =
                (memberLeaves members).map fun leaf => (pointer ++ pointerOf leaf.1, leaf.2) := by
            intro members among
            induction members with
            | nil => rfl
            | cons first others tail =>
                obtain ⟨key, value⟩ := first
                have here := among _ List.mem_cons_self
                rw [visitMembers, List.flatMap_cons, memberLeaves, List.map_append, List.map_map,
                  ih _ here (Json.orderedMembers_iff.mp each _ here),
                  tail fun m inside => among m (List.mem_cons_of_mem _ inside)]
                congr 1
                refine List.map_congr_left fun leaf _ => ?_
                simp [pointerOf_cons, String.append_assoc]
          rw [visit, sorted_ascending keyed, leaves]
          exact below _ fun _ inside => inside

/-! ## Leaves -/

/-- The value at a path of keys. -/
def atPath : List String → Json → Option Json
  | [], value => some value
  | key :: path, .obj members => (Json.lookupMember key members).bind (atPath path)
  | _ :: _, _ => none

theorem mem_memberLeaves {members : List (String × Json)} {path : List String} {leaf : Json} :
    (path, leaf) ∈ memberLeaves members ↔
      ∃ member ∈ members, ∃ rest, path = member.1 :: rest ∧ (rest, leaf) ∈ leaves member.2 := by
  induction members with
  | nil => simp [memberLeaves]
  | cons member others ih =>
      obtain ⟨key, value⟩ := member
      rw [memberLeaves, List.mem_append, ih]
      constructor
      · rintro (here | ⟨member, inside, rest, rfl, there⟩)
        · obtain ⟨⟨rest, leaf⟩, inner, same⟩ := List.mem_map.mp here
          cases same
          exact ⟨_, List.mem_cons_self, rest, rfl, inner⟩
        · exact ⟨member, List.mem_cons_of_mem _ inside, rest, rfl, there⟩
      · rintro ⟨member, inside, rest, rfl, there⟩
        rcases List.mem_cons.mp inside with rfl | later
        · exact .inl (List.mem_map.mpr ⟨(rest, leaf), there, rfl⟩)
        · exact .inr ⟨member, later, rest, rfl, there⟩

/-- A leaf stands at its path. -/
theorem atPath_of_leaf {v : Json} (ordered : v.Ordered) : ∀ {path : List String} {leaf : Json},
    (path, leaf) ∈ leaves v → atPath path v = some leaf := by
  induction v using Json.induction with
  | null | bool | num | str | arr =>
      intro path leaf member
      cases List.mem_singleton.mp member
      rfl
  | obj members ih =>
      intro path leaf member
      obtain ⟨ascending, each⟩ := ordered
      rw [leaves] at member
      split at member
      · cases List.mem_singleton.mp member
        rfl
      · obtain ⟨first, inside, rest, rfl, there⟩ := mem_memberLeaves.mp member
        rw [atPath, Json.lookupMember_eq, ascending.lookup_of_mem inside, Option.bind_some]
        exact ih first inside (Json.orderedMembers_iff.mp each first inside) there

/-- Paths come in ascending order. -/
theorem leaves_ascending {v : Json} (ordered : v.Ordered) :
    ((leaves v).map Prod.fst).Pairwise (· < ·) := by
  induction v using Json.induction with
  | null | bool | num | str | arr => exact List.pairwise_singleton _ _
  | obj members ih =>
      obtain ⟨ascending, each⟩ := ordered
      rw [leaves]
      split
      · exact List.pairwise_singleton _ _
      · rename_i some
        clear some
        induction members with
        | nil => exact .nil
        | cons member rest tail =>
            obtain ⟨key, value⟩ := member
            obtain ⟨above, ascending⟩ := List.pairwise_cons.mp ascending
            rw [memberLeaves, List.map_append, List.map_map, List.pairwise_append]
            refine ⟨?_, tail (fun m inside => ih m (List.mem_cons_of_mem _ inside)) ascending each.2, ?_⟩
            · have inner := ih _ List.mem_cons_self each.1
              rw [List.pairwise_map] at inner ⊢
              exact inner.imp fun less => List.cons_lt_cons_iff.mpr (.inr ⟨rfl, less⟩)
            · intro a left b right
              obtain ⟨leaf, -, rfl⟩ := List.mem_map.mp left
              obtain ⟨⟨path, value'⟩, there, rfl⟩ := List.mem_map.mp right
              obtain ⟨member, inside, rest', rfl, -⟩ := mem_memberLeaves.mp there
              exact List.cons_lt_cons_iff.mpr (.inl (above member inside))

/-! ## Rebuilding -/

theorem insertMember_insertMember (key : String) (value other : Json) (members : List (String × Json)) :
    Json.insertMember key value (Json.insertMember key other members) = Json.insertMember key value members := by
  induction members with
  | nil => simp [Json.insertMember]
  | cons member rest ih =>
      obtain ⟨k, v⟩ := member
      by_cases same : key = k
      · simp [Json.insertMember, same]
      · by_cases before : key < k
        · simp [Json.insertMember, same, before]
        · simp [Json.insertMember, same, before, ih]

/-- Putting values below a key puts them below the member of the key. -/
theorem setPaths_member (key : String) (rows : List (List String × Json)) : ∀ {members : List (String × Json)},
    rows ≠ [] →
      (rows.map fun row => (key :: row.1, row.2)).foldl (fun value row => setPath row.2 row.1 value)
          (.obj members) =
        .obj (Json.insertMember key
          (rows.foldl (fun value row => setPath row.2 row.1 value)
            ((Json.lookupMember key members).getD (.obj []))) members) := by
  induction rows with
  | nil => exact fun none => absurd rfl none
  | cons row rows ih =>
      intro members _
      rw [List.map_cons, List.foldl_cons, List.foldl_cons, setPath]
      by_cases last : rows = []
      · subst last
        rfl
      · rw [ih last, Json.lookup_insertMember, if_pos rfl, Option.getD_some, insertMember_insertMember]

theorem leaves_ne_nil (v : Json) : leaves v ≠ [] := by
  induction v using Json.induction with
  | null | bool | num | str | arr => exact List.cons_ne_nil _ _
  | obj members ih =>
      cases members with
      | nil => exact List.cons_ne_nil _ _
      | cons member rest =>
          rw [leaves, if_neg (by simp), memberLeaves]
          intro none
          have inner := (List.append_eq_nil_iff.mp none).1
          exact ih member List.mem_cons_self (List.map_eq_nil_iff.mp inner)

/-- The leaves of a value rebuild it. -/
theorem setPaths_leaves {v : Json} (ordered : v.Ordered) :
    (leaves v).foldl (fun value row => setPath row.2 row.1 value) (.obj []) = v := by
  induction v using Json.induction with
  | null | bool | num | str | arr => rfl
  | obj members ih =>
      obtain ⟨ascending, each⟩ := ordered
      rw [leaves]
      split
      · rename_i none
        rw [List.isEmpty_iff.mp none]
        rfl
      · rename_i some
        have from' : ∀ before, Ascending (before ++ members) →
            (memberLeaves members).foldl (fun value row => setPath row.2 row.1 value) (.obj before) =
              .obj (before ++ members) := by
          clear ascending some
          induction members with
          | nil => exact fun before _ => congrArg Json.obj (List.append_nil before).symm
          | cons member rest tail =>
              obtain ⟨key, value⟩ := member
              intro before whole
              have above : ∀ other ∈ before, other.1 < key := fun other inside =>
                (List.pairwise_append.mp whole).2.2 other inside _ List.mem_cons_self
              have absent : Json.lookupMember key before = none := by
                rw [Json.lookupMember_eq, Option.eq_none_iff_forall_ne_some]
                exact fun value found => lt_irrefl key (above _ (mem_of_lookup found))
              rw [memberLeaves, List.foldl_append, setPaths_member key _ (leaves_ne_nil value), absent,
                Option.getD_none, ih _ List.mem_cons_self each.1, Json.insertMember_eq, insertEntry_append above,
                tail (fun m inside => ih m (List.mem_cons_of_mem _ inside)) each.2]
              · rw [List.append_assoc, List.singleton_append]
              · simpa using whole
        exact from' [] ascending

/-! ## Pointers of leaves -/

theorem pointerTokens_pointerOf (path : List String) : pointerTokens (pointerOf path) = path := by
  rw [pointerTokens, pointerOf, String.toList_ofList, Pointer.tokens_text, List.map_map]
  have each : String.ofList ∘ String.toList = id := funext fun _ => String.ofList_toList
  rw [each, List.map_id]

theorem pointerOf_injective {path path' : List String} (same : pointerOf path = pointerOf path') : path = path' := by
  rw [← pointerTokens_pointerOf path, same, pointerTokens_pointerOf]

theorem resolve_path (path : List String) : ∀ {v leaf : Json}, atPath path v = some leaf →
    path.foldlM resolveToken v = some leaf := by
  induction path with
  | nil => exact fun found => found
  | cons key path ih =>
      intro v leaf found
      cases v with
      | obj members =>
          rw [atPath] at found
          obtain ⟨next, member, rest⟩ := Option.bind_eq_some_iff.mp found
          rw [List.foldlM_cons, resolveToken, member]
          exact ih rest
      | null | bool | num | str | arr => cases found

theorem pointer_pointerOf {path : List String} {v leaf : Json} (found : atPath path v = some leaf) :
    pointer v (pointerOf path) = some leaf := by
  have resolved := resolve_path path found
  cases path with
  | nil =>
      cases found
      exact if_pos rfl
  | cons key path =>
      have slash : (pointerOf (key :: path)).toList.head? = some '/' := by
        rw [pointerOf, String.toList_ofList, List.map_cons, Pointer.text_cons, List.head?_cons]
      have filled : (pointerOf (key :: path)).toList ≠ [] := by
        intro empty
        rw [empty] at slash
        cases slash
      rw [pointer, if_neg filled, if_neg (not_not.mpr slash), pointerTokens_pointerOf]
      exact resolved

/-- The metric values of an object: distinct pointers in the order of their keys, each leading to its
value, from which the object can be rebuilt. -/
theorem metricValues_lossless {members : List (String × Json)} (ordered : (Json.obj members).Ordered) :
    ∃ paths : List (List String), (metricValues (.obj members)).map Prod.fst = paths.map pointerOf ∧
      paths.Pairwise (· < ·) ∧ ((metricValues (.obj members)).map Prod.fst).Nodup ∧
      (∀ row ∈ metricValues (.obj members), pointer (.obj members) row.1 = some row.2) ∧
      rebuild (metricValues (.obj members)) = .obj members := by
  cases members with
  | nil => exact ⟨[], rfl, .nil, .nil, fun row member => absurd member List.not_mem_nil, rfl⟩
  | cons member rest =>
      have rows : metricValues (.obj (member :: rest)) =
          (leaves (.obj (member :: rest))).map fun leaf => (pointerOf leaf.1, leaf.2) := by
        have visited := visit_eq ordered ""
        change visit "" _ = _
        simpa using visited
      have names : (metricValues (.obj (member :: rest))).map Prod.fst =
          ((leaves (.obj (member :: rest))).map Prod.fst).map pointerOf := by
        rw [rows, List.map_map, List.map_map]
        rfl
      have ascending := leaves_ascending ordered
      refine ⟨_, names, ascending, ?_, ?_, ?_⟩
      · rw [names]
        refine List.pairwise_map.mpr (ascending.imp fun less same => ?_)
        exact lt_irrefl _ (pointerOf_injective same ▸ less)
      · intro row inside
        rw [rows] at inside
        obtain ⟨⟨path, leaf⟩, there, rfl⟩ := List.mem_map.mp inside
        exact pointer_pointerOf (atPath_of_leaf ordered there)
      · have rebuilt := setPaths_leaves ordered
        rw [rebuild, rows, List.foldl_map]
        simpa only [pointerTokens_pointerOf] using rebuilt

end Metewand.Export
