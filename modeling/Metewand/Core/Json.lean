import Mathlib.Algebra.Order.Ring.Int
import Mathlib.Data.List.Lex
import Mathlib.Data.String.Basic

/-!
# JSON values and the canonical domain

`Json` is the value type that records, events and outcome documents are built
from.  Objects are kept in ascending key order with one member for each key, as
the ordered map behind the source's `serde_json::Value` keeps them; `Json.object`
builds one from a literal list of fields by ordered insertion.

`Json.normalize` is `normalize_value` of `core/canonical.rs`: integers must lie in
the safe binary64 range, other numbers must be finite, and an integral float
becomes the integer it denotes.  A value that `normalize` returns is a
`CanonicalValue` of the source, and `normalize` leaves it alone
(`Json.normalize_idempotent`).
-/

namespace Metewand

/-- Largest integer accepted in either direction. -/
def maxSafeInteger : Nat := 2 ^ 53 - 1

/-- A JSON number: an integer, or a binary64 value given by its bits. -/
inductive Number where
  | int (value : Int)
  | float (bits : UInt64)
  deriving DecidableEq, Repr

/-- A JSON value. -/
inductive Json where
  | null
  | bool (value : Bool)
  | num (value : Number)
  | str (value : String)
  | arr (items : List Json)
  | obj (members : List (String × Json))

namespace Json

mutual

/-- Structural equality is decidable, so documents can be compared. -/
def decEq : (a b : Json) → Decidable (a = b)
  | .null, .null => isTrue rfl
  | .bool a, .bool b => decidable_of_iff (a = b) (by simp)
  | .num a, .num b => decidable_of_iff (a = b) (by simp)
  | .str a, .str b => decidable_of_iff (a = b) (by simp)
  | .arr a, .arr b => @decidable_of_iff _ (a = b) (by simp) (decEqItems a b)
  | .obj a, .obj b => @decidable_of_iff _ (a = b) (by simp) (decEqMembers a b)
  | .null, .bool _ | .null, .num _ | .null, .str _ | .null, .arr _ | .null, .obj _
  | .bool _, .null | .bool _, .num _ | .bool _, .str _ | .bool _, .arr _ | .bool _, .obj _
  | .num _, .null | .num _, .bool _ | .num _, .str _ | .num _, .arr _ | .num _, .obj _
  | .str _, .null | .str _, .bool _ | .str _, .num _ | .str _, .arr _ | .str _, .obj _
  | .arr _, .null | .arr _, .bool _ | .arr _, .num _ | .arr _, .str _ | .arr _, .obj _
  | .obj _, .null | .obj _, .bool _ | .obj _, .num _ | .obj _, .str _ | .obj _, .arr _ =>
      isFalse (by simp)

def decEqItems : (a b : List Json) → Decidable (a = b)
  | [], [] => isTrue rfl
  | [], _ :: _ | _ :: _, [] => isFalse (by simp)
  | a :: as, b :: bs =>
      match decEq a b, decEqItems as bs with
      | isTrue h, isTrue t => isTrue (by rw [h, t])
      | isFalse h, _ => isFalse (by simp [h])
      | _, isFalse t => isFalse (by simp [t])

def decEqMembers : (a b : List (String × Json)) → Decidable (a = b)
  | [], [] => isTrue rfl
  | [], _ :: _ | _ :: _, [] => isFalse (by simp)
  | (k, a) :: as, (l, b) :: bs =>
      match instDecidableEqString k l, decEq a b, decEqMembers as bs with
      | isTrue h, isTrue t, isTrue u => isTrue (by rw [h, t, u])
      | isFalse h, _, _ => isFalse (by simp [h])
      | _, isFalse t, _ => isFalse (by simp [t])
      | _, _, isFalse u => isFalse (by simp [u])

end

instance : DecidableEq Json := decEq

instance : Inhabited Json := ⟨.null⟩

/-- An integer literal of a document. -/
def nat (n : Nat) : Json := .num (.int n)

/-- `null` for an absent optional value. -/
def ofOption {α : Type} (f : α → Json) : Option α → Json
  | none => .null
  | some a => f a

/-! ## Objects -/

/-- Ordered insertion; an existing member with the key is replaced. -/
def insertMember (key : String) (value : Json) : List (String × Json) → List (String × Json)
  | [] => [(key, value)]
  | (k, v) :: rest =>
      if key = k then (key, value) :: rest
      else if key < k then (key, value) :: (k, v) :: rest
      else (k, v) :: insertMember key value rest

/-- The object with the given fields, whose keys are distinct. -/
def object (fields : List (String × Json)) : Json :=
  .obj (fields.foldr (fun field members => insertMember field.1 field.2 members) [])

/-- Set one member of an object; other values stay as they are. -/
def set (v : Json) (key : String) (value : Json) : Json :=
  match v with
  | .obj members => .obj (insertMember key value members)
  | other => other

def lookupMember (key : String) : List (String × Json) → Option Json
  | [] => none
  | (k, v) :: rest => if key = k then some v else lookupMember key rest

/-- The member of an object; `null` when it is missing or the value is no object. -/
def get (key : String) : Json → Json
  | .obj members => (lookupMember key members).getD .null
  | _ => .null

def asStr? : Json → Option String
  | .str s => some s
  | _ => none

def asArray? : Json → Option (List Json)
  | .arr items => some items
  | _ => none

def isObject : Json → Bool
  | .obj _ => true
  | _ => false

theorem lookup_insertMember (key k : String) (value : Json) (members : List (String × Json)) :
    lookupMember k (insertMember key value members) =
      if k = key then some value else lookupMember k members := by
  induction members with
  | nil => rfl
  | cons member rest ih =>
      obtain ⟨j, v⟩ := member
      simp only [insertMember]
      by_cases same : key = j
      · subst same
        by_cases here : k = key
        · simp [lookupMember, here]
        · simp [lookupMember, here]
      · by_cases before : key < j
        · simp [lookupMember, same, before]
        · by_cases there : k = j
          · subst there
            simp [lookupMember, same, before, Ne.symm same]
          · simp [lookupMember, same, before, there, ih]

@[simp]
theorem get_object_nil (key : String) : (object []).get key = .null := rfl

@[simp]
theorem get_object_cons (key k : String) (value : Json) (fields : List (String × Json)) :
    (object ((key, value) :: fields)).get k =
      if k = key then value else (object fields).get k := by
  simp only [object, get, List.foldr_cons, lookup_insertMember]
  split <;> rfl

/-- Fields of other keys do not matter to a member. -/
theorem get_object_append {key : String} {fields others : List (String × Json)}
    (absent : ∀ field ∈ fields, key ≠ field.1) :
    (object (fields ++ others)).get key = (object others).get key := by
  induction fields with
  | nil => rfl
  | cons field rest ih =>
      obtain ⟨k, value⟩ := field
      rw [List.cons_append, get_object_cons, if_neg (absent _ List.mem_cons_self)]
      exact ih fun field member => absent field (List.mem_cons_of_mem _ member)

/-! ## The canonical domain -/

/-- Why a value is outside the canonical domain. -/
inductive CanonicalValueViolation where
  | integerOutOfRange (value : Number)
  | notFiniteBinary64 (value : Number)
  deriving DecidableEq, Repr

/-- Magnitude of a binary64 significand, the hidden bit included. -/
def significand (bits : UInt64) : Nat :=
  let exponent := bits.toNat / 2 ^ 52 % 2 ^ 11
  bits.toNat % 2 ^ 52 + if exponent = 0 then 0 else 2 ^ 52

/-- Power of two that scales the significand, offset by `1075`. -/
def scale (bits : UInt64) : Nat :=
  let exponent := bits.toNat / 2 ^ 52 % 2 ^ 11
  if exponent = 0 then 1 else exponent

/-- The integer a finite binary64 value denotes, when it is integral. -/
def integral? (bits : UInt64) : Option Int :=
  let sign : Int := if bits.toNat / 2 ^ 63 = 1 then -1 else 1
  if 1075 ≤ scale bits then
    some (sign * (significand bits * 2 ^ (scale bits - 1075) : Nat))
  else if significand bits % 2 ^ (1075 - scale bits) = 0 then
    some (sign * (significand bits / 2 ^ (1075 - scale bits) : Nat))
  else none

def normalizeF64 (bits : UInt64) : Except CanonicalValueViolation Number :=
  if bits.toNat / 2 ^ 52 % 2 ^ 11 = 2047 then .error (.notFiniteBinary64 (.float bits))
  else
    match integral? bits with
    | some value =>
        if maxSafeInteger < value.natAbs then .error (.integerOutOfRange (.float bits))
        else .ok (.int value)
    | none => .ok (.float bits)

def normalizeNumber : Number → Except CanonicalValueViolation Number
  | .int value =>
      if maxSafeInteger < value.natAbs then .error (.integerOutOfRange (.int value))
      else .ok (.int value)
  | .float bits => normalizeF64 bits

mutual

/-- `normalize_value`: the value in the canonical domain, or the first violation. -/
def normalize : Json → Except CanonicalValueViolation Json
  | .null => .ok .null
  | .bool b => .ok (.bool b)
  | .str s => .ok (.str s)
  | .num n => (normalizeNumber n).map .num
  | .arr items => (normalizeItems items).map .arr
  | .obj members => (normalizeMembers members).map .obj

def normalizeItems : List Json → Except CanonicalValueViolation (List Json)
  | [] => .ok []
  | item :: rest =>
      match normalize item with
      | .error e => .error e
      | .ok item' => (normalizeItems rest).map (item' :: ·)

def normalizeMembers :
    List (String × Json) → Except CanonicalValueViolation (List (String × Json))
  | [] => .ok []
  | (key, value) :: rest =>
      match normalize value with
      | .error e => .error e
      | .ok value' => (normalizeMembers rest).map ((key, value') :: ·)

end

theorem normalizeNumber_idempotent {n m : Number} (h : normalizeNumber n = .ok m) :
    normalizeNumber m = .ok m := by
  cases n with
  | int value =>
      simp only [normalizeNumber] at h
      split at h
      · cases h
      · cases h
        rename_i small
        simp [normalizeNumber, small]
  | float bits =>
      simp only [normalizeNumber, normalizeF64] at h
      split at h
      · cases h
      · rename_i finite
        split at h
        · split at h
          · cases h
          · cases h
            rename_i small
            simp [normalizeNumber, small]
        · rename_i fractional
          cases h
          simp only [normalizeNumber, normalizeF64, fractional, if_neg finite]

private theorem normalized_map_ok {α β ε : Type} {f : α → β} {x : Except ε α} {b : β}
    (h : x.map f = .ok b) : ∃ a, x = .ok a ∧ f a = b := by
  cases x with
  | error e => cases h
  | ok a =>
      cases h
      exact ⟨a, rfl, rfl⟩

mutual

theorem normalize_idempotent : ∀ {v w : Json}, normalize v = .ok w → normalize w = .ok w
  | .null, _, h | .bool _, _, h | .str _, _, h => by
      cases h
      rfl
  | .num n, _, h => by
      obtain ⟨m, number, rfl⟩ := normalized_map_ok h
      simp only [normalize, normalizeNumber_idempotent number]
      rfl
  | .arr items, _, h => by
      obtain ⟨items', each, rfl⟩ := normalized_map_ok h
      simp only [normalize, normalizeItems_idempotent each]
      rfl
  | .obj members, _, h => by
      obtain ⟨members', each, rfl⟩ := normalized_map_ok h
      simp only [normalize, normalizeMembers_idempotent each]
      rfl

theorem normalizeItems_idempotent :
    ∀ {v w : List Json}, normalizeItems v = .ok w → normalizeItems w = .ok w
  | [], _, h => by
      cases h
      rfl
  | item :: rest, _, h => by
      simp only [normalizeItems] at h
      split at h
      · cases h
      · rename_i item' head
        obtain ⟨rest', tail, rfl⟩ := normalized_map_ok h
        simp only [normalizeItems, normalize_idempotent head, normalizeItems_idempotent tail]
        rfl

theorem normalizeMembers_idempotent :
    ∀ {v w : List (String × Json)}, normalizeMembers v = .ok w → normalizeMembers w = .ok w
  | [], _, h => by
      cases h
      rfl
  | (key, value) :: rest, _, h => by
      simp only [normalizeMembers] at h
      split at h
      · cases h
      · rename_i value' head
        obtain ⟨rest', tail, rfl⟩ := normalized_map_ok h
        simp only [normalizeMembers, normalize_idempotent head,
          normalizeMembers_idempotent tail]
        rfl

end

/-- Normalization works member by member. -/
theorem normalize_get {v w : Json} (key : String) (h : normalize v = .ok w) :
    normalize (v.get key) = .ok (w.get key) := by
  cases v with
  | obj members =>
      obtain ⟨members', each, rfl⟩ := normalized_map_ok h
      clear h
      induction members generalizing members' with
      | nil =>
          cases each
          rfl
      | cons member rest ih =>
          obtain ⟨k, value⟩ := member
          simp only [normalizeMembers] at each
          split at each
          · cases each
          · rename_i value' head
            obtain ⟨rest', tail, rfl⟩ := normalized_map_ok each
            by_cases here : key = k
            · subst here
              simpa [get, lookupMember] using head
            · simpa [get, lookupMember, here] using ih rest' tail
  | null | bool _ | str _ =>
      cases h
      rfl
  | num n =>
      obtain ⟨m, -, rfl⟩ := normalized_map_ok h
      rfl
  | arr items =>
      obtain ⟨items', -, rfl⟩ := normalized_map_ok h
      rfl

end Json

end Metewand
