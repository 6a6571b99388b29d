import Metewand.Core.Deserializer
import Metewand.Core.Spelling

/-!
# What canonical text looks like

Canonical text has no control characters (`text_printable`), so no newline, and it determines
the value it is the text of (`text_unambiguous`): every kind of value starts with characters of
its own, a string ends at the first quotation mark that is not escaped, and a number ends where
a comma or a bracket follows.
-/

namespace Metewand

namespace Json

/-! ## Printable characters -/

/-- No control character. -/
def Printable (text : List Char) : Prop := ∀ c ∈ text, 32 ≤ c.toNat

instance (text : List Char) : Decidable (Printable text) := List.decidableBAll _ text

theorem Printable.append {a b : List Char} (first : Printable a) (second : Printable b) :
    Printable (a ++ b) := by
  intro c member
  rcases List.mem_append.mp member with here | there
  · exact first c here
  · exact second c there

theorem Printable.cons {c : Char} {text : List Char} (first : 32 ≤ c.toNat) (rest : Printable text) :
    Printable (c :: text) :=
  List.forall_mem_cons.mpr ⟨first, rest⟩

theorem Printable.flatMap {α : Type} {f : α → List Char} {as : List α}
    (each : ∀ a ∈ as, Printable (f a)) : Printable (as.flatMap f) := by
  intro c member
  obtain ⟨a, inside, here⟩ := List.mem_flatMap.mp member
  exact each a inside c here

theorem hexDigit_printable : ∀ n < 16, 32 ≤ (hexDigit n).toNat := by decide

theorem escape_printable (c : Char) : Printable (escape c) := by
  unfold escape
  split
  · rename_i is
    exact .cons (by decide) (.cons (by omega) (by simp [Printable]))
  split
  · rename_i is
    exact .cons (by decide) (.cons (by omega) (by simp [Printable]))
  split
  · decide
  split
  · decide
  split
  · decide
  split
  · decide
  split
  · decide
  split
  · rename_i control
    have high := hexDigit_printable (c.toNat / 16) (by omega)
    have low := hexDigit_printable (c.toNat % 16) (by omega)
    exact .cons (by decide) (.cons (by decide) (.cons (by decide) (.cons (by decide)
      (.cons high (.cons low (by simp [Printable]))))))
  · rename_i plain
    exact .cons (by omega) (by simp [Printable])

theorem quote_printable (s : String) : Printable (quote s) := by
  refine .append (.cons (by decide) (.flatMap fun c _ => escape_printable c)) ?_
  exact .cons (by decide) (by simp [Printable])

theorem digits_printable (n : Nat) : Printable (Nat.toDigits 10 n) := by
  intro c member
  have digit := Nat.isDigit_of_mem_toDigits (by omega) (by omega) member
  simp only [Char.isDigit, Bool.and_eq_true, decide_eq_true_eq] at digit
  have above := digit.1
  rw [ge_iff_le, UInt32.le_iff_toNat_le] at above
  have zero : ('0' : Char).val.toNat = 48 := rfl
  change 32 ≤ c.val.toNat
  omega

theorem intText_printable (value : Int) : Printable (intText value) := by
  refine .append ?_ (digits_printable _)
  split
  · exact .cons (by decide) (by simp [Printable])
  · simp [Printable]

theorem joined_printable {parts : List (List Char)} (each : ∀ part ∈ parts, Printable part) :
    Printable (joined parts) := by
  cases parts with
  | nil => simp [joined, Printable]
  | cons part rest =>
      obtain ⟨first, others⟩ := List.forall_mem_cons.mp each
      exact first.append (.flatMap fun other member => .cons (by decide) (others other member))

end Json

namespace JsonLibrary

open Json

variable {lib : JsonLibrary}

theorem numeric_printable {c : Char} (is : numeric c) : 32 ≤ c.toNat := by
  simp only [numeric, isAsciiDigit, Bool.or_eq_true, Bool.and_eq_true, decide_eq_true_eq, List.mem_cons,
    List.not_mem_nil, or_false] at is
  rcases is with digit | rfl | rfl | rfl | rfl
  · exact Nat.le_trans (by omega) digit.1
  all_goals decide

theorem printable_null : Printable (lib.text .null) := by
  have letters : Printable ['n', 'u', 'l', 'l'] := by decide
  exact letters

theorem printable_bool (b : Bool) : Printable (lib.text (.bool b)) := by
  have both : Printable ['t', 'r', 'u', 'e'] ∧ Printable ['f', 'a', 'l', 's', 'e'] := by decide
  cases b with
  | true => exact both.1
  | false => exact both.2

theorem text_printable (fraction : ∀ bits, ∀ c ∈ lib.fractionText bits, numeric c) (v : Json) :
    Printable (lib.text v) := by
  induction v using Json.induction with
  | null => exact printable_null
  | bool b => exact printable_bool b
  | num n =>
      cases n with
      | int value => exact intText_printable value
      | float bits => exact fun c member => numeric_printable (fraction bits c member)
  | str s => exact quote_printable s
  | arr items ih =>
      refine .append (.cons (by decide) (joined_printable ?_)) (.cons (by decide) (by simp [Printable]))
      rw [itemTexts_eq]
      exact List.forall_mem_map.mpr ih
  | obj members ih =>
      refine .append (.cons (by decide) (joined_printable ?_)) (.cons (by decide) (by simp [Printable]))
      intro part member
      obtain ⟨m, inside, rfl⟩ := List.mem_map.mp member
      rw [List.mem_insertionSort, memberTexts_eq] at inside
      obtain ⟨m', here, rfl⟩ := List.mem_map.mp inside
      exact .append (quote_printable _) (.cons (by decide) (ih m' here))

end JsonLibrary

/-! ## Strings -/

namespace Json

/-- The first character of a quoted text, if the text does not end there. -/
def unescape : List Char → Option (Char × List Char)
  | [] => none
  | c :: rest =>
      if c.toNat = 34 then none
      else if c.toNat ≠ 92 then some (c, rest)
      else
        match rest with
        | [] => none
        | d :: rest =>
            if d = 'b' then some (Char.ofNat 8, rest)
            else if d = 't' then some (Char.ofNat 9, rest)
            else if d = 'n' then some (Char.ofNat 10, rest)
            else if d = 'f' then some (Char.ofNat 12, rest)
            else if d = 'r' then some (Char.ofNat 13, rest)
            else if d = 'u' then
              match rest with
              | _ :: _ :: high :: low :: rest => some (Char.ofNat (hexNibble high * 16 + hexNibble low), rest)
              | _ => none
            else some (d, rest)

theorem char_eq_ofNat {c : Char} {n : Nat} (is : c.toNat = n) : c = Char.ofNat n := by
  rw [← is, Char.ofNat_toNat]

theorem unescape_escape (c : Char) (rest : List Char) : unescape (escape c ++ rest) = some (c, rest) := by
  unfold escape
  split
  · rename_i is
    rw [char_eq_ofNat is]
    rfl
  split
  · rename_i is
    rw [char_eq_ofNat is]
    rfl
  split
  · rename_i is
    rw [char_eq_ofNat is]
    rfl
  split
  · rename_i is
    rw [char_eq_ofNat is]
    rfl
  split
  · rename_i is
    rw [char_eq_ofNat is]
    rfl
  split
  · rename_i is
    rw [char_eq_ofNat is]
    rfl
  split
  · rename_i is
    rw [char_eq_ofNat is]
    rfl
  split
  · rename_i control
    have value : hexNibble (hexDigit (c.toNat / 16)) * 16 + hexNibble (hexDigit (c.toNat % 16)) = c.toNat := by
      rw [(hexNibble_hexDigit (by omega)).1, (hexNibble_hexDigit (by omega)).1]
      omega
    change some (Char.ofNat (hexNibble (hexDigit (c.toNat / 16)) * 16 + hexNibble (hexDigit (c.toNat % 16))), rest) = _
    rw [value, Char.ofNat_toNat]
  · simp_all [unescape]

/-- Escaped characters before a quotation mark can be told apart. -/
theorem escapes_unambiguous {a b : List Char} {x y : List Char}
    (same : a.flatMap escape ++ quoteMark :: x = b.flatMap escape ++ quoteMark :: y) : a = b ∧ x = y := by
  have ends : ∀ z, unescape (quoteMark :: z) = none := fun z => rfl
  induction a generalizing b with
  | nil =>
      cases b with
      | nil => exact ⟨rfl, (List.cons.inj same).2⟩
      | cons d b =>
          have read := congrArg unescape same
          rw [List.flatMap_cons, List.append_assoc, unescape_escape, List.flatMap_nil, List.nil_append, ends] at read
          cases read
  | cons c a ih =>
      cases b with
      | nil =>
          have read := congrArg unescape same
          rw [List.flatMap_cons, List.append_assoc, unescape_escape, List.flatMap_nil, List.nil_append, ends] at read
          cases read
      | cons d b =>
          have read := congrArg unescape same
          rw [List.flatMap_cons, List.flatMap_cons, List.append_assoc, List.append_assoc, unescape_escape,
            unescape_escape] at read
          obtain ⟨head, tail⟩ := Prod.mk.inj (Option.some.inj read)
          obtain ⟨rest, after⟩ := ih tail
          exact ⟨by rw [head, rest], after⟩

theorem quote_unambiguous {s t : String} {x y : List Char} (same : quote s ++ x = quote t ++ y) :
    s = t ∧ x = y := by
  unfold quote at same
  simp only [List.cons_append, List.append_assoc, List.nil_append] at same
  obtain ⟨chars, after⟩ := escapes_unambiguous (List.cons.inj same).2
  exact ⟨String.toList_inj.mp chars, after⟩

/-! ## Arrays and objects -/

/-- What may follow a value. -/
def Stop (text : List Char) : Prop := ∀ c ∈ text.head?, c = ',' ∨ c = ']' ∨ c = '}'

theorem stop_rest {close : Char} (closing : close = ']' ∨ close = '}') (parts : List (List Char))
    (x : List Char) : Stop (parts.flatMap (',' :: ·) ++ close :: x) := by
  intro c first
  cases parts with
  | nil =>
      cases first
      exact .inr closing
  | cons part rest =>
      cases first
      exact .inl rfl

theorem joined_unambiguous {α : Type} {part : α → List Char} {close : Char} (closing : close = ']' ∨ close = '}')
    {as bs : List α} (starts : ∀ a ∈ as ++ bs, ∀ rest, part a ≠ [] ∧ part a ≠ close :: rest)
    (each : ∀ a ∈ as, ∀ b ∈ bs, ∀ x y, Stop x → Stop y → part a ++ x = part b ++ y → a = b ∧ x = y)
    {x y : List Char} (same : joined (as.map part) ++ close :: x = joined (bs.map part) ++ close :: y) :
    as = bs ∧ x = y := by
  have tails : ∀ {as bs : List α}, (∀ a ∈ as, ∀ b ∈ bs, ∀ x y, Stop x → Stop y →
      part a ++ x = part b ++ y → a = b ∧ x = y) →
      (as.map part).flatMap (',' :: ·) ++ close :: x = (bs.map part).flatMap (',' :: ·) ++ close :: y →
      as = bs ∧ x = y := by
    intro as
    induction as with
    | nil =>
        intro bs each same
        cases bs with
        | nil => exact ⟨rfl, (List.cons.inj same).2⟩
        | cons b bs =>
            have heads := (List.cons.inj same).1
            rcases closing with is | is
            all_goals
              rw [is] at heads
              cases heads
    | cons a as ih =>
        intro bs each same
        cases bs with
        | nil =>
            have heads := (List.cons.inj same).1
            rcases closing with is | is
            all_goals
              rw [is] at heads
              cases heads
        | cons b bs =>
            simp only [List.map_cons, List.flatMap_cons, List.cons_append, List.append_assoc,
              List.cons.injEq, true_and] at same
            obtain ⟨rfl, rest⟩ := each a List.mem_cons_self b List.mem_cons_self _ _
              (stop_rest closing _ _) (stop_rest closing _ _) same
            obtain ⟨rfl, after⟩ := ih (fun a' inside b' inside' =>
              each a' (List.mem_cons_of_mem _ inside) b' (List.mem_cons_of_mem _ inside')) rest
            exact ⟨rfl, after⟩
  cases as with
  | nil =>
      cases bs with
      | nil => exact ⟨rfl, (List.cons.inj same).2⟩
      | cons b bs =>
          obtain ⟨filled, other⟩ := starts b (by simp) (((part b)).tail)
          cases text : part b with
          | nil => exact absurd text filled
          | cons c rest =>
              simp only [List.map_cons, joined, text, List.map_nil, List.nil_append, List.cons_append] at same
              rw [text, List.tail_cons, (List.cons.inj same).1] at other
              exact absurd rfl other
  | cons a as =>
      cases bs with
      | nil =>
          obtain ⟨filled, other⟩ := starts a (by simp) (((part a)).tail)
          cases text : part a with
          | nil => exact absurd text filled
          | cons c rest =>
              simp only [List.map_cons, joined, text, List.map_nil, List.nil_append, List.cons_append] at same
              rw [text, List.tail_cons, ← (List.cons.inj same).1] at other
              exact absurd rfl other
      | cons b bs =>
          simp only [List.map_cons, joined, List.append_assoc] at same
          obtain ⟨rfl, rest⟩ := each a List.mem_cons_self b List.mem_cons_self _ _
            (stop_rest closing _ _) (stop_rest closing _ _) same
          obtain ⟨rfl, after⟩ := tails (fun a' inside b' inside' =>
            each a' (List.mem_cons_of_mem _ inside) b' (List.mem_cons_of_mem _ inside')) rest
          exact ⟨rfl, after⟩

end Json

namespace JsonLibrary

open Json

variable (lib : JsonLibrary)

def numberText : Number → List Char
  | .int value => intText value
  | .float bits => lib.fractionText bits

/-- What canonical numbers are spelled like. -/
structure Spelled : Prop where
  fraction : ∀ bits, ∀ c ∈ lib.fractionText bits, numeric c
  filled : ∀ bits, normalizeNumber (.float bits) = .ok (.float bits) → lib.fractionText bits ≠ []
  distinct : ∀ m n, normalizeNumber m = .ok m → normalizeNumber n = .ok n →
    lib.numberText m = lib.numberText n → m = n

/-- The first character of a text. -/
def Lead : Json → Char → Prop
  | .null, c => c = 'n'
  | .bool true, c => c = 't'
  | .bool false, c => c = 'f'
  | .num _, c => numeric c
  | .str _, c => c = quoteMark
  | .arr _, c => c = '['
  | .obj _, c => c = '{'

variable {lib}

theorem text_num (n : Number) : lib.text (.num n) = lib.numberText n := by
  cases n <;> rfl

theorem intText_numeric (value : Int) : ∀ c ∈ intText value, numeric c := by
  intro c member
  rcases List.mem_append.mp member with sign | digits
  · split at sign
    · cases List.mem_singleton.mp sign
      rfl
    · cases sign
  · have digit := Nat.isDigit_of_mem_toDigits (by omega) (by omega) digits
    simp only [Char.isDigit, Bool.and_eq_true, decide_eq_true_eq] at digit
    obtain ⟨above, below⟩ := digit
    rw [ge_iff_le, UInt32.le_iff_toNat_le] at above
    rw [UInt32.le_iff_toNat_le] at below
    have zero : ('0' : Char).val.toNat = 48 := rfl
    have nine : ('9' : Char).val.toNat = 57 := rfl
    have range : 48 ≤ c.toNat ∧ c.toNat ≤ 57 := by
      change 48 ≤ c.val.toNat ∧ c.val.toNat ≤ 57
      omega
    simp [numeric, isAsciiDigit, range]

theorem digits_injective {m n : Nat} (same : Nat.toDigits 10 m = Nat.toDigits 10 n) : m = n := by
  have values := congrArg (Nat.ofDigitChars 10 · 0) same
  simpa using values

theorem minus_not_digit (n : Nat) : '-' ∉ Nat.toDigits 10 n := by
  intro member
  have digit := Nat.isDigit_of_mem_toDigits (by omega) (by omega) member
  cases digit

theorem digit_of_mem {n : Nat} {c : Char} (member : c ∈ (toString n).toList) : c.isDigit = true := by
  have spelled : (toString n).toList = Nat.toDigits 10 n := by simp
  rw [spelled] at member
  exact Nat.isDigit_of_mem_toDigits (by omega) (by omega) member

theorem not_mem_digits {n : Nat} {c : Char} (other : c.isDigit = false) : c ∉ (toString n).toList := by
  intro member
  rw [digit_of_mem member] at other
  cases other

theorem decimal_injective {m n : Nat} (same : (toString m).toList = (toString n).toList) : m = n := by
  apply digits_injective
  simpa using same

theorem intText_injective {a b : Int} (same : intText a = intText b) : a = b := by
  unfold intText at same
  by_cases left : a < 0
  · by_cases right : b < 0
    · rw [if_pos left, if_pos right] at same
      have sizes := digits_injective (List.append_cancel_left same)
      omega
    · rw [if_pos left, if_neg right, List.nil_append] at same
      exact absurd (by rw [← same]; simp) (minus_not_digit b.natAbs)
  · by_cases right : b < 0
    · rw [if_neg left, if_pos right, List.nil_append] at same
      exact absurd (by rw [same]; simp) (minus_not_digit a.natAbs)
    · rw [if_neg left, if_neg right] at same
      have sizes := digits_injective (List.append_cancel_left same)
      omega

theorem numberText_numeric (spelled : lib.Spelled) (n : Number) : ∀ c ∈ lib.numberText n, numeric c := by
  cases n with
  | int value => exact intText_numeric value
  | float bits => exact spelled.fraction bits

theorem intText_ne_nil (value : Int) : intText value ≠ [] := by
  intro empty
  have digits := (List.append_eq_nil_iff.mp empty).2
  have positive := @Nat.length_toDigits_pos 10 value.natAbs
  rw [digits] at positive
  exact absurd positive (by simp)

theorem numberText_ne_nil (spelled : lib.Spelled) {n : Number} (normal : normalizeNumber n = .ok n) :
    lib.numberText n ≠ [] := by
  cases n with
  | int value => exact intText_ne_nil value
  | float bits => exact spelled.filled bits normal

theorem normalize_num {n : Number} (normal : Json.normalize (.num n) = .ok (.num n)) :
    normalizeNumber n = .ok n := by
  simp only [Json.normalize] at normal
  cases number : normalizeNumber n with
  | error e =>
      rw [number] at normal
      cases normal
  | ok m =>
      rw [number] at normal
      cases normal
      rfl

theorem text_lead (spelled : lib.Spelled) {v : Json} (normal : v.normalize = .ok v) :
    ∃ c rest, lib.text v = c :: rest ∧ Lead v c := by
  cases v with
  | null => exact ⟨_, _, rfl, rfl⟩
  | bool b => cases b <;> exact ⟨_, _, rfl, rfl⟩
  | num n =>
      rw [text_num]
      cases text : lib.numberText n with
      | nil => exact absurd text (numberText_ne_nil spelled (normalize_num normal))
      | cons c rest => exact ⟨c, rest, rfl, numberText_numeric spelled n c (by rw [text]; exact List.mem_cons_self)⟩
  | str s => exact ⟨_, _, rfl, rfl⟩
  | arr items => exact ⟨_, _, rfl, rfl⟩
  | obj members => exact ⟨_, _, rfl, rfl⟩

theorem numeric_not_closing {c : Char} (is : numeric c) : c ≠ ',' ∧ c ≠ ']' ∧ c ≠ '}' := by
  refine ⟨?_, ?_, ?_⟩
  all_goals
    rintro rfl
    revert is
    decide

theorem lead_not_closing {v : Json} {c : Char} (lead : Lead v c) : c ≠ ']' ∧ c ≠ '}' := by
  cases v with
  | num n => exact (numeric_not_closing lead).2
  | bool b =>
      cases b
      all_goals
        cases lead
        decide
  | null | str _ | arr _ | obj _ =>
      cases lead
      decide

/-- A number ends where no numeric character follows. -/
theorem number_unambiguous {a b x y : List Char} (left : ∀ c ∈ a, numeric c) (right : ∀ c ∈ b, numeric c)
    (stop : Stop x) (stop' : Stop y) (same : a ++ x = b ++ y) : a = b ∧ x = y := by
  have ends : ∀ {text rest : List Char}, (∀ c ∈ text, numeric c) → Stop rest →
      (text ++ rest).takeWhile (numeric ·) = text := by
    intro text rest all stop
    rw [List.takeWhile_append_of_pos all]
    cases rest with
    | nil => simp
    | cons c rest =>
        have other : ¬numeric c := by
          intro is
          obtain ⟨comma, bracket, brace⟩ := numeric_not_closing is
          rcases stop c rfl with is | is | is
          · exact comma is
          · exact bracket is
          · exact brace is
        rw [List.takeWhile_cons_of_neg (by simpa using other), List.append_nil]
  have texts : a = b := by
    rw [← ends left stop, same, ends right stop']
  subst texts
  exact ⟨rfl, List.append_cancel_left same⟩

/-- The kind of a value; each boolean is a kind of its own. -/
def kind : Json → Nat
  | .null => 0
  | .bool false => 1
  | .bool true => 2
  | .num _ => 3
  | .str _ => 4
  | .arr _ => 5
  | .obj _ => 6

/-- The kind of value that starts with a character. -/
def kindOf (c : Char) : Nat :=
  if numeric c then 3
  else if c = 'n' then 0
  else if c = 'f' then 1
  else if c = 't' then 2
  else if c = '[' then 5
  else if c = '{' then 6
  else 4

theorem lead_kind {v : Json} {c : Char} (lead : Lead v c) : kindOf c = kind v := by
  cases v with
  | num n => exact if_pos lead
  | bool b =>
      cases b
      all_goals
        cases lead
        rfl
  | null | str _ | arr _ | obj _ =>
      cases lead
      rfl

theorem memberTexts_sorted (members : List (String × Json)) :
    ((lib.memberTexts members).insertionSort keyOrder).map entryText =
      (members.insertionSort keyOrder).map fun m => entryText (m.1, lib.text m.2) := by
  have sorted : (members.insertionSort keyOrder).map (fun m => (m.1, lib.text m.2)) =
      (members.map fun m => (m.1, lib.text m.2)).insertionSort keyOrder :=
    List.map_insertionSort _ _ _ _ fun _ _ _ _ => Iff.rfl
  rw [memberTexts_eq, ← sorted, List.map_map]
  rfl

theorem kind_of_text (spelled : lib.Spelled) {v w : Json} {x y : List Char} (normal : v.normalize = .ok v)
    (normal' : w.normalize = .ok w) (same : lib.text v ++ x = lib.text w ++ y) : kind v = kind w := by
  obtain ⟨c, rest, left, lead⟩ := text_lead spelled normal
  obtain ⟨d, rest', right, lead'⟩ := text_lead spelled normal'
  rw [left, right] at same
  rw [← lead_kind lead, ← lead_kind lead', (List.cons.inj same).1]

theorem text_starts (spelled : lib.Spelled) {v : Json} (normal : v.normalize = .ok v) (rest : List Char) :
    lib.text v ≠ [] ∧ lib.text v ≠ ']' :: rest := by
  obtain ⟨c, tail, text, lead⟩ := text_lead spelled normal
  refine ⟨by rw [text]; exact List.cons_ne_nil _ _, fun same => ?_⟩
  rw [text] at same
  exact (lead_not_closing lead).1 (List.cons.inj same).1

/-- Canonical text determines the value, and where it ends. -/
theorem text_unambiguous (spelled : lib.Spelled) (v : Json) : ∀ {w : Json} {x y : List Char},
    v.normalize = .ok v → w.normalize = .ok w → v.Ordered → w.Ordered → Stop x → Stop y →
      lib.text v ++ x = lib.text w ++ y → v = w ∧ x = y := by
  induction v using Json.induction with
  | null =>
      intro w x y normal normal' _ _ _ _ same
      have kinds := kind_of_text spelled normal normal' same
      rcases w with _ | (_ | _) | _ | _ | _ | _ <;> cases kinds
      exact ⟨rfl, List.append_cancel_left same⟩
  | bool b =>
      intro w x y normal normal' _ _ _ _ same
      have kinds := kind_of_text spelled normal normal' same
      rcases b with _ | _ <;> rcases w with _ | (_ | _) | _ | _ | _ | _ <;> cases kinds
      · exact ⟨rfl, List.append_cancel_left same⟩
      · exact ⟨rfl, List.append_cancel_left same⟩
  | num n =>
      intro w x y normal normal' _ _ stop stop' same
      have kinds := kind_of_text spelled normal normal' same
      rcases w with _ | (_ | _) | m | _ | _ | _ <;> cases kinds
      rw [text_num, text_num] at same
      obtain ⟨texts, after⟩ := number_unambiguous (numberText_numeric spelled n)
        (numberText_numeric spelled m) stop stop' same
      rw [spelled.distinct n m (normalize_num normal) (normalize_num normal') texts]
      exact ⟨rfl, after⟩
  | str s =>
      intro w x y normal normal' _ _ _ _ same
      have kinds := kind_of_text spelled normal normal' same
      rcases w with _ | (_ | _) | _ | t | _ | _ <;> cases kinds
      obtain ⟨rfl, after⟩ := quote_unambiguous same
      exact ⟨rfl, after⟩
  | arr items ih =>
      intro w x y normal normal' ordered ordered' _ _ same
      have kinds := kind_of_text spelled normal normal' same
      rcases w with _ | (_ | _) | _ | _ | others | _ <;> cases kinds
      have each := normalize_items_self normal
      have each' := normalize_items_self normal'
      simp only [text, itemTexts_eq, List.cons_append, List.append_assoc, List.nil_append] at same
      have starts : ∀ a ∈ items ++ others, ∀ rest, lib.text a ≠ [] ∧ lib.text a ≠ ']' :: rest :=
        fun a member rest => text_starts spelled ((List.mem_append.mp member).elim (each a) (each' a)) rest
      obtain ⟨rfl, after⟩ := joined_unambiguous (.inl rfl) starts
        (fun a inside b inside' x y stop stop' same => ih a inside (each a inside) (each' b inside')
          (orderedItems_iff.mp ordered a inside) (orderedItems_iff.mp ordered' b inside') stop stop' same)
        (List.cons.inj same).2
      exact ⟨rfl, after⟩
  | obj members ih =>
      intro w x y normal normal' ordered ordered' _ _ same
      have kinds := kind_of_text spelled normal normal' same
      rcases w with _ | (_ | _) | _ | _ | _ | others <;> cases kinds
      have each := normalize_members_self normal
      have each' := normalize_members_self normal'
      obtain ⟨ascending, inner⟩ := ordered
      obtain ⟨ascending', inner'⟩ := ordered'
      simp only [text, memberTexts_sorted, List.cons_append, List.append_assoc, List.nil_append] at same
      have starts : ∀ m ∈ members.insertionSort keyOrder ++ others.insertionSort keyOrder, ∀ rest,
          entryText (m.1, lib.text m.2) ≠ [] ∧ entryText (m.1, lib.text m.2) ≠ '}' :: rest := by
        refine fun m _ rest => ⟨List.cons_ne_nil _ _, fun no => ?_⟩
        cases (List.cons.inj no).1
      have entries : ∀ a ∈ members.insertionSort keyOrder, ∀ b ∈ others.insertionSort keyOrder, ∀ x y,
          Stop x → Stop y →
          entryText (a.1, lib.text a.2) ++ x = entryText (b.1, lib.text b.2) ++ y → a = b ∧ x = y := by
        intro a inside b inside' x y stop stop' same
        rw [List.mem_insertionSort] at inside inside'
        simp only [entryText, List.append_assoc, List.cons_append] at same
        obtain ⟨keys, rest⟩ := quote_unambiguous same
        obtain ⟨values, after⟩ := ih a inside (each a inside) (each' b inside')
          (orderedMembers_iff.mp inner a inside) (orderedMembers_iff.mp inner' b inside') stop stop'
          (List.cons.inj rest).2
        exact ⟨Prod.ext keys values, after⟩
      obtain ⟨sorted, after⟩ := joined_unambiguous (.inr rfl) starts entries (List.cons.inj same).2
      refine ⟨congrArg Json.obj ?_, after⟩
      have perm := (List.perm_insertionSort keyOrder members).symm.trans
        (sorted ▸ List.perm_insertionSort keyOrder others)
      refine perm.eq_of_pairwise (fun a b _ _ before later => ?_) ascending ascending'
      exact absurd before later.not_gt

theorem text_injective (spelled : lib.Spelled) {v w : Json} (normal : v.normalize = .ok v)
    (normal' : w.normalize = .ok w) (ordered : v.Ordered) (ordered' : w.Ordered)
    (same : lib.text v = lib.text w) : v = w :=
  (text_unambiguous spelled v normal normal' ordered ordered' (by simp [Stop]) (by simp [Stop])
    (congrArg (· ++ []) same)).1

end JsonLibrary

end Metewand
