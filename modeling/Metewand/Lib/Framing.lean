import Mathlib.Data.List.Basic

/-!
# Self-delimiting encodings

An encoding is `Delimited` on a domain when what follows the code of a value can never be
taken for a part of it: two codes with any continuations agree only when the values and
the continuations do.  Such encodings are injective, they compose by concatenation, and a
field may decide how the next one is read (`Delimited.prefixed`).
-/

namespace Metewand.Lib

variable {α β γ σ : Type}

/-- Equal codes with continuations come from equal values. -/
def Delimited (domain : α → Prop) (encode : α → List σ) : Prop :=
  ∀ ⦃a b⦄, domain a → domain b → ∀ x y, encode a ++ x = encode b ++ y → a = b ∧ x = y

namespace Delimited

variable {domain : α → Prop} {encode : α → List σ}

theorem injective (delimited : Delimited domain encode) {a b : α} (left : domain a)
    (right : domain b) (same : encode a = encode b) : a = b :=
  (delimited left right [] [] (by rw [same])).1

/-- Codes of one length need only be injective. -/
theorem of_length (n : Nat) (length : ∀ a, domain a → (encode a).length = n)
    (injective : ∀ {a b}, domain a → domain b → encode a = encode b → a = b) :
    Delimited domain encode := by
  intro a b left right x y same
  obtain ⟨codes, rest⟩ := List.append_inj same ((length a left).trans (length b right).symm)
  exact ⟨injective left right codes, rest⟩

/-- A code of a key followed by a body that is delimited once the key is known. -/
theorem prefixed {keys : β → Prop} {encodeKey : β → List σ} (delimited : Delimited keys encodeKey)
    (key : α → β) (body : α → List σ) (within : ∀ {a}, domain a → keys (key a))
    (known : ∀ {a b}, domain a → domain b → key a = key b → ∀ x y,
      body a ++ x = body b ++ y → a = b ∧ x = y) :
    Delimited domain fun a => encodeKey (key a) ++ body a := by
  intro a b left right x y same
  rw [List.append_assoc, List.append_assoc] at same
  obtain ⟨keys, rest⟩ := delimited (within left) (within right) _ _ same
  exact known left right keys x y rest

/-- The codes of as many values. -/
theorem flatMap (delimited : Delimited domain encode) {as bs : List α}
    (left : ∀ a ∈ as, domain a) (right : ∀ b ∈ bs, domain b) (length : as.length = bs.length)
    {x y : List σ} (same : as.flatMap encode ++ x = bs.flatMap encode ++ y) : as = bs ∧ x = y := by
  induction as generalizing bs with
  | nil =>
      have empty : bs = [] := List.length_eq_zero_iff.mp length.symm
      subst empty
      exact ⟨rfl, same⟩
  | cons a as ih =>
      cases bs with
      | nil => cases length
      | cons b bs =>
          rw [List.flatMap_cons, List.flatMap_cons, List.append_assoc, List.append_assoc] at same
          obtain ⟨head, rest⟩ := delimited (left a List.mem_cons_self) (right b List.mem_cons_self)
            _ _ same
          obtain ⟨tail, after⟩ := ih (fun c member => left c (List.mem_cons_of_mem _ member))
            (fun c member => right c (List.mem_cons_of_mem _ member)) (Nat.succ.inj length) rest
          exact ⟨by rw [head, tail], after⟩

end Delimited

end Metewand.Lib
