import Mathlib.Data.List.Basic

/-!
# Cartesian products in order

`product axes` lists every choice of one value for each axis; the last axis varies
fastest.  A loop that extends each choice made so far by every value of the next axis
arrives at the same list (`accumulate_eq_product`).
-/

namespace Metewand.Lib

variable {κ β : Type}

/-- Every choice of one value for each axis; the last axis varies fastest. -/
def product : List (κ × List β) → List (List (κ × β))
  | [] => [[]]
  | (key, values) :: rest =>
      values.flatMap fun value => (product rest).map fun others => (key, value) :: others

/-- Extend each choice made so far by the values of one axis after the other. -/
def accumulate {γ : Type} (extend : κ → β → γ → γ) (axes : List (κ × List β))
    (combinations : List γ) : List γ :=
  axes.foldl
    (fun combinations axis =>
      combinations.flatMap fun combination =>
        axis.2.map fun value => extend axis.1 value combination)
    combinations

/-- The loop over the axes lists the product. -/
theorem accumulate_eq_product {γ : Type} (extend : κ → β → γ → γ) (axes : List (κ × List β))
    (combinations : List γ) :
    accumulate extend axes combinations =
      combinations.flatMap fun combination =>
        (product axes).map fun choice =>
          choice.foldl (fun built entry => extend entry.1 entry.2 built) combination := by
  induction axes generalizing combinations with
  | nil => simp [accumulate, product]
  | cons axis rest ih =>
      obtain ⟨key, values⟩ := axis
      have step : accumulate extend ((key, values) :: rest) combinations =
          accumulate extend rest (combinations.flatMap fun combination =>
            values.map fun value => extend key value combination) := rfl
      rw [step, ih, List.flatMap_assoc]
      refine List.flatMap_congr fun combination _ => ?_
      simp only [product, List.flatMap_map, List.map_flatMap, List.map_map]
      rfl

/-- A choice has the keys of the axes, in their order. -/
theorem keys_of_mem_product {axes : List (κ × List β)} {choice : List (κ × β)}
    (member : choice ∈ product axes) : choice.map Prod.fst = axes.map Prod.fst := by
  induction axes generalizing choice with
  | nil =>
      rw [List.mem_singleton.mp member]
      rfl
  | cons axis rest ih =>
      obtain ⟨key, values⟩ := axis
      simp only [product, List.mem_flatMap, List.mem_map] at member
      obtain ⟨value, -, others, inside, rfl⟩ := member
      rw [List.map_cons, List.map_cons, ih inside]

end Metewand.Lib
