import Mathlib.Logic.Basic

/-!
# Runs of a labelled transition function

A system is a step function `next : σ → ℓ → σ`; whoever may act picks the label,
so a list of labels is one interleaving.  A run that stops early is a prefix of a
longer list of labels, which is how a crash between two steps is represented.

* `run next s ls` is the state after the labels `ls`.
* `Meets next ok s ls`: every step of that run satisfies `ok` in the state it is
  taken from.
* `run_invariant`: what holds at the start and is kept by every step meeting
  `ok` holds at the end of every run whose steps meet `ok`.
-/

namespace Metewand.Lib

section Runs

variable {σ ℓ : Type} (next : σ → ℓ → σ)

/-- The state after the labels `ls`. -/
def run (s : σ) (ls : List ℓ) : σ := ls.foldl next s

/-- Every step of the run meets `ok` in the state it is taken from. -/
def Meets (ok : σ → ℓ → Prop) (s : σ) : List ℓ → Prop
  | [] => True
  | l :: ls => ok s l ∧ Meets ok (next s l) ls

/-- The condition can be checked along a concrete run. -/
def Meets.decide {ok : σ → ℓ → Prop} [∀ s l, Decidable (ok s l)] :
    (s : σ) → (ls : List ℓ) → Decidable (Meets next ok s ls)
  | _, [] => isTrue True.intro
  | s, l :: ls =>
      match (inferInstance : Decidable (ok s l)), Meets.decide (next s l) ls with
      | isTrue head, isTrue tail => isTrue ⟨head, tail⟩
      | isFalse head, _ => isFalse fun meets => head meets.1
      | _, isFalse tail => isFalse fun meets => tail meets.2

instance {ok : σ → ℓ → Prop} [∀ s l, Decidable (ok s l)] (s : σ) (ls : List ℓ) :
    Decidable (Meets next ok s ls) :=
  Meets.decide next s ls

variable {next} {ok : σ → ℓ → Prop} {s : σ} {l : ℓ} {ls ms : List ℓ}

@[simp]
theorem run_nil : run next s [] = s := rfl

@[simp]
theorem run_cons : run next s (l :: ls) = run next (next s l) ls := rfl

theorem run_append : run next s (ls ++ ms) = run next (run next s ls) ms :=
  List.foldl_append

theorem run_concat : run next s (ls ++ [l]) = next (run next s ls) l := by
  rw [run_append]
  rfl

theorem meets_append :
    Meets next ok s (ls ++ ms) ↔ Meets next ok s ls ∧ Meets next ok (run next s ls) ms := by
  induction ls generalizing s with
  | nil => simp [Meets]
  | cons l ls ih => simp [Meets, ih, and_assoc]

theorem Meets.mono {ok' : σ → ℓ → Prop} (weaker : ∀ s l, ok s l → ok' s l)
    (meets : Meets next ok s ls) : Meets next ok' s ls := by
  induction ls generalizing s with
  | nil => trivial
  | cons l ls ih => exact ⟨weaker s l meets.1, ih meets.2⟩

/-- A condition that always holds. -/
theorem Meets.trivial (ls : List ℓ) : Meets next (fun _ _ => True) s ls := by
  induction ls generalizing s with
  | nil => exact True.intro
  | cons l ls ih => exact ⟨True.intro, ih⟩

/-- Among the labels is one of which `P` holds, together with those before it. -/
def Past (P : List ℓ → ℓ → Prop) (ls : List ℓ) : Prop :=
  ∃ ks l ms, ls = ks ++ l :: ms ∧ P ks l

theorem past_concat {P : List ℓ → ℓ → Prop} : Past P (ls ++ [l]) ↔ Past P ls ∨ P ls l := by
  constructor
  · rintro ⟨ks, k, ms, split, holds⟩
    rcases List.eq_nil_or_concat ms with rfl | ⟨ms', last, rfl⟩
    · obtain ⟨rfl, same⟩ := List.append_inj' split rfl
      cases same
      exact .inr holds
    · rw [List.concat_eq_append, ← List.cons_append, ← List.append_assoc] at split
      obtain ⟨rfl, -⟩ := List.append_inj' split rfl
      exact .inl ⟨ks, k, ms', rfl, holds⟩
  · rintro (⟨ks, k, ms, rfl, holds⟩ | holds)
    · exact ⟨ks, k, ms ++ [l], by rw [List.append_assoc, List.cons_append], holds⟩
    · exact ⟨ls, l, [], rfl, holds⟩

theorem not_past_nil {P : List ℓ → ℓ → Prop} : ¬Past P [] := by
  rintro ⟨ks, k, ms, split, -⟩
  cases ks <;> cases split

/-- The invariant rule for runs whose steps all meet `ok`. -/
theorem run_invariant {inv : σ → Prop}
    (step : ∀ s l, inv s → ok s l → inv (next s l))
    (start : inv s) (meets : Meets next ok s ls) : inv (run next s ls) := by
  induction ls generalizing s with
  | nil => exact start
  | cons l ls ih => exact ih (step s l start meets.1) meets.2

/-- The invariant rule relative to an invariant that needs no condition. -/
theorem run_invariant_of {base inv : σ → Prop}
    (baseStep : ∀ s l, base s → base (next s l))
    (step : ∀ s l, base s → inv s → ok s l → inv (next s l))
    (baseStart : base s) (start : inv s) (meets : Meets next ok s ls) :
    inv (run next s ls) := by
  have both : ∀ s l, base s ∧ inv s → ok s l → base (next s l) ∧ inv (next s l) :=
    fun s l hold cond => ⟨baseStep s l hold.1, step s l hold.1 hold.2 cond⟩
  exact (run_invariant both ⟨baseStart, start⟩ meets).2

/-- A relation kept by every step relates the two ends of the run. -/
theorem run_related {rel : σ → σ → Prop} (refl : ∀ s, rel s s)
    (trans : ∀ {a b c}, rel a b → rel b c → rel a c)
    {inv : σ → Prop} (keeps : ∀ s l, inv s → inv (next s l))
    (step : ∀ s l, inv s → ok s l → rel s (next s l))
    (start : inv s) (meets : Meets next ok s ls) : rel s (run next s ls) := by
  induction ls generalizing s with
  | nil => exact refl s
  | cons l ls ih =>
      exact trans (step s l start meets.1) (ih (keeps s l start) meets.2)

end Runs

section Reachability

variable {σ ℓ : Type} (next : σ → ℓ → σ) (init : σ → Prop)

/-- States some interleaving leads to from an initial state. -/
def Reachable (s : σ) : Prop := ∃ s₀ ls, init s₀ ∧ run next s₀ ls = s

variable {next init} {s : σ}

theorem Reachable.step (reach : Reachable next init s) (l : ℓ) :
    Reachable next init (next s l) := by
  obtain ⟨s₀, ls, start, rfl⟩ := reach
  exact ⟨s₀, ls ++ [l], start, run_concat⟩

theorem Reachable.run (reach : Reachable next init s) (ls : List ℓ) :
    Reachable next init (run next s ls) := by
  obtain ⟨s₀, ks, start, rfl⟩ := reach
  exact ⟨s₀, ks ++ ls, start, run_append⟩

/-- The invariant rule for reachable states. -/
theorem Reachable.invariant {inv : σ → Prop} (start : ∀ s, init s → inv s)
    (step : ∀ s l, inv s → inv (next s l)) (reach : Reachable next init s) : inv s := by
  obtain ⟨s₀, ls, first, rfl⟩ := reach
  exact run_invariant (fun s l hold _ => step s l hold) (start s₀ first) (.trivial ls)

end Reachability

end Metewand.Lib
