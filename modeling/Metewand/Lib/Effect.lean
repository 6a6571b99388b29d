import Mathlib.Logic.Basic

/-!
# Effects

A step over a state that may fail, and that keeps what it did to the state when it does.
`Holds pre step post fails` is its contract: from a state with `pre`, a success satisfies `post`
and a failure `fails`.  There is one rule for each way to build a step.
-/

namespace Metewand.Lib

/-- A step over a state. -/
def Effect (σ ε α : Type) : Type := σ → σ × Except ε α

namespace Effect

variable {σ τ ε α β : Type}

instance : Monad (Effect σ ε) where
  pure a := fun s => (s, .ok a)
  bind step next := fun s =>
    match step s with
    | (s', .ok a) => next a s'
    | (s', .error e) => (s', .error e)

def fail (e : ε) : Effect σ ε α := fun s => (s, .error e)

def get : Effect σ ε σ := fun s => (s, .ok s)

def modify (f : σ → σ) : Effect σ ε Unit := fun s => (f s, .ok ())

/-- What something outside the state answers. -/
def answer (x : Except ε α) : Effect σ ε α := fun s => (s, x)

def require (p : Prop) [Decidable p] (e : ε) : Effect σ ε Unit := if p then pure () else fail e

/-- A step over a part of the state. -/
def within (part : σ → τ) (put : σ → τ → σ) (step : Effect τ ε α) : Effect σ ε α := fun s =>
  match step (part s) with
  | (t, outcome) => (put s t, outcome)

/-- A step whose failure is a result. -/
def capture (step : Effect σ ε α) : Effect σ ε (Except ε α) := fun s =>
  match step s with
  | (s', outcome) => (s', .ok outcome)

/-- One step for each element, in order. -/
def forEach (step : α → Effect σ ε Unit) : List α → Effect σ ε Unit
  | [] => pure ()
  | a :: as => do
      step a
      forEach step as

/-! ## Contracts -/

/-- What an outcome must satisfy. -/
def Outcome (post : α → σ → Prop) (fails : ε → σ → Prop) : σ × Except ε α → Prop
  | (s, .ok a) => post a s
  | (s, .error e) => fails e s

def Holds (pre : σ → Prop) (step : Effect σ ε α) (post : α → σ → Prop) (fails : ε → σ → Prop) : Prop :=
  ∀ s, pre s → Outcome post fails (step s)

variable {pre pre' : σ → Prop} {step : Effect σ ε α} {post post' : α → σ → Prop}
  {fails fails' : ε → σ → Prop}

theorem Holds.weaken (holds : Holds pre' step post' fails') (before : ∀ s, pre s → pre' s)
    (after : ∀ a s, post' a s → post a s) (failing : ∀ e s, fails' e s → fails e s) :
    Holds pre step post fails := by
  intro s start
  have outcome := holds s (before s start)
  rcases h : step s with ⟨s', result⟩
  rw [h] at outcome
  cases result with
  | ok a => exact after a s' outcome
  | error e => exact failing e s' outcome

/-- A contract for each value serves for some value. -/
theorem holds_exists {ι : Type} {pre : ι → σ → Prop} (each : ∀ i, Holds (pre i) step post fails) :
    Holds (fun s => ∃ i, pre i s) step post fails := by
  rintro s ⟨i, start⟩
  exact each i s start

theorem holds_pure {a : α} (done : ∀ s, pre s → post a s) :
    Holds pre (pure a : Effect σ ε α) post fails := done

theorem holds_fail {e : ε} (failing : ∀ s, pre s → fails e s) :
    Holds pre (fail e : Effect σ ε α) post fails := failing

theorem holds_get {post : σ → σ → Prop} (done : ∀ s, pre s → post s s) :
    Holds pre (get : Effect σ ε σ) post fails := done

theorem holds_modify {f : σ → σ} {post : Unit → σ → Prop} (done : ∀ s, pre s → post () (f s)) :
    Holds pre (modify f : Effect σ ε Unit) post fails := done

theorem holds_answer {x : Except ε α} (done : ∀ a s, x = .ok a → pre s → post a s)
    (failing : ∀ e s, x = .error e → pre s → fails e s) :
    Holds pre (answer x : Effect σ ε α) post fails := by
  intro s start
  cases x with
  | ok a => exact done a s rfl start
  | error e => exact failing e s rfl start

theorem holds_require {p : Prop} [Decidable p] {e : ε} {post : Unit → σ → Prop}
    (done : p → ∀ s, pre s → post () s) (failing : ¬ p → ∀ s, pre s → fails e s) :
    Holds pre (require p e : Effect σ ε Unit) post fails := by
  unfold require
  by_cases h : p
  · rw [if_pos h]
    exact done h
  · rw [if_neg h]
    exact failing h

/-- What does not touch the state keeps what holds of it. -/
theorem keeps_answer {x : Except ε α} {stop : σ → Prop} (failing : ∀ s, pre s → stop s) :
    Holds pre (answer x : Effect σ ε α) (fun _ => pre) (fun _ => stop) :=
  holds_answer (fun _ _ _ start => start) fun _ s _ start => failing s start

theorem keeps_require {p : Prop} [Decidable p] {e : ε} {stop : σ → Prop} (failing : ∀ s, pre s → stop s) :
    Holds pre (require p e : Effect σ ε Unit) (fun _ => pre) (fun _ => stop) :=
  holds_require (fun _ _ start => start) fun _ s start => failing s start

/-- What does not touch the state, with a failure that may be looked at. -/
theorem passes_answer {x : Except ε α} (failing : ∀ e s, x = .error e → pre s → fails e s) :
    Holds pre (answer x : Effect σ ε α) (fun _ => pre) fails :=
  holds_answer (fun _ _ _ start => start) failing

theorem passes_require {p : Prop} [Decidable p] {e : ε} (failing : ∀ s, pre s → fails e s) :
    Holds pre (require p e : Effect σ ε Unit) (fun _ => pre) fails :=
  holds_require (fun _ _ start => start) fun _ s start => failing s start

theorem keeps_get {stop : ε → σ → Prop} : Holds pre (get : Effect σ ε σ) (fun _ => pre) stop :=
  holds_get fun _ start => start

theorem keeps_modify {f : σ → σ} {stop : ε → σ → Prop} (keeps : ∀ s, pre s → pre (f s)) :
    Holds pre (modify f : Effect σ ε Unit) (fun _ => pre) stop :=
  holds_modify keeps

theorem keeps_pure {a : α} {stop : ε → σ → Prop} : Holds pre (pure a : Effect σ ε α) (fun _ => pre) stop :=
  holds_pure fun _ start => start

theorem Holds.bind {next : α → Effect σ ε β} {between : α → σ → Prop} {post : β → σ → Prop}
    (first : Holds pre step between fails) (second : ∀ a, Holds (between a) (next a) post fails) :
    Holds pre (step >>= next) post fails := by
  intro s start
  have outcome := first s start
  show Outcome post fails (match step s with
    | (s', .ok a) => next a s'
    | (s', .error e) => (s', .error e))
  rcases h : step s with ⟨s', result⟩
  rw [h] at outcome
  cases result with
  | ok a => exact second a s' outcome
  | error e => exact outcome

theorem bind_ok {next : α → Effect σ ε β} {s s' : σ} {a : α} (first : step s = (s', .ok a)) :
    (step >>= next) s = next a s' := by
  show (match step s with
    | (s', .ok a) => next a s'
    | (s', .error e) => (s', .error e)) = next a s'
  rw [first]

theorem bind_error {next : α → Effect σ ε β} {s s' : σ} {e : ε} (first : step s = (s', .error e)) :
    (step >>= next) s = (s', .error e) := by
  show (match step s with
    | (s', .ok a) => next a s'
    | (s', .error e) => (s', .error e)) = (s', Except.error e)
  rw [first]

/-- A step that cannot fail reaches its postcondition. -/
theorem Holds.success (holds : Holds pre step post fun _ _ => False) {s : σ} (start : pre s) :
    ∃ s' a, step s = (s', .ok a) ∧ post a s' := by
  have outcome := holds s start
  rcases h : step s with ⟨s', result⟩
  rw [h] at outcome
  cases result with
  | ok a => exact ⟨s', a, rfl, outcome⟩
  | error e => exact outcome.elim

/-- What is answered is known. -/
theorem holds_answered {x : Except ε α} {a : α} (is : x = .ok a) :
    Holds pre (answer x : Effect σ ε α) (fun b s => b = a ∧ pre s) fails := by
  subst is
  intro s start
  exact ⟨rfl, start⟩

theorem holds_required {p : Prop} [Decidable p] {e : ε} (met : ∀ s, pre s → p) :
    Holds pre (require p e : Effect σ ε Unit) (fun _ => pre) fails :=
  holds_require (fun _ _ start => start) fun unmet s start => absurd (met s start) unmet

theorem bind_apply {next : α → Effect σ ε β} {s : σ} : (step >>= next) s = match step s with
    | (s', .ok a) => next a s'
    | (s', .error e) => (s', .error e) := rfl

theorem bind_assoc {γ : Type} (step : Effect σ ε α) (next : α → Effect σ ε β) (last : β → Effect σ ε γ) :
    ((step >>= next) >>= last) = step >>= fun a => next a >>= last := by
  funext s
  rcases h : step s with ⟨s', result⟩
  cases result with
  | ok a => rw [bind_ok h, bind_apply, bind_ok h, bind_apply]
  | error e => rw [bind_error h, bind_error (bind_error h)]

theorem pure_apply {a : α} {s : σ} : (pure a : Effect σ ε α) s = (s, .ok a) := rfl

theorem require_apply {p : Prop} [Decidable p] {e : ε} {s : σ} :
    (require p e : Effect σ ε Unit) s = if p then (s, .ok ()) else (s, .error e) := by
  unfold require
  split <;> rfl

/-- `Holds.bind` through a named condition. -/
theorem holds_via {next : α → Effect σ ε β} (between : α → σ → Prop) {post : β → σ → Prop}
    (first : Holds pre step between fails) (second : ∀ a, Holds (between a) (next a) post fails) :
    Holds pre (step >>= next) post fails :=
  first.bind second

theorem Holds.capture (holds : Holds pre step post fails) {after : Except ε α → σ → Prop}
    {never : ε → σ → Prop} (done : ∀ a s, post a s → after (.ok a) s)
    (failing : ∀ e s, fails e s → after (.error e) s) :
    Holds pre (capture step) after never := by
  intro s start
  have outcome := holds s start
  unfold Effect.capture
  rcases h : step s with ⟨s', result⟩
  rw [h] at outcome
  cases result with
  | ok a => exact done a s' outcome
  | error e => exact failing e s' outcome

theorem Holds.within {part : σ → τ} {put : σ → τ → σ} {step : Effect τ ε α} {inner : τ → Prop}
    {innerPost : α → τ → Prop} {innerFails : ε → τ → Prop} (holds : Holds inner step innerPost innerFails)
    (enter : ∀ s, pre s → inner (part s)) (leave : ∀ a s t, pre s → innerPost a t → post a (put s t))
    (failing : ∀ e s t, pre s → innerFails e t → fails e (put s t)) :
    Holds pre (within part put step) post fails := by
  intro s start
  have outcome := holds (part s) (enter s start)
  unfold Effect.within
  rcases h : step (part s) with ⟨t, result⟩
  rw [h] at outcome
  cases result with
  | ok a => exact leave a s t start outcome
  | error e => exact failing e s t start outcome

theorem Holds.forEach {step : α → Effect σ ε Unit} (invariant : σ → Prop)
    (each : ∀ a, Holds invariant (step a) (fun _ => invariant) fails) (as : List α) :
    Holds invariant (forEach step as) (fun _ => invariant) fails := by
  induction as with
  | nil => exact holds_pure fun s start => start
  | cons a as ih => exact (each a).bind fun _ => ih

/-- `Holds.forEach` with what remains to be done in the invariant. -/
theorem holds_forEach_rest {step : α → Effect σ ε Unit} (invariant : List α → σ → Prop)
    (each : ∀ a as, Holds (invariant (a :: as)) (step a) (fun _ => invariant as) fails) (as : List α) :
    Holds (invariant as) (forEach step as) (fun _ => invariant []) fails := by
  induction as with
  | nil => exact holds_pure fun s start => start
  | cons a as ih => exact (each a as).bind fun _ => ih

/-! ## Parts that a step leaves alone -/

/-- Whatever its outcome, the step leaves a part of the state as it was. -/
def Spares (part : σ → τ) (fails : ε → Prop) (step : Effect σ ε α) : Prop :=
  ∀ s, part (step s).1 = part s ∧ ∀ e, (step s).2 = .error e → fails e

section Spares

variable {part : σ → τ} {failing : ε → Prop}

theorem spares_pure (a : α) : Spares part failing (pure a : Effect σ ε α) := by
  intro s
  refine ⟨rfl, ?_⟩
  intro e failed
  cases failed

theorem spares_get : Spares part failing (get : Effect σ ε σ) := by
  intro s
  refine ⟨rfl, ?_⟩
  intro e failed
  cases failed

theorem spares_modify {f : σ → σ} (same : ∀ s, part (f s) = part s) :
    Spares part failing (modify f : Effect σ ε Unit) := by
  intro s
  refine ⟨same s, ?_⟩
  intro e failed
  cases failed

theorem spares_answer {x : Except ε α} (stops : ∀ e, x = .error e → failing e) :
    Spares part failing (answer x : Effect σ ε α) :=
  fun _ => ⟨rfl, stops⟩

theorem spares_fail {e : ε} (stops : failing e) : Spares part failing (fail e : Effect σ ε α) := by
  intro s
  refine ⟨rfl, ?_⟩
  intro e' failed
  cases failed
  exact stops

theorem spares_require {p : Prop} [Decidable p] {e : ε} (stops : failing e) :
    Spares part failing (require p e : Effect σ ε Unit) := by
  unfold require
  split
  · exact spares_pure ()
  · exact spares_fail stops

theorem Spares.bind {step : Effect σ ε α} {next : α → Effect σ ε β} (first : Spares part failing step)
    (second : ∀ a, Spares part failing (next a)) : Spares part failing (step >>= next) := by
  intro s
  obtain ⟨same, stops⟩ := first s
  rcases h : step s with ⟨s', result⟩
  rw [h] at same stops
  cases result with
  | ok a =>
      rw [bind_ok h]
      obtain ⟨same', stops'⟩ := second a s'
      exact ⟨same'.trans same, stops'⟩
  | error e =>
      rw [bind_error h]
      refine ⟨same, ?_⟩
      intro e' failed
      cases failed
      exact stops e rfl

theorem Spares.within {ρ ω : Type} {inner : σ → ρ} {put : σ → ρ → σ} {kept : ρ → ω} {step : Effect ρ ε α}
    (spares : Spares kept failing step) (same : ∀ s t, kept t = kept (inner s) → part (put s t) = part s) :
    Spares part failing (Effect.within inner put step) := by
  intro s
  obtain ⟨kept', stops⟩ := spares (inner s)
  unfold Effect.within
  rcases h : step (inner s) with ⟨t, result⟩
  rw [h] at kept' stops
  exact ⟨same s t kept', stops⟩

/-- What holds of the part still holds after the step. -/
theorem Spares.holds {step : Effect σ ε α} (spares : Spares part failing step) (inner : τ → Prop)
    (enter : ∀ s, pre s → inner (part s)) (post : ∀ a s, inner (part s) → post' a s)
    (stop : ∀ e s, inner (part s) → failing e → fails e s) : Holds pre step post' fails := by
  intro s start
  obtain ⟨same, stops⟩ := spares s
  have kept := enter s start
  rw [← same] at kept
  rcases h : step s with ⟨s', result⟩
  rw [h] at kept stops
  cases result with
  | ok a => exact post a s' kept
  | error e => exact stop e s' kept (stops e rfl)

end Spares

end Effect

end Metewand.Lib
