import Mathlib.Logic.Basic

/-!
# Transactions

A transaction body runs on a private copy of a store and either yields a value
together with the changed copy or fails.  `atomically` is the commit discipline
of an embedded database: a body that fails leaves the store as it was.

`Yields x s a s'` is the only judgment the proofs above this module use.  Each
combinator has one inversion rule, tagged for `simp`, so a successful run of a
`do` block falls apart into the successful runs of its statements.
-/

namespace Metewand.Lib

/-- A transaction body over the store type `σ` with failures in `ε`. -/
abbrev Tx (σ ε α : Type) : Type := StateT σ (Except ε) α

namespace Tx

variable {σ ε α β : Type}

/-- Go on only when `p` holds; fail with `e` otherwise. -/
def require (p : Prop) [Decidable p] (e : ε) : Tx σ ε Unit :=
  if p then pure () else throw e

/-- Take the value of `o`; fail with `e` when there is none. -/
def expect (o : Option α) (e : ε) : Tx σ ε α :=
  match o with
  | some a => pure a
  | none => throw e

/-- Run a computation that does not touch the store. -/
def check (x : Except ε α) : Tx σ ε α :=
  match x with
  | .ok a => pure a
  | .error e => throw e

/-- Run one statement for each element, in order. -/
def each (f : α → Tx σ ε Unit) : List α → Tx σ ε Unit
  | [] => pure ()
  | a :: as => do
      f a
      each f as

/-- Commit a body that succeeds, roll back one that fails. -/
def atomically (x : Tx σ ε α) (s : σ) : Except ε α × σ :=
  match x s with
  | .ok (a, s') => (.ok a, s')
  | .error e => (.error e, s)

/-- The body `x` started on `s` yields `a` and leaves `s'`. -/
def Yields (x : Tx σ ε α) (s : σ) (a : α) (s' : σ) : Prop :=
  x s = .ok (a, s')

@[simp]
theorem yields_pure {a b : α} {s s' : σ} :
    Yields (pure a : Tx σ ε α) s b s' ↔ b = a ∧ s' = s := by
  constructor
  · intro h
    cases h
    exact ⟨rfl, rfl⟩
  · rintro ⟨rfl, rfl⟩
    rfl

theorem yields_bind {x : Tx σ ε α} {f : α → Tx σ ε β} {s s' : σ} {b : β} :
    Yields (x >>= f) s b s' ↔ ∃ a mid, Yields x s a mid ∧ Yields (f a) mid b s' := by
  constructor
  · intro h
    change (x s >>= fun p => f p.1 p.2) = .ok (b, s') at h
    cases run : x s with
    | error e =>
        rw [run] at h
        cases h
    | ok p =>
        rw [run] at h
        exact ⟨p.1, p.2, run, h⟩
  · rintro ⟨a, mid, first, rest⟩
    change (x s >>= fun p => f p.1 p.2) = .ok (b, s')
    rw [show x s = .ok (a, mid) from first]
    exact rest

@[simp]
theorem yields_throw {e : ε} {s s' : σ} {a : α} :
    Yields (throw e : Tx σ ε α) s a s' ↔ False := by
  constructor
  · intro h
    cases h
  · exact False.elim

@[simp]
theorem yields_get {s t s' : σ} : Yields (get : Tx σ ε σ) s t s' ↔ t = s ∧ s' = s :=
  yields_pure

@[simp]
theorem yields_modify {f : σ → σ} {s s' : σ} {u : Unit} :
    Yields (modify f : Tx σ ε Unit) s u s' ↔ s' = f s := by
  constructor
  · intro h
    cases h
    rfl
  · rintro rfl
    rfl

@[simp]
theorem yields_require {p : Prop} [Decidable p] {e : ε} {s s' : σ} {u : Unit} :
    Yields (require p e : Tx σ ε Unit) s u s' ↔ p ∧ s' = s := by
  unfold require
  by_cases h : p
  · simp only [h, if_true, yields_pure, true_and]
  · simp only [h, if_false, yields_throw, false_and]

@[simp]
theorem yields_expect {o : Option α} {e : ε} {s s' : σ} {a : α} :
    Yields (expect o e : Tx σ ε α) s a s' ↔ o = some a ∧ s' = s := by
  cases o with
  | none => simp [expect]
  | some b => simp [expect, eq_comm]

@[simp]
theorem yields_check {x : Except ε α} {s s' : σ} {a : α} :
    Yields (check x : Tx σ ε α) s a s' ↔ x = .ok a ∧ s' = s := by
  cases x with
  | error e => simp [check]
  | ok b => simp [check, eq_comm]

@[simp]
theorem yields_each_nil {f : α → Tx σ ε Unit} {s s' : σ} {u : Unit} :
    Yields (each f []) s u s' ↔ s' = s := by
  simp [each]

@[simp]
theorem yields_each_cons {f : α → Tx σ ε Unit} {a : α} {as : List α} {s s' : σ} {u : Unit} :
    Yields (each f (a :: as)) s u s' ↔
      ∃ mid, Yields (f a) s () mid ∧ Yields (each f as) mid u s' := by
  rw [each, yields_bind]
  constructor
  · rintro ⟨⟨⟩, mid, head, rest⟩
    exact ⟨mid, head, rest⟩
  · rintro ⟨mid, head, rest⟩
    exact ⟨(), mid, head, rest⟩

/-! ## A statement followed by the rest of the body -/

section Sequencing

variable {b : β} {s s' : σ}

@[simp]
theorem yields_get_bind {f : σ → Tx σ ε β} : Yields (get >>= f) s b s' ↔ Yields (f s) s b s' :=
  Iff.rfl

@[simp]
theorem yields_pure_bind {a : α} {f : α → Tx σ ε β} :
    Yields (pure a >>= f) s b s' ↔ Yields (f a) s b s' :=
  Iff.rfl

@[simp]
theorem yields_throw_bind {e : ε} {f : α → Tx σ ε β} :
    Yields ((throw e : Tx σ ε α) >>= f) s b s' ↔ False := by
  rw [yields_bind]
  simp

@[simp]
theorem yields_modify_bind {g : σ → σ} {f : Unit → Tx σ ε β} :
    Yields (modify g >>= f) s b s' ↔ Yields (f ()) (g s) b s' :=
  Iff.rfl

@[simp]
theorem yields_require_bind {p : Prop} [Decidable p] {e : ε} {f : Unit → Tx σ ε β} :
    Yields (require p e >>= f) s b s' ↔ p ∧ Yields (f ()) s b s' := by
  rw [yields_bind]
  constructor
  · rintro ⟨⟨⟩, mid, first, rest⟩
    obtain ⟨holds, rfl⟩ := yields_require.mp first
    exact ⟨holds, rest⟩
  · rintro ⟨holds, rest⟩
    exact ⟨(), s, yields_require.mpr ⟨holds, rfl⟩, rest⟩

@[simp]
theorem yields_expect_bind {o : Option α} {e : ε} {f : α → Tx σ ε β} :
    Yields (expect o e >>= f) s b s' ↔ ∃ a, o = some a ∧ Yields (f a) s b s' := by
  rw [yields_bind]
  constructor
  · rintro ⟨a, mid, first, rest⟩
    obtain ⟨value, rfl⟩ := yields_expect.mp first
    exact ⟨a, value, rest⟩
  · rintro ⟨a, value, rest⟩
    exact ⟨a, s, yields_expect.mpr ⟨value, rfl⟩, rest⟩

@[simp]
theorem yields_check_bind {x : Except ε α} {f : α → Tx σ ε β} :
    Yields (check x >>= f) s b s' ↔ ∃ a, x = .ok a ∧ Yields (f a) s b s' := by
  rw [yields_bind]
  constructor
  · rintro ⟨a, mid, first, rest⟩
    obtain ⟨value, rfl⟩ := yields_check.mp first
    exact ⟨a, value, rest⟩
  · rintro ⟨a, value, rest⟩
    exact ⟨a, s, yields_check.mpr ⟨value, rfl⟩, rest⟩

@[simp]
theorem yields_ite {p : Prop} [Decidable p] {x y : Tx σ ε β} :
    Yields (if p then x else y) s b s' ↔
      (p ∧ Yields x s b s') ∨ (¬p ∧ Yields y s b s') := by
  by_cases h : p
  · simp [h]
  · simp [h]

end Sequencing

/-! ## Loops and commits -/

/-- What every statement of a loop keeps, the loop keeps. -/
theorem each_induction {f : α → Tx σ ε Unit} {motive : List α → σ → σ → Prop}
    (nil : ∀ s, motive [] s s)
    (cons : ∀ {a as s mid s'}, Yields (f a) s () mid → motive as mid s' →
      motive (a :: as) s s')
    {as : List α} {s s' : σ} {u : Unit} (run : Yields (each f as) s u s') :
    motive as s s' := by
  induction as generalizing s with
  | nil =>
      rw [yields_each_nil] at run
      subst run
      exact nil _
  | cons a as ih =>
      obtain ⟨mid, head, rest⟩ := yields_each_cons.mp run
      exact cons head (ih rest)

/-- A body that succeeds commits exactly what it leaves. -/
theorem atomically_of_yields {x : Tx σ ε α} {s s' : σ} {a : α} (run : Yields x s a s') :
    atomically x s = (.ok a, s') := by
  unfold atomically
  rw [show x s = .ok (a, s') from run]

/-- Either the body succeeded and its result is committed, or the store is unchanged. -/
theorem atomically_cases (x : Tx σ ε α) (s : σ) :
    (∃ a s', Yields x s a s' ∧ atomically x s = (.ok a, s')) ∨
      (∃ e, x s = .error e ∧ atomically x s = (.error e, s)) := by
  cases run : x s with
  | ok p => exact Or.inl ⟨p.1, p.2, run, atomically_of_yields run⟩
  | error e =>
      refine Or.inr ⟨e, rfl, ?_⟩
      unfold atomically
      rw [run]

/-! ## Bodies composed of statements -/

/-- The body is built from statements in `stmt`, reads and control flow. -/
inductive Composed (stmt : ∀ {α : Type}, Tx σ ε α → Prop) : ∀ {α : Type}, Tx σ ε α → Prop
  | pure {α : Type} (a : α) : Composed stmt (pure a : Tx σ ε α)
  | throw {α : Type} (e : ε) : Composed stmt (throw e : Tx σ ε α)
  | get : Composed stmt (get : Tx σ ε σ)
  | bind {α β : Type} {x : Tx σ ε α} {f : α → Tx σ ε β} :
      Composed stmt x → (∀ a, Composed stmt (f a)) → Composed stmt (x >>= f)
  | statement {α : Type} {x : Tx σ ε α} : stmt x → Composed stmt x

/-- Every successful run of the body takes the store along `rel`. -/
def Evolves (rel : σ → σ → Prop) (x : Tx σ ε α) : Prop :=
  ∀ {s : σ} {a : α} {s' : σ}, Yields x s a s' → rel s s'

namespace Composed

variable {stmt : ∀ {α : Type}, Tx σ ε α → Prop}

theorem require {p : Prop} [Decidable p] {e : ε} :
    Composed stmt (require p e : Tx σ ε Unit) := by
  unfold Tx.require
  split
  · exact .pure ()
  · exact .throw e

theorem expect {o : Option α} {e : ε} : Composed stmt (expect o e : Tx σ ε α) := by
  cases o with
  | none => exact .throw e
  | some a => exact .pure a

theorem check {x : Except ε α} : Composed stmt (check x : Tx σ ε α) := by
  cases x with
  | error e => exact .throw e
  | ok a => exact .pure a

theorem ite {p : Prop} [Decidable p] {x y : Tx σ ε α} (left : Composed stmt x)
    (right : Composed stmt y) : Composed stmt (if p then x else y) := by
  split
  · exact left
  · exact right

theorem each {f : α → Tx σ ε Unit} (body : ∀ a, Composed stmt (f a)) (as : List α) :
    Composed stmt (each f as) := by
  induction as with
  | nil => exact .pure ()
  | cons a as ih => exact .bind (body a) fun _ => ih

theorem mono {stmt' : ∀ {α : Type}, Tx σ ε α → Prop} {x : Tx σ ε α} (body : Composed stmt x)
    (weaker : ∀ {α : Type} {x : Tx σ ε α}, stmt x → stmt' x) : Composed stmt' x := by
  induction body with
  | pure a => exact .pure a
  | throw e => exact .throw e
  | get => exact .get
  | bind _ _ first rest => exact .bind first rest
  | statement s => exact .statement (weaker s)

/-- A preorder that every statement follows, the body follows. -/
theorem evolves {rel : σ → σ → Prop} (refl : ∀ s, rel s s)
    (trans : ∀ {s t u}, rel s t → rel t u → rel s u)
    (step : ∀ {α : Type} {x : Tx σ ε α}, stmt x → Evolves rel x)
    {x : Tx σ ε α} (body : Composed stmt x) : Evolves rel x := by
  induction body with
  | pure a =>
      intro s b s' run
      rw [(yields_pure.mp run).2]
      exact refl s
  | throw e =>
      intro s b s' run
      exact (yields_throw.mp run).elim
  | get =>
      intro s b s' run
      rw [(yields_get.mp run).2]
      exact refl s
  | bind _ _ first rest =>
      intro s b s' run
      obtain ⟨a, mid, head, tail⟩ := yields_bind.mp run
      exact trans (first head) (rest a tail)
  | statement s => exact step s

end Composed

end Tx

end Metewand.Lib
