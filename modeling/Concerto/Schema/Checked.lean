import Concerto.Schema.Violation

/-!
Results of checking a value, which collect every violation.

* `Checked`: a result, or the violations that stand against one;
* `Checked.ok_iff_seq`: two results combine exactly when both are there; otherwise the
  violations of the first come before those of the second.
-/

namespace Concerto

/-- A result, or what stands against it. -/
inductive Checked (α : Type) where
  | ok (value : α)
  | bad (violations : List Violation)
  deriving DecidableEq

namespace Checked

variable {α β : Type}

/-- The violations, none for a result. -/
def violations : Checked α → List Violation
  | ok _ => []
  | bad vs => vs

/-- A single problem of the value as a whole. -/
def problem (p : Problem) : Checked α := bad [⟨[], p⟩]

/-- Applies a function to the result. -/
def map (f : α → β) : Checked α → Checked β
  | ok a => ok (f a)
  | bad vs => bad vs

/-- Combines a function and its argument; the violations of both are kept. -/
def seq (f : Checked (α → β)) (a : Checked α) : Checked β :=
  match f, a with
  | ok f, ok a => ok (f a)
  | ok _, bad vs => bad vs
  | bad vs, a => bad (vs ++ a.violations)

instance : Applicative Checked where
  pure := ok
  map := map
  seq f a := seq f (a ())

/-- Moves the violations below a key or an index. -/
def within (segment : String) : Checked α → Checked α
  | ok a => ok a
  | bad vs => bad (vs.map fun v => { v with path := segment :: v.path })

/-- Adds violations that come after those of the result. -/
def andThen (c : Checked α) (more : List Violation) : Checked α :=
  match c, more with
  | ok a, [] => ok a
  | c, more => bad (c.violations ++ more)

/-- The result, if nothing stands against it. -/
def toExcept : Checked α → Except (List Violation) α
  | ok a => .ok a
  | bad vs => .error vs

@[simp] theorem map_ok (f : α → β) (a : α) : f <$> (ok a) = ok (f a) := rfl

@[simp] theorem seq_ok (f : α → β) (a : α) : ok f <*> ok a = ok (f a) := rfl

@[simp] theorem pure_eq (a : α) : (pure a : Checked α) = ok a := rfl

@[simp] theorem within_ok (segment : String) (a : α) : (ok a).within segment = ok a := rfl

@[simp] theorem andThen_nil_ok (a : α) : (ok a).andThen [] = ok a := rfl

/-- Two results combine exactly when both are there. -/
theorem ok_iff_seq {f : Checked (α → β)} {a : Checked α} {b : β} :
    f <*> a = ok b ↔ ∃ g x, f = ok g ∧ a = ok x ∧ g x = b := by
  change seq f a = ok b ↔ _
  cases f <;> cases a <;> simp [seq]

/-- The items of a list in their order, each below its index, counted from `first`. -/
def items (check : Json → Checked α) (first : Nat) : List Json → Checked (List α)
  | [] => ok []
  | item :: rest =>
    (· :: ·) <$> (check item).within (toString first) <*> items check (first + 1) rest

end Checked

end Concerto
