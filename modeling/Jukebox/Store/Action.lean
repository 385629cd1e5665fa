import Jukebox.Store.Error

/-!
# Actions on a store

An action changes a store step by step and may fail on the way. What it changed before it
failed stays changed, unless the action runs as a transaction.
-/

namespace Jukebox

/-- A computation on a store of type `σ`. -/
abbrev Action (σ α : Type) : Type :=
  ExceptT StoreError (StateM σ) α

namespace Action

variable {σ α : Type}

/-- Runs an action: its answer, and the store it leaves behind. -/
def run (action : Action σ α) (store : σ) : Except StoreError α × σ :=
  (ExceptT.run action) store

/-- The action with a given meaning. -/
def ofRun (f : σ → Except StoreError α × σ) : Action σ α :=
  ExceptT.mk f

@[simp]
theorem run_ofRun (f : σ → Except StoreError α × σ) (store : σ) :
    (ofRun f).run store = f store :=
  rfl

/-- Undoes all changes of an action that fails. -/
def transaction (action : Action σ α) : Action σ α :=
  ofRun fun store =>
    match action.run store with
    | (.ok value, changed) => (.ok value, changed)
    | (.error error, _) => (.error error, store)

/-- The value of an option, or an error where there is none. -/
def require (error : StoreError) : Option α → Action σ α
  | some value => pure value
  | none => throw error

/-- Goes on only where a condition holds. -/
def check (error : StoreError) (condition : Bool) : Action σ Unit :=
  if condition then pure () else throw error

/-- Continues with a result that was computed without the store. -/
def lift : Except StoreError α → Action σ α
  | .ok value => pure value
  | .error error => throw error

end Action

end Jukebox
