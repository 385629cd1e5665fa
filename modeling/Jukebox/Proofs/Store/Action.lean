import Jukebox.Store.Action

/-!
# Running actions

What each way to build an action means for the answer and for the store that is left behind.
With these rules `simp` runs an operation step by step.
-/

namespace Jukebox
namespace Action

variable {σ α β : Type} (store : σ)

@[simp]
theorem run_pure (value : α) : (pure value : Action σ α).run store = (.ok value, store) :=
  rfl

@[simp]
theorem run_throw (error : StoreError) :
    (throw error : Action σ α).run store = (.error error, store) :=
  rfl

@[simp]
theorem run_get : (get : Action σ σ).run store = (.ok store, store) :=
  rfl

@[simp]
theorem run_modify (change : σ → σ) :
    (modify change : Action σ PUnit).run store = (.ok ⟨⟩, change store) :=
  rfl

@[simp]
theorem run_bind (action : Action σ α) (next : α → Action σ β) :
    (action >>= next).run store =
      match action.run store with
      | (.ok value, changed) => (next value).run changed
      | (.error error, changed) => (.error error, changed) := by
  simp only [run, bind, ExceptT.bind, ExceptT.run, ExceptT.mk, StateT.bind, ExceptT.bindCont]
  rcases action store with ⟨answer, changed⟩
  cases answer <;> rfl

@[simp]
theorem run_map (f : α → β) (action : Action σ α) :
    (f <$> action).run store = ((action.run store).1.map f, (action.run store).2) := by
  simp only [run, Functor.map, ExceptT.map, ExceptT.run, ExceptT.mk, StateT.bind, bind]
  rcases action store with ⟨answer, changed⟩
  cases answer <;> rfl

@[simp]
theorem map_ok (f : α → β) (value : α) :
    (Except.ok value : Except StoreError α).map f = .ok (f value) :=
  rfl

@[simp]
theorem map_error (f : α → β) (error : StoreError) :
    (Except.error error : Except StoreError α).map f = .error error :=
  rfl

@[simp]
theorem run_require_some (error : StoreError) (value : α) :
    (require error (some value) : Action σ α).run store = (.ok value, store) :=
  rfl

@[simp]
theorem run_require_none (error : StoreError) :
    (require error none : Action σ α).run store = (.error error, store) :=
  rfl

@[simp]
theorem run_check_true (error : StoreError) :
    (check error true : Action σ Unit).run store = (.ok (), store) :=
  rfl

@[simp]
theorem run_lift (outcome : Except StoreError α) :
    (lift outcome : Action σ α).run store = (outcome, store) := by
  cases outcome <;> rfl

theorem run_transaction_ok {action : Action σ α} {value : α} {changed : σ}
    (h : action.run store = (.ok value, changed)) :
    action.transaction.run store = (.ok value, changed) := by
  simp [transaction, h]

theorem run_transaction_error {action : Action σ α} {error : StoreError}
    (h : (action.run store).1 = .error error) :
    action.transaction.run store = (.error error, store) := by
  simp only [transaction, run_ofRun]
  rcases hrun : action.run store with ⟨answer, changed⟩
  rw [hrun] at h
  simp only at h
  rw [h]

theorem run_mapM {action : α → Action σ β} {answer? : α → Option β} {values : List α}
    (h : ∀ value ∈ values, ∃ answer, answer? value = some answer ∧
      (action value).run store = (.ok answer, store)) :
    (values.mapM action).run store = (.ok (values.filterMap answer?), store) := by
  induction values with
  | nil => rfl
  | cons value rest ih =>
      rcases h value List.mem_cons_self with ⟨answer, hanswer, hrun⟩
      have hrest := ih fun value hvalue => h value (List.mem_cons_of_mem _ hvalue)
      simp [hanswer, hrun, hrest]

end Action
end Jukebox
