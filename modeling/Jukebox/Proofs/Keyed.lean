import Mathlib.Data.List.Basic
import Mathlib.Data.List.Nodup
import Mathlib.Data.List.Perm.Basic

/-!
# Rows with keys

Entries, users, rooms and stored rows are kept in lists and looked up by a key. This module
holds what such lists share as long as no key stands twice: a look-up does not depend on the
order of the rows, and changing the row of one key leaves the rows of all others alone.
-/

namespace Jukebox
namespace Keyed

variable {α κ : Type} {key : α → κ} {rows : List α}

theorem notMem_map_filter (hkeys : (rows.map key).Nodup) {keep : α → Bool} {row : α}
    (hrow : row ∈ rows) (hout : keep row = false) : key row ∉ (rows.filter keep).map key := by
  intro hmem
  rcases List.mem_map.mp hmem with ⟨twin, htwin, hkey⟩
  rcases List.mem_filter.mp htwin with ⟨hold, hkept⟩
  rw [List.inj_on_of_nodup_map hkeys hold hrow hkey, hout] at hkept
  cases hkept

variable [DecidableEq κ]

theorem find?_eq_none_iff {k : κ} :
    rows.find? (fun row => key row = k) = none ↔ k ∉ rows.map key := by
  simp [List.find?_eq_none]

theorem find?_isSome_iff {k : κ} :
    (rows.find? (fun row => key row = k)).isSome ↔ k ∈ rows.map key := by
  simp [List.find?_isSome]

theorem mem_of_find? {k : κ} {row : α} (h : rows.find? (fun row => key row = k) = some row) :
    row ∈ rows ∧ key row = k :=
  ⟨List.mem_of_find?_eq_some h, by simpa using List.find?_some h⟩

theorem find?_eq_some_iff (hkeys : (rows.map key).Nodup) {k : κ} {row : α} :
    rows.find? (fun row => key row = k) = some row ↔ row ∈ rows ∧ key row = k := by
  constructor
  · exact mem_of_find?
  · rintro ⟨hmem, hkey⟩
    cases hfind : rows.find? fun row => key row = k with
    | none =>
        exact absurd (List.mem_map_of_mem hmem) (hkey ▸ find?_eq_none_iff.mp hfind)
    | some found =>
        have hfound := mem_of_find? hfind
        rw [List.inj_on_of_nodup_map hkeys hfound.1 hmem (hfound.2.trans hkey.symm)]

theorem find?_perm {others : List α} (h : rows.Perm others) (hkeys : (rows.map key).Nodup)
    (k : κ) : rows.find? (fun row => key row = k) = others.find? (fun row => key row = k) := by
  have hothers : (others.map key).Nodup := (h.map key).nodup_iff.mp hkeys
  apply Option.ext
  intro row
  rw [find?_eq_some_iff hkeys, find?_eq_some_iff hothers, h.mem_iff]

/-!
## Adding and deleting rows
-/

theorem find?_concat (row : α) (k : κ) :
    (rows ++ [row]).find? (fun row => key row = k) =
      (rows.find? fun row => key row = k).or (if key row = k then some row else none) := by
  rw [List.find?_append]
  by_cases h : key row = k <;> simp [h]

theorem find?_filter_ne (k j : κ) :
    (rows.filter fun row => key row ≠ k).find? (fun row => key row = j) =
      if j = k then none else rows.find? fun row => key row = j := by
  rw [List.find?_filter]
  split
  · subst_vars
    simp [List.find?_eq_none]
  · rename_i hne
    congr 1
    funext row
    by_cases h : key row = j <;> simp [h, hne]

/-!
## Changing one row
-/

def update (key : α → κ) (k : κ) (change : α → α) (rows : List α) : List α :=
  rows.map fun row => if key row = k then change row else row

variable {k : κ} {change : α → α}

theorem map_key_update (hchange : ∀ row, key row = k → key (change row) = k) :
    (update key k change rows).map key = rows.map key := by
  simp only [update, List.map_map]
  apply List.map_congr_left
  intro row _
  by_cases h : key row = k
  · simp [h, hchange row h]
  · simp [h]

theorem update_of_notMem (h : k ∉ rows.map key) : update key k change rows = rows := by
  unfold update
  conv_rhs => rw [← List.map_id rows]
  apply List.map_congr_left
  intro row hrow
  rw [if_neg]
  · rfl
  · rintro rfl
    exact h (List.mem_map_of_mem hrow)

@[simp]
theorem length_update : (update key k change rows).length = rows.length := by
  simp [update]

theorem update_append (others : List α) :
    update key k change (rows ++ others) = update key k change rows ++
      update key k change others := by
  simp [update]

theorem update_self (row : α) : update key (key row) change [row] = [change row] := by
  simp [update]

theorem update_cut {before after : List α} {row : α}
    (hkeys : ((before ++ row :: after).map key).Nodup) :
    update key (key row) change (before ++ row :: after) = before ++ change row :: after := by
  rw [List.map_append, List.map_cons, List.nodup_append, List.nodup_cons] at hkeys
  have hbefore : key row ∉ before.map key := fun hagain =>
    hkeys.2.2 _ hagain _ List.mem_cons_self rfl
  rw [update_append, ← List.singleton_append, update_append, update_self,
    update_of_notMem hbefore, update_of_notMem hkeys.2.1.1, List.singleton_append]

theorem find?_update (hchange : ∀ row, key row = k → key (change row) = k) (j : κ) :
    (update key k change rows).find? (fun row => key row = j) =
      if j = k then (rows.find? fun row => key row = k).map change
      else rows.find? fun row => key row = j := by
  have hkey : ∀ row : α, (key (if key row = k then change row else row) = j) =
      (key row = j) := by
    intro row
    by_cases h : key row = k
    · simp [h, hchange row h]
    · simp [h]
  simp only [update, List.find?_map, Function.comp_def, hkey]
  by_cases hj : j = k
  · subst hj
    simp only [if_true]
    apply Option.map_congr
    intro row hrow
    simp [(mem_of_find? hrow).2]
  · simp only [if_neg hj]
    conv_rhs => rw [← Option.map_id' (x := rows.find? fun row => key row = j)]
    apply Option.map_congr
    intro row hrow
    simp [(mem_of_find? hrow).2, hj]

end Keyed
end Jukebox
