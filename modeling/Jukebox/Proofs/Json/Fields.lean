import Jukebox.Json.Fields
import Mathlib.Data.List.Nodup

/-!
# Fields are read as they are written

What the values that records are written as have in common: they are clean if their fields are,
no deeper than these, and reading the fields of a record by their names gives them back.
-/

namespace Jukebox
namespace Json

variable {ok : Numeral → Bool} {fields : List (String × Json)}

/-!
## Clean values
-/

theorem itemsClean_iff {items : List Json} :
    itemsClean ok items ↔ ∀ item ∈ items, item.isClean ok := by
  induction items with
  | nil => simp [itemsClean]
  | cons item rest ih => simp [itemsClean, ih]

theorem isClean_array {items : List Json} (h : ∀ item ∈ items, item.isClean ok) :
    (Json.array items).isClean ok := by
  rw [isClean]
  exact itemsClean_iff.mpr h

theorem isClean_record (h : ∀ field ∈ fields, field.2.isClean ok) :
    (record fields).isClean ok := by
  rw [record, isClean]
  induction fields with
  | nil => rfl
  | cons field rest ih =>
      have hrest := ih fun field hfield => h field (List.mem_cons_of_mem _ hfield)
      simpa [membersClean, hrest] using h field List.mem_cons_self

@[simp]
theorem isClean_text (s : String) : (text s).isClean ok = true := by
  simp [text, isClean]

@[simp]
theorem isClean_nat (n : Nat) : (nat n).isClean ok = ok (.ofNat n) := by
  simp [nat, isClean]

theorem isClean_orNull {value : Option Json} (h : ∀ v ∈ value, v.isClean ok) :
    (orNull value).isClean ok := by
  cases value with
  | none => simp [orNull, isClean]
  | some value => exact h value rfl

/-!
## Depth
-/

theorem depth_array_le {items : List Json} {d : Nat} (h : ∀ item ∈ items, item.depth ≤ d) :
    (Json.array items).depth ≤ 1 + d := by
  have hitems : itemsDepth items ≤ d := by
    induction items with
    | nil => exact Nat.zero_le d
    | cons item rest ih =>
        have hrest := ih fun item hitem => h item (List.mem_cons_of_mem _ hitem)
        exact Nat.max_le.mpr ⟨h item List.mem_cons_self, hrest⟩
  rw [depth]
  omega

theorem depth_record_le {d : Nat} (h : ∀ field ∈ fields, field.2.depth ≤ d) :
    (record fields).depth ≤ 1 + d := by
  have hmembers : membersDepth (fields.map fun field => (some field.1, field.2)) ≤ d := by
    induction fields with
    | nil => exact Nat.zero_le d
    | cons field rest ih =>
        have hrest := ih fun field hfield => h field (List.mem_cons_of_mem _ hfield)
        exact Nat.max_le.mpr ⟨h field List.mem_cons_self, hrest⟩
  rw [record, depth]
  omega

/-!
## Reading fields back
-/

theorem valuesAt_record (key : String) :
    valuesAt key (fields.map fun field => (some field.1, field.2)) =
      (fields.filter fun field => field.1 = key).map Prod.snd := by
  simp [valuesAt, List.filter_map, Function.comp_def, List.map_map, beq_eq_decide]

theorem field?_record {key : String} {value : Json} (hkeys : (fields.map Prod.fst).Nodup)
    (hfield : (key, value) ∈ fields) :
    field? (fields.map fun field => (some field.1, field.2)) key = some (some value) := by
  have hvalues : (fields.filter fun field => field.1 = key) = [(key, value)] := by
    induction fields with
    | nil => cases hfield
    | cons field rest ih =>
        simp only [List.map_cons, List.nodup_cons] at hkeys
        rcases List.mem_cons.mp hfield with rfl | hrest
        · have hnone : (rest.filter fun field => field.1 = key) = [] := by
            rw [List.filter_eq_nil_iff]
            intro other hother hkey
            have hmem := List.mem_map_of_mem (f := Prod.fst) hother
            rw [of_decide_eq_true hkey] at hmem
            exact hkeys.1 hmem
          simp [hnone]
        · have hne : field.1 ≠ key := by
            intro hkey
            exact hkeys.1 (hkey ▸ List.mem_map_of_mem (f := Prod.fst) hrest)
          simp [hne, ih hkeys.2 hrest]
  rw [field?, valuesAt_record, hvalues]
  rfl

theorem fields?_record {names : List String} (hnames : fields.map Prod.fst = names)
    (hkeys : names.Nodup) (required : Nat) :
    (record fields).fields? names required = some (fields.map fun field => some field.2) := by
  subst hnames
  have hfound : ∀ part : List (String × Json), (∀ field ∈ part, field ∈ fields) →
      (part.map Prod.fst).mapM (field? (fields.map fun field => (some field.1, field.2))) =
        some (part.map fun field => some field.2) := by
    intro part hpart
    induction part with
    | nil => rfl
    | cons field rest ih =>
        have hfield := field?_record hkeys (hpart field List.mem_cons_self)
        have hrest := ih fun field hfield => hpart field (List.mem_cons_of_mem _ hfield)
        simp [hfield, hrest]
  have htexts : (fields.map fun field => (some field.1, field.2)).all
      (fun member => member.1.isSome) := by
    simp
  rw [record, fields?, if_pos htexts]
  exact hfound fields fun _ hfield => hfield

theorem untag?_record {tag name : String} (htag : tag ∉ fields.map Prod.fst) :
    (record ((tag, text name) :: fields)).untag? tag = some (name, record fields) := by
  have hothers : (fields.filter fun field => field.1 = tag) = [] := by
    rw [List.filter_eq_nil_iff]
    intro field hfield hkey
    have hmem := List.mem_map_of_mem (f := Prod.fst) hfield
    rw [of_decide_eq_true hkey] at hmem
    exact htag hmem
  have hfield : field? (((tag, text name) :: fields).map fun field => (some field.1, field.2))
      tag = some (some (text name)) := by
    rw [field?, valuesAt_record]
    simp [hothers]
  have hrest : ((fields.map fun field => (some field.1, field.2)).filter
      fun member : Option String × Json => member.1 != some tag) =
        fields.map fun field => (some field.1, field.2) := by
    rw [List.filter_eq_self]
    intro member hmember
    rcases List.mem_map.mp hmember with ⟨field, hfield, rfl⟩
    have hne : field.1 ≠ tag := by
      intro hkey
      exact htag (hkey ▸ List.mem_map_of_mem hfield)
    simpa using hne
  rw [record, untag?, hfield]
  simp [text, text?, record, hrest]

/-!
## Reading parts back
-/

theorem mapM_map {α β γ : Type} {write : α → β} {read : β → Option γ} {after : α → γ}
    {values : List α} (h : ∀ value ∈ values, read (write value) = some (after value)) :
    (values.map write).mapM read = some (values.map after) := by
  induction values with
  | nil => rfl
  | cons value rest ih =>
      have hrest := ih fun value hvalue => h value (List.mem_cons_of_mem _ hvalue)
      simp [h value List.mem_cons_self, hrest]

theorem list?_array {α : Type} {write : α → Json} {read : Json → Option α} {values : List α}
    (h : ∀ value ∈ values, read (write value) = some value) :
    list? read (.array (values.map write)) = some values :=
  (mapM_map h).trans (by rw [List.map_id'])

theorem word?_nat {n : Nat} (hn : n < wordLimit) : (nat n).word? = some n := by
  rw [nat, word?, Numeral.toNat?_ofNat, Option.filter_some, if_pos (decide_eq_true hn)]

theorem optional?_orNull {α : Type} {write : α → Json} {read : Json → Option α}
    {value : Option α} (hnull : ∀ v ∈ value, write v ≠ .null)
    (h : ∀ v ∈ value, read (write v) = some v) :
    optional? read (some (orNull (value.map write))) = some value := by
  cases value with
  | none => rfl
  | some value =>
      have hvalue := h value rfl
      have hsome := hnull value rfl
      simp [orNull, optional?, hvalue]

end Json
end Jukebox
