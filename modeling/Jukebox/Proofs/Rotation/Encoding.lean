import Jukebox.Proofs.Json.Fields
import Jukebox.Proofs.Json.Parser
import Jukebox.Proofs.Rotation.Rotator
import Jukebox.Rotation.Encoding

/-!
# Rotators are stored faithfully

The text a rotator is stored as denotes the rotator again, whatever its numbers say.
-/

namespace Jukebox

open Json

/-!
## Indices
-/

variable {ok : Numeral → Bool} {indices : List Nat}

theorem isClean_indices (h : ∀ index ∈ indices, ok (.ofNat index)) :
    (indicesToJson indices).isClean ok := by
  refine isClean_array ?_
  intro item hitem
  rcases List.mem_map.mp hitem with ⟨index, hindex, rfl⟩
  rw [isClean_nat]
  exact h index hindex

theorem depth_indices_le : (indicesToJson indices).depth ≤ 1 := by
  have hitems : ∀ item ∈ indices.map Json.nat, item.depth ≤ 0 := by
    intro item hitem
    rcases List.mem_map.mp hitem with ⟨index, -, rfl⟩
    exact Nat.le_refl 0
  exact depth_array_le hitems

theorem indicesOfJson?_toJson (h : AreWords indices) :
    indicesOfJson? (indicesToJson indices) = some indices :=
  list?_array fun index hindex => word?_nat (h index hindex)

/-!
## Each kind
-/

namespace RoundRobin

theorem fields?_fields (r : RoundRobin) : (record r.fields).fields? ["order", "cursor"] 2 =
    some (r.fields.map fun field => some field.2) :=
  fields?_record (by rfl) (by decide) 2

theorem ofJson?_record (r : RoundRobin) : ofJson? (record r.fields) = some r := by
  have hnumbers : ofNumbers? r.order r.cursor = some r := dif_pos r.words
  rw [ofJson?, fields?_fields]
  simp [fields, indicesOfJson?_toJson r.areWords_order, word?_nat r.cursor_lt, hnumbers]

end RoundRobin

namespace Shuffle

theorem newcomerOfJson?_toJson {newcomer : Nat × Nat}
    (h : AreWords [newcomer.1, newcomer.2]) :
    newcomerOfJson? (newcomerToJson newcomer) = some newcomer := by
  simp [newcomerOfJson?, newcomerToJson, indicesOfJson?_toJson h]

theorem fields?_fields (s : Shuffle) :
    (record s.fields).fields? ["perm", "cursor", "len", "seed", "epoch", "deferred"] 6 =
      some (s.fields.map fun field => some field.2) :=
  fields?_record (by rfl) (by decide) 6

theorem ofJson?_record (s : Shuffle) : ofJson? (record s.fields) = some s := by
  have hdeferred : list? newcomerOfJson? (.array (s.deferred.map newcomerToJson)) =
      some s.deferred := by
    refine list?_array fun newcomer hnewcomer => newcomerOfJson?_toJson ?_
    exact List.forall_mem_flatMap.mp s.areWords_deferred newcomer hnewcomer
  have hnumbers : ofNumbers? s.perm s.cursor s.size s.seed s.epoch s.deferred = some s :=
    dif_pos s.words
  rw [ofJson?, fields?_fields]
  simp [fields, indicesOfJson?_toJson s.areWords_perm, word?_nat s.cursor_lt,
    word?_nat s.size_lt, word?_nat s.seed_lt, word?_nat s.epoch_lt, hdeferred, hnumbers]

end Shuffle

namespace Lottery

theorem fields?_fields (l : Lottery) : (record l.fields).fields? ["len", "seed", "draws"] 3 =
    some (l.fields.map fun field => some field.2) :=
  fields?_record (by rfl) (by decide) 3

theorem ofJson?_record (l : Lottery) : ofJson? (record l.fields) = some l := by
  have hnumbers : ofNumbers? l.size l.seed l.draws = some l := dif_pos l.words
  rw [ofJson?, fields?_fields]
  simp [fields, word?_nat l.size_lt, word?_nat l.seed_lt, word?_nat l.draws_lt, hnumbers]

end Lottery

/-!
## Rotators
-/

namespace Rotator

def numbers : Rotator → List Nat
  | roundRobin r => r.cursor :: r.order
  | shuffle s => [s.cursor, s.size, s.seed, s.epoch] ++ s.perm ++ slotNumbers s.deferred
  | random l => [l.size, l.seed, l.draws]

variable {r : Rotator}

theorem areWords_numbers (r : Rotator) : AreWords r.numbers := by
  cases r with
  | roundRobin r => exact r.words
  | shuffle s => exact s.words
  | random l => exact l.words

theorem isClean_fields (h : ∀ n ∈ r.numbers, ok (.ofNat n)) :
    ∀ field ∈ r.fields, field.2.isClean ok := by
  cases r with
  | roundRobin r =>
      rcases List.forall_mem_cons.mp h with ⟨hcursor, horder⟩
      simp [fields, RoundRobin.fields, isClean_indices horder, hcursor]
  | shuffle s =>
      simp only [numbers, slotNumbers, List.forall_mem_append, List.forall_mem_flatMap] at h
      rcases h with ⟨⟨hnumbers, hperm⟩, hnewcomers⟩
      have hdeferred : (Json.array (s.deferred.map Shuffle.newcomerToJson)).isClean ok := by
        refine isClean_array ?_
        intro item hitem
        rcases List.mem_map.mp hitem with ⟨newcomer, hnewcomer, rfl⟩
        exact isClean_indices (hnewcomers newcomer hnewcomer)
      simp only [List.forall_mem_cons] at hnumbers
      simp [fields, Shuffle.fields, isClean_indices hperm, hnumbers, hdeferred]
  | random l =>
      simp only [numbers, List.forall_mem_cons] at h
      simp [fields, Lottery.fields, h]

theorem isClean_toJson (h : ∀ n ∈ r.numbers, ok (.ofNat n)) : r.toJson.isClean ok := by
  refine isClean_record ?_
  intro field hfield
  rcases List.mem_cons.mp hfield with rfl | hfield
  · simp
  · exact isClean_fields h field hfield

theorem depth_toJson_le (r : Rotator) : r.toJson.depth ≤ 3 := by
  have hnat : ∀ n : Nat, (Json.nat n).depth ≤ 2 := fun _ => Nat.zero_le 2
  have hindices : ∀ indices, (indicesToJson indices).depth ≤ 2 := fun _ =>
    Nat.le_succ_of_le depth_indices_le
  have hdeferred : ∀ newcomers : List (Nat × Nat),
      (Json.array (newcomers.map Shuffle.newcomerToJson)).depth ≤ 2 := by
    intro newcomers
    have hitems : ∀ item ∈ newcomers.map Shuffle.newcomerToJson, item.depth ≤ 1 := by
      intro item hitem
      rcases List.mem_map.mp hitem with ⟨newcomer, -, rfl⟩
      exact depth_indices_le
    exact depth_array_le hitems
  have hfields : ∀ field ∈ ("kind", Json.text r.kind.key) :: r.fields, field.2.depth ≤ 2 := by
    intro field hfield
    rcases List.mem_cons.mp hfield with rfl | hfield
    · exact Nat.zero_le 2
    · revert field
      cases r <;>
        simp [fields, RoundRobin.fields, Shuffle.fields, Lottery.fields, hnat, hindices,
          hdeferred]
  exact depth_record_le hfields

theorem untag?_toJson (r : Rotator) :
    r.toJson.untag? "kind" = some (r.kind.key, record r.fields) := by
  refine untag?_record ?_
  cases r <;> simp [fields, RoundRobin.fields, Shuffle.fields, Lottery.fields]

theorem ofJson?_toJson (r : Rotator) : ofJson? r.toJson = some r := by
  have hclean : r.toJson.isClean fun numeral => (Single.ofNumeral? numeral).isSome :=
    isClean_toJson fun n hn => Single.ofNumeral?_ofNat (r.areWords_numbers n hn)
  have hdepth : ¬maxDepth < r.toJson.depth := by
    have hle := r.depth_toJson_le
    simp only [maxDepth]
    omega
  have hguard :
      ¬((!r.toJson.isClean fun numeral => (Single.ofNumeral? numeral).isSome) = true ∨
      maxDepth < r.toJson.depth) := by
    simp [hclean, hdepth]
  rw [ofJson?, if_neg (by simpa using hguard), untag?_toJson]
  cases r with
  | roundRobin r => simp [kind, fields, RoundRobin.ofJson?_record]
  | shuffle s => simp [kind, fields, Shuffle.ofJson?_record]
  | random l => simp [kind, fields, Lottery.ofJson?_record]

theorem parse_encode (r : Rotator) : Json.parse r.encode = some r.toJson :=
  parse_compact (isClean_toJson fun n _ => Numeral.isPlain_ofNat n)

theorem decode_encode (r : Rotator) : decode r.encode = .ok r := by
  rw [decode, parse_encode, Option.bind_some, ofJson?_toJson]

end Rotator
end Jukebox
