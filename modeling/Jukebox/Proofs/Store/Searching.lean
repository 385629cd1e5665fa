import Jukebox.Proofs.RoomName
import Jukebox.Proofs.Store.Asking

/-!
# Searching for rooms

A search compares normal forms, in memory by looking for a piece, in the database by a pattern.
The normal form of a query holds no sign of a pattern, and a piece of a display name is
normalized to a piece of its normal form. So both stores find exactly the rooms whose normal
forms contain that of the query, and among these are all rooms whose display names contain the
query itself.
-/

namespace Jukebox

open Store Memory

variable {α : Type} {name : α → String} {items : List α}

theorem mem_byName {item : α} : item ∈ byName name items ↔ item ∈ items :=
  List.mem_mergeSort

theorem perm_byName (name : α → String) (items : List α) : (byName name items).Perm items :=
  List.mergeSort_perm items _

theorem pairwise_byName (name : α → String) (items : List α) :
    (byName name items).Pairwise fun a b => name a ≤ name b := by
  have hle : ∀ a b : α, (!decide (name b < name a)) = true ↔ name a ≤ name b := by
    intro a b
    rw [Bool.not_eq_true', decide_eq_false_iff_not, String.not_lt]
  have hsorted : (byName name items).Pairwise fun a b => !decide (name b < name a) := by
    apply List.pairwise_mergeSort
    · intro a b c hab hbc
      exact (hle a c).mpr (String.le_trans ((hle a b).mp hab) ((hle b c).mp hbc))
    · intro a b
      rw [Bool.or_eq_true, hle, hle]
      exact String.le_total (name a) (name b)
  exact hsorted.imp fun {a b} hab => (hle a b).mp hab

/-!
## What is found
-/

/-- What a search finds among the rooms that a store shows. -/
structure FoundRooms (asked : Operation → Except StoreError Reply) (query : String)
    (found : List Room) : Prop where
  exactly : ∀ room, room ∈ found ↔ (∃ id, asked (.room id) = .ok (.room room)) ∧
    normalizeName query ≠ "" ∧
    (normalizeName query).toList <:+: (normalizeName room.displayName).toList
  once : (found.map Room.id).Nodup
  sorted : found.Pairwise fun a b => a.displayName ≤ b.displayName
  pieces : ∀ id room, asked (.room id) = .ok (.room room) → normalizeName query ≠ "" →
    query.toList.map Char.toLower <:+: room.displayName.toList.map Char.toLower → room ∈ found
  nothing : normalizeName query = "" → found = []

def FindsRooms (asked : Operation → Except StoreError Reply) (query : String) : Prop :=
  ∃ found, asked (.searchRooms query) = .ok (.rooms found) ∧ FoundRooms asked query found

variable {asked : Operation → Except StoreError Reply} {query : String} {found : List Room}

theorem foundRooms_of_exactly
    (hexactly : ∀ room, room ∈ found ↔ (∃ id, asked (.room id) = .ok (.room room)) ∧
      normalizeName query ≠ "" ∧
      (normalizeName query).toList <:+: (normalizeName room.displayName).toList)
    (honce : (found.map Room.id).Nodup)
    (hsorted : found.Pairwise fun a b => a.displayName ≤ b.displayName) :
    FoundRooms asked query found where
  exactly := hexactly
  once := honce
  sorted := hsorted
  pieces := by
    intro id room hroom hquery hpiece
    refine (hexactly room).mpr ⟨⟨id, hroom⟩, hquery, ?_⟩
    have hnormal := isInfix_normalizedChars hpiece
    rw [normalizedChars_map_toLower, normalizedChars_map_toLower] at hnormal
    rw [toList_normalizeName, toList_normalizeName]
    exact hnormal
  nothing := by
    intro hquery
    apply List.eq_nil_iff_forall_not_mem.mpr
    intro room hroom
    exact ((hexactly room).mp hroom).2.1 hquery

/-!
## Both stores
-/

variable {config : Config} {operations : List Operation}
  {answers : Nat → Operation → Except StoreError Reply} {states : Nat → Memory}

theorem Course.exists_room_iff (h : Course config operations answers states) (i : Nat)
    {room : Room} :
    (∃ id, answers i (.room id) = .ok (.room room)) ↔
    room ∈ (states i).rooms.map RoomState.room := by
  rw [List.mem_map]
  constructor
  · rintro ⟨id, hroom⟩
    rcases h.room_iff.mp hroom with ⟨state, hstate, rfl⟩
    exact ⟨state, (mem_of_room? hstate).1, rfl⟩
  · rintro ⟨state, hstate, rfl⟩
    exact ⟨state.room.id, h.room_iff.mpr ⟨state, room?_of_mem (h.sound i).roomIds hstate, rfl⟩⟩

theorem Course.findsRooms (h : Course config operations answers states) (i : Nat)
    (query : String) : FindsRooms (answers i) query := by
  rcases h.shows i (.searchRooms query) rfl with ⟨reply, changed, hstep, hshows⟩
  have hanswer := hshows.eq_of_plain rfl
  cases hstep with
  | roomsFound =>
      refine ⟨_, hanswer.elim id id, ?_⟩
      -- Rooms have identifiers of their own, and none is repeated when they are filtered and
      -- sorted.
      have hids : (((states i).rooms.map RoomState.room).map Room.id).Nodup := by
        rw [List.map_map]
        exact (h.sound i).roomIds
      by_cases hempty : (normalizeName query).isEmpty
      · rw [if_pos hempty]
        apply foundRooms_of_exactly
        · intro room
          simp [String.isEmpty_iff.mp hempty]
        · exact List.nodup_nil
        · exact List.Pairwise.nil
      · rw [if_neg hempty]
        apply foundRooms_of_exactly
        · intro room
          have hquery : normalizeName query ≠ "" := mt String.isEmpty_iff.mpr hempty
          rw [mem_byName, List.mem_filter, h.exists_room_iff, nameMatches, occursIn_iff]
          simp [hquery]
        · have hperm :=
            (perm_byName Room.displayName (((states i).rooms.map RoomState.room).filter
            fun room => nameMatches (normalizeName query)
              (normalizeName room.displayName))).map Room.id
          exact hperm.nodup_iff.mpr (hids.sublist (List.filter_sublist.map Room.id))
        · exact pairwise_byName Room.displayName _

/-- Every room is found by every piece of its name. -/
theorem rooms_found_by_pieces (config : Config) (operations : List Operation) (i : Nat) :
    Normalizes normalizeName ∧
      ∀ query, FindsRooms (ask config Memory.empty operations i) query ∧
        FindsRooms (ask config Database.empty operations i) query :=
  ⟨normalizes_normalizeName, fun query =>
    ⟨(course_memory config operations).findsRooms i query,
      (course_database config operations).findsRooms i query⟩⟩

end Jukebox
