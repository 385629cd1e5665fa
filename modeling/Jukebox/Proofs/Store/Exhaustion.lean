import Jukebox.Proofs.Store.Runs

/-!
# When a room is exhausted

A room is exhausted if nobody has anything left to play. The search for the next track asks the
rotator once per member, though, and not every search hears of every member: the rest of a
shuffled round goes over into another order, and random turns repeat. So a search can miss
members who have something to play, and then it says that the room is exhausted. This module
states for both stores when that happens, and that it never happens to a round robin or at the
start of a shuffled round.
-/

namespace Jukebox

open Store Memory

def asked (rotator : Rotator) (members : List UserId) : List UserId :=
  rotator.search.filterMap fun index => members[index]?

/-- Whether somebody is not idle, but nobody of those who are asked. -/
def Missed (rotator : Rotator) (members : List UserId) (idle : UserId → Prop) : Prop :=
  (∀ user ∈ asked rotator members, idle user) ∧ ∃ user ∈ members, ¬idle user

/-- How a search for the next track is answered in a room, some of whose members are idle. -/
structure Searched (rotator : Rotator) (members : List UserId) (idle : UserId → Prop)
    (answer : Except StoreError Reply) : Prop where
  exhausted : answer = .error .exhausted ↔ ∀ user ∈ asked rotator members, idle user
  served : answer ≠ .error .exhausted → ∃ user track, answer = .ok (.served user track) ∧
    user.id ∈ asked rotator members ∧ ¬idle user.id

def Memory.Idle (m : Memory) (id : QueueId) : Prop :=
  ∀ queue, m.queue? id = some queue → ∀ entry ∈ queue.entries, entry.played = true

def Tables.Idle (t : Tables) (id : QueueId) : Prop :=
  ∀ row ∈ t.entries, row.queue = id → row.entry.played = true

variable {config : Config} {m : Memory} {t : Tables} {room : RoomId} {state : RoomState}
    {id : QueueId}
  {rotator : Rotator} {members : List UserId} {idle : UserId → Prop}
  {answer : Except StoreError Reply}

/-!
## Who is asked
-/

theorem mem_of_asked {user : UserId} (h : user ∈ asked rotator members) : user ∈ members := by
  rcases List.mem_filterMap.mp h with ⟨index, -, hindex⟩
  exact List.mem_of_getElem? hindex

theorem mem_asked (hwell : rotator.WellFormed) (hroom : rotator.orders + 1 < wordLimit)
    (hsize : rotator.size = members.length) (hwhole : rotator.Whole) {user : UserId} :
    user ∈ asked rotator members ↔ user ∈ members := by
  refine ⟨mem_of_asked, ?_⟩
  intro huser
  rcases List.mem_iff_getElem?.mp huser with ⟨index, hindex⟩
  have hlt : index < rotator.size := hsize ▸ (List.getElem?_eq_some_iff.mp hindex).1
  exact List.mem_filterMap.mpr
    ⟨index, (Rotator.mem_search hwell hroom hwhole).mpr hlt, hindex⟩

theorem not_missed (hwell : rotator.WellFormed) (hroom : rotator.orders + 1 < wordLimit)
    (hsize : rotator.size = members.length) (hwhole : rotator.Whole) :
    ¬Missed rotator members idle := by
  rintro ⟨hidle, user, huser, hbusy⟩
  exact hbusy (hidle user ((mem_asked hwell hroom hsize hwhole).mpr huser))

/-- The answer is right about the whole room, unless the search missed somebody. -/
theorem Searched.exhausted_iff (h : Searched rotator members idle answer) :
    (answer = .error .exhausted ↔ ∀ user ∈ members, idle user) ↔
    ¬Missed rotator members idle := by
  rw [h.exhausted]
  constructor
  · rintro hright ⟨hidle, user, huser, hbusy⟩
    exact hbusy (hright.mp hidle user huser)
  · intro hfound
    refine ⟨fun hidle user huser => ?_, fun hidle user huser =>
      hidle user (mem_of_asked huser)⟩
    by_contra hbusy
    exact hfound ⟨hidle, user, huser, hbusy⟩

/-!
## In memory
-/

theorem Memory.Sound.candidate_eq (h : m.Sound) (hroom : m.room? room = some state)
    {index : Nat} {user : UserId} (hindex : state.members[index]? = some user) :
    (m.candidates state)[index]? = some false ↔ m.Idle ⟨room, user⟩ := by
  rcases h.exists_queue hroom (List.mem_of_getElem? hindex) with ⟨queue, hqueue⟩
  have hcandidate : (m.candidates state)[index]? = some queue.next?.isSome := by
    rw [candidates, List.getElem?_map, hindex, Option.map_some, (mem_of_room? hroom).2, hqueue]
    rfl
  rw [hcandidate, Option.some_inj, Option.isSome_eq_false_iff, Option.isNone_iff_eq_none,
    (h.holds hqueue).next?_eq_none_iff]
  constructor
  · intro hplayed other hother
    rw [hqueue] at hother
    cases hother
    exact hplayed
  · intro hidle
    exact hidle queue hqueue

theorem Memory.Step.searched {changed : Memory} {now : Timestamp} {bound : Nat}
    (hsound : m.Sound) (hwithin : m.Within bound) (hbound : bound < wordLimit)
    (hroom : m.room? room = some state)
    (hstep : Step config m (.nextTrack room now) answer changed) :
    Searched state.rotator state.members (fun user => m.Idle ⟨room, user⟩) answer := by
  have hcounts := hwithin.counts_of_room? hroom
  have hsearch := Rotator.upcoming_eq_search hcounts.wellFormed (hcounts.orders_lt hbound)
  rw [hcounts.size] at hsearch
  cases hstep with
  | nextNoRoom hnone =>
      rw [hnone] at hroom
      cases hroom
  | @exhausted _ _ found hfound _ _ hnobody =>
      have hstate : found = state := Option.some.inj (hfound.symm.trans hroom)
      subst hstate
      have hidle : ∀ user ∈ asked found.rotator found.members, m.Idle ⟨room, user⟩ := by
        intro user huser
        rcases List.mem_filterMap.mp huser with ⟨index, hindex, huser⟩
        exact (hsound.candidate_eq hroom huser).mp (hnobody index (hsearch ▸ hindex))
      exact ⟨⟨fun _ => hidle, fun _ => rfl⟩, fun hanswer => absurd rfl hanswer⟩
  | @served _ _ found hfound _ index _ _ hupcoming hcandidate member hmember user huser
      _ _ _ _ _ _ _ _
      _ _ track _ =>
      have hstate : found = state := Option.some.inj (hfound.symm.trans hroom)
      subst hstate
      have hasked : member ∈ asked found.rotator found.members :=
        List.mem_filterMap.mpr ⟨index, hsearch ▸ hupcoming, hmember⟩
      have hbusy : ¬m.Idle ⟨room, member⟩ := by
        intro hidle
        have hfalse := (hsound.candidate_eq hroom hmember).mpr hidle
        rw [hcandidate] at hfalse
        cases hfalse
      refine ⟨⟨nofun, fun hidle => absurd (hidle member hasked) hbusy⟩, fun _ => ?_⟩
      rw [← (mem_of_user? huser).2] at hasked hbusy
      exact ⟨user, track, rfl, hasked, hbusy⟩

/-!
## In tables
-/

theorem Mirrors.idle_iff (h : Mirrors m t) (id : QueueId) : t.Idle id ↔ m.Idle id := by
  constructor
  · intro hidle queue hqueue entry hentry
    have hstored := (h.entries_perm hqueue).mem_iff.mpr hentry
    rcases List.mem_map.mp hstored with ⟨row, hfound, rfl⟩
    rcases List.mem_filter.mp hfound with ⟨hrow, hid⟩
    exact hidle row hrow (of_decide_eq_true hid)
  · rintro hidle row hrow rfl
    rcases Option.isSome_iff_exists.mp (queue?_isSome_iff.mpr (h.entries.owned row hrow)) with
      ⟨queue, hqueue⟩
    refine hidle queue hqueue row.entry ((h.entries_perm hqueue).mem_iff.mp ?_)
    exact List.mem_map_of_mem (List.mem_filter.mpr ⟨hrow, decide_eq_true rfl⟩)

theorem Together.nextTrack_eq {entries : List EntryId} {tracks : List Track}
    (h : Together entries tracks m t) (config : Config) (room : RoomId) (now : Timestamp) :
    (Store.step config (Database.opened t) (.nextTrack room now)).1 =
      (Store.step config m (.nextTrack room now)).1.map Reply.stored := by
  have hnone : ∀ entry ∈ (Operation.nextTrack room now).newEntries, entry ∉ entries := nofun
  rcases h.step config hnone with ⟨answer, t', hstep, hagree, -⟩
  rw [hstep]
  generalize (Store.step config m (.nextTrack room now)).1 = served at hagree
  cases hagree with
  | same => rfl

theorem Searched.stored (h : Searched rotator members idle answer) :
    Searched rotator members idle (answer.map Reply.stored) where
  exhausted := by
    rw [← h.exhausted]
    cases answer <;> simp [Except.map]
  served := by
    intro hne
    have hserved : answer ≠ .error .exhausted := by
      rintro rfl
      exact hne rfl
    rcases h.served hserved with ⟨user, track, rfl, hasked⟩
    exact ⟨user, track.stored, rfl, hasked⟩

/-!
## After runs
-/

structure Exhaustion (rotator : Rotator) (members : List UserId) (idle : UserId → Prop)
    (answer : Except StoreError Reply) :
    Prop extends Searched rotator members idle answer where
  right : (answer = .error .exhausted ↔ ∀ user ∈ members, idle user) ↔
    ¬Missed rotator members idle
  whole : rotator.Whole → ¬Missed rotator members idle

theorem Exhaustion.stored (h : Exhaustion rotator members idle answer) :
    Exhaustion rotator members idle (answer.map Reply.stored) where
  toSearched := h.toSearched.stored
  right := h.toSearched.stored.exhausted_iff
  whole := h.whole

theorem Memory.Within.exhaustion {bound : Nat} (hwithin : m.Within bound)
    (hbound : bound < wordLimit) (hsound : m.Sound) (config : Config) (now : Timestamp)
    (hroom : m.room? room = some state) :
    Exhaustion state.rotator state.members (fun user => m.Idle ⟨room, user⟩)
      (Store.step config m (.nextTrack room now)).1 := by
  have hcounts := hwithin.counts_of_room? hroom
  have hsearched :=
    (hsound.step config (.nextTrack room now)).searched hsound hwithin hbound hroom
  exact ⟨hsearched, hsearched.exhausted_iff,
    not_missed hcounts.wellFormed (hcounts.orders_lt hbound) hcounts.size⟩

/-- After every run, both stores find a room exhausted exactly if nobody who is asked has
anything to play. This is right about the whole room unless somebody was missed. -/
theorem exhausted_exactly (config : Config) {operations : List Operation}
    (h : Fresh operations) (hlength : operations.length < wordLimit) (room : RoomId)
    (now : Timestamp) :
    (∀ state, (runAll config Memory.empty operations).2.room? room = some state →
      Exhaustion state.rotator state.members
        (fun user => (runAll config Memory.empty operations).2.Idle ⟨room, user⟩)
        (Store.step config (runAll config Memory.empty operations).2
          (.nextTrack room now)).1) ∧
    ∃ t, (runAll config Database.empty operations).2 = Database.opened t ∧
      ∀ row, t.room? room = some row → ∃ rotator, Rotator.decode row.rotator = .ok rotator ∧
        Exhaustion rotator ((t.membersOf room).map fun member => member.2.id)
          (fun user => t.Idle ⟨room, user⟩)
          (Store.step config (Database.opened t) (.nextTrack room now)).1 := by
  rcases together_after config h with ⟨t, hrun, htogether⟩
  have hwithin := (within_after config (Nat.le_of_lt hlength)).2
  generalize (runAll config Memory.empty operations).2 = m at htogether hwithin ⊢
  have hsound := htogether.sound
  refine ⟨fun state hroom => hwithin.exhaustion hlength hsound config now hroom, t, hrun, ?_⟩
  intro row hrow
  rw [htogether.mirrors.room?_eq, Option.map_eq_some_iff] at hrow
  rcases hrow with ⟨state, hroom, rfl⟩
  refine ⟨state.rotator, state.rotator.decode_encode, ?_⟩
  have hmembers : ((t.membersOf room).map fun member => member.2.id) = state.members := by
    rw [htogether.mirrors.map_id_membersOf hsound, hsound.owners_of_room? hroom]
  have hidle : (fun user => t.Idle ⟨room, user⟩) = fun user => m.Idle ⟨room, user⟩ := by
    funext user
    exact propext (htogether.mirrors.idle_iff ⟨room, user⟩)
  rw [hmembers, hidle, htogether.nextTrack_eq config]
  exact (hwithin.exhaustion hlength hsound config now hroom).stored

/-- Only Ann has a track in a room of random turns, and the next two draws both go to Bob. -/
def overlooked : List Operation :=
  [.createUser ⟨"ann"⟩ "Ann", .createUser ⟨"bob"⟩ "Bob",
    .createRoom "Den" .random (fun _ => ⟨"DEN"⟩) 0, .join ⟨"DEN"⟩ ⟨"ann"⟩,
    .join ⟨"DEN"⟩ ⟨"bob"⟩, .addTrack ⟨⟨"DEN"⟩, ⟨"ann"⟩⟩ { id := ⟨"t"⟩, name := "Demo" } none
      ⟨"one"⟩,
    .tracks ⟨⟨"DEN"⟩, ⟨"ann"⟩⟩ .unplayed]

/-- Both stores list Ann's track as unplayed, and answer that the room is exhausted. -/
theorem exhausted_exactly_overlooked :
    Fresh overlooked ∧ overlooked.length < wordLimit ∧
    ((∀ state, (runAll {} Memory.empty overlooked).2.room? ⟨"DEN"⟩ = some state →
      Exhaustion state.rotator state.members
        (fun user => (runAll {} Memory.empty overlooked).2.Idle ⟨⟨"DEN"⟩, user⟩)
        (Store.step {} (runAll {} Memory.empty overlooked).2
          (.nextTrack ⟨"DEN"⟩ ⟨"now", "now"⟩)).1) ∧
      ∃ t, (runAll {} Database.empty overlooked).2 = Database.opened t ∧
        ∀ row, t.room? ⟨"DEN"⟩ = some row →
        ∃ rotator, Rotator.decode row.rotator = .ok rotator ∧
          Exhaustion rotator ((t.membersOf ⟨"DEN"⟩).map fun member => member.2.id)
            (fun user => t.Idle ⟨⟨"DEN"⟩, user⟩)
            (Store.step {} (Database.opened t) (.nextTrack ⟨"DEN"⟩ ⟨"now", "now"⟩)).1) ∧
    (runAll {} Memory.empty overlooked).1[6]? =
      some (.ok (.tracks [⟨⟨"one"⟩, false, { id := ⟨"t"⟩, name := "Demo" }⟩])) ∧
    (runAll {} Database.empty overlooked).1[6]? =
      some (.ok (.tracks [⟨⟨"one"⟩, false, { id := ⟨"t"⟩, name := "Demo" }⟩])) ∧
    (Store.step {} (runAll {} Memory.empty overlooked).2
      (.nextTrack ⟨"DEN"⟩ ⟨"now", "now"⟩)).1 = .error .exhausted ∧
    (Store.step {} (runAll {} Database.empty overlooked).2
      (.nextTrack ⟨"DEN"⟩ ⟨"now", "now"⟩)).1 = .error .exhausted := by
  have hfresh : Fresh overlooked := by decide
  have hlength : overlooked.length < wordLimit := by decide
  have hexhausted : (Store.step {} (runAll {} Memory.empty overlooked).2
      (.nextTrack ⟨"DEN"⟩ ⟨"now", "now"⟩)).1 = .error .exhausted := by
    decide +kernel
  refine ⟨hfresh, hlength, exhausted_exactly {} hfresh hlength ⟨"DEN"⟩ ⟨"now", "now"⟩, ?_, ?_,
    hexhausted, ?_⟩
  · decide +kernel
  · decide +kernel
  · rcases together_after {} hfresh with ⟨t, hrun, htogether⟩
    rw [hrun, htogether.nextTrack_eq {}, hexhausted]
    rfl

end Jukebox
