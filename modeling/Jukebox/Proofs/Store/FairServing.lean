import Jukebox.Proofs.Rotation.Overtaking
import Jukebox.Proofs.Store.Asking

/-!
# Members are served fairly

Two members of a room may join at different times, add and remove tracks, and lose turns
because they have nothing to play. Still, as long as one of them has something to play, the
other one is not served twice in a row in a round robin, nor three times in a row in a shuffle.
The rotator says how many turns one of them has left before the other one comes. Serving the
first one uses up a turn, and no other operation gives one back.
-/

namespace Jukebox

open Store Memory Rotation

/-!
## What is fair
-/

section Fairness

variable (operations : List Operation) (asked : Nat → Operation → Except StoreError Reply)

def ServedAt (room : RoomId) (user : UserId) (i : Nat) : Prop :=
  ∃ now found track, operations[i]? = some (.nextTrack room now) ∧
    asked i (.nextTrack room now) = .ok (.served found track) ∧ found.id = user

def MemberAt (room : RoomId) (user : UserId) (i : Nat) : Prop :=
  ∃ users, asked i (.members room) = .ok (.users users) ∧ user ∈ users.map User.id

def KindAt (room : RoomId) (kind : RotatorKind) (i : Nat) : Prop :=
  ∃ found, asked i (.room room) = .ok (.room found) ∧ found.rotator = kind

def WaitsAt (room : RoomId) (user : UserId) (i : Nat) : Prop :=
  ∃ first rest, asked i (.tracks ⟨room, user⟩ .unplayed) = .ok (.tracks (first :: rest))

/-- Whether a user has an unplayed entry whenever a room is asked for a track, behind one
position and up to another. -/
def WaitsThrough (room : RoomId) (user : UserId) (first last : Nat) : Prop :=
  ∀ i now, first < i → i ≤ last → operations[i]? = some (.nextTrack room now) →
    WaitsAt asked room user i

/-- Members who have something to play are not passed over. -/
structure FairServing : Prop where
  /-- Between two times that a user is served in a round robin, a waiting member is served. -/
  roundRobin : ∀ {room : RoomId} {user other : UserId} {first last : Nat},
    KindAt asked room .roundRobin first → user ≠ other → MemberAt asked room other first →
    first < last → ServedAt operations asked room user first →
    ServedAt operations asked room user last →
    WaitsThrough operations asked room other first last →
    ∃ i, first < i ∧ i < last ∧ ServedAt operations asked room other i
  /-- Among three times that a user is served in a shuffle, a waiting member is served. -/
  shuffle : ∀ {room : RoomId} {user other : UserId} {first second last : Nat},
    KindAt asked room .shuffle first → user ≠ other → MemberAt asked room other first →
    first < second → second < last → ServedAt operations asked room user first →
    ServedAt operations asked room user second → ServedAt operations asked room user last →
    WaitsThrough operations asked room other first last →
    ∃ i, first < i ∧ i < last ∧ ServedAt operations asked room other i

end Fairness

/-!
## Turns that are left
-/

namespace Memory

variable {config : Config} {m changed : Memory} {operation : Operation}
  {answer : Except StoreError Reply} {room : RoomId} {state : RoomState} {user other : UserId}
  {turns bound : Nat}

/-- Before another member of a room is served, a member is not served more often than a number
says, provided that the other one has something to play. -/
def Overtakes (m : Memory) (turns : Nat) (room : RoomId) (user other : UserId) : Prop :=
  ∃ state index place, m.room? room = some state ∧ state.members[index]? = some user ∧
    state.members[place]? = some other ∧ state.rotator.Overtakes turns index place

theorem Overtakes.mono {more : Nat} (h : m.Overtakes turns room user other)
    (hle : turns ≤ more) : m.Overtakes more room user other := by
  rcases h with ⟨state, index, place, hroom, hindex, hplace, hturns⟩
  exact ⟨state, index, place, hroom, hindex, hplace, hturns.mono hle⟩

def Ready (m : Memory) (id : QueueId) : Prop :=
  ∃ queue, m.queue? id = some queue ∧ queue.next?.isSome

theorem candidate_of_ready (hroom : m.room? room = some state) {place : Nat}
    (hplace : state.members[place]? = some other) (hready : m.Ready ⟨room, other⟩) :
    (m.candidates state)[place]? = some true := by
  rcases hready with ⟨queue, hqueue, hnext⟩
  rw [candidates, List.getElem?_map, hplace, Option.map_some, (mem_of_room? hroom).2, hqueue,
    Option.bind_some, hnext]

theorem length_candidates_le (m : Memory) (h : Counts bound state) :
    (m.candidates state).length ≤ state.rotator.size := by
  rw [candidates, List.length_map, h.size]

def Serves (room : RoomId) (user : UserId) (operation : Operation)
    (answer : Except StoreError Reply) : Prop :=
  ∃ now found track, operation = .nextTrack room now ∧ answer = .ok (.served found track) ∧
    found.id = user

theorem Quiet.not_serves (h : Quiet room operation answer) :
    ¬Serves room user operation answer := by
  rintro ⟨now, found, track, rfl, rfl, -⟩
  rcases h with ⟨error, herror⟩ | ⟨hother, -⟩
  · cases herror
  · exact hother now rfl

/-- No step gives back a turn, and serving the first member uses one up. -/
theorem Step.overtakes (hstep : Step config m operation answer changed) (hsound : m.Sound)
    (hwithin : m.Within bound) (hbound : bound < wordLimit)
    (h : m.Overtakes turns room user other) (hready : ∀ now, operation = .nextTrack room now →
      m.Ready ⟨room, other⟩)
    (hpassed : ¬Serves room other operation answer) :
    changed.Overtakes turns room user other ∧
      (Serves room user operation answer →
        ∃ fewer, turns = fewer + 1 ∧ changed.Overtakes fewer room user other) := by
  rcases h with ⟨state, index, place, hroom, hindex, hplace, hturns⟩
  have hcounts := hwithin.counts_of_room? hroom
  rcases hstep.room_step hroom with ⟨after, hafter, hchange⟩
  cases hchange with
  | kept hquiet =>
      refine ⟨⟨state, index, place, hafter, hindex, hplace, hturns⟩, ?_⟩
      exact fun hserves => absurd hserves hquiet.not_serves
  | @joined newcomer =>
      have hkept : ∀ {position : Nat} {member : UserId}, state.members[position]? =
          some member → (enroll newcomer state).members[position]? = some member := by
        intro position member hmember
        exact (List.getElem?_append_left (List.getElem?_eq_some_iff.mp hmember).1).trans
          hmember
      have hfits : state.rotator.size + 1 < wordLimit := by
        have hfew := hcounts.few
        rw [hcounts.size]
        omega
      refine ⟨⟨_, index, place, hafter, hkept hindex, hkept hplace, hturns.add hfits⟩, ?_⟩
      rintro ⟨now, found, track, hoperation, -⟩
      cases hoperation
  | vetoed hhistory hlatest =>
      refine ⟨⟨_, index, place, hafter, hindex, hplace, hturns⟩, ?_⟩
      rintro ⟨now, found, track, hoperation, -⟩
      cases hoperation
  | @served now taken rotator found track hturn hmember =>
      have hcandidate := candidate_of_ready hroom hplace (hready now rfl)
      have hne : taken ≠ place := by
        rintro rfl
        rw [hplace, Option.some.injEq] at hmember
        exact hpassed ⟨now, found, track, rfl, rfl, hmember.symm⟩
      have hlasts := Rotator.LastsFor.of_orders (hcounts.orders_lt hbound)
      have hasks := length_candidates_le m hcounts
      rcases hturns.turnWithin (hlasts _) hasks hcandidate hturn hne
        with ⟨fewer, hfewer, hrotator⟩
      have hchanged : changed.Overtakes fewer room user other :=
        ⟨_, index, place, hafter, hindex, hplace, hrotator⟩
      refine ⟨hchanged.mono (by omega), ?_⟩
      rintro ⟨_, served, _, -, hanswer, huser⟩
      cases hanswer
      -- Nobody is a member twice, so the turn was that of the first member.
      have hsame : taken = index := by
        have hlt := (List.getElem?_eq_some_iff.mp hmember).1
        refine (List.getElem?_inj hlt (hsound.nodup_members hroom)).mp ?_
        rw [hmember, hindex, huser]
      rw [hsame, spent_self] at hfewer
      exact ⟨fewer, hfewer.symm, hchanged⟩

theorem Step.overtakes_of_serves (hstep : Step config m operation answer changed)
    (hsound : m.Sound) (hwithin : m.Within bound) (hbound : bound < wordLimit)
    (hroom : m.room? room = some state) (hlead : state.room.rotator.lead = some turns)
    (hdistinct : user ≠ other) (hmember : other ∈ state.members)
    (hserves : Serves room user operation answer) :
    changed.Overtakes turns room user other := by
  rcases hserves with ⟨now, found, track, rfl, rfl, rfl⟩
  rcases hstep.room_step hroom with ⟨after, hafter, hchange⟩
  rcases List.mem_iff_getElem?.mp hmember with ⟨place, hplace⟩
  have hcounts := hwithin.counts_of_room? hroom
  have hkind := (hsound.inStep_of_room? hroom).kind
  have hlt : place < state.rotator.size := by
    rw [hcounts.size]
    exact (List.getElem?_eq_some_iff.mp hplace).1
  cases hchange with
  | kept hquiet =>
      have hserves : Serves room found.id (.nextTrack room now) (.ok (.served found track)) :=
        ⟨now, found, track, rfl, rfl, rfl⟩
      exact absurd hserves hquiet.not_serves
  | @served _ index rotator _ _ hturn hindex =>
      have hne : index ≠ place := by
        rintro rfl
        rw [hplace, Option.some.injEq] at hindex
        exact hdistinct hindex.symm
      refine ⟨_, index, place, hafter, hindex, hplace, ?_⟩
      have hlasts := Rotator.LastsFor.of_orders (hcounts.orders_lt hbound)
      exact Rotator.overtakes_of_turnWithin hcounts.wellFormed (hlasts _)
        (length_candidates_le m hcounts) (hkind ▸ hlead) hne hlt hturn

theorem Shows.serves_iff {reply : Except StoreError Reply}
    (h : m.Shows operation reply answer) :
    Serves room user operation answer ↔ Serves room user operation reply := by
  rcases h with rfl | hagree
  · rfl
  · constructor
    · rintro ⟨now, found, track, rfl, rfl, huser⟩
      rcases hagree.exists_served with ⟨other, rfl⟩
      exact ⟨now, found, other, rfl, rfl, huser⟩
    · rintro ⟨now, found, track, rfl, rfl, huser⟩
      exact ⟨now, found, track.stored, rfl, hagree.eq_of_plain rfl, huser⟩

theorem not_serves_of_error {error : StoreError} (h : answer = .error error) :
    ¬Serves room user operation answer :=
  Quiet.not_serves (Or.inl ⟨error, h⟩)

theorem Moves.overtakes (hmoves : m.Moves config operation answer changed) (hsound : m.Sound)
    (hwithin : m.Within bound) (hbound : bound < wordLimit)
    (h : m.Overtakes turns room user other) (hready : ∀ now, operation = .nextTrack room now →
      m.Ready ⟨room, other⟩)
    (hpassed : ¬Serves room other operation answer) :
    changed.Overtakes turns room user other ∧
      (Serves room user operation answer →
        ∃ fewer, turns = fewer + 1 ∧ changed.Overtakes fewer room user other) := by
  cases hmoves with
  | done hstep hshows =>
      rw [hshows.serves_iff] at hpassed ⊢
      exact hstep.overtakes hsound hwithin hbound h hready hpassed
  | failed hanswer => exact ⟨h, fun hserves => absurd hserves (not_serves_of_error hanswer)⟩

theorem Moves.overtakes_of_serves (hmoves : m.Moves config operation answer changed)
    (hsound : m.Sound) (hwithin : m.Within bound) (hbound : bound < wordLimit)
    (hroom : m.room? room = some state) (hlead : state.room.rotator.lead = some turns)
    (hdistinct : user ≠ other) (hmember : other ∈ state.members)
    (hserves : Serves room user operation answer) :
    changed.Overtakes turns room user other := by
  cases hmoves with
  | done hstep hshows =>
      exact hstep.overtakes_of_serves hsound hwithin hbound hroom hlead hdistinct hmember
        (hshows.serves_iff.mp hserves)
  | failed hanswer => exact absurd hserves (not_serves_of_error hanswer)

end Memory

/-!
## Along runs
-/

section Runs

variable {config : Config} {operations : List Operation}
  {asked : Nat → Operation → Except StoreError Reply} {states : Nat → Memory} {room : RoomId}
  {user other : UserId} {first last i turns : Nat}

theorem serves_iff {operation : Operation} (hoperation : operations[i]? = some operation) :
    Serves room user operation (asked i operation) ↔
    ServedAt operations asked room user i := by
  constructor
  · rintro ⟨now, found, track, rfl, hanswer, huser⟩
    exact ⟨now, found, track, hoperation, hanswer, huser⟩
  · rintro ⟨now, found, track, hnext, hanswer, huser⟩
    obtain rfl : operation = .nextTrack room now :=
      Option.some.inj (hoperation.symm.trans hnext)
    exact ⟨now, found, track, rfl, hanswer, huser⟩

theorem ServedAt.lt_length (h : ServedAt operations asked room user i) :
    i < operations.length := by
  rcases h with ⟨now, found, track, hoperation, -⟩
  exact (List.getElem?_eq_some_iff.mp hoperation).1

theorem ServedAt.not_other (h : ServedAt operations asked room user i)
    (hdistinct : user ≠ other) : ¬ServedAt operations asked room other i := by
  rintro ⟨now, found, track, hoperation, hanswer, rfl⟩
  rcases h with ⟨_, _, _, hagain, hother, rfl⟩
  rw [hoperation] at hagain
  cases hagain
  rw [hanswer] at hother
  cases hother
  exact hdistinct rfl

namespace Course

theorem ready_of_waits (h : Course config operations asked states)
    (hwaits : WaitsAt asked room user i) : (states i).Ready ⟨room, user⟩ := by
  rcases hwaits with ⟨entry, rest, hlisted⟩
  have hkeys := h.key_listed hlisted
  rcases h.tracks hlisted with ⟨queue, hqueue, -⟩
  rw [itemsOf_eq hqueue] at hkeys
  refine ⟨queue, hqueue, ?_⟩
  have hnext := ((h.sound i).holds hqueue).next?_item
  cases hpointed : queue.next? with
  | some entry => rfl
  | none =>
      -- Everything was played, so nothing is listed.
      rw [hpointed, Option.map_none, eq_comm, Playlist.next?_eq_none_iff] at hnext
      have hnone : queue.items.filter (fun item => QueueFilter.unplayed.admits item.played) =
          [] := by
        apply List.filter_eq_nil_iff.mpr
        intro item hitem
        simp [QueueFilter.admits, hnext item hitem]
      rw [hnone] at hkeys
      cases hkeys

theorem overtakes_succ (h : Course config operations asked states)
    (hlength : operations.length < wordLimit) (hi : i < operations.length)
    (hbefore : (states i).Overtakes turns room user other)
    (hwaits : ∀ now, operations[i]? = some (.nextTrack room now) → WaitsAt asked room other i)
    (hpassed : ¬ServedAt operations asked room other i) :
    (states (i + 1)).Overtakes turns room user other ∧
      (ServedAt operations asked room user i →
        ∃ fewer, turns = fewer + 1 ∧ (states (i + 1)).Overtakes fewer room user other) := by
  have hoperation : operations[i]? = some operations[i] := List.getElem?_eq_getElem hi
  rw [← serves_iff hoperation] at hpassed ⊢
  have hbound : i < wordLimit := Nat.lt_trans hi hlength
  refine (h.moves hoperation).overtakes (h.sound i) (h.within (Nat.le_of_lt hbound)) hbound
    hbefore ?_ hpassed
  intro now hnext
  exact h.ready_of_waits (hwaits now (hnext ▸ hoperation))

theorem overtakes_through (h : Course config operations asked states)
    (hlength : operations.length < wordLimit) (hle : first ≤ last)
    (hlast : last ≤ operations.length)
    (hbefore : (states first).Overtakes turns room user other)
    (hwaits : ∀ i now, first ≤ i → i < last → operations[i]? = some (.nextTrack room now) →
      WaitsAt asked room other i)
    (hpassed : ∀ i, first ≤ i → i < last → ¬ServedAt operations asked room other i) :
    (states last).Overtakes turns room user other := by
  induction last, hle using Nat.le_induction with
  | base => exact hbefore
  | succ middle hmiddle ih =>
      have hearlier := ih (by omega) (fun i now hi hlt => hwaits i now hi (by omega))
        (fun i hi hlt => hpassed i hi (by omega))
      exact (h.overtakes_succ hlength (by omega) hearlier
        (fun now => hwaits middle now hmiddle (by omega))
        (hpassed middle hmiddle (by omega))).1

theorem overtakes_after (h : Course config operations asked states)
    (hlength : operations.length < wordLimit) {kind : RotatorKind}
    (hlead : kind.lead = some turns) (hkind : KindAt asked room kind i)
    (hdistinct : user ≠ other) (hmember : MemberAt asked room other i)
    (hserved : ServedAt operations asked room user i) :
    (states (i + 1)).Overtakes turns room user other := by
  have hbound : i < wordLimit := Nat.lt_trans hserved.lt_length hlength
  have hoperation := List.getElem?_eq_getElem hserved.lt_length
  rw [← serves_iff hoperation] at hserved
  rcases hkind with ⟨found, hfound, rfl⟩
  rcases h.room_iff.mp hfound with ⟨state, hroom, rfl⟩
  rcases hmember with ⟨users, husers, hmember⟩
  rcases h.members_iff.mp husers with ⟨again, hagain, rfl⟩
  obtain rfl : state = again := Option.some.inj (hroom.symm.trans hagain)
  have hin : other ∈ state.members := by
    rcases List.mem_map.mp hmember with ⟨member, hlisted, rfl⟩
    rcases List.mem_filterMap.mp hlisted with ⟨name, hname, huser⟩
    exact (mem_of_user? huser).2 ▸ hname
  exact (h.moves hoperation).overtakes_of_serves (h.sound i)
    (h.within (Nat.le_of_lt hbound)) hbound hroom hlead hdistinct hin hserved

theorem overtakes_again (h : Course config operations asked states)
    (hlength : operations.length < wordLimit) (hlt : first < last)
    (hbefore : (states (first + 1)).Overtakes turns room user other) (hdistinct : user ≠ other)
    (hserved : ServedAt operations asked room user last)
    (hwaits : WaitsThrough operations asked room other first last)
    (hpassed : ∀ i, first < i → i < last → ¬ServedAt operations asked room other i) :
    ∃ fewer, turns = fewer + 1 ∧ (states (last + 1)).Overtakes fewer room user other := by
  have hlast := hserved.lt_length
  have hthrough := h.overtakes_through hlength hlt (Nat.le_of_lt hlast) hbefore
    (fun i now hi hle => hwaits i now hi (Nat.le_of_lt hle)) hpassed
  exact (h.overtakes_succ hlength hlast hthrough
    (fun now => hwaits last now hlt (Nat.le_refl last))
    (hserved.not_other hdistinct)).2 hserved

theorem fairServing (h : Course config operations asked states)
    (hlength : operations.length < wordLimit) : FairServing operations asked where
  roundRobin := by
    intro room user other first last hkind hdistinct hmember hlt hfirst hlast hwaits
    by_contra hnone
    have hpassed : ∀ i, first < i → i < last → ¬ServedAt operations asked room other i :=
      fun i hi hle hserved => hnone ⟨i, hi, hle, hserved⟩
    have hafter := h.overtakes_after hlength rfl hkind hdistinct hmember hfirst
    rcases h.overtakes_again hlength hlt hafter hdistinct hlast hwaits hpassed
      with ⟨fewer, hzero, -⟩
    exact Nat.succ_ne_zero fewer hzero.symm
  shuffle := by
    intro room user other first second last hkind hdistinct hmember hlt hlt' hfirst hsecond
      hlast hwaits
    by_contra hnone
    have hpassed : ∀ i, first < i → i < last → ¬ServedAt operations asked room other i :=
      fun i hi hle hserved => hnone ⟨i, hi, hle, hserved⟩
    have hafter := h.overtakes_after hlength rfl hkind hdistinct hmember hfirst
    rcases h.overtakes_again hlength hlt hafter hdistinct hsecond
        (fun i now hi hle => hwaits i now hi (by omega))
        (fun i hi hle => hpassed i hi (by omega)) with
      ⟨none, hone, hmiddle⟩
    obtain rfl : none = 0 := (Nat.succ.inj hone).symm
    rcases h.overtakes_again hlength hlt' hmiddle hdistinct hlast
        (fun i now hi hle => hwaits i now (by omega) hle)
        (fun i hi hle => hpassed i (by omega) hle) with
      ⟨fewer, hzero, -⟩
    exact Nat.succ_ne_zero fewer hzero.symm

end Course

/-- Both stores serve members fairly, whatever is performed in between, as long as the members
of a room are counted right in 64 bits. -/
theorem fair_serving (config : Config) {operations : List Operation}
    (hlength : operations.length < wordLimit) :
    FairServing operations (ask config Memory.empty operations) ∧
      FairServing operations (ask config Database.empty operations) :=
  ⟨(course_memory config operations).fairServing hlength,
    (course_database config operations).fairServing hlength⟩

end Runs

/-!
## Two members with three tracks each
-/

namespace ThreeEach

def den : RoomId :=
  ⟨"DEN"⟩

def ann : User :=
  ⟨⟨"ann"⟩, "Ann"⟩

def bob : User :=
  ⟨⟨"bob"⟩, "Bob"⟩

def demo : Track :=
  { id := ⟨"t"⟩, name := "Demo" }

def add (user : User) (entry : String) : Operation :=
  .addTrack ⟨den, user.id⟩ demo none ⟨entry⟩

def next : Operation :=
  .nextTrack den ⟨"now", "now"⟩

def operations (kind : RotatorKind) (seed : Nat) : List Operation :=
  [.createUser ann.id ann.displayName, .createUser bob.id bob.displayName,
    .createRoom "Den" kind (fun _ => den) seed, .join den ann.id, .join den bob.id,
    add ann "a3", add ann "a2", add ann "a1", add bob "b3",
    add bob "b2", add bob "b1", next, next, next, next, next]

def asked (kind : RotatorKind) (seed : Nat) : Nat → Operation → Except StoreError Reply :=
  ask {} Memory.empty (operations kind seed)

def left (entries : List String) : Except StoreError Reply :=
  .ok (.tracks (entries.map fun entry => ⟨⟨entry⟩, false, demo⟩))

theorem answers_roundRobin :
    asked .roundRobin 0 11 (.room den) = .ok (.room ⟨den, "Den", .roundRobin⟩) ∧
    asked .roundRobin 0 11 (.members den) = .ok (.users [ann, bob]) ∧
    asked .roundRobin 0 11 next = .ok (.served ann demo) ∧
    asked .roundRobin 0 12 (.tracks ⟨den, bob.id⟩ .unplayed) = left ["b1", "b2", "b3"] ∧
    asked .roundRobin 0 13 (.tracks ⟨den, bob.id⟩ .unplayed) = left ["b2", "b3"] ∧
    asked .roundRobin 0 13 next = .ok (.served ann demo) := by
  decide +kernel

theorem answers_shuffle :
    asked .shuffle 2 12 (.room den) = .ok (.room ⟨den, "Den", .shuffle⟩) ∧
    asked .shuffle 2 12 (.members den) = .ok (.users [ann, bob]) ∧
    asked .shuffle 2 12 next = .ok (.served ann demo) ∧
    asked .shuffle 2 13 (.tracks ⟨den, bob.id⟩ .unplayed) = left ["b2", "b3"] ∧
    asked .shuffle 2 13 next = .ok (.served ann demo) ∧
    asked .shuffle 2 14 (.tracks ⟨den, bob.id⟩ .unplayed) = left ["b2", "b3"] ∧
    asked .shuffle 2 15 (.tracks ⟨den, bob.id⟩ .unplayed) = left ["b3"] ∧
    asked .shuffle 2 15 next = .ok (.served ann demo) := by
  decide +kernel

/-- In a round robin, Bob is served between Ann's first two tracks. In a shuffle, Ann may be
served twice in a row, but Bob is served before her third track. -/
theorem fair_serving_threeEach :
    (operations .roundRobin 0).length < wordLimit ∧
    (operations .shuffle 2).length < wordLimit ∧ (∃ i, 11 < i ∧ i < 13 ∧
      ServedAt (operations .roundRobin 0) (asked .roundRobin 0) den bob.id i) ∧
    ∃ i, 12 < i ∧ i < 15 ∧
      ServedAt (operations .shuffle 2) (asked .shuffle 2) den bob.id i := by
  have hfits : (operations .roundRobin 0).length < wordLimit := by decide
  have hshuffle : (operations .shuffle 2).length < wordLimit := by decide
  refine ⟨hfits, hshuffle, ?_, ?_⟩
  · rcases answers_roundRobin with ⟨hroom, hmembers, hfirst, hsoon, hlater, hlast⟩
    have hann : ServedAt (operations .roundRobin 0) (asked .roundRobin 0) den ann.id 11 :=
      ⟨_, _, _, rfl, hfirst, rfl⟩
    refine (fair_serving {} hfits).1.roundRobin ⟨_, hroom, rfl⟩ (by decide)
      ⟨_, hmembers, by decide⟩ (by decide) hann ⟨_, _, _, rfl, hlast, rfl⟩ ?_
    intro i now hi hle _
    have hi : i = 12 ∨ i = 13 := by omega
    rcases hi with rfl | rfl
    · exact ⟨_, _, hsoon⟩
    · exact ⟨_, _, hlater⟩
  · rcases answers_shuffle with ⟨hroom, hmembers, hfirst, hsoon, hsecond, hlater, hthen, hlast⟩
    have hann : ServedAt (operations .shuffle 2) (asked .shuffle 2) den ann.id 12 :=
      ⟨_, _, _, rfl, hfirst, rfl⟩
    have hagain : ServedAt (operations .shuffle 2) (asked .shuffle 2) den ann.id 13 :=
      ⟨_, _, _, rfl, hsecond, rfl⟩
    refine (fair_serving {} hshuffle).1.shuffle ⟨_, hroom, rfl⟩ (by decide)
      ⟨_, hmembers, by decide⟩ (by decide) (by decide) hann hagain
      ⟨_, _, _, rfl, hlast, rfl⟩ ?_
    intro i now hi hle _
    have hi : i = 13 ∨ i = 14 ∨ i = 15 := by omega
    rcases hi with rfl | rfl | rfl
    · exact ⟨_, _, hsoon⟩
    · exact ⟨_, _, hlater⟩
    · exact ⟨_, _, hthen⟩

end ThreeEach

end Jukebox
