import Jukebox.Proofs.Memory.Invariants

/-!
# What a step does to one room and to one queue

A room that exists goes on to exist. A step adds a member to it, appends what was served to its
history, flags the latest entry of its history, or leaves it alone. Of a queue, a step plays
the first item that waits, or leaves the played items alone. So what was served in a room for a
user is what was played in their queue.
-/

namespace Jukebox

namespace Playlist

def heard (items : List Item) : List Item :=
  items.filter fun item => item.played

def waiting (items : List Item) : List Item :=
  items.filter fun item => !item.played

variable {front back : List Item} {item : Item}

theorem heard_insert (hitem : item.played = false) :
    heard (front ++ item :: back) = heard (front ++ back) := by
  simp [heard, hitem]

theorem heard_cut (hplayedFirst : PlayedFirst (front ++ item :: back))
    (hfront : ∀ other ∈ front, other.played = true) (hitem : item.played = false) :
    heard (front ++ item :: back) = front := by
  have hback := hplayedFirst.unplayed_behind hitem
  rw [heard_insert hitem, heard, List.filter_append, List.filter_eq_self.mpr hfront,
    List.filter_eq_nil_iff.mpr (by simpa using hback), List.append_nil]

theorem waiting_cut (hplayedFirst : PlayedFirst (front ++ item :: back))
    (hfront : ∀ other ∈ front, other.played = true) (hitem : item.played = false) :
    waiting (front ++ item :: back) = item :: back := by
  have hback := hplayedFirst.unplayed_behind hitem
  have hnone : front.filter (fun other => !other.played) = [] :=
    List.filter_eq_nil_iff.mpr (by simpa using hfront)
  have hall : (item :: back).filter (fun other => !other.played) = item :: back :=
    List.filter_eq_self.mpr (by simpa [hitem] using hback)
  rw [waiting, List.filter_append, hnone, hall, List.nil_append]

theorem heard_play (hplayedFirst : PlayedFirst (front ++ item :: back))
    (hfront : ∀ other ∈ front, other.played = true) (hitem : item.played = false) :
    heard (front ++ item.play :: back) = front ++ [item.play] := by
  have hback := hplayedFirst.unplayed_behind hitem
  have hnone : back.filter (fun other => other.played) = [] :=
    List.filter_eq_nil_iff.mpr (by simpa using hback)
  rw [heard, List.filter_append, List.filter_eq_self.mpr hfront,
    List.filter_cons_of_pos rfl, hnone]

end Playlist

namespace Memory

open Playlist Rotation

/-- What an operation is that serves nothing and vetoes nothing in a room: another one, or one
that failed. -/
def Quiet (room : RoomId) (operation : Operation) (answer : Except StoreError Reply) : Prop :=
  (∃ error, answer = .error error) ∨
    (∀ now, operation ≠ .nextTrack room now) ∧ ∀ user, operation ≠ .markVetoed room user

def itemsOf (m : Memory) (id : QueueId) : List Item :=
  ((m.queue? id).map Queue.items).getD []

/-- What a step does to a room. -/
inductive RoomStep (m : Memory) (room : RoomId) (state : RoomState) :
    Operation → Except StoreError Reply → RoomState → Prop
  | kept {operation : Operation} {answer : Except StoreError Reply}
    (hquiet : Quiet room operation answer) : RoomStep m room state operation answer state
  | joined {user : UserId} : RoomStep m room state (.join room user) (.ok .done)
      (enroll user state)
  | served {now : Timestamp} {index : Nat} {rotator : Rotator} {user : User} {track : Track}
    (hturn : nextTurn (m.candidates state) state.rotator = some (.taken index, rotator))
    (hmember : state.members[index]? = some user.id) :
    RoomStep m room state (.nextTrack room now) (.ok (.served user track))
      (turn rotator (.served user.id track now) state)
  | vetoed {user : UserId} {earlier : List TrackEntry} {latest : TrackEntry}
    (hhistory : state.history = earlier ++ [latest]) (hlatest : latest.vetoed = false) :
    RoomStep m room state (.markVetoed room user) (.ok (.vetoed (latest.veto user)))
      { state with history := earlier ++ [latest.veto user] }

inductive QueueStep (id : QueueId) (before : List Item) :
    Operation → Except StoreError Reply → List Item → Prop
  | kept {operation : Operation} {answer : Except StoreError Reply} {after : List Item}
    (hother : ∀ now user track, operation = .nextTrack id.room now →
      answer = .ok (.served user track) → user.id ≠ id.user)
    (hheard : heard after = heard before) : QueueStep id before operation answer after
  | played {now : Timestamp} {user : User} {track : Track} {item : Item}
      {rest after : List Item}
    (huser : user.id = id.user) (hwaiting : waiting before = item :: rest)
    (htrack : track.id = item.track) (hheard : heard after = heard before ++ [item.play]) :
    QueueStep id before (.nextTrack id.room now) (.ok (.served user track)) after

variable {config : Config} {m changed : Memory} {operation : Operation}
  {answer : Except StoreError Reply} {room : RoomId} {state : RoomState} {id : QueueId}

/-!
## Rooms
-/

theorem room_turn (rotator : Rotator) (entry : TrackEntry) (state : RoomState) :
    (turn rotator entry state).room = state.room :=
  rfl

theorem room_mark (position : Nat) (user : UserId) (state : RoomState) :
    (mark position user state).room = state.room :=
  rfl

theorem unvetoed_of_target {earlier : List TrackEntry} {latest : TrackEntry} {user : UserId}
    {cooldown position : Nat}
    (h : vetoTarget (earlier ++ [latest]) user cooldown = .ok position) :
    latest.vetoed = false := by
  cases hlatest : latest.vetoed with
  | false => rfl
  | true => simp [vetoTarget, hlatest] at h

theorem room?_modify_other {change : RoomState → RoomState} {other : RoomId}
    (hchange : ∀ state, (change state).room = state.room) (hne : room ≠ other) :
    (m.modifyRoom other change).room? room = m.room? room := by
  rw [room?_modifyRoom hchange, if_neg hne]

theorem room?_modify_self {change : RoomState → RoomState}
    (hchange : ∀ state, (change state).room = state.room) :
    (m.modifyRoom room change).room? room = (m.room? room).map change := by
  rw [room?_modifyRoom hchange, if_pos rfl]

theorem room?_modify_none {change : RoomState → RoomState} {other : RoomId}
    (hchange : ∀ state, (change state).room = state.room) (hroom : m.room? room = none) :
    (m.modifyRoom other change).room? room = none := by
  rw [room?_modifyRoom hchange]
  split
  · subst_vars
    rw [hroom, Option.map_none]
  · exact hroom

theorem Step.room_step (hstep : Step config m operation answer changed)
    (hroom : m.room? room = some state) :
    ∃ after, changed.room? room = some after ∧
    RoomStep m room state operation answer after := by
  cases hstep with
  | roomCreated hcodes hid =>
      refine ⟨state, ?_, .kept (by simp [Quiet])⟩
      rw [room?_addRoom, hroom, Option.some_or]
  | @joined other user found hfound _ _ _ =>
      by_cases hother : room = other
      · subst hother
        refine ⟨enroll user state, ?_, .joined⟩
        have hkept : (m.addQueue ⟨room, user⟩).room? room = some state := hroom
        rw [welcome, room?_modify_self (room_enroll user), hkept]
        rfl
      · refine ⟨state, ?_, .kept (by simp [Quiet])⟩
        rw [welcome, room?_modify_other (room_enroll user) hother]
        exact hroom
  | @served other now found hfound asks index hasks hturn _ _ member hmember user huser queue q
      _ _ _ _ _ _ _
      _ track _ =>
      by_cases hother : room = other
      · subst hother
        obtain rfl : found = state := Option.some.inj (hfound.symm.trans hroom)
        obtain rfl : user.id = member := (mem_of_user? huser).2
        refine ⟨_, ?_, .served hturn hmember⟩
        have hkept : (m.setQueue ⟨room, user.id⟩ q).room? room = some found := hroom
        rw [serve, room?_modify_self (room_turn _ _), hkept]
        rfl
      · refine ⟨state, ?_, .kept ?_⟩
        · rw [serve, room?_modify_other (room_turn _ _) hother]
          exact hroom
        · simp [Quiet, Ne.symm hother]
  | @vetoed other user queue _ found hfound earlier latest hhistory hveto =>
      by_cases hother : room = other
      · subst hother
        obtain rfl : found = state := Option.some.inj (hfound.symm.trans hroom)
        refine ⟨_, ?_, .vetoed hhistory (unvetoed_of_target (hhistory ▸ hveto))⟩
        rw [room?_modify_self (room_mark _ _), hroom, Option.map_some, mark, hhistory,
          flag_latest]
      · refine ⟨state, ?_, .kept ?_⟩
        · rw [room?_modify_other (room_mark _ _) hother]
          exact hroom
        · simp [Quiet, Ne.symm hother]
  | _ => exact ⟨state, hroom, .kept (by simp [Quiet])⟩

theorem Step.turn_cases {now : Timestamp}
    (hstep : Step config m (.nextTrack room now) answer changed)
    (hroom : m.room? room = some state) :
    (∃ user track after, answer = .ok (.served user track) ∧ m.track? track.id = some track ∧
      changed.library = m.library ∧ changed.room? room = some after ∧
      after.history = state.history ++ [.served user.id track now]) ∨
    answer = .error .exhausted := by
  cases hstep with
  | nextNoRoom hnone => cases hnone.symm.trans hroom
  | exhausted => exact Or.inr rfl
  | @served _ _ found hfound asks _ _ _ _ _ member _ user huser _ q _ _ _ _ _ _ _ _ track
    htrack =>
      obtain rfl := Option.some.inj (hfound.symm.trans hroom)
      obtain rfl : user.id = member := (mem_of_user? huser).2
      have hkept : (m.setQueue ⟨room, user.id⟩ q).room? room = some found := hroom
      have hturned := congrArg
        (Option.map (turn (advance asks found.rotator) (.served user.id track now))) hkept
      rw [← room?_modify_self (room_turn _ _), Option.map_some] at hturned
      refine Or.inl ⟨user, track, _, rfl, ?_, rfl, hturned, rfl⟩
      rw [(mem_of_track? htrack).2]
      exact htrack

theorem Step.room_new (hstep : Step config m operation answer changed)
    (hroom : m.room? room = none) (hnew : changed.room? room = some state) :
    state.members = [] ∧ state.history = [] := by
  cases hstep with
  | roomCreated hcodes hid =>
      rw [room?_addRoom, hroom, Option.none_or] at hnew
      split at hnew
      · cases hnew
        exact ⟨rfl, rfl⟩
      · cases hnew
  | @joined other user found hfound _ _ _ =>
      have hkept : (m.addQueue ⟨other, user⟩).room? room = none := hroom
      rw [welcome, room?_modify_none (room_enroll user) hkept] at hnew
      cases hnew
  | @served other _ _ _ _ _ _ _ _ _ member _ _ _ _ queue =>
      have hkept : (m.setQueue ⟨other, member⟩ queue).room? room = none := hroom
      rw [serve, room?_modify_none (room_turn _ _) hkept] at hnew
      cases hnew
  | vetoed =>
      rw [room?_modify_none (room_mark _ _) hroom] at hnew
      cases hnew
  | _ => exact absurd (hroom.symm.trans hnew) (by simp)

/-!
## Queues
-/

theorem itemsOf_eq {queue : Queue} (hqueue : m.queue? id = some queue) :
    m.itemsOf id = queue.items := by
  rw [itemsOf, hqueue]
  rfl

theorem itemsOf_setQueue {queue q : Queue} {items : List Item} {other : QueueId}
    (hqueue : m.queue? other = some queue) (hq : q.Holds items) (id : QueueId) :
    (m.setQueue other q).itemsOf id = if id = other then items else m.itemsOf id := by
  rw [itemsOf, queue?_setQueue]
  split
  · rw [hqueue]
    exact hq.items_eq
  · rfl

theorem itemsOf_welcome (room : RoomId) (user : UserId) (id : QueueId) :
    (m.welcome room user).itemsOf id = m.itemsOf id := by
  have hqueue : (m.welcome room user).queue? id = (m.addQueue ⟨room, user⟩).queue? id := rfl
  rw [itemsOf, hqueue, queue?_addQueue, itemsOf]
  cases m.queue? id with
  | some queue => rfl
  | none =>
      split
      · simp [Queue.items, Queue.toList, Queue.empty, Queue.walkFrom]
      · rfl

theorem Step.queue_step (hstep : Step config m operation answer changed) (h : m.Sound)
    (id : QueueId) : QueueStep id (m.itemsOf id) operation answer (changed.itemsOf id) := by
  cases hstep with
  | @joined room user => exact .kept (by simp) (by rw [itemsOf_welcome])
  | @added other track _ entry queue q hqueue front back _ hcut _ _ hchanged =>
      refine .kept (by simp) ?_
      have hset : ((m.setQueue other q).setTrack track).itemsOf id =
          (m.setQueue other q).itemsOf id :=
        rfl
      rw [hset, itemsOf_setQueue hqueue hchanged]
      split
      · subst_vars
        rw [itemsOf_eq hqueue, heard_insert rfl, hcut]
      · rfl
  | @removed other entry queue q hqueue front back item hcut _ hplayed hchanged =>
      refine .kept (by simp) ?_
      rw [itemsOf_setQueue hqueue hchanged]
      split
      · subst_vars
        rw [itemsOf_eq hqueue, hcut, heard_insert hplayed]
      · rfl
  | @served room now found hfound asks index hasks hturn _ _ member hmember user huser queue q
      hqueue front back item hcut hfront hplayed hchanged track htrack =>
      obtain rfl : user.id = member := (mem_of_user? huser).2
      have hset : ∀ rotator entry, (m.serve room user.id q rotator entry).itemsOf id =
          (m.setQueue ⟨room, user.id⟩ q).itemsOf id := fun _ _ => rfl
      rw [hset, itemsOf_setQueue hqueue hchanged]
      by_cases hid : id = ⟨room, user.id⟩
      · subst hid
        have hplayedFirst := (h.holds hqueue).playedFirst
        rw [hcut] at hplayedFirst
        rw [if_pos rfl, itemsOf_eq hqueue, hcut]
        refine .played rfl (waiting_cut hplayedFirst hfront hplayed)
          (mem_of_track? htrack).2 ?_
        rw [heard_play hplayedFirst hfront hplayed, heard_cut hplayedFirst hfront hplayed]
      · rw [if_neg hid]
        refine .kept ?_ rfl
        intro moment other track hoperation hanswer huser
        cases hoperation
        cases hanswer
        exact hid (by rw [huser])
  | _ => exact .kept (by simp) rfl

end Memory
end Jukebox
