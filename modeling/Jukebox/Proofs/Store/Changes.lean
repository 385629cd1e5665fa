import Jukebox.Proofs.Store.Mirror

/-!
# Changes that keep tables mirroring

Each change of a memory beside the statements that record it. A statement concerns one table,
so whatever a change leaves alone stays mirrored.
-/

namespace Jukebox

open Tables

namespace Memory

variable {m : Memory} {room other : RoomId}

theorem historyOf_addRoom {state : RoomState} (hhistory : state.history = [])
    (other : RoomId) : (m.addRoom state).historyOf other = m.historyOf other := by
  rw [historyOf, room?_addRoom, historyOf]
  cases m.room? other with
  | some found => rfl
  | none => split <;> simp [hhistory]

theorem historyOf_modifyRoom (change : RoomState → RoomState)
    (log : List TrackEntry → List TrackEntry)
    (hchange : ∀ state, (change state).room = state.room)
    (hhistory : ∀ state, (change state).history = log state.history) {state : RoomState}
    (hroom : m.room? room = some state) (other : RoomId) :
    (m.modifyRoom room change).historyOf other =
      if other = room then log (m.historyOf room) else m.historyOf other := by
  rw [historyOf, room?_modifyRoom hchange, historyOf, historyOf, hroom]
  split
  · simp [hhistory]
  · rfl

theorem map_row_modifyRoom (change : RoomState → RoomState) (changeRow : RoomRow → RoomRow)
    (hchange : ∀ state ∈ m.rooms, state.room.id = room →
      (change state).row = changeRow state.row) :
    (m.modifyRoom room change).rooms.map RoomState.row =
      (m.rooms.map RoomState.row).map fun row => if row.id = room then changeRow row
        else row := by
  rw [modifyRoom, List.map_map, List.map_map]
  apply List.map_congr_left
  intro state hstate
  simp only [Function.comp_apply]
  by_cases hid : state.room.id = room
  · have hrow : state.row.id = room := hid
    rw [if_pos hid, if_pos hrow, hchange state hstate hid]
  · have hrow : ¬state.row.id = room := hid
    rw [if_neg hid, if_neg hrow]

theorem pointers_setQueue (id : QueueId) (q : Queue) :
    (m.setQueue id q).pointers =
      m.pointers.map fun named => if named.1 = id then (id, q.pointer) else named := by
  rw [pointers, setQueue, pointers, List.map_map, List.map_map]
  apply List.map_congr_left
  intro named _
  simp only [Function.comp_apply]
  split <;> rfl

end Memory

namespace Tables

theorem positions_updateQueue (rows : List QueueRow) (id : QueueId) (pointer : Option EntryId)
    (room : RoomId) :
    positions (rows.map fun row => if row.queue = id then { row with
      pointer := pointer } else row) room = positions rows room := by
  have hqueue : (fun row : QueueRow => decide
      ((if row.queue = id then { row with pointer := pointer } else row).queue.room = room)) =
        fun row => decide (row.queue.room = room) := by
    funext row
    split <;> rfl
  simp only [positions, List.filter_map, Function.comp_def, hqueue, List.map_map]
  apply List.map_congr_left
  intro row _
  split <;> rfl

theorem positions_concat (rows : List QueueRow) (row : QueueRow) (room : RoomId) :
    positions (rows ++ [row]) room =
      positions rows room ++ if row.queue.room = room then [row.joinOrder] else [] := by
  simp only [positions, List.filter_append, List.map_append]
  split <;> simp_all

theorem map_named_updateQueue (rows : List QueueRow) (id : QueueId)
    (pointer : Option EntryId) :
    (rows.map fun row => if row.queue = id then { row with pointer := pointer } else row).map
      QueueRow.named =
        (rows.map QueueRow.named).map fun named => if named.1 = id then (id, pointer)
        else named := by
  rw [List.map_map, List.map_map]
  apply List.map_congr_left
  intro row _
  simp only [Function.comp_apply]
  by_cases hid : row.queue = id
  · have hnamed : row.named.1 = id := hid
    rw [if_pos hid, if_pos hnamed, QueueRow.named, hid]
  · have hnamed : ¬row.named.1 = id := hid
    rw [if_neg hid, if_neg hnamed]

def markRow (user : UserId) (row : HistoryRow) : HistoryRow :=
  { row with vetoed := true, vetoedBy := some user }

theorem play_markRow {row : HistoryRow} {entry : TrackEntry} (h : row.play = entry.play)
    (user : UserId) : (markRow user row).play = (entry.veto user).play := by
  show ({ row.play with vetoed := true, vetoedBy := some user } : Play) =
    { entry.play with vetoed := true, vetoedBy := some user }
  rw [h]

theorem filter_mark (rows : List HistoryRow) (number : Nat) (user : UserId) (room : RoomId) :
    (Keyed.update HistoryRow.number number (markRow user) rows).filter
    (fun row => row.room = room) =
      Keyed.update HistoryRow.number number (markRow user)
        (rows.filter fun row => row.room = room) := by
  have hroom : ∀ row : HistoryRow,
      (if row.number = number then markRow user row else row).room = row.room := by
    intro row
    split <;> rfl
  simp only [Keyed.update, List.filter_map, Function.comp_def, hroom]

end Tables

namespace Mirrors

variable {m : Memory} {t : Tables} {room : RoomId} {state : RoomState} {user : UserId}
  {id : QueueId} {queue q : Queue}

/-!
## Users, rooms and tracks
-/

theorem insertUser (h : Mirrors m t) (added : User) :
    Mirrors (m.addUser added) (t.insertUser added) :=
  { h with users := by rw [Tables.insertUser, h.users, Memory.addUser] }

theorem insertRoom (h : Mirrors m t) {added : RoomState} (hhistory : added.history = []) :
    Mirrors (m.addRoom added) (t.insertRoom added.row) :=
  { h with
    rooms := by
      rw [Tables.insertRoom, h.rooms, Memory.addRoom]
      simp
    plays := fun other => by
      rw [Memory.historyOf_addRoom hhistory]
      exact h.plays other }

theorem upsertTrack (h : Mirrors m t) (track : Track) :
    Mirrors (m.setTrack track) (t.upsertTrack track.row) := by
  have htracks : ∀ name, (t.upsertTrack track.row).track? name =
      ((m.setTrack track).track? name).map Track.row := by
    intro name
    rw [track?_upsertTrack, Memory.track?_setTrack, Track.row, h.tracks]
    split <;> rfl
  rcases upsertTrack_eq (t := t) track.row with ⟨tracks, heq⟩
  rw [heq] at htracks ⊢
  exact { h with tracks := htracks }

/-!
## Queues
-/

theorem changeQueue (h : Mirrors m t) {entries : List EntryRow}
    (hentries : Linked (m.setQueue id q).queues entries) :
    Mirrors (m.setQueue id q)
      { t with
        queues := t.queues.map fun row =>
          if row.queue = id then { row with pointer := q.pointer } else row
        entries := entries } :=
  { h with
    pointers := by
      rw [map_named_updateQueue, h.pointers, Memory.pointers_setQueue]
    positions := fun room => by
      rw [positions_updateQueue, Memory.Sound.owners_setQueue]
      exact h.positions room
    entries := hentries }

theorem changeEntries (h : Mirrors m t) (hsound : m.Sound) (hqueue : m.queue? id = some queue)
    (hpointer : q.pointer = queue.pointer) {entries : List EntryRow}
    (hentries : Linked (m.setQueue id q).queues entries) :
    Mirrors (m.setQueue id q) { t with entries := entries } :=
  { h with
    pointers := by
      rw [h.pointers, Memory.pointers, Memory.setQueue, Memory.pointers, List.map_map]
      apply List.map_congr_left
      rintro ⟨name, found⟩ hnamed
      simp only [Function.comp_apply]
      split
      · rename_i hid
        have hfound := Memory.queue?_of_mem hsound.queueIds hnamed
        rw [hid, hqueue] at hfound
        rw [hid, hpointer, Option.some.inj hfound]
      · rfl
    positions := fun room => by
      rw [Memory.Sound.owners_setQueue]
      exact h.positions room
    entries := hentries }

theorem changeMoved (h : Mirrors m t) (hsound : m.Sound) (hqueue : m.queue? id = some queue)
    {new : Option EntryId} {moved : Prop} [Decidable moved]
    (hpointer : q.pointer = if moved then new else queue.pointer) {entries : List EntryRow}
    (hentries : Linked (m.setQueue id q).queues entries) :
    Mirrors (m.setQueue id q)
      (if moved then
        { t with entries := entries }.updateQueue id fun row => { row with pointer := new }
      else { t with entries := entries }) := by
  split
  · rename_i hmoved
    have hchanged := h.changeQueue hentries
    rw [hpointer, if_pos hmoved] at hchanged
    exact hchanged
  · rename_i hkept
    rw [if_neg hkept] at hpointer
    exact h.changeEntries hsound hqueue hpointer hentries

/-!
## Entries of a queue
-/

section Entries

open Playlist

variable {front back : List Item} {item : Item} {entry : EntryId} {track : Track}

theorem afterAdd_mirrors (h : Mirrors m t) (hsound : m.Sound)
    (hqueue : m.queue? id = some queue) (hcut : queue.items = front ++ back)
    (hback : ∀ next, back.head? = some next → next.played = false)
    (hnew : entry ∉ t.entries.map fun row => row.entry.id) {q : Queue}
    (hq : q.Holds (front ++ ⟨entry, track.id, false⟩ :: back)) :
    Mirrors ((m.setQueue id q).setTrack track)
      (afterAdd id track entry front back queue.pointer t) := by
  have hholds := hsound.holds hqueue
  rw [hcut] at hholds
  have hstored := h.upsertTrack track
  have hlinked := hstored.entries.addEntry (Memory.mem_of_queue? hqueue) hholds
    (by rw [entries_upsertTrack]; exact hnew) hq
  exact hstored.changeMoved (hsound.setTrack track) hqueue
    (pointer_add hholds hback hq) hlinked

theorem afterRemove_mirrors (h : Mirrors m t) (hsound : m.Sound)
    (hqueue : m.queue? id = some queue) (hcut : queue.items = front ++ item :: back)
    (hplayed : item.played = false) {q : Queue} (hq : q.Holds (front ++ back)) :
    Mirrors (m.setQueue id q) (afterRemove id item front back queue.pointer t) := by
  have hholds := hsound.holds hqueue
  rw [hcut] at hholds
  have hlinked := h.entries.removeEntry (Memory.mem_of_queue? hqueue) hholds hq
  exact h.changeMoved hsound hqueue (pointer_remove hholds hplayed hq) hlinked

end Entries

/-!
## Members
-/

theorem enroll (h : Mirrors m t) (hsound : m.Sound) (hroom : m.room? room = some state)
    (hnew : m.queue? ⟨room, user⟩ = none) :
    Mirrors (m.welcome room user)
      ((t.insertQueue ⟨⟨room, user⟩, (m.owners room).length, none⟩).updateRoom room fun row =>
        { row with rotator := state.rotator.add.encode }) :=
  { h with
    rooms := by
      show (t.rooms.map fun row => if row.id = room then _ else row) = _
      rw [h.rooms, Memory.welcome]
      symm
      refine Memory.map_row_modifyRoom (m := m.addQueue ⟨room, user⟩) _ _ ?_
      intro found hfound hid
      have hfound := Memory.room?_of_mem hsound.roomIds hfound
      rw [hid, hroom] at hfound
      rw [Option.some.inj hfound]
      rfl
    pointers := by
      show (t.queues ++ [_]).map QueueRow.named = _
      rw [List.map_append, h.pointers, Memory.pointers, Memory.pointers]
      simp [Memory.welcome, Memory.modifyRoom, Memory.addQueue, QueueRow.named, Queue.empty]
    positions := fun other => by
      show Tables.positions (t.queues ++ [_]) other = _
      rw [positions_concat, Memory.owners_welcome, h.positions]
      by_cases heq : room = other
      · simp [heq, List.range_succ]
      · simp [heq]
    entries := by
      exact h.entries.addQueue (Memory.queue?_eq_none_iff.mp hnew)
    plays := fun other => by
      have hhistory := Memory.historyOf_modifyRoom (m := m.addQueue ⟨room, user⟩)
        (Memory.enroll user) (fun history => history) (Memory.room_enroll user)
        (fun _ => rfl) hroom other
      rw [Memory.welcome, hhistory]
      split
      · subst_vars
        exact h.plays other
      · exact h.plays other }

/-!
## Histories
-/

theorem appendPlay (h : Mirrors m t) (hroom : m.room? room = some state) (rotator : Rotator)
    {entry : TrackEntry} {row : HistoryRow} (hnumber : row.number = t.history.length + 1)
    (hplace : row.room = room) (hplay : row.play = entry.play) :
    Mirrors (m.modifyRoom room (Memory.turn rotator entry))
      { t with
        rooms := t.rooms.map fun row =>
          if row.id = room then { row with rotator := rotator.encode } else row
        history := t.history ++ [row] } :=
  { h with
    rooms := by
      rw [h.rooms]
      exact (Memory.map_row_modifyRoom _ _ fun _ _ _ => rfl).symm
    numbers := by
      rw [List.map_append, h.numbers, List.length_append, List.length_singleton,
        List.range_succ, List.map_append, List.map_singleton, List.map_singleton, hnumber]
    plays := fun other => by
      have hhistory := Memory.historyOf_modifyRoom (Memory.turn rotator entry)
        (fun history => history ++ [entry]) (fun _ => rfl) (fun _ => rfl) hroom other
      rw [hhistory, List.filter_append, List.map_append, h.plays]
      by_cases hother : other = room
      · rw [if_pos hother, hother, List.map_append]
        simp [hplace, hplay]
      · rw [if_neg hother]
        simp [hplace, Ne.symm hother] }

theorem nodup_numbers (h : Mirrors m t) : (t.history.map HistoryRow.number).Nodup := by
  rw [h.numbers]
  exact List.nodup_range.map Nat.succ_injective

/-- A veto changes the row of the latest entry, which is known by its number. -/
theorem flagLatest (h : Mirrors m t) (hroom : m.room? room = some state)
    {earlier : List TrackEntry} {latest : TrackEntry}
    (hhistory : state.history = earlier ++ [latest]) {front : List HistoryRow}
    {row : HistoryRow} (hrows : (t.history.filter fun row => row.room = room) = front ++ [row])
    (user : UserId) :
    Mirrors (m.modifyRoom room (Memory.mark earlier.length user))
      { t with history := Keyed.update HistoryRow.number row.number (markRow user) t.history }
        := by
  have hmem : row ∈ t.history.filter fun row => row.room = room := by
    rw [hrows]
    exact List.mem_append_right _ List.mem_cons_self
  rcases List.mem_filter.mp hmem with ⟨hstored, hplace⟩
  have hplays := h.plays room
  have hlog : m.historyOf room = earlier ++ [latest] := by
    rw [Memory.historyOf, hroom, ← hhistory]
    rfl
  rw [hrows, hlog, List.map_append, List.map_append] at hplays
  rcases List.append_inj' hplays rfl with ⟨hearlier, hlatest⟩
  refine { h with rooms := ?_, numbers := ?_, plays := ?_ }
  · rw [h.rooms]
    have hsame : (m.modifyRoom room (Memory.mark earlier.length user)).rooms.map
        RoomState.row = (m.rooms.map RoomState.row).map fun row => if row.id = room then row
          else row :=
      Memory.map_row_modifyRoom _ (fun row => row) fun _ _ _ => rfl
    rw [hsame]
    simp
  · have hnumbers : (Keyed.update HistoryRow.number row.number (markRow user) t.history).map
        HistoryRow.number = t.history.map HistoryRow.number :=
      Keyed.map_key_update fun _ heq => heq
    rw [hnumbers, h.numbers, Keyed.length_update]
  · intro other
    have hchanged := Memory.historyOf_modifyRoom (Memory.mark earlier.length user)
      (Memory.flag earlier.length user) (fun _ => rfl) (fun _ => rfl) hroom other
    rw [filter_mark, hchanged]
    by_cases hother : other = room
    · have hnumbers : ((front ++ [row]).map HistoryRow.number).Nodup := by
        rw [← hrows]
        exact h.nodup_numbers.sublist (List.filter_sublist.map _)
      rw [if_pos hother, hother, hrows, hlog, Memory.flag_latest, Keyed.update_cut hnumbers,
        List.map_append, List.map_append, hearlier, List.map_singleton, List.map_singleton,
        play_markRow (List.head_eq_of_cons_eq hlatest)]
    · have hdistinct : row.number ∉
          (t.history.filter fun row => row.room = other).map HistoryRow.number := by
        apply Keyed.notMem_map_filter h.nodup_numbers hstored
        exact decide_eq_false fun heq => hother (heq.symm.trans (of_decide_eq_true hplace))
      rw [if_neg hother, Keyed.update_of_notMem hdistinct, h.plays]

end Mirrors
end Jukebox
