import Jukebox.Proofs.Store.Changes
import Jukebox.Proofs.Store.Vetoes

/-!
# Jobs that serve and veto

What the jobs that serve a track and flag a history entry do to tables that mirror a memory.
Serving touches a queue, the rotator and the history; a veto touches one row of the history.
-/

namespace Jukebox

namespace Tables

variable {config : Config} {t : Tables} {room : RoomId} {user : UserId} {found : Room}
  {pointer : Option EntryId} {entries : List TrackEntry}

/-!
## Vetoes on any tables
-/

theorem mapM_lastRows (hread : (t.historyOf room).map readHistory = entries.map .ok)
    (limit : Nat) :
    (lastRows limit (t.historyOf room)).mapM readHistory = .ok (lastRows limit entries) := by
  apply Mirrors.mapM_eq_ok
  rw [lastRows_map, hread, lastRows_map]

theorem markVetoed_refused (hroom : (fetchRoom room).run t = (.ok found, t))
    (hpointer : (fetchPointer ⟨room, user⟩).run t = (.ok pointer, t))
    (hread : (t.historyOf room).map readHistory = entries.map .ok) {error : VetoError}
    (hveto : vetoTarget entries user (config.vetoCooldown (t.queuesOf room).length) =
      .error error) :
    ((markVetoed false config room user).run t).1 = .error (.conflict (.veto error)) := by
  simp only [markVetoed, Action.run_bind, hroom, hpointer, Action.run_get, mapM_lastRows hread,
    Action.run_lift, vetoTarget_lastRows, hveto]
  rfl

/-- A veto that the whole history allows flags the last row, whatever number of rows was
fetched. -/
theorem run_markVetoed (hroom : (fetchRoom room).run t = (.ok found, t))
    (hpointer : (fetchPointer ⟨room, user⟩).run t = (.ok pointer, t))
    {earlier : List TrackEntry} {latest : TrackEntry}
    (hread : (t.historyOf room).map readHistory = (earlier ++ [latest]).map .ok)
    {front : List (HistoryRow × TrackRow)} {row : HistoryRow × TrackRow}
    (hrows : t.historyOf room = front ++ [row])
    (hveto : vetoTarget (earlier ++ [latest]) user
      (config.vetoCooldown (t.queuesOf room).length) =
      .ok earlier.length) (huser : (t.user? user).isSome) :
    (markVetoed false config room user).run t =
      (.ok (latest.veto user), t.updateHistory row.1.number (markRow user)) := by
  generalize hcooldown : config.vetoCooldown (t.queuesOf room).length = cooldown at hveto
  have hlimit : 1 ≤ max cooldown 1 := Nat.le_max_right _ _
  have hrow := getElem?_lastRows front row (max cooldown 1) hlimit
  have hentry := getElem?_lastRows earlier latest (max cooldown 1) hlimit
  have hlength : (lastRows (max cooldown 1) (front ++ [row])).length =
      (lastRows (max cooldown 1) (earlier ++ [latest])).length := by
    have hcount := congrArg List.length hread
    rw [List.length_map, List.length_map, hrows] at hcount
    rw [lastRows_eq, lastRows_eq, List.length_drop, List.length_drop, hcount]
  have hrecent := mapM_lastRows hread (max cooldown 1)
  rw [hlength] at hrow
  rw [hrows] at hrecent
  have hknown : ¬(t.user? user).isNone = true := by
    rw [Option.isNone_iff_eq_none]
    exact Option.isSome_iff_ne_none.mp huser
  simp only [markVetoed, Action.run_bind, hroom, hpointer, Action.run_get, hcooldown, hrows,
    hrecent, Action.run_lift, vetoTarget_lastRows, hveto, Except.map, Except.mapError,
    hrow, hentry, Action.run_require_some, Bool.not_false, Action.run_check_true,
    if_neg hknown, Action.run_modify, Action.run_pure]
  rfl

end Tables

namespace Mirrors

open Tables Playlist

variable {config : Config} {m : Memory} {t : Tables} {room : RoomId} {state : RoomState}
    {user : User}
  {queue : Queue} {front back : List Item} {item : Item} {track : Track} {now : Timestamp}

/-!
## Serving
-/

def afterServe (id : QueueId) (item : Item) (back : List Item) (rotator : Rotator)
    (now : Timestamp) (t : Tables) : Tables :=
  let t := { t with entries := playEntry item.id t.entries }
  let t := t.updateQueue id fun row => { row with pointer := firstId? back }
  let t := t.updateRoom id.room fun row => { row with rotator := rotator.encode }
  t.insertHistory ⟨t.history.length + 1, id.room, id.user, item.track, false, none, now⟩

theorem nextTrack_nobody (h : Mirrors m t) (hsound : m.Sound)
    (hroom : m.room? room = some state) {rotator : Rotator}
    (hturn : Rotation.nextTurn (m.candidates state) state.rotator = some (.nobody, rotator)) :
    ((Tables.nextTrack false room now).run t).1 = .error .exhausted := by
  simp [Tables.nextTrack, h.run_loadRotator hroom, h.pickMember_nobody hsound hroom hturn]

theorem run_fetchTrack {name : TrackId} (hstored : t.track? name = some track.row) :
    (fetchTrack name).run t = (.ok track.stored, t) := by
  simp only [fetchTrack, Action.run_bind, Action.run_get, hstored, Action.run_require_some,
    Action.run_lift, readTrack_row]

theorem run_insertServed {member : UserId} {name : TrackId} (hstored : (t.track? name).isSome)
    (hserved : (t.user? member).isSome) :
    (insertServed room member name now).run t =
      (.ok (), t.insertHistory ⟨t.history.length + 1, room, member, name, false, none,
        now⟩) := by
  have hknown : ¬((t.track? name).isNone ∨ (t.user? member).isNone) := by
    simp [Option.isNone_iff_eq_none, Option.isSome_iff_ne_none.mp hstored,
      Option.isSome_iff_ne_none.mp hserved]
  simp only [insertServed, Action.run_bind, Action.run_get, if_neg hknown, Action.run_modify]

theorem run_nextTrack_picked {rotator after : Rotator} {id : EntryId} {entry : QueueEntry}
    (hload : (loadRotator room).run t = (.ok rotator, t))
    (hpick : pickMember room (t.membersOf room) rotator = .ok (user, id, after))
    (hentry : t.entryOf? ⟨room, user.id⟩ id = some entry)
    (hstored : t.track? entry.track = some track.row) (huser : (t.user? user.id).isSome) :
    (Tables.nextTrack false room now).run t =
      (.ok (user, track.stored),
        (((t.updateEntry id fun entry => { entry with played := true }).updateQueue
          ⟨room, user.id⟩ fun row => { row with pointer := entry.next }).updateRoom room
          fun row => { row with rotator := after.encode }).insertHistory
            ⟨t.history.length + 1, room, user.id, track.id, false, none, now⟩) := by
  have hname : track.row.id = entry.track := (Keyed.mem_of_find? hstored).2
  simp only [Tables.nextTrack, Action.run_bind, hload, Action.run_get, Action.run_lift,
    hpick, hentry, Action.run_require_some, Bool.not_false, Action.run_check_true,
    Action.run_modify, savePointer, saveRotator]
  -- the changes so far leave tracks, users and the history alone
  have hnumber : t.history.length =
      (updateRoom room (fun row => { row with rotator := after.encode })
    (updateQueue ⟨room, user.id⟩ (fun row => { row with pointer := entry.next })
      (updateEntry id (fun entry => { entry with played := true }) t))).history.length := rfl
  rw [hnumber]
  generalize hchanged : updateRoom room _ _ = changed
  have hstored : changed.track? entry.track = some track.row := by
    rw [← hchanged]; exact hstored
  have huser : (changed.user? user.id).isSome := by rw [← hchanged]; exact huser
  have hkept : (changed.track? track.id).isSome := by
    rw [show track.id = entry.track from hname, hstored]
    rfl
  simp only [run_fetchTrack hstored, track.id_stored, run_insertServed hkept huser,
    Action.run_pure]

theorem run_nextTrack (h : Mirrors m t) (hsound : m.Sound) (hroom : m.room? room = some state)
    {rotator : Rotator} {index : Nat}
    (hturn : Rotation.nextTurn (m.candidates state) state.rotator =
      some (.taken index, rotator))
    {member : UserId} (hmember : state.members[index]? = some member)
    (huser : m.user? member = some user) (hqueue : m.queue? ⟨room, member⟩ = some queue)
    (hcut : queue.items = front ++ item :: back)
      (hfront : ∀ other ∈ front, other.played = true)
    (hplayed : item.played = false) (htrack : m.track? item.track = some track) :
    (Tables.nextTrack false room now).run t =
      (.ok (user, track.stored), afterServe ⟨room, member⟩ item back rotator now t) := by
  have hholds := hsound.holds hqueue
  rw [hcut] at hholds
  have hpointer : queue.pointer = some item.id := by
    rw [hholds.pointer, nextId?_cut hfront hplayed]
  have hpick := h.pickMember_taken hsound hroom hturn hmember huser hqueue hpointer
  obtain rfl : user.id = member := (Memory.mem_of_user? huser).2
  have htrackId : track.id = item.track := (Memory.mem_of_track? htrack).2
  have hentry := ((h.records hsound hqueue).entryOf?_eq item.id).trans hholds.get?_cut
  have hstored : t.track? item.track = some track.row := by
    rw [h.tracks, htrack]
    rfl
  have hserved : t.user? user.id = some user := (h.user?_eq user.id).trans huser
  rw [run_nextTrack_picked (h.run_loadRotator hroom) hpick hentry hstored
    (Option.isSome_of_eq_some hserved), htrackId, updateEntry_eq]
  rfl

theorem afterServe_mirrors (h : Mirrors m t) (hsound : m.Sound)
    (hroom : m.room? room = some state) {member : UserId}
    (hqueue : m.queue? ⟨room, member⟩ = some queue)
    (hcut : queue.items = front ++ item :: back) {q : Queue}
    (hq : q.Holds (front ++ item.play :: back)) (hfront : ∀ other ∈ front, other.played = true)
    (hplayed : item.played = false) (htrack : m.track? item.track = some track)
    (rotator : Rotator) : Mirrors (m.serve room member q rotator (.served member track now))
      (afterServe ⟨room, member⟩ item back rotator now t) := by
  have hholds := hsound.holds hqueue
  rw [hcut] at hholds
  have hlinked := h.entries.playEntry (Memory.mem_of_queue? hqueue) hholds hq
  have hpointer : q.pointer = firstId? back := by
    rw [hq.pointer, nextId?_play hholds.playedFirst hfront hplayed]
  have hmoved := h.changeQueue hlinked
  rw [hpointer] at hmoved
  have htrackId : track.id = item.track := (Memory.mem_of_track? htrack).2
  have hroom' : (m.setQueue ⟨room, member⟩ q).room? room = some state := hroom
  refine hmoved.appendPlay hroom' rotator rfl rfl ?_
  rw [HistoryRow.play, TrackEntry.play, TrackEntry.served, htrackId]

/-!
## Vetoing
-/

theorem count_queuesOf (h : Mirrors m t) (hsound : m.Sound)
    (hroom : m.room? room = some state) : (t.queuesOf room).length = state.members.length := by
  rw [h.length_queuesOf, hsound.owners_of_room? hroom]

theorem markVetoed_refused (h : Mirrors m t) (hsound : m.Sound)
    (hroom : m.room? room = some state) {member : UserId}
    (hqueue : m.queue? ⟨room, member⟩ = some queue) {error : VetoError}
    (hveto : vetoTarget state.history member (config.vetoCooldown state.members.length) =
      .error error) :
    ((Tables.markVetoed false config room member).run t).1 =
      .error (.conflict (.veto error)) := by
  apply Tables.markVetoed_refused (h.run_fetchRoom hroom) (h.run_fetchPointer hqueue)
    (h.map_readHistory_room hsound hroom)
  rw [vetoTarget_redescribe, h.count_queuesOf hsound hroom]
  exact hveto

theorem run_markVetoed (h : Mirrors m t) (hsound : m.Sound) (hroom : m.room? room = some state)
    {member : UserId} (hqueue : m.queue? ⟨room, member⟩ = some queue)
    {earlier : List TrackEntry} {latest : TrackEntry}
    (hhistory : state.history = earlier ++ [latest])
    (hveto : vetoTarget state.history member (config.vetoCooldown state.members.length) =
      .ok earlier.length) :
    ∃ front row track, (t.history.filter fun row => row.room = room) = front ++ [row] ∧
      t.track? row.track = some track ∧ readHistory (row, track) = .ok (m.redescribe latest) ∧
      (Tables.markVetoed false config room member).run t =
        (.ok ((m.redescribe latest).veto member),
          t.updateHistory row.number (markRow member)) ∧
      Mirrors (m.modifyRoom room (Memory.mark earlier.length member))
        (t.updateHistory row.number (markRow member)) := by
  rcases h.exists_latest_row hsound hroom hhistory with
    ⟨front, row, track, hrows, hfilter, htrack, hlatest⟩
  rcases hsound.exists_owner hqueue with ⟨owner, howner⟩
  have howner : t.user? member = some owner := (h.user?_eq member).trans howner
  have hread := h.map_readHistory_room hsound hroom
  have hredescribed := vetoTarget_redescribe (m := m) state.history member
    (config.vetoCooldown state.members.length)
  rw [hhistory, List.map_append, List.map_singleton] at hread
  rw [hveto, hhistory, List.map_append, List.map_singleton, ← List.length_map m.redescribe,
    ← h.count_queuesOf hsound hroom] at hredescribed
  refine ⟨_, row, track, hfilter, htrack, hlatest, ?_,
    h.flagLatest hroom hhistory hfilter member⟩
  exact Tables.run_markVetoed (h.run_fetchRoom hroom) (h.run_fetchPointer hqueue) hread hrows
    hredescribed (Option.isSome_of_eq_some howner)

end Mirrors
end Jukebox
