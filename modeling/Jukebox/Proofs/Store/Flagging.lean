import Jukebox.Proofs.Memory.Serving
import Jukebox.Proofs.Store.TurnJobs

/-!
# Flagging the latest entry

A veto changes one entry of one history. In memory it is the last one of a room's list, and in
the database the last row of the room in a table that all rooms share. Everything else is as it
was.
-/

namespace Jukebox

/-- Whether the latest history entry of a room is flagged, and nothing else is changed. -/
inductive Memory.Flags (room : RoomId) (user : UserId) (m : Memory) : TrackEntry →
    Memory → Prop
  | latest {before after : List RoomState} {state : RoomState} {earlier : List TrackEntry}
    {entry : TrackEntry} (hrooms : m.rooms = before ++ state :: after)
    (hroom : state.room.id = room) (hhistory : state.history = earlier ++ [entry])
    (hunvetoed : entry.vetoed = false) : Flags room user m entry
      { m with rooms := before ++ { state with
        history := earlier ++ [entry.veto user] } :: after }

inductive Tables.Flags (room : RoomId) (user : UserId) (t : Tables) : HistoryRow →
    Tables → Prop
  | latest {before after : List HistoryRow} {row : HistoryRow}
    (hrows : t.history = before ++ row :: after) (hroom : row.room = room)
    (hlater : ∀ later ∈ after, later.room ≠ room) (hunvetoed : row.vetoed = false) :
    Flags room user t row
      { t with history := before ++ { row with
        vetoed := true, vetoedBy := some user } :: after }

namespace Memory

variable {m : Memory} {room : RoomId} {state : RoomState} {earlier : List TrackEntry}
  {entry : TrackEntry}

theorem flags_modifyRoom (hids : (m.rooms.map fun state => state.room.id).Nodup)
    (hroom : m.room? room = some state) (hhistory : state.history = earlier ++ [entry])
    (hunvetoed : entry.vetoed = false) (user : UserId) :
    m.Flags room user entry (m.modifyRoom room (mark earlier.length user)) := by
  rcases mem_of_room? hroom with ⟨hmem, rfl⟩
  rcases List.append_of_mem hmem with ⟨before, after, hrooms⟩
  rw [hrooms] at hids
  have hchanged : mark earlier.length user state =
      { state with history := earlier ++ [entry.veto user] } := by
    rw [mark, hhistory, flag_latest]
  have hflagged : m.modifyRoom state.room.id (mark earlier.length user) =
      { m with rooms := before ++ { state with
        history := earlier ++ [entry.veto user] } :: after } := by
    have hupdate : (m.modifyRoom state.room.id (mark earlier.length user)).rooms =
        Keyed.update (fun state => state.room.id) state.room.id
          (mark earlier.length user) m.rooms := rfl
    rw [hrooms, Keyed.update_cut hids, hchanged] at hupdate
    rw [← hupdate]
    rfl
  rw [hflagged]
  exact .latest hrooms rfl hhistory hunvetoed

/-- Whose turn it is does not depend on what was vetoed. -/
theorem nextTrack_mark (config : Config) (m : Memory) (room : RoomId) (now : Timestamp)
    (position : Nat) (user : UserId) :
    (Store.step config (m.modifyRoom room (mark position user)) (.nextTrack room now)).1 =
      (Store.step config m (.nextTrack room now)).1 := by
  have hfound : (m.modifyRoom room (mark position user)).room? room =
      (m.room? room).map (mark position user) := room?_modify_self (room_mark position user)
  have huser : (m.modifyRoom room (mark position user)).user? = m.user? := rfl
  have hqueue : (m.modifyRoom room (mark position user)).queue? = m.queue? := rfl
  have htrack : (m.modifyRoom room (mark position user)).track? = m.track? := rfl
  cases hroom : m.room? room with
  | none =>
      rw [hroom] at hfound
      simp [Store.step, Store.perform, Store.nextTrack, Memory.nextTrack, fetchRoom,
        hroom, hfound]
  | some state =>
      rw [hroom] at hfound
      have hpick : (m.modifyRoom room (mark position user)).pickMember
          (mark position user state) = m.pickMember state := rfl
      simp only [Store.step, Store.perform, Store.nextTrack, Memory.nextTrack, fetchRoom,
        fetchQueue, hroom, hfound, Option.map_some, Action.run_map, Action.run_bind,
        Action.run_get, Action.run_require_some, Action.run_lift, hpick, huser, htrack]
      rcases m.pickMember state with error | ⟨member, rotator⟩
      · rfl
      · dsimp only
        cases m.user? member with
        | none => rfl
        | some found =>
            simp only [Action.run_require_some, hqueue]
            cases m.queue? ⟨room, member⟩ with
            | none => rfl
            | some queue =>
                simp only [Action.run_require_some]
                cases queue.next?.bind fun entry => m.track? entry.track with
                | none => rfl
                | some track => rfl

end Memory

namespace Tables

variable {t : Tables} {room : RoomId} {front : List HistoryRow} {row : HistoryRow}

theorem vetoed_of_readHistory {pair : HistoryRow × TrackRow} {entry : TrackEntry}
    (h : readHistory pair = .ok entry) : entry.vetoed = pair.1.vetoed := by
  rw [readHistory] at h
  cases hread : readTrack pair.2 with
  | error error =>
      rw [hread] at h
      cases h
  | ok track =>
      rw [hread] at h
      cases h
      rfl

theorem flags_updateHistory (hnumbers : (t.history.map HistoryRow.number).Nodup)
    (hrows : (t.history.filter fun row => row.room = room) = front ++ [row])
    (hunvetoed : row.vetoed = false) (user : UserId) :
    t.Flags room user row (t.updateHistory row.number (markRow user)) := by
  -- Behind the last row of the room there are only rows of other rooms.
  rcases List.filter_eq_append_iff.mp hrows with ⟨first, rest, hhistory, -, hlast⟩
  rcases List.filter_eq_cons_iff.mp hlast with ⟨others, after, hrest, -, hroom, hlater⟩
  rw [hrest, ← List.append_assoc] at hhistory
  rw [List.filter_eq_nil_iff] at hlater
  rw [hhistory] at hnumbers
  have hflagged : t.updateHistory row.number (markRow user) =
      { t with history := (first ++ others) ++ markRow user row :: after } := by
    have hupdate : (t.updateHistory row.number (markRow user)).history =
        Keyed.update HistoryRow.number row.number (markRow user) t.history := rfl
    rw [hhistory, Keyed.update_cut hnumbers] at hupdate
    rw [← hupdate]
    rfl
  rw [hflagged]
  refine .latest hhistory (of_decide_eq_true hroom) ?_ hunvetoed
  intro later hmem hsame
  exact hlater later hmem (decide_eq_true hsame)

end Tables
end Jukebox
