import Mathlib.Data.Fintype.EquivFin
import Jukebox.Proofs.Store.Asking
import Jukebox.Proofs.Store.Atomicity
import Jukebox.Proofs.Store.WriterKept

/-!
# Damaged rotators

Somebody opens the tables by hand and puts any text in the place of a room's rotator. The next
turn in that room serves a track, finds that nobody has one, or reports what is wrong. There is
one exception: a text that stands for a round robin whose cursor lies past its order takes the
writer with it, as soon as anybody is to have a turn. Whether the writer stays for good is told
by the text and by who is in the room: a cursor past its order is still there after somebody
has joined, unless it is the greatest word.

A text may tell a shuffle of any size. Its order is taken to fit into memory.
-/

namespace Jukebox

open Store Jukebox.Action

/-- Whether a text stands for a rotator that has no next turn. -/
def Derails (text : String) : Prop :=
  ∃ rotator, Rotator.decode text = .ok rotator ∧ rotator.Derailed

def Database.damaged (db : Database) (room : RoomId) (text : String) : Database :=
  { db with tables := (db.tables.edit (.rotator room text)).1 }

/-- How a turn ends in a room whose rotator is stored as a text, with the answer and the
database that is left behind. -/
inductive Turned (db : Database) (room : RoomId) (text : String) :
    Except StoreError Reply × Database → Prop
  | lost (hderails : Derails text) (hmembers : db.tables.membersOf room ≠ []) :
    Turned db room text (.error .writerClosed, { db with writerOpen := false })
  | exhausted : Turned db room text (.error .exhausted, db)
  | integrity (fault : Fault) : Turned db room text (.error (.integrity fault), db)
  | served (user : User) (track : Track) (tables : Tables) :
    Turned db room text (.ok (.served user track), { db with tables := tables })

namespace Tables

/-- Whether the tracks of all entries are stored in a form that can be read. -/
def Supplied (t : Tables) : Prop :=
  ∀ row ∈ t.entries, ∃ track : Track, t.track? row.entry.track = some track.row

variable {t : Tables} {room : RoomId} {row : RoomRow} {rotator : Rotator}

/-!
## Picking a member
-/

inductive Picked (room : RoomId) (members : List (QueueRow × User)) (rotator : Rotator) :
    Except StoreError (User × EntryId × Rotator) → Prop
  | stuck (hderailed : rotator.Derailed) (hmembers : members ≠ []) :
    Picked room members rotator (.error .writerClosed)
  | nobody : Picked room members rotator (.error .exhausted)
  | outOfStep (index : Nat) :
    Picked room members rotator (.error (.integrity (.outOfStep room index members.length)))
  | picked {row : QueueRow} {user : User} {entry : EntryId} {after : Rotator}
    (hmember : (row, user) ∈ members) : Picked room members rotator (.ok (user, entry, after))

theorem picked (room : RoomId) (members : List (QueueRow × User)) (rotator : Rotator) :
    Picked room members rotator (pickMember room members rotator) := by
  cases hturn : Rotation.nextTurn (members.map fun member => member.1.pointer.isSome)
    rotator with
  | none =>
      have hclosed : pickMember room members rotator = .error .writerClosed := by
        rw [pickMember, hturn]
      rw [hclosed]
      exact .stuck (pickMember_eq_closed.mp hclosed).1 (pickMember_eq_closed.mp hclosed).2
  | some outcome =>
      rcases outcome with ⟨turn, after⟩
      rw [pickMember, hturn]
      cases turn with
      | nobody => exact .nobody
      | outOfRange index => exact .outOfStep index
      | taken index =>
          simp only
          split
          · rename_i hmember
            exact .picked (List.mem_of_getElem? hmember)
          · exact .outOfStep index

theorem Supplied.exists_track (h : t.Supplied) {queue : QueueId} {id : EntryId}
    {entry : QueueEntry} (hentry : t.entryOf? queue id = some entry) :
    ∃ track : Track, t.track? entry.track = some track.row := by
  rcases Option.map_eq_some_iff.mp hentry with ⟨row, hrow, rfl⟩
  exact h row (List.mem_of_find?_eq_some hrow)

/-!
## A turn on any rotator
-/

inductive TurnEnds (t : Tables) (room : RoomId) (text : String) :
    Except StoreError (User × Track) → Prop
  | lost (hderails : Derails text) (hmembers : t.membersOf room ≠ []) :
    TurnEnds t room text (.error .writerClosed)
  | exhausted : TurnEnds t room text (.error .exhausted)
  | integrity (fault : Fault) : TurnEnds t room text (.error (.integrity fault))
  | served (user : User) (track : Track) : TurnEnds t room text (.ok (user, track))

theorem run_loadRotator_of_row (hrow : t.room? room = some row) :
    (loadRotator room).run t =
      ((Rotator.decode row.rotator).mapError fun error => .integrity (.rotation error),
        t) := by
  simp only [loadRotator, run_bind, run_get, hrow, run_require_some, run_lift]

theorem turnEnds (hsupplied : t.Supplied) (hrow : t.room? room = some row) (now : Timestamp) :
    TurnEnds t room row.rotator ((nextTrack false room now).run t).1 := by
  have hload := run_loadRotator_of_row hrow
  cases hdecode : Rotator.decode row.rotator with
  | error error =>
      rw [hdecode] at hload
      simp only [nextTrack, run_bind, hload]
      exact .integrity _
  | ok rotator =>
      rw [hdecode] at hload
      have hpicked := picked room (t.membersOf room) rotator
      cases hpick : pickMember room (t.membersOf room) rotator with
      | error error =>
          have hanswer : ((nextTrack false room now).run t).1 = .error error := by
            simp only [nextTrack, run_bind, hload, Except.mapError, run_get, run_lift, hpick]
          rw [hanswer]
          rw [hpick] at hpicked
          cases hpicked with
          | stuck hderailed hmembers => exact .lost ⟨rotator, hdecode, hderailed⟩ hmembers
          | nobody => exact .exhausted
          | outOfStep index => exact .integrity _
      | ok choice =>
          rcases choice with ⟨user, id, after⟩
          rw [hpick] at hpicked
          cases hpicked with
          | picked hmember =>
              -- Operations leave no pointer dangling, but a fault is an answer as good as any
              -- here.
              cases hentry : t.entryOf? ⟨room, user.id⟩ id with
              | none =>
                  have hanswer : ((nextTrack false room now).run t).1 =
                      .error (.integrity (.dangling ⟨room, user.id⟩ id)) := by
                    simp only [nextTrack, run_bind, hload, Except.mapError, run_get,
                      run_lift, hpick, hentry, run_require_none]
                  rw [hanswer]
                  exact .integrity _
              | some entry =>
                  rcases hsupplied.exists_track hentry with ⟨track, htrack⟩
                  have huser := Option.isSome_of_eq_some (user?_of_member hmember)
                  rw [Mirrors.run_nextTrack_picked hload hpick hentry htrack huser]
                  exact .served user track.stored

/-- The tables after a member has joined a room, whose rotator has made room for them. -/
def joined (t : Tables) (room : RoomId) (user : UserId) (rotator : Rotator) : Tables :=
  (t.insertQueue ⟨⟨room, user⟩, (t.queuesOf room).length, none⟩).updateRoom room
    fun row => { row with rotator := rotator.encode }

end Tables

/-!
## Reachable databases
-/

variable {m : Memory} {t : Tables} {room : RoomId} {text : String}

theorem Mirrors.onTrack (h : Mirrors m t) (hsound : m.Sound) : t.OnTrack := by
  intro row hrow rotator hdecode
  rw [h.rooms] at hrow
  rcases List.mem_map.mp hrow with ⟨state, hstate, rfl⟩
  have hroom := Memory.room?_of_mem hsound.roomIds hstate
  have hon := (hsound.inStep_of_room? hroom).keeps.onTrack
  rw [RoomState.row, state.rotator.decode_encode] at hdecode
  cases hdecode
  exact ⟨hon.add, fun hderailed => absurd hderailed hon.not_derailed⟩

namespace Database

theorem step_write_lost {α : Type} {config : Config} {operation : Operation}
    {job : Bool → Action Tables α} {reply : α → Reply}
    (hperform : Store.perform config operation = reply <$> (write job : Action Database α))
    (h : ((job false).run t).1 = .error .writerClosed) :
    step config (opened t) operation =
      (.error .writerClosed, { opened t with writerOpen := false }) := by
  rw [Store.step, hperform]
  simp [write, opened, run_transaction_error t h, lostWriter]

theorem turned (config : Config) (hsupplied : t.Supplied) {row : RoomRow}
    (hrow : t.room? room = some row) (now : Timestamp) :
    Turned (opened t) room row.rotator (step config (opened t) (.nextTrack room now)) := by
  have hends := Tables.turnEnds hsupplied hrow now
  rcases hjob : (Tables.nextTrack false room now).run t with ⟨answer, changed⟩
  have hanswer : ((Tables.nextTrack false room now).run t).1 = answer := congrArg Prod.fst hjob
  rw [hanswer] at hends
  cases hends with
  | lost hderails hmembers =>
      rw [step_write_lost rfl hanswer]
      exact .lost hderails hmembers
  | exhausted =>
      rw [step_write_error rfl hanswer rfl]
      exact .exhausted
  | integrity fault =>
      rw [step_write_error rfl hanswer rfl]
      exact .integrity fault
  | served user track =>
      rw [step_write_ok rfl hjob rfl]
      exact .served user track changed

end Database

end Jukebox
