import Jukebox.Proofs.Store.Equivalence
import Jukebox.Proofs.Store.Flagging
import Jukebox.Proofs.Store.Story

/-!
# Vetoes judged by the newest rows

The store of rows asks for the newest rows of a room only, as many as the cooldown reaches back
and at least one. The limit is a signed number of 64 bits, and one that reads as negative is
none. A veto judged by these rows is refused for the same reason as one judged by the whole
history, or it flags the same row. That row is the one whose entry the store in memory flags.
-/

namespace Jukebox

variable {α : Type}

/-- The newest rows, newest first, as many as a limit says; a negative limit is none. -/
def newestRows (limit : Int) (rows : List α) : List α :=
  if limit < 0 then rows.reverse else rows.reverse.take limit.toNat

def vetoLimit (cooldown : UInt64) : Int :=
  (max cooldown 1).toInt64.toInt

/-- The rows by which a veto is judged, oldest first. -/
def vetoWindow (cooldown : UInt64) (rows : List α) : List α :=
  (newestRows (vetoLimit cooldown) rows).reverse

/-- How a judgement by all rows and one by some of them belong together: both refuse for one
reason, or both take the latest row. -/
inductive JudgedAlike (rows window : List α) : Except VetoError Nat →
    Except VetoError Nat → Prop
  | refused {error : VetoError} : JudgedAlike rows window (.error error) (.error error)
  | allowed {position index : Nat} {latest : α} (hlatest : rows.getLast? = some latest)
    (hrow : rows[position]? = some latest) (hwindow : window[index]? = some latest) :
    JudgedAlike rows window (.ok position) (.ok index)

/-- Whether tables and a memory show one history of a room, with the entries that the rows are
read as, and agree about a member. -/
structure SameRoom (t : Tables) (m : Memory) (room : RoomId) (user : UserId)
    (state : RoomState) (entries : List TrackEntry) : Prop where
  found : m.room? room = some state
  readable : ∃ shown, (Tables.fetchRoom room).run t = (.ok shown, t)
  members : (t.queuesOf room).length = state.members.length
  member : (m.queue? ⟨room, user⟩).isSome ∧ (t.queue? ⟨room, user⟩).isSome
  user : (t.user? user).isSome
  /-- No row is left out for want of a track. -/
  joined : (t.historyOf room).map Prod.fst = t.history.filter fun row => row.room = room
  read : (t.historyOf room).map Tables.readHistory = entries.map .ok
  rows : (t.history.filter fun row => row.room = room).map HistoryRow.play =
    state.history.map TrackEntry.play
  entries : entries.map TrackEntry.play = state.history.map TrackEntry.play
  numbers : (t.history.map HistoryRow.number).Nodup
  ids : (m.rooms.map fun state => state.room.id).Nodup

inductive VetoedAlike (m : Memory) (t : Tables) (room : RoomId) (user : UserId)
    (history : List TrackEntry) (cooldown : Nat) :
    Except StoreError Reply × Memory → Except StoreError Reply × Database → Prop
  | refused {error : VetoError} (hveto : vetoTarget history user cooldown = .error error) :
    VetoedAlike m t room user history cooldown (.error (.conflict (.veto error)), m)
      (.error (.conflict (.veto error)), .opened t)
  | flagged {entry other : TrackEntry} {row : HistoryRow} {changed : Memory} {t' : Tables}
    (hveto : vetoTarget history user cooldown = .ok (history.length - 1))
    (hentry : history.getLast? = some entry) (hmemory : m.Flags room user entry changed)
    (htables : t.Flags room user row t') (hrow : row.play = entry.play)
    (hother : other.play = entry.play) :
    VetoedAlike m t room user history cooldown (.ok (.vetoed (entry.veto user)), changed)
      (.ok (.vetoed (other.veto user)), .opened t')

/-!
## Windows
-/

theorem toInt_toInt64 (word : UInt64) :
    word.toInt64.toInt = if 2 * word.toNat < wordLimit then (word.toNat : Int)
      else word.toNat - wordLimit := by
  rw [Int64.toInt, UInt64.toBitVec_toInt64, BitVec.toInt_eq_toNat_cond]
  rfl

theorem lastRows_eq_vetoWindow (cooldown : UInt64) (rows : List α) :
    Tables.lastRows (max cooldown.toNat 1) rows = vetoWindow cooldown rows := by
  have hword : (max cooldown 1).toNat = max cooldown.toNat 1 := UInt64.toNat_max cooldown 1
  have hlt : max cooldown.toNat 1 < wordLimit := hword ▸ (max cooldown 1).toNat_lt
  by_cases hsmall : 2 * max cooldown.toNat 1 < wordLimit
  · have hlimit : vetoLimit cooldown = (max cooldown.toNat 1 : Nat) := by
      rw [vetoLimit, toInt_toInt64, hword, if_pos hsmall]
    rw [Tables.lastRows, if_pos hsmall, vetoWindow, newestRows, hlimit,
      if_neg (Int.not_lt.mpr (Int.natCast_nonneg _)), Int.toNat_natCast, List.take_reverse,
      List.reverse_reverse]
  · have hlimit : vetoLimit cooldown < 0 := by
      rw [vetoLimit, toInt_toInt64, hword, if_neg hsmall]
      omega
    rw [Tables.lastRows, if_neg hsmall, vetoWindow, newestRows, if_pos hlimit,
      List.reverse_reverse]

theorem judgedAlike_window (rows : List α) (read : α → TrackEntry) (user : UserId)
    (cooldown : UInt64) :
    JudgedAlike rows (vetoWindow cooldown rows)
      (vetoTarget (rows.map read) user cooldown.toNat)
      (vetoTarget ((vetoWindow cooldown rows).map read) user cooldown.toNat) := by
  rw [← lastRows_eq_vetoWindow, Tables.lastRows_map, Tables.vetoTarget_lastRows]
  cases hveto : vetoTarget (rows.map read) user cooldown.toNat with
  | error error => exact .refused
  | ok position =>
      rcases Memory.exists_latest hveto with ⟨earlier, latest, hrows, rfl⟩
      rcases exists_concat_of_map hrows with ⟨front, row, rfl, hfront, -⟩
      have hlast : (front ++ [row]).getLast? = some row := List.getLast?_concat
      refine .allowed hlast ?_ ?_
      · rw [← hfront, List.length_map, List.getElem?_concat_length]
      · rw [← Tables.lastRows_map, List.length_map]
        exact Tables.getElem?_lastRows front row _ (Nat.le_max_right _ _)

/-!
## Both stores
-/

section Stores

variable {config : Config} {m : Memory} {t : Tables} {room : RoomId} {user : UserId}
  {state : RoomState} {entries : List TrackEntry}

/-- Both stores refuse a veto in the same room for the same reason, or they flag the same
entry. -/
theorem SameRoom.vetoedAlike (h : SameRoom t m room user state entries) (config : Config) :
    VetoedAlike m t room user state.history (config.vetoCooldown state.members.length)
      (Store.step config m (.markVetoed room user))
      (Store.step config (Database.opened t) (.markVetoed room user)) := by
  rcases h.readable with ⟨shown, hshown⟩
  rcases Option.isSome_iff_exists.mp h.member.2 with ⟨queue, hqueue⟩
  have hpointer : (Tables.fetchPointer ⟨room, user⟩).run t = (.ok queue.pointer, t) :=
    Tables.run_fetchPointer (by rw [hqueue, Option.map_some])
  have hjudged := vetoTarget_of_plays h.entries user (config.vetoCooldown state.members.length)
  rw [← h.members] at hjudged
  cases hveto : vetoTarget state.history user (config.vetoCooldown state.members.length) with
  | error error =>
      rw [← h.members] at hveto
      have hjob := Tables.markVetoed_refused hshown hpointer h.read
        (hjudged.trans hveto)
      rw [h.members] at hveto
      rw [Memory.step_markVetoed_refused h.member.1 h.found hveto,
        Database.step_write_error rfl hjob rfl]
      exact .refused hveto
  | ok position =>
      rcases Memory.exists_latest hveto with ⟨earlier, latest, hhistory, rfl⟩
      have hunvetoed := Memory.unvetoed_of_target (hhistory ▸ hveto)
      have hplays : state.history.map TrackEntry.play = earlier.map TrackEntry.play ++
          [latest.play] := by
        rw [hhistory, List.map_append, List.map_singleton]
      -- The last row, the entry that it is read as, and the last entry in memory are one play.
      rcases exists_concat_of_map (h.rows.trans hplays) with ⟨front, row, hrows, -, hrow⟩
      rcases exists_concat_of_map (h.entries.trans hplays)
        with ⟨others, other, rfl, hothers, hother⟩
      rcases exists_concat_of_map (h.joined.trans hrows) with ⟨pairs, pair, hpairs, -, rfl⟩
      have hlength : earlier.length = others.length := by
        rw [← List.length_map TrackEntry.play, ← hothers, List.length_map]
      rw [← h.members, hlength] at hveto
      have hjob :=
        Tables.run_markVetoed hshown hpointer h.read hpairs (hjudged.trans hveto) h.user
      rw [h.members, ← hlength] at hveto
      rw [Memory.step_markVetoed h.member.1 h.found hhistory hveto,
        Database.step_write_ok rfl hjob rfl]
      have hlast : state.history.getLast? = some latest := by
        rw [hhistory, List.getLast?_concat]
      refine .flagged ?_ hlast ?_ ?_ hrow hother
      · rw [hveto, hhistory, List.length_append, List.length_singleton, Nat.add_sub_cancel]
      · exact Memory.flags_modifyRoom h.ids h.found hhistory hunvetoed user
      · exact Tables.flags_updateHistory h.numbers hrows
          ((congrArg Play.vetoed hrow).trans hunvetoed) user

theorem Mirrors.sameRoom (h : Mirrors m t) (hsound : m.Sound)
    (hroom : m.room? room = some state) (hmember : user ∈ state.members) :
    SameRoom t m room user state (state.history.map m.redescribe) where
  found := hroom
  readable := ⟨_, h.run_fetchRoom hroom⟩
  members := h.count_queuesOf hsound hroom
  member := by
    have hqueue := (hsound.mem_members_iff hroom).mp hmember
    exact ⟨hqueue, (h.queue?_isSome _).trans hqueue⟩
  user := by
    rcases hsound.exists_user hroom hmember with ⟨found, hfound⟩
    exact Option.isSome_of_eq_some ((h.user?_eq user).trans hfound)
  joined := h.map_fst_historyOf hsound room
  read := h.map_readHistory_room hsound hroom
  rows := by
    rw [h.plays, Memory.historyOf_eq hroom]
  entries := plays_redescribe m state.history
  numbers := h.nodup_numbers
  ids := hsound.roomIds

end Stores

open Store

/-- A veto judged by the newest rows is judged as by the whole history, and the row that it
flags is the one that the store in memory flags. After every run both stores show the same
rooms. -/
theorem veto_window_exact (config : Config) (room : RoomId) (user : UserId)
    (cooldown : UInt64) : (∀ {α : Type} (rows : List α) (read : α → TrackEntry),
      Tables.lastRows (max cooldown.toNat 1) rows = vetoWindow cooldown rows ∧
      JudgedAlike rows (vetoWindow cooldown rows)
        (vetoTarget (rows.map read) user cooldown.toNat)
        (vetoTarget ((vetoWindow cooldown rows).map read) user cooldown.toNat)) ∧
    (∀ {t : Tables} {m : Memory} {state : RoomState} {entries : List TrackEntry},
      SameRoom t m room user state entries →
      config.vetoCooldown state.members.length = cooldown.toNat →
      VetoedAlike m t room user state.history cooldown.toNat
        (Store.step config m (.markVetoed room user))
        (Store.step config (Database.opened t) (.markVetoed room user))) ∧
    ∀ {operations : List Operation}, Fresh operations →
      ∃ t, (runAll config Database.empty operations).2 = Database.opened t ∧
        ∀ state, (runAll config Memory.empty operations).2.room? room = some state →
          user ∈ state.members → ∃ entries,
            SameRoom t (runAll config Memory.empty operations).2 room user state entries := by
  refine ⟨?_, ?_, ?_⟩
  · intro α rows read
    exact ⟨lastRows_eq_vetoWindow cooldown rows, judgedAlike_window rows read user cooldown⟩
  · intro t m state entries hsame hcooldown
    rw [← hcooldown]
    exact hsame.vetoedAlike config
  · intro operations hfresh
    rcases together_after config hfresh with ⟨t, hrun, htogether⟩
    refine ⟨t, hrun, ?_⟩
    intro state hroom hmember
    exact ⟨_, htogether.mirrors.sameRoom htogether.sound hroom hmember⟩

/-- With one member, the cooldown is a word whose highest bit is set. -/
def patient : Config :=
  { vetoCooldownFactor := 2 ^ 63 }

def playedBoth : List Operation :=
  [.createUser ⟨"ann"⟩ "Ann", .createRoom "Den" .roundRobin (fun _ => ⟨"DEN"⟩) 0,
    .join ⟨"DEN"⟩ ⟨"ann"⟩, .addTrack ⟨⟨"DEN"⟩, ⟨"ann"⟩⟩ { id := ⟨"t"⟩, name := "Demo" } none
      ⟨"two"⟩,
    .addTrack ⟨⟨"DEN"⟩, ⟨"ann"⟩⟩ { id := ⟨"s"⟩, name := "Single" } none ⟨"one"⟩,
    .nextTrack ⟨"DEN"⟩ ⟨"now", "now"⟩, .nextTrack ⟨"DEN"⟩ ⟨"now", "now"⟩]

/-- The limit reads as negative, so all rows are fetched, and the last one is flagged. -/
theorem veto_window_exact_patient :
    vetoLimit (.ofNat (2 ^ 63)) < 0 ∧ Fresh playedBoth ∧
    ∃ t state entries,
      (runAll patient Database.empty playedBoth).2 = Database.opened t ∧
      SameRoom t (runAll patient Memory.empty playedBoth).2 ⟨"DEN"⟩ ⟨"ann"⟩ state entries ∧
      patient.vetoCooldown state.members.length = (UInt64.ofNat (2 ^ 63)).toNat ∧
      VetoedAlike (runAll patient Memory.empty playedBoth).2 t ⟨"DEN"⟩ ⟨"ann"⟩ state.history
        (UInt64.ofNat (2 ^ 63)).toNat
        (Store.step patient (runAll patient Memory.empty playedBoth).2
          (.markVetoed ⟨"DEN"⟩ ⟨"ann"⟩))
        (Store.step patient (Database.opened t) (.markVetoed ⟨"DEN"⟩ ⟨"ann"⟩)) ∧
      (Store.step patient (Database.opened t) (.markVetoed ⟨"DEN"⟩ ⟨"ann"⟩)).1 =
        .ok (.vetoed
          ((TrackEntry.served ⟨"ann"⟩ { id := ⟨"t"⟩, name := "Demo" } ⟨"now", "now"⟩).veto
          ⟨"ann"⟩)) := by
  have hfresh : Fresh playedBoth := by decide
  have hexact := veto_window_exact patient ⟨"DEN"⟩ ⟨"ann"⟩ (.ofNat (2 ^ 63))
  rcases hexact.2.2 hfresh with ⟨t, hrun, hrooms⟩
  have hshown : ((runAll patient Memory.empty playedBoth).2.room? ⟨"DEN"⟩).map
      RoomState.members = some [⟨"ann"⟩] := by decide +kernel
  rcases Option.map_eq_some_iff.mp hshown with ⟨state, hroom, hmembers⟩
  rcases hrooms state hroom (hmembers ▸ List.mem_singleton_self _) with ⟨entries, hsame⟩
  have hcooldown : patient.vetoCooldown state.members.length =
      (UInt64.ofNat (2 ^ 63)).toNat := by
    rw [hmembers]
    decide +kernel
  refine ⟨by decide +kernel, hfresh, t, state, entries, hrun, hsame, hcooldown,
    hexact.2.1 hsame hcooldown, ?_⟩
  rw [← hrun]
  decide +kernel

end Jukebox
