import Jukebox.Proofs.Store.Views

/-!
# Vetoes on part of a history

Who may veto depends on flags only, and no further back than the cooldown reaches. So the last
rows of a history, as many as the cooldown says, decide a veto as the whole history does.
-/

namespace Jukebox

theorem exists_concat_of_map {α β : Type} {f : α → β} {items : List α} {front : List β}
    {last : β} (h : items.map f = front ++ [last]) :
    ∃ earlier latest, items = earlier ++ [latest] ∧ earlier.map f = front ∧
    f latest = last := by
  rcases List.map_eq_append_iff.mp h with ⟨earlier, rest, rfl, hearlier, hrest⟩
  rcases List.map_eq_singleton_iff.mp hrest with ⟨latest, rfl, hlatest⟩
  exact ⟨earlier, latest, rfl, hearlier, hlatest⟩

theorem vetoTarget_map (change : TrackEntry → TrackEntry)
    (hvetoed : ∀ entry, (change entry).vetoed = entry.vetoed)
    (hvetoedBy : ∀ entry, (change entry).vetoedBy = entry.vetoedBy) (history : List TrackEntry)
    (user : UserId) (cooldown : Nat) :
    vetoTarget (history.map change) user cooldown = vetoTarget history user cooldown := by
  rw [vetoTarget, List.getLast?_map, vetoTarget]
  cases history.getLast? with
  | none => rfl
  | some latest =>
      simp only [Option.map_some, hvetoed, ← List.map_reverse, ← List.map_take,
        List.findIdx?_map, Function.comp_def, hvetoedBy, List.length_map]

/-- Histories of the same plays judge a veto alike. -/
theorem vetoTarget_of_plays {history others : List TrackEntry}
    (h : others.map TrackEntry.play = history.map TrackEntry.play) (user : UserId)
    (cooldown : Nat) : vetoTarget others user cooldown = vetoTarget history user cooldown := by
  let shown (play : Play) : TrackEntry := play.entry { id := play.track, name := "" }
  have hplays : ∀ entries : List TrackEntry,
      vetoTarget ((entries.map TrackEntry.play).map shown) user cooldown =
        vetoTarget entries user cooldown := by
    intro entries
    rw [List.map_map]
    exact vetoTarget_map (shown ∘ TrackEntry.play) (fun _ => rfl) (fun _ => rfl) entries user
      cooldown
  rw [← hplays, h, hplays]

/-- Entries that the cooldown does not reach play no part in vetoes either. -/
theorem vetoTarget_drop {history : List TrackEntry} {skipped cooldown : Nat}
    (hskipped : skipped < history.length)
    (hcooldown : skipped = 0 ∨ cooldown ≤ history.length - skipped) (user : UserId) :
    vetoTarget (history.drop skipped) user cooldown =
      (vetoTarget history user cooldown).map fun _ => history.length - skipped - 1 := by
  have hlast : (history.drop skipped).getLast? = history.getLast? := by
    rw [List.getLast?_drop, if_neg (Nat.not_le.mpr hskipped)]
  have hrecent : (history.drop skipped).reverse.take cooldown =
      history.reverse.take cooldown := by
    rcases hcooldown with rfl | hcooldown
    · rfl
    · rw [List.reverse_drop, List.take_take, Nat.min_eq_left hcooldown]
  rw [vetoTarget, hlast, hrecent, vetoTarget]
  cases history.getLast? with
  | none => rfl
  | some latest =>
      simp only [List.length_drop]
      split
      · rfl
      · cases (history.reverse.take cooldown).findIdx? fun entry => entry.vetoedBy == some user
          <;> rfl

namespace Tables

def skipped (limit rows : Nat) : Nat :=
  if 2 * limit < wordLimit then rows - limit else 0

theorem lastRows_eq {α : Type} (limit : Nat) (rows : List α) :
    lastRows limit rows = rows.drop (skipped limit rows.length) := by
  unfold lastRows skipped
  split <;> rfl

theorem lastRows_map {α β : Type} (f : α → β) (limit : Nat) (rows : List α) :
    (lastRows limit rows).map f = lastRows limit (rows.map f) := by
  rw [lastRows_eq, lastRows_eq, List.map_drop, List.length_map]

theorem getElem?_lastRows {α : Type} (front : List α) (row : α) (limit : Nat)
    (hlimit : 1 ≤ limit) :
    (lastRows limit (front ++ [row]))[(lastRows limit (front ++ [row])).length - 1]? =
      some row := by
  have hskipped : skipped limit (front ++ [row]).length ≤ front.length := by
    unfold skipped
    split
    · rw [List.length_append, List.length_singleton]
      omega
    · exact Nat.zero_le _
  rw [lastRows_eq, List.drop_append_of_le_length hskipped]
  simp

/-- The last rows decide a veto: its position is the last one among them. -/
theorem vetoTarget_lastRows (history : List TrackEntry) (user : UserId) (cooldown : Nat) :
    vetoTarget (lastRows (max cooldown 1) history) user cooldown =
      (vetoTarget history user cooldown).map fun _ =>
        (lastRows (max cooldown 1) history).length - 1 := by
  rcases history with - | ⟨first, rest⟩
  · simp [lastRows_eq, vetoTarget, Except.map]
  · rw [lastRows_eq, vetoTarget_drop, List.length_drop]
    · rw [List.length_cons]
      unfold skipped
      split <;> omega
    · unfold skipped
      split
      · omega
      · exact Or.inl rfl

end Tables

namespace Mirrors

open Tables

variable {m : Memory} {t : Tables} {room : RoomId} {state : RoomState} {id : QueueId}
    {queue : Queue}

theorem map_fst_historyOf (h : Mirrors m t) (hsound : m.Sound) (room : RoomId) :
    (t.historyOf room).map Prod.fst = t.history.filter fun row => row.room = room := by
  have hrows : (t.historyOf room).map Prod.fst =
      (t.history.filter fun row => row.room = room).map fun row => row := by
    refine map_filterMap ?_
    intro row hrow
    rcases h.exists_track_of_play hsound (List.mem_filter.mp hrow).1 with ⟨track, htrack⟩
    exact ⟨(row, track.row), by rw [h.tracks, htrack]; rfl, rfl⟩
  rw [hrows, List.map_id']

theorem vetoTarget_redescribe (history : List TrackEntry) (user : UserId) (cooldown : Nat) :
    vetoTarget (history.map m.redescribe) user cooldown = vetoTarget history user cooldown :=
  vetoTarget_map m.redescribe (fun _ => rfl) (fun _ => rfl) history user cooldown

theorem map_readHistory_room (h : Mirrors m t) (hsound : m.Sound)
    (hroom : m.room? room = some state) :
    (t.historyOf room).map readHistory = (state.history.map m.redescribe).map .ok := by
  rw [h.map_readHistory hsound, Memory.historyOf_eq hroom]

theorem exists_latest_row (h : Mirrors m t) (hsound : m.Sound)
    (hroom : m.room? room = some state) {earlier : List TrackEntry} {latest : TrackEntry}
    (hhistory : state.history = earlier ++ [latest]) :
    ∃ front row track, t.historyOf room = front ++ [(row, track)] ∧
      (t.history.filter fun row => row.room = room) = front.map Prod.fst ++ [row] ∧
      t.track? row.track = some track ∧
      readHistory (row, track) = .ok (m.redescribe latest) := by
  have hread := h.map_readHistory_room hsound hroom
  rw [hhistory, List.map_append, List.map_append] at hread
  rcases exists_concat_of_map hread with ⟨front, ⟨row, track⟩, hcut, -, hlatest⟩
  have hfirst := h.map_fst_historyOf hsound room
  rw [hcut, List.map_append] at hfirst
  have hmem : (row, track) ∈ t.historyOf room :=
    hcut ▸ List.mem_append_right front List.mem_cons_self
  rcases List.mem_filterMap.mp hmem with ⟨found, -, hfound⟩
  rcases Option.map_eq_some_iff.mp hfound with ⟨joined, hjoined, hpair⟩
  cases hpair
  exact ⟨front, row, track, hcut, hfirst.symm, hjoined, hlatest⟩

end Mirrors
end Jukebox
