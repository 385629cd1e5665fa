import Jukebox.Proofs.Json.Fields
import Jukebox.Proofs.Json.Parser
import Jukebox.Proofs.Number.ReadBack
import Jukebox.Records

/-!
# Tracks are stored faithfully

The text a track is stored as denotes the track again, up to its length: a length that is no
finite number is written as null, and so it is missing afterwards.
-/

namespace Jukebox
namespace Track

open Json

/-- The track that is read back: only a finite length survives. -/
def stored (track : Track) : Track :=
  { track with duration := track.duration.filter Single.isFinite }

theorem stored_eq_iff {track : Track} :
    track.stored = track ↔ ∀ length ∈ track.duration, length.isFinite := by
  cases track with
  | mk id name artists album artwork duration =>
      cases duration <;> simp [stored, Option.filter_eq_some_iff]

variable (track : Track)

theorem id_stored : track.stored.id = track.id :=
  rfl

theorem read_length (length : Option Single) :
    (orNull (length.map Single.toJson)).isClean Numeral.isPlain ∧
      optional? durationOfJson? (some (orNull (length.map Single.toJson))) =
        some (length.filter Single.isFinite) := by
  cases length with
  | none => exact ⟨rfl, rfl⟩
  | some length =>
      by_cases hfinite : length.isFinite
      · rcases Single.exists_numeral hfinite with ⟨numeral, hplain, hjson, hread⟩
        rw [Option.filter_some, if_pos hfinite]
        simp [orNull, hjson, isClean, hplain, optional?, durationOfJson?, hread]
      · have hjson := Single.toJson_eq_null hfinite
        rw [Option.filter_some, if_neg hfinite]
        simp [orNull, hjson, isClean, optional?]

theorem isClean_toJson : track.toJson.isClean Numeral.isPlain := by
  have hoptional : ∀ t : Option String, (optionalText t).isClean Numeral.isPlain := by
    intro t
    refine isClean_orNull ?_
    cases t <;> simp
  have hartists : (Json.array (track.artists.map .text)).isClean Numeral.isPlain := by
    refine isClean_array ?_
    simp
  have hlength := (read_length track.duration).1
  rw [toJson]
  refine isClean_record ?_
  simp [fields, Id.toJson, hoptional, hartists, hlength]

theorem ofJson?_toJson : ofJson? track.toJson = some track.stored := by
  have hfields : (record track.fields).fields?
      ["id", "name", "artists", "album", "artwork", "duration"] 2 =
        some (track.fields.map fun field => some field.2) :=
    fields?_record (by rfl) (by decide) 2
  have htext : ∀ t : Option String, optional? text? (some (optionalText t)) = some t :=
    fun t =>
    optional?_orNull (by simp [text]) (by simp [text, text?])
  have hartists : list? text? (.array (track.artists.map .text)) = some track.artists :=
    list?_array (by simp [text, text?])
  have hlength := (read_length track.duration).2
  rw [toJson, ofJson?, hfields]
  simp [fields, Id.toJson, Id.ofJson?, text, text?, default?, htext, hartists, hlength, stored]

theorem decode?_encode : decode? track.encode = some track.stored := by
  rw [decode?, encode, parse_compact (isClean_toJson track)]
  exact ofJson?_toJson track

end Track
end Jukebox
