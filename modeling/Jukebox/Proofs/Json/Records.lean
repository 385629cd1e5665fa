import Jukebox.Catalog
import Jukebox.Proofs.Json.Indented
import Jukebox.Proofs.Json.Track

/-!
# Records survive their texts

Identifiers, users, rooms, tracks and whole catalogs are read back from what was written of
them, whichever layout the text has and whatever characters their names are made of. Only a
length that is no finite number is lost. A file holds the bytes of such a text.
-/

namespace Jukebox

namespace Json

inductive Layout
  | compact
  | indented

def write (value : Json) : Layout → String
  | .compact => value.compact
  | .indented => value.indented

/-- Whether whatever is written is read, in either layout, and what it is then. -/
def ReadsAs {α : Type} (after : α → α) (toJson : α → Json) (ofJson? : Json → Option α) :
    Prop :=
  ∀ (layout : Layout) (record : α),
    (parse ((toJson record).write layout)).bind ofJson? = some (after record)

theorem parse_write {value : Json} (h : value.isClean Numeral.isPlain) (layout : Layout) :
    parse (value.write layout) = some value := by
  cases layout with
  | compact => exact parse_compact h
  | indented => exact parse_indented h

theorem readsAs {α : Type} {after : α → α} {toJson : α → Json} {ofJson? : Json → Option α}
    (hclean : ∀ record, (toJson record).isClean Numeral.isPlain)
    (hread : ∀ record, ofJson? (toJson record) = some (after record)) :
    ReadsAs after toJson ofJson? := by
  intro layout record
  rw [parse_write (hclean record), Option.bind_some, hread]

theorem isClean_records {α : Type} {toJson : α → Json}
    (hclean : ∀ record, (toJson record).isClean Numeral.isPlain) (records : List α) :
    (Json.array (records.map toJson)).isClean Numeral.isPlain := by
  apply isClean_array
  intro item hitem
  rcases List.mem_map.mp hitem with ⟨record, -, rfl⟩
  exact hclean record

end Json

open Json

namespace Id

variable {kind : IdKind} (id : Id kind)

theorem isClean_toJson : id.toJson.isClean Numeral.isPlain :=
  isClean_text id.text

theorem ofJson?_toJson : ofJson? id.toJson = some id :=
  rfl

end Id

namespace RotatorKind

variable (kind : RotatorKind)

theorem isClean_toJson : kind.toJson.isClean Numeral.isPlain :=
  isClean_text kind.key

theorem ofJson?_toJson : ofJson? kind.toJson = some kind :=
  ofKey?_key kind

end RotatorKind

namespace User

variable (user : User)

theorem isClean_toJson : user.toJson.isClean Numeral.isPlain := by
  rw [toJson]
  apply isClean_record
  simp [Id.isClean_toJson]

theorem ofJson?_toJson : ofJson? user.toJson = some user := by
  have hfields : user.toJson.fields? ["id", "display_name"] 2 =
      some [some user.id.toJson, some (.text user.displayName)] :=
    fields?_record (by rfl) (by decide) 2
  rw [ofJson?, hfields]
  simp [Id.ofJson?_toJson, text, text?]

end User

namespace Room

variable (room : Room)

theorem isClean_toJson : room.toJson.isClean Numeral.isPlain := by
  rw [toJson]
  apply isClean_record
  simp [Id.isClean_toJson, RotatorKind.isClean_toJson]

theorem ofJson?_toJson : ofJson? room.toJson = some room := by
  have hfields : room.toJson.fields? ["id", "display_name", "rotator"] 3 =
      some [some room.id.toJson, some (.text room.displayName), some room.rotator.toJson] :=
    fields?_record (by rfl) (by decide) 3
  rw [ofJson?, hfields]
  simp [Id.ofJson?_toJson, RotatorKind.ofJson?_toJson, text, text?]

end Room

namespace Catalog

theorem fromUTF8?_toUTF8 (text : String) : String.fromUTF8? text.toUTF8 = some text := by
  rw [String.fromUTF8?, String.toUTF8_eq_toByteArray, dif_pos text.isValidUTF8]
  rfl

theorem ofBytes_write (tracks : List Track) (layout : Layout) :
    ofBytes (some ((Json.array (tracks.map Track.toJson)).write layout).toUTF8) =
      .ok ⟨tracks.map Track.stored⟩ := by
  have hclean := isClean_records Track.isClean_toJson tracks
  have hread : list? Track.ofJson? (.array (tracks.map Track.toJson)) =
      some (tracks.map Track.stored) := mapM_map fun track _ => Track.ofJson?_toJson track
  simp only [ofBytes, Option.bind_some, fromUTF8?_toUTF8, ofText, parse_write hclean, hread]

end Catalog

/-- Whatever texts the fields of a record hold, the record is read back from its own text, and
so are all tracks of a catalog from its file. A track is the same afterwards unless its length
is infinite or no number. -/
theorem records_read_back :
    (∀ kind : IdKind, ReadsAs id (@Id.toJson kind) Id.ofJson?) ∧
      ReadsAs id User.toJson User.ofJson? ∧ ReadsAs id Room.toJson Room.ofJson? ∧
      ReadsAs Track.stored Track.toJson Track.ofJson? ∧
      (∀ (tracks : List Track) (layout : Layout),
        Catalog.ofBytes (some ((Json.array (tracks.map Track.toJson)).write layout).toUTF8) =
          .ok ⟨tracks.map Track.stored⟩) ∧
      ∀ track : Track, track.stored = track ↔ ∀ length ∈ track.duration, length.isFinite := by
  refine ⟨?_, ?_, ?_, ?_, ?_, ?_⟩
  · intro kind
    exact readsAs Id.isClean_toJson Id.ofJson?_toJson
  · exact readsAs User.isClean_toJson User.ofJson?_toJson
  · exact readsAs Room.isClean_toJson Room.ofJson?_toJson
  · exact readsAs Track.isClean_toJson Track.ofJson?_toJson
  · exact Catalog.ofBytes_write
  · exact fun track => Track.stored_eq_iff

end Jukebox
