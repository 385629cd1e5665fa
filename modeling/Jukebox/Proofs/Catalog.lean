import Mathlib.Data.List.Sort
import Jukebox.Catalog
import Jukebox.Proofs.Text.Exposed

/-!
# Searching the catalog

A search looks for the small letters of the query in those of each name, artist and album. What
it finds stands in catalog order, each position at most once. A query that is a piece of one of
these texts finds the track, unless the text tears it at a sigma. So the queries that find
every track they are a piece of are those without an exposed sigma.
-/

namespace Jukebox

open Text

def Track.texts (track : Track) : List String :=
  track.name :: (track.artists ++ track.album.toList)

namespace Catalog

variable {catalog : Catalog} {query : String}

theorem trackMatches_iff {query : List Char} {track : Track} :
    trackMatches query track = true ↔ ∃ text ∈ track.texts, query <:+: lower text.toList := by
  have htext : ∀ text, fieldMatches query text = true ↔ query <:+: lower text.toList :=
    fun text => occursIn_iff
  simp only [trackMatches, Track.texts, Bool.or_eq_true, List.any_eq_true,
    Option.any_eq_true, htext, List.mem_cons, List.mem_append, Option.mem_toList, or_and_right,
    exists_or, exists_eq_left, or_assoc]

theorem search_of_blank (h : Blank query.toList) : catalog.search query = [] := by
  rw [search, trim_eq_nil_iff.mpr h]
  rfl

theorem search_of_not_blank (h : ¬Blank query.toList) :
    catalog.search query = catalog.tracks.filter
      (trackMatches (lower (trim query.toList))) := by
  have hsome : (lower (trim query.toList)).isEmpty = false := by
    rw [List.isEmpty_eq_false_iff, ne_eq, lower_eq_nil_iff, trim_eq_nil_iff]
    exact h
  rw [search]
  simp only [hsome, Bool.false_eq_true, if_false]

/-!
## Positions
-/

def positions (catalog : Catalog) (query : List Char) : List (Fin catalog.tracks.length) :=
  (List.finRange catalog.tracks.length).filter fun position =>
    trackMatches query (catalog.tracks.get position)

theorem mem_positions_iff {query : List Char} {position : Fin catalog.tracks.length} :
    position ∈ catalog.positions query ↔
      ∃ text ∈ (catalog.tracks.get position).texts, query <:+: lower text.toList := by
  rw [positions, List.mem_filter, and_iff_right (List.mem_finRange position), trackMatches_iff]

theorem pairwise_positions (catalog : Catalog) (query : List Char) :
    (catalog.positions query).Pairwise (· < ·) :=
  (List.sortedLT_finRange catalog.tracks.length).pairwise.filter _

theorem map_get_positions (catalog : Catalog) (query : List Char) :
    (catalog.positions query).map catalog.tracks.get = catalog.tracks.filter
    (trackMatches query) := by
  calc
    (catalog.positions query).map catalog.tracks.get =
        ((List.finRange catalog.tracks.length).map catalog.tracks.get).filter
        (trackMatches query) := by
      rw [List.filter_map]
      rfl
    _ = catalog.tracks.filter (trackMatches query) := by rw [List.map_get_finRange]

/-!
## What is found
-/

/-- Whether a search finds the tracks at these positions, and what is known about them. -/
structure FoundAt (catalog : Catalog) (query : String)
    (positions : List (Fin catalog.tracks.length)) : Prop where
  answer : catalog.search query = positions.map catalog.tracks.get
  inOrder : positions.Pairwise (· < ·)
  exactly : ∀ position, position ∈ positions ↔ ¬Blank query.toList ∧
    ∃ text ∈ (catalog.tracks.get position).texts,
    lower (trim query.toList) <:+: lower text.toList
  pieces : ∀ position, ∀ text ∈ (catalog.tracks.get position).texts, ∀ front back,
    front ++ query.toList ++ back = text.toList → ¬Blank query.toList →
      ¬Torn front query.toList back → position ∈ positions
  nothing : Blank query.toList → positions = []

theorem foundAt_of_blank (catalog : Catalog) (h : Blank query.toList) :
    FoundAt catalog query [] where
  answer := search_of_blank h
  inOrder := .nil
  exactly := fun _ => iff_of_false List.not_mem_nil fun hquery => hquery.1 h
  pieces := fun _ _ _ _ _ _ hquery => absurd h hquery
  nothing := fun _ => rfl

theorem isInfix_lower_of_not_torn {front piece back : List Char} (h : ¬Torn front piece back) :
    lower (trim piece) <:+: lower (front ++ piece ++ back) := by
  have hstands : lower piece <:+: lower (front ++ piece ++ back) :=
    isInfix_of_standsAt (standsAt_lower_iff.mpr h)
  rcases lower_trim_cut piece with ⟨lead, trail, -, -, hcut⟩
  rw [hcut] at hstands
  exact (List.infix_append lead _ trail).trans hstands

theorem foundAt_of_not_blank (catalog : Catalog) (h : ¬Blank query.toList) :
    FoundAt catalog query (catalog.positions (lower (trim query.toList))) where
  answer := by rw [search_of_not_blank h, map_get_positions]
  inOrder := pairwise_positions catalog _
  exactly := fun position => by rw [mem_positions_iff, and_iff_right h]
  pieces := by
    intro position text htext front back hpiece _ htorn
    rw [mem_positions_iff]
    refine ⟨text, htext, ?_⟩
    rw [← hpiece]
    exact isInfix_lower_of_not_torn htorn
  nothing := fun hblank => absurd hblank h

theorem exists_foundAt (catalog : Catalog) (query : String) :
    ∃ positions, FoundAt catalog query positions := by
  by_cases h : Blank query.toList
  · exact ⟨[], foundAt_of_blank catalog h⟩
  · exact ⟨_, foundAt_of_not_blank catalog h⟩

/-!
## Queries that find every piece
-/

def FindsPieces (query : String) : Prop :=
  ∀ catalog : Catalog, ∀ track ∈ catalog.tracks, ∀ text ∈ track.texts,
    query.toList <:+: text.toList → track ∈ catalog.search query

def named (name : String) : Catalog :=
  ⟨[{ id := ⟨name⟩, name }]⟩

theorem FindsPieces.mem_search_named (h : FindsPieces query) {name : String}
    (hpiece : query.toList <:+: name.toList) : (named name).search query ≠ [] := by
  have hmem := h (named name) _ List.mem_cons_self name List.mem_cons_self hpiece
  exact List.ne_nil_of_mem hmem

theorem findsPieces_iff (query : String) :
    FindsPieces query ↔ ¬Blank query.toList ∧ ¬Exposed query.toList := by
  constructor
  · intro hfinds
    have hblank : ¬Blank query.toList := fun hblank =>
      hfinds.mem_search_named (List.infix_refl _) (search_of_blank hblank)
    refine ⟨hblank, ?_⟩
    intro hexposed
    rcases hexposed.exists_text with ⟨front, back, hmissing⟩
    have hpiece : query.toList <:+:
        (String.ofList (front ++ query.toList ++ back)).toList := by
      rw [String.toList_ofList]
      exact List.infix_append front _ back
    apply hfinds.mem_search_named hpiece
    rw [search_of_not_blank hblank, List.filter_eq_nil_iff]
    intro track htrack
    rw [List.mem_singleton.mp htrack, trackMatches_iff]
    rintro ⟨text, htext, hfound⟩
    rw [List.mem_singleton.mp htext, String.toList_ofList] at hfound
    exact hmissing hfound
  · rintro ⟨hblank, hexposed⟩ catalog track htrack text htext ⟨front, back, hpiece⟩
    rw [search_of_not_blank hblank, List.mem_filter, trackMatches_iff]
    refine ⟨htrack, text, htext, ?_⟩
    rw [← hpiece]
    exact isInfix_lower_of_not_torn fun htorn => hexposed htorn.exposed

/-- A query that is not blank finds each track with a text that has it as a piece and does not
tear it. Where a text tears it, its small letters do not stand in their place. The queries that
find every piece are those that no text can tear. -/
theorem tracks_found_by_pieces (query : String) :
    (∀ catalog : Catalog, ∃ positions, FoundAt catalog query positions) ∧
      (∀ front back, StandsAt (lower front).length (lower query.toList)
        (lower (front ++ query.toList ++ back)) ↔ ¬Torn front query.toList back) ∧
      (FindsPieces query ↔ ¬Blank query.toList ∧ ¬Exposed query.toList) :=
  ⟨fun catalog => exists_foundAt catalog query, fun _ _ => standsAt_lower_iff,
    findsPieces_iff query⟩

def greek : Catalog :=
  ⟨[{ id := ⟨"street"⟩, name := "ΟΔΟΣ" }, { id := ⟨"hero"⟩, name := "ΟΔΥΣΣΕΑΣ" }]⟩

/-- The inner letters of a name find it, but its first four letters do not: on their own they
end in a final sigma. -/
theorem tracks_found_by_pieces_halfWord :
    (∃ positions, FoundAt greek "ΥΣΣΕΑ" positions ∧ ⟨1, by decide⟩ ∈ positions) ∧
      Torn [] "ΟΔΥΣ".toList "ΣΕΑΣ".toList ∧ greek.search "ΟΔΥΣ" = [] ∧
      ¬FindsPieces "ΟΔΥΣ" := by
  have htorn : Torn [] "ΟΔΥΣ".toList "ΣΕΑΣ".toList :=
    @Torn.back _ _ _ "ΟΔΥ".toList [] (by decide) nofun (by decide +kernel) (by decide +kernel)
  refine ⟨?_, htorn, by decide +kernel, ?_⟩
  · rcases (tracks_found_by_pieces "ΥΣΣΕΑ").1 greek with ⟨positions, hfound⟩
    have hblank : ¬Blank "ΥΣΣΕΑ".toList := by
      intro hblank
      exact absurd (hblank 'Υ' (by decide)) (by decide)
    have hwhole : ¬Torn "ΟΔ".toList "ΥΣΣΕΑ".toList "Σ".toList := by
      rw [← (tracks_found_by_pieces "ΥΣΣΕΑ").2.1, StandsAt]
      decide +kernel
    exact ⟨positions, hfound,
      hfound.pieces ⟨1, by decide⟩ "ΟΔΥΣΣΕΑΣ" (by decide) "ΟΔ".toList "Σ".toList
        (by decide) hblank hwhole⟩
  · intro hfinds
    exact ((tracks_found_by_pieces "ΟΔΥΣ").2.2.mp hfinds).2 htorn.exposed

end Catalog
end Jukebox
