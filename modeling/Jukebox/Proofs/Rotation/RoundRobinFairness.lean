import Jukebox.Proofs.Rotation.Play
import Jukebox.Proofs.Rotation.RoundRobin

/-!
# Round robin is fair under joins

Read on from its cursor, the order of a round robin says in which order the coming turns are
taken. A turn moves the first index to the end, and a newcomer comes in somewhere behind the
first index. So whoever had a turn stands behind all others until they had theirs, no matter
who joins meanwhile.
-/

namespace Jukebox
namespace RoundRobin

open Rotation

variable {r : RoundRobin}

/-- The indices in the order of their coming turns, each once. -/
def coming (r : RoundRobin) : List Nat :=
  r.order.rotate r.cursor

theorem coming_cut {front back : List Nat} (horder : r.order = front ++ back)
    (hcursor : front.length = r.cursor) : r.coming = back ++ front := by
  rw [coming, horder, ← hcursor, List.rotate_append_length_eq]

theorem length_coming (r : RoundRobin) : r.coming.length = r.order.length :=
  List.length_rotate _ _

theorem coming_ne_nil (hsize : 0 < r.order.length) : r.coming ≠ [] := by
  rw [← length_coming] at hsize
  exact List.ne_nil_of_length_pos hsize

theorem mem_coming (h : r.WellFormed) {index : Nat} : index ∈ r.coming ↔
    index < r.order.length := by
  rw [coming, List.mem_rotate, h.order.mem_iff, List.mem_range]

theorem nodup_coming (h : r.WellFormed) : r.coming.Nodup := by
  rw [coming, List.nodup_rotate, h.order.nodup_iff]
  exact List.nodup_range

theorem turn_coming (h : r.WellFormed) {index : Nat} {rest : List Nat}
    (hcoming : r.coming = index :: rest) :
    ∃ after, Rotation.next? r = some (index, after) ∧ after.WellFormed ∧
      after.coming = rest ++ [index] := by
  have hsize : 0 < r.order.length := by
    rw [← length_coming, hcoming]
    exact Nat.succ_pos _
  have hhead := List.head?_rotate (h.cursor_lt hsize)
  rw [← coming, hcoming, List.head?_cons] at hhead
  refine ⟨_, h.next?_eq hhead.symm, h.moved hsize _, ?_⟩
  have hmoved : r.order.rotate (r.cursor + 1) = (index :: rest).rotate 1 := by
    rw [← List.rotate_rotate, ← coming, hcoming]
  rw [coming, h.cursor_turned hsize]
  show r.order.rotate ((r.cursor + 1) % r.order.length) = _
  rw [List.rotate_mod, hmoved, List.rotate_cons_succ, List.rotate_zero]

theorem exists_coming_of_next? (h : r.WellFormed) (hsize : 0 < r.order.length) {index : Nat}
    {after : RoundRobin} (hnext : Rotation.next? r = some (index, after)) :
    ∃ rest, r.coming = index :: rest ∧ after.coming = rest ++ [index] ∧ after.WellFormed := by
  cases hcoming : r.coming with
  | nil => exact absurd hcoming (coming_ne_nil hsize)
  | cons first rest =>
      rcases turn_coming h hcoming with ⟨turned, hturn, hwell, hafter⟩
      rw [hnext, Option.some.injEq, Prod.mk.injEq] at hturn
      rcases hturn with ⟨rfl, rfl⟩
      exact ⟨rest, rfl, hafter, hwell⟩

theorem size_next (h : r.WellFormed) (hsize : 0 < r.order.length) {index : Nat}
    {after : RoundRobin} (hnext : Rotation.next? r = some (index, after)) :
    after.order.length = r.order.length := by
  rcases exists_coming_of_next? h hsize hnext with ⟨rest, hcoming, hafter, -⟩
  rw [← length_coming, ← length_coming, hcoming, hafter, List.length_append, List.length_cons]
  rfl

theorem insert_cut {front back : List Nat} {slot : Nat} (horder : r.order = front ++ back)
    (hslot : front.length = slot) (newcomer : Nat) :
    r.order.insertIdx slot newcomer = front ++ newcomer :: back := by
  rw [horder, ← hslot, insertIdx_cut]

theorem exists_add_coming_ahead (hroom : r.order.length < wordLimit)
    (hahead : r.cursor ≤ halfwaySlot r.cursor r.order.length) :
    ∃ front back, r.coming = front ++ back ∧ r.add.coming = front ++ r.order.length :: back ∧
      front.length = halfwaySlot r.cursor r.order.length - r.cursor := by
  rcases exists_cuts r.order hahead (halfwaySlot_le r.cursor r.order.length) with
    ⟨front, middle, back, horder, hfront, hmiddle⟩
  have hcut : r.order = (front ++ middle) ++ back := by rw [horder, List.append_assoc]
  have horder' : r.add.order = front ++ (middle ++ r.order.length :: back) := by
    simp only [add, wrap_of_lt hroom]
    rw [insert_cut hcut hmiddle, List.append_assoc]
  have hcursor' : r.add.cursor = r.cursor := if_neg (Nat.not_lt.mpr hahead)
  have hcoming : r.coming = (middle ++ back) ++ front := coming_cut horder hfront
  have hafter : r.add.coming = (middle ++ r.order.length :: back) ++ front :=
    coming_cut horder' (hfront.trans hcursor'.symm)
  refine ⟨middle, back ++ front, ?_, ?_, ?_⟩
  · rw [hcoming, List.append_assoc]
  · rw [hafter, List.append_assoc, List.cons_append]
  · rw [List.length_append] at hmiddle
    omega

/-- Where the slot lies before the cursor, the cursor moves on with whoever is next. -/
theorem exists_add_coming_passed (hroom : r.order.length < wordLimit)
    (hcursor : r.cursor < r.order.length)
    (hpassed : halfwaySlot r.cursor r.order.length < r.cursor) :
    ∃ front back, r.coming = front ++ back ∧ r.add.coming = front ++ r.order.length :: back ∧
      front.length = r.order.length - r.cursor + halfwaySlot r.cursor r.order.length := by
  rcases exists_cuts r.order (Nat.le_of_lt hpassed) (Nat.le_of_lt hcursor) with
    ⟨front, middle, back, horder, hfront, hmiddle⟩
  have horder' : r.add.order = (front ++ r.order.length :: middle) ++ back := by
    simp only [add, wrap_of_lt hroom]
    rw [insert_cut horder hfront, List.append_assoc, List.cons_append]
  have hcursor' : r.add.cursor = r.cursor + 1 := by
    have hadvanced : r.add.cursor = wrap (r.cursor + 1) := if_pos hpassed
    rw [hadvanced, wrap_of_lt (Nat.lt_of_le_of_lt hcursor hroom)]
  have hcoming : r.coming = back ++ (front ++ middle) :=
    coming_cut (by rw [horder, List.append_assoc]) hmiddle
  have hafter : r.add.coming = back ++ (front ++ r.order.length :: middle) := by
    refine coming_cut horder' ?_
    rw [hcursor', ← hmiddle]
    simp only [List.length_append, List.length_cons]
    omega
  refine ⟨back ++ front, middle, ?_, ?_, ?_⟩
  · rw [hcoming, List.append_assoc]
  · rw [hafter, List.append_assoc]
  · have hlength := congrArg List.length horder
    simp only [List.length_append] at hmiddle hlength ⊢
    omega

theorem exists_add_coming (h : r.WellFormed) (hroom : r.order.length < wordLimit) :
    ∃ front back, r.coming = front ++ back ∧ r.add.coming = front ++ r.order.length :: back ∧
      front.length =
        if r.cursor ≤ halfwaySlot r.cursor r.order.length then
          halfwaySlot r.cursor r.order.length - r.cursor
        else r.order.length - r.cursor + halfwaySlot r.cursor r.order.length := by
  rcases Nat.lt_or_ge (halfwaySlot r.cursor r.order.length) r.cursor with hpassed | hahead
  · rw [if_neg (Nat.not_le.mpr hpassed)]
    refine exists_add_coming_passed hroom (h.cursor.resolve_right ?_) hpassed
    rintro ⟨-, hzero⟩
    omega
  · rw [if_pos hahead]
    exact exists_add_coming_ahead hroom hahead

theorem add_coming (h : r.WellFormed) (hroom : r.order.length < wordLimit) :
    ∃ front back, r.coming = front ++ back ∧ r.add.coming = front ++ r.order.length :: back ∧
      (front = [] → r.coming = []) := by
  rcases exists_add_coming h hroom with ⟨front, back, hcoming, hadded, hplace⟩
  refine ⟨front, back, hcoming, hadded, ?_⟩
  rintro rfl
  have hnone : ¬r.cursor < r.order.length := by
    intro hlt
    have hne := halfwaySlot_ne hroom hlt
    rw [List.length_nil] at hplace
    split at hplace <;> omega
  rcases h.cursor with hlt | ⟨hnil, -⟩
  · exact absurd hlt hnone
  · rw [coming, hnil, List.rotate_nil]

/-!
## From one turn of an index to the next
-/

theorem next?_idle (h : r.order.length = 0) : Rotation.next? r = some (0, r) :=
  if_pos (List.length_eq_zero_iff.mp h)

/-- What has happened since an index had its turn. Of the coming turns, those in `front` come
before the next one of the index. Whoever had a turn since then stands in `back`, and all who
had been there before had theirs or are still in front.
-/
structure Since (existing index : Nat) (returned front back : List Nat) (r : RoundRobin) :
    Prop where
  wellFormed : r.WellFormed
  coming : r.coming = front ++ index :: back
  passed : ∀ other ∈ returned, other ∈ back
  once : returned.Nodup
  all : ∀ other < existing, other ≠ index → other ∈ front ∨ other ∈ returned

namespace Since

variable {existing index : Nat} {returned front back : List Nat}

theorem start (h : r.WellFormed) {after : RoundRobin} {index : Nat}
    (hsize : 0 < r.order.length) (hnext : Rotation.next? r = some (index, after)) :
    ∃ front, Since r.order.length index [] front [] after := by
  rcases exists_coming_of_next? h hsize hnext with ⟨rest, hcoming, hafter, hwell⟩
  refine ⟨rest, hwell, hafter, by simp, List.nodup_nil, ?_⟩
  intro other hlt hne
  have hmem : other ∈ r.coming := (mem_coming h).mpr hlt
  rw [hcoming, List.mem_cons] at hmem
  exact Or.inl (hmem.resolve_left hne)

theorem size_pos (h : Since existing index returned front back r) : 0 < r.order.length := by
  rw [← length_coming, h.coming, List.length_append]
  exact Nat.lt_add_left _ (Nat.succ_pos _)

theorem turn (h : Since existing index returned front back r) {first : Nat}
    {after : RoundRobin} (hnext : Rotation.next? r = some (first, after))
    (hother : first ≠ index) : ∃ rest, front = first :: rest ∧
      Since existing index (returned ++ [first]) rest (back ++ [first]) after := by
  have hsize : 0 < r.order.length := h.size_pos
  rcases exists_coming_of_next? h.wellFormed hsize hnext with ⟨tail, hcoming, hafter, hwell⟩
  have heq := h.coming.symm.trans hcoming
  cases hfront : front with
  | nil =>
      rw [hfront, List.nil_append, List.cons.injEq] at heq
      exact absurd heq.1.symm hother
  | cons head rest =>
      rw [hfront, List.cons_append, List.cons.injEq] at heq
      rcases heq with ⟨rfl, rfl⟩
      refine ⟨rest, rfl, hwell, ?_, ?_, ?_, ?_⟩
      · rw [hafter, List.append_assoc, List.cons_append]
      · intro other hmem
        rcases List.mem_append.mp hmem with hmem | hmem
        · exact List.mem_append_left _ (h.passed other hmem)
        · exact List.mem_append_right _ hmem
      · -- The first index still stands in front, so it did not have a turn yet.
        have hnodup := nodup_coming h.wellFormed
        rw [hcoming, List.nodup_cons] at hnodup
        refine List.nodup_append_comm.mp (List.nodup_cons.mpr ⟨?_, h.once⟩)
        intro hmem
        exact hnodup.1 (List.mem_append_right _ (List.mem_cons_of_mem _ (h.passed head hmem)))
      · intro other hlt hne
        rcases h.all other hlt hne with hmem | hmem
        · rw [hfront, List.mem_cons] at hmem
          rcases hmem with rfl | hmem
          · exact Or.inr (List.mem_append_right _ (List.mem_singleton.mpr rfl))
          · exact Or.inl hmem
        · exact Or.inr (List.mem_append_left _ hmem)

theorem newcomer (h : Since existing index returned front back r)
    (hroom : r.order.length < wordLimit) :
    ∃ front back, Since existing index returned front back r.add := by
  rcases add_coming h.wellFormed hroom with ⟨before, behind, hcoming, hadded, -⟩
  have hwell := h.wellFormed.add hroom
  have heq := hcoming.symm.trans h.coming
  rcases List.append_eq_append_iff.mp heq with ⟨rest, hfront, hbehind⟩ | ⟨rest, hbefore, hback⟩
  · -- The newcomer comes before the index.
    refine ⟨before ++ r.order.length :: rest, back, hwell, ?_, h.passed, h.once, ?_⟩
    · rw [hadded, hbehind, List.append_assoc, List.cons_append]
    · intro other hlt hne
      have hall := h.all other hlt hne
      rw [hfront, List.mem_append] at hall
      rw [List.mem_append, List.mem_cons]
      tauto
  · cases rest with
    | nil =>
        rw [List.append_nil] at hbefore
        rw [List.nil_append] at hback
        refine ⟨front ++ [r.order.length], back, hwell, ?_, h.passed, h.once, ?_⟩
        · rw [hadded, hbefore, ← hback, List.append_assoc, List.cons_append, List.nil_append]
        · intro other hlt hne
          exact (h.all other hlt hne).imp_left (List.mem_append_left _)
    | cons head rest =>
        -- The newcomer comes behind the index, where the turns since then have gone.
        rw [List.cons_append, List.cons.injEq] at hback
        rcases hback with ⟨rfl, hback⟩
        refine ⟨front, rest ++ r.order.length :: behind, hwell, ?_, ?_, h.once, h.all⟩
        · rw [hadded, hbefore, List.append_assoc, List.cons_append]
        · intro other hmem
          have hpassed := h.passed other hmem
          rw [hback, List.mem_append] at hpassed
          rw [List.mem_append, List.mem_cons]
          tauto

/-- What holds since a turn of an index goes on to hold until its next one. -/
theorem play (h : Since existing index returned front back r) {events : List Event}
    (hroom : r.order.length + newcomers events < wordLimit) {indices : List Nat}
    {after : RoundRobin} (hplay : play? events r = some (indices, after))
    (hnot : index ∉ indices) :
    ∃ front back, Since existing index (returned ++ indices) front back after := by
  induction events generalizing r returned front back indices with
  | nil =>
      cases hplay
      exact ⟨front, back, by simpa using h⟩
  | cons event rest ih =>
      cases event with
      | newcomer =>
          rw [newcomers_newcomer] at hroom
          rcases h.newcomer (by omega) with ⟨_, _, hadded⟩
          exact ih hadded (by rw [size_add]; omega) hplay hnot
      | turn =>
          rw [newcomers_turn] at hroom
          rcases exists_of_play?_turn hplay with ⟨first, middle, later, hnext, hrest, rfl⟩
          have hother : first ≠ index := fun heq => hnot (heq ▸ List.mem_cons_self)
          rcases h.turn hnext hother with ⟨front, -, hturned⟩
          have hkept : middle.order.length = r.order.length :=
            size_next h.wellFormed h.size_pos hnext
          rcases ih hturned (by rw [hkept]; exact hroom) hrest
            (fun hmem => hnot (List.mem_cons_of_mem _ hmem)) with ⟨front, back, hafter⟩
          exact ⟨front, back, by simpa using hafter⟩

theorem again (h : Since existing index returned front back r) {after : RoundRobin}
    (hnext : Rotation.next? r = some (index, after)) : front = [] := by
  rcases exists_coming_of_next? h.wellFormed h.size_pos hnext with ⟨tail, hcoming, -⟩
  have heq := h.coming.symm.trans hcoming
  cases front with
  | nil => rfl
  | cons head rest =>
      rw [List.cons_append, List.cons.injEq] at heq
      have hnodup := nodup_coming h.wellFormed
      rw [h.coming, heq.1] at hnodup
      have htwice : index ∈ rest ++ index :: back :=
        List.mem_append_right _ List.mem_cons_self
      exact absurd htwice (List.nodup_cons.mp hnodup).1

end Since

/-!
## Fairness
-/

theorem Since.counts {existing index : Nat} {returned back : List Nat}
    (h : Since existing index returned [] back r) {other : Nat} (hne : other ≠ index) :
    (other < existing → returned.count other = 1) ∧ returned.count other ≤ 1 := by
  have honce : returned.count other ≤ 1 := List.nodup_iff_count_le_one.mp h.once other
  refine ⟨?_, honce⟩
  intro hlt
  have hmem : other ∈ returned := (h.all other hlt hne).resolve_left List.not_mem_nil
  exact Nat.le_antisymm honce (List.count_pos_iff.mpr hmem)

theorem first_of_idle (h : r.WellFormed)
    (hidle : ∀ index, r.coming.head? = some index → index = 0) {events : List Event}
    (hroom : r.order.length + newcomers events < wordLimit) {index : Nat} {rest : List Nat}
    {after : RoundRobin}
    (hplay : play? events r = some (index :: rest, after)) : index = 0 := by
  induction events generalizing r with
  | nil => cases hplay
  | cons event events ih =>
      cases event with
      | newcomer =>
          rw [newcomers_newcomer] at hroom
          refine ih (h.add (by omega)) ?_ (by rw [size_add]; omega) hplay
          rcases add_coming h (by omega) with ⟨front, back, hcoming, hadded, hempty⟩
          intro head hhead
          cases front with
          | nil =>
              -- The newcomer is first only if nobody was there.
              have hlength := congrArg List.length (hempty rfl)
              rw [length_coming, List.length_nil] at hlength
              rw [hadded, List.nil_append, List.head?_cons, hlength] at hhead
              exact (Option.some.inj hhead).symm
          | cons first front =>
              rw [hadded, List.cons_append, List.head?_cons] at hhead
              exact hidle head (by rw [hcoming, List.cons_append, List.head?_cons, hhead])
      | turn =>
          rcases exists_of_play?_turn hplay with ⟨first, middle, later, hnext, -, heq⟩
          obtain rfl : index = first := (List.cons.inj heq).1
          by_cases hsize : r.order.length = 0
          · rw [next?_idle hsize] at hnext
            cases hnext
            rfl
          · rcases exists_coming_of_next? h (Nat.pos_of_ne_zero hsize) hnext with
              ⟨rest, hcoming, -⟩
            exact hidle index (by rw [hcoming, List.head?_cons])

theorem erase_add (h : r.WellFormed) (hroom : r.order.length < wordLimit) :
    r.add.order.erase r.order.length = r.order := by
  have hslot := halfwaySlot_le r.cursor r.order.length
  rcases exists_cuts r.order (Nat.zero_le _) hslot
    with ⟨front, middle, back, horder, -, hmiddle⟩
  have hcut : r.order = (front ++ middle) ++ back := by rw [horder, List.append_assoc]
  have hnew : r.order.length ∉ front ++ middle := by
    intro hmem
    have hin : r.order.length ∈ r.order := by
      rw [hcut] at hmem ⊢
      exact List.mem_append_left _ hmem
    exact Nat.lt_irrefl _ (h.lt_of_mem hin)
  have hadded : r.add.order = (front ++ middle) ++ r.order.length :: back := by
    rw [← insert_cut hcut hmiddle]
    simp only [add, wrap_of_lt hroom]
  rw [hadded, List.erase_append_right _ hnew, List.erase_cons_head, ← hcut]

theorem next?_add (h : r.WellFormed) (hsize : 0 < r.order.length)
    (hroom : r.order.length < wordLimit) :
    (Rotation.next? r.add).map Prod.fst = (Rotation.next? r).map Prod.fst := by
  rcases add_coming h hroom with ⟨front, back, hcoming, hadded, hempty⟩
  cases front with
  | nil => exact absurd (hempty rfl) (coming_ne_nil hsize)
  | cons first front =>
      rw [List.cons_append] at hcoming hadded
      rcases turn_coming h hcoming with ⟨after, hnext, -⟩
      rcases turn_coming (h.add hroom) hadded with ⟨grown, hgrown, -⟩
      rw [hnext, hgrown, Option.map_some, Option.map_some]

/-- What is fair about the turns that follow a moment. -/
structure Fair (r : RoundRobin) : Prop where
  /-- Between a turn of an index and its next one, all others that were there have one turn
  each, and whoever joins in between has one at most. -/
  between : ∀ {index : Nat} {first last again : RoundRobin} {events : List Event}
    {returned : List Nat}, r.order.length + newcomers events < wordLimit →
    Rotation.next? r = some (index, first) →
    play? events first = some (returned, last) → Rotation.next? last = some (index, again) →
    index ∉ returned → ∀ other ≠ index,
      (other < r.order.length → returned.count other = 1) ∧
      (r.order.length ≤ other → returned.count other ≤ 1)
  /-- Whoever is next stays next when somebody joins. -/
  next : r.order ≠ [] → (Rotation.next? r.add).map Prod.fst = (Rotation.next? r).map Prod.fst
  /-- Those who are there keep their order when somebody joins. -/
  order : r.add.order.erase r.order.length = r.order

theorem WellFormed.fair (h : r.WellFormed) (hfits : r.order.length < wordLimit) : Fair r where
  between := by
    intro index first last again events returned hroom hnext hplay hagain hnot other hne
    by_cases hsize : r.order.length = 0
    · -- An empty rotation answers 0, and then 0 is also the next index that it hands out.
      rw [next?_idle hsize] at hnext
      cases hnext
      have hidle : ∀ head, r.coming.head? = some head → head = 0 := by
        rw [coming, List.length_eq_zero_iff.mp hsize, List.rotate_nil]
        simp
      cases returned with
      | nil => exact ⟨fun hlt => absurd hlt (by omega), fun _ => Nat.zero_le _⟩
      | cons head rest =>
          have hzero := first_of_idle h hidle hroom hplay
          exact absurd (hzero ▸ List.mem_cons_self) hnot
    · have hpos := Nat.pos_of_ne_zero hsize
      rcases Since.start h hpos hnext with ⟨front, hstart⟩
      rw [← size_next h hpos hnext] at hroom
      rcases hstart.play hroom hplay hnot with ⟨front, back, hlast⟩
      rw [List.nil_append, hlast.again hagain] at hlast
      have hcounts := hlast.counts hne
      exact ⟨hcounts.1, fun _ => hcounts.2⟩
  next := fun hne => next?_add h (List.length_pos_of_ne_nil hne) hfits
  order := erase_add h hfits

theorem WellFormed.play (h : r.WellFormed) {events : List Event}
    (hroom : r.order.length + newcomers events ≤ wordLimit) :
    ∃ indices after, play? events r = some (indices, after) ∧ after.WellFormed ∧
      after.order.length = r.order.length + newcomers events := by
  refine steady.play (fun h => next?_idle h.2) ?_ ⟨h, rfl⟩ hroom
  rintro n r ⟨h, rfl⟩ hlt
  exact ⟨h.add hlt, size_add r⟩

/-- However turns and newcomers alternate, every turn has an answer, every newcomer finds a
place, the order stays one of all indices with the cursor in it, and what follows is fair. All
this lasts until the indices do not fit 64 bits any more.
-/
theorem fair_under_joins (h : r.WellFormed) {events : List Event}
    (hroom : r.order.length + newcomers events < wordLimit) :
    ∃ indices after, play? events r = some (indices, after) ∧ after.WellFormed ∧
      after.order.length = r.order.length + newcomers events ∧ Fair after := by
  rcases h.play (Nat.le_of_lt hroom) with ⟨indices, after, hplay, hafter, hsize⟩
  exact ⟨indices, after, hplay, hafter, hsize, hafter.fair (hsize ▸ hroom)⟩

def midway : RoundRobin :=
  ⟨[2, 0, 1], 1, by decide⟩

/-- In the middle of a round somebody joins, and the turns before and after go on. -/
theorem fair_under_joins_midway :
    midway.WellFormed ∧ midway.order.length + newcomers [.turn, .newcomer, .turn, .turn] <
      wordLimit ∧ ∃ indices after, play? [.turn, .newcomer, .turn, .turn] midway = some
        (indices, after) ∧ after.WellFormed ∧ after.order.length = 4 ∧ Fair after := by
  have hstart : midway.WellFormed := ⟨by decide, Or.inl (by decide)⟩
  have hroom : midway.order.length + newcomers [.turn, .newcomer, .turn, .turn] <
      wordLimit := by
    decide
  exact ⟨hstart, hroom, fair_under_joins hstart hroom⟩

end RoundRobin
end Jukebox
