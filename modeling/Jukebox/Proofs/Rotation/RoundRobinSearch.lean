import Jukebox.Proofs.Rotation.RoundRobinFairness

/-!
# Whom a round robin picks

A search in a round robin asks the indices in the order of their coming turns and stops at the
first one who has something to play. Everybody it passes over loses the turn, so the cursor
ends up right behind the index that was picked. A search that picks nobody has asked every
index once, and by then the cursor is back where it started.
-/

namespace Jukebox
namespace RoundRobin

open Rotation

variable {r : RoundRobin} {candidates : List Bool}

/-!
## A number of turns later
-/

def later (r : RoundRobin) (turns : Nat) : RoundRobin :=
  r.moved ((r.cursor + turns) % r.order.length)

theorem moved_cursor (r : RoundRobin) : r.moved r.cursor = r :=
  RoundRobin.ext rfl (cursor_moved r.cursor_lt)

theorem later_zero (hcursor : r.cursor < r.order.length) : r.later 0 = r := by
  rw [later, Nat.add_zero, Nat.mod_eq_of_lt hcursor, moved_cursor]

/-- As many turns as there are indices lead back to the start. -/
theorem later_length (hcursor : r.cursor < r.order.length) : r.later r.order.length = r := by
  rw [later, Nat.add_mod_right, Nat.mod_eq_of_lt hcursor, moved_cursor]

theorem next?_later (h : r.WellFormed) {turns : Nat} (hturns : turns < r.coming.length) :
    Rotation.next? (r.later turns) = some (r.coming[turns], r.later (turns + 1)) := by
  have hsize : turns < r.order.length := by rwa [length_coming] at hturns
  have hpos : 0 < r.order.length := Nat.zero_lt_of_lt hsize
  have hcursor : (r.later turns).cursor = (r.cursor + turns) % r.order.length :=
    h.cursor_turned hpos _
  have hindex : (r.later turns).order[(r.later turns).cursor]? = some r.coming[turns] := by
    rw [hcursor]
    show r.order[(r.cursor + turns) % r.order.length]? = _
    rw [List.getElem?_eq_getElem (Nat.mod_lt _ hpos)]
    simp only [coming, List.getElem_rotate, Nat.add_comm turns]
  have hafter : (r.later turns).moved
      (((r.later turns).cursor + 1) % (r.later turns).order.length) = r.later (turns + 1) := by
    rw [hcursor]
    show r.moved (((r.cursor + turns) % r.order.length + 1) % r.order.length) = _
    rw [Nat.mod_add_mod, Nat.add_assoc]
    rfl
  rw [← hafter]
  exact (h.moved hpos _).next?_eq hindex

theorem place_of_coming (h : r.WellFormed) {turns : Nat} (hturns : turns < r.coming.length) :
    r.order.idxOf r.coming[turns] = (r.cursor + turns) % r.order.length := by
  have hsize : turns < r.order.length := by rwa [length_coming] at hturns
  have hplace : (r.cursor + turns) % r.order.length < r.order.length :=
    Nat.mod_lt _ (Nat.zero_lt_of_lt hsize)
  have hnodup : r.order.Nodup := h.order.nodup_iff.mpr List.nodup_range
  simp only [coming, List.getElem_rotate, Nat.add_comm turns]
  exact hnodup.idxOf_getElem _ hplace

/-- Right behind an index, in cyclic order. -/
def behind (r : RoundRobin) (index : Nat) : RoundRobin :=
  r.moved ((r.order.idxOf index + 1) % r.order.length)

theorem later_of_coming (h : r.WellFormed) {turns : Nat} (hturns : turns < r.coming.length) :
    r.later (turns + 1) = r.behind r.coming[turns] := by
  rw [behind, place_of_coming h hturns, Nat.mod_add_mod, later, Nat.add_assoc]

/-!
## The search
-/

theorem turnWithin_later (h : r.WellFormed) (hlength : candidates.length = r.order.length)
    {passed rest : List Nat} (hcoming : r.coming = passed ++ rest) :
    turnWithin candidates rest.length (r.later passed.length) =
      some (match rest.find? fun index => candidates[index]? = some true with
        | some index => (.taken index, r.behind index)
        | none => (.nobody, r.later r.order.length)) := by
  induction rest generalizing passed with
  | nil =>
      rw [← length_coming, hcoming, List.append_nil]
      rfl
  | cons index rest ih =>
      have hturns : passed.length < r.coming.length := by simp [hcoming]
      have hindex : r.coming[passed.length] = index := by simp [hcoming]
      have hnext := next?_later h hturns
      have hmember : index < candidates.length := by
        rw [hlength]
        exact (mem_coming h).mp (hindex ▸ List.getElem_mem hturns)
      have hcandidate : candidates[index]? = some candidates[index] :=
        List.getElem?_eq_getElem hmember
      rw [hindex] at hnext
      rw [List.length_cons, turnWithin, hnext]
      cases hflag : candidates[index] with
      | true =>
          rw [hflag] at hcandidate
          have hbehind := later_of_coming h hturns
          rw [hindex] at hbehind
          rw [List.find?_cons_of_pos (by simp [hcandidate]), hbehind]
          simp only [hcandidate]
      | false =>
          rw [hflag] at hcandidate
          have hmoved : r.coming = (passed ++ [index]) ++ rest := by
            rw [hcoming, List.append_assoc]
            rfl
          have hrest := ih hmoved
          rw [List.length_append, List.length_singleton] at hrest
          rw [List.find?_cons_of_neg (by simp [hcandidate]), ← hrest]
          simp only [hcandidate]

theorem nextTurn_of_cursor_lt (h : r.WellFormed) (hcursor : r.cursor < r.order.length)
    (hlength : candidates.length = r.order.length) :
    nextTurn candidates r =
      some (match r.coming.find? fun index => candidates[index]? = some true with
        | some index => (.taken index, r.behind index)
        | none => (.nobody, r)) := by
  have hstart : r.coming = [] ++ r.coming := rfl
  have hall := turnWithin_later h hlength hstart
  rw [List.length_nil, later_zero hcursor, later_length hcursor, length_coming] at hall
  rw [nextTurn, hlength, hall]

/-- What a search in a round robin comes to, told by the sequence it goes through. -/
structure Picks (candidates : List Bool) (r : RoundRobin) (turn : Turn) (after : RoundRobin) :
    Prop where
  order : after.order = r.order
  /-- The first index who has something to play is picked, and the cursor moves right behind
  it. If nobody is picked, the cursor is where it was. -/
  first : match (r.order.drop r.cursor ++ r.order.take r.cursor).find? fun index =>
      candidates[index]? = some true with
    | some index =>
      turn = .taken index ∧ after.cursor = (r.order.idxOf index + 1) % r.order.length
    | none => turn = .nobody ∧ after.cursor = r.cursor
  nobody_iff : turn = .nobody ↔ ∀ index < r.order.length, candidates[index]? = some false

theorem exists_picks_of_cursor_lt (h : r.WellFormed) (hcursor : r.cursor < r.order.length)
    (hlength : candidates.length = r.order.length) :
    ∃ turn after, nextTurn candidates r = some (turn, after) ∧
    Picks candidates r turn after := by
  have hsequence : r.coming = r.order.drop r.cursor ++ r.order.take r.cursor :=
    List.rotate_eq_drop_append_take (Nat.le_of_lt hcursor)
  have hflag : ∀ index < r.order.length,
      (candidates[index]? = some false ↔ ¬candidates[index]? = some true) := by
    intro index hindex
    rw [List.getElem?_eq_getElem (hlength ▸ hindex)]
    simp
  have hnone : (r.coming.find? fun index => candidates[index]? = some true) = none ↔
      ∀ index < r.order.length, candidates[index]? = some false := by
    simp only [List.find?_eq_none, mem_coming h, decide_eq_true_eq]
    exact forall₂_congr fun index hindex => (hflag index hindex).symm
  have hpicked := nextTurn_of_cursor_lt h hcursor hlength
  cases hfound : r.coming.find? fun index => candidates[index]? = some true with
  | none =>
      rw [hfound] at hpicked
      refine ⟨.nobody, r, hpicked, rfl, ?_, by simpa using hnone.mp hfound⟩
      rw [← hsequence, hfound]
      exact ⟨rfl, rfl⟩
  | some index =>
      rw [hfound] at hpicked
      refine ⟨.taken index, r.behind index, hpicked, rfl, ?_, ?_⟩
      · rw [← hsequence, hfound]
        exact ⟨rfl, h.cursor_turned (Nat.zero_lt_of_lt hcursor) _⟩
      · rw [← hnone, hfound]
        simp

/-- A search picks the first index, from the cursor on and then from the start of the order,
who has something to play, and the cursor moves right behind it. It picks nobody exactly if
nobody has anything; then nothing changes.
-/
theorem picks_first_in_turn {n : Nat} (horder : r.order.Perm (List.range n))
    (hcursor : r.cursor < n ∨ n = 0) (hlength : candidates.length = n) :
    ∃ turn after, nextTurn candidates r = some (turn, after) ∧
    Picks candidates r turn after := by
  obtain rfl : n = r.order.length := by rw [horder.length_eq, List.length_range]
  rcases hcursor with hlt | hzero
  · exact exists_picks_of_cursor_lt ⟨horder, Or.inl hlt⟩ hlt hlength
  · have hnil : r.order = [] := List.length_eq_zero_iff.mp hzero
    obtain rfl : candidates = [] := List.length_eq_zero_iff.mp (hlength.trans hzero)
    refine ⟨.nobody, r, rfl, rfl, ?_, by simp [hzero]⟩
    simp [hnil]

/-- Only index 2 has something to play: the search starts at index 0 and comes round to it. -/
theorem picks_first_in_turn_comingRound :
    midway.order.Perm (List.range 3) ∧
      nextTurn [false, false, true] midway = some (.taken 2, midway) ∧
      Picks [false, false, true] midway (.taken 2) midway := by
  have horder : midway.order.Perm (List.range 3) := by decide
  have hsearch : nextTurn [false, false, true] midway = some (.taken 2, midway) := by decide
  have hlength : [false, false, true].length = 3 := rfl
  rcases picks_first_in_turn horder (Or.inl (by decide)) hlength
    with ⟨turn, after, hpicked, hpicks⟩
  rw [hsearch] at hpicked
  cases hpicked
  exact ⟨horder, hsearch, hpicks⟩

end RoundRobin
end Jukebox
