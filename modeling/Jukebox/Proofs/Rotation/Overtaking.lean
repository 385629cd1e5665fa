import Jukebox.Proofs.Rotation.RoundRobinFairness
import Jukebox.Proofs.Rotation.Rotator
import Jukebox.Proofs.Rotation.Rounds

/-!
# How often one index overtakes another

One index may have some turns before another one has its next. In a round robin whoever has
just had a turn has to wait for all others. In a shuffle the next round may begin with the same
index, so there can be one more turn. Every turn of the first index uses one of these turns up,
and neither turns of others nor newcomers give any back. This goes on through a search for the
next turn, as long as the other index has something to play and is not skipped.
-/

namespace Jukebox

open Rotation

/-- How many turns of an index are used up when somebody has a turn. -/
def spent (index taken : Nat) : Nat :=
  if taken = index then 1 else 0

@[simp]
theorem spent_self (index : Nat) : spent index index = 1 :=
  if_pos rfl

theorem spent_other {index taken : Nat} (h : taken ≠ index) : spent index taken = 0 :=
  if_neg h

/-!
## Round robin
-/

namespace RoundRobin

structure Overtakes (turns index other : Nat) (r : RoundRobin) : Prop where
  wellFormed : r.WellFormed
  distinct : index ≠ other
  there : other ∈ r.coming
  order : 1 ≤ turns ∨ [other, index].Sublist r.coming

variable {r after : RoundRobin} {turns index other taken : Nat}

theorem overtakes_of_turn (h : r.WellFormed) (hdistinct : index ≠ other)
    (hother : other < r.order.length) (hnext : Rotation.next? r = some (index, after)) :
    after.Overtakes 0 index other := by
  have hsize : 0 < r.order.length := Nat.zero_lt_of_lt hother
  rcases exists_coming_of_next? h hsize hnext with ⟨rest, hcoming, hafter, hwell⟩
  have hthere := (mem_coming h).mpr hother
  rw [hcoming, List.mem_cons] at hthere
  have hrest : other ∈ rest := hthere.resolve_left (Ne.symm hdistinct)
  refine ⟨hwell, hdistinct, ?_, Or.inr ?_⟩
  · rw [hafter]
    exact List.mem_append_left _ hrest
  · rw [hafter]
    exact (List.singleton_sublist.mpr hrest).append (List.Sublist.refl [index])

theorem Overtakes.next (h : r.Overtakes turns index other)
    (hnext : Rotation.next? r = some (taken, after)) (hother : taken ≠ other) :
    ∃ fewer, fewer + spent index taken = turns ∧ after.Overtakes fewer index other := by
  have hmem : other < r.order.length := (mem_coming h.wellFormed).mp h.there
  have hsize : 0 < r.order.length := Nat.zero_lt_of_lt hmem
  rcases exists_coming_of_next? h.wellFormed hsize hnext with ⟨rest, hcoming, hafter, hwell⟩
  have hthere := h.there
  rw [hcoming, List.mem_cons] at hthere
  have hrest : other ∈ rest := hthere.resolve_left (Ne.symm hother)
  have horder := h.order
  rw [hcoming] at horder
  have hbehind : [other, index].Sublist (taken :: rest) → [other, index].Sublist rest := by
    intro hsublist
    cases hsublist with
    | cons _ hsublist => exact hsublist
    | cons_cons _ _ => exact absurd rfl hother
  by_cases htaken : taken = index
  · -- The index comes first, so it does not come after the other one.
    subst htaken
    have hturns : 1 ≤ turns := by
      refine horder.resolve_right ?_
      intro hsublist
      have hnodup := nodup_coming h.wellFormed
      rw [hcoming, List.nodup_cons] at hnodup
      exact hnodup.1 ((hbehind hsublist).subset (List.mem_cons_of_mem _ List.mem_cons_self))
    refine ⟨turns - 1, by rw [spent_self]; omega, ?_⟩
    have hstart := overtakes_of_turn h.wellFormed h.distinct hmem hnext
    exact ⟨hwell, h.distinct, hstart.there, Or.inr (hstart.order.resolve_left (by omega))⟩
  · refine ⟨turns, by rw [spent_other htaken]; rfl, hwell, h.distinct, ?_, ?_⟩
    · rw [hafter]
      exact List.mem_append_left _ hrest
    · rw [hafter]
      exact horder.imp_right fun hsublist =>
        (hbehind hsublist).trans (List.sublist_append_left rest [taken])

theorem Overtakes.add (h : r.Overtakes turns index other)
    (hroom : r.order.length + 1 < wordLimit) : r.add.Overtakes turns index other := by
  have hfits := Nat.lt_of_succ_lt hroom
  rcases add_coming h.wellFormed hfits with ⟨front, back, hcoming, hadded, -⟩
  have hkept : r.coming.Sublist r.add.coming := by
    rw [hcoming, hadded]
    exact (List.sublist_cons_self _ _).append_left front
  exact ⟨h.wellFormed.add hfits, h.distinct, hkept.subset h.there,
    h.order.imp_right fun horder =>
    horder.trans hkept⟩

end RoundRobin

/-!
## Shuffle
-/

namespace Shuffle

/-- Before the other index has its next turn, the first one has no more turns than a number
says: one in the current round unless it has had that, and one in the next round unless the
turn of the other one is still due in the current round. -/
structure Overtakes (turns index other : Nat) (s : Shuffle) : Prop where
  wellFormed : s.WellFormed
  distinct : index ≠ other
  there : other < s.size
  rounds : 2 ≤ turns ∨ 1 ≤ turns ∧ (index ∈ s.past ∨ other ∈ s.due) ∨
    index ∈ s.past ∧ other ∈ s.due

variable {s after : Shuffle} {turns index other taken : Nat}

theorem overtakes_of_turn (h : s.WellFormed) (hroom : s.Lasts) (hdistinct : index ≠ other)
    (hother : other < s.size) (hnext : Rotation.next? s = some (index, after)) :
    after.Overtakes 1 index other := by
  rcases exists_turned h (Nat.zero_lt_of_lt hother) hroom with
    ⟨taken, turned, hturn, hwell, hsize, hturned⟩
  rw [hnext, Option.some.injEq, Prod.mk.injEq] at hturn
  rcases hturn with ⟨rfl, rfl⟩
  have hpast : index ∈ after.past := by
    cases hturned with
    | within _ _ hpast _ _ =>
        rw [hpast]
        exact List.mem_append_right _ (List.mem_singleton.mpr rfl)
    | opening _ _ _ hpast _ _ =>
        rw [hpast]
        exact List.mem_singleton.mpr rfl
  exact ⟨hwell, hdistinct, hsize ▸ hother, Or.inr (Or.inl ⟨Nat.le_refl 1, Or.inl hpast⟩)⟩

theorem Overtakes.within (h : s.Overtakes turns index other) (hwell : after.WellFormed)
    (hsize : after.size = s.size) {rest : List Nat} (hdue : s.due = taken :: rest)
    (hpast : after.past = s.past ++ [taken]) (hrest : after.due = rest)
    (hother : taken ≠ other) :
    ∃ fewer, fewer + spent index taken = turns ∧ after.Overtakes fewer index other := by
  have hthere : other < after.size := hsize ▸ h.there
  have hnodup := h.wellFormed.nodup_round
  rw [hdue, List.nodup_append] at hnodup
  have hfresh : taken ∉ s.past := fun hmem =>
    hnodup.2.2 taken hmem taken List.mem_cons_self rfl
  have hstill : other ∈ s.due ↔ other ∈ after.due := by
    rw [hdue, hrest, List.mem_cons]
    exact or_iff_right (Ne.symm hother)
  have hrounds := h.rounds
  rw [hstill] at hrounds
  by_cases htaken : taken = index
  · subst htaken
    have hdone : taken ∈ after.past := by
      rw [hpast]
      exact List.mem_append_right _ (List.mem_singleton.mpr rfl)
    rcases hrounds with htwo | ⟨hone, hmem | hmem⟩ | ⟨hmem, -⟩
    · exact ⟨turns - 1, by rw [spent_self]; omega, hwell, h.distinct, hthere,
        Or.inr (Or.inl ⟨by omega, Or.inl hdone⟩)⟩
    · exact absurd hmem hfresh
    · exact ⟨turns - 1, by rw [spent_self]; omega, hwell, h.distinct, hthere,
        Or.inr (Or.inr ⟨hdone, hmem⟩)⟩
    · exact absurd hmem hfresh
  · have hkept : index ∈ s.past → index ∈ after.past := by
      rw [hpast]
      exact List.mem_append_left _
    refine ⟨turns, by rw [spent_other htaken]; rfl, hwell, h.distinct, hthere, ?_⟩
    exact hrounds.imp_right (Or.imp (And.imp_right (Or.imp_left hkept)) (And.imp_left hkept))

theorem Overtakes.opening (h : s.Overtakes turns index other) (hwell : after.WellFormed)
    (hsize : after.size = s.size) {rest : List Nat} (hover : s.due = [])
    (hall : (taken :: rest).Perm (List.range s.size)) (hpast : after.past = [taken])
    (hrest : after.due = rest) (hother : taken ≠ other) :
    ∃ fewer, fewer + spent index taken = turns ∧ after.Overtakes fewer index other := by
  have hthere : other < after.size := hsize ▸ h.there
  have hstill : other ∈ after.due := by
    have hmem := hall.mem_iff.mpr (List.mem_range.mpr h.there)
    rw [hrest]
    exact (List.mem_cons.mp hmem).resolve_left (Ne.symm hother)
  have hone : 1 ≤ turns := by
    have hrounds := h.rounds
    rw [hover] at hrounds
    rcases hrounds with htwo | ⟨hone, -⟩ | ⟨-, hmem⟩
    · omega
    · exact hone
    · exact absurd hmem List.not_mem_nil
  by_cases htaken : taken = index
  · subst htaken
    have hdone : taken ∈ after.past := by
      rw [hpast]
      exact List.mem_singleton.mpr rfl
    exact ⟨turns - 1, by rw [spent_self]; omega, hwell, h.distinct, hthere,
      Or.inr (Or.inr ⟨hdone, hstill⟩)⟩
  · exact ⟨turns, by rw [spent_other htaken]; rfl, hwell, h.distinct, hthere,
      Or.inr (Or.inl ⟨hone, Or.inr hstill⟩)⟩

theorem Overtakes.next (h : s.Overtakes turns index other) (hroom : s.Lasts)
    (hnext : Rotation.next? s = some (taken, after)) (hother : taken ≠ other) :
    ∃ fewer, fewer + spent index taken = turns ∧ after.Overtakes fewer index other := by
  rcases exists_turned h.wellFormed (Nat.zero_lt_of_lt h.there) hroom with
    ⟨first, turned, hturn, hwell, hsize, hturned⟩
  rw [hnext, Option.some.injEq, Prod.mk.injEq] at hturn
  rcases hturn with ⟨rfl, rfl⟩
  cases hturned with
  | within rest hdue hpast hrest _ => exact h.within hwell hsize hdue hpast hrest hother
  | opening rest hover hall hpast hrest _ =>
      exact h.opening hwell hsize hover hall hpast hrest hother

theorem Overtakes.add (h : s.Overtakes turns index other) (hroom : s.size + 1 < wordLimit) :
    s.add.Overtakes turns index other := by
  rcases s.add_round with ⟨hpast, hadded⟩
  have hdue : other ∈ s.due → other ∈ s.add.due := by
    intro hmem
    rcases hadded with ⟨front, back, hcut, hadded⟩ | hadded
    · rw [hcut, List.mem_append] at hmem
      rw [hadded, List.mem_append, List.mem_cons]
      exact hmem.imp_right Or.inr
    · rw [hadded]
      exact hmem
  refine ⟨h.wellFormed.add hroom, h.distinct, ?_, ?_⟩
  · rw [size_add hroom]
    exact Nat.lt_succ_of_lt h.there
  · rw [hpast]
    exact h.rounds.imp_right (Or.imp (And.imp_right (Or.imp_right hdue)) (And.imp_right hdue))

end Shuffle

/-!
## Rotators and searches
-/

/-- How many turns a member has at most between one of their turns and the next turn of
another. Random turns know no such number. -/
def RotatorKind.lead : RotatorKind → Option Nat
  | roundRobin => some 0
  | shuffle => some 1
  | random => none

namespace Rotator

/-- Before the other index has its next turn, the first one has no more turns than a number
says. -/
def Overtakes (turns index other : Nat) : Rotator → Prop
  | roundRobin r => r.Overtakes turns index other
  | shuffle s => s.Overtakes turns index other
  | random _ => False

variable {r after : Rotator} {turns index other taken : Nat}

theorem Overtakes.wellFormed (h : r.Overtakes turns index other) : r.WellFormed := by
  cases r with
  | roundRobin r => exact RoundRobin.Overtakes.wellFormed h
  | shuffle s => exact Shuffle.Overtakes.wellFormed h
  | random l => exact h.elim

theorem overtakes_of_turn (h : r.WellFormed) (hlasts : r.LastsFor 1)
    (hlead : r.kind.lead = some turns) (hdistinct : index ≠ other) (hother : other < r.size)
    (hnext : Rotation.next? r = some (index, after)) : after.Overtakes turns index other := by
  cases r with
  | roundRobin r =>
      rw [next?_roundRobin, Option.map_eq_some_iff] at hnext
      rcases hnext with ⟨turn, hturn, heq⟩
      cases heq
      cases hlead
      exact RoundRobin.overtakes_of_turn h hdistinct hother hturn
  | shuffle s =>
      rw [next?_shuffle, Option.map_eq_some_iff] at hnext
      rcases hnext with ⟨turn, hturn, heq⟩
      cases heq
      cases hlead
      exact Shuffle.overtakes_of_turn h hlasts.lasts hdistinct hother hturn
  | random l => cases hlead

theorem Overtakes.next (h : r.Overtakes turns index other) (hlasts : r.LastsFor 1)
    (hnext : Rotation.next? r = some (taken, after)) (hother : taken ≠ other) :
    ∃ fewer, fewer + spent index taken = turns ∧ after.Overtakes fewer index other := by
  cases r with
  | roundRobin r =>
      rw [next?_roundRobin, Option.map_eq_some_iff] at hnext
      rcases hnext with ⟨turn, hturn, heq⟩
      cases heq
      exact RoundRobin.Overtakes.next h hturn hother
  | shuffle s =>
      rw [next?_shuffle, Option.map_eq_some_iff] at hnext
      rcases hnext with ⟨turn, hturn, heq⟩
      cases heq
      exact Shuffle.Overtakes.next h hlasts.lasts hturn hother
  | random l => exact h.elim

theorem Overtakes.add (h : r.Overtakes turns index other) (hroom : r.size + 1 < wordLimit) :
    r.add.Overtakes turns index other := by
  cases r with
  | roundRobin r => exact RoundRobin.Overtakes.add h hroom
  | shuffle s => exact Shuffle.Overtakes.add h hroom
  | random l => exact h.elim

theorem Overtakes.mono {more : Nat} (h : r.Overtakes turns index other) (hle : turns ≤ more) :
    r.Overtakes more index other := by
  cases r with
  | roundRobin r =>
      exact ⟨h.wellFormed, h.distinct, h.there, h.order.imp_left fun hone =>
        Nat.le_trans hone hle⟩
  | shuffle s =>
      refine ⟨h.wellFormed, h.distinct, h.there, ?_⟩
      exact h.rounds.imp (fun htwo => Nat.le_trans htwo hle)
        (Or.imp_left (And.imp_left fun hone => Nat.le_trans hone hle))
  | random l => exact h.elim

variable {candidates : List Bool} {asks : Nat}

/-- A search that does not end at the other index, which has something to play, uses up a turn
of the first index exactly if it ends there. -/
theorem Overtakes.turnWithin (h : r.Overtakes turns index other) (hlasts : r.LastsFor asks)
    (hasks : asks ≤ r.size) (hwaits : candidates[other]? = some true)
    (hturn : turnWithin candidates asks r = some (.taken taken, after))
    (hother : taken ≠ other) :
    ∃ fewer, fewer + spent index taken = turns ∧ after.Overtakes fewer index other := by
  induction asks generalizing r turns with
  | zero => cases hturn
  | succ asks ih =>
      cases hnext : Rotation.next? r with
      | none => simp [Rotation.turnWithin, hnext] at hturn
      | some turn =>
          rcases turn with ⟨first, middle⟩
          simp only [Rotation.turnWithin, hnext] at hturn
          rcases hlasts.next h.wellFormed hasks hnext with ⟨hlasts', -, hsize⟩
          cases hcandidate : candidates[first]? with
          | none => simp [hcandidate] at hturn
          | some ready =>
              cases ready with
              | true =>
                  simp only [hcandidate, Option.some.injEq, Prod.mk.injEq, Turn.taken.injEq]
                    at hturn
                  rcases hturn with ⟨rfl, rfl⟩
                  exact h.next hlasts.one hnext hother
              | false =>
                  simp only [hcandidate] at hturn
                  have hskipped : first ≠ other := by
                    rintro rfl
                    rw [hwaits] at hcandidate
                    cases hcandidate
                  -- A turn that is lost does not come back either.
                  rcases h.next hlasts.one hnext hskipped with ⟨fewer, hfewer, hmiddle⟩
                  have hle : fewer ≤ turns := by omega
                  exact ih (hmiddle.mono hle) hlasts' (by omega) hturn

theorem overtakes_of_turnWithin (h : r.WellFormed) (hlasts : r.LastsFor asks)
    (hasks : asks ≤ r.size) (hlead : r.kind.lead = some turns) (hdistinct : index ≠ other)
    (hother : other < r.size)
    (hturn : turnWithin candidates asks r = some (.taken index, after)) :
    after.Overtakes turns index other := by
  induction asks generalizing r with
  | zero => cases hturn
  | succ asks ih =>
      cases hnext : Rotation.next? r with
      | none => simp [Rotation.turnWithin, hnext] at hturn
      | some turn =>
          rcases turn with ⟨first, middle⟩
          rcases hlasts.next h hasks hnext with ⟨hlasts', hmiddle, hsize⟩
          simp only [Rotation.turnWithin, hnext] at hturn
          cases hcandidate : candidates[first]? with
          | none => simp [hcandidate] at hturn
          | some ready =>
              cases ready with
              | true =>
                  simp only [hcandidate, Option.some.injEq, Prod.mk.injEq, Turn.taken.injEq]
                    at hturn
                  rcases hturn with ⟨rfl, rfl⟩
                  exact overtakes_of_turn h hlasts.one hlead hdistinct hother hnext
              | false =>
                  simp only [hcandidate] at hturn
                  have hkind : middle.kind = r.kind := by
                    have hadvance := kind_advance 1 r
                    simpa [advance, hnext] using hadvance
                  exact ih hmiddle hlasts' (by omega) (hkind ▸ hlead) (by omega) hturn

end Rotator
end Jukebox
