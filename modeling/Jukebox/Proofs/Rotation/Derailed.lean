import Jukebox.Proofs.Rotation.Rotator

/-!
# Rotators that are off their track

A rotator that was read from a text may hold any numbers. A shuffle draws a new order where its
cursor points past the old one, and random turns need no cursor, so both always have an answer.
A round robin looks up its cursor without a question: it has no answer where the cursor lies
past a list that is not empty. A rotator that is on its track stays there, whatever else its
numbers say. One that is off its track has no answer once somebody has joined, unless its
cursor is the greatest word and starts over.
-/

namespace Jukebox

open Rotation

/-!
## Round robin
-/

namespace RoundRobin

/-- Whether the cursor lies past the order, so that there is no next turn. -/
def Derailed (r : RoundRobin) : Prop :=
  r.order ≠ [] ∧ r.order.length ≤ r.cursor

instance (r : RoundRobin) : Decidable r.Derailed :=
  inferInstanceAs (Decidable (_ ∧ _))

variable {r r' : RoundRobin} {index : Nat}

theorem OnTrack.not_derailed (h : r.OnTrack) : ¬r.Derailed := by
  rintro ⟨hne, hpast⟩
  rcases h with hlt | ⟨hnil, -⟩
  · omega
  · exact hne hnil

theorem next?_eq_none : r.next? = none ↔ r.Derailed := by
  rw [next?, Derailed]
  split
  · rename_i hnil
    simp [hnil]
  · rename_i hne
    simp [hne]

theorem onTrack_or_eq_of_next (h : r.next? = some (index, r')) : r'.OnTrack ∨ r' = r := by
  rw [next?] at h
  split at h
  · cases h
    exact .inr rfl
  · rename_i hne
    rcases Option.map_eq_some_iff.mp h with ⟨found, -, hfound⟩
    cases hfound
    refine .inl (.inl ?_)
    exact Nat.lt_of_le_of_lt (wrap_le _) (Nat.mod_lt _ (List.length_pos_of_ne_nil hne))

end RoundRobin

/-!
## Rotators
-/

namespace Rotator

def Derailed : Rotator → Prop
  | roundRobin r => r.Derailed
  | _ => False

/-- Whether a rotator will always have a next turn. -/
def OnTrack : Rotator → Prop
  | roundRobin r => r.OnTrack
  | _ => True

instance : (r : Rotator) → Decidable r.Derailed
  | roundRobin r => inferInstanceAs (Decidable r.Derailed)
  | shuffle _ => inferInstanceAs (Decidable False)
  | random _ => inferInstanceAs (Decidable False)

variable {r r' : Rotator} {index : Nat}

theorem OnTrack.not_derailed (h : r.OnTrack) : ¬r.Derailed := by
  cases r with
  | roundRobin r => exact RoundRobin.OnTrack.not_derailed h
  | shuffle s => exact id
  | random l => exact id

theorem KeepsTo.onTrack {n : Nat} (h : r.KeepsTo n) : r.OnTrack := by
  cases r with
  | roundRobin r => exact RoundRobin.KeepsTo.cursor h
  | shuffle s => trivial
  | random l => trivial

theorem onTrack_new (kind : RotatorKind) (seed : Nat) : (new kind seed).OnTrack :=
  (keepsTo_new kind seed).onTrack

theorem next?_eq_none : Rotation.next? r = none ↔ r.Derailed := by
  cases r with
  | roundRobin r =>
      rw [next?_roundRobin, Option.map_eq_none_iff]
      exact RoundRobin.next?_eq_none
  | shuffle s =>
      rcases s.exists_next with ⟨index, s', hnext⟩
      rw [next?_shuffle, show Rotation.next? s = s.next? from rfl, hnext]
      simp [Derailed]
  | random l =>
      rw [next?_random]
      rcases Nat.eq_zero_or_pos l.size with hzero | hsize
      · rw [show Rotation.next? l = some (0, l) from if_pos hzero]
        simp [Derailed]
      · rw [Lottery.next?_eq hsize]
        simp [Derailed]

theorem onTrack_or_eq_of_next (hnext : Rotation.next? r = some (index, r')) :
    r'.OnTrack ∨ r' = r := by
  cases r with
  | roundRobin r =>
      rw [next?_roundRobin] at hnext
      rcases Option.map_eq_some_iff.mp hnext with ⟨⟨taken, after⟩, htaken, heq⟩
      cases heq
      rcases RoundRobin.onTrack_or_eq_of_next htaken with hafter | rfl
      · exact .inl hafter
      · exact .inr rfl
  | shuffle s =>
      rw [next?_shuffle] at hnext
      rcases Option.map_eq_some_iff.mp hnext with ⟨taken, -, heq⟩
      cases heq
      exact .inl trivial
  | random l =>
      rw [next?_random] at hnext
      rcases Option.map_eq_some_iff.mp hnext with ⟨taken, -, heq⟩
      cases heq
      exact .inl trivial

theorem not_derailed_of_next (hnext : Rotation.next? r = some (index, r')) : ¬r'.Derailed := by
  rcases onTrack_or_eq_of_next hnext with hafter | rfl
  · exact hafter.not_derailed
  · rw [← next?_eq_none, hnext]
    exact Option.some_ne_none _

theorem OnTrack.add (h : r.OnTrack) : r.add.OnTrack := by
  cases r with
  | roundRobin r => exact RoundRobin.OnTrack.add h
  | shuffle s => trivial
  | random l => trivial

/-!
## Searches
-/

/-- A search has no outcome exactly if it starts derailed and asks at all: no turn derails a
rotator. -/
theorem turnWithin_eq_none {candidates : List Bool} {asks : Nat} :
    turnWithin candidates asks r = none ↔ 0 < asks ∧ r.Derailed := by
  induction asks generalizing r with
  | zero => simp [turnWithin]
  | succ asks ih =>
      rw [turnWithin]
      cases hnext : Rotation.next? r with
      | none => simp [next?_eq_none.mp hnext]
      | some taken =>
          rcases taken with ⟨index, after⟩
          have hderailed : ¬r.Derailed := by
            rw [← next?_eq_none, hnext]
            exact Option.some_ne_none _
          have hafter : ¬after.Derailed := not_derailed_of_next hnext
          simp only [hderailed, and_false, iff_false]
          cases hcandidate : candidates[index]? with
          | none => simp
          | some candidate =>
              cases candidate with
              | true => simp
              | false => exact fun hnone => hafter (ih.mp hnone).2

theorem onTrack_or_eq_of_turnWithin {candidates : List Bool} {asks : Nat} {turn : Turn}
    (hturn : turnWithin candidates asks r = some (turn, r')) : r'.OnTrack ∨ r' = r := by
  induction asks generalizing r with
  | zero =>
      cases hturn
      exact .inr rfl
  | succ asks ih =>
      rw [turnWithin] at hturn
      cases hnext : Rotation.next? r with
      | none =>
          rw [hnext] at hturn
          cases hturn
      | some taken =>
          rcases taken with ⟨index, after⟩
          have hafter := onTrack_or_eq_of_next hnext
          rw [hnext] at hturn
          cases hcandidate : candidates[index]? with
          | none =>
              simp only [hcandidate] at hturn
              cases hturn
              exact hafter
          | some candidate =>
              cases candidate with
              | true =>
                  simp only [hcandidate] at hturn
                  cases hturn
                  exact hafter
              | false =>
                  simp only [hcandidate] at hturn
                  rcases ih hturn with hlater | rfl
                  · exact .inl hlater
                  · exact hafter

end Rotator
end Jukebox
