import Jukebox.Random.Draws
import Jukebox.Proofs.Rotation.Turns
import Jukebox.Rotation.Lottery

/-!
# Random turns stay in range

Every draw gives one of the indices, and depends on nothing but the seed and the number of the
draw. So the upcoming turns are known in advance, but nothing keeps them from naming an index
twice and another one not at all.
-/

namespace Jukebox
namespace Lottery

open Rotation

variable {l : Lottery}

theorem after_zero (l : Lottery) : l.after 0 = l :=
  Lottery.ext rfl rfl (wrap_of_lt l.draws_lt)

theorem after_after (l : Lottery) (first rest : Nat) :
    (l.after first).after rest = l.after (first + rest) := by
  refine Lottery.ext rfl rfl ?_
  simp only [after, wrap, Nat.mod_add_mod, Nat.add_assoc]

theorem next?_eq (hsize : 0 < l.size) : Rotation.next? l = some (l.pick, l.after 1) :=
  if_neg (Nat.ne_of_gt hsize)

theorem pick_lt (hsize : 0 < l.size) : l.pick < l.size :=
  Random.Generator.number_lt (Random.Generator.below_lt _ .double hsize)

theorem exists_next {n : Nat} (h : l.size ≤ n) (hpos : 0 < n) :
    ∃ index l', Rotation.next? l = some (index, l') ∧ index < n ∧ l'.size = l.size := by
  rcases Nat.eq_zero_or_pos l.size with hzero | hsize
  · exact ⟨0, l, if_pos hzero, hpos, rfl⟩
  · exact ⟨_, _, next?_eq hsize, Nat.lt_of_lt_of_le (pick_lt hsize) h, rfl⟩

theorem upcoming_eq (hsize : 0 < l.size) (asks : Nat) :
    upcoming asks l = (List.range asks).map fun draws => (l.after draws).pick := by
  induction asks generalizing l with
  | zero => rfl
  | succ asks ih =>
      have hrest := ih (l := l.after 1) hsize
      simp only [after_after] at hrest
      rw [upcoming, next?_eq hsize]
      simp only [hrest]
      rw [List.range_succ_eq_map, List.map_cons, List.map_map, after_zero]
      simp only [Function.comp_def, Nat.succ_eq_add_one, Nat.add_comm 1]

end Lottery
end Jukebox
