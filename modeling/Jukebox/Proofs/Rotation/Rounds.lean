import Jukebox.Proofs.Rotation.Play
import Jukebox.Proofs.Rotation.Shuffle

/-!
# Shuffled rounds are fair under joins

The order of a shuffle falls into the turns that the round has had and those that are due. A
turn takes the first of those that are due, or opens a round whose order holds every index
once. A newcomer comes in among those that are due, or waits for the next round. To say what
this means for a whole run, the rounds are recorded while turns are taken: whenever an order is
drawn, a new round is written down.
-/

namespace Jukebox
namespace Shuffle

open Rotation

variable {s : Shuffle}

/-!
## The current round
-/

def past (s : Shuffle) : List Nat :=
  s.perm.take s.cursor

def due (s : Shuffle) : List Nat :=
  s.perm.drop s.cursor

theorem past_append_due (s : Shuffle) : s.past ++ s.due = s.perm :=
  List.take_append_drop s.cursor s.perm

theorem WellFormed.nodup_perm (h : s.WellFormed) : s.perm.Nodup := by
  rcases h with ⟨-, hnil, -⟩ | ⟨-, hperm, -⟩
  · rw [hnil]
    exact List.nodup_nil
  · have hnodup : (s.perm ++ s.deferred.map Prod.fst).Nodup :=
      hperm.nodup_iff.mpr List.nodup_range
    exact (List.nodup_append.mp hnodup).1

theorem WellFormed.nodup_round (h : s.WellFormed) : (s.past ++ s.due).Nodup := by
  rw [past_append_due]
  exact h.nodup_perm

/-- What a turn does to the current round. -/
inductive Turned (s : Shuffle) (index : Nat) (after : Shuffle) : Prop
  | within (rest : List Nat) (hdue : s.due = index :: rest)
      (hpast : after.past = s.past ++ [index]) (hrest : after.due = rest)
      (hepoch : after.epoch = s.epoch)
  /-- The round was over or none had begun, and an order of all indices is drawn. -/
  | opening (rest : List Nat) (hover : s.due = [])
      (hall : (index :: rest).Perm (List.range s.size))
      (hpast : after.past = [index]) (hrest : after.due = rest)
      (hepoch : after.epoch = s.epoch + 1)

theorem next?_idle (hsize : s.size = 0) : Rotation.next? s = some (0, s) :=
  if_pos hsize

theorem WellFormed.due_eq_nil (h : s.WellFormed) (hdue : s.Due) : s.due = [] := by
  refine List.drop_eq_nil_of_le ?_
  rcases h with ⟨-, hnil, -⟩ | ⟨hepoch, -⟩
  · rw [hnil]
    exact Nat.zero_le _
  · exact hdue.resolve_left (Nat.ne_of_gt hepoch)

theorem exists_turned (h : s.WellFormed) (hsize : 0 < s.size) (hroom : s.Lasts) :
    ∃ index after, Rotation.next? s = some (index, after) ∧ after.WellFormed ∧
      after.size = s.size ∧ Turned s index after := by
  by_cases hdue : s.Due
  · have hepoch : s.reshuffle.epoch = s.epoch + 1 := epoch_reshuffle (hroom hdue)
    cases hperm : s.reshuffle.perm with
    | nil =>
        have hlength := h.length_deal
        rw [hperm, List.length_nil] at hlength
        omega
    | cons first rest =>
        have hnext := next?_of_due hsize hdue hperm
        have hwell : (s.reshuffle.moved 1).WellFormed := by
          refine Or.inr ⟨hepoch ▸ Nat.succ_pos s.epoch, ?_, ?_⟩
          · simpa [moved, Shuffle.reshuffle] using h.deal
          · show 1 ≤ s.reshuffle.perm.length
            rw [hperm]
            exact Nat.succ_pos _
        refine ⟨first, _, hnext, hwell, rfl, .opening rest (h.due_eq_nil hdue) ?_ ?_ ?_ hepoch⟩
        · rw [← hperm]
          exact h.deal
        · show s.reshuffle.perm.take 1 = [first]
          rw [hperm, List.take_succ_cons, List.take_zero]
        · show s.reshuffle.perm.drop 1 = rest
          rw [hperm, List.drop_succ_cons, List.drop_zero]
  · have hready : s.ready = s := if_neg hdue
    have hcursor := cursor_ready_lt hsize
    have hnext : Rotation.next? s = _ := next?_eq hsize (cursor_ready_lt hsize)
    have htaken : s.taken = s.moved (s.cursor + 1) := by rw [taken, hready]
    simp only [hready] at hcursor hnext
    have hfits := h.length_lt
    have hmoved : (s.moved (s.cursor + 1)).cursor = s.cursor + 1 := cursor_moved (by omega)
    refine ⟨_, _, hnext, h.taken hsize hroom, s.size_ready, ?_⟩
    rw [htaken]
    refine .within (s.perm.drop (s.cursor + 1)) ?_ ?_ ?_ rfl
    · exact List.drop_eq_getElem_cons hcursor
    · rw [past, hmoved]
      exact (List.take_append_getElem hcursor).symm
    · rw [due, hmoved]
      rfl

/-- A newcomer leaves the turns alone that the round has had, and either comes in among those
that are due or leaves them alone, too. -/
theorem add_round (s : Shuffle) :
    s.add.past = s.past ∧
      ((∃ front back, s.due = front ++ back ∧ s.add.due = front ++ s.size :: back) ∨
        s.add.due = s.due) := by
  rw [add]
  split
  · exact ⟨rfl, Or.inr rfl⟩
  · have hslot := halfwaySlot_le s.cursor s.perm.length
    split
    · rename_i hahead
      rcases exists_cuts s.perm hahead hslot with ⟨front, middle, back, hperm, hfront, hmiddle⟩
      have hinserted : s.perm.insertIdx (halfwaySlot s.cursor s.perm.length) s.size =
          front ++ (middle ++ s.size :: back) := by
        rw [← hmiddle]
        conv_lhs => rw [hperm, ← List.append_assoc]
        rw [insertIdx_cut, List.append_assoc]
      simp only [past, due, seat, hinserted]
      rw [hperm, ← hfront]
      simp only [List.take_left, List.drop_left]
      exact ⟨trivial, Or.inl ⟨middle, back, rfl, rfl⟩⟩
    · exact ⟨rfl, Or.inr rfl⟩

theorem erase_due_add (h : s.WellFormed) : s.add.due.erase s.size = s.due := by
  have hnew : s.size ∉ s.due := by
    intro hmem
    have hin : s.size ∈ s.perm := by
      rw [← past_append_due]
      exact List.mem_append_right _ hmem
    exact Nat.lt_irrefl _ (h.lt_of_mem (Or.inl hin))
  rcases s.add_round with ⟨-, ⟨front, back, hdue, hadded⟩ | hadded⟩
  · rw [hdue] at hnew
    rw [hadded, List.erase_append_right _ (fun hmem => hnew (List.mem_append_left _ hmem)),
      List.erase_cons_head, ← hdue]
  · rw [hadded, List.erase_of_not_mem hnew]

/-!
## Recorded rounds
-/

structure Round where
  /-- How many indices there were when the order was drawn. -/
  drawn : Nat
  /-- How many indices there were in the end, or are by now. -/
  present : Nat
  turns : List Nat

/-- Writes down a turn, in a new round if an order was drawn for it. -/
def recordTurn (rounds : List Round) (before : Shuffle) (index : Nat) (after : Shuffle) :
    List Round :=
  if before.epoch < after.epoch then ⟨before.size, before.size, [index]⟩ :: rounds
  else rounds.modifyHead fun round => { round with turns := round.turns ++ [index] }

def recordNewcomer (rounds : List Round) : List Round :=
  rounds.modifyHead fun round => { round with present := round.present + 1 }

/-- Records the rounds during some events, the latest first. -/
def record? : List Event → List Round → Shuffle → Option (List Round × Shuffle)
  | [], rounds, s => some (rounds, s)
  | .newcomer :: rest, rounds, s => record? rest (recordNewcomer rounds) s.add
  | .turn :: rest, rounds, s =>
    match Rotation.next? s with
    | none => none
    | some (index, after) => record? rest (recordTurn rounds s index after) after

def allTurns (rounds : List Round) : List Nat :=
  rounds.reverse.flatMap Round.turns

theorem allTurns_cons (round : Round) (earlier : List Round) :
    allTurns (round :: earlier) = allTurns earlier ++ round.turns := by
  simp [allTurns]

theorem allTurns_recordNewcomer (rounds : List Round) :
    allTurns (recordNewcomer rounds) = allTurns rounds := by
  cases rounds with
  | nil => rfl
  | cons round earlier => simp [recordNewcomer, allTurns_cons]

namespace Round

/-- Everybody who was there when the order was drawn has had one turn, and the others one at
most. -/
structure Complete (round : Round) : Prop where
  drawn_le : round.drawn ≤ round.present
  once : round.turns.Nodup
  all : ∀ index < round.drawn, index ∈ round.turns

structure Current (round : Round) (s : Shuffle) : Prop where
  drawn_le : round.drawn ≤ round.present
  present : round.present = s.size
  turns : round.turns = s.past
  all : ∀ index < round.drawn, index ∈ s.past ∨ index ∈ s.due

variable {round : Round}

theorem Current.complete (h : round.Current s) (hs : s.WellFormed) (hover : s.due = []) :
    round.Complete := by
  have hnodup := hs.nodup_round
  rw [hover, List.append_nil] at hnodup
  refine ⟨h.drawn_le, h.turns ▸ hnodup, ?_⟩
  intro index hlt
  have hmem := h.all index hlt
  rw [hover] at hmem
  rw [h.turns]
  exact hmem.resolve_right List.not_mem_nil

theorem Current.within (h : round.Current s) {index : Nat} {rest : List Nat} {after : Shuffle}
    (hsize : after.size = s.size) (hdue : s.due = index :: rest)
    (hpast : after.past = s.past ++ [index]) (hrest : after.due = rest) :
    Current { round with turns := round.turns ++ [index] } after := by
  refine ⟨h.drawn_le, h.present.trans hsize.symm, ?_, ?_⟩
  · show round.turns ++ [index] = after.past
    rw [h.turns, hpast]
  · intro other hlt
    have hmem := h.all other hlt
    rw [hdue, List.mem_cons] at hmem
    rw [hpast, hrest, List.mem_append, List.mem_singleton]
    tauto

theorem Current.newcomer (h : round.Current s) (hroom : s.size + 1 < wordLimit) :
    Current { round with present := round.present + 1 } s.add := by
  rcases s.add_round with ⟨hpast, hadded⟩
  refine ⟨Nat.le_succ_of_le h.drawn_le, ?_, h.turns.trans hpast.symm, ?_⟩
  · rw [size_add hroom, ← h.present]
  · intro index hlt
    have hmem := h.all index hlt
    rw [hpast]
    rcases hadded with ⟨front, back, hdue, hadded⟩ | hadded
    · rw [hdue, List.mem_append] at hmem
      rw [hadded, List.mem_append, List.mem_cons]
      tauto
    · rw [hadded]
      exact hmem

end Round

/-- The recorded rounds are those of the shuffle: all are complete but the latest one, and
whoever joined during a round was there when the orders after it were drawn. -/
inductive Recorded : List Round → Shuffle → Prop
  | none {s : Shuffle} (hs : s.WellFormed) (hepoch : s.epoch = 0) : Recorded [] s
  | rounds {s : Shuffle} {round : Round} {earlier : List Round} (hs : s.WellFormed)
      (hepoch : s.epoch = earlier.length + 1) (hsize : 0 < s.size) (hcurrent : round.Current s)
      (hcomplete : ∀ other ∈ earlier, other.Complete)
      (hdrawn : (round :: earlier).Pairwise fun later other => other.present ≤ later.drawn) :
      Recorded (round :: earlier) s

namespace Recorded

variable {rounds : List Round}

theorem wellFormed (h : Recorded rounds s) : s.WellFormed := by
  cases h with
  | none hs _ => exact hs
  | rounds hs _ _ _ _ _ => exact hs

theorem epoch (h : Recorded rounds s) : s.epoch = rounds.length := by
  cases h with
  | none _ hepoch => exact hepoch
  | rounds _ hepoch _ _ _ _ => exact hepoch

theorem newcomer (h : Recorded rounds s) (hroom : s.size + 1 < wordLimit) :
    Recorded (recordNewcomer rounds) s.add := by
  have hwell := h.wellFormed.add hroom
  cases h with
  | none hs hepoch =>
      refine .none hwell ?_
      rw [add, if_pos hepoch]
      exact hepoch
  | rounds hs hepoch hsize hcurrent hcomplete hdrawn =>
      refine .rounds hwell ?_ ?_ (hcurrent.newcomer hroom) hcomplete ?_
      · rw [epoch_add, hepoch]
      · rw [size_add hroom]
        exact Nat.succ_pos _
      · exact List.pairwise_cons.mpr (List.pairwise_cons.mp hdrawn)

theorem present_le (h : Recorded rounds s) : ∀ round ∈ rounds, round.present ≤ s.size := by
  cases h with
  | none _ _ => simp
  | rounds _ _ _ hcurrent _ hdrawn =>
      intro round hmem
      have hlast := hcurrent.present
      rcases List.mem_cons.mp hmem with rfl | hmem
      · exact Nat.le_of_eq hlast
      · have hle := (List.pairwise_cons.mp hdrawn).1 round hmem
        exact Nat.le_trans hle (Nat.le_trans hcurrent.drawn_le (Nat.le_of_eq hlast))

theorem complete (h : Recorded rounds s) (hover : s.due = []) :
    ∀ round ∈ rounds, round.Complete := by
  cases h with
  | none _ _ => simp
  | rounds hs _ _ hcurrent hcomplete _ =>
      intro round hmem
      rcases List.mem_cons.mp hmem with rfl | hmem
      · exact hcurrent.complete hs hover
      · exact hcomplete round hmem

theorem pairwise (h : Recorded rounds s) :
    rounds.Pairwise fun later earlier => earlier.present ≤ later.drawn := by
  cases h with
  | none _ _ => exact .nil
  | rounds _ _ _ _ _ hdrawn => exact hdrawn

theorem turn (h : Recorded rounds s) {index : Nat} {after : Shuffle} (hwell : after.WellFormed)
    (hpos : 0 < s.size) (hsize : after.size = s.size) (hturned : Turned s index after) :
    Recorded (recordTurn rounds s index after) after ∧
      allTurns (recordTurn rounds s index after) = allTurns rounds ++ [index] := by
  cases hturned with
  | within rest hdue hpast hrest hepoch =>
      have hsame : ¬s.epoch < after.epoch := by omega
      rw [recordTurn, if_neg hsame]
      cases h with
      | none hs hzero =>
          -- Without an order, no turn is due.
          rw [hs.due_eq_nil (Or.inl hzero)] at hdue
          cases hdue
      | @rounds _ round earlier hs hcount _ hcurrent hcomplete hdrawn =>
          refine ⟨.rounds hwell (hepoch.trans hcount) (hsize ▸ hpos)
            (hcurrent.within hsize hdue hpast hrest) hcomplete ?_, ?_⟩
          · exact List.pairwise_cons.mpr (List.pairwise_cons.mp hdrawn)
          · simp [allTurns_cons]
  | opening rest hover hall hpast hrest hepoch =>
      have hnew : s.epoch < after.epoch := by omega
      rw [recordTurn, if_pos hnew]
      have hcount := h.epoch
      refine ⟨.rounds hwell (by omega) (hsize ▸ hpos) ?_ (h.complete hover) ?_, ?_⟩
      · refine ⟨Nat.le_refl _, hsize.symm, hpast.symm, ?_⟩
        intro other hlt
        have hmem := hall.mem_iff.mpr (List.mem_range.mpr hlt)
        rw [List.mem_cons] at hmem
        rw [hpast, hrest, List.mem_singleton]
        exact hmem
      · exact List.pairwise_cons.mpr ⟨h.present_le, h.pairwise⟩
      · exact allTurns_cons _ _

theorem size_pos (h : Recorded rounds s) (hrounds : rounds ≠ []) : 0 < s.size := by
  cases h with
  | none _ _ => exact absurd rfl hrounds
  | rounds _ _ hsize _ _ _ => exact hsize

end Recorded

/-- What a run of events records. All its turns are written down, but for those that an empty
rotation answers before the first newcomer. -/
structure Run (events : List Event) (rounds : List Round) (s : Shuffle) (after : List Round)
    (s' : Shuffle) (indices : List Nat) (idle : Nat) : Prop where
  recorded : record? events rounds s = some (after, s')
  keeps : Recorded after s'
  played : play? events s = some (indices, s')
  size : s'.size = s.size + newcomers events
  turns : allTurns rounds ++ indices = List.replicate idle 0 ++ allTurns after
  idle : idle = if s.size = 0 then idleTurns events else 0

namespace Run

variable {events : List Event} {rounds after : List Round} {s s' : Shuffle}
    {indices : List Nat}
  {idle : Nat}

theorem nil (h : Recorded rounds s) : Run [] rounds s rounds s [] 0 where
  recorded := rfl
  keeps := h
  played := rfl
  size := rfl
  turns := by simp
  idle := (ite_self 0).symm

theorem newcomer (hroom : s.size + 1 < wordLimit)
    (h : Run events (recordNewcomer rounds) s.add after s' indices idle) :
    Run (.newcomer :: events) rounds s after s' indices 0 where
  recorded := h.recorded
  keeps := h.keeps
  played := h.played
  size := by
    have hsize := h.size
    rw [size_add hroom] at hsize
    rw [newcomers_newcomer]
    omega
  turns := by
    have hnone : idle = 0 := by
      rw [h.idle, size_add hroom, if_neg (Nat.succ_ne_zero _)]
    rw [← allTurns_recordNewcomer, h.turns, hnone]
  idle := (ite_self 0).symm

theorem idle_turn (hzero : s.size = 0) (h : Run events [] s after s' indices idle) :
    Run (.turn :: events) [] s after s' (0 :: indices) (idle + 1) where
  recorded := by
    have hsame : recordTurn [] s 0 s = [] := by simp [recordTurn]
    rw [record?, next?_idle hzero]
    simp only [hsame, h.recorded]
  keeps := h.keeps
  played := by rw [play?_turn (next?_idle hzero), h.played, Option.map_some]
  size := by simpa [newcomers] using h.size
  turns := by
    rw [List.replicate_succ, List.cons_append, ← h.turns]
    rfl
  idle := by
    rw [h.idle, if_pos hzero, if_pos hzero]
    rfl

theorem turn (hpos : 0 < s.size) {index : Nat} {turned : Shuffle}
    (hnext : Rotation.next? s = some (index, turned)) (hsize : turned.size = s.size)
    (hwritten : allTurns (recordTurn rounds s index turned) = allTurns rounds ++ [index])
    (h : Run events (recordTurn rounds s index turned) turned after s' indices idle) :
    Run (.turn :: events) rounds s after s' (index :: indices) 0 where
  recorded := by
    rw [record?, hnext]
    exact h.recorded
  keeps := h.keeps
  played := by rw [play?_turn hnext, h.played, Option.map_some]
  size := by
    rw [h.size, hsize]
    simp [newcomers]
  turns := by
    have hnone : idle = 0 := by
      rw [h.idle, hsize, if_neg (Nat.ne_of_gt hpos)]
    have hturns := h.turns
    rw [hwritten, hnone] at hturns
    rw [← hturns, List.append_assoc]
    rfl
  idle := (if_neg (Nat.ne_of_gt hpos)).symm

end Run

theorem Turned.epoch_le {index : Nat} {after : Shuffle} (h : Turned s index after) :
    after.epoch ≤ s.epoch + 1 := by
  cases h with
  | within _ _ _ _ hepoch => omega
  | opening _ _ _ _ _ hepoch => omega

theorem Recorded.run {rounds : List Round} (h : Recorded rounds s) {events : List Event}
    (hsize : s.size + events.length < wordLimit)
    (hepoch : s.epoch + events.length < wordLimit) :
    ∃ after s' indices idle, Run events rounds s after s' indices idle := by
  induction events generalizing rounds s with
  | nil => exact ⟨rounds, s, [], 0, .nil h⟩
  | cons event events ih =>
      rw [List.length_cons] at hsize hepoch
      cases event with
      | newcomer =>
          have hroom : s.size + 1 < wordLimit := by omega
          have hgrown : s.add.size + events.length < wordLimit := by
            rw [size_add hroom]
            omega
          have hcount : s.add.epoch + events.length < wordLimit := by
            rw [epoch_add]
            omega
          rcases ih (h.newcomer hroom) hgrown hcount with ⟨after, s', indices, idle, hrun⟩
          exact ⟨after, s', indices, 0, hrun.newcomer hroom⟩
      | turn =>
          by_cases hzero : s.size = 0
          · obtain rfl : rounds = [] := by
              by_contra hrounds
              exact Nat.ne_of_gt (h.size_pos hrounds) hzero
            rcases ih h (by omega) (by omega) with ⟨after, s', indices, idle, hrun⟩
            exact ⟨after, s', 0 :: indices, idle + 1, hrun.idle_turn hzero⟩
          · have hpos := Nat.pos_of_ne_zero hzero
            have hlasts : s.Lasts := fun _ => by omega
            rcases exists_turned h.wellFormed hpos hlasts with
              ⟨index, turned, hnext, hwell, hkept, hturned⟩
            have hcount := hturned.epoch_le
            rcases h.turn hwell hpos hkept hturned with ⟨hrecorded, hwritten⟩
            rcases ih hrecorded (by omega) (by omega) with ⟨after, s', indices, idle, hrun⟩
            exact ⟨after, s', index :: indices, 0, hrun.turn hpos hnext hkept hwritten⟩

/-!
## Fairness
-/

/-- During complete rounds, whoever was there from the first of them on has one turn in
each. -/
theorem count_allTurns {rounds : List Round} (hcomplete : ∀ round ∈ rounds, round.Complete)
    {index : Nat} (hthere : ∀ round ∈ rounds, index < round.drawn) :
    (allTurns rounds).count index = rounds.length := by
  induction rounds with
  | nil => rfl
  | cons round earlier ih =>
      have hround : round.turns.count index = 1 := by
        have hfirst := hcomplete round List.mem_cons_self
        have hmem := hfirst.all index (hthere round List.mem_cons_self)
        exact List.count_eq_one_of_mem hfirst.once hmem
      have hearlier := ih (fun other hmem => hcomplete other (List.mem_cons_of_mem _ hmem))
        (fun other hmem => hthere other (List.mem_cons_of_mem _ hmem))
      rw [allTurns_cons, List.count_append, hearlier, hround, List.length_cons]

/-- What is fair about the rounds of a shuffle, the latest of which may still be going on. -/
structure Fair (rounds : List Round) (s : Shuffle) : Prop where
  /-- Every drawn order opens a round. -/
  drawn : rounds.length = s.epoch
  /-- In a complete round, whoever was there when its order was drawn has one turn. -/
  complete : ∀ round ∈ rounds.tail, ∀ index < round.drawn, round.turns.count index = 1
  /-- In the latest round, whoever was there has had a turn or has one that is due. -/
  latest : ∀ round ∈ rounds.head?, ∀ index < round.drawn,
    (round.turns ++ s.due).count index = 1
  /-- Nobody has more than one turn in a round, newcomers included. -/
  once : ∀ round ∈ rounds, ∀ index, round.turns.count index ≤ 1
  /-- Whoever joined during a round takes part in the draws after it. -/
  joined : rounds.Pairwise fun later earlier => earlier.present ≤ later.drawn
  /-- In the latest round, all who have joined by now are present. -/
  present : ∀ round ∈ rounds.head?, round.present = s.size
  /-- Those who are due keep their order when somebody joins. -/
  order : s.add.due.erase s.size = s.due
  /-- Nobody who was there at the first draw is more than one turn ahead of another. -/
  even : ∀ first ∈ rounds.getLast?, ∀ index < first.drawn, ∀ other < first.drawn,
    (allTurns rounds).count index ≤ (allTurns rounds).count other + 1

theorem Round.Current.count_le_one {round : Round} (h : round.Current s) (hs : s.WellFormed)
    (index : Nat) : round.turns.count index ≤ 1 := by
  have hpast := (List.nodup_append.mp hs.nodup_round).1
  rw [h.turns]
  exact List.nodup_iff_count_le_one.mp hpast index

namespace Recorded

variable {rounds : List Round}

theorem drawn_le (h : Recorded rounds s) : ∀ round ∈ rounds, round.drawn ≤ round.present := by
  cases h with
  | none _ _ => simp
  | rounds _ _ _ hcurrent hcomplete _ =>
      intro round hmem
      rcases List.mem_cons.mp hmem with rfl | hmem
      · exact hcurrent.drawn_le
      · exact (hcomplete round hmem).drawn_le

theorem first_drawn_le (h : Recorded rounds s) {first : Round}
    (hfirst : first ∈ rounds.getLast?) : ∀ round ∈ rounds, first.drawn ≤ round.drawn := by
  rcases List.getLast?_eq_some_iff.mp hfirst with ⟨later, hrounds⟩
  have hpairwise := h.pairwise
  rw [hrounds, List.pairwise_append] at hpairwise
  intro round hmem
  have hin := hmem
  rw [hrounds, List.mem_append, List.mem_singleton] at hin
  rcases hin with hlater | rfl
  · have hpresent := hpairwise.2.2 round hlater first (List.mem_singleton.mpr rfl)
    exact Nat.le_trans (h.drawn_le first (List.mem_of_getLast? hfirst)) hpresent
  · exact Nat.le_refl _

theorem count_bounds (h : Recorded rounds s) {first : Round} (hfirst : first ∈ rounds.getLast?)
    {index : Nat} (hindex : index < first.drawn) :
    rounds.length ≤ (allTurns rounds).count index + 1 ∧
      (allTurns rounds).count index ≤ rounds.length := by
  have hthere := h.first_drawn_le hfirst
  cases h with
  | none _ _ => simp [allTurns]
  | @rounds _ round earlier hs _ _ hcurrent hcomplete _ =>
      have hearlier : (allTurns earlier).count index = earlier.length := by
        refine count_allTurns hcomplete ?_
        intro other hmem
        exact Nat.lt_of_lt_of_le hindex (hthere other (List.mem_cons_of_mem _ hmem))
      have honce := hcurrent.count_le_one hs index
      rw [allTurns_cons, List.count_append, hearlier, List.length_cons]
      omega

theorem fair (h : Recorded rounds s) : Fair rounds s where
  drawn := h.epoch.symm
  complete := by
    cases h with
    | none _ _ => simp
    | rounds _ _ _ _ hcomplete _ =>
        intro round hmem index hlt
        have hround := hcomplete round hmem
        exact List.count_eq_one_of_mem hround.once (hround.all index hlt)
  latest := by
    cases h with
    | none _ _ => simp
    | rounds hs _ _ hcurrent _ _ =>
        intro round hmem index hlt
        obtain rfl := Option.some.inj hmem
        have hall := List.mem_append.mpr (hcurrent.all index hlt)
        rw [hcurrent.turns]
        exact List.count_eq_one_of_mem hs.nodup_round hall
  once := by
    cases h with
    | none _ _ => simp
    | rounds hs _ _ hcurrent hcomplete _ =>
        intro round hmem index
        rcases List.mem_cons.mp hmem with rfl | hmem
        · exact hcurrent.count_le_one hs index
        · exact List.nodup_iff_count_le_one.mp (hcomplete round hmem).once index
  joined := h.pairwise
  present := by
    cases h with
    | none _ _ => simp
    | rounds _ _ _ hcurrent _ _ =>
        intro round hmem
        obtain rfl := Option.some.inj hmem
        exact hcurrent.present
  order := erase_due_add h.wellFormed
  even := by
    intro first hfirst index hindex other hother
    have hupper := (h.count_bounds hfirst hindex).2
    have hlower := (h.count_bounds hfirst hother).1
    omega

end Recorded

/-- However turns and newcomers alternate, every turn of a shuffle has an answer and every
newcomer finds a place. But for the turns before the first newcomer, which nobody is there for,
the indices that are handed out are those of the recorded rounds, one round after the other,
and the rounds are fair. All this lasts until turns or indices cannot be counted in 64 bits any
more.
-/
theorem rounds_under_joins (seed : Nat) {events : List Event}
    (hroom : events.length < wordLimit) :
    ∃ rounds s indices, record? events [] (empty seed) = some (rounds, s) ∧
      play? events (empty seed) = some (indices, s) ∧
      indices = List.replicate (idleTurns events) 0 ++ allTurns rounds ∧ s.WellFormed ∧
      s.size = newcomers events ∧ Fair rounds s := by
  have hstart : Recorded [] (empty seed) := .none (wellFormed_empty seed) rfl
  have hcount : 0 + events.length < wordLimit := (Nat.zero_add _).symm ▸ hroom
  rcases hstart.run hcount hcount with ⟨rounds, s, indices, idle, hrun⟩
  have hidle : idle = idleTurns events := hrun.idle
  have hsize : s.size = newcomers events := hrun.size.trans (Nat.zero_add _)
  exact ⟨rounds, s, indices, hrun.recorded, hrun.played, hidle ▸ hrun.turns,
    hrun.keeps.wellFormed, hsize, hrun.keeps.fair⟩

/-- Two turns before anybody is there, and a newcomer in the middle of the first round. -/
theorem rounds_under_joins_earlyTurns :
    let events := [.turn, .turn, .newcomer, .newcomer, .turn, .newcomer, .turn, .turn, .turn]
    events.length < wordLimit ∧
    ∃ rounds s indices, record? events [] (empty 0) = some (rounds, s) ∧
      play? events (empty 0) = some (indices, s) ∧
      indices = [0, 0] ++ allTurns rounds ∧ s.WellFormed ∧ s.size = 3 ∧ Fair rounds s :=
  ⟨by decide, rounds_under_joins 0 (by decide)⟩

end Shuffle
end Jukebox
