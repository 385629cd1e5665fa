import Mathlib.Data.List.DropRight
import Jukebox.History

/-!
# The veto rule and its countdown

What a veto may answer depends on the latest entry of a history, and on how many entries it has
behind the last one that the user vetoed. Every entry that the user does not veto makes that
distance grow by one. So the wait that a user is told falls by one with each of them, until
nothing is left of it.
-/

namespace Jukebox

/-!
## What is promised
-/

def Unvetoed (history : List TrackEntry) : Prop :=
  ∃ latest, history.getLast? = some latest ∧ latest.vetoed = false

def VetoedWithin (cooldown : Nat) (user : UserId) (history : List TrackEntry) : Prop :=
  ∃ entry ∈ history.rtake cooldown, entry.vetoedBy = some user

/-- When a veto gets which answer, and how the answer changes as further tracks are served. -/
structure VetoRule (history : List TrackEntry) (user : UserId) (cooldown : Nat) : Prop where
  nothingPlayed : vetoTarget history user cooldown = .error .nothingPlayed ↔ history = []
  alreadyVetoed : vetoTarget history user cooldown = .error .alreadyVetoed ↔
    ∃ latest, history.getLast? = some latest ∧ latest.vetoed = true
  coolingDown :
    (∃ remaining, vetoTarget history user cooldown = .error (.coolingDown remaining)) ↔
    Unvetoed history ∧ VetoedWithin cooldown user history
  allowed : ∀ place, vetoTarget history user cooldown = .ok place ↔
    Unvetoed history ∧ ¬VetoedWithin cooldown user history ∧ place + 1 = history.length
  bounded : ∀ remaining, vetoTarget history user cooldown = .error (.coolingDown remaining) →
    1 ≤ remaining ∧ remaining ≤ cooldown
  /-- Other members may veto the entries that are appended, save for the last one. -/
  countdown : ∀ remaining later, vetoTarget history user cooldown =
    .error (.coolingDown remaining) → Unvetoed later →
    (∀ entry ∈ later, entry.vetoedBy ≠ some user) →
    vetoTarget (history ++ later) user cooldown =
      if later.length < remaining then .error (.coolingDown (remaining - later.length))
      else .ok ((history ++ later).length - 1)

variable {history later : List TrackEntry} {user : UserId} {cooldown age remaining place : Nat}

/-!
## How long ago
-/

/-- How many entries a history has behind the last one that a user vetoed. -/
def sinceVeto? (history : List TrackEntry) (user : UserId) : Option Nat :=
  history.reverse.findIdx? fun entry => entry.vetoedBy == some user

theorem sinceVeto?_append (hother : ∀ entry ∈ later, entry.vetoedBy ≠ some user) :
    sinceVeto? (history ++ later) user = (sinceVeto? history user).map (· + later.length) := by
  have hnone : later.reverse.findIdx? (fun entry => entry.vetoedBy == some user) = none := by
    rw [List.findIdx?_eq_none_iff]
    intro entry hentry
    exact beq_false_of_ne (hother entry (List.mem_reverse.mp hentry))
  rw [sinceVeto?, List.reverse_append, List.findIdx?_append, hnone, Option.none_or,
    List.length_reverse, sinceVeto?]

theorem findIdx?_window (history : List TrackEntry) (user : UserId) (cooldown : Nat) :
    (history.reverse.take cooldown).findIdx? (fun entry => entry.vetoedBy == some user) =
      (sinceVeto? history user).filter (· < cooldown) := by
  rw [List.findIdx?_take, Option.bind_guard, sinceVeto?]

theorem vetoedWithin_iff :
    VetoedWithin cooldown user history ↔ ∃ age, sinceVeto? history user = some age ∧
    age < cooldown := by
  have hsome : VetoedWithin cooldown user history ↔
      ((history.reverse.take cooldown).findIdx? fun entry => entry.vetoedBy ==
        some user).isSome := by
    rw [List.findIdx?_isSome, List.any_eq_true, VetoedWithin,
      List.rtake_eq_reverse_take_reverse]
    simp only [List.mem_reverse, beq_iff_eq]
  rw [hsome, findIdx?_window, Option.isSome_iff_exists]
  simp only [Option.filter_eq_some_iff, decide_eq_true_eq]

/-!
## The answers
-/

/-- The answers that a veto can get, each with its reason. No two of the reasons go
together. -/
inductive VetoAnswer (history : List TrackEntry) (user : UserId) (cooldown : Nat) :
    Except VetoError Nat → Prop
  | nothingPlayed (hempty : history = []) : VetoAnswer history user cooldown
      (.error .nothingPlayed)
  | alreadyVetoed {latest : TrackEntry} (hlatest : history.getLast? = some latest)
    (hvetoed : latest.vetoed = true) : VetoAnswer history user cooldown (.error .alreadyVetoed)
  | coolingDown {age : Nat} (hunvetoed : Unvetoed history)
      (hage : sinceVeto? history user = some age)
    (hrecent : age < cooldown) :
    VetoAnswer history user cooldown (.error (.coolingDown (cooldown - age)))
  | allowed (hunvetoed : Unvetoed history) (hclear : ¬VetoedWithin cooldown user history) :
    VetoAnswer history user cooldown (.ok (history.length - 1))

theorem vetoAnswer (history : List TrackEntry) (user : UserId) (cooldown : Nat) :
    VetoAnswer history user cooldown (vetoTarget history user cooldown) := by
  rw [vetoTarget, findIdx?_window]
  cases hlatest : history.getLast? with
  | none => exact .nothingPlayed (List.getLast?_eq_none_iff.mp hlatest)
  | some latest =>
      cases hvetoed : latest.vetoed with
      | true =>
          simp only [hvetoed, if_true]
          exact .alreadyVetoed hlatest hvetoed
      | false =>
          have hunvetoed : Unvetoed history := ⟨latest, hlatest, hvetoed⟩
          simp only [hvetoed, Bool.false_eq_true, if_false]
          cases hage : (sinceVeto? history user).filter (· < cooldown) with
          | some age =>
              rw [Option.filter_eq_some_iff, decide_eq_true_eq] at hage
              exact .coolingDown hunvetoed hage.1 hage.2
          | none =>
              refine .allowed hunvetoed fun hwithin => ?_
              rcases vetoedWithin_iff.mp hwithin with ⟨age, hsome, hrecent⟩
              rw [hsome, Option.filter_some, if_pos (decide_eq_true hrecent)] at hage
              cases hage

theorem Unvetoed.ne_nil (h : Unvetoed history) : history ≠ [] := by
  rcases h with ⟨latest, hlatest, -⟩
  rintro rfl
  cases hlatest

theorem Unvetoed.not_vetoed (h : Unvetoed history) {latest : TrackEntry}
    (hlatest : history.getLast? = some latest) : latest.vetoed = false := by
  rcases h with ⟨other, hother, hunvetoed⟩
  rw [hlatest, Option.some.injEq] at hother
  rw [hother, hunvetoed]

theorem Unvetoed.append (h : Unvetoed later) (history : List TrackEntry) :
    Unvetoed (history ++ later) := by
  rcases h with ⟨latest, hlatest, hunvetoed⟩
  refine ⟨latest, ?_, hunvetoed⟩
  rw [List.getLast?_append, hlatest, Option.some_or]

theorem vetoTarget_eq_nothingPlayed_iff :
    vetoTarget history user cooldown = .error .nothingPlayed ↔ history = [] := by
  constructor
  · intro hanswer
    have hcases := vetoAnswer history user cooldown
    rw [hanswer] at hcases
    cases hcases with
    | nothingPlayed hempty => exact hempty
  · rintro rfl
    rfl

theorem vetoTarget_eq_alreadyVetoed_iff :
    vetoTarget history user cooldown = .error .alreadyVetoed ↔
      ∃ latest, history.getLast? = some latest ∧ latest.vetoed = true := by
  constructor
  · intro hanswer
    have hcases := vetoAnswer history user cooldown
    rw [hanswer] at hcases
    cases hcases with
    | alreadyVetoed hlatest hvetoed => exact ⟨_, hlatest, hvetoed⟩
  · rintro ⟨latest, hlatest, hvetoed⟩
    rw [vetoTarget, hlatest]
    exact if_pos hvetoed

theorem vetoTarget_eq_coolingDown_iff :
    vetoTarget history user cooldown = .error (.coolingDown remaining) ↔
      Unvetoed history ∧ ∃ age, sinceVeto? history user = some age ∧ age < cooldown ∧
        remaining = cooldown - age := by
  have hcases := vetoAnswer history user cooldown
  constructor
  · intro hanswer
    rw [hanswer] at hcases
    cases hcases with
    | coolingDown hunvetoed hage hrecent => exact ⟨hunvetoed, _, hage, hrecent, rfl⟩
  · rintro ⟨hunvetoed, age, hage, hrecent, rfl⟩
    generalize vetoTarget history user cooldown = answer at hcases ⊢
    cases hcases with
    | nothingPlayed hempty => exact absurd hempty hunvetoed.ne_nil
    | alreadyVetoed hlatest hvetoed => cases hvetoed.symm.trans (hunvetoed.not_vetoed hlatest)
    | coolingDown _ hagain _ => rw [Option.some.inj (hage.symm.trans hagain)]
    | allowed _ hclear => exact absurd (vetoedWithin_iff.mpr ⟨age, hage, hrecent⟩) hclear

theorem vetoTarget_eq_ok_iff :
    vetoTarget history user cooldown = .ok place ↔
      Unvetoed history ∧ ¬VetoedWithin cooldown user history ∧ place + 1 = history.length := by
  have hcases := vetoAnswer history user cooldown
  constructor
  · intro hanswer
    rw [hanswer] at hcases
    cases hcases with
    | allowed hunvetoed hclear =>
        exact ⟨hunvetoed, hclear,
          Nat.sub_add_cancel (List.length_pos_iff.mpr hunvetoed.ne_nil)⟩
  · rintro ⟨hunvetoed, hclear, hplace⟩
    generalize vetoTarget history user cooldown = answer at hcases ⊢
    cases hcases with
    | nothingPlayed hempty => exact absurd hempty hunvetoed.ne_nil
    | alreadyVetoed hlatest hvetoed => cases hvetoed.symm.trans (hunvetoed.not_vetoed hlatest)
    | coolingDown _ hage hrecent =>
        exact absurd (vetoedWithin_iff.mpr ⟨_, hage, hrecent⟩) hclear
    | allowed _ _ => rw [← hplace, Nat.add_sub_cancel]

theorem exists_coolingDown_iff :
    (∃ remaining, vetoTarget history user cooldown = .error (.coolingDown remaining)) ↔
      Unvetoed history ∧ VetoedWithin cooldown user history := by
  constructor
  · rintro ⟨remaining, hanswer⟩
    rcases vetoTarget_eq_coolingDown_iff.mp hanswer with ⟨hunvetoed, age, hage, hrecent, -⟩
    exact ⟨hunvetoed, vetoedWithin_iff.mpr ⟨age, hage, hrecent⟩⟩
  · rintro ⟨hunvetoed, hwithin⟩
    rcases vetoedWithin_iff.mp hwithin with ⟨age, hage, hrecent⟩
    exact ⟨_, vetoTarget_eq_coolingDown_iff.mpr ⟨hunvetoed, age, hage, hrecent, rfl⟩⟩

/-!
## The countdown
-/

theorem vetoTarget_append
    (hanswer : vetoTarget history user cooldown = .error (.coolingDown remaining))
    (hunvetoed : Unvetoed later) (hother : ∀ entry ∈ later, entry.vetoedBy ≠ some user) :
    vetoTarget (history ++ later) user cooldown =
      if later.length < remaining then .error (.coolingDown (remaining - later.length))
      else .ok ((history ++ later).length - 1) := by
  rcases vetoTarget_eq_coolingDown_iff.mp hanswer with ⟨-, age, hage, hrecent, rfl⟩
  have hsince : sinceVeto? (history ++ later) user = some (age + later.length) := by
    rw [sinceVeto?_append hother, hage, Option.map_some]
  split
  · rename_i hwaiting
    rw [vetoTarget_eq_coolingDown_iff]
    exact ⟨hunvetoed.append history, _, hsince, by omega, by omega⟩
  · rename_i hover
    rw [vetoTarget_eq_ok_iff]
    refine ⟨hunvetoed.append history, ?_, ?_⟩
    · rw [vetoedWithin_iff, hsince]
      rintro ⟨_, ⟨⟩, hstill⟩
      omega
    · exact Nat.sub_add_cancel (List.length_pos_iff.mpr (hunvetoed.append history).ne_nil)

/-- The rule holds for every history, user and cooldown. -/
theorem veto_rule_exact (history : List TrackEntry) (user : UserId) (cooldown : Nat) :
    VetoRule history user cooldown where
  nothingPlayed := vetoTarget_eq_nothingPlayed_iff
  alreadyVetoed := vetoTarget_eq_alreadyVetoed_iff
  coolingDown := exists_coolingDown_iff
  allowed := fun _ => vetoTarget_eq_ok_iff
  bounded := by
    intro remaining hanswer
    rcases vetoTarget_eq_coolingDown_iff.mp hanswer with ⟨-, age, -, hrecent, rfl⟩
    omega
  countdown := fun _ _ => vetoTarget_append

def playedEntry (vetoedBy : Option UserId) : TrackEntry :=
  ⟨⟨"ann"⟩, { id := ⟨"t"⟩, name := "Demo" }, vetoedBy.isSome, vetoedBy, ⟨"now", "now"⟩⟩

def twiceBefore : List TrackEntry :=
  [playedEntry (some ⟨"bob"⟩), playedEntry (some ⟨"bob"⟩), playedEntry none]

/-- The window is larger than the history, and Bob's later veto counts. Ann's veto does not
make him wait any longer: he may veto again after three more tracks. -/
theorem veto_rule_exact_twiceBefore :
    VetoRule twiceBefore ⟨"bob"⟩ 4 ∧
    vetoTarget twiceBefore ⟨"bob"⟩ 4 = .error (.coolingDown 3) ∧
    vetoTarget (twiceBefore ++ [playedEntry (some ⟨"ann"⟩), playedEntry none]) ⟨"bob"⟩ 4 =
      .error (.coolingDown 1) ∧
    vetoTarget (twiceBefore ++
      [playedEntry (some ⟨"ann"⟩), playedEntry none, playedEntry none]) ⟨"bob"⟩ 4 = .ok 5 := by
  have hrule := veto_rule_exact twiceBefore ⟨"bob"⟩ 4
  have hthree : vetoTarget twiceBefore ⟨"bob"⟩ 4 = .error (.coolingDown 3) := by decide
  refine ⟨hrule, hthree, ?_, ?_⟩
  · exact hrule.countdown 3 _ hthree ⟨_, rfl, rfl⟩ (by decide)
  · exact hrule.countdown 3 _ hthree ⟨_, rfl, rfl⟩ (by decide)

end Jukebox
