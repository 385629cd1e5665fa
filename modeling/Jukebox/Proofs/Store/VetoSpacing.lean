import Jukebox.Proofs.Store.Story

/-!
# Vetoes keep their distance

A veto looks back over the last tracks of a room, as many as the members of the room make it,
and fails if one of them was vetoed by the same user. It flags the latest entry and no other
one, so the flags behind never change any more. Hence what was checked once holds for the whole
history ever after.

How many tracks it looks back is the product of a factor and the number of members, in 64 bits.
A factor that large leaves less distance than the product would, or none at all.
-/

namespace Jukebox

open Store Memory

/-!
## What is spaced
-/

section Spacing

variable (config : Config) (operations : List Operation)
  (asked : Nat → Operation → Except StoreError Reply)

/-- Whether the history of a room shows an entry at a place before the operation at a
position. -/
def ShownAt (room : RoomId) (place : Nat) (entry : TrackEntry) (i : Nat) : Prop :=
  ∃ history, asked i (.history room) = .ok (.history history) ∧ history[place]? = some entry

end Spacing

/-!
## One veto
-/

section Veto

variable {history : List TrackEntry} {user : UserId} {cooldown place : Nat}
    {entry : TrackEntry}

end Veto

/-!
## One place of a history
-/

namespace Memory

variable {config : Config} {m changed : Memory} {operation : Operation}
  {answer other : Except StoreError Reply} {room : RoomId} {place : Nat}
  {before after : Option Play}

def playsOf (m : Memory) (room : RoomId) : List Play :=
  (m.historyOf room).map TrackEntry.play

/-- What a step does to one place of a history. -/
inductive PlaceStep (config : Config) (m : Memory) (room : RoomId) (place : Nat)
    (before : Option Play) : Operation → Except StoreError Reply → Option Play → Prop
  | kept {operation : Operation} {answer : Except StoreError Reply}
    (hquiet : ∀ user reply, operation = .markVetoed room user → answer = .ok reply →
      place + 1 ≠ (m.playsOf room).length) :
      PlaceStep config m room place before operation answer before
  | served {now : Timestamp} {reply : Reply} {play : Play} (hbefore : before = none)
    (hplay : play.vetoed = false ∧ play.vetoedBy = none) :
    PlaceStep config m room place before (.nextTrack room now) (.ok reply) (some play)
  | vetoed {user : UserId} {entry : TrackEntry} {state : RoomState} {play : Play}
    (hroom : m.room? room = some state) (hmember : user ∈ state.members)
    (htarget : vetoTarget state.history user (config.vetoCooldown state.members.length) =
      .ok place)
    (hbefore : before = some play) (hplay : play.vetoed = false) :
    PlaceStep config m room place before (.markVetoed room user) (.ok (.vetoed entry))
      (some { play with vetoed := true, vetoedBy := some user })

theorem playsOf_eq {state : RoomState} (hroom : m.room? room = some state) :
    m.playsOf room = state.history.map TrackEntry.play := by
  rw [playsOf, historyOf_eq hroom]

theorem playsOf_none (hroom : m.room? room = none) : m.playsOf room = [] := by
  rw [playsOf, historyOf_none hroom, List.map_nil]

theorem getElem?_concat_of_ne {α : Type} {front : List α} {last : α}
    (hplace : place ≠ front.length) : (front ++ [last])[place]? = front[place]? := by
  rcases Nat.lt_or_ge place front.length with hlt | hge
  · exact List.getElem?_append_left hlt
  · rw [List.getElem?_eq_none hge, List.getElem?_eq_none]
    rw [List.length_append, List.length_singleton]
    omega

theorem Step.veto_allowed {user : UserId} {reply : Reply} {state : RoomState} (h : m.Sound)
    (hstep : Step config m (.markVetoed room user) (.ok reply) changed)
    (hroom : m.room? room = some state) :
    user ∈ state.members ∧
      vetoTarget state.history user (config.vetoCooldown state.members.length) =
        .ok (state.history.length - 1) := by
  cases hstep with
  | @vetoed _ _ queue hqueue found hfound earlier latest hhistory hveto =>
      obtain rfl := Option.some.inj (hfound.symm.trans hroom)
      constructor
      · rw [h.mem_members_iff hroom, hqueue]
        rfl
      · rw [hveto, hhistory, List.length_append, List.length_singleton, Nat.add_sub_cancel]

theorem RoomStep.place_step {state next : RoomState}
    (h : RoomStep m room state operation answer next)
    (hstep : Step config m operation answer changed) (hsound : m.Sound)
    (hroom : m.room? room = some state) (place : Nat) :
    PlaceStep config m room place (state.history.map TrackEntry.play)[place]? operation answer
      (next.history.map TrackEntry.play)[place]? := by
  cases h with
  | kept hquiet =>
      apply PlaceStep.kept
      rintro user reply rfl rfl
      rcases hquiet with ⟨error, herror⟩ | ⟨-, hother⟩
      · cases herror
      · exact absurd rfl (hother user)
  | joined => exact .kept (by simp)
  | @served now index rotator user track hturn hmember =>
      have hhistory : (turn rotator (.served user.id track now) state).history =
          state.history ++ [.served user.id track now] := rfl
      rw [hhistory, List.map_append, List.map_singleton]
      by_cases hplace : place = (state.history.map TrackEntry.play).length
      · rw [hplace, List.getElem?_concat_length, List.getElem?_eq_none (Nat.le_refl _)]
        exact .served rfl ⟨rfl, rfl⟩
      · rw [getElem?_concat_of_ne hplace]
        exact .kept (by simp)
  | @vetoed user earlier latest hhistory hlatest =>
      rcases hstep.veto_allowed hsound hroom with ⟨hmember, htarget⟩
      have hlength : (m.playsOf room).length = earlier.length + 1 := by
        rw [playsOf_eq hroom, hhistory, List.length_map, List.length_append,
          List.length_singleton]
      rw [hhistory, List.map_append, List.map_append, List.map_singleton, List.map_singleton]
      by_cases hplace : place = (earlier.map TrackEntry.play).length
      · rw [hplace, List.getElem?_concat_length, List.getElem?_concat_length]
        refine .vetoed hroom hmember ?_ rfl hlatest
        rw [htarget, hhistory, List.length_append, List.length_singleton, List.length_map,
          Nat.add_sub_cancel]
      · rw [getElem?_concat_of_ne hplace, getElem?_concat_of_ne hplace]
        apply PlaceStep.kept
        rw [List.length_map] at hplace
        rw [hlength]
        omega

theorem PlaceStep.shows (h : PlaceStep config m room place before operation answer after)
    (hshows : m.Shows operation answer other) :
    PlaceStep config m room place before operation other after := by
  cases h with
  | kept hquiet =>
      apply PlaceStep.kept
      rintro user reply rfl rfl
      rcases hshows.exists_ok with ⟨shown, rfl⟩
      exact hquiet user shown rfl rfl
  | served hbefore hplay =>
      rcases hshows with rfl | hagree
      · exact .served hbefore hplay
      · cases hagree with
        | same => exact .served hbefore hplay
  | vetoed hroom hmember htarget hbefore hplay =>
      rcases hshows with rfl | hagree
      · exact .vetoed hroom hmember htarget hbefore hplay
      · cases hagree with
        | same => exact .vetoed hroom hmember htarget hbefore hplay
        | vetoed _ _ => exact .vetoed hroom hmember htarget hbefore hplay

theorem Moves.place_step (hmoves : m.Moves config operation answer changed) (h : m.Sound)
    (room : RoomId) (place : Nat) :
    PlaceStep config m room place (m.playsOf room)[place]? operation answer
      (changed.playsOf room)[place]? := by
  cases hmoves with
  | failed hanswer =>
      apply PlaceStep.kept
      rintro user reply - hreply
      cases hanswer.symm.trans hreply
  | done hstep hshows =>
      cases hroom : m.room? room with
      | some state =>
          rcases hstep.room_step hroom with ⟨next, hnext, hchange⟩
          rw [playsOf_eq hroom, playsOf_eq hnext]
          exact (hchange.place_step hstep h hroom place).shows hshows
      | none =>
          have hnew : changed.playsOf room = [] := by
            rw [playsOf, hstep.historyOf_new hroom, List.map_nil]
          rw [playsOf_none hroom, hnew]
          apply PlaceStep.kept
          rintro user reply - -
          rw [playsOf_none hroom]
          exact Nat.succ_ne_zero place

theorem Moves.exists_latest {user : UserId} {reply : Reply}
    (hmoves : m.Moves config (.markVetoed room user) answer changed)
    (hreply : answer = .ok reply) : ∃ place, (m.playsOf room).length = place + 1 := by
  cases hmoves with
  | failed hanswer => cases hanswer.symm.trans hreply
  | done hstep hshows =>
      rcases (hreply ▸ hshows).exists_ok with ⟨shown, rfl⟩
      cases hstep with
      | vetoed _ hroom hhistory _ =>
          rw [playsOf_eq hroom, hhistory, List.length_map, List.length_append]
          exact ⟨_, rfl⟩

end Memory

/-!
## Along runs
-/

variable {config : Config} {operations : List Operation}
  {asked : Nat → Operation → Except StoreError Reply} {states : Nat → Memory} {i j k : Nat}
  {room : RoomId} {place later : Nat} {user : UserId} {entry : TrackEntry} {play : Play}

namespace Course

theorem shown (h : Course config operations asked states)
    (hshown : ShownAt asked room place entry i) :
    ((states i).playsOf room)[place]? = some entry.play := by
  rcases hshown with ⟨history, hasked, hentry⟩
  rcases h.history hasked with ⟨state, hroom, hplays⟩
  rw [playsOf_eq hroom, ← hplays, List.getElem?_map, hentry, Option.map_some]

/-- A veto that goes through, as the memories of a run show it. -/
structure Vetoing (config : Config) (operations : List Operation)
    (asked : Nat → Operation → Except StoreError Reply) (states : Nat → Memory) (room : RoomId)
    (place : Nat) (user : UserId) (i : Nat) (state : RoomState) (play : Play) : Prop where
  operation : operations[i]? = some (.markVetoed room user)
  answer : ∃ entry, asked i (.markVetoed room user) = .ok (.vetoed entry)
  found : (states i).room? room = some state
  member : user ∈ state.members
  target : vetoTarget state.history user (config.vetoCooldown state.members.length) = .ok place
  before : ((states i).playsOf room)[place]? = some play
  unvetoed : play.vetoed = false
  after : ((states (i + 1)).playsOf room)[place]? =
    some { play with vetoed := true, vetoedBy := some user }

theorem place_cases (h : Course config operations asked states) (room : RoomId)
    (place i : Nat) :
    ((states (i + 1)).playsOf room)[place]? = ((states i).playsOf room)[place]? ∨
      (∃ play, ((states i).playsOf room)[place]? = none ∧
        ((states (i + 1)).playsOf room)[place]? = some play ∧ play.vetoed = false ∧
        play.vetoedBy = none) ∨
      ∃ user state play, Vetoing config operations asked states room place user i state
        play := by
  cases hoperation : operations[i]? with
  | none =>
      left
      rw [h.rests hoperation]
  | some operation =>
      have hstep := (h.moves hoperation).place_step (h.sound i) room place
      generalize hanswer : asked i operation = answer at hstep
      generalize hbefore : ((states i).playsOf room)[place]? = before at hstep ⊢
      generalize hafter : ((states (i + 1)).playsOf room)[place]? = after at hstep ⊢
      cases hstep with
      | kept _ => exact Or.inl rfl
      | served hnone hplay => exact Or.inr (Or.inl ⟨_, hnone, rfl, hplay⟩)
      | @vetoed user entry state play hroom hmember htarget hplay hunvetoed =>
          right
          right
          exact ⟨user, state, play,
            { operation := hoperation
              answer := ⟨entry, hanswer⟩
              found := hroom
              member := hmember
              target := htarget
              before := hbefore.trans hplay
              unvetoed := hunvetoed
              after := hafter }⟩

theorem Vetoing.length_plays {state : RoomState} {play : Play}
    (h : Vetoing config operations asked states room place user i state play) :
    ((states i).playsOf room).length = place + 1 := by
  rcases exists_latest h.target with ⟨earlier, latest, hhistory, rfl⟩
  rw [playsOf_eq h.found, hhistory, List.length_map, List.length_append, List.length_singleton]

theorem isSome_play_succ (h : Course config operations asked states)
    (hplay : (((states i).playsOf room)[place]?).isSome) :
    (((states (i + 1)).playsOf room)[place]?).isSome := by
  rcases h.place_cases room place i with hkept | ⟨_, hnone, -⟩ | ⟨_, _, _, hveto⟩
  · rw [hkept]
    exact hplay
  · rw [hnone] at hplay
    cases hplay
  · rw [hveto.after]
    rfl

/-- An entry that was vetoed, or that another one follows, stays as it is. -/
theorem lasts (h : Course config operations asked states) (hle : i ≤ j)
    (hplay : ((states i).playsOf room)[place]? = some play)
    (hsettled : play.vetoed = true ∨ (((states i).playsOf room)[place + 1]?).isSome) :
    ((states j).playsOf room)[place]? = some play := by
  have hboth : ((states j).playsOf room)[place]? = some play ∧
      (play.vetoed = true ∨ (((states j).playsOf room)[place + 1]?).isSome) := by
    induction j, hle using Nat.le_induction with
    | base => exact ⟨hplay, hsettled⟩
    | succ j _ ih =>
        rcases ih with ⟨hj, hsettled⟩
        constructor
        · rcases h.place_cases room place j with hkept | ⟨_, hnone, -⟩ | ⟨_, _, old, hveto⟩
          · rw [hkept, hj]
          · rw [hnone] at hj
            cases hj
          · -- A veto would need an unvetoed entry that is the latest.
            have hnext : ((states j).playsOf room)[place + 1]? = none := by
              rw [List.getElem?_eq_none_iff, hveto.length_plays]
            rw [hveto.before, Option.some.injEq] at hj
            subst hj
            rw [hveto.unvetoed, hnext] at hsettled
            simp at hsettled
        · exact hsettled.imp_right h.isSome_play_succ
  exact hboth.1

/-- What an entry tells about a veto goes back to one that went through. -/
theorem vetoed_cases (h : Course config operations asked states)
    (hplay : ((states i).playsOf room)[place]? = some play) :
    (play.vetoed = false ∧ play.vetoedBy = none) ∨
      ∃ user j state old, play.vetoed = true ∧ play.vetoedBy = some user ∧ j < i ∧
        Vetoing config operations asked states room place user j state old := by
  induction i generalizing play with
  | zero =>
      rw [h.start] at hplay
      cases hplay
  | succ i ih =>
      rcases h.place_cases room place i with hkept | ⟨new, -, hnew, hunvetoed⟩ |
        ⟨user, state, old, hveto⟩
      · rcases ih (hkept.symm.trans hplay) with hunvetoed | ⟨user, j, state, old, hvetoed, hby,
          hlt, hveto⟩
        · exact Or.inl hunvetoed
        · exact Or.inr ⟨user, j, state, old, hvetoed, hby, Nat.lt_succ_of_lt hlt, hveto⟩
      · obtain rfl := Option.some.inj (hnew.symm.trans hplay)
        exact Or.inl hunvetoed
      · obtain rfl := Option.some.inj (hveto.after.symm.trans hplay)
        exact Or.inr ⟨user, i, state, old, rfl, rfl, Nat.lt_succ_self i, hveto⟩

theorem named (h : Course config operations asked states)
    (hshown : ShownAt asked room place entry i) :
    entry.vetoed = true ↔ entry.vetoedBy.isSome := by
  have hplay : (entry.play.vetoed = false ∧ entry.play.vetoedBy = none) ∨ _ :=
    h.vetoed_cases (h.shown hshown)
  rcases hplay with ⟨hvetoed, hby⟩ | ⟨_, _, _, _, hvetoed, hby, -⟩
  · have hvetoed : entry.vetoed = false := hvetoed
    have hby : entry.vetoedBy = none := hby
    simp [hvetoed, hby]
  · have hvetoed : entry.vetoed = true := hvetoed
    have hby : entry.vetoedBy = some _ := hby
    simp [hvetoed, hby]

end Course

end Jukebox
