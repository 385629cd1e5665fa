import Jukebox.Proofs.Store.Asking

/-!
# Histories and queues tell the same story

The history of a room says what was served for whom, and the queues of its members say what was
played. Both grow at their ends only, and by the same tracks: serving a track appends it to the
history and to the played entries of one queue. Nothing else touches either of them, save for a
veto, which flags the latest entry of a history.
-/

namespace Jukebox

open Store Memory Playlist

/-!
## What there is to tell
-/

def servedFor (user : UserId) (history : List TrackEntry) : List TrackId :=
  (history.filter fun entry => entry.user = user).map fun entry => entry.track.id

inductive HistoryStep (room : RoomId) (before : List Play) :
    Operation → Except StoreError Reply → List Play → Prop
  | kept {operation : Operation} {answer : Except StoreError Reply}
    (hquiet : Quiet room operation answer) : HistoryStep room before operation answer before
  | served {now : Timestamp} {user : User} {track : Track} :
    HistoryStep room before (.nextTrack room now) (.ok (.served user track))
      (before ++ [⟨user.id, track.id, false, none, now⟩])
  | vetoed {user : UserId} {entry : TrackEntry} {earlier : List Play} {latest : Play}
    (hbefore : before = earlier ++ [latest]) (hlatest : latest.vetoed = false)
    (hentry : entry.play = { latest with vetoed := true, vetoedBy := some user }) :
    HistoryStep room before (.markVetoed room user) (.ok (.vetoed entry))
      (earlier ++ [entry.play])

inductive PlayedStep (id : QueueId) (played waiting : List (EntryId × TrackId)) :
    Operation → Except StoreError Reply → List (EntryId × TrackId) → Prop
  | kept {operation : Operation} {answer : Except StoreError Reply}
    (hother : ∀ now user track, operation = .nextTrack id.room now →
      answer = .ok (.served user track) → user.id ≠ id.user) :
    PlayedStep id played waiting operation answer played
  | served {now : Timestamp} {user : User} {track : Track} {entry : EntryId}
    {rest : List (EntryId × TrackId)} (huser : user.id = id.user)
    (hwaiting : waiting = (entry, track.id) :: rest) :
    PlayedStep id played waiting (.nextTrack id.room now) (.ok (.served user track))
      (played ++ [(entry, track.id)])

section Telling

variable (operations : List Operation) (asked : Nat → Operation → Except StoreError Reply)

/-- Whether the history of a room shows for each member what was played in their queue, and
nothing besides. -/
def SameStory (room : RoomId) (users : List User) (i : Nat) : Prop :=
  ∃ (history : List TrackEntry) (played : UserId → List QueueTrack),
    asked i (.history room) = .ok (.history history) ∧
    (∀ user ∈ users, asked i (.tracks ⟨room, user.id⟩ .played) =
      .ok (.tracks (played user.id)) ∧
      servedFor user.id history = (played user.id).map (fun queued => queued.track.id) ∧
      ((played user.id).map QueueTrack.id).Nodup) ∧
    history.length = (users.flatMap fun user => played user.id).length

def PlaysAt (id : QueueId) (entry : EntryId) (i : Nat) : Prop :=
  ∃ before after, asked i (.tracks id .played) = .ok (.tracks before) ∧
    asked (i + 1) (.tracks id .played) = .ok (.tracks after) ∧
    entry ∉ before.map QueueTrack.id ∧ entry ∈ after.map QueueTrack.id

/-- What is told about histories and queues during a run. -/
structure Telling : Prop where
  same : ∀ {i : Nat} {room : RoomId} {found : Room}, asked i (.room room) = .ok (.room found) →
    ∃ users, asked i (.members room) = .ok (.users users) ∧ SameStory asked room users i
  /-- A history grows when a track is served, and its latest entry can be vetoed. -/
  history : ∀ {i : Nat} {operation : Operation} {room : RoomId} {before : List TrackEntry},
    operations[i]? = some operation → asked i (.history room) = .ok (.history before) →
    ∃ after, asked (i + 1) (.history room) = .ok (.history after) ∧
      HistoryStep room (before.map TrackEntry.play) operation (asked i operation)
        (after.map TrackEntry.play)
  /-- Played entries are joined by the first one that waits when a track of its owner is
  served. -/
  played : ∀ {i : Nat} {operation : Operation} {id : QueueId}
    {before waiting : List QueueTrack}, operations[i]? = some operation →
    asked i (.tracks id .played) = .ok (.tracks before) →
    asked i (.tracks id .unplayed) = .ok (.tracks waiting) →
    ∃ after, asked (i + 1) (.tracks id .played) = .ok (.tracks after) ∧
      PlayedStep id (before.map QueueTrack.key) (waiting.map QueueTrack.key) operation
        (asked i operation) (after.map QueueTrack.key)
  lasting : ∀ {i j : Nat} {id : QueueId} {before : List QueueTrack}, i ≤ j →
    asked i (.tracks id .played) = .ok (.tracks before) →
    ∃ after, asked j (.tracks id .played) = .ok (.tracks after) ∧
      before.map QueueTrack.key <+: after.map QueueTrack.key
  once : ∀ {i j : Nat} {id : QueueId} {entry : EntryId},
    PlaysAt asked id entry i → PlaysAt asked id entry j → i = j

end Telling

/-!
## What agreeing answers tell
-/

section Agreement

variable {m : Memory} {operation : Operation} {answer other : Except StoreError Reply}
  {room : RoomId} {id : QueueId}

theorem Memory.Quiet.shows (h : Quiet room operation answer)
    (hshows : m.Shows operation answer other) : Quiet room operation other := by
  rcases h with ⟨error, rfl⟩ | hother
  · rcases hshows with rfl | hagree
    · exact Or.inl ⟨error, rfl⟩
    · cases hagree with
      | same => exact Or.inl ⟨error, rfl⟩
      | noRoom _ => exact Or.inl ⟨_, rfl⟩
  · exact Or.inr hother

theorem HistoryStep.shows {before after : List Play}
    (h : HistoryStep room before operation answer after)
    (hshows : m.Shows operation answer other) :
    HistoryStep room before operation other after := by
  rcases hshows with rfl | hagree
  · exact h
  · cases h with
    | kept hquiet => exact .kept (hquiet.shows (Or.inr hagree))
    | @served _ user track =>
        cases hagree with
        | same =>
            rw [← track.id_stored]
            exact .served
    | @vetoed _ entry _ _ hbefore hlatest hentry =>
        cases hagree with
        | same =>
            rw [← play_stored entry] at hentry ⊢
            exact .vetoed hbefore hlatest hentry
        | vetoed _ _ =>
            rw [← play_redescribe m] at hentry ⊢
            exact .vetoed hbefore hlatest hentry

theorem PlayedStep.shows {played waiting after : List (EntryId × TrackId)}
    (h : PlayedStep id played waiting operation answer after)
    (hshows : m.Shows operation answer other) :
    PlayedStep id played waiting operation other after := by
  rcases hshows with rfl | hagree
  · exact h
  · cases h with
    | kept hother =>
        apply PlayedStep.kept
        rintro now user track rfl rfl
        rcases hagree.exists_served with ⟨asServed, rfl⟩
        exact hother now user asServed rfl rfl
    | @served _ _ track _ _ huser hwaiting =>
        cases hagree with
        | same =>
            rw [← track.id_stored] at hwaiting ⊢
            exact .served huser hwaiting

theorem PlayedStep.isPrefix {played waiting after : List (EntryId × TrackId)}
    (h : PlayedStep id played waiting operation answer after) : played <+: after := by
  cases h with
  | kept _ => exact List.prefix_refl _
  | served _ _ => exact List.prefix_append _ _

end Agreement

/-!
## Steps
-/

namespace Memory

variable {config : Config} {m changed : Memory} {operation : Operation}
  {answer : Except StoreError Reply} {room : RoomId} {state after : RoomState} {id : QueueId}

theorem RoomStep.history_step (h : RoomStep m room state operation answer after) :
    HistoryStep room (state.history.map TrackEntry.play) operation answer
      (after.history.map TrackEntry.play) := by
  cases h with
  | kept hquiet => exact .kept hquiet
  | joined =>
      apply HistoryStep.kept
      right
      constructor
      · intro now hoperation
        cases hoperation
      · intro user hoperation
        cases hoperation
  | served hturn hmember =>
      rw [turn, List.map_append]
      exact .served
  | vetoed hhistory hlatest =>
      rw [hhistory, List.map_append, List.map_append]
      exact .vetoed rfl hlatest rfl

theorem Step.historyOf_new (hstep : Step config m operation answer changed)
    (hroom : m.room? room = none) : changed.historyOf room = [] := by
  cases hafter : changed.room? room with
  | none => exact historyOf_none hafter
  | some state => rw [historyOf_eq hafter, (hstep.room_new hroom hafter).2]

theorem RoomStep.members (h : RoomStep m room state operation answer after) :
    state.members ⊆ after.members := by
  cases h with
  | joined => exact List.subset_append_left _ _
  | _ => exact List.Subset.refl _

theorem QueueStep.played_step {before after : List Item}
    (h : QueueStep id before operation answer after) :
    PlayedStep id ((heard before).map Item.key)
      ((waiting before).map Item.key) operation answer ((heard after).map Item.key) := by
  cases h with
  | kept hother hheard =>
      rw [hheard]
      exact .kept hother
  | @played _ _ track item rest _ huser hwaiting htrack hheard =>
      have hkey : item.key = (item.id, track.id) := by rw [htrack, Item.key]
      have hplay : [item.play].map Item.key = [(item.id, track.id)] :=
        congrArg List.singleton hkey
      rw [hheard, hwaiting, List.map_append, List.map_cons, hkey, hplay]
      exact .served huser rfl

theorem Step.exists_queue {queue : Queue} (hstep : Step config m operation answer changed)
    (h : m.Sound) (hqueue : m.queue? id = some queue) :
    ∃ queue, changed.queue? id = some queue := by
  rcases h.exists_room hqueue with ⟨state, hroom⟩
  rcases hstep.room_step hroom with ⟨after, hafter, hchange⟩
  have hmember : id.user ∈ state.members :=
    (h.mem_members_iff hroom).mpr (Option.isSome_of_eq_some hqueue)
  exact (hstep.sound h).exists_queue hafter (hchange.members hmember)

theorem Moves.history_step (hmoves : m.Moves config operation answer changed)
    (hroom : m.room? room = some state) :
    ∃ after, changed.room? room = some after ∧
      HistoryStep room (state.history.map TrackEntry.play) operation answer
        (after.history.map TrackEntry.play) := by
  cases hmoves with
  | done hstep hshows =>
      rcases hstep.room_step hroom with ⟨after, hafter, hchange⟩
      exact ⟨after, hafter, hchange.history_step.shows hshows⟩
  | failed hanswer => exact ⟨state, hroom, .kept (Or.inl ⟨_, hanswer⟩)⟩

theorem Moves.played_step (hmoves : m.Moves config operation answer changed) (h : m.Sound)
    (id : QueueId) :
    PlayedStep id ((heard (m.itemsOf id)).map Item.key)
      ((waiting (m.itemsOf id)).map Item.key) operation
      answer ((heard (changed.itemsOf id)).map Item.key) := by
  cases hmoves with
  | done hstep hshows => exact (hstep.queue_step h id).played_step.shows hshows
  | failed hanswer =>
      apply PlayedStep.kept
      intro now user track _ hserved
      cases hanswer.symm.trans hserved

theorem Moves.exists_queue {queue : Queue} (hmoves : m.Moves config operation answer changed)
    (h : m.Sound) (hqueue : m.queue? id = some queue) :
    ∃ queue, changed.queue? id = some queue := by
  cases hmoves with
  | done hstep _ => exact hstep.exists_queue h hqueue
  | failed _ => exact ⟨queue, hqueue⟩

/-- Whether histories show for each user what was played in their queue. -/
def Recounts (m : Memory) : Prop :=
  ∀ room state user, m.room? room = some state →
    servedFor user state.history = (heard (m.itemsOf ⟨room, user⟩)).map Item.track

theorem servedFor_append (user : UserId) (earlier : List TrackEntry) (latest : TrackEntry) :
    servedFor user (earlier ++ [latest]) =
      servedFor user earlier ++ if latest.user = user then [latest.track.id] else [] := by
  rw [servedFor, List.filter_append, List.map_append, servedFor]
  by_cases huser : latest.user = user <;> simp [huser]

theorem RoomStep.recounts {user : UserId} {before items : List Item}
    (h : RoomStep m room state operation answer after)
    (hqueue : QueueStep ⟨room, user⟩ before operation answer items)
    (hbefore : servedFor user state.history = (heard before).map Item.track) :
    servedFor user after.history = (heard items).map Item.track := by
  cases h with
  | kept hquiet =>
      cases hqueue with
      | kept _ hheard => rw [hheard, hbefore]
      | @played now _ _ _ _ _ huser =>
          rcases hquiet with ⟨error, herror⟩ | ⟨hother, -⟩
          · cases herror
          · exact absurd rfl (hother now)
  | joined =>
      cases hqueue with
      | kept _ hheard => exact hbefore.trans (by rw [hheard])
  | vetoed hhistory _ =>
      cases hqueue with
      | kept _ hheard =>
          rw [hheard, ← hbefore, hhistory, servedFor_append, servedFor_append]
          rfl
  | @served now index rotator found track hturn hmember =>
      have hhistory : (turn rotator (.served found.id track now) state).history =
          state.history ++ [.served found.id track now] := rfl
      rw [hhistory, servedFor_append, hbefore]
      cases hqueue with
      | kept hother hheard =>
          have hne : (TrackEntry.served found.id track now).user ≠ user :=
            hother now found track rfl rfl
          rw [if_neg hne, List.append_nil, hheard]
      | played huser hwaiting htrack hheard =>
          have heq : (TrackEntry.served found.id track now).user = user := huser
          rw [if_pos heq, hheard, List.map_append]
          exact congrArg (fun name => _ ++ [name]) htrack

theorem Step.recounts (hstep : Step config m operation answer changed) (h : m.Sound)
    (hrecounts : m.Recounts) : changed.Recounts := by
  intro room after user hafter
  have hqueue := hstep.queue_step h ⟨room, user⟩
  cases hroom : m.room? room with
  | some state =>
      rcases hstep.room_step hroom with ⟨found, hfound, hchange⟩
      obtain rfl : found = after := Option.some.inj (hfound.symm.trans hafter)
      exact hchange.recounts hqueue (hrecounts room state user hroom)
  | none =>
      -- In a new room nobody has a queue yet.
      rcases hstep.room_new hroom hafter with ⟨hmembers, hhistory⟩
      have hnone : changed.queue? ⟨room, user⟩ = none := by
        rw [← Option.not_isSome_iff_eq_none, ← (hstep.sound h).mem_members_iff hafter,
          hmembers]
        exact List.not_mem_nil
      rw [hhistory, itemsOf, hnone]
      rfl

theorem length_servedFor {members : List UserId} (hmembers : members.Nodup)
    {history : List TrackEntry} (hall : ∀ entry ∈ history, entry.user ∈ members) :
    history.length = (members.flatMap fun user => servedFor user history).length := by
  induction members generalizing history with
  | nil =>
      have hempty : history = [] := List.eq_nil_iff_forall_not_mem.mpr fun entry hentry =>
        List.not_mem_nil (hall entry hentry)
      rw [hempty]
      rfl
  | cons first rest ih =>
      rw [List.nodup_cons] at hmembers
      have hothers : ∀ entry ∈ history.filter (fun entry => !decide (entry.user = first)),
          entry.user ∈ rest := by
        intro entry hentry
        rcases List.mem_filter.mp hentry with ⟨hmem, hne⟩
        have hin := hall entry hmem
        rw [List.mem_cons] at hin
        exact hin.resolve_left (by simpa using hne)
      have hkept : ∀ user ∈ rest,
          servedFor user (history.filter fun entry => !decide (entry.user = first)) =
            servedFor user history := by
        intro user huser
        have hne : user ≠ first := fun heq => hmembers.1 (heq ▸ huser)
        rw [servedFor, List.filter_filter, servedFor]
        congr 1
        apply List.filter_congr
        intro entry _
        by_cases heq : entry.user = user <;> simp [heq, hne]
      have hrest := ih hmembers.2 hothers
      rw [List.flatMap_congr hkept] at hrest
      rw [List.length_eq_length_filter_add (fun entry => decide (entry.user = first)), hrest,
        List.flatMap_cons, List.length_append, servedFor, List.length_map]

theorem Recounts.mem_members (h : m.Recounts) (hsound : m.Sound)
    (hroom : m.room? room = some state) {entry : TrackEntry} (hentry : entry ∈ state.history) :
    entry.user ∈ state.members := by
  rw [hsound.mem_members_iff hroom]
  have hserved : entry.track.id ∈ servedFor entry.user state.history :=
    List.mem_map_of_mem (List.mem_filter.mpr ⟨hentry, decide_eq_true rfl⟩)
  rw [h room state entry.user hroom, itemsOf] at hserved
  cases hqueue : m.queue? ⟨room, entry.user⟩ with
  | some queue => rfl
  | none =>
      rw [hqueue] at hserved
      exact absurd hserved List.not_mem_nil

theorem Sound.map_id_users (h : m.Sound) (hroom : m.room? room = some state) :
    (state.members.filterMap m.user?).map User.id = state.members := by
  have hnames : (state.members.filterMap m.user?).map User.id = state.members.map fun name =>
      name := by
    apply Mirrors.map_filterMap
    intro name hname
    rcases h.exists_user hroom hname with ⟨found, hfound⟩
    exact ⟨found, hfound, (mem_of_user? hfound).2⟩
  rw [hnames, List.map_id']

end Memory

/-!
## Along runs
-/

theorem ids_of_keys (listed : List QueueTrack) :
    listed.map QueueTrack.id = (listed.map QueueTrack.key).map Prod.fst := by
  rw [List.map_map]
  rfl

theorem tracks_of_keys (listed : List QueueTrack) :
    listed.map (fun queued => queued.track.id) = (listed.map QueueTrack.key).map Prod.snd := by
  rw [List.map_map]
  rfl

theorem servedFor_of_plays {history others : List TrackEntry} (user : UserId)
    (h : others.map TrackEntry.play = history.map TrackEntry.play) :
    servedFor user others = servedFor user history := by
  have hplays : ∀ entries : List TrackEntry, servedFor user entries =
      ((entries.map TrackEntry.play).filter fun play => play.user = user).map Play.track := by
    intro entries
    rw [List.filter_map, List.map_map]
    rfl
  rw [hplays, hplays, h]

variable {config : Config} {operations : List Operation}
  {asked : Nat → Operation → Except StoreError Reply} {states : Nat → Memory} {i j : Nat}
  {operation : Operation} {room : RoomId} {id : QueueId}

/-- The played entries of a queue as they are listed, none if there is no such queue. -/
def listPlayed (asked : Nat → Operation → Except StoreError Reply) (i : Nat) (id : QueueId) :
    List QueueTrack :=
  match asked i (.tracks id .played) with
  | .ok (.tracks listed) => listed
  | _ => []

namespace Course

theorem asked_played (h : Course config operations asked states) {queue : Queue}
    (hqueue : (states i).queue? id = some queue) :
    asked i (.tracks id .played) = .ok (.tracks (listPlayed asked i id)) := by
  rcases h.exists_tracks hqueue .played with ⟨listed, hlisted, -⟩
  rw [listPlayed, hlisted]

theorem key_listPlayed (h : Course config operations asked states) (id : QueueId) :
    (listPlayed asked i id).map QueueTrack.key =
    (heard ((states i).itemsOf id)).map Item.key := by
  cases hqueue : (states i).queue? id with
  | some queue => exact h.key_listed (h.asked_played hqueue)
  | none =>
      rw [listPlayed, itemsOf, hqueue]
      split
      · rename_i listed hlisted
        rcases h.tracks hlisted with ⟨queue, hfound, -⟩
        cases hqueue.symm.trans hfound
      · rfl

theorem recounts (h : Course config operations asked states) (i : Nat) :
    (states i).Recounts := by
  have hboth : (states i).Sound ∧ (states i).Recounts := by
    refine h.invariant (P := fun m => m.Sound ∧ m.Recounts) ?_ ?_ i
    · refine ⟨sound_empty, ?_⟩
      intro room state user hroom
      cases hroom
    · rintro m changed operation reply hstep ⟨hsound, hrecounts⟩
      exact ⟨hstep.sound hsound, hstep.recounts hsound hrecounts⟩
  exact hboth.2

theorem sameStory (h : Course config operations asked states) {found : Room}
    (hasked : asked i (.room room) = .ok (.room found)) :
    ∃ users, asked i (.members room) = .ok (.users users) ∧ SameStory asked room users i := by
  have hsound := h.sound i
  have hrecounts := h.recounts i
  rcases h.room_iff.mp hasked with ⟨state, hroom, -⟩
  rcases h.exists_history hroom with ⟨history, hhistory, hplays⟩
  have hmembers : asked i (.members room) =
      .ok (.users (state.members.filterMap (states i).user?)) :=
    h.members_iff.mpr ⟨state, hroom, rfl⟩
  have hids := hsound.map_id_users hroom
  generalize state.members.filterMap (states i).user? = users at hmembers hids
  have htracks : ∀ name, servedFor name state.history =
      (listPlayed asked i ⟨room, name⟩).map fun queued => queued.track.id := by
    intro name
    rw [hrecounts room state name hroom, tracks_of_keys, h.key_listPlayed, List.map_map]
    rfl
  refine ⟨users, hmembers, history, fun name => listPlayed asked i ⟨room, name⟩,
    hhistory, ?_, ?_⟩
  · intro user huser
    have hmember : user.id ∈ state.members := hids ▸ List.mem_map_of_mem huser
    rcases hsound.exists_queue hroom hmember with ⟨queue, hqueue⟩
    refine ⟨h.asked_played hqueue, (servedFor_of_plays user.id hplays).trans (htracks user.id),
      ?_⟩
    -- The played entries are some of those in the queue.
    rw [ids_of_keys, h.key_listPlayed, itemsOf_eq hqueue, List.map_map]
    exact (hsound.holds hqueue).nodup.sublist (List.filter_sublist.map Item.id)
  · have hlength := length_servedFor (hsound.nodup_members hroom)
      (fun entry hentry => hrecounts.mem_members hsound hroom hentry)
    have hflat : (users.flatMap fun user => listPlayed asked i ⟨room, user.id⟩).map
        (fun queued => queued.track.id) =
          state.members.flatMap fun name => servedFor name state.history := by
      rw [List.map_flatMap, ← hids, List.flatMap_map]
      apply List.flatMap_congr
      intro user _
      exact (htracks user.id).symm
    have hsame := congrArg List.length hplays
    rw [List.length_map, List.length_map] at hsame
    rw [hsame, hlength, ← hflat, List.length_map]

theorem history_step (h : Course config operations asked states) {before : List TrackEntry}
    (hoperation : operations[i]? = some operation)
    (hasked : asked i (.history room) = .ok (.history before)) :
    ∃ after, asked (i + 1) (.history room) = .ok (.history after) ∧
      HistoryStep room (before.map TrackEntry.play) operation (asked i operation)
        (after.map TrackEntry.play) := by
  rcases h.history hasked with ⟨state, hroom, hbefore⟩
  rcases (h.moves hoperation).history_step hroom with ⟨changed, hchanged, hstep⟩
  rcases h.exists_history hchanged with ⟨after, hafter, hplays⟩
  refine ⟨after, hafter, ?_⟩
  rw [hbefore, hplays]
  exact hstep

theorem played_step (h : Course config operations asked states)
    {before waiting : List QueueTrack} (hoperation : operations[i]? = some operation)
    (hbefore : asked i (.tracks id .played) = .ok (.tracks before))
    (hwaiting : asked i (.tracks id .unplayed) = .ok (.tracks waiting)) :
    ∃ after, asked (i + 1) (.tracks id .played) = .ok (.tracks after) ∧
      PlayedStep id (before.map QueueTrack.key) (waiting.map QueueTrack.key) operation
        (asked i operation) (after.map QueueTrack.key) := by
  have hmoves := h.moves hoperation
  rcases h.tracks hbefore with ⟨queue, hqueue, -⟩
  rcases hmoves.exists_queue (h.sound i) hqueue with ⟨changed, hchanged⟩
  have hafter := h.asked_played hchanged
  refine ⟨_, hafter, ?_⟩
  rw [h.key_listed hbefore, h.key_listed hwaiting, h.key_listed hafter]
  exact hmoves.played_step (h.sound i) id

theorem lasting (h : Course config operations asked states) {before : List QueueTrack}
    (hle : i ≤ j) (hasked : asked i (.tracks id .played) = .ok (.tracks before)) :
    ∃ after, asked j (.tracks id .played) = .ok (.tracks after) ∧
      before.map QueueTrack.key <+: after.map QueueTrack.key := by
  induction j, hle using Nat.le_induction with
  | base => exact ⟨before, hasked, List.prefix_refl _⟩
  | succ j _ ih =>
      rcases ih with ⟨middle, hmiddle, hgrown⟩
      cases hoperation : operations[j]? with
      | none =>
          rcases h.tracks hmiddle with ⟨queue, hqueue, -⟩
          rw [← h.rests hoperation] at hqueue
          have hafter := h.asked_played hqueue
          refine ⟨_, hafter, ?_⟩
          rw [h.key_listed hafter, h.rests hoperation, ← h.key_listed hmiddle]
          exact hgrown
      | some operation =>
          rcases h.tracks hmiddle with ⟨queue, hqueue, -⟩
          rcases h.exists_tracks hqueue .unplayed with ⟨waiting, hwaiting, -⟩
          rcases h.played_step hoperation hmiddle hwaiting with ⟨after, hafter, hstep⟩
          exact ⟨after, hafter, hgrown.trans hstep.isPrefix⟩

theorem once (h : Course config operations asked states) {entry : EntryId}
    (hi : PlaysAt asked id entry i) (hj : PlaysAt asked id entry j) : i = j := by
  have hearlier : ∀ {i j : Nat}, PlaysAt asked id entry i → PlaysAt asked id entry j →
      ¬i < j := by
    rintro i j ⟨_, after, -, hafter, -, hplayed⟩ ⟨before, _, hbefore, -, hnot, -⟩ hlt
    rcases h.lasting hlt hafter with ⟨listed, hlisted, hgrown⟩
    rw [hbefore] at hlisted
    cases hlisted
    rw [ids_of_keys] at hplayed hnot
    exact hnot ((hgrown.map Prod.fst).subset hplayed)
  exact Nat.le_antisymm (Nat.not_lt.mp (hearlier hj hi)) (Nat.not_lt.mp (hearlier hi hj))

theorem telling (h : Course config operations asked states) : Telling operations asked where
  same := h.sameStory
  history := h.history_step
  played := h.played_step
  lasting := h.lasting
  once := h.once

end Course

/-- Whatever is performed, both stores tell the same story in histories and in queues. -/
theorem same_story (config : Config) (operations : List Operation) :
    Telling operations (ask config Memory.empty operations) ∧
      Telling operations (ask config Database.empty operations) :=
  ⟨(course_memory config operations).telling, (course_database config operations).telling⟩

def vetoedOnce : List Operation :=
  [.createUser ⟨"ann"⟩ "Ann", .createRoom "Den" .roundRobin (fun _ => ⟨"DEN"⟩) 0,
    .join ⟨"DEN"⟩ ⟨"ann"⟩, .addTrack ⟨⟨"DEN"⟩, ⟨"ann"⟩⟩ { id := ⟨"t"⟩, name := "Demo" } none
      ⟨"two"⟩,
    .addTrack ⟨⟨"DEN"⟩, ⟨"ann"⟩⟩ { id := ⟨"s"⟩, name := "Single" } none ⟨"one"⟩,
    .nextTrack ⟨"DEN"⟩ ⟨"now", "now"⟩, .markVetoed ⟨"DEN"⟩ ⟨"ann"⟩,
    .nextTrack ⟨"DEN"⟩ ⟨"now", "now"⟩]

/-- Both tracks were played, and the history shows both, the first one as vetoed. -/
theorem same_story_vetoedOnce :
    (Telling vetoedOnce (ask {} Memory.empty vetoedOnce) ∧
      Telling vetoedOnce (ask {} Database.empty vetoedOnce)) ∧
    ask {} Memory.empty vetoedOnce 8 (.history ⟨"DEN"⟩) =
      .ok (.history
        [(TrackEntry.served ⟨"ann"⟩ { id := ⟨"s"⟩, name := "Single" } ⟨"now", "now"⟩).veto
          ⟨"ann"⟩,
        .served ⟨"ann"⟩ { id := ⟨"t"⟩, name := "Demo" } ⟨"now", "now"⟩]) ∧
    ask {} Memory.empty vetoedOnce 8 (.tracks ⟨⟨"DEN"⟩, ⟨"ann"⟩⟩ .played) =
      .ok (.tracks [⟨⟨"one"⟩, true, { id := ⟨"s"⟩, name := "Single" }⟩,
        ⟨⟨"two"⟩, true, { id := ⟨"t"⟩, name := "Demo" }⟩]) := by
  refine ⟨same_story {} vetoedOnce, ?_, ?_⟩
  · decide +kernel
  · decide +kernel

end Jukebox
