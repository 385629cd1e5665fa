import Mathlib.Data.List.ReduceOption
import Jukebox.Proofs.Party.Attending

/-!
# Everyone is told what happens in their room

A request that is answered tells what it did, and one that fails tells nothing, save for a veto
that went through without a replacement. Whatever was asked of a party before, what was told in
a room can be read off its history and its members.
-/

namespace Jukebox
namespace Party

open Store Memory

/-!
## What is told
-/

namespace Request

def tells : Request → Response → List Event
  | .join id _, .reply (.user user) => [.userJoined id user]
  | .addTrack queue _ _ _, _ => [.queueUpdated queue.room queue.user]
  | .removeTrack queue _, _ => [.queueUpdated queue.room queue.user]
  | .nextTrack id _, .reply (.served user track) => [.nowPlaying id user track]
  | .veto id user _, .replaced outcome =>
    [.vetoed id user outcome.vetoed, .nowPlaying id outcome.user outcome.track]
  | _, _ => []

/-- Whose queue in a room a request adds a track to or removes one from, if it goes through. -/
def updated? (id : RoomId) : Request → Except PartyError Response → Option UserId
  | .addTrack queue _ _ _, .ok _ => if queue.room = id then some queue.user else none
  | .removeTrack queue _, .ok _ => if queue.room = id then some queue.user else none
  | _, _ => none

end Request

/-- Whether what was told in a room is what its members and its history say. -/
structure RoomTold (room : RoomId) (users : List User) (history : List TrackEntry)
    (events : List Event) : Prop where
  joined : events.filterMap (Event.joined? room) = users
  players : ∀ entry ∈ history, entry.user ∈ users.map User.id
  vetoes : ∀ entry ∈ history, entry.vetoed = entry.vetoedBy.isSome
  tracks : ∃ name : UserId → String, (∀ user ∈ users, name user.id = user.displayName) ∧
    events.filter (Event.ofTracks room) = history.flatMap (TrackEntry.announced room name)

section Requests

variable {σ : Type} [Store σ]

def reached (start : Party σ) (requests : List Request) : Party σ :=
  (runAll start requests).2

/-- What is told during some requests, and by one more. -/
structure Broadcasts (start : Party σ) (requests : List Request) : Prop where
  rooms : ∀ room,
    (∃ error, (run (Party.room room) (reached start requests)).1 = .error error ∧
      ∀ event ∈ (reached start requests).events, event.room ≠ room) ∨
    ∃ users entries, (run (members room) (reached start requests)).1 = .ok users ∧
      (run (history room) (reached start requests)).1 = .ok entries ∧
      RoomTold room users entries (reached start requests).events
  updated : ∀ room, (reached start requests).events.filterMap (Event.updated? room) =
    (List.zipWith (Request.updated? room) requests (runAll start requests).1).reduceOption
  answered : ∀ {request : Request} {response : Response},
    (step (reached start requests) request).1 = .ok response →
    (step (reached start requests) request).2.events =
      (reached start requests).events ++ request.tells response
  /-- A veto may go through and find no replacement. -/
  failed : ∀ {request : Request} {error : PartyError},
    (step (reached start requests) request).1 = .error error →
    error ≠ .noTracksLeft ∧
        (step (reached start requests) request).2.events = (reached start requests).events ∨
      error = .noTracksLeft ∧
        ∃ room user now entry, request = .veto room user now ∧
          (step (reached start requests) request).2.events =
            (reached start requests).events ++ [.vetoed room user entry]

end Requests

/-!
## One request
-/

/-- What a request can tell, given its answer. -/
inductive News : Request → Except PartyError Response → List Event → Prop
  | answered {request : Request} {response : Response} :
    News request (.ok response) (request.tells response)
  | failed {request : Request} {error : PartyError} (herror : error ≠ .noTracksLeft) :
    News request (.error error) []
  | vetoed {room : RoomId} {user : UserId} {now : Timestamp} {entry : TrackEntry} :
    News (.veto room user now) (.error .noTracksLeft) [.vetoed room user entry]

section Handling

variable {σ α : Type} {shown : Track → Track} {stands : Memory → σ → Prop} {config : Config}
  {catalog : Catalog} {m : Memory} {told pending : List Event} {party : Party σ}
  {room : RoomId} {user : UserId} {now : Timestamp}

/-- Whether a request ended with a memory that holds what was told then. -/
def Handled (shown : Track → Track) (stands : Memory → σ → Prop) (config : Config)
    (catalog : Catalog) (told : List Event) (request : Request)
    (outcome : Except PartyError Response × Party σ) : Prop :=
  ∃ m news, News request outcome.1 news ∧
    Attends shown stands config catalog m (told ++ news) [] outcome.2

theorem Attends.failed {request : Request} {error : PartyError}
    (herror : error ≠ .noTracksLeft) {after : Party σ}
    (h : Attends shown stands config catalog m told [] after) :
    Handled shown stands config catalog told request (.error error, after) := by
  refine ⟨m, [], .failed herror, ?_⟩
  rw [List.append_nil]
  exact h

variable [Store σ]

theorem Attends.handle_plain (h : Attends shown stands config catalog m told [] party)
    (hshadows : Shadows shown config stands) (operation : Operation) {action : Action σ α}
    {reply : α → Reply} {request : Request} {respond : α → Response}
    (hperform : Store.perform config operation = reply <$> action)
    (hqueued : ∀ answer, operation.queued answer = [])
    (huntold : ∀ value, m.tells operation (.ok (reply value)) = [])
    (hquiet : ∀ value, request.tells (respond value) = []) :
    Handled shown stands config catalog told request
      (run (respond <$> onStore action) party) := by
  have hasked := h.ask hshadows hperform (by simp [hqueued])
  rw [run_map]
  generalize run (onStore action) party = outcome at hasked ⊢
  cases hasked with
  | @answered value _ changed after hstep hfound hafter =>
      have hnews : News request (.ok (respond value)) (request.tells (respond value)) :=
        .answered
      rw [huntold] at hafter
      rw [hquiet] at hnews
      refine ⟨changed, [], hnews, ?_⟩
      rw [List.append_nil]
      exact hafter
  | failed hmet hafter => exact hafter.failed (by simp)

theorem Attends.handle_createRoom (h : Attends shown stands config catalog m told [] party)
    (hshadows : Shadows shown config stands) (name : String) (kind : RotatorKind)
    (codes : Nat → RoomId) (seed : Nat) :
    Handled shown stands config catalog told (.createRoom name kind codes seed)
      (step party (.createRoom name kind codes seed)) := by
  have hasked : Asked shown stands config catalog m told [] (.createRoom name kind codes seed)
      Reply.room (run (onStore (Store.createRoom config name kind codes seed)) party) :=
    h.ask hshadows rfl (by simp [Operation.queued])
  simp only [step, perform, createRoom, run_map, run_bind, run_get, h.config_eq]
  generalize run (onStore (Store.createRoom config name kind codes seed)) party =
    outcome at hasked ⊢
  cases hasked with
  | @answered found _ changed after hstep hfound hafter =>
      simp only [run_writeLog, run_pure]
      refine ⟨changed, [], .answered, ?_⟩
      rw [List.append_nil]
      exact hafter.logging _ _
  | failed hmet hafter => exact hafter.failed (by simp)

theorem Attends.handle_join (h : Attends shown stands config catalog m told [] party)
    (hshadows : Shadows shown config stands) (room : RoomId) (user : UserId) :
    Handled shown stands config catalog told (.join room user)
      (step party (.join room user)) := by
  have hasked : Asked shown stands config catalog m told [] (.join room user)
      (fun _ => Reply.done) (run (onStore (Store.join room user)) party) :=
    h.ask hshadows rfl (by simp [Operation.queued])
  simp only [step, perform, join, run_map, run_bind]
  generalize run (onStore (Store.join room user)) party = outcome at hasked ⊢
  cases hasked with
  | failed hmet hafter => exact hafter.failed (by simp)
  | @answered _ _ changed joined hstep hfound hafter =>
      have huser : ∃ found, m.user? user = some found := by
        cases hstep with
        | joined _ huser _ => exact ⟨_, huser⟩
      rcases huser with ⟨found, huser⟩
      have htold : m.tells (.join room user) (.ok .done) = [.userJoined room found] := by
        rw [Memory.tells, huser]
        rfl
      rw [htold] at hafter
      have hlooked : Asked shown stands config catalog changed told [.userJoined room found]
          (.user user) Reply.user (run (onStore (Store.user user)) joined) :=
        hafter.ask hshadows rfl (by simp [Operation.queued])
      -- Whoever joined was found before, so this look-up cannot fail and leave the joining
      -- untold.
      simp only
      generalize run (onStore (Store.user user)) joined = outcome at hlooked ⊢
      cases hlooked with
      | @answered seen _ same last hlook hseen hlast =>
          have hfound : changed.user? user = some found := hstep.user?_kept huser
          have hsame : seen = found ∧ same = changed := by
            cases hlook with
            | userFound hagain =>
                cases hseen
                exact ⟨Option.some.inj (hagain.symm.trans hfound), rfl⟩
          rcases hsame with ⟨rfl, rfl⟩
          simp only [run_writeLog, run_tell, run_pure]
          refine ⟨same, [.userJoined room seen], .answered, ?_⟩
          exact (hlast.logging _ _).telling
      | failed hmet _ =>
          cases hmet with
          | failed hlook _ =>
              cases hlook with
              | userMissing hnone => cases hnone.symm.trans (hstep.user?_kept huser)
          | refused hrefusable => exact absurd hrefusable (not_refusable_of_lookUp rfl)

inductive Served (shown : Track → Track) (stands : Memory → σ → Prop) (config : Config)
    (catalog : Catalog) (m : Memory) (told : List Event) (room : RoomId) (now : Timestamp) :
    Except PartyError (User × Track) × Party σ → Prop
  | served {user : User} {track : Track} {changed : Memory} {after : Party σ}
    (hafter : Attends shown stands config catalog changed
      (told ++ [.nowPlaying room user track]) [] after) :
      Served shown stands config catalog m told room now (.ok (user, track), after)
  | failed {error : StoreError} {after : Party σ}
    (hmet : m.Met shown config (.nextTrack room now) (.error error) m)
    (hafter : Attends shown stands config catalog m told [] after) :
    Served shown stands config catalog m told room now (.error (.store error), after)

theorem Attends.nextTrack (h : Attends shown stands config catalog m told [] party)
    (hshadows : Shadows shown config stands) (room : RoomId) (now : Timestamp) :
    Served shown stands config catalog m told room now
      (run (Party.nextTrack room now) party) := by
  have hasked : Asked shown stands config catalog m told [] (.nextTrack room now)
      (fun served : User × Track => Reply.served served.1 served.2)
      (run (onStore (Store.nextTrack room now)) party) :=
    h.ask hshadows rfl (by simp [Operation.queued])
  simp only [Party.nextTrack, run_bind]
  generalize run (onStore (Store.nextTrack room now)) party = outcome at hasked ⊢
  cases hasked with
  | answered _ _ hafter =>
      simp only [run_writeLog, run_tell, run_pure]
      exact .served (hafter.logging _ _).telling
  | failed hmet hafter => exact .failed hmet hafter

theorem Attends.handle_nextTrack (h : Attends shown stands config catalog m told [] party)
    (hshadows : Shadows shown config stands) (room : RoomId) (now : Timestamp) :
    Handled shown stands config catalog told (.nextTrack room now)
      (step party (.nextTrack room now)) := by
  have hserved := h.nextTrack hshadows room now
  simp only [step, perform, run_map]
  generalize run (Party.nextTrack room now) party = outcome at hserved ⊢
  cases hserved with
  | @served user track changed after hafter =>
      refine ⟨changed, [.nowPlaying room user track], .answered, ?_⟩
      exact hafter
  | failed hmet hafter => exact hafter.failed (by simp)

theorem eq_exhausted_of_met {state : RoomState} (hroom : m.room? room = some state)
    {error : StoreError} (hmet : m.Met shown config (.nextTrack room now) (.error error) m) :
    error = .exhausted := by
  cases hmet with
  | failed hstep hother =>
      rw [hother rfl]
      cases hstep with
      | nextNoRoom hnone => cases hnone.symm.trans hroom
      | exhausted => rfl
  | refused hrefusable => exact absurd rfl hrefusable

theorem Attends.handle_veto (h : Attends shown stands config catalog m told [] party)
    (hshadows : Shadows shown config stands) (room : RoomId) (user : UserId)
    (now : Timestamp) :
    Handled shown stands config catalog told (.veto room user now)
      (step party (.veto room user now)) := by
  have hasked : Asked shown stands config catalog m told [] (.markVetoed room user)
      Reply.vetoed (run (onStore (Store.markVetoed config room user)) party) :=
    h.ask hshadows rfl (by simp [Operation.queued])
  simp only [step, perform, veto, run_map, run_bind, run_get, h.config_eq]
  generalize run (onStore (Store.markVetoed config room user)) party = outcome at hasked ⊢
  cases hasked with
  | failed hmet hafter => exact hafter.failed (by simp)
  | @answered entry _ changed vetoed hstep hfound hafter =>
      have hold : ∃ state, m.room? room = some state := by
        cases hstep with
        | vetoed _ hroom _ _ => exact ⟨_, hroom⟩
      rcases hold with ⟨before, hold⟩
      rcases hstep.room_step hold with ⟨state, hroom, -⟩
      simp only [run_writeLog, run_tell, run_replacement]
      -- The veto is told before a replacement is asked for, so it stays told if there is none.
      generalize hlog : Party.logging _ _ vetoed = noted
      have hnoted : Attends shown stands config catalog changed told [.vetoed room user entry]
          noted :=
        hlog ▸ hafter.logging _ _
      have hserved := hnoted.telling.nextTrack hshadows room now
      generalize run (Party.nextTrack room now) (noted.telling (.vetoed room user entry)) =
        outcome at hserved ⊢
      cases hserved with
      | @served player track last done hlast =>
          refine ⟨last, [.vetoed room user entry, .nowPlaying room player track],
            .answered, ?_⟩
          rw [List.append_assoc] at hlast
          exact hlast
      | failed hmet hlast =>
          obtain rfl := eq_exhausted_of_met hroom hmet
          exact ⟨changed, [.vetoed room user entry], .vetoed, hlast⟩

theorem Attends.handle_addTrack (h : Attends shown stands config catalog m told [] party)
    (hshadows : Shadows shown config stands) (queue : QueueId) (id : TrackId)
    (after : Option EntryId) (entry : EntryId) :
    Handled shown stands config catalog told (.addTrack queue id after entry)
      (step party (.addTrack queue id after entry)) := by
  simp only [step, perform, addTrack, run_map, run_bind, run_onCatalog, h.catalog_eq]
  cases hfound : catalog.track id with
  | error error => exact h.failed (by simp)
  | ok track =>
      have hoffered : ∀ answer,
          ∀ queued ∈ (Operation.addTrack queue track after entry).queued answer,
          queued ∈ catalog.offers := by
        intro answer queued hqueued
        cases answer with
        | error error => cases hqueued
        | ok reply =>
            rw [List.mem_singleton.mp hqueued]
            exact Catalog.mem_offers hfound
      have hasked : Asked shown stands config catalog m told []
          (.addTrack queue track after entry) (fun _ => Reply.entry entry)
          (run (onStore (Store.addTrack queue track after entry)) party) :=
        h.ask hshadows rfl hoffered
      simp only [Except.mapError]
      generalize run (onStore (Store.addTrack queue track after entry)) party =
        outcome at hasked ⊢
      cases hasked with
      | @answered _ _ changed done hstep hfound hafter =>
          simp only [run_tell, run_pure]
          refine ⟨changed, [.queueUpdated queue.room queue.user], .answered, ?_⟩
          exact hafter.telling
      | failed hmet hafter => exact hafter.failed (by simp)

theorem Attends.handle_removeTrack (h : Attends shown stands config catalog m told [] party)
    (hshadows : Shadows shown config stands) (queue : QueueId) (entry : EntryId) :
    Handled shown stands config catalog told (.removeTrack queue entry)
      (step party (.removeTrack queue entry)) := by
  have hasked : Asked shown stands config catalog m told [] (.removeTrack queue entry)
      (fun _ => Reply.done) (run (onStore (Store.removeTrack queue entry)) party) :=
    h.ask hshadows rfl (by simp [Operation.queued])
  simp only [step, perform, removeTrack, run_map, run_bind]
  generalize run (onStore (Store.removeTrack queue entry)) party = outcome at hasked ⊢
  cases hasked with
  | @answered _ _ changed done hstep hfound hafter =>
      simp only [run_tell]
      refine ⟨changed, [.queueUpdated queue.room queue.user], .answered, ?_⟩
      exact hafter.telling
  | failed hmet hafter => exact hafter.failed (by simp)

theorem Attends.handle_searchTracks (h : Attends shown stands config catalog m told [] party)
    (query : String) :
    Handled shown stands config catalog told (.searchTracks query)
      (step party (.searchTracks query)) := by
  refine ⟨m, [], .answered, ?_⟩
  rw [List.append_nil]
  exact h

theorem Attends.handle (h : Attends shown stands config catalog m told [] party)
    (hshadows : Shadows shown config stands) (request : Request) :
    Handled shown stands config catalog told request (step party request) := by
  cases request with
  | register id name =>
      exact h.handle_plain hshadows (.createUser id name) rfl (fun _ => rfl) (fun _ => rfl)
        fun _ => rfl
  | createRoom name kind codes seed => exact h.handle_createRoom hshadows name kind codes seed
  | join room user => exact h.handle_join hshadows room user
  | addTrack queue track after entry =>
      exact h.handle_addTrack hshadows queue track after entry
  | removeTrack queue entry => exact h.handle_removeTrack hshadows queue entry
  | nextTrack room now => exact h.handle_nextTrack hshadows room now
  | veto room user now => exact h.handle_veto hshadows room user now
  | room id =>
      exact h.handle_plain hshadows (.room id) rfl (fun _ => rfl) (fun _ => rfl) fun _ => rfl
  | members room =>
      exact h.handle_plain hshadows (.members room) rfl (fun _ => rfl) (fun _ => rfl)
        fun _ => rfl
  | history room =>
      exact h.handle_plain hshadows (.history room) rfl (fun _ => rfl) (fun _ => rfl)
        fun _ => rfl
  | searchRooms query =>
      exact h.handle_plain hshadows (.searchRooms query) rfl (fun _ => rfl) (fun _ => rfl)
        fun _ => rfl
  | listTracks queue filter =>
      exact h.handle_plain hshadows (.tracks queue filter) rfl (fun _ => rfl) (fun _ => rfl)
        fun _ => rfl
  | searchTracks query => exact h.handle_searchTracks query

theorem updated_tells (request : Request) (response : Response) (room : RoomId) :
    (request.tells response).filterMap (Event.updated? room) =
      (request.updated? room (.ok response)).toList := by
  cases request with
  | addTrack queue track after entry =>
      by_cases hroom : queue.room = room
        <;> simp [Request.tells, Request.updated?, Event.updated?, hroom]
  | removeTrack queue entry =>
      by_cases hroom : queue.room = room
        <;> simp [Request.tells, Request.updated?, Event.updated?, hroom]
  | _ => rcases response with reply | outcome | tracks <;> first | rfl | (cases reply <;> rfl)

theorem News.updated {request : Request} {answer : Except PartyError Response}
    {news : List Event} (h : News request answer news) (room : RoomId) :
    news.filterMap (Event.updated? room) = (request.updated? room answer).toList := by
  cases h with
  | answered => exact updated_tells _ _ room
  | failed herror => cases request <;> rfl
  | vetoed => rfl

/-!
## What the store shows
-/

theorem Attends.room_missing (h : Attends shown stands config catalog m told [] party)
    (hshadows : Shadows shown config stands) (hroom : m.room? room = none) :
    ∃ error, (run (Party.room room) party).1 = .error error := by
  have hasked : Asked shown stands config catalog m told [] (.room room) Reply.room
      (run (Party.room room) party) := h.ask hshadows rfl (by simp [Operation.queued])
  generalize run (Party.room room) party = outcome at hasked ⊢
  cases hasked with
  | answered hstep _ _ =>
      cases hstep with
      | roomFound hfound => cases hroom.symm.trans hfound
  | failed _ _ => exact ⟨_, rfl⟩

theorem Attends.members_eq (h : Attends shown stands config catalog m told [] party)
    (hshadows : Shadows shown config stands) {state : RoomState}
    (hroom : m.room? room = some state) :
    (run (members room) party).1 = .ok ((m.membersOf room).filterMap m.user?) := by
  have hasked : Asked shown stands config catalog m told [] (.members room) Reply.users
      (run (members room) party) := h.ask hshadows rfl (by simp [Operation.queued])
  rw [membersOf_eq hroom]
  generalize run (members room) party = outcome at hasked ⊢
  cases hasked with
  | answered hstep hshown _ =>
      cases hstep with
      | membersListed hfound =>
          cases hshown
          rw [Option.some.inj (hfound.symm.trans hroom)]
  | failed hmet _ =>
      cases hmet with
      | failed hstep _ =>
          cases hstep with
          | membersNoRoom hnone => cases hnone.symm.trans hroom
      | refused hrefusable => exact absurd hrefusable (not_refusable_of_lookUp rfl)

theorem Attends.history_eq (h : Attends shown stands config catalog m told [] party)
    (hshadows : Shadows shown config stands) {state : RoomState}
    (hroom : m.room? room = some state) :
    (run (history room) party).1 = .ok
    ((m.historyOf room).map (TrackEntry.mapTrack shown)) := by
  have hasked : Asked shown stands config catalog m told [] (.history room) Reply.history
      (run (history room) party) := h.ask hshadows rfl (by simp [Operation.queued])
  rw [historyOf_eq hroom]
  generalize run (history room) party = outcome at hasked ⊢
  cases hasked with
  | answered hstep hshown _ =>
      cases hstep with
      | historyListed hfound =>
          cases hshown
          rw [Option.some.inj (hfound.symm.trans hroom)]
  | failed hmet _ =>
      cases hmet with
      | failed hstep _ =>
          cases hstep with
          | historyNoRoom hnone => cases hnone.symm.trans hroom
      | refused hrefusable => exact absurd hrefusable (not_refusable_of_lookUp rfl)

theorem roomTold_of_retold {events : List Event} (h : m.Retold shown catalog events)
    {state : RoomState} (hroom : m.room? room = some state) :
    RoomTold room ((m.membersOf room).filterMap m.user?)
      ((m.historyOf room).map (TrackEntry.mapTrack shown)) events where
  joined := h.joined room
  players := by
    intro entry hentry
    rcases List.mem_map.mp hentry with ⟨kept, hkept, rfl⟩
    rw [historyOf_eq hroom] at hkept
    rcases h.exists_player hroom hkept with ⟨user, huser⟩
    have hmember := h.recounts.mem_members h.sound hroom hkept
    rw [membersOf_eq hroom]
    exact List.mem_map.mpr ⟨user, List.mem_filterMap.mpr ⟨_, hmember, huser⟩,
      (mem_of_user? huser).2⟩
  vetoes := by
    intro entry hentry
    rcases List.mem_map.mp hentry with ⟨kept, hkept, rfl⟩
    exact h.named room kept hkept
  tracks := by
    refine ⟨m.nameOf, ?_, ?_⟩
    · intro user huser
      rcases List.mem_filterMap.mp huser with ⟨id, -, hfound⟩
      rw [(mem_of_user? hfound).2]
      exact nameOf_eq hfound
    · rw [h.told room, List.map_flatMap, List.flatMap_map]
      simp only [announced_mapTrack]

end Handling

/-!
## Along runs
-/

section Runs

variable {σ : Type} [Store σ] {shown : Track → Track} {stands : Memory → σ → Prop}
    {config : Config}
  {catalog : Catalog} {start : Party σ}

theorem runAll_concat (requests : List Request) (request : Request) (party : Party σ) :
    runAll party (requests ++ [request]) =
      ((runAll party requests).1 ++ [(step (reached party requests) request).1],
        (step (reached party requests) request).2) := by
  induction requests generalizing party with
  | nil => rfl
  | cons first rest ih => simp [runAll, reached, ih]

theorem length_runAll (requests : List Request) (party : Party σ) :
    (runAll party requests).1.length = requests.length := by
  induction requests generalizing party with
  | nil => rfl
  | cons first rest ih => exact congrArg Nat.succ (ih _)

theorem reached_concat (requests : List Request) (request : Request) :
    reached start (requests ++ [request]) = (step (reached start requests) request).2 := by
  rw [reached, runAll_concat]

theorem exists_attended (hshadows : Shadows shown config stands)
    (hstart : Attends shown stands config catalog Memory.empty [] [] start)
    (requests : List Request) :
    ∃ m, Attends shown stands config catalog m (reached start requests).events []
      (reached start requests) := by
  induction requests using List.reverseRecOn with
  | nil =>
      have hevents : (reached start []).events = [] := hstart.events_eq
      rw [hevents]
      exact ⟨_, hstart⟩
  | append_singleton before request ih =>
      rcases ih with ⟨m, hattends⟩
      rcases hattends.handle hshadows request with ⟨changed, news, -, hafter⟩
      rw [reached_concat, hafter.events_eq]
      exact ⟨changed, hafter⟩

theorem exists_news (hshadows : Shadows shown config stands)
    (hstart : Attends shown stands config catalog Memory.empty [] [] start)
    (requests : List Request) (request : Request) :
    ∃ news, News request (step (reached start requests) request).1 news ∧
      (step (reached start requests) request).2.events = (reached start requests).events ++
        news := by
  rcases exists_attended hshadows hstart requests with ⟨m, hattends⟩
  rcases hattends.handle hshadows request with ⟨changed, news, hnews, hafter⟩
  exact ⟨news, hnews, hafter.events_eq⟩

theorem updated_after (hshadows : Shadows shown config stands)
    (hstart : Attends shown stands config catalog Memory.empty [] [] start)
    (requests : List Request) (room : RoomId) :
    (reached start requests).events.filterMap (Event.updated? room) =
      (List.zipWith (Request.updated? room) requests
        (runAll start requests).1).reduceOption := by
  induction requests using List.reverseRecOn with
  | nil =>
      have hevents : (reached start []).events = [] := hstart.events_eq
      rw [hevents]
      rfl
  | append_singleton before request ih =>
      rcases exists_news hshadows hstart before request with ⟨news, hnews, hevents⟩
      rw [reached_concat, hevents, List.filterMap_append, ih, hnews.updated, runAll_concat,
        List.zipWith_append (length_runAll before start).symm, List.zipWith_cons_cons,
        List.zipWith_nil_left, List.reduceOption_append, List.reduceOption_singleton]

theorem rooms_after (hshadows : Shadows shown config stands)
    (hstart : Attends shown stands config catalog Memory.empty [] [] start)
    (requests : List Request) (room : RoomId) :
    (∃ error, (run (Party.room room) (reached start requests)).1 = .error error ∧
      ∀ event ∈ (reached start requests).events, event.room ≠ room) ∨
    ∃ users entries, (run (members room) (reached start requests)).1 = .ok users ∧
      (run (history room) (reached start requests)).1 = .ok entries ∧
      RoomTold room users entries (reached start requests).events := by
  rcases exists_attended hshadows hstart requests with ⟨m, hattends⟩
  have hretold := hattends.retold
  rw [List.append_nil] at hretold
  cases hroom : m.room? room with
  | none =>
      left
      rcases hattends.room_missing hshadows hroom with ⟨error, herror⟩
      refine ⟨error, herror, ?_⟩
      rintro event hevent rfl
      have hsome := hretold.rooms event hevent
      rw [hroom] at hsome
      cases hsome
  | some state =>
      right
      exact ⟨_, _, hattends.members_eq hshadows hroom, hattends.history_eq hshadows hroom,
        roomTold_of_retold hretold hroom⟩

theorem broadcasts (hshadows : Shadows shown config stands)
    (hstart : Attends shown stands config catalog Memory.empty [] [] start)
    (requests : List Request) : Broadcasts start requests where
  rooms := rooms_after hshadows hstart requests
  updated := updated_after hshadows hstart requests
  answered := by
    intro request response hanswer
    rcases exists_news hshadows hstart requests request with ⟨news, hnews, hevents⟩
    rw [hanswer] at hnews
    cases hnews with
    | answered => exact hevents
  failed := by
    intro request error hanswer
    rcases exists_news hshadows hstart requests request with ⟨news, hnews, hevents⟩
    rw [hanswer] at hnews
    cases hnews with
    | failed herror =>
        rw [List.append_nil] at hevents
        exact Or.inl ⟨herror, hevents⟩
    | @vetoed room user now entry => exact Or.inr ⟨rfl, room, user, now, entry, rfl, hevents⟩

end Runs

/-- At every party, with either kind of store, what is told agrees with what is stored. -/
theorem broadcasts_agree (config : Config) (catalog : Catalog) (requests : List Request) :
    Broadcasts (start Memory.empty catalog config) requests ∧
      Broadcasts (start Database.empty catalog config) requests := by
  constructor
  · exact broadcasts (shadows_memory config) ⟨rfl, rfl, rfl, rfl, retold_empty id catalog⟩
      requests
  · exact broadcasts (shadows_database config)
      ⟨rfl, rfl, rfl, ⟨Tables.empty, rfl, mirrors_empty⟩, retold_empty Track.stored catalog⟩
        requests

def lonelyVeto : List Request :=
  [.register ⟨"ann"⟩ "Ann", .createRoom "Den" .roundRobin (fun _ => ⟨"DEN"⟩) 0,
    .join ⟨"DEN"⟩ ⟨"ann"⟩, .addTrack ⟨⟨"DEN"⟩, ⟨"ann"⟩⟩ ⟨"t"⟩ none ⟨"one"⟩,
    .nextTrack ⟨"DEN"⟩ ⟨"now", "now"⟩, .veto ⟨"DEN"⟩ ⟨"ann"⟩ ⟨"now", "now"⟩,
    .nextTrack ⟨"DEN"⟩ ⟨"now", "now"⟩]

def oneTrack : Catalog :=
  ⟨[{ id := ⟨"t"⟩, name := "Demo" }]⟩

/-- The veto is told, although there is no replacement. -/
theorem broadcasts_agree_lonelyVeto :
    (Broadcasts (start Memory.empty oneTrack {}) lonelyVeto ∧
      Broadcasts (start Database.empty oneTrack {}) lonelyVeto) ∧
    (runAll (start Memory.empty oneTrack {}) lonelyVeto).1.drop 5 =
      [.error .noTracksLeft, .error (.store .exhausted)] ∧
    (reached (start Memory.empty oneTrack {}) lonelyVeto).events =
      [.userJoined ⟨"DEN"⟩ ⟨⟨"ann"⟩, "Ann"⟩, .queueUpdated ⟨"DEN"⟩ ⟨"ann"⟩,
        .nowPlaying ⟨"DEN"⟩ ⟨⟨"ann"⟩, "Ann"⟩ { id := ⟨"t"⟩, name := "Demo" },
        .vetoed ⟨"DEN"⟩ ⟨"ann"⟩
          ((TrackEntry.served ⟨"ann"⟩ { id := ⟨"t"⟩, name := "Demo" } ⟨"now", "now"⟩).veto
            ⟨"ann"⟩)] ∧
    (reached (start Database.empty oneTrack {}) lonelyVeto).events =
      (reached (start Memory.empty oneTrack {}) lonelyVeto).events := by
  refine ⟨broadcasts_agree {} oneTrack lonelyVeto, ?_, ?_, ?_⟩
  · decide +kernel
  · decide +kernel
  · decide +kernel

end Party
end Jukebox
