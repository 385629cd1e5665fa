import Jukebox.Proofs.Party.Attending

/-!
# Parties that can come about

A party begins with a store that may hold what earlier parties left there, and requests are put
to it one after another. Whatever is asked, a memory goes on to stand for the store.
-/

namespace Jukebox
namespace Party

open Store Memory

variable {σ α β : Type}

/-- Whether a party can come about on a store that was empty at first. -/
inductive Reachable [Store σ] (empty : σ) : Party σ → Prop
  | fresh (catalog : Catalog) (config : Config) : Reachable empty (start empty catalog config)
  | asked {party : Party σ} (h : Reachable empty party) (request : Request) :
    Reachable empty (step party request).2
  | reopened {party : Party σ} (h : Reachable empty party) (catalog : Catalog)
      (config : Config) :
    Reachable empty (start party.store catalog config)

theorem Reachable.runAll [Store σ] {empty : σ} (requests : List Request) {party : Party σ}
    (h : Reachable empty party) : Reachable empty (Party.runAll party requests).2 := by
  induction requests generalizing party with
  | nil => exact h
  | cons request rest ih => exact ih (h.asked request)

def Backed (stands : Memory → σ → Prop) (store : σ) : Prop :=
  ∃ m, stands m store ∧ m.Sound

variable {shown : Track → Track} {stands : Memory → σ → Prop}

theorem Backed.step [Store σ] {store : σ} (h : Backed stands store) {config : Config}
    (hshadows : Shadows shown config stands) (operation : Operation) :
    Backed stands (Store.step config store operation).2 := by
  rcases h with ⟨m, hstands, hsound⟩
  rcases hshadows operation hstands hsound with ⟨changed, hanswers, hafter⟩
  cases hanswers with
  | done hstep _ => exact ⟨changed, hafter, hstep.sound hsound⟩
  | refused _ _ => exact ⟨m, hafter, hsound⟩

/-!
## Actions
-/

def Keeps (stands : Memory → σ → Prop) (action : PartyAction σ α) : Prop :=
  ∀ party : Party σ, Backed stands party.store → Backed stands (run action party).2.store

theorem keeps_pure (value : α) : Keeps stands (pure value : PartyAction σ α) :=
  fun _ hbacked => hbacked

theorem keeps_get : Keeps stands (get : PartyAction σ (Party σ)) :=
  fun _ hbacked => hbacked

theorem keeps_tell (event : Event) : Keeps stands (tell event) :=
  fun _ hbacked => hbacked

theorem keeps_writeLog (level : LogLevel) (message : String) :
    Keeps stands (writeLog level message) :=
  fun _ hbacked => hbacked

theorem Keeps.bind {action : PartyAction σ α} {next : α → PartyAction σ β}
    (h : Keeps stands action) (hnext : ∀ value, Keeps stands (next value)) :
    Keeps stands (action >>= next) := by
  intro party hbacked
  have hfirst := h party hbacked
  rw [run_bind]
  generalize run action party = outcome at hfirst ⊢
  rcases outcome with ⟨answer, after⟩
  cases answer with
  | ok value => exact hnext value after hfirst
  | error error => exact hfirst

theorem Keeps.map {action : PartyAction σ α} (f : α → β) (h : Keeps stands action) :
    Keeps stands (f <$> action) := by
  intro party hbacked
  rw [run_map]
  exact h party hbacked

theorem keeps_onCatalog (f : Catalog → Except SongError α) :
    Keeps stands (onCatalog f : PartyAction σ α) := by
  intro party hbacked
  rw [run_onCatalog]
  exact hbacked

theorem store_onStore (action : Action σ α) (party : Party σ) :
    (run (onStore action) party).2.store = (action.run party.store).2 := by
  rw [run_onStore]
  rcases action.run party.store with ⟨answer, store⟩
  cases answer <;> rfl

theorem keeps_onStore [Store σ] {config : Config} (hshadows : Shadows shown config stands)
    {action : Action σ α} (operation : Operation) {reply : α → Reply}
    (hperform : Store.perform config operation = reply <$> action) :
    Keeps stands (onStore action) := by
  intro party hbacked
  have hstep := hbacked.step hshadows operation
  rw [Store.step, hperform, Action.run_map] at hstep
  rw [store_onStore]
  exact hstep

/-!
## Requests
-/

section Requests

variable [Store σ] (hshadows : ∀ config, Shadows shown config stands)

include hshadows

theorem keeps_nextTrack (room : RoomId) (now : Timestamp) :
    Keeps stands (nextTrack room now : PartyAction σ (User × Track)) :=
  (keeps_onStore (hshadows {}) (.nextTrack room now) rfl).bind fun _ =>
    (keeps_writeLog _ _).bind fun _ => (keeps_tell _).bind fun _ => keeps_pure _

theorem keeps_replacement (room : RoomId) (now : Timestamp) :
    Keeps stands (replacement room now : PartyAction σ (User × Track)) := by
  intro party hbacked
  rw [run_replacement]
  exact keeps_nextTrack hshadows room now party hbacked

theorem keeps_veto (room : RoomId) (user : UserId) (now : Timestamp) :
    Keeps stands (veto room user now : PartyAction σ Veto) :=
  keeps_get.bind fun party =>
    (keeps_onStore (hshadows party.config) (.markVetoed room user) rfl).bind fun _ =>
      (keeps_writeLog _ _).bind fun _ => (keeps_tell _).bind fun _ =>
        (keeps_replacement hshadows room now).bind fun _ => keeps_pure _

theorem keeps_join (room : RoomId) (user : UserId) :
    Keeps stands (join room user : PartyAction σ User) :=
  (keeps_onStore (hshadows {}) (.join room user) rfl).bind fun _ =>
    (keeps_onStore (hshadows {}) (.user user) rfl).bind fun _ =>
      (keeps_writeLog _ _).bind fun _ => (keeps_tell _).bind fun _ => keeps_pure _

theorem keeps_createRoom (name : String) (kind : RotatorKind) (codes : Nat → RoomId)
    (seed : Nat) : Keeps stands (createRoom name kind codes seed : PartyAction σ Room) :=
  keeps_get.bind fun party =>
    (keeps_onStore (hshadows party.config) (.createRoom name kind codes seed) rfl).bind
      fun _ =>
      (keeps_writeLog _ _).bind fun _ => keeps_pure _

theorem keeps_addTrack (queue : QueueId) (track : TrackId) (after : Option EntryId)
    (entry : EntryId) :
    Keeps stands (addTrack queue track after entry : PartyAction σ EntryId) :=
  (keeps_onCatalog _).bind fun track =>
    (keeps_onStore (hshadows {}) (.addTrack queue track after entry) rfl).bind fun _ =>
      (keeps_tell _).bind fun _ => keeps_pure _

theorem keeps_removeTrack (queue : QueueId) (entry : EntryId) :
    Keeps stands (removeTrack queue entry : PartyAction σ Unit) :=
  (keeps_onStore (hshadows {}) (.removeTrack queue entry) rfl).bind fun _ => keeps_tell _

theorem keeps_perform (request : Request) :
    Keeps stands (perform request : PartyAction σ Response) := by
  have hplain : ∀ {α : Type} {action : Action σ α} {reply : α → Reply} (operation : Operation)
      (f : α → Response), Store.perform {} operation = reply <$> action →
      Keeps stands (f <$> onStore action) := fun operation f hperform =>
    (keeps_onStore (hshadows {}) operation hperform).map f
  cases request with
  | register id name => exact hplain (.createUser id name) _ rfl
  | createRoom name kind codes seed =>
      exact (keeps_createRoom hshadows name kind codes seed).map _
  | join room user => exact (keeps_join hshadows room user).map _
  | addTrack queue track after entry =>
      exact (keeps_addTrack hshadows queue track after entry).map _
  | removeTrack queue entry =>
      exact (keeps_removeTrack hshadows queue entry).map _
  | nextTrack room now => exact (keeps_nextTrack hshadows room now).map _
  | veto room user now => exact (keeps_veto hshadows room user now).map _
  | room id => exact hplain (.room id) _ rfl
  | members room => exact hplain (.members room) _ rfl
  | history room => exact hplain (.history room) _ rfl
  | searchRooms query => exact hplain (.searchRooms query) _ rfl
  | listTracks queue filter => exact hplain (.tracks queue filter) _ rfl
  | searchTracks query => exact (keeps_onCatalog _).map _

theorem Reachable.backed {empty : σ} {party : Party σ} (h : Reachable empty party)
    (hempty : stands Memory.empty empty) : Backed stands party.store := by
  induction h with
  | fresh catalog config => exact ⟨Memory.empty, hempty, sound_empty⟩
  | asked _ request ih => exact keeps_perform hshadows request _ ih
  | reopened _ catalog config ih => exact ih

end Requests

end Party
end Jukebox
