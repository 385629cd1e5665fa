import Jukebox.Proofs.Party.Retelling
import Jukebox.Requests

/-!
# Memories that stand for the store of a party

Either kind of store does what a memory does that stands for it, or refuses an operation that
brings a new entry. A party attends to a memory if the memory stands for its store and holds
what was told, up to some events that are still to be told. Asking the store moves the memory
on and leaves one more event to tell; telling it closes the gap.
-/

namespace Jukebox
namespace Party

variable {σ α β : Type} {party : Party σ}

/-!
## Running actions
-/

@[simp]
theorem run_pure (value : α) : run (pure value : PartyAction σ α) party = (.ok value, party) :=
  rfl

@[simp]
theorem run_throw (error : PartyError) :
    run (throw error : PartyAction σ α) party = (.error error, party) :=
  rfl

@[simp]
theorem run_get : run (get : PartyAction σ (Party σ)) party = (.ok party, party) :=
  rfl

def telling (event : Event) (party : Party σ) : Party σ :=
  { party with events := party.events ++ [event] }

def logging (level : LogLevel) (message : String) (party : Party σ) : Party σ :=
  { party with log := party.log ++ [⟨level, .party, message⟩] }

@[simp]
theorem run_tell (event : Event) : run (tell event) party = (.ok (), party.telling event) :=
  rfl

@[simp]
theorem run_writeLog (level : LogLevel) (message : String) :
    run (writeLog level message) party = (.ok (), party.logging level message) :=
  rfl

theorem run_bind (action : PartyAction σ α) (next : α → PartyAction σ β) :
    run (action >>= next) party =
      match run action party with
      | (.ok value, after) => run (next value) after
      | (.error error, after) => (.error error, after) := by
  simp only [run, bind, ExceptT.bind, ExceptT.run, ExceptT.mk, StateT.bind, ExceptT.bindCont]
  rcases action party with ⟨answer, after⟩
  cases answer <;> rfl

theorem run_map (f : α → β) (action : PartyAction σ α) :
    run (f <$> action) party = ((run action party).1.map f, (run action party).2) := by
  simp only [run, Functor.map, ExceptT.map, ExceptT.run, ExceptT.mk, StateT.bind, bind]
  rcases action party with ⟨answer, after⟩
  cases answer <;> rfl

theorem run_onCatalog (f : Catalog → Except SongError α) :
    run (onCatalog f) party = ((f party.catalog).mapError .song, party) := by
  simp only [onCatalog, run_bind, run_get]
  cases f party.catalog <;> rfl

/-- What an error of the store has to report is all that a party adds of its own. -/
theorem run_onStore (action : Action σ α) :
    run (onStore action) party =
      match action.run party.store with
      | (.ok value, store) => (.ok value, { party with store := store })
      | (.error error, store) =>
        (.error (.store error),
          { party with
            store := store
            log := party.log ++
              (error.report?.map fun report => ⟨.error, .party, report⟩).toList }) := by
  simp only [onStore, run_bind, run_get]
  rcases action.run party.store with ⟨answer, store⟩
  have hset : ∀ changed : Party σ, run (set changed : PartyAction σ PUnit) party =
      (.ok ⟨⟩, changed) :=
    fun _ => rfl
  rw [hset]
  cases answer with
  | ok value => rfl
  | error error =>
      cases hreport : error.report? with
      | none => simp [hreport]
      | some report => simp [hreport, run_bind, logging]

theorem run_replacement [Store σ] (room : RoomId) (now : Timestamp) :
    run (replacement room now) party =
      ((run (nextTrack room now) party).1.mapError fun error =>
          if error = .store .exhausted then .noTracksLeft else error,
        (run (nextTrack room now) party).2) := by
  simp only [replacement, tryCatch, tryCatchThe, MonadExceptOf.tryCatch, ExceptT.tryCatch, run,
    ExceptT.run, ExceptT.mk, bind, StateT.bind]
  rcases nextTrack room now party with ⟨answer, after⟩
  cases answer <;> rfl

end Party

open Store Memory

/-!
## Stores and memories
-/

/-- Whether a store may refuse an operation that a memory would perform. -/
def Operation.Refusable (operation : Operation) : Prop :=
  operation.newEntries ≠ []

theorem not_refusable_of_lookUp {operation : Operation} (h : operation.lookUp = true) :
    ¬operation.Refusable := by
  cases operation <;> simp_all [Operation.lookUp, Operation.Refusable, Operation.newEntries]

/-- How a store answers an operation, and what the memory that stands for it becomes. -/
inductive Memory.Answers (shown : Track → Track) (config : Config) (m : Memory)
    (operation : Operation) (answer : Except StoreError Reply) : Memory → Prop
  | done {reply : Except StoreError Reply} {changed : Memory}
    (hstep : Step config m operation reply changed)
    (hshows : m.ShowsAs shown operation reply answer) :
    Answers shown config m operation answer changed
  | refused {error : StoreError} (hrefusable : operation.Refusable)
      (hanswer : answer = .error error) :
    Answers shown config m operation answer m

/-- Whether memories stand for stores of a kind, operation by operation. -/
def Shadows {σ : Type} [Store σ] (shown : Track → Track) (config : Config)
    (stands : Memory → σ → Prop) : Prop :=
  ∀ {m : Memory} {store : σ} (operation : Operation), stands m store → m.Sound →
    ∃ changed, m.Answers shown config operation (Store.step config store operation).1 changed ∧
      stands changed (Store.step config store operation).2

theorem shadows_memory (config : Config) : Shadows id config fun m (store : Memory) =>
    store = m := by
  rintro m _ operation rfl hsound
  exact ⟨_, .done (hsound.step config operation) (Or.inl ⟨rfl, rfl⟩), rfl⟩

def Database.Shows (m : Memory) (store : Database) : Prop :=
  ∃ t, store = Database.opened t ∧ Mirrors m t

theorem shadows_database (config : Config) : Shadows Track.stored config Database.Shows := by
  rintro m _ operation ⟨t, rfl, hmirrors⟩ hsound
  have hstep := hsound.step config operation
  by_cases hentries : operation.newEntries = []
  · rcases hmirrors.follows_step hsound (by simp [hentries]) hstep with
      ⟨answer, t', hrun, hagree, hafter⟩
    rw [hrun]
    exact ⟨_, .done hstep (Or.inr ⟨rfl, hagree⟩), t', rfl, hafter⟩
  · rcases hmirrors.follows_or_refuses hsound hstep
      with ⟨answer, t', hrun, hagree, hafter⟩ | ⟨error, hrun⟩
    · rw [hrun]
      exact ⟨_, .done hstep (Or.inr ⟨rfl, hagree⟩), t', rfl, hafter⟩
    · rw [hrun]
      exact ⟨m, .refused hentries rfl, t, rfl, hmirrors⟩

/-- How an operation ends where every track is described as a catalog does. -/
inductive Memory.Met (shown : Track → Track) (config : Config) (m : Memory)
    (operation : Operation) : Except StoreError Reply → Memory → Prop
  | done {reply : Reply} {changed : Memory}
      (hstep : Step config m operation (.ok reply) changed) :
    Met shown config m operation (.ok (reply.mapTracks shown)) changed
  | failed {error other : StoreError} (hstep : Step config m operation (.error other) m)
    (hother : operation.plain = true → error = other) :
    Met shown config m operation (.error error) m
  | refused {error : StoreError} (hrefusable : operation.Refusable) :
    Met shown config m operation (.error error) m

theorem Memory.Retold.met {shown : Track → Track} {catalog : Catalog} {config : Config}
    {m changed : Memory} {events : List Event} {operation : Operation}
    {answer : Except StoreError Reply} (h : m.Retold shown catalog events)
    (hanswers : m.Answers shown config operation answer changed) :
    m.Met shown config operation answer changed := by
  cases hanswers with
  | refused hrefusable hanswer =>
      rw [hanswer]
      exact .refused hrefusable
  | @done reply _ hstep hshows =>
      rcases h.exact hstep hshows with rfl | ⟨rfl, ⟨other, rfl⟩, ⟨error, rfl⟩⟩
      · cases reply with
        | ok reply => exact .done hstep
        | error error =>
            obtain rfl := hstep.eq_of_error
            exact .failed hstep fun _ => rfl
      · apply Met.failed hstep
        intro hplain
        exact Except.error.inj (hshows.eq_of_plain hplain)

/-!
## Attending
-/

namespace Party

section Attending

variable {σ : Type}

/-- Whether a memory stands for the store of a party, and holds what was told and what is still
to be told. -/
structure Attends (shown : Track → Track) (stands : Memory → σ → Prop) (config : Config)
    (catalog : Catalog) (m : Memory) (told pending : List Event) (party : Party σ) : Prop where
  config_eq : party.config = config
  catalog_eq : party.catalog = catalog
  events_eq : party.events = told
  stands : stands m party.store
  retold : m.Retold shown catalog (told ++ pending)

inductive Asked {α : Type} (shown : Track → Track) (stands : Memory → σ → Prop)
    (config : Config) (catalog : Catalog) (m : Memory) (told pending : List Event)
    (operation : Operation) (reply : α → Reply) : Except PartyError α × Party σ → Prop
  | answered {value : α} {found : Reply} {changed : Memory} {after : Party σ}
    (hstep : Step config m operation (.ok found) changed)
    (hfound : found.mapTracks shown = reply value)
    (hafter : Attends shown stands config catalog changed told
      (pending ++ m.tells operation (.ok (reply value))) after) :
    Asked shown stands config catalog m told pending operation reply (.ok value, after)
  | failed {error : StoreError} {after : Party σ}
      (hmet : m.Met shown config operation (.error error) m)
    (hafter : Attends shown stands config catalog m told pending after) :
    Asked shown stands config catalog m told pending operation reply
      (.error (.store error), after)

variable {α : Type} {shown : Track → Track} {stands : Memory → σ → Prop} {config : Config}
  {catalog : Catalog} {m : Memory} {told pending : List Event} {party : Party σ}

namespace Attends

theorem telling {event : Event}
    (h : Attends shown stands config catalog m told (event :: pending) party) :
    Attends shown stands config catalog m (told ++ [event]) pending (party.telling event) where
  config_eq := h.config_eq
  catalog_eq := h.catalog_eq
  events_eq := congrArg (fun events => events ++ [event]) h.events_eq
  stands := h.stands
  retold := by
    rw [List.append_assoc]
    exact h.retold

theorem logging (h : Attends shown stands config catalog m told pending party)
    (level : LogLevel) (message : String) :
    Attends shown stands config catalog m told pending (party.logging level message) where
  config_eq := h.config_eq
  catalog_eq := h.catalog_eq
  events_eq := h.events_eq
  stands := h.stands
  retold := h.retold

/-- Whatever the store of a party is asked for, a memory goes on to stand for it. -/
theorem ask [Store σ] (h : Attends shown stands config catalog m told pending party)
    (hshadows : Shadows shown config stands) {action : Action σ α} {reply : α → Reply}
    {operation : Operation} (hperform : Store.perform config operation = reply <$> action)
    (hoffered : ∀ answer, ∀ track ∈ operation.queued answer, track ∈ catalog.offers) :
    Asked shown stands config catalog m told pending operation reply
      (run (onStore action) party) := by
  rcases hshadows operation h.stands h.retold.sound with ⟨changed, hanswers, hstands⟩
  have hmet := h.retold.met hanswers
  rw [Store.step, hperform, Action.run_map] at hmet hstands
  rw [run_onStore]
  generalize action.run party.store = outcome at hmet hstands
  rcases outcome with ⟨answer, store⟩
  cases answer with
  | ok value =>
      generalize hanswer : (Except.ok value : Except StoreError α).map reply = answer at hmet
      cases hmet with
      | @done found _ hstep =>
          have hfound : found.mapTracks shown = reply value := (Except.ok.inj hanswer).symm
          have hretold := h.retold.step hstep (hoffered _)
          rw [List.append_assoc, Except.map, hfound] at hretold
          exact .answered hstep hfound ⟨h.config_eq, h.catalog_eq, h.events_eq, hstands,
            hretold⟩
      | failed _ _ => cases hanswer
      | refused _ => cases hanswer
  | error error =>
      have hsame : changed = m := by cases hmet <;> rfl
      subst hsame
      exact .failed hmet ⟨h.config_eq, h.catalog_eq, h.events_eq, hstands, h.retold⟩

end Attends
end Attending

end Party
end Jukebox
