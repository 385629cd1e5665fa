import Jukebox.CommandLine.Run
import Jukebox.Proofs.Party.Reaching
import Jukebox.Proofs.Store.Atomicity
import Jukebox.Proofs.Store.Flagging

/-!
# How vetoes at a party end

A veto at a party is two operations on its store, one after the other: the latest entry of the
history is flagged, and the next track is served. The first one may be refused. After it went
through, the second one can only find the room exhausted, and then the veto stays.
-/

namespace Jukebox

/-- Whether the latest history entry of a room is flagged, as the database shows it, and
nothing else is changed. -/
inductive Database.Flags (room : RoomId) (user : UserId) (db : Database) : TrackEntry →
    Database → Prop
  | latest {t : Tables} {row : HistoryRow} {track : TrackRow} {entry : TrackEntry}
    (htables : db.tables.Flags room user row t)
    (htrack : db.tables.track? row.track = some track)
    (hentry : Tables.readHistory (row, track) = .ok entry) :
    Flags room user db entry { db with tables := t }

namespace Party

open Store Memory

/-- How a veto at a party ends, where flagging has a meaning for its store. -/
inductive VetoOutcome {σ : Type} [Store σ] (flags : RoomId → UserId → σ → TrackEntry →
    σ → Prop) (room : RoomId) (user : UserId) (now : Timestamp) (party : Party σ) :
    Except PartyError Veto × Party σ → Prop
  | refused {error : StoreError} {after : Party σ}
    (hmarked : Store.step party.config party.store (.markVetoed room user) =
      (.error error, party.store))
    (herror : (∃ what, error = .notFound what) ∨ ∃ clash, error = .conflict clash)
    (hstore : after.store = party.store) (hevents : after.events = party.events) :
    VetoOutcome flags room user now party (.error (.store error), after)
  /-- Another track plays instead. It is the one that would have been next without the veto as
  well. -/
  | replaced {earlier : List TrackEntry} {latest : TrackEntry} {flagged : σ} {player : User}
    {track : Track} {after : Party σ}
    (hhistory : Store.step party.config party.store (.history room) =
      (.ok (.history (earlier ++ [latest])), party.store))
    (hmarked : Store.step party.config party.store (.markVetoed room user) =
      (.ok (.vetoed (latest.veto user)), flagged))
    (hflags : flags room user party.store latest flagged)
    (hserved : Store.step party.config flagged (.nextTrack room now) =
      (.ok (.served player track), after.store))
    (hnext : (Store.step party.config party.store (.nextTrack room now)).1 =
      .ok (.served player track))
    (hgrown : Store.step party.config after.store (.history room) =
      (.ok (.history (earlier ++ [latest.veto user, .served player.id track now])),
        after.store))
    (hevents : after.events = party.events ++
      [.vetoed room user (latest.veto user), .nowPlaying room player track]) :
    VetoOutcome flags room user now party (.ok ⟨latest.veto user, player, track⟩, after)
  /-- Nobody has anything to play instead, and the entry stays flagged. -/
  | unreplaced {earlier : List TrackEntry} {latest : TrackEntry} {after : Party σ}
    (hhistory : Store.step party.config party.store (.history room) =
      (.ok (.history (earlier ++ [latest])), party.store))
    (hmarked : Store.step party.config party.store (.markVetoed room user) =
      (.ok (.vetoed (latest.veto user)), after.store))
    (hflags : flags room user party.store latest after.store)
    (hexhausted : Store.step party.config after.store (.nextTrack room now) =
      (.error .exhausted, after.store))
    (hnext : (Store.step party.config party.store (.nextTrack room now)).1 = .error .exhausted)
    (hlast : Store.step party.config after.store (.history room) =
      (.ok (.history (earlier ++ [latest.veto user])), after.store))
    (hevents : after.events = party.events ++ [.vetoed room user (latest.veto user)]) :
    VetoOutcome flags room user now party (.error .noTracksLeft, after)

/-!
## Stores and memories
-/

/-- What memories say about the stores that they stand for: how tracks and entries are shown,
what operations do, and what it means that an entry is flagged. -/
structure Reflects {σ : Type} [Store σ] (seen : Track → Track) (stands : Memory → σ → Prop)
    (shown : Memory → TrackEntry → TrackEntry)
    (flags : RoomId → UserId → σ → TrackEntry → σ → Prop) : Prop where
  follows : ∀ {m : Memory} {store : σ} (config : Config) (operation : Operation),
    operation.newEntries = [] → stands m store → m.Sound →
    m.ShowsAs seen operation (Store.step config m operation).1
      (Store.step config store operation).1 ∧
      stands (Store.step config m operation).2 (Store.step config store operation).2
  undone : ∀ {store : σ} {config : Config} {operation : Operation} {error : StoreError},
    (Store.step config store operation).1 = .error error → error ≠ .writerClosed →
    (Store.step config store operation).2 = store
  history : ∀ {m : Memory} {store : σ} {room : RoomId} {state : RoomState} (config : Config),
    stands m store → m.Sound → m.room? room = some state →
    Store.step config store (.history room) =
      (.ok (.history (state.history.map (shown m))), store)
  flagged : ∀ {m : Memory} {store : σ} {room : RoomId} {user : UserId} {queue : Queue}
    {state : RoomState} {earlier : List TrackEntry} {latest : TrackEntry} {config : Config},
    stands m store → m.Sound → m.queue? ⟨room, user⟩ = some queue → m.room? room = some state →
    state.history = earlier ++ [latest] →
    vetoTarget state.history user (config.vetoCooldown state.members.length) =
      .ok earlier.length →
    ∃ after, Store.step config store (.markVetoed room user) =
        (.ok (.vetoed ((shown m latest).veto user)), after) ∧
      flags room user store (shown m latest) after ∧
      stands (m.modifyRoom room (mark earlier.length user)) after
  shown_library : ∀ {m n : Memory}, n.library = m.library → shown n = shown m
  shown_veto : ∀ (m : Memory) (entry : TrackEntry) (user : UserId),
    shown m (entry.veto user) = (shown m entry).veto user
  shown_served : ∀ {m : Memory} {user : UserId} {track : Track} {now : Timestamp},
    m.track? track.id = some track →
    shown m (.served user track now) = .served user (seen track) now

theorem reflects_memory :
    Reflects id (fun m (store : Memory) => store = m) (fun _ entry => entry) Memory.Flags where
  follows := by
    rintro m _ config operation - rfl -
    exact ⟨Or.inl ⟨rfl, rfl⟩, rfl⟩
  undone := fun {store} {config} {operation} {error} herror _ =>
    Memory.allOrNothing_perform config operation store error herror
  history := by
    rintro m _ room state config rfl - hroom
    simp [Store.step, Store.perform, Store.history, fetchRoom, hroom]
  flagged := by
    rintro m _ room user queue state earlier latest config rfl hsound hqueue hroom
      hhistory hveto
    refine ⟨_, Memory.step_markVetoed (Option.isSome_of_eq_some hqueue) hroom hhistory hveto,
      ?_, rfl⟩
    exact Memory.flags_modifyRoom hsound.roomIds hroom hhistory
      (unvetoed_of_target (hhistory ▸ hveto)) user
  shown_library := fun _ => rfl
  shown_veto := fun _ _ _ => rfl
  shown_served := fun _ => rfl

theorem reflects_database :
    Reflects Track.stored Database.Shows Memory.redescribe Database.Flags where
  follows := by
    rintro m _ config operation hnew ⟨t, rfl, hmirrors⟩ hsound
    rcases hmirrors.follows_step hsound (by simp [hnew]) (hsound.step config operation) with
      ⟨answer, t', hrun, hagree, hafter⟩
    rw [hrun]
    exact ⟨Or.inr ⟨rfl, hagree⟩, t', rfl, hafter⟩
  undone := by
    intro db config operation error herror hopen
    rcases Database.undoes_perform config operation db error herror with hsame | ⟨hclosed, -⟩
    · exact hsame
    · exact absurd hclosed hopen
  history := by
    rintro m _ room state config ⟨t, rfl, hmirrors⟩ hsound hroom
    have hjob := congrArg Prod.fst (hmirrors.run_listHistory hsound hroom)
    exact Database.step_read rfl hjob
  flagged := by
    rintro m _ room user queue state earlier latest config ⟨t, rfl, hmirrors⟩ hsound
      hqueue hroom hhistory hveto
    rcases hmirrors.run_markVetoed hsound hroom hqueue hhistory hveto with
      ⟨front, row, track, hrows, htrack, hlatest, hjob, hafter⟩
    have hunvetoed : latest.vetoed = false := unvetoed_of_target (hhistory ▸ hveto)
    have hunvetoed : row.vetoed = false :=
      (Tables.vetoed_of_readHistory hlatest).symm.trans hunvetoed
    refine ⟨_, Database.step_write_ok rfl hjob rfl, ?_, _, rfl, hafter⟩
    exact .latest (Tables.flags_updateHistory hmirrors.nodup_numbers hrows hunvetoed user)
      htrack hlatest
  shown_library := by
    intro m n hlibrary
    funext entry
    rw [Memory.redescribe, Memory.redescribe, Memory.track?, hlibrary]
    rfl
  shown_veto := fun _ _ _ => rfl
  shown_served := by
    intro m user track now htrack
    rw [Memory.redescribe, TrackEntry.served, htrack]
    rfl

section Outcomes

variable {σ α : Type} [Store σ] {seen : Track → Track} {stands : Memory → σ → Prop}
  {shown : Memory → TrackEntry → TrackEntry} {flags : RoomId → UserId → σ → TrackEntry →
    σ → Prop}
  {m : Memory} {store : σ} {room : RoomId} {state : RoomState} {party : Party σ}
  {operation : Operation} {action : Action σ α} {reply : α → Reply}

theorem run_onStore_ok {config : Config} {answer : Reply}
    (hperform : Store.perform config operation = reply <$> action)
    (h : Store.step config party.store operation = (.ok answer, store)) :
    ∃ value, reply value = answer ∧
      run (onStore action) party = (.ok value, { party with store := store }) := by
  rw [Store.step, hperform, Action.run_map] at h
  rw [run_onStore]
  generalize action.run party.store = outcome at h ⊢
  rcases outcome with ⟨found, changed⟩
  cases found with
  | ok value =>
      cases h
      exact ⟨value, rfl, rfl⟩
  | error error => cases h

theorem run_onStore_error {config : Config} {error : StoreError}
    (hperform : Store.perform config operation = reply <$> action)
    (h : Store.step config party.store operation = (.error error, store)) :
    ∃ log, run (onStore action) party =
      (.error (.store error), { party with store := store, log := log }) := by
  rw [Store.step, hperform, Action.run_map] at h
  rw [run_onStore]
  generalize action.run party.store = outcome at h ⊢
  rcases outcome with ⟨found, changed⟩
  cases found with
  | ok value => cases h
  | error cause =>
      cases h
      exact ⟨_, rfl⟩

theorem run_nextTrack_ok {config : Config} {now : Timestamp} {player : User} {track : Track}
    (h : Store.step config party.store (.nextTrack room now) =
      (.ok (.served player track), store)) :
    ∃ after, run (Party.nextTrack room now) party = (.ok (player, track), after) ∧
      after.store = store ∧
      after.events = party.events ++ [.nowPlaying room player track] := by
  have hrun : ∃ value : User × Track, Reply.served value.1 value.2 = .served player track ∧
      run (onStore (Store.nextTrack room now)) party =
        (.ok value, { party with store := store }) :=
    run_onStore_ok rfl h
  rcases hrun with ⟨⟨_, _⟩, hvalue, hrun⟩
  cases hvalue
  simp only [Party.nextTrack, run_bind, hrun, run_writeLog, run_tell, run_pure]
  exact ⟨_, rfl, rfl, rfl⟩

theorem run_nextTrack_error {config : Config} {now : Timestamp} {error : StoreError}
    (h : Store.step config party.store (.nextTrack room now) = (.error error, store)) :
    ∃ after, run (Party.nextTrack room now) party = (.error (.store error), after) ∧
      after.store = store ∧ after.events = party.events := by
  have hrun : ∃ log, run (onStore (Store.nextTrack room now)) party =
      (.error (.store error), { party with store := store, log := log }) :=
    run_onStore_error rfl h
  rcases hrun with ⟨log, hrun⟩
  simp only [Party.nextTrack, run_bind, hrun]
  exact ⟨_, rfl, rfl, rfl⟩

theorem run_veto_marked {user : UserId} {entry : TrackEntry} (now : Timestamp)
    (h : Store.step party.config party.store (.markVetoed room user) =
      (.ok (.vetoed entry), store)) :
    ∃ noted, noted.store = store ∧ noted.events = party.events ++ [.vetoed room user entry] ∧
      run (Party.veto room user now) party =
        run (replacement room now >>= fun served => pure ⟨entry, served.1, served.2⟩)
          noted := by
  have hrun : ∃ value, Reply.vetoed value = .vetoed entry ∧
      run (onStore (Store.markVetoed party.config room user)) party =
        (.ok value, { party with store := store }) := run_onStore_ok rfl h
  rcases hrun with ⟨_, hvalue, hrun⟩
  cases hvalue
  simp only [Party.veto, run_bind, run_get, hrun, run_writeLog, run_tell]
  exact ⟨_, rfl, rfl, rfl⟩

theorem run_veto_served {user : UserId} {entry : TrackEntry} {now : Timestamp}
    {config : Config} {last : σ} {player : User} {track : Track}
    (hmarked : Store.step party.config party.store (.markVetoed room user) =
      (.ok (.vetoed entry), store))
    (hserved : Store.step config store (.nextTrack room now) =
      (.ok (.served player track), last)) :
    ∃ after, run (Party.veto room user now) party = (.ok ⟨entry, player, track⟩, after) ∧
      after.store = last ∧
      after.events = party.events ++
        [.vetoed room user entry, .nowPlaying room player track] := by
  rcases run_veto_marked now hmarked with ⟨noted, rfl, hnoted, hrun⟩
  rcases run_nextTrack_ok hserved with ⟨after, hplayed, hlast, htold⟩
  refine ⟨after, ?_, hlast, ?_⟩
  · rw [hrun, run_bind, run_replacement, hplayed]
    rfl
  · rw [htold, hnoted, List.append_assoc]
    rfl

theorem run_veto_exhausted {user : UserId} {entry : TrackEntry} {now : Timestamp}
    {config : Config} (hmarked : Store.step party.config party.store (.markVetoed room user) =
      (.ok (.vetoed entry), store))
    (hexhausted : Store.step config store (.nextTrack room now) = (.error .exhausted, store)) :
    ∃ after, run (Party.veto room user now) party = (.error .noTracksLeft, after) ∧
      after.store = store ∧ after.events = party.events ++ [.vetoed room user entry] := by
  rcases run_veto_marked now hmarked with ⟨noted, rfl, hnoted, hrun⟩
  rcases run_nextTrack_error hexhausted with ⟨after, hfailed, hsame, htold⟩
  refine ⟨after, ?_, hsame, htold.trans hnoted⟩
  rw [hrun, run_bind, run_replacement, hfailed]
  rfl

namespace Reflects

theorem serves (h : Reflects seen stands shown flags) (config : Config)
    (hstands : stands m store) (hsound : m.Sound) (hroom : m.room? room = some state)
    (now : Timestamp) : (∃ player track after,
      Store.step config store (.nextTrack room now) =
        (.ok (.served player (seen track)), after) ∧
      (Store.step config m (.nextTrack room now)).1 = .ok (.served player track) ∧
      Store.step config after (.history room) =
        (.ok (.history (state.history.map (shown m) ++ [.served player.id (seen track) now])),
          after)) ∨
    Store.step config store (.nextTrack room now) = (.error .exhausted, store) ∧
      (Store.step config m (.nextTrack room now)).1 = .error .exhausted := by
  rcases h.follows config (.nextTrack room now) rfl hstands hsound with ⟨hshows, hafter⟩
  have hstep := hsound.step config (.nextTrack room now)
  have hanswer := hshows.eq_of_plain rfl
  rcases hstep.turn_cases hroom with
    ⟨player, track, after, hserved, htrack, hlibrary, hturned, hgrown⟩ | hexhausted
  · left
    rw [hserved] at hanswer
    have hhistory := h.history config hafter (hstep.sound hsound) hturned
    rw [h.shown_library hlibrary, hgrown, List.map_append, List.map_singleton,
      h.shown_served htrack] at hhistory
    exact ⟨player, track, _, Prod.ext hanswer rfl, hserved, hhistory⟩
  · right
    rw [hexhausted] at hanswer
    exact ⟨Prod.ext hanswer (h.undone hanswer (by simp)), hexhausted⟩

theorem veto_refused (h : Reflects seen stands shown flags) {user : UserId}
    {error : StoreError}
    (hmarked : (Store.step party.config party.store (.markVetoed room user)).1 = .error error)
    (herror : (∃ what, error = .notFound what) ∨ ∃ clash, error = .conflict clash)
    (now : Timestamp) :
    VetoOutcome flags room user now party (run (veto room user now) party) := by
  have hopen : error ≠ .writerClosed := by
    rcases herror with ⟨what, rfl⟩ | ⟨clash, rfl⟩ <;> simp
  have hmarked : Store.step party.config party.store (.markVetoed room user) =
      (.error error, party.store) := Prod.ext hmarked (h.undone hmarked hopen)
  have hrun : ∃ log, run (onStore (Store.markVetoed party.config room user)) party =
      (.error (.store error), { party with store := party.store, log := log }) :=
    run_onStore_error rfl hmarked
  rcases hrun with ⟨log, hrun⟩
  simp only [veto, run_bind, run_get, hrun]
  exact .refused hmarked herror rfl rfl

theorem veto_flagged (h : Reflects seen stands shown flags) (hstands : stands m party.store)
    (hsound : m.Sound) {user : UserId} {queue : Queue}
    (hqueue : m.queue? ⟨room, user⟩ = some queue) (hroom : m.room? room = some state)
    {earlier : List TrackEntry} {latest : TrackEntry}
    (hhistory : state.history = earlier ++ [latest])
    (hveto : vetoTarget state.history user (party.config.vetoCooldown state.members.length) =
      .ok earlier.length) (now : Timestamp) :
    VetoOutcome flags room user now party (run (veto room user now) party) := by
  rcases h.flagged hstands hsound hqueue hroom hhistory hveto
    with ⟨flagged, hmarked, hflags, hafter⟩
  have hstep := Step.vetoed hqueue hroom hhistory hveto
  have hfound : (m.modifyRoom room (mark earlier.length user)).room? room =
      some (mark earlier.length user state) := by
    rw [room?_modify_self (room_mark _ _), hroom, Option.map_some]
  have hlibrary : shown (m.modifyRoom room (mark earlier.length user)) = shown m :=
    h.shown_library rfl
  have hgrown : (mark earlier.length user state).history.map (shown m) =
      earlier.map (shown m) ++ [(shown m latest).veto user] := by
    rw [mark, hhistory, flag_latest, List.map_append, List.map_singleton, h.shown_veto]
  have hshown := h.history party.config hstands hsound hroom
  rw [hhistory, List.map_append, List.map_singleton] at hshown
  -- The store with the veto serves what it would have served without.
  have hnext :=
    (h.follows party.config (.nextTrack room now) rfl hstands hsound).1.eq_of_plain rfl
  rw [← nextTrack_mark party.config m room now earlier.length user] at hnext
  have hserves := h.serves party.config hafter (hstep.sound hsound) hfound now
  rw [hlibrary, hgrown] at hserves
  rcases hserves with ⟨player, track, last, hserved, hmemory, hlast⟩ | ⟨hexhausted, hmemory⟩
  · rcases run_veto_served hmarked hserved with ⟨after, hrun, rfl, htold⟩
    rw [hrun]
    rw [List.append_assoc] at hlast
    rw [hmemory] at hnext
    exact .replaced hshown hmarked hflags hserved hnext hlast htold
  · rcases run_veto_exhausted hmarked hexhausted with ⟨after, hrun, rfl, htold⟩
    have hlast := h.history party.config hafter (hstep.sound hsound) hfound
    rw [hlibrary, hgrown] at hlast
    rw [hrun]
    rw [hmemory] at hnext
    exact .unreplaced hshown hmarked hflags hexhausted hnext hlast htold

/-- A veto at a party whose store a memory stands for ends in one of three ways. -/
theorem veto (h : Reflects seen stands shown flags) (hbacked : Backed stands party.store)
    (room : RoomId) (user : UserId) (now : Timestamp) :
    VetoOutcome flags room user now party (run (Party.veto room user now) party) := by
  rcases hbacked with ⟨m, hstands, hsound⟩
  have hshows := (h.follows party.config (.markVetoed room user) rfl hstands hsound).1
  have hstep := hsound.step party.config (.markVetoed room user)
  generalize (Store.step party.config m (.markVetoed room user)).1 = answer at hshows hstep
  generalize hanswer : (Store.step party.config party.store (.markVetoed room user)).1 =
    other at hshows
  generalize (Store.step party.config m (.markVetoed room user)).2 = changed at hstep
  cases hstep with
  | vetoNoQueue hqueue =>
      rcases hshows with ⟨-, rfl⟩ | ⟨-, hagree⟩
      · exact h.veto_refused hanswer (Or.inl ⟨_, rfl⟩) now
      · cases hagree with
        | same => exact h.veto_refused hanswer (Or.inl ⟨_, rfl⟩) now
        | noRoom hroom => exact h.veto_refused hanswer (Or.inl ⟨_, rfl⟩) now
  | vetoRefused hqueue hroom hveto =>
      rcases hshows with ⟨-, rfl⟩ | ⟨-, hagree⟩
      · exact h.veto_refused hanswer (Or.inr ⟨_, rfl⟩) now
      · cases hagree with
        | same => exact h.veto_refused hanswer (Or.inr ⟨_, rfl⟩) now
  | vetoed hqueue hroom hhistory hveto =>
      exact h.veto_flagged hstands hsound hqueue hroom hhistory hveto now

end Reflects

theorem VetoOutcome.expected {user : UserId} {now : Timestamp}
    {outcome : Except PartyError Veto × Party σ}
    (h : VetoOutcome flags room user now party outcome)
    {error : StoreError} (herror : outcome.1 = .error (.store error)) :
    (∃ what, error = .notFound what) ∨ ∃ clash, error = .conflict clash := by
  cases h with
  | refused _ hkind _ _ =>
      cases herror
      exact hkind
  | replaced => cases herror
  | unreplaced => cases herror

end Outcomes

theorem performVeto_unreplaced {room : RoomId} {user : UserId} {now : Timestamp}
    {party after : Party Database}
    (hveto : run (veto room user now) party = (.error .noTracksLeft, after))
    {config : Config} {earlier : List TrackEntry} {entry : TrackEntry}
    (hlast : Store.step config after.store (.history room) =
      (.ok (.history (earlier ++ [entry])), after.store)) (json : Bool) :
    CommandLine.performVeto json room user now party =
      ⟨(CommandLine.Output.vetoed entry).text json, .error .noTracksLeft, after⟩ := by
  have hrun : ∃ entries, Reply.history entries = .history (earlier ++ [entry]) ∧
      run (history room) after = (.ok entries, { after with store := after.store }) :=
    run_onStore_ok rfl hlast
  rcases hrun with ⟨_, hentries, hrun⟩
  cases hentries
  simp only [CommandLine.performVeto, hveto, hrun, List.getLast?_concat, Option.map_some,
    Option.getD_some]

/-- A veto at a party has three outcomes, whichever store it has and whatever was asked before:
it is refused, a replacement plays, or there is none and the command line prints the entry that
stays flagged. -/
theorem veto_has_three_outcomes (room : RoomId) (user : UserId) (now : Timestamp) :
    (∀ {party : Party Memory}, Reachable Memory.empty party →
      VetoOutcome Memory.Flags room user now party (run (veto room user now) party) ∧
      ∀ error, (run (veto room user now) party).1 = .error (.store error) →
        (∃ what, error = .notFound what) ∨ ∃ clash, error = .conflict clash) ∧
    ∀ {party : Party Database}, Reachable Database.empty party →
      VetoOutcome Database.Flags room user now party (run (veto room user now) party) ∧
      (∀ error, (run (veto room user now) party).1 = .error (.store error) →
        (∃ what, error = .notFound what) ∨ ∃ clash, error = .conflict clash) ∧
      ((run (veto room user now) party).1 = .error .noTracksLeft →
        ∃ latest,
          Database.Flags room user party.store latest
            (run (veto room user now) party).2.store ∧
          ∀ json, CommandLine.performVeto json room user now party =
            ⟨(CommandLine.Output.vetoed (latest.veto user)).text json, .error .noTracksLeft,
              (run (veto room user now) party).2⟩) := by
  constructor
  · intro party hreachable
    have houtcome := reflects_memory.veto (hreachable.backed shadows_memory rfl) room user now
    exact ⟨houtcome, fun error => houtcome.expected⟩
  · intro party hreachable
    have hbacked := hreachable.backed shadows_database ⟨Tables.empty, rfl, mirrors_empty⟩
    have houtcome := reflects_database.veto hbacked room user now
    refine ⟨houtcome, fun error => houtcome.expected, ?_⟩
    intro hnothing
    generalize hrun : run (veto room user now) party = outcome at houtcome hnothing ⊢
    cases houtcome with
    | refused => cases hnothing
    | replaced => cases hnothing
    | @unreplaced earlier latest after _ _ hflags _ _ hlast _ =>
        exact ⟨latest, hflags, performVeto_unreplaced hrun hlast⟩

def twoTracks : Catalog :=
  ⟨[{ id := ⟨"t"⟩, name := "Demo" }, { id := ⟨"s"⟩, name := "Single" }]⟩

def playedOnce : List Request :=
  [.register ⟨"ann"⟩ "Ann", .createRoom "Den" .roundRobin (fun _ => ⟨"DEN"⟩) 0,
    .join ⟨"DEN"⟩ ⟨"ann"⟩, .addTrack ⟨⟨"DEN"⟩, ⟨"ann"⟩⟩ ⟨"t"⟩ none ⟨"one"⟩,
    .nextTrack ⟨"DEN"⟩ ⟨"now", "now"⟩]

/-- With another track a replacement plays; without one, the veto stays and is printed. -/
theorem veto_has_three_outcomes_playedOnce :
    (∃ party : Party Memory, Reachable Memory.empty party ∧
      VetoOutcome Memory.Flags ⟨"DEN"⟩ ⟨"ann"⟩ ⟨"now", "now"⟩ party
        (run (veto ⟨"DEN"⟩ ⟨"ann"⟩ ⟨"now", "now"⟩) party) ∧
      (run (veto ⟨"DEN"⟩ ⟨"ann"⟩ ⟨"now", "now"⟩) party).1 =
        .ok ⟨(TrackEntry.served ⟨"ann"⟩ { id := ⟨"t"⟩, name := "Demo" } ⟨"now", "now"⟩).veto
          ⟨"ann"⟩, ⟨⟨"ann"⟩, "Ann"⟩, { id := ⟨"s"⟩, name := "Single" }⟩) ∧
    ∃ party : Party Database, Reachable Database.empty party ∧
      VetoOutcome Database.Flags ⟨"DEN"⟩ ⟨"ann"⟩ ⟨"now", "now"⟩ party
        (run (veto ⟨"DEN"⟩ ⟨"ann"⟩ ⟨"now", "now"⟩) party) ∧
      (run (veto ⟨"DEN"⟩ ⟨"ann"⟩ ⟨"now", "now"⟩) party).1 = .error .noTracksLeft ∧
      (CommandLine.performVeto false ⟨"DEN"⟩ ⟨"ann"⟩ ⟨"now", "now"⟩ party).written =
        "Vetoed Demo (by ann)\n" := by
  have hexact := veto_has_three_outcomes ⟨"DEN"⟩ ⟨"ann"⟩ ⟨"now", "now"⟩
  constructor
  · have hfresh : Reachable Memory.empty (start Memory.empty twoTracks {}) :=
      .fresh twoTracks {}
    have hreachable := hfresh.runAll
      (playedOnce ++ [.addTrack ⟨⟨"DEN"⟩, ⟨"ann"⟩⟩ ⟨"s"⟩ (some ⟨"one"⟩) ⟨"two"⟩])
    refine ⟨_, hreachable, (hexact.1 hreachable).1, ?_⟩
    decide +kernel
  · have hfresh : Reachable Database.empty (start Database.empty twoTracks {}) :=
      .fresh twoTracks {}
    have hreachable := hfresh.runAll playedOnce
    refine ⟨_, hreachable, (hexact.2 hreachable).1, ?_, ?_⟩
    · decide +kernel
    · decide +kernel

end Party
end Jukebox
