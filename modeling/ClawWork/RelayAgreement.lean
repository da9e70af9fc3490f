import ClawWork.DuplicateRelays

/-!
# Relays that take turns agree with a single one

The log of the task is always the log of a single relay: a row is added at its end,
and it is the row of the event that comes next. What a relay has put behind it is in
the log, or the task has ended, so that the next event of any relay is at most the
next event of the log.
-/

namespace RelayAgreement

open JavaScript SharedTypes TaskStore TasksService StatusFrames ReadCommitted PersistCalls LogCommits
open AdapterRelay SingleRelay RelayExit DuplicateRelays Transition

variable {settings : RelaySettings} {stream : Stream} {db db' : Database} {parsed : Parsed}

/-- The event is in the log. -/
def Committed (stream : Stream) (db : Database) (parsed : Parsed) : Prop :=
  ∃ row ∈ db.eventsOf stream.taskId, row.sourceEventId = parsed.sourceEventId

def Covered (stream : Stream) (db : Database) (parsed : Parsed) : Prop :=
  Ended db stream.taskId ∨ Committed stream db parsed

structure LogInv (stream : Stream) (interrupted : Bool) (db : Database) : Prop where
  sorted : db.taskEvents.Pairwise fun a b => a.id ≤ b.id
  relayed : ∃ n status failed, Relayed stream.entries n (db.eventsOf stream.taskId) status failed ∧
    Shows (db.status stream.taskId) status ∧ (failed = true → interrupted = true)
  results : ∀ row ∈ db.taskResults, row.taskId = stream.taskId → Ended db stream.taskId

theorem logInv_empty (stream : Stream) : LogInv stream false .empty where
  sorted := List.Pairwise.nil
  relayed := ⟨0, none, false, .start, rfl, fun h => h⟩
  results := fun row h => by cases h

theorem LogInv.interrupt {interrupted interrupted' : Bool} (h : LogInv stream interrupted db)
    (hmono : interrupted = true → interrupted' = true) : LogInv stream interrupted' db := by
  obtain ⟨n, status, failed, hrelayed, hshows, hfailed⟩ := h.relayed
  exact ⟨h.sorted, ⟨n, status, failed, hrelayed, hshows, fun hf => hmono (hfailed hf)⟩, h.results⟩

/-- A change that leaves the log and the results alone, and every end of the task. -/
structure Quiet (t : String) (db db' : Database) : Prop where
  events : db'.taskEvents = db.taskEvents
  results : db'.taskResults = db.taskResults
  status : StatusMoves (db.status t) (db'.status t)

theorem Quiet.refl (t : String) (db : Database) : Quiet t db db := ⟨rfl, rfl, .inl rfl⟩

theorem Quiet.eventsOf {t : String} (h : Quiet t db db') : db'.eventsOf t = db.eventsOf t := by
  rw [Database.eventsOf, h.events]
  rfl

theorem Quiet.ended {t : String} (h : Quiet t db db') : Ended db' t ↔ Ended db t := by
  rw [Ended, Ended]
  rcases h.status with hsame | ⟨hold, hnew⟩ | ⟨hold, hnew⟩
  · rw [hsame]
  · rw [hold, hnew]
    simp [TaskStatus.isTerminal]
  · rw [hold, hnew]
    simp [TaskStatus.isTerminal]

theorem Quiet.violatesSource {t : String} (h : Quiet t db db') (source : Option String) :
    db'.violatesSource t source = db.violatesSource t source := by
  simp only [Database.violatesSource, Database.hasSourceEvent, h.events]

theorem LogInv.quiet {interrupted : Bool} (h : LogInv stream interrupted db)
    (hquiet : Quiet stream.taskId db db') : LogInv stream interrupted db' := by
  obtain ⟨n, status, failed, hrelayed, hshows, hfailed⟩ := h.relayed
  refine ⟨by rw [hquiet.events]; exact h.sorted, ⟨n, status, failed, ?_, ?_, hfailed⟩, ?_⟩
  · rw [hquiet.eventsOf]
    exact hrelayed
  · exact hshows.moves hrelayed.status_ne_queued hquiet.status
  · rw [hquiet.results]
    exact fun row hrow htask => hquiet.ended.mpr (h.results row hrow htask)

/-- What is behind a relay stays behind it. -/
structure Grows (stream : Stream) (db db' : Database) : Prop where
  ended : Ended db stream.taskId → Ended db' stream.taskId
  committed : ∀ parsed, Committed stream db parsed → Committed stream db' parsed

theorem Grows.covered (h : Grows stream db db') (hparsed : Covered stream db parsed) :
    Covered stream db' parsed :=
  hparsed.imp h.ended (h.committed parsed)

theorem Quiet.grows (h : Quiet stream.taskId db db') : Grows stream db db' where
  ended := h.ended.mpr
  committed := by
    intro parsed hparsed
    rw [Committed, h.eventsOf]
    exact hparsed

/-- The committed events are those that the single relay has persisted. -/
theorem committed_iff {n : Nat} {status : Option TaskStatus} {failed : Bool}
    (h : Relayed stream.entries n (db.eventsOf stream.taskId) status failed) (hparsed : parsed ∈ stream.entries) :
    Committed stream db parsed ↔ parsed ∈ stream.entries.take n := by
  have hsources := h.sources
  obtain ⟨source, hsource⟩ := Option.isSome_iff_exists.mp (stream.named parsed hparsed)
  have hsome : parsed.sourceEventId = some source := (Option.filter_eq_some_iff.mp hsource).1
  constructor
  · rintro ⟨row, hrow, heq⟩
    have hmem : parsed.sourceEventId ∈ (db.eventsOf stream.taskId).map TaskEvent.sourceEventId := by
      rw [← heq]
      exact List.mem_map_of_mem hrow
    rw [hsources, List.mem_append] at hmem
    rcases hmem with hmem | hmem
    · obtain ⟨other, hother, hid⟩ := List.mem_map.mp hmem
      have hsame := List.inj_on_of_nodup_map stream.distinct (List.mem_of_mem_take hother) hparsed hid
      rw [← hsame]
      exact hother
    · rw [hsome] at hmem
      split at hmem
      · rw [List.mem_singleton] at hmem
        cases hmem
      · cases hmem
  · intro hmem
    have hid : parsed.sourceEventId ∈ (db.eventsOf stream.taskId).map TaskEvent.sourceEventId := by
      rw [hsources]
      exact List.mem_append_left _ (List.mem_map_of_mem hmem)
    obtain ⟨row, hrow, heq⟩ := List.mem_map.mp hid
    exact ⟨row, hrow, heq⟩

/-- An event whose predecessors are in the log, and which is not, comes next. -/
theorem next_of_committed {n : Nat} {status : Option TaskStatus} {failed : Bool} {before rest : List Parsed}
    (h : Relayed stream.entries n (db.eventsOf stream.taskId) status failed)
    (hentries : stream.entries = before ++ parsed :: rest)
    (hbefore : ∀ other ∈ before, Committed stream db other) (hfresh : ¬ Committed stream db parsed) :
    stream.entries[n]? = some parsed := by
  have hmem : parsed ∈ stream.entries := by
    rw [hentries]
    simp
  have hlen : n = before.length := by
    have hle := h.le
    apply Nat.le_antisymm
    · by_contra hlt
      apply hfresh
      rw [committed_iff h hmem, hentries, List.mem_take_iff_getElem]
      refine ⟨before.length, ?_, by simp⟩
      rw [hentries] at hle
      simp only [List.length_append, List.length_cons] at hle ⊢
      omega
    · by_contra hlt
      have hlt : n < before.length := by omega
      have hlast : before[n] ∈ stream.entries.take n := by
        rw [← committed_iff h (by rw [hentries]; simp)]
        exact hbefore _ (List.getElem_mem hlt)
      obtain ⟨i, hi, heq⟩ := List.mem_take_iff_getElem.mp hlast
      have hnext : n < stream.entries.length := by
        rw [hentries, List.length_append]
        omega
      have hsame : stream.entries[i] = stream.entries[n] := by
        rw [heq]
        simp [hentries, List.getElem_append_left hlt]
      have := (List.Nodup.of_map _ stream.distinct).getElem_inj_iff.mp hsame
      omega
  rw [hlen, hentries]
  simp

/-- The row that a call commits, in a log that it is the last of. -/
structure Appends (row : TaskEvent) (db db' : Database) : Prop where
  events : db'.taskEvents = (insertEvent row db).taskEvents
  status : db'.status row.taskId = (db.status row.taskId).map (rowStatus row).getD
  last : ∀ old ∈ db.eventsOf row.taskId, old.id < row.id
  unended : ¬ Ended db row.taskId
  exists_task : (db.status row.taskId).isSome = true

variable {row : TaskEvent} {interrupted : Bool}

theorem Appends.eventsOf (h : Appends row db db') (hsorted : db.taskEvents.Pairwise fun a b => a.id ≤ b.id) :
    db'.eventsOf row.taskId = db.eventsOf row.taskId ++ [row] := by
  rw [← eventsOf_insertEvent_last hsorted h.last, Database.eventsOf, h.events]
  rfl

theorem Appends.grows (h : Appends row db db') (hsorted : db.taskEvents.Pairwise fun a b => a.id ≤ b.id)
    (htask : row.taskId = stream.taskId) : Grows stream db db' where
  ended := fun hended => absurd (by rw [htask]; exact hended) h.unended
  committed := by
    rintro parsed ⟨old, hold, heq⟩
    refine ⟨old, ?_, heq⟩
    rw [← htask] at hold ⊢
    rw [h.eventsOf hsorted]
    exact List.mem_append_left _ hold

theorem not_ended_iff {t : String} : ¬ Ended db t ↔ (db.status t).any TaskStatus.isTerminal = false := by
  rw [Ended, Bool.not_eq_true]

/-- The log after a commit; the results of the task are there only when it has ended. -/
theorem LogInv.append (h : LogInv stream interrupted db) (happ : Appends row db db')
    (htask : row.taskId = stream.taskId)
    (hresults : ∀ result ∈ db'.taskResults, result ∈ db.taskResults ∨ Ended db' stream.taskId)
    (hkind : (∃ before parsed rest, stream.entries = before ++ parsed :: rest ∧
        (∀ other ∈ before, Covered stream db other) ∧ Holds parsed row ∧ ¬ Committed stream db parsed) ∨
      Reports row ∧ interrupted = true) : LogInv stream interrupted db' := by
  obtain ⟨n, status, failed, hrelayed, hshows, hfailed⟩ := h.relayed
  have hevents := happ.eventsOf h.sorted
  have hunended := happ.unended
  rw [htask] at hevents hunended
  have hopen : status.any TaskStatus.isTerminal = false := by
    rw [← hshows.ended]
    exact not_ended_iff.mp hunended
  obtain rfl := hrelayed.unfailed hopen
  have hshown : Shows (db'.status stream.taskId) ((rowStatus row).or status) := by
    rw [← htask, happ.status]
    refine Shows.commit ?_ happ.exists_task _
    rw [htask]
    exact hshows
  refine ⟨?_, ?_, fun result hresult hof => ?_⟩
  · rw [happ.events]
    exact h.sorted.orderedInsert _ _
  · rcases hkind with ⟨before, parsed, rest, hentries, hbefore, hholds, hfresh⟩ | ⟨hreports, hint⟩
    · refine ⟨n + 1, _, false, ?_, hshown, fun hf => by cases hf⟩
      rw [hevents]
      refine .persist hrelayed hopen (next_of_committed hrelayed hentries (fun other hother => ?_) hfresh) hholds
      exact (hbefore other hother).resolve_left hunended
    · refine ⟨n, _, true, ?_, hshown, fun _ => hint⟩
      rw [hevents, hreports.rowStatus]
      exact .fail hrelayed hopen hreports
  · rcases hresults result hresult with hold | hended
    · exact absurd (h.results result hold hof) hunended
    · exact hended

/-- What a response leaves out for a client with a cursor is in its log. -/
theorem after_covers (h : LogInv stream interrupted db) :
    ∃ before, stream.entries = before ++ stream.after (truthy (lastSourceEventId db stream.taskId)) ∧
      ∀ parsed ∈ before, Committed stream db parsed := by
  obtain ⟨n, status, failed, hrelayed, -⟩ := h.relayed
  cases hlast : truthy (lastSourceEventId db stream.taskId) with
  | none => exact ⟨[], rfl, fun parsed hparsed => by cases hparsed⟩
  | some source =>
    have hfound := (Option.filter_eq_some_iff.mp hlast).1
    obtain ⟨row, hrow, hsource⟩ := List.exists_of_findSome?_eq_some hfound
    have hin : some source ∈ (db.eventsOf stream.taskId).map TaskEvent.sourceEventId := by
      rw [← hsource]
      exact List.mem_map_of_mem (List.mem_reverse.mp hrow)
    rw [hrelayed.sources, List.mem_append] at hin
    have htake : ∃ other ∈ stream.entries.take n, other.sourceEventId = some source := by
      rcases hin with hin | hin
      · exact List.mem_map.mp hin
      · split at hin
        · rw [List.mem_singleton] at hin
          cases hin
        · cases hin
    let p : Parsed → Bool := fun parsed => parsed.sourceEventId ≠ some source
    have hsplit : stream.entries.takeWhile p ++ stream.entries.dropWhile p = stream.entries :=
      List.takeWhile_append_dropWhile
    cases hdrop : stream.entries.dropWhile p with
    | nil =>
      refine ⟨[], ?_, fun parsed hparsed => by cases hparsed⟩
      have hafter : stream.after (some source) = stream.entries := by
        simp only [Stream.after]
        rw [show List.dropWhile _ stream.entries = [] from hdrop]
      rw [hafter]
      rfl
    | cons first rest =>
      have hafter : stream.after (some source) = rest := by
        simp only [Stream.after]
        rw [show List.dropWhile _ stream.entries = first :: rest from hdrop]
      rw [hdrop] at hsplit
      refine ⟨stream.entries.takeWhile p ++ [first], by rw [hafter, List.append_assoc]; exact hsplit.symm, ?_⟩
      -- The event with the id of the cursor is among the first `n`, hence all up to it.
      have hlt : (stream.entries.takeWhile p).length < n := by
        by_contra hle
        obtain ⟨other, hother, hid⟩ := htake
        rw [← hsplit, List.take_append_of_le_length (by omega)] at hother
        have hp := List.all_eq_true.mp List.all_takeWhile other (List.mem_of_mem_take hother)
        simp [p, hid] at hp
      have hbefore : stream.entries.takeWhile p ++ [first] <+: stream.entries.take n := by
        rw [List.prefix_take_iff]
        refine ⟨⟨rest, by rw [List.append_assoc]; exact hsplit⟩, ?_⟩
        rw [List.length_append]
        exact hlt
      intro parsed hparsed
      have hmem := hbefore.subset hparsed
      exact (committed_iff hrelayed (List.mem_of_mem_take hmem)).mpr hmem

/-- The event that the relay is about to hand on. -/
def current : AdapterRelay.Phase → List Parsed
  | .persisting parsed _ => [parsed]
  | _ => []

/-- The events that a relay has still to put behind it. -/
def todo (party : Party) : List Parsed := current party.relay.phase ++ party.relay.pending ++ party.unread

/-- What the phase of a relay says: that nothing is buffered, where the response goes on, or why the relay
is about to fail the task. -/
def PhaseInv (stream : Stream) (db : Database) (interrupted : Bool) (relay : Relay) : Prop :=
  match relay.phase with
  | .cursor | .reading => relay.pending = []
  | .fetching lastEventId => relay.pending = [] ∧ ∃ before,
      stream.entries = before ++ stream.after lastEventId ∧ ∀ parsed ∈ before, Committed stream db parsed
  | .persisting _ _ => True
  | .failing _ _ _ | .requestingCancellation => interrupted = true
  | .failPersist _ event => interrupted = true ∧ event.taskId = stream.taskId ∧
      ∃ code message, event.detail = .failed code message
  | .returned => relay.aborted = true ∨ Ended db stream.taskId

/-- Only the completion of the task writes results, and they are its own. -/
def ResultsInv (stream : Stream) (s : PersistCalls.System) (c : Nat) (prepared : Prepared)
    (todo : List Statement) : Prop :=
  (prepared.stored.detail = .completed ∧ ∀ row, .createResult row ∈ todo → row.taskId = stream.taskId) ∨
    (ResultVersions.Plain todo ∧
      ∀ db, (applyWrites (s.server.writes c) db).taskResults = db.taskResults)

/-- An inserted row comes last in the log, and the call that has inserted it can go on to its end. -/
structure Ready (stream : Stream) (s : PersistCalls.System) (c : Nat) (call : Call) (prepared : Prepared)
    (id : Nat) (todo : List Statement) : Prop where
  unended : ¬ Ended s.db stream.taskId
  last : ∀ row ∈ s.db.eventsOf stream.taskId, row.id < id
  fresh : s.db.violatesSource stream.taskId call.sourceEventId = false
  results : ResultsInv stream s c prepared todo

/-- What `persistTaskEvent` was called for is done. -/
def Settled (stream : Stream) (db : Database) : AdapterRelay.Phase → Prop
  | .persisting parsed _ => Covered stream db parsed
  | .failPersist _ _ => Ended db stream.taskId
  | _ => True

/-- The call that a relay waits for. -/
structure CallInv (stream : Stream) (s : PersistCalls.System) (phase : AdapterRelay.Phase) (c : Nat)
    (call : Call) : Prop where
  running : isDone call.phase = false
  calling : persisting phase = some (call.event, call.sourceEventId)
  prepared : ∀ prepared, EventIds.preparedOf call.phase = some prepared →
    prepareTaskEvent call.archived call.event = some prepared
  ready : ∀ prepared task id todo, call.phase = .project prepared task id todo →
    Ready stream s c call prepared id todo
  settled : ∀ prepared id, call.phase = .publish prepared id → Settled stream s.db phase

structure PartyInv (stream : Stream) (s : PersistCalls.System) (interrupted : Bool) (party : Party) : Prop where
  task : party.relay.taskId = stream.taskId
  covers : ∃ before, stream.entries = before ++ todo party ∧ ∀ parsed ∈ before, Covered stream s.db parsed
  timed : party.relay.timedOut = true → interrupted = true
  phase : PhaseInv stream s.db interrupted party.relay
  call : ∀ c ∈ party.call, ∃ call, s.calls c = some call ∧ CallInv stream s party.relay.phase c call

variable {s s' : PersistCalls.System} {party : Party} {relay : Relay} {unread : List Parsed} {c : Nat}
  {call : Call}

theorem PhaseInv.grows {interrupted' : Bool} (h : PhaseInv stream db interrupted relay)
    (hgrows : Grows stream db db') (hint : interrupted = true → interrupted' = true) :
    PhaseInv stream db' interrupted' relay := by
  unfold PhaseInv at h ⊢
  split at h
  · exact h
  · exact h
  · obtain ⟨hnil, before, hentries, hbefore⟩ := h
    exact ⟨hnil, before, hentries, fun parsed hparsed => hgrows.committed parsed (hbefore parsed hparsed)⟩
  · trivial
  · exact hint h
  · exact hint h
  · exact ⟨hint h.1, h.2⟩
  · exact h.imp_right hgrows.ended

theorem Settled.grows {phase : AdapterRelay.Phase} (h : Settled stream db phase)
    (hgrows : Grows stream db db') : Settled stream db' phase := by
  cases phase with
  | persisting parsed phase => exact hgrows.covered h
  | failPersist inCatch event => exact hgrows.ended h
  | _ => trivial

theorem Ready.quiet {prepared : Prepared} {id : Nat} {todo : List Statement}
    (h : Ready stream s c call prepared id todo) (hquiet : Quiet stream.taskId s.db s'.db)
    (hwrites : s'.server.writes c = s.server.writes c) : Ready stream s' c call prepared id todo where
  unended := fun hended => h.unended (hquiet.ended.mp hended)
  last := by
    rw [hquiet.eventsOf]
    exact h.last
  fresh := (hquiet.violatesSource _).trans h.fresh
  results := by
    rw [ResultsInv, hwrites]
    exact h.results

/-- A relay that does not move. -/
theorem PartyInv.frame {interrupted' : Bool} (h : PartyInv stream s interrupted party)
    (hgrows : Grows stream s.db s'.db) (hint : interrupted = true → interrupted' = true)
    (hcall : ∀ c ∈ party.call, s'.calls c = s.calls c ∧ s'.server.writes c = s.server.writes c)
    (hquiet : ((party.call.bind s.calls).any fun call => inserted call.phase) = true →
      Quiet stream.taskId s.db s'.db) : PartyInv stream s' interrupted' party where
  task := h.task
  covers := by
    obtain ⟨before, hentries, hbefore⟩ := h.covers
    exact ⟨before, hentries, fun parsed hparsed => hgrows.covered (hbefore parsed hparsed)⟩
  timed := fun ht => hint (h.timed ht)
  phase := h.phase.grows hgrows hint
  call := by
    intro c hc
    obtain ⟨call, hcalls, hinv⟩ := h.call c hc
    obtain ⟨hsame, hwrites⟩ := hcall c hc
    refine ⟨call, by rw [hsame, hcalls], hinv.running, hinv.calling, hinv.prepared, ?_, ?_⟩
    · intro prepared task id todo hphase
      refine (hinv.ready prepared task id todo hphase).quiet (hquiet ?_) hwrites
      rw [show party.call = some c from hc, Option.bind_some, hcalls, Option.any_some, hphase]
      rfl
    · exact fun prepared id hphase => (hinv.settled prepared id hphase).grows hgrows

/-- A relay outside `persistTaskEvent` waits for no call. -/
theorem PartyInv.idle (h : PartyInv stream s interrupted party) (hphase : persisting party.relay.phase = none) :
    party.call = none := by
  cases hc : party.call with
  | none => rfl
  | some c =>
    obtain ⟨call, -, hinv⟩ := h.call c hc
    have hcalling := hinv.calling
    rw [hphase] at hcalling
    cases hcalling

/-- The relay goes on with the events that it has received. -/
theorem partyInv_resume {received : List Parsed} (htask : relay.taskId = stream.taskId)
    (hcovers : ∃ before, stream.entries = before ++ (received ++ unread) ∧
      ∀ parsed ∈ before, Covered stream s.db parsed)
    (htimed : relay.timedOut = true → interrupted = true) :
    PartyInv stream s interrupted ⟨relay.resume received, unread, none⟩ := by
  cases received with
  | cons parsed rest => exact ⟨htask, hcovers, htimed, trivial, fun c hc => by cases hc⟩
  | nil =>
    refine ⟨htask, ?_, htimed, ?_, fun c hc => by cases hc⟩
    · have htodo : todo ⟨relay.resume [], unread, none⟩ = [] ++ unread := by
        unfold todo Relay.resume
        dsimp only
        split <;> rfl
      rw [htodo]
      exact hcovers
    · unfold PhaseInv Relay.resume
      dsimp only
      by_cases haborted : relay.aborted = true
      · simp [haborted]
      · simp [haborted]

theorem ended_of_covered (h : LogInv stream interrupted db) (hmem : parsed ∈ stream.entries)
    (hcovered : Covered stream db parsed) (hterminal : parsed.event.isTerminal = true) :
    Ended db stream.taskId := by
  rcases hcovered with hended | hcommitted
  · exact hended
  · obtain ⟨n, status, failed, hrelayed, hshows, -⟩ := h.relayed
    rw [Ended, hshows.ended]
    exact hrelayed.ended parsed ((committed_iff hrelayed hmem).mp hcommitted) hterminal

/-- `persistTaskEvent` has returned. -/
theorem partyInv_returns (h : PartyInv stream s interrupted party) (hlog : LogInv stream interrupted s.db)
    (hpersisting : (persisting party.relay.phase).isSome = true)
    (hsettled : Settled stream s.db party.relay.phase) :
    PartyInv stream s interrupted { party with relay := returns party.relay, call := none } := by
  obtain ⟨before, hentries, hbefore⟩ := h.covers
  cases hphase : party.relay.phase with
  | persisting parsed phase =>
    rw [hphase] at hsettled
    rw [todo, hphase] at hentries
    have hnext : stream.entries = (before ++ [parsed]) ++ (party.relay.pending ++ party.unread) := by
      simpa [current] using hentries
    have hcovered : ∀ other ∈ before ++ [parsed], Covered stream s.db other := by
      intro other hother
      rcases List.mem_append.mp hother with hother | hother
      · exact hbefore other hother
      · rw [List.mem_singleton.mp hother]
        exact hsettled
    unfold returns Relay.afterPersist
    rw [hphase]
    dsimp only
    split
    · rename_i hterminal
      refine ⟨h.task, ⟨_, hnext, hcovered⟩, h.timed, .inr ?_, fun c hc => by cases hc⟩
      refine ended_of_covered hlog ?_ hsettled hterminal
      rw [hentries]
      simp [current]
    · exact partyInv_resume h.task ⟨_, hnext, hcovered⟩ h.timed
  | failPersist inCatch event =>
    rw [hphase] at hsettled
    rw [todo, hphase] at hentries
    unfold returns
    rw [hphase]
    exact ⟨h.task, ⟨before, hentries, hbefore⟩, h.timed, .inr hsettled, fun c hc => by cases hc⟩
  | _ =>
    rw [hphase] at hpersisting
    cases hpersisting

/-- The `catch` block, entered outside `persistTaskEvent`. -/
theorem partyInv_catchError (h : PartyInv stream s interrupted party) {interrupted' : Bool}
    (hint : interrupted = true → interrupted' = true) (hidle : persisting party.relay.phase = none)
    (hopen : party.relay.aborted = false → interrupted' = true) (message : String) :
    PartyInv stream s interrupted' { party with relay := party.relay.catchError message } := by
  have hcall := h.idle hidle
  have hcurrent : current party.relay.phase = [] := by
    cases hphase : party.relay.phase with
    | persisting parsed phase =>
      rw [hphase] at hidle
      cases hidle
    | _ => rfl
  have hcovers := h.covers
  rw [todo, hcurrent] at hcovers
  unfold Relay.catchError
  split
  · rename_i htimed
    refine ⟨h.task, hcovers, fun ht => hint (h.timed ht), hint (h.timed htimed), fun c hc => ?_⟩
    rw [hcall] at hc
    cases hc
  · split
    · rename_i haborted
      refine ⟨h.task, hcovers, fun ht => hint (h.timed ht), .inl haborted, fun c hc => ?_⟩
      rw [hcall] at hc
      cases hc
    · rename_i haborted
      refine ⟨h.task, hcovers, fun ht => hint (h.timed ht), hopen (by simpa using haborted), fun c hc => ?_⟩
      rw [hcall] at hc
      cases hc

theorem unreadAfter_of_ne {old new : AdapterRelay.Phase} (h : new ≠ .reading) :
    unreadAfter stream old new unread = unread := by
  unfold unreadAfter
  split
  · exact absurd rfl h
  · rfl

theorem unreadAfter_same (phase : AdapterRelay.Phase) : unreadAfter stream phase phase unread = unread := by
  cases phase <;> rfl

theorem PhaseInv.abort (h : PhaseInv stream db interrupted relay) {interrupted' : Bool} {aborted : Relay}
    (hint : interrupted = true → interrupted' = true) (hphase : aborted.phase = relay.phase)
    (hpending : aborted.pending = relay.pending) (haborted : aborted.aborted = true) :
    PhaseInv stream db interrupted' aborted := by
  unfold PhaseInv at h ⊢
  rw [hphase, hpending]
  cases hp : relay.phase with
  | failing | requestingCancellation =>
    rw [hp] at h
    exact hint h
  | failPersist inCatch event =>
    rw [hp] at h
    exact ⟨hint h.1, h.2⟩
  | returned => exact .inl haborted
  | persisting => trivial
  | _ =>
    rw [hp] at h
    exact h

/-- The timer fires, or another party aborts the relay, at any `await`. -/
theorem PartyInv.abort (h : PartyInv stream s interrupted party) {interrupted' : Bool} {aborted : Relay}
    (hint : interrupted = true → interrupted' = true) (htask : aborted.taskId = party.relay.taskId)
    (hphase : aborted.phase = party.relay.phase) (hpending : aborted.pending = party.relay.pending)
    (haborted : aborted.aborted = true) (htimed : aborted.timedOut = true → interrupted' = true) :
    PartyInv stream s interrupted' { party with relay := aborted } where
  task := htask.trans h.task
  covers := by
    have hcovers := h.covers
    rw [todo] at hcovers ⊢
    dsimp only
    rw [hphase, hpending]
    exact hcovers
  timed := htimed
  phase := h.phase.abort hint hphase hpending haborted
  call := by
    dsimp only
    rw [hphase]
    exact h.call

/-- The relay moves on outside `persistTaskEvent` and has no event at hand. -/
theorem PartyInv.goto (h : PartyInv stream s interrupted party) {interrupted' : Bool}
    {phase : AdapterRelay.Phase} (hidle : persisting party.relay.phase = none)
    (hcurrent : current phase = []) (hint : interrupted = true → interrupted' = true)
    (hcovers : ∃ before, stream.entries = before ++ (party.relay.pending ++ unread) ∧
      ∀ parsed ∈ before, Covered stream s.db parsed)
    (hphase : PhaseInv stream s.db interrupted' { party.relay with phase }) :
    PartyInv stream s interrupted' { party with relay := { party.relay with phase }, unread } where
  task := h.task
  covers := by
    rw [todo]
    dsimp only
    rw [hcurrent]
    exact hcovers
  timed := fun ht => hint (h.timed ht)
  phase := hphase
  call := by
    intro c hc
    rw [h.idle hidle] at hc
    cases hc

theorem PartyInv.rest (h : PartyInv stream s interrupted party) (hcurrent : current party.relay.phase = []) :
    ∃ before, stream.entries = before ++ (party.relay.pending ++ party.unread) ∧
      ∀ parsed ∈ before, Covered stream s.db parsed := by
  have hcovers := h.covers
  rw [todo, hcurrent] at hcovers
  exact hcovers

/-- A step of a relay outside `persistTaskEvent`. -/
theorem partyInv_relay (h : PartyInv stream s interrupted party) (hlog : LogInv stream interrupted s.db)
    (hkeyed : Keyed s.db) (hsome : (s.db.status stream.taskId).isSome = true) {l : AdapterRelay.Label}
    {next : State} (hown : isOwn party.relay.phase l = true)
    (hstep : AdapterRelay.step settings ⟨s.db, party.relay⟩ l = some next) :
    PartyInv stream s (interrupted || interrupts party.relay l) { party with
      relay := next.relay, unread := unreadAfter stream party.relay.phase next.relay.phase party.unread } := by
  have hint : ∀ b : Bool, interrupted = true → (interrupted || b) = true := by
    intro b hb
    rw [hb, Bool.true_or]
  have hphase := h.phase
  unfold PhaseInv at hphase
  cases l with
  | database now resultId message =>
    cases hp : party.relay.phase with
    | cursor =>
      simp only [AdapterRelay.step, State.answer, hp, Option.some.injEq] at hstep
      rw [hp] at hphase
      rw [← hstep, unreadAfter_of_ne (by simp)]
      refine h.goto (by rw [hp]; rfl) rfl (hint _) (h.rest (by rw [hp]; rfl)) ⟨hphase, ?_⟩
      rw [h.task]
      exact after_covers hlog
    | failing inCatch code text =>
      simp only [AdapterRelay.step, State.answer, hp] at hstep
      rw [hp] at hphase
      split at hstep
      · rename_i hnone
        cases hstep
        rw [h.task] at hnone
        rw [unreadAfter_of_ne (by simp)]
        exact h.goto (by rw [hp]; rfl) rfl (hint _) (h.rest (by rw [hp]; rfl))
          (.inr (failTaskEvent_eq_none hsome hnone))
      · rename_i event hevent
        cases hstep
        rw [h.task] at hevent
        obtain ⟨htask, hdetail⟩ := failTaskEvent_eq_some hkeyed hevent
        rw [unreadAfter_of_ne (by simp)]
        exact h.goto (by rw [hp]; rfl) rfl (hint _) (h.rest (by rw [hp]; rfl))
          ⟨hint _ hphase, htask, _, _, hdetail⟩
    | _ =>
      rw [hp] at hown
      cases hown
  | fetched status hasBody =>
    simp only [AdapterRelay.step] at hstep
    split at hstep
    · rename_i lastEventId hp
      rw [hp] at hphase
      obtain ⟨hnil, before, hentries, hbefore⟩ := hphase
      split at hstep
      · cases hstep
      · rename_i hopen
        split at hstep <;> cases hstep
        · rw [hp]
          refine h.goto (by rw [hp]; rfl) rfl (hint _) ⟨before, ?_, fun parsed hparsed => .inr (hbefore parsed hparsed)⟩
            hnil
          rw [hnil]
          exact hentries
        · rename_i hbad
          rw [unreadAfter_of_ne (catchError_phase _ _)]
          refine partyInv_catchError h (hint _) (by rw [hp]; rfl) (fun _ => ?_) _
          have hinterrupts : interrupts party.relay (.fetched status hasBody) = true := by
            simp only [not_and, Bool.not_eq_true] at hbad
            simp only [interrupts, Bool.not_eq_true', Bool.and_eq_false_iff, decide_eq_false_iff_not]
            by_cases hlow : 200 ≤ status
            · by_cases hhigh : status < 300
              · exact .inr (hbad hlow hhigh)
              · exact .inl (.inr hhigh)
            · exact .inl (.inl hlow)
          rw [hinterrupts, Bool.or_true]
    · cases hstep
  | fetchFailed message =>
    simp only [AdapterRelay.step] at hstep
    split at hstep <;> cases hstep
    rename_i hp
    rw [unreadAfter_of_ne (catchError_phase _ _)]
    refine partyInv_catchError h (hint _) (by rw [hp]; rfl) (fun hopen => ?_) message
    rw [interrupts, hopen, Bool.not_false, Bool.or_true]
  | ended =>
    simp only [AdapterRelay.step] at hstep
    split at hstep
    · rename_i hp
      split at hstep <;> cases hstep
      rw [hp, unreadAfter_of_ne (by simp)]
      exact h.goto (by rw [hp]; rfl) rfl (hint _) (h.rest (by rw [hp]; rfl)) (Bool.or_true _)
    · cases hstep
  | readFailed message =>
    simp only [AdapterRelay.step] at hstep
    split at hstep <;> cases hstep
    rename_i hp
    rw [unreadAfter_of_ne (catchError_phase _ _)]
    refine partyInv_catchError h (hint _) (by rw [hp]; rfl) (fun hopen => ?_) message
    rw [interrupts, hopen, Bool.not_false, Bool.or_true]
  | cancellationAnswered =>
    simp only [AdapterRelay.step] at hstep
    split at hstep <;> cases hstep
    rename_i hp
    rw [hp] at hphase
    rw [hp, unreadAfter_of_ne (by simp)]
    exact h.goto (by rw [hp]; rfl) rfl (hint _) (h.rest (by rw [hp]; rfl)) (hint _ hphase)
  | timer =>
    simp only [AdapterRelay.step] at hstep
    split at hstep <;> cases hstep
    rw [unreadAfter_same]
    exact h.abort (hint _) rfl rfl rfl rfl fun _ => Bool.or_true _
  | stop =>
    simp only [AdapterRelay.step] at hstep
    split at hstep <;> cases hstep
    rw [unreadAfter_same]
    exact h.abort (hint _) rfl rfl rfl rfl fun ht => hint _ (h.timed ht)
  | prepared => cases hown
  | chunk => cases hown
  | other => cases hown

theorem event_taskId (h : PartyInv stream s interrupted party) {event : TaskStreamEvent} {source : Option String}
    (hcalling : persisting party.relay.phase = some (event, source)) : event.taskId = stream.taskId := by
  cases hp : party.relay.phase with
  | persisting parsed phase =>
    rw [hp] at hcalling
    cases hcalling
    obtain ⟨before, hentries, -⟩ := h.covers
    apply stream.own
    rw [hentries, todo, hp]
    simp [current]
  | failPersist inCatch failure =>
    have hphase := h.phase
    rw [PhaseInv, hp] at hphase
    rw [hp] at hcalling
    cases hcalling
    exact hphase.2.1
  | _ =>
    rw [hp] at hcalling
    cases hcalling

/-- A source event id that a check has found is that of the event at hand. -/
theorem settled_of_source {phase : AdapterRelay.Phase} {event : TaskStreamEvent} {source : Option String}
    (hcalling : persisting phase = some (event, source))
    (hfound : (truthy source).any (fun id => db.hasSourceEvent stream.taskId id) = true) :
    Settled stream db phase := by
  obtain ⟨id, hid, hhas⟩ := (Option.any_eq_true _ _).mp hfound
  have hsource := (Option.filter_eq_some_iff.mp hid).1
  cases phase with
  | persisting parsed phase =>
    cases hcalling
    obtain ⟨row, hrow, hsame⟩ := List.any_eq_true.mp hhas
    obtain ⟨htask, heq⟩ := Bool.and_eq_true_iff.mp hsame
    refine .inr ⟨row, List.mem_filter.mpr ⟨hrow, htask⟩, ?_⟩
    rw [hsource]
    exact of_decide_eq_true heq
  | failPersist inCatch failure =>
    cases hcalling
    cases hsource
  | _ => trivial

theorem settled_of_ended (phase : AdapterRelay.Phase) (h : Ended db stream.taskId) : Settled stream db phase := by
  cases phase with
  | persisting parsed phase => exact .inl h
  | failPersist inCatch failure => exact h
  | _ => trivial

/-- What a transaction sees of the log after its insertion. -/
theorem view_taskEvents (h : Tracked s) (hcall : s.calls c = some call) {prepared : Prepared} {task : Task}
    {id : Nat} {todo : List Statement} (hphase : call.phase = .project prepared task id todo) :
    (s.server.view c).taskEvents =
      (insertEvent (eventRow prepared.stored call.sourceEventId id) s.db).taskEvents := by
  have hpending := h.pending c call hcall
  rw [Pending, hphase] at hpending
  obtain ⟨-, ws, status, hwrites, hsets, -⟩ := hpending
  rw [Server.view, hwrites, applyWrites_cons, hsets.events]
  rfl

/-- The rows that the completion of a task reads can be read back. -/
theorem view_parses (settings : RelaySettings) (htracked : Tracked s) (hlog : LogInv stream interrupted s.db)
    (hcall : s.calls c = some call) {prepared : Prepared} {task : Task} {id : Nat} {todo : List Statement}
    (hphase : call.phase = .project prepared task id todo) (htask : task.id = stream.taskId)
    (hprepared : prepareTaskEvent call.archived call.event = some prepared) :
    (((s.server.view c).eventsOf task.id).mapM fun row =>
      parsePersistedEvent settings.toSettings row.payload).isSome = true := by
  rw [EventProjection.mapM_of_isSome, Option.isSome_some]
  intro row hrow
  obtain ⟨hrow, hof⟩ := List.mem_filter.mp hrow
  rw [view_taskEvents htracked hcall hphase, mem_insertEvent] at hrow
  rcases hrow with rfl | hrow
  · rw [eventRow, parsePersistedEvent, parseTaskStreamEvent_toJson (prepareTaskEvent_storable hprepared)]
    rfl
  · obtain ⟨n, status, failed, hrelayed, -⟩ := hlog.relayed
    rw [htask] at hof
    exact hrelayed.parses row (List.mem_filter.mpr ⟨hrow, hof⟩)

/-- The version of a result is free. -/
theorem version_free {obtained : List (String × String)} (hversions : ResultVersions.Inv ⟨s, obtained⟩)
    (hlog : LogInv stream interrupted s.db) (hcall : s.calls c = some call) {prepared : Prepared} {task : Task}
    {id : Nat} {row : TaskResult} {todo : List Statement}
    (hphase : call.phase = .project prepared task id (.createResult row :: todo))
    (hready : Ready stream s c call prepared id (.createResult row :: todo)) :
    (s.server.view c).violatesVersion row = false := by
  have htask : row.taskId = stream.taskId := by
    rcases hready.results with ⟨-, hown⟩ | ⟨hplain, -⟩
    · exact hown row List.mem_cons_self
    · cases hplain _ List.mem_cons_self
  have hview : (s.server.view c).taskResults = s.db.taskResults := by
    have hinv := hversions.calls c call hcall
    rw [ResultVersions.CallInv, hphase] at hinv
    obtain ⟨rows, hinserts, hstage⟩ := hinv
    cases hstage with
    | plain hplain => cases hplain _ List.mem_cons_self
    | inserted hheld hnext hplain => cases hplain _ List.mem_cons_self
    | creating hheld hnext hplain => exact (hinserts s.db).trans (List.append_nil _)
  have hunique := (hversions.versioned row.sessionId).unique c call prepared task id row todo hcall hphase rfl
  rw [Database.violatesVersion, List.any_eq_false]
  intro old hold
  rw [Bool.and_eq_true, Bool.or_eq_true, decide_eq_true_eq, decide_eq_true_eq, decide_eq_true_eq]
  rintro ⟨hsession | hsame, hversion⟩
  · exact hunique old hold ⟨hsession, hversion⟩
  · rw [hview] at hold
    exact hready.unended (hlog.results old hold (hsame.trans htask))

theorem quiet_advance (t : String) (hstep : s.advance settings.toSettings c call = some s')
    (hcommit : callCommits call = none) : Quiet t s.db s'.db := by
  have hmoves := PersistWrites.serverMoves_advance hstep
  generalize hserver : s'.server = server at hmoves
  have hdb : s'.db = server.db := by rw [PersistCalls.System.db, hserver]
  rw [hdb]
  cases hmoves with
  | stays hsame hwrites =>
    rw [hsame]
    exact Quiet.refl t s.db
  | draws hphase => exact ⟨rfl, rfl, .inl rfl⟩
  | writes hw hsame hwrites =>
    rw [Server.write_db, hsame]
    exact Quiet.refl t s.db
  | leaves hsame hwrites =>
    rw [Server.rollback_db, hsame]
    exact Quiet.refl t s.db
  | commits hphase =>
    rw [callCommits, hphase] at hcommit
    cases hcommit

/-- What is known of a relay and of its call before the next statement of the call. -/
structure Moving (stream : Stream) (sys : DuplicateRelays.System) (party : Party) (c : Nat)
    (call : Call) : Prop where
  tracked : Tracked sys.service
  versions : ∃ obtained, ResultVersions.Inv ⟨sys.service, obtained⟩
  log : LogInv stream sys.interrupted sys.service.db
  exists_task : (sys.service.db.status stream.taskId).isSome = true
  waits : PartyInv stream sys.service sys.interrupted party
  calls : sys.service.calls c = some call
  inv : CallInv stream sys.service party.relay.phase c call
  inTurn : CallInTurn stream sys call

variable {sys : DuplicateRelays.System}

theorem Moving.storedTask (h : Moving stream sys party c call) {prepared : Prepared}
    (hprepared : EventIds.preparedOf call.phase = some prepared) :
    prepared.stored.taskId = stream.taskId := by
  rw [(prepareTaskEvent_same (h.inv.prepared prepared hprepared)).1]
  exact event_taskId h.waits h.inv.calling

theorem Moving.task_id (h : Moving stream sys party c call) {prepared : Prepared} {task : Task}
    {id : Nat} {todo : List Statement} (hphase : call.phase = .project prepared task id todo) :
    task.id = stream.taskId := by
  have hpending := h.tracked.pending c call h.calls
  rw [Pending, hphase] at hpending
  rw [hpending.1]
  exact h.storedTask (by rw [hphase]; rfl)

theorem view_of_pending (h : Tracked s) (hcall : s.calls c = some call)
    (hwrites : Pending (s.server.writes c) call → s.server.writes c = []) : s.server.view c = s.db :=
  Server.view_of_writes_nil (hwrites (h.pending c call hcall))

/-- The source of the event is not in the log yet when its row is created. -/
theorem Moving.create_goesOn (h : Moving stream sys party c call) {prepared : Prepared} {task : Task} {id : Nat}
    (hphase : call.phase = .create prepared task id) (hstep : sys.service.create c call prepared task id = some s') :
    ∃ service next, s' = PersistCalls.System.goto service c call next ∧ isDone next = false := by
  have hturn := h.inTurn
  unfold CallInTurn at hturn
  rw [hphase] at hturn
  have hid := h.storedTask (by rw [hphase]; rfl)
  have hview : sys.service.server.view c = sys.service.db := by
    apply view_of_pending h.tracked h.calls
    rw [Pending, hphase]
    exact And.left
  have hfresh : (sys.service.server.view c).violatesSource prepared.stored.taskId call.sourceEventId = false := by
    rw [hview, hid]
    exact hturn.1
  obtain ⟨server, hserver, hstep⟩ := Option.bind_eq_some_iff.mp hstep
  obtain ⟨hdb, hwrites⟩ := lockSource_eq_some hserver
  have hsame : server.view c = sys.service.server.view c := by rw [Server.view, Server.view, hdb, hwrites]
  rw [hsame, hfresh] at hstep
  exact ⟨_, _, (Option.some.inj hstep).symm, rfl⟩

/-- No statement of the projection throws: the log parses and the version is free. -/
theorem Moving.execute_goesOn (h : Moving stream sys party c call) {prepared : Prepared} {task : Task} {id : Nat}
    {statement : Statement} {todo : List Statement}
    (hphase : call.phase = .project prepared task id (statement :: todo))
    (hstep : sys.service.execute settings.toSettings c call prepared task id todo statement = some s') :
    ∃ service next, s' = PersistCalls.System.goto service c call next ∧ isDone next = false := by
  cases statement with
  | findEvents =>
    have hparses := view_parses settings h.tracked h.log h.calls hphase (h.task_id hphase)
      (h.inv.prepared prepared (by rw [hphase]; rfl))
    simp only [PersistCalls.System.execute] at hstep
    split at hstep
    · rename_i hnone
      rw [hnone] at hparses
      cases hparses
    · exact ⟨_, _, (Option.some.inj hstep).symm, rfl⟩
  | createResult row =>
    obtain ⟨obtained, hversions⟩ := h.versions
    have hfree := version_free hversions h.log h.calls hphase (h.inv.ready _ _ _ _ hphase)
    simp only [PersistCalls.System.execute, hfree, Bool.false_eq_true, if_false] at hstep
    exact ⟨_, _, (Option.some.inj hstep).symm, rfl⟩
  | findVersion text json => exact ⟨_, _, (Option.some.inj hstep).symm, rfl⟩
  | linkArtifacts => exact ⟨_, _, (Option.some.inj hstep).symm, rfl⟩
  | updateTask | updateSession | lockSession =>
    obtain ⟨server, -, hstep⟩ := Option.bind_eq_some_iff.mp hstep
    exact ⟨_, _, (Option.some.inj hstep).symm, rfl⟩

/-- The statement does not throw, and a call that is done has done what it was called for. -/
theorem done_settled (h : Moving stream sys party c call)
    (hstep : sys.service.advance settings.toSettings c call = some s')
    (hdone : ∀ next ∈ s'.calls c, isDone next.phase = true) :
    threw settings.toSettings sys.service c call = false ∧ Settled stream sys.service.db party.relay.phase := by
  have hturn := h.inTurn
  have htask : call.event.taskId = stream.taskId := event_taskId h.waits h.inv.calling
  have hnext : ∀ {service : PersistCalls.System} {phase : PersistCalls.Phase},
      service.goto c call phase = s' → isDone phase = true := by
    intro service phase heq
    have := hdone { call with phase } (by rw [← heq, goto_calls, if_pos rfl]; exact rfl)
    exact this
  unfold threw
  unfold CallInTurn at hturn
  cases hp : call.phase with
  | precheck =>
    simp only [PersistCalls.System.advance, hp] at hstep
    split at hstep
    · rename_i hfound
      rw [htask] at hfound
      exact ⟨rfl, settled_of_source h.inv.calling hfound⟩
    · cases hnext (Option.some.inj hstep)
  | prepare =>
    rw [hp] at hturn
    simp only [PersistCalls.System.advance, hp] at hstep
    split at hstep
    · cases hnext (Option.some.inj hstep)
    · rename_i hnone
      dsimp only at hturn
      rw [hnone] at hturn
      cases hturn
  | findTask prepared =>
    have hid := h.storedTask (by rw [hp]; rfl)
    have hview : sys.service.server.view c = sys.service.db := by
      apply view_of_pending h.tracked h.calls
      rw [Pending, hp]
      exact fun h => h
    simp only [PersistCalls.System.advance, hp, hid, hview] at hstep
    refine ⟨rfl, settled_of_ended _ ?_⟩
    split at hstep
    · rename_i task hfound
      split at hstep
      · rename_i hterminal
        rw [Ended, Database.status, hfound]
        exact hterminal
      · cases hnext (Option.some.inj hstep)
    · rename_i hmissing
      have hsome := h.exists_task
      rw [Database.status, hmissing] at hsome
      cases hsome
  | findDuplicate prepared task =>
    have hid := h.storedTask (by rw [hp]; rfl)
    have hview : sys.service.server.view c = sys.service.db := by
      apply view_of_pending h.tracked h.calls
      rw [Pending, hp]
      exact And.left
    simp only [PersistCalls.System.advance, hp, hid, hview] at hstep
    split at hstep
    · rename_i hfound
      exact ⟨rfl, settled_of_source h.inv.calling hfound⟩
    · cases hnext (Option.some.inj hstep)
  | drawId prepared task =>
    simp only [PersistCalls.System.advance, hp] at hstep
    cases hnext (Option.some.inj hstep)
  | create prepared task id =>
    simp only [PersistCalls.System.advance, hp] at hstep
    obtain ⟨service, next, rfl, hgoes⟩ := h.create_goesOn hp hstep
    rw [hnext rfl] at hgoes
    cases hgoes
  | project prepared task id todo =>
    simp only [PersistCalls.System.advance, hp] at hstep
    cases todo with
    | nil => cases hnext (Option.some.inj hstep)
    | cons statement todo =>
      obtain ⟨service, next, rfl, hgoes⟩ := h.execute_goesOn hp hstep
      rw [hnext rfl] at hgoes
      cases hgoes
  | publish prepared id => exact ⟨rfl, h.inv.settled prepared id hp⟩
  | done =>
    have hrunning := h.inv.running
    rw [hp] at hrunning
    cases hrunning

theorem resultsInv_write {server : Server Database Lock} {prepared : Prepared} {task : Task} {id : Nat}
    {statement : Statement} {todo : List Statement} (h : ResultsInv stream s c prepared (statement :: todo))
    (hwrites : server.writes = s.server.writes) {w : Database → Database}
    (hw : ResultVersions.isPlain statement = true → ∀ db, (w db).taskResults = db.taskResults) :
    ResultsInv stream ({ s with server := server.write c w }.goto c call (.project prepared task id todo)) c
      prepared todo := by
  rcases h with ⟨hcompleted, hown⟩ | ⟨hplain, hkeeps⟩
  · exact .inl ⟨hcompleted, fun row hrow => hown row (List.mem_cons_of_mem _ hrow)⟩
  · obtain ⟨hstatement, hplain⟩ := ResultVersions.plain_cons hplain
    refine .inr ⟨hplain, fun db => ?_⟩
    rw [goto_server, Server.write_writes, if_pos rfl, hwrites, applyWrites_append, applyWrites_cons,
      applyWrites_nil, hw hstatement, hkeeps]

/-- One statement of a transaction leaves the results to the completion of the task. -/
theorem resultsInv_execute {prepared : Prepared} {task : Task} {id : Nat} {statement : Statement}
    {todo todo' : List Statement} (h : ResultsInv stream s c prepared (statement :: todo))
    (htask : task.id = stream.taskId)
    (hstep : s.execute settings.toSettings c call prepared task id todo statement = some s')
    (hnext : s'.calls c = some { call with phase := .project prepared task id todo' }) :
    ResultsInv stream s' c prepared todo' := by
  have hsame : ∀ {service : PersistCalls.System} {rest : List Statement},
      service.goto c call (.project prepared task id rest) = s' → rest = todo' := by
    intro service rest heq
    rw [← heq, goto_calls, if_pos rfl, Option.some.injEq, Call.mk.injEq] at hnext
    simpa using hnext.2.2.2.2.2
  cases statement with
  | updateTask =>
    obtain ⟨server, hserver, hstep⟩ := Option.bind_eq_some_iff.mp hstep
    obtain ⟨-, hwrites, -⟩ := Server.acquire_eq_some hserver
    obtain rfl := hsame (Option.some.inj hstep)
    cases hstep
    exact resultsInv_write h hwrites fun _ db => db.updateTask_taskResults ..
  | updateSession =>
    obtain ⟨server, hserver, hstep⟩ := Option.bind_eq_some_iff.mp hstep
    obtain ⟨-, hwrites, -⟩ := Server.acquire_eq_some hserver
    obtain rfl := hsame (Option.some.inj hstep)
    cases hstep
    exact resultsInv_write h hwrites fun _ db => db.updateSession_taskResults ..
  | linkArtifacts =>
    obtain rfl := hsame (Option.some.inj hstep)
    cases hstep
    exact resultsInv_write h rfl fun _ db => rfl
  | createResult row =>
    simp only [PersistCalls.System.execute] at hstep
    split at hstep
    · cases hstep
      rw [leave_calls, if_pos rfl, Option.some.injEq, Call.mk.injEq] at hnext
      cases hnext.2.2.2.2.2
    · obtain rfl := hsame (Option.some.inj hstep)
      cases hstep
      exact resultsInv_write h rfl fun hplain => by cases hplain
  | lockSession =>
    obtain ⟨server, hserver, hstep⟩ := Option.bind_eq_some_iff.mp hstep
    obtain rfl := hsame (Option.some.inj hstep)
    rcases h with ⟨hcompleted, hown⟩ | ⟨hplain, -⟩
    · exact .inl ⟨hcompleted, fun row hrow => hown row (List.mem_cons_of_mem _ hrow)⟩
    · cases (ResultVersions.plain_cons hplain).1
  | findEvents =>
    rcases h with ⟨hcompleted, hown⟩ | ⟨hplain, -⟩
    · simp only [PersistCalls.System.execute] at hstep
      split at hstep
      · cases hstep
        rw [leave_calls, if_pos rfl, Option.some.injEq, Call.mk.injEq] at hnext
        cases hnext.2.2.2.2.2
      · obtain rfl := hsame (Option.some.inj hstep)
        refine .inl ⟨hcompleted, fun row hrow => hown row ?_⟩
        rcases List.mem_cons.mp hrow with hrow | hrow
        · cases hrow
        · exact List.mem_cons_of_mem _ hrow
    · cases (ResultVersions.plain_cons hplain).1
  | findVersion text json =>
    rcases h with ⟨hcompleted, hown⟩ | ⟨hplain, -⟩
    · obtain rfl := hsame (Option.some.inj hstep)
      refine .inl ⟨hcompleted, fun row hrow => ?_⟩
      rcases List.mem_cons.mp hrow with hrow | hrow
      · cases hrow
        exact htask
      · exact hown row (List.mem_cons_of_mem _ hrow)
    · cases (ResultVersions.plain_cons hplain).1

theorem plain_statements {detail : TaskEventDetail} (h : detail ≠ .completed) :
    ResultVersions.Plain (statements detail) := by
  intro statement hmem
  cases detail with
  | completed => exact absurd rfl h
  | accepted | failed | cancelled =>
    simp only [statements, List.mem_cons, List.not_mem_nil, or_false] at hmem
    rcases hmem with rfl | rfl <;> rfl
  | stageChanged | delta | resultCreated => cases hmem

theorem completed_statements (row : TaskResult) : .createResult row ∉ statements .completed := by
  simp [statements]

/-- The insertion of the event. -/
theorem resultsInv_create {prepared : Prepared} {task : Task} {id : Nat} (hnil : s.server.writes c = [])
    (hstep : s.create c call prepared task id = some s')
    (hnext : ∃ todo, s'.calls c = some { call with phase := .project prepared task id todo }) :
    ResultsInv stream s' c prepared (statements prepared.stored.detail) := by
  obtain ⟨todo, hnext⟩ := hnext
  obtain ⟨server, hserver, hstep⟩ := Option.bind_eq_some_iff.mp hstep
  obtain ⟨hdb, hwrites⟩ := lockSource_eq_some hserver
  split at hstep <;> cases hstep
  · rw [leave_calls, if_pos rfl, Option.some.injEq, Call.mk.injEq] at hnext
    cases hnext.2.2.2.2.2
  · by_cases hcompleted : prepared.stored.detail = .completed
    · refine .inl ⟨hcompleted, fun row hrow => ?_⟩
      rw [hcompleted] at hrow
      exact absurd hrow (completed_statements row)
    · refine .inr ⟨plain_statements hcompleted, fun db => ?_⟩
      rw [goto_server, Server.write_writes, if_pos rfl, hwrites, hnil]
      rfl

/-- The phases before the insertion. -/
def checking : PersistCalls.Phase → Bool
  | .precheck | .prepare | .findTask _ | .findDuplicate _ _ | .drawId _ _ | .create _ _ _ => true
  | .project _ _ _ _ | .publish _ _ | .done => false

theorem CallInv.check {phase : AdapterRelay.Phase} {next : PersistCalls.Phase}
    (h : CallInv stream s phase c call) (hnext : checking next = true)
    (hprepared : ∀ prepared, EventIds.preparedOf next = some prepared →
      prepareTaskEvent call.archived call.event = some prepared) :
    CallInv stream s' phase c { call with phase := next } where
  running := by
    cases next <;> first | rfl | cases hnext
  calling := h.calling
  prepared := hprepared
  ready := by
    rintro prepared task id todo rfl
    cases hnext
  settled := by
    rintro prepared id rfl
    cases hnext

theorem CallInv.project {phase : AdapterRelay.Phase} {prepared : Prepared} {task : Task} {id : Nat}
    {todo : List Statement} (h : CallInv stream s phase c call)
    (hprepared : EventIds.preparedOf call.phase = some prepared)
    (hready : Ready stream s' c call prepared id todo) :
    CallInv stream s' phase c { call with phase := .project prepared task id todo } where
  running := rfl
  calling := h.calling
  prepared := by
    intro other hother
    cases hother
    exact h.prepared prepared hprepared
  ready := by
    intro _ _ _ _ hphase
    cases hphase
    exact ⟨hready.unended, hready.last, hready.fresh, hready.results⟩
  settled := fun _ _ hphase => by cases hphase

/-- A call that goes on, without a commit. -/
theorem callInv_advance (h : Moving stream sys party c call)
    (hstep : sys.service.advance settings.toSettings c call = some s') (hcommit : callCommits call = none)
    {phase : PersistCalls.Phase} (hcalls : s'.calls = Function.update sys.service.calls c (some { call with phase }))
    (hmoves : PhaseMoves sys.service call.phase phase) (hrunning : isDone phase = false) :
    CallInv stream s' party.relay.phase c { call with phase } := by
  have hnext : s'.calls c = some { call with phase } := by rw [hcalls, Function.update_self]
  have hquiet := quiet_advance stream.taskId hstep hcommit
  have hkept : ∀ prepared, EventIds.preparedOf call.phase = some prepared →
      prepareTaskEvent call.archived call.event = some prepared := h.inv.prepared
  generalize hp : call.phase = old at hmoves hkept
  cases hmoves with
  | skip | fail | leave | publish => cases hrunning
  | check => exact h.inv.check rfl fun prepared hnone => by cases hnone
  | prepare =>
    simp only [PersistCalls.System.advance, hp] at hstep
    split at hstep
    · rename_i prepared hprepared
      cases hstep
      rw [goto_calls, if_pos rfl, Option.some.injEq, Call.mk.injEq] at hnext
      cases hnext.2.2.2.2.2
      refine h.inv.check rfl fun other hother => ?_
      cases hother
      exact hprepared
    · cases hstep
      rw [goto_calls, if_pos rfl, Option.some.injEq, Call.mk.injEq] at hnext
      cases hnext.2.2.2.2.2
  | find | fresh | draw => exact h.inv.check rfl hkept
  | create =>
    rename_i prepared task id
    have hturn := h.inTurn
    rw [CallInTurn, hp] at hturn
    obtain ⟨hfresh, hopen, hlast, -⟩ := hturn
    have hnil : sys.service.server.writes c = [] := by
      have hpending := h.tracked.pending c call h.calls
      rw [Pending, hp] at hpending
      exact hpending.1
    have hresults : ResultsInv stream s' c prepared (statements prepared.stored.detail) := by
      simp only [PersistCalls.System.advance, hp] at hstep
      exact resultsInv_create hnil hstep ⟨_, hnext⟩
    refine h.inv.project (by rw [hp]; rfl) ⟨?_, ?_, (hquiet.violatesSource _).trans hfresh, hresults⟩
    · exact fun hended => not_ended_iff.mpr hopen (hquiet.ended.mp hended)
    · rw [hquiet.eventsOf]
      exact hlast
  | execute =>
    have hready := h.inv.ready _ _ _ _ hp
    have htask := h.task_id hp
    simp only [PersistCalls.System.advance, hp] at hstep
    refine h.inv.project (by rw [hp]; rfl) ⟨?_, ?_, (hquiet.violatesSource _).trans hready.fresh,
      resultsInv_execute hready.results htask hstep hnext⟩
    · exact fun hended => hready.unended (hquiet.ended.mp hended)
    · rw [hquiet.eventsOf]
      exact hready.last
  | commit =>
    rw [callCommits, hp] at hcommit
    cases hcommit

theorem not_committed_of_fresh {source : Option String} (hparsed : parsed.sourceEventId = source)
    (hmem : parsed ∈ stream.entries) (hfresh : db.violatesSource stream.taskId source = false) :
    ¬ Committed stream db parsed := by
  rintro ⟨row, hrow, heq⟩
  obtain ⟨id, hid⟩ := Option.isSome_iff_exists.mp (stream.named parsed hmem)
  have hsome := (Option.filter_eq_some_iff.mp hid).1
  obtain ⟨hrow, htask⟩ := List.mem_filter.mp hrow
  rw [← hparsed, hsome, Database.violatesSource, Option.any_some, Database.hasSourceEvent,
    List.any_eq_false] at hfresh
  apply hfresh row hrow
  rw [htask, heq, hsome, Bool.true_and, decide_eq_true rfl]

theorem commit_publishes (s' : PersistCalls.System) (h : Moving stream sys party c call) {prepared : Prepared}
    {task : Task} {id : Nat} (hphase : call.phase = .project prepared task id [])
    (hsettled : Settled stream s'.db party.relay.phase) :
    CallInv stream s' party.relay.phase c { call with phase := .publish prepared id } where
  running := rfl
  calling := h.inv.calling
  prepared := by
    intro other hother
    cases hother
    exact h.inv.prepared prepared (by rw [hphase]; rfl)
  ready := by
    intro _ _ _ _ hpublish
    cases hpublish
  settled := fun _ _ _ => hsettled

section Commit

variable (h : Moving stream sys party c call) {prepared : Prepared} {task : Task} {id : Nat}
  (hphase : call.phase = .project prepared task id [])
  (hstep : sys.service.advance settings.toSettings c call = some s')

include h hphase hstep

/-- The row goes to the end of the log. -/
theorem commit_appends : Appends (eventRow prepared.stored call.sourceEventId id) sys.service.db s'.db := by
  have htask : (eventRow prepared.stored call.sourceEventId id).taskId = stream.taskId :=
    h.storedTask (by rw [hphase]; rfl)
  have hready := h.inv.ready _ _ _ _ hphase
  obtain ⟨hevents, -, hstatus⟩ := advance_commit h.tracked h.calls hstep (EventIds.callCommits_project hphase)
  refine ⟨hevents, ?_, ?_, ?_, ?_⟩
  · rw [hstatus, if_pos rfl]
  · rw [htask]
    exact hready.last
  · rw [htask]
    exact hready.unended
  · rw [htask]
    exact h.exists_task

theorem commit_ends (hterminal : prepared.stored.detail.isTerminal = true) : Ended s'.db stream.taskId := by
  have happ := commit_appends h hphase hstep
  have htask : (eventRow prepared.stored call.sourceEventId id).taskId = stream.taskId :=
    h.storedTask (by rw [hphase]; rfl)
  obtain ⟨old, hold⟩ := Option.isSome_iff_exists.mp happ.exists_task
  rw [Ended, ← htask, happ.status, hold, rowStatus_eventRow]
  rw [← isTerminal_newStatus] at hterminal
  obtain ⟨value, hvalue, hends⟩ := (Option.any_eq_true _ _).mp hterminal
  rw [hvalue]
  exact hends

theorem commit_results :
    ∀ result ∈ s'.db.taskResults, result ∈ sys.service.db.taskResults ∨ Ended s'.db stream.taskId := by
  intro result hresult
  rcases (h.inv.ready _ _ _ _ hphase).results with ⟨hcompleted, -⟩ | ⟨-, hkeeps⟩
  · exact .inr (commit_ends h hphase hstep (by rw [hcompleted]; rfl))
  · have hview : s'.db = applyWrites (sys.service.server.writes c) sys.service.db := by
      simp only [PersistCalls.System.advance, hphase, Option.some.injEq] at hstep
      rw [← hstep]
      rfl
    rw [hview, hkeeps] at hresult
    exact .inl hresult

/-- The commit of a call puts the row of the next event, or the failure that is reported, into the log. -/
theorem commit_log : LogInv stream sys.interrupted s'.db ∧ Grows stream sys.service.db s'.db ∧
    CallInv stream s' party.relay.phase c { call with phase := .publish prepared id } := by
  let row := eventRow prepared.stored call.sourceEventId id
  have htask : row.taskId = stream.taskId := h.storedTask (by rw [hphase]; rfl)
  have hprepared := h.inv.prepared prepared (by rw [hphase]; rfl)
  have hready := h.inv.ready _ _ _ _ hphase
  have happ : Appends row sys.service.db s'.db := commit_appends h hphase hstep
  have hresults := commit_results h hphase hstep
  have hgrows := happ.grows h.log.sorted htask
  have hcalling := h.inv.calling
  obtain ⟨before, hentries, hbefore⟩ := h.waits.covers
  have hpublish := commit_publishes s' h hphase
  cases hp : party.relay.phase with
  | persisting parsed phase =>
    rw [hp] at hcalling hpublish
    obtain ⟨hevent, hsource⟩ := Prod.mk.inj (Option.some.inj hcalling)
    rw [todo, hp] at hentries
    have hparsed : parsed ∈ stream.entries := by
      rw [hentries]
      simp [current]
    have hholds : Holds parsed row :=
      ⟨hsource.symm, call.archived, prepared, by rw [hevent]; exact hprepared, rfl, rfl⟩
    have hmem : row ∈ s'.db.eventsOf stream.taskId := by
      refine List.mem_filter.mpr ⟨?_, decide_eq_true htask⟩
      rw [happ.events, mem_insertEvent]
      exact .inl rfl
    refine ⟨h.log.append happ htask hresults (.inl ?_), hgrows, hpublish (.inr ⟨row, hmem, hsource.symm⟩)⟩
    refine ⟨before, parsed, party.relay.pending ++ party.unread, hentries.trans ?_, hbefore, hholds, ?_⟩
    · simp [current]
    · exact not_committed_of_fresh hsource hparsed hready.fresh
  | failPersist inCatch event =>
    rw [hp] at hcalling hpublish
    obtain ⟨hevent, hsource⟩ := Prod.mk.inj (Option.some.inj hcalling)
    have hinv := h.waits.phase
    rw [PhaseInv, hp] at hinv
    obtain ⟨hinterrupted, -, code, message, hdetail⟩ := hinv
    have hstored : prepared.stored = event := by
      rw [← hevent, prepareTaskEvent, hdetail] at hprepared
      cases hprepared
      rfl
    have hreports : Reports row := by
      refine ⟨hsource.symm, event, code, message, hdetail, ?_, ?_⟩
      · rw [← hstored]
        rfl
      · rw [← hstored]
        rfl
    refine ⟨h.log.append happ htask hresults (.inr ⟨hreports, hinterrupted⟩), hgrows, hpublish ?_⟩
    refine commit_ends h hphase hstep ?_
    rw [hstored, hdetail]
    rfl
  | _ =>
    rw [hp] at hcalling
    cases hcalling

end Commit

structure Inv (stream : Stream) (s : DuplicateRelays.System) : Prop where
  tracked : Tracked s.service
  versions : ∃ obtained, ResultVersions.Inv ⟨s.service, obtained⟩
  log : LogInv stream s.interrupted s.service.db
  exists_task : ∀ r party, s.relays.get r = some party → (s.service.db.status stream.taskId).isSome = true
  parties : ∀ r party, s.relays.get r = some party → PartyInv stream s.service s.interrupted party
  distinct : ∀ r r' party party' c, s.relays.get r = some party → s.relays.get r' = some party' →
    c ∈ party.call → c ∈ party'.call → r = r'
  alone : ∀ r r' party party', s.relays.get r = some party → s.relays.get r' = some party' →
    (s.callOf party).any (fun call => inserted call.phase) = true →
    (s.callOf party').any (fun call => inserted call.phase) = true → r = r'

theorem inv_init (stream : Stream) : Inv stream .init where
  tracked := tracked_init
  versions := ⟨[], ResultVersions.inv_init⟩
  log := logInv_empty stream
  exists_task := fun r party h => by cases h
  parties := fun r party h => by cases h
  distinct := fun r r' party party' c h => by cases h
  alone := fun r r' party party' h => by cases h

theorem Inv.asSingle {s : DuplicateRelays.System} (h : Inv stream s) : AsSingle stream s where
  log := h.log.relayed
  failed := by
    intro hfailed
    obtain ⟨n, status, failed, hrelayed, hshows, hreported⟩ := h.log.relayed
    have hstatus : status = some .failed := by
      cases status with
      | some value => exact hshows.symm.trans hfailed
      | none =>
        rw [show s.service.db.status stream.taskId = some .failed from hfailed] at hshows
        cases hshows
    rcases hrelayed.failed_cause hstatus with hreport | hevent
    · exact .inl (hreported hreport)
    · exact .inr hevent
  ended := by
    intro r party hget hreturned
    have hphase := (h.parties r party hget).phase
    rw [PhaseInv, hreturned] at hphase
    exact hphase

theorem versions_step {s s' : PersistCalls.System} {l : PersistCalls.Label} {settings : Settings}
    (h : ∃ obtained, ResultVersions.Inv ⟨s, obtained⟩) (hstep : PersistCalls.step settings s l = some s') :
    ∃ obtained, ResultVersions.Inv ⟨s', obtained⟩ := by
  obtain ⟨obtained, hinv⟩ := h
  have hrecorded : ResultVersions.recordedStep settings ⟨s, obtained⟩ l =
      some ⟨s', obtained ++ (ResultVersions.obtains s l).toList⟩ := by
    rw [ResultVersions.recordedStep, hstep]
    rfl
  exact ⟨_, ResultVersions.inv_step hinv hrecorded⟩

/-- One relay moves, and the others stay where they are. -/
theorem Inv.move {s s' : DuplicateRelays.System} (h : Inv stream s) {r : Nat} {party : Party}
    (hrelays : ∀ r', s'.relays.get r' = if r' = r then some party else s.relays.get r')
    (htracked : Tracked s'.service)
    (hversions : ∃ obtained, ResultVersions.Inv ⟨s'.service, obtained⟩)
    (hlog : LogInv stream s'.interrupted s'.service.db) (hgrows : Grows stream s.service.db s'.service.db)
    (hint : s.interrupted = true → s'.interrupted = true)
    (hsome : (s'.service.db.status stream.taskId).isSome = true)
    (hothers : ∀ r' other c, r' ≠ r → s.relays.get r' = some other → c ∈ other.call →
      s'.service.calls c = s.service.calls c ∧ s'.service.server.writes c = s.service.server.writes c)
    (hquiet : Quiet stream.taskId s.service.db s'.service.db ∨ ∀ r' other, r' ≠ r →
      s.relays.get r' = some other → (s.callOf other).any (fun call => inserted call.phase) = false)
    (hparty : PartyInv stream s'.service s'.interrupted party)
    (hfresh : ∀ c ∈ party.call, ∀ r' other, r' ≠ r → s.relays.get r' = some other → c ∉ other.call)
    (halone : (s'.callOf party).any (fun call => inserted call.phase) = true → ∀ r' other, r' ≠ r →
      s.relays.get r' = some other → (s.callOf other).any (fun call => inserted call.phase) = false) :
    Inv stream s' := by
  have hcases : ∀ r' other, s'.relays.get r' = some other →
      r' = r ∧ other = party ∨ r' ≠ r ∧ s.relays.get r' = some other := by
    intro r' other hget
    rw [hrelays] at hget
    split at hget
    · rename_i heq
      cases hget
      exact .inl ⟨heq, rfl⟩
    · rename_i hne
      exact .inr ⟨hne, hget⟩
  have hsame : ∀ r' other, r' ≠ r → s.relays.get r' = some other → s'.callOf other = s.callOf other := by
    intro r' other hne hget
    unfold System.callOf
    cases hc : other.call with
    | none => rfl
    | some c => exact (hothers r' other c hne hget hc).1
  refine ⟨htracked, hversions, hlog, fun _ _ _ => hsome, fun r' other hget => ?_,
    fun r₁ r₂ p₁ p₂ c h₁ h₂ hc₁ hc₂ => ?_, fun r₁ r₂ p₁ p₂ h₁ h₂ hi₁ hi₂ => ?_⟩
  · rcases hcases r' other hget with ⟨-, rfl⟩ | ⟨hne, hget⟩
    · exact hparty
    · refine (h.parties r' other hget).frame hgrows hint (fun c hc => hothers r' other c hne hget hc) fun hi => ?_
      rcases hquiet with hquiet | hnone
      · exact hquiet
      · have hnot := hnone r' other hne hget
        rw [System.callOf, hi] at hnot
        cases hnot
  · rcases hcases r₁ p₁ h₁ with ⟨rfl, rfl⟩ | ⟨hne₁, h₁⟩
    · rcases hcases r₂ p₂ h₂ with ⟨rfl, -⟩ | ⟨hne₂, h₂⟩
      · rfl
      · exact absurd hc₂ (hfresh c hc₁ r₂ p₂ hne₂ h₂)
    · rcases hcases r₂ p₂ h₂ with ⟨rfl, rfl⟩ | ⟨-, h₂⟩
      · exact absurd hc₁ (hfresh c hc₂ r₁ p₁ hne₁ h₁)
      · exact h.distinct r₁ r₂ p₁ p₂ c h₁ h₂ hc₁ hc₂
  · rcases hcases r₁ p₁ h₁ with ⟨rfl, rfl⟩ | ⟨hne₁, h₁⟩
    · rcases hcases r₂ p₂ h₂ with ⟨rfl, -⟩ | ⟨hne₂, h₂⟩
      · rfl
      · rw [hsame r₂ p₂ hne₂ h₂, halone hi₁ r₂ p₂ hne₂ h₂] at hi₂
        cases hi₂
    · rcases hcases r₂ p₂ h₂ with ⟨rfl, rfl⟩ | ⟨hne₂, h₂⟩
      · rw [hsame r₁ p₁ hne₁ h₁, halone hi₂ r₁ p₁ hne₁ h₁] at hi₁
        cases hi₁
      · rw [hsame r₁ p₁ hne₁ h₁] at hi₁
        rw [hsame r₂ p₂ hne₂ h₂] at hi₂
        exact h.alone r₁ r₂ p₁ p₂ h₁ h₂ hi₁ hi₂

/-- A relay moves without the service. -/
theorem Inv.moveRelay {s : DuplicateRelays.System} (h : Inv stream s) {r : Nat} {party : Party}
    {interrupted : Bool} (hint : s.interrupted = true → interrupted = true)
    (hsome : (s.service.db.status stream.taskId).isSome = true)
    (hparty : PartyInv stream s.service interrupted party)
    (hold : (∃ old, s.relays.get r = some old ∧ party.call = old.call) ∨ party.call = none) :
    Inv stream { s with relays := s.relays.set r party, interrupted } := by
  refine h.move (fun r' => s.relays.get_set r' r party) h.tracked h.versions (h.log.interrupt hint)
    (Quiet.refl _ _).grows hint hsome (fun _ _ _ _ _ _ => ⟨rfl, rfl⟩) (.inl (Quiet.refl _ _)) hparty
    (fun c hc r' other hne hget hother => ?_) fun hi r' other hne hget => ?_
  · rcases hold with ⟨old, hold, hsame⟩ | hnone
    · rw [hsame] at hc
      exact hne (h.distinct r' r other old c hget hold hother hc)
    · rw [hnone] at hc
      cases hc
  · rcases hold with ⟨old, hold, hsame⟩ | hnone
    · have hcall : s.callOf party = s.callOf old := by rw [System.callOf, hsame, System.callOf]
      change (s.callOf party).any _ = true at hi
      rw [hcall] at hi
      by_contra hother
      exact hne (h.alone r' r other old hget hold (by simpa using hother) hi)
    · change (s.callOf party).any _ = true at hi
      rw [System.callOf, hnone] at hi
      cases hi

/-- The service moves without a relay, or a relay disappears. -/
theorem Inv.still {s s' : DuplicateRelays.System} (h : Inv stream s) (htracked : Tracked s'.service)
    (hversions : ∃ obtained, ResultVersions.Inv ⟨s'.service, obtained⟩) (hint : s'.interrupted = s.interrupted)
    (hquiet : Quiet stream.taskId s.service.db s'.service.db)
    (hrelays : ∀ r party, s'.relays.get r = some party → s.relays.get r = some party ∧ ∀ c ∈ party.call,
      s'.service.calls c = s.service.calls c ∧ s'.service.server.writes c = s.service.server.writes c) :
    Inv stream s' := by
  have hsame : ∀ r party, s'.relays.get r = some party → s'.callOf party = s.callOf party := by
    intro r party hget
    unfold System.callOf
    cases hc : party.call with
    | none => rfl
    | some c => exact ((hrelays r party hget).2 c hc).1
  refine ⟨htracked, hversions, ?_, fun r party hget => ?_, fun r party hget => ?_,
    fun r₁ r₂ p₁ p₂ c h₁ h₂ hc₁ hc₂ => ?_, fun r₁ r₂ p₁ p₂ h₁ h₂ hi₁ hi₂ => ?_⟩
  · rw [hint]
    exact h.log.quiet hquiet
  · exact hquiet.status.isSome (h.exists_task r party (hrelays r party hget).1)
  · obtain ⟨hold, hcall⟩ := hrelays r party hget
    exact (h.parties r party hold).frame hquiet.grows (fun hi => by rw [hint, hi]) hcall fun _ => hquiet
  · exact h.distinct r₁ r₂ p₁ p₂ c (hrelays r₁ p₁ h₁).1 (hrelays r₂ p₂ h₂).1 hc₁ hc₂
  · rw [hsame r₁ p₁ h₁] at hi₁
    rw [hsame r₂ p₂ h₂] at hi₂
    exact h.alone r₁ r₂ p₁ p₂ (hrelays r₁ p₁ h₁).1 (hrelays r₂ p₂ h₂).1 hi₁ hi₂

variable {s s' : DuplicateRelays.System} {r : Nat}

theorem quiet_single {settings : Settings} {tx : Single} (h : tx.apply settings db = some db') (t : String) :
    Quiet t db db' :=
  ⟨(unlogged_single h).events, ResultVersions.single_taskResults h, (unlogged_single h).status t⟩

theorem inv_single {tx : Single} (h : Inv stream s) (hstep : step settings stream s (.single tx) = some s') :
    Inv stream s' := by
  obtain ⟨service, hservice, hstep⟩ := Option.bind_eq_some_iff.mp hstep
  cases hstep
  have htracked := tracked_step h.tracked hservice
  have hversions := versions_step h.versions hservice
  obtain ⟨-, db, hdb, rfl⟩ := step_single_eq_some hservice
  exact h.still htracked hversions rfl (quiet_single hdb _) fun r party hget => ⟨hget, fun c _ => ⟨rfl, rfl⟩⟩

/-- The process of a relay ends, and its transaction with it. -/
theorem inv_crash (h : Inv stream s) (hstep : step settings stream s (.crash r) = some s') : Inv stream s' := by
  obtain ⟨party, hget, hstep⟩ := Option.bind_eq_some_iff.mp hstep
  cases hstep
  have hrest : ∀ r' other, (s.relays.delete r).get r' = some other → r' ≠ r ∧ s.relays.get r' = some other := by
    intro r' other hother
    rw [OrderedMap.get_delete] at hother
    split at hother
    · cases hother
    · rename_i hne
      exact ⟨hne, hother⟩
  cases hservice : party.call.bind fun c => PersistCalls.step settings.toSettings s.service (.abort c) with
  | none =>
    exact h.still h.tracked h.versions rfl (Quiet.refl _ _) fun r' other hother =>
      ⟨(hrest r' other hother).2, fun c _ => ⟨rfl, rfl⟩⟩
  | some service =>
    obtain ⟨c, hc, habort⟩ := Option.bind_eq_some_iff.mp hservice
    have htracked := tracked_step h.tracked habort
    have hversions := versions_step h.versions habort
    obtain ⟨call, hcall, habort⟩ := Option.bind_eq_some_iff.mp habort
    split at habort <;> cases habort
    refine h.still htracked hversions rfl (Quiet.refl _ _) fun r' other hother => ?_
    obtain ⟨hne, hold⟩ := hrest r' other hother
    refine ⟨hold, fun d hd => ?_⟩
    have hdc : d ≠ c := by
      rintro rfl
      exact hne (h.distinct r' r other party d hold hget hd hc)
    exact ⟨by rw [Option.getD_some, leave_calls, if_neg hdc],
      by rw [Option.getD_some, leave_server, Server.rollback_writes, if_neg hdc]⟩

theorem inv_start (h : Inv stream s) (hstep : step settings stream s (.start r) = some s') : Inv stream s' := by
  simp only [DuplicateRelays.step] at hstep
  split at hstep <;> cases hstep
  rename_i hstart
  obtain ⟨task, htask, -⟩ := (Option.any_eq_true _ _).mp hstart.2
  refine h.moveRelay (fun hi => hi) ?_ ?_ (.inr rfl)
  · rw [Database.status, show s.service.db.tasks.get stream.taskId = some task from htask]
    rfl
  · exact ⟨rfl, ⟨[], rfl, fun parsed hparsed => by cases hparsed⟩, fun ht => (by cases ht), rfl,
      fun c hc => by cases hc⟩

theorem inv_relay {l : AdapterRelay.Label} (h : Inv stream s)
    (hstep : step settings stream s (.relay r l) = some s') : Inv stream s' := by
  obtain ⟨party, hget, hstep⟩ := Option.bind_eq_some_iff.mp hstep
  split at hstep
  · rename_i hown
    obtain ⟨next, hnext, hstep⟩ := Option.bind_eq_some_iff.mp hstep
    cases hstep
    have hsome := h.exists_task r party hget
    refine h.moveRelay (fun hi => by rw [hi, Bool.true_or]) hsome ?_ (.inl ⟨party, hget, rfl⟩)
    exact partyInv_relay (h.parties r party hget) h.log h.tracked.keyed hsome hown hnext
  · cases hstep

theorem inv_receive {count : Nat} (h : Inv stream s)
    (hstep : step settings stream s (.receive r count) = some s') : Inv stream s' := by
  obtain ⟨party, hget, hstep⟩ := Option.bind_eq_some_iff.mp hstep
  have hparty := h.parties r party hget
  split at hstep
  · rename_i hreading
    split at hstep <;> cases hstep
    have hnil := hparty.phase
    rw [PhaseInv, hreading] at hnil
    obtain ⟨before, hentries, hbefore⟩ := hparty.rest (by rw [hreading]; rfl)
    have hcall := hparty.idle (by rw [hreading]; rfl)
    have hresume : PartyInv stream s.service s.interrupted
        ⟨party.relay.resume (party.unread.take count), party.unread.drop count, none⟩ :=
      partyInv_resume hparty.task ⟨before, by rw [List.take_append_drop, hentries, hnil]; rfl, hbefore⟩ hparty.timed
    rw [← hcall] at hresume
    exact h.moveRelay (fun hi => hi) (h.exists_task r party hget) hresume (.inl ⟨party, hget, rfl⟩)
  · cases hstep

theorem Inv.not_called (h : Inv stream s) {party : Party} {c : Nat} (hget : s.relays.get r = some party)
    (hnone : s.service.calls c = none) : c ∉ party.call := by
  intro hc
  obtain ⟨call, hcall, -⟩ := (h.parties r party hget).call c hc
  rw [hnone] at hcall
  cases hcall

theorem inv_call {c : Nat} {archived : Option Archived} {now resultId : String} (h : Inv stream s)
    (hstep : step settings stream s (.call r c archived now resultId) = some s') : Inv stream s' := by
  obtain ⟨party, hget, hstep⟩ := Option.bind_eq_some_iff.mp hstep
  split at hstep
  · cases hstep
  · obtain ⟨⟨event, source⟩, hcalling, hstep⟩ := Option.bind_eq_some_iff.mp hstep
    obtain ⟨service, hservice, hstep⟩ := Option.bind_eq_some_iff.mp hstep
    cases hstep
    have htracked := tracked_step h.tracked hservice
    have hversions := versions_step h.versions hservice
    obtain ⟨hnone, rfl⟩ := step_call_eq_some hservice
    let opened : Call := ⟨event, archived, source, now, resultId, .precheck⟩
    have hparty := h.parties r party hget
    refine h.move (fun r' => s.relays.get_set r' r { party with call := some c }) htracked hversions h.log
      (Quiet.refl _ _).grows
      (fun hi => hi) (h.exists_task r party hget) (fun r' other d hne hother hd => ⟨?_, rfl⟩)
      (.inl (Quiet.refl _ _)) ?_ (fun d hd r' other hne hother => ?_) fun hi => ?_
    · have hdc : d ≠ c := fun heq => h.not_called hother hnone (by rw [← heq]; exact hd)
      exact Function.update_of_ne hdc _ _
    · refine ⟨hparty.task, hparty.covers, hparty.timed, hparty.phase, fun d hd => ?_⟩
      cases hd
      refine ⟨opened, Function.update_self .., rfl, hcalling, fun _ hp => ?_, fun _ _ _ _ hp => ?_, fun _ _ hp => ?_⟩
      · cases hp
      · cases hp
      · cases hp
    · cases hd
      exact h.not_called hother hnone
    · simp only [System.callOf, Option.bind_some, Function.update_self, Option.any_some, inserted] at hi
      cases hi

/-- What the calls of the other relays have done so far is left alone. -/
theorem advance_others {s s' : PersistCalls.System} {call : Call} {c d : Nat} {phase : PersistCalls.Phase}
    (hstep : s.advance settings.toSettings c call = some s')
    (hcalls : s'.calls = Function.update s.calls c (some { call with phase })) (hne : d ≠ c) :
    s'.calls d = s.calls d ∧ s'.server.writes d = s.server.writes d :=
  ⟨by rw [hcalls, Function.update_of_ne hne], (PersistWrites.serverMoves_advance hstep).others hne⟩

/-- The relay goes on waiting for its call. -/
theorem PartyInv.wait {s s' : PersistCalls.System} {party : Party} {c : Nat} {next : Call} {interrupted : Bool}
    (h : PartyInv stream s interrupted party) (hgrows : Grows stream s.db s'.db) (hc : party.call = some c)
    (hself : s'.calls c = some next) (hinv : CallInv stream s' party.relay.phase c next) :
    PartyInv stream s' interrupted party where
  task := h.task
  covers := by
    obtain ⟨before, hentries, hbefore⟩ := h.covers
    exact ⟨before, hentries, fun parsed hparsed => hgrows.covered (hbefore parsed hparsed)⟩
  timed := h.timed
  phase := h.phase.grows hgrows fun hi => hi
  call := by
    intro d hd
    rw [hc] at hd
    cases hd
    exact ⟨next, hself, hinv⟩

theorem inserted_moves {s : PersistCalls.System} {old phase : PersistCalls.Phase} (h : PhaseMoves s old phase)
    (hinserted : inserted phase = true) :
    inserted old = true ∨ ∃ prepared task id, old = .create prepared task id := by
  cases h with
  | create => exact .inr ⟨_, _, _, rfl⟩
  | execute => exact .inl rfl
  | skip | check | fail | prepare | leave | find | fresh | draw | commit | publish => cases hinserted

theorem Inv.others_not_inserted (h : Inv stream s) {party : Party} (hget : s.relays.get r = some party)
    (hinserted : (s.callOf party).any (fun call => inserted call.phase) = true) :
    ∀ r' other, r' ≠ r → s.relays.get r' = some other →
      (s.callOf other).any (fun call => inserted call.phase) = false := by
  intro r' other hne hother
  by_contra hopen
  exact hne (h.alone r' r other party hother hget (by simpa using hopen) hinserted)

/-- One statement of the call of a relay. -/
theorem inv_advance {message : String} (h : Inv stream s) (hturn : InTurn stream s (.advance r message))
    (hstep : step settings stream s (.advance r message) = some s') : Inv stream s' := by
  obtain ⟨party, hget, hstep⟩ := Option.bind_eq_some_iff.mp hstep
  obtain ⟨c, hc, hstep⟩ := Option.bind_eq_some_iff.mp hstep
  obtain ⟨call, hcall, hstep⟩ := Option.bind_eq_some_iff.mp hstep
  obtain ⟨service, hservice, hstep⟩ := Option.bind_eq_some_iff.mp hstep
  have hparty := h.parties r party hget
  have hsome := h.exists_task r party hget
  have htracked := tracked_step h.tracked hservice
  have hversions := versions_step h.versions hservice
  obtain ⟨call', hcall', hadvance⟩ := Option.bind_eq_some_iff.mp hservice
  rw [hcall] at hcall'
  cases hcall'
  obtain ⟨call', hcall', hinv⟩ := hparty.call c hc
  rw [hcall] at hcall'
  cases hcall'
  have hof : s.callOf party = some call := by rw [System.callOf, hc, Option.bind_some, hcall]
  have hturn := hturn party hget call hof
  have hmoving : Moving stream s party c call :=
    ⟨h.tracked, h.versions, h.log, hsome, hparty, hcall, hinv, hturn⟩
  obtain ⟨phase, hcalls, hmoves⟩ := advance_moves h.tracked hcall hadvance
  have hself : service.calls c = some { call with phase } := by rw [hcalls, Function.update_self]
  have hothers : ∀ r' other d, r' ≠ r → s.relays.get r' = some other → d ∈ other.call →
      service.calls d = s.service.calls d ∧ service.server.writes d = s.service.server.writes d := by
    intro r' other d hne hother hd
    refine advance_others hadvance hcalls fun heq => ?_
    exact hne (h.distinct r' r other party d hother hget hd (by rw [heq]; exact hc))
  have hkept : ∀ d ∈ party.call, ∀ r' other, r' ≠ r → s.relays.get r' = some other → d ∉ other.call :=
    fun d hd r' other hne hother hd' => hne (h.distinct r' r other party d hother hget hd' hd)
  have hstays : ∀ r', s.relays.get r' = if r' = r then some party else s.relays.get r' := by
    intro r'
    split
    · rename_i heq
      rw [heq, hget]
    · rfl
  have hsome' := step_status_isSome h.tracked hservice hsome
  rw [hself, Option.any_some] at hstep
  cases hcommit : callCommits call with
  | some row =>
    obtain ⟨prepared, task, id, hphase, -⟩ := callCommits_eq_some hcommit
    have hinserted : (s.callOf party).any (fun call => inserted call.phase) = true := by
      rw [hof, Option.any_some, hphase]
      rfl
    obtain ⟨hlog, hgrows, hnext⟩ := commit_log hmoving hphase hadvance
    have hpublish : phase = .publish prepared id := by
      rw [hphase] at hmoves
      cases hmoves with
      | commit => rfl
      | leave hin hleft => exact absurd rfl (hleft _ _ _)
    subst hpublish
    cases hstep
    refine h.move hstays htracked hversions hlog hgrows (fun hi => hi) hsome' hothers
      (.inr (h.others_not_inserted hget hinserted)) (hparty.wait hgrows hc hself hnext) hkept fun hi => ?_
    simp only [System.callOf, hc, Option.bind_some, hself, Option.any_some, inserted] at hi
    cases hi
  | none =>
    have hquiet := quiet_advance stream.taskId hadvance hcommit
    by_cases hdone : isDone phase = true
    · rw [if_pos hdone] at hstep
      obtain ⟨hthrew, hsettled⟩ := done_settled hmoving hadvance fun next hnext => by
        rw [hself] at hnext
        cases hnext
        exact hdone
      rw [hthrew] at hstep
      cases hstep
      have hreturns := partyInv_returns hparty h.log (by rw [hinv.calling]; rfl) hsettled
      refine h.move (fun r' => s.relays.get_set r' r _) htracked hversions (h.log.quiet hquiet) hquiet.grows
        (fun hi => hi) hsome' hothers (.inl hquiet) ?_ (fun d hd => by cases hd) fun hi => ?_
      · exact hreturns.frame hquiet.grows (fun hi => hi) (fun d hd => by cases hd) fun _ => hquiet
      · cases hi
    · rw [if_neg hdone] at hstep
      cases hstep
      have hnext := callInv_advance hmoving hadvance hcommit hcalls hmoves (by simpa using hdone)
      refine h.move hstays htracked hversions (h.log.quiet hquiet) hquiet.grows (fun hi => hi) hsome' hothers
        (.inl hquiet) (hparty.wait hquiet.grows hc hself hnext) hkept fun hi => ?_
      have hinserted : inserted phase = true := by
        simpa only [System.callOf, hc, Option.bind_some, hself, Option.any_some] using hi
      rcases inserted_moves hmoves hinserted with hold | ⟨prepared, task, id, hcreate⟩
      · refine h.others_not_inserted hget ?_
        rw [hof]
        exact hold
      · rw [CallInTurn, hcreate] at hturn
        exact fun r' other _ hother => hturn.2.2.2 other ((OrderedMap.mem_values_iff _ _).mpr ⟨r', hother⟩)

theorem inv_step {l : DuplicateRelays.Label} (h : Inv stream s) (hturn : InTurn stream s l)
    (hstep : step settings stream s l = some s') : Inv stream s' := by
  cases l with
  | start r => exact inv_start h hstep
  | crash r => exact inv_crash h hstep
  | relay r l => exact inv_relay h hstep
  | receive r count => exact inv_receive h hstep
  | call r c archived now resultId => exact inv_call h hstep
  | advance r message => exact inv_advance h hturn hstep
  | abort r message => exact hturn.elim
  | single tx => exact inv_single h hstep

/-- Any number of relays leave the log and the status of a single relay when every step is in turn. -/
theorem asSingle_of_inTurn (settings : RelaySettings) (stream : Stream) {ls : List DuplicateRelays.Label}
    (hturn : Along (step settings stream) (InTurn stream) .init ls) :
    Throughout (step settings stream) (AsSingle stream) .init ls :=
  throughout_of_along (fun _ h => h.asSingle) (fun _ _ _ h hok hstep => inv_step h hok hstep)
    (inv_init stream) hturn

instance (stream : Stream) (s : DuplicateRelays.System) (source : Option String) (id : Nat) :
    Decidable (Undisturbed stream s source id) :=
  inferInstanceAs (Decidable (_ ∧ _))

instance (stream : Stream) (s : DuplicateRelays.System) (call : Call) : Decidable (CallInTurn stream s call) := by
  unfold CallInTurn
  split <;> infer_instance

instance decidableInTurn (stream : Stream) (s : DuplicateRelays.System) :
    (l : DuplicateRelays.Label) → Decidable (InTurn stream s l)
  | .advance _ _ => inferInstanceAs (Decidable (∀ party ∈ s.relays.get _, ∀ call ∈ s.callOf party, _))
  | .abort _ _ => .isFalse fun h => h
  | .start _ | .crash _ | .relay _ _ | .receive _ _ | .call _ _ _ _ _ | .single _ => .isTrue trivial

def oneTask : RelaySettings := ⟨⟨1, fun _ => true⟩, fun _ => none⟩

def event (detail : TaskEventDetail) : TaskStreamEvent := ⟨detail, "t", "s", "run", "2026-01-01"⟩

/-- The task is accepted and completed. -/
def twoEvents : Stream where
  taskId := "t"
  entries := [⟨event .accepted, some "1"⟩, ⟨event .completed, some "2"⟩]
  own := by decide
  named := by decide
  distinct := by decide

/-- The relay reads the first event of the stream and calls `persistTaskEvent`. -/
def connects (r : Nat) : List DuplicateRelays.Label :=
  [.start r, .relay r (.database "2026-01-01" "" ""), .relay r (.fetched 200 true), .receive r 1,
    .call r r none "2026-01-01" "result"]

/-- Two instances relay the stream of a running task. -/
def twoRelays : List DuplicateRelays.Label :=
  [.single (.enqueue ⟨"t", "u", none, "hello", .inr ("s", "hello")⟩),
    .single (.dispatch "t" "run" "http://a/stream" "2026-01-01")] ++ connects 0 ++ connects 1

def advances (r n : Nat) : List DuplicateRelays.Label :=
  List.replicate n (.advance r "Unique constraint failed on the fields: (`taskId`,`sourceEventId`)")

/-- Both relays have checked for the event before one of them inserts it; the insertion of the other
throws, and its relay fails the running task. -/
def overtaken : List DuplicateRelays.Label :=
  twoRelays ++ advances 1 5 ++ advances 0 9 ++ advances 1 1 ++
    [.relay 1 (.database "2026-01-01" "" ""), .call 1 2 none "2026-01-01" ""] ++ advances 1 9

theorem not_asSingle_of_overtaken :
    ¬ Throughout (step oneTask twoEvents) (AsSingle twoEvents) .init overtaken := by
  intro hsingle
  have hend : (run (step oneTask twoEvents) .init overtaken).any (fun s =>
      s.db.status twoEvents.taskId = some .failed && !s.interrupted) = true := by
    decide +kernel
  obtain ⟨s, hrun, hs⟩ := (Option.any_eq_true _ _).mp hend
  obtain ⟨hfailed, hopen⟩ := Bool.and_eq_true_iff.mp hs
  rcases (hsingle.last hrun).failed (of_decide_eq_true hfailed) with hinterrupted | ⟨parsed, hmem, hevent⟩
  · rw [hinterrupted] at hopen
    cases hopen
  · revert hevent
    revert parsed
    decide

/-- The second relay finds the event after its first check, and the task is completed once. -/
theorem asSingle_of_takingTurns :
    let taking := twoRelays ++ advances 1 2 ++ advances 0 9 ++ advances 1 2 ++
      [.receive 0 1, .receive 1 1, .call 0 2 none "2026-01-01" "result", .call 1 3 none "2026-01-01" "other"] ++
      advances 0 15 ++ advances 1 1
    (run (step oneTask twoEvents) .init taking).any (fun s =>
      (s.db.eventsOf "t").map TaskEvent.type = ["task.accepted", "task.completed"]) = true ∧
      Throughout (step oneTask twoEvents) (AsSingle twoEvents) .init taking :=
  ⟨by decide +kernel, asSingle_of_inTurn oneTask twoEvents (by decide +kernel)⟩

end RelayAgreement
