import ClawWork.AdapterRelay
import ClawWork.StatusFrames
import ClawWork.Transition

/-!
# How the relay of a stream ends

The timer sets a flag and aborts the controller. A pending request or read then
rejects, and the `catch` block fails the task; but when the timer fires while an
event is persisted, the read loop ends at its condition and nothing fails the
task. A terminal event ends the relay whether or not it has ended the task.
-/

namespace RelayExit

open SharedTypes TaskStore TasksService StatusFrames AdapterRelay Transition

variable {settings : RelaySettings} {s s' : State} {l : Label} {parsed : Parsed}

def Ended (db : Database) (taskId : String) : Prop :=
  (db.status taskId).any TaskStatus.isTerminal = true

/-- A relay that has returned leaves a terminal task, or was aborted by another party. -/
def EndsTask (s : State) : Prop :=
  s.relay.phase.isReturned = true → Ended s.db s.relay.taskId ∨ s.relay.stopped = true

/-- The relay may go on after an event: another one is in the buffer, or the loop reads on. -/
def GoesOn (relay : Relay) : Prop := relay.pending.isEmpty = false ∨ relay.aborted = false

/-- The event whose `persistTaskEvent` a step resolves, and whether its transaction has run. -/
def resuming (settings : Settings) (s : State) : Label → Option (Parsed × Bool)
  | .database now resultId _ =>
    match s.relay.phase with
    | .persisting parsed .precheck =>
      if (truthy parsed.sourceEventId).any fun id => s.db.hasSourceEvent parsed.event.taskId id then
        some (parsed, false)
      else none
    | .persisting parsed (.transaction prepared) =>
      match (persistTransaction settings now resultId prepared.stored parsed.sourceEventId s.db).1 with
      | .threw => none
      | _ => some (parsed, true)
    | _ => none
  | _ => none

/-- What has to hold when `persistTaskEvent` resolves: the task is terminal, the relay was aborted by
another party, a terminal event is new to the log of the relay's own task, or after any other event
the relay goes on. -/
def ResumesWell (settings : Settings) (s : State) (l : Label) : Prop :=
  ∀ r ∈ resuming settings s l, Ended s.db s.relay.taskId ∨ s.relay.stopped = true ∨
    if r.1.event.isTerminal then r.2 = true ∧ r.1.event.taskId = s.relay.taskId ∧
      s.db.violatesSource r.1.event.taskId r.1.sourceEventId = false
    else GoesOn s.relay

theorem ended_iff {db : Database} {t : String} :
    Ended db t ↔ ∃ status, db.status t = some status ∧ status.isTerminal = true := by
  simp [Ended, Option.any_eq_true]

theorem Ended.keep {db db' : Database} {t : String} (h : Ended db t) (hkeep : Keeps db db') :
    Ended db' t := by
  obtain ⟨status, hst, hterm⟩ := ended_iff.mp h
  exact ended_iff.mpr ⟨status, hkeep.terminal t status hst hterm, hterm⟩

/-- What is known of the event that is on its way to the log. -/
def PhaseInv (s : State) : Prop :=
  match s.relay.phase with
  | .persisting parsed (.transaction prepared) =>
    prepared.stored.taskId = parsed.event.taskId ∧ prepared.stored.isTerminal = parsed.event.isTerminal
  | .failPersist _ event => event.taskId = s.relay.taskId ∧ ∃ code message, event.detail = .failed code message
  | .returned => Ended s.db s.relay.taskId ∨ s.relay.stopped = true
  | _ => True

structure Inv (s : State) : Prop where
  keyed : Keyed s.db
  exists_task : (s.db.status s.relay.taskId).isSome = true
  aborted : s.relay.aborted = true → s.relay.timedOut = true ∨ s.relay.stopped = true
  phase : PhaseInv s

theorem Inv.endsTask (h : Inv s) : EndsTask s := by
  intro hreturned
  have hphase := h.phase
  unfold PhaseInv at hphase
  cases hp : s.relay.phase with
  | returned =>
    rw [hp] at hphase
    exact hphase
  | _ =>
    rw [hp] at hreturned
    cases hreturned

theorem prepareTaskEvent_same {archived : Option Archived} {event : TaskStreamEvent}
    {prepared : Prepared} (h : prepareTaskEvent archived event = some prepared) :
    prepared.stored.taskId = event.taskId ∧ prepared.stored.isTerminal = event.isTerminal := by
  obtain ⟨a, r, hdetail, -, -, rfl⟩ | ⟨-, rfl⟩ := prepareTaskEvent_eq_some h
  · exact ⟨rfl, by simp [TaskStreamEvent.isTerminal, hdetail, TaskEventDetail.isTerminal]⟩
  · exact ⟨rfl, rfl⟩

/-- The phases that a step of the relay may reach without any further ado. -/
theorem Inv.move (h : Inv s) {db : Database} {relay : Relay} (hkeep : Keeps s.db db)
    (htask : relay.taskId = s.relay.taskId)
    (haborted : relay.aborted = true → relay.timedOut = true ∨ relay.stopped = true)
    (hphase : PhaseInv ⟨db, relay⟩) : Inv ⟨db, relay⟩ where
  keyed := hkeep.keyed
  exists_task := by
    rw [htask]
    exact hkeep.isSome _ h.exists_task
  aborted := haborted
  phase := hphase

/-- The `catch` block returns at once only if another party has aborted the relay. -/
theorem Inv.catchError (h : Inv s) {db : Database} (hkeep : Keeps s.db db) (message : String) :
    Inv ⟨db, s.relay.catchError message⟩ := by
  unfold Relay.catchError
  split
  · exact h.move hkeep rfl h.aborted trivial
  · rename_i htimer
    split
    · rename_i haborted
      refine h.move hkeep rfl h.aborted (.inr ?_)
      exact (h.aborted haborted).resolve_left htimer
    · exact h.move hkeep rfl h.aborted trivial

theorem Inv.resume (h : Inv s) {db : Database} (hkeep : Keeps s.db db) {parsed : List Parsed}
    (hwell : Ended db s.relay.taskId ∨ s.relay.stopped = true ∨ parsed.isEmpty = false ∨
      s.relay.aborted = false) :
    Inv ⟨db, s.relay.resume parsed⟩ := by
  cases parsed with
  | cons first rest => exact h.move hkeep rfl h.aborted trivial
  | nil =>
    by_cases haborted : s.relay.aborted = true
    · have hreturn : s.relay.resume [] = { s.relay with phase := .returned, pending := [] } := by
        simp [Relay.resume, haborted]
      rw [hreturn]
      refine h.move hkeep rfl h.aborted ?_
      rcases hwell with hended | hstopped | hnil | hopen
      · exact .inl hended
      · exact .inr hstopped
      · cases hnil
      · rw [haborted] at hopen
        cases hopen
    · have hread : s.relay.resume [] = { s.relay with phase := .reading, pending := [] } := by
        simp [Relay.resume, haborted]
      rw [hread]
      exact h.move hkeep rfl h.aborted trivial

theorem Inv.afterPersist (h : Inv s) {db : Database} (hkeep : Keeps s.db db)
    (hwell : Ended db s.relay.taskId ∨ s.relay.stopped = true ∨
      parsed.event.isTerminal = false ∧ GoesOn s.relay) : Inv ⟨db, s.relay.afterPersist parsed⟩ := by
  unfold Relay.afterPersist
  by_cases hterm : parsed.event.isTerminal = true
  · rw [if_pos hterm]
    refine h.move hkeep rfl h.aborted ?_
    rcases hwell with hended | hstopped | ⟨hopen, -⟩
    · exact .inl hended
    · exact .inr hstopped
    · rw [hterm] at hopen
      cases hopen
  · rw [if_neg hterm]
    refine h.resume hkeep ?_
    rcases hwell with hended | hstopped | ⟨-, hnext | hopen⟩
    · exact .inl hended
    · exact .inr (.inl hstopped)
    · exact .inr (.inr (.inl hnext))
    · exact .inr (.inr (.inr hopen))

/-- After an event the relay returns only in a state that `afterPersist` accounts for. -/
theorem goesOn_of_endsTask {db : Database} {relay : Relay}
    (h : EndsTask ⟨db, relay.afterPersist parsed⟩) :
    Ended db relay.taskId ∨ relay.stopped = true ∨ parsed.event.isTerminal = false ∧ GoesOn relay := by
  unfold Relay.afterPersist at h
  by_cases hterm : parsed.event.isTerminal = true
  · rw [if_pos hterm] at h
    rcases h rfl with hended | hstopped
    · exact .inl hended
    · exact .inr (.inl hstopped)
  · rw [if_neg hterm] at h
    have hopen : parsed.event.isTerminal = false := by simpa using hterm
    cases hpending : relay.pending with
    | cons first rest => exact .inr (.inr ⟨hopen, .inl (by rw [hpending]; rfl)⟩)
    | nil =>
      by_cases haborted : relay.aborted = true
      · rw [hpending, Relay.resume, haborted] at h
        rcases h rfl with hended | hstopped
        · exact .inl hended
        · exact .inr (.inl hstopped)
      · exact .inr (.inr ⟨hopen, .inr (by simpa using haborted)⟩)

variable {db : Database} {stored : TaskStreamEvent} {source : Option String} {now resultId t : String}

theorem newStatus_isTerminal (d : TaskEventDetail) (old : TaskStatus) (hopen : old.isTerminal = false) :
    ((newStatus d).getD old).isTerminal = d.isTerminal := by
  cases d with
  | stageChanged => exact hopen
  | delta => exact hopen
  | resultCreated => exact hopen
  | _ => rfl

/-- A terminal event that is new to the log of its task ends it. -/
theorem ended_of_persist (settings : Settings) (now resultId : String) (stored : TaskStreamEvent)
    (source : Option String) (hk : Keyed db)
    (hexists : (db.status stored.taskId).isSome = true) (hterm : stored.isTerminal = true)
    (hfresh : db.violatesSource stored.taskId source = false)
    (hdone : (persistTransaction settings now resultId stored source db).1 ≠ .threw) :
    Ended (persistTransaction settings now resultId stored source db).2 stored.taskId := by
  rcases persistTransaction_cases settings now resultId stored source db with
    ⟨heq, hskip⟩ | heq | ⟨task, db', htask, hopen, -, hproject, heq⟩
  · obtain ⟨status, hst⟩ := Option.isSome_iff_exists.mp hexists
    obtain ⟨task, htask, rfl⟩ := Option.map_eq_some_iff.mp hst
    rw [heq]
    rcases hskip task htask with hended | hdup
    · exact ended_iff.mpr ⟨task.status, hst, hended⟩
    · obtain ⟨id, hid, hsource⟩ := (Option.any_eq_true _ _).mp hdup
      have hsome : source = some id := (Option.filter_eq_some_iff.mp hid).1
      rw [Database.violatesSource, hsome, Option.any_some, hsource] at hfresh
      cases hfresh
  · rw [heq] at hdone
    exact absurd rfl hdone
  · rw [heq]
    have hst := (projectEvent_projects hproject).status stored.taskId
    rw [hk.get htask, if_pos rfl] at hst
    have hold : (db.createEvent stored.taskId source stored).status stored.taskId = some task.status :=
      congrArg (Option.map Task.status) htask
    rw [hold] at hst
    refine ended_iff.mpr ⟨_, hst, ?_⟩
    rw [newStatus_isTerminal _ _ hopen]
    exact hterm

/-- A task that the transaction has ended was ended before, or by a terminal event that is new to its
log. -/
theorem persist_of_ended (settings : Settings) (now resultId : String) (stored : TaskStreamEvent)
    (source : Option String) (t : String) (hk : Keyed db)
    (hended : Ended (persistTransaction settings now resultId stored source db).2 t) :
    Ended db t ∨ stored.isTerminal = true ∧ stored.taskId = t ∧
      db.violatesSource stored.taskId source = false := by
  rcases persist_status settings now resultId stored source hk t with heq | ⟨ht, old, -, hopen, hdone, hnew⟩
  · rw [Ended, heq] at hended
    exact .inl hended
  · refine .inr ⟨?_, ht.symm, ?_⟩
    · rw [Ended, hnew, Option.any_some, newStatus_isTerminal _ _ hopen] at hended
      exact hended
    · rcases persistTransaction_cases settings now resultId stored source db with
        ⟨heq, -⟩ | heq | ⟨-, -, -, -, hfresh, -, -⟩
      · rw [heq] at hdone
        cases hdone
      · rw [heq] at hdone
        cases hdone
      · exact hfresh

theorem failTaskEvent_eq_none (hexists : (db.status t).isSome = true) {code message : String}
    (h : failTaskEvent db t code message now = none) : Ended db t := by
  obtain ⟨status, hst⟩ := Option.isSome_iff_exists.mp hexists
  obtain ⟨task, htask, rfl⟩ := Option.map_eq_some_iff.mp hst
  exact ended_iff.mpr ⟨task.status, hst, failTaskEvent_eq_none_iff.mp h task htask⟩

theorem failTaskEvent_eq_some (hk : Keyed db) {code message : String} {event : TaskStreamEvent}
    (h : failTaskEvent db t code message now = some event) :
    event.taskId = t ∧ event.detail = .failed code message := by
  obtain ⟨task, htask, -, rfl⟩ := failTaskEvent_eq_some_iff.mp h
  exact ⟨hk.get htask, rfl⟩

/-- The answer of the database, when it lets the relay resume well. -/
theorem inv_answer (h : Inv s) {message : String}
    (hwell : ResumesWell settings.toSettings s (.database now resultId message))
    (hstep : s.answer settings.toSettings now resultId message = some s') : Inv s' := by
  have hkeep := keeps_refl h.keyed
  have hphase := h.phase
  unfold PhaseInv at hphase
  unfold ResumesWell resuming at hwell
  unfold State.answer at hstep
  cases hp : s.relay.phase with
  | cursor =>
    rw [hp] at hstep
    cases hstep
    exact h.move hkeep rfl h.aborted trivial
  | persisting parsed at_ =>
    rw [hp] at hphase hwell hstep
    cases at_ with
    | precheck =>
      dsimp only at hwell hstep
      split at hstep
      · rename_i hdup
        cases hstep
        rw [if_pos hdup] at hwell
        refine h.afterPersist hkeep ?_
        rcases hwell _ rfl with hended | hstopped | hcase
        · exact .inl hended
        · exact .inr (.inl hstopped)
        · split at hcase
          · cases hcase.1
          · rename_i hopen
            exact .inr (.inr ⟨by simpa using hopen, hcase⟩)
      · cases hstep
        exact h.move hkeep rfl h.aborted trivial
    | prepare => cases hstep
    | transaction prepared =>
      obtain ⟨htask, hterm⟩ := hphase
      have hpersist := persist_keeps settings.toSettings now resultId prepared.stored
        parsed.sourceEventId h.keyed
      have hended := ended_of_persist settings.toSettings now resultId prepared.stored
        parsed.sourceEventId h.keyed
      dsimp only at hwell hstep
      cases hout : persistTransaction settings.toSettings now resultId prepared.stored
          parsed.sourceEventId s.db with
      | mk outcome db =>
        rw [hout] at hwell hpersist hended hstep
        by_cases hthrew : outcome = .threw
        · subst hthrew
          cases hstep
          exact h.catchError hpersist message
        · have hboth : s' = ⟨db, s.relay.afterPersist parsed⟩ ∧ ∀ r ∈ some (parsed, true),
              Ended s.db s.relay.taskId ∨ s.relay.stopped = true ∨
                if r.1.event.isTerminal then r.2 = true ∧ r.1.event.taskId = s.relay.taskId ∧
                  s.db.violatesSource r.1.event.taskId r.1.sourceEventId = false
                else GoesOn s.relay := by
            cases outcome with
            | persisted id => exact ⟨(Option.some.inj hstep).symm, hwell⟩
            | skipped => exact ⟨(Option.some.inj hstep).symm, hwell⟩
            | threw => exact absurd rfl hthrew
          obtain ⟨rfl, hwell⟩ := hboth
          refine h.afterPersist hpersist ?_
          rcases hwell _ rfl with hdone | hstopped | hcase
          · exact .inl (hdone.keep hpersist)
          · exact .inr (.inl hstopped)
          · split at hcase
            · rename_i hterminal
              obtain ⟨-, hown, hfresh⟩ := hcase
              rw [← htask] at hown hfresh
              refine .inl ?_
              rw [← hown]
              exact hended (hown ▸ h.exists_task) (hterm.trans hterminal) hfresh hthrew
            · rename_i hopen
              exact .inr (.inr ⟨by simpa using hopen, hcase⟩)
  | failing inCatch code text =>
    rw [hp] at hstep
    dsimp only at hstep
    split at hstep
    · rename_i hnone
      cases hstep
      exact h.move hkeep rfl h.aborted (.inl (failTaskEvent_eq_none h.exists_task hnone))
    · rename_i event hevent
      cases hstep
      obtain ⟨htask, hdetail⟩ := failTaskEvent_eq_some h.keyed hevent
      exact h.move hkeep rfl h.aborted ⟨htask, code, text, hdetail⟩
  | failPersist inCatch event =>
    rw [hp] at hphase hstep
    obtain ⟨htask, code, text, hdetail⟩ := hphase
    have hpersist := persist_keeps settings.toSettings now resultId event none h.keyed
    have hdone := persist_ne_threw settings.toSettings now resultId event s.db (by simp [hdetail])
    have hended := ended_of_persist settings.toSettings now resultId event none h.keyed
      (htask ▸ h.exists_task) (by rw [TaskStreamEvent.isTerminal, hdetail]; rfl) rfl hdone
    dsimp only at hstep
    cases hout : persistTransaction settings.toSettings now resultId event none s.db with
    | mk outcome db =>
      rw [hout] at hpersist hdone hended hstep
      rw [htask] at hended
      cases outcome with
      | threw => exact absurd rfl hdone
      | persisted id =>
        cases hstep
        exact h.move hpersist rfl h.aborted (.inl hended)
      | skipped =>
        cases hstep
        exact h.move hpersist rfl h.aborted (.inl hended)
  | fetching id =>
    rw [hp] at hstep
    cases hstep
  | reading =>
    rw [hp] at hstep
    cases hstep
  | requestingCancellation =>
    rw [hp] at hstep
    cases hstep
  | returned =>
    rw [hp] at hstep
    cases hstep

theorem Inv.receive (h : Inv s) (haborted : s.relay.aborted = false) (text : List Char) :
    Inv { s with relay := s.relay.receive settings text } := by
  unfold Relay.receive
  dsimp only
  have hbuffer : Inv { s with relay := { s.relay with
      buffer := (splitEvents (s.relay.buffer ++ replaceCrlf text)).2 } } := by
    have hphase := h.phase
    exact ⟨h.keyed, h.exists_task, h.aborted, hphase⟩
  exact hbuffer.resume (keeps_refl h.keyed) (.inr (.inr (.inr haborted)))

/-- The flags of the relay change at an `await`, which is not the end. -/
theorem Inv.flags (h : Inv s) {timedOut aborted stopped : Bool}
    (haborted : aborted = true → timedOut = true ∨ stopped = true) (hopen : ∀ p, s.relay.phase = p → p ≠ .returned) :
    Inv { s with relay := { s.relay with timedOut, aborted, stopped } } := by
  refine ⟨h.keyed, h.exists_task, haborted, ?_⟩
  have hphase := h.phase
  unfold PhaseInv at hphase ⊢
  cases hp : s.relay.phase with
  | returned => exact absurd rfl (hopen _ hp)
  | persisting parsed phase =>
    rw [hp] at hphase
    cases phase with
    | transaction prepared => exact hphase
    | _ => trivial
  | failPersist inCatch event =>
    rw [hp] at hphase
    exact hphase
  | _ => trivial

/-- Steps that let the relay resume well keep the invariant. -/
theorem inv_step (h : Inv s) (hwell : ResumesWell settings.toSettings s l)
    (hstep : step settings s l = some s') : Inv s' := by
  have hkeep := keeps_refl h.keyed
  cases l with
  | database now resultId message => exact inv_answer h hwell hstep
  | prepared archived message =>
    simp only [step] at hstep
    split at hstep
    · split at hstep
      · rename_i prepared hprepared
        cases hstep
        exact h.move hkeep rfl h.aborted (prepareTaskEvent_same hprepared)
      · cases hstep
        exact h.catchError hkeep message
    · cases hstep
  | fetched status hasBody =>
    simp only [step] at hstep
    split at hstep
    · split at hstep
      · cases hstep
      · split at hstep
        · cases hstep
          exact h.move hkeep rfl h.aborted trivial
        · cases hstep
          exact h.catchError hkeep _
    · cases hstep
  | fetchFailed message =>
    simp only [step] at hstep
    split at hstep <;> cases hstep
    exact h.catchError hkeep message
  | chunk text =>
    simp only [step] at hstep
    split at hstep
    · split at hstep
      · cases hstep
      · rename_i hopen
        cases hstep
        exact h.receive (by simpa using hopen) text
    · cases hstep
  | ended =>
    simp only [step] at hstep
    split at hstep
    · split at hstep
      · cases hstep
      · cases hstep
        exact h.move hkeep rfl h.aborted trivial
    · cases hstep
  | readFailed message =>
    simp only [step] at hstep
    split at hstep <;> cases hstep
    exact h.catchError hkeep message
  | cancellationAnswered =>
    simp only [step] at hstep
    split at hstep <;> cases hstep
    exact h.move hkeep rfl h.aborted trivial
  | timer =>
    simp only [step] at hstep
    split at hstep
    · cases hstep
    · rename_i hopen
      cases hstep
      exact h.flags (fun _ => .inl rfl) fun p hp hreturned => hopen (hp.trans hreturned)
  | stop =>
    simp only [step] at hstep
    split at hstep
    · cases hstep
    · rename_i hopen
      cases hstep
      exact h.flags (fun _ => .inr rfl) fun p hp hreturned => hopen (hp.trans hreturned)
  | other tx =>
    obtain ⟨db, hdb, hstep⟩ := Option.bind_eq_some_iff.mp hstep
    cases hstep
    have hother := apply_keeps h.keyed hdb
    refine h.move hother rfl h.aborted ?_
    have hphase := h.phase
    unfold PhaseInv at hphase ⊢
    cases hp : s.relay.phase with
    | returned =>
      rw [hp] at hphase
      exact hphase.imp_left fun hended => hended.keep hother
    | persisting parsed phase =>
      rw [hp] at hphase
      cases phase with
      | transaction prepared => exact hphase
      | _ => trivial
    | failPersist inCatch event =>
      rw [hp] at hphase
      exact hphase
    | _ => trivial

/-- A step after which the relay has not returned too early lets it resume well. -/
theorem resumesWell_of_endsTask (h : Inv s) (hstep : step settings s l = some s') (hends : EndsTask s') :
    ResumesWell settings.toSettings s l := by
  cases l with
  | database now resultId message =>
    have hphase := h.phase
    unfold PhaseInv at hphase
    simp only [step, State.answer] at hstep
    unfold ResumesWell resuming
    intro r hr
    cases hp : s.relay.phase with
    | persisting parsed at_ =>
      rw [hp] at hphase hstep hr
      cases at_ with
      | precheck =>
        dsimp only at hstep hr
        split at hr
        · rename_i hdup
          cases hr
          rw [if_pos hdup] at hstep
          cases hstep
          rcases goesOn_of_endsTask hends with hended | hstopped | ⟨hopen, hgoes⟩
          · exact .inl hended
          · exact .inr (.inl hstopped)
          · refine .inr (.inr ?_)
            rw [hopen]
            exact hgoes
        · cases hr
      | prepare => cases hr
      | transaction prepared =>
        obtain ⟨htask, hterm⟩ := hphase
        have hbefore := persist_of_ended settings.toSettings now resultId prepared.stored
          parsed.sourceEventId s.relay.taskId h.keyed
        dsimp only at hstep hr
        cases hout : persistTransaction settings.toSettings now resultId prepared.stored
            parsed.sourceEventId s.db with
        | mk outcome db =>
          rw [hout] at hr hbefore hstep
          have hboth : s' = ⟨db, s.relay.afterPersist parsed⟩ ∧ r = (parsed, true) := by
            cases outcome with
            | persisted id => exact ⟨(Option.some.inj hstep).symm, (Option.some.inj hr).symm⟩
            | skipped => exact ⟨(Option.some.inj hstep).symm, (Option.some.inj hr).symm⟩
            | threw => cases hr
          obtain ⟨rfl, rfl⟩ := hboth
          rcases goesOn_of_endsTask hends with hended | hstopped | ⟨hopen, hgoes⟩
          · rcases hbefore hended with hended | ⟨hterminal, hown, hfresh⟩
            · exact .inl hended
            · rw [hterm] at hterminal
              rw [htask] at hown hfresh
              refine .inr (.inr ?_)
              rw [if_pos hterminal]
              exact ⟨rfl, hown, hfresh⟩
          · exact .inr (.inl hstopped)
          · refine .inr (.inr ?_)
            rw [hopen]
            exact hgoes
    | _ =>
      rw [hp] at hr
      cases hr
  | _ =>
    intro r hr
    cases hr

theorem inv_start {settings : Settings} {t : String}
    (hreach : Reachable (Transaction.apply settings) .empty db) (ht : (db.status t).isSome = true) :
    Inv ⟨db, .start t⟩ where
  keyed := by
    obtain ⟨txs, hrun⟩ := hreach
    have hempty : Keyed .empty := fun u task h => by cases h
    exact invariant_run (fun _ _ _ hk hstep => (apply_keeps hk hstep).keyed) hempty hrun
  exists_task := ht
  aborted := by
    intro h
    cases h
  phase := trivial

/-- The relay leaves a terminal task, or was aborted by another party, in a run if and only if every
event that it persists lets it resume well. -/
theorem ends_task_iff (settings : RelaySettings) {ls : List Label} {t : String}
    (hreach : Reachable (Transaction.apply settings.toSettings) .empty db)
    (ht : (db.status t).isSome = true) (hrun : run (step settings) ⟨db, .start t⟩ ls = some s) :
    Throughout (step settings) EndsTask ⟨db, .start t⟩ ls ↔
      Along (step settings) (ResumesWell settings.toSettings) ⟨db, .start t⟩ ls :=
  throughout_iff_along (fun _ h => h.endsTask) (fun _ _ _ h hwell hstep => inv_step h hwell hstep)
    (fun _ _ _ h hstep hends => resumesWell_of_endsTask h hstep hends) (inv_start hreach ht) hrun

instance (db : Database) (t : String) : Decidable (Ended db t) :=
  inferInstanceAs (Decidable ((db.status t).any TaskStatus.isTerminal = true))

instance (relay : Relay) : Decidable (GoesOn relay) :=
  inferInstanceAs (Decidable (relay.pending.isEmpty = false ∨ relay.aborted = false))

instance (settings : Settings) (s : State) (l : Label) : Decidable (ResumesWell settings s l) :=
  inferInstanceAs (Decidable (∀ r ∈ resuming settings s l, Ended s.db s.relay.taskId ∨
    s.relay.stopped = true ∨
    if r.1.event.isTerminal then r.2 = true ∧ r.1.event.taskId = s.relay.taskId ∧
      s.db.violatesSource r.1.event.taskId r.1.sourceEventId = false
    else GoesOn s.relay))

def deltaText : String :=
  "\x7b\"type\":\"task.delta\",\"taskId\":\"t\",\"sessionId\":\"s\",\"runId\":\"r\"," ++
    "\"timestamp\":\"2026-01-01\",\"delta\":\"hello\"\x7d"

def completedText : String :=
  "\x7b\"type\":\"task.completed\",\"taskId\":\"t\",\"sessionId\":\"s\",\"runId\":\"r\"," ++
    "\"timestamp\":\"2026-01-01\"\x7d"

/-- The JSON parser, as far as the two texts go. -/
def twoTexts : RelaySettings where
  concurrentLimit := 1
  isUrl := fun _ => true
  jsonParse := fun text =>
    if text = deltaText then some (TaskStreamEvent.toJson ⟨.delta "hello", "t", "s", "r", "2026-01-01"⟩)
    else if text = completedText then
      some (TaskStreamEvent.toJson ⟨.completed, "t", "s", "r", "2026-01-01"⟩)
    else none

/-- A running task. -/
def runningTask : List Transaction :=
  [.single (.enqueue ⟨"t", "u", none, "hello", .inr ("s", "hello")⟩),
    .single (.dispatch "t" "r" "url" "2026-01-01")]

/-- The relay has read a chunk with one event. -/
def readDelta : List Label :=
  [.database "2026-01-01" "r1" "", .fetched 200 true,
    .chunk ("id: 1\ndata: " ++ deltaText ++ "\n\n").toList]

/-- The timer fires while the event is persisted. -/
def timedOutWhilePersisting : List Label :=
  readDelta ++ [.database "2026-01-01" "r2" "", .timer, .prepared none "", .database "2026-01-01" "r3" ""]

theorem running_after_timeout : ∃ db, Reachable (Transaction.apply twoTexts.toSettings) .empty db ∧
    (db.status "t").isSome = true ∧
    ¬ Throughout (step twoTexts) EndsTask ⟨db, .start "t"⟩ timedOutWhilePersisting := by
  have hany : (run (Transaction.apply twoTexts.toSettings) .empty runningTask).any (fun db =>
      (db.status "t").isSome &&
      (run (step twoTexts) ⟨db, .start "t"⟩ timedOutWhilePersisting).any fun s =>
        s.relay.phase.isReturned && !s.relay.stopped && !decide (Ended s.db s.relay.taskId)) = true := by
    decide +kernel
  obtain ⟨db, hdb, hall⟩ := (Option.any_eq_true _ _).mp hany
  obtain ⟨ht, hrun⟩ := Bool.and_eq_true_iff.mp hall
  obtain ⟨s, hrun, hs⟩ := (Option.any_eq_true _ _).mp hrun
  refine ⟨db, ⟨runningTask, hdb⟩, ht, fun hends => ?_⟩
  simp only [Bool.and_eq_true, Bool.not_eq_true', decide_eq_false_iff_not] at hs
  rcases hends.last hrun hs.1.1 with hended | hstopped
  · exact hs.2 hended
  · rw [hs.1.2] at hstopped
    cases hstopped

/-- The stream goes on to its terminal event. -/
def completedInTime : List Label :=
  readDelta ++ [.database "2026-01-01" "r2" "", .prepared none "", .database "2026-01-01" "r3" "",
    .chunk ("id: 2\ndata: " ++ completedText ++ "\n\n").toList, .database "2026-01-01" "r4" "",
    .prepared none "", .timer, .database "2026-01-01" "r5" ""]

theorem ends_task_completed : ∃ db, Reachable (Transaction.apply twoTexts.toSettings) .empty db ∧
    Throughout (step twoTexts) EndsTask ⟨db, .start "t"⟩ completedInTime := by
  have hany : (run (Transaction.apply twoTexts.toSettings) .empty runningTask).any (fun db =>
      (db.status "t").isSome && (run (step twoTexts) ⟨db, .start "t"⟩ completedInTime).isSome &&
        decide (Along (step twoTexts) (ResumesWell twoTexts.toSettings) ⟨db, .start "t"⟩
          completedInTime)) = true := by
    decide +kernel
  obtain ⟨db, hdb, hall⟩ := (Option.any_eq_true _ _).mp hany
  simp only [Bool.and_eq_true, decide_eq_true_eq] at hall
  obtain ⟨⟨ht, hrun⟩, hwell⟩ := hall
  obtain ⟨s, hrun⟩ := Option.isSome_iff_exists.mp hrun
  exact ⟨db, ⟨runningTask, hdb⟩, (ends_task_iff twoTexts ⟨runningTask, hdb⟩ ht hrun).mpr hwell⟩

end RelayExit
