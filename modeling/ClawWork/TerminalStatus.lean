import ClawWork.LogCommits
import ClawWork.Transition

/-!
# When a terminal status is final

The guard of `persistTaskEvent` reads the status in one statement and the update
by primary key does not look at it again, so a transaction that has read an open
status may commit after another one has ended the task. The runs in which the
end of a task is final are exactly those in which no commit meets this case.
-/

namespace TerminalStatus

open SharedTypes TaskStore TasksService StatusFrames PersistCalls LogCommits Transition

variable {settings : Settings} {s s' : System} {l : Label} {t : String}
  {rows rows' : List TaskEvent} {row : TaskEvent} {status status' : Option TaskStatus}

/-- The row of a terminal event. -/
def ends (row : TaskEvent) : Bool := (rowStatus row).any TaskStatus.isTerminal

def AtMostOneEnd (rows : List TaskEvent) : Prop := (rows.filter ends).length ≤ 1

def NoneAboveEnd (rows : List TaskEvent) : Prop :=
  ∀ ended ∈ rows, ends ended = true → ∀ row ∈ rows, row.id ≤ ended.id

/-- What has to hold of the runs of the service: from any state of the run on, a terminal status is
kept, the log has at most one terminal event, and nothing with a larger id. -/
def EndIsFinal (settings : Settings) (t : String) (ls : List Label) : Prop :=
  ∀ before after s s', before ++ after <+: ls → run (step settings) .init before = some s →
    run (step settings) s after = some s' →
    (∀ status, s.db.status t = some status → status.isTerminal = true →
      s'.db.status t = some status) ∧
    AtMostOneEnd (s'.db.eventsOf t) ∧ NoneAboveEnd (s'.db.eventsOf t)

/-- The commit of a row after the end of its task changes no status and has the smaller id; the
commit of the end has the larger one. -/
def FitsLog (rows : List TaskEvent) (row : TaskEvent) : Prop :=
  (∀ ended ∈ rows, ends ended = true → rowStatus row = none ∧ row.id ≤ ended.id) ∧
    (ends row = true → ∀ old ∈ rows, old.id ≤ row.id)

def CommitsFit (t : String) (s : System) (l : Label) : Prop :=
  ∀ row ∈ committing s l, row.taskId = t → FitsLog (s.db.eventsOf t) row

/-- A log and the status of its task agree on the end. -/
structure Ended (rows : List TaskEvent) (status : Option TaskStatus) : Prop where
  decided : ∀ row ∈ rows, ∀ st ∈ rowStatus row, st.isTerminal = true → status = some st
  logged : ∀ st ∈ status, st.isTerminal = true → ∃ row ∈ rows, rowStatus row = some st
  single : AtMostOneEnd rows
  last : NoneAboveEnd rows

theorem ends_iff : ends row = true ↔ ∃ st, rowStatus row = some st ∧ st.isTerminal = true := by
  simp [ends, Option.any_eq_true]

theorem filter_ends_perm (h : rows'.Perm (row :: rows)) :
    (rows'.filter ends).length = (if ends row then 1 else 0) + (rows.filter ends).length := by
  rw [(h.filter ends).length_eq, List.filter_cons]
  split
  · rw [List.length_cons]
    omega
  · omega

/-- A fitting row is added with its status. -/
theorem Ended.commit (h : Ended rows status) (hrows : rows'.Perm (row :: rows))
    (hsome : status.isSome = true) (hstatus : status' = status.map (rowStatus row).getD)
    (hfit : FitsLog rows row) : Ended rows' status' := by
  have hmem : ∀ r, r ∈ rows' ↔ r = row ∨ r ∈ rows := fun r => by rw [hrows.mem_iff, List.mem_cons]
  obtain ⟨hafter, hend⟩ := hfit
  obtain ⟨old, hold⟩ := Option.isSome_iff_exists.mp hsome
  have hkeep : ∀ ended ∈ rows, ends ended = true → status' = status := by
    intro ended hmem hended
    rw [hstatus, (hafter ended hmem hended).1, hold]
    rfl
  refine ⟨fun r hr st hst hterm => ?_, fun st hst hterm => ?_, ?_, fun ended hended he r hr => ?_⟩
  · rcases (hmem r).mp hr with rfl | hr
    · rw [hstatus, hold, hst]
      rfl
    · rw [hkeep r hr (ends_iff.mpr ⟨st, hst, hterm⟩)]
      exact h.decided r hr st hst hterm
  · rw [hstatus, hold] at hst
    cases hrow : rowStatus row with
    | some new =>
      rw [hrow] at hst
      cases hst
      exact ⟨row, (hmem row).mpr (.inl rfl), hrow⟩
    | none =>
      rw [hrow] at hst
      cases hst
      obtain ⟨r, hr, hst⟩ := h.logged old hold hterm
      exact ⟨r, (hmem r).mpr (.inr hr), hst⟩
  · have hlength := filter_ends_perm hrows
    have hsingle := h.single
    rw [AtMostOneEnd] at hsingle ⊢
    by_cases hrow : ends row = true
    · have hnone : rows.filter ends = [] := by
        rw [List.filter_eq_nil_iff]
        intro r hr hr'
        obtain ⟨st, hst, -⟩ := ends_iff.mp hrow
        rw [(hafter r hr hr').1] at hst
        cases hst
      rw [hlength, if_pos hrow, hnone]
      exact Nat.le_refl 1
    · rw [hlength, if_neg hrow]
      omega
  · rcases (hmem ended).mp hended with rfl | hended
    · rcases (hmem r).mp hr with rfl | hr
      · exact Nat.le_refl _
      · exact hend he r hr
    · rcases (hmem r).mp hr with rfl | hr
      · exact (hafter ended hended he).2
      · exact h.last ended hended he r hr

/-- A row after which the end is still final fits. -/
theorem Ended.fits (h : Ended rows status) (hrows : rows'.Perm (row :: rows))
    (hstatus : status' = status.map (rowStatus row).getD)
    (hkept : ∀ st, status = some st → st.isTerminal = true → status' = some st)
    (hsingle : AtMostOneEnd rows') (hlast : NoneAboveEnd rows') : FitsLog rows row := by
  have hmem : ∀ r, r ∈ rows' ↔ r = row ∨ r ∈ rows := fun r => by rw [hrows.mem_iff, List.mem_cons]
  have hrow : row ∈ rows' := (hmem row).mpr (.inl rfl)
  refine ⟨fun ended hended he => ⟨?_, ?_⟩, fun he old hold => ?_⟩
  · obtain ⟨st, hst, hterm⟩ := ends_iff.mp he
    have hold := h.decided ended hended st hst hterm
    have hnew := hkept st hold hterm
    rw [hstatus, hold, Option.map_some] at hnew
    cases hnone : rowStatus row with
    | none => rfl
    | some st' =>
      rw [hnone, Option.getD_some, Option.some.injEq] at hnew
      have hrow' : ends row = true := ends_iff.mpr ⟨st', hnone, by rw [hnew]; exact hterm⟩
      have hpos : 0 < (rows.filter ends).length :=
        List.length_pos_of_mem (List.mem_filter.mpr ⟨hended, he⟩)
      have hlength := filter_ends_perm hrows
      rw [AtMostOneEnd, hlength, if_pos hrow'] at hsingle
      omega
  · exact hlast ended ((hmem ended).mpr (.inr hended)) he row hrow
  · exact hlast row hrow he old ((hmem old).mpr (.inr hold))

theorem ended_nil : Ended [] none where
  decided := fun row h => by cases h
  logged := fun st h => by cases h
  single := Nat.zero_le 1
  last := fun row h => by cases h

structure Inv (t : String) (s : System) : Prop where
  tracked : Tracked s
  existing : Existing s
  ended : Ended (s.db.eventsOf t) (s.db.status t)

theorem inv_init (t : String) : Inv t .init where
  tracked := tracked_init
  existing := fun c call h => by cases h
  ended := ended_nil

/-- The log and the status of a task after a step that does not commit an event of it. -/
theorem unchanged_step (h : Tracked s) (hstep : step settings s l = some s')
    (hother : ∀ row ∈ committing s l, row.taskId ≠ t) :
    (s'.db.eventsOf t).Perm (s.db.eventsOf t) ∧ StatusMoves (s.db.status t) (s'.db.status t) := by
  cases hcommit : committing s l with
  | some row =>
    obtain ⟨hevents, -, hstatus⟩ := step_commit h hstep hcommit
    have hne := hother row hcommit
    refine ⟨by simpa [hne] using eventsOf_insertEvent hevents t, .inl ?_⟩
    rw [hstatus, if_neg hne.symm]
  | none =>
    obtain ⟨hevents, hstatus, -⟩ := step_quiet hstep hcommit
    refine ⟨?_, hstatus t⟩
    rw [Database.eventsOf, hevents]
    exact List.Perm.refl _

theorem Ended.congr (h : Ended rows status) (hrows : rows'.Perm rows)
    (hstatus : StatusMoves status status') : Ended rows' status' where
  decided := by
    intro row hrow st hst hterm
    exact hstatus.keeps_terminal (h.decided row (hrows.mem_iff.mp hrow) st hst hterm) hterm
  logged := by
    intro st hst hterm
    rcases hstatus with heq | ⟨-, heq⟩ | ⟨-, heq⟩
    · rw [heq] at hst
      obtain ⟨row, hrow, hrow'⟩ := h.logged st hst hterm
      exact ⟨row, hrows.mem_iff.mpr hrow, hrow'⟩
    · rw [heq] at hst
      cases hst
      cases hterm
    · rw [heq] at hst
      cases hst
      cases hterm
  single := by
    rw [AtMostOneEnd, (hrows.filter ends).length_eq]
    exact h.single
  last := by
    intro ended hended he row hrow
    exact h.last ended (hrows.mem_iff.mp hended) he row (hrows.mem_iff.mp hrow)

/-- The log and the status of a task after the commit of an event of it. -/
theorem committed_step (h : Inv t s) (hstep : step settings s l = some s')
    (hcommit : committing s l = some row) (ht : row.taskId = t) :
    (s'.db.eventsOf t).Perm (row :: s.db.eventsOf t) ∧
      s'.db.status t = (s.db.status t).map (rowStatus row).getD ∧ (s.db.status t).isSome = true := by
  obtain ⟨hevents, -, hstatus⟩ := step_commit h.tracked hstep hcommit
  obtain ⟨c, call, prepared, task, id, -, hcall, hphase, hrow⟩ := committing_eq_some hcommit
  refine ⟨by simpa [ht] using eventsOf_insertEvent hevents t, by rw [hstatus, if_pos ht.symm], ?_⟩
  refine h.existing c call hcall t ?_
  rw [hphase, ← ht, hrow]
  rfl

/-- Commits that fit keep the invariant. -/
theorem inv_step (h : Inv t s) (hfit : CommitsFit t s l) (hstep : step settings s l = some s') :
    Inv t s' := by
  refine ⟨tracked_step h.tracked hstep, existing_step h.tracked h.existing hstep, ?_⟩
  by_cases hother : ∀ row ∈ committing s l, row.taskId ≠ t
  · obtain ⟨hrows, hstatus⟩ := unchanged_step h.tracked hstep hother
    exact h.ended.congr hrows hstatus
  · obtain ⟨row, hcommit, ht⟩ : ∃ row, committing s l = some row ∧ row.taskId = t := by
      simpa using hother
    obtain ⟨hrows, hstatus, hsome⟩ := committed_step h hstep hcommit ht
    exact h.ended.commit hrows hsome hstatus (hfit row hcommit ht)

/-- A fitting step keeps a terminal status. -/
theorem status_step (h : Inv t s) (hfit : CommitsFit t s l) (hstep : step settings s l = some s')
    {st : TaskStatus} (hst : s.db.status t = some st) (hterm : st.isTerminal = true) :
    s'.db.status t = some st := by
  by_cases hother : ∀ row ∈ committing s l, row.taskId ≠ t
  · exact (unchanged_step h.tracked hstep hother).2.keeps_terminal hst hterm
  · obtain ⟨row, hcommit, ht⟩ : ∃ row, committing s l = some row ∧ row.taskId = t := by
      simpa using hother
    obtain ⟨-, hstatus, -⟩ := committed_step h hstep hcommit ht
    obtain ⟨ended, hended, hst'⟩ := h.ended.logged st hst hterm
    have hnone := ((hfit row hcommit ht).1 ended hended (ends_iff.mpr ⟨st, hst', hterm⟩)).1
    rw [hstatus, hst, hnone]
    rfl

theorem status_along {ls : List Label} (h : Inv t s) (hfit : Along (step settings) (CommitsFit t) s ls)
    (hrun : run (step settings) s ls = some s') {st : TaskStatus} (hst : s.db.status t = some st)
    (hterm : st.isTerminal = true) : s'.db.status t = some st := by
  induction ls generalizing s with
  | nil =>
    cases hrun
    exact hst
  | cons l ls ih =>
    obtain ⟨u, hu, hrun⟩ := Option.bind_eq_some_iff.mp hrun
    exact ih (inv_step h hfit.1 hu) (hfit.2 u hu) hrun (status_step h hfit.1 hu hst hterm)

/-- The end of a task is final in a run if and only if all its commits fit the log. -/
theorem end_is_final_iff {ls : List Label} (t : String) (hrun : run (step settings) .init ls = some s) :
    EndIsFinal settings t ls ↔ Along (step settings) (CommitsFit t) .init ls := by
  constructor
  · intro hfinal
    refine along_of_prefixes (fun s l s' h hfit hstep => inv_step h hfit hstep) (inv_init t) hrun ?_
    intro before l after u v hls hbefore hstep hinv row hcommit ht
    obtain ⟨hkept, hsingle, hlast⟩ := hfinal before [l] u v ⟨after, by simp [hls]⟩ hbefore
      (by simp [hstep])
    obtain ⟨hrows, hstatus, -⟩ := committed_step hinv hstep hcommit ht
    exact hinv.ended.fits hrows hstatus hkept hsingle hlast
  · intro hfit before after u v hls hbefore hafter
    obtain ⟨rest, rfl⟩ := hls
    obtain ⟨hfit₁, hfit₂⟩ := along_append.mp (along_append.mp hfit).1
    have hinv : Inv t u := invariant_along (fun s l s' h hfit hstep => inv_step h hfit hstep)
      (inv_init t) hfit₁ hbefore
    have hinv' : Inv t v := invariant_along (fun s l s' h hfit hstep => inv_step h hfit hstep)
      hinv (hfit₂ u hbefore) hafter
    refine ⟨fun st hst hterm => ?_, hinv'.ended.single, hinv'.ended.last⟩
    exact status_along hinv (hfit₂ u hbefore) hafter hst hterm

instance (rows : List TaskEvent) (row : TaskEvent) : Decidable (FitsLog rows row) :=
  inferInstanceAs (Decidable (_ ∧ _))

instance (t : String) (s : System) (l : Label) : Decidable (CommitsFit t s l) :=
  inferInstanceAs (Decidable (∀ row ∈ committing s l, row.taskId = t → FitsLog (s.db.eventsOf t) row))

/-- A running task, whose first event is about to be persisted by the relay. -/
def relayStarts : List Label :=
  [.single (.enqueue ⟨"t", "u", none, "hello", .inr ("s", "hello")⟩),
    .single (.dispatch "t" "r" "url" "2026-01-01"),
    .call 0 ⟨.accepted, "t", "s", "r", "2026-01-01"⟩ none (some "1") "2026-01-01" "r0"]

def userCancels : List Label :=
  .call 1 ⟨.cancelled "task cancelled by user", "t", "s", "r", "2026-01-01"⟩ none none "2026-01-01" "r1" ::
    List.replicate 10 (.advance 1)

/-- The relay has read the status before the user cancels, and commits after it. -/
def overtaken : List Label :=
  relayStarts ++ List.replicate 3 (.advance 0) ++ userCancels ++ List.replicate 6 (.advance 0)

theorem end_not_final_of_overlap : ¬ EndIsFinal ⟨1, fun _ => true⟩ "t" overtaken := by
  intro hfinal
  have hbefore : (run (step ⟨1, fun _ => true⟩) .init
      (relayStarts ++ List.replicate 3 (.advance 0) ++ userCancels)).any (fun s =>
        s.db.status "t" = some .cancelled &&
        (run (step ⟨1, fun _ => true⟩) s (List.replicate 6 (.advance 0))).any fun s' =>
          s'.db.status "t" = some .running) = true := by decide
  obtain ⟨s, hrun, hs⟩ := (Option.any_eq_true _ _).mp hbefore
  obtain ⟨hcancelled, hafter⟩ := Bool.and_eq_true_iff.mp hs
  obtain ⟨s', hrun', hrunning⟩ := (Option.any_eq_true _ _).mp hafter
  have hkept := (hfinal _ _ s s' (List.prefix_refl overtaken) hrun hrun').1 .cancelled
    (of_decide_eq_true hcancelled) rfl
  rw [of_decide_eq_true hrunning] at hkept
  cases hkept

/-- The relay commits first, and the cancellation after it. -/
theorem end_final_in_turn : EndIsFinal ⟨1, fun _ => true⟩ "t"
    (relayStarts ++ List.replicate 9 (.advance 0) ++ userCancels) := by
  have hrun : (run (step ⟨1, fun _ => true⟩) .init
      (relayStarts ++ List.replicate 9 (.advance 0) ++ userCancels)).isSome = true := by decide
  obtain ⟨s, hrun⟩ := Option.isSome_iff_exists.mp hrun
  exact (end_is_final_iff "t" hrun).mpr (by decide)

end TerminalStatus
