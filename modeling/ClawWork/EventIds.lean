import ClawWork.LogCommits

/-!
# The ids of the log

Ids are drawn once: what a call holds is below the sequence, differs from what
any other call holds, and is committed and published at most once. This holds of
every interleaving.
-/

namespace EventIds

open SharedTypes TaskStore TasksService StatusFrames PersistCalls LogCommits

variable {settings : Settings} {s s' : System} {l : Label} {c d : Nat} {call : Call}

/-- The id that a call has drawn and not yet published. -/
def heldId : Phase → Option Nat
  | .create _ _ id | .project _ _ id _ | .publish _ id => some id
  | _ => none

def preparedOf : Phase → Option Prepared
  | .findTask prepared | .findDuplicate prepared _ | .drawId prepared _ | .create prepared _ _
  | .project prepared _ _ _ | .publish prepared _ => some prepared
  | .precheck | .prepare | .done => none

/-- A row of the log under the id and the task of an event. -/
def Logged (s : System) (id : Nat) (taskId : String) : Prop :=
  ∃ row ∈ s.db.taskEvents, row.id = id ∧ row.taskId = taskId

/-- How far the id of a call has come. -/
def Held (s : System) : Phase → Prop
  | .create _ _ id | .project _ _ id _ => ∀ row ∈ s.db.taskEvents, row.id ≠ id
  | .publish prepared id =>
    Logged s id prepared.stored.taskId ∧ ∀ event ∈ s.published, event.id ≠ id
  | _ => True

structure Drawn (s : System) : Prop where
  positive : 0 < s.db.nextEventId
  below : ∀ row ∈ s.db.taskEvents, 0 < row.id ∧ row.id < s.db.nextEventId
  heldBelow : ∀ c call id, s.calls c = some call → heldId call.phase = some id →
    0 < id ∧ id < s.db.nextEventId
  held : ∀ c call, s.calls c = some call → Held s call.phase
  distinct : ∀ c d call call' id, s.calls c = some call → s.calls d = some call' →
    heldId call.phase = some id → heldId call'.phase = some id → c = d
  sameTask : ∀ c call prepared, s.calls c = some call → preparedOf call.phase = some prepared →
    prepared.published.taskId = prepared.stored.taskId
  published : ∀ event ∈ s.published, Logged s event.id event.event.taskId

theorem drawn_init : Drawn .init where
  positive := Nat.one_pos
  below := fun row h => by cases h
  heldBelow := fun c call id h => by cases h
  held := fun c call h => by cases h
  distinct := fun c d call call' id h => by cases h
  sameTask := fun c call prepared h => by cases h
  published := fun event h => by cases h

/-- One call moves, and everything it leaves behind is in order. -/
theorem Drawn.move (h : Drawn s) {phase : Phase}
    (hcalls : s'.calls = Function.update s.calls c (some { call with phase }))
    (hnext : s.db.nextEventId ≤ s'.db.nextEventId)
    (hbelow : ∀ row ∈ s'.db.taskEvents, 0 < row.id ∧ row.id < s'.db.nextEventId)
    (hown : ∀ id, heldId phase = some id → 0 < id ∧ id < s'.db.nextEventId ∧
      ∀ d call', d ≠ c → s.calls d = some call' → heldId call'.phase ≠ some id)
    (hheld : Held s' phase)
    (hothers : ∀ d call', d ≠ c → s.calls d = some call' → Held s' call'.phase)
    (hsame : ∀ prepared, preparedOf phase = some prepared →
      prepared.published.taskId = prepared.stored.taskId)
    (hpublished : ∀ event ∈ s'.published, Logged s' event.id event.event.taskId) : Drawn s' := by
  have hcases : ∀ d call', s'.calls d = some call' →
      d = c ∧ call'.phase = phase ∨ d ≠ c ∧ s.calls d = some call' := by
    intro d call' hd
    rw [hcalls, Function.update_apply] at hd
    split at hd
    · rename_i heq
      cases hd
      exact .inl ⟨heq, rfl⟩
    · rename_i hne
      exact .inr ⟨hne, hd⟩
  refine ⟨Nat.lt_of_lt_of_le h.positive hnext, hbelow, fun d call' id hd hid => ?_, fun d call' hd => ?_,
    fun d e call₁ call₂ id hd he hid₁ hid₂ => ?_, fun d call' prepared hd hp => ?_, hpublished⟩
  · rcases hcases d call' hd with ⟨-, hphase⟩ | ⟨-, hd⟩
    · rw [hphase] at hid
      exact ⟨(hown id hid).1, (hown id hid).2.1⟩
    · obtain ⟨hpos, hlt⟩ := h.heldBelow d call' id hd hid
      exact ⟨hpos, Nat.lt_of_lt_of_le hlt hnext⟩
  · rcases hcases d call' hd with ⟨-, hphase⟩ | ⟨hne, hd⟩
    · rw [hphase]
      exact hheld
    · exact hothers d call' hne hd
  · rcases hcases d call₁ hd with ⟨rfl, hphase₁⟩ | ⟨hne₁, hd⟩
    · rcases hcases e call₂ he with ⟨rfl, -⟩ | ⟨hne₂, he⟩
      · rfl
      · rw [hphase₁] at hid₁
        exact absurd hid₂ ((hown id hid₁).2.2 e call₂ hne₂ he)
    · rcases hcases e call₂ he with ⟨rfl, hphase₂⟩ | ⟨-, he⟩
      · rw [hphase₂] at hid₂
        exact absurd hid₁ ((hown id hid₂).2.2 d call₁ hne₁ hd)
      · exact h.distinct d e call₁ call₂ id hd he hid₁ hid₂
  · rcases hcases d call' hd with ⟨-, hphase⟩ | ⟨-, hd⟩
    · rw [hphase] at hp
      exact hsame prepared hp
    · exact h.sameTask d call' prepared hd hp

/-- What a call holds survives a step that neither commits nor publishes its id. -/
theorem Held.mono {phase : Phase} (h : Held s phase)
    (hrows : ∀ row ∈ s'.db.taskEvents, row ∈ s.db.taskEvents ∨ heldId phase ≠ some row.id)
    (hold : ∀ row ∈ s.db.taskEvents, row ∈ s'.db.taskEvents)
    (hpub : ∀ event ∈ s'.published, event ∈ s.published ∨ heldId phase ≠ some event.id) :
    Held s' phase := by
  have hfresh : ∀ id, heldId phase = some id → (∀ row ∈ s.db.taskEvents, row.id ≠ id) →
      ∀ row ∈ s'.db.taskEvents, row.id ≠ id := by
    intro id hid hne row hrow heq
    rcases hrows row hrow with hrow | hrow
    · exact hne row hrow heq
    · rw [heq] at hrow
      exact hrow hid
  cases phase with
  | create prepared task id => exact hfresh id rfl h
  | project prepared task id todo => exact hfresh id rfl h
  | publish prepared id =>
    obtain ⟨⟨row, hrow, hid, htask⟩, hne⟩ := h
    refine ⟨⟨row, hold row hrow, hid, htask⟩, fun event hevent heq => ?_⟩
    rcases hpub event hevent with hevent | hevent
    · exact hne event hevent heq
    · rw [heq] at hevent
      exact hevent rfl
  | precheck => trivial
  | prepare => trivial
  | findTask => trivial
  | findDuplicate => trivial
  | drawId => trivial
  | done => trivial

theorem sameTask_of_moves {old new : Phase} (h : PhaseMoves s old new)
    (hold : ∀ prepared, preparedOf old = some prepared →
      prepared.published.taskId = prepared.stored.taskId) {prepared : Prepared}
    (hp : preparedOf new = some prepared) : prepared.published.taskId = prepared.stored.taskId := by
  cases h with
  | skip | check | fail | leave | publish => cases hp
  | prepare hprepared =>
    cases hp
    exact (prepareTaskEvent_taskId hprepared).2.trans (prepareTaskEvent_taskId hprepared).1.symm
  | find | fresh | draw | create | execute | commit => exact hold prepared hp

theorem heldId_of_moves {old new : Phase} (h : PhaseMoves s old new) {id : Nat}
    (hid : heldId new = some id) : heldId old = some id ∨ id = s.db.nextEventId ∧
      ∃ prepared task, old = .drawId prepared task := by
  cases h with
  | skip | check | fail | prepare | leave | find | fresh | publish => cases hid
  | draw =>
    cases hid
    exact .inr ⟨rfl, _, _, rfl⟩
  | create | execute | commit => exact .inl hid

/-- What a call holds after its own step, unless the step commits or publishes. -/
theorem held_of_moves {old new : Phase} (h : PhaseMoves s old new) (hold : Held s old)
    (hbelow : ∀ row ∈ s.db.taskEvents, row.id < s.db.nextEventId)
    (hcommit : ∀ prepared task id, old ≠ .project prepared task id [])
    (hrows : s'.db.taskEvents = s.db.taskEvents) : Held s' new := by
  cases h with
  | skip | check | fail | prepare | leave | find | fresh | publish => trivial
  | draw =>
    intro row hrow
    rw [hrows] at hrow
    have hlt := hbelow row hrow
    omega
  | create | execute =>
    intro row hrow
    rw [hrows] at hrow
    exact hold row hrow
  | commit => exact absurd rfl (hcommit _ _ _)

theorem Logged.mono {id : Nat} {taskId : String} (h : Logged s id taskId)
    (hold : ∀ row ∈ s.db.taskEvents, row ∈ s'.db.taskEvents) : Logged s' id taskId := by
  obtain ⟨row, hrow, hid, htask⟩ := h
  exact ⟨row, hold row hrow, hid, htask⟩

theorem callCommits_project {prepared : Prepared} {task : Task} {id : Nat}
    (h : call.phase = .project prepared task id []) :
    callCommits call = some (eventRow prepared.stored call.sourceEventId id) := by
  simp [callCommits, h]

theorem drawn_advance (ht : Tracked s) (h : Drawn s) (hcall : s.calls c = some call)
    (hstep : s.advance settings c call = some s') : Drawn s' := by
  obtain ⟨phase, hcalls, hmoves⟩ := advance_moves ht hcall hstep
  have hnext := advance_nextId ht hcall hstep
  have hle : s.db.nextEventId ≤ s'.db.nextEventId := by
    rw [hnext]
    split <;> omega
  have hown : ∀ id, heldId phase = some id → 0 < id ∧ id < s'.db.nextEventId ∧
      ∀ d call', d ≠ c → s.calls d = some call' → heldId call'.phase ≠ some id := by
    intro id hid
    rcases heldId_of_moves hmoves hid with hid | ⟨rfl, prepared, task, hphase⟩
    · obtain ⟨hpos, hlt⟩ := h.heldBelow c call id hcall hid
      refine ⟨hpos, Nat.lt_of_lt_of_le hlt hle, fun d call' hne hd hid' => ?_⟩
      exact hne (h.distinct d c call' call id hd hcall hid' hid)
    · rw [hphase] at hnext
      refine ⟨h.positive, by rw [hnext]; exact Nat.lt_succ_self _, fun d call' hne hd hid' => ?_⟩
      exact Nat.lt_irrefl _ (h.heldBelow d call' _ hd hid').2
  have hsame : ∀ prepared, preparedOf phase = some prepared →
      prepared.published.taskId = prepared.stored.taskId := fun prepared hp =>
    sameTask_of_moves hmoves (fun p hp => h.sameTask c call p hcall hp) hp
  have hbelow' : ∀ row ∈ s.db.taskEvents, 0 < row.id ∧ row.id < s'.db.nextEventId := fun row hrow =>
    ⟨(h.below row hrow).1, Nat.lt_of_lt_of_le (h.below row hrow).2 hle⟩
  cases hcommit : callCommits call with
  | some row =>
    obtain ⟨hevents, hpub, -⟩ := advance_commit ht hcall hstep hcommit
    have hmem : ∀ r, r ∈ s'.db.taskEvents ↔ r = row ∨ r ∈ s.db.taskEvents := fun r => by
      rw [hevents, mem_insertEvent]
    obtain ⟨prepared, task, id, hphase, rfl⟩ := callCommits_eq_some hcommit
    have hid : heldId call.phase = some id := by rw [hphase]; rfl
    have hfresh := h.held c call hcall
    rw [hphase] at hmoves hfresh
    refine h.move hcalls hle (fun r hr => ?_) hown ?_ (fun d call' hne hd => ?_) hsame fun event hevent => ?_
    · rcases (hmem r).mp hr with rfl | hr
      · obtain ⟨hpos, hlt⟩ := h.heldBelow c call id hcall hid
        exact ⟨hpos, Nat.lt_of_lt_of_le hlt hle⟩
      · exact hbelow' r hr
    · cases hmoves with
      | commit =>
        refine ⟨⟨_, (hmem _).mpr (.inl rfl), rfl, rfl⟩, fun event hevent heq => ?_⟩
        rw [hpub] at hevent
        obtain ⟨r, hr, hrid, -⟩ := h.published event hevent
        exact hfresh r hr (hrid.trans heq)
      | leave h hleft => exact absurd rfl (hleft _ _ _)
    · refine (h.held d call' hd).mono (fun r hr => ?_) (fun r hr => (hmem r).mpr (.inr hr))
        fun event hevent => .inl (hpub ▸ hevent)
      rcases (hmem r).mp hr with rfl | hr
      · exact .inr fun hid' => hne (h.distinct d c call' call id hd hcall hid' hid)
      · exact .inl hr
    · rw [hpub] at hevent
      exact (h.published event hevent).mono fun r hr => (hmem r).mpr (.inr hr)
  | none =>
    have hproject : ∀ prepared task id, call.phase ≠ .project prepared task id [] := by
      intro prepared task id hphase
      rw [callCommits_project hphase] at hcommit
      cases hcommit
    cases hpublish : callPublishes call with
    | some event =>
      obtain ⟨hserver, hpub⟩ := advance_publish hstep hpublish
      have hrows : s'.db.taskEvents = s.db.taskEvents := by rw [System.db, hserver]; rfl
      obtain ⟨prepared, id, hphase, rfl⟩ := callPublishes_eq_some hpublish
      have hid : heldId call.phase = some id := by rw [hphase]; rfl
      have hheld := h.held c call hcall
      rw [hphase] at hheld
      refine h.move hcalls hle (by rw [hrows]; exact hbelow') hown
        (held_of_moves hmoves (h.held c call hcall) (fun r hr => (h.below r hr).2) hproject hrows)
        (fun d call' hne hd => ?_) hsame fun event hevent => ?_
      · refine (h.held d call' hd).mono (fun r hr => .inl (hrows ▸ hr)) (fun r hr => hrows ▸ hr)
          fun event hevent => ?_
        rw [hpub, List.mem_append, List.mem_singleton] at hevent
        refine hevent.imp_right ?_
        rintro rfl hid'
        exact hne (h.distinct d c call' call id hd hcall hid' hid)
      · rw [hpub, List.mem_append, List.mem_singleton] at hevent
        rcases hevent with hevent | rfl
        · exact (h.published event hevent).mono fun r hr => hrows ▸ hr
        · have hsame' := h.sameTask c call prepared hcall (by rw [hphase]; rfl)
          rw [hsame']
          exact hheld.1.mono fun r hr => hrows ▸ hr
    | none =>
      obtain ⟨hrows, -, hpub⟩ := advance_quiet hstep hcommit hpublish
      refine h.move hcalls hle (by rw [hrows]; exact hbelow') hown
        (held_of_moves hmoves (h.held c call hcall) (fun r hr => (h.below r hr).2) hproject hrows)
        (fun d call' hne hd => ?_) hsame fun event hevent => ?_
      · exact (h.held d call' hd).mono (fun r hr => .inl (hrows ▸ hr)) (fun r hr => hrows ▸ hr)
          fun event hevent => .inl (hpub ▸ hevent)
      · rw [hpub] at hevent
        exact (h.published event hevent).mono fun r hr => hrows ▸ hr

/-- A call appears or leaves, which changes nothing else. -/
theorem Drawn.idle (h : Drawn s) (c : Nat) (call' : Call) (phase : Phase)
    (hcalls : s'.calls = Function.update s.calls c (some { call' with phase }))
    (hid : heldId phase = none) (hprepared : preparedOf phase = none) (hheld : Held s' phase)
    (hdb : s'.db = s.db) (hpub : s'.published = s.published) : Drawn s' := by
  refine h.move hcalls (by rw [hdb]) (by rw [hdb]; exact h.below) (fun id hid' => ?_) hheld
    (fun d call' hne hd => ?_) (fun prepared hp => ?_) fun event hevent => ?_
  · rw [hid] at hid'
    cases hid'
  · exact (h.held d call' hd).mono (fun r hr => .inl (hdb ▸ hr)) (fun r hr => hdb ▸ hr)
      fun event hevent => .inl (hpub ▸ hevent)
  · rw [hprepared] at hp
    cases hp
  · rw [hpub] at hevent
    exact (h.published event hevent).mono fun r hr => hdb ▸ hr

theorem drawn_step (ht : Tracked s) (h : Drawn s) (hstep : step settings s l = some s') : Drawn s' := by
  have hnext := step_nextId ht hstep
  cases l with
  | call c event archived source now resultId =>
    obtain ⟨-, rfl⟩ := step_call_eq_some hstep
    exact h.idle c ⟨event, archived, source, now, resultId, .precheck⟩ .precheck rfl rfl rfl trivial rfl rfl
  | advance c =>
    obtain ⟨call, hcall, hstep⟩ := Option.bind_eq_some_iff.mp hstep
    exact drawn_advance ht h hcall hstep
  | abort c =>
    obtain ⟨call, hcall, -, rfl⟩ := step_abort_eq_some hstep
    exact h.idle c call .done rfl rfl rfl trivial rfl rfl
  | single tx =>
    obtain ⟨-, db, hdb, rfl⟩ := step_single_eq_some hstep
    have hrows := (unlogged_single hdb).events
    refine ⟨Nat.lt_of_lt_of_le h.positive hnext, fun row hrow => ?_, fun c call id hc hid => ?_,
      fun c call hc => ?_, h.distinct, h.sameTask, fun event hevent => ?_⟩
    · obtain ⟨hpos, hlt⟩ := h.below row (hrows ▸ hrow)
      exact ⟨hpos, Nat.lt_of_lt_of_le hlt hnext⟩
    · obtain ⟨hpos, hlt⟩ := h.heldBelow c call id hc hid
      exact ⟨hpos, Nat.lt_of_lt_of_le hlt hnext⟩
    · exact (h.held c call hc).mono (fun r hr => .inl (hrows ▸ hr)) (fun r hr => hrows.symm ▸ hr)
        fun event hevent => .inl hevent
    · exact (h.published event hevent).mono fun r hr => hrows.symm ▸ hr

end EventIds
