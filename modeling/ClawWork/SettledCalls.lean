import ClawWork.Acknowledgements

/-!
# Calls that return are acknowledged

A call of `execute` returns only after its handler was told that the execution is
accepted, and a step of the client tells a handler of an acceptance or of new text only
where its label acknowledges the execution or brings the text.
-/

namespace Acknowledgements

open JavaScript SharedTypes GatewayProtocol GatewayClient PersistentGatewayClient
open PersistentGatewayClient.Registry Cancellation

variable {opts : Options}

/-- The handler of call `x` was told that the execution of the task is accepted. -/
def Told (c : Client) (x : Nat) (t : String) : Prop :=
  ∃ e ∈ c.registry.log, e.call = x ∧ e.taskId = t ∧ accepts e.effect = true

/-- The call has returned, or its one-shot client has resolved its promise. -/
def Done (call : Call) : Prop := call.phase = .returned ∨ call.oneShotPromise.isFulfilled = true

/-- No promise is fulfilled, and no call returns, before its handler was told. -/
structure Settled (c : Client) : Prop where
  promised : ∀ x, c.registry.accepted x = true → Told c x (c.registry.taskId x)
  done : ∀ x call, c.calls x = some call → Done call → Told c x call.input.taskId

/-- A step that appends `es` to the log, keeps the calls and fulfils nothing without telling it. -/
structure Moves (c c' : Client) (es : List Entry) : Prop where
  log : c'.registry.log = c.registry.log ++ es
  promised : ∀ x, c'.registry.accepted x = true → Told c' x (c'.registry.taskId x) ∨
    c.registry.accepted x = true ∧ c'.registry.taskId x = c.registry.taskId x
  kept : ∀ x call, c.calls x = some call → ∃ call', c'.calls x = some call' ∧ call'.input = call.input
  done : ∀ x call', c'.calls x = some call' → Done call' → Told c' x call'.input.taskId ∨
    ∃ call, c.calls x = some call ∧ call.input = call'.input ∧ Done call

/-- A step after which no handler was told of an acceptance or of new text. -/
def Silent (c c' : Client) : Prop := ∃ es, Moves c c' es ∧ ∀ e ∈ es, Muted e

section Client

variable {c c' c'' : Client} {x : Nat} {call call' : Call} {es fs : List Entry}

theorem told_append {t : String} (h : Told c x t) (hlog : c'.registry.log = c.registry.log ++ es) :
    Told c' x t := by
  obtain ⟨e, he, htold⟩ := h
  exact ⟨e, by rw [hlog]; exact List.mem_append_left es he, htold⟩

theorem Moves.settled (h : Settled c) (hmoves : Moves c c' es) : Settled c' where
  promised y hy := by
    rcases hmoves.promised y hy with htold | ⟨hold, htask⟩
    · exact htold
    · rw [htask]
      exact told_append (h.promised y hold) hmoves.log
  done y call' hcall' hdone := by
    rcases hmoves.done y call' hcall' hdone with htold | ⟨call, hcall, hinput, hold⟩
    · exact htold
    · rw [← hinput]
      exact told_append (h.done y call hcall hold) hmoves.log

theorem Moves.trans (h : Moves c c' es) (h' : Moves c' c'' fs) : Moves c c'' (es ++ fs) where
  log := by rw [h'.log, h.log, List.append_assoc]
  promised y hy := by
    rcases h'.promised y hy with htold | ⟨hy', htask'⟩
    · exact .inl htold
    · rw [htask']
      exact (h.promised y hy').imp (fun htold => told_append htold h'.log) id
  kept y call hcall := by
    obtain ⟨call', hcall', hinput⟩ := h.kept y call hcall
    obtain ⟨call'', hcall'', hinput'⟩ := h'.kept y call' hcall'
    exact ⟨call'', hcall'', hinput'.trans hinput⟩
  done y call'' hcall'' hdone := by
    rcases h'.done y call'' hcall'' hdone with htold | ⟨call', hcall', hinput', hdone'⟩
    · exact .inl htold
    · rw [← hinput']
      exact (h.done y call' hcall' hdone').imp (fun htold => told_append htold h'.log) id

theorem Silent.trans (h : Silent c c') (h' : Silent c' c'') : Silent c c'' := by
  obtain ⟨es, hmoves, hmuted⟩ := h
  obtain ⟨fs, hmoves', hmuted'⟩ := h'
  refine ⟨es ++ fs, hmoves.trans hmoves', fun e he => ?_⟩
  rcases List.mem_append.mp he with he | he
  · exact hmuted e he
  · exact hmuted' e he

/-- A step of the registry that leaves the calls alone. -/
theorem silent_of_mute (hmute : Mute c.registry c'.registry) (hcalls : c'.calls = c.calls) : Silent c c' := by
  obtain ⟨es, hes, hmuted⟩ := hmute.log
  refine ⟨es, ⟨hes, fun y hy => .inr (hmute.promised y hy), fun y call hcall => ?_,
    fun y call' hcall' hdone => ?_⟩, hmuted⟩
  · exact ⟨call, by rw [hcalls]; exact hcall, rfl⟩
  · rw [hcalls] at hcall'
    exact .inr ⟨call', hcall', rfl, hdone⟩

theorem silent_registry {r : Registry} (hmute : Mute c.registry r) : Silent c { c with registry := r } :=
  silent_of_mute hmute rfl

theorem silent_connection (c : Client) (k : Connection) : Silent c { c with connection := k } :=
  silent_of_mute (.refl _) rfl

theorem Silent.refl (c : Client) : Silent c c := silent_of_mute (.refl _) rfl

/-- A call moves on, and returns only if its handler was told. -/
theorem silent_of_set (call' : Call) (hx : c.calls x = some call) (hinput : call'.input = call.input)
    (hdone : Done call' → Told c x call.input.taskId ∨ Done call) (hmute : Mute c.registry c'.registry)
    (hcalls : c'.calls = Function.update c.calls x (some call')) : Silent c c' := by
  obtain ⟨es, hes, hmuted⟩ := hmute.log
  refine ⟨es, ⟨hes, fun y hy => .inr (hmute.promised y hy), fun y other hother => ?_,
    fun y other hother hother' => ?_⟩,
    hmuted⟩
  · by_cases hyx : y = x
    · subst hyx
      rw [hx] at hother
      cases hother
      exact ⟨call', by rw [hcalls, Function.update_self], hinput⟩
    · exact ⟨other, by rw [hcalls, Function.update_of_ne hyx]; exact hother, rfl⟩
  · rw [hcalls] at hother
    by_cases hyx : y = x
    · subst hyx
      rw [Function.update_self] at hother
      cases hother
      rw [hinput]
      exact (hdone hother').imp (fun htold => told_append htold hes) fun hold => ⟨call, hx, rfl, hold⟩
    · rw [Function.update_of_ne hyx] at hother
      exact .inr ⟨other, hother, rfl, hother'⟩

theorem done_of_phase {phase : Phase} (hphase : phase ≠ .returned) (h : Done { call with phase }) : Done call :=
  .inr (h.resolve_left hphase)

theorem silent_setPhase (hx : c.calls x = some call) {phase : Phase} (hphase : phase ≠ .returned) :
    Silent c (c.setPhase x call phase) :=
  silent_of_set { call with phase } hx rfl (fun h => .inr (done_of_phase hphase h)) (.refl _) rfl

theorem silent_catchError (hx : c.calls x = some call) (e : GatewayError) : Silent c (c.catchError x call e) := by
  refine silent_setPhase hx ?_
  split <;> exact Phase.noConfusion

theorem silent_failFallback (hx : c.calls x = some call) (e : GatewayError) :
    Silent c (c.failFallback x call e) :=
  silent_of_set { call with phase := .threw e } hx rfl
    (fun h => .inr (done_of_phase Phase.noConfusion h)) (.refl _) rfl

theorem silent_insertActive (opts : Options) (hx : c.calls x = some call) :
    Silent c (c.insertActive opts x call) := by
  unfold Client.insertActive
  split
  · exact silent_of_set { call with phase := .awaiting } hx rfl
      (fun h => .inr (done_of_phase Phase.noConfusion h)) (mute_insert opts _ x _ _) rfl
  · exact silent_catchError hx _

theorem silent_execute (hinv : Inv (fun _ => False) c) (input : ExecuteGatewayTaskInput) :
    Silent c (c.execute input) := by
  refine ⟨[], ⟨(List.append_nil _).symm, fun y hy => .inr ⟨hy, rfl⟩, fun y call hcall => ?_,
    fun y call hcall hdone => ?_⟩, fun _ he => by cases he⟩
  · have hne : y ≠ c.nextCall := by
      rintro rfl
      rw [hinv.numbered _ (Nat.le_refl _)] at hcall
      cases hcall
    exact ⟨call, (Function.update_of_ne hne _ _).trans hcall, rfl⟩
  · by_cases hy : y = c.nextCall
    · subst hy
      cases (Function.update_self ..).symm.trans hcall
      rcases hdone with hdone | hdone <;> cases hdone
    · exact .inr ⟨call, (Function.update_of_ne hy _ _).symm.trans hcall, rfl, hdone⟩

theorem silent_onPrepared (hx : c.calls x = some call) {result : Except GatewayError PreparedGatewayInput}
    (hstep : c.onPrepared opts x call result = some c') : Silent c c' := by
  cases Client.proceeds_of_onPrepared hstep with
  | connects prepared hphase =>
    exact silent_of_set { call with prepared, phase := .connecting c.connection.ensureConnected.2 } hx rfl
      (fun h => .inr (.inr (h.resolve_left Phase.noConfusion))) (.refl _) rfl
  | unprepared error hphase => exact silent_catchError hx _
  | startsOneShot prepared hphase =>
    exact silent_of_set { call with
        prepared, oneShot := some (OneShot.start opts call.input prepared), phase := .fallbackAwaiting } hx rfl
      (fun h => .inr (.inr (h.resolve_left Phase.noConfusion))) (.refl _) rfl
  | oneShotUnprepared error hphase => exact silent_failFallback hx _

/-- A call returns when the promise that it awaits is fulfilled. -/
theorem silent_resume (hinv : Inv (fun _ => False) c) (h : Settled c) (hx : c.calls x = some call)
    (hstep : c.resume opts x call = some c') : Silent c c' := by
  cases Client.resumes_of_resume hstep with
  | connected promise hphase hfulfilled => exact silent_insertActive opts hx
  | unconnected p error hphase hrejected => exact silent_catchError hx _
  | returns accepted hphase hfulfilled =>
    have hpromised : c.registry.accepted x = true := by rw [Registry.accepted, hfulfilled]; rfl
    have htold := h.promised x hpromised
    rw [hinv.owned x call hx hphase] at htold
    exact silent_of_set { call with phase := .returned } hx rfl (fun _ => .inl htold) (.refl _) rfl
  | fails error hphase hrejected => exact silent_catchError hx _
  | oneShotReturns accepted hphase hfulfilled =>
    have hdone : Done call := .inr (by rw [hfulfilled]; rfl)
    exact silent_of_set { call with phase := .returned } hx rfl (fun _ => .inr hdone) (.refl _) rfl
  | oneShotFails error hphase hrejected => exact silent_failFallback hx _

/-! ### One-shot clients -/

/-- The effects that go into the log. -/
def isWritten : Effect → Bool
  | .resolve _ | .reject _ => false
  | _ => true

theorem log_effects (x : Nat) (t : String) (es : List Effect) (c : Client) :
    (es.foldl (Client.onEffect x t) c).registry.log =
      c.registry.log ++ (es.filter isWritten).map (Entry.mk x t) := by
  induction es generalizing c with
  | nil => simp
  | cons e es ih =>
    have hone : (Client.onEffect x t c e).registry.log =
        c.registry.log ++ if isWritten e then [⟨x, t, e⟩] else [] := by
      cases e with
      | resolve accepted => simp [Client.onEffect, AdapterShutdown.registry_settleOneShot, isWritten]
      | reject error => simp [Client.onEffect, AdapterShutdown.registry_settleOneShot, isWritten]
      | _ => rfl
    rw [List.foldl_cons, ih, hone, List.append_assoc, List.filter_cons]
    split <;> rfl

/-- The promise of the call is fulfilled. -/
def Fulfilled (c : Client) (x : Nat) : Prop :=
  ∃ call, c.calls x = some call ∧ call.oneShotPromise.isFulfilled = true

theorem fulfilled_settleOneShot {settle : Promise GatewayError Accepted → Promise GatewayError Accepted}
    (hsettle : ∀ p, (settle p).isFulfilled = true → p.isFulfilled = true)
    (h : Fulfilled (c.settleOneShot x settle) x) : Fulfilled c x := by
  obtain ⟨call', hcall', hfulfilled⟩ := h
  unfold Client.settleOneShot at hcall'
  split at hcall'
  · rename_i call hcall
    cases (Function.update_self ..).symm.trans hcall'
    exact ⟨call, hcall, hsettle _ hfulfilled⟩
  · exact ⟨call', hcall', hfulfilled⟩

/-- Only a resolution fulfils the promise of the call. -/
theorem fulfilled_effects {t : String} (es : List Effect) (h : Fulfilled (es.foldl (Client.onEffect x t) c) x) :
    (∃ accepted, Effect.resolve accepted ∈ es) ∨ Fulfilled c x := by
  induction es generalizing c with
  | nil => exact .inr h
  | cons e es ih =>
    rcases ih h with ⟨accepted, hmem⟩ | h
    · exact .inl ⟨accepted, List.mem_cons_of_mem e hmem⟩
    · cases e with
      | resolve accepted => exact .inl ⟨accepted, List.mem_cons_self⟩
      | reject error =>
        refine .inr (fulfilled_settleOneShot (fun p hp => ?_) h)
        rwa [Promise.isFulfilled_reject] at hp
      | _ => exact .inr h

theorem isSome_settleOneShot (settle : Promise GatewayError Accepted → Promise GatewayError Accepted)
    (h : (c.calls x).isSome = true) : ((c.settleOneShot x settle).calls x).isSome = true := by
  unfold Client.settleOneShot
  split
  · simp [Client.setCall]
  · exact h

/-- The call stays there while the effects of its one-shot client are carried out. -/
theorem isSome_effects (t : String) (es : List Effect) (h : (c.calls x).isSome = true) :
    ((es.foldl (Client.onEffect x t) c).calls x).isSome = true := by
  induction es generalizing c with
  | nil => exact h
  | cons e es ih =>
    refine ih ?_
    cases e with
    | resolve accepted => exact isSome_settleOneShot _ h
    | reject error => exact isSome_settleOneShot _ h
    | _ => exact h

theorem isWritten_of_accepts {e : Effect} (h : accepts e = true) : isWritten e = true := by
  cases e with
  | event event => rfl
  | _ => cases h

theorem isWritten_of_tells {e : Effect} (h : tells e = true) : isWritten e = true := by
  cases e with
  | event event => rfl
  | _ => cases h

/-- One callback of the one-shot client of a call. -/
theorem moves_stepOneShot {stimulus : Stimulus} (h : c.stepOneShot opts x stimulus = some c') :
    ∃ call o es, c.calls x = some call ∧ call.oneShot = some o ∧ Says opts o stimulus es ∧
      (∀ e ∈ (es.filter isWritten).map (Entry.mk x call.input.taskId),
        e.effect ∈ es ∧ e.taskId = call.input.taskId) ∧
      Moves c c' ((es.filter isWritten).map (Entry.mk x call.input.taskId)) := by
  obtain ⟨call, o, o', es, hcall, hone, hstep, rfl⟩ := AdapterShutdown.stepOneShot_cases h
  have hsaid := says_step hstep
  have hset : CallFrame (fun _ => o') c (c.setCall x { call with oneShot := some o' }) x :=
    callFrame_setCall hcall rfl rfl (by rw [hone]; rfl)
  have hframe := hset.trans (callFrame_effects x call.input.taskId es _)
  have hlog := log_effects x call.input.taskId es (c.setCall x { call with oneShot := some o' })
  refine ⟨call, o, es, hcall, hone, hsaid, fun e he => ?_, hlog, fun y hy => ?_, fun y other hother => ?_,
    fun y other hother hdone => ?_⟩
  · obtain ⟨effect, hmem, rfl⟩ := List.mem_map.mp he
    exact ⟨(List.mem_filter.mp hmem).1, rfl⟩
  · rw [Registry.accepted, hframe.tasks] at hy
    exact .inr ⟨hy, by rw [Registry.taskId, hframe.tasks, Registry.taskId]⟩
  · by_cases hyx : y = x
    · subst hyx
      obtain ⟨call', hcall'⟩ := Option.isSome_iff_exists.mp (isSome_effects call.input.taskId es
        (by simp [Client.setCall] : ((c.setCall y { call with oneShot := some o' }).calls y).isSome = true))
      obtain ⟨call₀, hcall₀, -, hinput, -⟩ := hframe.own call' hcall'
      rw [hother] at hcall₀
      cases hcall₀
      exact ⟨call', hcall', hinput⟩
    · exact ⟨other, by rw [hframe.others y hyx]; exact hother, rfl⟩
  · by_cases hyx : y = x
    · subst hyx
      obtain ⟨call₀, hcall₀, hphase, hinput, -⟩ := hframe.own other hother
      rw [hcall] at hcall₀
      cases hcall₀
      have hold : Done call → ∃ call₁, c.calls y = some call₁ ∧ call₁.input = other.input ∧ Done call₁ :=
        fun hdone => ⟨call, hcall, hinput.symm, hdone⟩
      rcases hdone with hreturned | hfulfilled
      · exact .inr (hold (.inl (hphase ▸ hreturned)))
      · rcases fulfilled_effects es ⟨other, hother, hfulfilled⟩ with ⟨accepted, hresolve⟩ | ⟨call₁, hcall₁,
          hbefore⟩
        · obtain ⟨e, he, haccepts⟩ := hsaid.resolve accepted hresolve
          refine .inl ⟨⟨y, call.input.taskId, e⟩, ?_, rfl, by rw [hinput], haccepts⟩
          rw [hlog]
          exact List.mem_append_right _ (List.mem_map_of_mem
            (List.mem_filter.mpr ⟨he, isWritten_of_accepts haccepts⟩))
        · cases (Function.update_self ..).symm.trans hcall₁
          exact .inr (hold (.inr hbefore))
    · rw [hframe.others y hyx] at hother
      exact .inr ⟨other, hother, rfl, hdone⟩

theorem countP_entries (es : List Effect) (t : String) :
    ((es.filter isWritten).map (Entry.mk x t)).countP (fun e => accepts e.effect) ≤ es.countP accepts := by
  rw [List.countP_map]
  exact List.Sublist.countP_le List.filter_sublist

theorem silent_stepOneShot {stimulus : Stimulus} (hquiet : ∀ o, acknowledges o stimulus = false)
    (htext : ∀ o, addsText opts o stimulus = false) (h : c.stepOneShot opts x stimulus = some c') :
    Silent c c' := by
  obtain ⟨call, o, es, -, -, hsaid, hentries, hmoves⟩ := moves_stepOneShot h
  refine ⟨_, hmoves, fun e he => ⟨?_, ?_⟩⟩
  · by_contra haccepts
    have hack := hsaid.acceptance e.effect (hentries e he).1 (by simpa using haccepts)
    rw [hquiet] at hack
    cases hack
  · by_contra htells
    rcases hsaid.delta e.effect (hentries e he).1 (by simpa using htells) with hadds | hack
    · rw [htext] at hadds
      cases hadds
    · rw [hquiet] at hack
      cases hack

theorem silent_control (c : Client) (x : Nat) {stimulus : Stimulus} (hquiet : ∀ o, acknowledges o stimulus = false)
    (htext : ∀ o, addsText opts o stimulus = false) : Silent c ((c.stepOneShot opts x stimulus).getD c) := by
  cases hstep : c.stepOneShot opts x stimulus with
  | none => exact .refl c
  | some c' => exact silent_stepOneShot hquiet htext hstep

theorem silent_cancel (opts : Options) (c : Client) (t : String) : Silent c (c.cancel opts t).2 := by
  unfold Client.cancel
  split
  · split
    · exact .refl c
    · rename_i fallback _
      have hcontrol : Silent c ((c.stepOneShot opts fallback.call .cancel).getD c) :=
        silent_control c fallback.call (fun _ => rfl) fun _ => rfl
      exact hcontrol.trans (silent_of_mute (.refl _) rfl)
  · split
    · exact silent_of_mute (mute_cancelActive _ _) rfl
    · exact .refl c

theorem silent_shutdown (opts : Options) (fallbacks : List Fallback) (c : Client) :
    Silent c (fallbacks.foldl (fun c fallback => (c.stepOneShot opts fallback.call .shutdown).getD c) c) := by
  induction fallbacks generalizing c with
  | nil => exact .refl c
  | cons fallback fallbacks ih =>
    exact (silent_control c fallback.call (fun _ => rfl) fun _ => rfl).trans (ih _)

theorem silent_close (opts : Options) (c : Client) : Silent c (c.close opts) := by
  have hfailed : Silent c { c with
      connection := { ({ c.connection with closed := true, connected := false } :
        Connection).clearConnectTimer with heartbeat := false, reconnectTimer := false }
      registry := c.registry.failAll ⟨"GATEWAY_SHUTDOWN", "gateway client is shutting down"⟩ } :=
    silent_of_mute (mute_failAll _ _) rfl
  have hshut := hfailed.trans (silent_shutdown opts c.fallbackByTask.values _)
  exact hshut.trans (silent_of_mute (.refl _) rfl)

theorem silent_handleDisconnect (c : Client) (e : GatewayError) : Silent c (c.handleDisconnect e) := by
  refine silent_of_mute ?_ rfl
  unfold Client.handleDisconnect
  dsimp only
  split
  · exact mute_failAll _ e
  · exact .refl _

/-! ### The step lemma -/

/-- The entries of a step: an acceptance, at most one, is of the task that the label acknowledges, and a delta of
that task or of the one to which the label gives new text. -/
structure Spoken (opts : Options) (c : Client) (l : Label) (es : List Entry) : Prop where
  acceptance : ∀ e ∈ es, accepts e.effect = true → acknowledgedTask c l = some e.taskId
  once : es.countP (fun e => accepts e.effect) ≤ 1
  delta : ∀ e ∈ es, tells e.effect = true →
    deltaTask opts c l = some e.taskId ∨ acknowledgedTask c l = some e.taskId

theorem spoken_of_muted {l : Label} (h : ∀ e ∈ es, Muted e) : Spoken opts c l es where
  acceptance e he haccepts := by
    rw [(h e he).1] at haccepts
    cases haccepts
  once := by
    rw [List.countP_eq_zero.mpr fun e he => by simp [(h e he).1]]
    exact Nat.zero_le _
  delta e he htells := by
    rw [(h e he).2] at htells
    cases htells

/-- What a step does: it keeps what is settled, and says what its label gives to say. -/
def Steps (opts : Options) (c : Client) (l : Label) (c' : Client) : Prop :=
  ∃ es, Moves c c' es ∧ Spoken opts c l es

theorem Silent.steps {l : Label} (h : Silent c c') : Steps opts c l c' := by
  obtain ⟨es, hmoves, hmuted⟩ := h
  exact ⟨es, hmoves, spoken_of_muted hmuted⟩

theorem steps_onOk (hkeyed : Registry.Keyed c.registry) (s : Nat) {id : String} (runId key : Option String)
    (hid : id ≠ Client.connectRequestId) :
    Steps opts c (.message s (.ok id runId key)) { c with registry := c.registry.onOk id runId } := by
  cases hget : c.registry.activeByTask.get id with
  | none =>
    have hsame : c.registry.onOk id runId = c.registry := by
      unfold Registry.onOk
      rw [hget]
    rw [hsame]
    exact (Silent.refl c).steps
  | some x =>
    obtain ⟨event, haccepted, hdelta, hlog⟩ := onOk_log runId hget
    rw [hkeyed id x hget] at hlog
    have hack : acknowledgedTask c (.message s (.ok id runId key)) = some id := by
      rw [acknowledgedTask, if_neg hid, hget, Option.map_some]
    refine ⟨_, ⟨hlog, fun y hy => ?_, fun y call hcall => ⟨call, hcall, rfl⟩,
      fun y call hcall hdone => .inr ⟨call, hcall, rfl, hdone⟩⟩, fun e he _ => ?_, List.countP_le_length,
      fun e he _ => ?_⟩
    · have htask := onOk_taskId c.registry id runId y
      by_cases hyx : y = x
      · subst hyx
        refine .inl ⟨⟨y, id, .event event⟩, ?_, rfl, ?_, haccepted⟩
        · exact hlog ▸ List.mem_append_right _ List.mem_cons_self
        · exact (htask.trans (hkeyed id y hget)).symm
      · rw [Registry.accepted, onOk_tasks_other runId hget hyx] at hy
        exact .inr ⟨hy, htask⟩
    · rw [List.mem_singleton.mp he]
      exact hack
    · rw [List.mem_singleton.mp he]
      exact .inr hack

theorem steps_onAgent (s : Nat) {payload : EventPayload} {y : Nat}
    (hy : c.registry.findActive payload.runId payload.sessionKey = some y) :
    Steps opts c (.message s (.agent payload)) { c with registry := c.registry.onAgent opts y payload } := by
  have hmem : ∀ e ∈ (agentDetails opts c.registry y payload).map (SingleRun.entry c.registry y),
      accepts e.effect = false ∧ (tells e.effect = true →
        deltaTask opts c (.message s (.agent payload)) = some e.taskId) := by
    intro e he
    obtain ⟨d, hd, rfl⟩ := List.mem_map.mp he
    obtain ⟨haccepted, hdelta⟩ := mem_agentDetails hd
    refine ⟨haccepted, fun htells => ?_⟩
    simp only [deltaTask, hy, Option.bind_eq_bind, Option.bind_some, if_neg (hdelta htells)]
    rfl
  have hconfined : Confined (fun _ => True) c.registry (c.registry.onAgent opts y payload) :=
    confined_onAgent opts payload trivial
  refine ⟨_, ⟨SingleRun.log_onAgent, fun z hz => ?_, fun z call hcall => ⟨call, hcall, rfl⟩,
    fun z call hcall hdone => .inr ⟨call, hcall, rfl, hdone⟩⟩, fun e he haccepts => ?_, ?_,
    fun e he htells => .inl ((hmem e he).2 htells)⟩
  · rw [Registry.accepted, onAgent_promise] at hz
    exact .inr ⟨hz, hconfined.taskId z⟩
  · rw [(hmem e he).1] at haccepts
    cases haccepts
  · rw [List.countP_eq_zero.mpr fun e he => by simp [(hmem e he).1]]
    exact Nat.zero_le _

theorem steps_handleMessage (hkeyed : Registry.Keyed c.registry) (s : Nat) (frame : GatewayFrame) :
    Steps opts c (.message s frame) (c.handleMessage opts frame) := by
  cases frame with
  | challenge => exact (silent_connection c _).steps
  | other => exact (Silent.refl c).steps
  | ok id runId key =>
    simp only [Client.handleMessage]
    split
    · exact (silent_connection c _).steps
    · rename_i hid
      exact steps_onOk hkeyed s runId key hid
  | error id code message =>
    simp only [Client.handleMessage]
    split
    · exact (silent_connection c _).steps
    · exact (silent_registry (mute_onError _ _ _ _)).steps
  | agent payload =>
    simp only [Client.handleMessage]
    split
    · rename_i y hy
      exact steps_onAgent s hy
    · exact (Silent.refl c).steps
  | chat payload =>
    simp only [Client.handleMessage]
    split
    · exact (silent_registry (mute_onChat opts _ _ _)).steps
    · exact (Silent.refl c).steps

theorem steps_oneShot {stimulus : Stimulus} (h : c.stepOneShot opts x stimulus = some c') :
    Steps opts c (.oneShot x stimulus) c' := by
  obtain ⟨call, o, es, hcall, hone, hsaid, hentries, hmoves⟩ := moves_stepOneShot h
  have hack : acknowledges o stimulus = true →
      acknowledgedTask c (.oneShot x stimulus) = some call.input.taskId := by
    intro hack
    simp [acknowledgedTask, hcall, hone, hack]
  have htext : addsText opts o stimulus = true →
      deltaTask opts c (.oneShot x stimulus) = some call.input.taskId := by
    intro htext
    simp [deltaTask, hcall, hone, htext]
  refine ⟨_, hmoves, fun e he haccepts => ?_, (countP_entries es call.input.taskId).trans hsaid.once,
    fun e he htells => ?_⟩
  · obtain ⟨heffect, htask⟩ := hentries e he
    rw [htask]
    exact hack (hsaid.acceptance e.effect heffect haccepts)
  · obtain ⟨heffect, htask⟩ := hentries e he
    rw [htask]
    exact (hsaid.delta e.effect heffect htells).imp htext hack

/-- Every step of the client keeps what is settled, and says only what its label gives it to say. -/
theorem steps_step {l : Label} (hinv : Inv (fun _ => False) c) (h : Settled c)
    (hstep : Client.step opts c l = some c') : Steps opts c l c' := by
  cases l with
  | tick now =>
    cases hstep
    have hmute : Mute c.registry { c.registry with clock := now } :=
      mute_of_tasks rfl (List.append_nil _).symm fun _ he => by cases he
    exact (silent_registry hmute).steps
  | execute input =>
    cases hstep
    exact (silent_execute hinv input).steps
  | prepared x result =>
    obtain ⟨call, hcall, hstep⟩ := Option.bind_eq_some_iff.mp hstep
    exact (silent_onPrepared hcall hstep).steps
  | resume x =>
    obtain ⟨call, hcall, hstep⟩ := Option.bind_eq_some_iff.mp hstep
    exact (silent_resume hinv h hcall hstep).steps
  | cancel taskId =>
    cases hstep
    exact (silent_cancel opts c taskId).steps
  | close =>
    cases hstep
    exact (silent_close opts c).steps
  | message s frame =>
    obtain ⟨-, hstep⟩ := Option.ite_none_right_eq_some.mp hstep
    cases hstep
    exact steps_handleMessage hinv.keyed s frame
  | malformed s =>
    obtain ⟨-, hstep⟩ := Option.ite_none_right_eq_some.mp hstep
    cases hstep
    exact ((silent_handleDisconnect c _).trans (silent_connection _ _)).steps
  | socketClosed s code reason =>
    obtain ⟨-, hstep⟩ := Option.ite_none_right_eq_some.mp hstep
    cases hstep
    exact ((silent_connection c _).trans (silent_handleDisconnect _ _)).steps
  | socketError s message =>
    simp only [Client.step, Option.ite_none_right_eq_some] at hstep
    obtain ⟨-, hstep⟩ := hstep
    split at hstep <;> cases hstep
    · exact (Silent.refl c).steps
    · exact (silent_connection c _).steps
  | taskTimeout x =>
    obtain ⟨-, hstep⟩ := Option.ite_none_right_eq_some.mp hstep
    cases hstep
    exact (silent_registry (mute_onTimeout _ _)).steps
  | oneShot x stimulus =>
    cases stimulus with
    | cancel => cases hstep
    | shutdown => cases hstep
    | _ => exact steps_oneShot hstep
  | opened | pong | connectTimeout | heartbeat | reconnect =>
    obtain ⟨-, hstep⟩ := Option.ite_none_right_eq_some.mp hstep
    cases hstep
    exact (silent_connection c _).steps

/-- What every callback of the one-shot client says goes into the log. -/
theorem logged_stepOneShot {stimulus : Stimulus} {o : OneShot} {f : Effect → Bool}
    (h : c.stepOneShot opts x stimulus = some c') (hcall : c.calls x = some call) (hone : call.oneShot = some o)
    (hwritten : ∀ e, f e = true → isWritten e = true)
    (hsaid : ∀ now o' es, o.step opts now stimulus = some (o', es) → ∃ e ∈ es, f e = true) :
    ∃ es, c'.registry.log = c.registry.log ++ es ∧ ∃ e ∈ es, e.taskId = call.input.taskId ∧ f e.effect = true := by
  obtain ⟨call₁, o₁, o', es, hcall₁, hone₁, hstep, rfl⟩ := AdapterShutdown.stepOneShot_cases h
  rw [hcall] at hcall₁
  cases hcall₁
  rw [hone] at hone₁
  cases hone₁
  obtain ⟨e, he, hfe⟩ := hsaid _ _ _ hstep
  refine ⟨_, log_effects x call.input.taskId es _, ⟨x, call.input.taskId, e⟩, ?_, rfl, hfe⟩
  exact List.mem_map_of_mem (List.mem_filter.mpr ⟨he, hwritten e hfe⟩)

/-- The label is a callback, not a control function. -/
theorem stepOneShot_of_step {stimulus : Stimulus} (h : Client.step opts c (.oneShot x stimulus) = some c') :
    c.stepOneShot opts x stimulus = some c' := by
  cases stimulus with
  | cancel => cases h
  | shutdown => cases h
  | _ => exact h

/-- A label that acknowledges an execution has its handler told of it. -/
theorem told_of_acknowledgedTask {l : Label} {t : String} (hkeyed : Registry.Keyed c.registry)
    (hstep : Client.step opts c l = some c') (hack : acknowledgedTask c l = some t) :
    ∃ es, c'.registry.log = c.registry.log ++ es ∧ ∃ e ∈ es, e.taskId = t ∧ accepts e.effect = true := by
  cases l with
  | message s frame =>
    obtain ⟨-, hstep⟩ := Option.ite_none_right_eq_some.mp hstep
    cases frame with
    | ok id runId key =>
      simp only [acknowledgedTask, Option.ite_none_left_eq_some, Option.map_eq_some_iff] at hack
      obtain ⟨hid, x, hget, rfl⟩ := hack
      obtain ⟨event, haccepted, -, hlog⟩ := onOk_log runId hget
      rw [Client.handleMessage, if_neg hid] at hstep
      cases hstep
      exact ⟨_, hlog, _, List.mem_cons_self, hkeyed id x hget, haccepted⟩
    | _ => cases hack
  | oneShot x stimulus =>
    obtain ⟨call, hcall, hack⟩ := Option.bind_eq_some_iff.mp hack
    obtain ⟨o, hone, hack⟩ := Option.bind_eq_some_iff.mp hack
    obtain ⟨hacks, htask⟩ := Option.ite_none_right_eq_some.mp hack
    cases htask
    exact logged_stepOneShot (stepOneShot_of_step hstep) hcall hone (fun _ => isWritten_of_accepts)
      fun _ _ _ hact => accepts_of_acknowledges hact hacks
  | _ => cases hack

/-- A label that gives new text has its handler told of it. -/
theorem told_of_deltaTask {l : Label} {t : String} (hstep : Client.step opts c l = some c')
    (htext : deltaTask opts c l = some t) :
    ∃ es, c'.registry.log = c.registry.log ++ es ∧ ∃ e ∈ es, e.taskId = t ∧ tells e.effect = true := by
  cases l with
  | message s frame =>
    obtain ⟨-, hstep⟩ := Option.ite_none_right_eq_some.mp hstep
    cases frame with
    | agent payload =>
      obtain ⟨y, hy, htext⟩ := Option.bind_eq_some_iff.mp htext
      obtain ⟨hnew, htask⟩ := Option.ite_none_left_eq_some.mp htext
      cases htask
      obtain ⟨d, hd, hdelta⟩ := mem_agentDetails_of_newText hnew
      simp only [Client.handleMessage, hy] at hstep
      cases hstep
      exact ⟨_, SingleRun.log_onAgent, _, List.mem_map_of_mem hd, rfl, hdelta⟩
    | _ => cases htext
  | oneShot x stimulus =>
    obtain ⟨call, hcall, htext⟩ := Option.bind_eq_some_iff.mp htext
    obtain ⟨o, hone, htext⟩ := Option.bind_eq_some_iff.mp htext
    obtain ⟨hadds, htask⟩ := Option.ite_none_right_eq_some.mp htext
    cases htask
    exact logged_stepOneShot (stepOneShot_of_step hstep) hcall hone (fun _ => isWritten_of_tells)
      fun _ _ _ hact => tells_of_addsText hact hadds
  | _ => cases htext

theorem settled_init : Settled Client.init where
  promised x h := by cases h
  done x call h := by cases h

end Client

end Acknowledgements
