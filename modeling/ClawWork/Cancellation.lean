import ClawWork.TaskFrames

/-!
# What a cancellation puts an end to

`ts` is a set of task ids for which nothing is left to run: no entry refers to
them, their calls have come to rest and their one-shot clients are shut down. A
step that does not execute one of them again keeps this and writes for other
tasks only. With the empty set the same invariant holds of every run.
-/

namespace Cancellation

open JavaScript SharedTypes GatewayProtocol GatewayClient PersistentGatewayClient
open PersistentGatewayClient.Registry Transition

variable {opts : Options} {ts : String → Prop} {c c' : Client} {x : Nat} {call : Call}

/-- The call has not been inserted into `activeByTask` yet. -/
def Early (call : Call) : Prop := call.phase = .preparing ∨ ∃ p, call.phase = .connecting p

/-- The call will neither be inserted nor start its fallback. -/
def Resting (closed : Bool) (r : Registry) (x : Nat) (call : Call) : Prop :=
  match call.phase with
  | .preparing | .connecting _ | .fallbackPreparing => False
  | .awaiting => closed = true ∨ ∀ e, (r.tasks x).promise ≠ .rejected e
  | .fallbackAwaiting | .returned | .threw _ => True

/-- No callback of the one-shot client is left, apart from those of its socket's end. -/
structure ShutDown (o : OneShot) : Prop where
  listening : o.listening = false
  connectTimer : o.connectTimer = false
  httpPending : o.httpPending = none

structure Quiet (closed : Bool) (r : Registry) (x : Nat) (call : Call) : Prop where
  resting : Resting closed r x call
  shutDown : ∀ o, call.oneShot = some o → ShutDown o

structure Inv (ts : String → Prop) (c : Client) : Prop where
  keyed : Keyed c.registry
  numbered : ∀ x, c.nextCall ≤ x → c.calls x = none
  fresh : ∀ x, (∀ call, c.calls x = some call → Early call) →
    ∀ s, c.registry.activeByTask.get s ≠ some x
  owned : ∀ x call, c.calls x = some call → call.phase = .awaiting →
    c.registry.taskId x = call.input.taskId
  fallback : ∀ s f, c.fallbackByTask.get s = some f →
    ∃ call, c.calls f.call = some call ∧ call.input.taskId = s
  active : ∀ s x, c.registry.activeByTask.get s = some x → ¬ ts s
  runs : ∀ rid x, c.registry.taskByRun.get rid = some x → ¬ ts (c.registry.taskId x)
  unlisted : ∀ s f, c.fallbackByTask.get s = some f → ¬ ts s
  quiet : ∀ x call, c.calls x = some call → ts call.input.taskId →
    Quiet c.connection.closed c.registry x call

/-- A step that keeps the invariant and writes for tasks outside `ts` only. -/
structure Advance (ts : String → Prop) (c c' : Client) : Prop where
  inv : Inv ts c'
  log : ∃ es, c'.registry.log = c.registry.log ++ es ∧ ∀ e ∈ es, ¬ ts e.taskId

theorem Advance.refl (h : Inv ts c) : Advance ts c c := ⟨h, [], by simp, by simp⟩

theorem Advance.trans {c'' : Client} (h : Advance ts c c') (h' : Advance ts c' c'') :
    Advance ts c c'' := by
  obtain ⟨es, hes, hts⟩ := h.log
  obtain ⟨fs, hfs, hts'⟩ := h'.log
  refine ⟨h'.inv, es ++ fs, by rw [hfs, hes, List.append_assoc], fun e he => ?_⟩
  rcases List.mem_append.mp he with he | he
  · exact hts e he
  · exact hts' e he

theorem Inv.active_other (h : Inv ts c) {s : String}
    (hx : c.registry.activeByTask.get s = some x) : ¬ ts (c.registry.taskId x) := by
  rw [h.keyed s x hx]
  exact h.active s x hx

theorem Inv.values_other (h : Inv ts c) (hx : x ∈ c.registry.activeByTask.values) :
    ¬ ts (c.registry.taskId x) := by
  obtain ⟨s, hs⟩ := (OrderedMap.mem_values_iff _ _).mp hx
  exact h.active_other hs

theorem Inv.findActive_other (h : Inv ts c) {runId sessionKey : Option String}
    (hx : c.registry.findActive runId sessionKey = some x) : ¬ ts (c.registry.taskId x) := by
  rcases Option.or_eq_some_iff.mp hx with hx | ⟨-, hx⟩
  · obtain ⟨rid, -, hrid⟩ := Option.bind_eq_some_iff.mp hx
    exact h.runs rid x hrid
  · exact h.values_other (mem_values_of_fallbackActive hx)

/-- A step of the registry that is confined to the other tasks. -/
theorem advance_of_confined (h : Inv ts c)
    (hconf : Confined (fun s => ¬ ts s) c.registry c'.registry) (hcalls : c'.calls = c.calls)
    (hnext : c'.nextCall = c.nextCall) (hfallback : c'.fallbackByTask = c.fallbackByTask)
    (hclosed : c.connection.closed = true → c'.connection.closed = true) : Advance ts c c' where
  inv :=
    { keyed := hconf.keyed h.keyed
      numbered := by
        rw [hcalls, hnext]
        exact h.numbered
      fresh := by
        rw [hcalls]
        exact fun x hx s hs => h.fresh x hx s (hconf.active s x hs)
      owned := by
        rw [hcalls]
        exact fun x call hx hp => (hconf.taskId x).trans (h.owned x call hx hp)
      fallback := by
        rw [hcalls, hfallback]
        exact h.fallback
      active := fun s x hs => h.active s x (hconf.active s x hs)
      runs := by
        intro rid x hx
        rw [hconf.taskId]
        rcases hconf.runs rid x hx with hx | hx
        · exact h.runs rid x hx
        · exact hx
      unlisted := by
        rw [hfallback]
        exact h.unlisted
      quiet := by
        rw [hcalls]
        intro x call hx hts
        have hq := h.quiet x call hx hts
        refine ⟨?_, hq.shutDown⟩
        have hrest := hq.resting
        unfold Resting at hrest ⊢
        cases hp : call.phase with
        | awaiting =>
          simp only [hp] at hrest
          have hid := h.owned x call hx hp
          have hsame := hconf.promise x (by rw [hid]; exact not_not_intro hts)
          simp only [hsame]
          exact hrest.imp hclosed id
        | preparing => simp only [hp] at hrest
        | connecting p => simp only [hp] at hrest
        | fallbackPreparing => simp only [hp] at hrest
        | _ => trivial }
  log := hconf.log

/-- A step that leaves the registry, the calls and the fallbacks alone. -/
theorem advance_of_eq (h : Inv ts c) (hreg : c'.registry = c.registry) (hcalls : c'.calls = c.calls)
    (hnext : c'.nextCall = c.nextCall) (hfallback : c'.fallbackByTask = c.fallbackByTask)
    (hclosed : c.connection.closed = true → c'.connection.closed = true) : Advance ts c c' := by
  refine advance_of_confined h ?_ hcalls hnext hfallback hclosed
  rw [hreg]
  exact Confined.refl _ _

/-- One call moves on; it stays out of the map if it is still early, and quiet if it was. -/
theorem advance_setCall (h : Inv ts c) {call' : Call} (hx : c.calls x = some call)
    (hinput : call'.input = call.input) (hearly : Early call' → Early call)
    (howned : call'.phase = .awaiting → call.phase = .awaiting)
    (hquiet : ts call.input.taskId → Quiet c.connection.closed c.registry x call') :
    Advance ts c (c.setCall x call') := by
  have hset : ∀ y call₁, (c.setCall x call').calls y = some call₁ →
      (y = x ∧ call₁ = call') ∨ (y ≠ x ∧ c.calls y = some call₁) := by
    intro y call₁ hy
    by_cases hyx : y = x
    · subst hyx
      simp only [Client.setCall, Function.update_self, Option.some.injEq] at hy
      exact .inl ⟨rfl, hy.symm⟩
    · exact .inr ⟨hyx, by simpa [Client.setCall, hyx] using hy⟩
  refine ⟨⟨h.keyed, fun y hy => ?_, fun y hy s hs => ?_, fun y call₁ hy hp => ?_, fun s f hf => ?_,
    h.active, h.runs, h.unlisted, fun y call₁ hy hts => ?_⟩, [], by simp [Client.setCall], by simp⟩
  · have hold := h.numbered y hy
    have hne : y ≠ x := by
      intro hyx
      rw [hyx, hx] at hold
      cases hold
    simpa [Client.setCall, hne] using hold
  · refine h.fresh y (fun call₁ hcall₁ => ?_) s hs
    by_cases hyx : y = x
    · subst hyx
      rw [hx, Option.some.injEq] at hcall₁
      exact hcall₁ ▸ hearly (hy call' (by simp [Client.setCall]))
    · exact hy call₁ (by simpa [Client.setCall, hyx] using hcall₁)
  · rcases hset y call₁ hy with ⟨rfl, rfl⟩ | ⟨-, hy⟩
    · rw [hinput]
      exact h.owned y call hx (howned hp)
    · exact h.owned y call₁ hy hp
  · obtain ⟨call₁, hcall₁, hid⟩ := h.fallback s f hf
    by_cases hfx : f.call = x
    · refine ⟨call', by simp [Client.setCall, hfx], ?_⟩
      rw [hfx, hx, Option.some.injEq] at hcall₁
      rw [hinput, hcall₁, hid]
    · exact ⟨call₁, by simpa [Client.setCall, hfx] using hcall₁, hid⟩
  · rcases hset y call₁ hy with ⟨rfl, rfl⟩ | ⟨-, hy⟩
    · exact hquiet (hinput ▸ hts)
    · exact h.quiet y call₁ hy hts

/-- The table of fallbacks changes: it may lose entries and gain one for another task. -/
theorem advance_fallback (h : Inv ts c) (fallbackByTask : OrderedMap String Fallback)
    (hkeep : ∀ s f, fallbackByTask.get s = some f → ¬ ts s ∧
      ∃ call, c.calls f.call = some call ∧ call.input.taskId = s) :
    Advance ts c { c with fallbackByTask } :=
  ⟨⟨h.keyed, h.numbered, h.fresh, h.owned, fun s f hf => (hkeep s f hf).2, h.active, h.runs,
    fun s f hf => (hkeep s f hf).1, h.quiet⟩, [], by simp, by simp⟩

theorem Inv.kept_delete (h : Inv ts c) (t s : String) (f : Fallback)
    (hf : (c.fallbackByTask.delete t).get s = some f) : ¬ ts s ∧
      ∃ call, c.calls f.call = some call ∧ call.input.taskId = s := by
  rw [OrderedMap.get_delete] at hf
  split at hf
  · cases hf
  · exact ⟨h.unlisted s f hf, h.fallback s f hf⟩

theorem advance_delete (h : Inv ts c) (t : String) :
    Advance ts c { c with fallbackByTask := c.fallbackByTask.delete t } :=
  advance_fallback h _ (h.kept_delete t)

/-- A client that was shut down stays so and does nothing. -/
theorem shutDown_step {o o' : OneShot} {now : String} {stimulus : Stimulus} {effects : List Effect}
    (h : ShutDown o) (hcancel : stimulus ≠ .cancel)
    (hstep : o.step opts now stimulus = some (o', effects)) : ShutDown o' ∧ effects = [] := by
  obtain ⟨hlisten, htimer, hhttp⟩ := h
  cases stimulus with
  | cancel => exact absurd rfl hcancel
  | message frame => simp [OneShot.step, hlisten] at hstep
  | error message => simp [OneShot.step, hlisten] at hstep
  | connectTimeout => simp [OneShot.step, htimer] at hstep
  | http outcome => simp [OneShot.step, hhttp] at hstep
  | opened =>
    simp only [OneShot.step, Option.ite_none_right_eq_some, Option.some.injEq, Prod.mk.injEq] at hstep
    obtain ⟨-, rfl, rfl⟩ := hstep
    exact ⟨⟨hlisten, htimer, hhttp⟩, rfl⟩
  | close code reason =>
    simp only [OneShot.step, hlisten, Bool.false_eq_true, if_false, Option.some.injEq,
      Prod.mk.injEq] at hstep
    obtain ⟨rfl, rfl⟩ := hstep
    exact ⟨⟨rfl, htimer, hhttp⟩, rfl⟩
  | shutdown =>
    simp only [OneShot.step, Option.some.injEq, Prod.mk.injEq] at hstep
    obtain ⟨rfl, rfl⟩ := hstep
    exact ⟨⟨rfl, rfl, hhttp⟩, rfl⟩

/-- The call whose effects are carried out keeps its input. -/
def Holds (c : Client) (x : Nat) (t : String) : Prop :=
  ∃ call, c.calls x = some call ∧ call.input.taskId = t

theorem advance_write (h : Inv ts c) {t : String} (hx : Holds c x t) (hother : ¬ ts t) (e : Effect) :
    Advance ts c { c with registry := c.registry.write x t e } ∧
      Holds { c with registry := c.registry.write x t e } x t :=
  ⟨advance_of_confined h (confined_write t e hother x) rfl rfl rfl id, hx⟩

theorem advance_settleOneShot (h : Inv ts c) {t : String} (hx : Holds c x t) (hother : ¬ ts t)
    (settle : Promise GatewayError Accepted → Promise GatewayError Accepted) :
    Advance ts c (c.settleOneShot x settle) ∧ Holds (c.settleOneShot x settle) x t := by
  obtain ⟨call, hcall, hid⟩ := hx
  have hset : c.settleOneShot x settle =
      c.setCall x { call with oneShotPromise := settle call.oneShotPromise } := by
    simp only [Client.settleOneShot, hcall]
  rw [hset]
  refine ⟨advance_setCall h hcall rfl id id fun hts => absurd (hid ▸ hts) hother, ?_⟩
  exact ⟨{ call with oneShotPromise := settle call.oneShotPromise }, Function.update_self .., hid⟩

theorem advance_onFallbackEvent (h : Inv ts c) {t : String} (hx : Holds c x t) (hother : ¬ ts t)
    (event : TaskStreamEvent) :
    Advance ts c (c.onFallbackEvent x t event) ∧ Holds (c.onFallbackEvent x t event) x t := by
  obtain ⟨hadv, hx⟩ := advance_write h hx hother (.event event)
  have hmid : ∀ table : OrderedMap String Fallback, (table = c.fallbackByTask ∨
      ∃ fallback, c.fallbackByTask.get t = some fallback ∧
        table = c.fallbackByTask.set t { fallback with runId := event.runId }) →
      ∀ s f, table.get s = some f → ¬ ts s ∧ ∃ call, c.calls f.call = some call ∧ call.input.taskId = s := by
    rintro table (rfl | ⟨fallback, hget, rfl⟩) s f hf
    · exact ⟨h.unlisted s f hf, h.fallback s f hf⟩
    · rw [OrderedMap.get_set] at hf
      split at hf
      · rename_i hst
        obtain rfl := Option.some.inj hf
        subst hst
        exact ⟨hother, h.fallback s fallback hget⟩
      · exact ⟨h.unlisted s f hf, h.fallback s f hf⟩
  refine ⟨hadv.trans (advance_fallback hadv.inv _ fun s f hf => ?_), hx⟩
  split at hf
  · rw [OrderedMap.get_delete] at hf
    split at hf
    · cases hf
    · refine hmid _ ?_ s f hf
      split
      · rename_i fallback hget
        split
        · exact .inr ⟨fallback, hget, rfl⟩
        · exact .inl rfl
      · exact .inl rfl
  · refine hmid _ ?_ s f hf
    split
    · rename_i fallback hget
      split
      · exact .inr ⟨fallback, hget, rfl⟩
      · exact .inl rfl
    · exact .inl rfl

theorem advance_onEffect (h : Inv ts c) {t : String} (hx : Holds c x t) (hother : ¬ ts t)
    (e : Effect) : Advance ts c (Client.onEffect x t c e) ∧ Holds (Client.onEffect x t c e) x t := by
  cases e with
  | event event => exact advance_onFallbackEvent h hx hother event
  | send request => exact advance_write h hx hother _
  | httpRequest => exact advance_write h hx hother _
  | resolve accepted => exact advance_settleOneShot h hx hother fun p => p.resolve accepted
  | reject error => exact advance_settleOneShot h hx hother fun p => p.reject error

theorem advance_effects {t : String} (hother : ¬ ts t) (es : List Effect) (h : Inv ts c)
    (hx : Holds c x t) : Advance ts c (es.foldl (Client.onEffect x t) c) := by
  induction es generalizing c with
  | nil => exact Advance.refl h
  | cons e es ih =>
    obtain ⟨hadv, hx'⟩ := advance_onEffect h hx hother e
    exact hadv.trans (ih hadv.inv hx')

theorem advance_stepOneShot (h : Inv ts c) {stimulus : Stimulus}
    (hcancel : ∀ call, c.calls x = some call → ts call.input.taskId → stimulus ≠ .cancel)
    (hstep : c.stepOneShot opts x stimulus = some c') : Advance ts c c' := by
  simp only [Client.stepOneShot, Option.bind_eq_bind, Option.bind_eq_some_iff, Option.some.injEq,
    Prod.exists] at hstep
  obtain ⟨call, hcall, oneShot, hone, oneShot', effects, hact, rfl⟩ := hstep
  by_cases hts : ts call.input.taskId
  · have hq := h.quiet x call hcall hts
    obtain ⟨hshut, rfl⟩ := shutDown_step (hq.shutDown _ hone) (hcancel call hcall hts) hact
    refine advance_setCall h hcall rfl id id fun _ => ⟨hq.resting, fun o ho => ?_⟩
    exact Option.some.inj ho ▸ hshut
  · have hadv : Advance ts c (c.setCall x { call with oneShot := some oneShot' }) :=
      advance_setCall h hcall rfl id id fun h => absurd h hts
    refine hadv.trans (advance_effects hts effects hadv.inv ?_)
    exact ⟨{ call with oneShot := some oneShot' }, Function.update_self .., rfl⟩

theorem advance_stepOneShot_getD (h : Inv ts c) {stimulus : Stimulus}
    (hcancel : ∀ call, c.calls x = some call → ts call.input.taskId → stimulus ≠ .cancel) :
    Advance ts c ((c.stepOneShot opts x stimulus).getD c) := by
  cases hstep : c.stepOneShot opts x stimulus with
  | none => exact Advance.refl h
  | some c' => exact advance_stepOneShot h hcancel hstep

theorem advance_catchError (h : Inv ts c) (hx : c.calls x = some call)
    (hq : ts call.input.taskId →
      c.connection.closed = true ∧ ∀ o, call.oneShot = some o → ShutDown o)
    (e : GatewayError) : Advance ts c (c.catchError x call e) := by
  unfold Client.catchError
  split
  · refine advance_setCall h hx rfl ?_ ?_ fun hts => ⟨trivial, (hq hts).2⟩
    · rintro (hp | ⟨p, hp⟩) <;> cases hp
    · intro hp
      cases hp
  · rename_i hclosed
    refine advance_setCall h hx rfl ?_ ?_ fun hts => absurd (hq hts).1 hclosed
    · rintro (hp | ⟨p, hp⟩) <;> cases hp
    · intro hp
      cases hp

/-- A call comes to the end of `execute`. -/
theorem advance_finish (h : Inv ts c) (hx : c.calls x = some call) {phase : Phase}
    (hphase : phase = .returned ∨ ∃ e, phase = .threw e) :
    Advance ts c (c.setPhase x call phase) := by
  refine advance_setCall h hx rfl ?_ ?_ fun hts => ⟨?_, (h.quiet x call hx hts).shutDown⟩
  · rcases hphase with rfl | ⟨e, rfl⟩ <;> rintro (hp | ⟨p, hp⟩) <;> cases hp
  · rcases hphase with rfl | ⟨e, rfl⟩ <;> intro hp <;> cases hp
  · rcases hphase with rfl | ⟨e, rfl⟩ <;> trivial

theorem advance_failFallback (h : Inv ts c) (hx : c.calls x = some call) (e : GatewayError) :
    Advance ts c (c.failFallback x call e) := by
  have hadv := advance_finish h hx (.inr ⟨e, rfl⟩)
  exact hadv.trans (advance_delete hadv.inv call.input.taskId)

theorem Inv.other_of_early (h : Inv ts c) (hx : c.calls x = some call)
    (hp : Early call ∨ call.phase = .fallbackPreparing) : ¬ ts call.input.taskId := by
  intro hts
  have hrest := (h.quiet x call hx hts).resting
  rcases hp with (hp | ⟨p, hp⟩) | hp <;> simp only [Resting, hp] at hrest

theorem advance_insert (h : Inv ts c) (hx : c.calls x = some call) (hearly : Early call) :
    Advance ts c { c.setPhase x call .awaiting with
      registry := c.registry.insert opts x call.input call.prepared } := by
  have hother := h.other_of_early hx (.inl hearly)
  have hfresh : ∀ s, c.registry.activeByTask.get s ≠ some x :=
    h.fresh x fun call' hx' => Option.some.inj (hx'.symm.trans hx) ▸ hearly
  have htask : ∀ y, y ≠ x →
      (c.registry.insert opts x call.input call.prepared).tasks y = c.registry.tasks y := fun y hy => by
    simp [Registry.insert, hy]
  have hidx : (c.registry.insert opts x call.input call.prepared).taskId x = call.input.taskId := by
    simp [Registry.insert, taskId]
  have hid : ∀ y, y ≠ x →
      (c.registry.insert opts x call.input call.prepared).taskId y = c.registry.taskId y := by
    intro y hy
    simp only [taskId, htask y hy]
  have hget : ∀ s, (c.registry.insert opts x call.input call.prepared).activeByTask.get s =
      if s = call.input.taskId then some x else c.registry.activeByTask.get s := fun s => by
    simp [Registry.insert, OrderedMap.get_set]
  have hcalls : ∀ y, (c.setPhase x call .awaiting).calls y =
      if y = x then some { call with phase := .awaiting } else c.calls y := fun y => by
    simp [Client.setPhase, Client.setCall, Function.update_apply]
  refine ⟨⟨fun s y hy => ?_, fun y hy => ?_, fun y hy s hs => ?_, fun y call₁ hy hp => ?_,
    fun s f hf => ?_, fun s y hy => ?_, fun rid y hy => ?_, h.unlisted, fun y call₁ hy hts => ?_⟩,
    [⟨x, call.input.taskId, _⟩], rfl, by simpa using hother⟩
  · rw [hget] at hy
    split at hy
    · rename_i hs
      obtain rfl := Option.some.inj hy
      rw [hidx, hs]
    · have hne : y ≠ x := fun he => hfresh s (he ▸ hy)
      rw [hid y hne]
      exact h.keyed s y hy
  · have hold := h.numbered y hy
    have hne : y ≠ x := by
      intro hyx
      rw [hyx, hx] at hold
      cases hold
    simpa [hcalls, hne] using hold
  · have hne : y ≠ x := by
      intro hyx
      rcases hy { call with phase := .awaiting } (by simp [hcalls, hyx]) with hp | ⟨p, hp⟩ <;> cases hp
    rw [hget] at hs
    split at hs
    · exact hne (Option.some.inj hs).symm
    · exact h.fresh y (fun call₁ hc => hy call₁ (by simpa [hcalls, hne] using hc)) s hs
  · simp only [hcalls] at hy
    split at hy
    · rename_i hyx
      obtain rfl := Option.some.inj hy
      rw [hyx, hidx]
    · rename_i hyx
      rw [hid y hyx]
      exact h.owned y call₁ hy hp
  · obtain ⟨call₁, hc, hs⟩ := h.fallback s f hf
    by_cases hfx : f.call = x
    · refine ⟨{ call with phase := .awaiting }, by simp [hcalls, hfx], ?_⟩
      rw [hfx, hx, Option.some.injEq] at hc
      rw [← hs, ← hc]
    · exact ⟨call₁, by simpa [hcalls, hfx] using hc, hs⟩
  · rw [hget] at hy
    split at hy
    · rename_i hs
      rwa [hs]
    · exact h.active s y hy
  · have hold := h.runs rid y hy
    by_cases hyx : y = x
    · rw [hyx, hidx]
      exact hother
    · rwa [hid y hyx]
  · simp only [hcalls] at hy
    split at hy
    · obtain rfl := Option.some.inj hy
      exact absurd hts hother
    · rename_i hyx
      have hq := h.quiet y call₁ hy hts
      refine ⟨?_, hq.shutDown⟩
      have hrest := hq.resting
      unfold Resting at hrest ⊢
      rwa [htask y hyx]

theorem advance_insertActive (h : Inv ts c) (hx : c.calls x = some call) (hearly : Early call) :
    Advance ts c (c.insertActive opts x call) := by
  unfold Client.insertActive
  split
  · exact advance_insert h hx hearly
  · exact advance_catchError h hx (fun hts => absurd hts (h.other_of_early hx (.inl hearly))) _

theorem advance_execute (h : Inv ts c) (input : ExecuteGatewayTaskInput) (hother : ¬ ts input.taskId) :
    Advance ts c (c.execute input) := by
  have hcalls : ∀ y call, (c.execute input).calls y = some call →
      (y = c.nextCall ∧ call.phase = .preparing ∧ call.input = input) ∨ c.calls y = some call := by
    intro y call hy
    by_cases hyx : y = c.nextCall
    · subst hyx
      simp only [Client.execute, Client.setCall, Function.update_self, Option.some.injEq] at hy
      exact .inl ⟨rfl, hy ▸ rfl, hy ▸ rfl⟩
    · exact .inr (by simpa [Client.execute, Client.setCall, hyx] using hy)
  have hold : ∀ y call, c.calls y = some call → (c.execute input).calls y = some call := by
    intro y call hy
    have hne : y ≠ c.nextCall := by
      intro hyx
      rw [hyx, h.numbered _ (Nat.le_refl _)] at hy
      cases hy
    simpa [Client.execute, Client.setCall, hne] using hy
  refine ⟨⟨h.keyed, fun y hy => ?_, fun y hy s hs => ?_, fun y call hy hp => ?_, fun s f hf => ?_,
    h.active, h.runs, h.unlisted, fun y call hy hts => ?_⟩, [], by simp [Client.execute, Client.setCall],
    by simp⟩
  · have hlt : c.nextCall < y := hy
    have hne : y ≠ c.nextCall := by omega
    simpa [Client.execute, Client.setCall, hne] using h.numbered y (by omega)
  · exact h.fresh y (fun call hc => hy call (hold y call hc)) s hs
  · rcases hcalls y call hy with ⟨-, hprep, -⟩ | hy
    · rw [hp] at hprep
      cases hprep
    · exact h.owned y call hy hp
  · obtain ⟨call, hc, hs⟩ := h.fallback s f hf
    exact ⟨call, hold _ _ hc, hs⟩
  · rcases hcalls y call hy with ⟨-, -, hin⟩ | hy
    · exact absurd (hin ▸ hts) hother
    · exact h.quiet y call hy hts

theorem advance_onPrepared (h : Inv ts c) (hx : c.calls x = some call)
    {result : Except GatewayError PreparedGatewayInput}
    (hstep : c.onPrepared opts x call result = some c') : Advance ts c c' := by
  cases Client.proceeds_of_onPrepared hstep with
  | connects prepared hphase =>
    have hother := h.other_of_early hx (.inl (.inl hphase))
    have hconn : Advance ts c { c with connection := c.connection.ensureConnected.1 } :=
      advance_of_eq h rfl rfl rfl rfl (by simp)
    refine hconn.trans (advance_setCall hconn.inv hx rfl (fun _ => .inl hphase) ?_ fun hts => ?_)
    · intro hp
      cases hp
    · exact absurd hts hother
  | unprepared error hphase =>
    have hother := h.other_of_early hx (.inl (.inl hphase))
    exact advance_catchError h hx (fun hts => absurd hts hother) _
  | startsOneShot prepared hphase =>
    have hother := h.other_of_early hx (.inr hphase)
    have hset : Advance ts c (c.setPhase x { call with
        prepared, oneShot := some (OneShot.start opts call.input prepared) } .fallbackAwaiting) := by
      refine advance_setCall h hx rfl ?_ ?_ fun hts => absurd hts hother
      · rintro (hp | ⟨p, hp⟩) <;> cases hp
      · intro hp
        cases hp
    refine hset.trans (advance_fallback hset.inv _ fun s f hf => ?_)
    rw [OrderedMap.get_set] at hf
    split at hf
    · rename_i hs
      obtain rfl := Option.some.inj hf
      rw [hs]
      exact ⟨hother, _, Function.update_self .., rfl⟩
    · exact ⟨hset.inv.unlisted s f hf, hset.inv.fallback s f hf⟩
  | oneShotUnprepared error hphase => exact advance_failFallback h hx _

theorem advance_resume (h : Inv ts c) (hx : c.calls x = some call)
    (hstep : c.resume opts x call = some c') : Advance ts c c' := by
  cases Client.resumes_of_resume hstep with
  | connected promise hphase hfulfilled => exact advance_insertActive h hx (.inr ⟨_, hphase⟩)
  | unconnected p error hphase hrejected =>
    have hearly : Early call := .inr ⟨_, hphase⟩
    exact advance_catchError h hx (fun hts => absurd hts (h.other_of_early hx (.inl hearly))) _
  | returns accepted hphase hfulfilled => exact advance_finish h hx (.inl rfl)
  | fails error hphase hrejected =>
    refine advance_catchError h hx (fun hts => ?_) _
    have hq := h.quiet x call hx hts
    have hrest := hq.resting
    simp only [Resting, hphase] at hrest
    exact ⟨hrest.resolve_right fun hne => hne error hrejected, hq.shutDown⟩
  | oneShotReturns accepted hphase hfulfilled => exact advance_finish h hx (.inl rfl)
  | oneShotFails error hphase hrejected => exact advance_failFallback h hx _

theorem advance_cancelFallback (opts : Options) (h : Inv ts c) {t : String} {f : Fallback}
    (hf : c.fallbackByTask.get t = some f) : Advance ts c (c.cancelFallback opts t f) := by
  have hadv : Advance ts c ((c.stepOneShot opts f.call .cancel).getD c) := by
    refine advance_stepOneShot_getD h fun call hcall hts => ?_
    obtain ⟨call', hcall', hid⟩ := h.fallback t f hf
    rw [hcall, Option.some.injEq] at hcall'
    rw [hcall', hid] at hts
    exact absurd hts (h.unlisted t f hf)
  exact hadv.trans (advance_delete hadv.inv t)

theorem advance_cancel (h : Inv ts c) (t : String) : Advance ts c (c.cancel opts t).2 := by
  unfold Client.cancel
  split
  · split
    · exact Advance.refl h
    · rename_i f hf
      exact advance_cancelFallback opts h hf
  · rename_i x hx
    split
    · exact advance_of_confined h (confined_cancelActive (h.active_other hx)) rfl rfl rfl id
    · exact Advance.refl h

theorem advance_failAll (h : Inv ts c) (e : GatewayError) (connection : Connection)
    (hclosed : c.connection.closed = true → connection.closed = true) :
    Advance ts c { c with connection, registry := c.registry.failAll e } :=
  advance_of_confined h (confined_failAll e fun _ hx => h.values_other hx) rfl rfl rfl hclosed

theorem advance_handleDisconnect (h : Inv ts c) (e : GatewayError) :
    Advance ts c (c.handleDisconnect e) := by
  unfold Client.handleDisconnect
  dsimp only
  split
  · exact advance_failAll h e _ (by simp)
  · exact advance_of_eq h rfl rfl rfl rfl (by simp)

theorem advance_handleMessage (h : Inv ts c) (frame : GatewayFrame) :
    Advance ts c (c.handleMessage opts frame) := by
  cases frame with
  | challenge => exact advance_of_eq h rfl rfl rfl rfl (by simp [Client.handleMessage])
  | ok id runId key =>
    simp only [Client.handleMessage]
    split
    · exact advance_of_eq h rfl rfl rfl rfl (by simp)
    · refine advance_of_confined h (confined_onOk id runId fun x hx => ?_) rfl rfl rfl fun h => h
      exact h.active_other hx
  | error id code message =>
    simp only [Client.handleMessage]
    split
    · exact advance_of_eq h rfl rfl rfl rfl (by simp)
    · refine advance_of_confined h (confined_onError id code message fun x hx => ?_) rfl rfl rfl
        fun h => h
      exact h.active_other hx
  | agent payload =>
    simp only [Client.handleMessage]
    split
    · rename_i y hy
      exact advance_of_confined h (confined_onAgent opts payload (h.findActive_other hy)) rfl rfl rfl id
    · exact Advance.refl h
  | chat payload =>
    simp only [Client.handleMessage]
    split
    · rename_i y hy
      exact advance_of_confined h (confined_onChat opts payload (h.findActive_other hy)) rfl rfl rfl id
    · exact Advance.refl h
  | other => exact Advance.refl h

theorem advance_shutdown (opts : Options) (fallbacks : List Fallback) (h : Inv ts c) :
    Advance ts c (fallbacks.foldl (fun c f => (c.stepOneShot opts f.call .shutdown).getD c) c) := by
  induction fallbacks generalizing c with
  | nil => exact Advance.refl h
  | cons f fs ih =>
    have hadv : Advance ts c ((c.stepOneShot opts f.call .shutdown).getD c) :=
      advance_stepOneShot_getD h fun _ _ _ hs => Stimulus.noConfusion hs
    exact hadv.trans (ih hadv.inv)

theorem advance_close (h : Inv ts c) : Advance ts c (c.close opts) := by
  unfold Client.close
  dsimp only
  have hfail := advance_failAll h ⟨"GATEWAY_SHUTDOWN", "gateway client is shutting down"⟩
    { { c.connection with closed := true, connected := false }.clearConnectTimer with
      heartbeat := false, reconnectTimer := false } (by simp)
  have hshut := hfail.trans (advance_shutdown opts c.fallbackByTask.values hfail.inv)
  have hempty := advance_fallback hshut.inv .empty fun s f hf => by cases hf
  exact (hshut.trans hempty).trans (advance_of_eq hempty.inv rfl rfl rfl rfl (by simp))

/-- The label does not execute a task of `ts` again. -/
def Spares (ts : String → Prop) : Label → Prop
  | .execute input => ¬ ts input.taskId
  | _ => True

theorem advance_step (h : Inv ts c) {l : Label} (hspare : Spares ts l)
    (hstep : c.step opts l = some c') : Advance ts c c' := by
  cases l with
  | tick now =>
    cases hstep
    refine advance_of_confined h ?_ rfl rfl rfl id
    exact ⟨fun _ => rfl, fun _ _ => rfl, fun _ _ h => h, fun _ _ h => .inl h, [], by simp, by simp⟩
  | execute input =>
    cases hstep
    exact advance_execute h input hspare
  | prepared x result =>
    obtain ⟨call, hx, hstep⟩ := Option.bind_eq_some_iff.mp hstep
    exact advance_onPrepared h hx hstep
  | resume x =>
    obtain ⟨call, hx, hstep⟩ := Option.bind_eq_some_iff.mp hstep
    exact advance_resume h hx hstep
  | cancel t =>
    cases hstep
    exact advance_cancel h t
  | close =>
    cases hstep
    exact advance_close h
  | message s frame =>
    simp only [Client.step, Option.ite_none_right_eq_some, Option.some.injEq] at hstep
    exact hstep.2 ▸ advance_handleMessage h frame
  | malformed s =>
    simp only [Client.step, Option.ite_none_right_eq_some, Option.some.injEq] at hstep
    have hadv := advance_handleDisconnect h ⟨"GATEWAY_PROTOCOL_ERROR", "invalid gateway frame"⟩
    obtain ⟨-, rfl⟩ := hstep
    exact hadv.trans (advance_of_eq hadv.inv rfl rfl rfl rfl (by simp [Client.onMalformed]))
  | socketClosed s code reason =>
    simp only [Client.step, Option.ite_none_right_eq_some, Option.some.injEq] at hstep
    have hready : Advance ts c { c with connection := c.connection.setReady s .closed } :=
      advance_of_eq h rfl rfl rfl rfl id
    exact hstep.2 ▸ hready.trans (advance_handleDisconnect hready.inv _)
  | taskTimeout x =>
    simp only [Client.step, Option.ite_none_right_eq_some, Option.some.injEq] at hstep
    obtain ⟨-, rfl⟩ := hstep
    refine advance_of_confined h (confined_onTimeout x fun y hy => ?_) rfl rfl rfl id
    exact h.active_other hy
  | oneShot x stimulus =>
    cases stimulus with
    | cancel => cases hstep
    | shutdown => cases hstep
    | _ => exact advance_stepOneShot h (fun _ _ _ hs => Stimulus.noConfusion hs) hstep
  | socketError s message =>
    simp only [Client.step, Option.ite_none_right_eq_some] at hstep
    obtain ⟨-, hstep⟩ := hstep
    split at hstep <;> cases hstep
    · exact Advance.refl h
    · exact advance_of_eq h rfl rfl rfl rfl (by simp)
  | opened s =>
    simp only [Client.step, Option.ite_none_right_eq_some, Option.some.injEq] at hstep
    exact hstep.2 ▸ advance_of_eq h rfl rfl rfl rfl id
  | pong s =>
    simp only [Client.step, Option.ite_none_right_eq_some, Option.some.injEq] at hstep
    exact hstep.2 ▸ advance_of_eq h rfl rfl rfl rfl id
  | connectTimeout s =>
    simp only [Client.step, Option.ite_none_right_eq_some, Option.some.injEq] at hstep
    exact hstep.2 ▸ advance_of_eq h rfl rfl rfl rfl (by simp [Connection.setReady])
  | heartbeat =>
    simp only [Client.step, Option.ite_none_right_eq_some, Option.some.injEq] at hstep
    refine hstep.2 ▸ advance_of_eq h rfl rfl rfl rfl ?_
    unfold Client.onHeartbeat
    split
    · split <;> simp
    · exact id
  | reconnect =>
    simp only [Client.step, Option.ite_none_right_eq_some, Option.some.injEq] at hstep
    exact hstep.2 ▸ advance_of_eq h rfl rfl rfl rfl (by simp)

theorem advance_run {ls : List Label} (h : Inv ts c) (hspare : ∀ l ∈ ls, Spares ts l)
    (hrun : run (Client.step opts) c ls = some c') : Advance ts c c' := by
  induction ls generalizing c with
  | nil =>
    rw [run_nil, Option.some.injEq] at hrun
    exact hrun ▸ Advance.refl h
  | cons l ls ih =>
    obtain ⟨u, hu, hrun⟩ := Option.bind_eq_some_iff.mp hrun
    have hadv := advance_step h (hspare l List.mem_cons_self) hu
    exact hadv.trans (ih hadv.inv (fun m hm => hspare m (List.mem_cons_of_mem _ hm)) hrun)

theorem inv_init : Inv (fun _ => False) Client.init where
  keyed := fun s x hx => by cases hx
  numbered := fun _ _ => rfl
  fresh := fun x _ s hs => by cases hs
  owned := fun x call hx => by cases hx
  fallback := fun s f hf => by cases hf
  active := fun _ _ _ => id
  runs := fun _ _ _ => id
  unlisted := fun _ _ _ => id
  quiet := fun _ _ _ => False.elim

theorem inv_of_run {ls : List Label} (hrun : run (Client.step opts) Client.init ls = some c) :
    Inv (fun _ => False) c := by
  refine (advance_run inv_init (fun l _ => ?_) hrun).inv
  cases l with
  | execute input => exact id
  | _ => trivial

/-- What must hold when `cancel` is called for the cancellation of task `t` to be final. -/
structure Final (c : Client) (t : String) : Prop where
  accepted : ∀ x, c.registry.activeByTask.get t = some x →
    c.registry.accepted x = true ∨ c.connection.closed = true
  unlisted : ∀ x, c.registry.activeByTask.get t = some x → c.fallbackByTask.get t = none
  runs : ∀ rid y, c.registry.taskByRun.get rid = some y → c.registry.taskId y = t →
    ∃ x, c.registry.activeByTask.get t = some x ∧ rid = (c.registry.tasks x).runId ∧ rid ≠ ""
  resting : ∀ y call, c.calls y = some call → call.input.taskId = t →
    Resting c.connection.closed c.registry y call
  shutDown : ∀ y call o, c.calls y = some call → call.input.taskId = t → call.oneShot = some o →
    ShutDown o ∨ (o.httpPending = none ∧ c.registry.activeByTask.get t = none ∧
      ∃ f, c.fallbackByTask.get t = some f ∧ f.call = y)

/-- A resting call is still resting after the active task of its id was cancelled. -/
theorem resting_cancelActive {r : Registry} {closed : Bool} {y : Nat}
    (hrest : Resting closed r y call) (hacc : r.accepted x = true ∨ closed = true) :
    Resting closed (r.cancelActive x) y call := by
  unfold Resting at hrest ⊢
  split
  · rename_i hp; simp only [hp] at hrest
  · rename_i hp; simp only [hp] at hrest
  · rename_i hp; simp only [hp] at hrest
  · rename_i hp
    simp only [hp] at hrest
    by_cases hyx : y = x
    · subst hyx
      rcases hacc with hacc | hclosed
      · refine .inr fun e he => ?_
        rw [← accepted_cancelActive, Registry.accepted, he] at hacc
        cases hacc
      · exact .inl hclosed
    · rwa [cancelActive_tasks_other r hyx]
  · trivial
  · trivial
  · trivial

theorem inv_cancelActive (h : Inv (fun _ => False) c) {t : String} (hfinal : Final c t)
    (hx : c.registry.activeByTask.get t = some x) :
    Inv (· = t) { c with registry := c.registry.cancelActive x } := by
  have hid := h.keyed t x hx
  have hconf : Confined (· = t) c.registry (c.registry.cancelActive x) := confined_cancelActive hid
  have hadv : Advance (fun _ => False) c { c with registry := c.registry.cancelActive x } :=
    advance_of_confined h (confined_cancelActive id) rfl rfl rfl id
  have hkeep := hadv.inv
  refine ⟨hkeep.keyed, hkeep.numbered, hkeep.fresh, hkeep.owned, hkeep.fallback, fun s y hy hs => ?_,
    fun rid y hy hyt => ?_, fun s f hf hs => ?_, fun y call hy hyt => ⟨?_, fun o ho => ?_⟩⟩
  · simp [cancelActive_activeByTask, hid, hs] at hy
  · have hyt : (c.registry.cancelActive x).taskId y = t := hyt
    rw [hconf.taskId] at hyt
    simp only [cancelActive_taskByRun] at hy
    have hold : c.registry.taskByRun.get rid = some y := by
      split at hy
      · exact hy
      · rw [OrderedMap.get_delete] at hy
        split at hy
        · cases hy
        · exact hy
    obtain ⟨x', hx', rfl, hne⟩ := hfinal.runs rid y hold hyt
    rw [hx, Option.some.injEq] at hx'
    subst hx'
    simp [hne] at hy
  · have hf : c.fallbackByTask.get s = some f := hf
    rw [hs, hfinal.unlisted x hx] at hf
    cases hf
  · exact resting_cancelActive (hfinal.resting y call hy hyt) (hfinal.accepted x hx)
  · rcases hfinal.shutDown y call o hy hyt ho with hshut | ⟨-, hnone, -⟩
    · exact hshut
    · rw [hnone] at hx
      cases hx

/-- A step of call `x` alone that writes to the log and lets `f` act on its one-shot client. -/
structure CallFrame (f : OneShot → OneShot) (c c' : Client) (x : Nat) : Prop where
  tasks : c'.registry.tasks = c.registry.tasks
  active : c'.registry.activeByTask = c.registry.activeByTask
  runs : c'.registry.taskByRun = c.registry.taskByRun
  connection : c'.connection = c.connection
  others : ∀ y, y ≠ x → c'.calls y = c.calls y
  own : ∀ call', c'.calls x = some call' → ∃ call, c.calls x = some call ∧
    call'.phase = call.phase ∧ call'.input = call.input ∧ call'.oneShot = call.oneShot.map f

/-- The registry and the calls look the same. -/
theorem callFrame_of_eq (htasks : c'.registry.tasks = c.registry.tasks)
    (hactive : c'.registry.activeByTask = c.registry.activeByTask)
    (hruns : c'.registry.taskByRun = c.registry.taskByRun)
    (hconn : c'.connection = c.connection) (hcalls : c'.calls = c.calls) (x : Nat) :
    CallFrame id c c' x :=
  ⟨htasks, hactive, hruns, hconn, fun y _ => by rw [hcalls], fun call h =>
    ⟨call, hcalls ▸ h, rfl, rfl, by simp⟩⟩

theorem CallFrame.trans {f g : OneShot → OneShot} {c'' : Client} (h : CallFrame f c c' x)
    (h' : CallFrame g c' c'' x) : CallFrame (g ∘ f) c c'' x where
  tasks := h'.tasks.trans h.tasks
  active := h'.active.trans h.active
  runs := h'.runs.trans h.runs
  connection := h'.connection.trans h.connection
  others := fun y hy => (h'.others y hy).trans (h.others y hy)
  own := by
    intro call'' h''
    obtain ⟨call', hcall', hp', hi', ho'⟩ := h'.own call'' h''
    obtain ⟨call, hcall, hp, hi, ho⟩ := h.own call' hcall'
    exact ⟨call, hcall, hp'.trans hp, hi'.trans hi, by rw [ho', ho, Option.map_map]⟩

/-- A call whose one-shot client changes by `f`. -/
theorem callFrame_setCall {call' : Call} {f : OneShot → OneShot} (hx : c.calls x = some call)
    (hp : call'.phase = call.phase) (hi : call'.input = call.input)
    (ho : call'.oneShot = call.oneShot.map f) : CallFrame f c (c.setCall x call') x := by
  refine ⟨rfl, rfl, rfl, rfl, fun y hy => by simp [Client.setCall, hy], fun call₁ h => ?_⟩
  simp only [Client.setCall, Function.update_self, Option.some.injEq] at h
  subst h
  exact ⟨call, hx, hp, hi, ho⟩

theorem callFrame_settleOneShot (c : Client) (x : Nat)
    (settle : Promise GatewayError Accepted → Promise GatewayError Accepted) :
    CallFrame id c (c.settleOneShot x settle) x := by
  unfold Client.settleOneShot
  split
  · rename_i call hcall
    exact callFrame_setCall hcall rfl rfl (by simp)
  · exact callFrame_of_eq rfl rfl rfl rfl rfl x

theorem callFrame_onEffect (c : Client) (x : Nat) (t : String) (e : Effect) :
    CallFrame id c (Client.onEffect x t c e) x := by
  cases e with
  | event event => apply callFrame_of_eq <;> rfl
  | send request => apply callFrame_of_eq <;> rfl
  | httpRequest => apply callFrame_of_eq <;> rfl
  | resolve accepted => exact callFrame_settleOneShot c x fun p => p.resolve accepted
  | reject error => exact callFrame_settleOneShot c x fun p => p.reject error

theorem callFrame_effects (x : Nat) (t : String) (es : List Effect) (c : Client) :
    CallFrame id c (es.foldl (Client.onEffect x t) c) x := by
  induction es generalizing c with
  | nil => exact callFrame_of_eq rfl rfl rfl rfl rfl x
  | cons e es ih => exact (callFrame_onEffect c x t e).trans (ih _)

/-- `cancel` of the one-shot client of call `x`, if it has one, cleans it up. -/
theorem callFrame_cancel (opts : Options) (c : Client) (x : Nat) :
    CallFrame OneShot.cleanup c ((c.stepOneShot opts x .cancel).getD c) x := by
  have hnone : (∀ call, c.calls x = some call → call.oneShot = none) →
      CallFrame OneShot.cleanup c c x := fun h =>
    ⟨rfl, rfl, rfl, rfl, fun _ _ => rfl, fun call hx => ⟨call, hx, rfl, rfl, by simp [h call hx]⟩⟩
  cases hcall : c.calls x with
  | none =>
    simp only [Client.stepOneShot, hcall, Option.bind_eq_bind, Option.bind_none, Option.getD_none]
    exact hnone fun call hx => by simp [hcall] at hx
  | some call =>
    cases hone : call.oneShot with
    | none =>
      simp only [Client.stepOneShot, hcall, hone, Option.bind_eq_bind, Option.bind_some,
        Option.bind_none, Option.getD_none]
      exact hnone fun call' hx => Option.some.inj (hcall.symm.trans hx) ▸ hone
    | some o =>
      simp only [Client.stepOneShot, hcall, hone, Option.bind_eq_bind, Option.bind_some,
        Option.getD_some, OneShot.step, OneShot.cancel]
      have hset : CallFrame OneShot.cleanup c (c.setCall x { call with oneShot := some o.cleanup }) x :=
        callFrame_setCall hcall rfl rfl (by simp [hone])
      exact hset.trans (callFrame_effects x call.input.taskId _ _)

theorem shutDown_cleanup {o : OneShot} (h : o.httpPending = none) : ShutDown o.cleanup :=
  ⟨rfl, rfl, h⟩

theorem inv_cancelFallback (h : Inv (fun _ => False) c) {t : String} {f : Fallback}
    (hfinal : Final c t) (hnone : c.registry.activeByTask.get t = none)
    (hf : c.fallbackByTask.get t = some f) : Inv (· = t) (c.cancelFallback opts t f) := by
  have hkeep := (advance_cancelFallback opts h hf).inv
  have hframe := callFrame_cancel opts c f.call
  have htasks : (c.cancelFallback opts t f).registry.tasks = c.registry.tasks := hframe.tasks
  have hactive : (c.cancelFallback opts t f).registry.activeByTask = c.registry.activeByTask :=
    hframe.active
  have hruns : (c.cancelFallback opts t f).registry.taskByRun = c.registry.taskByRun := hframe.runs
  refine ⟨hkeep.keyed, hkeep.numbered, hkeep.fresh, hkeep.owned, hkeep.fallback, fun s y hy hs => ?_,
    fun rid y hy hyt => ?_, fun s f' hf' hs => ?_, fun y call' hy hyt => ?_⟩
  · rw [hactive, hs, hnone] at hy
    cases hy
  · rw [hruns] at hy
    simp only [taskId, htasks] at hyt
    obtain ⟨x, hx, -, -⟩ := hfinal.runs rid y hy hyt
    rw [hnone] at hx
    cases hx
  · simp [Client.cancelFallback, hs] at hf'
  · have hconn : (c.cancelFallback opts t f).connection = c.connection := hframe.connection
    have hcall : ∃ call, c.calls y = some call ∧ call'.phase = call.phase ∧
        call'.input = call.input ∧ ((y ≠ f.call ∧ call'.oneShot = call.oneShot) ∨
          call'.oneShot = call.oneShot.map OneShot.cleanup) := by
      by_cases hyf : y = f.call
      · subst hyf
        obtain ⟨call, hc, hp, hi, ho⟩ := hframe.own call' hy
        exact ⟨call, hc, hp, hi, .inr ho⟩
      · exact ⟨call', (hframe.others y hyf) ▸ hy, rfl, rfl, .inl ⟨hyf, rfl⟩⟩
    obtain ⟨call, hc, hp, hi, hone⟩ := hcall
    rw [hi] at hyt
    refine ⟨?_, fun o ho => ?_⟩
    · have hrest := hfinal.resting y call hc hyt
      unfold Resting at hrest ⊢
      rw [hp, hconn, htasks]
      exact hrest
    · rcases hone with ⟨hyf, hone⟩ | hone
      · rw [hone] at ho
        rcases hfinal.shutDown y call o hc hyt ho with hshut | ⟨-, -, f', hf', hcall'⟩
        · exact hshut
        · rw [hf, Option.some.injEq] at hf'
          exact absurd (hf' ▸ hcall'.symm) hyf
      · rw [hone, Option.map_eq_some_iff] at ho
        obtain ⟨o', ho', rfl⟩ := ho
        rcases hfinal.shutDown y call o' hc hyt ho' with hshut | ⟨hhttp, -, -⟩
        · exact shutDown_cleanup hshut.httpPending
        · exact shutDown_cleanup hhttp

/-- Everything that was sent for the task and everything that its handlers received. -/
def written (t : String) (c : Client) : List Entry := c.registry.log.filter fun e => e.taskId = t

theorem Advance.written {t : String} (h : Advance (· = t) c c') : written t c' = written t c := by
  obtain ⟨es, hes, hts⟩ := h.log
  have hnil : es.filter (fun e => e.taskId = t) = [] := by
    rw [List.filter_eq_nil_iff]
    intro e he
    simpa using hts e he
  simp [Cancellation.written, hes, List.filter_append, hnil]

theorem inv_cancel (h : Inv (fun _ => False) c) {t : String} (hfinal : Final c t)
    {result : CancelResult} (hcancel : (c.cancel opts t).1 = .ok (some result)) :
    Inv (· = t) (c.cancel opts t).2 := by
  cases hx : c.registry.activeByTask.get t with
  | none =>
    cases hf : c.fallbackByTask.get t with
    | none => simp [Client.cancel, hx, hf] at hcancel
    | some f =>
      simp only [Client.cancel, hx, hf]
      exact inv_cancelFallback h hfinal hx hf
  | some x =>
    by_cases hopen : c.connection.isOpen = true
    · simp only [Client.cancel, hx, hopen, if_true]
      exact inv_cancelActive h hfinal hx
    · simp [Client.cancel, hx, hopen] at hcancel

/-- A cancellation that returns a result under `Final` is the last thing that is written for the
task, whatever happens afterwards, until the task is executed again. -/
theorem cancel_final {ls ms : List Label} {t : String} {result : CancelResult}
    (hrun : run (Client.step opts) Client.init ls = some c) (hfinal : Final c t)
    (hcancel : (c.cancel opts t).1 = .ok (some result))
    (hspare : ∀ input, Label.execute input ∈ ms → input.taskId ≠ t)
    (hcont : run (Client.step opts) (c.cancel opts t).2 ms = some c') :
    written t c' = written t (c.cancel opts t).2 := by
  have hinv := inv_cancel (inv_of_run hrun) hfinal hcancel
  refine (advance_run hinv (fun l hl => ?_) hcont).written
  cases l with
  | execute input => exact hspare input hl
  | _ => trivial

/-- The cancellation of an accepted task, and the gateway's answer to the abort. -/
theorem cancel_final_accepted :
    ∃ c c', run (Client.step defaultOptions) Client.init acceptedRun = some c ∧
      run (Client.step defaultOptions) (c.cancel defaultOptions "t").2
        [.message 0 (.chat { runId := some "r", state := some "aborted" })] = some c' ∧
      written "t" c' = written "t" (c.cancel defaultOptions "t").2 := by
  have hfacts : (run (Client.step defaultOptions) Client.init acceptedRun).any (fun c =>
      decide (c.nextCall = 1) && decide (c.registry.activeByTask.get "t" = some 0) &&
      c.registry.accepted 0 && decide (c.fallbackByTask.get "t" = none) &&
      decide (c.registry.taskByRun.entries = [((c.registry.tasks 0).runId, 0)]) &&
      decide ((c.registry.tasks 0).runId ≠ "") && c.connection.isOpen &&
      (c.calls 0).all (fun call => decide (call.phase = .awaiting) && call.oneShot.isNone) &&
      (run (Client.step defaultOptions) (c.cancel defaultOptions "t").2
        [.message 0 (.chat { runId := some "r", state := some "aborted" })]).isSome) = true := by
    decide
  obtain ⟨c, hrun, hc⟩ := (Option.any_eq_true _ _).mp hfacts
  simp only [Bool.and_eq_true, decide_eq_true_eq, Option.all_eq_true, Option.isNone_iff_eq_none] at hc
  obtain ⟨⟨⟨⟨⟨⟨⟨⟨hnext, hact⟩, hacc⟩, hfall⟩, hruns⟩, hne⟩, hopen⟩, hcalls⟩, hsome⟩ := hc
  obtain ⟨c', hcont⟩ := Option.isSome_iff_exists.mp hsome
  have hinv := inv_of_run hrun
  have hzero : ∀ y call, c.calls y = some call → y = 0 := by
    intro y call hy
    have hlt : ¬ c.nextCall ≤ y := fun hle => by
      rw [hinv.numbered y hle] at hy
      cases hy
    omega
  have hfinal : Final c "t" := by
    refine ⟨fun x hx => ?_, fun _ _ => hfall, fun rid y hy _ => ?_, fun y call hy _ => ?_,
      fun y call o hy _ ho => ?_⟩
    · rw [hact, Option.some.injEq] at hx
      exact .inl (hx ▸ hacc)
    · rw [OrderedMap.get_eq_some_iff, hruns, List.mem_singleton, Prod.mk.injEq] at hy
      exact ⟨0, hact, hy.1, hy.1 ▸ hne⟩
    · obtain rfl := hzero y call hy
      simp only [Resting, (hcalls call hy).1]
      refine .inr fun e he => ?_
      rw [Registry.accepted, he] at hacc
      cases hacc
    · obtain rfl := hzero y call hy
      rw [(hcalls call hy).2] at ho
      cases ho
  have hres : (c.cancel defaultOptions "t").1 = .ok (some
      ⟨"t", (c.registry.tasks 0).input.sessionId, orElse (c.registry.tasks 0).runId "t"⟩) := by
    simp [Client.cancel, hact, hopen]
  refine ⟨c, c', hrun, hcont, cancel_final hrun hfinal hres (fun input hin => ?_) hcont⟩
  simp at hin

/-- A task that is cancelled before the gateway has accepted it. -/
def sentRun : List Label :=
  [.execute ⟨"t", "s", "hello"⟩, .prepared 0 (.ok ⟨"hello", []⟩), .opened 0,
    .message 0 (.ok Client.connectRequestId none none), .resume 0]

/-- What the fallback does after that cancellation. -/
def fallbackRun : List Label :=
  [.resume 0, .prepared 0 (.ok ⟨"hello", []⟩), .oneShot 0 .opened,
    .oneShot 0 (.message (.ok GatewayClient.connectRequestId none none))]

def isChatSend : Effect → Bool
  | .send (.chatSend ..) => true
  | _ => false

/-- The task is sent to the gateway once more after its cancellation has returned a result. -/
theorem chatSend_after_cancel :
    ∃ c result c', run (Client.step defaultOptions) Client.init sentRun = some c ∧
      (c.cancel defaultOptions "t").1 = .ok (some result) ∧
      run (Client.step defaultOptions) (c.cancel defaultOptions "t").2 fallbackRun = some c' ∧
      (∀ input, Label.execute input ∉ fallbackRun) ∧
      (written "t" (c.cancel defaultOptions "t").2).countP (fun e => isChatSend e.effect) = 1 ∧
      (written "t" c').countP (fun e => isChatSend e.effect) = 2 := by
  have hfacts : (run (Client.step defaultOptions) Client.init sentRun).any (fun c =>
      decide ((c.cancel defaultOptions "t").1.toOption = some (some ⟨"t", "s", "t"⟩)) &&
      decide ((written "t" (c.cancel defaultOptions "t").2).countP (fun e => isChatSend e.effect) = 1) &&
      (run (Client.step defaultOptions) (c.cancel defaultOptions "t").2 fallbackRun).any
        fun c' => decide ((written "t" c').countP (fun e => isChatSend e.effect) = 2)) = true := by
    decide
  obtain ⟨c, hrun, hc⟩ := (Option.any_eq_true _ _).mp hfacts
  simp only [Bool.and_eq_true, decide_eq_true_eq] at hc
  obtain ⟨⟨hres, hone⟩, hcont⟩ := hc
  obtain ⟨c', hcont, htwo⟩ := (Option.any_eq_true _ _).mp hcont
  have hres : (c.cancel defaultOptions "t").1 = .ok (some ⟨"t", "s", "t"⟩) := by
    cases hv : (c.cancel defaultOptions "t").1 with
    | error e => simp [hv, Except.toOption] at hres
    | ok v => simpa [hv, Except.toOption] using hres
  refine ⟨c, _, c', hrun, hres, hcont, fun input hin => ?_, hone, by simpa using htwo⟩
  simp [fallbackRun] at hin

end Cancellation
