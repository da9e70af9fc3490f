import ClawWork.ConversationStream
import ClawWork.StreamCodec

/-!
# What a new subscription adds to the conversation

The store gets the events that the subscriptions to the task receive, one subscription after
the other, and each of them receives the first events of the log. So the messages are those of
the log as long as nothing has been shown before the last subscription.
-/

namespace Resubscription

open SharedTypes TaskStore TasksService ConversationStore StreamedMessages ConversationStream
open StreamSubscription (Wire Server Subscription Action)
open ReconnectDelivery (received trace_noteId trace_onEvent)
open Transition (run Along Throughout)

variable {w : Wire TaskStreamEvent} {servers : String → Server w} {taskId : String} {s₀ : TaskState}
  {s s' : Screen} {l : Label}

/-! ## The actions of one step of a subscription -/

section
variable {server : Server w} {sub sub' : Subscription TaskStreamEvent} {closes : TaskStreamEvent → Bool}

open StreamSubscription.Subscription

theorem trace_flushLoop (left : List Char) (sub : Subscription TaskStreamEvent) (raws : List (List Char)) :
    sub.trace <+: (flushLoop w closes left sub raws).1.trace := by
  induction raws generalizing sub with
  | nil => exact List.prefix_refl _
  | cons raw raws ih =>
    rw [flushLoop]
    dsimp only
    split
    · have hrest := ih (sub.noteId (raw.splitOn '\n'))
      rwa [trace_noteId] at hrest
    · split
      · exact (trace_noteId (s := sub) _).symm ▸ List.prefix_rfl
      · rename_i e _
        have hevent : sub.trace <+: ((sub.noteId (raw.splitOn '\n')).onEvent closes e).trace := by
          rw [trace_onEvent, trace_noteId]
          exact List.prefix_append _ _
        split
        · exact hevent.trans (List.prefix_append _ _)
        · exact hevent.trans (ih _)

theorem trace_flush (n : Nat) : sub.trace <+: (sub.flush w closes n).trace := by
  unfold flush
  dsimp only
  split
  · exact List.prefix_refl _
  · split
    · exact List.prefix_refl _
    · exact trace_flushLoop _ (sub.setRequest n _) _

theorem trace_retry (n : Nat) (message : String) : sub.trace <+: (sub.retry n message).trace := by
  unfold retry
  split
  · exact List.prefix_refl _
  · split
    · exact List.prefix_refl _
    · dsimp only
      split
      · exact List.prefix_append _ _
      · exact List.prefix_refl _

theorem trace_onReadyStateChange (n readyState status : Nat) :
    sub.trace <+: (sub.onReadyStateChange w closes n readyState status).trace := by
  unfold onReadyStateChange
  split
  · exact List.prefix_refl _
  · have hflushed : sub.trace <+:
        (if readyState = 3 ∨ readyState = 4 then sub.flush w closes n else sub).trace := by
      split
      · exact trace_flush n
      · exact List.prefix_refl _
    dsimp only
    generalize (if readyState = 3 ∨ readyState = 4 then sub.flush w closes n else sub) = sub₁ at hflushed ⊢
    split
    · exact hflushed.trans (trace_retry n _)
    · exact hflushed

theorem trace_connect (sub : Subscription TaskStreamEvent) : sub.trace <+: sub.connect.trace := by
  unfold connect
  split
  · exact List.prefix_refl _
  · exact List.prefix_append _ _

/-- A step of a subscription adds to its actions. -/
theorem trace_step {label : StreamSubscription.Label}
    (hstep : StreamSubscription.step server closes sub label = some sub') : sub.trace <+: sub'.trace := by
  cases label with
  | receive n text =>
    simp only [StreamSubscription.step, Option.ite_none_right_eq_some, Option.some.injEq] at hstep
    obtain ⟨-, rfl⟩ := hstep
    exact List.prefix_refl _
  | progress n =>
    simp only [StreamSubscription.step, Option.ite_none_right_eq_some, Option.some.injEq] at hstep
    obtain ⟨-, rfl⟩ := hstep
    exact trace_flush n
  | readyState n readyState status =>
    simp only [StreamSubscription.step, Option.ite_none_right_eq_some, Option.some.injEq] at hstep
    obtain ⟨-, rfl⟩ := hstep
    exact trace_onReadyStateChange n readyState status
  | error n =>
    simp only [StreamSubscription.step, Option.ite_none_right_eq_some, Option.some.injEq] at hstep
    obtain ⟨-, rfl⟩ := hstep
    exact trace_retry n _
  | timer =>
    simp only [StreamSubscription.step, Option.ite_none_right_eq_some, Option.some.injEq] at hstep
    obtain ⟨-, rfl⟩ := hstep
    exact trace_connect { sub with retryTimer := false }
  | close =>
    cases hstep
    exact (ReconnectDelivery.trace_close (s := sub)).symm ▸ List.prefix_rfl

/-- A subscription that has been closed does nothing any more. -/
theorem trace_of_closed (hclosed : sub.closed = true) {label : StreamSubscription.Label}
    (hstep : StreamSubscription.step server closes sub label = some sub') :
    sub'.trace = sub.trace ∧ sub'.closed = true := by
  cases label with
  | receive n text =>
    simp only [StreamSubscription.step, Option.ite_none_right_eq_some, Option.some.injEq] at hstep
    obtain ⟨-, rfl⟩ := hstep
    exact ⟨rfl, hclosed⟩
  | progress n =>
    simp only [StreamSubscription.step, Option.ite_none_right_eq_some, Option.some.injEq] at hstep
    obtain ⟨-, rfl⟩ := hstep
    simp [flush, hclosed]
  | readyState n readyState status =>
    simp only [StreamSubscription.step, Option.ite_none_right_eq_some, Option.some.injEq] at hstep
    obtain ⟨-, rfl⟩ := hstep
    simp [onReadyStateChange, hclosed]
  | error n =>
    simp only [StreamSubscription.step, Option.ite_none_right_eq_some, Option.some.injEq] at hstep
    obtain ⟨-, rfl⟩ := hstep
    simp [retry, hclosed]
  | timer =>
    simp only [StreamSubscription.step, Option.ite_none_right_eq_some, Option.some.injEq] at hstep
    obtain ⟨-, rfl⟩ := hstep
    simp [connect, hclosed]
  | close =>
    cases hstep
    simp [Subscription.close, hclosed]

end

/-! ## The handlers -/

/-- What the handlers of some actions have done. -/
structure Handled (actions : List (Action TaskStreamEvent)) (s s' : Screen) : Prop where
  streamStore : s'.streamStore = s.streamStore ++ actions.filterMap received
  messages : s'.store.messages = (actions.filterMap received).foldl applyMessage s.store.messages
  streams : s'.streams = s.streams
  cleanup : s'.cleanup = s.cleanup
  rendered : s'.rendered = s.rendered
  deps : s'.deps = s.deps

theorem handled_foldl (taskId : String) (actions : List (Action TaskStreamEvent)) (s : Screen) :
    Handled actions s (actions.foldl (Screen.handle taskId) s) := by
  induction actions generalizing s with
  | nil => exact ⟨(List.append_nil _).symm, rfl, rfl, rfl, rfl, rfl⟩
  | cons a actions ih =>
    rw [List.foldl_cons]
    have hrest := ih (Screen.handle taskId s a)
    cases a with
    | opened id => exact ⟨hrest.streamStore, hrest.messages, hrest.streams, hrest.cleanup, hrest.rendered,
        hrest.deps⟩
    | event e =>
      refine ⟨?_, ?_, hrest.streams, hrest.cleanup, hrest.rendered, hrest.deps⟩
      · rw [hrest.streamStore]
        exact List.append_assoc _ _ _
      · rw [hrest.messages]
        exact congrArg (fun ms => (actions.filterMap received).foldl applyMessage ms)
          (applyStreamEvent_messages s.store e)
    | complete =>
      have hsame : Screen.handle taskId s .complete = s ∨ Screen.handle taskId s .complete =
          { s with activeTaskIdRef := none, activeSubscriptionRef := none } := by
        unfold Screen.handle
        dsimp only
        split
        · exact .inr rfl
        · exact .inl rfl
      rcases hsame with hsame | hsame <;> rw [hsame] at hrest ⊢ <;>
        exact ⟨hrest.streamStore, hrest.messages, hrest.streams, hrest.cleanup, hrest.rendered, hrest.deps⟩
    | error message =>
      exact ⟨hrest.streamStore, hrest.messages, hrest.streams, hrest.cleanup, hrest.rendered, hrest.deps⟩

theorem current_foldl {actions : List (Action TaskStreamEvent)}
    (htask : ∀ e ∈ actions.filterMap received, e.taskId = taskId) (h : s.store.currentTaskId = some taskId) :
    (actions.foldl (Screen.handle taskId) s).store.currentTaskId = some taskId := by
  induction actions generalizing s with
  | nil => exact h
  | cons a actions ih =>
    rw [List.foldl_cons]
    cases a with
    | opened id => exact ih htask h
    | event e =>
      refine ih (fun e' he' => htask e' (List.mem_cons_of_mem _ he')) ?_
      show (s.store.applyStreamEvent e).currentTaskId = some taskId
      rw [TaskState.applyStreamEvent_currentTaskId, htask e List.mem_cons_self]
    | complete =>
      refine ih htask ?_
      unfold Screen.handle
      dsimp only
      split <;> exact h
    | error message => exact ih htask h

/-! ## The streams one after the other -/

/-- The events that a stream has delivered. -/
def receivedOf (stream : Stream) : List TaskStreamEvent := stream.subscription.trace.filterMap received

/-- The log of a task: its events, of which only the last one ends it. -/
structure TaskLog (taskId : String) (log : List (Nat × TaskStreamEvent)) : Prop where
  task : ∀ p ∈ log, p.2.taskId = taskId
  last : ∀ p ∈ log.dropLast, p.2.isTerminal = false

structure Inv (servers : String → Server w) (taskId : String) (s₀ : TaskState) (s : Screen) : Prop where
  streams : ∀ stream ∈ s.streams, stream.taskId = taskId ∧
    ReconnectDelivery.Inv (servers taskId) stream.subscription
  opened : ∀ i stream, s.streams[i]? = some stream → stream.subscription.closed = false →
    s.cleanup = some (taskId, i)
  last : ∀ t i, s.cleanup = some (t, i) → i + 1 = s.streams.length
  streamStore : s.streamStore = s.streams.flatMap receivedOf
  messages : s.store.messages = s.streamStore.foldl applyMessage s₀.messages
  current : s.store.currentTaskId = some taskId
  rendered : s.rendered.1 = some taskId

theorem received_isPrefix {server : Server w} {sub : Subscription TaskStreamEvent}
    (h : ReconnectDelivery.Inv server sub) :
    sub.trace.filterMap received <+: server.log.map Prod.snd := by
  obtain ⟨done, rest, hreached, -⟩ := h.progress
  rw [hreached.events, hreached.log, List.map_append]
  exact List.prefix_append _ _

theorem inv_mount (h : s₀.currentTaskId = some taskId) : Inv servers taskId s₀ (.mount s₀) where
  streams := fun stream hmem => by cases hmem
  opened := fun i stream hi => by cases hi
  last := fun t i hi => by cases hi
  streamStore := rfl
  messages := rfl
  current := h
  rendered := h

theorem flatMap_set_same {α β : Type*} {xs : List α} {n : Nat} {x : α} (hx : xs[n]? = some x) (y : α)
    (f : α → List β) (hsame : f y = f x) : (xs.set n y).flatMap f = xs.flatMap f := by
  obtain ⟨hn, rfl⟩ := List.getElem?_eq_some_iff.mp hx
  rw [List.flatMap_def, List.map_set, hsame, ← List.map_set, List.set_getElem_self, List.flatMap_def]

theorem flatMap_set_last {α β : Type*} {xs : List α} {n : Nat} (hn : n + 1 = xs.length) {x : α}
    (hx : xs[n]? = some x) (y : α) (f : α → List β) {more : List β} (hmore : f y = f x ++ more) :
    (xs.set n y).flatMap f = xs.flatMap f ++ more := by
  obtain ⟨before, rfl⟩ : ∃ before, xs = before ++ [x] := by
    refine ⟨xs.dropLast, getLast_eq ?_⟩
    rw [List.getLast?_eq_getElem?, ← hn]
    exact hx
  have hlength : n = before.length := by simpa using hn
  rw [hlength, List.set_append_right _ _ (Nat.le_refl _)]
  simp [hmore]

/-- A step of a subscription, closed or not. -/
theorem inv_stepStream (hlog : TaskLog taskId (servers taskId).log) (h : Inv servers taskId s₀ s) {n : Nat}
    {label : StreamSubscription.Label} (hstep : stepStream servers s n label = some s') :
    Inv servers taskId s₀ s' ∧ s'.streams.length = s.streams.length ∧
      ∀ i stream, s'.streams[i]? = some stream → i + 1 < s.streams.length →
        ∃ stream', s.streams[i]? = some stream' ∧ receivedOf stream = receivedOf stream' := by
  obtain ⟨stream, hn, hstep⟩ := Option.bind_eq_some_iff.mp hstep
  obtain ⟨subscription, hsub, hstep⟩ := Option.bind_eq_some_iff.mp hstep
  dsimp only at hstep
  generalize hactions : subscription.trace.drop stream.subscription.trace.length = actions at hstep
  obtain ⟨rfl, hinv⟩ := h.streams stream (List.mem_of_getElem? hn)
  have hinv' : ReconnectDelivery.Inv (servers stream.taskId) subscription :=
    ReconnectDelivery.inv_step hinv hsub
  have htrace : subscription.trace = stream.subscription.trace ++ actions := by
    obtain ⟨more, hmore⟩ := trace_step hsub
    rw [← hactions, ← hmore, List.drop_left]
  have hreceived : receivedOf { stream with subscription } = receivedOf stream ++ actions.filterMap received := by
    rw [receivedOf, htrace, List.filterMap_append, receivedOf]
  have htask : ∀ e ∈ actions.filterMap received, e.taskId = stream.taskId := by
    intro e he
    have hmem : e ∈ receivedOf { stream with subscription } := by
      rw [hreceived]
      exact List.mem_append_right _ he
    obtain ⟨p, hp, rfl⟩ := List.mem_map.mp ((received_isPrefix hinv').subset hmem)
    exact hlog.task p hp
  have hquiet : stream.subscription.closed = true → actions = [] ∧ subscription.closed = true := by
    intro hclosed
    obtain ⟨hsame, hstill⟩ := trace_of_closed hclosed hsub
    rw [htrace, List.append_right_eq_self] at hsame
    exact ⟨hsame, hstill⟩
  have hlast : actions ≠ [] → n + 1 = s.streams.length := by
    intro hne
    cases hclosed : stream.subscription.closed with
    | true => exact absurd (hquiet hclosed).1 hne
    | false => exact h.last _ _ (h.opened n stream hn hclosed)
  have hhandled := handled_foldl stream.taskId actions
    { s with streams := s.streams.set n { stream with subscription } }
  have hcurrent := current_foldl (s := { s with streams := s.streams.set n { stream with subscription } })
    htask h.current
  cases hstep
  refine ⟨⟨?_, ?_, ?_, ?_, ?_, hcurrent, ?_⟩, ?_, ?_⟩
  · rw [hhandled.streams]
    intro x hx
    rcases List.mem_or_eq_of_mem_set hx with hx | rfl
    · exact h.streams x hx
    · exact ⟨rfl, hinv'⟩
  · rw [hhandled.streams, hhandled.cleanup]
    intro i x hi hopen
    dsimp only at hi ⊢
    rw [List.getElem?_set] at hi
    split at hi
    · rename_i heq
      subst heq
      have hstream : stream.subscription.closed = false := by
        cases hclosed : stream.subscription.closed with
        | false => rfl
        | true =>
          split at hi
          · cases hi
            exact absurd ((hquiet hclosed).2.symm.trans hopen) (by decide)
          · cases hi
      exact h.opened n stream hn hstream
    · exact h.opened i x hi hopen
  · rw [hhandled.streams, hhandled.cleanup, List.length_set]
    exact h.last
  · rw [hhandled.streamStore, hhandled.streams, h.streamStore]
    dsimp only
    by_cases hne : actions = []
    · rw [hne] at hreceived ⊢
      rw [flatMap_set_same hn _ receivedOf (hreceived.trans (List.append_nil _))]
      exact List.append_nil _
    · exact (flatMap_set_last (hlast hne) hn _ receivedOf hreceived).symm
  · rw [hhandled.messages, hhandled.streamStore, List.foldl_append]
    dsimp only
    rw [h.messages]
  · rw [hhandled.rendered]
    exact h.rendered
  · rw [hhandled.streams, List.length_set]
  · rw [hhandled.streams]
    intro i x hi hbefore
    dsimp only at hi
    rw [List.getElem?_set] at hi
    split at hi
    · rename_i heq
      subst heq
      split at hi
      · cases hi
        have hne : actions = [] := by
          by_contra hne
          have := hlast hne
          omega
        refine ⟨stream, hn, ?_⟩
        rw [hreceived, hne]
        exact List.append_nil _
      · cases hi
    · exact ⟨x, hi, rfl⟩

/-! ## The effect -/

/-- The stream is the same one, open or closed. -/
structure Kept (w : Wire TaskStreamEvent) (stream stream' : Stream) : Prop where
  taskId : stream'.taskId = stream.taskId
  received : receivedOf stream' = receivedOf stream
  closed : stream.subscription.closed = true → stream'.subscription.closed = true
  inv : ∀ server : Server w, ReconnectDelivery.Inv server stream.subscription →
    ReconnectDelivery.Inv server stream'.subscription

theorem Kept.refl (stream : Stream) : Kept w stream stream := ⟨rfl, rfl, id, fun _ => id⟩

theorem Kept.trans {stream stream' stream'' : Stream} (h : Kept w stream stream') (h' : Kept w stream' stream'') :
    Kept w stream stream'' :=
  ⟨h'.taskId.trans h.taskId, h'.received.trans h.received, h'.closed ∘ h.closed,
    fun server => h'.inv server ∘ h.inv server⟩

theorem closed_close (sub : Subscription TaskStreamEvent) : sub.close.closed = true := by
  unfold Subscription.close
  split
  · assumption
  · rfl

theorem kept_close (stream : Stream) :
    Kept w stream { stream with subscription := stream.subscription.close } where
  taskId := rfl
  received := by rw [receivedOf, ReconnectDelivery.trace_close, receivedOf]
  closed := fun _ => closed_close stream.subscription
  inv := fun _ => ReconnectDelivery.inv_close

/-- Nothing changes on the screen but which streams are open. -/
structure Closes (w : Wire TaskStreamEvent) (s s' : Screen) : Prop where
  length : s'.streams.length = s.streams.length
  streams : ∀ (i : Nat) (stream' : Stream), s'.streams[i]? = some stream' →
    ∃ stream, s.streams[i]? = some stream ∧ Kept w stream stream'
  flatMap : s'.streams.flatMap receivedOf = s.streams.flatMap receivedOf
  store : s'.store = s.store
  streamStore : s'.streamStore = s.streamStore
  rendered : s'.rendered = s.rendered

theorem Closes.trans {s'' : Screen} (h : Closes w s s') (h' : Closes w s' s'') : Closes w s s'' := by
  refine ⟨h'.length.trans h.length, fun i stream'' hi => ?_, h'.flatMap.trans h.flatMap, h'.store.trans h.store,
    h'.streamStore.trans h.streamStore, h'.rendered.trans h.rendered⟩
  obtain ⟨stream', hi', hkept'⟩ := h'.streams i stream'' hi
  obtain ⟨stream, hi, hkept⟩ := h.streams i stream' hi'
  exact ⟨stream, hi, hkept.trans hkept'⟩

/-- The same streams on another screen. -/
theorem closes_of_streams (hstreams : s'.streams = s.streams) (hstore : s'.store = s.store)
    (hpushed : s'.streamStore = s.streamStore) (hrendered : s'.rendered = s.rendered) : Closes w s s' := by
  refine ⟨by rw [hstreams], fun i stream hi => ?_, by rw [hstreams], hstore, hpushed, hrendered⟩
  rw [hstreams] at hi
  exact ⟨stream, hi, .refl stream⟩

theorem closes_closeStream (s : Screen) (n : Nat) : Closes w s (s.closeStream n) := by
  have hget : ∀ i : Nat, (s.closeStream n).streams[i]? = s.streams[i]?.map fun stream =>
      if n = i then { stream with subscription := stream.subscription.close } else stream :=
    fun i => List.getElem?_modify ..
  refine ⟨List.length_modify _ _ _, fun i stream' hi => ?_, ?_, rfl, rfl, rfl⟩
  · rw [hget, Option.map_eq_some_iff] at hi
    obtain ⟨stream, hstream, rfl⟩ := hi
    refine ⟨stream, hstream, ?_⟩
    split
    · exact kept_close stream
    · exact .refl stream
  · rw [List.flatMap_def, List.flatMap_def]
    congr 1
    apply List.ext_getElem?
    intro i
    rw [List.getElem?_map, List.getElem?_map, hget, Option.map_map]
    congr 1
    funext stream
    dsimp only [Function.comp]
    split
    · exact (kept_close (w := w) stream).received
    · rfl

theorem closed_closeStream {n : Nat} {stream : Stream} (h : (s.closeStream n).streams[n]? = some stream) :
    stream.subscription.closed = true := by
  rw [Screen.closeStream, List.getElem?_modify_eq, Option.map_eq_map, Option.map_eq_some_iff] at h
  obtain ⟨stream', -, rfl⟩ := h
  exact closed_close stream'.subscription

theorem closes_closeActive (s : Screen) : Closes w s s.closeActive := by
  unfold Screen.closeActive
  split
  · exact closes_closeStream s _
  · exact closes_of_streams rfl rfl rfl rfl

theorem closes_runCleanup (s : Screen) : Closes w s s.runCleanup := by
  unfold Screen.runCleanup
  split
  · exact closes_of_streams rfl rfl rfl rfl
  · dsimp only
    refine Closes.trans ?_ (closes_closeStream _ _)
    exact closes_of_streams rfl rfl rfl rfl

/-- After the clean-up no stream is open. -/
theorem closed_runCleanup (h : Inv servers taskId s₀ s) :
    ∀ stream ∈ s.runCleanup.streams, stream.subscription.closed = true := by
  intro stream' hmem
  obtain ⟨i, hi⟩ := List.mem_iff_getElem?.mp hmem
  obtain ⟨stream, hstream, hkept⟩ := (closes_runCleanup (w := w) s).streams i stream' hi
  cases hopen : stream.subscription.closed with
  | true => exact hkept.closed hopen
  | false =>
    have hcleanup := h.opened i stream hstream hopen
    simp only [Screen.runCleanup, hcleanup] at hi
    exact closed_closeStream hi

theorem cleanup_runCleanup (s : Screen) : s.runCleanup.cleanup = none := by
  unfold Screen.runCleanup
  split
  · assumption
  · rfl

/-- The invariant of a screen on which all streams are closed. -/
theorem Inv.closes (h : Inv servers taskId s₀ s) (hcloses : Closes w s s')
    (hclosed : ∀ stream ∈ s'.streams, stream.subscription.closed = true) (hcleanup : s'.cleanup = none) :
    Inv servers taskId s₀ s' := by
  refine ⟨fun stream' hmem => ?_, fun i stream hi hopen => ?_, fun t i hi => ?_, ?_, ?_, ?_, ?_⟩
  · obtain ⟨i, hi⟩ := List.mem_iff_getElem?.mp hmem
    obtain ⟨stream, hstream, hkept⟩ := hcloses.streams i stream' hi
    obtain ⟨htask, hinv⟩ := h.streams stream (List.mem_of_getElem? hstream)
    exact ⟨hkept.taskId.trans htask, hkept.inv _ hinv⟩
  · exact absurd ((hclosed stream (List.mem_of_getElem? hi)).symm.trans hopen) (by decide)
  · rw [hcleanup] at hi
    cases hi
  · rw [hcloses.streamStore, hcloses.flatMap, h.streamStore]
  · rw [hcloses.store, hcloses.streamStore, h.messages]
  · rw [hcloses.store, h.current]
  · rw [hcloses.rendered, h.rendered]

theorem inv_subscribe (h : Inv servers taskId s₀ s)
    (hclosed : ∀ stream ∈ s.streams, stream.subscription.closed = true) :
    Inv servers taskId s₀ (s.subscribe taskId) := by
  have hcloses : Closes w s s.closeActive := closes_closeActive s
  have hclosed' : ∀ (i : Nat) (stream : Stream), s.closeActive.streams[i]? = some stream →
      stream.subscription.closed = true := by
    intro i stream' hi
    obtain ⟨stream, hstream, hkept⟩ := hcloses.streams i stream' hi
    exact hkept.closed (hclosed stream (List.mem_of_getElem? hstream))
  have hstart : receivedOf ⟨taskId, Subscription.start⟩ = [] := rfl
  refine ⟨fun stream' hmem => ?_, fun i stream' hi hopen => ?_, fun t i hi => ?_, ?_, ?_, ?_, ?_⟩
  · rcases List.mem_append.mp hmem with hmem | hmem
    · obtain ⟨i, hi⟩ := List.mem_iff_getElem?.mp hmem
      obtain ⟨stream, hstream, hkept⟩ := hcloses.streams i stream' hi
      obtain ⟨htask, hinv⟩ := h.streams stream (List.mem_of_getElem? hstream)
      exact ⟨hkept.taskId.trans htask, hkept.inv _ hinv⟩
    · rw [List.mem_singleton.mp hmem]
      exact ⟨rfl, ReconnectDelivery.inv_start _⟩
  · rw [Screen.subscribe] at hi ⊢
    dsimp only at hi ⊢
    rw [List.getElem?_append] at hi
    split at hi
    · exact absurd ((hclosed' i stream' hi).symm.trans hopen) (by decide)
    · rename_i hlength
      have hzero : i - s.closeActive.streams.length = 0 := by
        by_contra hne
        rw [List.getElem?_singleton, if_neg hne] at hi
        cases hi
      have hi' : i = s.closeActive.streams.length := by omega
      rw [hi']
  · rw [Screen.subscribe, Option.some.injEq, Prod.mk.injEq] at hi
    rw [← hi.2, Screen.subscribe, List.length_append]
    rfl
  · show s.closeActive.streamStore =
      (s.closeActive.streams ++ [(⟨taskId, Subscription.start⟩ : Stream)]).flatMap receivedOf
    rw [List.flatMap_append, List.flatMap_singleton, hstart, List.append_nil, hcloses.streamStore,
      hcloses.flatMap, h.streamStore]
  · show s.closeActive.store.messages = s.closeActive.streamStore.foldl applyMessage s₀.messages
    rw [hcloses.store, hcloses.streamStore, h.messages]
  · show s.closeActive.store.currentTaskId = some taskId
    rw [hcloses.store, h.current]
  · show s.closeActive.rendered.1 = some taskId
    rw [hcloses.rendered, h.rendered]

/-! ## Runs -/

/-- All streams but the last one have added nothing to the messages. -/
def Quiet (s : Screen) : Prop := ∀ (i : Nat) (stream : Stream), s.streams[i]? = some stream →
  i + 1 < s.streams.length → ∀ e ∈ receivedOf stream, isOutput e = false

/-- When the effect subscribes, nothing of the task has been shown. -/
def FreshStart (s : Screen) : Label → Prop
  | .effect => s.subscribesTo.isSome → ∀ e ∈ s.streamStore, isOutput e = false
  | _ => True

theorem Quiet.closes (h : Quiet s) (hcloses : Closes w s s') : Quiet s' := by
  intro i stream' hi hbefore e he
  obtain ⟨stream, hstream, hkept⟩ := hcloses.streams i stream' hi
  rw [hkept.received] at he
  rw [hcloses.length] at hbefore
  exact h i stream hstream hbefore e he

theorem quiet_subscribe (h : Inv servers taskId s₀ s) (hquiet : ∀ e ∈ s.streamStore, isOutput e = false) :
    Quiet (s.subscribe taskId) := by
  have hcloses : Closes w s s.closeActive := closes_closeActive s
  intro i stream' hi hbefore e he
  rw [Screen.subscribe, List.length_append, List.length_singleton] at hbefore
  rw [Screen.subscribe, List.getElem?_append_left (by omega)] at hi
  refine hquiet e ?_
  rw [h.streamStore, ← hcloses.flatMap]
  exact List.mem_flatMap.mpr ⟨stream', List.mem_of_getElem? hi, he⟩

theorem subscribesTo_eq (h : Inv servers taskId s₀ s) {t : String} (ht : s.subscribesTo = some t) : t =
    taskId := by
  unfold Screen.subscribesTo at ht
  split at ht
  · have hrendered := (Option.filter_eq_some_iff.mp ht).1
    rw [h.rendered, Option.some.injEq] at hrendered
    exact hrendered.symm
  · cases ht

theorem inv_runEffect (h : Inv servers taskId s₀ s) : Inv servers taskId s₀ s.runEffect := by
  have hcloses : Closes w s { s.runCleanup with deps := some s.rendered } :=
    (closes_runCleanup s).trans (closes_of_streams rfl rfl rfl rfl)
  have hclosed := closed_runCleanup h
  have hafter := h.closes hcloses hclosed (cleanup_runCleanup s)
  unfold Screen.runEffect
  dsimp only
  split
  · rename_i t ht
    rw [subscribesTo_eq h ht]
    split
    · exact hafter
    · exact inv_subscribe hafter hclosed
  · exact hafter

theorem quiet_runEffect (h : Inv servers taskId s₀ s) (hquiet : Quiet s) (hok : FreshStart s .effect) :
    Quiet s.runEffect := by
  have hcloses : Closes w s { s.runCleanup with deps := some s.rendered } :=
    (closes_runCleanup s).trans (closes_of_streams rfl rfl rfl rfl)
  have hafter := h.closes hcloses (closed_runCleanup h) (cleanup_runCleanup s)
  unfold Screen.runEffect
  dsimp only
  split
  · rename_i t ht
    rw [subscribesTo_eq h ht]
    split
    · exact hquiet.closes hcloses
    · refine quiet_subscribe hafter fun e he => ?_
      rw [hcloses.streamStore] at he
      exact hok (by rw [ht]; rfl) e he
  · exact hquiet.closes hcloses

theorem inv_step (hlog : TaskLog taskId (servers taskId).log) (h : Inv servers taskId s₀ s)
    (hstep : step servers s l = some s') : Inv servers taskId s₀ s' := by
  cases l with
  | stream n label =>
    cases label with
    | close => cases hstep
    | _ => exact (inv_stepStream hlog h hstep).1
  | render =>
    cases hstep
    exact ⟨h.streams, h.opened, h.last, h.streamStore, h.messages, h.current, h.current⟩
  | effect =>
    simp only [step] at hstep
    split at hstep <;> cases hstep
    exact inv_runEffect h
  | versions versions =>
    cases hstep
    exact ⟨h.streams, h.opened, h.last, h.streamStore, h.messages, h.current, h.rendered⟩

theorem quiet_step (hlog : TaskLog taskId (servers taskId).log) (h : Inv servers taskId s₀ s) (hquiet : Quiet s)
    (hok : FreshStart s l) (hstep : step servers s l = some s') : Quiet s' := by
  cases l with
  | stream n label =>
    have hkept : ∀ (label : StreamSubscription.Label), stepStream servers s n label = some s' → Quiet s' := by
      intro label hstep i stream hi hbefore
      obtain ⟨-, hlength, hsame⟩ := inv_stepStream hlog h hstep
      rw [hlength] at hbefore
      obtain ⟨stream', hi', hreceived⟩ := hsame i stream hi hbefore
      rw [hreceived]
      exact hquiet i stream' hi' hbefore
    cases label with
    | close => cases hstep
    | _ => exact hkept _ hstep
  | render =>
    cases hstep
    exact hquiet
  | effect =>
    simp only [step] at hstep
    split at hstep <;> cases hstep
    exact quiet_runEffect h hquiet hok
  | versions versions =>
    cases hstep
    exact hquiet

/-! ## What the user sees -/

/-- The screen of a task that is queued or running, below the message of the user. -/
structure Started (taskId : String) (s₀ : TaskState) : Prop where
  current : s₀.currentTaskId = some taskId
  active : isActive s₀.currentStatus = true
  user : s₀.messages.getLast?.any isUser

/-- The messages that have come since. -/
def shown (s₀ : TaskState) (s : Screen) : List ConversationMessage := s.store.messages.drop s₀.messages.length

/-- The terminal event has been applied. -/
def Finished (s : Screen) : Prop := ∃ e ∈ s.streamStore, e.isTerminal = true

/-- The messages are those of the log, as far as it has been received: no text twice, and no artifact
more often than the log has it. -/
structure ShownOnce (log : List TaskStreamEvent) (s₀ : TaskState) (s : Screen) : Prop where
  before : s₀.messages <+: s.store.messages
  text : (assistantText (shown s₀ s)).toList <+: (outputText log).toList
  artifacts : (shownArtifacts (shown s₀ s)).Sublist (log.filterMap artifactOf)
  wholeText : Finished s → assistantText (shown s₀ s) = outputText log
  allArtifacts : Finished s → ∀ a ∈ log.filterMap artifactOf, ∃ b ∈ shownArtifacts (shown s₀ s), SameArtifact b a

theorem shown_eq (hstart : Started taskId s₀) (h : Inv servers taskId s₀ s) :
    s.store.messages = s₀.messages ++ streamed s.streamStore ∧ shown s₀ s = streamed s.streamStore := by
  have hfold := foldl_append hstart.user s.streamStore []
  rw [List.append_nil] at hfold
  have hmessages : s.store.messages = s₀.messages ++ streamed s.streamStore := h.messages.trans hfold
  exact ⟨hmessages, by rw [shown, hmessages, List.drop_left]⟩

theorem outputText_prefix {es log : List TaskStreamEvent} (h : es <+: log) :
    (outputText es).toList <+: (outputText log).toList := by
  obtain ⟨rest, rfl⟩ := h
  rw [outputText_append, String.toList_append]
  exact List.prefix_append _ _

theorem outputText_of_quiet {es : List TaskStreamEvent} (h : ∀ e ∈ es, isOutput e = false) : outputText es =
    "" := by
  rw [← assistantText_streamed, streamed, foldl_of_quiet h]
  rfl

theorem artifacts_of_quiet {es : List TaskStreamEvent} (h : ∀ e ∈ es, isOutput e = false) :
    es.filterMap artifactOf = [] := by
  rw [List.filterMap_eq_nil_iff]
  intro e he
  have hquiet := h e he
  unfold isOutput at hquiet
  unfold artifactOf
  split
  · rename_i result hdetail
    rw [hdetail] at hquiet
    dsimp only at hquiet
    rw [Option.isSome_eq_false_iff, Option.isNone_iff_eq_none] at hquiet
    rw [hquiet]
    rfl
  · rfl

/-- A subscription that has received a terminal event has received the whole log. -/
theorem received_of_terminal {log : List (Nat × TaskStreamEvent)} (hlog : TaskLog taskId log)
    {es : List TaskStreamEvent} (hes : es <+: log.map Prod.snd) {e : TaskStreamEvent} (he : e ∈ es)
    (hterminal : e.isTerminal = true) : es = log.map Prod.snd := by
  obtain ⟨before, after, rfl⟩ := List.append_of_mem he
  obtain ⟨rest, hrest⟩ := hes
  have hsplit : log.map Prod.snd = before ++ e :: (after ++ rest) := by rw [← hrest]; simp
  obtain ⟨left, right, rfl, hleft, hright⟩ := List.map_eq_append_iff.mp hsplit
  obtain ⟨p, right', rfl, hp, hafter⟩ := List.map_eq_cons_iff.mp hright
  have hnil : right' = [] := by
    by_contra hne
    have hmem : p ∈ (left ++ p :: right').dropLast := by
      rw [List.dropLast_append_of_ne_nil (by simp), List.dropLast_cons_of_ne_nil hne]
      simp
    have hopen := hlog.last p hmem
    rw [hp, hterminal] at hopen
    cases hopen
  rw [hnil] at hafter
  obtain ⟨rfl, rfl⟩ := List.append_eq_nil_iff.mp hafter.symm
  rw [← hrest, List.append_nil]

/-- What is shown is what the last subscription has received. -/
theorem exists_last (h : Inv servers taskId s₀ s) (hlog : TaskLog taskId (servers taskId).log) (hquiet : Quiet s) :
    ∃ es, es <+: (servers taskId).log.map Prod.snd ∧ streamed s.streamStore = streamed es ∧
      (Finished s → es = (servers taskId).log.map Prod.snd ∨
        ∀ e ∈ (servers taskId).log.map Prod.snd, isOutput e = false) := by
  rcases List.eq_nil_or_concat s.streams with hnil | ⟨before, last, hconcat⟩
  · refine ⟨[], List.nil_prefix, ?_, ?_⟩
    · rw [h.streamStore, hnil]
      rfl
    · rintro ⟨e, he, -⟩
      rw [h.streamStore, hnil] at he
      cases he
  · rw [List.concat_eq_append] at hconcat
    have hreceived : ∀ stream ∈ s.streams, receivedOf stream <+: (servers taskId).log.map Prod.snd :=
      fun stream hmem => received_isPrefix (h.streams stream hmem).2
    have hearlier : ∀ stream ∈ before, ∀ e ∈ receivedOf stream, isOutput e = false := by
      intro stream hmem
      obtain ⟨i, hi⟩ := List.mem_iff_getElem?.mp hmem
      obtain ⟨hlt, -⟩ := List.getElem?_eq_some_iff.mp hi
      refine hquiet i stream ?_ ?_
      · rw [hconcat, List.getElem?_append_left hlt, hi]
      · rw [hconcat, List.length_append, List.length_singleton]
        omega
    have hstore : s.streamStore = before.flatMap receivedOf ++ receivedOf last := by
      rw [h.streamStore, hconcat, List.flatMap_append, List.flatMap_singleton]
    have hnothing : ∀ e ∈ before.flatMap receivedOf, isOutput e = false := by
      intro e he
      obtain ⟨stream, hmem, he⟩ := List.mem_flatMap.mp he
      exact hearlier stream hmem e he
    refine ⟨receivedOf last, hreceived last (by rw [hconcat]; simp), ?_, ?_⟩
    · rw [hstore, streamed, List.foldl_append, foldl_of_quiet hnothing, streamed]
    · rintro ⟨e, he, hterminal⟩
      rw [hstore] at he
      rcases List.mem_append.mp he with he | he
      · obtain ⟨stream, hmem, he⟩ := List.mem_flatMap.mp he
        have hwhole := received_of_terminal hlog
          (hreceived stream (by rw [hconcat]; exact List.mem_append_left _ hmem)) he hterminal
        exact .inr (hwhole ▸ hearlier stream hmem)
      · exact .inl (received_of_terminal hlog (hreceived last (by rw [hconcat]; simp)) he hterminal)

theorem shownOnce (hstart : Started taskId s₀) (hlog : TaskLog taskId (servers taskId).log)
    (h : Inv servers taskId s₀ s) (hquiet : Quiet s) :
    ShownOnce ((servers taskId).log.map Prod.snd) s₀ s := by
  obtain ⟨es, hes, hstreamed, hfinished⟩ := exists_last h hlog hquiet
  obtain ⟨hmessages, hshown⟩ := shown_eq hstart h
  rw [hstreamed] at hshown
  refine ⟨by rw [hmessages]; exact List.prefix_append _ _, ?_, ?_, fun hf => ?_, fun hf a ha => ?_⟩
  · rw [hshown, assistantText_streamed]
    exact outputText_prefix hes
  · rw [hshown]
    exact (shownArtifacts_streamed_sublist es).trans (hes.sublist.filterMap _)
  · rw [hshown, assistantText_streamed]
    rcases hfinished hf with rfl | hnothing
    · rfl
    · rw [outputText_of_quiet hnothing]
      exact outputText_of_quiet fun e he => hnothing e (hes.subset he)
  · rw [hshown]
    rcases hfinished hf with rfl | hnothing
    · exact exists_shown ha
    · rw [artifacts_of_quiet hnothing] at ha
      cases ha

/-- In every run in which nothing has been shown when the effect subscribes, the conversation shows the log
once in every state, and all of it after the terminal event. -/
theorem shown_once (servers : String → Server w) (hlog : TaskLog taskId (servers taskId).log)
    (hstart : Started taskId s₀) {ls : List Label} (hok : Along (step servers) FreshStart (.mount s₀) ls) :
    Throughout (step servers) (ShownOnce ((servers taskId).log.map Prod.snd) s₀) (.mount s₀) ls := by
  refine Transition.throughout_of_along
    (fun s (h : Inv servers taskId s₀ s ∧ Quiet s) => shownOnce hstart hlog h.1 h.2)
    (fun s l t h hok hstep => ?_) ?_ hok
  · exact ⟨inv_step hlog h.1 hstep, quiet_step hlog h.1 h.2 hok hstep⟩
  · exact ⟨inv_mount hstart.current, fun i stream hi => by cases hi⟩

/-! ## Replays -/

/-- In every run, what earlier subscriptions have received comes before what the last one has. -/
theorem text_of_replay (hstart : Started taskId s₀) (hlog : TaskLog taskId (servers taskId).log) {ls : List Label}
    (hrun : run (step servers) (.mount s₀) ls = some s) {before : List Stream} {last : Stream}
    (hstreams : s.streams = before ++ [last]) :
    assistantText (shown s₀ s) = outputText (before.flatMap receivedOf) ++ outputText (receivedOf last) := by
  have h : Inv servers taskId s₀ s := Transition.invariant_run (fun _ _ _ h hstep => inv_step hlog h hstep)
    (inv_mount hstart.current) hrun
  rw [(shown_eq hstart h).2, assistantText_streamed, h.streamStore, hstreams, List.flatMap_append,
    List.flatMap_singleton, outputText_append]

/-- A complete replay leaves the text of the log exactly when no text was received before it. -/
theorem text_of_replay_iff (hstart : Started taskId s₀) (hlog : TaskLog taskId (servers taskId).log)
    {ls : List Label} (hrun : run (step servers) (.mount s₀) ls = some s) {before : List Stream} {last : Stream}
    (hstreams : s.streams = before ++ [last]) (hlast : receivedOf last = (servers taskId).log.map Prod.snd) :
    assistantText (shown s₀ s) = outputText ((servers taskId).log.map Prod.snd) ↔
      outputText (before.flatMap receivedOf) = "" := by
  rw [text_of_replay hstart hlog hrun hstreams, hlast]
  constructor
  · intro heq
    have hlength := congrArg String.length heq
    rw [String.length_append] at hlength
    exact String.length_eq_zero_iff.mp (by omega)
  · intro hempty
    rw [hempty, String.empty_append]

/-! ## Two runs -/

def demoEvent (detail : TaskEventDetail) : TaskStreamEvent := ⟨detail, "t", "s", "r", "T"⟩

def demoLog : List (Nat × TaskStreamEvent) :=
  [(1, demoEvent .accepted), (2, demoEvent (.delta "行\n")), (3, demoEvent .completed)]

def demoPrint (e : TaskStreamEvent) : String := .ofList (JsonText.stringify StreamCodec.demoFormat e.toJson)

/-- The runtime on these events: their JSON texts, and the parser where it reads these texts. -/
def demoWire : Wire TaskStreamEvent :=
  wire demoPrint fun text => (demoLog.find? fun p => text = demoPrint p.2).map Prod.snd

theorem readable_demoLog : ∀ p ∈ demoLog, demoWire.Readable p.2 := by
  simp only [demoLog, List.mem_cons, List.not_mem_nil, or_false, forall_eq_or_imp, forall_eq]
  exact ⟨⟨by rfl, AdapterStream.oneLine_of_all (by decide +kernel)⟩, ⟨by rfl, AdapterStream.oneLine_of_all
    (by decide +kernel)⟩,
    ⟨by rfl, AdapterStream.oneLine_of_all (by decide +kernel)⟩⟩


def demoServer : Server demoWire where
  log := demoLog
  increasing := by simp [demoLog]
  readable := readable_demoLog
  opening := []
  opening_line := .inl rfl

theorem taskLog_demo : TaskLog "t" demoServer.log where
  task := by
    intro p hp
    have hp' : p ∈ demoLog := hp
    simp only [demoLog, List.mem_cons, List.not_mem_nil, or_false] at hp'
    rcases hp' with rfl | rfl | rfl <;> rfl
  last := by
    intro p hp
    have hp' : p ∈ demoLog.dropLast := hp
    simp only [demoLog, List.dropLast, List.mem_cons, List.not_mem_nil, or_false] at hp'
    rcases hp' with rfl | rfl <;> rfl

def demoState (status : TaskStatus) : TaskState :=
  (initialState.startConversation "hi").setExecutionMeta ⟨"t", "s", status, none⟩

theorem started_demo (status : TaskStatus) (h : isActive (some status) = true) : Started "t"
    (demoState status) where
  current := rfl
  active := h
  user := by cases status <;> decide +kernel

def textUpTo (n : Nat) : List Char := (demoLog.take n).flatMap (StreamSubscription.eventText demoWire)

/-- The first event arrives alone, and the effect runs before the next one. -/
def promptRun : List Label :=
  [.effect, .stream 0 (.receive 0 (textUpTo 1)), .stream 0 (.progress 0), .render, .effect,
    .stream 1 (.receive 0 (textUpTo 3)), .stream 1 (.progress 0), .render, .effect]

/-- The first two events arrive together. -/
def lateRun : List Label :=
  [.effect, .stream 0 (.receive 0 (textUpTo 2)), .stream 0 (.progress 0), .render, .effect,
    .stream 1 (.receive 0 (textUpTo 3)), .stream 1 (.progress 0)]

instance decidableFreshStart (s : Screen) : ∀ l, Decidable (FreshStart s l)
  | .effect => inferInstanceAs (Decidable (s.subscribesTo.isSome → ∀ e ∈ s.streamStore, isOutput e = false))
  | .stream _ _ | .render | .versions _ => .isTrue trivial

theorem shownOnce_promptRun : Throughout (step fun _ => demoServer)
    (ShownOnce (demoLog.map Prod.snd) (demoState .queued)) (.mount (demoState .queued)) promptRun :=
  shown_once (fun _ => demoServer) taskLog_demo (started_demo .queued rfl) (by decide +kernel)

/-- The effect runs after the first text has been shown, and the text is shown again. -/
theorem not_shownOnce_lateRun : ¬ ∀ (w : Wire TaskStreamEvent) (servers : String → Server w) (taskId : String)
    (s₀ : TaskState) (ls : List Label), TaskLog taskId (servers taskId).log → Started taskId s₀ →
    Throughout (step servers) (ShownOnce ((servers taskId).log.map Prod.snd) s₀) (.mount s₀) ls := by
  intro hall
  have htext : (run (step fun _ => demoServer) (.mount (demoState .queued)) lateRun).map (fun s =>
      (assistantText (shown (demoState .queued) s), s.streamStore.any TaskStreamEvent.isTerminal)) =
      some ("行\n行\n", true) := by decide +kernel
  obtain ⟨s, hrun, heq⟩ := Option.map_eq_some_iff.mp htext
  obtain ⟨htwice, hfinished⟩ := Prod.mk.inj heq
  have hshown := (hall demoWire (fun _ => demoServer) "t" (demoState .queued) lateRun taskLog_demo
    (started_demo .queued rfl)).last hrun
  have honce := hshown.wholeText (List.any_eq_true.mp hfinished)
  rw [htwice] at honce
  exact absurd honce (by decide +kernel)

end Resubscription
