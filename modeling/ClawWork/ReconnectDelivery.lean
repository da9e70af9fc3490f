import ClawWork.BodyText
import ClawWork.JsonText
import Mathlib.Data.List.Induction

/-!
# What the subscription hands on

Wherever the bodies are cut and in whatever order the callbacks run, the events received are
the first ones of the log. The invariant of the request in use is that its buffer and the
text still to come are the text of the events still to come.
-/

namespace ReconnectDelivery

open JavaScript AdapterStream StreamSubscription Subscription BodyText
open AdapterRelay (splitEvents replaceCrlf)

variable {ε : Type} {w : Wire ε} {server : Server w} {closes : ε → Bool} {s s' : Subscription ε}

/-! ## What the caller sees -/

def received : Action ε → Option ε
  | .event e => some e
  | _ => none

def isOpened : Action ε → Bool
  | .opened _ => true
  | _ => false

def isError : Action ε → Bool
  | .error _ => true
  | _ => false

def isComplete : Action ε → Bool
  | .complete => true
  | _ => false

/-- How many requests were opened since the last event. -/
def sinceEvent : List (Action ε) → Nat :=
  List.foldl (fun k a => match a with | .event _ => 0 | .opened _ => k + 1 | _ => k) 0

/-- Neither the end nor a failure was reported. -/
def Clean (trace : List (Action ε)) : Prop := ∀ a ∈ trace, isComplete a = false ∧ isError a = false

/-- How the trace of a subscription ends, by its two flags. -/
inductive Ending (w : Wire ε) : Bool → Bool → List (Action ε) → Prop
  | running {closed : Bool} {trace : List (Action ε)} : Clean trace → Ending w false closed trace
  | completed {closed : Bool} {before : List (Action ε)} {e : ε} : Clean before → w.isTerminal e = true →
    Ending w true closed (before ++ [.event e, .complete])
  | failed {before : List (Action ε)} {message : String} : Clean before →
    Ending w false true (before ++ [.error message])

/-- The requests that were opened without an event are counted by the retries. -/
structure Counted (s : Subscription ε) : Prop where
  retries : s.retryCount ≤ 5
  since : sinceEvent s.trace + s.retryTimer.toNat ≤ s.retryCount + 1
  always : ∀ before, before <+: s.trace → sinceEvent before ≤ 6

/-- The id that the app has seen last. -/
def lastId (done : List (Nat × ε)) : String := (done.getLast?.map fun p => toString p.1).getD ""

/-- The events up to `rest` have been received. -/
structure Reached (server : Server w) (done rest : List (Nat × ε)) (s : Subscription ε) : Prop where
  log : server.log = done ++ rest
  events : s.trace.filterMap received = done.map Prod.snd
  lastId : s.lastEventId = lastId done

/-- The buffer of the request and the text that it has not looked at are the text of `rest`. -/
structure Reading (server : Server w) (rest : List (Nat × ε)) (r : Request) : Prop where
  arrived : r.responseText <+: server.body r.lastEventId
  cursor : r.cursor ≤ r.responseText.length
  text : ∃ lead, (lead = [] ∨ lead = ['\n']) ∧
    r.buffer ++ (server.body r.lastEventId).drop r.cursor = lead ++ rest.flatMap (eventText w)

structure Inv (server : Server w) (s : Subscription ε) : Prop where
  progress : ∃ done rest, Reached server done rest s ∧
    (s.terminal = false → Reading server rest (s.requests s.xhr))
  ending : Ending w s.terminal s.closed s.trace
  counted : Counted s
  timer : s.retryTimer = true → (s.requests s.xhr).retryScheduled = true
  aborted : s.terminal = true → (s.requests s.xhr).aborted = true

theorem sinceEvent_append (trace : List (Action ε)) (a : Action ε) : sinceEvent (trace ++ [a]) =
    match a with | .event _ => 0 | .opened _ => sinceEvent trace + 1 | _ => sinceEvent trace := by
  rw [sinceEvent, List.foldl_append]
  rfl

theorem clean_append {trace : List (Action ε)} {a : Action ε} (h : Clean trace)
    (ha : isComplete a = false ∧ isError a = false) : Clean (trace ++ [a]) := by
  intro b hb
  rcases List.mem_append.mp hb with hb | hb
  · exact h b hb
  · rw [List.mem_singleton] at hb
    exact hb ▸ ha

/-- The prefixes of a longer trace. -/
theorem always_append {trace : List (Action ε)} {a : Action ε} (h : ∀ before, before <+: trace →
    sinceEvent before ≤ 6)
    (ha : sinceEvent (trace ++ [a]) ≤ 6) : ∀ before, before <+: trace ++ [a] → sinceEvent before ≤ 6 := by
  intro before hbefore
  rcases List.prefix_concat_iff.mp hbefore with heq | hprefix
  · exact heq ▸ ha
  · exact h before hprefix

/-! ## Taking events -/

/-- What the handler of an event may do to the subscription besides. -/
structure MayClose (s s' : Subscription ε) : Prop where
  opened : s'.opened = s.opened
  retryTimer : s'.retryTimer = true → s.retryTimer = true
  request : ∃ aborted, s'.requests s.xhr = { s.requests s.xhr with aborted }

theorem MayClose.refl (s : Subscription ε) : MayClose s s := ⟨rfl, id, (s.requests s.xhr).aborted, rfl⟩

theorem MayClose.trans {s'' : Subscription ε} (h : MayClose s s') (h' : MayClose s' s'') : MayClose s s'' := by
  refine ⟨h'.opened.trans h.opened, fun htimer => h.retryTimer (h'.retryTimer htimer), ?_⟩
  obtain ⟨a, ha⟩ := h.request
  obtain ⟨a', ha'⟩ := h'.request
  have hxhr : s'.xhr = s.xhr := by rw [xhr, xhr, h.opened]
  rw [hxhr] at ha'
  exact ⟨a', by rw [ha', ha]⟩

theorem mayClose_abort (s : Subscription ε) : MayClose s s.abort :=
  ⟨rfl, id, true, by simp [abort, setRequest]⟩

theorem mayClose_close (s : Subscription ε) : MayClose s s.close := by
  unfold close
  split
  · exact .refl s
  · exact ⟨rfl, fun h => (by cases h), true, by simp [abort, setRequest, xhr]⟩

theorem mayClose_take (p : Nat × ε) : MayClose s (take closes s p) := by
  unfold take onEvent
  dsimp only
  split
  · have hclose := mayClose_close
      ({ { s with lastEventId := toString p.1 } with retryCount := 0 }.record (.event p.2))
    exact ⟨hclose.opened, hclose.retryTimer, hclose.request⟩
  · exact ⟨rfl, id, (s.requests s.xhr).aborted, rfl⟩

theorem mayClose_onComplete (s : Subscription ε) : MayClose s s.onComplete := by
  have habort := mayClose_abort ({ s with terminal := true }.record .complete)
  exact ⟨habort.opened, habort.retryTimer, habort.request⟩

theorem mayClose_consume (closes : ε → Bool) (ps : List (Nat × ε)) (s : Subscription ε) :
    MayClose s (consume w closes s ps) := by
  induction ps generalizing s with
  | nil => exact .refl s
  | cons p ps ih =>
    rw [consume]
    split
    · exact (mayClose_take p).trans (mayClose_onComplete _)
    · exact (mayClose_take p).trans (ih _)

@[simp] theorem trace_close : s.close.trace = s.trace := by
  unfold close
  split <;> rfl

@[simp] theorem lastEventId_close : s.close.lastEventId = s.lastEventId := by
  unfold close
  split <;> rfl

@[simp] theorem retryCount_close : s.close.retryCount = s.retryCount := by
  unfold close
  split <;> rfl

theorem trace_noteId (lines : List (List Char)) : (s.noteId lines).trace = s.trace := by
  unfold noteId
  split
  · split <;> rfl
  · rfl

theorem trace_onEvent (e : ε) : (s.onEvent closes e).trace = s.trace ++ [.event e] := by
  unfold onEvent
  dsimp only
  split
  · rw [trace_close]
    rfl
  · rfl

theorem trace_take (p : Nat × ε) : (take closes s p).trace = s.trace ++ [.event p.2] := trace_onEvent p.2

theorem lastEventId_take (p : Nat × ε) : (take closes s p).lastEventId = toString p.1 := by
  unfold take onEvent
  dsimp only
  split
  · rw [lastEventId_close]
    rfl
  · rfl

theorem retryCount_take (p : Nat × ε) : (take closes s p).retryCount = 0 := by
  unfold take onEvent
  dsimp only
  split
  · rw [retryCount_close]
    rfl
  · rfl

theorem counted_take (h : Counted s) (p : Nat × ε) : Counted (take closes s p) := by
  have hzero : sinceEvent (take closes s p).trace = 0 := by rw [trace_take, sinceEvent_append]
  have hbit : (take closes s p).retryTimer.toNat ≤ 1 := Bool.toNat_le _
  refine ⟨by rw [retryCount_take]; omega, by rw [hzero, retryCount_take]; omega, ?_⟩
  rw [trace_take] at hzero ⊢
  exact always_append h.always (by omega)

theorem counted_onComplete (h : Counted s) : Counted s.onComplete := by
  have hsame : sinceEvent (s.trace ++ [.complete]) = sinceEvent s.trace := sinceEvent_append _ _
  refine ⟨h.retries, hsame ▸ h.since, always_append h.always ?_⟩
  rw [hsame]
  exact h.always _ (List.prefix_refl _)

theorem counted_consume {ps : List (Nat × ε)} (h : Counted s) : Counted (consume w closes s ps) := by
  induction ps generalizing s with
  | nil => exact h
  | cons p ps ih =>
    rw [consume]
    split
    · exact counted_onComplete (counted_take h p)
    · exact ih (counted_take h p)

theorem lastId_append (done : List (Nat × ε)) (p : Nat × ε) : lastId (done ++ [p]) = toString p.1 := by
  simp [lastId]

theorem reached_take {done rest : List (Nat × ε)} {p : Nat × ε} (h : Reached server done (p :: rest) s) :
    Reached server (done ++ [p]) rest (take closes s p) := by
  refine ⟨by rw [h.log, List.append_assoc]; rfl, ?_, by rw [lastEventId_take, lastId_append]⟩
  rw [trace_take, List.filterMap_append, h.events, List.map_append]
  rfl

/-- The events are taken in the order of the log; a terminal one ends the subscription. -/
theorem reached_consume (closes : ε → Bool) {done ps rest : List (Nat × ε)} (h : Reached server done (ps ++ rest) s)
    (hclean : Clean s.trace) (hterminal : s.terminal = false) :
    ∃ done' rest', Reached server done' rest' (consume w closes s ps) ∧
      Ending w (consume w closes s ps).terminal (consume w closes s ps).closed (consume w closes s ps).trace ∧
      ((consume w closes s ps).terminal = false → rest' = rest) ∧
      ((consume w closes s ps).terminal = true →
        ((consume w closes s ps).requests (consume w closes s ps).xhr).aborted = true) := by
  induction ps generalizing s done with
  | nil =>
    refine ⟨done, rest, h, ?_, fun _ => rfl, fun hended => ?_⟩
    · rw [consume, hterminal]
      exact .running hclean
    · rw [consume, hterminal] at hended
      cases hended
  | cons p ps ih =>
    have htake : Reached server (done ++ [p]) (ps ++ rest) (take closes s p) := reached_take h
    rw [consume]
    split
    · rename_i hlast
      refine ⟨done ++ [p], ps ++ rest, ?_, ?_, fun h => (by cases h), fun _ => ?_⟩
      · refine ⟨htake.log, ?_, htake.lastId⟩
        rw [← htake.events]
        simp [onComplete, abort, setRequest, record, received]
      · have htrace : (take closes s p).onComplete.trace = s.trace ++ [.event p.2, .complete] := by
          simp [onComplete, abort, setRequest, record, trace_take]
        rw [htrace]
        exact .completed hclean hlast
      · simp [onComplete, abort, setRequest, record, xhr]
    · have hclean' : Clean (take closes s p).trace := by
        rw [trace_take]
        exact clean_append hclean ⟨rfl, rfl⟩
      exact ih htake hclean' ((terminal_take p).trans hterminal)

/-! ## Reading a body -/

theorem readable_rest {done rest : List (Nat × ε)} (h : Reached server done rest s) : ∀ p ∈ rest,
    w.Readable p.2 := by
  intro p hp
  exact server.readable p (by rw [h.log]; exact List.mem_append_right _ hp)

theorem clean_of_running (h : Ending w s.terminal s.closed s.trace) (hterminal : s.terminal = false)
    (hclosed : s.closed = false) : Clean s.trace := by
  rw [hterminal, hclosed] at h
  generalize s.trace = trace at h
  cases h with
  | running hclean => exact hclean

theorem inv_flush (h : Inv server s) {n : Nat} (hlive : (s.requests n).aborted = false) :
    Inv server (s.flush w closes n) := by
  unfold flush
  dsimp only
  split
  · exact h
  rename_i hguard
  rw [Bool.or_eq_true, decide_eq_true_eq, not_or, Bool.not_eq_true, not_not] at hguard
  obtain ⟨hclosed, rfl⟩ := hguard
  split
  · exact h
  have hterminal : s.terminal = false := by
    cases hterminal : s.terminal with
    | false => rfl
    | true =>
      rw [h.aborted hterminal] at hlive
      cases hlive
  obtain ⟨done, rest, hreached, hreading⟩ := h.progress
  obtain ⟨harrived, hcursor, lead, hlead, htext⟩ := hreading hterminal
  have hcrlf : replaceCrlf ((s.requests s.xhr).responseText.drop (s.requests s.xhr).cursor) =
      (s.requests s.xhr).responseText.drop (s.requests s.xhr).cursor :=
    replaceCrlf_of_notMem fun hc => return_notMem_body server _ (harrived.subset (List.mem_of_mem_drop hc))
  rw [hcrlf]
  rw [← chunk_append_unread harrived hcursor, ← List.append_assoc] at htext
  obtain ⟨ps, qs, left, lead', rfl, hsplit, hlead', hleft⟩ := cut_text hlead (readable_rest hreached) htext
  rw [hsplit]
  dsimp only
  generalize hread : s.setRequest s.xhr { s.requests s.xhr with cursor :=
  (s.requests s.xhr).responseText.length } = s₁
  have hxhr : s₁.xhr = s.xhr := by rw [← hread]; rfl
  have hrequest : s₁.requests s.xhr =
      { s.requests s.xhr with cursor := (s.requests s.xhr).responseText.length } := by
    rw [← hread]
    simp [setRequest]
  have hterminal₁ : s₁.terminal = false := by rw [← hread]; exact hterminal
  have hreached₁ : Reached server done (ps ++ qs) s₁ := by
    rw [← hread]
    exact ⟨hreached.log, hreached.events, hreached.lastId⟩
  have hclean₁ : Clean s₁.trace := by
    rw [← hread]
    exact clean_of_running h.ending hterminal hclosed
  have hcounted : Counted (consume w closes s₁ ps) := by
    rw [← hread]
    exact counted_consume ⟨h.counted.retries, h.counted.since, h.counted.always⟩
  have hps : ∀ p ∈ ps, w.Readable p.2 := fun p hp => readable_rest hreached p (List.mem_append_left _ hp)
  obtain ⟨hloop, hbuffer⟩ := flushLoop_blocks closes left hps hlead hterminal₁
  obtain ⟨done', rest', hreached', hending, hrest, haborted⟩ := reached_consume closes
    hreached₁ hclean₁ hterminal₁
  obtain ⟨hopened, htimer, aborted, hsame⟩ := mayClose_consume (w := w) closes ps s₁
  rw [hxhr, hrequest] at hsame
  rw [hloop]
  generalize consume w closes s₁ ps =
  s₂ at hcounted hbuffer hreached' hending hrest haborted hopened htimer hsame ⊢
  have hxhr₂ : s₂.xhr = s.xhr := by rw [← hxhr, xhr, xhr, hopened]
  generalize (flushLoop w closes left s₁ (blocks w lead ps)).2 = buffer at hbuffer ⊢
  have hlast : (s₂.setRequest s.xhr { s₂.requests s.xhr with buffer }).xhr = s.xhr := hxhr₂
  have hfinal : (s₂.setRequest s.xhr { s₂.requests s.xhr with buffer }).requests s.xhr =
      { s₂.requests s.xhr with buffer } := by simp [setRequest]
  refine ⟨⟨done', rest', ⟨hreached'.log, hreached'.events, hreached'.lastId⟩, fun hterminal₂ => ?_⟩, hending,
    ⟨hcounted.retries, hcounted.since, hcounted.always⟩, fun htimer₂ => ?_, fun hterminal₂ => ?_⟩
  · rw [hlast, hfinal, hsame, hrest hterminal₂, hbuffer hterminal₂]
    exact ⟨harrived, Nat.le_refl _, lead', hlead', hleft⟩
  · rw [hlast, hfinal, hsame]
    have hold : s.retryTimer = true := by
      have hread₁ := htimer htimer₂
      rwa [← hread] at hread₁
    exact h.timer hold
  · rw [hlast, hfinal]
    rw [hxhr₂] at haborted
    exact haborted hterminal₂

/-! ## Failures -/

theorem Reading.setFlags {rest : List (Nat × ε)} {r : Request} (h : Reading server rest r)
    (retryScheduled aborted : Bool) : Reading server rest { r with retryScheduled, aborted } :=
  ⟨h.arrived, h.cursor, h.text⟩

theorem Ending.close {terminal closed : Bool} {trace : List (Action ε)} (h : Ending w terminal closed trace) :
    Ending w terminal true trace := by
  cases h with
  | running hclean => exact .running hclean
  | completed hclean hlast => exact .completed hclean hlast
  | failed hclean => exact .failed hclean

theorem inv_close (h : Inv server s) : Inv server s.close := by
  unfold close
  split
  · exact h
  obtain ⟨done, rest, hreached, hreading⟩ := h.progress
  have hrequest : ({ s with closed := true, retryTimer := false }.abort).requests s.xhr =
      { s.requests s.xhr with aborted := true } := by simp [abort, setRequest, xhr]
  have hxhr : ({ s with closed := true, retryTimer := false }.abort).xhr = s.xhr := rfl
  refine ⟨⟨done, rest, ⟨hreached.log, hreached.events, hreached.lastId⟩, fun hterminal => ?_⟩, ?_,
    ⟨h.counted.retries, ?_, h.counted.always⟩, fun htimer => (by cases htimer), fun _ => ?_⟩
  · rw [hxhr, hrequest]
    exact (hreading hterminal).setFlags _ _
  · exact h.ending.close
  · have hsince := h.counted.since
    show sinceEvent s.trace + false.toNat ≤ s.retryCount + 1
    rw [Bool.toNat_false]
    omega
  · rw [hxhr, hrequest]

theorem inv_retry (h : Inv server s) (n : Nat) (message : String) : Inv server (s.retry n message) := by
  unfold retry
  split
  · exact h
  rename_i hguard
  simp only [Bool.or_eq_true, decide_eq_true_eq, not_or, Bool.not_eq_true, not_not] at hguard
  obtain ⟨⟨hclosed, hterminal⟩, rfl⟩ := hguard
  split
  · exact h
  rename_i hscheduled
  rw [Bool.not_eq_true] at hscheduled
  have htimer : s.retryTimer = false := by
    cases htimer : s.retryTimer with
    | false => rfl
    | true =>
      rw [h.timer htimer] at hscheduled
      cases hscheduled
  obtain ⟨done, rest, hreached, hreading⟩ := h.progress
  have hclean := clean_of_running h.ending hterminal hclosed
  have hsince := h.counted.since
  rw [htimer, Bool.toNat_false, Nat.add_zero] at hsince
  have hrequest : (s.setRequest s.xhr { s.requests s.xhr with retryScheduled := true }).requests s.xhr =
      { s.requests s.xhr with retryScheduled := true } := by simp [setRequest]
  have hread : Reading server rest
      ((s.setRequest s.xhr { s.requests s.xhr with retryScheduled := true }).requests s.xhr) := by
    rw [hrequest]
    exact (hreading hterminal).setFlags _ _
  dsimp only
  split
  · have htrace : sinceEvent (s.trace ++ [.error message]) = sinceEvent s.trace := sinceEvent_append _ _
    refine ⟨⟨done, rest, ⟨hreached.log, ?_, hreached.lastId⟩, fun _ => ?_⟩, ?_, ⟨h.counted.retries, ?_, ?_⟩,
      fun _ => ?_, fun hended => ?_⟩
    · rw [← hreached.events]
      simp [record, setRequest, received]
    · exact hread
    · have hnew : Ending w false true (s.trace ++ [.error message]) := .failed hclean
      rw [← hterminal] at hnew
      exact hnew
    · show sinceEvent (s.trace ++ [.error message]) + s.retryTimer.toNat ≤ s.retryCount + 1
      rw [htrace, htimer, Bool.toNat_false]
      omega
    · have hfew : sinceEvent (s.trace ++ [.error message]) ≤ 6 := by
        rw [htrace]
        exact h.counted.always _ (List.prefix_refl _)
      exact always_append h.counted.always hfew
    · exact congrArg Request.retryScheduled hrequest
    · exact absurd (hended.symm.trans hterminal) (by decide)
  · rename_i hfew
    refine ⟨⟨done, rest, ⟨hreached.log, hreached.events, hreached.lastId⟩, fun _ => ?_⟩, h.ending,
      ⟨?_, ?_, h.counted.always⟩, fun _ => ?_, fun hended => ?_⟩
    · exact hread
    · show s.retryCount + 1 ≤ 5
      have hfew : ¬ 5 ≤ s.retryCount := hfew
      omega
    · show sinceEvent s.trace + true.toNat ≤ s.retryCount + 1 + 1
      rw [Bool.toNat_true]
      omega
    · exact congrArg Request.retryScheduled hrequest
    · exact absurd (hended.symm.trans hterminal) (by decide)

theorem inv_onReadyStateChange (h : Inv server s) {n : Nat} (hlive : (s.requests n).aborted = false)
    (readyState status : Nat) : Inv server (s.onReadyStateChange w closes n readyState status) := by
  unfold onReadyStateChange
  split
  · exact h
  have hflushed : Inv server (if readyState = 3 ∨ readyState = 4 then s.flush w closes n else s) := by
    split
    · exact inv_flush h hlive
    · exact h
  dsimp only
  generalize (if readyState = 3 ∨ readyState = 4 then s.flush w closes n else s) = s₁ at hflushed ⊢
  split
  · exact inv_retry hflushed n _
  · exact hflushed

/-! ## Requests -/

/-- A request for what comes after the last id asks for the rest of the log. -/
theorem above_lastId {done rest : List (Nat × ε)} (hlog : server.log = done ++ rest) :
    above server.log (lastId done) = rest := by
  have hincreasing := server.increasing
  rw [hlog] at hincreasing ⊢
  rcases List.eq_nil_or_concat done with rfl | ⟨before, p, rfl⟩
  · rfl
  · rw [List.concat_eq_append] at hincreasing ⊢
    rw [lastId_append, above, number_toString]
    dsimp only
    obtain ⟨hdone, -, hcross⟩ := List.pairwise_append.mp hincreasing
    have hbefore : (before ++ [p]).filter (fun q => decide (p.1 < q.1)) = [] := by
      rw [List.filter_eq_nil_iff]
      intro q hq
      rw [decide_eq_true_eq, not_lt]
      rcases List.mem_append.mp hq with hq | hq
      · exact ((List.pairwise_append.mp hdone).2.2 q hq p (by simp)).le
      · rw [List.mem_singleton] at hq
        exact hq ▸ Nat.le_refl _
    have hafter : rest.filter (fun q => decide (p.1 < q.1)) = rest := by
      rw [List.filter_eq_self]
      intro q hq
      exact decide_eq_true (hcross p (by simp) q hq)
    rw [List.filter_append, hbefore, hafter, List.nil_append]

theorem inv_clearTimer (h : Inv server s) : Inv server { s with retryTimer := false } := by
  have hsince := h.counted.since
  obtain ⟨done, rest, hreached, hreading⟩ := h.progress
  refine ⟨⟨done, rest, ⟨hreached.log, hreached.events, hreached.lastId⟩, hreading⟩, h.ending,
    ⟨h.counted.retries, ?_, h.counted.always⟩, fun htimer => (by cases htimer), h.aborted⟩
  show sinceEvent s.trace + false.toNat ≤ s.retryCount + 1
  rw [Bool.toNat_false]
  omega

/-- A request is opened while fewer than six are since the last event. -/
theorem inv_connect (h : Inv server s) (htimer : s.retryTimer = false) (hfew : sinceEvent s.trace ≤ s.retryCount) :
    Inv server s.connect := by
  unfold connect
  split
  · exact h
  rename_i hguard
  simp only [Bool.or_eq_true, not_or, Bool.not_eq_true] at hguard
  obtain ⟨hclosed, hterminal⟩ := hguard
  obtain ⟨done, rest, hreached, -⟩ := h.progress
  have hrequest : (s.setRequest s.opened ⟨s.lastEventId, [], 0, [], false, false⟩).requests s.opened =
      ⟨s.lastEventId, [], 0, [], false, false⟩ := by simp [setRequest]
  have hread : Reading server rest
      ((s.setRequest s.opened ⟨s.lastEventId, [], 0, [], false, false⟩).requests s.opened) := by
    rw [hrequest]
    refine ⟨List.nil_prefix, Nat.le_refl _, server.opening, server.opening_line, ?_⟩
    rw [Server.body, hreached.lastId, above_lastId hreached.log]
    rfl
  have htrace : sinceEvent (s.trace ++ [.opened s.lastEventId]) = sinceEvent s.trace + 1 := sinceEvent_append _ _
  have hclean : Clean (s.trace ++ [.opened s.lastEventId]) :=
    clean_append (clean_of_running h.ending hterminal hclosed) ⟨rfl, rfl⟩
  have hretries := h.counted.retries
  refine ⟨⟨done, rest, ⟨hreached.log, ?_, hreached.lastId⟩, fun _ => hread⟩, ?_, ⟨hretries, ?_, ?_⟩,
    fun hpending => ?_, fun hended => ?_⟩
  · rw [← hreached.events]
    simp [record, setRequest, received]
  · have hrunning : Ending w false s.closed (s.trace ++ [.opened s.lastEventId]) := .running hclean
    rw [← hterminal] at hrunning
    exact hrunning
  · show sinceEvent (s.trace ++ [.opened s.lastEventId]) + s.retryTimer.toNat ≤ s.retryCount + 1
    rw [htrace, htimer, Bool.toNat_false]
    omega
  · have hsix : sinceEvent (s.trace ++ [.opened s.lastEventId]) ≤ 6 := by
      rw [htrace]
      omega
    exact always_append h.counted.always hsix
  · exact absurd (hpending.symm.trans htimer) (by decide)
  · exact absurd (hended.symm.trans hterminal) (by decide)

theorem inv_receive (h : Inv server s) {n : Nat} {text : List Char}
    (harrived : (s.requests n).responseText ++ text <+: server.body (s.requests n).lastEventId) :
    Inv server (s.setRequest n { s.requests n with responseText := (s.requests n).responseText ++ text }) := by
  obtain ⟨done, rest, hreached, hreading⟩ := h.progress
  have hxhr : (s.setRequest n { s.requests n with responseText := (s.requests n).responseText ++ text }).xhr =
    s.xhr := rfl
  refine ⟨⟨done, rest, ⟨hreached.log, hreached.events, hreached.lastId⟩, fun hterminal => ?_⟩, h.ending,
    ⟨h.counted.retries, h.counted.since, h.counted.always⟩, fun htimer => ?_, fun hterminal => ?_⟩
  · obtain ⟨hold, hcursor, htext⟩ := hreading hterminal
    rw [hxhr]
    by_cases hn : s.xhr = n
    · subst hn
      simp only [setRequest, Function.update_self]
      exact ⟨harrived, hcursor.trans (by simp), htext⟩
    · simp only [setRequest, Function.update_of_ne hn]
      exact ⟨hold, hcursor, htext⟩
  · have hscheduled := h.timer htimer
    rw [hxhr]
    by_cases hn : s.xhr = n
    · subst hn
      simpa [setRequest] using hscheduled
    · simpa [setRequest, Function.update_of_ne hn] using hscheduled
  · have haborted := h.aborted hterminal
    rw [hxhr]
    by_cases hn : s.xhr = n
    · subst hn
      simpa [setRequest] using haborted
    · simpa [setRequest, Function.update_of_ne hn] using haborted

theorem inv_step {label : Label} (h : Inv server s) (hstep : step server closes s label = some s') :
    Inv server s' := by
  cases label with
  | receive n text =>
    simp only [step, Bool.and_eq_true, List.isPrefixOf_iff_prefix, Option.ite_none_right_eq_some,
      Option.some.injEq] at hstep
    obtain ⟨⟨-, harrived⟩, rfl⟩ := hstep
    exact inv_receive h harrived
  | progress n =>
    simp only [step, Option.ite_none_right_eq_some, Option.some.injEq] at hstep
    obtain ⟨hlive, rfl⟩ := hstep
    simp only [live, Bool.and_eq_true, Bool.not_eq_true'] at hlive
    exact inv_flush h hlive.2
  | readyState n readyState status =>
    simp only [step, Option.ite_none_right_eq_some, Option.some.injEq] at hstep
    obtain ⟨hlive, rfl⟩ := hstep
    simp only [live, Bool.and_eq_true, Bool.not_eq_true'] at hlive
    exact inv_onReadyStateChange h hlive.2 readyState status
  | error n =>
    simp only [step, Option.ite_none_right_eq_some, Option.some.injEq] at hstep
    obtain ⟨-, rfl⟩ := hstep
    exact inv_retry h n _
  | timer =>
    simp only [step, Option.ite_none_right_eq_some, Option.some.injEq] at hstep
    obtain ⟨htimer, rfl⟩ := hstep
    have hsince := h.counted.since
    rw [htimer, Bool.toNat_true] at hsince
    exact inv_connect (inv_clearTimer h) rfl (Nat.le_of_succ_le_succ hsince)
  | close =>
    cases hstep
    exact inv_close h

/-- Before the first request nothing has been received, counted or reported. -/
theorem inv_start (server : Server w) : Inv server start := by
  refine inv_connect ⟨⟨[], server.log, ⟨rfl, rfl, rfl⟩, fun _ => ?_⟩, .running ?_, ⟨Nat.zero_le _, ?_, ?_⟩,
    fun h => (by cases h), fun h => (by cases h)⟩ rfl (Nat.le_refl _)
  · exact ⟨List.nil_prefix, Nat.le_refl _, server.opening, server.opening_line, rfl⟩
  · intro a ha
    cases ha
  · exact Nat.zero_le _
  · intro before hbefore
    rw [List.prefix_nil.mp hbefore]
    exact Nat.zero_le _

theorem inv_run {labels : List Label} (hrun : Transition.run (step server closes) start labels = some s) :
    Inv server s :=
  Transition.invariant_run (fun _ _ _ => inv_step) (inv_start server) hrun

/-! ## Over a whole run -/

/-- What the caller is promised of a trace. -/
structure ExactlyOnce (server : Server w) (trace : List (Action ε)) : Prop where
  events : trace.filterMap received <+: server.log.map Prod.snd
  complete : ∀ before after, trace = before ++ .complete :: after →
    after = [] ∧ ∃ earlier e, before = earlier ++ [.event e] ∧ w.isTerminal e = true
  error : ∀ before message after, trace = before ++ .error message :: after →
    after = [] ∧ ∀ a ∈ before, isComplete a = false ∧ isError a = false
  opened : ∀ before quiet after, trace = before ++ quiet ++ after → (∀ a ∈ quiet, received a = none) →
    quiet.countP isOpened ≤ 6

theorem sinceEvent_quiet {before quiet : List (Action ε)} (h : ∀ a ∈ quiet, received a = none) :
    sinceEvent (before ++ quiet) = sinceEvent before + quiet.countP isOpened := by
  induction quiet using List.reverseRecOn with
  | nil => simp
  | append_singleton quiet a ih =>
    have hquiet := ih fun b hb => h b (List.mem_append_left _ hb)
    rw [← List.append_assoc, sinceEvent_append, hquiet, List.countP_append, List.countP_singleton]
    cases a with
    | opened id => simp [isOpened, Nat.add_assoc]
    | event e => cases h (.event e) (by simp)
    | complete => simp [isOpened]
    | error message => simp [isOpened]

/-- A report after a trace without reports is the last action. -/
theorem last_of_clean {trace before after : List (Action ε)} {a b : Action ε} (hclean : Clean trace)
    (hb : isComplete b = true ∨ isError b = true) (h : trace ++ [a] = before ++ b :: after) :
    after = [] ∧ before = trace ∧ b = a := by
  rcases List.eq_nil_or_concat after with rfl | ⟨others, c, rfl⟩
  · obtain ⟨hbefore, hlast⟩ := List.append_inj' h rfl
    exact ⟨rfl, hbefore.symm, (List.singleton_inj.mp hlast).symm⟩
  · rw [List.concat_eq_append, ← List.cons_append, ← List.append_assoc] at h
    obtain ⟨htrace, -⟩ := List.append_inj' h rfl
    obtain ⟨hcomplete, herror⟩ := hclean b (by rw [htrace]; simp)
    rcases hb with hb | hb
    · exact absurd (hb.symm.trans hcomplete) (by decide)
    · exact absurd (hb.symm.trans herror) (by decide)

theorem exactlyOnce_of_ending {terminal closed : Bool} {trace : List (Action ε)}
    (hevents : trace.filterMap received <+: server.log.map Prod.snd) (hending : Ending w terminal closed trace)
    (halways : ∀ before, before <+: trace → sinceEvent before ≤ 6) : ExactlyOnce server trace := by
  refine ⟨hevents, fun before after h => ?_, fun before message after h => ?_,
    fun before quiet after h hquiet => ?_⟩
  · cases hending with
    | running hclean => exact absurd (hclean .complete (by rw [h]; simp)).1 (by simp [isComplete])
    | completed hclean hlast =>
      rename_i earlier e
      rw [← List.singleton_append, ← List.append_assoc] at h
      obtain ⟨rfl, rfl, -⟩ := last_of_clean (clean_append hclean ⟨rfl, rfl⟩) (.inl rfl) h
      exact ⟨rfl, earlier, e, rfl, hlast⟩
    | failed hclean =>
      obtain ⟨-, -, hsame⟩ := last_of_clean hclean (.inl rfl) h
      cases hsame
  · cases hending with
    | running hclean => exact absurd (hclean (.error message) (by rw [h]; simp)).2 (by simp [isError])
    | completed hclean hlast =>
      rw [← List.singleton_append, ← List.append_assoc] at h
      obtain ⟨-, -, hsame⟩ := last_of_clean (clean_append hclean ⟨rfl, rfl⟩) (.inr rfl) h
      cases hsame
    | failed hclean =>
      obtain ⟨rfl, rfl, -⟩ := last_of_clean hclean (.inr rfl) h
      exact ⟨rfl, hclean⟩
  · have hsix := halways (before ++ quiet) ⟨after, h.symm⟩
    rw [sinceEvent_quiet hquiet] at hsix
    omega

/-- However the requests fail and wherever their bodies are cut, the caller receives the first events of the log,
each one once; the end is reported right after a terminal event, a failure after nothing else, and at most six
requests are opened without an event. -/
theorem delivers_exactlyOnce (server : Server w) (closes : ε → Bool) {labels : List Label}
    (hrun : Transition.run (step server closes) start labels = some s) : ExactlyOnce server s.trace := by
  have hinv := inv_run hrun
  obtain ⟨done, rest, hreached, -⟩ := hinv.progress
  refine exactlyOnce_of_ending ?_ hinv.ending hinv.counted.always
  rw [hreached.events, hreached.log, List.map_append]
  exact List.prefix_append _ _

/-- A log of two events, which are texts here. -/
def demoLog : List (Nat × String) := [(7, "行\n"), (9, "end")]

/-- The runtime on the two events: their JSON texts, and the parser where it reads these texts. -/
def demoWire : Wire String where
  print e := .ofList (JsonText.quote e)
  parse text := (demoLog.find? fun p => text = .ofList (JsonText.quote p.2)).map Prod.snd
  isTerminal e := e = "end"

def demoServer : Server demoWire where
  log := demoLog
  increasing := by simp [demoLog]
  readable := by
    simp only [demoLog, List.mem_cons, List.not_mem_nil, or_false, forall_eq_or_imp, forall_eq]
    exact ⟨⟨by rfl, oneLine_of_all (by decide +kernel)⟩, ⟨by rfl, oneLine_of_all (by decide +kernel)⟩⟩
  opening := ['\n']
  opening_line := .inr rfl

/-- The first body is cut inside the second event; its request fails twice, and then the next one gets that event. -/
def cutLabels : List Label :=
  [.receive 0 ((demoServer.body "").take 50), .progress 0, .error 0, .readyState 0 4 0, .timer,
    .receive 1 (demoServer.body "7"), .readyState 1 3 200]

def cutSubscription : Subscription String :=
  (Transition.run (step demoServer fun _ => false) start cutLabels).get (by decide +kernel)

theorem delivers_cutLabels : ExactlyOnce demoServer cutSubscription.trace := by
  have hrun : Transition.run (step demoServer fun _ => false) start cutLabels = some cutSubscription :=
    (Option.some_get _).symm
  exact delivers_exactlyOnce demoServer (fun _ => false) hrun

/-- Both events arrive, over two requests. -/
example : cutSubscription.trace = [.opened "", .event "行\n", .opened "7", .event "end", .complete] := by
  decide +kernel

end ReconnectDelivery
