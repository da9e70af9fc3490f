import ClawWork.TaskEventBroker
import ClawWork.Transition
import Mathlib.Data.List.Chain

/-!
# The retention timers of the broker

The broker publishes events of any tasks, listeners come and go, and the timer of a
task may fire whenever it is armed. The timer of the task `t` is armed by a terminal
event and is not disarmed by what is published after it: a task that is executed
again must not start before the timer has fired.
-/

namespace BrokerRetention

open SharedTypes TaskEventBroker Transition

structure State where
  broker : Broker
  /-- All that has been published for the task. -/
  published : List BrokerEvent

def State.init (maxEventsPerTask : Nat) : State := ⟨.new maxEventsPerTask, []⟩

inductive Label where
  | publish (taskId : String) (event : TaskStreamEvent)
  | subscribe (taskId : String) (listener : Nat)
  /-- The function that `subscribe` has returned is called. -/
  | unsubscribe (taskId : String) (listener : Nat)
  /-- The timer of a task fires. -/
  | timer (taskId : String)

/-- The timer of the task is set. -/
def Armed (taskId : String) (s : State) : Prop := (s.broker.cleanupTimers.get taskId).isSome = true

instance (taskId : String) (s : State) : Decidable (Armed taskId s) := by
  unfold Armed
  infer_instance

/-- The transitions; `published` is of the task `t`. -/
def step (t : String) (s : State) : Label → Option State
  | .publish taskId event =>
    let (item, broker) := s.broker.publish taskId event
    some ⟨broker, if taskId = t then s.published ++ [item] else s.published⟩
  | .subscribe taskId listener => some { s with broker := s.broker.subscribe taskId listener }
  | .unsubscribe taskId listener => some { s with broker := s.broker.unsubscribe taskId listener }
  | .timer taskId =>
    if Armed taskId s then some { s with broker := s.broker.cleanup taskId } else none

/-- The last event published is terminal. -/
def Idle (s : State) : Prop := s.published.getLast?.any (fun item => item.event.isTerminal) = true

/-- The numbers increase over every run of the task: from its first event to its terminal one. -/
def RunsIncrease (published : List BrokerEvent) : Prop :=
  ∀ run, run <:+: published → (∀ item ∈ run.dropLast, item.event.isTerminal = false) →
    (run.map BrokerEvent.id).Pairwise (· < ·)

/-- What holds of the task `t` in one state. -/
structure Kept (t : String) (s : State) : Prop where
  /-- The timer fires only after a terminal event. -/
  cleanup : ∀ s', step t s (.timer t) = some s' → Idle s
  /-- No listener is dropped by it in the middle of a run. -/
  listeners : ∀ s', step t s (.timer t) = some s' → ¬ Idle s →
    s'.broker.listenersOf t = s.broker.listenersOf t
  increasing : RunsIncrease s.published

/-- An event that is not terminal is published only when the timer of the task is not set. -/
def TimerOut (t : String) (s : State) : Label → Prop
  | .publish taskId event => taskId = t → event.isTerminal = false → ¬ Armed t s
  | .subscribe _ _ | .unsubscribe _ _ | .timer _ => True

instance (t : String) (s : State) (l : Label) : Decidable (TimerOut t s l) := by
  unfold TimerOut
  split <;> infer_instance

variable {t u : String} {s s' : State}

/-! ## What a step does to the task -/

theorem armed_publish (b : Broker) (event : TaskStreamEvent) (published : List BrokerEvent) :
    Armed t ⟨(b.publish u event).2, published⟩ ↔
      (u = t ∧ event.isTerminal = true) ∨ (b.cleanupTimers.get t).isSome = true := by
  unfold Armed Broker.publish
  dsimp only
  by_cases hterm : event.isTerminal = true
  · rw [if_pos hterm]
    dsimp only [Broker.scheduleCleanup]
    rw [OrderedMap.get_set]
    split
    · rename_i htu
      simp [htu, hterm]
    · rename_i htu
      simp [Ne.symm htu]
  · rw [if_neg hterm]
    simp [hterm]

theorem idle_append (b : Broker) (published : List BrokerEvent) (item : BrokerEvent) :
    Idle ⟨b, published ++ [item]⟩ ↔ item.event.isTerminal = true := by
  simp [Idle]

/-- A label that publishes nothing for the task either leaves its timer and its numbers alone, or is its
timer. -/
theorem step_quiet {l : Label} (h : step t s l = some s') (hl : ∀ event, l ≠ .publish t event) :
    s'.published = s.published ∧
      (l = .timer t ∧ Armed t s ∧ ¬ Armed t s' ∨
        (Armed t s' ↔ Armed t s) ∧ s'.broker.nextId t = s.broker.nextId t) := by
  cases l with
  | publish u event =>
    have hut : u ≠ t := fun hut => hl event (by rw [hut])
    simp only [step, Option.some.injEq, if_neg hut] at h
    subst h
    refine ⟨rfl, .inr ⟨?_, ?_⟩⟩
    · rw [armed_publish]
      simp [hut, Armed]
    · rw [Broker.publish_nextId, if_neg (Ne.symm hut)]
  | subscribe u listener =>
    cases h
    exact ⟨rfl, .inr ⟨Iff.rfl, rfl⟩⟩
  | unsubscribe u listener =>
    cases h
    refine ⟨rfl, .inr ⟨?_, Broker.unsubscribe_nextId listener⟩⟩
    rw [Armed, Armed, Broker.unsubscribe_cleanupTimers]
  | timer u =>
    simp only [step] at h
    split at h
    · rename_i harmed
      cases h
      refine ⟨rfl, ?_⟩
      by_cases hut : t = u
      · subst hut
        exact .inl ⟨rfl, harmed, by simp [Armed, Broker.cleanup]⟩
      · right
        refine ⟨?_, ?_⟩
        · simp [Armed, Broker.cleanup, hut]
        · rw [Broker.cleanup_nextId, if_neg hut]
    · cases h

/-! ## The invariant -/

/-- Nothing follows a smaller number except a terminal event. -/
def Follows (x y : BrokerEvent) : Prop := x.event.isTerminal = false → x.id < y.id

structure Inv (t : String) (s : State) : Prop where
  armed : Armed t s → Idle s
  next : ∀ item ∈ s.published.getLast?, item.event.isTerminal = false → item.id < s.broker.nextId t
  chain : s.published.IsChain Follows

theorem inv_init (max : Nat) : Inv t (.init max) where
  armed h := by cases h
  next := by simp [State.init]
  chain := List.IsChain.nil

theorem inv_step {l : Label} (hinv : Inv t s) (hok : TimerOut t s l) (h : step t s l = some s') : Inv t s' := by
  by_cases hl : ∃ event, l = .publish t event
  · obtain ⟨event, rfl⟩ := hl
    simp only [step, Option.some.injEq, if_pos, Broker.publish_fst] at h
    subst h
    refine ⟨?_, ?_, ?_⟩
    · intro harmed
      rw [idle_append]
      rcases (armed_publish ..).mp harmed with ⟨-, hterm⟩ | harmed
      · exact hterm
      · by_contra hterm
        rw [Bool.not_eq_true] at hterm
        exact hok rfl hterm harmed
    · intro item hitem hterm
      rw [List.getLast?_append, List.getLast?_singleton, Option.some_or, Option.mem_some_iff] at hitem
      rw [← hitem, Broker.publish_nextId, if_pos rfl]
      exact Nat.lt_succ_self _
    · rw [List.isChain_append]
      refine ⟨hinv.chain, List.isChain_singleton _, ?_⟩
      intro x hx y hy
      rw [List.head?_cons, Option.mem_some_iff] at hy
      rw [← hy]
      exact hinv.next x hx
  · rw [not_exists] at hl
    obtain ⟨hpublished, hcases⟩ := step_quiet h hl
    have hidle : Idle s' ↔ Idle s := by rw [Idle, Idle, hpublished]
    rcases hcases with ⟨-, harmed, hout⟩ | ⟨harmed, hnext⟩
    · refine ⟨fun hnow => absurd hnow hout, ?_, by rw [hpublished]; exact hinv.chain⟩
      rw [hpublished]
      intro item hitem hterm
      have hlast := hinv.armed harmed
      rw [Idle, hitem, Option.any_some, hterm] at hlast
      cases hlast
    · refine ⟨fun hnow => hidle.mpr (hinv.armed (harmed.mp hnow)), ?_, by rw [hpublished]; exact hinv.chain⟩
      rw [hpublished, hnext]
      exact hinv.next

/-! ## From the invariant -/

theorem increasing_of_chain {run : List BrokerEvent} (h : run.IsChain Follows)
    (hrun : ∀ item ∈ run.dropLast, item.event.isTerminal = false) :
    (run.map BrokerEvent.id).Pairwise (· < ·) := by
  rw [← List.isChain_iff_pairwise]
  induction run with
  | nil => exact List.IsChain.nil
  | cons x run ih =>
    cases run with
    | nil => exact List.isChain_singleton _
    | cons y run =>
      rw [List.isChain_cons_cons] at h
      rw [List.dropLast_cons_cons, List.forall_mem_cons] at hrun
      exact List.isChain_cons_cons.mpr ⟨h.1 hrun.1, ih h.2 hrun.2⟩

theorem kept_of_inv (h : Inv t s) : Kept t s := by
  have hidle : ∀ s', step t s (.timer t) = some s' → Idle s := by
    intro s' hs'
    simp only [step] at hs'
    split at hs'
    · exact h.armed (by assumption)
    · cases hs'
  refine ⟨hidle, fun s' hs' hnot => absurd (hidle s' hs') hnot, fun run hrun => ?_⟩
  have hchain : run.IsChain Follows := List.IsChain.infix h.chain hrun
  exact increasing_of_chain hchain

/-- A new run that starts while the timer is set may be cut off. -/
theorem timerOut_of_kept {l : Label} (h : step t s l = some s') (hkept : Kept t s') : TimerOut t s l := by
  cases l with
  | publish u event =>
    rintro rfl hterm harmed
    simp only [step, Option.some.injEq, if_pos, Broker.publish_fst] at h
    subst h
    have hstill := (armed_publish (t := u) (u := u) s.broker event (s.published ++ [⟨s.broker.nextId u, event⟩])).mpr
      (.inr harmed)
    have hidle := hkept.cleanup _ (if_pos hstill)
    rw [idle_append, hterm] at hidle
    cases hidle
  | subscribe u listener => trivial
  | unsubscribe u listener => trivial
  | timer u => trivial

/-- In every state of a run, the timer of the task can fire only between two runs of the task, exactly when
no event of a run is published while it is set. -/
theorem kept_iff_timerOut (t : String) (max : Nat) {ls : List Label}
    (hrun : run (step t) (.init max) ls = some s) :
    Throughout (step t) (Kept t) (.init max) ls ↔ Along (step t) (TimerOut t) (.init max) ls :=
  throughout_iff_along (fun _ => kept_of_inv) (fun _ _ _ => inv_step)
    (fun _ _ _ _ h hkept => timerOut_of_kept h hkept) (inv_init max) hrun

def failedRun : List Label :=
  [.publish "t" ⟨.accepted, "t", "s", "r", "T"⟩, .subscribe "t" 0,
    .publish "t" ⟨.failed "AGENT_OFFLINE" "offline", "t", "s", "r", "T"⟩]

def startAgain : List Label := [.publish "t" ⟨.accepted, "t", "s", "r'", "T"⟩, .subscribe "t" 1]

theorem kept_iff_timerOut_failedRun : run (step "t") (.init 1000) (failedRun ++ [.timer "t"] ++ startAgain) ≠ none ∧
    Throughout (step "t") (Kept "t") (.init 1000) (failedRun ++ [.timer "t"] ++ startAgain) := by
  have hrun : (run (step "t") (.init 1000) (failedRun ++ [.timer "t"] ++ startAgain)).isSome = true := by
    decide +kernel
  obtain ⟨s, hs⟩ := Option.isSome_iff_exists.mp hrun
  refine ⟨by rw [hs]; exact Option.some_ne_none s, ?_⟩
  exact (kept_iff_timerOut "t" 1000 hs).mpr (by decide +kernel)

/-- The task is executed again before the timer fires; the timer then deletes the listener and the numbers
of the new run. -/
theorem cut_off_startAgain : ¬ Throughout (step "t") (Kept "t") (.init 1000) (failedRun ++ startAgain) := by
  intro h
  have hrun : (run (step "t") (.init 1000) (failedRun ++ startAgain)).any (fun s =>
      (step "t" s (.timer "t")).isSome ∧
        s.published.getLast?.any (fun item => item.event.isTerminal) = false) = true := by decide +kernel
  obtain ⟨s, hs, hall⟩ := (Option.any_eq_true _ _).mp hrun
  obtain ⟨hfires, hrunning⟩ := of_decide_eq_true hall
  obtain ⟨s', hs'⟩ := Option.isSome_iff_exists.mp hfires
  have hidle := (h.last hs).cleanup s' hs'
  rw [Idle, hrunning] at hidle
  cases hidle

end BrokerRetention
