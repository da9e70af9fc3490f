import ClawWork.EnqueueTask
import ClawWork.Transition

/-!
# The reservations of a day

The counter of a user and a day against the reservations that the calls of
`enqueueTask` have made on that day and not released. The two agree exactly as
long as a call releases on the day on which it has reserved.
-/

namespace TaskReservations

open TasksService DailyQuota EnqueueTask Transition

/-- The call has made a reservation on the day and has not released it. -/
def Call.holds (u day : String) (call : Call) : Bool :=
  call.new.userId = u && call.reservation = some day

/-- The call has created a task that was reserved on the day. -/
def Call.hasCreated (u day : String) (call : Call) : Bool :=
  Call.holds u day call && match call.phase with
    | .created _ => true
    | _ => false

/-- The number of reservations made on the day that were not released. -/
def unreleased (s : System) (u day : String) : Nat := s.calls.values.countP (Call.holds u day)

def created (s : System) (u day : String) : Nat := s.calls.values.countP (Call.hasCreated u day)

/-- Every counter is the number of the unreleased reservations of its day, and the tasks created from
them keep within the limit. -/
def Accounted (settings : QuotaSettings) (s : System) : Prop := ∀ u day,
  s.redis.value (u, day) = unreleased s u day ∧ created s u day ≤ settings.dailyLimit

def Phase.isReleasing : Phase → Bool
  | .releasing => true
  | _ => false

/-- A release is made on the day of its reservation, and no counter expires that still counts one. -/
def OnItsDay (s : System) : Label → Prop
  | .advance i (.script clock _) => ∀ call ∈ s.calls.get i, Phase.isReleasing call.phase = true →
    call.reservation = some (isoDay clock)
  | .wait ms => ∀ counter ∈ s.redis.counters.values,
    s.redis.now + ms < counter.expiresAt ∨ counter.value = 0
  | _ => True

/-- The reservation that goes with a phase; a call that has failed may have lost its answer. -/
def Booked (call : Call) : Prop :=
  match call.phase with
  | .findingFiles | .reserving _ => call.reservation = none
  | .threw => True
  | _ => call.reservation.isSome = true

structure Inv (settings : QuotaSettings) (s : System) : Prop where
  counts : ∀ u day, s.redis.value (u, day) = unreleased s u day
  limit : ∀ key, s.redis.value key ≤ settings.dailyLimit
  booked : ∀ i call, s.calls.get i = some call → Booked call

variable {settings : QuotaSettings} {s s' : System} {i : Nat} {server server' : TaskServer}
  {redis redis' : Redis} {call call' : Call} {u day : String}

theorem inv_init (settings : QuotaSettings) : Inv settings .init where
  counts := fun u day => rfl
  limit := fun key => Nat.zero_le _
  booked := fun i call h => by cases h

theorem Inv.accounted (h : Inv settings s) : Accounted settings s := by
  intro u day
  refine ⟨h.counts u day, ?_⟩
  have hle : created s u day ≤ unreleased s u day := by
    apply List.countP_mono_left
    intro call _ hcreated
    exact (Bool.and_eq_true_iff.mp hcreated).1
  rw [← h.counts] at hle
  exact Nat.le_trans hle (h.limit (u, day))

/-- What one step of a call does to the counters. -/
inductive Books (settings : QuotaSettings) (redis : Redis) (call : Call) :
    Answer → Redis → Call → Prop
  | same {answer : Answer} {call' : Call} (hnew : call'.new = call.new)
      (hreservation : call'.reservation = call.reservation) (hbooked : Booked call → Booked call') :
      Books settings redis call answer redis call'
  | reserved {clock : Nat} {lost : Bool} {redis' : Redis} {call' : Call} (hnew : call'.new = call.new)
      (hold : Booked call → call.reservation = none)
      (hreserve : redis.reserve settings.dailyLimit (call.new.userId, isoDay clock) = (true, redis'))
      (hreservation : call'.reservation = some (isoDay clock)) (hbooked : Booked call') :
      Books settings redis call (.script clock lost) redis' call'
  | refused {clock : Nat} {lost : Bool} {redis' : Redis} {call' : Call} (hnew : call'.new = call.new)
      (hreserve : redis.reserve settings.dailyLimit (call.new.userId, isoDay clock) = (false, redis'))
      (hreservation : call'.reservation = call.reservation) (hbooked : Booked call') :
      Books settings redis call (.script clock lost) redis' call'
  | released {clock : Nat} {lost : Bool} {call' : Call} (hnew : call'.new = call.new)
      (hold : Phase.isReleasing call.phase = true)
      (hreservation : call'.reservation = none) (hbooked : Booked call') :
      Books settings redis call (.script clock lost) (redis.release (call.new.userId, isoDay clock)) call'

theorem books_next {answer : Answer}
    (h : call.next settings i server redis answer = some (server', redis', call')) :
    Books settings redis call answer redis' call' := by
  obtain ⟨new, fileIds, reservation, phase⟩ := call
  have hmoves := callMoves_next h
  dsimp only at hmoves
  cases hmoves with
  | found | locks | counts | findsSession | createsSession | createsTask | updatesSession | commits =>
    exact .same rfl rfl fun hbooked => hbooked
  | missing | fails => exact .same rfl rfl fun _ => trivial
  | reserved hreserve =>
    rename_i lost
    exact .reserved rfl (fun hbooked => hbooked) hreserve rfl (by cases lost <;> trivial)
  | refused hreserve => exact .refused rfl hreserve rfl trivial
  | released => exact .released rfl rfl rfl trivial
  | leaves hin =>
    refine .same rfl rfl fun hbooked => ?_
    cases phase <;> first | exact hbooked | cases hin

/-- The count of the reservations after one call has moved. -/
theorem unreleased_set (s : System) (server : TaskServer) (redis : Redis) (i : Nat) (call : Call)
    (u day : String) :
    unreleased ⟨server, redis, s.calls.set i call⟩ u day +
        ((s.calls.get i).map fun old => (Call.holds u day old).toNat).getD 0 =
      unreleased s u day + (Call.holds u day call).toNat := by
  rw [unreleased, unreleased, OrderedMap.countP_values, OrderedMap.countP_values]
  exact OrderedMap.total_set _ s.calls i call

theorem holds_of_same (hnew : call'.new = call.new) (hreservation : call'.reservation = call.reservation) :
    Call.holds u day call' = Call.holds u day call := by
  rw [Call.holds, hnew, hreservation, Call.holds]

/-- The parts of the invariant after one call has moved. -/
theorem Inv.move (h : Inv settings s) (hbooked : Booked call')
    (hlimit : ∀ key, redis'.value key ≤ settings.dailyLimit)
    (hcounts : ∀ u day, redis'.value (u, day) =
      unreleased ⟨server', redis', s.calls.set i call'⟩ u day) :
    Inv settings ⟨server', redis', s.calls.set i call'⟩ where
  counts := hcounts
  limit := hlimit
  booked := by
    intro j other hother
    rw [OrderedMap.get_set] at hother
    split at hother
    · cases hother
      exact hbooked
    · exact h.booked j other hother

theorem inv_advance (h : Inv settings s) {answer : Answer} (hget : s.calls.get i = some call)
    (hok : OnItsDay s (.advance i answer)) (hbooks : Books settings s.redis call answer redis' call') :
    Inv settings ⟨server', redis', s.calls.set i call'⟩ := by
  have hbooked := h.booked i call hget
  have hset : ∀ u day, unreleased ⟨server', redis', s.calls.set i call'⟩ u day +
      (Call.holds u day call).toNat = unreleased s u day + (Call.holds u day call').toNat := by
    intro u day
    have := unreleased_set s server' redis' i call' u day
    rwa [hget] at this
  cases hbooks with
  | same hnew hreservation hkeep =>
    refine h.move (hkeep hbooked) h.limit fun u day => ?_
    have := hset u day
    rw [holds_of_same hnew hreservation] at this
    rw [h.counts]
    omega
  | reserved hnew hold hreserve hreservation hbooked' =>
    rename_i clock lost
    have hvalue := Redis.value_reserve s.redis settings.dailyLimit (call.new.userId, isoDay clock)
    rw [hreserve] at hvalue
    refine h.move hbooked' (fun key => ?_) fun u day => ?_
    · have hroom := Redis.reserve_le s.redis settings.dailyLimit (call.new.userId, isoDay clock)
        (by rw [hreserve])
      rw [hvalue]
      split
      · rename_i hkey
        rw [hkey.1]
        exact hroom
      · exact h.limit key
    · have hcount := hset u day
      have hfree : Call.holds u day call = false := by simp [Call.holds, hold hbooked]
      have hholds : Call.holds u day call' = decide ((u, day) = (call.new.userId, isoDay clock)) := by
        simp [Call.holds, hnew, hreservation, Bool.decide_and, eq_comm]
      rw [hfree, hholds] at hcount
      rw [hvalue, h.counts]
      by_cases hkey : (u, day) = (call.new.userId, isoDay clock)
      · simp only [hkey, decide_true, Bool.toNat_true, Bool.toNat_false, and_self, if_true] at hcount ⊢
        omega
      · simp only [hkey, decide_false, Bool.toNat_false, false_and, if_false] at hcount ⊢
        omega
  | refused hnew hreserve hreservation hbooked' =>
    rename_i clock lost
    have hvalue : ∀ key, redis'.value key = s.redis.value key := by
      intro key
      have := Redis.value_reserve s.redis settings.dailyLimit (call.new.userId, isoDay clock) key
      rwa [hreserve, if_neg (fun hand => by cases hand.2)] at this
    refine h.move hbooked' (fun key => by rw [hvalue]; exact h.limit key) fun u day => ?_
    have := hset u day
    rw [holds_of_same hnew hreservation] at this
    rw [hvalue, h.counts]
    omega
  | released hnew hold hreservation hbooked' =>
    rename_i clock lost
    have hday := hok call hget hold
    refine h.move hbooked' (fun key => ?_) fun u day => ?_
    · rw [Redis.value_release]
      exact Nat.le_trans (Nat.sub_le _ _) (h.limit key)
    · have hcount := hset u day
      have hfree : Call.holds u day call' = false := by simp [Call.holds, hreservation]
      have hholds : Call.holds u day call = decide ((u, day) = (call.new.userId, isoDay clock)) := by
        simp [Call.holds, hday, Bool.decide_and, eq_comm]
      rw [hfree, hholds] at hcount
      rw [Redis.value_release, h.counts]
      by_cases hkey : (u, day) = (call.new.userId, isoDay clock)
      · simp only [hkey, decide_true, Bool.toNat_true, Bool.toNat_false, if_true] at hcount ⊢
        omega
      · simp only [hkey, decide_false, Bool.toNat_false, if_false] at hcount ⊢
        omega

theorem inv_wait (h : Inv settings s) {ms : Nat} (hok : OnItsDay s (.wait ms)) :
    Inv settings { s with redis := s.redis.wait ms } where
  counts := by
    intro u day
    refine Eq.trans ?_ (h.counts u day)
    rw [Redis.value, Redis.value, Redis.wait, OrderedMap.get_filter]
    cases hget : s.redis.counters.get (u, day) with
    | none => rfl
    | some counter =>
      rw [Option.filter_some]
      split
      · rfl
      · rename_i hexpired
        have hzero := hok counter ((OrderedMap.mem_values_iff _ _).mpr ⟨_, hget⟩)
        rcases hzero with hlive | hzero
        · exact absurd (decide_eq_true hlive) hexpired
        · exact hzero.symm
  limit := by
    intro key
    rcases Redis.value_wait s.redis key ms with heq | heq
    · rw [heq]
      exact h.limit key
    · rw [heq]
      exact Nat.zero_le _
  booked := h.booked

theorem inv_step {l : Label} (h : Inv settings s) (hok : OnItsDay s l)
    (hstep : step settings s l = some s') : Inv settings s' := by
  cases l with
  | call i new fileIds =>
    simp only [step] at hstep
    split at hstep
    · rename_i hfresh
      cases hstep
      refine h.move rfl h.limit fun u day => ?_
      have := unreleased_set s s.server s.redis i ⟨new, fileIds, none, .findingFiles⟩ u day
      rw [hfresh] at this
      simp only [Call.holds, Option.map_none, Option.getD_none, reduceCtorEq, decide_false,
        Bool.and_false, Bool.toNat_false, Nat.add_zero] at this
      rw [h.counts]
      exact this.symm
    · cases hstep
  | advance i answer =>
    obtain ⟨call, hget, hstep⟩ := Option.bind_eq_some_iff.mp hstep
    obtain ⟨⟨server, redis, call'⟩, hnext, hstep⟩ := Option.bind_eq_some_iff.mp hstep
    cases hstep
    exact inv_advance h hget hok (books_next hnext)
  | transaction tx =>
    simp only [step] at hstep
    split at hstep
    · cases hstep
    · obtain ⟨db, hdb, hstep⟩ := Option.bind_eq_some_iff.mp hstep
      cases hstep
      exact ⟨h.counts, h.limit, h.booked⟩
  | wait ms =>
    cases hstep
    exact inv_wait h hok

/-- A release on another day leaves the counter of the day of its reservation one too high. -/
theorem release_day (h : Inv settings s) {clock : Nat} {lost : Bool} (hget : s.calls.get i = some call)
    (hphase : Phase.isReleasing call.phase = true)
    (hstep : step settings s (.advance i (.script clock lost)) = some s')
    (hgood : Accounted settings s') : call.reservation = some (isoDay clock) := by
  have hbooked := h.booked i call hget
  obtain ⟨new, fileIds, reservation, phase⟩ := call
  cases phase with
  | releasing =>
    simp only [step, hget, Option.bind_some, Option.bind_eq_bind, Call.next, Call.script,
      Option.some.injEq] at hstep
    subst hstep
    obtain ⟨day, rfl⟩ := Option.isSome_iff_exists.mp hbooked
    by_contra hother
    have hday : day ≠ isoDay clock := fun heq => hother (by rw [heq])
    have hcount := unreleased_set s s.server (s.redis.release (new.userId, isoDay clock)) i
      ⟨new, fileIds, none, .threw⟩ new.userId day
    have hvalue := (hgood new.userId day).1
    rw [Redis.value_release, if_neg (fun heq => hday (Prod.mk.inj heq).2), h.counts] at hvalue
    simp [hget, Call.holds] at hcount
    omega
  | _ => cases hphase

theorem onItsDay_of_accounted {l : Label} (h : Inv settings s) (hstep : step settings s l = some s')
    (hgood : Accounted settings s') : OnItsDay s l := by
  cases l with
  | call i new fileIds => trivial
  | advance i answer =>
    cases answer with
    | statement => trivial
    | script clock lost => exact fun call hget hphase => release_day h hget hphase hstep hgood
    | failed => trivial
  | transaction tx => trivial
  | wait ms =>
    cases hstep
    intro counter hmem
    obtain ⟨⟨u, day⟩, hget⟩ := (OrderedMap.mem_values_iff _ _).mp hmem
    by_contra hexpired
    obtain ⟨hexpired, hvalue⟩ := not_or.mp hexpired
    have hgone : (s.redis.wait ms).value (u, day) = 0 := by
      rw [Redis.value, Redis.wait, OrderedMap.get_filter, hget, Option.filter_some,
        if_neg (by simpa using hexpired)]
      rfl
    have hold : s.redis.value (u, day) = counter.value := by
      rw [Redis.value, hget]
      rfl
    rw [h.counts] at hold
    have hnew := (hgood u day).1
    exact hvalue (hold.symm.trans (hnew.symm.trans hgone))

/-- The counters are right throughout a run exactly when every release is made on its day and no
counter expires that still counts a reservation. -/
theorem accounted_iff (settings : QuotaSettings) {ls : List Label}
    (hrun : run (step settings) .init ls = some s) :
    Throughout (step settings) (Accounted settings) .init ls ↔
      Along (step settings) OnItsDay .init ls :=
  throughout_iff_along (fun _ h => h.accounted) (fun _ _ _ h hok hstep => inv_step h hok hstep)
    (fun _ _ _ h hstep hgood => onItsDay_of_accounted h hstep hgood) (inv_init settings) hrun

instance decidableOnItsDay (s : System) : (l : Label) → Decidable (OnItsDay s l)
  | .advance i (.script clock _) =>
    inferInstanceAs (Decidable (∀ call ∈ s.calls.get i, Phase.isReleasing call.phase = true →
      call.reservation = some (isoDay clock)))
  | .wait ms => inferInstanceAs (Decidable (∀ counter ∈ s.redis.counters.values,
      s.redis.now + ms < counter.expiresAt ∨ counter.value = 0))
  | .advance _ .statement | .advance _ .failed | .call _ _ _ | .transaction _ => .isTrue trivial

def oneTask : QuotaSettings := ⟨⟨1, fun _ => true⟩, 100⟩

def newTaskOf (taskId : String) : NewTask := ⟨taskId, "u", none, "hello", .inr (taskId, "hello")⟩

/-- A second task of the user is refused because the first is active, and its reservation of the last
moment of a day is released at `clock`. -/
def refusedTask (clock : Nat) : List Label :=
  [.call 0 (newTaskOf "t") [], .advance 0 .statement, .advance 0 (.script (msPerDay - 1) false)] ++
    List.replicate 6 (.advance 0 .statement) ++
    [.call 1 (newTaskOf "t'") [], .advance 1 .statement, .advance 1 (.script (msPerDay - 1) false),
      .advance 1 .statement, .advance 1 .statement, .advance 1 (.script clock false)]

/-- Released after midnight, the reservation stays counted. -/
theorem not_accounted_after_midnight :
    ¬ Throughout (step oneTask) (Accounted oneTask) .init (refusedTask msPerDay) := by
  intro hgood
  have hend : (run (step oneTask) .init (refusedTask msPerDay)).any (fun s =>
      s.redis.value ("u", isoDay 0) = 2 && unreleased s "u" (isoDay 0) = 1) = true := by decide +kernel
  obtain ⟨s, hrun, hs⟩ := (Option.any_eq_true _ _).mp hend
  simp only [Bool.and_eq_true, decide_eq_true_eq] at hs
  have hvalue := (hgood.last hrun "u" (isoDay 0)).1
  rw [hs.1, hs.2] at hvalue
  cases hvalue

theorem accounted_same_day :
    Throughout (step oneTask) (Accounted oneTask) .init (refusedTask (msPerDay - 1)) := by
  have hrun : (run (step oneTask) .init (refusedTask (msPerDay - 1))).isSome = true := by decide +kernel
  obtain ⟨s, hrun⟩ := Option.isSome_iff_exists.mp hrun
  exact (accounted_iff oneTask hrun).mpr (by decide +kernel)

end TaskReservations
