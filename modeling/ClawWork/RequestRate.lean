import ClawWork.DailyQuota
import ClawWork.FixedWindows
import ClawWork.Transition

/-!
# The request rate

`consumeRequest` counts the requests of a user, or of an address, in the minute that the
API reads from its clock; the script that counts them runs later. A counter expires 65
seconds after the first request on it, which is five seconds after its minute has ended
or later, and the minute of a script that is later still is counted anew.
-/

namespace RequestRate

open DailyQuota Transition

def msPerMinute : Nat := 60000

/-- The time that a counter is kept from the first request on. -/
def expiry : Nat := 65000

/-- What the guard reads of a request; `userId` is that of the user whom the guard before it has
authenticated. -/
structure Request where
  url : Option String
  userId : Option String
  ip : Option String
  remoteAddress : Option String

/-- The paths that are not counted. -/
def Request.isExempt (request : Request) : Bool :=
  let path := (request.url.getD "").toList.takeWhile (· ≠ '?')
  "/health/".toList.isPrefixOf path || path = "/metrics".toList

def Request.identity (request : Request) : String :=
  (request.userId.or (request.ip.or request.remoteAddress)).getD "unknown"

def Request.isAuthenticated (request : Request) : Bool := request.userId.isSome

/-- `clawwork:rate:${user or ip}:${identity}:${bucket}`. -/
structure Key where
  authenticated : Bool
  identity : String
  bucket : Nat
  deriving DecidableEq

/-- `RATE_LIMIT_AUTHENTICATED_PER_MINUTE` and `RATE_LIMIT_ANONYMOUS_PER_MINUTE`. -/
structure Limits where
  authenticated : Nat
  anonymous : Nat

def Limits.of (limits : Limits) (authenticated : Bool) : Nat :=
  if authenticated then limits.authenticated else limits.anonymous

structure Redis where
  now : Nat
  counters : OrderedMap Key Counter

namespace Redis

def init : Redis := ⟨0, .empty⟩

def value (redis : Redis) (key : Key) : Nat := ((redis.counters.get key).map Counter.value).getD 0

/-- The script of `consumeRequest`. -/
def consume (redis : Redis) (key : Key) : Nat × Redis :=
  let n := redis.value key + 1
  let expiresAt :=
    match redis.counters.get key with
    | some counter => if n = 1 then redis.now + expiry else counter.expiresAt
    | none => redis.now + expiry
  (n, { redis with counters := redis.counters.set key ⟨n, expiresAt⟩ })

/-- Time passes, and the keys whose time has come expire. -/
def wait (redis : Redis) (ms : Nat) : Redis where
  now := redis.now + ms
  counters := redis.counters.filter fun counter => redis.now + ms < counter.expiresAt

end Redis

inductive Phase where
  | counting
  | passed
  /-- `request rate limit exceeded`. -/
  | refused
  /-- The request was counted, but the answer did not arrive. -/
  | lost
  /-- The script has not run. -/
  | failed
  deriving DecidableEq

/-- A call of `consumeRequest`. -/
structure Call where
  key : Key
  /-- The time at which it has read the clock. -/
  readAt : Nat
  phase : Phase
  deriving DecidableEq

structure System where
  redis : Redis
  calls : OrderedMap Nat Call

def System.init : System := ⟨.init, .empty⟩

inductive Label where
  | request (i : Nat) (request : Request)
  | script (i : Nat) (lost : Bool)
  | fail (i : Nat)
  | wait (ms : Nat)

def Request.key (request : Request) (now : Nat) : Key :=
  ⟨request.isAuthenticated, request.identity, now / msPerMinute⟩

/-- What the answer of the script makes of a call. -/
def answered (limits : Limits) (key : Key) (count : Nat) (lost : Bool) : Phase :=
  if lost then .lost
  else if limits.of key.authenticated < count then .refused
  else .passed

def step (limits : Limits) (s : System) : Label → Option System
  | .request i request =>
    if s.calls.get i = none then
      if request.isExempt then some s
      else some { s with calls := s.calls.set i ⟨request.key s.redis.now, s.redis.now, .counting⟩ }
    else none
  | .script i lost => do
    let call ← s.calls.get i
    if call.phase = .counting then
      let (count, redis) := s.redis.consume call.key
      some ⟨redis, s.calls.set i { call with phase := answered limits call.key count lost }⟩
    else none
  | .fail i => do
    let call ← s.calls.get i
    if call.phase = .counting then some { s with calls := s.calls.set i { call with phase := .failed } }
    else none
  | .wait ms => some { s with redis := s.redis.wait ms }

/-- The end of the time in which the counter of a key may be used. -/
def deadline (key : Key) : Nat := key.bucket * msPerMinute + expiry

/-- A script runs at most five seconds after the end of the minute of its request. -/
def Prompt (s : System) : Label → Prop
  | .script i _ => ∀ call ∈ s.calls.get i, s.redis.now < deadline call.key
  | _ => True

instance decidablePrompt (s : System) (l : Label) : Decidable (Prompt s l) :=
  match l with
  | .script i _ => inferInstanceAs (Decidable (∀ call ∈ s.calls.get i, s.redis.now < deadline call.key))
  | .request _ _ | .fail _ | .wait _ => inferInstanceAs (Decidable True)

/-- The requests of a key in a phase. -/
def inPhase (s : System) (key : Key) (phase : Phase) : Nat :=
  s.calls.values.countP fun call => call.key = key && call.phase = phase

/-- The requests of somebody that were let through. -/
def passedCalls (s : System) (authenticated : Bool) (identity : String) : List Call :=
  s.calls.values.filter fun call =>
    call.key.authenticated = authenticated && call.key.identity = identity && call.phase = .passed

/-- Those of them that have read the clock in the `m` minutes from `t` on. -/
def passedFrom (s : System) (authenticated : Bool) (identity : String) (t m : Nat) : Nat :=
  (passedCalls s authenticated identity).countP fun call =>
    FixedWindows.within t (m * msPerMinute) call.readAt

/-- The requests of a key whose script has run. -/
def counted (s : System) (key : Key) : Nat :=
  inPhase s key .passed + inPhase s key .refused + inPhase s key .lost

structure Inv (limits : Limits) (s : System) : Prop where
  placed : ∀ i call, s.calls.get i = some call →
    call.key.bucket = call.readAt / msPerMinute ∧ call.readAt ≤ s.redis.now
  kept : ∀ key counter, s.redis.counters.get key = some counter → deadline key ≤ counter.expiresAt
  counts : ∀ key, s.redis.now < deadline key → s.redis.value key = counted s key
  limit : ∀ key, inPhase s key .passed ≤ limits.of key.authenticated
  fair : ∀ key, 0 < inPhase s key .refused →
    limits.of key.authenticated ≤ inPhase s key .passed + inPhase s key .lost

variable {limits : Limits} {s s' : System} {redis : Redis} {i : Nat} {call : Call} {key : Key}

theorem inv_init (limits : Limits) : Inv limits .init where
  placed := fun i call h => by cases h
  kept := fun key counter h => by cases h
  counts := fun key _ => rfl
  limit := fun key => Nat.zero_le _
  fair := fun key h => by cases h

/-- A new call is counted in no phase but the first. -/
theorem inPhase_request (hnew : s.calls.get i = none) (hcall : call.phase = .counting) {phase : Phase}
    (hphase : phase ≠ .counting) (key : Key) :
    inPhase ⟨redis, s.calls.set i call⟩ key phase = inPhase s key phase := by
  have hset := OrderedMap.countP_set (fun call : Call => call.key = key && call.phase = phase) s.calls i call
  simp only [hnew, hcall, hphase.symm, Option.map_none, Option.getD_none, decide_false, Bool.and_false,
    Bool.toNat_false, Nat.add_zero] at hset
  exact hset

/-- A call that leaves the first phase is counted in the phase that it comes to. -/
theorem inPhase_leave (redis : Redis) (hget : s.calls.get i = some call) (hcall : call.phase = .counting)
    {phase : Phase} (hphase : phase ≠ .counting) (key : Key) (next : Phase) :
    inPhase ⟨redis, s.calls.set i { call with phase := next }⟩ key phase =
      inPhase s key phase + if call.key = key ∧ next = phase then 1 else 0 := by
  have hset := OrderedMap.countP_set (fun call : Call => call.key = key && call.phase = phase) s.calls i
    { call with phase := next }
  simp only [hget, hcall, hphase.symm, Option.map_some, Option.getD_some, decide_false, Bool.and_false,
    Bool.toNat_false, Nat.add_zero] at hset
  rw [inPhase, hset, inPhase]
  by_cases hkey : call.key = key <;> by_cases hnext : next = phase <;> simp [hkey, hnext]

theorem value_consume (redis : Redis) (key other : Key) :
    (redis.consume key).2.value other = redis.value other + if other = key then 1 else 0 := by
  by_cases hkey : other = key
  · simp [Redis.consume, Redis.value, hkey]
  · simp [Redis.consume, Redis.value, hkey]

/-- A counter that has not expired is kept. -/
theorem value_wait {redis : Redis} {ms : Nat} (hkept : ∀ counter, redis.counters.get key = some counter →
    deadline key ≤ counter.expiresAt) (hdeadline : redis.now + ms < deadline key) :
    (redis.wait ms).value key = redis.value key := by
  rw [Redis.value, Redis.wait, OrderedMap.get_filter]
  cases hget : redis.counters.get key with
  | none => simp [Redis.value, hget]
  | some counter =>
    have hexpires := hkept counter hget
    have hlive : redis.now + ms < counter.expiresAt := by omega
    rw [Option.filter_some, if_pos (decide_eq_true hlive), Redis.value, hget]

/-- A step that counts no request. -/
theorem Inv.quiet (h : Inv limits s)
    (hplaced : ∀ i call, s'.calls.get i = some call →
      call.key.bucket = call.readAt / msPerMinute ∧ call.readAt ≤ s'.redis.now)
    (hredis : s'.redis = s.redis)
    (hphase : ∀ key phase, phase ≠ .counting → phase ≠ .failed → inPhase s' key phase = inPhase s key phase) :
    Inv limits s' where
  placed := hplaced
  kept := by
    rw [hredis]
    exact h.kept
  counts := by
    intro key hdeadline
    rw [hredis] at hdeadline ⊢
    rw [h.counts key hdeadline, counted, counted, hphase key .passed (by decide) (by decide),
      hphase key .refused (by decide) (by decide), hphase key .lost (by decide) (by decide)]
  limit := by
    intro key
    rw [hphase key .passed (by decide) (by decide)]
    exact h.limit key
  fair := by
    intro key
    rw [hphase key .passed (by decide) (by decide), hphase key .refused (by decide) (by decide),
      hphase key .lost (by decide) (by decide)]
    exact h.fair key

/-- A call that moves stays where it was placed. -/
theorem Inv.placed_set (h : Inv limits s) (hget : s.calls.get i = some call) (next : Phase) (j : Nat)
    (other : Call) (hother : (s.calls.set i { call with phase := next }).get j = some other) :
    other.key.bucket = other.readAt / msPerMinute ∧ other.readAt ≤ s.redis.now := by
  rw [OrderedMap.get_set] at hother
  split at hother
  · cases hother
    exact h.placed i call hget
  · exact h.placed j other hother

theorem inv_request (h : Inv limits s) (request : Request) (hnew : s.calls.get i = none) :
    Inv limits { s with calls := s.calls.set i ⟨request.key s.redis.now, s.redis.now, .counting⟩ } := by
  apply h.quiet
  · intro j other hother
    rw [OrderedMap.get_set] at hother
    split at hother
    · cases hother
      exact ⟨rfl, Nat.le_refl _⟩
    · exact h.placed j other hother
  · rfl
  · exact fun key phase hphase _ => inPhase_request hnew rfl hphase key

theorem inv_fail (h : Inv limits s) (hget : s.calls.get i = some call) (hcall : call.phase = .counting) :
    Inv limits { s with calls := s.calls.set i { call with phase := .failed } } := by
  apply h.quiet
  · exact h.placed_set hget .failed
  · rfl
  · intro key phase hphase hfailed
    rw [inPhase_leave s.redis hget hcall hphase key .failed, if_neg fun heq => hfailed heq.2.symm]
    rfl

theorem inv_wait (h : Inv limits s) (ms : Nat) : Inv limits { s with redis := s.redis.wait ms } where
  placed := fun i call hget => ⟨(h.placed i call hget).1, Nat.le_add_right_of_le (h.placed i call hget).2⟩
  kept := by
    intro key counter hget
    simp only [Redis.wait, OrderedMap.get_filter, Option.filter_eq_some_iff] at hget
    exact h.kept key counter hget.1
  counts := by
    intro key hdeadline
    have hbefore : s.redis.now < deadline key := Nat.lt_of_le_of_lt (Nat.le_add_right _ _) hdeadline
    rw [value_wait (h.kept key) hdeadline, h.counts key hbefore]
    rfl
  limit := h.limit
  fair := h.fair

theorem answered_eq_passed_iff {count : Nat} {lost : Bool} :
    answered limits key count lost = .passed ↔ lost = false ∧ count ≤ limits.of key.authenticated := by
  unfold answered
  cases lost <;> simp

theorem answered_eq_refused_iff {count : Nat} {lost : Bool} :
    answered limits key count lost = .refused ↔ lost = false ∧ limits.of key.authenticated < count := by
  unfold answered
  cases lost <;> simp

theorem answered_cases (limits : Limits) (key : Key) (count : Nat) (lost : Bool) :
    answered limits key count lost = .passed ∨ answered limits key count lost = .refused ∨
      answered limits key count lost = .lost := by
  unfold answered
  split
  · exact .inr (.inr rfl)
  · split
    · exact .inr (.inl rfl)
    · exact .inl rfl

/-- The script counts one more request of its key, and passes it while the count is within the limit. -/
theorem inv_script (h : Inv limits s) (hget : s.calls.get i = some call) (hcall : call.phase = .counting)
    (hprompt : s.redis.now < deadline call.key) (lost : Bool) :
    Inv limits ⟨(s.redis.consume call.key).2, s.calls.set i
      { call with phase := answered limits call.key (s.redis.consume call.key).1 lost }⟩ := by
  have hcount : (s.redis.consume call.key).1 = counted s call.key + 1 :=
    congrArg (· + 1) (h.counts call.key hprompt)
  have hleave := fun key phase (hphase : phase ≠ Phase.counting) => inPhase_leave (s.redis.consume call.key).2
    hget hcall hphase key (answered limits call.key (s.redis.consume call.key).1 lost)
  obtain ⟨hbucket, hread⟩ := h.placed i call hget
  have hbegun : call.key.bucket * msPerMinute ≤ s.redis.now := by
    rw [hbucket]
    exact Nat.le_trans (Nat.div_mul_le_self _ _) hread
  constructor
  · exact h.placed_set hget _
  · intro key counter hkey
    simp only [Redis.consume, OrderedMap.get_set] at hkey
    split at hkey
    · rename_i heq
      subst heq
      cases hkey
      dsimp only
      split
      · rename_i old hold
        split
        · exact Nat.add_le_add_right hbegun expiry
        · exact h.kept _ old hold
      · exact Nat.add_le_add_right hbegun expiry
    · exact h.kept key counter hkey
  · intro key hdeadline
    have hvalue := value_consume s.redis call.key key
    have hbefore := h.counts key hdeadline
    rw [hvalue, hbefore, counted, counted, hleave key .passed (by decide), hleave key .refused (by decide),
      hleave key .lost (by decide)]
    by_cases hkey : call.key = key
    · have hone := answered_cases limits call.key (s.redis.consume call.key).1 lost
      rcases hone with hphase | hphase | hphase <;> simp [← hkey, hphase] <;> omega
    · simp [hkey, Ne.symm hkey]
  · intro key
    rw [hleave key .passed (by decide)]
    have hlimit := h.limit key
    split
    · rename_i hpassed
      obtain ⟨rfl, hphase⟩ := hpassed
      have hwithin := (answered_eq_passed_iff.mp hphase).2
      rw [hcount, counted] at hwithin
      omega
    · exact hlimit
  · intro key
    rw [hleave key .passed (by decide), hleave key .refused (by decide), hleave key .lost (by decide)]
    have hfair := h.fair key
    intro hrefused
    by_cases hnew : call.key = key ∧ answered limits call.key (s.redis.consume call.key).1 lost = .refused
    · obtain ⟨rfl, hphase⟩ := hnew
      have hover := (answered_eq_refused_iff.mp hphase).2
      rw [hcount, counted] at hover
      omega
    · rw [if_neg hnew] at hrefused
      have hold := hfair hrefused
      omega

theorem inv_step {l : Label} (h : Inv limits s) (hprompt : Prompt s l) (hstep : step limits s l = some s') :
    Inv limits s' := by
  cases l with
  | request i request =>
    simp only [step] at hstep
    split at hstep
    · rename_i hnew
      split at hstep <;> cases hstep
      · exact h
      · exact inv_request h request hnew
    · cases hstep
  | script i lost =>
    obtain ⟨call, hget, hstep⟩ := Option.bind_eq_some_iff.mp hstep
    split at hstep
    · rename_i hcall
      cases hstep
      exact inv_script h hget hcall (hprompt call hget) lost
    · cases hstep
  | fail i =>
    obtain ⟨call, hget, hstep⟩ := Option.bind_eq_some_iff.mp hstep
    split at hstep
    · rename_i hcall
      cases hstep
      exact inv_fail h hget hcall
    · cases hstep
  | wait ms =>
    cases hstep
    exact inv_wait h ms

/-- Of one window, the requests that were let through are those of its key. -/
theorem Inv.countP_passedCalls (h : Inv limits s) (authenticated : Bool) (identity : String) (b : Nat) :
    (passedCalls s authenticated identity).countP (fun call => call.readAt / msPerMinute = b) =
      inPhase s ⟨authenticated, identity, b⟩ .passed := by
  rw [passedCalls, inPhase, List.countP_filter]
  apply List.countP_congr
  intro call hmem
  obtain ⟨i, hget⟩ := (s.calls.mem_values_iff call).mp hmem
  obtain ⟨⟨kind, name, bucket⟩, readAt, phase⟩ := call
  have hbucket := (h.placed i _ hget).1
  dsimp only at hbucket
  simp only [Key.mk.injEq, Bool.and_eq_true, decide_eq_true_eq, hbucket]
  constructor
  · rintro ⟨hb, ⟨hkind, hname⟩, hphase⟩
    exact ⟨⟨hkind, hname, hb⟩, hphase⟩
  · rintro ⟨⟨hkind, hname, hb⟩, hphase⟩
    exact ⟨hb, ⟨hkind, hname⟩, hphase⟩

/-- While the scripts are prompt, the requests of a user or an address keep within the limit in each minute of
the clock, and in any `m` minutes in a row within `m + 1` times the limit; none is refused before as many as
the limit allows were let through, or lost their answers, in its minute. -/
theorem rate_limited (limits : Limits) {ls : List Label} (hrun : run (step limits) .init ls = some s)
    (hprompt : Along (step limits) Prompt .init ls) :
    (∀ key, inPhase s key .passed ≤ limits.of key.authenticated ∧ (0 < inPhase s key .refused →
      limits.of key.authenticated ≤ inPhase s key .passed + inPhase s key .lost)) ∧
    ∀ authenticated identity t m,
      passedFrom s authenticated identity t m ≤ (m + 1) * limits.of authenticated := by
  have h : Inv limits s := invariant_along (fun _ _ _ h => inv_step h) (inv_init limits) hprompt hrun
  refine ⟨fun key => ⟨h.limit key, h.fair key⟩, fun authenticated identity t m => ?_⟩
  apply FixedWindows.countP_within_le (by decide : 0 < msPerMinute)
  intro b
  rw [h.countP_passedCalls]
  exact h.limit ⟨authenticated, identity, b⟩

/-- Requests of one address, the last of them in the minute after. -/
def oneAddress : List Label :=
  let request : Request := ⟨some "/auth/login", none, some "192.0.2.1", none⟩
  [.wait 59000, .request 0 request, .script 0 false, .request 1 request, .script 1 false,
    .wait 2000, .request 2 request, .script 2 false]

theorem rate_limited_oneAddress : ∃ s, run (step ⟨1, 1⟩) .init oneAddress = some s ∧
    passedFrom s false "192.0.2.1" 59000 1 = 2 ∧ passedFrom s false "192.0.2.1" 59000 1 ≤ (1 + 1) * 1 ∧
    inPhase s ⟨false, "192.0.2.1", 0⟩ .refused = 1 := by
  have hrun : (run (step ⟨1, 1⟩) .init oneAddress).any (fun s =>
      passedFrom s false "192.0.2.1" 59000 1 = 2 ∧ inPhase s ⟨false, "192.0.2.1", 0⟩ .refused = 1) = true := by
    decide +kernel
  obtain ⟨s, hrun, hs⟩ := (Option.any_eq_true _ _).mp hrun
  obtain ⟨hpassed, hrefused⟩ := of_decide_eq_true hs
  have hlimited := rate_limited ⟨1, 1⟩ hrun (by decide +kernel)
  exact ⟨s, hrun, hpassed, hlimited.2 false "192.0.2.1" 59000 1, hrefused⟩

/-- A script that is too late counts its minute anew. -/
example : (run (step ⟨1, 1⟩) .init (
    let request : Request := ⟨some "/auth/login", none, some "192.0.2.1", none⟩
    [.request 0 request, .request 1 request, .script 0 false, .wait 65000, .script 1 false])).any
      (fun s => inPhase s ⟨false, "192.0.2.1", 0⟩ .passed = 2) = true := by
  decide +kernel

end RequestRate
