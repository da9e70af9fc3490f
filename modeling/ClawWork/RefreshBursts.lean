import ClawWork.MobileSession
import ClawWork.Transition
import Mathlib.Data.Fintype.EquivFin

/-!
# Bursts of unauthorized requests

Any number of requests get a 401, before, during and after the refreshes that it takes. The server
accepts each refresh token that it has issued once. Every fetch of the requests is kept in a log.
-/

namespace RefreshBursts

open MobileSession Transition

/-! ## The phone and its server -/

/-- A call of `requestAtBaseUrl`: a request, and how many base URLs it has left to try. -/
structure CallId where
  request : Nat
  baseUrls : Nat
  deriving DecidableEq

/-- A fetch of a request. -/
structure Attempt where
  call : CallId
  /-- The call has not been through a refresh. -/
  first : Bool
  accessToken : Option String
  /-- The refreshes that had completed at that time. -/
  completed : List Nat
  deriving DecidableEq

structure System where
  phone : Phone
  /-- The refresh tokens that the server has issued, and those that it has accepted. -/
  issued : List String
  used : List String
  /-- What the server has answered to each refresh: new tokens, or none where it rejects the token. -/
  answers : Nat → Option (Option AuthResponse)
  /-- The fetches of the requests, and the calls whose first one was unauthorized. -/
  attempts : List Attempt
  unauthorized : List CallId

/-- What `fetch` gives to a request where the network does not fail. -/
inductive Response where
  | unauthorized (again : Bool)
  | refused (again : Bool)
  | ok
  deriving DecidableEq

def Response.reply : Response → Reply
  | .unauthorized again => .unauthorized again
  | .refused again => .refused again
  | .ok => .ok

inductive Label where
  | request (i : Nat)
  | respond (i : Nat) (response : Response)
  | read (i : Nat) (body : Body)
  | resume (i : Nat)
  | reject (i : Nat) (again : Bool)
  /-- The server gets a refresh; `session` is what it issues if it accepts the token. -/
  | serve (r : Nat) (session : AuthResponse)
  | refreshRespond (r : Nat)
  | refreshRead (r : Nat)
  | refreshFinally (r : Nat)

def Request.callId (request : Request) (i : Nat) : CallId := ⟨i, request.baseUrls.length⟩

def completes (refresh : Refresh) : Bool :=
  match refresh.phase with
  | .finished _ => true
  | _ => false

/-- The refreshes whose promises have settled. -/
def completed (phone : Phone) : List Nat :=
  (List.range phone.refreshes.length).filter fun r => phone.refreshes[r]?.any completes

/-- The fetch that a request is at. -/
def sent (phone : Phone) (i : Nat) : List Attempt :=
  match phone.requests.get i with
  | some request =>
    match request.phase with
    | .fetching allowRefresh =>
      [⟨Request.callId request i, allowRefresh, phone.store.accessToken, completed phone⟩]
    | _ => []
  | none => []

namespace System

/-- The app has read a session, whose refresh token the server has issued. -/
def start (store : AuthState) (refreshToken : String) : System :=
  ⟨.start store, [refreshToken], [], fun _ => none, [], []⟩

/-- A request goes on, with what it fetches next. -/
def follow (s : System) (i : Nat) (phone : Phone) : System :=
  { s with phone, attempts := s.attempts ++ sent phone i }

/-- The server accepts a token that it has issued and not accepted before. -/
def serve (s : System) (r : Nat) (session : AuthResponse) : Option System :=
  match s.phone.refreshes[r]?, s.answers r with
  | some refresh, none =>
    if refresh.refreshToken ∈ s.issued ∧ refresh.refreshToken ∉ s.used then
      if session.refreshToken = "" ∨ session.refreshToken ∈ s.issued then none
      else some { s with
        issued := session.refreshToken :: s.issued
        used := refresh.refreshToken :: s.used
        answers := Function.update s.answers r (some (some session)) }
    else some { s with answers := Function.update s.answers r (some none) }
  | _, _ => none

/-- The first fetch of a call is answered. -/
def firstAnswer (s : System) (i : Nat) : Response → List CallId
  | .unauthorized _ =>
    match s.phone.requests.get i with
    | some request => if request.phase = .fetching true then [Request.callId request i] else []
    | none => []
  | _ => []

end System

variable (baseUrls : List String)

def step (s : System) : Label → Option System
  | .request i => (MobileSession.step baseUrls s.phone (.request i)).map (s.follow i)
  | .respond i response =>
    (MobileSession.step baseUrls s.phone (.respond i response.reply)).map fun phone =>
      { s.follow i phone with unauthorized := s.unauthorized ++ s.firstAnswer i response }
  | .read i body => (MobileSession.step baseUrls s.phone (.read i body)).map (s.follow i)
  | .resume i => (MobileSession.step baseUrls s.phone (.resume i)).map (s.follow i)
  | .reject i again => (MobileSession.step baseUrls s.phone (.reject i again)).map (s.follow i)
  | .serve r session => s.serve r session
  | .refreshRespond r =>
    match s.answers r with
    | some answer =>
      (MobileSession.step baseUrls s.phone (.refreshRespond r answer.isSome)).map fun phone => { s with phone }
    | none => none
  | .refreshRead r =>
    match s.answers r with
    | some answer =>
      (MobileSession.step baseUrls s.phone (.refreshRead r answer)).map fun phone => { s with phone }
    | none => none
  | .refreshFinally r =>
    (MobileSession.step baseUrls s.phone (.refreshFinally r)).map fun phone => { s with phone }

/-! ## What holds of a burst -/

/-- The fetches of a call before a refresh, and after one. -/
def System.firsts (s : System) (call : CallId) : List Attempt := s.attempts.filter fun a => a.call = call ∧ a.first

def System.retries (s : System) (call : CallId) : List Attempt :=
  s.attempts.filter fun a => a.call = call ∧ ¬ a.first

/-- The refresh has stored its tokens. -/
def Done (refresh : Refresh) : Prop := refresh.phase = .settled true ∨ refresh.phase = .finished true

/-- The fetch has the access token of a refresh that had not completed when the call was fetched first. -/
def System.Rotated (s : System) (a : Attempt) : Prop :=
  ∃ first r refresh session, s.firsts a.call = [first] ∧ r ∉ first.completed ∧
    s.phone.refreshes[r]? = some refresh ∧ Done refresh ∧ s.answers r = some (some session) ∧
    a.accessToken = some session.accessToken

/-- The refresh waits for the server, or for its answer to be read. -/
def InFlight (phone : Phone) (r : Nat) : Prop :=
  ∃ refresh, phone.refreshes[r]? = some refresh ∧ (refresh.phase = .fetching ∨ refresh.phase = .reading)

/-- A step of a refresh, or of a request that waits for one. -/
def Label.ofRefresh : Label → Prop
  | .serve _ _ | .refreshRespond _ | .refreshRead _ | .refreshFinally _ | .resume _ => True
  | _ => False

/-- Nothing is left to do for a refresh. -/
def System.Quiet (s : System) : Prop := ∀ l : Label, l.ofRefresh → step baseUrls s l = none

/-! ## The tokens -/

/-- What refreshes read and write. -/
structure Rotation where
  store : AuthState
  refreshPromise : Option Nat
  refreshes : List Refresh
  issued : List String
  used : List String
  answers : Nat → Option (Option AuthResponse)

def System.rotation (s : System) : Rotation :=
  ⟨s.phone.store, s.phone.refreshPromise, s.phone.refreshes, s.issued, s.used, s.answers⟩

variable {baseUrls : List String} {s s' : System} {x : Rotation} {phone : Phone} {i r : Nat} {request : Request}
  {refresh : Refresh} {session : AuthResponse} {call : CallId}

def HasToken (store : AuthState) : Prop := ∃ t, store.refreshToken = some t ∧ t ≠ ""

/-- The server accepts the token, and it was not submitted. -/
structure Unsent (x : Rotation) (t : String) : Prop where
  ne : t ≠ ""
  issued : t ∈ x.issued
  unused : t ∉ x.used
  unsent : t ∉ x.refreshes.map Refresh.refreshToken

/-- What is known of the refresh that is under way. -/
inductive Pending (x : Rotation) (r : Nat) (refresh : Refresh) : Prop where
  | sent (hphase : refresh.phase = .fetching) (hanswer : x.answers r = none)
      (hstore : x.store.refreshToken = some refresh.refreshToken) (hne : refresh.refreshToken ≠ "")
      (hissued : refresh.refreshToken ∈ x.issued) (hunused : refresh.refreshToken ∉ x.used)
  | answered (session : AuthResponse) (hphase : refresh.phase = .fetching ∨ refresh.phase = .reading)
      (hanswer : x.answers r = some (some session)) (hstore : HasToken x.store)
      (hunsent : Unsent x session.refreshToken)
  | stored (session : AuthResponse) (hphase : refresh.phase = .settled true)
      (hanswer : x.answers r = some (some session)) (hstore : x.store = setSession session)
      (hunsent : Unsent x session.refreshToken)

/-- The store has the tokens of a refresh that is no earlier. -/
def Latest (x : Rotation) (r : Nat) : Prop :=
  ∃ r' refresh session, r ≤ r' ∧ x.refreshes[r']? = some refresh ∧ Done refresh ∧
    x.answers r' = some (some session) ∧ x.store = setSession session

/-- Refreshes come one after the other, each with the token of the one before. -/
structure Tokens (x : Rotation) : Prop where
  earlier : ∀ r refresh, x.refreshes[r]? = some refresh → x.refreshPromise ≠ some r →
    refresh.phase = .finished true ∧ x.answers r ≠ none
  promise : ∀ r, x.refreshPromise = some r →
    r + 1 = x.refreshes.length ∧ ∃ refresh, x.refreshes[r]? = some refresh ∧ Pending x r refresh
  idle : x.refreshPromise = none → ∃ t, x.store.refreshToken = some t ∧ Unsent x t
  submitted : (x.refreshes.map Refresh.refreshToken).Nodup
  used : x.used ⊆ x.issued
  issued : x.refreshes.map Refresh.refreshToken ⊆ x.issued
  unanswered : ∀ r, x.refreshes.length ≤ r → x.answers r = none
  latest : ∀ r refresh, x.refreshes[r]? = some refresh → Done refresh → Latest x r

theorem tokens_start {store : AuthState} {token : String} (hstore : store.refreshToken = some token)
    (htoken : token ≠ "") : Tokens (System.start store token).rotation where
  earlier r refresh hr := by simp [System.rotation, System.start, Phone.start] at hr
  promise r hr := by cases hr
  idle _ := ⟨token, hstore, htoken, List.mem_singleton_self _, List.not_mem_nil, List.not_mem_nil⟩
  submitted := List.nodup_nil
  used := List.nil_subset _
  issued := List.nil_subset _
  unanswered _ _ := rfl
  latest r refresh hr := by simp [System.rotation, System.start, Phone.start] at hr

theorem Tokens.hasToken (h : Tokens x) : HasToken x.store := by
  cases hpromise : x.refreshPromise with
  | none =>
    obtain ⟨t, ht, hunsent⟩ := h.idle hpromise
    exact ⟨t, ht, hunsent.ne⟩
  | some r =>
    obtain ⟨-, refresh, -, hpending⟩ := h.promise r hpromise
    cases hpending with
    | sent _ _ hstore hne => exact ⟨_, hstore, hne⟩
    | answered _ _ _ hstore => exact hstore
    | stored session _ _ hstore hunsent => exact ⟨session.refreshToken, by rw [hstore]; rfl, hunsent.ne⟩

/-- A refresh that has not completed, or has no answer, is the one that requests join. -/
theorem Tokens.joined (h : Tokens x) (hr : x.refreshes[r]? = some refresh)
    (hphase : refresh.phase = .finished true → x.answers r = none) :
    x.refreshPromise = some r ∧ Pending x r refresh := by
  have hpromise : x.refreshPromise = some r := by
    by_contra hother
    obtain ⟨hfinished, hanswer⟩ := h.earlier r refresh hr hother
    exact hanswer (hphase hfinished)
  obtain ⟨-, refresh', hr', hpending⟩ := h.promise r hpromise
  cases hr.symm.trans hr'
  exact ⟨hpromise, hpending⟩

theorem getElem?_concat {α : Type*} {xs : List α} {x y : α} {n : Nat} (h : (xs ++ [x])[n]? = some y) :
    xs[n]? = some y ∨ n = xs.length ∧ y = x := by
  rw [List.getElem?_append] at h
  split at h
  · exact .inl h
  · rename_i hle
    rw [List.getElem?_singleton] at h
    split at h
    · cases h
      exact .inr ⟨by omega, rfl⟩
    · cases h

theorem getElem?_set_cases {α : Type*} {xs : List α} {x y : α} {m n : Nat} (h : (xs.set m x)[n]? = some y) :
    n = m ∧ y = x ∨ n ≠ m ∧ xs[n]? = some y := by
  rw [List.getElem?_set] at h
  split at h
  · rename_i heq
    split at h
    · cases h
      exact .inl ⟨heq.symm, rfl⟩
    · cases h
  · rename_i hne
    exact .inr ⟨fun heq => hne heq.symm, h⟩

/-- A refresh keeps its token. -/
theorem map_refreshToken_set {refreshes : List Refresh} (hr : refreshes[r]? = some refresh) (p : RefreshPhase) :
    (refreshes.set r { refresh with phase := p }).map Refresh.refreshToken =
    refreshes.map Refresh.refreshToken := by
  refine List.ext_getElem? fun n => ?_
  rw [List.getElem?_map, List.getElem?_map, List.getElem?_set]
  split
  · rename_i heq
    subst heq
    obtain ⟨hlt, -⟩ := List.getElem?_eq_some_iff.mp hr
    rw [if_pos hlt, hr]
    rfl
  · rfl

/-- A new refresh, with the token that is stored. -/
theorem Tokens.submit {t : String} {n : Nat} (h : Tokens x) (hidle : x.refreshPromise = none)
    (ht : x.store.refreshToken = some t) :
    Tokens { x with
      refreshPromise := some x.refreshes.length, refreshes := x.refreshes ++ [⟨t, n, .fetching⟩] } := by
  obtain ⟨t', ht', hunsent⟩ := h.idle hidle
  cases ht.symm.trans ht'
  constructor
  · intro r refresh hr hother
    rcases getElem?_concat hr with hr | ⟨rfl, -⟩
    · exact h.earlier r refresh hr (by rw [hidle]; intro heq; cases heq)
    · exact absurd rfl hother
  · intro r hr
    cases hr
    refine ⟨by simp, _, List.getElem?_concat_length, ?_⟩
    exact .sent rfl (h.unanswered _ le_rfl) ht hunsent.ne hunsent.issued hunsent.unused
  · intro hnone
    cases hnone
  · rw [List.map_append, List.map_singleton, List.nodup_append_comm]
    exact List.nodup_cons.mpr ⟨hunsent.unsent, h.submitted⟩
  · exact h.used
  · rw [List.map_append, List.map_singleton]
    exact List.append_subset.mpr ⟨h.issued, List.cons_subset.mpr ⟨hunsent.issued, List.nil_subset _⟩⟩
  · intro r hr
    rw [List.length_append] at hr
    exact h.unanswered r (Nat.le_of_add_right_le hr)
  · intro r refresh hr hdone
    rcases getElem?_concat hr with hr | ⟨-, rfl⟩
    · obtain ⟨r', refresh', session, hle, hr', hdone', hanswer, hstore⟩ := h.latest r refresh hr hdone
      exact ⟨r', refresh', session, hle, List.getElem?_append_left (List.getElem?_eq_some_iff.mp hr').1 ▸ hr',
        hdone',
        hanswer, hstore⟩
    · rcases hdone with hdone | hdone <;> cases hdone

/-- A refresh that is not answered has a token that the server accepts. -/
theorem Tokens.unanswered_sent (h : Tokens x) (hr : x.refreshes[r]? = some refresh) (hnone : x.answers r = none) :
    x.refreshPromise = some r ∧ refresh.phase = .fetching ∧ refresh.refreshToken ∈ x.issued ∧
      refresh.refreshToken ∉ x.used := by
  obtain ⟨hpromise, hpending⟩ := h.joined hr fun _ => hnone
  cases hpending with
  | sent hphase _ _ _ hissued hunused => exact ⟨hpromise, hphase, hissued, hunused⟩
  | answered _ _ hanswer => cases hnone.symm.trans hanswer
  | stored _ _ hanswer => cases hnone.symm.trans hanswer

/-- The server accepts a token, and issues another one. -/
theorem Tokens.accept (h : Tokens x) (hr : x.refreshes[r]? = some refresh) (hnone : x.answers r = none)
    (hne : session.refreshToken ≠ "") (hnew : session.refreshToken ∉ x.issued) :
    Tokens { x with
      issued := session.refreshToken :: x.issued
      used := refresh.refreshToken :: x.used
      answers := Function.update x.answers r (some (some session)) } := by
  obtain ⟨hpromise, hphase, hissued, -⟩ := h.unanswered_sent hr hnone
  have hother : ∀ {j : Nat}, j ≠ r → Function.update x.answers r (some (some session)) j = x.answers j :=
    fun hj => Function.update_of_ne hj _ _
  constructor
  · intro j refresh' hj hjoin
    have hj' : j ≠ r := fun heq => hjoin (heq ▸ hpromise)
    obtain ⟨hfinished, hanswer⟩ := h.earlier j refresh' hj hjoin
    exact ⟨hfinished, (hother hj').trans_ne hanswer⟩
  · intro j hj
    cases hj.symm.trans hpromise
    refine ⟨(h.promise r hpromise).1, refresh, hr, ?_⟩
    refine .answered session (.inl hphase) (Function.update_self ..) h.hasToken ⟨hne, List.mem_cons_self, ?_, ?_⟩
    · intro hmem
      rcases List.mem_cons.mp hmem with heq | hmem
      · exact hnew (heq ▸ hissued)
      · exact hnew (h.used hmem)
    · exact fun hmem => hnew (h.issued hmem)
  · intro hidle
    cases hidle.symm.trans hpromise
  · exact h.submitted
  · exact List.cons_subset.mpr ⟨List.mem_cons_of_mem _ hissued, fun t ht => List.mem_cons_of_mem _ (h.used ht)⟩
  · exact fun t ht => List.mem_cons_of_mem _ (h.issued ht)
  · intro j hj
    have hlt := (List.getElem?_eq_some_iff.mp hr).1
    exact (hother (Nat.ne_of_gt (lt_of_lt_of_le hlt hj))).trans (h.unanswered j hj)
  · intro j refresh' hj hdone
    obtain ⟨r', refresh'', session', hle, hr', hdone', hanswer, hstore⟩ := h.latest j refresh' hj hdone
    have hne' : r' ≠ r := fun heq => by cases (heq ▸ hanswer).symm.trans hnone
    exact ⟨r', refresh'', session', hle, hr', hdone', (hother hne').trans hanswer, hstore⟩

/-- The refresh that is under way goes on. -/
theorem Tokens.move (h : Tokens x) (hpromise : x.refreshPromise = some r) (hr : x.refreshes[r]? = some refresh)
    {p : RefreshPhase} {store : AuthState} {y : Rotation}
    (hy : y = { x with store := store, refreshes := x.refreshes.set r { refresh with phase := p } })
    (hpending : Pending y r { refresh with phase := p })
    (hlatest : ∀ j refresh', y.refreshes[j]? = some refresh' → Done refresh' → Latest y j) : Tokens y := by
  have hlength : y.refreshes.length = x.refreshes.length := by rw [hy, List.length_set]
  have hmap : y.refreshes.map Refresh.refreshToken = x.refreshes.map Refresh.refreshToken := by
    rw [hy]
    exact map_refreshToken_set hr p
  have hat : y.refreshes[r]? = some { refresh with phase := p } := by
    rw [hy]
    exact List.getElem?_set_self (List.getElem?_eq_some_iff.mp hr).1
  have hsame : y.refreshPromise = some r ∧ y.issued = x.issued ∧ y.used = x.used ∧ y.answers = x.answers := by
    rw [hy]
    exact ⟨hpromise, rfl, rfl, rfl⟩
  obtain ⟨hpromise', hissued, hused, hanswers⟩ := hsame
  constructor
  · intro j refresh' hj hjoin
    rw [hpromise'] at hjoin
    rw [hy] at hj
    rcases getElem?_set_cases hj with ⟨rfl, -⟩ | ⟨-, hj⟩
    · exact absurd rfl hjoin
    · rw [hanswers]
      exact h.earlier j refresh' hj (by rw [hpromise]; exact hjoin)
  · intro j hj
    cases hj.symm.trans hpromise'
    exact ⟨by rw [hlength]; exact (h.promise r hpromise).1, _, hat, hpending⟩
  · intro hidle
    cases hidle.symm.trans hpromise'
  · rw [hmap]
    exact h.submitted
  · rw [hused, hissued]
    exact h.used
  · rw [hmap, hissued]
    exact h.issued
  · rw [hlength, hanswers]
    exact h.unanswered
  · exact hlatest

theorem Unsent.set {t : String} (h : Unsent x t) (hr : x.refreshes[r]? = some refresh) (p : RefreshPhase)
    (store : AuthState) (promise : Option Nat) :
    Unsent { x with
      store := store, refreshPromise := promise, refreshes := x.refreshes.set r { refresh with phase :=
      p } } t := by
  refine ⟨h.ne, h.issued, h.unused, ?_⟩
  rw [map_refreshToken_set hr p]
  exact h.unsent

/-- The server's answer to a refresh arrives. -/
theorem Tokens.respond (h : Tokens x) (hr : x.refreshes[r]? = some refresh) (hphase : refresh.phase = .fetching)
    {answer : Option AuthResponse} (hanswer : x.answers r = some answer) :
    answer.isSome ∧ Tokens { x with refreshes := x.refreshes.set r { refresh with phase := .reading } } := by
  obtain ⟨hpromise, hpending⟩ := h.joined hr fun hfinished => by rw [hphase] at hfinished; cases hfinished
  cases hpending with
  | sent _ hnone => cases hnone.symm.trans hanswer
  | stored _ hphase' => rw [hphase] at hphase'; cases hphase'
  | answered session _ hanswer' hstore hunsent =>
    cases hanswer.symm.trans hanswer'
    refine ⟨rfl, h.move hpromise hr rfl ?_ fun j refresh' hj hdone => ?_⟩
    · exact .answered session (.inr rfl) hanswer hstore (hunsent.set hr _ _ _)
    · rcases getElem?_set_cases hj with ⟨-, rfl⟩ | ⟨-, hj⟩
      · rcases hdone with hdone | hdone <;> cases hdone
      · obtain ⟨r', refresh'', session', hle, hr', hdone', hanswer', hstore'⟩ := h.latest j refresh' hj hdone
        refine ⟨r', refresh'', session', hle, ?_, hdone', hanswer', hstore'⟩
        rw [List.getElem?_set_ne]
        · exact hr'
        · rintro rfl
          cases hr.symm.trans hr'
          rcases hdone' with hdone' | hdone' <;> rw [hphase] at hdone' <;> cases hdone'

/-- The new tokens are read. -/
theorem Tokens.read (h : Tokens x) (hr : x.refreshes[r]? = some refresh) (hphase : refresh.phase = .reading)
    {answer : Option AuthResponse} (hanswer : x.answers r = some answer) :
    ∃ session, answer = some session ∧ Tokens { x with
      store := setSession session, refreshes := x.refreshes.set r { refresh with phase := .settled true } } := by
  obtain ⟨hpromise, hpending⟩ := h.joined hr fun hfinished => by rw [hphase] at hfinished; cases hfinished
  cases hpending with
  | sent hphase' => rw [hphase] at hphase'; cases hphase'
  | stored _ hphase' => rw [hphase] at hphase'; cases hphase'
  | answered session _ hanswer' hstore hunsent =>
    cases hanswer.symm.trans hanswer'
    refine ⟨session, rfl, h.move hpromise hr rfl ?_ fun j refresh' hj hdone => ?_⟩
    · exact .stored session rfl hanswer rfl (hunsent.set hr _ _ _)
    · obtain ⟨hlt, -⟩ := List.getElem?_eq_some_iff.mp hj
      rw [List.length_set] at hlt
      refine ⟨r, _, session, ?_, List.getElem?_set_self (List.getElem?_eq_some_iff.mp hr).1, .inl rfl, hanswer,
        rfl⟩
      have hlast := (h.promise r hpromise).1
      omega

/-- The promise of a refresh settles. -/
theorem Tokens.finish (h : Tokens x) (hr : x.refreshes[r]? = some refresh) {refreshed : Bool}
    (hphase : refresh.phase = .settled refreshed) :
    Tokens { x with
      refreshPromise := none, refreshes := x.refreshes.set r { refresh with phase := .finished refreshed } } := by
  obtain ⟨hpromise, hpending⟩ := h.joined hr fun hfinished => by rw [hphase] at hfinished; cases hfinished
  cases hpending with
  | sent hphase' => rw [hphase] at hphase'; cases hphase'
  | answered _ hphase' => rcases hphase' with hphase' | hphase' <;> rw [hphase] at hphase' <;> cases hphase'
  | stored session hphase' hanswer hstore hunsent =>
    rw [hphase] at hphase'
    cases hphase'
    constructor
    · intro j refresh' hj _
      rcases getElem?_set_cases hj with ⟨rfl, rfl⟩ | ⟨hne, hj⟩
      · exact ⟨rfl, by rw [hanswer]; exact Option.some_ne_none _⟩
      · exact h.earlier j refresh' hj (by rw [hpromise]; exact fun heq => hne (Option.some.inj heq).symm)
    · intro j hj
      cases hj
    · intro _
      exact ⟨session.refreshToken, by rw [hstore]; rfl, hunsent.set hr _ _ _⟩
    · rw [map_refreshToken_set hr]
      exact h.submitted
    · exact h.used
    · rw [map_refreshToken_set hr]
      exact h.issued
    · rw [List.length_set]
      exact h.unanswered
    · intro j refresh' hj _
      obtain ⟨hlt, -⟩ := List.getElem?_eq_some_iff.mp hj
      rw [List.length_set] at hlt
      refine ⟨r, _, session, ?_, List.getElem?_set_self (List.getElem?_eq_some_iff.mp hr).1, .inr rfl, hanswer,
        hstore⟩
      have hlast := (h.promise r hpromise).1
      omega

/-- A refresh that has settled has new tokens. -/
theorem Tokens.finished (h : Tokens x) (hr : x.refreshes[r]? = some refresh) {refreshed : Bool}
    (hphase : refresh.phase = .finished refreshed) : refreshed = true := by
  by_cases hpromise : x.refreshPromise = some r
  · obtain ⟨-, refresh', hr', hpending⟩ := h.promise r hpromise
    cases hr.symm.trans hr'
    cases hpending with
    | sent hphase' => rw [hphase] at hphase'; cases hphase'
    | answered _ hphase' => rcases hphase' with hphase' | hphase' <;> rw [hphase] at hphase' <;> cases hphase'
    | stored _ hphase' => rw [hphase] at hphase'; cases hphase'
  · have hfinished := (h.earlier r refresh hr hpromise).1
    rw [hphase] at hfinished
    cases hfinished
    rfl

/-! ## The calls -/

/-- The call waits for a refresh. -/
def Waits (s : System) (call : CallId) : Prop :=
  ∃ request r, s.phone.requests.get call.request = some request ∧ Request.callId request call.request = call ∧
    request.phase = .refreshing r

/-- A completed refresh is among the completed ones, with all before it. -/
structure Closed (refreshes : List Refresh) (completed : List Nat) : Prop where
  completes : ∀ r ∈ completed, ∃ refresh, refreshes[r]? = some refresh ∧ completes refresh = true
  earlier : ∀ r ∈ completed, ∀ r' ≤ r, r' ∈ completed

/-- Where a call is, and what was sent for it. -/
structure Calls (s : System) : Prop where
  api : ∀ i request, s.phone.requests.get i = some request → request.purpose = .api ∧ request.phase ≠ .rejecting
  begun : ∀ a ∈ s.attempts, ∃ request, s.phone.requests.get a.call.request = some request ∧
    request.baseUrls.length ≤ a.call.baseUrls
  unauthorized : ∀ call ∈ s.unauthorized, (∃ first, s.firsts call = [first]) ∧
    (Waits s call ∧ s.retries call = [] ∨ (s.retries call).length = 1)
  retried : ∀ a ∈ s.attempts, a.first = false → a.call ∈ s.unauthorized ∧ s.Rotated a
  waiting : ∀ i request r, s.phone.requests.get i = some request → request.phase = .refreshing r →
    Request.callId request i ∈ s.unauthorized ∧ s.retries (Request.callId request i) = [] ∧
    (∃ refresh, s.phone.refreshes[r]? = some refresh) ∧ ∀ first ∈ s.firsts (Request.callId request i),
    r ∉ first.completed
  fetching : ∀ i request, s.phone.requests.get i = some request → request.phase = .fetching true →
    Request.callId request i ∉ s.unauthorized ∧ ∃ first, s.firsts (Request.callId request i) = [first]
  closed : ∀ a ∈ s.attempts, Closed s.phone.refreshes a.completed

theorem calls_start (store : AuthState) (token : String) : Calls (.start store token) where
  api i request h := by cases h
  begun a h := (List.not_mem_nil h).elim
  unauthorized call h := (List.not_mem_nil h).elim
  retried a h := (List.not_mem_nil h).elim
  waiting i request r h := by cases h
  fetching i request h := by cases h
  closed a h := (List.not_mem_nil h).elim

/-- Refreshes go on, and their answers are kept. -/
structure Onward (s s' : System) : Prop where
  refreshes : ∀ (r : Nat) refresh, s.phone.refreshes[r]? = some refresh →
    ∃ refresh', s'.phone.refreshes[r]? = some refresh' ∧ (Done refresh → Done refresh') ∧
      (completes refresh = true → completes refresh' = true)
  answers : ∀ r session, s.answers r = some (some session) → s'.answers r = some (some session)

theorem Onward.closed (h : Onward s s') {done : List Nat} (hclosed : Closed s.phone.refreshes done) :
    Closed s'.phone.refreshes done := by
  refine ⟨fun r hr => ?_, hclosed.earlier⟩
  obtain ⟨refresh, hrefresh, hcompletes⟩ := hclosed.completes r hr
  obtain ⟨refresh', hrefresh', -, hkept⟩ := h.refreshes r refresh hrefresh
  exact ⟨refresh', hrefresh', hkept hcompletes⟩

theorem Onward.rotated (h : Onward s s') {a : Attempt} (hfirsts : s'.firsts a.call = s.firsts a.call)
    (ha : s.Rotated a) : s'.Rotated a := by
  obtain ⟨first, r, refresh, session, hfirst, hr, hrefresh, hdone, hanswer, htoken⟩ := ha
  obtain ⟨refresh', hrefresh', hkept, -⟩ := h.refreshes r refresh hrefresh
  exact ⟨first, r, refresh', session, hfirsts.trans hfirst, hr, hrefresh', hkept hdone,
    h.answers r session hanswer,
    htoken⟩

/-- A step of a refresh. -/
theorem Calls.onward (h : Calls s) (ho : Onward s s') (hrequests : s'.phone.requests = s.phone.requests)
    (hattempts : s'.attempts = s.attempts) (hunauthorized : s'.unauthorized = s.unauthorized) : Calls s' := by
  have hfirsts : ∀ call, s'.firsts call = s.firsts call := fun call => by rw [System.firsts, hattempts]; rfl
  have hretries : ∀ call, s'.retries call = s.retries call := fun call => by rw [System.retries, hattempts]; rfl
  constructor
  · rw [hrequests]
    exact h.api
  · rw [hrequests, hattempts]
    exact h.begun
  · intro call hcall
    rw [hunauthorized] at hcall
    obtain ⟨hfirst, hretry⟩ := h.unauthorized call hcall
    rw [hfirsts, hretries, Waits, hrequests]
    exact ⟨hfirst, hretry⟩
  · intro a ha hfirst
    rw [hattempts] at ha
    obtain ⟨hcall, hrotated⟩ := h.retried a ha hfirst
    exact ⟨hunauthorized ▸ hcall, ho.rotated (hfirsts _) hrotated⟩
  · intro i request r hget hphase
    rw [hrequests] at hget
    obtain ⟨hcall, hretry, ⟨refresh, hrefresh⟩, hcompleted⟩ := h.waiting i request r hget hphase
    obtain ⟨refresh', hrefresh', -⟩ := ho.refreshes r refresh hrefresh
    rw [hfirsts, hretries, hunauthorized]
    exact ⟨hcall, hretry, ⟨refresh', hrefresh'⟩, hcompleted⟩
  · intro i request hget hphase
    rw [hrequests] at hget
    rw [hunauthorized, hfirsts]
    exact h.fetching i request hget hphase
  · intro a ha
    rw [hattempts] at ha
    exact ho.closed (h.closed a ha)

/-- No fetch of the call was sent. -/
def Unbegun (s : System) (call : CallId) : Prop :=
  ∀ request, s.phone.requests.get call.request = some request → call.baseUrls < request.baseUrls.length

theorem Calls.unbegun (h : Calls s) (hcall : Unbegun s call) :
    s.firsts call = [] ∧ s.retries call = [] ∧ call ∉ s.unauthorized := by
  have hnone : ∀ a ∈ s.attempts, a.call ≠ call := by
    rintro a ha rfl
    obtain ⟨request, hget, hle⟩ := h.begun a ha
    exact absurd (hcall request hget) (Nat.not_lt.mpr hle)
  have hfirsts : s.firsts call = [] := List.filter_eq_nil_iff.mpr fun a ha => by simp [hnone a ha]
  refine ⟨hfirsts, List.filter_eq_nil_iff.mpr fun a ha => by simp [hnone a ha], fun hmem => ?_⟩
  obtain ⟨⟨first, hfirst⟩, -⟩ := h.unauthorized call hmem
  rw [hfirsts] at hfirst
  cases hfirst

theorem mem_completed {phone : Phone} : r ∈ completed phone ↔
    ∃ refresh, phone.refreshes[r]? = some refresh ∧ completes refresh = true := by
  simp only [completed, List.mem_filter, List.mem_range, Option.any_eq_true]
  constructor
  · exact fun h => h.2
  · rintro ⟨refresh, hr, hcompletes⟩
    exact ⟨(List.getElem?_eq_some_iff.mp hr).1, refresh, hr, hcompletes⟩

/-- Refreshes complete in their order. -/
theorem Tokens.closed (h : Tokens s.rotation) : Closed s.phone.refreshes (completed s.phone) := by
  refine ⟨fun r hr => mem_completed.mp hr, fun r hr r' hle => ?_⟩
  obtain ⟨refresh, hrefresh, -⟩ := mem_completed.mp hr
  rcases Nat.eq_or_lt_of_le hle with rfl | hlt
  · exact hr
  · obtain ⟨hlength, -⟩ := List.getElem?_eq_some_iff.mp hrefresh
    have hr' := List.getElem?_eq_getElem (Nat.lt_trans hlt hlength)
    have hjoin : s.phone.refreshPromise ≠ some r' := fun hpromise => by
      have hlast := (h.promise r' hpromise).1
      change r' + 1 = s.phone.refreshes.length at hlast
      omega
    refine mem_completed.mpr ⟨_, hr', ?_⟩
    rw [completes, (h.earlier r' _ hr' hjoin).1]

/-- The refresh that requests join has not completed. -/
theorem Tokens.incomplete (h : Tokens s.rotation) (hpromise : s.phone.refreshPromise = some r) :
    (∃ refresh, s.phone.refreshes[r]? = some refresh) ∧ ∀ refresh, s.phone.refreshes[r]? = some refresh →
      completes refresh = false := by
  obtain ⟨-, refresh, hr, hpending⟩ := h.promise r hpromise
  refine ⟨⟨refresh, hr⟩, fun refresh' hr' => ?_⟩
  cases hr.symm.trans hr'
  cases hpending with
  | sent hphase => rw [completes, hphase]
  | answered _ hphase => rcases hphase with hphase | hphase <;> rw [completes, hphase]
  | stored _ hphase => rw [completes, hphase]

/-- What is asked of the call of a request that goes on. -/
structure Moved (s s' : System) (i : Nat) (request : Request) (fetches : List Attempt) : Prop where
  api : request.purpose = .api ∧ request.phase ≠ .rejecting
  begun : ∀ old, s.phone.requests.get i = some old → request.baseUrls.length ≤ old.baseUrls.length
  waited : ∀ call ∈ s.unauthorized, Waits s call → call.request = i → call = Request.callId request i
  sent : ∀ a ∈ fetches, a.call = Request.callId request i ∧ Closed s.phone.refreshes a.completed ∧
    (a.first = false → a.call ∈ s'.unauthorized ∧ s'.Rotated a)
  unauthorized : Request.callId request i ∈ s'.unauthorized →
    (∃ first, s'.firsts (Request.callId request i) = [first]) ∧
    ((∃ r, request.phase = .refreshing r) ∧ s'.retries (Request.callId request i) = [] ∨
      (s'.retries (Request.callId request i)).length = 1)
  waiting : ∀ r, request.phase = .refreshing r → Request.callId request i ∈ s'.unauthorized ∧
    s'.retries (Request.callId request i) = [] ∧ (∃ refresh, s.phone.refreshes[r]? = some refresh) ∧
    ∀ first ∈ s'.firsts (Request.callId request i), r ∉ first.completed
  fetching : request.phase = .fetching true → Request.callId request i ∉ s'.unauthorized ∧
    ∃ first, s'.firsts (Request.callId request i) = [first]
  firsts : s.retries (Request.callId request i) = [] ∨
    s'.firsts (Request.callId request i) = s.firsts (Request.callId request i)

/-- A request goes on, and all other calls stay where they are. -/
theorem Calls.put (h : Calls s) (request : Request) (fetches : List Attempt) (calls : List CallId)
    (hphone : s'.phone = s.phone.putRequest i request) (hanswers : s'.answers = s.answers)
    (hattempts : s'.attempts = s.attempts ++ fetches) (hunauthorized : s'.unauthorized = s.unauthorized ++ calls)
    (hcalls : ∀ call ∈ calls, call = Request.callId request i) (hm : Moved s s' i request fetches) : Calls s' := by
  have hrequests : s'.phone.requests = s.phone.requests.set i request := by
    rw [hphone]
    rfl
  have hrefreshes : s'.phone.refreshes = s.phone.refreshes := by
    rw [hphone]
    rfl
  have hget : ∀ j request', s'.phone.requests.get j = some request' →
      (j = i ∧ request' = request) ∨ j ≠ i ∧ s.phone.requests.get j = some request' := by
    intro j request' hj
    rw [hrequests, OrderedMap.get_set] at hj
    split at hj
    · rename_i hji
      cases hj
      exact .inl ⟨hji, rfl⟩
    · rename_i hji
      exact .inr ⟨hji, hj⟩
  have hself : s'.phone.requests.get i = some request := by rw [hrequests, OrderedMap.get_set_same]
  have hfirsts : ∀ call, call ≠ Request.callId request i → s'.firsts call = s.firsts call := by
    intro call hcall
    have hnone : (fetches.filter fun a => a.call = call ∧ a.first) = [] :=
      List.filter_eq_nil_iff.mpr fun a ha => by simp [(hm.sent a ha).1, hcall.symm]
    rw [System.firsts, hattempts, List.filter_append, hnone, List.append_nil]
    rfl
  have hretries : ∀ call, call ≠ Request.callId request i → s'.retries call = s.retries call := by
    intro call hcall
    have hnone : (fetches.filter fun a => a.call = call ∧ ¬ a.first) = [] :=
      List.filter_eq_nil_iff.mpr fun a ha => by simp [(hm.sent a ha).1, hcall.symm]
    rw [System.retries, hattempts, List.filter_append, hnone, List.append_nil]
    rfl
  have ho : Onward s s' := by
    refine ⟨fun r refresh hr => ⟨refresh, by rw [hrefreshes]; exact hr, id, id⟩, fun r session hr => ?_⟩
    rw [hanswers]
    exact hr
  constructor
  · intro j request' hj
    rcases hget j request' hj with ⟨-, rfl⟩ | ⟨-, hj⟩
    · exact hm.api
    · exact h.api j request' hj
  · intro a ha
    rw [hattempts] at ha
    rcases List.mem_append.mp ha with ha | ha
    · obtain ⟨request', hj, hle⟩ := h.begun a ha
      by_cases hi : a.call.request = i
      · rw [hi] at hj ⊢
        exact ⟨request, hself, (hm.begun request' hj).trans hle⟩
      · exact ⟨request', by rw [hrequests, OrderedMap.get_set_other _ _ hi]; exact hj, hle⟩
    · rw [(hm.sent a ha).1]
      exact ⟨request, hself, le_rfl⟩
  · intro call hcall
    by_cases hmoved : call = Request.callId request i
    · subst hmoved
      obtain ⟨hfirst, hretry⟩ := hm.unauthorized hcall
      refine ⟨hfirst, hretry.imp (fun hwaits => ⟨?_, hwaits.2⟩) id⟩
      obtain ⟨r, hphase⟩ := hwaits.1
      exact ⟨request, r, hself, rfl, hphase⟩
    · rw [hunauthorized] at hcall
      have hold := (List.mem_append.mp hcall).resolve_right fun hnew => hmoved (hcalls call hnew)
      obtain ⟨hfirst, hretry⟩ := h.unauthorized call hold
      rw [hfirsts call hmoved, hretries call hmoved]
      refine ⟨hfirst, hretry.imp (fun hwaits => ⟨?_, hwaits.2⟩) id⟩
      have hother : call.request ≠ i := fun hi => hmoved (hm.waited call hold hwaits.1 hi)
      obtain ⟨request', r, hj, hid, hphase⟩ := hwaits.1
      exact ⟨request', r, by rw [hrequests, OrderedMap.get_set_other _ _ hother]; exact hj, hid, hphase⟩
  · intro a ha hfirst
    rw [hattempts] at ha
    rcases List.mem_append.mp ha with ha | ha
    · obtain ⟨hcall, hrotated⟩ := h.retried a ha hfirst
      refine ⟨by rw [hunauthorized]; exact List.mem_append_left _ hcall, ho.rotated ?_ hrotated⟩
      by_cases hmoved : a.call = Request.callId request i
      · have hretry : a ∈ s.retries (Request.callId request i) :=
          List.mem_filter.mpr ⟨ha, by simp [hmoved, hfirst]⟩
        rw [hmoved]
        exact hm.firsts.resolve_left (List.ne_nil_of_mem hretry)
      · exact hfirsts a.call hmoved
    · exact (hm.sent a ha).2.2 hfirst
  · intro j request' r hj hphase
    rcases hget j request' hj with ⟨rfl, rfl⟩ | ⟨hne, hj⟩
    · rw [hrefreshes]
      exact hm.waiting r hphase
    · obtain ⟨hcall, hretry, hrefresh, hcompleted⟩ := h.waiting j request' r hj hphase
      have hid : Request.callId request' j ≠ Request.callId request i := fun heq => hne
        (congrArg CallId.request heq)
      rw [hrefreshes, hfirsts _ hid, hretries _ hid, hunauthorized]
      exact ⟨List.mem_append_left _ hcall, hretry, hrefresh, hcompleted⟩
  · intro j request' hj hphase
    rcases hget j request' hj with ⟨rfl, rfl⟩ | ⟨hne, hj⟩
    · exact hm.fetching hphase
    · obtain ⟨hcall, hfirst⟩ := h.fetching j request' hj hphase
      have hid : Request.callId request' j ≠ Request.callId request i := fun heq => hne
        (congrArg CallId.request heq)
      rw [hfirsts _ hid, hunauthorized]
      refine ⟨fun hmem => ?_, hfirst⟩
      rcases List.mem_append.mp hmem with hmem | hmem
      · exact hcall hmem
      · exact hid (hcalls _ hmem)
  · intro a ha
    rw [hattempts] at ha
    rcases List.mem_append.mp ha with ha | ha
    · exact ho.closed (h.closed a ha)
    · exact ho.closed (hm.sent a ha).2.1

/-- A call ends, or its answer is read. -/
theorem Calls.settle (h : Calls s) (hget : s.phone.requests.get i = some request)
    (hphase : ∀ r, request.phase ≠ .refreshing r) {p : RequestPhase} (hp : p = .reading ∨ p = .finished)
    (hphone : s'.phone = s.phone.putRequest i { request with phase := p }) (hanswers : s'.answers = s.answers)
    (hattempts : s'.attempts = s.attempts) (hunauthorized : s'.unauthorized = s.unauthorized) : Calls s' := by
  have hfirsts : ∀ call, s'.firsts call = s.firsts call := fun call => by rw [System.firsts, hattempts]; rfl
  have hretries : ∀ call, s'.retries call = s.retries call := fun call => by rw [System.retries, hattempts]; rfl
  have hmoved : ∀ call, call.request = i → ¬ Waits s call := by
    rintro call rfl ⟨request', r, hj, -, hwaiting⟩
    cases hget.symm.trans hj
    exact hphase r hwaiting
  refine h.put { request with phase := p } [] [] hphone hanswers
    (by rw [hattempts, List.append_nil]) (by rw [hunauthorized, List.append_nil])
    (fun _ hcall => (List.not_mem_nil hcall).elim) ?_
  constructor
  · exact ⟨(h.api i request hget).1, by rcases hp with rfl | rfl <;> intro heq <;> cases heq⟩
  · intro old hold
    cases hget.symm.trans hold
    exact le_rfl
  · exact fun call _ hwaits hi => absurd hwaits (hmoved call hi)
  · exact fun a ha => (List.not_mem_nil ha).elim
  · intro hmem
    rw [hunauthorized] at hmem
    obtain ⟨hfirst, hretry⟩ := h.unauthorized _ hmem
    rw [hfirsts, hretries]
    exact ⟨hfirst, .inr (hretry.resolve_left fun hwaits => hmoved _ rfl hwaits.1)⟩
  · intro r hwaiting
    rcases hp with rfl | rfl <;> cases hwaiting
  · intro hfetching
    rcases hp with rfl | rfl <;> cases hfetching
  · exact .inr (hfirsts _)

/-- The first fetch of a call. -/
theorem Calls.fetch (h : Calls s) (request : Request) (hunbegun : Unbegun s (Request.callId request i))
    (hpurpose : request.purpose = .api)
    (hfetching : request.phase = .fetching true) (hold : ∀ old, s.phone.requests.get i = some old →
      request.baseUrls.length ≤ old.baseUrls.length ∧ ∀ r, old.phase ≠ .refreshing r)
    {token : Option String} {done : List Nat} (hclosed : Closed s.phone.refreshes done)
    (hphone : s'.phone = s.phone.putRequest i request) (hanswers : s'.answers = s.answers)
    (hattempts : s'.attempts = s.attempts ++ [⟨Request.callId request i, true, token, done⟩])
    (hunauthorized : s'.unauthorized = s.unauthorized) : Calls s' := by
  obtain ⟨hnone, hnoretry, hnot⟩ := h.unbegun hunbegun
  refine h.put request _ [] hphone hanswers hattempts
    (by rw [hunauthorized, List.append_nil]) (fun _ hcall => (List.not_mem_nil hcall).elim) ?_
  constructor
  · exact ⟨hpurpose, by rw [hfetching]; intro heq; cases heq⟩
  · exact fun old hget => (hold old hget).1
  · rintro call - ⟨request', r, hget, -, hwaiting⟩ rfl
    exact absurd hwaiting ((hold request' hget).2 r)
  · intro a ha
    rw [List.mem_singleton.mp ha]
    exact ⟨rfl, hclosed, fun hfirst => by cases hfirst⟩
  · intro hmem
    rw [hunauthorized] at hmem
    exact absurd hmem hnot
  · intro r hwaiting
    rw [hfetching] at hwaiting
    cases hwaiting
  · refine fun _ => ⟨by rw [hunauthorized]; exact hnot, ⟨Request.callId request i, true, token, done⟩, ?_⟩
    rw [System.firsts, hattempts, List.filter_append]
    change s.firsts _ ++ _ = _
    rw [hnone]
    simp
  · exact .inl hnoretry

/-- A call waits for a refresh that has not completed. -/
theorem Calls.join (h : Calls s) (hget : s.phone.requests.get i = some request)
    (hphase : request.phase = .fetching true) (hrefresh : ∃ refresh, s.phone.refreshes[r]? = some refresh)
    (hincomplete : ∀ refresh, s.phone.refreshes[r]? = some refresh → completes refresh = false)
    (hphone : s'.phone = s.phone.putRequest i { request with phase := .refreshing r })
    (hanswers : s'.answers = s.answers) (hattempts : s'.attempts = s.attempts)
    (hunauthorized : s'.unauthorized = s.unauthorized ++ [Request.callId request i]) : Calls s' := by
  have hfirsts : ∀ call, s'.firsts call = s.firsts call := fun call => by rw [System.firsts, hattempts]; rfl
  have hretries : ∀ call, s'.retries call = s.retries call := fun call => by rw [System.retries, hattempts]; rfl
  have hmem : Request.callId request i ∈ s'.unauthorized := by
    rw [hunauthorized]
    exact List.mem_append_right _ (List.mem_singleton_self _)
  obtain ⟨hnot, hfirst⟩ := h.fetching i request hget hphase
  have hnoretry : s.retries (Request.callId request i) = [] := by
    refine List.filter_eq_nil_iff.mpr fun a ha hretry => ?_
    simp only [decide_eq_true_eq, Bool.not_eq_true] at hretry
    exact hnot (hretry.1 ▸ (h.retried a ha hretry.2).1)
  refine h.put { request with phase := .refreshing r } [] [Request.callId request i] hphone hanswers
    (by rw [hattempts, List.append_nil]) hunauthorized (fun call hcall => List.mem_singleton.mp hcall) ?_
  constructor
  · exact ⟨(h.api i request hget).1, fun heq => by cases heq⟩
  · intro old hold
    cases hget.symm.trans hold
    exact le_rfl
  · rintro call - ⟨request', r', hj, -, hwaiting⟩ rfl
    cases hget.symm.trans hj
    rw [hphase] at hwaiting
    cases hwaiting
  · exact fun a ha => (List.not_mem_nil ha).elim
  · intro _
    rw [hfirsts, hretries]
    exact ⟨hfirst, .inl ⟨⟨r, rfl⟩, hnoretry⟩⟩
  · intro r' hwaiting
    cases hwaiting
    refine ⟨hmem, by rw [hretries]; exact hnoretry, hrefresh, fun first hfirst hr => ?_⟩
    rw [hfirsts] at hfirst
    obtain ⟨refresh, hrefresh, hcompletes⟩ :=
      (h.closed first (List.mem_of_mem_filter hfirst)).completes r hr
    rw [hincomplete refresh hrefresh] at hcompletes
    cases hcompletes
  · intro hfetching
    cases hfetching
  · exact .inr (hfirsts _)

/-- A call is fetched again with the tokens of a refresh. -/
theorem Calls.resume (h : Calls s) (hget : s.phone.requests.get i = some request)
    (hphase : request.phase = .refreshing r)
    {r' : Nat} (hle : r ≤ r') (hrefresh : s.phone.refreshes[r']? = some refresh) (hdone : Done refresh)
    (hanswer : s.answers r' = some (some session)) {done : List Nat} (hclosed : Closed s.phone.refreshes done)
    (hphone : s'.phone = s.phone.putRequest i { request with phase := .fetching false })
    (hanswers : s'.answers = s.answers)
    (hattempts : s'.attempts = s.attempts ++ [⟨Request.callId request i, false, some session.accessToken, done⟩])
    (hunauthorized : s'.unauthorized = s.unauthorized) : Calls s' := by
  obtain ⟨hmem, hnoretry, -, hcompleted⟩ := h.waiting i request r hget hphase
  obtain ⟨⟨first, hfirst⟩, -⟩ := h.unauthorized _ hmem
  have hfirsts : s'.firsts (Request.callId request i) = s.firsts (Request.callId request i) := by
    rw [System.firsts, hattempts, List.filter_append, List.filter_cons_of_neg (by simp), List.filter_nil,
      List.append_nil]
    rfl
  have hretries : (s'.retries (Request.callId request i)).length = 1 := by
    rw [System.retries, hattempts, List.filter_append]
    change (s.retries _ ++ _).length = 1
    rw [hnoretry]
    simp
  refine h.put { request with phase := .fetching false } _ [] hphone hanswers hattempts
    (by rw [hunauthorized, List.append_nil]) (fun _ hcall => (List.not_mem_nil hcall).elim) ?_
  constructor
  · exact ⟨(h.api i request hget).1, fun heq => by cases heq⟩
  · intro old hold
    cases hget.symm.trans hold
    exact le_rfl
  · rintro call - ⟨request', r', hj, hid, -⟩ rfl
    cases hget.symm.trans hj
    exact hid.symm
  · intro a ha
    rw [List.mem_singleton.mp ha]
    have hcall : Request.callId request i ∈ s'.unauthorized := by
      rw [hunauthorized]
      exact hmem
    refine ⟨rfl, hclosed, fun _ => ⟨hcall, first, r', refresh, session, ?_, ?_, ?_, hdone, ?_, rfl⟩⟩
    · exact hfirsts.trans hfirst
    · have hfirstMem : first ∈ s.firsts (Request.callId request i) := by
        rw [hfirst]
        exact List.mem_singleton_self _
      intro hr'
      have hearlier := (h.closed first (List.mem_of_mem_filter hfirstMem)).earlier r' hr' r hle
      exact hcompleted first hfirstMem hearlier
    · rw [hphone]
      exact hrefresh
    · rw [hanswers]
      exact hanswer
  · exact fun _ => ⟨⟨first, hfirsts.trans hfirst⟩, .inr hretries⟩
  · intro r'' hwaiting
    cases hwaiting
  · intro hfetching
    cases hfetching
  · exact .inr hfirsts

/-! ## Every step -/

structure Inv (s : System) : Prop where
  tokens : Tokens s.rotation
  calls : Calls s

theorem sent_fetching {allowRefresh : Bool} (hget : phone.requests.get i = some request)
    (hphase : request.phase = .fetching allowRefresh) :
    sent phone i = [⟨Request.callId request i, allowRefresh, phone.store.accessToken, completed phone⟩] := by
  rw [sent, hget]
  dsimp only
  rw [hphase]

theorem sent_other (hget : phone.requests.get i = some request)
    (hphase : ∀ allowRefresh, request.phase ≠ .fetching allowRefresh) : sent phone i = [] := by
  rw [sent, hget]
  dsimp only
  split
  · rename_i hfetching
    exact absurd hfetching (hphase _)
  · rfl

theorem Inv.settle (h : Inv s) (hget : s.phone.requests.get i = some request)
    (hphase : ∀ r, request.phase ≠ .refreshing r) {p : RequestPhase} (hp : p = .reading ∨ p = .finished) :
    Inv (s.follow i (s.phone.putRequest i { request with phase := p })) := by
  refine ⟨h.tokens, h.calls.settle hget hphase hp rfl rfl ?_ rfl⟩
  refine (congrArg (s.attempts ++ ·) (sent_other (OrderedMap.get_set_same ..) ?_)).trans (List.append_nil _)
  intro allowRefresh heq
  rcases hp with rfl | rfl <;> cases heq

/-- A call throws: its request has ended, or goes on with the next base URL. -/
theorem Inv.throw (h : Inv s) (hget : s.phone.requests.get i = some request)
    (hphase : ∀ r, request.phase ≠ .refreshing r) (again : Bool) :
    Inv (s.follow i (s.phone.throw baseUrls i request again)) := by
  have hapi := (h.calls.api i request hget).1
  have hfinish : s.phone.finish baseUrls i request none = s.phone.putRequest i { request with phase :=
    .finished } := by
    unfold Phone.finish
    rw [hapi]
  unfold Phone.throw
  split
  · rename_i first next rest hurls
    split
    · have hless : (next :: rest).length < request.baseUrls.length := by
        rw [hurls]
        exact Nat.lt_succ_self _
      let moved : Request := { request with baseUrls := next :: rest, phase := .fetching true }
      refine ⟨h.tokens, h.calls.fetch moved ?_ hapi rfl (fun old hold => ?_) h.tokens.closed rfl rfl
        (congrArg (s.attempts ++ ·) (sent_fetching (OrderedMap.get_set_same ..) rfl)) rfl⟩
      · intro old hold
        cases hget.symm.trans hold
        exact hless
      · cases hget.symm.trans hold
        exact ⟨Nat.le_of_lt hless, hphase⟩
    · rw [hfinish]
      exact h.settle hget hphase (.inr rfl)
  · rw [hfinish]
    exact h.settle hget hphase (.inr rfl)

/-- Where `refreshSession` leads to when there is a token. -/
theorem joinRefresh_spec (h : Tokens s.rotation) : ∃ phone r, s.phone.joinRefresh = some (phone, r) ∧
    phone.requests = s.phone.requests ∧ phone.refreshPromise = some r ∧
    Tokens ({ s with phone } : System).rotation ∧ Onward s { s with phone } := by
  obtain ⟨token, htoken, hne⟩ := h.hasToken
  change s.phone.store.refreshToken = some token at htoken
  unfold Phone.joinRefresh
  rw [htoken]
  dsimp only
  rw [if_neg hne]
  cases hpromise : s.phone.refreshPromise with
  | some r => exact ⟨s.phone, r, rfl, rfl, hpromise, h, fun r refresh hr => ⟨refresh, hr, id, id⟩, fun _ _ h => h⟩
  | none =>
    refine ⟨_, _, rfl, rfl, rfl, h.submit hpromise htoken, fun r refresh hr => ⟨refresh, ?_, id, id⟩,
      fun _ _ h => h⟩
    exact (List.getElem?_append_left (List.getElem?_eq_some_iff.mp hr).1).trans hr

theorem follow_of_firstAnswer {response : Response} (h : s.firstAnswer i response = []) :
    { s.follow i phone with unauthorized := s.unauthorized ++ s.firstAnswer i response } = s.follow i phone := by
  rw [h, List.append_nil]
  rfl

/-- A call gets its first 401. -/
theorem Inv.join (h : Inv s) (hget : s.phone.requests.get i = some request)
    (hphase : request.phase = .fetching true) (again : Bool) :
    Inv { s.follow i (s.phone.respond baseUrls i request true (.unauthorized again)) with
      unauthorized := s.unauthorized ++ [Request.callId request i] } := by
  obtain ⟨phone, r, hjoin, hrequests, hpromise, htokens, ho⟩ := joinRefresh_spec h.tokens
  have hcalls : Calls { s with phone } := h.calls.onward ho hrequests rfl rfl
  obtain ⟨hrefresh, hincomplete⟩ := htokens.incomplete hpromise
  have hphone : s.phone.respond baseUrls i request true (.unauthorized again) =
      phone.putRequest i { request with phase := .refreshing r } := by
    unfold Phone.respond
    dsimp only
    rw [if_pos rfl, hjoin]
  rw [hphone]
  refine ⟨htokens, hcalls.join (by rw [hrequests]; exact hget) hphase hrefresh hincomplete rfl rfl ?_ rfl⟩
  exact (congrArg (s.attempts ++ ·) (sent_other (OrderedMap.get_set_same ..) fun _ heq => by cases heq)).trans
    (List.append_nil _)

theorem inv_respond (h : Inv s) {response : Response} (hstep : step baseUrls s (.respond i response) = some s') :
    Inv s' := by
  obtain ⟨phone, hphone, rfl⟩ := Option.map_eq_some_iff.mp hstep
  obtain ⟨request, hget, hphone⟩ := Option.bind_eq_some_iff.mp hphone
  split at hphone
  · rename_i allowRefresh hphase
    cases hphone
    have hother : ∀ r, request.phase ≠ .refreshing r := fun r heq => by rw [hphase] at heq; cases heq
    cases response with
    | unauthorized again =>
      cases allowRefresh with
      | true =>
        have hanswer : s.firstAnswer i (.unauthorized again) = [Request.callId request i] := by
          simp only [System.firstAnswer, hget, hphase, if_pos]
        rw [hanswer]
        exact h.join hget hphase again
      | false =>
        have hanswer : s.firstAnswer i (.unauthorized again) = [] := by
          simp only [System.firstAnswer, hget, hphase]
          rfl
        rw [follow_of_firstAnswer hanswer]
        exact h.throw hget hother again
    | refused again =>
      rw [follow_of_firstAnswer rfl]
      exact h.throw hget hother again
    | ok =>
      rw [follow_of_firstAnswer rfl]
      exact h.settle hget hother (.inl rfl)
  · cases hphone

theorem inv_request (h : Inv s) (hstep : step baseUrls s (.request i) = some s') : Inv s' := by
  obtain ⟨phone, hphone, rfl⟩ := Option.map_eq_some_iff.mp hstep
  simp only [MobileSession.step] at hphone
  split at hphone
  · rename_i hnone
    cases hphone
    have hnew : ∀ old, s.phone.requests.get i ≠ some old := fun old heq => by rw [hnone] at heq; cases heq
    exact ⟨h.tokens, h.calls.fetch ⟨.api, baseUrls, .fetching true⟩ (fun old hold => absurd hold
      (hnew old)) rfl rfl
      (fun old hold => absurd hold (hnew old)) h.tokens.closed rfl rfl
      (congrArg (s.attempts ++ ·) (sent_fetching (OrderedMap.get_set_same ..) rfl)) rfl⟩
  · cases hphone

theorem inv_read (h : Inv s) {body : Body} (hstep : step baseUrls s (.read i body) = some s') : Inv s' := by
  obtain ⟨phone, hphone, rfl⟩ := Option.map_eq_some_iff.mp hstep
  obtain ⟨request, hget, hphone⟩ := Option.bind_eq_some_iff.mp hphone
  have hapi := (h.calls.api i request hget).1
  split at hphone
  · rename_i session hphase _
    cases hphone
    have hfinish : s.phone.finish baseUrls i request session =
        s.phone.putRequest i { request with phase := .finished } := by
      unfold Phone.finish
      rw [hapi]
    rw [hfinish]
    exact h.settle hget (fun r heq => by rw [hphase] at heq; cases heq) (.inr rfl)
  · rename_i again hphase _
    cases hphone
    exact h.throw hget (fun r heq => by rw [hphase] at heq; cases heq) again
  · cases hphone

theorem inv_resume (h : Inv s) (hstep : step baseUrls s (.resume i) = some s') : Inv s' := by
  obtain ⟨phone, hphone, rfl⟩ := Option.map_eq_some_iff.mp hstep
  obtain ⟨request, hget, hphone⟩ := Option.bind_eq_some_iff.mp hphone
  split at hphone
  · rename_i r hphase
    obtain ⟨refresh, hr, hphone⟩ := Option.bind_eq_some_iff.mp hphone
    split at hphone
    · rename_i refreshed hfinished
      cases hphone
      cases h.tokens.finished hr hfinished
      obtain ⟨r', refresh', session, hle, hr', hdone, hanswer, hstore⟩ := h.tokens.latest r refresh hr
        (.inr hfinished)
      refine ⟨h.tokens, h.calls.resume hget hphase hle hr' hdone hanswer h.tokens.closed rfl rfl ?_ rfl⟩
      refine congrArg (s.attempts ++ ·) ((sent_fetching (OrderedMap.get_set_same ..) rfl).trans ?_)
      change s.phone.store = setSession session at hstore
      change [Attempt.mk _ _ s.phone.store.accessToken _] = _
      rw [hstore]
      rfl
    · cases hphone
  · cases hphone

theorem not_reject (h : Inv s) {again : Bool} : step baseUrls s (.reject i again) ≠ some s' := by
  intro hstep
  obtain ⟨phone, hphone, -⟩ := Option.map_eq_some_iff.mp hstep
  obtain ⟨request, hget, hphone⟩ := Option.bind_eq_some_iff.mp hphone
  split at hphone
  · rename_i hphase
    exact (h.calls.api i request hget).2 hphase
  · cases hphone

/-- The answers to refreshes that were given are kept. -/
theorem inv_serve (h : Inv s) (hstep : s.serve r session = some s') : Inv s' := by
  unfold System.serve at hstep
  split at hstep
  · rename_i refresh hr hnone
    obtain ⟨-, -, hissued, hunused⟩ := h.tokens.unanswered_sent hr hnone
    change refresh.refreshToken ∈ s.issued at hissued
    change refresh.refreshToken ∉ s.used at hunused
    rw [if_pos ⟨hissued, hunused⟩] at hstep
    split at hstep
    · cases hstep
    · rename_i hnew
      cases hstep
      obtain ⟨hne, hnew⟩ := not_or.mp hnew
      refine ⟨h.tokens.accept hr hnone hne hnew, h.calls.onward ⟨fun r refresh hr => ⟨refresh, hr, id, id⟩,
        ?_⟩ rfl rfl rfl⟩
      intro j session' hj
      have hne : j ≠ r := fun heq => by
        subst heq
        cases hnone.symm.trans hj
      exact (Function.update_of_ne hne _ _).trans hj
  · cases hstep

/-- A refresh that changes its phase, but does not lose what it has stored. -/
theorem Inv.move (h : Inv s) (hr : s.phone.refreshes[r]? = some refresh) {p : RefreshPhase} {s' : System}
    (htokens : Tokens s'.rotation)
    (hrefreshes : s'.phone.refreshes = s.phone.refreshes.set r { refresh with phase := p })
    (hdone : Done refresh → p = .settled true ∨ p = .finished true)
    (hcompletes : completes refresh = true → ∃ refreshed, p = .finished refreshed)
    (hrequests : s'.phone.requests = s.phone.requests) (hanswers : s'.answers = s.answers)
    (hattempts : s'.attempts = s.attempts) (hunauthorized : s'.unauthorized = s.unauthorized) : Inv s' := by
  have hkept : ∀ j session, s.answers j = some (some session) → s'.answers j = some (some session) := by
    rw [hanswers]
    exact fun _ _ hj => hj
  refine ⟨htokens, h.calls.onward ⟨fun j refresh' hj => ?_, hkept⟩ hrequests hattempts hunauthorized⟩
  rw [hrefreshes, List.getElem?_set]
  split
  · rename_i heq
    subst heq
    cases hr.symm.trans hj
    rw [if_pos (List.getElem?_eq_some_iff.mp hr).1]
    refine ⟨_, rfl, hdone, fun hfinished => ?_⟩
    obtain ⟨refreshed, rfl⟩ := hcompletes hfinished
    rfl
  · exact ⟨refresh', hj, id, id⟩

theorem inv_refreshRespond (h : Inv s) (hstep : step baseUrls s (.refreshRespond r) = some s') : Inv s' := by
  simp only [step] at hstep
  split at hstep
  · rename_i answer hanswer
    obtain ⟨phone, hphone, rfl⟩ := Option.map_eq_some_iff.mp hstep
    obtain ⟨refresh, hr, hphone⟩ := Option.bind_eq_some_iff.mp hphone
    split at hphone
    · rename_i hphase
      cases hphone
      obtain ⟨hok, htokens⟩ := h.tokens.respond hr hphase hanswer
      rw [hok]
      refine h.move hr htokens rfl (fun hdone => ?_) (fun hfinished => ?_) rfl rfl rfl rfl
      · rcases hdone with hdone | hdone <;> rw [hphase] at hdone <;> cases hdone
      · rw [completes, hphase] at hfinished
        cases hfinished
    · cases hphone
  · cases hstep

theorem inv_refreshRead (h : Inv s) (hstep : step baseUrls s (.refreshRead r) = some s') : Inv s' := by
  simp only [step] at hstep
  split at hstep
  · rename_i answer hanswer
    obtain ⟨phone, hphone, rfl⟩ := Option.map_eq_some_iff.mp hstep
    obtain ⟨refresh, hr, hphone⟩ := Option.bind_eq_some_iff.mp hphone
    split at hphone
    · rename_i hphase
      cases hphone
      obtain ⟨session, rfl, htokens⟩ := h.tokens.read hr hphase hanswer
      refine h.move hr htokens rfl (fun _ => .inl rfl) (fun hfinished => ?_) rfl rfl rfl rfl
      rw [completes, hphase] at hfinished
      cases hfinished
    · cases hphone
  · cases hstep

theorem inv_refreshFinally (h : Inv s) (hstep : step baseUrls s (.refreshFinally r) = some s') : Inv s' := by
  obtain ⟨phone, hphone, rfl⟩ := Option.map_eq_some_iff.mp hstep
  obtain ⟨refresh, hr, hphone⟩ := Option.bind_eq_some_iff.mp hphone
  split at hphone
  · rename_i refreshed hphase
    cases hphone
    refine h.move hr (h.tokens.finish hr hphase) rfl (fun hdone => ?_) (fun _ => ⟨refreshed, rfl⟩) rfl rfl rfl rfl
    rcases hdone with hdone | hdone <;> rw [hphase] at hdone <;> cases hdone
    exact .inr rfl
  · cases hphone

theorem inv_step (s : System) (l : Label) (s' : System) (h : Inv s) (hstep : step baseUrls s l = some s') :
    Inv s' := by
  cases l with
  | request i => exact inv_request h hstep
  | respond i response => exact inv_respond h hstep
  | read i body => exact inv_read h hstep
  | resume i => exact inv_resume h hstep
  | reject i again => exact absurd hstep (not_reject h)
  | serve r session => exact inv_serve h hstep
  | refreshRespond r => exact inv_refreshRespond h hstep
  | refreshRead r => exact inv_refreshRead h hstep
  | refreshFinally r => exact inv_refreshFinally h hstep

/-! ## What is left to do -/

/-- There is a token that the server has not issued. -/
theorem exists_new (issued : List String) : ∃ t : String, t ≠ "" ∧ t ∉ issued := by
  have : Infinite String := .of_injective (toString : Nat → String) fun _ _ h => JavaScript.toString_injective h
  obtain ⟨t, ht⟩ := Infinite.exists_notMem_finset (insert "" issued.toFinset)
  rw [Finset.mem_insert, List.mem_toFinset, not_or] at ht
  exact ⟨t, ht⟩

/-- A refresh that has not completed can go on. -/
theorem not_pending_of_quiet (hquiet : s.Quiet baseUrls) (hr : s.phone.refreshes[r]? = some refresh) :
    ¬ Pending s.rotation r refresh := by
  intro hpending
  cases hpending with
  | sent hphase hanswer _ _ hissued hunused =>
    obtain ⟨t, hne, hnew⟩ := exists_new s.issued
    have hserve := hquiet (.serve r ⟨"", t, ⟨"", none, ""⟩⟩) trivial
    change s.answers r = none at hanswer
    simp only [step, System.serve, hr, hanswer] at hserve
    rw [if_pos ⟨hissued, hunused⟩, if_neg (not_or.mpr ⟨hne, hnew⟩)] at hserve
    cases hserve
  | answered session hphase hanswer =>
    change s.answers r = some (some session) at hanswer
    rcases hphase with hphase | hphase
    · have hrespond := hquiet (.refreshRespond r) trivial
      simp only [step, hanswer, MobileSession.step, hr, Option.bind_eq_bind, Option.bind_some, hphase] at hrespond
      cases hrespond
    · have hread := hquiet (.refreshRead r) trivial
      simp only [step, hanswer, MobileSession.step, hr, Option.bind_eq_bind, Option.bind_some, hphase] at hread
      cases hread
  | stored session hphase =>
    have hfinally := hquiet (.refreshFinally r) trivial
    simp only [step, MobileSession.step, hr, Option.bind_eq_bind, Option.bind_some, hphase] at hfinally
    cases hfinally

/-- Where nothing is left to do for a refresh, no call waits for one. -/
theorem not_waits_of_quiet (h : Inv s) (hquiet : s.Quiet baseUrls) : ¬ Waits s call := by
  rintro ⟨request, r, hget, -, hphase⟩
  obtain ⟨-, -, ⟨refresh, hr⟩, -⟩ := h.calls.waiting _ request r hget hphase
  by_cases hpromise : s.phone.refreshPromise = some r
  · obtain ⟨-, refresh', hr', hpending⟩ := h.tokens.promise r hpromise
    cases hr.symm.trans hr'
    exact not_pending_of_quiet hquiet hr hpending
  · have hfinished := (h.tokens.earlier r refresh hr hpromise).1
    have hresume := hquiet (.resume call.request) trivial
    simp only [step, MobileSession.step, hget, Option.bind_eq_bind, Option.bind_some, hphase, hr,
      hfinished] at hresume
    cases hresume

/-- **No sign-out.** In every state that a burst of requests leads to, the phone has its refresh token, one
refresh at most is in flight, and no token was submitted twice. Each call whose first fetch was unauthorized
is fetched once more when its refresh has been through, with tokens that are newer than that first fetch. -/
theorem burst_keeps_session (baseUrls : List String) (store : AuthState) (token : String)
    (hstore : store.refreshToken = some token) (htoken : token ≠ "") {ls : List Label} {s : System}
    (hrun : run (step baseUrls) (.start store token) ls = some s) :
    HasToken s.phone.store ∧
    (∀ r r', InFlight s.phone r → InFlight s.phone r' → r = r') ∧
    (s.phone.refreshes.map Refresh.refreshToken).Nodup ∧
    (∀ a ∈ s.attempts, a.first = false → a.call ∈ s.unauthorized ∧ s.Rotated a) ∧
    ∀ call ∈ s.unauthorized, (s.retries call).length ≤ 1 ∧
      (s.Quiet baseUrls → (s.retries call).length = 1) := by
  have h : Inv s := invariant_run inv_step ⟨tokens_start hstore htoken, calls_start store token⟩ hrun
  have hflight : ∀ r, InFlight s.phone r → s.phone.refreshPromise = some r := by
    rintro r ⟨refresh, hr, hphase⟩
    refine (h.tokens.joined hr fun hfinished => ?_).1
    rcases hphase with hphase | hphase <;> rw [hphase] at hfinished <;> cases hfinished
  refine ⟨h.tokens.hasToken, fun r r' hr hr' => ?_, h.tokens.submitted, h.calls.retried, fun call hcall => ?_⟩
  · exact Option.some.inj ((hflight r hr).symm.trans (hflight r' hr'))
  · obtain ⟨-, hretry⟩ := h.calls.unauthorized call hcall
    rcases hretry with ⟨hwaits, hnone⟩ | hone
    · exact ⟨by rw [hnone]; exact Nat.zero_le 1, fun hquiet => absurd hwaits (not_waits_of_quiet h hquiet)⟩
    · exact ⟨hone.le, fun _ => hone⟩

def signedIn : AuthState := ⟨⟨some "access1", some "refresh1", some "user1", none, some "Nick"⟩, true⟩

def rotatedTokens (n : Nat) : AuthResponse :=
  ⟨"access" ++ toString n, "refresh" ++ toString n, ⟨"user1", none, "Nick"⟩⟩

/-- Two requests share a refresh, and the answer to a third one comes in after it. -/
def lateAnswer : List Label :=
  [.request 0, .request 1, .request 2, .respond 0 (.unauthorized false), .respond 1 (.unauthorized false),
    .serve 0 (rotatedTokens 2), .refreshRespond 0, .refreshRead 0, .refreshFinally 0, .resume 0, .resume 1,
    .respond 2 (.unauthorized false), .serve 1 (rotatedTokens 3), .refreshRespond 1, .refreshRead 1,
    .refreshFinally 1, .resume 2]

theorem burst_keeps_session_lateAnswer :
    ∃ s, run (step ["http://127.0.0.1:3001"]) (.start signedIn "refresh1") lateAnswer = some s ∧
      (s.attempts.filter fun a => ¬ a.first).map Attempt.accessToken =
        [some "access2", some "access2", some "access3"] ∧
      HasToken s.phone.store ∧ (s.phone.refreshes.map Refresh.refreshToken).Nodup ∧
      ∀ call ∈ s.unauthorized, (s.retries call).length ≤ 1 := by
  have hrun : (run (step ["http://127.0.0.1:3001"]) (.start signedIn "refresh1") lateAnswer).map
      (fun s => (s.attempts.filter fun a => ¬ a.first).map Attempt.accessToken) =
        some [some "access2", some "access2", some "access3"] := by decide +kernel
  obtain ⟨s, hs, hretries⟩ := Option.map_eq_some_iff.mp hrun
  obtain ⟨htoken, -, hnodup, -, hcalls⟩ :=
    burst_keeps_session ["http://127.0.0.1:3001"] signedIn "refresh1" rfl (by decide) hs
  exact ⟨s, hs, hretries, htoken, hnodup, fun call hcall => (hcalls call hcall).1⟩

end RefreshBursts
