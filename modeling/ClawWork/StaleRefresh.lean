import ClawWork.MobileSession
import ClawWork.Transition

/-!
# Refreshes of earlier sessions

The store of the phone is what the user's session says, exactly as long as every
refresh stores its tokens, and every request that has waited for a refused one goes
on, while the user is still in the session that the refresh was started in.
-/

namespace StaleRefresh

open MobileSession Transition

variable {baseUrls : List String} {s s' : Phone} {i r : Nat} {request : Request} {refresh : Refresh}

/-- The store holds what the user's session says: no refresh of another session has changed it. -/
def InSession (s : Phone) : Prop := s.store = s.account.store

/-- A refresh takes effect in its own session, or writes what the store already holds. -/
def TakesEffect (s : Phone) (refresh : Refresh) (written : AuthState) : Prop :=
  refresh.session = s.account.session ∨ s.store = written

/-- New tokens and refused ones reach the store in the session of their refresh. -/
def InTime (s : Phone) : Label → Prop
  | .refreshRead r (some session) => ∀ refresh ∈ s.refreshes[r]?, refresh.phase = .reading →
    TakesEffect s refresh (setSession session)
  | .resume i => ∀ request ∈ s.requests.get i, ∀ r refresh, request.phase = .refreshing r →
    s.refreshes[r]? = some refresh → refresh.phase = .finished false → TakesEffect s refresh clear
  | _ => True

theorem inSession_putRequest (h : InSession s) : InSession (s.putRequest i request) := h

theorem inSession_signOut (s : Phone) : InSession s.signOut := rfl

theorem inSession_revoke {refreshToken : Option String} (h : InSession s) :
    InSession (s.revoke baseUrls i refreshToken) := by
  unfold Phone.revoke
  split
  · exact h
  · exact inSession_signOut _

theorem inSession_finish {body : Option AuthResponse} (h : InSession s) :
    InSession (s.finish baseUrls i request body) := by
  unfold Phone.finish
  dsimp only
  split
  · exact h
  · split
    · rfl
    · exact h
  · exact inSession_revoke h
  · exact inSession_signOut _

theorem inSession_throw {again : Bool} (h : InSession s) : InSession (s.throw baseUrls i request again) := by
  unfold Phone.throw
  split
  · split
    · exact h
    · exact inSession_finish h
  · exact inSession_finish h

/-- A refresh is started in the session of the user. -/
theorem inSession_joinRefresh (h : InSession s) (hjoin : s.joinRefresh = some (s', r)) : InSession s' := by
  unfold Phone.joinRefresh at hjoin
  split at hjoin
  · cases hjoin
  · split at hjoin
    · cases hjoin
    · split at hjoin <;> cases hjoin <;> exact h

theorem inSession_respond {allowRefresh : Bool} {reply : Reply} (h : InSession s) :
    InSession (s.respond baseUrls i request allowRefresh reply) := by
  cases reply with
  | thrown again | refused again => exact inSession_throw h
  | unauthorized again =>
    unfold Phone.respond
    dsimp only
    split
    · split
      · rename_i hjoin
        exact inSession_putRequest (inSession_joinRefresh h hjoin)
      · exact inSession_throw h
    · exact inSession_throw h
  | ok => exact h

/-- Where a failed refresh takes a request: the store stays that of the session only in time. -/
theorem inSession_resume_iff {refreshed : Bool} (h : InSession s) :
    InSession (s.resume i request refresh refreshed) ↔ (refreshed = false → TakesEffect s refresh clear) := by
  cases refreshed with
  | true => exact ⟨fun _ h => (by cases h), fun _ => h⟩
  | false =>
    have hsame : InSession (s.resume i request refresh false) ↔
        clear = (s.account.refused refresh.session).store := Iff.rfl
    rw [hsame, Account.refused, TakesEffect, h]
    by_cases hsession : refresh.session = s.account.session
    · rw [if_pos hsession]
      exact ⟨fun _ _ => .inl hsession, fun _ => rfl⟩
    · rw [if_neg hsession]
      exact ⟨fun heq _ => .inr heq.symm, fun heffect => ((heffect rfl).resolve_left hsession).symm⟩

theorem inSession_refreshRead_iff {body : Option AuthResponse} (h : InSession s) :
    InSession (s.refreshRead r refresh body) ↔
      ∀ session, body = some session → TakesEffect s refresh (setSession session) := by
  cases body with
  | none => exact ⟨fun _ _ h => (by cases h), fun _ => h⟩
  | some session =>
    have hsame : InSession (s.refreshRead r refresh (some session)) ↔
        setSession session = (s.account.refreshed refresh.session session).store := Iff.rfl
    rw [hsame, Account.refreshed]
    simp only [Option.some.injEq, forall_eq', TakesEffect]
    rw [h]
    by_cases hsession : refresh.session = s.account.session
    · rw [if_pos hsession]
      exact ⟨fun _ => .inl hsession, fun _ => rfl⟩
    · rw [if_neg hsession]
      exact ⟨fun heq => .inr heq.symm, fun heffect => (heffect.resolve_left hsession).symm⟩

/-- A step keeps the store that of the session exactly when it is in time. -/
theorem inSession_step_iff (l : Label) (h : InSession s) (hstep : step baseUrls s l = some s') :
    InSession s' ↔ InTime s l := by
  cases l with
  | request i | login i =>
    simp only [step] at hstep
    split at hstep <;> cases hstep
    exact ⟨fun _ => trivial, fun _ => h⟩
  | logout i registered =>
    refine ⟨fun _ => trivial, fun _ => ?_⟩
    simp only [step] at hstep
    split at hstep
    · split at hstep <;> cases hstep
      · exact h
      · exact inSession_revoke h
    · cases hstep
  | respond i reply =>
    refine ⟨fun _ => trivial, fun _ => ?_⟩
    obtain ⟨request, -, hstep⟩ := Option.bind_eq_some_iff.mp hstep
    split at hstep <;> cases hstep
    exact inSession_respond h
  | read i body =>
    refine ⟨fun _ => trivial, fun _ => ?_⟩
    obtain ⟨request, -, hstep⟩ := Option.bind_eq_some_iff.mp hstep
    split at hstep <;> cases hstep
    · exact inSession_finish h
    · exact inSession_throw h
  | resume i =>
    obtain ⟨request, hget, hstep⟩ := Option.bind_eq_some_iff.mp hstep
    split at hstep
    · rename_i r hphase
      obtain ⟨refresh, hrefresh, hstep⟩ := Option.bind_eq_some_iff.mp hstep
      split at hstep <;> cases hstep
      rename_i refreshed hfinished _
      rw [inSession_resume_iff h]
      constructor
      · intro heffect request' hget' r' refresh' hphase' hrefresh' hfinished'
        cases hget.symm.trans hget'
        cases hphase.symm.trans hphase'
        cases hrefresh.symm.trans hrefresh'
        cases hfinished.symm.trans hfinished'
        exact heffect rfl
      · rintro hin rfl
        exact hin request hget r refresh hphase hrefresh hfinished
    · cases hstep
  | reject i again =>
    refine ⟨fun _ => trivial, fun _ => ?_⟩
    obtain ⟨request, -, hstep⟩ := Option.bind_eq_some_iff.mp hstep
    split at hstep <;> cases hstep
    exact inSession_throw h
  | refreshRespond r ok | refreshFinally r =>
    refine ⟨fun _ => trivial, fun _ => ?_⟩
    obtain ⟨refresh, -, hstep⟩ := Option.bind_eq_some_iff.mp hstep
    split at hstep <;> cases hstep
    exact h
  | refreshRead r body =>
    obtain ⟨refresh, hrefresh, hstep⟩ := Option.bind_eq_some_iff.mp hstep
    split at hstep <;> cases hstep
    rename_i hreading
    rw [inSession_refreshRead_iff h]
    cases body with
    | none => exact ⟨fun _ => trivial, fun _ _ h => (by cases h)⟩
    | some session =>
      constructor
      · intro heffect refresh' hrefresh' _
        cases hrefresh.symm.trans hrefresh'
        exact heffect session rfl
      · intro hin session' hsession
        cases hsession
        exact hin refresh hrefresh hreading

/-- The store follows the user's session through a run exactly when every refresh of it takes effect in time. -/
theorem inSession_iff_inTime (baseUrls : List String) (store : AuthState) {ls : List Label}
    (hrun : run (step baseUrls) (.start store) ls = some s) :
    Throughout (step baseUrls) InSession (.start store) ls ↔ Along (step baseUrls) InTime (.start store) ls := by
  have hstart : InSession (.start store) := rfl
  refine throughout_iff_along (fun _ h => h) ?_ ?_ hstart hrun
  · exact fun s l t h hin hstep => (inSession_step_iff l h hstep).mpr hin
  · exact fun s l t h hstep ht => (inSession_step_iff l h hstep).mp ht

def signedIn : AuthState := ⟨⟨some "access1", some "refresh1", some "user1", none, some "Nick"⟩, true⟩

def newTokens : AuthResponse := ⟨"access2", "refresh2", ⟨"user1", none, "Nick"⟩⟩

/-- A request is unauthorized, and gets through once the tokens are refreshed. -/
def refreshedRun : List Label :=
  [.request 0, .respond 0 (.unauthorized false), .refreshRespond 0 true, .refreshRead 0 (some newTokens),
    .refreshFinally 0, .resume 0, .respond 0 .ok, .read 0 (.readable none)]

theorem inSession_iff_refreshedRun :
    Throughout (step ["http://127.0.0.1:3001"]) InSession (.start signedIn) refreshedRun ↔
      Along (step ["http://127.0.0.1:3001"]) InTime (.start signedIn) refreshedRun :=
  have hrun : (run (step ["http://127.0.0.1:3001"]) (.start signedIn) refreshedRun).isSome = true := by
    decide +kernel
  inSession_iff_inTime ["http://127.0.0.1:3001"] signedIn (Option.some_get hrun).symm

/-- The user signs out while the tokens are being refreshed. -/
def lateRun : List Label :=
  [.request 0, .respond 0 (.unauthorized false), .logout 1 false, .respond 1 .ok, .read 1 (.readable none),
    .refreshRespond 0 true, .refreshRead 0 (some newTokens)]

/-- The answer signs the user in again. -/
theorem not_inSession_of_lateRun :
    ¬ Throughout (step ["http://127.0.0.1:3001"]) InSession (.start signedIn) lateRun := by
  intro h
  have hlast : ((run (step ["http://127.0.0.1:3001"]) (.start signedIn) lateRun).map fun s =>
      (s.store, s.account.store)) = some (setSession newTokens, clear) := by
    decide +kernel
  obtain ⟨s, hrun, hstores⟩ := Option.map_eq_some_iff.mp hlast
  obtain ⟨hstore, haccount⟩ := Prod.mk.inj hstores
  have hsame : s.store = s.account.store := h.last hrun
  rw [hstore, haccount] at hsame
  exact absurd hsame (by decide)

end StaleRefresh
