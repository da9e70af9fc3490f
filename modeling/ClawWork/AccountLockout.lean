import ClawWork.AuthService
import ClawWork.Transition

/-!
# The lock of an account

Five wrong passwords lock an account for fifteen minutes, as long as no wrong
attempt writes to a row that has moved on since it was read. The count and the lock
are computed from what was read before the password was evaluated: attempts that
overlap all write the same count, and the lock never comes.
-/

namespace AccountLockout

open AuthService Transition

variable {settings : AuthSettings} {s s' : System} {store store' : Store} {l : Label} {u : String}

/-- The times of the wrong passwords, after one more attempt. -/
def note (u : String) (times : List Nat) : String × Outcome → List Nat
  | (v, .wrong evaluatedAt) => if v = u then times ++ [evaluatedAt] else times
  | (v, .right) => if v = u then [] else times

/-- When the wrong passwords since the last right one were evaluated, in the order of their updates. -/
def wrongSince (u : String) (outcomes : List (String × Outcome)) : List Nat := outcomes.foldl (note u) []

/-- After the fifth wrong password the account has a lock that covers fifteen minutes from it. -/
def LockedOut (s : System) : Prop := ∀ u t, (wrongSince u s.store.outcomes)[4]? = some t →
  ∃ credential lock, s.store.credentials.get u = some credential ∧ credential.lockedUntil = some lock ∧
    t + lockMs ≤ lock

/-- Unless a login has succeeded, the lock after the fifth wrong password is still there, and no shorter. -/
def LockKept (u : String) (store store' : Store) : Prop :=
  ∀ t, (wrongSince u store.outcomes)[4]? = some t → wrongSince u store'.outcomes ≠ [] →
    ∀ credential lock, store.credentials.get u = some credential → credential.lockedUntil = some lock →
    ∃ credential' lock', store'.credentials.get u = some credential' ∧ credential'.lockedUntil = some lock' ∧
      lock ≤ lock'

def KeepsLock (settings : AuthSettings) (s : System) (l : Label) : Prop :=
  ∀ s' ∈ step settings s l, ∀ u, LockKept u s.store s'.store

/-- An attempt that has read the credential while the lock was in force is rejected. -/
def Rejects (settings : AuthSettings) (s : System) (l : Label) : Prop :=
  ∀ i call password user credential readAt lock, l = .advance i .resume → s.calls.get i = some call →
    call.phase = .foundUser password (some (user, credential)) readAt → credential.lockedUntil = some lock →
    readAt < lock → ∀ s' ∈ step settings s l, ∃ call' ∈ s'.calls.get i, call'.phase = incorrectPassword

/-- The count of a wrong attempt is above the row's, or the attempt locks the account, and the row's lock
ends no later than the one that the attempt computes. -/
def NotBehind (store : Store) (u : String) (failedAttempts evaluatedAt : Nat) : Prop :=
  ∀ credential ∈ store.credentials.get u, min credential.failedAttempts 4 < failedAttempts ∧
    (5 ≤ credential.failedAttempts → ∀ lock ∈ credential.lockedUntil, lock ≤ evaluatedAt + lockMs)

/-- A wrong attempt writes to a row that has not moved on since it was read, and an attempt that has read a
lock in force looks at it before it ends. -/
def OnTime (s : System) (answer : Answer) : Phase → Prop
  | .countingFailure u failedAttempts _ evaluatedAt =>
    answer = .statement ∨ answer = .lost → NotBehind s.store u failedAttempts evaluatedAt
  | .foundUser _ found readAt =>
    answer = .resume → ∀ entry ∈ found, ∀ lock ∈ entry.2.lockedUntil, readAt < lock → s.clock < lock
  | _ => True

def InTurn (s : System) : Label → Prop
  | .advance i answer => ∀ call ∈ s.calls.get i, OnTime s answer call.phase
  | .call _ _ _ | .tick _ => True

/-- The row of an account against its wrong passwords. -/
structure RowInv (u : String) (store : Store) : Prop where
  counted : ∀ credential, store.credentials.get u = some credential →
    min (wrongSince u store.outcomes).length 5 ≤ credential.failedAttempts
  present : store.credentials.get u = none → wrongSince u store.outcomes = []
  locked : ∀ t, (wrongSince u store.outcomes)[4]? = some t → ∃ credential lock,
    store.credentials.get u = some credential ∧ credential.lockedUntil = some lock ∧ t + lockMs ≤ lock

structure Inv (s : System) : Prop where
  rows : ∀ u, RowInv u s.store
  pending : ∀ i call, s.calls.get i = some call → ∀ u failedAttempts lockedUntil evaluatedAt,
    call.phase = .countingFailure u failedAttempts lockedUntil evaluatedAt →
    lockedUntil = if 5 ≤ failedAttempts then some (evaluatedAt + lockMs) else none

/-- What a step of a call does to the credentials and the outcomes. -/
inductive Writes (phase : Phase) (store store' : Store) : Prop
  | same (hcredentials : store'.credentials = store.credentials) (houtcomes : store'.outcomes = store.outcomes)
  | registered {id passwordHash passwordSalt : String} (hfree : store.credentials.get id = none)
      (hcredentials : store'.credentials = store.credentials.set id ⟨passwordHash, passwordSalt, 0, none⟩)
      (houtcomes : store'.outcomes = store.outcomes)
  | wrong {u : String} {failedAttempts evaluatedAt : Nat} {lockedUntil : Option Nat}
      {credential : PasswordCredential}
      (hphase : phase = .countingFailure u failedAttempts lockedUntil evaluatedAt)
      (hget : store.credentials.get u = some credential)
      (hcredentials : store'.credentials =
        store.credentials.set u { credential with failedAttempts, lockedUntil })
      (houtcomes : store'.outcomes = store.outcomes ++ [(u, .wrong evaluatedAt)])
  | right {u : String} {credential : PasswordCredential}
      (hcredentials : store'.credentials =
        store.credentials.set u { credential with failedAttempts := 0, lockedUntil := none })
      (houtcomes : store'.outcomes = store.outcomes ++ [(u, .right)])

/-- An update of a credential that is found. -/
theorem updateCredential_cases {id : String} {failedAttempts : Nat} {lockedUntil : Option Nat} {outcome : Outcome}
    (h : store.updateCredential id failedAttempts lockedUntil outcome = some store') :
    ∃ credential, store.credentials.get id = some credential ∧
      store'.credentials = store.credentials.set id { credential with failedAttempts, lockedUntil } ∧
      store'.outcomes = store.outcomes ++ [(id, outcome)] := by
  obtain ⟨credential, hget, h⟩ := Option.bind_eq_some_iff.mp h
  cases h
  exact ⟨credential, hget, rfl, rfl⟩

theorem writes_statement {i clock : Nat} {call : Call} {phase : Phase}
    (h : call.statement settings i clock store = some (store', phase)) : Writes call.phase store store' := by
  obtain ⟨request, draws, old⟩ := call
  cases old with
  | registering email nickname passwordHash passwordSalt =>
    simp only [Call.statement] at h
    split at h <;> cases h
    · rename_i hregister
      unfold Store.register at hregister
      split at hregister <;> cases hregister
      rename_i hfree
      exact .registered hfree.2.2 rfl rfl
    · exact .same rfl rfl
  | countingFailure u failedAttempts lockedUntil evaluatedAt =>
    simp only [Call.statement] at h
    split at h <;> cases h
    · rename_i hupdate
      obtain ⟨credential, hget, hcredentials, houtcomes⟩ := updateCredential_cases hupdate
      exact .wrong rfl hget hcredentials houtcomes
    · exact .same rfl rfl
  | resettingFailures user =>
    simp only [Call.statement] at h
    split at h <;> cases h
    · rename_i hupdate
      obtain ⟨credential, -, hcredentials, houtcomes⟩ := updateCredential_cases hupdate
      exact .right hcredentials houtcomes
    · exact .same rfl rfl
  | claiming user update | revoking update =>
    simp only [Call.statement] at h
    split at h <;> cases h <;> exact .same rfl rfl
  | creatingSession user expiresAt =>
    simp only [Call.statement] at h
    split at h <;> cases h <;> exact .same rfl rfl
  | findingUser email password | findingToken sub tokenHash =>
    cases h
    exact .same rfl rfl
  | _ => cases h

theorem wrongSince_append (u : String) (outcomes : List (String × Outcome)) (entry : String × Outcome) :
    wrongSince u (outcomes ++ [entry]) = note u (wrongSince u outcomes) entry := by
  rw [wrongSince, List.foldl_append]
  rfl

/-- An account that the step does not write to. -/
theorem row_other (h : RowInv u store) (hcredentials : store'.credentials.get u = store.credentials.get u)
    (houtcomes : wrongSince u store'.outcomes = wrongSince u store.outcomes) :
    RowInv u store' ∧ LockKept u store store' := by
  obtain ⟨hcounted, hpresent, hlocked⟩ := h
  rw [← hcredentials, ← houtcomes] at hcounted hpresent hlocked
  refine ⟨⟨hcounted, hpresent, hlocked⟩, fun t _ _ credential lock hget hlock => ?_⟩
  exact ⟨credential, lock, hcredentials.trans hget, hlock, Nat.le_refl _⟩

/-- A wrong attempt that is not behind the row counts, and locks the account when it is the fifth. -/
theorem row_wrong {failedAttempts evaluatedAt : Nat} {lockedUntil : Option Nat} {credential : PasswordCredential}
    (h : RowInv u store) (hget : store.credentials.get u = some credential)
    (hcredentials : store'.credentials.get u = some { credential with failedAttempts, lockedUntil })
    (houtcomes : wrongSince u store'.outcomes = wrongSince u store.outcomes ++ [evaluatedAt])
    (hpending : lockedUntil = if 5 ≤ failedAttempts then some (evaluatedAt + lockMs) else none)
    (hbehind : NotBehind store u failedAttempts evaluatedAt) : RowInv u store' ∧ LockKept u store store' := by
  have hcounted := h.counted credential hget
  obtain ⟨habove, hlonger⟩ := hbehind credential hget
  have hlocks : 5 ≤ credential.failedAttempts → 5 ≤ failedAttempts := by omega
  have hlength : ∀ t, (wrongSince u store.outcomes)[4]? = some t → 5 ≤ credential.failedAttempts := by
    intro t ht
    obtain ⟨hlt, -⟩ := List.getElem?_eq_some_iff.mp ht
    omega
  refine ⟨⟨fun credential' hget' => ?_, fun hnone => ?_, fun t ht => ?_⟩,
    fun t ht _ credential' lock hget' hlock => ?_⟩
  · rw [hcredentials, Option.some.injEq] at hget'
    rw [← hget', houtcomes, List.length_append, List.length_singleton]
    dsimp only
    omega
  · rw [hcredentials] at hnone
    cases hnone
  · rw [houtcomes] at ht
    by_cases hfive : (wrongSince u store.outcomes).length ≤ 4
    · rw [List.getElem?_append_right hfive] at ht
      obtain ⟨hlt, heq⟩ := List.getElem?_eq_some_iff.mp ht
      have hfour : 5 ≤ failedAttempts := by
        rw [List.length_singleton] at hlt
        omega
      rw [List.getElem_singleton] at heq
      rw [if_pos hfour] at hpending
      exact ⟨_, _, hcredentials, hpending, Nat.le_of_eq (by rw [heq])⟩
    · rw [List.getElem?_append_left (by omega)] at ht
      obtain ⟨credential', lock, hget', hlock, hcovers⟩ := h.locked t ht
      cases hget.symm.trans hget'
      have hmany := hlength t ht
      rw [if_pos (hlocks hmany)] at hpending
      exact ⟨_, _, hcredentials, hpending, hcovers.trans (hlonger hmany lock hlock)⟩
  · cases hget.symm.trans hget'
    have hmany := hlength t ht
    rw [if_pos (hlocks hmany)] at hpending
    exact ⟨_, _, hcredentials, hpending, hlonger hmany lock hlock⟩

/-- What a step of a call in turn keeps of every account. -/
theorem row_writes {phase : Phase} (h : RowInv u store) (hwrites : Writes phase store store')
    (hpending : ∀ v failedAttempts lockedUntil evaluatedAt,
      phase = .countingFailure v failedAttempts lockedUntil evaluatedAt →
      lockedUntil = if 5 ≤ failedAttempts then some (evaluatedAt + lockMs) else none)
    (hbehind : ∀ v failedAttempts lockedUntil evaluatedAt,
      phase = .countingFailure v failedAttempts lockedUntil evaluatedAt →
      NotBehind store v failedAttempts evaluatedAt) : RowInv u store' ∧ LockKept u store store' := by
  cases hwrites with
  | same hcredentials houtcomes => exact row_other h (by rw [hcredentials]) (by rw [houtcomes])
  | @registered id passwordHash passwordSalt hfree hcredentials houtcomes =>
    by_cases hu : u = id
    · have hempty : wrongSince u store.outcomes = [] := h.present (hu ▸ hfree)
      refine ⟨⟨fun credential hget => ?_, fun _ => ?_, fun t ht => ?_⟩, fun t ht => ?_⟩
      · rw [houtcomes, hempty]
        exact Nat.zero_le _
      · rw [houtcomes, hempty]
      · rw [houtcomes, hempty] at ht
        cases ht
      · rw [hempty] at ht
        cases ht
    · exact row_other h (by rw [hcredentials, OrderedMap.get_set_other _ _ hu]) (by rw [houtcomes])
  | @wrong v failedAttempts evaluatedAt lockedUntil credential hphase hget hcredentials houtcomes =>
    have hp := hpending v failedAttempts lockedUntil evaluatedAt hphase
    have hb := hbehind v failedAttempts lockedUntil evaluatedAt hphase
    by_cases hu : u = v
    · rw [← hu] at hget hcredentials houtcomes hb
      refine row_wrong h hget ?_ ?_ hp hb
      · rw [hcredentials, OrderedMap.get_set_same]
      · rw [houtcomes, wrongSince_append, note, if_pos rfl]
    · refine row_other h ?_ ?_
      · rw [hcredentials, OrderedMap.get_set_other _ _ hu]
      · rw [houtcomes, wrongSince_append, note, if_neg fun heq => hu heq.symm]
  | @right v credential hcredentials houtcomes =>
    by_cases hu : u = v
    · have hempty : wrongSince u store'.outcomes = [] := by
        rw [houtcomes, wrongSince_append, note, if_pos hu.symm]
      refine ⟨⟨fun _ _ => ?_, fun _ => hempty, fun t ht => ?_⟩, fun _ _ hne => absurd hempty hne⟩
      · rw [hempty]
        exact Nat.zero_le _
      · rw [hempty] at ht
        cases ht
    · refine row_other h ?_ ?_
      · rw [hcredentials, OrderedMap.get_set_other _ _ hu]
      · rw [houtcomes, wrongSince_append, note, if_neg fun heq => hu heq.symm]

/-- The step of a call: either it writes nothing, or its statement is made. -/
theorem writes_next {i clock : Nat} {call : Call} {phase : Phase} {answer : Answer}
    (h : call.next settings i clock store answer = some (store', phase)) :
    Writes call.phase store store' ∧ ((answer = .statement ∨ answer = .lost) ∨
      store'.credentials = store.credentials ∧ store'.outcomes = store.outcomes) := by
  cases answer with
  | statement => exact ⟨writes_statement h, .inl (.inl rfl)⟩
  | lost =>
    obtain ⟨⟨store₁, phase₁⟩, hstatement, h⟩ := Option.bind_eq_some_iff.mp h
    dsimp only at h
    split at h <;> cases h
    exact ⟨writes_statement hstatement, .inl (.inr rfl)⟩
  | failed =>
    simp only [Call.next] at h
    split at h <;> cases h
    exact ⟨.same rfl rfl, .inr ⟨rfl, rfl⟩⟩
  | resume =>
    obtain ⟨phase', -, h⟩ := Option.map_eq_some_iff.mp h
    cases h
    exact ⟨.same rfl rfl, .inr ⟨rfl, rfl⟩⟩

/-- No statement leads to the update of a wrong attempt. -/
theorem statement_phase {i clock : Nat} {call : Call} {phase : Phase}
    (h : call.statement settings i clock store = some (store', phase)) (v : String)
    (failedAttempts evaluatedAt : Nat) (lockedUntil : Option Nat) :
    phase ≠ .countingFailure v failedAttempts lockedUntil evaluatedAt := by
  intro hphase
  obtain ⟨request, draws, old⟩ := call
  cases old with
  | claiming user update =>
    simp only [Call.statement] at h
    split at h
    · cases h
      cases hphase
    · rename_i count _
      by_cases hone : count = 1
      · rw [if_pos hone] at h
        cases h
        cases hphase
      · rw [if_neg hone] at h
        cases h
        cases hphase
    · cases h
  | registering email nickname passwordHash passwordSalt | countingFailure u failedAttempts lockedUntil evaluatedAt
  | resettingFailures user | revoking update | creatingSession user expiresAt =>
    simp only [Call.statement] at h
    split at h <;> cases h <;> cases hphase
  | findingUser email password | findingToken sub tokenHash =>
    cases h
    cases hphase
  | _ => cases h

/-- The lock of a pending update is computed from the count that goes with it. -/
theorem pending_next {i clock : Nat} {call : Call} {phase : Phase} {answer : Answer}
    (h : call.next settings i clock store answer = some (store', phase)) {v : String}
    {failedAttempts evaluatedAt : Nat} {lockedUntil : Option Nat}
    (hphase : phase = .countingFailure v failedAttempts lockedUntil evaluatedAt) :
    lockedUntil = if 5 ≤ failedAttempts then some (evaluatedAt + lockMs) else none := by
  obtain ⟨request, draws, old⟩ := call
  cases answer with
  | statement => exact absurd hphase (statement_phase h v failedAttempts evaluatedAt lockedUntil)
  | lost =>
    obtain ⟨⟨store₁, phase₁⟩, hstatement, h⟩ := Option.bind_eq_some_iff.mp h
    dsimp only at h
    split at h <;> cases h
    cases hphase
  | failed =>
    simp only [Call.next] at h
    split at h <;> cases h
    cases hphase
  | resume =>
    obtain ⟨phase', hresume, h⟩ := Option.map_eq_some_iff.mp h
    cases h
    cases old with
    | verifying password user credential =>
      simp only [Call.resume] at hresume
      split at hresume <;> cases hresume <;> cases hphase
      rfl
    | foundUser password found readAt | foundToken sub record =>
      simp only [Call.resume] at hresume
      split at hresume
      · split at hresume <;> cases hresume <;> cases hphase
      · cases hresume
        cases hphase
    | entering user =>
      cases hresume
      cases hphase
    | _ => cases hresume

/-! ## The service -/

theorem inv_start (users : OrderedMap String User) (credentials : OrderedMap String PasswordCredential)
    (tokens : TokenTable) : Inv (start users credentials tokens) where
  rows := fun _ => ⟨fun _ _ => Nat.zero_le _, fun _ => rfl, fun _ h => by cases h⟩
  pending := fun _ _ h => by cases h

theorem Inv.lockedOut (h : Inv s) : LockedOut s := fun u => (h.rows u).locked

/-- What a step in turn keeps: the rows of all accounts, and every lock. -/
theorem step_rows (h : Inv s) (hturn : InTurn s l) (hstep : step settings s l = some s') :
    ∀ u, RowInv u s'.store ∧ LockKept u s.store s'.store := by
  intro u
  have hsame : RowInv u s.store ∧ LockKept u s.store s.store := row_other (h.rows u) rfl rfl
  cases l with
  | call i request draws =>
    simp only [step] at hstep
    split at hstep <;> cases hstep
    exact hsame
  | advance i answer =>
    obtain ⟨call, hget, hstep⟩ := Option.bind_eq_some_iff.mp hstep
    obtain ⟨⟨store, phase⟩, hnext, hstep⟩ := Option.bind_eq_some_iff.mp hstep
    cases hstep
    obtain ⟨hwrites, hanswer⟩ := writes_next hnext
    rcases hanswer with hanswer | ⟨hcredentials, houtcomes⟩
    · refine row_writes (h.rows u) hwrites
        (h.pending i call hget) fun v failedAttempts lockedUntil evaluatedAt hphase => ?_
      have hbehind := hturn call hget
      rw [hphase] at hbehind
      exact hbehind hanswer
    · exact row_other (h.rows u) (congrArg (OrderedMap.get · u) hcredentials) (congrArg (wrongSince u) houtcomes)
  | tick ms =>
    cases hstep
    exact hsame

theorem inv_step (h : Inv s) (hturn : InTurn s l) (hstep : step settings s l = some s') : Inv s' := by
  refine ⟨fun u => (step_rows h hturn hstep u).1, ?_⟩
  intro j other hother v failedAttempts lockedUntil evaluatedAt hphase
  cases l with
  | call i request draws =>
    simp only [step] at hstep
    split at hstep <;> cases hstep
    dsimp only at hother
    rw [OrderedMap.get_set] at hother
    split at hother
    · cases hother
      cases request with
      | refresh refreshToken =>
        unfold Request.start at hphase
        dsimp only at hphase
        cases hverify : settings.verifyRefreshToken refreshToken s.clock with
        | none => simp [hverify, invalidToken] at hphase
        | some sub => simp [hverify] at hphase
      | _ => cases hphase
    · exact h.pending j other hother v failedAttempts lockedUntil evaluatedAt hphase
  | advance i answer =>
    obtain ⟨call, hget, hstep⟩ := Option.bind_eq_some_iff.mp hstep
    obtain ⟨⟨store, phase⟩, hnext, hstep⟩ := Option.bind_eq_some_iff.mp hstep
    cases hstep
    dsimp only at hother
    rw [OrderedMap.get_set] at hother
    split at hother
    · cases hother
      exact pending_next hnext hphase
    · exact h.pending j other hother v failedAttempts lockedUntil evaluatedAt hphase
  | tick ms =>
    cases hstep
    exact h.pending j other hother v failedAttempts lockedUntil evaluatedAt hphase

theorem rejects_of_inTurn (hturn : InTurn s l) : Rejects settings s l := by
  intro i call password user credential readAt lock hl hget hphase hlock hread s' hstep
  rw [hl] at hturn hstep
  obtain ⟨call', hget', hstep⟩ := Option.bind_eq_some_iff.mp hstep
  cases hget.symm.trans hget'
  obtain ⟨⟨store, phase⟩, hnext, hstep⟩ := Option.bind_eq_some_iff.mp hstep
  cases hstep
  have hcheck := hturn call hget
  rw [hphase] at hcheck
  have hclock : s.clock < lock := hcheck rfl (user, credential) rfl lock hlock hread
  obtain ⟨phase', hresume, hnext⟩ := Option.map_eq_some_iff.mp hnext
  cases hnext
  simp only [Call.resume, hphase] at hresume
  rw [if_pos ⟨lock, hlock, hclock⟩, Option.some.injEq] at hresume
  exact ⟨_, OrderedMap.get_set_same _ _ _, hresume.symm⟩

/-- In every run in which the attempts write in turn, the fifth wrong password locks the account, no wrong
attempt takes the lock away, and whoever reads it in force is rejected. -/
theorem locks_of_inTurn (settings : AuthSettings) (users : OrderedMap String User)
    (credentials : OrderedMap String PasswordCredential) (tokens : TokenTable) (ls : List Label)
    (hturn : Along (step settings) InTurn (start users credentials tokens) ls) :
    Throughout (step settings) LockedOut (start users credentials tokens) ls ∧
      Along (step settings) (KeepsLock settings) (start users credentials tokens) ls ∧
      Along (step settings) (Rejects settings) (start users credentials tokens) ls := by
  have hstart := inv_start users credentials tokens
  have hstep : ∀ s l t, Inv s → InTurn s l → step settings s l = some t → Inv t := fun _ _ _ => inv_step
  refine ⟨throughout_of_along (fun _ => Inv.lockedOut) hstep hstart hturn, ?_, ?_⟩
  · exact along_of_invariant hstep (fun _ _ h hl _ hmade u => (step_rows h hl hmade u).2) hstart hturn
  · exact hturn.mono fun _ _ => rejects_of_inTurn

instance decidableNotBehind (store : Store) (u : String) (failedAttempts evaluatedAt : Nat) :
    Decidable (NotBehind store u failedAttempts evaluatedAt) :=
  inferInstanceAs (Decidable (∀ credential ∈ store.credentials.get u, _ ∧ (_ → ∀ lock ∈ credential.lockedUntil,
    _)))

instance decidableOnTime (s : System) (answer : Answer) : (phase : Phase) → Decidable (OnTime s answer phase)
  | .countingFailure u failedAttempts _ evaluatedAt => inferInstanceAs (Decidable
      (answer = .statement ∨ answer = .lost → NotBehind s.store u failedAttempts evaluatedAt))
  | .foundUser _ found readAt => inferInstanceAs (Decidable (answer = .resume → ∀ entry ∈ found,
      ∀ lock ∈ entry.2.lockedUntil, readAt < lock → s.clock < lock))
  | .registering _ _ _ _ | .findingUser _ _ | .verifying _ _ _ | .resettingFailures _ | .findingToken _ _
  | .foundToken _ _ | .claiming _ _ | .revoking _ | .entering _ | .creatingSession _ _ | .returned _
  | .loggedOut _ | .rejected _ | .threw => .isTrue trivial

instance decidableInTurn (s : System) : (l : Label) → Decidable (InTurn s l)
  | .advance i answer => inferInstanceAs (Decidable (∀ call ∈ s.calls.get i, OnTime s answer call.phase))
  | .call _ _ _ | .tick _ => .isTrue trivial

def demoUser : User := ⟨"user", some "nick@example.com", "Nick"⟩

/-- A password is its own hash here. -/
def demoSettings : AuthSettings where
  toLowerCase := fun s => s
  verifyPassword := fun password hash _ => password = hash
  verifyRefreshToken := fun _ _ => none
  hashRefreshToken := fun token => token

def demoStart : System := start (.set .empty "user" demoUser) (.set .empty "user" ⟨"correct", "salt", 0,
    none⟩) .empty

def guess (i : Nat) : Label := .call i (.login "nick@example.com" "wrong") ⟨"", "", "", ""⟩

/-- An attempt from its read to its update. -/
def attempt (i : Nat) : List Label :=
  [guess i, .advance i .statement, .tick 1, .advance i .resume, .advance i .resume, .advance i .statement]

/-- Five attempts one after the other, and a sixth. -/
def serialRun : List Label :=
  attempt 0 ++ attempt 1 ++ attempt 2 ++ attempt 3 ++ attempt 4 ++
    [guess 5, .advance 5 .statement, .advance 5 .resume]

theorem locks_of_serialRun : Throughout (step demoSettings) LockedOut demoStart serialRun ∧
    Along (step demoSettings) (KeepsLock demoSettings) demoStart serialRun ∧
    Along (step demoSettings) (Rejects demoSettings) demoStart serialRun :=
  locks_of_inTurn demoSettings (.set .empty "user" demoUser) (.set .empty "user" ⟨"correct", "salt", 0, none⟩)
    .empty serialRun (by decide +kernel)

/-- Five attempts read the row before any of them writes to it. -/
def overlappingRun : List Label :=
  (List.range 5).map guess ++ (List.range 5).map (.advance · .statement) ++
    (List.range 5).map (.advance · .resume) ++ (List.range 5).map (.advance · .resume) ++
    (List.range 5).map (.advance · .statement)

/-- Five wrong passwords, and no lock. -/
theorem not_locked_of_overlappingRun : ¬ Throughout (step demoSettings) LockedOut demoStart overlappingRun := by
  intro h
  have hlast : ((run (step demoSettings) demoStart overlappingRun).map fun s =>
      (s.store.credentials.get "user", wrongSince "user" s.store.outcomes)) =
      some (some ⟨"correct", "salt", 1, none⟩, [0, 0, 0, 0, 0]) := by
    decide +kernel
  obtain ⟨s, hrun, hstate⟩ := Option.map_eq_some_iff.mp hlast
  obtain ⟨hrow, htimes⟩ := Prod.mk.inj hstate
  obtain ⟨credential, lock, hget, hlock, -⟩ := h.last hrun "user" 0 (by rw [htimes]; rfl)
  cases hrow.symm.trans hget
  cases hlock

end AccountLockout
