import ClawWork.ParserOutput
import ClawWork.OrderedMap
import ClawWork.Transition

/-!
# The parser server

The handler of `POST /parse` as a party for each request that moves from one event to the
next: the answers of the file system, the body, and the callbacks of the parser child. The
child may go on after its promise is settled. What the handler does between two events it
does at once, up to the response and the counters.
-/

namespace ParserServer

open JavaScript CodeUnits ParserOutput Transition

structure ParserSettings where
  internalToken : Option String
  maxFileBytes : Nat
  maxOutputBytes : Nat
  timeoutMs : Nat
  /-- `JSON.parse` of the output of the child. -/
  jsonParse : List UInt8 → Option Json

/-- What the handler reads of a request before its body. -/
structure Head where
  method : String
  url : String
  authorization : Option String
  fileExtension : Option String
  contentLength : Option Nat

/-- What `sendJson` sends. -/
inductive Answer where
  | rejection (status : Nat) (code message : String)
  /-- `{ ok: false, code, message }` of the `catch` block. -/
  | failure (status : Nat) (code : String) (message : Text)
  /-- The response of the child. -/
  | response (status : Nat) (body : Json)

def Answer.status : Answer → Nat
  | .rejection status _ _ => status
  | .failure status _ _ => status
  | .response status _ => status

def tokenMatches (head : Head) (expectedToken : Option String) : Bool :=
  match expectedToken.filter fun token => token ≠ "" with
  | none => true
  | some token => head.authorization = some ("Bearer " ++ token)

def allowedExtensions : List String := [".csv", ".docx", ".md", ".pdf", ".txt", ".xlsx"]

def Head.extension (head : Head) : String :=
  let rawExtension := (head.fileExtension.getD "").toLower
  if startsWith rawExtension "." then rawExtension else "." ++ rawExtension

/-- The parses that may be active at a time. -/
def capacity : Int := 4

/-- The checks before a parse; `none` when it is admitted. -/
def rejection (settings : ParserSettings) (activeParses : Int) (head : Head) : Option Answer :=
  if head.method ≠ "POST" ∨ head.url ≠ "/parse" then
    some (.rejection 404 "NOT_FOUND" "route not found")
  else if tokenMatches head settings.internalToken = false then
    some (.rejection 401 "UNAUTHORIZED" "invalid parser token")
  else if capacity ≤ activeParses then
    some (.rejection 503 "PARSER_BUSY" "parser capacity exhausted")
  else if head.extension ∉ allowedExtensions then
    some (.rejection 415 "UNSUPPORTED_FILE_TYPE" ("unsupported file type: " ++ head.extension))
  else none

/-- The child process and what `parseInChild` keeps of it. -/
structure Child where
  output : Output
  stderr : List (List UInt8)
  settled : Bool
  killed : Bool
  /-- The process has ended, or was never started. -/
  ended : Bool

def Child.new : Child := ⟨⟨[], 0, false⟩, [], false, false, false⟩

/-- `parsed && typeof parsed === "object" && typeof parsed.ok === "boolean"`. -/
def isResponse (parsed : Json) : Bool :=
  match memberOf (some parsed) "ok" with
  | some (.bool _) => true
  | _ => false

def Child.detail (child : Child) : Text :=
  let text := (trimUnits (units (.ofList (Utf8.decode child.stderr.flatten)))).take 512
  if text = [] then units "parser child returned no valid response" else text

/-- What the promise is settled with when the child has closed. -/
def Child.response (settings : ParserSettings) (child : Child) : Except Text Json :=
  match settings.jsonParse child.output.stdout.flatten with
  | some parsed => if isResponse parsed then .ok parsed else .error child.detail
  | none => .error child.detail

inductive Phase where
  | makingDirectory
  | readingBody (totalBytes : Nat)
  | writingFile (totalBytes : Nat)
  | parsing
  /-- The response is sent, and the directory is being removed. -/
  | removing
  | done
  deriving DecidableEq

structure Request where
  head : Head
  admitted : Bool
  phase : Phase
  directory : Bool
  child : Option Child
  answers : List Answer

/-- What a step does to the counters. -/
inductive Outcome where
  | goesOn | completed | failed
  deriving DecidableEq

/-- The response and the `finally` block. -/
def Request.answer (request : Request) (outcome : Outcome) (answer : Answer) : Outcome × Request :=
  (outcome, { request with
    phase := if request.directory then .removing else .done
    answers := request.answers ++ [answer] })

/-- The `catch` block. -/
def Request.fail (request : Request) (message : Text) (statusCode : Nat) : Outcome × Request :=
  request.answer .failed
    (.failure statusCode (if statusCode = 413 then "FILE_TOO_LARGE" else "PARSE_FAILED") message)

/-- `readBoundedBody` throws this. -/
def Request.tooLarge (request : Request) : Outcome × Request :=
  request.fail (units "file exceeds parser size limit") 413

/-- What follows the settled promise. -/
def Request.settle (request : Request) : Except Text Json → Outcome × Request
  | .error message => request.fail message 422
  | .ok result =>
    match memberOf (some result) "ok" with
    | some (.bool true) =>
      -- the length of the text is read for the log
      match memberOf (some result) "text" with
      | none => request.fail (units "Cannot read properties of undefined (reading 'length')") 422
      | some .null => request.fail (units "Cannot read properties of null (reading 'length')") 422
      | some _ => request.answer .completed (.response 200 result)
    | _ =>
      let status :=
        match memberOf (some result) "code" with
        | some (.str "UNSUPPORTED_FILE_TYPE") => 415
        | _ => 422
      request.answer .failed (.response status result)

/-- `finish`: only the first call settles the promise. -/
def Request.finish (request : Request) (child : Child) (result : Except Text Json) : Outcome × Request :=
  if child.settled then (.goesOn, { request with child := some child })
  else { request with child := some { child with settled := true } }.settle result

inductive Event where
  | directoryMade
  | directoryFailed (message : Text)
  | chunk (length : Nat)
  | bodyEnded
  | bodyFailed (message : Text)
  | fileWritten
  | writeFailed (message : Text)
  | data (chunk : List UInt8)
  | stderr (chunk : List UInt8)
  | timer
  | childError (message : Text)
  | closed
  | removed (succeeded : Bool)

/-- The callbacks of the child. -/
def Request.onChild (settings : ParserSettings) (request : Request) (child : Child) :
    Event → Option (Outcome × Request)
  | .data chunk =>
    if child.ended then none
    else
      let output := child.output.onData settings.maxOutputBytes chunk
      if child.output.stdoutBytes + chunk.length > settings.maxOutputBytes then
        some (request.finish { child with output, killed := true }
          (.error (units "parser output exceeded the configured limit")))
      else some (.goesOn, { request with child := some { child with output } })
  | .stderr chunk =>
    if child.ended then none
    else if child.stderr.flatten.length < 16384 then
      some (.goesOn, { request with child := some { child with stderr := child.stderr ++ [chunk] } })
    else some (.goesOn, request)
  | .timer =>
    -- the timer is cleared when the promise is settled
    if child.settled then none
    else some (request.finish { child with killed := true }
      (.error (units ("file parsing exceeded " ++ toString settings.timeoutMs ++ "ms"))))
  | .childError message =>
    if child.ended then none else some (request.finish { child with ended := true } (.error message))
  | .closed =>
    if child.ended then none
    else some (request.finish { child with ended := true } (child.response settings))
  | _ => none

/-- One event of a request. -/
def Request.next (settings : ParserSettings) (request : Request) : Event → Option (Outcome × Request)
  | .directoryMade =>
    if request.phase = .makingDirectory then
      let request := { request with directory := true }
      if request.head.contentLength.any fun length => settings.maxFileBytes < length then
        some request.tooLarge
      else some (.goesOn, { request with phase := .readingBody 0 })
    else none
  | .directoryFailed message =>
    if request.phase = .makingDirectory then some (request.fail message 422) else none
  | .chunk length =>
    match request.phase with
    | .readingBody totalBytes =>
      if settings.maxFileBytes < totalBytes + length then some request.tooLarge
      else some (.goesOn, { request with phase := .readingBody (totalBytes + length) })
    | _ => none
  | .bodyEnded =>
    match request.phase with
    | .readingBody totalBytes =>
      if totalBytes = 0 then some (request.fail (units "empty file body") 400)
      else some (.goesOn, { request with phase := .writingFile totalBytes })
    | _ => none
  | .bodyFailed message =>
    match request.phase with
    | .readingBody _ => some (request.fail message 422)
    | _ => none
  | .fileWritten =>
    match request.phase with
    | .writingFile _ => some (.goesOn, { request with phase := .parsing, child := some .new })
    | _ => none
  | .writeFailed message =>
    match request.phase with
    | .writingFile _ => some (request.fail message 422)
    | _ => none
  | .removed succeeded =>
    if request.phase = .removing then
      some (.goesOn, { request with phase := .done, directory := !succeeded })
    else none
  | event => do
    let child ← request.child
    request.onChild settings child event

structure System where
  activeParses : Int
  totalParses : Int
  failedParses : Int
  requests : OrderedMap Nat Request

def System.init : System := ⟨0, 0, 0, .empty⟩

inductive Label where
  | request (i : Nat) (head : Head)
  | event (i : Nat) (event : Event)

def step (settings : ParserSettings) (s : System) : Label → Option System
  | .request i head =>
    if (s.requests.get i).isSome then none
    else
      match rejection settings s.activeParses head with
      | some answer => some { s with requests := s.requests.set i ⟨head, false, .done, false, none, [answer]⟩ }
      | none => some { s with
          activeParses := s.activeParses + 1
          totalParses := s.totalParses + 1
          requests := s.requests.set i ⟨head, true, .makingDirectory, false, none, []⟩ }
  | .event i event => do
    let request ← s.requests.get i
    let (outcome, request) ← request.next settings event
    let requests := s.requests.set i request
    match outcome with
    | .goesOn => some { s with requests }
    | .completed => some { s with activeParses := s.activeParses - 1, requests }
    | .failed => some { s with
        activeParses := s.activeParses - 1, failedParses := s.failedParses + 1, requests }


/-! ## One event of a request -/

/-- The handler has not answered yet. -/
def Request.inProgress (request : Request) : Bool := request.phase ≠ .removing && request.phase ≠ .done

/-- The process runs, and nobody has killed it. -/
def Child.isRunning (child : Child) : Bool := !child.killed && !child.ended

/-- What is kept of the output of a child keeps within the limit, and a child whose promise is settled has been
killed or has ended. -/
structure Child.Fits (settings : ParserSettings) (child : Child) : Prop where
  counted : child.output.stdout.flatten.length ≤ child.output.stdoutBytes
  bounded : child.output.stdout.flatten.length ≤ settings.maxOutputBytes
  running : child.isRunning = !child.settled

/-- The bytes of the body that a request holds. -/
def Phase.bodyBytes : Phase → Nat
  | .readingBody totalBytes => totalBytes
  | .writingFile totalBytes => totalBytes
  | _ => 0

structure Request.Fits (settings : ParserSettings) (request : Request) : Prop where
  answers : request.answers.length = if request.inProgress then 0 else 1
  admitted : request.inProgress = true → request.admitted = true
  child : ∀ child, request.child = some child →
    child.Fits settings ∧ (child.settled = false ↔ request.phase = .parsing)
  parsing : request.phase = .parsing → request.child.isSome = true
  body : request.phase.bodyBytes ≤ settings.maxFileBytes

/-- What an outcome says of a step. -/
def Outcome.Holds (request next : Request) : Outcome → Prop
  | .goesOn => next.inProgress = request.inProgress ∧ next.answers = request.answers
  | .completed => request.inProgress = true ∧ next.inProgress = false ∧
      ∃ answer, next.answers = [answer] ∧ answer.status = 200
  | .failed => request.inProgress = true ∧ next.inProgress = false ∧
      ∃ answer, next.answers = [answer] ∧ answer.status ≠ 200

/-- What one event does to a request. -/
structure Moves (settings : ParserSettings) (request : Request) (result : Outcome × Request) : Prop where
  fits : result.2.Fits settings
  admitted : result.2.admitted = request.admitted
  outcome : result.1.Holds request result.2

/-- The request is in progress, and nothing of its child runs any more. -/
structure Request.Closing (settings : ParserSettings) (request : Request) : Prop where
  inProgress : request.inProgress = true
  admitted : request.admitted = true
  answers : request.answers = []
  child : ∀ child, request.child = some child → child.Fits settings ∧ child.settled = true

variable {settings : ParserSettings} {request next : Request} {child : Child}

theorem child_new_fits (settings : ParserSettings) : Child.new.Fits settings where
  counted := Nat.le_refl 0
  bounded := Nat.zero_le _
  running := rfl

theorem inProgress_answer (request : Request) (outcome : Outcome) (answer : Answer) :
    (request.answer outcome answer).2.inProgress = false := by
  unfold Request.answer Request.inProgress
  cases request.directory <;> simp

theorem Request.Closing.answer (h : request.Closing settings) {outcome : Outcome} {answer : Answer}
    (hstatus : (outcome = .completed ∧ answer.status = 200) ∨ (outcome = .failed ∧ answer.status ≠ 200)) :
    Moves settings request (request.answer outcome answer) where
  fits :=
    { answers := by
        rw [inProgress_answer]
        simp [Request.answer, h.answers]
      admitted := by
        rw [inProgress_answer]
        simp
      child := by
        intro child hchild
        obtain ⟨hfits, hsettled⟩ := h.child child hchild
        refine ⟨hfits, ?_⟩
        rw [hsettled]
        unfold Request.answer
        cases request.directory <;> simp
      parsing := by
        unfold Request.answer
        cases request.directory <;> simp
      body := by
        unfold Request.answer
        cases request.directory <;> simp [Phase.bodyBytes] }
  admitted := rfl
  outcome := by
    have hanswers : (request.answer outcome answer).2.answers = [answer] := by simp [Request.answer, h.answers]
    rcases hstatus with ⟨rfl, hstatus⟩ | ⟨rfl, hstatus⟩
    · exact ⟨h.inProgress, inProgress_answer _ _ _, answer, hanswers, hstatus⟩
    · exact ⟨h.inProgress, inProgress_answer _ _ _, answer, hanswers, hstatus⟩

theorem Request.Closing.fail (h : request.Closing settings) (message : Text) {statusCode : Nat}
    (hstatus : statusCode ≠ 200) : Moves settings request (request.fail message statusCode) :=
  h.answer (.inr ⟨rfl, hstatus⟩)

theorem Request.Closing.settle (h : request.Closing settings) (result : Except Text Json) :
    Moves settings request (request.settle result) := by
  unfold Request.settle
  split
  · exact h.fail _ (by decide)
  · split
    · split
      · exact h.fail _ (by decide)
      · exact h.fail _ (by decide)
      · exact h.answer (.inl ⟨rfl, rfl⟩)
    · apply h.answer
      refine .inr ⟨rfl, ?_⟩
      change (match memberOf (some _) "code" with
        | some (.str "UNSUPPORTED_FILE_TYPE") => 415
        | _ => 422) ≠ 200
      split <;> decide

/-- A request without a child that runs may be answered. -/
theorem Request.Fits.closing (h : request.Fits settings) (hprogress : request.inProgress = true)
    (hparsing : request.phase ≠ .parsing) : request.Closing settings where
  inProgress := hprogress
  admitted := h.admitted hprogress
  answers := by
    have hlength := h.answers
    rw [if_pos hprogress] at hlength
    exact List.length_eq_zero_iff.mp hlength
  child := by
    intro child hchild
    obtain ⟨hfits, hsettled⟩ := h.child child hchild
    exact ⟨hfits, Bool.eq_true_of_not_eq_false fun hfalse => hparsing (hsettled.mp hfalse)⟩

/-- Another child in the place of one that is as settled as it was. -/
theorem Request.Fits.setChild (h : request.Fits settings) (hchild : request.child = some child) {child' : Child}
    (hfits : child'.Fits settings) (hsettled : child'.settled = child.settled) :
    Moves settings request (.goesOn, { request with child := some child' }) where
  fits :=
    { answers := h.answers
      admitted := h.admitted
      child := by
        intro other hother
        cases hother
        refine ⟨hfits, ?_⟩
        rw [hsettled]
        exact (h.child child hchild).2
      parsing := fun _ => rfl
      body := h.body }
  admitted := rfl
  outcome := ⟨rfl, rfl⟩

/-- The callback that settles the promise leads to the answer, any later one to nothing. -/
theorem Request.Fits.finish (h : request.Fits settings) (hchild : request.child = some child) {child' : Child}
    (hcounted : child'.output.stdout.flatten.length ≤ child'.output.stdoutBytes)
    (hbounded : child'.output.stdout.flatten.length ≤ settings.maxOutputBytes)
    (hstopped : child'.isRunning = false) (hsettled : child'.settled = child.settled)
    (result : Except Text Json) : Moves settings request (request.finish child' result) := by
  unfold Request.finish
  cases hcase : child'.settled with
  | true =>
    rw [if_pos rfl]
    have hfits : child'.Fits settings := ⟨hcounted, hbounded, by rw [hstopped, hcase]; rfl⟩
    exact h.setChild hchild hfits hsettled
  | false =>
    rw [if_neg Bool.false_ne_true]
    have hphase : request.phase = .parsing := (h.child child hchild).2.mp (hsettled ▸ hcase)
    have hprogress : request.inProgress = true := by simp [Request.inProgress, hphase]
    have hclosing : ({ request with child := some { child' with settled := true } } : Request).Closing settings :=
      { inProgress := hprogress
        admitted := h.admitted hprogress
        answers := by
          have hlength := h.answers
          rw [if_pos hprogress] at hlength
          exact List.length_eq_zero_iff.mp hlength
        child := by
          intro other hother
          cases hother
          exact ⟨⟨hcounted, hbounded, hstopped⟩, rfl⟩ }
    have hmoves := hclosing.settle result
    exact ⟨hmoves.fits, hmoves.admitted, hmoves.outcome⟩

theorem onData_fits {output : Output} {limit : Nat} (chunk : List UInt8)
    (hcounted : output.stdout.flatten.length ≤ output.stdoutBytes)
    (hbounded : output.stdout.flatten.length ≤ limit) :
    (output.onData limit chunk).stdout.flatten.length ≤ (output.onData limit chunk).stdoutBytes ∧
      (output.onData limit chunk).stdout.flatten.length ≤ limit := by
  unfold Output.onData
  split
  · exact ⟨Nat.le_add_right_of_le hcounted, hbounded⟩
  · simp only [List.flatten_append, List.flatten_singleton, List.length_append]
    omega

theorem moves_onChild (h : request.Fits settings) (hchild : request.child = some child) {event : Event}
    {result : Outcome × Request} (hnext : request.onChild settings child event = some result) :
    Moves settings request result := by
  obtain ⟨hfits, -⟩ := h.child child hchild
  cases event with
  | data chunk =>
    simp only [Request.onChild] at hnext
    obtain ⟨hcounted, hbounded⟩ := onData_fits chunk hfits.counted hfits.bounded
    split at hnext
    · cases hnext
    · split at hnext <;> cases hnext
      · apply h.finish hchild
        · exact hcounted
        · exact hbounded
        · rfl
        · rfl
      · exact h.setChild hchild ⟨hcounted, hbounded, hfits.running⟩ rfl
  | stderr chunk =>
    simp only [Request.onChild] at hnext
    split at hnext
    · cases hnext
    · split at hnext <;> cases hnext
      · exact h.setChild hchild ⟨hfits.counted, hfits.bounded, hfits.running⟩ rfl
      · exact ⟨h, rfl, rfl, rfl⟩
  | timer =>
    simp only [Request.onChild] at hnext
    split at hnext <;> cases hnext
    apply h.finish hchild
    · exact hfits.counted
    · exact hfits.bounded
    · rfl
    · rfl
  | childError message =>
    simp only [Request.onChild] at hnext
    split at hnext <;> cases hnext
    apply h.finish hchild
    · exact hfits.counted
    · exact hfits.bounded
    · exact Bool.and_false _
    · rfl
  | closed =>
    simp only [Request.onChild] at hnext
    split at hnext <;> cases hnext
    apply h.finish hchild
    · exact hfits.counted
    · exact hfits.bounded
    · exact Bool.and_false _
    · rfl
  | _ => cases hnext

/-- What one event makes of a request, by the kind of the step. -/
inductive Steps (settings : ParserSettings) (request : Request) : Event → Outcome × Request → Prop
  | advances {event : Event} {phase : Phase} (directory : Bool) (hold : request.inProgress = true)
      (hold' : request.phase ≠ .parsing) (hnew : phase ≠ .removing ∧ phase ≠ .done ∧ phase ≠ .parsing)
      (hbody : request.phase.bodyBytes ≤ settings.maxFileBytes → phase.bodyBytes ≤ settings.maxFileBytes) :
      Steps settings request event (.goesOn, { request with phase, directory })
  | fails {event : Event} (directory : Bool) (message : Text) {statusCode : Nat} (hold : request.inProgress = true)
      (hold' : request.phase ≠ .parsing) (hstatus : statusCode ≠ 200) :
      Steps settings request event (({ request with directory } : Request).fail message statusCode)
  | starts (hold : request.inProgress = true) (hold' : request.phase ≠ .parsing) :
      Steps settings request .fileWritten (.goesOn, { request with phase := .parsing, child := some .new })
  | removed (succeeded : Bool) (hold : request.phase = .removing) :
      Steps settings request (.removed succeeded) (.goesOn, { request with phase := .done, directory := !succeeded })
  | callback {event : Event} {child : Child} {result : Outcome × Request} (hchild : request.child = some child)
      (hnext : request.onChild settings child event = some result) : Steps settings request event result

theorem steps_next {event : Event} {result : Outcome × Request} (hnext : request.next settings event = some result) :
    Steps settings request event result := by
  have hcallback : ((request.child).bind fun child => request.onChild settings child event) = some result →
      Steps settings request event result := by
    intro hbind
    obtain ⟨child, hchild, honChild⟩ := Option.bind_eq_some_iff.mp hbind
    exact .callback hchild honChild
  cases event with
  | directoryMade =>
    simp only [Request.next] at hnext
    split at hnext
    · rename_i hphase
      split at hnext <;> cases hnext
      · exact .fails true _ (by simp [Request.inProgress, hphase]) (by simp [hphase]) (by decide)
      · exact .advances true (by simp [Request.inProgress, hphase]) (by simp [hphase]) (by simp) fun _ => Nat.zero_le _
    · cases hnext
  | directoryFailed message =>
    simp only [Request.next] at hnext
    split at hnext <;> cases hnext
    rename_i hphase
    exact .fails request.directory message (by simp [Request.inProgress, hphase]) (by simp [hphase]) (by decide)
  | chunk length =>
    simp only [Request.next] at hnext
    split at hnext
    · rename_i totalBytes hphase
      split at hnext <;> cases hnext
      · exact .fails request.directory _ (by simp [Request.inProgress, hphase]) (by simp [hphase]) (by decide)
      · rename_i hwithin
        exact .advances request.directory (by simp [Request.inProgress, hphase]) (by simp [hphase]) (by simp)
          fun _ => Nat.le_of_not_lt hwithin
    · cases hnext
  | bodyEnded =>
    simp only [Request.next] at hnext
    split at hnext
    · rename_i totalBytes hphase
      split at hnext <;> cases hnext
      · exact .fails request.directory _ (by simp [Request.inProgress, hphase]) (by simp [hphase]) (by decide)
      · refine .advances request.directory (by simp [Request.inProgress, hphase]) (by simp [hphase]) (by simp) ?_
        rw [hphase]
        exact id
    · cases hnext
  | bodyFailed message =>
    simp only [Request.next] at hnext
    split at hnext <;> cases hnext
    rename_i totalBytes hphase
    exact .fails request.directory message (by simp [Request.inProgress, hphase]) (by simp [hphase]) (by decide)
  | fileWritten =>
    simp only [Request.next] at hnext
    split at hnext <;> cases hnext
    rename_i totalBytes hphase
    exact .starts (by simp [Request.inProgress, hphase]) (by simp [hphase])
  | writeFailed message =>
    simp only [Request.next] at hnext
    split at hnext <;> cases hnext
    rename_i totalBytes hphase
    exact .fails request.directory message (by simp [Request.inProgress, hphase]) (by simp [hphase]) (by decide)
  | removed succeeded =>
    simp only [Request.next] at hnext
    split at hnext <;> cases hnext
    rename_i hphase
    exact .removed succeeded hphase
  | data chunk => exact hcallback hnext
  | stderr chunk => exact hcallback hnext
  | timer => exact hcallback hnext
  | childError message => exact hcallback hnext
  | closed => exact hcallback hnext

/-- The handler goes on to another phase before the child is started, or after it. -/
theorem Request.Fits.goesOn (h : request.Fits settings) {phase : Phase} (directory : Bool)
    (hparsing : request.phase ≠ .parsing) (hphase : phase ≠ .parsing)
    (hprogress : ({ request with phase } : Request).inProgress = request.inProgress)
    (hbody : phase.bodyBytes ≤ settings.maxFileBytes) :
    Moves settings request (.goesOn, { request with phase, directory }) where
  fits :=
    { answers := by
        have hanswers := h.answers
        rw [← hprogress] at hanswers
        exact hanswers
      admitted := fun hin => h.admitted (hprogress ▸ hin)
      child := by
        intro child hchild
        obtain ⟨hfits, hsettled⟩ := h.child child hchild
        exact ⟨hfits, fun hfalse => absurd (hsettled.mp hfalse) hparsing, fun heq => absurd heq hphase⟩
      parsing := fun heq => absurd heq hphase
      body := hbody }
  admitted := rfl
  outcome := ⟨hprogress, rfl⟩

theorem moves_next (h : request.Fits settings) {event : Event} {result : Outcome × Request}
    (hnext : request.next settings event = some result) : Moves settings request result := by
  cases steps_next hnext with
  | advances directory hold hold' hnew hbody =>
    refine h.goesOn directory hold' hnew.2.2 ?_ (hbody h.body)
    rw [hold]
    simp [Request.inProgress, hnew.1, hnew.2.1]
  | fails directory message hold hold' hstatus =>
    obtain ⟨hprogress, hadmitted, hanswers, hchild⟩ := h.closing hold hold'
    have hclosing : ({ request with directory } : Request).Closing settings :=
      ⟨hprogress, hadmitted, hanswers, hchild⟩
    have hmoves := hclosing.fail message hstatus
    exact ⟨hmoves.fits, hmoves.admitted, hmoves.outcome⟩
  | starts hold hold' =>
    have hclosing := h.closing hold hold'
    refine ⟨⟨?_, fun _ => hclosing.admitted, ?_, fun _ => rfl, Nat.zero_le _⟩, rfl, ?_, rfl⟩
    · exact congrArg List.length hclosing.answers
    · intro child hchild
      cases hchild
      exact ⟨child_new_fits settings, iff_of_true rfl rfl⟩
    · rw [hold]
      rfl
  | removed succeeded hold =>
    refine h.goesOn (!succeeded) (by simp [hold]) (by simp) ?_ (Nat.zero_le _)
    simp [Request.inProgress, hold]
  | callback hchild hnext => exact moves_onChild h hchild hnext

/-! ## Runs of the server -/

/-- The request was admitted and answered with an error. -/
def Request.hasFailed (request : Request) : Bool :=
  request.admitted && request.answers.any fun answer => answer.status ≠ 200

def Request.hasCompleted (request : Request) : Bool :=
  request.admitted && request.answers.any fun answer => answer.status = 200

structure Inv (settings : ParserSettings) (s : System) : Prop where
  active : s.activeParses = s.requests.values.countP Request.inProgress
  capacity : s.activeParses ≤ capacity
  total : s.totalParses = s.requests.values.countP Request.admitted
  failed : s.failedParses = s.requests.values.countP Request.hasFailed
  completed : s.totalParses = s.activeParses + s.failedParses + s.requests.values.countP Request.hasCompleted
  fits : ∀ i request, s.requests.get i = some request → request.Fits settings

theorem inv_init (settings : ParserSettings) : Inv settings .init where
  active := rfl
  capacity := by decide
  total := rfl
  failed := rfl
  completed := rfl
  fits := fun i request h => by cases h

variable {s s' : System} {i : Nat}

theorem rejection_capacity {head : Head} (h : rejection settings s.activeParses head = none) :
    s.activeParses < capacity := by
  unfold rejection at h
  split at h
  · cases h
  · split at h
    · cases h
    · split at h
      · cases h
      · omega

/-- A new request in the map. -/
theorem countP_new (p : Request → Bool) (hnew : s.requests.get i = none) (request : Request) :
    (s.requests.set i request).values.countP p = s.requests.values.countP p + (p request).toNat := by
  have hset := OrderedMap.countP_set p s.requests i request
  rw [hnew] at hset
  exact hset

/-- A request of the map that has moved. -/
theorem countP_moved (p : Request → Bool) (hget : s.requests.get i = some request) (next : Request) :
    (s.requests.set i next).values.countP p + (p request).toNat =
      s.requests.values.countP p + (p next).toNat := by
  have hset := OrderedMap.countP_set p s.requests i next
  rw [hget] at hset
  exact hset

theorem fits_set (h : Inv settings s) (hnext : next.Fits settings) (j : Nat) (other : Request)
    (hother : (s.requests.set i next).get j = some other) : other.Fits settings := by
  rw [OrderedMap.get_set] at hother
  split at hother
  · cases hother
    exact hnext
  · exact h.fits j other hother

/-- A request that is not admitted has its answer at once. -/
theorem fits_rejected (settings : ParserSettings) (head : Head) (answer : Answer) :
    (⟨head, false, .done, false, none, [answer]⟩ : Request).Fits settings where
  answers := rfl
  admitted := fun h => by cases h
  child := fun child h => by cases h
  parsing := fun h => by cases h
  body := Nat.zero_le _

theorem fits_admitted (settings : ParserSettings) (head : Head) :
    (⟨head, true, .makingDirectory, false, none, []⟩ : Request).Fits settings where
  answers := rfl
  admitted := fun _ => rfl
  child := fun child h => by cases h
  parsing := fun h => by cases h
  body := Nat.zero_le _

/-- What the outcome says is what the counters count. -/
theorem counts_of_moves (h : request.Fits settings) {outcome : Outcome}
    (hmoves : Moves settings request (outcome, next)) :
    next.admitted = request.admitted ∧ match outcome with
      | .goesOn => next.inProgress = request.inProgress ∧ next.hasFailed = request.hasFailed ∧
          next.hasCompleted = request.hasCompleted
      | .completed => request.inProgress = true ∧ next.inProgress = false ∧ request.hasFailed = false ∧
          next.hasFailed = false ∧ request.hasCompleted = false ∧ next.hasCompleted = true
      | .failed => request.inProgress = true ∧ next.inProgress = false ∧ request.hasFailed = false ∧
          next.hasFailed = true ∧ request.hasCompleted = false ∧ next.hasCompleted = false := by
  obtain ⟨-, hadmitted, houtcome⟩ := hmoves
  refine ⟨hadmitted, ?_⟩
  dsimp only at hadmitted houtcome
  have hnone : request.inProgress = true → request.answers = [] := by
    intro hprogress
    have hlength := h.answers
    rw [if_pos hprogress] at hlength
    exact List.length_eq_zero_iff.mp hlength
  cases outcome with
  | goesOn =>
    obtain ⟨hprogress, hanswers⟩ := houtcome
    exact ⟨hprogress, by simp [Request.hasFailed, hadmitted, hanswers],
      by simp [Request.hasCompleted, hadmitted, hanswers]⟩
  | completed =>
    obtain ⟨hprogress, hleft, answer, hanswers, hstatus⟩ := houtcome
    have hin := h.admitted hprogress
    simp [Request.hasFailed, Request.hasCompleted, hprogress, hleft, hanswers, hstatus, hadmitted, hin, hnone hprogress]
  | failed =>
    obtain ⟨hprogress, hleft, answer, hanswers, hstatus⟩ := houtcome
    have hin := h.admitted hprogress
    simp [Request.hasFailed, Request.hasCompleted, hprogress, hleft, hanswers, hstatus, hadmitted, hin, hnone hprogress]

theorem inv_event (h : Inv settings s) (hget : s.requests.get i = some request) {event : Event}
    (hstep : step settings s (.event i event) = some s') : Inv settings s' := by
  have hfits := h.fits i request hget
  obtain ⟨found, hfound, hstep⟩ := Option.bind_eq_some_iff.mp hstep
  rw [hget] at hfound
  cases hfound
  obtain ⟨⟨outcome, next⟩, hnext, hstep⟩ := Option.bind_eq_some_iff.mp hstep
  have hmoves := moves_next hfits hnext
  obtain ⟨hadmitted, hcounts⟩ := counts_of_moves hfits hmoves
  have hactive := countP_moved Request.inProgress hget next
  have htotal := countP_moved Request.admitted hget next
  have hfailed := countP_moved Request.hasFailed hget next
  have hcompleted := countP_moved Request.hasCompleted hget next
  have hset := fits_set h hmoves.fits (i := i)
  obtain ⟨ha, hc, ht, hf, hd, -⟩ := h
  rw [hadmitted] at htotal
  cases outcome with
  | goesOn =>
    obtain ⟨hprogress, hfail, hcomplete⟩ := hcounts
    rw [hprogress] at hactive
    rw [hfail] at hfailed
    rw [hcomplete] at hcompleted
    cases hstep
    constructor <;> dsimp only <;> first | exact hset | omega
  | completed =>
    obtain ⟨hprogress, hleft, hfail, hfail', hcomplete, hcomplete'⟩ := hcounts
    rw [hprogress, hleft] at hactive
    rw [hfail, hfail'] at hfailed
    rw [hcomplete, hcomplete'] at hcompleted
    simp only [Bool.toNat_true, Bool.toNat_false] at hactive hfailed hcompleted
    cases hstep
    constructor <;> dsimp only <;> first | exact hset | omega
  | failed =>
    obtain ⟨hprogress, hleft, hfail, hfail', hcomplete, hcomplete'⟩ := hcounts
    rw [hprogress, hleft] at hactive
    rw [hfail, hfail'] at hfailed
    rw [hcomplete, hcomplete'] at hcompleted
    simp only [Bool.toNat_true, Bool.toNat_false] at hactive hfailed hcompleted
    cases hstep
    constructor <;> dsimp only <;> first | exact hset | omega

theorem inv_request (h : Inv settings s) {head : Head} (hstep : step settings s (.request i head) = some s') :
    Inv settings s' := by
  simp only [step] at hstep
  split at hstep
  · cases hstep
  · rename_i hsome
    have hnew : s.requests.get i = none := by simpa using hsome
    split at hstep
    · rename_i answer hrejected
      cases hstep
      have hset := fits_set h (fits_rejected settings head answer) (i := i)
      constructor <;> try exact hset
      · rw [countP_new _ hnew]
        exact h.active
      · exact h.capacity
      · rw [countP_new _ hnew]
        exact h.total
      · rw [countP_new _ hnew]
        exact h.failed
      · rw [countP_new _ hnew]
        exact h.completed
    · rename_i hadmitted
      cases hstep
      have hset := fits_set h (fits_admitted settings head) (i := i)
      have hroom := rejection_capacity hadmitted
      obtain ⟨ha, hc, ht, hf, hd, -⟩ := h
      constructor <;> try exact hset
      · rw [countP_new _ hnew]
        exact congrArg (· + 1) ha
      · exact hroom
      · rw [countP_new _ hnew]
        exact congrArg (· + 1) ht
      · rw [countP_new _ hnew]
        exact hf
      · rw [countP_new _ hnew]
        change s.totalParses + 1 = s.activeParses + 1 + s.failedParses + _
        simp only [Request.hasCompleted, List.any_nil, Bool.and_false, Bool.toNat_false]
        omega

theorem inv_step {l : Label} (h : Inv settings s) (hstep : step settings s l = some s') : Inv settings s' := by
  cases l with
  | request i head => exact inv_request h hstep
  | event i event =>
    obtain ⟨request, hget, -⟩ := Option.bind_eq_some_iff.mp hstep
    exact inv_event h hget hstep

/-! ## The directories -/

/-- The directory of a request that is done was removed. -/
def Request.IsTidy (request : Request) : Prop := request.directory = true → request.phase ≠ .done

theorem tidy_answer (request : Request) (outcome : Outcome) (answer : Answer) :
    (request.answer outcome answer).2.IsTidy := by
  intro hdirectory
  have hkept : request.directory = true := hdirectory
  simp [Request.answer, hkept]

theorem tidy_settle (request : Request) (result : Except Text Json) : (request.settle result).2.IsTidy := by
  unfold Request.settle
  split
  · exact tidy_answer _ _ _
  · split
    · split
      · exact tidy_answer _ _ _
      · exact tidy_answer _ _ _
      · exact tidy_answer _ _ _
    · exact tidy_answer _ _ _

theorem tidy_finish (h : request.IsTidy) (child : Child) (result : Except Text Json) :
    (request.finish child result).2.IsTidy := by
  unfold Request.finish
  split
  · exact h
  · exact tidy_settle _ result

theorem tidy_onChild (h : request.IsTidy) {event : Event} {result : Outcome × Request}
    (hnext : request.onChild settings child event = some result) : result.2.IsTidy := by
  cases event with
  | data chunk =>
    simp only [Request.onChild] at hnext
    split at hnext
    · cases hnext
    · split at hnext <;> cases hnext
      · exact tidy_finish h _ _
      · exact h
  | stderr chunk =>
    simp only [Request.onChild] at hnext
    split at hnext
    · cases hnext
    · split at hnext <;> cases hnext <;> exact h
  | timer | childError | closed =>
    simp only [Request.onChild] at hnext
    split at hnext <;> cases hnext
    exact tidy_finish h _ _
  | _ => cases hnext

theorem tidy_next (h : request.IsTidy) {event : Event} (hremoved : event ≠ .removed false)
    {result : Outcome × Request} (hnext : request.next settings event = some result) : result.2.IsTidy := by
  cases steps_next hnext with
  | advances directory hold hold' hnew hbody => exact fun _ => hnew.2.1
  | fails directory message hold hold' hstatus => exact tidy_answer _ _ _
  | starts hold hold' => exact fun _ => by simp
  | removed succeeded hold =>
    cases succeeded with
    | true => exact fun hdirectory => by cases hdirectory
    | false => exact absurd rfl hremoved
  | callback hchild hnext => exact tidy_onChild h hnext

/-- No directory is left behind. -/
def Removes (_ : System) : Label → Prop
  | .event _ event => event ≠ .removed false
  | .request _ _ => True

theorem tidy_step {l : Label} (h : ∀ i request, s.requests.get i = some request → request.IsTidy)
    (hremoves : Removes s l) (hstep : step settings s l = some s') :
    ∀ i request, s'.requests.get i = some request → request.IsTidy := by
  have hset : ∀ {j : Nat} {next : Request}, next.IsTidy → ∀ i request,
      (s.requests.set j next).get i = some request → request.IsTidy := by
    intro j next hnext i request hget
    rw [OrderedMap.get_set] at hget
    split at hget
    · cases hget
      exact hnext
    · exact h i request hget
  cases l with
  | request i head =>
    simp only [step] at hstep
    split at hstep
    · cases hstep
    · split at hstep <;> cases hstep
      · exact hset fun hdirectory => by cases hdirectory
      · exact hset fun hdirectory => by cases hdirectory
  | event i event =>
    obtain ⟨request, hget, hstep⟩ := Option.bind_eq_some_iff.mp hstep
    obtain ⟨⟨outcome, next⟩, hnext, hstep⟩ := Option.bind_eq_some_iff.mp hstep
    have htidy := tidy_next (h i request hget) hremoves hnext
    cases outcome <;> cases hstep <;> exact hset htidy

/-! ## What holds of every run -/

theorem inv_run {ls : List Label} (hrun : run (step settings) .init ls = some s) : Inv settings s :=
  invariant_run (fun _ _ _ h => inv_step h) (inv_init settings) hrun

/-- At most four parses are active, however the events of the requests interleave. A request that is in progress
has no answer and any other request has exactly one; what was admitted is in progress, has failed or has
completed, and the counters say so. -/
theorem answered_once (settings : ParserSettings) {ls : List Label}
    (hrun : run (step settings) .init ls = some s) :
    s.activeParses ≤ 4 ∧ s.activeParses = s.requests.values.countP Request.inProgress ∧
      s.totalParses = s.requests.values.countP Request.admitted ∧
      s.failedParses = s.requests.values.countP Request.hasFailed ∧
      s.totalParses = s.activeParses + s.failedParses + s.requests.values.countP Request.hasCompleted ∧
      ∀ i request, s.requests.get i = some request →
        request.answers.length = if request.inProgress then 0 else 1 := by
  have h := inv_run hrun
  exact ⟨h.capacity, h.active, h.total, h.failed, h.completed,
    fun i request hget => (h.fits i request hget).answers⟩

/-- The child of the request runs. -/
def Request.runsChild (request : Request) : Bool := request.child.any Child.isRunning

theorem Request.Fits.inProgress_of_runs (h : request.Fits settings) (hruns : request.runsChild = true) :
    request.inProgress = true := by
  obtain ⟨child, hchild, hrunning⟩ := (Option.any_eq_true _ _).mp hruns
  obtain ⟨hfits, hsettled⟩ := h.child child hchild
  rw [hfits.running, Bool.not_eq_true'] at hrunning
  simp [Request.inProgress, hsettled.mp hrunning]

/-- A parse that goes on can be ended by its timer. -/
theorem timer_ends (h : Inv settings s) (hget : s.requests.get i = some request) (hphase : request.phase = .parsing) :
    ∃ s' request', step settings s (.event i .timer) = some s' ∧ s'.activeParses = s.activeParses - 1 ∧
      s'.requests.get i = some request' ∧ request'.inProgress = false ∧ request'.runsChild = false := by
  have hfits := h.fits i request hget
  obtain ⟨child, hchild⟩ := Option.isSome_iff_exists.mp (hfits.parsing hphase)
  have hsettled : child.settled = false := (hfits.child child hchild).2.mpr hphase
  let killed : Request := { request with child := some { child with killed := true, settled := true } }
  let message := units ("file parsing exceeded " ++ toString settings.timeoutMs ++ "ms")
  have hnext : request.next settings .timer = some (killed.fail message 422) := by
    simp [Request.next, hchild, Request.onChild, hsettled, Request.finish, Request.settle, killed, message]
  have hstep : step settings s (.event i .timer) = some { s with
      activeParses := s.activeParses - 1
      failedParses := s.failedParses + 1
      requests := s.requests.set i (killed.fail message 422).2 } := by
    simp [step, hget, hnext, Request.fail, Request.answer]
  refine ⟨_, _, hstep, rfl, OrderedMap.get_set_same _ _ _, inProgress_answer _ _ _, ?_⟩
  simp [Request.runsChild, Request.fail, Request.answer, killed, Child.isRunning]

/-- At most four children run that nobody has killed, and only for requests that are in progress; their output and
the bodies are kept within the limits. A parse that goes on is ended by its timer, which kills the child. When
no removal fails, a request that is done has left no directory. -/
theorem resources_bounded (settings : ParserSettings) {ls : List Label}
    (hrun : run (step settings) .init ls = some s) :
    s.requests.values.countP Request.runsChild ≤ 4 ∧
      (∀ i request, s.requests.get i = some request →
        request.phase.bodyBytes ≤ settings.maxFileBytes ∧
        (∀ child, request.child = some child → child.output.stdout.flatten.length ≤ settings.maxOutputBytes) ∧
        (request.phase = .parsing → ∃ s' request', step settings s (.event i .timer) = some s' ∧
          s'.activeParses = s.activeParses - 1 ∧ s'.requests.get i = some request' ∧
          request'.inProgress = false ∧ request'.runsChild = false)) ∧
      (Along (step settings) Removes .init ls →
        ∀ i request, s.requests.get i = some request → request.directory = true → request.phase ≠ .done) := by
  have h := inv_run hrun
  refine ⟨?_, fun i request hget => ⟨(h.fits i request hget).body, ?_, timer_ends h hget⟩, fun hremoves => ?_⟩
  · have hle : s.requests.values.countP Request.runsChild ≤ s.requests.values.countP Request.inProgress := by
      apply List.countP_mono_left
      intro request hmem hruns
      obtain ⟨i, hget⟩ := (s.requests.mem_values_iff request).mp hmem
      exact (h.fits i request hget).inProgress_of_runs hruns
    have hactive := h.active
    have hcapacity : s.activeParses ≤ 4 := h.capacity
    omega
  · exact fun child hchild => ((h.fits i request hget).child child hchild).1.bounded
  · have hempty : ∀ i request, System.init.requests.get i = some request → request.IsTidy :=
      fun i request hget => by cases hget
    exact invariant_along (fun _ _ _ h => tidy_step h) hempty hremoves hrun

def demoSettings : ParserSettings where
  internalToken := some "token"
  maxFileBytes := 8
  maxOutputBytes := 64
  timeoutMs := 15000
  jsonParse bytes :=
    if bytes = utf8 (okResponse (units "hello")) then some (.obj [("ok", .bool true), ("text", .str "hello")])
    else none

def parseRequest (fileExtension : String) : Head :=
  ⟨"POST", "/parse", some "Bearer token", some fileExtension, none⟩

/-- Five parses are requested at once; the first of them is completed after its child has written its response, the
second is ended by its timer, after which its child closes. -/
def fiveParses : List Label :=
  [.request 0 (parseRequest "CSV"), .request 1 (parseRequest ".pdf"), .request 2 (parseRequest "md"),
    .request 3 (parseRequest "txt"), .request 4 (parseRequest "txt"),
    .event 0 .directoryMade, .event 1 .directoryMade, .event 0 (.chunk 5), .event 1 (.chunk 8),
    .event 0 .bodyEnded, .event 1 .bodyEnded, .event 0 .fileWritten, .event 1 .fileWritten,
    .event 0 (.data (utf8 (okResponse (units "hello")))), .event 0 .closed, .event 1 .timer, .event 1 .closed,
    .event 0 (.removed true)]

theorem answered_once_fiveParses : ∃ s, run (step demoSettings) .init fiveParses = some s ∧
    s.activeParses = 2 ∧ s.totalParses = 4 ∧ s.failedParses = 1 ∧ s.activeParses ≤ 4 ∧
    ((s.requests.get 4).map fun request => request.answers.map Answer.status) = some [503] := by
  have hrun : (run (step demoSettings) .init fiveParses).any (fun s =>
      s.activeParses = 2 ∧ s.totalParses = 4 ∧ s.failedParses = 1 ∧
      ((s.requests.get 4).map fun request => request.answers.map Answer.status) = some [503]) = true := by
    decide +kernel
  obtain ⟨s, hrun, hs⟩ := (Option.any_eq_true _ _).mp hrun
  obtain ⟨hactive, htotal, hfailed, hbusy⟩ := of_decide_eq_true hs
  exact ⟨s, hrun, hactive, htotal, hfailed, (answered_once demoSettings hrun).1, hbusy⟩

theorem resources_bounded_fiveParses : ∃ s, run (step demoSettings) .init fiveParses = some s ∧
    s.requests.values.countP Request.runsChild ≤ 4 ∧
    ∀ request, s.requests.get 0 = some request → request.directory = true → request.phase ≠ .done := by
  have hrun : (run (step demoSettings) .init fiveParses).isSome = true := by decide +kernel
  obtain ⟨s, hrun⟩ := Option.isSome_iff_exists.mp hrun
  obtain ⟨hrunning, -, hremoves⟩ := resources_bounded demoSettings hrun
  refine ⟨s, hrun, hrunning, fun request hget => hremoves ?_ 0 request hget⟩
  have hall : ∀ (s : System), ∀ l ∈ fiveParses, Removes s l := by
    simp only [fiveParses, List.forall_mem_cons, List.not_mem_nil, IsEmpty.forall_iff, implies_true, and_true, Removes,
      ne_eq, reduceCtorEq, not_false_eq_true, Event.removed.injEq, Bool.true_eq_false]
  exact (along_true fiveParses).mono_mem fun s l hl _ => hall s l hl

end ParserServer
