import ClawWork.GatewayInput

/-!
# What the adapter reads

The bytes that are loaded for the files of an accepted payload come from a URL or
from a path of the adapter's own file system. With a configured origin the URLs are
confined to it; the paths are not. A path is read exactly when the files before it
can be loaded that have to be loaded first.
-/

namespace StorageReads

open JavaScript ExecutePayload GatewayInput Isolation Exchanges

variable {settings : InputSettings} {allowed : String} {file : GatewayTaskFile} {files : List GatewayTaskFile}

/-- The object storage answers a request itself, without a redirect to another origin. -/
def Direct (settings : InputSettings) : Sigma Reply → Prop
  | ⟨.fetch url, .ok (download : Download)⟩ => settings.urlOrigin (.str download.url) = settings.urlOrigin url
  | _ => True

/-- What was loaded comes from a URL of the configured origin. -/
def Confined (settings : InputSettings) (allowed : String) : Sigma Reply → Prop
  | ⟨.fetch _, .ok (download : Download)⟩ =>
    settings.urlOrigin (.str download.url) = settings.urlOrigin (.str allowed)
  | ⟨.readFile _, .ok _⟩ => False
  | _ => True

/-- What `loadFile` does for a file: it sends a request, it opens a path, or it throws before. -/
inductive Source where
  | url (value : Json)
  | path (path : String)
  | none
  deriving Inhabited

def sourceOf (settings : InputSettings) (file : GatewayTaskFile) : Source :=
  match present file.contentUrl, present file.contentPath with
  | some contentUrl, _ =>
    match settings.fetchError contentUrl with
    | none => .url contentUrl
    | some _ => .none
  | none, some contentPath =>
    match settings.localPath contentPath with
    | .ok path => .path path
    | .error _ => .none
  | none, none => .none

theorem present_eq_some {value : Option Json} {json : Json} (h : present value = some json) :
    value = some json ∧ isTruthy (some json) = true := by
  unfold present at h
  split at h
  · rename_i htruthy
    exact ⟨h, h ▸ htruthy⟩
  · cases h

/-- What is left of a post-condition once a reply has arrived. -/
def After {α : Type} (post : Except InputError α → Unit → Prop) : Except String α → Prop
  | .ok value => post (.ok value) ()
  | .error message => post (.error (.error message)) ()

theorem ensures_received {α : Type} {reply : Except String α} {post : Except InputError α → Unit → Prop} :
    Ensures (Direct settings) (Confined settings allowed) (received reply) post () ↔ After post reply := by
  cases reply <;> rfl

theorem ensures_fetch {url : Json} {post : Except InputError Download → Unit → Prop}
    (hfetch : settings.fetchError url = none)
    (horigin : settings.urlOrigin url = settings.urlOrigin (.str allowed)) :
    Ensures (Direct settings) (Confined settings allowed) (fetch settings url) post () ↔
      (∀ message, post (.error (.error message)) ()) ∧
        ∀ download : Download, settings.urlOrigin (.str download.url) = settings.urlOrigin (.str allowed) →
          post (.ok download) () := by
  simp only [fetch, hfetch]
  constructor
  · intro h
    exact ⟨fun message => (h (.error message) trivial).2,
      fun download hdownload => (h (.ok download) (hdownload.trans horigin.symm)).2⟩
  · rintro ⟨herror, hok⟩ reply hdirect
    cases reply with
    | error message => exact ⟨trivial, herror message⟩
    | ok download => exact ⟨hdirect.trans horigin, hok download (hdirect.trans horigin)⟩

theorem ensures_postToParser {content : List UInt8} {post : Except InputError ParserResponse → Unit → Prop} :
    Ensures (Direct settings) (Confined settings allowed) (postToParser file content) post () ↔
      (∀ message, post (.error (.error message)) ()) ∧ ∀ response : ParserResponse, post (.ok response) () := by
  constructor
  · intro h
    exact ⟨fun message => (h (.error message) trivial).2, fun response => (h (.ok response) trivial).2⟩
  · rintro ⟨herror, hok⟩ reply -
    cases reply with
    | error message => exact ⟨trivial, herror message⟩
    | ok response => exact ⟨trivial, hok response⟩

/-- A file that is opened is read in some run. -/
theorem not_ensures_readFile {contentPath : Json} {path : String}
    {post : Except InputError (List UInt8) → Unit → Prop} (hpath : settings.localPath contentPath = .ok path) :
    ¬ Ensures (Direct settings) (Confined settings allowed) (readFile settings contentPath) post () := by
  simp only [readFile, hpath]
  intro h
  exact (h (.ok []) trivial).1

/-- A download succeeds with any bytes of the right number. -/
theorem ensures_fetchObject {contentUrl : Json} {post : Except InputError (List UInt8) → Unit → Prop}
    (hsize : file.sizeBytes ≤ maxFileBytes) (hfetch : settings.fetchError contentUrl = none)
    (horigin : settings.urlOrigin contentUrl = settings.urlOrigin (.str allowed))
    (herror : ∀ message, post (.error (.error message)) ()) :
    Ensures (Direct settings) (Confined settings allowed) (fetchObject settings file contentUrl) post () ↔
      ∀ content, content.length = file.sizeBytes → post (.ok content) () := by
  simp only [fetchObject, ensures_bind, ensures_fetch hfetch horigin, ensures_require]
  constructor
  · rintro ⟨-, h⟩ content hcontent
    simpa [isOk, hcontent, hsize] using h ⟨allowed, 200, none, content⟩ rfl
  · intro h
    refine ⟨herror, fun download hdownload => ?_⟩
    split
    · split
      · split
        · rename_i hbody
          rw [Bool.and_eq_true, beq_iff_eq] at hbody
          exact h download.body hbody.2
        · exact herror _
      · exact herror _
    · exact herror _

/-- Loading a file, as far as it concerns the rest of the run. -/
theorem ensures_loadFile {post : Except InputError (List UInt8) → Unit → Prop}
    (hallowed : settings.allowedContentOrigin = some allowed) (hconfigured : allowed ≠ "")
    (hfile : Validated settings.toPayloadSettings file) (herror : ∀ message, post (.error (.error message)) ()) :
    Ensures (Direct settings) (Confined settings allowed) (loadFile settings file) post () ↔
      match sourceOf settings file with
      | .url _ => ∀ content, content.length = file.sizeBytes → post (.ok content) ()
      | .path _ => False
      | .none => True := by
  have hsize : decide (file.sizeBytes ≤ maxFileBytes) = true := decide_eq_true hfile.size.2
  simp only [loadFile, ensures_bind, ensures_require, hsize, if_true, sourceOf]
  cases hurl : present file.contentUrl with
  | some contentUrl =>
    obtain ⟨hvalue, htruthy⟩ := present_eq_some hurl
    have horigin := origin_of_validateUrl hallowed hconfigured (hfile.url contentUrl hvalue htruthy)
    cases hfetch : settings.fetchError contentUrl with
    | none =>
      dsimp only
      rw [hfetch]
      exact ensures_fetchObject hfile.size.2 hfetch horigin herror
    | some message =>
      simp only [fetchObject, ensures_bind, fetch, hfetch]
      exact iff_of_true (herror message) trivial
  | none =>
    cases hpath : present file.contentPath with
    | none => exact iff_of_true (herror _) trivial
    | some contentPath =>
      simp only [readLocal, ensures_bind]
      cases hlocal : settings.localPath contentPath with
      | ok path =>
        simp only [iff_false]
        exact not_ensures_readFile hlocal
      | error message =>
        simp only [readFile, hlocal, iff_true]
        exact herror message

/-- What a file asks of the rest of the run, when the run can only go on after a download. -/
def Demand (settings : InputSettings) (file : GatewayTaskFile) (rest : Prop) : Prop :=
  match sourceOf settings file with
  | .url _ => rest
  | .path _ => False
  | .none => True

theorem demand_congr {p q : Prop} (h : p ↔ q) : Demand settings file p ↔ Demand settings file q := by
  rw [propext h]

section Pieces

variable (hallowed : settings.allowedContentOrigin = some allowed) (hconfigured : allowed ≠ "")
  (hfile : Validated settings.toPayloadSettings file)

include hallowed hconfigured hfile

theorem ensures_toImageAttachment {post : Except InputError GatewayAttachment → Unit → Prop} {rest : Prop}
    (herror : ∀ e, post (.error e) ()) (hok : ∀ attachment, post (.ok attachment) () ↔ rest) :
    Ensures (Direct settings) (Confined settings allowed) (toImageAttachment settings file) post () ↔
      Demand settings file rest := by
  rw [toImageAttachment, ensures_bind, ensures_loadFile hallowed hconfigured hfile fun _ => herror _, Demand]
  cases sourceOf settings file with
  | url value =>
    simp only [ensures_pure, hok]
    exact ⟨fun h => h (List.replicate file.sizeBytes 0) (by simp), fun h _ _ => h⟩
  | path path => rfl
  | none => rfl

theorem ensures_parseWithIsolatedService {post : Except InputError String → Unit → Prop}
    (herror : ∀ message, post (.error (.error message)) ()) :
    Ensures (Direct settings) (Confined settings allowed) (parseWithIsolatedService settings file) post () ↔
      Demand settings file (∀ response, post (parsedText response) ()) := by
  simp only [parseWithIsolatedService, ensures_bind, ensures_tryCatch]
  rw [ensures_loadFile hallowed hconfigured hfile fun _ => herror _, Demand]
  cases sourceOf settings file with
  | url value =>
    dsimp only
    simp only [ensures_postToParser]
    constructor
    · intro h
      exact (h (List.replicate file.sizeBytes 0) (by simp)).2
    · intro h content _
      exact ⟨fun message => herror _, h⟩
  | path path => rfl
  | none => rfl

/-- A document can use up any number of characters within its budget. -/
theorem ensures_toDocumentBlock {post : Except InputError (DocumentBlock × Nat) → Unit → Prop} {rest : Nat → Prop}
    {index remainingChars : Nat} (herror : ∀ e, post (.error e) ())
    (hok : ∀ block used, post (.ok (block, used)) () ↔ rest used) :
    Ensures (Direct settings) (Confined settings allowed) (toDocumentBlock settings file index remainingChars)
        post () ↔
      Demand settings file (∀ used, used ≤ budgetFor remainingChars → rest used) := by
  simp only [toDocumentBlock, ensures_bind, ensures_tryCatch]
  rw [ensures_parseWithIsolatedService hallowed hconfigured hfile fun _ => herror _]
  apply demand_congr
  constructor
  · intro h used hused
    have htext := h ⟨200, .obj [("text", .str (.ofList (List.replicate used 'a')))]⟩
    have hparsed : parsedText ⟨200, .obj [("text", .str (.ofList (List.replicate used 'a')))]⟩ =
        .ok (.ofList (List.replicate used 'a')) := by
      simp [parsedText, isOk, memberOf, member, equalsFalse]
    rw [hparsed] at htext
    have hlength : utf16Length (.ofList (List.replicate used 'a')) = used := by
      simp [utf16Length]
    have hblock := (hok _ _).mp htext
    rwa [hlength, Nat.min_eq_left hused] at hblock
  · intro h response
    cases parsedText response with
    | ok text => exact (hok _ _).mpr (h _ (Nat.min_le_right _ _))
    | error e =>
      cases e with
      | error message => exact herror _
      | parseFileError code message =>
        dsimp only
        split
        · exact herror _
        · exact (hok _ _).mpr (h _ (Nat.min_le_right _ _))

end Pieces

/-- What the files from here on ask of a run that has `room` characters left. -/
def Clear (settings : InputSettings) : Nat → List GatewayTaskFile → Prop
  | _, [] => True
  | room, file :: files =>
    if isImageMime file.mimeType then Demand settings file (Clear settings room files)
    else if room = 0 then Clear settings 0 files
    else Demand settings file (∀ used, used ≤ budgetFor room → Clear settings (room - used) files)

theorem always_prepareFiles {index room : Nat} (hallowed : settings.allowedContentOrigin = some allowed)
    (hconfigured : allowed ≠ "")
    (hfiles : ∀ file ∈ files, Validated settings.toPayloadSettings file) :
    Always (Direct settings) (Confined settings allowed) (prepareFiles settings index room files) () ↔
      Clear settings room files := by
  induction files generalizing index room with
  | nil => exact iff_of_true trivial trivial
  | cons file files ih =>
    have hfile := hfiles file (by simp)
    have hrest : ∀ {index room} {f : List DocumentBlock × List GatewayAttachment →
        Loading (List DocumentBlock × List GatewayAttachment)},
        (∀ a s, Always (Direct settings) (Confined settings allowed) (f a) s) →
        (Always (Direct settings) (Confined settings allowed) (prepareFiles settings index room files >>= f) () ↔
          Clear settings room files) := fun hf =>
      (always_bind_of_always hf).trans (ih fun other hother => hfiles other (by simp [hother]))
    rw [prepareFiles, Clear]
    split
    · rw [Always, ensures_bind]
      apply ensures_toImageAttachment hallowed hconfigured hfile (fun _ => trivial)
      intro attachment
      apply hrest
      intro _ _
      trivial
    · split
      · apply hrest
        intro _ _
        trivial
      · rw [Always, ensures_bind]
        apply ensures_toDocumentBlock hallowed hconfigured hfile (fun _ => trivial)
        intro block used
        apply hrest
        intro _ _
        trivial

/-! ## The files that are reached -/

def isDocument (file : GatewayTaskFile) : Bool := !isImageMime file.mimeType

/-- The number of documents that can use up the room. -/
def documentsFor (room : Nat) : Nat := (room + 5999) / 6000

/-- A file can be loaded from a path. -/
def ReadsPath (settings : InputSettings) (file : GatewayTaskFile) : Prop :=
  ∃ path, sourceOf settings file = .path path

/-- A file has no content that can be loaded, so that a run which comes to it fails. -/
def Unloadable (settings : InputSettings) (file : GatewayTaskFile) : Prop := sourceOf settings file = .none

/-- No run gets past the files before to the file. An image is reached although a document cannot be
loaded, if the documents before that one can use up the room: then the others are left out. -/
def Blocked (settings : InputSettings) (room : Nat) (before : List GatewayTaskFile)
    (file : GatewayTaskFile) : Prop :=
  (∃ g ∈ before, isDocument g = false ∧ Unloadable settings g) ∨
    (∃ g ∈ (before.filter isDocument).take (documentsFor room), Unloadable settings g) ∨
    isDocument file = true ∧ (room = 0 ∨ ∃ g ∈ before, Unloadable settings g)

def Guarded (settings : InputSettings) (room : Nat) (files : List GatewayTaskFile) : Prop :=
  ∀ before file after, files = before ++ file :: after → ReadsPath settings file →
    Blocked settings room before file

variable {room : Nat} {before : List GatewayTaskFile} {g : GatewayTaskFile}

theorem documentsFor_succ (hroom : room ≠ 0) : ∃ n, documentsFor room = n + 1 := by
  refine ⟨documentsFor room - 1, ?_⟩
  unfold documentsFor
  omega

theorem Blocked.document (h : Blocked settings room before file) (hroom : room ≠ 0) :
    ∃ g ∈ before, Unloadable settings g := by
  rcases h with ⟨g, hg, -, hnone⟩ | ⟨g, hg, hnone⟩ | ⟨-, hzero | hnone⟩
  · exact ⟨g, hg, hnone⟩
  · exact ⟨g, List.mem_of_mem_filter (List.mem_of_mem_take hg), hnone⟩
  · exact absurd hzero hroom
  · exact hnone

theorem guarded_cons :
    Guarded settings room (g :: files) ↔
      (ReadsPath settings g → Blocked settings room [] g) ∧
        ∀ before file after, files = before ++ file :: after → ReadsPath settings file →
          Blocked settings room (g :: before) file := by
  constructor
  · intro h
    exact ⟨h [] g files rfl, fun before file after hfiles => h (g :: before) file after (by rw [hfiles]; rfl)⟩
  · rintro ⟨hhead, htail⟩ before file after hfiles
    cases before with
    | nil =>
      cases hfiles
      exact hhead
    | cons other before =>
      cases hfiles
      exact htail before file after rfl

theorem blocked_nil : Blocked settings room [] g ↔ isDocument g = true ∧ room = 0 := by
  simp [Blocked]

/-- An image that can be downloaded stands in nobody's way. -/
theorem blocked_image (himage : isDocument g = false) (hloads : ¬ Unloadable settings g) :
    Blocked settings room (g :: before) file ↔ Blocked settings room before file := by
  simp [Blocked, himage, hloads]

theorem blocked_unloadable (hnone : Unloadable settings g) (hroom : isDocument g = true → room ≠ 0) :
    Blocked settings room (g :: before) file := by
  cases hdocument : isDocument g with
  | false => exact .inl ⟨g, by simp, hdocument, hnone⟩
  | true =>
    refine .inr (.inl ⟨g, ?_, hnone⟩)
    obtain ⟨n, hn⟩ := documentsFor_succ (hroom hdocument)
    rw [List.filter_cons_of_pos hdocument, hn, List.take_succ_cons]
    exact List.mem_cons_self

theorem blocked_omitted (hdocument : isDocument g = true) :
    Blocked settings 0 (g :: before) file ↔ Blocked settings 0 before file := by
  simp [Blocked, hdocument, documentsFor]

theorem blocked_document (hdocument : isDocument g = true) (hloads : ¬ Unloadable settings g) (hroom : room ≠ 0) :
    Blocked settings room (g :: before) file ↔
      ∀ used, used ≤ budgetFor room → Blocked settings (room - used) before file := by
  obtain ⟨n, hn⟩ := documentsFor_succ hroom
  have hcons : Blocked settings room (g :: before) file ↔
      (∃ g ∈ before, isDocument g = false ∧ Unloadable settings g) ∨
        (∃ g ∈ (before.filter isDocument).take n, Unloadable settings g) ∨
        isDocument file = true ∧ ∃ g ∈ before, Unloadable settings g := by
    simp [Blocked, hdocument, hloads, hroom, hn]
  rw [hcons]
  constructor
  · rintro h used hused
    have hle : n ≤ documentsFor (room - used) := by
      unfold documentsFor at hn ⊢
      unfold budgetFor maxDocumentCharsPerFile at hused
      omega
    rcases h with himage | ⟨other, hother, hnone⟩ | ⟨hfile, hnone⟩
    · exact .inl himage
    · exact .inr (.inl ⟨other, (List.take_subset_take_left _ hle) hother, hnone⟩)
    · exact .inr (.inr ⟨hfile, .inr hnone⟩)
  · intro h
    have hmost := h (min room 6000) (by unfold budgetFor maxDocumentCharsPerFile; omega)
    have hleast := h 0 (Nat.zero_le _)
    have hle : documentsFor (room - min room 6000) = n := by
      unfold documentsFor at hn ⊢
      omega
    rcases hmost with himage | hdocuments | ⟨hfile, -⟩
    · exact .inl himage
    · rw [hle] at hdocuments
      exact .inr (.inl hdocuments)
    · exact .inr (.inr ⟨hfile, hleast.document (by omega)⟩)

/-- A file whose content has to be loaded first: with a path it is read, without content the run ends here. -/
theorem demand_iff_guarded_cons {rest : Prop} (hfirst : ¬ Blocked settings room [] g)
    (hroom : isDocument g = true → room ≠ 0)
    (hrest : ¬ Unloadable settings g → (rest ↔ ∀ before file after, files = before ++ file :: after →
      ReadsPath settings file → Blocked settings room (g :: before) file)) :
    Demand settings g rest ↔ Guarded settings room (g :: files) := by
  rw [guarded_cons, Demand]
  cases hsource : sourceOf settings g with
  | url value =>
    have hpath : ¬ ReadsPath settings g := by
      rintro ⟨path, hpath⟩
      rw [hsource] at hpath
      cases hpath
    have hloads : ¬ Unloadable settings g := by
      intro hnone
      rw [Unloadable, hsource] at hnone
      cases hnone
    rw [← hrest hloads]
    exact ⟨fun h => ⟨fun hreads => absurd hreads hpath, h⟩, And.right⟩
  | path path => exact iff_of_false not_false fun h => hfirst (h.1 ⟨path, hsource⟩)
  | none =>
    refine iff_of_true trivial ⟨?_, fun _ _ _ _ _ => blocked_unloadable hsource hroom⟩
    rintro ⟨path, hpath⟩
    rw [hsource] at hpath
    cases hpath

theorem clear_iff_guarded : Clear settings room files ↔ Guarded settings room files := by
  induction files generalizing room with
  | nil =>
    refine iff_of_true trivial ?_
    intro before file after hfiles
    simp at hfiles
  | cons g files ih =>
    rw [Clear]
    split
    · rename_i himage
      have hdocument : isDocument g = false := by simp [isDocument, himage]
      apply demand_iff_guarded_cons
      · simp [blocked_nil, hdocument]
      · simp [hdocument]
      · intro hloads
        simp only [ih, Guarded, blocked_image hdocument hloads]
    · rename_i himage
      have hdocument : isDocument g = true := by simp [isDocument, himage]
      split
      · subst room
        rw [ih, guarded_cons]
        simp only [blocked_omitted hdocument]
        exact ⟨fun h => ⟨fun _ => blocked_nil.mpr ⟨hdocument, rfl⟩, h⟩, And.right⟩
      · rename_i hroom
        apply demand_iff_guarded_cons
        · simp [blocked_nil, hroom]
        · exact fun _ => hroom
        · intro hloads
          simp only [ih, Guarded, blocked_document hdocument hloads hroom]
          exact ⟨fun h before file after hfiles hpath used hused => h used hused before file after hfiles hpath,
            fun h used hused before file after hfiles hpath => h before file after hfiles hpath used hused⟩

/-- **Confinement of the reads.** Everything that is loaded for the files of an accepted payload comes
from the configured origin, in every run, exactly when no run reaches a file that is read from a path. -/
theorem reads_confined_iff (body : Json) {payload : ExecuteTaskPayload}
    (hallowed : settings.allowedContentOrigin = some allowed) (hconfigured : allowed ≠ "")
    (haccepted : validateExecutePayload settings.toPayloadSettings body = .ok payload) :
    (∀ exchanges, Exchanged (prepareGatewayInput settings payload.message payload.files) () exchanges →
        (∀ x ∈ exchanges, Direct settings x) → ∀ x ∈ exchanges, Confined settings allowed x) ↔
      ∀ before file after, payload.files = before ++ file :: after → ReadsPath settings file →
        Blocked settings maxDocumentCharsTotal before file := by
  rw [← always_iff_exchanged, prepareGatewayInput, ← Guarded, ← clear_iff_guarded,
    ← always_prepareFiles hallowed hconfigured (validated_of_accepted haccepted)]
  apply always_bind_of_always
  intro _ _
  trivial

/-- A deployment with one origin. -/
def demoSettings : InputSettings where
  jsonParse _ := .error "unexpected end of input"
  urlOrigin
    | .str text => if startsWith text "http://minio:9000" then some "http://minio:9000" else none
    | _ => none
  allowedContentOrigin := some "http://minio:9000"
  fetchError _ := none
  localPath
    | .str path => .ok path
    | _ => .error "the path must be a string"

def demoFile (source : String × Json) : Json :=
  .obj [("fileId", .str "f1"), ("filename", .str "a.png"), ("mimeType", .str "image/png"), ("sizeBytes", .num 1),
    ("storageKey", .str "users/u1/f1/a.png"), source]

def demoBody (source : String × Json) : Json :=
  .obj [("taskId", .str "t1"), ("sessionId", .str "s1"), ("message", .str "hi"), ("files", .arr [demoFile source])]

def demoPayload (contentUrl contentPath : Option Json) : ExecuteTaskPayload :=
  ⟨"t1", "s1", "hi", [⟨"f1", "a.png", "image/png", 1, "users/u1/f1/a.png", contentUrl, contentPath⟩]⟩

theorem reads_confined_iff_linked :
    (∀ exchanges, Exchanged (prepareGatewayInput demoSettings "hi"
          (demoPayload (some (.str "http://minio:9000/a.png")) none).files) () exchanges →
        (∀ x ∈ exchanges, Direct demoSettings x) → ∀ x ∈ exchanges, Confined demoSettings "http://minio:9000" x) ↔
      ∀ before file after,
        (demoPayload (some (.str "http://minio:9000/a.png")) none).files = before ++ file :: after →
        ReadsPath demoSettings file → Blocked demoSettings maxDocumentCharsTotal before file :=
  reads_confined_iff (demoBody ("contentUrl", .str "http://minio:9000/a.png")) rfl (by decide) rfl

/-- A path without a URL passes the validator, and the adapter reads it. -/
theorem reads_path :
    ¬ ∀ (settings : InputSettings) (allowed : String) (body : Json) (payload : ExecuteTaskPayload),
      settings.allowedContentOrigin = some allowed → allowed ≠ "" →
      validateExecutePayload settings.toPayloadSettings body = .ok payload →
      ∀ exchanges, Exchanged (prepareGatewayInput settings payload.message payload.files) () exchanges →
        (∀ x ∈ exchanges, Direct settings x) → ∀ x ∈ exchanges, Confined settings allowed x := by
  intro h
  have hconfined := h demoSettings "http://minio:9000" (demoBody ("contentPath", .str "/etc/passwd"))
    (demoPayload none (some (.str "/etc/passwd"))) rfl (by decide) rfl
    [⟨.readFile "/etc/passwd", .ok [114]⟩] (.replied _ (.start _ _))
  simp [Direct, Confined] at hconfined

end StorageReads
