import ClawWork.CodeUnits
import ClawWork.GatewayInput
import ClawWork.ReadRuns

/-!
# The budget of the document blocks

The texts that the adapter adds to a message for the attached documents. A content is
cut to the budget of its block, and the blocks share one total.
-/

namespace DocumentBudget

open JavaScript CodeUnits ExecutePayload Isolation GatewayInput

def truncateText (text : Text) (maxChars : Nat) : Text :=
  if text.length ≤ maxChars then text
  else trimEndUnits (text.take (maxChars - 18)) ++ units "\n...[truncated]..."

/-- The marker is paid for by the characters that are cut. -/
theorem length_truncateText_le (text : Text) {maxChars : Nat} (h : 18 ≤ maxChars) :
    (truncateText text maxChars).length ≤ min text.length maxChars := by
  unfold truncateText
  split
  · rename_i hshort
    exact le_min le_rfl hshort
  · rename_i hlong
    have hmarker : (units "\n...[truncated]...").length = 18 := by decide +kernel
    have htrim : (trimEndUnits (text.take (maxChars - 18))).length ≤ maxChars - 18 :=
      (List.rdropWhile_prefix _ _).length_le.trans (List.length_take_le _ _)
    rw [List.length_append, hmarker]
    omega

/-- The content that a block shows. -/
def placed (block : DocumentBlock) : Text :=
  match block.budget with
  | some budget => truncateText (units block.content) budget
  | none => units block.content

def buildDocumentBlock (block : DocumentBlock) : Text :=
  (units "\n").intercalate
    [units ("<attached_document index=\"" ++ toString block.index ++ "\">"),
      units ("fileName: " ++ block.file.filename),
      units ("mimeType: " ++ block.file.mimeType),
      units ("sizeBytes: " ++ toString block.file.sizeBytes),
      units "content:",
      placed block,
      units "</attached_document>"]

def mergeMessageWithDocumentBlocks (message : String) (documentBlocks : List Text) : Text :=
  if documentBlocks = [] then units message
  else
    let trimmedMessage := trim message
    let documentSection := (units "\n\n").intercalate
      (units "Attached document context follows. These files are part of the user's request." :: documentBlocks)
    if trimmedMessage = "" then documentSection else units trimmedMessage ++ units "\n\n" ++ documentSection

/-- What `prepareGatewayInput` resolves with. -/
structure SessionInput where
  message : Text
  attachments : List GatewayAttachment

def sessionInput (prepared : PreparedGatewayInput) : SessionInput :=
  ⟨mergeMessageWithDocumentBlocks prepared.message (prepared.documentBlocks.map buildDocumentBlock),
    prepared.attachments⟩

/-- `prepareGatewayInput` with the texts put together. -/
def prepareSessionInput (settings : InputSettings) (message : String) (files : List GatewayTaskFile) :
    Loading SessionInput := do
  let prepared ← prepareGatewayInput settings message files
  return sessionInput prepared

/-- The content of the block comes from the document, or stands for it. -/
def isCharged (block : DocumentBlock) : Bool := block.budget.isSome

def charsPlaced (blocks : List DocumentBlock) : Nat := ((blocks.filter isCharged).map fun b =>
    (placed b).length).sum

/-- What the blocks may still place. -/
def allowance (remainingChars : Nat) : Nat := if remainingChars = 0 then 0 else remainingChars + 255

/-- An attachment for each image and a block for each other file, the first file having the number `index`;
the blocks place at most `limit` characters from documents. -/
structure Prepared (files : List GatewayTaskFile) (index limit : Nat) (blocks : List DocumentBlock)
    (attachments : List GatewayAttachment) : Prop where
  images : attachments.map (fun a => (a.fileName, a.mimeType)) =
    (files.filter fun file => isImageMime file.mimeType).map fun file => (file.filename, file.mimeType)
  documents : blocks.map (fun b => (b.file, b.index)) =
    (files.zipIdx index).filter fun numbered => !isImageMime numbered.1.mimeType
  contents : ∀ block ∈ blocks, isCharged block = true → (placed block).length ≤ maxDocumentCharsPerFile
  notices : ∀ block ∈ blocks, isCharged block = false → block = omittedBlock block.file block.index
  total : charsPlaced blocks ≤ limit

namespace Prepared

variable {file : GatewayTaskFile} {files : List GatewayTaskFile} {index limit : Nat} {blocks : List DocumentBlock}
  {attachments : List GatewayAttachment}

theorem nil : Prepared [] index limit [] [] where
  images := rfl
  documents := rfl
  contents := by simp
  notices := by simp
  total := Nat.zero_le _

theorem image {attachment : GatewayAttachment} (himage : isImageMime file.mimeType = true)
    (hattachment : attachment.fileName = file.filename ∧ attachment.mimeType = file.mimeType)
    (h : Prepared files (index + 1) limit blocks attachments) :
    Prepared (file :: files) index limit blocks (attachment :: attachments) where
  images := by
    rw [List.filter_cons_of_pos (by simpa using himage), List.map_cons, List.map_cons, h.images, hattachment.1,
      hattachment.2]
  documents := by
    rw [List.zipIdx_cons, List.filter_cons_of_neg (by simpa using himage)]
    exact h.documents
  contents := h.contents
  notices := h.notices
  total := h.total

theorem document {block : DocumentBlock} {rest : Nat} (himage : isImageMime file.mimeType = false)
    (hfile : block.file = file ∧ block.index = index)
    (hcontent : isCharged block = true → (placed block).length ≤ maxDocumentCharsPerFile)
    (hnotice : isCharged block = false → block = omittedBlock file index)
    (hlimit : charsPlaced [block] + rest ≤ limit) (h : Prepared files (index + 1) rest blocks attachments) :
    Prepared (file :: files) index limit (block :: blocks) attachments where
  images := by
    rw [List.filter_cons_of_neg (by simp [himage])]
    exact h.images
  documents := by
    rw [List.zipIdx_cons, List.filter_cons_of_pos (by simp [himage]), List.map_cons, h.documents, hfile.1, hfile.2]
  contents := List.forall_mem_cons.mpr ⟨hcontent, h.contents⟩
  notices := by
    refine List.forall_mem_cons.mpr ⟨fun hb => ?_, h.notices⟩
    rw [hfile.1, hfile.2]
    exact hnotice hb
  total := by
    have hsplit : charsPlaced (block :: blocks) = charsPlaced [block] + charsPlaced blocks := by
      unfold charsPlaced
      rw [← List.singleton_append, List.filter_append, List.map_append, List.sum_append]
    rw [hsplit]
    exact (Nat.add_le_add_left h.total _).trans hlimit

end Prepared

/-- A use beyond what is left takes at most the floor of 256, and nothing is placed after it. -/
theorem add_allowance_le {charsUsed remainingChars : Nat} (hleft : remainingChars ≠ 0)
    (hused : charsUsed ≤ max 256 remainingChars) :
    charsUsed + allowance (remainingChars - charsUsed) ≤ allowance remainingChars := by
  unfold allowance
  rw [if_neg hleft]
  split
  · omega
  · omega

theorem budgetFor_le (remainingChars : Nat) : budgetFor remainingChars ≤ max 256 remainingChars := by
  unfold budgetFor
  omega

theorem budgetFor_bounds (remainingChars : Nat) :
    18 ≤ budgetFor remainingChars ∧ budgetFor remainingChars ≤ maxDocumentCharsPerFile := by
  unfold budgetFor maxDocumentCharsPerFile
  omega

/-- What a block places is charged. -/
theorem length_placed_le (file : GatewayTaskFile) (index remainingChars : Nat) (text : String) :
    (placed (documentBlock file index (budgetFor remainingChars) text).1).length ≤
      (documentBlock file index (budgetFor remainingChars) text).2 := by
  have hcut := length_truncateText_le (units text) (budgetFor_bounds remainingChars).1
  rw [length_units] at hcut
  exact hcut

section Blocks

variable {file : GatewayTaskFile} {files : List GatewayTaskFile} {index remainingChars : Nat}
  {blocks : List DocumentBlock} {attachments : List GatewayAttachment}

theorem Prepared.read (text : String) (himage : isImageMime file.mimeType = false) (hleft : remainingChars ≠ 0)
    (h : Prepared files (index + 1)
      (allowance (remainingChars - (documentBlock file index (budgetFor remainingChars) text).2)) blocks
      attachments) :
    Prepared (file :: files) index (allowance remainingChars)
      ((documentBlock file index (budgetFor remainingChars) text).1 :: blocks) attachments := by
  have hplaced := length_placed_le file index remainingChars text
  have hused : (documentBlock file index (budgetFor remainingChars) text).2 ≤ budgetFor remainingChars :=
    min_le_right _ _
  have hcontent := hplaced.trans (hused.trans (budgetFor_bounds remainingChars).2)
  refine Prepared.document himage ⟨rfl, rfl⟩ (fun _ => hcontent) (fun hnone => by cases hnone) ?_ h
  exact (Nat.add_le_add_right hplaced _).trans (add_allowance_le hleft (hused.trans (budgetFor_le remainingChars)))

theorem Prepared.omit (himage : isImageMime file.mimeType = false)
    (h : Prepared files (index + 1) (allowance 0) blocks attachments) :
    Prepared (file :: files) index (allowance 0) (omittedBlock file index :: blocks) attachments :=
  Prepared.document himage ⟨rfl, rfl⟩ (fun hsome => by cases hsome) (fun _ => rfl) le_rfl h

end Blocks

/-- What the parser says of a document: its text, or a typed failure other than `FILE_NOT_FOUND`. -/
def IsOutcome : Except InputError String → Prop
  | .ok _ => True
  | .error (.parseFileError code _) => code ≠ .fileNotFound
  | .error (.error _) => False

/-- The bytes of a file load, and the parser answers for a document. -/
structure Served (env : Nat → (r : Request) → Reply r) (settings : InputSettings) (file : GatewayTaskFile) :
    Prop where
  loads : Returns env () (loadFile settings file) fun _ => True
  parses : isImageMime file.mimeType = false → ∀ n content, ∃ response : ParserResponse,
    env n (.parse file content) = (.ok response : Except String ParserResponse) ∧ IsOutcome (parsedText response)

section Runs

variable {env : Nat → (r : Request) → Reply r} {settings : InputSettings} {file : GatewayTaskFile}

theorem settles_loadFile :
    Settles env () (loadFile settings file) (fun _ => True) fun _ => ¬ Served env settings file :=
  Settles.of_unit.mono (fun _ => id) fun _ hload hserved => hload hserved.loads

theorem settles_toImageAttachment :
    Settles env () (toImageAttachment settings file)
      (fun attachment => attachment.fileName = file.filename ∧ attachment.mimeType = file.mimeType)
      fun _ => ¬ Served env settings file :=
  settles_loadFile.bind fun _ _ => Settles.pure ⟨rfl, rfl⟩

/-- The reply to the request for the parser, when it is one. -/
theorem settles_postToParser (himage : isImageMime file.mimeType = false) (content : List UInt8) :
    Settles env () (postToParser file content)
      (fun response => Served env settings file → IsOutcome (parsedText response))
      fun _ => ¬ Served env settings file := by
  refine Settles.request.bind fun reply hreply => ?_
  obtain ⟨n, rfl⟩ := hreply
  unfold received
  split
  · rename_i response hresponse
    refine Settles.pure fun hserved => ?_
    obtain ⟨response', hresponse', houtcome⟩ := hserved.parses himage n content
    obtain rfl := Except.ok.inj (hresponse.symm.trans hresponse')
    exact houtcome
  · rename_i message hmessage
    refine Settles.throw fun hserved => ?_
    obtain ⟨response', hresponse', -⟩ := hserved.parses himage n content
    cases hmessage.symm.trans hresponse'

theorem settles_parseWithIsolatedService (himage : isImageMime file.mimeType = false) :
    Settles env () (parseWithIsolatedService settings file) (fun _ => True)
      fun e => Served env settings file → IsOutcome (.error e) := by
  have hresponse : Settles env ()
      (tryCatch
        (do
          let content ← loadFile settings file
          postToParser file content)
        fun e => throw (reject ("isolated parser request failed: " ++ e.message)))
      (fun response => Served env settings file → IsOutcome (parsedText response))
      fun e => Served env settings file → IsOutcome (.error e) := by
    refine Settles.recover (settles_loadFile.bind fun content _ => settles_postToParser himage content) ?_
    exact fun e hunserved => Settles.throw fun hserved => absurd hserved hunserved
  refine hresponse.bind fun response houtcome => ?_
  cases htext : parsedText response with
  | ok text => exact Settles.pure trivial
  | error e =>
    rw [htext] at houtcome
    exact Settles.throw houtcome

/-- The content of a block is the text of the document or a note on the failure. -/
theorem settles_toDocumentBlock (index remainingChars : Nat) (himage : isImageMime file.mimeType = false) :
    Settles env () (toDocumentBlock settings file index remainingChars)
      (fun result => ∃ text, result = documentBlock file index (budgetFor remainingChars) text)
      fun _ => ¬ Served env settings file := by
  refine Settles.recover ((settles_parseWithIsolatedService himage).bind fun text _ => Settles.pure ⟨text, rfl⟩) ?_
  intro e houtcome
  cases e with
  | error message => exact Settles.throw houtcome
  | parseFileError code message =>
    dsimp only
    split
    · rename_i hcode
      exact Settles.throw fun hserved => houtcome hserved hcode
    · exact Settles.pure ⟨_, rfl⟩

end Runs

theorem settles_prepareFiles (env : Nat → (r : Request) → Reply r) (settings : InputSettings)
    (files : List GatewayTaskFile) (index remainingChars : Nat) :
    Settles env () (prepareFiles settings index remainingChars files)
      (fun prepared => Prepared files index (allowance remainingChars) prepared.1 prepared.2)
      fun _ => ∃ file ∈ files, ¬ Served env settings file := by
  induction files generalizing index remainingChars with
  | nil => exact Settles.pure .nil
  | cons file files ih =>
    have hhead : ¬ Served env settings file → ∃ f ∈ file :: files, ¬ Served env settings f :=
      fun hunserved => ⟨file, List.mem_cons_self, hunserved⟩
    have htail : ∀ index remainingChars, Settles env () (prepareFiles settings index remainingChars files)
        (fun prepared => Prepared files index (allowance remainingChars) prepared.1 prepared.2)
        fun _ => ∃ f ∈ file :: files, ¬ Served env settings f := by
      intro index remainingChars
      refine (ih index remainingChars).mono (fun _ => id) ?_
      rintro _ ⟨f, hf, hunserved⟩
      exact ⟨f, List.mem_cons_of_mem _ hf, hunserved⟩
    unfold prepareFiles
    split
    · rename_i himage
      refine (settles_toImageAttachment.mono (fun _ => id) fun _ => hhead).bind fun attachment hattachment => ?_
      exact (htail _ _).bind fun prepared h => Settles.pure (h.image himage hattachment)
    · rename_i himage
      rw [Bool.not_eq_true] at himage
      split
      · rename_i hspent
        subst hspent
        exact (htail _ _).bind fun prepared h => Settles.pure (h.omit himage)
      · rename_i hleft
        refine ((settles_toDocumentBlock index remainingChars himage).mono (fun _ => id) fun _ => hhead).bind ?_
        rintro _ ⟨text, rfl⟩
        exact (htail _ _).bind fun prepared h => Settles.pure (h.read text himage hleft)

theorem settles_prepareSessionInput (env : Nat → (r : Request) → Reply r) (settings : InputSettings)
    (message : String) (files : List GatewayTaskFile) :
    Settles env () (prepareSessionInput settings message files)
      (fun input => ∃ blocks, input.message = mergeMessageWithDocumentBlocks message
      (blocks.map buildDocumentBlock) ∧
        Prepared files 1 (maxDocumentCharsTotal + 255) blocks input.attachments)
      fun _ => ∃ file ∈ files, ¬ Served env settings file := by
  have hprepared : Settles env () (prepareGatewayInput settings message files)
      (fun prepared => prepared.message = message ∧
        Prepared files 1 (maxDocumentCharsTotal + 255) prepared.documentBlocks prepared.attachments)
      fun _ => ∃ file ∈ files, ¬ Served env settings file :=
    (settles_prepareFiles env settings files 1 maxDocumentCharsTotal).bind fun _ h => Settles.pure ⟨rfl, h⟩
  refine hprepared.bind fun prepared h => ?_
  obtain ⟨rfl, h⟩ := h
  exact Settles.pure ⟨prepared.documentBlocks, rfl, h⟩

/-- What a run resolves with keeps the budget, and a run whose files are all served does resolve. -/
theorem document_budget (settings : InputSettings) (message : String) (files : List GatewayTaskFile)
    (env : Nat → (r : Request) → Reply r) (n : Nat) :
    (∀ input s, (prepareSessionInput settings message files).run env n () = (.ok input, s) →
      ∃ blocks, input.message = mergeMessageWithDocumentBlocks message (blocks.map buildDocumentBlock) ∧
        Prepared files 1 (maxDocumentCharsTotal + 255) blocks input.attachments) ∧
    ((∀ file ∈ files, Served env settings file) →
      ∃ input, (prepareSessionInput settings message files).run env n () = (.ok input, ())) := by
  rcases settles_prepareSessionInput env settings message files n with ⟨input, hrun, hfits⟩ | ⟨e, hrun, hunserved⟩
  · refine ⟨fun input' s hrun' => ?_, fun _ => ⟨input, hrun⟩⟩
    rw [hrun] at hrun'
    cases hrun'
    exact hfits
  · refine ⟨fun input s hrun' => ?_, fun hserved => ?_⟩
    · rw [hrun] at hrun'
      cases hrun'
    · obtain ⟨file, hfile, hnot⟩ := hunserved
      exact absurd (hserved file hfile) hnot

def demoSettings : InputSettings where
  jsonParse _ := .error "Unexpected end of JSON input"
  urlOrigin _ := none
  allowedContentOrigin := none
  fetchError _ := some "fetch failed"
  localPath
    | .str path => .ok path
    | _ => .error "The \"path\" argument must be of type string"

def demoFile (filename mimeType : String) : GatewayTaskFile :=
  ⟨"file-1", filename, mimeType, 3, "uploads/" ++ filename, none, some (.str "/data/upload")⟩

def demoFiles : List GatewayTaskFile :=
  [demoFile "photo.png" "image/png", demoFile "notes.md" "text/markdown",
  demoFile "data.bin" "application/octet-stream"]

/-- The parser reads the notes only. -/
def demoEnv : Nat → (r : Request) → Reply r
  | _, .fetch _ => (.error "fetch failed" : Except String Download)
  | _, .readFile _ => (.ok [1, 2, 3] : Except String (List UInt8))
  | _, .parse file _ => (.ok (if file.filename = "notes.md" then ⟨200, .obj [("ok", .bool true), ("text",
      .str "Notes")]⟩
      else ⟨415, .obj [("ok", .bool false), ("code", .str "UNSUPPORTED_FILE_TYPE")]⟩) :
      Except String ParserResponse)

theorem demo_served : ∀ file ∈ demoFiles, Served demoEnv demoSettings file := by
  have hloads : ∀ filename mimeType,
      Returns demoEnv () (loadFile demoSettings (demoFile filename mimeType)) fun _ => True :=
    fun filename mimeType n => ⟨[1, 2, 3], rfl, trivial⟩
  intro file hfile
  simp only [demoFiles, List.mem_cons, List.not_mem_nil, or_false] at hfile
  rcases hfile with rfl | rfl | rfl
  · have himage : isImageMime "image/png" = true := by decide +kernel
    exact ⟨hloads _ _, fun hdocument => by cases himage.symm.trans hdocument⟩
  · exact ⟨hloads _ _, fun _ n content => ⟨_, rfl, trivial⟩⟩
  · have hcode : ParseFileErrorCode.unsupportedFileType ≠ .fileNotFound := by decide
    exact ⟨hloads _ _, fun _ n content => ⟨_, rfl, hcode⟩⟩

theorem document_budget_demo :
    ∃ input blocks, (prepareSessionInput demoSettings "Summarise" demoFiles).run demoEnv 0 () = (.ok input, ()) ∧
      Prepared demoFiles 1 (maxDocumentCharsTotal + 255) blocks input.attachments := by
  obtain ⟨hfits, hresolves⟩ := document_budget demoSettings "Summarise" demoFiles demoEnv 0
  obtain ⟨input, hrun⟩ := hresolves demo_served
  obtain ⟨blocks, -, hblocks⟩ := hfits input () hrun
  exact ⟨input, blocks, hrun, hblocks⟩

end DocumentBudget
