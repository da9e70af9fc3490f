import ClawWork.ExecutePayload
import ClawWork.Exchanges

/-!
# The attached files of an execution

What the adapter reads for the files of a payload, as a program whose requests go to
the object storage, to its own file system and to the document parser. The texts of
the document blocks are kept with their limits; cutting them and joining them to the
message is left out, since nothing that is read depends on it.
-/

namespace GatewayInput

open JavaScript ExecutePayload Isolation

structure InputSettings extends PayloadSettings where
  /-- The error of `fetch` for a value that it sends no request for, such as a URL with a user name. -/
  fetchError : Json → Option String
  /-- The path that `readFile` opens for a value, or the error that it throws instead. -/
  localPath : Json → Except String String

inductive Request where
  | fetch (url : Json)
  | readFile (path : String)
  | parse (file : GatewayTaskFile) (content : List UInt8)

/-- A response to `fetch`; `url` is where the body comes from. -/
structure Download where
  url : String
  status : Nat
  contentLength : Option Nat
  body : List UInt8

structure ParserResponse where
  status : Nat
  /-- The body; `null` when it is not JSON. -/
  payload : Json

/-- A failed request rejects with a message. -/
def Reply : Request → Type
  | .fetch _ => Except String Download
  | .readFile _ => Except String (List UInt8)
  | .parse _ _ => Except String ParserResponse

inductive ParseFileErrorCode where
  | fileNotFound
  | fileTooLarge
  | parseFailed
  | unsupportedFileType
  deriving DecidableEq

inductive InputError where
  | error (message : String)
  | parseFileError (code : ParseFileErrorCode) (message : String)

def InputError.message : InputError → String
  | .error message => message
  | .parseFileError _ message => message

abbrev Loading := Program Reply InputError Unit

structure GatewayAttachment where
  mimeType : String
  fileName : String
  /-- The bytes of `content`, which is base64. -/
  content : List UInt8

/-- The content of a block is cut to `budget` characters when there is one. -/
structure DocumentBlock where
  index : Nat
  file : GatewayTaskFile
  content : String
  budget : Option Nat

structure PreparedGatewayInput where
  message : String
  documentBlocks : List DocumentBlock
  attachments : List GatewayAttachment

def maxDocumentCharsPerFile : Nat := 6000

def maxDocumentCharsTotal : Nat := 16000

def isImageMime (mimeType : String) : Bool := startsWith mimeType "image/"

def isOk (status : Nat) : Bool := 200 ≤ status && status < 300

/-- The value of a member that passes `if (member)`. -/
def present (value : Option Json) : Option Json := if isTruthy value then value else none

def reject (text : String) : InputError := .error text

/-- An awaited promise that settles with a reply. -/
def received {α : Type} (reply : Except String α) : Loading α :=
  match reply with
  | .ok value => pure value
  | .error message => throw (reject message)

def fetch (settings : InputSettings) (url : Json) : Loading Download := do
  match settings.fetchError url with
  | some message => throw (reject message)
  | none =>
    let reply ← Program.request (Request.fetch url)
    received (reply : Except String Download)

def readFile (settings : InputSettings) (contentPath : Json) : Loading (List UInt8) := do
  let path ← received (settings.localPath contentPath)
  let reply ← Program.request (Request.readFile path)
  received (reply : Except String (List UInt8))

def postToParser (file : GatewayTaskFile) (content : List UInt8) : Loading ParserResponse := do
  let reply ← Program.request (Request.parse file content)
  received (reply : Except String ParserResponse)

def fetchObject (settings : InputSettings) (file : GatewayTaskFile) (contentUrl : Json) :
    Loading (List UInt8) := do
  let response ← fetch settings contentUrl
  Program.require (isOk response.status)
    (reject ("object download failed (" ++ toString response.status ++ ")"))
  Program.require (response.contentLength.all (· ≤ maxFileBytes))
    (reject ("file " ++ file.filename ++ " exceeds the adapter size limit"))
  Program.require (response.body.length ≤ maxFileBytes && response.body.length == file.sizeBytes)
    (reject ("downloaded size for " ++ file.filename ++ " does not match metadata"))
  return response.body

def readLocal (settings : InputSettings) (file : GatewayTaskFile) (contentPath : Json) : Loading (List UInt8) := do
  let content ← readFile settings contentPath
  Program.require (content.length ≤ maxFileBytes && content.length == file.sizeBytes)
    (reject ("local size for " ++ file.filename ++ " does not match metadata"))
  return content

def loadFile (settings : InputSettings) (file : GatewayTaskFile) : Loading (List UInt8) := do
  Program.require (file.sizeBytes ≤ maxFileBytes)
    (reject ("file " ++ file.filename ++ " exceeds the adapter size limit"))
  match present file.contentUrl, present file.contentPath with
  | some contentUrl, _ => fetchObject settings file contentUrl
  | none, some contentPath => readLocal settings file contentPath
  | none, none => throw (reject ("file " ++ file.filename ++ " has no readable content source"))

def toImageAttachment (settings : InputSettings) (file : GatewayTaskFile) : Loading GatewayAttachment := do
  let content ← loadFile settings file
  return ⟨file.mimeType, file.filename, content⟩

/-- `isParserErrorCode`, with the default. -/
def parserErrorCode : Option Json → ParseFileErrorCode
  | some (.str "FILE_NOT_FOUND") => .fileNotFound
  | some (.str "FILE_TOO_LARGE") => .fileTooLarge
  | some (.str "UNSUPPORTED_FILE_TYPE") => .unsupportedFileType
  | _ => .parseFailed

def equalsFalse : Option Json → Bool
  | some (.bool b) => !b
  | _ => false

/-- The text of a response of the parser. -/
def parsedText (response : ParserResponse) : Except InputError String :=
  if !isOk response.status || equalsFalse (memberOf response.payload "ok") then
    let message :=
      match memberOf response.payload "message" with
      | some (.str message) => message
      | _ => "parser service failed with status " ++ toString response.status
    .error (.parseFileError (parserErrorCode (memberOf response.payload "code")) message)
  else
    match memberOf response.payload "text" with
    | some (.str text) => .ok text
    | _ => .error (reject "isolated parser returned an invalid response")

def parseWithIsolatedService (settings : InputSettings) (file : GatewayTaskFile) : Loading String := do
  let response ←
    tryCatch
      (do
        let content ← loadFile settings file
        postToParser file content)
      fun e => throw (reject ("isolated parser request failed: " ++ e.message))
  Program.done (parsedText response)

def formatFallbackDocumentNote (file : GatewayTaskFile) (code : ParseFileErrorCode) (message : String) : String :=
  if code = .unsupportedFileType then
    " ".intercalate
      ["The user attached " ++ file.filename ++ " (" ++ file.mimeType ++ ").",
        "Readable text extraction is not supported for this format yet.",
        "Use the file metadata in your response or ask the user to re-upload as PDF, DOCX, XLSX, CSV, TXT, " ++
          "or Markdown if exact contents are needed."]
  else
    " ".intercalate
      ["The user attached " ++ file.filename ++ " (" ++ file.mimeType ++ ").",
        "Readable text extraction failed locally: " ++ message ++ ".",
        "Use the file metadata in your response and ask for a different format if exact contents are needed."]

def budgetFor (remainingChars : Nat) : Nat := max 256 (min maxDocumentCharsPerFile remainingChars)

/-- A block with the characters that it uses. -/
def documentBlock (file : GatewayTaskFile) (index budget : Nat) (text : String) : DocumentBlock × Nat :=
  (⟨index, file, text, some budget⟩, min (utf16Length text) budget)

def toDocumentBlock (settings : InputSettings) (file : GatewayTaskFile) (index remainingChars : Nat) :
    Loading (DocumentBlock × Nat) :=
  let budget := budgetFor remainingChars
  tryCatch
    (do
      let text ← parseWithIsolatedService settings file
      return documentBlock file index budget text)
    fun
      | .parseFileError code message =>
        if code = .fileNotFound then throw (.parseFileError code message)
        else return documentBlock file index budget (formatFallbackDocumentNote file code message)
      | e => throw e

/-- The block of a document that is not read any more. -/
def omittedBlock (file : GatewayTaskFile) (index : Nat) : DocumentBlock :=
  ⟨index, file, "The user attached " ++ file.filename ++ " (" ++ file.mimeType ++
    "), but local document context was truncated because the request already includes too much extracted content.",
    none⟩

/-- The loop over the files, from the number `index` on. -/
def prepareFiles (settings : InputSettings) (index remainingChars : Nat) :
    List GatewayTaskFile → Loading (List DocumentBlock × List GatewayAttachment)
  | [] => pure ([], [])
  | file :: files => do
    if isImageMime file.mimeType then
      let attachment ← toImageAttachment settings file
      let (blocks, attachments) ← prepareFiles settings (index + 1) remainingChars files
      return (blocks, attachment :: attachments)
    else if remainingChars = 0 then
      let (blocks, attachments) ← prepareFiles settings (index + 1) 0 files
      return (omittedBlock file index :: blocks, attachments)
    else
      let (block, charsUsed) ← toDocumentBlock settings file index remainingChars
      let (blocks, attachments) ← prepareFiles settings (index + 1) (remainingChars - charsUsed) files
      return (block :: blocks, attachments)

def prepareGatewayInput (settings : InputSettings) (message : String) (files : List GatewayTaskFile) :
    Loading PreparedGatewayInput := do
  let (blocks, attachments) ← prepareFiles settings 1 maxDocumentCharsTotal files
  return ⟨message, blocks, attachments⟩

end GatewayInput
