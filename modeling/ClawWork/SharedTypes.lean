import ClawWork.JavaScript

/-!
# Event and artifact types shared by the adapter, the API and the phone

`TaskEventDetail` is the part of a `TaskStreamEvent` that differs between the
members of the discriminated union; the base fields are common to all of them.
The payload of `task.result.created` is either an accepted artifact result or an
open record.
-/

namespace SharedTypes

open JavaScript

inductive ArtifactKind where
  | excel | pdf | docx
  deriving DecidableEq, Repr

def ArtifactKind.literal : ArtifactKind → String
  | .excel => "excel"
  | .pdf => "pdf"
  | .docx => "docx"

/-- `ArtifactKindSchema.safeParse`. -/
def parseKind : Json → Option ArtifactKind
  | .str "excel" => some .excel
  | .str "pdf" => some .pdf
  | .str "docx" => some .docx
  | _ => none

/-- The `artifact` object of an `ArtifactResult`; the type literal is implied. -/
structure Artifact where
  kind : ArtifactKind
  fileName : String
  mimeType : String
  artifactId : Option String
  downloadUrl : Option String
  previewText : String
  sizeBytes : Option Nat
  deriving DecidableEq, Repr

inductive ResultPayload where
  | artifact (value : Artifact)
  | record (fields : List (String × Json))

inductive TaskEventDetail where
  | accepted
  | stageChanged (stage : String)
  | delta (delta : String)
  | resultCreated (result : ResultPayload)
  | completed
  | cancelled (message : String)
  | failed (code message : String)

structure TaskStreamEvent where
  detail : TaskEventDetail
  taskId : String
  sessionId : String
  runId : String
  timestamp : String

/-- `task.completed`, `task.failed` and `task.cancelled`. -/
def TaskEventDetail.isTerminal : TaskEventDetail → Bool
  | .completed | .failed _ _ | .cancelled _ => true
  | _ => false

def TaskStreamEvent.isTerminal (event : TaskStreamEvent) : Bool := event.detail.isTerminal

def TaskEventDetail.isAccepted : TaskEventDetail → Bool
  | .accepted => true
  | _ => false

/-- A required string member. -/
def parseString : Option Json → Option String
  | some (.str s) => some s
  | _ => none

/-- An optional string member that satisfies `valid` when it is present. -/
def parseOptionalString (valid : String → Bool) : Option Json → Option (Option String)
  | none => some none
  | some (.str s) => if valid s then some (some s) else none
  | _ => none

/-- An optional non-negative integer member. -/
def parseOptionalNat : Option Json → Option (Option Nat)
  | none => some none
  | some (.num q) => if q.den = 1 ∧ 0 ≤ q.num then some (some q.num.toNat) else none
  | _ => none

/-- The inner object schema of `ArtifactResultSchema`; unknown keys are dropped. -/
def parseArtifact (isUrl : String → Bool) : Option Json → Option Artifact
  | some (.obj fields) => do
    let kind ← (member fields "kind").bind parseKind
    let fileName ← parseString (member fields "fileName")
    let mimeType ← parseString (member fields "mimeType")
    let artifactId ← parseOptionalString (fun _ => true) (member fields "artifactId")
    let downloadUrl ← parseOptionalString isUrl (member fields "downloadUrl")
    let previewText ← parseString (member fields "previewText")
    let sizeBytes ← parseOptionalNat (member fields "sizeBytes")
    some { kind, fileName, mimeType, artifactId, downloadUrl, previewText, sizeBytes }
  | _ => none

def isArtifactLiteral : Option Json → Bool
  | some (.str s) => s = "artifact"
  | _ => false

/-- `ArtifactResultSchema.safeParse`: `isUrl` is the URL check of the schema library. -/
def parseArtifactResult (isUrl : String → Bool) : Json → Option Artifact
  | .obj fields =>
    if isArtifactLiteral (member fields "type") then parseArtifact isUrl (member fields "artifact")
    else none
  | _ => none

/-- The JSON object of an accepted artifact; absent optional members are left out. -/
def Artifact.toJson (a : Artifact) : Json :=
  .obj <| [("kind", .str a.kind.literal), ("fileName", .str a.fileName),
      ("mimeType", .str a.mimeType)] ++
    (a.artifactId.map fun s => ("artifactId", Json.str s)).toList ++
    (a.downloadUrl.map fun s => ("downloadUrl", Json.str s)).toList ++
    [("previewText", .str a.previewText)] ++
    (a.sizeBytes.map fun n => ("sizeBytes", Json.num n)).toList

def artifactResultJson (artifact : Json) : Json :=
  .obj [("type", .str "artifact"), ("artifact", artifact)]

end SharedTypes
