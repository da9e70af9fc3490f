import ClawWork.EventJson
import ClawWork.GatewayClient

/-!
# The extraction of artifacts

What `extractArtifactResult` recognises in the payloads of the gateway: a result that
the schema accepts, whatever form it comes in. It finds it again in what it returns,
and below any number of `result` members.
-/

namespace ArtifactExtraction

open JavaScript SharedTypes GatewayProtocol GatewayClient

/-- A value below `depth` objects with the member `result`. -/
def nest : Nat → Json → Json
  | 0, x => x
  | depth + 1, x => .obj [("result", nest depth x)]

section

variable {isUrl : String → Bool} {candidates : List (Option Json)} {json : Json} {artifact : Artifact}

theorem isUrl_of_parseArtifactResult (h : parseArtifactResult isUrl json = some artifact) :
    ∀ url, artifact.downloadUrl = some url → isUrl url = true := by
  unfold parseArtifactResult at h
  split at h
  · split at h
    · exact isUrl_of_parseArtifact h
    · cases h
  · cases h

theorem parse_of_extract (h : extractArtifactResult isUrl candidates = some artifact) :
    ∃ json, parseArtifactResult isUrl json = some artifact := by
  obtain ⟨candidate, -, hcandidate⟩ := List.exists_of_findSome?_eq_some h
  obtain ⟨json, -, hparse⟩ := Option.bind_eq_some_iff.mp hcandidate
  exact ⟨json, hparse⟩

/-- What is extracted is accepted by the schema, as it is. -/
theorem parse_toJson_of_extract (h : extractArtifactResult isUrl candidates = some artifact) :
    parseArtifactResult isUrl (artifactResultJson artifact.toJson) = some artifact := by
  obtain ⟨json, hparse⟩ := parse_of_extract h
  exact parseArtifactResult_toJson (isUrl_of_parseArtifactResult hparse)

theorem extract_of_parse (h : parseArtifactResult isUrl (artifactResultJson artifact.toJson) = some artifact) :
    extractArtifactResult isUrl [some (artifactResultJson artifact.toJson)] = some artifact := by
  have hnormalize : normalizeArtifactPayload isUrl (artifactResultJson artifact.toJson) =
      some (artifactResultJson artifact.toJson) := by
    rw [artifactResultJson] at h ⊢
    rw [normalizeArtifactPayload, h]
    rfl
  simp [extractArtifactResult, hnormalize, h]

/-- An object with nothing but a nested result is no artifact of any other form. -/
theorem normalize_result (isUrl : String → Bool) (x : Json) :
    normalizeArtifactPayload isUrl (.obj [("result", x)]) = normalizeArtifactPayload isUrl x := by
  have hdirect : parseArtifactResult isUrl (.obj [("result", x)]) = none := rfl
  have hembedded : embeddedArtifact [("result", x)] = none := rfl
  have hflat : flatArtifact [("result", x)] = none := rfl
  have hnested : normalizeNestedResult isUrl [("result", x)] = normalizeArtifactPayload isUrl x := rfl
  rw [normalizeArtifactPayload, hdirect, hembedded, hnested, hflat]
  cases normalizeArtifactPayload isUrl x <;> rfl

theorem normalize_nest (isUrl : String → Bool) (depth : Nat) (x : Json) :
    normalizeArtifactPayload isUrl (nest depth x) = normalizeArtifactPayload isUrl x := by
  induction depth with
  | zero => rfl
  | succ depth ih => rw [nest, normalize_result, ih]

end

/-- The extraction is sound, idempotent and stable under nesting. -/
theorem extractArtifactResult_stable (isUrl : String → Bool) :
    (∀ candidates artifact, extractArtifactResult isUrl candidates = some artifact →
      parseArtifactResult isUrl (artifactResultJson artifact.toJson) = some artifact ∧
        extractArtifactResult isUrl [some (artifactResultJson artifact.toJson)] = some artifact) ∧
    ∀ x depth, extractArtifactResult isUrl [some (nest depth x)] = extractArtifactResult isUrl [some x] := by
  refine ⟨fun candidates artifact h => ?_, fun x depth => ?_⟩
  · have hparse := parse_toJson_of_extract h
    exact ⟨hparse, extract_of_parse hparse⟩
  · simp [extractArtifactResult, normalize_nest]

def flatReport : Json :=
  .obj [("kind", .str "pdf"), ("fileName", .str "report.pdf"), ("mimeType", .str "application/pdf"),
    ("downloadUrl", .str "https://files.example/report.pdf"), ("previewText", .str "Report")]

theorem extractArtifactResult_stable_report :
    ∃ artifact, extractArtifactResult (fun _ => true) [some .null, some (nest 2 flatReport)] = some artifact ∧
      extractArtifactResult (fun _ => true) [some (artifactResultJson artifact.toJson)] = some artifact ∧
      extractArtifactResult (fun _ => true) [some (nest 2 flatReport)] =
        extractArtifactResult (fun _ => true) [some flatReport] := by
  obtain ⟨hsound, hnest⟩ := extractArtifactResult_stable fun _ => true
  have hfound : extractArtifactResult (fun _ => true) [some .null, some (nest 2 flatReport)] =
      some ⟨.pdf, "report.pdf", "application/pdf", none, some "https://files.example/report.pdf", "Report", none⟩ := rfl
  exact ⟨_, hfound, (hsound _ _ hfound).2, hnest flatReport 2⟩

end ArtifactExtraction
