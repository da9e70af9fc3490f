import ClawWork.ConfinedCalls
import ClawWork.DotSegments
import Mathlib.Data.Bool.AllAny

/-!
# Storage keys

The keys under which uploads and archived results are stored, for any ids and any
name of a file. The name is trimmed, its reserved characters are replaced and its
white space is collapsed; what these passes leave is a segment of a path, which may
still be a dot segment or have control characters beyond the first 32.
-/

namespace StorageKeys

open JavaScript FileCalls StorageQuota RowOwnership DotSegments

/-- The storage key of `archiveResultArtifact`. -/
def archiveKey (userId taskId uuid fileName : String) : String :=
  s!"users/{userId}/results/{taskId}/{uuid}/{sanitizeFilename fileName}"

/-- The control characters: the first 32, `DEL` and those of the second block. -/
def isControl (c : Char) : Bool := c.toNat < 32 || (127 ≤ c.toNat && c.toNat ≤ 159)

/-- What a storage key should be like. -/
structure WellPlaced (key folder : String) : Prop where
  normal : normalize key.toList = key.toList
  printable : ∀ c ∈ key.toList, isControl c = false
  name : ∃ name : String, key = folder ++ name ∧ (key.toList.splitOn '/').getLast? = some name.toList ∧
    name ≠ "" ∧ sanitizeFilename name = name

/-- An id is no dot segment and has no control character. -/
def PlainId (id : String) : Prop := id ≠ "." ∧ id ≠ ".." ∧ ∀ c ∈ id.toList, isControl c = false

instance (id : String) : Decidable (PlainId id) :=
  decidable_of_iff (id ≠ "." ∧ id ≠ ".." ∧ (id.toList.all fun c => !isControl c) = true) (by simp [PlainId])

/-- The name of a file, without the white space around it, is no dot segment, and it has no control character but
those that are replaced. -/
def PlainName (filename : String) : Prop :=
  trim filename ≠ "." ∧ trim filename ≠ ".." ∧ ∀ c ∈ filename.toList, ¬ (127 ≤ c.toNat ∧ c.toNat ≤ 159)

/-! ## White space at the ends -/

theorem toList_trim (s : String) :
    (trim s).toList = ((s.toList.dropWhile isSpace).reverse.dropWhile isSpace).reverse := by
  simp [trim, trimEnd, trimStart]

theorem head_dropWhile {p : Char → Bool} {cs : List Char} {c : Char} (h : (cs.dropWhile p).head? = some c) :
    p c = false := by
  have hnot := List.head?_dropWhile_not p cs
  rw [h] at hnot
  simpa using hnot

theorem dropWhile_of_head {p : Char → Bool} {cs : List Char} (h : ∀ c, cs.head? = some c → p c = false) :
    cs.dropWhile p = cs := by
  cases cs with
  | nil => rfl
  | cons c cs => rw [List.dropWhile_cons_of_neg (by simp [h c rfl])]

/-- A text that neither begins nor ends with white space. -/
structure Tight (cs : List Char) : Prop where
  first : ∀ c, cs.head? = some c → isSpace c = false
  last : ∀ c, cs.getLast? = some c → isSpace c = false

theorem tight_trim (s : String) : Tight (trim s).toList where
  first c hc := by
    rw [toList_trim, List.head?_reverse] at hc
    obtain ⟨pre, hpre⟩ := List.dropWhile_suffix (l := (s.toList.dropWhile isSpace).reverse) isSpace
    have hhead : (s.toList.dropWhile isSpace).head? = some c := by
      rw [← List.reverse_reverse (s.toList.dropWhile isSpace), ← hpre, List.head?_reverse, List.getLast?_append, hc]
      rfl
    exact head_dropWhile hhead
  last c hc := by
    rw [toList_trim, List.getLast?_reverse] at hc
    exact head_dropWhile hc

theorem Tight.trim_eq {cs : List Char} (h : Tight cs) : trim (.ofList cs) = .ofList cs := by
  apply String.toList_injective
  rw [toList_trim, String.toList_ofList, dropWhile_of_head h.first, dropWhile_of_head, List.reverse_reverse]
  intro c hc
  rw [List.head?_reverse] at hc
  exact h.last c hc

/-! ## The passes over a name -/

/-- The replacement of the reserved characters. -/
def replace (c : Char) : Char := if isReserved c then '-' else c

theorem sanitizeFilename_eq (filename : String) : sanitizeFilename filename =
    orElse (.ofList (collapseSpaces false ((trim filename).toList.map replace))) "file" := rfl

theorem isSpace_replace {c : Char} (h : isSpace c = false) : isSpace (replace c) = false := by
  unfold replace
  split
  · decide
  · exact h

theorem isReserved_replace (c : Char) : isReserved (replace c) = false := by
  unfold replace
  split
  · decide
  · rename_i h
    exact Bool.eq_false_iff.mpr h

theorem replace_eq_self {c : Char} (h : isReserved c = false) : replace c = c := by
  rw [replace, h]
  rfl

theorem Tight.map_replace {cs : List Char} (h : Tight cs) : Tight (cs.map replace) where
  first c hc := by
    rw [List.head?_map] at hc
    obtain ⟨d, hd, rfl⟩ := Option.map_eq_some_iff.mp hc
    exact isSpace_replace (h.first d hd)
  last c hc := by
    rw [List.getLast?_map] at hc
    obtain ⟨d, hd, rfl⟩ := Option.map_eq_some_iff.mp hc
    exact isSpace_replace (h.last d hd)

theorem collapseSpaces_space {c : Char} (h : isSpace c = true) (inside : Bool) (cs : List Char) :
    collapseSpaces inside (c :: cs) =
      if inside then collapseSpaces true cs else ' ' :: collapseSpaces true cs := by
  rw [collapseSpaces, if_pos h]

theorem collapseSpaces_other {c : Char} (h : isSpace c = false) (inside : Bool) (cs : List Char) :
    collapseSpaces inside (c :: cs) = c :: collapseSpaces false cs := by
  rw [collapseSpaces, h]
  rfl

theorem collapseSpaces_collapseSpaces (inside : Bool) (cs : List Char) :
    collapseSpaces inside (collapseSpaces inside cs) = collapseSpaces inside cs := by
  induction cs generalizing inside with
  | nil => rfl
  | cons c cs ih =>
    cases hc : isSpace c with
    | true =>
      rw [collapseSpaces_space hc]
      cases inside with
      | true => exact ih true
      | false =>
        simp only [Bool.false_eq_true, if_false]
        rw [collapseSpaces_space (by decide)]
        simp only [Bool.false_eq_true, if_false, ih true]
    | false => rw [collapseSpaces_other hc, collapseSpaces_other hc, ih false]

/-- The characters of a collapsed text are those of the text, and the blank. -/
theorem mem_collapseSpaces {inside : Bool} {cs : List Char} {c : Char} (h : c ∈ collapseSpaces inside cs) :
    c = ' ' ∨ c ∈ cs := by
  induction cs generalizing inside with
  | nil => cases h
  | cons d cs ih =>
    cases hd : isSpace d with
    | true =>
      rw [collapseSpaces_space hd] at h
      split at h
      · exact (ih h).imp_right (List.mem_cons_of_mem d)
      · rcases List.mem_cons.mp h with hblank | hmem
        · exact .inl hblank
        · exact (ih hmem).imp_right (List.mem_cons_of_mem d)
    | false =>
      rw [collapseSpaces_other hd] at h
      rcases List.mem_cons.mp h with rfl | hmem
      · exact .inr (List.mem_cons_self ..)
      · exact (ih hmem).imp_right (List.mem_cons_of_mem d)

theorem mem_collapseSpaces_of_mem {cs : List Char} {c : Char} (hc : isSpace c = false) (h : c ∈ cs)
    (inside : Bool) : c ∈ collapseSpaces inside cs := by
  induction cs generalizing inside with
  | nil => cases h
  | cons d cs ih =>
    cases hd : isSpace d with
    | true =>
      have hmem : c ∈ cs := by
        rcases List.mem_cons.mp h with rfl | hmem
        · rw [hd] at hc
          cases hc
        · exact hmem
      rw [collapseSpaces_space hd]
      split
      · exact ih hmem true
      · exact List.mem_cons_of_mem _ (ih hmem true)
    | false =>
      rw [collapseSpaces_other hd]
      rcases List.mem_cons.mp h with rfl | hmem
      · exact List.mem_cons_self ..
      · exact List.mem_cons_of_mem _ (ih hmem false)

theorem getLast?_collapseSpaces {cs : List Char} {c : Char} (h : cs.getLast? = some c) (hc : isSpace c = false)
    (inside : Bool) : (collapseSpaces inside cs).getLast? = some c := by
  induction cs generalizing inside with
  | nil => cases h
  | cons d cs ih =>
    cases cs with
    | nil =>
      obtain rfl : d = c := Option.some.inj h
      rw [collapseSpaces_other hc]
      rfl
    | cons e cs =>
      rw [List.getLast?_cons_cons] at h
      cases hd : isSpace d with
      | true =>
        rw [collapseSpaces_space hd]
        split
        · exact ih h true
        · rw [List.getLast?_cons, ih h true]
          rfl
      | false =>
        rw [collapseSpaces_other hd, List.getLast?_cons, ih h false]
        rfl

theorem Tight.collapseSpaces {cs : List Char} (h : Tight cs) : Tight (collapseSpaces false cs) where
  first c hc := by
    cases cs with
    | nil => cases hc
    | cons d cs =>
      have hd := h.first d rfl
      rw [collapseSpaces_other hd] at hc
      cases hc
      exact hd
  last c hc := by
    cases hlast : cs.getLast? with
    | none =>
      rw [List.getLast?_eq_none_iff.mp hlast] at hc
      cases hc
    | some d =>
      have hd := h.last d hlast
      rw [getLast?_collapseSpaces hlast hd false] at hc
      cases hc
      exact hd

/-- A collapsed text without blanks is the text. -/
theorem eq_of_collapseSpaces {cs : List Char} (h : ' ' ∉ collapseSpaces false cs) :
    collapseSpaces false cs = cs := by
  induction cs with
  | nil => rfl
  | cons c cs ih =>
    cases hc : isSpace c with
    | true =>
      rw [collapseSpaces_space hc] at h
      exact absurd (List.mem_cons_self ..) h
    | false =>
      rw [collapseSpaces_other hc] at h ⊢
      rw [ih fun hmem => h (List.mem_cons_of_mem _ hmem)]

/-! ## Sanitized names -/

/-- The name that the passes leave; an empty one is replaced. -/
def cleaned (filename : String) : List Char := collapseSpaces false ((trim filename).toList.map replace)

theorem sanitizeFilename_of_empty {filename : String} (h : cleaned filename = []) :
    sanitizeFilename filename = "file" := by
  rw [sanitizeFilename_eq, ← cleaned, h]
  rfl

theorem sanitizeFilename_of_ne {filename : String} (h : cleaned filename ≠ []) :
    sanitizeFilename filename = .ofList (cleaned filename) := by
  rw [sanitizeFilename_eq, orElse, if_neg]
  · rfl
  · intro hempty
    apply h
    have hlist := congrArg String.toList hempty
    rwa [String.toList_ofList] at hlist

theorem isReserved_of_mem_cleaned {filename : String} {c : Char} (h : c ∈ cleaned filename) :
    isReserved c = false := by
  rcases mem_collapseSpaces h with rfl | hmem
  · decide
  · obtain ⟨d, -, rfl⟩ := List.mem_map.mp hmem
    exact isReserved_replace d

theorem sanitizeFilename_ne_empty (filename : String) : sanitizeFilename filename ≠ "" := by
  by_cases h : cleaned filename = []
  · rw [sanitizeFilename_of_empty h]
    decide
  · rw [sanitizeFilename_of_ne h]
    intro hempty
    have hlist := congrArg String.toList hempty
    rw [String.toList_ofList] at hlist
    exact h hlist

/-- A sanitized name is a fixed point. -/
theorem sanitizeFilename_sanitizeFilename (filename : String) :
    sanitizeFilename (sanitizeFilename filename) = sanitizeFilename filename := by
  by_cases h : cleaned filename = []
  · rw [sanitizeFilename_of_empty h]
    decide
  · have htight : Tight (cleaned filename) := (tight_trim filename).map_replace.collapseSpaces
    have hsame : cleaned (.ofList (cleaned filename)) = cleaned filename := by
      have hmap : (cleaned filename).map replace = cleaned filename :=
        (List.map_congr_left fun c hc => replace_eq_self (isReserved_of_mem_cleaned hc)).trans (List.map_id _)
      rw [cleaned, htight.trim_eq, String.toList_ofList, hmap]
      exact collapseSpaces_collapseSpaces false _
    rw [sanitizeFilename_of_ne h, sanitizeFilename_of_ne (by rwa [hsame]), hsame]

/-- A name that no pass changes is what is left of the names that are trimmed to it. -/
theorem sanitizeFilename_eq_iff (name : String) (hname : sanitizeFilename name = name) (hfile : name ≠ "file")
    (hblank : ' ' ∉ name.toList) (hdash : '-' ∉ name.toList) (filename : String) :
    sanitizeFilename filename = name ↔ trim filename = name := by
  constructor
  · intro h
    have hne : cleaned filename ≠ [] := fun hempty => hfile (h ▸ sanitizeFilename_of_empty hempty)
    have hcleaned : cleaned filename = name.toList := by
      rw [← h, sanitizeFilename_of_ne hne, String.toList_ofList]
    have hsame : cleaned filename = (trim filename).toList.map replace :=
      eq_of_collapseSpaces (by rwa [← cleaned, hcleaned])
    have hmap : (trim filename).toList.map replace = name.toList := by rw [← hsame, hcleaned]
    have hkept : ∀ c ∈ (trim filename).toList, replace c = c := by
      intro c hc
      apply replace_eq_self
      by_contra hreserved
      have hmem : replace c ∈ name.toList := hmap ▸ List.mem_map_of_mem hc
      rw [replace, if_pos (by simpa using hreserved)] at hmem
      exact hdash hmem
    apply String.toList_injective
    rw [← hmap]
    exact ((List.map_congr_left hkept).trans (List.map_id _)).symm
  · intro h
    rw [← hname, ← h, sanitizeFilename_eq, sanitizeFilename_eq, trim_trim]

/-! ## Control characters -/

theorem mem_dropWhile_of_mem {p : Char → Bool} {cs : List Char} {c : Char} (h : c ∈ cs) (hc : p c = false) :
    c ∈ cs.dropWhile p := by
  rw [← List.takeWhile_append_dropWhile (p := p) (l := cs)] at h
  rcases List.mem_append.mp h with htake | hdrop
  · rw [List.mem_takeWhile_imp htake] at hc
    cases hc
  · exact hdrop

theorem mem_trim_of_mem {s : String} {c : Char} (h : c ∈ s.toList) (hc : isSpace c = false) :
    c ∈ (trim s).toList := by
  rw [toList_trim, List.mem_reverse]
  exact mem_dropWhile_of_mem (List.mem_reverse.mpr (mem_dropWhile_of_mem h hc)) hc

theorem mem_of_mem_trim {s : String} {c : Char} (h : c ∈ (trim s).toList) : c ∈ s.toList := by
  rw [toList_trim, List.mem_reverse] at h
  exact (List.dropWhile_sublist _).subset (List.mem_reverse.mp ((List.dropWhile_sublist _).subset h))

theorem isControl_eq_false_iff {c : Char} (h : isReserved c = false) :
    isControl c = false ↔ ¬ (127 ≤ c.toNat ∧ c.toNat ≤ 159) := by
  have hlow : ¬ c.toNat < 32 := by
    intro hlt
    rw [isReserved, decide_eq_true hlt] at h
    cases h
  simp [isControl, hlow]

theorem isReserved_of_upper {c : Char} (h : 127 ≤ c.toNat ∧ c.toNat ≤ 159) : isReserved c = false := by
  have hbelow : ∀ d ∈ "<>:\"/\\|?*".toList, d.toNat < 127 := List.all_iff_forall_prop.mp (by decide)
  have hlow : ¬ c.toNat < 32 := by omega
  rw [isReserved, decide_eq_false hlow, Bool.false_or, Bool.eq_false_iff]
  intro hmem
  have hlt := hbelow c (List.contains_iff_mem.mp hmem)
  omega

theorem isSpace_of_upper {c : Char} (h : 127 ≤ c.toNat ∧ c.toNat ≤ 159) : isSpace c = false := by
  simp only [isSpace, Bool.or_eq_false_iff, Bool.and_eq_false_iff, decide_eq_false_iff_not]
  omega

theorem printable_sanitizeFilename_iff (filename : String) :
    (∀ c ∈ (sanitizeFilename filename).toList, isControl c = false) ↔
      ∀ c ∈ filename.toList, ¬ (127 ≤ c.toNat ∧ c.toNat ≤ 159) := by
  constructor
  · intro h c hc hupper
    have hreserved := isReserved_of_upper hupper
    have hspace := isSpace_of_upper hupper
    have hmem : c ∈ cleaned filename := by
      apply mem_collapseSpaces_of_mem hspace
      rw [← replace_eq_self hreserved]
      exact List.mem_map_of_mem (mem_trim_of_mem hc hspace)
    rw [sanitizeFilename_of_ne (List.ne_nil_of_mem hmem), String.toList_ofList] at h
    exact (isControl_eq_false_iff hreserved).mp (h c hmem) hupper
  · intro h c hc
    by_cases hempty : cleaned filename = []
    · rw [sanitizeFilename_of_empty hempty] at hc
      have hfile : ∀ d ∈ "file".toList, isControl d = false := List.all_iff_forall_prop.mp (by decide)
      exact hfile c hc
    · rw [sanitizeFilename_of_ne hempty, String.toList_ofList] at hc
      rw [isControl_eq_false_iff (isReserved_of_mem_cleaned hc)]
      rcases mem_collapseSpaces hc with rfl | hmem
      · decide
      · obtain ⟨d, hd, rfl⟩ := List.mem_map.mp hmem
        unfold replace
        split
        · decide
        · exact h d (mem_of_mem_trim hd)

/-! ## Keys -/

theorem isDot_toList_iff (id : String) : isDot id.toList = false ↔ id ≠ "." ∧ id ≠ ".." := by
  have hone : id.toList = ['.'] ↔ id = "." := by rw [← String.toList_inj]; rfl
  have htwo : id.toList = ['.', '.'] ↔ id = ".." := by rw [← String.toList_inj]; rfl
  simp only [isDot, Bool.or_eq_false_iff, decide_eq_false_iff_not, hone, htwo, ne_eq]

theorem plainId_iff (id : String) :
    PlainId id ↔ isDot id.toList = false ∧ ∀ c ∈ id.toList, isControl c = false := by
  rw [isDot_toList_iff, PlainId, and_assoc]

theorem plainName_iff (filename : String) : PlainName filename ↔ PlainId (sanitizeFilename filename) := by
  have hone := sanitizeFilename_eq_iff "." (by decide) (by decide) (by decide) (by decide) filename
  have htwo := sanitizeFilename_eq_iff ".." (by decide) (by decide) (by decide) (by decide) filename
  rw [PlainName, PlainId, printable_sanitizeFilename_iff, ne_eq, ne_eq, ne_eq, ne_eq, hone, htwo]

/-- A key that is put together from ids and the name of a file. -/
theorem wellPlaced_iff {key folder : String} (ids : List String) (filename : String)
    (hids : ∀ id ∈ ids, NoSlash id) (hfolder : key = folder ++ sanitizeFilename filename)
    (hkey : key.toList = ['/'].intercalate ((ids ++ [sanitizeFilename filename]).map String.toList)) :
    WellPlaced key folder ↔ (∀ id ∈ ids, PlainId id) ∧ PlainName filename := by
  have hslash : ∀ segment ∈ (ids ++ [sanitizeFilename filename]).map String.toList, '/' ∉ segment := by
    intro segment hmem
    obtain ⟨text, htext, rfl⟩ := List.mem_map.mp hmem
    rcases List.mem_append.mp htext with hid | hlast
    · exact hids text hid
    · rw [List.mem_singleton.mp hlast]
      exact ConfinedCalls.noSlash_sanitizeFilename filename
  have hne : (ids ++ [sanitizeFilename filename]).map String.toList ≠ [] := by simp
  have hplain : (∀ id ∈ ids, PlainId id) ∧ PlainName filename ↔
      normalize key.toList = key.toList ∧ ∀ c ∈ key.toList, isControl c = false := by
    rw [hkey, normalize_eq_self_iff hne hslash, forall_mem_intercalate (by decide), ← forall₂_and, plainName_iff]
    simp only [List.forall_mem_map, ← plainId_iff, List.forall_mem_append, List.forall_mem_singleton]
  rw [hplain]
  constructor
  · intro h
    exact ⟨h.normal, h.printable⟩
  · rintro ⟨hnormal, hprintable⟩
    refine ⟨hnormal, hprintable, sanitizeFilename filename, hfolder, ?_, sanitizeFilename_ne_empty filename,
      sanitizeFilename_sanitizeFilename filename⟩
    rw [hkey, List.splitOn_intercalate '/' hslash hne, List.map_append, List.map_singleton, List.getLast?_concat]

theorem wellPlaced_upload_iff {userId fileId : String} (huser : NoSlash userId) (hfile : NoSlash fileId)
    (input : CreateUpload) (now : Nat) :
    WellPlaced (newFile userId fileId input now).storageKey s!"users/{userId}/{fileId}/" ↔
      PlainId userId ∧ PlainId fileId ∧ PlainName input.filename := by
  have husers : PlainId "users" := by decide
  refine (wellPlaced_iff ["users", userId, fileId] input.filename ?_ rfl ?_).trans ?_
  · simp [huser, hfile, show NoSlash "users" by unfold NoSlash; decide]
  · change ("users/" ++ userId ++ "/" ++ fileId ++ "/" ++ sanitizeFilename input.filename).toList = _
    simp
  · simp [husers, and_assoc]

theorem wellPlaced_archive_iff {userId taskId uuid : String} (huser : NoSlash userId) (htask : NoSlash taskId)
    (huuid : NoSlash uuid) (fileName : String) :
    WellPlaced (archiveKey userId taskId uuid fileName) s!"users/{userId}/results/{taskId}/{uuid}/" ↔
      PlainId userId ∧ PlainId taskId ∧ PlainId uuid ∧ PlainName fileName := by
  have husers : PlainId "users" := by decide
  have hresults : PlainId "results" := by decide
  refine (wellPlaced_iff ["users", userId, "results", taskId, uuid] fileName ?_ rfl ?_).trans ?_
  · simp [huser, htask, huuid, show NoSlash "users" by unfold NoSlash; decide,
      show NoSlash "results" by unfold NoSlash; decide]
  · change
      ("users/" ++ userId ++ "/results/" ++ taskId ++ "/" ++ uuid ++ "/" ++ sanitizeFilename fileName).toList =
      _
    simp
  · simp [husers, hresults, and_assoc]

/-- The keys of uploads and of archived results are well placed exactly for plain ids and plain names; keys of
uploads with different ids differ. -/
theorem storage_keys_iff (userId fileId taskId uuid : String) (hslash : ∀ id ∈ [userId, fileId, taskId, uuid],
    NoSlash id) (input : CreateUpload) (now : Nat) (fileName : String) :
    (WellPlaced (newFile userId fileId input now).storageKey s!"users/{userId}/{fileId}/" ↔
      PlainId userId ∧ PlainId fileId ∧ PlainName input.filename) ∧
    (WellPlaced (archiveKey userId taskId uuid fileName) s!"users/{userId}/results/{taskId}/{uuid}/" ↔
      PlainId userId ∧ PlainId taskId ∧ PlainId uuid ∧ PlainName fileName) ∧
    ∀ otherUser otherId : String, NoSlash otherId → ∀ (otherInput : CreateUpload) (later : Nat), fileId ≠ otherId →
      (newFile userId fileId input now).storageKey ≠ (newFile otherUser otherId otherInput later).storageKey := by
  simp only [List.forall_mem_cons] at hslash
  obtain ⟨huser, hfile, htask, huuid, -⟩ := hslash
  refine ⟨wellPlaced_upload_iff huser hfile input now, wellPlaced_archive_iff huser htask huuid fileName, ?_⟩
  intro otherUser otherId hother otherInput later hne hkey
  exact hne (RowStatements.id_of_storageKey hfile hother (ConfinedCalls.noSlash_sanitizeFilename _)
    (ConfinedCalls.noSlash_sanitizeFilename _) hkey)

def demoUser : String := "5f0c8ed5-3b0b-4c67-9d5e-2a4d6a7c1b11"

def demoFile : String := "0b9d3f62-6c43-4b1f-8f0e-1d2c3b4a5e6f"

def demoTask : String := "9a1b2c3d-4e5f-4a6b-8c7d-0e1f2a3b4c5d"

def demoUuid : String := "7c6b5a49-3827-4160-9f8e-7d6c5b4a3928"

theorem storage_keys_iff_report :
    WellPlaced (newFile demoUser demoFile ⟨"weekly/report\t.txt ", "text/plain", 1⟩ 0).storageKey
      s!"users/{demoUser}/{demoFile}/" ∧
    WellPlaced
    (archiveKey demoUser demoTask demoUuid " ") s!"users/{demoUser}/results/{demoTask}/{demoUuid}/" := by
  obtain ⟨hupload, harchive, -⟩ := storage_keys_iff demoUser demoFile demoTask demoUuid
    (by unfold NoSlash; decide +kernel) ⟨"weekly/report\t.txt ", "text/plain", 1⟩ 0 " "
  have hreport : PlainName "weekly/report\t.txt " :=
    ⟨by decide, by decide, List.all_iff_forall_prop.mp (by decide)⟩
  have hblank : PlainName " " := ⟨by decide, by decide, List.all_iff_forall_prop.mp (by decide)⟩
  exact ⟨hupload.mpr ⟨by decide +kernel, by decide +kernel, hreport⟩,
    harchive.mpr ⟨by decide +kernel, by decide +kernel, by decide +kernel, hblank⟩⟩

/-- The key of an upload named `..` is the folder above its own, once it is normalised. -/
theorem upload_dots : NoSlash demoUser ∧ NoSlash demoFile ∧
    normalize (newFile demoUser demoFile ⟨"..", "text/plain", 1⟩ 0).storageKey.toList =
    s!"users/{demoUser}/".toList ∧
    ¬ WellPlaced (newFile demoUser demoFile ⟨"..", "text/plain",
    1⟩ 0).storageKey s!"users/{demoUser}/{demoFile}/" := by
  have hnormal : normalize (newFile demoUser demoFile ⟨"..", "text/plain", 1⟩ 0).storageKey.toList =
      s!"users/{demoUser}/".toList := by decide +kernel
  refine ⟨by unfold NoSlash; decide +kernel, by unfold NoSlash; decide +kernel, hnormal, fun h => ?_⟩
  have hsame := hnormal.symm.trans h.normal
  revert hsame
  decide +kernel

end StorageKeys
