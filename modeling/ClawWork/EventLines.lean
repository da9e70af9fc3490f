import ClawWork.StreamCodec

/-!
# The lines of an event stream

The loops take events off a buffer of text. By lines, a blank line ends a block, and a block is
an event when its first data line is one. Text that arrives in pieces gives the same blocks as
the text that is appended to the buffer, in one piece.
-/

namespace EventLines

open AdapterRelay AdapterStream

abbrev Line := List Char

def isData (line : Line) : Bool := "data: ".toList.isPrefixOf line

def isId (line : Line) : Bool := "id: ".toList.isPrefixOf line

variable {α : Type} {decode : Line → Option α} {xs ys : List Char}

/-- The event of a block with the text of its id. -/
def readBlock (decode : Line → Option α) (block : List Line) : Option (α × Option Line) :=
  (block.find? isData).bind fun line => (decode (line.drop 6)).map fun a => (a, (block.find? isId).map (List.drop 4))

/-- The blocks of lines that a blank line has ended. -/
def complete (lines : List Line) : List (List Line) := (lines.splitOn []).dropLast

/-! ## Pieces of a buffer -/

theorem splitEvents_append (xs ys : List Char) :
    splitEvents (xs ++ ys) = ((splitEvents xs).1 ++ (splitEvents ((splitEvents xs).2 ++ ys)).1,
      (splitEvents ((splitEvents xs).2 ++ ys)).2) := by
  fun_induction splitEvents xs with
  | case1 rest ih =>
    simp only [List.cons_append, splitEvents, ih]
  | case2 c rest hopen raw raws left hsplit ih =>
    rw [hsplit] at ih
    have hcons : ¬ ['\n', '\n'] <+: c :: (rest ++ ys) := by
      intro hp
      rw [List.cons_prefix_cons] at hp
      cases rest with
      | nil => cases hsplit
      | cons d rest =>
        rw [List.cons_append, List.cons_prefix_cons] at hp
        exact hopen rest hp.1.symm (by rw [← hp.2.1])
    rw [List.cons_append, splitEvents_cons hcons, ih]
    rfl
  | case3 c rest hopen left hsplit ih =>
    rw [StreamCodec.eq_of_splitEvents_nil hsplit]
    rfl
  | case4 => rfl

/-- A text without a blank line, or the text before its first one. -/
theorem noBlank_or_body (text : List Char) :
    NoBlank text ∨ ∃ body rest, text = body ++ '\n' :: '\n' :: rest ∧ NoBlank (body ++ ['\n']) := by
  induction text with
  | nil => exact .inl (noBlank_of_notMem (by simp))
  | cons c text ih =>
    by_cases hopen : ['\n', '\n'] <+: c :: text
    · obtain ⟨rest, hrest⟩ := hopen
      refine .inr ⟨[], rest, hrest.symm, fun hinfix => ?_⟩
      simpa using hinfix.length_le
    · rcases ih with hnone | ⟨body, rest, rfl, hbody⟩
      · left
        intro hinfix
        rcases List.infix_cons_iff.mp hinfix with hp | hinner
        · exact hopen hp
        · exact hnone hinner
      · right
        refine ⟨c :: body, rest, rfl, fun hinfix => ?_⟩
        rcases List.infix_cons_iff.mp hinfix with hp | hinner
        · refine hopen ?_
          rw [List.cons_prefix_cons] at hp ⊢
          refine ⟨hp.1, hp.2.trans ?_⟩
          exact ⟨'\n' :: rest, by simp⟩
        · exact hbody hinner

/-! ## Blocks of lines -/

theorem splitOn_cons (c d : Char) (xs : List Char) :
    (d :: xs).splitOn c = if d = c then [] :: xs.splitOn c else (xs.splitOn c).modifyHead (List.cons d) := by
  rw [List.splitOn_cons_eq_if_modifyHead]
  simp

theorem splitOn_eq_cons (c : Char) (xs : List Char) : ∃ line lines, xs.splitOn c = line :: lines :=
  List.exists_cons_of_ne_nil (List.splitOn_ne_nil c xs)

/-- Only the first line of a text without blank lines may be empty. -/
theorem ne_nil_of_mem_tail {body : List Char} (h : NoBlank (body ++ ['\n'])) :
    ∀ line ∈ (body.splitOn '\n').tail, line ≠ [] := by
  induction body with
  | nil => simp
  | cons c body ih =>
    obtain ⟨line, lines, hlines⟩ := splitOn_eq_cons '\n' body
    have ih := ih h.tail
    rw [hlines] at ih
    rw [splitOn_cons, hlines]
    split
    · rename_i hc
      rw [List.tail_cons]
      intro other hother
      rcases List.mem_cons.mp hother with rfl | hother
      · rintro rfl
        refine h ?_
        cases body with
        | nil => exact ⟨[], [], by rw [hc]; rfl⟩
        | cons d body =>
          rw [splitOn_cons] at hlines
          split at hlines
          · rename_i hd
            exact ⟨[], body ++ ['\n'], by rw [hc, hd]; rfl⟩
          · obtain ⟨line', lines', hlines'⟩ := splitOn_eq_cons '\n' body
            rw [hlines'] at hlines
            cases hlines
      · exact ih other hother
    · exact ih

theorem readBlock_nil : readBlock decode [] = none := rfl

theorem readBlock_nil_cons (block : List Line) : readBlock decode ([] :: block) = readBlock decode block := by
  simp [readBlock, isData, isId]

/-- A block that may begin with a blank line is split into at most one more, which is empty. -/
theorem splitOn_block {block : List Line} (h : ∀ line ∈ block.tail, line ≠ []) :
    block.splitOn [] = [block] ∨ ∃ lines, block = [] :: lines ∧ block.splitOn [] = [[], lines] := by
  have hsolid : ∀ lines : List Line, (∀ line ∈ lines, line ≠ []) → lines.splitOn [] = [lines] := fun lines hlines =>
    List.splitOn_eq_singleton fun hmem => hlines [] hmem rfl
  cases block with
  | nil => exact .inl rfl
  | cons line block =>
    by_cases hline : line = []
    · subst hline
      refine .inr ⟨block, rfl, ?_⟩
      rw [List.splitOn_cons_eq_if_modifyHead, if_pos (by rfl), hsolid block h]
    · exact .inl (hsolid (line :: block) (by simpa [hline] using h))

theorem filterMap_splitOn_block {block : List Line} (h : ∀ line ∈ block.tail, line ≠ []) :
    (block.splitOn []).filterMap (readBlock decode) = (readBlock decode block).toList := by
  rcases splitOn_block h with hone | ⟨lines, rfl, htwo⟩
  · rw [hone]
    cases hread : readBlock decode block <;> simp [hread]
  · rw [htwo, readBlock_nil_cons]
    cases hread : readBlock decode lines <;> simp [List.filterMap_cons, hread, readBlock_nil]

theorem filterMap_complete_append {block rest : List Line} (h : ∀ line ∈ block.tail, line ≠ []) :
    (complete (block ++ [] :: rest)).filterMap (readBlock decode) =
      (readBlock decode block).toList ++ (complete rest).filterMap (readBlock decode) := by
  rw [complete, List.splitOn_append_cons_self, List.dropLast_append_of_ne_nil (List.splitOn_ne_nil _ _),
    List.filterMap_append, filterMap_splitOn_block h]
  rfl

theorem filterMap_complete_of_block {block : List Line} (h : ∀ line ∈ block.tail, line ≠ []) :
    (complete block).filterMap (readBlock decode) = [] := by
  rcases splitOn_block h with hone | ⟨lines, -, htwo⟩
  · rw [complete, hone]
    rfl
  · rw [complete, htwo]
    rfl

/-- Without a blank line no block is complete. -/
theorem filterMap_complete_of_noBlank {text : List Char} (h : NoBlank text) :
    (complete (text.splitOn '\n').dropLast).filterMap (readBlock decode) = [] := by
  by_cases hmem : '\n' ∈ text
  · obtain ⟨as, bs, hrev, hnot⟩ := List.eq_append_cons_of_mem (List.mem_reverse.mpr hmem)
    have htext : text = bs.reverse ++ '\n' :: as.reverse := by
      rw [← List.reverse_reverse text, hrev]
      simp
    have hbefore : NoBlank (bs.reverse ++ ['\n']) := h.of_prefix ⟨as.reverse, by rw [htext]; simp⟩
    have hlast : as.reverse.splitOn '\n' = [as.reverse] := List.splitOn_eq_singleton (by simpa using hnot)
    rw [htext, List.splitOn_append_cons_self, hlast, List.dropLast_concat]
    exact filterMap_complete_of_block (ne_nil_of_mem_tail hbefore)
  · rw [List.splitOn_eq_singleton hmem]
    rfl

/-- The events of the complete texts are those of the complete blocks of lines. -/
theorem events_splitEvents (decode : Line → Option α) (text : List Char) :
    (splitEvents text).1.filterMap (fun raw => readBlock decode (raw.splitOn '\n')) =
      (complete (text.splitOn '\n').dropLast).filterMap (readBlock decode) := by
  induction hlength : text.length using Nat.strongRecOn generalizing text with
  | _ n ih =>
    rcases noBlank_or_body text with hnone | ⟨body, rest, rfl, hbody⟩
    · rw [splitEvents_noBlank hnone, filterMap_complete_of_noBlank hnone]
      rfl
    · have hlines : ((body ++ '\n' :: '\n' :: rest).splitOn '\n').dropLast =
          body.splitOn '\n' ++ [] :: (rest.splitOn '\n').dropLast := by
        rw [List.splitOn_append_cons_self, splitOn_cons, if_pos rfl,
          List.dropLast_append_of_ne_nil (List.cons_ne_nil _ _),
          List.dropLast_cons_of_ne_nil (List.splitOn_ne_nil _ _)]
      rw [splitEvents_body hbody, hlines, filterMap_complete_append (ne_nil_of_mem_tail hbody)]
      have hrest := ih rest.length (by rw [← hlength]; simp; omega) rest rfl
      cases hread : readBlock decode (body.splitOn '\n') <;> simp [hread, hrest]

/-! ## Line ends that are cut in two -/

/-- The line without the first half of its line end, which is left when the end was cut in two. -/
def chop (line : Line) : Line := if line.getLast? = some '\r' then line.dropLast else line

/-- What the loops append to their buffers. -/
def received (pieces : List (List Char)) : List Char := pieces.flatMap replaceCrlf

theorem replaceCrlf_cons {c : Char} {xs : List Char} (h : ¬ (c = '\r' ∧ ['\n'] <+: xs)) :
    replaceCrlf (c :: xs) = c :: replaceCrlf xs := by
  rw [replaceCrlf]
  rintro rest rfl rfl
  exact h ⟨rfl, ⟨rest, rfl⟩⟩

/-- No line end is cut off from a text all of whose lines end in LF or in CRLF. -/
theorem replaceCrlf_replaceCrlf_append {xs ys : List Char} (h : '\r' ∉ replaceCrlf (xs ++ ys)) :
    replaceCrlf (replaceCrlf xs ++ ys) = replaceCrlf (xs ++ ys) := by
  fun_induction replaceCrlf xs with
  | case1 rest ih =>
    rw [List.cons_append, List.cons_append, replaceCrlf, List.mem_cons, not_or] at h
    rw [List.cons_append, List.cons_append, List.cons_append, replaceCrlf, replaceCrlf_cons (by simp), ih h.2]
  | case2 c rest hopen ih =>
    rw [List.cons_append, List.cons_append]
    rw [List.cons_append] at h
    by_cases hc : c = '\r' ∧ ['\n'] <+: rest ++ ys
    · obtain ⟨rfl, hp⟩ := hc
      cases rest with
      | nil => rfl
      | cons d rest =>
        rw [List.cons_append, List.cons_prefix_cons] at hp
        exact (hopen rest rfl (by rw [← hp.1])).elim
    · rw [replaceCrlf_cons hc, List.mem_cons, not_or] at h
      rw [replaceCrlf_cons hc, replaceCrlf_cons, ih h.2]
      exact fun hr => h.1 hr.1.symm
  | case3 => rfl

theorem replaceCrlf_append_replaceCrlf_append {xs ys zs : List Char} (h : '\r' ∉ replaceCrlf (xs ++ (ys ++ zs))) :
    replaceCrlf (xs ++ (replaceCrlf ys ++ zs)) = replaceCrlf (xs ++ (ys ++ zs)) := by
  fun_induction replaceCrlf xs with
  | case1 rest ih =>
    rw [List.cons_append, List.cons_append, replaceCrlf, List.mem_cons, not_or] at h
    rw [List.cons_append, List.cons_append, List.cons_append, List.cons_append, replaceCrlf, replaceCrlf, ih h.2]
  | case2 c rest hopen ih =>
    rw [List.cons_append] at h
    by_cases hc : c = '\r' ∧ ['\n'] <+: rest ++ (ys ++ zs)
    · obtain ⟨rfl, hp⟩ := hc
      cases rest with
      | cons d rest =>
        rw [List.cons_append, List.cons_prefix_cons] at hp
        exact (hopen rest rfl (by rw [← hp.1])).elim
      | nil =>
        cases ys with
        | nil => rfl
        | cons d ys =>
          rw [List.nil_append, List.cons_append, List.cons_prefix_cons] at hp
          rw [List.nil_append, List.cons_append, ← hp.1, replaceCrlf, List.mem_cons, not_or] at h
          rw [← hp.1, replaceCrlf_cons (by simp)]
          simp only [List.cons_append, List.nil_append, replaceCrlf]
          rw [replaceCrlf_replaceCrlf_append h.2]
    · rw [replaceCrlf_cons hc, List.mem_cons, not_or] at h
      rw [List.cons_append, List.cons_append, replaceCrlf_cons hc, replaceCrlf_cons, ih h.2]
      exact fun hr => h.1 hr.1.symm
  | case3 => exact replaceCrlf_replaceCrlf_append h

/-- The line ends that were cut in two are still there. -/
theorem replaceCrlf_received {pieces : List (List Char)} (h : '\r' ∉ replaceCrlf pieces.flatten) :
    replaceCrlf (received pieces) = replaceCrlf pieces.flatten := by
  suffices ∀ before, '\r' ∉ replaceCrlf (before ++ pieces.flatten) →
      replaceCrlf (before ++ received pieces) = replaceCrlf (before ++ pieces.flatten) from this [] h
  clear h
  induction pieces with
  | nil => exact fun before _ => rfl
  | cons piece pieces ih =>
    intro before h
    rw [List.flatten_cons] at h ⊢
    have hsame := replaceCrlf_append_replaceCrlf_append h
    rw [← hsame, ← List.append_assoc] at h
    rw [← hsame, received, List.flatMap_cons, ← List.append_assoc, ← List.append_assoc]
    exact ih _ h

theorem chop_cons {c : Char} {line : Line} (h : c ≠ '\r') : chop (c :: line) = c :: chop line := by
  cases line with
  | nil => simp [chop, h]
  | cons d line =>
    unfold chop
    rw [List.getLast?_cons_cons]
    split <;> rfl

/-- By lines, the replacement drops what was left of the line ends. -/
theorem splitOn_replaceCrlf {text : List Char} (h : '\r' ∉ replaceCrlf text) :
    (replaceCrlf text).splitOn '\n' = (text.splitOn '\n').map chop := by
  fun_induction replaceCrlf text with
  | case1 rest ih =>
    rw [List.mem_cons, not_or] at h
    rw [splitOn_cons, if_pos rfl, ih h.2, splitOn_cons, if_neg (by decide), splitOn_cons, if_pos rfl]
    rfl
  | case2 c rest hopen ih =>
    rw [List.mem_cons, not_or] at h
    rw [splitOn_cons, ih h.2, splitOn_cons]
    split
    · rfl
    · obtain ⟨line, lines, hlines⟩ := splitOn_eq_cons '\n' rest
      simp only [hlines, List.map_cons, List.modifyHead_cons, chop_cons (Ne.symm h.1)]
  | case3 => rfl

end EventLines
