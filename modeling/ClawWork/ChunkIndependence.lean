import ClawWork.EventLines

/-!
# Chunks of an event stream with CRLF

The line ends are replaced in each chunk by itself, so a CRLF that is cut in two stays in the
buffer. A line end that was cut joins the blocks on both sides when it ends a blank line, and
becomes part of the id when it ends an id line. The events are the same as without cuts when
neither makes a difference.
-/

namespace ChunkIndependence

open AdapterRelay AdapterStream EventLines UpTo

variable {α : Type} (decode : Line → Option α) (terminal : α → Bool)

/-- The blocks of the text that are one block in the buffer. -/
def blocksIn (block : List Line) : List (List Line) := (block.splitOn ['\r']).map (List.map chop)

/-- The events of these blocks. -/
def eventsIn (block : List Line) : List (α × Option Line) := (blocksIn block).filterMap (readBlock decode)

/-- The events of blocks, up to the first terminal one. -/
def dispatch (blocks : List (List Line)) : List (α × Option Line) :=
  upTo (fun item => terminal item.1) (blocks.filterMap (readBlock decode))

/-- A block of the buffer has at most one event, which has its first data line and its first id line. -/
def Intact (block : List Line) : Prop :=
  (∀ b ∈ blocksIn block, readBlock decode b = none) ∨ ∃ before b after item,
    blocksIn block = before ++ b :: after ∧ (∀ other ∈ before, other.find? isData = none) ∧
    readBlock decode b = some item ∧ (block.find? isId).map (List.drop 4) = item.2 ∧
    (terminal item.1 ∨ ∀ other ∈ after, readBlock decode other = none)

/-- The blocks of the buffer are intact up to the first terminal event, and the last one, which no blank
line has ended, contains no event. -/
def Orderly : List (List Line) → Prop
  | [] => True
  | [last] => ∀ b ∈ (blocksIn last).dropLast, readBlock decode b = none
  | block :: blocks =>
    Intact decode terminal block ∧ ((∃ item ∈ eventsIn decode block, terminal item.1) ∨ Orderly blocks)

variable {decode terminal} {block : List Line}

/-! ## A block of the buffer and the blocks of the text -/

theorem chop_eq_or (line : Line) : chop line = line ∨ line = chop line ++ ['\r'] := by
  unfold chop
  split
  · rename_i hlast
    exact .inr (List.dropLast_append_getLast? _ hlast).symm
  · exact .inl rfl

theorem chop_eq_nil_iff {line : Line} : chop line = [] ↔ line = [] ∨ line = ['\r'] := by
  constructor
  · intro h
    rcases chop_eq_or line with hsame | hcut
    · exact .inl (hsame.symm.trans h)
    · exact .inr (by rw [hcut, h]; rfl)
  · rintro (rfl | rfl) <;> rfl

/-- A prefix that ends in another character is one of the line without the rest of its end. -/
theorem isPrefixOf_chop {start : Line} (h : start.getLast? ≠ some '\r') (line : Line) :
    start.isPrefixOf (chop line) = start.isPrefixOf line := by
  rcases chop_eq_or line with hsame | hcut
  · rw [hsame]
  · conv_rhs => rw [hcut]
    rw [Bool.eq_iff_iff, List.isPrefixOf_iff_prefix, List.isPrefixOf_iff_prefix, List.prefix_concat_iff]
    refine ⟨.inr, fun hp => hp.resolve_left fun heq => h ?_⟩
    rw [heq]
    exact List.getLast?_concat

theorem isData_chop (line : Line) : isData (chop line) = isData line := isPrefixOf_chop (by decide) line

theorem decode_chop (hdecode : ∀ text, decode (text ++ ['\r']) = decode text) {line : Line} (h : isData line) :
    decode ((chop line).drop 6) = decode (line.drop 6) := by
  rcases chop_eq_or line with hsame | hcut
  · rw [hsame]
  · have hlength : 6 ≤ (chop line).length :=
      (List.isPrefixOf_iff_prefix.mp ((isData_chop line).trans h)).length_le
    conv_rhs => rw [hcut]
    rw [List.drop_append_of_le_length hlength, hdecode]

theorem flatten_blocksIn (block : List Line) :
    (blocksIn block).flatten = (block.filter fun line => line ≠ ['\r']).map chop := by
  induction block with
  | nil => rfl
  | cons line block ih =>
    obtain ⟨first, rest, hsplit⟩ := List.exists_cons_of_ne_nil (List.splitOn_ne_nil ['\r'] block)
    rw [blocksIn, hsplit] at ih
    rw [blocksIn, List.splitOn_cons_eq_if_modifyHead, hsplit]
    by_cases hline : line = ['\r']
    · simpa [hline] using ih
    · simpa [hline] using ih

theorem blocksIn_ne_nil (block : List Line) : blocksIn block ≠ [] := by
  simp [blocksIn]

/-- The first data line of the block is that of the first block of the text that has one. -/
theorem findSome_isData (block : List Line) :
    (blocksIn block).findSome? (List.find? isData) = (block.find? isData).map chop := by
  rw [← List.find?_flatten, flatten_blocksIn]
  induction block with
  | nil => rfl
  | cons line block ih =>
    by_cases hline : line = ['\r']
    · subst hline
      simpa [isData] using ih
    · have hkeep : ((line :: block).filter fun other => other ≠ ['\r']) =
          line :: block.filter fun other => other ≠ ['\r'] := by simp [hline]
      rw [hkeep, List.map_cons, List.find?_cons, List.find?_cons, isData_chop, ih]
      cases isData line <;> rfl

/-- A blank line of the text is blank in the buffer, or its end was cut. -/
theorem splitOn_map_chop (lines : List Line) :
    (lines.map chop).splitOn [] = (lines.splitOn []).flatMap blocksIn := by
  induction lines with
  | nil => rfl
  | cons line lines ih =>
    obtain ⟨block, blocks, hsplit⟩ := List.exists_cons_of_ne_nil (List.splitOn_ne_nil ([] : Line) lines)
    obtain ⟨first, rest, hfirst⟩ := List.exists_cons_of_ne_nil (blocksIn_ne_nil block)
    rw [List.map_cons, List.splitOn_cons_eq_if_modifyHead, ih, List.splitOn_cons_eq_if_modifyHead, hsplit,
      List.flatMap_cons]
    by_cases hnil : line = []
    · subst hnil
      rfl
    · have hhead : (if line == [] then [] :: block :: blocks else (block :: blocks).modifyHead (List.cons line)) =
          (line :: block) :: blocks := by simp [hnil]
      rw [hhead, List.flatMap_cons]
      by_cases hline : line = ['\r']
      · have hcut : blocksIn (line :: block) = [] :: blocksIn block := by
          rw [blocksIn, List.splitOn_cons_eq_if_modifyHead, hline, if_pos (by rfl)]
          rfl
        rw [hcut, hline]
        rfl
      · have hkeep : blocksIn (line :: block) = (chop line :: first) :: rest := by
          rw [blocksIn] at hfirst
          obtain ⟨b, bs, hb⟩ := List.exists_cons_of_ne_nil (List.splitOn_ne_nil ['\r'] block)
          rw [hb, List.map_cons, List.cons.injEq] at hfirst
          rw [blocksIn, List.splitOn_cons_eq_if_modifyHead, if_neg (by simpa using hline), hb,
            List.modifyHead_cons,
            List.map_cons, List.map_cons, hfirst.1, hfirst.2]
        have hchop : chop line ≠ [] := fun h => (chop_eq_nil_iff.mp h).elim hnil hline
        rw [hkeep, hfirst, if_neg (by simpa using hchop)]
        rfl

theorem complete_map_chop (lines : List Line) :
    complete (lines.map chop) = (complete lines).flatMap blocksIn ++
      (blocksIn ((lines.splitOn []).getLast (List.splitOn_ne_nil _ _))).dropLast := by
  have hne := List.splitOn_ne_nil ([] : Line) lines
  rw [complete, complete, splitOn_map_chop]
  conv_lhs => rw [← List.dropLast_append_getLast hne]
  rw [List.flatMap_append, List.flatMap_singleton, List.dropLast_append_of_ne_nil (blocksIn_ne_nil _)]

/-! ## Intact blocks -/

theorem readBlock_of_find_none {b : List Line} (h : b.find? isData = none) : readBlock decode b = none := by
  rw [readBlock, h]
  rfl

theorem find_isData_of_readBlock {b : List Line} {item : α × Option Line} (h : readBlock decode b = some item) :
    (b.find? isData).isSome := by
  obtain ⟨line, hline, -⟩ := Option.bind_eq_some_iff.mp h
  exact Option.isSome_iff_exists.mpr ⟨line, hline⟩

/-- The data of a block of the buffer are those of its first block with data; the id may be another. -/
theorem readBlock_eq (hdecode : ∀ text, decode (text ++ ['\r']) = decode text) {before after : List (List Line)}
    {b : List Line} (hblocks : blocksIn block = before ++ b :: after)
    (hbefore : ∀ other ∈ before, other.find? isData = none) (hb : (b.find? isData).isSome) :
    readBlock decode block = (readBlock decode b).map fun item => (item.1, (block.find? isId).map
    (List.drop 4)) := by
  obtain ⟨data, hdata⟩ := Option.isSome_iff_exists.mp hb
  have hfind := findSome_isData block
  rw [hblocks, List.findSome?_append, List.findSome?_eq_none_iff.mpr hbefore, Option.none_or, List.findSome?_cons,
    hdata] at hfind
  obtain ⟨line, hline, rfl⟩ := Option.map_eq_some_iff.mp hfind.symm
  rw [readBlock, readBlock, hline, hdata, Option.bind_some, Option.bind_some,
    decode_chop hdecode (List.find?_some hline), Option.map_map]
  rfl

theorem readBlock_cases (decode : Line → Option α) (block : List Line) :
    (readBlock decode block = none ∧ ∀ b ∈ blocksIn block, b.find? isData = none) ∨
      ∃ before b after, blocksIn block = before ++ b :: after ∧ (∀ other ∈ before, other.find? isData = none) ∧
        (b.find? isData).isSome := by
  have hfind := findSome_isData block
  cases hdata : block.find? isData with
  | none =>
    rw [hdata] at hfind
    exact .inl ⟨readBlock_of_find_none hdata, List.findSome?_eq_none_iff.mp hfind⟩
  | some line =>
    rw [hdata] at hfind
    obtain ⟨before, b, after, hblocks, hb, hbefore⟩ := List.findSome?_eq_some_iff.mp hfind
    exact .inr ⟨before, b, after, hblocks, hbefore, by rw [hb]; rfl⟩

theorem eventsIn_append (decode : Line → Option α) {before after : List (List Line)} {b : List Line}
    (hblocks : blocksIn block = before ++ b :: after) (hbefore : ∀ other ∈ before, other.find? isData = none) :
    eventsIn decode block = (readBlock decode b).toList ++ after.filterMap (readBlock decode) := by
  have hnone : before.filterMap (readBlock decode) = [] :=
    List.filterMap_eq_nil_iff.mpr fun other hother => readBlock_of_find_none (hbefore other hother)
  rw [eventsIn, hblocks, List.filterMap_append, hnone, List.nil_append]
  cases hread : readBlock decode b <;> simp [hread]

/-- A block of the buffer has at most as many events as the text. -/
theorem length_readBlock_le (hdecode : ∀ text, decode (text ++ ['\r']) = decode text) (block : List Line) :
    (readBlock decode block).toList.length ≤ (eventsIn decode block).length := by
  rcases readBlock_cases decode block with ⟨hnone, -⟩ | ⟨before, b, after, hblocks, hbefore, hb⟩
  · simp [hnone]
  · rw [eventsIn_append _ hblocks hbefore, readBlock_eq hdecode hblocks hbefore hb]
    cases readBlock decode b <;> simp

theorem upTo_eq_nil {β : Type} {p : β → Bool} {xs : List β} (h : upTo p xs = []) : xs = [] := by
  cases xs with
  | nil => rfl
  | cons x xs =>
    rw [upTo] at h
    split at h <;> cases h

/-- The condition on a block says that the loop hands on what it would have handed on. -/
theorem intact_iff (hdecode : ∀ text, decode (text ++ ['\r']) = decode text) (block : List Line) :
    Intact decode terminal block ↔
      (readBlock decode block).toList = upTo (fun item => terminal item.1) (eventsIn decode block) := by
  constructor
  · rintro (hnone | ⟨before, b, after, item, hblocks, hbefore, hread, hid, hlast⟩)
    · have hevents : eventsIn decode block = [] := List.filterMap_eq_nil_iff.mpr hnone
      have hlength := length_readBlock_le hdecode block
      rw [hevents] at hlength ⊢
      exact List.eq_nil_of_length_eq_zero (Nat.le_zero.mp hlength)
    · rw [eventsIn_append _ hblocks hbefore,
        readBlock_eq hdecode hblocks hbefore (find_isData_of_readBlock hread), hread, Option.map_some, hid]
      rcases hlast with hterm | hnone
      · simp [upTo, hterm]
      · have hafter : after.filterMap (readBlock decode) = [] := List.filterMap_eq_nil_iff.mpr hnone
        simp [upTo, hafter]
  · intro h
    rcases readBlock_cases decode block with ⟨-, hnone⟩ | ⟨before, b, after, hblocks, hbefore, hb⟩
    · exact .inl fun b hb => readBlock_of_find_none (hnone b hb)
    · have hevents := eventsIn_append decode hblocks hbefore
      rw [readBlock_eq hdecode hblocks hbefore hb] at h
      cases hread : readBlock decode b with
      | none =>
        rw [hread] at h
        exact .inl (List.filterMap_eq_nil_iff.mp (upTo_eq_nil h.symm))
      | some item =>
        rw [hread] at hevents
        rw [hread, hevents, Option.toList_some, List.singleton_append, upTo] at h
        refine .inr ⟨before, b, after, item, hblocks, hbefore, hread, ?_⟩
        split at h
        · rename_i hterm
          exact ⟨congrArg Prod.snd (List.cons.inj h).1, .inl hterm⟩
        · refine ⟨congrArg Prod.snd (List.cons.inj h).1, .inr ?_⟩
          exact List.filterMap_eq_nil_iff.mp (upTo_eq_nil (List.cons.inj h).2.symm)

/-! ## The blocks of a text -/

/-- The events of the text that the blocks of the buffer hold. -/
def textEvents (decode : Line → Option α) (blocks : List (List Line)) (last : List Line) : List
    (α × Option Line) :=
  blocks.flatMap (eventsIn decode) ++ (blocksIn last).dropLast.filterMap (readBlock decode)

theorem orderly_cons {block : List Line} {blocks : List (List Line)} (h : blocks ≠ []) :
    Orderly decode terminal (block :: blocks) ↔
      Intact decode terminal block ∧ ((∃ item ∈ eventsIn decode block, terminal item.1) ∨
        Orderly decode terminal blocks) := by
  cases blocks with
  | nil => exact (h rfl).elim
  | cons next blocks => rfl

theorem filterMap_cons_toList (block : List Line) (blocks : List (List Line)) :
    (block :: blocks).filterMap (readBlock decode) =
      (readBlock decode block).toList ++ blocks.filterMap (readBlock decode) := by
  cases hread : readBlock decode block <;> simp [hread]

theorem upTo_upTo_append {β : Type} {p : β → Bool} {xs : List β} (h : ∃ x ∈ xs, p x) (ys : List β) :
    upTo p (upTo p xs ++ ys) = upTo p xs := by
  induction xs with
  | nil =>
    obtain ⟨x, hx, -⟩ := h
    cases hx
  | cons x xs ih =>
    rw [upTo]
    split
    · rename_i hx
      simp [upTo, hx]
    · rename_i hx
      obtain ⟨y, hy, hp⟩ := h
      have hmem : y ∈ xs := (List.mem_cons.mp hy).resolve_left fun heq => hx (heq ▸ hp)
      rw [List.cons_append, upTo, if_neg hx, ih ⟨y, hmem, hp⟩]

/-- Orderly blocks give the events of the text. -/
theorem Orderly.dispatch_eq (hdecode : ∀ text, decode (text ++ ['\r']) = decode text) {blocks : List (List Line)}
    {last : List Line} (h : Orderly decode terminal (blocks ++ [last])) :
    dispatch decode terminal blocks = upTo (fun item => terminal item.1) (textEvents decode blocks last) := by
  induction blocks with
  | nil =>
    have hnone : (blocksIn last).dropLast.filterMap (readBlock decode) = [] := List.filterMap_eq_nil_iff.mpr h
    rw [textEvents, hnone]
    rfl
  | cons block blocks ih =>
    rw [List.cons_append, orderly_cons (by simp)] at h
    obtain ⟨hintact, hrest⟩ := h
    rw [intact_iff hdecode] at hintact
    rw [dispatch, filterMap_cons_toList, hintact, textEvents, List.flatMap_cons, List.append_assoc]
    by_cases hterm : ∃ item ∈ eventsIn decode block, terminal item.1
    · rw [upTo_upTo_append hterm]
      obtain ⟨item, hitem, hitemTerm⟩ := hterm
      exact (upTo_append_of_mem hitem hitemTerm).symm
    · have hnone : ∀ item ∈ eventsIn decode block, terminal item.1 = false := fun item hitem =>
        Bool.eq_false_iff.mpr fun hitemTerm => hterm ⟨item, hitem, hitemTerm⟩
      rw [upTo_of_none hnone, upTo_append_of_none hnone, upTo_append_of_none hnone]
      exact congrArg _ (ih (hrest.resolve_left hterm))

theorem length_filterMap_le (hdecode : ∀ text, decode (text ++ ['\r']) = decode text) (blocks : List (List Line)) :
    (blocks.filterMap (readBlock decode)).length ≤ (blocks.flatMap (eventsIn decode)).length := by
  induction blocks with
  | nil => exact Nat.le_refl _
  | cons block blocks ih =>
    have hblock := length_readBlock_le hdecode block
    rw [filterMap_cons_toList, List.flatMap_cons, List.length_append, List.length_append]
    omega

/-- When all events of the text are handed on, each block hands on its own. -/
theorem toList_readBlock_eq (hdecode : ∀ text, decode (text ++ ['\r']) = decode text) {blocks : List (List Line)}
    {rest : List (α × Option Line)}
    (h : blocks.filterMap (readBlock decode) = blocks.flatMap (eventsIn decode) ++ rest) :
    rest = [] ∧ ∀ block ∈ blocks, (readBlock decode block).toList = eventsIn decode block := by
  induction blocks with
  | nil => exact ⟨h.symm, fun block hblock => by cases hblock⟩
  | cons block blocks ih =>
    rw [filterMap_cons_toList, List.flatMap_cons, List.append_assoc] at h
    have hblock := length_readBlock_le hdecode block
    have hblocks := length_filterMap_le hdecode blocks
    have hlength := congrArg List.length h
    simp only [List.length_append] at hlength
    obtain ⟨hhead, htail⟩ := List.append_inj h (by omega)
    obtain ⟨hrest, hall⟩ := ih htail
    exact ⟨hrest, List.forall_mem_cons.mpr ⟨hhead, hall⟩⟩

/-- When no event follows a terminal one, the events of the text are given by orderly blocks only. -/
theorem orderly_of_dispatch_eq (hdecode : ∀ text, decode (text ++ ['\r']) = decode text)
    {blocks : List (List Line)} {last : List Line}
    (h : dispatch decode terminal blocks = textEvents decode blocks last) :
    Orderly decode terminal (blocks ++ [last]) := by
  have hbefore := isPrefix_upTo (fun item => terminal item.1) (blocks.filterMap (readBlock decode))
  have hle := length_filterMap_le hdecode blocks
  have hlength := congrArg List.length h
  have hshort := hbefore.length_le
  rw [dispatch] at hlength h
  rw [textEvents, List.length_append] at hlength
  rw [hbefore.eq_of_length (by omega), textEvents] at h
  obtain ⟨hrest, hall⟩ := toList_readBlock_eq hdecode h
  clear hbefore hle hlength hshort h
  induction blocks with
  | nil => exact List.filterMap_eq_nil_iff.mp hrest
  | cons block blocks ih =>
    obtain ⟨hblock, hblocks⟩ := List.forall_mem_cons.mp hall
    rw [List.cons_append, orderly_cons (by simp), intact_iff hdecode]
    refine ⟨?_, .inr (ih hblocks)⟩
    rw [← hblock]
    cases readBlock decode block with
    | none => rfl
    | some item =>
      rw [Option.toList_some, upTo]
      split <;> rfl

/-- The condition for the blocks of lines that the buffer gets instead of those of the text. -/
theorem dispatch_complete_iff (terminal : α → Bool) (hdecode : ∀ text, decode (text ++ ['\r']) = decode text)
    (lines : List Line) :
    (Orderly decode terminal (lines.splitOn []) →
      dispatch decode terminal (complete lines) = dispatch decode terminal (complete (lines.map chop))) ∧
    (dispatch decode terminal (complete (lines.map chop)) =
        (complete (lines.map chop)).filterMap (readBlock decode) →
      dispatch decode terminal (complete lines) = dispatch decode terminal (complete (lines.map chop)) →
      Orderly decode terminal (lines.splitOn [])) := by
  have hne := List.splitOn_ne_nil ([] : Line) lines
  have hevents : (complete (lines.map chop)).filterMap (readBlock decode) =
      textEvents decode (complete lines) ((lines.splitOn []).getLast hne) := by
    rw [complete_map_chop, List.filterMap_append, List.filterMap_flatMap]
    rfl
  rw [← List.dropLast_append_getLast hne]
  constructor
  · intro h
    rw [complete, h.dispatch_eq hdecode, dispatch, hevents]
    rfl
  · intro hall h
    rw [hall, hevents] at h
    exact orderly_of_dispatch_eq hdecode h

theorem mem_of_mem_splitOn {β : Type} [BEq β] {separator x : β} {xs part : List β}
    (hpart : part ∈ xs.splitOn separator) (hx : x ∈ part) : x ∈ xs := by
  induction xs generalizing part with
  | nil =>
    rw [List.splitOn_nil, List.mem_singleton] at hpart
    rwa [hpart] at hx
  | cons y xs ih =>
    rw [List.splitOn_cons_eq_if_modifyHead] at hpart
    split at hpart
    · rcases List.mem_cons.mp hpart with rfl | hpart
      · cases hx
      · exact List.mem_cons_of_mem _ (ih hpart hx)
    · obtain ⟨first, rest, hsplit⟩ := List.exists_cons_of_ne_nil (List.splitOn_ne_nil separator xs)
      rw [hsplit] at hpart ih
      rcases List.mem_cons.mp hpart with rfl | hpart
      · rcases List.mem_cons.mp hx with rfl | hx
        · exact List.mem_cons_self
        · exact List.mem_cons_of_mem _ (ih List.mem_cons_self hx)
      · exact List.mem_cons_of_mem _ (ih (List.mem_cons_of_mem _ hpart) hx)

theorem blocksIn_of_notMem {block : List Line} (h : ∀ line ∈ block, '\r' ∉ line) : blocksIn block = [block] := by
  have hnot : ['\r'] ∉ block := fun hmem => h ['\r'] hmem (by simp)
  have hchop : block.map chop = block := by
    rw [List.map_congr_left (g := id), List.map_id]
    intro line hline
    rcases chop_eq_or line with hsame | hcut
    · exact hsame
    · exact (h line hline (by rw [hcut]; simp)).elim
  rw [blocksIn, List.splitOn_eq_singleton hnot, List.map_singleton, hchop]

/-- Blocks without the rest of a line end are orderly. -/
theorem orderly_of_notMem {blocks : List (List Line)} (h : ∀ block ∈ blocks, ∀ line ∈ block, '\r' ∉ line) :
    Orderly decode terminal blocks := by
  induction blocks with
  | nil => trivial
  | cons block blocks ih =>
    obtain ⟨hblock, hblocks⟩ := List.forall_mem_cons.mp h
    have hsame := blocksIn_of_notMem hblock
    by_cases hlast : blocks = []
    · subst hlast
      rw [Orderly, hsame]
      exact fun b hb => by cases hb
    · rw [orderly_cons hlast]
      refine ⟨?_, .inr (ih hblocks)⟩
      cases hread : readBlock decode block with
      | none =>
        rw [Intact, hsame]
        exact .inl (by simpa using hread)
      | some item =>
        obtain ⟨line, -, hitem⟩ := Option.bind_eq_some_iff.mp hread
        obtain ⟨a, -, rfl⟩ := Option.map_eq_some_iff.mp hitem
        exact .inr ⟨[], block, [], _, hsame, by simp, hread, rfl, .inr (by simp)⟩

end ChunkIndependence
