import ClawWork.StreamSubscription

/-!
# The text of a body

A prefix of a body is cut into the texts of its first events and what is left. The loop of
`flush` takes the events of the complete texts one after the other.
-/

namespace BodyText

open JavaScript AdapterStream StreamSubscription Subscription
open AdapterRelay (splitEvents replaceCrlf)

variable {ε : Type} {w : Wire ε} {server : Server w} {closes : ε → Bool} {s s' : Subscription ε}

/-! ## Blocks of a body -/

/-- A prefix of a text of blocks is cut into the complete blocks and the rest. -/
theorem splitEvents_blocks {bodies : List (List Char)} {text : List Char}
    (h : ∀ body ∈ bodies, NoBlank (body ++ ['\n'])) (htext : text <+: rejoin bodies []) :
    ∃ done rest left, bodies = done ++ rest ∧ text = rejoin done left ∧ splitEvents text = (done, left) := by
  induction bodies generalizing text with
  | nil =>
    have hnil : text = [] := by simpa [rejoin] using htext
    exact ⟨[], [], [], rfl, by simp [hnil, rejoin], by simp [hnil, splitEvents]⟩
  | cons body bodies ih =>
    have hsolid := h body List.mem_cons_self
    have hwhole : body ++ ['\n', '\n'] <+: rejoin (body :: bodies) [] := ⟨rejoin bodies [], by simp [rejoin]⟩
    have hcut : body ++ ['\n', '\n'] = body ++ ['\n'] ++ ['\n'] := by simp
    rcases List.prefix_or_prefix_of_prefix htext hwhole with hshort | ⟨more, hmore⟩
    · rw [hcut, List.prefix_concat_iff] at hshort
      rcases hshort with heq | hshort
      · refine ⟨[body], bodies, [], rfl, by simpa [rejoin] using heq, ?_⟩
        rw [heq, List.append_assoc]
        exact splitEvents_body hsolid []
      · exact ⟨[], body :: bodies, text, rfl, rfl, splitEvents_noBlank (hsolid.of_prefix hshort)⟩
    · have hrest : more <+: rejoin bodies [] := by
        have hsplit : rejoin (body :: bodies) [] = (body ++ ['\n', '\n']) ++ rejoin bodies [] := by simp [rejoin]
        rw [← hmore, hsplit] at htext
        exact (List.prefix_append_right_inj _).mp htext
      obtain ⟨done, rest, left, hbodies, hleft, hsplit⟩ :=
        ih (fun b hb => h b (List.mem_cons_of_mem _ hb)) hrest
      refine ⟨body :: done, rest, left, by rw [hbodies]; rfl, ?_, ?_⟩
      · rw [← hmore, hleft]
        simp [rejoin]
      · have hbody := splitEvents_body hsolid more
        rw [hsplit] at hbody
        rw [← hmore, List.append_assoc]
        exact hbody

section
variable {p : Nat × ε} (hp : w.Readable p.2)
include hp

theorem newline_notMem_eventLines : ∀ line ∈ eventLines w p, '\n' ∉ line := by
  have hdigit : '\n' ∉ Nat.toDigits 10 p.1 := notMem_toDigits p.1 rfl
  have hjson : '\n' ∉ (w.print p.2).toList := fun hc => (hp.line _ hc).1 rfl
  simp [eventLines, hdigit, hjson]

theorem return_notMem_eventText : '\r' ∉ eventText w p := by
  have hdigit : '\r' ∉ Nat.toDigits 10 p.1 := notMem_toDigits p.1 rfl
  have hjson : '\r' ∉ (w.print p.2).toList := fun hc => (hp.line _ hc).2 rfl
  simp [eventText, eventBody, eventLines, List.intercalate, hdigit, hjson]

theorem noBlank_eventBody : NoBlank (eventBody w p ++ ['\n']) := by
  have hlines := newline_notMem_eventLines hp
  simp only [eventLines, List.mem_cons, List.not_mem_nil, or_false, forall_eq_or_imp, forall_eq] at hlines
  obtain ⟨hid, hretry, hdata⟩ := hlines
  have hbody : eventBody w p ++ ['\n'] = ("id: ".toList ++ (toString p.1).toList) ++ '\n' ::
      ("retry: 1500".toList ++ '\n' :: (("data: ".toList ++ (w.print p.2).toList) ++ ['\n'])) := by
    simp [eventBody, eventLines, List.intercalate]
  have hlast : NoBlank (("data: ".toList ++ (w.print p.2).toList) ++ ['\n']) :=
    noBlank_line hdata (noBlank_of_notMem (by simp)) (by simp)
  rw [hbody]
  exact noBlank_line hid (noBlank_line hretry hlast (by simp)) (by simp)

/-- A break before the first line makes no blank line. -/
theorem noBlank_break_eventBody : NoBlank ('\n' :: eventBody w p ++ ['\n']) := by
  have hsolid := noBlank_eventBody hp
  intro hinfix
  rcases List.infix_cons_iff.mp hinfix with hprefix | hinner
  · rw [List.cons_prefix_cons] at hprefix
    simp [eventBody, eventLines, List.intercalate] at hprefix
  · exact hsolid hinner

theorem splitOn_eventBody : (eventBody w p).splitOn '\n' = eventLines w p :=
  List.splitOn_intercalate '\n' (newline_notMem_eventLines hp) (by simp [eventLines])

end

/-! ## The events of a buffer -/

/-- The subscription takes an event with its id. -/
def take (closes : ε → Bool) (s : Subscription ε) (p : Nat × ε) : Subscription ε :=
  { s with lastEventId := toString p.1 }.onEvent closes p.2

/-- The subscription takes the events one after the other, up to a terminal one. -/
def consume (w : Wire ε) (closes : ε → Bool) : Subscription ε → List (Nat × ε) → Subscription ε
  | s, [] => s
  | s, p :: ps => if w.isTerminal p.2 then (take closes s p).onComplete else consume w closes (take closes s p) ps

/-- The texts of the events, the first one after what is left of the opening. -/
def blocks (w : Wire ε) (lead : List Char) : List (Nat × ε) → List (List Char)
  | [] => []
  | p :: ps => (lead ++ eventBody w p) :: ps.map (eventBody w)

theorem lines_lead {lead : List Char} {p : Nat × ε} (hp : w.Readable p.2) (hlead : lead = [] ∨ lead = ['\n']) :
    (lead ++ eventBody w p).splitOn '\n' = if lead = [] then eventLines w p else [] :: eventLines w p := by
  rcases hlead with rfl | rfl
  · exact splitOn_eventBody hp
  · have hbreak : ['\n'] ++ eventBody w p = ['\n'].intercalate ([] :: eventLines w p) := by
      simp [eventBody, eventLines, List.intercalate]
    rw [hbreak, List.splitOn_intercalate '\n' _ (by simp)]
    · rfl
    · intro line hline
      rcases List.mem_cons.mp hline with rfl | hline
      · simp
      · exact newline_notMem_eventLines hp line hline

theorem find_id {lead : List Char} {p : Nat × ε} (hp : w.Readable p.2) (hlead : lead = [] ∨ lead = ['\n']) :
    ((lead ++ eventBody w p).splitOn '\n').find? (fun line => "id: ".toList.isPrefixOf line) =
      some ("id: ".toList ++ (toString p.1).toList) := by
  rw [lines_lead hp hlead]
  split <;> simp [eventLines, List.isPrefixOf]

theorem find_data {lead : List Char} {p : Nat × ε} (hp : w.Readable p.2) (hlead : lead = [] ∨ lead = ['\n']) :
    ((lead ++ eventBody w p).splitOn '\n').find? (fun line => "data: ".toList.isPrefixOf line) =
      some ("data: ".toList ++ (w.print p.2).toList) := by
  rw [lines_lead hp hlead]
  split <;> simp [eventLines, List.isPrefixOf]

theorem noteId_lead {lead : List Char} {p : Nat × ε} (hp : w.Readable p.2) (hlead : lead = [] ∨ lead = ['\n']) :
    s.noteId ((lead ++ eventBody w p).splitOn '\n') = { s with lastEventId := toString p.1 } := by
  have hne : (toString p.1).toList ≠ [] := by
    rw [Ne, String.toList_eq_nil_iff]
    exact toString_ne_empty p.1
  unfold noteId
  rw [find_id hp hlead]
  simp only [List.drop_left' (show ("id: ".toList).length = 4 from rfl), hne, if_false, String.ofList_toList]

/-- One complete event of the buffer is taken. -/
theorem flushLoop_block {lead left : List Char} {p : Nat × ε} {raws : List (List Char)} (hp : w.Readable p.2)
    (hlead : lead = [] ∨ lead = ['\n']) :
    flushLoop w closes left s ((lead ++ eventBody w p) :: raws) =
      if w.isTerminal p.2 then ((take closes s p).onComplete, rejoin raws left)
      else flushLoop w closes left (take closes s p) raws := by
  rw [flushLoop]
  dsimp only
  rw [noteId_lead hp hlead, find_data hp hlead]
  dsimp only
  rw [List.drop_left' (show ("data: ".toList).length = 6 from rfl), String.ofList_toList, hp.parse]
  rfl

theorem terminal_take (p : Nat × ε) : (take closes s p).terminal = s.terminal := by
  unfold take onEvent
  dsimp only
  split
  · unfold close
    split <;> rfl
  · rfl

theorem flushLoop_blocks (closes : ε → Bool) (left : List Char) {lead : List Char} {ps : List (Nat × ε)}
    (hps : ∀ p ∈ ps, w.Readable p.2) (hlead : lead = [] ∨ lead = ['\n']) (hterminal : s.terminal = false) :
    (flushLoop w closes left s (blocks w lead ps)).1 = consume w closes s ps ∧
      ((consume w closes s ps).terminal = false → (flushLoop w closes left s (blocks w lead ps)).2 = left) := by
  induction ps generalizing s lead with
  | nil => exact ⟨rfl, fun _ => rfl⟩
  | cons p ps ih =>
    rw [blocks, flushLoop_block (hps p List.mem_cons_self) hlead, consume]
    split
    · exact ⟨rfl, fun h => by cases h⟩
    · have hmap : ps.map (eventBody w) = blocks w [] ps := by cases ps <;> rfl
      rw [hmap]
      exact ih (fun q hq => hps q (List.mem_cons_of_mem _ hq)) (.inl rfl) ((terminal_take p).trans hterminal)

/-! ## Prefixes of a body -/

theorem blocks_text {lead : List Char} (p : Nat × ε) (ps : List (Nat × ε)) :
    lead ++ (p :: ps).flatMap (eventText w) = rejoin (blocks w lead (p :: ps)) [] := by
  simp only [blocks, rejoin, List.flatMap_cons, List.flatMap_map, eventText, List.append_assoc, List.append_nil]
  rfl

theorem blocks_append (lead : List Char) (p : Nat × ε) (ps qs : List (Nat × ε)) :
    blocks w lead (p :: ps ++ qs) = blocks w lead (p :: ps) ++ blocks w [] qs := by
  cases qs <;> simp [blocks]

theorem length_blocks (lead : List Char) (ps : List (Nat × ε)) : (blocks w lead ps).length = ps.length := by
  cases ps <;> simp [blocks]

theorem noBlank_blocks {lead : List Char} {ps : List (Nat × ε)} (hlead : lead = [] ∨ lead = ['\n'])
    (hps : ∀ p ∈ ps, w.Readable p.2) : ∀ body ∈ blocks w lead ps, NoBlank (body ++ ['\n']) := by
  cases ps with
  | nil => simp [blocks]
  | cons p ps =>
    intro body hbody
    rw [blocks, List.mem_cons] at hbody
    rcases hbody with rfl | hbody
    · rcases hlead with rfl | rfl
      · exact noBlank_eventBody (hps p List.mem_cons_self)
      · exact noBlank_break_eventBody (hps p List.mem_cons_self)
    · obtain ⟨q, hq, rfl⟩ := List.mem_map.mp hbody
      exact noBlank_eventBody (hps q (List.mem_cons_of_mem _ hq))

theorem noBlank_lead {lead text : List Char} (hlead : lead = [] ∨ lead = ['\n']) (h : text <+: lead) :
    NoBlank text := by
  intro hblank
  have hlong := (hblank.trans h.isInfix).length_le
  rcases hlead with rfl | rfl <;> simp at hlong

/-- The buffer is cut at the ends of events; what is left begins the text of the others. -/
theorem cut_text {lead text unread : List Char} {rest : List (Nat × ε)} (hlead : lead = [] ∨ lead = ['\n'])
    (hrest : ∀ p ∈ rest, w.Readable p.2) (h : text ++ unread = lead ++ rest.flatMap (eventText w)) :
    ∃ ps qs left lead', rest = ps ++ qs ∧ splitEvents text = (blocks w lead ps, left) ∧
      (lead' = [] ∨ lead' = ['\n']) ∧ left ++ unread = lead' ++ qs.flatMap (eventText w) := by
  cases rest with
  | nil =>
    have hsolid : NoBlank text := noBlank_lead hlead ⟨unread, by simpa using h⟩
    exact ⟨[], [], text, lead, rfl, splitEvents_noBlank hsolid, hlead, h⟩
  | cons p rest =>
    rw [blocks_text] at h
    obtain ⟨done, others, left, hbodies, htext, hsplit⟩ :=
      splitEvents_blocks (noBlank_blocks hlead hrest) ⟨unread, h⟩
    have hunread : left ++ unread = rejoin others [] := by
      rw [htext, hbodies] at h
      simpa [rejoin] using h
    cases done with
    | nil =>
      refine ⟨[], p :: rest, left, lead, rfl, hsplit, hlead, ?_⟩
      rw [blocks_text, hbodies]
      exact hunread
    | cons body done =>
      have hlength : done.length ≤ rest.length := by
        have hboth := congrArg List.length hbodies
        rw [length_blocks, List.length_append, List.length_cons, List.length_cons] at hboth
        omega
      have hparts : blocks w lead (p :: rest.take done.length) = body :: done ∧
          blocks w [] (rest.drop done.length) = others := by
        have hsame := blocks_append (w := w) lead p (rest.take done.length) (rest.drop done.length)
        rw [List.cons_append, List.take_append_drop, hbodies] at hsame
        have hlen : (body :: done).length = (blocks w lead (p :: rest.take done.length)).length := by
          rw [length_blocks, List.length_cons, List.length_cons, List.length_take, Nat.min_eq_left hlength]
        obtain ⟨hdone, hothers⟩ := List.append_inj hsame hlen
        exact ⟨hdone.symm, hothers.symm⟩
      refine ⟨p :: rest.take done.length, rest.drop done.length, left, [], ?_, ?_, .inl rfl, ?_⟩
      · rw [List.cons_append, List.take_append_drop]
      · rw [hsplit, hparts.1]
      · rw [hunread, ← hparts.2]
        cases hdrop : rest.drop done.length with
        | nil => rfl
        | cons q qs => rw [← blocks_text]

theorem return_notMem_body (server : Server w) (lastEventId : String) : '\r' ∉ server.body lastEventId := by
  have habove : ∀ p ∈ above server.log lastEventId, p ∈ server.log := by
    intro p hp
    unfold above at hp
    split at hp
    · exact List.mem_of_mem_filter hp
    · exact hp
  rw [Server.body, List.mem_append, List.mem_flatMap]
  rintro (hopening | ⟨p, hp, hc⟩)
  · rcases server.opening_line with h | h <;> simp [h] at hopening
  · exact return_notMem_eventText (server.readable p (habove p hp)) hc

/-- The chunk and what comes after it are the text that has not been looked at. -/
theorem chunk_append_unread {body text : List Char} {cursor : Nat} (h : text <+: body)
    (hcursor : cursor ≤ text.length) : text.drop cursor ++ body.drop text.length = body.drop cursor := by
  obtain ⟨more, rfl⟩ := h
  rw [List.drop_left, List.drop_append_of_le_length hcursor]

end BodyText
