import ClawWork.AdapterRelay
import ClawWork.TaskEventBroker

/-!
# The event stream between the adapter and the API

The handler of `GET /gateway/tasks/:id/events` writes the replay and then the live
events as text; the relay takes the text apart again. However the text is cut into
chunks, the relay hands on the written events whose last line has arrived.
-/

namespace AdapterStream

open JavaScript SharedTypes AdapterRelay TaskEventBroker

/-- The settings with the JSON printer of the runtime. -/
structure StreamSettings extends RelaySettings where
  jsonStringify : Json → String

/-- A response of the handler: the number of its listener, and the text that the client has still
to read. -/
structure Response where
  taskId : String
  listener : Nat
  text : List Char
  ended : Bool

variable {settings : StreamSettings}

/-- The two lines of an event. -/
def sseLines (settings : StreamSettings) (item : BrokerEvent) : List (List Char) :=
  ["id: ".toList ++ (toString item.id).toList,
    "data: ".toList ++ (settings.jsonStringify item.event.toJson).toList]

def sseBody (settings : StreamSettings) (item : BrokerEvent) : List Char :=
  ['\n'].intercalate (sseLines settings item)

def sseText (settings : StreamSettings) (item : BrokerEvent) : List Char :=
  sseBody settings item ++ ['\n', '\n']

def writeSseEvent (settings : StreamSettings) (response : Response) (item : BrokerEvent) : Response :=
  { response with text := response.text ++ sseText settings item }

/-- The listener of a response. -/
def listen (settings : StreamSettings) (response : Response) (item : BrokerEvent) : Response :=
  let response := writeSseEvent settings response item
  if item.event.isTerminal then { response with ended := true } else response

/-- The `last-event-id` header as a number, when it is a positive safe integer. -/
def replayAfter (lastEventId : Option String) : Nat :=
  match lastEventId.bind number with
  | some n => if isSafeInteger n then n else 0
  | none => 0

/-- The handler: the replay, and a listener for what comes after it. -/
def openEvents (settings : StreamSettings) (broker : Broker) (taskId : String)
    (lastEventId : Option String) (listener : Nat) : Response × Broker :=
  let replay := broker.replay taskId (replayAfter lastEventId)
  let response := replay.foldl (writeSseEvent settings) ⟨taskId, listener, [], false⟩
  if replay.getLast?.any fun item => item.event.isTerminal then
    ({ response with ended := true }, broker)
  else (response, broker.subscribe taskId listener)

/-- What the relay parses an item into. -/
def parsedOf (item : BrokerEvent) : Parsed := ⟨item.event, some (toString item.id)⟩

/-- An event that fits the schema is read back from its JSON text, which is one line. -/
structure Transmissible (settings : StreamSettings) (event : TaskStreamEvent) : Prop where
  valid : ((settings.jsonParse (settings.jsonStringify event.toJson)).bind
    (parseTaskStreamEvent settings.isUrl)) = some event
  line : ∀ c ∈ (settings.jsonStringify event.toJson).toList, c ≠ '\n' ∧ c ≠ '\r'

theorem oneLine_of_all {text : List Char} (h : (text.all fun c => c != '\n' && c != '\r') = true) :
    ∀ c ∈ text, c ≠ '\n' ∧ c ≠ '\r' := by
  intro c hc
  have hboth := List.all_eq_true.mp h c hc
  rw [Bool.and_eq_true, bne_iff_ne, bne_iff_ne] at hboth
  exact hboth

theorem replayAfter_toString_le (n : Nat) : replayAfter (some (toString n)) ≤ n := by
  rw [replayAfter, Option.bind_some, number_toString]
  dsimp only
  split
  · exact Nat.le_refl n
  · exact Nat.zero_le n

theorem writeSseEvent_foldl (items : List BrokerEvent) (response : Response) :
    items.foldl (writeSseEvent settings) response =
      { response with text := response.text ++ items.flatMap (sseText settings) } := by
  induction items generalizing response with
  | nil => simp
  | cons item items ih =>
    rw [List.foldl_cons, ih]
    simp [writeSseEvent]

/-- The handler adds at most its listener to the broker. -/
theorem openEvents_broker {broker broker' : Broker} {taskId : String} {lastEventId : Option String}
    {listener : Nat} {response : Response}
    (h : openEvents settings broker taskId lastEventId listener = (response, broker')) :
    broker'.maxEventsPerTask = broker.maxEventsPerTask ∧
      (∀ t, broker'.historyOf t = broker.historyOf t ∧ broker'.nextId t = broker.nextId t) ∧
      ∀ t, ∀ other ∈ broker'.listenersOf t, other = listener ∨ other ∈ broker.listenersOf t := by
  unfold openEvents at h
  dsimp only at h
  split at h <;> cases h
  · exact ⟨rfl, fun t => ⟨rfl, rfl⟩, fun t other hother => .inr hother⟩
  · exact ⟨rfl, fun t => ⟨rfl, rfl⟩, fun t other hother => Broker.mem_subscribe hother⟩

theorem return_notMem_sseText {item : BrokerEvent} (h : Transmissible settings item.event) :
    '\r' ∉ sseText settings item := by
  have hdigit : '\r' ∉ Nat.toDigits 10 item.id := notMem_toDigits item.id rfl
  have hjson : '\r' ∉ (settings.jsonStringify item.event.toJson).toList := fun hc => (h.line _ hc).2 rfl
  simp [sseText, sseBody, sseLines, List.intercalate, hdigit, hjson]

theorem newline_notMem_lines {item : BrokerEvent} (h : Transmissible settings item.event) :
    ∀ line ∈ sseLines settings item, '\n' ∉ line := by
  have hdigit : '\n' ∉ Nat.toDigits 10 item.id := notMem_toDigits item.id rfl
  have hjson : '\n' ∉ (settings.jsonStringify item.event.toJson).toList := fun hc => (h.line _ hc).1 rfl
  simp [sseLines, hdigit, hjson]

/-- A written event is parsed back. -/
theorem parseAdapterEvent_sseBody {item : BrokerEvent} (h : Transmissible settings item.event) :
    parseAdapterEvent settings.toRelaySettings (sseBody settings item) = some (parsedOf item) := by
  have hlines : (sseBody settings item).splitOn '\n' = sseLines settings item :=
    List.splitOn_intercalate '\n' (newline_notMem_lines h) (by simp [sseLines])
  obtain ⟨json, hjson, hevent⟩ := Option.bind_eq_some_iff.mp h.valid
  simp [parseAdapterEvent, hlines, sseLines, parsedOf, List.isPrefixOf, hjson, hevent, Nat.repr]

/-- No two newlines in a row. -/
def NoBlank (text : List Char) : Prop := ¬ ['\n', '\n'] <:+: text

theorem NoBlank.of_prefix {p text : List Char} (h : NoBlank text) (hp : p <+: text) : NoBlank p :=
  fun hbetween => h (hbetween.trans hp.isInfix)

theorem NoBlank.tail {c : Char} {text : List Char} (h : NoBlank (c :: text)) : NoBlank text :=
  fun hbetween => h (hbetween.trans (List.suffix_cons c text).isInfix)

theorem splitEvents_cons {c : Char} {text : List Char} (h : ¬ ['\n', '\n'] <+: c :: text) :
    splitEvents (c :: text) = match splitEvents text with
      | (raw :: raws, left) => ((c :: raw) :: raws, left)
      | ([], left) => ([], c :: left) := by
  have hopen : ∀ rest, c = '\n' → text = '\n' :: rest → False := by
    intro rest hc htext
    exact h ⟨rest, by rw [hc, htext]; rfl⟩
  rw [splitEvents] <;> first | exact hopen | rfl

/-- Without a blank line nothing is complete. -/
theorem splitEvents_noBlank {text : List Char} (h : NoBlank text) : splitEvents text = ([], text) := by
  induction text with
  | nil => rfl
  | cons c text ih => rw [splitEvents_cons fun hp => h hp.isInfix, ih h.tail]

/-- The text up to the first blank line. -/
theorem splitEvents_body {body : List Char} (h : NoBlank (body ++ ['\n'])) (rest : List Char) :
    splitEvents (body ++ '\n' :: '\n' :: rest) = (body :: (splitEvents rest).1, (splitEvents rest).2) := by
  induction body with
  | nil => rfl
  | cons c body ih =>
    have hcons : ¬ ['\n', '\n'] <+: c :: (body ++ '\n' :: '\n' :: rest) := by
      intro hp
      rw [List.cons_prefix_cons] at hp
      obtain ⟨rfl, hp⟩ := hp
      cases body with
      | nil => exact h (List.infix_refl _)
      | cons d body =>
        rw [List.cons_append, List.cons_prefix_cons] at hp
        rw [← hp.1] at h
        exact h ⟨[], body ++ ['\n'], rfl⟩
    rw [List.cons_append, splitEvents_cons hcons, ih h.tail]

theorem noBlank_of_notMem {text : List Char} (h : '\n' ∉ text) : NoBlank text :=
  fun hbetween => h (hbetween.subset (List.mem_cons_self ..))

theorem noBlank_line {line text : List Char} (h : '\n' ∉ line) (htext : NoBlank text)
    (hhead : ¬ ['\n'] <+: text) : NoBlank (line ++ '\n' :: text) := by
  induction line with
  | nil =>
    intro hinfix
    rcases List.infix_cons_iff.mp hinfix with hp | hinfix
    · exact hhead (List.cons_prefix_cons.mp hp).2
    · exact htext hinfix
  | cons c line ih =>
    rw [List.mem_cons, not_or] at h
    intro hinfix
    rcases List.infix_cons_iff.mp hinfix with hp | hinfix
    · exact h.1 (List.cons_prefix_cons.mp hp).1
    · exact ih h.2 hinfix

theorem noBlank_sseBody {item : BrokerEvent} (h : Transmissible settings item.event) :
    NoBlank (sseBody settings item ++ ['\n']) := by
  have hlines := newline_notMem_lines h
  simp only [sseLines, List.mem_cons, List.not_mem_nil, or_false, forall_eq_or_imp, forall_eq] at hlines
  have hbody : sseBody settings item ++ ['\n'] = ("id: ".toList ++ (toString item.id).toList) ++
      '\n' :: (("data: ".toList ++ (settings.jsonStringify item.event.toJson).toList) ++ ['\n']) := by
    simp [sseBody, sseLines, List.intercalate]
  have hlast : NoBlank (("data: ".toList ++ (settings.jsonStringify item.event.toJson).toList) ++ ['\n']) :=
    noBlank_line hlines.2 (noBlank_of_notMem (by simp)) (by simp)
  rw [hbody]
  exact noBlank_line hlines.1 hlast (by simp [List.cons_prefix_cons])

/-- What has arrived of the written events: the complete ones, and the rest of the text. -/
theorem splitEvents_prefix {items : List BrokerEvent} {text : List Char}
    (h : ∀ item ∈ items, Transmissible settings item.event)
    (htext : text <+: items.flatMap (sseText settings)) :
    ∃ done rest left, items = done ++ rest ∧ text = done.flatMap (sseText settings) ++ left ∧
      splitEvents text = (done.map (sseBody settings), left) := by
  induction items generalizing text with
  | nil =>
    rw [List.flatMap_nil, List.prefix_nil] at htext
    exact ⟨[], [], [], rfl, by rw [htext]; rfl, by rw [htext]; rfl⟩
  | cons item items ih =>
    have hsolid := noBlank_sseBody (h item List.mem_cons_self)
    have hwhole : sseText settings item <+: (item :: items).flatMap (sseText settings) := by
      rw [List.flatMap_cons]
      exact List.prefix_append _ _
    have hcut : sseText settings item = sseBody settings item ++ ['\n'] ++ ['\n'] := by simp [sseText]
    rcases List.prefix_or_prefix_of_prefix htext hwhole with hshort | ⟨more, hmore⟩
    · rw [hcut, List.prefix_concat_iff] at hshort
      rcases hshort with heq | hshort
      · refine ⟨[item], items, [], rfl, by simpa [hcut] using heq, ?_⟩
        rw [heq, List.append_assoc]
        exact splitEvents_body hsolid []
      · exact ⟨[], item :: items, text, rfl, rfl, splitEvents_noBlank (hsolid.of_prefix hshort)⟩
    · have hrest : more <+: items.flatMap (sseText settings) := by
        rw [← hmore, List.flatMap_cons] at htext
        exact (List.prefix_append_right_inj _).mp htext
      obtain ⟨done, rest, left, hitems, hleft, hsplit⟩ :=
        ih (fun item hitem => h item (List.mem_cons_of_mem _ hitem)) hrest
      refine ⟨item :: done, rest, left, by rw [hitems]; rfl, ?_, ?_⟩
      · rw [← hmore, hleft, List.flatMap_cons, List.append_assoc]
      · have hbody := splitEvents_body hsolid more
        rw [hsplit] at hbody
        rw [← hmore, sseText, List.append_assoc]
        exact hbody

theorem replaceCrlf_of_notMem {text : List Char} (h : '\r' ∉ text) : replaceCrlf text = text := by
  induction text with
  | nil => rfl
  | cons c text ih =>
    rw [List.mem_cons, not_or] at h
    rw [replaceCrlf, ih h.2]
    rintro rest hc
    exact absurd hc.symm h.1

/-- The relay hands on the written events that have arrived completely, in their order. -/
theorem receive_written {relay : Relay} {items : List BrokerEvent} {chunk unread : List Char}
    (h : ∀ item ∈ items, Transmissible settings item.event)
    (htext : relay.buffer ++ (chunk ++ unread) = items.flatMap (sseText settings)) :
    ∃ done rest left, items = done ++ rest ∧ left ++ unread = rest.flatMap (sseText settings) ∧
      relay.receive settings.toRelaySettings chunk =
        { relay with buffer := left }.resume (done.map parsedOf) := by
  have hchunk : '\r' ∉ chunk := by
    intro hmem
    have hall : '\r' ∈ items.flatMap (sseText settings) := by
      rw [← htext]
      simp [hmem]
    obtain ⟨item, hitem, hc⟩ := List.mem_flatMap.mp hall
    exact return_notMem_sseText (h item hitem) hc
  have hprefix : relay.buffer ++ chunk <+: items.flatMap (sseText settings) :=
    ⟨unread, by rw [List.append_assoc, htext]⟩
  obtain ⟨done, rest, left, hitems, hleft, hsplit⟩ := splitEvents_prefix h hprefix
  refine ⟨done, rest, left, hitems, ?_, ?_⟩
  · rw [← List.append_assoc, hleft, hitems, List.flatMap_append, List.append_assoc] at htext
    exact List.append_cancel_left htext
  · have hparsed : (done.map (sseBody settings)).filterMap (parseAdapterEvent settings.toRelaySettings) =
        done.map parsedOf := by
      rw [List.filterMap_map, List.filterMap_eq_map_iff_forall_eq_some.mpr]
      intro item hitem
      exact parseAdapterEvent_sseBody (h item (by rw [hitems]; exact List.mem_append_left _ hitem))
    simp only [Relay.receive, replaceCrlf_of_notMem hchunk, hsplit, hparsed]

end AdapterStream
