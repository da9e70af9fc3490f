import ClawWork.AdapterStream
import ClawWork.JsonText
import ClawWork.UpTo
import ClawWork.Utf8

/-!
# The codec of the event stream

The handler writes events, the bytes arrive in chunks, and the loop of the relay
decodes and splits them. While the relay can persist, it hands on the events that were
written, up to the first terminal one, wherever the chunks begin and end: also inside
a character or a separator.
-/

namespace StreamCodec

open JavaScript SharedTypes AdapterRelay AdapterStream TaskEventBroker UpTo

variable {settings : StreamSettings} {relay : Relay} {parsed : List Parsed} {items : List BrokerEvent}

/-- A value of the schema: one that it gives for some input. -/
def SchemaValid (settings : StreamSettings) (event : TaskStreamEvent) : Prop :=
  ∃ json, parseTaskStreamEvent settings.isUrl json = some event

/-- `JSON.parse` reads the text of the event back, and the text has no raw line break. -/
structure JsonLine (settings : StreamSettings) (event : TaskStreamEvent) : Prop where
  parse : settings.jsonParse (settings.jsonStringify event.toJson) = some event.toJson
  line : ∀ c ∈ (settings.jsonStringify event.toJson).toList, c ≠ '\n' ∧ c ≠ '\r'

theorem SchemaValid.transmissible {event : TaskStreamEvent} (h : SchemaValid settings event)
    (hjson : JsonLine settings event) : Transmissible settings event where
  valid := by
    obtain ⟨json, hparse⟩ := h
    rw [hjson.parse]
    exact parseTaskStreamEvent_canonical (canonical_of_parseTaskStreamEvent hparse)
  line := hjson.line

def isTerminal (item : BrokerEvent) : Bool := item.event.isTerminal

/-- The bytes that the handler has written for the events. -/
def written (settings : StreamSettings) (items : List BrokerEvent) : List UInt8 :=
  Utf8.encode (items.flatMap (sseText settings))

/-- The events that the relay has found in the buffer. -/
def found (relay : Relay) : List Parsed :=
  match relay.phase with
  | .persisting parsed _ => parsed :: relay.pending
  | _ => []

/-- `persistTaskEvent` is called for one event after the other, and resolves each time. -/
def persistAll (relay : Relay) : List Parsed → List Parsed × Relay
  | [] => ([], relay)
  | parsed :: rest =>
    let next := relay.afterPersist parsed
    if parsed.event.isTerminal then ([parsed], next)
    else (parsed :: (persistAll next rest).1, (persistAll next rest).2)

/-- The reader of the response body, with the events that the relay has called `persistTaskEvent` for. -/
structure Reader where
  decoder : Utf8.TextDecoder
  relay : Relay
  yielded : List Parsed

def Reader.start (taskId : String) : Reader := ⟨.new, { Relay.start taskId with phase := .reading }, []⟩

/-- One turn of the loop, until the next chunk is awaited or the relay has returned. -/
def Reader.chunk (settings : StreamSettings) (r : Reader) (bytes : List UInt8) : Reader :=
  match r.relay.phase with
  | .reading =>
    let (decoder, text) := r.decoder.decode bytes
    let relay := r.relay.receive settings.toRelaySettings text
    let (yielded, relay) := persistAll relay (found relay)
    ⟨decoder, relay, r.yielded ++ yielded⟩
  | _ => r

def Reader.read (settings : StreamSettings) (taskId : String) (chunks : List (List UInt8)) : Reader :=
  chunks.foldl (Reader.chunk settings) (.start taskId)

theorem found_resume (relay : Relay) (parsed : List Parsed) : found (relay.resume parsed) = parsed := by
  cases parsed with
  | nil =>
    rw [Relay.resume, found]
    cases relay.aborted <;> rfl
  | cons p rest => rfl

theorem resume_buffer (relay : Relay) (parsed : List Parsed) : (relay.resume parsed).buffer = relay.buffer := by
  cases parsed <;> rfl

theorem receive_buffer (relay : Relay) (text : List Char) :
    (relay.receive settings.toRelaySettings text).buffer =
      (splitEvents (relay.buffer ++ replaceCrlf text)).2 :=
  resume_buffer _ _

theorem resume_resume (relay : Relay) (first second : List Parsed) :
    (relay.resume first).resume second = relay.resume second := by
  cases first <;> cases second <;> rfl

theorem afterPersist_resume {p : Parsed} (rest : List Parsed) (h : p.event.isTerminal = false) :
    (relay.resume (p :: rest)).afterPersist p = relay.resume rest := by
  rw [Relay.afterPersist, if_neg (by simp [h])]
  exact resume_resume relay (p :: rest) rest

theorem persistAll_of_none (h : ∀ p ∈ parsed, p.event.isTerminal = false) :
    persistAll (relay.resume parsed) parsed = (parsed, relay.resume []) := by
  induction parsed with
  | nil => rfl
  | cons p rest ih =>
    have hp := h p (by simp)
    rw [persistAll, afterPersist_resume rest hp, ih fun q hq => h q (by simp [hq])]
    simp [hp]

/-- The relay returns with the first terminal event. -/
theorem persistAll_of_terminal (relay : Relay) (h : ∃ p ∈ parsed, p.event.isTerminal = true) :
    (persistAll (relay.resume parsed) parsed).1 = upTo (fun p => p.event.isTerminal) parsed ∧
      (persistAll (relay.resume parsed) parsed).2.phase = .returned := by
  induction parsed with
  | nil =>
    obtain ⟨p, hp, -⟩ := h
    cases hp
  | cons p rest ih =>
    cases hterm : p.event.isTerminal with
    | true => simp [persistAll, upTo, hterm, Relay.afterPersist]
    | false =>
      obtain ⟨q, hq, hqterm⟩ := h
      have hrest : q ∈ rest := by
        rcases List.mem_cons.mp hq with rfl | hq
        · rw [hterm] at hqterm
          cases hqterm
        · exact hq
      obtain ⟨hyielded, hphase⟩ := ih ⟨q, hrest, hqterm⟩
      rw [persistAll, afterPersist_resume rest hterm, upTo]
      simp [hterm, hyielded, hphase]

theorem eq_of_splitEvents_nil {text left : List Char} (h : splitEvents text = ([], left)) : left = text := by
  fun_induction splitEvents text generalizing left with
  | case1 rest ih => cases h
  | case2 c rest hcons raw raws left' hsplit ih => cases h
  | case3 c rest hcons left' hsplit ih =>
    cases h
    rw [ih hsplit]
  | case4 =>
    cases h
    rfl

/-- What is left in the buffer has no complete event. -/
theorem noBlank_left (text : List Char) : NoBlank (splitEvents text).2 := by
  fun_induction splitEvents text with
  | case1 rest ih => exact ih
  | case2 c rest hcons raw raws left hsplit ih =>
    rw [hsplit] at ih
    exact ih
  | case3 c rest hcons left hsplit ih =>
    rw [hsplit] at ih
    have hleft := eq_of_splitEvents_nil hsplit
    subst hleft
    intro hbetween
    rcases List.infix_cons_iff.mp hbetween with ⟨more, hopen⟩ | hinner
    · cases hopen
      exact hcons more rfl rfl
    · exact ih hinner
  | case4 => exact noBlank_of_notMem (by simp)

theorem splitEvents_written (h : ∀ item ∈ items, Transmissible settings item.event) :
    splitEvents (items.flatMap (sseText settings)) = (items.map (sseBody settings), []) := by
  induction items with
  | nil => rfl
  | cons item items ih =>
    have hbody := splitEvents_body (noBlank_sseBody (h item (by simp))) (items.flatMap (sseText settings))
    rw [ih fun other hother => h other (by simp [hother])] at hbody
    rw [List.flatMap_cons, sseText, List.append_assoc]
    exact hbody

theorem chunk_of_returned {r : Reader} (h : r.relay.phase = .returned) (chunks : List (List UInt8)) :
    chunks.foldl (Reader.chunk settings) r = r := by
  induction chunks with
  | nil => rfl
  | cons bytes chunks ih =>
    have hchunk : r.chunk settings bytes = r := by rw [Reader.chunk, h]
    rw [List.foldl_cons, hchunk, ih]

theorem chunk_of_reading {r : Reader} {bytes : List UInt8} {decoder : Utf8.TextDecoder} {text left : List Char}
    (hphase : r.relay.phase = .reading) (hdecode : r.decoder.decode bytes = (decoder, text))
    (hreceive : r.relay.receive settings.toRelaySettings text =
      { r.relay with buffer := left }.resume parsed) :
    r.chunk settings bytes =
      ⟨decoder, (persistAll ({ r.relay with buffer := left }.resume parsed) parsed).2,
        r.yielded ++ (persistAll ({ r.relay with buffer := left }.resume parsed) parsed).1⟩ := by
  rw [Reader.chunk, hphase]
  simp only [hdecode, hreceive, found_resume]

/-- The rest of the run: what is in the buffer and what the decoder has still to come are the text of
the events that are still to be handed on. -/
theorem yielded_chunks (r : Reader) (chunks : List (List UInt8))
    (h : ∀ item ∈ items, Transmissible settings item.event) (hphase : r.relay.phase = .reading)
    (hopen : r.relay.aborted = false) (hsolid : NoBlank r.relay.buffer)
    (hmark : r.decoder.started = false →
      (r.decoder.decoder.write chunks.flatten).2.head?.any Utf8.isByteOrderMark = false)
    (htext : r.relay.buffer ++ (r.decoder.decoder.write chunks.flatten).2 = items.flatMap (sseText settings)) :
    (chunks.foldl (Reader.chunk settings) r).yielded = r.yielded ++ (upTo isTerminal items).map parsedOf := by
  induction chunks generalizing r items with
  | nil =>
    have hbuffer : r.relay.buffer = items.flatMap (sseText settings) := by
      simpa [Utf8.Decoder.write] using htext
    have hsplit := splitEvents_noBlank hsolid
    rw [hbuffer, splitEvents_written h, Prod.mk.injEq, List.map_eq_nil_iff] at hsplit
    rw [hsplit.1]
    simp [upTo]
  | cons bytes chunks ih =>
    rw [List.flatten_cons, Utf8.write_append] at hmark htext
    dsimp only at hmark htext
    obtain ⟨started, hkept, hstarted, hdecode⟩ : ∃ started, (r.decoder.started = true → started = true) ∧
        ((r.decoder.decoder.write bytes).2 ≠ [] → started = true) ∧
        r.decoder.decode bytes =
          (⟨(r.decoder.decoder.write bytes).1, started⟩, (r.decoder.decoder.write bytes).2) := by
      apply Utf8.decode_eq_write
      intro hfirst
      have hhead := hmark hfirst
      cases htext : (r.decoder.decoder.write bytes).2 with
      | nil => rfl
      | cons c text => simpa [htext] using hhead
    obtain ⟨done, rest, left, rfl, hleft, hreceive⟩ := receive_written h htext
    have hsplit : left = (splitEvents (r.relay.buffer ++ replaceCrlf (r.decoder.decoder.write bytes).2)).2 := by
      have hbuffer := congrArg Relay.buffer hreceive
      rw [receive_buffer, resume_buffer] at hbuffer
      exact hbuffer.symm
    rw [List.foldl_cons, chunk_of_reading hphase hdecode hreceive]
    by_cases hterm : ∃ item ∈ done, item.event.isTerminal = true
    · obtain ⟨item, hitem, hitemTerm⟩ := hterm
      obtain ⟨hyielded, hreturned⟩ := persistAll_of_terminal { r.relay with buffer := left }
        ⟨parsedOf item, List.mem_map_of_mem hitem, hitemTerm⟩
      rw [chunk_of_returned hreturned, hyielded, upTo_map, upTo_append_of_mem hitem hitemTerm]
      rfl
    · have hnone : ∀ item ∈ done, isTerminal item = false := by
        intro item hitem
        by_contra hitemTerm
        exact hterm ⟨item, hitem, by simpa [isTerminal] using hitemTerm⟩
      have hparsed : ∀ p ∈ done.map parsedOf, p.event.isTerminal = false := by
        intro p hp
        obtain ⟨item, hitem, rfl⟩ := List.mem_map.mp hp
        exact hnone item hitem
      rw [persistAll_of_none hparsed, upTo_append_of_none hnone, List.map_append, ← List.append_assoc]
      apply ih
      · exact fun item hitem => h item (List.mem_append_right _ hitem)
      · simp [Relay.resume, hopen]
      · exact hopen
      · dsimp only
        rw [resume_buffer, hsplit]
        exact noBlank_left _
      · intro hlater
        -- nothing was decoded yet, so that the mark would still be to come
        have hfirst : r.decoder.started = false := by
          by_contra hnot
          rw [hkept (by simpa using hnot)] at hlater
          cases hlater
        have hempty : (r.decoder.decoder.write bytes).2 = [] := by
          by_contra hne
          rw [hstarted hne] at hlater
          cases hlater
        have hhead := hmark hfirst
        rwa [hempty, List.nil_append] at hhead
      · dsimp only
        rw [resume_buffer]
        exact hleft

/-- **The codec.** The relay hands on the events that were written, with their ids in decimal, in their
order and up to the first terminal one, however the bytes were cut into chunks. -/
theorem yielded_written (taskId : String) (chunks : List (List UInt8))
    (hvalid : ∀ item ∈ items, SchemaValid settings item.event)
    (hjson : ∀ item ∈ items, JsonLine settings item.event)
    (hchunks : chunks.flatten = written settings items) :
    (Reader.read settings taskId chunks).yielded =
      (upTo (fun item => item.event.isTerminal) items).map fun item => ⟨item.event, some (toString item.id)⟩ := by
  have htransmissible : ∀ item ∈ items, Transmissible settings item.event := fun item hitem =>
    (hvalid item hitem).transmissible (hjson item hitem)
  have hdecoded : (Utf8.Decoder.start.write chunks.flatten).2 = items.flatMap (sseText settings) := by
    rw [hchunks, written, Utf8.write_encode]
  apply yielded_chunks (.start taskId) chunks htransmissible rfl rfl
  · exact noBlank_of_notMem (by simp [Reader.start, Relay.start])
  · intro _
    rw [Reader.start, Utf8.TextDecoder.new, hdecoded]
    cases items <;> rfl
  · rw [Reader.start, Utf8.TextDecoder.new, hdecoded]
    rfl

def demoFormat : JsonText.NumberFormat where
  print x := Nat.toDigits 10 x.num.toNat
  digits := JsonText.toDigits_num

def demoEvent : TaskStreamEvent := ⟨.delta "第一行\n第二行", "t", "s", "r", "T"⟩

/-- A printer that escapes, and a parser that knows one text. -/
def demoSettings : StreamSettings where
  concurrentLimit := 1
  isUrl _ := true
  jsonStringify json := .ofList (JsonText.stringify demoFormat json)
  jsonParse text :=
    if text = .ofList (JsonText.stringify demoFormat demoEvent.toJson) then some demoEvent.toJson else none

def demoBytes : List (List UInt8) := (written demoSettings [⟨1, demoEvent⟩]).map fun b => [b]

theorem yielded_demoBytes : (Reader.read demoSettings "t" demoBytes).yielded = [⟨demoEvent, some "1"⟩] := by
  have hvalid : ∀ item ∈ [BrokerEvent.mk 1 demoEvent], SchemaValid demoSettings item.event := by
    simpa using ⟨demoEvent.toJson, rfl⟩
  have hjson : ∀ item ∈ [BrokerEvent.mk 1 demoEvent], JsonLine demoSettings item.event := by
    have hline : JsonLine demoSettings demoEvent :=
      ⟨by simp only [demoSettings, if_true], oneLine_of_all (by decide +kernel)⟩
    simpa using hline
  have hchunks : demoBytes.flatten = written demoSettings [⟨1, demoEvent⟩] := List.flatMap_singleton' _
  rw [yielded_written "t" demoBytes hvalid hjson hchunks]
  rfl

end StreamCodec
