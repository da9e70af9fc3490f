import ClawWork.ChunkIndependence
import ClawWork.ReconnectDelivery

/-!
# The two loops over an event stream in chunks

The relay and the app dispatch the events of the blocks that they find in their buffers, up to the
first terminal one. So the blocks that the chunks leave in the buffer say whether the events are
those of the same text in one chunk.
-/

namespace ChunkedStreams

open AdapterRelay AdapterStream EventLines ChunkIndependence UpTo
open ReconnectDelivery (trace_noteId trace_onEvent)

/-! ## The buffer of the relay -/

section Relay

variable (settings : RelaySettings)

def decodeJson (text : Line) : Option JavaScript.Json := settings.jsonParse (.ofList text)

def decodeEvent (text : Line) : Option SharedTypes.TaskStreamEvent :=
  (decodeJson settings text).bind (SharedTypes.parseTaskStreamEvent settings.isUrl)

def toParsed (item : SharedTypes.TaskStreamEvent × Option Line) : Parsed := ⟨item.1, item.2.map String.ofList⟩

/-- The loop of `relayAdapterEvents` with what it has handed on. -/
structure RelayLoop where
  relay : Relay
  handed : List Parsed

def RelayLoop.start (taskId : String) : RelayLoop := ⟨{ Relay.start taskId with phase := .reading }, []⟩

/-- One turn of the loop with a piece of decoded text; every event can be persisted. -/
def RelayLoop.receive (loop : RelayLoop) (text : List Char) : RelayLoop :=
  match loop.relay.phase with
  | .reading =>
    let relay := loop.relay.receive settings text
    let (handed, relay) := StreamCodec.persistAll relay (StreamCodec.found relay)
    ⟨relay, loop.handed ++ handed⟩
  | _ => loop

/-- The events that the relay hands on when the text comes in these pieces. -/
def relayed (taskId : String) (pieces : List (List Char)) : List Parsed :=
  (pieces.foldl (RelayLoop.receive settings) (.start taskId)).handed

variable {settings}

theorem parseAdapterEvent_eq (raw : List Char) :
    parseAdapterEvent settings raw = (readBlock (decodeEvent settings) (raw.splitOn '\n')).map toParsed := by
  unfold parseAdapterEvent readBlock decodeEvent decodeJson
  dsimp only
  change ((raw.splitOn '\n').find? isData).bind _ = _
  cases (raw.splitOn '\n').find? isData with
  | none => rfl
  | some line =>
    rw [Option.bind_some, Option.bind_some]
    cases settings.jsonParse (.ofList (line.drop 6)) with
    | none => rfl
    | some json =>
      cases hevent : SharedTypes.parseTaskStreamEvent settings.isUrl json with
      | none => simp [hevent]
      | some event =>
        change (SharedTypes.parseTaskStreamEvent settings.isUrl json).bind _ =
          (((SharedTypes.parseTaskStreamEvent settings.isUrl json).map _).map toParsed)
        rw [hevent, Option.bind_some, Option.map_some, Option.map_some, toParsed, Option.map_map]
        rfl

theorem relay_of_returned {loop : RelayLoop} (h : loop.relay.phase = .returned) (pieces : List (List Char)) :
    pieces.foldl (RelayLoop.receive settings) loop = loop := by
  induction pieces with
  | nil => rfl
  | cons piece pieces ih =>
    have hsame : loop.receive settings piece = loop := by rw [RelayLoop.receive, h]
    rw [List.foldl_cons, hsame, ih]

theorem handed_foldl (loop : RelayLoop) (pieces : List (List Char)) (hphase : loop.relay.phase = .reading)
    (hopen : loop.relay.aborted = false) (hsolid : NoBlank loop.relay.buffer) :
    (pieces.foldl (RelayLoop.receive settings) loop).handed = loop.handed ++ upTo (fun parsed =>
    parsed.event.isTerminal)
      ((splitEvents (loop.relay.buffer ++ received pieces)).1.filterMap (parseAdapterEvent settings)) := by
  induction pieces generalizing loop with
  | nil =>
    rw [received, List.flatMap_nil, List.append_nil, splitEvents_noBlank hsolid]
    simp [upTo]
  | cons piece pieces ih =>
    obtain ⟨raws, left, hsplit⟩ : ∃ raws left, splitEvents (loop.relay.buffer ++ replaceCrlf piece) = (raws,
      left) :=
      ⟨_, _, rfl⟩
    have hstep : loop.receive settings piece =
        ⟨(StreamCodec.persistAll ({ loop.relay with buffer := left }.resume (raws.filterMap
        (parseAdapterEvent settings)))
            (raws.filterMap (parseAdapterEvent settings))).2,
          loop.handed ++ (StreamCodec.persistAll
            ({ loop.relay with buffer := left }.resume (raws.filterMap (parseAdapterEvent settings)))
            (raws.filterMap (parseAdapterEvent settings))).1⟩ := by
      rw [RelayLoop.receive, hphase]
      simp only [Relay.receive, hsplit, StreamCodec.found_resume]
    have hleft : left = (splitEvents (loop.relay.buffer ++ replaceCrlf piece)).2 := by rw [hsplit]
    have hbuffer : splitEvents (loop.relay.buffer ++ received (piece :: pieces)) =
        (raws ++ (splitEvents (left ++ received pieces)).1, (splitEvents (left ++ received pieces)).2) := by
      rw [received, List.flatMap_cons, ← List.append_assoc, splitEvents_append, hsplit]
      rfl
    rw [List.foldl_cons, hstep, hbuffer, List.filterMap_append]
    by_cases hterm : ∃ parsed ∈ raws.filterMap (parseAdapterEvent settings), parsed.event.isTerminal = true
    · obtain ⟨hyielded, hreturned⟩ := StreamCodec.persistAll_of_terminal { loop.relay with buffer := left } hterm
      obtain ⟨parsed, hparsed, hparsedTerm⟩ := hterm
      rw [relay_of_returned hreturned, hyielded, upTo_append_of_mem hparsed hparsedTerm]
    · have hnone : ∀ parsed ∈ raws.filterMap (parseAdapterEvent settings), parsed.event.isTerminal = false :=
        fun parsed hparsed => Bool.eq_false_iff.mpr fun hparsedTerm => hterm ⟨parsed, hparsed, hparsedTerm⟩
      rw [StreamCodec.persistAll_of_none hnone, upTo_append_of_none hnone, ← List.append_assoc]
      have hrest := ih ⟨{ loop.relay with buffer := left }.resume [],
        loop.handed ++ raws.filterMap (parseAdapterEvent settings)⟩ (by simp [Relay.resume, hopen]) hopen
        (by
          rw [StreamCodec.resume_buffer, hleft]
          exact StreamCodec.noBlank_left _)
      rw [hrest, StreamCodec.resume_buffer]

/-- The complete blocks of the buffer, and the lines that no blank line has ended yet. -/
theorem relayed_eq (taskId : String) (pieces : List (List Char)) :
    relayed settings taskId pieces = (dispatch (decodeEvent settings) (fun event => event.isTerminal)
      (complete ((received pieces).splitOn '\n').dropLast)).map toParsed := by
  have hparse : parseAdapterEvent settings =
      fun raw => (readBlock (decodeEvent settings) (raw.splitOn '\n')).map toParsed :=
    funext parseAdapterEvent_eq
  have hmap : ∀ raws : List (List Char),
      raws.filterMap (parseAdapterEvent settings) =
        (raws.filterMap fun raw => readBlock (decodeEvent settings) (raw.splitOn '\n')).map toParsed := by
    intro raws
    rw [hparse, List.map_filterMap]
  rw [relayed, handed_foldl _ _ rfl rfl (noBlank_of_notMem (by simp [RelayLoop.start, Relay.start])), hmap,
    upTo_map,
    dispatch, ← events_splitEvents]
  rfl

theorem toParsed_injective : Function.Injective toParsed := by
  rintro ⟨event, id⟩ ⟨event', id'⟩ h
  rw [toParsed, toParsed, Parsed.mk.injEq] at h
  exact Prod.ext h.1 (Option.map_injective (fun _ _ => String.ofList_inj.mp) h.2)

end Relay

/-! ## The buffer of the app -/

section App

open StreamSubscription StreamSubscription.Subscription

variable {ε : Type} (w : Wire ε) (closes : ε → Bool)

def parseLine (text : Line) : Option ε := w.parse (.ofList text)

/-- What the loop of `flush` hands to `onEvent`, with the ids that it takes from the same texts. -/
def handedOn : List (List Char) → List (ε × Option Line)
  | [] => []
  | raw :: raws =>
    let lines := raw.splitOn '\n'
    match lines.find? isData with
    | none => handedOn raws
    | some line =>
      match w.parse (.ofList (line.drop 6)) with
      | none => []
      | some e => (e, (lines.find? isId).map (List.drop 4)) :: if w.isTerminal e then [] else handedOn raws

/-- The subscription with what it has handed on. -/
structure App (ε : Type) where
  subscription : Subscription ε
  handed : List (ε × Option Line)

/-- More text of the first request. -/
def grow (s : Subscription ε) (text : List Char) : Subscription ε :=
  s.setRequest 0 { s.requests 0 with responseText := (s.requests 0).responseText ++ text }

/-- `responseText` grows and `onprogress` is called, which is `flush`; not after an `abort`. -/
def App.receive (app : App ε) (text : List Char) : App ε :=
  if app.subscription.live 0 then
    ⟨(grow app.subscription text).flush w closes 0, app.handed ++
      if text = [] then []
      else handedOn w (splitEvents ((app.subscription.requests 0).buffer ++ replaceCrlf text)).1⟩
  else app

/-- The events that the app hands on when the text comes in these pieces. -/
def shown (pieces : List (List Char)) : List (ε × Option Line) :=
  (pieces.foldl (App.receive w closes) ⟨.start, []⟩).handed

/-- The events that `onEvent` of the handlers was called with. -/
def called (s : Subscription ε) : List ε := s.trace.filterMap ReconnectDelivery.received

/-- The app can read the data of the blocks. -/
def ReadableData (blocks : List (List Line)) : Prop :=
  ∀ block ∈ blocks, ∀ line, block.find? isData = some line → (parseLine w (line.drop 6)).isSome

/-- A subscription that waits for more text of its first request. -/
structure Waiting (s : Subscription ε) (buffer : List Char) : Prop where
  opened : s.opened = 1
  closed : s.closed = false
  aborted : (s.requests 0).aborted = false
  cursor : (s.requests 0).cursor = (s.requests 0).responseText.length
  buffer : (s.requests 0).buffer = buffer

variable {w closes} {s : Subscription ε}

theorem flushLoop_cons (left : List Char) (s : Subscription ε) (raw : List Char) (raws : List (List Char)) :
    flushLoop w closes left s (raw :: raws) =
      match (raw.splitOn '\n').find? isData with
      | none => flushLoop w closes left (s.noteId (raw.splitOn '\n')) raws
      | some line =>
        match w.parse (.ofList (line.drop 6)) with
        | none => (s.noteId (raw.splitOn '\n'), rejoin raws left)
        | some e =>
          let s := (s.noteId (raw.splitOn '\n')).onEvent closes e
          if w.isTerminal e then (s.onComplete, rejoin raws left) else flushLoop w closes left s raws := rfl

/-- The handler is called for the events that are handed on. -/
theorem called_flushLoop (left : List Char) (s : Subscription ε) (raws : List (List Char)) :
    called (flushLoop w closes left s raws).1 = called s ++ (handedOn w raws).map Prod.fst := by
  induction raws generalizing s with
  | nil => simp [flushLoop, handedOn]
  | cons raw raws ih =>
    have hnoted : called (s.noteId (raw.splitOn '\n')) = called s := by rw [called, trace_noteId, called]
    rw [flushLoop_cons, handedOn]
    cases (raw.splitOn '\n').find? isData with
    | none =>
      dsimp only
      rw [ih, hnoted]
    | some line =>
      dsimp only
      cases w.parse (.ofList (line.drop 6)) with
      | none => simp [hnoted]
      | some e =>
        have hevent : called ((s.noteId (raw.splitOn '\n')).onEvent closes e) = called s ++ [e] := by
          rw [called, trace_onEvent, List.filterMap_append, ← called, hnoted]
          rfl
        dsimp only
        split
        · have hcomplete : ∀ s : Subscription ε, called s.onComplete = called s := by
            intro s
            change List.filterMap _ (_ ++ [Action.complete]) = _
            rw [List.filterMap_append]
            exact List.append_nil _
          rw [hcomplete, hevent]
          rfl
        · rw [ih, hevent, List.append_assoc]
          rfl

theorem handedOn_eq {raws : List (List Char)} (h : ReadableData w (raws.map (List.splitOn '\n'))) :
    handedOn w raws = upTo (fun item => w.isTerminal item.1)
      (raws.filterMap fun raw => readBlock (parseLine w) (raw.splitOn '\n')) := by
  induction raws with
  | nil => rfl
  | cons raw raws ih =>
    rw [ReadableData, List.map_cons, List.forall_mem_cons] at h
    rw [handedOn, List.filterMap_cons, readBlock]
    cases hdata : (raw.splitOn '\n').find? isData with
    | none => exact ih h.2
    | some line =>
      obtain ⟨e, he⟩ := Option.isSome_iff_exists.mp (h.1 line hdata)
      rw [Option.bind_some, he, Option.map_some]
      rw [parseLine] at he
      simp only [he, upTo]
      split
      · rfl
      · rw [ih h.2]

theorem noteId_same (s : Subscription ε) (lines : List Line) : (s.noteId lines).requests = s.requests ∧
    (s.noteId lines).opened = s.opened ∧ (s.noteId lines).closed = s.closed := by
  unfold noteId
  split
  · split <;> exact ⟨rfl, rfl, rfl⟩
  · exact ⟨rfl, rfl, rfl⟩

/-- Without a terminal event the request goes on. -/
theorem flushLoop_of_none (hcloses : ∀ e, closes e → w.isTerminal e) {left : List Char} {raws : List (List Char)}
    (h : ReadableData w (raws.map (List.splitOn '\n')))
    (hnone : ∀ item ∈ handedOn w raws, w.isTerminal item.1 = false) :
    ∃ s', flushLoop w closes left s raws = (s', left) ∧ s'.requests = s.requests ∧ s'.opened = s.opened ∧
      s'.closed = s.closed := by
  induction raws generalizing s with
  | nil => exact ⟨s, rfl, rfl, rfl, rfl⟩
  | cons raw raws ih =>
    rw [ReadableData, List.map_cons, List.forall_mem_cons] at h
    rw [handedOn] at hnone
    rw [flushLoop_cons]
    obtain ⟨hrequests, hopened, hclosed⟩ := noteId_same s (raw.splitOn '\n')
    cases hdata : (raw.splitOn '\n').find? isData with
    | none =>
      simp only [hdata] at hnone ⊢
      obtain ⟨s', hloop, hr, ho, hc⟩ := ih (s := s.noteId (raw.splitOn '\n')) h.2 hnone
      exact ⟨s', hloop, hr.trans hrequests, ho.trans hopened, hc.trans hclosed⟩
    | some line =>
      obtain ⟨e, he⟩ := Option.isSome_iff_exists.mp (h.1 line hdata)
      rw [parseLine] at he
      simp only [hdata, he, List.forall_mem_cons] at hnone ⊢
      have hopen : closes e = false := Bool.eq_false_iff.mpr fun hc => by simp [hcloses e hc] at hnone
      rw [if_neg (by simp [hnone.1])] at hnone ⊢
      obtain ⟨s', hloop, hr, ho, hc⟩ := ih (s := (s.noteId (raw.splitOn '\n')).onEvent closes e) h.2 hnone.2
      rw [onEvent, hopen] at hr ho hc
      exact ⟨s', hloop, hr.trans hrequests, ho.trans hopened, hc.trans hclosed⟩

theorem opened_onEvent (closes : ε → Bool) (s : Subscription ε) (e : ε) : (s.onEvent closes e).opened =
    s.opened := by
  unfold onEvent
  dsimp only
  split
  · unfold close
    split <;> rfl
  · rfl

theorem aborted_onComplete (h : s.opened = 1) : (s.onComplete.requests 0).aborted = true := by
  have hxhr : xhr ({ s with terminal := true }.record .complete) = 0 := by simp [xhr, record, h]
  rw [onComplete, abort, hxhr, setRequest]
  dsimp only
  rw [Function.update_self]

/-- With a terminal event the request ends. -/
theorem flushLoop_of_terminal {left : List Char} {raws : List (List Char)}
    (h : ReadableData w (raws.map (List.splitOn '\n'))) (hopened : s.opened = 1)
    (hterm : ∃ item ∈ handedOn w raws, w.isTerminal item.1) :
    ((flushLoop w closes left s raws).1.requests 0).aborted = true := by
  induction raws generalizing s with
  | nil =>
    obtain ⟨item, hitem, -⟩ := hterm
    cases hitem
  | cons raw raws ih =>
    rw [ReadableData, List.map_cons, List.forall_mem_cons] at h
    rw [handedOn] at hterm
    rw [flushLoop_cons]
    have hnoted := (noteId_same s (raw.splitOn '\n')).2.1.trans hopened
    cases hdata : (raw.splitOn '\n').find? isData with
    | none =>
      simp only [hdata] at hterm
      exact ih h.2 hnoted hterm
    | some line =>
      obtain ⟨e, he⟩ := Option.isSome_iff_exists.mp (h.1 line hdata)
      rw [parseLine] at he
      simp only [hdata, he] at hterm ⊢
      have hevent := (opened_onEvent closes _ e).trans hnoted
      by_cases hlast : w.isTerminal e
      · rw [if_pos hlast]
        exact aborted_onComplete hevent
      · rw [if_neg hlast] at hterm ⊢
        obtain ⟨item, hitem, hitemTerm⟩ := hterm
        rcases List.mem_cons.mp hitem with rfl | hitem
        · exact (hlast hitemTerm).elim
        · exact ih h.2 hevent ⟨item, hitem, hitemTerm⟩

theorem receive_of_aborted {app : App ε} (h : (app.subscription.requests 0).aborted = true)
    (pieces : List (List Char)) : pieces.foldl (App.receive w closes) app = app := by
  induction pieces with
  | nil => rfl
  | cons piece pieces ih =>
    have hsame : app.receive w closes piece = app := by simp [App.receive, live, h]
    rw [List.foldl_cons, hsame, ih]

theorem flush_eq (w : Wire ε) (closes : ε → Bool) {chunk left : List Char} {raws : List (List Char)}
    (hclosed : s.closed = false)
    (hopened : s.opened = 1) (hchunk : (s.requests 0).responseText.drop (s.requests 0).cursor = chunk)
    (hne : chunk ≠ []) (hsplit : splitEvents ((s.requests 0).buffer ++ replaceCrlf chunk) = (raws, left)) :
    ∃ loop, loop = flushLoop w closes left
        (s.setRequest 0 { s.requests 0 with cursor := (s.requests 0).responseText.length }) raws ∧
      s.flush w closes 0 = loop.1.setRequest 0 { loop.1.requests 0 with buffer := loop.2 } := by
  refine ⟨_, rfl, ?_⟩
  rw [flush]
  simp only [hclosed, xhr, hopened, hchunk, hne, hsplit]
  rfl

theorem requests_grow (s : Subscription ε) (text : List Char) : (grow s text).requests 0 =
    { s.requests 0 with responseText := (s.requests 0).responseText ++ text } := by
  rw [grow, setRequest]
  dsimp only
  rw [Function.update_self]

/-- One growth of the text that a subscription waits for. -/
theorem Waiting.receive {app : App ε} {buffer text left : List Char} {raws : List (List Char)}
    (h : Waiting app.subscription buffer) (hsolid : NoBlank buffer)
    (hsplit : splitEvents (buffer ++ replaceCrlf text) = (raws, left))
    (hcloses : ∀ e, closes e → w.isTerminal e) (hread : ReadableData w (raws.map (List.splitOn '\n'))) :
    (app.receive w closes text).handed = app.handed ++ handedOn w raws ∧
      called (app.receive w closes text).subscription = called app.subscription ++ (handedOn w raws).map Prod.fst ∧
      ((∃ item ∈ handedOn w raws, w.isTerminal item.1) →
        ((app.receive w closes text).subscription.requests 0).aborted = true) ∧
      ((∀ item ∈ handedOn w raws, w.isTerminal item.1 = false) →
        Waiting (app.receive w closes text).subscription left) := by
  have hlive : app.subscription.live 0 = true := by simp [live, h.opened, h.aborted]
  have hrequest := requests_grow app.subscription text
  have hchunk : ((grow app.subscription text).requests 0).responseText.drop
      ((grow app.subscription text).requests 0).cursor = text := by
    rw [hrequest]
    simp [h.cursor]
  rw [App.receive, if_pos hlive, h.buffer, hsplit]
  by_cases htext : text = []
  · subst htext
    rw [replaceCrlf, List.append_nil, splitEvents_noBlank hsolid, Prod.mk.injEq] at hsplit
    obtain ⟨rfl, rfl⟩ := hsplit
    have hflush : (grow app.subscription []).flush w closes 0 = grow app.subscription [] := by
      rw [flush]
      dsimp only
      rw [hchunk, if_pos rfl, ite_self]
    rw [hflush]
    refine ⟨rfl, (List.append_nil _).symm, fun hterm => ?_, fun _ => ⟨h.opened, h.closed, ?_, ?_, ?_⟩⟩
    · obtain ⟨item, hitem, -⟩ := hterm
      cases hitem
    · rw [hrequest]
      exact h.aborted
    · rw [hrequest]
      simpa using h.cursor
    · rw [hrequest]
      exact h.buffer
  · have hbuffer : splitEvents (((grow app.subscription text).requests 0).buffer ++ replaceCrlf text) =
        (raws, left) := by
      rw [hrequest, ← hsplit, ← h.buffer]
    obtain ⟨loop, hloop, hflush⟩ := flush_eq w closes (s := grow app.subscription text) h.closed
      h.opened hchunk htext hbuffer
    rw [hflush, if_neg htext]
    refine ⟨rfl, ?_, fun hterm => ?_, fun hnone => ?_⟩
    · rw [called, hloop]
      exact called_flushLoop left _ raws
    · rw [setRequest]
      dsimp only
      rw [Function.update_self, hloop]
      exact flushLoop_of_terminal hread h.opened hterm
    · obtain ⟨s', hs', hrequests, hopened, hclosed⟩ := flushLoop_of_none hcloses hread hnone
      rw [hs'] at hloop
      rw [hloop]
      refine ⟨hopened.trans h.opened, hclosed.trans h.closed, ?_, ?_, ?_⟩
      all_goals
        rw [setRequest]
        dsimp only
        rw [Function.update_self]
      · rw [hrequests, setRequest]
        dsimp only
        rw [Function.update_self, hrequest]
        exact h.aborted
      · rw [hrequests, setRequest]
        dsimp only
        rw [Function.update_self]

/-- A kind that is not in the list up to its first element is not in the list. -/
theorem none_of_none_upTo {β : Type} {p : β → Bool} {xs : List β} (h : ∀ x ∈ upTo p xs, p x = false) :
    ∀ x ∈ xs, p x = false := by
  induction xs with
  | nil => exact fun x hx => by cases hx
  | cons x xs ih =>
    rw [upTo] at h
    split at h
    · rename_i hx
      simp [hx] at h
    · rename_i hx
      rw [List.forall_mem_cons] at h ⊢
      exact ⟨h.1, ih h.2⟩

theorem readable_append {xs ys : List (List Line)} (h : ReadableData w (xs ++ ys)) :
    ReadableData w xs ∧ ReadableData w ys := List.forall_mem_append.mp h

theorem handed_foldl_app {app : App ε} {buffer : List Char} {items : List (ε × Option Line)}
    (pieces : List (List Char)) (h : Waiting app.subscription buffer) (hsolid : NoBlank buffer)
    (hcloses : ∀ e, closes e → w.isTerminal e)
    (hread : ReadableData w ((splitEvents (buffer ++ received pieces)).1.map (List.splitOn '\n')))
    (hitems : items = upTo (fun item => w.isTerminal item.1) ((splitEvents (buffer ++ received pieces)).1.filterMap
      fun raw => readBlock (parseLine w) (raw.splitOn '\n'))) :
    (pieces.foldl (App.receive w closes) app).handed = app.handed ++ items ∧
      called (pieces.foldl (App.receive w closes) app).subscription =
        called app.subscription ++ items.map Prod.fst := by
  induction pieces generalizing app buffer items with
  | nil =>
    rw [received, List.flatMap_nil, List.append_nil, splitEvents_noBlank hsolid] at hitems
    subst hitems
    simp [upTo]
  | cons piece pieces ih =>
    obtain ⟨raws, left, hsplit⟩ : ∃ raws left, splitEvents (buffer ++ replaceCrlf piece) = (raws, left) :=
      ⟨_, _, rfl⟩
    have hleft : NoBlank left := by
      have hnone := StreamCodec.noBlank_left (buffer ++ replaceCrlf piece)
      rwa [hsplit] at hnone
    have hbuffer : splitEvents (buffer ++ received (piece :: pieces)) =
        (raws ++ (splitEvents (left ++ received pieces)).1, (splitEvents (left ++ received pieces)).2) := by
      rw [received, List.flatMap_cons, ← List.append_assoc, splitEvents_append, hsplit]
      rfl
    rw [hbuffer, List.map_append] at hread
    obtain ⟨hraws, hrest⟩ := readable_append hread
    obtain ⟨hhanded, hcalled, habort, hwait⟩ := h.receive hsolid hsplit hcloses hraws
    have hevents := handedOn_eq hraws
    rw [hbuffer, List.filterMap_append] at hitems
    rw [List.foldl_cons]
    by_cases hterm : ∃ item ∈ handedOn w raws, w.isTerminal item.1
    · rw [receive_of_aborted (habort hterm)]
      obtain ⟨item, hitem, hitemTerm⟩ := hterm
      rw [hevents] at hitem
      rw [upTo_append_of_mem ((isPrefix_upTo _ _).subset hitem) hitemTerm, ← hevents] at hitems
      rw [hitems]
      exact ⟨hhanded, hcalled⟩
    · have hnone : ∀ item ∈ handedOn w raws, w.isTerminal item.1 = false := fun item hitem =>
        Bool.eq_false_iff.mpr fun hitemTerm => hterm ⟨item, hitem, hitemTerm⟩
      obtain ⟨hlater, hcalledLater⟩ := ih (hwait hnone) hleft hrest rfl
      rw [hevents] at hnone
      rw [upTo_append_of_none (none_of_none_upTo hnone), ← upTo_of_none (none_of_none_upTo hnone),
        ← hevents] at hitems
      rw [hlater, hcalledLater, hhanded, hcalled, hitems, List.map_append, List.append_assoc, List.append_assoc]
      exact ⟨rfl, rfl⟩

/-- A decoder of the data that the app cannot read. -/
def unreadable (w : Wire ε) (text : Line) : Option Unit := if (parseLine w text).isSome then none else some ()

theorem readable_iff (blocks : List (List Line)) :
    ReadableData w blocks ↔ blocks.filterMap (readBlock (unreadable w)) = [] := by
  rw [List.filterMap_eq_nil_iff]
  refine forall₂_congr fun block _ => ?_
  rw [readBlock]
  cases block.find? isData with
  | none => simp
  | some line =>
    rw [Option.bind_some, unreadable]
    cases hparse : parseLine w (line.drop 6) <;> simp [hparse]

/-- The app hands on the events of its blocks, and calls the handler for them. -/
theorem shown_eq (pieces : List (List Char)) (hcloses : ∀ e, closes e → w.isTerminal e)
    (hread : ReadableData w (complete ((received pieces).splitOn '\n').dropLast)) :
    shown w closes pieces =
        dispatch (parseLine w) w.isTerminal (complete ((received pieces).splitOn '\n').dropLast) ∧
      called (pieces.foldl (App.receive w closes) ⟨.start, []⟩).subscription =
        (shown w closes pieces).map Prod.fst := by
  have hraws : ReadableData w ((splitEvents ([] ++ received pieces)).1.map (List.splitOn '\n')) := by
    rw [readable_iff, ← events_splitEvents] at hread
    rw [readable_iff, List.filterMap_map]
    exact hread
  have hwait : Waiting (App.mk (start : Subscription ε) []).subscription [] := ⟨rfl, rfl, rfl, rfl, rfl⟩
  obtain ⟨hhanded, hcalled⟩ := handed_foldl_app pieces hwait (noBlank_of_notMem (by simp)) hcloses hraws rfl
  rw [shown, hhanded, hcalled, dispatch, ← events_splitEvents]
  exact ⟨rfl, rfl⟩

end App

/-! ## The same events as without cuts -/

/-- The blocks in which the pieces leave their lines in the buffer; no blank line has ended the last one. -/
def buffered (pieces : List (List Char)) : List (List Line) := ((received pieces).splitOn '\n').dropLast.splitOn []

/-- The blocks of a text that blank lines have ended. -/
def textBlocks (text : List Char) : List (List Line) := complete ((replaceCrlf text).splitOn '\n').dropLast

/-- No event of the text comes after a terminal one. -/
def TerminalLast {α : Type} (decode : Line → Option α) (terminal : α → Bool) (text : List Char) : Prop :=
  dispatch decode terminal (textBlocks text) = (textBlocks text).filterMap (readBlock decode)

/-- The blocks of the text are those of the buffer, each without what was left of its line ends. -/
theorem textBlocks_flatten {pieces : List (List Char)} (h : '\r' ∉ replaceCrlf pieces.flatten) :
    textBlocks pieces.flatten = complete (((received pieces).splitOn '\n').dropLast.map chop) := by
  have hreceived := replaceCrlf_received h
  rw [← hreceived] at h
  rw [textBlocks, ← hreceived, splitOn_replaceCrlf h, List.map_dropLast]

/-- A text in pieces that end in no line end is orderly. -/
theorem orderly_of_uncut {α : Type} {decode : Line → Option α} {terminal : α → Bool} {pieces : List (List Char)}
    (h : '\r' ∉ received pieces) : Orderly decode terminal (buffered pieces) := by
  refine orderly_of_notMem fun block hblock line hline hmem => h ?_
  have hlines : line ∈ ((received pieces).splitOn '\n').dropLast := mem_of_mem_splitOn hblock hline
  exact mem_of_mem_splitOn ((List.dropLast_subset _) hlines) hmem

theorem received_singleton (text : List Char) : received [text] = replaceCrlf text := List.append_nil _

theorem ReadableData.buffered {ε : Type} {w : StreamSubscription.Wire ε}
    (hparse : ∀ text, parseLine w (text ++ ['\r']) = parseLine w text) {lines : List Line}
    (h : ReadableData w (complete (lines.map chop))) : ReadableData w (complete lines) := by
  have hdecode : ∀ text, unreadable w (text ++ ['\r']) = unreadable w text := by simp [unreadable, hparse]
  rw [readable_iff, complete_map_chop, List.filterMap_append, List.filterMap_flatMap, List.append_eq_nil_iff] at h
  have hle := length_filterMap_le hdecode (complete lines)
  change (complete lines).flatMap (eventsIn (unreadable w)) = [] ∧ _ at h
  rw [h.1] at hle
  rw [readable_iff]
  exact List.eq_nil_of_length_eq_zero (Nat.le_zero.mp hle)

/-- **Chunks.** With cuts at any places the relay and the app dispatch the events of the text when the
blocks in their buffers are orderly, and only then when the terminal event is the last one. -/
theorem same_iff_orderly (settings : RelaySettings) {ε : Type} (w : StreamSubscription.Wire ε) (closes : ε → Bool)
    (taskId : String) (pieces : List (List Char))
    (hrelay : ∀ text, decodeJson settings (text ++ ['\r']) = decodeJson settings text)
    (happ : ∀ text, parseLine w (text ++ ['\r']) = parseLine w text)
    (hlines : '\r' ∉ replaceCrlf pieces.flatten) :
    ((Orderly (decodeEvent settings) (fun event => event.isTerminal) (buffered pieces) →
        relayed settings taskId pieces = relayed settings taskId [pieces.flatten]) ∧
      (TerminalLast (decodeEvent settings) (fun event => event.isTerminal) pieces.flatten →
        relayed settings taskId pieces = relayed settings taskId [pieces.flatten] →
        Orderly (decodeEvent settings) (fun event => event.isTerminal) (buffered pieces))) ∧
    (ReadableData w (textBlocks pieces.flatten) → (∀ e, closes e → w.isTerminal e) →
      (Orderly (parseLine w) w.isTerminal (buffered pieces) →
        shown w closes pieces = shown w closes [pieces.flatten]) ∧
      (TerminalLast (parseLine w) w.isTerminal pieces.flatten →
        shown w closes pieces = shown w closes [pieces.flatten] →
        Orderly (parseLine w) w.isTerminal (buffered pieces))) := by
  have htext := textBlocks_flatten hlines
  constructor
  · have hdecode : ∀ text, decodeEvent settings (text ++ ['\r']) = decodeEvent settings text := fun text =>
      congrArg (Option.bind · _) (hrelay text)
    have hiff := dispatch_complete_iff (fun event => event.isTerminal) hdecode
      ((received pieces).splitOn '\n').dropLast
    rw [← htext] at hiff
    rw [relayed_eq, relayed_eq, received_singleton, (List.map_injective_iff.mpr toParsed_injective).eq_iff]
    exact hiff
  · intro hread hcloses
    have hiff := dispatch_complete_iff w.isTerminal happ ((received pieces).splitOn '\n').dropLast
    rw [← htext] at hiff
    have hwhole : shown w closes [pieces.flatten] =
        dispatch (parseLine w) w.isTerminal (textBlocks pieces.flatten) := by
      rw [(shown_eq _ hcloses (by rwa [received_singleton])).1, received_singleton]
      rfl
    rw [htext] at hread
    rw [(shown_eq pieces hcloses (hread.buffered happ)).1, hwhole]
    exact hiff

def demoJson : Line := JsonText.stringify StreamCodec.demoFormat StreamCodec.demoEvent.toJson

/-- A parser that knows one text, which carriage returns may follow. -/
def demoParse {α : Type} (value : α) (text : String) : Option α :=
  if text.toList.rdropWhile (· = '\r') = demoJson then some value else none

def demoSettings : RelaySettings where
  concurrentLimit := 1
  isUrl _ := true
  jsonParse := demoParse StreamCodec.demoEvent.toJson

def demoWire : StreamSubscription.Wire SharedTypes.TaskStreamEvent where
  print _ := .ofList demoJson
  parse := demoParse StreamCodec.demoEvent
  isTerminal event := event.isTerminal

theorem demoParse_cr {α : Type} (value : α) (text : Line) :
    demoParse value (.ofList (text ++ ['\r'])) = demoParse value (.ofList text) := by
  rw [demoParse, demoParse, String.toList_ofList, String.toList_ofList, List.rdropWhile_concat_pos _ _ _ (by simp)]

theorem demoParse_json {α : Type} (value : α) : demoParse value (.ofList demoJson) = some value := by
  rw [demoParse, String.toList_ofList, if_pos (by decide +kernel)]

/-- The second event of the text is lost when the first piece ends inside the blank line before it. -/
theorem lost_of_cut_blankLine : ∃ pieces : List (List Char), '\r' ∉ replaceCrlf pieces.flatten ∧
    relayed demoSettings "t" pieces ≠ relayed demoSettings "t" [pieces.flatten] ∧
    shown demoWire (fun _ => false) pieces ≠ shown demoWire (fun _ => false) [pieces.flatten] := by
  refine ⟨["id: 1\r\ndata: ".toList ++ demoJson ++ "\r\n\r".toList,
    "\nid: 2\r\ndata: ".toList ++ demoJson ++ "\r\n\r\n".toList], ?_, fun h => ?_, fun h => ?_⟩
  · decide +kernel
  · have hlength := congrArg List.length h
    revert hlength
    decide +kernel
  · have hlength := congrArg List.length h
    revert hlength
    decide +kernel

def demoPieces : List (List Char) := ["id: 1\r\nda".toList, "ta: ".toList ++ demoJson ++ ['\r'], "\n\r\n".toList]

theorem same_of_cut_dataLine :
    relayed demoSettings "t" demoPieces = relayed demoSettings "t" [demoPieces.flatten] ∧
      shown demoWire (fun _ => false) demoPieces = shown demoWire (fun _ => false) [demoPieces.flatten] := by
  have hbuffered : buffered demoPieces = [["id: 1".toList, "data: ".toList ++ demoJson ++ ['\r']], []] := by
    decide +kernel
  have hblocks : blocksIn ["id: 1".toList, "data: ".toList ++ demoJson ++ ['\r']] =
      [["id: 1".toList, "data: ".toList ++ demoJson]] := by decide +kernel
  have hread : ReadableData demoWire (textBlocks demoPieces.flatten) := (readable_iff _).mpr (by decide +kernel)
  have horderly : ∀ (decode : Line → Option SharedTypes.TaskStreamEvent)
      (terminal : SharedTypes.TaskStreamEvent → Bool),
      decode demoJson = some StreamCodec.demoEvent → Orderly decode terminal (buffered demoPieces) := by
    intro decode terminal hdecode
    rw [hbuffered]
    refine ⟨.inr ⟨[], _, [], (StreamCodec.demoEvent, some "1".toList), hblocks, by simp, ?_, by decide +kernel,
      .inr (by simp)⟩, .inr (by simp [Orderly, blocksIn])⟩
    have hdata : ["id: 1".toList, "data: ".toList ++ demoJson].find? isData =
        some ("data: ".toList ++ demoJson) := rfl
    have hdrop : ("data: ".toList ++ demoJson).drop 6 = demoJson := rfl
    rw [readBlock, hdata, Option.bind_some, hdrop, hdecode]
    rfl
  obtain ⟨⟨hrelay, -⟩, happ⟩ := same_iff_orderly demoSettings demoWire (fun _ => false) "t" demoPieces
    (demoParse_cr _) (demoParse_cr _) (by decide +kernel)
  have hevent : decodeEvent demoSettings demoJson = some StreamCodec.demoEvent := by
    change (demoParse StreamCodec.demoEvent.toJson (.ofList demoJson)).bind _ = _
    rw [demoParse_json]
    rfl
  exact ⟨hrelay (horderly _ _ hevent), (happ hread (by simp)).1 (horderly _ _ (demoParse_json _))⟩

end ChunkedStreams
