/-
  The frontend's parser of a stream, against the backend's wire format.

  `connect` reads the body of the response read by read. Its buffer is carried over, but the
  name of the current event is not, so an event is lost when a read ends between its two lines.
  `StreamConnection.connect` is this loop with what stands around it: a `fetch` that may be
  rejected or refused, and reads that may be rejected, all of which is one more call of `onError`.
  `JSON.parse` is a parameter: any function that gives back the dictionaries that were sent.

  * `connect_eq`: which events are handed on, for any reads.
  * `delivered_eq_iff`: when they are all of them.
  * `connect_roundTrip_iff`: exactly when every event reaches its handler unchanged.
-/
import AgentCorp.Streaming.StreamEvents

namespace AgentCorp.Streaming

open AgentCorp.Python LineReader

/-! ## The parser -/

/-- The white space and line terminators that `String.prototype.trim` removes. -/
def isJsSpace (c : Char) : Bool :=
  let n := c.toNat
  (9 ≤ n && n ≤ 13) || n == 0x20 || n == 0xa0 || n == 0x1680 || (0x2000 ≤ n && n ≤ 0x200a) ||
    n == 0x2028 || n == 0x2029 || n == 0x202f || n == 0x205f || n == 0x3000 || n == 0xfeff

/-- `text.trim()`. -/
def trim (text : List Char) : List Char :=
  ((text.dropWhile isJsSpace).reverse.dropWhile isJsSpace).reverse

/-- A call of one of the handlers, with its arguments. -/
inductive HandlerCall where
  | onToken (token : JsonValue) (provider model : Option JsonValue)
  | onDone (data : Dict JsonValue)
  | onError (message : JsonValue)
  deriving DecidableEq, Repr

/-- Whether a condition holds of the value. -/
def jsTruthy : JsonValue → Bool
  | .str s => s != ""
  | .int i => i != 0
  | .float x => x != 0
  | .counts _ => true

/-- `value || default`, where `none` is `undefined`. -/
def jsOr (value : Option JsonValue) (default : String) : JsonValue :=
  (value.filter jsTruthy).getD (.str default)

/-- The handler that an event name selects. -/
def callHandler (currentEvent : List Char) (parsed : Dict JsonValue) : List HandlerCall :=
  if currentEvent = "token".toList then
    [.onToken (jsOr (parsed.lookup "token") "") (parsed.lookup "provider")
      (parsed.lookup "model")]
  else if currentEvent = "done".toList then [.onDone parsed]
  else if currentEvent = "error".toList then
    [.onError (jsOr (parsed.lookup "error") "Streaming error")]
  else []

/-- One line. `parse` is `JSON.parse`, `none` where it raises, and the state is `currentEvent`. -/
def handleLine (parse : List Char → Option (Dict JsonValue)) (currentEvent line : List Char) :
    List Char × List HandlerCall :=
  let trimmed := trim line
  if trimmed = [] then (currentEvent, [])
  else if "event:".toList <+: trimmed then (trim (trimmed.drop 6), [])
  else if "data:".toList <+: trimmed then
    match parse (trim (trimmed.drop 5)) with
    | some parsed => (currentEvent, callHandler currentEvent parsed)
    | none => (currentEvent, [])
  else (currentEvent, [])

/-- The loop of `StreamConnection.connect` over the decoded reads, until the reader is done. -/
def connect (parse : List Char → Option (Dict JsonValue)) (reads : List (List Char)) :
    List HandlerCall :=
  feed '\n' (handleLine parse) [] [] reads

/-! ## The connection -/

/-- What is thrown in `connect`. -/
structure ThrownError where
  name : String
  message : String
  deriving DecidableEq, Repr

/-- The body of a response: its decoded reads, and what the next read is rejected with, if it does
    not say that the reader is done. -/
structure ResponseBody where
  reads : List (List Char)
  thrown : Option ThrownError
  deriving DecidableEq, Repr

structure FetchResponse where
  ok : Bool
  statusText : String
  body : Option ResponseBody
  deriving DecidableEq, Repr

namespace StreamConnection

/-- The `try` block of `connect`, for what its `fetch` comes to: the calls of the handlers, and
    what is thrown. -/
def attempt (parse : List Char → Option (Dict JsonValue)) :
    Except ThrownError FetchResponse → List HandlerCall × Option ThrownError
  | .error thrown => ([], some thrown)
  | .ok response =>
      if ¬ response.ok then
        ([], some ⟨"Error", "Streaming failed: " ++ response.statusText⟩)
      else
        match response.body with
        | none => ([], some ⟨"Error", "Response body is not readable"⟩)
        | some body => (Streaming.connect parse body.reads, body.thrown)

/-- The `catch` block: `disconnect` aborts silently, and anything else is an error. -/
def caught : Option ThrownError → List HandlerCall
  | none => []
  | some thrown =>
      if thrown.name ≠ "AbortError" then [.onError (.str thrown.message)] else []

/-- `StreamConnection.connect`, on a connection that is not connecting yet. -/
def connect (parse : List Char → Option (Dict JsonValue))
    (fetched : Except ThrownError FetchResponse) : List HandlerCall :=
  (attempt parse fetched).1 ++ caught (attempt parse fetched).2

/-- What is thrown does not depend on the lines. -/
def thrown (fetched : Except ThrownError FetchResponse) : Option ThrownError :=
  (attempt (fun _ => none) fetched).2

theorem attempt_thrown (parse : List Char → Option (Dict JsonValue))
    (fetched : Except ThrownError FetchResponse) :
    (attempt parse fetched).2 = thrown fetched := by
  cases fetched with
  | error error => rfl
  | ok response =>
      obtain ⟨ok, statusText, body⟩ := response
      cases ok with
      | false => rfl
      | true => cases body <;> rfl

/-- The body calls the handlers, and then what is caught does. -/
theorem connect_eq (parse : List Char → Option (Dict JsonValue))
    (fetched : Except ThrownError FetchResponse) :
    connect parse fetched = (attempt parse fetched).1 ++ caught (thrown fetched) := by
  rw [connect, attempt_thrown]

theorem connect_streamed (parse : List Char → Option (Dict JsonValue)) (statusText : String)
    (body : ResponseBody) :
    connect parse (.ok ⟨true, statusText, some body⟩) =
      Streaming.connect parse body.reads ++ caught body.thrown := rfl

theorem caught_eq (thrown : Option ThrownError) :
    caught thrown = [] ∨ ∃ message, caught thrown = [.onError (.str message)] := by
  cases thrown with
  | none => exact .inl rfl
  | some error =>
      by_cases habort : error.name ≠ "AbortError"
      · exact .inr ⟨error.message, if_pos habort⟩
      · exact .inl (if_neg habort)

end StreamConnection

/-! ## What is sent -/

/-- The call that an event should lead to. -/
def StreamEvent.sent : StreamEvent → HandlerCall
  | .token text _ provider model _ =>
      .onToken (.str text) (some (.str provider)) (some (.str model))
  | .done finishReason usage latency tokensSent =>
      .onDone (StreamEvent.done finishReason usage latency tokensSent).payload
  | .error text _ _ => .onError (.str text)

/-- The text of an error event. -/
def StreamEvent.errorText : StreamEvent → Option String
  | .error text _ _ => some text
  | _ => none

/-! ## One event -/

theorem trim_delimited {a b : Char} (ha : ¬ isJsSpace a) (hb : ¬ isJsSpace b)
    (text : List Char) : trim (a :: text ++ [b]) = a :: text ++ [b] := by
  unfold trim
  rw [List.cons_append, List.dropWhile_cons_of_neg ha, ← List.cons_append, List.reverse_append,
    List.reverse_singleton, List.singleton_append, List.dropWhile_cons_of_neg hb,
    List.reverse_cons, List.reverse_reverse]

theorem dumps_delimited (F : FloatRepr) (data : Dict JsonValue) :
    ∃ text, dumps F data = '{' :: text ++ ['}'] :=
  ⟨_, rfl⟩

/-- An event line sets the current event. -/
theorem handleLine_eventLine (parse : List Char → Option (Dict JsonValue))
    (currentEvent : List Char) (event : StreamEvent) :
    handleLine parse currentEvent (eventLine event) = (event.name.toList, []) := by
  have hnames : ∀ name ∈ ["token", "done", "error"],
      trim ("event: ".toList ++ name.toList) = "event: ".toList ++ name.toList ∧
      "event:".toList <+: "event: ".toList ++ name.toList ∧
      trim (("event: ".toList ++ name.toList).drop 6) = name.toList := by
    decide
  obtain ⟨htrim, hbefore, hname⟩ := hnames _ (name_mem event)
  unfold handleLine eventLine
  rw [htrim]
  dsimp only
  rw [if_neg (by simp), if_pos hbefore, hname]

/-- A data line calls the handler of the current event. -/
theorem handleLine_dataLine {parse : List Char → Option (Dict JsonValue)} {F : FloatRepr}
    {event : StreamEvent} (hparse : parse (dumps F event.payload) = some event.payload)
    (currentEvent : List Char) :
    handleLine parse currentEvent (dataLine F event) =
      (currentEvent, callHandler currentEvent event.payload) := by
  obtain ⟨text, htext⟩ := dumps_delimited F event.payload
  have hline : dataLine F event = 'd' :: ("ata: ".toList ++ ['{'] ++ text) ++ ['}'] := by
    unfold dataLine
    rw [htext]
    rfl
  have htrim : trim (dataLine F event) = dataLine F event := by
    rw [hline]
    exact trim_delimited (by decide) (by decide) _
  have hdata : trim ((dataLine F event).drop 5) = dumps F event.payload := by
    rw [htext]
    refine Eq.trans ?_ (trim_delimited (by decide) (by decide) text)
    rw [hline]
    rfl
  unfold handleLine
  rw [htrim]
  dsimp only
  rw [hdata, hparse, hline, if_neg (by simp), if_neg, if_pos]
  · exact ⟨' ' :: '{' :: text ++ ['}'], rfl⟩
  · rintro ⟨rest, hrest⟩
    exact absurd (List.cons.inj hrest).1 (by decide)

theorem handleLine_nil (parse : List Char → Option (Dict JsonValue)) (currentEvent : List Char) :
    handleLine parse currentEvent [] = (currentEvent, []) := rfl

/-- What an event leads to if no read ends between its lines. -/
def received (event : StreamEvent) : List HandlerCall :=
  callHandler event.name.toList event.payload

@[simp] theorem callHandler_nil (parsed : Dict JsonValue) : callHandler [] parsed = [] := by
  unfold callHandler
  rw [if_neg (by decide), if_neg (by decide), if_neg (by decide)]

theorem jsOr_str (text default : String) :
    jsOr (some (.str text)) default = .str (if text = "" then default else text) := by
  unfold jsOr
  by_cases h : text = "" <;> simp [Option.filter, jsTruthy, h]

theorem callHandler_token (parsed : Dict JsonValue) :
    callHandler "token".toList parsed =
      [.onToken (jsOr (parsed.lookup "token") "") (parsed.lookup "provider")
        (parsed.lookup "model")] := by
  unfold callHandler
  rw [if_pos rfl]

theorem callHandler_done (parsed : Dict JsonValue) :
    callHandler "done".toList parsed = [.onDone parsed] := by
  unfold callHandler
  rw [if_neg (by decide), if_pos rfl]

theorem callHandler_error (parsed : Dict JsonValue) :
    callHandler "error".toList parsed =
      [.onError (jsOr (parsed.lookup "error") "Streaming error")] := by
  unfold callHandler
  rw [if_neg (by decide), if_neg (by decide), if_pos rfl]

/-- Every event reaches one handler, unchanged but for an empty error. -/
theorem received_eq (event : StreamEvent) :
    ∃ call, received event = [call] ∧ (call = event.sent ↔ event.errorText ≠ some "") := by
  unfold received
  cases event with
  | token text index provider model now =>
      refine ⟨_, callHandler_token _, iff_of_true ?_ (by simp [StreamEvent.errorText])⟩
      by_cases htext : text = "" <;>
        simp [StreamEvent.payload, StreamEvent.sent, List.lookup_cons, jsOr_str, htext]
  | done finishReason usage latency tokensSent =>
      exact ⟨_, callHandler_done _, iff_of_true rfl (by simp [StreamEvent.errorText])⟩
  | error text code now =>
      refine ⟨_, callHandler_error _, ?_⟩
      by_cases htext : text = "" <;>
        simp [StreamEvent.payload, StreamEvent.sent, StreamEvent.errorText, jsOr_str, htext]

/-! ## A stream of events -/

/-- What the events lead to from line `i` on: one with a reset before its data line is lost. -/
def delivered (reset : ℕ → Bool) : ℕ → List StreamEvent → List HandlerCall
  | _, [] => []
  | i, event :: rest =>
      (if reset (i + 1) then [] else received event) ++ delivered reset (i + 3) rest

/-- The text of the events. -/
def streamText (F : FloatRepr) (events : List StreamEvent) : List Char :=
  events.flatMap (StreamEvent.format F)

theorem handleReset_streamText {parse : List Char → Option (Dict JsonValue)} {F : FloatRepr}
    (reset : ℕ → Bool) {events : List StreamEvent} (i : ℕ) (currentEvent : List Char)
    (hparse : ∀ event ∈ events, parse (dumps F event.payload) = some event.payload) :
    handleReset (handleLine parse) [] reset i currentEvent (lines '\n' (streamText F events)) =
      delivered reset i events := by
  induction events generalizing i currentEvent with
  | nil => rfl
  | cons event rest ih =>
      have hevent := hparse event List.mem_cons_self
      have hrest : ∀ event ∈ rest, parse (dumps F event.payload) = some event.payload :=
        fun event h => hparse event (List.mem_cons_of_mem _ h)
      have htext : streamText F (event :: rest) = event.format F ++ streamText F rest := rfl
      rw [htext, lines_format]
      -- The event line sets the name, and a reset before the data line clears it.
      simp only [handleReset, handleLine_eventLine, handleLine_dataLine hevent, handleLine_nil,
        List.nil_append, delivered]
      rw [ih _ _ hrest]
      by_cases hreset : reset (i + 1)
      · rw [if_pos hreset, if_pos hreset, callHandler_nil]
      · rw [if_neg hreset, if_neg hreset]
        rfl

/-- What the parser hands on, whatever the reads are. -/
theorem connect_eq {parse : List Char → Option (Dict JsonValue)} {F : FloatRepr}
    {events : List StreamEvent} {reads : List (List Char)}
    (hreads : reads.flatten = streamText F events)
    (hparse : ∀ event ∈ events, parse (dumps F event.payload) = some event.payload) :
    connect parse reads = delivered (cutAt '\n' 0 reads) 0 events := by
  unfold connect
  rw [feed_eq 0 reads List.not_mem_nil, List.nil_append, hreads]
  exact handleReset_streamText _ 0 [] hparse

theorem length_delivered_le (reset : ℕ → Bool) (i : ℕ) (events : List StreamEvent) :
    (delivered reset i events).length ≤ events.length := by
  induction events generalizing i with
  | nil => exact le_rfl
  | cons event rest ih =>
      have hrest := ih (i + 3)
      obtain ⟨call, hcall, -⟩ := received_eq event
      unfold delivered
      rw [hcall, List.length_append, List.length_cons]
      split <;> simp <;> omega

/-- All events are handed on unchanged exactly if none is lost and no error is empty. -/
theorem delivered_eq_iff (reset : ℕ → Bool) (i : ℕ) (events : List StreamEvent) :
    delivered reset i events = events.map StreamEvent.sent ↔
      (∀ k < events.length, ¬ reset (i + 3 * k + 1)) ∧
        ∀ event ∈ events, event.errorText ≠ some "" := by
  induction events generalizing i with
  | nil => simp [delivered]
  | cons event rest ih =>
      have hstep : (∀ k < (event :: rest).length, ¬ reset (i + 3 * k + 1)) ↔
          ¬ reset (i + 1) ∧ ∀ k < rest.length, ¬ reset (i + 3 + 3 * k + 1) := by
        rw [List.length_cons]
        constructor
        · intro h
          refine ⟨h 0 (by omega), fun k hk => ?_⟩
          have := h (k + 1) (by omega)
          rwa [show i + 3 * (k + 1) + 1 = i + 3 + 3 * k + 1 by omega] at this
        · rintro ⟨hfirst, hrest⟩ k hk
          cases k with
          | zero => exact hfirst
          | succ k =>
              rw [show i + 3 * (k + 1) + 1 = i + 3 + 3 * k + 1 by omega]
              exact hrest k (by omega)
      obtain ⟨call, hcall, hsent⟩ := received_eq event
      rw [hstep, List.forall_mem_cons, List.map_cons]
      unfold delivered
      rw [hcall]
      by_cases hreset : reset (i + 1)
      · -- One event is lost, so there are too few calls.
        rw [if_pos hreset]
        refine iff_of_false (fun heq => ?_) fun h => h.1.1 hreset
        have hlen := congrArg List.length heq
        have hle := length_delivered_le reset (i + 3) rest
        rw [List.nil_append, List.length_cons, List.length_map] at hlen
        omega
      · rw [if_neg hreset, List.singleton_append, List.cons_eq_cons, hsent, ih (i + 3)]
        tauto

theorem count_streamText (F : FloatRepr) (events : List StreamEvent) :
    (streamText F events).count '\n' = 3 * events.length := by
  induction events with
  | nil => rfl
  | cons event rest hrest =>
      rw [← length_lines] at hrest ⊢
      have htext : streamText F (event :: rest) = event.format F ++ streamText F rest := rfl
      rw [htext, lines_format]
      simp only [List.length_cons, hrest]
      omega

/-- A cut between the two lines of an event comes after `3 * k + 1` line feeds. -/
theorem cuts_iff {F : FloatRepr} {events : List StreamEvent} {reads : List (List Char)}
    (hreads : reads.flatten = streamText F events) :
    (∀ k < events.length, ¬ cutAt '\n' 0 reads (0 + 3 * k + 1)) ↔
      ∀ earlier, earlier <+: reads → earlier.flatten.count '\n' % 3 ≠ 1 := by
  constructor
  · intro h earlier hbefore hmod
    -- No part of the reads has more line feeds than all events together.
    have hle : earlier.flatten.count '\n' ≤ 3 * events.length := by
      obtain ⟨later, rfl⟩ := hbefore
      rw [← count_streamText F, ← hreads, List.flatten_append, List.count_append]
      omega
    refine h (earlier.flatten.count '\n' / 3) (by omega) (cutAt_iff.mpr ⟨earlier, hbefore, ?_⟩)
    omega
  · intro h k _ hcut
    obtain ⟨earlier, hbefore, hcount⟩ := cutAt_iff.mp hcut
    exact h earlier hbefore (by omega)

/-! ## The round trip -/

/-- A float text for streams that send no latency but zero. -/
def zeroRepr : FloatRepr where
  repr := fun _ => "0.0"
  numeral := fun _ => by decide

/-- `JSON.parse` on the dictionaries of some events. -/
def parseEvents (F : FloatRepr) (events : List StreamEvent) (text : List Char) :
    Option (Dict JsonValue) :=
  (events.find? fun event => dumps F event.payload = text).map StreamEvent.payload

def helloEvent : StreamEvent :=
  .token "Hello" 0 "groq" "llama3" ⟨0, "1970-01-01T00:00:00+00:00"⟩

/-- The first read ends after the event line. -/
def helloReads : List (List Char) :=
  ["event: token\n".toList, dataLine zeroRepr helloEvent ++ ['\n', '\n']]

/-- Read in two parts, this token never reaches its handler. -/
theorem helloReads_lost :
    helloReads.flatten = streamText zeroRepr [helloEvent] ∧
    parseEvents zeroRepr [helloEvent] (dumps zeroRepr helloEvent.payload) =
      some helloEvent.payload ∧
    connect (parseEvents zeroRepr [helloEvent]) helloReads = [] ∧
    [helloEvent].map StreamEvent.sent ≠ [] := by
  decide

/-- **Round trip.** However the text of the events is cut into reads, the parser calls the
    handlers once for each event, in order and with what was sent, exactly if no read ends
    between the two lines of an event and no error event has an empty text. -/
theorem connect_roundTrip_iff (parse : List Char → Option (Dict JsonValue)) (F : FloatRepr)
    (events : List StreamEvent) (reads : List (List Char))
    (hreads : reads.flatten = streamText F events)
    (hparse : ∀ event ∈ events, parse (dumps F event.payload) = some event.payload) :
    connect parse reads = events.map StreamEvent.sent ↔
      (∀ earlier, earlier <+: reads → earlier.flatten.count '\n' % 3 ≠ 1) ∧
        ∀ event ∈ events, event.errorText ≠ some "" := by
  rw [connect_eq hreads hparse, delivered_eq_iff, cuts_iff hreads]

/-- A stream that fails after its first token. -/
def failedStream : List StreamEvent :=
  [helloEvent, .error "Provider timeout" "provider_streaming_error"
    ⟨1, "1970-01-01T00:00:00.000001+00:00"⟩]

/-- The first read ends within the event line. -/
def failedReads : List (List Char) :=
  [(streamText zeroRepr failedStream).take 9, (streamText zeroRepr failedStream).drop 9]

theorem failedReads_roundTrip :
    connect (parseEvents zeroRepr failedStream) failedReads =
      failedStream.map StreamEvent.sent := by
  have hreads : failedReads.flatten = streamText zeroRepr failedStream := by
    simp only [failedReads, List.flatten_cons, List.flatten_nil, List.append_nil,
      List.take_append_drop]
  have hcuts : ∀ earlier ∈ failedReads.inits, earlier.flatten.count '\n' % 3 ≠ 1 := by
    decide +kernel
  refine (connect_roundTrip_iff (parseEvents zeroRepr failedStream) zeroRepr failedStream
    failedReads hreads (by decide +kernel)).mpr ⟨fun earlier hbefore => ?_, by decide⟩
  exact hcuts earlier ((List.mem_inits _ _).mpr hbefore)

end AgentCorp.Streaming
