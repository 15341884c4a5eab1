/-
  Server-sent events: the wire format, and the counters of the module.

  A `StreamEvent` is what one formatter is given. Its text is an `event:` line, a `data:` line
  with one JSON object, and an empty line.

  * `lines_format`: an event is read as exactly these three lines.
-/
import AgentCorp.Lib.LineReader
import AgentCorp.Python.Json

namespace AgentCorp.Streaming

open AgentCorp.Python LineReader

/-! ## The wire format -/

/-- `format_sse`, for a dictionary. -/
def formatSse (F : FloatRepr) (event : String) (data : Dict JsonValue) : List Char :=
  "event: ".toList ++ event.toList ++ ['\n'] ++
    ("data: ".toList ++ dumps F data ++ ['\n'] ++ ['\n'])

/-- `format_token_event`. -/
def formatTokenEvent (F : FloatRepr) (now : Instant) (token : String) (index : Int)
    (provider model : String) : List Char :=
  formatSse F "token"
    [("token", .str token), ("index", .int index), ("provider", .str provider),
      ("model", .str model), ("ts", .str now.isoformat)]

/-- `format_done_event`. An empty usage is left out, as a missing one is. -/
def formatDoneEvent (F : FloatRepr) (finishReason : String) (usage : Option (Dict Int))
    (latency : Rat) (tokensSent : Int) : List Char :=
  let payload : Dict JsonValue :=
    [("finish_reason", .str finishReason), ("latency", .float (roundDigits latency 4)),
      ("tokens_sent", .int tokensSent)]
  formatSse F "done"
    (match usage with
    | some (entry :: rest) => payload.set "usage" (.counts (entry :: rest))
    | _ => payload)

/-- `format_error_event`. -/
def formatErrorEvent (F : FloatRepr) (now : Instant) (error code : String) : List Char :=
  formatSse F "error" [("error", .str error), ("code", .str code), ("ts", .str now.isoformat)]

/-- The arguments of one formatter, with the time it reads. -/
inductive StreamEvent where
  | token (token : String) (index : Int) (provider model : String) (now : Instant)
  | done (finishReason : String) (usage : Option (Dict Int)) (latency : Rat) (tokensSent : Int)
  | error (error code : String) (now : Instant)
  deriving DecidableEq, Repr

namespace StreamEvent

def format (F : FloatRepr) : StreamEvent → List Char
  | token text index provider model now => formatTokenEvent F now text index provider model
  | done finishReason usage latency tokensSent =>
      formatDoneEvent F finishReason usage latency tokensSent
  | error text code now => formatErrorEvent F now text code

def name : StreamEvent → String
  | token .. => "token"
  | done .. => "done"
  | error .. => "error"

/-- The dictionary that is sent. -/
def payload : StreamEvent → Dict JsonValue
  | token text index provider model now =>
      [("token", .str text), ("index", .int index), ("provider", .str provider),
        ("model", .str model), ("ts", .str now.isoformat)]
  | done finishReason usage latency tokensSent =>
      [("finish_reason", .str finishReason), ("latency", .float (roundDigits latency 4)),
        ("tokens_sent", .int tokensSent)] ++
      match usage with
      | some (entry :: rest) => [("usage", .counts (entry :: rest))]
      | _ => []
  | error text code now =>
      [("error", .str text), ("code", .str code), ("ts", .str now.isoformat)]

end StreamEvent

theorem format_eq (F : FloatRepr) (event : StreamEvent) :
    event.format F = formatSse F event.name event.payload := by
  cases event with
  | token => rfl
  | error => rfl
  | done _ usage =>
      rcases usage with _ | _ | _
      · rfl
      · rfl
      · rfl

/-- The two lines of an event that are not empty. -/
def eventLine (event : StreamEvent) : List Char :=
  "event: ".toList ++ event.name.toList

def dataLine (F : FloatRepr) (event : StreamEvent) : List Char :=
  "data: ".toList ++ dumps F event.payload

theorem name_mem (event : StreamEvent) : event.name ∈ ["token", "done", "error"] := by
  cases event <;> simp [StreamEvent.name]

theorem newline_not_mem_eventLine (event : StreamEvent) : '\n' ∉ eventLine event := by
  have hnames : ∀ name ∈ ["token", "done", "error"], '\n' ∉ "event: ".toList ++ name.toList := by
    decide
  exact hnames _ (name_mem event)

theorem newline_not_mem_dataLine (F : FloatRepr) (event : StreamEvent) :
    '\n' ∉ dataLine F event := by
  unfold dataLine
  rw [List.mem_append]
  exact fun hin => hin.elim (by decide) (newline_not_mem_dumps F _)

/-- **One event, three lines.** -/
theorem lines_format (F : FloatRepr) (event : StreamEvent) (rest : List Char) :
    lines '\n' (event.format F ++ rest) =
      eventLine event :: dataLine F event :: [] :: lines '\n' rest := by
  have hassoc : ∀ a b c d : List Char, a ++ b ++ ['\n'] ++ (c ++ d ++ ['\n'] ++ ['\n']) ++ rest =
      (a ++ b) ++ '\n' :: ((c ++ d) ++ '\n' :: ([] ++ '\n' :: rest)) := by
    simp
  have htext : event.format F ++ rest =
      eventLine event ++ '\n' :: (dataLine F event ++ '\n' :: ([] ++ '\n' :: rest)) := by
    rw [format_eq]
    exact hassoc _ _ _ _
  rw [htext, lines_cons (newline_not_mem_eventLine event),
    lines_cons (newline_not_mem_dataLine F event), lines_cons List.not_mem_nil]

/-! ## The counters of the module -/

structure StreamCounters where
  active : Int
  completed : Int
  cancelled : Int
  failed : Int
  totalLatency : Rat
  totalTokens : Int
  deriving DecidableEq, Repr

namespace StreamCounters

/-- `increment_active`. -/
def incrementActive (counters : StreamCounters) : StreamCounters :=
  { counters with active := counters.active + 1 }

/-- `decrement_active`: never below zero. -/
def decrementActive (counters : StreamCounters) : StreamCounters :=
  { counters with active := max 0 (counters.active - 1) }

/-- `record_completed`. -/
def recordCompleted (latency : Rat) (tokens : Int) (counters : StreamCounters) :
    StreamCounters :=
  { counters with
    completed := counters.completed + 1
    totalLatency := counters.totalLatency + latency
    totalTokens := counters.totalTokens + tokens }

/-- `record_cancelled`. -/
def recordCancelled (counters : StreamCounters) : StreamCounters :=
  { counters with cancelled := counters.cancelled + 1 }

/-- `record_failed`. -/
def recordFailed (counters : StreamCounters) : StreamCounters :=
  { counters with failed := counters.failed + 1 }

end StreamCounters

/-- A call of one of these functions. -/
inductive CounterOp where
  | increment
  | decrement
  | completed (latency : Rat) (tokens : Int)
  | cancelled
  | failed
  deriving DecidableEq, Repr

namespace CounterOp

def apply (counters : StreamCounters) : CounterOp → StreamCounters
  | increment => counters.incrementActive
  | decrement => counters.decrementActive
  | completed latency tokens => counters.recordCompleted latency tokens
  | cancelled => counters.recordCancelled
  | failed => counters.recordFailed

/-- It raises the number of completed, cancelled or failed streams. -/
def records : CounterOp → Bool
  | completed _ _ => true
  | cancelled => true
  | failed => true
  | increment => false
  | decrement => false

end CounterOp

end AgentCorp.Streaming
