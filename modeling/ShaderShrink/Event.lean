import ShaderShrink.Json.Decode

/-!
# Events

Reports carry a list of events, so that a run can be looked through after the fact. An event says
what was done to which job in which part of the program, and how it went.
-/

namespace ShaderShrink

open Json (Decoder)

/-- A record of something that was done. -/
structure Event where
  traceId : String
  /-- The job or candidate that the event is about. -/
  decisionId : String
  component : String
  event : String
  outcome : String
  errorCode : Option String
  deriving DecidableEq, Repr, Inhabited

namespace Event

/-- The outcome of an event that went well. -/
def passOutcome : String := "pass"

/-- The outcome of an event that went wrong. -/
def failOutcome : String := "fail"

/-- The outcome of an event that was left out. -/
def skipOutcome : String := "skip"

/-- An event that went well. -/
def pass (traceId decisionId component event : String) : Event :=
  ⟨traceId, decisionId, component, event, passOutcome, none⟩

/-- An event that was left out. -/
def skip (traceId decisionId component event : String) : Event :=
  ⟨traceId, decisionId, component, event, skipOutcome, none⟩

/-- An event that went wrong. -/
def fail (traceId decisionId component event code : String) : Event :=
  ⟨traceId, decisionId, component, event, failOutcome, some code⟩

/-- Whether an event went wrong. -/
def isFailure (e : Event) : Bool := e.outcome = failOutcome

/-- An event as a JSON value. -/
def toJson (e : Event) : Json :=
  .obj [("trace_id", .str e.traceId), ("decision_id", .str e.decisionId),
    ("component", .str e.component), ("event", .str e.event), ("outcome", .str e.outcome),
    ("error_code", Json.orNull (e.errorCode.map .str))]

/-- The keys of an event. -/
def keys : List String :=
  ["trace_id", "decision_id", "component", "event", "outcome", "error_code"]

/-- Decodes an event. -/
def ofJson : Decoder Event := Json.record keys <|
  Event.mk <$> Json.required "trace_id" Json.string
    <*> Json.required "decision_id" Json.string
    <*> Json.required "component" Json.string
    <*> Json.required "event" Json.string
    <*> Json.required "outcome" Json.string
    <*> Json.optional "error_code" Json.string

end Event

/-- The trace of a run: a name with the time at which the run started. -/
def freshTraceId (name stamp : String) : String := name ++ "-" ++ stamp

end ShaderShrink
