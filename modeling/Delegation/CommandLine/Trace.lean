import Delegation.Reported
/-!
# Traces

A journal as lines for another program to read, one document a line: every event with the spans open
around it, and a line for the end of every span.
-/

namespace Delegation.CommandLine

/-- Where the lines say they come from. -/
def traceTarget : String := "proto_js::model"

/-- A span with its name among its fields. -/
def spanDocument (s : Span) : Document := .object (("name", .string s.name) :: s.fields)

/-- One line, with the span it is mainly about if there is one, and the spans around it. -/
def lineDocument (level : Level) (message : String) (fields : List (String × Document))
    (span : Option Span) (spans : List Span) : Document :=
  .object ([
    ("level", .string level.name),
    ("fields", .object (("message", .string message) :: fields)),
    ("target", .string traceTarget)]
    ++ (match span with
      | some s => [("span", spanDocument s), ("spans", .list (spans.map spanDocument))]
      | none => []))

/-- The line of an occurrence. -/
def occurrenceDocument (o : Occurrence) : Document :=
  match o.report with
  | .inl event => lineDocument event.level event.message event.fields o.spans.getLast? o.spans
  | .inr span => lineDocument .debug "close" [] (some span) o.spans

/-- The lines of a journal. -/
def traceDocuments (j : Journal) : List Document := j.occurrences.map occurrenceDocument

end Delegation.CommandLine
