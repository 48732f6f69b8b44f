import Delegation.Strategy
/-!
# Journals

A model reports what it does as it does it. A journal is the list of those reports in order: a span
is opened, an event happens, a span is closed. Spans nest, so which spans an event happens in can be
read off the journal, and `Journal.occurrences` does so.
-/

namespace Delegation

/-! ## Entries -/

/-- How much attention a report asks for. -/
inductive Level where
  | debug
  | trace
  deriving DecidableEq

/-- Something that happened in a model. Records are named by their places. -/
inductive Event where
  /-- A record was stored; `bound` says whether it became its tag's current one. -/
  | allocated (record : Nat) (tag : String) (bound : Bool)
  /-- A slot of a record was written in place. -/
  | slotSet (record : Nat) (name : String)
  /-- Methods are about to be written into a record that was found empty. -/
  | populating (record : Nat)
  /-- An instance was built with this many own properties. -/
  | constructed (own : Nat)
  /-- A replacement record was stored without a link to its constructor. -/
  | severed
  deriving DecidableEq

/-- The level an event is reported at. -/
def Event.level : Event → Level
  | .slotSet .. | .constructed .. => .trace
  | .allocated .. | .populating .. | .severed => .debug

/-- An activity that events happen in. -/
inductive Span where
  /-- An instance is built. -/
  | construct (strategy : Strategy) (tag : String)
  /-- A record is stored in place of an old one, if there was one. -/
  | replaceSlots (tag : String) (old : Option Nat) (new : Nat)
  deriving DecidableEq

/-- One report. -/
inductive Entry where
  | opened (span : Span)
  | logged (event : Event)
  | closed (span : Span)
  deriving DecidableEq

/-- Reports in the order in which they were made. -/
abbrev Journal := List Entry

/-! ## Reading a journal -/

/-- A report together with the spans around it, outermost first. -/
structure Occurrence where
  /-- The event, or the span whose end is reported. -/
  report : Event ⊕ Span
  spans : List Span
  deriving DecidableEq

namespace Journal

/-- Events and ends of spans in order, each with the spans open around it, starting in `spans`. -/
def occurrencesWithin (spans : List Span) : Journal → List Occurrence
  | [] => []
  | .opened span :: rest => occurrencesWithin (spans ++ [span]) rest
  | .logged event :: rest => ⟨.inl event, spans⟩ :: occurrencesWithin spans rest
  | .closed span :: rest => ⟨.inr span, spans.dropLast⟩ :: occurrencesWithin spans.dropLast rest

/-- The events and the ends of spans, each with the spans open around it. -/
def occurrences (j : Journal) : List Occurrence := occurrencesWithin [] j

/-- The events alone, in order. -/
def events (j : Journal) : List Event :=
  j.filterMap fun
    | .logged event => some event
    | _ => none

@[simp] theorem events_append (j k : Journal) : events (j ++ k) = events j ++ events k :=
  List.filterMap_append

end Journal

end Delegation
