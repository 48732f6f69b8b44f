import Delegation.Document
import Delegation.Journal
/-!
# Reports in words

The wording of journals: a message and named fields for every event, a name and fields for every
span. Records are named by their places, strategies and tags by their names. A replacement shows no
old record when there was none.
-/

namespace Delegation

/-- The name of a level. -/
def Level.name : Level → String
  | .debug => "DEBUG"
  | .trace => "TRACE"

namespace Event

/-- What happened. -/
def message : Event → String
  | .allocated .. => "allocated prototype record"
  | .slotSet .. => "set prototype slot"
  | .populating .. => "populating prototype lazily"
  | .constructed .. => "constructed instance"
  | .severed => "severed constructor link on replacement record"

/-- What it happened to. -/
def fields : Event → List (String × Document)
  | .allocated record tag bound =>
    [("record", .integer record), ("tag", .string tag), ("bind", .bool bound)]
  | .slotSet record name => [("record", .integer record), ("name", .string name)]
  | .populating record => [("record", .integer record)]
  | .constructed own => [("own", .integer own)]
  | .severed => []

end Event

namespace Span

/-- The activity. -/
def name : Span → String
  | .construct .. => "construct"
  | .replaceSlots .. => "replace_slots"

/-- What the activity is about. -/
def fields : Span → List (String × Document)
  | .construct strategy tag => [("strategy", .string strategy.name), ("tag", .string tag)]
  | .replaceSlots tag none new => [("tag", .string tag), ("new", .integer new)]
  | .replaceSlots tag (some old) new =>
    [("tag", .string tag), ("old", .integer old), ("new", .integer new)]

end Span

end Delegation
