import Delegation.CommandLine.Options
/-!
# Configurations

What the command line asks for, and the settings that say it. Some may be given any number of times, and
some have a value of their own when they are not given. Only the strategy has to be.
-/

namespace Delegation.CommandLine

namespace Setting

/-- The strategy that all instances are built with. -/
def strategy : Setting := ⟨"strategy", .valued .text (some 's') false⟩

/-- The tag of all instances. -/
def tag : Setting := ⟨"tag", .valued .text (some 't') false⟩

/-- A field of every instance, as a name, an equals sign and a literal. -/
def field : Setting := ⟨"field", .valued .text (some 'f') true⟩

/-- The name of a method. -/
def method : Setting := ⟨"method", .valued .text (some 'm') true⟩

/-- How many instances are built. -/
def count : Setting := ⟨"count", .valued .count (some 'n') false⟩

/-- How many instances are built before the prototype is replaced. -/
def replaceAfter : Setting := ⟨"replace-after", .valued .count none false⟩

/-- The name of a method of the replacement. -/
def replaceMethod : Setting := ⟨"replace-method", .valued .text none true⟩

/-- Whether the trace is to be seen. -/
def trace : Setting := ⟨"trace", .switch⟩

end Setting

/-- What the command line asks for. -/
structure Configuration where
  strategy : String
  tag : String
  /-- The fields as they were given, in order. -/
  fields : List String
  methods : List String
  count : Nat
  replaceAfter : Option Nat
  replaceMethods : List String
  trace : Bool
  deriving DecidableEq

namespace Configuration

/-- The settings of a configuration. -/
def command : Command :=
  [.strategy, .tag, .field, .method, .count, .replaceAfter, .replaceMethod, .trace]

/-- The configuration that mentions add up to: a strategy is required, and the rest has defaults. -/
def ofMentions (ms : List Mention) : Except UsageProblem Configuration :=
  let countOf (s : Setting) := (valuesOf s ms).head?.bind fun value => count? value.toList
  match (valuesOf .strategy ms).head? with
  | none => .error .missingStrategy
  | some strategy => .ok {
      strategy
      tag := (valuesOf .tag ms).head?.getD "Person"
      fields := valuesOf .field ms
      methods := valuesOf .method ms
      count := (countOf .count).getD 2
      replaceAfter := countOf .replaceAfter
      replaceMethods := valuesOf .replaceMethod ms
      trace := (valuesOf .trace ms).head?.isSome }

/-- The configuration that arguments ask for, with a reader of options to find out what they give. -/
def ofArguments (read : OptionReader) (arguments : List String) : Except UsageProblem Configuration := do
  ofMentions (← read command arguments)

end Configuration

end Delegation.CommandLine
