import Delegation.CommandLine.Report
import Delegation.CommandLine.Trace
/-!
# The program

What the program does with its arguments: an exit code, and what it writes to either stream. A
report goes to standard output, without a line end; everything that went wrong, and the trace if it
was asked for, goes to standard error.
-/

namespace Delegation.CommandLine

/-- How a run of the program ends. -/
inductive Ending where
  /-- The arguments could not be read, or asked for help. -/
  | usage (problem : UsageProblem)
  /-- There is no report; the trace stands before the reason. -/
  | failed (failure : Failure) (trace : List Document)
  | reported (report : Document) (trace : List Document)

/-- What the program does with its arguments, which the reader at hand goes through. -/
def Ending.ofArguments (arguments : List String) : Ending :=
  match Configuration.ofArguments Command.read arguments with
  | .error problem => .usage problem
  | .ok c =>
    let (answer, journal) := c.run
    let trace := if c.trace then traceDocuments journal else []
    match answer with
    | .error failure => .failed failure trace
    | .ok report => .reported report.document trace

/-! ## Words for usage -/

/-- What can be given to the program. -/
def usageText : String := "\n".intercalate [
  "Construct objects and report how they share prototype state",
  "",
  "Options:",
  "  -s, --strategy STRATEGY    construction strategy (required)",
  "  -t, --tag TAG              creator tag (default: Person)",
  "  -f, --field NAME=VALUE     own field, repeatable",
  "  -m, --method NAME          method, repeatable",
  "  -n, --count COUNT          number of instances (default: 2)",
  "      --replace-after N      replace the prototype after N constructions",
  "      --replace-method NAME  method of the replacement, repeatable",
  "      --trace                trace on standard error",
  "  -h, --help                 this text",
  ""]

/-- The wording of a usage problem. -/
def UsageProblem.message : UsageProblem → String
  | .unknownArgument => "unexpected argument"
  | .missingValue => "a value is required"
  | .needlessValue => "unexpected value"
  | .repeated => "an argument cannot be used multiple times"
  | .notACount => "invalid value"
  | .missingStrategy => "the argument --strategy is required"
  | .helpRequested => usageText

namespace Ending

/-- The exit code. -/
def code : Ending → UInt32
  | usage .helpRequested => 0
  | usage _ => 2
  | failed (.complaint _) _ => 1
  | failed .capacityOverflow _ => 101
  | reported .. => 0

/-- What is written to standard output. -/
def output : Ending → String
  | usage .helpRequested => usageText
  | reported report _ => report.render
  | _ => ""

/-- The line that a failure is shown in. -/
def complaintLine : Failure → String
  | .complaint c => "error: " ++ c.message
  | .capacityOverflow => Failure.capacityOverflow.message

/-- The lines that are written to standard error. -/
def errorLines : Ending → List String
  | usage .helpRequested => []
  | usage problem => ["error: " ++ problem.message]
  | failed failure trace => trace.map Document.render ++ [complaintLine failure]
  | reported _ trace => trace.map Document.render

end Ending

end Delegation.CommandLine
