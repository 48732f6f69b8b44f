import Delegation.CommandLine.Program
/-!
# Entry point

Hands the arguments to the program and its words to the two streams.
-/

open Delegation.CommandLine

/-- Runs the program once. -/
def main (arguments : List String) : IO UInt32 := do
  let ending := Ending.ofArguments arguments
  for line in ending.errorLines do
    (← IO.getStderr).putStrLn line
  (← IO.getStdout).putStr ending.output
  return ending.code
