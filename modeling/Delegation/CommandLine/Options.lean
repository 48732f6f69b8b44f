/-!
# Options

Settings are declared by name, and a list of arguments is read for them. A setting takes a value, or it
is a switch. A value is attached to the setting's name or, if it does not look like another setting, it
is the argument after it. What has been read is a list of mentions, in the order of the arguments.

Reading options is a service that a program makes use of, so `OptionReader` is the type of anything that
offers it. `Command.read` is the reader at hand. It goes through the arguments from left to right, and
the first problem is the answer.

A value that stands as an argument of its own is settled late: only when the next known setting or
switch is reached, or the end. So an unknown argument behind it is noticed before anything that is
wrong with the value. Settling looks for a missing value first, then for a setting given twice, then
for a value out of range.
-/

namespace Delegation.CommandLine

/-! ## Declarations -/

/-- Reads a count: an optional plus sign and digits, below two to the sixty-fourth. -/
def count? (text : List Char) : Option Nat :=
  let digits := match text with
    | '+' :: rest => rest
    | _ => text
  if digits ≠ [] ∧ digits.all Char.isDigit then
    let n := digits.foldl (fun n c => 10 * n + (c.toNat - '0'.toNat)) 0
    if n < UInt64.size then some n else none
  else none

/-- What a value is to be. -/
inductive Kind where
  | text
  | count
  deriving DecidableEq

/-- Whether a text is a value of a kind. -/
def Kind.accepts : Kind → String → Bool
  | text, _ => true
  | count, value => (count? value.toList).isSome

/-- What is given along with the name of a setting. -/
inductive Usage where
  /-- Nothing. -/
  | switch
  /-- A value; the name may be shortened to a letter. -/
  | valued (kind : Kind) (letter? : Option Char) (repeatable : Bool)
  deriving DecidableEq

/-- Something that can be given on the command line. -/
structure Setting where
  /-- The name behind two dashes. -/
  name : String
  usage : Usage
  deriving DecidableEq

namespace Setting

/-- Whether a value goes with the setting. -/
def takesValue (s : Setting) : Bool :=
  match s.usage with
  | .switch => false
  | .valued .. => true

/-- The letter behind one dash. -/
def letter? (s : Setting) : Option Char :=
  match s.usage with
  | .switch => none
  | .valued _ letter? _ => letter?

/-- Whether the setting may be given more than once. -/
def isRepeatable (s : Setting) : Bool :=
  match s.usage with
  | .switch => false
  | .valued _ _ repeatable => repeatable

/-- Whether a text may be given to the setting; a switch is given the empty one. -/
def accepts (s : Setting) (value : String) : Bool :=
  match s.usage with
  | .switch => value == ""
  | .valued kind .. => kind.accepts value

end Setting

/-- All that can be given on a command line. -/
abbrev Command := List Setting

/-! ## Reading -/

/-- A setting that was given, and its value. -/
structure Mention where
  setting : Setting
  value : String
  deriving DecidableEq

/-- What is wrong with a list of arguments; asking for help ends the reading too. -/
inductive UsageProblem where
  | unknownArgument
  /-- A setting without its value. -/
  | missingValue
  /-- A value for something that takes none. -/
  | needlessValue
  /-- Something that may be given once only, given twice. -/
  | repeated
  /-- Not a number of the range that is asked for. -/
  | notACount
  | missingStrategy
  | helpRequested
  deriving DecidableEq

/-- Finds out what of a command is given by arguments. -/
abbrev OptionReader := Command → List String → Except UsageProblem (List Mention)

/-- The values that a setting is given, in order. -/
def valuesOf (s : Setting) (ms : List Mention) : List String :=
  (ms.filter fun m => m.setting = s).map (·.value)

/-! ## Single arguments -/

/-- What an argument looks like on its own. -/
inductive Argument where
  /-- Two dashes: only values may follow. -/
  | separator
  /-- A setting that takes a value, and what is attached to its name. -/
  | setting (s : Setting) (attached : Option String)
  | switch (s : Setting)
  | help
  /-- A switch with a value attached. -/
  | overfull
  /-- It begins with a dash and is no known name. -/
  | unknown
  /-- A value, or nothing that is known. -/
  | plain (text : String)
  deriving DecidableEq

namespace Argument

/-- Splits at the first equals sign. -/
def splitAssignment : List Char → List Char × Option (List Char)
  | [] => ([], none)
  | c :: cs =>
    if c = '=' then ([], some cs)
    else
      let (name, value) := splitAssignment cs
      (c :: name, value)

theorem splitAssignment_append {name : List Char} (h : '=' ∉ name) (value : List Char) :
    splitAssignment (name ++ '=' :: value) = (name, some value) := by
  induction name with
  | nil => rfl
  | cons c cs ih =>
    rw [List.mem_cons, not_or] at h
    rw [List.cons_append, splitAssignment, if_neg (Ne.symm h.1), ih h.2]

theorem splitAssignment_of_not_mem {cs : List Char} (h : '=' ∉ cs) : splitAssignment cs = (cs, none) := by
  induction cs with
  | nil => rfl
  | cons c cs ih =>
    rw [List.mem_cons, not_or] at h
    rw [splitAssignment, if_neg (Ne.symm h.1), ih h.2]

/-- An argument behind its two dashes. -/
def ofLong (c : Command) (text : List Char) : Argument :=
  let (name, value) := splitAssignment text
  match c.find? fun s => s.name = String.ofList name with
  | some s =>
    if s.takesValue then .setting s (value.map String.ofList)
    else if value.isSome then .overfull else .switch s
  | none =>
    if name = "help".toList then if value.isSome then .overfull else .help
    else .unknown

/-- An argument behind its one dash: a letter, and what is attached to it. -/
def ofShort (c : Command) (letter : Char) (rest : List Char) : Argument :=
  match c.find? fun s => s.letter? = some letter with
  | some s =>
    .setting s (match rest with
      | [] => none
      | '=' :: value => some (String.ofList value)
      | value => some (String.ofList value))
  | none => if letter = 'h' then .help else .unknown

/-- What an argument looks like. -/
def ofText (c : Command) (text : String) : Argument :=
  match text.toList with
  | ['-', '-'] => .separator
  | '-' :: '-' :: rest => ofLong c rest
  | '-' :: letter :: rest => ofShort c letter rest
  | _ => .plain text

end Argument

/-! ## Lists of arguments -/

/-- Adds a mention, if the setting may be given once more and may be given this value. -/
def give (given : List Mention) (s : Setting) (value : String) : Except UsageProblem (List Mention) :=
  if s.isRepeatable = false ∧ s ∈ given.map (·.setting) then .error .repeated
  else if s.accepts value then .ok (given ++ [⟨s, value⟩])
  else .error .notACount

/-- Settles a setting whose value is an argument of its own, if there is one to settle. -/
def settle (given : List Mention) : Option (Setting × Option String) → Except UsageProblem (List Mention)
  | none => .ok given
  | some (_, none) => .error .missingValue
  | some (s, some value) => give given s value

/-- Reads arguments after others that have given something; `pending` is the setting still to be
settled. -/
def Command.readAfter (c : Command) (given : List Mention) (pending : Option (Setting × Option String)) :
    List String → Except UsageProblem (List Mention)
  | [] => settle given pending
  | argument :: rest =>
    match Argument.ofText c argument with
    | .separator => if rest = [] then settle given pending else .error .unknownArgument
    | .overfull => .error .needlessValue
    | .unknown => .error .unknownArgument
    | .help => do
      let _ ← settle given pending
      .error .helpRequested
    | .switch s => do
      let given ← settle given pending
      let given ← give given s ""
      c.readAfter given none rest
    | .setting s (some value) => do
      let given ← settle given pending
      let given ← give given s value
      c.readAfter given none rest
    | .setting s none => do
      let given ← settle given pending
      c.readAfter given (some (s, none)) rest
    | .plain value =>
      match pending with
      | some (s, none) => c.readAfter given (some (s, some value)) rest
      | _ => .error .unknownArgument

/-- Reads arguments. -/
def Command.read : OptionReader := fun c arguments => c.readAfter [] none arguments

end Delegation.CommandLine
