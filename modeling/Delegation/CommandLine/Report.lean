import Delegation.CommandLine.Configuration
import Delegation.CommandLine.Literal
import Delegation.Model.Construct
import Delegation.Routine
import Delegation.Serialized
/-!
# Reports

What a configuration is answered with: the instances it asks for, built one after another on a model
of their own, and how the first of them compares with each. Every method reads the receiver's
property `name`. If the configuration says so, the tag's prototype is replaced before the instance
at a given place is built.

A configuration is turned down for the first of three reasons: the name of no strategy, a field that
is not of the form it should have, or a replacement that no construction would follow. The model
itself refuses nothing then, having no limit that could be reached.

Room for all instances is set aside before the first one is built. So many can be asked for that their
size in bytes is more than an allocation may have; then the run breaks off, with no complaint about the
configuration.
-/

namespace Delegation.CommandLine

/-! ## Reasons to turn a configuration down -/

/-- Why a configuration is turned down. -/
inductive Complaint where
  /-- A model refused a call, or the strategy is none. -/
  | fault (f : Fault)
  /-- A field without an equals sign. -/
  | malformedField (field : String)
  /-- A replacement after the last construction. -/
  | lateReplacement (after count : Nat)
  deriving DecidableEq

/-- The wording of a complaint. -/
def Complaint.message : Complaint → String
  | .fault f => f.message
  | .malformedField field => "field " ++ Text.quoted field ++ " is not of the form NAME=VALUE"
  | .lateReplacement after count =>
    "--replace-after " ++ toString after ++ " must be less than --count " ++ toString count

/-- Why there is no report. -/
inductive Failure where
  /-- The configuration was turned down. -/
  | complaint (c : Complaint)
  /-- The run broke off for want of room: no allocation is large enough for so many instances. -/
  | capacityOverflow
  deriving DecidableEq

/-- The wording of a failure. -/
def Failure.message : Failure → String
  | .complaint c => c.message
  | .capacityOverflow => "capacity overflow"

/-! ## What is built -/

/-- How many bytes an allocation may have: as many as a signed word can count. -/
def allocationLimit : Nat := Nat.pow 2 63 - 1

/-- How many bytes an instance takes: three words for its own properties, and two for the handle that
it may have. -/
def instanceSize : Nat := (3 + 2) * 8

/-- How many instances there can be room for. -/
def capacityLimit : Nat := allocationLimit / instanceSize

/-- The body of every method: the receiver's name, or undefined without one. -/
def nameReader : Closure := .mk (.getOr "name" .undefined)

/-- A table of methods with the given names. -/
def methodTable (names : List String) : MethodTable Closure :=
  .ofList (names.map fun name => (name, nameReader))

/-- Reads a field: a name, the first equals sign, and a literal. -/
def readField {β : Type} (field : String) : Except Complaint (String × Value (Method β)) :=
  match Argument.splitAssignment field.toList with
  | (name, some value) => .ok (String.ofList name, readLiteral value)
  | (_, none) => .error (.malformedField field)

/-- Reads fields; of two with one name the later counts. -/
def readFields {β : Type} (fields : List String) : Except Complaint (PropertyMap β) := do
  return .ofList (← fields.mapM readField)

/-- What is to be built, once a configuration has been accepted. -/
structure Plan (β : Type) where
  strategy : Strategy
  tag : String
  fields : PropertyMap β
  methods : MethodTable β
  /-- The place of the first construction after the replacement, and the methods that replace. -/
  replaceAfter : Option Nat
  replacement : MethodTable β

/-- The plan of a configuration, or the first reason to turn it down. -/
def Configuration.plan (c : Configuration) : Except Complaint (Plan Closure) := do
  let strategy ← (Strategy.ofName c.strategy).mapError .fault
  let fields ← readFields c.fields
  match c.replaceAfter with
  | some after =>
    if c.count ≤ after then
      .error (.lateReplacement after c.count)
  | none => pure ()
  return {
    strategy, fields
    tag := c.tag
    methods := methodTable c.methods
    replaceAfter := c.replaceAfter
    replacement := methodTable c.replaceMethods }

namespace Plan

variable {β : Type}

/-- Builds the instance at a place, after the replacement if its place has come. -/
def buildAt (p : Plan β) (place : Nat) : Action β (Instance β) := do
  if p.replaceAfter = some place then
    let _ ← Model.replacePrototype p.tag p.replacement
  Model.construct p.strategy p.fields p.methods p.tag

/-- Builds `n` instances, the first of them at `place`. -/
def buildFrom (p : Plan β) (place : Nat) : Nat → Action β (List (Instance β))
  | 0 => return []
  | n + 1 => do
    let i ← p.buildAt place
    (i :: ·) <$> p.buildFrom (place + 1) n

/-- The names of all methods, replacements included, ascending. -/
def methodNames (p : Plan β) : List String := (p.methods.overwrite p.replacement).keys

end Plan

/-! ## What is reported -/

/-- How the first instance compares with each one. -/
structure Checks where
  sharesRecord : List Bool
  /-- By method; nothing where the method is not found on one of the two instances. -/
  sameMethodReference : NameMap (List (Option Bool))
  producedBy : List Bool
  isInstanceOf : List Bool

/-- The checks of a list of instances; without a first instance there are none. -/
def checks {β : Type} (m : Model β) (tag : String) (names : List String) :
    List (Instance β) → Checks
  | [] => { sharesRecord := [], sameMethodReference := ∅, producedBy := [], isInstanceOf := [] }
  | first :: rest =>
    let all := first :: rest
    { sharesRecord := all.map fun i => m.sharesRecordWith first i
      sameMethodReference := .ofList (names.map fun name =>
        (name, all.map fun i => (m.sameMethodReference first i name).toOption))
      producedBy := all.map fun i => m.producedBy i tag
      isInstanceOf := all.map fun i => m.isInstanceOf i tag }

/-- The answer to a configuration. -/
structure Report (β : Type) where
  strategy : Strategy
  tag : String
  instances : List (Snapshot β)
  checks : Checks

/-- The report on instances that were built. -/
def Plan.report {β : Type} (p : Plan β) (m : Model β) (built : List (Instance β)) :
    Except Fault (Report β) := do
  return {
    strategy := p.strategy
    tag := p.tag
    instances := ← built.mapM m.snapshot
    checks := checks m p.tag p.methodNames built }

/-- Carries a plan out on a fresh model. -/
def Plan.carryOut {β : Type} (p : Plan β) (count : Nat) : Outcome β (Report β) :=
  (do
    let built ← p.buildFrom 0 count
    .consult fun m => p.report m built : Action β (Report β)).run (.new 0 {})

/-- The answer to a plan, and the journal of how it came about: it is carried out once there is room for
the instances. -/
def Plan.run {β : Type} (p : Plan β) (count : Nat) : Except Failure (Report β) × Journal :=
  if capacityLimit < count then (.error .capacityOverflow, [])
  else
    let o := p.carryOut count
    (o.answer.mapError fun f => .complaint (.fault f), o.journal)

/-- The answer to a configuration, and the journal of how it came about. -/
def Configuration.run (c : Configuration) : Except Failure (Report Closure) × Journal :=
  match c.plan with
  | .error complaint => (.error (.complaint complaint), [])
  | .ok p => p.run c.count

/-! ## As a document -/

/-- The document of the checks. -/
def Checks.document (c : Checks) : Document :=
  let flags (bs : List Bool) : Document := .list (bs.map .bool)
  .object [
    ("shares_record", flags c.sharesRecord),
    ("same_method_reference", .object (c.sameMethodReference.toList.map fun p =>
      (p.1, .list (p.2.map (.ofOption .bool))))),
    ("produced_by", flags c.producedBy),
    ("is_instance_of", flags c.isInstanceOf)]

/-- The document of a report. -/
def Report.document {β : Type} (r : Report β) : Document :=
  .object [
    ("schema_version", .integer 1),
    ("strategy", .string r.strategy.name),
    ("tag", .string r.tag),
    ("instances", .list (r.instances.map (·.document))),
    ("checks", r.checks.document)]

end Delegation.CommandLine
