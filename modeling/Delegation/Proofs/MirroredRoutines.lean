import Delegation.Proofs.Mirror
import Delegation.Routine

/-!
# Mirrored routines

Routines are bodies that can be mirrored: the methods that a routine holds, at any depth of its values and
of the bodies of these methods, are given the other number of their model (`Closure.renumber`), and then
the routine does on the other side what it did (`faithful_routines`). No instruction looks at a limit,
and none at the number of a model.
-/

namespace Delegation

/-! ## Renumbering -/

mutual

/-- Gives the methods that a body holds other models. -/
def Closure.renumber (f : UInt32 → UInt32) : Closure → Closure
  | .mk code => .mk (renumberCode f code)

def renumberCode (f : UInt32 → UInt32) :
    Routine (Value (Method Closure)) → Routine (Value (Method Closure))
  | .get name => .get name
  | .getOr name fallback => .getOr name (renumberValue f fallback)
  | .const value => .const (renumberValue f value)
  | .arg place => .arg place
  | .args => .args
  | .argCount => .argCount
  | .concat name place => .concat name place
  | .call name => .call name
  | .callWith name value => .callWith name (renumberValue f value)
  | .ownKeys => .ownKeys
  | .has name => .has name
  | .typeName name => .typeName name
  | .greet => .greet
  | .fail fault => .fail fault

def renumberValue (f : UInt32 → UInt32) : Value (Method Closure) → Value (Method Closure)
  | .undefined => .undefined
  | .null => .null
  | .bool b => .bool b
  | .number x => .number x
  | .string s => .string s
  | .array items => .array (renumberAll f items)
  | .method m => .method (renumberMethod f m)

def renumberAll (f : UInt32 → UInt32) :
    List (Value (Method Closure)) → List (Value (Method Closure))
  | [] => []
  | v :: vs => renumberValue f v :: renumberAll f vs

def renumberMethod (f : UInt32 → UInt32) : Method Closure → Method Closure
  | ⟨id, name, body⟩ => ⟨⟨f id.model, id.seq⟩, name, body.renumber f⟩

end

theorem code_renumber (f : UInt32 → UInt32) (body : Closure) :
    (body.renumber f).code = renumberCode f body.code := by
  cases body
  rw [Closure.renumber]
  rfl

theorem renumberAll_eq (f : UInt32 → UInt32) (vs : List (Value (Method Closure))) :
    renumberAll f vs = vs.map (renumberValue f) := by
  induction vs with
  | nil => rfl
  | cons v vs ih => rw [renumberAll, ih, List.map_cons]

namespace Mirror

/-- Routines on other models, with room for more records. -/
def routines (models : Equiv.Perm UInt32) (more : Nat) : Mirror Closure :=
  { models, bodies := Closure.renumber models, more }

variable (models : Equiv.Perm UInt32) (more : Nat)

theorem value_routines (v : Value (Method Closure)) :
    (routines models more).value v = renumberValue models v := by
  induction v using Value.induct with
  | array items ih =>
    rw [value, Value.map, Value.mapAll_eq, renumberValue, renumberAll_eq]
    exact congrArg Value.array (List.map_congr_left ih)
  | method f =>
    obtain ⟨id, name, body⟩ := f
    rw [value, Value.map, renumberValue, renumberMethod]
    rfl
  | undefined | null | bool | number | string => rfl

/-! ## Running -/

variable (σ : Mirror Closure)

theorem get_call (c : Call Closure) (name : String) :
    (σ.call c).get name = (c.get name).map σ.value := σ.get_model c.model c.this name

theorem arg_call (c : Call Closure) (place : Nat) :
    (σ.call c).arg place = σ.value (c.arg place) := by
  simp only [Call.arg, call, List.getElem?_map]
  cases c.args[place]? <;> rfl

theorem array_value (items : List (Value (Method Closure))) :
    σ.value (.array items) = .array (items.map σ.value) := by
  rw [value, Value.map, Value.mapAll_eq]
  rfl

theorem concat_value (v extra : Value (Method Closure)) :
    (σ.value v).concat (σ.value extra) = (v.concat extra).map σ.value := by
  have hspread : (σ.value extra).spread = extra.spread.map σ.value := by
    cases extra with
    | array items => rw [array_value]; rfl
    | _ => rfl
  cases v with
  | array items =>
    rw [array_value, Value.concat_array, Value.concat_array, hspread, ← List.map_append,
      ← array_value]
    rfl
  | _ => rfl

theorem asString_value (v : Value (Method Closure)) : (σ.value v).asString = v.asString := by
  cases v <;> rfl

theorem typeName_value (v : Value (Method Closure)) : (σ.value v).typeName = v.typeName := by
  cases v <;> rfl

end Mirror

section Running

variable {models : Equiv.Perm UInt32} {more : Nat}

/-- An instruction does the same on the other side, if the calls that it makes do. -/
theorem run_renumberCode {invoke invoke' :
      String → List (Value (Method Closure)) → Except Fault (Value (Method Closure))}
    {c : Call Closure}
    (hinvoke : ∀ name args, invoke' name (args.map (Mirror.routines models more).value) =
      (invoke name args).map (Mirror.routines models more).value)
    (code : Routine (Value (Method Closure))) :
    (renumberCode models code).run invoke' ((Mirror.routines models more).call c) =
      (code.run invoke c).map (Mirror.routines models more).value := by
  -- of what stands for what, only the image of the values held in the code is used
  generalize hσ : Mirror.routines models more = σ at hinvoke ⊢
  have hvalue : ∀ v, renumberValue models v = σ.value v := fun v =>
    hσ ▸ (Mirror.value_routines models more v).symm
  cases code with
  | get name => exact σ.get_call c name
  | getOr name fallback =>
    rw [renumberCode, Routine.run, Routine.run, σ.get_call]
    cases c.get name with
    | ok v => rfl
    | error f =>
      cases f with
      | propertyNotFound _ => exact congrArg Except.ok (hvalue fallback)
      | _ => rfl
  | const value => exact congrArg Except.ok (hvalue value)
  | arg place => exact congrArg Except.ok (σ.arg_call c place)
  | args => exact congrArg Except.ok (σ.array_value c.args).symm
  | argCount =>
    have hlength : (c.args.map σ.value).length = c.args.length := List.length_map _
    rw [renumberCode, Routine.run, Routine.run]
    show Except.ok (Value.number (Number.ofNat (c.args.map σ.value).length)) = _
    rw [hlength]
    rfl
  | concat name place =>
    rw [renumberCode, Routine.run, Routine.run, σ.get_call, σ.arg_call]
    cases c.get name with
    | error f => rfl
    | ok v => exact σ.concat_value v (c.arg place)
  | call name => exact hinvoke name c.args
  | callWith name value =>
    rw [renumberCode, Routine.run, Routine.run, hvalue]
    exact hinvoke name [value]
  | ownKeys =>
    have hitems : (σ.object c.this).ownKeys.map Value.string =
        (c.this.ownKeys.map Value.string).map σ.value := by
      rw [List.map_map, show (σ.object c.this).ownKeys = c.this.ownKeys from NameMap.keys_map ..]
      rfl
    rw [renumberCode, Routine.run, Routine.run]
    show Except.ok (Value.array ((σ.object c.this).ownKeys.map .string)) = _
    rw [hitems, ← σ.array_value]
    rfl
  | has name =>
    exact congrArg (fun b => Except.ok (Value.bool b)) (σ.hasProperty_model c.model c.this name)
  | typeName name =>
    rw [renumberCode, Routine.run, Routine.run, σ.get_call]
    cases c.get name with
    | error f => rfl
    | ok v => exact congrArg (fun s => Except.ok (Value.string s)) (σ.typeName_value v)
  | greet =>
    rw [renumberCode, Routine.run, Routine.run, σ.get_call, σ.arg_call, σ.asString_value]
    cases c.get "name" with
    | error f => rfl
    | ok v =>
      simp only [Except.map, bind, Except.bind, σ.asString_value]
      rfl
  | fail fault => rfl

theorem nameBound_call (σ : Mirror Closure) (c : Call Closure) :
    (σ.call c).nameBound = c.nameBound := by
  have hslots : ((σ.call c).model.prototypeRecord? (σ.call c).this).map (fun r => r.slots.size) =
      (c.model.prototypeRecord? c.this).map fun r => r.slots.size := by
    show ((σ.model c.model).prototypeRecord? (σ.object c.this)).map _ = _
    rw [σ.prototypeRecord?_model, Option.map_map]
    congr 1
    funext r
    exact NameMap.size_map ..
  rw [Call.nameBound, Call.nameBound, hslots]
  exact congrArg (· + _) (NameMap.size_map ..)

theorem runWithin_renumber (depth : Nat) (body : Closure) (c : Call Closure) :
    (body.renumber models).runWithin depth ((Mirror.routines models more).call c) =
      (body.runWithin depth c).map (Mirror.routines models more).value := by
  induction depth generalizing body c with
  | zero =>
    rw [Closure.runWithin, Closure.runWithin, code_renumber]
    exact run_renumberCode (fun _ _ => rfl) body.code
  | succ depth ih =>
    rw [Closure.runWithin, Closure.runWithin, code_renumber]
    refine run_renumberCode (fun name args => ?_) body.code
    rw [Mirror.get_call]
    cases c.get name with
    | error f => rfl
    | ok v =>
      simp only [Except.map, bind, Except.bind, Mirror.asMethod_value]
      cases v.asMethod with
      | none => rfl
      | some method => exact ih method.body { c with args }

/-- **Routines.** Renumbered routines do the same on the other side. -/
theorem faithful_routines (models : Equiv.Perm UInt32) (more : Nat) :
    (Mirror.routines models more).Faithful := by
  intro body c
  show (body.renumber models).run ((Mirror.routines models more).call c) = (body.run c).map _
  rw [Closure.run, nameBound_call]
  exact runWithin_renumber _ body c

end Running

end Delegation
