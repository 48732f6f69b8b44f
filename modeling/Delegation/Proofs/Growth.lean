import Delegation.Proofs.LatestWrite

/-!
# Growing arrays

An array never changes, so whoever wants it longer reads it, makes a longer one and writes that back.
Written back, it is an own property, even where the array was read from a shared record: the record and
all other instances keep what they have, and the instance shows the record's slot again as soon as it
gives its own property up.

`World.append` is one such round and `World.appendAll` are many, up to the first fault. However many
rounds there are, and wherever the first of them reads from, they come to a single write of an own
property (`appendAll_eq_ok`); what a round finds is what the round before has written. So everything else
is said by what that one act does to the world.
-/

namespace Delegation

variable {β : Type}

/-! ## Rounds -/

namespace World

/-- Reads a property of an instance, puts a value behind the array that is found there, and makes the
longer array an own property. -/
def append (w : World β) (i : Nat) (name : String) (extra : Value (Method β)) :
    Except Fault (World β) :=
  match w.objects[i]? with
  | none => .ok w
  | some o => do
    let found ← w.model.get o name
    let longer ← found.concat extra
    return w.step (.setOwn i name longer)

/-- Appends values one by one. The first fault ends it, and leaves the world as it is by then. -/
def appendAll (w : World β) (i : Nat) (name : String) :
    List (Value (Method β)) → Except Fault Unit × World β
  | [] => (.ok (), w)
  | extra :: rest =>
    match w.append i name extra with
    | .ok w' => w'.appendAll i name rest
    | .error f => (.error f, w)

variable {w : World β} {i : Nat} {o : Instance β} {name : String}

theorem append_array (ho : w.objects[i]? = some o) {items : List (Value (Method β))}
    (hget : w.model.get o name = .ok (.array items)) (extra : Value (Method β)) :
    w.append i name extra = .ok (w.step (.setOwn i name (.array (items ++ extra.spread)))) := by
  simp only [append, ho, hget]
  rfl

theorem append_not_array (ho : w.objects[i]? = some o) {v : Value (Method β)}
    (hget : w.model.get o name = .ok v) (hv : v.asArray = none) (extra : Value (Method β)) :
    w.append i name extra = .error (.typeError "concat called on a non-array value") := by
  simp only [append, ho, hget]
  cases v with
  | array => cases hv
  | _ => rfl

/-! ## Own properties -/

theorem getElem?_setOwn (ho : w.objects[i]? = some o) (name : String) (value : Value (Method β)) :
    (w.step (.setOwn i name value)).objects[i]? = some (o.setOwn name value) := by
  simp [step, Array.getElem?_modify, ho]

theorem getElem?_deleteOwn (ho : w.objects[i]? = some o) (name : String) :
    (w.step (.deleteOwn i name)).objects[i]? = some (o.deleteOwn name) := by
  simp [step, Array.getElem?_modify, ho]

/-- An own property that is written twice has the value of the second write. -/
theorem setOwn_setOwn (w : World β) (i : Nat) (name : String) (first second : Value (Method β)) :
    (w.step (.setOwn i name first)).step (.setOwn i name second) =
      w.step (.setOwn i name second) := by
  have hobjects : (w.objects.modify i (·.setOwn name first)).modify i (·.setOwn name second) =
      w.objects.modify i (·.setOwn name second) := by
    apply Array.ext
    · simp
    · intro j hj hj'
      simp only [Array.getElem_modify]
      split
      · simp only [Instance.setOwn, NameMap.insert_insert]
      · rfl
  simp only [step, hobjects]

/-- The instance `o` with number `i` has become `o'`, by getting an own property; nothing else in the
world is different. -/
structure Gains (w : World β) (i : Nat) (o : Instance β) (name : String) (value : Value (Method β))
    (w' : World β) (o' : Instance β) : Prop where
  object : w'.objects[i]? = some o'
  own : o'.getOwn name = some value
  prototype : o'.prototype = o.prototype
  otherOwn : ∀ other, other ≠ name → o'.getOwn other = o.getOwn other
  otherShown : ∀ other, other ≠ name → w'.model.get o' other = w.model.get o other
  /-- No record is written, or counts a write. -/
  model : w'.model = w.model
  elsewhere : ∀ j, j ≠ i → w'.objects[j]? = w.objects[j]?
  shownElsewhere : ∀ j p, j ≠ i → w'.objects[j]? = some p →
    ∀ name', w'.model.get p name' = w.model.get p name'

theorem gains_setOwn (ho : w.objects[i]? = some o) (name : String) (value : Value (Method β)) :
    w.Gains i o name value (w.step (.setOwn i name value)) (o.setOwn name value) := by
  have hother : ∀ other, other ≠ name → (o.setOwn name value).getOwn other = o.getOwn other :=
    fun other hne => NameMap.get?_insert_of_ne o.own value hne
  constructor
  case object => exact getElem?_setOwn ho name value
  case own => exact NameMap.get?_insert_self o.own name value
  case prototype => rfl
  case otherOwn => exact hother
  case otherShown => exact fun other hne => Model.get_congr (hother other hne) rfl
  case model => rfl
  case elsewhere =>
    intro j hj
    simp only [step, Array.getElem?_modify]
    rw [if_neg (Ne.symm hj)]
  case shownElsewhere => exact fun j p hj hp name' => rfl

/-- An instance that gives its own property up shows the slot of its record. -/
theorem get_deleteOwn (hproto : ∀ id, o.prototype = some id → ∃ r, w.model.record? id = some r)
    (name : String) (value : Value (Method β)) :
    w.model.get ((o.setOwn name value).deleteOwn name) name =
      match o.prototype.bind fun id => w.model.slot? id name with
      | some v => .ok v
      | none => .error (.propertyNotFound name) := by
  have hown : ((o.setOwn name value).deleteOwn name).getOwn name = none := by
    rw [Instance.getOwn, Instance.deleteOwn, NameMap.get?_erase, if_pos rfl]
  rw [Model.get_eq (o := (o.setOwn name value).deleteOwn name) hproto, hown, Option.none_or]
  rfl

/-! ## Many rounds -/

/-- **One write.** All rounds together write the array with everything that was appended, once. -/
theorem appendAll_eq_ok (ho : w.objects[i]? = some o) {items : List (Value (Method β))}
    (hget : w.model.get o name = .ok (.array items)) {extras : List (Value (Method β))}
    (hextras : extras ≠ []) :
    w.appendAll i name extras =
      (.ok (), w.step (.setOwn i name (.array (items ++ extras.flatMap Value.spread)))) := by
  induction extras generalizing w o items with
  | nil => exact absurd rfl hextras
  | cons extra rest ih =>
    rw [appendAll, append_array ho hget]
    cases rest with
    | nil => simp [appendAll]
    | cons next rest =>
      -- the next round reads what this one has written
      have hfound : (w.step (.setOwn i name (.array (items ++ extra.spread)))).model.get
          (o.setOwn name (.array (items ++ extra.spread))) name =
            .ok (.array (items ++ extra.spread)) :=
        Model.get_own (NameMap.get?_insert_self ..)
      have hrounds := ih (getElem?_setOwn ho name _) hfound (List.cons_ne_nil next rest)
      simp only [hrounds, setOwn_setOwn, List.flatMap_cons, List.append_assoc]

theorem appendAll_not_array (ho : w.objects[i]? = some o) {v : Value (Method β)}
    (hget : w.model.get o name = .ok v) (hv : v.asArray = none)
    {extras : List (Value (Method β))} (hextras : extras ≠ []) :
    w.appendAll i name extras = (.error (.typeError "concat called on a non-array value"), w) := by
  cases extras with
  | nil => exact absurd rfl hextras
  | cons extra rest => rw [appendAll, append_not_array ho hget hv]

/-- Arrays that are appended one after another come to their concatenation. -/
theorem flatMap_spread_arrays (arrays : List (List (Value (Method β)))) :
    (arrays.map Value.array).flatMap Value.spread =
      [Value.array arrays.flatten].flatMap Value.spread := by
  simp [List.flatMap_map, Value.spread, List.flatMap_id']

/-- **Growth is private.** Let the prototype of an instance be in order, and let the instance show an
array under a name, be it its own or its record's. Appending any values then is never refused, and gives
the instance an own array: the one it showed, with the items of every appended array and every other
appended value behind it, so that appending arrays one by one is appending their concatenation. Nothing
else is different afterwards, in the model or at any instance. An instance that gives the property up
again shows the slot of its record, which is the array it began with if it came from there, or misses
the property if there is no such slot. Where the instance shows anything else, the first value already
is refused, and nothing is different at all. -/
theorem array_grows_privately {w : World β} {i : Nat} {o : Instance β} (ho : w.objects[i]? = some o)
    (hproto : ∀ id, o.prototype = some id → ∃ r, w.model.record id = .ok r) (name : String) :
    (∀ items, w.model.get o name = .ok (.array items) → ∀ extras, extras ≠ [] →
      ∃ w' o', w.appendAll i name extras = (.ok (), w') ∧
        w.Gains i o name (.array (items ++ extras.flatMap Value.spread)) w' o' ∧
        ∃ o'', (w'.step (.deleteOwn i name)).objects[i]? = some o'' ∧
          ((w'.step (.deleteOwn i name)).model.get o'' name =
            match o.prototype.bind fun id => w.model.slot? id name with
            | some v => .ok v
            | none => .error (.propertyNotFound name)) ∧
          (o.getOwn name = none →
            (w'.step (.deleteOwn i name)).model.get o'' name = .ok (.array items))) ∧
    (∀ items, w.model.get o name = .ok (.array items) → ∀ arrays, arrays ≠ [] →
      w.appendAll i name (arrays.map Value.array) =
        w.appendAll i name [Value.array arrays.flatten]) ∧
    ∀ v, w.model.get o name = .ok v → v.asArray = none → ∀ extras, extras ≠ [] →
      w.appendAll i name extras = (.error (.typeError "concat called on a non-array value"), w) := by
  have hfound : ∀ id, o.prototype = some id → ∃ r, w.model.record? id = some r := by
    intro id hid
    obtain ⟨r, hr⟩ := hproto id hid
    exact ⟨r, Model.record_eq_ok_iff.1 hr⟩
  refine ⟨?_, ?_, fun v hget hv extras => appendAll_not_array ho hget hv⟩
  · intro items hget extras hextras
    have hdeleted := get_deleteOwn hfound name (.array (items ++ extras.flatMap Value.spread))
    refine ⟨_, _, appendAll_eq_ok ho hget hextras, gains_setOwn ho name _, _,
      getElem?_deleteOwn (getElem?_setOwn ho name _) name, hdeleted, fun hown => ?_⟩
    -- the array came from the record, and it is still there
    rw [Model.get_eq hfound, hown, Option.none_or] at hget
    exact hdeleted.trans hget
  · intro items hget arrays harrays
    rw [appendAll_eq_ok ho hget (by simpa using harrays),
      appendAll_eq_ok ho hget (List.cons_ne_nil _ _), flatMap_spread_arrays]

/-- A world of two instances that share a record with an array of friends, and a clone of the first. -/
def friends : World Unit := (World.new 0 {}).after [
  .clone 0,
  .operate (.construct .constructorWithPrototype ∅ ∅ "T"),
  .operate (.mutateSharedSlot "T" "friends" (.array [.string "Lily"])),
  .operate (.construct .constructorWithPrototype ∅ ∅ "T")]

/-- The first instance grows its friends by an array within an array, of which one level is spread, and
by a text. The sharer and the clone keep the record's array, to which the instance returns. -/
theorem array_grows_privately_friends :
    ∃ w' o o' o'', friends.objects[0]? = some o ∧
      friends.model.get o "friends" = .ok (.array [.string "Lily"]) ∧
      friends.appendAll 0 "friends" [.array [.array [.null]], .string "mike"] = (.ok (), w') ∧
      friends.Gains 0 o "friends" (.array [.string "Lily", .array [.null], .string "mike"]) w' o' ∧
      (∃ p, w'.objects[1]? = some p ∧ w'.model.get p "friends" = .ok (.array [.string "Lily"])) ∧
      (∃ p, w'.objects[2]? = some p ∧ w'.model.get p "friends" = .ok (.array [.string "Lily"])) ∧
      (w'.step (.deleteOwn 0 "friends")).objects[0]? = some o'' ∧
      (w'.step (.deleteOwn 0 "friends")).model.get o'' "friends" = .ok (.array [.string "Lily"]) ∧
      friends.appendAll 0 "friends" [.array [.null], .array [.null]] =
        friends.appendAll 0 "friends" [.array [.null, .null]] := by
  have hproto : ∀ id, (⟨∅, some (.ofParts 0 0)⟩ : Instance Unit).prototype = some id →
      ∃ r, friends.model.record id = .ok r := by
    rintro id ⟨⟩
    exact ⟨_, rfl⟩
  obtain ⟨hgrows, hjoined, -⟩ := array_grows_privately (w := friends) (i := 0) rfl hproto "friends"
  obtain ⟨w', o', hrun, hgains, o'', ho'', -, hback⟩ :=
    hgrows [.string "Lily"] rfl [.array [.array [.null]], .string "mike"] (by simp)
  refine ⟨w', _, o', o'', rfl, rfl, hrun, hgains, ?_, ?_, ho'', hback rfl,
    hjoined [.string "Lily"] rfl [[.null], [.null]] (by simp)⟩
  · have hp := hgains.elsewhere 1 (by decide)
    exact ⟨_, hp, hgains.shownElsewhere 1 _ (by decide) hp "friends"⟩
  · have hp := hgains.elsewhere 2 (by decide)
    exact ⟨_, hp, hgains.shownElsewhere 2 _ (by decide) hp "friends"⟩

end World

end Delegation
