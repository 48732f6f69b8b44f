import Delegation.Serialized
import Delegation.Proofs.DocumentTexts
import Delegation.Proofs.ValueEquality

/-!
# What documents tell apart

A document has no room for everything that a value can be: null stands for the numbers that are not
finite as well, and a method is written without its model and its body. `Value.Alike` names what is
lost, for values without an array; `Value.Pointwise Value.Alike` lays it side by side, place by place.
Nothing else is lost: values have the same document exactly if they are alike at every place
(`Value.document_eq_iff`), so the objects that stand for undefined and for methods are the document of
nothing else. Snapshots are compared part by part.

All documents of values and snapshots are exact (`Document.Exact`), and so whatever is written for them
tells as much as they do themselves, provided that it is faithful to such documents; their texts are.
-/

namespace Delegation

variable {β : Type}

namespace Value

/-! ## What a document leaves out -/

/-- Values that are written as null. -/
inductive Blank : Value (Method β) → Prop where
  | null : Blank .null
  | nan {x : Number} (h : x.isNaN = true) : Blank (.number x)
  | infinity : Blank (.number .infinity)
  | negativeInfinity : Blank (.number .negativeInfinity)

/-- Values without an array that have the same document. -/
inductive Alike : Value (Method β) → Value (Method β) → Prop where
  | undefined : Alike .undefined .undefined
  | blank {v w : Value (Method β)} (hv : v.Blank) (hw : w.Blank) : Alike v w
  | bool (b : Bool) : Alike (.bool b) (.bool b)
  | number {x : Number} (h : x.isFinite = true) : Alike (.number x) (.number x)
  | string (s : String) : Alike (.string s) (.string s)
  | method {f g : Method β} (hname : f.name = g.name) (hseq : f.id.seq = g.id.seq) :
      Alike (.method f) (.method g)

theorem blank_number_iff {x : Number} : (number x : Value (Method β)).Blank ↔ x.isFinite = false := by
  rw [Number.not_isFinite_iff]
  constructor
  · rintro (_ | h | _ | _)
    · exact .inl h
    · exact .inr (.inl rfl)
    · exact .inr (.inr rfl)
  · rintro (h | rfl | rfl)
    · exact .nan h
    · exact .infinity
    · exact .negativeInfinity

/-! ## One document for values that are alike -/

/-- Which values have which document. -/
inductive Documented : Value (Method β) → Document → Prop where
  | undefined : Documented .undefined undefinedDocument
  | blank {v : Value (Method β)} (h : v.Blank) : Documented v .null
  | bool (b : Bool) : Documented (.bool b) (.bool b)
  | number {x : Number} (h : x.isFinite = true) : Documented (.number x) (.number x)
  | string (s : String) : Documented (.string s) (.string s)
  | method (f : Method β) : Documented (.method f) f.document
  | array (items : List (Value (Method β))) : Documented (.array items) (.list (items.map document))

theorem documented (v : Value (Method β)) : Documented v v.document := by
  cases v with
  | undefined => exact .undefined
  | null => exact .blank .null
  | bool b => exact .bool b
  | number x =>
    rw [document, Number.document]
    split
    next h => exact .number h
    next h => exact .blank (blank_number_iff.2 (Bool.eq_false_iff.2 h))
  | string s => exact .string s
  | method f => exact .method f
  | array items =>
    rw [document, documents_eq]
    exact .array items

/-- The object that marks undefined stands for nothing else. -/
theorem document_eq_undefined_iff {v : Value (Method β)} :
    v.document = undefinedDocument ↔ v = .undefined := by
  constructor
  · intro h
    have hform := documented v
    rw [h] at hform
    generalize hd : undefinedDocument = d at hform
    cases hform with
    | undefined => rfl
    | method f => simp [undefinedDocument, Method.document] at hd
    | _ => cases hd
  · rintro rfl
    rfl

/-- The object of a method stands for methods of its name and age, and for nothing else. -/
theorem document_eq_method_iff {v : Value (Method β)} {f : Method β} :
    v.document = f.document ↔ ∃ g, v = .method g ∧ g.name = f.name ∧ g.id.seq = f.id.seq := by
  constructor
  · intro h
    have hform := documented v
    rw [h] at hform
    generalize hd : f.document = d at hform
    cases hform with
    | undefined => simp [undefinedDocument, Method.document] at hd
    | method g =>
      simp only [Method.document, Document.object.injEq, List.cons.injEq, Prod.mk.injEq, true_and,
        Document.string.injEq, Document.integer.injEq, Int.natCast_inj, and_true] at hd
      exact ⟨g, rfl, hd.1.symm, hd.2.symm⟩
    | _ => cases hd
  · rintro ⟨g, rfl, hname, hseq⟩
    simp only [document, Method.document, hname, hseq]

theorem Blank.leaf {v : Value (Method β)} (h : v.Blank) : v.asArray = none := by cases h <;> rfl

theorem Blank.document_eq {v : Value (Method β)} (h : v.Blank) : v.document = .null := by
  cases h with
  | nan h => exact if_neg (Bool.eq_false_iff.1 (Number.not_isFinite_iff.2 (.inl h)))
  | _ => rfl

/-- Where there is no array, values have the same document exactly if they are alike. -/
theorem document_eq_leaf_iff {v w : Value (Method β)} (hv : v.asArray = none) :
    v.document = w.document ↔ w.asArray = none ∧ Alike v w := by
  constructor
  · intro h
    have hform := documented w
    rw [← h] at hform
    have hform' := documented v
    generalize v.document = d at h hform hform'
    cases hform' with
    | undefined =>
      obtain rfl := document_eq_undefined_iff.1 h.symm
      exact ⟨rfl, .undefined⟩
    | method f =>
      obtain ⟨g, rfl, hname, hseq⟩ := document_eq_method_iff.1 h.symm
      exact ⟨rfl, .method hname.symm hseq.symm⟩
    | blank hb => cases hform with | blank hb' => exact ⟨hb'.leaf, .blank hb hb'⟩
    | bool b => cases hform with | bool => exact ⟨rfl, .bool b⟩
    | number hx => cases hform with | number => exact ⟨rfl, .number hx⟩
    | string s => cases hform with | string => exact ⟨rfl, .string s⟩
    | array => cases hv
  · rintro ⟨-, h⟩
    cases h with
    | blank hb hb' => rw [hb.document_eq, hb'.document_eq]
    | method hname hseq => exact document_eq_method_iff.2 ⟨_, rfl, hname, hseq⟩
    | _ => rfl

/-- **Documents, place by place.** Values have the same document exactly if they have the same shape
and are alike wherever there is no array. -/
theorem document_eq_iff {v w : Value (Method β)} : v.document = w.document ↔ Pointwise Alike v w := by
  induction v using induct_leaf generalizing w with
  | leaf v hv => rw [document_eq_leaf_iff hv, pointwise_leaf_iff hv]
  | array vs ih =>
    have hitems : ∀ ws : List (Value (Method β)),
        vs.map document = ws.map document ↔ List.Forall₂ (Pointwise Alike) vs ws := by
      intro ws
      rw [← List.forall₂_eq_eq_eq, List.forall₂_map_left_iff, List.forall₂_map_right_iff]
      exact forall₂_congr fun v hv w => ih v hv
    rw [pointwise_array_iff, document, documents_eq]
    constructor
    · intro h
      have hform := documented w
      rw [← h] at hform
      generalize hd : Document.list (vs.map document) = d at hform
      cases hform with
      | array ws => exact ⟨ws, rfl, (hitems ws).1 (Document.list.inj hd)⟩
      | _ => cases hd
    · rintro ⟨ws, rfl, h⟩
      rw [document, documents_eq, (hitems ws).2 h]

end Value

/-! ## Snapshots -/

/-- Two maps have the same document exactly if they have the same names, with values written alike. -/
theorem propertiesDocument_eq_iff {ps qs : PropertyMap β} :
    propertiesDocument ps = propertiesDocument qs ↔
      PropertyMap.Matches (Value.Pointwise Value.Alike) ps qs := by
  have hname : ∀ name, (ps.map Value.document).get? name = (qs.map Value.document).get? name ↔
      Option.Rel (Value.Pointwise Value.Alike) (ps.get? name) (qs.get? name) := by
    intro name
    rw [NameMap.get?_map, NameMap.get?_map]
    cases ps.get? name <;> cases qs.get? name <;> simp [Value.document_eq_iff]
  constructor
  · intro h name
    have hmaps : ps.map Value.document = qs.map Value.document :=
      NameMap.ext_toList (Document.object.inj h)
    rw [← hname, hmaps]
  · intro h
    have hmaps : ps.map Value.document = qs.map Value.document :=
      NameMap.ext_get? fun name => (hname name).2 (h name)
    exact congrArg (fun m => Document.object m.toList) hmaps

/-- Two snapshots of records that have the same document: the handles may be of different models. -/
structure RecordSnapshot.WrittenAlike (p q : RecordSnapshot β) : Prop where
  index : p.id.index = q.id.index
  creatorTag : p.creatorTag = q.creatorTag
  backLink : p.backLink = q.backLink
  slots : PropertyMap.Matches (Value.Pointwise Value.Alike) p.slots q.slots

/-- Two snapshots of instances that have the same document. -/
structure Snapshot.WrittenAlike (s t : Snapshot β) : Prop where
  own : PropertyMap.Matches (Value.Pointwise Value.Alike) s.own t.own
  prototype : Option.Rel RecordSnapshot.WrittenAlike s.prototype t.prototype

theorem ofOption_eq_iff {a b : Option String} :
    Document.ofOption .string a = Document.ofOption .string b ↔ a = b := by
  cases a <;> cases b <;> simp [Document.ofOption]

theorem RecordSnapshot.document_eq_iff {p q : RecordSnapshot β} :
    p.document = q.document ↔ p.WrittenAlike q := by
  simp only [RecordSnapshot.document, Document.object.injEq, List.cons.injEq, Prod.mk.injEq, true_and,
    and_true, Document.integer.injEq, Int.natCast_inj, UInt32.toNat_inj, Document.string.injEq,
    ofOption_eq_iff, propertiesDocument_eq_iff]
  constructor
  · rintro ⟨hindex, htag, hlink, hslots⟩
    exact ⟨hindex, htag, hlink, hslots⟩
  · rintro ⟨hindex, htag, hlink, hslots⟩
    exact ⟨hindex, htag, hlink, hslots⟩

theorem Snapshot.document_eq_iff {s t : Snapshot β} : s.document = t.document ↔ s.WrittenAlike t := by
  have hparts : s.document = t.document ↔ propertiesDocument s.own = propertiesDocument t.own ∧
      Option.Rel (fun p q => p.document = q.document) s.prototype t.prototype := by
    unfold Snapshot.document
    cases s.prototype <;> cases t.prototype <;> simp
  rw [hparts, propertiesDocument_eq_iff]
  simp only [RecordSnapshot.document_eq_iff]
  constructor
  · rintro ⟨hown, hproto⟩
    exact ⟨hown, hproto⟩
  · rintro ⟨hown, hproto⟩
    exact ⟨hown, hproto⟩

/-! ## Texts -/

/-- The numbers that are left in the document of a value are finite. -/
theorem Value.exact_document (v : Value (Method β)) : v.document.Exact := by
  induction v using Value.induct with
  | undefined => exact .object (by simp [Document.Exact.bool])
  | null => exact .null
  | bool b => exact .bool b
  | number x =>
    rw [document, Number.document]
    split
    next h => exact .number h
    next => exact .null
  | string s => exact .string s
  | array items ih =>
    rw [document, documents_eq]
    exact .list (by simpa using ih)
  | method f => exact .object (by simp [Document.Exact.string, Document.Exact.integer])

theorem exact_propertiesDocument (ps : PropertyMap β) : (propertiesDocument ps).Exact := by
  refine .object fun p hp => ?_
  obtain ⟨entry, -, rfl⟩ := List.mem_map.1 hp
  exact entry.2.exact_document

theorem RecordSnapshot.exact_document (p : RecordSnapshot β) : p.document.Exact := by
  have hlink : (Document.ofOption .string p.backLink).Exact := by
    cases p.backLink with
    | none => exact .null
    | some tag => exact .string tag
  exact .object (by
    simp [Document.Exact.integer, Document.Exact.string, hlink, exact_propertiesDocument])

theorem Snapshot.exact_document (s : Snapshot β) : s.document.Exact := by
  unfold Snapshot.document
  cases s.prototype with
  | none => exact .object (by simp [exact_propertiesDocument])
  | some p => exact .object (by simp [exact_propertiesDocument, p.exact_document])

/-- Only an instance with a prototype has a field for it. -/
theorem Snapshot.prototype_mem_fields_iff (s : Snapshot β) :
    ∃ fields, s.document = .object fields ∧
      ("prototype" ∈ fields.map (·.1) ↔ s.prototype.isSome = true) := by
  unfold Snapshot.document
  cases s.prototype with
  | none => exact ⟨_, rfl, by simp⟩
  | some p => exact ⟨_, rfl, by simp⟩

/-- **What documents tell.** However documents are written, provided that they are told apart when all
their numbers are finite, two values are written in the same way exactly if arrays lie beside arrays of
the same length and everything else is alike: what is written as null counts as one value, and so do
methods of the same name and age; any other value is told from all others, numbers by their words. In
particular the object that marks undefined is written for undefined alone, and the object of a method for
methods of its name and age. Snapshots of records and of instances are written in the same way exactly if
that holds for each of their parts, and a field for the prototype is there only if there is a
prototype. -/
theorem same_text_iff {τ : Type} {write : Document → τ} (hwrite : Document.Faithful write) :
    (∀ v w : Value (Method β),
      write v.document = write w.document ↔ Value.Pointwise Value.Alike v w) ∧
    (∀ v : Value (Method β),
      write v.document = write Value.undefinedDocument ↔ v = .undefined) ∧
    (∀ (v : Value (Method β)) (f : Method β), write v.document = write f.document ↔
      ∃ g, v = .method g ∧ g.name = f.name ∧ g.id.seq = f.id.seq) ∧
    (∀ p q : RecordSnapshot β, write p.document = write q.document ↔ p.WrittenAlike q) ∧
    (∀ s t : Snapshot β, write s.document = write t.document ↔ s.WrittenAlike t) ∧
    ∀ s : Snapshot β, ∃ fields, s.document = .object fields ∧
      ("prototype" ∈ fields.map (·.1) ↔ s.prototype.isSome = true) := by
  refine ⟨fun v w => ?_, fun v => ?_, fun v f => ?_, fun p q => ?_, fun s t => ?_, fun s => ?_⟩
  · rw [hwrite.eq_iff v.exact_document w.exact_document, Value.document_eq_iff]
  · have hmark : Value.undefinedDocument.Exact := (Value.undefined : Value (Method β)).exact_document
    rw [hwrite.eq_iff v.exact_document hmark, Value.document_eq_undefined_iff]
  · have hmethod : f.document.Exact := (Value.method f).exact_document
    rw [hwrite.eq_iff v.exact_document hmethod, Value.document_eq_method_iff]
  · rw [hwrite.eq_iff p.exact_document q.exact_document, RecordSnapshot.document_eq_iff]
  · rw [hwrite.eq_iff s.exact_document t.exact_document, Snapshot.document_eq_iff]
  · exact s.prototype_mem_fields_iff

/-- Texts tell zero from its negative, but not what is no number from null. -/
theorem same_text_iff_zeros :
    let text (v : Value (Method Unit)) := v.document.render
    text (.array [.number .nan, .number .negativeZero]) =
        text (.array [.null, .number .negativeZero]) ∧
      text (.array [.null, .number (.ofMagnitude false 0)]) ≠
        text (.array [.null, .number .negativeZero]) := by
  intro text
  obtain ⟨hvalues, -⟩ := same_text_iff (β := Unit) Document.faithful_render
  constructor
  · have hfirst : Value.Alike (.number .nan : Value (Method Unit)) .null := .blank (.nan rfl) .null
    have hsecond : Value.Alike (.number .negativeZero : Value (Method Unit)) (.number .negativeZero) :=
      .number rfl
    exact (hvalues _ _).2 (.array (.cons (.leaf rfl rfl hfirst) (.cons (.leaf rfl rfl hsecond) .nil)))
  · intro h
    obtain ⟨_, e, hitems⟩ := Value.pointwise_array_iff.1 ((hvalues _ _).1 h)
    cases e
    obtain ⟨-, hzero⟩ := (Value.pointwise_leaf_iff rfl).1 (List.forall₂_cons.1
      (List.forall₂_cons.1 hitems).2).1
    cases hzero with
    | blank hb => exact absurd (Value.blank_number_iff.1 hb) (by decide)

end Delegation
