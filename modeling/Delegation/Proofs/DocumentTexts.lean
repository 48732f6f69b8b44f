import Delegation.Document
import Delegation.Proofs.NumberTexts

/-!
# Documents by their texts

The text of a document is no other document's text (`render_inj`), as long as all numbers in it are
finite; a number that is not is written as null. Whatever else writes documents may take the place of
these texts if it is `Faithful` in this sense.

Documents stand in front of other text: an item is followed by a comma, or by what closes the list. So
what the induction carries is `Clear`: with any text behind it that a number cannot go on with, the text
of the document is neither that of another one nor can it end at another place. The first character
tells the kind of the document (`exists_announced`), a string ends at its closing quote, a number where
no character of a number follows, and what is joined by commas ends where it is closed
(`joined_append_inj`).
-/

namespace Delegation.Document

open Delegation.Number

/-! ## Strings -/

/-- The value of a hexadecimal digit. -/
def hexValue (c : Char) : Nat := if c.isDigit then c.toNat - 48 else c.toNat - 87

/-- Reads one character of a string back, and leaves the rest. -/
def readChar? : List Char → Option (Char × List Char)
  | '\\' :: 'u' :: '0' :: '0' :: high :: low :: rest =>
    some (Char.ofNat (16 * hexValue high + hexValue low), rest)
  | '\\' :: 'b' :: rest => some ('\x08', rest)
  | '\\' :: 'f' :: rest => some ('\x0c', rest)
  | '\\' :: 'n' :: rest => some ('\n', rest)
  | '\\' :: 'r' :: rest => some ('\r', rest)
  | '\\' :: 't' :: rest => some ('\t', rest)
  | '\\' :: c :: rest => some (c, rest)
  | c :: rest => some (c, rest)
  | [] => none

theorem hexValue_digitChar : ∀ n < 16, hexValue (Nat.digitChar n) = n := by decide

/-- **Characters read back.** -/
theorem readChar?_stringChar (c : Char) (rest : List Char) :
    readChar? (stringChar c ++ rest) = some (c, rest) := by
  unfold stringChar
  repeat' split
  -- the characters that have a letter of their own
  iterate 7
    · subst_vars
      rfl
  · have hhigh := hexValue_digitChar (c.toNat / 16) (by omega)
    have hlow := hexValue_digitChar (c.toNat % 16) (by omega)
    have hcode : 16 * (c.toNat / 16) + c.toNat % 16 = c.toNat := by omega
    show some (Char.ofNat (16 * hexValue _ + hexValue _), rest) = _
    rw [hhigh, hlow, hcode, Char.ofNat_toNat]
  · rw [List.singleton_append, readChar?.eq_def]
    split <;> simp_all

/-- No character is written with a quote in front. -/
theorem exists_stringChar (c : Char) : ∃ first more, stringChar c = first :: more ∧ first ≠ '"' := by
  unfold stringChar
  repeat' split
  all_goals exact ⟨_, _, rfl, by first | decide | assumption⟩

/-- A string ends at its closing quote and nowhere else. -/
theorem quoted_append_inj {cs ds s t : List Char}
    (h : cs.flatMap stringChar ++ '"' :: s = ds.flatMap stringChar ++ '"' :: t) : cs = ds ∧ s = t := by
  induction cs generalizing ds with
  | nil =>
    cases ds with
    | nil => exact ⟨rfl, (List.cons.inj h).2⟩
    | cons d ds =>
      obtain ⟨first, more, hd, hquote⟩ := exists_stringChar d
      rw [List.flatMap_cons, hd] at h
      exact absurd (List.cons.inj h).1.symm hquote
  | cons c cs ih =>
    cases ds with
    | nil =>
      obtain ⟨first, more, hc, hquote⟩ := exists_stringChar c
      rw [List.flatMap_cons, hc] at h
      exact absurd (List.cons.inj h).1 hquote
    | cons d ds =>
      rw [List.flatMap_cons, List.flatMap_cons, List.append_assoc, List.append_assoc] at h
      have hread := congrArg readChar? h
      rw [readChar?_stringChar, readChar?_stringChar] at hread
      obtain ⟨rfl, hrest⟩ := Prod.mk.inj (Option.some.inj hread)
      obtain ⟨rfl, rfl⟩ := ih hrest
      exact ⟨rfl, rfl⟩

theorem toList_renderString (s : String) :
    (renderString s).toList = '"' :: (s.toList.flatMap stringChar ++ ['"']) := by
  simp [renderString]

theorem renderString_append_inj {a b : String} {s t : List Char}
    (h : (renderString a).toList ++ s = (renderString b).toList ++ t) : a = b ∧ s = t := by
  simp only [toList_renderString, List.cons_append, List.append_assoc, List.nil_append] at h
  obtain ⟨hab, rfl⟩ := quoted_append_inj (List.cons.inj h).2
  exact ⟨String.toList_inj.1 hab, rfl⟩

/-! ## Texts in front of other texts -/

/-- What may follow a document: nothing, or a character that no number holds. -/
def Closed (s : List Char) : Prop := ∀ c, s.head? = some c → isPlain c = false

theorem closed_cons {c : Char} {s : List Char} (h : isPlain c = false) : Closed (c :: s) := by
  rintro c' ⟨⟩
  exact h

/-- The text of `a` is told from all others, and its end is seen, whatever follows. -/
def Clear {α : Type} (P : α → Prop) (f : α → List Char) (a : α) : Prop :=
  ∀ b s t, P b → Closed s → Closed t → f a ++ s = f b ++ t → a = b ∧ s = t

section Joined

variable {α : Type} {P : α → Prop} {f : α → List Char} {close : Char}

theorem intercalate_cons (a : α) (as : List α) :
    [','].intercalate ((a :: as).map f) = f a ++ as.flatMap fun a => ',' :: f a := by
  induction as generalizing a with
  | nil => simp
  | cons b as ih =>
    rw [List.flatMap_cons, List.cons_append, ← ih b]
    simp

/-- Items with a comma in front of each, up to the character that closes them. -/
theorem tail_append_inj (hclose : isPlain close = false) (hcomma : close ≠ ',') {as bs : List α}
    {s t : List Char} (has : ∀ a ∈ as, Clear P f a) (hbs : ∀ b ∈ bs, P b)
    (h : (as.flatMap fun a => ',' :: f a) ++ close :: s =
      (bs.flatMap fun b => ',' :: f b) ++ close :: t) : as = bs ∧ s = t := by
  have hclosed : ∀ (cs : List α) (s : List Char),
      Closed ((cs.flatMap fun a => ',' :: f a) ++ close :: s) := by
    intro cs s
    cases cs with
    | nil => exact closed_cons hclose
    | cons c cs => exact closed_cons (by decide)
  induction as generalizing bs with
  | nil =>
    cases bs with
    | nil => exact ⟨rfl, (List.cons.inj h).2⟩
    | cons b bs => exact absurd (List.cons.inj h).1 hcomma
  | cons a as ih =>
    cases bs with
    | nil => exact absurd (List.cons.inj h).1.symm hcomma
    | cons b bs =>
      simp only [List.flatMap_cons, List.cons_append, List.append_assoc] at h
      obtain ⟨rfl, hrest⟩ := has a List.mem_cons_self b _ _ (hbs b List.mem_cons_self) (hclosed as s)
        (hclosed bs t) (List.cons.inj h).2
      obtain ⟨rfl, rfl⟩ := ih (fun c hc => has c (List.mem_cons_of_mem _ hc))
        (fun c hc => hbs c (List.mem_cons_of_mem _ hc)) hrest
      exact ⟨rfl, rfl⟩

/-- Items joined by commas, up to the character that closes them; no item begins with that one. -/
theorem joined_append_inj (hclose : isPlain close = false) (hcomma : close ≠ ',')
    (hopen : ∀ a, P a → ∀ s t, f a ++ s ≠ close :: t) {as bs : List α} {s t : List Char}
    (has : ∀ a ∈ as, P a) (hclear : ∀ a ∈ as, Clear P f a) (hbs : ∀ b ∈ bs, P b)
    (h : [','].intercalate (as.map f) ++ close :: s = [','].intercalate (bs.map f) ++ close :: t) :
    as = bs ∧ s = t := by
  cases as with
  | nil =>
    cases bs with
    | nil => exact ⟨rfl, (List.cons.inj h).2⟩
    | cons b bs =>
      rw [intercalate_cons, List.append_assoc] at h
      exact absurd h.symm (hopen b (hbs b List.mem_cons_self) _ _)
  | cons a as =>
    cases bs with
    | nil =>
      rw [intercalate_cons, List.append_assoc] at h
      exact absurd h (hopen a (has a List.mem_cons_self) _ _)
    | cons b bs =>
      -- a comma before the first item on both sides makes them tails
      have htails := congrArg (',' :: ·) h
      rw [intercalate_cons, intercalate_cons] at htails
      exact tail_append_inj hclose hcomma hclear hbs (by simpa using htails)

end Joined

/-! ## Texts of documents -/

/-- Documents in which every number is finite. -/
inductive Exact : Document → Prop where
  | null : Exact .null
  | bool (b : Bool) : Exact (.bool b)
  | integer (n : Int) : Exact (.integer n)
  | number {x : Number} (h : x.isFinite = true) : Exact (.number x)
  | string (s : String) : Exact (.string s)
  | list {items : List Document} (h : ∀ d ∈ items, Exact d) : Exact (.list items)
  | object {fields : List (String × Document)} (h : ∀ p ∈ fields, Exact p.2) : Exact (.object fields)

/-- What the first character of a text announces. -/
inductive Kind where
  | null
  | bool
  | numeral
  | string
  | list
  | object

/-- The kind of a document; integers and numbers are of one kind. -/
def kind : Document → Kind
  | .null => .null
  | .bool _ => .bool
  | .integer _ | .number _ => .numeral
  | .string _ => .string
  | .list _ => .list
  | .object _ => .object

/-- The kind that a first character announces, if it begins a document. -/
def announced (c : Char) : Option Kind :=
  if c = '-' ∨ c.isDigit = true then some .numeral
  else if c = 'n' then some .null
  else if c = 't' ∨ c = 'f' then some .bool
  else if c = '"' then some .string
  else if c = '[' then some .list
  else if c = '\x7b' then some .object
  else none

/-- The characters of a document's text. -/
def chars (d : Document) : List Char := (render d).toList

/-- The characters of a field's text. -/
def fieldText (p : String × Document) : List Char :=
  (renderString p.1).toList ++ ':' :: chars p.2

theorem chars_number {x : Number} (hx : x.isFinite = true) :
    chars (.number x) = (layout.number x).toList := by
  rw [chars, render, renderNumber, if_pos hx]

theorem chars_list (items : List Document) : chars (.list items) =
    '[' :: ([','].intercalate (items.map chars) ++ [']']) := by
  have hitems : (renderItems items).map String.toList = items.map chars := by
    induction items with
    | nil => rfl
    | cons d items ih => rw [renderItems, List.map_cons, ih, List.map_cons, chars]
  simp [chars, render, hitems]

theorem chars_object (fields : List (String × Document)) : chars (.object fields) =
    '\x7b' :: ([','].intercalate (fields.map fieldText) ++ ['\x7d']) := by
  have hfields : (renderFields fields).map String.toList = fields.map fieldText := by
    induction fields with
    | nil => rfl
    | cons p fields ih =>
      rw [renderFields, List.map_cons, ih, List.map_cons]
      simp [fieldText, chars]
  simp [chars, render, hfields]

/-! ## Reading documents back -/

theorem announced_of_numeral {cs : List Char} (h : Numeral cs) :
    ∃ c rest, cs = c :: rest ∧ announced c = some .numeral := by
  obtain ⟨c, rest, rfl, hc⟩ := h.head
  exact ⟨c, rest, rfl, if_pos hc⟩

/-- **The first character tells the kind.** -/
theorem exists_announced {d : Document} (hd : d.Exact) :
    ∃ c rest, chars d = c :: rest ∧ announced c = some d.kind := by
  cases hd with
  | null => exact ⟨_, _, rfl, rfl⟩
  | bool b => cases b <;> exact ⟨_, _, rfl, rfl⟩
  | integer n => exact announced_of_numeral (numeral_integer n).1
  | number h =>
    rw [chars_number h]
    exact announced_of_numeral (numeral_number _ h).1
  | string s => exact ⟨_, _, toList_renderString s, rfl⟩
  | list => exact ⟨_, _, chars_list _, rfl⟩
  | object => exact ⟨_, _, chars_object _, rfl⟩

theorem kind_eq {d e : Document} (hd : d.Exact) (he : e.Exact) {s t : List Char}
    (h : chars d ++ s = chars e ++ t) : d.kind = e.kind := by
  obtain ⟨c, rest, hc, hkind⟩ := exists_announced hd
  obtain ⟨c', rest', hc', hkind'⟩ := exists_announced he
  rw [hc, hc'] at h
  obtain ⟨rfl, -⟩ := List.cons.inj h
  exact Option.some.inj (hkind.symm.trans hkind')

/-- A document does not begin with a character that announces none. -/
theorem chars_append_ne {d : Document} (hd : d.Exact) {close : Char}
    (hclose : announced close = none) (s t : List Char) : chars d ++ s ≠ close :: t := by
  obtain ⟨c, rest, hc, hkind⟩ := exists_announced hd
  rw [hc]
  intro h
  obtain ⟨rfl, -⟩ := List.cons.inj h
  rw [hclose] at hkind
  cases hkind

/-- A numeral ends where a character follows that no number holds. -/
theorem numeral_append_inj {cs ds s t : List Char} (hcs : Numeral cs) (hds : Numeral ds)
    (hs : Closed s) (ht : Closed t) (h : cs ++ s = ds ++ t) : cs = ds ∧ s = t := by
  have htake : ∀ {cs s}, Numeral cs → Closed s → (cs ++ s).takeWhile isPlain = cs := by
    intro cs s hcs hs
    rw [List.takeWhile_append_of_pos hcs.plain]
    cases s with
    | nil => simp
    | cons c s => simp [hs c rfl]
  have hsame : cs = ds := by rw [← htake hcs hs, h, htake hds ht]
  subst hsame
  exact ⟨rfl, List.append_cancel_left h⟩

theorem numeral_of_kind {d : Document} (hd : d.Exact) (hkind : d.kind = .numeral) :
    Numeral (chars d) := by
  cases hd with
  | integer n => exact (numeral_integer n).1
  | number hx =>
    rw [chars_number hx]
    exact (numeral_number _ hx).1
  | _ => cases hkind

/-- An integer has no point and no mark, and a number has one of them. -/
theorem integer_ne_number {n : Int} {x : Number} (hx : x.isFinite = true) :
    chars (.integer n) ≠ chars (.number x) := by
  intro h
  obtain ⟨-, hpoint, hmark⟩ := numeral_integer n
  have hone := (numeral_number layout hx).2
  rw [← chars_number hx, ← h] at hone
  exact hone.elim hpoint hmark

theorem numeral_inj {d e : Document} (hd : d.Exact) (he : e.Exact) (hkind : d.kind = .numeral)
    (hkind' : e.kind = .numeral) (h : chars d = chars e) : d = e := by
  cases hd with
  | integer n =>
    cases he with
    | integer m => exact congrArg _ (toString_int_inj (String.toList_inj.1 h))
    | number hy => exact absurd h (integer_ne_number hy)
    | _ => cases hkind'
  | number hx =>
    cases he with
    | integer m => exact absurd h.symm (integer_ne_number hx)
    | number hy =>
      rw [chars_number hx, chars_number hy] at h
      exact congrArg _ (number_inj layout hx hy (String.toList_inj.1 h))
    | _ => cases hkind'
  | _ => cases hkind

/-! ## Clear texts -/

theorem clear_null : Clear Exact chars .null := by
  intro e s t he hs ht h
  have hkind := kind_eq .null he h
  cases he with
  | null => exact ⟨rfl, List.append_cancel_left h⟩
  | _ => cases hkind

theorem clear_bool (a : Bool) : Clear Exact chars (.bool a) := by
  intro e s t he hs ht h
  have hkind := kind_eq (.bool a) he h
  cases he with
  | bool b =>
    have hab : a = b := by
      cases a <;> cases b <;> first | rfl | exact absurd (List.cons.inj h).1 (by decide)
    subst hab
    exact ⟨rfl, List.append_cancel_left h⟩
  | _ => cases hkind

theorem clear_numeral {d : Document} (hd : d.Exact) (hkind : d.kind = .numeral) :
    Clear Exact chars d := by
  intro e s t he hs ht h
  have hkind' : e.kind = .numeral := (kind_eq hd he h).symm.trans hkind
  obtain ⟨htext, rfl⟩ :=
    numeral_append_inj (numeral_of_kind hd hkind) (numeral_of_kind he hkind') hs ht h
  exact ⟨numeral_inj hd he hkind hkind' htext, rfl⟩

theorem clear_string (a : String) : Clear Exact chars (.string a) := by
  intro e s t he hs ht h
  have hkind := kind_eq (.string a) he h
  cases he with
  | string b =>
    obtain ⟨rfl, rfl⟩ := renderString_append_inj h
    exact ⟨rfl, rfl⟩
  | _ => cases hkind

theorem clear_list {items : List Document} (hitems : ∀ d ∈ items, Exact d)
    (hclear : ∀ d ∈ items, Clear Exact chars d) : Clear Exact chars (.list items) := by
  intro e s t he hs ht h
  have hkind := kind_eq (.list hitems) he h
  cases he with
  | list hitems' =>
    simp only [chars_list, List.cons_append, List.append_assoc, List.nil_append] at h
    have hopen : ∀ d : Document, d.Exact → ∀ s t, chars d ++ s ≠ ']' :: t :=
      fun d hd => chars_append_ne hd rfl
    obtain ⟨rfl, rfl⟩ :=
      joined_append_inj rfl (by decide) hopen hitems hclear hitems' (List.cons.inj h).2
    exact ⟨rfl, rfl⟩
  | _ => cases hkind

theorem clear_field {p : String × Document} (h : Clear Exact chars p.2) :
    Clear (fun p => Exact p.2) fieldText p := by
  obtain ⟨name, d⟩ := p
  rintro ⟨name', e⟩ s t he hs ht htext
  simp only [fieldText, List.append_assoc, List.cons_append] at htext
  obtain ⟨rfl, hrest⟩ := renderString_append_inj htext
  obtain ⟨rfl, rfl⟩ := h e s t he hs ht (List.cons.inj hrest).2
  exact ⟨rfl, rfl⟩

/-- A field begins with the quote of its name. -/
theorem fieldText_append_ne (p : String × Document) (s t : List Char) :
    fieldText p ++ s ≠ '\x7d' :: t := by
  rw [fieldText, toList_renderString]
  intro h
  exact absurd (List.cons.inj h).1 (by decide)

theorem clear_object {fields : List (String × Document)} (hfields : ∀ p ∈ fields, Exact p.2)
    (hclear : ∀ p ∈ fields, Clear Exact chars p.2) : Clear Exact chars (.object fields) := by
  intro e s t he hs ht h
  have hkind := kind_eq (.object hfields) he h
  cases he with
  | object hfields' =>
    simp only [chars_object, List.cons_append, List.append_assoc, List.nil_append] at h
    obtain ⟨rfl, rfl⟩ := joined_append_inj rfl (by decide) (fun p _ => fieldText_append_ne p) hfields
      (fun p hp => clear_field (hclear p hp)) hfields' (List.cons.inj h).2
    exact ⟨rfl, rfl⟩
  | _ => cases hkind

theorem clear_of_exact {d : Document} (hd : d.Exact) : Clear Exact chars d := by
  induction hd with
  | null => exact clear_null
  | bool b => exact clear_bool b
  | integer n => exact clear_numeral (.integer n) rfl
  | number hx => exact clear_numeral (.number hx) rfl
  | string s => exact clear_string s
  | list hitems ih => exact clear_list hitems ih
  | object hfields ih => exact clear_object hfields ih

/-- **Documents by their texts.** Documents in which every number is finite have the same text only if
they are the same. -/
theorem render_inj {d e : Document} (hd : d.Exact) (he : e.Exact) : render d = render e ↔ d = e := by
  constructor
  · intro h
    have hclosed : Closed [] := fun _ h => nomatch h
    have hchars : chars d ++ [] = chars e ++ [] := by rw [chars, chars, h]
    exact (clear_of_exact hd e [] [] he hclosed hclosed hchars).1
  · rintro rfl
    rfl

/-- Documents are told apart by what is written for them, provided that all their numbers are finite. Of
numbers themselves this says that different finite ones are written differently. -/
def Faithful {τ : Type} (write : Document → τ) : Prop :=
  ∀ d e : Document, d.Exact → e.Exact → write d = write e → d = e

theorem Faithful.eq_iff {τ : Type} {write : Document → τ} (h : Faithful write) {d e : Document}
    (hd : d.Exact) (he : e.Exact) : write d = write e ↔ d = e :=
  ⟨h d e hd he, congrArg write⟩

theorem faithful_render : Faithful render := fun _ _ hd he => (render_inj hd he).1

end Delegation.Document
