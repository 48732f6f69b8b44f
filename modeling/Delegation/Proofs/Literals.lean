import Delegation.CommandLine.Literal

/-!
# What literals can write

`Literal v text` says how a value is written without saying how a text is read: words and numbers as
they stand, a string as itself, an array by its items with a comma between them and brackets around
them, and blanks around any of these. Every text is a literal of what is read from it
(`literal_readLiteral`).

The converse needs values that survive the reading, since a comma cuts wherever it stands, and since the
words, the numbers and the brackets take their texts away from the strings. `Printable` names them, and
`readLiteral_exact` says that they are exactly what a literal can write: nothing else is ever read, and
each of them is read back from every text that writes it. Words that are not a number count as one
(`Value.unifyNaN`), because their texts do not tell them apart.
-/

namespace Delegation

/-! ## Words that are not a number -/

/-- The number, with one word for all that are not a number. -/
def Number.unifyNaN (x : Number) : Number := if x.isNaN then nan else x

namespace Value

variable {μ : Type}

mutual

/-- The value, with one word for all its numbers that are not a number. -/
def unifyNaN : Value μ → Value μ
  | .undefined => .undefined
  | .null => .null
  | .bool b => .bool b
  | .number x => .number x.unifyNaN
  | .string s => .string s
  | .array items => .array (unifyNaNAll items)
  | .method m => .method m

/-- The values of a list, with one word for all their numbers that are not a number. -/
def unifyNaNAll : List (Value μ) → List (Value μ)
  | [] => []
  | v :: vs => unifyNaN v :: unifyNaNAll vs

end

@[simp] theorem unifyNaNAll_eq (vs : List (Value μ)) : unifyNaNAll vs = vs.map unifyNaN := by
  induction vs with
  | nil => rfl
  | cons v vs ih => rw [unifyNaNAll, ih, List.map_cons]

end Value

namespace CommandLine

open Text Number

variable {μ : Type}

/-! ## Writing -/

/-- The text is a literal of the value. -/
inductive Literal : Value μ → List Char → Prop
  | null : Literal .null "null".toList
  | bool (b : Bool) : Literal (.bool b) (if b then "true" else "false").toList
  /-- Any text that reads as the number writes it. -/
  | number {x y : Number} {text : List Char} (hread : Number.read? text = some y)
      (hxy : y.unifyNaN = x.unifyNaN) : Literal (.number x) text
  | string (s : String) : Literal (.string s) s.toList
  /-- An array's items, each with its own text. -/
  | array (items : List (Value μ × List Char)) (hitems : ∀ item ∈ items, Literal item.1 item.2) :
      Literal (.array (items.map (·.1))) ('[' :: ([','].intercalate (items.map (·.2)) ++ [']']))
  /-- Where no item gives a place for them, blanks may still stand between the brackets. -/
  | hollow {blanks : List Char} (hblanks : ∀ c ∈ blanks, isBlank c = true) :
      Literal (.array []) ('[' :: (blanks ++ [']']))
  | padded {v : Value μ} {before text after : List Char} (hbefore : ∀ c ∈ before, isBlank c = true)
      (hafter : ∀ c ∈ after, isBlank c = true) (htext : Literal v text) :
      Literal v (before ++ text ++ after)

/-- The values that literals can write; inside an array, commas leave fewer of them. -/
inductive Printable : (inside : Bool) → Value μ → Prop
  | null {inside : Bool} : Printable inside .null
  | bool {inside : Bool} (b : Bool) : Printable inside (.bool b)
  | number {inside : Bool} (x : Number) : Printable inside (.number x)
  | string {inside : Bool} {s : String} (tight : Tight s.toList)
      (notWord : s ≠ "true" ∧ s ≠ "false" ∧ s ≠ "null") (notNumber : Number.read? s.toList = none)
      (notBracketed : ∀ inner, s.toList ≠ '[' :: (inner ++ [']']))
      (noComma : inside = true → ',' ∉ s.toList) : Printable inside (.string s)
  | array {inside : Bool} {items : List (Value μ)} (short : inside = true → items.length ≤ 1)
      (notEmptyText : items ≠ [.string ""]) (hitems : ∀ v ∈ items, Printable true v) :
      Printable inside (.array items)

theorem printable_array_iff {inside : Bool} {items : List (Value μ)} :
    Printable inside (.array items) ↔
      (inside = true → items.length ≤ 1) ∧ items ≠ [.string ""] ∧ ∀ v ∈ items, Printable true v := by
  constructor
  · rintro ⟨⟩
    exact ⟨‹_›, ‹_›, ‹_›⟩
  · rintro ⟨short, notEmptyText, hitems⟩
    exact .array short notEmptyText hitems

/-! ## Brackets -/

theorem unbracket?_eq_some_iff {cs inner : List Char} :
    unbracket? cs = some inner ↔ cs = '[' :: (inner ++ [']']) := by
  constructor
  · intro h
    unfold unbracket? at h
    split at h
    next rest =>
      split at h
      next hlast =>
        obtain ⟨ys, rfl⟩ := List.getLast?_eq_some_iff.1 hlast
        obtain rfl : ys = inner := by simpa using h
        rfl
      next => simp at h
    next => simp at h
  · rintro rfl
    simp [unbracket?]

/-- Brackets keep off the blanks around them, and what stands between them stays as it is. -/
theorem unbracket?_trim_brackets (inner : List Char) :
    unbracket? (trim ('[' :: (inner ++ [']']))) = some inner := by
  have htight : Tight ('[' :: (inner ++ [']'])) := by
    refine ⟨fun c hc => ?_, fun c hc => ?_⟩
    · obtain rfl : '[' = c := by simpa using hc
      rfl
    · obtain rfl : ']' = c := by simpa [List.getLast?_cons] using hc
      rfl
  rw [trim_of_tight htight]
  exact unbracket?_eq_some_iff.2 rfl

/-! ## Cutting and joining -/

theorem pieces_ne_nil (cs : List Char) : pieces cs ≠ [] := by
  cases cs with
  | nil => simp [pieces]
  | cons c cs =>
    rw [pieces]
    split
    · simp
    · split <;> simp

/-- **Joining undoes cutting.** -/
theorem intercalate_pieces (cs : List Char) : [','].intercalate (pieces cs) = cs := by
  induction cs with
  | nil => simp [pieces]
  | cons c cs ih =>
    rw [pieces]
    split
    next hc =>
      rw [List.intercalate_cons_of_ne_nil (pieces_ne_nil cs), ih, hc]
      rfl
    next =>
      split
      next hnil => exact absurd hnil (pieces_ne_nil cs)
      next p ps hps =>
        rw [hps] at ih
        cases ps with
        | nil => simpa using ih
        | cons q qs =>
          rw [List.intercalate_cons_cons] at ih ⊢
          simpa using ih

theorem not_mem_of_mem_pieces {cs p : List Char} (h : p ∈ pieces cs) : ',' ∉ p := by
  induction cs generalizing p with
  | nil => simp_all [pieces]
  | cons c cs ih =>
    rw [pieces] at h
    split at h
    next =>
      rcases List.mem_cons.1 h with rfl | h
      · simp
      · exact ih h
    next hc =>
      split at h
      next hnil => exact absurd hnil (pieces_ne_nil cs)
      next q qs hq =>
        rcases List.mem_cons.1 h with rfl | h
        · simpa [Ne.symm hc] using ih (hq ▸ List.mem_cons_self)
        · exact ih (hq ▸ List.mem_cons_of_mem _ h)

/-- A text without a comma is one piece. -/
theorem pieces_of_not_mem {cs : List Char} (h : ',' ∉ cs) : pieces cs = [cs] := by
  induction cs with
  | nil => rfl
  | cons c cs ih =>
    rw [List.mem_cons, not_or] at h
    rw [pieces, if_neg (Ne.symm h.1), ih h.2]

/-- In front of a comma, a text without one is the first piece. -/
theorem pieces_append_comma {cs rest : List Char} (h : ',' ∉ cs) :
    pieces (cs ++ ',' :: rest) = cs :: pieces rest := by
  induction cs with
  | nil => simp [pieces]
  | cons c cs ih =>
    rw [List.mem_cons, not_or] at h
    rw [List.cons_append, pieces, if_neg (Ne.symm h.1), ih h.2]

/-- **Cutting undoes joining**, if there is something to join and no comma in it. -/
theorem pieces_intercalate {texts : List (List Char)} (hne : texts ≠ [])
    (h : ∀ text ∈ texts, ',' ∉ text) : pieces ([','].intercalate texts) = texts := by
  induction texts with
  | nil => exact absurd rfl hne
  | cons text texts ih =>
    have htext : ',' ∉ text := h text List.mem_cons_self
    cases texts with
    | nil => rw [List.intercalate_singleton, pieces_of_not_mem htext]
    | cons next rest =>
      have hrest := ih (by simp) fun t ht => h t (List.mem_cons_of_mem _ ht)
      rw [List.intercalate_cons_cons, List.append_assoc, List.singleton_append,
        pieces_append_comma htext, hrest]

/-! ## Numbers and words -/

theorem toNat_of_isPlain {c : Char} (h : isPlain c = true) : 0x2b ≤ c.toNat ∧ c.toNat ≤ 0x7a := by
  have hrange {low high : Char} (hlow : c.val ≥ low.val) (hhigh : c.val ≤ high.val) :
      low.toNat ≤ c.toNat ∧ c.toNat ≤ high.toNat :=
    ⟨UInt32.le_iff_toNat_le.1 hlow, UInt32.le_iff_toNat_le.1 hhigh⟩
  -- the code points of the ends of each range
  have hends : '0'.toNat = 0x30 ∧ '9'.toNat = 0x39 ∧ 'A'.toNat = 0x41 ∧ 'Z'.toNat = 0x5a ∧
      'a'.toNat = 0x61 ∧ 'z'.toNat = 0x7a := by decide
  simp only [isPlain, Bool.or_eq_true, beq_iff_eq] at h
  rcases h with (((hdigit | halpha) | rfl) | rfl) | rfl
  · obtain ⟨hlow, hhigh⟩ := Bool.and_eq_true_iff.1 hdigit
    have := hrange (of_decide_eq_true hlow) (of_decide_eq_true hhigh)
    omega
  · rcases Bool.or_eq_true_iff.1 halpha with hupper | hlower
    · obtain ⟨hlow, hhigh⟩ := of_decide_eq_true hupper
      have := hrange hlow hhigh
      omega
    · obtain ⟨hlow, hhigh⟩ := Bool.and_eq_true_iff.1 hlower
      have := hrange (of_decide_eq_true hlow) (of_decide_eq_true hhigh)
      omega
  all_goals decide

theorem isBlank_of_isPlain {c : Char} (h : isPlain c = true) : isBlank c = false := by
  have := toNat_of_isPlain h
  simp only [isBlank, Bool.or_eq_false_iff, Bool.and_eq_false_imp, decide_eq_true_eq,
    decide_eq_false_iff_not, beq_eq_false_iff_ne]
  omega

variable {text : List Char} {x : Number}

theorem not_mem_of_read? (h : Number.read? text = some x) {c : Char} (hc : isPlain c = false) :
    c ∉ text := by
  intro hmem
  have := List.all_eq_true.1 (plain_of_read? h) c hmem
  rw [hc] at this
  cases this

/-- Number texts have no blanks to trim. -/
theorem tight_of_read? (h : Number.read? text = some x) : Tight text :=
  tight_of_forall fun c hc => isBlank_of_isPlain (List.all_eq_true.1 (plain_of_read? h) c hc)

/-- A number text is read as its number. -/
theorem readLiteral_of_read? (h : Number.read? text = some x) :
    (readLiteral text : Value μ) = .number x := by
  have htrim : trim text = text := trim_of_tight (tight_of_read? h)
  have hplain : unbracket? (trim text) = none := by
    rw [htrim, Option.eq_none_iff_forall_ne_some]
    intro inner hinner
    rw [unbracket?_eq_some_iff] at hinner
    exact not_mem_of_read? h (by decide) (hinner ▸ List.mem_cons_self)
  -- the three words come first, and none of them is a number
  have hword (word : String) (hnone : Number.read? word.toList = none) : text ≠ word.toList := by
    rintro rfl
    rw [hnone] at h
    cases h
  rw [readLiteral_plain hplain, htrim, readPlain, if_neg (hword "true" (by decide)),
    if_neg (hword "false" (by decide)), if_neg (hword "null" (by decide)), h]

/-! ## Reading -/

/-- Blanks around a literal do not count. -/
theorem readLiteral_congr {raw raw' : List Char} (h : trim raw = trim raw') :
    (readLiteral raw : Value μ) = readLiteral raw' := by
  cases hraw : unbracket? (trim raw) with
  | some inner => rw [readLiteral_bracketed hraw, readLiteral_bracketed (h ▸ hraw)]
  | none => rw [readLiteral_plain hraw, readLiteral_plain (h ▸ hraw), h]

/-- The ways to read a trimmed text that is not in brackets. -/
inductive PlainRead (text : List Char) : Value μ → Prop
  | bool (b : Bool) (htext : text = (if b then "true" else "false").toList) :
      PlainRead text (.bool b)
  | null (htext : text = "null".toList) : PlainRead text .null
  | number {x : Number} (hread : Number.read? text = some x) : PlainRead text (.number x)
  | string (notWord : text ≠ "true".toList ∧ text ≠ "false".toList ∧ text ≠ "null".toList)
      (notNumber : Number.read? text = none) : PlainRead text (.string (String.ofList text))

theorem plainRead (text : List Char) : PlainRead text (readPlain text : Value μ) := by
  unfold readPlain
  split
  next h => exact .bool true h
  next htrue =>
    split
    next h => exact .bool false h
    next hfalse =>
      split
      next h => exact .null h
      next hnull =>
        cases hread : Number.read? text with
        | some x => exact .number hread
        | none => exact .string ⟨htrue, hfalse, hnull⟩ hread

/-- Only blanks are read as the empty string. -/
theorem trim_eq_nil_of_readLiteral {raw : List Char}
    (h : (readLiteral raw : Value μ) = .string "") : trim raw = [] := by
  cases hraw : unbracket? (trim raw) with
  | some inner =>
    rw [readLiteral_bracketed hraw] at h
    split at h <;> cases h
  | none =>
    have hread := plainRead (μ := μ) (trim raw)
    rw [← readLiteral_plain hraw, h] at hread
    generalize hs : "" = s at hread
    cases hread with
    | string =>
      have htext : [] = (String.ofList (trim raw)).toList := congrArg String.toList hs
      rw [htext, String.toList_ofList]

/-- **Only printable values are read.** The induction is on the text, by the pieces it is cut into. -/
theorem printable_readLiteral {inside : Bool} {raw : List Char} (h : inside = true → ',' ∉ raw) :
    Printable inside (readLiteral raw : Value μ) := by
  induction raw using readLiteral.induct generalizing inside with
  | case1 raw inner hraw hblank =>
    rw [readLiteral_bracketed hraw, if_pos hblank]
    exact .array (by simp) (by simp) (by simp)
  | case2 raw inner hraw hblank ih =>
    rw [readLiteral_bracketed hraw, if_neg hblank]
    refine .array (fun hinside => ?_) (fun hempty => ?_) fun v hv => ?_
    · -- one piece: a comma between the brackets would be one of the text
      have hinner : ',' ∉ inner := by
        intro hmem
        have htrim : ',' ∈ trim raw := by
          rw [unbracket?_eq_some_iff.1 hraw]
          exact List.mem_cons_of_mem _ (List.mem_append_left _ hmem)
        exact h hinside (mem_of_mem_trim htrim)
      simp [pieces_of_not_mem hinner]
    · -- a single piece is all that stands between the brackets, and that is not blank
      obtain ⟨p, hpieces, hp⟩ := List.map_eq_singleton_iff.1 hempty
      have hinner : p = inner := by
        have := intercalate_pieces inner
        rwa [hpieces, List.intercalate_singleton] at this
      exact hblank (hinner ▸ trim_eq_nil_of_readLiteral hp)
    · obtain ⟨p, hp, rfl⟩ := List.mem_map.1 hv
      exact ih p hp fun _ => not_mem_of_mem_pieces hp
  | case3 raw hraw =>
    rw [readLiteral_plain hraw]
    have hread := plainRead (μ := μ) (trim raw)
    generalize (readPlain (trim raw) : Value μ) = v at hread ⊢
    cases hread with
    | bool b => exact .bool b
    | null => exact .null
    | @number x => exact .number x
    | string notWord notNumber =>
      have hlist : (String.ofList (trim raw)).toList = trim raw := String.toList_ofList
      have hne {word : String} (hword : trim raw ≠ word.toList) : String.ofList (trim raw) ≠ word :=
        fun e => hword (by rw [← e, hlist])
      refine .string ?_ ⟨hne notWord.1, hne notWord.2.1, hne notWord.2.2⟩ ?_ (fun inner hinner => ?_)
        fun hinside => ?_
      · rw [hlist]
        exact tight_trim raw
      · rw [hlist, notNumber]
      · rw [hlist, ← unbracket?_eq_some_iff, hraw] at hinner
        cases hinner
      · rw [hlist]
        exact fun hmem => h hinside (mem_of_mem_trim hmem)

/-- **Every text is a literal** of what is read from it. -/
theorem literal_readLiteral (raw : List Char) : Literal (readLiteral raw : Value μ) raw := by
  -- the blanks around the text can be put back, whatever it is
  have hpadded {v : Value μ} {raw : List Char} (h : Literal v (trim raw)) : Literal v raw := by
    obtain ⟨before, after, hbefore, hafter, heq⟩ := exists_trim raw
    rw [heq]
    exact .padded hbefore hafter h
  induction raw using readLiteral.induct with
  | case1 raw inner hraw hblank =>
    rw [readLiteral_bracketed hraw, if_pos hblank]
    refine hpadded ?_
    rw [unbracket?_eq_some_iff.1 hraw]
    exact .hollow (trim_eq_nil_iff.1 hblank)
  | case2 raw inner hraw hblank ih =>
    rw [readLiteral_bracketed hraw, if_neg hblank]
    refine hpadded ?_
    have := Literal.array ((pieces inner).map fun p => (readLiteral (μ := μ) p, p)) fun item hitem => by
      obtain ⟨p, hp, rfl⟩ := List.mem_map.1 hitem
      exact ih p hp
    simpa [unbracket?_eq_some_iff.1 hraw, Function.comp_def, intercalate_pieces] using this
  | case3 raw hraw =>
    rw [readLiteral_plain hraw]
    refine hpadded ?_
    have hread := plainRead (μ := μ) (trim raw)
    generalize (readPlain (trim raw) : Value μ) = v at hread ⊢
    cases hread with
    | bool b htext => exact htext ▸ .bool b
    | null htext => exact htext ▸ .null
    | number hread => exact .number hread rfl
    | string => simpa using Literal.string (μ := μ) (String.ofList (trim raw))

/-- A printable string is read as it stands. -/
theorem readLiteral_string {inside : Bool} {s : String} (h : Printable inside (.string s : Value μ)) :
    (readLiteral s.toList : Value μ) = .string s := by
  cases h with
  | string tight notWord notNumber notBracketed noComma =>
    have htrim : trim s.toList = s.toList := trim_of_tight tight
    have hplain : unbracket? (trim s.toList) = none := by
      rw [htrim, Option.eq_none_iff_forall_ne_some]
      exact fun inner hinner => notBracketed inner (unbracket?_eq_some_iff.1 hinner)
    have hne {word : String} (hword : s ≠ word) : s.toList ≠ word.toList :=
      fun e => hword (String.toList_inj.1 e)
    rw [readLiteral_plain hplain, htrim, readPlain, if_neg (hne notWord.1), if_neg (hne notWord.2.1),
      if_neg (hne notWord.2.2), notNumber]
    simp

/-- What the reading of a printable value's literal rests on: that inside an array no comma of it cuts
the array, and that only the empty string can be blank. -/
structure ReadBack (inside : Bool) (v : Value μ) (text : List Char) : Prop where
  value : (readLiteral text : Value μ).unifyNaN = v.unifyNaN
  uncut : inside = true → ',' ∉ text
  blank : trim text = [] → v = .string ""

/-- Texts with something in them are joined to a text that is not blank. -/
theorem trim_intercalate_ne_nil {texts : List (List Char)} (hne : texts ≠ [])
    (hblank : ∀ text, texts = [text] → trim text ≠ []) : trim ([','].intercalate texts) ≠ [] := by
  match texts with
  | [] => exact absurd rfl hne
  | [text] => simpa using hblank text rfl
  | text :: next :: rest =>
    -- from two texts on, there is a comma
    intro h
    have hcomma : ',' ∈ [','].intercalate (text :: next :: rest) := by
      rw [List.intercalate_cons_cons]
      simp
    exact absurd (trim_eq_nil_iff.1 h ',' hcomma) (by decide)

/-- An array of printable values is read from the joined texts that its items are read from. -/
theorem unifyNaN_readLiteral_brackets {inside : Bool} {items : List (Value μ × List Char)}
    (hprintable : Printable inside (.array (items.map (·.1))))
    (hitems : ∀ item ∈ items, ReadBack true item.1 item.2) :
    (readLiteral ('[' :: ([','].intercalate (items.map (·.2)) ++ [']'])) : Value μ).unifyNaN =
      (Value.array (items.map (·.1))).unifyNaN := by
  obtain ⟨-, notEmptyText, -⟩ := printable_array_iff.1 hprintable
  rw [readLiteral_bracketed (unbracket?_trim_brackets _)]
  by_cases hnil : items = []
  · subst hnil
    rfl
  · have hnot : trim ([','].intercalate (items.map (·.2))) ≠ [] := by
      refine trim_intercalate_ne_nil (by simpa using hnil) fun text hone htrim => ?_
      obtain ⟨item, rfl, rfl⟩ := List.map_eq_singleton_iff.1 hone
      have hempty : item.1 = .string "" := (hitems item List.mem_cons_self).blank htrim
      exact notEmptyText (by simp [hempty])
    have hcut : ∀ text ∈ items.map (·.2), ',' ∉ text := by
      intro text htext
      obtain ⟨item, hitem, rfl⟩ := List.mem_map.1 htext
      exact (hitems item hitem).uncut rfl
    rw [if_neg hnot, pieces_intercalate (by simpa using hnil) hcut]
    have hvalues : ∀ item ∈ items,
        (readLiteral item.2 : Value μ).unifyNaN = item.1.unifyNaN := fun item hitem =>
      (hitems item hitem).value
    simpa [Value.unifyNaN, List.map_map] using hvalues

theorem not_mem_brackets_of_short {texts : List (List Char)} (hshort : texts.length ≤ 1)
    (h : ∀ text ∈ texts, ',' ∉ text) : ',' ∉ '[' :: ([','].intercalate texts ++ [']']) := by
  match texts with
  | [] => decide
  | [text] => simpa using h text List.mem_cons_self
  | _ :: _ :: _ => simp at hshort

theorem trim_brackets_ne_nil (inner : List Char) : trim ('[' :: (inner ++ [']'])) ≠ [] := by
  intro h
  exact absurd (trim_eq_nil_iff.1 h '[' List.mem_cons_self) (by decide)

/-- **Every printable value is read back** from each of its literals. -/
theorem readBack {inside : Bool} {v : Value μ} {text : List Char} (hv : Printable inside v)
    (htext : Literal v text) : ReadBack inside v text := by
  induction htext generalizing inside with
  | null =>
    refine ⟨?_, fun _ => by decide, fun h => absurd h (by decide)⟩
    rw [readLiteral_plain (by decide)]
    rfl
  | bool b =>
    refine ⟨?_, fun _ => by cases b <;> decide, fun h => absurd h (by cases b <;> decide)⟩
    cases b <;> rw [readLiteral_plain (by decide)] <;> rfl
  | @number x y text hread hxy =>
    refine ⟨?_, fun _ => not_mem_of_read? hread (by decide), fun h => ?_⟩
    · rw [readLiteral_of_read? hread, Value.unifyNaN, Value.unifyNaN, hxy]
    · rw [trim_of_tight (tight_of_read? hread)] at h
      rw [h, show Number.read? [] = none by decide] at hread
      cases hread
  | string s =>
    refine ⟨by rw [readLiteral_string hv], ?_, fun h => ?_⟩
    · cases hv with
      | string tight notWord notNumber notBracketed noComma => exact noComma
    · cases hv with
      | string tight notWord notNumber notBracketed noComma =>
        rw [trim_of_tight tight] at h
        rw [String.toList_eq_nil_iff.1 h]
  | array items hitems ih =>
    obtain ⟨short, -, hprintable⟩ := printable_array_iff.1 hv
    have hback : ∀ item ∈ items, ReadBack true item.1 item.2 := fun item hitem =>
      ih item hitem (hprintable _ (List.mem_map_of_mem hitem))
    refine ⟨unifyNaN_readLiteral_brackets hv hback, fun hinside => ?_,
      fun h => absurd h (trim_brackets_ne_nil _)⟩
    refine not_mem_brackets_of_short (by simpa using short hinside) fun text htext => ?_
    obtain ⟨item, hitem, rfl⟩ := List.mem_map.1 htext
    exact (hback item hitem).uncut rfl
  | @hollow blanks hblanks =>
    refine ⟨?_, fun _ hmem => ?_, fun h => absurd h (trim_brackets_ne_nil _)⟩
    · rw [readLiteral_bracketed (unbracket?_trim_brackets _), if_pos (trim_eq_nil_iff.2 hblanks)]
    · have hcomma : ',' ∈ blanks := by simpa using hmem
      exact absurd (hblanks ',' hcomma) (by decide)
  | @padded v before text after hbefore hafter htext ih =>
    have hback := ih hv
    have htrim : trim (before ++ text ++ after) = trim text := trim_padded hbefore hafter
    refine ⟨by rw [readLiteral_congr htrim, hback.value], fun hinside hmem => ?_,
      fun h => hback.blank (htrim ▸ h)⟩
    -- a comma is no blank, so it would be one of the literal inside
    rcases List.mem_append.1 hmem with hmem | hmem
    · rcases List.mem_append.1 hmem with hmem | hmem
      · exact absurd (hbefore ',' hmem) (by decide)
      · exact hback.uncut hinside hmem
    · exact absurd (hafter ',' hmem) (by decide)

/-- **Literals write exactly the printable values.** Whatever the text, what is read of it is
printable; and a printable value is read back from every literal of it, however its numbers are written
and wherever blanks stand. -/
theorem readLiteral_exact :
    (∀ raw : List Char, Printable false (readLiteral raw : Value μ)) ∧
    ∀ (v : Value μ) (text : List Char), Printable false v → Literal v text →
      (readLiteral text : Value μ).unifyNaN = v.unifyNaN :=
  ⟨fun _ => printable_readLiteral (by simp), fun _ _ hv htext => (readBack hv htext).value⟩

/-- An array within an array, a word that is not a number, and the empty string. -/
theorem readLiteral_exact_nested :
    Printable false (.array [.array [.string "x"], .number nan, .string ""] : Value Empty) ∧
    Literal (.array [.array [.string "x"], .number nan, .string ""] : Value Empty)
      " [[ x ] ,-NaN,]".toList ∧
    (readLiteral " [[ x ] ,-NaN,]".toList : Value Empty).unifyNaN =
      .array [.array [.string "x"], .number nan, .string ""] := by
  have hspace : ∀ c ∈ [' '], isBlank c = true := List.forall_mem_singleton.2 (by decide)
  have hnone : ∀ c ∈ ([] : List Char), isBlank c = true := by simp
  have hx : Printable true (.string "x" : Value Empty) :=
    .string (tight_of_forall (List.forall_mem_singleton.2 (by decide))) (by decide) (by decide)
      (by simp) fun _ => by decide
  have hempty : Printable true (.string "" : Value Empty) :=
    .string (tight_of_forall (by simp)) (by decide) (by decide) (by simp) fun _ => by decide
  have hprintable :
      Printable false (.array [.array [.string "x"], .number nan, .string ""] : Value Empty) := by
    refine .array (by simp) (by simp) fun v hv => ?_
    simp only [List.mem_cons, List.not_mem_nil, or_false] at hv
    rcases hv with rfl | rfl | rfl
    · exact .array (by simp) (by simp) (by simpa using hx)
    · exact .number nan
    · exact hempty
  have hpadded : Literal (.string "x" : Value Empty) " x ".toList :=
    @Literal.padded _ _ [' '] _ [' '] hspace hspace (.string "x")
  have hinner : Literal (.array [.string "x"] : Value Empty) "[ x ] ".toList :=
    @Literal.padded _ _ [] _ [' '] hnone hspace
      (.array [(.string "x", " x ".toList)] (by simpa using hpadded))
  have hliteral : Literal (.array [.array [.string "x"], .number nan, .string ""] : Value Empty)
      " [[ x ] ,-NaN,]".toList := by
    refine @Literal.padded _ _ [' '] _ [] hspace hnone
      (.array [(.array [.string "x"], "[ x ] ".toList), (.number nan, "-NaN".toList),
        (.string "", [])] ?_)
    intro item hitem
    simp only [List.mem_cons, List.not_mem_nil, or_false] at hitem
    rcases hitem with rfl | rfl | rfl
    · exact hinner
    · exact @Literal.number _ nan (ofMagnitude true nan.magnitude) _ (by decide) (by decide)
    · exact .string ""
  exact ⟨hprintable, hliteral, readLiteral_exact.2 _ _ hprintable hliteral⟩

end CommandLine

end Delegation
