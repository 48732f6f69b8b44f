import Delegation.Number.Rounding
/-!
# Reading numbers

The texts that are read as a number: an optional sign, then either one of the words `inf`,
`infinity` and `nan` in any case, or digits with at most one point among or around them, at least
one digit, and an optional exponent. Nothing may stand before or after. The value is the number
nearest to the decimal.

Every character of such a text is a digit, a letter, a sign or a point, which is what keeps numbers
apart from lists and blanks (`plain_of_read?`).
-/

namespace Delegation.Number

/-! ## The parts of a number's text -/

/-- Takes a leading sign off; `true` is minus. -/
def splitSign : List Char → Bool × List Char
  | '-' :: cs => (true, cs)
  | '+' :: cs => (false, cs)
  | cs => (false, cs)

/-- The natural that a list of digits stands for. -/
def digitsValue (cs : List Char) : Nat :=
  cs.foldl (fun n c => 10 * n + (c.toNat - '0'.toNat)) 0

/-- Digits up to the end, at least one. -/
def digits? (cs : List Char) : Option Nat :=
  if cs ≠ [] ∧ cs.all Char.isDigit then some (digitsValue cs) else none

/-- What may follow the digits: nothing, or an exponent up to the end. -/
def exponent? : List Char → Option Int
  | [] => some 0
  | c :: cs =>
    if c = 'e' ∨ c = 'E' then
      let (negative, ds) := splitSign cs
      (digits? ds).map fun n => if negative then -(n : Int) else n
    else none

/-- The digits after the point, and what stands after them; none without a point. -/
def splitFraction : List Char → List Char × List Char
  | '.' :: cs => (cs.takeWhile Char.isDigit, cs.dropWhile Char.isDigit)
  | cs => ([], cs)

/-- A decimal without sign: its digits as one natural, and the power of ten that scales them. -/
def decimal? (cs : List Char) : Option (Nat × Int) :=
  let whole := cs.takeWhile Char.isDigit
  let (fraction, rest) := splitFraction (cs.dropWhile Char.isDigit)
  if whole = [] ∧ fraction = [] then none
  else (exponent? rest).map fun e => (digitsValue (whole ++ fraction), e - fraction.length)

/-- The magnitude of a word for a value that no digits write. -/
def word? (cs : List Char) : Option Nat :=
  let lower := cs.map Char.toLower
  if lower = ['i', 'n', 'f'] ∨ lower = ['i', 'n', 'f', 'i', 'n', 'i', 't', 'y'] then
    some infiniteMagnitude
  else if lower = ['n', 'a', 'n'] then some nan.magnitude
  else none

/-- Reads a whole text as a number. -/
def read? (cs : List Char) : Option Number :=
  let (negative, body) := splitSign cs
  match word? body with
  | some m => some (ofMagnitude negative m)
  | none => (decimal? body).map fun (n, e) => ofDecimal negative n e

/-! ## Characters of a number's text -/

/-- The characters that a number's text may hold. -/
def isPlain (c : Char) : Bool := c.isDigit || c.isAlpha || c == '+' || c == '-' || c == '.'

theorem plain_of_splitSign {cs : List Char} (h : (splitSign cs).2.all isPlain = true) :
    cs.all isPlain = true := by
  unfold splitSign at h
  split at h
  · simpa [isPlain] using h
  · simpa [isPlain] using h
  · exact h

theorem plain_of_isDigit {cs : List Char} (h : cs.all Char.isDigit = true) :
    cs.all isPlain = true := by
  simp only [List.all_eq_true] at h ⊢
  intro c hc
  simp [isPlain, h c hc]

theorem plain_of_exponent? {cs : List Char} {e : Int} (h : exponent? cs = some e) :
    cs.all isPlain = true := by
  cases cs with
  | nil => rfl
  | cons c cs =>
    simp only [exponent?] at h
    split at h
    next hc =>
      have hd : (splitSign cs).2.all Char.isDigit = true := by
        cases hs : digits? (splitSign cs).2 with
        | none => simp [hs] at h
        | some n =>
          unfold digits? at hs
          split at hs
          next hall => exact hall.2
          next => simp at hs
      have htail := plain_of_splitSign (plain_of_isDigit hd)
      rcases hc with rfl | rfl <;> simpa [isPlain] using htail
    next => simp at h

/-- A list splits into its leading digits, all digits, and the rest. -/
theorem plain_of_span {cs : List Char} (h : (cs.dropWhile Char.isDigit).all isPlain = true) :
    cs.all isPlain = true := by
  induction cs with
  | nil => rfl
  | cons c cs ih =>
    rw [List.dropWhile_cons] at h
    split at h
    next hc => rw [List.all_cons, ih h]; simp [isPlain, hc]
    next => exact h

theorem plain_of_splitFraction {cs : List Char} (h : (splitFraction cs).2.all isPlain = true) :
    cs.all isPlain = true := by
  unfold splitFraction at h
  split at h
  · simpa [isPlain] using plain_of_span h
  · exact h

theorem plain_of_decimal? {cs : List Char} {p : Nat × Int} (h : decimal? cs = some p) :
    cs.all isPlain = true := by
  simp only [decimal?] at h
  split at h
  · simp at h
  · obtain ⟨e, he, -⟩ := Option.map_eq_some_iff.1 h
    exact plain_of_span (plain_of_splitFraction (plain_of_exponent? he))

theorem isAlpha_of_toLower {c : Char} (h : c.toLower.isAlpha = true) : c.isAlpha = true := by
  by_cases hc : c.isUpper = true
  · exact Bool.or_eq_true_iff.2 (.inl hc)
  · have : c.toLower = c := by
      unfold Char.toLower
      rw [dif_neg fun h => hc (decide_eq_true h)]
    rwa [this] at h

theorem plain_of_lower {cs w : List Char} (h : cs.map Char.toLower = w)
    (hw : w.all Char.isAlpha = true) : cs.all isPlain = true := by
  subst h
  simp only [List.all_map, List.all_eq_true, Function.comp] at hw ⊢
  intro c hc
  simp [isPlain, isAlpha_of_toLower (hw c hc)]

theorem plain_of_word? {cs : List Char} {m : Nat} (h : word? cs = some m) :
    cs.all isPlain = true := by
  simp only [word?] at h
  split at h
  next hw => rcases hw with hw | hw <;> exact plain_of_lower hw (by decide)
  next =>
    split at h
    next hw => exact plain_of_lower hw (by decide)
    next => simp at h

/-- **Numbers are plain.** A text that reads as a number holds digits, letters, signs and points. -/
theorem plain_of_read? {cs : List Char} {x : Number} (h : read? cs = some x) :
    cs.all isPlain = true := by
  refine plain_of_splitSign ?_
  simp only [read?] at h
  split at h
  next m hm => exact plain_of_word? hm
  next =>
    obtain ⟨p, hp, -⟩ := Option.map_eq_some_iff.1 h
    exact plain_of_decimal? hp

end Delegation.Number
