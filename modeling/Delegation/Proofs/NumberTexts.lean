import Mathlib.Tactic.FieldSimp
import Delegation.Number.Reader
import Delegation.Proofs.ShortestDecimals

/-!
# Numbers by their texts

The reader of numbers is what takes their texts apart. `Writes cs r` says that a text without sign
reads as the rational `r`. However the digits are laid out, the text of a decimal reads as that decimal
(`writes_decimal`); so the text of a finite number is a sign and digits which round to its magnitude
(`exists_text`). Since no rational rounds to two magnitudes, the word can be had from the text
(`number_inj`).

What stands in such a text is collected in `Numeral`. A number has a point or a mark of its exponent,
and an integer has neither.
-/

namespace Delegation.Number

/-! ## Reading decimals -/

/-- A text without sign that reads as `r` and is not the text of an integer. -/
structure Writes (cs : List Char) (r : ℚ) : Prop where
  reads : ∃ n e, decimal? cs = some (n, e) ∧ (n : ℚ) * 10 ^ e = r
  head : ∃ c rest, cs = c :: rest ∧ c.isDigit = true
  mark : '.' ∈ cs ∨ 'e' ∈ cs

theorem Writes.unique {cs : List Char} {r r' : ℚ} (h : Writes cs r) (h' : Writes cs r') : r = r' := by
  obtain ⟨n, e, hread, rfl⟩ := h.reads
  obtain ⟨n', e', hread', rfl⟩ := h'.reads
  obtain ⟨rfl, rfl⟩ := Prod.mk.inj (Option.some.inj (hread.symm.trans hread'))
  rfl

theorem digitsValue_eq (cs : List Char) : digitsValue cs = Nat.ofDigitChars 10 cs 0 :=
  Nat.ofDigitChars_eq_foldl.symm

section Parts

variable {whole fraction tail : List Char} {e : Int}

theorem span_digits (hwhole : ∀ c ∈ whole, c.isDigit = true)
    (htail : ∀ c, tail.head? = some c → c.isDigit = false) :
    (whole ++ tail).takeWhile Char.isDigit = whole ∧
      (whole ++ tail).dropWhile Char.isDigit = tail := by
  rw [List.takeWhile_append_of_pos hwhole, List.dropWhile_append_of_pos hwhole]
  cases tail with
  | nil => simp
  | cons c tail => simp [htail c rfl]

/-- What may follow the digits does not begin with a digit. -/
theorem not_isDigit_of_exponent? (h : exponent? tail = some e) :
    ∀ c, tail.head? = some c → c.isDigit = false := by
  intro c hc
  obtain ⟨rest, rfl⟩ := List.head?_eq_some_iff.1 hc
  by_cases hmark : c = 'e' ∨ c = 'E'
  · rcases hmark with rfl | rfl <;> rfl
  · simp [exponent?, hmark] at h

theorem exists_digit (hwhole : ∀ c ∈ whole, c.isDigit = true) (hne : whole ≠ []) (rest : List Char) :
    ∃ c cs, whole ++ rest = c :: cs ∧ c.isDigit = true := by
  cases whole with
  | nil => exact absurd rfl hne
  | cons c cs => exact ⟨c, cs ++ rest, rfl, hwhole c List.mem_cons_self⟩

/-- Digits with a point among them, and what may follow. -/
theorem writes_pointed (hwhole : ∀ c ∈ whole, c.isDigit = true) (hne : whole ≠ [])
    (hfraction : ∀ c ∈ fraction, c.isDigit = true) (htail : exponent? tail = some e) :
    Writes (whole ++ '.' :: (fraction ++ tail))
      (digitsValue (whole ++ fraction) * 10 ^ (e - fraction.length)) := by
  have hpoint : ∀ c, ('.' :: (fraction ++ tail)).head? = some c → c.isDigit = false := by
    rintro c ⟨⟩
    rfl
  obtain ⟨htake, hdrop⟩ := span_digits hwhole hpoint
  obtain ⟨htake', hdrop'⟩ := span_digits hfraction (not_isDigit_of_exponent? htail)
  refine ⟨⟨_, _, ?_, rfl⟩, exists_digit hwhole hne _, .inl (by simp)⟩
  simp only [decimal?, htake, hdrop, splitFraction, htake', hdrop']
  rw [if_neg fun h => hne h.1, htail, Option.map_some]

/-- Digits with a point among them, and nothing else. -/
theorem writes_point (hwhole : ∀ c ∈ whole, c.isDigit = true) (hne : whole ≠ [])
    (hfraction : ∀ c ∈ fraction, c.isDigit = true) :
    Writes (whole ++ '.' :: fraction)
      (digitsValue (whole ++ fraction) * 10 ^ (-fraction.length : Int)) := by
  have hend : exponent? [] = some 0 := rfl
  have htext := writes_pointed hwhole hne hfraction hend
  rwa [List.append_nil, Int.zero_sub] at htext

/-- Digits without a point, and an exponent. -/
theorem writes_whole (hwhole : ∀ c ∈ whole, c.isDigit = true) (hne : whole ≠ [])
    (htail : exponent? ('e' :: tail) = some e) :
    Writes (whole ++ 'e' :: tail) (digitsValue whole * 10 ^ e) := by
  obtain ⟨htake, hdrop⟩ := span_digits hwhole (not_isDigit_of_exponent? htail)
  have hsplit : splitFraction ('e' :: tail) = ([], 'e' :: tail) := rfl
  refine ⟨⟨_, _, ?_, rfl⟩, exists_digit hwhole hne _, .inr (by simp)⟩
  simp only [decimal?, htake, hdrop, hsplit]
  rw [if_neg fun h => hne h.1, htail]
  simp

end Parts

/-! ## Digits of naturals and integers -/

theorem isDigit_of_mem_toDigits {n : Nat} {c : Char} (h : c ∈ Nat.toDigits 10 n) : c.isDigit = true :=
  Nat.isDigit_of_mem_toDigits (by decide) (by decide) h

theorem digitsValue_toDigits (n : Nat) : digitsValue (Nat.toDigits 10 n) = n := by
  rw [digitsValue_eq, Nat.ofDigitChars_ten_toDigits]

theorem digits?_toDigits (n : Nat) : digits? (Nat.toDigits 10 n) = some n := by
  rw [digits?, if_pos ⟨Nat.toDigits_ne_nil, List.all_eq_true.2 fun c => isDigit_of_mem_toDigits⟩,
    digitsValue_toDigits]

theorem toList_toString_int (n : Int) : (toString n).toList =
    if 0 ≤ n then Nat.toDigits 10 n.toNat else '-' :: Nat.toDigits 10 (-n).toNat := by
  rw [Int.toString_eq_repr, Int.repr_eq_if]
  split <;> simp

/-- The text of an integer reads back behind the mark of an exponent. -/
theorem exponent?_toString (e : Int) : exponent? ('e' :: (toString e).toList) = some e := by
  rw [toList_toString_int]
  split
  next h =>
    have hsign : splitSign (Nat.toDigits 10 e.toNat) = (false, Nat.toDigits 10 e.toNat) := by
      unfold splitSign
      split
      next hminus => exact absurd (isDigit_of_mem_toDigits (hminus ▸ List.mem_cons_self)) (by decide)
      next hplus => exact absurd (isDigit_of_mem_toDigits (hplus ▸ List.mem_cons_self)) (by decide)
      next => rfl
    simp [exponent?, hsign, digits?_toDigits, h]
  next h =>
    simp [exponent?, splitSign, digits?_toDigits]
    omega

theorem toString_int_inj {m n : Int} (h : toString m = toString n) : m = n := by
  have hread := exponent?_toString m
  rw [h, exponent?_toString] at hread
  exact (Option.some.inj hread).symm

/-! ## The layouts of a decimal -/

theorem isDigit_of_mem_replicate {k : Nat} {c : Char} (h : c ∈ List.replicate k '0') :
    c.isDigit = true := by
  rw [List.eq_of_mem_replicate h]
  rfl

theorem isDigit_of_mem_zero : ∀ c ∈ ['0'], c.isDigit = true :=
  fun _ => isDigit_of_mem_replicate (k := 1)

section Layouts

variable {ds : List Char} (hds : ∀ c ∈ ds, c.isDigit = true) (hne : ds ≠ [])

include hds

/-- The point stands before the digits, with zeros between. -/
theorem writes_before (k : Nat) :
    Writes (['0'] ++ '.' :: (List.replicate k '0' ++ ds))
      (digitsValue ds * 10 ^ (-(k : Int) - ds.length)) := by
  have hfraction : ∀ c ∈ List.replicate k '0' ++ ds, c.isDigit = true := by
    intro c hc
    exact (List.mem_append.1 hc).elim isDigit_of_mem_replicate (hds c)
  have htext := writes_point isDigit_of_mem_zero (by decide) hfraction
  have hexponent : -((List.replicate k '0' ++ ds).length : Int) = -(k : Int) - ds.length := by
    rw [List.length_append, List.length_replicate]
    omega
  have hvalue : digitsValue (['0'] ++ (List.replicate k '0' ++ ds)) = digitsValue ds := by
    rw [← List.append_assoc, List.singleton_append, ← List.replicate_succ, digitsValue_eq,
      Nat.ofDigitChars_append, Nat.ofDigitChars_replicate_zero, digitsValue_eq, Nat.mul_zero]
  rwa [hvalue, hexponent] at htext

include hne

/-- The point stands among the digits. -/
theorem writes_among {k : Nat} (hk : 0 < k) (hk' : k ≤ ds.length) :
    Writes (ds.take k ++ '.' :: ds.drop k) (digitsValue ds * 10 ^ ((k : Int) - ds.length)) := by
  have hwhole : ∀ c ∈ ds.take k, c.isDigit = true := fun c hc => hds c (List.mem_of_mem_take hc)
  have hfraction : ∀ c ∈ ds.drop k, c.isDigit = true := fun c hc => hds c (List.mem_of_mem_drop hc)
  have htext := writes_point hwhole (by simp [List.take_eq_nil_iff, hne, hk.ne']) hfraction
  have hexponent : -((ds.drop k).length : Int) = k - ds.length := by
    rw [List.length_drop]
    omega
  rwa [List.take_append_drop, hexponent] at htext

/-- Zeros follow up to the point, and one behind it. -/
theorem writes_integer (k : Nat) :
    Writes (ds ++ List.replicate k '0' ++ '.' :: ['0']) (digitsValue ds * 10 ^ (k : Int)) := by
  have hwhole : ∀ c ∈ ds ++ List.replicate k '0', c.isDigit = true := by
    intro c hc
    exact (List.mem_append.1 hc).elim (hds c) isDigit_of_mem_replicate
  have htext := writes_point hwhole (by simp [hne]) isDigit_of_mem_zero
  have hvalue : digitsValue (ds ++ List.replicate k '0' ++ ['0']) = 10 ^ (k + 1) * digitsValue ds := by
    rw [List.append_assoc, ← List.replicate_succ', digitsValue_eq, Nat.ofDigitChars_append,
      Nat.ofDigitChars_replicate_zero, digitsValue_eq]
  have hscale : ((10 ^ (k + 1) * digitsValue ds : Nat) : ℚ) * 10 ^ (-(['0'].length : Int)) =
      digitsValue ds * 10 ^ (k : Int) := by
    rw [List.length_singleton, Nat.cast_one, zpow_neg_one, zpow_natCast]
    push_cast
    rw [pow_succ]
    field_simp
  rwa [hvalue, hscale] at htext

/-- One digit stands before the point, and an exponent follows. -/
theorem writes_marked (lead : Int) :
    Writes
      (ds.take 1 ++
        ((if ds.length = 1 then [] else '.' :: ds.drop 1) ++ 'e' :: (toString lead).toList))
      (digitsValue ds * 10 ^ (lead + 1 - ds.length)) := by
  have hmark := exponent?_toString lead
  split
  next hone =>
    have htext := writes_whole hds hne hmark
    rwa [List.take_of_length_le hone.le, List.nil_append, hone, Nat.cast_one, Int.add_sub_cancel]
  next hmany =>
    have hwhole : ∀ c ∈ ds.take 1, c.isDigit = true := fun c hc => hds c (List.mem_of_mem_take hc)
    have hfraction : ∀ c ∈ ds.drop 1, c.isDigit = true := fun c hc => hds c (List.mem_of_mem_drop hc)
    have htext := writes_pointed hwhole (by simp [List.take_eq_nil_iff, hne]) hfraction hmark
    have hexponent : lead - (ds.drop 1).length = lead + 1 - ds.length := by
      have hlength := List.length_pos_iff.2 hne
      rw [List.length_drop]
      omega
    rwa [List.take_append_drop, hexponent] at htext

end Layouts

/-- **Decimals read back.** Whatever the layout, the text of a decimal reads as that decimal. -/
theorem writes_decimal (l : Layout) (d : Nat) (p : Int) :
    Writes (l.decimal d p).toList (d * 10 ^ p) := by
  have hds : ∀ c ∈ Nat.toDigits 10 d, c.isDigit = true := fun c => isDigit_of_mem_toDigits
  have hne : Nat.toDigits 10 d ≠ [] := Nat.toDigits_ne_nil
  have hlength := List.length_pos_iff.2 hne
  have hvalue := digitsValue_toDigits d
  dsimp only [Layout.decimal]
  generalize Nat.toDigits 10 d = ds at *
  subst hvalue
  -- the place of the leading digit
  obtain ⟨lead, hp⟩ : ∃ lead : Int, p = lead + 1 - ds.length := ⟨(ds.length : Int) - 1 + p, by omega⟩
  have hlead : (ds.length : Int) - 1 + p = lead := by omega
  rw [hlead]
  split
  · split
    next hnonneg =>
      have htext := writes_integer hds hne p.toNat
      rw [Int.toNat_of_nonneg hnonneg] at htext
      simpa using htext
    next =>
      split
      next hnonneg =>
        have htext := writes_among hds hne (k := lead.toNat + 1) (by omega) (by omega)
        have hexponent : ((lead.toNat + 1 : Nat) : Int) - ds.length = p := by omega
        rw [hexponent] at htext
        simpa using htext
      next =>
        have htext := writes_before hds (-lead - 1).toNat
        have hexponent : -((-lead - 1).toNat : Int) - ds.length = p := by omega
        rw [hexponent] at htext
        simpa using htext
  · have htext := writes_marked hds hne lead
    rw [← hp] at htext
    split at htext
    next hone => simpa [hone] using htext
    next hmany => simpa [hmany] using htext

theorem writes_zero : Writes ['0', '.', '0'] 0 := by
  simpa [digitsValue] using writes_point isDigit_of_mem_zero (by decide) isDigit_of_mem_zero

/-! ## The text of a number -/

/-- The text of a finite number: a sign, and a decimal that rounds to its magnitude. -/
theorem exists_text (l : Layout) {x : Number} (hx : x.isFinite = true) :
    ∃ body r, (l.number x).toList = (if x.isNegative then ['-'] else []) ++ body ∧
      Writes body r ∧ RoundsTo r x.magnitude := by
  have hfinite : x.magnitude < infiniteMagnitude := of_decide_eq_true hx
  have hnumber : x.isNaN = false := decide_eq_false (Nat.lt_asymm hfinite)
  have hsign : (if x.isNegative then "-" else "").toList = if x.isNegative then ['-'] else [] := by
    split <;> rfl
  simp only [Layout.number, hnumber, hx, Bool.not_true, Bool.false_eq_true, if_false,
    String.toList_append, hsign]
  by_cases hzero : x.isZero = true
  · have hmagnitude : x.magnitude = 0 := by simpa [isZero] using hzero
    rw [if_pos hzero]
    exact ⟨_, _, rfl, writes_zero, hmagnitude ▸ roundsTo_zero⟩
  · have hpos : 0 < x.magnitude := by
      rw [Nat.pos_iff_ne_zero]
      exact fun h => hzero (beq_iff_eq.2 h)
    rw [if_neg hzero, significand_eq]
    exact ⟨_, _, rfl, writes_decimal l _ _, roundsTo_shortestDecimal hpos hfinite⟩

/-- **Numbers by their texts.** Finite numbers with the same text are the same word. -/
theorem number_inj (l : Layout) {x y : Number} (hx : x.isFinite = true) (hy : y.isFinite = true)
    (h : l.number x = l.number y) : x = y := by
  obtain ⟨body, r, htext, hwrites, hrounds⟩ := exists_text l hx
  obtain ⟨body', r', htext', hwrites', hrounds'⟩ := exists_text l hy
  rw [h, htext'] at htext
  obtain ⟨c, rest, rfl, hc⟩ := hwrites.head
  obtain ⟨c', rest', rfl, hc'⟩ := hwrites'.head
  -- a decimal begins with a digit, so a sign on one side is a sign on the other
  have hparts : y.isNegative = x.isNegative ∧ c' :: rest' = c :: rest := by
    cases hneg : x.isNegative <;> cases hneg' : y.isNegative <;> rw [hneg, hneg'] at htext
    · exact ⟨rfl, htext⟩
    · obtain ⟨rfl, -⟩ := List.cons.inj htext
      cases hc
    · obtain ⟨rfl, -⟩ := List.cons.inj htext
      cases hc'
    · exact ⟨rfl, (List.cons.inj htext).2⟩
  rw [hparts.2] at hwrites'
  obtain rfl := hwrites.unique hwrites'
  exact ext_magnitude hparts.1.symm (hrounds.unique hrounds')

/-! ## Characters of numbers and of integers -/

/-- A text of the characters that numbers hold, and with a first character of a number. -/
structure Numeral (cs : List Char) : Prop where
  plain : ∀ c ∈ cs, isPlain c = true
  head : ∃ c rest, cs = c :: rest ∧ (c = '-' ∨ c.isDigit = true)

theorem Numeral.minus {cs : List Char} (h : Numeral cs) : Numeral ('-' :: cs) := by
  refine ⟨?_, '-', cs, rfl, .inl rfl⟩
  intro c hc
  rcases List.mem_cons.1 hc with rfl | hc
  · decide
  · exact h.plain c hc

theorem Writes.numeral {cs : List Char} {r : ℚ} (h : Writes cs r) : Numeral cs := by
  obtain ⟨n, e, hread, -⟩ := h.reads
  obtain ⟨c, rest, hcs, hc⟩ := h.head
  exact ⟨List.all_eq_true.1 (plain_of_decimal? hread), c, rest, hcs, .inr hc⟩

theorem numeral_number (l : Layout) {x : Number} (hx : x.isFinite = true) :
    Numeral (l.number x).toList ∧ ('.' ∈ (l.number x).toList ∨ 'e' ∈ (l.number x).toList) := by
  obtain ⟨body, r, htext, hwrites, -⟩ := exists_text l hx
  rw [htext]
  split
  · exact ⟨hwrites.numeral.minus, hwrites.mark.imp (List.mem_cons_of_mem _) (List.mem_cons_of_mem _)⟩
  · exact ⟨hwrites.numeral, hwrites.mark⟩

theorem numeral_toDigits (n : Nat) : Numeral (Nat.toDigits 10 n) := by
  refine ⟨fun c hc => ?_, ?_⟩
  · simp [isPlain, isDigit_of_mem_toDigits hc]
  · obtain ⟨c, rest, hcs, hc⟩ := exists_digit (fun c => isDigit_of_mem_toDigits) Nat.toDigits_ne_nil []
    exact ⟨c, rest, by simpa using hcs, .inr hc⟩

/-- An integer is written without point and mark. -/
theorem numeral_integer (n : Int) :
    Numeral (toString n).toList ∧ '.' ∉ (toString n).toList ∧ 'e' ∉ (toString n).toList := by
  have hdigits : ∀ k c, c.isDigit = false → c ∉ Nat.toDigits 10 k := by
    intro k c hc hmem
    rw [isDigit_of_mem_toDigits hmem] at hc
    cases hc
  rw [toList_toString_int]
  split
  · exact ⟨numeral_toDigits _, hdigits _ _ rfl, hdigits _ _ rfl⟩
  · refine ⟨(numeral_toDigits _).minus, ?_, ?_⟩
    · simp [hdigits _ '.' rfl]
    · simp [hdigits _ 'e' rfl]

end Delegation.Number
