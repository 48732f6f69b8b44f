/-!
# Blanks

The characters of the Unicode property `White_Space`, and the text without those at its ends. A text
whose first and last characters are not blank is left as it is (`trim_of_ends`), and what trimming
leaves is such a text (`tight_trim`); blanks around a text do not count (`trim_padded`). No text becomes
longer (`length_trim_le`), which is what bounds the readers that trim as they descend.
-/

namespace Delegation.Text

/-- The property `White_Space`: twenty-five characters. -/
def isBlank (c : Char) : Bool :=
  let n := c.toNat
  (0x9 ≤ n && n ≤ 0xd) || n == 0x20 || n == 0x85 || n == 0xa0 || n == 0x1680
    || (0x2000 ≤ n && n ≤ 0x200a) || n == 0x2028 || n == 0x2029 || n == 0x202f || n == 0x205f
    || n == 0x3000

/-- The characters without the blanks at the end. -/
def trimEnd (cs : List Char) : List Char := (cs.reverse.dropWhile isBlank).reverse

/-- The characters without the blanks at both ends. -/
def trim (cs : List Char) : List Char := trimEnd (cs.dropWhile isBlank)

/-- A text that neither starts nor ends with a blank. -/
def Tight (cs : List Char) : Prop :=
  (∀ c, cs.head? = some c → isBlank c = false) ∧ ∀ c, cs.getLast? = some c → isBlank c = false

/-! ## Laws of trimming -/

@[simp] theorem trimEnd_nil : trimEnd [] = [] := rfl

/-- Trimming never makes a text longer. -/
theorem length_trim_le (cs : List Char) : (trim cs).length ≤ cs.length := by
  have h (l : List Char) : (l.dropWhile isBlank).length ≤ l.length :=
    (List.dropWhile_sublist _).length_le
  calc (trim cs).length = ((cs.dropWhile isBlank).reverse.dropWhile isBlank).length := by
        simp [trim, trimEnd]
    _ ≤ (cs.dropWhile isBlank).reverse.length := h _
    _ = (cs.dropWhile isBlank).length := List.length_reverse
    _ ≤ cs.length := h _

/-- Dropping leading blanks changes nothing when the first character is not blank. -/
theorem dropWhile_blank_of_head {cs : List Char} (h : ∀ c, cs.head? = some c → isBlank c = false) :
    cs.dropWhile isBlank = cs := by
  cases cs with
  | nil => rfl
  | cons c cs => simp [h c rfl]

/-- **Nothing to trim.** A text whose first and last characters are not blank stays as it is. -/
theorem trim_of_ends {cs : List Char} (hhead : ∀ c, cs.head? = some c → isBlank c = false)
    (hlast : ∀ c, cs.getLast? = some c → isBlank c = false) : trim cs = cs := by
  rw [trim, dropWhile_blank_of_head hhead, trimEnd, dropWhile_blank_of_head, List.reverse_reverse]
  intro c hc
  exact hlast c (by rwa [List.head?_reverse] at hc)

/-- Blanks at the end do not count. -/
theorem trimEnd_append_blank {cs after : List Char} (h : ∀ c ∈ after, isBlank c = true) :
    trimEnd (cs ++ after) = trimEnd cs := by
  have hrev : ∀ c ∈ after.reverse, isBlank c = true := fun c hc => h c (List.mem_reverse.1 hc)
  rw [trimEnd, List.reverse_append, List.dropWhile_append_of_pos hrev, trimEnd]

theorem dropWhile_blanks {cs : List Char} (h : ∀ c ∈ cs, isBlank c = true) :
    cs.dropWhile isBlank = [] := by
  rw [← List.append_nil cs, List.dropWhile_append_of_pos h, List.dropWhile_nil]

/-- **Padding.** Blanks around a text do not count. -/
theorem trim_padded {before cs after : List Char} (hbefore : ∀ c ∈ before, isBlank c = true)
    (hafter : ∀ c ∈ after, isBlank c = true) : trim (before ++ cs ++ after) = trim cs := by
  rw [trim, List.append_assoc, List.dropWhile_append_of_pos hbefore, List.dropWhile_append]
  split
  next hblank =>
    -- nothing but blanks: what is left of `after` is nothing as well
    rw [dropWhile_blanks hafter, trim, List.isEmpty_iff.1 hblank]
  next => exact trimEnd_append_blank hafter

/-- The end that `trimEnd` cuts off. -/
theorem exists_trimEnd (cs : List Char) :
    ∃ after, (∀ c ∈ after, isBlank c = true) ∧ cs = trimEnd cs ++ after := by
  refine ⟨(cs.reverse.takeWhile isBlank).reverse, fun c hc => ?_, ?_⟩
  · exact List.all_eq_true.1 List.all_takeWhile c (List.mem_reverse.1 hc)
  · rw [trimEnd, ← List.reverse_append, List.takeWhile_append_dropWhile, List.reverse_reverse]

/-- A text is its trimmed middle with blanks around it. -/
theorem exists_trim (cs : List Char) :
    ∃ before after, (∀ c ∈ before, isBlank c = true) ∧ (∀ c ∈ after, isBlank c = true) ∧
      cs = before ++ trim cs ++ after := by
  obtain ⟨after, hafter, heq⟩ := exists_trimEnd (cs.dropWhile isBlank)
  refine ⟨cs.takeWhile isBlank, after, fun c hc => ?_, hafter, ?_⟩
  · exact List.all_eq_true.1 List.all_takeWhile c hc
  · rw [List.append_assoc, trim, ← heq, List.takeWhile_append_dropWhile]

theorem mem_of_mem_trim {cs : List Char} {c : Char} (h : c ∈ trim cs) : c ∈ cs := by
  obtain ⟨before, after, -, -, heq⟩ := exists_trim cs
  rw [heq]
  exact List.mem_append_left _ (List.mem_append_right _ h)

theorem tight_trim (cs : List Char) : Tight (trim cs) := by
  constructor
  · intro c hc
    obtain ⟨after, -, heq⟩ := exists_trimEnd (cs.dropWhile isBlank)
    have hhead : (cs.dropWhile isBlank).head? = some c := by
      rw [heq, List.head?_append, ← trim, hc, Option.some_or]
    simpa [hhead] using List.head?_dropWhile_not isBlank cs
  · intro c hc
    have hhead : ((cs.dropWhile isBlank).reverse.dropWhile isBlank).head? = some c := by
      rwa [trim, trimEnd, List.getLast?_reverse] at hc
    simpa [hhead] using List.head?_dropWhile_not isBlank (cs.dropWhile isBlank).reverse

theorem tight_of_forall {cs : List Char} (h : ∀ c ∈ cs, isBlank c = false) : Tight cs :=
  ⟨fun c hc => h c (List.mem_of_head? hc), fun c hc => h c (List.mem_of_getLast? hc)⟩

theorem trim_of_tight {cs : List Char} (h : Tight cs) : trim cs = cs := trim_of_ends h.1 h.2

/-- Only blanks are trimmed to nothing. -/
theorem trim_eq_nil_iff {cs : List Char} : trim cs = [] ↔ ∀ c ∈ cs, isBlank c = true := by
  constructor
  · intro h c hc
    obtain ⟨before, after, hbefore, hafter, heq⟩ := exists_trim cs
    rw [h, List.append_nil] at heq
    rw [heq] at hc
    exact (List.mem_append.1 hc).elim (hbefore c) (hafter c)
  · intro h
    rw [trim, dropWhile_blanks h, trimEnd_nil]

end Delegation.Text
