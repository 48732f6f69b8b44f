import Delegation.Number.Reader
import Delegation.Text.Blank
import Delegation.Value
/-!
# Literals

How a field's value is written on the command line. Blanks at the ends do not count. A text in
brackets is an array: what stands between them is cut at every comma, also at one inside inner
brackets, and each piece is read in the same way; nothing but blanks between them is the empty
array. The words `true`, `false` and `null` and the texts of numbers stand for themselves, and any
other text is a string.

Every piece is shorter than the text it was cut from (`length_lt_of_mem_pieces`), so the reading
ends.
-/

namespace Delegation.CommandLine

/-! ## Cutting -/

/-- Cuts a text at every comma. -/
def pieces : List Char → List (List Char)
  | [] => [[]]
  | c :: cs =>
    if c = ',' then [] :: pieces cs
    else
      match pieces cs with
      | [] => [[c]]
      | p :: ps => (c :: p) :: ps

/-- What stands between a bracket at the start and one at the end. -/
def unbracket? : List Char → Option (List Char)
  | '[' :: rest => if rest.getLast? = some ']' then some rest.dropLast else none
  | _ => none

/-- No piece is longer than the text. -/
theorem length_le_of_mem_pieces {cs p : List Char} (h : p ∈ pieces cs) : p.length ≤ cs.length := by
  induction cs generalizing p with
  | nil => simp_all [pieces]
  | cons c cs ih =>
    rw [pieces] at h
    split at h
    next =>
      rcases List.mem_cons.1 h with rfl | h
      · simp
      · exact Nat.le_succ_of_le (ih h)
    next =>
      split at h
      next => simp_all
      next q qs hq =>
        rcases List.mem_cons.1 h with rfl | h
        · simpa using ih (hq ▸ List.mem_cons_self)
        · exact Nat.le_succ_of_le (ih (hq ▸ List.mem_cons_of_mem _ h))

/-- What stands between brackets is shorter than the text. -/
theorem length_lt_of_unbracket? {cs inner : List Char} (h : unbracket? cs = some inner) :
    inner.length < cs.length := by
  unfold unbracket? at h
  split at h
  next rest =>
    split at h
    · obtain rfl : rest.dropLast = inner := by simpa using h
      rw [List.length_dropLast, List.length_cons]
      omega
    · simp at h
  next => simp at h

/-- **Descent.** A piece of a bracketed text is shorter than the text with its blanks. -/
theorem length_lt_of_mem_pieces {raw inner p : List Char}
    (hinner : unbracket? (Text.trim raw) = some inner) (hp : p ∈ pieces inner) :
    p.length < raw.length :=
  Nat.lt_of_le_of_lt (length_le_of_mem_pieces hp)
    (Nat.lt_of_lt_of_le (length_lt_of_unbracket? hinner) (Text.length_trim_le raw))

/-! ## Reading -/

variable {μ : Type}

/-- Reads a trimmed text that is not in brackets. -/
def readPlain (text : List Char) : Value μ :=
  if text = "true".toList then .bool true
  else if text = "false".toList then .bool false
  else if text = "null".toList then .null
  else
    match Number.read? text with
    | some x => .number x
    | none => .string (String.ofList text)

/-- Reads a literal. -/
def readLiteral (raw : List Char) : Value μ :=
  match h : unbracket? (Text.trim raw) with
  | some inner =>
    if Text.trim inner = [] then .array []
    else .array ((pieces inner).attach.map fun ⟨p, hp⟩ =>
      have := length_lt_of_mem_pieces h hp
      readLiteral p)
  | none => readPlain (Text.trim raw)
termination_by raw.length

/-- **Arrays.** A bracketed text that is not blank inside is the array of its pieces. -/
theorem readLiteral_bracketed {raw inner : List Char}
    (h : unbracket? (Text.trim raw) = some inner) :
    (readLiteral raw : Value μ) =
      if Text.trim inner = [] then .array [] else .array ((pieces inner).map readLiteral) := by
  rw [readLiteral]
  split
  next i hi =>
    obtain rfl : i = inner := by simpa using hi.symm.trans h
    simp
  next hi => simp [h] at hi

/-- **Everything else** is read as a whole. -/
theorem readLiteral_plain {raw : List Char} (h : unbracket? (Text.trim raw) = none) :
    (readLiteral raw : Value μ) = readPlain (Text.trim raw) := by
  rw [readLiteral]
  split
  next i hi => simp [h] at hi
  next => rfl

end Delegation.CommandLine
