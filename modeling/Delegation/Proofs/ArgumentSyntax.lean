import Delegation.CommandLine.Configuration
import Delegation.Proofs.OptionReading

/-!
# Writing arguments

A configuration can be written as arguments in many ways. It is first said as a list of mentions, each
of which gives a setting a value or turns tracing on (`Configuration.SaidBy`): the settings in any
order, but the values of one setting in theirs. Then every mention is spelled on its own, as one
argument or two (`Mention.Spelled`).

Any lawful reader of options undoes the second step (`read_of_written`), since the settings of a
configuration are declared so that they can be told apart (`wellFormed_command`), and no setting is
mentioned twice that may be given once (`SaidBy.fits`). What it has read is the configuration again, since
the values of one setting are found together, whatever came between them (`SaidBy.ofMentions`).
-/

namespace Delegation.CommandLine

/-! ## Mentions -/

/-- A way to write a number: digits behind any zeros, and perhaps a plus sign. -/
def Denotes (text : String) (n : Nat) : Prop :=
  ∃ sign zeros, (sign = [] ∨ sign = ['+']) ∧
    text.toList = sign ++ (List.replicate zeros '0' ++ Nat.toDigits 10 n)

/-- The mentions say this configuration. What has a default need not be mentioned if it has it. -/
structure Configuration.SaidBy (c : Configuration) (ms : List Mention) : Prop where
  declared : ∀ m ∈ ms, m.setting ∈ command
  strategy : valuesOf .strategy ms = [c.strategy]
  tag : valuesOf .tag ms = [c.tag] ∨ valuesOf .tag ms = [] ∧ c.tag = "Person"
  fields : valuesOf .field ms = c.fields
  methods : valuesOf .method ms = c.methods
  count : (∃ text, valuesOf .count ms = [text] ∧ Denotes text c.count) ∨
    valuesOf .count ms = [] ∧ c.count = 2
  replaceAfter : (∃ text n, valuesOf .replaceAfter ms = [text] ∧ Denotes text n ∧
    c.replaceAfter = some n) ∨ valuesOf .replaceAfter ms = [] ∧ c.replaceAfter = none
  replaceMethods : valuesOf .replaceMethod ms = c.replaceMethods
  trace : valuesOf .trace ms = if c.trace then [""] else []

/-- The numbers of the configuration can be written so that they are read. -/
def Configuration.Counts (c : Configuration) : Prop :=
  c.count < UInt64.size ∧ ∀ n, c.replaceAfter = some n → n < UInt64.size

/-! ## Spelling -/

/-- The ways to write a mention. -/
inductive Mention.Spelled : Mention → List String → Prop where
  | attached {s : Setting} (hs : s.takesValue = true) (value : String) :
      Spelled ⟨s, value⟩ ["--" ++ s.name ++ "=" ++ value]
  | apart {s : Setting} (hs : s.takesValue = true) {value : String} (h : StandsAlone value) :
      Spelled ⟨s, value⟩ ["--" ++ s.name, value]
  | letterApart {s : Setting} {letter : Char} (hs : s.letter? = some letter) {value : String}
      (h : StandsAlone value) : Spelled ⟨s, value⟩ ["-" ++ letter.toString, value]
  | letterAssigned {s : Setting} {letter : Char} (hs : s.letter? = some letter) (value : String) :
      Spelled ⟨s, value⟩ ["-" ++ letter.toString ++ "=" ++ value]
  | letterAttached {s : Setting} {letter : Char} (hs : s.letter? = some letter) {value : String}
      (hne : value ≠ "") (hassign : value.toList.head? ≠ some '=') :
      Spelled ⟨s, value⟩ ["-" ++ letter.toString ++ value]
  | switch {s : Setting} (hs : s.takesValue = false) : Spelled ⟨s, ""⟩ ["--" ++ s.name]

/-- Mentions written one after another. -/
inductive Written : List Mention → List String → Prop where
  | nil : Written [] []
  | cons {m : Mention} {arguments : List String} {ms : List Mention} {rest : List String}
      (h : m.Spelled arguments) (hrest : Written ms rest) : Written (m :: ms) (arguments ++ rest)

/-- **Spelling does not matter.** A lawful reader finds the mentions in their order, if each of them fits
in front of those behind it. -/
theorem read_of_written {read : OptionReader} (hread : read.Lawful) {c : Command} (hc : c.WellFormed)
    {ms : List Mention} {arguments : List String} (h : Written ms arguments)
    (hfits : ∀ before m after, ms = before ++ m :: after → m.Fits c after) :
    read c arguments = .ok ms := by
  induction h with
  | nil => exact hread.nothing hc
  | @cons m spelled ms rest hspelled hrest ih =>
    have hrest : read c rest = .ok ms := ih fun before x after hms =>
      hfits (m :: before) x after (by rw [hms, List.cons_append])
    have hm : m.Fits c ms := hfits [] m ms rfl
    cases hspelled with
    | attached hs value => exact hread.attached value hc hs hrest hm
    | apart hs hvalue => exact hread.apart hc hs hvalue hrest hm
    | letterApart hs hvalue => exact hread.letterApart hc hs hvalue hrest hm
    | letterAssigned hs value => exact hread.letterAssigned value hc hs hrest hm
    | letterAttached hs hne hassign => exact hread.letterAttached hc hs hne hassign hrest hm
    | switch hs => exact hread.switch hc hs hrest hm

/-! ## Numbers -/

/-- A sign may stand before digits, and what stands before them does not matter otherwise. -/
theorem count?_digits {sign digits : List Char} (hsign : sign = [] ∨ sign = ['+'])
    (hne : digits ≠ []) (hdigits : ∀ c ∈ digits, c.isDigit = true) :
    count? (sign ++ digits) =
      if Nat.ofDigitChars 10 digits 0 < UInt64.size then some (Nat.ofDigitChars 10 digits 0)
      else none := by
  have hall : digits ≠ [] ∧ digits.all Char.isDigit = true := ⟨hne, List.all_eq_true.2 hdigits⟩
  rcases hsign with rfl | rfl
  · -- what begins with a digit does not begin with a sign
    have hplus : ∀ rest, digits ≠ '+' :: rest := by
      rintro rest rfl
      have hplus := hdigits '+' List.mem_cons_self
      revert hplus
      decide
    unfold count?
    split
    · exact absurd ‹_› (hplus _)
    · exact if_pos hall
  · exact if_pos hall

theorem count?_of_denotes {text : String} {n : Nat} (h : Denotes text n) (hn : n < UInt64.size) :
    count? text.toList = some n := by
  obtain ⟨sign, zeros, hsign, htext⟩ := h
  have hdigits : ∀ c ∈ List.replicate zeros '0' ++ Nat.toDigits 10 n, c.isDigit = true := by
    intro c hc
    rcases List.mem_append.1 hc with hzero | hdigit
    · rw [List.eq_of_mem_replicate hzero]
      rfl
    · exact Nat.isDigit_of_mem_toDigits (by decide) (by decide) hdigit
  have hvalue : Nat.ofDigitChars 10 (List.replicate zeros '0' ++ Nat.toDigits 10 n) 0 = n := by
    rw [Nat.ofDigitChars_append, Nat.ofDigitChars_replicate_zero, Nat.mul_zero,
      Nat.ofDigitChars_ten_toDigits]
  rw [htext, count?_digits hsign (by simp [Nat.toDigits_ne_nil]) hdigits, hvalue, if_pos hn]

/-! ## The values of a setting -/

theorem mem_valuesOf {m : Mention} {ms : List Mention} (h : m ∈ ms) :
    m.value ∈ valuesOf m.setting ms :=
  List.mem_map.2 ⟨m, List.mem_filter.2 ⟨h, by simp⟩, rfl⟩

/-- A setting that has one value at most is not mentioned again. -/
theorem not_mem_of_length_valuesOf {before after : List Mention} {m : Mention}
    (h : (valuesOf m.setting (before ++ m :: after)).length ≤ 1) :
    m.setting ∉ after.map (·.setting) := by
  intro hagain
  obtain ⟨x, hx, hsame⟩ := List.mem_map.1 hagain
  have hpos : 0 < (after.filter fun x => x.setting = m.setting).length :=
    List.length_pos_of_mem (List.mem_filter.2 ⟨hx, by simpa using hsame⟩)
  simp only [valuesOf, List.filter_append, List.filter_cons, decide_true, if_true, List.map_append,
    List.map_cons, List.length_append, List.length_cons, List.length_map] at h
  omega

namespace Configuration

/-- The settings of a configuration can be told apart. -/
theorem wellFormed_command : command.WellFormed where
  names := by decide
  letters := by decide
  plainNames := by decide
  plainLetters := by
    have hall : ∀ s ∈ command, (s.letter?.all fun letter =>
        letter != '-' && letter != '=' && letter != 'h') = true := by decide
    intro s hs letter hletter
    have hplain := hall s hs
    rw [show s.letter? = some letter from hletter] at hplain
    simpa [and_assoc] using hplain

variable {c : Configuration} {ms : List Mention}

/-- What may be given once only is mentioned once at most. -/
theorem SaidBy.length_valuesOf (h : c.SaidBy ms) {s : Setting} (hs : s ∈ command)
    (honce : s.isRepeatable = false) : (valuesOf s ms).length ≤ 1 := by
  simp only [command, List.mem_cons, List.not_mem_nil, or_false] at hs
  rcases hs with rfl | rfl | rfl | rfl | rfl | rfl | rfl | rfl
  · simp [h.strategy]
  · rcases h.tag with htag | ⟨htag, -⟩ <;> simp [htag]
  · cases honce
  · cases honce
  · rcases h.count with ⟨_, hcount, -⟩ | ⟨hcount, -⟩ <;> simp [hcount]
  · rcases h.replaceAfter with ⟨_, _, hafter, -⟩ | ⟨hafter, -⟩ <;> simp [hafter]
  · cases honce
  · rw [h.trace]
    split <;> simp

/-- Every value is one that its setting takes. -/
theorem SaidBy.accepts (h : c.SaidBy ms) (hc : c.Counts) {m : Mention} (hm : m ∈ ms) :
    m.setting.accepts m.value = true := by
  obtain ⟨s, value⟩ := m
  have hs : s ∈ command := h.declared _ hm
  have hvalue : value ∈ valuesOf s ms := mem_valuesOf hm
  have hcounts : ∀ {n}, Denotes value n → n < UInt64.size → (Kind.count.accepts value) = true := by
    intro n hdenotes hn
    rw [Kind.accepts, count?_of_denotes hdenotes hn]
    rfl
  simp only [command, List.mem_cons, List.not_mem_nil, or_false] at hs
  rcases hs with rfl | rfl | rfl | rfl | rfl | rfl | rfl | rfl
  case inr.inr.inr.inr.inl =>
    rcases h.count with ⟨text, htext, hdenotes⟩ | ⟨hnil, -⟩
    · rw [htext, List.mem_singleton] at hvalue
      exact hcounts (hvalue ▸ hdenotes) hc.1
    · rw [hnil] at hvalue
      cases hvalue
  case inr.inr.inr.inr.inr.inl =>
    rcases h.replaceAfter with ⟨text, n, htext, hdenotes, hn⟩ | ⟨hnil, -⟩
    · rw [htext, List.mem_singleton] at hvalue
      exact hcounts (hvalue ▸ hdenotes) (hc.2 n hn)
    · rw [hnil] at hvalue
      cases hvalue
  case inr.inr.inr.inr.inr.inr.inr =>
    rw [h.trace] at hvalue
    have hempty : value = "" := by
      split at hvalue
      · exact List.mem_singleton.1 hvalue
      · cases hvalue
    rw [hempty]
    rfl
  all_goals rfl

theorem SaidBy.fits (h : c.SaidBy ms) (hc : c.Counts) (before : List Mention) (m : Mention)
    (after : List Mention) (hms : ms = before ++ m :: after) : m.Fits command after := by
  have hm : m ∈ ms := by simp [hms]
  have hdeclared := h.declared m hm
  exact ⟨hdeclared, h.accepts hc hm, fun honce =>
    not_mem_of_length_valuesOf (hms ▸ h.length_valuesOf hdeclared honce)⟩

/-- All mentions of a configuration add up to it. -/
theorem SaidBy.ofMentions (h : c.SaidBy ms) (hc : c.Counts) :
    Configuration.ofMentions ms = .ok c := by
  have htag : (valuesOf .tag ms).head?.getD "Person" = c.tag := by
    rcases h.tag with htag | ⟨hnil, hdefault⟩
    · rw [htag]
      rfl
    · rw [hnil, hdefault]
      rfl
  have hcount : ((valuesOf .count ms).head?.bind fun value => count? value.toList).getD 2 = c.count := by
    rcases h.count with ⟨text, htext, hdenotes⟩ | ⟨hnil, hdefault⟩
    · simp [htext, count?_of_denotes hdenotes hc.1]
    · simp [hnil, hdefault]
  have hafter : ((valuesOf .replaceAfter ms).head?.bind fun value => count? value.toList) =
      c.replaceAfter := by
    rcases h.replaceAfter with ⟨text, n, htext, hdenotes, hn⟩ | ⟨hnil, hnone⟩
    · simp [htext, count?_of_denotes hdenotes (hc.2 n hn), hn]
    · simp [hnil, hnone]
  have htrace : (valuesOf .trace ms).head?.isSome = c.trace := by
    rw [h.trace]
    cases c.trace <;> rfl
  simp only [Configuration.ofMentions, h.strategy, List.head?_cons, htag, h.fields, h.methods, hcount,
    hafter, h.replaceMethods, htrace]

/-! ## Reading back -/

/-- **Arguments round-trip.** However a configuration is written as arguments, reading their options with
any lawful reader gives this configuration back: each mention may be spelled in any of its ways, the
mentions may be mixed in any way that keeps the values of one setting in order, and what has its default
may be left out. -/
theorem ofArguments_of_written {read : OptionReader} (hread : read.Lawful) {ms : List Mention}
    {arguments : List String} (hc : c.Counts) (hsaid : c.SaidBy ms) (hwritten : Written ms arguments) :
    Configuration.ofArguments read arguments = .ok c := by
  have hms : read command arguments = .ok ms :=
    read_of_written hread wellFormed_command hwritten (hsaid.fits hc)
  rw [ofArguments, hms]
  exact hsaid.ofMentions hc

/-- A configuration with values that are empty, a dash, and another setting's name. -/
def knotty : Configuration where
  strategy := "factory"
  tag := "-"
  fields := ["a=1", ""]
  methods := ["--trace"]
  count := 3
  replaceAfter := some 7
  replaceMethods := ["m"]
  trace := true

/-- What is mentioned of it: the two fields are apart, and the count is not written in the usual way. -/
def knottyMentions : List Mention := [
  ⟨.field, "a=1"⟩, ⟨.trace, ""⟩, ⟨.strategy, "factory"⟩, ⟨.method, "--trace"⟩, ⟨.tag, "-"⟩,
  ⟨.count, "+03"⟩, ⟨.field, ""⟩, ⟨.replaceAfter, "7"⟩, ⟨.replaceMethod, "m"⟩]

/-- Each way of spelling is used. -/
theorem ofArguments_of_written_knotty :
    OptionReader.Lawful Command.read ∧ knotty.Counts ∧ knotty.SaidBy knottyMentions ∧
      Configuration.ofArguments Command.read ["-f", "a=1", "--trace", "-sfactory", "--method=--trace",
        "-t", "-", "-n=+03", "--field", "", "--replace-after=7", "--replace-method", "m"] =
          .ok knotty := by
  have hc : knotty.Counts := by
    refine ⟨by decide, ?_⟩
    rintro n ⟨⟩
    decide
  have hsaid : knotty.SaidBy knottyMentions := by
    constructor
    case declared => decide
    case count => exact .inl ⟨_, rfl, ['+'], 1, .inr rfl, rfl⟩
    case replaceAfter => exact .inl ⟨_, 7, rfl, ⟨[], 0, .inl rfl, rfl⟩, rfl⟩
    case tag => exact .inl rfl
    all_goals rfl
  refine ⟨Command.lawful_read, hc, hsaid, ofArguments_of_written Command.lawful_read hc hsaid ?_⟩
  exact .cons (.letterApart (s := .field) rfl (.inr (by decide))) <| .cons (.switch rfl) <|
    .cons (.letterAttached (s := .strategy) rfl (by decide) (by decide)) <|
    .cons (.attached (s := .method) rfl _) <| .cons (.letterApart (s := .tag) rfl (.inl rfl)) <|
    .cons (.letterAssigned (s := .count) rfl _) <|
    .cons (.apart (s := .field) rfl (.inr (by decide))) <|
    .cons (.attached (s := .replaceAfter) rfl _) <|
    .cons (.apart (s := .replaceMethod) rfl (.inr (by decide))) .nil

end Configuration

end Delegation.CommandLine
