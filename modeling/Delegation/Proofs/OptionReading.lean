import Delegation.CommandLine.Options

/-!
# Readers of options

What a program may rely on when it has its options read (`OptionReader.Lawful`). The promises are about
one setting in front of other arguments: whatever they give, the setting is given before, in each of the
ways in which it can be written. They hold for commands in which no name and no letter has two meanings
(`Command.WellFormed`).

`Command.read` keeps them (`Command.lawful_read`). It settles a value that stands alone only later, and so
what it makes of the arguments behind is not part of its state at any point. But it does not look back:
what is given by arguments is the same after anything that was given before, as long as nothing is given
twice that may be given once (`readAfter_frame`).
-/

namespace Delegation.CommandLine

/-! ## Promises -/

/-- The settings of a command can be told apart by their names and by their letters, and none of them is
written like something else. -/
structure Command.WellFormed (c : Command) : Prop where
  names : ∀ s ∈ c, ∀ t ∈ c, s.name = t.name → s = t
  letters : ∀ s ∈ c, ∀ t ∈ c, s.letter? = t.letter? → s.letter?.isSome = true → s = t
  plainNames : ∀ s ∈ c, s.name ≠ "" ∧ s.name ≠ "help" ∧ '=' ∉ s.name.toList
  plainLetters : ∀ s ∈ c, ∀ letter ∈ s.letter?, letter ≠ '-' ∧ letter ≠ '=' ∧ letter ≠ 'h'

/-- A value can be an argument of its own if it does not look like a setting. A single dash does not. -/
def StandsAlone (value : String) : Prop := value = "-" ∨ value.toList.head? ≠ some '-'

/-- Whether something can be given before the rest. -/
structure Mention.Fits (m : Mention) (c : Command) (rest : List Mention) : Prop where
  declared : m.setting ∈ c
  accepted : m.setting.accepts m.value = true
  once : m.setting.isRepeatable = false → m.setting ∉ rest.map (·.setting)

/-- In front of others, the arguments give one thing before all that the others give. -/
def OptionReader.Adds (read : OptionReader) (c : Command) (arguments : List String) (m : Mention) :
    Prop :=
  ∀ {rest : List String} {later : List Mention}, read c rest = .ok later → m.Fits c later →
    read c (arguments ++ rest) = .ok (m :: later)

/-- What a reader of options promises, for each way to write one setting. -/
structure OptionReader.Lawful (read : OptionReader) : Prop where
  /-- Without arguments nothing is given. -/
  nothing : ∀ {c : Command}, c.WellFormed → read c [] = .ok []
  /-- Behind the name and an equals sign there may be any value. -/
  attached : ∀ {c : Command} {s : Setting} (value : String), c.WellFormed → s.takesValue = true →
    read.Adds c ["--" ++ s.name ++ "=" ++ value] ⟨s, value⟩
  /-- The value may be the argument after the name, unless it looks like a setting. -/
  apart : ∀ {c : Command} {s : Setting} {value : String}, c.WellFormed → s.takesValue = true →
    StandsAlone value → read.Adds c ["--" ++ s.name, value] ⟨s, value⟩
  /-- Behind the letter and an equals sign there may be any value. -/
  letterAssigned : ∀ {c : Command} {s : Setting} {letter : Char} (value : String), c.WellFormed →
    s.letter? = some letter → read.Adds c ["-" ++ letter.toString ++ "=" ++ value] ⟨s, value⟩
  /-- The value may be attached to the letter, unless there is none or it begins with an equals sign. -/
  letterAttached : ∀ {c : Command} {s : Setting} {letter : Char} {value : String}, c.WellFormed →
    s.letter? = some letter → value ≠ "" → value.toList.head? ≠ some '=' →
    read.Adds c ["-" ++ letter.toString ++ value] ⟨s, value⟩
  /-- The value may be the argument after the letter, unless it looks like a setting. -/
  letterApart : ∀ {c : Command} {s : Setting} {letter : Char} {value : String}, c.WellFormed →
    s.letter? = some letter → StandsAlone value →
    read.Adds c ["-" ++ letter.toString, value] ⟨s, value⟩
  /-- A switch is given by its name. -/
  switch : ∀ {c : Command} {s : Setting}, c.WellFormed → s.takesValue = false →
    read.Adds c ["--" ++ s.name] ⟨s, ""⟩

/-! ## Single arguments -/

namespace Argument

variable {c : Command} {s : Setting} {letter : Char} {value : String}

/-- What tells the members of a list apart finds each of them. -/
theorem find?_of_mem {α : Type} {p : α → Bool} {l : List α} {a : α} (ha : a ∈ l) (hp : p a = true)
    (h : ∀ b ∈ l, p b = true → b = a) : l.find? p = some a := by
  cases hfind : l.find? p with
  | none => exact absurd hp (by simpa using List.find?_eq_none.1 hfind a ha)
  | some b => rw [h b (List.mem_of_find?_eq_some hfind) (List.find?_some hfind)]

theorem find?_name (hc : c.WellFormed) (hs : s ∈ c) : (c.find? fun t => t.name = s.name) = some s :=
  find?_of_mem hs (by simp) fun t ht htext => hc.names t ht s hs (by simpa using htext)

theorem find?_letter (hc : c.WellFormed) (hs : s ∈ c) (hletter : s.letter? = some letter) :
    (c.find? fun t => t.letter? = some letter) = some s := by
  refine find?_of_mem hs (by simp [hletter]) fun t ht htext => ?_
  have ht' : t.letter? = some letter := by simpa using htext
  exact hc.letters t ht s hs (ht'.trans hletter.symm) (by simp [ht'])

theorem ofText_of_dashes {text : String} {rest : List Char} (h : text.toList = '-' :: '-' :: rest)
    (hne : rest ≠ []) : ofText c text = ofLong c rest := by
  rw [ofText, h]
  cases rest with
  | nil => exact absurd rfl hne
  | cons => rfl

theorem ofText_of_dash {text : String} {rest : List Char} (h : text.toList = '-' :: letter :: rest)
    (hletter : letter ≠ '-') : ofText c text = ofShort c letter rest := by
  rw [ofText, h]
  split <;> simp_all

theorem ofText_of_standsAlone (h : StandsAlone value) : ofText c value = .plain value := by
  rw [ofText]
  rcases h with rfl | h
  · rfl
  · split <;> simp_all

/-! ### Names -/

section

variable (hc : c.WellFormed) (hs : s ∈ c)

include hc hs

theorem toList_name_ne_nil : s.name.toList ≠ [] := by
  simpa using (hc.plainNames s hs).1

theorem ofText_name (htakes : s.takesValue = true) : ofText c ("--" ++ s.name) = .setting s none := by
  have hsplit := splitAssignment_of_not_mem (hc.plainNames s hs).2.2
  rw [ofText_of_dashes (by simp) (toList_name_ne_nil hc hs), ofLong, hsplit]
  simp only [String.ofList_toList, find?_name hc hs, htakes, if_true, Option.map_none]

theorem ofText_switch (htakes : s.takesValue = false) : ofText c ("--" ++ s.name) = .switch s := by
  have hsplit := splitAssignment_of_not_mem (hc.plainNames s hs).2.2
  rw [ofText_of_dashes (by simp) (toList_name_ne_nil hc hs), ofLong, hsplit]
  simp [String.ofList_toList, find?_name hc hs, htakes]

theorem ofText_assigned (htakes : s.takesValue = true) :
    ofText c ("--" ++ s.name ++ "=" ++ value) = .setting s (some value) := by
  have htext : ("--" ++ s.name ++ "=" ++ value).toList =
      '-' :: '-' :: (s.name.toList ++ '=' :: value.toList) := by simp
  rw [ofText_of_dashes htext (by simp), ofLong, splitAssignment_append (hc.plainNames s hs).2.2]
  simp only [String.ofList_toList, find?_name hc hs, htakes, if_true, Option.map_some]

variable (hletter : s.letter? = some letter)

include hletter

theorem ofText_short {text : String} {rest : List Char} (h : text.toList = '-' :: letter :: rest) :
    ofText c text = ofShort c letter rest :=
  ofText_of_dash h (hc.plainLetters s hs letter hletter).1

theorem ofText_letter : ofText c ("-" ++ letter.toString) = .setting s none := by
  have htext : ("-" ++ letter.toString).toList = ['-', letter] := by simp
  rw [ofText_short hc hs hletter htext, ofShort, find?_letter hc hs hletter]

theorem ofText_letter_assigned :
    ofText c ("-" ++ letter.toString ++ "=" ++ value) = .setting s (some value) := by
  have htext : ("-" ++ letter.toString ++ "=" ++ value).toList =
      '-' :: letter :: '=' :: value.toList := by simp
  rw [ofText_short hc hs hletter htext, ofShort, find?_letter hc hs hletter]
  simp only [String.ofList_toList]

theorem ofText_letter_attached (hne : value ≠ "") (hassign : value.toList.head? ≠ some '=') :
    ofText c ("-" ++ letter.toString ++ value) = .setting s (some value) := by
  have htext : ("-" ++ letter.toString ++ value).toList = '-' :: letter :: value.toList := by simp
  simp only [ofText_short hc hs hletter htext, ofShort, find?_letter hc hs hletter]
  split
  next hnil => exact absurd (by simpa using hnil) hne
  next hcons => exact absurd (by rw [hcons]; rfl) hassign
  next => rw [String.ofList_toList]

end

end Argument

/-! ## Giving -/

/-- What is given by `ms` may be given after `given`. -/
def Compatible (given ms : List Mention) : Prop :=
  ∀ m ∈ ms, m.setting.isRepeatable = false → m.setting ∉ given.map (·.setting)

theorem give_eq_ok_iff {given given' : List Mention} {s : Setting} {value : String} :
    give given s value = .ok given' ↔
      (s.isRepeatable = false → s ∉ given.map (·.setting)) ∧ s.accepts value = true ∧
        given' = given ++ [⟨s, value⟩] := by
  unfold give
  by_cases htwice : s.isRepeatable = false ∧ s ∈ given.map (·.setting)
  · rw [if_pos htwice]
    constructor
    · rintro ⟨⟩
    · exact fun h => absurd htwice.2 (h.1 htwice.1)
  · rw [if_neg htwice]
    have honce : s.isRepeatable = false → s ∉ given.map (·.setting) := fun h h' => htwice ⟨h, h'⟩
    by_cases haccepts : s.accepts value = true
    · rw [if_pos haccepts]
      constructor
      · rintro ⟨⟩
        exact ⟨honce, haccepts, rfl⟩
      · rintro ⟨-, -, rfl⟩
        rfl
    · rw [if_neg haccepts]
      constructor
      · rintro ⟨⟩
      · exact fun h => absurd h.2.1 haccepts

/-- What is compatible one after another is so at once. -/
theorem compatible_cons_iff {given ms : List Mention} {m : Mention} :
    Compatible given (m :: ms) ↔
      (m.setting.isRepeatable = false → m.setting ∉ given.map (·.setting)) ∧ Compatible given ms :=
  List.forall_mem_cons

theorem compatible_append_iff {given ms : List Mention} {m : Mention} :
    Compatible (given ++ [m]) ms ↔ Compatible given ms ∧ Compatible [m] ms := by
  simp only [Compatible, List.map_append, List.mem_append, not_or]
  exact ⟨fun h => ⟨fun x hx hr => (h x hx hr).1, fun x hx hr => (h x hx hr).2⟩,
    fun h x hx hr => ⟨h.1 x hx hr, h.2 x hx hr⟩⟩

/-! ## Reading does not look back -/

theorem bind_eq_ok {α γ ε : Type} {x : Except ε α} {f : α → Except ε γ} {b : γ} (h : x >>= f = .ok b) :
    ∃ a, x = .ok a ∧ f a = .ok b := by
  cases x with
  | error e => cases h
  | ok a => exact ⟨a, rfl, h⟩

namespace Command

variable {c : Command}

/-- A setting that waits for its value is followed by it. -/
theorem exists_value_of_waiting {given result : List Mention} {s : Setting} {arguments : List String}
    (h : c.readAfter given (some (s, none)) arguments = .ok result) :
    ∃ text value rest, arguments = text :: rest ∧ Argument.ofText c text = .plain value ∧
      c.readAfter given (some (s, some value)) rest = .ok result := by
  cases arguments with
  | nil => cases h
  | cons text rest =>
    rw [readAfter] at h
    cases htext : Argument.ofText c text with
    | plain value =>
      rw [htext] at h
      exact ⟨text, value, rest, rfl, htext, h⟩
    | separator =>
      rw [htext] at h
      simp only at h
      split at h <;> cases h
    | setting s' attached =>
      rw [htext] at h
      cases attached <;> cases h
    | _ =>
      -- everything else finds the value missing, or is wrong itself
      rw [htext] at h
      cases h

/-- An argument that gives something at once, and does not wait for the next one. -/
def GivesAtOnce (c : Command) (text : String) (s : Setting) (value : String) : Prop :=
  ∀ given pending rest, c.readAfter given pending (text :: rest) =
    settle given pending >>= fun given => give given s value >>= fun given => c.readAfter given none rest

theorem givesAtOnce_of_switch {text : String} {s : Setting}
    (htext : Argument.ofText c text = .switch s) : c.GivesAtOnce text s "" := by
  intro given pending rest
  rw [readAfter, htext]

theorem givesAtOnce_of_attached {text value : String} {s : Setting}
    (htext : Argument.ofText c text = .setting s (some value)) : c.GivesAtOnce text s value := by
  intro given pending rest
  rw [readAfter, htext]

/-- What arguments give, whatever has been given before. -/
structure Gives (c : Command) (arguments : List String) (base result ms : List Mention) : Prop where
  result : result = base ++ ms
  compatible : Compatible base ms
  frame : ∀ {other : List Mention} {pending : Option (Setting × Option String)} {base' : List Mention},
    settle other pending = .ok base' → Compatible base' ms →
    c.readAfter other pending arguments = .ok (base' ++ ms)

/-- A mention in front is one more that is given. -/
theorem Gives.cons {base result ms : List Mention} {m : Mention} {arguments arguments' : List String}
    (hgive : give base m.setting m.value = .ok (base ++ [m]))
    (h : c.Gives arguments (base ++ [m]) result ms)
    (hread : ∀ {other pending base'}, settle other pending = .ok base' →
      give base' m.setting m.value = .ok (base' ++ [m]) →
      ∃ given' pending', settle given' pending' = .ok (base' ++ [m]) ∧
        c.readAfter other pending arguments' = c.readAfter given' pending' arguments) :
    c.Gives arguments' base result (m :: ms) := by
  obtain ⟨honce, haccepts, -⟩ := give_eq_ok_iff.1 hgive
  obtain ⟨hbase, hm⟩ := compatible_append_iff.1 h.compatible
  constructor
  case result => rw [h.result, List.append_assoc, List.singleton_append]
  case compatible => exact compatible_cons_iff.2 ⟨honce, hbase⟩
  case frame =>
    intro other pending base' hsettle hcompatible
    obtain ⟨honce', hbase'⟩ := compatible_cons_iff.1 hcompatible
    obtain ⟨given', pending', hsettle', heq⟩ :=
      hread hsettle (give_eq_ok_iff.2 ⟨honce', haccepts, rfl⟩)
    rw [heq, h.frame hsettle' (compatible_append_iff.2 ⟨hbase', hm⟩), List.append_assoc,
      List.singleton_append]

/-- What an argument gives at once comes before what the others give. -/
theorem GivesAtOnce.gives {text value : String} {s : Setting} (htext : c.GivesAtOnce text s value)
    {rest : List String} {given result : List Mention} {pending : Option (Setting × Option String)}
    (hrest : ∀ {base}, c.readAfter base none rest = .ok result → ∃ ms, c.Gives rest base result ms)
    (h : c.readAfter given pending (text :: rest) = .ok result) :
    ∃ base ms, settle given pending = .ok base ∧ c.Gives (text :: rest) base result ms := by
  rw [htext] at h
  obtain ⟨base, hsettle, h⟩ := bind_eq_ok h
  obtain ⟨given', hgive, h⟩ := bind_eq_ok h
  obtain ⟨-, -, rfl⟩ := give_eq_ok_iff.1 hgive
  obtain ⟨ms, hgives⟩ := hrest h
  refine ⟨base, ⟨s, value⟩ :: ms, hsettle, .cons hgive hgives fun hsettle' hgive' => ?_⟩
  refine ⟨_, none, rfl, ?_⟩
  rw [htext, hsettle']
  exact congrArg (· >>= fun given => c.readAfter given none rest) hgive'

/-- **Reading does not look back.** What the arguments give is the same after anything that is compatible
with it. -/
theorem readAfter_frame {arguments : List String} {given result : List Mention}
    {pending : Option (Setting × Option String)} (hpending : ∀ s, pending ≠ some (s, none))
    (h : c.readAfter given pending arguments = .ok result) :
    ∃ base ms, settle given pending = .ok base ∧ c.Gives arguments base result ms := by
  -- by the number of arguments, since a value of its own makes two of them one step
  induction hn : arguments.length using Nat.strongRecOn generalizing arguments given pending with
  | _ n ih =>
  subst hn
  have hnothing : ∀ {base : List Mention}, base = result → ∀ {arguments : List String},
      (∀ other pending, c.readAfter other pending arguments = settle other pending) →
      c.Gives arguments base result [] := by
    rintro base rfl arguments hread
    constructor
    case result => rw [List.append_nil]
    case compatible => exact fun m hm => nomatch hm
    case frame =>
      intro other pending base' hsettle _
      rw [hread, hsettle, List.append_nil]
  cases arguments with
  | nil => exact ⟨result, [], h, hnothing rfl fun _ _ => rfl⟩
  | cons text rest =>
    -- what is given behind an argument, by the induction
    have hrest : ∀ {base}, c.readAfter base none rest = .ok result →
        ∃ ms, c.Gives rest base result ms := by
      intro base h
      obtain ⟨_, ms, hbase, hgives⟩ := ih rest.length (by simp) (by simp) h rfl
      obtain rfl := Except.ok.inj hbase
      exact ⟨ms, hgives⟩
    cases htext : Argument.ofText c text with
    | switch s => exact (givesAtOnce_of_switch htext).gives hrest h
    | separator =>
      simp only [readAfter, htext] at h
      split at h
      next hrest =>
        refine ⟨result, [], h, hnothing rfl fun other pending => ?_⟩
        rw [readAfter, htext]
        exact if_pos hrest
      next => cases h
    | overfull | unknown =>
      rw [readAfter, htext] at h
      cases h
    | help =>
      rw [readAfter, htext] at h
      obtain ⟨_, -, h⟩ := bind_eq_ok h
      cases h
    | plain value =>
      rw [readAfter, htext] at h
      rcases pending with _ | ⟨s, _ | waiting⟩
      · cases h
      · exact absurd rfl (hpending s)
      · cases h
    | setting s attached =>
      cases attached with
      | some value => exact (givesAtOnce_of_attached htext).gives hrest h
      | none =>
        rw [readAfter, htext] at h
        obtain ⟨base, hsettle, h⟩ := bind_eq_ok h
        obtain ⟨text', value, rest, rfl, htext', h⟩ := exists_value_of_waiting h
        have hshorter : rest.length < (text :: text' :: rest).length := by
          simp only [List.length_cons]
          omega
        obtain ⟨given', ms, hgive, hgives⟩ := ih rest.length hshorter (by simp) h rfl
        have hgive : give base s value = .ok given' := hgive
        obtain ⟨-, -, rfl⟩ := give_eq_ok_iff.1 hgive
        refine ⟨base, ⟨s, value⟩ :: ms, hsettle, .cons hgive hgives fun hsettle' hgive' => ?_⟩
        refine ⟨_, some (s, some value), hgive', ?_⟩
        rw [readAfter, htext, hsettle']
        show c.readAfter _ (some (s, none)) (text' :: rest) = _
        rw [readAfter, htext']

/-! ## The reader at hand -/

/-- What is read of others without anything before them is also read of them behind `m`. -/
theorem readAfter_of_read {rest : List String} {later : List Mention} (hread : c.read rest = .ok later)
    {m : Mention} (hm : m.Fits c later) {given : List Mention}
    {pending : Option (Setting × Option String)} (hsettle : settle given pending = .ok [m]) :
    c.readAfter given pending rest = .ok (m :: later) := by
  obtain ⟨base, ms, hbase, hgives⟩ := readAfter_frame (by simp) hread
  obtain rfl : [] = base := Except.ok.inj hbase
  obtain rfl : later = ms := hgives.result
  refine hgives.frame hsettle fun x hx honce htwice => ?_
  have hsame : x.setting = m.setting := by simpa using htwice
  exact hm.once (hsame ▸ honce) (List.mem_map.2 ⟨x, hx, hsame⟩)

theorem give_nil {m : Mention} {later : List Mention} (hm : m.Fits c later) :
    give [] m.setting m.value = .ok [m] :=
  give_eq_ok_iff.2 ⟨fun _ => List.not_mem_nil, hm.accepted, rfl⟩

/-- What an argument gives at once, it gives in front of others. -/
theorem adds_of_givesAtOnce {text : String} {s : Setting} {value : String}
    (htext : s ∈ c → c.GivesAtOnce text s value) : OptionReader.Adds read c [text] ⟨s, value⟩ := by
  intro rest later hread hm
  show c.readAfter [] none (text :: rest) = _
  rw [htext hm.declared]
  show (give [] s value >>= fun given => c.readAfter given none rest) = _
  rw [give_nil hm]
  exact readAfter_of_read hread hm rfl

/-- An argument without a value gives it once the value is settled. -/
theorem adds_of_apart {text : String} {s : Setting} {value : String}
    (htext : s ∈ c → Argument.ofText c text = .setting s none) (hvalue : StandsAlone value) :
    OptionReader.Adds read c [text, value] ⟨s, value⟩ := by
  intro rest later hread hm
  show c.readAfter [] none (text :: value :: rest) = _
  rw [readAfter, htext hm.declared]
  show c.readAfter [] (some (s, none)) (value :: rest) = _
  rw [readAfter, Argument.ofText_of_standsAlone hvalue]
  exact readAfter_of_read hread hm (give_nil hm)

/-- **A reader.** Reading arguments one after another keeps all promises. -/
theorem lawful_read : OptionReader.Lawful read := by
  constructor
  case nothing => exact fun _ => rfl
  case attached =>
    intro c s value hc htakes
    exact adds_of_givesAtOnce fun hs => givesAtOnce_of_attached (Argument.ofText_assigned hc hs htakes)
  case apart =>
    intro c s value hc htakes hvalue
    exact adds_of_apart (fun hs => Argument.ofText_name hc hs htakes) hvalue
  case letterAssigned =>
    intro c s letter value hc hletter
    exact adds_of_givesAtOnce fun hs =>
      givesAtOnce_of_attached (Argument.ofText_letter_assigned hc hs hletter)
  case letterAttached =>
    intro c s letter value hc hletter hne hassign
    exact adds_of_givesAtOnce fun hs =>
      givesAtOnce_of_attached (Argument.ofText_letter_attached hc hs hletter hne hassign)
  case letterApart =>
    intro c s letter value hc hletter hvalue
    exact adds_of_apart (fun hs => Argument.ofText_letter hc hs hletter) hvalue
  case switch =>
    intro c s hc htakes
    exact adds_of_givesAtOnce fun hs => givesAtOnce_of_switch (Argument.ofText_switch hc hs htakes)

end Command

end Delegation.CommandLine
