import Delegation.Proofs.ReportForm

/-!
# Which configurations are accepted

A configuration passes three checks one after another: its strategy, its fields from first to last, and
the place of its replacement. `Configuration.Objection` says in words what is wrong with the first thing
that is wrong, and either one of the three objections is raised or the plan is made
(`objection_or_accepted`).

Nothing goes wrong after that, as long as there is room for all instances. The model of a run has no
limit that two records could reach, every construction and the replacement are answered, and every
instance has a record of this model, so all snapshots are taken. What was read of the fields is then seen
in every instance.
-/

namespace Delegation.CommandLine

open Model

/-! ## Reading fields -/

variable {β : Type}

theorem readField_eq_error {field : String} (h : '=' ∉ field.toList) :
    (readField field : Except Complaint (String × Value (Method β))) =
      .error (.malformedField field) := by
  rw [readField, Argument.splitAssignment_of_not_mem h]

/-- A traversal fails over the first element that fails. -/
theorem mapM_eq_error {α γ ε : Type} {f : α → Except ε γ} {e : ε} {before after : List α} {a : α}
    (hbefore : ∀ b ∈ before, ∃ c, f b = .ok c) (ha : f a = .error e) :
    (before ++ a :: after).mapM f = .error e := by
  induction before with
  | nil => rw [List.nil_append, List.mapM_cons, ha]; rfl
  | cons b before ih =>
    obtain ⟨c, hc⟩ := hbefore b List.mem_cons_self
    rw [List.cons_append, List.mapM_cons, hc, ih fun b' hb' => hbefore b' (List.mem_cons_of_mem _ hb')]
    rfl

theorem readFields_eq_error {before after : List String} {field : String}
    (hbefore : ∀ f ∈ before, '=' ∈ f.toList) (hfield : '=' ∉ field.toList) :
    (readFields (before ++ field :: after) : Except Complaint (PropertyMap β)) =
      .error (.malformedField field) := by
  rw [readFields, mapM_eq_error (fun f hf => ⟨_, readField_eq_ok (hbefore f hf)⟩)
    (readField_eq_error hfield)]
  rfl

/-- Of the fields that are not of the right form, one is the first. -/
theorem exists_first_malformed {fields : List String} (h : ∃ f ∈ fields, '=' ∉ f.toList) :
    ∃ before field after, fields = before ++ field :: after ∧
      (∀ f ∈ before, '=' ∈ f.toList) ∧ '=' ∉ field.toList := by
  induction fields with
  | nil => obtain ⟨f, hf, -⟩ := h; cases hf
  | cons field rest ih =>
    by_cases hfield : '=' ∈ field.toList
    · obtain ⟨f, hf, hbad⟩ := h
      have hrest : f ∈ rest := (List.mem_cons.1 hf).resolve_left fun e => hbad (e ▸ hfield)
      obtain ⟨before, field', after, rfl, hbefore, hfield'⟩ := ih ⟨f, hrest, hbad⟩
      refine ⟨field :: before, field', after, rfl, fun f hf => ?_, hfield'⟩
      rcases List.mem_cons.1 hf with rfl | hf
      · exact hfield
      · exact hbefore f hf
    · exact ⟨[], field, rest, rfl, by simp, hfield⟩

/-! ## Objections -/

/-- The names of the strategies. -/
def strategyNames : List String :=
  ["factory", "constructorOnly", "constructorWithPrototype", "dynamicPrototype"]

theorem mem_strategyNames {name : String} : name ∈ strategyNames ↔ ∃ s : Strategy, name = s.name := by
  constructor
  · intro h
    simp only [strategyNames, List.mem_cons, List.not_mem_nil, or_false] at h
    rcases h with rfl | rfl | rfl | rfl
    · exact ⟨.factory, rfl⟩
    · exact ⟨.constructorOnly, rfl⟩
    · exact ⟨.constructorWithPrototype, rfl⟩
    · exact ⟨.dynamicPrototype, rfl⟩
  · rintro ⟨s, rfl⟩
    cases s <;> decide

/-- What is wrong with a configuration, in words: the first of the three things that can be. -/
inductive Configuration.Objection (c : Configuration) : String → Prop where
  | strategy (hs : c.strategy ∉ strategyNames) :
      c.Objection ("invalid construction strategy: " ++ Text.quoted c.strategy)
  | field (hs : c.strategy ∈ strategyNames) (before : List String) (field : String)
      (after : List String) (hfields : c.fields = before ++ field :: after)
      (hbefore : ∀ f ∈ before, '=' ∈ f.toList) (hfield : '=' ∉ field.toList) :
      c.Objection ("field " ++ Text.quoted field ++ " is not of the form NAME=VALUE")
  | replacement (hs : c.strategy ∈ strategyNames) (hfields : ∀ f ∈ c.fields, '=' ∈ f.toList)
      (after : Nat) (hafter : c.replaceAfter = some after) (hlate : ¬ after < c.count) :
      c.Objection ("--replace-after " ++ toString after ++ " must be less than --count "
        ++ toString c.count)

variable {c : Configuration}

theorem ofName_of_not_mem (hs : c.strategy ∉ strategyNames) :
    Strategy.ofName c.strategy = .error (.invalidStrategy c.strategy) := by
  cases h : Strategy.ofName? c.strategy with
  | none => rw [Strategy.ofName, h]
  | some s => exact absurd (mem_strategyNames.2 ⟨s, (Strategy.name_of_ofName? h).symm⟩) hs

/-- An objection is what turns the configuration down. -/
theorem plan_of_objection {text : String} (h : c.Objection text) :
    ∃ complaint, c.plan = .error complaint ∧ complaint.message = text ∧
      ∀ f, complaint = .fault f → f = .invalidStrategy c.strategy := by
  cases h with
  | strategy hs =>
    refine ⟨.fault (.invalidStrategy c.strategy), ?_, rfl, fun f e => by cases e; rfl⟩
    rw [Configuration.plan, ofName_of_not_mem hs]
    rfl
  | field hs before field after hfields hbefore hfield =>
    obtain ⟨s, hs⟩ := mem_strategyNames.1 hs
    refine ⟨.malformedField field, ?_, rfl, fun f e => by cases e⟩
    rw [Configuration.plan, hs, Strategy.ofName, Strategy.ofName?_name, hfields,
      readFields_eq_error hbefore hfield]
    rfl
  | replacement hs hfields after hafter hlate =>
    obtain ⟨s, hs⟩ := mem_strategyNames.1 hs
    obtain ⟨F, hF, -⟩ := readFields_eq_ok (β := Closure) hfields
    refine ⟨.lateReplacement after c.count, ?_, rfl, fun f e => by cases e⟩
    rw [Configuration.plan, hs, Strategy.ofName, Strategy.ofName?_name, hF, hafter]
    show (if c.count ≤ after then _ else _) = _
    rw [if_pos (Nat.not_lt.1 hlate)]
    rfl

/-- Some objection is raised, or the plan is made. -/
theorem objection_or_accepted (c : Configuration) :
    (∃ text, c.Objection text) ∨ c.strategy ∈ strategyNames ∧ (∀ f ∈ c.fields, '=' ∈ f.toList) ∧
      ∀ k, c.replaceAfter = some k → k < c.count := by
  by_cases hs : c.strategy ∈ strategyNames
  case neg => exact .inl ⟨_, .strategy hs⟩
  by_cases hfields : ∃ f ∈ c.fields, '=' ∉ f.toList
  · obtain ⟨before, field, after, hsplit, hbefore, hfield⟩ := exists_first_malformed hfields
    exact .inl ⟨_, .field hs before field after hsplit hbefore hfield⟩
  have hfields : ∀ f ∈ c.fields, '=' ∈ f.toList := by simpa using hfields
  by_cases hk : ∃ k, c.replaceAfter = some k ∧ ¬ k < c.count
  · obtain ⟨k, hafter, hlate⟩ := hk
    exact .inl ⟨_, .replacement hs hfields k hafter hlate⟩
  · exact .inr ⟨hs, hfields, by simpa using hk⟩

/-! ## Carrying an accepted configuration out -/

/-- The own properties that are reported show the fields, except under the copies of methods. -/
theorem own_of_shows {p : Plan β} {r : Report β} {n : Nat} (hn : r.instances.length = n)
    (hshows : ∀ i < n, r.Shows i (if p.strategy.delegates then sharerLine p i else copyLine p i))
    {s : Snapshot β} (hs : s ∈ r.instances) {name : String}
    (hname : p.strategy.delegates = true ∨ p.methods.contains name = false) :
    s.own.get? name = p.fields.get? name := by
  obtain ⟨i, hi, hget⟩ := List.mem_iff_getElem.1 hs
  have hline := (hshows i (hn ▸ hi)).snapshot
  rw [List.getElem?_eq_getElem hi, hget, Option.some.injEq] at hline
  cases hdelegates : p.strategy.delegates with
  | true =>
    rw [hline, hdelegates, if_pos rfl]
    rfl
  | false =>
    -- a copy stands only under the name of a method
    have hnone : p.methods.get? name = none := by
      have hout := hname.resolve_left (by simp [hdelegates])
      simpa [NameMap.contains] using hout
    rw [hline, hdelegates, if_neg Bool.false_ne_true]
    show (p.fields.overwrite (p.methods.numbered 0 (p.firstCopy i))).get? name = _
    rw [NameMap.get?_overwrite, MethodTable.get?_numbered, hnone]
    rfl

/-- An accepted configuration is answered if there is room for its instances, and all of them show its
fields. -/
theorem run_of_accepted (hs : c.strategy ∈ strategyNames) (hfields : ∀ f ∈ c.fields, '=' ∈ f.toList)
    (hk : ∀ k, c.replaceAfter = some k → k < c.count) (hroom : c.count ≤ capacityLimit) :
    ∃ (F : PropertyMap Closure) (r : Report Closure), c.run.1 = .ok r ∧
      r.instances.length = c.count ∧ readFields c.fields = .ok F ∧
      (∀ name, F.get? name =
        (c.fields.reverse.find? fun f => fieldName f = name).map
          fun f => readLiteral (fieldText f)) ∧
      ∀ s ∈ r.instances, ∀ name, (r.strategy.delegates = true ∨ name ∉ c.methods) →
        s.own.get? name = F.get? name := by
  obtain ⟨s, hs⟩ := mem_strategyNames.1 hs
  obtain ⟨F, hF, hlast⟩ := readFields_eq_ok (β := Closure) hfields
  -- no field is a method, so nothing that is compared depends on the fields
  have hplain := asMethod_of_fields hlast
  obtain ⟨r, hanswer, hstrategy, -, hsized, -, hshows⟩ := reports_planWith (s := s) hplain hk
  have hrun : c.run.1 = .ok r := by
    rw [(run_of_plan (plan_of_wellFormed hs hF hk)).2 hroom, hanswer]
    rfl
  refine ⟨F, r, hrun, hsized.instances, hF, hlast, fun snapshot hmem name hname => ?_⟩
  refine own_of_shows (p := c.planWith s F) hsized.instances hshows hmem ?_
  refine hname.imp (fun h => hstrategy ▸ h) fun h => ?_
  rw [Bool.eq_false_iff]
  exact fun hin => h ((contains_methodTable c.methods name).1 hin)

/-- An accepted configuration breaks off if there is no room for its instances. -/
theorem run_of_overflow (hs : c.strategy ∈ strategyNames) (hfields : ∀ f ∈ c.fields, '=' ∈ f.toList)
    (hk : ∀ k, c.replaceAfter = some k → k < c.count) (hover : capacityLimit < c.count) :
    c.run.1 = .error .capacityOverflow := by
  obtain ⟨s, hs⟩ := mem_strategyNames.1 hs
  obtain ⟨F, hF, -⟩ := readFields_eq_ok (β := Closure) hfields
  rw [(run_of_plan (plan_of_wellFormed hs hF hk)).1 hover]

/-- Something is wrong with a configuration exactly if an objection is raised. -/
theorem exists_objection_iff : (∃ text, c.Objection text) ↔
    c.strategy ∉ strategyNames ∨ (∃ f ∈ c.fields, '=' ∉ f.toList) ∨
      ∃ k, c.replaceAfter = some k ∧ ¬ k < c.count := by
  constructor
  · rintro ⟨text, hobjection⟩
    cases hobjection with
    | strategy hs => exact .inl hs
    | field hs before field after hfields hbefore hfield =>
      exact .inr (.inl ⟨field, by simp [hfields], hfield⟩)
    | replacement hs hfields after hafter hlate => exact .inr (.inr ⟨after, hafter, hlate⟩)
  · intro hbad
    rcases objection_or_accepted c with hobjection | ⟨hs, hfields, hk⟩
    · exact hobjection
    · rcases hbad with hs' | ⟨f, hf, hbad⟩ | ⟨k, hafter, hlate⟩
      · exact absurd hs hs'
      · exact absurd (hfields f hf) hbad
      · exact absurd (hk k hafter) hlate

/-! ## Verdicts -/

/-- An objection is the only one. -/
theorem Configuration.Objection.unique {text text' : String} (h : c.Objection text)
    (h' : c.Objection text') : text = text' := by
  obtain ⟨complaint, hplan, rfl, -⟩ := plan_of_objection h
  obtain ⟨complaint', hplan', rfl, -⟩ := plan_of_objection h'
  rw [Except.error.inj (hplan.symm.trans hplan')]

/-- The three ways for a run to end. -/
inductive Configuration.Verdict (c : Configuration) : Except Failure (Report Closure) → Prop where
  | complaint (complaint : Complaint) (hobjection : c.Objection complaint.message)
      (hfault : ∀ f, complaint = .fault f → f = .invalidStrategy c.strategy) :
      c.Verdict (.error (.complaint complaint))
  | overflow (hnone : ¬ ∃ text, c.Objection text) (hover : capacityLimit < c.count) :
      c.Verdict (.error .capacityOverflow)
  | answered (hnone : ¬ ∃ text, c.Objection text) (hroom : c.count ≤ capacityLimit)
      (r : Report Closure) (hlength : r.instances.length = c.count) (F : PropertyMap Closure)
      (hF : readFields c.fields = .ok F)
      (hlast : ∀ name, F.get? name =
        (c.fields.reverse.find? fun f => fieldName f = name).map fun f => readLiteral (fieldText f))
      (hown : ∀ s ∈ r.instances, ∀ name, (r.strategy.delegates = true ∨ name ∉ c.methods) →
        s.own.get? name = F.get? name) : c.Verdict (.ok r)

/-- **Verdicts.** A run ends with an objection if there is one; otherwise it is a question of room. -/
theorem Configuration.verdict (c : Configuration) : c.Verdict c.run.1 := by
  rcases objection_or_accepted c with ⟨text, hobjection⟩ | ⟨hs, hfields, hk⟩
  · obtain ⟨complaint, hplan, rfl, hfault⟩ := plan_of_objection hobjection
    rw [Configuration.run, hplan]
    exact .complaint complaint hobjection hfault
  have hnone : ¬ ∃ text, c.Objection text := by
    rw [exists_objection_iff]
    rintro (hs' | ⟨f, hf, hbad⟩ | ⟨k, hafter, hlate⟩)
    · exact hs' hs
    · exact hbad (hfields f hf)
    · exact hlate (hk k hafter)
  rcases Nat.lt_or_ge capacityLimit c.count with hover | hroom
  · rw [run_of_overflow hs hfields hk hover]
    exact .overflow hnone hover
  · obtain ⟨F, r, hr, hlength, hF, hlast, hown⟩ := run_of_accepted hs hfields hk hroom
    rw [hr]
    exact .answered hnone hroom r hlength F hF hlast hown

/-- **Acceptance.** A configuration is turned down with the words of an objection exactly if that
objection is the first: no known strategy, a field without an equals sign, a replacement that does not
come before the last construction. In every other case it is answered, unless there is no room for its
instances; the model itself refuses nothing. Then the instances are as many as were asked for, and each
name has the literal of the last field for it, which is shown by every instance in which no copy of a
method took its place. -/
theorem run_outcome (c : Configuration) :
    (∀ text, (∃ complaint, c.run.1 = .error (.complaint complaint) ∧ complaint.message = text) ↔
      c.Objection text) ∧
    ((∃ complaint, c.run.1 = .error (.complaint complaint)) ↔
      c.strategy ∉ ["factory", "constructorOnly", "constructorWithPrototype", "dynamicPrototype"] ∨
      (∃ f ∈ c.fields, '=' ∉ f.toList) ∨ ∃ k, c.replaceAfter = some k ∧ ¬ k < c.count) ∧
    (∀ f, c.run.1 = .error (.complaint (.fault f)) → f = .invalidStrategy c.strategy) ∧
    (c.run.1 = .error .capacityOverflow ↔ (¬ ∃ text, c.Objection text) ∧ capacityLimit < c.count) ∧
    ∀ r, c.run.1 = .ok r → r.instances.length = c.count ∧
      ∃ F : PropertyMap Closure, readFields c.fields = .ok F ∧
        (∀ name, F.get? name =
          (c.fields.reverse.find? fun f => fieldName f = name).map
            fun f => readLiteral (fieldText f)) ∧
        ∀ s ∈ r.instances, ∀ name, (r.strategy.delegates = true ∨ name ∉ c.methods) →
          s.own.get? name = F.get? name := by
  have hverdict := c.verdict
  generalize c.run.1 = answer at hverdict ⊢
  cases hverdict with
  | complaint complaint hobjection hfault =>
    refine ⟨fun text => ⟨?_, fun h => ⟨complaint, rfl, hobjection.unique h⟩⟩, ?_, ?_, ?_, ?_⟩
    · rintro ⟨_, ⟨⟩, rfl⟩
      exact hobjection
    · exact ⟨fun _ => exists_objection_iff.1 ⟨_, hobjection⟩, fun _ => ⟨complaint, rfl⟩⟩
    · rintro f ⟨⟩
      exact hfault f rfl
    · exact ⟨nofun, fun h => absurd ⟨_, hobjection⟩ h.1⟩
    · exact nofun
  | overflow hnone hover =>
    refine ⟨fun text => ⟨?_, fun h => absurd ⟨text, h⟩ hnone⟩, ⟨?_, ?_⟩, ?_, ?_, ?_⟩
    · rintro ⟨_, ⟨⟩, -⟩
    · rintro ⟨_, ⟨⟩⟩
    · exact fun h => absurd (exists_objection_iff.2 h) hnone
    · exact nofun
    · exact ⟨fun _ => ⟨hnone, hover⟩, fun _ => rfl⟩
    · exact nofun
  | answered hnone hroom r hlength F hF hlast hown =>
    refine ⟨fun text => ⟨?_, fun h => absurd ⟨text, h⟩ hnone⟩, ⟨?_, ?_⟩, ?_, ?_, ?_⟩
    · rintro ⟨_, ⟨⟩, -⟩
    · rintro ⟨_, ⟨⟩⟩
    · exact fun h => absurd (exists_objection_iff.2 h) hnone
    · exact nofun
    · exact ⟨nofun, fun h => absurd hroom (Nat.not_le_of_lt h.2)⟩
    · rintro _ ⟨⟩
      exact ⟨hlength, F, hF, hlast, hown⟩

/-- A configuration with two malformed fields and a late replacement, and one without fault whose second
field has no name and whose third one takes the place of the first. -/
theorem run_outcome_firstFault :
    let c (fields : List String) (after : Nat) : Configuration := {
      strategy := "factory", tag := "T", fields, methods := ["m"], count := 2, replaceAfter := some after
      replaceMethods := [], trace := false }
    (∃ complaint, (c ["a=1", "bad", "worse"] 2).run.1 = .error (.complaint complaint) ∧
      complaint.message = "field \"bad\" is not of the form NAME=VALUE") ∧
    ∃ (r : Report Closure) (F : PropertyMap Closure),
      (c ["a=1", "=b=c", "a= true"] 1).run.1 = .ok r ∧ r.instances.length = 2 ∧
      readFields ["a=1", "=b=c", "a= true"] = .ok F ∧ F.get? "a" = some (.bool true) ∧
      F.get? "" = some (.string "b=c") := by
  intro c
  constructor
  · obtain ⟨hobjection, -⟩ := run_outcome (c ["a=1", "bad", "worse"] 2)
    have hwords : "field " ++ Text.quoted "bad" ++ " is not of the form NAME=VALUE" =
        "field \"bad\" is not of the form NAME=VALUE" := by decide
    exact (hobjection _).2 (hwords ▸ .field (by decide) ["a=1"] "bad" ["worse"] rfl (by decide) (by decide))
  · obtain ⟨-, hfails, -, hover, hanswer⟩ := run_outcome (c ["a=1", "=b=c", "a= true"] 1)
    cases hrun : (c ["a=1", "=b=c", "a= true"] 1).run.1 with
    | error failure =>
      cases failure with
      | complaint complaint =>
        have hnothing := hfails.1 ⟨complaint, hrun⟩
        exact absurd hnothing (by simp [c])
      | capacityOverflow => exact absurd (hover.1 hrun).2 (by decide)
    | ok r =>
      obtain ⟨hlength, F, hF, hlast, -⟩ := hanswer r hrun
      refine ⟨r, F, rfl, hlength, hF, ?_, ?_⟩
      · rw [hlast]
        exact congrArg some (readLiteral_plain rfl)
      · rw [hlast]
        exact congrArg some (readLiteral_plain rfl)

end Delegation.CommandLine
