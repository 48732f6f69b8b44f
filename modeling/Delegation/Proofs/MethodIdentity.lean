import Delegation.Proofs.Allocation
import Delegation.Proofs.World

/-!
# The identity of methods

A program uses many models, and passes methods between them: a method that one model allocated is
written into a slot of another, copied with an instance, or put into an array. Two methods are
compared by identity alone, so an identity must never stand for two of them.

`Program.log` lists all allocations of a past in their order. `Program.Ledger` is the invariant: the
entries that carry a model's number are numbered 0, 1, 2 and so on up to the model's count, and
every method in circulation, wherever it is, is an entry. The number of a model is a half word,
which is why the number of models is bounded. A step of the invariant is one case for each kind of
deed, and needs to know about operations only what `Delegation.Proofs.Allocation` says.
-/

namespace Delegation

/-- The methods in a value, at whatever depth. -/
inductive Value.Holds {μ : Type} : Value μ → μ → Prop where
  | method (f : μ) : Holds (.method f) f
  | item {items : List (Value μ)} {v : Value μ} {f : μ} (hv : v ∈ items) (h : Holds v f) :
      Holds (.array items) f

variable {β : Type}

/-! ## Programs -/

/-- All models that a program has made, all instances that they built, and the values that it took
out of them or was given. -/
structure Program (β : Type) where
  models : Array (Model β)
  objects : Array (Instance β)
  held : List (Value (Method β))

/-- What a program does: it makes a new model, acts on a model and the instances, or takes a value
out, be it into a variable or into the body of a method. -/
inductive Deed (β : Type) where
  | found (limits : Limits)
  | act (place : Nat) (a : Act β)
  | hold (value : Value (Method β))

/-- Whether a value is among those that an act is passed. -/
def Act.Passes (v : Value (Method β)) : Act β → Prop
  | .operate op => op.Passes v
  | .setOwn _ _ value => value = v
  | .setPrototype _ _ | .deleteOwn _ _ | .clone _ => False

def Act.allocated (m : Model β) : Act β → List (Method β)
  | .operate op => op.allocated m
  | _ => []

def Act.yield (m : Model β) : Act β → List (Value (Method β))
  | .operate op =>
    match (op.action.run m).answer with
    | .ok (.method f) => [.method f]
    | _ => []
  | _ => []

/-- Whether a value is among those that a deed is passed. -/
def Deed.Passes (v : Value (Method β)) : Deed β → Prop
  | .found _ => False
  | .act _ a => a.Passes v
  | .hold value => value = v

namespace Program

def start : Program β := { models := #[], objects := #[], held := [] }

/-- The program after one deed. Models are numbered in the order in which they are made. -/
def step (p : Program β) : Deed β → Program β
  | .found limits =>
    { p with models := p.models.push (.new (UInt32.ofNat p.models.size) limits) }
  | .act place a =>
    match p.models[place]? with
    | some m =>
      let w := ({ model := m, objects := p.objects } : World β).step a
      { models := p.models.setIfInBounds place w.model
        objects := w.objects
        held := a.yield m ++ p.held }
    | none => p
  | .hold value => { p with held := value :: p.held }

/-- The program after a past, the latest deed first. -/
def after (p : Program β) : List (Deed β) → Program β
  | [] => p
  | d :: past => (p.after past).step d

def allocated (p : Program β) : Deed β → List (Method β)
  | .act place a =>
    match p.models[place]? with
    | some m => a.allocated m
    | none => []
  | _ => []

/-- All allocations of a past, the first one first. -/
def log (p : Program β) : List (Deed β) → List (Method β)
  | [] => []
  | d :: past => p.log past ++ (p.after past).allocated d

/-- The methods that can be reached from anywhere: from an own property of an instance, from a slot
of any record of any model, replaced ones included, or from a value that was taken out. -/
inductive Circulates (p : Program β) (f : Method β) : Prop where
  | own {o : Instance β} {name : String} {v : Value (Method β)} (ho : o ∈ p.objects)
      (hown : o.getOwn name = some v) (hf : v.Holds f)
  | slot {m : Model β} {r : Record β} {name : String} {v : Value (Method β)} (hm : m ∈ p.models)
      (hr : r ∈ m.records) (hslot : r.slots.get? name = some v) (hf : v.Holds f)
  | held {v : Value (Method β)} (hv : v ∈ p.held) (hf : v.Holds f)

/-- No method is made up: those in the values that a deed is passed were in circulation. -/
def Honest (p : Program β) : List (Deed β) → Prop
  | [] => True
  | d :: past =>
    (∀ v f, d.Passes v → v.Holds f → (p.after past).Circulates f) ∧ p.Honest past

/-- Methods are the same allocation if one entry of the log is both of them. -/
def SameAllocation (log : List (Method β)) (f g : Method β) : Prop :=
  ∃ k : Nat, log[k]? = some f ∧ log[k]? = some g

end Program

/-! ## What one act brings -/

namespace Act

/-- Whether an act on a model brings a value into circulation: one that it is passed, or a method
that it allocates. -/
def Brings (m : Model β) (a : Act β) (v : Value (Method β)) : Prop :=
  a.Passes v ∨ ∃ f ∈ a.allocated m, v = .method f

theorem methodCount_step (w : World β) (a : Act β) :
    (w.step a).model.methodCount = w.model.methodCount + (a.allocated w.model).length := by
  cases a with
  | operate op => exact Model.methodCount_afterOne w.model op
  | clone i => rw [World.model_step_clone]; rfl
  | _ => rfl

theorem ids_allocated (m : Model β) (a : Act β) :
    (a.allocated m).map (·.id) =
      (List.range' m.methodCount (a.allocated m).length).map (MethodId.mk m.nonce) := by
  cases a with
  | operate op => exact Model.ids_allocated m op
  | _ => rfl

theorem model_of_allocated {m : Model β} {a : Act β} {f : Method β} (h : f ∈ a.allocated m) :
    f.id.model = m.nonce := by
  have hid : f.id ∈ (a.allocated m).map (·.id) := List.mem_map.2 ⟨f, h, rfl⟩
  rw [ids_allocated] at hid
  obtain ⟨seq, -, he⟩ := List.mem_map.1 hid
  rw [← he]

theorem seqs_allocated (m : Model β) (a : Act β) :
    (a.allocated m).map (·.id.seq) =
      List.range' m.methodCount (a.allocated m).length := by
  have h := congrArg (List.map MethodId.seq) (ids_allocated m a)
  simpa [List.map_map, Function.comp_def] using h

theorem brings_of_slot {w : World β} (hm : w.model.Sound) {a : Act β} {id : RecordId}
    {name : String} {v : Value (Method β)} (h : (w.step a).model.slot? id name = some v) :
    a.Brings w.model v ∨ w.model.slot? id name = some v := by
  cases a with
  | operate op => exact Model.brings_of_slot hm h
  | clone i => rw [World.model_step_clone] at h; exact .inr h
  | _ => exact .inr h

theorem brings_of_own {w : World β} {a : Act β} {o : Instance β} (ho : o ∈ (w.step a).objects)
    {name : String} {v : Value (Method β)} (h : o.getOwn name = some v) :
    a.Brings w.model v ∨ ∃ o' ∈ w.objects, o'.getOwn name = some v := by
  obtain ⟨i, ho⟩ := Array.mem_iff_getElem?.1 ho
  cases World.became ho with
  | kept hold => exact .inr ⟨_, Array.mem_of_getElem? hold, h⟩
  | pointed hold => exact .inr ⟨_, Array.mem_of_getElem? hold, h⟩
  | written hold =>
    rw [Instance.getOwn, Instance.setOwn, NameMap.get?_insert] at h
    split at h
    · exact .inl (.inl (Option.some.inj h))
    · exact .inr ⟨_, Array.mem_of_getElem? hold, h⟩
  | deleted hold =>
    rw [Instance.getOwn, Instance.deleteOwn, NameMap.get?_erase] at h
    split at h
    · cases h
    · exact .inr ⟨_, Array.mem_of_getElem? hold, h⟩
  | copied hold => exact .inr ⟨_, Array.mem_of_getElem? hold, h⟩
  | built hans => exact .inl (Model.brings_of_own hans h)

theorem brings_of_yield {m : Model β} {a : Act β} {v : Value (Method β)} (h : v ∈ a.yield m) :
    a.Brings m v := by
  cases a with
  | operate op =>
    simp only [yield] at h
    split at h
    next f hans =>
      obtain rfl := List.mem_singleton.1 h
      cases op with
      | allocate name body => cases hans; exact .inr ⟨_, List.mem_singleton_self _, rfl⟩
      | _ =>
        obtain ⟨_, -, hp⟩ := Model.answer_map_eq_ok hans
        cases hp
    next => cases h
  | _ => cases h

end Act

/-! ## The ledger -/

namespace Program

/-- The numbers of the models that a half word can tell apart. -/
theorem number_inj {j k : Nat} (hj : j < UInt32.size) (hk : k < UInt32.size)
    (h : UInt32.ofNat j = UInt32.ofNat k) : j = k := by
  have h := congrArg UInt32.toNat h
  rw [UInt32.toNat_ofNat', UInt32.toNat_ofNat', Nat.mod_eq_of_lt hj, Nat.mod_eq_of_lt hk] at h
  exact h

/-- The invariant of a program and the log of its past. -/
structure Ledger (p : Program β) (log : List (Method β)) : Prop where
  sound : ∀ (k : Nat) (m : Model β), p.models[k]? = some m → m.Sound
  numbered : ∀ (k : Nat) (m : Model β), p.models[k]? = some m → m.nonce = UInt32.ofNat k
  counted : ∀ (k : Nat) (m : Model β), p.models[k]? = some m →
    (log.filter fun f => f.id.model = m.nonce).map (·.id.seq) = List.range m.methodCount
  issued : ∀ f ∈ log, ∃ k < p.models.size, f.id.model = UInt32.ofNat k
  circulating : ∀ f, p.Circulates f → f ∈ log

theorem ledger_start : (start : Program β).Ledger [] where
  sound k m h := by simp [start] at h
  numbered k m h := by simp [start] at h
  counted k m h := by simp [start] at h
  issued f h := by cases h
  circulating f h := by
    cases h with
    | own ho => simp [start] at ho
    | slot hm => simp [start] at hm
    | held hv => simp [start] at hv

theorem Ledger.found {p : Program β} {log : List (Method β)} (h : p.Ledger log)
    (hsize : p.models.size < UInt32.size) (limits : Limits) :
    (p.step (.found limits)).Ledger log := by
  have hmodels : ∀ (k : Nat) (m : Model β), (p.step (.found limits)).models[k]? = some m →
      p.models[k]? = some m ∨
        k = p.models.size ∧ m = .new (UInt32.ofNat p.models.size) limits := by
    intro k m hm
    simp only [step, Array.getElem?_push] at hm
    split at hm
    next hk => exact .inr ⟨hk, by simpa using hm.symm⟩
    next => exact .inl hm
  refine ⟨?_, ?_, ?_, ?_, ?_⟩
  · intro k m hm
    rcases hmodels k m hm with hold | ⟨-, rfl⟩
    · exact h.sound k m hold
    · exact Model.sound_new _ _
  · intro k m hm
    rcases hmodels k m hm with hold | ⟨rfl, rfl⟩
    · exact h.numbered k m hold
    · rfl
  · intro k m hm
    rcases hmodels k m hm with hold | ⟨-, rfl⟩
    · exact h.counted k m hold
    · -- the entries carry the numbers of the models there are, and the new one is another
      have hnone : (log.filter fun f => f.id.model = UInt32.ofNat p.models.size) = [] := by
        rw [List.filter_eq_nil_iff]
        intro f hf hmodel
        obtain ⟨k, hk, hissued⟩ := h.issued f hf
        have hnumber := hissued.symm.trans (of_decide_eq_true hmodel)
        have := number_inj (by omega) hsize hnumber
        omega
      show (log.filter fun f => f.id.model = UInt32.ofNat p.models.size).map _ = List.range 0
      rw [hnone]
      rfl
  · intro f hf
    obtain ⟨k, hk, hissued⟩ := h.issued f hf
    exact ⟨k, by simp only [step, Array.size_push]; omega, hissued⟩
  · intro f hf
    apply h.circulating
    cases hf with
    | own ho hown hf => exact .own ho hown hf
    | held hv hf => exact .held hv hf
    | slot hm hr hslot hf =>
      obtain ⟨k, hk⟩ := Array.mem_iff_getElem?.1 hm
      rcases hmodels k _ hk with hold | ⟨-, rfl⟩
      · exact .slot (Array.mem_of_getElem? hold) hr hslot hf
      · simp [Model.new] at hr

theorem Ledger.hold {p : Program β} {log : List (Method β)} (h : p.Ledger log)
    {value : Value (Method β)} (hvalue : ∀ f, value.Holds f → p.Circulates f) :
    (p.step (.hold value)).Ledger log := by
  refine ⟨h.sound, h.numbered, h.counted, h.issued, ?_⟩
  intro f hf
  apply h.circulating
  cases hf with
  | own ho hown hf => exact .own ho hown hf
  | slot hm hr hslot hf => exact .slot hm hr hslot hf
  | held hv hf =>
    rcases List.mem_cons.1 hv with rfl | hv
    · exact hvalue f hf
    · exact .held hv hf

section Acts

variable {p : Program β} {log : List (Method β)} {place : Nat} {m : Model β} {a : Act β}

theorem step_act (hm : p.models[place]? = some m) (a : Act β) :
    p.step (.act place a) =
      { models := p.models.setIfInBounds place
          (({ model := m, objects := p.objects } : World β).step a).model
        objects := (({ model := m, objects := p.objects } : World β).step a).objects
        held := a.yield m ++ p.held } := by
  simp only [step, hm]

/-- A model after an act is the one acted on, or another one, which is as it was. -/
theorem models_step_act (hm : p.models[place]? = some m) (a : Act β) {k : Nat} {m' : Model β}
    (h : (p.step (.act place a)).models[k]? = some m') :
    k = place ∧ m' = (({ model := m, objects := p.objects } : World β).step a).model ∨
      k ≠ place ∧ p.models[k]? = some m' := by
  rw [step_act hm, Array.getElem?_setIfInBounds] at h
  split at h
  next hk =>
    split at h
    · exact .inl ⟨hk.symm, (Option.some.inj h).symm⟩
    · cases h
  next hk => exact .inr ⟨Ne.symm hk, h⟩

theorem Ledger.counted_acted (h : p.Ledger log) (hm : p.models[place]? = some m) :
    ((log ++ a.allocated m).filter fun f => f.id.model = m.nonce).map (·.id.seq) =
      List.range (m.methodCount + (a.allocated m).length) := by
  -- the new entries are all of this model, and numbered from where its count stands
  have hnew : (a.allocated m).filter (fun f => f.id.model = m.nonce) = a.allocated m := by
    rw [List.filter_eq_self]
    intro f hf
    exact decide_eq_true (Act.model_of_allocated hf)
  rw [List.filter_append, hnew, List.map_append, h.counted place m hm, Act.seqs_allocated,
    List.range_eq_range', List.range_eq_range']
  have happend := List.range'_append_1 (s := 0) (m := m.methodCount) (n := (a.allocated m).length)
  rwa [Nat.zero_add] at happend

theorem Ledger.counted_other (h : p.Ledger log) (hsize : p.models.size ≤ UInt32.size)
    (hm : p.models[place]? = some m) {k : Nat} {m' : Model β} (hk : k ≠ place)
    (hm' : p.models[k]? = some m') :
    ((log ++ a.allocated m).filter fun f => f.id.model = m'.nonce).map (·.id.seq) =
      List.range m'.methodCount := by
  -- two places have two numbers, so none of the new entries is of the other model
  have hnew : (a.allocated m).filter (fun f => f.id.model = m'.nonce) = [] := by
    rw [List.filter_eq_nil_iff]
    intro f hf hmodel
    have hplace := (Array.getElem?_eq_some_iff.1 hm).1
    have hother := (Array.getElem?_eq_some_iff.1 hm').1
    have hnonce : m.nonce = m'.nonce :=
      (Act.model_of_allocated hf).symm.trans (of_decide_eq_true hmodel)
    rw [h.numbered place m hm, h.numbered k m' hm'] at hnonce
    exact hk (number_inj (by omega) (by omega) hnonce).symm
  rw [List.filter_append, hnew, List.append_nil, h.counted k m' hm']

theorem Ledger.mem_of_brings (h : p.Ledger log)
    (hhonest : ∀ v f, a.Passes v → v.Holds f → p.Circulates f) {v : Value (Method β)}
    (hv : a.Brings m v) {f : Method β} (hf : v.Holds f) : f ∈ log ++ a.allocated m := by
  rw [List.mem_append]
  rcases hv with hpasses | ⟨g, hg, rfl⟩
  · exact .inl (h.circulating f (hhonest v f hpasses hf))
  · cases hf
    exact .inr hg

/-- What circulates after an act was allocated by it or before it. -/
theorem Ledger.circulating_act (h : p.Ledger log) (hm : p.models[place]? = some m)
    (hhonest : ∀ v f, a.Passes v → v.Holds f → p.Circulates f) {f : Method β}
    (hf : (p.step (.act place a)).Circulates f) : f ∈ log ++ a.allocated m := by
  have hbrought := fun {v : Value (Method β)} => h.mem_of_brings (m := m) hhonest (v := v)
  have hold : p.Circulates f → f ∈ log ++ a.allocated m :=
    fun hcirc => List.mem_append_left _ (h.circulating f hcirc)
  cases hf with
  | own ho hown hf =>
    rw [step_act hm] at ho
    rcases Act.brings_of_own ho hown with hv | ⟨o', ho', hown'⟩
    · exact hbrought hv hf
    · exact hold (.own ho' hown' hf)
  | @slot m' r name v hm' hr hslot hf =>
    obtain ⟨k, hk⟩ := Array.mem_iff_getElem?.1 hm'
    rcases models_step_act hm a hk with ⟨-, rfl⟩ | ⟨-, hm'⟩
    · -- what an act does to slots is said about handles, so go from the record to its handle
      have hsound := h.sound place m hm
      have hsound' := World.sound_step (w := { model := m, objects := p.objects }) hsound a
      rw [← hsound'.slot?_eq hr] at hslot
      rcases Act.brings_of_slot hsound hslot with hv | hslot
      · exact hbrought hv hf
      · obtain ⟨r', hr', hslot'⟩ := Model.exists_of_slot? hslot
        exact hold (.slot (Array.mem_of_getElem? hm) hr' hslot' hf)
    · exact hold (.slot (Array.mem_of_getElem? hm') hr hslot hf)
  | held hv hf =>
    rw [step_act hm] at hv
    rcases List.mem_append.1 hv with hv | hv
    · exact hbrought (Act.brings_of_yield hv) hf
    · exact hold (.held hv hf)

theorem Ledger.act (h : p.Ledger log) (hsize : p.models.size ≤ UInt32.size)
    (hm : p.models[place]? = some m)
    (hhonest : ∀ v f, a.Passes v → v.Holds f → p.Circulates f) :
    (p.step (.act place a)).Ledger (log ++ a.allocated m) := by
  have hsound := h.sound place m hm
  have hnonce := (World.extends_step { model := m, objects := p.objects } a).nonce_eq
  have hplace := (Array.getElem?_eq_some_iff.1 hm).1
  have hsame : (p.step (.act place a)).models.size = p.models.size := by
    rw [step_act hm, Array.size_setIfInBounds]
  refine ⟨?_, ?_, ?_, ?_, fun f => h.circulating_act hm hhonest⟩
  · intro k m' hm'
    rcases models_step_act hm a hm' with ⟨-, rfl⟩ | ⟨-, hm'⟩
    · exact World.sound_step (w := { model := m, objects := p.objects }) hsound a
    · exact h.sound k m' hm'
  · intro k m' hm'
    rcases models_step_act hm a hm' with ⟨rfl, rfl⟩ | ⟨-, hm'⟩
    · exact hnonce.trans (h.numbered k m hm)
    · exact h.numbered k m' hm'
  · intro k m' hm'
    rcases models_step_act hm a hm' with ⟨-, rfl⟩ | ⟨hk, hm'⟩
    · rw [hnonce, Act.methodCount_step]
      exact h.counted_acted hm
    · exact h.counted_other hsize hm hk hm'
  · intro f hf
    rw [hsame]
    rcases List.mem_append.1 hf with hf | hf
    · exact h.issued f hf
    · exact ⟨place, hplace, (Act.model_of_allocated hf).trans (h.numbered place m hm)⟩

end Acts

/-! ## Whole pasts -/

theorem size_le_step (p : Program β) (d : Deed β) : p.models.size ≤ (p.step d).models.size := by
  cases d with
  | found limits => simp only [step, Array.size_push]; omega
  | hold value => exact Nat.le_refl _
  | act place a =>
    simp only [step]
    split
    · simp
    · exact Nat.le_refl _

/-- **One deed.** The ledger of a program goes on with what the deed allocates. -/
theorem Ledger.step {p : Program β} {log : List (Method β)} (h : p.Ledger log) {d : Deed β}
    (hsize : (p.step d).models.size ≤ UInt32.size)
    (hhonest : ∀ v f, d.Passes v → v.Holds f → p.Circulates f) :
    (p.step d).Ledger (log ++ p.allocated d) := by
  cases d with
  | found limits =>
    simp only [Program.step, Array.size_push] at hsize
    rw [show p.allocated (.found limits) = [] from rfl, List.append_nil]
    exact h.found (by omega) limits
  | hold value =>
    rw [show p.allocated (.hold value) = [] from rfl, List.append_nil]
    exact h.hold fun f hf => hhonest value f rfl hf
  | act place a =>
    cases hm : p.models[place]? with
    | none =>
      have hsame : p.step (.act place a) = p := by simp only [Program.step, hm]
      have hnone : p.allocated (.act place a) = [] := by simp only [allocated, hm]
      rw [hsame, hnone, List.append_nil]
      exact h
    | some m =>
      have hnew : p.allocated (.act place a) = a.allocated m := by simp only [allocated, hm]
      rw [hnew]
      exact h.act (Nat.le_trans (size_le_step p _) hsize) hm hhonest

/-- **All deeds.** The log of an honest past is a ledger of the program it leads to. -/
theorem ledger_after {past : List (Deed β)} (hhonest : start.Honest past)
    (hsize : (start.after past).models.size ≤ UInt32.size) :
    (start.after past).Ledger (start.log past) := by
  induction past with
  | nil => exact ledger_start
  | cons d past ih =>
    have hbefore := Nat.le_trans (size_le_step (start.after past) d) hsize
    exact (ih hhonest.2 hbefore).step hsize hhonest.1

/-! ## Identities -/

/-- No two entries of a ledger have the same identity. -/
theorem Ledger.distinct {p : Program β} {log : List (Method β)} (h : p.Ledger log) :
    log.Pairwise fun f g => f.id ≠ g.id := by
  rw [List.pairwise_iff_getElem]
  intro i j hi hj hij heq
  obtain ⟨k, hk, hissued⟩ := h.issued log[i] (List.getElem_mem hi)
  have hm : p.models[k]? = some p.models[k] := Array.getElem?_eq_getElem hk
  have hnonce := h.numbered k _ hm
  -- the entries of one model are numbered one after another
  have hseq : log.Pairwise fun f g => f.id.model = p.models[k].nonce →
      g.id.model = p.models[k].nonce → f.id.seq ≠ g.id.seq := by
    have hnodup : ((log.filter fun f => f.id.model = p.models[k].nonce).map (·.id.seq)).Nodup := by
      rw [h.counted k _ hm]
      exact List.nodup_range
    simpa using List.pairwise_filter.1 (List.pairwise_map.1 hnodup)
  have hmodel : log[i].id.model = p.models[k].nonce := hissued.trans hnonce.symm
  exact List.pairwise_iff_getElem.1 hseq i j hi hj hij hmodel (heq ▸ hmodel)
    (congrArg MethodId.seq heq)

theorem Ledger.sameAllocation {p : Program β} {log : List (Method β)} (h : p.Ledger log)
    {f g : Method β} (hf : f ∈ log) (hg : g ∈ log) (hid : f.id = g.id) :
    SameAllocation log f g := by
  obtain ⟨i, hi, rfl⟩ := List.getElem_of_mem hf
  obtain ⟨j, hj, rfl⟩ := List.getElem_of_mem hg
  have hdistinct := List.pairwise_iff_getElem.1 h.distinct
  rcases Nat.lt_trichotomy i j with hij | rfl | hij
  · exact absurd hid (hdistinct i j hi hj hij)
  · exact ⟨i, List.getElem?_eq_getElem hi, List.getElem?_eq_getElem hi⟩
  · exact absurd hid.symm (hdistinct j i hj hi hij)

theorem SameAllocation.eq {log : List (Method β)} {f g : Method β} (h : SameAllocation log f g) :
    f = g := by
  obtain ⟨k, hf, hg⟩ := h
  exact Option.some.inj (hf.symm.trans hg)

theorem circulates_of_get {p : Program β} {m : Model β} (hm : m ∈ p.models) {o : Instance β}
    (ho : o ∈ p.objects) {name : String} {v : Value (Method β)} (hget : m.get o name = .ok v)
    {f : Method β} (hf : v.Holds f) : p.Circulates f := by
  cases hown : o.getOwn name with
  | some v' =>
    rw [Model.get_own hown] at hget
    cases hget
    exact .own ho hown hf
  | none =>
    unfold Model.get at hget
    rw [hown] at hget
    cases hid : o.prototype with
    | none => simp [hid] at hget
    | some id =>
      rw [hid] at hget
      cases hr : m.record id with
      | error e => simp [hr, bind, Except.bind] at hget
      | ok r =>
        have hslot : r.slots.get? name = some v := by
          cases hv : r.slots.get? name with
          | none => simp [hr, hv, bind, Except.bind] at hget
          | some v' => simpa [hr, hv, bind, Except.bind] using hget
        have hfound : m.slot? id name = some v := by
          rw [Model.slot?, Model.record_eq_ok_iff.1 hr, Option.bind_some, hslot]
        obtain ⟨r', hr', hslot'⟩ := Model.exists_of_slot? hfound
        exact .slot hm hr' hslot' hf

end Program

/-- A comparison is affirmed exactly if both lookups find methods, of one identity. -/
theorem Model.sameMethodReference_eq_true_iff {m : Model β} {a b : Instance β} {name : String} :
    m.sameMethodReference a b name = .ok true ↔
      ∃ f g, m.get a name = .ok (.method f) ∧ m.get b name = .ok (.method g) ∧ f.id = g.id := by
  unfold Model.sameMethodReference
  cases m.get a name with
  | error e => simp [bind, Except.bind]
  | ok va =>
    cases m.get b name with
    | error e => simp [bind, Except.bind]
    | ok vb =>
      cases va <;> cases vb <;> simp [bind, Except.bind, pure, Except.pure, Method.same]

namespace Program

/-- **Identity of methods.** In an honest program of no more models than a half word can number: the
log has an entry for every method that any model has counted; no two of its entries have the same
identity; methods in circulation with the same identity are the same entry, and so have the same
name and the same body; and two instances are said to refer to the same method exactly if the name
leads to methods of one entry on both. -/
theorem method_identity {past : List (Deed β)} (hhonest : start.Honest past)
    (hsize : (start.after past).models.size ≤ UInt32.size) :
    let p := (start : Program β).after past
    let log := (start : Program β).log past
    (∀ m ∈ p.models, (log.filter fun f => f.id.model = m.nonce).map (·.id.seq) =
      List.range m.methodCount) ∧
    (log.Pairwise fun f g => f.id ≠ g.id) ∧
    (∀ f g, p.Circulates f → p.Circulates g → f.id = g.id →
      SameAllocation log f g ∧ f.name = g.name ∧ f.body = g.body) ∧
    ∀ m ∈ p.models, ∀ a ∈ p.objects, ∀ b ∈ p.objects, ∀ name,
      m.sameMethodReference a b name = .ok true ↔
        ∃ f g, m.get a name = .ok (.method f) ∧ m.get b name = .ok (.method g) ∧
          SameAllocation log f g := by
  intro p log
  have h : p.Ledger log := ledger_after hhonest hsize
  have hsame : ∀ f g, p.Circulates f → p.Circulates g → f.id = g.id → SameAllocation log f g :=
    fun f g hf hg hid => h.sameAllocation (h.circulating f hf) (h.circulating g hg) hid
  refine ⟨?_, h.distinct, ?_, ?_⟩
  · intro m hm
    obtain ⟨k, hk⟩ := Array.mem_iff_getElem?.1 hm
    exact h.counted k m hk
  · intro f g hf hg hid
    have hentry := hsame f g hf hg hid
    exact ⟨hentry, congrArg Method.name hentry.eq, congrArg Method.body hentry.eq⟩
  · intro m hm a ha b hb name
    rw [Model.sameMethodReference_eq_true_iff]
    constructor
    · rintro ⟨f, g, hf, hg, hid⟩
      exact ⟨f, g, hf, hg, hsame f g (circulates_of_get hm ha hf (.method f))
        (circulates_of_get hm hb hg (.method g)) hid⟩
    · rintro ⟨f, g, hf, hg, hentry⟩
      exact ⟨f, g, hf, hg, congrArg Method.id hentry.eq⟩

def borrowed : Method Unit := { id := ⟨1, 0⟩, name := "f", body := () }

/-- A past in which a method of one model is put into an array in a slot of another, and made a
property of an instance that is then copied. -/
def borrowing : List (Deed Unit) := [
  .act 0 (.clone 1),
  .act 1 (.setOwn 1 "f" (.method borrowed)),
  .act 0 (.operate (.mutateSharedSlot "T" "g" (.array [.null, .method borrowed]))),
  .act 0 (.operate (.construct .dynamicPrototype ∅ (.ofList [("f", ())]) "T")),
  .act 0 (.operate (.construct .constructorOnly ∅ (.ofList [("f", ())]) "T")),
  .act 1 (.operate (.allocate "f" ())),
  .found {},
  .found {}]

theorem honest_borrowing : start.Honest borrowing := by
  refine ⟨?_, ?_, ?_, ?_, ?_, ?_, ?_, ?_, trivial⟩
  · intro v f h; cases h
  · intro v f h hf
    cases h
    cases hf
    exact .held (List.mem_singleton_self _) (.method borrowed)
  · intro v f h hf
    cases h
    cases hf with
    | item hv hf =>
      simp only [List.mem_cons, List.not_mem_nil, or_false] at hv
      rcases hv with rfl | rfl
      · cases hf
      · cases hf
        exact .held (List.mem_singleton_self _) (.method borrowed)
  · rintro v f ⟨name, h⟩; cases h
  · rintro v f ⟨name, h⟩; cases h
  · intro v f h; cases h
  · intro v f h; cases h
  · intro v f h; cases h

/-- The instance and its copy refer to the same method; the copy that the first instance was given
of a method of the same name and body is another one. -/
theorem method_identity_borrowing :
    let p := start.after borrowing
    ∃ m a b c, p.models[0]? = some m ∧ p.objects[0]? = some a ∧ p.objects[1]? = some b ∧
      p.objects[2]? = some c ∧ start.Honest borrowing ∧ p.models.size ≤ UInt32.size ∧
      m.sameMethodReference b c "f" = .ok true ∧ m.sameMethodReference a b "f" ≠ .ok true := by
  obtain ⟨-, -, -, hsame⟩ := method_identity honest_borrowing (by decide)
  have ha : _ ∈ (start.after borrowing).objects := Array.mem_of_getElem? (i := 0) rfl
  have hb : _ ∈ (start.after borrowing).objects := Array.mem_of_getElem? (i := 1) rfl
  have hc : _ ∈ (start.after borrowing).objects := Array.mem_of_getElem? (i := 2) rfl
  have hm : _ ∈ (start.after borrowing).models := Array.mem_of_getElem? (i := 0) rfl
  refine ⟨_, _, _, _, rfl, rfl, rfl, rfl, honest_borrowing, by decide, ?_, ?_⟩
  · exact (hsame _ hm _ hb _ hc "f").2 ⟨borrowed, borrowed, rfl, rfl, 0, rfl, rfl⟩
  · intro h
    obtain ⟨f, g, hf, hg, k, hk, hk'⟩ := (hsame _ hm _ ha _ hb "f").1 h
    cases hf
    cases hg
    cases hk.symm.trans hk'

end Program

end Delegation
