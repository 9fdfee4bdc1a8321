import Concerto.Identifier
import Concerto.Schema.Encode
import Concerto.Schema.Field
import Concerto.Schema.Scalar
import Mathlib.Tactic.Common

/-!
Checks that undo an encoding.

* `FieldName.mem_of_find?`: where a field is found;
* `Checked.Gives`: a result is a given value if and only if a condition holds;
* `Codes`: a check accepts an encoded value if and only if a condition holds for the value, and
  gives it back;
* `gives_required`, `gives_optional`, `gives_defaulted`: the fields of an encoded node;
* `gives_node`, `gives_tagged`: encoded nodes of a class, and of one of some classes.
-/

namespace Concerto

/-! ### Keys -/

/-- The keys that a field may have. -/
def FieldName.keys (f : FieldName) : List String := [f.json, f.plain]

lemma mem_of_lookup {fields : Fields} {key : String} {value : Json}
    (h : fields.lookup key = some value) : (key, value) ∈ fields := by
  obtain ⟨before, after, rfl, -⟩ := List.lookup_eq_some_iff.mp h
  simp

/-- A field that is found is one of those in the object, under one of its keys. -/
lemma FieldName.mem_of_find? {f : FieldName} {fields : Fields} {key : String} {value : Json}
    (h : f.find? fields = some (key, value)) : (key, value) ∈ fields ∧ key ∈ f.keys := by
  rw [find?] at h
  split at h
  · next v hlookup =>
      cases h
      exact ⟨mem_of_lookup hlookup, by simp [keys]⟩
  · obtain ⟨v, hlookup, hv⟩ := Option.map_eq_some_iff.mp h
    cases hv
    exact ⟨mem_of_lookup hlookup, by simp [keys]⟩

/-! ### Results -/

namespace Checked

variable {α β : Type}

@[simp] lemma within_eq_ok {segment : String} {c : Checked α} {a : α} :
    c.within segment = ok a ↔ c = ok a := by
  cases c <;> simp [within]

lemma map_eq_ok {f : α → β} {c : Checked α} {b : β} :
    f <$> c = ok b ↔ ∃ a, c = ok a ∧ f a = b := by
  show map f c = ok b ↔ _
  cases c <;> simp [map]

lemma andThen_eq_ok {c : Checked α} {more : List Violation} {a : α} :
    c.andThen more = ok a ↔ c = ok a ∧ more = [] := by
  cases c <;> cases more <;> simp [andThen]

end Checked

/-- The result is the value if the condition holds, and is none otherwise. -/
def Checked.Gives {α : Type} (c : Checked α) (a : α) (condition : Prop) : Prop :=
  ∀ b, c = .ok b ↔ b = a ∧ condition

namespace Checked.Gives

variable {α β : Type} {c : Checked α} {a : α} {condition condition' : Prop}

lemma ok (a : α) : Gives (.ok a) a True := fun b => by simp [eq_comm]

lemma congr (h : c.Gives a condition) (hiff : condition ↔ condition') : c.Gives a condition' :=
  fun b => by rw [h b, hiff]

lemma map (h : c.Gives a condition) (f : α → β) : (f <$> c).Gives (f a) condition := by
  intro b
  rw [map_eq_ok]
  constructor
  · rintro ⟨x, hx, rfl⟩
    obtain ⟨rfl, hcondition⟩ := (h x).mp hx
    exact ⟨rfl, hcondition⟩
  · rintro ⟨rfl, hcondition⟩
    exact ⟨a, (h a).mpr ⟨rfl, hcondition⟩, rfl⟩

/-- Two results combine if both conditions hold. -/
lemma seq {f : Checked (α → β)} {g : α → β} (hf : f.Gives g condition)
    (h : c.Gives a condition') : (f <*> c).Gives (g a) (condition ∧ condition') := by
  intro b
  rw [ok_iff_seq]
  constructor
  · rintro ⟨g', x, hg, hx, rfl⟩
    obtain ⟨rfl, hcondition⟩ := (hf g').mp hg
    obtain ⟨rfl, hcondition'⟩ := (h x).mp hx
    exact ⟨rfl, hcondition, hcondition'⟩
  · rintro ⟨rfl, hcondition, hcondition'⟩
    exact ⟨g, a, (hf g).mpr ⟨rfl, hcondition⟩, (h a).mpr ⟨rfl, hcondition'⟩, rfl⟩

lemma within (h : c.Gives a condition) (segment : String) : (c.within segment).Gives a condition :=
  fun b => by rw [within_eq_ok, h b]

end Checked.Gives

/-- The check accepts an encoded value if the condition holds, and gives the value back. -/
def Codes {α : Type} (check : Json → Checked α) (encode : α → Json) (condition : α → Prop) : Prop :=
  ∀ a, (check (encode a)).Gives a (condition a)

section Fields

variable {α : Type} {check : Json → Checked α} {encode : α → Json} {condition : α → Prop}

/-- The items of a list. -/
lemma gives_items (h : Codes check encode condition) (as : List α) (first : ℕ) :
    (Checked.items check first (as.map encode)).Gives as (∀ a ∈ as, condition a) := by
  induction as generalizing first with
  | nil => exact (Checked.Gives.ok []).congr (by simp)
  | cons a as ih =>
      have hitem := ((h a).within (toString first)).map (fun a as => a :: as)
      exact (hitem.seq (ih (first + 1))).congr List.forall_mem_cons.symm

/-- The check of a list undoes the encoding of a list. -/
lemma codes_list (h : Codes check encode condition) :
    Codes (checkList check) (jsonList encode) fun as => ∀ a ∈ as, condition a :=
  fun as => gives_items h as 0

/-! ### Fields -/

@[simp] lemma lookup_presentField (key : String) (value : Json) (rest : Fields) (k : String) :
    List.lookup k (presentField key value ++ rest) =
      if k = key then some value else rest.lookup k := by
  by_cases h : k = key <;> simp [presentField, List.lookup_cons, h, beq_eq_false_iff_ne.mpr]

@[simp] lemma lookup_optionalField (key : String) (encode : α → Json) (o : Option α) (rest : Fields)
    (k : String) : List.lookup k (optionalField key encode o ++ rest) =
      if k = key then (o.map encode).or (rest.lookup k) else rest.lookup k := by
  cases o with
  | none => simp [optionalField]
  | some a =>
      by_cases h : k = key <;> simp [optionalField, List.lookup_cons, h, beq_eq_false_iff_ne.mpr]

@[simp] lemma lookup_presentField_last (key : String) (value : Json) (k : String) :
    List.lookup k (presentField key value) = if k = key then some value else none := by
  rw [← List.append_nil (presentField key value), lookup_presentField]
  rfl

@[simp] lemma lookup_optionalField_last (key : String) (encode : α → Json) (o : Option α)
    (k : String) :
    List.lookup k (optionalField key encode o) = if k = key then o.map encode else none := by
  rw [← List.append_nil (optionalField key encode o), lookup_optionalField]
  cases o <;> rfl

variable {f : FieldName} {fields : Fields}

/-- A field that has to be there, and is. -/
lemma gives_required (h : Codes check encode condition) {a : α}
    (hfield : fields.lookup f.json = some (encode a)) :
    (required f check fields).Gives a (condition a) := by
  rw [required, FieldName.find?, hfield]
  exact (h a).within f.json

/-- A field with a default that is there. -/
lemma gives_defaulted (h : Codes check encode condition) {a : α} (default : α)
    (hfield : fields.lookup f.json = some (encode a)) :
    (defaulted f default check fields).Gives a (condition a) := by
  rw [defaulted, FieldName.find?, hfield]
  exact (h a).within f.json

/-- A field that may be there, in its first spelling only. -/
lemma gives_optional (h : Codes check encode condition) (hnull : ∀ a, encode a ≠ .null)
    {o : Option α} (hfield : fields.lookup f.json = o.map encode)
    (hplain : o = none → fields.lookup f.plain = none) :
    (optional f check fields).Gives o (∀ a ∈ o, condition a) := by
  rw [optional, FieldName.find?, hfield]
  cases o with
  | none =>
      rw [hplain rfl]
      exact (Checked.Gives.ok none).congr (by simp)
  | some a =>
      have hne := hnull a
      have hvalue := (((h a).within f.json).map some).congr
        (show condition a ↔ ∀ x ∈ some a, condition x by simp)
      simpa [hne] using hvalue

/-- A node that names its own class. -/
lemma gives_ownClass {c : NodeClass} (hfield : fields.lookup "$class" = some (.string c.tag)) :
    (ownClass c fields).Gives () True := by
  intro u
  rw [ownClass, defaulted, FieldName.find?]
  simp [FieldName.class', hfield]

/-! ### Nodes -/

/-- All keys are those of fields of a class. -/
def KeysIn (c : NodeClass) (fields : Fields) : Prop :=
  ∀ field ∈ fields, field.1 ∈ c.fieldNames.map FieldName.json

@[simp] lemma KeysIn.nil {c : NodeClass} : KeysIn c [] := fun _ => by simp

@[simp] lemma keysIn_append {c : NodeClass} {fields fields' : Fields} :
    KeysIn c (fields ++ fields') ↔ KeysIn c fields ∧ KeysIn c fields' :=
  List.forall_mem_append

@[simp] lemma keysIn_presentField {c : NodeClass} {key : String} {value : Json} :
    KeysIn c (presentField key value) ↔ key ∈ c.fieldNames.map FieldName.json := by
  simp [KeysIn, presentField]

@[simp] lemma keysIn_optionalField {c : NodeClass} {key : String} {o : Option α}
    (h : key ∈ c.fieldNames.map FieldName.json) : KeysIn c (optionalField key encode o) := by
  cases o with
  | none => simp [KeysIn, optionalField]
  | some a => simpa [KeysIn, optionalField] using h

/-- An encoded node has no keys but those of its fields. -/
lemma unknownKeys_eq_nil {c : NodeClass} (h : KeysIn c fields) : unknownKeys c fields = [] := by
  rw [unknownKeys, List.map_eq_nil_iff, List.filter_eq_nil_iff]
  intro field hfield
  obtain ⟨f, hf, hkey⟩ := List.mem_map.mp (h field hfield)
  have hsome : (fields.lookup f.json).isSome = true := by
    rw [List.lookup_isSome_iff]
    exact ⟨field, hfield, by simp [hkey]⟩
  have hknown : field.1 ∈ c.fieldNames.filterMap (·.keyIn? fields) := by
    rw [List.mem_filterMap]
    exact ⟨f, hf, by rw [FieldName.keyIn?, if_pos hsome, hkey]⟩
  simpa using hknown

/-- An encoded node is what is built of its fields. -/
lemma gives_node {c : NodeClass} {build : Fields → Checked α} {a : α} {condition : Prop}
    (h : (build fields).Gives a condition)
    (hkeys : KeysIn c fields) : (checkNode c build (.object fields)).Gives a condition := by
  intro b
  rw [checkNode, Checked.andThen_eq_ok, unknownKeys_eq_nil hkeys, h b]
  simp

/-- An encoded node of one of some classes. -/
lemma gives_tagged {cases : List (NodeClass × (Json → Checked α))} {c : NodeClass}
    {check : Json → Checked α} {a : α} {condition : Prop}
    (h : (check (.object fields)).Gives a condition) (hplain : fields.lookup "class_" = none)
    (hfield : fields.lookup "$class" = some (.string c.tag))
    (hfind : cases.find? (fun d => c = d.1) = some (c, check)) :
    (checkTagged cases (.object fields)).Gives a condition := by
  have hcases : cases.find? (fun d => c.tag = d.1.tag) = some (c, check) := by
    rw [← hfind]
    simp only [NodeClass.tag_inj]
  simp only [checkTagged, tagOf?, FieldName.class', hplain, hfield, hcases]
  exact h.within c.tag

end Fields

end Concerto
