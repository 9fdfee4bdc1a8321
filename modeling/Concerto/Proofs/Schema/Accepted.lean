import Concerto.Proofs.Outcome
import Concerto.Proofs.Schema.Nodes

/-!
What holds of everything that a check accepts.

* `Inherited`: a property that objects and lists hand down to the values in them;
* `Ensures`: whatever a check makes of values with one property has another;
* `ensures_model`, `ensures_models`: models that are accepted are well named, whatever they are made of;
* `Artifact.canonical_canonical`: the checked form of a document is its own checked form.
-/

namespace Concerto

/-- The values in an object or a list have the property if the object or the list has. -/
structure Inherited (given : Json → Prop) : Prop where
  field : ∀ {fields : Fields}, given (.object fields) → ∀ field ∈ fields, given field.2
  item : ∀ {items : List Json}, given (.array items) → ∀ item ∈ items, given item

/-- There is nothing to hand down. -/
lemma Inherited.any : Inherited fun _ => True := ⟨fun _ _ _ => trivial, fun _ _ _ => trivial⟩

/-- Whatever the check makes of a value of the one kind is of the other. -/
def Ensures {α : Type} (given : Json → Prop) (check : Json → Checked α) (property : α → Prop) :
    Prop :=
  ∀ value a, given value → check value = .ok a → property a

section
variable {α : Type} {given : Json → Prop} {check : Json → Checked α} {property : α → Prop}
  {f : FieldName} {fields : Fields}

/-- The value of a field is one of those in the object. -/
lemma Inherited.find? (hgiven : Inherited given) (hfields : given (.object fields)) {key : String}
    {value : Json} (h : f.find? fields = some (key, value)) : given value :=
  hgiven.field hfields (key, value) (FieldName.mem_of_find? h).1

namespace Ensures

/-! ### Fields -/

section
variable (h : Ensures given check property) (hgiven : Inherited given)
  (hfields : given (.object fields))
include h hgiven hfields

lemma required {a : α} (ha : Concerto.required f check fields = .ok a) : property a := by
  rw [Concerto.required] at ha
  split at ha
  · next key value hfind =>
      exact h value a (hgiven.find? hfields hfind) (Checked.within_eq_ok.mp ha)
  · cases ha

lemma defaulted {default a : α} (hdefault : property default)
    (ha : Concerto.defaulted f default check fields = .ok a) : property a := by
  rw [Concerto.defaulted] at ha
  split at ha
  · next key value hfind =>
      exact h value a (hgiven.find? hfields hfind) (Checked.within_eq_ok.mp ha)
  · cases ha
    exact hdefault

lemma optional {o : Option α} (ho : Concerto.optional f check fields = .ok o) :
    ∀ a ∈ o, property a := by
  rw [Concerto.optional] at ho
  split at ho
  · cases ho
    simp
  · next key value _ hfind =>
      obtain ⟨a, ha, rfl⟩ := Checked.map_eq_ok.mp ho
      rintro _ ⟨⟩
      exact h value a (hgiven.find? hfields hfind) (Checked.within_eq_ok.mp ha)
  · cases ho
    simp

end

/-! ### Values -/

lemma map {β : Type} {property' : β → Prop} (h : Ensures given check property) (f : α → β)
    (hf : ∀ a, property a → property' (f a)) :
    Ensures given (fun value => f <$> check value) property' := by
  intro value b hvalue hb
  obtain ⟨a, ha, rfl⟩ := Checked.map_eq_ok.mp hb
  exact hf a (h value a hvalue ha)

lemma node {c : NodeClass} {build : Fields → Checked α}
    (h : ∀ fields a, given (.object fields) → build fields = .ok a → property a) :
    Ensures given (checkNode c build) property := by
  intro value a hvalue ha
  rw [checkNode.eq_def] at ha
  split at ha
  · exact h _ a hvalue (Checked.andThen_eq_ok.mp ha).1
  · cases ha

lemma tagged {cases : List (NodeClass × (Json → Checked α))}
    (h : ∀ case ∈ cases, Ensures given case.2 property) :
    Ensures given (checkTagged cases) property := by
  intro value a hvalue ha
  rw [checkTagged.eq_def] at ha
  split at ha
  · split at ha
    · cases ha
    · simp only at ha
      split at ha
      · next found hfind =>
          exact h _ (List.mem_of_find?_eq_some hfind) _ a hvalue (Checked.within_eq_ok.mp ha)
      · cases ha
  · cases ha

lemma items (h : Ensures given check property) {items : List Json} (first : ℕ) {as : List α}
    (hitems : ∀ item ∈ items, given item) (has : Checked.items check first items = .ok as) :
    ∀ a ∈ as, property a := by
  induction items generalizing first as with
  | nil =>
      cases has
      simp
  | cons item items ih =>
      obtain ⟨hitem, hothers⟩ := List.forall_mem_cons.mp hitems
      rw [Checked.items, Checked.ok_iff_seq] at has
      obtain ⟨g, others, hg, hrest, rfl⟩ := has
      obtain ⟨a, ha, rfl⟩ := Checked.map_eq_ok.mp hg
      exact List.forall_mem_cons.mpr
        ⟨h item a hitem (Checked.within_eq_ok.mp ha), ih (first + 1) hothers hrest⟩

lemma list (h : Ensures given check property) (hgiven : Inherited given) :
    Ensures given (checkList check) (∀ a ∈ ·, property a) := by
  intro value as hvalue has
  rw [checkList.eq_def] at has
  split at has
  · exact h.items 0 (hgiven.item hvalue) has
  · cases has

end Ensures

end

/-! ### Names -/

section
variable {given : Json → Prop} (hgiven : Inherited given)

lemma ensures_identifier : Ensures given checkIdentifier (isIdentifier · = true) := by
  intro value name _ hname
  rw [checkIdentifier] at hname
  split at hname
  · split at hname
    · next hidentifier =>
        cases hname
        exact hidentifier
    · cases hname
  · cases hname

include hgiven

/-- The fields that a declaration, a property or a value begins with hold a proper name. -/
lemma wellNamed_of_headerOf {fields : Fields} {h : Header} (hfields : given (.object fields))
    (hh : headerOf fields = .ok h) : h.WellNamed := by
  simp only [headerOf, Checked.ok_iff_seq, Checked.map_eq_ok] at hh
  obtain ⟨_, _, ⟨_, _, ⟨name, hname, rfl⟩, -, rfl⟩, -, rfl⟩ := hh
  exact ensures_identifier.required hgiven hfields hname

lemma ensures_property : Ensures given checkProperty (·.header.WellNamed) := by
  refine .tagged fun case hcase => ?_
  obtain ⟨⟨c, build⟩, -, rfl⟩ := List.mem_map.mp hcase
  refine .node fun fields p hfields hp => ?_
  simp only [Checked.ok_iff_seq, Checked.map_eq_ok] at hp
  obtain ⟨_, kind, ⟨_, -, ⟨_, _, ⟨_, _, ⟨header, hheader, rfl⟩, -, rfl⟩, -, rfl⟩, -, rfl⟩, -, rfl⟩ :=
    hp
  exact wellNamed_of_headerOf hgiven hfields hheader

lemma ensures_enumValue : Ensures given checkEnumValue Header.WellNamed := by
  refine .node fun fields h hfields hh => ?_
  simp only [Checked.ok_iff_seq, Checked.map_eq_ok] at hh
  obtain ⟨_, -, ⟨header, hheader, rfl⟩, -, rfl⟩ := hh
  exact wellNamed_of_headerOf hgiven hfields hheader

lemma ensures_concept (kind : ConceptKind) : Ensures given (checkConcept kind) Concept.WellNamed := by
  refine .node fun fields c hfields hc => ?_
  simp only [Checked.ok_iff_seq, Checked.map_eq_ok] at hc
  obtain ⟨_, properties, ⟨_, _, ⟨_, _, ⟨_, _, ⟨_, -, ⟨header, hheader, rfl⟩, -, rfl⟩, -, rfl⟩, -, rfl⟩,
    -, rfl⟩, hproperties, rfl⟩ := hc
  exact ⟨wellNamed_of_headerOf hgiven hfields hheader,
    ((ensures_property hgiven).list hgiven).defaulted hgiven hfields (by simp) hproperties⟩

lemma ensures_enumeration : Ensures given checkEnumeration Enumeration.WellNamed := by
  refine .node fun fields e hfields he => ?_
  simp only [Checked.ok_iff_seq, Checked.map_eq_ok] at he
  obtain ⟨_, values, ⟨_, -, ⟨header, hheader, rfl⟩, -, rfl⟩, hvalues, rfl⟩ := he
  exact ⟨wellNamed_of_headerOf hgiven hfields hheader,
    ((ensures_enumValue hgiven).list hgiven).defaulted hgiven hfields (by simp) hvalues⟩

lemma ensures_declaration : Ensures given checkDeclaration Declaration.WellNamed := by
  refine .tagged fun case hcase => ?_
  rcases List.mem_append.mp hcase with hcase | hcase
  · obtain ⟨kind, -, rfl⟩ := List.mem_map.mp hcase
    exact (ensures_concept hgiven kind).map Declaration.concept fun _ hc => hc
  · obtain rfl := List.mem_singleton.mp hcase
    exact (ensures_enumeration hgiven).map Declaration.enumeration fun _ he => he

/-- A model that is accepted is well named. -/
lemma ensures_model : Ensures given checkModel Model.WellNamed := by
  refine .node fun fields m hfields hm => ?_
  simp only [Checked.ok_iff_seq, Checked.map_eq_ok] at hm
  obtain ⟨_, declarations, ⟨_, _, ⟨_, _, ⟨_, _, ⟨_, _, ⟨-, -, rfl⟩, -, rfl⟩, -, rfl⟩, -, rfl⟩, -, rfl⟩,
    hdeclarations, rfl⟩ := hm
  exact ((ensures_declaration hgiven).list hgiven).defaulted hgiven hfields (by simp) hdeclarations

/-- Models that are accepted are well named. -/
lemma ensures_models : Ensures given checkModels (∀ m ∈ ·, Model.WellNamed m) := by
  refine .node fun fields models hfields hmodels => ?_
  simp only [Checked.ok_iff_seq, Checked.map_eq_ok] at hmodels
  obtain ⟨_, models, ⟨-, -, rfl⟩, hmodels, rfl⟩ := hmodels
  exact ((ensures_model hgiven).list hgiven).defaulted hgiven hfields (by simp) hmodels

end

/-! ### Documents -/

/-- A model that has been made of a JSON value is well named. -/
lemma Model.wellNamed_of_ofJson {value : Json} {m : Model} (h : ofJson value = .ok m) :
    m.WellNamed :=
  ensures_model .any value m trivial (Checked.accept_eq_ok.mp h)

namespace Artifact

variable {value form : Json} {a a' : Artifact}

/-- The models of a document that has been made of a JSON value are well named. -/
lemma wellNamed_of_ofJson (h : ofJson value = .ok a) : ∀ m ∈ a.toModels, m.WellNamed := by
  rw [ofJson, Checked.accept_eq_ok] at h
  have hensures : Ensures (fun _ => True) (checkTagged [(.model, fun v => model <$> checkModel v),
      (.models, fun v => models <$> checkModels v)]) fun a => ∀ m ∈ a.toModels, m.WellNamed := by
    refine .tagged fun case hcase => ?_
    simp only [List.mem_cons, List.not_mem_nil, or_false] at hcase
    rcases hcase with rfl | rfl
    · exact (ensures_model .any).map model fun _ hm => List.forall_mem_singleton.mpr hm
    · exact (ensures_models .any).map models fun _ hms => hms
  exact hensures value a trivial h

/-- What is made of a value has a form that is checked to be itself. -/
lemma canonical_canonical (h : canonical value = .ok form) : canonical form = .ok form := by
  obtain ⟨a, ha, rfl⟩ := map_eq_ok.mp h
  have hagain : ofJson a.toJson = .ok a := ofJson_eq_ok.mpr ⟨rfl, wellNamed_of_ofJson ha⟩
  rw [canonical, hagain]
  rfl

end Artifact

end Concerto
