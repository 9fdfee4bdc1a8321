import Concerto.Proofs.Model.Words
import Concerto.Resolve.Reference
import Mathlib.Tactic.Common

/-!
The references of a model.

* `Model.references`, `Model.mapReferences`: the references of a model in the order in which they
  are visited, and the model with all of them changed;
* `Model.references_mapReferences`, `Model.mapReferences_mapReferences`: what references a changed
  model has, and what changing it again comes to;
* `Model.sourceForm_mapReferences`: the namespaces of references do not show in source text;
* `Model.namesTypes`: references that source text can tell are names of types;
* `Model.enumValueReferences`: the references that only count if those of enum values do.
-/

namespace Concerto

/-! ### References of nodes -/

/-- The reference without its namespace. -/
def Reference.unresolved (r : Reference) : Reference := { r with ns := none }

namespace DecoratorArgument

/-- The references of an argument. -/
def references : DecoratorArgument → List Reference
  | type ref _ _ => [ref]
  | _ => []

/-- The argument with its references changed. -/
def mapReferences (f : Reference → Reference) : DecoratorArgument → DecoratorArgument
  | type ref isArray location => type (f ref) isArray location
  | argument => argument

end DecoratorArgument

namespace Decorator

/-- The references of a decorator. -/
def references (d : Decorator) : List Reference :=
  (d.arguments.getD []).flatMap DecoratorArgument.references

/-- The decorator with its references changed. -/
def mapReferences (f : Reference → Reference) (d : Decorator) : Decorator :=
  { d with arguments := d.arguments.map (List.map (·.mapReferences f)) }

end Decorator

namespace Header

/-- The references of a header. -/
def references (h : Header) : List Reference :=
  (h.decorators.getD []).flatMap Decorator.references

/-- The header with its references changed. -/
def mapReferences (f : Reference → Reference) (h : Header) : Header :=
  { h with decorators := h.decorators.map (List.map (·.mapReferences f)) }

end Header

namespace PropertyKind

/-- The references of a kind of property. -/
def references : PropertyKind → List Reference
  | object type _ => [type]
  | relationship type => [type]
  | _ => []

/-- The kind of property with its references changed. -/
def mapReferences (f : Reference → Reference) : PropertyKind → PropertyKind
  | object type default => object (f type) default
  | relationship type => relationship (f type)
  | kind => kind

end PropertyKind

namespace Property

/-- The references of a property. -/
def references (p : Property) : List Reference := p.kind.references ++ p.header.references

/-- The property with its references changed. -/
def mapReferences (f : Reference → Reference) (p : Property) : Property :=
  { p with header := p.header.mapReferences f, kind := p.kind.mapReferences f }

end Property

namespace Concept

/-- The references of a concept. -/
def references (c : Concept) : List Reference :=
  c.superType.toList ++ c.properties.flatMap Property.references ++ c.header.references

/-- The concept with its references changed. -/
def mapReferences (f : Reference → Reference) (c : Concept) : Concept :=
  { c with
    header := c.header.mapReferences f
    superType := c.superType.map f
    properties := c.properties.map (·.mapReferences f) }

end Concept

namespace Enumeration

/-- The references of an enumeration, with those of its values if they count. -/
def references (enumValues : Bool) (e : Enumeration) : List Reference :=
  e.header.references ++ if enumValues then e.values.flatMap Header.references else []

/-- The enumeration with its references changed, those of its values if they count. -/
def mapReferences (enumValues : Bool) (f : Reference → Reference) (e : Enumeration) :
    Enumeration where
  header := e.header.mapReferences f
  values := if enumValues then e.values.map (·.mapReferences f) else e.values

end Enumeration

namespace Declaration

/-- The references of a declaration. -/
def references (enumValues : Bool) : Declaration → List Reference
  | concept c => c.references
  | enumeration e => e.references enumValues

/-- The declaration with its references changed. -/
def mapReferences (enumValues : Bool) (f : Reference → Reference) : Declaration → Declaration
  | concept c => concept (c.mapReferences f)
  | enumeration e => enumeration (e.mapReferences enumValues f)

end Declaration

namespace Model

/-- The references of a model. -/
def references (enumValues : Bool) (m : Model) : List Reference :=
  m.declarations.flatMap (Declaration.references enumValues)

/-- The model with its references changed. -/
def mapReferences (enumValues : Bool) (f : Reference → Reference) (m : Model) : Model :=
  { m with declarations := m.declarations.map (Declaration.mapReferences enumValues f) }

end Model

/-! ### References that have been changed -/

section Changed

variable (f : Reference → Reference)

lemma DecoratorArgument.references_mapReferences (a : DecoratorArgument) :
    (a.mapReferences f).references = a.references.map f := by
  cases a <;> rfl

lemma Decorator.references_mapReferences (d : Decorator) :
    (d.mapReferences f).references = d.references.map f := by
  obtain ⟨name, arguments, location⟩ := d
  cases arguments with
  | none => rfl
  | some arguments =>
      simp [references, mapReferences, List.flatMap_map, List.map_flatMap,
        DecoratorArgument.references_mapReferences]

lemma Header.references_mapReferences (h : Header) :
    (h.mapReferences f).references = h.references.map f := by
  obtain ⟨name, decorators, location⟩ := h
  cases decorators with
  | none => rfl
  | some decorators =>
      simp [references, mapReferences, List.flatMap_map, List.map_flatMap,
        Decorator.references_mapReferences]

lemma PropertyKind.references_mapReferences (k : PropertyKind) :
    (k.mapReferences f).references = k.references.map f := by
  cases k <;> rfl

lemma Property.references_mapReferences (p : Property) :
    (p.mapReferences f).references = p.references.map f := by
  simp [references, mapReferences, PropertyKind.references_mapReferences,
    Header.references_mapReferences]

lemma Concept.references_mapReferences (c : Concept) :
    (c.mapReferences f).references = c.references.map f := by
  have hsuper : (c.superType.map f).toList = c.superType.toList.map f := by
    cases c.superType <;> rfl
  simp [references, mapReferences, hsuper, List.flatMap_map, List.map_flatMap,
    Property.references_mapReferences, Header.references_mapReferences]

lemma Enumeration.references_mapReferences (enumValues : Bool) (e : Enumeration) :
    (e.mapReferences enumValues f).references enumValues = (e.references enumValues).map f := by
  cases enumValues <;>
    simp [references, mapReferences, List.flatMap_map, List.map_flatMap,
      Header.references_mapReferences]

lemma Declaration.references_mapReferences (enumValues : Bool) (d : Declaration) :
    (d.mapReferences enumValues f).references enumValues = (d.references enumValues).map f := by
  cases d with
  | concept c => exact c.references_mapReferences f
  | enumeration e => exact e.references_mapReferences f enumValues

/-- The references of a model with changed references are the changed ones. -/
lemma Model.references_mapReferences (enumValues : Bool) (m : Model) :
    (m.mapReferences enumValues f).references enumValues = (m.references enumValues).map f := by
  simp [references, mapReferences, List.flatMap_map, List.map_flatMap,
    Declaration.references_mapReferences]

@[simp] lemma Header.name_mapReferences (h : Header) : (h.mapReferences f).name = h.name := rfl

@[simp] lemma Declaration.name_mapReferences (enumValues : Bool) (d : Declaration) :
    (d.mapReferences enumValues f).name = d.name := by
  cases d <;> rfl

@[simp] lemma Model.declarationNames_mapReferences (enumValues : Bool) (m : Model) :
    (m.mapReferences enumValues f).declarationNames = m.declarationNames := by
  simp [declarationNames, mapReferences, Function.comp_def]

end Changed

/-! ### References that have been changed twice -/

section ChangedTwice

variable (f g : Reference → Reference)

lemma DecoratorArgument.mapReferences_mapReferences (a : DecoratorArgument) :
    (a.mapReferences f).mapReferences g = a.mapReferences (g ∘ f) := by
  cases a <;> rfl

lemma Decorator.mapReferences_mapReferences (d : Decorator) :
    (d.mapReferences f).mapReferences g = d.mapReferences (g ∘ f) := by
  simp [mapReferences, Function.comp_def, DecoratorArgument.mapReferences_mapReferences]

lemma Header.mapReferences_mapReferences (h : Header) :
    (h.mapReferences f).mapReferences g = h.mapReferences (g ∘ f) := by
  simp [mapReferences, Function.comp_def, Decorator.mapReferences_mapReferences]

lemma PropertyKind.mapReferences_mapReferences (k : PropertyKind) :
    (k.mapReferences f).mapReferences g = k.mapReferences (g ∘ f) := by
  cases k <;> rfl

lemma Property.mapReferences_mapReferences (p : Property) :
    (p.mapReferences f).mapReferences g = p.mapReferences (g ∘ f) := by
  simp [mapReferences, PropertyKind.mapReferences_mapReferences, Header.mapReferences_mapReferences]

lemma Concept.mapReferences_mapReferences (c : Concept) :
    (c.mapReferences f).mapReferences g = c.mapReferences (g ∘ f) := by
  simp [mapReferences, Function.comp_def, Property.mapReferences_mapReferences,
    Header.mapReferences_mapReferences]

lemma Enumeration.mapReferences_mapReferences (enumValues : Bool) (e : Enumeration) :
    (e.mapReferences enumValues f).mapReferences enumValues g =
      e.mapReferences enumValues (g ∘ f) := by
  cases enumValues <;>
    simp [mapReferences, Function.comp_def, Header.mapReferences_mapReferences]

lemma Declaration.mapReferences_mapReferences (enumValues : Bool) (d : Declaration) :
    (d.mapReferences enumValues f).mapReferences enumValues g =
      d.mapReferences enumValues (g ∘ f) := by
  cases d with
  | concept c => exact congrArg concept (c.mapReferences_mapReferences f g)
  | enumeration e => exact congrArg enumeration (e.mapReferences_mapReferences f g enumValues)

/-- Changing the references of a model twice changes each of them twice. -/
lemma Model.mapReferences_mapReferences (enumValues : Bool) (m : Model) :
    (m.mapReferences enumValues f).mapReferences enumValues g =
      m.mapReferences enumValues (g ∘ f) := by
  simp [mapReferences, Function.comp_def, Declaration.mapReferences_mapReferences]

end ChangedTwice

/-! ### Source forms -/

section SourceForm

variable {f : Reference → Reference} (hf : ∀ r, (f r).name = r.name)

include hf

lemma Reference.sourceForm_map (r : Reference) : (f r).sourceForm = r.sourceForm := by
  rw [sourceForm, sourceForm, hf]

lemma DecoratorArgument.sourceForm_mapReferences (a : DecoratorArgument) :
    (a.mapReferences f).sourceForm = a.sourceForm := by
  cases a <;> simp [mapReferences, sourceForm, Reference.sourceForm_map hf]

lemma Decorator.sourceForm_mapReferences (d : Decorator) :
    (d.mapReferences f).sourceForm = d.sourceForm := by
  simp [mapReferences, sourceForm, Function.comp_def, DecoratorArgument.sourceForm_mapReferences hf]

lemma Header.sourceForm_mapReferences (h : Header) :
    (h.mapReferences f).sourceForm = h.sourceForm := by
  simp [mapReferences, sourceForm, Function.comp_def, Decorator.sourceForm_mapReferences hf]

lemma PropertyKind.sourceForm_mapReferences (k : PropertyKind) :
    (k.mapReferences f).sourceForm = k.sourceForm := by
  cases k <;> simp [mapReferences, sourceForm, Reference.sourceForm_map hf]

lemma Property.sourceForm_mapReferences (p : Property) :
    (p.mapReferences f).sourceForm = p.sourceForm := by
  simp [mapReferences, sourceForm, Header.sourceForm_mapReferences hf,
    PropertyKind.sourceForm_mapReferences hf]

lemma Concept.sourceForm_mapReferences (c : Concept) :
    (c.mapReferences f).sourceForm = c.sourceForm := by
  simp [mapReferences, sourceForm, Function.comp_def, Header.sourceForm_mapReferences hf,
    Property.sourceForm_mapReferences hf, Reference.sourceForm_map hf]

lemma Enumeration.sourceForm_mapReferences (enumValues : Bool) (e : Enumeration) :
    (e.mapReferences enumValues f).sourceForm = e.sourceForm := by
  cases enumValues <;>
    simp [mapReferences, sourceForm, Function.comp_def, Header.sourceForm_mapReferences hf]

lemma Declaration.sourceForm_mapReferences (enumValues : Bool) (d : Declaration) :
    (d.mapReferences enumValues f).sourceForm = d.sourceForm := by
  cases d <;>
    simp [mapReferences, sourceForm, Concept.sourceForm_mapReferences hf,
      Enumeration.sourceForm_mapReferences hf]

/-- The namespaces of references do not show in source text. -/
lemma Model.sourceForm_mapReferences (enumValues : Bool) (m : Model) :
    (m.mapReferences enumValues f).sourceForm = m.sourceForm := by
  simp [mapReferences, sourceForm, Function.comp_def, Declaration.sourceForm_mapReferences hf]

end SourceForm

/-! ### Names of references -/

/-- The references are names of types. -/
def NamesTypes (refs : List Reference) : Prop := ∀ r ∈ refs, IsTypeName r.name

lemma namesTypes_append {refs refs' : List Reference} (h : NamesTypes refs)
    (h' : NamesTypes refs') : NamesTypes (refs ++ refs') :=
  List.forall_mem_append.mpr ⟨h, h'⟩

lemma namesTypes_flatMap {α : Type} {refs : α → List Reference} {as : List α}
    (h : ∀ a ∈ as, NamesTypes (refs a)) : NamesTypes (as.flatMap refs) := by
  intro r hr
  obtain ⟨a, ha, hr⟩ := List.mem_flatMap.mp hr
  exact h a ha r hr

lemma DecoratorArgument.namesTypes {a : DecoratorArgument} (h : a.IsSpellable) :
    NamesTypes a.references := by
  cases a <;> simp_all [NamesTypes, references, IsSpellable]

lemma Header.namesTypes {h : Header} (hh : h.IsSpellable) : NamesTypes h.references :=
  namesTypes_flatMap fun d hd => namesTypes_flatMap fun _ ha =>
    DecoratorArgument.namesTypes ((hh.decorators d hd).arguments _ ha)

lemma PropertyKind.namesTypes {k : PropertyKind} (h : k.IsSpellable) : NamesTypes k.references := by
  cases k <;> simp_all [NamesTypes, references, IsSpellable]

lemma Property.namesTypes {p : Property} (h : p.IsSpellable) : NamesTypes p.references :=
  namesTypes_append (PropertyKind.namesTypes h.kind) (Header.namesTypes h.header)

lemma Concept.namesTypes {c : Concept} (h : c.IsSpellable) : NamesTypes c.references := by
  have hsuper : NamesTypes c.superType.toList := by
    simpa [NamesTypes] using h.superType
  exact namesTypes_append (namesTypes_append hsuper
    (namesTypes_flatMap fun p hp => Property.namesTypes (h.properties p hp)))
    (Header.namesTypes h.header)

lemma Enumeration.namesTypes {e : Enumeration} (h : e.IsSpellable) (enumValues : Bool) :
    NamesTypes (e.references enumValues) := by
  refine namesTypes_append (Header.namesTypes h.header) ?_
  cases enumValues with
  | false => simp [NamesTypes]
  | true => exact namesTypes_flatMap fun v hv => Header.namesTypes (h.values v hv).2

lemma Declaration.namesTypes {d : Declaration} (h : d.IsSpellable) (enumValues : Bool) :
    NamesTypes (d.references enumValues) := by
  cases d with
  | concept c => exact Concept.namesTypes h
  | enumeration e => exact Enumeration.namesTypes h enumValues

/-- The references of a model that can be told are names of types. -/
lemma Model.namesTypes {m : Model} (h : ∀ d ∈ m.declarations, d.IsSpellable) (enumValues : Bool) :
    NamesTypes (m.references enumValues) :=
  namesTypes_flatMap fun d hd => Declaration.namesTypes (h d hd) enumValues

/-! ### References of enum values -/

/-- The references in the decorators of the values of an enumeration. -/
def Declaration.enumValueReferences : Declaration → List Reference
  | concept _ => []
  | enumeration e => e.values.flatMap Header.references

/-- The references in the decorators of the enum values of a model. -/
def Model.enumValueReferences (m : Model) : List Reference :=
  m.declarations.flatMap Declaration.enumValueReferences

/-- These are the ones that a model has if they count, and otherwise has not. -/
lemma Model.mem_references_true {m : Model} {r : Reference} :
    r ∈ m.references true ↔ r ∈ m.references false ∨ r ∈ m.enumValueReferences := by
  have hdeclaration : ∀ d : Declaration,
      r ∈ d.references true ↔ r ∈ d.references false ∨ r ∈ d.enumValueReferences := by
    intro d
    cases d <;>
      simp [Declaration.references, Enumeration.references, Declaration.enumValueReferences]
  simp only [references, enumValueReferences, List.mem_flatMap, hdeclaration, and_or_left,
    exists_or]

end Concerto
