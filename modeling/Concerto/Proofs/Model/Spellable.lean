import Concerto.Proofs.Model.RoundTrip
import Concerto.Schema.Metamodel

/-!
Whether source text can tell a model is decided.

* `Model.IsSpellable` and the same of the nodes of a model are decidable;
* `Metamodel.isSpellable_namePattern`: the long pattern of names can be told, and is decided by name;
* `parse_metamodelSource`: the source text of the metamodel denotes what can be told of the metamodel.
-/

namespace Concerto

instance (uri : String) : Decidable (IsLocation uri) :=
  decidable_of_iff (uri ≠ "" ∧ uri.toList.all (fun c => !Text.isBlank c) = true ∧
      opensGap uri.toList = false)
    (by simp [IsLocation])

instance (i : Import) : Decidable i.IsSpellable := by
  cases i <;> unfold Import.IsSpellable <;> infer_instance

instance (a : DecoratorArgument) : Decidable a.IsSpellable := by
  cases a <;> unfold DecoratorArgument.IsSpellable <;> infer_instance

instance (d : Decorator) : Decidable d.IsSpellable :=
  decidable_of_iff (isIdentifier d.name = true ∧ ∀ a ∈ d.arguments.getD [], a.IsSpellable)
    ⟨fun h => ⟨h.1, h.2⟩, fun h => ⟨h.name, h.arguments⟩⟩

instance (h : Header) : Decidable h.IsSpellable :=
  decidable_of_iff (h.decorators ≠ some [] ∧ ∀ d ∈ h.decorators.getD [], d.IsSpellable)
    ⟨fun h => ⟨h.1, h.2⟩, fun h => ⟨h.nonempty, h.decorators⟩⟩

/-- The characters of the pattern of names. -/
lemma Metamodel.toList_namePattern : namePattern.pattern.toList =
    "^(?!null|true|false)(".toList ++ "|".toList.intercalate (startAlternatives.map String.toList) ++
      ")(?:".toList ++ "|".toList.intercalate (partAlternatives.map String.toList) ++
      ")*$".toList := by
  unfold namePattern
  -- the steps are written out as the simplifier would decode the literals
  rewrite [String.toList_append, String.toList_append, String.toList_append, String.toList_append,
    Text.toList_joined, Text.toList_joined]
  exact rfl

lemma Metamodel.isSpellable_namePattern : namePattern.IsSpellable := by
  have htext : namePattern.pattern.toList ≠ [] ∧ namePattern.pattern.toList.head? ≠ some '*' ∧
      isPatternText false namePattern.pattern.toList = true := by
    rw [toList_namePattern]
    decide +kernel
  have hflags : namePattern.flags.toList.all Text.isLetter = true := by decide +kernel
  exact ⟨fun h => htext.1 (by rw [h]; rfl), htext.2.1, htext.2.2, List.all_eq_true.mp hflags⟩

/-- The long pattern of names is recognized, its characters are not read again. -/
instance (p : StringPattern) : Decidable p.IsSpellable :=
  if h : p = Metamodel.namePattern then .isTrue (h ▸ Metamodel.isSpellable_namePattern)
  else decidable_of_iff (p.pattern ≠ "" ∧ p.pattern.toList.head? ≠ some '*' ∧
      isPatternText false p.pattern.toList = true ∧ p.flags.toList.all Text.isLetter = true)
    ⟨fun h => ⟨h.1, h.2.1, h.2.2.1, List.all_eq_true.mp h.2.2.2⟩,
      fun h => ⟨h.nonempty, h.noStar, h.isText, List.all_eq_true.mpr h.flags⟩⟩

instance (kind : PropertyKind) : Decidable kind.IsSpellable := by
  cases kind <;> unfold PropertyKind.IsSpellable <;> infer_instance

instance (p : Property) : Decidable p.IsSpellable :=
  decidable_of_iff (isIdentifier p.header.name = true ∧ p.header.IsSpellable ∧ p.kind.IsSpellable)
    ⟨fun h => ⟨h.1, h.2.1, h.2.2⟩, fun h => ⟨h.name, h.header, h.kind⟩⟩

instance (i : Identification) : Decidable i.IsSpellable := by
  cases i <;> unfold Identification.IsSpellable <;> infer_instance

instance (c : Concept) : Decidable c.IsSpellable :=
  decidable_of_iff (IsTypeName c.header.name ∧ c.header.IsSpellable ∧
      (∀ r ∈ c.superType, IsTypeName r.name) ∧ (∀ i ∈ c.identified, i.IsSpellable) ∧
      ∀ p ∈ c.properties, p.IsSpellable)
    ⟨fun h => ⟨h.1, h.2.1, h.2.2.1, h.2.2.2.1, h.2.2.2.2⟩,
      fun h => ⟨h.name, h.header, h.superType, h.identified, h.properties⟩⟩

instance (e : Enumeration) : Decidable e.IsSpellable :=
  decidable_of_iff (IsTypeName e.header.name ∧ e.header.IsSpellable ∧
      ∀ v ∈ e.values, isIdentifier v.name = true ∧ v.IsSpellable)
    ⟨fun h => ⟨h.1, h.2.1, h.2.2⟩, fun h => ⟨h.name, h.header, h.values⟩⟩

instance (d : Declaration) : Decidable d.IsSpellable := by
  cases d <;> unfold Declaration.IsSpellable <;> infer_instance

instance (m : Model) : Decidable m.IsSpellable :=
  decidable_of_iff (IsQualifiedName m.ns ∧ m.sourceUri = none ∧ (∀ i ∈ m.imports, i.IsSpellable) ∧
      (∀ d ∈ m.declarations, d.IsSpellable) ∧ (∀ n ∈ m.numerals, n.IsPlain) ∧
      (ImportMode.outside.run (Word.kinds m.words)).isSome)
    ⟨fun h => ⟨h.1, h.2.1, h.2.2.1, h.2.2.2.1, h.2.2.2.2.1, h.2.2.2.2.2⟩,
      fun h => ⟨h.ns, h.sourceUri, h.imports, h.declarations, h.numerals, h.mode⟩⟩

/-- The source text of the metamodel denotes what can be told of the metamodel. -/
lemma parse_metamodelSource : Model.parse metamodelSource = .ok metamodel.sourceForm := by
  have hspellable : metamodel.IsSpellable := by decide +kernel
  exact Model.parse_toSource hspellable

end Concerto
