import Concerto.Proofs.Resolve.Resolution
import Concerto.Resolve.Node

/-!
What resolution does to a node of any class.

* `Node.references`, `Node.mapReferences`: the references below a node in the order in which they are
  visited, and the node with all of them changed;
* `Node.resolveNames_specification`: a node whose references all have declarations is left with all of
  them resolved; any other is left with those resolved that come before the first one without a
  declaration, whose name is reported.
-/

namespace Concerto

/-- The table has a namespace for the name, and not the empty one. -/
def NameTable.Knows (t : NameTable) (name : String) : Prop :=
  ∃ ns, t.lookup? name = some ns ∧ ns ≠ ""

namespace NameTable

variable {t : NameTable} {name : String}

lemma namespaceOf?_eq_some {ns : String} :
    t.namespaceOf? name = some ns ↔ t.lookup? name = some ns ∧ ns ≠ "" := by
  simp [namespaceOf?, Option.filter_eq_some_iff]

lemma knows_iff : t.Knows name ↔ ∃ ns, t.namespaceOf? name = some ns := by
  simp only [Knows, namespaceOf?_eq_some]

lemma namespaceOf?_eq_none (h : ¬ t.Knows name) : t.namespaceOf? name = none := by
  rw [knows_iff] at h
  exact Option.eq_none_iff_forall_ne_some.mpr fun ns hns => h ⟨ns, hns⟩

end NameTable

namespace Node

/-- A node of a class that references may be resolved in. -/
def IsResolvable : Node → Prop
  | other _ _ | value _ => False
  | _ => True

/-- The references below a node, with those of enum values if they count. -/
def references (enumValues : Bool) : Node → List Reference
  | model m => m.references enumValues
  | declaration d => d.references enumValues
  | property p => p.references
  | enumValue h => h.references
  | decorator d => d.references
  | argument a => a.references
  | other _ _ | value _ => []

/-- The node with the references below it changed, those of enum values if they count. -/
def mapReferences (enumValues : Bool) (f : Reference → Reference) : Node → Node
  | model m => model (m.mapReferences enumValues f)
  | declaration d => declaration (d.mapReferences enumValues f)
  | property p => property (p.mapReferences f)
  | enumValue h => enumValue (h.mapReferences f)
  | decorator d => decorator (d.mapReferences f)
  | argument a => argument (a.mapReferences f)
  | other c form => other c form
  | value v => value v

variable {s : Settings} {t : NameTable} {n : Node}

/-- What resolution leaves of a node is what a visit leaves of it. -/
lemma visits (t : NameTable) (s : Settings) (hn : n.IsResolvable) :
    ∃ visit : StateM Unresolved Node,
      Visits t (references s.resolveEnumValueDecorators)
        (mapReferences s.resolveEnumValueDecorators) n visit ∧
      n.resolveNames s t = ((visit.run none).1, .ofUnresolved (visit.run none).2) := by
  cases n with
  | model m => exact ⟨_, .map model (fun _ => rfl) (fun _ _ => rfl) (m.visits t _), rfl⟩
  | declaration d => exact ⟨_, .map declaration (fun _ => rfl) (fun _ _ => rfl) (d.visits t _), rfl⟩
  | property p => exact ⟨_, .map property (fun _ => rfl) (fun _ _ => rfl) (p.visits t), rfl⟩
  | enumValue h => exact ⟨_, .map enumValue (fun _ => rfl) (fun _ _ => rfl) (h.visits t), rfl⟩
  | decorator d => exact ⟨_, .map decorator (fun _ => rfl) (fun _ _ => rfl) (d.visits t), rfl⟩
  | argument a => exact ⟨_, .map argument (fun _ => rfl) (fun _ _ => rfl) (a.visits t), rfl⟩
  | other _ _ => exact hn.elim
  | value _ => exact hn.elim

/-- If all references below a node have declarations, they are resolved, and nothing else in the node
changes. Otherwise the first one without a declaration is reported, those before it are resolved, and
nothing else changes. -/
theorem resolveNames_specification (s : Settings) (t : NameTable) (hn : n.IsResolvable) :
    ((∀ r ∈ n.references s.resolveEnumValueDecorators, t.Knows r.name) →
      n.resolveNames s t = (n.mapReferences s.resolveEnumValueDecorators t.assign, .complete)) ∧
    ∀ before r after, n.references s.resolveEnumValueDecorators = before ++ r :: after →
      (∀ r' ∈ before, t.Knows r'.name) → ¬ t.Knows r.name →
      ∃ n', n.resolveNames s t = (n', .unresolved (.unknownName r.name)) ∧
        n'.references s.resolveEnumValueDecorators = before.map t.assign ++ r :: after ∧
        n'.mapReferences s.resolveEnumValueDecorators Reference.unresolved =
          n.mapReferences s.resolveEnumValueDecorators Reference.unresolved := by
  obtain ⟨visit, hvisit, hresolve⟩ := visits t s hn
  constructor
  · intro hknown
    have hnone : t.unknown? (n.references s.resolveEnumValueDecorators) = none :=
      NameTable.unknown?_eq_none.mpr fun r hr => NameTable.knows_iff.mp (hknown r hr)
    rw [hresolve, hvisit.done hnone, hvisit.unknown, hnone, Resolution.ofUnresolved]
  · intro before r after hrefs hbefore hr
    have hnone : t.unknown? before = none :=
      NameTable.unknown?_eq_none.mpr fun r hr => NameTable.knows_iff.mp (hbefore r hr)
    have hns : t.namespaceOf? r.name = none := NameTable.namespaceOf?_eq_none hr
    have hunknown : t.unknown? (n.references s.resolveEnumValueDecorators) = some r.name := by
      rw [hrefs, NameTable.unknown?_append, hnone, Option.none_or,
        NameTable.unknown?_cons_of_unknown hns]
    refine ⟨(visit.run none).1, ?_, ?_, hvisit.others⟩
    · rw [hresolve, hvisit.unknown, hunknown, Resolution.ofUnresolved]
    · rw [hvisit.references, hrefs, NameTable.assignKnown_append_of_known hnone,
        NameTable.assignKnown, hns]

/-- A table in which `E` has the empty namespace. -/
def partialTable : NameTable := ⟨[("A", "a"), ("B", "b"), ("E", "")]⟩

/-- A node that refers to `A` twice, and to `E` in between. -/
def partialNode : Node :=
  declaration <| .concept
    { kind := .asset
      header := ⟨"G", some [⟨"d", some [.type ⟨"A", some "x"⟩ false none], none⟩], none⟩
      isAbstract := false
      identified := none
      superType := some ⟨"A", some "x"⟩
      properties := [⟨⟨"p", some [⟨"d", some [.type ⟨"E", some "x"⟩ false none], none⟩], none⟩,
        false, false, .object ⟨"B", none⟩ none⟩] }

/-- An enumeration with a value whose decorator refers to `E`. -/
def decoratedValue : Node :=
  declaration <| .enumeration ⟨⟨"G", some [⟨"d", some [.type ⟨"B", none⟩ true none], none⟩], none⟩,
    [⟨"v", some [⟨"d", some [.type ⟨"E", none⟩ false none], none⟩], none⟩]⟩

theorem resolveNames_specification_partial :
    (∃ n', partialNode.resolveNames .standard partialTable =
        (n', .unresolved (.unknownName "E")) ∧
      n'.references true = [⟨"A", some "a"⟩, ⟨"B", some "b"⟩, ⟨"E", some "x"⟩, ⟨"A", some "x"⟩]) ∧
    ∃ n', decoratedValue.resolveNames { resolveEnumValueDecorators := false } partialTable =
        (n', .complete) ∧
      n'.references true = [⟨"B", some "b"⟩, ⟨"E", none⟩] := by
  have hA : partialTable.Knows "A" := ⟨"a", by decide, by decide⟩
  have hB : partialTable.Knows "B" := ⟨"b", by decide, by decide⟩
  have hE : ¬ partialTable.Knows "E" := by
    rintro ⟨ns, hns, hne⟩
    have hempty : partialTable.lookup? "E" = some "" := by decide
    exact hne (Option.some.inj (hns.symm.trans hempty))
  constructor
  · obtain ⟨-, hpartial⟩ :=
      resolveNames_specification (n := partialNode) .standard partialTable trivial
    obtain ⟨n', hn', hrefs, -⟩ := hpartial [⟨"A", some "x"⟩, ⟨"B", none⟩] ⟨"E", some "x"⟩
      [⟨"A", some "x"⟩] (by decide) (by simp [hA, hB]) hE
    exact ⟨n', hn', hrefs.trans (by decide)⟩
  · obtain ⟨hcomplete, -⟩ := resolveNames_specification (n := decoratedValue)
      { resolveEnumValueDecorators := false } partialTable trivial
    have hrefs : decoratedValue.references false = [⟨"B", none⟩] := by decide
    refine ⟨_, hcomplete ?_, by decide⟩
    rw [hrefs]
    simp [hB]

end Node

end Concerto
