import Concerto.Proofs.Registry.Exchange

/-!
Models that are resolved again.

* `Model.unresolved`: a model without the namespaces of its references;
* `Registry.resolveModel_mapReferences`: how a model is resolved does not depend on them;
* `Registry.resolveModel_again`: so a model that has been resolved stays as it is when it is resolved
  once more, and models that differ in them only are resolved to the same, or fail in the same way.
-/

namespace Concerto

/-- The model with no reference resolved. -/
def Model.unresolved (m : Model) : Model := m.mapReferences true Reference.unresolved

lemma Model.wellNamed_unresolved (m : Model) : m.unresolved.WellNamed ↔ m.WellNamed :=
  wellNamed_mapReferences (f := Reference.unresolved) (fun _ => rfl) true m

namespace Registry

variable {r : Registry} {s : Settings} {m : Model}

/-- A well named model is resolved by the names of its references, whatever namespaces they have. -/
lemma resolveModel_mapReferences {f : Reference → Reference} (hf : ∀ ref, (f ref).name = ref.name)
    (hnamed : m.WellNamed) (validate validate' : Bool) :
    r.resolveModel s validate (m.mapReferences s.resolveEnumValueDecorators f) =
      r.resolveModel s validate' m := by
  have hnamed' := (Model.wellNamed_mapReferences hf s.resolveEnumValueDecorators m).mpr hnamed
  rw [resolveModel_eq_of_wellNamed hnamed', resolveModel_eq_of_wellNamed hnamed,
    resolve_mapReferences hf]

/-- If all references of a well named model are resolved, none of them needs to have been before. -/
lemma resolveModel_unresolved (hvalues : s.resolveEnumValueDecorators = true)
    (hnamed : m.WellNamed) (validate : Bool) :
    r.resolveModel s validate m.unresolved = r.resolveModel s validate m := by
  rw [Model.unresolved, ← hvalues]
  exact resolveModel_mapReferences (f := Reference.unresolved) (fun _ => rfl) hnamed _ _

/-- A well formed model that has been resolved is not changed when it is resolved again. If the
decorators of enum values are resolved too, models that differ in the namespaces of references only,
whether these are there or not, right or wrong, are resolved to the same or fail in the same way. -/
theorem resolveModel_again (r : Registry) (s : Settings) (hvalid : m.validated = .ok m) :
    (∀ validate m', r.resolveModel s validate m = .ok m' →
      ∀ validate', r.resolveModel s validate' m' = .ok m') ∧
    (s.resolveEnumValueDecorators = true → ∀ m', m'.unresolved = m.unresolved →
      ∀ validate, r.resolveModel s validate m' = r.resolveModel s validate m) := by
  have hnamed : m.WellNamed := (Model.validated_eq_ok.mp hvalid).2
  constructor
  · intro validate m' hresolve validate'
    -- the resolved model differs from the model in the namespaces of its references only
    obtain ⟨t, -, -, hm'⟩ := resolve_eq_ok.mp (resolveModel_eq_ok.mp hresolve).2
    calc r.resolveModel s validate' m'
        = r.resolveModel s validate m := by
          rw [hm']
          exact resolveModel_mapReferences (f := t.assign) (fun _ => rfl) hnamed _ _
      _ = .ok m' := hresolve
  · intro hvalues m' hsame validate
    have hnamed' : m'.WellNamed := by
      rw [← m'.wellNamed_unresolved, hsame]
      exact m.wellNamed_unresolved.mpr hnamed
    calc r.resolveModel s validate m'
        = r.resolveModel s validate m'.unresolved := (resolveModel_unresolved hvalues hnamed' _).symm
      _ = r.resolveModel s validate m.unresolved := by rw [hsame]
      _ = r.resolveModel s validate m := resolveModel_unresolved hvalues hnamed _

/-- A model with references that have no namespace, the right one and wrong ones. -/
def staleModel : Model where
  ns := "c"
  sourceUri := none
  concertoVersion := none
  imports := [.type "a" "C" none, .all "b" none]
  declarations :=
    [.concept
      { kind := .asset
        header := ⟨"G", some [⟨"d", some [.type ⟨"H", some "b"⟩ true none], none⟩], none⟩
        isAbstract := false
        identified := none
        superType := some ⟨"C", some "b"⟩
        properties := [⟨⟨"x", none, none⟩, false, false, .object ⟨"D", none⟩ none⟩,
          ⟨⟨"y", none, none⟩, false, false, .relationship ⟨"Event", some ""⟩⟩] },
      .enumeration ⟨⟨"H", none, none⟩,
        [⟨"Z", some [⟨"d", some [.type ⟨"C", some "a"⟩ false none], none⟩], none⟩]⟩]

theorem resolveModel_again_stale :
    staleModel.validated = .ok staleModel ∧
      ∃ m', ((empty .standard).addEach importingCalls).resolveModel .standard true staleModel =
          .ok m' ∧
        m'.references true = [⟨"C", some "a"⟩, ⟨"D", some "b"⟩, ⟨"Event", some "concerto"⟩,
          ⟨"H", some "c"⟩, ⟨"C", some "a"⟩] ∧
        ((empty .standard).addEach importingCalls).resolveModel .standard true m' = .ok m' ∧
        ((empty .standard).addEach importingCalls).resolveModel .standard true
          staleModel.unresolved = .ok m' := by
  have hvalid : staleModel.validated = .ok staleModel := by decide +kernel
  have hrefs : (((empty .standard).addEach importingCalls).resolveModel .standard true
      staleModel).map (Model.references true) = .ok [⟨"C", some "a"⟩, ⟨"D", some "b"⟩,
        ⟨"Event", some "concerto"⟩, ⟨"H", some "c"⟩, ⟨"C", some "a"⟩] := by decide +kernel
  have hsame : staleModel.unresolved.unresolved = staleModel.unresolved := by decide +kernel
  obtain ⟨m', hresolve, hrefs⟩ := map_eq_ok.mp hrefs
  obtain ⟨hagain, hnames⟩ :=
    resolveModel_again ((empty .standard).addEach importingCalls) .standard hvalid
  exact ⟨hvalid, m', hresolve, hrefs, hagain true m' hresolve true,
    (hnames rfl staleModel.unresolved hsame true).trans hresolve⟩

end Registry

end Concerto
