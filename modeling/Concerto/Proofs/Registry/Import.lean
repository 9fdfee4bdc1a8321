import Concerto.Proofs.Registry.Exchange

/-!
What becomes of models that are imported.

* `Imported`: a registry has been imported from models, as trees or in their JSON form;
* `exists_of_imported`: the registry has one model for each that was imported, in the same order,
  which is what the source text of the latter denotes;
* `Model.SameOutline`, `sameOutline_of_imported`: models that can be told keep their namespaces, their
  imports and the names and classes of their declarations;
* `importAll_smuggling`: other models may not, as a namespace may hold the text of a declaration.
-/

namespace Concerto

/-- The class of a declaration. -/
def Declaration.nodeClass : Declaration → NodeClass
  | concept c => .concept c.kind
  | enumeration _ => .enumDeclaration

/-- A model has the namespace and the imports of another one, and declarations of the same names and
classes. -/
structure Model.SameOutline (m m' : Model) : Prop where
  ns : m.ns = m'.ns
  imports : m.imports = m'.imports
  names : m.declarationNames = m'.declarationNames
  classes : m.declarations.map Declaration.nodeClass = m'.declarations.map Declaration.nodeClass

/-- Source text tells the outline of a model, and nothing but the outline matters here. -/
lemma Model.sameOutline_sourceForm (m : Model) (uri : Option String) :
    (sourceForm { m with sourceUri := uri }).SameOutline m where
  ns := rfl
  imports := rfl
  names := by
    rw [declarationNames, sourceForm, List.map_map]
    refine List.map_congr_left fun d _ => ?_
    cases d <;> rfl
  classes := by
    rw [sourceForm, List.map_map]
    refine List.map_congr_left fun d _ => ?_
    cases d <;> rfl

/-- A registry has been imported from models, as trees or in their JSON form. -/
inductive Imported (s : Settings) (models : List Model) (r : Registry) : Prop where
  | trees (validate : Bool) (h : importAll s validate models = .ok r)
  | json (value : Json) (hmodels : modelsOfJson value = .ok models) (h : importJson s value = .ok r)

variable {s : Settings} {models : List Model} {r r' : Registry}

/-- In both forms the models go by their source texts, and are valid together. -/
lemma Imported.importsModels (h : Imported s models r) : importModels s models = .ok r := by
  cases h with
  | trees validate h => exact importModels_eq_ok.mpr (importAll_eq_ok.mp h).2
  | json value hmodels h =>
      rw [importJson, hmodels] at h
      exact h

/-- Every model that is added by its source text is kept as what the text denotes. -/
lemma exists_of_addPrinted (h : addPrinted r models = .ok r') :
    ∃ read, List.Forall₂ (fun m m' => Model.parse m.toSource = .ok m') models read ∧
      r'.content = r.content ++ read.map fun m => (m.ns, m) := by
  induction models generalizing r with
  | nil =>
      cases h
      exact ⟨[], .nil, (List.append_nil _).symm⟩
  | cons m models ih =>
      rw [addPrinted, List.foldlM_cons, bind_eq_ok] at h
      obtain ⟨r₁, hadd, hothers⟩ := h
      obtain ⟨m', hparse, hmodel⟩ := Registry.addSource_eq_ok.mp hadd
      obtain ⟨-, -, rfl⟩ := Registry.addModel_eq_ok.mp hmodel
      obtain ⟨read, hread, hcontent⟩ := ih hothers
      refine ⟨m' :: read, .cons hparse hread, ?_⟩
      rw [hcontent]
      simp [Registry.content, Registry.append]

/-- An imported registry has one model for each, in the same order, which the source text of the
latter denotes. -/
lemma exists_of_imported (h : Imported s models r) :
    ∃ read, List.Forall₂ (fun m m' => Model.parse m.toSource = .ok m') models read ∧
      r.content = read.map fun m => (m.ns, m) :=
  exists_of_addPrinted (importModels_eq_ok.mp h.importsModels).1

/-- Whoever imports models that can be told, the place of whose text does not matter, gets a registry
of their namespaces in their order, each with the imports of its model and with declarations of the
same names and classes: no text in such a model is taken for anything else. -/
theorem sameOutline_of_imported (h : Imported s models r)
    (hspellable : ∀ m ∈ models, Model.IsSpellable { m with sourceUri := none }) :
    r.namespaces = models.map Model.ns ∧
      List.Forall₂ (fun file m => file.model.SameOutline m) r.modelFiles models := by
  obtain ⟨read, hread, hcontent⟩ := exists_of_imported h
  have houtlines : List.Forall₂ Model.SameOutline read models := by
    -- the text of each model is read as its source form, which has the same outline
    refine List.Forall₂.flip ?_
    clear hcontent h
    induction hread with
    | nil => exact .nil
    | @cons m m' models read hm _ ih =>
        rw [List.forall_mem_cons] at hspellable
        have hparse : Model.parse m.toSource = .ok (Model.sourceForm { m with sourceUri := none }) :=
          Model.parse_toSource hspellable.1
        rw [hm] at hparse
        cases hparse
        exact .cons (m.sameOutline_sourceForm none) (ih hspellable.2)
  have hmodels : r.modelFiles.map ModelFile.model = read := by
    rw [Registry.models_eq_content, hcontent, List.map_map]
    exact List.map_id' read
  constructor
  · rw [Registry.namespaces_eq_content, hcontent, List.map_map]
    exact map_eq_map_of_forall₂ (houtlines.imp fun _ _ hm => hm.ns)
  · rw [← hmodels] at houtlines
    exact List.forall₂_map_left_iff.mp houtlines

/-- The model that the sample model imports a declaration of. -/
def imported : Model where
  ns := "b"
  sourceUri := none
  concertoVersion := none
  imports := []
  declarations := [.concept ⟨.asset, ⟨"C", none, none⟩, false, some .system, none, []⟩]

theorem sameOutline_of_imported_sample :
    (∀ m ∈ [.sample, imported], Model.IsSpellable { m with sourceUri := none }) ∧
      ∃ r, Imported .standard [.sample, imported] r ∧ r.namespaces = ["a", "b"] ∧
        List.Forall₂ (fun file m => file.model.SameOutline m) r.modelFiles [.sample, imported] := by
  have hparse' : Model.parse "namespace b asset C identified \x7b\x7d" = .ok imported := by
    decide +kernel
  have hsample : Model.sample.IsSpellable :=
    (Model.isSpellable_of_parse Model.parse_sampleText (by decide +kernel)).1
  have himported : imported.IsSpellable :=
    (Model.isSpellable_of_parse hparse' (by decide +kernel)).1
  have hspellable : ∀ m ∈ [.sample, imported], Model.IsSpellable { m with sourceUri := none } := by
    rw [List.forall_mem_cons, List.forall_mem_singleton]
    exact ⟨hsample, himported⟩
  have hnamespaces : (importAll .standard true [.sample, imported]).map Registry.namespaces =
      .ok ["a", "b"] := by decide +kernel
  obtain ⟨r, himport, -⟩ := map_eq_ok.mp hnamespaces
  exact ⟨hspellable, r, .trees true himport,
    sameOutline_of_imported (.trees true himport) hspellable⟩

/-- A model without declarations, the namespace of which holds the text of one. -/
def smuggling : Model where
  ns := "a\nconcept X \x7b\x7d"
  sourceUri := none
  concertoVersion := none
  imports := []
  declarations := []

/-- A model that is well formed may be kept under another namespace, with a declaration that was in
its namespace. -/
theorem importAll_smuggling :
    smuggling.validated = .ok smuggling ∧ ∃ r, importAll .standard true [smuggling] = .ok r ∧
      r.namespaces = ["a"] ∧ r.modelFiles.map (fun file => file.model.declarationNames) = [["X"]] ∧
      ¬ List.Forall₂ (fun file m => file.model.SameOutline m) r.modelFiles [smuggling] := by
  have hvalid : smuggling.validated = .ok smuggling := by decide +kernel
  have himport : (importAll .standard true [smuggling]).map (fun r => (r.namespaces,
      r.modelFiles.map fun file => file.model.declarationNames)) = .ok (["a"], [["X"]]) := by
    decide +kernel
  obtain ⟨r, himport, hkept⟩ := map_eq_ok.mp himport
  obtain ⟨hnamespaces, hnames⟩ := Prod.mk.inj hkept
  refine ⟨hvalid, r, himport, hnamespaces, hnames, fun hsame => ?_⟩
  have hsmuggled : r.modelFiles.map (fun file => file.model.declarationNames) =
      [smuggling].map Model.declarationNames :=
    map_eq_map_of_forall₂ (hsame.imp fun _ _ h => h.names)
  rw [hnames] at hsmuggled
  exact absurd hsmuggled (by decide)

end Concerto
