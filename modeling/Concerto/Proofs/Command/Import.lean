import Concerto.Proofs.Command.Exchange
import Concerto.Proofs.Files.Filled
import Concerto.Proofs.Model.ImportForms
import Concerto.Proofs.Registry.Import

/-!
What an import leaves on disk.

* `not_mem_of_isQualifiedName`, `PathName.join_ofString`: no namespace leads out of the directory that
  its model is written into;
* `Registry.IsSourced`, `isSourced_of_importAll`: an imported registry has one model for each of the
  document, all of different namespaces, and each with the source text that it was read from;
* `isFilled_of_writeFiles`: these texts are written as files of different names;
* `import_all_or_nothing`: so an import leaves a file for each model, or nothing.
-/

namespace Concerto

/-! ### Names of files -/

/-- In a name with dots there are dots, and what is in its parts. -/
lemma mem_joinName {parts : List String} {c : Char} (h : c ∈ (Parser.joinName parts).toList) :
    c = '.' ∨ ∃ part ∈ parts, c ∈ part.toList := by
  rw [toList_joinName] at h
  induction parts with
  | nil => simp at h
  | cons part parts ih =>
      cases parts with
      | nil => exact .inr ⟨part, List.mem_singleton_self part, by simpa using h⟩
      | cons next parts =>
          rw [List.map_cons, List.map_cons, List.intercalate_cons_cons, List.mem_append,
            List.mem_append, List.mem_singleton] at h
          obtain (h | h) | h := h
          · exact .inr ⟨part, List.mem_cons_self, h⟩
          · exact .inl h
          · exact (ih h).imp_right fun ⟨part', hpart, hc⟩ => ⟨part', List.mem_cons_of_mem _ hpart, hc⟩

/-- No delimiter but the dot is in a name with dots. -/
lemma not_mem_of_isQualifiedName {name : String} (h : IsQualifiedName name) {c : Char}
    (hc : c ∈ delimiters) (hdot : c ≠ '.') : c ∉ name.toList := by
  intro hmem
  rw [← joinName_nameParts name] at hmem
  obtain hc' | ⟨part, hpart, hc'⟩ := mem_joinName hmem
  · exact hdot hc'
  · have hname := h part hpart
    simp only [isIdentifier, Bool.and_eq_true] at hname
    exact not_mem_of_unitsFormName hname.2 hc hc'

lemma splitAt_of_not_mem {separator : Char} {cs : List Char} (h : separator ∉ cs) :
    splitAt separator cs = [cs] := by
  induction cs with
  | nil => rfl
  | cons c cs ih =>
      obtain ⟨hne, hcs⟩ := List.ne_and_not_mem_of_not_mem_cons h
      rw [splitAt, if_neg hne.symm, ih hcs]

/-- A name without slashes, which is not a dot, names something in a directory. -/
lemma PathName.join_ofString (p : PathName) {name : String} (h : '/' ∉ name.toList) (hne : name ≠ "")
    (hdot : name ≠ ".") : p.join (.ofString name) = p.below [name] := by
  have hslashes : name.toList.takeWhile (· = '/') = [] := by
    cases hcs : name.toList with
    | nil => rfl
    | cons c cs =>
        have hc : c ≠ '/' := by
          rintro rfl
          exact h (hcs ▸ List.mem_cons_self)
        simp [hc]
  have hparts : components name.toList = [name] := by
    have hne' : name.toList ≠ [] := by simpa using hne
    have hdot' : name.toList ≠ ['.'] := fun heq => hdot (String.ext heq)
    rw [components, splitAt_of_not_mem h, List.filter_singleton]
    simp [hne, hdot']
  simp [join, ofString, hslashes, hparts, isAbsolute]

/-! ### Registries with their source texts -/

variable {r r' : Registry} {models : List Model}

/-- The namespaces of a well kept registry are those of its models. -/
lemma Registry.WellKept.namespaces_eq (h : r.WellKept) :
    r.namespaces = r.modelFiles.map (·.model.ns) := by
  rw [namespaces, modelFiles, List.map_map]
  exact List.map_congr_left h.keys

/-- Models of different namespaces, under the standard settings, and each with the source text that it
has been read from. -/
structure Registry.IsSourced (r : Registry) : Prop where
  settings : r.settings = .standard
  kept : r.WellKept
  sources : ∀ file ∈ r.modelFiles, ∃ source, file.source = some source ∧
    Model.parse source = .ok file.model

/-- A namespace is that of a model, and has no slash. -/
lemma Registry.IsSourced.exists_file (h : r.IsSourced) {ns : String} (hns : ns ∈ r.namespaces) :
    ∃ file source, file ∈ r.modelFiles ∧ file.model.ns = ns ∧ file.source = some source ∧
      Model.parse source = .ok file.model ∧ '/' ∉ ns.toList := by
  rw [h.kept.namespaces_eq] at hns
  obtain ⟨file, hfile, rfl⟩ := List.mem_map.mp hns
  obtain ⟨source, hsource, hparse⟩ := h.sources file hfile
  have hname := Model.isQualifiedName_of_parse hparse
  exact ⟨file, source, hfile, rfl, hsource, hparse,
    not_mem_of_isQualifiedName hname (by simp [delimiters]) (by decide)⟩

/-- A model that is added by its source text is one more of this kind. -/
lemma Registry.IsSourced.addSource (h : r.IsSourced) {source : String} {fileName : Option String}
    (hadd : r.addSource source fileName false = .ok r') :
    r'.IsSourced ∧ r'.modelFiles.length = r.modelFiles.length + 1 := by
  obtain ⟨m, hparse, hmodel⟩ := addSource_eq_ok.mp hadd
  obtain ⟨hns, -, rfl⟩ := addModel_eq_ok.mp hmodel
  refine ⟨⟨h.settings, h.kept.append hns, ?_⟩, by simp⟩
  rw [modelFiles_append]
  exact List.forall_mem_append.mpr
    ⟨h.sources, List.forall_mem_singleton.mpr ⟨source, rfl, hparse⟩⟩

/-- So are all models that are added in this way. -/
lemma Registry.IsSourced.addPrinted (h : r.IsSourced) (hadd : addPrinted r models = .ok r') :
    r'.IsSourced ∧ r'.modelFiles.length = r.modelFiles.length + models.length := by
  induction models generalizing r with
  | nil =>
      cases hadd
      exact ⟨h, rfl⟩
  | cons m models ih =>
      rw [Concerto.addPrinted, List.foldlM_cons, bind_eq_ok] at hadd
      obtain ⟨r₁, hfirst, hothers⟩ := hadd
      obtain ⟨h₁, hlength₁⟩ := h.addSource hfirst
      obtain ⟨h', hlength⟩ := ih h₁ hothers
      refine ⟨h', ?_⟩
      rw [hlength, hlength₁, List.length_cons]
      omega

/-- Its models have files of different names. -/
lemma Registry.IsSourced.nodup_sourceName (h : r.IsSourced) :
    (r.modelFiles.map (·.model.sourceName)).Nodup := by
  have hnodup := h.kept.nodup
  rw [h.kept.namespaces_eq] at hnodup
  have hmodels : ((r.modelFiles.map (·.model)).map Model.ns).Nodup := by rwa [List.map_map]
  have hnames := Concerto.nodup_sourceName hmodels
  rwa [List.map_map] at hnames

lemma isSourced_of_importAll {validate : Bool} (h : importAll .standard validate models = .ok r) :
    r.IsSourced ∧ r.modelFiles.length = models.length := by
  have hempty : (Registry.empty .standard).IsSourced :=
    ⟨rfl, ⟨List.nodup_nil, List.forall_mem_nil _⟩, List.forall_mem_nil _⟩
  obtain ⟨hsourced, hlength⟩ := hempty.addPrinted (importAll_eq_ok.mp h).2.1
  exact ⟨hsourced, hlength.trans (Nat.zero_add _)⟩

namespace Command

/-! ### Files that are written -/

variable {t t' : FileTree} {p : PathName} {place : List String} {lines : String}

/-- The file that a model file is written to. -/
def writtenEntry (file : ModelFile) : String × ByteArray :=
  (file.model.sourceName, (sourceOf file).toByteArray)

/-- Model files are written one after the other. -/
lemma exists_of_writeFiles_cons {file : ModelFile} {files : List ModelFile}
    (h : writeFiles r p t (file :: files) = (t', lines, none)) :
    ∃ t₁ lines', t.writeText (modelPath r p file) (sourceOf file) = .ok t₁ ∧
      writeFiles r p t₁ files = (t', lines', none) := by
  rw [writeFiles] at h
  cases hfirst : t.writeText (modelPath r p file) (sourceOf file) with
  | error e => simp [hfirst] at h
  | ok t₁ =>
      simp only [hfirst, Prod.mk.injEq] at h
      obtain ⟨htree, -, hfault⟩ := h
      exact ⟨t₁, _, rfl, Prod.ext htree (Prod.ext rfl hfault)⟩

/-- Nothing but a file can be the fault. -/
lemma exists_of_writeFiles_fault {files : List ModelFile} {fault : Fault}
    (h : writeFiles r p t files = (t', lines, some fault)) : ∃ e, fault = .file e := by
  induction files generalizing t lines with
  | nil => cases h
  | cons file files ih =>
      rw [writeFiles] at h
      cases hfirst : t.writeText (modelPath r p file) (sourceOf file) with
      | error e =>
          simp only [hfirst, Prod.mk.injEq, Option.some.injEq] at h
          exact ⟨e, h.2.2.symm⟩
      | ok t₁ =>
          simp only [hfirst, Prod.mk.injEq] at h
          exact ih (Prod.ext h.1 (Prod.ext rfl h.2.2))

/-- Where model files of different namespaces have been written, they are found. -/
lemma isFilled_of_writeFiles (hsettings : r.settings = .standard) (before files : List ModelFile)
    (h : t.IsFilled p place (before.map writtenEntry))
    (hnodup : ((before ++ files).map (·.model.sourceName)).Nodup)
    (hwrite : writeFiles r p t files = (t', lines, none)) :
    t'.IsFilled p place ((before ++ files).map writtenEntry) := by
  -- the directory is known after each file, so that the induction adds to the files before
  induction files generalizing t lines before with
  | nil =>
      cases hwrite
      simpa using h
  | cons file files ih =>
      rw [← List.singleton_append, ← List.append_assoc] at hnodup ⊢
      have hpath : modelPath r p file = p.below [file.model.sourceName] := by
        rw [modelPath, hsettings]
        rfl
      -- the file is new, as its namespace is
      have hnew : file.model.sourceName ∉ (before.map writtenEntry).map Prod.fst := by
        rw [List.map_append, List.map_append] at hnodup
        intro hmem
        rw [List.map_map] at hmem
        exact (List.nodup_append.mp (List.nodup_append.mp hnodup).1).2.2 _ hmem _
          (List.mem_singleton_self _) rfl
      obtain ⟨t₁, lines', hfirst, hothers⟩ := exists_of_writeFiles_cons hwrite
      rw [hpath] at hfirst
      have hfilled := h.writeBytes (file.model.sourceName_ne (by decide)) hnew hfirst
      refine ih (before ++ [file]) ?_ hnodup hothers
      rwa [List.map_append]

/-! ### Imports -/

/-- A file holds a document that is imported as a registry. -/
def IsImported (t : FileTree) (artifact : PathName) (validate : Bool) (models : List Model)
    (r : Registry) : Prop :=
  ∃ bytes document, t.readBytes artifact = .ok bytes ∧ Artifact.ofBytes bytes = .ok document ∧
    document.toModels = models ∧ importAll .standard validate models = .ok r

lemma ofDocument_ne_file (e : DocumentError) :
    Ending.ofDocument e ≠ .success ∧ ∀ e', Ending.ofDocument e ≠ .fault (.file e') := by
  cases e <;> simp [Ending.ofDocument]

lemma ofRegistry_ne_file (e : RegistryError) (e' : FileError) :
    Ending.ofRegistry e ≠ .fault (.file e') := by
  unfold Ending.ofRegistry
  split <;> simp

/-- The directory for the models of a registry cannot be made, or one of their files not be written. -/
def CannotWrite (t : FileTree) (output : PathName) (r : Registry) (e : FileError) : Prop :=
  t.makeDirectories output = .error e ∨ ∃ t₁ t' lines, t.makeDirectories output = .ok t₁ ∧
    writeFiles r output t₁ r.modelFiles = (t', lines, some (.file e))

/-- What an import can come to: its document is not imported, and then nothing has changed; or its
models cannot be written; or all of them are. -/
lemma importDocument_cases {artifact output : PathName} {validate : Bool} {outcome : Outcome}
    (h : importDocument t artifact output validate = outcome) :
    (outcome.tree = t ∧ outcome.ending ≠ .success ∧ ∀ e, outcome.ending ≠ .fault (.file e)) ∨
    ∃ models r, IsImported t artifact validate models r ∧
      ((∃ e, CannotWrite t output r e ∧ outcome.ending = .fault (.file e)) ∨
        ∃ t₁ lines, t.makeDirectories output = .ok t₁ ∧
          writeFiles r output t₁ r.modelFiles = (outcome.tree, lines, none) ∧
          outcome.ending = .success) := by
  rw [importDocument] at h
  -- the cases follow the steps of the import; nothing is written before the models are imported
  cases hread : t.readBytes artifact with
  | error e =>
      simp only [hread] at h
      subst h
      exact .inl ⟨rfl, by simp [unchanged], by simp [unchanged]⟩
  | ok bytes =>
      simp only [hread] at h
      cases hdocument : Artifact.ofBytes bytes with
      | error e =>
          simp only [hdocument] at h
          subst h
          exact .inl ⟨rfl, ofDocument_ne_file e⟩
      | ok document =>
          simp only [hdocument] at h
          cases himport : importAll .standard validate document.toModels with
          | error e =>
              simp only [himport] at h
              subst h
              exact .inl ⟨rfl, ofRegistry_ne_success e, ofRegistry_ne_file e⟩
          | ok r =>
              simp only [himport] at h
              refine .inr ⟨_, r, ⟨bytes, document, hread, hdocument, rfl, himport⟩, ?_⟩
              cases hmake : t.makeDirectories output with
              | error e =>
                  simp only [hmake] at h
                  subst h
                  exact .inl ⟨e, .inl hmake, rfl⟩
              | ok t₁ =>
                  simp only [hmake] at h
                  obtain ⟨t', lines, fault, hwrite⟩ : ∃ t' lines fault,
                      writeFiles r output t₁ r.modelFiles = (t', lines, fault) := ⟨_, _, _, rfl⟩
                  simp only [hwrite] at h
                  subst h
                  cases fault with
                  | none => exact .inr ⟨t₁, lines, rfl, hwrite, rfl⟩
                  | some fault =>
                      obtain ⟨e, rfl⟩ := exists_of_writeFiles_fault hwrite
                      exact .inl ⟨e, .inr ⟨t₁, t', lines, hmake, hwrite⟩, rfl⟩

/-- A path leads to a directory in which there is a file for each model of a registry and no other one,
nor any below it. Its name is made from the namespace, and its text denotes the model. -/
structure HoldsModels (t : FileTree) (p : PathName) (r : Registry) : Prop where
  filesBelow : ∃ place, t.HasDirectory p place ∧
    t.filesBelow place = r.namespaces.map fun ns => [ns ++ ".cto"]
  texts : ∀ ns ∈ r.namespaces, ∃ file text, r.file? ns = some file ∧ Model.parse text = .ok file.model ∧
    t.readBytes (p.join (.ofString (ns ++ ".cto"))) = .ok text.toByteArray

lemma not_mem_sourceName {ns : String} (h : '/' ∉ ns.toList) : '/' ∉ (ns ++ ".cto").toList := by
  rw [String.toList_append, List.mem_append, not_or]
  exact ⟨h, by decide⟩

/-- So it is where the model files of an import have been written. -/
lemma HoldsModels.of_isFilled (h : t.IsFilled p place (r.modelFiles.map writtenEntry))
    (hsourced : r.IsSourced) : HoldsModels t p r where
  filesBelow := by
    refine ⟨place, h.toHasDirectory, ?_⟩
    rw [h.filesBelow, hsourced.kept.namespaces_eq, List.map_map, List.map_map]
    rfl
  texts := by
    intro ns hns
    obtain ⟨file, source, hfile, rfl, hsource, hparse, hslash⟩ := hsourced.exists_file hns
    refine ⟨file, source, hsourced.kept.file?_eq hfile, hparse, ?_⟩
    have hread := h.readBytes _ (List.mem_map_of_mem hfile)
    rw [writtenEntry, sourceOf_eq hsource hparse] at hread
    rw [PathName.join_ofString p (not_mem_sourceName hslash)
      (file.model.sourceName_ne (by decide)) (file.model.sourceName_ne (by decide))]
    exact hread

/-- Where nothing was, the models of an import are in the end. -/
lemma holdsModels_of_writeFiles (hsourced : r.IsSourced) (habsent : t.IsAbsent p)
    (hmake : t.makeDirectories p = .ok t') {t'' : FileTree}
    (hwrite : writeFiles r p t' r.modelFiles = (t'', lines, none)) : HoldsModels t'' p r := by
  obtain ⟨place, hfilled⟩ := FileTree.isFilled_of_makeDirectories habsent hmake
  exact .of_isFilled (isFilled_of_writeFiles hsourced.settings [] r.modelFiles hfilled
    hsourced.nodup_sourceName hwrite) hsourced

/-- An import, as long as the directory and the files can be written, leaves all files alone unless
it ends well. If it does, and the directory was not there, then there is a file in this for each
model of the document and no other one. Their names are different from each other, and without
slashes. The file that is named after a namespace holds a source text of the model that has been
registered for it. -/
theorem import_all_or_nothing {artifact output : String} {validate : Bool} {outcome : Outcome}
    (hrun : (Request.importAll artifact output validate).run t = outcome) :
    ((∀ e, outcome.ending ≠ .fault (.file e)) → outcome.ending ≠ .success → outcome.tree = t) ∧
    (t.IsAbsent (.ofString output) → outcome.ending = .success →
      ∃ models r, IsImported t (.ofString artifact) validate models r ∧
        HoldsModels outcome.tree (.ofString output) r ∧ r.namespaces.length = models.length ∧
        (r.namespaces.map (· ++ ".cto")).Nodup ∧
        ∀ ns ∈ r.namespaces, '/' ∉ (ns ++ ".cto").toList) ∧
    ∀ e, outcome.ending = .fault (.file e) →
      ∃ models r, IsImported t (.ofString artifact) validate models r ∧
        CannotWrite t (.ofString output) r e := by
  obtain ⟨htree, hne, hfile⟩ | ⟨models, r, himported, ⟨e, hcannot, hending⟩ |
    ⟨t₁, lines, hmake, hwrite, hending⟩⟩ := importDocument_cases hrun
  -- nothing was imported
  · exact ⟨fun _ _ => htree, fun _ hsuccess => absurd hsuccess hne, fun e he => absurd he (hfile e)⟩
  -- the models were imported, but not all of them written
  · rw [hending]
    refine ⟨fun hfile => absurd rfl (hfile e), fun _ hsuccess => (nomatch hsuccess), fun e' he' => ?_⟩
    cases he'
    exact ⟨models, r, himported, hcannot⟩
  -- all models were written
  · rw [hending]
    refine ⟨fun _ hne => absurd rfl hne, fun habsent _ => ?_, fun e he => (nomatch he)⟩
    obtain ⟨_, _, -, -, -, himport⟩ := id himported
    obtain ⟨hsourced, hlength⟩ := isSourced_of_importAll himport
    refine ⟨models, r, himported, holdsModels_of_writeFiles hsourced habsent hmake hwrite, ?_, ?_, ?_⟩
    · rw [hsourced.kept.namespaces_eq, List.length_map, hlength]
    · rw [hsourced.kept.namespaces_eq, List.map_map]
      exact hsourced.nodup_sourceName
    · intro ns hns
      obtain ⟨_, _, -, -, -, -, hslash⟩ := hsourced.exists_file hns
      exact not_mem_sourceName hslash

/-- A document with one model, and one that is none. -/
def documents : FileTree where
  workingDirectory := ["w"]
  entries :=
    [(["w", "A.json"], .file
      "\x7b\"$class\": \"concerto.metamodel.Model\", \"namespace\": \"a.b\", \"declarations\": []\x7d".toUTF8),
      (["w", "B.json"], .file "[]".toUTF8)]

/-- The import of one of the documents. -/
def documentImport (artifact : String) : Outcome :=
  (Request.importAll artifact "x/out" true).run documents

/-- One of the documents is imported as a file, and the other one leaves nothing. -/
theorem import_all_or_nothing_documents :
    (documents.IsAbsent (.ofString "x/out") ∧ (documentImport "A.json").ending = .success ∧
      ∃ models r, IsImported documents (.ofString "A.json") true models r ∧
        HoldsModels (documentImport "A.json").tree (.ofString "x/out") r ∧
        r.namespaces.length = models.length) ∧
    (∀ e, (documentImport "B.json").ending ≠ .fault (.file e)) ∧
      (documentImport "B.json").ending ≠ .success ∧ (documentImport "B.json").tree = documents := by
  have habsent : documents.IsAbsent (.ofString "x/out") := by decide +kernel
  have hsuccess : (documentImport "A.json").ending = .success := by decide +kernel
  have hfails : (documentImport "B.json").ending =
      .failure "Invalid metamodel: expected a JSON object" := by decide +kernel
  have hfile : ∀ e, (documentImport "B.json").ending ≠ .fault (.file e) := by simp [hfails]
  have hne : (documentImport "B.json").ending ≠ .success := by simp [hfails]
  have hfirst : (Request.importAll "A.json" "x/out" true).run documents =
      documentImport "A.json" := rfl
  have hsecond : (Request.importAll "B.json" "x/out" true).run documents =
      documentImport "B.json" := rfl
  obtain ⟨-, hholds, -⟩ := import_all_or_nothing hfirst
  obtain ⟨hunchanged, -⟩ := import_all_or_nothing hsecond
  obtain ⟨models, r, himported, hmodels, hlength, -⟩ := hholds habsent hsuccess
  exact ⟨⟨habsent, hsuccess, models, r, himported, hmodels, hlength⟩, hfile, hne,
    hunchanged hfile hne⟩

end Command

end Concerto
