import Concerto.Proofs.Files.Tree
import Concerto.Proofs.Registry.LoadOrder

/-!
Why models are not loaded.

* `SparesSource`: once models are in a registry, no operation on them blames a source text;
* `HoldsNoText`, `Settings.find_eq_encoding`: a directory has no settings if the bytes of their file are
  no text;
* `HasStrayStars`, `modelPaths_eq_error`: files are not looked for if the settings put stars in the wrong
  place of their names;
* `toExcept_loadDirectory`: the steps of loading a directory, one after the other.
-/

namespace Concerto

/-! ### Errors of registries -/

/-- The result blames no source text. -/
def SparesSource {α : Type} (x : Except RegistryError α) : Prop := ∀ e, x ≠ .error (.source e)

namespace SparesSource

variable {α β : Type} {x : Except RegistryError α}

lemma ok (a : α) : SparesSource (.ok a) := fun e => by simp

lemma structural (x : Except StructuralError α) : SparesSource (x.mapError .structural) := by
  cases x <;> simp [SparesSource, Except.mapError]

lemma resolution (x : Except ResolutionError α) : SparesSource (x.mapError .resolution) := by
  cases x <;> simp [SparesSource, Except.mapError]

lemma map (h : SparesSource x) (f : α → β) : SparesSource (x.map f) :=
  fun e he => h e (map_eq_error.mp he)

lemma bind {f : α → Except RegistryError β} (h : SparesSource x) (hf : ∀ a, SparesSource (f a)) :
    SparesSource (x >>= f) := by
  intro e he
  rcases bind_eq_error.mp he with he | ⟨a, -, he⟩
  · exact h e he
  · exact hf a e he

lemma mapM {f : α → Except RegistryError β} (h : ∀ a, SparesSource (f a)) (as : List α) :
    SparesSource (as.mapM f) := by
  intro e he
  obtain ⟨a, -, ha⟩ := exists_of_mapM_eq_error he
  exact h a e ha

lemma forM {f : α → Except RegistryError Unit} (h : ∀ a, SparesSource (f a)) (as : List α) :
    SparesSource (as.forM f) := by
  intro e he
  obtain ⟨a, -, ha⟩ := exists_of_forM_eq_error he
  exact h a e ha

end SparesSource

namespace Registry

variable (r : Registry) (s : Settings)

lemma sparesSource_validatedIf (validate : Bool) (m : Model) :
    SparesSource (m.validatedIf validate) := by
  rw [Model.validatedIf]
  split
  · exact .structural _
  · exact .ok _

lemma sparesSource_get (ns : String) : SparesSource (r.get ns) := by
  rw [get]
  split <;> simp [SparesSource]

lemma sparesSource_resolveModel (validate : Bool) (m : Model) :
    SparesSource (r.resolveModel s validate m) :=
  (sparesSource_validatedIf validate m).bind fun _ => .resolution _

lemma sparesSource_checkNames (m : Model) : SparesSource (r.checkNames m) :=
  (SparesSource.resolution _).map _

lemma sparesSource_checkModel (m : Model) : SparesSource (r.checkModel m) := by
  rw [checkModel]
  exact (sparesSource_validatedIf true m).bind fun m => r.sparesSource_checkNames m

lemma sparesSource_validate : SparesSource r.validate := by
  rw [validate]
  refine SparesSource.forM (fun file : ModelFile => ?_) r.modelFiles
  exact r.sparesSource_checkModel file.model

lemma sparesSource_exportAll (resolveNames validate : Bool) :
    SparesSource (r.exportAll s resolveNames validate) := by
  refine .bind (.mapM (fun file => ?_) _) fun models => ?_
  · rw [exportedModel]
    split
    · exact r.sparesSource_resolveModel s false file.model
    · exact .ok _
  · split
    · exact .structural _
    · exact .ok _

lemma sparesSource_addModel (m : Model) (source fileName : Option String) (validate : Bool) :
    SparesSource (r.addModel m source fileName validate) := by
  rw [addModel]
  refine .map (fun e he => ?_) _
  rcases accepted_eq_error.mp he with ⟨-, ⟨⟩⟩ | ⟨-, hform | ⟨-, -, hnames⟩⟩
  · exact sparesSource_validatedIf validate m e hform
  · exact r.sparesSource_checkNames m e hnames

end Registry

/-! ### Files without text -/

/-- The path leads to a file whose bytes are no text in UTF-8. -/
def HoldsNoText (t : FileTree) (path : PathName) (e : Text.EncodingError) : Prop :=
  ∃ bytes, t.readBytes path = .ok bytes ∧ ¬bytes.IsValidUTF8 ∧ Text.decode bytes = .error e

lemma Text.not_isValidUTF8_of_decode {bytes : ByteArray} {e : EncodingError}
    (h : decode bytes = .error e) : ¬bytes.IsValidUTF8 := by
  intro hvalid
  simp [decode, String.fromUTF8?, hvalid] at h

/-- The text of a file cannot be read for its bytes. -/
lemma holdsNoText_iff {t : FileTree} {path : PathName} {e : Text.EncodingError} :
    HoldsNoText t path e ↔
      ∃ bytes, t.readBytes path = .ok bytes ∧ Text.ofBytes bytes = .error e := by
  simp only [HoldsNoText, Text.ofBytes, map_eq_error]
  exact exists_congr fun bytes => and_congr_right fun _ =>
    ⟨And.right, fun h => ⟨Text.not_isValidUTF8_of_decode h, h⟩⟩

/-- There are no settings for the bytes of a file if the file of the directory is such. -/
lemma Settings.find_eq_encoding {t : FileTree} {directory : PathName} {e : Text.EncodingError} :
    find t directory = .error (.encoding e) ↔ HoldsNoText t (directory.below [fileName]) e := by
  rw [holdsNoText_iff, find]
  generalize directory.below [fileName] = path
  have hload : load t path = .error (.encoding e) ↔
      ∃ bytes, t.readBytes path = .ok bytes ∧ Text.ofBytes bytes = .error e := by
    rw [load]
    cases hread : t.readBytes path with
    | error e' => by_cases h : e'.fault = .noSuchFile <;> simp [h]
    | ok bytes =>
        cases htext : Text.ofBytes bytes with
        | error e' => simp [htext]
        | ok text => simp [htext, mapError_eq_error]
  split
  · exact hload
  · next hfile =>
      refine ⟨fun h => (nomatch h), fun ⟨bytes, hread, _⟩ => ?_⟩
      exact absurd (FileTree.isFile_of_readBytes hread) hfile

/-! ### Names of files -/

lemma hasTwoStars_iff {cs : List Char} : hasTwoStars cs = true ↔ ['*', '*'] <:+: cs := by
  induction cs using hasTwoStars.induct with
  | case1 cs => simpa [hasTwoStars] using (List.prefix_append ['*', '*'] cs).isInfix
  | case2 c cs h ih =>
      rw [hasTwoStars]
      · rw [ih, List.infix_cons_iff]
        refine ⟨.inr, fun h' => h'.resolve_left ?_⟩
        rintro ⟨rest, hrest⟩
        cases hrest
        exact h rest rfl rfl
      · exact h
  | case3 => simp [hasTwoStars]

/-- Two stars stand side by side in the ends of the names of model files, and not as a component of
their own. -/
def HasStrayStars (suffix : String) : Prop :=
  ∃ part ∈ PathName.components ("*" ++ suffix).toList,
    part.toList ≠ ['*', '*'] ∧ ['*', '*'] <:+: part.toList

lemma ComponentPattern.ofText_eq_error {cs : List Char} {e : PatternError} :
    ofText cs = .error e ↔ cs ≠ ['*', '*'] ∧ ['*', '*'] <:+: cs := by
  rw [← hasTwoStars_iff, ofText]
  split
  · simp [*]
  · split <;> simp [*]

/-- Model files are looked for unless there are stars in the wrong place. -/
lemma modelPaths_eq_error {t : FileTree} {directory : PathName} {suffix : String}
    {e : PatternError} : modelPaths t directory suffix = .error e ↔ HasStrayStars suffix := by
  have hpaths : modelPaths t directory suffix = .error e ↔
      (PathName.components ("*" ++ suffix).toList).mapM
        (fun part => ComponentPattern.ofText part.toList) = .error e := by
    simp [modelPaths, PathPattern.ofText, bind_eq_error, pure, Except.pure]
  rw [hpaths, HasStrayStars]
  constructor
  · intro h
    obtain ⟨part, hpart, hfail⟩ := exists_of_mapM_eq_error h
    exact ⟨part, hpart, ComponentPattern.ofText_eq_error.mp hfail⟩
  · rintro ⟨part, hpart, hstars⟩
    have hfail : ComponentPattern.ofText part.toList = .error e :=
      ComponentPattern.ofText_eq_error.mpr hstars
    -- There is one error only, so it does not matter which component fails first.
    cases hmap : (PathName.components ("*" ++ suffix).toList).mapM
        fun part => ComponentPattern.ofText part.toList with
    | error e' => rfl
    | ok patterns =>
        obtain ⟨pattern, -, hok⟩ := exists_of_forall₂_left (mapM_eq_ok.mp hmap) part hpart
        rw [hfail] at hok
        cases hok

/-! ### Directories -/

/-- Below a directory the settings are read, then the names of files, then the files. -/
lemma toExcept_loadDirectory {t : FileTree} {directory : PathName}
    (h : t.isDirectory directory = true) :
    (loadDirectory t none directory true none).toExcept =
      (Settings.find t directory).mapError .settings >>= fun s =>
        (modelPaths t directory s.sourceSuffix).mapError .pattern >>= fun paths =>
          (loadFiles t (.empty s) paths true).toExcept := by
  rw [loadDirectory, directorySettings, h]
  cases Settings.find t directory with
  | error e => rfl
  | ok s =>
      simp only [Except.mapError, bind, Except.bind]
      cases modelPaths t directory s.sourceSuffix <;> rfl

end Concerto
