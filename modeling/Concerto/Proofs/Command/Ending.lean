import Concerto.Proofs.Command.Document
import Concerto.Proofs.Model.Failure

/-!
How the commands on the models of a workspace end.

* `ContentFault`, `WorkspaceFault`: what in a file, and in the files below a directory, no error of the
  input is reported for;
* `loadEach_endsBy`, `workspace_eq_fault`: files are loaded up to the first one with such a fault;
* `WorkspaceCommand.run_isReported_iff`: a command ends well or with an error that it reports, unless it
  meets such a fault or cannot write the file that it is to write.
-/

namespace Concerto.Command

/-! ### Loading -/

/-- Loading ends by a fault. -/
def EndsBy {α : Type} (x : Except LoadError α) (f : Fault) : Prop :=
  x.mapError Ending.ofLoad = .error (.fault f)

section

variable {α β : Type} {t : FileTree} {r : Registry} {path directory : PathName}
  {paths : List PathName} {f : Fault}

lemma endsBy_ok (a : α) : ¬EndsBy (.ok a) f := by simp [EndsBy, Except.mapError]

lemma endsBy_error {e : LoadError} :
    EndsBy (.error e : Except LoadError α) f ↔ Ending.ofLoad e = .fault f := by
  simp [EndsBy, Except.mapError]

lemma endsBy_bind {x : Except LoadError α} {g : α → Except LoadError β} :
    EndsBy (x >>= g) f ↔ EndsBy x f ∨ ∃ a, x = .ok a ∧ EndsBy (g a) f := by
  cases x with
  | error e => simp [bind, Except.bind, endsBy_error]
  | ok a => simp [bind, Except.bind, endsBy_ok]

lemma endsBy_mapError {ε : Type} {x : Except ε α} {g : ε → LoadError} :
    EndsBy (x.mapError g) f ↔ ∃ e, x = .error e ∧ Ending.ofLoad (g e) = .fault f := by
  cases x <;> simp [Except.mapError, endsBy_error, endsBy_ok]

/-- What registries say of the models in them is reported. -/
lemma ofRegistry_ne_fault {x : Except RegistryError α} (h : SparesSource x) {e : RegistryError}
    (he : x = .error e) : Ending.ofRegistry e ≠ .fault f := by
  cases e with
  | source e => exact absurd he (h e)
  | _ => simp [Ending.ofRegistry]

/-- What is wrong with the content of a file that no error is reported for: the bytes are no text, or
the text has a number without value where one is due. -/
inductive ContentFault (t : FileTree) (path : PathName) : Fault → Prop where
  | encoding {e : Text.EncodingError} (hbytes : HoldsNoText t path e) :
      ContentFault t path (.encoding e)
  | number {source : String} {e : NumberError} (hread : readSource t path = .ok source)
      (hnumber : Model.HasStrayNumber source e) : ContentFault t path (.number e)

lemma readSource_endsBy :
    EndsBy (readSource t path) f ↔ ∃ e, HoldsNoText t path e ∧ f = .encoding e := by
  simp only [readSource, endsBy_bind, endsBy_mapError, mapError_eq_ok, Ending.ofLoad,
    reduceCtorEq, and_false, exists_false, false_or, Ending.fault.injEq, holdsNoText_iff]
  constructor
  · rintro ⟨bytes, hread, e, htext, rfl⟩
    exact ⟨e, ⟨bytes, hread, htext⟩, rfl⟩
  · rintro ⟨e, ⟨bytes, hread, htext⟩, rfl⟩
    exact ⟨bytes, hread, e, htext, rfl⟩

/-- The model of a source text is not added to a registry, without a report, for a number. -/
lemma addSource_endsBy {source : String} :
    EndsBy ((r.addSource source (some path.text) false).mapError (.ofRegistry path)) f ↔
      ∃ e, Model.HasStrayNumber source e ∧ f = .number e := by
  rw [endsBy_mapError]
  constructor
  · rintro ⟨e, he, hend⟩
    rcases bind_eq_error.mp he with hparse | ⟨m, -, hadd⟩
    · obtain ⟨e', hsource, rfl⟩ := mapError_eq_error.mp hparse
      cases e' with
      | number e' => exact ⟨e', Model.parse_eq_number_iff.mp hsource, (Ending.fault.inj hend).symm⟩
      | lexical e' => cases hend
      | grammar e' => cases hend
    · cases e with
      | source e => exact absurd hadd (r.sparesSource_addModel m _ _ _ e)
      | _ => cases hend
  · rintro ⟨e, hnumber, rfl⟩
    refine ⟨.source (.number e), bind_eq_error.mpr (.inl ?_), rfl⟩
    exact mapError_eq_error.mpr ⟨_, Model.parse_eq_number_iff.mpr hnumber, rfl⟩

/-- A file is not loaded, without a report, if its content has a fault. -/
lemma loadFile_endsBy : EndsBy (loadFile t r path) f ↔ ContentFault t path f := by
  simp only [loadFile, endsBy_bind, readSource_endsBy, addSource_endsBy]
  constructor
  · rintro (⟨e, hbytes, rfl⟩ | ⟨source, hread, e, hnumber, rfl⟩)
    · exact .encoding hbytes
    · exact .number hread hnumber
  · rintro (⟨hbytes⟩ | ⟨hread, hnumber⟩)
    · exact .inl ⟨_, hbytes, rfl⟩
    · exact .inr ⟨_, hread, _, hnumber, rfl⟩

/-- Files are loaded up to the first one whose content has a fault. -/
lemma loadEach_endsBy : EndsBy (loadEach t r paths).toExcept f ↔
    ∃ before path after, paths = before ++ path :: after ∧
      (∃ r', (loadEach t r before).toExcept = .ok r') ∧ ContentFault t path f := by
  -- the first file with a fault stops the loading; those before it have been loaded
  induction paths generalizing r with
  | nil => simp [loadEach, Loaded.toExcept, endsBy_ok]
  | cons path paths ih =>
      rw [toExcept_loadEach_cons, endsBy_bind, loadFile_endsBy]
      constructor
      · rintro (hcontent | ⟨r₁, hfile, hothers⟩)
        · exact ⟨[], path, paths, rfl, ⟨r, rfl⟩, hcontent⟩
        · obtain ⟨before, path', after, rfl, ⟨r', hbefore⟩, hcontent⟩ := ih.mp hothers
          refine ⟨path :: before, path', after, rfl, ⟨r', ?_⟩, hcontent⟩
          rw [toExcept_loadEach_cons, hfile]
          exact hbefore
      · rintro ⟨before, path', after, hpaths, ⟨r', hbefore⟩, hcontent⟩
        cases before with
        | nil =>
            obtain ⟨rfl, -⟩ := List.cons.inj hpaths
            exact .inl hcontent
        | cons first before =>
            obtain ⟨rfl, rfl⟩ := List.cons.inj hpaths
            rw [toExcept_loadEach_cons] at hbefore
            obtain ⟨r₁, hfile, hbefore⟩ := bind_eq_ok.mp hbefore
            exact .inr ⟨r₁, hfile, ih.mpr ⟨before, path', after, rfl, ⟨r', hbefore⟩, hcontent⟩⟩

/-- That the models are valid together is checked, and reported if they are not. -/
lemma loadFiles_endsBy : EndsBy (loadFiles t r paths true).toExcept f ↔
    EndsBy (loadEach t r paths).toExcept f := by
  rw [toExcept_loadFiles, endsBy_bind, or_iff_left_iff_imp]
  rintro ⟨r', -, hend⟩
  rw [EndsBy, mapError_eq_error] at hend
  obtain ⟨e, he, hend⟩ := hend
  obtain ⟨e', hvalid, rfl⟩ := mapError_eq_error.mp (map_eq_error.mp he)
  exact absurd hend (ofRegistry_ne_fault r'.sparesSource_validate hvalid)

/-- What is wrong below a directory that no error is reported for: with the file of its settings, with
the names that these give to model files, or with the content of a model file, all before it in their
order holding models of different namespaces. -/
inductive WorkspaceFault (t : FileTree) (directory : PathName) : Fault → Prop where
  | settings {e : Text.EncodingError} (hdirectory : t.isDirectory directory = true)
      (hbytes : HoldsNoText t (directory.below [Settings.fileName]) e) :
      WorkspaceFault t directory (.encoding e)
  | stars {s : Settings} (e : PatternError) (hdirectory : t.isDirectory directory = true)
      (hsettings : Settings.find t directory = .ok s) (hstars : HasStrayStars s.sourceSuffix) :
      WorkspaceFault t directory (.pattern e)
  | content {s : Settings} {before after : List PathName} {path : PathName}
      {files : List ModelFile} {f : Fault} (hdirectory : t.isDirectory directory = true)
      (hsettings : Settings.find t directory = .ok s)
      (hpaths : modelPaths t directory s.sourceSuffix = .ok (before ++ path :: after))
      (hbefore : List.Forall₂ (Holds t) before files) (hnodup : (files.map (·.model.ns)).Nodup)
      (hcontent : ContentFault t path f) : WorkspaceFault t directory f

/-- The models below a directory are not loaded, without a report, if there is such a fault. -/
lemma loadDirectory_endsBy :
    EndsBy (loadDirectory t none directory true none).toExcept f ↔ WorkspaceFault t directory f := by
  by_cases hdirectory : t.isDirectory directory = true
  · rw [toExcept_loadDirectory hdirectory]
    simp only [endsBy_bind, endsBy_mapError, mapError_eq_ok, loadFiles_endsBy, loadEach_endsBy]
    constructor
    -- the settings, the paths and the files are read in this order
    · rintro (⟨e, hfind, hend⟩ | ⟨s, hfind, ⟨e, hpaths, hend⟩ |
        ⟨_, hpaths, before, path, after, rfl, ⟨r, hbefore⟩, hcontent⟩⟩)
      · cases e with
        | encoding e =>
            cases hend
            exact .settings hdirectory (Settings.find_eq_encoding.mp hfind)
        | _ => cases hend
      · cases hend
        exact .stars e hdirectory hfind (modelPaths_eq_error.mp hpaths)
      · obtain ⟨files, hfiles, hnodup, -⟩ := loadEach_empty_eq_ok.mp hbefore
        exact .content hdirectory hfind hpaths hfiles hnodup hcontent
    · rintro (⟨-, hbytes⟩ | ⟨e, -, hfind, hstars⟩ | ⟨-, hfind, hpaths, hfiles, hnodup, hcontent⟩)
      · exact .inl ⟨_, Settings.find_eq_encoding.mpr hbytes, rfl⟩
      · exact .inr ⟨_, hfind, .inl ⟨e, modelPaths_eq_error.mpr hstars, rfl⟩⟩
      · exact .inr ⟨_, hfind, .inr ⟨_, hpaths, _, _, _, rfl,
          ⟨_, loadEach_empty_eq_ok.mpr ⟨_, hfiles, hnodup, rfl⟩⟩, hcontent⟩⟩
  · have hnone : ¬WorkspaceFault t directory f := by
      rintro (⟨h, -⟩ | ⟨-, h, -, -⟩ | ⟨h, -, -, -, -, -⟩) <;> exact hdirectory h
    simp [loadDirectory, hdirectory, hnone, Loaded.toExcept, endsBy_error, Ending.ofLoad]

lemma workspace_eq_fault :
    workspace t directory = .error (.fault f) ↔ WorkspaceFault t (t.resolvePath directory) f :=
  loadDirectory_endsBy

end

/-! ### Commands -/

/-- The commands that go by the models below a directory, with what else they are given. -/
inductive WorkspaceCommand where
  | check
  | resolve (ns : String)
  | exportAll (resolveNames validate : Bool) (output : Option String)

/-- The request for a command on a directory. -/
def WorkspaceCommand.request (directory : String) : WorkspaceCommand → Request
  | check => .check directory
  | resolve ns => .resolve ns directory
  | exportAll resolveNames validate output => .exportAll directory resolveNames validate output

/-- What a command on a directory meets that no error is reported for: a fault of the workspace, which
`check` only looks at if the directory is there, or one of the file that an export is written to. -/
inductive WorkspaceCommand.Meets (t : FileTree) (directory : PathName) :
    WorkspaceCommand → Fault → Prop where
  | workspace {command : WorkspaceCommand} {f : Fault}
      (hthere : command = .check → t.isThere directory = true)
      (hfault : WorkspaceFault t (t.resolvePath directory) f) : Meets t directory command f
  | output {resolveNames validate : Bool} {output : String} {r : Registry} {models : List Model}
      {f : Fault} (hload : Command.workspace t directory = .ok r)
      (hexport : r.exportAll r.settings resolveNames validate = .ok models)
      (hwrite : (writeDocument t (.ofString output) documentLayout (.models models)).2 = some f) :
      Meets t directory (.exportAll resolveNames validate (some output)) f

/-- The command ends well, or with an error that it reports on the last line of what it writes where
errors are. -/
def Outcome.IsReported (o : Outcome) : Prop :=
  o.ending = .success ∨ ∃ message, o.ending = .failure message ∧
    ∀ verbose, ∃ steps, o.errorText verbose = steps ++ "Error: " ++ message ++ "\n"

lemma Outcome.isReported_iff {o : Outcome} : o.IsReported ↔ ∀ f, o.ending ≠ .fault f := by
  cases hending : o.ending with
  | success => simp [IsReported, hending]
  | failure message =>
      simp only [IsReported, hending, reduceCtorEq, false_or, ne_eq, not_false_iff, implies_true,
        iff_true]
      refine ⟨message, rfl, fun verbose =>
        ⟨if verbose then String.join (o.events.map Event.line) else "", ?_⟩⟩
      simp [errorText, hending, String.append_assoc]
  | fault f => simp [IsReported, hending]

variable {t : FileTree} {directory : PathName} {f : Fault}

lemma unchanged_eq_fault {events : List Event} {result : Except Ending String} :
    (unchanged t events result).ending = .fault f ↔ result = .error (.fault f) := by
  cases result <;> simp [unchanged]

lemma mapError_ofRegistry_ne_fault {α : Type} {x : Except RegistryError α} (h : SparesSource x) :
    x.mapError Ending.ofRegistry ≠ .error (.fault f) := by
  intro he
  obtain ⟨e, he, hend⟩ := mapError_eq_error.mp he
  exact ofRegistry_ne_fault h he hend

lemma WorkspaceCommand.meets_of_error {command : WorkspaceCommand} {ending : Ending}
    (hload : workspace t directory = .error ending)
    (hthere : command = .check → t.isThere directory = true) :
    command.Meets t directory f ↔ ending = .fault f := by
  constructor
  · rintro (⟨-, hfault⟩ | ⟨hload', -, -⟩)
    · exact Except.error.inj (hload.symm.trans (workspace_eq_fault.mpr hfault))
    · cases hload.symm.trans hload'
  · rintro rfl
    exact .workspace hthere (workspace_eq_fault.mp hload)

lemma not_workspaceFault {r : Registry} (hload : workspace t directory = .ok r) :
    ¬WorkspaceFault t (t.resolvePath directory) f := by
  rw [← workspace_eq_fault, hload]
  exact fun h => nomatch h

lemma checkDirectory_eq_fault : (checkDirectory t directory).ending = .fault f ↔
    WorkspaceCommand.check.Meets t directory f := by
  rw [checkDirectory]
  by_cases hthere : t.isThere directory = true
  · rw [if_neg (by simp [hthere]), unchanged_eq_fault, map_eq_error]
    cases hload : workspace t directory with
    | error ending => simp [WorkspaceCommand.meets_of_error hload fun _ => hthere]
    | ok r =>
        refine ⟨fun h => (nomatch h), ?_⟩
        rintro ⟨-, hfault⟩
        exact absurd hfault (not_workspaceFault hload)
  · rw [if_pos (by simp [hthere]), unchanged_eq_fault]
    refine ⟨fun h => (nomatch h), ?_⟩
    rintro ⟨hcheck, -⟩
    exact absurd (hcheck rfl) hthere

lemma resolveNamespace_eq_fault {ns : String} :
    (resolveNamespace t ns directory).ending = .fault f ↔
      (WorkspaceCommand.resolve ns).Meets t directory f := by
  rw [resolveNamespace]
  -- a workspace that is loaded has met no fault
  cases hload : workspace t directory with
  | error ending => simp [unchanged_eq_fault, WorkspaceCommand.meets_of_error hload]
  | ok r =>
      have hnone : ¬(WorkspaceCommand.resolve ns).Meets t directory f := by
        rintro ⟨-, hfault⟩
        exact not_workspaceFault hload hfault
      rw [iff_false_right hnone]
      simp only
      split
      · next e hget =>
          rw [unchanged_eq_fault, Except.error.injEq]
          exact ofRegistry_ne_fault (r.sparesSource_get ns) hget
      · next file hget =>
          rw [unchanged_eq_fault]
          have hloaded := isLoaded_of_workspace hload
          intro hend
          rcases bind_eq_error.mp hend with hresolve | ⟨m, hresolve, hline⟩
          · exact mapError_ofRegistry_ne_fault (r.sparesSource_resolveModel _ _ _) hresolve
          · -- the model has been read from a file, so that what is made of it has a text
            have htext := hloaded.hasText_of_resolveModel (hloaded.mem_of_get hget)
              (mapError_eq_ok.mp hresolve)
            obtain ⟨line, hok⟩ := exists_documentLine (a := .model m) htext
            cases hline.symm.trans hok

/-- Once the models are loaded, an export can only meet a fault of the file that it is written to. -/
lemma WorkspaceCommand.meets_exportAll {r : Registry} {resolveNames validate : Bool}
    {output : Option String} (hload : workspace t directory = .ok r) :
    (exportAll resolveNames validate output).Meets t directory f ↔
      ∃ path models, output = some path ∧
        r.exportAll r.settings resolveNames validate = .ok models ∧
        (writeDocument t (.ofString path) documentLayout (.models models)).2 = some f := by
  constructor
  · rintro (⟨-, hfault⟩ | ⟨hload', hexport, hwrite⟩)
    · exact absurd hfault (not_workspaceFault hload)
    · obtain rfl := Except.ok.inj (hload.symm.trans hload')
      exact ⟨_, _, rfl, hexport, hwrite⟩
  · rintro ⟨path, models, rfl, hexport, hwrite⟩
    exact .output hload hexport hwrite

lemma exportDirectory_eq_fault {resolveNames validate : Bool} {output : Option String} :
    (exportDirectory t directory resolveNames validate (output.map .ofString)).ending = .fault f ↔
      (WorkspaceCommand.exportAll resolveNames validate output).Meets t directory f := by
  rw [exportDirectory]
  -- a fault ends the loading; what is loaded has a text, which may fail to be written
  cases hload : workspace t directory with
  | error ending => simp [unchanged_eq_fault, WorkspaceCommand.meets_of_error hload]
  | ok r =>
      rw [WorkspaceCommand.meets_exportAll hload]
      cases hexport : r.exportAll r.settings resolveNames validate with
      | error e =>
          have hend : Ending.ofRegistry e ≠ .fault f :=
            ofRegistry_ne_fault (r.sparesSource_exportAll _ _ _) hexport
          simp [hexport, unchanged_eq_fault, hend]
      | ok models =>
          cases output with
          | none =>
              have htext := (isLoaded_of_workspace hload).hasText_of_exportAll hexport
              obtain ⟨line, hline⟩ := exists_documentLine (a := .models models) htext
              simp [hexport, hline, unchanged]
          | some path =>
              simp only [hexport, Option.map_some, Option.some.injEq, Except.ok.injEq,
                exists_and_left, exists_eq_left']
              rcases writeDocument t (.ofString path) documentLayout _ with ⟨t', _ | fault⟩ <;> simp

/-- A command on the models of a workspace ends well, or with an error that it reports, unless it meets
a fault: if it does, and only then, it ends by that fault. -/
theorem WorkspaceCommand.run_isReported_iff (command : WorkspaceCommand) (t : FileTree)
    (directory : String) :
    (((command.request directory).run t).IsReported ↔
      ∀ f, ¬command.Meets t (.ofString directory) f) ∧
    ∀ f, ((command.request directory).run t).ending = .fault f ↔
      command.Meets t (.ofString directory) f := by
  have hfault : ∀ f, ((command.request directory).run t).ending = .fault f ↔
      command.Meets t (.ofString directory) f := by
    intro f
    cases command with
    | check => exact checkDirectory_eq_fault
    | resolve ns => exact resolveNamespace_eq_fault
    | exportAll resolveNames validate output => exact exportDirectory_eq_fault
  refine ⟨?_, hfault⟩
  rw [Outcome.isReported_iff]
  exact forall_congr' fun f => not_congr (hfault f)

/-- A directory with a model file of a single byte, with which no character begins. -/
def undecodableFiles : FileTree where
  workingDirectory := ["w"]
  entries := [(["w", "a.cto"], .file ⟨#[0xff]⟩)]

/-- The bytes of a model file may keep a command from reporting anything. -/
theorem check_undecodable :
    WorkspaceCommand.check.Meets undecodableFiles (.ofString here)
        (.encoding ⟨.startByte, [0xff], 0⟩) ∧
      ¬((Request.check here).run undecodableFiles).IsReported := by
  have hend : ((Request.check here).run undecodableFiles).ending =
      .fault (.encoding ⟨.startByte, [0xff], 0⟩) := by decide +kernel
  refine ⟨checkDirectory_eq_fault.mp hend, fun hreported => ?_⟩
  exact Outcome.isReported_iff.mp hreported _ hend

end Concerto.Command
