import Concerto.Proofs.Model.StandsFor

/-!
What names and imports that have been read are like.

* `Parser.yields_qualifiedName`: names with dots;
* `Parser.yields_importStatement`: the imports of a statement, which may list several names.
-/

namespace Concerto

namespace Parser

variable {first : Token → Prop}

/-! ### Names -/

/-- A scanned keyword or identifier is a name, unless it is reserved. -/
lemma isIdentifier_of_isScanned {w : Word} (h : w.IsScanned)
    (hkind : w.kind = .identifier ∨ ∃ k, w.kind = .keyword k)
    (hreserved : reservedWords.contains w.value = false) :
    w = .name w.value ∧ isIdentifier w.value = true := by
  obtain ⟨kind, value⟩ := w
  rcases hkind with rfl | ⟨k, rfl⟩
  · obtain ⟨hunits, hkeyword⟩ := h
    exact ⟨(Word.name_of_none hkeyword).symm, by rw [isIdentifier, hreserved, hunits]; rfl⟩
  · have hvalue : value = k.text := h
    subst hvalue
    exact ⟨Word.keyword_eq_name k, by rw [isIdentifier, hreserved, unitsFormName_text]; rfl⟩

lemma yields_typeName :
    Yields typeName first fun taken n => taken = [.name n] ∧ IsTypeName n := by
  refine .expectOne (by simp) fun t hkind hscanned => ?_
  split
  · exact .failAt _ _
  · next hreserved =>
      refine .pure ?_
      obtain ⟨hword, hname⟩ := isIdentifier_of_isScanned hscanned (Or.inl hkind)
        (by simpa using hreserved)
      refine ⟨by rw [hword]; rfl, hname, ?_⟩
      rw [Word.IsScanned, Token.word_kind, hkind] at hscanned
      exact hscanned.2

lemma yields_anyName :
    Yields anyName first fun taken n => taken = [.name n] ∧ isIdentifier n = true := by
  refine .peek fun t _ => ?_
  -- once it is known whether the token may be a name, the checks are the same
  have htake : ∀ isName : Bool,
      (isName = true → t.kind = .identifier ∨ ∃ k, t.kind = .keyword k) →
      Yields (if !isName then Parser.failAt t (.expectedName t.value)
        else if reservedWords.contains t.value then Parser.failAt t (.reservedName t.value)
        else do
          let _ ← advance
          return t.value) (· = t) fun taken n => taken = [.name n] ∧ isIdentifier n = true := by
    intro isName hkind
    split
    · exact .failAt _ _
    next hname =>
    split
    · exact .failAt _ _
    next hreserved =>
    replace hkind := hkind (by simpa using hname)
    have heof : t.kind ≠ .eof := by
      intro heq
      rw [heq] at hkind
      simp at hkind
    refine .advanceOver heof fun hscanned => .pure ?_
    obtain ⟨hword, hname⟩ := isIdentifier_of_isScanned hscanned hkind (by simpa using hreserved)
    exact ⟨by rw [hword]; rfl, hname⟩
  dsimp only
  split
  · next hkind => exact htake true fun _ => Or.inl hkind
  · next k hkind => exact htake k.canBeName fun _ => Or.inr ⟨k, hkind⟩
  · exact htake false (by simp)

/-- No name is a number. -/
lemma isNumber_name (n : String) : (Word.name n).isNumber = false := by
  unfold Word.name
  split <;> simp [Word.isNumber]

/-- Nor is it a pattern. -/
lemma kind_name_ne_regex (n : String) : (Word.name n).kind ≠ .regex := by
  unfold Word.name
  split <;> simp

lemma standsFor_name (n : String) : StandsFor [.name n] [.name n] [] :=
  .single rfl (isNumber_name n) (kind_name_ne_regex n)

/-- A list of names with separators between them. -/
lemma yields_names {separator : Symbol} {item : Parser String} {property : String → Prop}
    (hitem : Yields item AnyToken fun taken n => taken = [.name n] ∧ property n) :
    Yields (separatedBy separator item) first fun taken ns =>
      StandsFor taken (separatedWords separator (ns.map fun n => [.name n])) [] ∧ ns ≠ [] ∧
        ∀ n ∈ ns, property n := by
  have hname : Yields item AnyToken (Tells (fun n => [.name n]) (fun _ => []) property) := by
    refine hitem.mono ?_
    rintro _ n ⟨rfl, hn⟩
    exact ⟨standsFor_name n, hn⟩
  refine hname.separatedByTells.mono ?_
  rintro taken ns ⟨hstands, hns⟩
  rw [List.flatMap_eq_nil_iff.mpr fun _ _ => rfl] at hstands
  exact ⟨hstands, hns⟩

lemma yields_qualifiedName :
    Yields qualifiedName first (Tells qualifiedWords (fun _ => []) IsQualifiedName) := by
  refine .map (yields_names yields_anyName) ?_
  rintro taken ns ⟨hstands, hne, hns⟩
  refine ⟨?_, ?_⟩
  · rwa [qualifiedWords_joinName hne hns]
  · rwa [IsQualifiedName, nameParts_joinName hne hns]

lemma yields_version :
    Yields Parser.version first (Tells Model.versionWords (fun _ => []) fun _ => True) := by
  refine .peek fun t _ => ?_
  split
  · next hword =>
      simp only [Bool.and_eq_true, decide_eq_true_eq] at hword
      refine .bind (.advance ?_) fun _ taken ht => ?_
      · rintro _ rfl heq
        simp [heq] at hword
      obtain ⟨rfl, rfl, -⟩ := ht
      refine .expectOne (by simp) fun word hkind _ => ?_
      split
      · exact .failAt _ _
      refine .expectOne (by simp) fun range hrange _ => .pure ⟨?_, trivial⟩
      refine .cons ?_ rfl (kind_name_ne_regex _) (.cons ?_ rfl (kind_name_ne_regex _)
        (.cons ?_ rfl (by simp) .nil))
      -- the words are told by their kinds, as the texts are those of the kinds or have been checked
      · rw [Token.word_kind, hword.1]
        rfl
      · rw [Token.word_kind, hkind]
        rfl
      · rw [Token.word_kind, hrange]
        rfl
  · exact .pure ⟨.nil, trivial⟩

/-! ### Imports -/

/-- The words after `import`, up to the location. -/
def ImportPath.words (path : ImportPath) : List Word :=
  separatedWords .dot (path.parts.map fun part => [.name part]) ++
    match path.names with
    | none => []
    | some none => [.symbol .dot, .symbol .star]
    | some (some names) => .symbol .dot :: .symbol .openBrace ::
        (separatedWords .comma (names.map fun n => [.name n]) ++ [.symbol .closeBrace])

/-- The names of a path can be told. -/
structure ImportPath.IsSpellable (path : ImportPath) : Prop where
  parts_ne_nil : path.parts ≠ []
  parts : ∀ part ∈ path.parts, isIdentifier part = true
  names_ne_nil : ∀ names, path.names = some (some names) → names ≠ []
  names : ∀ names, path.names = some (some names) → ∀ n ∈ names, IsTypeName n

/-- One more word after others with separators between them. -/
lemma separatedWords_concat {separator : Symbol} {lists : List (List Word)} (hne : lists ≠ [])
    (words : List Word) : separatedWords separator (lists ++ [words]) =
      separatedWords separator lists ++ .symbol separator :: words := by
  obtain ⟨list, lists, rfl⟩ := List.exists_cons_of_ne_nil hne
  simp [separatedWords]

/-- One more part of the path of an import. -/
lemma yields_importPart {path : ImportPath} (hnames : path.names = none) (h : path.IsSpellable)
    {before : List Word} (hbefore : StandsFor before path.words []) :
    Yields (importPart path) first fun taken path' =>
      StandsFor (before ++ taken) path'.words [] ∧ path'.IsSpellable := by
  obtain ⟨parts, names⟩ := path
  have hnames : names = none := hnames
  subst hnames
  -- the words of the path so far stay in front of those of the new part
  have hadd : ∀ {taken spelled : List Word}, StandsFor taken spelled [] →
      StandsFor (before ++ taken)
        (separatedWords .dot (parts.map fun part => [.name part]) ++ spelled) [] := by
    intro taken spelled hstands
    have hwords := hbefore.append hstands
    simpa [ImportPath.words] using hwords
  refine .symbol fun w hw => ?_
  refine .takeSymbol (fun w' hw' => .pure ⟨?_, ?_⟩) ?_
  · exact hadd (.symbol hw (.symbol hw' .nil))
  · exact ⟨h.parts_ne_nil, h.parts, by simp, by simp⟩
  -- after the dot comes a star, a list in braces, or one more name
  refine .takeSymbol (fun w' hw' => ?_) ?_
  · refine .bind (yields_names yields_typeName) ?_
    rintro ns taken ⟨hstands, hne, hns⟩
    refine .symbol fun w'' hw'' => .pure ⟨?_, h.parts_ne_nil, h.parts, ?_, ?_⟩
    · exact hadd (.symbol hw (.symbol hw' (hstands.append (.symbol hw'' .nil))))
    · rintro names ⟨⟩
      exact hne
    · rintro names ⟨⟩
      exact hns
  · refine .bind yields_anyName ?_
    rintro n taken ⟨rfl, hn⟩
    refine .pure ⟨?_, by simp, ?_, by simp, by simp⟩
    · have hwords := hadd (.symbol hw (standsFor_name n))
      simpa [ImportPath.words, separatedWords_concat, h.parts_ne_nil] using hwords
    · simpa [or_imp, forall_and] using ⟨h.parts, hn⟩

/-- A list of names in braces leaves the mode that a single name does. -/
lemma run_braces {names : List String} (h : ∀ n ∈ names, IsTypeName n) (m : ImportMode) :
    m.run (Word.kinds (.symbol .dot :: .symbol .openBrace ::
      (separatedWords .comma (names.map fun n => [.name n]) ++ [.symbol .closeBrace]))) =
      m.run [.symbol .dot, .identifier] := by
  have hneutral : ∀ k ∈ Word.kinds (separatedWords .comma (names.map fun n => [.name n]) ++
      [.symbol .closeBrace]), ImportMode.isNeutral k = true := by
    have hname : ∀ n ∈ names, ImportMode.isNeutral (Word.name n).kind = true := by
      intro n hn
      rw [Word.name_of_none (h n hn).2]
      rfl
    cases names with
    | nil => simp [separatedWords, ImportMode.isNeutral]
    | cons n ns =>
        simp only [List.forall_mem_cons] at hname
        intro k hk
        simp only [separatedWords, List.map_cons, List.flatMap_map, Word.kinds, List.mem_map,
          List.mem_append, List.mem_flatMap, List.mem_cons, List.not_mem_nil, or_false] at hk
        obtain ⟨w, (rfl | ⟨n', hn', rfl | rfl⟩) | rfl, rfl⟩ := hk
        · exact hname.1
        · rfl
        · exact hname.2 n' hn'
        · rfl
  have hne : Word.kinds (separatedWords .comma (names.map fun n => [.name n]) ++
      [.symbol .closeBrace]) ≠ [] := by simp
  -- after the dot, a brace leaves no import, and nothing in the list does
  rw [Word.kinds_cons, Word.kinds_cons]
  generalize Word.kinds (separatedWords .comma (names.map fun n => [.name n]) ++
    [.symbol .closeBrace]) = kinds at hneutral hne ⊢
  cases m <;> simp [ImportMode.run, ImportMode.admits, ImportMode.next,
    ImportMode.run_neutral hneutral hne, ImportMode.settled]

/-- The kinds of the words of an import of a type. -/
def importKinds (parts : List String) (uri : Option String) : List TokenKind :=
  .keyword .importKw :: (Word.kinds (separatedWords .dot (parts.map fun part => [.name part])) ++
    [.symbol .dot, .identifier] ++ Word.kinds (Import.locationWords uri))

/-- An import leaves the same mode when it stands there twice. -/
lemma run_importKinds {parts : List String} {uri : Option String} {m m' : ImportMode}
    (h : m.run (importKinds parts uri) = some m') : m'.run (importKinds parts uri) = some m' := by
  -- the mode at the end is that after the last name or the location, where an import may begin
  -- again
  have hend : m' ≠ .afterFrom := by
    have hlast : ∃ kinds kind, importKinds parts uri = kinds ++ [kind] ∧ kind ≠ .keyword .fromKw := by
      cases uri with
      | none =>
          refine ⟨.keyword .importKw :: (Word.kinds (separatedWords .dot
            (parts.map fun part => [.name part])) ++ [.symbol .dot]), .identifier, ?_, by simp⟩
          simp [importKinds, Import.locationWords]
      | some u =>
          refine ⟨.keyword .importKw :: (Word.kinds (separatedWords .dot
            (parts.map fun part => [.name part])) ++
              [.symbol .dot, .identifier, .keyword .fromKw]), .uri, ?_, by simp⟩
          simp [importKinds, Import.locationWords]
    obtain ⟨kinds, kind, hkinds, hkind⟩ := hlast
    rw [hkinds] at h
    exact ImportMode.ne_afterFrom_of_run hkind h
  rw [importKinds, ImportMode.run_cons (by simp)] at h ⊢
  split at h
  · simp at h
  · rw [if_neg hend]
    exact h

/-- The imports of a path. -/
def ImportPath.imports (path : ImportPath) (uri : Option String) : List Import :=
  match path.names with
  | none => [.type (joinName path.parts.dropLast) (path.parts.getLast?.getD "") uri]
  | some none => [.all (joinName path.parts) uri]
  | some (some names) => names.map fun name => .type (joinName path.parts) name uri

/-- An import of one type has the words of its path. -/
lemma words_import_type {parts : List String} (h : ImportPath.IsSpellable ⟨parts, none⟩)
    (hlength : 2 ≤ parts.length) (uri : Option String) :
    (ImportPath.imports ⟨parts, none⟩ uri).flatMap Import.words =
      .keyword .importKw :: (ImportPath.words ⟨parts, none⟩ ++ Import.locationWords uri) := by
  -- the last part is the type, the others are its namespace
  have hparts : parts.dropLast ≠ [] := by
    rw [← List.length_pos_iff, List.length_dropLast]
    omega
  obtain ⟨last, hlast⟩ : ∃ last, parts = parts.dropLast ++ [last] :=
    ⟨parts.getLast h.parts_ne_nil, (List.dropLast_concat_getLast h.parts_ne_nil).symm⟩
  have hget : parts.getLast?.getD "" = last := by
    rw [hlast]
    simp
  have hwords : ImportPath.words ⟨parts, none⟩ =
      separatedWords .dot (parts.dropLast.map fun part => [.name part]) ++
        [.symbol .dot, .name last] := by
    rw [ImportPath.words, List.append_nil]
    conv_lhs => rw [hlast]
    rw [List.map_append, List.map_singleton, separatedWords_concat]
    rwa [Ne, List.map_eq_nil_iff]
  rw [ImportPath.imports, List.flatMap_singleton, Import.words, hget, hwords,
    qualifiedWords_joinName hparts fun p hp => h.parts p (List.dropLast_subset _ hp)]
  simp

/-- So has an import of all types. -/
lemma words_import_all {parts : List String} (h : ImportPath.IsSpellable ⟨parts, some none⟩)
    (uri : Option String) :
    (ImportPath.imports ⟨parts, some none⟩ uri).flatMap Import.words =
      .keyword .importKw :: (ImportPath.words ⟨parts, some none⟩ ++ Import.locationWords uri) := by
  rw [ImportPath.imports, List.flatMap_singleton, Import.words,
    qualifiedWords_joinName h.parts_ne_nil h.parts]
  simp [ImportPath.words]

/-- Listing several names in one import is like an import for each of them. -/
lemma run_import_types {parts names : List String}
    (h : ImportPath.IsSpellable ⟨parts, some (some names)⟩) (uri : Option String)
    (m m' : ImportMode)
    (hrun : m.run (Word.kinds (.keyword .importKw ::
      (ImportPath.words ⟨parts, some (some names)⟩ ++ Import.locationWords uri))) = some m') :
    m.run (Word.kinds ((ImportPath.imports ⟨parts, some (some names)⟩ uri).flatMap Import.words)) =
      some m' := by
  have hname : ∀ n ∈ names, Word.kinds (Import.words (.type (joinName parts) n uri)) =
      importKinds parts uri := by
    intro n hn
    rw [Import.words, qualifiedWords_joinName h.parts_ne_nil h.parts, importKinds,
      Word.name_of_none (h.names _ rfl n hn).2]
    simp
  -- the import with the list leaves the mode that each of its names alone would leave
  have hone : m.run (importKinds parts uri) = some m' := by
    simp only [ImportPath.words] at hrun
    rw [← hrun, importKinds, ImportMode.run_cons (by simp), Word.kinds_cons,
      ImportMode.run_cons (by simp)]
    simp only [Word.kinds_append, ImportMode.run_append, run_braces (h.names _ rfl),
      Word.keyword_kind]
  rw [ImportPath.imports, List.flatMap_map]
  exact ImportMode.run_flatMap (h.names_ne_nil _ rfl) hname hone (run_importKinds hone)

/-- The imports of a path leave the mode that the path does. -/
lemma run_imports {path : ImportPath} (h : path.IsSpellable)
    (hlength : path.names = none → 2 ≤ path.parts.length) (uri : Option String)
    (m m' : ImportMode)
    (hrun : m.run (Word.kinds (.keyword .importKw :: (path.words ++ Import.locationWords uri))) =
      some m') :
    m.run (Word.kinds ((path.imports uri).flatMap Import.words)) = some m' := by
  obtain ⟨parts, names⟩ := path
  match names with
  | none => rwa [words_import_type h (hlength rfl)]
  | some none => rwa [words_import_all h]
  | some (some names) => exact run_import_types h uri m m' hrun

/-- The location of an import. -/
lemma yields_location {β : Type} {f : Option String → Parser β} {Q : List Word → β → Prop}
    (hf : ∀ uri taken, StandsFor taken (Import.locationWords uri) [] → (∀ u ∈ uri, IsLocation u) →
      Yields (f uri) AnyToken fun taken' b => Q (taken ++ taken') b) :
    Yields (do
      let uri ←
        if ← takeKeyword .fromKw then pure (some (← expect [.uri]).value)
        else pure none
      f uri) first Q := by
  refine .takeKeyword (fun w hw => ?_) (hf none [] .nil (by simp))
  refine .expectOne (by simp) fun t hkind hscanned => ?_
  refine hf (some t.value) [w, t.word] (.keyword hw (.cons ?_ rfl (by simp) .nil)) ?_
  · rw [Token.word_kind, hkind]
    rfl
  · rw [Word.IsScanned, Token.word_kind, hkind] at hscanned
    rintro u ⟨⟩
    exact hscanned

lemma isSpellable_imports {path : ImportPath} (h : path.IsSpellable)
    (hlength : path.names = none → 2 ≤ path.parts.length) {uri : Option String}
    (huri : ∀ u ∈ uri, IsLocation u) : ∀ i ∈ path.imports uri, i.IsSpellable := by
  have hns : ∀ ps : List String, ps ≠ [] → (∀ p ∈ ps, isIdentifier p = true) →
      IsQualifiedName (joinName ps) := by
    intro ps hne hps
    rwa [IsQualifiedName, nameParts_joinName hne hps]
  obtain ⟨parts, names⟩ := path
  -- by the end of the path: the last part is a type, a star, or a list of types
  match names with
  | none =>
      have hdrop : parts.dropLast ≠ [] := by
        have := hlength rfl
        simp only at this
        rw [← List.length_pos_iff, List.length_dropLast]
        omega
      refine List.forall_mem_singleton.mpr
        ⟨hns _ hdrop fun p hp => h.parts p (List.dropLast_subset _ hp), ?_, huri⟩
      rw [List.getLast?_eq_some_getLast h.parts_ne_nil, Option.getD_some]
      exact h.parts _ (List.getLast_mem _)
  | some none => exact List.forall_mem_singleton.mpr ⟨hns _ h.parts_ne_nil h.parts, huri⟩
  | some (some names) =>
      exact List.forall_mem_map.mpr fun n hn =>
        ⟨hns _ h.parts_ne_nil h.parts, (h.names _ rfl n hn).1, huri⟩

/-- No word of a name with dots is a pattern. -/
lemma kind_qualified_ne_regex (name : String) : ∀ w ∈ qualifiedWords name, w.kind ≠ .regex := by
  rw [qualifiedWords]
  cases nameParts name with
  | nil => simp [separatedWords]
  | cons part parts =>
      simp only [List.map_cons, separatedWords, List.forall_mem_append, List.forall_mem_singleton,
        List.mem_flatMap, List.mem_map]
      refine ⟨kind_name_ne_regex part, ?_⟩
      rintro w ⟨_, ⟨part, -, rfl⟩, hw⟩
      rcases List.mem_cons.mp hw with rfl | hw
      · simp
      · rw [List.mem_singleton.mp hw]
        exact kind_name_ne_regex part

/-- No word of an import is a pattern. -/
lemma kind_import_ne_regex (i : Import) : ∀ w ∈ i.words, w.kind ≠ .regex := by
  have hlocation : ∀ uri, ∀ w ∈ Import.locationWords uri, w.kind ≠ .regex := by
    intro uri
    cases uri <;> simp [Import.locationWords]
  cases i with
  | all ns uri =>
      simpa [Import.words, or_imp, forall_and]
        using ⟨kind_qualified_ne_regex ns, hlocation uri⟩
  | type ns name uri =>
      simpa [Import.words, or_imp, forall_and]
        using ⟨kind_qualified_ne_regex ns, kind_name_ne_regex name, hlocation uri⟩

/-- A statement makes an import at least. -/
lemma imports_ne_nil {path : ImportPath} (h : path.IsSpellable) (uri : Option String) :
    path.imports uri ≠ [] := by
  obtain ⟨parts, names⟩ := path
  match names with
  | none => simp [ImportPath.imports]
  | some none => simp [ImportPath.imports]
  | some (some names) => simpa [ImportPath.imports] using h.names_ne_nil names rfl

/-- Imports that are read from one statement. -/
lemma tells_imports {path : ImportPath} (h : path.IsSpellable)
    (hlength : path.names = none → 2 ≤ path.parts.length) {uri : Option String}
    (huri : ∀ u ∈ uri, IsLocation u) {w : Word} (hw : w.kind = .keyword .importKw)
    {taken taken' : List Word} (hpath : StandsFor taken path.words [])
    (hlocation : StandsFor taken' (Import.locationWords uri) []) :
    Tells (List.flatMap Import.words) (fun _ => []) (fun is => is ≠ [] ∧ ∀ i ∈ is, i.IsSpellable)
      (w :: (taken ++ taken')) (path.imports uri) := by
  refine ⟨.respell (.keyword hw (hpath.append hlocation)) (run_imports h hlength uri) ?_,
    imports_ne_nil h uri, isSpellable_imports h hlength huri⟩
  intro w hw hregex
  obtain ⟨i, -, hw⟩ := List.mem_flatMap.mp hw
  exact absurd hregex (kind_import_ne_regex i w hw)

/-- The path of an import and its words so far. -/
lemma yields_importPath {part : String} (h : isIdentifier part = true) :
    Yields (foldWhile (fun path kind => path.names.isNone && decide (kind = .symbol .dot)) importPart
        ⟨[part], none⟩) first fun taken (path : ImportPath) =>
      StandsFor ([.name part] ++ taken) path.words [] ∧ path.IsSpellable := by
  refine .foldWhile (I := fun taken (path : ImportPath) =>
    StandsFor taken path.words [] ∧ path.IsSpellable) ?_ ?_
  · rintro taken path ⟨hstands, hspellable⟩
    refine .of_first fun t ht => ?_
    simp only [Bool.and_eq_true, Option.isNone_iff_eq_none] at ht
    exact yields_importPart ht.1 hspellable hstands
  · refine ⟨by simpa [ImportPath.words, separatedWords] using standsFor_name part, ?_⟩
    exact ⟨by simp, by simpa using h, by simp, by simp⟩

lemma yields_importStatement :
    Yields importStatement first (Tells (List.flatMap Import.words) (fun _ => [])
      fun is => is ≠ [] ∧ ∀ i ∈ is, i.IsSpellable) := by
  refine .expectOne (by simp) fun keyword hkeyword _ => ?_
  refine .bind yields_anyName ?_
  rintro part _ ⟨rfl, hpart⟩
  refine .bind (yields_importPath hpart) ?_
  rintro ⟨parts, names⟩ taken ⟨hstands, hspellable⟩
  match names with
  | none =>
      dsimp only
      split
      -- a path of one part fails before a location is read
      · exact .bind (P := fun _ _ => False) (.failAt _ _) fun _ _ h => h.elim
      · next hlength =>
          refine yields_location fun uri taken' hlocation huri => ?_
          have htells := tells_imports (w := keyword.word) hspellable
            (fun _ => not_lt.mp hlength) huri hkeyword hstands hlocation
          rw [ImportPath.imports, List.getLast?_eq_some_getLast hspellable.parts_ne_nil] at htells
          rw [List.getLast?_eq_some_getLast hspellable.parts_ne_nil]
          exact .pure (by simpa using htells)
  | some names =>
      refine yields_location fun uri taken' hlocation huri => ?_
      have htells := tells_imports (w := keyword.word) hspellable (by simp) huri hkeyword hstands
        hlocation
      cases names with
      | none => exact .pure (by simpa [ImportPath.imports] using htells)
      | some names => exact .pure (by simpa [ImportPath.imports] using htells)

end Parser

end Concerto
