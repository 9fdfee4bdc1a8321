import Concerto.Proofs.Model.Heading
import Concerto.Proofs.Model.RoundTrip
import Concerto.Proofs.Token.LineBreak

/-!
Reading a text block by block.

* `Parser.ImportsRead`, `Parser.DeclarationsRead`: words that imports or declarations have been read
  from;
* `Model.parts_of_parse`: the blocks after the namespace of a text;
* `Model.parse_blocks_iff`: when blocks that have been read one by one are read one after another.
-/

namespace Concerto

namespace Parser

variable {first : Token → Prop}

/-! ### Blocks -/

/-- The words of imports that have been read. -/
structure ImportsRead (words : List Word) (imports : List Import) : Prop where
  repeats : ∃ statements : List (List Import), statements.flatten = imports ∧
    Repeats (· = .keyword .importKw) importStatement (fun k => importView k = .eof) words statements
  standsFor : StandsFor words (imports.flatMap Import.words) []
  nil : imports = [] → words = []

/-- The words of declarations that have been read. -/
structure DeclarationsRead (words : List Word) (declarations : List Declaration) : Prop where
  repeats : Repeats (· ≠ .eof) declaration (fun k => blindly k = .eof) words declarations
  standsFor : StandsFor words (declarations.flatMap Declaration.words)
    (declarations.flatMap Declaration.numerals)
  heads : HeadsBlock words declarations
  spellable : ∀ d ∈ declarations, d.IsSpellable

/-- Without a version there are no words of one. -/
lemma yields_noVersion : Yields version first fun taken v => v = none → taken = [] := by
  refine .peek fun t _ => ?_
  split
  · next hword =>
      simp only [Bool.and_eq_true, decide_eq_true_eq] at hword
      refine .bind (.advance fun t' ht' heof => ?_) fun _ taken _ => ?_
      · rw [ht', hword.1] at heof
        contradiction
      refine .expectOne (by simp) fun word _ _ => ?_
      split
      · exact .failAt _ _
      · exact .expectOne (by simp) fun range _ _ => .pure (by simp)
  · exact .pure fun _ => rfl

/-- The words of a name with dots are of the kinds of its parts. -/
lemma yields_qualifiedKinds : Yields qualifiedName first fun taken name =>
    Word.kinds taken = Word.kinds (qualifiedWords name) := by
  have hparts : Yields (separatedBy .dot anyName) first _ :=
    .separatedBy (R := fun taken parts => (∀ p ∈ parts, isIdentifier p = true) ∧
      Word.kinds taken = Word.kinds (parts.flatMap fun p => [.symbol .dot, .name p]))
      yields_anyName ⟨by simp, rfl⟩ (by
        rintro w _ taken' p parts hw ⟨rfl, hp⟩ ⟨hparts, hkinds⟩
        exact ⟨List.forall_mem_cons.mpr ⟨hp, hparts⟩, by simp [hw, hkinds]⟩)
  refine .map hparts ?_
  rintro _ _ ⟨p, parts, _, others, rfl, rfl, ⟨rfl, hp⟩, hparts, hkinds⟩
  rw [qualifiedWords_joinName (by simp) (List.forall_mem_cons.mpr ⟨hp, hparts⟩)]
  simp [separatedWords, hkinds, List.flatMap_map]

/-- The declarations up to the end of a text. -/
lemma declarationsRead_of_many {s s' : TokenStream} {declarations : List Declaration}
    (h : many (· ≠ .eof) declaration s = .ok (declarations, s'))
    (hscanned : ∀ w ∈ s.words, w.IsScanned) : DeclarationsRead s.words declarations := by
  obtain ⟨words, hwords, hstop, hrepeats⟩ :=
    Repeats.of_many (v := .eof) (fun _ _ => rfl) advances_declaration h rfl
  -- the end of the text is no word
  have hend : s'.words = [] := by
    cases hw : s'.words with
    | nil => rfl
    | cons w ws =>
        have hkind : w.kind = .eof := by simpa [hw] using hstop
        have hleft := isScanned_left hwords hscanned w (by simp [hw])
        simp [Word.IsScanned, hkind] at hleft
  rw [hend, List.append_nil] at hwords
  have htells : Yields (many (· ≠ .eof) declaration) AnyToken _ := yields_declaration.manyTells
  have hheads : Yields (many (· ≠ .eof) declaration) AnyToken _ := heads_declarations
  obtain ⟨taken, htaken, hstands, hall⟩ := htells s s' declarations h hscanned trivial
  obtain ⟨taken', htaken', hblock⟩ := hheads s s' declarations h hscanned trivial
  rw [hend, List.append_nil] at htaken htaken'
  exact ⟨hwords ▸ hrepeats, htaken ▸ hstands, htaken' ▸ hblock, fun d hd => (hall d hd).1⟩

/-- A declaration ends the imports before it. -/
lemma DeclarationsRead.importView_nextKind {words : List Word} {declarations : List Declaration}
    (h : DeclarationsRead words declarations) : importView (nextKind words) = .eof := by
  rw [importView_eq_eof]
  cases words with
  | nil => rfl
  | cons w ws => simp [endsImport, h.heads.begins w rfl]

/-- No import begins with an equals sign. -/
lemma ImportsRead.head_ne_equals {words : List Word} {imports : List Import}
    (h : ImportsRead words imports) : ∀ w ∈ words.head?, w.kind ≠ .symbol .equals := by
  obtain ⟨statements, -, hrepeats⟩ := h.repeats
  intro w hw heq
  have hkind := hrepeats.continues_head w hw
  simp [heq] at hkind

/-- Nor does a declaration. -/
lemma DeclarationsRead.head_ne_equals {words : List Word} {declarations : List Declaration}
    (h : DeclarationsRead words declarations) : ∀ w ∈ words.head?, w.kind ≠ .symbol .equals := by
  intro w hw heq
  have hkind := h.heads.begins w hw
  rw [heq] at hkind
  contradiction

/-- Declarations after others. -/
lemma DeclarationsRead.append {words words' : List Word} {declarations declarations' : List Declaration}
    (h : DeclarationsRead words declarations) (h' : DeclarationsRead words' declarations') :
    DeclarationsRead (words ++ words') (declarations ++ declarations') where
  repeats := h.repeats.append h'.repeats
  standsFor := by
    rw [List.flatMap_append, List.flatMap_append]
    exact h.standsFor.append h'.standsFor
  heads := by
    cases declarations with
    | nil =>
        have hwords : words = [] := h.heads
        rw [hwords]
        exact h'.heads
    | cons d ds =>
        obtain ⟨before, after, rfl, hheads⟩ := h.heads
        exact ⟨before, after ++ words', List.append_assoc .., hheads⟩
  spellable := List.forall_mem_append.mpr ⟨h.spellable, h'.spellable⟩

/-- The imports up to the first declaration. -/
lemma importsRead_of_many {s s' : TokenStream} {statements : List (List Import)}
    (h : many (· = .keyword .importKw) importStatement s = .ok (statements, s'))
    (hscanned : ∀ w ∈ s.words, w.IsScanned) (hend : importView (nextKind s'.words) = .eof) :
    ∃ words, s.words = words ++ s'.words ∧ ImportsRead words statements.flatten := by
  have hview : ∀ k, decide (k = .keyword .importKw) = true → importView k = .eof := by
    intro k hk
    rw [of_decide_eq_true hk]
    rfl
  obtain ⟨words, hwords, -, hrepeats⟩ := Repeats.of_many hview advances_importStatement h hend
  have htells : Yields (many (· = .keyword .importKw) importStatement) AnyToken _ :=
    yields_importStatement.manyTells
  obtain ⟨taken, htaken, hstands, hall⟩ := htells s s' statements h hscanned trivial
  rw [hwords, List.append_cancel_right_eq] at htaken
  subst htaken
  refine ⟨words, hwords, ⟨statements, rfl, hrepeats⟩, ?_, fun hnil => ?_⟩
  · have hflatten : statements.flatten.flatMap Import.words =
        statements.flatMap (List.flatMap Import.words) := by
      rw [List.flatten_eq_flatMap, List.flatMap_assoc]
      rfl
    rw [List.flatMap_eq_nil_iff.mpr fun _ _ => rfl] at hstands
    rwa [hflatten]
  · -- a statement that makes no import has not been read
    have hnone : statements = [] := by
      rw [List.eq_nil_iff_forall_not_mem]
      intro i hi
      exact (hall i hi).1 (List.flatten_eq_nil_iff.mp hnil i hi)
    subst hnone
    exact hrepeats.words_eq_nil

/-- The parts of a model without a version. -/
lemma parts_of_model {s s' : TokenStream} {ns : String} {uri : Option String} {imports : List Import}
    {declarations : List Declaration}
    (h : model s = .ok (⟨ns, uri, none, imports, declarations⟩, s'))
    (hscanned : ∀ w ∈ s.words, w.IsScanned) :
    ∃ w nsWords importWords declarationWords,
      s.words = w :: nsWords ++ (importWords ++ declarationWords) ∧
      w.kind = .keyword .namespaceKw ∧ Word.kinds nsWords = Word.kinds (qualifiedWords ns) ∧
      IsQualifiedName ns ∧ ImportsRead importWords imports ∧
      DeclarationsRead declarationWords declarations := by
  -- the parser is taken apart; each part has words of its own, and leaves the others
  obtain ⟨v, s₁, hversion, h⟩ := Yields.exists_of_bind h
  obtain ⟨t, s₂, hkeyword, h⟩ := Yields.exists_of_bind h
  obtain ⟨name, s₃, hname, h⟩ := Yields.exists_of_bind h
  obtain ⟨statements, s₄, himports, h⟩ := Yields.exists_of_bind h
  obtain ⟨ds, s₅, hdeclarations, h⟩ := Yields.exists_of_bind h
  cases h
  have hversion' : Yields version AnyToken _ := yields_noVersion
  obtain ⟨versionTaken, hwords, hnone⟩ := hversion' s s₁ none hversion hscanned trivial
  rw [hnone rfl, List.nil_append] at hwords
  rw [hwords] at hscanned ⊢
  have hkeyword' : Yields (expect [.keyword .namespaceKw]) AnyToken _ := .expected (by simp)
  obtain ⟨_, hwords₁, rfl, hkind, -⟩ := hkeyword' s₁ s₂ t hkeyword hscanned trivial
  have hscanned₂ := isScanned_left hwords₁ hscanned
  have hkinds : Yields qualifiedName AnyToken _ := yields_qualifiedKinds
  have hqualified : Yields qualifiedName AnyToken _ := yields_qualifiedName
  obtain ⟨nsWords, hwords₂, hnsKinds⟩ := hkinds s₂ s₃ ns hname hscanned₂ trivial
  obtain ⟨-, -, -, hns⟩ := hqualified s₂ s₃ ns hname hscanned₂ trivial
  have hscanned₃ := isScanned_left hwords₂ hscanned₂
  have hstatements : Yields (many (· = .keyword .importKw) importStatement) AnyToken _ :=
    yields_importStatement.manyTells
  obtain ⟨_, hwords₃, -⟩ := hstatements s₃ s₄ statements himports hscanned₃ trivial
  have hblock := declarationsRead_of_many hdeclarations (isScanned_left hwords₃ hscanned₃)
  obtain ⟨importWords, hwords₃, himportsRead⟩ :=
    importsRead_of_many himports hscanned₃ hblock.importView_nextKind
  refine ⟨t.word, nsWords, importWords, s₄.words, ?_, by simpa using hkind, hnsKinds, hns,
    himportsRead, hblock⟩
  rw [hwords₁, hwords₂, hwords₃]
  rfl

end Parser

namespace Model

/-! ### Texts -/

/-- The words of a namespace. -/
def namespaceWords (ns : String) : List Word := .keyword .namespaceKw :: qualifiedWords ns

/-- None of them is an equals sign. -/
lemma namespaceWords_ne_equals (ns : String) :
    ∀ w ∈ namespaceWords ns, w.kind ≠ .symbol .equals := by
  obtain ⟨part, parts, hparts⟩ := List.exists_cons_of_ne_nil (Parser.nameParts_ne_nil ns)
  intro w hw
  simp only [namespaceWords, qualifiedWords, hparts, List.map_cons, separatedWords, List.mem_cons,
    List.mem_append, List.mem_flatMap, List.mem_map, List.not_mem_nil, or_false] at hw
  rcases hw with rfl | rfl | ⟨_, ⟨p, -, rfl⟩, rfl | hw⟩
  · simp
  · exact Parser.name_kind_ne_symbol part .equals
  · simp
  · rw [List.mem_singleton.mp hw]
    exact Parser.name_kind_ne_symbol p .equals

/-- After a namespace, a text has been scanned as some words. -/
def ScannedAfter (ns : String) (text : List Char) (words : List Word) : Prop :=
  ∃ place tokens stop,
    scanTokens (Context.start.pushAll (namespaceWords ns)) place text = .ok (tokens, stop) ∧
      tokens.map Token.word = words

/-- The words of a namespace in front of a line break. -/
lemma scansIn_namespace {ns : String} (h : IsQualifiedName ns)
    (hmode : (ImportMode.outside.run (Word.kinds (namespaceWords ns))).isSome) (rest : List Char) :
    ScansIn .start (("namespace " ++ ns).toList ++ '\n' :: rest) (namespaceWords ns)
      ('\n' :: rest) := by
  have hscans : Scans True (("namespace " ++ ns).toList ++ '\n' :: rest) (namespaceWords ns)
      ('\n' :: rest) := scans_namespace h (breaksLine_cons rest).endsName
  exact hscans.scansIn_of_isSome hmode

/-- What has been read leaves the mode that its own source text leaves. -/
lemma run_pushAll {context : Context} {taken spelled : List Word} {numerals : List Numeral}
    (h : StandsFor taken spelled numerals) (hrun : (context.mode.run (Word.kinds taken)).isSome) :
    context.mode.run (Word.kinds spelled) = some (context.pushAll taken).mode := by
  obtain ⟨mode, hmode⟩ := Option.isSome_iff_exists.mp hrun
  rw [h.mode _ _ hmode, Context.mode_pushAll hmode]

namespace ScannedAfter

variable {ns : String} {text : List Char} {words : List Word}

/-- The words may stand where they have been scanned. -/
lemma isSome_run (h : ScannedAfter ns text words) :
    ((Context.start.pushAll (namespaceWords ns)).mode.run (Word.kinds words)).isSome := by
  obtain ⟨place, tokens, stop, hscan, rfl⟩ := h
  exact (isScanned_of_scanTokens hscan).2

/-- The words are scanned wherever they may stand, before a line break too. -/
lemma scansIn (h : ScannedAfter ns text words) (hfirst : ∀ w ∈ words.head?, w.kind ≠ .symbol .equals)
    {context : Context} (hmode : (context.mode.run (Word.kinds words)).isSome) {rest : List Char}
    (hrest : BreaksLine rest) : ScansIn context ('\n' :: (text ++ rest)) words rest := by
  have hlast : (Context.start.pushAll (namespaceWords ns)).last ≠ some (.symbol .equals) :=
    Context.last_pushAll_ne (by simp [Context.start]) (namespaceWords_ne_equals ns)
  obtain ⟨place, tokens, stop, hscan, rfl⟩ := h
  refine .blank (by decide) (scansIn_of_scanTokens hscan hmode ?_ hrest)
  exact fun before hbefore => Context.expectsPattern_pushAll context hlast hfirst hbefore

end ScannedAfter

/-- The parts of a text that begins with a namespace. -/
lemma parts_of_parse {ns text : String} {imports : List Import} {declarations : List Declaration}
    (h : Model.parse ("namespace " ++ ns ++ "\n" ++ text) =
      .ok ⟨ns, none, none, imports, declarations⟩) :
    IsQualifiedName ns ∧ (ImportMode.outside.run (Word.kinds (namespaceWords ns))).isSome ∧
      ∃ importWords declarationWords,
        ScannedAfter ns text.toList (importWords ++ declarationWords) ∧
        Parser.ImportsRead importWords imports ∧
        Parser.DeclarationsRead declarationWords declarations := by
  obtain ⟨tokens, stop, s', hscan, hrun, hscanned⟩ := run_of_parse h
  obtain ⟨w, nsWords, importWords, declarationWords, hwords, hkind, hkinds, hns, himports,
    hdeclarations⟩ := Parser.parts_of_model hrun hscanned
  have htext : ("namespace " ++ ns ++ "\n" ++ text).toList =
      ("namespace " ++ ns).toList ++ '\n' :: text.toList := by simp
  have hsame : Word.kinds (w :: nsWords) = Word.kinds (namespaceWords ns) := by
    rw [namespaceWords, Word.kinds_cons, Word.kinds_cons, hkind, hkinds]
    rfl
  -- the words of a text that is read are admitted one after another
  have hmode : (ImportMode.outside.run (Word.kinds (namespaceWords ns))).isSome := by
    obtain ⟨mode, hmode⟩ := isSome_run_of_scanTokens hscan hwords
    rw [← hsame, hmode]
    rfl
  refine ⟨hns, hmode, importWords, declarationWords, ?_, himports, hdeclarations⟩
  -- the tokens of the whole text are those of the namespace and those of what follows it
  obtain ⟨place, head, hhead, heq⟩ := scansIn_namespace hns hmode text.toList .start
  rw [htext, heq] at hscan
  cases hrest : scanTokens (Context.start.pushAll (namespaceWords ns)) place
      ('\n' :: text.toList) with
  | error e =>
      rw [hrest] at hscan
      cases hscan
  | ok scanned =>
      obtain ⟨others, stop'⟩ := scanned
      rw [hrest] at hscan
      cases hscan
      rw [scanTokens_blank _ place (by decide)] at hrest
      refine ⟨_, others, stop', hrest, ?_⟩
      have happend : namespaceWords ns ++ others.map Token.word =
          w :: nsWords ++ (importWords ++ declarationWords) := by
        rw [← hwords, ← hhead]
        simp [TokenStream.words]
      have hlength : (namespaceWords ns).length = (w :: nsWords).length := by
        simpa [Word.kinds] using congrArg List.length hsame.symm
      exact (List.append_inj happend hlength).2

/-- A block of imports. -/
lemma exists_imports_of_parse {ns text : String} {imports : List Import}
    (h : Model.parse ("namespace " ++ ns ++ "\n" ++ text) = .ok ⟨ns, none, none, imports, []⟩) :
    ∃ words, ScannedAfter ns text.toList words ∧ Parser.ImportsRead words imports := by
  obtain ⟨-, -, words, declarationWords, hscanned, himports, hdeclarations⟩ := parts_of_parse h
  have hnone : declarationWords = [] := hdeclarations.heads
  rw [hnone, List.append_nil] at hscanned
  exact ⟨words, hscanned, himports⟩

/-- A block of declarations. -/
lemma exists_declarations_of_parse {ns text : String} {declarations : List Declaration}
    (h : Model.parse ("namespace " ++ ns ++ "\n" ++ text) = .ok ⟨ns, none, none, [], declarations⟩) :
    ∃ words, ScannedAfter ns text.toList words ∧ Parser.DeclarationsRead words declarations := by
  obtain ⟨-, -, importWords, words, hscanned, himports, hdeclarations⟩ := parts_of_parse h
  rw [himports.nil rfl, List.nil_append] at hscanned
  exact ⟨words, hscanned, hdeclarations⟩

/-- A text whose words have been read part by part denotes the model of these parts. -/
lemma parse_of_parts {ns : String} (hns : IsQualifiedName ns) {importWords declarationWords : List Word}
    {imports : List Import} {declarations : List Declaration}
    (himports : Parser.ImportsRead importWords imports)
    (hdeclarations : Parser.DeclarationsRead declarationWords declarations) {source : String}
    {tokens : List Token} {stop : Place}
    (hscan : scanTokens .start .start source.toList = .ok (tokens, stop))
    (hwords : tokens.map Token.word = namespaceWords ns ++ (importWords ++ declarationWords)) :
    Model.parse source = .ok ⟨ns, none, none, imports, declarations⟩ := by
  obtain ⟨statements, rfl, hrepeats⟩ := himports.repeats
  have hstatements : Parser.Reads (Parser.many (· = .keyword .importKw) Parser.importStatement)
      importWords (· = statements) Parser.AfterImports := by
    refine hrepeats.reads fun k hk => ⟨by simpa using hk.ne.1, ?_⟩
    rw [Parser.importView_eq_eof]
    rcases hk with rfl | hk
    · rfl
    · simp [Parser.endsImport, hk]
  have hbegins : ∀ w ∈ importWords.head?, w.kind = .keyword .importKw :=
    fun w hw => of_decide_eq_true (hrepeats.continues_head w hw)
  have hreads := Parser.reads_model_parts none hns hstatements
    (hdeclarations.repeats.reads fun k hk => ⟨by simp [hk], rfl⟩) hbegins hdeclarations.heads.begins
  exact parse_of_reads hreads hscan hwords

/-- The words of a model are those of its parts. -/
lemma words_parts (ns : String) (imports : List Import) (declarations declarations' : List Declaration) :
    words ⟨ns, none, none, imports, declarations ++ declarations'⟩ =
      namespaceWords ns ++ (imports.flatMap Import.words ++
        (declarations.flatMap Declaration.words ++ declarations'.flatMap Declaration.words)) := by
  simp [words, versionWords, namespaceWords]

/-- An import block and two declaration blocks have been read, each right after the namespace. One
after another they are read as the imports and the declarations of all of them if and only if, in
the source text of the result, no `from` in an import is taken for the one before a location. -/
theorem parse_blocks_iff {ns importBlock block block' : String} {imports : List Import}
    {declarations declarations' : List Declaration}
    (himports : Model.parse ("namespace " ++ ns ++ "\n" ++ importBlock) =
      .ok ⟨ns, none, none, imports, []⟩)
    (hblock : Model.parse ("namespace " ++ ns ++ "\n" ++ block) =
      .ok ⟨ns, none, none, [], declarations⟩)
    (hblock' : Model.parse ("namespace " ++ ns ++ "\n" ++ block') =
      .ok ⟨ns, none, none, [], declarations'⟩) :
    Model.parse ("namespace " ++ ns ++ "\n" ++ importBlock ++ "\n" ++ block ++ "\n" ++ block') =
        .ok ⟨ns, none, none, imports, declarations ++ declarations'⟩ ↔
      (ImportMode.outside.run (Word.kinds
        (words ⟨ns, none, none, imports, declarations ++ declarations'⟩))).isSome := by
  constructor
  -- if the whole is read, the words of the result are admitted like those that were read
  · intro h
    obtain ⟨tokens, stop, taken, rest, hscan, hwords, hread⟩ := exists_of_parse h
    obtain ⟨mode, hmode⟩ := isSome_run_of_scanTokens hscan hwords
    rw [hread.standsFor.mode _ _ hmode]
    rfl
  intro h
  -- each block has been read by itself, after the namespace and in the mode that this one leaves
  obtain ⟨hns, hnsRun, -⟩ := parts_of_parse himports
  obtain ⟨importWords, hscanned, himports⟩ := exists_imports_of_parse himports
  obtain ⟨blockWords, hscanned₁, hblock⟩ := exists_declarations_of_parse hblock
  obtain ⟨blockWords', hscanned₂, hblock'⟩ := exists_declarations_of_parse hblock'
  -- the contexts after the namespace, after the imports and after the first block
  set c₀ := Context.start.pushAll (namespaceWords ns) with hc₀
  set c₁ := c₀.pushAll importWords with hc₁
  set c₂ := c₁.pushAll blockWords with hc₂
  have hstart : Context.start.mode.run (Word.kinds (namespaceWords ns)) = some c₀.mode := by
    obtain ⟨mode, hmode⟩ := Option.isSome_iff_exists.mp hnsRun
    have hmode : Context.start.mode.run (Word.kinds (namespaceWords ns)) = some mode := hmode
    rw [hmode, hc₀, Context.mode_pushAll hmode]
  have hrun₀ : (c₀.mode.run (Word.kinds importWords)).isSome := hscanned.isSome_run
  -- so the words of each block are admitted where it stands now
  have h₁ : (c₁.mode.run (Word.kinds (declarations.flatMap Declaration.words ++
      declarations'.flatMap Declaration.words))).isSome := by
    have hstart : ImportMode.outside.run (Word.kinds (namespaceWords ns)) = some c₀.mode := hstart
    rwa [words_parts, Word.kinds_append, ImportMode.run_append, hstart, Option.bind_some,
      Word.kinds_append, ImportMode.run_append, run_pushAll himports.standsFor hrun₀,
      Option.bind_some] at h
  rw [Word.kinds_append, ImportMode.run_append] at h₁
  have hrun₁ : (c₁.mode.run (Word.kinds blockWords)).isSome :=
    isSome_run_of_words hblock.standsFor hblock.heads hblock.spellable hscanned₁.isSome_run
      (Option.isSome_of_isSome_bind h₁)
  rw [run_pushAll hblock.standsFor hrun₁, Option.bind_some] at h₁
  have hrun₂ : (c₂.mode.run (Word.kinds blockWords')).isSome :=
    isSome_run_of_words hblock'.standsFor hblock'.heads hblock'.spellable hscanned₂.isSome_run h₁
  -- the words of the blocks are scanned in these contexts
  have hscan : ScansIn .start
      (("namespace " ++ ns).toList ++ '\n' :: (importBlock.toList ++ '\n' :: (block.toList ++
        '\n' :: (block'.toList ++ []))))
      (namespaceWords ns ++ (importWords ++ (blockWords ++ blockWords'))) [] :=
    (scansIn_namespace hns hnsRun _).trans
      ((hscanned.scansIn himports.head_ne_equals hrun₀ (breaksLine_cons _)).trans
        ((hscanned₁.scansIn hblock.head_ne_equals hrun₁ (breaksLine_cons _)).trans
          (hscanned₂.scansIn hblock'.head_ne_equals hrun₂ breaksLine_nil)))
  obtain ⟨tokens, stop, hwords, hscan⟩ := hscan.scanTokens_eq .start
  exact parse_of_parts hns himports (hblock.append hblock') (by simpa using hscan) hwords

/-- A concept that is identified by a property named `from`. -/
def identifiedByFrom : Declaration :=
  .concept ⟨.concept, ⟨"C", none, none⟩, false, some (.byProperty "from"), none, []⟩

/-- An enumeration with a decorator and a value named `import`. -/
def importValued : Declaration :=
  .enumeration ⟨⟨"E", some [⟨"d", none, none⟩], none⟩, [⟨"import", none, none⟩]⟩

/-- After an import with a location, a concept may be identified by a property named `from`. -/
theorem parse_blocks_iff_sample :
    Model.parse ("namespace " ++ "n" ++ "\n" ++ "import a.B from u:1 // c") =
      .ok ⟨"n", none, none, [.type "a" "B" (some "u:1")], []⟩ ∧
    Model.parse ("namespace " ++ "n" ++ "\n" ++ "concept C identified by from \x7b\x7d") =
      .ok ⟨"n", none, none, [], [identifiedByFrom]⟩ ∧
    Model.parse ("namespace " ++ "n" ++ "\n" ++ "@d enum E \x7bo import\x7d") =
      .ok ⟨"n", none, none, [], [importValued]⟩ ∧
    (Model.parse ("namespace " ++ "n" ++ "\n" ++ "import a.B from u:1 // c" ++ "\n" ++
        "concept C identified by from \x7b\x7d" ++ "\n" ++ "@d enum E \x7bo import\x7d") =
        .ok ⟨"n", none, none, [.type "a" "B" (some "u:1")], [identifiedByFrom] ++ [importValued]⟩ ↔
      (ImportMode.outside.run (Word.kinds (words
        ⟨"n", none, none, [.type "a" "B" (some "u:1")], [identifiedByFrom] ++ [importValued]⟩))).isSome) ∧
    (ImportMode.outside.run (Word.kinds (words
      ⟨"n", none, none, [.type "a" "B" (some "u:1")], [identifiedByFrom] ++ [importValued]⟩))).isSome := by
  have himports : Model.parse ("namespace " ++ "n" ++ "\n" ++ "import a.B from u:1 // c") =
      .ok ⟨"n", none, none, [.type "a" "B" (some "u:1")], []⟩ := by decide +kernel
  have hblock : Model.parse ("namespace " ++ "n" ++ "\n" ++ "concept C identified by from \x7b\x7d") =
      .ok ⟨"n", none, none, [], [identifiedByFrom]⟩ := by decide +kernel
  have hblock' : Model.parse ("namespace " ++ "n" ++ "\n" ++ "@d enum E \x7bo import\x7d") =
      .ok ⟨"n", none, none, [], [importValued]⟩ := by decide +kernel
  exact ⟨himports, hblock, hblock', parse_blocks_iff himports hblock hblock', by decide +kernel⟩

/-- After an import without a location, the block of such a concept is not read any more: the brace
after the name is taken for the location. -/
theorem parse_blocks_identifiedByFrom :
    Model.parse ("namespace " ++ "n" ++ "\n" ++ "import a.B") =
      .ok ⟨"n", none, none, [.type "a" "B" none], []⟩ ∧
    Model.parse ("namespace " ++ "n" ++ "\n" ++ "concept C identified by from \x7b\x7d") =
      .ok ⟨"n", none, none, [], [identifiedByFrom]⟩ ∧
    Model.parse ("namespace " ++ "n" ++ "\n" ++ "") = .ok ⟨"n", none, none, [], []⟩ ∧
    Model.parse ("namespace " ++ "n" ++ "\n" ++ "import a.B" ++ "\n" ++
      "concept C identified by from \x7b\x7d" ++ "\n" ++ "") =
      .error (.grammar ⟨.expected [.symbol .openBrace] "\x7b\x7d", ⟨3, 30⟩⟩) := by
  exact ⟨by decide +kernel, by decide +kernel, by decide +kernel, by decide +kernel⟩

end Model

end Concerto
