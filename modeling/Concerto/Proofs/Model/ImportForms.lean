import Concerto.Proofs.Model.Composition
import Concerto.Proofs.Token.Insertion

/-!
Namespaces in imports.

* `insideAfter`: what the scanner makes of the parts of a namespace that are keywords;
* `ImportForm`: the forms of import statements, with their texts, words and imports;
* `Model.parse_import_iff`: when a text with a namespace and one import statement is read as such.

Some keywords open and close imports for the scanner wherever they stand, in a namespace too.
-/

namespace Concerto

/-! ### Names in imports -/

/-- Whether the scanner takes itself to be inside of an import after some parts of a name, if `inside`
tells so before them. A part `from` inside of an import is taken for the word before a location, and
then there is no answer. -/
def insideAfter (inside : Bool) : List String → Option Bool
  | [] => some inside
  | part :: parts =>
    if part = "import" then insideAfter true parts
    else if part = "namespace" ∨ part = "o" then insideAfter false parts
    else if part = "from" ∧ inside then none
    else insideAfter inside parts

lemma insideAfter_cons (inside : Bool) (part : String) (parts : List String) :
    insideAfter inside (part :: parts) =
      (insideAfter inside [part]).bind fun inside' => insideAfter inside' parts := by
  simp only [insideAfter]
  split
  · rfl
  split
  · rfl
  split <;> rfl

/-- The mode inside or outside of an import. -/
def ImportMode.ofInside (inside : Bool) : ImportMode := if inside then .inside else .outside

/-- How a name changes the mode. -/
lemma ImportMode.next_name (mode : ImportMode) (part : String) :
    mode.next (Word.name part).kind =
      if part = "import" then .inside
      else if part = "namespace" ∨ part = "o" then .outside
      else if mode = .outside then .outside
      else if part = "from" then .afterFrom
      else .inside := by
  -- the three keywords that matter are compared by their texts; any other word is none of them
  cases hk : Keyword.ofText? part with
  | none =>
      have hne : ∀ k : Keyword, part ≠ k.text := by
        rintro k rfl
        simp [Keyword.ofText?_text] at hk
      have himport := hne .importKw
      have hnamespace := hne .namespaceKw
      have hproperty := hne .propertyKw
      have hfrom := hne .fromKw
      simp only [Keyword.text] at himport hnamespace hproperty hfrom
      simp [Word.name_of_none hk, next, himport, hnamespace, hproperty, hfrom]
  | some k =>
      obtain rfl := Keyword.text_of_ofText? hk
      rw [← Word.keyword_eq_name]
      cases k with
      | conceptKw kind => cases kind <;> simp [next, Keyword.text, ConceptKind.word]
      | _ => simp [next, Keyword.text]

lemma kind_name_ne_uri (part : String) : (Word.name part).kind ≠ .uri := by
  unfold Word.name
  split <;> simp

/-- A part of a name, before a word that is no location. -/
lemma ImportMode.run_part {mode : ImportMode} (hmode : mode ≠ .afterFrom) (part : String)
    {kind : TokenKind} (hkind : kind ≠ .uri) (kinds : List TokenKind) :
    mode.run ((Word.name part).kind :: kind :: kinds) =
      (insideAfter (mode ≠ .outside) [part]).bind fun inside =>
        (ofInside inside).run (kind :: kinds) := by
  have hadmits : mode.admits (Word.name part).kind = true := by
    simp [admits, hmode, kind_name_ne_uri]
  -- after `from` no other word than a location is admitted
  have hafterFrom : afterFrom.run (kind :: kinds) = none := by simp [run, admits, hkind]
  rw [run, if_pos hadmits, next_name]
  simp only [insideAfter]
  by_cases himport : part = "import"
  · simp [himport, ofInside]
  by_cases hboundary : part = "namespace" ∨ part = "o"
  · simp [himport, hboundary, ofInside]
  by_cases houtside : mode = .outside
  · simp [himport, hboundary, houtside, ofInside]
  by_cases hfrom : part = "from"
  · simp [hfrom, houtside, hafterFrom]
  · simp [himport, hboundary, houtside, hfrom, ofInside]

/-- A name with dots, before a word that is no location. -/
lemma ImportMode.run_parts {mode : ImportMode} (hmode : mode ≠ .afterFrom) (part : String)
    (parts : List String) {kind : TokenKind} (hkind : kind ≠ .uri) (kinds : List TokenKind) :
    mode.run (Word.kinds (separatedWords .dot ((part :: parts).map fun p => [.name p])) ++
        kind :: kinds) =
      (insideAfter (mode ≠ .outside) (part :: parts)).bind fun inside =>
        (ofInside inside).run (kind :: kinds) := by
  induction parts generalizing mode part with
  | nil => exact run_part hmode part hkind kinds
  | cons next parts ih =>
      have hwords : Word.kinds (separatedWords .dot ((part :: next :: parts).map fun p => [.name p])) =
          (Word.name part).kind :: .symbol .dot ::
            Word.kinds (separatedWords .dot ((next :: parts).map fun p => [.name p])) := by
        simp [separatedWords]
      rw [hwords, List.cons_append, List.cons_append, run_part hmode part (by simp),
        insideAfter_cons _ part (next :: parts)]
      -- a part that ends with `from` fails; otherwise the dot leaves the import as it is
      cases insideAfter (mode ≠ .outside) [part] with
      | none => rfl
      | some inside =>
          have houtside : outside ≠ afterFrom := by simp
          have hdot : afterDot ≠ afterFrom := by simp
          cases inside with
          | false => exact ih houtside next
          | true => exact ih hdot next

/-- The same of a name as a whole. -/
lemma ImportMode.run_qualifiedWords {mode : ImportMode} (hmode : mode ≠ .afterFrom) (name : String)
    {kind : TokenKind} (hkind : kind ≠ .uri) (kinds : List TokenKind) :
    mode.run (Word.kinds (qualifiedWords name) ++ kind :: kinds) =
      (insideAfter (mode ≠ .outside) (nameParts name)).bind fun inside =>
        (ofInside inside).run (kind :: kinds) := by
  obtain ⟨part, parts, hparts⟩ := List.exists_cons_of_ne_nil (Parser.nameParts_ne_nil name)
  rw [qualifiedWords, hparts]
  exact run_parts hmode part parts hkind kinds

/-! ### Forms of imports -/

/-- What an import names after the last dot: all declarations, one of them, or one of them in
braces. -/
inductive ImportForm where
  | all
  | single (name : String)
  | braced (name : String)

namespace ImportForm

/-- The form as it is written. -/
def text : ImportForm → String
  | all => "*"
  | single name => name
  | braced name => "\x7b" ++ name ++ "\x7d"

/-- The words of the form. -/
def words : ImportForm → List Word
  | all => [.symbol .star]
  | single name => [.name name]
  | braced name => [.symbol .openBrace, .name name, .symbol .closeBrace]

/-- The import of this form from a namespace. -/
def toImport (ns : String) (uri : Option String) : ImportForm → Import
  | all => .all ns uri
  | single name | braced name => .type ns name uri

/-- The name is one of a declaration. -/
def IsSpellable : ImportForm → Prop
  | all => True
  | single name | braced name => IsTypeName name

/-- The import statement of this form. -/
def statement (ns : String) (uri : Option String) (form : ImportForm) : String :=
  "import " ++ ns ++ "." ++ form.text ++ Import.toSource.location uri

/-- The words of the import statement. -/
def statementWords (ns : String) (uri : Option String) (form : ImportForm) : List Word :=
  .keyword .importKw :: qualifiedWords ns ++ .symbol .dot :: form.words ++ Import.locationWords uri

/-- The statement has the words of an import, but for braces. -/
lemma exists_words_toImport (form : ImportForm) (ns : String) (uri : Option String)
    (h : form.IsSpellable) :
    ∃ form' : ImportForm, form'.IsSpellable ∧
      (form.toImport ns uri).words = form'.statementWords ns uri := by
  cases form with
  | all => exact ⟨all, h, by simp [toImport, Import.words, statementWords, words]⟩
  | single name => exact ⟨single name, h, by simp [toImport, Import.words, statementWords, words]⟩
  | braced name => exact ⟨single name, h, by simp [toImport, Import.words, statementWords, words]⟩

/-- What stands after the last dot leaves the mode inside or outside of an import. -/
lemma run_words {form : ImportForm} (h : form.IsSpellable) (inside : Bool) (kinds : List TokenKind) :
    (ImportMode.ofInside inside).run (.symbol .dot :: (Word.kinds form.words ++ kinds)) =
      (ImportMode.ofInside inside).run kinds := by
  cases form with
  | all => cases inside <;> rfl
  | single | braced =>
      have hkind := Parser.kind_of_isTypeName h
      cases inside <;> simp [words, hkind] <;> rfl

/-- A location may stand only inside of an import. -/
lemma isSome_run_locationWords (inside : Bool) (uri : Option String) :
    ((ImportMode.ofInside inside).run (Word.kinds (Import.locationWords uri))).isSome ↔
      (uri.isSome → inside = true) := by
  cases uri with
  | none => simp [Import.locationWords, ImportMode.run]
  | some u => cases inside <;> simp [Import.locationWords] <;> rfl

/-- An import statement may stand where no location is expected, unless a part of its namespace is taken
for the word before a location, or ends the import before the location. -/
lemma isSome_run_statementWords {mode : ImportMode} (hmode : mode ≠ .afterFrom) {form : ImportForm}
    (h : form.IsSpellable) (ns : String) (uri : Option String) :
    (mode.run (Word.kinds (form.statementWords ns uri))).isSome ↔
      ∃ inside, insideAfter true (nameParts ns) = some inside ∧ (uri.isSome → inside = true) := by
  have hinside : ImportMode.inside ≠ .afterFrom := by simp
  have hkinds : Word.kinds (form.statementWords ns uri) = .keyword .importKw ::
      (Word.kinds (qualifiedWords ns) ++ .symbol .dot ::
        (Word.kinds form.words ++ Word.kinds (Import.locationWords uri))) := by
    simp [statementWords]
  have hadmits : mode.admits (.keyword .importKw) = true := by simp [ImportMode.admits, hmode]
  rw [hkinds, ImportMode.run, if_pos hadmits]
  show (ImportMode.inside.run _).isSome ↔ _
  rw [ImportMode.run_qualifiedWords hinside ns (by simp)]
  simp only [run_words h, Option.isSome_bind, Option.any_eq_true, isSome_run_locationWords]
  rfl

/-- So may the import after a namespace, unless a part of that one is taken for the word before a
location. -/
lemma isSome_run_headed {form : ImportForm} (h : form.IsSpellable) (ns ns' : String)
    (uri : Option String) :
    (ImportMode.outside.run
        (Word.kinds (Model.namespaceWords ns ++ form.statementWords ns' uri))).isSome ↔
      (insideAfter false (nameParts ns)).isSome ∧
        ∃ inside, insideAfter true (nameParts ns') = some inside ∧ (uri.isSome → inside = true) := by
  have houtside : ImportMode.outside ≠ .afterFrom := by simp
  have hnext : ∀ inside, ImportMode.ofInside inside ≠ .afterFrom := by decide
  have hstatement := fun inside => isSome_run_statementWords (hnext inside) h ns' uri
  have hkinds : Word.kinds (Model.namespaceWords ns ++ form.statementWords ns' uri) =
      .keyword .namespaceKw :: (Word.kinds (qualifiedWords ns) ++
        Word.kinds (form.statementWords ns' uri)) := by
    simp [Model.namespaceWords]
  have hnamespace : ∀ kinds, ImportMode.outside.run (.keyword .namespaceKw :: kinds) =
      ImportMode.outside.run kinds := fun _ => rfl
  rw [hkinds, hnamespace]
  obtain ⟨others, hothers⟩ : ∃ others, Word.kinds (form.statementWords ns' uri) =
      .keyword .importKw :: others := ⟨_, rfl⟩
  rw [hothers] at hstatement ⊢
  rw [ImportMode.run_qualifiedWords houtside ns (by simp)]
  -- the namespace leaves an import open or not; the statement opens one anyway
  cases hinside : insideAfter false (nameParts ns) with
  | none => simp [hinside]
  | some inside => simpa [hinside] using hstatement inside

variable {sure : Prop} {ns : String} {uri : Option String} {form : ImportForm}

/-- The statement is scanned. -/
lemma scans_statement (hns : IsQualifiedName ns) (hform : form.IsSpellable)
    (huri : ∀ u ∈ uri, IsLocation u) {rest : List Char} (hrest : BreaksLine rest) :
    Scans sure ((form.statement ns uri).toList ++ rest) (form.statementWords ns uri) rest := by
  have hblank : ∀ c ∈ rest.head?, Text.isBlank c = true := by
    intro c hc
    rw [hrest c hc]
    decide
  have hend := endsName_location uri hrest.endsName
  refine scans_importStatement hns huri hblank ?_
  -- whatever the form ends with is followed by the location or a line break
  cases form with
  | all => exact Scans.symbol .star
  | single name => exact scans_name hform.1 hend
  | braced name =>
      have hbrace : EndsName (Symbol.closeBrace.text.toList ++
          ((Import.toSource.location uri).toList ++ rest)) :=
        endsName_cons (c := '\x7d') (by simp [delimiters]) _
      have hscan : Scans sure _ _ _ := (Scans.symbol .openBrace).trans
        ((scans_name hform.1 hbrace).trans (Scans.symbol .closeBrace))
      simpa [text, words, Symbol.text] using hscan

end ImportForm

namespace Parser

/-- A name in braces. -/
lemma reads_importPart_braces {F : TokenKind → Prop} (parts : List String) {name : String}
    (h : IsTypeName name) :
    Reads (importPart ⟨parts, none⟩) (.symbol .dot :: (ImportForm.braced name).words)
      (· = ⟨parts, some (some [name])⟩) F := by
  have hnames : Reads (separatedBy .comma typeName) [.name name] (· = [name])
      (· = .symbol .closeBrace) := by
    have hlist : Reads (separatedBy .comma typeName) _ _ (· = .symbol .closeBrace) :=
      Reads.separatedBy (F := Anything) name [] (fun n => [Word.name n]) id
        (fun n hn => by
          rw [List.mem_singleton.mp hn]
          exact reads_typeName h) trivial
        fun k hk => ⟨by simp [hk], trivial⟩
    simpa using hlist
  refine .bind_cons (.symbol .dot) fun _ _ => ?_
  refine .takeSymbol_skip (by simp) ?_
  refine .takeSymbol_cons ?_
  refine .bind hnames (fun names hnames => ?_) fun _ _ => rfl
  rw [hnames]
  exact .bind_nil (.symbol .closeBrace) fun _ _ => .pure rfl

/-- The statement is read as its import. -/
lemma reads_statement {ns : String} {uri : Option String} {form : ImportForm} (hns : IsQualifiedName ns)
    (hform : form.IsSpellable) (huri : ∀ u ∈ uri, IsLocation u) :
    Reads importStatement (form.statementWords ns uri) (· = [form.toImport ns uri]) AfterImport := by
  cases form with
  | all => exact reads_importStatement (i := .all ns uri) ⟨hns, huri⟩
  | single name => exact reads_importStatement (i := .type ns name uri) ⟨hns, hform.1, huri⟩
  | braced name =>
      refine reads_importHead (G := Anything) hns (fun parts => reads_importPart_braces parts hform)
        (fun _ _ _ => rfl) (fun keyword => ?_) fun _ _ => trivial
      refine reads_location uri (fun k hk => hk.2) (f := fun uri =>
        Pure.pure [Import.type (joinName (nameParts ns)) name uri]) (.pure ?_)
      rw [joinName_nameParts]
      rfl

/-- The statement is read as the only one of a text. -/
lemma reads_statements {ns : String} {uri : Option String} {form : ImportForm}
    (hns : IsQualifiedName ns) (hform : form.IsSpellable) (huri : ∀ u ∈ uri, IsLocation u) :
    Reads (many (· = .keyword .importKw) importStatement) (form.statementWords ns uri)
      (· = [[form.toImport ns uri]]) AfterImports := by
  have hstatements : Reads (many (· = .keyword .importKw) importStatement) _ _ AfterImports :=
    Reads.many (F := AfterImport) [form] (fun f => f.statementWords ns uri)
      (fun f => [f.toImport ns uri]) (fun f hf => by
        rw [List.mem_singleton.mp hf]
        exact ⟨reads_statement hns hform huri, _, _, rfl, rfl, by simp [AfterImport]⟩)
      fun k hk => ⟨by simpa using hk.ne.1, hk.ne.2⟩
  simpa using hstatements

end Parser

namespace Model

/-- The namespace of a text is a name with dots. -/
lemma isQualifiedName_of_parse {source : String} {m : Model} (h : Model.parse source = .ok m) :
    IsQualifiedName m.ns := by
  obtain ⟨_, _, _, _, -, -, hread⟩ := exists_of_parse h
  exact hread.ns

/-- A namespace and an import statement are scanned, whatever blanks and comments are between them. -/
lemma scansIn_headed {ns ns' : String} {uri : Option String} {form : ImportForm} {gap : List Char}
    (hns : IsQualifiedName ns) (hns' : IsQualifiedName ns') (hform : form.IsSpellable)
    (huri : ∀ u ∈ uri, IsLocation u) (hgap : IsGap False gap) (hne : gap ≠ [])
    (hrun : (ImportMode.outside.run
      (Word.kinds (namespaceWords ns ++ form.statementWords ns' uri))).isSome)
    {ending : List Char} (hending : ending = [] ∨ ending = ['\n']) :
    ScansIn .start (("namespace " ++ ns).toList ++ (gap ++ ((form.statement ns' uri).toList ++ ending)))
      (namespaceWords ns ++ form.statementWords ns' uri) [] := by
  -- the modes of the whole text are those of the namespace, and from there on those of the
  -- statement
  obtain ⟨mode, hmode⟩ := Option.isSome_iff_exists.mp hrun
  rw [Word.kinds_append, ImportMode.run_append] at hmode
  obtain ⟨mode₁, hmode₁, hmode⟩ := Option.bind_eq_some_iff.mp hmode
  have hmode₁ : Context.start.mode.run (Word.kinds (namespaceWords ns)) = some mode₁ := hmode₁
  have hnamespace : Scans True (("namespace " ++ ns).toList ++ _) (namespaceWords ns) _ :=
    scans_namespace hns (hgap.endsToken hne ((form.statement ns' uri).toList ++ ending)).endsName
  refine (hnamespace.scansIn_of_isSome (by rw [hmode₁]; rfl)).trans (.gap (hgap.spanGap_append _) ?_)
  rw [← Context.mode_pushAll hmode₁] at hmode
  have hbreaks : BreaksLine ending := by
    rcases hending with rfl | rfl
    · exact breaksLine_nil
    · exact breaksLine_cons []
  have hstatement : Scans True _ (form.statementWords ns' uri) ending :=
    ImportForm.scans_statement hns' hform huri hbreaks
  have hend : ∀ context, ScansIn context ending [] [] := by
    intro context
    rcases hending with rfl | rfl
    · exact .refl []
    · exact .blank (by decide) (.refl [])
  have hwords := (hstatement.scansIn_of_isSome (by rw [hmode]; rfl)).trans (hend _)
  rwa [List.append_nil] at hwords

/-- A text that consists of a namespace and an import statement denotes the model with this import if
and only if no part of either namespace is taken for the word before a location and the import is
still open before its location, if it has one. -/
theorem parse_import_iff {ns ns' : String} {uri : Option String} {form : ImportForm}
    {gap ending : String} (hns : ∃ m, Model.parse ("namespace " ++ ns) = .ok m ∧ m.ns = ns)
    (hns' : ∃ m, Model.parse ("namespace " ++ ns') = .ok m ∧ m.ns = ns') (hform : form.IsSpellable)
    (huri : ∀ u ∈ uri, IsLocation u) (hgap : IsGap False gap.toList) (hne : gap ≠ "")
    (hending : ending = "" ∨ ending = "\n") :
    Model.parse ("namespace " ++ ns ++ gap ++ form.statement ns' uri ++ ending) =
        .ok ⟨ns, none, none, [form.toImport ns' uri], []⟩ ↔
      (insideAfter false (nameParts ns)).isSome ∧
        ∃ inside, insideAfter true (nameParts ns') = some inside ∧ (uri.isSome → inside = true) := by
  constructor
  -- the words of a text that is read are admitted one after another
  · intro h
    obtain ⟨tokens, stop, taken, rest, hscan, hwords, hread⟩ := exists_of_parse h
    obtain ⟨mode, hmode⟩ := isSome_run_of_scanTokens hscan hwords
    obtain ⟨form', hform', hsame⟩ := form.exists_words_toImport ns' uri hform
    have hparts : words ⟨ns, none, none, [form.toImport ns' uri], []⟩ =
        namespaceWords ns ++ (form.toImport ns' uri).words := by
      simpa using words_parts ns [form.toImport ns' uri] [] []
    rw [← ImportForm.isSome_run_headed hform' ns ns' uri, ← hsame, ← hparts,
      hread.standsFor.mode _ _ hmode]
    rfl
  -- both namespaces are names with dots, as they are read; admitted words are scanned and read
  · intro h
    obtain ⟨m, hparse, rfl⟩ := hns
    obtain ⟨m', hparse', rfl⟩ := hns'
    have hns := isQualifiedName_of_parse hparse
    have hns' := isQualifiedName_of_parse hparse'
    have hrun := (ImportForm.isSome_run_headed hform m.ns m'.ns uri).mpr h
    have hend : ending.toList = [] ∨ ending.toList = ['\n'] := by
      rcases hending with rfl | rfl
      · exact .inl rfl
      · exact .inr rfl
    have hscan := scansIn_headed hns hns' hform huri hgap (by simpa using hne) hrun hend
    obtain ⟨tokens, stop, hwords, hscan⟩ := hscan.scanTokens_eq .start
    have hreads := Parser.reads_model_parts none hns
      (Parser.reads_statements hns' hform huri) (.many_nil fun k hk => by simp [hk])
      (fun w hw => by rw [← Option.some.inj hw]; rfl) (by simp)
    refine parse_of_reads hreads (by simpa using hscan) (hwords.trans ?_)
    simp [namespaceWords, versionWords]

/-- A namespace with a part `o` that ends the import and a part `import` that opens one again. -/
theorem parse_import_iff_sample :
    (∃ m, Model.parse ("namespace " ++ "a") = .ok m ∧ m.ns = "a") ∧
    (∃ m, Model.parse ("namespace " ++ "o.import") = .ok m ∧ m.ns = "o.import") ∧
    (ImportForm.braced "X").IsSpellable ∧ (∀ u ∈ some "u:1", IsLocation u) ∧
    IsGap False " /**/".toList ∧ " /**/" ≠ "" ∧ ("\n" = "" ∨ "\n" = "\n") ∧
    (Model.parse ("namespace " ++ "a" ++ " /**/" ++
        ImportForm.statement "o.import" (some "u:1") (.braced "X") ++ "\n") =
        .ok ⟨"a", none, none, [ImportForm.toImport "o.import" (some "u:1") (.braced "X")], []⟩ ↔
      (insideAfter false (nameParts "a")).isSome ∧
        ∃ inside, insideAfter true (nameParts "o.import") = some inside ∧
          ((some "u:1").isSome → inside = true)) := by
  have hns : ∃ m, Model.parse ("namespace " ++ "a") = .ok m ∧ m.ns = "a" :=
    ⟨⟨"a", none, none, [], []⟩, by decide +kernel, rfl⟩
  have hns' : ∃ m, Model.parse ("namespace " ++ "o.import") = .ok m ∧ m.ns = "o.import" :=
    ⟨⟨"o.import", none, none, [], []⟩, by decide +kernel, rfl⟩
  have hform : (ImportForm.braced "X").IsSpellable := by
    show IsTypeName "X"
    decide +kernel
  have huri : ∀ u ∈ some "u:1", IsLocation u := by
    rintro _ ⟨⟩
    have hall : "u:1".toList.all (!Text.isBlank ·) = true := by decide +kernel
    exact ⟨by decide, fun c hc => by simpa using List.all_eq_true.mp hall c hc, by decide⟩
  have hcomment : IsGap False (' ' :: ('/' :: '*' :: [] ++ '*' :: '/' :: [])) :=
    .blank (by decide) (.block (by decide) .nil)
  have hgap : IsGap False " /**/".toList := hcomment
  exact ⟨hns, hns', hform, huri, hgap, by decide, .inr rfl,
    parse_import_iff hns hns' hform huri hgap (by decide) (.inr rfl)⟩

/-- The namespace `a.from` can be declared, but no declaration of it can be imported: what follows
`from` is taken for the location of an import. -/
theorem parse_import_fromSegment :
    Model.parse ("namespace " ++ "a.from") = .ok ⟨"a.from", none, none, [], []⟩ ∧ IsTypeName "X" ∧
    Model.parse ("namespace " ++ "n" ++ "\n" ++ ImportForm.statement "a.from" none (.single "X") ++
      "\n") = .error (.grammar ⟨.unexpectedAtTopLevel ".X", ⟨2, 14⟩⟩) := by
  exact ⟨by decide +kernel, by decide +kernel, by decide +kernel⟩

end Model

end Concerto
