import Concerto.Proofs.Model.PropertySoundness

/-!
What a model that has been read is like.

* `Parser.yields_declaration`: a declaration with its clauses in either order;
* `Parser.ReadModel`: a model that source text can tell, which is its own source form;
* `Model.exists_of_parse`: a model that a text denotes is one.
-/

namespace Concerto

namespace Parser

variable {first : Token → Prop}

/-! ### Declarations -/

/-- A list in braces. -/
lemma yields_body {α : Type} {item : Parser α} {words : α → List Word}
    {numerals : α → List Numeral} {property : α → Prop}
    (hitem : Yields item AnyToken (Tells words numerals property)) :
    Yields (body item) first (Tells
      (fun as => .symbol .openBrace :: (as.flatMap words ++ [.symbol .closeBrace]))
      (List.flatMap numerals) (∀ a ∈ ·, property a)) := by
  refine .symbol fun w hw => .bind hitem.manyTells ?_
  rintro as taken ⟨hstands, has⟩
  refine .symbol fun w' hw' => .pure ⟨?_, has⟩
  have hwords := StandsFor.symbol hw (hstands.append (.symbol hw' .nil))
  simpa using hwords

lemma yields_enumValue :
    Yields enumValue first (Tells Enumeration.valueWords Header.numerals
      fun v => (isIdentifier v.name = true ∧ v.IsSpellable) ∧ v.sourceForm = v) := by
  refine .bind yields_decorators fun ds decorators hdecorators => ?_
  refine .expectOne (by simp) fun t hkind _ => .bind yields_anyName ?_
  rintro name _ ⟨rfl, hname⟩
  obtain ⟨hheader, hspellable, hsource⟩ := hdecorators name
  refine .pure ⟨?_, ⟨hname, hspellable⟩, hsource⟩
  have hwords := hheader.append (.keyword (w := t.word) hkind (standsFor_name name))
  simpa [Enumeration.valueWords] using hwords

lemma yields_enumeration {taken : List Word} {ds : Option (List Decorator)}
    (hdecorators : TellsHeader taken ds) :
    Yields (enumeration ds) first fun taken' e => Tells Enumeration.words Enumeration.numerals
      (fun e => e.IsSpellable ∧ e.sourceForm = e) (taken ++ taken') e := by
  refine .expectOne (by simp) fun t hkind _ => .bind yields_typeName ?_
  rintro name _ ⟨rfl, hname⟩
  obtain ⟨hheader, hspellable, hsource⟩ := hdecorators name
  refine .bind (yields_body yields_enumValue) ?_
  rintro values body ⟨hbody, hvalues⟩
  refine .pure ⟨?_, ⟨hname, hspellable, fun v hv => (hvalues v hv).1⟩, ?_⟩
  · have hwords := hheader.append
      (.keyword (w := t.word) hkind ((standsFor_name name).append hbody))
    simpa [Enumeration.words, Enumeration.numerals] using hwords
  · have hsame : values.map Header.sourceForm = values := by
      rw [List.map_congr_left fun v hv => (hvalues v hv).2, List.map_id']
    rw [Enumeration.sourceForm, hsource, hsame]

/-- The words of the clauses of a concept. -/
def Clauses.words (c : Clauses) : List Word :=
  (c.superType.map fun r => [.keyword .extendsKw, .name r.name]).getD [] ++
    (c.identified.map Identification.words).getD []

/-- The clauses of a concept can be told, and there is no namespace in them. -/
structure Clauses.IsSpellable (c : Clauses) : Prop where
  superType : ∀ r ∈ c.superType, IsTypeName r.name ∧ r.sourceForm = r
  identified : ∀ i ∈ c.identified, i.IsSpellable

/-- A name leaves no mode that the next word has an influence on, unless a location follows. -/
lemma settled_next_name (n : String) (m : ImportMode)
    (h : m.next (Word.name n).kind ≠ .afterFrom) :
    (m.next (Word.name n).kind).settled = m.next (Word.name n).kind := by
  unfold Word.name at h ⊢
  split at h
  · next k hk =>
      cases k with
      | fromKw => cases m <;> first | rfl | exact absurd rfl h
      | _ => cases m <;> rfl
  · cases m <;> rfl

/-- A super type may be told before or after an identification. -/
lemma run_superType (i : Identification) (m m' : ImportMode)
    (hrun : m.run (Word.kinds i.words ++ [.keyword .extendsKw, .identifier]) = some m') :
    m.run ([.keyword .extendsKw, .identifier] ++ Word.kinds i.words) = some m' := by
  have hextends : ∀ m : ImportMode, m.run [.keyword .extendsKw, .identifier] =
      if m = .afterFrom then none else some m.settled :=
    ImportMode.run_neutral (by simp [ImportMode.isNeutral]) (by simp)
  -- the only word of an identification that may change the mode is the name
  cases i with
  | system => exact hrun
  | byProperty name =>
      have hby : ∀ m : ImportMode, m.run [.keyword .identifiedKw, .keyword .byKw] =
          if m = .afterFrom then none else some m.settled :=
        ImportMode.run_neutral (by simp [ImportMode.isNeutral]) (by simp)
      have hkinds : Word.kinds (Identification.byProperty name).words =
          [.keyword .identifiedKw, .keyword .byKw] ++ [(Word.name name).kind] := rfl
      rw [hkinds] at hrun ⊢
      by_cases hm : m = .afterFrom
      · rw [ImportMode.run_append, ImportMode.run_append, hby, if_pos hm] at hrun
        simp at hrun
      · simp only [ImportMode.run_append, hby, hextends, if_neg hm, Option.bind_some,
          if_neg m.settled_ne_afterFrom, ImportMode.settled_settled] at hrun ⊢
        obtain ⟨m₂, hname, hlast⟩ := Option.bind_eq_some_iff.mp hrun
        rw [hname]
        simp only [ImportMode.run, Option.ite_none_right_eq_some, Option.some.injEq] at hname
        simp only [Option.ite_none_left_eq_some, Option.some.injEq] at hlast
        obtain ⟨hm₂, hsettled⟩ := hlast
        rw [← hsettled, ← hname.2, settled_next_name name _ (by rwa [hname.2])]

/-- A super type is written before the identification, and may have been read after it. -/
lemma standsFor_extends {identified : Option Identification} {before : List Word} {w : Word}
    {name : String} (hbefore : StandsFor before (Clauses.words ⟨identified, none⟩) [])
    (hw : w.kind = .keyword .extendsKw) (hname : IsTypeName name) :
    StandsFor (before ++ [w, .name name]) (Clauses.words ⟨identified, some ⟨name, none⟩⟩) [] := by
  have hwords := hbefore.append (.keyword hw (standsFor_name name))
  refine hwords.respell (fun m m' hrun => ?_) fun w' hw' _ => ?_
  -- with the super type moved to the front, the words are the same, and they leave the same mode
  · cases identified with
    | none => simpa [Clauses.words] using hrun
    | some i =>
        have hkind := Word.name_of_none hname.2
        have hswap := run_superType i m m' (by simpa [Clauses.words, hkind] using hrun)
        simpa [Clauses.words, hkind] using hswap
  · have hperm : (Clauses.words ⟨identified, some ⟨name, none⟩⟩).Perm
        (Clauses.words ⟨identified, none⟩ ++ [.keyword .extendsKw, .name name]) := by
      simpa [Clauses.words] using @List.perm_append_comm _
        [Word.keyword .extendsKw, Word.name name] _
    exact hperm.mem_iff.mp hw'

lemma yields_clause {c : Clauses} (h : c.IsSpellable) {before : List Word}
    (hbefore : StandsFor before c.words []) :
    Yields (clause c) (fun t => (t.kind = .keyword .identifiedKw || t.kind = .keyword .extendsKw) = true)
      fun taken c' => StandsFor (before ++ taken) c'.words [] ∧ c'.IsSpellable := by
  refine .bind (.advance fun t ht heof => by simp [heof] at ht) ?_
  rintro t _ ⟨rfl, ht, -⟩
  obtain ⟨identified, superType⟩ := c
  -- a clause of a kind that has been read is refused, so that there is none yet
  split
  · next hextends =>
      split
      · exact .failAt _ _
      next hnone =>
      have hnone : superType = none := by simpa using hnone
      subst hnone
      refine .bind yields_typeName ?_
      rintro name _ ⟨rfl, hname⟩
      refine .pure ⟨?_, ?_, h.identified⟩
      · exact standsFor_extends hbefore hextends hname
      · rintro r ⟨⟩
        exact ⟨hname, rfl⟩
  · next hextends =>
      have hkind : t.kind = .keyword .identifiedKw := by simpa [hextends] using ht
      split
      · exact .failAt _ _
      next hnone =>
      have hnone : identified = none := by simpa using hnone
      subst hnone
      refine .takeKeyword (fun w hw => .bind yields_anyName ?_) (.pure ⟨?_, h.superType, ?_⟩)
      · rintro name _ ⟨rfl, hname⟩
        refine .pure ⟨?_, h.superType, ?_⟩
        · have hwords := hbefore.append
            (.keyword (w := t.word) hkind (.keyword hw (standsFor_name name)))
          simpa [Clauses.words, Identification.words] using hwords
        · rintro i ⟨⟩
          exact hname
      · have hwords := hbefore.append (.keyword (w := t.word) hkind .nil)
        simpa [Clauses.words, Identification.words] using hwords
      · rintro i ⟨⟩
        trivial

lemma yields_clauses : Yields clauses first fun taken (c : Clauses) =>
    StandsFor taken c.words [] ∧ c.IsSpellable := by
  have hloop : Yields clauses first _ :=
    .foldWhile (I := fun taken (c : Clauses) => StandsFor taken c.words [] ∧ c.IsSpellable)
      (fun _ _ h => yields_clause h.2 h.1) ⟨.nil, by simp, by simp⟩
  exact hloop

/-- The decorators and the mark of an abstract concept have been read. -/
lemma yields_concept {kind : ConceptKind} {ds : Option (List Decorator)} {isAbstract : Bool}
    {decorators abstract : List Word} (hdecorators : TellsHeader decorators ds)
    (habstract : StandsFor abstract (if isAbstract then [.keyword .abstractKw] else []) []) :
    Yields (concept kind ds isAbstract) (fun t => t.kind = .keyword (.conceptKw kind))
      fun taken c => Tells Concept.words Concept.numerals (fun c => c.IsSpellable ∧ c.sourceForm = c)
        (decorators ++ (abstract ++ taken)) c := by
  refine .bind (.advance fun t ht => by simp [ht]) ?_
  rintro t _ ⟨rfl, hkind, -⟩
  refine .bind yields_typeName ?_
  rintro name _ ⟨rfl, hname⟩
  obtain ⟨hheader, hspellable, hsource⟩ := hdecorators name
  refine .bind yields_clauses ?_
  rintro c clauses ⟨hclauses, hsuper, hidentified⟩
  refine .bind (yields_body yields_property) ?_
  rintro properties body ⟨hbody, hproperties⟩
  refine .pure ⟨?_, ⟨hname, hspellable, fun r hr => (hsuper r hr).1, hidentified,
    fun p hp => (hproperties p hp).1⟩, ?_⟩
  · have hwords := hheader.append (habstract.append (.keyword (w := t.word) hkind
      ((standsFor_name name).append (hclauses.append hbody))))
    simpa [Concept.words, Concept.numerals, Clauses.words] using hwords
  · have hsame : properties.map Property.sourceForm = properties := by
      rw [List.map_congr_left fun p hp => (hproperties p hp).2, List.map_id']
    have hsuper' : c.superType.map Reference.sourceForm = c.superType := by
      cases hr : c.superType with
      | none => rfl
      | some r => rw [Option.map_some, (hsuper r hr).2]
    simp [Concept.sourceForm, hsource, hsame, hsuper']

/-- The words of a keyword that may be left out. -/
def IsMark (k : Keyword) (given : Bool) (mark : List Word) : Prop :=
  if given then ∃ w : Word, mark = [w] ∧ w.kind = .keyword k else mark = []

lemma IsMark.standsFor {k : Keyword} {given : Bool} {mark : List Word} (h : IsMark k given mark) :
    StandsFor mark (if given then [.keyword k] else []) [] := by
  cases given with
  | false =>
      have hmark : mark = [] := h
      subst hmark
      exact .nil
  | true =>
      obtain ⟨w, rfl, hw⟩ := h
      exact .keyword hw .nil

/-- A keyword marks what comes after it, where it may also be left out. -/
lemma Yields.mark {α : Type} {k : Keyword} {f : Bool → Parser α} {result : List Word → α → Prop}
    (hf : ∀ (given : Bool) (mark : List Word), IsMark k given mark →
      Yields (f given) AnyToken fun taken a => result (mark ++ taken) a) :
    Yields (Parser.takeKeyword k >>= f) first result :=
  .takeKeyword (fun w hw => hf true [w] ⟨w, rfl, hw⟩) (hf false [] rfl)

lemma yields_declaration :
    Yields declaration first (Tells Declaration.words Declaration.numerals
      fun d => d.IsSpellable ∧ d.sourceForm = d) := by
  refine .bind yields_decorators fun ds decorators hdecorators => ?_
  refine .mark fun isAbstract abstract hmark => ?_
  have habstract := hmark.standsFor
  refine .peek fun t _ => ?_
  split
  -- the next keyword decides; where it is that of an enumeration, no `abstract` has been read
  · split
    · exact .failAt _ _
    next hnot =>
    have hheader : TellsHeader (decorators ++ abstract) ds := by
      intro name
      obtain ⟨hheader, hspellable⟩ := hdecorators name
      have hwords := hheader.append habstract
      rw [if_neg hnot, List.append_nil, List.append_nil] at hwords
      exact ⟨hwords, hspellable⟩
    refine .bind (yields_enumeration hheader) ?_
    rintro e taken ⟨hstands, hspellable, hsource⟩
    refine .pure ⟨?_, hspellable, by rw [Declaration.sourceForm, hsource]⟩
    simpa [Declaration.words, Declaration.numerals] using hstands
  · next kind hkind =>
      have hconcept : Yields (concept kind ds isAbstract) (· = t) _ :=
        fun s s' c heq hscanned hfirst =>
          yields_concept hdecorators habstract s s' c heq hscanned (by rw [hfirst]; exact hkind)
      refine .bind hconcept ?_
      rintro c taken ⟨hstands, hspellable, hsource⟩
      refine .pure ⟨?_, hspellable, by rw [Declaration.sourceForm, hsource]⟩
      simpa [Declaration.words, Declaration.numerals] using hstands
  · exact .failAt _ _

/-! ### Models -/

/-- What is known of a model from having been read. -/
structure ReadModel (taken : List Word) (m : Model) : Prop where
  standsFor : StandsFor taken m.words m.numerals
  ns : IsQualifiedName m.ns
  sourceUri : m.sourceUri = none
  imports : ∀ i ∈ m.imports, i.IsSpellable
  declarations : ∀ d ∈ m.declarations, d.IsSpellable
  sourceForm : m.sourceForm = m

lemma yields_model : Yields model first ReadModel := by
  refine .bind yields_version ?_
  rintro version versionTaken ⟨hversion, -⟩
  refine .expectOne (by simp) fun t hkind _ => ?_
  refine .bind yields_qualifiedName ?_
  rintro ns nsTaken ⟨hns, hqualified⟩
  have himports : Yields (many (· = .keyword .importKw) importStatement) AnyToken
      (Tells (List.flatMap (List.flatMap Import.words)) (List.flatMap fun _ => [])
        fun is => ∀ i ∈ is, i ≠ [] ∧ ∀ j ∈ i, j.IsSpellable) := yields_importStatement.manyTells
  refine .bind himports ?_
  rintro imports importsTaken ⟨himports, hspellable⟩
  refine .bind yields_declaration.manyTells ?_
  rintro declarations declarationsTaken ⟨hdeclarations, hall⟩
  refine .pure ⟨?_, hqualified, rfl, ?_, fun d hd => (hall d hd).1, ?_⟩
  -- the words of the parts are those of the model, one after another
  · have hwords := hversion.append (.keyword (w := t.word) hkind
      (hns.append (himports.append hdeclarations)))
    have hnone : imports.flatMap (fun _ => ([] : List Numeral)) = [] :=
      List.flatMap_eq_nil_iff.mpr fun _ _ => rfl
    have hflatten : imports.flatten.flatMap Import.words =
        imports.flatMap (List.flatMap Import.words) := by
      rw [List.flatten_eq_flatMap, List.flatMap_assoc]
      rfl
    rw [hnone] at hwords
    simpa [Model.words, Model.numerals, hflatten] using hwords
  · intro i hi
    obtain ⟨is, his, hi⟩ := List.mem_flatten.mp hi
    exact (hspellable is his).2 i hi
  · have hsame : declarations.map Declaration.sourceForm = declarations := by
      rw [List.map_congr_left fun d hd => (hall d hd).2, List.map_id']
    rw [Model.sourceForm, hsame]

end Parser

/-- The model that a text denotes is what the parser makes of its tokens. -/
lemma Model.run_of_parse {source : String} {m : Model} (h : Model.parse source = .ok m) :
    ∃ tokens stop s', scanTokens .start .start source.toList = .ok (tokens, stop) ∧
      Parser.model ⟨tokens, stop⟩ = .ok (m, s') ∧
      ∀ w ∈ (⟨tokens, stop⟩ : TokenStream).words, w.IsScanned := by
  unfold Model.parse at h
  split at h
  · simp at h
  · next stream hstream =>
      cases hrun : Parser.model.run stream with
      | error e => simp [hrun, Except.map] at h
      | ok r =>
          obtain ⟨m', s'⟩ := r
          simp only [hrun, Except.map, Except.ok.injEq] at h
          subst h
          unfold TokenStream.ofSource at hstream
          cases hscan : scanTokens .start .start source.toList with
          | error e =>
              rw [hscan] at hstream
              cases hstream
          | ok r =>
              obtain ⟨tokens, stop⟩ := r
              rw [hscan] at hstream
              cases hstream
              refine ⟨tokens, stop, s', rfl, hrun, fun w hw => ?_⟩
              obtain ⟨t, ht, rfl⟩ := List.mem_map.mp hw
              exact (isScanned_of_scanTokens hscan).1 t ht

/-- The model that a text denotes has been read from the words of the text. -/
theorem Model.exists_of_parse {source : String} {m : Model} (h : Model.parse source = .ok m) :
    ∃ tokens stop taken rest, scanTokens .start .start source.toList = .ok (tokens, stop) ∧
      tokens.map Token.word = taken ++ rest ∧ Parser.ReadModel taken m := by
  obtain ⟨tokens, stop, s', hscan, hrun, hwords⟩ := run_of_parse h
  have hyields : Parser.Yields Parser.model Parser.AnyToken Parser.ReadModel := Parser.yields_model
  obtain ⟨taken, htaken, hread⟩ := hyields _ _ _ hrun hwords trivial
  exact ⟨tokens, stop, taken, s'.words, hscan, htaken, hread⟩

end Concerto
