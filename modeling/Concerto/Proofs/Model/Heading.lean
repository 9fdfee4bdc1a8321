import Concerto.Proofs.Model.Retracing
import Concerto.Proofs.Model.Soundness

/-!
Where a declaration may stand.

* `ImportMode.Resets`: tokens after which it does not matter in which mode they have begun;
* `Parser.heads_declaration`: a declaration begins with such tokens, unless it is a concept without
  decorators that is identified by a property named `from`;
* `Declaration.eq_outside_of_run`: such a concept may only stand outside of an import;
* `isSome_run_of_words`: declarations that have been read may stand where their own source text may.
-/

namespace Concerto

namespace ImportMode

/-! ### Modes -/

/-- A token of the kind is no location, and neither a dot nor `from`. -/
def isPlain : TokenKind → Bool
  | .keyword .fromKw | .symbol .dot | .uri => false
  | _ => true

lemma next_of_isPlain {kind : TokenKind} (h : isPlain kind = true) (m : ImportMode) :
    m.next kind ≠ .afterFrom ∧ m.next kind ≠ .afterDot := by
  cases kind with
  | keyword k => cases k <;> first | (simp [isPlain] at h; done) | (cases m <;> simp [next])
  | symbol s => cases s <;> first | (simp [isPlain] at h; done) | (cases m <;> simp [next])
  | uri => simp [isPlain] at h
  | _ => cases m <;> simp [next]

lemma ne_uri_of_isPlain {kind : TokenKind} (h : isPlain kind = true) : kind ≠ .uri := by
  rintro rfl
  simp [isPlain] at h

/-- Plain tokens may stand anywhere but after the `from` of an import. -/
lemma exists_run_of_isPlain {kind : TokenKind} {kinds : List TokenKind}
    (h : ∀ k ∈ kind :: kinds, isPlain k = true) {m : ImportMode} (hm : m ≠ .afterFrom) :
    ∃ m', m.run (kind :: kinds) = some m' ∧ m' ≠ .afterFrom ∧ m' ≠ .afterDot := by
  induction kinds generalizing kind m with
  -- after a plain token the mode is again one that admits them
  | nil =>
      have hkind := h kind (by simp)
      refine ⟨m.next kind, ?_, next_of_isPlain hkind m⟩
      rw [run_cons (ne_uri_of_isPlain hkind), if_neg hm]
      rfl
  | cons k ks ih =>
      have hkind := h kind (by simp)
      obtain ⟨m', hrun, hm'⟩ :=
        ih (fun k' hk' => h k' (List.mem_cons_of_mem kind hk')) (next_of_isPlain hkind m).1
      refine ⟨m', ?_, hm'⟩
      rw [run_cons (ne_uri_of_isPlain hkind), if_neg hm]
      exact hrun

/-- Wherever the tokens begin but after the `from` of an import, they go on in the same modes. -/
def Resets (kinds : List TokenKind) : Prop :=
  ∀ m m' : ImportMode, m ≠ .afterFrom → m' ≠ .afterFrom → m.run kinds = m'.run kinds

lemma Resets.append {kinds : List TokenKind} (h : Resets kinds) (kinds' : List TokenKind) :
    Resets (kinds ++ kinds') := by
  intro m m' hm hm'
  rw [run_append, run_append, h m m' hm hm']

/-- A decorator ends an import. -/
lemma resets_atSign (kinds : List TokenKind) : Resets (.symbol .atSign :: kinds) := by
  intro m m' hm hm'
  rw [run_cons (by simp), run_cons (by simp), if_neg hm, if_neg hm']
  rfl

/-- So does a brace, unless a dot is before it. -/
lemma resets_openBrace {kind : TokenKind} {before : List TokenKind}
    (h : ∀ k ∈ kind :: before, isPlain k = true) (after : List TokenKind) :
    Resets (kind :: before ++ .symbol .openBrace :: after) := by
  have hrun : ∀ m : ImportMode, m ≠ .afterFrom →
      m.run (kind :: before ++ .symbol .openBrace :: after) = outside.run after := by
    intro m hm
    obtain ⟨m', hbefore, hfrom, hdot⟩ := exists_run_of_isPlain h hm
    have hnext : m'.next (.symbol .openBrace) = .outside := by simp [next, hdot]
    rw [run_append, hbefore, Option.bind_some, run_cons (by simp), if_neg hfrom, hnext]
  intro m m' hm hm'
  rw [hrun m hm, hrun m' hm']

end ImportMode

/-- The concept has no decorators and is identified by a property that is named like the keyword
before the location of an import. -/
def Concept.IsIdentifiedByFrom (c : Concept) : Prop :=
  c.header.decorators = none ∧ c.identified = some (.byProperty "from")

/-- The declaration is such a concept. -/
def Declaration.IsIdentifiedByFrom : Declaration → Prop
  | concept c => c.IsIdentifiedByFrom
  | enumeration _ => False

namespace Parser

variable {first : Token → Prop}

/-! ### Headings -/

lemma isPlain_of_beginsDeclaration {kind : TokenKind} (h : beginsDeclaration kind = true) :
    ImportMode.isPlain kind = true := by
  unfold beginsDeclaration at h
  split at h <;> first | rfl | simp at h

/-- The words begin a declaration. All of them before the first brace are plain, or else it is for a
reason that `exempt` tells. -/
def IsHeading (exempt : Prop) (words : List Word) : Prop :=
  ∃ w before brace after, words = w :: before ++ brace :: after ∧ beginsDeclaration w.kind = true ∧
    brace.kind = .symbol .openBrace ∧
    ((∀ v ∈ before, ImportMode.isPlain v.kind = true) ∨ exempt)

/-- One more word before the others. -/
lemma IsHeading.cons {exempt : Prop} {words : List Word} (h : IsHeading exempt words) {w : Word}
    (hw : beginsDeclaration w.kind = true) : IsHeading exempt (w :: words) := by
  obtain ⟨v, before, brace, after, rfl, hv, hbrace, hplain⟩ := h
  refine ⟨w, v :: before, brace, after, rfl, hw, hbrace, hplain.imp_left fun hbefore => ?_⟩
  exact List.forall_mem_cons.mpr ⟨isPlain_of_beginsDeclaration hv, hbefore⟩

lemma IsHeading.imp {exempt exempt' : Prop} {words : List Word} (h : IsHeading exempt words)
    (himp : exempt → exempt') : IsHeading exempt' words := by
  obtain ⟨w, before, brace, after, hwords, hw, hbrace, hplain⟩ := h
  exact ⟨w, before, brace, after, hwords, hw, hbrace, hplain.imp_right himp⟩

/-- After the heading the mode is known. -/
lemma IsHeading.resets {exempt : Prop} {words : List Word} (h : IsHeading exempt words) :
    ImportMode.Resets (Word.kinds words) ∨ exempt := by
  obtain ⟨w, before, brace, after, rfl, hw, hbrace, hplain⟩ := h
  refine hplain.imp_left fun hbefore => ?_
  have hkinds : ∀ k ∈ w.kind :: Word.kinds before, ImportMode.isPlain k = true := by
    refine List.forall_mem_cons.mpr ⟨isPlain_of_beginsDeclaration hw, ?_⟩
    simpa [Word.kinds] using hbefore
  simpa [hbrace] using ImportMode.resets_openBrace hkinds (Word.kinds after)

/-- A list in braces begins with a brace. -/
lemma opens_body {α : Type} {item : Parser α} {P : List Word → α → Prop}
    (hitem : Yields item AnyToken P) :
    Yields (body item) first fun taken _ =>
      ∃ brace after, taken = brace :: after ∧ brace.kind = .symbol .openBrace := by
  have hmany : Yields (many continuesBody item) AnyToken fun _ _ => True :=
    .many hitem trivial fun _ _ _ _ _ _ => trivial
  refine .symbol fun brace hbrace => .bind hmany fun items taken _ => ?_
  exact .symbol fun w _ => .pure ⟨brace, _, rfl, hbrace⟩

/-- The name of a type is plain. -/
lemma isPlain_name {n : String} (h : IsTypeName n) : ImportMode.isPlain (Word.name n).kind = true := by
  rw [Word.name_of_none h.2]
  rfl

lemma heads_enumeration {ds : Option (List Decorator)} :
    Yields (enumeration ds) first fun taken _ => IsHeading False taken := by
  refine .expectOne (by simp) fun t hkind _ => .bind yields_typeName ?_
  rintro name _ ⟨rfl, hname⟩
  refine .bind (opens_body yields_enumValue) ?_
  rintro values _ ⟨brace, after, rfl, hbrace⟩
  refine .pure ⟨t.word, [.name name], brace, after, by simp, ?_, hbrace, Or.inl ?_⟩
  · rw [Token.word_kind, hkind]
    rfl
  · simpa using isPlain_name hname

/-- The clauses read so far are plain, unless one names `from`. -/
def PlainClauses (taken : List Word) (c : Clauses) : Prop :=
  (∀ w ∈ taken, ImportMode.isPlain w.kind = true) ∨ c.identified = some (.byProperty "from")

/-- A name is plain unless it is `from`. -/
lemma isPlain_name_or (n : String) :
    ImportMode.isPlain (Word.name n).kind = true ∨ n = "from" := by
  unfold Word.name
  split
  · next k hk =>
      cases k with
      | fromKw => exact Or.inr (Keyword.text_of_ofText? hk).symm
      | _ => exact Or.inl rfl
  · exact Or.inl rfl

lemma plain_clause {c : Clauses} {before : List Word} (h : PlainClauses before c) :
    Yields (clause c)
      (fun t => (t.kind = .keyword .identifiedKw || t.kind = .keyword .extendsKw) = true)
      fun taken c' => PlainClauses (before ++ taken) c' := by
  refine .bind (.advance fun t ht heof => by simp [heof] at ht) ?_
  rintro t _ ⟨rfl, ht, -⟩
  have hplain : ImportMode.isPlain t.kind = true := by
    simp only [Bool.or_eq_true, decide_eq_true_eq] at ht
    rcases ht with h | h <;> rw [h] <;> rfl
  obtain ⟨identified, superType⟩ := c
  split
  · split
    · exact .failAt _ _
    refine .bind yields_typeName ?_
    rintro name _ ⟨rfl, hname⟩
    refine .pure (h.imp_left fun hbefore => List.forall_mem_append.mpr ⟨hbefore, ?_⟩)
    simp [hplain, isPlain_name hname]
  -- after `identified by from` the words are not plain, and no other clause is known of
  · split
    · exact .failAt _ _
    next hnone =>
    have hnone : identified = none := by simpa using hnone
    subst hnone
    have hbefore : ∀ w ∈ before, ImportMode.isPlain w.kind = true := by
      simpa [PlainClauses] using h
    refine .takeKeyword (fun w hw => .bind yields_anyName ?_) (.pure (Or.inl ?_))
    · rintro name _ ⟨rfl, -⟩
      -- the one name that is not plain is `from`
      refine .pure ((isPlain_name_or name).imp (fun hname => ?_) fun hfrom => by rw [hfrom])
      have hw : ImportMode.isPlain w.kind = true := by rw [hw]; rfl
      exact List.forall_mem_append.mpr ⟨hbefore, by simp [hplain, hw, hname]⟩
    · exact List.forall_mem_append.mpr ⟨hbefore, by simp [hplain]⟩

lemma plain_clauses : Yields clauses first PlainClauses := by
  have hstart : PlainClauses [] ⟨none, none⟩ := Or.inl (by simp)
  have hloop : Yields clauses first _ :=
    .foldWhile (I := PlainClauses) (fun _ _ h => plain_clause h) hstart
  exact hloop

lemma heads_concept {kind : ConceptKind} {ds : Option (List Decorator)} {isAbstract : Bool} :
    Yields (concept kind ds isAbstract) (fun t => t.kind = .keyword (.conceptKw kind))
      fun taken c => IsHeading (c.identified = some (.byProperty "from")) taken ∧
        c.header.decorators = ds := by
  refine .bind (.advance fun t ht => by simp [ht]) ?_
  rintro t _ ⟨rfl, hkind, -⟩
  refine .bind yields_typeName ?_
  rintro name _ ⟨rfl, hname⟩
  refine .bind plain_clauses ?_
  rintro c clauses hclauses
  refine .bind (opens_body yields_property) ?_
  rintro properties _ ⟨brace, after, rfl, hbrace⟩
  refine .pure ⟨⟨t.word, .name name :: clauses, brace, after, by simp, ?_, hbrace, ?_⟩, rfl⟩
  · rw [Token.word_kind, hkind]
    rfl
  · refine hclauses.imp_left fun hplain => ?_
    exact List.forall_mem_cons.mpr ⟨isPlain_name hname, hplain⟩

/-- Where no decorator is next there are none. -/
lemma no_decorators : Yields decorators (fun t => t.kind ≠ .symbol .atSign) fun taken ds =>
    taken = [] ∧ ds = none := by
  intro s s' ds heq _ hkind
  have hmany : many (· = .symbol .atSign) decorator s = .ok ([], s) := by
    rw [many, if_neg (by simpa using hkind)]
  obtain ⟨list, s₁, hlist, hpure⟩ := Yields.exists_of_bind heq
  rw [hmany] at hlist
  cases hlist
  cases hpure
  exact ⟨[], rfl, rfl, rfl⟩

/-- An `abstract` before a heading. -/
lemma IsHeading.mark {exempt : Prop} {words mark : List Word} {isAbstract : Bool}
    (h : IsHeading exempt words) (hmark : IsMark .abstractKw isAbstract mark) :
    IsHeading exempt (mark ++ words) := by
  cases isAbstract with
  | false =>
      have hmark : mark = [] := hmark
      rwa [hmark]
  | true =>
      obtain ⟨w, rfl, hw⟩ := hmark
      exact h.cons (by rw [hw]; rfl)

/-- The heading of a declaration without decorators. -/
lemma heads_undecorated : Yields declaration (fun t => t.kind ≠ .symbol .atSign)
    fun taken d => IsHeading d.IsIdentifiedByFrom taken := by
  refine .bind no_decorators ?_
  rintro _ _ ⟨rfl, rfl⟩
  refine .mark fun isAbstract mark hmark => .peek fun t _ => ?_
  split
  -- the words of `abstract` go in front of the heading
  · split
    · exact .failAt _ _
    · refine .bind heads_enumeration fun e taken he => .pure ?_
      rw [List.append_nil]
      exact he.mark hmark
  · next kind hkind =>
      have hconcept : Yields (concept kind none isAbstract) (· = t) _ :=
        fun s s' c heq hscanned hfirst =>
          heads_concept s s' c heq hscanned (by rw [hfirst]; exact hkind)
      refine .bind hconcept ?_
      rintro c taken ⟨hheading, hnone⟩
      refine .pure ?_
      rw [List.append_nil]
      exact (hheading.imp fun hfrom => ⟨hnone, hfrom⟩).mark hmark
  · exact .failAt _ _

/-- What the words of a declaration begin with. -/
structure Heads (taken : List Word) (d : Declaration) : Prop where
  begins : ∃ w ws, taken = w :: ws ∧ beginsDeclaration w.kind = true
  resets : ImportMode.Resets (Word.kinds taken) ∨ d.IsIdentifiedByFrom

lemma heads_declaration : Yields declaration first Heads := by
  refine .of_any fun s s' d heq hscanned _ => ?_
  by_cases hkind : s.current.kind = .symbol .atSign
  · have hadvances : Advances blindly AnyToken declaration declaration := advances_declaration
    obtain ⟨w, ws, hwords, -⟩ := hadvances s s' d heq trivial
    rw [s.current_kind, hwords, List.cons_append, nextKind_cons] at hkind
    refine ⟨w :: ws, hwords, ⟨w, ws, rfl, by rw [hkind]; rfl⟩, Or.inl ?_⟩
    rw [Word.kinds_cons, hkind]
    exact ImportMode.resets_atSign _
  · obtain ⟨taken, hwords, hheading⟩ := heads_undecorated s s' d heq hscanned hkind
    refine ⟨taken, hwords, ?_, hheading.resets⟩
    obtain ⟨w, before, brace, after, rfl, hw, -⟩ := hheading
    exact ⟨w, before ++ brace :: after, rfl, hw⟩

/-- The words of declarations begin with those of the first one. -/
def HeadsBlock (taken : List Word) : List Declaration → Prop
  | [] => taken = []
  | d :: _ => ∃ before after, taken = before ++ after ∧ Heads before d

lemma heads_declarations : Yields (many (· ≠ .eof) declaration) first HeadsBlock :=
  .many heads_declaration rfl fun taken taken' _ _ h _ => ⟨taken, taken', rfl, h⟩

lemma HeadsBlock.begins {taken : List Word} {ds : List Declaration} (h : HeadsBlock taken ds) :
    ∀ w ∈ taken.head?, beginsDeclaration w.kind = true := by
  cases ds with
  | nil =>
      have htaken : taken = [] := h
      simp [htaken]
  | cons d ds =>
      obtain ⟨before, after, rfl, ⟨w, ws, rfl, hw⟩, -⟩ := h
      simpa using hw

end Parser

/-! ### Where declarations stand -/

/-- No word but a location stands after the `from` of an import. -/
lemma ImportMode.ne_afterFrom_of_run_cons {w : Word} {words : List Word} (hw : w.kind ≠ .uri)
    {m : ImportMode} (h : (m.run (Word.kinds (w :: words))).isSome) : m ≠ .afterFrom := by
  rintro rfl
  rw [Word.kinds_cons, run_cons hw, if_pos rfl] at h
  contradiction

lemma Declaration.ne_afterFrom_of_run {d : Declaration} {m : ImportMode} {after : List Word}
    (h : (m.run (Word.kinds (d.words ++ after))).isSome) : m ≠ .afterFrom := by
  obtain ⟨w, ws, hw, hbegins⟩ := Parser.exists_declaration_word d
  rw [hw, List.cons_append] at h
  exact ImportMode.ne_afterFrom_of_run_cons
    (ImportMode.ne_uri_of_isPlain (Parser.isPlain_of_beginsDeclaration hbegins)) h

/-- Inside of an import, the name `from` would announce a location. -/
lemma Declaration.eq_outside_of_run {d : Declaration} (hfrom : d.IsIdentifiedByFrom)
    (hspellable : d.IsSpellable) {m : ImportMode} {after : List Word}
    (h : (m.run (Word.kinds (d.words ++ after))).isSome) : m = .outside := by
  cases d with
  | enumeration e => exact hfrom.elim
  | concept c =>
      obtain ⟨hnone, hidentified⟩ := hfrom
      -- the words before the name are neutral, and a brace follows it
      have hwords : ∃ before others : List Word, Declaration.words (.concept c) ++ after =
          before ++ .keyword .fromKw :: .symbol .openBrace :: others ∧ before ≠ [] ∧
          ∀ k ∈ Word.kinds before, ImportMode.isNeutral k = true := by
        refine ⟨(if c.isAbstract then [.keyword .abstractKw] else []) ++
          ([.keyword (.conceptKw c.kind), .name c.header.name] ++
            ((c.superType.map fun r => [.keyword .extendsKw, .name r.name]).getD [] ++
              [.keyword .identifiedKw, .keyword .byKw])),
          c.properties.flatMap Property.words ++ .symbol .closeBrace :: after, ?_, by simp, ?_⟩
        · have hname : Word.name "from" = .keyword .fromKw := rfl
          simp [Declaration.words, Concept.words, Header.decoratorWords, hnone, hidentified,
            Identification.words, hname]
        · simp only [Word.kinds_append, List.forall_mem_append]
          refine ⟨?_, ?_, ?_, by simp [ImportMode.isNeutral]⟩
          · cases c.isAbstract <;> simp [ImportMode.isNeutral]
          · simp [ImportMode.isNeutral, Word.name_of_none hspellable.name.2]
          · cases hsuper : c.superType with
            | none => simp
            | some r =>
                have hr := hspellable.superType r hsuper
                simp [ImportMode.isNeutral, Word.name_of_none hr.2]
      obtain ⟨before, others, hwords, hne, hneutral⟩ := hwords
      rw [hwords, Word.kinds_append, ImportMode.run_append,
        ImportMode.run_neutral hneutral (by simpa [Word.kinds] using hne)] at h
      cases m <;> simp [ImportMode.settled, ImportMode.run, ImportMode.admits, ImportMode.next] at h ⊢

/-- Declarations that have been read may stand where their own source text may. Of the place where
they have been read no more is known than that they may stand there. -/
theorem isSome_run_of_words {taken : List Word} {ds : List Declaration} {numerals : List Numeral}
    (hstands : StandsFor taken (ds.flatMap Declaration.words) numerals)
    (hheads : Parser.HeadsBlock taken ds) (hspellable : ∀ d ∈ ds, d.IsSpellable)
    {m₀ m : ImportMode} (h₀ : (m₀.run (Word.kinds taken)).isSome)
    (h : (m.run (Word.kinds (ds.flatMap Declaration.words))).isSome) :
    (m.run (Word.kinds taken)).isSome := by
  have hwords₀ : (m₀.run (Word.kinds (ds.flatMap Declaration.words))).isSome := by
    obtain ⟨m₁, hm₁⟩ := Option.isSome_iff_exists.mp h₀
    rw [hstands.mode m₀ m₁ hm₁]
    rfl
  -- the first words of a block reset the mode, or they lead to `from` and need to be outside of an
  -- import
  cases ds with
  | nil =>
      have htaken : taken = [] := hheads
      rw [htaken]
      rfl
  | cons d ds =>
      obtain ⟨before, after, rfl, -, hresets | hfrom⟩ := hheads
      · rw [Word.kinds_append] at h₀ ⊢
        rw [List.flatMap_cons] at h hwords₀
        rwa [hresets.append (Word.kinds after) m m₀ (d.ne_afterFrom_of_run h)
          (d.ne_afterFrom_of_run hwords₀)]
      · have hd := hspellable d (by simp)
        rw [List.flatMap_cons] at h hwords₀
        rw [d.eq_outside_of_run hfrom hd h]
        rwa [d.eq_outside_of_run hfrom hd hwords₀] at h₀

end Concerto
