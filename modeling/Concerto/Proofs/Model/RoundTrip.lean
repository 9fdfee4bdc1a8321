import Concerto.Proofs.Model.Layout
import Concerto.Proofs.Model.SourceForm
import Concerto.Proofs.Token.Tiling
import Concerto.Schema.Artifact

/-!
The round trip between models and their source texts.

* `Model.parse_toSource_of_parse`: a model that has been read from a text is read from its own
  source text;
* `Model.noReturnPatterns_of_parse`, `Model.noReturn_toSource`: if the text has no carriage return, the
  source text has none;
* `Model.parse_toSource_iff`: the models of which the source text denotes what it can tell are those
  that can be told.
-/

namespace Concerto

namespace Model

/-- The source text of a model that can be told is scanned to the words of the model. -/
lemma IsSpellable.scans {m : Model} (h : m.IsSpellable) :
    Scans True m.toSource.toList m.words [] :=
  scans_toSource h.ns h.imports h.declarations fun _ => h.numerals

/-- The source text of a model that can be told denotes what it can tell of the model. -/
lemma parse_toSource {m : Model} (h : m.IsSpellable) : Model.parse m.toSource = .ok m.sourceForm := by
  rcases h.scans.scanTokens_eq h.mode with ⟨tokens, stop, hwords, hscan⟩ | ⟨hsure, -⟩
  · exact parse_of_reads (Parser.reads_model h) hscan hwords
  · exact absurd trivial hsure

/-- The modes along the words of a text. -/
lemma isSome_run_of_scanTokens {source : String} {tokens : List Token} {stop : Place}
    (hscan : scanTokens .start .start source.toList = .ok (tokens, stop)) {taken rest : List Word}
    (hwords : tokens.map Token.word = taken ++ rest) :
    ∃ m, ImportMode.outside.run (Word.kinds taken) = some m := by
  have hrun := (isScanned_of_scanTokens hscan).2
  have hstart : Context.start.mode = .outside := rfl
  rw [hstart, hwords, Word.kinds_append, ImportMode.run_append, Option.isSome_iff_exists] at hrun
  obtain ⟨m', hm'⟩ := hrun
  obtain ⟨m, hm, -⟩ := Option.bind_eq_some_iff.mp hm'
  exact ⟨m, hm⟩

/-- A model that has been read, and all doubles of which are finite, can be told. -/
lemma isSpellable_of_parse {source : String} {m : Model} (h : Model.parse source = .ok m)
    (hfinite : m.IsFinite) : m.IsSpellable ∧ m.sourceForm = m := by
  obtain ⟨tokens, stop, taken, rest, hscan, hwords, hread⟩ := exists_of_parse h
  obtain ⟨mode, hmode⟩ := isSome_run_of_scanTokens hscan hwords
  refine ⟨⟨hread.ns, hread.sourceUri, hread.imports, hread.declarations, ?_, ?_⟩, hread.sourceForm⟩
  · intro n hn
    cases n with
    | double d => exact hfinite d hn
    | integer i => exact hread.standsFor.readable i hn
  · rw [hread.standsFor.mode _ _ hmode]
    rfl

/-- What is read from a text is read from its own source text too, and has that source text. -/
theorem parse_toSource_of_parse {source : String} {m : Model} (h : Model.parse source = .ok m)
    (hfinite : m.IsFinite) :
    ∃ m', Model.parse m.toSource = .ok m' ∧ m' = m ∧ m'.toSource = m.toSource := by
  obtain ⟨hspellable, hsource⟩ := isSpellable_of_parse h hfinite
  refine ⟨m, ?_, rfl, rfl⟩
  have hparse := parse_toSource hspellable
  rwa [hsource] at hparse

/-- The patterns of a model that has been read have no carriage return if the text has none. -/
lemma noReturnPatterns_of_parse {source : String} {m : Model} (h : Model.parse source = .ok m)
    (hsource : NoReturn source.toList) : NoReturnPatterns m.words := by
  obtain ⟨tokens, stop, taken, rest, hscan, hwords, hread⟩ := exists_of_parse h
  have htiles : Tiles ([] ++ source.toList) 0 (tokens ++ [⟨.eof, "", stop⟩]) :=
    tiles_of_scanTokens rfl hscan
  intro w hw hregex c hc
  have hmem : w ∈ tokens.map Token.word :=
    hwords ▸ List.mem_append_left rest (hread.standsFor.patterns w hw hregex)
  obtain ⟨t, ht, rfl⟩ := List.mem_map.mp hmem
  exact hsource c (htiles.subset_of_regex t (List.mem_append_left _ ht) hregex hc)

/-- Then neither has its source text. -/
lemma noReturn_toSource {m : Model} (h : m.IsSpellable) (hpatterns : NoReturnPatterns m.words) :
    NoReturn m.toSource.toList :=
  h.scans.noReturn hpatterns noReturn_nil

/-- A text with an import of a single name, a decorator and a pattern. -/
def sampleText : String :=
  "namespace a import b.\x7bC\x7d from u:1\n@d(0.0)concept D extends C \x7bo String from regex=/x/\x7d"

/-- The model of the sample text. -/
def sample : Model where
  ns := "a"
  sourceUri := none
  concertoVersion := none
  imports := [.type "b" "C" (some "u:1")]
  declarations :=
    [.concept
      { kind := .concept
        header := ⟨"D", some [⟨"d", some [.number (.finite false 0 Double.representable_zero) none],
          none⟩], none⟩
        isAbstract := false
        identified := none
        superType := some ⟨"C", none⟩
        properties := [⟨⟨"from", none, none⟩, false, false, .string none (some ⟨"x", ""⟩)⟩] }]

lemma parse_sampleText : Model.parse sampleText = .ok sample := by decide +kernel

theorem parse_toSource_of_parse_sample :
    Model.parse sampleText = .ok sample ∧ sample.IsFinite ∧
      ∃ m', Model.parse sample.toSource = .ok m' ∧ m' = sample ∧
        m'.toSource = sample.toSource := by
  have hfinite : sample.IsFinite := by decide +kernel
  exact ⟨parse_sampleText, hfinite, parse_toSource_of_parse parse_sampleText hfinite⟩

/-- If a text denotes what it can tell of a model, no word for a double of the model has been
mistaken for a name. -/
lemma isPlain_of_words {m : Model} {taken rest : List Word}
    (hread : Parser.ReadModel taken m.sourceForm) (hwords : m.words = taken ++ rest) :
    ∀ n ∈ m.numerals, n.IsPlain := by
  have hstands := hread.standsFor
  rw [numerals_sourceForm] at hstands
  have hcount : m.numerals.countP (fun n => n.word.isNumber) = m.numerals.length := by
    refine le_antisymm List.countP_le_length ?_
    rw [← hstands.count, ← m.listsNumbers.countP_eq, hwords, List.countP_append]
    omega
  intro n hn
  have hnumber := List.countP_eq_length.mp hcount n hn
  cases n with
  | integer i => exact hstands.readable i hn
  | double d =>
      by_contra hinfinite
      have hinfinite : d.isFinite = false := by simpa [Numeral.IsPlain] using hinfinite
      simp [Numeral.word, Numeral.kind, hinfinite, Word.isNumber] at hnumber

/-- If the source text of a model denotes what it can tell of the model, the model can be told. -/
lemma isSpellable_of_parse_toSource {m : Model} (h : Model.parse m.toSource = .ok m.sourceForm) :
    m.IsSpellable := by
  obtain ⟨tokens, stop, taken, rest, hscan, hwords, hread⟩ := exists_of_parse h
  obtain ⟨mode, hmode⟩ := isSome_run_of_scanTokens hscan hwords
  -- a model and its source form have the same words, and these have been scanned
  have hrun : ImportMode.outside.run (Word.kinds m.words) = some mode := by
    rw [← m.words_sourceForm]
    exact hread.standsFor.mode _ _ hmode
  have hdeclarations : ∀ d ∈ m.declarations, d.IsSpellable := by
    intro d hd
    have hsource := hread.declarations d.sourceForm (List.mem_map_of_mem hd)
    exact d.isSpellable_sourceForm.mp hsource
  have hscans : Scans (∀ n ∈ m.numerals, n.IsPlain) m.toSource.toList m.words [] :=
    scans_toSource hread.ns hread.imports hdeclarations id
  -- A text that is not sure to be scanned has been scanned all the same, since it was read.
  rcases hscans.scanTokens_eq (by rw [hrun]; rfl) with ⟨tokens', stop', hwords', hscan'⟩ | ⟨-, e, he⟩
  · rw [hscan] at hscan'
    cases hscan'
    exact ⟨hread.ns, hread.sourceUri, hread.imports, hdeclarations,
      isPlain_of_words hread (hwords'.symm.trans hwords), by rw [hrun]; rfl⟩
  · rw [hscan] at he
    cases he

/-- The source text of a model denotes what it can tell of the model, that is all but locations,
the namespaces of references and unescaped slashes in patterns, if and only if the model can be
told. -/
theorem parse_toSource_iff (m : Model) :
    Model.parse m.toSource = .ok m.sourceForm ↔ m.IsSpellable := by
  constructor
  · exact isSpellable_of_parse_toSource
  · exact parse_toSource

/-- A model of a concept that has a keyword for a name. -/
def keywordNamed : Model where
  ns := "a"
  sourceUri := none
  concertoVersion := none
  imports := []
  declarations := [.concept ⟨.concept, ⟨"asset", none, none⟩, false, none, none, []⟩]

/-- A model may be well formed without being told by its source text: here the text denotes no
model at all. -/
theorem parse_toSource_keywordNamed :
    keywordNamed.validated = .ok keywordNamed ∧
      Model.parse keywordNamed.toSource ≠ .ok keywordNamed.sourceForm := by
  exact ⟨by decide +kernel, by decide +kernel⟩

end Model

end Concerto
