import Concerto.Proofs.Model.Words

/-!
The source text of a model, word by word: `Model.scans_toSource`.

Texts are built from the outside in: a text is put before any other one that does not continue it,
a line before a line break, and lines before any text.
-/

namespace Concerto

variable {sure : Prop}

/-! ### What follows a word -/

/-- The characters that the printer puts after a word. -/
def breaks : List Char := [' ', '\n', ',', '(', ')', '[', ']', '=']

/-- A text goes on after a word: it is empty or begins with such a character. -/
def Breaks (rest : List Char) : Prop := ∀ c ∈ rest.head?, c ∈ breaks

lemma breaks_cons {c : Char} (hc : c ∈ breaks) (rest : List Char) : Breaks (c :: rest) := by
  intro d hd
  rwa [← Option.some.inj hd]

lemma breaks_subset : breaks ⊆ delimiters := by simp [breaks, delimiters]

lemma Breaks.endsName {rest : List Char} (h : Breaks rest) : EndsName rest := by
  cases rest with
  | nil => exact fun c hc => by simp at hc
  | cons c cs => exact endsName_cons (breaks_subset (h c rfl)) cs

lemma Breaks.endsNumber {rest : List Char} (h : Breaks rest) : EndsNumber rest := by
  intro c hc
  have hmem := h c hc
  refine ⟨(not_isIdentifierPart_of_mem (List.mem_cons_of_mem _ (breaks_subset hmem))).2, ?_⟩
  refine ⟨?_, ?_, ?_⟩ <;> rintro rfl <;> simp [breaks] at hmem

lemma Breaks.not_isLetter {rest : List Char} (h : Breaks rest) :
    ∀ c ∈ rest.head?, Text.isLetter c = false :=
  fun c hc => Concerto.not_isLetter (h.endsName c hc).1

/-! ### Names and numbers -/

/-- A blank between words. -/
lemma Scans.space {text rest : List Char} {words : List Word} (h : Scans sure text words rest) :
    Scans sure (' ' :: text) words rest :=
  .blank (by decide) (by decide) h

/-- A name. -/
lemma scans_name {w : String} (hw : isIdentifier w = true) {rest : List Char}
    (hrest : EndsName rest) : Scans sure (w.toList ++ rest) [.name w] rest := by
  simp only [isIdentifier, Bool.and_eq_true] at hw
  exact .name hw.2 hrest

/-- A number. -/
lemma scans_numeral (n : Numeral) (hn : sure → n.IsPlain) {rest : List Char} (hrest : Breaks rest) :
    Scans sure (n.text.toList ++ rest) [n.word] rest := by
  cases n with
  | integer i =>
      have hnumber : Scans sure _ _ _ := Scans.number (NumberText.ofInt i) hrest.endsNumber
      simp only [Numeral.word, Numeral.text, Numeral.kind, integerText_eq, String.toList_ofList]
      exact hnumber
  -- a double that is not finite is printed as a word, which is scanned as names
  | double d =>
      by_cases hfinite : d.isFinite = true
      · obtain ⟨t, hchars, hfloat, -⟩ := Double.exists_numberText hfinite
        have hkind : t.kind = .float := by
          rw [NumberText.kind, if_neg]
          rintro ⟨hfraction, hpower⟩
          rcases hfloat with h | h
          · exact h hfraction
          · simp [hpower] at h
        have hnumber : Scans sure _ _ _ := Scans.number t hrest.endsNumber
        simp only [Numeral.word, Numeral.text, Numeral.kind, if_pos hfinite, ← hchars,
          String.toList_ofList, ← hkind]
        exact hnumber
      · have hsure : ¬ sure := fun h => hfinite (hn h)
        have hkind : (Numeral.double d).word = ⟨.identifier, d.text⟩ := by
          simp [Numeral.word, Numeral.text, Numeral.kind, hfinite]
        rw [hkind, Numeral.text]
        have hname : ∀ w : String, w ∈ fixedNames →
            Scans sure (w.toList ++ rest) [⟨.identifier, w⟩] rest := by
          intro w hw
          obtain ⟨hname, hkeyword⟩ := isTypeName_of_mem_fixedNames hw
          rw [← Word.name_of_none hkeyword]
          exact scans_name hname hrest.endsName
        cases d with
        | nan => exact hname "nan" (by simp [fixedNames])
        | infinite negative =>
            cases negative with
            | false => exact hname "inf" (by simp [fixedNames])
            | true => exact .negativeInfinity hsure (by simp)
        | finite => exact absurd rfl hfinite

/-! ### Lists -/

/-- Texts with a separator between them, one text for each item. -/
lemma scans_joined {α : Type} (text : α → String) (words : α → List Word) (items : List α)
    {separator : Symbol} {between : String} {follows : List Char → Prop}
    (hbetween : ∀ rest, follows (between.toList ++ rest) ∧
      Scans sure (between.toList ++ rest) [.symbol separator] rest)
    (hitems : ∀ a ∈ items, ∀ rest, follows rest →
      Scans sure ((text a).toList ++ rest) (words a) rest)
    {rest : List Char} (hrest : follows rest) :
    Scans sure ((Text.joined between (items.map text)).toList ++ rest)
      (separatedWords separator (items.map words)) rest := by
  -- the separator follows each item but the last one, so the induction is on the items after the
  -- first
  cases items with
  | nil => exact .refl rest
  | cons a as =>
      induction as generalizing a with
      | nil => simpa [separatedWords] using hitems a (by simp) rest hrest
      | cons b bs ih =>
          have htail := ih b fun c hc => hitems c (by simp [hc])
          have hword : separatedWords separator ((a :: b :: bs).map words) =
              words a ++ ([.symbol separator] ++ separatedWords separator ((b :: bs).map words)) := by
            simp [separatedWords]
          rw [hword]
          simp only [List.map_cons, Text.joined_cons_cons, String.toList_append, List.append_assoc]
            at htail ⊢
          refine (hitems a (by simp) _ (hbetween _).1).trans ?_
          exact ((hbetween _).2).trans htail

/-- A name with dots. -/
lemma scans_qualified {name : String} (h : IsQualifiedName name) {rest : List Char}
    (hrest : EndsName rest) : Scans sure (name.toList ++ rest) (qualifiedWords name) rest := by
  have hdot : ∀ rest, EndsName (".".toList ++ rest) ∧
      Scans sure (".".toList ++ rest) [.symbol .dot] rest := by
    intro rest
    exact ⟨endsName_cons (c := '.') (by simp [delimiters]) rest, .symbol .dot⟩
  have hparts : Scans sure _ _ _ := scans_joined id (fun part => [Word.name part])
    (nameParts name) hdot (fun part hpart rest hrest => scans_name (h part hpart) hrest) hrest
  rwa [List.map_id, ← Parser.joinName, joinName_nameParts] at hparts

/-! ### Imports -/

/-- The location of an import, if it has one. -/
lemma scans_location {uri : Option String} (h : ∀ u ∈ uri, IsLocation u) {rest : List Char}
    (hrest : ∀ c ∈ rest.head?, Text.isBlank c = true) :
    Scans sure ((Import.toSource.location uri).toList ++ rest) (Import.locationWords uri) rest := by
  cases uri with
  | none => exact .refl rest
  | some u =>
      have hfrom : EndsName (' ' :: (u.toList ++ rest)) := (breaks_cons (by decide) _).endsName
      have hscan : Scans sure _ _ _ := (Scans.keyword .fromKw hfrom).trans
        (Scans.uri (h u rfl) hrest).space
      have htext : (Import.toSource.location (some u)).toList ++ rest =
          ' ' :: (Keyword.fromKw.text.toList ++ ' ' :: (u.toList ++ rest)) := by
        simp [Import.toSource.location, Keyword.text]
      rw [htext]
      exact hscan.space

/-- What follows the names of an import continues none. -/
lemma endsName_location (uri : Option String) {rest : List Char} (hrest : EndsName rest) :
    EndsName ((Import.toSource.location uri).toList ++ rest) := by
  cases uri with
  | none => exact hrest
  | some u =>
      have hspace : EndsName (' ' :: ("from " ++ u).toList ++ rest) :=
        endsName_cons (by simp [delimiters]) _
      simpa [Import.toSource.location] using hspace

/-- An import, of which the last names are scanned. -/
lemma scans_importStatement {ns : String} (hns : IsQualifiedName ns) {uri : Option String}
    (huri : ∀ u ∈ uri, IsLocation u) {rest : List Char}
    (hrest : ∀ c ∈ rest.head?, Text.isBlank c = true) {last : String} {words : List Word}
    (hlast : Scans sure (last.toList ++ ((Import.toSource.location uri).toList ++ rest)) words
      ((Import.toSource.location uri).toList ++ rest)) :
    Scans sure (("import " ++ ns ++ "." ++ last ++ Import.toSource.location uri).toList ++ rest)
      (.keyword .importKw :: qualifiedWords ns ++ .symbol .dot :: words ++ Import.locationWords uri)
      rest := by
  have hdot : ∀ rest, EndsName (Symbol.dot.text.toList ++ rest) :=
    endsName_cons (c := '.') (by simp [delimiters])
  have himport : ∀ rest, EndsName (' ' :: rest) := fun rest => (breaks_cons (by decide) _).endsName
  have hscan : Scans sure _ _ _ := (Scans.keyword .importKw (himport _)).trans
    ((scans_qualified hns (hdot _)).trans
      ((Scans.symbol .dot).trans (hlast.trans (scans_location huri hrest)))).space
  simpa [Keyword.text, Symbol.text] using hscan

/-- An import is a line. -/
lemma scans_import {i : Import} (h : i.IsSpellable) (rest : List Char) :
    Scans sure (i.toSource.toList ++ '\n' :: rest) i.words ('\n' :: rest) := by
  have hline : EndsName ('\n' :: rest) := (breaks_cons (by decide) _).endsName
  have hblank : ∀ c ∈ ('\n' :: rest).head?, Text.isBlank c = true := by
    intro c hc
    rw [← Option.some.inj hc]
    decide
  cases i with
  | all ns uri =>
      have hscan : Scans sure _ _ _ := scans_importStatement h.1 h.2 hblank (Scans.symbol .star)
      simpa [Import.toSource, Import.words, Symbol.text] using hscan
  | type ns name uri =>
      obtain ⟨hns, hname, huri⟩ := h
      exact scans_importStatement hns huri hblank (scans_name hname (endsName_location uri hline))

/-! ### Decorators -/

/-- The brackets of an array are no part of a word. -/
lemma breaks_arrayBrackets (isArray : Bool) {rest : List Char} (hrest : Breaks rest) :
    Breaks ((arrayBrackets isArray).toList ++ rest) := by
  cases isArray with
  | false => exact hrest
  | true => exact breaks_cons (by decide) _

/-- The brackets of an array. -/
lemma scans_arrayBrackets (isArray : Bool) (rest : List Char) :
    Scans sure ((arrayBrackets isArray).toList ++ rest) (arrayWords isArray) rest := by
  cases isArray with
  | false => exact .refl rest
  | true => exact (Scans.symbol .openBracket).trans (.symbol .closeBracket)

/-- A truth value. -/
lemma scans_boolean (b : Bool) {rest : List Char} (hrest : Breaks rest) :
    Scans sure ((booleanWord b).toList ++ rest) (booleanWords b) rest := by
  cases b with
  | false => exact .keyword .falseKw hrest.endsName
  | true => exact .keyword .trueKw hrest.endsName

/-- An argument of a decorator. -/
lemma scans_argument {a : DecoratorArgument} (h : a.IsSpellable)
    (hplain : sure → ∀ n ∈ a.numerals, n.IsPlain) {rest : List Char} (hrest : Breaks rest) :
    Scans sure (a.toSource.toList ++ rest) a.words rest := by
  cases a with
  | string value location => exact .string value
  | number value location =>
      exact scans_numeral (.double value) (fun hsure => hplain hsure _ (by simp [DecoratorArgument.numerals]))
        hrest
  | boolean value location => exact scans_boolean value hrest
  | type ref isArray location =>
      have hscan : Scans sure _ _ _ := (scans_name h.1 (breaks_arrayBrackets isArray hrest).endsName).trans
        (scans_arrayBrackets isArray rest)
      simpa [DecoratorArgument.toSource, DecoratorArgument.words] using hscan

/-- A decorator. -/
lemma scans_decorator {d : Decorator} (h : d.IsSpellable)
    (hplain : sure → ∀ n ∈ d.numerals, n.IsPlain) {rest : List Char} (hrest : Breaks rest) :
    Scans sure (d.toSource.toList ++ rest) d.words rest := by
  obtain ⟨name, arguments, location⟩ := d
  obtain ⟨hname, harguments⟩ := h
  cases arguments with
  | none =>
      have hscan : Scans sure _ _ _ := (Scans.symbol .atSign).trans (scans_name hname hrest.endsName)
      simpa [Decorator.toSource, Decorator.words, Decorator.argumentWords, Symbol.text] using hscan
  | some arguments =>
      have hcomma : ∀ rest, Breaks (", ".toList ++ rest) ∧
          Scans sure (", ".toList ++ rest) [.symbol .comma] rest := by
        intro rest
        refine ⟨breaks_cons (by decide) _, ?_⟩
        exact (Scans.symbol .comma).trans (Scans.refl rest).space
      -- a comma or the parenthesis follows each argument, and neither goes on with it
      have hlist : Scans sure _ _ _ := scans_joined DecoratorArgument.toSource
        DecoratorArgument.words arguments hcomma
        (fun a ha rest hrest => scans_argument (harguments a ha)
          (fun hsure n hn => hplain hsure n (List.mem_flatMap.mpr ⟨a, ha, hn⟩)) hrest)
        (breaks_cons (c := ')') (by decide) rest)
      have hopen : EndsName (Symbol.openParen.text.toList ++
          ((Text.joined ", " (arguments.map DecoratorArgument.toSource)).toList ++ ')' :: rest)) :=
        (breaks_cons (by decide) _).endsName
      have hscan : Scans sure _ _ _ := (Scans.symbol .atSign).trans
        ((scans_name hname hopen).trans
          ((Scans.symbol .openParen).trans (hlist.trans (Scans.symbol .closeParen))))
      simpa [Decorator.toSource, Decorator.words, Decorator.argumentWords, Symbol.text] using hscan

/-! ### Modifiers -/

/-- A text that is empty or begins with a space continues no word. -/
lemma breaks_append {text : String} (h : text = "" ∨ text.toList.head? = some ' ')
    {rest : List Char} (hrest : Breaks rest) : Breaks (text.toList ++ rest) := by
  rcases h with rfl | h
  · exact hrest
  · intro c hc
    rw [List.head?_append, h] at hc
    rw [← Option.some.inj hc]
    decide

/-- A range in brackets. -/
lemma scans_bounds {α : Type} (number : α → Numeral) {text : α → String}
    (htext : ∀ a, text a = (number a).text) (b : Bounds α)
    (hplain : sure → ∀ n ∈ b.numerals number, n.IsPlain) (rest : List Char) :
    Scans sure ((b.toSource text).toList ++ rest) (b.words number) rest := by
  obtain ⟨lower, upper⟩ := b
  -- a missing bound is an empty text, and whatever follows a bound ends it
  have hbound : ∀ bound : Option α, (sure → ∀ n ∈ (bound.map number).toList, n.IsPlain) →
      ∀ rest, Breaks rest →
        Scans sure (((bound.map text).getD "").toList ++ rest)
          (bound.map fun a => (number a).word).toList rest := by
    intro bound hbound rest hrest
    cases bound with
    | none => exact .refl rest
    | some a =>
        simp only [Option.map_some, Option.getD_some, Option.toList_some, htext]
        exact scans_numeral (number a) (fun hsure => hbound hsure _ (by simp)) hrest
  have hlower := hbound lower (fun hsure n hn => hplain hsure n (List.mem_append_left _ hn))
    (Symbol.comma.text.toList ++ (((upper.map text).getD "").toList ++ ']' :: rest))
    (breaks_cons (by decide) _)
  have hupper := hbound upper (fun hsure n hn => hplain hsure n (List.mem_append_right _ hn))
    (']' :: rest) (breaks_cons (by decide) _)
  have hscan : Scans sure _ _ _ := (Scans.symbol .openBracket).trans
    (hlower.trans ((Scans.symbol .comma).trans (hupper.trans (.symbol .closeBracket))))
  simpa [Bounds.toSource, Bounds.words, Symbol.text] using hscan

/-- A modifier with a value, after a space. -/
lemma scans_modifier (k : Keyword) {text : List Char} {words : List Word} {rest : List Char}
    (h : Scans sure text words rest) :
    Scans sure (' ' :: (k.text.toList ++ '=' :: text)) (modifierWords k words) rest := by
  have hequals : EndsName (Symbol.equals.text.toList ++ text) := (breaks_cons (by decide) _).endsName
  have hscan : Scans sure _ _ _ := (Scans.keyword k hequals).trans ((Scans.symbol .equals).trans h)
  exact hscan.space

/-- The default of a property. -/
lemma scans_default (kind : PropertyKind) (hplain : sure → ∀ n ∈ kind.numerals, n.IsPlain)
    {rest : List Char} (hrest : Breaks rest) :
    Scans sure (((kind.defaultSource?.map (" default=" ++ ·)).getD "").toList ++ rest)
      ((kind.default?.map (modifierWords .defaultKw)).getD []) rest := by
  -- every default is `default=` before the text of its value
  have hvalue : ∀ {value : String} {words : List Word}, Scans sure (value.toList ++ rest) words rest →
      Scans sure ((" default=" ++ value).toList ++ rest) (modifierWords .defaultKw words) rest := by
    intro value words h
    have hscan : Scans sure _ _ _ := scans_modifier .defaultKw h
    simpa [Keyword.text] using hscan
  have hnumeral : ∀ n ∈ kind.numerals, Scans sure (n.text.toList ++ rest) [n.word] rest :=
    fun n hn => scans_numeral n (fun hsure => hplain hsure n hn) hrest
  cases kind with
  | relationship | dateTime => exact .refl rest
  | object _ default | string default =>
      cases default with
      | none => exact .refl rest
      | some value => exact hvalue (.string value)
  | boolean default =>
      cases default with
      | none => exact .refl rest
      | some value => exact hvalue (scans_boolean value hrest)
  | double default bounds =>
      cases default with
      | none => exact .refl rest
      | some value => exact hvalue (hnumeral (.double value) (by simp [PropertyKind.numerals]))
  | integer default bounds | long default bounds =>
      cases default with
      | none => exact .refl rest
      | some value => exact hvalue (hnumeral (.integer value) (by simp [PropertyKind.numerals]))

/-- A pattern is not empty and begins with no star once its slashes are escaped. -/
lemma head?_escapeSlashes {p : StringPattern} (h : p.IsSpellable) :
    escapeSlashesFrom false p.pattern.toList ≠ [] ∧
      (escapeSlashesFrom false p.pattern.toList).head? ≠ some '*' := by
  have hne : p.pattern.toList ≠ [] := by simpa using h.nonempty
  have hstar := h.noStar
  obtain ⟨c, cs, hcs⟩ := List.exists_cons_of_ne_nil hne
  rw [hcs] at hstar ⊢
  simp only [escapeSlashesFrom]
  split
  · simp
  · simpa using hstar

/-- A pattern with its flags, after the words that announce it. -/
lemma scans_announced {p : StringPattern} (h : p.IsSpellable) {rest : List Char}
    (hrest : Breaks rest) :
    Scans sure (("regex=" ++ p.toSource).toList ++ rest) (modifierWords .regexKw [p.word]) rest := by
  obtain ⟨hne, hstar⟩ := head?_escapeSlashes h
  have hbody : isPatternBody false (escapeSlashesFrom false p.pattern.toList) = true := by
    rw [isPatternBody_escapeSlashesFrom]
    exact h.isText
  have hscan : Scans sure _ _ _ := .pattern hne hstar hbody h.flags hrest.not_isLetter
  have hword : p.word = ⟨.regex, String.ofList
      (escapeSlashesFrom false p.pattern.toList ++ '/' :: p.flags.toList)⟩ := by
    simp [StringPattern.word, escapeSlashes, String.ext_iff]
  rw [hword]
  simpa [StringPattern.toSource, escapeSlashes, modifierWords] using hscan

/-- These words stand after a space. -/
lemma scans_pattern {p : StringPattern} (h : p.IsSpellable) {rest : List Char}
    (hrest : Breaks rest) :
    Scans sure ((" regex=" ++ p.toSource).toList ++ rest) (modifierWords .regexKw [p.word]) rest := by
  have hscan : Scans sure _ _ _ := (scans_announced h hrest).space
  simpa using hscan

/-- A range, after the words that announce it. -/
lemma scans_range {α : Type} (number : α → Numeral) {text : α → String}
    (htext : ∀ a, text a = (number a).text) (b : Bounds α)
    (hplain : sure → ∀ n ∈ b.numerals number, n.IsPlain) (rest : List Char) :
    Scans sure ((" range=" ++ b.toSource text).toList ++ rest)
      (modifierWords .rangeKw (b.words number)) rest := by
  have hscan : Scans sure _ _ _ :=
    scans_modifier .rangeKw (scans_bounds number htext b hplain rest)
  simpa [Keyword.text] using hscan

/-- The constraint of a property. -/
lemma scans_constraint {kind : PropertyKind} (h : kind.IsSpellable)
    (hplain : sure → ∀ n ∈ kind.numerals, n.IsPlain) {rest : List Char} (hrest : Breaks rest) :
    Scans sure ((kind.constraintSource?.getD "").toList ++ rest)
      ((kind.constraint?.map fun c => modifierWords c.1 c.2).getD []) rest := by
  cases kind with
  | object | relationship | boolean | dateTime => exact .refl rest
  | string default pattern =>
      cases pattern with
      | none => exact .refl rest
      | some p => exact scans_pattern (h p rfl) hrest
  | double default bounds =>
      cases bounds with
      | none => exact .refl rest
      | some b =>
          refine scans_range .double (fun _ => rfl) b (fun hsure n hn => hplain hsure n ?_) rest
          simp [PropertyKind.numerals, hn]
  | integer default bounds | long default bounds =>
      cases bounds with
      | none => exact .refl rest
      | some b =>
          refine scans_range .integer (fun _ => rfl) b (fun hsure n hn => hplain hsure n ?_) rest
          simp [PropertyKind.numerals, hn]

/-- The constraint of a property is empty or begins with a space. -/
lemma constraintSource_head (kind : PropertyKind) :
    kind.constraintSource?.getD "" = "" ∨
      (kind.constraintSource?.getD "").toList.head? = some ' ' := by
  cases kind with
  | object | relationship | boolean | dateTime => exact Or.inl rfl
  | string _ pattern => cases pattern <;> simp [PropertyKind.constraintSource?]
  | double _ bounds | integer _ bounds | long _ bounds =>
      cases bounds <;> simp [PropertyKind.constraintSource?]

/-! ### Lines -/

/-- Lines with a line break after each. -/
def terminated (lines : List String) : List Char := lines.flatMap fun l => l.toList ++ ['\n']

/-- Lines are scanned before any text. -/
def ScansLines (sure : Prop) (lines : List String) (words : List Word) : Prop :=
  ∀ rest : List Char, Scans sure (terminated lines ++ rest) words rest

namespace ScansLines

/-- A single line. -/
lemma line {line : String} {words : List Word}
    (h : ∀ rest, Scans sure (line.toList ++ '\n' :: rest) words ('\n' :: rest)) :
    ScansLines sure [line] words := by
  intro rest
  have hbreak : Scans sure ('\n' :: rest) [] rest := .blank (by decide) (by decide) (.refl rest)
  have hscan : Scans sure _ _ _ := (h rest).trans hbreak
  simpa [terminated] using hscan

/-- Lines after lines. -/
lemma append {lines lines' : List String} {words words' : List Word}
    (h : ScansLines sure lines words) (h' : ScansLines sure lines' words') :
    ScansLines sure (lines ++ lines') (words ++ words') := by
  intro rest
  have hscan : Scans sure _ _ _ := (h (terminated lines' ++ rest)).trans (h' rest)
  simpa [terminated] using hscan

/-- No lines. -/
lemma nil : ScansLines sure [] [] := fun rest => .refl rest

/-- An empty line. -/
lemma empty : ScansLines sure [""] [] := line fun rest => .refl ('\n' :: rest)

/-- Some lines for each item. -/
lemma flatMap {α : Type} {lines : α → List String} {words : α → List Word} {items : List α}
    (h : ∀ a ∈ items, ScansLines sure (lines a) (words a)) :
    ScansLines sure (items.flatMap lines) (items.flatMap words) := by
  induction items with
  | nil => exact nil
  | cons a as ih =>
      rw [List.flatMap_cons, List.flatMap_cons]
      exact (h a (by simp)).append (ih fun b hb => h b (by simp [hb]))

end ScansLines

/-- The decorators of a header, each on a line. -/
lemma scansLines_decorators {h : Header} (hspellable : h.IsSpellable)
    (hplain : sure → ∀ n ∈ h.numerals, n.IsPlain) {margin : String}
    (hmargin : margin = "" ∨ margin = bodyMargin) :
    ScansLines sure (h.decoratorLines margin) h.decoratorWords := by
  rw [Header.decoratorLines, List.map_eq_flatMap]
  refine ScansLines.flatMap fun d hd => .line fun rest => ?_
  have hscan : Scans sure _ _ _ := scans_decorator (hspellable.decorators d hd)
    (fun hsure n hn => hplain hsure n (List.mem_flatMap.mpr ⟨d, hd, hn⟩))
    (breaks_cons (c := '\n') (by decide) rest)
  rcases hmargin with rfl | rfl
  · simpa using hscan
  · simpa [bodyMargin] using hscan.space.space

/-- The marker of a property and its type. -/
lemma scans_type {kind : PropertyKind} (h : kind.IsSpellable) {rest : List Char}
    (hrest : Breaks rest) :
    Scans sure (kind.typeSource.toList ++ rest) kind.typeWords rest := by
  have hspace : ∀ rest, EndsName (' ' :: rest) := fun rest => (breaks_cons (by decide) _).endsName
  have hmarked : ∀ name : String, isIdentifier name = true →
      Scans sure (("o " ++ name).toList ++ rest) [.keyword .propertyKw, .name name] rest := by
    intro name hname
    have hscan : Scans sure _ _ _ :=
      (Scans.keyword .propertyKw (hspace _)).trans (scans_name hname hrest.endsName).space
    simpa [Keyword.text] using hscan
  -- the name of a built-in type is a name too
  have hprimitive : ∀ {name : String}, name ∈ primitiveNames → isIdentifier name = true :=
    fun hname => (isTypeName_of_mem_fixedNames (List.mem_append_left _ hname)).1
  cases kind with
  | object type default => exact hmarked type.name h.1.1
  | relationship type =>
      have hscan : Scans sure _ _ _ :=
        (Scans.symbol .arrow).trans (scans_name h.1 hrest.endsName).space
      simpa [PropertyKind.typeSource, PropertyKind.typeWords, Symbol.text] using hscan
  | boolean default => exact hmarked "Boolean" (hprimitive (by simp [primitiveNames]))
  | dateTime => exact hmarked "DateTime" (hprimitive (by simp [primitiveNames]))
  | string default pattern => exact hmarked "String" (hprimitive (by simp [primitiveNames]))
  | double default bounds => exact hmarked "Double" (hprimitive (by simp [primitiveNames]))
  | integer default bounds => exact hmarked "Integer" (hprimitive (by simp [primitiveNames]))
  | long default bounds => exact hmarked "Long" (hprimitive (by simp [primitiveNames]))

/-- The mark of an optional property. -/
lemma scans_optional (isOptional : Bool) {rest : List Char} (hrest : Breaks rest) :
    Scans sure ((if isOptional then " optional" else "").toList ++ rest)
      (if isOptional then [.keyword .optionalKw] else []) rest := by
  cases isOptional with
  | false => exact .refl rest
  | true => exact (Scans.keyword .optionalKw hrest.endsName).space

/-- A property with its decorators. -/
lemma scansLines_property {p : Property} (h : p.IsSpellable)
    (hplain : sure → ∀ n ∈ p.numerals, n.IsPlain) : ScansLines sure p.sourceLines p.words := by
  obtain ⟨hname, hheader, hkind⟩ := h
  have hdecorators := scansLines_decorators hheader
    (fun hsure n hn => hplain hsure n (List.mem_append_left _ hn)) (Or.inr rfl)
  have hnumerals : sure → ∀ n ∈ p.kind.numerals, n.IsPlain :=
    fun hsure n hn => hplain hsure n (List.mem_append_right _ hn)
  have hline : ScansLines sure [bodyMargin ++ p.kind.typeSource ++ arrayBrackets p.isArray ++ " " ++
      p.header.name ++ ((p.kind.defaultSource?.map (" default=" ++ ·)).getD "") ++
      p.kind.constraintSource?.getD "" ++ (if p.isOptional then " optional" else "")]
      (p.kind.typeWords ++ (arrayWords p.isArray ++ ([.name p.header.name] ++
        ((p.kind.default?.map (modifierWords .defaultKw)).getD [] ++
          ((p.kind.constraint?.map fun c => modifierWords c.1 c.2).getD [] ++
            (if p.isOptional then [.keyword .optionalKw] else [])))))) := by
    refine .line fun rest => ?_
    -- from the end of the line backwards: what follows each part does not go on with it
    have hend : Breaks ('\n' :: rest) := breaks_cons (by decide) rest
    have hoptional : Breaks ((if p.isOptional then " optional" else "").toList ++ '\n' :: rest) :=
      breaks_append (by cases p.isOptional <;> simp) hend
    have hconstraint := breaks_append (constraintSource_head p.kind) hoptional
    have hdefault : Breaks (((p.kind.defaultSource?.map (" default=" ++ ·)).getD "").toList ++
        ((p.kind.constraintSource?.getD "").toList ++
          ((if p.isOptional then " optional" else "").toList ++ '\n' :: rest))) :=
      breaks_append (by cases p.kind.defaultSource? <;> simp) hconstraint
    have hbrackets : ∀ rest, Breaks ((arrayBrackets p.isArray).toList ++ ' ' :: rest) :=
      fun rest => breaks_arrayBrackets p.isArray (breaks_cons (by decide) rest)
    have hscan : Scans sure _ _ _ := (scans_type hkind (hbrackets _)).trans
      ((scans_arrayBrackets p.isArray _).trans
        ((scans_name hname hdefault.endsName).space.trans
          ((scans_default p.kind hnumerals hconstraint).trans
            ((scans_constraint hkind hnumerals hoptional).trans
              (scans_optional p.isOptional hend)))))
    simpa [bodyMargin] using hscan.space.space
  have hlines := hdecorators.append hline
  simpa [Property.sourceLines, Property.words] using hlines

/-! ### Declarations -/

/-- The identification of a concept. -/
lemma scans_identification {identified : Option Identification}
    (h : ∀ i ∈ identified, i.IsSpellable) {rest : List Char} (hrest : Breaks rest) :
    Scans sure (((identified.map Identification.toSource).getD "").toList ++ rest)
      ((identified.map Identification.words).getD []) rest := by
  have hspace : ∀ rest, EndsName (' ' :: rest) := fun rest => (breaks_cons (by decide) _).endsName
  cases identified with
  | none => exact .refl rest
  | some i =>
      have hi := h i rfl
      cases i with
      | system => exact (Scans.keyword .identifiedKw hrest.endsName).space
      | byProperty name =>
          have hscan : Scans sure _ _ _ := (Scans.keyword .identifiedKw (hspace _)).trans
            ((Scans.keyword .byKw (hspace _)).trans (scans_name hi hrest.endsName).space).space
          simpa [Identification.toSource, Identification.words, Keyword.text] using hscan.space

/-- The identification is empty or begins with a space. -/
lemma identification_head (identified : Option Identification) :
    (identified.map Identification.toSource).getD "" = "" ∨
      ((identified.map Identification.toSource).getD "").toList.head? = some ' ' := by
  cases identified with
  | none => exact Or.inl rfl
  | some i => cases i <;> simp [Identification.toSource]

/-- The super type of a concept. -/
lemma scans_superType {superType : Option Reference} (h : ∀ r ∈ superType, IsTypeName r.name)
    {rest : List Char} (hrest : Breaks rest) :
    Scans sure (((superType.map fun r => " extends " ++ r.name).getD "").toList ++ rest)
      ((superType.map fun r => [.keyword .extendsKw, .name r.name]).getD []) rest := by
  cases superType with
  | none => exact .refl rest
  | some r =>
      have hspace : EndsName (' ' :: (r.name.toList ++ rest)) := (breaks_cons (by decide) _).endsName
      have hscan : Scans sure _ _ _ := (Scans.keyword .extendsKw hspace).trans
        (scans_name (h r rfl).1 hrest.endsName).space
      simpa [Keyword.text] using hscan.space

/-- The line of a closing brace. -/
lemma scansLines_close : ScansLines sure ["\x7d"] [.symbol .closeBrace] :=
  .line fun _ => .symbol .closeBrace

/-- A concept. -/
lemma scansLines_concept {c : Concept} (h : c.IsSpellable)
    (hplain : sure → ∀ n ∈ c.numerals, n.IsPlain) :
    ScansLines sure (Declaration.concept c).sourceLines c.words := by
  have hspace : ∀ rest, EndsName (' ' :: rest) := fun rest => (breaks_cons (by decide) _).endsName
  have hdecorators := scansLines_decorators h.header
    (fun hsure n hn => hplain hsure n (List.mem_append_left _ hn)) (Or.inl rfl)
  have hproperties : ScansLines sure (c.properties.flatMap Property.sourceLines)
      (c.properties.flatMap Property.words) :=
    .flatMap fun p hp => scansLines_property (h.properties p hp) fun hsure n hn =>
      hplain hsure n (List.mem_append_right _ (List.mem_flatMap.mpr ⟨p, hp, hn⟩))
  have hheader : ScansLines sure [c.headerLine]
      ((if c.isAbstract then [.keyword .abstractKw] else []) ++
        ([.keyword (.conceptKw c.kind)] ++ ([.name c.header.name] ++
          ((c.superType.map fun r => [.keyword .extendsKw, .name r.name]).getD [] ++
            ((c.identified.map Identification.words).getD [] ++ [.symbol .openBrace]))))) := by
    refine .line fun rest => ?_
    -- from the brace backwards: what follows each part does not go on with it
    have hopen : Breaks (' ' :: (Symbol.openBrace.text.toList ++ '\n' :: rest)) :=
      breaks_cons (by decide) _
    have hidentified := breaks_append (identification_head c.identified) hopen
    have hsuper : Breaks (((c.superType.map fun r => " extends " ++ r.name).getD "").toList ++
        (((c.identified.map Identification.toSource).getD "").toList ++
          ' ' :: (Symbol.openBrace.text.toList ++ '\n' :: rest))) :=
      breaks_append (by cases c.superType <;> simp) hidentified
    have hscan : Scans sure _ _ _ := (Scans.keyword (.conceptKw c.kind) (hspace _)).trans
      ((scans_name h.name.1 hsuper.endsName).space.trans
        ((scans_superType h.superType hidentified).trans
          ((scans_identification h.identified hopen).trans
            (Scans.symbol .openBrace).space)))
    cases habstract : c.isAbstract with
    | false =>
        simpa [Concept.headerLine, habstract, Keyword.text, Symbol.text] using hscan
    | true =>
        have hscan : Scans sure _ _ _ := (Scans.keyword .abstractKw (hspace _)).trans hscan.space
        simpa [Concept.headerLine, habstract, Keyword.text, Symbol.text] using hscan
  have hlines := hdecorators.append (hheader.append (hproperties.append scansLines_close))
  simpa [Declaration.sourceLines, Concept.words] using hlines

/-- A value of an enumeration. -/
lemma scansLines_value {v : Header} (hname : isIdentifier v.name = true) (h : v.IsSpellable)
    (hplain : sure → ∀ n ∈ v.numerals, n.IsPlain) :
    ScansLines sure (v.decoratorLines bodyMargin ++ [bodyMargin ++ "o " ++ v.name])
      (Enumeration.valueWords v) := by
  refine (scansLines_decorators h hplain (Or.inr rfl)).append (.line fun rest => ?_)
  have hspace : EndsName (' ' :: (v.name.toList ++ '\n' :: rest)) :=
    (breaks_cons (by decide) _).endsName
  have hend : EndsName ('\n' :: rest) := (breaks_cons (by decide) _).endsName
  have hscan : Scans sure _ _ _ :=
    (Scans.keyword .propertyKw hspace).trans (scans_name hname hend).space
  simpa [bodyMargin, Keyword.text] using hscan.space.space

/-- An enumeration. -/
lemma scansLines_enumeration {e : Enumeration} (h : e.IsSpellable)
    (hplain : sure → ∀ n ∈ e.numerals, n.IsPlain) :
    ScansLines sure (Declaration.enumeration e).sourceLines e.words := by
  have hspace : ∀ rest, EndsName (' ' :: rest) := fun rest => (breaks_cons (by decide) _).endsName
  have hdecorators := scansLines_decorators h.header
    (fun hsure n hn => hplain hsure n (List.mem_append_left _ hn)) (Or.inl rfl)
  have hvalues : ScansLines sure
      (e.values.flatMap fun v => v.decoratorLines bodyMargin ++ [bodyMargin ++ "o " ++ v.name])
      (e.values.flatMap Enumeration.valueWords) :=
    .flatMap fun v hv => scansLines_value (h.values v hv).1 (h.values v hv).2 fun hsure n hn =>
      hplain hsure n (List.mem_append_right _ (List.mem_flatMap.mpr ⟨v, hv, hn⟩))
  have hheader : ScansLines sure ["enum " ++ e.header.name ++ " \x7b"]
      [.keyword .enumKw, .name e.header.name, .symbol .openBrace] := by
    refine .line fun rest => ?_
    have hscan : Scans sure _ _ ('\n' :: rest) := (Scans.keyword .enumKw (hspace _)).trans
      ((scans_name h.name.1 (hspace _)).space.trans (Scans.symbol .openBrace).space)
    simpa [Keyword.text, Symbol.text] using hscan
  have hlines := hdecorators.append (hheader.append (hvalues.append scansLines_close))
  simpa [Declaration.sourceLines, Enumeration.words] using hlines

/-- A declaration. -/
lemma scansLines_declaration {d : Declaration} (h : d.IsSpellable)
    (hplain : sure → ∀ n ∈ d.numerals, n.IsPlain) : ScansLines sure d.sourceLines d.words := by
  cases d with
  | concept c => exact scansLines_concept h hplain
  | enumeration e => exact scansLines_enumeration h hplain

/-! ### Models -/

/-- Lines that are not empty are put together with line breaks between them; one more is at the
end. -/
lemma lines_terminated {lines : List String} (hne : lines ≠ []) :
    (Text.lines lines).toList ++ ['\n'] = terminated lines := by
  cases lines with
  | nil => exact absurd rfl hne
  | cons line lines =>
      induction lines generalizing line with
      | nil => simp [Text.lines, terminated]
      | cons next lines ih =>
          have htail := ih next (by simp)
          simp only [Text.lines, terminated] at htail ⊢
          rw [Text.joined_cons_cons, List.flatMap_cons, ← htail]
          simp

/-- The lines of several blocks with an empty line between each and the next. -/
lemma blocks_terminated {block : List String} {blocks : List (List String)} (hne : block ≠ [])
    (hblocks : ∀ b ∈ blocks, b ≠ []) :
    (Text.joined "\n\n" ((block :: blocks).map Text.lines)).toList ++ ['\n'] =
      terminated (block ++ blocks.flatMap fun b => "" :: b) := by
  induction blocks generalizing block with
  | nil => simp [lines_terminated hne]
  | cons next blocks ih =>
      have htail := ih (hblocks next (by simp)) fun b hb => hblocks b (by simp [hb])
      have hblock := lines_terminated hne
      have hterminated : terminated (block ++ (next :: blocks).flatMap fun b => "" :: b) =
          terminated block ++ ['\n'] ++ terminated (next ++ blocks.flatMap fun b => "" :: b) := by
        simp [terminated]
      rw [hterminated, ← htail, ← hblock]
      simp

namespace Model

/-- The lines of a model, block by block. -/
def lineBlocks (m : Model) : List (List String) :=
  (if m.imports.isEmpty then [] else [m.imports.map Import.toSource]) ++
    m.declarations.map Declaration.sourceLines

/-- The source text is made of lines. -/
lemma toSource_eq_terminated (m : Model) :
    m.toSource.toList = terminated (m.headerLines ++ m.lineBlocks.flatMap fun b => "" :: b) := by
  -- no block is empty, so that an empty line stands exactly between two blocks
  have hheader : m.headerLines ≠ [] := by simp [headerLines]
  have hblocks : ∀ b ∈ m.lineBlocks, b ≠ [] := by
    intro b hb
    rcases List.mem_append.mp hb with hb | hb
    · split at hb
      · simp at hb
      · next hempty =>
          rw [List.mem_singleton.mp hb]
          simpa using hempty
    · obtain ⟨d, -, rfl⟩ := List.mem_map.mp hb
      cases d <;> simp [Declaration.sourceLines]
  have hsource : m.sourceBlocks = (m.headerLines :: m.lineBlocks).map Text.lines := by
    simp only [sourceBlocks, lineBlocks, List.map_cons, List.map_append, List.map_map]
    congr 2
    split <;> simp
  rw [← blocks_terminated hheader hblocks, ← hsource]
  simp [toSource]

/-- The namespace of a model. -/
lemma scans_namespace {ns : String} (h : IsQualifiedName ns) {rest : List Char}
    (hrest : EndsName rest) : Scans sure (("namespace " ++ ns).toList ++ rest)
      ([.keyword .namespaceKw] ++ qualifiedWords ns) rest := by
  have hspace : EndsName (' ' :: (ns.toList ++ rest)) := (breaks_cons (by decide) _).endsName
  have hscan : Scans sure _ _ _ :=
    (Scans.keyword .namespaceKw hspace).trans (scans_qualified h hrest).space
  simpa [Keyword.text] using hscan

/-- The header of a model. -/
lemma scansLines_header {m : Model} (h : IsQualifiedName m.ns) :
    ScansLines sure m.headerLines
      (versionWords m.concertoVersion ++ ([.keyword .namespaceKw] ++ qualifiedWords m.ns)) := by
  have hspace : ∀ rest, EndsName (' ' :: rest) := fun rest => (breaks_cons (by decide) _).endsName
  have hns : ScansLines sure ["namespace " ++ m.ns]
      ([.keyword .namespaceKw] ++ qualifiedWords m.ns) :=
    .line fun rest => scans_namespace h (breaks_cons (by decide) rest).endsName
  refine ScansLines.append ?_ hns
  cases m.concertoVersion with
  | none => exact .nil
  | some version =>
      refine .line fun rest => ?_
      have hconcerto : isIdentifier "concerto" = true :=
        (isTypeName_of_mem_fixedNames (by simp [fixedNames])).1
      have hversion : isIdentifier "version" = true :=
        (isTypeName_of_mem_fixedNames (by simp [fixedNames])).1
      have hscan : Scans sure _ _ ('\n' :: rest) := (scans_name hconcerto (hspace _)).trans
        ((scans_name hversion (hspace _)).space.trans (Scans.string version).space)
      simpa [versionWords] using hscan

/-- The imports and the declarations of a model, block by block. -/
lemma scansLines_blocks {m : Model} (himports : ∀ i ∈ m.imports, i.IsSpellable)
    (hdeclarations : ∀ d ∈ m.declarations, d.IsSpellable)
    (hplain : sure → ∀ n ∈ m.numerals, n.IsPlain) :
    ScansLines sure (m.lineBlocks.flatMap fun b => "" :: b)
      (m.imports.flatMap Import.words ++ m.declarations.flatMap Declaration.words) := by
  rw [lineBlocks, List.flatMap_append, List.flatMap_map]
  refine ScansLines.append ?_ (.flatMap fun d hd => ?_)
  · have hlines : ScansLines sure (m.imports.map Import.toSource)
        (m.imports.flatMap Import.words) := by
      rw [List.map_eq_flatMap]
      exact .flatMap fun i hi => .line fun rest => scans_import (himports i hi) rest
    -- the imports are one block, which is left out if there are none
    split
    · next hempty =>
        rw [List.isEmpty_iff.mp hempty]
        exact .nil
    · simpa using ScansLines.empty.append hlines
  · have hlines : ScansLines sure _ _ := scansLines_declaration (hdeclarations d hd) fun hsure n hn =>
      hplain hsure n (List.mem_flatMap.mpr ⟨d, hd, hn⟩)
    exact ScansLines.empty.append hlines

/-- The source text of a model is scanned to its words, provided that names, patterns and
locations can be told. It is sure to be scanned if so can its numbers. -/
theorem scans_toSource {m : Model} (hns : IsQualifiedName m.ns)
    (himports : ∀ i ∈ m.imports, i.IsSpellable)
    (hdeclarations : ∀ d ∈ m.declarations, d.IsSpellable)
    (hplain : sure → ∀ n ∈ m.numerals, n.IsPlain) : Scans sure m.toSource.toList m.words [] := by
  have hlines := (scansLines_header hns).append
    (scansLines_blocks himports hdeclarations hplain) []
  rw [← toSource_eq_terminated, List.append_nil] at hlines
  simpa [words] using hlines

end Model

end Concerto
