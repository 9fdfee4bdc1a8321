import Concerto.Proofs.Model.Spellable
import Concerto.Proofs.Pattern.Regex
import Concerto.Proofs.Token.Name
import Concerto.Schema.Metamodel

/-!
The pattern of names in the metamodel, and the check of names.

* `NameUnit.ofChars_flatMap`: the units of a text that is put together from units;
* `Metamodel.matches_startUnit`, `Metamodel.matches_partUnit`: the two choices in the pattern match the
  units that may begin and continue a name;
* `Metamodel.test_nameRegex`: the pattern matches the names that begin with no reserved word;
* `Metamodel.test_namePattern_iff`: so does the pattern that the source text of the metamodel puts on the
  names of declarations, properties and enum values.
-/

namespace Concerto

/-- The pattern on a property of a class that a model declares. -/
def Model.patternOf? (m : Model) (className propertyName : String) : Option StringPattern :=
  match m.declarations.find? fun d => d.name = className with
  | some (.concept c) =>
    match c.properties.find? fun p => p.header.name = propertyName with
    | some ⟨_, _, _, .string _ pattern⟩ => pattern
    | _ => none
  | _ => none

/-! ### Units -/

namespace NameUnit

/-- The digits of an escape are hexadecimal. -/
def IsProper : NameUnit → Prop
  | escape a b c d => isHexDigit a && isHexDigit b && isHexDigit c && isHexDigit d
  | char _ => True

/-- The units of a text are the text. -/
lemma flatMap_ofChars (cs : List Char) : (ofChars cs).flatMap chars = cs := by
  fun_induction ofChars cs <;> simp_all [chars]

lemma isProper_of_mem_ofChars {cs : List Char} : ∀ unit ∈ ofChars cs, unit.IsProper := by
  fun_induction ofChars cs <;> simp_all [IsProper]

/-- A unit that continues a name is read as such, as it is no backslash by itself. -/
lemma ofChars_chars_append {unit : NameUnit} (hproper : unit.IsProper)
    (h : unit.canContinue = true) (cs : List Char) :
    ofChars (unit.chars ++ cs) = unit :: ofChars cs := by
  cases unit with
  | escape a b c d =>
      rw [IsProper] at hproper
      simp [chars, ofChars, hproper]
  | char c => exact ofChars_cons (ne_backslash_of_isIdentifierPart h) cs

lemma ofChars_flatMap {units : List NameUnit}
    (h : ∀ unit ∈ units, unit.IsProper ∧ unit.canContinue = true) :
    ofChars (units.flatMap chars) = units := by
  induction units with
  | nil => rfl
  | cons unit units ih =>
      obtain ⟨⟨hproper, hcontinue⟩, hunits⟩ := List.forall_mem_cons.mp h
      rw [List.flatMap_cons, ofChars_chars_append hproper hcontinue, ih hunits]

end NameUnit

/-- A text is formed like a name if it is put together from units that may begin and continue one. -/
lemma unitsFormName_ofChars_iff {cs : List Char} : unitsFormName (NameUnit.ofChars cs) = true ↔
    ∃ (first : NameUnit) (others : List NameUnit), (first.IsProper ∧ first.canStart = true) ∧
      (∀ unit ∈ others, unit.IsProper ∧ unit.canContinue = true) ∧
      cs = first.chars ++ others.flatMap NameUnit.chars := by
  constructor
  · intro h
    have hproper : ∀ unit ∈ NameUnit.ofChars cs, unit.IsProper := NameUnit.isProper_of_mem_ofChars
    have hchars := NameUnit.flatMap_ofChars cs
    cases hunits : NameUnit.ofChars cs with
    | nil => simp [hunits, unitsFormName] at h
    | cons first others =>
        rw [hunits, unitsFormName, Bool.and_eq_true, List.all_eq_true] at h
        rw [hunits, List.forall_mem_cons] at hproper
        rw [hunits] at hchars
        exact ⟨first, others, ⟨hproper.1, h.1⟩,
          fun unit hunit => ⟨hproper.2 unit hunit, h.2 unit hunit⟩, hchars.symm⟩
  · rintro ⟨first, others, ⟨hproper, hstart⟩, hothers, rfl⟩
    rw [NameUnit.ofChars_chars_append hproper (NameUnit.canContinue_of_canStart hstart),
      NameUnit.ofChars_flatMap hothers, unitsFormName, Bool.and_eq_true, List.all_eq_true]
    exact ⟨hstart, fun unit hunit => (hothers unit hunit).2⟩

namespace Metamodel

/-! ### Expressions -/

/-- A digit of an escape. -/
def hexRegex : Regex := .one [.range '0' '9', .range 'A' 'F', .range 'a' 'f']

/-- An escape, spelled out. -/
def escapeRegex : Regex :=
  .inOrder [.char '\\', .char 'u', .inOrder (List.replicate 4 hexRegex)]

/-- What a name may begin with. -/
def startRegexes : List Regex :=
  Text.startCategories.map .category ++ [.char '$', .char '_', escapeRegex]

/-- What a name may go on with. -/
def partRegexes : List Regex :=
  startRegexes ++ Text.continuingCategories.map .category ++ [.char '\u200C', .char '\u200D']

/-- The expression of the pattern of names. -/
def nameRegex : Regex :=
  .inOrder [.atStart, .notAhead (.oneOf (reservedWords.map .word)), .oneOf startRegexes,
    .star (.oneOf partRegexes), .atEnd]

/-- The pattern is read as the expression, also with its slashes escaped. -/
lemma regex?_namePattern : namePattern.sourceForm.regex? = some nameRegex := by
  have hread : Regex.read? (escapeSlashesFrom false namePattern.pattern.toList) =
      some nameRegex := by
    rw [toList_namePattern]
    decide +kernel
  rw [← hread, StringPattern.regex?, StringPattern.sourceForm, escapeSlashes, String.toList_ofList]
  exact if_pos rfl

/-! ### What the expressions match -/

section
variable {text cs rest : List Char}

lemma exists_matches_category {ks : List Text.Category} :
    (∃ r ∈ ks.map Regex.category, r.Matches text cs rest) ↔
      ∃ c, Text.category c ∈ ks ∧ cs = c :: rest := by
  simp only [List.mem_map, exists_exists_and_eq_and, Regex.matches_category]
  constructor
  · rintro ⟨_, hk, c, rfl, rfl⟩
    exact ⟨c, hk, rfl⟩
  · rintro ⟨c, hk, rfl⟩
    exact ⟨_, hk, c, rfl, rfl⟩

lemma matches_hexRegex :
    hexRegex.Matches text cs rest ↔ ∃ c, isHexDigit c = true ∧ cs = c :: rest := by
  have hholds : ∀ c, (∃ item ∈ [ClassItem.range '0' '9', .range 'A' 'F', .range 'a' 'f'],
      item.Holds c) ↔ isHexDigit c = true := by
    intro c
    simp only [List.mem_cons, List.not_mem_nil, or_false, exists_eq_or_imp, exists_eq_left,
      ClassItem.Holds, isHexDigit, Bool.or_eq_true, Bool.and_eq_true, decide_eq_true_eq]
    tauto
  simp only [hexRegex, Regex.Matches, hholds]

lemma matches_escapeRegex : escapeRegex.Matches text cs rest ↔
    ∃ a b c d, (NameUnit.escape a b c d).IsProper ∧ cs = '\\' :: 'u' :: a :: b :: c :: d :: rest := by
  simp only [escapeRegex, List.replicate, Regex.matches_char, matches_hexRegex, Regex.inOrder,
    Regex.matches_seq, NameUnit.IsProper, Bool.and_eq_true]
  constructor
  · rintro ⟨_, rfl, _, rfl, _, ⟨a, ha, rfl⟩, _, ⟨b, hb, rfl⟩, _, ⟨c, hc, rfl⟩, d, hd, rfl⟩
    exact ⟨a, b, c, d, ⟨⟨⟨ha, hb⟩, hc⟩, hd⟩, rfl⟩
  · rintro ⟨a, b, c, d, ⟨⟨⟨ha, hb⟩, hc⟩, hd⟩, rfl⟩
    exact ⟨_, rfl, _, rfl, _, ⟨a, ha, rfl⟩, _, ⟨b, hb, rfl⟩, _, ⟨c, hc, rfl⟩, d, hd, rfl⟩

/-- The first choice matches the units that a name may begin with. -/
lemma matches_startUnit : (Regex.oneOf startRegexes).Matches text cs rest ↔
    ∃ unit : NameUnit, (unit.IsProper ∧ unit.canStart = true) ∧ cs = unit.chars ++ rest := by
  have hchoice : (Regex.oneOf startRegexes).Matches text cs rest ↔
      (∃ c, isIdentifierStart c = true ∧ cs = c :: rest) ∨ escapeRegex.Matches text cs rest := by
    simp only [Regex.matches_oneOf, startRegexes, List.mem_append, or_and_right, exists_or,
      exists_matches_category, List.mem_cons, List.not_mem_nil, or_false, exists_eq_left,
      Regex.matches_char, isIdentifierStart_iff, or_assoc]
  rw [hchoice, matches_escapeRegex]
  constructor
  · rintro (⟨c, hc, rfl⟩ | ⟨a, b, c, d, hproper, rfl⟩)
    · exact ⟨.char c, ⟨trivial, hc⟩, rfl⟩
    · exact ⟨.escape a b c d, ⟨hproper, rfl⟩, rfl⟩
  · rintro ⟨unit, ⟨hproper, hstart⟩, rfl⟩
    cases unit with
    | escape a b c d => exact .inr ⟨a, b, c, d, hproper, rfl⟩
    | char c => exact .inl ⟨c, hstart, rfl⟩

/-- The second choice matches the units that a name may go on with. -/
lemma matches_partUnit : (Regex.oneOf partRegexes).Matches text cs rest ↔
    ∃ unit : NameUnit, (unit.IsProper ∧ unit.canContinue = true) ∧ cs = unit.chars ++ rest := by
  have hchoice : (Regex.oneOf partRegexes).Matches text cs rest ↔
      (Regex.oneOf startRegexes).Matches text cs rest ∨
        ∃ c, (Text.category c ∈ Text.continuingCategories ∨ c = '\u200C' ∨ c = '\u200D') ∧
          cs = c :: rest := by
    simp only [Regex.matches_oneOf, partRegexes, List.mem_append, or_and_right, exists_or,
      exists_matches_category, List.mem_cons, List.not_mem_nil, or_false, exists_eq_left,
      Regex.matches_char, or_assoc]
  rw [hchoice, matches_startUnit]
  constructor
  · rintro (⟨unit, ⟨hproper, hstart⟩, rfl⟩ | ⟨c, hc, rfl⟩)
    · exact ⟨unit, ⟨hproper, NameUnit.canContinue_of_canStart hstart⟩, rfl⟩
    · exact ⟨.char c, ⟨trivial, isIdentifierPart_iff.mpr (.inr hc)⟩, rfl⟩
  · rintro ⟨unit, ⟨hproper, hcontinue⟩, rfl⟩
    cases unit with
    | escape a b c d => exact .inl ⟨.escape a b c d, ⟨hproper, rfl⟩, rfl⟩
    | char c =>
        rcases isIdentifierPart_iff.mp hcontinue with hstart | hc
        · exact .inl ⟨.char c, ⟨trivial, hstart⟩, rfl⟩
        · exact .inr ⟨c, hc, rfl⟩

lemma matches_partUnits : (Regex.star (.oneOf partRegexes)).Matches text cs rest ↔
    ∃ units : List NameUnit, (∀ unit ∈ units, unit.IsProper ∧ unit.canContinue = true) ∧
      cs = units.flatMap NameUnit.chars ++ rest :=
  Regex.matches_star_iff fun _ _ => matches_partUnit

/-- A reserved word is ahead. -/
lemma matches_reserved : (∃ rest, (Regex.oneOf (reservedWords.map .word)).Matches text cs rest) ↔
    ∃ word ∈ reservedWords, word.toList <+: cs := by
  simp only [Regex.matches_oneOf, List.mem_map, exists_exists_and_eq_and, Regex.matches_word,
    List.IsPrefix, eq_comm (a := cs)]
  exact ⟨fun ⟨rest, word, hword, heq⟩ => ⟨word, hword, rest, heq⟩,
    fun ⟨word, hword, rest, heq⟩ => ⟨rest, word, hword, heq⟩⟩

/-- The expression matches as a whole the texts that are formed like names, but for those that begin with
a reserved word. -/
lemma matches_nameRegex {start stop : List Char} : nameRegex.Matches text start stop ↔
    start = text ∧ stop = [] ∧ (∀ word ∈ reservedWords, ¬word.toList <+: text) ∧
      unitsFormName (NameUnit.ofChars text) = true := by
  have hahead : ∀ cs, (∀ rest, ¬(Regex.oneOf (reservedWords.map .word)).Matches text cs rest) ↔
      ∀ word ∈ reservedWords, ¬word.toList <+: cs := by
    intro cs
    rw [← not_exists, matches_reserved]
    simp
  rw [unitsFormName_ofChars_iff]
  simp only [nameRegex, Regex.inOrder, Regex.matches_seq, Regex.matches_atStart,
    Regex.matches_atEnd, Regex.matches_notAhead, hahead, matches_startUnit, matches_partUnits]
  constructor
  · rintro ⟨_, ⟨rfl, rfl⟩, _, ⟨hahead, rfl⟩, _, ⟨first, hfirst, rfl⟩, _, ⟨others, hothers, rfl⟩, rfl,
      rfl⟩
    exact ⟨rfl, rfl, hahead, first, others, hfirst, hothers, by simp⟩
  · rintro ⟨rfl, rfl, hahead, first, others, hfirst, hothers, rfl⟩
    exact ⟨_, ⟨rfl, rfl⟩, _, ⟨hahead, rfl⟩, _, ⟨first, hfirst, rfl⟩, _, ⟨others, hothers, by simp⟩, rfl,
      rfl⟩

end

/-- The pattern matches the names that begin with no reserved word. -/
lemma test_nameRegex (name : String) : nameRegex.Test name.toList ↔
    isIdentifier name = true ∧ ∀ word ∈ reservedWords, ¬word.toList <+: name.toList := by
  have hreserved : (∀ word ∈ reservedWords, ¬word.toList <+: name.toList) →
      reservedWords.contains name = false := by
    intro h
    rw [Bool.eq_false_iff, Ne, List.contains_iff_mem]
    exact fun hmem => h name hmem (List.prefix_refl _)
  simp only [Regex.Test, matches_nameRegex, isIdentifier, Bool.and_eq_true, Bool.not_eq_true']
  constructor
  · rintro ⟨_, _, -, rfl, rfl, hahead, hname⟩
    exact ⟨⟨hreserved hahead, hname⟩, hahead⟩
  · rintro ⟨⟨-, hname⟩, hahead⟩
    exact ⟨_, _, List.suffix_refl _, rfl, rfl, hahead, hname⟩

/-- It is the pattern of the names of declarations, properties and enum values. -/
lemma patternOf?_name : ∀ className ∈ ["Declaration", "EnumProperty", "Property"],
    metamodel.sourceForm.patternOf? className "name" = some namePattern.sourceForm := by
  intro className hmem
  simp only [List.mem_cons, List.not_mem_nil, or_false] at hmem
  rcases hmem with rfl | rfl | rfl <;> rfl

/-- In the source text of the metamodel, the names of declarations, properties and enum values have one
pattern. It matches a text if and only if the text is a name, except for the names that begin with a
reserved word. -/
theorem test_namePattern_iff (name : String) : ∃ m p r, Model.parse metamodelSource = .ok m ∧
    m.patternOf? "Declaration" "name" = some p ∧ m.patternOf? "EnumProperty" "name" = some p ∧
    m.patternOf? "Property" "name" = some p ∧ p.regex? = some r ∧
    ((r.Test name.toList ↔ isIdentifier name = true) ↔
      ¬(isIdentifier name = true ∧ ∃ word ∈ reservedWords, word.toList <+: name.toList)) := by
  refine ⟨metamodel.sourceForm, namePattern.sourceForm, nameRegex, parse_metamodelSource, patternOf?_name _ (by simp),
    patternOf?_name _ (by simp), patternOf?_name _ (by simp), regex?_namePattern, ?_⟩
  rw [test_nameRegex]
  constructor
  · rintro hiff ⟨hname, word, hword, hahead⟩
    exact (hiff.mpr hname).2 word hword hahead
  · intro hnone
    refine ⟨And.left, fun hname => ⟨hname, fun word hword hahead => ?_⟩⟩
    exact hnone ⟨hname, word, hword, hahead⟩

/-- The pattern does not match a name that goes on after a reserved word. -/
theorem not_test_nullable : ∃ m p r, Model.parse metamodelSource = .ok m ∧
    m.patternOf? "Declaration" "name" = some p ∧ p.regex? = some r ∧
    ¬(r.Test "nullable".toList ↔ isIdentifier "nullable" = true) := by
  refine ⟨metamodel.sourceForm, namePattern.sourceForm, nameRegex, parse_metamodelSource, patternOf?_name _ (by simp),
    regex?_namePattern, ?_⟩
  have hname : isIdentifier "nullable" = true := by decide +kernel
  rw [test_nameRegex]
  intro hiff
  exact (hiff.mpr hname).2 "null" (by decide) (by decide)

end Metamodel

end Concerto
