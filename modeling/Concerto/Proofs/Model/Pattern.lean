import Concerto.Proofs.Model.Layout
import Concerto.Proofs.Model.SourceForm
import Mathlib.Algebra.Group.Nat.Even

/-!
Patterns between slashes.

* `trailingBackslashes`, `Protects`: the backslashes before a place, and whether the last of them
  protects what stands there;
* `StringPattern.isSpellable_iff`: the patterns that can be told, by the backslashes in them;
* `tokenize_pattern_iff`: these are the patterns that are scanned as they are written.
-/

namespace Concerto

/-! ### Backslashes -/

/-- How many backslashes a text ends with. -/
def trailingBackslashes (cs : List Char) : ℕ := (cs.reverse.takeWhile (· = '\\')).length

lemma trailingBackslashes_append_singleton (cs : List Char) (c : Char) :
    trailingBackslashes (cs ++ [c]) = if c = '\\' then trailingBackslashes cs + 1 else 0 := by
  by_cases hc : c = '\\' <;> simp [trailingBackslashes, hc]

/-- A backslash protects what follows the text. -/
def Protects (cs : List Char) : Prop := Odd (trailingBackslashes cs)

instance (cs : List Char) : Decidable (Protects cs) :=
  inferInstanceAs (Decidable (Odd (trailingBackslashes cs)))

lemma protects_append_singleton (cs : List Char) (c : Char) :
    Protects (cs ++ [c]) ↔ c = '\\' ∧ ¬Protects cs := by
  rw [Protects, trailingBackslashes_append_singleton, Protects]
  by_cases hc : c = '\\'
  · simp [hc, Nat.odd_add_one]
  · simp [hc]

/-- The flag that is kept while a pattern is gone through tells whether a backslash protects what is
left of it. -/
lemma isPatternText_iff (before cs : List Char) :
    isPatternText (Protects before) cs = true ↔ ¬Protects (before ++ cs) ∧
      ∀ inner after, cs = inner ++ '\n' :: after → Protects (before ++ inner) := by
  induction cs generalizing before with
  | nil => simp [isPatternText]
  | cons c cs ih =>
      -- whether the next character is protected is what the flag says after this one
      have hflag : (decide (c = '\\') && !decide (Protects before)) =
          decide (Protects (before ++ [c])) := by
        simp [protects_append_singleton]
      rw [isPatternText, hflag, Bool.and_eq_true, ih, List.append_assoc, List.singleton_append]
      constructor
      · rintro ⟨hline, hend, hinner⟩
        refine ⟨hend, fun inner after heq => ?_⟩
        cases inner with
        | nil =>
            obtain ⟨rfl, -⟩ := List.cons.inj heq
            simpa using hline
        | cons d inner =>
            obtain ⟨rfl, rfl⟩ := List.cons.inj heq
            simpa using hinner inner after rfl
      · rintro ⟨hend, hinner⟩
        refine ⟨?_, hend, fun inner after heq => ?_⟩
        · by_cases hc : c = '\n'
          · simpa using Or.inl (hinner [] cs (by rw [hc]; rfl))
          · simp [hc]
        · simpa using hinner (c :: inner) after (by rw [heq]; rfl)

/-! ### Patterns -/

/-- When a pattern with flags can be told, by the backslashes in it. -/
lemma StringPattern.isSpellable_iff {pattern flags : String}
    (hflags : ∀ c ∈ flags.toList, Text.isLetter c = true) :
    (⟨pattern, flags⟩ : StringPattern).IsSpellable ↔
      pattern ≠ "" ∧ pattern.toList.head? ≠ some '*' ∧ ¬Protects pattern.toList ∧
        ∀ before after, pattern.toList = before ++ '\n' :: after → Protects before := by
  have htext := isPatternText_iff [] pattern.toList
  simp only [List.nil_append] at htext
  constructor
  · rintro ⟨hne, hstar, hpattern, -⟩
    exact ⟨hne, hstar, htext.mp hpattern⟩
  · rintro ⟨hne, hstar, hpattern⟩
    exact ⟨hne, hstar, htext.mpr hpattern, hflags⟩

/-- A pattern whose slashes have been escaped is scanned as a pattern, as a whole and with its flags,
if and only if it is not empty, does not begin with a star, does not end with a backslash that
protects what follows, and has no line break but after such a backslash. The last slash then divides
it from its flags. -/
theorem tokenize_pattern_iff {pattern flags : String}
    (hflags : ∀ c ∈ flags.toList, Text.isLetter c = true) :
    ((∃ tokens, tokenize ("regex=/" ++ escapeSlashes pattern ++ "/" ++ flags) = .ok tokens ∧
        tokens.map Token.word = [.keyword .regexKw, .symbol .equals,
          ⟨.regex, escapeSlashes pattern ++ "/" ++ flags⟩, .eof]) ↔
      pattern ≠ "" ∧ pattern.toList.head? ≠ some '*' ∧
        ¬Odd (trailingBackslashes pattern.toList) ∧
        ∀ before after, pattern.toList = before ++ '\n' :: after →
          ¬Even (trailingBackslashes before)) ∧
    Parser.splitPattern (escapeSlashes pattern ++ "/" ++ flags) =
      ⟨escapeSlashes pattern, flags⟩ := by
  have hvalue : (escapeSlashes pattern ++ "/" ++ flags).toList =
      (escapeSlashes pattern).toList ++ '/' :: flags.toList := by simp
  have hsplit : Parser.splitPattern (escapeSlashes pattern ++ "/" ++ flags) =
      ⟨escapeSlashes pattern, flags⟩ := by
    rw [Parser.splitPattern_eq hvalue hflags, String.ofList_toList, String.ofList_toList]
  simp only [Nat.not_even_iff_odd]
  refine ⟨Iff.trans ⟨?_, fun h => ?_⟩ (StringPattern.isSpellable_iff hflags), hsplit⟩
  · rintro ⟨tokens, htokens, hwords⟩
    have hwords : tokens.map Token.word =
        modifierWords .regexKw [⟨.regex, escapeSlashes pattern ++ "/" ++ flags⟩] ++ [.eof] := hwords
    -- the word is a token of the text, so it is of the form that the scanner gives it
    have hscanned : IsPatternLiteral (escapeSlashes pattern ++ "/" ++ flags) :=
      isScanned_of_tokenize htokens hwords ⟨.regex, _⟩ (by simp [modifierWords])
    have hspellable := (Parser.isSpellable_splitPattern hscanned).1
    rw [hsplit] at hspellable
    exact (StringPattern.isSpellable_sourceForm ⟨pattern, flags⟩).mp hspellable
  · have hscans : Scans True (("regex=" ++ StringPattern.toSource ⟨pattern, flags⟩).toList ++ []) _ [] :=
      scans_announced h (by simp [Breaks])
    have htext : ("regex=/" ++ escapeSlashes pattern ++ "/" ++ flags).toList =
        ("regex=" ++ StringPattern.toSource ⟨pattern, flags⟩).toList ++ [] := by
      simp [StringPattern.toSource]
    rw [← htext] at hscans
    exact hscans.exists_tokenize rfl

theorem tokenize_pattern_iff_sample :
    (∀ c ∈ "gi".toList, Text.isLetter c = true) ∧
    ((∃ tokens, tokenize ("regex=/" ++ escapeSlashes "a/\\\n\\\\" ++ "/" ++ "gi") = .ok tokens ∧
        tokens.map Token.word = [.keyword .regexKw, .symbol .equals,
          ⟨.regex, escapeSlashes "a/\\\n\\\\" ++ "/" ++ "gi"⟩, .eof]) ↔
      "a/\\\n\\\\" ≠ "" ∧ "a/\\\n\\\\".toList.head? ≠ some '*' ∧
        ¬Odd (trailingBackslashes "a/\\\n\\\\".toList) ∧
        ∀ before after, "a/\\\n\\\\".toList = before ++ '\n' :: after →
          ¬Even (trailingBackslashes before)) ∧
    Parser.splitPattern (escapeSlashes "a/\\\n\\\\" ++ "/" ++ "gi") =
      ⟨escapeSlashes "a/\\\n\\\\", "gi"⟩ := by
  have hall : "gi".toList.all Text.isLetter = true := by decide +kernel
  have hflags := List.all_eq_true.mp hall
  exact ⟨hflags, tokenize_pattern_iff hflags⟩

end Concerto
