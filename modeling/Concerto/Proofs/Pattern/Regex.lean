import Concerto.Json.Reader
import Concerto.Model.Basic
import Concerto.Proofs.Pattern.Category
import Mathlib.Data.List.Basic
import Mathlib.Logic.Relation

/-!
Regular expressions over code points.

* `Regex`, `Regex.Matches`: expressions with anchors and a lookahead, and what they match at a position;
* `Regex.Test`: an expression matches some part of a text;
* `matches_inOrder_cons`, `matches_oneOf`, `matches_word`, `matches_star_iff`: what sequences, choices,
  words and repetitions match;
* `Regex.read?`, `StringPattern.regex?`: the expression that a pattern stands for.
-/

namespace Concerto

open Text (Category)

/-! ### Expressions -/

/-- An item of a class of characters. -/
inductive ClassItem where
  | char (c : Char)
  | range (first last : Char)
  | category (k : Category)
  deriving DecidableEq, Repr

/-- The item holds the character. -/
def ClassItem.Holds : ClassItem → Char → Prop
  | char d, c => c = d
  | range first last, c => first ≤ c ∧ c ≤ last
  | category k, c => Text.category c = k

/-- A regular expression. -/
inductive Regex where
  | empty
  | one (items : List ClassItem)
  | seq (r r' : Regex)
  | alt (r r' : Regex)
  | star (r : Regex)
  | atStart
  | atEnd
  | notAhead (r : Regex)
  deriving DecidableEq, Repr

namespace Regex

/-- A character on its own. -/
def char (c : Char) : Regex := one [.char c]

/-- A character of a category. -/
def category (k : Category) : Regex := one [.category k]

/-- One expression after the other. -/
def inOrder : List Regex → Regex
  | [] => empty
  | [r] => r
  | r :: rs => seq r (inOrder rs)

/-- A choice; there is nothing that an empty one matches. -/
def oneOf : List Regex → Regex
  | [] => one []
  | [r] => r
  | r :: rs => alt r (oneOf rs)

/-- The characters of a word. -/
def word (w : String) : Regex := inOrder (w.toList.map char)

/-! ### Matches -/

/-- Where `cs` is what is left of the text, the expression matches up to where `rest` is left of it. -/
def Matches (text : List Char) : Regex → List Char → List Char → Prop
  | empty, cs, rest => cs = rest
  | one items, cs, rest => ∃ c, (∃ item ∈ items, item.Holds c) ∧ cs = c :: rest
  | seq r r', cs, rest => ∃ between, r.Matches text cs between ∧ r'.Matches text between rest
  | alt r r', cs, rest => r.Matches text cs rest ∨ r'.Matches text cs rest
  | star r, cs, rest => Relation.ReflTransGen (r.Matches text) cs rest
  | atStart, cs, rest => cs = text ∧ cs = rest
  | atEnd, cs, rest => cs = [] ∧ cs = rest
  | notAhead r, cs, rest => (∀ rest', ¬r.Matches text cs rest') ∧ cs = rest

/-- The expression matches a part of the text. -/
def Test (r : Regex) (text : List Char) : Prop :=
  ∃ start stop, start <:+ text ∧ r.Matches text start stop

section
variable {text cs rest : List Char}

@[simp] lemma matches_seq {r r' : Regex} : (seq r r').Matches text cs rest ↔
    ∃ between, r.Matches text cs between ∧ r'.Matches text between rest :=
  Iff.rfl

@[simp] lemma matches_atStart : atStart.Matches text cs rest ↔ cs = text ∧ cs = rest :=
  Iff.rfl

@[simp] lemma matches_atEnd : atEnd.Matches text cs rest ↔ cs = [] ∧ cs = rest :=
  Iff.rfl

@[simp] lemma matches_notAhead {r : Regex} : (notAhead r).Matches text cs rest ↔
    (∀ rest', ¬r.Matches text cs rest') ∧ cs = rest :=
  Iff.rfl

lemma matches_char {c : Char} : (char c).Matches text cs rest ↔ cs = c :: rest := by
  simp [char, Matches, ClassItem.Holds]

lemma matches_category {k : Category} :
    (category k).Matches text cs rest ↔ ∃ c, Text.category c = k ∧ cs = c :: rest := by
  simp [category, Matches, ClassItem.Holds]

lemma matches_inOrder_cons {r : Regex} {rs : List Regex} : (inOrder (r :: rs)).Matches text cs rest ↔
    ∃ between, r.Matches text cs between ∧ (inOrder rs).Matches text between rest := by
  cases rs with
  | nil => simp [inOrder, Matches]
  | cons r' rs => rfl

lemma matches_oneOf {rs : List Regex} :
    (oneOf rs).Matches text cs rest ↔ ∃ r ∈ rs, r.Matches text cs rest := by
  induction rs with
  | nil => simp [oneOf, Matches]
  | cons r rs ih =>
      cases rs with
      | nil => simp [oneOf]
      | cons r' rs =>
          rw [List.exists_mem_cons_iff, ← ih]
          rfl

/-- A word matches where the text goes on with it. -/
lemma matches_word {w : String} : (word w).Matches text cs rest ↔ cs = w.toList ++ rest := by
  rw [word]
  induction w.toList generalizing cs with
  | nil => simp [inOrder, Matches]
  | cons c w ih =>
      rw [List.map_cons, matches_inOrder_cons]
      simp [matches_char, ih]

/-- A repetition matches pieces in a row, each of which its expression matches. -/
lemma matches_star_iff {α : Type} {r : Regex} {chars : α → List Char} {piece : α → Prop}
    (h : ∀ cs rest, r.Matches text cs rest ↔ ∃ a, piece a ∧ cs = chars a ++ rest) :
    (star r).Matches text cs rest ↔ ∃ as : List α, (∀ a ∈ as, piece a) ∧
      cs = as.flatMap chars ++ rest := by
  constructor
  · intro hstar
    induction hstar using Relation.ReflTransGen.head_induction_on with
    | refl => exact ⟨[], by simp⟩
    | head hstep _ ih =>
        obtain ⟨a, ha, rfl⟩ := (h _ _).mp hstep
        obtain ⟨as, has, rfl⟩ := ih
        exact ⟨a :: as, List.forall_mem_cons.mpr ⟨ha, has⟩, by simp⟩
  · rintro ⟨as, has, rfl⟩
    induction as with
    | nil => exact .refl
    | cons a as ih =>
        obtain ⟨ha, has⟩ := List.forall_mem_cons.mp has
        exact .head ((h _ _).mpr ⟨a, ha, by simp⟩) (ih has)

end

/-! ### Patterns -/

/-- A sign of a pattern. -/
inductive Sign where
  | one (items : List ClassItem)
  | atStart
  | atEnd
  | bar
  | star
  | times (n : ℕ)
  | opening (ahead : Bool)
  | closing
  deriving DecidableEq, Repr

/-- The characters that stand for themselves only after a backslash. -/
def syntaxCharacters : List Char :=
  ['^', '$', '\\', '.', '*', '+', '?', '(', ')', '[', ']', '\x7b', '\x7d', '|', '/']

/-- The character with a code point of four digits. -/
def escaped? (a b c d : Char) : Option Char := do
  let code ← Json.hexNumber? a b c d
  if code.isValidChar then some (Char.ofNat code) else none

/-- The signs of a pattern, with what has been read of a class of characters that is still open. Other
signs than these are not read. -/
def signs? : Option (List ClassItem) → List Char → Option (List Sign)
  | none, [] => some []
  | some _, [] => none
  | some items, ']' :: cs => (.one items :: ·) <$> signs? none cs
  | some items, first :: '-' :: last :: cs =>
    if first ∈ syntaxCharacters ∨ last ∈ syntaxCharacters then none
    else signs? (some (items ++ [.range first last])) cs
  | some _, _ => none
  | none, '[' :: cs => signs? (some []) cs
  | none, '^' :: cs => (.atStart :: ·) <$> signs? none cs
  | none, '$' :: cs => (.atEnd :: ·) <$> signs? none cs
  | none, '|' :: cs => (.bar :: ·) <$> signs? none cs
  | none, '*' :: cs => (.star :: ·) <$> signs? none cs
  | none, '\x7b' :: n :: '\x7d' :: cs => do
    let n ← Text.asciiDigit? n
    (.times n :: ·) <$> signs? none cs
  | none, '(' :: '?' :: '!' :: cs => (.opening true :: ·) <$> signs? none cs
  | none, '(' :: '?' :: ':' :: cs => (.opening false :: ·) <$> signs? none cs
  | none, '(' :: cs => (.opening false :: ·) <$> signs? none cs
  | none, ')' :: cs => (.closing :: ·) <$> signs? none cs
  | none, '\\' :: 'p' :: '\x7b' :: first :: second :: '\x7d' :: cs => do
    let k ← Category.ofLetters? first second
    (.one [.category k] :: ·) <$> signs? none cs
  | none, '\\' :: 'u' :: a :: b :: c :: d :: cs => do
    let c ← escaped? a b c d
    (.one [.char c] :: ·) <$> signs? none cs
  | none, '\\' :: c :: cs =>
    if c ∈ syntaxCharacters then (.one [.char c] :: ·) <$> signs? none cs else none
  | none, c :: cs =>
    if c ∈ syntaxCharacters then none else (.one [.char c] :: ·) <$> signs? none cs

/-- What has been read of a choice, from its end: the cases before the last one, the terms of the last one,
and the term that may be repeated, if the text goes on so. -/
structure Unfinished where
  cases : List Regex
  terms : List Regex
  atom? : Option Regex

namespace Unfinished

/-- Nothing has been read. -/
def nothing : Unfinished := ⟨[], [], none⟩

/-- The terms of the last case. -/
def allTerms (u : Unfinished) : List Regex := u.atom?.toList ++ u.terms

/-- All that has been read, as one choice. -/
def regex (u : Unfinished) : Regex :=
  oneOf ((inOrder u.allTerms.reverse :: u.cases).reverse)

/-- One more term, which may be repeated. -/
def addAtom (u : Unfinished) (r : Regex) : Unfinished := ⟨u.cases, u.allTerms, some r⟩

/-- One more term, which may not be repeated. -/
def add (u : Unfinished) (r : Regex) : Unfinished := ⟨u.cases, r :: u.allTerms, none⟩

/-- The last term is repeated. -/
def repeated? (u : Unfinished) (f : Regex → Regex) : Option Unfinished :=
  u.atom?.map fun r => ⟨u.cases, f r :: u.terms, none⟩

/-- One more case. -/
def addCase (u : Unfinished) : Unfinished := ⟨inOrder u.allTerms.reverse :: u.cases, [], none⟩

/-- A group is closed. -/
def addGroup (u : Unfinished) (ahead : Bool) (r : Regex) : Unfinished :=
  if ahead then u.add (notAhead r) else u.addAtom r

end Unfinished

/-- The expression of signs, after what has been read within and around the groups that are open. -/
def ofSigns? : List (Bool × Unfinished) → Unfinished → List Sign → Option Regex
  | [], u, [] => some u.regex
  | _ :: _, _, [] => none
  | groups, u, .one items :: ss => ofSigns? groups (u.addAtom (one items)) ss
  | groups, u, .atStart :: ss => ofSigns? groups (u.add atStart) ss
  | groups, u, .atEnd :: ss => ofSigns? groups (u.add atEnd) ss
  | groups, u, .bar :: ss => ofSigns? groups u.addCase ss
  | groups, u, .star :: ss => do ofSigns? groups (← u.repeated? star) ss
  | groups, u, .times n :: ss => do
    ofSigns? groups (← u.repeated? fun r => inOrder (List.replicate n r)) ss
  | groups, u, .opening ahead :: ss => ofSigns? ((ahead, u) :: groups) .nothing ss
  | (ahead, outer) :: groups, u, .closing :: ss => ofSigns? groups (outer.addGroup ahead u.regex) ss
  | [], _, .closing :: _ => none

/-- The expression that a pattern stands for, if all its signs are among those that are read here. -/
def read? (pattern : List Char) : Option Regex := do
  ofSigns? [] .nothing (← signs? none pattern)

example : read? "a|(?:b*)\\u200C".toList =
    some (alt (char 'a') (seq (star (char 'b')) (char '\u200C'))) := by
  decide +kernel

end Regex

/-- The expression of a pattern that is read by code points. -/
def StringPattern.regex? (p : StringPattern) : Option Regex :=
  if p.flags = "u" then Regex.read? p.pattern.toList else none

end Concerto
