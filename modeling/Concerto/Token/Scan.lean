import Concerto.Identifier
import Concerto.Text.Blank
import Concerto.Text.Join
import Concerto.Text.Quoted
import Concerto.Token.Basic

/-!
Splitting a model file into tokens.

* `tokenize`: the tokens of a text, the last of them its end;
* `LexicalError`: why a text has no tokens, and where;
* `Context`: what the tokens before a place say about the next one. A slash begins a pattern
  after `regex =`, and an import names a location after `from`;
* `scanToken_append`: the text of a token and the text after it make up what was scanned, and
  the text of a token is not empty.

Every scanner takes characters from the front of a text and returns what it took and what is
left.
-/

namespace Concerto

/-! ### Faults -/

/-- What is wrong with a text that has no tokens. -/
inductive LexicalFault where
  | unexpectedCharacter (c : Char)
  | unterminatedString
  | invalidEscape (c : Char)
  | unterminatedRegex
  | unterminatedComment
  deriving DecidableEq, Repr

/-- The words for a fault. -/
def LexicalFault.message : LexicalFault → String
  | unexpectedCharacter c => "Unexpected character: " ++ Text.quoted (String.singleton c)
  | unterminatedString => "Unterminated string literal"
  | invalidEscape c => "Invalid escape sequence: '\\" ++ String.singleton c ++ "'"
  | unterminatedRegex => "Unterminated regular expression literal"
  | unterminatedComment => "Unterminated block comment"

/-- A fault and its place. -/
structure LexicalError where
  fault : LexicalFault
  place : Place
  deriving DecidableEq, Repr

/-- The message of a fault begins with its place. -/
def LexicalError.message (e : LexicalError) : String :=
  e.place.describe ++ ": " ++ e.fault.message

/-- A fault after some text that was already taken. -/
abbrev FaultAfter := LexicalFault × List Char

/-! ### Blanks and comments -/

/-- The characters that may stand between tokens. -/
def isTokenBlank (c : Char) : Bool :=
  c = ' ' || c = '\t' || c = '\r' || c = '\n' || c = '\uFEFF'

/-- The rest of a block comment up to its end, and the text after it. -/
def spanBlockComment : List Char → Option (List Char × List Char)
  | [] => none
  | '*' :: '/' :: rest => some (['*', '/'], rest)
  | c :: cs => (spanBlockComment cs).map fun (comment, rest) => (c :: comment, rest)

theorem spanBlockComment_append {cs comment rest : List Char}
    (h : spanBlockComment cs = some (comment, rest)) : comment ++ rest = cs := by
  fun_induction spanBlockComment cs generalizing comment rest with
  | case1 => simp at h
  | case2 => simp at h; obtain ⟨rfl, rfl⟩ := h; rfl
  | case3 c cs _ ih =>
    obtain ⟨p, hp, h⟩ := Option.map_eq_some_iff.1 h
    cases h
    simp [ih hp]

/-- The blanks and comments at the front of a text, and the text after them. A comment that
does not end is a fault after what precedes it. -/
def spanGap (cs : List Char) : Except FaultAfter (List Char × List Char) :=
  match cs with
  | [] => .ok ([], [])
  | '/' :: '/' :: cs =>
    let line := cs.takeWhile (· ≠ '\n')
    match spanGap (cs.dropWhile (· ≠ '\n')) with
    | .ok (gap, rest) => .ok ('/' :: '/' :: line ++ gap, rest)
    | .error (fault, before) => .error (fault, '/' :: '/' :: line ++ before)
  | '/' :: '*' :: cs =>
    match _h : spanBlockComment cs with
    | none => .error (.unterminatedComment, [])
    | some (comment, rest) =>
      match spanGap rest with
      | .ok (gap, rest) => .ok ('/' :: '*' :: comment ++ gap, rest)
      | .error (fault, before) => .error (fault, '/' :: '*' :: comment ++ before)
  | c :: cs =>
    if isTokenBlank c then
      match spanGap cs with
      | .ok (gap, rest) => .ok (c :: gap, rest)
      | .error (fault, before) => .error (fault, c :: before)
    else .ok ([], c :: cs)
termination_by cs.length
decreasing_by
  · have := (List.dropWhile_suffix (l := cs) (· ≠ '\n')).length_le
    simp only [List.length_cons]
    omega
  · have := congrArg List.length (spanBlockComment_append ‹_›)
    simp only [List.length_append, List.length_cons] at this ⊢
    omega
  · simp

theorem spanGap_append {cs gap rest : List Char} (h : spanGap cs = .ok (gap, rest)) :
    gap ++ rest = cs := by
  fun_induction spanGap cs generalizing gap rest with
  | case1 => simp_all
  | case2 cs line gap' rest' hgap =>
    rename_i ih
    simp at h
    obtain ⟨rfl, rfl⟩ := h
    simp [line, ih hgap, List.takeWhile_append_dropWhile]
  | case3 => simp at h
  | case4 => simp at h
  | case5 cs comment rest₁ hc gap' rest' hgap ih =>
    simp at h
    obtain ⟨rfl, rfl⟩ := h
    simp [ih hgap, spanBlockComment_append hc]
  | case6 => simp at h
  | case7 c cs _ _ _ gap' rest' hgap ih =>
    simp at h
    obtain ⟨rfl, rfl⟩ := h
    simp [ih hgap]
  | case8 => simp at h
  | case9 => simp_all

/-! ### Strings and patterns -/

/-- What a backslash and one other character stand for inside a string. -/
def unescape? : Char → Option Char
  | 'n' => some '\n'
  | 't' => some '\t'
  | 'r' => some '\r'
  | '\\' => some '\\'
  | '"' => some '"'
  | '\'' => some '\''
  | _ => none

/-- The value of a string up to its closing quote, the text it is written with, and the text
after it. -/
def spanString (quote : Char) : List Char → Except FaultAfter (List Char × List Char × List Char)
  | [] => .error (.unterminatedString, [])
  | '\\' :: [] => .error (.unterminatedString, [])
  | '\\' :: e :: cs =>
    match unescape? e with
    | none => .error (.invalidEscape e, ['\\'])
    | some c =>
      match spanString quote cs with
      | .ok (value, text, rest) => .ok (c :: value, '\\' :: e :: text, rest)
      | .error (fault, before) => .error (fault, '\\' :: e :: before)
  | c :: cs =>
    if c = quote then .ok ([], [c], cs)
    else if c = '\n' then .error (.unterminatedString, [])
    else
      match spanString quote cs with
      | .ok (value, text, rest) => .ok (c :: value, c :: text, rest)
      | .error (fault, before) => .error (fault, c :: before)

theorem spanString_append {quote : Char} {cs value text rest : List Char}
    (h : spanString quote cs = .ok (value, text, rest)) : text ++ rest = cs := by
  fun_induction spanString quote cs generalizing value text rest with
  | case1 => simp at h
  | case2 => simp at h
  | case3 => simp at h
  | case4 e cs c _ value' text' rest' hs ih =>
    simp at h
    obtain ⟨rfl, rfl, rfl⟩ := h
    simp [ih hs]
  | case5 => simp at h
  | case6 => simp at h; obtain ⟨rfl, rfl, rfl⟩ := h; rfl
  | case7 => simp at h
  | case8 c cs _ _ _ _ value' text' rest' hs ih =>
    simp at h
    obtain ⟨rfl, rfl, rfl⟩ := h
    simp [ih hs]
  | case9 => simp at h

/-- A pattern up to its closing slash, and the text after that. A backslash protects the
character after it. -/
def spanPattern : List Char → Option (List Char × List Char)
  | [] => none
  | '\n' :: _ => none
  | '/' :: cs => some ([], cs)
  | '\\' :: c :: cs => (spanPattern cs).map fun (pattern, rest) => ('\\' :: c :: pattern, rest)
  | c :: cs => (spanPattern cs).map fun (pattern, rest) => (c :: pattern, rest)

theorem spanPattern_append {cs pattern rest : List Char}
    (h : spanPattern cs = some (pattern, rest)) : pattern ++ '/' :: rest = cs := by
  fun_induction spanPattern cs generalizing pattern rest with
  | case1 => simp at h
  | case2 => simp at h
  | case3 => simp at h; obtain ⟨rfl, rfl⟩ := h; rfl
  | case4 c cs ih =>
    obtain ⟨p, hp, h⟩ := Option.map_eq_some_iff.1 h
    cases h
    simp [ih hp]
  | case5 c cs _ _ _ ih =>
    obtain ⟨p, hp, h⟩ := Option.map_eq_some_iff.1 h
    cases h
    simp [ih hp]

/-! ### Numbers and names -/

/-- A point and the digits after it, if both are at the front of a text. -/
def spanPoint : List Char → List Char × List Char
  | '.' :: d :: cs =>
    if Text.isDigit d then
      ('.' :: d :: cs.takeWhile Text.isDigit, cs.dropWhile Text.isDigit)
    else ([], '.' :: d :: cs)
  | cs => ([], cs)

/-- An `e`, a sign if there is one, and the digits after them, if these are at the front of a
text. -/
def spanPower : List Char → List Char × List Char
  | e :: s :: cs =>
    if (e = 'e' || e = 'E') && Text.isDigit s then
      (e :: s :: cs.takeWhile Text.isDigit, cs.dropWhile Text.isDigit)
    else
      match cs with
      | d :: cs =>
        if (e = 'e' || e = 'E') && (s = '+' || s = '-') && Text.isDigit d then
          (e :: s :: d :: cs.takeWhile Text.isDigit, cs.dropWhile Text.isDigit)
        else ([], e :: s :: d :: cs)
      | [] => ([], [e, s])
  | cs => ([], cs)

theorem spanPoint_append (cs : List Char) : (spanPoint cs).1 ++ (spanPoint cs).2 = cs := by
  fun_cases spanPoint cs <;> simp_all [List.takeWhile_append_dropWhile]

theorem spanPower_append (cs : List Char) : (spanPower cs).1 ++ (spanPower cs).2 = cs := by
  fun_cases spanPower cs <;> simp_all [List.takeWhile_append_dropWhile]

/-- The digits of a number, the part after its point and its power of ten, and the text after
them. -/
def spanUnsigned (cs : List Char) : List Char × List Char × List Char × List Char :=
  let whole := cs.takeWhile Text.isDigit
  let (point, cs) := spanPoint (cs.dropWhile Text.isDigit)
  let (power, rest) := spanPower cs
  (whole, point, power, rest)

theorem spanUnsigned_append (cs : List Char) :
    (spanUnsigned cs).1 ++ (spanUnsigned cs).2.1 ++ (spanUnsigned cs).2.2.1 ++
      (spanUnsigned cs).2.2.2 = cs := by
  simp only [spanUnsigned, List.append_assoc, spanPower_append, spanPoint_append,
    List.takeWhile_append_dropWhile]

/-- The characters and escapes of a name at the front of a text, and the text after them. -/
def spanName : List Char → List Char × List Char
  | [] => ([], [])
  | '\\' :: 'u' :: a :: b :: c :: d :: cs =>
    if isHexDigit a && isHexDigit b && isHexDigit c && isHexDigit d then
      let (name, rest) := spanName cs
      ('\\' :: 'u' :: a :: b :: c :: d :: name, rest)
    else ([], '\\' :: 'u' :: a :: b :: c :: d :: cs)
  | c :: cs =>
    if isIdentifierPart c then
      let (name, rest) := spanName cs
      (c :: name, rest)
    else ([], c :: cs)

theorem spanName_append (cs : List Char) : (spanName cs).1 ++ (spanName cs).2 = cs := by
  fun_induction spanName cs <;> simp_all

/-- The name at the front of a text, which an escape or a character that may start a name
begins, and the text after it. -/
def spanWord? (cs : List Char) : Option (List Char × List Char) :=
  match splitEscape? cs with
  | some (escape, rest) =>
    let (name, rest) := spanName rest
    some (escape ++ name, rest)
  | none =>
    match cs with
    | c :: cs =>
      if isIdentifierStart c then
        let (name, rest) := spanName cs
        some (c :: name, rest)
      else none
    | [] => none

theorem spanWord?_append {cs word rest : List Char} (h : spanWord? cs = some (word, rest)) :
    word ++ rest = cs ∧ word ≠ [] := by
  unfold spanWord? at h
  split at h
  · next escape after he =>
    obtain ⟨hcs, hne⟩ := splitEscape?_append he
    simp only [Option.some.injEq, Prod.mk.injEq] at h
    obtain ⟨rfl, rfl⟩ := h
    simp [spanName_append, hcs, hne]
  · split at h
    · split at h
      · simp only [Option.some.injEq, Prod.mk.injEq] at h
        obtain ⟨rfl, rfl⟩ := h
        simp [spanName_append]
      · simp at h
    · simp at h

/-! ### Tokens -/

/-- What the tokens before a place say about the token that begins there. -/
structure Context where
  last : Option TokenKind
  lastButOne : Option TokenKind
  inImport : Bool
  deriving DecidableEq, Repr

namespace Context

/-- Before the first token. -/
def start : Context := ⟨none, none, false⟩

/-- After one more token. An import lasts until a token that no import contains; a brace is such
a token unless a dot precedes it. -/
def push (c : Context) (kind : TokenKind) : Context where
  last := some kind
  lastButOne := c.last
  inImport :=
    match kind with
    | .keyword .importKw => true
    | .keyword .propertyKw | .keyword .namespaceKw => false
    | .symbol .arrow | .symbol .atSign => false
    | .uri => false
    | .symbol .openBrace => c.inImport && c.last = some (.symbol .dot)
    | _ => c.inImport

/-- The location of an import is expected. -/
def expectsUri (c : Context) : Bool := c.last = some (.keyword .fromKw) && c.inImport

/-- A slash begins a pattern. -/
def expectsPattern (c : Context) : Bool :=
  c.lastButOne = some (.keyword .regexKw) && c.last = some (.symbol .equals)

end Context

/-- A token without its place, with the text it is written with. -/
structure Lexeme where
  kind : TokenKind
  value : String
  text : List Char
  deriving DecidableEq, Repr

namespace Lexeme

/-- A lexeme whose value is its text. -/
def verbatim (kind : TokenKind) (text : List Char) : Lexeme := ⟨kind, String.ofList text, text⟩

/-- A word is a keyword or a name. -/
def ofWord (word : List Char) : Lexeme :=
  match Keyword.ofText? (String.ofList word) with
  | some k => verbatim (.keyword k) word
  | none => verbatim .identifier word

end Lexeme

/-- The location in an import: everything up to a blank. -/
def scanUri (c : Char) (cs : List Char) : Except FaultAfter (Lexeme × List Char) :=
  if Text.isBlank c then .error (.unexpectedCharacter c, [])
  else
    .ok (.verbatim .uri (c :: cs.takeWhile (!Text.isBlank ·)), cs.dropWhile (!Text.isBlank ·))

/-- A pattern with its flags, after its first slash. -/
def scanPattern (cs : List Char) : Except FaultAfter (Lexeme × List Char) :=
  match spanPattern cs with
  | none => .error (.unterminatedRegex, [])
  | some (pattern, rest) =>
    let value := pattern ++ '/' :: rest.takeWhile Text.isLetter
    .ok (⟨.regex, String.ofList value, '/' :: value⟩, rest.dropWhile Text.isLetter)

/-- A string, after its opening quote. -/
def scanString (quote : Char) (cs : List Char) : Except FaultAfter (Lexeme × List Char) :=
  match spanString quote cs with
  | .error (.unterminatedString, _) => .error (.unterminatedString, [])
  | .error (fault, before) => .error (fault, quote :: before)
  | .ok (value, text, rest) => .ok (⟨.string, String.ofList value, quote :: text⟩, rest)

/-- A number without its sign. It is an integer if it has neither a point nor a power. -/
def scanNumber (sign : List Char) (cs : List Char) : Lexeme × List Char :=
  let (whole, point, power, rest) := spanUnsigned cs
  let kind := if point.isEmpty && power.isEmpty then TokenKind.integer else .float
  (.verbatim kind (sign ++ whole ++ point ++ power), rest)

/-- What begins with a dash: an arrow or a negative number. -/
def scanDash : List Char → Except FaultAfter (Lexeme × List Char)
  | '-' :: '>' :: rest => .ok (.verbatim (.symbol .arrow) ['-', '-', '>'], rest)
  | d :: cs =>
    if Text.isDigit d then .ok (scanNumber ['-'] (d :: cs))
    else .error (.unexpectedCharacter '-', [])
  | [] => .error (.unexpectedCharacter '-', [])

/-- The token that begins with the character `c`, and the text after it. -/
def scanToken (context : Context) (c : Char) (cs : List Char) :
    Except FaultAfter (Lexeme × List Char) :=
  if context.expectsUri then scanUri c cs
  else if c = '/' && context.expectsPattern then scanPattern cs
  else
    match Symbol.ofChar? c with
    | some s => .ok (.verbatim (.symbol s) [c], cs)
    | none =>
      if c = '-' then scanDash cs
      else if c = '"' || c = '\'' then scanString c cs
      else if Text.isDigit c then .ok (scanNumber [] (c :: cs))
      else
        match spanWord? (c :: cs) with
        | some (word, rest) => .ok (.ofWord word, rest)
        | none => .error (.unexpectedCharacter c, [])

theorem Lexeme.ofWord_text (word : List Char) : (Lexeme.ofWord word).text = word := by
  unfold Lexeme.ofWord; split <;> rfl

theorem scanUri_append {c : Char} {cs rest : List Char} {lexeme : Lexeme}
    (h : scanUri c cs = .ok (lexeme, rest)) :
    lexeme.text ++ rest = c :: cs ∧ lexeme.text ≠ [] := by
  unfold scanUri at h
  split at h
  · simp at h
  · simp only [Except.ok.injEq, Prod.mk.injEq] at h
    obtain ⟨rfl, rfl⟩ := h
    simp [Lexeme.verbatim, List.takeWhile_append_dropWhile]

theorem scanPattern_append {cs rest : List Char} {lexeme : Lexeme}
    (h : scanPattern cs = .ok (lexeme, rest)) :
    lexeme.text ++ rest = '/' :: cs ∧ lexeme.text ≠ [] := by
  unfold scanPattern at h
  split at h
  · simp at h
  · next pattern after hp =>
    simp only [Except.ok.injEq, Prod.mk.injEq] at h
    obtain ⟨rfl, rfl⟩ := h
    simp [← spanPattern_append hp, List.takeWhile_append_dropWhile]

theorem scanString_append {quote : Char} {cs rest : List Char} {lexeme : Lexeme}
    (h : scanString quote cs = .ok (lexeme, rest)) :
    lexeme.text ++ rest = quote :: cs ∧ lexeme.text ≠ [] := by
  unfold scanString at h
  split at h
  · simp at h
  · simp at h
  · next value text after hs =>
    simp only [Except.ok.injEq, Prod.mk.injEq] at h
    obtain ⟨rfl, rfl⟩ := h
    simp [spanString_append hs]

theorem scanNumber_append (sign cs : List Char) :
    (scanNumber sign cs).1.text ++ (scanNumber sign cs).2 = sign ++ cs := by
  have := spanUnsigned_append cs
  simp only [List.append_assoc] at this
  simp [scanNumber, Lexeme.verbatim, this]

/-- A number takes its sign and all digits that follow. -/
theorem length_le_scanNumber (sign cs : List Char) :
    sign.length + (cs.takeWhile Text.isDigit).length ≤ (scanNumber sign cs).1.text.length := by
  simp only [scanNumber, Lexeme.verbatim, spanUnsigned, List.length_append]
  omega

theorem scanDash_append {cs rest : List Char} {lexeme : Lexeme}
    (h : scanDash cs = .ok (lexeme, rest)) :
    lexeme.text ++ rest = '-' :: cs ∧ lexeme.text ≠ [] := by
  unfold scanDash at h
  split at h
  · simp only [Except.ok.injEq, Prod.mk.injEq] at h
    obtain ⟨rfl, rfl⟩ := h
    simp [Lexeme.verbatim]
  · next d cs _ =>
    split at h
    · simp only [Except.ok.injEq] at h
      have happend := scanNumber_append ['-'] (d :: cs)
      have hlength := length_le_scanNumber ['-'] (d :: cs)
      rw [h] at happend hlength
      exact ⟨happend, List.ne_nil_of_length_pos (by simp at hlength; omega)⟩
    · simp at h
  · simp at h

/-- The text of a token and the text after it make up what was scanned, and the text of a token
is not empty. -/
theorem scanToken_append {context : Context} {c : Char} {cs rest : List Char} {lexeme : Lexeme}
    (h : scanToken context c cs = .ok (lexeme, rest)) :
    lexeme.text ++ rest = c :: cs ∧ lexeme.text ≠ [] := by
  unfold scanToken at h
  split at h
  · exact scanUri_append h
  split at h
  · next hc =>
    simp only [Bool.and_eq_true, decide_eq_true_eq] at hc
    exact hc.1 ▸ scanPattern_append h
  split at h
  · simp only [Except.ok.injEq, Prod.mk.injEq] at h
    obtain ⟨rfl, rfl⟩ := h
    simp [Lexeme.verbatim]
  split at h
  · next hc => exact hc ▸ scanDash_append h
  split at h
  · exact scanString_append h
  split at h
  · next hd =>
    simp only [Except.ok.injEq] at h
    have happend := scanNumber_append [] (c :: cs)
    have hlength := length_le_scanNumber [] (c :: cs)
    rw [h] at happend hlength
    exact ⟨happend, List.ne_nil_of_length_pos (by simp [List.takeWhile, hd] at hlength; omega)⟩
  split at h
  · next word after hw =>
    simp only [Except.ok.injEq, Prod.mk.injEq] at h
    obtain ⟨rfl, rfl⟩ := h
    simpa [Lexeme.ofWord_text] using spanWord?_append hw
  · simp at h

/-! ### Texts -/

/-- The tokens of a text from a place on, and the place where the text ends. -/
def scanTokens (context : Context) (place : Place) (cs : List Char) :
    Except LexicalError (List Token × Place) :=
  match _hgap : spanGap cs with
  | .error (fault, before) => .error ⟨fault, place.after before⟩
  | .ok (gap, []) => .ok ([], place.after gap)
  | .ok (gap, c :: cs') =>
    let place := place.after gap
    match _htoken : scanToken context c cs' with
    | .error (fault, before) => .error ⟨fault, place.after before⟩
    | .ok (lexeme, rest) =>
      match scanTokens (context.push lexeme.kind) (place.after lexeme.text) rest with
      | .error e => .error e
      | .ok (tokens, stop) => .ok (⟨lexeme.kind, lexeme.value, place⟩ :: tokens, stop)
termination_by cs.length
decreasing_by
  have hgap := congrArg List.length (spanGap_append ‹_›)
  obtain ⟨happend, hne⟩ := scanToken_append ‹_›
  have htoken := congrArg List.length happend
  have := List.length_pos_iff.2 hne
  simp only [List.length_append, List.length_cons] at hgap htoken
  omega

/-- The tokens of a text, the last of them its end. -/
def tokenize (source : String) : Except LexicalError (List Token) := do
  let (tokens, stop) ← scanTokens .start .start source.toList
  return tokens ++ [⟨.eof, "", stop⟩]

end Concerto
