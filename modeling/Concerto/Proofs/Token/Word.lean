import Concerto.Token.Scan
import Mathlib.Tactic.Common

/-!
Tokens without their places, and what the tokens before a place let follow.

* `Word`: the kind and the value of a token;
* `ImportMode`: what is left of a `Context` once it only has to tell where the location of an import
  stands;
* `ImportMode.run`: the mode after some kinds, if each of them may stand where it does.
-/

namespace Concerto

/-! ### Words -/

/-- A token without its place. -/
structure Word where
  kind : TokenKind
  value : String
  deriving DecidableEq, Repr

/-- The token without its place. -/
def Token.word (t : Token) : Word := ⟨t.kind, t.value⟩

@[simp] lemma Token.word_kind (t : Token) : t.word.kind = t.kind := rfl

@[simp] lemma Token.word_value (t : Token) : t.word.value = t.value := rfl

namespace Word

/-- A keyword. -/
def keyword (k : Keyword) : Word := ⟨.keyword k, k.text⟩

/-- A symbol. -/
def symbol (s : Symbol) : Word := ⟨.symbol s, s.text⟩

/-- A name, which may be a keyword. -/
def name (w : String) : Word :=
  match Keyword.ofText? w with
  | some k => ⟨.keyword k, w⟩
  | none => ⟨.identifier, w⟩

/-- A string. -/
def string (value : String) : Word := ⟨.string, value⟩

/-- The location of an import. -/
def uri (location : String) : Word := ⟨.uri, location⟩

/-- The end of a text. -/
def eof : Word := ⟨.eof, ""⟩

/-- The kinds of some words. -/
def kinds (words : List Word) : List TokenKind := words.map Word.kind

@[simp] lemma kinds_nil : kinds [] = [] := rfl

@[simp] lemma kinds_cons (w : Word) (words : List Word) : kinds (w :: words) = w.kind :: kinds words :=
  rfl

@[simp] lemma kinds_append (words words' : List Word) :
    kinds (words ++ words') = kinds words ++ kinds words' :=
  List.map_append

@[simp] lemma keyword_kind (k : Keyword) : (keyword k).kind = .keyword k := rfl

@[simp] lemma symbol_kind (s : Symbol) : (symbol s).kind = .symbol s := rfl

@[simp] lemma string_kind (value : String) : (string value).kind = .string := rfl

@[simp] lemma uri_kind (location : String) : (uri location).kind = .uri := rfl

@[simp] lemma name_value (w : String) : (name w).value = w := by
  unfold name
  split <;> rfl

/-- A name that is no keyword. -/
lemma name_of_none {w : String} (h : Keyword.ofText? w = none) : name w = ⟨.identifier, w⟩ := by
  simp [name, h]

/-- A keyword is the name it is written as. -/
lemma keyword_eq_name (k : Keyword) : keyword k = name k.text := by
  simp [keyword, name, Keyword.ofText?_text]

end Word

/-- A keyword is found by its text. -/
lemma Keyword.text_of_ofText? {w : String} {k : Keyword} (h : Keyword.ofText? w = some k) :
    k.text = w := by
  have := List.find?_some h
  simpa using this

/-! ### Imports -/

/-- Where a place stands with respect to imports: outside of them, inside of one, right after its
`from`, or right after a dot. -/
inductive ImportMode where
  | outside
  | inside
  | afterFrom
  | afterDot
  deriving DecidableEq, Repr

/-- The mode that the tokens before a place leave. -/
def Context.mode (c : Context) : ImportMode :=
  if c.inImport then
    if c.last = some (.keyword .fromKw) then .afterFrom
    else if c.last = some (.symbol .dot) then .afterDot
    else .inside
  else .outside

lemma Context.mode_eq_outside (c : Context) : c.mode = .outside ↔ c.inImport = false := by
  unfold mode
  split
  · split
    · simp [*]
    · split <;> simp [*]
  · simp [*]

lemma Context.mode_eq_afterDot (c : Context) :
    c.mode = .afterDot ↔ c.inImport = true ∧ c.last = some (.symbol .dot) := by
  unfold mode
  split
  · split
    · simp [*]
    · split <;> simp [*]
  · simp [*]

lemma Context.mode_eq_afterFrom (c : Context) : c.mode = .afterFrom ↔ c.expectsUri = true := by
  unfold mode expectsUri
  split
  · split
    · simp [*]
    · split <;> simp [*]
  · simp [*]

namespace ImportMode

/-- The mode after one more token. -/
def next (mode : ImportMode) : TokenKind → ImportMode
  | .keyword .importKw => .inside
  | .keyword .propertyKw | .keyword .namespaceKw => .outside
  | .symbol .arrow | .symbol .atSign => .outside
  | .uri => .outside
  | .symbol .openBrace => if mode = .afterDot then .inside else .outside
  | .keyword .fromKw => if mode = .outside then .outside else .afterFrom
  | .symbol .dot => if mode = .outside then .outside else .afterDot
  | _ => if mode = .outside then .outside else .inside

/-- Right after the `from` of an import, and only there, a location stands. -/
def admits (mode : ImportMode) (kind : TokenKind) : Bool := (mode = .afterFrom) == (kind = .uri)

/-- The mode after some tokens, if each of them may stand where it does. -/
def run (mode : ImportMode) : List TokenKind → Option ImportMode
  | [] => some mode
  | kind :: kinds => if mode.admits kind then (mode.next kind).run kinds else none

lemma run_append (mode : ImportMode) (kinds kinds' : List TokenKind) :
    mode.run (kinds ++ kinds') = (mode.run kinds).bind fun m => m.run kinds' := by
  induction kinds generalizing mode with
  | nil => rfl
  | cons kind kinds ih =>
      simp only [List.cons_append, run]
      split
      · exact ih _
      · rfl

/-- The mode follows the context. -/
lemma mode_push (c : Context) (kind : TokenKind) : (c.push kind).mode = c.mode.next kind := by
  cases kind with
  | keyword k =>
      cases k <;> simp only [next, c.mode_eq_outside] <;> cases h : c.inImport <;>
        simp [Context.push, Context.mode, h]
  | symbol s =>
      cases s <;> simp only [next, c.mode_eq_outside, c.mode_eq_afterDot] <;>
        cases h : c.inImport <;> simp [Context.push, Context.mode, h]
  | uri => rfl
  | _ =>
      simp only [next, c.mode_eq_outside]
      cases h : c.inImport <;> simp [Context.push, Context.mode, h]

lemma admits_iff (c : Context) (kind : TokenKind) :
    c.mode.admits kind = true ↔ (c.expectsUri = true ↔ kind = .uri) := by
  rw [admits, beq_iff_eq, Bool.eq_iff_iff, decide_eq_true_eq, decide_eq_true_eq,
    c.mode_eq_afterFrom]

end ImportMode

end Concerto
