import Concerto.Model.Basic
import Concerto.Number.Shortest
import Concerto.Text.Join
import Concerto.Token.Basic

/-!
The source text of a model.

* `Model.toSource`: the text, with an empty line between its parts and a line break at its end;
* `quotedString`: a text between double quotes, as a string literal;
* `escapeSlashes`: a pattern that may stand between slashes.

Source text has no place for locations, for the namespaces of references and for the address of
the source, so these are left out.
-/

namespace Concerto

/-! ### Literals -/

/-- A character inside a string literal. -/
def stringLiteralChar (c : Char) : List Char :=
  match c with
  | '\\' => ['\\', '\\']
  | '"' => ['\\', '"']
  | '\n' => ['\\', 'n']
  | '\t' => ['\\', 't']
  | '\r' => ['\\', 'r']
  | c => [c]

/-- A text as a string literal. -/
def quotedString (s : String) : String :=
  String.ofList ('"' :: s.toList.flatMap stringLiteralChar ++ ['"'])

/-- A pattern with a backslash before each slash that has none; `escaped` tells whether a
backslash protects the first character. -/
def escapeSlashesFrom (escaped : Bool) : List Char → List Char
  | [] => []
  | c :: cs =>
    let rest := c :: escapeSlashesFrom (c = '\\' && !escaped) cs
    if c = '/' && !escaped then '\\' :: rest else rest

/-- A pattern with a backslash before each slash that has none. -/
def escapeSlashes (pattern : String) : String :=
  String.ofList (escapeSlashesFrom false pattern.toList)

/-- A truth value. -/
def booleanWord (b : Bool) : String := if b then "true" else "false"

/-- A whole number in decimal digits. -/
def integerText (i : Int) : String :=
  String.ofList ((if i < 0 then ['-'] else []) ++ Decimal.digitsOf i.natAbs)

/-! ### Imports and decorators -/

/-- An import statement. -/
def Import.toSource : Import → String
  | all ns uri => "import " ++ ns ++ ".*" ++ location uri
  | type ns name uri => "import " ++ ns ++ "." ++ name ++ location uri
where
  /-- The location of an import, after `from`. -/
  location : Option String → String
    | some uri => " from " ++ uri
    | none => ""

/-- The brackets of an array. -/
def arrayBrackets (isArray : Bool) : String := if isArray then "[]" else ""

/-- An argument of a decorator. -/
def DecoratorArgument.toSource : DecoratorArgument → String
  | .string value _ => quotedString value
  | .number value _ => value.text
  | .boolean value _ => booleanWord value
  | .type ref isArray _ => ref.name ++ arrayBrackets isArray

/-- A decorator, with parentheses if it has an argument list. -/
def Decorator.toSource (d : Decorator) : String :=
  match d.arguments with
  | none => "@" ++ d.name
  | some arguments =>
    "@" ++ d.name ++ "(" ++ Text.joined ", " (arguments.map DecoratorArgument.toSource) ++ ")"

/-- The decorators of a declaration, a property or a value, each on a line of its own. -/
def Header.decoratorLines (h : Header) (margin : String) : List String :=
  (h.decorators.getD []).map fun d => margin ++ d.toSource

/-! ### Properties -/

/-- The range of a property between brackets. -/
def Bounds.toSource {α : Type} (number : α → String) (b : Bounds α) : String :=
  "[" ++ (b.lower.map number).getD "" ++ "," ++ (b.upper.map number).getD "" ++ "]"

/-- A pattern with its flags. -/
def StringPattern.toSource (p : StringPattern) : String :=
  "/" ++ escapeSlashes p.pattern ++ "/" ++ p.flags

namespace PropertyKind

/-- The marker of a property and the name of its type. -/
def typeSource : PropertyKind → String
  | object type _ => "o " ++ type.name
  | relationship type => "--> " ++ type.name
  | boolean _ => "o Boolean"
  | dateTime => "o DateTime"
  | string .. => "o String"
  | double .. => "o Double"
  | integer .. => "o Integer"
  | long .. => "o Long"

/-- The default of a property as a literal. -/
def defaultSource? : PropertyKind → Option String
  | object _ default => default.map quotedString
  | boolean default => default.map booleanWord
  | string default _ => default.map quotedString
  | double default _ => default.map Double.text
  | integer default _ => default.map integerText
  | long default _ => default.map integerText
  | relationship _ | dateTime => none

/-- The constraint of a property. -/
def constraintSource? : PropertyKind → Option String
  | string _ pattern => pattern.map fun p => " regex=" ++ p.toSource
  | double _ bounds => bounds.map fun b => " range=" ++ b.toSource Double.text
  | integer _ bounds => bounds.map fun b => " range=" ++ b.toSource integerText
  | long _ bounds => bounds.map fun b => " range=" ++ b.toSource integerText
  | _ => none

end PropertyKind

/-- The space before a property or a value. -/
def bodyMargin : String := "  "

/-- A property on a line, after its decorators. -/
def Property.sourceLines (p : Property) : List String :=
  p.header.decoratorLines bodyMargin ++
    [bodyMargin ++ p.kind.typeSource ++ arrayBrackets p.isArray ++ " " ++ p.header.name ++
      ((p.kind.defaultSource?.map (" default=" ++ ·)).getD "") ++
      p.kind.constraintSource?.getD "" ++
      (if p.isOptional then " optional" else "")]

/-! ### Declarations -/

/-- The clause for the identification of a concept. -/
def Identification.toSource : Identification → String
  | system => " identified"
  | byProperty name => " identified by " ++ name

/-- The line that a concept begins with. -/
def Concept.headerLine (c : Concept) : String :=
  (if c.isAbstract then "abstract " else "") ++ c.kind.word ++ " " ++ c.header.name ++
    ((c.superType.map fun r => " extends " ++ r.name).getD "") ++
    ((c.identified.map Identification.toSource).getD "") ++ " \x7b"

/-- The lines of a declaration. -/
def Declaration.sourceLines : Declaration → List String
  | concept c =>
    c.header.decoratorLines "" ++ [c.headerLine] ++ c.properties.flatMap Property.sourceLines ++
      ["\x7d"]
  | enumeration e =>
    e.header.decoratorLines "" ++ ["enum " ++ e.header.name ++ " \x7b"] ++
      (e.values.flatMap fun v =>
        v.decoratorLines bodyMargin ++ [bodyMargin ++ "o " ++ v.name]) ++
      ["\x7d"]

/-- A declaration. -/
def Declaration.toSource (d : Declaration) : String := Text.lines d.sourceLines

namespace Model

/-- The version and the namespace of a model. -/
def headerLines (m : Model) : List String :=
  (m.concertoVersion.map fun v => "concerto version " ++ quotedString v).toList ++
    ["namespace " ++ m.ns]

/-- The parts of a model: its header, its imports, and each of its declarations. -/
def sourceBlocks (m : Model) : List String :=
  Text.lines m.headerLines ::
    ((if m.imports.isEmpty then [] else [Text.lines (m.imports.map Import.toSource)]) ++
      m.declarations.map Declaration.toSource)

/-- The source text of a model. -/
def toSource (m : Model) : String := Text.joined "\n\n" m.sourceBlocks ++ "\n"

end Model

end Concerto
