import Concerto.Token.Stream

/-!
The model that a source text denotes.

* `Model.parse`: the model, or why the text denotes none.

A model is an optional version, a namespace, imports, and declarations up to the end of the
text. Its nodes have no locations, and its references no namespaces.
-/

namespace Concerto

namespace Parser

/-! ### Names -/

/-- A name of a declaration or a type, which no keyword is. -/
def typeName : Parser String := do
  let token ← expect [.identifier]
  if reservedWords.contains token.value then failAt token (.reservedName token.value)
  else return token.value

/-- A name of a property, a decorator or a part of a namespace, which a keyword may be. -/
def anyName : Parser String := do
  let token ← peek
  let isName :=
    match token.kind with
    | .identifier => true
    | .keyword k => k.canBeName
    | _ => false
  if !isName then failAt token (.expectedName token.value)
  else if reservedWords.contains token.value then failAt token (.reservedName token.value)
  else
    let _ ← advance
    return token.value

/-- The parts of a namespace with dots between them. -/
def joinName (parts : List String) : String := Text.joined "." parts

/-- A name with dots. -/
def qualifiedName : Parser String := do return joinName (← separatedBy .dot anyName)

/-! ### Version and imports -/

/-- A version statement, if there is one. -/
def version : Parser (Option String) := do
  let token ← peek
  if token.kind = .identifier && token.value = "concerto" then
    let _ ← advance
    let word ← expect [.identifier]
    if word.value ≠ "version" then failAt word (.expectedVersion word.value)
    else
      let range ← expect [.string]
      return some range.value
  else return none

/-- What an import names: the parts read so far, and, once it is known, all declarations or a
list of them. -/
structure ImportPath where
  parts : List String
  names : Option (Option (List String))

/-- The next part of an import, after a dot. -/
def importPart (path : ImportPath) : Parser ImportPath := do
  symbol .dot
  if ← takeSymbol .star then return { path with names := some none }
  else if ← takeSymbol .openBrace then
    let names ← separatedBy .comma typeName
    symbol .closeBrace
    return { path with names := some (some names) }
  else return { path with parts := path.parts ++ [← anyName] }

/-- An import statement, which makes an import for each name it lists. -/
def importStatement : Parser (List Import) := do
  let keyword ← expect [.keyword .importKw]
  let first ← anyName
  let path ← foldWhile (fun path kind => path.names.isNone && kind = .symbol .dot) importPart
    ⟨[first], none⟩
  let (parts, names) ←
    match path.names with
    | some names => pure (path.parts, names)
    | none =>
      if path.parts.length < 2 then failAt keyword .incompleteImport
      else pure (path.parts.dropLast, path.parts.getLast?.map ([·]))
  let uri ←
    if ← takeKeyword .fromKw then pure (some (← expect [.uri]).value)
    else pure none
  match names with
  | none => return [.all (joinName parts) uri]
  | some names => return names.map fun name => .type (joinName parts) name uri

/-! ### Decorators -/

/-- Brackets after a type make it an array. -/
def arrayMarker : Parser Bool := do
  if ← takeSymbol .openBracket then
    symbol .closeBracket
    return true
  else return false

/-- An argument of a decorator. -/
def decoratorArgument : Parser DecoratorArgument := do
  let token ← peek
  match token.kind with
  | .string =>
    let _ ← advance
    return .string token.value none
  | .integer | .float =>
    let _ ← advance
    return .number (← numberValue (readDouble token.value)) none
  | .keyword .trueKw =>
    let _ ← advance
    return .boolean true none
  | .keyword .falseKw =>
    let _ ← advance
    return .boolean false none
  | .identifier =>
    let name ← typeName
    return .type ⟨name, none⟩ (← arrayMarker) none
  | _ => failAt token (.unexpectedArgument token.value)

/-- The arguments between the parentheses after a decorator. -/
def decoratorArguments : Parser (List DecoratorArgument) := do
  if ← nextIs (.symbol .closeParen) then return []
  else separatedBy .comma decoratorArgument

/-- A decorator. -/
def decorator : Parser Decorator := do
  symbol .atSign
  let name ← anyName
  if ← takeSymbol .openParen then
    let arguments ← decoratorArguments
    symbol .closeParen
    return ⟨name, some arguments, none⟩
  else return ⟨name, none, none⟩

/-- The decorators before a declaration, a property or a value; without any there is no list. -/
def decorators : Parser (Option (List Decorator)) := do
  match ← many (· = .symbol .atSign) decorator with
  | [] => return none
  | list => return some list

/-! ### Properties -/

/-- The kind of a property whose type has a name; some names are those of primitive types. -/
def kindOfType : String → PropertyKind
  | "String" => .string none none
  | "Boolean" => .boolean none
  | "DateTime" => .dateTime
  | "Double" => .double none none
  | "Integer" => .integer none none
  | "Long" => .long none none
  | name => .object ⟨name, none⟩ none

/-- A whole number. -/
def integerLiteral : Parser Int := do
  numberValue (readInteger (← expect [.integer]).value)

/-- A number of either kind, as a double. -/
def doubleLiteral : Parser Double := do
  numberValue (readDouble (← expect [.integer, .float]).value)

/-- A truth value. -/
def booleanLiteral : Parser Bool := do
  return (← expect [.keyword .trueKw, .keyword .falseKw]).kind = .keyword .trueKw

/-- The pattern and the flags of a pattern literal, which its last slash divides. -/
def splitPattern (value : String) : StringPattern :=
  let reversed := value.toList.reverse
  let flags := (reversed.takeWhile (· ≠ '/')).reverse
  let pattern := ((reversed.dropWhile (· ≠ '/')).drop 1).reverse
  ⟨String.ofList pattern, String.ofList flags⟩

/-- A range in brackets, either end of which may be left out. -/
def range {α : Type} (bound : Parser α) : Parser (Bounds α) := do
  symbol .openBracket
  let lower ← if ← nextIs (.symbol .comma) then pure none else some <$> bound
  symbol .comma
  let upper ← if ← nextIs (.symbol .closeBracket) then pure none else some <$> bound
  symbol .closeBracket
  return ⟨lower, upper⟩

/-- The value after `default`, and the kind with it, for a kind that has a default. -/
def defaultValue? : PropertyKind → Option (Parser PropertyKind)
  | .object type _ => some do return .object type (some (← expect [.string]).value)
  | .boolean _ => some do return .boolean (some (← booleanLiteral))
  | .string _ pattern => some do return .string (some (← expect [.string]).value) pattern
  | .double _ bounds => some do return .double (some (← doubleLiteral)) bounds
  | .integer _ bounds => some do return .integer (some (← integerLiteral)) bounds
  | .long _ bounds => some do return .long (some (← integerLiteral)) bounds
  | .relationship _ | .dateTime => none

/-- The pattern after `regex`, and the kind with it, for a kind that has one. -/
def patternValue? : PropertyKind → Option (Parser PropertyKind)
  | .string default _ =>
    some do return .string default (some (splitPattern (← expect [.regex]).value))
  | _ => none

/-- The bounds after `range`, and the kind with them, for a kind that has them. -/
def rangeValue? : PropertyKind → Option (Parser PropertyKind)
  | .double default _ => some do return .double default (some (← range doubleLiteral))
  | .integer default _ => some do return .integer default (some (← range integerLiteral))
  | .long default _ => some do return .long default (some (← range integerLiteral))
  | _ => none

/-- The modifiers of a property read so far, and what they make of it. -/
structure Modified where
  seen : List Keyword
  isOptional : Bool
  kind : PropertyKind

/-- The keywords that begin a modifier. -/
def modifierOf? : TokenKind → Option Keyword
  | .keyword .defaultKw => some .defaultKw
  | .keyword .regexKw => some .regexKw
  | .keyword .rangeKw => some .rangeKw
  | .keyword .optionalKw => some .optionalKw
  | _ => none

/-- The value that a modifier gives to a kind of property, if it may. -/
def modifierValue? : Keyword → PropertyKind → Option (Parser PropertyKind)
  | .defaultKw => defaultValue?
  | .regexKw => patternValue?
  | .rangeKw => rangeValue?
  | _ => fun _ => none

/-- One more modifier of a property whose type is written as `type`. -/
def modifier (type : String) (m : Modified) : Parser Modified := do
  let token ← advance
  match modifierOf? token.kind with
  | none => return m
  | some keyword =>
    if m.seen.contains keyword then failAt token (.duplicateModifier keyword)
    else
      let m := { m with seen := keyword :: m.seen }
      if keyword = .optionalKw then return { m with isOptional := true }
      else
        match modifierValue? keyword m.kind with
        | none => failAt token (.modifierNotAllowed keyword type)
        | some value =>
          symbol .equals
          return { m with kind := ← value }

/-- The modifiers of a property. -/
def modifiers (type : String) (kind : PropertyKind) : Parser Modified :=
  foldWhile (fun _ next => (modifierOf? next).isSome) (modifier type) ⟨[], false, kind⟩

/-- A property with its decorators. -/
def property : Parser Property := do
  let decorators ← decorators
  let marker ← expect [.keyword .propertyKw, .symbol .arrow]
  let type ← typeName
  let isArray ← arrayMarker
  let name ← anyName
  let kind :=
    if marker.kind = .symbol .arrow then .relationship ⟨type, none⟩ else kindOfType type
  let m ← modifiers type kind
  return ⟨⟨name, decorators, none⟩, isArray, m.isOptional, m.kind⟩

/-! ### Declarations -/

/-- A token that a list in braces goes on before. -/
def continuesBody (kind : TokenKind) : Bool := kind ≠ .symbol .closeBrace && kind ≠ .eof

/-- A list in braces. -/
def body {α : Type} (item : Parser α) : Parser (List α) := do
  symbol .openBrace
  let items ← many continuesBody item
  symbol .closeBrace
  return items

/-- A value of an enumeration with its decorators. -/
def enumValue : Parser Header := do
  let decorators ← decorators
  let _ ← expect [.keyword .propertyKw]
  return ⟨← anyName, decorators, none⟩

/-- An enumeration. -/
def enumeration (decorators : Option (List Decorator)) : Parser Enumeration := do
  let _ ← expect [.keyword .enumKw]
  let name ← typeName
  return ⟨⟨name, decorators, none⟩, ← body enumValue⟩

/-- The clauses after the name of a concept. -/
structure Clauses where
  identified : Option Identification
  superType : Option Reference

/-- One more clause. -/
def clause (c : Clauses) : Parser Clauses := do
  let token ← advance
  if token.kind = .keyword .extendsKw then
    if c.superType.isSome then failAt token (.duplicateClause .extendsKw)
    else return { c with superType := some ⟨← typeName, none⟩ }
  else if c.identified.isSome then failAt token (.duplicateClause .identifiedKw)
  else if ← takeKeyword .byKw then
    return { c with identified := some (.byProperty (← anyName)) }
  else return { c with identified := some .system }

/-- The clauses of a concept, in either order. -/
def clauses : Parser Clauses :=
  foldWhile (fun _ next => next = .keyword .identifiedKw || next = .keyword .extendsKw) clause
    ⟨none, none⟩

/-- A concept of a kind, whose keyword is next. -/
def concept (kind : ConceptKind) (decorators : Option (List Decorator)) (isAbstract : Bool) :
    Parser Concept := do
  let _ ← advance
  let name ← typeName
  let c ← clauses
  let properties ← body property
  return ⟨kind, ⟨name, decorators, none⟩, isAbstract, c.identified, c.superType, properties⟩

/-- A declaration with its decorators. -/
def declaration : Parser Declaration := do
  let decorators ← decorators
  let isAbstract ← takeKeyword .abstractKw
  let token ← peek
  match token.kind with
  | .keyword .enumKw =>
    if isAbstract then failAt token .abstractEnumeration
    else return .enumeration (← enumeration decorators)
  | .keyword (.conceptKw kind) => return .concept (← concept kind decorators isAbstract)
  | _ => failAt token (.unexpectedAtTopLevel token.value)

/-- A model up to the end of the text. -/
def model : Parser Model := do
  let version ← version
  let _ ← expect [.keyword .namespaceKw]
  let ns ← qualifiedName
  let imports ← many (· = .keyword .importKw) importStatement
  let declarations ← many (· ≠ .eof) declaration
  return ⟨ns, none, version, imports.flatten, declarations⟩

end Parser

/-- The model that a text denotes. The text is split into tokens before any of them is read, so
that a fault in its tokens wins over one in their order. -/
def Model.parse (source : String) : Except SourceError Model :=
  match TokenStream.ofSource source with
  | .error e => .error (.lexical e)
  | .ok stream => (Parser.model.run stream).map (·.1)

end Concerto
