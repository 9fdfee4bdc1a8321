import Concerto.Number.Double

/-!
Models: the declarations of a namespace, with its imports.

* `Model`: a namespace, its imports and its declarations;
* `Declaration`: a concept, in one of five kinds, or an enumeration;
* `Property`: a property of a concept, with a kind that holds its type or its constraints;
* `Reference`: a type named by a declaration, resolved once it has a namespace;
* `Decorator`: an annotation of a declaration, a property or an enum value.
-/

namespace Concerto

/-- A point in a source text. -/
structure Position where
  line : Int
  column : Int
  offset : Int
  deriving DecidableEq

/-- The part of a source text that a node comes from. -/
structure Location where
  start : Position
  stop : Position
  source : Option String
  deriving DecidableEq

/-- A type, named by its declaration. The namespace is that of the declaration, if known. -/
structure Reference where
  name : String
  ns : Option String
  deriving DecidableEq

/-- An argument of a decorator. -/
inductive DecoratorArgument where
  | string (value : String) (location : Option Location)
  | number (value : Double) (location : Option Location)
  | boolean (value : Bool) (location : Option Location)
  | type (type : Reference) (isArray : Bool) (location : Option Location)
  deriving DecidableEq

/-- An annotation. A decorator without parentheses has no argument list, not an empty one. -/
structure Decorator where
  name : String
  arguments : Option (List DecoratorArgument)
  location : Option Location
  deriving DecidableEq

/-- What declarations, properties and enum values have in common. -/
structure Header where
  name : String
  decorators : Option (List Decorator)
  location : Option Location
  deriving DecidableEq

/-- The pattern that a string has to match. -/
structure StringPattern where
  pattern : String
  flags : String
  deriving DecidableEq

/-- A range of numbers, open on a side without bound. -/
structure Bounds (α : Type) where
  lower : Option α
  upper : Option α
  deriving DecidableEq

/-- What a property holds. -/
inductive PropertyKind where
  | object (type : Reference) (default : Option String)
  | relationship (type : Reference)
  | boolean (default : Option Bool)
  | dateTime
  | string (default : Option String) (pattern : Option StringPattern)
  | double (default : Option Double) (bounds : Option (Bounds Double))
  | integer (default : Option Int) (bounds : Option (Bounds Int))
  | long (default : Option Int) (bounds : Option (Bounds Int))
  deriving DecidableEq

/-- A property of a concept. -/
structure Property where
  header : Header
  isArray : Bool
  isOptional : Bool
  kind : PropertyKind
  deriving DecidableEq

/-- How the instances of a concept are told apart. -/
inductive Identification where
  | system
  | byProperty (name : String)
  deriving DecidableEq

/-- The kinds of concept. -/
inductive ConceptKind where
  | concept
  | asset
  | participant
  | transaction
  | event
  deriving DecidableEq, Repr

/-- A class of things with properties. -/
structure Concept where
  kind : ConceptKind
  header : Header
  isAbstract : Bool
  identified : Option Identification
  superType : Option Reference
  properties : List Property
  deriving DecidableEq

/-- An enumeration; its values are headers. -/
structure Enumeration where
  header : Header
  values : List Header
  deriving DecidableEq

/-- A declaration of a model. -/
inductive Declaration where
  | concept (concept : Concept)
  | enumeration (enumeration : Enumeration)
  deriving DecidableEq

/-- What a declaration has in common with every other. -/
def Declaration.header : Declaration → Header
  | concept c => c.header
  | enumeration e => e.header

/-- The name of a declaration. -/
def Declaration.name (d : Declaration) : String := d.header.name

/-- An import of all declarations of a namespace or of one. -/
inductive Import where
  | all (ns : String) (uri : Option String)
  | type (ns : String) (name : String) (uri : Option String)
  deriving DecidableEq

/-- A namespace with what it imports and declares. -/
structure Model where
  ns : String
  sourceUri : Option String
  concertoVersion : Option String
  imports : List Import
  declarations : List Declaration
  deriving DecidableEq

/-- The names of the declarations, in their order. -/
def Model.declarationNames (m : Model) : List String := m.declarations.map Declaration.name

end Concerto
