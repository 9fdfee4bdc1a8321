import Concerto.Text.Digit

/-!
Command lines.

* `Switch`: the switches of commands, with their names;
* `wordsOf`: the values and the switches of arguments, one after the other;
* `Request`, `Invocation`: a command with what it was given, and whether it tells what it does;
* `Invocation.ofArguments`: the invocation of a command line, if it is understood.

The name of a switch may be cut short as long as only one begins so. The value of a switch may
follow the letter without a space, or the name after an equals sign; letters without values may
share a dash. After two dashes everything is a value.
-/

namespace Concerto.Command

/-! ### Switches -/

/-- The switches of commands. -/
inductive Switch where
  | help
  | verbose
  | resolve
  | noValidate
  | output
  deriving DecidableEq, Repr

namespace Switch

/-- The letter of a switch, if it has one. -/
def letter? : Switch → Option Char
  | help => some 'h'
  | verbose => some 'v'
  | output => some 'o'
  | resolve | noValidate => none

/-- The name of a switch, which two dashes go before. -/
def name : Switch → String
  | help => "help"
  | verbose => "verbose"
  | resolve => "resolve"
  | noValidate => "no-validate"
  | output => "output"

/-- The switch has a value. -/
def hasValue : Switch → Bool
  | output => true
  | _ => false

end Switch

/-- The switch with a letter. -/
def ofLetter? (switches : List Switch) (letter : Char) : Option Switch :=
  switches.find? fun s => s.letter? = some letter

/-! ### Arguments -/

/-- A command line is not understood. -/
structure UsageError where
  deriving DecidableEq, Repr

/-- An argument by its form: a value, a switch by its name with what an equals sign gives it, a
switch by its letter with what follows that, a switch that is not known, or the two dashes after
which everything is a value. -/
inductive Argument where
  | value (text : String)
  | switch (switch : Switch) (given : Option String)
  | letters (switch : Switch) (further : List Char)
  | unknown
  | separator
  deriving DecidableEq, Repr

/-- The text is a negative number, which is no switch. -/
def isNegativeNumber (cs : List Char) : Bool :=
  let isDigits (ds : List Char) : Bool :=
    !ds.isEmpty && ds.all fun c => (Text.decimalDigit? c).isSome
  match cs with
  | '-' :: unsigned =>
    let whole := unsigned.takeWhile (· ≠ '.')
    match unsigned.drop whole.length with
    | [] => isDigits whole
    | _ :: fraction => (whole.isEmpty || isDigits whole) && isDigits fraction
  | _ => false

/-- The form of an argument that begins with a dash and is no switch of these. -/
def otherForm (text : String) : Argument :=
  if isNegativeNumber text.toList || text.toList.contains ' ' then .value text else .unknown

/-- The form of an argument with two dashes, by what follows them. -/
def longForm (switches : List Switch) (text : String) (cs : List Char) :
    Except UsageError Argument :=
  let name := cs.takeWhile (· ≠ '=')
  let given :=
    match cs.drop name.length with
    | _ :: value => some (String.ofList value)
    | [] => none
  match switches.find? (fun s => s.name.toList = name) with
  | some s => .ok (.switch s given)
  | none =>
    match switches.filter (fun s => name.isPrefixOf s.name.toList) with
    | [] => .ok (otherForm text)
    | [s] => .ok (.switch s given)
    | _ => .error ⟨⟩

/-- The form of an argument with one dash, by the letter that follows it and the rest. -/
def shortForm (switches : List Switch) (text : String) (letter : Char) (rest : List Char) :
    Argument :=
  match ofLetter? switches letter with
  | none => otherForm text
  | some s => .letters s rest

/-- The form of an argument. -/
def formOf (switches : List Switch) (text : String) : Except UsageError Argument :=
  match text.toList with
  | '-' :: '-' :: cs => longForm switches text cs
  | '-' :: letter :: rest => .ok (shortForm switches text letter rest)
  | _ => .ok (.value text)

/-- What ends the switches of a command line. -/
def separator : String := "--"

/-- The forms of arguments. -/
def formsOf (switches : List Switch) : List String → Except UsageError (List Argument)
  | [] => .ok []
  | text :: texts =>
    if text = separator then .ok (.separator :: texts.map .value)
    else do
      let form ← formOf switches text
      return form :: (← formsOf switches texts)

/-! ### Words -/

/-- What arguments say, one after the other. At a mistake the rest is not looked at. -/
inductive Word where
  | value (text : String)
  | on (switch : Switch)
  | given (switch : Switch) (value : String)
  | unknown
  | separator
  | mistake
  deriving DecidableEq, Repr

/-- The words of letters that share a dash, and the last switch if its value is still to come.
An equals sign may go before the value; without a value there is no place for it. -/
def spellOut? (switches : List Switch) (s : Switch) :
    List Char → Option (List Word × Option Switch)
  | [] => some (if s.hasValue then ([], some s) else ([.on s], none))
  | c :: rest =>
    if s.hasValue then
      some ([.given s (String.ofList (if c = '=' then rest else c :: rest))], none)
    else if c = '=' || c = '-' then none
    else
      match ofLetter? switches c with
      | none => some ([.on s, .unknown], none)
      | some next =>
        (spellOut? switches next rest).map fun (words, waiting) => (.on s :: words, waiting)

/-- The words of arguments. A switch without a value of its own takes the next argument, which
has to be a value. -/
def wordsOf (switches : List Switch) : List Argument → List Word
  | [] => []
  | .value text :: rest => .value text :: wordsOf switches rest
  | .unknown :: rest => .unknown :: wordsOf switches rest
  | .separator :: rest => .separator :: wordsOf switches rest
  | .switch s (some given) :: rest =>
    if s.hasValue then .given s given :: wordsOf switches rest else [.mistake]
  | .switch s none :: .value text :: rest =>
    if s.hasValue then .given s text :: wordsOf switches rest
    else .on s :: .value text :: wordsOf switches rest
  | .switch s none :: rest =>
    if s.hasValue then [.mistake] else .on s :: wordsOf switches rest
  | .letters s further :: rest =>
    match spellOut? switches s further, rest with
    | none, _ => [.mistake]
    | some (words, none), rest => words ++ wordsOf switches rest
    | some (words, some last), .value text :: rest =>
      words ++ .given last text :: wordsOf switches rest
    | some (_, some _), _ => [.mistake]

/-- The word is a value. -/
def Word.isValue : Word → Bool
  | value _ => true
  | _ => false

/-- The values among words. -/
def valuesOf (words : List Word) : List String :=
  words.filterMap fun
    | .value text => some text
    | _ => none

/-- The separator stands after values that a switch parts from it, which leaves no place for
it. -/
def hasStraySeparator (words : List Word) : Bool :=
  let before := words.takeWhile (· ≠ .separator)
  words.contains .separator && (before.reverse.dropWhile Word.isValue).any Word.isValue

/-- The last value that is given to a switch. -/
def givenTo (s : Switch) (words : List Word) : Option String :=
  (words.reverse.findSome? fun
    | .given t value => if t = s then some value else none
    | _ => none)

/-- What words come to: help is asked for before there is a mistake, or there is one, or neither.
A switch that is not known is a mistake only after all other words. -/
inductive Sense where
  | help
  | mistaken
  | plain
  deriving DecidableEq, Repr

/-- What words come to. -/
def senseOf : List Word → Sense
  | [] => .plain
  | .on .help :: _ => .help
  | .mistake :: _ => .mistaken
  | .unknown :: rest => if senseOf rest = .help then .help else .mistaken
  | _ :: rest => senseOf rest

/-! ### Invocations -/

/-- What is asked for. -/
inductive Request where
  | help
  | check (directory : String)
  | resolve (ns : String) (directory : String)
  | exportAll (directory : String) (resolve validate : Bool) (output : Option String)
  | importAll (artifact : String) (output : String) (validate : Bool)
  | metamodel
  deriving DecidableEq, Repr

/-- What is asked for, and whether every step is to be told. -/
structure Invocation where
  verbose : Bool
  request : Request
  deriving DecidableEq, Repr

/-- The directory that stands for one that is not named. -/
def here : String := "."

/-- The names of the commands and their switches. -/
def commands : List (String × List Switch) :=
  [("check", [.help]), ("resolve", [.help]),
    ("export", [.help, .resolve, .noValidate, .output]),
    ("import", [.help, .output, .noValidate]), ("metamodel", [.help])]

/-- The request of a command by its words, if it has all that it needs and nothing else. -/
def requestOf (command : String) (words : List Word) : Except UsageError Request :=
  let validate := !words.contains (.on .noValidate)
  let output := givenTo .output words
  if hasStraySeparator words then .error ⟨⟩
  else
    match command, valuesOf words with
    | "check", [] => .ok (.check here)
    | "check", [directory] => .ok (.check directory)
    | "resolve", [ns] => .ok (.resolve ns here)
    | "resolve", [ns, directory] => .ok (.resolve ns directory)
    | "export", [] => .ok (.exportAll here (words.contains (.on .resolve)) validate output)
    | "export", [directory] =>
      .ok (.exportAll directory (words.contains (.on .resolve)) validate output)
    | "import", [artifact] => .ok (.importAll artifact (output.getD here) validate)
    | "metamodel", [] => if words.contains .separator then .error ⟨⟩ else .ok .metamodel
    | _, _ => .error ⟨⟩

/-- The request of a command with its arguments. -/
def commandRequest (command : String) (arguments : List String) : Except UsageError Request :=
  match commands.lookup command with
  | none => .error ⟨⟩
  | some switches => do
    let words := wordsOf switches (← formsOf switches arguments)
    match senseOf words with
    | .help => return .help
    | .mistaken => throw ⟨⟩
    | .plain => requestOf command words

/-- The switches that stand before a command. -/
def generalSwitches : List Switch := [.help, .verbose]

/-- The argument is a command, or ends the switches before one. -/
def endsSwitches (text : String) : Bool :=
  text = separator ||
    match formOf generalSwitches text with
    | .ok (.value _) => true
    | _ => false

/-- The invocation of a command line. A command line without a command asks for help. -/
def Invocation.ofArguments (arguments : List String) : Except UsageError Invocation := do
  let _ ← formsOf generalSwitches arguments
  let before := arguments.takeWhile fun text => !endsSwitches text
  let words := wordsOf generalSwitches (← formsOf generalSwitches before)
  let verbose := words.contains (.on .verbose)
  match senseOf words, arguments.drop before.length with
  | .help, _ => return ⟨verbose, .help⟩
  | .plain, [] => return ⟨verbose, .help⟩
  | .plain, command :: rest => return ⟨verbose, ← commandRequest command rest⟩
  | .mistaken, command :: rest =>
    if words.contains .mistake then throw ⟨⟩
    else
      match ← commandRequest command rest with
      | .help => return ⟨verbose, .help⟩
      | _ => throw ⟨⟩
  | .mistaken, [] => throw ⟨⟩

end Concerto.Command
