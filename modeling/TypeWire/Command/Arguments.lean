import TypeWire.Coercion
import TypeWire.Text.Digit

/-!
# Command lines

Two commands. `export` writes the schema of a type that a module holds; `validate` checks a file that
holds a schema, and data against it. The name of an option may be cut short as long as only one option
begins like it, its value is the next word or stands behind `=`, and behind `--` no word is an option
(`Command.ofArguments`). Words are taken in order, so that help is given if it is asked for before the
first error; an option that is cut too short is an error wherever it stands.
-/

namespace TypeWire

/-- What a command line asks for. -/
inductive Command where
  /-- To write the schema of a type, to a file if one is named. -/
  | writeSchema (target : String) (indent : Int) (output : Option String)
  /-- To check a schema, and data if a file is named. -/
  | checkFiles (schema : String) (data : Option String)
deriving DecidableEq, Repr

/-- Why a command line is no command. -/
inductive UsageError where
  /-- It asks for help instead. -/
  | help
  | wrong
deriving DecidableEq, Repr

namespace Command

/-- What a word of a command line is. -/
inductive Word where
  | argument
  | option (name : String) (value : Option String)
  | help
  /-- A request for help with a value, which it has no place for. -/
  | valuedHelp
  /-- Like an option, but none that there is. -/
  | unknown
  /-- The beginning of several options. -/
  | ambiguous
deriving DecidableEq, Repr

/-- Whether a word is a negative number. A line break may end it. -/
def isNegativeNumber (cs : List Char) : Bool :=
  let cs := (if cs.getLast? = some '\n' then cs.dropLast else cs).map Text.asciiDigit
  match cs with
  | '-' :: digits =>
    let whole := digits.takeWhile Char.isDigit
    match digits.dropWhile Char.isDigit with
    | [] => whole ≠ []
    | '.' :: fraction => fraction ≠ [] && fraction.all Char.isDigit
    | _ => false
  | _ => false

/-- A request for help by one letter, with more characters behind it. The letter may be repeated, and
what follows then may be anything but a dash or a value. -/
def shortHelp (cs : List Char) : Word :=
  match (cs.dropWhile (· == 'h')).head? with
  | some '-' | some '=' => .valuedHelp
  | _ => .help

/-- What a word is among options that take a value. -/
def classify (options : List String) (word : String) : Word :=
  let cs := word.toList
  let head := String.ofList (cs.takeWhile (· ≠ '='))
  let value : Option String :=
    match cs.dropWhile (· ≠ '=') with
    | [] => none
    | _ :: rest => some (String.ofList rest)
  let meant (name : String) : Word :=
    if name = "--help" then if value.isSome then .valuedHelp else .help else .option name value
  match cs with
  | '-' :: 'h' :: rest => shortHelp rest
  | '-' :: _ :: _ =>
    if ("--help" :: options).contains head then meant head
    else
      match ("--help" :: options).filter fun o => cs[1]? = some '-' && head.isPrefixOf o with
      | [name] => meant name
      | _ :: _ :: _ => .ambiguous
      | [] => if isNegativeNumber cs || cs.contains ' ' then .argument else .unknown
  | _ => .argument

/-- Reads a whole number, with an optional sign and blanks around it. -/
def number? (s : String) : Option Int :=
  let cs := ((s.toList.dropWhile Text.isBlank).reverse.dropWhile Text.isBlank).reverse
  let (negative, digits) := Numeric.takeSign (cs.map Text.asciiDigit)
  (Coercion.digitGroups digits).map fun ds =>
    let n : Int := Numeric.ofDigits ds
    if negative then -n else n

/-- The words of a command: arguments, and options with their values. -/
structure Words where
  arguments : List String := []
  indent : Int := 2
  output : Option String := none
  data : Option String := none
  hasUnknown : Bool := false
  /-- Whether the last word was an argument. -/
  endsWithArgument : Bool := false

/-- Gives an option a value; a later value takes the place of an earlier one. -/
def Words.set (w : Words) (name value : String) : Except UsageError Words :=
  if name = "--indent" then
    match number? value with
    | some n => .ok { w with indent := n }
    | none => .error .wrong
  else if name = "--output" then .ok { w with output := some value }
  else .ok { w with data := some value }

/-- The words with one more argument. -/
def Words.addArgument (w : Words) (word : String) : Words :=
  { w with arguments := w.arguments ++ [word], endsWithArgument := true }

/-- The words behind `--` are arguments. If there are none, `--` has to stand beside an argument. -/
def Words.close (w : Words) (rest : List String) : Words :=
  { w with
    arguments := w.arguments ++ rest
    hasUnknown := w.hasUnknown || (rest.isEmpty && !w.endsWithArgument) }

/-- Sorts the words of a command. -/
def sortWords (options : List String) (found : Words) : List String → Except UsageError Words
  | [] => .ok found
  | word :: rest =>
    if word = "--" then .ok (found.close rest)
    else
      let before := { found with endsWithArgument := false }
      match classify options word with
      | .argument => sortWords options (found.addArgument word) rest
      | .help => .error .help
      | .unknown => sortWords options { before with hasUnknown := true } rest
      | .ambiguous | .valuedHelp => .error .wrong
      | .option name (some value) => do sortWords options (← before.set name value) rest
      | .option name none =>
        match rest with
        | [] => .error .wrong
        | value :: rest =>
          if value ≠ "--" ∧ classify options value = .argument then do
            sortWords options (← before.set name value) rest
          else .error .wrong

/-- Reads the words of a command, of which those before `--` have to be clear. -/
def readWords (options words : List String) : Except UsageError Words :=
  if (words.takeWhile (· ≠ "--")).any fun w => classify options w = .ambiguous then .error .wrong
  else sortWords options {} words

/-- The only argument of a command, in which all words have a meaning. -/
def Words.only (w : Words) : Except UsageError String :=
  match w.arguments with
  | [argument] => if w.hasUnknown then .error .wrong else .ok argument
  | _ => .error .wrong

/-- The command with a name and the words that follow it. -/
def ofWords (name : String) (words : List String) : Except UsageError Command := do
  if name = "export" then
    let w ← readWords ["--indent", "--output"] words
    return .writeSchema (← w.only) w.indent w.output
  else if name = "validate" then
    let w ← readWords ["--data"] words
    return .checkFiles (← w.only) w.data
  else throw .wrong

/-- The command that the words of a command line give. Before the command there is no option but the
request for help. -/
def ofArguments : List String → Except UsageError Command
  | [] => .error .wrong
  | word :: rest =>
    if word = "--" then .error .wrong
    else
      match classify [] word with
      | .argument => ofWords word rest
      | .help => .error .help
      | .unknown => do
        let _ ← ofArguments rest
        throw .wrong
      | _ => .error .wrong

end Command

end TypeWire
