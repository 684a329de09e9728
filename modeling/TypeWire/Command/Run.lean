import TypeWire.Command.Arguments
import TypeWire.Directory
import TypeWire.Schema.Encode
import TypeWire.Schema.OfType
import TypeWire.TypeExpr.OfSchema
import TypeWire.Yaml.Content

/-!
# Running commands

A command takes types from a registry of modules and reads files through a function, so that the same
definitions run in a directory that is a value (`Command.run`) and on a real one. What it prints
begins with `[OK]` or `[ERROR]`; an error that a user can mend is printed and gives status 2, one that
no message is meant for ends the command (`CommandError.isReported`).
-/

namespace TypeWire

/-- The types that modules hold by name, and the models that they speak about. -/
structure Registry where
  models : List Model := []
  modules : List (String × List (String × TypeExpr)) := []
deriving Inhabited

/-- What lacks an attribute. -/
inductive Owner where
  | ofModule (name : String)
  /-- A class, by its full name. -/
  | ofType (name : String)
  | ofValue (className : String)
  /-- What shows nothing but the name that it lacks. -/
  | bare
deriving DecidableEq, Repr

/-- Why a command fails. -/
inductive CommandError where
  | badTarget (spec : String)
  | emptyModule
  /-- A module named relative to another. -/
  | relativeModule (name : String)
  | noModule (name : String)
  /-- A module inside a module. -/
  | noPackage (name outer : String)
  | noAttribute (owner : Owner) (name : String)
  | file (e : FileError)
  | document (e : Yaml.Error)
  | node (e : NodeError)
  | malformed (issues : List Issue)
  | schema (e : SchemaError)
  | invalidData (issues : List Issue)

namespace CommandError

/-- What is printed in place of a list of issues. -/
def issuesText : String := "validation error"

/-- The wording of an error. -/
def message : CommandError → String
  | .badTarget spec => "Expected MODULE:ATTR, got " ++ Text.quoted spec
  | .emptyModule => "Empty module name"
  | .relativeModule name =>
    "the 'package' argument is required to perform a relative import for " ++ Text.quoted name
  | .noModule name => "No module named " ++ Text.quoted name
  | .noPackage name outer =>
    "No module named " ++ Text.quoted name ++ "; " ++ Text.quoted outer ++ " is not a package"
  | .noAttribute owner name =>
    match owner with
    | .ofModule m => "module " ++ Text.quoted m ++ " has no attribute " ++ Text.quoted name
    | .ofType t => "type object " ++ Text.quoted t ++ " has no attribute " ++ Text.quoted name
    | .ofValue c => Text.quoted c ++ " object has no attribute " ++ Text.quoted name
    | .bare => name
  | .file e => e.message
  | .document (.malformed _) => "YAML"
  | .document (.misfit m) => m.message
  | .node (.invalid _) => issuesText
  | .node e => e.message
  | .malformed _ => "Invalid Vertex schema: " ++ issuesText
  | .schema e => e.message
  | .invalidData _ => issuesText

/-- Whether an error is printed. -/
def isReported : CommandError → Bool
  | .relativeModule _ | .schema (.unbuildable _) => false
  | .document (.misfit (.notTruth _)) | .document (.misfit .noDigits) => false
  | .document (.misfit .codeTooLarge) => false
  | _ => true

end CommandError

/-! ## Targets -/

namespace Registry

/-- The attributes of a module. -/
def attributes (r : Registry) (name : String) : Except CommandError (List (String × TypeExpr)) :=
  if name = "" then .error .emptyModule
  else if name.startsWith "." then .error (.relativeModule name)
  else
    match r.modules.lookup name with
    | some attributes => .ok attributes
    | none =>
      match name.splitOn "." with
      | outer :: _ :: _ =>
        if (r.modules.lookup outer).isSome then .error (.noPackage name outer)
        else .error (.noModule outer)
      | _ => .error (.noModule name)

/-- The full name of a scalar type. -/
def scalarName : Scalar → String
  | .str => "str"
  | .int => "int"
  | .float => "float"
  | .bool => "bool"
  | .datetime => "datetime.datetime"
  | .date => "datetime.date"

/-- An attribute of a type: a model has its docstring and its name, which as types are names that
nothing answers. -/
def attributeOf (r : Registry) (name : String) : TypeExpr → Except CommandError TypeExpr
  | .model m =>
    match name with
    | "__doc__" =>
      .ok (((r.models.find? (·.name = m)).bind Model.doc).elim .null TypeExpr.forward)
    | "__name__" => .ok (.forward m)
    | _ => .error (.noAttribute .bare name)
  | .annotated base _ => attributeOf r name base
  | .scalar s => .error (.noAttribute (.ofType (scalarName s)) name)
  | .bareList _ | .list .. => .error (.noAttribute (.ofType "list") name)
  | .other _ shown | .generic _ shown _ => .error (.noAttribute (.ofType shown) name)
  | .null => .error (.noAttribute (.ofValue "NoneType") name)
  | .forward _ => .error (.noAttribute (.ofValue "str") name)
  | .enumeration _ | .union _ | .literal _ | .record .. => .error (.noAttribute .bare name)

/-- The type that a target names: a module, a colon, and names joined by dots. -/
def find (r : Registry) (target : String) : Except CommandError TypeExpr := do
  let cs := target.toList
  let path := (cs.dropWhile (· ≠ ':')).drop 1
  if path = [] then throw (.badTarget target)
  let name := String.ofList (cs.takeWhile (· ≠ ':'))
  let attributes ← r.attributes name
  match (String.ofList path).splitOn "." with
  | [] => throw (.badTarget target)
  | first :: rest =>
    match attributes.lookup first with
    | none => throw (.noAttribute (.ofModule name) first)
    | some t => rest.foldlM (fun t part => r.attributeOf part t) t

end Registry

/-! ## Commands -/

/-- Reads files by their paths. -/
abbrev Reader := String → Except FileError String

/-- What a command prints, and the file that it writes. -/
structure Report where
  output : String := ""
  written : Option (String × String) := none
deriving DecidableEq, Repr

namespace Command

/-- The files that a command reads. -/
def inputs : Command → List String
  | .writeSchema .. => []
  | .checkFiles schema data => schema :: data.toList

/-- The value of the document in a file. -/
def load (read : Reader) (path : String) : Except CommandError Value :=
  match read path with
  | .error e => .error (.file e)
  | .ok text =>
    match Yaml.read text with
    | .ok v => .ok v
    | .error e => .error (.document e)

/-- The text of a target's schema. -/
def schemaText (r : Registry) (target : String) (indent : Int) : Except CommandError String := do
  match Schema.ofType r.models (← r.find target) with
  | .ok s => return s.encode.json (some indent.toNat)
  | .error e => throw (.node e)

/-- The validator that the schema in a file asks for. -/
def loadValidator (read : Reader) (path : String) : Except CommandError Validator := do
  match Schema.decode (← load read path) with
  | .error issues => throw (.malformed issues)
  | .ok s =>
    match (TypeExpr.rebuild "VertexModel" s {}).1 with
    | .error e => throw (.schema e)
    | .ok t =>
      match Validator.ofType t with
      | .error u => throw (.schema (.unbuildable u))
      | .ok v => return v

/-- What a command does, given the files that it reads. -/
def execute (r : Registry) (read : Reader) : Command → Except CommandError Report
  | .writeSchema target indent output => do
    let text := (← schemaText r target indent) ++ "\n"
    match output with
    | none | some "" => return { output := text }
    | some path => return { written := some (path, text) }
  | .checkFiles schema data => do
    let validator ← loadValidator read schema
    match data with
    | none => return { output := "[OK] Schema valid: " ++ schema ++ "\n" }
    | some path =>
      match validator.run (← load read path) with
      | .ok _ => return { output := "[OK] Data valid: " ++ path ++ "\n" }
      | .error issues => throw (.invalidData issues)

end Command

/-! ## Runs in a directory -/

/-- How a command ends. -/
inductive Exit where
  | status (code : Nat)
  /-- A command line that is no command ends at once. -/
  | usage (code : Nat)
  | broken (e : CommandError)

/-- What a command leaves behind. -/
structure Outcome where
  exit : Exit
  output : String := ""
  directory : Directory

namespace CommandError

/-- How a command that fails ends, and what it prints. -/
def exit (e : CommandError) : Exit × String :=
  if e.isReported then (.status 2, "[ERROR] " ++ e.message ++ "\n") else (.broken e, "")

end CommandError

/-- How a command line without a command ends. -/
def UsageError.exit : UsageError → Exit
  | .help => .usage 0
  | .wrong => .usage 2

namespace Command

/-- Runs a command in a directory; one that fails leaves it as it was. -/
def run (r : Registry) (d : Directory) (c : Command) : Outcome :=
  let failed (e : CommandError) : Outcome := ⟨e.exit.1, e.exit.2, d⟩
  match c.execute r d.read with
  | .error e => failed e
  | .ok ⟨output, none⟩ => ⟨.status 0, output, d⟩
  | .ok ⟨output, some (path, text)⟩ =>
    match d.write path text with
    | .error e => failed (.file e)
    | .ok d => ⟨.status 0, output, d⟩

/-- Runs the command that a command line gives. -/
def runArguments (r : Registry) (d : Directory) (arguments : List String) : Outcome :=
  match ofArguments arguments with
  | .ok c => c.run r d
  | .error e => { exit := e.exit, directory := d }

end Command

end TypeWire
