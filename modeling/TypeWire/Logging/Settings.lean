import TypeWire.Text.Blank
import TypeWire.Text.Case
import TypeWire.Text.Quoted

/-!
# Log settings

The settings of the root logger, made from the environment: `Settings.configure` sets the level and
attaches handlers, once. After that it changes nothing, whatever the environment.
-/

namespace TypeWire.Logging

/-- The variables of the environment that settings are made from. -/
structure Environment where
  level : Option String := none
  json : Option String := none
  directory : Option String := none
deriving Inhabited

/-- Where a handler writes. -/
inductive Target where
  | stream
  /-- A file that is changed each day, of which so many are kept. -/
  | file (path : String) (kept : Nat)
deriving DecidableEq, Repr, Inhabited

/-- A handler of log records. -/
structure Handler where
  target : Target
  level : Int
  json : Bool
deriving DecidableEq, Repr, Inhabited

/-- The settings of the root logger. -/
structure Settings where
  configured : Bool := false
  level : Int := 30
  handlers : List Handler := []
deriving Inhabited

/-- Why a level name gives no level: it names something else. -/
inductive LevelError where
  /-- A text that is no level itself. -/
  | unknown (shown : String)
  /-- Neither a text nor a number. -/
  | notLevel (shown : String)
deriving DecidableEq, Repr, Inhabited

/-- The message about a name that gives no level. -/
def LevelError.message : LevelError → String
  | unknown shown => "Unknown level: " ++ Text.quoted shown
  | notLevel shown => "Level not an integer or a valid string: " ++ shown

/-- The levels with names. -/
def levels : List (String × Int) :=
  [("CRITICAL", 50), ("FATAL", 50), ("ERROR", 40), ("WARNING", 30), ("WARN", 30), ("INFO", 20),
    ("DEBUG", 10), ("NOTSET", 0)]

/-- The names that stand for something else than a level. -/
def otherNames : List (String × LevelError) :=
  [("BASIC_FORMAT", .unknown "%(levelname)s:%(name)s:%(message)s"),
    ("_STYLES", .notLevel
      ("\x7b'%': (<class 'logging.PercentStyle'>, '%(levelname)s:%(name)s:%(message)s'), " ++
        "'\x7b': (<class 'logging.StrFormatStyle'>, " ++
        "'\x7blevelname\x7d:\x7bname\x7d:\x7bmessage\x7d'), " ++
        "'$': (<class 'logging.StringTemplateStyle'>, " ++
        "'$\x7blevelname\x7d:$\x7bname\x7d:$\x7bmessage\x7d')\x7d"))]

/-- The level with a name, in any case. A name of nothing is the level of information. -/
def levelOf (name : String) : Except LevelError Int :=
  let name := Text.upper name
  match otherNames.lookup name with
  | some e => .error e
  | none => .ok ((levels.lookup name).getD 20)

/-- The name of the log file. -/
def fileName : String := "vertex-schema.log"

/-- The parts of a path, without empty parts and steps that lead nowhere. -/
def pathParts (path : String) : List String :=
  (path.splitOn "/").foldl
    (fun parts part =>
      if part = "" ∨ part = "." then parts
      else if part = ".." ∧ parts ≠ [] ∧ parts.getLast? ≠ some ".." then parts.dropLast
      else parts ++ [part])
    []

/-- The path of the log file in a directory. -/
def logPath (directory : String) : String :=
  (if directory.startsWith "/" then "/" else "") ++
    "/".intercalate (pathParts (directory ++ "/" ++ fileName))

namespace Settings

/-- Makes the settings from the environment, unless they are made already. -/
def configure (s : Settings) (env : Environment) : Except LevelError Settings := do
  if s.configured then return s
  let level ← levelOf (env.level.getD "INFO")
  let json := Text.lower (env.json.getD "false") == "true"
  let file :=
    match nonEmpty env.directory with
    | some d => [⟨.file (logPath d) 7, level, json⟩]
    | none => []
  return { configured := true, level, handlers := s.handlers ++ [⟨.stream, level, json⟩] ++ file }

end Settings

/-- The name of the logger that is asked for; without a name it is the logger of this library. -/
def loggerName (name : Option String) : String :=
  (nonEmpty name).getD "vertex_schema.utils"

end TypeWire.Logging
