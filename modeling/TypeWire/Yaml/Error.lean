import TypeWire.Value.Display

/-!
# Why a document cannot be read

Two kinds of failure. A text can fail to be a document at all (`Problem`); and a document can hold a
scalar whose text looks like a value of some kind but is none (`Misfit`), such as the thirteenth
month of a year.
-/

namespace TypeWire.Yaml

/-- What keeps a text from being a document. -/
inductive Problem where
  | unprintable (c : Char)
  | badStart (c : Char)
  | entryNotAllowed
  | keyNotAllowed
  | valueNotAllowed
  /-- A token at the place of a key is not followed by a colon in its line. -/
  | keyWithoutValue
  | badName
  | badTag
  | badDirective
  | repeatedDirective
  | badVersion
  | unclosedQuote
  | badEscape
  /-- A line that begins or ends a document stands inside quotes. -/
  | markerInQuotes
  | badHeader
  | unclosedCollection
  | missingContent
  | missingDocumentStart
  | secondDocument
  | undefinedHandle (handle : String)
  | undefinedAlias (name : String)
  | repeatedAnchor (name : String)
  /-- An alias stands inside the node that it names. -/
  | endlessAlias (name : String)
  | unknownTag (tag : String)
  /-- The tag of a node asks for another kind of node. -/
  | wrongKind
  | badMerge
  /-- A key that is a list or a dictionary. -/
  | badKey
  | badBinary
deriving Repr

/-- What keeps the text of a scalar from being the value that it looks like. -/
inductive Misfit where
  | year (n : Nat)
  | month
  | day
  | hour
  | minute
  | second
  | offset (seconds : Int)
  | notWhole (text : String) (base : Nat)
  | notNumber (text : String)
  | notTruth (text : String)
  | notTime
  | noDigits
  /-- An escape for a number that is no character. -/
  | noCharacter (code : Nat)
  /-- An escape for a number beyond 31 bits. -/
  | codeTooLarge
deriving Repr

/-- Why a document cannot be read. -/
inductive Error where
  | malformed (problem : Problem)
  | misfit (problem : Misfit)
deriving Repr

/-- The wording of a misfit. -/
def Misfit.message : Misfit → String
  | .year n => "year " ++ toString n ++ " is out of range"
  | .month => "month must be in 1..12"
  | .day => "day is out of range for month"
  | .hour => "hour must be in 0..23"
  | .minute => "minute must be in 0..59"
  | .second => "second must be in 0..59"
  | .offset seconds =>
    "offset must be a timedelta strictly between -timedelta(hours=24) and timedelta(hours=24), not " ++
      Value.spanForm seconds ++ "."
  | .notWhole text base =>
    "invalid literal for int() with base " ++ toString base ++ ": " ++ Text.quoted text
  | .notNumber text => "could not convert string to float: " ++ Text.quoted text
  | .notTruth text => Text.quoted text
  | .notTime => "'NoneType' object has no attribute 'groupdict'"
  | .noDigits => "string index out of range"
  | .noCharacter _ => "chr() arg not in range(0x110000)"
  | .codeTooLarge => "Python int too large to convert to C int"

end TypeWire.Yaml
