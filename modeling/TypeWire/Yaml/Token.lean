import TypeWire.Yaml.Cursor

/-!
# Tokens

The words of a document. Besides what is written there are tokens for what the layout says: a
collection in block style opens where its first item is indented deeper and closes where the
indentation ends, and a key that is only told by the colon behind it gets its `key` token in front.
-/

namespace TypeWire.Yaml

/-- A tag as written: a handle that a directive may have defined, and the rest of the name; or the
whole name. -/
structure WrittenTag where
  handle : Option String
  suffix : String
deriving Repr, DecidableEq

/-- A directive in front of a document. -/
inductive Directive where
  | version (major : Nat)
  | tag (handle start : String)
  | other
deriving Repr, DecidableEq

/-- A token. -/
inductive Token where
  | directive (d : Directive)
  | documentStart
  | documentEnd
  /-- A sequence in block style opens. -/
  | blockSequence
  /-- A mapping in block style opens. -/
  | blockMapping
  /-- The innermost collection in block style closes. -/
  | blockEnd
  | openBracket
  | closeBracket
  | openBrace
  | closeBrace
  | comma
  /-- The dash in front of an item. -/
  | entry
  | key
  | value
  /-- An alias: it stands for the node with an anchor. -/
  | reference (name : String)
  | anchor (name : String)
  | tag (t : WrittenTag)
  | scalar (text : String) (plain : Bool)
deriving Repr, DecidableEq

end TypeWire.Yaml
