import TypeWire.Json
import TypeWire.Text.Blank
import TypeWire.Text.Case
import TypeWire.Yaml.Node
import TypeWire.Yaml.Token.OfText

/-!
# The value of a node

Scalars are read as their tags say (`scalarValue`), sequences are lists, mappings are dictionaries
without repeated keys. A `<<` key merges the mappings that it names in front of the others. A document
with several faults is refused for the one nearest to its root, and of two at one depth for the first
(`Fault.nearest`).
-/

namespace TypeWire.Yaml

/-! ## Scalars -/

/-- The whole number that digits write in a base. -/
def digitsToNat (base : Nat) (cs : List Char) : Option Nat :=
  cs.foldl
    (fun acc c => do
      let n ← acc
      let d ← hexValue? c
      if d < base then some (n * base + d) else none)
    (some 0)

/-- A text of digits in a base, at least one; in base ten a sign and blanks around it may stand there,
too. -/
def wholeOfText (base : Nat) (cs : List Char) : Except Error Int :=
  let refused : Except Error Int := .error (.misfit (.notWhole (String.ofList cs) base))
  let (negative, digits) :=
    if base = 10 then Numeric.takeSign (Text.trimSpace cs) else (false, cs)
  match digits, digitsToNat base digits with
  | [], _ | _, none => refused
  | _, some n => .ok (if negative then -n else n)

/-- A sign as a factor. -/
def signed (negative : Bool) (n : Int) : Int := if negative then -n else n

/-- Reads a whole number. -/
def intOfScalar (text : String) : Except Error Int :=
  let cs := text.toList.filter (· ≠ '_')
  let (negative, digits) := Numeric.takeSign cs
  if cs = [] ∨ digits = [] then .error (.misfit .noDigits)
  else
    let n : Except Error Int :=
      match digits with
      | ['0'] => .ok 0
      | '0' :: 'b' :: digits => wholeOfText 2 digits
      | '0' :: 'x' :: digits => wholeOfText 16 digits
      | '0' :: _ => wholeOfText 8 digits
      | digits =>
        ((digits.splitOn ':').mapM (wholeOfText 10)).map fun parts =>
          parts.foldl (fun n d => n * 60 + d) 0
    n.map (signed negative)

/-- Reads a number with a point. -/
def floatOfText (cs : List Char) : Except Error Float :=
  match Numeric.floatOfChars? (Text.trimSpace cs) with
  | some x => .ok x
  | none => .error (.misfit (.notNumber (String.ofList cs)))

/-- The sum of numbers in base sixty, added up from the last. -/
def sixtieths (parts : List Float) : Float :=
  (parts.reverse.foldl
    (fun (sum, base) x => (sum + x * (Numeric.floatOfInt? base).getD 0, base * 60))
    ((0.0 : Float), (1 : Int))).1

/-- Reads a double. -/
def floatOfScalar (text : String) : Except Error Float :=
  let cs := (Text.lower text).toList.filter (· ≠ '_')
  let (negative, digits) := Numeric.takeSign cs
  let sign (x : Float) : Float := if negative then -x else x
  if cs = [] then .error (.misfit .noDigits)
  else if digits = ".inf".toList then .ok (sign (1.0 / 0.0))
  else if digits = ".nan".toList then .ok (0.0 / 0.0)
  else if digits.contains ':' then do
    return sign (sixtieths (← (digits.splitOn ':').mapM floatOfText))
  else (floatOfText digits).map sign

/-- The longest offset of a time, which it must not reach, in seconds. -/
def dayLength : Nat := 86400

/-- Reads a date or a time. -/
def timeOfScalar (text : String) : Except Error Value := do
  match Tag.TimeText.ofChars? text.toList with
  | none => throw (.misfit .notTime)
  | some t =>
    if let some (_, _, _, _, some offset) := t.time then
      if dayLength ≤ offset.natAbs then throw (.misfit (.offset offset))
    if t.year = 0 then throw (.misfit (.year t.year))
    if ¬ (1 ≤ t.month ∧ t.month ≤ 12) then throw (.misfit .month)
    match Date.ofParts? t.year t.month t.day, t.time with
    | none, _ => throw (.misfit .day)
    | some date, none => return .date date
    | some date, some (hour, minute, second, fraction, offset) =>
      if 24 ≤ hour then throw (.misfit .hour)
      if 60 ≤ minute then throw (.misfit .minute)
      if 60 ≤ second then throw (.misfit .second)
      return .datetime ⟨date, hour, minute, second, microseconds fraction, offset⟩

/-- The value of a digit in base sixty-four. -/
def base64Digit? (c : Char) : Option Nat :=
  if 'A' ≤ c ∧ c ≤ 'Z' then some (c.toNat - 'A'.toNat)
  else if 'a' ≤ c ∧ c ≤ 'z' then some (c.toNat - 'a'.toNat + 26)
  else if c.isDigit then some (c.toNat - '0'.toNat + 52)
  else if c = '+' then some 62
  else if c = '/' then some 63
  else none

/-- The bytes of digits in base sixty-four, four of which are three bytes. -/
def base64Bytes : List Nat → Option (List UInt8)
  | a :: b :: c :: d :: rest => do
    let n := ((a * 64 + b) * 64 + c) * 64 + d
    return UInt8.ofNat (n / 65536) :: UInt8.ofNat (n / 256) :: UInt8.ofNat n ::
      (← base64Bytes rest)
  | [a, b, c] =>
    let n := (a * 64 + b) * 64 + c
    some [UInt8.ofNat (n / 1024), UInt8.ofNat (n / 4)]
  | [a, b] => some [UInt8.ofNat ((a * 64 + b) / 16)]
  | [_] => none
  | [] => some []

/-- Reads bytes in base sixty-four. Other characters do not count; the digits in front of the padding
have to be whole bytes. -/
def binaryOfScalar (text : String) : Except Error Value :=
  let refused : Except Error Value := .error (.malformed .badBinary)
  if text.toList.any (128 ≤ ·.toNat) then refused
  else
    let digits := (text.toList.takeWhile (· ≠ '=')).filterMap base64Digit?
    let padding := (text.toList.filter (· = '=')).length
    match base64Bytes digits with
    | some bytes =>
      if digits.length % 4 ≠ 0 ∧ digits.length % 4 + padding < 4 then refused
      else
        match String.fromUTF8? ⟨bytes.toArray⟩ with
        | some s => .ok (.bytes s)
        | none => refused
    | none => refused

/-- The value of a scalar. -/
def scalarValue (tag : Tag) (text : String) : Except Error Value :=
  match tag with
  | .null => .ok .null
  | .text => .ok (.str text)
  | .bool =>
    match Tag.truths.lookup (Text.lower text) with
    | some b => .ok (.bool b)
    | none => .error (.misfit (.notTruth (Text.lower text)))
  | .int => (intOfScalar text).map .int
  | .float => (floatOfScalar text).map .float
  | .timestamp => timeOfScalar text
  | .binary => binaryOfScalar text
  | .merge => .error (.malformed (.unknownTag "merge"))
  | .value => .error (.malformed (.unknownTag "value"))
  | .unknown name => .error (.malformed (.unknownTag name))
  | .sequence | .mapping | .set | .orderedMapping | .pairs => .error (.malformed .wrongKind)

/-! ## Collections -/

/-- A fault of a node, with its depth below the root. -/
structure Fault where
  depth : Nat
  error : Error

/-- Joins two results. Of two faults the one nearer to the root counts, of two at one depth the
first. -/
def nearest {α β γ : Type} (join : α → β → γ) (a : Except Fault α) (b : Except Fault β) :
    Except Fault γ :=
  match a, b with
  | .ok x, .ok y => .ok (join x y)
  | .error e, .ok _ => .error e
  | .ok _, .error e => .error e
  | .error e, .error f => .error (if f.depth < e.depth then f else e)

/-- Whether two keys are one: equal values, or both no number. -/
def sameKey (a b : Value) : Bool :=
  a.equals b ||
    match a, b with
    | .float x, .float y => x.isNaN && y.isNaN
    | _, _ => false

/-- Puts an entry into a dictionary: a key that is there keeps its place and takes the value. -/
def putPair (key value : Value) : List (Value × Value) → List (Value × Value)
  | [] => [(key, value)]
  | (k, v) :: rest =>
    if sameKey k key then (k, value) :: rest else (k, v) :: putPair key value rest

/-- Whether a value can be a key. -/
def canBeKey : Value → Bool
  | .list _ | .dict _ | .object _ => false
  | _ => true

/-- What a node is merged from, by the tag of its key. -/
inductive Entry where
  | merged (source : Except Fault (List (Value × Value)))
  | own (pair : Except Fault (Value × Value))

/-- The entries of a mapping: those that are merged in front of its own. -/
def flatten (entries : List Entry) : Except Fault (List (Value × Value)) :=
  let merged := entries.filterMap fun
    | .merged source => some source
    | .own _ => none
  let own := entries.filterMap fun
    | .own pair => some (pair.map ([·]))
    | .merged _ => none
  (merged ++ own).foldr (nearest (· ++ ·)) (.ok [])

/-- The dictionary that pairs build, put in one after the other. -/
def dictOfPairs (pairs : List (Value × Value)) : List (Value × Value) :=
  pairs.foldl (fun acc (k, v) => putPair k v acc) []

/-- The one pair that an item of an ordered mapping holds. -/
def singlePair (depth : Nat) : List (Except Fault (Value × Value)) → Except Fault (Value × Value)
  | [pair] => pair
  | _ => .error ⟨depth, .malformed .wrongKind⟩

/-- A pair whose key can be one. -/
def checkedPair (depth : Nat) (pair : Except Fault (Value × Value)) : Except Fault (Value × Value) :=
  match pair with
  | .ok (k, v) => if canBeKey k then .ok (k, v) else .error ⟨depth, .malformed .badKey⟩
  | .error e => .error e

namespace Node

mutual

/-- The value of a node at a depth. -/
def valueAt (depth : Nat) : Node → Except Fault Value
  | .scalar tag text => (scalarValue tag text).mapError (⟨depth, ·⟩)
  | .sequence tag items =>
    match tag with
    | .sequence => (itemsAt (depth + 1) items).map .list
    | .orderedMapping | .pairs =>
      (singlesAt (depth + 1) items).map fun ps => .list (ps.map fun (k, v) => .tuple [k, v])
    | .unknown name => .error ⟨depth, .malformed (.unknownTag name)⟩
    | .mapping | .set => .error ⟨depth + 1, .malformed .wrongKind⟩
    | _ => .error ⟨depth, .malformed .wrongKind⟩
  | .mapping tag pairs =>
    match tag with
    | .mapping => (flatten (entriesAt (depth + 1) pairs)).map fun ps => .dict (dictOfPairs ps)
    | .set => (flatten (entriesAt (depth + 1) pairs)).map fun _ => .object "set"
    | .unknown name => .error ⟨depth, .malformed (.unknownTag name)⟩
    | .sequence | .orderedMapping | .pairs => .error ⟨depth + 1, .malformed .wrongKind⟩
    | _ => .error ⟨depth, .malformed .wrongKind⟩

/-- The values of the items of a sequence. -/
def itemsAt (depth : Nat) : List Node → Except Fault (List Value)
  | [] => .ok []
  | n :: ns => nearest (· :: ·) (valueAt depth n) (itemsAt depth ns)

/-- The pairs of the items of an ordered mapping. -/
def singlesAt (depth : Nat) : List Node → Except Fault (List (Value × Value))
  | [] => .ok []
  | .mapping _ pairs :: ns =>
    nearest (· :: ·) (singlePair depth (pairsAt depth pairs)) (singlesAt depth ns)
  | _ :: _ => .error ⟨depth, .malformed .wrongKind⟩

/-- The pairs of a mapping as they stand there. -/
def pairsAt (depth : Nat) : List (Node × Node) → List (Except Fault (Value × Value))
  | [] => []
  | (k, v) :: rest => nearest (·, ·) (valueAt depth k) (valueAt depth v) :: pairsAt depth rest

/-- The entries of a mapping. -/
def entriesAt (depth : Nat) : List (Node × Node) → List Entry
  | [] => []
  | (k, v) :: rest =>
    (if k.tag = .merge then .merged (sourceAt depth v)
    else .own (checkedPair depth (nearest (·, ·) (keyAt depth k) (valueAt depth v)))) ::
      entriesAt depth rest

/-- The value of a key. A key that stands for the value of a mapping is a text. -/
def keyAt (depth : Nat) (k : Node) : Except Fault Value :=
  match k with
  | .scalar .value text => .ok (.str text)
  | k => valueAt depth k

/-- The entries that are merged from a mapping or from a list of them; those of the first count. -/
def sourceAt (depth : Nat) : Node → Except Fault (List (Value × Value))
  | .mapping _ pairs => flatten (entriesAt depth pairs)
  | .sequence _ items => sourcesAt depth items
  | .scalar .. => .error ⟨depth, .malformed .badMerge⟩

/-- The entries that are merged from a list of mappings, the last in front. -/
def sourcesAt (depth : Nat) : List Node → Except Fault (List (Value × Value))
  | [] => .ok []
  | .mapping _ pairs :: rest =>
    nearest (fun first others => others ++ first) (flatten (entriesAt depth pairs))
      (sourcesAt depth rest)
  | _ :: _ => .error ⟨depth, .malformed .badMerge⟩

end

end Node

/-! ## Documents -/

/-- A text in which each end of a line is a line feed. -/
def lineFeeds : List Char → List Char
  | '\r' :: '\n' :: rest => '\n' :: lineFeeds rest
  | '\r' :: rest => '\n' :: lineFeeds rest
  | c :: rest => c :: lineFeeds rest
  | [] => []

/-- The value of the only document of a text; a text without one is null. -/
def read (text : String) : Except Error Value := do
  match ← Document.ofTokens (← Token.ofText (lineFeeds text.toList)) with
  | none => return .null
  | some document => ((← document.node).valueAt 0).mapError Fault.error

end TypeWire.Yaml
