import TypeWire.Yaml.Token

/-!
# The tree of a document

Tokens are read as a tree (`Tree.ofTokens`): scalars, sequences and mappings with the anchors and
tags in front of them, and aliases. Nothing stands for an empty plain scalar where a node may be
missing. Each reader returns the tokens behind what it read together with a proof that there are
fewer of them, so that reading ends.
-/

namespace TypeWire.Yaml

/-- What stands in front of a node. -/
structure Properties where
  anchor : Option String := none
  tag : Option WrittenTag := none
deriving Repr, DecidableEq

/-- A node as it is written. -/
inductive Tree where
  /-- An alias: it stands for the node with an anchor. -/
  | reference (name : String)
  | scalar (props : Properties) (text : String) (plain : Bool)
  | sequence (props : Properties) (items : List Tree)
  | mapping (props : Properties) (pairs : List (Tree × Tree))
deriving Inhabited

namespace Tree

/-- A node that is missing. -/
def empty : Tree := .scalar {} "" true

/-- Where a node stands. -/
inductive Place where
  | inFlow
  /-- As the item of a sequence in block style, or alone. -/
  | inBlock
  /-- In a mapping in block style, where a sequence need not be indented. -/
  | inMapping
deriving DecidableEq

/-- Whether the content of a node may begin with a token. -/
def beginsContent (place : Place) : Token → Bool
  | .scalar .. | .openBracket | .openBrace => true
  | .blockSequence | .blockMapping => place ≠ .inFlow
  | .entry => place = .inMapping
  | _ => false

/-- The tokens in front of which a node may be missing in a mapping in block style. -/
def endsBlockPart : Token → Bool
  | .key | .value | .blockEnd => true
  | _ => false

/-- The tokens in front of which an item may be missing in a sequence in block style. -/
def endsBlockItem : Token → Bool
  | .entry | .blockEnd => true
  | _ => false

/-- The tokens in front of which an item may be missing in a sequence that is not indented. -/
def endsLooseItem (t : Token) : Bool := t = .entry || endsBlockPart t

/-- The tokens in front of which a value may be missing between brackets. -/
def endsFlowValue : Token → Bool
  | .comma | .closeBracket | .closeBrace => true
  | _ => false

/-- The tokens in front of which a key may be missing between brackets. -/
def endsFlowKey (t : Token) : Bool := t = .value || endsFlowValue t

/-- Tokens that follow part of a list. -/
abbrev Behind (ts : List Token) := { rest : List Token // rest.length < ts.length }

/-- Tokens that follow part of a list or are all of it. -/
abbrev Within (ts : List Token) := { rest : List Token // rest.length ≤ ts.length }

mutual

/-- Reads a node. -/
def node (place : Place) (ts : List Token) : Except Error (Tree × Behind ts) :=
  match ts with
  | .reference name :: rest => .ok (.reference name, ⟨rest, by simp⟩)
  | .anchor a :: .tag t :: rest => do
    let (tree, ⟨after, _⟩) ← contentOrEmpty place ⟨some a, some t⟩ rest
    return (tree, ⟨after, by simp only [List.length_cons]; omega⟩)
  | .tag t :: .anchor a :: rest => do
    let (tree, ⟨after, _⟩) ← contentOrEmpty place ⟨some a, some t⟩ rest
    return (tree, ⟨after, by simp only [List.length_cons]; omega⟩)
  | .anchor a :: rest => do
    let (tree, ⟨after, _⟩) ← contentOrEmpty place ⟨some a, none⟩ rest
    return (tree, ⟨after, by simp only [List.length_cons]; omega⟩)
  | .tag t :: rest => do
    let (tree, ⟨after, _⟩) ← contentOrEmpty place ⟨none, some t⟩ rest
    return (tree, ⟨after, by simp only [List.length_cons]; omega⟩)
  | ts => content place {} ts
termination_by (ts.length, 2)

/-- Reads what the properties of a node stand in front of, which may be missing. -/
def contentOrEmpty (place : Place) (props : Properties) (ts : List Token) :
    Except Error (Tree × Within ts) :=
  if ts.head?.any (beginsContent place) then do
    let (tree, ⟨after, _⟩) ← content place props ts
    return (tree, ⟨after, by omega⟩)
  else .ok (.scalar props "" true, ⟨ts, Nat.le_refl _⟩)
termination_by (ts.length, 1)

/-- Reads the content of a node. -/
def content (place : Place) (props : Properties) (ts : List Token) :
    Except Error (Tree × Behind ts) :=
  match ts with
  | .scalar text plain :: rest => .ok (.scalar props text plain, ⟨rest, by simp⟩)
  | .openBracket :: rest => do
    let (items, ⟨after, _⟩) ← flowItems rest
    return (.sequence props items, ⟨after, by simp only [List.length_cons]; omega⟩)
  | .openBrace :: rest => do
    let (pairs, ⟨after, _⟩) ← flowPairs rest
    return (.mapping props pairs, ⟨after, by simp only [List.length_cons]; omega⟩)
  | .blockSequence :: rest =>
    if place = .inFlow then .error (.malformed .missingContent)
    else do
      let (items, ⟨after, _⟩) ← blockItems rest
      return (.sequence props items, ⟨after, by simp only [List.length_cons]; omega⟩)
  | .blockMapping :: rest =>
    if place = .inFlow then .error (.malformed .missingContent)
    else do
      let (pairs, ⟨after, _⟩) ← blockPairs rest
      return (.mapping props pairs, ⟨after, by simp only [List.length_cons]; omega⟩)
  | .entry :: rest =>
    if place = .inMapping then do
      let (items, ⟨after, _⟩) ← looseItems rest
      return (.sequence props items, ⟨after, by simp only [List.length_cons]; omega⟩)
    else .error (.malformed .missingContent)
  | _ => .error (.malformed .missingContent)
termination_by (ts.length, 0)

/-- Reads a node, which is missing in front of certain tokens. -/
def nodeOrEmpty (ends : Token → Bool) (place : Place) (ts : List Token) :
    Except Error (Tree × Within ts) :=
  if ts.head?.any ends then .ok (empty, ⟨ts, Nat.le_refl _⟩)
  else do
    let (tree, ⟨after, _⟩) ← node place ts
    return (tree, ⟨after, by omega⟩)
termination_by (ts.length, 3)

/-- Reads the value behind a key, which is missing without a colon. -/
def valueOrEmpty (ends : Token → Bool) (place : Place) (ts : List Token) :
    Except Error (Tree × Within ts) :=
  match ts with
  | .value :: rest => do
    let (tree, ⟨after, _⟩) ← nodeOrEmpty ends place rest
    return (tree, ⟨after, by simp only [List.length_cons]; omega⟩)
  | ts => .ok (empty, ⟨ts, Nat.le_refl _⟩)
termination_by (ts.length, 0)

/-- Reads the items of a sequence in block style. -/
def blockItems (ts : List Token) : Except Error (List Tree × Behind ts) :=
  match ts with
  | .entry :: rest => do
    let (item, ⟨mid, _⟩) ← nodeOrEmpty endsBlockItem .inBlock rest
    let (items, ⟨after, _⟩) ← blockItems mid
    return (item :: items, ⟨after, by simp only [List.length_cons]; omega⟩)
  | .blockEnd :: rest => .ok ([], ⟨rest, by simp⟩)
  | _ => .error (.malformed .unclosedCollection)
termination_by (ts.length, 4)

/-- Reads the items of a sequence that is not indented, behind its first dash. -/
def looseItems (ts : List Token) : Except Error (List Tree × Within ts) := do
  let (item, ⟨mid, _⟩) ← nodeOrEmpty endsLooseItem .inBlock ts
  match mid, ‹mid.length ≤ ts.length› with
  | .entry :: rest, _ =>
    let (items, ⟨after, _⟩) ← looseItems rest
    return (item :: items, ⟨after, by simp_all only [List.length_cons]; omega⟩)
  | mid, h => return ([item], ⟨mid, h⟩)
termination_by (ts.length, 4)

/-- Reads the pairs of a mapping in block style. -/
def blockPairs (ts : List Token) : Except Error (List (Tree × Tree) × Behind ts) :=
  match ts with
  | .key :: rest => do
    let (k, ⟨mid, _⟩) ← nodeOrEmpty endsBlockPart .inMapping rest
    let (v, ⟨last, _⟩) ← valueOrEmpty endsBlockPart .inMapping mid
    let (pairs, ⟨after, _⟩) ← blockPairs last
    return ((k, v) :: pairs, ⟨after, by simp only [List.length_cons]; omega⟩)
  | .blockEnd :: rest => .ok ([], ⟨rest, by simp⟩)
  | _ => .error (.malformed .unclosedCollection)
termination_by (ts.length, 4)

/-- Reads the items of a sequence in brackets; an item may be a single pair. -/
def flowItems (ts : List Token) : Except Error (List Tree × Behind ts) :=
  match ts with
  | .closeBracket :: rest => .ok ([], ⟨rest, by simp⟩)
  | .key :: rest => do
    let (k, ⟨mid, _⟩) ← nodeOrEmpty endsFlowKey .inFlow rest
    let (v, ⟨last, _⟩) ← valueOrEmpty endsFlowValue .inFlow mid
    let (items, ⟨after, _⟩) ← flowItemsAfter last
    return (.mapping {} [(k, v)] :: items,
      ⟨after, by simp only [List.length_cons]; omega⟩)
  | ts => do
    let (item, ⟨mid, _⟩) ← node .inFlow ts
    let (items, ⟨after, _⟩) ← flowItemsAfter mid
    return (item :: items, ⟨after, by omega⟩)
termination_by (ts.length, 4)

/-- Reads the items of a sequence in brackets that follow an item. -/
def flowItemsAfter (ts : List Token) : Except Error (List Tree × Behind ts) :=
  match ts with
  | .closeBracket :: rest => .ok ([], ⟨rest, by simp⟩)
  | .comma :: rest => do
    let (items, ⟨after, _⟩) ← flowItems rest
    return (items, ⟨after, by simp only [List.length_cons]; omega⟩)
  | _ => .error (.malformed .unclosedCollection)
termination_by (ts.length, 0)

/-- Reads the pairs of a mapping in braces; a pair may be a key alone. -/
def flowPairs (ts : List Token) : Except Error (List (Tree × Tree) × Behind ts) :=
  match ts with
  | .closeBrace :: rest => .ok ([], ⟨rest, by simp⟩)
  | .key :: rest => do
    let (k, ⟨mid, _⟩) ← nodeOrEmpty endsFlowKey .inFlow rest
    let (v, ⟨last, _⟩) ← valueOrEmpty endsFlowValue .inFlow mid
    let (pairs, ⟨after, _⟩) ← flowPairsAfter last
    return ((k, v) :: pairs, ⟨after, by simp only [List.length_cons]; omega⟩)
  | ts => do
    let (k, ⟨mid, _⟩) ← node .inFlow ts
    let (pairs, ⟨after, _⟩) ← flowPairsAfter mid
    return ((k, empty) :: pairs, ⟨after, by omega⟩)
termination_by (ts.length, 4)

/-- Reads the pairs of a mapping in braces that follow a pair. -/
def flowPairsAfter (ts : List Token) : Except Error (List (Tree × Tree) × Behind ts) :=
  match ts with
  | .closeBrace :: rest => .ok ([], ⟨rest, by simp⟩)
  | .comma :: rest => do
    let (pairs, ⟨after, _⟩) ← flowPairs rest
    return (pairs, ⟨after, by simp only [List.length_cons]; omega⟩)
  | _ => .error (.malformed .unclosedCollection)
termination_by (ts.length, 0)

end

end Tree

/-! ## Documents -/

/-- A document as it is written: the handles that its directives define, and its node. -/
structure Document where
  handles : List (String × String) := []
  root : Tree

namespace Document

/-- The handles that need no directive. -/
def knownHandles : List (String × String) := [("!", "!"), ("!!", "tag:yaml.org,2002:")]

/-- Reads the directives in front of a document. -/
def directives (versioned : Bool) (handles : List (String × String)) :
    List Token → Except Error (List (String × String) × List Token)
  | .directive (.version major) :: rest =>
    if versioned then .error (.malformed .repeatedDirective)
    else if major ≠ 1 then .error (.malformed .badVersion)
    else directives true handles rest
  | .directive (.tag handle start) :: rest =>
    if (handles.lookup handle).isSome then .error (.malformed .repeatedDirective)
    else directives versioned (handles ++ [(handle, start)]) rest
  | .directive .other :: rest => directives versioned handles rest
  | ts => .ok (handles, ts)

/-- Whether a token stands between documents. -/
def isBetween : Token → Bool
  | .directive _ | .documentStart | .documentEnd => true
  | _ => false

/-- Reads the only document of a list of tokens, if there is one. -/
def ofTokens (ts : List Token) : Except Error (Option Document) := do
  match ts with
  | [] => return none
  | .directive _ :: _ | .documentStart :: _ =>
    let (handles, ts) ← directives false [] ts
    match ts with
    | .documentStart :: ts =>
      if ts = [] || ts.head?.any isBetween then finish handles .empty ts
      else
        let (root, ⟨after, _⟩) ← Tree.node .inBlock ts
        finish handles root after
    | _ => throw (.malformed .missingDocumentStart)
  | ts =>
    let (root, ⟨after, _⟩) ← Tree.node .inBlock ts
    finish [] root after
where
  /-- Nothing may follow a document but its end. -/
  finish (handles : List (String × String)) (root : Tree) (after : List Token) :
      Except Error (Option Document) :=
    if after.all (· = .documentEnd) then .ok (some ⟨handles, root⟩)
    else .error (.malformed .secondDocument)

end Document

end TypeWire.Yaml
