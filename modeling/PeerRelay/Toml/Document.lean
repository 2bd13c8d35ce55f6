import PeerRelay.Toml.Scanner

/-!
# TOML documents

Tables can come into being in three ways: by a header of their own, as a step on
the way to the table of another header, or by a dotted key. Dotted keys may
extend only tables that were not declared by a header, and a header may declare
only what is not there yet or was merely a step. Arrays and inline tables are
complete where they are written.

A table whose first key is `momentKey` is no table in the end but the date or time
that the string under the key names. What comes first is decided by the order of the
document, in which a table counts from its own header on.
-/

namespace PeerRelay.Toml

/-- How a table came into being. -/
inductive Origin where
  | declared
  | implied
  | dotted
  deriving DecidableEq, Repr

/-- What stands under a key while the document is being read. -/
inductive Node where
  | value (v : Value)
  | table (origin : Origin) (entries : List (String × Node))
  /-- The tables of an array written with double-bracket headers, oldest first. -/
  | tables (elements : List (List (String × Node)))

/-- The entries of a table in the making. -/
abbrev Entries := List (String × Node)

namespace Entries

def find? (entries : Entries) (key : String) : Option Node := entries.lookup key

/-- Puts a node under a key: over the one that stands there, or at the end. -/
def put (key : String) (node : Node) : Entries → Entries
  | [] => [(key, node)]
  | (k, n) :: rest => if k = key then (key, node) :: rest else (k, n) :: put key node rest

/-- Adds a value under a dotted key. The tables on the path must have been made
by steps or dotted keys, the last of them by a dotted key, and the key must be
free. -/
def addDotted (path : List String) (value : Value) (entries : Entries) : Option Entries :=
  go path true entries
where
  go : List String → Bool → Entries → Option Entries
    | [], _, _ => none
    | [key], mayHold, entries =>
      if mayHold && (find? entries key).isNone then some (entries ++ [(key, .value value)])
      else none
    | key :: path, _, entries =>
      match find? entries key with
      | none => do
        let inner ← go path true []
        return entries ++ [(key, .table .dotted inner)]
      | some (.value _) => none
      | some (.table .declared _) => none
      | some (.table origin inner) => do
        let inner ← go path (origin = .dotted) inner
        return put key (.table origin inner) entries
      | some (.tables elements) =>
        match elements.getLast? with
        | none => none
        | some last => do
          let last ← go path false last
          return put key (.tables (elements.dropLast ++ [last])) entries

/-- Changes the entries that a path of headers leads to. Missing tables on the way
are made; in an array of tables the way goes on in the last one. -/
def under (path : List String) (change : Entries → Option Entries) (entries : Entries) :
    Option Entries :=
  match path with
  | [] => change entries
  | key :: path =>
    match find? entries key with
    | none => do
      let inner ← under path change []
      return entries ++ [(key, .table .implied inner)]
    | some (.value _) => none
    | some (.table origin inner) => do
      let inner ← under path change inner
      return put key (.table origin inner) entries
    | some (.tables elements) =>
      match elements.getLast? with
      | none => none
      | some last => do
        let last ← under path change last
        return put key (.tables (elements.dropLast ++ [last])) entries

/-- Declares a table by its header. One that was a step so far takes its place anew,
at the end. -/
def declare (key : String) (entries : Entries) : Option Entries :=
  match find? entries key with
  | none => some (entries ++ [(key, .table .declared [])])
  | some (.table .implied inner) =>
    some (entries.filter (fun e => e.1 ≠ key) ++ [(key, .table .declared inner)])
  | some _ => none

/-- Begins the next table of an array of tables. -/
def append (key : String) (entries : Entries) : Option Entries :=
  match find? entries key with
  | none => some (entries ++ [(key, .tables [[]])])
  | some (.tables elements) => some (put key (.tables (elements ++ [[]])) entries)
  | some _ => none

end Entries

mutual

/-- The value of what stands under a key. -/
def Node.toValue : Node → Value
  | .value v => v
  | .table _ entries => .table (entriesToValues entries)
  | .tables elements => .array (elementsToValues elements)

/-- The values of the entries of a table. -/
def entriesToValues : List (String × Node) → List (String × Value)
  | [] => []
  | (key, node) :: rest => (key, node.toValue) :: entriesToValues rest

/-- The tables of an array of tables as values. -/
def elementsToValues : List (List (String × Node)) → List Value
  | [] => []
  | entries :: rest => .table (entriesToValues entries) :: elementsToValues rest

end

open Reader

/-- An array: values between commas, the last of which may have a comma too. -/
def arrayOf (value : Reader Value) : Reader Value := do
  char '['
  let elements ← maybe
    (separated (char ',') (do blankLines; let v ← value; blankLines; return v))
  let _ ← maybe (do guard elements.isSome; char ',')
  blankLines
  char ']'
  return .array (elements.getD [])

/-- A key and its value. -/
def keyValue (value : Reader Value) : Reader (List String × Value) := do
  let path ← key
  char '='
  spaces
  return (path, ← value)

/-- A table on one line, without a comma after its last entry. -/
def inlineTableOf (value : Reader Value) : Reader Value := do
  char '\x7b'
  let pairs ← maybe
    (separated (char ',') (do let p ← keyValue value; spaces; return p))
  spaces
  char '\x7d'
  let entries ← (pairs.getD []).foldlM
    (fun (entries : Entries) p => entries.addDotted p.1 p.2) ([] : Entries)
  return .table (entriesToValues entries)

/-- A value with so many levels of arrays and tables at most. -/
def valueUpTo : Nat → Reader Value
  | 0 => scalar
  | n + 1 => scalar <|> arrayOf (valueUpTo n) <|> inlineTableOf (valueUpTo n)

def value : Reader Value := valueUpTo (depthLimit - 1)

/-! ## Moments written as tables -/

/-- The key that makes a table stand for a moment. -/
def momentKey : String := "$__toml_private_datetime"

/-- Whether a table stands for a moment: when its first key is the one for that. What
comes after does not count. -/
def standsForMoment (entries : List (String × Value)) : Bool :=
  entries.head?.any (fun e => e.1 == momentKey)

/-- The moment that a table stands for, which a string under the key names. -/
def momentIn? : List (String × Value) → Option Moment
  | (_, .string text) :: _ => Moment.ofText? text
  | _ => none

mutual

/-- A value with the moments in place of the tables that stand for them. -/
def Value.settle : Value → Option Value
  | .array elements => (settleElements elements).map .array
  | .table entries =>
    if standsForMoment entries then (momentIn? entries).map .moment
    else (settleEntries entries).map .table
  | v => some v

/-- The elements of an array with the moments in place. -/
def settleElements : List Value → Option (List Value)
  | [] => some []
  | v :: rest => do return (← v.settle) :: (← settleElements rest)

/-- The entries of a table with the moments in place. -/
def settleEntries : List (String × Value) → Option (List (String × Value))
  | [] => some []
  | (key, v) :: rest => do return (key, ← v.settle) :: (← settleEntries rest)

end

/-! ## Statements -/

/-- One line, or one statement that spans lines. -/
inductive Statement where
  | pair (path : List String) (value : Value)
  | header (path : List String)
  | arrayHeader (path : List String)

def statement : Reader Statement :=
  (do
    literal ['[', '[']
    let path ← key
    literal [']', ']']
    lineEnd
    return .arrayHeader path) <|>
  (do
    char '['
    let path ← key
    char ']'
    lineEnd
    return .header path) <|>
  (do
    let (path, v) ← keyValue value
    lineEnd
    return .pair path v)

/-- Empty lines and comments, then a statement. -/
def statements : Reader (List Statement) := do
  let ss ← many (do blankLines; statement)
  blankLines
  let _ ← maybe comment
  return ss

/-- The table under construction and the headers that lead to the current part of it. -/
structure Builder where
  root : Entries := []
  path : List String := []

/-- Carries a statement out, unless a key is taken or a table closed. -/
def Builder.add (b : Builder) : Statement → Option Builder
  | .pair path v => do
    let root ← b.root.under b.path (·.addDotted path v)
    return { b with root }
  | .header path => do
    let name ← path.getLast?
    let root ← b.root.under path.dropLast (·.declare name)
    return { root, path }
  | .arrayHeader path => do
    let name ← path.getLast?
    let root ← b.root.under path.dropLast (·.append name)
    return { root, path }

/-- Reads a document, whose text may begin with a byte order mark. The document
itself never stands for a moment. -/
def parse (text : String) : Option (List (String × Value)) := do
  let cs := text.toList
  let cs := if cs.head? = some '\uFEFF' then cs.drop 1 else cs
  let ss ← statements.readAll? cs
  let b ← ss.foldlM Builder.add {}
  settleEntries (entriesToValues b.root)

end PeerRelay.Toml
