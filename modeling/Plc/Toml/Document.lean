import Plc.Toml.Node
import Plc.Toml.Quoted
import Plc.Toml.Scalar

/-!
# Reading TOML documents

A document is a sequence of lines, each a table header or a key with its value, with comments and
blank lines between. Arrays and inline tables may run over several lines and nest up to a fixed
depth.

Main statement: `Toml.read?` gives the entries of the root table, or nothing if the text is not a
document.
-/

namespace Plc.Toml

/-! ## §1 Blanks, comments and line ends -/

/-- The text without the blanks at its start. -/
def skipBlanks (cs : List Char) : List Char := cs.dropWhile isLineBlank

/-- The text without blanks, line ends and comments at its start. A comment stops at a character that
it may not hold. -/
def skipFiller (inComment : Bool) : List Char → List Char
  | [] => []
  | '\n' :: rest => skipFiller false rest
  | '\r' :: '\n' :: rest => skipFiller false rest
  | c :: rest =>
    if inComment then
      if isLineChar c then skipFiller true rest else c :: rest
    else if isLineBlank c then skipFiller false rest
    else if c = '#' then skipFiller true rest
    else c :: rest

/-- The text after the end of a line, before which only blanks and a comment may stand. -/
def afterLine? (cs : List Char) : Option (List Char) :=
  let rest :=
    match skipBlanks cs with
    | '#' :: comment => comment.dropWhile isLineChar
    | rest => rest
  if rest.isEmpty then some [] else afterNewline? rest

/-! ## §2 Keys -/

/-- A character of a bare key. -/
def isBareChar (c : Char) : Bool := c.isAlphanum || c = '_' || c = '-'

/-- One part of a key, and the rest. -/
def keyPart? (cs : List Char) : Option (Key × List Char) :=
  match shortString? cs with
  | some part => some part
  | none =>
    if (cs.takeWhile isBareChar).isEmpty then none
    else some (cs.takeWhile isBareChar, cs.dropWhile isBareChar)

/-- The parts of a dotted key, and the rest without blanks at its start. The fuel bounds the number
of parts. -/
def keyParts? : Nat → List Char → Option (List Key × List Char)
  | 0, _ => none
  | fuel + 1, cs => do
    let (part, rest) ← keyPart? (skipBlanks cs)
    match skipBlanks rest with
    | '.' :: rest =>
      let (parts, rest) ← keyParts? fuel rest
      return (part :: parts, rest)
    | rest => return ([part], rest)

/-- A dotted key as a path and a last part, and the rest. -/
def keyPath? (cs : List Char) : Option (List Key × Key × List Char) := do
  let (parts, rest) ← keyParts? (cs.length + 1) cs
  return (parts.dropLast, ← parts.getLast?, rest)

/-! ## §3 Values -/

/-- A reader of something at the front of a text. -/
abbrev Reader (α : Type) := List Char → Option (α × List Char)

/-- A character of a word. -/
def isWordChar (c : Char) : Bool :=
  c.isAlphanum || c = '_' || c = '+' || c = '-' || c = '.' || c = ':'

/-- A word, and the rest. A date takes a time after one space with it. -/
def word (cs : List Char) : List Char × List Char :=
  let first := cs.takeWhile isWordChar
  let rest := cs.dropWhile isWordChar
  match rest with
  | ' ' :: c :: _ =>
    if afterDate? first = some [] ∧ c.isDigit then
      (first ++ ' ' :: rest.tail.takeWhile isWordChar, rest.tail.dropWhile isWordChar)
    else
      (first, rest)
  | _ => (first, rest)

/-- The value that a word stands for. -/
def ofWord? (cs : List Char) : Option Node :=
  if cs = "true".toList then some (.boolean true)
  else if cs = "false".toList then some (.boolean false)
  else
    match integer? cs with
    | some n => some (.ofInteger n)
    | none =>
      match real? cs with
      | some x => some (.ofReal (cs.contains 'f') x)
      | none => if isMoment cs then some (.moment cs) else none

/-- The rest of an array, after its bracket or a comma. The fuel bounds the number of elements. -/
def arrayRest? (item : Reader Node) : Nat → List Node → Reader Node
  | 0, _, _ => none
  | fuel + 1, items, cs =>
    match skipFiller false cs with
    | ']' :: rest => some (.array false items.reverse, rest)
    | cs => do
      let (node, rest) ← item cs
      match skipFiller false rest with
      | ']' :: rest => return (.array false (node :: items).reverse, rest)
      | ',' :: rest => arrayRest? item fuel (node :: items) rest
      | _ => none

/-- A dotted key with its value. -/
def pair? (item : Reader Node) (cs : List Char) : Option ((List Key × Key × Node) × List Char) := do
  let (path, key, rest) ← keyPath? cs
  let (node, rest) ← item (skipBlanks (← skip? '=' rest))
  return ((path, key, node), rest)

/-- The rest of an inline table, after its brace or a comma. The fuel bounds the number of keys. -/
def inlineRest? (item : Reader Node) : Nat → Entries → Reader Node
  | 0, _, _ => none
  | fuel + 1, entries, cs =>
    match skipFiller false cs with
    | '}' :: rest => some (.table .inline entries, rest)
    | cs => do
      let ((path, key, node), rest) ← pair? item cs
      let entries ← Node.define? path key node .inline entries
      match skipFiller false rest with
      | '}' :: rest => return (.table .inline entries, rest)
      | ',' :: rest => inlineRest? item fuel entries rest
      | _ => none

/-- How deep arrays and inline tables may nest. -/
def depthLimit : Nat := 80

/-- A value. The first argument is how much deeper it may nest. -/
def value? : Nat → Reader Node
  | depth, cs =>
    match cs with
    | '"' :: _ | '\'' :: _ => (string? cs).map fun (text, rest) => (.text text, rest)
    | '[' :: rest =>
      match depth with
      | 0 => none
      | depth + 1 => arrayRest? (value? depth) (rest.length + 1) [] rest
    | '{' :: rest =>
      match depth with
      | 0 => none
      | depth + 1 => inlineRest? (value? depth) (rest.length + 1) [] rest
    | _ =>
      let (letters, rest) := word cs
      (ofWord? letters).map fun node => (node, rest)

/-! ## §4 Lines -/

/-- What has been read: the path of the last header, and the root table so far. -/
structure Reading where
  header : List Key := []
  root : Entries := []

/-- The header of an array of tables, after its brackets. -/
def Reading.arrayHeader? (r : Reading) (cs : List Char) : Option (Reading × List Char) := do
  let (path, key, rest) ← keyPath? cs
  let rest ← afterLine? (← skip? ']' (← skip? ']' rest))
  return (⟨path ++ [key], ← Node.openArrayElement? path key r.root⟩, rest)

/-- The header of a table, after its bracket. -/
def Reading.tableHeader? (r : Reading) (cs : List Char) : Option (Reading × List Char) := do
  let (path, key, rest) ← keyPath? cs
  let rest ← afterLine? (← skip? ']' rest)
  return (⟨path ++ [key], ← Node.openTable? path key r.root⟩, rest)

/-- A line with a key and its value. -/
def Reading.pair? (r : Reading) (cs : List Char) : Option (Reading × List Char) := do
  let ((path, key, node), rest) ← Toml.pair? (value? depthLimit) cs
  let rest ← afterLine? rest
  return (⟨r.header, ← Node.defineUnder? r.header path key node r.root⟩, rest)

/-- The lines of a document. The fuel bounds their number. -/
def readLines? : Nat → Reading → List Char → Option Entries
  | 0, _, _ => none
  | fuel + 1, r, cs =>
    match skipFiller false cs with
    | [] => some r.root
    | '[' :: '[' :: rest => do
      let (r, rest) ← r.arrayHeader? rest
      readLines? fuel r rest
    | '[' :: rest => do
      let (r, rest) ← r.tableHeader? rest
      readLines? fuel r rest
    | cs => do
      let (r, rest) ← r.pair? cs
      readLines? fuel r rest

/-- The entries of the root table of a document. A byte order mark may come first. -/
def read? (cs : List Char) : Option Entries :=
  let body := match cs with
    | '\uFEFF' :: rest => rest
    | cs => cs
  readLines? (body.length + 1) {} body

end Plc.Toml
