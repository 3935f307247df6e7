import Plc.Binary.Basic

/-!
# TOML documents

The tree that a TOML document denotes, and how keys and table headers build it up. A table remembers
how it came to be, since that decides what may still be added to it.

Main statements:

* `Origin.enter?` says which tables a header or a dotted key may lead into, and what they become.
* `Node.define?` adds a key under a dotted path; it may open new tables and add to those that have no
  header, but to no others.
* `Node.openTable?` and `Node.openArrayElement?` are the two kinds of header.
-/

namespace Plc.Toml

/-- A key: the characters between its quotes or the bare word. -/
abbrev Key := List Char

/-- How a table came to be. -/
inductive Origin where
  /-- It has a header of its own. -/
  | header
  /-- It lies on the path of another table's header. -/
  | implied
  /-- It lies on the path of a dotted key, whether or not a header implied it before. -/
  | dotted
  /-- It was written in braces and is complete. -/
  | inline
  deriving DecidableEq, Inhabited, Repr

/-- What a table becomes when the path of a header (`implied`) or of a dotted key (`dotted`) leads
into it. No path leads into an inline table, and no dotted key into a table with a header. A dotted
key takes over the tables that headers only implied, so that none of them can get a header later. -/
def Origin.enter? : Origin → Origin → Option Origin
  | _, .inline => none
  | .dotted, .header => none
  | .dotted, _ => some .dotted
  | _, origin => some origin

/-- A part of a document. -/
inductive Node where
  | text (cs : List Char)
  | integer (n : Int)
  | boolean (on : Bool)
  | real (x : Double)
  /-- A number that is well written but too large to have a value. -/
  | oversize
  /-- A date, a time or both, as written. -/
  | moment (cs : List Char)
  /-- An array; `ofTables` if its elements come from headers. -/
  | array (ofTables : Bool) (items : List Node)
  | table (origin : Origin) (entries : List (Key × Node))
  deriving Inhabited

/-- The entries of a table, in order. -/
abbrev Entries := List (Key × Node)

namespace Node

/-! ## §1 Numbers -/

/-- An integer has a value if some 128-bit word holds it. -/
def ofInteger (n : Int) : Node := if -2 ^ 127 ≤ n ∧ n < 2 ^ 128 then .integer n else .oversize

/-- A floating-point number has a value if it is finite or was written as an infinity. -/
def ofReal (writtenInfinite : Bool) (x : Double) : Node :=
  match x with
  | .infinite negative => if writtenInfinite then .real (.infinite negative) else .oversize
  | x => .real x

mutual

/-- Every number in the node has a value. -/
def isValued : Node → Bool
  | .oversize => false
  | .array _ items => areValued items
  | .table _ entries => entriesValued entries
  | .text _ | .integer _ | .boolean _ | .real _ | .moment _ => true

/-- Every number in the nodes has a value. -/
def areValued : List Node → Bool
  | [] => true
  | node :: rest => node.isValued && areValued rest

/-- Every number in the entries has a value. -/
def entriesValued : List (Key × Node) → Bool
  | [] => true
  | (_, node) :: rest => node.isValued && entriesValued rest

end

/-! ## §2 Finding and changing tables -/

/-- The node under a key. -/
def find? (key : Key) (entries : Entries) : Option Node := entries.lookup key

/-- Puts a node under a key, in the place of the one that is there or at the end. -/
def put (key : Key) (node : Node) : Entries → Entries
  | [] => [(key, node)]
  | entry :: rest => if entry.1 = key then (key, node) :: rest else entry :: put key node rest

/-- The tables along the path are entered, or opened where there are none, `edit` is applied to the
last one, and the changes are put back. An array of tables lets any path into its last element. -/
def descend? (opened : Origin) (edit : Origin → Entries → Option Entries) :
    List Key → Origin → Entries → Option Entries
  | [], origin, entries => edit origin entries
  | key :: path, _, entries =>
    match find? key entries with
    | none => do
      let inner ← descend? opened edit path opened []
      return put key (.table opened inner) entries
    | some (.table origin inner) => do
      let origin ← opened.enter? origin
      let inner ← descend? opened edit path origin inner
      return put key (.table origin inner) entries
    | some (.array true items) =>
      match items.reverse with
      | .table origin inner :: earlier => do
        let inner ← descend? opened edit path origin inner
        return put key (.array true (.table origin inner :: earlier).reverse) entries
      | _ => none
    | some _ => none

/-! ## §3 Additions -/

/-- Adds a node under a new key. -/
def addNew? (key : Key) (node : Node) (entries : Entries) : Option Entries :=
  match find? key entries with
  | none => some (put key node entries)
  | some _ => none

/-- Adds a node under a dotted key. The table that receives it must be the one at hand or one that
dotted keys opened or took over: no dotted key adds to an element of an array of tables. -/
def define? (path : List Key) (key : Key) (node : Node) (origin : Origin) (entries : Entries) :
    Option Entries :=
  descend? .dotted
    (fun reached inner =>
      if path.isEmpty || reached = .dotted then addNew? key node inner else none)
    path origin entries

/-- Opens the table of a header: a new one, or one that only other headers have implied. -/
def openTable? (path : List Key) (key : Key) (root : Entries) : Option Entries :=
  descend? .implied
    (fun _ inner =>
      match find? key inner with
      | none => some (put key (.table .header []) inner)
      | some (.table .implied entries) => some (put key (.table .header entries) inner)
      | some _ => none)
    path .header root

/-- Opens the next element of an array of tables. -/
def openArrayElement? (path : List Key) (key : Key) (root : Entries) : Option Entries :=
  descend? .implied
    (fun _ inner =>
      match find? key inner with
      | none => some (put key (.array true [.table .header []]) inner)
      | some (.array true items) =>
        some (put key (.array true (items ++ [.table .header []])) inner)
      | some _ => none)
    path .header root

/-- Adds a node under a dotted key in the table of the last header. -/
def defineUnder? (header path : List Key) (key : Key) (node : Node) (root : Entries) :
    Option Entries :=
  descend? .implied (define? path key node) header .header root

end Node

end Plc.Toml
