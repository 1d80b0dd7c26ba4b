/-!
# Values and tables of TOML

A table remembers how it came to be, because that decides what may still be added to it: every key
is given a value once, and every table is opened once. `insert` adds a value under a key with dots,
`openTable` and `openElement` follow a header; each has no answer where the rule forbids it.
-/

namespace StepChart.Toml

/-- How a table came to be. -/
inductive Origin where
  /-- Named by a header on the way to a deeper table. -/
  | passed
  /-- Opened by a header of its own. -/
  | opened
  /-- Made by a key with dots. -/
  | dotted
  /-- Written out in braces. -/
  | closed
deriving Repr, DecidableEq, Inhabited

/-- A value. Of dates, times and fractions only the kind is kept. -/
inductive Value where
  | text (value : String)
  | integer (value : Int)
  | float
  | truth (value : Bool)
  | moment
  | array (items : List Value)
  | table (origin : Origin) (entries : List (String × Value))
  /-- An array whose elements are tables with headers of their own. -/
  | tables (elements : List (List (String × Value)))
deriving Inhabited

/-- The keys of a table with their values, in the order in which they were added. -/
abbrev Entries := List (String × Value)

/-- Gives a key a value, instead of any value before. -/
def put (key : String) (value : Value) : Entries → Entries
  | [] => [(key, value)]
  | entry :: rest => if entry.1 = key then (key, value) :: rest else entry :: put key value rest

/-- Changes the value of a key, which may not be there yet. -/
def update (key : String) (change : Option Value → Option Value) (entries : Entries) : Option Entries :=
  (change (entries.lookup key)).map (put key · entries)

/-- Changes the last item of a list that has one. -/
def changeLast {α : Type} (change : α → Option α) : List α → Option (List α)
  | [] => none
  | [last] => (change last).map ([·])
  | first :: rest => (changeLast change rest).map (first :: ·)

/-- Adds a value under a key of several parts. The parts before the last one name tables made by
such keys. -/
def insert (value : Value) : List String → Entries → Option Entries
  | [], _ => none
  | [key], entries => update key (fun | none => some value | some _ => none) entries
  | key :: next :: rest, entries =>
    let deep := insert value (next :: rest)
    update key (fun
      | none => (deep []).map (.table .dotted)
      | some (.table .dotted inner) => (deep inner).map (.table .dotted)
      | some (.table .passed inner) => if rest.isEmpty then none else (deep inner).map (.table .passed)
      | some (.tables elements) => if rest.isEmpty then none else (changeLast deep elements).map .tables
      | some _ => none) entries

/-- Follows the key of a header and changes what its last part names. Tables on the way are made if
they are not there; of several elements the last one is entered. -/
def follow (change : Option Value → Option Value) : List String → Entries → Option Entries
  | [], _ => none
  | [key], entries => update key change entries
  | key :: next :: rest, entries =>
    let deep := follow change (next :: rest)
    update key (fun
      | none => (deep []).map (.table .passed)
      | some (.table .closed _) => none
      | some (.table origin inner) => (deep inner).map (.table origin)
      | some (.tables elements) => (changeLast deep elements).map .tables
      | some _ => none) entries

/-- Opens a table that has not been opened yet. -/
def openTable : List String → Entries → Option Entries :=
  follow fun
    | none => some (.table .opened [])
    | some (.table .passed inner) => some (.table .opened inner)
    | some _ => none

/-- Opens a further element of an array of tables. -/
def openElement : List String → Entries → Option Entries :=
  follow fun
    | none => some (.tables [[]])
    | some (.tables elements) => some (.tables (elements ++ [[]]))
    | some _ => none

/-- Adds a value under a key in the table that the header `header` opened; the empty header is that
of the document. -/
def insertUnder (header key : List String) (value : Value) (entries : Entries) : Option Entries :=
  if header.isEmpty then insert value key entries
  else
    follow (fun
      | some (.table origin inner) => (insert value key inner).map (.table origin)
      | some (.tables elements) => (changeLast (insert value key) elements).map .tables
      | _ => none) header entries

end StepChart.Toml
