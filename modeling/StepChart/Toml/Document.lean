import StepChart.Toml.Scalar

/-!
# Documents of TOML

A document is a list of statements, one to a line: a key with a value, or a header that opens a
table or an element of an array of tables. `parse?` reads the statements and carries them out one
after the other.
-/

namespace StepChart.Toml

/-! ## Blanks and comments -/

/-- Passes over blanks on a line. -/
def skipSpaces (cs : List Char) : List Char :=
  cs.dropWhile fun c => c == ' ' || c == '\t'

/-- Passes over blanks, line ends and comments, starting inside a comment or not. -/
def skipLinesFrom (comment : Bool) : List Char → List Char
  | [] => []
  | c :: rest =>
    if c = '\n' then skipLinesFrom false rest
    else if comment then if isPlain c || c == '\r' then skipLinesFrom true rest else c :: rest
    else if c = ' ' ∨ c = '\t' ∨ c = '\r' then skipLinesFrom false rest
    else if c = '#' then skipLinesFrom true rest
    else c :: rest
termination_by structural cs => cs

/-- Passes over blanks, line ends and comments. -/
def skipLines (cs : List Char) : List Char :=
  skipLinesFrom false cs

/-- What follows the end of a line, before which only blanks and a comment may stand. -/
def endLine (cs : List Char) : Option (List Char) :=
  let rest := match skipSpaces cs with
    | '#' :: comment => comment.dropWhile isPlain
    | rest => rest
  match rest with
  | [] => some []
  | '\n' :: rest => some rest
  | '\r' :: '\n' :: rest => some rest
  | _ => none

/-- Every carriage return stands before a line end. -/
def returnsEndLines : List Char → Bool
  | [] => true
  | '\r' :: rest => rest.head? == some '\n' && returnsEndLines rest
  | _ :: rest => returnsEndLines rest

/-! ## Keys and values -/

/-- Characters of keys without quotes. -/
def isBareKey (c : Char) : Bool :=
  c.isAlphanum || c == '_' || c == '-'

/-- One part of a key. -/
def keyPart : Scan String := fun cs =>
  match cs.takeWhile isBareKey with
  | [] => shortText cs
  | name => some (String.ofList name, cs.dropWhile isBareKey)

/-- A key of at most `count` parts with dots between them. -/
def keyWithin : (count : Nat) → Scan (List String)
  | 0, _ => none
  | count + 1, cs =>
    (keyPart cs).bind fun (part, rest) =>
      match skipSpaces rest with
      | '.' :: rest => (keyWithin count (skipSpaces rest)).map fun (parts, rest) => (part :: parts, rest)
      | rest => some ([part], rest)

/-- How many parts a key may have. -/
def partLimit : Nat := 80

/-- A key, with the blanks around it. -/
def key : Scan (List String) := fun cs =>
  keyWithin partLimit (skipSpaces cs)

/-- At most `count` items with commas between them, up to the mark `close`. A comma may stand after
the last item. -/
def itemsWithin {α : Type} (item : Scan α) (close : Char) : (count : Nat) → Scan (List α)
  | 0, _ => none
  | count + 1, cs =>
    match skipLines cs with
    | [] => none
    | c :: rest =>
      if c = close then some ([], rest)
      else
        (item (c :: rest)).bind fun (first, rest) =>
          match skipLines rest with
          | [] => none
          | c :: rest =>
            if c = close then some ([first], rest)
            else if c = ',' then
              (itemsWithin item close count rest).map fun (items, rest) => (first :: items, rest)
            else none

/-- Items with commas between them, up to the mark `close`. -/
def items {α : Type} (item : Scan α) (close : Char) : Scan (List α) := fun cs =>
  itemsWithin item close (cs.length + 1) cs

/-- A key with its value. -/
def entry (value : Scan Value) : Scan (List String × Value) := fun cs =>
  (key cs).bind fun (key, rest) =>
    match rest with
    | '=' :: rest => (value (skipSpaces rest)).map fun (value, rest) => ((key, value), rest)
    | _ => none

/-- The table of some entries in braces. -/
def closedTable? (entries : List (List String × Value)) : Option Value :=
  (entries.foldlM (fun table entry => insert entry.2 entry.1 table) []).map (.table .closed)

/-- A value in which brackets and braces are nested at most `depth` deep. -/
def valueWithin : (depth : Nat) → Scan Value
  | 0, cs => match cs with
    | '"' :: _ | '\'' :: _ => (anyText cs).map fun (text, rest) => (.text text, rest)
    | _ => bareValue cs
  | depth + 1, cs => match cs with
    | '"' :: _ | '\'' :: _ => (anyText cs).map fun (text, rest) => (.text text, rest)
    | '[' :: rest => (items (valueWithin depth) ']' rest).map fun (items, rest) => (.array items, rest)
    | '\x7b' :: rest =>
      (items (entry (valueWithin depth)) '\x7d' rest).bind fun (entries, rest) =>
        (closedTable? entries).map fun table => (table, rest)
    | _ => bareValue cs

/-- How deep brackets and braces may be nested. -/
def depthLimit : Nat := 80

/-- A value. -/
def value : Scan Value := valueWithin depthLimit

/-! ## Statements -/

/-- A statement of a document. -/
inductive Statement where
  | entry (key : List String) (value : Value)
  | table (key : List String)
  | element (key : List String)
deriving Inhabited

/-- A statement, up to the end of its line. -/
def statement : Scan Statement
  | '[' :: '[' :: rest =>
    (key rest).bind fun (key, rest) =>
      match rest with
      | ']' :: ']' :: rest => some (.element key, rest)
      | _ => none
  | '[' :: rest =>
    (key rest).bind fun (key, rest) =>
      match rest with
      | ']' :: rest => some (.table key, rest)
      | _ => none
  | cs => (entry value cs).map fun ((key, value), rest) => (.entry key value, rest)

/-- At most `count` statements. -/
def statementsWithin : (count : Nat) → List Char → Option (List Statement)
  | 0, _ => none
  | count + 1, cs =>
    match skipLines cs with
    | [] => some []
    | cs =>
      (statement cs).bind fun (first, rest) =>
        (endLine rest).bind fun rest => (statementsWithin count rest).map (first :: ·)

/-- The statements of a document; a mark of the byte order may stand before them. -/
def statements? (source : String) : Option (List Statement) :=
  let cs := match source.toList with
    | '\ufeff' :: cs => cs
    | cs => cs
  if returnsEndLines cs then statementsWithin (cs.length + 1) cs else none

/-- What is defined so far, and the header of the table that is open. -/
structure Document where
  entries : Entries := []
  header : List String := []
deriving Inhabited

/-- Carries out a statement. -/
def Document.add (document : Document) : Statement → Option Document
  | .entry key value =>
    (insertUnder document.header key value document.entries).map fun entries => { document with entries }
  | .table key => (openTable key document.entries).map fun entries => ⟨entries, key⟩
  | .element key => (openElement key document.entries).map fun entries => ⟨entries, key⟩

/-- The entries of a document. -/
def parse? (source : String) : Option Entries :=
  (statements? source).bind fun statements =>
    (statements.foldlM Document.add ({} : Document)).map (·.entries)

end StepChart.Toml
