import StepChart.Grammar.Production

/-!
# Items

An item is a construct of which some parts have been read: what it is, how many parts were read, and
which parts are still to come. How the parts before looked is forgotten, so that operators of one
rank share their items. Items carry numbers in the order of the symbol that comes next.
-/

namespace StepChart.Grammar

/-- A construct that has been read in part; `rank` and `associativity` are those of the last part
read. -/
structure Item where
  head : Nat
  taken : Nat
  weight : Int
  rank : Int
  associativity : Option Associativity
  rest : List NumberedStep
deriving Repr, DecidableEq, Hashable, Inhabited

namespace Item

/-- The item of a production of which nothing was read. -/
def ofProduction (production : Production) : Item :=
  ⟨production.head, 0, production.weight, 0, none, production.steps⟩

/-- The number of the symbol that comes next. -/
def next? (item : Item) : Option Nat :=
  item.rest.head?.map (·.symbol)

/-- The item after one more part. -/
def advance (item : Item) : Item :=
  match item.rest with
  | [] => item
  | step :: rest => ⟨item.head, item.taken + 1, item.weight, step.rank, step.associativity, rest⟩

/-- The item and all that it becomes. -/
def advances (item : Item) : List Item :=
  (List.range (item.rest.length + 1)).map fun count => Nat.repeat advance count item

/-- The order in which constructs that end at one place are taken: by the number of their parts,
then by category. -/
def endsBefore (first second : Item) : Bool :=
  (compare first.taken second.taken).then ((compare first.head second.head).then
    (compare first.weight second.weight)) != .gt

end Item

/-- The items of a grammar by number. -/
structure Items where
  items : Array Item
  /-- The symbol that comes next. -/
  next : Array (Option Nat)
  /-- The item after that symbol. -/
  advanced : Array Nat
  /-- What may come after that symbol, if the item says so itself. -/
  after : Array (Option TerminalSet)
  numbers : Std.HashMap Item Nat

namespace Items

/-- The items of productions, given what each symbol can start with. -/
def of (productions : List Production) (starts : Array TerminalSet) : Items :=
  let known : Std.HashMap Item Unit := .ofList <| productions.flatMap fun production =>
    (Item.ofProduction production).advances.map (·, ())
  let key (item : Item) : Nat := match item.next? with
    | some symbol => symbol
    | none => starts.size
  let items := known.keysArray.qsort fun first second => key first < key second
  let numbers : Std.HashMap Item Nat := .ofList items.toList.zipIdx
  { items
    next := items.map (·.next?)
    advanced := items.map fun item => (numbers[item.advance]?).getD 0
    after := items.map fun item => (item.rest[1]?).map fun step => starts.getD step.symbol 0
    numbers }

/-- The item with a number. -/
def get (items : Items) (number : Nat) : Item :=
  items.items.getD number default

/-- The number of an item. -/
def number (items : Items) (item : Item) : Nat :=
  (items.numbers[item]?).getD 0

end Items

/-! ## What an item brings with it -/

/-- An item of which nothing was read, at a place where a construct may start. What may follow it is
`follow`, and, if it `inherits`, what may follow the construct. -/
structure Prospect where
  item : Nat
  follow : TerminalSet
  inherits : Bool
deriving Repr, Inhabited

/-- What is known of a category at a place where another construct may start. -/
structure Reach where
  reached : Bool := false
  follow : TerminalSet := 0
  inherits : Bool := false
deriving Repr, DecidableEq, Inhabited

/-- What both sides know together. -/
def Reach.join (first second : Reach) : Reach :=
  ⟨first.reached || second.reached, first.follow ||| second.follow, first.inherits || second.inherits⟩

/-- A category whose construct may start with one of another category. -/
structure Descent where
  outer : Nat
  inner : Nat
  /-- What may come after the inner construct, if the outer one goes on. -/
  after : Option TerminalSet
deriving Repr, Inhabited

/-- What a descent passes on. -/
def Descent.pass (descent : Descent) (outer : Reach) : Reach :=
  if outer.reached then
    match descent.after with
    | some follow => ⟨true, follow, false⟩
    | none => outer
  else {}

/-- The descents of productions. -/
def descents (terminalCount : Nat) (productions : List Production) (starts : Array TerminalSet) :
    List Descent :=
  productions.filterMap fun production =>
    match production.steps with
    | [] => none
    | first :: rest =>
      if first.symbol < terminalCount then none
      else some ⟨production.head, first.symbol, rest.head?.map fun step => starts.getD step.symbol 0⟩

/-- What is known of every symbol where a construct of the category `start` may start. -/
def reaches (size : Nat) (descents : List Descent) (start : Nat) : Array Reach := Id.run do
  let mut known := (Array.replicate size ({} : Reach)).setIfInBounds start ⟨true, 0, true⟩
  for _ in [0:size] do
    let next := descents.foldl (fun known descent =>
      let passed := descent.pass (known.getD descent.outer {})
      known.modify descent.inner (·.join passed)) known
    if next == known then break
    known := next
  return known

/-- The items that may start where a construct of the category `start` may start. -/
def prospectsAt (items : Items) (productions : List Production) (reaches : Array Reach) : Array Prospect :=
  (productions.filterMap fun production =>
    let reach := reaches.getD production.head {}
    if reach.reached then
      some ⟨items.number (.ofProduction production), reach.follow, reach.inherits⟩
    else none).toArray

end StepChart.Grammar
