import StepChart.Grammar.Table
import StepChart.Reading.Stack
import StepChart.Reading.Tape

/-!
# Reading by a table

A reader follows all readings of a text that its table allows. Each has a head, the top of its stack.
In a round every head takes the next terminal; then heads that meet become one, heads that cannot go
on give way to those that can, and the heaviest come first. Of the readings that reach the end of the
text the heaviest is the meaning; of equally heavy ones it is the first in the order of trees.
-/

namespace StepChart.Reading

open Grammar

/-- What a head is doing. -/
inductive Status where
  | active | stuck | ended
deriving Repr, DecidableEq, Inhabited

/-- The top of a stack that is being read with. -/
structure Head where
  node : Nat
  status : Status := .active
deriving Repr, DecidableEq, Inhabited

/-- The readings of a text so far. -/
structure Reader (κ : Type) where
  stack : Stack κ
  heads : List Head
  /-- The best reading of the whole text. -/
  best : Option (Entry κ) := none
deriving Inhabited

namespace Reader

variable {κ : Type} [DecidableEq κ]

/-- The head with a number. -/
def head (reader : Reader κ) (number : Nat) : Head :=
  reader.heads.getD number default

/-- The node of a head. -/
def top (reader : Reader κ) (number : Nat) : Node κ :=
  reader.stack.node (reader.head number).node

/-- Replaces a head. -/
def setHead (reader : Reader κ) (number : Nat) (head : Head) : Reader κ :=
  { reader with heads := reader.heads.set number head }

/-- Both heads are active, and they meet. -/
def canJoin (stack : Stack κ) (first second : Head) : Bool :=
  first.status == .active && second.status == .active && stack.meets first.node second.node

/-- The second of two readings of one construct is better. -/
def surpassed (table : Table κ) (first second : Entry κ) : Bool :=
  first.weight < second.weight
    || (first.weight == second.weight && first.tree.compare table.order second.tree == .gt)

/-! ## Constructs -/

/-- The construct that entries make. -/
def construct (category : κ) (place : Nat) (entries : List (Entry κ)) : Entry κ :=
  { tree := .build category place (entries.map (·.tree))
    weight := entries.foldl (fun weight entry => weight + entry.weight) 0 }

/-- Adds a construct above a node to those already made; of two above one node the better stays. -/
def addConstruct (table : Table κ) (made : Nat × Entry κ) :
    List (Nat × Entry κ) → List (Nat × Entry κ)
  | [] => [made]
  | (base, entry) :: rest =>
    if base = made.1 then (base, if surpassed table entry made.2 then made.2 else entry) :: rest
    else (base, entry) :: addConstruct table made rest

/-- The constructs that the last `count` entries below a node make, each with the node it stands
on. -/
def constructs (table : Table κ) (stack : Stack κ) (node : Nat) (category : κ) (count place : Nat) :
    List (Nat × Entry κ) :=
  (stack.paths node count).foldl
    (fun made path => addConstruct table (path.1, construct category place path.2) made) []

/-- Puts a construct on a node. The new head joins one that it meets, other than the head that the
construct was made for; if there is none it comes last. -/
def land (reader : Reader κ) (number base : Nat) (entry : Entry κ) (state position : Nat) : Reader κ :=
  match reader with
  | ⟨stack, heads, best⟩ =>
    let stack := stack.pushEntry base entry state position
    let new : Head := { node := stack.size - 1 }
    match heads.zipIdx.find? fun (head, index) => index != number && canJoin stack head new with
    | some (head, _) => ⟨stack.join head.node new.node, heads, best⟩
    | none => ⟨stack, heads ++ [new], best⟩

/-- Ends a construct at a head; tells the first of the heads that are new. -/
def reduce (table : Table κ) (tape : Tape) (reader : Reader κ) (number : Nat) (category : κ) (count : Nat)
    (weight : Int) : Reader κ × Option Nat :=
  let node := (reader.head number).node
  let position := (reader.stack.node node).position
  let made := constructs table reader.stack node category count (tape.place position)
  let before := reader.heads.length
  let reader := made.foldl (fun reader (base, entry) =>
    match table.goto (reader.stack.node base).state category with
    | some state => reader.land number base { entry with weight := entry.weight + weight } state position
    | none => reader) reader
  (reader, if before < reader.heads.length then some before else none)

/-! ## Heads -/

/-- A head takes a terminal. -/
def shift (reader : Reader κ) (number : Nat) (terminal : Terminal) (ahead : Lookahead) (state : Nat) :
    Reader κ :=
  match reader with
  | ⟨stack, heads, best⟩ =>
    let entry : Entry κ := { tree := .leaf terminal ahead.text ahead.span }
    let stack := stack.pushEntry (heads.getD number default).node entry state ahead.next
    ⟨stack, heads.set number { node := stack.size - 1 }, best⟩

/-- A head has read the whole text. -/
def accept (table : Table κ) (reader : Reader κ) (number : Nat) : Reader κ :=
  let node := (reader.head number).node
  let readings := (reader.stack.paths node 1).flatMap (·.2)
  let best := readings.foldl (fun best entry =>
    match best with
    | none => some entry
    | some known => some (if surpassed table known entry then entry else known)) reader.best
  { reader.setHead number ⟨node, .ended⟩ with best }

/-- What came of the actions on a terminal. -/
inductive Outcome where
  /-- The head took the terminal or ended. -/
  | done
  /-- Constructs were ended; the first of the new heads goes on. -/
  | reduced (head : Nat)
  /-- There was nothing to do. -/
  | idle
deriving Repr, DecidableEq, Inhabited

/-- Does what there is to do on a terminal. -/
def act (table : Table κ) (tape : Tape) (number : Nat) (terminal : Terminal) (ahead : Lookahead) :
    List (Action κ) → Reader κ → Outcome → Reader κ × Outcome
  | [], reader, outcome => (reader, outcome)
  | .shift state :: _, reader, _ => (reader.shift number terminal ahead state, .done)
  | .accept :: _, reader, _ => (accept table reader number, .done)
  | .reduce category count weight :: rest, reader, outcome =>
    let (reader, new) := reduce table tape reader number category count weight
    act table tape number terminal ahead rest reader (new.elim outcome .reduced)

/-- Ends constructs at a head until it takes a terminal. A word that has no meaning of its own there
is a name. -/
def follow (table : Table κ) (tape : Tape) (number : Nat) (ahead : Lookahead) :
    (fuel : Nat) → Terminal → Reader κ → Reader κ
  | 0, _, reader => reader.setHead number ⟨(reader.head number).node, .stuck⟩
  | fuel + 1, terminal, reader =>
    let state := (reader.top number).state
    let (reader, outcome) := act table tape number terminal ahead (table.actions state terminal) reader .idle
    match outcome with
    | .done => reader
    | .reduced other =>
      let head := reader.head other
      let reader := { reader with heads := (reader.heads.eraseIdx other).set number head }
      follow table tape number ahead fuel terminal reader
    | .idle =>
      match terminal with
      | .word _ => follow table tape number ahead fuel .name reader
      | _ => reader.setHead number ⟨(reader.head number).node, .stuck⟩

/-- A head goes on to the next terminal. -/
def advance (table : Table κ) (tape : Tape) (fuel number : Nat) (reader : Reader κ) : Reader κ :=
  let top := reader.top number
  match tape.look (fun terminal => !(table.actions top.state terminal).isEmpty) top.position with
  | some ahead => follow table tape number ahead fuel ahead.terminal reader
  | none => reader.setHead number ⟨(reader.head number).node, .stuck⟩

/-- A head goes on until it is as far as the others, which have reached `reached`; the first one
goes beyond. -/
def catchUp (table : Table κ) (tape : Tape) (number : Nat) :
    (fuel : Nat) → Reader κ → (reached : Nat) → Reader κ × Nat
  | 0, reader, reached => (reader, reached)
  | fuel + 1, reader, reached =>
    if (reader.head number).status = .active then
      let reader := advance table tape (fuel + 1) number reader
      let position := (reader.top number).position
      if reached < position || (0 < number && position == reached) then (reader, position)
      else catchUp table tape number fuel reader reached
    else (reader, reached)

/-! ## Rounds -/

/-- All heads from one on go on. -/
def sweep (table : Table κ) (tape : Tape) :
    (fuel number : Nat) → Reader κ → (reached : Nat) → Reader κ × Nat
  | 0, _, reader, reached => (reader, reached)
  | fuel + 1, number, reader, reached =>
    if number < reader.heads.length then
      let (reader, reached) := catchUp table tape number (fuel + 1) reader reached
      sweep table tape fuel (number + 1) reader reached
    else (reader, reached)

/-- Puts a head among others: it joins one that it meets, and a heavier one comes before a lighter.
Heads that are stuck do not stay with heads that are not. -/
def settle (stack : Stack κ) (candidate : Head) : List Head → Stack κ × List Head
  | [] => (stack, [candidate])
  | head :: rest =>
    if head.status ≠ .stuck ∧ candidate.status = .stuck then (stack, head :: rest)
    else if head.status = .stuck ∧ candidate.status ≠ .stuck then settle stack candidate rest
    else if canJoin stack head candidate then (stack.join head.node candidate.node, head :: rest)
    else if (stack.node head.node).weight < (stack.node candidate.node).weight then
      let (stack, rest) := settle stack head rest
      (stack, candidate :: rest)
    else
      let (stack, rest) := settle stack candidate rest
      (stack, head :: rest)

/-- The number of readings that are followed. -/
def mostHeads : Nat := 6

/-- Brings the heads in order after a round. -/
def condense (reader : Reader κ) : Reader κ :=
  match reader with
  | ⟨stack, heads, best⟩ =>
    let (stack, heads) := (heads.filter (·.status ≠ .ended)).foldl
      (fun (stack, heads) head => settle stack head heads) (stack, [])
    ⟨stack, heads.take mostHeads, best⟩

/-- Reads on in rounds; fails with the position that was reached. -/
def rounds (table : Table κ) (tape : Tape) (limit : Nat) :
    (fuel : Nat) → Reader κ → (reached : Nat) → Except Nat (Tree κ)
  | 0, _, reached => .error reached
  | fuel + 1, reader, reached =>
    let (reader, reached) := sweep table tape limit 0 reader reached
    let reader := reader.condense
    match reader.best with
    | some entry => .ok entry.tree
    | none =>
      if reader.heads.all (·.status = .stuck) then .error reached
      else rounds table tape limit fuel reader reached

end Reader

/-- Reads a text by a table, or fails with the byte up to which it can be read. -/
def read {κ : Type} [DecidableEq κ] (table : Table κ) (tape : Tape) : Except Nat (Tree κ) :=
  let limit := (tape.length + 1) * (table.size + 1)
  let start : Reader κ := { stack := #[{ state := table.start, position := 0 }], heads := [{ node := 0 }] }
  (Reader.rounds table tape limit limit start 0).mapError tape.place

end StepChart.Reading
