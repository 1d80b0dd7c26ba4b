import StepChart.Trace.Wording

/-!
# Finding and tracing the steps of a file

A function is a step if its signature says so: it answers with a state update of the framework, or
it is one of the two functions that name the first step of a machine. `analyze` finds the steps of a
file and traces them.
-/

namespace StepChart

open Syntax Text

/-- The import path of the framework when no other is asked for. -/
def defaultFramework : String := "github.com/insolar/assured-ledger/ledger-core/conveyor/smachine"

/-- What the analysis of a file depends on besides the file. -/
structure AnalysisOptions where
  /-- The import path of the framework. -/
  framework : String := defaultFramework
  /-- The room for the label of a guard, in bytes. -/
  room : Nat := Guard.defaultRoom
deriving Repr, DecidableEq, Inhabited

/-- The qualifier under which a file refers to a package, if it can: the local name of the
package's first import, or the last part of its path. A dot import needs no qualifier; a blank one
gives none. -/
def qualifierOf? (imports : List Import) (package : String) : Option String :=
  match imports.find? (·.path == package) with
  | none => none
  | some imported =>
    match imported.name with
    | some "_" => none
    | some "." => some ""
    | some name => some name
    | none => some (String.ofList (afterLast '/' package.toList))

/-! ## Signatures -/

/-- The field is one value of the framework's type `typeName`. -/
def isOfType (framework typeName : String) (field : Field) : Bool :=
  !field.variadic && field.type.qualifiedName == (framework, typeName)

/-- The place, counted from one, and the name of the only result of the framework's type `typeName`,
given the place of the result before these and what was found there. There is no answer if there are
two such results, or if names share one. With `alone` there may be no other result. -/
def findResultFrom? (framework typeName : String) (alone : Bool) :
    (place : Nat) → (found : Option (Nat × Option String)) → List Field → Option (Nat × Option String)
  | _, found, [] => found
  | place, found, field :: fields =>
    let matching := isOfType framework typeName field
    match field.names with
    | _ :: _ :: _ =>
      if alone || matching then none
      else findResultFrom? framework typeName alone (place + field.names.length) found fields
    | names =>
      if alone && decide (0 < place) then none
      else if matching then
        if found.isSome then none
        else findResultFrom? framework typeName alone (place + 1) (some (place + 1, names.head?)) fields
      else findResultFrom? framework typeName alone (place + 1) found fields

/-- The place, counted from one, and the name of the only result of the framework's type `typeName`.
-/
def findResult? (framework typeName : String) (alone : Bool) (results : List Field) :
    Option (Nat × Option String) :=
  findResultFrom? framework typeName alone 0 none results

/-- The name and the type of a receiver; a pointer to a named type is needed. A function has
neither. -/
def receiverOf? : Option (List Field) → Option (Option String × String)
  | none => some (none, "")
  | some [field] =>
    match field.names, field.type.pointedName with
    | _ :: _ :: _, _ => none
    | names, ("", type) => if type.isEmpty then none else some (names.head?, type)
    | _, _ => none
  | some _ => none

/-- The functions that name the first step of a machine. -/
def isInitializerName (name : String) : Bool :=
  name == "GetInitStateFor" || name == "GetSubroutineInitState"

/-- The signature of a step, if the declaration is one. -/
def recognize? (framework : String) (decl : FuncDecl) : Option Signature :=
  match findResult? framework "StateUpdate" false decl.results with
  | some (updateIndex, updateArg) =>
    (receiverOf? decl.receiver).map fun (receiverName, receiverType) =>
      let (kind, contextArg) := (findContext? framework decl.params).getD (.plain, "")
      { receiverType, receiverName, name := decl.name, kind, contextArg, updateArg, updateIndex }
  | none =>
    if isInitializerName decl.name && (findResult? framework "InitFunc" true decl.results).isSome then
      (receiverOf? decl.receiver).map fun (receiverName, receiverType) =>
        { receiverType, receiverName, name := decl.name, kind := .initializer }
    else none

/-! ## Files -/

/-- The outline of a declared step. -/
def outlineOf? (framework : String) (decl : FuncDecl) : Option Outline :=
  (recognize? framework decl).map fun signature =>
    match decl.body with
    | some body => trace framework signature body
    | none => { signature }

/-- The outlines of the steps of a file, in the order of their declarations. -/
def outlines (package : String) (file : SourceFile) : List Outline :=
  match qualifierOf? file.imports package with
  | none => []
  | some framework => file.decls.filterMap (outlineOf? framework)

/-- The steps of a file, in the order of their declarations. -/
def analyze (options : AnalysisOptions) (file : SourceFile) : Except LabelError (List Step) :=
  Outline.toSteps (.ofSource file.source options.room) (outlines options.framework file)

end StepChart
