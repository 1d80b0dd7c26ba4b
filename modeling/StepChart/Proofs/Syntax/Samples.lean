import StepChart.Analysis

/-!
# Steps by hand

Syntax trees of steps are built here for the inputs at which theorems are tried out. Nothing but their shape matters, so
they have no places in a source text.
-/

namespace StepChart.Sample

open Syntax

def ident (name : String) : Expr := .ident default name

/-- A name of a package. -/
def qualified (package name : String) : Expr := .selector default (ident package) name

/-- A call of the context of a step. -/
def onContext (operation : String) (args : List Expr) : Expr :=
  .call default (.selector default (ident "ctx") operation) args

/-- A machine that is built in place. -/
def newMachine (type : String) : Expr := .unary default .address (.composite default (some (ident type)) [])

/-- The context of a step. -/
def context (package type : String) : Field := .mk ["ctx"] (qualified package type) false

/-- What a step answers with. -/
def update (package : String) : Field := .mk [] (qualified package "StateUpdate") false

/-- A function literal that is a step. -/
def stepLiteral (package type : String) (body : List Stmt) : Expr :=
  .func default [context package type] [update package] body

/-- The declaration of a step. -/
def stepDecl (package receiver name type : String) (body : List Stmt) : FuncDecl where
  name := name
  receiver := some [.mk ["s"] (.star default (ident receiver)) false]
  params := [context package type]
  results := [update package]
  body := some body
  span := default

/-- A file that imports the framework under its own name. -/
def file (path : String) (decls : List FuncDecl) : SourceFile where
  path := path
  source := ""
  imports := [⟨none, defaultFramework⟩]
  decls := decls

end StepChart.Sample
