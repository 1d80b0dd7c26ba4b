import Mathlib.Data.List.Nodup
import StepChart.Proofs.Trace.Environment

/-!
# Returns of a body

The returns of a body by their places, without following it: each place is given by the statements before
it, list by list from the outside in, and by the branches around it. Whether a place is reached, which
guard holds there, and which names and defaults are in force are then read off the place. The reference
list of exits, `returnsIn` and `Site.exitFrom`, is made of these.
-/

namespace StepChart

open Syntax

/-- The statement leaves the list it stands in, behind labels or not. -/
def Syntax.Stmt.leaves : Stmt → Bool
  | .labeled _ inner => inner.leaves
  | .ret _ | .branch _ => true
  | _ => false

/-! ## Names and defaults in force -/

/-- The names and defaults in force at a place. -/
structure Standing where
  names : Environment
  defaults : Defaults := {}

namespace Standing

/-- What is in force at the beginning of a body. -/
def start (contextArg : String) : Standing := { names := .start contextArg }

/-- A call of the context with one argument may set a default. -/
def call (standing : Standing) (function : Expr) (args : List Expr) : Standing :=
  match standing.names.resolve function, args with
  | some chain, [arg] =>
    if chain.isDirect then { standing with defaults := standing.defaults.told chain.name arg } else standing
  | _, _ => standing

mutual

/-- What is in force after a statement. Names that are bound in a list inside it are forgotten; defaults
that are set there stay, unless the list is a branch. -/
def after (standing : Standing) : Stmt → Standing
  | .labeled _ inner => standing.after inner
  | .constDecl specs => { standing with names := standing.names.clear (specs.flatMap (·.names)) }
  | .typeDecl names => { standing with names := standing.names.clear names }
  | .varDecl specs => { standing with names := standing.names.declare specs }
  | .assign targets values => { standing with names := standing.names.assign (targets.map Scope.plainName?) values }
  | .expr (.call _ function args) => standing.call function args
  | .block body | .switch body | .typeSwitch body | .select body | .forLoop body | .range body
  | .commClause none body => { standing with defaults := (standing.afterAll body).defaults }
  | .commClause (some comm) body =>
    if comm.leaves then standing
    else { standing with defaults := ((standing.after comm).afterAll body).defaults }
  | _ => standing

/-- What is in force where a list of statements is left. -/
def afterAll (standing : Standing) : List Stmt → Standing
  | [] => standing
  | first :: rest => if first.leaves then standing else (standing.after first).afterAll rest

end

end Standing

/-! ## Places -/

/-- The place of a return in a list of statements: after some statements of the list, or inside the
statement after them, in a branch with a guard or in a list without one. -/
inductive Site where
  | here (before : List Stmt) (results : List Expr)
  | inside (before : List Stmt) (guard : Option Guard) (site : Site)

namespace Site

/-- The same place in a list with one more statement before it. -/
def after (first : Stmt) : Site → Site
  | here before results => here (first :: before) results
  | inside before guard site => inside (first :: before) guard site

/-- The statements before the place in the outermost list. -/
def before : Site → List Stmt
  | here before _ | inside before _ _ => before

/-- No statement before the place, in any of the lists around it, leaves its list. -/
def reached : Site → Bool
  | here before _ => before.all (!·.leaves)
  | inside before _ site => before.all (!·.leaves) && site.reached

/-- The guard of the innermost branch around the place that has one. -/
def guard? : Site → Option Guard
  | here _ _ => none
  | inside _ guard site => site.guard?.or guard

/-- What is in force at the place. -/
def standing (start : Standing) : Site → Standing
  | here before _ => start.afterAll before
  | inside before _ site => site.standing (start.afterAll before)

/-- What is returned. -/
def results : Site → List Expr
  | here _ results => results
  | inside _ _ site => site.results

end Site

mutual

/-- The returns in a statement, in the order in which they are written. -/
def Syntax.Stmt.returns : Stmt → List Site
  | .labeled _ inner => inner.returns
  | .ret results => [.here [] results]
  | .block body | .switch body | .typeSwitch body | .select body | .forLoop body | .range body
  | .commClause none body => (returnsIn body).map (.inside [] none)
  | .commClause (some comm) body => (comm.returns ++ (returnsIn body).map (Site.after comm)).map (.inside [] none)
  | .ifElse cond body none => (returnsIn body).map (.inside [] (some ⟨[cond], false⟩))
  | .ifElse cond body (some alternative) =>
    (returnsIn body).map (.inside [] (some ⟨[cond], false⟩)) ++
      alternative.returns.map (.inside [] (some ⟨[cond], true⟩))
  | .caseClause alternatives body =>
    (returnsIn body).map (.inside [] (if alternatives.isEmpty then none else some ⟨alternatives, false⟩))
  | _ => []

/-- The returns in a list of statements, in the order in which they are written. -/
def returnsIn : List Stmt → List Site
  | [] => []
  | first :: rest => first.returns ++ (returnsIn rest).map (Site.after first)

end

/-! ## No return stands twice -/

theorem Site.inside_injective (guard : Option Guard) : Function.Injective (Site.inside [] guard) := by
  intro site other same
  cases same
  rfl

theorem Site.after_injective (first : Stmt) : Function.Injective (Site.after first) := by
  intro site other same
  cases site <;> cases other <;> cases same <;> rfl

theorem Site.before_of_mem_inside {guard : Option Guard} {sites : List Site} {site : Site}
    (member : site ∈ sites.map (.inside [] guard)) : site.before = [] := by
  obtain ⟨inner, -, rfl⟩ := List.mem_map.1 member
  rfl

/-- A return in a statement has nothing before it in the list that the statement alone is. -/
theorem before_returns : ∀ (stmt : Stmt) {site : Site}, site ∈ stmt.returns → site.before = []
  | .labeled _ inner, _, member => before_returns inner member
  | .ret _, _, member => by
    rw [List.mem_singleton.1 member]
    rfl
  | .ifElse _ _ (some _), _, member => by
    rcases List.mem_append.1 member with body | alternative
    · exact Site.before_of_mem_inside body
    · exact Site.before_of_mem_inside alternative
  | .block _, _, member | .switch _, _, member | .typeSwitch _, _, member | .select _, _, member
  | .forLoop _, _, member | .range _, _, member | .commClause none _, _, member | .commClause (some _) _, _, member
  | .ifElse _ _ none, _, member | .caseClause _ _, _, member => Site.before_of_mem_inside member

theorem nodup_append_after (first : Stmt) {sites : List Site} (head : first.returns.Nodup) (tail : sites.Nodup) :
    (first.returns ++ sites.map (Site.after first)).Nodup := by
  refine List.Nodup.append head (tail.map (Site.after_injective first)) ?_
  intro site inFirst later
  obtain ⟨other, -, rfl⟩ := List.mem_map.1 later
  have nothing := before_returns first inFirst
  cases other <;> exact List.cons_ne_nil _ _ nothing

mutual

theorem nodup_returns : ∀ stmt : Stmt, stmt.returns.Nodup
  | .labeled _ inner => nodup_returns inner
  | .ret _ => List.nodup_singleton _
  | .commClause (some comm) body => by
    have list : (comm.returns ++ (returnsIn body).map (Site.after comm)).Nodup :=
      nodup_append_after comm (nodup_returns comm) (nodup_returnsIn body)
    exact list.map (Site.inside_injective none)
  | .ifElse cond body (some alternative) => by
    refine List.Nodup.append ((nodup_returnsIn body).map (Site.inside_injective _))
      ((nodup_returns alternative).map (Site.inside_injective _)) ?_
    intro site inBody inAlternative
    obtain ⟨first, -, rfl⟩ := List.mem_map.1 inBody
    obtain ⟨second, -, same⟩ := List.mem_map.1 inAlternative
    cases same
  | .block body | .switch body | .typeSwitch body | .select body | .forLoop body | .range body
  | .commClause none body | .ifElse _ body none | .caseClause _ body =>
    (nodup_returnsIn body).map (Site.inside_injective _)
  | .constDecl _ | .varDecl _ | .typeDecl _ | .expr _ | .assign _ _ | .branch _ | .defer _ | .go _ | .send _ _
  | .incDec _ | .empty => List.nodup_nil

/-- **Each return has a place of its own.** -/
theorem nodup_returnsIn : ∀ list : List Stmt, (returnsIn list).Nodup
  | [] => List.nodup_nil
  | first :: rest => nodup_append_after first (nodup_returns first) (nodup_returnsIn rest)

end

/-! ## Exits -/

namespace Environment

/-- What an expression hands back from a step of the given kind. A literal is a machine that is built in
place, where the kind of step returns one. -/
def update? (names : Environment) (kind : Kind) : Expr → Option Update
  | .composite _ type _ | .unary _ .address (.composite _ type _) =>
    if kind.hasContext ∧ ¬ kind.hasStateUpdate then some (.built type) else none
  | expr => (names.resolve expr).map .chain

/-- The update that a return hands back: its value at the place the signature says, or its first. -/
def returned? (names : Environment) (signature : Signature) (results : List Expr) : Option Update :=
  let value := if signature.updateIndex = 0 then results.head? else results[signature.updateIndex - 1]?
  value.bind (names.update? signature.kind)

end Environment

/-- The exit at a place, if it is reached and the update can be traced, in a list that stands in a branch
with `guard` and at whose beginning `start` is in force. -/
def Site.exitFrom (signature : Signature) (guard : Option Guard) (start : Standing) (site : Site) : Option Exit :=
  let standing := site.standing start
  if site.reached then
    (standing.names.returned? signature site.results).map fun update =>
      ⟨update, site.guard?.or guard, standing.defaults⟩
  else none

end StepChart
