import StepChart.Proofs.Syntax.Samples
import StepChart.Proofs.Trace.TwoRuns

/-!
# Sibling branches

Only one branch of a statement runs, so what is written in one must not show in another. For the branches of an `if` and
the clauses of a `switch` nothing does, and nothing shows after the statement (`branches_apart`). Clauses of a `select`
share their defaults: each begins with the default migration that the clauses before it leave behind, which is all that
shows of them (`select_clauses_share_migration`).
-/

namespace StepChart

open Syntax

/-! ## Replacing a branch -/

/-- The clauses of a `switch`, each with its alternatives and its body. -/
def caseClauses (clauses : List (List Expr × List Stmt)) : List Stmt :=
  clauses.map fun clause => .caseClause clause.1 clause.2

/-- One branch of a statement is replaced by another one. The place is that of the branch inside the statement. -/
inductive BranchReplaced : (place : List Nat) → (first second : Stmt) → Prop
  | body (cond : Expr) (body other : List Stmt) (alternative : Option Stmt) :
      BranchReplaced [0] (.ifElse cond body alternative) (.ifElse cond other alternative)
  | alternative (cond : Expr) (body : List Stmt) (alternative other : Option Stmt) :
      BranchReplaced [1] (.ifElse cond body alternative) (.ifElse cond body other)
  | switch (before after : List (List Expr × List Stmt)) (clause other : List Expr × List Stmt) :
      BranchReplaced [0, before.length] (.switch (caseClauses (before ++ clause :: after)))
        (.switch (caseClauses (before ++ other :: after)))
  | typeSwitch (before after : List (List Expr × List Stmt)) (clause other : List Expr × List Stmt) :
      BranchReplaced [0, before.length] (.typeSwitch (caseClauses (before ++ clause :: after)))
        (.typeSwitch (caseClauses (before ++ other :: after)))

section Exits

variable {like : Defaults → Defaults → Prop} {signature : Signature} {guard : Option Guard} {standing : Standing}

theorem afterAll_caseClauses (clauses : List (List Expr × List Stmt)) : standing.afterAll (caseClauses clauses) = standing := by
  induction clauses with
  | nil => rfl
  | cons clause clauses ih => exact ih

/-- An `if` leaves nothing behind, and neither does a `switch`. -/
theorem BranchReplaced.after {place : List Nat} {first second : Stmt} (replaced : BranchReplaced place first second) :
    standing.after first = standing ∧ standing.after second = standing := by
  cases replaced with
  | body | alternative => exact ⟨rfl, rfl⟩
  | switch | typeSwitch => simp [Standing.after, afterAll_caseClauses]

theorem BranchReplaced.leaves {place : List Nat} {first second : Stmt} (replaced : BranchReplaced place first second) :
    first.leaves = false ∧ second.leaves = false := by
  cases replaced <;> exact ⟨rfl, rfl⟩

/-- Exits of a list with one clause replaced, if the statement has its returns in it. -/
theorem differAt_clause (stays : Stays like) (before after : List Stmt) {first second : Stmt}
    (firstStays : first.leaves = false) (secondStays : second.leaves = false)
    (alike : ((standing.afterAll before).after first).Like like ((standing.afterAll before).after second)) :
    DifferAt like [before.length] (exitsAt signature guard standing (before ++ first :: after))
      (exitsAt signature guard standing (before ++ second :: after)) := by
  refine DifferAt.inList stays before after firstStays secondStays alike (DifferAt.whole ?_ ?_)
  all_goals
    intro entry member
    obtain ⟨index, rest, same, bound⟩ := place_of_mem_exitsAt _ _ _ member
    obtain rfl : index = 0 := by simpa using bound
    rw [same]
    exact List.prefix_append [0] rest

/-- The exits of a statement that has its returns in one list. -/
theorem exitsAt_of_list {stmt : Stmt} {list : List Stmt} (returns : stmt.returns = (returnsIn list).map (.inside [] none)) :
    exitsAt signature guard standing [stmt] = (exitsAt signature guard standing list).map (Prod.map (enter 0) id) := by
  rw [exitsAt_singleton signature guard standing returns, exitsAt_inside]
  simp

theorem exitsAt_ifElse (cond : Expr) (body : List Stmt) (alternative : Option Stmt) :
    exitsAt signature guard standing [.ifElse cond body alternative] =
      (exitsAt signature (some ⟨[cond], false⟩) standing body).map (Prod.map (enter 0) id) ++
        (exitsAt signature (some ⟨[cond], true⟩) standing alternative.toList).map (Prod.map (enter 1) id) := by
  have returns : (Stmt.ifElse cond body alternative).returns =
      (returnsIn body).map (.inside [] (some ⟨[cond], false⟩)) ++
        (returnsIn alternative.toList).map (.inside [] (some ⟨[cond], true⟩)) := by
    cases alternative <;> simp [Stmt.returns, returnsIn]
  rw [exitsAt_singleton signature guard standing returns, List.filterMap_append, exitsAt_inside, exitsAt_inside]
  rfl

/-- An exit inside a branch of a statement is inside the place of the branch, and of no other. -/
theorem mem_branch_iff {branch other : Nat} {exits : List (List Nat × Exit)} {entry : List Nat × Exit}
    (member : entry ∈ exits.map (Prod.map (enter other) id)) : [0, branch] <+: entry.1 ↔ branch = other := by
  obtain ⟨inner, -, rfl⟩ := List.mem_map.1 member
  simp [enter, List.cons_prefix_cons]

/-- Exits of a statement with one branch replaced. -/
theorem BranchReplaced.differAt (stays : Stays like) {place : List Nat} {first second : Stmt}
    (replaced : BranchReplaced place first second) :
    DifferAt like (0 :: place) (exitsAt signature guard standing [first]) (exitsAt signature guard standing [second]) := by
  cases replaced with
  | body cond body other alternative =>
    rw [exitsAt_ifElse, exitsAt_ifElse]
    refine (DifferAt.whole ?_ ?_).append_right ?_ (map_alike _ (exitsAt_like _ _ stays (.refl stays standing) _))
    · exact fun entry member => (mem_branch_iff member).2 rfl
    · exact fun entry member => (mem_branch_iff member).2 rfl
    · exact fun entry member inBody => absurd ((mem_branch_iff member).1 inBody) (by decide)
  | alternative cond body alternative other =>
    rw [exitsAt_ifElse, exitsAt_ifElse]
    refine DifferAt.append_left ?_ (DifferAt.whole ?_ ?_)
    · exact fun entry member inAlternative => absurd ((mem_branch_iff member).1 inAlternative) (by decide)
    · exact fun entry member => (mem_branch_iff member).2 rfl
    · exact fun entry member => (mem_branch_iff member).2 rfl
  | switch before after clause other | typeSwitch before after clause other =>
    rw [exitsAt_of_list rfl, exitsAt_of_list rfl]
    have clauses : DifferAt like [(caseClauses before).length]
        (exitsAt signature guard standing (caseClauses before ++ .caseClause clause.1 clause.2 :: caseClauses after))
        (exitsAt signature guard standing (caseClauses before ++ .caseClause other.1 other.2 :: caseClauses after)) :=
      differAt_clause stays _ _ rfl rfl (.refl stays _)
    simpa [caseClauses] using clauses.entered 0

end Exits

/-! ## A step for examples -/

/-- A step `wait` of a machine `s`. -/
def waitSignature : Signature :=
  { receiverType := "Waiter", receiverName := some "s", name := "wait", kind := .execution, contextArg := "ctx",
    updateIndex := 1 }

/-- A step of the machine. -/
def ownStep (name : String) : Expr := Sample.qualified "s" name

/-- The destinations and migrations of moves. -/
def leadsTo (accounts : List (List Nat × List Move × Nat)) : List (String × String) :=
  accounts.flatMap fun account => account.2.1.map fun move => (move.transition.destination, move.transition.migration)

/-! ## Branches of `if` and `switch` -/

section Branches

variable (framework : String) (signature : Signature) (pre post : List Stmt)

/-- **Branches are kept apart.** If one branch of an `if` or one clause of a `switch` is replaced by another one that gives
rise to as many inner steps, the exits outside it, in the other branches and after the statement, hand over the same moves
from the same places. -/
theorem branches_apart {place : List Nat} {first second : Stmt} (replaced : BranchReplaced place first second)
    (steps : synthesizedAt (pre.length :: place) (trail framework signature (pre ++ first :: post)) =
      synthesizedAt (pre.length :: place) (trail framework signature (pre ++ second :: post))) :
    outside (pre.length :: place) (trail framework signature (pre ++ first :: post)) =
        outside (pre.length :: place) (trail framework signature (pre ++ second :: post)) ∧
      ∀ body, (trace framework signature body).moves = (trail framework signature body).flatMap Handed.moves := by
  refine ⟨?_, fun body => (trace_eq_trail framework signature body).1⟩
  refine Tracing.outside_hand ⟨framework, signature, _⟩ _ 0 ?_ steps
  refine DifferAt.inList stays_sameMigration pre post replaced.leaves.1 replaced.leaves.2 ?_
    (replaced.differAt stays_sameMigration)
  rw [replaced.after.1, replaced.after.2]
  exact .refl stays_sameMigration _

/-- A branch may bind a name of the outer block anew and set a default migration: the other branch, and what follows, go
where the outer block says. -/
theorem branches_apart_alias :
    let bound (step : String) : Stmt := .assign [Sample.ident "next"] [Sample.onContext "Jump" [ownStep step]]
    let goes : Stmt := .ret [Sample.ident "next"]
    let branching (branch : List Stmt) : Stmt := .ifElse (Sample.ident "ready") branch (some (.block [goes]))
    let binding := branching [bound "left", .expr (Sample.onContext "SetDefaultMigration" [ownStep "migrate"]), goes]
    let stopping := branching [.ret [Sample.onContext "Stop" []]]
    leadsTo (outside [1, 0] (trail "smachine" waitSignature [bound "last", binding, goes])) =
        [("s.last", ""), ("s.last", "")] ∧
      outside [1, 0] (trail "smachine" waitSignature [bound "last", binding, goes]) =
        outside [1, 0] (trail "smachine" waitSignature [bound "last", stopping, goes]) := by
  intro bound goes branching binding stopping
  refine ⟨by decide +kernel, ?_⟩
  exact (branches_apart "smachine" waitSignature [bound "last"] [goes] (.body _ _ _ _) (by decide +kernel)).1

end Branches

/-! ## Clauses of `select` -/

/-- The clauses of a `select`, each with its communication and its body. -/
def commClauses (clauses : List (Option Stmt × List Stmt)) : List Stmt :=
  clauses.map fun clause => .commClause clause.1 clause.2

/-- A body with a `select` in it. -/
def selecting (pre : List Stmt) (clauses : List (Option Stmt × List Stmt)) (post : List Stmt) : List Stmt :=
  pre ++ .select (commClauses clauses) :: post

/-- What an exit returns, and under which guard. -/
def Exit.returned (exit : Exit) : Update × Option Guard := (exit.update, exit.guard)

/-- What the exits outside a place return, and under which guard. -/
def returnedOutside (place : List Nat) (handed : List Handed) : List (List Nat × Update × Option Guard) :=
  ((handed.map Handed.located).filter fun entry => !place.isPrefixOf entry.1).map (Prod.map id Exit.returned)

section Returned

variable {like : Defaults → Defaults → Prop} {place : List Nat}

theorem map_returned_alike {first second : List (List Nat × Exit)} (alike : List.Forall₂ (SameExit like) first second) :
    first.map (Prod.map id Exit.returned) = second.map (Prod.map id Exit.returned) := by
  induction alike with
  | nil => rfl
  | cons same rest ih =>
    rw [List.map_cons, List.map_cons, ih]
    simp only [Prod.map, id, Exit.returned, same.1, same.2.update, same.2.guard]

/-- Exits that differ inside a place return the same outside it. -/
theorem DifferAt.returnedOutside_hand (tracing other : Tracing) {first second : List (List Nat × Exit)}
    (differ : DifferAt like place first second) :
    returnedOutside place (tracing.hand 0 first) = returnedOutside place (other.hand 0 second) := by
  obtain @⟨before, inside, others, after, later, -, allInside, othersInside, notAfter, alike⟩ := differ
  have none : ∀ {exits : List (List Nat × Exit)}, (∀ entry ∈ exits, place <+: entry.1) →
      exits.filter (fun entry => !place.isPrefixOf entry.1) = [] :=
    fun within => List.filter_eq_nil_iff.2 fun entry member => by simpa using within entry member
  have all : ∀ {exits : List (List Nat × Exit)}, (∀ entry ∈ exits, ¬ place <+: entry.1) →
      exits.filter (fun entry => !place.isPrefixOf entry.1) = exits :=
    fun without => List.filter_eq_self.2 fun entry member => by
      simpa [← List.isPrefixOf_iff_prefix] using without entry member
  unfold returnedOutside
  rw [Tracing.map_located_hand, Tracing.map_located_hand]
  simp only [List.filter_append, List.map_append]
  rw [none allInside, none othersInside, all notAfter, all (forall_place_alike (¬ place <+: ·) alike notAfter),
    map_returned_alike alike]

end Returned

section Standings

variable {standing : Standing}

theorem afterAll_append {before : List Stmt} (stays : before.any Stmt.leaves = false) (rest : List Stmt) :
    standing.afterAll (before ++ rest) = (standing.afterAll before).afterAll rest := by
  induction before generalizing standing with
  | nil => rfl
  | cons first before ih =>
    simp only [List.any_cons, Bool.or_eq_false_iff] at stays
    rw [List.cons_append, Standing.afterAll, Standing.afterAll, stays.1]
    exact ih stays.2

theorem names_after_commClause (comm : Option Stmt) (body : List Stmt) :
    (standing.after (.commClause comm body)).names = standing.names := by
  cases comm with
  | none => rfl
  | some comm =>
    rw [Standing.after]
    split <;> rfl

theorem any_leaves_commClauses (clauses : List (Option Stmt × List Stmt)) :
    (commClauses clauses).any Stmt.leaves = false := by
  simp [commClauses, Stmt.leaves]

end Standings

section Select

variable {like : Defaults → Defaults → Prop}

/-- The defaults that a clause leaves behind. -/
def Standing.leftBy (standing : Standing) (clause : Option Stmt × List Stmt) : Defaults :=
  (standing.after (.commClause clause.1 clause.2)).defaults

theorem commClauses_append (before after : List (Option Stmt × List Stmt)) (clause : Option Stmt × List Stmt) :
    commClauses (before ++ clause :: after) = commClauses before ++ .commClause clause.1 clause.2 :: commClauses after := by
  simp [commClauses]

/-- Exits of a body with one clause of a `select` replaced. -/
theorem differAt_select (stays : Stays like) (signature : Signature) (pre post : List Stmt)
    (before after : List (Option Stmt × List Stmt)) {clause other : Option Stmt × List Stmt} {standing start : Standing}
    (begins : (start.afterAll pre).afterAll (commClauses before) = standing)
    (alike : like (standing.leftBy clause) (standing.leftBy other)) :
    DifferAt like [pre.length, 0, before.length]
      (exitsAt signature none start (selecting pre (before ++ clause :: after) post))
      (exitsAt signature none start (selecting pre (before ++ other :: after) post)) := by
  have behind : (standing.after (.commClause clause.1 clause.2)).Like like (standing.after (.commClause other.1 other.2)) :=
    ⟨by rw [names_after_commClause, names_after_commClause], alike⟩
  subst begins
  have length : (commClauses before).length = before.length := List.length_map _
  refine DifferAt.inList stays pre post rfl rfl ⟨rfl, ?_⟩ ?_
  · simp only [Standing.after, commClauses_append, afterAll_append (any_leaves_commClauses before)]
    exact (behind.afterAll stays (commClauses after)).defaults
  · rw [exitsAt_of_list rfl, exitsAt_of_list rfl, commClauses_append, commClauses_append, ← length]
    exact (differAt_clause stays _ _ rfl rfl behind).entered 0

/-- A `select` begins with the exits of its first clauses, whatever clauses follow. -/
theorem exitsAt_selecting_begins (signature : Signature) (start : Standing) (pre post : List Stmt)
    (before after : List (Option Stmt × List Stmt)) :
    exitsAt signature none start (selecting pre before []) <+:
      exitsAt signature none start (selecting pre (before ++ after) post) := by
  have clauses : ∀ standing : Standing, exitsAt signature none standing (commClauses before) <+:
      exitsAt signature none standing (commClauses (before ++ after)) := by
    intro standing
    rw [commClauses, commClauses, List.map_append, exitsAt_append]
    exact List.prefix_append _ _
  unfold selecting
  rw [exitsAt_append, exitsAt_append signature none start pre, List.prefix_append_right_inj]
  cases pre.any Stmt.leaves with
  | true => exact List.prefix_refl _
  | false =>
    refine List.IsPrefix.map _ ?_
    rw [exitsAt_cons signature none _ _ post, exitsAt_of_list rfl, exitsAt_of_list rfl]
    exact ((clauses _).map _).trans (List.prefix_append _ _)

/-- Exits at the beginning hand over the same whatever exits follow. -/
theorem Tracing.hand_begins (tracing : Tracing) (other : Tracer) {exits more : List (List Nat × Exit)} (begins : exits <+: more) :
    (tracing.hand 0 exits).map Handed.account <+:
      (Tracing.hand { tracing with tracer := other } 0 more).map Handed.account := by
  obtain ⟨rest, rfl⟩ := begins
  rw [hand_append, List.map_append, ← tracing.map_account_hand other 0
    (List.forall₂_same.2 fun entry (_ : entry ∈ exits) => ⟨rfl, rfl, rfl, rfl⟩)]
  exact List.prefix_append _ _

/-- **Clauses of a `select` share their default migration, and nothing else.** If one clause is replaced by another one,
the exits outside it return the same under the same guards, and those before it hand over the same. All of them hand
over the same if the two clauses leave the same default migration behind and give rise to as many inner steps. -/
theorem select_clauses_share_migration (framework : String) (signature : Signature) (pre post : List Stmt)
    (before after : List (Option Stmt × List Stmt)) (clause other : Option Stmt × List Stmt) :
    let place := [pre.length, 0, before.length]
    let first := trail framework signature (selecting pre (before ++ clause :: after) post)
    let second := trail framework signature (selecting pre (before ++ other :: after) post)
    let standing := ((Standing.start signature.contextArg).afterAll pre).afterAll (commClauses before)
    returnedOutside place first = returnedOutside place second ∧
      (∀ whole ∈ [first, second],
        (trail framework signature (selecting pre before [])).map Handed.account <+: whole.map Handed.account) ∧
      ((standing.leftBy clause).migration = (standing.leftBy other).migration →
        synthesizedAt place first = synthesizedAt place second → outside place first = outside place second) := by
  intro place first second standing
  refine ⟨?_, ?_, ?_⟩
  · have anyDefaults : Stays fun _ _ => True := ⟨fun _ => trivial, fun _ _ _ => trivial⟩
    exact (differAt_select anyDefaults signature pre post before after rfl trivial).returnedOutside_hand _ _
  · have begins : ∀ clauses, (trail framework signature (selecting pre before [])).map Handed.account <+:
        (trail framework signature (selecting pre (before ++ clauses) post)).map Handed.account := fun clauses =>
      Tracing.hand_begins ⟨framework, signature, _⟩ _ (exitsAt_selecting_begins signature _ pre post before clauses)
    simp only [List.forall_mem_cons, List.not_mem_nil]
    exact ⟨begins _, begins _, by simp⟩
  · intro sameMigration steps
    exact Tracing.outside_hand ⟨framework, signature, _⟩ _ 0
      (differAt_select stays_sameMigration signature pre post before after rfl sameMigration) steps

/-- A clause of a `select` that goes on with a step of the machine, perhaps after it has set a default migration. -/
def receiving (channel step : String) (handler : Option String) : Option Stmt × List Stmt :=
  (some (.expr (.unary default .receive (Sample.ident channel))),
    (handler.map fun name => Stmt.expr (Sample.onContext "SetDefaultMigration" [ownStep name])).toList ++
      [.ret [Sample.onContext "Jump" [ownStep step]]])

/-- Two clauses that set the same default migration show alike in the clause after them. -/
theorem select_clauses_share_migration_same :
    let first := trail "smachine" waitSignature
      (selecting [] [receiving "a" "left" (some "migrate"), receiving "b" "right" none] [])
    let second := trail "smachine" waitSignature
      (selecting [] [receiving "a" "other" (some "migrate"), receiving "b" "right" none] [])
    leadsTo (outside [0, 0, 0] first) = [("s.right", "s.migrate")] ∧ outside [0, 0, 0] first = outside [0, 0, 0] second := by
  refine ⟨by decide +kernel, ?_⟩
  exact (select_clauses_share_migration "smachine" waitSignature [] [] [] [receiving "b" "right" none]
    (receiving "a" "left" (some "migrate")) (receiving "a" "other" (some "migrate"))).2.2 rfl (by decide +kernel)

/-- A default migration that is set in one clause of a `select` goes into the transitions of the next clause, which are
others without it. -/
theorem select_clauses_not_apart :
    let first := trail "smachine" waitSignature
      (selecting [] [receiving "a" "left" (some "migrate"), receiving "b" "right" none] [])
    let second := trail "smachine" waitSignature
      (selecting [] [receiving "a" "left" none, receiving "b" "right" none] [])
    synthesizedAt [0, 0, 0] first = synthesizedAt [0, 0, 0] second ∧ outside [0, 0, 0] first ≠ outside [0, 0, 0] second ∧
      leadsTo (outside [0, 0, 0] first) = [("s.right", "s.migrate")] ∧
      leadsTo (outside [0, 0, 0] second) = [("s.right", "")] := by
  intro first second
  have leaks : leadsTo (outside [0, 0, 0] first) = [("s.right", "s.migrate")] := by decide +kernel
  have without : leadsTo (outside [0, 0, 0] second) = [("s.right", "")] := by decide +kernel
  refine ⟨by decide +kernel, fun same => ?_, leaks, without⟩
  rw [same, without] at leaks
  exact absurd leaks (by decide)

end Select

end StepChart
