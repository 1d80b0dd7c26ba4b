import Mathlib.Data.List.Forall2
import StepChart.Proofs.Trace.Trail

/-!
# Bodies that differ in one place

Two bodies that differ in one place have the same exits before the place, and after it exits that return the same under
the same guards, with defaults that may differ as far as those do that the two bodies leave the place with
(`DifferAt.inList`). If a default migration is not among what differs, and the place gives rise to as many inner steps in
both, all exits elsewhere hand over the same (`outside_hand`).
-/

namespace StepChart

open Syntax

/-! ## Standings with other defaults -/

/-- A relation between defaults that stays when both are told the same. -/
structure Stays (like : Defaults → Defaults → Prop) : Prop where
  refl : ∀ defaults, like defaults defaults
  told : ∀ {first second : Defaults}, like first second → ∀ name arg, like (first.told name arg) (second.told name arg)

/-- The same names, and related defaults. -/
structure Standing.Like (like : Defaults → Defaults → Prop) (first second : Standing) : Prop where
  names : first.names = second.names
  defaults : like first.defaults second.defaults

/-- The same update under the same guard, and related defaults. -/
structure Exit.Like (like : Defaults → Defaults → Prop) (first second : Exit) : Prop where
  update : first.update = second.update
  guard : first.guard = second.guard
  defaults : like first.defaults second.defaults

variable {like : Defaults → Defaults → Prop}

namespace Standing.Like

variable {first second : Standing}

theorem refl (stays : Stays like) (standing : Standing) : standing.Like like standing := ⟨rfl, stays.refl _⟩

theorem call (stays : Stays like) (alike : first.Like like second) (function : Expr) (args : List Expr) :
    (first.call function args).Like like (second.call function args) := by
  unfold Standing.call
  rw [alike.names]
  split
  · split
    · exact ⟨rfl, stays.told alike.defaults _ _⟩
    · exact ⟨alike.names, alike.defaults⟩
  · exact ⟨alike.names, alike.defaults⟩

mutual

/-- Defaults before a statement show in nothing but the defaults after it. -/
theorem after (stays : Stays like) : (stmt : Stmt) → {first second : Standing} → first.Like like second →
    (first.after stmt).Like like (second.after stmt)
  | .labeled _ inner, _, _, alike => by
    rw [Standing.after, Standing.after]
    exact after stays inner alike
  | .constDecl _, _, _, alike | .typeDecl _, _, _, alike | .varDecl _, _, _, alike | .assign _ _, _, _, alike => by
    rw [Standing.after, Standing.after, alike.names]
    exact ⟨rfl, alike.defaults⟩
  | .expr value, _, _, alike => by
    by_cases isCall : ∃ span function args, value = .call span function args
    · obtain ⟨span, function, args, rfl⟩ := isCall
      rw [Standing.after, Standing.after]
      exact call stays alike function args
    · rw [Standing.after, Standing.after]
      · exact alike
      all_goals simp_all
  | .block body, _, _, alike | .switch body, _, _, alike | .typeSwitch body, _, _, alike | .select body, _, _, alike
  | .forLoop body, _, _, alike | .range body, _, _, alike | .commClause none body, _, _, alike => by
    rw [Standing.after, Standing.after]
    exact ⟨alike.names, (afterAll stays body alike).defaults⟩
  | .commClause (some comm) body, _, _, alike => by
    rw [Standing.after, Standing.after]
    split
    · exact alike
    · exact ⟨alike.names, (afterAll stays body (after stays comm alike)).defaults⟩
  | .ret _, _, _, alike | .branch _, _, _, alike | .ifElse _ _ _, _, _, alike | .caseClause _ _, _, _, alike
  | .defer _, _, _, alike | .go _, _, _, alike | .send _ _, _, _, alike | .incDec _, _, _, alike
  | .empty, _, _, alike => alike

theorem afterAll (stays : Stays like) : (list : List Stmt) → {first second : Standing} → first.Like like second →
    (first.afterAll list).Like like (second.afterAll list)
  | [], _, _, alike => alike
  | stmt :: rest, _, _, alike => by
    rw [Standing.afterAll, Standing.afterAll]
    split
    · exact alike
    · exact afterAll stays rest (after stays stmt alike)

end

theorem standing (stays : Stays like) (site : Site) (alike : first.Like like second) :
    (site.standing first).Like like (site.standing second) := by
  induction site generalizing first second with
  | here before results => exact afterAll stays before alike
  | inside before guard site ih => exact ih (afterAll stays before alike)

end Standing.Like

/-- Exits at the same place that are alike. -/
def SameExit (like : Defaults → Defaults → Prop) (first second : List Nat × Exit) : Prop :=
  first.1 = second.1 ∧ first.2.Like like second.2

theorem map_alike (longer : List Nat → List Nat) {first second : List (List Nat × Exit)}
    (alike : List.Forall₂ (SameExit like) first second) :
    List.Forall₂ (SameExit like) (first.map (Prod.map longer id)) (second.map (Prod.map longer id)) := by
  refine List.forall₂_map_left_iff.2 (List.forall₂_map_right_iff.2 (alike.imp ?_))
  exact fun entry other same => ⟨congrArg longer same.1, same.2⟩

/-- What holds of the places of exits holds of the places of exits that are alike. -/
theorem forall_place_alike (test : List Nat → Prop) {first second : List (List Nat × Exit)}
    (alike : List.Forall₂ (SameExit like) first second) (every : ∀ entry ∈ first, test entry.1) :
    ∀ entry ∈ second, test entry.1 := by
  induction alike with
  | nil => exact every
  | cons same rest ih =>
    rw [List.forall_mem_cons] at every ⊢
    exact ⟨same.1 ▸ every.1, ih every.2⟩

section Exits

variable (signature : Signature) (guard : Option Guard)

theorem Site.locate_like (stays : Stays like) {first second : Standing} (alike : first.Like like second) (site : Site) :
    Option.Rel (SameExit like) (site.locate signature guard first) (site.locate signature guard second) := by
  have here := alike.standing stays site
  simp only [Site.locate, Site.exitFrom, here.names]
  cases site.reached with
  | false => exact .none
  | true =>
    cases (site.standing second).names.returned? signature site.results with
    | none => exact .none
    | some update => exact .some ⟨rfl, rfl, rfl, here.defaults⟩

/-- Defaults at the beginning of a list show in nothing but the defaults at its exits. -/
theorem exitsAt_like (stays : Stays like) {first second : Standing} (alike : first.Like like second) (list : List Stmt) :
    List.Forall₂ (SameExit like) (exitsAt signature guard first list) (exitsAt signature guard second list) := by
  refine List.rel_filterMap (R := Eq) ?_ (List.forall₂_same.2 fun _ _ => rfl)
  rintro site _ rfl
  exact site.locate_like signature guard stays alike

/-! ## Exits of longer lists -/

/-- The place of a return in a list that has `count` more statements before it. -/
def skip (count : Nat) : List Nat → List Nat
  | [] => []
  | first :: rest => (first + count) :: rest

/-- The place of a return that is inside the first statement of a list. -/
def enter (branch : Nat) (place : List Nat) : List Nat := 0 :: branch :: place

theorem Site.place_after (first : Stmt) (site : Site) : (site.after first).place = skip 1 site.place := by
  cases site <;> rfl

theorem Site.place_eq (site : Site) : ∃ rest, site.place = site.before.length :: rest := by
  cases site <;> exact ⟨_, rfl⟩

theorem skip_zero : skip 0 = id := by
  funext place
  cases place <;> rfl

theorem skip_comp_skip (more count : Nat) : skip more ∘ skip count = skip (count + more) := by
  funext place
  cases place with
  | nil => rfl
  | cons first rest => simp only [Function.comp_apply, skip, Nat.add_assoc]

variable (standing : Standing)

theorem exitsAt_inside (inner : Option Guard) (list : List Stmt) :
    ((returnsIn list).map (Site.inside [] inner)).filterMap (Site.locate signature guard standing) =
      (exitsAt signature (inner.or guard) standing list).map
        (Prod.map (enter (if inner.any (·.inverted) then 1 else 0)) id) := by
  unfold exitsAt
  rw [List.filterMap_map, List.map_filterMap]
  congr 1
  funext site
  simp [Site.locate, Site.exitFrom_inside, Site.place, enter, Function.comp_def]

theorem exitsAt_cons (first : Stmt) (rest : List Stmt) :
    exitsAt signature guard standing (first :: rest) =
      exitsAt signature guard standing [first] ++
        if first.leaves then [] else
          (exitsAt signature guard (standing.after first) rest).map (Prod.map (skip 1) id) := by
  have later : ((returnsIn rest).map (Site.after first)).filterMap (Site.locate signature guard standing) =
      if first.leaves then [] else
        (exitsAt signature guard (standing.after first) rest).map (Prod.map (skip 1) id) := by
    rw [List.filterMap_map]
    cases leaves : first.leaves with
    | true => simp [Site.locate, Site.exitFrom_after, leaves, List.filterMap_eq_nil_iff]
    | false =>
      unfold exitsAt
      simp [Site.locate, Site.exitFrom_after, leaves, List.map_filterMap, Site.place_after, Function.comp_def]
  simp [exitsAt, returnsIn, later]

theorem exitsAt_append (before rest : List Stmt) :
    exitsAt signature guard standing (before ++ rest) =
      exitsAt signature guard standing before ++
        if before.any Stmt.leaves then [] else
          (exitsAt signature guard (standing.afterAll before) rest).map (Prod.map (skip before.length) id) := by
  induction before generalizing standing with
  | nil => simp [exitsAt, returnsIn, Standing.afterAll, skip_zero]
  | cons first before ih =>
    rw [List.cons_append, exitsAt_cons, ih, exitsAt_cons signature guard standing first before]
    cases leaves : first.leaves with
    | true => simp [leaves]
    | false =>
      rw [List.any_cons, leaves, Bool.false_or, Standing.afterAll, leaves]
      cases before.any Stmt.leaves <;> simp [skip_comp_skip, Prod.map_comp_map]

theorem exitsAt_singleton {first : Stmt} {sites : List Site} (returns : first.returns = sites) :
    exitsAt signature guard standing [first] = sites.filterMap (Site.locate signature guard standing) := by
  simp [exitsAt, returnsIn, returns]

/-- The place of an exit begins with the place of a statement of the list. -/
theorem place_of_mem_exitsAt {list : List Stmt} {entry : List Nat × Exit}
    (member : entry ∈ exitsAt signature guard standing list) : ∃ index rest, entry.1 = index :: rest ∧ index < list.length := by
  induction list generalizing standing entry with
  | nil => simp [exitsAt, returnsIn] at member
  | cons first list ih =>
    rw [exitsAt_cons] at member
    rcases List.mem_append.1 member with here | later
    · rw [exitsAt_singleton signature guard standing rfl] at here
      obtain ⟨site, written, located⟩ := List.mem_filterMap.1 here
      obtain ⟨exit, -, rfl⟩ := Option.map_eq_some_iff.1 located
      obtain ⟨rest, place⟩ := site.place_eq
      rw [before_returns first written] at place
      exact ⟨0, rest, place, Nat.succ_pos _⟩
    · split at later
      · simp at later
      · obtain ⟨inner, among, rfl⟩ := List.mem_map.1 later
        obtain ⟨index, rest, place, bound⟩ := ih (standing.after first) among
        exact ⟨index + 1, rest, by simp [place, skip], by simpa using bound⟩

end Exits

/-! ## Exits that differ inside one place -/

/-- Exits that differ inside one place: those before it are the same and those after it are alike. -/
inductive DifferAt (like : Defaults → Defaults → Prop) (place : List Nat) :
    (first second : List (List Nat × Exit)) → Prop
  | intro {before inside others after later : List (List Nat × Exit)}
      (notBefore : ∀ entry ∈ before, ¬ place <+: entry.1) (allInside : ∀ entry ∈ inside, place <+: entry.1)
      (othersInside : ∀ entry ∈ others, place <+: entry.1) (notAfter : ∀ entry ∈ after, ¬ place <+: entry.1)
      (alike : List.Forall₂ (SameExit like) after later) :
      DifferAt like place (before ++ (inside ++ after)) (before ++ (others ++ later))

namespace DifferAt

variable {place : List Nat} {first second more later : List (List Nat × Exit)}

/-- Nothing is inside the place. -/
theorem same (outside : ∀ entry ∈ more, ¬ place <+: entry.1) : DifferAt like place more more := by
  have differ : DifferAt like place (more ++ ([] ++ [])) (more ++ ([] ++ [])) :=
    intro outside (by simp) (by simp) (by simp) .nil
  simpa using differ

/-- Everything is inside the place. -/
theorem whole (inFirst : ∀ entry ∈ first, place <+: entry.1) (inSecond : ∀ entry ∈ second, place <+: entry.1) :
    DifferAt like place first second := by
  have differ : DifferAt like place ([] ++ (first ++ [])) ([] ++ (second ++ [])) :=
    intro (by simp) inFirst inSecond (by simp) .nil
  simpa using differ

theorem append_left (outside : ∀ entry ∈ more, ¬ place <+: entry.1) (differ : DifferAt like place first second) :
    DifferAt like place (more ++ first) (more ++ second) := by
  obtain ⟨notBefore, allInside, othersInside, notAfter, alike⟩ := differ
  rw [← List.append_assoc, ← List.append_assoc more]
  refine intro ?_ allInside othersInside notAfter alike
  intro entry member
  exact (List.mem_append.1 member).elim (outside entry) (notBefore entry)

theorem append_right (differ : DifferAt like place first second) (outside : ∀ entry ∈ more, ¬ place <+: entry.1)
    (alike : List.Forall₂ (SameExit like) more later) : DifferAt like place (first ++ more) (second ++ later) := by
  obtain ⟨notBefore, allInside, othersInside, notAfter, alikeBefore⟩ := differ
  simp only [List.append_assoc]
  refine intro notBefore allInside othersInside ?_ (List.rel_append alikeBefore alike)
  intro entry member
  exact (List.mem_append.1 member).elim (notAfter entry) (outside entry)

/-- The places may be those of longer lists. -/
theorem map {longer : List Nat → List Nat} {other : List Nat} (differ : DifferAt like place first second)
    (inside : ∀ entry, other <+: longer entry ↔ place <+: entry) :
    DifferAt like other (first.map (Prod.map longer id)) (second.map (Prod.map longer id)) := by
  obtain ⟨notBefore, allInside, othersInside, notAfter, alike⟩ := differ
  simp only [List.map_append]
  refine intro ?_ ?_ ?_ ?_ (map_alike longer alike)
  · exact List.forall_mem_map.2 fun entry member within => notBefore entry member ((inside _).1 within)
  · exact List.forall_mem_map.2 fun entry member => (inside _).2 (allInside entry member)
  · exact List.forall_mem_map.2 fun entry member => (inside _).2 (othersInside entry member)
  · exact List.forall_mem_map.2 fun entry member within => notAfter entry member ((inside _).1 within)

theorem entered (branch : Nat) (differ : DifferAt like place first second) :
    DifferAt like (0 :: branch :: place) (first.map (Prod.map (enter branch) id))
      (second.map (Prod.map (enter branch) id)) :=
  differ.map fun entry => by simp [enter, List.cons_prefix_cons]

theorem skipped {index : Nat} (count : Nat) (differ : DifferAt like (index :: place) first second) :
    DifferAt like ((index + count) :: place) (first.map (Prod.map (skip count) id))
      (second.map (Prod.map (skip count) id)) := by
  refine differ.map fun entry => ?_
  cases entry with
  | nil => simp [skip]
  | cons head rest => simp [skip, List.cons_prefix_cons]

end DifferAt

section OneStatement

variable {signature : Signature} {guard : Option Guard} {standing : Standing} {place : List Nat}

/-- An exit of a list is not inside a place beyond the list. -/
theorem not_beyond {list : List Stmt} {entry : List Nat × Exit} {index : Nat}
    (member : entry ∈ exitsAt signature guard standing list) (beyond : list.length ≤ index) :
    ¬ index :: place <+: entry.1 := by
  obtain ⟨head, rest, same, bound⟩ := place_of_mem_exitsAt signature guard standing member
  rw [same, List.cons_prefix_cons]
  omega

/-- **Lists that differ in one statement.** If the exits of the statement differ inside a place, and what is in force
after it is alike, the exits of the lists differ inside that place of the lists. -/
theorem DifferAt.inList (stays : Stays like) (before after : List Stmt) {first second : Stmt}
    (firstStays : first.leaves = false) (secondStays : second.leaves = false)
    (alike : ((standing.afterAll before).after first).Like like ((standing.afterAll before).after second))
    (differ : DifferAt like (0 :: place) (exitsAt signature guard (standing.afterAll before) [first])
      (exitsAt signature guard (standing.afterAll before) [second])) :
    DifferAt like (before.length :: place) (exitsAt signature guard standing (before ++ first :: after))
      (exitsAt signature guard standing (before ++ second :: after)) := by
  rw [exitsAt_append, exitsAt_append signature guard standing before]
  refine append_left (fun entry member => not_beyond member (Nat.le_refl _)) ?_
  cases before.any Stmt.leaves with
  | true => exact same (by simp)
  | false =>
    rw [exitsAt_cons, exitsAt_cons signature guard _ second, firstStays, secondStays]
    have later := map_alike (skip 1) (exitsAt_like signature guard stays alike after)
    have whole := (differ.append_right ?_ later).skipped before.length
    · rwa [Nat.zero_add] at whole
    · refine List.forall_mem_map.2 ?_
      rintro ⟨_ | ⟨head, rest⟩, exit⟩ - <;> simp [skip]

end OneStatement

/-! ## What is handed over elsewhere -/

/-- The same default migration. -/
def SameMigration (first second : Defaults) : Prop := first.migration = second.migration

theorem stays_sameMigration : Stays SameMigration where
  refl _ := rfl
  told same name arg := by
    unfold SameMigration Defaults.told
    split
    · rfl
    · exact same
    · exact same
    · exact same

/-- What shows of an exit in other exits: its place, its moves, and the number of inner steps it gives rise to. -/
def Handed.account (handed : Handed) : List Nat × List Move × Nat := (handed.place, handed.moves, handed.subs.length)

/-- What is handed over outside a place. -/
def outside (place : List Nat) (handed : List Handed) : List (List Nat × List Move × Nat) :=
  (handed.map Handed.account).filter fun account => !place.isPrefixOf account.1

/-- The number of inner steps that the exits inside a place give rise to. -/
def synthesizedAt (place : List Nat) (handed : List Handed) : Nat :=
  ((handed.filter fun entry => place.isPrefixOf entry.place).flatMap Handed.subs).length

theorem outside_append (place : List Nat) (handed more : List Handed) :
    outside place (handed ++ more) = outside place handed ++ outside place more := by
  simp [outside]

theorem synthesizedAt_append (place : List Nat) (handed more : List Handed) :
    synthesizedAt place (handed ++ more) = synthesizedAt place handed + synthesizedAt place more := by
  simp [synthesizedAt]

/-- Runs that account for the same meet as many inner steps. -/
theorem length_subs_eq {first second : List Handed} (same : first.map Handed.account = second.map Handed.account) :
    (first.flatMap Handed.subs).length = (second.flatMap Handed.subs).length := by
  have lengths : first.map (fun handed => handed.subs.length) = second.map (fun handed => handed.subs.length) := by
    have counts := congrArg (List.map fun account => account.2.2) same
    simpa [Function.comp_def, Handed.account] using counts
  rw [List.length_flatMap, List.length_flatMap, lengths]

namespace Tracing

variable (tracing : Tracing) {place : List Nat}

/-- What holds of the places of exits holds of the places of what they hand over. -/
theorem forall_place_hand (test : List Nat → Prop) (count : Nat) {exits : List (List Nat × Exit)}
    (every : ∀ entry ∈ exits, test entry.1) : ∀ handed ∈ tracing.hand count exits, test handed.place := by
  rw [← map_located_hand tracing count exits] at every
  exact fun handed member => every handed.located (List.mem_map_of_mem member)

/-- Exits inside the place hand over nothing outside it, and all their inner steps count. -/
theorem hand_inside (count : Nat) {exits : List (List Nat × Exit)} (inside : ∀ entry ∈ exits, place <+: entry.1) :
    outside place (tracing.hand count exits) = [] ∧
      synthesizedAt place (tracing.hand count exits) = ((tracing.hand count exits).flatMap Handed.subs).length := by
  have within := tracing.forall_place_hand (place <+: ·) count inside
  constructor
  · unfold outside
    rw [List.filter_eq_nil_iff, List.forall_mem_map]
    intro handed member
    simpa [Handed.account] using within handed member
  · unfold synthesizedAt
    rw [List.filter_eq_self.2 fun handed member => List.isPrefixOf_iff_prefix.2 (within handed member)]

/-- No inner steps of exits outside the place count. -/
theorem synthesizedAt_hand_outside (count : Nat) {exits : List (List Nat × Exit)}
    (beyond : ∀ entry ∈ exits, ¬ place <+: entry.1) : synthesizedAt place (tracing.hand count exits) = 0 := by
  have without := tracing.forall_place_hand (¬ place <+: ·) count beyond
  unfold synthesizedAt
  rw [List.filter_eq_nil_iff.2 fun handed member => by simpa using without handed member]
  rfl

/-- Only the default migration of an exit shows in what it hands over. -/
theorem transitionsOf_like (count : Nat) {first second : Exit} (alike : first.Like SameMigration second) :
    tracing.transitionsOf count first = tracing.transitionsOf count second := by
  unfold transitionsOf
  rw [alike.update, alike.defaults]

variable (other : Tracer)

/-- Exits that are alike hand over the same, whatever tracer is in use. -/
theorem map_account_hand (count : Nat) {first second : List (List Nat × Exit)}
    (alike : List.Forall₂ (SameExit SameMigration) first second) :
    (tracing.hand count first).map Handed.account =
      (Tracing.hand { tracing with tracer := other } count second).map Handed.account := by
  induction alike generalizing count with
  | nil => rfl
  | @cons entry again first second same rest ih =>
    obtain ⟨place, exit⟩ := entry
    obtain ⟨placeAgain, exitAgain⟩ := again
    obtain ⟨rfl, alike⟩ := same
    have found : tracing.transitionsOf count exit = tracing.transitionsOf count exitAgain :=
      tracing.transitionsOf_like count alike
    have guard : exit.guard = exitAgain.guard := alike.guard
    obtain ⟨transitions, length⟩ := transitionsOf_tracer tracing other count exitAgain
    simp only [hand, List.map_cons, Handed.account, Handed.moves, Handed.subs, found, transitions, length, guard]
    rw [ih]

/-- **Exits that differ inside a place hand over the same outside it**, if the place gives rise to as many inner steps in
both runs. -/
theorem outside_hand (count : Nat) {first second : List (List Nat × Exit)}
    (differ : DifferAt SameMigration place first second)
    (steps : synthesizedAt place (tracing.hand count first) =
      synthesizedAt place (Tracing.hand { tracing with tracer := other } count second)) :
    outside place (tracing.hand count first) =
      outside place (Tracing.hand { tracing with tracer := other } count second) := by
  obtain @⟨before, inside, others, after, later, notBefore, allInside, othersInside, notAfter, alike⟩ := differ
  have notLater := forall_place_alike (¬ place <+: ·) alike notAfter
  have accounts := tracing.map_account_hand other count
    (List.forall₂_same.2 fun entry (_ : entry ∈ before) => ⟨rfl, rfl, rfl, rfl⟩)
  simp only [hand_append, synthesizedAt_append, outside_append] at steps ⊢
  rw [length_subs_eq accounts] at steps ⊢
  -- the inner steps that were met before the two runs part are as many, so those inside the place are too
  rw [synthesizedAt_hand_outside _ _ notBefore, synthesizedAt_hand_outside _ _ notBefore,
    synthesizedAt_hand_outside _ _ notAfter, synthesizedAt_hand_outside _ _ notLater, (hand_inside _ _ allInside).2,
    (hand_inside _ _ othersInside).2, Nat.zero_add, Nat.zero_add, Nat.add_zero, Nat.add_zero] at steps
  rw [(hand_inside _ _ allInside).1, (hand_inside _ _ othersInside).1, steps]
  unfold outside
  rw [accounts, tracing.map_account_hand other _ alike]

end Tracing

end StepChart
