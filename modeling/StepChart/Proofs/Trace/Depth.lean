import StepChart.Proofs.Trace.Trail

/-!
# How deep function literals are traced

The bound on the depth never shows: a literal inside a body is smaller than the body, so every bound above the size of a
body gives the same outline (`outline_eq_trace`). So the function literals in a step are traced as declared steps are, and
what is known of traces is known of them too (`trail_eq_hand`, `trace_subSteps`).
-/

namespace StepChart

open Syntax

/-! ## Tracers that agree -/

namespace Tracing

variable {test : Expr → Bool} {tracing : Tracing} {other : Tracer}

theorem transitionsOf_congr (agree : Tracer.Related Eq test tracing.tracer other) (count : Nat) {exit : Exit}
    (holds : exit.Holds test) :
    tracing.transitionsOf count exit = Tracing.transitionsOf { tracing with tracer := other } count exit := by
  obtain ⟨transitions, subs⟩ := transitionsOf_related agree count holds
  rw [List.forall₂_eq_eq_eq] at subs
  have whole : Found.mk _ _ = Found.mk _ _ := congr (congrArg Found.mk transitions) subs
  exact whole

theorem moves_congr (agree : Tracer.Related Eq test tracing.tracer other) {exits : List Exit}
    (holds : ∀ exit ∈ exits, exit.Holds test) :
    tracing.moves exits = Tracing.moves { tracing with tracer := other } exits := by
  unfold moves
  refine List.foldl_ext _ _ _ fun met exit member => ?_
  rw [transitionsOf_congr agree _ (holds exit member)]

theorem hand_congr (agree : Tracer.Related Eq test tracing.tracer other) (count : Nat) {exits : List (List Nat × Exit)}
    (holds : ∀ entry ∈ exits, entry.2.Holds test) :
    tracing.hand count exits = Tracing.hand { tracing with tracer := other } count exits := by
  induction exits generalizing count with
  | nil => rfl
  | cons entry rest ih =>
    rw [List.forall_mem_cons] at holds
    simp only [hand]
    rw [transitionsOf_congr agree count holds.1, ih _ holds.2]

end Tracing

/-! ## Enough depth -/

theorem outlineWith_congr {test : Expr → Bool} {tracer other : Tracer} (agree : Tracer.Related Eq test tracer other)
    (framework : String) (signature : Signature) {body : List Stmt} (every : stmtsAll test body = true) :
    outlineWith tracer framework signature body = outlineWith other framework signature body := by
  have moves := @Tracing.moves_congr test ⟨framework, signature, tracer⟩ other agree _ (walk_holds signature every).exits
  unfold outlineWith
  simp only [moves]

/-- Tracers that agree on the function literals in a body give it the same outline. -/
theorem outlineWith_agree {tracer other : Tracer} (framework : String) (signature : Signature) {body : List Stmt}
    (agree : ∀ {span params results literal}, .func span params results literal ∈ stmtsSubterms body →
      ∀ inner, tracer inner literal = other inner literal) :
    outlineWith tracer framework signature body = outlineWith other framework signature body := by
  obtain ⟨test, every, inBody⟩ := exists_test body
  refine outlineWith_congr ⟨fun _ _ => rfl, fun inside inner => ?_⟩ framework signature every
  exact agree (inBody _ (Expr.all_self inside)) inner

/-- Two bounds give the same outline if both are above the size of the body. -/
theorem outline_congr (framework : String) {depth other : Nat} (signature : Signature) {body : List Stmt}
    (enough : stmtsSize body < depth) (enoughOther : stmtsSize body < other) :
    outline framework depth signature body = outline framework other signature body := by
  induction depth generalizing other signature body with
  | zero => omega
  | succ depth ih =>
    obtain ⟨other, rfl⟩ : ∃ smaller, other = smaller + 1 := ⟨other - 1, by omega⟩
    refine outlineWith_agree framework signature fun member inner => ?_
    have smaller := stmtsSize_lt_of_func_mem member
    exact ih inner (by omega) (by omega)

/-- **The bound on the depth does not show.** -/
theorem outline_eq_trace (framework : String) {depth : Nat} (signature : Signature) {body : List Stmt}
    (enough : stmtsSize body < depth) : outline framework depth signature body = trace framework signature body :=
  outline_congr framework signature enough (Nat.lt_succ_self _)

/-! ## Literals as steps -/

/-- What exits keep of a body holds of all of it. -/
theorem exitsAt_holds {test : Expr → Bool} (signature : Signature) {body : List Stmt} (every : stmtsAll test body = true) :
    ∀ entry ∈ exitsAt signature none (.start signature.contextArg) body, entry.2.Holds test := by
  have exits := (walk_holds signature every).exits
  rw [walk_exits, ← map_exitsAt, List.forall_mem_map] at exits
  exact exits

/-- In a trail, function literals are traced as declared steps are. -/
theorem trail_eq_hand (framework : String) (signature : Signature) (body : List Stmt) :
    trail framework signature body = Tracing.hand ⟨framework, signature, trace framework⟩ 0
      (exitsAt signature none (.start signature.contextArg) body) := by
  obtain ⟨test, every, inBody⟩ := exists_test body
  have agree : Tracer.Related Eq test (outline framework (stmtsSize body)) (trace framework) :=
    ⟨fun _ _ => rfl, fun inside inner =>
      outline_eq_trace framework inner (stmtsSize_lt_of_func_mem (inBody _ (Expr.all_self inside)))⟩
  exact @Tracing.hand_congr _ ⟨framework, signature, outline framework (stmtsSize body)⟩ _ agree 0 _
    (exitsAt_holds signature every)

/-- An exit in a trail is turned into transitions after the inner steps of the exits before it. -/
theorem found_of_trail {framework : String} {signature : Signature} {body : List Stmt} {before after : List Handed}
    {handed : Handed} (split : trail framework signature body = before ++ handed :: after) :
    handed.found = Tracing.transitionsOf ⟨framework, signature, trace framework⟩ (before.flatMap Handed.subs).length
      handed.exit := by
  rw [trail_eq_hand] at split
  rw [Tracing.found_of_hand split, Nat.zero_add]

theorem exit_holds_of_trail {test : Expr → Bool} {framework : String} {signature : Signature} {body : List Stmt}
    (every : stmtsAll test body = true) {handed : Handed} (member : handed ∈ trail framework signature body) :
    handed.exit.Holds test := exitsAt_holds signature every handed.located (located_mem_exitsAt member)

/-- The step is flagged, or it is the trace of a body in which the test holds everywhere. -/
def Outline.Traced (framework : String) (test : Expr → Bool) (outline : Outline) : Prop :=
  outline.isSubroutine = true ∨
    ∃ signature body, stmtsAll test body = true ∧ outline = trace framework signature body

/-- The step stands for a machine, or it is the trace of a function literal that is written in the body. -/
def Outline.InnerOf (framework : String) (body : List Stmt) (outline : Outline) : Prop :=
  outline.ForMachine ∨ ∃ span params results literal inner,
    (Expr.func span params results literal).subterms ⊆ stmtsSubterms body ∧ outline = trace framework inner literal

/-- The inner steps of a step come from its body. -/
theorem trace_inner (framework : String) (signature : Signature) (body : List Stmt) :
    ∀ sub ∈ (trace framework signature body).subSteps, sub.InnerOf framework body := by
  intro sub member
  rw [(trace_eq_trail framework signature body).2] at member
  obtain ⟨handed, isHanded, inHanded⟩ := List.mem_flatMap.1 member
  obtain ⟨before, after, split⟩ := List.append_of_mem isHanded
  rw [Handed.subs, found_of_trail split] at inHanded
  obtain ⟨test, every, inBody⟩ := exists_test body
  have literals : ∀ {span : Span} {params results : List Field} {literal : List Stmt},
      (Expr.func span params results literal).all test = true →
        ∀ inner, (trace framework inner literal).InnerOf framework body := by
    intro span params results literal inside inner
    refine .inr ⟨span, params, results, literal, inner, fun expr isInside => ?_, rfl⟩
    exact inBody expr ((Expr.all_iff_subterms _).1 inside expr isInside)
  exact Tracing.transitionsOf_every (fun _ => .inl) literals _ (exit_holds_of_trail every isHanded) sub inHanded

/-- What holds everywhere in the body holds in a literal that is written in it, and the literal is smaller. -/
theorem Outline.InnerOf.cases {test : Expr → Bool} {framework : String} {body : List Stmt} {outline : Outline}
    (isInner : outline.InnerOf framework body) (every : stmtsAll test body = true) :
    outline.ForMachine ∨ ∃ inner literal, stmtsAll test literal = true ∧ stmtsSize literal < stmtsSize body ∧
      outline = trace framework inner literal := by
  rcases isInner with machine | ⟨span, params, results, literal, inner, inside, rfl⟩
  · exact .inl machine
  · have everyInside : (Expr.func span params results literal).all test = true :=
      (Expr.all_iff_subterms _).2 fun expr isInside => (stmtsAll_iff_subterms body).1 every expr (inside isInside)
    have smaller := stmtsSize_lt_of_func_mem (inside List.mem_cons_self)
    exact .inr ⟨inner, literal, Expr.all_func everyInside, smaller, rfl⟩

/-- The inner steps of a step are flagged, or they are traces of function literals. -/
theorem trace_subSteps {test : Expr → Bool} (framework : String) (signature : Signature) {body : List Stmt}
    (every : stmtsAll test body = true) : ∀ sub ∈ (trace framework signature body).subSteps, sub.Traced framework test := by
  intro sub member
  rcases (trace_inner framework signature body sub member).cases every with machine | ⟨inner, literal, inside, -, rfl⟩
  · exact .inl machine.flag
  · exact .inr ⟨inner, literal, inside, rfl⟩

end StepChart
