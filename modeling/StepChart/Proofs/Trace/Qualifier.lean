import StepChart.Analysis
import StepChart.Proofs.Syntax.Samples
import StepChart.Proofs.Trace.InnerFields

/-!
# The qualifier of the framework

A file may import the framework under any name. If the import gets another name, and the new name replaces the old one
as the qualifier of the types of parameters, results and receivers, then the same steps are found (`analyze_requalify`).
Nothing else in the file is renamed, so the name has no other use.
-/

namespace StepChart

open Syntax Text

/-! ## Files with another qualifier -/

namespace Syntax

/-- The type with another qualifier for the package called `old`. -/
def Expr.requalify (old new : String) : Expr → Expr
  | .selector outer (.ident inner qualifier) name =>
    .selector outer (.ident inner (if qualifier = old then new else qualifier)) name
  | .star span type => .star span (type.requalify old new)
  | .paren span type => .paren span (type.requalify old new)
  | .index span type argument => .index span (type.requalify old new) (argument.requalify old new)
  | type => type

/-- The field with another qualifier in its type. -/
def Field.requalify (old new : String) : Field → Field
  | .mk names type variadic => .mk names (type.requalify old new) variadic

/-- The declaration with another qualifier in the types of all fields, those of function literals included. -/
def FuncDecl.requalify (old new : String) (decl : FuncDecl) : FuncDecl :=
  { decl with
    receiver := decl.receiver.map (List.map (Field.requalify old new))
    params := decl.params.map (Field.requalify old new)
    results := decl.results.map (Field.requalify old new)
    body := decl.body.map (stmtsWithFields (Field.requalify old new)) }

/-- The file in which a package is imported under the name `new` instead of `old`. -/
def SourceFile.requalify (package old new : String) (file : SourceFile) : SourceFile :=
  { file with
    imports := file.imports.map fun imported =>
      if imported.path = package then { imported with name := some new } else imported
    decls := file.decls.map (FuncDecl.requalify old new) }

/-- The qualifier of a field's type. -/
def Field.qualifier (field : Field) : String := field.type.qualifiedName.1

/-- A name is not the qualifier of a parameter or result of a function literal. -/
def avoidsQualifier (name : String) : Expr → Bool
  | .func _ params results _ => (params ++ results).all (·.qualifier != name)
  | _ => true

/-- A name is not the qualifier of a field in the declaration, at any depth. -/
def FuncDecl.Avoids (name : String) (decl : FuncDecl) : Prop :=
  (∀ field ∈ decl.receiver.getD [] ++ decl.params ++ decl.results, field.qualifier ≠ name) ∧
    stmtsAll (avoidsQualifier name) (decl.body.getD []) = true

/-! ## Fields -/

variable {old new : String}

theorem Expr.size_requalify (type : Expr) : (type.requalify old new).size = type.size := by
  fun_induction Expr.requalify old new type with
  | case1 => simp only [Expr.size]
  | case2 span type ih | case3 span type ih => simp only [Expr.size, ih]
  | case4 span type argument ihType ihArgument => simp only [Expr.size, ihType, ihArgument]
  | case5 => rfl

theorem keepsSize_requalify : KeepsSize (Field.requalify old new) := by
  rintro ⟨names, type, variadic⟩
  simp only [Field.requalify, Field.size, Expr.size_requalify]

theorem Expr.qualifiedName_requalify (nonempty : old ≠ "") (type : Expr) :
    (type.requalify old new).qualifiedName =
      (if type.qualifiedName.1 = old then new else type.qualifiedName.1, type.qualifiedName.2) := by
  fun_cases Expr.requalify old new type with
  | case1 => rfl
  | case2 | case3 | case4 => simp [Expr.qualifiedName, nonempty.symm]
  | case5 type noSelector =>
    have unqualified : type.qualifiedName.1 = "" := by
      cases type with
      | selector span operand name =>
        cases operand with
        | ident inner qualifier => exact absurd rfl (noSelector span inner qualifier name)
        | _ => rfl
      | _ => rfl
    rw [if_neg (by rw [unqualified]; exact nonempty.symm)]

theorem Expr.pointedName_requalify (nonempty : old ≠ "") (type : Expr) :
    (type.requalify old new).pointedName =
      (if type.pointedName.1 = old then new else type.pointedName.1, type.pointedName.2) := by
  cases type with
  | star span inner => exact Expr.qualifiedName_requalify nonempty inner
  | selector span operand name =>
    have named := @Expr.qualifiedName_requalify old new nonempty (.selector span operand name)
    cases operand <;> exact named
  | _ => simp [Expr.requalify, Expr.pointedName, nonempty.symm]

@[simp] theorem Field.names_requalify (field : Field) : (field.requalify old new).names = field.names := by
  cases field
  rfl

@[simp] theorem Field.variadic_requalify (field : Field) : (field.requalify old new).variadic = field.variadic := by
  cases field
  rfl

@[simp] theorem Field.type_requalify (field : Field) :
    (field.requalify old new).type = field.type.requalify old new := by
  cases field
  rfl

end Syntax

/-! ## Signatures -/

section Signatures

variable {old new : String}

/-- A qualified name is one of the renamed package if and only if it was one before. -/
theorem requalified_eq_iff {field : Field} (nonempty : old ≠ "") (fresh : field.qualifier ≠ new) :
    (field.requalify old new).type.qualifiedName.1 = new ↔ field.type.qualifiedName.1 = old := by
  rw [Field.type_requalify, Expr.qualifiedName_requalify nonempty]
  unfold Field.qualifier at fresh
  split
  · next same => exact iff_of_true rfl same
  · next differs => exact iff_of_false fresh differs

theorem findContext?_requalify (nonempty : old ≠ "") {params : List Field}
    (fresh : ∀ field ∈ params, field.qualifier ≠ new) :
    findContext? new (params.map (Field.requalify old new)) = findContext? old params := by
  unfold findContext?
  induction params with
  | nil => rfl
  | cons param params ih =>
    have named : (param.requalify old new).type.qualifiedName.2 = param.type.qualifiedName.2 := by
      rw [Field.type_requalify, Expr.qualifiedName_requalify nonempty]
    have qualified := requalified_eq_iff nonempty (fresh param List.mem_cons_self)
    rw [List.map_cons, List.findSome?_cons, List.findSome?_cons,
      ih fun field member => fresh field (List.mem_cons_of_mem _ member)]
    simp only [qualified, named, Field.names_requalify]

theorem isOfType_requalify (nonempty : old ≠ "") (typeName : String) {field : Field} (fresh : field.qualifier ≠ new) :
    isOfType new typeName (field.requalify old new) = isOfType old typeName field := by
  have named : (field.requalify old new).type.qualifiedName.2 = field.type.qualifiedName.2 := by
    rw [Field.type_requalify, Expr.qualifiedName_requalify nonempty]
  have same : ((field.requalify old new).type.qualifiedName == (new, typeName)) =
      (field.type.qualifiedName == (old, typeName)) := by
    rw [Bool.eq_iff_iff, beq_iff_eq, beq_iff_eq, Prod.ext_iff, Prod.ext_iff, requalified_eq_iff nonempty fresh, named]
  unfold isOfType
  rw [same, Field.variadic_requalify]

theorem findResult?_requalify (nonempty : old ≠ "") (typeName : String) (alone : Bool) {results : List Field}
    (fresh : ∀ field ∈ results, field.qualifier ≠ new) :
    findResult? new typeName alone (results.map (Field.requalify old new)) =
      findResult? old typeName alone results := by
  unfold findResult?
  generalize 0 = place
  generalize (none : Option (Nat × Option String)) = found
  induction results generalizing place found with
  | nil => rfl
  | cons field fields ih =>
    have onward := fun place found => ih (fun other member => fresh other (List.mem_cons_of_mem _ member)) place found
    simp only [List.map_cons, findResultFrom?, isOfType_requalify nonempty typeName (fresh field List.mem_cons_self),
      Field.names_requalify, onward]

theorem receiverOf?_requalify (nonempty : old ≠ "") (usable : new ≠ "") (receiver : Option (List Field)) :
    receiverOf? (receiver.map (List.map (Field.requalify old new))) = receiverOf? receiver := by
  match receiver with
  | none => rfl
  | some [] => rfl
  | some (_ :: _ :: _) => rfl
  | some [field] =>
    have pointed := @Expr.pointedName_requalify old new nonempty field.type
    simp only [Option.map_some, List.map_cons, List.map_nil, receiverOf?, Field.names_requalify, Field.type_requalify,
      pointed]
    obtain ⟨qualifier, type⟩ := field.type.pointedName
    match field.names with
    | _ :: _ :: _ => rfl
    | [] | [_] =>
      by_cases renamed : qualifier = old
      · subst renamed
        simp [nonempty, usable]
      · simp [renamed]

theorem recognize?_requalify (nonempty : old ≠ "") (usable : new ≠ "") {decl : FuncDecl} (avoids : decl.Avoids new) :
    recognize? new (decl.requalify old new) = recognize? old decl := by
  have inParams : ∀ field ∈ decl.params, field.qualifier ≠ new := fun field member =>
    avoids.1 field (List.mem_append_left _ (List.mem_append_right _ member))
  have inResults : ∀ field ∈ decl.results, field.qualifier ≠ new := fun field member =>
    avoids.1 field (List.mem_append_right _ member)
  simp only [recognize?, FuncDecl.requalify, findResult?_requalify nonempty _ _ inResults,
    findContext?_requalify nonempty inParams, receiverOf?_requalify nonempty usable]

end Signatures

/-! ## Files -/

section Files

variable {old new : String}

theorem qualifierOf?_requalify {package : String} {imports : List Import}
    (imported : qualifierOf? imports package = some old) (noDot : new ≠ ".") (noBlank : new ≠ "_") :
    qualifierOf? (imports.map fun imported =>
      if imported.path = package then { imported with name := some new } else imported)
      package = some new := by
  have samePath : (fun imported : Import => imported.path == package) ∘ (fun imported : Import =>
      if imported.path = package then { imported with name := some new } else imported) = (·.path == package) := by
    funext imported
    simp only [Function.comp_apply]
    split <;> rfl
  unfold qualifierOf? at imported ⊢
  rw [List.find?_map, samePath]
  cases found : imports.find? (·.path == package) with
  | none => rw [found] at imported; cases imported
  | some first =>
    have isPackage : first.path = package := by simpa using List.find?_some found
    simp only [Option.map_some, isPackage, if_true]

theorem outlineOf?_requalify {wording : Wording}
    (labels : ∀ guard : Guard,
      wording.label (guard.map (Expr.withFields (Field.requalify old new))) = wording.label guard)
    (nonempty : old ≠ "") (usable : new ≠ "") {decl : FuncDecl} (avoids : decl.Avoids new) :
    Option.Rel (Outline.SameStep wording) (outlineOf? new (decl.requalify old new)) (outlineOf? old decl) := by
  have context : ∀ span params results body, avoidsQualifier new (.func span params results body) = true →
      findContext? new (params.map (Field.requalify old new)) = findContext? old params := by
    intro span params results body avoided
    refine findContext?_requalify nonempty fun field member => ?_
    have differs := List.all_eq_true.1 avoided field (List.mem_append_left _ member)
    simpa using differs
  unfold outlineOf?
  rw [recognize?_requalify nonempty usable avoids]
  cases recognize? old decl with
  | none => exact .none
  | some signature =>
    refine .some ?_
    have inBody := avoids.2
    unfold FuncDecl.requalify
    cases written : decl.body with
    | none => rfl
    | some body =>
      rw [written] at inBody
      simp only [Option.map_some]
      unfold trace
      rw [stmtsSize_withFields keepsSize_requalify]
      exact sameStep_outline labels context _ signature body inBody

theorem outlines_requalify {wording : Wording}
    (labels : ∀ guard : Guard,
      wording.label (guard.map (Expr.withFields (Field.requalify old new))) = wording.label guard)
    (nonempty : old ≠ "") (usable : new ≠ "") {decls : List FuncDecl} (avoids : ∀ decl ∈ decls, decl.Avoids new) :
    List.Forall₂ (Outline.SameStep wording) ((decls.map (FuncDecl.requalify old new)).filterMap (outlineOf? new))
      (decls.filterMap (outlineOf? old)) := by
  induction decls with
  | nil => exact .nil
  | cons decl decls ih =>
    have rest := ih fun other member => avoids other (List.mem_cons_of_mem _ member)
    have first := outlineOf?_requalify labels nonempty usable (avoids decl List.mem_cons_self)
    rw [List.map_cons, List.filterMap_cons, List.filterMap_cons]
    revert first
    generalize outlineOf? new (decl.requalify old new) = renamed, outlineOf? old decl = original
    rintro (same | _)
    · exact .cons same rest
    · exact rest

/-- **The name of the framework's import does not matter.** If the import gets another usable name, which no field in
the file has as its qualifier yet, and fields of the framework's types get it as their qualifier, then exactly the same
steps are found. -/
theorem analyze_requalify {options : AnalysisOptions} {file : SourceFile}
    (imported : qualifierOf? file.imports options.framework = some old) (nonempty : old ≠ "") (noDot : new ≠ ".")
    (noBlank : new ≠ "_") (usable : new ≠ "") (avoids : ∀ decl ∈ file.decls, decl.Avoids new) :
    analyze options (file.requalify options.framework old new) = analyze options file := by
  have labels := Guard.label_withFields (Field.requalify old new) file.source options.room
  have renamed : qualifierOf? (file.requalify options.framework old new).imports options.framework = some new :=
    qualifierOf?_requalify imported noDot noBlank
  unfold analyze outlines
  rw [renamed, imported]
  exact toSteps_congr (outlines_requalify labels nonempty usable avoids)

/-- A file that names the framework itself, with a step whose handler and whose next step are function literals. -/
def aliasedFile : SourceFile :=
  let stops (context : String) : Expr := Sample.stepLiteral "sm" context [.ret [Sample.onContext "Stop" []]]
  { Sample.file "aliased.go" [
      Sample.stepDecl "sm" "Aliased" "begin" "InitializationContext" [
        .expr (Sample.onContext "SetDefaultMigration" [stops "MigrationContext"]),
        .ret [Sample.onContext "Jump" [
          Sample.stepLiteral "sm" "ExecutionContext" [
            .ret [Sample.onContext "Jump" [stops "ExecutionContext"]]]]]]]
    with imports := [⟨some "sm", defaultFramework⟩] }

/-- The steps inside one another are found whatever the framework is called. -/
theorem analyze_requalify_aliased :
    ((analyze {} aliasedFile).toOption.getD []).map (fun step =>
      (step.name,
        step.subSteps.map fun inner => (inner.name, inner.signature.contextArg, inner.subSteps.map (·.name)))) =
      [("begin", [("begin.1", "", []), ("begin.2", "ctx", ["begin.2.1"])])] ∧
    analyze {} (aliasedFile.requalify defaultFramework "sm" "framework") = analyze {} aliasedFile := by
  refine ⟨by decide +kernel, ?_⟩
  refine @analyze_requalify "sm" "framework" {} aliasedFile (by decide +kernel) (by decide) (by decide) (by decide)
    (by decide) ?_
  intro decl member
  rw [List.mem_singleton.1 member]
  exact ⟨by decide +kernel, by decide +kernel⟩

end Files

end StepChart
