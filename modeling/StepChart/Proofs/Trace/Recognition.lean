import Mathlib.Tactic.Common
import StepChart.Analysis

/-!
# Which functions are steps

A function is a step by its results and its receiver. Its results are scanned once from left to right, and a field with
several names moves the place of what follows by as many; `findResultFrom?_cons` says all that the scan does with a
field, `findResultFrom?_append` what a run over other fields does. The place that is found is the one at which the
walk reads the results of a return (`declares_step_iff`).
-/

namespace StepChart

open Syntax

/-! ## Types -/

namespace Syntax

/-- What a selector is taken from is a name that is not empty, also behind pointers. -/
def Expr.isLowered : Expr → Bool
  | .selector _ (.ident _ qualifier) _ => !qualifier.isEmpty
  | .selector _ _ _ => false
  | .star _ inner => inner.isLowered
  | _ => true

/-- The type `name` of a package, in a file that calls the package `qualifier`; without a qualifier, the bare name. -/
def Expr.Denotes (qualifier name : String) (type : Expr) : Prop :=
  if qualifier = "" then ∃ span, type = .ident span name
  else ∃ outer inner, type = .selector outer (.ident inner qualifier) name

theorem Expr.qualifiedName_eq_iff {type : Expr} (lowered : type.isLowered = true) {qualifier name : String}
    (filled : name ≠ "") : type.qualifiedName = (qualifier, name) ↔ type.Denotes qualifier name := by
  unfold Expr.Denotes
  cases type with
  | ident span other => by_cases bare : qualifier = "" <;> simp [Expr.qualifiedName, bare, eq_comm]
  | selector span operand other =>
    cases operand with
    | ident inner package =>
      have named : package ≠ "" := by simpa [Expr.isLowered] using lowered
      by_cases bare : qualifier = ""
      · simp [Expr.qualifiedName, bare, named]
      · simp [Expr.qualifiedName, bare]
    | _ => simp [Expr.isLowered] at lowered
  | _ => by_cases bare : qualifier = "" <;> simp [Expr.qualifiedName, bare, filled.symm]

theorem Expr.pointedName_eq_iff {type : Expr} (lowered : type.isLowered = true) {name : String} (filled : name ≠ "") :
    type.pointedName = ("", name) ↔ ∃ outer inner, type = .star outer (.ident inner name) := by
  cases type with
  | star outer inner =>
    rw [Expr.isLowered] at lowered
    rw [Expr.pointedName, Expr.qualifiedName_eq_iff lowered filled, Expr.Denotes, if_pos rfl]
    simp
  | selector span operand other =>
    rw [Expr.pointedName, Expr.qualifiedName_eq_iff lowered filled, Expr.Denotes, if_pos rfl]
    simp
  | _ => simp [Expr.pointedName, filled.symm]

/-- The number of results that a field declares: one for each name, and one if there is no name. -/
def Field.slots (field : Field) : Nat := max 1 field.names.length

/-- The number of results that fields declare. -/
def slotsOf : List Field → Nat
  | [] => 0
  | field :: fields => field.slots + slotsOf fields

theorem slotsOf_append (before after : List Field) : slotsOf (before ++ after) = slotsOf before + slotsOf after := by
  induction before with
  | nil => simp [slotsOf]
  | cons field before ih =>
    rw [List.cons_append, slotsOf, slotsOf, ih]
    omega

/-- The field is one value of a package's type `name`. -/
def Field.IsOne (qualifier name : String) (field : Field) : Prop :=
  field.variadic = false ∧ field.type.Denotes qualifier name

end Syntax

theorem isOfType_iff {framework name : String} {field : Field} (lowered : field.type.isLowered = true)
    (filled : name ≠ "") : isOfType framework name field = true ↔ field.IsOne framework name := by
  rw [isOfType, Bool.and_eq_true, Bool.not_eq_true', beq_iff_eq, Expr.qualifiedName_eq_iff lowered filled]
  rfl

/-! ## The only result of a type -/

/-- Of some fields, one alone passes a test, and it has no more than one name. -/
structure Only (test : Field → Prop) (fields before : List Field) (field : Field) (after : List Field) : Prop where
  eq : fields = before ++ field :: after
  holds : test field
  unshared : field.names.length ≤ 1
  noOther : ∀ other ∈ before ++ after, ¬ test other

section Scan

variable {framework name : String}

/-- All that the scan does with a field. -/
theorem findResultFrom?_cons (alone : Bool) (place : Nat) (found : Option (Nat × Option String)) (field : Field)
    (fields : List Field) :
    findResultFrom? framework name alone place found (field :: fields) =
      if alone = true ∧ (1 < field.names.length ∨ 0 < place) then none
      else if isOfType framework name field then
        if field.names.length ≤ 1 ∧ found = none then
          findResultFrom? framework name alone (place + 1) (some (place + 1, field.names.head?)) fields
        else none
      else findResultFrom? framework name alone (place + field.slots) found fields := by
  obtain ⟨names, type, variadic⟩ := field
  rw [findResultFrom?]
  match names with
  | [] | [_] => cases found <;> simp [Field.names, Field.slots]
  | _ :: _ :: _ => cases alone <;> simp [Field.names, Field.slots]

/-- Other fields move the place. -/
theorem findResultFrom?_append {before : List Field} (others : ∀ field ∈ before, ¬ isOfType framework name field = true)
    (place : Nat) (found : Option (Nat × Option String)) (rest : List Field) :
    findResultFrom? framework name false place found (before ++ rest) =
      findResultFrom? framework name false (place + slotsOf before) found rest := by
  induction before generalizing place with
  | nil => rfl
  | cons field before ih =>
    obtain ⟨other, others⟩ := List.forall_mem_cons.1 others
    rw [List.cons_append, findResultFrom?_cons, if_neg (by simp), if_neg other, ih others, slotsOf, Nat.add_assoc]

/-- Once a result is found, no other may follow. -/
theorem findResultFrom?_some_eq_some_iff {place : Nat} {first answer : Nat × Option String} {fields : List Field} :
    findResultFrom? framework name false place (some first) fields = some answer ↔
      first = answer ∧ ∀ field ∈ fields, ¬ isOfType framework name field = true := by
  induction fields generalizing place with
  | nil => simp [findResultFrom?]
  | cons field fields ih =>
    rw [findResultFrom?_cons, if_neg (by simp), List.forall_mem_cons]
    by_cases matching : isOfType framework name field = true
    · simp [matching]
    · simp [matching, ih]

theorem findResult?_of_only {results before after : List Field} {field : Field}
    (only : Only (isOfType framework name · = true) results before field after) :
    findResult? framework name false results = some (slotsOf before + 1, field.names.head?) := by
  obtain ⟨othersBefore, othersAfter⟩ := List.forall_mem_append.1 only.noOther
  rw [findResult?, only.eq, findResultFrom?_append othersBefore, findResultFrom?_cons, if_neg (by simp),
    if_pos only.holds, if_pos ⟨only.unshared, rfl⟩, findResultFrom?_some_eq_some_iff]
  exact ⟨by rw [Nat.zero_add], othersAfter⟩

theorem exists_only_of_findResult? {results : List Field} {answer : Nat × Option String}
    (found : findResult? framework name false results = some answer) :
    ∃ before field after, Only (isOfType framework name · = true) results before field after := by
  cases first : results.find? (isOfType framework name) with
  | none =>
    have others := List.find?_eq_none.1 first
    have nothing := findResultFrom?_append others 0 none []
    rw [List.append_nil, findResultFrom?] at nothing
    rw [findResult?, nothing] at found
    cases found
  | some field =>
    obtain ⟨matching, before, after, rfl, others⟩ := List.find?_eq_some_iff_append.1 first
    have othersBefore : ∀ other ∈ before, ¬ isOfType framework name other = true := by simpa using others
    rw [findResult?, findResultFrom?_append othersBefore, findResultFrom?_cons, if_neg (by simp),
      if_pos matching] at found
    split at found
    · next unshared =>
      have othersAfter := (findResultFrom?_some_eq_some_iff.1 found).2
      exact ⟨before, field, after, rfl, matching, unshared.1, List.forall_mem_append.2 ⟨othersBefore, othersAfter⟩⟩
    · cases found

/-- A result that has to be alone is the only field. -/
theorem findResult?_alone_isSome_iff {results : List Field} :
    (findResult? framework name true results).isSome = true ↔
      ∃ field, results = [field] ∧ field.names.length ≤ 1 ∧ isOfType framework name field = true := by
  rw [findResult?]
  match results with
  | [] => simp [findResultFrom?]
  | [field] =>
    rw [findResultFrom?_cons]
    by_cases unshared : field.names.length ≤ 1
    · by_cases matching : isOfType framework name field = true <;> simp [unshared, matching, findResultFrom?]
    · simp [unshared, Nat.lt_of_not_le unshared]
  | first :: second :: fields =>
    have refused : ∀ place found, findResultFrom? framework name true (place + 1) found (second :: fields) = none :=
      fun place found => by rw [findResultFrom?_cons, if_pos ⟨rfl, .inr (Nat.succ_pos place)⟩]
    have slots : first.slots = first.slots - 1 + 1 := by
      unfold Field.slots
      omega
    rw [findResultFrom?_cons, slots, ← Nat.add_assoc, refused, refused]
    simp

end Scan

theorem Only.congr {test other : Field → Prop} {fields before after : List Field} {field : Field}
    (same : ∀ field ∈ fields, test field ↔ other field) (only : Only test fields before field after) :
    Only other fields before field after := by
  obtain ⟨rfl, holds, unshared, noOther⟩ := only
  refine ⟨rfl, (same field (by simp)).1 holds, unshared, fun another member passes => ?_⟩
  have inFields : another ∈ before ++ field :: after := by
    rcases List.mem_append.1 member with inBefore | inAfter <;> simp [*]
  exact noOther another member ((same another inFields).2 passes)

/-! ## Receivers -/

/-- The type that a receiver list names: none without a list, and else the one that its only field, of no more than one
name, points to. -/
inductive Received : Option (List Field) → String → Prop
  | function : Received none ""
  | method {field : Field} {outer inner : Span} {name : String} (unshared : field.names.length ≤ 1)
      (points : field.type = .star outer (.ident inner name)) (filled : name ≠ "") : Received (some [field]) name

theorem receiverOf?_singleton (field : Field) :
    receiverOf? (some [field]) =
      if field.names.length ≤ 1 ∧ field.type.pointedName.1 = "" ∧ field.type.pointedName.2 ≠ "" then
        some (field.names.head?, field.type.pointedName.2)
      else none := by
  obtain ⟨names, type, variadic⟩ := field
  obtain ⟨qualifier, pointed, same⟩ : ∃ qualifier pointed, type.pointedName = (qualifier, pointed) := ⟨_, _, rfl⟩
  simp only [receiverOf?, Field.names, Field.type, same]
  rcases names with _ | ⟨name, _ | ⟨second, names⟩⟩ <;> by_cases bare : qualifier = "" <;>
    by_cases filled : pointed = "" <;> simp [bare, filled]

theorem exists_receiverOf?_iff {receiver : Option (List Field)}
    (lowered : ∀ field ∈ receiver.getD [], field.type.isLowered = true) {type : String} :
    (∃ name, receiverOf? receiver = some (name, type)) ↔ Received receiver type := by
  constructor
  · rintro ⟨name, received⟩
    match receiver with
    | none =>
      obtain ⟨rfl, rfl⟩ := Prod.mk.inj (Option.some.inj received)
      exact .function
    | some [field] =>
      rw [receiverOf?_singleton] at received
      obtain ⟨⟨unshared, bare, filled⟩, same⟩ := Option.ite_none_right_eq_some.1 received
      obtain ⟨-, rfl⟩ := Prod.mk.inj (Option.some.inj same)
      have isLowered := lowered field (by simp)
      obtain ⟨outer, inner, points⟩ := (Expr.pointedName_eq_iff isLowered filled).1 (Prod.ext bare rfl)
      exact .method unshared points filled
    | some [] | some (_ :: _ :: _) => cases received
  · rintro (_ | @⟨field, outer, inner, _, unshared, points, filled⟩)
    · exact ⟨none, rfl⟩
    · have pointed : field.type.pointedName = ("", type) := by rw [points, Expr.pointedName, Expr.qualifiedName]
      rw [receiverOf?_singleton, pointed, if_pos ⟨unshared, rfl, filled⟩]
      exact ⟨field.names.head?, rfl⟩

/-! ## Steps -/

/-- All ways in which a declaration is a step, with what is read off it. -/
inductive Recognized (framework : String) (decl : FuncDecl) : Signature → Prop
  | update {receiverName updateArg : Option String} {receiverType contextArg : String} {kind : Kind} {updateIndex : Nat}
      (received : receiverOf? decl.receiver = some (receiverName, receiverType))
      (found : findResult? framework "StateUpdate" false decl.results = some (updateIndex, updateArg))
      (context : (findContext? framework decl.params).getD (.plain, "") = (kind, contextArg)) :
      Recognized framework decl
        { receiverType, receiverName, name := decl.name, kind, contextArg, updateArg, updateIndex }
  | initializer {receiverName : Option String} {receiverType : String}
      (received : receiverOf? decl.receiver = some (receiverName, receiverType))
      (noUpdate : findResult? framework "StateUpdate" false decl.results = none)
      (initializes : isInitializerName decl.name = true ∧
        (findResult? framework "InitFunc" true decl.results).isSome = true) :
      Recognized framework decl { receiverType, receiverName, name := decl.name, kind := .initializer }

theorem recognize?_eq_some_iff {framework : String} {decl : FuncDecl} {signature : Signature} :
    recognize? framework decl = some signature ↔ Recognized framework decl signature := by
  constructor
  · intro recognized
    unfold recognize? at recognized
    cases found : findResult? framework "StateUpdate" false decl.results with
    | some answer =>
      rw [found] at recognized
      obtain ⟨⟨receiverName, receiverType⟩, received, rfl⟩ := Option.map_eq_some_iff.1 recognized
      exact .update received found rfl
    | none =>
      rw [found] at recognized
      obtain ⟨initializes, recognized⟩ := Option.ite_none_right_eq_some.1 recognized
      obtain ⟨⟨receiverName, receiverType⟩, received, rfl⟩ := Option.map_eq_some_iff.1 recognized
      exact .initializer received found (Bool.and_eq_true_iff.1 initializes)
  · intro recognized
    cases recognized with
    | update received found context => simp [recognize?, received, found, context]
    | initializer received noUpdate initializes => simp [recognize?, received, noUpdate, initializes]

theorem Recognized.received {framework : String} {decl : FuncDecl} {signature : Signature}
    (recognized : Recognized framework decl signature)
    (lowered : ∀ field ∈ decl.receiver.getD [], field.type.isLowered = true) :
    Received decl.receiver signature.receiverType := by
  cases recognized with
  | update received => exact (exists_receiverOf?_iff lowered).1 ⟨_, received⟩
  | initializer received => exact (exists_receiverOf?_iff lowered).1 ⟨_, received⟩

/-- The only state update among the results of a function, with the results before and after it. -/
def Updates (framework : String) (decl : FuncDecl) : List Field → Field → List Field → Prop :=
  Only (Field.IsOne framework "StateUpdate") decl.results

/-- A return with an expression for each slot has one for the state update. -/
theorem Updates.lt_length {framework : String} {decl : FuncDecl} {before after : List Field} {field : Field}
    (updates : Updates framework decl before field after) {values : List Expr}
    (each : values.length = slotsOf decl.results) : slotsOf before < values.length := by
  have slot : 1 ≤ field.slots := Nat.le_max_left _ _
  rw [each, updates.eq, slotsOf_append, slotsOf]
  omega

/-- By its name and its only result, the function names the first step of a machine. -/
def Initializes (framework : String) (decl : FuncDecl) : Prop :=
  (decl.name = "GetInitStateFor" ∨ decl.name = "GetSubroutineInitState") ∧
    ∃ field, decl.results = [field] ∧ field.names.length ≤ 1 ∧ field.IsOne framework "InitFunc"

section Steps

variable {framework : String} {decl : FuncDecl} (lowered : ∀ field ∈ decl.results, field.type.isLowered = true)

include lowered

theorem findResult?_of_updates {before after : List Field} {field : Field}
    (updates : Updates framework decl before field after) :
    findResult? framework "StateUpdate" false decl.results = some (slotsOf before + 1, field.names.head?) :=
  findResult?_of_only (Only.congr (fun field member => (isOfType_iff (lowered field member) (by decide)).symm) updates)

theorem exists_updates_of_findResult? {answer : Nat × Option String}
    (found : findResult? framework "StateUpdate" false decl.results = some answer) :
    ∃ before field after, Updates framework decl before field after := by
  obtain ⟨before, field, after, only⟩ := exists_only_of_findResult? found
  exact ⟨before, field, after, only.congr fun field member => isOfType_iff (lowered field member) (by decide)⟩

theorem initializes_iff :
    isInitializerName decl.name = true ∧ (findResult? framework "InitFunc" true decl.results).isSome = true ↔
      Initializes framework decl := by
  rw [isInitializerName, Bool.or_eq_true, beq_iff_eq, beq_iff_eq, findResult?_alone_isSome_iff]
  refine and_congr_right fun _ => exists_congr fun field => and_congr_right fun only => and_congr_right fun _ => ?_
  exact isOfType_iff (lowered field (by simp [only])) (by decide)

/-- The place of the state update comes after the slots of the results before it. -/
theorem Recognized.updateIndex_eq {signature : Signature} (recognized : Recognized framework decl signature)
    {before after : List Field} {field : Field} (updates : Updates framework decl before field after) :
    signature.updateIndex = slotsOf before + 1 := by
  have first := findResult?_of_updates lowered updates
  cases recognized with
  | update received found => exact (Prod.mk.inj (Option.some.inj (found.symm.trans first))).1
  | initializer received noUpdate initializes => cases noUpdate.symm.trans first

/-- Without a state update, a step is an initializer. -/
theorem Recognized.initializer_of_no_update {signature : Signature} (recognized : Recognized framework decl signature)
    (none : ¬ ∃ before field after, Updates framework decl before field after) :
    signature.kind = .initializer ∧ signature.updateIndex = 0 := by
  cases recognized with
  | update received found => exact absurd (exists_updates_of_findResult? lowered found) none
  | initializer received noUpdate initializes => exact ⟨rfl, rfl⟩

theorem exists_recognized_iff (inReceiver : ∀ field ∈ decl.receiver.getD [], field.type.isLowered = true) :
    (∃ signature, Recognized framework decl signature) ↔
      ((∃ before field after, Updates framework decl before field after) ∨ Initializes framework decl) ∧
        ∃ type, Received decl.receiver type := by
  constructor
  · rintro ⟨signature, recognized⟩
    refine ⟨?_, signature.receiverType, recognized.received inReceiver⟩
    cases recognized with
    | update received found => exact .inl (exists_updates_of_findResult? lowered found)
    | initializer received noUpdate initializes => exact .inr ((initializes_iff lowered).1 initializes)
  · rintro ⟨way, type, isReceived⟩
    obtain ⟨receiverName, received⟩ := (exists_receiverOf?_iff inReceiver).2 isReceived
    cases found : findResult? framework "StateUpdate" false decl.results with
    | some answer => exact ⟨_, .update received found rfl⟩
    | none =>
      rcases way with ⟨before, field, after, updates⟩ | initializes
      · rw [findResult?_of_updates lowered updates] at found
        cases found
      · exact ⟨_, .initializer received found ((initializes_iff lowered).2 initializes)⟩

end Steps

/-- The walk reads the update at the place that the signature says. -/
theorem Walk.returned_of_place {scope : Scope} {signature : Signature} {values : List Expr} {place : Nat} {value : Expr}
    (isPlace : signature.updateIndex = place + 1) (isValue : values[place]? = some value) :
    Walk.returned scope signature values = Walk.updateOf scope signature.kind value := by
  rw [Walk.returned, if_neg (by omega), isPlace, Nat.add_sub_cancel, isValue]
  rfl

/-- **The steps among the declared functions.** Where selectors in the types of results and receivers are taken from
names, a function is a step if and only if it has one state update among its results, or names the first step of a
machine, and its receiver list is absent or names a type. That type is the receiver type of the step. Without a state
update the step is an initializer. With one, its place comes after the slots of the results before it, so the walk
reads a return that has an expression for each slot at the slot of the state update. -/
theorem declares_step_iff (framework : String) (decl : FuncDecl)
    (lowered : ∀ field ∈ decl.receiver.getD [] ++ decl.results, field.type.isLowered = true) :
    ((recognize? framework decl).isSome = true ↔
      ((∃ before field after, Updates framework decl before field after) ∨ Initializes framework decl) ∧
        ∃ type, Received decl.receiver type) ∧
    ∀ signature, recognize? framework decl = some signature →
      Received decl.receiver signature.receiverType ∧
      ((¬ ∃ before field after, Updates framework decl before field after) →
        signature.kind = .initializer ∧ signature.updateIndex = 0) ∧
      ∀ before field after, Updates framework decl before field after →
        signature.updateIndex = 1 + slotsOf before ∧
        ∀ (scope : Scope) (values : List Expr), values.length = slotsOf decl.results →
          ∃ value, values[slotsOf before]? = some value ∧
            Walk.returned scope signature values = Walk.updateOf scope signature.kind value := by
  obtain ⟨inReceiver, inResults⟩ := List.forall_mem_append.1 lowered
  refine ⟨?_, fun signature recognized => ?_⟩
  · rw [Option.isSome_iff_exists, ← exists_recognized_iff inResults inReceiver]
    exact exists_congr fun signature => recognize?_eq_some_iff
  · have isStep := recognize?_eq_some_iff.1 recognized
    refine ⟨isStep.received inReceiver, isStep.initializer_of_no_update inResults, fun before field after updates => ?_⟩
    have isPlace := isStep.updateIndex_eq inResults updates
    refine ⟨isPlace.trans (Nat.add_comm _ _), fun scope values each => ?_⟩
    have isValue := List.getElem?_eq_getElem (updates.lt_length each)
    exact ⟨_, isValue, Walk.returned_of_place isPlace isValue⟩

/-- Two results with one type stand before the state update, so it is the third. -/
theorem declares_step_iff_grouped :
    let counts : Field := .mk ["first", "second"] (.ident {} "int") false
    let update : Field := .mk ["update"] (.selector {} (.ident {} "smachine") "StateUpdate") false
    let failure : Field := .mk ["err"] (.ident {} "error") false
    let decl : FuncDecl :=
      { name := "poll", receiver := some [.mk ["s"] (.star {} (.ident {} "Poller")) false], params := []
        results := [counts, update, failure], body := none, span := {} }
    (∀ field ∈ decl.receiver.getD [] ++ decl.results, field.type.isLowered = true) ∧
      ∃ signature, recognize? "smachine" decl = some signature ∧ Received decl.receiver signature.receiverType ∧
        signature.updateIndex = 3 := by
  intro counts update failure decl
  have lowered : ∀ field ∈ decl.receiver.getD [] ++ decl.results, field.type.isLowered = true := by
    simp [decl, counts, update, failure, Field.type, Expr.isLowered]
  have updates : Updates "smachine" decl [counts] update [failure] := by
    refine ⟨rfl, ⟨rfl, ?_⟩, Nat.le_refl 1, ?_⟩
    · simp [update, Field.type, Expr.Denotes]
    · simp [counts, failure, Field.IsOne, Field.type, Expr.Denotes]
  obtain ⟨isStep, read⟩ := declares_step_iff "smachine" decl lowered
  obtain ⟨signature, recognized⟩ := Option.isSome_iff_exists.1
    (isStep.2 ⟨.inl ⟨_, _, _, updates⟩, "Poller", .method (Nat.le_refl 1) rfl (by decide)⟩)
  obtain ⟨received, -, places⟩ := read signature recognized
  exact ⟨lowered, signature, recognized, received, (places _ _ _ updates).1⟩

end StepChart
