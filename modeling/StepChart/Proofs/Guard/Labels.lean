import StepChart.Proofs.Guard.Unbounded
import StepChart.Proofs.Syntax.Excerpts

/-!
# Labels of guards in their places

The label of a guard falls back on an excerpt of the source for an alternative that has no short form. An
alternative in its place has an excerpt, so that only a number out of range can leave its guard without a label
(`hasExcerpts_label`); and one whose names and literals have texts has a short form, so that the label of its guard does
not depend on the source at all (`label_source`).
-/

namespace StepChart.Guard

open Syntax Text

variable {source : String}

/-! ## Excerpts -/

section HasExcerpts

variable {α β : Type}

/-- What the source is asked for is there. -/
def HasExcerpts (answer : Except LabelError α) : Prop := ∀ error, answer ≠ .error (.noExcerpt error)

theorem HasExcerpts.ok (result : α) : HasExcerpts (.ok result) := nofun

theorem HasExcerpts.outOfRange : HasExcerpts (.error .outOfRange : Except LabelError α) := nofun

theorem HasExcerpts.of_error {fault : LabelError} (first : HasExcerpts (.error fault : Except LabelError α)) :
    HasExcerpts (.error fault : Except LabelError β) :=
  fun error isFault => first error (congrArg Except.error (Except.error.inj isFault))

theorem HasExcerpts.checked (number : Int) : HasExcerpts (checked number) := by
  unfold Guard.checked
  split
  · exact .ok number
  · exact .outOfRange

theorem HasExcerpts.bind {answer : Except LabelError α} {next : α → Except LabelError β} (first : HasExcerpts answer)
    (second : ∀ result, HasExcerpts (next result)) : HasExcerpts (answer >>= next) := by
  cases answer with
  | ok result => exact second result
  | error fault =>
    intro error isFault
    cases isFault
    exact first error rfl

theorem HasExcerpts.map {answer : Except LabelError α} (first : HasExcerpts answer) (write : α → β) :
    HasExcerpts (answer.map write) := first.bind fun result => .ok (write result)

theorem HasExcerpts.ok_or_outOfRange {answer : Except LabelError α} (first : HasExcerpts answer) :
    (∃ result, answer = .ok result) ∨ answer = .error .outOfRange := by
  cases answer with
  | ok result => exact .inl ⟨result, rfl⟩
  | error fault =>
    cases fault with
    | noExcerpt error => exact absurd rfl (first error)
    | outOfRange => exact .inr rfl

end HasExcerpts

/-- A span of the source has an excerpt. -/
theorem exists_excerpt {span : Span} (isIn : span.isIn source = true) (limit : Nat) :
    ∃ text, excerpt source span limit = .ok text := by
  simp only [Span.isIn, Bool.and_eq_true, decide_eq_true_eq] at isIn
  obtain ⟨⟨⟨ordered, inText⟩, startCut⟩, stopCut⟩ := isIn
  have isStop : span.stopIn source = span.stop := Nat.min_eq_left inText
  have isStart : span.startIn source = span.start := by rw [Span.startIn, isStop, Nat.min_eq_left ordered]
  have starts : Boundary source (span.startIn source) := isStart ▸ isCut_iff.1 startCut
  have stops : Boundary source (span.stopIn source) := isStop ▸ isCut_iff.1 stopCut
  rcases Nat.lt_or_ge limit (span.stopIn source - span.startIn source) with long | short
  · obtain ⟨kept, cut, isExcerpt, -⟩ := excerpt_eq_cut long starts
    exact ⟨_, isExcerpt⟩
  · obtain ⟨text, isExcerpt, -⟩ := excerpt_eq_slice short starts stops
    exact ⟨text, isExcerpt⟩

/-- The span of an expression is one of the source. -/
def spanIsIn (source : String) (expr : Expr) : Bool := expr.span.isIn source

theorem hasExcerpts_shorten (expr : Expr) (room : Int) : HasExcerpts (shorten expr room) := by
  rw [Unbounded.shorten_eq, Unbounded.Worked.checked]
  split
  · exact .ok _
  · exact .outOfRange

theorem hasExcerpts_alternativeText {alternative : Expr} (every : alternative.all (spanIsIn source) = true) (room : Int) :
    HasExcerpts (alternativeText source alternative room) := by
  refine (hasExcerpts_shorten alternative room).bind fun short => ?_
  split
  · obtain ⟨text, isExcerpt⟩ := exists_excerpt (Expr.all_self every) room.toNat
    rw [isExcerpt]
    exact .ok text
  · exact .ok short

theorem hasExcerpts_extend {alternatives : List Expr} (every : exprsAll (spanIsIn source) alternatives = true) (room : Int)
    (label : String) : HasExcerpts (extend source room label alternatives) := by
  induction alternatives generalizing label with
  | nil => exact .ok label
  | cons alternative rest ih =>
    obtain ⟨inAlternative, inRest⟩ := Bool.and_eq_true_iff.mp every
    refine (HasExcerpts.checked _).bind fun remaining => ?_
    split
    · refine (hasExcerpts_alternativeText inAlternative remaining).bind fun part => ?_
      refine (HasExcerpts.checked _).bind fun most => ?_
      split
      · exact ih inRest _
      · exact .ok _
    · exact .ok _

/-- **Guards whose alternatives are in their places have labels**, unless a number is out of range. -/
theorem hasExcerpts_label {guard : Guard} (every : exprsAll (spanIsIn source) guard.alternatives = true) (room : Nat) :
    HasExcerpts (label source room guard) := by
  obtain ⟨alternatives, inverted⟩ := guard
  cases alternatives with
  | nil => exact .ok ""
  | cons first rest =>
    obtain ⟨inFirst, inRest⟩ := Bool.and_eq_true_iff.mp every
    have unquoted : HasExcerpts (text source (signedRoom room) (first :: rest)) :=
      (hasExcerpts_alternativeText inFirst _).bind fun start => hasExcerpts_extend inRest _ start
    exact unquoted.map _

/-! ## Texts -/

section Text

variable {room : Nat} {guard : Guard} (some : guard.alternatives ≠ [])

include some

/-- The label of a guard with alternatives is its text in the form of a label. -/
theorem label_eq_map :
    label source room guard = (text source (signedRoom room) guard.alternatives).map (bracket guard.inverted) := by
  obtain ⟨alternatives, inverted⟩ := guard
  cases alternatives with
  | nil => exact absurd rfl some
  | cons first rest => rfl

theorem exists_text_of_label {label : String} (labelled : Guard.label source room guard = .ok label) :
    ∃ unquoted, text source (signedRoom room) guard.alternatives = .ok unquoted ∧
      label = bracket guard.inverted unquoted := by
  rw [label_eq_map some] at labelled
  cases isText : text source (signedRoom room) guard.alternatives with
  | error fault =>
    rw [isText] at labelled
    cases labelled
  | ok unquoted =>
    rw [isText] at labelled
    exact ⟨unquoted, rfl, (Except.ok.inj labelled).symm⟩

theorem text_of_label_error {error : LabelError} (failed : label source room guard = .error error) :
    text source (signedRoom room) guard.alternatives = .error error := by
  rw [label_eq_map some] at failed
  cases isText : text source (signedRoom room) guard.alternatives with
  | error fault =>
    rw [isText] at failed
    cases failed
    rfl
  | ok unquoted =>
    rw [isText] at failed
    cases failed

end Text

/-! ## Short forms -/

theorem append_ne_empty_left {first : String} (written : first ≠ "") (second : String) : first ++ second ≠ "" :=
  fun isEmpty => written (String.append_eq_empty_iff.mp isEmpty).1

theorem append_ne_empty_right (first : String) {second : String} (written : second ≠ "") : first ++ second ≠ "" :=
  fun isEmpty => written (String.append_eq_empty_iff.mp isEmpty).2

/-- An expression whose names and literals have texts has a short form, however little room there is. -/
theorem Unbounded.shorten_ne_empty (expr : Expr) (every : expr.all Expr.isWorded = true) (room : Int) :
    (Unbounded.shorten expr room).result ≠ "" := by
  induction expr using layout_induction generalizing room with
  | fixed isFixed =>
    rw [shorten_of_fixed isFixed]
    exact isFixed.ne_empty every
  | wrapped wraps ih =>
    rw [result_of_wraps wraps]
    exact append_ne_empty_left (append_ne_empty_right _ (ih (wraps.all every) _)) _
  | selector span operand field ih =>
    rw [result_selector]
    split
    · exact append_ne_empty_left (by decide) field
    · exact append_ne_empty_left (append_ne_empty_right _ (by decide)) field
  | binary span op left right ihLeft ihRight =>
    have written : tailOf op right room ≠ "" := append_ne_empty_right op (ihRight (Expr.all_binary every).2 _)
    rw [result_binary]
    split
    · exact append_ne_empty_right _ written
    · exact append_ne_empty_right _ written

theorem alternativeText_source {alternative : Expr} (every : alternative.all Expr.isWorded = true) (room : Int)
    (other : String) : alternativeText source alternative room = alternativeText other alternative room := by
  unfold alternativeText
  cases isShort : shorten alternative room with
  | error fault => rfl
  | ok short =>
    rw [Unbounded.shorten_eq, Unbounded.Worked.checked_eq_ok_iff] at isShort
    have written : short.isEmpty = false := by
      rw [← isShort.2]
      simpa using Unbounded.shorten_ne_empty alternative every room
    simp only [bind, Except.bind, written]
    rfl

theorem extend_source {alternatives : List Expr} (every : exprsAll Expr.isWorded alternatives = true) (room : Int)
    (label other : String) : extend source room label alternatives = extend other room label alternatives := by
  induction alternatives generalizing label with
  | nil => rfl
  | cons alternative rest ih =>
    obtain ⟨inAlternative, inRest⟩ := Bool.and_eq_true_iff.mp every
    simp only [extend, alternativeText_source inAlternative _ other, ih inRest]

/-- **Guards with texts have the same label whatever the source.** -/
theorem label_source {guard : Guard} (every : exprsAll Expr.isWorded guard.alternatives = true) (room : Nat)
    (other : String) : label source room guard = label other room guard := by
  obtain ⟨alternatives, inverted⟩ := guard
  cases alternatives with
  | nil => rfl
  | cons first rest =>
    obtain ⟨inFirst, inRest⟩ := Bool.and_eq_true_iff.mp every
    simp only [label, text, alternativeText_source inFirst _ other, extend_source inRest _ _ other]

end StepChart.Guard
