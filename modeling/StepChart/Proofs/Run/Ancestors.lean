import StepChart.Path
import StepChart.Proofs.Text.Pieces

/-!
# Directories above a directory

The directories that are searched for settings are the working directory and those above it. `Path.above?` counts them by
their height, and `above?_absolute` says which they are for a path from the root: each step up drops the last name, until
the root is reached. A file in such a directory is at the path with its name added (`join_absolute`).
-/

namespace StepChart.Path

/-- The directory a number of steps above a path. -/
def above? : (height : Nat) → (path : String) → Option String
  | 0, path => some path
  | height + 1, path => (parent? path).bind (above? height)

/-- The ancestors of a path are the directories above it, from the path itself on. -/
theorem getElem?_ancestors (count height : Nat) (path : String) :
    (ancestors count path)[height]? = if height < count then above? height path else none := by
  induction count generalizing height path with
  | zero => rfl
  | succ count ih =>
    rw [ancestors]
    cases height with
    | zero => rfl
    | succ height =>
      simp only [List.getElem?_cons_succ, Nat.add_lt_add_iff_right, above?]
      cases parent? path with
      | none => simp
      | some parent => exact ih height parent

/-! ## Paths from the root -/

/-- The path from the root along some names. -/
def absolute (names : List String) : String := "/" ++ "/".intercalate names

/-- A name between two slashes of a path. Empty names and single dots name nothing. -/
structure IsName (name : String) : Prop where
  nonempty : name ≠ ""
  notDot : name ≠ "."
  noSlash : '/' ∉ name.toList

/-- What a path read from its end has after its last name and the slash before it. -/
def beneath (names : List String) : List Char := if names = [] then [] else (absolute names).toList.reverse

theorem reverse_absolute_concat (names : List String) (name : String) :
    (absolute (names ++ [name])).toList.reverse = name.toList.reverse ++ '/' :: beneath names := by
  unfold absolute beneath
  split
  · next none =>
    subst none
    simp
  · next some =>
    rw [Text.intercalate_concat "/" some]
    simp [absolute]

/-- A name at the end of a path is not passed over. -/
theorem passTrailing_name {name : String} (isName : IsName name) (rest : List Char) :
    passTrailing (name.toList.reverse ++ rest) = name.toList.reverse ++ rest := by
  have noSlash : '/' ∉ name.toList.reverse := by simpa using isName.noSlash
  have notDot : name.toList.reverse ≠ ['.'] := fun dot =>
    isName.notDot (String.toList_injective (by simpa using congrArg List.reverse dot))
  have nonempty : name.toList.reverse ≠ [] := by simpa using isName.nonempty
  generalize name.toList.reverse = reversed at noSlash notDot nonempty
  unfold passTrailing
  split
  · next starts =>
    cases reversed with
    | nil => exact absurd rfl nonempty
    | cons c cs => exact absurd (by rw [(List.cons.inj starts).1]; exact List.mem_cons_self) noSlash
  · next starts =>
    rcases reversed with _ | ⟨c, _ | ⟨d, cs⟩⟩
    · exact absurd rfl nonempty
    · exact absurd (congrArg (· :: []) (List.cons.inj starts).1) notDot
    · have isSlash : d = '/' := (List.cons.inj (List.cons.inj starts).2).1
      exact absurd (by simp [isSlash]) noSlash
  · rfl

theorem parent?_root : parent? (absolute []) = none := by decide

theorem parent?_absolute {names : List String} {name : String} (isName : IsName name)
    (areNames : ∀ other ∈ names, IsName other) : parent? (absolute (names ++ [name])) = some (absolute names) := by
  have reversed : fromEnd (absolute (names ++ [name])) = name.toList.reverse ++ '/' :: beneath names := by
    rw [fromEnd, reverse_absolute_concat, passTrailing_name isName]
  have dropped : (name.toList.reverse ++ '/' :: beneath names).dropWhile (· ≠ '/') = '/' :: beneath names := by
    rw [List.dropWhile_append_of_pos]
    · rfl
    · intro c isChar
      have other : c ≠ '/' := fun same => isName.noSlash (same ▸ List.mem_reverse.1 isChar)
      simpa using other
  have passed : passTrailing ('/' :: beneath names) = beneath names := by
    rw [passTrailing]
    rcases List.eq_nil_or_concat' names with rfl | ⟨front, last, rfl⟩
    · rfl
    · rw [beneath, if_neg (List.concat_ne_nil _ _), reverse_absolute_concat,
        passTrailing_name (areNames last (by simp))]
  unfold parent?
  simp only [reversed, dropped, passed]
  rw [if_neg (by simp)]
  rcases List.eq_nil_or_concat' names with rfl | ⟨front, last, rfl⟩
  · have rooted : isAbsolute (absolute ([] ++ [name])) = true := by simp [isAbsolute, absolute]
    rw [beneath, if_pos rfl, rooted]
    rfl
  · rw [beneath, if_neg (List.concat_ne_nil _ _)]
    split
    · next empty => simp [absolute] at empty
    · rw [List.reverse_reverse, String.ofList_toList]

/-- **A step up drops the last name.** -/
theorem above?_absolute {names : List String} (areNames : ∀ name ∈ names, IsName name) (height : Nat) :
    above? height (absolute names) =
      if height ≤ names.length then some (absolute (names.take (names.length - height))) else none := by
  induction height generalizing names with
  | zero => simp [above?]
  | succ height ih =>
    rw [above?]
    rcases List.eq_nil_or_concat' names with rfl | ⟨front, last, rfl⟩
    · rw [parent?_root]
      rfl
    · have inFront : ∀ name ∈ front, IsName name := fun name member => areNames name (by simp [member])
      rw [parent?_absolute (areNames last (by simp)) inFront, Option.bind_some, ih inFront]
      have length : (front ++ [last]).length = front.length + 1 := by simp
      rw [length, Nat.add_sub_add_right, List.take_append_of_le_length (by omega)]
      simp only [Nat.add_le_add_iff_right]

/-- A file in a directory has its name after those of the directory. -/
theorem join_absolute {names : List String} (areNames : ∀ name ∈ names, IsName name) (file : String) :
    join (absolute names) file = absolute (names ++ [file]) := by
  unfold join
  rcases List.eq_nil_or_concat' names with rfl | ⟨front, last, rfl⟩
  · have rooted : ((absolute []).isEmpty || Text.endsWith "/" (absolute [])) = true := by decide
    rw [if_pos rooted]
    simp [absolute]
  · have isName := areNames last (by simp)
    have noSlash : ¬ ((absolute (front ++ [last])).isEmpty || Text.endsWith "/" (absolute (front ++ [last]))) = true := by
      have filled : absolute (front ++ [last]) ≠ "" := by simp [absolute]
      rw [Bool.or_eq_true, String.isEmpty_iff, Text.endsWith, List.isSuffixOf_iff_suffix, ← List.reverse_prefix,
        reverse_absolute_concat]
      rintro (empty | starts)
      · exact filled empty
      · -- the last character of the path is that of its last name
        cases reversed : last.toList.reverse with
        | nil => exact isName.nonempty (by simpa using reversed)
        | cons c cs =>
          rw [reversed] at starts
          have isSlash : '/' = c := (List.cons_prefix_cons.1 starts).1
          exact isName.noSlash (List.mem_reverse.1 (reversed ▸ isSlash ▸ List.mem_cons_self))
    rw [if_neg noSlash, absolute, absolute, Text.intercalate_concat "/" (List.concat_ne_nil _ _)]
    simp [String.append_assoc]

end StepChart.Path
