/-!
# Searches and results

Where a search in a list ends: at the first element it looks for, with none before it. Tables are lists of keys and
values; to take a key out of a table changes nothing for the other keys. What was made of a result was made of one that
was there.
-/

namespace StepChart

/-! ## First elements -/

/-- Where the first element that passes `q` is searched for as far as `p` holds, it is the first of all, and `p` holds
before it. -/
theorem find?_takeWhile_eq_some_iff {α : Type} {p q : α → Bool} {list : List α} {found : α} :
    (list.takeWhile p).find? q = some found ↔
      ∃ near far, list = near ++ found :: far ∧ (∀ between ∈ near, p between = true ∧ q between = false) ∧
        p found = true ∧ q found = true := by
  induction list with
  | nil => simp
  | cons first rest ih =>
    rw [List.takeWhile_cons]
    constructor
    · intro search
      split at search
      · next passes =>
        rw [List.find?_cons] at search
        split at search
        · next isIt =>
          cases search
          exact ⟨[], rest, rfl, List.forall_mem_nil _, passes, isIt⟩
        · next isNot =>
          obtain ⟨near, far, rfl, before, holds⟩ := ih.1 search
          exact ⟨first :: near, far, rfl, List.forall_mem_cons.2 ⟨⟨passes, isNot⟩, before⟩, holds⟩
      · cases search
    · rintro ⟨near, far, whole, before, holds⟩
      cases near with
      | nil =>
        cases whole
        rw [if_pos holds.1, List.find?_cons, holds.2]
      | cons between near =>
        cases whole
        rw [List.forall_mem_cons] at before
        rw [if_pos before.1.1, List.find?_cons, before.1.2]
        exact ih.2 ⟨near, far, rfl, before.2, holds⟩

/-- The first value that is found is at some place, with none at the places before it. -/
theorem findSome?_eq_some_iff_getElem? {α β : Type} {f : α → Option β} {list : List α} {value : β} :
    list.findSome? f = some value ↔ ∃ place : Nat, (∃ x, list[place]? = some x ∧ f x = some value) ∧
      ∀ earlier < place, ∀ other, ¬ ∃ x, list[earlier]? = some x ∧ f x = some other := by
  induction list with
  | nil => simp
  | cons first rest ih =>
    rw [List.findSome?_cons]
    split
    · next found isFound =>
      constructor
      · rintro ⟨⟩
        exact ⟨0, ⟨first, rfl, isFound⟩, fun earlier isEarlier => absurd isEarlier (Nat.not_lt_zero _)⟩
      · rintro ⟨place, ⟨x, isHere, isValue⟩, none⟩
        cases place with
        | zero =>
          obtain rfl := Option.some.inj isHere
          exact isFound.symm.trans isValue
        | succ place => exact absurd ⟨first, rfl, isFound⟩ (none 0 (Nat.succ_pos _) found)
    · next isNone =>
      -- nothing is found in front, so the places of the rest count, each one further
      rw [ih]
      constructor
      · rintro ⟨place, isHere, none⟩
        refine ⟨place + 1, isHere, fun earlier isEarlier other => ?_⟩
        cases earlier with
        | zero =>
          rintro ⟨_, ⟨⟩, isValue⟩
          exact Option.some_ne_none _ (isValue.symm.trans isNone)
        | succ earlier => exact none earlier (Nat.lt_of_succ_lt_succ isEarlier) other
      · rintro ⟨place, isHere, none⟩
        cases place with
        | zero =>
          obtain ⟨_, ⟨⟩, isValue⟩ := isHere
          exact (Option.some_ne_none _ (isValue.symm.trans isNone)).elim
        | succ place =>
          exact ⟨place, isHere, fun earlier isEarlier => none (earlier + 1) (Nat.succ_lt_succ isEarlier)⟩

/-! ## Tables -/

section Lookup

variable {α β : Type} [BEq α] [LawfulBEq α] {key other : α}

theorem lookup_filter_ne (different : other ≠ key) (table : List (α × β)) :
    (table.filter (·.1 != key)).lookup other = table.lookup other := by
  induction table with
  | nil => rfl
  | cons entry table ih =>
    obtain ⟨first, value⟩ := entry
    by_cases isKey : first = key
    · subst isKey
      rw [List.filter_cons_of_neg (by simp), List.lookup_cons, beq_false_of_ne different, ih]
    · rw [List.filter_cons_of_pos (by simpa using isKey), List.lookup_cons, List.lookup_cons, ih]

theorem lookup_filter_self (key : α) (table : List (α × β)) : (table.filter (·.1 != key)).lookup key = none := by
  rw [List.lookup_eq_none_iff]
  intro entry member
  have differs : entry.1 ≠ key := by simpa using (List.mem_filter.1 member).2
  exact bne_iff_ne.2 differs.symm

end Lookup

/-! ## Results -/

theorem exists_of_map_eq_ok {ε α β : Type} {f : α → β} {result : Except ε α} {value : β}
    (mapped : result.map f = .ok value) : ∃ before, result = .ok before ∧ f before = value := by
  cases result with
  | error fault => cases mapped
  | ok before => exact ⟨before, rfl, Except.ok.inj mapped⟩

end StepChart
