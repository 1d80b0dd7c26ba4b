import StepChart.Proofs.Machine.Visits

/-!
# What a name refers to

A name refers to the longest registered name among itself and what follows its dots. It is found by a loop that cuts the
name at its first dot, over and over, until what is left is registered (`Search`); each round leaves one dot less, so the
loop ends. A step that is registered later can only bring in a longer name to refer to (`name_lookup`).
-/

namespace StepChart

/-- The text is the name itself, or what follows one of its dots. -/
def IsTail (name tail : String) : Prop := tail = name ∨ ∃ before, name = before ++ "." ++ tail

theorem IsTail.isSuffix {name tail : String} (isTail : IsTail name tail) : tail.toList <:+ name.toList := by
  rcases isTail with rfl | ⟨before, rfl⟩
  · exact List.suffix_refl _
  · rw [String.toList_append]
    exact List.suffix_append _ _

/-- Tails of one name that have the same length are the same. -/
theorem IsTail.eq_of_length_eq {name first second : String} (isTail : IsTail name first) (isTailToo : IsTail name second)
    (same : first.length = second.length) : first = second := by
  have lengths : first.toList.length = second.toList.length := by rwa [String.length_toList, String.length_toList]
  have within := List.suffix_of_suffix_length_le isTail.isSuffix isTailToo.isSuffix (Nat.le_of_eq lengths)
  exact String.toList_injective (within.eq_of_length lengths)

namespace Machine

variable {machine : Machine} {name : String}

/-! ## Tails -/

theorem mem_afterDots_iff {cs tail : List Char} : tail ∈ afterDots cs ↔ ∃ before, cs = before ++ '.' :: tail := by
  induction cs with
  | nil => simp [afterDots]
  | cons c cs ih =>
    have cons_iff : (∃ before, c :: cs = before ++ '.' :: tail) ↔ c = '.' ∧ cs = tail ∨ tail ∈ afterDots cs := by
      rw [ih]
      constructor
      · rintro ⟨_ | ⟨first, before⟩, split⟩
        · exact .inl (List.cons.inj split)
        · exact .inr ⟨before, (List.cons.inj split).2⟩
      · rintro (⟨rfl, rfl⟩ | ⟨before, rfl⟩)
        · exact ⟨[], rfl⟩
        · exact ⟨c :: before, rfl⟩
    rw [cons_iff, afterDots]
    split
    · next isDot => simp [isDot, eq_comm]
    · next other => simp [other]

/-- What follows a dot is shorter than what follows the dots before it. -/
theorem pairwise_afterDots (cs : List Char) :
    (cs :: afterDots cs).Pairwise fun longer shorter => shorter.length < longer.length := by
  induction cs with
  | nil => exact List.pairwise_singleton _ _
  | cons c cs ih =>
    refine List.pairwise_cons.2 ⟨fun tail isTail => ?_, ?_⟩
    · obtain ⟨before, split⟩ := mem_afterDots_iff.1 isTail
      rw [split, List.length_append, List.length_cons]
      omega
    · rw [afterDots]
      split
      · exact ih
      · exact (List.pairwise_cons.1 ih).2

theorem afterDots_append {before rest : List Char} (first : '.' ∉ before) :
    afterDots (before ++ '.' :: rest) = rest :: afterDots rest := by
  induction before with
  | nil => rfl
  | cons c before ih =>
    obtain ⟨other, firstRest⟩ := not_or.1 (mt List.mem_cons.2 first)
    rw [List.cons_append, afterDots, if_neg (Ne.symm other), ih firstRest]

/-- The name and what follows its dots, longest first. -/
def tails (name : String) : List String := (name.toList :: afterDots name.toList).map String.ofList

theorem mem_tails_iff {tail : String} : tail ∈ tails name ↔ IsTail name tail := by
  rw [tails, List.map_cons, String.ofList_toList, List.mem_cons]
  refine or_congr_right ?_
  simp only [List.mem_map, mem_afterDots_iff]
  constructor
  · rintro ⟨_, ⟨before, split⟩, rfl⟩
    refine ⟨String.ofList before, String.toList_injective ?_⟩
    simp [split]
  · rintro ⟨before, rfl⟩
    exact ⟨tail.toList, ⟨before.toList, by simp⟩, String.ofList_toList⟩

theorem pairwise_tails (name : String) : (tails name).Pairwise fun longer shorter => shorter.length < longer.length := by
  rw [tails, List.pairwise_map]
  simpa only [String.length_ofList] using pairwise_afterDots name.toList

theorem key?_eq_find? : machine.key? name = (tails name).find? fun tail => !tail.isEmpty && machine.has tail := rfl

/-! ## The longest registered tail -/

/-- A registered name that a name can refer to. -/
structure CanMean (machine : Machine) (name key : String) : Prop where
  registered : key ∈ machine.names
  nonempty : key ≠ ""
  isTail : IsTail name key

theorem canMean_iff {key : String} :
    machine.CanMean name key ↔ key ∈ tails name ∧ (!key.isEmpty && machine.has key) = true := by
  rw [mem_tails_iff, Bool.and_eq_true, has_iff, Bool.not_eq_true', ← Bool.not_eq_true, String.isEmpty_iff]
  exact ⟨fun ⟨registered, nonempty, isTail⟩ => ⟨isTail, nonempty, registered⟩,
    fun ⟨isTail, nonempty, registered⟩ => ⟨registered, nonempty, isTail⟩⟩

theorem key?_eq_none_iff : machine.key? name = none ↔ ∀ key, ¬ machine.CanMean name key := by
  simp only [key?_eq_find?, List.find?_eq_none, canMean_iff, not_and]

theorem canMean_of_key? {key : String} (found : machine.key? name = some key) : machine.CanMean name key := by
  rw [key?_eq_find?] at found
  have accepted := List.find?_some found
  exact canMean_iff.2 ⟨List.mem_of_find?_eq_some found, accepted⟩

/-- A name refers to the longest name that it can refer to. -/
theorem length_le_of_key? {key other : String} (found : machine.key? name = some key)
    (canMean : machine.CanMean name other) : other.length ≤ key.length := by
  obtain ⟨isTail, accepted⟩ := canMean_iff.1 canMean
  obtain ⟨-, longer, shorter, split, refused⟩ := List.find?_eq_some_iff_append.1 (key?_eq_find?.symm.trans found)
  have decreasing := pairwise_tails name
  rw [split] at isTail decreasing
  rcases List.mem_append.1 isTail with isLonger | isRest
  · have notAccepted := refused other isLonger
    rw [accepted] at notAccepted
    cases notAccepted
  · rcases List.mem_cons.1 isRest with rfl | isShorter
    · exact Nat.le_refl _
    · exact Nat.le_of_lt ((List.pairwise_cons.1 (List.pairwise_append.1 decreasing).2.1).1 other isShorter)

theorem key?_eq_some_iff {key : String} :
    machine.key? name = some key ↔
      machine.CanMean name key ∧ ∀ other, machine.CanMean name other → other.length ≤ key.length := by
  constructor
  · exact fun found => ⟨canMean_of_key? found, fun other => length_le_of_key? found⟩
  · rintro ⟨canMean, longest⟩
    cases found : machine.key? name with
    | none => exact absurd canMean (key?_eq_none_iff.1 found key)
    | some other =>
      have meant := canMean_of_key? found
      rw [IsTail.eq_of_length_eq meant.isTail canMean.isTail
        (Nat.le_antisymm (longest other meant) (length_le_of_key? found canMean))]

/-! ## The search -/

/-- The search as a loop that has come to `candidate`: it ends with a candidate that is registered, and with nothing if
the candidate is empty or has no dot; otherwise it goes on with what follows the first dot. -/
inductive Search (machine : Machine) : (rounds : Nat) → (candidate : String) → (answer : Option String) → Prop
  | exhausted : Search machine 0 "" none
  | found {candidate : String} (nonempty : candidate ≠ "") (registered : candidate ∈ machine.names) :
    Search machine 1 candidate (some candidate)
  | dotless {candidate : String} (nonempty : candidate ≠ "") (unknown : candidate ∉ machine.names)
    (noDot : '.' ∉ candidate.toList) : Search machine 1 candidate none
  | onward {before rest : String} {rounds : Nat} {answer : Option String} (unknown : before ++ "." ++ rest ∉ machine.names)
    (first : '.' ∉ before.toList) (search : Search machine rounds rest answer) :
    Search machine (rounds + 1) (before ++ "." ++ rest) answer

theorem tails_append {before rest : String} (first : '.' ∉ before.toList) :
    tails (before ++ "." ++ rest) = (before ++ "." ++ rest) :: tails rest := by
  have dotted : (before ++ "." ++ rest).toList = before.toList ++ '.' :: rest.toList := by simp
  rw [tails, List.map_cons, String.ofList_toList, dotted, afterDots_append first, tails]

/-- The loop ends with the name that is referred to. -/
theorem Search.answer_eq {rounds : Nat} {answer : Option String} (search : machine.Search rounds name answer) :
    answer = machine.key? name := by
  induction search with
  | exhausted => rfl
  | found nonempty registered => exact (key?_of_mem registered nonempty).symm
  | dotless nonempty unknown noDot =>
    refine (key?_eq_none_iff.2 fun key canMean => ?_).symm
    rcases canMean.isTail with rfl | ⟨before, rfl⟩
    · exact unknown canMean.registered
    · simp at noDot
  | onward unknown first search ih =>
    rw [ih, key?_eq_find?, key?_eq_find?, tails_append first, List.find?_cons_of_neg]
    rw [Bool.and_eq_true, has_iff]
    exact fun accepted => unknown accepted.2

/-- The loop ends for every name, after at most one round for each dot and one more. -/
theorem exists_search (machine : Machine) (name : String) :
    ∃ rounds ≤ name.toList.count '.' + 1, ∃ answer, machine.Search rounds name answer := by
  -- what is left after a round has one dot less
  induction dots : name.toList.count '.' generalizing name with
  | zero =>
    have noDot : '.' ∉ name.toList := List.count_eq_zero.1 dots
    by_cases empty : name = ""
    · subst empty
      exact ⟨0, Nat.zero_le _, none, .exhausted⟩
    · by_cases registered : name ∈ machine.names
      · exact ⟨1, Nat.le_refl _, some name, .found empty registered⟩
      · exact ⟨1, Nat.le_refl _, none, .dotless empty registered noDot⟩
  | succ count ih =>
    have isDot : '.' ∈ name.toList := List.count_pos_iff.1 (by omega)
    obtain ⟨before, rest, split, first⟩ := List.eq_append_cons_of_mem isDot
    obtain rfl : name = String.ofList before ++ "." ++ String.ofList rest :=
      String.toList_injective (by simp [split])
    by_cases registered : String.ofList before ++ "." ++ String.ofList rest ∈ machine.names
    · refine ⟨1, by omega, _, .found (fun empty => ?_) registered⟩
      rw [empty] at isDot
      cases isDot
    · have fewer : (String.ofList rest).toList.count '.' = count := by
        rw [split, List.count_append, List.count_cons_self, List.count_eq_zero.2 first] at dots
        rw [String.toList_ofList]
        omega
      obtain ⟨rounds, few, answer, search⟩ := ih _ fewer
      exact ⟨rounds + 1, by omega, answer, .onward registered (by rwa [String.toList_ofList]) search⟩

/-! ## Later registrations -/

theorem mem_names_addGiven {key : String} (member : key ∈ machine.names) (given : List (Bool × Step)) :
    key ∈ (machine.addGiven given).names := by
  induction given generalizing machine with
  | nil => exact member
  | cons step given ih => exact ih (mem_names_add_of_mem member step.1 step.2)

/-- What can be referred to can be referred to later. -/
theorem CanMean.addGiven {key : String} (canMean : machine.CanMean name key) (given : List (Bool × Step)) :
    (machine.addGiven given).CanMean name key :=
  ⟨mem_names_addGiven canMean.registered given, canMean.nonempty, canMean.isTail⟩

/-- **A name refers to the longest registered name among itself and what follows its dots**, and to nothing if there is
none. A loop that cuts the name at its first dots finds it and always ends. Whatever is registered later, the name goes on
to refer to the same, or refers to a longer name, or to some name where it referred to none. -/
theorem name_lookup (machine : Machine) (name : String) :
    (∀ key, machine.key? name = some key ↔
      machine.CanMean name key ∧ ∀ other, machine.CanMean name other → other.length ≤ key.length) ∧
    (machine.key? name = none ↔ ∀ key, ¬ machine.CanMean name key) ∧
    (∃ rounds ≤ name.toList.count '.' + 1, machine.Search rounds name (machine.key? name)) ∧
    (∀ rounds answer, machine.Search rounds name answer → answer = machine.key? name) ∧
    (∀ key, machine.key? name = some key → key.toList <:+ name.toList) ∧
    ∀ given, (machine.addGiven given).key? name = machine.key? name ∨
      ∃ key, (machine.addGiven given).key? name = some key ∧
        ∀ old, machine.key? name = some old → old.length < key.length := by
  refine ⟨fun key => key?_eq_some_iff, key?_eq_none_iff, ?_, fun rounds answer search => search.answer_eq,
    fun key found => (canMean_of_key? found).isTail.isSuffix, fun given => ?_⟩
  · obtain ⟨rounds, few, answer, search⟩ := exists_search machine name
    exact ⟨rounds, few, search.answer_eq ▸ search⟩
  · cases found : machine.key? name with
    | none =>
      cases later : (machine.addGiven given).key? name with
      | none => exact .inl rfl
      | some key => exact .inr ⟨key, rfl, fun old isOld => by cases isOld⟩
    | some old =>
      have still := (canMean_of_key? found).addGiven given
      cases later : (machine.addGiven given).key? name with
      | none => exact absurd still (key?_eq_none_iff.1 later old)
      | some key =>
        rcases Nat.eq_or_lt_of_le (length_le_of_key? later still) with same | longer
        · exact .inl (congrArg some ((canMean_of_key? later).isTail.eq_of_length_eq still.isTail same.symm))
        · exact .inr ⟨key, rfl, fun other isOld => Option.some.inj isOld ▸ longer⟩

/-- Empty parts count: what follows the first of two dots starts with the second. -/
example :
    let step (name : String) : Bool × Step := (false, { signature := { name, kind := .execution } })
    let few : Machine := Machine.addGiven { receiverType := "", output := "", sequence := 0 } [step "b"]
    let more := few.addGiven [step ".b"]
    ["a..b", "a.b.", ".", ""].map few.key? = [some "b", none, none, none] ∧
      ["a..b", "a.b.", ".", ""].map more.key? = [some ".b", none, none, none] := by
  decide +kernel

end Machine

end StepChart
