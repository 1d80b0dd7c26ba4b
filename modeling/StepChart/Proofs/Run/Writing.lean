import StepChart.Proofs.Basic
import StepChart.Run.FileSystem

/-!
# Writing files

A write changes what stands at one place, and no directory, so that a path leads to the same place before and after.
Hence it can be said beforehand which paths can be written, and writing all of them leaves at each place the last text
written there and everything else as it was (`deliver_wrote`).
-/

namespace StepChart

namespace FileSystem

variable {files others : FileSystem}

/-! ## Places -/

/-- The same directories, seen from the same one. -/
structure SameDirectories (files others : FileSystem) : Prop where
  working : others.working = files.working
  isDirectory : ∀ place, others.isDirectory place = files.isDirectory place

theorem SameDirectories.refl (files : FileSystem) : SameDirectories files files :=
  ⟨rfl, fun _ => rfl⟩

theorem SameDirectories.trans {last : FileSystem} (first : SameDirectories files others)
    (second : SameDirectories others last) : SameDirectories files last :=
  ⟨second.working.trans first.working, fun place => (second.isDirectory place).trans (first.isDirectory place)⟩

theorem SameDirectories.placeFrom? (same : SameDirectories files others) (place parts : List String) :
    others.placeFrom? place parts = files.placeFrom? place parts := by
  induction parts generalizing place with
  | nil => rfl
  | cons part rest ih => simp only [FileSystem.placeFrom?, same.isDirectory, ih]

/-- **Paths lead to the same places** where the directories are the same. -/
theorem SameDirectories.place? (same : SameDirectories files others) (path : String) :
    others.place? path = files.place? path := by
  unfold FileSystem.place?
  rw [same.working, same.placeFrom?]

/-! ## Entries -/

/-- Below the root, what is put at a place is found there, and the other places are as before. -/
theorem entry?_put {place : List String} (below : place ≠ []) (entry : Entry) (other : List String) :
    entry? (files.put place entry) other = if other = place then some entry else files.entry? other := by
  unfold entry? put
  by_cases isPlace : other = place
  · subst isPlace
    simp [below]
  · have skips : (other == place) = false := beq_false_of_ne isPlace
    rw [if_neg isPlace, List.lookup_cons, skips, lookup_filter_ne isPlace]

theorem ne_nil_of_not_isDirectory {place : List String} (notDirectory : files.isDirectory place = false) :
    place ≠ [] := by
  rintro rfl
  cases notDirectory

/-! ## One write -/

/-- What a write comes to: the text stands at the place that the path leads to, and nothing else has changed. -/
theorem write?_eq_some {path content : String} {after : FileSystem} (written : files.write? path content = some after) :
    ∃ place, files.place? path = some place ∧ files.isDirectory place = false ∧ SameDirectories files after ∧
      ∀ other, after.entry? other = if other = place then some (.file content.toUTF8) else files.entry? other := by
  unfold write? at written
  obtain ⟨place, leads, isPut⟩ := Option.bind_eq_some_iff.1 written
  split at isPut
  · cases isPut
  · next notDirectory =>
    rw [Bool.not_eq_true] at notDirectory
    cases isPut
    have entries : ∀ other, entry? (files.put place (.file content.toUTF8)) other =
        if other = place then some (.file content.toUTF8) else files.entry? other :=
      entry?_put (ne_nil_of_not_isDirectory notDirectory) (.file content.toUTF8)
    refine ⟨place, leads, notDirectory, ⟨rfl, fun other => ?_⟩, entries⟩
    by_cases isPlace : other = place
    · subst isPlace
      rw [notDirectory, isDirectory, entries, if_pos rfl]
    · rw [isDirectory, entries, if_neg isPlace, isDirectory]

/-- Text that stands at the place of a path can be read. -/
theorem read?_of_entry? {path content : String} {place : List String} (leads : files.place? path = some place)
    (stands : files.entry? place = some (.file content.toUTF8)) : files.read? path = some content := by
  unfold read?
  rw [leads, Option.bind_some, stands]
  exact dif_pos content.isValidUTF8

/-! ## Writing one file after the other -/

/-- **What writes come to**, each of a text to a path: the last text written to a place is read there, and all other
places are as before. -/
structure Wrote (files : FileSystem) (writes : List (String × String)) (after : FileSystem) : Prop where
  same : SameDirectories files after
  untouched : ∀ place, (∀ write ∈ writes, files.place? write.1 ≠ some place) → after.entry? place = files.entry? place
  written : ∀ earlier path content later, writes = earlier ++ (path, content) :: later →
    (∀ other ∈ later, files.place? other.1 ≠ files.place? path) → after.read? path = some content

theorem Wrote.cons {path content : String} {next after : FileSystem} {rest : List (String × String)}
    (first : files.write? path content = some next) (wrote : next.Wrote rest after) :
    files.Wrote ((path, content) :: rest) after := by
  obtain ⟨place, leads, -, same, entries⟩ := write?_eq_some first
  constructor
  · exact same.trans wrote.same
  · intro other elsewhere
    obtain ⟨notFirst, notRest⟩ := List.forall_mem_cons.1 elsewhere
    have differs : other ≠ place := by
      rintro rfl
      exact notFirst leads
    rw [wrote.untouched other fun write member => same.place? write.1 ▸ notRest write member, entries, if_neg differs]
  · intro earlier last text later split notLater
    cases earlier with
    | nil =>
      cases split
      have leadsAfter : after.place? path = some place := by rw [wrote.same.place?, same.place?, leads]
      refine read?_of_entry? leadsAfter ?_
      rw [wrote.untouched place, entries, if_pos rfl]
      intro write member
      rw [same.place?, ← leads]
      exact notLater write member
    | cons _ earlier =>
      cases split
      refine wrote.written earlier last text later rfl fun other member => ?_
      rw [same.place?, same.place?]
      exact notLater other member

end FileSystem

open FileSystem

/-- **Delivery leaves alone what no diagram goes to**, whether it ends early or not. -/
theorem deliver_untouched {diagrams : List Diagram} {files : FileSystem} {place : List String}
    (elsewhere : ∀ diagram ∈ diagrams, ∀ path, diagram.path = some path → files.place? path ≠ some place)
    (console : Transcript) : SameDirectories files (deliver diagrams console files).files ∧
      entry? (deliver diagrams console files).files place = files.entry? place := by
  induction diagrams generalizing console files with
  | nil => exact ⟨.refl files, rfl⟩
  | cons diagram rest ih =>
    obtain ⟨notFirst, notRest⟩ := List.forall_mem_cons.1 elsewhere
    rw [deliver]
    split
    · exact ih notRest _
    · next path isPath =>
      split
      · exact ⟨.refl files, rfl⟩
      · next next written =>
        obtain ⟨target, leads, -, same, entries⟩ := write?_eq_some written
        have differs : place ≠ target := by
          rintro rfl
          exact notFirst path isPath leads
        obtain ⟨sameRest, untouched⟩ := ih (fun other member path isPath =>
          same.place? path ▸ notRest other member path isPath) console
        exact ⟨same.trans sameRest, by rw [untouched, entries, if_neg differs]⟩

end StepChart
