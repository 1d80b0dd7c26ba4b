import Mathlib.Data.String.Basic
import StepChart.Diagram

/-!
# Machines of one output

Grouping looks at neighbours only. Since machines are ordered by output first, machines of one output are
neighbours, so that no output has two groups and a group holds all machines of its output (`group_eq_filter`).
-/

namespace StepChart

/-! ## The order of machines -/

namespace Graph

variable {first second third : Machine}

theorem precedes_iff : precedes first second = true ↔
    first.output < second.output ∨ first.output = second.output ∧ first.receiverType ≤ second.receiverType := by
  simp [precedes]

theorem precedes_trans (before : precedes first second = true) (after : precedes second third = true) :
    precedes first third = true := by
  rw [precedes_iff] at before after ⊢
  rcases before with less | ⟨same, le⟩
  · rcases after with lessAfter | ⟨sameAfter, -⟩
    · exact .inl (less.trans lessAfter)
    · exact .inl (sameAfter ▸ less)
  · rw [same]
    exact after.imp id fun ⟨sameAfter, leAfter⟩ => ⟨sameAfter, le.trans leAfter⟩

theorem precedes_total (first second : Machine) : (precedes first second || precedes second first) = true := by
  rw [Bool.or_eq_true, precedes_iff, precedes_iff]
  rcases lt_trichotomy first.output second.output with less | same | greater
  · exact .inl (.inl less)
  · rw [same]
    rcases le_total first.receiverType second.receiverType with le | ge
    · exact .inl (.inr ⟨rfl, le⟩)
    · exact .inr (.inr ⟨rfl, ge⟩)
  · exact .inr (.inl greater)

theorem ordered_perm (graph : Graph) : graph.ordered.Perm graph.machines := List.mergeSort_perm _ _

theorem ordered_pairwise (graph : Graph) : graph.ordered.Pairwise fun first second => precedes first second = true := by
  apply List.pairwise_mergeSort
  · intro first second third
    exact precedes_trans
  · exact precedes_total

/-- The outputs of ordered machines do not decrease. -/
theorem ordered_outputs (graph : Graph) : graph.ordered.Pairwise fun first second => first.output ≤ second.output := by
  refine graph.ordered_pairwise.imp fun before => ?_
  rcases precedes_iff.1 before with less | ⟨same, -⟩
  · exact less.le
  · exact same.le

end Graph

/-! ## Groups -/

/-- All that a machine can do to the groups of those after it: it joins the first group, or makes one before it. -/
theorem groupByOutput_cons (machine : Machine) (rest : List Machine) :
    (∃ members groups, groupByOutput rest = (machine.output, members) :: groups ∧
      groupByOutput (machine :: rest) = (machine.output, machine :: members) :: groups) ∨
    (∀ group ∈ (groupByOutput rest).head?, group.1 ≠ machine.output) ∧
      groupByOutput (machine :: rest) = (machine.output, [machine]) :: groupByOutput rest := by
  rw [groupByOutput]
  split
  · next output members groups found =>
    split
    · next same =>
      subst same
      exact .inl ⟨members, groups, found, rfl⟩
    · next other =>
      refine .inr ⟨fun group isFirst => ?_, by rw [found]⟩
      rw [found] at isFirst
      cases isFirst
      exact other
  · next found =>
    refine .inr ⟨fun group isFirst => ?_, by rw [found]⟩
    rw [found] at isFirst
    cases isFirst

/-- The groups are the machines, cut where the output changes. -/
theorem flatten_groupByOutput (machines : List Machine) : ((groupByOutput machines).map (·.2)).flatten = machines := by
  induction machines with
  | nil => rfl
  | cons machine rest ih =>
    rcases groupByOutput_cons machine rest with ⟨members, groups, found, joined⟩ | ⟨-, made⟩
    · rw [found] at ih
      rw [joined]
      exact congrArg (machine :: ·) ih
    · rw [made]
      exact congrArg (machine :: ·) ih

theorem mem_of_mem_group {machines : List Machine} {group : String × List Machine}
    (member : group ∈ groupByOutput machines) {machine : Machine} (inGroup : machine ∈ group.2) :
    machine ∈ machines := by
  rw [← flatten_groupByOutput machines]
  exact List.mem_flatten.2 ⟨group.2, List.mem_map_of_mem member, inGroup⟩

theorem exists_group {machines : List Machine} {machine : Machine} (member : machine ∈ machines) :
    ∃ group ∈ groupByOutput machines, machine ∈ group.2 := by
  rw [← flatten_groupByOutput machines] at member
  obtain ⟨members, isMembers, inGroup⟩ := List.mem_flatten.1 member
  obtain ⟨group, isGroup, rfl⟩ := List.mem_map.1 isMembers
  exact ⟨group, isGroup, inGroup⟩

/-- A group is not empty, and its machines have its output. -/
theorem output_of_mem_group {machines : List Machine} {group : String × List Machine}
    (member : group ∈ groupByOutput machines) : group.2 ≠ [] ∧ ∀ machine ∈ group.2, machine.output = group.1 := by
  induction machines generalizing group with
  | nil => cases member
  | cons machine rest ih =>
    rcases groupByOutput_cons machine rest with ⟨members, groups, found, joined⟩ | ⟨-, made⟩
    · rw [found] at ih
      rw [joined] at member
      rcases List.mem_cons.1 member with rfl | later
      · exact ⟨List.cons_ne_nil _ _, List.forall_mem_cons.2 ⟨rfl, (ih List.mem_cons_self).2⟩⟩
      · exact ih (List.mem_cons_of_mem _ later)
    · rw [made] at member
      rcases List.mem_cons.1 member with rfl | later
      · exact ⟨List.cons_ne_nil _ _, fun other isOther => by rw [List.mem_singleton.1 isOther]⟩
      · exact ih later

/-- The output of a group is that of a machine. -/
theorem exists_mem_of_group {machines : List Machine} {group : String × List Machine}
    (member : group ∈ groupByOutput machines) : ∃ machine ∈ machines, machine.output = group.1 := by
  obtain ⟨nonempty, outputs⟩ := output_of_mem_group member
  obtain ⟨machine, inGroup⟩ := List.exists_mem_of_ne_nil _ nonempty
  exact ⟨machine, mem_of_mem_group member inGroup, outputs machine inGroup⟩

/-- **No output has two groups** if outputs do not decrease. -/
theorem groupByOutput_increasing {machines : List Machine}
    (ascending : machines.Pairwise fun first second => first.output ≤ second.output) :
    ((groupByOutput machines).map (·.1)).Pairwise (· < ·) := by
  induction machines with
  | nil => exact .nil
  | cons machine rest ih =>
    obtain ⟨least, ascendingRest⟩ := List.pairwise_cons.1 ascending
    have increasing := ih ascendingRest
    rcases groupByOutput_cons machine rest with ⟨members, groups, found, joined⟩ | ⟨other, made⟩
    · rw [found] at increasing
      rw [joined]
      exact increasing
    · have above : ∀ group ∈ groupByOutput rest, machine.output ≤ group.1 := by
        intro group member
        obtain ⟨first, isFirst, isOutput⟩ := exists_mem_of_group member
        exact isOutput ▸ least first isFirst
      rw [made, List.map_cons, List.pairwise_cons]
      refine ⟨fun output isOutput => ?_, increasing⟩
      -- The first group of the others has another output, and it is the least of theirs.
      cases found : groupByOutput rest with
      | nil =>
        rw [found] at isOutput
        cases isOutput
      | cons group groups =>
        rw [found] at other above increasing isOutput
        have less : machine.output < group.1 :=
          lt_of_le_of_ne (above group List.mem_cons_self) (other group rfl).symm
        rcases List.mem_cons.1 isOutput with rfl | later
        · exact less
        · exact less.trans ((List.pairwise_cons.1 increasing).1 output later)

/-- **A group holds all machines of its output**, in their order. -/
theorem group_eq_filter {machines : List Machine}
    (ascending : machines.Pairwise fun first second => first.output ≤ second.output)
    {group : String × List Machine} (member : group ∈ groupByOutput machines) :
    group.2 = machines.filter (·.output = group.1) := by
  obtain ⟨before, after, cut⟩ := List.append_of_mem member
  have increasing := List.pairwise_map.1 (groupByOutput_increasing ascending)
  rw [cut] at increasing
  obtain ⟨-, increasingAfter, across⟩ := List.pairwise_append.1 increasing
  have others : ∀ groups : List (String × List Machine),
      (∀ other ∈ groups, other ∈ groupByOutput machines ∧ other.1 ≠ group.1) →
      (groups.map (·.2)).flatten.filter (·.output = group.1) = [] := by
    intro groups distinct
    rw [List.filter_eq_nil_iff]
    intro machine inside same
    obtain ⟨members, isMembers, inGroup⟩ := List.mem_flatten.1 inside
    obtain ⟨other, isOther, rfl⟩ := List.mem_map.1 isMembers
    obtain ⟨isGroup, differs⟩ := distinct other isOther
    exact differs (((output_of_mem_group isGroup).2 machine inGroup).symm.trans (of_decide_eq_true same))
  have noneBefore := others before fun other isOther =>
    ⟨cut ▸ List.mem_append_left _ isOther, (across other isOther group List.mem_cons_self).ne⟩
  have noneAfter := others after fun other isOther =>
    ⟨cut ▸ List.mem_append_right _ (List.mem_cons_of_mem _ isOther),
      ((List.pairwise_cons.1 increasingAfter).1 other isOther).ne'⟩
  have all : group.2.filter (·.output = group.1) = group.2 := by
    rw [List.filter_eq_self]
    intro machine inGroup
    exact decide_eq_true ((output_of_mem_group member).2 machine inGroup)
  have whole := flatten_groupByOutput machines
  rw [cut, List.map_append, List.map_cons, List.flatten_append, List.flatten_cons] at whole
  rw [← whole, List.filter_append, List.filter_append, noneBefore, noneAfter, all, List.nil_append, List.append_nil]

/-- The diagrams that go to files, by their outputs. -/
theorem Graph.diagrams_files (graph : Graph) (extension : String) :
    graph.diagrams false extension =
      (groupByOutput graph.ordered).map fun group => ⟨some (diagramPath group.1 extension), document group.2⟩ :=
  List.map_map

end StepChart
