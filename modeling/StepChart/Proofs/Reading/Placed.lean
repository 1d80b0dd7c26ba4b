import Mathlib.Data.List.Basic
import StepChart.Reading.Stack
import StepChart.Reading.Tape

/-!
# Places of trees

Trees on a stack stand side by side: each begins after the place of the node below it and ends before the place
of its own node, so a construct that is made of them encloses its parts. This holds whatever table a text is
read by. `Stack.Sound` says it of a stack, and adding links to nodes keeps it (`Stack.Sound.join`).
-/

namespace StepChart

open Grammar Syntax

namespace Syntax.Span

/-- A span in the right order, with both ends at places that count. -/
structure Lies (ok : Nat → Prop) (span : Span) : Prop where
  ordered : span.start ≤ span.stop
  start : ok span.start
  stop : ok span.stop

/-- The span is inside another one. -/
structure Within (span outer : Span) : Prop where
  start : outer.start ≤ span.start
  stop : span.stop ≤ outer.stop

theorem Within.refl (span : Span) : span.Within span := ⟨Nat.le_refl _, Nat.le_refl _⟩

theorem Within.trans {span middle outer : Span} (inner : span.Within middle) (outside : middle.Within outer) :
    span.Within outer :=
  ⟨Nat.le_trans outside.start inner.start, Nat.le_trans inner.stop outside.stop⟩

end Syntax.Span

namespace Reading

variable {κ : Type} {ok : Nat → Prop}

/-! ## Trees -/

/-- **The places of a tree are nested**: each part is inside the construct it is a part of. No leaf is empty. -/
inductive Tree.Placed (ok : Nat → Prop) : Tree κ → Prop
  | leaf {terminal : Terminal} {text : String} {span : Span} (written : text ≠ "") (lies : span.Lies ok) :
      Placed ok (.leaf terminal text span)
  | node {category : κ} {span : Span} {children : List (Tree κ)} (lies : span.Lies ok)
      (inside : ∀ child ∈ children, child.Placed ok) (within : ∀ child ∈ children, child.span.Within span) :
      Placed ok (.node category span children)

theorem Tree.Placed.lies {tree : Tree κ} (placed : tree.Placed ok) : tree.span.Lies ok := by
  cases placed with
  | leaf _ lies => exact lies
  | node lies _ _ => exact lies

/-- Trees that stand side by side from `low` up to `high`. -/
def InRow (ok : Nat → Prop) : (low high : Nat) → List (Tree κ) → Prop
  | low, high, [] => low ≤ high
  | low, high, tree :: trees => low ≤ tree.span.start ∧ tree.Placed ok ∧ InRow ok tree.span.stop high trees

theorem InRow.of_le {trees : List (Tree κ)} {low lower high : Nat} (row : InRow ok low high trees) (le : lower ≤ low) :
    InRow ok lower high trees := by
  cases trees with
  | nil => exact Nat.le_trans le row
  | cons tree trees => exact ⟨Nat.le_trans le row.1, row.2⟩

/-- The end of the last of some trees, or a place for want of any. -/
def lastStop (place : Nat) (trees : List (Tree κ)) : Nat := trees.getLast?.elim place (·.span.stop)

theorem lastStop_cons (place : Nat) (tree : Tree κ) (trees : List (Tree κ)) :
    lastStop place (tree :: trees) = lastStop tree.span.stop trees := by
  cases trees with
  | nil => rfl
  | cons next trees =>
    unfold lastStop
    rw [List.getLast?_cons_cons]
    cases last : (next :: trees).getLast? with
    | none => exact absurd last (by simp)
    | some tree => rfl

theorem InRow.within {trees : List (Tree κ)} {low high : Nat} (row : InRow ok low high trees) :
    low ≤ lastStop low trees ∧ lastStop low trees ≤ high ∧
      ∀ tree ∈ trees, tree.Placed ok ∧ tree.span.Within ⟨low, lastStop low trees⟩ := by
  induction trees generalizing low with
  | nil => exact ⟨Nat.le_refl _, row, fun _ member => absurd member List.not_mem_nil⟩
  | cons tree trees ih =>
    obtain ⟨after, placed, rest⟩ := row
    obtain ⟨le, before, inside⟩ := ih rest
    have ordered := placed.lies.ordered
    rw [lastStop_cons]
    refine ⟨by omega, before, fun other member => ?_⟩
    rcases List.mem_cons.1 member with rfl | later
    · exact ⟨placed, after, le⟩
    · obtain ⟨placedOther, within⟩ := inside other later
      exact ⟨placedOther, Nat.le_trans after (Nat.le_trans ordered within.start), within.stop⟩

/-- A construct of trees in a row encloses them. -/
theorem placed_build (category : κ) {trees : List (Tree κ)} {low high : Nat} (row : InRow ok low high trees)
    (isPlace : ok high) :
    (Tree.build category high trees).Placed ok ∧ low ≤ (Tree.build category high trees).span.start ∧
      (Tree.build category high trees).span.stop ≤ high := by
  cases trees with
  | nil =>
    refine ⟨.node ⟨Nat.le_refl _, isPlace, isPlace⟩ ?_ ?_, row, Nat.le_refl _⟩
    · exact fun _ member => absurd member List.not_mem_nil
    · exact fun _ member => absurd member List.not_mem_nil
  | cons tree trees =>
    have alone : InRow ok tree.span.start high (tree :: trees) := ⟨Nat.le_refl _, row.2⟩
    obtain ⟨ordered, before, inside⟩ := alone.within
    have span : (Tree.build category high (tree :: trees)).span =
        ⟨tree.span.start, lastStop tree.span.start (tree :: trees)⟩ := by
      unfold Tree.build lastStop
      cases last : (tree :: trees).getLast? with
      | none => exact absurd last (by simp)
      | some tree => rfl
    have isStop : ok (lastStop tree.span.start (tree :: trees)) := by
      unfold lastStop
      cases last : (tree :: trees).getLast? with
      | none => exact absurd last (by simp)
      | some final => exact (inside final (List.mem_of_getLast? last)).1.lies.stop
    have placed : (Tree.build category high (tree :: trees)).Placed ok := by
      have lies : (Tree.build category high (tree :: trees)).span.Lies ok := by
        rw [span]
        exact ⟨ordered, row.2.1.lies.start, isStop⟩
      refine .node lies (fun child member => (inside child member).1) fun child member => ?_
      have within := (inside child member).2
      rw [← span] at within
      exact within
    rw [span]
    exact ⟨placed, row.1, before⟩

/-! ## Stacks -/

namespace Stack

variable {tape : Tape} {stack : Stack κ}

/-- The place of a node. -/
def placeOf (tape : Tape) (stack : Stack κ) (number : Nat) : Nat := tape.place (stack.node number).position

/-- The entry of a link stands between the node below it and the node of the link. -/
structure Fits (tape : Tape) (ok : Nat → Prop) (stack : Stack κ) (number : Nat) (link : Link κ) : Prop where
  below : link.previous < stack.size
  placed : link.entry.tree.Placed ok
  start : stack.placeOf tape link.previous ≤ link.entry.tree.span.start
  stop : link.entry.tree.span.stop ≤ stack.placeOf tape number

/-- All entries of a stack stand between their nodes. -/
def Sound (tape : Tape) (ok : Nat → Prop) (stack : Stack κ) : Prop :=
  ∀ number, ∀ link ∈ (stack.node number).links, stack.Fits tape ok number link

/-- A stack that has grown out of another one: the nodes keep their positions. -/
structure Keeps (before after : Stack κ) : Prop where
  size : before.size ≤ after.size
  position : ∀ number < before.size, (after.node number).position = (before.node number).position

theorem Keeps.refl (stack : Stack κ) : Keeps stack stack := ⟨Nat.le_refl _, fun _ _ => rfl⟩

theorem Keeps.trans {before middle after : Stack κ} (first : Keeps before middle) (second : Keeps middle after) :
    Keeps before after where
  size := Nat.le_trans first.size second.size
  position number inBounds :=
    (second.position number (Nat.lt_of_lt_of_le inBounds first.size)).trans (first.position number inBounds)

theorem Keeps.placeOf {before after : Stack κ} (keeps : Keeps before after) {number : Nat}
    (inBounds : number < before.size) : after.placeOf tape number = before.placeOf tape number :=
  congrArg tape.place (keeps.position number inBounds)

theorem Fits.keeps {before after : Stack κ} (keeps : Keeps before after) {number : Nat}
    (inBounds : number < before.size) {link : Link κ} (fits : before.Fits tape ok number link) :
    after.Fits tape ok number link where
  below := Nat.lt_of_lt_of_le fits.below keeps.size
  placed := fits.placed
  start := by
    rw [keeps.placeOf fits.below]
    exact fits.start
  stop := by
    rw [keeps.placeOf inBounds]
    exact fits.stop

/-! ## Ways down -/

theorem Sound.paths (sound : stack.Sound tape ok) {number : Nat} (inBounds : number < stack.size) {count : Nat}
    {path : Nat × List (Entry κ)} (member : path ∈ stack.paths number count) :
    path.1 < stack.size ∧
      InRow ok (stack.placeOf tape path.1) (stack.placeOf tape number) (path.2.map (·.tree)) := by
  induction count generalizing path with
  | zero =>
    rw [List.mem_singleton.1 member]
    exact ⟨inBounds, Nat.le_refl _⟩
  | succ count ih =>
    -- Whichever links are followed first, a longer way adds an entry below a shorter one.
    have down : ∃ upper ∈ stack.paths number count, ∃ link ∈ (stack.node upper.1).links,
        path = (link.previous, link.entry :: upper.2) := by
      rcases List.mem_append.1 member with first | others
      · obtain ⟨upper, isUpper, isPath⟩ := List.mem_flatMap.1 first
        obtain ⟨link, isLink, rfl⟩ := List.mem_map.1 isPath
        exact ⟨upper, isUpper, link, List.mem_of_mem_take isLink, rfl⟩
      · obtain ⟨upper, isUpper, isPath⟩ := List.mem_flatMap.1 others
        obtain ⟨link, isLink, rfl⟩ := List.mem_map.1 isPath
        exact ⟨upper, isUpper, link, List.mem_of_mem_drop isLink, rfl⟩
    obtain ⟨upper, isUpper, link, isLink, rfl⟩ := down
    have fits := sound upper.1 link isLink
    exact ⟨fits.below, fits.start, fits.placed, (ih isUpper).2.of_le fits.stop⟩

/-! ## Nodes that change -/

theorem node_push (stack : Stack κ) (new : Node κ) {number : Nat} (inBounds : number < stack.size) :
    node (stack.push new) number = stack.node number := by
  unfold node
  rw [Array.getD_eq_getD_getElem?, Array.getD_eq_getD_getElem?, Array.getElem?_push_lt inBounds,
    Array.getElem?_eq_getElem inBounds]

theorem node_push_size (stack : Stack κ) (new : Node κ) : node (stack.push new) stack.size = new := by
  unfold node
  rw [Array.getD_eq_getD_getElem?, Array.getElem?_push_size]
  rfl

theorem node_of_size_le (stack : Stack κ) {number : Nat} (outside : stack.size ≤ number) :
    stack.node number = default := by
  unfold node
  rw [Array.getD_eq_getD_getElem?, Array.getElem?_eq_none outside]
  rfl

theorem keeps_push (stack : Stack κ) (new : Node κ) : Keeps stack (stack.push new) where
  size := by rw [Array.size_push]; exact Nat.le_succ _
  position number inBounds := by rw [node_push stack new inBounds]

/-- A new node above another one. -/
theorem Sound.pushEntry (sound : stack.Sound tape ok) {previous position state : Nat} (inBounds : previous < stack.size)
    {entry : Entry κ} (placed : entry.tree.Placed ok) (start : stack.placeOf tape previous ≤ entry.tree.span.start)
    (stop : entry.tree.span.stop ≤ tape.place position) :
    (stack.pushEntry previous entry state position).Sound tape ok := by
  have keeps := keeps_push stack ⟨state, position, (stack.node previous).weight + entry.weight, [⟨previous, entry⟩]⟩
  intro number link isLink
  unfold Stack.pushEntry at isLink
  rcases Nat.lt_trichotomy number stack.size with old | rfl | beyond
  · rw [node_push stack _ old] at isLink
    exact (sound number link isLink).keeps keeps old
  · rw [node_push_size] at isLink
    rw [List.mem_singleton.1 isLink]
    refine ⟨Nat.lt_of_lt_of_le inBounds keeps.size, placed, ?_, ?_⟩
    · exact Nat.le_trans (Nat.le_of_eq (keeps.placeOf inBounds)) start
    · unfold placeOf Stack.pushEntry
      rw [node_push_size]
      exact stop
  · rw [node_of_size_le _ (by rw [Array.size_push]; exact beyond)] at isLink
    exact absurd isLink List.not_mem_nil

/-- The stacks have the same nodes at the same positions, perhaps with other links. -/
structure SameNodes (before after : Stack κ) : Prop where
  size : after.size = before.size
  position : ∀ number, (after.node number).position = (before.node number).position

theorem SameNodes.refl (stack : Stack κ) : SameNodes stack stack := ⟨rfl, fun _ => rfl⟩

theorem SameNodes.trans {before middle after : Stack κ} (first : SameNodes before middle)
    (second : SameNodes middle after) : SameNodes before after :=
  ⟨second.size.trans first.size, fun number => (second.position number).trans (first.position number)⟩

theorem SameNodes.keeps {before after : Stack κ} (same : SameNodes before after) : Keeps before after :=
  ⟨Nat.le_of_eq same.size.symm, fun number _ => same.position number⟩

theorem SameNodes.fits {before after : Stack κ} (same : SameNodes before after) {number : Nat} {link : Link κ}
    (fits : before.Fits tape ok number link) : after.Fits tape ok number link := by
  have samePlace : ∀ other, after.placeOf tape other = before.placeOf tape other := fun other =>
    congrArg tape.place (same.position other)
  refine ⟨?_, fits.placed, ?_, ?_⟩
  · rw [same.size]
    exact fits.below
  · rw [samePlace]
    exact fits.start
  · rw [samePlace]
    exact fits.stop

/-- One node has other links. -/
structure Changes (before after : Stack κ) (number : Nat) (links : List (Link κ)) :
    Prop extends SameNodes before after where
  links : (after.node number).links = links
  others : ∀ other, other ≠ number → (after.node other).links = (before.node other).links

/-- One node is replaced by another at the same position. -/
theorem Changes.of_node {before after : Stack κ} {number : Nat} {new : Node κ} (size : after.size = before.size)
    (position : new.position = (before.node number).position)
    (replaced : ∀ other, after.node other = if other = number then new else before.node other) :
    Changes before after number new.links := by
  refine ⟨⟨size, fun other => ?_⟩, ?_, fun other differs => ?_⟩
  · rw [replaced]
    split
    · next same => rw [same, position]
    · rfl
  · rw [replaced, if_pos rfl]
  · rw [replaced, if_neg differs]

theorem changes_set (stack : Stack κ) {number : Nat} (inBounds : number < stack.size) (new : Node κ)
    (position : new.position = (stack.node number).position) :
    Changes stack (stack.setIfInBounds number new) number new.links := by
  refine .of_node Array.size_setIfInBounds position fun other => ?_
  unfold node
  simp only [Array.getD_eq_getD_getElem?, Array.getElem?_setIfInBounds, inBounds, if_true]
  split
  · next same => rw [if_pos same.symm, Option.getD_some]
  · next differs => rw [if_neg (Ne.symm differs)]

theorem changes_modify (stack : Stack κ) {number : Nat} (inBounds : number < stack.size) (change : Node κ → Node κ)
    (position : (change (stack.node number)).position = (stack.node number).position) :
    Changes stack (stack.modify number change) number (change (stack.node number)).links := by
  refine .of_node Array.size_modify position fun other => ?_
  unfold node
  simp only [Array.getD_eq_getD_getElem?, Array.getElem?_modify]
  split
  · next same =>
    subst same
    rw [if_pos rfl, Array.getElem?_eq_getElem inBounds, Option.map_some, Option.getD_some, Option.getD_some]
  · next differs => rw [if_neg (Ne.symm differs)]

/-- Other links at a node do no harm if they fit there. -/
theorem Sound.changes {before after : Stack κ} {number : Nat} {links : List (Link κ)} (sound : before.Sound tape ok)
    (changes : Changes before after number links) (fit : ∀ link ∈ links, before.Fits tape ok number link) :
    after.Sound tape ok := by
  intro other link isLink
  by_cases same : other = number
  · subst same
    rw [changes.links] at isLink
    exact changes.fits (fit link isLink)
  · rw [changes.others other same] at isLink
    exact changes.fits (sound other link isLink)

/-! ## Stacks that become one -/

/-- Above a node that meets another, the links of the other fit too. -/
theorem Fits.of_meets {number other : Nat} {link : Link κ} (fits : stack.Fits tape ok number link)
    (meets : stack.meets other number = true) : stack.Fits tape ok other link := by
  have samePosition : (stack.node other).position = (stack.node number).position := by
    simpa using (Bool.and_eq_true_iff.mp meets).2
  have samePlace : stack.placeOf tape other = stack.placeOf tape number := congrArg tape.place samePosition
  refine ⟨fits.below, fits.placed, fits.start, ?_⟩
  rw [samePlace]
  exact fits.stop

/-- Links that fit are added one after the other, if each of them may be. -/
theorem Sound.foldl_links {add : Stack κ → Link κ → Stack κ} {number : Nat}
    (one : ∀ {stack : Stack κ} {link : Link κ}, stack.Sound tape ok → number < stack.size →
      stack.Fits tape ok number link → (add stack link).Sound tape ok ∧ SameNodes stack (add stack link))
    (links : List (Link κ)) (sound : stack.Sound tape ok) (inBounds : number < stack.size)
    (fit : ∀ link ∈ links, stack.Fits tape ok number link) :
    (links.foldl add stack).Sound tape ok ∧ SameNodes stack (links.foldl add stack) := by
  induction links generalizing stack with
  | nil => exact ⟨sound, .refl stack⟩
  | cons link links ih =>
    obtain ⟨soundAfter, same⟩ := one sound inBounds (fit link (.head links))
    obtain ⟨soundAll, sameAll⟩ := ih soundAfter (by rw [same.size]; exact inBounds) fun other isOther =>
      same.fits (fit other (.tail link isOther))
    exact ⟨soundAll, same.trans sameAll⟩

variable [DecidableEq κ]

/-- **Adding a link that fits keeps a stack sound**, however far down nodes become one. -/
theorem Sound.addLink {depth number : Nat} {link : Link κ} (sound : stack.Sound tape ok)
    (inBounds : number < stack.size) (fits : stack.Fits tape ok number link) :
    (stack.addLink depth number link).Sound tape ok ∧ SameNodes stack (stack.addLink depth number link) := by
  induction depth using Nat.strongRecOn generalizing stack number link with
  | _ depth ih =>
    rw [Stack.addLink.eq_def]
    split
    · exact ⟨sound, .refl stack⟩
    · dsimp only
      split
      · next index found =>
        obtain ⟨isIndex, isAlike, -⟩ := List.findIdx?_eq_some_iff_getElem.mp found
        have known : (stack.node number).links.getD index default = (stack.node number).links[index] := by
          rw [List.getD_eq_getElem?_getD, List.getElem?_eq_getElem isIndex, Option.getD_some]
        rw [known]
        split
        · split
          · have changes := changes_set stack inBounds
              { stack.node number with
                links := (stack.node number).links.set index link
                weight := (stack.node link.previous).weight + link.entry.weight } rfl
            refine ⟨sound.changes changes fun other isOther => ?_, changes.toSameNodes⟩
            cases List.mem_or_eq_of_mem_set isOther with
            | inl old => exact sound number other old
            | inr new => exact new ▸ fits
          · exact ⟨sound, .refl stack⟩
        · split
          · exact ⟨sound, .refl stack⟩
          · next depth =>
            -- the node below the new link becomes one with the node below the known link
            have meets := (Bool.and_eq_true_iff.mp isAlike).2
            have isBelow := (sound number _ (List.getElem_mem isIndex)).below
            obtain ⟨soundBelow, same⟩ := Sound.foldl_links (ih depth (Nat.lt_succ_self depth)) _ sound isBelow
              fun lower isLower => (sound _ lower isLower).of_meets meets
            rw [← same.size] at inBounds
            have changes := changes_modify _ inBounds (fun node =>
              { node with weight := max node.weight ((stack.node link.previous).weight + link.entry.weight) }) rfl
            exact ⟨soundBelow.changes changes fun other isOther => soundBelow number other isOther,
              same.trans changes.toSameNodes⟩
      · have changes := changes_set stack inBounds
          { stack.node number with
            links := (stack.node number).links ++ [link]
            weight := max (stack.node number).weight ((stack.node link.previous).weight + link.entry.weight) } rfl
        refine ⟨sound.changes changes fun other isOther => ?_, changes.toSameNodes⟩
        cases List.mem_append.mp isOther with
        | inl old => exact sound number other old
        | inr new => exact List.mem_singleton.mp new ▸ fits

/-- The links of a node that meets another are added to it. -/
theorem Sound.join {number other : Nat} (sound : stack.Sound tape ok) (inBounds : number < stack.size)
    (meets : stack.meets number other = true) :
    (stack.join number other).Sound tape ok ∧ SameNodes stack (stack.join number other) :=
  Sound.foldl_links (fun sound inBounds fits => sound.addLink inBounds fits) _ sound inBounds fun link isLink =>
    (sound other link isLink).of_meets meets

end Stack

end Reading

end StepChart
