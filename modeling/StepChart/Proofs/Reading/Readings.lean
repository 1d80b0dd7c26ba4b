import Mathlib.Data.List.GetD
import StepChart.Proofs.Reading.Placed
import StepChart.Reading.Reader

/-!
# Places of readings

A tape is sound if its terminals follow one another at places that count. Whatever table such a tape is read by,
the tree of its reading is nested (`placed_read`): every step of a reader keeps its stack sound and the nodes of
its heads in the stack.
-/

namespace StepChart.Reading

open Grammar Syntax

variable {κ : Type} {ok : Nat → Prop} {tape : Tape}

/-- A terminal that is written in the text, after a position and before the position that follows it. -/
structure Lookahead.Fits (tape : Tape) (ok : Nat → Prop) (position : Nat) (ahead : Lookahead) : Prop where
  written : ahead.text ≠ ""
  lies : ahead.span.Lies ok
  start : tape.place position ≤ ahead.span.start
  stop : ahead.span.stop ≤ tape.place ahead.next

/-- All positions of a tape are at places that count, and its terminals are between them. -/
structure Tape.Sound (tape : Tape) (ok : Nat → Prop) : Prop where
  place : ∀ position, ok (tape.place position)
  look : ∀ {usable position ahead}, tape.look usable position = some ahead → ahead.Fits tape ok position

namespace Reader

/-- **The invariant of a reader.** -/
structure Sound (tape : Tape) (ok : Nat → Prop) (reader : Reader κ) : Prop where
  stack : reader.stack.Sound tape ok
  nonempty : 0 < reader.stack.size
  heads : ∀ head ∈ reader.heads, head.node < reader.stack.size
  best : ∀ entry ∈ reader.best, entry.tree.Placed ok

variable {reader : Reader κ} {number position : Nat}

theorem Sound.head_lt (sound : reader.Sound tape ok) (number : Nat) :
    (reader.head number).node < reader.stack.size := by
  unfold head
  rw [List.getD_eq_getElem?_getD]
  cases found : reader.heads[number]? with
  | none => exact sound.nonempty
  | some head => exact sound.heads head (List.mem_of_getElem? found)

theorem Sound.setHead (sound : reader.Sound tape ok) (number : Nat) (head : Head)
    (inBounds : head.node < reader.stack.size) : (reader.setHead number head).Sound tape ok := by
  refine ⟨sound.stack, sound.nonempty, fun other isOther => ?_, sound.best⟩
  cases List.mem_or_eq_of_mem_set isOther with
  | inl old => exact sound.heads other old
  | inr new => exact new ▸ inBounds

/-- A sound reader that has a head with a number. -/
structure Has (tape : Tape) (ok : Nat → Prop) (number : Nat) (reader : Reader κ) :
    Prop extends reader.Sound tape ok where
  present : number < reader.heads.length

theorem Has.setHead (has : reader.Has tape ok number) (head : Head) (inBounds : head.node < reader.stack.size) :
    (reader.setHead number head).Has tape ok number :=
  ⟨has.toSound.setHead number head inBounds, by
    unfold Reader.setHead
    rw [List.length_set]
    exact has.present⟩

/-! ## Heads that take a terminal -/

variable {table : Table κ}

/-- A head takes a terminal that follows it. -/
theorem Sound.shift {terminal : Terminal} {ahead : Lookahead} {state : Nat} (sound : reader.Sound tape ok)
    (fits : ahead.Fits tape ok (reader.top number).position) :
    (reader.shift number terminal ahead state).Sound tape ok := by
  have inBounds := sound.head_lt number
  obtain ⟨stack, heads, best⟩ := reader
  obtain ⟨soundStack, nonempty, inStack, bestPlaced⟩ := sound
  refine ⟨soundStack.pushEntry inBounds (.leaf fits.written fits.lies) fits.start fits.stop, ?_, ?_, bestPlaced⟩
  · exact Nat.lt_of_lt_of_le nonempty (Stack.keeps_push ..).size
  · intro head isHead
    have size : (stack.pushEntry (heads.getD number default).node ⟨.leaf terminal ahead.text ahead.span, 0⟩ state
        ahead.next).size = stack.size + 1 := Array.size_push ..
    unfold Reader.shift at isHead ⊢
    dsimp only at isHead ⊢
    rw [size] at isHead ⊢
    cases List.mem_or_eq_of_mem_set isHead with
    | inl old => exact Nat.lt_succ_of_lt (inStack head old)
    | inr new =>
      rw [new, Nat.add_sub_cancel]
      exact Nat.lt_succ_self _

/-- The better of readings is one of them. -/
theorem placed_best (readings : List (Entry κ)) (best : Option (Entry κ))
    (placed : ∀ entry ∈ readings, entry.tree.Placed ok) (bestPlaced : ∀ entry ∈ best, entry.tree.Placed ok) :
    ∀ entry ∈ readings.foldl (fun best entry =>
        match best with
        | none => some entry
        | some known => some (if surpassed table known entry then entry else known)) best, entry.tree.Placed ok := by
  induction readings generalizing best with
  | nil => exact bestPlaced
  | cons reading readings ih =>
    refine ih _ (fun entry isEntry => placed entry (.tail reading isEntry)) fun entry isEntry => ?_
    have isPlaced := placed reading (.head readings)
    cases best with
    | none => exact Option.some.inj isEntry ▸ isPlaced
    | some known =>
      rw [← Option.some.inj isEntry]
      split
      · exact isPlaced
      · exact bestPlaced known rfl

/-- A head has read the whole text. -/
theorem Sound.accept (sound : reader.Sound tape ok) : (accept table reader number).Sound tape ok := by
  have kept := sound.setHead number ⟨(reader.head number).node, .ended⟩ (sound.head_lt number)
  refine ⟨kept.stack, kept.nonempty, kept.heads, placed_best _ _ (fun entry isEntry => ?_) sound.best⟩
  obtain ⟨path, isPath, inPath⟩ := List.mem_flatMap.mp isEntry
  have row := (sound.stack.paths (sound.head_lt number) isPath).2
  exact (row.within.2.2 entry.tree (List.mem_map_of_mem inPath)).1

/-! ## Constructs -/

theorem mem_addConstruct {made item : Nat × Entry κ} {known : List (Nat × Entry κ)}
    (member : item ∈ addConstruct table made known) : item = made ∨ item ∈ known := by
  induction known with
  | nil => exact .inl (List.mem_singleton.mp member)
  | cons first rest ih =>
    obtain ⟨base, entry⟩ := first
    unfold addConstruct at member
    split at member
    · next same =>
      rcases List.mem_cons.mp member with rfl | later
      · split
        · exact .inl (Prod.ext same rfl)
        · exact .inr (.head rest)
      · exact .inr (.tail _ later)
    · rcases List.mem_cons.mp member with rfl | later
      · exact .inr (.head rest)
      · exact (ih later).imp_right (.tail _)

/-- Every construct is made of the entries of a way down. -/
theorem mem_constructs {stack : Stack κ} {node count place : Nat} {category : κ} {item : Nat × Entry κ}
    (member : item ∈ constructs table stack node category count place) :
    ∃ path ∈ stack.paths node count, item = (path.1, construct category place path.2) := by
  unfold constructs at member
  suffices ∀ (paths : List (Nat × List (Entry κ))) (known : List (Nat × Entry κ)),
      item ∈ paths.foldl (fun made path => addConstruct table (path.1, construct category place path.2) made) known →
        item ∈ known ∨ ∃ path ∈ paths, item = (path.1, construct category place path.2) from
    (this _ [] member).resolve_left List.not_mem_nil
  intro paths
  induction paths with
  | nil => exact fun known isKnown => .inl isKnown
  | cons path paths ih =>
    intro known member
    rcases ih _ member with isKnown | ⟨other, isOther, made⟩
    · rcases mem_addConstruct isKnown with new | old
      · exact .inr ⟨path, .head paths, new⟩
      · exact .inl old
    · exact .inr ⟨other, .tail path isOther, made⟩

/-- An entry that can stand on a node up to a position. -/
structure Stands (tape : Tape) (ok : Nat → Prop) (stack : Stack κ) (position base : Nat) (entry : Entry κ) : Prop where
  below : base < stack.size
  placed : entry.tree.Placed ok
  start : stack.placeOf tape base ≤ entry.tree.span.start
  stop : entry.tree.span.stop ≤ tape.place position

theorem Stands.keeps {before after : Stack κ} {base : Nat} {entry : Entry κ}
    (stands : Stands tape ok before position base entry) (keeps : Stack.Keeps before after) :
    Stands tape ok after position base entry := by
  refine ⟨Nat.lt_of_lt_of_le stands.below keeps.size, stands.placed, ?_, stands.stop⟩
  rw [keeps.placeOf stands.below]
  exact stands.start

theorem stands_constructs {stack : Stack κ} (sound : stack.Sound tape ok) (tapeSound : tape.Sound ok)
    {node count : Nat} (inBounds : node < stack.size) {category : κ} {item : Nat × Entry κ}
    (member : item ∈ constructs table stack node category count (tape.place (stack.node node).position)) :
    Stands tape ok stack (stack.node node).position item.1 item.2 := by
  obtain ⟨path, isPath, rfl⟩ := mem_constructs member
  obtain ⟨below, row⟩ := sound.paths inBounds isPath
  obtain ⟨placed, start, stop⟩ := placed_build category row (tapeSound.place _)
  exact ⟨below, placed, start, stop⟩

/-! ## Heads that come to others -/

/-- A reader has grown by heads at a position. -/
structure Grows (position : Nat) (before after : Reader κ) : Prop where
  keeps : Stack.Keeps before.stack after.stack
  heads : ∃ more, after.heads = before.heads ++ more ∧
    ∀ head ∈ more, head.node < after.stack.size ∧ (after.stack.node head.node).position = position

theorem Grows.refl (position : Nat) (reader : Reader κ) : Grows position reader reader :=
  ⟨.refl reader.stack, [], (List.append_nil _).symm, fun _ isNone => absurd isNone List.not_mem_nil⟩

theorem Grows.trans {before middle after : Reader κ} (first : Grows position before middle)
    (second : Grows position middle after) : Grows position before after := by
  obtain ⟨more, grown, atPosition⟩ := first.heads
  obtain ⟨others, grownAgain, othersAt⟩ := second.heads
  refine ⟨first.keeps.trans second.keeps, more ++ others, by rw [grownAgain, grown, List.append_assoc], ?_⟩
  intro head isHead
  rcases List.mem_append.mp isHead with early | late
  · obtain ⟨inBounds, isThere⟩ := atPosition head early
    exact ⟨Nat.lt_of_lt_of_le inBounds second.keeps.size, (second.keeps.position _ inBounds).trans isThere⟩
  · exact othersAt head late

theorem Grows.length_le {before after : Reader κ} (grows : Grows position before after) :
    before.heads.length ≤ after.heads.length := by
  obtain ⟨more, grown, -⟩ := grows.heads
  rw [grown, List.length_append]
  exact Nat.le_add_right _ _

/-- The heads that were there stay as they are. -/
theorem Grows.head {before after : Reader κ} (grows : Grows position before after)
    (inBounds : number < before.heads.length) : after.head number = before.head number := by
  obtain ⟨more, grown, -⟩ := grows.heads
  unfold Reader.head
  rw [grown, List.getD_append _ _ _ _ inBounds]

theorem Grows.position_old {before after : Reader κ} (grows : Grows position before after)
    (sound : before.Sound tape ok) (inBounds : number < before.heads.length) :
    (after.top number).position = (before.top number).position := by
  unfold top
  rw [grows.head inBounds]
  exact grows.keeps.position _ (sound.head_lt number)

/-- A head that has come is at the position. -/
theorem Grows.position_new {before after : Reader κ} (grows : Grows position before after)
    (new : before.heads.length ≤ number) (inBounds : number < after.heads.length) :
    (after.top number).position = position := by
  obtain ⟨more, grown, atPosition⟩ := grows.heads
  have isMore : number - before.heads.length < more.length := by
    rw [grown, List.length_append] at inBounds
    omega
  refine (atPosition (after.head number) ?_).2
  unfold Reader.head
  rw [grown, List.getD_append_right _ _ _ _ new, List.getD_eq_getElem _ _ isMore]
  exact List.getElem_mem _

/-- Constructs are put on nodes one after the other. -/
theorem Sound.foldl_land {step : Reader κ → Nat × Entry κ → Reader κ}
    (one : ∀ {reader : Reader κ} {item : Nat × Entry κ}, reader.Sound tape ok →
      Stands tape ok reader.stack position item.1 item.2 →
      (step reader item).Sound tape ok ∧ Grows position reader (step reader item))
    (made : List (Nat × Entry κ)) (sound : reader.Sound tape ok)
    (stand : ∀ item ∈ made, Stands tape ok reader.stack position item.1 item.2) :
    (made.foldl step reader).Sound tape ok ∧ Grows position reader (made.foldl step reader) := by
  induction made generalizing reader with
  | nil => exact ⟨sound, .refl position reader⟩
  | cons item made ih =>
    obtain ⟨soundAfter, grows⟩ := one sound (stand item (.head made))
    obtain ⟨soundAll, growsAll⟩ := ih soundAfter fun other isOther =>
      (stand other (.tail item isOther)).keeps grows.keeps
    exact ⟨soundAll, grows.trans growsAll⟩

variable [DecidableEq κ]

/-- A construct is put on a node. -/
theorem Sound.land (sound : reader.Sound tape ok) {base state : Nat} {entry : Entry κ}
    (stands : Stands tape ok reader.stack position base entry) :
    (reader.land number base entry state position).Sound tape ok ∧
      Grows position reader (reader.land number base entry state position) := by
  obtain ⟨stack, heads, best⟩ := reader
  obtain ⟨soundStack, nonempty, inStack, bestPlaced⟩ := sound
  have pushed : (stack.pushEntry base entry state position).Sound tape ok :=
    soundStack.pushEntry stands.below stands.placed stands.start stands.stop
  have keeps : Stack.Keeps stack (stack.pushEntry base entry state position) := Stack.keeps_push ..
  have size : (stack.pushEntry base entry state position).size = stack.size + 1 := Array.size_push ..
  have inPushed : ∀ head ∈ heads, head.node < (stack.pushEntry base entry state position).size := fun head isHead =>
    Nat.lt_of_lt_of_le (inStack head isHead) keeps.size
  unfold Reader.land
  dsimp only
  split
  · next head index found =>
    have chosen := List.find?_some found
    have meets := (Bool.and_eq_true_iff.mp (Bool.and_eq_true_iff.mp chosen).2).2
    have isHead : head ∈ heads := List.fst_mem_of_mem_zipIdx (List.mem_of_find?_eq_some found)
    obtain ⟨joined, same⟩ := pushed.join (inPushed head isHead) meets
    refine ⟨⟨joined, ?_, fun other isOther => ?_, bestPlaced⟩, keeps.trans same.keeps, [], (List.append_nil _).symm, ?_⟩
    · rw [same.size, size]
      exact Nat.succ_pos _
    · rw [same.size]
      exact inPushed other isOther
    · exact fun _ isNone => absurd isNone List.not_mem_nil
  · have new : stack.size < (stack.pushEntry base entry state position).size := by
      rw [size]
      exact Nat.lt_succ_self _
    have atPosition : ((stack.pushEntry base entry state position).node stack.size).position = position := by
      unfold Stack.pushEntry
      rw [Stack.node_push_size]
    rw [size, Nat.add_sub_cancel]
    refine ⟨⟨pushed, Nat.lt_of_le_of_lt (Nat.zero_le _) new, fun head isHead => ?_, bestPlaced⟩, keeps, _, rfl, ?_⟩
    · rcases List.mem_append.mp isHead with old | isNew
      · exact inPushed head old
      · rw [List.mem_singleton.mp isNew]
        exact new
    · intro head isNew
      rw [List.mem_singleton.mp isNew]
      exact ⟨new, atPosition⟩

/-- Constructs are ended at a head. -/
theorem Sound.reduce (sound : reader.Sound tape ok) (tapeSound : tape.Sound ok) (table : Table κ) (number : Nat)
    (category : κ) (count : Nat) (weight : Int) :
    (reduce table tape reader number category count weight).1.Sound tape ok ∧
      Grows (reader.top number).position reader (reduce table tape reader number category count weight).1 := by
  refine Sound.foldl_land (fun {reader} {item} sound stands => ?_) _ sound fun item isMade =>
    stands_constructs sound.stack tapeSound (sound.head_lt number) isMade
  obtain ⟨base, entry⟩ := item
  dsimp only
  split
  · exact sound.land ⟨stands.below, stands.placed, stands.start, stands.stop⟩
  · exact ⟨sound, .refl _ reader⟩

/-- The head that ending constructs tells is new. -/
theorem reduce_new {category : κ} {count other : Nat} {weight : Int}
    (new : (reduce table tape reader number category count weight).2 = some other) :
    reader.heads.length ≤ other ∧ other < (reduce table tape reader number category count weight).1.heads.length := by
  unfold reduce at new ⊢
  dsimp only at new ⊢
  split at new
  · next more =>
    cases new
    exact ⟨Nat.le_refl _, more⟩
  · cases new

/-! ## Heads that go on -/

/-- What actions on a terminal do to a reader: until one of them is the last, heads are added where the acting
head is. -/
structure Acted (tape : Tape) (ok : Nat → Prop) (number : Nat) (before after : Reader κ) (outcome : Outcome) : Prop
    extends after.Has tape ok number where
  grows : outcome ≠ .done → Grows (before.top number).position before after
  new : ∀ other, outcome = .reduced other → before.heads.length ≤ other ∧ other < after.heads.length

theorem Acted.act {ahead : Lookahead} {before : Reader κ} {outcome : Outcome}
    (acted : Acted tape ok number before reader outcome) (goesOn : outcome ≠ .done) (tapeSound : tape.Sound ok)
    (has : before.Has tape ok number)
    (fits : ahead.Fits tape ok (before.top number).position) (table : Table κ) (terminal : Terminal)
    (actions : List (Action κ)) :
    Acted tape ok number before (act table tape number terminal ahead actions reader outcome).1
      (act table tape number terminal ahead actions reader outcome).2 := by
  induction actions generalizing reader outcome with
  | nil => exact acted
  | cons action actions ih =>
    have grows := acted.grows goesOn
    cases action with
    | shift state =>
      have fitsHere : ahead.Fits tape ok (reader.top number).position := by
        rw [grows.position_old has.toSound has.present]
        exact fits
      refine ⟨⟨acted.toSound.shift fitsHere, ?_⟩, fun notDone => absurd rfl notDone, fun _ isDone => nomatch isDone⟩
      exact Nat.lt_of_lt_of_eq acted.present List.length_set.symm
    | accept =>
      refine ⟨⟨acted.toSound.accept, ?_⟩, fun notDone => absurd rfl notDone, fun _ isDone => nomatch isDone⟩
      exact Nat.lt_of_lt_of_eq acted.present List.length_set.symm
    | reduce category count weight =>
      obtain ⟨sound, growsMore⟩ := acted.toSound.reduce tapeSound table number category count weight
      rw [grows.position_old has.toSound has.present] at growsMore
      have growsAll := grows.trans growsMore
      unfold Reader.act
      dsimp only
      have goesOnAfter : (reduce table tape reader number category count weight).2.elim outcome .reduced ≠ .done := by
        cases (reduce table tape reader number category count weight).2 with
        | none => exact goesOn
        | some other => exact Outcome.noConfusion
      refine ih ⟨⟨sound, Nat.lt_of_lt_of_le has.present growsAll.length_le⟩, fun _ => growsAll, fun other isNew => ?_⟩
        goesOnAfter
      · cases told : (reduce table tape reader number category count weight).2 with
        | none =>
          rw [told] at isNew
          obtain ⟨after, inBounds⟩ := acted.new other isNew
          exact ⟨after, Nat.lt_of_lt_of_le inBounds growsMore.length_le⟩
        | some first =>
          rw [told] at isNew
          cases isNew
          obtain ⟨after, inBounds⟩ := reduce_new told
          exact ⟨Nat.le_trans grows.length_le after, inBounds⟩

omit [DecidableEq κ] in
/-- A new head takes the place of the head that ended a construct. -/
theorem Has.replace {before after : Reader κ} {other : Nat} (has : before.Has tape ok number)
    (acted : Acted tape ok number before after (.reduced other)) :
    Has tape ok number { after with heads := (after.heads.eraseIdx other).set number (after.head other) } ∧
      (top { after with heads := (after.heads.eraseIdx other).set number (after.head other) } number).position =
        (before.top number).position := by
  obtain ⟨isNew, inBounds⟩ := acted.new other rfl
  have present : number < (after.heads.eraseIdx other).length := by
    have := has.present
    rw [List.length_eraseIdx_of_lt inBounds]
    omega
  refine ⟨⟨⟨acted.stack, acted.nonempty, fun head isHead => ?_, acted.best⟩, ?_⟩, ?_⟩
  · cases List.mem_or_eq_of_mem_set isHead with
    | inl old => exact acted.heads head (List.mem_of_mem_eraseIdx old)
    | inr new => exact new ▸ acted.toSound.head_lt other
  · rw [List.length_set]
    exact present
  · have isHead : head { after with heads := (after.heads.eraseIdx other).set number (after.head other) } number =
        after.head other := by
      rw [head, List.getD_eq_getElem?_getD, List.getElem?_set_self present, Option.getD_some]
    unfold top
    rw [isHead]
    exact (acted.grows Outcome.noConfusion).position_new isNew inBounds

/-- A head ends constructs until it takes a terminal. -/
theorem Has.follow {ahead : Lookahead} (tapeSound : tape.Sound ok) (has : reader.Has tape ok number)
    (fits : ahead.Fits tape ok (reader.top number).position) (fuel : Nat) (terminal : Terminal) :
    (follow table tape number ahead fuel terminal reader).Has tape ok number := by
  induction fuel generalizing terminal reader with
  | zero => exact has.setHead _ (has.toSound.head_lt number)
  | succ fuel ih =>
    have start : Acted tape ok number reader reader .idle :=
      ⟨has, fun _ => .refl _ reader, fun _ isIdle => nomatch isIdle⟩
    have acted := start.act Outcome.noConfusion tapeSound has fits table terminal
      (table.actions (reader.top number).state terminal)
    unfold Reader.follow
    dsimp only
    generalize Reader.act table tape number terminal ahead _ reader .idle = result at acted
    obtain ⟨after, outcome⟩ := result
    cases outcome with
    | done => exact acted.toHas
    | reduced other =>
      obtain ⟨hasHead, samePosition⟩ := has.replace acted
      refine ih hasHead ?_ terminal
      rw [samePosition]
      exact fits
    | idle =>
      have sameFits : ahead.Fits tape ok (after.top number).position := by
        rw [(acted.grows Outcome.noConfusion).position_old has.toSound has.present]
        exact fits
      have stuck := acted.toHas.setHead ⟨(after.head number).node, .stuck⟩ (acted.toSound.head_lt number)
      cases terminal with
      | word text => exact ih acted.toHas sameFits .name
      | _ => exact stuck

theorem Has.advance (tapeSound : tape.Sound ok) (has : reader.Has tape ok number) (table : Table κ) (fuel : Nat) :
    (advance table tape fuel number reader).Has tape ok number := by
  unfold Reader.advance
  dsimp only
  split
  · next ahead found => exact has.follow tapeSound (tapeSound.look found) fuel ahead.terminal
  · exact has.setHead _ (has.toSound.head_lt number)

theorem Has.catchUp (tapeSound : tape.Sound ok) (has : reader.Has tape ok number) (fuel reached : Nat) :
    (catchUp table tape number fuel reader reached).1.Has tape ok number := by
  induction fuel generalizing reader with
  | zero => exact has
  | succ fuel ih =>
    have further := has.advance tapeSound table (fuel + 1)
    unfold Reader.catchUp
    dsimp only
    split
    · split
      · exact further
      · exact ih further
    · exact has

/-! ## Rounds -/

theorem Sound.sweep (tapeSound : tape.Sound ok) (sound : reader.Sound tape ok) (table : Table κ)
    (fuel number reached : Nat) :
    (sweep table tape fuel number reader reached).1.Sound tape ok := by
  induction fuel generalizing number reader reached with
  | zero => exact sound
  | succ fuel ih =>
    unfold Reader.sweep
    split
    · next present => exact ih (Has.catchUp tapeSound ⟨sound, present⟩ (fuel + 1) reached).toSound (number + 1) _
    · exact sound

/-- Putting a head among others changes no node. -/
theorem settle_heads {stack : Stack κ} {candidate : Head} {heads : List Head} (sound : stack.Sound tape ok)
    (inBounds : candidate.node < stack.size) (inStack : ∀ head ∈ heads, head.node < stack.size) :
    (settle stack candidate heads).1.Sound tape ok ∧ Stack.SameNodes stack (settle stack candidate heads).1 ∧
      ∀ head ∈ (settle stack candidate heads).2, head = candidate ∨ head ∈ heads := by
  induction heads generalizing candidate with
  | nil => exact ⟨sound, .refl stack, fun head isHead => .inl (List.mem_singleton.mp isHead)⟩
  | cons first rest ih =>
    have first_lt := inStack first (.head rest)
    have rest_lt : ∀ head ∈ rest, head.node < stack.size := fun head isHead => inStack head (.tail first isHead)
    unfold settle
    split
    · exact ⟨sound, .refl stack, fun head isHead => .inr isHead⟩
    · split
      · obtain ⟨settled, same, among⟩ := ih inBounds rest_lt
        exact ⟨settled, same, fun head isHead => (among head isHead).imp_right (.tail first)⟩
      · split
        · next canJoin =>
          obtain ⟨joined, same⟩ := sound.join first_lt (Bool.and_eq_true_iff.mp canJoin).2
          exact ⟨joined, same, fun head isHead => .inr isHead⟩
        · split
          · obtain ⟨settled, same, among⟩ := ih first_lt rest_lt
            refine ⟨settled, same, fun head isHead => ?_⟩
            rcases List.mem_cons.mp isHead with rfl | later
            · exact .inl rfl
            · exact .inr (List.mem_cons.mpr (among head later))
          · obtain ⟨settled, same, among⟩ := ih inBounds rest_lt
            refine ⟨settled, same, fun head isHead => ?_⟩
            rcases List.mem_cons.mp isHead with rfl | later
            · exact .inr (.head rest)
            · exact (among head later).imp_right (.tail first)

/-- Putting heads among others one after the other changes no node. -/
theorem foldl_settle {stack : Stack κ} (candidates heads : List Head) (sound : stack.Sound tape ok)
    (inBounds : ∀ head ∈ candidates, head.node < stack.size) (inStack : ∀ head ∈ heads, head.node < stack.size) :
    let settled := candidates.foldl (fun (stack, heads) head => settle stack head heads) (stack, heads)
    settled.1.Sound tape ok ∧ Stack.SameNodes stack settled.1 ∧ ∀ head ∈ settled.2, head.node < stack.size := by
  induction candidates generalizing stack heads with
  | nil => exact ⟨sound, .refl stack, inStack⟩
  | cons candidate candidates ih =>
    have candidate_lt := inBounds candidate (.head candidates)
    obtain ⟨settled, same, among⟩ := settle_heads sound candidate_lt inStack
    have inSettled : ∀ head ∈ (settle stack candidate heads).2, head.node < (settle stack candidate heads).1.size := by
      intro head isHead
      rw [same.size]
      rcases among head isHead with rfl | old
      · exact candidate_lt
      · exact inStack head old
    obtain ⟨settledAll, sameAll, inAll⟩ := ih _ settled (fun head isHead => by
      rw [same.size]
      exact inBounds head (.tail candidate isHead)) inSettled
    exact ⟨settledAll, same.trans sameAll, fun head isHead => same.size ▸ inAll head isHead⟩

theorem Sound.condense (sound : reader.Sound tape ok) : reader.condense.Sound tape ok := by
  obtain ⟨stack, heads, best⟩ := reader
  obtain ⟨soundStack, nonempty, inStack, bestPlaced⟩ := sound
  obtain ⟨settled, same, inSettled⟩ := foldl_settle (heads.filter (·.status ≠ .ended)) [] soundStack
    (fun head isHead => inStack head (List.mem_of_mem_filter isHead)) fun _ isNone => absurd isNone List.not_mem_nil
  refine ⟨settled, ?_, fun head isHead => ?_, bestPlaced⟩
  · exact Nat.lt_of_lt_of_eq nonempty same.size.symm
  · exact Nat.lt_of_lt_of_eq (inSettled head (List.mem_of_mem_take isHead)) same.size.symm

/-- **Rounds of a sound reader give a nested tree.** -/
theorem Sound.rounds (tapeSound : tape.Sound ok) (sound : reader.Sound tape ok) {limit fuel reached : Nat}
    {tree : Tree κ} (isRead : rounds table tape limit fuel reader reached = .ok tree) : tree.Placed ok := by
  induction fuel generalizing reader reached with
  | zero => cases isRead
  | succ fuel ih =>
    have condensed := (Sound.sweep tapeSound sound table limit 0 reached).condense
    unfold Reader.rounds at isRead
    dsimp only at isRead
    split at isRead
    · next entry isBest =>
      cases isRead
      exact condensed.best entry isBest
    · split at isRead
      · cases isRead
      · exact ih condensed isRead

omit [DecidableEq κ] in
theorem sound_start (state : Nat) :
    Sound tape ok ({ stack := #[{ state, position := 0 }], heads := [{ node := 0 }] } : Reader κ) := by
  refine ⟨fun number link isLink => ?_, Nat.one_pos, fun head isHead => ?_, fun _ isNone => nomatch isNone⟩
  · cases number with
    | zero => exact absurd isLink List.not_mem_nil
    | succ number =>
      rw [Stack.node_of_size_le _ (Nat.le_add_left 1 number)] at isLink
      exact absurd isLink List.not_mem_nil
  · rw [List.mem_singleton.mp isHead]
    exact Nat.one_pos

end Reader

/-- **The places of what is read are nested**, whatever table it is read by. -/
theorem placed_read [DecidableEq κ] {table : Table κ} {tree : Tree κ} (tapeSound : tape.Sound ok)
    (isRead : read table tape = .ok tree) : tree.Placed ok := by
  unfold read at isRead
  dsimp only at isRead
  generalize (tape.length + 1) * (table.size + 1) = limit at isRead
  cases result : Reader.rounds table tape limit limit
      { stack := #[{ state := table.start, position := 0 }], heads := [{ node := 0 }] } 0 with
  | error reached =>
    rw [result] at isRead
    cases isRead
  | ok found =>
    rw [result] at isRead
    cases isRead
    exact Reader.Sound.rounds tapeSound (Reader.sound_start table.start) result

end StepChart.Reading
