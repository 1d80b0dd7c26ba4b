import StepChart.Proofs.Text.Cuts

/-!
# Slices of the bytes of a text

Cutting goes from character to character; here it is tied to the bytes. A text can be cut at the places where a
character starts or the text ends (`isCut_iff`), what is cut out between two of them has the bytes that stand there
(`isSlice_of_between`), and no longer run of characters than `takeBytes` takes fits (`byteLength_le_takeBytes`).
-/

namespace StepChart.Text

/-- No character is cut in two at this byte of the text. -/
def Boundary (source : String) (place : Nat) : Prop := String.Pos.Raw.IsValid source ⟨place⟩

instance (source : String) (place : Nat) : Decidable (Boundary source place) :=
  inferInstanceAs (Decidable (String.Pos.Raw.IsValid source ⟨place⟩))

/-- The text has the bytes of the source from `start` up to `stop`. -/
def IsSlice (source : String) (start stop : Nat) (text : String) : Prop :=
  text.toByteArray = source.toByteArray.extract start stop

instance (source : String) (start stop : Nat) (text : String) : Decidable (IsSlice source start stop text) :=
  inferInstanceAs (Decidable (_ = _))

/-- The characters stand in the source from byte `start` up to byte `stop`. -/
def Between (source : String) (start stop : Nat) (cut : List Char) : Prop :=
  ∃ before after, source.toList = before ++ (cut ++ after) ∧ byteLength before = start ∧ start + byteLength cut = stop

/-! ## Cuts -/

theorem dropBytes?_eq_some_iff {place : Nat} {cs rest : List Char} :
    dropBytes? place cs = some rest ↔ ∃ before, cs = before ++ rest ∧ byteLength before = place := by
  constructor
  · intro dropped
    induction cs generalizing place with
    | nil =>
      cases place with
      | zero =>
        cases dropped
        exact ⟨[], rfl, rfl⟩
      | succ place => cases dropped
    | cons c cs ih =>
      cases place with
      | zero =>
        cases dropped
        exact ⟨[], rfl, rfl⟩
      | succ place =>
        rw [dropBytes?] at dropped
        split at dropped
        next fits =>
          obtain ⟨before, rfl, size⟩ := ih dropped
          refine ⟨c :: before, rfl, ?_⟩
          rw [byteLength, size]
          omega
        next => cases dropped
  · rintro ⟨before, rfl, rfl⟩
    exact dropBytes?_append before rest

theorem takeBytes?_append (cut after : List Char) : takeBytes? (byteLength cut) (cut ++ after) = some cut := by
  induction cut with
  | nil => cases after <;> rfl
  | cons c cs ih =>
    have size : c.utf8Size + byteLength cs = c.utf8Size - 1 + byteLength cs + 1 := by
      have := c.utf8Size_pos
      omega
    rw [byteLength, size, List.cons_append, takeBytes?, ← size, if_pos (Nat.le_add_right _ _),
      Nat.add_sub_cancel_left, ih]
    rfl

theorem takeBytes?_eq_some_iff {count : Nat} {cs cut : List Char} :
    takeBytes? count cs = some cut ↔ ∃ after, cs = cut ++ after ∧ byteLength cut = count := by
  constructor
  · intro taken
    have size := byteLength_of_takeBytes? taken
    induction cs generalizing count cut with
    | nil =>
      cases count with
      | zero =>
        cases taken
        exact ⟨[], rfl, rfl⟩
      | succ count => cases taken
    | cons c cs ih =>
      cases count with
      | zero =>
        cases taken
        exact ⟨c :: cs, rfl, rfl⟩
      | succ count =>
        rw [takeBytes?] at taken
        split at taken
        next fits =>
          obtain ⟨rest, isRest, rfl⟩ := Option.map_eq_some_iff.1 taken
          obtain ⟨after, rfl, -⟩ := ih isRest (byteLength_of_takeBytes? isRest)
          exact ⟨after, rfl, size⟩
        next => cases taken
  · rintro ⟨after, rfl, rfl⟩
    exact takeBytes?_append cut after

/-- A text is cut where what comes before is text. -/
theorem boundary_iff {source : String} {place : Nat} :
    Boundary source place ↔ ∃ before after, source.toList = before ++ after ∧ byteLength before = place := by
  unfold Boundary
  rw [String.Pos.Raw.isValid_iff_exists_append]
  constructor
  · rintro ⟨before, after, rfl, isPlace⟩
    refine ⟨before.toList, after.toList, String.toList_append, ?_⟩
    rw [byteLength_toList]
    exact (congrArg String.Pos.Raw.byteIdx isPlace).symm
  · rintro ⟨before, after, isText, rfl⟩
    refine ⟨String.ofList before, String.ofList after, ?_, ?_⟩
    · rw [← String.ofList_append, ← isText, String.ofList_toList]
    · exact String.Pos.Raw.ext (utf8ByteSize_eq_byteLength before).symm

/-- **The cuts of a text are its boundaries.** -/
theorem isCut_iff {source : String} {place : Nat} : isCut source place = true ↔ Boundary source place := by
  unfold isCut
  rw [Option.isSome_iff_exists, boundary_iff, exists_comm]
  exact exists_congr fun rest => dropBytes?_eq_some_iff

/-! ## Slices -/

section Between

variable {source : String} {start stop : Nat} {cut : List Char}

theorem Between.start_boundary (between : Between source start stop cut) : Boundary source start := by
  obtain ⟨before, after, isText, isStart, -⟩ := between
  exact boundary_iff.2 ⟨before, cut ++ after, isText, isStart⟩

theorem Between.stop_boundary (between : Between source start stop cut) : Boundary source stop := by
  obtain ⟨before, after, isText, rfl, rfl⟩ := between
  exact boundary_iff.2 ⟨before ++ cut, after, by rw [isText, List.append_assoc], byteLength_append before cut⟩

/-- Between two boundaries there are characters. -/
theorem exists_between (inOrder : start ≤ stop) (isStart : Boundary source start) (isStop : Boundary source stop) :
    ∃ cut, Between source start stop cut := by
  obtain ⟨before, after, isText, rfl⟩ := boundary_iff.1 isStart
  obtain ⟨longer, rest, isTextToo, rfl⟩ := boundary_iff.1 isStop
  have split : before ++ after = longer ++ rest := isText.symm.trans isTextToo
  rcases List.append_eq_append_iff.1 split with ⟨cut, rfl, rfl⟩ | ⟨cut, rfl, rfl⟩
  · exact ⟨cut, before, rest, isText, rfl, (byteLength_append before cut).symm⟩
  · -- The second boundary is not before the first, so nothing stands between them.
    rw [byteLength_append] at inOrder
    refine ⟨[], longer ++ cut, after, isText, rfl, ?_⟩
    rw [byteLength_append, byteLength]
    omega

/-- **Characters are cut out by their bytes.** -/
theorem isSlice_of_between (between : Between source start stop cut) :
    IsSlice source start stop (String.ofList cut) := by
  obtain ⟨before, after, isText, rfl, rfl⟩ := between
  have isSource : source = String.ofList before ++ (String.ofList cut ++ String.ofList after) := by
    rw [← String.ofList_append, ← String.ofList_append, ← isText, String.ofList_toList]
  have sizeBefore : (String.ofList before).toByteArray.size = byteLength before := utf8ByteSize_eq_byteLength before
  have sizeCut : (String.ofList cut).toByteArray.size = byteLength cut := utf8ByteSize_eq_byteLength cut
  unfold IsSlice
  rw [isSource, String.toByteArray_append, String.toByteArray_append, ← sizeBefore, ← sizeCut]
  exact ((ByteArray.extract_append_size_add (i := 0)).trans (ByteArray.extract_append_eq_left rfl)).symm

theorem bind_takeBytes?_eq_some_iff (inOrder : start ≤ stop) :
    (dropBytes? start source.toList).bind (takeBytes? (stop - start)) = some cut ↔ Between source start stop cut := by
  rw [Option.bind_eq_some_iff]
  constructor
  · rintro ⟨rest, dropped, taken⟩
    obtain ⟨before, isText, isStart⟩ := dropBytes?_eq_some_iff.1 dropped
    obtain ⟨after, rfl, size⟩ := takeBytes?_eq_some_iff.1 taken
    exact ⟨before, after, isText, isStart, by omega⟩
  · rintro ⟨before, after, isText, isStart, isStop⟩
    refine ⟨cut ++ after, dropBytes?_eq_some_iff.2 ⟨before, isText, isStart⟩, takeBytes?_eq_some_iff.2 ⟨after, rfl, ?_⟩⟩
    omega

end Between

/-! ## The longest run that fits -/

theorem takeBytes_isPrefix (limit : Nat) (cs : List Char) : takeBytes limit cs <+: cs := by
  induction cs generalizing limit with
  | nil => exact List.nil_prefix
  | cons c cs ih =>
    rw [takeBytes]
    split
    · exact List.cons_prefix_cons.2 ⟨rfl, ih _⟩
    · exact List.nil_prefix

theorem byteLength_le_takeBytes {limit : Nat} {cs cut : List Char} (starts : cut <+: cs)
    (fits : byteLength cut ≤ limit) : byteLength cut ≤ byteLength (takeBytes limit cs) := by
  induction cs generalizing limit cut with
  | nil =>
    rw [List.prefix_nil.1 starts]
    exact Nat.zero_le _
  | cons c cs ih =>
    rcases List.prefix_cons_iff.1 starts with rfl | ⟨rest, rfl, startsRest⟩
    · exact Nat.zero_le _
    · rw [byteLength] at fits ⊢
      rw [takeBytes, if_pos (by omega), byteLength]
      have fitsRest : byteLength rest ≤ limit - c.utf8Size := by omega
      have longest := ih startsRest fitsRest
      omega

end StepChart.Text
