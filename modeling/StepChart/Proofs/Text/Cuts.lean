import StepChart.Text.Bytes

/-!
# Cuts between characters

The bytes of a text at which it can be cut are the lengths of what it begins with.
-/

namespace StepChart.Text

/-- A byte between two characters of a text, or at one of its ends. -/
def isCut (source : String) (place : Nat) : Bool := (dropBytes? place source.toList).isSome

theorem byteLength_append (first second : List Char) :
    byteLength (first ++ second) = byteLength first + byteLength second := by
  induction first with
  | nil => simp [byteLength]
  | cons c cs ih => simp only [List.cons_append, byteLength, ih, Nat.add_assoc]

theorem utf8ByteSize_eq_byteLength (cs : List Char) : (String.ofList cs).utf8ByteSize = byteLength cs := by
  induction cs with
  | nil => rfl
  | cons c cs ih => rw [String.ofList_cons, String.utf8ByteSize_append, String.utf8ByteSize_singleton, ih, byteLength]

theorem byteLength_toList (source : String) : byteLength source.toList = source.utf8ByteSize := by
  rw [← utf8ByteSize_eq_byteLength, String.ofList_toList]

theorem ofList_cons_ne_empty (c : Char) (cs : List Char) : String.ofList (c :: cs) ≠ "" := by
  intro isEmpty
  have noChars := congrArg String.toList isEmpty
  rw [String.toList_ofList] at noChars
  cases noChars

theorem dropBytes?_append (before after : List Char) :
    dropBytes? (byteLength before) (before ++ after) = some after := by
  induction before with
  | nil => cases after <;> rfl
  | cons c cs ih =>
    have size : c.utf8Size + byteLength cs = c.utf8Size - 1 + byteLength cs + 1 := by
      have := c.utf8Size_pos
      omega
    rw [byteLength, size, List.cons_append, dropBytes?, ← size, if_pos (Nat.le_add_right _ _),
      Nat.add_sub_cancel_left, ih]

/-- The cuts of a text are the lengths of what it begins with. -/
theorem isCut_of_append {source : String} {before after : List Char} (isText : source.toList = before ++ after) :
    isCut source (byteLength before) = true := by
  unfold isCut
  rw [isText, dropBytes?_append]
  rfl

theorem byteLength_of_dropBytes? {place : Nat} {cs rest : List Char} (dropped : dropBytes? place cs = some rest) :
    place ≤ byteLength cs := by
  induction cs generalizing place with
  | nil =>
    cases place with
    | zero => exact Nat.le_refl _
    | succ place => cases dropped
  | cons c cs ih =>
    cases place with
    | zero => exact Nat.zero_le _
    | succ place =>
      rw [dropBytes?] at dropped
      split at dropped
      · have := ih dropped
        rw [byteLength]
        omega
      · cases dropped

theorem byteLength_takeBytes_le (limit : Nat) (cs : List Char) : byteLength (takeBytes limit cs) ≤ limit := by
  induction cs generalizing limit with
  | nil => exact Nat.zero_le limit
  | cons c cs ih =>
    rw [takeBytes]
    split
    · have := ih (limit - c.utf8Size)
      rw [byteLength]
      omega
    · exact Nat.zero_le limit

theorem byteLength_of_takeBytes? {limit : Nat} {cs cut : List Char} (taken : takeBytes? limit cs = some cut) :
    byteLength cut = limit := by
  induction cs generalizing limit cut with
  | nil =>
    cases limit with
    | zero =>
      cases taken
      rfl
    | succ limit => cases taken
  | cons c cs ih =>
    cases limit with
    | zero =>
      cases taken
      rfl
    | succ limit =>
      rw [takeBytes?] at taken
      split at taken
      · obtain ⟨rest, isRest, rfl⟩ := Option.map_eq_some_iff.1 taken
        have := ih isRest
        rw [byteLength]
        omega
      · cases taken

theorem le_of_isCut {source : String} {place : Nat} (cut : isCut source place = true) :
    place ≤ source.utf8ByteSize := by
  obtain ⟨rest, dropped⟩ := Option.isSome_iff_exists.mp cut
  have le := byteLength_of_dropBytes? dropped
  rwa [← utf8ByteSize_eq_byteLength, String.ofList_toList] at le

end StepChart.Text
