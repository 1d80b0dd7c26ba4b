import Mathlib.Order.Bounds.Basic
import StepChart.Proofs.Text.Slices
import StepChart.Syntax.Excerpt

/-!
# Excerpts by bytes

A span is moved into the source first, so that it may lie anywhere and be inverted. What comes out then depends on three
things only: whether it is longer than the limit, whether it starts between two characters, and whether it ends there
(`excerpt_by_bytes`).
-/

namespace StepChart.Syntax

open Text

/-- Where a span ends in a source. -/
def Span.stopIn (source : String) (span : Span) : Nat := min span.stop source.utf8ByteSize

/-- Where a span starts in a source. -/
def Span.startIn (source : String) (span : Span) : Nat := min span.start (span.stopIn source)

variable {source : String} {span : Span} {limit : Nat}

theorem Span.startIn_le_stopIn (source : String) (span : Span) : span.startIn source ≤ span.stopIn source :=
  Nat.min_le_right _ _

/-! ## The four kinds of excerpts -/

/-- A long span that starts inside a character has no excerpt. -/
theorem excerpt_eq_error (long : limit < span.stopIn source - span.startIn source)
    (inside : ¬ Boundary source (span.startIn source)) :
    excerpt source span limit = .error .startInsideCharacter := by
  have undropped : dropBytes? (span.startIn source) source.toList = none := by
    rw [← Option.not_isSome_iff_eq_none]
    exact mt isCut_iff.1 inside
  unfold Span.startIn Span.stopIn at *
  unfold excerpt
  dsimp only
  rw [byteLength_toList, if_pos long, undropped]

/-- A long span is cut as late as the limit and the characters allow. -/
theorem excerpt_eq_cut (long : limit < span.stopIn source - span.startIn source)
    (starts : Boundary source (span.startIn source)) :
    ∃ kept cut, excerpt source span limit = .ok (kept ++ "...") ∧ IsSlice source (span.startIn source) cut kept ∧
      IsGreatest {place | span.startIn source ≤ place ∧ place ≤ span.startIn source + limit ∧ Boundary source place}
        cut := by
  obtain ⟨rest, dropped⟩ := Option.isSome_iff_exists.1 (isCut_iff.2 starts)
  obtain ⟨before, isText, isStart⟩ := dropBytes?_eq_some_iff.1 dropped
  obtain ⟨after, isRest⟩ := takeBytes_isPrefix limit rest
  have small := byteLength_takeBytes_le limit rest
  have between : Between source (span.startIn source) (span.startIn source + byteLength (takeBytes limit rest))
      (takeBytes limit rest) := ⟨before, after, by rw [isRest, isText], isStart, rfl⟩
  refine ⟨String.ofList (takeBytes limit rest), _, ?_, isSlice_of_between between,
    ⟨Nat.le_add_right _ _, Nat.add_le_add_left small _, between.stop_boundary⟩, ?_⟩
  · unfold Span.startIn Span.stopIn at *
    unfold excerpt
    dsimp only
    rw [byteLength_toList, if_pos long, dropped]
  · rintro place ⟨later, inLimit, isBoundary⟩
    obtain ⟨others, front, behind, isTextToo, isFront, isPlace⟩ := exists_between later starts isBoundary
    -- The characters up to the other place begin the rest, so they are no longer than what is taken of it.
    have sameRest : rest = others ++ behind := by
      have droppedToo : dropBytes? (span.startIn source) source.toList = some (others ++ behind) :=
        dropBytes?_eq_some_iff.2 ⟨front, isTextToo, isFront⟩
      rw [dropped] at droppedToo
      exact Option.some.inj droppedToo
    have fits : byteLength others ≤ limit := by omega
    have longest := byteLength_le_takeBytes (sameRest ▸ List.prefix_append others behind) fits
    omega

/-- A short span between boundaries is excerpted whole. -/
theorem excerpt_eq_slice (short : span.stopIn source - span.startIn source ≤ limit)
    (starts : Boundary source (span.startIn source)) (stops : Boundary source (span.stopIn source)) :
    ∃ text, excerpt source span limit = .ok text ∧ IsSlice source (span.startIn source) (span.stopIn source) text := by
  obtain ⟨cut, between⟩ := exists_between (span.startIn_le_stopIn source) starts stops
  refine ⟨String.ofList cut, ?_, isSlice_of_between between⟩
  have taken := (bind_takeBytes?_eq_some_iff (span.startIn_le_stopIn source)).2 between
  unfold Span.startIn Span.stopIn at *
  unfold excerpt
  dsimp only
  rw [byteLength_toList, if_neg (Nat.not_lt.2 short), taken]

/-- A short span that starts or ends inside a character has an empty excerpt. -/
theorem excerpt_eq_empty (short : span.stopIn source - span.startIn source ≤ limit)
    (inside : ¬ (Boundary source (span.startIn source) ∧ Boundary source (span.stopIn source))) :
    excerpt source span limit = .ok "" := by
  have untaken : (dropBytes? (span.startIn source) source.toList).bind
      (takeBytes? (span.stopIn source - span.startIn source)) = none := by
    rw [Option.eq_none_iff_forall_ne_some]
    intro cut taken
    have between := (bind_takeBytes?_eq_some_iff (span.startIn_le_stopIn source)).1 taken
    exact inside ⟨between.start_boundary, between.stop_boundary⟩
  unfold Span.startIn Span.stopIn at *
  unfold excerpt
  dsimp only
  rw [byteLength_toList, if_neg (Nat.not_lt.2 short), untaken]

/-! ## Their lengths -/

theorem utf8ByteSize_of_isSlice {start stop : Nat} {text : String} (isSlice : IsSlice source start stop text) :
    text.utf8ByteSize ≤ stop - start := by
  have size : text.utf8ByteSize = min stop source.toByteArray.size - start := by
    rw [← String.size_toByteArray, isSlice, ByteArray.size_extract]
  omega

/-- The excerpt of a short span is no longer than the span. -/
theorem utf8ByteSize_excerpt_short {text : String} (short : span.stopIn source - span.startIn source ≤ limit)
    (found : excerpt source span limit = .ok text) : text.utf8ByteSize ≤ span.stopIn source - span.startIn source := by
  by_cases whole : Boundary source (span.startIn source) ∧ Boundary source (span.stopIn source)
  · obtain ⟨slice, isExcerpt, isSlice⟩ := excerpt_eq_slice short whole.1 whole.2
    obtain rfl := Except.ok.inj (found.symm.trans isExcerpt)
    exact utf8ByteSize_of_isSlice isSlice
  · obtain rfl := Except.ok.inj (found.symm.trans (excerpt_eq_empty short whole))
    exact Nat.zero_le _

/-- An excerpt exceeds the limit by the three dots at most. -/
theorem utf8ByteSize_excerpt_le {text : String} (found : excerpt source span limit = .ok text) :
    text.utf8ByteSize ≤ limit + 3 := by
  rcases Nat.lt_or_ge limit (span.stopIn source - span.startIn source) with long | short
  · by_cases starts : Boundary source (span.startIn source)
    · obtain ⟨kept, cut, isExcerpt, isSlice, ⟨-, inLimit, -⟩, -⟩ := excerpt_eq_cut long starts
      obtain rfl := Except.ok.inj (found.symm.trans isExcerpt)
      have small := utf8ByteSize_of_isSlice isSlice
      have dots : "...".utf8ByteSize = 3 := rfl
      rw [String.utf8ByteSize_append]
      omega
    · cases found.symm.trans (excerpt_eq_error long starts)
  · have small := utf8ByteSize_excerpt_short short found
    omega

/-- **What an excerpt is, byte by byte.** There is none exactly if the span is longer than the limit and starts inside a
character. A span that is not longer is excerpted whole if it starts and ends between characters, and has an empty
excerpt if not. A longer one is cut at the last boundary within the limit, and dots are added. -/
theorem excerpt_by_bytes (source : String) (span : Span) (limit : Nat) :
    let stop := min span.stop source.utf8ByteSize
    let start := min span.start stop
    (excerpt source span limit = .error .startInsideCharacter ↔ limit < stop - start ∧ ¬ Boundary source start) ∧
    (stop - start ≤ limit →
      (Boundary source start → Boundary source stop →
        ∃ text, excerpt source span limit = .ok text ∧ IsSlice source start stop text) ∧
      (¬ (Boundary source start ∧ Boundary source stop) → excerpt source span limit = .ok "")) ∧
    (limit < stop - start → Boundary source start → ∃ kept cut,
      excerpt source span limit = .ok (kept ++ "...") ∧ IsSlice source start cut kept ∧
      IsGreatest {place | start ≤ place ∧ place ≤ start + limit ∧ Boundary source place} cut) ∧
    ∀ text, excerpt source span limit = .ok text → text.utf8ByteSize ≤ limit + 3 := by
  intro stop start
  refine ⟨⟨fun failed => ?_, fun ⟨long, inside⟩ => excerpt_eq_error long inside⟩,
    fun short => ⟨excerpt_eq_slice short, excerpt_eq_empty short⟩, excerpt_eq_cut, fun text => utf8ByteSize_excerpt_le⟩
  rcases Nat.lt_or_ge limit (stop - start) with long | short
  · refine ⟨long, fun starts => ?_⟩
    obtain ⟨kept, cut, isExcerpt, -⟩ := excerpt_eq_cut long starts
    cases failed.symm.trans isExcerpt
  · by_cases whole : Boundary source start ∧ Boundary source stop
    · obtain ⟨text, isExcerpt, -⟩ := excerpt_eq_slice short whole.1 whole.2
      cases failed.symm.trans isExcerpt
    · cases failed.symm.trans (excerpt_eq_empty short whole)

end StepChart.Syntax
