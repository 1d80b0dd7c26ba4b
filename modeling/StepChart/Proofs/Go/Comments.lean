import StepChart.Proofs.Go.Lexemes
import StepChart.Proofs.Go.Numbers

/-!
# Comments as blanks

A lexeme that is no comment stays the same if comments after it are replaced by blanks (`lexemeAt?_blanked`). A
string or a rune depends on its own characters only; a name or a number ends where a blank or a comment begins;
and a slash does not become the beginning of a comment, because blanks close none.
-/

namespace StepChart.Go

open Syntax Text

/-! ## Lexemes with an end of their own -/

theorem rawStringRest?_take {cs : List Char} {n : Nat} (found : rawStringRest? cs = some n) (rest : List Char) :
    rawStringRest? (cs.take n ++ rest) = some n := by
  fun_induction rawStringRest? cs generalizing n with
  | case1 cs =>
    cases found
    rfl
  | case2 => cases found
  | case3 c cs notQuote notNull ih =>
    obtain ⟨m, isRest, rfl⟩ := Option.map_eq_some_iff.mp found
    rw [List.take_succ_cons, List.cons_append, rawStringRest?, ih isRest]
    · rfl
    · exact notQuote
    · exact notNull
  | case4 => cases found

theorem stringRest?_take {cs : List Char} {n : Nat} (found : stringRest? cs = some n) (rest : List Char) :
    stringRest? (cs.take n ++ rest) = some n := by
  fun_induction stringRest? cs generalizing n with
  | case1 =>
    cases found
    rfl
  | case2 | case3 | case5 | case7 | case9 | case10 | case13 => cases found
  | case4 a b cs areHex ih =>
    obtain ⟨m, isRest, rfl⟩ := Option.map_eq_some_iff.mp found
    simp only [List.take_succ_cons, List.cons_append, stringRest?, areHex, if_true, ih isRest, Option.map_some]
  | case6 a b c d cs areHex ih =>
    obtain ⟨m, isRest, rfl⟩ := Option.map_eq_some_iff.mp found
    simp only [List.take_succ_cons, List.cons_append, stringRest?, areHex, if_true, ih isRest, Option.map_some]
  | case8 a b c d e f g h cs areHex ih =>
    obtain ⟨m, isRest, rfl⟩ := Option.map_eq_some_iff.mp found
    simp only [List.take_succ_cons, List.cons_append, stringRest?, areHex, if_true, ih isRest, Option.map_some]
  | case11 c cs _ _ _ plain ih =>
    obtain ⟨m, isRest, rfl⟩ := Option.map_eq_some_iff.mp found
    rw [List.take_succ_cons, List.take_succ_cons, List.cons_append, List.cons_append, stringRest?, if_neg plain,
      ih isRest]
    · rfl
    · exact fun _ _ _ isX => absurd (.inl isX) plain
    · exact fun _ _ _ _ _ isU => absurd (.inr (.inl isU)) plain
    · exact fun _ _ _ _ _ _ _ _ _ isU => absurd (.inr (.inr (.inl isU))) plain
  | case12 c cs notQuote notNewline notNull _ _ _ noEscape ih =>
    obtain ⟨m, isRest, rfl⟩ := Option.map_eq_some_iff.mp found
    have notBackslash : c ≠ '\\' := by
      intro isBackslash
      cases cs with
      | nil => cases isRest
      | cons d cs => exact noEscape d cs isBackslash rfl
    rw [List.take_succ_cons, List.cons_append, stringRest?, ih isRest]
    · rfl
    · exact notQuote
    · exact notNewline
    · exact notNull
    · exact fun _ _ _ isBackslash => absurd isBackslash notBackslash
    · exact fun _ _ _ _ _ isBackslash => absurd isBackslash notBackslash
    · exact fun _ _ _ _ _ _ _ _ _ isBackslash => absurd isBackslash notBackslash
    · exact fun _ _ isBackslash => absurd isBackslash notBackslash

theorem take_append_take {cs rest : List Char} {n m : Nat} (le : m ≤ n) (enough : (cs.take m).length = m) :
    (cs.take n ++ rest).take m = cs.take m := by
  rw [List.length_take] at enough
  rw [List.take_append_of_le_length (by rw [List.length_take]; omega), List.take_take, Nat.min_eq_left le]

/-- An escape in a rune depends on its own characters only. -/
theorem runeEscape?_take {cs : List Char} {n m : Nat} (found : runeEscape? cs = some n) (le : n ≤ m)
    (rest : List Char) :
    runeEscape? (cs.take m ++ rest) = some n := by
  cases cs with
  | nil => cases found
  | cons c cs =>
    -- the letter decides how many digits follow, and they are all there
    have digits : ∀ {count : Nat} {isDigit : Char → Bool} (k : Nat), count ≤ k →
        (cs.take count).length = count ∧ (cs.take count).all isDigit = true →
        ((cs.take k ++ rest).take count).length = count ∧ ((cs.take k ++ rest).take count).all isDigit = true := by
      intro count isDigit k le areDigits
      rw [take_append_take le areDigits.1]
      exact areDigits
    obtain ⟨k, rfl⟩ : ∃ k, m = k + 1 := by
      refine ⟨m - 1, ?_⟩
      rw [runeEscape?] at found
      split_ifs at found <;> cases found <;> omega
    rw [List.take_succ_cons, List.cons_append]
    rw [runeEscape?] at found ⊢
    split at found
    · next isLetter =>
      cases found
      rw [if_pos isLetter]
    · next noLetter =>
      rw [if_neg noLetter]
      split at found
      · next isHex =>
        cases found
        rw [if_pos ⟨isHex.1, digits k (by omega) isHex.2⟩]
      · split at found
        · next isShort =>
          cases found
          obtain ⟨rfl, areDigits⟩ := isShort
          rw [if_neg (by simp), if_pos ⟨rfl, digits k (by omega) areDigits⟩]
        · split at found
          · next isLong =>
            cases found
            obtain ⟨rfl, areDigits⟩ := isLong
            rw [if_neg (by simp), if_neg (by simp), if_pos ⟨rfl, digits k (by omega) areDigits⟩]
          · split at found
            · next isOctal =>
              cases found
              obtain ⟨isDigit, areDigits⟩ := isOctal
              have noBase : ∀ {letter : Char}, isOctalDigit letter = false → c ≠ letter := by
                rintro letter noDigit rfl
                rw [isDigit] at noDigit
                cases noDigit
              rw [if_neg fun isHex => noBase (by decide) isHex.1, if_neg fun isShort => noBase (by decide) isShort.1,
                if_neg fun isLong => noBase (by decide) isLong.1, if_pos ⟨isDigit, digits k (by omega) areDigits⟩]
            · cases found

theorem runeRest?_take {cs : List Char} {n : Nat} (found : runeRest? cs = some n) (rest : List Char) :
    runeRest? (cs.take n ++ rest) = some n := by
  fun_cases runeRest? cs with
  | case1 cs =>
    rw [runeRest?] at found
    obtain ⟨k, escaped, closed⟩ := Option.bind_eq_some_iff.mp found
    split at closed
    · next isQuote =>
      cases closed
      have quoted : ((cs.take (k + 1) ++ rest).drop k).head? = some '\'' := by
        rw [List.head?_drop] at isQuote ⊢
        have inBounds := (List.getElem?_eq_some_iff.mp isQuote).1
        rw [List.getElem?_append_left (by rw [List.length_take]; omega),
          List.getElem?_take_of_lt (Nat.lt_succ_self k), isQuote]
      rw [List.take_succ_cons, List.cons_append, runeRest?, runeEscape?_take escaped (Nat.le_succ k), Option.bind_some,
        if_pos quoted]
    · cases closed
  | case2 c cs notBackslash excluded =>
    rw [runeRest?, if_pos excluded] at found
    · cases found
    · exact notBackslash
  | case3 c cs notBackslash plain =>
    rw [runeRest?, if_neg plain] at found
    · cases found
      rw [List.take_succ_cons, List.take_succ_cons, List.take_zero, List.cons_append, List.cons_append, runeRest?,
        if_neg plain]
      exact notBackslash
    · exact notBackslash
  | case4 cs notBackslash notClosed =>
    rw [runeRest?] at found
    · cases found
    · exact notBackslash
    · exact notClosed

/-! ## Texts with blanks for comments -/

/-- The second text has blanks for some comments of the first one, as many as they have bytes. -/
inductive Blanked : List Char → List Char → Prop
  | nil : Blanked [] []
  | keep {cs blanks : List Char} (c : Char) (later : Blanked cs blanks) : Blanked (c :: cs) (c :: blanks)
  | comment {cs blanks text : List Char} (noNull : '\x00' ∉ text) (later : Blanked cs blanks) :
      Blanked ('/' :: text ++ cs) (List.replicate (byteLength ('/' :: text)) ' ' ++ blanks)

namespace Blanked

variable {cs blanks : List Char}

theorem append (text : List Char) (later : Blanked cs blanks) : Blanked (text ++ cs) (text ++ blanks) := by
  induction text with
  | nil => exact later
  | cons c text ih => exact .keep c ih

theorem byteLength_replicate (n : Nat) : byteLength (List.replicate n ' ') = n := by
  induction n with
  | zero => rfl
  | succ n ih =>
    rw [List.replicate_succ, byteLength, ih]
    exact Nat.add_comm 1 n

theorem byteLength_eq (blanked : Blanked cs blanks) : byteLength blanks = byteLength cs := by
  induction blanked with
  | nil => rfl
  | keep c later ih => rw [byteLength, byteLength, ih]
  | comment noNull later ih => rw [byteLength_append, byteLength_append, byteLength_replicate, ih]

/-- The texts are the same up to the first comment that is replaced. -/
theorem first (blanked : Blanked cs blanks) :
    cs = blanks ∨ ∃ before rest others, cs = before ++ '/' :: rest ∧ blanks = before ++ ' ' :: others := by
  induction blanked with
  | nil => exact .inl rfl
  | keep c later ih =>
    rcases ih with rfl | ⟨before, rest, others, rfl, rfl⟩
    · exact .inl rfl
    · exact .inr ⟨c :: before, rest, others, rfl, rfl⟩
  | @comment cs blanks text noNull later ih =>
    have some : byteLength ('/' :: text) = byteLength text + 1 := Nat.add_comm _ _
    refine .inr ⟨[], text ++ cs, List.replicate (byteLength text) ' ' ++ blanks, rfl, ?_⟩
    rw [some]
    rfl

/-- The same number starts both texts. -/
theorem numberLength_eq (blanked : Blanked cs blanks) : numberLength blanks = numberLength cs := by
  rcases blanked.first with rfl | ⟨before, rest, others, rfl, rfl⟩
  · rfl
  · rw [numberLength_append (.inl rfl), numberLength_append (.inr rfl)]

/-- A name that ends in one text ends in the other. -/
theorem takeWhile_eq_nil (blanked : Blanked cs blanks) (ended : cs.takeWhile isIdentifierPart = []) :
    blanks.takeWhile isIdentifierPart = [] := by
  rcases blanked.first with rfl | ⟨before, rest, others, rfl, rfl⟩
  · exact ended
  · cases before with
    | nil => exact List.takeWhile_cons_of_neg (by decide +kernel)
    | cons c before =>
      have notPart : ¬isIdentifierPart c = true := by
        intro isPart
        rw [List.cons_append, List.takeWhile_cons_of_pos isPart] at ended
        cases ended
      exact List.takeWhile_cons_of_neg notPart

end Blanked

/-! ## Block comments -/

theorem blockCommentRest?_cons {c : Char} {cs : List Char} (notNull : c ≠ '\x00')
    (isOpen : c = '*' → cs.head? ≠ some '/') :
    blockCommentRest? (c :: cs) = (blockCommentRest? cs).map (· + 1) := by
  rw [blockCommentRest?]
  · rintro ds rfl rfl
    exact isOpen rfl rfl
  · exact notNull

/-- What can be said of a text in which a block comment is not closed. -/
theorem blockCommentRest?_cons_eq_none_iff {c : Char} {cs : List Char} :
    blockCommentRest? (c :: cs) = none ↔ c = '\x00' ∨ (c = '*' → cs.head? ≠ some '/') ∧
      blockCommentRest? cs = none := by
  by_cases isNull : c = '\x00'
  · subst isNull
    exact iff_of_true rfl (.inl rfl)
  · by_cases isOpen : c = '*' → cs.head? ≠ some '/'
    · rw [blockCommentRest?_cons isNull isOpen, Option.map_eq_none_iff]
      exact ⟨fun none => .inr ⟨isOpen, none⟩, fun either => either.elim (absurd · isNull) And.right⟩
    · obtain ⟨rfl, isSlash⟩ := Classical.not_imp.mp isOpen
      obtain ⟨ds, rfl⟩ : ∃ ds, cs = '/' :: ds := by
        cases cs with
        | nil => exact absurd nofun isSlash
        | cons d ds =>
          have := Option.some.inj (Classical.not_not.mp isSlash)
          exact ⟨ds, by rw [this]⟩
      refine iff_of_false nofun ?_
      rintro (isNull | ⟨isOpen, -⟩)
      · cases isNull
      · exact isOpen rfl rfl

theorem blockCommentRest?_of_append {text cs : List Char} (noNull : '\x00' ∉ text)
    (unclosed : blockCommentRest? (text ++ cs) = none) : blockCommentRest? cs = none := by
  induction text with
  | nil => exact unclosed
  | cons c text ih =>
    rcases blockCommentRest?_cons_eq_none_iff.mp unclosed with rfl | ⟨-, rest⟩
    · exact absurd (.head text) noNull
    · exact ih (fun isNull => noNull (.tail c isNull)) rest

theorem blockCommentRest?_blanks {cs : List Char} (unclosed : blockCommentRest? cs = none) (n : Nat) :
    blockCommentRest? (List.replicate n ' ' ++ cs) = none := by
  induction n with
  | zero => exact unclosed
  | succ n ih => exact blockCommentRest?_cons_eq_none_iff.mpr (.inr ⟨nofun, ih⟩)

namespace Blanked

variable {cs blanks : List Char}

/-- What begins with a character other than a blank began with it before. -/
theorem head?_eq_some (blanked : Blanked cs blanks) {c : Char} (notBlank : ' ' ≠ c) (isHead : blanks.head? = some c) :
    cs.head? = some c := by
  rcases blanked.first with rfl | ⟨before, rest, others, rfl, rfl⟩
  · exact isHead
  · cases before with
    | nil => exact absurd (Option.some.inj isHead) notBlank
    | cons d before => exact isHead

/-- A block comment that is not closed is not closed by blanks for comments. -/
theorem blockCommentRest?_eq_none (blanked : Blanked cs blanks) (unclosed : blockCommentRest? cs = none) :
    blockCommentRest? blanks = none := by
  induction blanked with
  | nil => rfl
  | keep c later ih =>
    rcases blockCommentRest?_cons_eq_none_iff.mp unclosed with isNull | ⟨isOpen, rest⟩
    · exact blockCommentRest?_cons_eq_none_iff.mpr (.inl isNull)
    · exact blockCommentRest?_cons_eq_none_iff.mpr
        (.inr ⟨fun isStar isSlash => isOpen isStar (later.head?_eq_some (by decide) isSlash), ih rest⟩)
  | comment noNull later ih =>
    -- an outer comment that is still open runs through this one, which has no null character to stop it
    have rest := blockCommentRest?_of_append (List.not_mem_cons_of_ne_of_not_mem (by decide) noNull) unclosed
    exact blockCommentRest?_blanks (ih rest) _

/-- A slash that begins no comment does not come to do so. -/
theorem commentRest?_eq_none (blanked : Blanked cs blanks) (noComment : commentRest? cs = none) :
    commentRest? blanks = none := by
  cases blanked with
  | nil => rfl
  | comment noNull later => cases noComment
  | keep c later =>
    unfold commentRest? at noComment ⊢
    split at noComment
    · cases noComment
    · next same =>
      cases same
      exact Option.map_eq_none_iff.mpr (later.blockCommentRest?_eq_none (Option.map_eq_none_iff.mp noComment))
    · next noLine noBlock =>
      split
      · next same =>
        cases same
        exact absurd rfl (noLine _)
      · next same =>
        cases same
        exact absurd rfl (noBlock _)
      · rfl

end Blanked

/-! ## Lexemes before blanks -/

section Lexeme

variable {c : Char} {cs : List Char} {extra : Nat}

theorem noNull_blockComment {n : Nat} (found : blockCommentRest? cs = some n) : '\x00' ∉ cs.take n := by
  fun_induction blockCommentRest? cs generalizing n with
  | case1 rest =>
    cases found
    simp
  | case2 | case4 => cases found
  | case3 c cs _ notNull ih =>
    obtain ⟨m, isRest, rfl⟩ := Option.map_eq_some_iff.mp found
    exact List.not_mem_cons_of_ne_of_not_mem (Ne.symm notNull) (ih isRest)

theorem noNull_comment (found : commentRest? cs = some extra) : '\x00' ∉ cs.take extra := by
  unfold commentRest? at found
  split at found
  · next cs =>
    cases found
    rw [List.take_succ_cons, ← List.prefix_iff_eq_take.mp (List.takeWhile_prefix _)]
    refine List.not_mem_cons_of_ne_of_not_mem (by decide) fun isNull => ?_
    cases List.all_eq_true.mp List.all_takeWhile _ isNull
  · next cs =>
    obtain ⟨n, isRest, rfl⟩ := Option.map_eq_some_iff.mp found
    exact List.not_mem_cons_of_ne_of_not_mem (by decide) (noNull_blockComment isRest)
  · cases found

/-- A comment begins with a slash and holds no null character. -/
theorem comment_text (found : lexemeAt? c cs = some (.comment, extra)) : c = '/' ∧ '\x00' ∉ cs.take extra := by
  unfold lexemeAt? at found
  have notMapped : ∀ {kind : LexemeKind} {rest? : Option Nat}, kind ≠ .comment →
      rest?.map ((kind, ·)) ≠ some (.comment, extra) := by
    intro kind rest? notComment isComment
    obtain ⟨rest, -, same⟩ := Option.map_eq_some_iff.mp isComment
    exact notComment (Prod.mk.inj same).1
  split at found
  · cases found
  split at found
  · cases found
  split at found
  · cases found
  split at found
  · exact absurd found (notMapped nofun)
  split at found
  · exact absurd found (notMapped nofun)
  split at found
  · exact absurd found (notMapped nofun)
  split at found
  · cases found
  split at found
  · split at found
    · next rest isComment =>
      cases found
      obtain ⟨isSlash, isRest⟩ := Option.ite_none_right_eq_some.1 isComment
      exact ⟨isSlash, noNull_comment isRest⟩
    · cases found
  · cases found

/-- A name ends where it ended, before blanks for comments. -/
theorem takeWhile_blanked {blanks : List Char}
    (blanked : Blanked (cs.drop (cs.takeWhile isIdentifierPart).length) blanks) :
    (cs.take (cs.takeWhile isIdentifierPart).length ++ blanks).takeWhile isIdentifierPart =
      cs.takeWhile isIdentifierPart := by
  have start : cs.take (cs.takeWhile isIdentifierPart).length = cs.takeWhile isIdentifierPart :=
    (List.prefix_iff_eq_take.mp (List.takeWhile_prefix _)).symm
  have parts : ∀ {rest : List Char}, (cs.takeWhile isIdentifierPart ++ rest).takeWhile isIdentifierPart =
      cs.takeWhile isIdentifierPart ++ rest.takeWhile isIdentifierPart :=
    List.takeWhile_append_of_pos (List.all_eq_true.mp List.all_takeWhile)
  have ended : (cs.drop (cs.takeWhile isIdentifierPart).length).takeWhile isIdentifierPart = [] := by
    have whole := @parts (cs.drop (cs.takeWhile isIdentifierPart).length)
    nth_rewrite 1 [← start] at whole
    rw [List.take_append_drop] at whole
    exact List.self_eq_append_right.mp whole
  rw [start, parts, blanked.takeWhile_eq_nil ended, List.append_nil]

/-- **A lexeme that is no comment stays the same before blanks for comments.** -/
theorem lexemeAt?_blanked {kind : LexemeKind} {blanks : List Char} (found : lexemeAt? c cs = some (kind, extra))
    (notComment : kind ≠ .comment) (blanked : Blanked (cs.drop extra) blanks) :
    lexemeAt? c (cs.take extra ++ blanks) = some (kind, extra) := by
  have whole : Blanked cs (cs.take extra ++ blanks) := by
    have whole := blanked.append (cs.take extra)
    rwa [List.take_append_drop] at whole
  unfold lexemeAt? at found ⊢
  rw [(Blanked.keep c whole).numberLength_eq]
  split at found
  · next isNewline =>
    rw [if_pos isNewline]
    exact found
  rename_i notNewline
  rw [if_neg notNewline]
  split at found
  · next isBlank =>
    rw [if_pos isBlank]
    exact found
  rename_i notBlank
  rw [if_neg notBlank]
  split at found
  · next isName =>
    cases found
    rw [if_pos isName, takeWhile_blanked blanked]
  rename_i notName
  rw [if_neg notName]
  split at found
  · next isString =>
    obtain ⟨_, isRest, same⟩ := Option.map_eq_some_iff.mp found
    cases same
    rw [if_pos isString, stringRest?_take isRest, Option.map_some]
  rename_i notString
  rw [if_neg notString]
  split at found
  · next isRaw =>
    obtain ⟨_, isRest, same⟩ := Option.map_eq_some_iff.mp found
    cases same
    rw [if_pos isRaw, rawStringRest?_take isRest, Option.map_some]
  rename_i notRaw
  rw [if_neg notRaw]
  split at found
  · next isRune =>
    obtain ⟨_, isRest, same⟩ := Option.map_eq_some_iff.mp found
    cases same
    rw [if_pos isRune, runeRest?_take isRest, Option.map_some]
  rename_i notRune
  rw [if_neg notRune]
  split at found
  · next isNumber =>
    rw [if_pos isNumber]
    exact found
  rename_i notNumber
  rw [if_neg notNumber]
  split at found
  · next isMark =>
    rw [if_pos isMark]
    split at found
    · cases found
      exact absurd rfl notComment
    · next noComment =>
      have still : (if c = '/' then commentRest? (cs.take extra ++ blanks) else none) = none := by
        split at noComment
        · next isSlash => rw [if_pos isSlash, whole.commentRest?_eq_none noComment]
        · next notSlash => rw [if_neg notSlash]
      rw [still]
      exact found
  · cases found

end Lexeme

end StepChart.Go
