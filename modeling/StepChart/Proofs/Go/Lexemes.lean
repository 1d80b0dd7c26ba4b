import StepChart.Go.Lookahead
import StepChart.Proofs.Reading.Readings
import StepChart.Proofs.Text.Cuts

/-!
# Places of lexemes and tokens

Lexemes are cut off a text one after the other; `Lexes` says which. So the places of lexemes, and of the tokens
among them, are cuts between characters of the text, each token ends before the next one begins, and a reader
sees them as a sound tape (`sound_tape`).
-/

namespace StepChart

open Grammar Reading Syntax Text

namespace Go

/-! ## Lexemes -/

/-- The lexemes of characters that begin at a byte. -/
inductive Lexes : (start : Nat) → List Char → List Lexeme → Prop
  | nil {start : Nat} : Lexes start [] []
  | cons {start : Nat} {c : Char} {cs : List Char} {kind : LexemeKind} {extra : Nat} {rest : List Lexeme}
      (found : lexemeAt? c cs = some (kind, extra))
      (later : Lexes (start + byteLength (c :: cs.take extra)) (cs.drop extra) rest) :
      Lexes start (c :: cs)
        (⟨kind, String.ofList (c :: cs.take extra), ⟨start, start + byteLength (c :: cs.take extra)⟩⟩ :: rest)

theorem lexemesFrom_drop (start inside : Nat) (cs : List Char) :
    lexemesFrom start inside cs = lexemesFrom start 0 (cs.drop inside) := by
  induction cs generalizing inside with
  | nil => rw [List.drop_nil, lexemesFrom, lexemesFrom]
  | cons c cs ih =>
    cases inside with
    | zero => rfl
    | succ inside => rw [lexemesFrom, List.drop_succ_cons, ih]

/-- The cut of a text is the only one there is. -/
theorem lexemesFrom_eq_ok_iff {start : Nat} {cs : List Char} {lexemes : List Lexeme} :
    lexemesFrom start 0 cs = .ok lexemes ↔ Lexes start cs lexemes := by
  constructor
  · intro lexed
    induction length : cs.length using Nat.strongRecOn generalizing start cs lexemes with
    | _ size ih =>
      cases cs with
      | nil =>
        rw [lexemesFrom] at lexed
        cases lexed
        exact .nil
      | cons c cs =>
        rw [lexemesFrom] at lexed
        split at lexed
        · cases lexed
        · next kind extra found =>
          dsimp only at lexed
          split at lexed
          · cases lexed
          · next rest cut =>
            cases lexed
            rw [lexemesFrom_drop] at cut
            have shorter : (cs.drop extra).length < size := by
              rw [← length, List.length_drop, List.length_cons]
              omega
            exact .cons found (ih _ shorter cut rfl)
  · intro lexes
    induction lexes with
    | nil => rfl
    | cons found later ih =>
      rw [lexemesFrom, found]
      dsimp only
      rw [lexemesFrom_drop, ih]

/-- The lexemes of a source text: the first one is blank if the text begins with the mark of the byte order. -/
theorem lexemes_eq_ok_iff {source : String} {found : List Lexeme} :
    lexemes source = .ok found ↔
      (∃ cs rest, source.toList = byteOrderMark :: cs ∧ Lexes byteOrderMark.utf8Size cs rest ∧
        found = ⟨.blank, String.singleton byteOrderMark, ⟨0, byteOrderMark.utf8Size⟩⟩ :: rest) ∨
      source.toList.head? ≠ some byteOrderMark ∧ Lexes 0 source.toList found := by
  unfold lexemes
  cases source.toList with
  | nil =>
    constructor
    · intro lexed
      cases lexed
      exact .inr ⟨nofun, .nil⟩
    · rintro (⟨_, _, isText, -⟩ | ⟨-, lexes⟩)
      · cases isText
      · cases lexes
        rfl
  | cons c cs =>
    dsimp only
    split
    · next isMark =>
      subst isMark
      cases lexed : lexemesFrom byteOrderMark.utf8Size 0 cs with
      | error offset =>
        refine iff_of_false nofun ?_
        rintro (⟨_, rest, isText, lexes, -⟩ | ⟨noMark, -⟩)
        · cases isText
          rw [lexemesFrom_eq_ok_iff.mpr lexes] at lexed
          cases lexed
        · exact noMark rfl
      | ok rest =>
        constructor
        · intro isFound
          cases isFound
          exact .inl ⟨cs, rest, rfl, lexemesFrom_eq_ok_iff.mp lexed, rfl⟩
        · rintro (⟨_, others, isText, lexes, rfl⟩ | ⟨noMark, -⟩)
          · cases isText
            rw [lexemesFrom_eq_ok_iff.mpr lexes] at lexed
            cases lexed
            rfl
          · exact absurd rfl noMark
    · next noMark =>
      rw [lexemesFrom_eq_ok_iff]
      constructor
      · exact fun lexes => .inr ⟨fun isMark => noMark (Option.some.inj isMark), lexes⟩
      · rintro (⟨_, _, isText, -⟩ | ⟨-, lexes⟩)
        · cases isText
          exact absurd rfl noMark
        · exact lexes

/-! ## Tokens -/

/-- Tokens at places that count: each but the last is written in the text and ends before the next one begins. -/
def TokensLie (ok : Nat → Prop) (tokens : List Token) : Prop :=
  ∀ index token, tokens[index]? = some token → token.span.Lies ok ∧
    (token.kind = .finish ∨ token.text ≠ "" ∧
      ∃ next, tokens[index + 1]? = some next ∧ token.span.stop ≤ next.span.start)

theorem TokensLie.cons {ok : Nat → Prop} {token first : Token} {rest : List Token} (lie : TokensLie ok (first :: rest))
    (lies : token.span.Lies ok) (written : token.text ≠ "") (before : token.span.stop ≤ first.span.start) :
    TokensLie ok (token :: first :: rest) := by
  intro index other found
  cases index with
  | zero =>
    cases found
    exact ⟨lies, .inr ⟨written, first, rfl, before⟩⟩
  | succ index => exact lie index other found

/-- The tokens of the rest of a text lie in it, and none of them begins before the rest. -/
theorem tokensLie_of_lexes {source : String} {before cs : List Char} {lexemes : List Lexeme} {newline : Bool}
    (isText : source.toList = before ++ cs) (lexes : Lexes (byteLength before) cs lexemes) :
    ∃ first rest, tokensOf source.utf8ByteSize newline lexemes = first :: rest ∧ byteLength before ≤ first.span.start ∧
      TokensLie (fun place => isCut source place = true) (first :: rest) := by
  generalize atStart : byteLength before = start at lexes
  have startCut := isCut_of_append isText
  induction lexes generalizing before newline with
  | nil =>
    have size : source.utf8ByteSize = byteLength before := by
      rw [← utf8ByteSize_eq_byteLength, ← List.append_nil before, ← isText, String.ofList_toList]
    refine ⟨_, [], rfl, Nat.le_of_eq (atStart.symm.trans size.symm), fun index token found => ?_⟩
    cases index with
    | zero =>
      cases found
      rw [← size] at startCut
      exact ⟨⟨Nat.le_refl _, startCut, startCut⟩, .inl rfl⟩
    | succ index => cases found
  | @cons start c cs kind extra rest found later ih =>
    subst atStart
    have length : byteLength (before ++ c :: cs.take extra) = byteLength before + byteLength (c :: cs.take extra) :=
      byteLength_append before _
    have isText' : source.toList = (before ++ c :: cs.take extra) ++ cs.drop extra := by
      rw [isText, List.append_assoc, List.cons_append, List.take_append_drop]
    have stopCut := isCut_of_append isText'
    rw [tokensOf]
    dsimp only
    cases kind.token? with
    | none =>
      obtain ⟨first, others, isTokens, after, lie⟩ := ih isText' length stopCut
      exact ⟨first, others, isTokens, Nat.le_trans (Nat.le_add_right _ _) after, lie⟩
    | some kind =>
      obtain ⟨first, others, isTokens, after, lie⟩ := ih isText' length stopCut
      rw [isTokens]
      rw [length] at stopCut
      refine ⟨_, _, rfl, Nat.le_refl _, lie.cons ⟨Nat.le_add_right _ _, startCut, stopCut⟩ ?_ after⟩
      exact ofList_cons_ne_empty c _

/-- The tokens of a text lie in it. -/
theorem tokensLie_tokensOf {source : String} {cut : List Lexeme} (lexed : lexemes source = .ok cut) :
    TokensLie (fun place => isCut source place = true) (tokensOf source.utf8ByteSize false cut) := by
  rcases lexemes_eq_ok_iff.mp lexed with ⟨cs, rest, isText, lexes, rfl⟩ | ⟨-, lexes⟩
  · obtain ⟨first, others, isTokens, -, lie⟩ := @tokensLie_of_lexes source [byteOrderMark] cs rest false isText lexes
    rw [tokensOf]
    exact isTokens ▸ lie
  · obtain ⟨first, others, isTokens, -, lie⟩ := @tokensLie_of_lexes source [] _ cut false rfl lexes
    exact isTokens ▸ lie

/-! ## The tape -/

section Tape

variable {ok : Nat → Prop} {tokens : List Token}

theorem place_tape {index : Nat} {token : Token} (found : tokens[index]? = some token) (taken : Nat)
    (isTaken : taken < 2) : (tape tokens.toArray).place (2 * index + taken) = token.span.start := by
  have isIndex : (2 * index + taken) / 2 = index := by omega
  unfold tape
  dsimp only
  rw [isIndex, List.getElem?_toArray, found]
  rfl

/-- Marks side by side end before the token after them begins. -/
theorem TokensLie.sideBySide (lie : TokensLie ok tokens) {count index : Nat} {text : String} {stop : Nat}
    (found : sideBySide tokens.toArray (count + 1) index = some (text, stop)) :
    ∃ token, tokens[index]? = some token ∧ text ≠ "" ∧ token.span.start ≤ stop ∧ ok stop ∧
      ∃ next, tokens[index + count + 1]? = some next ∧ stop ≤ next.span.start := by
  induction count generalizing index text with
  | zero =>
    rw [Go.sideBySide, List.getElem?_toArray] at found
    obtain ⟨token, isToken, found⟩ := Option.bind_eq_some_iff.mp found
    split at found
    · next isMark =>
      cases found
      obtain ⟨lies, isLast | ⟨written, next, isNext, before⟩⟩ := lie index token isToken
      · rw [isMark] at isLast
        cases isLast
      · exact ⟨token, isToken, written, lies.ordered, lies.stop, next, isNext, before⟩
    · cases found
  | succ count ih =>
    rw [Go.sideBySide, List.getElem?_toArray, List.getElem?_toArray] at found
    obtain ⟨token, isToken, found⟩ := Option.bind_eq_some_iff.mp found
    obtain ⟨second, isSecond, found⟩ := Option.bind_eq_some_iff.mp found
    obtain ⟨⟨rest, restStop⟩, isRest, found⟩ := Option.bind_eq_some_iff.mp found
    dsimp only at found
    split at found
    · next joined =>
      cases found
      obtain ⟨other, isOther, written, after, isPlace, next, isNext, before⟩ := ih isRest
      cases isOther.symm.trans isSecond
      have lies := (lie index token isToken).1
      have ordered : token.span.start ≤ stop :=
        Nat.le_trans lies.ordered (Nat.le_trans (Nat.le_of_eq joined.2) after)
      rw [Nat.add_right_comm index 1 count] at isNext
      exact ⟨token, isToken, fun isEmpty => written (String.append_eq_empty_iff.mp isEmpty).2, ordered, isPlace, next,
        isNext, before⟩
    · cases found

/-- A mark is between its position and the next one. -/
theorem TokensLie.markAt (lie : TokensLie ok tokens) {usable : Terminal → Bool} {index : Nat} {token : Token}
    {ahead : Lookahead} (isToken : tokens[index]? = some token)
    (found : markAt tokens.toArray usable index token.span.start = some ahead) (taken : Nat) (isTaken : taken < 2) :
    ahead.Fits (tape tokens.toArray) ok (2 * index + taken) := by
  obtain ⟨more, -, found⟩ := List.exists_of_findSome?_eq_some found
  obtain ⟨⟨text, stop⟩, isMark, found⟩ := Option.bind_eq_some_iff.mp found
  dsimp only at found
  split at found
  · cases found
    obtain ⟨first, isFirst, written, ordered, isPlace, next, isNext, before⟩ := lie.sideBySide isMark
    cases isFirst.symm.trans isToken
    have lies := (lie index token isToken).1
    refine ⟨written, ⟨ordered, lies.start, isPlace⟩, Nat.le_of_eq (place_tape isToken taken isTaken), ?_⟩
    exact Nat.le_trans before (Nat.le_of_eq (place_tape isNext 0 Nat.two_pos).symm)
  · cases found

/-- A whole token is between its position and the next one. -/
theorem TokensLie.whole (lie : TokensLie ok tokens) (terminal : Terminal) {index : Nat} {token : Token}
    (isToken : tokens[index]? = some token) (notLast : token.kind ≠ .finish) (taken : Nat) (isTaken : taken < 2) :
    Lookahead.Fits (tape tokens.toArray) ok (2 * index + taken)
      ⟨terminal, token.text, token.span, 2 * (index + 1)⟩ := by
  obtain ⟨lies, isLast | ⟨written, next, isNext, before⟩⟩ := lie index token isToken
  · exact absurd isLast notLast
  · refine ⟨written, lies, Nat.le_of_eq (place_tape isToken taken isTaken), ?_⟩
    exact Nat.le_trans before (Nat.le_of_eq (place_tape isNext 0 Nat.two_pos).symm)

/-- What stands for nothing in the text is at its position. -/
theorem TokensLie.here (lie : TokensLie ok tokens) (terminal : Terminal) {index : Nat} {token : Token} {text : String}
    (isToken : tokens[index]? = some token) (written : text ≠ "") (taken later : Nat) (isTaken : taken < 2)
    (isLater : later < 2) :
    Lookahead.Fits (tape tokens.toArray) ok (2 * index + taken)
      ⟨terminal, text, ⟨token.span.start, token.span.start⟩, 2 * index + later⟩ := by
  have isPlace := (lie index token isToken).1.start
  exact ⟨written, ⟨Nat.le_refl _, isPlace, isPlace⟩, Nat.le_of_eq (place_tape isToken taken isTaken),
    Nat.le_of_eq (place_tape isToken later isLater).symm⟩

/-- **Tokens that lie in a text make a sound tape.** -/
theorem sound_tape (lie : TokensLie ok tokens) (zero : ok 0) : (tape tokens.toArray).Sound ok := by
  refine ⟨fun position => ?_, fun {usable position ahead} found => ?_⟩
  · unfold tape
    dsimp only
    rw [List.getElem?_toArray]
    cases found : tokens[position / 2]? with
    | none => exact zero
    | some token => exact (lie _ token found).1.start
  · obtain ⟨token, isToken, found⟩ := Option.bind_eq_some_iff.mp found
    rw [List.getElem?_toArray] at isToken
    have isTaken : position % 2 < 2 := Nat.mod_lt _ Nat.two_pos
    have isPosition : 2 * (position / 2) + position % 2 = position := Nat.div_add_mod position 2
    have whole : ∀ {terminal : Terminal}, token.kind ≠ .finish →
        Lookahead.Fits (tape tokens.toArray) ok position
          ⟨terminal, token.text, token.span, 2 * (position / 2 + 1)⟩ := by
      intro terminal notLast
      have fits := lie.whole terminal isToken notLast _ isTaken
      rwa [isPosition] at fits
    have here : ∀ {terminal : Terminal} {text : String} (later : Nat), text ≠ "" → later < 2 →
        Lookahead.Fits (tape tokens.toArray) ok position
          ⟨terminal, text, ⟨token.span.start, token.span.start⟩, 2 * (position / 2) + later⟩ := by
      intro terminal text later written isLater
      have fits := lie.here terminal isToken written _ later isTaken isLater
      rwa [isPosition] at fits
    dsimp only at found
    split at found
    · cases found
      exact here 1 (by decide) Nat.one_lt_two
    · cases kind : token.kind with
      | name | number | rune | string =>
        rw [kind] at found
        cases found
        exact whole (by rw [kind]; nofun)
      | mark =>
        rw [kind] at found
        rw [← isPosition]
        exact lie.markAt isToken found _ isTaken
      | finish =>
        rw [kind] at found
        dsimp only at found
        split at found
        · cases found
          exact here 1 (by decide) Nat.one_lt_two
        · cases found
          have fits := @here .finish "\x00" (position % 2) (by decide) isTaken
          rwa [isPosition] at fits

end Tape

end Go

end StepChart
