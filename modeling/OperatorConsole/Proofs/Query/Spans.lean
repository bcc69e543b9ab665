import OperatorConsole.Failure
import OperatorConsole.Proofs.Query.Scanning

/-!
# Spans of tokens

Each token of an expression takes the stretch of text from its position to the offset where it
stops, and there it is spelled.  The stretches follow one another, none of them is empty, and no
character but a blank lies outside of all of them: no text is passed over and none is read twice.

## Faults

An expression that is not split stops being tokens somewhere: what stands in front of that place
is written in tokens, and no lexeme has a spelling that begins there.
-/

namespace OperatorConsole

namespace Query

/-! ## Spans -/

/-- A token and the offset behind its last character. -/
structure Span where
  token : Token
  stop : Nat

/-- A token is spelled where its span lies, in a text that begins at the offset `start`. -/
def Span.LiesIn (span : Span) (start : Nat) (text : List Char) : Prop :=
  exists front spelling back, text = front ++ (spelling ++ back) ∧
    span.token.position = start + Text.width front ∧
    span.stop = span.token.position + Text.width spelling ∧
    Spells span.token.lexeme spelling ∧ span.token.lexeme.EndsBefore back

def Span.Has (span : Span) (first behind : Nat) : Prop :=
  span.token.position ≤ first ∧ behind ≤ span.stop

/-- Spans take all of a text but blanks, each character once. -/
structure Covers (start : Nat) (text : List Char) (spans : List Span) : Prop where
  lies : forall span, span ∈ spans -> span.LiesIn start text
  nonempty : forall span, span ∈ spans -> span.token.position < span.stop
  ordered : spans.Pairwise fun span later => span.stop ≤ later.token.position
  others_blank : forall front c back, text = front ++ c :: back ->
    Text.isBlank c = true ∨
      exists span, span ∈ spans ∧
        span.Has (start + Text.width front) (start + Text.width front + Text.unitWidth c)

theorem Spells.width_pos {lexeme : Lexeme} {text : List Char} (hspells : Spells lexeme text) :
    0 < Text.width text := by
  rcases hspells.head with ⟨c, tail, rfl, _⟩
  exact Nat.lt_of_lt_of_le (Text.unitWidth_pos c) (Nat.le_add_right _ _)

theorem Span.LiesIn.start_le {span : Span} {start : Nat} {text : List Char}
    (hlies : span.LiesIn start text) : start ≤ span.token.position := by
  rcases hlies with ⟨front, _, _, _, hposition, _⟩
  rw [hposition]
  exact Nat.le_add_right _ _

theorem Span.LiesIn.behind {span : Span} {start : Nat} {front text : List Char}
    (hlies : span.LiesIn (start + Text.width front) text) : span.LiesIn start (front ++ text) := by
  rcases hlies with ⟨between, spelling, back, htext, hposition, hrest⟩
  refine ⟨front ++ between, spelling, back, ?_, ?_, hrest⟩
  · rw [htext, List.append_assoc]
  · rw [hposition, Text.width_append, Nat.add_assoc]

theorem Covers.behind_blank {start : Nat} {c : Char} {rest : List Char} {spans : List Span}
    (hcovers : Covers (start + Text.unitWidth c) rest spans) (hblank : Text.isBlank c = true) :
    Covers start (c :: rest) spans where
  lies := by
    intro span hspan
    have hbehind : span.LiesIn start ([c] ++ rest) := (hcovers.lies span hspan).behind
    exact hbehind
  nonempty := hcovers.nonempty
  ordered := hcovers.ordered
  others_blank := by
    intro front d back htext
    cases front with
    | nil =>
        rw [← (List.cons.inj htext).1]
        exact Or.inl hblank
    | cons e front =>
        rcases List.cons.inj htext with ⟨rfl, hrest⟩
        have hothers := hcovers.others_blank front d back hrest
        rwa [Nat.add_assoc] at hothers

theorem Covers.behind_token {start : Nat} {lexeme : Lexeme} {text rest : List Char}
    {spans : List Span} (hcovers : Covers (start + Text.width text) rest spans)
    (hspells : Spells lexeme text) (hends : lexeme.EndsBefore rest) :
    Covers start (text ++ rest) (⟨⟨lexeme, start⟩, start + Text.width text⟩ :: spans) where
  lies := by
    intro span hspan
    cases hspan with
    | head => exact ⟨[], text, rest, rfl, rfl, rfl, hspells, hends⟩
    | tail _ hlater => exact (hcovers.lies span hlater).behind
  nonempty := by
    intro span hspan
    cases hspan with
    | head => exact Nat.lt_add_of_pos_right hspells.width_pos
    | tail _ hlater => exact hcovers.nonempty span hlater
  ordered := by
    apply List.pairwise_cons.mpr
    constructor
    · intro later hlater
      exact (hcovers.lies later hlater).start_le
    · exact hcovers.ordered
  others_blank := by
    intro front c back htext
    -- The character belongs to the token, or to what stands behind it.
    rcases List.append_eq_append_iff.mp htext with
      ⟨between, hfront, hrest⟩ | ⟨inner, hspelling, hback⟩
    · rcases hcovers.others_blank between c back hrest with hblank | ⟨span, hspan, hhas⟩
      · exact Or.inl hblank
      · rw [hfront, Text.width_append, ← Nat.add_assoc]
        exact Or.inr ⟨span, List.mem_cons_of_mem _ hspan, hhas⟩
    · cases inner with
      | nil =>
          rcases hcovers.others_blank [] c back hback.symm with hblank | ⟨span, hspan, hhas⟩
          · exact Or.inl hblank
          · rw [List.append_nil] at hspelling
            rw [← hspelling]
            exact Or.inr ⟨span, List.mem_cons_of_mem _ hspan, hhas⟩
      | cons d inner =>
          rcases List.cons.inj hback with ⟨rfl, _⟩
          refine Or.inr ⟨_, List.mem_cons_self, Nat.le_add_right _ _, ?_⟩
          have hwidth : Text.width text =
              Text.width front + (Text.unitWidth c + Text.width inner) := by
            rw [hspelling, Text.width_append, Text.width]
          show start + Text.width front + Text.unitWidth c ≤ start + Text.width text
          omega

theorem Written.covers {start : Nat} {text : List Char} {tokens : List Token}
    (hwritten : Written start text tokens) :
    exists spans, spans.map Span.token = tokens ∧ Covers start text spans := by
  induction hwritten with
  | done start =>
      refine ⟨[], rfl, List.forall_mem_nil _, List.forall_mem_nil _, List.Pairwise.nil, ?_⟩
      intro front c back htext
      cases front with
      | nil => cases htext
      | cons d front => cases htext
  | blank hblank _ ih =>
      rcases ih with ⟨spans, hspans, hcovers⟩
      exact ⟨spans, hspans, hcovers.behind_blank hblank⟩
  | @token start lexeme text rest tokens hspells hends _ ih =>
      rcases ih with ⟨spans, hspans, hcovers⟩
      refine ⟨_, ?_, hcovers.behind_token hspells hends⟩
      rw [List.map_cons, hspans]

/-! ## Faults -/

def faultAt (c : Char) (position : Nat) : Malformed :=
  if isQuote c then .unterminatedString position else .unexpectedChar c position

/-- A text is written in tokens up to a character at which no spelling begins. -/
structure StopsAt (start : Nat) (text front : List Char) (c : Char) (back : List Char) : Prop where
  split : text = front ++ c :: back
  written : exists tokens, Written start front tokens
  solid : Text.isBlank c = false
  nothing : forall lexeme spelling after, Spells lexeme spelling -> c :: back ≠ spelling ++ after

theorem scanLexeme_error {position : Nat} {c : Char} {rest : List Char} {fault : Malformed}
    (hscan : scanLexeme position (c :: rest) = .error fault) :
    fault = faultAt c position ∧
      forall lexeme spelling after, Spells lexeme spelling -> c :: rest ≠ spelling ++ after := by
  constructor
  · unfold faultAt
    cases begins c rest with
    | mark m =>
        rw [scanLexeme_mark] at hscan
        cases hscan
    | string hquote =>
        cases hstring : scanString c rest with
        | none =>
            rw [scanLexeme_unterminated hquote hstring] at hscan
            cases hscan
            rw [if_pos hquote]
        | some read =>
            rw [scanLexeme_string hquote hstring] at hscan
            cases hscan
    | arrow => cases hscan
    | plain hhead =>
        rw [scanLexeme_plain hhead] at hscan
        rw [hhead.noQuote]
        split at hscan
        · cases hscan
        · split at hscan
          · cases hscan
          · cases hscan
            rfl
  · intro lexeme spelling after hspells hbegins
    have hbegun : exists taken left, scanLexeme position (spelling ++ after) = .ok (taken, left) :=
      scanLexeme_begun hspells after
    rcases hbegun with ⟨taken, left, hok⟩
    rw [← hbegins, hscan] at hok
    cases hok

theorem Lexeme.EndsBefore.of_append {lexeme : Lexeme} {front back : List Char}
    (hends : lexeme.EndsBefore (front ++ back)) : lexeme.EndsBefore front := by
  intro word c hname hhead
  apply hends word c hname
  rw [List.head?_append, hhead]
  rfl

theorem scan_stops {start : Nat} {text : List Char} {fault : Malformed}
    (hscan : scan start text = .error fault) :
    exists front c back, StopsAt start text front c back ∧
      fault = faultAt c (start + Text.width front) := by
  fun_induction scan start text generalizing fault with
  | case1 => cases hscan
  | case2 start c rest hblank ih =>
      rcases ih hscan with ⟨front, d, back, hstops, hfault⟩
      rcases hstops.written with ⟨tokens, hwritten⟩
      refine ⟨c :: front, d, back, ⟨?_, ⟨tokens, .blank hblank hwritten⟩, hstops.solid,
        hstops.nothing⟩, ?_⟩
      · rw [hstops.split, List.cons_append]
      · rw [hfault, Text.width, Nat.add_assoc]
  | case3 start c rest hblank fault' hlexeme =>
      cases hscan
      rcases scanLexeme_error hlexeme with ⟨hfault, hnothing⟩
      exact ⟨[], c, rest, ⟨rfl, ⟨[], .done start⟩, by simpa using hblank, hnothing⟩, hfault⟩
  | case4 start c rest _ lexeme rest' hlexeme =>
      rename_i taken fault' hothers ih
      cases hscan
      rcases ih hothers with ⟨front, d, back, hstops, hfault⟩
      rcases hstops.written with ⟨tokens, hwritten⟩
      rcases scanLexeme_spells hlexeme with ⟨spelling, htext, hspells, hends⟩
      have hwidth : taken = Text.width spelling := by
        change Text.width (c :: rest) - Text.width rest' = Text.width spelling
        rw [htext, Text.width_sub]
      rw [hwidth] at hwritten hfault
      rw [hstops.split] at htext hends
      refine ⟨spelling ++ front, d, back, ⟨?_, ⟨_, .token hspells hends.of_append hwritten⟩,
        hstops.solid, hstops.nothing⟩, ?_⟩
      · rw [htext, List.append_assoc]
      · rw [hfault, Text.width_append, Nat.add_assoc]
  | case5 => cases hscan

/-! ## Expressions -/

theorem tokenize_eq_ok_iff {expression : String} {tokens : List Token} :
    tokenize expression = .ok tokens ↔ (tokenize expression).toOption = some tokens := by
  cases tokenize expression with
  | ok others => simp [Except.toOption]
  | error fault => simp [Except.toOption]

/-- An expression that is split loses nothing: the spans of its tokens take all of it but blanks,
in order and each character once.  Any other one is turned away as malformed, for the first
place at which no token begins. -/
theorem tokenize_covers (expression : String) :
    (forall tokens, tokenize expression = .ok tokens ->
      exists spans, spans.map Span.token = tokens ∧ Covers 0 expression.toList spans) ∧
    ((forall tokens, tokenize expression ≠ .ok tokens) ->
      exists front c back, StopsAt 0 expression.toList front c back ∧
        tokenize expression = .error (faultAt c (Text.width front)) ∧
        (QueryRejection.malformed (faultAt c (Text.width front)).detail).reason = "malformed") := by
  constructor
  · intro tokens htokens
    exact (tokenize_written htokens).covers
  · intro hnone
    cases htokens : tokenize expression with
    | ok tokens => exact absurd htokens (hnone tokens)
    | error fault =>
        rcases scan_stops htokens with ⟨front, c, back, hstops, hfault⟩
        rw [Nat.zero_add] at hfault
        exact ⟨front, c, back, hstops, congrArg Except.error hfault, rfl⟩

theorem tokenize_covers_escaped :
    (exists spans, spans.map Span.token =
        [⟨.name "a_1", 0⟩, ⟨.string "it's\n", 4⟩, ⟨.number "-.5e3", 13⟩, ⟨.arrow, 18⟩] ∧
      Covers 0 "a_1 'it\\'s\\n'-.5e3->".toList spans) ∧
    exists front c back, StopsAt 0 "a -'b".toList front c back ∧
      tokenize "a -'b" = .error (faultAt c (Text.width front)) := by
  constructor
  · have hsplit : (tokenize "a_1 'it\\'s\\n'-.5e3->").toOption = some
        [⟨.name "a_1", 0⟩, ⟨.string "it's\n", 4⟩, ⟨.number "-.5e3", 13⟩, ⟨.arrow, 18⟩] := by
      decide +kernel
    exact (tokenize_covers _).1 _ (tokenize_eq_ok_iff.mpr hsplit)
  · have hnone : (tokenize "a -'b").toOption = none := by
      decide +kernel
    have hfails : forall tokens, tokenize "a -'b" ≠ .ok tokens := by
      intro tokens htokens
      rw [tokenize_eq_ok_iff.mp htokens] at hnone
      cases hnone
    rcases (tokenize_covers "a -'b").2 hfails with ⟨front, c, back, hstops, hscan, _⟩
    exact ⟨front, c, back, hstops, hscan⟩

end Query

end OperatorConsole
