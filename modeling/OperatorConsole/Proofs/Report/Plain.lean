import OperatorConsole.Proofs.Text.Blanks
import OperatorConsole.Proofs.Text.Halves
import OperatorConsole.Report.Plain

/-!
# What plain text is free of

Plain text has no blanks at its ends.  Of markers it is free unless the output held lone halves, and
of styling sequences unless a sequence in the output was torn: cut off, before its end, by
something that is taken out itself.  What is taken out is looked for once, so the parts of a torn
sequence come together and stay.  Making plain text plain again changes nothing just if neither is
left.

The argument goes backwards through the two removals.  A character that was kept stands in the text
where it stood, and a word that was kept stands there as a whole or is interrupted by a run.
-/

namespace OperatorConsole

namespace Report

/-! ## Removal -/

section Removal

variable {runLength : List Char -> Nat}

theorem removeRuns_drop (runLength : List Char -> Nat) (n : Nat) (text : List Char) :
    removeRuns runLength n text = removeRuns runLength 0 (text.drop n) := by
  induction n generalizing text with
  | zero => rfl
  | succ n ih =>
      cases text with
      | nil => rfl
      | cons c rest => exact ih rest

theorem removeRuns_keep {c : Char} {rest : List Char} (hrun : runLength (c :: rest) = 0) :
    removeRuns runLength 0 (c :: rest) = c :: removeRuns runLength 0 rest := by
  rw [removeRuns, hrun]

theorem removeRuns_run {text : List Char} (hrun : 0 < runLength text) :
    removeRuns runLength 0 text = removeRuns runLength 0 (text.drop (runLength text)) := by
  cases text with
  | nil => rw [List.drop_nil]
  | cons c rest =>
      rcases Nat.exists_eq_add_one_of_ne_zero (Nat.ne_of_gt hrun) with ⟨n, hn⟩
      rw [removeRuns, hn]
      exact removeRuns_drop runLength n rest

theorem removeRuns_eq_cons {text rest : List Char} {c : Char}
    (htext : removeRuns runLength 0 text = c :: rest) :
    exists front back, text = front ++ c :: back ∧ runLength (c :: back) = 0 ∧
      removeRuns runLength 0 back = rest := by
  induction hlength : text.length using Nat.strongRecOn generalizing text with
  | ind length ih =>
      cases text with
      | nil => cases htext
      | cons d text =>
          rcases Nat.eq_zero_or_pos (runLength (d :: text)) with hkeep | hrun
          · rw [removeRuns_keep hkeep] at htext
            rcases List.cons.inj htext with ⟨rfl, hrest⟩
            exact ⟨[], text, rfl, hkeep, hrest⟩
          · rw [removeRuns_run hrun] at htext
            have hshorter : ((d :: text).drop (runLength (d :: text))).length < length := by
              rw [List.length_drop, hlength, ← hlength, List.length_cons]
              omega
            rcases ih _ hshorter htext rfl with ⟨front, back, hdrop, hback⟩
            refine ⟨(d :: text).take (runLength (d :: text)) ++ front, back, ?_, hback⟩
            rw [List.append_assoc, ← hdrop, List.take_append_drop]

theorem removeRuns_eq_append {text front back : List Char}
    (htext : removeRuns runLength 0 text = front ++ back) :
    exists front' back', text = front' ++ back' ∧ removeRuns runLength 0 back' = back := by
  induction front generalizing text with
  | nil => exact ⟨[], text, rfl, htext⟩
  | cons c front ih =>
      rcases removeRuns_eq_cons htext with ⟨before, after, rfl, _, hafter⟩
      rcases ih hafter with ⟨front', back', rfl, hback⟩
      exact ⟨before ++ c :: front', back', by rw [List.append_assoc, List.cons_append], hback⟩

/-- A word at the head of what was kept stands at the head of the text or is interrupted there. -/
theorem removeRuns_eq_word {text word rest : List Char}
    (htext : removeRuns runLength 0 text = word ++ rest) :
    (exists back, text = word ++ back) ∨
      exists begun remaining back, word = begun ++ remaining ∧ remaining ≠ [] ∧
        text = begun ++ back ∧ 0 < runLength back := by
  induction word generalizing text with
  | nil => exact Or.inl ⟨text, rfl⟩
  | cons c word ih =>
      rcases Nat.eq_zero_or_pos (runLength text) with hkeep | hrun
      · cases text with
        | nil => cases htext
        | cons d text =>
            rw [removeRuns_keep hkeep] at htext
            rcases List.cons.inj htext with ⟨rfl, hrest⟩
            rcases ih hrest with ⟨back, rfl⟩ | ⟨begun, remaining, back, rfl, hremaining, rfl, hrun⟩
            · exact Or.inl ⟨back, rfl⟩
            · exact Or.inr ⟨d :: begun, remaining, back, rfl, hremaining, rfl, hrun⟩
      · exact Or.inr ⟨[], c :: word, text, rfl, List.cons_ne_nil c word, rfl, hrun⟩

theorem removeRuns_eq_infix {text front word rest : List Char} {c : Char}
    (htext : removeRuns runLength 0 text = front ++ (c :: word ++ rest)) :
    (exists front' back, text = front' ++ (c :: word ++ back) ∧
      runLength (c :: word ++ back) = 0) ∨
    exists front' begun remaining back, text = front' ++ (c :: begun ++ back) ∧
      word = begun ++ remaining ∧ remaining ≠ [] ∧ 0 < runLength back := by
  rcases removeRuns_eq_append htext with ⟨before, after, rfl, hafter⟩
  rcases removeRuns_eq_cons hafter with ⟨cut, behind, rfl, hkeep, hbehind⟩
  rcases removeRuns_eq_word hbehind with ⟨back, rfl⟩ | ⟨begun, remaining, back, hword, hremaining,
    rfl, hrun⟩
  · exact Or.inl ⟨before ++ cut, back, by rw [List.append_assoc]; rfl, hkeep⟩
  · exact Or.inr ⟨before ++ cut, begun, remaining, back, by rw [List.append_assoc]; rfl, hword,
      hremaining, hrun⟩

theorem removeRuns_sublist (runLength : List Char -> Nat) (n : Nat) (text : List Char) :
    (removeRuns runLength n text).Sublist text := by
  fun_induction removeRuns runLength n text with
  | case1 => exact List.Sublist.refl _
  | case2 n c rest ih => exact ih.cons c
  | case3 c rest hkeep ih => exact ih.cons_cons c
  | case4 c rest n hrun ih => exact ih.cons c

/-- A text is kept as it is just if no run begins in it. -/
theorem removeRuns_eq_self_iff {text : List Char} :
    removeRuns runLength 0 text = text ↔
      forall front c back, text = front ++ c :: back -> runLength (c :: back) = 0 := by
  induction text with
  | nil => simp [removeRuns]
  | cons c rest ih =>
      constructor
      · intro hsame
        have hkeep : runLength (c :: rest) = 0 := by
          by_contra hrun
          rw [removeRuns_run (Nat.pos_of_ne_zero hrun)] at hsame
          have hlength := congrArg List.length hsame
          have hle := (removeRuns_sublist runLength 0
            ((c :: rest).drop (runLength (c :: rest)))).length_le
          rw [List.length_drop, List.length_cons] at hle
          rw [List.length_cons] at hlength
          omega
        rw [removeRuns_keep hkeep] at hsame
        intro front d back hsplit
        cases front with
        | nil =>
            cases hsplit
            exact hkeep
        | cons e front => exact ih.mp (List.cons.inj hsame).2 front d back (List.cons.inj hsplit).2
      · intro hnone
        rw [removeRuns_keep (hnone [] c rest rfl),
          ih.mpr fun front d back hsplit => hnone (c :: front) d back (congrArg (c :: ·) hsplit)]

end Removal

/-! ## Styling sequences and markers -/

inductive IsStyling : List Char -> Prop where
  | sequence {parameters : List Char}
      (hparameters : forall c, c ∈ parameters -> isStyleParameter c = true) :
      IsStyling ('\x1b' :: '[' :: (parameters ++ ['m']))

def HasStyling (text : List Char) : Prop :=
  exists sequence, IsStyling sequence ∧ sequence <:+: text

theorem stylingLength_sequence {sequence : List Char} (hsequence : IsStyling sequence)
    (rest : List Char) : 0 < stylingLength (sequence ++ rest) := by
  rcases hsequence with ⟨hparameters⟩
  rename_i parameters
  have hdrop : (parameters ++ 'm' :: rest).dropWhile isStyleParameter = 'm' :: rest :=
    (List.dropWhile_append_of_pos hparameters).trans (List.dropWhile_cons_of_neg (by decide))
  rw [List.cons_append, List.cons_append, List.append_assoc, List.singleton_append, stylingLength,
    hdrop]
  exact Nat.succ_pos _

theorem stylingLength_pos_iff {text : List Char} :
    0 < stylingLength text ↔ exists sequence, IsStyling sequence ∧ sequence <+: text := by
  constructor
  · intro hpos
    unfold stylingLength at hpos
    split at hpos
    case h_1 rest =>
      split at hpos
      case h_1 behind hdrop =>
        have hparameters : forall c, c ∈ rest.takeWhile isStyleParameter ->
            isStyleParameter c = true := fun c hc => List.all_eq_true.mp List.all_takeWhile c hc
        refine ⟨_, .sequence hparameters, behind, ?_⟩
        have hsplit : rest.takeWhile isStyleParameter ++ rest.dropWhile isStyleParameter = rest :=
          List.takeWhile_append_dropWhile
        rw [hdrop] at hsplit
        rw [List.cons_append, List.cons_append, List.append_assoc, List.singleton_append, hsplit]
      case h_2 => cases hpos
    case h_2 => cases hpos
  · rintro ⟨sequence, hsequence, rest, rfl⟩
    exact stylingLength_sequence hsequence rest

theorem markerLength_pos_iff {c : Char} {rest : List Char} :
    0 < markerLength (c :: rest) ↔ c ∈ markers := by
  unfold markerLength
  dsimp only
  by_cases hmarker : markers.contains c = true
  · refine iff_of_true ?_ (List.contains_iff_mem.mp hmarker)
    rw [if_pos hmarker]
    split
    · decide
    · decide
    · decide
    · decide
  · refine iff_of_false ?_ fun hmem => hmarker (List.contains_iff_mem.mpr hmem)
    rw [if_neg hmarker]
    exact Nat.lt_irrefl 0

theorem styling_basic {sequence : List Char} (hsequence : IsStyling sequence) :
    forall c, c ∈ sequence -> c.toNat < 0x10000 := by
  rcases hsequence with ⟨hparameters⟩
  have hparameter : forall c, isStyleParameter c = true -> c.toNat < 0x10000 := by
    intro c hc
    rcases Bool.or_eq_true_iff.mp hc with hdigit | hsemicolon
    · have hrange : 48 ≤ c.toNat ∧ c.toNat ≤ 57 := Char.isDigit_iff_toNat.mp hdigit
      omega
    · rw [eq_of_beq hsemicolon]
      decide
  refine List.forall_mem_cons.mpr ⟨by decide, List.forall_mem_cons.mpr ⟨by decide, ?_⟩⟩
  exact List.forall_mem_append.mpr
    ⟨fun c hc => hparameter c (hparameters c hc), List.forall_mem_singleton.mpr (by decide)⟩

/-! ## Torn sequences -/

def IsBegun (text : List Char) : Prop :=
  text ≠ [] ∧ exists remaining, remaining ≠ [] ∧ IsStyling (text ++ remaining)

/-- What comes next is taken out, or may be once halves of a character are joined. -/
def IsInterrupting (text : List Char) : Prop :=
  (exists sequence, IsStyling sequence ∧ sequence <+: text) ∨
    exists c, text.head? = some c ∧ (c ∈ markers ∨ Text.isHalf c = true)

/-- A styling sequence that has begun is interrupted by something else that goes. -/
def IsTorn (text : List Char) : Prop :=
  exists front begun rest, text = front ++ (begun ++ rest) ∧ IsBegun begun ∧ IsInterrupting rest

theorem IsBegun.basic {begun : List Char} (hbegun : IsBegun begun) :
    forall c, c ∈ begun -> c.toNat < 0x10000 := by
  rcases hbegun with ⟨_, remaining, _, hsequence⟩
  exact fun c hc => styling_basic hsequence c (List.mem_append_left remaining hc)

theorem IsStyling.cons {sequence : List Char} (hsequence : IsStyling sequence) :
    exists word, sequence = '\x1b' :: word := by
  cases hsequence with
  | sequence => exact ⟨_, rfl⟩

theorem IsBegun.cons {begun : List Char} (hbegun : IsBegun begun) :
    exists word, begun = '\x1b' :: word := by
  rcases hbegun with ⟨hsome, remaining, _, hsequence⟩
  rcases List.exists_cons_of_ne_nil hsome with ⟨c, word, rfl⟩
  rcases hsequence.cons with ⟨_, hword⟩
  exact ⟨word, congrArg (· :: word) (List.cons.inj hword).1⟩

theorem hasStyling_of_joinHalves {text : List Char} (hstyling : HasStyling (Text.joinHalves text)) :
    HasStyling text := by
  rcases hstyling with ⟨sequence, hsequence, front, back, htext⟩
  rw [List.append_assoc] at htext
  rcases Text.joinHalves_eq_append htext.symm with ⟨before, after, rfl, hafter⟩
  rcases Text.joinHalves_eq_word (styling_basic hsequence) hafter with ⟨behind, rfl, _⟩
  exact ⟨sequence, hsequence, before, behind, by rw [List.append_assoc]⟩

/-- Where a styling sequence is left when the sequences are taken out, one was torn by another. -/
theorem torn_of_unstyled {text : List Char}
    (hstyling : HasStyling (removeRuns stylingLength 0 text)) : IsTorn text := by
  rcases hstyling with ⟨sequence, hsequence, front, back, htext⟩
  rcases hsequence.cons with ⟨word, rfl⟩
  rw [List.append_assoc] at htext
  rcases removeRuns_eq_infix htext.symm with ⟨_, behind, _, hkeep⟩ | ⟨before, begun, remaining,
    behind, rfl, rfl, hremaining, hrun⟩
  · exact absurd (stylingLength_sequence hsequence behind) (by rw [hkeep]; exact Nat.lt_irrefl 0)
  · exact ⟨before, '\x1b' :: begun, behind, rfl, ⟨List.cons_ne_nil _ _, remaining, hremaining,
      hsequence⟩, Or.inl (stylingLength_pos_iff.mp hrun)⟩

theorem styling_of_unmarked {text : List Char}
    (hstyling : HasStyling (removeRuns markerLength 0 text)) :
    HasStyling text ∨ exists front begun c rest, text = front ++ (begun ++ c :: rest) ∧
      IsBegun begun ∧ c ∈ markers := by
  rcases hstyling with ⟨sequence, hsequence, front, back, htext⟩
  rcases hsequence.cons with ⟨word, rfl⟩
  rw [List.append_assoc] at htext
  rcases removeRuns_eq_infix htext.symm with ⟨before, behind, rfl, _⟩ | ⟨before, begun, remaining,
    behind, rfl, rfl, hremaining, hrun⟩
  · exact Or.inl ⟨_, hsequence, before, behind, by rw [List.append_assoc]⟩
  · cases behind with
    | nil => cases hrun
    | cons c behind =>
        exact Or.inr ⟨before, '\x1b' :: begun, c, behind, rfl, ⟨List.cons_ne_nil _ _, remaining,
          hremaining, hsequence⟩, markerLength_pos_iff.mp hrun⟩

theorem torn_of_marker {text front begun rest : List Char} {c : Char}
    (htext : withoutRuns stylingLength text = front ++ (begun ++ c :: rest))
    (hbegun : IsBegun begun) (hc : c ∈ markers) : IsTorn text := by
  rcases Text.joinHalves_eq_append htext with ⟨before, after, hkept, hafter⟩
  rcases Text.joinHalves_eq_word hbegun.basic hafter with ⟨behind, rfl, hbehind⟩
  have hnext : exists d more, behind = d :: more ∧ (d ∈ markers ∨ Text.isHalf d = true) := by
    rcases Text.joinHalves_eq_cons hbehind with ⟨more, rfl, _⟩ | ⟨a, b, more, rfl, hone, _⟩
    · exact ⟨c, more, rfl, Or.inl hc⟩
    · exact ⟨a, b :: more, rfl, Or.inr hone.isHalf_left⟩
  rcases hnext with ⟨d, more, rfl, hd⟩
  rcases hbegun.cons with ⟨word, rfl⟩
  rcases hbegun with ⟨_, remaining, hremaining, hsequence⟩
  have hword : removeRuns stylingLength 0 text = before ++ ('\x1b' :: (word ++ [d]) ++ more) := by
    rw [hkept]
    simp
  rcases removeRuns_eq_infix hword with ⟨before', back, rfl, _⟩ | ⟨before', begun', remaining',
    back, rfl, hsplit, hremaining', hrun⟩
  · refine ⟨before', '\x1b' :: word, d :: back, by simp, ⟨List.cons_ne_nil _ _, remaining,
      hremaining, hsequence⟩, Or.inr ⟨d, rfl, hd⟩⟩
  · -- The sequence is interrupted by another one before it comes to the marker.
    rcases List.eq_nil_or_concat remaining' with hnone | ⟨between, last, rfl⟩
    · exact absurd hnone hremaining'
    rw [List.concat_eq_append, ← List.append_assoc] at hsplit
    rcases List.append_inj' hsplit rfl with ⟨rfl, _⟩
    refine ⟨before', '\x1b' :: begun', back, rfl, ⟨List.cons_ne_nil _ _, between ++ remaining,
      List.append_ne_nil_of_right_ne_nil between hremaining, ?_⟩,
      Or.inl (stylingLength_pos_iff.mp hrun)⟩
    rwa [List.cons_append, List.append_assoc] at hsequence

theorem infix_trim (text : List Char) : Text.trim text <:+: text := by
  rcases Text.trim_spells text with ⟨front, back, htext, _⟩
  exact ⟨front, back, by rw [List.append_assoc, ← htext]⟩

theorem torn_of_plainChars {text : List Char} (hstyling : HasStyling (plainChars text)) :
    IsTorn text := by
  have hunmarked : HasStyling (withoutRuns markerLength (withoutRuns stylingLength text)) := by
    rcases hstyling with ⟨sequence, hsequence, hinfix⟩
    exact ⟨sequence, hsequence, hinfix.trans (infix_trim _)⟩
  rcases styling_of_unmarked (hasStyling_of_joinHalves hunmarked) with hunstyled | ⟨front, begun, c,
    rest, htext, hbegun, hc⟩
  · exact torn_of_unstyled (hasStyling_of_joinHalves hunstyled)
  · exact torn_of_marker htext hbegun hc

/-! ## Markers that are left -/

theorem isHalf_of_withoutRuns {runLength : List Char -> Nat} {text : List Char} {a : Char}
    (ha : a ∈ withoutRuns runLength text) (hhalf : Text.isHalf a = true) :
    exists b, b ∈ text ∧ Text.isHalf b = true := by
  rcases Text.mem_joinHalves ha with hkept | ⟨b, hb, hother⟩
  · exact ⟨a, (removeRuns_sublist _ 0 text).subset hkept, hhalf⟩
  · exact ⟨b, (removeRuns_sublist _ 0 text).subset hb, hother⟩

/-- Markers are all taken out; only halves can make a new one. -/
theorem isHalf_of_marker {text : List Char} {c : Char} (hc : c ∈ plainChars text)
    (hmarker : c ∈ markers) : exists a, a ∈ text ∧ Text.isHalf a = true := by
  rcases Text.mem_joinHalves ((infix_trim _).subset hc) with hkept | ⟨a, ha, hhalf⟩
  · rcases List.append_of_mem hkept with ⟨front, back, hsplit⟩
    rcases removeRuns_eq_append hsplit with ⟨_, _, _, hback⟩
    rcases removeRuns_eq_cons hback with ⟨_, _, _, hkeep, _⟩
    exact absurd (markerLength_pos_iff.mpr hmarker) (by rw [hkeep]; exact Nat.lt_irrefl 0)
  · rcases isHalf_of_withoutRuns ((removeRuns_sublist _ 0 _).subset ha) hhalf with ⟨b, hb, hother⟩
    exact ⟨b, hb, hother⟩

/-! ## Plain text again -/

theorem isJoined_plainChars (text : List Char) : Text.IsJoined (plainChars text) :=
  (Text.isJoined_joinHalves _).within (infix_trim _)

theorem length_withoutRuns_le (runLength : List Char -> Nat) (text : List Char) :
    (withoutRuns runLength text).length ≤ (removeRuns runLength 0 text).length :=
  Text.length_joinHalves_le _

theorem plainChars_eq_self_iff {text : List Char} (hjoined : Text.IsJoined text)
    (htrim : Text.trim text = text) :
    plainChars text = text ↔
      removeRuns stylingLength 0 text = text ∧ removeRuns markerLength 0 text = text := by
  have hunstyled : removeRuns stylingLength 0 text = text ->
      withoutRuns stylingLength text = text := by
    intro hsame
    unfold withoutRuns
    rw [hsame, Text.joinHalves_of_isJoined hjoined]
  constructor
  · intro hsame
    have hlength := congrArg List.length hsame
    have htrimmed := (infix_trim (withoutRuns markerLength
      (withoutRuns stylingLength text))).length_le
    have hunmarked := length_withoutRuns_le markerLength (withoutRuns stylingLength text)
    have hkept := (removeRuns_sublist markerLength 0
      (withoutRuns stylingLength text)).length_le
    have hjoin := length_withoutRuns_le stylingLength text
    have hcut := (removeRuns_sublist stylingLength 0 text).length_le
    unfold plainChars at hlength
    have hstyling : removeRuns stylingLength 0 text = text :=
      (removeRuns_sublist _ 0 text).eq_of_length (by omega)
    refine ⟨hstyling, ?_⟩
    rw [hunstyled hstyling] at hlength htrimmed hunmarked hkept
    exact (removeRuns_sublist _ 0 text).eq_of_length (by omega)
  · rintro ⟨hstyling, hmarker⟩
    unfold plainChars
    rw [hunstyled hstyling, withoutRuns, hmarker, Text.joinHalves_of_isJoined hjoined, htrim]

theorem unstyled_iff {text : List Char} :
    removeRuns stylingLength 0 text = text ↔ ¬HasStyling text := by
  rw [removeRuns_eq_self_iff]
  constructor
  · rintro hnone ⟨sequence, hsequence, front, back, rfl⟩
    rcases hsequence.cons with ⟨word, rfl⟩
    have hzero := hnone front '\x1b' (word ++ back) (by simp)
    exact absurd (stylingLength_sequence hsequence back) (by
      rw [List.cons_append, hzero]
      exact Nat.lt_irrefl 0)
  · intro hnone front c back htext
    by_contra hrun
    rcases stylingLength_pos_iff.mp (Nat.pos_of_ne_zero hrun) with ⟨sequence, hsequence, hback⟩
    exact hnone ⟨sequence, hsequence, hback.isInfix.trans ⟨front, [], by rw [htext]; simp⟩⟩

theorem unmarked_iff {text : List Char} :
    removeRuns markerLength 0 text = text ↔ forall c, c ∈ text -> c ∉ markers := by
  rw [removeRuns_eq_self_iff]
  constructor
  · intro hnone c hc hmarker
    rcases List.append_of_mem hc with ⟨front, back, htext⟩
    exact absurd (markerLength_pos_iff.mpr hmarker) (by
      rw [hnone front c back htext]
      exact Nat.lt_irrefl 0)
  · intro hnone front c back htext
    by_contra hrun
    refine hnone c ?_ (markerLength_pos_iff.mp (Nat.pos_of_ne_zero hrun))
    rw [htext]
    exact List.mem_append_right front List.mem_cons_self

/-- What is true of the plain text of an output. -/
structure IsPlain (output plain : String) : Prop where
  head : forall c, c ∈ plain.toList.head? -> Text.isBlank c = false
  last : forall c, c ∈ plain.toList.getLast? -> Text.isBlank c = false
  /-- A styling sequence is left only if one was torn in the output. -/
  styling : HasStyling plain.toList -> IsTorn output.toList
  /-- A marker is left only if the output held a half of a pair. -/
  marker : forall c, c ∈ plain.toList -> c ∈ markers ->
    exists a, a ∈ output.toList ∧ Text.isHalf a = true
  again : plainText plain = plain ↔
    ¬HasStyling plain.toList ∧ forall c, c ∈ plain.toList -> c ∉ markers

theorem toList_plainText (output : String) :
    (plainText output).toList = plainChars output.toList :=
  String.toList_ofList

theorem plainText_is_plain (output : String) : IsPlain output (plainText output) where
  head := by
    rw [toList_plainText]
    exact fun c => Text.head_trim
  last := by
    rw [toList_plainText]
    exact fun c => Text.getLast_trim
  styling := by
    rw [toList_plainText]
    exact torn_of_plainChars
  marker := by
    rw [toList_plainText]
    exact fun c => isHalf_of_marker
  again := by
    have hends : Text.trim (plainChars output.toList) = plainChars output.toList :=
      Text.trim_of_ends (fun c => Text.head_trim) fun c => Text.getLast_trim
    rw [← String.toList_inj, toList_plainText (plainText output), toList_plainText output,
      plainChars_eq_self_iff (isJoined_plainChars _) hends, unstyled_iff, unmarked_iff]

-- The halves of a marker come together when the marker between them goes.
example : plainText (String.ofList [Text.ofHalf 0xD83D, '\u2705', Text.ofHalf 0xDCCA]) = "📊" := by
  decide +kernel

/-- The parts of a torn sequence come together, and only a second time is it taken out. -/
theorem torn_sequence_left :
    plainText "\x1b[3\x1b[0m1mDone" = "\x1b[31mDone" ∧ HasStyling "\x1b[31mDone".toList ∧
      plainText "\x1b[31mDone" = "Done" := by
  have hsequence : IsStyling ("\x1b[31m".toList) :=
    @IsStyling.sequence ['3', '1'] (List.all_eq_true.mp (by decide))
  exact ⟨by decide +kernel, ⟨_, hsequence, [], "Done".toList, by decide +kernel⟩,
    by decide +kernel⟩

end Report

end OperatorConsole
