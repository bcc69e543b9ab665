import Mathlib.Data.Bool.AllAny
import Mathlib.Data.List.Chain
import OperatorConsole.Json.Printer
import OperatorConsole.Json.Reader

/-!
# Strings in documents

The content of a string is spelled piece by piece: characters as they are, characters behind a
backslash, and 16-bit units by their numbers.  A unit that is the first half of a pair makes one
character with the second half, if that comes next; alone it stands for itself.

## Halves

A text has no first half directly before a second half, for the two would be one character.  Such
a text, written in quotes, reads back as it is.
-/

namespace OperatorConsole

namespace Text

/-- A first half directly before a second half is held as the one character of that pair, so in a
text that holds 16-bit units halves stand apart. -/
def IsWhole (text : List Char) : Prop :=
  text.IsChain fun a b => ¬ArePair a b

instance (text : List Char) : Decidable (IsWhole text) :=
  inferInstanceAs (Decidable (List.IsChain _ text))

end Text

namespace Json

open Text (IsHigh IsLow)

/-! ## Pieces -/

/-- What a piece of the content of a string stands for. -/
inductive Piece where
  | char (c : Char)
  | unit (n : Nat)

def denote : List Piece -> List Char
  | [] => []
  | .char c :: rest => c :: denote rest
  | .unit high :: .unit low :: rest =>
      if IsHigh high ∧ IsLow low then pairChar high low :: denote rest
      else unitChar high :: denote (.unit low :: rest)
  | .unit n :: rest => unitChar n :: denote rest

inductive SpellsPiece : List Char -> Piece -> Prop where
  | plain {c : Char} (hquote : c ≠ '\x22') (hslash : c ≠ '\\') (hshown : 32 ≤ c.toNat) :
      SpellsPiece [c] (.char c)
  | short {letter c : Char} (hletter : shortEscape? letter = some c) :
      SpellsPiece ['\\', letter] (.char c)
  | unit {a b c d : Char} {n : Nat} (hunit : unit? a b c d = some n) :
      SpellsPiece ['\\', 'u', a, b, c, d] (.unit n)

inductive SpellsContent : List Char -> List Piece -> Prop where
  | nil : SpellsContent [] []
  | cons {text rest : List Char} {piece : Piece} {pieces : List Piece}
      (hpiece : SpellsPiece text piece) (hrest : SpellsContent rest pieces) :
      SpellsContent (text ++ rest) (piece :: pieces)

/-! ## Reading piece by piece -/

/-- What a piece adds to a text that was read up to a first half or not, and the first half that
is left open behind it. -/
def emit : Option Nat -> Piece -> List Char × Option Nat
  | none, .char c => ([c], none)
  | some high, .char c => ([Text.ofHalf high, c], none)
  | none, .unit n => if IsHigh n then ([], some n) else ([unitChar n], none)
  | some high, .unit n =>
      if IsLow n then ([pairChar high n], none)
      else if IsHigh n then ([Text.ofHalf high], some n)
      else ([Text.ofHalf high, unitChar n], none)

section Unit

variable {n : Nat} (high : Nat)

theorem emit_first (hn : IsHigh n) : emit none (.unit n) = ([], some n) :=
  if_pos hn

theorem emit_alone (hn : ¬IsHigh n) : emit none (.unit n) = ([unitChar n], none) :=
  if_neg hn

theorem emit_pair (hlow : IsLow n) : emit (some high) (.unit n) = ([pairChar high n], none) :=
  if_pos hlow

theorem emit_next (hlow : ¬IsLow n) (hn : IsHigh n) :
    emit (some high) (.unit n) = ([Text.ofHalf high], some n) :=
  (if_neg hlow).trans (if_pos hn)

theorem emit_apart (hlow : ¬IsLow n) (hn : ¬IsHigh n) :
    emit (some high) (.unit n) = ([Text.ofHalf high, unitChar n], none) :=
  (if_neg hlow).trans (if_neg hn)

end Unit

def open? (half : Option Nat) : List Piece :=
  half.toList.map .unit

theorem unitChar_high {n : Nat} (hn : IsHigh n) : unitChar n = Text.ofHalf n := by
  have hhalf : Text.isHalfUnit n = true := by
    unfold IsHigh at hn
    unfold Text.isHalfUnit
    simp
    omega
  exact if_pos hhalf

theorem denote_unit {n : Nat} (hn : ¬IsHigh n) (rest : List Piece) :
    denote (.unit n :: rest) = unitChar n :: denote rest := by
  cases rest with
  | nil => rfl
  | cons piece rest =>
      cases piece with
      | char c => rfl
      | unit low => exact if_neg fun hpair => hn hpair.1

theorem denote_emit {half : Option Nat} (hhalf : forall n, half = some n -> IsHigh n)
    (piece : Piece) (rest : List Piece) :
    denote (open? half ++ piece :: rest) =
        (emit half piece).1 ++ denote (open? (emit half piece).2 ++ rest) ∧
      forall n, (emit half piece).2 = some n -> IsHigh n := by
  cases half with
  | none =>
      cases piece with
      | char c => exact ⟨rfl, nofun⟩
      | unit n =>
          by_cases hn : IsHigh n
          · rw [emit_first hn]
            exact ⟨rfl, fun m hm => Option.some.inj hm ▸ hn⟩
          · rw [emit_alone hn]
            exact ⟨denote_unit hn rest, nofun⟩
  | some high =>
      have hhigh := hhalf high rfl
      cases piece with
      | char c =>
          refine ⟨?_, nofun⟩
          change unitChar high :: c :: denote rest = _
          rw [unitChar_high hhigh]
          rfl
      | unit n =>
          change (if IsHigh high ∧ IsLow n then pairChar high n :: denote rest
            else unitChar high :: denote (.unit n :: rest)) = _ ∧ _
          by_cases hlow : IsLow n
          · rw [if_pos ⟨hhigh, hlow⟩, emit_pair high hlow]
            exact ⟨rfl, nofun⟩
          rw [if_neg fun hpair => hlow hpair.2, unitChar_high hhigh]
          by_cases hn : IsHigh n
          · rw [emit_next high hlow hn]
            exact ⟨rfl, fun m hm => Option.some.inj hm ▸ hn⟩
          · rw [emit_apart high hlow hn, denote_unit hn]
            exact ⟨rfl, nofun⟩

theorem consTo_eq (c : Char) (read : Option (List Char × List Char)) :
    consTo c read = read.map fun content => (c :: content.1, content.2) := by
  cases read with
  | none => rfl
  | some content => rfl

theorem consTo_char (half : Option Nat) (c : Char) (rest : List Char) :
    (match half with
      | none => consTo c (readContent none rest)
      | some high => consTo (Text.ofHalf high) (consTo c (readContent none rest))) =
      (readContent (emit half (.char c)).2 rest).map fun content =>
        ((emit half (.char c)).1 ++ content.1, content.2) := by
  cases half with
  | none => exact consTo_eq c _
  | some high =>
      dsimp only
      rw [consTo_eq, consTo_eq, Option.map_map]
      rfl

section Take

variable (half : Option Nat) (rest : List Char)

theorem readContent_plain {c : Char} (hquote : c ≠ '\x22') (hslash : c ≠ '\\')
    (hshown : 32 ≤ c.toNat) :
    readContent half (c :: rest) =
      (readContent (emit half (.char c)).2 rest).map fun content =>
        ((emit half (.char c)).1 ++ content.1, content.2) := by
  have hplain : (c = '\\' || decide (c.toNat < 32)) = false := by
    simp [hslash, Nat.not_lt.mpr hshown]
  rw [readContent.eq_def]
  split
  case h_1 heq => exact absurd (List.cons.inj heq).1 hslash
  case h_2 heq => exact absurd (List.cons.inj heq).1 hslash
  case h_4 heq => cases heq
  case h_3 heq =>
    cases heq
    rw [if_neg hquote, hplain, if_neg Bool.false_ne_true]
    exact consTo_char half c rest

theorem readContent_short {letter c : Char} (hletter : shortEscape? letter = some c) :
    readContent half ('\\' :: letter :: rest) =
      (readContent (emit half (.char c)).2 rest).map fun content =>
        ((emit half (.char c)).1 ++ content.1, content.2) := by
  have hother : letter ≠ 'u' := by
    rintro rfl
    cases hletter
  rw [readContent.eq_def]
  split
  case h_1 heq => exact absurd (List.cons.inj (List.cons.inj heq).2).1 hother
  case h_3 hshort heq =>
    cases heq
    exact (hshort letter rest rfl rfl).elim
  case h_4 heq => cases heq
  case h_2 heq =>
    cases heq
    rw [hletter]
    exact consTo_char half c rest

theorem readContent_unit {a b c d : Char} {n : Nat} (hunit : unit? a b c d = some n) :
    readContent half ('\\' :: 'u' :: a :: b :: c :: d :: rest) =
      (readContent (emit half (.unit n)).2 rest).map fun content =>
        ((emit half (.unit n)).1 ++ content.1, content.2) := by
  have hhigh : (decide (0xD800 ≤ n) && decide (n < 0xDC00)) = decide (IsHigh n) :=
    (Bool.decide_and _ _).symm
  have hsecond : (decide (0xDC00 ≤ n) && decide (n < 0xE000)) = decide (IsLow n) :=
    (Bool.decide_and _ _).symm
  rw [readContent.eq_def]
  split
  case h_2 hlong heq =>
    cases heq
    exact (hlong a b c d rest rfl rfl).elim
  case h_3 hlong _ heq =>
    cases heq
    exact (hlong a b c d rest rfl rfl).elim
  case h_4 heq => cases heq
  case h_1 heq =>
    cases heq
    rw [hunit]
    cases half with
    | none =>
        dsimp only
        rw [hhigh]
        by_cases hn : IsHigh n
        · rw [if_pos (decide_eq_true hn), emit_first hn]
          exact Option.map_id'.symm
        · rw [if_neg (by simpa using hn), emit_alone hn]
          exact consTo_eq _ _
    | some high =>
        dsimp only
        rw [hhigh, hsecond]
        by_cases hlow : IsLow n
        · rw [if_pos (decide_eq_true hlow), emit_pair high hlow]
          exact consTo_eq _ _
        rw [if_neg (by simpa using hlow)]
        by_cases hn : IsHigh n
        · rw [if_pos (decide_eq_true hn), emit_next high hlow hn]
          exact consTo_eq _ _
        · rw [if_neg (by simpa using hn), emit_apart high hlow hn, consTo_eq, consTo_eq,
            Option.map_map]
          rfl

theorem readContent_piece {text : List Char} {piece : Piece} (hspells : SpellsPiece text piece) :
    readContent half (text ++ rest) =
      (readContent (emit half piece).2 rest).map fun content =>
        ((emit half piece).1 ++ content.1, content.2) := by
  cases hspells with
  | plain hquote hslash hshown => exact readContent_plain half rest hquote hslash hshown
  | short hletter => exact readContent_short half rest hletter
  | unit hunit => exact readContent_unit half rest hunit

end Take

theorem readContent_quote {half : Option Nat} (hhalf : forall n, half = some n -> IsHigh n)
    (rest : List Char) :
    readContent half ('\x22' :: rest) = some (denote (open? half), rest) := by
  rw [readContent.eq_def]
  split
  case h_1 heq => cases heq
  case h_2 heq => cases heq
  case h_4 heq => cases heq
  case h_3 heq =>
    cases heq
    rw [if_pos rfl]
    cases half with
    | none => rfl
    | some high =>
        change some ([Text.ofHalf high], rest) = some ([unitChar high], rest)
        rw [unitChar_high (hhalf high rfl)]

theorem readContent_begins {half : Option Nat} {text : List Char}
    {read : List Char × List Char} (hread : readContent half text = some read) :
    (exists rest, text = '\x22' :: rest) ∨
      exists taken piece rest, text = taken ++ rest ∧ SpellsPiece taken piece := by
  rw [readContent.eq_def] at hread
  split at hread
  case h_1 a b c d rest =>
      cases hunit : unit? a b c d with
      | none =>
          rw [hunit] at hread
          cases hread
      | some n => exact Or.inr ⟨['\\', 'u', a, b, c, d], _, rest, rfl, .unit hunit⟩
  case h_2 letter rest _ =>
      cases hletter : shortEscape? letter with
      | none =>
          rw [hletter] at hread
          cases hread
      | some c => exact Or.inr ⟨['\\', letter], _, rest, rfl, .short hletter⟩
  case h_3 c rest _ _ =>
      by_cases hquote : c = '\x22'
      · exact Or.inl ⟨rest, congrArg (· :: rest) hquote⟩
      · rw [if_neg hquote] at hread
        split at hread
        case isTrue => cases hread
        case isFalse hplain =>
            simp only [Bool.or_eq_true, decide_eq_true_eq, not_or] at hplain
            exact Or.inr ⟨[c], _, rest, rfl, .plain hquote hplain.1 (Nat.not_lt.mp hplain.2)⟩
  case h_4 => cases hread

theorem SpellsPiece.length_pos {text : List Char} {piece : Piece}
    (hspells : SpellsPiece text piece) : 0 < text.length := by
  cases hspells <;> exact Nat.succ_pos _

/-- What is read up to a quote is the content of a string. -/
theorem readContent_spells {half : Option Nat} (hhalf : forall n, half = some n -> IsHigh n)
    {text content rest : List Char} (hread : readContent half text = some (content, rest)) :
    exists inner pieces, text = inner ++ '\x22' :: rest ∧ SpellsContent inner pieces ∧
      content = denote (open? half ++ pieces) := by
  induction hlength : text.length using Nat.strongRecOn generalizing half text content with
  | ind length ih =>
      rcases readContent_begins hread with ⟨after, rfl⟩ | ⟨taken, piece, after, rfl, hpiece⟩
      · rw [readContent_quote hhalf] at hread
        cases hread
        exact ⟨[], [], rfl, .nil, by rw [List.append_nil]⟩
      · rw [readContent_piece _ _ hpiece, Option.map_eq_some_iff] at hread
        rcases hread with ⟨⟨behind, left⟩, hbehind, hcontent⟩
        cases hcontent
        have hemit : forall rest, _ := denote_emit hhalf piece
        have hshorter : after.length < length := by
          have htaken := hpiece.length_pos
          rw [List.length_append] at hlength
          omega
        rcases ih after.length hshorter (hemit []).2 hbehind rfl with
          ⟨inner, pieces, rfl, hinner, rfl⟩
        have hcontent := SpellsContent.cons hpiece hinner
        exact ⟨_, _, (List.append_assoc _ _ _).symm, hcontent, (hemit pieces).1.symm⟩

theorem readContent_of_spells {inner : List Char} {pieces : List Piece}
    (hinner : SpellsContent inner pieces) {half : Option Nat}
    (hhalf : forall n, half = some n -> IsHigh n) (rest : List Char) :
    readContent half (inner ++ '\x22' :: rest) = some (denote (open? half ++ pieces), rest) := by
  induction hinner generalizing half with
  | nil =>
      rw [List.append_nil]
      exact readContent_quote hhalf rest
  | @cons text more piece pieces hpiece _ ih =>
      rcases denote_emit hhalf piece pieces with ⟨hdenote, hopen⟩
      rw [List.append_assoc, readContent_piece _ _ hpiece, ih hopen, hdenote]
      rfl

/-! ## Writing piece by piece -/

def Piece.own : Piece -> Char
  | .char c => c
  | .unit n => unitChar n

/-- The piece by which a character is written. -/
structure IsPieceFor (c : Char) (piece : Piece) : Prop where
  spells : SpellsPiece (escapeChar c) piece
  own : piece.own = c
  half : forall n, piece = .unit n -> Text.isHalfUnit n = true ->
    Text.isHalf c = true ∧ n = c.toNat - 0x100000

theorem unit?_unitEscape {n : Nat} (hn : n < 0x10000) :
    unit? (hexDigit (n / 4096)) (hexDigit (n / 256)) (hexDigit (n / 16)) (hexDigit n) = some n := by
  have hdigit : forall k, k < 16 -> Number.hexValue? (Nat.digitChar k) = some k := by decide
  have hread : forall k, Number.hexValue? (hexDigit k) = some (k % 16) :=
    fun k => hdigit (k % 16) (Nat.mod_lt k (by decide))
  have hsmall : forall k, k % 16 < 16 := fun k => Nat.mod_lt k (by decide)
  unfold unit? Number.readBase?
  simp only [List.isEmpty_cons, Bool.false_eq_true, if_false, List.foldlM_cons, List.foldlM_nil,
    hread, hsmall, if_true, Option.bind_eq_bind, Option.bind_some, Option.pure_def]
  congr 1
  omega

theorem unitEscape_spells {n : Nat} (hn : n < 0x10000) : SpellsPiece (unitEscape n) (.unit n) :=
  .unit (unit?_unitEscape hn)

theorem isHalf_bounds {c : Char} (hc : Text.isHalf c = true) :
    0x100000 ≤ c.toNat ∧ 0xD800 ≤ c.toNat - 0x100000 ∧ c.toNat - 0x100000 < 0xE000 := by
  unfold Text.isHalf Text.isHalfUnit at hc
  simp only [Bool.and_eq_true, decide_eq_true_eq] at hc
  exact hc

def lettered : List Char :=
  ['\x22', '\\', '\x08', '\x0c', '\n', '\r', '\t']

theorem escapeChar_lettered : forall c, c ∈ lettered ->
    escapeChar c = ['\\', (escapeChar c).getLastD c] ∧
      shortEscape? ((escapeChar c).getLastD c) = some c :=
  List.all_iff_forall_prop.mp (by decide)

theorem escapeChar_other {c : Char} (hc : c ∉ lettered) :
    escapeChar c =
      if c.toNat < 32 then unitEscape c.toNat
      else if Text.isHalf c then unitEscape (c.toNat - 0x100000)
      else [c] := by
  simp only [lettered, List.mem_cons, List.not_mem_nil, or_false, not_or] at hc
  simp [escapeChar, hc]

theorem isPieceFor_lettered {c : Char} (hlettered : c ∈ lettered) : IsPieceFor c (.char c) := by
  rcases escapeChar_lettered c hlettered with ⟨hescape, hletter⟩
  have hspells := SpellsPiece.short hletter
  rw [← hescape] at hspells
  exact ⟨hspells, rfl, nofun⟩

section Other

variable {c : Char} (hother : c ∉ lettered)

include hother

theorem isPieceFor_control (hcontrol : c.toNat < 32) : IsPieceFor c (.unit c.toNat) := by
  have hplain : ¬Text.isHalfUnit c.toNat = true := by
    unfold Text.isHalfUnit
    simp
    omega
  have hescape : escapeChar c = unitEscape c.toNat :=
    (escapeChar_other hother).trans (if_pos hcontrol)
  constructor
  case spells => exact hescape ▸ unitEscape_spells (by omega)
  case own => exact (if_neg hplain).trans (Char.ofNat_toNat c)
  case half =>
    intro n hn hhalf
    rw [← Piece.unit.inj hn] at hhalf
    exact absurd hhalf hplain

theorem isPieceFor_half (hhalf : Text.isHalf c = true) :
    IsPieceFor c (.unit (c.toNat - 0x100000)) := by
  rcases isHalf_bounds hhalf with ⟨hplane, hlow, hhigh⟩
  have hunit : Text.isHalfUnit (c.toNat - 0x100000) = true := by
    unfold Text.isHalfUnit
    simp [hlow, hhigh]
  have hescape : escapeChar c = unitEscape (c.toNat - 0x100000) := by
    rw [escapeChar_other hother, if_neg (by omega), if_pos hhalf]
  constructor
  case spells => exact hescape ▸ unitEscape_spells (by omega)
  case own =>
    change unitChar (c.toNat - 0x100000) = c
    unfold unitChar Text.ofHalf
    rw [if_pos hunit, Nat.add_sub_cancel' hplane]
    exact Char.ofNat_toNat c
  case half =>
    intro n hn _
    exact ⟨hhalf, (Piece.unit.inj hn).symm⟩

theorem isPieceFor_plain (hshown : 32 ≤ c.toNat) (hwhole : ¬Text.isHalf c = true) :
    IsPieceFor c (.char c) := by
  have hescape : escapeChar c = [c] := by
    rw [escapeChar_other hother, if_neg (Nat.not_lt.mpr hshown), if_neg hwhole]
  simp only [lettered, List.mem_cons, not_or] at hother
  exact ⟨hescape ▸ .plain hother.1 hother.2.1 hshown, rfl, nofun⟩

end Other

theorem exists_isPieceFor (c : Char) : exists piece, IsPieceFor c piece := by
  by_cases hlettered : c ∈ lettered
  · exact ⟨_, isPieceFor_lettered hlettered⟩
  by_cases hcontrol : c.toNat < 32
  · exact ⟨_, isPieceFor_control hlettered hcontrol⟩
  by_cases hhalf : Text.isHalf c = true
  · exact ⟨_, isPieceFor_half hlettered hhalf⟩
  · exact ⟨_, isPieceFor_plain hlettered (Nat.not_lt.mp hcontrol) hhalf⟩

theorem IsPieceFor.not_pair {a b : Char} {high low : Nat} (ha : IsPieceFor a (.unit high))
    (hb : IsPieceFor b (.unit low)) (hapart : ¬Text.ArePair a b) : ¬(IsHigh high ∧ IsLow low) := by
  intro hpair
  have hhalf : forall n, IsHigh n ∨ IsLow n -> Text.isHalfUnit n = true := by
    intro n hn
    unfold IsHigh IsLow at hn
    unfold Text.isHalfUnit
    simp
    omega
  rcases ha.half high rfl (hhalf high (Or.inl hpair.1)) with ⟨hfirst, hhigh⟩
  rcases hb.half low rfl (hhalf low (Or.inr hpair.2)) with ⟨hsecond, hlow⟩
  rw [hhigh, hlow] at hpair
  exact hapart ⟨⟨hfirst, hpair.1⟩, hsecond, hpair.2⟩

/-- Characters are written by pieces that denote them, as long as no two of them make a pair. -/
theorem quoted_content {text : List Char} (hwhole : Text.IsWhole text) :
    exists pieces, SpellsContent (text.flatMap escapeChar) pieces ∧ denote pieces = text := by
  have hwritten : exists pieces, List.Forall₂ IsPieceFor text pieces := by
    induction text with
    | nil => exact ⟨[], .nil⟩
    | cons c rest ih =>
        rcases ih hwhole.tail with ⟨pieces, hpieces⟩
        rcases exists_isPieceFor c with ⟨piece, hpiece⟩
        exact ⟨piece :: pieces, .cons hpiece hpieces⟩
  rcases hwritten with ⟨pieces, hpieces⟩
  refine ⟨pieces, ?_, ?_⟩
  · induction hpieces with
    | nil => exact .nil
    | cons hpiece _ ih => exact .cons hpiece.spells (ih hwhole.tail)
  · induction hpieces with
    | nil => rfl
    | @cons c piece rest pieces hpiece hrest ih =>
        have hbehind := ih hwhole.tail
        have halone : denote (piece :: pieces) = piece.own :: denote pieces := by
          cases piece with
          | char c => rfl
          | unit high =>
              cases hrest with
              | nil => rfl
              | @cons next second others more hsecond _ =>
                  cases second with
                  | char c => rfl
                  | unit low =>
                      exact if_neg (hpiece.not_pair hsecond (List.isChain_cons_cons.mp hwhole).1)
        rw [halone, hpiece.own, hbehind]

end Json

end OperatorConsole
