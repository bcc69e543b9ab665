import Mathlib.Data.Bool.AllAny
import OperatorConsole.Number.Decimal
import OperatorConsole.Proofs.Text.Blanks

/-!
# Decimal notation

Which texts write a decimal, and which decimal they write: digits with a fraction behind a point,
or a fraction alone, and an exponent behind a mark.  A point with no digit behind it is left to
some notations.

Scanning takes notation from the head of a text and gives what it writes.  It takes all of the
notation if what follows cannot belong to it.
-/

namespace OperatorConsole

namespace Decimal

/-! ## Notation -/

inductive SpellsSign : List Char -> Bool -> Prop where
  | none : SpellsSign [] false
  | plus : SpellsSign ['+'] false
  | minus : SpellsSign ['-'] true

inductive SpellsExponent : List Char -> Int -> Prop where
  | none : SpellsExponent [] 0
  | digits {mark : Char} {sign digits : List Char} {negative : Bool}
      (hmark : mark = 'e' ∨ mark = 'E') (hsign : SpellsSign sign negative)
      (hdigits : forall c, c ∈ digits -> c.isDigit = true) (hsome : digits ≠ []) :
      SpellsExponent (mark :: (sign ++ digits)) (signed negative (naturalOf digits))

/-- A fraction and the digits that it adds to those before the point. -/
inductive SpellsFraction (bareDot : Bool) : List Char -> List Char -> Prop where
  | none : SpellsFraction bareDot [] []
  | digits {digits : List Char} (hdigits : forall c, c ∈ digits -> c.isDigit = true)
      (hsome : bareDot = true ∨ digits ≠ []) : SpellsFraction bareDot ('.' :: digits) digits

inductive SpellsUnsigned (bareDot : Bool) : List Char -> Decimal -> Prop where
  | number {whole fraction digits exponent : List Char} {e : Int}
      (hwhole : forall c, c ∈ whole -> c.isDigit = true)
      (hfraction : SpellsFraction (bareDot && !whole.isEmpty) fraction digits)
      (hexponent : SpellsExponent exponent e) (hsome : whole ≠ [] ∨ digits ≠ []) :
      SpellsUnsigned bareDot (whole ++ (fraction ++ exponent))
        ⟨false, naturalOf (whole ++ digits), e - digits.length⟩

inductive Spells : List Char -> Decimal -> Prop where
  | signed {sign body : List Char} {negative : Bool} {d : Decimal}
      (hsign : SpellsSign sign negative) (hbody : SpellsUnsigned true body d) :
      Spells (sign ++ body) { d with negative := negative }

/-- Whether a text starts with a digit, and with a zero only if no other digit follows it. -/
def StartsPlain (text : List Char) : Prop :=
  exists c rest, text = c :: rest ∧ c.isDigit = true ∧
    (c = '0' -> forall d, rest.head? = some d -> d.isDigit = false)

def minus (negative : Bool) : List Char :=
  if negative then ['-'] else []

/-- The stricter notation that documents are written in and that numbers are written with: the
only sign is a minus, there are digits on both sides of a point, and no zero is needless. -/
inductive SpellsPlainly : List Char -> Decimal -> Prop where
  | signed {negative : Bool} {body : List Char} {d : Decimal} (hbody : SpellsUnsigned false body d)
      (hstart : StartsPlain body) :
      SpellsPlainly (minus negative ++ body) { d with negative := negative }

theorem SpellsFraction.loosen {bareDot : Bool} {fraction digits : List Char}
    (hfraction : SpellsFraction false fraction digits) :
    SpellsFraction bareDot fraction digits := by
  cases hfraction with
  | none => exact .none
  | digits hdigits hsome => exact .digits hdigits (Or.inr (by simpa using hsome))

theorem minus_spells (negative : Bool) : SpellsSign (minus negative) negative := by
  cases negative with
  | true => exact .minus
  | false => exact .none

theorem SpellsPlainly.spells {text : List Char} {d : Decimal} (hplain : SpellsPlainly text d) :
    Spells text d := by
  rcases hplain with @⟨negative, body, d, hbody, _⟩
  rcases hbody with ⟨hwhole, hfraction, hexponent, hsome⟩
  exact .signed (minus_spells negative) (.number hwhole hfraction.loosen hexponent hsome)

theorem spellsPlainly_zero : SpellsPlainly ['0'] ⟨false, 0, 0⟩ := by
  have hzero : SpellsUnsigned false ['0'] ⟨false, 0, 0⟩ :=
    @SpellsUnsigned.number false ['0'] _ _ _ _ (List.forall_mem_singleton.mpr rfl) .none .none
      (Or.inl (List.cons_ne_nil _ _))
  refine @SpellsPlainly.signed false _ _ hzero ⟨'0', [], rfl, rfl, ?_⟩
  intro _ c hc
  cases hc

/-! ## What is taken is notation -/

theorem isDigit_scanDigits (text : List Char) :
    forall c, c ∈ (scanDigits text).1 -> c.isDigit = true :=
  fun c hc => List.all_eq_true.mp List.all_takeWhile c hc

theorem scanSign_spells (text : List Char) :
    exists sign, text = sign ++ (scanSign text).2 ∧ SpellsSign sign (scanSign text).1 := by
  unfold scanSign
  split
  · exact ⟨['-'], rfl, .minus⟩
  · exact ⟨['+'], rfl, .plus⟩
  · exact ⟨[], rfl, .none⟩

theorem scanExponent_spells (text : List Char) :
    exists exponent, text = exponent ++ (scanExponent text).2 ∧
      SpellsExponent exponent (scanExponent text).1 := by
  cases text with
  | nil => exact ⟨[], rfl, .none⟩
  | cons mark rest =>
      unfold scanExponent
      dsimp only
      split
      case isTrue htaken =>
          rcases Bool.and_eq_true_iff.mp htaken with ⟨hmark, hsome⟩
          rcases scanSign_spells rest with ⟨sign, hrest, hsign⟩
          refine ⟨mark :: (sign ++ (scanDigits (scanSign rest).2).1), ?_, ?_⟩
          · rw [List.cons_append, List.append_assoc, scanDigits_append, ← hrest]
          · exact .digits (by simpa using hmark) hsign (isDigit_scanDigits _) (by simpa using hsome)
      case isFalse => exact ⟨[], rfl, .none⟩

theorem scanFraction_spells (bareDot : Bool) (text : List Char) :
    exists fraction, text = fraction ++ (scanFraction bareDot text).2 ∧
      SpellsFraction bareDot fraction (scanFraction bareDot text).1 := by
  cases text with
  | nil => exact ⟨[], rfl, .none⟩
  | cons c rest =>
      unfold scanFraction
      dsimp only
      split
      case isTrue htaken =>
          rcases Bool.and_eq_true_iff.mp htaken with ⟨hpoint, hsome⟩
          refine ⟨c :: (scanDigits rest).1, ?_, ?_⟩
          · rw [List.cons_append, scanDigits_append]
          · rw [of_decide_eq_true hpoint]
            exact .digits (isDigit_scanDigits rest) (by simpa using hsome)
      case isFalse => exact ⟨[], rfl, .none⟩

theorem scanUnsigned_spells {bareDot : Bool} {text rest : List Char} {d : Decimal}
    (hscan : scanUnsigned bareDot text = some (d, rest)) :
    exists taken, text = taken ++ rest ∧ SpellsUnsigned bareDot taken d := by
  unfold scanUnsigned at hscan
  dsimp only at hscan
  split at hscan
  case isTrue => cases hscan
  case isFalse hsome =>
    cases hscan
    rcases scanFraction_spells (bareDot && !(scanDigits text).1.isEmpty) (scanDigits text).2 with
      ⟨fraction, hafterWhole, hfraction⟩
    rcases scanExponent_spells
      (scanFraction (bareDot && !(scanDigits text).1.isEmpty) (scanDigits text).2).2 with
      ⟨exponent, hafterFraction, hexponent⟩
    refine ⟨_, ?_, .number (isDigit_scanDigits text) hfraction hexponent ?_⟩
    · rw [List.append_assoc, List.append_assoc, ← hafterFraction, ← hafterWhole,
        scanDigits_append]
    · rw [Bool.and_eq_true_iff, List.isEmpty_iff, List.isEmpty_iff] at hsome
      exact Decidable.not_and_iff_or_not.mp hsome

/-! ## Notation is taken -/

theorem scanDigits_of_digits {digits rest : List Char}
    (hdigits : forall c, c ∈ digits -> c.isDigit = true) (hrest : (scanDigits rest).1 = []) :
    scanDigits (digits ++ rest) = (digits, rest) := by
  have hdrop : rest.dropWhile Char.isDigit = rest := by
    have happend := scanDigits_append rest
    rw [hrest] at happend
    exact happend
  unfold scanDigits
  rw [List.takeWhile_append_of_pos hdigits, List.dropWhile_append_of_pos hdigits, hdrop]
  change (digits ++ (scanDigits rest).1, rest) = (digits, rest)
  rw [hrest, List.append_nil]


def EndsNotation (rest : List Char) : Prop :=
  forall c, rest.head? = some c -> c.isDigit = false ∧ c ∉ ['.', 'e', 'E']

theorem endsNotation_nil : EndsNotation [] := by
  intro c hc
  cases hc

theorem not_sign_of_start {c : Char} (hc : c.isDigit = true ∨ c = '.') : c ∉ ['+', '-'] := by
  intro hsign
  rcases List.mem_cons.mp hsign with rfl | hminus
  · exact absurd hc (by decide)
  · rw [List.mem_singleton.mp hminus] at hc
    exact absurd hc (by decide)

theorem scanSign_of_spells {sign rest : List Char} {negative : Bool}
    (hsign : SpellsSign sign negative) (hrest : forall c, rest.head? = some c -> c ∉ ['+', '-']) :
    scanSign (sign ++ rest) = (negative, rest) := by
  cases hsign with
  | plus => rfl
  | minus => rfl
  | none =>
      rw [List.nil_append]
      unfold scanSign
      split
      case h_1 tail => exact absurd (by simp) (hrest '-' rfl)
      case h_2 tail => exact absurd (by simp) (hrest '+' rfl)
      case h_3 => rfl

section Rest

variable {rest : List Char}

theorem scanDigits_of_ends (hrest : EndsNotation rest) : (scanDigits rest).1 = [] := by
  cases rest with
  | nil => rfl
  | cons c rest =>
      apply List.takeWhile_cons_of_neg
      rw [(hrest c rfl).1]
      exact Bool.false_ne_true

theorem scanExponent_of_spells {exponent : List Char} {e : Int}
    (hexponent : SpellsExponent exponent e) (hrest : EndsNotation rest) :
    scanExponent (exponent ++ rest) = (e, rest) := by
  cases hexponent with
  | none =>
      cases rest with
      | nil => rfl
      | cons c rest =>
          have hother := (hrest c rfl).2
          have hmark : ¬ (c = 'e' ∨ c = 'E') := by
            rintro (rfl | rfl)
            · exact hother (by decide)
            · exact hother (by decide)
          simp [scanExponent, hmark]
  | @digits mark sign digits negative hmark hsign hdigits hsome =>
      have hscan := scanDigits_of_digits hdigits (scanDigits_of_ends hrest)
      have hafterSign : scanSign (sign ++ (digits ++ rest)) = (negative, digits ++ rest) := by
        refine scanSign_of_spells hsign fun c hc => ?_
        rcases List.exists_cons_of_ne_nil hsome with ⟨first, others, rfl⟩
        cases hc
        exact not_sign_of_start (Or.inl (hdigits c List.mem_cons_self))
      rw [List.cons_append, List.append_assoc, scanExponent]
      simp [hafterSign, hscan, hmark, hsome]

theorem ends_of_exponent {exponent : List Char} {e : Int} (hexponent : SpellsExponent exponent e)
    (hrest : EndsNotation rest) :
    forall c, (exponent ++ rest).head? = some c -> c.isDigit = false ∧ c ≠ '.' := by
  intro c hc
  cases hexponent with
  | none =>
      rcases hrest c hc with ⟨hdigit, hother⟩
      refine ⟨hdigit, ?_⟩
      rintro rfl
      exact hother (by decide)
  | digits hmark =>
      cases hc
      rcases hmark with rfl | rfl
      · decide
      · decide

theorem scanFraction_of_spells {bareDot : Bool} {fraction digits : List Char}
    (hfraction : SpellsFraction bareDot fraction digits)
    (hrest : forall c, rest.head? = some c -> c.isDigit = false ∧ c ≠ '.') :
    scanFraction bareDot (fraction ++ rest) = (digits, rest) := by
  cases hfraction with
  | none =>
      cases rest with
      | nil => rfl
      | cons c rest => simp [scanFraction, (hrest c rfl).2]
  | digits hdigits hsome =>
      have hnone : (scanDigits rest).1 = [] := by
        cases rest with
        | nil => rfl
        | cons c rest => exact List.takeWhile_cons_of_neg (by simp [(hrest c rfl).1])
      rw [List.cons_append, scanFraction, scanDigits_of_digits hdigits hnone]
      simp [hsome]

theorem scanUnsigned_of_spells {bareDot : Bool} {text : List Char} {d : Decimal}
    (hspells : SpellsUnsigned bareDot text d) (hrest : EndsNotation rest) :
    scanUnsigned bareDot (text ++ rest) = some (d, rest) := by
  cases hspells with
  | @number whole fraction digits exponent e hwhole hfraction hexponent hsome =>
      have hends := ends_of_exponent hexponent hrest
      have hnoDigit : (scanDigits (fraction ++ (exponent ++ rest))).1 = [] := by
        cases hfraction with
        | digits => rfl
        | none =>
            cases htext : exponent ++ rest with
            | nil => rfl
            | cons c text =>
                have hdigit := (hends c (by rw [htext]; rfl)).1
                exact List.takeWhile_cons_of_neg (by simp [hdigit])
      have hfractionScan := scanFraction_of_spells hfraction hends
      have hnone : (whole.isEmpty && digits.isEmpty) = false := by
        rw [Bool.and_eq_false_iff, List.isEmpty_eq_false_iff, List.isEmpty_eq_false_iff]
        exact hsome
      unfold scanUnsigned
      simp only [List.append_assoc, scanDigits_of_digits hwhole hnoDigit, hfractionScan, hnone,
        Bool.false_eq_true, if_false, scanExponent_of_spells hexponent hrest]

end Rest

/-! ## Starts -/

theorem StartsPlain.of_append {taken rest : List Char} (hsome : taken ≠ [])
    (hstart : StartsPlain (taken ++ rest)) : StartsPlain taken := by
  rcases List.exists_cons_of_ne_nil hsome with ⟨first, more, rfl⟩
  rcases hstart with ⟨c, behind, heq, hdigit, hzero⟩
  cases heq
  refine ⟨first, more, rfl, hdigit, fun hfirst d hd => hzero hfirst d ?_⟩
  cases more with
  | nil => cases hd
  | cons next more => exact hd

theorem StartsPlain.append {text rest : List Char} (hstart : StartsPlain text)
    (hrest : EndsNotation rest) : StartsPlain (text ++ rest) := by
  rcases hstart with ⟨c, more, rfl, hdigit, hzero⟩
  refine ⟨c, more ++ rest, rfl, hdigit, fun hc d hd => ?_⟩
  cases more with
  | nil => exact (hrest d hd).1
  | cons next more => exact hzero hc d hd

/-! ## Whole texts -/

theorem SpellsUnsigned.head {bareDot : Bool} {text : List Char} {d : Decimal}
    (hspells : SpellsUnsigned bareDot text d) :
    exists c rest, text = c :: rest ∧ (c.isDigit = true ∨ c = '.') := by
  cases hspells with
  | @number whole fraction digits exponent e hwhole hfraction hexponent hsome =>
      cases whole with
      | cons c whole => exact ⟨c, _, rfl, Or.inl (hwhole c List.mem_cons_self)⟩
      | nil =>
          cases hfraction with
          | none => simp at hsome
          | digits => exact ⟨'.', _, rfl, Or.inr rfl⟩

theorem ofText?_eq_some_iff {text : List Char} {d : Decimal} :
    ofText? text = some d ↔ Spells text d := by
  unfold ofText?
  constructor
  · intro hread
    rcases scanSign_spells text with ⟨sign, htext, hsign⟩
    dsimp only at hread
    split at hread
    case h_1 d' hscan =>
        cases hread
        rcases scanUnsigned_spells hscan with ⟨body, hbody, hspells⟩
        rw [List.append_nil] at hbody
        have hsigned := Spells.signed hsign hspells
        rwa [← hbody, ← htext] at hsigned
    case h_2 => cases hread
  · rintro ⟨hsign, hbody⟩
    rename_i sign body negative d
    have hafterSign : scanSign (sign ++ body) = (negative, body) := by
      refine scanSign_of_spells hsign fun c hc => ?_
      rcases hbody.head with ⟨first, rest, rfl, hfirst⟩
      cases hc
      exact not_sign_of_start hfirst
    have hscan := scanUnsigned_of_spells hbody endsNotation_nil
    rw [List.append_nil] at hscan
    dsimp only
    rw [hafterSign]
    dsimp only
    rw [hscan]

/-! ## Characters of notation -/

section Characters

variable {good : Char -> Prop} {text : List Char}

theorem SpellsSign.forall_mem {negative : Bool} (hspells : SpellsSign text negative)
    (hmarks : forall c, c ∈ ['.', 'e', 'E', '-', '+'] -> good c) :
    forall c, c ∈ text -> good c := by
  cases hspells with
  | none => exact List.forall_mem_nil _
  | plus => exact List.forall_mem_singleton.mpr (hmarks '+' (by decide))
  | minus => exact List.forall_mem_singleton.mpr (hmarks '-' (by decide))

theorem SpellsExponent.forall_mem {e : Int} (hspells : SpellsExponent text e)
    (hdigit : forall c, c.isDigit = true -> good c)
    (hmarks : forall c, c ∈ ['.', 'e', 'E', '-', '+'] -> good c) :
    forall c, c ∈ text -> good c := by
  cases hspells with
  | none => exact List.forall_mem_nil _
  | digits hmark hsign hdigits _ =>
      refine List.forall_mem_cons.mpr ⟨?_, List.forall_mem_append.mpr ⟨?_, ?_⟩⟩
      · rcases hmark with rfl | rfl
        · exact hmarks 'e' (by decide)
        · exact hmarks 'E' (by decide)
      · exact hsign.forall_mem hmarks
      · exact fun c hc => hdigit c (hdigits c hc)

theorem SpellsUnsigned.forall_mem {bareDot : Bool} {d : Decimal}
    (hspells : SpellsUnsigned bareDot text d) (hdigit : forall c, c.isDigit = true -> good c)
    (hmarks : forall c, c ∈ ['.', 'e', 'E', '-', '+'] -> good c) :
    forall c, c ∈ text -> good c := by
  cases hspells with
  | number hwhole hfraction hexponent _ =>
      refine List.forall_mem_append.mpr ⟨fun c hc => hdigit c (hwhole c hc),
        List.forall_mem_append.mpr ⟨?_, hexponent.forall_mem hdigit hmarks⟩⟩
      cases hfraction with
      | none => exact List.forall_mem_nil _
      | digits hdigits _ =>
          exact List.forall_mem_cons.mpr
            ⟨hmarks '.' (by decide), fun c hc => hdigit c (hdigits c hc)⟩

/-- Whatever is true of digits and of the signs of notation is true of all characters of a
number. -/
theorem Spells.forall_mem {d : Decimal} (hspells : Spells text d)
    (hdigit : forall c, c.isDigit = true -> good c)
    (hmarks : forall c, c ∈ ['.', 'e', 'E', '-', '+'] -> good c) :
    forall c, c ∈ text -> good c := by
  cases hspells with
  | signed hsign hbody =>
      exact List.forall_mem_append.mpr
        ⟨hsign.forall_mem hmarks, hbody.forall_mem hdigit hmarks⟩

end Characters

theorem Spells.not_blank {text : List Char} {d : Decimal} (hspells : Spells text d) :
    forall c, c ∈ text -> Text.isBlank c = false :=
  hspells.forall_mem (fun _ => Text.isBlank_digit) (List.all_iff_forall_prop.mp (by decide))

theorem Spells.ne_nil {text : List Char} {d : Decimal} (hspells : Spells text d) : text ≠ [] := by
  cases hspells with
  | signed hsign hbody =>
      rcases hbody.head with ⟨c, rest, rfl, _⟩
      exact List.append_ne_nil_of_right_ne_nil _ (List.cons_ne_nil c rest)

end Decimal

end OperatorConsole
