import OperatorConsole.Proofs.Json.Strings
import OperatorConsole.Proofs.Number.Notation

/-!
# The grammar of documents

Which texts are documents, and which value a document writes.  A key that a record writes twice
keeps its first place and its last value.
-/

namespace OperatorConsole

namespace Json

def IsBlank (text : List Char) : Prop :=
  forall c, c ∈ text -> isSpace c = true

inductive WritesString : List Char -> String -> Prop where
  | quoted {content : List Char} {pieces : List Piece} (hcontent : SpellsContent content pieces) :
      WritesString ('\x22' :: (content ++ ['\x22'])) (String.ofList (denote pieces))

mutual

inductive Writes : List Char -> Value -> Prop where
  | null : Writes "null".toList .null
  | yes : Writes "true".toList (.bool true)
  | no : Writes "false".toList (.bool false)
  | number {text : List Char} {d : Decimal} (hnumber : Decimal.SpellsPlainly text d) :
      Writes text (.number d.toNumber)
  | text {text : List Char} {s : String} (hstring : WritesString text s) : Writes text (.text s)
  | emptyList {blank : List Char} (hblank : IsBlank blank) :
      Writes ('[' :: (blank ++ [']'])) (.list [])
  | list {inner : List Char} {items : List Value} (hitems : WritesItems inner items) :
      Writes ('[' :: (inner ++ [']'])) (.list items)
  | emptyRecord {blank : List Char} (hblank : IsBlank blank) :
      Writes ('{' :: (blank ++ ['}'])) (.ofFields [])
  | record {inner : List Char} {members : List (String × Value)}
      (hmembers : WritesMembers inner members) :
      Writes ('{' :: (inner ++ ['}'])) (.ofFields (Fields.ofList members))

inductive WritesBetween : List Char -> Value -> Prop where
  | between {before inner after : List Char} {v : Value} (hbefore : IsBlank before)
      (hvalue : Writes inner v) (hafter : IsBlank after) :
      WritesBetween (before ++ (inner ++ after)) v

inductive WritesItems : List Char -> List Value -> Prop where
  | last {text : List Char} {v : Value} (hitem : WritesBetween text v) : WritesItems text [v]
  | more {text rest : List Char} {v : Value} {items : List Value} (hitem : WritesBetween text v)
      (hrest : WritesItems rest items) : WritesItems (text ++ ',' :: rest) (v :: items)

inductive WritesMember : List Char -> String × Value -> Prop where
  | member {before name after text : List Char} {key : String} {v : Value}
      (hbefore : IsBlank before) (hkey : WritesString name key) (hafter : IsBlank after)
      (hvalue : WritesBetween text v) :
      WritesMember (before ++ (name ++ (after ++ ':' :: text))) (key, v)

inductive WritesMembers : List Char -> List (String × Value) -> Prop where
  | last {text : List Char} {member : String × Value} (hmember : WritesMember text member) :
      WritesMembers text [member]
  | more {text rest : List Char} {member : String × Value} {members : List (String × Value)}
      (hmember : WritesMember text member) (hrest : WritesMembers rest members) :
      WritesMembers (text ++ ',' :: rest) (member :: members)

end

/-! ## Blanks and numbers -/

theorem skipSpaces_spells (text : List Char) :
    exists blank, text = blank ++ skipSpaces text ∧ IsBlank blank :=
  ⟨text.takeWhile isSpace, List.takeWhile_append_dropWhile.symm,
    fun c hc => List.all_eq_true.mp List.all_takeWhile c hc⟩

theorem skipSpaces_blank {blank : List Char} (hblank : IsBlank blank) (rest : List Char) :
    skipSpaces (blank ++ rest) = skipSpaces rest :=
  List.dropWhile_append_of_pos hblank

theorem skipSpaces_solid {c : Char} (hc : isSpace c = false) (rest : List Char) :
    skipSpaces (c :: rest) = c :: rest :=
  List.dropWhile_cons_of_neg (by rw [hc]; exact Bool.false_ne_true)

theorem finish_spells {negative : Bool} {body rest : List Char} {x : Number}
    (hbody : Decimal.StartsPlain body) (hread : readNumber.finish negative body = some (x, rest)) :
    exists taken d, body = taken ++ rest ∧
      Decimal.SpellsPlainly (Decimal.minus negative ++ taken) d ∧ x = d.toNumber := by
  unfold readNumber.finish at hread
  split at hread
  case h_2 => cases hread
  case h_1 d left hscan =>
    cases hread
    rcases Decimal.scanUnsigned_spells hscan with ⟨taken, rfl, hspells⟩
    have hsome : taken ≠ [] := by
      rcases hspells.head with ⟨c, more, rfl, _⟩
      exact List.cons_ne_nil c more
    exact ⟨taken, _, rfl, .signed hspells (hbody.of_append hsome), rfl⟩

theorem readNumber_spells {text rest : List Char} {x : Number}
    (hread : readNumber text = some (x, rest)) :
    exists inner d, text = inner ++ rest ∧ Decimal.SpellsPlainly inner d ∧ x = d.toNumber := by
  unfold readNumber at hread
  split at hread
  case h_1 _ negative body hsplit =>
  have htext : text = Decimal.minus negative ++ body := by
    split at hsplit
    · cases hsplit
      rfl
    · cases hsplit
      rfl
  have hbody : Decimal.StartsPlain body ∧ readNumber.finish negative body = some (x, rest) := by
    split at hread
    case h_1 c more =>
        split at hread
        case isTrue => cases hread
        case isFalse hdigit =>
            refine ⟨⟨'0', _, rfl, rfl, fun _ d hd => ?_⟩, hread⟩
            cases hd
            exact Bool.eq_false_iff.mpr hdigit
    case h_2 c more hzero =>
        split at hread
        case isFalse => cases hread
        case isTrue hdigit =>
            refine ⟨⟨c, more, rfl, hdigit, fun hc d hd => ?_⟩, hread⟩
            cases more with
            | nil => cases hd
            | cons next more => exact (hzero next more hc rfl).elim
    case h_3 => cases hread
  rcases finish_spells hbody.1 hbody.2 with ⟨taken, d, rfl, hspells, hx⟩
  exact ⟨Decimal.minus negative ++ taken, d, by rw [htext, List.append_assoc], hspells, hx⟩

theorem readNumber_eq (negative : Bool) {body : List Char} (hbody : Decimal.StartsPlain body) :
    readNumber (Decimal.minus negative ++ body) = readNumber.finish negative body := by
  rcases hbody with ⟨c, rest, rfl, hdigit, hzero⟩
  unfold readNumber
  split
  case h_1 _ sign body hsplit =>
  have hsign : sign = negative ∧ body = c :: rest := by
    cases negative with
    | true =>
        cases hsplit
        exact ⟨rfl, rfl⟩
    | false =>
        split at hsplit
        case h_1 heq =>
            cases heq
            cases hdigit
        case h_2 =>
            cases hsplit
            exact ⟨rfl, rfl⟩
  rcases hsign with ⟨rfl, rfl⟩
  split
  case h_1 next more heq =>
      cases heq
      rw [if_neg (by rw [hzero rfl next rfl]; exact Bool.false_ne_true)]
  case h_2 heq =>
      cases heq
      rw [if_pos hdigit]
  case h_3 heq => cases heq

theorem readNumber_of_spells {text rest : List Char} {d : Decimal}
    (hspells : Decimal.SpellsPlainly text d) (hrest : Decimal.EndsNotation rest) :
    readNumber (text ++ rest) = some (d.toNumber, rest) := by
  rcases hspells with @⟨negative, body, d, hbody, hstart⟩
  rw [List.append_assoc, readNumber_eq negative (hstart.append hrest)]
  unfold readNumber.finish
  rw [Decimal.scanUnsigned_of_spells hbody hrest]

end Json

end OperatorConsole
