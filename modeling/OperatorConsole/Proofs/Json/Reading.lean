import OperatorConsole.Proofs.Json.Grammar

/-!
# Reading documents

Reading finds the value of every document and nothing in any other text.

What is read is written, by induction on the bound on the nesting.  What is written is read, by
induction along the grammar: a value is as deep as its text is long at most, and what follows it
in a document is a comma, a bracket or nothing.
-/

namespace OperatorConsole

namespace Json

/-! ## Blanks in front -/

section Front

variable {blank : List Char} (hblank : IsBlank blank)

include hblank

theorem IsBlank.append {other : List Char} (hother : IsBlank other) : IsBlank (blank ++ other) :=
  List.forall_mem_append.mpr ⟨hblank, hother⟩

theorem WritesBetween.behind {text : List Char} {v : Value} (hwrites : WritesBetween text v) :
    WritesBetween (blank ++ text) v := by
  rcases hwrites with ⟨hbefore, hvalue, hafter⟩
  rw [← List.append_assoc]
  exact .between (hblank.append hbefore) hvalue hafter

theorem WritesItems.behind {text : List Char} {items : List Value}
    (hwrites : WritesItems text items) : WritesItems (blank ++ text) items := by
  cases hwrites with
  | last hitem => exact .last (hitem.behind hblank)
  | more hitem hrest =>
      rw [← List.append_assoc]
      exact .more (hitem.behind hblank) hrest

theorem WritesMember.behind {text : List Char} {member : String × Value}
    (hwrites : WritesMember text member) : WritesMember (blank ++ text) member := by
  rcases hwrites with ⟨hbefore, hkey, hafter, hvalue⟩
  rw [← List.append_assoc]
  exact .member (hblank.append hbefore) hkey hafter hvalue

theorem WritesMembers.behind {text : List Char} {members : List (String × Value)}
    (hwrites : WritesMembers text members) : WritesMembers (blank ++ text) members := by
  cases hwrites with
  | last hmember => exact .last (hmember.behind hblank)
  | more hmember hrest =>
      rw [← List.append_assoc]
      exact .more (hmember.behind hblank) hrest

end Front

/-! ## What is read is written -/

theorem readWord_spells {word : String} {v : Value} {text : List Char}
    {read : Value × List Char} (hread : readWord word v text = some read) :
    text = word.toList ++ read.2 ∧ read.1 = v := by
  unfold readWord at hread
  split at hread
  case isFalse => cases hread
  case isTrue hprefix =>
    cases hread
    rcases List.isPrefixOf_iff_prefix.mp hprefix with ⟨rest, rfl⟩
    rw [List.drop_left]
    exact ⟨rfl, rfl⟩

theorem readContent_writes {text content rest : List Char}
    (hread : readContent none text = some (content, rest)) :
    exists name, '\x22' :: text = name ++ rest ∧ WritesString name (String.ofList content) := by
  have hclosed : forall n, (none : Option Nat) = some n -> Text.IsHigh n := by
    intro n hn
    cases hn
  rcases readContent_spells hclosed hread with ⟨inner, pieces, rfl, hinner, rfl⟩
  refine ⟨'\x22' :: (inner ++ ['\x22']), ?_, .quoted hinner⟩
  simp

/-- Up to a bound on the nesting, every value that is read is written by what was taken. -/
def ReadsValues (depth : Nat) : Prop :=
  forall text v rest, readValue depth text = some (v, rest) ->
    exists before inner, text = before ++ (inner ++ rest) ∧ IsBlank before ∧ Writes inner v

def ReadsItems (depth : Nat) : Prop :=
  forall text items rest, readItems depth text = some (items, rest) ->
    exists inner, text = inner ++ ']' :: rest ∧ WritesItems inner items

def ReadsMembers (depth : Nat) : Prop :=
  forall text members rest, readMembers depth text = some (members, rest) ->
    exists inner, text = inner ++ '}' :: rest ∧ WritesMembers inner members

section Step

variable {depth : Nat}

theorem ReadsValues.between (hvalues : ReadsValues depth) {text rest : List Char} {v : Value}
    (hread : readValue depth text = some (v, rest)) :
    exists taken, text = taken ++ skipSpaces rest ∧ WritesBetween taken v := by
  rcases hvalues text v rest hread with ⟨before, inner, rfl, hbefore, hinner⟩
  rcases skipSpaces_spells rest with ⟨after, hrest, hafter⟩
  refine ⟨before ++ (inner ++ after), ?_, .between hbefore hinner hafter⟩
  rw [List.append_assoc, List.append_assoc, ← hrest]

theorem ReadsItems.step (hvalues : ReadsValues depth) (hitems : ReadsItems depth) :
    ReadsItems (depth + 1) := by
  intro text items rest hread
  rw [readItems.eq_def] at hread
  dsimp only at hread
  cases hvalue : readValue depth text with
  | none =>
      rw [hvalue] at hread
      cases hread
  | some value =>
      rcases value with ⟨v, behind⟩
      rw [hvalue] at hread
      rcases hvalues.between hvalue with ⟨taken, rfl, htaken⟩
      dsimp only at hread
      split at hread
      case h_1 more hcomma =>
          cases hrest : readItems depth more with
          | none =>
              rw [hrest] at hread
              cases hread
          | some others =>
              rw [hrest] at hread
              cases hread
              rcases hitems _ _ _ hrest with ⟨inner, rfl, hinner⟩
              refine ⟨taken ++ ',' :: inner, ?_, .more htaken hinner⟩
              rw [hcomma, List.append_assoc]
              rfl
      case h_2 more hend =>
          cases hread
          exact ⟨taken, by rw [hend], .last htaken⟩
      case h_3 => cases hread

theorem ReadsValues.member (hvalues : ReadsValues depth)
    {text quoted key behindKey valued behind : List Char} {v : Value}
    (hquote : skipSpaces text = '\x22' :: quoted)
    (hkey : readContent none quoted = some (key, behindKey))
    (hcolon : skipSpaces behindKey = ':' :: valued)
    (hvalue : readValue depth valued = some (v, behind)) :
    exists taken, text = taken ++ skipSpaces behind ∧
      WritesMember taken (String.ofList key, v) := by
  rcases skipSpaces_spells text with ⟨before, htext, hbefore⟩
  rcases readContent_writes hkey with ⟨name, hstring, hname⟩
  rcases skipSpaces_spells behindKey with ⟨after, hafterKey, hafter⟩
  rcases hvalues.between hvalue with ⟨taken, rfl, htaken⟩
  refine ⟨_, ?_, .member hbefore hname hafter htaken⟩
  rw [htext, hquote, hstring, hafterKey, hcolon]
  simp

theorem ReadsMembers.step (hvalues : ReadsValues depth) (hmembers : ReadsMembers depth) :
    ReadsMembers (depth + 1) := by
  intro text members rest hread
  rw [readMembers.eq_def] at hread
  dsimp only at hread
  split at hread
  case h_2 => cases hread
  case h_1 quoted hquote =>
  cases hkey : readContent none quoted with
  | none =>
      rw [hkey] at hread
      cases hread
  | some content =>
      rcases content with ⟨key, behindKey⟩
      rw [hkey] at hread
      dsimp only at hread
      split at hread
      case h_2 => cases hread
      case h_1 valued hcolon =>
      cases hvalue : readValue depth valued with
      | none =>
          rw [hvalue] at hread
          cases hread
      | some value =>
          rcases value with ⟨v, behind⟩
          rw [hvalue] at hread
          rcases hvalues.member hquote hkey hcolon hvalue with ⟨taken, rfl, htaken⟩
          dsimp only at hread
          split at hread
          case h_1 more hcomma =>
              cases hrest : readMembers depth more with
              | none =>
                  rw [hrest] at hread
                  cases hread
              | some others =>
                  rw [hrest] at hread
                  cases hread
                  rcases hmembers _ _ _ hrest with ⟨inner, rfl, hinner⟩
                  refine ⟨taken ++ ',' :: inner, ?_, .more htaken hinner⟩
                  rw [hcomma, List.append_assoc]
                  rfl
          case h_2 more hend =>
              cases hread
              exact ⟨taken, by rw [hend], .last htaken⟩
          case h_3 => cases hread

theorem ReadsItems.bracketed (hitems : ReadsItems depth) {text rest : List Char} {v : Value}
    (hread : (match skipSpaces text with
      | ']' :: rest => some (Value.list [], rest)
      | rest =>
          match readItems depth rest with
          | some (items, rest) => some (.list items, rest)
          | none => none) = some (v, rest)) :
    exists inner, '[' :: text = inner ++ rest ∧ Writes inner v := by
  rcases skipSpaces_spells text with ⟨blank, htext, hblank⟩
  split at hread
  case h_1 behind hend =>
      cases hread
      refine ⟨'[' :: (blank ++ [']']), ?_, .emptyList hblank⟩
      rw [htext, hend]
      simp
  case h_2 =>
      cases hfound : readItems depth (skipSpaces text) with
      | none =>
          rw [hfound] at hread
          cases hread
      | some items =>
          rw [hfound] at hread
          cases hread
          rcases hitems _ _ _ hfound with ⟨inner, hinner, hwrites⟩
          refine ⟨'[' :: ((blank ++ inner) ++ [']']), ?_, .list (hwrites.behind hblank)⟩
          rw [htext, hinner]
          simp

theorem ReadsMembers.braced (hmembers : ReadsMembers depth) {text rest : List Char} {v : Value}
    (hread : (match skipSpaces text with
      | '}' :: rest => some (Value.ofFields [], rest)
      | rest =>
          match readMembers depth rest with
          | some (members, rest) => some (.ofFields (Fields.ofList members), rest)
          | none => none) = some (v, rest)) :
    exists inner, '{' :: text = inner ++ rest ∧ Writes inner v := by
  rcases skipSpaces_spells text with ⟨blank, htext, hblank⟩
  split at hread
  case h_1 behind hend =>
      cases hread
      refine ⟨'{' :: (blank ++ ['}']), ?_, .emptyRecord hblank⟩
      rw [htext, hend]
      simp
  case h_2 =>
      cases hfound : readMembers depth (skipSpaces text) with
      | none =>
          rw [hfound] at hread
          cases hread
      | some members =>
          rw [hfound] at hread
          cases hread
          rcases hmembers _ _ _ hfound with ⟨inner, hinner, hwrites⟩
          refine ⟨'{' :: ((blank ++ inner) ++ ['}']), ?_, .record (hwrites.behind hblank)⟩
          rw [htext, hinner]
          simp

theorem ReadsValues.step (hitems : ReadsItems depth) (hmembers : ReadsMembers depth) :
    ReadsValues (depth + 1) := by
  intro text v rest hread
  rcases skipSpaces_spells text with ⟨before, htext, hbefore⟩
  suffices htaken : exists inner, skipSpaces text = inner ++ rest ∧ Writes inner v by
    rcases htaken with ⟨inner, hinner, hwrites⟩
    exact ⟨before, inner, hinner ▸ htext, hbefore, hwrites⟩
  rw [readValue.eq_def] at hread
  dsimp only at hread
  split at hread
  case h_1 => cases hread
  case h_2 c more hhead =>
  split at hread
  case isTrue hquote =>
    subst hquote
    rw [hhead]
    cases hstring : readContent none more with
    | none =>
        rw [hstring] at hread
        cases hread
    | some content =>
        rcases content with ⟨s, behind⟩
        rw [hstring] at hread
        cases hread
        rcases readContent_writes hstring with ⟨name, hname, hwrites⟩
        exact ⟨name, hname, .text hwrites⟩
  split at hread
  case isTrue hbracket =>
    subst hbracket
    rw [hhead]
    exact hitems.bracketed hread
  split at hread
  case isTrue hbrace =>
    subst hbrace
    rw [hhead]
    exact hmembers.braced hread
  rw [← hhead] at hread
  split at hread
  case isTrue =>
    rcases readWord_spells hread with ⟨hword, rfl⟩
    exact ⟨_, hword, .yes⟩
  split at hread
  case isTrue =>
    rcases readWord_spells hread with ⟨hword, rfl⟩
    exact ⟨_, hword, .no⟩
  split at hread
  case isTrue =>
    rcases readWord_spells hread with ⟨hword, rfl⟩
    exact ⟨_, hword, .null⟩
  cases hnumber : readNumber (skipSpaces text) with
  | none =>
      rw [hnumber] at hread
      cases hread
  | some number =>
      rcases number with ⟨x, behind⟩
      rw [hnumber] at hread
      cases hread
      rcases readNumber_spells hnumber with ⟨inner, d, hinner, hspells, rfl⟩
      exact ⟨inner, hinner, .number hspells⟩

end Step

theorem reads_written (depth : Nat) :
    ReadsValues depth ∧ ReadsItems depth ∧ ReadsMembers depth := by
  induction depth with
  | zero => exact ⟨nofun, nofun, nofun⟩
  | succ depth ih =>
      rcases ih with ⟨hvalues, hitems, hmembers⟩
      exact ⟨.step hitems hmembers, .step hvalues hitems, .step hvalues hmembers⟩

/-! ## What is written is read -/

theorem mem_of_isSpace {c : Char} (hc : isSpace c = true) : c ∈ [' ', '\n', '\t', '\r'] := by
  unfold isSpace at hc
  simpa [or_assoc] using hc

/-- What can follow a value in a document. -/
def Closes (rest : List Char) : Prop :=
  forall c, rest.head? = some c -> c ∈ [',', ']', '}']

theorem closes_cons {c : Char} (hc : c ∈ [',', ']', '}']) (rest : List Char) :
    Closes (c :: rest) := by
  intro first hfirst
  cases hfirst
  exact hc

section Rest

variable {rest : List Char} (hrest : Closes rest)

include hrest

theorem Closes.skipSpaces_eq : skipSpaces rest = rest := by
  have hsolid : forall c, c ∈ [',', ']', '}'] -> isSpace c = false :=
    List.all_iff_forall_prop.mp (by decide)
  cases rest with
  | nil => rfl
  | cons c rest => exact skipSpaces_solid (hsolid c (hrest c rfl)) rest

theorem Closes.endsNotation {blank : List Char} (hblank : IsBlank blank) :
    Decimal.EndsNotation (blank ++ rest) := by
  have hclosing : forall c, c ∈ [',', ']', '}'] -> c.isDigit = false ∧ c ∉ ['.', 'e', 'E'] :=
    List.all_iff_forall_prop.mp (by decide)
  have hspace : forall c, c ∈ [' ', '\n', '\t', '\r'] -> c.isDigit = false ∧ c ∉ ['.', 'e', 'E'] :=
    List.all_iff_forall_prop.mp (by decide)
  intro c hc
  cases blank with
  | nil => exact hclosing c (hrest c hc)
  | cons first blank =>
      cases hc
      exact hspace _ (mem_of_isSpace (hblank _ List.mem_cons_self))

end Rest

/-- A text that goes on with something else than a bracket, blanks aside. -/
def StartsOpen (text : List Char) : Prop :=
  exists blank c more, text = blank ++ c :: more ∧ IsBlank blank ∧ isSpace c = false ∧
    c ∉ [']', '}']

theorem readValue_blank {blank : List Char} (hblank : IsBlank blank) (depth : Nat)
    (text : List Char) : readValue depth (blank ++ text) = readValue depth text := by
  cases depth with
  | zero => rfl
  | succ depth =>
      rw [readValue.eq_def, readValue.eq_def (depth + 1) text]
      dsimp only
      rw [skipSpaces_blank hblank]

theorem readItems_blank {blank : List Char} (hblank : IsBlank blank) (depth : Nat)
    (text : List Char) : readItems depth (blank ++ text) = readItems depth text := by
  cases depth with
  | zero => rfl
  | succ depth =>
      rw [readItems.eq_def, readItems.eq_def (depth + 1) text]
      dsimp only
      rw [readValue_blank hblank]

theorem readMembers_blank {blank : List Char} (hblank : IsBlank blank) (depth : Nat)
    (text : List Char) : readMembers depth (blank ++ text) = readMembers depth text := by
  cases depth with
  | zero => rfl
  | succ depth =>
      rw [readMembers.eq_def, readMembers.eq_def (depth + 1) text]
      dsimp only
      rw [skipSpaces_blank hblank]

theorem readWord_of_writes (word : String) (v : Value) (rest : List Char) :
    readWord word v (word.toList ++ rest) = some (v, rest) := by
  unfold readWord
  rw [if_pos (List.isPrefixOf_iff_prefix.mpr (List.prefix_append _ _)), List.drop_left]

theorem readContent_of_writes {name : List Char} {key : String} (hname : WritesString name key)
    (rest : List Char) :
    exists more, name ++ rest = '\x22' :: more ∧
      readContent none more = some (key.toList, rest) := by
  rcases hname with @⟨content, pieces, hcontent⟩
  refine ⟨content ++ '\x22' :: rest, by simp, ?_⟩
  rw [readContent_of_spells hcontent (fun n hn => by cases hn) rest, String.toList_ofList]
  rfl

theorem number_head {text : List Char} {d : Decimal} (hspells : Decimal.SpellsPlainly text d) :
    exists c more, text = c :: more ∧ isSpace c = false ∧ c ∉ [']', '}'] ∧
      c ∉ ['\x22', '[', '{', 't', 'f', 'n'] := by
  have hspace : forall c, c ∈ [' ', '\n', '\t', '\r'] -> c.isDigit = false :=
    List.all_iff_forall_prop.mp (by decide)
  have hclosing : forall c, c ∈ [']', '}'] -> c.isDigit = false :=
    List.all_iff_forall_prop.mp (by decide)
  have hopening : forall c, c ∈ ['\x22', '[', '{', 't', 'f', 'n'] -> c.isDigit = false :=
    List.all_iff_forall_prop.mp (by decide)
  rcases hspells with @⟨negative, body, d, _, hstart⟩
  rcases hstart with ⟨c, more, rfl, hdigit, _⟩
  cases negative with
  | true => exact ⟨'-', c :: more, rfl, by decide⟩
  | false =>
      have hnot : forall others : List Char, (forall c, c ∈ others -> c.isDigit = false) ->
          c ∉ others := by
        intro others hothers hc
        rw [hothers c hc] at hdigit
        cases hdigit
      refine ⟨c, more, rfl, ?_, hnot _ hclosing, hnot _ hopening⟩
      rw [Bool.eq_false_iff]
      exact fun hc => hnot _ hspace (mem_of_isSpace hc)

theorem Writes.head {text : List Char} {v : Value} (hwrites : Writes text v) :
    exists c more, text = c :: more ∧ isSpace c = false ∧ c ∉ [']', '}'] := by
  cases hwrites with
  | null => exact ⟨'n', _, rfl, by decide⟩
  | yes => exact ⟨'t', _, rfl, by decide⟩
  | no => exact ⟨'f', _, rfl, by decide⟩
  | text hstring =>
      cases hstring
      exact ⟨'\x22', _, rfl, by decide⟩
  | emptyList _ => exact ⟨'[', _, rfl, by decide⟩
  | list _ => exact ⟨'[', _, rfl, by decide⟩
  | emptyRecord _ => exact ⟨'{', _, rfl, by decide⟩
  | record _ => exact ⟨'{', _, rfl, by decide⟩
  | number hnumber =>
      rcases number_head hnumber with ⟨c, more, htext, hspace, hclosing, _⟩
      exact ⟨c, more, htext, hspace, hclosing⟩

theorem Writes.not_nil {text : List Char} {v : Value} (hwrites : Writes text v) :
    ¬text.length ≤ 0 := by
  rcases hwrites.head with ⟨c, more, rfl, _⟩
  exact Nat.not_succ_le_zero _

theorem WritesBetween.startsOpen {text : List Char} {v : Value} (hwrites : WritesBetween text v) :
    StartsOpen text := by
  rcases hwrites with ⟨hbefore, hvalue, _⟩
  rcases hvalue.head with ⟨c, more, rfl, hc⟩
  exact ⟨_, c, _, rfl, hbefore, hc⟩

theorem WritesMember.startsOpen {text : List Char} {member : String × Value}
    (hwrites : WritesMember text member) : StartsOpen text := by
  rcases hwrites with ⟨hbefore, hkey, _, _⟩
  cases hkey
  exact ⟨_, '\x22', _, rfl, hbefore, by decide⟩

theorem StartsOpen.append {text : List Char} (hopen : StartsOpen text) (rest : List Char) :
    StartsOpen (text ++ rest) := by
  rcases hopen with ⟨blank, c, more, rfl, hblank, hc⟩
  exact ⟨blank, c, more ++ rest, by simp, hblank, hc⟩

theorem WritesItems.startsOpen {text : List Char} {items : List Value}
    (hwrites : WritesItems text items) : StartsOpen text := by
  cases hwrites with
  | last hitem => exact hitem.startsOpen
  | more hitem _ => exact hitem.startsOpen.append _

theorem WritesMembers.startsOpen {text : List Char} {members : List (String × Value)}
    (hwrites : WritesMembers text members) : StartsOpen text := by
  cases hwrites with
  | last hmember => exact hmember.startsOpen
  | more hmember _ => exact hmember.startsOpen.append _

/-! ### One step of reading -/

section Step

variable {depth : Nat} {rest : List Char}

theorem readValue_text {text : List Char} {s : String} (hstring : WritesString text s) :
    readValue (depth + 1) (text ++ rest) = some (.text s, rest) := by
  rcases readContent_of_writes hstring rest with ⟨more, htext, hread⟩
  rw [htext, readValue.eq_def]
  dsimp only
  rw [skipSpaces_solid (by decide)]
  dsimp only
  rw [if_pos rfl, hread]
  dsimp only
  rw [String.ofList_toList]

theorem readValue_number {text : List Char} {d : Decimal}
    (hnumber : Decimal.SpellsPlainly text d) (hrest : Decimal.EndsNotation rest) :
    readValue (depth + 1) (text ++ rest) = some (.number d.toNumber, rest) := by
  have hread := readNumber_of_spells hnumber hrest
  rcases number_head hnumber with ⟨c, more, rfl, hspace, _, hc⟩
  simp only [List.mem_cons, List.not_mem_nil, or_false, not_or] at hc
  rw [List.cons_append] at hread ⊢
  rw [readValue.eq_def]
  dsimp only
  rw [skipSpaces_solid hspace]
  dsimp only
  rw [if_neg hc.1, if_neg hc.2.1, if_neg hc.2.2.1, if_neg hc.2.2.2.1, if_neg hc.2.2.2.2.1,
    if_neg hc.2.2.2.2.2, hread]

theorem readValue_emptyList {blank : List Char} (hblank : IsBlank blank) :
    readValue (depth + 1) ('[' :: (blank ++ ']' :: rest)) = some (.list [], rest) := by
  rw [readValue.eq_def]
  dsimp only
  rw [skipSpaces_solid (by decide)]
  dsimp only
  rw [if_neg (by decide), if_pos rfl, skipSpaces_blank hblank, skipSpaces_solid (by decide)]
  rfl

theorem readValue_list {inner : List Char} {items : List Value} (hopen : StartsOpen inner)
    (hread : readItems depth (inner ++ ']' :: rest) = some (items, rest)) :
    readValue (depth + 1) ('[' :: (inner ++ ']' :: rest)) = some (.list items, rest) := by
  rcases hopen.append (']' :: rest) with ⟨blank, c, more, hinner, hblank, hspace, hc⟩
  have hskip : skipSpaces (inner ++ ']' :: rest) = c :: more := by
    rw [hinner, skipSpaces_blank hblank, skipSpaces_solid hspace]
  rw [hinner, readItems_blank hblank] at hread
  rw [readValue.eq_def]
  dsimp only
  rw [skipSpaces_solid (by decide)]
  dsimp only
  rw [if_neg (by decide), if_pos rfl, hskip]
  split
  case h_1 heq =>
      cases heq
      exact absurd List.mem_cons_self hc
  case h_2 => rw [hread]

theorem readValue_emptyRecord {blank : List Char} (hblank : IsBlank blank) :
    readValue (depth + 1) ('{' :: (blank ++ '}' :: rest)) = some (.ofFields [], rest) := by
  rw [readValue.eq_def]
  dsimp only
  rw [skipSpaces_solid (by decide)]
  dsimp only
  rw [if_neg (by decide), if_neg (by decide), if_pos rfl, skipSpaces_blank hblank,
    skipSpaces_solid (by decide)]
  rfl

theorem readValue_record {inner : List Char} {members : List (String × Value)}
    (hopen : StartsOpen inner)
    (hread : readMembers depth (inner ++ '}' :: rest) = some (members, rest)) :
    readValue (depth + 1) ('{' :: (inner ++ '}' :: rest)) =
      some (.ofFields (Fields.ofList members), rest) := by
  rcases hopen.append ('}' :: rest) with ⟨blank, c, more, hinner, hblank, hspace, hc⟩
  have hskip : skipSpaces (inner ++ '}' :: rest) = c :: more := by
    rw [hinner, skipSpaces_blank hblank, skipSpaces_solid hspace]
  rw [hinner, readMembers_blank hblank] at hread
  rw [readValue.eq_def]
  dsimp only
  rw [skipSpaces_solid (by decide)]
  dsimp only
  rw [if_neg (by decide), if_neg (by decide), if_pos rfl, hskip]
  split
  case h_1 heq =>
      cases heq
      exact absurd (List.mem_cons_of_mem _ List.mem_cons_self) hc
  case h_2 => rw [hread]

theorem readValue_word {word : String} {v : Value}
    (hword : (word, v) ∈ [("true", Value.bool true), ("false", .bool false), ("null", .null)]) :
    readValue (depth + 1) (word.toList ++ rest) = some (v, rest) := by
  have hread := readWord_of_writes word v rest
  simp only [List.mem_cons, List.not_mem_nil, or_false, Prod.mk.injEq] at hword
  rw [readValue.eq_def]
  rcases hword with ⟨rfl, rfl⟩ | ⟨rfl, rfl⟩ | ⟨rfl, rfl⟩
  · exact hread
  · exact hread
  · exact hread

section Items

variable {text left more : List Char} {v : Value}

theorem readItems_last (hread : readValue depth text = some (v, left))
    (hleft : skipSpaces left = ']' :: rest) :
    readItems (depth + 1) text = some ([v], rest) := by
  rw [readItems.eq_def]
  simp only [hread, hleft]

theorem readItems_more {items : List Value} (hread : readValue depth text = some (v, left))
    (hleft : skipSpaces left = ',' :: more) (hmore : readItems depth more = some (items, rest)) :
    readItems (depth + 1) text = some (v :: items, rest) := by
  rw [readItems.eq_def]
  simp only [hread, hleft, hmore]

end Items

section Members

variable {before name after text left more : List Char} {key : String} {v : Value}
  (hbefore : IsBlank before) (hkey : WritesString name key) (hafter : IsBlank after)
  (hread : readValue depth text = some (v, left))

include hbefore hkey hafter

theorem member_head : exists content,
    skipSpaces (before ++ (name ++ (after ++ ':' :: text))) = '\x22' :: content ∧
      readContent none content = some (key.toList, after ++ ':' :: text) ∧
      skipSpaces (after ++ ':' :: text) = ':' :: text := by
  rcases readContent_of_writes hkey (after ++ ':' :: text) with ⟨content, hname, hcontent⟩
  refine ⟨content, ?_, hcontent, ?_⟩
  · rw [skipSpaces_blank hbefore, hname, skipSpaces_solid (by decide)]
  · rw [skipSpaces_blank hafter, skipSpaces_solid (by decide)]

include hread

theorem readMembers_last (hleft : skipSpaces left = '}' :: rest) :
    readMembers (depth + 1) (before ++ (name ++ (after ++ ':' :: text))) =
      some ([(key, v)], rest) := by
  rcases member_head hbefore hkey hafter with ⟨content, hquote, hcontent, hcolon⟩
  rw [readMembers.eq_def]
  dsimp only
  rw [hquote]
  simp only [hcontent, hcolon, hread, hleft, String.ofList_toList]

theorem readMembers_more {members : List (String × Value)} (hleft : skipSpaces left = ',' :: more)
    (hmore : readMembers depth more = some (members, rest)) :
    readMembers (depth + 1) (before ++ (name ++ (after ++ ':' :: text))) =
      some ((key, v) :: members, rest) := by
  rcases member_head hbefore hkey hafter with ⟨content, hquote, hcontent, hcolon⟩
  rw [readMembers.eq_def]
  dsimp only
  rw [hquote]
  simp only [hcontent, hcolon, hread, hleft, hmore, String.ofList_toList]

end Members

end Step

/-! ### Whole values -/

mutual

/-- A value is read where it is written, if what follows cannot belong to it.  Its length bounds
its nesting. -/
theorem Writes.read {inner : List Char} {v : Value} : Writes inner v -> forall {depth : Nat},
    inner.length ≤ depth -> forall {rest : List Char}, Decimal.EndsNotation rest ->
      readValue depth (inner ++ rest) = some (v, rest)
  | .null, depth + 1, _, rest, _ => readValue_word (by simp)
  | .yes, depth + 1, _, rest, _ => readValue_word (by simp)
  | .no, depth + 1, _, rest, _ => readValue_word (by simp)
  | .number hnumber, 0, hdepth, _, _ => absurd hdepth (Writes.number hnumber).not_nil
  | .number hnumber, depth + 1, _, rest, hrest => readValue_number hnumber hrest
  | .text hstring, 0, hdepth, _, _ => absurd hdepth (Writes.text hstring).not_nil
  | .text hstring, depth + 1, _, rest, _ => readValue_text hstring
  | .emptyList hblank, depth + 1, _, rest, _ => by
      rw [List.cons_append, List.append_assoc]
      exact readValue_emptyList hblank
  | .list hitems, depth + 1, hdepth, rest, _ => by
      rw [List.cons_append, List.append_assoc]
      simp only [List.length_cons, List.length_append] at hdepth
      exact readValue_list hitems.startsOpen (hitems.read (by omega) rest)
  | .emptyRecord hblank, depth + 1, _, rest, _ => by
      rw [List.cons_append, List.append_assoc]
      exact readValue_emptyRecord hblank
  | .record hmembers, depth + 1, hdepth, rest, _ => by
      rw [List.cons_append, List.append_assoc]
      simp only [List.length_cons, List.length_append] at hdepth
      exact readValue_record hmembers.startsOpen (hmembers.read (by omega) rest)

theorem WritesBetween.read {text : List Char} {v : Value} : WritesBetween text v ->
    forall {depth : Nat}, text.length ≤ depth -> forall {rest : List Char}, Closes rest ->
      exists left, readValue depth (text ++ rest) = some (v, left) ∧ skipSpaces left = rest
  | @WritesBetween.between before inner after v hbefore hvalue hafter, depth, hdepth, rest,
      hrest => by
      have hsplit : (before ++ (inner ++ after)) ++ rest =
          before ++ (inner ++ (after ++ rest)) := by
        simp only [List.append_assoc]
      simp only [List.length_append] at hdepth
      refine ⟨after ++ rest, ?_, ?_⟩
      · rw [hsplit, readValue_blank hbefore]
        exact hvalue.read (by omega) (hrest.endsNotation hafter)
      · rw [skipSpaces_blank hafter, hrest.skipSpaces_eq]

theorem WritesItems.read {text : List Char} {items : List Value} : WritesItems text items ->
    forall {depth : Nat}, text.length < depth -> forall rest : List Char,
      readItems depth (text ++ ']' :: rest) = some (items, rest)
  | .last hitem, depth + 1, hdepth, rest => by
      have hend : Closes (']' :: rest) := closes_cons (by decide) rest
      rcases hitem.read (Nat.le_of_lt_succ hdepth) hend with ⟨left, hread, hleft⟩
      exact readItems_last hread hleft
  | @WritesItems.more text others v items hitem hrest, depth + 1, hdepth, rest => by
      have hcomma : Closes (',' :: (others ++ ']' :: rest)) := closes_cons (by decide) _
      simp only [List.length_append, List.length_cons] at hdepth
      have hshort : text.length ≤ depth := by omega
      rcases hitem.read hshort hcomma with ⟨left, hread, hleft⟩
      rw [List.append_assoc, List.cons_append]
      exact readItems_more hread hleft (hrest.read (by omega) rest)

theorem WritesMembers.read {text : List Char} {members : List (String × Value)} :
    WritesMembers text members -> forall {depth : Nat}, text.length < depth ->
      forall rest : List Char, readMembers depth (text ++ '}' :: rest) = some (members, rest)
  | .last (@WritesMember.member before name after text key v hbefore hkey hafter hvalue),
      depth + 1, hdepth, rest => by
      have hend : Closes ('}' :: rest) := closes_cons (by decide) rest
      simp only [List.length_append, List.length_cons] at hdepth
      have hshort : text.length ≤ depth := by omega
      rcases hvalue.read hshort hend with ⟨left, hread, hleft⟩
      simp only [List.append_assoc, List.cons_append]
      exact readMembers_last hbefore hkey hafter hread hleft
  | @WritesMembers.more _ others _ _
      (@WritesMember.member before name after text key v hbefore hkey hafter hvalue) hrest,
      depth + 1, hdepth, rest => by
      have hcomma : Closes (',' :: (others ++ '}' :: rest)) := closes_cons (by decide) _
      simp only [List.length_append, List.length_cons] at hdepth
      have hshort : text.length ≤ depth := by omega
      rcases hvalue.read hshort hcomma with ⟨left, hread, hleft⟩
      simp only [List.append_assoc, List.cons_append]
      exact readMembers_more hbefore hkey hafter hread hleft (hrest.read (by omega) rest)

end

/-- A text is read as a value exactly if it is a document that writes it. -/
theorem parse?_eq_some_iff {document : String} {v : Value} :
    parse? document = some v ↔ WritesBetween document.toList v := by
  unfold parse?
  dsimp only
  constructor
  · intro hparse
    split at hparse
    case h_2 => cases hparse
    case h_1 read rest hread =>
      split at hparse
      case isFalse => cases hparse
      case isTrue hend =>
        cases hparse
        rcases (reads_written _).1.between hread with ⟨taken, htext, htaken⟩
        rw [List.isEmpty_iff.mp hend, List.append_nil] at htext
        rw [htext]
        exact htaken
  · intro hwrites
    have hnothing : Closes [] := by
      intro c hc
      cases hc
    rcases hwrites.read (Nat.le_succ _) hnothing with ⟨left, hread, hleft⟩
    rw [List.append_nil] at hread
    rw [hread]
    dsimp only
    rw [hleft]
    rfl

end Json

end OperatorConsole
