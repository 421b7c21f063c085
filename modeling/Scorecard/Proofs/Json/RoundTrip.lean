import Scorecard.Proofs.Json.Number
import Scorecard.Proofs.Json.Shape
import Scorecard.Proofs.Json.Text
import Scorecard.Proofs.Text.Pattern

/-!
# Reading written values

A value of the format is read back from its text, in either style. A part of a text is read up to
what closes it, and twice the length of the part is enough fuel: an item uses at least one character
and the comma after it another one, while reading it and going on to the next one takes one step
each.
-/

namespace Scorecard

namespace Json

theorem skipSpace_append {spaces : List Char} (blank : ∀ c ∈ spaces, isSpace c = true)
    (rest : List Char) : skipSpace (spaces ++ rest) = skipSpace rest :=
  List.dropWhile_append_of_pos blank

theorem skipSpace_cons {c : Char} (solid : isSpace c = false) (rest : List Char) :
    skipSpace (c :: rest) = c :: rest := by
  rw [skipSpace, List.dropWhile_cons_of_neg (by simpa using solid)]

theorem isSpace_of_mem_lineBreak {style : Style} {depth : ℕ} {c : Char}
    (mem : c ∈ (style.lineBreak depth).toList) : isSpace c = true := by
  cases style with
  | compact => cases mem
  | indented =>
      simp only [Style.lineBreak, String.toList_append, List.mem_append, String.toList_ofList,
        List.mem_replicate] at mem
      rcases mem with mem | ⟨_, rfl⟩
      · rw [List.mem_singleton.mp mem]
        rfl
      · rfl

/-- What closes a value still does so on a line of its own. -/
theorem Closes.lineBreak {after : List Char} (closes : Closes after) (style : Style) (depth : ℕ) :
    Closes ((style.lineBreak depth).toList ++ after) := by
  cases style with
  | compact => exact closes
  | indented =>
      intro c mem
      rw [Style.lineBreak, String.toList_append] at mem
      cases mem
      exact .inr (.inr (.inr rfl))

theorem exists_separator (style : Style) (depth : ℕ) :
    ∃ breaks, (style.separator ++ style.lineBreak depth).toList = ',' :: breaks ∧
      ∀ c ∈ breaks, isSpace c = true := by
  rw [String.toList_append]
  cases style with
  | compact => exact ⟨[' '], rfl, by simp [isSpace]⟩
  | indented =>
      exact ⟨(Style.indented.lineBreak depth).toList, rfl,
        fun c mem => isSpace_of_mem_lineBreak mem⟩

/-- Whether a name or a number starts with a character. -/
def startsPlain (c : Char) : Bool :=
  c.isDigit || ['n', 't', 'f', 'N', 'I', '-'].contains c

/-- Whether a value starts with a character. -/
def startsValue (c : Char) : Bool :=
  startsPlain c || ['"', '[', '\x7b'].contains c

theorem ne_of_starts {starts : Char → Bool} {c other : Char} (yes : starts c = true)
    (no : starts other = false) : c ≠ other := by
  rintro rfl
  rw [yes] at no
  cases no

theorem isSpace_of_startsValue {c : Char} (starts : startsValue c = true) : isSpace c = false := by
  have notSpace : c ≠ ' ' := ne_of_starts starts rfl
  have notTab : c ≠ '\t' := ne_of_starts starts rfl
  have notLineFeed : c ≠ '\n' := ne_of_starts starts rfl
  have notReturn : c ≠ '\r' := ne_of_starts starts rfl
  simp [isSpace, notSpace, notTab, notLineFeed, notReturn]

theorem plainValue_starts {text after : List Char} {data : Data}
    (read : plainValue text = .ok (data, after)) :
    ∃ c rest, text = c :: rest ∧ startsPlain c = true := by
  simp only [plainValue] at read
  split at read
  · next result found =>
      cases read
      rcases List.exists_of_findSome?_eq_some found with ⟨⟨name, value⟩, mem, named⟩
      rcases Option.map_eq_some_iff.mp named with ⟨rest, dropped, _⟩
      have starts := (dropStart?_isSome_iff name.toList text).mp (by simp [dropped])
      rcases starts with ⟨tail, rfl⟩
      simp only [List.mem_cons, Prod.mk.injEq, List.not_mem_nil, or_false] at mem
      rcases mem with ⟨rfl, _⟩ | ⟨rfl, _⟩ | ⟨rfl, _⟩ | ⟨rfl, _⟩ | ⟨rfl, _⟩ | ⟨rfl, _⟩ <;>
        exact ⟨_, _, rfl, rfl⟩
  · split at read
    · exact ⟨_, _, rfl, rfl⟩
    · rcases startsWithDigit_of_unsignedNumber read with ⟨c, rest, rfl, isDigit⟩
      exact ⟨c, rest, rfl, by simp [startsPlain, isDigit]⟩

/-- A name or a number is no text and no container. -/
theorem value_of_plainValue {text after : List Char} {data : Data}
    (read : plainValue text = .ok (data, after)) (fuel : ℕ) :
    value (fuel + 1) text = .ok (data, after) := by
  rcases plainValue_starts read with ⟨c, rest, rfl, starts⟩
  have notQuote : c ≠ '"' := ne_of_starts starts rfl
  have notBracket : c ≠ '[' := ne_of_starts starts rfl
  have notBrace : c ≠ '\x7b' := ne_of_starts starts rfl
  simp [value, notQuote, notBracket, notBrace, read]

theorem value_starts {fuel : ℕ} {text after : List Char} {data : Data}
    (read : value fuel text = .ok (data, after)) :
    ∃ c rest, text = c :: rest ∧ startsValue c = true := by
  cases fuel with
  | zero => cases read
  | succ fuel =>
      simp only [value] at read
      split at read
      · exact ⟨_, _, rfl, rfl⟩
      · exact ⟨_, _, rfl, rfl⟩
      · exact ⟨_, _, rfl, rfl⟩
      · rcases plainValue_starts read with ⟨c, rest, rfl, starts⟩
        exact ⟨c, rest, rfl, by rw [startsValue, starts, Bool.true_or]⟩

/-- Whether a value is read back from a text, up to what closes it. -/
def ReadsBack (data : Data) (text : String) : Prop :=
  ∀ (fuel : ℕ) (after : List Char), Closes after → 2 * text.toList.length ≤ fuel + 1 →
    value fuel (text.toList ++ after) = .ok (data, after)

theorem closes_nil : Closes [] := by
  intro c mem
  cases mem

theorem ReadsBack.starts {data : Data} {text : String} (back : ReadsBack data text) :
    ∃ c rest, text.toList = c :: rest ∧ startsValue c = true := by
  have read := back (2 * text.toList.length) [] closes_nil (Nat.le_succ _)
  rw [List.append_nil] at read
  exact value_starts read

theorem ReadsBack.length_pos {data : Data} {text : String} (back : ReadsBack data text) :
    0 < text.toList.length := by
  rcases back.starts with ⟨c, rest, starts, _⟩
  rw [starts]
  exact Nat.succ_pos _

/-- White space before a value is skipped. -/
theorem ReadsBack.spaced {data : Data} {text : String} (back : ReadsBack data text) (fuel : ℕ)
    (after : List Char) (closes : Closes after) (enough : 2 * text.toList.length ≤ fuel + 1) :
    value fuel (skipSpace (' ' :: (text.toList ++ after))) = .ok (data, after) := by
  rcases back.starts with ⟨c, rest, starts, startsValue⟩
  have skipped : skipSpace (' ' :: (text.toList ++ after)) = text.toList ++ after := by
    rw [starts]
    exact skipSpace_cons (isSpace_of_startsValue startsValue) _
  rw [skipped]
  exact back fuel after closes enough

theorem readsBack_of_plainValue {data : Data} {text : String}
    (read : ∀ after, Closes after → plainValue (text.toList ++ after) = .ok (data, after)) :
    ReadsBack data text := by
  intro fuel after closes enough
  rcases plainValue_starts (read [] closes_nil) with ⟨c, rest, text_eq, _⟩
  rw [List.append_nil] at text_eq
  cases fuel with
  | zero =>
      rw [text_eq, List.length_cons] at enough
      omega
  | succ fuel => exact value_of_plainValue (read after closes) fuel

theorem string_textLiteral (text : String) (after : List Char) :
    string (text.toList.flatMap stringChar ++ '"' :: after) = .ok (text, after) := by
  rw [string, stringRest_append]
  simp only [String.ofList_toList]

theorem toList_textLiteral (text : String) :
    (textLiteral text).toList = '"' :: (text.toList.flatMap stringChar ++ ['"']) := by
  rw [textLiteral, String.toList_ofList, stringText]

theorem readsBack_text (text : String) : ReadsBack (.text text) (textLiteral text) := by
  intro fuel after closes enough
  rw [toList_textLiteral] at enough ⊢
  cases fuel with
  | zero =>
      rw [List.length_cons] at enough
      omega
  | succ fuel =>
      rw [List.cons_append, List.append_assoc, List.singleton_append, value, string_textLiteral]
      rfl

/-- A scalar of the format is read back from its text. -/
theorem readsBack_scalar {scalar : Scalar} (plain : scalar.IsJson) {text : String}
    (written : scalarText scalar = .ok text) : ReadsBack (.scalar scalar) text := by
  cases scalar with
  | null =>
      cases written
      exact readsBack_of_plainValue fun after closes => by simp [plainValue, dropStart?]
  | bool truth =>
      cases written
      cases truth <;>
        exact readsBack_of_plainValue fun after closes => by simp [plainValue, dropStart?]
  | int integer =>
      rw [scalarText, integerText] at written
      split at written
      · cases written
      · next short =>
          cases written
          exact readsBack_of_plainValue fun after closes =>
            plainValue_integer (not_le.mp short) closes
  | float number =>
      cases written
      exact readsBack_of_plainValue fun after closes => plainValue_floatText number closes
  | text content =>
      cases written
      exact readsBack_text content
  | octets => cases plain
  | day => cases plain
  | moment => cases plain

section

variable {fuel : ℕ} {text rest next after : List Char} {first : Data}

theorem items_last (read : value fuel text = .ok (first, rest))
    (ends : skipSpace rest = ']' :: after) : items (fuel + 1) text = .ok ([first], after) := by
  simp only [items, read, bind, Except.bind, ends, pure, Except.pure]

theorem items_more {others : List Data} (read : value fuel text = .ok (first, rest))
    (goesOn : skipSpace rest = ',' :: next)
    (readOthers : items fuel (skipSpace next) = .ok (others, after)) :
    items (fuel + 1) text = .ok (first :: others, after) := by
  simp only [items, read, bind, Except.bind, goesOn, readOthers, pure, Except.pure]

variable {name : String} {afterName afterColon : List Char}

theorem members_last (readName : string text = .ok (name, afterName))
    (colon : skipSpace afterName = ':' :: afterColon)
    (read : value fuel (skipSpace afterColon) = .ok (first, rest))
    (ends : skipSpace rest = '\x7d' :: after) :
    members (fuel + 1) ('"' :: text) = .ok ([(.text name, first)], after) := by
  simp only [members, readName, bind, Except.bind, colon, read, ends, pure, Except.pure]

theorem members_more {others : List (Scalar × Data)}
    (readName : string text = .ok (name, afterName))
    (colon : skipSpace afterName = ':' :: afterColon)
    (read : value fuel (skipSpace afterColon) = .ok (first, rest))
    (goesOn : skipSpace rest = ',' :: next)
    (readOthers : members fuel (skipSpace next) = .ok (others, after)) :
    members (fuel + 1) ('"' :: text) = .ok ((.text name, first) :: others, after) := by
  simp only [members, readName, bind, Except.bind, colon, read, goesOn, readOthers, pure,
    Except.pure]

theorem value_list {list : List Data} (solid : ∀ tail, skipSpace text ≠ ']' :: tail)
    (read : items fuel (skipSpace text) = .ok (list, after)) :
    value (fuel + 1) ('[' :: text) = .ok (.list list, after) := by
  simp only [value, read, bind, Except.bind, pure, Except.pure]

theorem value_mapping {pairs : List (Scalar × Data)}
    (solid : ∀ tail, skipSpace text ≠ '\x7d' :: tail)
    (read : members fuel (skipSpace text) = .ok (pairs, after)) :
    value (fuel + 1) ('\x7b' :: text) = .ok (.mapping (Entries.ofPairs pairs), after) := by
  simp only [value, read, bind, Except.bind, pure, Except.pure]

end

section

variable {separator text next : String} {texts : List String} {breaks closing after : List Char}

theorem intercalate_append (separates : separator.toList = ',' :: breaks) (closing : List Char) :
    (separator.intercalate (text :: next :: texts)).toList ++ closing =
      text.toList ++
      (',' :: (breaks ++ ((separator.intercalate (next :: texts)).toList ++ closing))) := by
  rw [String.intercalate_cons_cons, String.toList_append, String.toList_append, separates]
  simp only [List.append_assoc, List.cons_append]

theorem length_intercalate (separates : separator.toList = ',' :: breaks) :
    (separator.intercalate (text :: next :: texts)).toList.length =
      text.toList.length + 1 + breaks.length +
        (separator.intercalate (next :: texts)).toList.length := by
  rw [String.intercalate_cons_cons, String.toList_append, String.toList_append, separates,
    List.length_append, List.length_append, List.length_cons]
  omega

theorem intercalate_starts {c : Char} {tail : List Char} (starts : text.toList = c :: tail)
    (separator : String) (texts : List String) :
    ∃ rest, (separator.intercalate (text :: texts)).toList = c :: rest := by
  cases texts with
  | nil => exact ⟨tail, by rw [String.intercalate_singleton, starts]⟩
  | cons next texts =>
      rw [String.intercalate_cons_cons, String.toList_append, String.toList_append, starts]
      exact ⟨_, rfl⟩

/-- Parts start with a character that is not white space if the first of them does. -/
theorem skipSpace_intercalate {c : Char} {tail : List Char} (starts : text.toList = c :: tail)
    (solid : isSpace c = false) (separator : String) (texts : List String) (closing : List Char) :
    skipSpace ((separator.intercalate (text :: texts)).toList ++ closing) =
      (separator.intercalate (text :: texts)).toList ++ closing := by
  rcases intercalate_starts starts separator texts with ⟨rest, all_eq⟩
  rw [all_eq, List.cons_append, skipSpace_cons solid]

theorem closes_comma (rest : List Char) : Closes (',' :: rest) := by
  intro c mem
  cases mem
  exact .inl rfl

/-- The items of a list are read back from their texts. -/
theorem items_intercalate {list : List Data} {texts : List String}
    (each : List.Forall₂ ReadsBack list texts) (nonempty : list ≠ [])
    (separates : separator.toList = ',' :: breaks) (blank : ∀ c ∈ breaks, isSpace c = true)
    (closes : Closes closing) (ends : skipSpace closing = ']' :: after) {fuel : ℕ}
    (enough : 2 * (separator.intercalate texts).toList.length ≤ fuel) :
    items fuel ((separator.intercalate texts).toList ++ closing) = .ok (list, after) := by
  induction each generalizing fuel with
  | nil => exact absurd rfl nonempty
  | @cons first text others texts back rest ih =>
      have text_pos := back.length_pos
      cases rest with
      | nil =>
          rw [String.intercalate_singleton] at enough ⊢
          cases fuel with
          | zero => omega
          | succ fuel => exact items_last (back fuel closing closes (by omega)) ends
      | @cons second next others texts nextBack rest =>
          rw [length_intercalate separates] at enough
          rw [intercalate_append separates]
          rcases nextBack.starts with ⟨c, tail, starts, startsValue⟩
          have solid := isSpace_of_startsValue startsValue
          cases fuel with
          | zero => omega
          | succ fuel =>
              apply items_more (back fuel _ (closes_comma _) (by omega)) (skipSpace_cons rfl _)
              rw [skipSpace_append blank, skipSpace_intercalate starts solid]
              exact ih (by simp) (by omega)

/-- Whether a member is read back from a text: its name in quotes, a colon and its value. -/
def MemberReadsBack (member : Scalar × Data) (text : String) : Prop :=
  ∃ name value, member.1 = .text name ∧ ReadsBack member.2 value ∧
    text = textLiteral name ++ ": " ++ value

theorem toList_member (name value : String) :
    (textLiteral name ++ ": " ++ value).toList =
      '"' :: (name.toList.flatMap stringChar ++ '"' :: ':' :: ' ' :: value.toList) := by
  rw [String.toList_append, String.toList_append, toList_textLiteral]
  simp

/-- The members of a mapping are read back from their texts. -/
theorem members_intercalate {pairs : List (Scalar × Data)} {texts : List String}
    (each : List.Forall₂ MemberReadsBack pairs texts) (nonempty : pairs ≠ [])
    (separates : separator.toList = ',' :: breaks) (blank : ∀ c ∈ breaks, isSpace c = true)
    (closes : Closes closing) (ends : skipSpace closing = '\x7d' :: after) {fuel : ℕ}
    (enough : 2 * (separator.intercalate texts).toList.length ≤ fuel) :
    members fuel ((separator.intercalate texts).toList ++ closing) = .ok (pairs, after) := by
  induction each generalizing fuel with
  | nil => exact absurd rfl nonempty
  | @cons member text others texts back rest ih =>
      rcases member with ⟨key, first⟩
      rcases back with ⟨name, valueText, rfl, back, rfl⟩
      have value_length : valueText.toList.length <
          (textLiteral name ++ ": " ++ valueText).toList.length := by
        rw [toList_member]
        simp only [List.length_cons, List.length_append]
        omega
      cases rest with
      | nil =>
          rw [String.intercalate_singleton] at enough ⊢
          cases fuel with
          | zero => omega
          | succ fuel =>
              rw [toList_member, List.cons_append, List.append_assoc]
              exact members_last (string_textLiteral name _) (skipSpace_cons rfl _)
                (back.spaced fuel closing closes (by omega)) ends
      | @cons second next others texts nextBack rest =>
          rw [length_intercalate separates] at enough
          rw [intercalate_append separates, toList_member, List.cons_append, List.append_assoc]
          rcases nextBack with ⟨nextName, nextValue, nextKey, nextBack, rfl⟩
          cases fuel with
          | zero => omega
          | succ fuel =>
              apply members_more (string_textLiteral name _) (skipSpace_cons rfl _)
                (back.spaced fuel _ (closes_comma _) (by omega)) (skipSpace_cons rfl _)
              rw [skipSpace_append blank, skipSpace_intercalate (toList_member ..) rfl]
              exact ih (by simp) (by omega)

end

section

variable {opening closing : String} {first last : Char} {texts : List String}

theorem toList_bracketed (opens : opening.toList = [first]) (ends : closing.toList = [last])
    (nonempty : texts ≠ []) (style : Style) (depth : ℕ) (after : List Char) :
    (bracketed style depth opening closing texts).toList ++ after =
      first :: ((style.lineBreak (depth + 1)).toList ++
        (((style.separator ++ style.lineBreak (depth + 1)).intercalate texts).toList ++
          ((style.lineBreak depth).toList ++ last :: after))) := by
  cases texts with
  | nil => exact absurd rfl nonempty
  | cons text texts =>
      simp only [bracketed, String.toList_append, opens, ends, List.append_assoc, List.cons_append,
        List.nil_append]

theorem length_bracketed (opens : opening.toList = [first]) (ends : closing.toList = [last])
    (nonempty : texts ≠ []) (style : Style) (depth : ℕ) :
    2 + ((style.separator ++ style.lineBreak (depth + 1)).intercalate texts).toList.length ≤
      (bracketed style depth opening closing texts).toList.length := by
  have written := toList_bracketed opens ends nonempty style depth []
  rw [List.append_nil] at written
  rw [written]
  simp only [List.length_cons, List.length_append]
  omega

end

theorem closes_closing {closing : Char} (isClosing : closing = ']' ∨ closing = '\x7d')
    (style : Style) (depth : ℕ) (after : List Char) :
    Closes ((style.lineBreak depth).toList ++ closing :: after) := by
  apply Closes.lineBreak
  intro c mem
  cases mem
  rcases isClosing with rfl | rfl
  · exact .inr (.inl rfl)
  · exact .inr (.inr (.inl rfl))

/-- What closes a container ends its parts. -/
theorem skipSpace_closing {c : Char} (solid : isSpace c = false) (style : Style) (depth : ℕ)
    (after : List Char) :
    skipSpace ((style.lineBreak depth).toList ++ c :: after) = c :: after := by
  rw [skipSpace_append fun _ mem => isSpace_of_mem_lineBreak mem, skipSpace_cons solid]

theorem skipSpace_inner {text : String} {c : Char} {tail : List Char}
    (starts : text.toList = c :: tail) (solid : isSpace c = false) (style : Style) (depth : ℕ)
    (separator : String) (texts : List String) (closing : List Char) :
    skipSpace ((style.lineBreak depth).toList ++
        ((separator.intercalate (text :: texts)).toList ++ closing)) =
      (separator.intercalate (text :: texts)).toList ++ closing := by
  rw [skipSpace_append fun _ mem => isSpace_of_mem_lineBreak mem,
    skipSpace_intercalate starts solid]

/-- Parts do not start with what closes a container if the first of them does not. -/
theorem skipSpace_inner_ne {text : String} {c closer : Char} {tail : List Char}
    (starts : text.toList = c :: tail) (solid : isSpace c = false) (different : c ≠ closer)
    (style : Style) (depth : ℕ) (separator : String) (texts : List String)
    (closing rest : List Char) :
    skipSpace ((style.lineBreak depth).toList ++
        ((separator.intercalate (text :: texts)).toList ++ closing)) ≠ closer :: rest := by
  rcases intercalate_starts starts separator texts with ⟨_, all_eq⟩
  rw [skipSpace_inner starts solid, all_eq]
  intro same
  exact different (List.cons.inj same).1

theorem readsBack_list (style : Style) (depth : ℕ) {list : List Data} {texts : List String}
    (each : List.Forall₂ ReadsBack list texts) :
    ReadsBack (.list list) (bracketed style depth "[" "]" texts) := by
  intro fuel after closes enough
  cases each with
  | nil =>
      rw [bracketed] at enough ⊢
      cases fuel with
      | zero => exact absurd enough (by decide)
      | succ fuel => rfl
  | @cons first text others texts back rest =>
      rcases exists_separator style (depth + 1) with ⟨breaks, separates, blank⟩
      rcases back.starts with ⟨c, tail, starts, startsValue⟩
      have solid := isSpace_of_startsValue startsValue
      have opens : "[".toList = ['['] := rfl
      have ends : "]".toList = [']'] := rfl
      have length_le := length_bracketed opens ends (List.cons_ne_nil text texts) style depth
      rw [toList_bracketed opens ends (List.cons_ne_nil text texts)]
      cases fuel with
      | zero => omega
      | succ fuel =>
          apply value_list
          · apply skipSpace_inner_ne starts solid
            rintro rfl
            cases startsValue
          · rw [skipSpace_inner starts solid]
            exact items_intercalate (.cons back rest) (by simp) separates blank
              (closes_closing (.inl rfl) style depth after)
              (skipSpace_closing rfl style depth after) (by omega)

theorem readsBack_mapping (style : Style) (depth : ℕ) {entries : Entries} (named : entries.Named)
    {texts : List String} (each : List.Forall₂ MemberReadsBack entries texts) :
    ReadsBack (.mapping entries) (bracketed style depth "\x7b" "\x7d" texts) := by
  intro fuel after closes enough
  cases each with
  | nil =>
      rw [bracketed] at enough ⊢
      cases fuel with
      | zero => exact absurd enough (by decide)
      | succ fuel => rfl
  | @cons first text others texts back rest =>
      rcases exists_separator style (depth + 1) with ⟨breaks, separates, blank⟩
      have opens : "\x7b".toList = ['\x7b'] := rfl
      have ends : "\x7d".toList = ['\x7d'] := rfl
      have length_le := length_bracketed opens ends (List.cons_ne_nil text texts) style depth
      rw [toList_bracketed opens ends (List.cons_ne_nil text texts)]
      have starts : ∃ tail, text.toList = '"' :: tail := by
        rcases back with ⟨name, value, _, _, rfl⟩
        exact ⟨_, toList_member name value⟩
      rcases starts with ⟨tail, starts⟩
      cases fuel with
      | zero => omega
      | succ fuel =>
          rw [← named.ofPairs_eq]
          apply value_mapping
          · exact skipSpace_inner_ne starts rfl (by decide) _ _ _ _ _
          · rw [skipSpace_inner starts rfl]
            exact members_intercalate (.cons back rest) (by simp) separates blank
              (closes_closing (.inr rfl) style depth after)
              (skipSpace_closing rfl style depth after) (by omega)

theorem itemTexts_eq_ok {style : Style} {depth : ℕ} {list : List Data} {texts : List String}
    (written : itemTexts style depth list = .ok texts) :
    List.Forall₂ (fun item text => valueText style depth item = .ok text) list texts := by
  induction list generalizing texts with
  | nil =>
      cases written
      exact .nil
  | cons item rest ih =>
      rw [itemTexts] at written
      rcases bind_eq_ok_iff.mp written with ⟨text, first, goesOn⟩
      rcases bind_eq_ok_iff.mp goesOn with ⟨others, second, returned⟩
      cases returned
      exact .cons first (ih second)

theorem memberTexts_eq_ok {style : Style} {depth : ℕ} {entries : List (Scalar × Data)}
    {texts : List String} (written : memberTexts style depth entries = .ok texts) :
    List.Forall₂ (fun entry text => ∃ name value, memberName entry.1 = .ok name ∧
      valueText style depth entry.2 = .ok value ∧ text = name ++ ": " ++ value) entries texts := by
  induction entries generalizing texts with
  | nil =>
      cases written
      exact .nil
  | cons entry rest ih =>
      rcases entry with ⟨key, item⟩
      rw [memberTexts] at written
      rcases bind_eq_ok_iff.mp written with ⟨name, named, goesOn⟩
      rcases bind_eq_ok_iff.mp goesOn with ⟨text, first, goesOn⟩
      rcases bind_eq_ok_iff.mp goesOn with ⟨others, second, returned⟩
      cases returned
      exact .cons ⟨name, text, named, first, rfl⟩ (ih second)

/-- A value of the format is read back from its text. -/
theorem readsBack_valueText {data : Data} (isJson : data.IsJson) {style : Style} {depth : ℕ}
    {text : String} (written : valueText style depth data = .ok text) : ReadsBack data text := by
  induction isJson generalizing depth text with
  | scalar plain =>
      rw [valueText] at written
      exact readsBack_scalar plain written
  | list each ih =>
      rw [valueText] at written
      rcases bind_eq_ok_iff.mp written with ⟨texts, parts, returned⟩
      cases returned
      apply readsBack_list
      have both :=
        (List.forall₂_and_left _ _).mpr ⟨fun item mem => @ih item mem, itemTexts_eq_ok parts⟩
      refine both.imp ?_
      rintro item text ⟨back, written⟩
      exact back written
  | mapping named each ih =>
      rw [valueText] at written
      rcases bind_eq_ok_iff.mp written with ⟨texts, parts, returned⟩
      cases returned
      apply readsBack_mapping _ _ named
      have both :=
        (List.forall₂_and_left _ _).mpr ⟨fun entry mem => @ih entry mem, memberTexts_eq_ok parts⟩
      have keyed := (List.forall₂_and_left _ _).mpr ⟨fun entry mem =>
        named.texts entry.1 (List.mem_map_of_mem mem), both⟩
      refine keyed.imp ?_
      rintro ⟨key, item⟩ text ⟨⟨name, rfl⟩, back, literal, value, named, written, rfl⟩
      cases named
      exact ⟨name, value, rfl, back written, rfl⟩

/-- The text of a value denotes the value. -/
theorem decode_encode {data : Data} (isJson : data.IsJson) {style : Style} {text : String}
    (written : encode style data = .ok text) : decode text = .ok data := by
  have back := readsBack_valueText isJson written
  rcases back.starts with ⟨c, tail, starts, startsValue⟩
  have skipped : skipSpace text.toList = text.toList := by
    rw [starts, skipSpace_cons (isSpace_of_startsValue startsValue)]
  have notMark : text.toList.head? ≠ some (Char.ofNat 0xFEFF) := by
    rw [starts]
    intro same
    cases same
    cases startsValue
  have read := back (2 * text.toList.length + 2) [] closes_nil (by omega)
  rw [List.append_nil] at read
  have whole : wholeText text.toList = .ok data := by
    rw [wholeText, if_neg notMark, skipped, read]
    rfl
  simp only [decode, whole]

end Json

end Scorecard
