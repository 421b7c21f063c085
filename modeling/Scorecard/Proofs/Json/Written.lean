import Scorecard.Json.Writer
import Scorecard.Proofs.Display
import Scorecard.Proofs.Except
import Scorecard.Proofs.Json.Number
import Scorecard.Proofs.Json.Text

/-!
# Written values

A value can be written unless an integer in it has too many digits, and what is written are
printable characters of ASCII and line feeds.
-/

namespace Scorecard

namespace Json

theorem exists_scalarText_yields (scalar : Scalar) :
    ∃ text, Yields (scalarText scalar) text (longFaults scalar.integers) := by
  rcases scalar.exists_display_yields with ⟨text, shown⟩
  cases scalar with
  | int value => exact ⟨_, integerText_yields value⟩
  | null => exact ⟨_, .ok _⟩
  | bool value => exact ⟨_, .ok _⟩
  | float value => exact ⟨_, .ok _⟩
  | text value => exact ⟨_, .ok _⟩
  | octets value => exact ⟨_, shown.map _⟩
  | day value => exact ⟨_, shown.map _⟩
  | moment value => exact ⟨_, shown.map _⟩

theorem exists_memberName_yields (key : Scalar) :
    ∃ text, Yields (memberName key) text (longFaults key.integers) := by
  rcases exists_scalarText_yields key with ⟨text, written⟩
  cases key with
  | text value => exact ⟨_, .ok _⟩
  | int value => exact ⟨_, written.map _⟩
  | null => exact ⟨_, written.map _⟩
  | bool value => exact ⟨_, written.map _⟩
  | float value => exact ⟨_, written.map _⟩
  | octets value => exact ⟨_, written.map _⟩
  | day value => exact ⟨_, written.map _⟩
  | moment value => exact ⟨_, written.map _⟩

variable (style : Style)

mutual

theorem exists_valueText_yields : (depth : ℕ) → (data : Data) →
    ∃ text, Yields (valueText style depth data) text (longFaults (data.collect Scalar.integers))
  | depth, .scalar value => by
      rw [valueText, Data.collect]
      exact exists_scalarText_yields value
  | depth, .list items => by
      rw [valueText, Data.collect]
      rcases exists_itemTexts_yields (depth + 1) items with ⟨texts, written⟩
      exact ⟨_, written.map _⟩
  | depth, .mapping entries => by
      rw [valueText, Data.collect]
      rcases exists_memberTexts_yields (depth + 1) entries with ⟨texts, written⟩
      exact ⟨_, written.map _⟩

theorem exists_itemTexts_yields : (depth : ℕ) → (items : List Data) →
    ∃ texts, Yields (itemTexts style depth items) texts
      (longFaults (Data.collectItems Scalar.integers items))
  | depth, [] => ⟨[], .ok []⟩
  | depth, item :: rest => by
      rw [itemTexts, Data.collectItems, longFaults_append]
      rcases exists_valueText_yields depth item with ⟨text, first⟩
      rcases exists_itemTexts_yields depth rest with ⟨texts, others⟩
      exact ⟨_, first.bind (others.map _)⟩

theorem exists_memberTexts_yields : (depth : ℕ) → (entries : List (Scalar × Data)) →
    ∃ texts, Yields (memberTexts style depth entries) texts
      (longFaults (Data.collectEntries Scalar.integers entries))
  | depth, [] => ⟨[], .ok []⟩
  | depth, (key, value) :: rest => by
      rw [memberTexts, Data.collectEntries, longFaults_append, longFaults_append, List.append_assoc]
      rcases exists_memberName_yields key with ⟨name, named⟩
      rcases exists_valueText_yields depth value with ⟨text, first⟩
      rcases exists_memberTexts_yields depth rest with ⟨texts, others⟩
      exact ⟨_, named.bind (first.bind (others.map _))⟩

end

theorem exists_encode_yields (data : Data) :
    ∃ text, Yields (encode style data) text (longFaults data.integers) :=
  exists_valueText_yields style 0 data

/-- A value can be written unless an integer in it has too many digits. -/
theorem encode_writtenIf (data : Data) : WrittenIf (encode style data) data.integers := by
  rcases exists_encode_yields style data with ⟨text, yields⟩
  exact yields.writtenIf

/-- Whether a character can stand in a written value. -/
def IsWritten (c : Char) : Prop :=
  c = '\n' ∨ (32 ≤ c.toNat ∧ c.toNat < 127)

instance (c : Char) : Decidable (IsWritten c) :=
  inferInstanceAs (Decidable (_ ∨ _))

/-- Whether all characters of a text can stand in a written value. -/
def AllWritten (text : List Char) : Prop :=
  ∀ c ∈ text, IsWritten c

instance (text : List Char) : Decidable (AllWritten text) :=
  List.decidableBAll IsWritten text

@[simp]
theorem allWritten_nil : AllWritten [] := by
  intro c mem
  cases mem

@[simp]
theorem allWritten_cons {c : Char} {text : List Char} :
    AllWritten (c :: text) ↔ IsWritten c ∧ AllWritten text :=
  List.forall_mem_cons

@[simp]
theorem allWritten_append {front back : List Char} :
    AllWritten (front ++ back) ↔ AllWritten front ∧ AllWritten back :=
  List.forall_mem_append

theorem AllWritten.plain {text : List Char} (written : AllWritten text) :
    ∀ c ∈ text, c.toNat < 128 ∧ c ≠ '\r' := by
  intro c mem
  rcases written c mem with rfl | ⟨printable, ascii⟩
  · decide
  · refine ⟨by omega, ?_⟩
    rintro rfl
    exact absurd printable (by decide)

theorem allWritten_of_isDigit {digits : List Char} (each : ∀ c ∈ digits, c.isDigit = true) :
    AllWritten digits := by
  intro c mem
  have range := Char.isDigit_iff_toNat.mp (each c mem)
  have zero : '0'.toNat = 48 := rfl
  have nine : '9'.toNat = 57 := rfl
  exact .inr (by omega)

theorem allWritten_decimalDigits (number : ℕ) : AllWritten (decimalDigits number) :=
  allWritten_of_isDigit fun _ mem => isDigit_of_mem_decimalDigits mem

theorem allWritten_zeros (count : ℕ) : AllWritten (List.replicate count '0') :=
  allWritten_of_isDigit fun _ mem => isDigit_of_mem_zeros mem

theorem allWritten_exponentText (exponent : ℤ) : AllWritten (Layout.exponentText exponent) := by
  have digits : AllWritten (Layout.exponentDigits exponent) :=
    allWritten_of_isDigit fun _ mem => Layout.isDigit_of_mem_exponentDigits mem
  rw [Layout.exponentText_eq, allWritten_cons, allWritten_cons]
  refine ⟨by decide, ?_, digits⟩
  split <;> decide

theorem allWritten_place {digits : List Char} (each : AllWritten digits) (leading : ℤ) :
    AllWritten (Layout.exact.place digits leading) := by
  have zeros := allWritten_zeros
  have exponent := allWritten_exponentText leading
  have point : IsWritten '.' := by decide
  have zero : IsWritten '0' := by decide
  simp only [Layout.place]
  split
  · split
    · simp [each, zeros, point, zero]
    · split
      · simp [each, zeros, point, zero, Layout.exact, allWritten_nil]
      · rw [allWritten_append, allWritten_cons]
        exact ⟨fun c mem => each c (List.mem_of_mem_take mem), point,
          fun c mem => each c (List.mem_of_mem_drop mem)⟩
  · split
    · exact allWritten_nil
    · simpa [exponent] using each
    · simpa [exponent, point] using each

theorem allWritten_floatText (value : Binary64) : AllWritten (floatText value).toList := by
  have minus : IsWritten '-' := by decide
  cases value with
  | nan => decide
  | infinite negative => cases negative <;> decide
  | finite negative magnitude =>
      simp only [floatText, String.toList_ofList, Layout.render, allWritten_append]
      constructor
      · cases negative <;> simp [minus, allWritten_nil]
      · rw [Layout.magnitudeText]
        split
        · decide
        · exact allWritten_place (allWritten_decimalDigits _) _

theorem allWritten_unitEscape {unit : ℕ} (small : unit < 0x10000) :
    AllWritten (unitEscape unit) := by
  have digit : ∀ value < 16, IsWritten value.digitChar := by decide
  rw [unitEscape, hexDigits_four small]
  simp only [allWritten_cons]
  exact ⟨by decide, by decide, digit _ (by omega), digit _ (by omega), digit _ (by omega),
    digit _ (by omega), allWritten_nil⟩

theorem allWritten_stringChar (c : Char) : AllWritten (stringChar c) := by
  have range := toNat_range c
  have backslash : IsWritten '\\' := by decide
  rw [stringChar]
  split
  · next quoteOrBackslash =>
      rcases quoteOrBackslash with rfl | rfl <;> decide
  split
  · decide
  split
  · decide
  split
  · decide
  split
  · decide
  split
  · decide
  split
  · next plain =>
      rw [allWritten_cons]
      exact ⟨.inr plain, allWritten_nil⟩
  split
  · next small => exact allWritten_unitEscape small
  · rw [allWritten_append]
    exact ⟨allWritten_unitEscape (by omega), allWritten_unitEscape (by omega)⟩

theorem allWritten_textLiteral (text : String) : AllWritten (textLiteral text).toList := by
  rw [textLiteral, String.toList_ofList, stringText, allWritten_cons, allWritten_append]
  refine ⟨by decide, ?_, by decide⟩
  intro c mem
  rcases List.mem_flatMap.mp mem with ⟨origin, _, part⟩
  exact allWritten_stringChar origin c part

/-- Whatever is shown, it is written between quotes. -/
theorem allWritten_shown {shown : Except Fault String} {text : String}
    (written : (do return textLiteral (← shown)) = .ok text) : AllWritten text.toList := by
  rcases bind_eq_ok_iff.mp written with ⟨content, _, returned⟩
  cases returned
  exact allWritten_textLiteral content

theorem allWritten_scalarText {scalar : Scalar} {text : String}
    (written : scalarText scalar = .ok text) : AllWritten text.toList := by
  cases scalar with
  | null =>
      cases written
      decide
  | bool value =>
      cases written
      cases value <;> decide
  | int value =>
      rw [scalarText, integerText] at written
      split at written
      · cases written
      · cases written
        rw [toString_int, allWritten_append]
        refine ⟨?_, allWritten_decimalDigits _⟩
        split <;> decide
  | float value =>
      cases written
      exact allWritten_floatText value
  | text value =>
      cases written
      exact allWritten_textLiteral value
  | octets value => exact allWritten_shown written
  | day value => exact allWritten_shown written
  | moment value => exact allWritten_shown written

theorem allWritten_memberName {key : Scalar} {text : String} (written : memberName key = .ok text) :
    AllWritten text.toList := by
  cases key with
  | text value =>
      cases written
      exact allWritten_textLiteral value
  | null => exact allWritten_shown written
  | bool value => exact allWritten_shown written
  | int value => exact allWritten_shown written
  | float value => exact allWritten_shown written
  | octets value => exact allWritten_shown written
  | day value => exact allWritten_shown written
  | moment value => exact allWritten_shown written

theorem allWritten_intercalate {separator : String} {texts : List String}
    (separators : AllWritten separator.toList) (each : ∀ text ∈ texts, AllWritten text.toList) :
    AllWritten (separator.intercalate texts).toList := by
  induction texts with
  | nil =>
      rw [String.intercalate_nil]
      exact allWritten_nil
  | cons text texts ih =>
      rw [List.forall_mem_cons] at each
      cases texts with
      | nil =>
          rw [String.intercalate_singleton]
          exact each.1
      | cons next texts =>
          rw [String.intercalate_cons_cons, String.toList_append, String.toList_append,
            allWritten_append, allWritten_append]
          exact ⟨⟨each.1, separators⟩, ih each.2⟩

theorem allWritten_lineBreak (style : Style) (depth : ℕ) :
    AllWritten (style.lineBreak depth).toList := by
  cases style with
  | compact => exact allWritten_nil
  | indented =>
      rw [Style.lineBreak, String.toList_append, allWritten_append]
      refine ⟨by decide, ?_⟩
      rw [String.toList_ofList]
      intro c mem
      rw [List.eq_of_mem_replicate mem]
      decide

theorem allWritten_bracketed {depth : ℕ} {opening closing : String} {texts : List String}
    (opens : AllWritten opening.toList) (closes : AllWritten closing.toList)
    (each : ∀ text ∈ texts, AllWritten text.toList) :
    AllWritten (bracketed style depth opening closing texts).toList := by
  have separators : AllWritten (style.separator ++ style.lineBreak (depth + 1)).toList := by
    rw [String.toList_append, allWritten_append]
    refine ⟨?_, allWritten_lineBreak style _⟩
    cases style <;> decide
  have inner := allWritten_intercalate separators each
  have breaks := allWritten_lineBreak style
  cases texts with
  | nil =>
      rw [bracketed, String.toList_append, allWritten_append]
      exact ⟨opens, closes⟩
  | cons text texts =>
      simp only [bracketed, String.toList_append, allWritten_append]
      exact ⟨⟨⟨⟨opens, breaks (depth + 1)⟩, inner⟩, breaks depth⟩, closes⟩

mutual

theorem allWritten_valueText : (depth : ℕ) → (data : Data) → {text : String} →
    valueText style depth data = .ok text → AllWritten text.toList
  | depth, .scalar value, text, written => by
      rw [valueText] at written
      exact allWritten_scalarText written
  | depth, .list items, text, written => by
      rw [valueText] at written
      rcases bind_eq_ok_iff.mp written with ⟨texts, parts, returned⟩
      cases returned
      exact allWritten_bracketed style (by decide) (by decide)
        (allWritten_itemTexts (depth + 1) items parts)
  | depth, .mapping entries, text, written => by
      rw [valueText] at written
      rcases bind_eq_ok_iff.mp written with ⟨texts, parts, returned⟩
      cases returned
      exact allWritten_bracketed style (by decide) (by decide)
        (allWritten_memberTexts (depth + 1) entries parts)

theorem allWritten_itemTexts : (depth : ℕ) → (items : List Data) → {texts : List String} →
    itemTexts style depth items = .ok texts → ∀ text ∈ texts, AllWritten text.toList
  | depth, [], texts, written => by
      cases written
      simp
  | depth, item :: rest, texts, written => by
      rw [itemTexts] at written
      rcases bind_eq_ok_iff.mp written with ⟨first, firstWritten, goesOn⟩
      rcases bind_eq_ok_iff.mp goesOn with ⟨others, othersWritten, returned⟩
      cases returned
      exact List.forall_mem_cons.mpr ⟨allWritten_valueText depth item firstWritten,
        allWritten_itemTexts depth rest othersWritten⟩

theorem allWritten_memberTexts : (depth : ℕ) → (entries : List (Scalar × Data)) →
    {texts : List String} → memberTexts style depth entries = .ok texts →
      ∀ text ∈ texts, AllWritten text.toList
  | depth, [], texts, written => by
      cases written
      simp
  | depth, (key, value) :: rest, texts, written => by
      rw [memberTexts] at written
      rcases bind_eq_ok_iff.mp written with ⟨name, nameWritten, goesOn⟩
      rcases bind_eq_ok_iff.mp goesOn with ⟨first, firstWritten, goesOn⟩
      rcases bind_eq_ok_iff.mp goesOn with ⟨others, othersWritten, returned⟩
      cases returned
      refine List.forall_mem_cons.mpr ⟨?_, allWritten_memberTexts depth rest othersWritten⟩
      rw [String.toList_append, String.toList_append, allWritten_append, allWritten_append]
      exact ⟨⟨allWritten_memberName nameWritten, by decide⟩,
        allWritten_valueText depth value firstWritten⟩

end

/-- A written value consists of printable characters of ASCII and line feeds. -/
theorem allWritten_encode {data : Data} {text : String} (written : encode style data = .ok text) :
    AllWritten text.toList :=
  allWritten_valueText style 0 data written

end Json

end Scorecard
