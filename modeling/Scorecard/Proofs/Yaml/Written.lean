import Scorecard.Proofs.Json.Written
import Scorecard.Yaml.Writer

/-!
# The characters of written YAML

A text that holds anything but printable ASCII characters and line feeds is written in double quotes
with escapes. So a flat document is written in printable ASCII characters and line feeds, whatever
its texts hold.
-/

namespace Scorecard

namespace Yaml

open Json (IsWritten AllWritten allWritten_nil allWritten_cons allWritten_append)

theorem exists_digitChar_of_mem_toDigits {value : ℕ} {c : Char} (mem : c ∈ Nat.toDigits 16 value) :
    ∃ digit < 16, c = Nat.digitChar digit := by
  induction value using Nat.strongRecOn with
  | ind value ih =>
      by_cases small : value < 16
      · rw [Nat.toDigits_of_lt_base small] at mem
        exact ⟨value, small, List.mem_singleton.mp mem⟩
      · rw [Nat.toDigits_of_base_le (by decide) (Nat.le_of_not_lt small), List.mem_append] at mem
        rcases mem with front | last
        · exact ih _ (by omega) front
        · exact ⟨value % 16, Nat.mod_lt _ (by decide), List.mem_singleton.mp last⟩

theorem allWritten_replicate {c : Char} (written : IsWritten c) (count : ℕ) :
    AllWritten (List.replicate count c) := by
  intro copy mem
  rw [List.eq_of_mem_replicate mem]
  exact written

theorem allWritten_upperDigits (width value : ℕ) :
    AllWritten ((hexDigits width value).map Char.toUpper) := by
  have digits : ∀ digit < 16, IsWritten (Nat.digitChar digit).toUpper := by decide
  intro c mem
  rcases List.mem_map.mp mem with ⟨digit, digitMem, rfl⟩
  rcases List.mem_append.mp digitMem with padding | significant
  · rw [List.eq_of_mem_replicate padding]
    exact digits 0 (by decide)
  · rcases exists_digitChar_of_mem_toDigits significant with ⟨value, small, rfl⟩
    exact digits value small

theorem isWritten_of_mem_writtenEscapes {code : ℕ} {letter : Char}
    (found : writtenEscapes.lookup code = some letter) : IsWritten letter := by
  have letters : ∀ escape ∈ writtenEscapes, IsWritten escape.2 := by decide
  rcases List.lookup_eq_some_iff.mp found with ⟨front, back, split, _⟩
  exact letters (code, letter) (by simp [split])

theorem allWritten_doubleQuoteEscape {c : Char} {escape : List Char}
    (found : doubleQuoteEscape? c = some escape) : AllWritten escape := by
  have backslash : IsWritten '\\' := by decide
  have digits := fun width => allWritten_upperDigits width c.toNat
  rw [doubleQuoteEscape?] at found
  split at found
  · next letter known =>
      cases found
      simp [backslash, isWritten_of_mem_writtenEscapes known]
  · split at found
    · cases found
    · have marks : IsWritten 'x' ∧ IsWritten 'u' ∧ IsWritten 'U' := by decide
      split at found
      · cases found
        simp [backslash, digits, marks]
      · split at found
        · cases found
          simp [backslash, digits, marks]
        · cases found
          simp [backslash, digits, marks]

theorem isWritten_of_doubleQuoteEscape {c : Char} (none : doubleQuoteEscape? c = none) :
    IsWritten c := by
  rw [doubleQuoteEscape?] at none
  split at none
  · cases none
  · split at none
    · next plain =>
        simp only [Bool.and_eq_true, decide_eq_true_eq] at plain
        exact .inr ⟨plain.1, by omega⟩
    · split at none
      · cases none
      · split at none <;> cases none

theorem allWritten_spaces (count : ℕ) : AllWritten (List.replicate count ' ') :=
  allWritten_replicate (by decide) count

theorem allWritten_newLine (indent : ℕ) : AllWritten (newLine indent) := by
  rw [newLine, allWritten_cons]
  exact ⟨by decide, allWritten_spaces indent⟩

theorem allWritten_doubleQuoteBreak (indent : ℕ) (next : Option Char) :
    AllWritten (doubleQuoteBreak indent next).1 := by
  have backslash : IsWritten '\\' := by decide
  rw [doubleQuoteBreak]
  split <;> simp [backslash, allWritten_newLine]

theorem allWritten_doubleQuoteBody (indent : ℕ) (mayFold : Bool) (total index column waiting : ℕ)
    (text : List Char) :
    AllWritten (doubleQuoteBody indent mayFold total index column waiting text) := by
  induction text generalizing index column waiting with
  | nil => exact allWritten_nil
  | cons c rest ih =>
      rw [doubleQuoteBody]
      cases found : doubleQuoteEscape? c with
      | some escape =>
          have escaped := allWritten_doubleQuoteEscape found
          have broken := allWritten_doubleQuoteBreak indent rest.head?
          simp only
          split <;> simp [escaped, broken, ih]
      | none =>
          have plain := isWritten_of_doubleQuoteEscape found
          have broken := allWritten_doubleQuoteBreak indent (some c)
          simp only
          split <;> simp [plain, broken, ih]

theorem allWritten_foldText {indent : ℕ} {mayFold inQuotes : Bool} {text : List Char}
    (written : AllWritten text) (fuel : ℕ) (isStart : Bool) (column : ℕ) :
    AllWritten (foldText indent mayFold inQuotes fuel isStart column text) := by
  have drops : ∀ {taken : List Char} (count : ℕ), AllWritten taken →
      AllWritten (taken.drop count) :=
    fun count each c mem => each c (List.mem_of_mem_drop mem)
  -- Without fuel the rest stays as it is, so it does not matter here how much fuel is enough.
  induction fuel generalizing isStart column text with
  | zero =>
      cases text with
      | nil => exact allWritten_nil
      | cons c rest => exact written
  | succ fuel ih =>
      cases text with
      | nil => exact allWritten_nil
      | cons c rest =>
          have tail := (allWritten_cons.mp written).2
          have lines := allWritten_newLine indent
          have quote : IsWritten '\'' := by decide
          have lineFeed : IsWritten '\n' := by decide
          have spaces : AllWritten ((c :: rest).takeWhile (· == ' ')) :=
            fun c mem => written c ((List.takeWhile_prefix _).subset mem)
          rw [foldText]
          split
          · simp only
            split
            · exact allWritten_append.mpr ⟨lines, ih (drops _ written) _ _⟩
            · exact allWritten_append.mpr ⟨spaces, ih (drops _ written) _ _⟩
          · split
            · simp only [List.cons_append, List.append_assoc, allWritten_cons, allWritten_append]
              exact ⟨lineFeed, allWritten_replicate lineFeed _, lines, ih (drops _ written) _ _⟩
            · split
              · exact allWritten_cons.mpr ⟨quote, allWritten_cons.mpr ⟨quote, ih tail _ _⟩⟩
              · exact allWritten_cons.mpr ⟨(allWritten_cons.mp written).1, ih tail _ _⟩

/-- A text outside of double quotes holds nothing that needs an escape. -/
theorem allWritten_of_styleOf {text : List Char} {isKey : Bool}
    (bare : styleOf text isKey ≠ .doubleQuotes) : AllWritten text := by
  by_contra special
  have quotes :
      (analyzeText text).allowsSingleQuotes = false ∧ (analyzeText text).allowsPlain = false := by
    rw [AllWritten] at special
    push Not at special
    rcases special with ⟨c, mem, notWritten⟩
    have nonempty : text.isEmpty = false := by
      rw [List.isEmpty_eq_false_iff]
      exact List.ne_nil_of_mem mem
    have found :
        text.any (fun c => !(c == '\n' || (decide (0x20 ≤ c.toNat) && decide (c.toNat ≤ 0x7E)))) =
          true := by
      rw [List.any_eq_true]
      refine ⟨c, mem, ?_⟩
      rw [IsWritten, not_or, not_and, Nat.not_lt] at notWritten
      simp only [Bool.not_eq_true', Bool.or_eq_false_iff, beq_eq_false_iff_ne,
        Bool.and_eq_false_iff, decide_eq_false_iff_not]
      refine ⟨notWritten.1, ?_⟩
      by_cases small : 0x20 ≤ c.toNat
      · exact .inr (by have := notWritten.2 small; omega)
      · exact .inl small
    rw [analyzeText]
    simp only [nonempty, Bool.false_eq_true, if_false, found, Bool.or_true, Bool.true_or,
      Bool.not_true, and_self]
  rw [styleOf] at bare
  simp [quotes] at bare

theorem allWritten_writtenText (text : List Char) (isKey : Bool) (column indent : ℕ) :
    AllWritten (writtenText text isKey column indent) := by
  have singleQuote : IsWritten '\'' := by decide
  have doubleQuote : IsWritten '"' := by decide
  rw [writtenText]
  cases style : styleOf text isKey with
  | plain =>
      have plain : AllWritten text := @allWritten_of_styleOf text isKey (by simp [style])
      exact allWritten_foldText plain _ _ _
  | singleQuotes =>
      have plain : AllWritten text := @allWritten_of_styleOf text isKey (by simp [style])
      simp [singleQuote, allWritten_foldText plain]
  | doubleQuotes => simp [doubleQuote, allWritten_doubleQuoteBody]

theorem allWritten_writtenEntry (indent : ℕ) (key value : List Char) :
    AllWritten (writtenEntry indent key value) := by
  have marks : IsWritten ':' ∧ IsWritten ' ' ∧ IsWritten '?' ∧ IsWritten '\n' := by decide
  rw [writtenEntry]
  simp only
  split <;> simp [marks, allWritten_spaces, allWritten_writtenText, allWritten_newLine]

/-- A value of a flat document is written if its plain texts are. -/
theorem allWritten_written {value : FlatValue}
    (plain : ∀ text, value = .plain text → AllWritten text.toList) : AllWritten value.written := by
  have marks : IsWritten ' ' ∧ IsWritten '-' ∧ IsWritten '\n' := by decide
  cases value with
  | plain text => simp [FlatValue.written, marks, plain text rfl]
  | texts items =>
      cases items with
      | nil => decide
      | cons item items =>
          rw [FlatValue.written, allWritten_cons]
          · refine ⟨marks.2.2, ?_⟩
            intro c mem
            rcases List.mem_flatMap.mp mem with ⟨text, _, part⟩
            have written := allWritten_writtenText text.toList false 2 2
            have line : AllWritten ('-' :: ' ' :: writtenText text.toList false 2 2 ++ ['\n']) := by
              simp [marks, written]
            exact line c part
          · simp
  | mapping entries =>
      cases entries with
      | nil => decide
      | cons entry entries =>
          rw [FlatValue.written, allWritten_cons]
          · refine ⟨marks.2.2, ?_⟩
            intro c mem
            rcases List.mem_flatMap.mp mem with ⟨⟨key, value⟩, _, part⟩
            exact allWritten_writtenEntry 2 _ _ c part
          · simp

theorem allWritten_encodeFlat {document : List (String × FlatValue)}
    (names : ∀ entry ∈ document, AllWritten entry.1.toList)
    (plain : ∀ entry ∈ document, ∀ text, entry.2 = .plain text → AllWritten text.toList) :
    AllWritten (encodeFlat document).toList := by
  have colon : IsWritten ':' := by decide
  rw [encodeFlat, String.toList_ofList]
  intro c mem
  rcases List.mem_flatMap.mp mem with ⟨⟨name, value⟩, entryMem, part⟩
  rw [List.mem_append, List.mem_cons] at part
  rcases part with inName | rfl | inValue
  · exact names _ entryMem c inName
  · exact colon
  · exact allWritten_written (plain _ entryMem) c inValue

end Yaml

end Scorecard
