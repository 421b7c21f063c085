import Mathlib
import Scorecard.Text.Lines

/-!
# Cutting a text into lines

Cutting is undone by putting the pieces together again, and two texts with a line feed between them
have the lines of the one followed by the lines of the other. So whatever goes through a text line
by line goes through the first text and then, from where it got to, through the second.
-/

namespace Scorecard

theorem splitAtChar_ne_nil (separator : Char) (text : List Char) :
    splitAtChar separator text ≠ [] := by
  cases text with
  | nil => simp [splitAtChar]
  | cons c rest =>
      rw [splitAtChar]
      split
      · simp
      · split <;> simp

theorem splitAtChar_cons_of_ne {separator c : Char} (different : c ≠ separator) (rest : List Char) :
    ∃ piece pieces, splitAtChar separator rest = piece :: pieces ∧
      splitAtChar separator (c :: rest) = (c :: piece) :: pieces := by
  cases pieces_eq : splitAtChar separator rest with
  | nil => exact absurd pieces_eq (splitAtChar_ne_nil separator rest)
  | cons piece pieces => exact ⟨piece, pieces, rfl, by simp [splitAtChar, different, pieces_eq]⟩

/-- What stands before a separator and what stands after it are cut on their own. -/
theorem splitAtChar_append_cons (separator : Char) (front back : List Char) :
    splitAtChar separator (front ++ separator :: back) =
      splitAtChar separator front ++ splitAtChar separator back := by
  induction front with
  | nil => simp [splitAtChar]
  | cons c front ih =>
      by_cases same : c = separator
      · simp [splitAtChar, same, ih]
      · rcases splitAtChar_cons_of_ne same front with ⟨piece, pieces, cut, cut_cons⟩
        rw [List.cons_append, cut_cons, splitAtChar, if_neg same, ih, cut]
        simp

theorem splitLines_append_cons (front back : List Char) :
    splitLines (front ++ '\n' :: back) = splitLines front ++ splitLines back :=
  splitAtChar_append_cons '\n' front back

theorem notMem_of_mem_splitAtChar {separator : Char} {text piece : List Char}
    (mem : piece ∈ splitAtChar separator text) : separator ∉ piece := by
  induction text generalizing piece with
  | nil => simp_all [splitAtChar]
  | cons c rest ih =>
      by_cases same : c = separator
      · rw [splitAtChar, if_pos same, List.mem_cons] at mem
        rcases mem with rfl | mem
        · simp
        · exact ih mem
      · rcases splitAtChar_cons_of_ne same rest with ⟨first, pieces, cut, cut_cons⟩
        rw [cut_cons, List.mem_cons] at mem
        rw [cut] at ih
        rcases mem with rfl | mem
        · simp [Ne.symm same, ih List.mem_cons_self]
        · exact ih (List.mem_cons_of_mem _ mem)

theorem splitAtChar_of_notMem {separator : Char} {piece : List Char} (absent : separator ∉ piece) :
    splitAtChar separator piece = [piece] := by
  induction piece with
  | nil => rfl
  | cons c rest ih =>
      rw [List.mem_cons, not_or] at absent
      rw [splitAtChar, if_neg (Ne.symm absent.1), ih absent.2]

/-- Pieces without the separator are what the text put together from them is cut into. -/
theorem splitAtChar_joinWith {separator : Char} {pieces : List (List Char)} (nonempty : pieces ≠ [])
    (absent : ∀ piece ∈ pieces, separator ∉ piece) :
    splitAtChar separator (joinWith [separator] pieces) = pieces := by
  induction pieces with
  | nil => exact absurd rfl nonempty
  | cons piece pieces ih =>
      rw [List.forall_mem_cons] at absent
      cases pieces with
      | nil => exact splitAtChar_of_notMem absent.1
      | cons second pieces =>
          rw [joinWith, List.append_assoc, List.singleton_append, splitAtChar_append_cons,
            splitAtChar_of_notMem absent.1, ih (List.cons_ne_nil _ _) absent.2]
          · rfl
          · exact List.cons_ne_nil _ _

/-- Putting the pieces of a text together gives the text. -/
theorem joinWith_splitAtChar (separator : Char) (text : List Char) :
    joinWith [separator] (splitAtChar separator text) = text := by
  induction text with
  | nil => rfl
  | cons c rest ih =>
      by_cases same : c = separator
      · rw [splitAtChar, if_pos same]
        cases cut : splitAtChar separator rest with
        | nil => exact absurd cut (splitAtChar_ne_nil _ _)
        | cons piece pieces =>
            rw [cut] at ih
            rw [joinWith, ih, same]
            · rfl
            · exact List.cons_ne_nil _ _
      · rcases splitAtChar_cons_of_ne same rest with ⟨piece, pieces, cut, cut_cons⟩
        rw [cut] at ih
        rw [cut_cons, ← ih]
        cases pieces <;> rfl

/-- A text that is put together from pieces is cut into what each of them is cut into. -/
theorem splitAtChar_joinWith_eq_flatMap {separator : Char} {pieces : List (List Char)}
    (nonempty : pieces ≠ []) :
    splitAtChar separator (joinWith [separator] pieces) =
      pieces.flatMap (splitAtChar separator) := by
  induction pieces with
  | nil => exact absurd rfl nonempty
  | cons piece pieces ih =>
      cases pieces with
      | nil => simp [joinWith]
      | cons second pieces =>
          rw [joinWith, List.append_assoc, List.singleton_append, splitAtChar_append_cons,
            ih (List.cons_ne_nil _ _), List.flatMap_cons]
          · rfl
          · exact List.cons_ne_nil _ _

theorem joinWith_cons (separator piece : List Char) {pieces : List (List Char)}
    (more : pieces ≠ []) :
    joinWith separator (piece :: pieces) = piece ++ separator ++ joinWith separator pieces := by
  cases pieces with
  | nil => exact absurd rfl more
  | cons next pieces => rfl

/-- Two lists of pieces are put together with one more separator between them. -/
theorem joinWith_append {pieces others : List (List Char)} (separator : List Char)
    (first : pieces ≠ []) (second : others ≠ []) : joinWith separator (pieces ++ others) =
      joinWith separator pieces ++ separator ++ joinWith separator others := by
  induction pieces with
  | nil => exact absurd rfl first
  | cons piece pieces ih =>
      by_cases last : pieces = []
      · rw [last, List.singleton_append, joinWith_cons _ _ second]
        rfl
      · rw [List.cons_append, joinWith_cons _ _ (by simp [last]), ih last, joinWith_cons _ _ last]
        simp

theorem mem_joinWith {c : Char} {separator : List Char} {pieces : List (List Char)}
    (mem : c ∈ joinWith separator pieces) : c ∈ separator ∨ ∃ piece ∈ pieces, c ∈ piece := by
  induction pieces with
  | nil => cases mem
  | cons piece pieces ih =>
      by_cases last : pieces = []
      · rw [last] at mem
        exact .inr ⟨piece, List.mem_cons_self, mem⟩
      · rw [joinWith_cons _ _ last, List.mem_append, List.mem_append] at mem
        rcases mem with (inPiece | inSeparator) | later
        · exact .inr ⟨piece, List.mem_cons_self, inPiece⟩
        · exact .inl inSeparator
        · rcases ih later with inSeparator | ⟨other, otherMem, inOther⟩
          · exact .inl inSeparator
          · exact .inr ⟨other, List.mem_cons_of_mem _ otherMem, inOther⟩

/-- The characters of a text that is written out are told without decoding it. -/
theorem mem_toList_ofList {c : Char} {text : List Char} :
    c ∈ (String.ofList text).toList ↔ c ∈ text := by
  rw [String.toList_ofList]

theorem joinWith_eq_intercalate (separator : List Char) (pieces : List (List Char)) :
    joinWith separator pieces = separator.intercalate pieces := by
  induction pieces with
  | nil => rfl
  | cons piece pieces ih =>
      cases pieces with
      | nil => simp [joinWith]
      | cons second pieces =>
          rw [joinWith_cons _ _ (List.cons_ne_nil _ _), ih, List.intercalate_cons_cons]

theorem toList_intercalate (separator : String) (texts : List String) :
    (separator.intercalate texts).toList = joinWith separator.toList (texts.map String.toList) := by
  rw [String.toList_intercalate, joinWith_eq_intercalate]

/-- A text of several lines is cut into what each of them is cut into. -/
theorem splitLines_intercalate {lines : List String} (nonempty : lines ≠ []) :
    splitLines ("\n".intercalate lines).toList = lines.flatMap fun line =>
      splitLines line.toList := by
  have more : lines.map String.toList ≠ [] := by simpa using nonempty
  rw [toList_intercalate, ← List.flatMap_map]
  exact splitAtChar_joinWith_eq_flatMap more

theorem toList_intercalate_slash (names : List String) :
    ("/".intercalate names).toList = joinWith ['/'] (names.map String.toList) :=
  toList_intercalate "/" names

/-- What holds no separator starts a text if and only if it starts the first piece. -/
theorem prefix_iff_of_splitAtChar {separator : Char} {piece text first : List Char}
    {pieces : List (List Char)} (absent : separator ∉ piece)
    (cut : splitAtChar separator text = first :: pieces) : piece <+: text ↔ piece <+: first := by
  induction piece generalizing text first pieces with
  | nil => simp
  | cons d piece ih =>
      rw [List.mem_cons, not_or] at absent
      cases text with
      | nil =>
          cases cut
          rfl
      | cons c rest =>
          by_cases same : c = separator
          · rw [splitAtChar, if_pos same, List.cons.injEq] at cut
            rw [← cut.1, List.cons_prefix_cons, same]
            simp [Ne.symm absent.1]
          · rcases splitAtChar_cons_of_ne same rest with ⟨front, others, cut_rest, cut_cons⟩
            rw [cut_cons, List.cons.injEq] at cut
            rw [← cut.1, List.cons_prefix_cons, List.cons_prefix_cons, ih absent.2 cut_rest]

/-- What holds no separator stands in a text if and only if it stands in one of the pieces. -/
theorem infix_iff_exists_mem_splitAtChar {separator : Char} {piece : List Char}
    (absent : separator ∉ piece) (text : List Char) :
    piece <:+: text ↔ ∃ whole ∈ splitAtChar separator text, piece <:+: whole := by
  induction text with
  | nil => simp [splitAtChar]
  | cons c rest ih =>
      cases cut : splitAtChar separator (c :: rest) with
      | nil => exact absurd cut (splitAtChar_ne_nil _ _)
      | cons first pieces =>
          rw [List.infix_cons_iff, prefix_iff_of_splitAtChar absent cut, ih,
            List.exists_mem_cons_iff]
          by_cases same : c = separator
          · rw [splitAtChar, if_pos same, List.cons.injEq] at cut
            rw [← cut.1, ← cut.2, List.prefix_nil, List.infix_nil]
          · rcases splitAtChar_cons_of_ne same rest with ⟨front, others, cut_rest, cut_cons⟩
            rw [cut_cons, List.cons.injEq] at cut
            rw [← cut.1, ← cut.2, cut_rest, List.exists_mem_cons_iff, List.infix_cons_iff, or_assoc]

theorem length_splitLines_le (text : List Char) : (splitLines text).length ≤ text.length + 1 := by
  rw [splitLines]
  induction text with
  | nil => simp [splitAtChar]
  | cons c rest ih =>
      by_cases same : c = '\n'
      · simp [splitAtChar, same, ih]
      · rcases splitAtChar_cons_of_ne same rest with ⟨piece, pieces, cut, cut_cons⟩
        rw [cut_cons]
        rw [cut] at ih
        simp only [List.length_cons] at ih ⊢
        omega

end Scorecard
