import Mathlib
import Scorecard.Text.Lines
import Scorecard.Text.Pattern

/-!
# Patterns of fixed words

A pattern whose alternatives are fixed words takes the first word that the text starts with.
-/

namespace Scorecard

theorem dropStart?_isSome_iff (start text : List Char) :
    (dropStart? start text).isSome = true ↔ start <+: text := by
  induction start generalizing text with
  | nil => simp [dropStart?]
  | cons expected start ih =>
      cases text with
      | nil => simp [dropStart?]
      | cons c text =>
          rw [dropStart?, List.cons_prefix_cons]
          split
          · next same => simp [same, ih]
          · next different => simp [different]

theorem dropStart?_eq_some_iff (start text after : List Char) :
    dropStart? start text = some after ↔ text = start ++ after := by
  induction start generalizing text with
  | nil => simp [dropStart?]
  | cons expected start ih =>
      cases text with
      | nil => simp [dropStart?]
      | cons c text =>
          rw [dropStart?, List.cons_append, List.cons.injEq]
          split
          · next same => simp [same, ih]
          · next different => simp [Ne.symm different]

theorem Step.length?_word (word text : List Char) :
    Step.length? (word.map Step.char) text =
      if word <+: text then some word.length else none := by
  induction word generalizing text with
  | nil => simp [Step.length?]
  | cons expected word ih =>
      cases text with
      | nil => simp [Step.char, Step.length?]
      | cons c text =>
          rw [List.map_cons, Step.char, Step.length?, ih]
          by_cases same : expected = c
          · subst same
            simp only [beq_self_eq_true, if_true, List.cons_prefix_cons, true_and,
              List.length_cons]
            split <;> rfl
          · simp [List.cons_prefix_cons, same, Ne.symm same]

/-- The pattern that takes one of some words, the earlier ones first. -/
theorem Pattern.length?_words (words : List (List Char)) (text : List Char) :
    Pattern.length? (words.map fun word => word.map Step.char) text =
      (words.find? fun word => decide (word <+: text)).map List.length := by
  induction words with
  | nil => rfl
  | cons word words ih =>
      rw [Pattern.length?] at ih ⊢
      rw [List.map_cons, List.findSome?_cons, Step.length?_word, List.find?_cons]
      by_cases starts : word <+: text <;> simp [starts, ih]

namespace Pattern

theorem eraseAfter_append (pattern : Pattern) (front rest : List Char) :
    pattern.eraseAfter front.length (front ++ rest) = pattern.erase rest := by
  induction front with
  | nil => rfl
  | cons c front ih =>
      rw [List.length_cons, List.cons_append, eraseAfter]
      exact ih

/-- An occurrence at the start of a text is erased. -/
theorem erase_append {pattern : Pattern} {front rest : List Char} (nonempty : front ≠ [])
    (found : pattern.length? (front ++ rest) = some front.length) :
    pattern.erase (front ++ rest) = pattern.erase rest := by
  cases front with
  | nil => exact absurd rfl nonempty
  | cons c front =>
      rw [List.cons_append] at found ⊢
      rw [erase, eraseAfter, found]
      exact eraseAfter_append pattern front rest

end Pattern

end Scorecard
