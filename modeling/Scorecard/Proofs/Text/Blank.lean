import Mathlib
import Scorecard.Text.Blank

/-!
# Stripping white space

A stripped text keeps its first character that is not blank, so stripping it again changes nothing,
and white space added at the end is stripped with the rest.
-/

namespace Scorecard

theorem not_isBlank_of_stripLeft {text rest : List Char} {c : Char}
    (starts : stripLeft text = c :: rest) : isBlank c = false := by
  have head := List.head?_dropWhile_not isBlank text
  rw [← stripLeft, starts] at head
  simpa using head

theorem stripLeft_cons {c : Char} (solid : isBlank c = false) (rest : List Char) :
    stripLeft (c :: rest) = c :: rest := by
  simp [stripLeft, solid]

theorem stripRight_cons {c : Char} (solid : isBlank c = false) (rest : List Char) :
    stripRight (c :: rest) = c :: stripRight rest := by
  simp only [stripRight, List.reverse_cons, List.dropWhile_append]
  split
  · next allBlank => simp_all
  · simp

theorem stripRight_stripRight (text : List Char) : stripRight (stripRight text) = stripRight text :=
  List.rdropWhile_idempotent isBlank text

theorem stripLeft_suffix (text : List Char) : stripLeft text <:+ text :=
  List.dropWhile_suffix isBlank

theorem stripRight_prefix_self (text : List Char) : stripRight text <+: text :=
  List.rdropWhile_prefix isBlank text

theorem strip_infix_self (text : List Char) : strip text <:+: text :=
  (stripRight_prefix_self _).isInfix.trans (stripLeft_suffix text).isInfix

theorem stripRight_of_getLast? {text : List Char} {last : Char} (ends : text.getLast? = some last)
    (solid : isBlank last = false) : stripRight text = text := by
  rcases List.getLast?_eq_some_iff.mp ends with ⟨front, rfl⟩
  exact List.rdropWhile_concat_neg isBlank front last (by rw [solid]; exact Bool.false_ne_true)

theorem not_isBlank_of_getLast?_strip {text : List Char} {last : Char}
    (ends : (strip text).getLast? = some last) : isBlank last = false := by
  rw [strip, stripRight, List.getLast?_reverse] at ends
  have stops := List.head?_dropWhile_not isBlank (stripLeft text).reverse
  rwa [ends] at stops

/-- A text that ends with a character that is not blank is stripped at its start only. -/
theorem strip_of_getLast? {text : List Char} {last : Char} (ends : text.getLast? = some last)
    (solid : isBlank last = false) : strip text = stripLeft text := by
  have kept : stripLeft text ≠ [] := by
    intro allBlank
    have blank := List.dropWhile_eq_nil_iff.mp allBlank last (List.mem_of_getLast? ends)
    rw [solid] at blank
    cases blank
  rcases stripLeft_suffix text with ⟨front, whole⟩
  rw [← whole, List.getLast?_append_of_ne_nil _ kept] at ends
  exact stripRight_of_getLast? ends solid

theorem stripRight_append_blank (text : List Char) {tail : List Char}
    (blank : ∀ c ∈ tail, isBlank c = true) : stripRight (text ++ tail) = stripRight text := by
  rw [stripRight, List.reverse_append, List.dropWhile_append_of_pos]
  · rfl
  · intro c mem
    exact blank c (List.mem_reverse.mp mem)

theorem strip_append_blank (text : List Char) {tail : List Char}
    (blank : ∀ c ∈ tail, isBlank c = true) : strip (text ++ tail) = strip text := by
  rw [strip, stripLeft, List.dropWhile_append]
  split
  · next allBlank =>
      rw [List.isEmpty_iff] at allBlank
      rw [strip, stripLeft, allBlank, List.dropWhile_eq_nil_iff.mpr blank]
  · exact stripRight_append_blank _ blank

/-- The stripped text starts with the first character that is not blank. -/
theorem strip_of_stripLeft {text rest : List Char} {c : Char}
    (starts : stripLeft text = c :: rest) : strip text = c :: stripRight rest := by
  rw [strip, starts, stripRight_cons (not_isBlank_of_stripLeft starts)]

theorem strip_strip (text : List Char) : strip (strip text) = strip text := by
  cases starts : stripLeft text with
  | nil =>
      have empty : strip text = [] := by
        rw [strip, starts]
        rfl
      rw [empty]
      rfl
  | cons c rest =>
      have solid := not_isBlank_of_stripLeft starts
      rw [strip_of_stripLeft starts, strip_of_stripLeft (stripLeft_cons solid _),
        stripRight_stripRight]

end Scorecard
