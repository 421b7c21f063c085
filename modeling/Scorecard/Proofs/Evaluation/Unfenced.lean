import Scorecard.Proofs.Evaluation.Fences

/-!
# Texts without fences

Erasing the fences of a text brings what stood around them together. Nothing grows into a new fence
by that: a run of backticks loses three of them at a time from its start, so what is left of it, two
at most, stands at its end, before a character that is no backtick and stays. So a text that starts
with a fence is left without any fence, and stripping a text of its fences once more changes
nothing.
-/

namespace Scorecard

namespace Payload

/-- What is left of a text that starts with a fence is what is left of a shorter text. -/
theorem exists_erase_eq_of_ticks {text : List Char} (starts : ticks <+: text) :
    ∃ rest, rest.length < text.length ∧ fence.erase text = fence.erase rest := by
  cases found : fence.length? text with
  | none => exact absurd starts (fence_length?_eq_none_iff.mp found)
  | some length =>
      rcases length_le_of_fence found with ⟨positive, within⟩
      have whole := List.take_append_drop length text
      have size : (text.take length).length = length := List.length_take_of_le within
      have nonempty : text.take length ≠ [] := List.ne_nil_of_length_pos (size.symm ▸ positive)
      refine ⟨text.drop length, by rw [List.length_drop]; omega, ?_⟩
      calc fence.erase text = fence.erase (text.take length ++ text.drop length) := by rw [whole]
        _ = fence.erase (text.drop length) :=
          Pattern.erase_append nonempty (by rw [whole, size, found])

/-- The backticks that start what is left of a text without a fence at its start stood there
already. -/
theorem replicate_prefix_of_erase {text : List Char} {count : ℕ} (unfenced : ¬ ticks <+: text)
    (starts : List.replicate count (Char.ofNat 0x60) <+: fence.erase text) :
    List.replicate count (Char.ofNat 0x60) <+: text := by
  induction count generalizing text with
  | zero => exact List.nil_prefix
  | succ count ih =>
      cases text with
      | nil => exact starts
      | cons c rest =>
          rw [erase_cons_of_unfenced unfenced, List.replicate_succ, List.cons_prefix_cons] at starts
          rcases starts with ⟨rfl, others⟩
          rw [List.replicate_succ, List.cons_prefix_cons]
          refine ⟨rfl, ih (fun fenced => unfenced ?_) others⟩
          -- One more backtick before a fence leaves a fence at the start.
          rcases fenced with ⟨after, rfl⟩
          exact ⟨Char.ofNat 0x60 :: after, rfl⟩

/-- What is left of a text without its fences holds no fence. -/
theorem not_infix_erase (text : List Char) : ¬ ticks <:+: fence.erase text := by
  induction size : text.length using Nat.strong_induction_on generalizing text with
  | _ size ih =>
      by_cases starts : ticks <+: text
      · rcases exists_erase_eq_of_ticks starts with ⟨rest, shorter, same⟩
        rw [same]
        exact ih _ (by omega) rest rfl
      · cases text with
        | nil => decide
        | cons c rest =>
            have here : ¬ ticks <+: fence.erase (c :: rest) :=
              mt (replicate_prefix_of_erase starts) starts
            have later : ¬ ticks <:+: fence.erase rest := ih rest.length (by simp [← size]) rest rfl
            rw [erase_cons_of_unfenced starts] at here ⊢
            rw [List.infix_cons_iff, not_or]
            exact ⟨here, later⟩

theorem strip_stripFences (text : List Char) : strip (stripFences text) = stripFences text := by
  rw [stripFences, strip_strip]

/-- Stripping a text of its fences a second time changes nothing, and a text that starts with a
fence is left without any. -/
theorem stripFences_stable (text : List Char) :
    stripFences (stripFences text) = stripFences text ∧
      (ticks <+: strip text → ¬ ticks <:+: stripFences text) := by
  have unfenced (starts : ticks <+: strip text) : ¬ ticks <:+: stripFences text := by
    rw [stripFences_of_ticks starts]
    exact fun inside => not_infix_erase (strip text) (inside.trans (strip_infix_self _))
  refine ⟨?_, unfenced⟩
  have plain : ¬ ticks <+: strip (stripFences text) := by
    rw [strip_stripFences]
    by_cases starts : ticks <+: strip text
    · exact fun still => unfenced starts still.isInfix
    · rwa [stripFences_of_unfenced starts]
  rw [stripFences_of_unfenced plain, strip_stripFences]

/-- A text with runs of many backticks between which a fence is erased with its language. -/
def tickedText : List Char :=
  " `````json```json\n````json a ```````` b ``` ".toList

theorem stripFences_stable_runs : ticks <+: strip tickedText ∧ ¬ ticks <:+: stripFences tickedText ∧
    stripFences tickedText = "``json`json a `` b".toList := by
  have starts : ticks <+: strip tickedText := by decide
  exact ⟨starts, (stripFences_stable tickedText).2 starts, by decide⟩

end Payload

end Scorecard
