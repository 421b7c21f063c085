import Scorecard.Evaluation.Payload
import Scorecard.Proofs.Text.Blank
import Scorecard.Proofs.Text.Pattern

/-!
# Code fences around payloads

A payload may stand between code fences. The fences are taken off before anything is decoded, by
erasing every fence of the text, those inside strings too. So a text between fences is read as the
text without any fences of its own: the wrapping goes unnoticed exactly if those do not matter, as
when there are none.

The scan for fences runs over the wrapped text from left to right. It may take the line feed before
the closing fence along with a fence at the end of the inner text; that line feed is stripped in any
case.
-/

namespace Scorecard

namespace Payload

/-- Three backticks. -/
def ticks : List Char := List.replicate 3 (Char.ofNat 0x60)

/-- The forms of a fence, the longer ones first. -/
def fenceWords : List (List Char) :=
  [ticks ++ "json\n".toList, ticks ++ "json".toList, ticks ++ "\n".toList, ticks]

/-- A text between two fences, the first one with the name of a language. -/
def fenced (language text : String) : String :=
  String.ofList (ticks ++ language.toList ++ '\n' :: (text.toList ++ '\n' :: ticks))

/-- A text without its fences. -/
def withoutFences (text : String) : String :=
  String.ofList (fence.erase text.toList)

theorem fence_length? (text : List Char) :
    fence.length? text = (fenceWords.find? fun word => decide (word <+: text)).map List.length :=
  Pattern.length?_words fenceWords text

/-- What stands before a character that a word has only at its end is the rest of the word. -/
theorem eq_of_append_cons {text remaining body : List Char} {c : Char} (notIn : c ∉ body)
    (same : text ++ c :: remaining = body ++ [c]) : text = body := by
  rcases List.append_eq_append_iff.mp same with ⟨between, rfl, last⟩ | ⟨between, rfl, last⟩
  · cases between with
    | nil => simp
    | cons first between =>
        simp only [List.cons_append, List.cons.injEq] at last
        simp [last.1] at notIn
  · cases between with
    | nil => simp
    | cons first between => simp at last

theorem ticks_prefix_of_mem {word : List Char} (mem : word ∈ fenceWords) : ticks <+: word := by
  simp only [fenceWords, List.mem_cons, List.not_mem_nil, or_false] at mem
  rcases mem with rfl | rfl | rfl | rfl <;> simp

/-- A fence stands where three backticks stand. -/
theorem fence_length?_eq_none_iff {text : List Char} :
    fence.length? text = none ↔ ¬ ticks <+: text := by
  rw [fence_length?, Option.map_eq_none_iff, List.find?_eq_none]
  constructor
  · intro absent starts
    exact absent ticks (by simp [fenceWords]) (decide_eq_true starts)
  · intro absent word mem starts
    exact absent ((ticks_prefix_of_mem mem).trans (of_decide_eq_true starts))

theorem erase_cons_of_unfenced {c : Char} {rest : List Char} (unfenced : ¬ ticks <+: c :: rest) :
    fence.erase (c :: rest) = c :: fence.erase rest := by
  rw [Pattern.erase, Pattern.eraseAfter, fence_length?_eq_none_iff.mpr unfenced]
  rfl

/-- A fence ends before a line feed that follows the text, or takes it as its last character. -/
theorem prefix_of_prefix_append {word text rest : List Char} (mem : word ∈ fenceWords)
    (starts : word <+: text ++ '\n' :: rest) :
    word <+: text ∨ text = ticks ∨ text = ticks ++ "json".toList := by
  by_cases short : word.length ≤ text.length
  · exact .inl (List.prefix_of_prefix_length_le starts (List.prefix_append _ _) short)
  · have inside : text <+: word :=
      List.prefix_of_prefix_length_le (List.prefix_append _ _) starts (by omega)
    rcases inside with ⟨remaining, rfl⟩
    rw [List.prefix_append_right_inj] at starts
    cases remaining with
    | nil => simp at short
    | cons c remaining =>
        have lineEnd : c = '\n' := by
          rw [List.cons_prefix_cons] at starts
          exact starts.1
        subst lineEnd
        have lineEndMem : '\n' ∈ text ++ '\n' :: remaining := by simp
        simp only [fenceWords, List.mem_cons, List.not_mem_nil, or_false] at mem
        rcases mem with same | same | same | same
        · exact .inr (.inr (eq_of_append_cons (by decide) same))
        · rw [same] at lineEndMem
          exact absurd lineEndMem (by decide)
        · exact .inr (.inl (eq_of_append_cons (by decide) same))
        · rw [same] at lineEndMem
          exact absurd lineEndMem (by decide)

theorem fence_length?_append {text rest : List Char} (notTicks : text ≠ ticks)
    (notNamed : text ≠ ticks ++ "json".toList) :
    fence.length? (text ++ '\n' :: rest) = fence.length? text := by
  rw [fence_length?, fence_length?]
  congr 1
  apply List.find?_congr
  intro word mem
  apply decide_eq_decide.mpr
  constructor
  · intro starts
    rcases prefix_of_prefix_append mem starts with inside | isTicks | isNamed
    · exact inside
    · exact absurd isTicks notTicks
    · exact absurd isNamed notNamed
  · intro inside
    exact inside.trans (List.prefix_append _ _)

theorem length_le_of_fence {text : List Char} {length : ℕ}
    (found : fence.length? text = some length) : 0 < length ∧ length ≤ text.length := by
  rw [fence_length?, Option.map_eq_some_iff] at found
  rcases found with ⟨word, found, rfl⟩
  have starts : word <+: text := by simpa using List.find?_some found
  have nonempty := (ticks_prefix_of_mem (List.mem_of_find?_eq_some found)).length_le
  exact ⟨by simp [ticks] at nonempty; omega, starts.length_le⟩

/-- Erasing the fences of a text and of a closing fence on a line of its own leaves the text without
its fences, and perhaps the line feed. -/
theorem exists_eraseAfter_closing (text : List Char) (skip : ℕ) (skip_le : skip ≤ text.length) :
    ∃ tail, (tail = [] ∨ tail = ['\n']) ∧
      fence.eraseAfter skip (text ++ '\n' :: ticks) = fence.eraseAfter skip text ++ tail := by
  induction text generalizing skip with
  | nil =>
      have none_skipped : skip = 0 := by simpa using skip_le
      subst none_skipped
      exact ⟨['\n'], .inr rfl, by decide⟩
  | cons c rest ih =>
      cases skip with
      | succ skip =>
          rcases ih skip (by simpa using skip_le) with ⟨tail, blank, erased⟩
          exact ⟨tail, blank, by simpa [Pattern.eraseAfter] using erased⟩
      | zero =>
          -- Only a fence that ends the text takes the line feed with it; any other is found as
          -- before.
          by_cases isTicks : c :: rest = ticks
          · rw [isTicks]
            exact ⟨[], .inl rfl, by decide⟩
          by_cases isNamed : c :: rest = ticks ++ "json".toList
          · rw [isNamed]
            exact ⟨[], .inl rfl, by decide⟩
          have sameStart : fence.length? (c :: rest ++ '\n' :: ticks) = fence.length? (c :: rest) :=
            fence_length?_append isTicks isNamed
          rw [List.cons_append] at sameStart ⊢
          rw [Pattern.eraseAfter, Pattern.eraseAfter, sameStart]
          cases found : fence.length? (c :: rest) with
          | none =>
              rcases ih 0 (Nat.zero_le _) with ⟨tail, blank, erased⟩
              exact ⟨tail, blank, by simp [erased]⟩
          | some length =>
              have within := length_le_of_fence found
              rw [List.length_cons] at within
              exact ih (length - 1) (by omega)

theorem erase_cons_of_ne {c : Char} (notTick : c ≠ Char.ofNat 0x60) (rest : List Char) :
    fence.erase (c :: rest) = c :: fence.erase rest := by
  apply erase_cons_of_unfenced
  rw [ticks, List.replicate_succ, List.cons_prefix_cons]
  exact fun starts => notTick starts.1.symm

/-- Erasing fences keeps the first character that is not blank, if that is no backtick. -/
theorem stripLeft_erase {text rest : List Char} {c : Char} (notTick : c ≠ Char.ofNat 0x60)
    (starts : stripLeft text = c :: rest) :
    stripLeft (fence.erase text) = c :: fence.erase rest := by
  induction text with
  | nil => simp [stripLeft] at starts
  | cons first text ih =>
      cases blank : isBlank first with
      | true =>
          have firstNotTick : first ≠ Char.ofNat 0x60 := by
            rintro rfl
            exact absurd blank (by decide)
          rw [erase_cons_of_ne firstNotTick]
          simp only [stripLeft, List.dropWhile_cons, blank, if_true] at starts ih ⊢
          exact ih starts
      | false =>
          rw [stripLeft_cons blank, List.cons.injEq] at starts
          rcases starts with ⟨rfl, rfl⟩
          rw [erase_cons_of_ne notTick, stripLeft_cons blank]

theorem stripFences_of_ticks {text : List Char} (starts : ticks <+: strip text) :
    stripFences text = strip (fence.erase (strip text)) := by
  have opened : (dropStart? (List.replicate 3 (Char.ofNat 0x60)) (strip text)).isSome = true :=
    (dropStart?_isSome_iff _ _).mpr starts
  rw [stripFences, if_pos opened]

theorem stripFences_of_unfenced {text : List Char} (unfenced : ¬ ticks <+: strip text) :
    stripFences text = strip text := by
  have plain : ¬ (dropStart? (List.replicate 3 (Char.ofNat 0x60)) (strip text)).isSome = true := by
    rwa [dropStart?_isSome_iff]
  rw [stripFences, if_neg plain, strip_strip]

theorem stripFences_of_not_ticks {text rest : List Char} {c : Char} (notTick : c ≠ Char.ofNat 0x60)
    (starts : stripLeft text = c :: rest) : stripFences text = strip text := by
  apply stripFences_of_unfenced
  rw [strip_of_stripLeft starts, ticks, List.replicate_succ, List.cons_prefix_cons]
  intro tickStarts
  exact notTick tickStarts.1.symm

theorem strip_fenced (inner : List Char) :
    strip (ticks ++ inner ++ ticks) = ticks ++ inner ++ ticks := by
  have solid : isBlank (Char.ofNat 0x60) = false := by decide
  rw [strip_of_getLast? (List.getLast?_append_of_ne_nil _ (by decide)) solid]
  exact stripLeft_cons solid _

theorem erase_opening (rest : List Char) {language : List Char}
    (named : language = "json".toList ∨ language = []) :
    fence.erase (ticks ++ language ++ '\n' :: rest) = fence.erase rest := by
  have regrouped :
      ticks ++ language ++ '\n' :: rest = (ticks ++ language ++ ['\n']) ++ rest := by simp
  rw [regrouped]
  apply Pattern.erase_append (by simp)
  rw [fence_length?]
  rcases named with rfl | rfl
  · have whole : ticks ++ "json\n".toList <+: (ticks ++ "json".toList ++ ['\n']) ++ rest :=
      List.prefix_append _ _
    simp only [fenceWords, List.find?_cons, whole, decide_true]
    rfl
  · simp [fenceWords, ticks]

/-- Within fences a text is stripped to itself without its own fences. -/
theorem stripFences_fenced (text : List Char) {language : List Char}
    (named : language = "json".toList ∨ language = []) :
    stripFences (ticks ++ language ++ '\n' :: (text ++ '\n' :: ticks)) =
      strip (fence.erase text) := by
  have stripped : strip (ticks ++ language ++ '\n' :: (text ++ '\n' :: ticks)) =
      ticks ++ language ++ '\n' :: (text ++ '\n' :: ticks) := by
    have ends := strip_fenced (language ++ '\n' :: (text ++ ['\n']))
    simpa using ends
  have starts : ticks <+: strip (ticks ++ language ++ '\n' :: (text ++ '\n' :: ticks)) := by
    rw [stripped, List.append_assoc]
    exact List.prefix_append _ _
  rcases exists_eraseAfter_closing text 0 (Nat.zero_le _) with ⟨tail, blank, erased⟩
  have tailBlank : ∀ c ∈ tail, isBlank c = true := by
    rcases blank with rfl | rfl <;> simp [isBlank]
  rw [stripFences_of_ticks starts, stripped, erase_opening _ named, Pattern.erase, erased,
    strip_append_blank _ tailBlank]
  rfl

/-- A text without backticks in a row has no fences to lose. -/
theorem erase_eq_self {text : List Char} (unfenced : ¬ ticks <:+: text) :
    fence.erase text = text := by
  induction text with
  | nil => rfl
  | cons c rest ih =>
      rw [erase_cons_of_unfenced fun starts => unfenced starts.isInfix]
      exact congrArg (c :: ·) (ih fun inside =>
        unfenced (inside.trans (List.suffix_cons c rest).isInfix))

/-- The evaluation that the characters of a stripped text hold. -/
def reading (characters : List Char) : Except Fault (Option Evaluation) :=
  match Json.wholeText characters with
  | .ok data => evaluationOf data
  | .error _ => .ok none

theorem parse_eq {text : String} (nonempty : text ≠ "") :
    parse text = reading (stripFences text.toList) := by
  rw [parse, if_neg nonempty, Json.decode, String.toList_ofList, reading]
  cases Json.wholeText (stripFences text.toList) with
  | ok data => rfl
  | error failure => cases failure <;> rfl

theorem parse_ofList {characters : List Char} (nonempty : characters ≠ []) :
    parse (String.ofList characters) = reading (stripFences characters) := by
  have notEmpty : String.ofList characters ≠ "" := by
    intro empty
    exact nonempty (by simpa using congrArg String.toList empty)
  rw [parse_eq notEmpty, String.toList_ofList]

/-- Within fences a text that starts with a brace is read as the text without its own fences. -/
theorem parse_fenced_eq {text : String} (opens : (stripLeft text.toList).head? = some '\x7b')
    {language : String} (named : language = "json" ∨ language = "") :
    parse (fenced language text) = parse (withoutFences text) := by
  rcases List.head?_eq_some_iff.mp opens with ⟨rest, starts⟩
  have languageNamed : language.toList = "json".toList ∨ language.toList = [] := by
    rcases named with rfl | rfl
    · exact .inl rfl
    · exact .inr rfl
  have erasedStarts := stripLeft_erase (by decide) starts
  have erasedNonempty : fence.erase text.toList ≠ [] := by
    intro empty
    simp [empty, stripLeft] at erasedStarts
  rw [fenced, withoutFences, parse_ofList (by simp), parse_ofList erasedNonempty,
    stripFences_fenced _ languageNamed, stripFences_of_not_ticks (by decide) erasedStarts]

/-- A text that starts with a brace and holds an evaluation is read within fences as it is read
without any fences of its own. So fences around it go unnoticed exactly if its own fences do not
matter, and always if it has none. -/
theorem parse_fenced {text : String} {evaluation : Evaluation}
    (accepted : parse text = .ok (some evaluation))
    (opens : (stripLeft text.toList).head? = some '\x7b') {language : String}
    (named : language = "json" ∨ language = "") :
    parse (fenced language text) = parse (withoutFences text) ∧
      (parse (fenced language text) = .ok (some evaluation) ↔
        parse (withoutFences text) = .ok (some evaluation)) ∧
      (¬ ticks <:+: text.toList → parse (fenced language text) = .ok (some evaluation)) := by
  have read := parse_fenced_eq opens named
  refine ⟨read, by rw [read], ?_⟩
  intro unfenced
  rw [read, withoutFences, erase_eq_self unfenced, String.ofList_toList]
  exact accepted

/-- The characters of a payload whose feedback holds code in fences of its own. -/
def quotingCharacters : List Char :=
  "\x7b\"scores\": \x7b\"codeQuality\": 80, ".toList ++ "\"timeComplexity\": 70, ".toList ++
    "\"spaceComplexity\": 60, ".toList ++ "\"security\": 50, \"readability\": 40\x7d, ".toList ++
    "\"feedback\": \x7b\"strengths\": ".toList ++ "[\"Use ```x``` blocks\"]\x7d\x7d".toList

/-- What the payload says, with the one text of its feedback. -/
def quotingEvaluation (strength : String) : Evaluation where
  scores := ⟨.int 80, .int 70, .int 60, .int 50, .int 40⟩
  feedback := { strengths := [strength] }

theorem parse_quoting :
    parse (String.ofList quotingCharacters) =
      .ok (some (quotingEvaluation "Use ```x``` blocks")) := by
  rw [parse_ofList (by decide)]
  decide +kernel

theorem quoting_opens :
    (stripLeft (String.ofList quotingCharacters).toList).head? = some '\x7b' := by
  rw [String.toList_ofList]
  decide

theorem parse_fenced_quoting :
    parse (fenced "json" (String.ofList quotingCharacters)) =
      parse (withoutFences (String.ofList quotingCharacters)) :=
  (parse_fenced parse_quoting quoting_opens (.inl rfl)).1

/-- Fences around a payload with fences of its own change its feedback. -/
theorem fenced_quoting_ne :
    parse (String.ofList quotingCharacters) =
        .ok (some (quotingEvaluation "Use ```x``` blocks")) ∧
      (stripLeft (String.ofList quotingCharacters).toList).head? = some '\x7b' ∧
      parse (fenced "json" (String.ofList quotingCharacters)) =
        .ok (some (quotingEvaluation "Use x blocks")) ∧
      quotingEvaluation "Use x blocks" ≠ quotingEvaluation "Use ```x``` blocks" := by
  refine ⟨parse_quoting, quoting_opens, ?_, by decide⟩
  rw [fenced, parse_ofList (by simp), String.toList_ofList]
  decide +kernel

end Payload

end Scorecard
