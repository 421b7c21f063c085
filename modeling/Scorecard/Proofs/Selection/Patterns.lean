import Scorecard.Proofs.Text.Blank
import Scorecard.Proofs.Text.Pattern
import Scorecard.Selection.PathFilter

/-!
# One pass over a pattern

A pattern is made a rule in one pass. White space at the ends goes, backslashes become slashes, one
prefix that names the current directory goes, then the slashes at the start go, and what is left is
completed. The rule never starts with a slash. But what is left may start with something that the
pass has already dealt with: the prefix once more, white space, or the mark of a comment. Exactly
then a second pass changes the rule.

Completing is no cause of that. It leaves what it has completed alone, because it adds nothing after
a wildcard, and it does not touch the start.
-/

namespace Scorecard

/-- A text without one prefix that names the current directory and without slashes at the start
then. -/
def withoutPrefixes (text : List Char) : List Char :=
  ((dropStart? ['.', '/'] text).getD text).dropWhile (· == '/')

/-- What is left of a pattern without white space at its ends and without prefixes. -/
def patternBody (pattern : List Char) : List Char :=
  withoutPrefixes ((strip pattern).map fun c => if c = '\\' then '/' else c)

/-- The rule of what is left of a pattern: a directory stands for all below it. -/
def completePattern (body : List Char) : List Char :=
  if body.isEmpty ∨ body = ['.'] then
    ['*', '*']
  else if body.getLast? = some '/' then
    body ++ ['*', '*']
  else if !hasWildcard body && (Path.ofString (String.ofList body)).suffix == "" then
    body ++ ['/', '*', '*']
  else
    body

/-- Whether a pattern is blank or a comment. -/
def IsIdlePattern (pattern : List Char) : Prop :=
  strip pattern = [] ∨ (strip pattern).head? = some '#'

instance (pattern : List Char) : Decidable (IsIdlePattern pattern) :=
  inferInstanceAs (Decidable (_ ∨ _))

/-- Whether a text starts with what a pass takes off, a slash apart, or with the mark of a
comment. -/
def StartsAnew (text : List Char) : Prop :=
  ['.', '/'] <+: text ∨ ∃ c, text.head? = some c ∧ (isBlank c = true ∨ c = '#')

theorem normalizePattern_eq (pattern : List Char) : normalizePattern pattern =
    if IsIdlePattern pattern then [] else completePattern (patternBody pattern) := by
  have idle_iff : ((strip pattern).isEmpty = true ∨ (strip pattern).head? = some '#') ↔
      IsIdlePattern pattern := by
    rw [List.isEmpty_iff, IsIdlePattern]
  by_cases idle : IsIdlePattern pattern
  · rw [if_pos idle]
    exact if_pos (idle_iff.mpr idle)
  · rw [if_neg idle]
    exact if_neg (idle_iff.not.mpr idle)

theorem withoutPrefixes_suffix (text : List Char) : withoutPrefixes text <:+ text := by
  rw [withoutPrefixes]
  refine (List.dropWhile_suffix _).trans ?_
  cases found : dropStart? ['.', '/'] text with
  | none => exact List.suffix_refl _
  | some after =>
      rw [(dropStart?_eq_some_iff _ _ _).mp found]
      exact List.suffix_append _ _

theorem head?_withoutPrefixes_ne (text : List Char) : (withoutPrefixes text).head? ≠ some '/' := by
  intro starts
  have stops := List.head?_dropWhile_not (· == '/') ((dropStart? ['.', '/'] text).getD text)
  rw [← withoutPrefixes, starts] at stops
  cases stops

theorem dropWhile_slash_eq_self {text : List Char} (relative : text.head? ≠ some '/') :
    text.dropWhile (· == '/') = text := by
  cases text with
  | nil => rfl
  | cons c rest =>
      have different : (c == '/') = false := by simpa using relative
      rw [List.dropWhile_cons, different]
      rfl

theorem withoutPrefixes_eq_self {text : List Char} (unprefixed : ¬ ['.', '/'] <+: text)
    (relative : text.head? ≠ some '/') : withoutPrefixes text = text := by
  rw [← dropStart?_isSome_iff, Bool.not_eq_true, Option.isSome_eq_false_iff,
    Option.isNone_iff_eq_none] at unprefixed
  rw [withoutPrefixes, unprefixed, Option.getD_none, dropWhile_slash_eq_self relative]

theorem withoutPrefixes_here {text : List Char} (relative : text.head? ≠ some '/') :
    withoutPrefixes ('.' :: '/' :: text) = text :=
  dropWhile_slash_eq_self relative

theorem withoutPrefixes_root {text : List Char} (relative : text.head? ≠ some '/') :
    withoutPrefixes ('/' :: text) = text :=
  dropWhile_slash_eq_self relative

theorem length_withoutPrefixes_lt {text : List Char} (prefixed : ['.', '/'] <+: text) :
    (withoutPrefixes text).length < text.length := by
  rcases prefixed with ⟨rest, rfl⟩
  have dropped : dropStart? ['.', '/'] (['.', '/'] ++ rest) = some rest :=
    (dropStart?_eq_some_iff _ _ _).mpr rfl
  have shorter := (List.dropWhile_suffix (l := rest) (· == '/')).length_le
  rw [withoutPrefixes, dropped, Option.getD_some, List.length_append, List.length_cons]
  omega

theorem backslash_notMem_patternBody (pattern : List Char) : '\\' ∉ patternBody pattern := by
  intro mem
  rcases List.mem_map.mp ((withoutPrefixes_suffix _).mem mem) with ⟨c, -, same⟩
  split at same
  · cases same
  · contradiction

/-- What is left of a pattern ends as the stripped pattern does, if with a slash for a backslash. -/
theorem not_isBlank_of_getLast?_patternBody {pattern : List Char} {last : Char}
    (ends : (patternBody pattern).getLast? = some last) : isBlank last = false := by
  have left : patternBody pattern ≠ [] := by
    intro empty
    rw [empty] at ends
    cases ends
  rcases withoutPrefixes_suffix ((strip pattern).map fun c => if c = '\\' then '/' else c) with
    ⟨front, whole⟩
  rw [← List.getLast?_append_of_ne_nil front left, patternBody, whole, List.getLast?_map,
    Option.map_eq_some_iff] at ends
  rcases ends with ⟨before, stripped, rfl⟩
  split
  · rfl
  · exact not_isBlank_of_getLast?_strip stripped

theorem map_slash_of_notMem {text : List Char} (slashed : '\\' ∉ text) :
    (text.map fun c => if c = '\\' then '/' else c) = text := by
  have same : ∀ c ∈ text, (if c = '\\' then '/' else c) = id c := by
    intro c mem
    have different : c ≠ '\\' := by
      rintro rfl
      exact slashed mem
    rw [if_neg different, id]
  rw [List.map_congr_left same, List.map_id]

/-- A pattern without white space at its ends and backslashes, and that is no comment, loses its
prefixes only. -/
theorem normalizePattern_of_solid {text : List Char} {last : Char}
    (starts : ∀ c ∈ text.head?, isBlank c = false ∧ c ≠ '#') (ends : text.getLast? = some last)
    (solid : isBlank last = false) (slashed : '\\' ∉ text) :
    normalizePattern text = completePattern (withoutPrefixes text) := by
  cases text with
  | nil => cases ends
  | cons c rest =>
      have start := starts c rfl
      have stripped : strip (c :: rest) = c :: rest := by
        rw [strip_of_getLast? ends solid, stripLeft_cons start.1]
      have busy : ¬ IsIdlePattern (c :: rest) := by
        rw [IsIdlePattern, stripped, not_or]
        exact ⟨List.cons_ne_nil _ _, fun comment => start.2 (Option.some.inj comment)⟩
      rw [normalizePattern_eq, if_neg busy, patternBody, stripped, map_slash_of_notMem slashed]

theorem completePattern_of_getLast? {body : List Char} (star : body.getLast? = some '*') :
    completePattern body = body := by
  have mem : '*' ∈ body := List.mem_of_getLast? star
  have named : ¬ (body.isEmpty = true ∨ body = ['.']) := by
    rintro (empty | here)
    · rw [List.isEmpty_iff.mp empty] at mem
      cases mem
    · rw [here] at mem
      exact absurd mem (by decide)
  have wild : hasWildcard body = true := List.any_eq_true.mpr ⟨'*', mem, rfl⟩
  rw [completePattern, if_neg named, star, if_neg (by decide), wild]
  rfl

/-- A text that ends with a slash is one of a directory. -/
theorem completePattern_concat_slash (front : List Char) :
    completePattern (front ++ ['/']) = front ++ ['/', '*', '*'] := by
  have last : (front ++ ['/']).getLast? = some '/' := List.getLast?_concat
  have named : ¬ ((front ++ ['/']).isEmpty = true ∨ front ++ ['/'] = ['.']) := by
    rintro (empty | here)
    · simp at empty
    · rw [here] at last
      cases last
  rw [completePattern, if_neg named, if_pos last, List.append_assoc]
  rfl

/-- What may be added to a text when it is completed. -/
def patternTails : List (List Char) :=
  [[], ['*', '*'], ['/', '*', '*']]

theorem completePattern_cases (body : List Char) :
    (body = [] ∨ body = ['.']) ∧ completePattern body = ['*', '*'] ∨
      (body ≠ [] ∧ body ≠ ['.']) ∧ ∃ tail ∈ patternTails, completePattern body = body ++ tail := by
  rw [completePattern]
  split
  · next whole => exact .inl ⟨by rwa [List.isEmpty_iff] at whole, rfl⟩
  · next named =>
      rw [List.isEmpty_iff, not_or] at named
      refine .inr ⟨named, ?_⟩
      split
      · exact ⟨_, by simp [patternTails], rfl⟩
      · split
        · exact ⟨_, by simp [patternTails], rfl⟩
        · exact ⟨[], by simp [patternTails], (List.append_nil _).symm⟩

/-- What is added to a text ends with a wildcard. -/
theorem completePattern_eq_self_or (body : List Char) :
    completePattern body = body ∨ (completePattern body).getLast? = some '*' := by
  have ends : ∀ tail ∈ patternTails, tail = [] ∨ tail.getLast? = some '*' := by decide
  rcases completePattern_cases body with ⟨-, completed⟩ | ⟨-, tail, mem, completed⟩
  · exact .inr (by rw [completed]; rfl)
  · rcases ends tail mem with rfl | star
    · exact .inl (by rw [completed, List.append_nil])
    · exact .inr (by rw [completed, List.getLast?_append, star]; rfl)

theorem completePattern_completePattern (body : List Char) :
    completePattern (completePattern body) = completePattern body := by
  rcases completePattern_eq_self_or body with same | star
  · rw [same, same]
  · exact completePattern_of_getLast? star

theorem prefix_append_iff {body : List Char} (named : body ≠ []) (notHere : body ≠ ['.'])
    (tail : List Char) : ['.', '/'] <+: body ++ tail ↔ ['.', '/'] <+: body := by
  rcases body with - | ⟨c, - | ⟨d, rest⟩⟩
  · exact absurd rfl named
  · have different : '.' ≠ c := by
      rintro rfl
      exact notHere rfl
    simp [List.cons_prefix_cons, different]
  · simp [List.cons_prefix_cons]

/-- Completing does not touch the start of a text. -/
theorem prefix_completePattern_iff (body : List Char) :
    ['.', '/'] <+: completePattern body ↔ ['.', '/'] <+: body := by
  rcases completePattern_cases body with
    ⟨rfl | rfl, completed⟩ | ⟨⟨named, notHere⟩, tail, -, completed⟩
  · rw [completed]
    decide
  · rw [completed]
    decide
  · rw [completed, prefix_append_iff named notHere]

theorem startsAnew_completePattern_iff (body : List Char) :
    StartsAnew (completePattern body) ↔ StartsAnew body := by
  rw [StartsAnew, StartsAnew, prefix_completePattern_iff]
  refine or_congr_right ?_
  rcases completePattern_cases body with ⟨rfl | rfl, completed⟩ | ⟨⟨named, -⟩, tail, -, completed⟩
  · rw [completed]
    simp [isBlank]
  · rw [completed]
    simp [isBlank]
  · rw [completed, List.head?_append_of_ne_nil _ named]

/-- A text as a pass leaves it. -/
structure IsPassed (text : List Char) : Prop where
  ends : ∃ last, text.getLast? = some last ∧ isBlank last = false
  slashed : '\\' ∉ text
  relative : text.head? ≠ some '/'
  complete : completePattern text = text

theorem isPassed_completePattern (pattern : List Char) :
    IsPassed (completePattern (patternBody pattern)) := by
  have complete := completePattern_completePattern (patternBody pattern)
  have plainTail : ∀ tail ∈ patternTails, '\\' ∉ tail := by decide
  rcases completePattern_cases (patternBody pattern) with
    ⟨-, completed⟩ | ⟨⟨named, -⟩, tail, mem, completed⟩
  · rw [completed] at complete ⊢
    exact ⟨⟨'*', rfl, rfl⟩, by decide, by decide, complete⟩
  · refine ⟨?_, ?_, ?_, complete⟩
    · rcases completePattern_eq_self_or (patternBody pattern) with same | star
      · have ends := List.getLast?_eq_getLast_of_ne_nil named
        rw [same]
        exact ⟨_, ends, not_isBlank_of_getLast?_patternBody ends⟩
      · exact ⟨'*', star, rfl⟩
    · rw [completed, List.mem_append, not_or]
      exact ⟨backslash_notMem_patternBody pattern, plainTail tail mem⟩
    · rw [completed, List.head?_append_of_ne_nil _ named]
      exact head?_withoutPrefixes_ne _

namespace IsPassed

variable {text : List Char}

theorem patternBody_eq (passed : IsPassed text) :
    patternBody text = withoutPrefixes (stripLeft text) := by
  rcases passed.ends with ⟨last, ends, solid⟩
  rw [patternBody, strip_of_getLast? ends solid,
    map_slash_of_notMem fun mem => passed.slashed ((stripLeft_suffix text).mem mem)]

theorem patternBody_suffix (passed : IsPassed text) : patternBody text <:+ text := by
  rw [passed.patternBody_eq]
  exact (withoutPrefixes_suffix _).trans (stripLeft_suffix _)

theorem normalizePattern_eq_self (passed : IsPassed text) (settled : ¬ StartsAnew text) :
    normalizePattern text = text := by
  rcases passed.ends with ⟨last, ends, solid⟩
  rw [StartsAnew, not_or, not_exists] at settled
  rcases settled with ⟨unprefixed, settled⟩
  have starts : ∀ c ∈ text.head?, isBlank c = false ∧ c ≠ '#' := by
    intro c head
    have plain := not_or.mp (not_and.mp (settled c) head)
    rwa [Bool.not_eq_true] at plain
  rw [normalizePattern_of_solid starts ends solid passed.slashed,
    withoutPrefixes_eq_self unprefixed passed.relative, passed.complete]

/-- What starts anew loses something, or all, in the next pass. -/
theorem length_patternBody_lt (passed : IsPassed text) (busy : ¬ IsIdlePattern text)
    (anew : StartsAnew text) : (patternBody text).length < text.length := by
  rw [passed.patternBody_eq]
  rcases anew with prefixed | ⟨c, starts, blank | rfl⟩
  · have started : stripLeft text = text := by
      rcases prefixed with ⟨rest, rfl⟩
      exact stripLeft_cons (by decide) _
    rw [started]
    exact length_withoutPrefixes_lt prefixed
  · rcases List.head?_eq_some_iff.mp starts with ⟨rest, rfl⟩
    have dropped : stripLeft (c :: rest) = stripLeft rest := List.dropWhile_cons_of_pos blank
    have shorter :=
      ((withoutPrefixes_suffix (stripLeft rest)).trans (stripLeft_suffix rest)).length_le
    rw [dropped, List.length_cons]
    omega
  · rcases passed.ends with ⟨last, ends, solid⟩
    rcases List.head?_eq_some_iff.mp starts with ⟨rest, rfl⟩
    refine absurd (.inr ?_) busy
    rw [strip_of_getLast? ends solid, stripLeft_cons (by decide)]
    rfl

theorem normalizePattern_ne (passed : IsPassed text) (anew : StartsAnew text) :
    normalizePattern text ≠ text := by
  intro same
  rw [normalizePattern_eq] at same
  split at same
  · rcases passed.ends with ⟨last, ends, -⟩
    rw [← same] at ends
    cases ends
  · next busy =>
      have shorter := passed.length_patternBody_lt busy anew
      have changed : completePattern (patternBody text) ≠ patternBody text := by
        rw [same]
        intro whole
        rw [← whole] at shorter
        exact lt_irrefl _ shorter
      -- Something is added, so the text ends with a wildcard; but so does then what is left of it
      -- already.
      have star := (completePattern_eq_self_or (patternBody text)).resolve_left changed
      rw [same] at star
      by_cases empty : patternBody text = []
      · rw [empty] at same
        rw [← same, startsAnew_completePattern_iff] at anew
        simp [StartsAnew] at anew
      · rcases passed.patternBody_suffix with ⟨front, whole⟩
        rw [← whole, List.getLast?_append_of_ne_nil _ empty] at star
        exact changed (completePattern_of_getLast? star)

theorem normalizePattern_eq_self_iff (passed : IsPassed text) :
    normalizePattern text = text ↔ ¬ StartsAnew text := by
  constructor
  · exact fun same anew => passed.normalizePattern_ne anew same
  · exact passed.normalizePattern_eq_self

end IsPassed

/-- A pattern is normal after one pass unless what the pass leaves of it, without what completes it,
starts with the prefix for the current directory, with white space or with the mark of a comment. No
pass leaves a slash at the start. -/
theorem normalizePattern_once (pattern : List Char) :
    (normalizePattern pattern).head? ≠ some '/' ∧
      (['.', '/'] <+: normalizePattern pattern ↔
        ¬ IsIdlePattern pattern ∧ ['.', '/'] <+: patternBody pattern) ∧
      (normalizePattern (normalizePattern pattern) = normalizePattern pattern ↔
        IsIdlePattern pattern ∨ ¬ StartsAnew (patternBody pattern)) := by
  by_cases idle : IsIdlePattern pattern
  · have nothing : normalizePattern pattern = [] := by rw [normalizePattern_eq, if_pos idle]
    rw [nothing]
    exact ⟨by decide, iff_of_false (by decide) fun busy => busy.1 idle, iff_of_true rfl (.inl idle)⟩
  · have passed := isPassed_completePattern pattern
    rw [normalizePattern_eq pattern, if_neg idle]
    refine ⟨passed.relative, ?_, ?_⟩
    · rw [prefix_completePattern_iff]
      exact (and_iff_right idle).symm
    · rw [passed.normalizePattern_eq_self_iff, startsAnew_completePattern_iff]
      exact (or_iff_right idle).symm

/-- A prefix that stands twice is taken off once, and then once more by a second pass. -/
theorem normalizePattern_repeatedPrefix :
    normalizePattern "././src".toList = "./src/**".toList ∧
      ['.', '/'] <+: normalizePattern "././src".toList ∧
      normalizePattern (normalizePattern "././src".toList) = "src/**".toList ∧ normalizePattern
        (normalizePattern "././src".toList) ≠ normalizePattern "././src".toList := by
  decide

end Scorecard
