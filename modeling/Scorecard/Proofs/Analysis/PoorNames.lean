import Scorecard.Analysis.Naming
import Scorecard.Proofs.Analysis.IndentFunctions
import Scorecard.Proofs.Text.Occurrences
import Scorecard.Proofs.Text.Pattern

/-!
# Poor names by their positions

What makes a name poor is said of positions of the text alone, without an order in which they are
looked at.

A declaration starts with one of three words, and none of their first letters stands in a word of
declaration behind the first place, is blank or is the sign at the end. The only other letter is the
one that is declared, and behind it stands no letter that would make it the start of a word. So
declarations cannot overlap, and the scan from left to right finds each of them. A declaration ends
at its first sign, so there is but one at a position, and it declares one letter.

A word is used where a maximal run of word characters is this word: two such runs do not overlap
either.
-/

namespace Scorecard

/-- Whether a word character stands at a position. -/
def hasWordAt (text : List Char) (position : ℕ) : Bool :=
  text[position]?.any isWord

/-- Whether from one position up to another one stand word characters only, and none right before
and right after them. -/
def IsWordRun (text : List Char) (first stop : ℕ) : Prop :=
  first < stop ∧ (∀ position ∈ Finset.Ico first stop, hasWordAt text position = true) ∧
    (first = 0 ∨ hasWordAt text (first - 1) = false) ∧ hasWordAt text stop = false

instance (text : List Char) : DecidableRel (IsWordRun text) := fun _ _ =>
  inferInstanceAs (Decidable (_ ∧ _))

/-- The maximal runs of word characters of a text, each as its first position and the position after
it. -/
def wordRuns (text : List Char) : Finset (ℕ × ℕ) :=
  (Finset.range text.length ×ˢ Finset.range (text.length + 1)).filter fun run =>
    IsWordRun text run.1 run.2

/-- The characters from one position up to another one. -/
def textBetween (text : List Char) (first stop : ℕ) : List Char :=
  (text.drop first).take (stop - first)

theorem IsWordRun.le_length {text : List Char} {first stop : ℕ} (run : IsWordRun text first stop) :
    stop ≤ text.length := by
  by_contra beyond
  have last := run.2.1 (stop - 1) (Finset.mem_Ico.mpr (by have := run.1; omega))
  rw [hasWordAt, List.getElem?_eq_none (by omega)] at last
  cases last

theorem mem_wordRuns {text : List Char} {run : ℕ × ℕ} :
    run ∈ wordRuns text ↔ IsWordRun text run.1 run.2 := by
  rw [wordRuns, Finset.mem_filter, Finset.mem_product, Finset.mem_range, Finset.mem_range,
    and_iff_right_iff_imp]
  intro whole
  have := whole.le_length
  have := whole.1
  omega

theorem eq_add_length_of_textBetween {word text : List Char} {first stop : ℕ}
    (inText : stop ≤ text.length) (nonempty : first < stop)
    (same : textBetween text first stop = word) : stop = first + word.length := by
  rw [← same, textBetween, List.length_take, List.length_drop]
  omega

/-- How many maximal runs of word characters are the given word. -/
def wordUses (word text : List Char) : ℕ :=
  ((wordRuns text).filter fun run => textBetween text run.1 run.2 = word).card

/-- A word of its own stands at a position, if a word character stands before the text only as
told. -/
def IsUseAt (word : List Char) (afterWord : Bool) (text : List Char) (position : ℕ) : Prop :=
  (if position = 0 then afterWord else hasWordAt text (position - 1)) = false ∧
    startsWithWord word (text.drop position) = true

instance (word : List Char) (afterWord : Bool) (text : List Char) :
    DecidablePred (IsUseAt word afterWord text) :=
  fun _ => inferInstanceAs (Decidable (_ ∧ _))

theorem isUseAt_cons_zero (word : List Char) (afterWord : Bool) (c : Char) (rest : List Char) :
    IsUseAt word afterWord (c :: rest) 0 ↔
      afterWord = false ∧ startsWithWord word (c :: rest) = true :=
  Iff.rfl

theorem isUseAt_cons_succ (word : List Char) (afterWord : Bool) (c : Char) (rest : List Char)
    (position : ℕ) :
    IsUseAt word afterWord (c :: rest) (position + 1) ↔ IsUseAt word (isWord c) rest position := by
  cases position <;> simp [IsUseAt, hasWordAt]

theorem countWord_eq_count (word : List Char) (afterWord : Bool) (text : List Char) :
    countWord word afterWord text = Nat.count (IsUseAt word afterWord text) text.length := by
  induction text generalizing afterWord with
  | nil => rfl
  | cons c rest ih =>
      rw [countWord, ih, List.length_cons, Nat.count_succ', Nat.add_comm]
      simp only [isUseAt_cons_succ, isUseAt_cons_zero, Bool.and_eq_true, Bool.not_eq_true']

theorem startsWithWord_iff (word text : List Char) :
    startsWithWord word text = true ↔
      ∃ after, text = word ++ after ∧ after.head?.any isWord = false := by
  have next : ∀ after :
      List Char, (after.head?.map isWord).getD false = after.head?.any isWord := by
    intro after
    cases after <;> rfl
  rw [startsWithWord]
  constructor
  · intro starts
    split at starts
    · contradiction
    · next after found =>
        exact ⟨after, (dropStart?_eq_some_iff _ _ _).mp found, by simpa [next] using starts⟩
  · rintro ⟨after, cut, ends⟩
    simp only [(dropStart?_eq_some_iff _ _ _).mpr cut, next, ends, Bool.not_false]

theorem hasWordAt_of_drop_eq {word after text : List Char} {first : ℕ}
    (cut : text.drop first = word ++ after) :
    hasWordAt text (first + word.length) = after.head?.any isWord ∧
      ∀ position ∈ Finset.Ico first (first + word.length),
        hasWordAt text position = word[position - first]?.any isWord := by
  constructor
  · rw [hasWordAt, ← List.getElem?_drop, cut, List.getElem?_append_right le_rfl, Nat.sub_self,
      List.head?_eq_getElem?]
  · intro position mem
    rw [Finset.mem_Ico] at mem
    rw [hasWordAt, ← Nat.add_sub_cancel' mem.1, ← List.getElem?_drop, cut,
      List.getElem?_append_left (by omega), Nat.add_sub_cancel_left]

section Uses

variable {word : List Char} (nonempty : word ≠ []) (letters : ∀ c ∈ word, isWord c = true)
include nonempty letters

/-- A word stands on its own at a position if and only if the maximal run from there on is this
word. -/
theorem isUseAt_iff (text : List Char) (first : ℕ) :
    IsUseAt word false text first ↔
      IsWordRun text first (first + word.length) ∧
      textBetween text first (first + word.length) = word := by
  have size := List.length_pos_iff.mpr nonempty
  have before : (if first = 0 then false else hasWordAt text (first - 1)) = false ↔
      first = 0 ∨ hasWordAt text (first - 1) = false := by
    by_cases start : first = 0 <;> simp [start]
  rw [IsUseAt, before, startsWithWord_iff, IsWordRun, textBetween, Nat.add_sub_cancel_left]
  constructor
  · rintro ⟨open_, after, cut, ends⟩
    rcases hasWordAt_of_drop_eq cut with ⟨next, inside⟩
    refine ⟨⟨by omega, ?_, open_, next.trans ends⟩, by simp [cut]⟩
    intro position mem
    rw [inside position mem]
    rw [Finset.mem_Ico] at mem
    rw [List.getElem?_eq_getElem (by omega), Option.any_some]
    exact letters _ (List.getElem_mem _)
  · rintro ⟨⟨-, -, open_, ends⟩, same⟩
    have cut := (List.take_append_drop word.length (text.drop first)).symm
    rw [same] at cut
    exact ⟨open_, _, cut, (hasWordAt_of_drop_eq cut).1.symm.trans ends⟩

/-- The uses of a word that are counted are the maximal runs of word characters that are this
word. -/
theorem countWord_eq_wordUses (text : List Char) :
    countWord word false text = wordUses word text := by
  rw [countWord_eq_count, Nat.count_eq_card_filter_range, wordUses]
  refine Finset.card_nbij' (fun first => (first, first + word.length)) Prod.fst ?_ ?_
    (fun _ _ => rfl) ?_
  · intro first mem
    rw [Finset.mem_coe, Finset.mem_filter, isUseAt_iff nonempty letters] at mem
    rw [Finset.mem_coe, Finset.mem_filter, mem_wordRuns]
    exact mem.2
  · intro run mem
    rw [Finset.mem_coe, Finset.mem_filter, mem_wordRuns] at mem
    have stop := eq_add_length_of_textBetween mem.1.le_length mem.1.1 mem.2
    have started := mem.1.1.trans_le mem.1.le_length
    rw [stop] at mem
    rw [Finset.mem_coe, Finset.mem_filter, isUseAt_iff nonempty letters, Finset.mem_range]
    exact ⟨started, mem⟩
  · intro run mem
    rw [Finset.mem_coe, Finset.mem_filter, mem_wordRuns] at mem
    exact Prod.ext rfl (eq_add_length_of_textBetween mem.1.le_length mem.1.1 mem.2).symm

end Uses

/-- The text is a word of declaration, blanks, the letter, perhaps blanks, and the sign. -/
def Declares (letter : Char) (text : List Char) : Prop :=
  ∃ word ∈ ["const", "let", "var"], ∃ gap pad,
    text = word.toList ++ (gap ++ letter :: (pad ++ ['='])) ∧
    (gap ≠ [] ∧ ∀ c ∈ gap, isBlank c = true) ∧ ∀ c ∈ pad, isBlank c = true

/-- A letter other than the usual loop counters is declared at a position. -/
def IsPoorDeclarationAt (text : List Char) (position : ℕ) : Prop :=
  ∃ letter piece, 'a' ≤ letter ∧ letter ≤ 'z' ∧ letter ∉ ['i', 'j', 'k'] ∧ Declares letter piece ∧
    piece <+: text.drop position

/-- The declaration of a single letter with the given word. -/
def letterDeclaration (word : String) : List Step :=
  Step.literal word ++
    [.nonemptyRun isBlank, .one fun c => 'a' ≤ c && c ≤ 'z', .run isBlank, .char '=']

theorem singleLetterDeclaration_eq :
    singleLetterDeclaration = ["const", "let", "var"].map letterDeclaration :=
  rfl

theorem not_isBlank_of_letter {c : Char} (low : 'a' ≤ c) (high : c ≤ 'z') : isBlank c = false := by
  have bounds : 97 ≤ c.toNat ∧ c.toNat ≤ 122 := ⟨low, high⟩
  simp only [isBlank, Bool.or_eq_false_iff, Bool.and_eq_false_iff, decide_eq_false_iff_not,
    beq_eq_false_iff_ne]
  omega

theorem singleLetterDeclaration_definite : singleLetterDeclaration.Definite := by
  intro steps mem
  rw [singleLetterDeclaration_eq, List.mem_map] at mem
  rcases mem with ⟨word, -, rfl⟩
  simp only [letterDeclaration, Step.definite_literal, Step.Definite, Step.char, Step.MayStart,
    and_true]
  constructor
  · intro c blank letter
    rw [Bool.and_eq_true, decide_eq_true_eq, decide_eq_true_eq] at letter
    rw [not_isBlank_of_letter letter.1 letter.2] at blank
    contradiction
  · intro c blank sign
    rw [beq_iff_eq.mp sign] at blank
    exact absurd blank (by decide)

theorem spells_letterDeclaration {word : String} {text : List Char} :
    Step.Spells (letterDeclaration word) text ↔ ∃ gap letter pad,
      text = word.toList ++ (gap ++ letter :: (pad ++ ['='])) ∧ ('a' ≤ letter ∧ letter ≤ 'z') ∧
        (gap ≠ [] ∧ ∀ c ∈ gap, isBlank c = true) ∧ ∀ c ∈ pad, isBlank c = true := by
  simp only [letterDeclaration, Step.spells_literal, Step.spells_nonemptyRun, Step.spells_one,
    Step.spells_run, Step.spells_char, Step.spells_nil, Bool.and_eq_true, decide_eq_true_eq]
  constructor
  · rintro ⟨_, rfl, gap, _, rfl, apart, letter, _, rfl, range, pad, _, rfl, padded, _, rfl, rfl⟩
    exact ⟨gap, letter, pad, rfl, range, apart, padded⟩
  · rintro ⟨gap, letter, pad, rfl, range, apart, padded⟩
    exact ⟨_, rfl, gap, _, rfl, apart, letter, _, rfl, range, pad, _, rfl, padded, _, rfl, rfl⟩

theorem spells_singleLetterDeclaration {text : List Char} :
    singleLetterDeclaration.Spells text ↔
      ∃ letter, ('a' ≤ letter ∧ letter ≤ 'z') ∧ Declares letter text := by
  rw [singleLetterDeclaration_eq, Pattern.Spells]
  simp only [List.mem_map, Declares]
  constructor
  · rintro ⟨_, ⟨word, mem, rfl⟩, spelled⟩
    rcases spells_letterDeclaration.mp spelled with ⟨gap, letter, pad, shape, range, blank⟩
    exact ⟨letter, range, word, mem, gap, pad, shape, blank⟩
  · rintro ⟨letter, range, word, mem, gap, pad, shape, blank⟩
    exact ⟨_, ⟨word, mem, rfl⟩,
      spells_letterDeclaration.mpr ⟨gap, letter, pad, shape, range, blank⟩⟩

namespace Declares

variable {letter other : Char} {text piece : List Char}

/-- The only sign of a declaration is its last character. -/
theorem exists_sign (declares : Declares letter text) (low : 'a' ≤ letter) :
    ∃ front, text = front ++ ['='] ∧ '=' ∉ front := by
  rcases declares with ⟨word, mem, gap, pad, rfl, gapBlank, padBlank⟩
  have noSign : ∀ blanks : List Char, (∀ c ∈ blanks, isBlank c = true) → '=' ∉ blanks := by
    intro blanks blank sign
    exact absurd (blank '=' sign) (by decide)
  have inWord : ∀ word ∈ ["const", "let", "var"], '=' ∉ word.toList := by decide
  refine ⟨word.toList ++ (gap ++ letter :: pad), by simp, ?_⟩
  have notLetter : '=' ≠ letter := by
    rintro rfl
    exact absurd low (by decide)
  simp [inWord word mem, noSign gap gapBlank.2, noSign pad padBlank, notLetter]

/-- Two declarations at the start of one text are the same. -/
theorem eq_of_prefix {left right : List Char} (first : Declares letter left)
    (firstLow : 'a' ≤ letter) (second : Declares other right) (secondLow : 'a' ≤ other)
    (firstStarts : left <+: text) (secondStarts : right <+: text) : left = right := by
  rcases first.exists_sign firstLow with ⟨front, rfl, absent⟩
  rcases second.exists_sign secondLow with ⟨otherFront, rfl, otherAbsent⟩
  have cut : ∀ front : List Char, '=' ∉ front → front ++ ['='] <+: text →
      front = text.takeWhile (· != '=') := by
    rintro front absent ⟨rest, rfl⟩
    rw [List.append_assoc, Step.takeWhile_append_of_stops]
    · intro c mem
      rw [bne_iff_ne]
      rintro rfl
      exact absent mem
    · simp
  rw [cut front absent firstStarts, cut otherFront otherAbsent secondStarts]

theorem declaredLetter?_eq (declares : Declares letter text) (range : 'a' ≤ letter ∧ letter ≤ 'z') :
    declaredLetter? text = some letter := by
  rcases declares with ⟨word, mem, gap, pad, rfl, gapBlank, padBlank⟩
  have solid := not_isBlank_of_letter range.1 range.2
  have blank : ∀ c ∈ pad.reverse, isBlank c = true :=
    fun c mem => padBlank c (List.mem_reverse.mp mem)
  simp [declaredLetter?, List.dropWhile_append_of_pos blank, solid]

/-- A declaration starts with the first two letters of a word of declaration. -/
theorem exists_start (declares : Declares letter piece) (starts : piece <+: text) :
    ∃ c d, text[0]? = some c ∧ text[1]? = some d ∧ c ∈ ['c', 'l', 'v'] ∧ d ∈ ['o', 'e', 'a'] := by
  rcases declares with ⟨word, mem, gap, pad, rfl, -⟩
  rcases starts with ⟨rest, rfl⟩
  simp only [List.mem_cons, List.not_mem_nil, or_false] at mem
  rcases mem with rfl | rfl | rfl <;> simp

/-- Behind the first character of a declaration, no word of declaration starts before its end: only
the letter that is declared could be the first of such a word, and what follows it is a blank or the
sign. -/
theorem not_start_inside (declares : Declares letter piece) (starts : piece <+: text) {inside : ℕ}
    (pos : 0 < inside) (inPiece : inside < piece.length) {c d : Char}
    (first : text[inside]? = some c) (second : text[inside + 1]? = some d)
    (start : c ∈ ['c', 'l', 'v']) : d ∉ ['o', 'e', 'a'] := by
  rcases declares with ⟨word, mem, gap, pad, rfl, gapBlank, padBlank⟩
  rcases starts with ⟨rest, rfl⟩
  have solid : ∀ e ∈ ['c', 'l', 'v'] ++ ['o', 'e', 'a'], e ≠ '=' ∧ isBlank e = false := by
    intro e mem
    have range : ∀ e ∈ ['c', 'l', 'v'] ++ ['o', 'e', 'a'], e ≠ '=' ∧ 'a' ≤ e ∧ e ≤ 'z' := by simp
    exact ⟨(range e mem).1, not_isBlank_of_letter (range e mem).2.1 (range e mem).2.2⟩
  have closing : ∀ e ∈ pad ++ ['='], e ∉ ['c', 'l', 'v'] ++ ['o', 'e', 'a'] := by
    intro e closes letters
    rcases List.mem_append.mp closes with inPad | sign
    · exact absurd (padBlank e inPad) (by simp [solid e letters])
    · exact (solid e letters).1 (List.mem_singleton.mp sign)
  have shape : word.toList ++ (gap ++ letter :: (pad ++ ['='])) ++ rest =
      word.toList ++ (gap ++ letter :: (pad ++ ['='] ++ rest)) := by simp
  rw [shape] at first second
  simp only [List.length_append, List.length_cons, List.length_nil] at inPiece
  rcases Nat.lt_or_ge inside word.toList.length with inWord | pastWord
  · have tails : ∀ word ∈ ["const", "let", "var"], ∀ e ∈ word.toList.tail, e ∉ ['c', 'l', 'v'] := by
      simp
    have inTail : c ∈ word.toList.tail := by
      rw [List.getElem?_append_left inWord, ← Nat.sub_add_cancel pos, ← List.getElem?_tail] at first
      exact List.mem_of_getElem? first
    exact absurd start (tails word mem c inTail)
  rw [List.getElem?_append_right pastWord] at first
  rw [List.getElem?_append_right (by omega)] at second
  rcases Nat.lt_or_ge (inside - word.toList.length) gap.length with inGap | pastGap
  · rw [List.getElem?_append_left inGap] at first
    exact absurd (gapBlank.2 c (List.mem_of_getElem? first))
      (by simp [solid c (List.mem_append_left _ start)])
  rw [List.getElem?_append_right pastGap] at first
  rw [List.getElem?_append_right (by omega)] at second
  rw [Nat.sub_add_comm pastWord, Nat.sub_add_comm pastGap, List.getElem?_cons_succ] at second
  cases place : inside - word.toList.length - gap.length with
  | zero =>
      rw [place, List.getElem?_append_left (by simp)] at second
      exact fun mem => closing d (List.mem_of_getElem? second) (List.mem_append_right _ mem)
  | succ behind =>
      have inClosing : behind < (pad ++ ['=']).length := by
        rw [List.length_append, List.length_singleton]
        omega
      rw [place, List.getElem?_cons_succ, List.getElem?_append_left inClosing] at first
      exact absurd (List.mem_append_left _ start) (closing c (List.mem_of_getElem? first))

end Declares

/-- What the pattern takes is a declaration of a single letter. -/
theorem exists_declares_of_length? {text : List Char} {length : ℕ}
    (found : singleLetterDeclaration.length? text = some length) :
    ∃ letter, ('a' ≤ letter ∧ letter ≤ 'z') ∧ Declares letter (text.take length) := by
  rcases Pattern.exists_length?_of_eq_some found with ⟨steps, mem, matched⟩
  exact spells_singleLetterDeclaration.mp ⟨steps, mem, Step.spells_of_length? matched⟩

theorem singleLetterDeclaration_apart : singleLetterDeclaration.Apart := by
  intro text length found inside pos inPiece
  by_contra again
  rcases Option.ne_none_iff_exists'.mp again with ⟨other, foundAgain⟩
  rcases exists_declares_of_length? found with ⟨letter, -, declares⟩
  rcases exists_declares_of_length? foundAgain with ⟨_, -, declaresAgain⟩
  rcases declaresAgain.exists_start (List.take_prefix _ _) with
    ⟨c, d, first, second, cStarts, dFollows⟩
  rw [List.getElem?_drop] at first second
  have fits : inside < (text.take length).length := by
    rw [List.length_take_of_le (Pattern.length?_le found)]
    exact inPiece
  exact declares.not_start_inside (List.take_prefix _ _) pos fits first second cStarts dFollows

/-- At a position where the pattern takes a declaration of a letter that is no loop counter, one
stands. -/
theorem startsKind_isPoorDeclaration_iff (text : List Char) (position : ℕ) :
    singleLetterDeclaration.startsKind isPoorDeclaration (text.drop position) = true ↔
      IsPoorDeclarationAt text position := by
  have poor_iff : ∀ {letter piece}, ('a' ≤ letter ∧ letter ≤ 'z') → Declares letter piece →
      (isPoorDeclaration piece = true ↔ letter ∉ ['i', 'j', 'k']) := by
    intro letter piece range declares
    simp [isPoorDeclaration, declares.declaredLetter?_eq range, loopCounters]
  constructor
  · intro starts
    cases found : singleLetterDeclaration.length? (text.drop position) with
    | none =>
        rw [Pattern.startsKind_of_none found] at starts
        cases starts
    | some length =>
        rw [Pattern.startsKind_of_some found] at starts
        rcases exists_declares_of_length? found with ⟨letter, range, declares⟩
        exact ⟨letter, _, range.1, range.2, (poor_iff range declares).mp starts, declares,
          List.take_prefix _ _⟩
  · rintro ⟨letter, piece, low, high, notCounter, declares, starts⟩
    have taken : singleLetterDeclaration.matchesStart (text.drop position) = true :=
      (Pattern.matchesStart_iff singleLetterDeclaration_definite _).mpr
        ⟨piece, starts, spells_singleLetterDeclaration.mpr ⟨letter, ⟨low, high⟩, declares⟩⟩
    rcases Option.isSome_iff_exists.mp taken with ⟨length, found⟩
    rcases exists_declares_of_length? found with ⟨other, range, declaresOther⟩
    have same := declares.eq_of_prefix low declaresOther range.1 starts (List.take_prefix length _)
    rw [Pattern.startsKind_of_some found, ← same]
    exact (poor_iff ⟨low, high⟩ declares).mpr notCounter

instance (text : List Char) : DecidablePred (IsPoorDeclarationAt text) := fun position =>
  decidable_of_iff _ (startsKind_isPoorDeclaration_iff text position)

theorem genericNames_letters :
    ∀ name ∈ genericNames, name.toList ≠ [] ∧ ∀ c ∈ name.toList, isWord c = true := by
  simp only [← List.all_eq_true]
  decide

theorem length_overusedNames (source : List Char) :
    (overusedNames source).length =
      (({"temp", "tmp", "data", "val", "foo", "bar", "test"} : Finset String).filter fun name =>
        2 < wordUses name.toList source).card := by
  have names : ({"temp", "tmp", "data", "val", "foo", "bar", "test"} : Finset String) =
      genericNames.toFinset := by
    simp [genericNames]
  have overused : overusedNames source = genericNames.filter fun name =>
      2 < wordUses name.toList source := by
    refine List.filter_congr fun name mem => ?_
    rcases genericNames_letters name mem with ⟨nonempty, letters⟩
    rw [countWord_eq_wordUses nonempty letters, genericNameLimit]
  have distinct : genericNames.Nodup := by decide
  rw [names, overused, ← List.toFinset_card_of_nodup (distinct.filter _), List.toFinset_filter]
  simp only [decide_eq_true_eq]

/-- The count of poor names is the count of positions at which a letter other than a loop counter is
declared, and of the generic words that more than two maximal runs of word characters are. -/
theorem countPoorNaming_eq_card (source : List Char) :
    countPoorNaming source =
      ((Finset.range source.length).filter (IsPoorDeclarationAt source)).card +
        (({"temp", "tmp", "data", "val", "foo", "bar", "test"} : Finset String).filter fun name =>
          2 < wordUses name.toList source).card := by
  have declarations :=
    Pattern.length_filter_occurrences singleLetterDeclaration_apart isPoorDeclaration source
  simp only [startsKind_isPoorDeclaration_iff] at declarations
  rw [countPoorNaming, declarations, length_overusedNames]

end Scorecard
