import Scorecard.Proofs.Except
import Scorecard.Proofs.Text.Blank
import Scorecard.Proofs.Text.Lines
import Scorecard.Proofs.Text.Pattern
import Scorecard.Selection.PathRule

/-!
# Rules for directories

Among rules none of which is negated the order does not matter: they select the paths that one of
them takes. A rule that names a directory without wildcards and goes on to all below it is a glob of
plain characters, so it takes exactly the paths that start with the name of the directory and a
slash.
-/

namespace Scorecard

namespace PathRule

section

variable {rules : List PathRule} {path : List Char}

theorem verdictFromLast_getD_iff (plain : ∀ rule ∈ rules, rule.isNegated = false)
    {byDirectory : Option Bool} (unopposed : byDirectory ≠ some false) :
    (verdictFromLast path byDirectory rules).getD false = true ↔
      byDirectory = some true ∨ ∃ rule ∈ rules, rule.shape.hold? path ≠ none := by
  induction rules generalizing byDirectory with
  | nil => cases byDirectory <;> simp [verdictFromLast]
  | cons rule rest ih =>
      rw [List.forall_mem_cons] at plain
      rw [verdictFromLast, List.exists_mem_cons_iff]
      cases held : rule.shape.hold? path with
      | none => simp [ih plain.2 unopposed]
      | some hold =>
          cases hold with
          | direct => simp [plain.1]
          | byDirectory =>
              -- Nothing but a selection was decided before, so the path is selected now at the
              -- latest.
              have selected : byDirectory.or (some !rule.isNegated) = some true := by
                rw [plain.1]
                rcases byDirectory with - | - | -
                · rfl
                · exact absurd rfl unopposed
                · rfl
              simp only [selected, ih plain.2 (by simp : some true ≠ some false)]
              simp

/-- Rules that are not negated select the paths that one of them takes. -/
theorem selects_iff (plain : ∀ rule ∈ rules, rule.isNegated = false) :
    selects rules path = true ↔ ∃ rule ∈ rules, rule.shape.hold? path ≠ none := by
  have reversed : ∀ rule ∈ rules.reverse, rule.isNegated = false := by simpa using plain
  rw [selects, verdictFromLast_getD_iff reversed (by simp)]
  simp

end

theorem mem_ofLines_iff {lines : List (List Char)} {rules : List PathRule} {rule : PathRule}
    (returned : ofLines lines = .ok rules) :
    rule ∈ rules ↔ ∃ line ∈ lines, ofLine? line = .ok (some rule) := by
  rw [ofLines, bind_eq_ok_iff] at returned
  rcases returned with ⟨results, read, same⟩
  cases same
  rw [List.mem_filterMap]
  constructor
  · rintro ⟨_, mem, rfl⟩
    exact (mem_iff_of_mapM read).mp mem
  · exact fun line => ⟨_, (mem_iff_of_mapM read).mpr line, rfl⟩

/-- A rule is negated by the mark at the start of its line. -/
theorem isNegated_of_ofLine? {line : List Char} {rule : PathRule}
    (read : ofLine? line = .ok (some rule)) : rule.isNegated = (line.head? == some '!') := by
  have start : trimmed line <+: line := by
    rw [trimmed]
    split
    · exact List.prefix_refl _
    · exact stripRight_prefix_self _
  rw [ofLine?] at read
  split at read
  · cases read
  · next busy =>
      rw [List.isEmpty_iff, not_or] at busy
      have head : (trimmed line).head? = line.head? := by
        rcases start with ⟨rest, whole⟩
        have grown : (trimmed line ++ rest).head? = (trimmed line).head? :=
          List.head?_append_of_ne_nil _ busy.1
        rw [← grown, whole]
      dsimp only at read
      generalize negated : ((trimmed line).head? == some '!') = isNegated at read
      generalize splitAtChar '/'
        (if isNegated = true then (trimmed line).drop 1 else trimmed line) = components at read
      split at read
      · cases read
      · split at read
        · cases read
        · cases read
        · split at read
          · cases read
          · cases read
            rw [← negated, head]

end PathRule

namespace Glob

/-- Whether a character means itself in a component of a glob. -/
def IsPlain (c : Char) : Prop :=
  c ≠ '\\' ∧ c ≠ '*' ∧ c ≠ '?' ∧ c ≠ '['

instance (c : Char) : Decidable (IsPlain c) :=
  inferInstanceAs (Decidable (_ ∧ _))

theorem hold?_below_map_char (forDirectories : Bool) (directory path : List Char) :
    hold? (.below forDirectories) (directory.map .char) path =
      if directory ++ ['/'] <+: path then some (if forDirectories then .byDirectory else .direct)
      else none := by
  induction directory generalizing path with
  | nil =>
      cases path with
      | nil => simp [hold?, GlobEnding.hold?]
      | cons c rest =>
          by_cases slash : c = '/'
          · simp [hold?, GlobEnding.hold?, slash, List.cons_prefix_cons]
          · simp [hold?, GlobEnding.hold?, slash, Ne.symm slash, List.cons_prefix_cons]
  | cons expected directory ih =>
      cases path with
      | nil => simp [hold?, GlobPiece.rests]
      | cons c rest =>
          rw [List.map_cons, hold?, GlobPiece.rests]
          by_cases same : c = expected
          · simp [same, ih, List.cons_prefix_cons]
          · simp [same, Ne.symm same, List.cons_prefix_cons]

theorem componentPiecesAfter_of_isPlain {component : List Char}
    (plain : ∀ c ∈ component, IsPlain c) :
    componentPiecesAfter 0 component = .ok (component.map .char) := by
  induction component with
  | nil => rfl
  | cons c rest ih =>
      rw [List.forall_mem_cons] at plain
      rcases plain.1 with ⟨notBackslash, notStar, notMark, notBracket⟩
      rw [componentPiecesAfter, ih plain.2]
      · rfl
      all_goals simp_all

variable {names : List (List Char)}

theorem star_notMem {name : List Char} (plain : ∀ c ∈ name, IsPlain c) : '*' ∉ name :=
  fun mem => (plain '*' mem).2.1 rfl

theorem ne_anyDepth {name : List Char} (plain : ∀ c ∈ name, IsPlain c) : name ≠ anyDepth := by
  rintro rfl
  exact star_notMem plain (by decide)

theorem componentPieces_of_isPlain {name : List Char} (plain : ∀ c ∈ name, IsPlain c) :
    componentPieces name = .ok (name.map .char) := by
  have notStar : name ≠ ['*'] := by
    rintro rfl
    exact star_notMem plain (by decide)
  rw [componentPieces, if_neg notStar, componentPiecesAfter_of_isPlain plain]

/-- The components of a directory and all below it are anchored as they are. -/
theorem anchored_directory (named : names ≠ []) (nonempty : ∀ name ∈ names, name ≠ []) :
    anchored (names ++ [anyDepth]) = names ++ [anyDepth] := by
  rcases names with - | ⟨- | ⟨c, first⟩, - | ⟨second, rest⟩⟩
  · exact absurd rfl named
  · simp at nonempty
  · simp at nonempty
  · rfl
  · have last : ((c :: first) :: second :: rest ++ [anyDepth]).getLast? = some anyDepth :=
      List.getLast?_concat
    cases whole : rest ++ [anyDepth] with
    | nil => simp at whole
    | cons third others =>
        rw [List.cons_append, List.cons_append, whole] at last ⊢
        simp only [anchored, last]
        rfl

theorem collapsed_directory (plain : ∀ name ∈ names, ∀ c ∈ name, IsPlain c) :
    collapsed (names ++ [anyDepth]) = names ++ [anyDepth] := by
  induction names with
  | nil => rfl
  | cons name names ih =>
      rw [List.forall_mem_cons] at plain
      rw [List.cons_append, collapsed, if_neg fun both => ne_anyDepth plain.1 both.1, ih plain.2]

theorem laterPieces_directory (needsSlash : Bool) (named : names ≠ [])
    (plain : ∀ name ∈ names, ∀ c ∈ name, IsPlain c) :
    laterPieces needsSlash (names ++ [anyDepth]) =
      .ok (((if needsSlash then ['/'] else []) ++ joinWith ['/'] names).map .char) := by
  induction names generalizing needsSlash with
  | nil => exact absurd rfl named
  | cons name names ih =>
      rw [List.forall_mem_cons] at plain
      rw [List.cons_append, laterPieces, if_neg (ne_anyDepth plain.1),
        componentPieces_of_isPlain plain.1, ok_bind]
      cases names with
      | nil => cases needsSlash <;> simp [laterPieces, joinWith, ok_bind, pure, Except.pure]
      | cons second names =>
          rw [ih true (List.cons_ne_nil _ _) plain.2, ok_bind]
          cases needsSlash <;> simp [joinWith, pure, Except.pure]

theorem shapeOf_directory (named : names ≠ []) (plain : ∀ name ∈ names, ∀ c ∈ name, IsPlain c) :
    shapeOf false (names ++ [anyDepth]) =
      .ok (.glob ((joinWith ['/'] names).map .char) (.below false)) := by
  cases names with
  | nil => exact absurd rfl named
  | cons name names =>
      have first : name ≠ anyDepth := ne_anyDepth (plain name List.mem_cons_self)
      have last : (name :: names ++ [anyDepth]).getLast? = some anyDepth := List.getLast?_concat
      have later := laterPieces_directory false named plain
      rw [shapeOf, last]
      rw [List.cons_append] at later ⊢
      rw [pieces, if_neg first, later]
      simp [first, Except.map]

end Glob

namespace PathRule

/-- The rule of a directory and all below it takes exactly the paths below the directory. -/
def ofDirectory (names : List (List Char)) : PathRule where
  isNegated := false
  shape := .glob ((joinWith ['/'] names).map .char) (.below false)

theorem hold?_ofDirectory (names : List (List Char)) (path : List Char) :
    (ofDirectory names).shape.hold? path =
      if joinWith ['/'] names ++ ['/'] <+: path then some .direct else none :=
  Glob.hold?_below_map_char false _ _

theorem trimmed_of_getLast? {line : List Char} {last : Char} (ends : line.getLast? = some last)
    (solid : isBlank last = false) : trimmed line = line := by
  rw [trimmed]
  split
  · rfl
  · exact stripRight_of_getLast? ends solid

theorem head?_append_ne {text tail : List Char} {c : Char} (start : text.head? ≠ some c)
    (tailStart : tail.head? ≠ some c) : (text ++ tail).head? ≠ some c := by
  cases text with
  | nil => exact tailStart
  | cons first rest => exact start

/-- The line of a directory and all below it is that rule, unless its start makes it a comment or
negates it. -/
theorem ofLine?_directory {names : List (List Char)} (named : names ≠ [])
    (nonempty : ∀ name ∈ names, name ≠ []) (unslashed : ∀ name ∈ names, '/' ∉ name)
    (plain : ∀ name ∈ names, ∀ c ∈ name, Glob.IsPlain c)
    (start : ∀ c, (joinWith ['/'] names).head? = some c → c ≠ '#' ∧ c ≠ '!') :
    ofLine? (joinWith ['/'] names ++ ['/', '*', '*']) = .ok (some (ofDirectory names)) := by
  have components :
      splitAtChar '/' (joinWith ['/'] names ++ ['/', '*', '*']) = names ++ [Glob.anyDepth] := by
    rw [splitAtChar_append_cons, splitAtChar_joinWith named unslashed]
    rfl
  have whole :
      trimmed (joinWith ['/'] names ++ ['/', '*', '*']) = joinWith ['/'] names ++ ['/', '*', '*'] :=
    trimmed_of_getLast? (List.getLast?_append_of_ne_nil _ (List.cons_ne_nil _ _))
      (by decide : isBlank '*' = false)
  have busy : ¬ ((joinWith ['/'] names ++ ['/', '*', '*']).isEmpty = true ∨
      (joinWith ['/'] names ++ ['/', '*', '*']).head? = some '#' ∨
      joinWith ['/'] names ++ ['/', '*', '*'] = ['/']) := by
    rintro (empty | comment | slash)
    · simp at empty
    · exact head?_append_ne (fun head => (start _ head).1 rfl) (by decide) comment
    · have size := congrArg List.length slash
      simp at size
  have notNegated : ((joinWith ['/'] names ++ ['/', '*', '*']).head? == some '!') = false :=
    beq_eq_false_iff_ne.mpr (head?_append_ne (fun head => (start _ head).2 rfl) (by decide))
  have last : ((names ++ [Glob.anyDepth]).getLast? == some []) = false := by
    rw [List.getLast?_concat]
    rfl
  have someNames : (names ++ [Glob.anyDepth]).isEmpty = false := by simp
  have noRange : (ofDirectory names).shape.hasDescendingRange = false := by
    simp [ofDirectory, PathShape.hasDescendingRange]
  rw [ofLine?, whole, if_neg busy]
  simp only [notNegated, Bool.false_eq_true, if_false, components, last,
    Glob.anchored_directory named nonempty, Glob.collapsed_directory plain, someNames,
    Glob.shapeOf_directory named plain]
  rw [ofDirectory] at noRange ⊢
  rw [noRange]
  rfl

end PathRule

end Scorecard
