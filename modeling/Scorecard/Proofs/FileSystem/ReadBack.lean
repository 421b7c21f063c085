import Scorecard.FileSystem.Tree
import Scorecard.Proofs.Except
import Scorecard.Proofs.Text.LineEnds

/-!
# Reading written files

A file that was written is read back: putting it into the tree changes no other node, and the path
leads to the same place as before, because it passes through directories only and no directory is
overwritten. A text of ASCII characters without carriage returns is its own UTF-8 form and has line
feeds for all line ends, so it is read back as it is. Only the file system and octets that are no
text stand in the way of reading.
-/

namespace Scorecard

namespace Utf8

theorem encode_cons_of_ascii {c : Char} (ascii : c.toNat < 128) (text : List Char) :
    encode (c :: text) = UInt8.ofNat c.toNat :: encode text := by
  have one : String.utf8EncodeChar c = [UInt8.ofNat c.toNat] := by
    simp [String.utf8EncodeChar, Nat.le_of_lt_succ ascii]
  rw [encode, List.flatMap_cons, one, encode, List.singleton_append]

theorem decodeFrom_encode_of_ascii {text : List Char} (ascii : ∀ c ∈ text, c.toNat < 128)
    (position : ℕ) : decodeFrom position 0 (encode text) = .ok text := by
  induction text generalizing position with
  | nil => rfl
  | cons c text ih =>
      rw [List.forall_mem_cons] at ascii
      have octet : (UInt8.ofNat c.toNat).toNat = c.toNat :=
        UInt8.toNat_ofNat_of_lt' (lt_trans ascii.1 (by decide))
      have piece_eq : piece (UInt8.ofNat c.toNat) (encode text) = .character c 1 := by
        rw [piece, octet, lead?, if_pos ascii.1]
        simp only [tailPiece, Char.ofNat_toNat]
      rw [encode_cons_of_ascii ascii.1, decodeFrom, piece_eq]
      simp only [ih ascii.2]
      rfl

end Utf8

namespace FileTree

variable {tree : FileTree}

theorem lookup_cons_eq_ite (key other : List String) (node : Node)
    (nodes : List (List String × Node)) :
    ((key, node) :: nodes).lookup other =
      if other = key then some node else nodes.lookup other := by
  rw [List.lookup_cons]
  by_cases same : other = key
  · rw [if_pos same, beq_iff_eq.mpr same]
  · rw [if_neg same, beq_eq_false_iff_ne.mpr same]

theorem lookup_put (nodes : List (List String × Node)) (place other : List String) (node : Node) :
    (nodes.filter (fun entry => entry.1 != place) ++ [(place, node)]).lookup other =
      if other = place then some node else nodes.lookup other := by
  induction nodes with
  | nil => rw [List.filter_nil, List.nil_append, lookup_cons_eq_ite]
  | cons entry nodes ih =>
      rcases entry with ⟨key, value⟩
      by_cases removed : key = place
      · rw [List.filter_cons_of_neg (by simpa using removed), ih, lookup_cons_eq_ite, removed]
        split <;> rfl
      · rw [List.filter_cons_of_pos (by simpa using removed), List.cons_append,
          lookup_cons_eq_ite, ih, lookup_cons_eq_ite]
        by_cases same : other = key
        · have different : other ≠ place := same ▸ removed
          rw [if_pos same, if_neg different, if_pos same]
        · rw [if_neg same, if_neg same]

theorem node?_put_self {place : List String} (nonempty : place ≠ []) (node : Node) :
    (tree.put place node).node? place = some node := by
  rw [node?, if_neg (by simpa using nonempty), put, lookup_put, if_pos rfl]

theorem node?_put_of_ne {place other : List String} (different : other ≠ place) (node : Node) :
    (tree.put place node).node? other = tree.node? other := by
  rw [node?, node?, put, lookup_put, if_neg different]

/-- A path through directories is not changed by what is put where no directory is. -/
theorem walk_put {target place reached parts : List String}
    (noDirectory : tree.node? target ≠ some .directory)
    (walked : tree.walk place parts = .ok reached) (node : Node) :
    (tree.put target node).walk place parts = .ok reached := by
  have nonempty : target ≠ [] := by
    rintro rfl
    exact noDirectory rfl
  -- A place that is walked through is a directory, so only the last one can be the one that was
  -- put.
  induction parts generalizing place with
  | nil =>
      rw [walk] at walked ⊢
      by_cases same : place = target
      · subst same
        rw [node?_put_self nonempty]
        split at walked
        · cases walked
        · exact walked
      · rw [node?_put_of_ne same]
        exact walked
  | cons part rest ih =>
      rw [walk] at walked ⊢
      split at walked
      · cases walked
      · cases walked
      · next isDirectory =>
          have different : place ≠ target := by
            rintro rfl
            exact noDirectory isDirectory
          rw [node?_put_of_ne different, isDirectory]
          exact ih walked

theorem walk_append {place middle reached front back : List String}
    (first : tree.walk place front = .ok middle) (second : tree.walk middle back = .ok reached) :
    tree.walk place (front ++ back) = .ok reached := by
  induction front generalizing place with
  | nil =>
      rw [walk] at first
      split at first
      · cases first
      · cases first
        exact second
  | cons part front ih =>
      rw [List.cons_append]
      rw [walk] at first ⊢
      split at first
      · cases first
      · cases first
      · next isDirectory =>
          exact ih first

theorem node?_of_walk {place reached parts : List String}
    (walked : tree.walk place parts = .ok reached) : ∃ node, tree.node? reached = some node := by
  induction parts generalizing place with
  | nil =>
      rw [walk] at walked
      split at walked
      · cases walked
      · next node found =>
          cases walked
          exact ⟨node, found⟩
  | cons part rest ih =>
      rw [walk] at walked
      split at walked
      · cases walked
      · cases walked
      · exact ih walked

theorem ne_nil_of_not_directory {place : List String}
    (noDirectory : tree.node? place ≠ some .directory) : place ≠ [] := by
  rintro rfl
  exact noDirectory rfl

/-- A path leads to the place at which a file was put for it. -/
theorem locate_put {path : Path} {place : List String} {found : Option Node}
    (targets : tree.target path = .ok (place, found)) (noDirectory : found ≠ some .directory)
    (node : Node) : place ≠ [] ∧ (tree.put place node).locate path = .ok place := by
  rw [target] at targets
  split at targets
  · rcases bind_eq_ok_iff.mp targets with ⟨_, located, returned⟩
    cases returned
    exact ⟨ne_nil_of_not_directory noDirectory, walk_put noDirectory located node⟩
  · next last last_eq =>
      split at targets
      · rcases bind_eq_ok_iff.mp targets with ⟨_, located, returned⟩
        cases returned
        exact ⟨ne_nil_of_not_directory noDirectory, walk_put noDirectory located node⟩
      · next notAbove =>
          rcases bind_eq_ok_iff.mp targets with ⟨directory, located, returned⟩
          split at returned
          · cases returned
          · next notFile =>
              cases returned
              have nonempty := ne_nil_of_not_directory noDirectory
              refine ⟨nonempty, ?_⟩
              have isDirectory : tree.node? directory = some .directory := by
                rcases node?_of_walk located with ⟨_ | _, found⟩
                · exact absurd found (notFile _ _)
                · exact found
              have different : directory ≠ directory ++ [last] := by simp
              have split_path : path.components = path.parent.components ++ [last] := by
                rw [Path.parent, List.dropLast_append_getLast?]
                exact last_eq
              rw [locate, split_path]
              refine walk_append (walk_put noDirectory located node) ?_
              rw [walk, node?_put_of_ne different, isDirectory]
              simp only [if_neg notAbove, walk, node?_put_self nonempty]

/-- A written file is read back. -/
theorem read_write {path : Path} {content : List UInt8} {time : ℤ} {written : FileTree}
    (wrote : tree.write path content time = .ok written) : written.read path = .ok content := by
  rw [write] at wrote
  split at wrote
  · cases wrote
  · cases wrote
  · next place found noDirectory targets =>
      cases wrote
      rcases locate_put targets noDirectory (.file content time) with ⟨nonempty, located⟩
      simp only [read, readFile, located, node?_put_self nonempty]
      rfl

/-- The octets of a text of ASCII characters without carriage returns are read as this text. -/
theorem readText_of_read {path : Path} {text : List Char}
    (plain : ∀ c ∈ text, c.toNat < 128 ∧ c ≠ '\r')
    (holds : tree.read path = .ok (Utf8.encode text)) : tree.readText path = .ok text := by
  have decoded : Utf8.decode (Utf8.encode text) = .ok text :=
    Utf8.decodeFrom_encode_of_ascii (fun c mem => (plain c mem).1) 0
  have lines := universalNewlines_eq_self fun mem => (plain '\r' mem).2 rfl
  simp only [readText, holds, bind, Except.bind, decoded, lines, pure, Except.pure]

/-- What is read lies at the path. -/
theorem contains_of_read {path : Path} {octets : List UInt8} (holds : tree.read path = .ok octets) :
    tree.contains path = true := by
  rw [read, readFile] at holds
  rw [contains, find?]
  cases located : tree.locate path with
  | error problem =>
      rw [located] at holds
      cases holds
  | ok place =>
      rw [located] at holds
      simp only at holds ⊢
      cases found : tree.node? place with
      | none =>
          rw [found] at holds
          cases holds
      | some node => rfl

theorem isFileProblem_of_read {path : Path} {fault : Fault}
    (failed : tree.read path = .error fault) : fault.isFileProblem = true := by
  rw [read, readFile] at failed
  cases located : tree.locate path with
  | error problem =>
      rw [located] at failed
      cases failed
      rfl
  | ok place =>
      rw [located] at failed
      simp only at failed
      split at failed
      · cases failed
      · cases failed
        rfl

theorem recoverable_of_readText {path : Path} {fault : Fault}
    (failed : tree.readText path = .error fault) :
    fault.isFileProblem = true ∨ fault.isBadValue = true := by
  cases found : tree.read path with
  | error problem =>
      rw [readText, found] at failed
      cases failed
      exact .inl (isFileProblem_of_read found)
  | ok octets =>
      simp only [readText, found, bind, Except.bind] at failed
      split at failed
      · cases failed
      · cases failed
        exact .inr rfl

end FileTree

end Scorecard
