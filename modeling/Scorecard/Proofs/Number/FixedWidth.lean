import Scorecard.Proofs.Json.Number

/-!
# Digits of one width

A number that is padded with zeros to a width has just as many digits, unless it has more of its
own. Numbers with the same count of digits stand in the order of their values when their digits are
compared one by one.
-/

namespace Scorecard

theorem append_lt_append_of_lt {first second : List Char} (less : first < second)
    (same : first.length = second.length) (rest other : List Char) :
    first ++ rest < second ++ other := by
  induction first generalizing second with
  | nil =>
      rw [List.length_nil, eq_comm, List.length_eq_zero_iff] at same
      rw [same] at less
      exact absurd less (List.lt_irrefl [])
  | cons c first ih =>
      cases second with
      | nil => cases same
      | cons d second =>
          rw [List.cons_lt_cons_iff] at less
          rw [List.cons_append, List.cons_append, List.cons_lt_cons_iff]
          rcases less with less | ⟨rfl, less⟩
          · exact .inl less
          · exact .inr ⟨rfl, ih less (Nat.succ.inj same)⟩

theorem Numeral.valueOf_cons (digit : Char) (digits : List Char) :
    valueOf (digit :: digits) = (digit.toNat - 48) * 10 ^ digits.length + valueOf digits := by
  rw [← List.singleton_append, valueOf_append]
  simp [valueOf]

theorem toNat_of_isDigit {c : Char} (isDigit : c.isDigit = true) : 48 ≤ c.toNat ∧ c.toNat ≤ 57 := by
  rw [Char.isDigit, Bool.and_eq_true, decide_eq_true_eq, decide_eq_true_eq] at isDigit
  exact isDigit

/-- Of two numbers with the same count of digits, the one that is less comes first. -/
theorem lt_of_valueOf_lt {first second : List Char} (isDigit : ∀ c ∈ first, c.isDigit = true)
    (isDigitToo : ∀ c ∈ second, c.isDigit = true) (same : first.length = second.length)
    (less : Numeral.valueOf first < Numeral.valueOf second) : first < second := by
  induction first generalizing second with
  | nil =>
      rw [List.length_nil, eq_comm, List.length_eq_zero_iff] at same
      rw [same] at less
      exact absurd less (lt_irrefl _)
  | cons c first ih =>
      cases second with
      | nil => cases same
      | cons d second =>
          rw [List.forall_mem_cons] at isDigit isDigitToo
          have length : first.length = second.length := Nat.succ.inj same
          have bound := Numeral.valueOf_lt isDigitToo.2
          rw [Numeral.valueOf_cons, Numeral.valueOf_cons, length] at less
          rw [List.cons_lt_cons_iff]
          rcases Nat.lt_trichotomy c.toNat d.toNat with before | equal | after
          · exact .inl before
          · rw [equal] at less
            exact .inr ⟨Char.toNat_inj.mp equal, ih isDigit.2 isDigitToo.2 length (by omega)⟩
          · have start := (toNat_of_isDigit isDigitToo.1).1
            have more :
                (d.toNat - 48 + 1) * 10 ^ second.length ≤ (c.toNat - 48) * 10 ^ second.length :=
              Nat.mul_le_mul_right _ (by omega)
            rw [Nat.succ_mul] at more
            omega

theorem toList_paddedDigits (width value : ℕ) :
    (paddedDigits width value).toList =
      List.replicate (width - (decimalDigits value).length) '0' ++ decimalDigits value := by
  have digits : (toString value).toList = decimalDigits value := by
    simp [toString, Nat.repr, decimalDigits]
  have length : (toString value).length = (decimalDigits value).length := by
    rw [← digits, String.length_toList]
  rw [paddedDigits]
  simp only [String.toList_append, String.toList_ofList, digits, length]

theorem isDigit_of_mem_paddedDigits {width value : ℕ} {c : Char}
    (mem : c ∈ (paddedDigits width value).toList) : c.isDigit = true := by
  rw [toList_paddedDigits, List.mem_append] at mem
  rcases mem with mem | mem
  · exact isDigit_of_mem_zeros mem
  · exact isDigit_of_mem_decimalDigits mem

theorem valueOf_paddedDigits (width value : ℕ) :
    Numeral.valueOf (paddedDigits width value).toList = value := by
  rw [toList_paddedDigits, Numeral.valueOf_append, Numeral.valueOf_replicate_zero,
    Numeral.valueOf_decimalDigits, zero_mul, zero_add]

theorem length_paddedDigits {width value : ℕ} (positive : 0 < width) (fits : value < 10 ^ width) :
    (paddedDigits width value).toList.length = width := by
  have few := (length_decimalDigits_le_iff positive).mpr fits
  rw [toList_paddedDigits, List.length_append, List.length_replicate]
  omega

theorem paddedDigits_lt {width value other : ℕ} (positive : 0 < width) (less : value < other)
    (fits : other < 10 ^ width) :
    (paddedDigits width value).toList < (paddedDigits width other).toList := by
  apply lt_of_valueOf_lt
  · exact fun c => isDigit_of_mem_paddedDigits
  · exact fun c => isDigit_of_mem_paddedDigits
  · rw [length_paddedDigits positive (less.trans fits), length_paddedDigits positive fits]
  · rwa [valueOf_paddedDigits, valueOf_paddedDigits]

end Scorecard
