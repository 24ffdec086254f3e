import Parlance.Number
import Parlance.Text.Numeral

/-! Reading a number that is written out gives the number back. -/
namespace Parlance

theorem Text.isNumeric_of_isDigit {c : Char} (digit : c.isDigit = true) : isNumeric c = true := by
  simp [isNumeric, digit]

namespace Number

theorem toList_toString (n : Nat) : (toString n).toList = Nat.toDigits 10 n := by
  rw [Nat.toString_eq_ofList_toDigits, String.toList_ofList]

theorem natural?_toDigits (n : Nat) : natural? (Nat.toDigits 10 n) = some n := by
  have digits : (Nat.toDigits 10 n).all Char.isDigit = true := by
    rw [List.all_eq_true]
    exact fun c member => Nat.isDigit_of_mem_toDigits (by decide) (by decide) member
  rw [natural?, if_pos ⟨Nat.toDigits_ne_nil, digits⟩, ← Nat.ofDigitChars_eq_foldl, Nat.ofDigitChars_ten_toDigits]

theorem ofInt?_toInt (n : Number) : ofInt? n.toInt = some n := by
  have low := Int64.minValue_le_toInt n
  have high := Int64.toInt_le n
  rw [ofInt?, if_pos ⟨low, high⟩, Int64.ofInt_toInt]

theorem toDigits_begins (n : Nat) : ∃ c rest, Nat.toDigits 10 n = c :: rest ∧ c.isDigit = true := by
  obtain ⟨c, rest, same⟩ := List.exists_cons_of_ne_nil (Nat.toDigits_ne_nil (b := 10) (n := n))
  refine ⟨c, rest, same, ?_⟩
  exact Nat.isDigit_of_mem_toDigits (by decide) (by decide) (same ▸ List.mem_cons_self)

theorem read?_unsigned {c : Char} {rest : List Char} (digit : c.isDigit = true) :
    read? (c :: rest) = natural? (c :: rest) >>= fun n => ofInt? n := by
  unfold read?
  split
  · rename_i same
    cases same
    cases digit
  · rename_i same
    cases same
    cases digit
  · rfl

theorem toInt_of_ofInt? {m : Int} {n : Number} (fits : ofInt? m = some n) : n.toInt = m := by
  unfold ofInt? at fits
  split at fits
  · rename_i bounds
    cases fits
    exact Int64.toInt_ofInt_of_le bounds.1 (Int.lt_of_le_of_lt bounds.2 (by decide))
  · cases fits

theorem describe_natural {n : Number} {m : Nat} (value : n.toInt = m) : n.describe.toList = Nat.toDigits 10 m := by
  rw [describe, value]
  exact toList_toString m

theorem read?_describe (n : Number) : read? n.describe.toList = some n := by
  have whole := ofInt?_toInt n
  cases value : n.toInt with
  | ofNat m =>
    rw [value] at whole
    obtain ⟨c, rest, same, digit⟩ := toDigits_begins m
    rw [describe_natural value, same, read?_unsigned digit, ← same, natural?_toDigits]
    exact whole
  | negSucc m =>
    rw [value] at whole
    have spelled : n.describe.toList = '-' :: Nat.toDigits 10 (m + 1) := by
      rw [describe, value]
      show ("-" ++ toString (m + 1)).toList = _
      rw [String.toList_append, toList_toString]
      rfl
    rw [Int.negSucc_eq] at whole
    rw [spelled, read?, natural?_toDigits, Option.bind_eq_bind, Option.bind_some, Int.natCast_add, Int.natCast_one, whole]

/-- What begins like a number is not negative, so the number is written out in digits alone. -/
theorem describe_digits {text : List Char} {n : Number} (numeric : text.head?.any Text.isNumeric = true)
    (read : read? text = some n) : ∃ m : Nat, n.describe.toList = Nat.toDigits 10 m := by
  unfold read? at read
  split at read
  · cases numeric
  · cases numeric
  · obtain ⟨m, -, fits⟩ := Option.bind_eq_some_iff.mp read
    exact ⟨m, describe_natural (toInt_of_ofInt? fits)⟩

end Number
end Parlance
