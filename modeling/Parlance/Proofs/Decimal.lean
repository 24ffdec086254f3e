import Mathlib.Data.List.DropRight
import Mathlib.Data.Nat.Digits.Defs
import Parlance.Builtin
import Parlance.Proofs.Node.Spell
import Parlance.Proofs.Token.OneLine

/-! Decimal notation. Numbers are written in it, the literals of a program are read from it, and so are the texts that
are turned into numbers. What is written is read back, and nothing is read but numerals whose value is a number. -/
namespace Parlance

namespace Text

/-- What is left of a text without the blanks at its two ends. -/
structure Trimmed (text core : List Char) : Prop where
  cut : ∃ before after, (∀ c ∈ before, isBlank c = true) ∧ (∀ c ∈ after, isBlank c = true) ∧
    text = before ++ (core ++ after)
  begins : ∀ c ∈ core.head?, isBlank c = false
  ends : ∀ c ∈ core.getLast?, isBlank c = false

theorem trim_eq (text : List Char) : trim text = (text.dropWhile isBlank).rdropWhile isBlank := rfl

theorem trimmed_trim (text : List Char) : Trimmed text (trim text) where
  cut := by
    refine ⟨text.takeWhile isBlank, (text.dropWhile isBlank).rtakeWhile isBlank, ?_, ?_, ?_⟩
    · exact fun c member => List.mem_takeWhile_imp member
    · exact fun c member => List.mem_rtakeWhile_imp member
    · rw [trim_eq, List.rdropWhile_append_rtakeWhile, List.takeWhile_append_dropWhile]
  begins := by
    intro c head
    obtain ⟨rest, same⟩ := List.head?_eq_some_iff.mp head
    obtain ⟨after, joined⟩ : trim text <+: text.dropWhile isBlank := List.rdropWhile_prefix isBlank _
    have stops := List.head?_dropWhile_not isBlank text
    rw [← joined, same] at stops
    simpa using stops
  ends := by
    intro c last
    obtain ⟨spoken, rfl⟩ := List.mem_getLast?_eq_getLast last
    exact Bool.eq_false_iff.mpr (List.rdropWhile_last_not isBlank _ spoken)

theorem dropWhile_blanks {blanks rest : List Char} (blank : ∀ c ∈ blanks, isBlank c = true)
    (begins : ∀ c ∈ rest.head?, isBlank c = false) : (blanks ++ rest).dropWhile isBlank = rest := by
  rw [List.dropWhile_append_of_pos blank]
  cases rest with
  | nil => rfl
  | cons c rest => exact List.dropWhile_cons_of_neg (Bool.eq_false_iff.mp (begins c rfl))

theorem Trimmed.eq_trim {text core : List Char} (trimmed : Trimmed text core) : core = trim text := by
  obtain ⟨⟨before, after, blankBefore, blankAfter, rfl⟩, begins, ends⟩ := trimmed
  by_cases empty : core = []
  · subst empty
    have blank : allBlank (before ++ ([] ++ after)) = true := by
      simpa [allBlank] using ⟨blankBefore, blankAfter⟩
    exact ((trim_eq_nil_iff _).mpr blank).symm
  · have fore : (before ++ (core ++ after)).dropWhile isBlank = core ++ after := by
      refine dropWhile_blanks blankBefore ?_
      rwa [List.head?_append_of_ne_nil _ empty]
    have aft : (after.reverse ++ core.reverse).dropWhile isBlank = core.reverse := by
      refine dropWhile_blanks (fun c member => blankAfter c (List.mem_reverse.mp member)) ?_
      rwa [List.head?_reverse]
    rw [trim, fore, List.reverse_append, aft, List.reverse_reverse]

theorem trimmed_iff {text core : List Char} : Trimmed text core ↔ core = trim text :=
  ⟨Trimmed.eq_trim, fun same => same ▸ trimmed_trim text⟩

end Text

namespace Number

/-- The value of digits, each of which counts ten times what it would one place later. -/
def magnitude (digits : List Char) : Nat :=
  Nat.ofDigits 10 (digits.reverse.map fun c => c.toNat - '0'.toNat)

/-- Digits in decimal notation: one at least, and all of them ASCII. -/
def Digits (digits : List Char) : Prop :=
  digits ≠ [] ∧ ∀ c ∈ digits, c.isDigit = true

/-- A decimal numeral and its value: digits, with at most one sign before them. -/
inductive Denotes : List Char → Int → Prop
  | unsigned {digits : List Char} (given : Digits digits) : Denotes digits (magnitude digits)
  | plus {digits : List Char} (given : Digits digits) : Denotes ('+' :: digits) (magnitude digits)
  | minus {digits : List Char} (given : Digits digits) : Denotes ('-' :: digits) (-magnitude digits)

theorem natural?_eq_some_iff {digits : List Char} {m : Nat} :
    natural? digits = some m ↔ Digits digits ∧ m = magnitude digits := by
  have value : digits.foldl (fun n c => 10 * n + (c.toNat - '0'.toNat)) 0 = magnitude digits := by
    rw [magnitude, Nat.ofDigits_eq_foldr, List.foldr_map, List.foldr_reverse]
    simp [Nat.add_comm]
  rw [natural?, value, Digits, ← List.all_eq_true]
  split
  · rename_i given
    rw [Option.some.injEq, eq_comm, and_iff_right given]
  · rename_i other
    exact iff_of_false (Option.some_ne_none m).symm fun both => other both.1

theorem ofInt?_eq_some_iff {m : Int} {n : Number} : ofInt? m = some n ↔ n.toInt = m := by
  constructor
  · exact toInt_of_ofInt?
  · rintro rfl
    exact ofInt?_toInt n

theorem natural?_bind_eq_some_iff {digits : List Char} {signed : Nat → Int} {n : Number} :
    (natural? digits >>= fun m => ofInt? (signed m)) = some n ↔
      Digits digits ∧ n.toInt = signed (magnitude digits) := by
  simp only [Option.bind_eq_bind, Option.bind_eq_some_iff, natural?_eq_some_iff, ofInt?_eq_some_iff]
  constructor
  · rintro ⟨m, ⟨given, rfl⟩, value⟩
    exact ⟨given, value⟩
  · rintro ⟨given, value⟩
    exact ⟨_, ⟨given, rfl⟩, value⟩

theorem Digits.not_signed {c : Char} {digits : List Char} (given : Digits (c :: digits)) : c ≠ '-' ∧ c ≠ '+' := by
  have digit := given.2 c List.mem_cons_self
  constructor
  · rintro rfl
    cases digit
  · rintro rfl
    cases digit

/-- Reading succeeds on exactly the numerals whose value is a number, and gives that number. -/
theorem read?_eq_some_iff {text : List Char} {n : Number} : read? text = some n ↔ Denotes text n.toInt := by
  unfold read?
  -- Signs are no digits, so a text that begins with one is a numeral of that sign or none at all.
  split
  · rw [natural?_bind_eq_some_iff]
    constructor
    · rintro ⟨given, value⟩
      exact value ▸ .minus given
    · generalize n.toInt = v
      intro denotes
      cases denotes with
      | unsigned given => exact absurd rfl given.not_signed.1
      | minus given => exact ⟨given, rfl⟩
  · rw [natural?_bind_eq_some_iff]
    constructor
    · rintro ⟨given, value⟩
      exact value ▸ .plus given
    · generalize n.toInt = v
      intro denotes
      cases denotes with
      | unsigned given => exact absurd rfl given.not_signed.2
      | plus given => exact ⟨given, rfl⟩
  · rename_i noMinus noPlus
    rw [natural?_bind_eq_some_iff]
    constructor
    · rintro ⟨given, value⟩
      exact value ▸ .unsigned given
    · generalize n.toInt = v
      intro denotes
      cases denotes with
      | unsigned given => exact ⟨given, rfl⟩
      | plus given => exact absurd rfl (noPlus _)
      | minus given => exact absurd rfl (noMinus _)

/-- A value is that of some number if it fits in 64 bits. -/
theorem exists_toInt_iff {v : Int} : (∃ n : Number, n.toInt = v) ↔ -2 ^ 63 ≤ v ∧ v < 2 ^ 63 := by
  constructor
  · rintro ⟨n, rfl⟩
    exact ⟨n.le_toInt, n.toInt_lt⟩
  · rintro ⟨low, high⟩
    exact ⟨Int64.ofInt v, Int64.toInt_ofInt_of_le low high⟩

theorem read?_eq_none_iff {text : List Char} :
    read? text = none ↔ ¬ ∃ v, Denotes text v ∧ -2 ^ 63 ≤ v ∧ v < 2 ^ 63 := by
  rw [← Option.not_isSome_iff_eq_none, Option.isSome_iff_exists]
  refine not_congr ?_
  constructor
  · rintro ⟨n, read⟩
    exact ⟨n.toInt, read?_eq_some_iff.mp read, exists_toInt_iff.mp ⟨n, rfl⟩⟩
  · rintro ⟨v, denotes, fits⟩
    obtain ⟨n, rfl⟩ := exists_toInt_iff.mpr fits
    exact ⟨n, read?_eq_some_iff.mpr denotes⟩

theorem Digits.visible {digits : List Char} (given : Digits digits) : ∀ c ∈ digits, Text.isBlank c = false :=
  fun c member => Text.isBlank_of_isDigit (given.2 c member)

/-- A numeral is one word. -/
theorem Denotes.tight {text : List Char} {v : Int} (denotes : Denotes text v) : Text.Tight (String.ofList text) := by
  rw [Text.Tight, String.toList_ofList]
  cases denotes with
  | unsigned given => exact ⟨given.1, given.visible⟩
  | plus given => exact ⟨List.cons_ne_nil _ _, List.forall_mem_cons.mpr ⟨rfl, given.visible⟩⟩
  | minus given => exact ⟨List.cons_ne_nil _ _, List.forall_mem_cons.mpr ⟨rfl, given.visible⟩⟩

theorem describe_denotes (n : Number) : Denotes n.describe.toList n.toInt :=
  read?_eq_some_iff.mp (read?_describe n)

theorem describe_tight (n : Number) : Text.Tight n.describe := by
  have tight := n.describe_denotes.tight
  rwa [String.ofList_toList] at tight

/-- A number that is not negative begins with a digit when it is written out. -/
theorem describe_numeric {n : Number} (natural : 0 ≤ n) : n.describe.toList.head?.any Text.isNumeric = true := by
  have whole : 0 ≤ n.toInt := Int64.le_iff_toInt_le.mp natural
  obtain ⟨m, value⟩ := Int.eq_ofNat_of_zero_le whole
  obtain ⟨c, rest, begins, digit⟩ := toDigits_begins m
  rw [describe_natural value, begins]
  exact Text.isNumeric_of_isDigit digit

theorem tokens_describe {n : Number} (natural : 0 ≤ n) (name : String) :
    (Source.ofText name n.describe).tokens.result =
      .ok [⟨.number, n.describe, ⟨name, 1⟩⟩, Token.newline ⟨name, 1⟩, Token.eof ⟨name, 1⟩] := by
  have numeric := describe_numeric natural
  have plain : n.describe ≠ "text" := by
    intro same
    rw [same] at numeric
    cases numeric
  have alone : n.describe = "we" → [].head? ≠ some (Text.Word.whole "mean") := fun _ => (Option.some_ne_none _).symm
  have single : Token.ofWords ⟨name, 1⟩ [Text.Word.whole n.describe] = [⟨.number, n.describe, ⟨name, 1⟩⟩] := by
    rw [Token.ofWords_whole _ plain alone, Token.ofWord, Text.Word.kind_of_numeric numeric]
    rfl
  rw [Source.tokens_word name n.describe_tight, single]
  rfl

/-- How a reader of numerals ends: with the number that is written, and with a refusal where none is written or its
value does not fit in 64 bits. -/
structure Reads {β : Type} (written : Int → Prop) (given : Number → β) (refused outcome : β) : Prop where
  succeeds : ∀ n : Number, outcome = given n ↔ written n.toInt
  fails : outcome = refused ↔ ¬ ∃ v, written v ∧ -2 ^ 63 ≤ v ∧ v < 2 ^ 63

theorem reads_read? {β : Type} {text : List Char} {given : Number → β} {refused : β}
    (injective : Function.Injective given) (apart : ∀ n, given n ≠ refused) :
    Reads (Denotes text) given refused ((read? text).elim refused given) where
  succeeds n := by
    rw [← read?_eq_some_iff]
    cases read? text with
    | none => exact iff_of_false (apart n).symm (Option.some_ne_none n).symm
    | some m => rw [Option.elim_some, injective.eq_iff, Option.some.injEq]
  fails := by
    rw [← read?_eq_none_iff]
    cases read? text with
    | none => exact iff_of_true rfl rfl
    | some m => exact iff_of_false (apart m) (Option.some_ne_none m)

theorem run_number (streams : Streams) (text : String) :
    Action.number.run streams [.text text] =
      (read? (Text.trim text.toList)).elim (.error (.wrongType "number" (.text text)), streams)
        fun n => (.ok (.number n), streams) := by
  unfold Action.run Value.toNumber
  dsimp only
  cases read? (Text.trim text.toList) <;> rfl

/-- Turning text into a number accepts the numerals with blanks around them, and gives back a text that it refuses. -/
theorem run_number_reads (text : String) (streams : Streams) :
    Reads (fun v => ∃ core, Text.Trimmed text.toList core ∧ Denotes core v) (fun n => (.ok (.number n), streams))
      (.error (.wrongType "number" (.text text)), streams) (Action.number.run streams [.text text]) := by
  have written (v : Int) :
      (∃ core, Text.Trimmed text.toList core ∧ Denotes core v) ↔ Denotes (Text.trim text.toList) v := by
    simp [Text.trimmed_iff]
  simp only [written]
  rw [run_number]
  refine reads_read? ?_ ?_
  · intro m n same
    cases same
    rfl
  · intro n same
    cases same

theorem run_number_describe (n : Number) (streams : Streams) {before after : List Char}
    (blankBefore : ∀ c ∈ before, Text.isBlank c = true) (blankAfter : ∀ c ∈ after, Text.isBlank c = true) :
    Action.number.run streams [.text (String.ofList (before ++ (n.describe.toList ++ after)))] =
      (.ok (.number n), streams) := by
  obtain ⟨-, visible⟩ := n.describe_tight
  have trimmed : Text.Trimmed (before ++ (n.describe.toList ++ after)) n.describe.toList := by
    refine ⟨⟨before, after, blankBefore, blankAfter, rfl⟩, ?_, ?_⟩
    · exact fun c head => visible c (List.mem_of_mem_head? head)
    · exact fun c last => visible c (List.mem_of_getLast? last)
  refine ((run_number_reads _ streams).succeeds n).mpr ⟨n.describe.toList, ?_, n.describe_denotes⟩
  rwa [String.toList_ofList]

/-- The literals are the numerals as they stand. -/
theorem readAtom_reads (lexeme : String) (span : Span) :
    Reads (Denotes lexeme.toList) (fun n => .ok (.literal (.number n) span.line)) (.error (.invalidNumber span lexeme))
      (Expression.readAtom ⟨.number, lexeme, span⟩) := by
  have read : Expression.readAtom ⟨.number, lexeme, span⟩ =
      (read? lexeme.toList).elim (.error (.invalidNumber span lexeme))
        fun n => .ok (.literal (.number n) span.line) := by
    unfold Expression.readAtom
    dsimp only
    cases read? lexeme.toList <;> rfl
  rw [read]
  refine reads_read? ?_ ?_
  · intro m n same
    cases same
    rfl
  · intro n same
    cases same

/-- Numbers survive being written out. Turned into a number, the text of any number gives it back, whatever blanks are
around it, and so does the literal of one that is not negative. Conversely both readers accept decimal numerals only,
the one after trimming and the other as they are, give what they denote, and refuse those beyond 64 bits. -/
theorem decimal_round_trip :
    (∀ (n : Number) (streams : Streams) (before after : List Char), (∀ c ∈ before, Text.isBlank c = true) →
      (∀ c ∈ after, Text.isBlank c = true) →
        Action.number.run streams [.text (String.ofList (before ++ ((Value.number n).describe.toList ++ after)))] =
          (.ok (.number n), streams)) ∧
    (∀ (n : Number) (name : String), 0 ≤ n → ∃ token,
      (Source.ofText name (Value.number n).describe).tokens.result =
          .ok [token, Token.newline ⟨name, 1⟩, Token.eof ⟨name, 1⟩] ∧ token.kind = .number ∧
        Expression.readAtom token = .ok (.literal (.number n) 1) ∧
        (Value.ofLiteral (.number n)).describe = token.lexeme ∧ token.lexeme = (Value.number n).describe) ∧
    (∀ (text : String) (streams : Streams),
      Reads (fun v => ∃ core, Text.Trimmed text.toList core ∧ Denotes core v) (fun n => (.ok (.number n), streams))
        (.error (.wrongType "number" (.text text)), streams) (Action.number.run streams [.text text])) ∧
    ∀ (lexeme : String) (span : Span),
      Reads (Denotes lexeme.toList) (fun n => .ok (.literal (.number n) span.line))
        (.error (.invalidNumber span lexeme)) (Expression.readAtom ⟨.number, lexeme, span⟩) := by
  refine ⟨?_, ?_, run_number_reads, readAtom_reads⟩
  · intro n streams before after blankBefore blankAfter
    exact run_number_describe n streams blankBefore blankAfter
  · intro n name natural
    have read := ((readAtom_reads n.describe ⟨name, 1⟩).succeeds n).mpr n.describe_denotes
    exact ⟨_, tokens_describe natural name, rfl, read, rfl, rfl⟩

/-- The least number between an ideographic and a no-break space, and the greatest as a literal. -/
theorem decimal_round_trip_at_limits :
    Action.number.run (.ofInput []) [.text "\u3000-9223372036854775808\u00A0"] =
        (.ok (.number Int64.minValue), .ofInput []) ∧
      ∃ token, (Source.ofText "<limit>" "9223372036854775807").tokens.result =
          .ok [token, Token.newline ⟨"<limit>", 1⟩, Token.eof ⟨"<limit>", 1⟩] ∧ token.kind = .number ∧
        Expression.readAtom token = .ok (.literal (.number Int64.maxValue) 1) := by
  have lowest := decimal_round_trip.1 Int64.minValue (.ofInput []) ['\u3000'] ['\u00A0']
    (List.forall_mem_singleton.mpr rfl) (List.forall_mem_singleton.mpr rfl)
  obtain ⟨token, lexed, kind, read, -⟩ := decimal_round_trip.2.1 Int64.maxValue "<limit>" (by decide)
  exact ⟨lowest, token, lexed, kind, read⟩

end Number
end Parlance
