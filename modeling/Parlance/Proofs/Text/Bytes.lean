import Parlance.Proofs.Text.Words

/-! The lines of a text and those of its bytes. A byte below 128 stands for a character and is in no longer encoding, so the
bytes of a text are cut where the text is, and each line decodes to what it was. -/
namespace Parlance

namespace Text

/-- The bytes of a text. -/
def encode (text : List Char) : List UInt8 :=
  text.flatMap String.utf8EncodeChar

theorem encode_cons (c : Char) (rest : List Char) : encode (c :: rest) = String.utf8EncodeChar c ++ encode rest :=
  rfl

theorem encode_append (front back : List Char) : encode (front ++ back) = encode front ++ encode back :=
  List.flatMap_append

/-- Only the encoding of an ASCII character has a byte below 128. -/
theorem mem_utf8EncodeChar {c : Char} {b : UInt8} (inside : b ∈ String.utf8EncodeChar c) (small : b.toNat < 128) :
    c.toNat = b.toNat := by
  have size : c.val.toNat = c.toNat := rfl
  unfold String.utf8EncodeChar at inside
  dsimp only at inside
  repeat' split at inside
  all_goals
    simp only [List.mem_cons, List.not_mem_nil, or_false] at inside
  · subst inside
    simp only [UInt8.toNat_ofNat']
    omega
  all_goals
    exfalso
    rcases inside with rfl | rfl | rfl | rfl <;> simp only [UInt8.toNat_ofNat'] at small <;> omega

theorem eq_of_mem_encoding {c d : Char} (ascii : d.toNat < 128) {b : UInt8} (code : b.toNat = d.toNat)
    (inside : b ∈ String.utf8EncodeChar c) : c = d := by
  have same := mem_utf8EncodeChar inside (by omega)
  exact Char.toNat_inj.mp (same.trans code)

/-- What is left of a line when it is cut off, its symbols in reverse. -/
theorem encode_dropReturn (seen : List Char) :
    (if (encode seen.reverse).reverse.head? = some 13 then (encode seen.reverse).reverse.tail
      else (encode seen.reverse).reverse).reverse =
      encode (if seen.head? = some '\r' then seen.tail else seen).reverse := by
  cases seen with
  | nil => rfl
  | cons c older =>
    have bytes : (encode (c :: older).reverse).reverse = (encode [c]).reverse ++ (encode older.reverse).reverse := by
      rw [List.reverse_cons, encode_append, List.reverse_append]
    by_cases ret : c = '\r'
    · subst ret
      have code : (encode ['\r']).reverse = [13] := rfl
      rw [bytes, code]
      simp
    · have kept : (c :: older).head? ≠ some '\r' := by simpa using ret
      have other : (encode (c :: older).reverse).reverse.head? ≠ some 13 := by
        intro first
        have nonempty : (encode [c]).reverse ≠ [] := by simp [encode]
        rw [bytes, List.head?_append, Option.or_of_isSome (List.isSome_head?.mpr nonempty)] at first
        have inside : (13 : UInt8) ∈ encode [c] := List.mem_reverse.mp (List.mem_of_mem_head? first)
        rw [encode_cons, encode, List.flatMap_nil, List.append_nil] at inside
        exact ret (eq_of_mem_encoding (by decide) rfl inside)
      rw [if_neg other, if_neg kept, List.reverse_reverse]

/-- The bytes of a text are cut where the text is. -/
theorem splitLinesFrom_encode (seen text : List Char) :
    splitLinesFrom 10 13 (encode seen.reverse).reverse (encode text) =
      (splitLinesFrom '\n' '\r' seen text).map encode := by
  induction text generalizing seen with
  | nil =>
    cases seen with
    | nil => rfl
    | cons c older => simp [splitLinesFrom, encode]
  | cons c rest ih =>
    rw [encode_cons]
    by_cases feed : c = '\n'
    · subst feed
      have code : String.utf8EncodeChar '\n' = [10] := rfl
      rw [code, List.singleton_append, splitLinesFrom, if_pos rfl, splitLinesFrom, if_pos rfl, encode_dropReturn,
        List.map_cons]
      exact congrArg (_ :: ·) (ih [])
    · have whole : (10 : UInt8) ∉ String.utf8EncodeChar c :=
        fun inside => feed (eq_of_mem_encoding (by decide) rfl inside)
      rw [splitLinesFrom_line whole, splitLinesFrom, if_neg feed, ← ih (c :: seen)]
      simp [encode]

theorem encode_toList (text : String) : encode text.toList = text.toUTF8.data.toList := by
  have bytes : text.toByteArray = text.toList.utf8Encode := by
    rw [← String.toByteArray_ofList, String.ofList_toList]
  rw [String.toUTF8_eq_toByteArray, bytes]
  exact List.toList_data_toByteArray.symm

theorem decode_encode (line : List Char) : String.fromUTF8? ⟨(encode line).toArray⟩ = some (String.ofList line) := by
  have bytes : (⟨(encode line).toArray⟩ : ByteArray) = (String.ofList line).toByteArray := by
    rw [String.toByteArray_ofList]
    exact ByteArray.ext List.data_toByteArray.symm
  rw [bytes, String.fromUTF8?, dif_pos (String.ofList line).isValidUTF8]
  rfl

theorem encode_of_fromUTF8? {bytes : List UInt8} {text : String}
    (decoded : String.fromUTF8? ⟨bytes.toArray⟩ = some text) : encode text.toList = bytes := by
  have same : text.toByteArray = ⟨bytes.toArray⟩ := by
    unfold String.fromUTF8? at decoded
    split at decoded
    · cases decoded
      rfl
    · cases decoded
  rw [encode_toList, String.toUTF8_eq_toByteArray, same]

end Text

namespace RawLine

/-- A text has the same lines, read from memory or from its bytes. -/
theorem ofBytes_toUTF8 (text : String) : ofBytes text.toUTF8 = ofText text := by
  have cut := Text.splitLinesFrom_encode [] text.toList
  rw [Text.encode_toList] at cut
  rw [ofBytes, ofText, Text.splitLines, Text.splitLines]
  refine (congrArg (List.map fun line => String.fromUTF8? ⟨line.toArray⟩) cut).trans ?_
  rw [List.map_map]
  exact List.map_congr_left fun line _ => Text.decode_encode line

end RawLine
end Parlance
