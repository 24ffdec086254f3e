import Parlance.Proofs.Text.Bytes

/-! A text cut after each line feed. Its lines are these segments without what ends them, and whether a segment is cut
short before it is decoded or after makes no difference. -/
namespace Parlance.Text

section Cut

variable {α : Type} [DecidableEq α] {feed ret : α} {line text : List α}

/-- The symbols up to each line feed, that included, and those after the last one, if there are any. -/
def segments (feed : α) : List α → List (List α)
  | [] => []
  | c :: rest =>
    if c = feed then [c] :: segments feed rest
    else match segments feed rest with
      | [] => [[c]]
      | first :: others => (c :: first) :: others

/-- A list without its last symbol, if that is the given one. -/
def chop (symbol : α) (line : List α) : List α :=
  if line.getLast? = some symbol then line.dropLast else line

/-- A segment without the line feed that ends it, and without one carriage return before that. -/
def strip (feed ret : α) (segment : List α) : List α :=
  if segment.getLast? = some feed then chop ret segment.dropLast else segment

theorem flatten_segments (feed : α) (text : List α) : (segments feed text).flatten = text := by
  induction text with
  | nil => rfl
  | cons c rest ih =>
    rw [segments]
    split
    · rw [List.flatten_cons, ih, List.singleton_append]
    · split
      · rename_i ended
        rw [ended] at ih
        rw [← ih]
        rfl
      · rename_i first others further
        rw [further] at ih
        rw [← ih]
        rfl

theorem segments_line (free : feed ∉ line) (rest : List α) :
    segments feed (line ++ feed :: rest) = (line ++ [feed]) :: segments feed rest := by
  induction line with
  | nil => exact if_pos rfl
  | cons c line ih =>
    obtain ⟨other, later⟩ := List.ne_and_not_mem_of_not_mem_cons free
    rw [List.cons_append, segments, if_neg (Ne.symm other), ih later]
    rfl

theorem segments_last (free : feed ∉ line) (spoken : line ≠ []) : segments feed line = [line] := by
  induction line with
  | nil => exact absurd rfl spoken
  | cons c line ih =>
    obtain ⟨other, later⟩ := List.ne_and_not_mem_of_not_mem_cons free
    rw [segments, if_neg (Ne.symm other)]
    cases line with
    | nil => rfl
    | cons d line => rw [ih later (List.cons_ne_nil d line)]

theorem chop_concat (symbol : α) (line : List α) : chop symbol (line ++ [symbol]) = line := by
  rw [chop, List.getLast?_concat, if_pos rfl, List.dropLast_concat]

theorem strip_concat (line : List α) : strip feed ret (line ++ [feed]) = chop ret line := by
  rw [strip, List.getLast?_concat, if_pos rfl, List.dropLast_concat]

theorem strip_last (free : feed ∉ line) : strip feed ret line = line :=
  if_neg fun last => free (List.mem_of_getLast? last)

/-- What stripping takes away. -/
theorem strip_ending (feed ret : α) (segment : List α) :
    ∃ ending, segment = strip feed ret segment ++ ending ∧ (ending = [] ∨ ending = [feed] ∨ ending = [ret, feed]) := by
  by_cases fed : segment.getLast? = some feed
  · obtain ⟨line, rfl⟩ := List.getLast?_eq_some_iff.mp fed
    rw [strip_concat]
    by_cases returned : line.getLast? = some ret
    · obtain ⟨body, rfl⟩ := List.getLast?_eq_some_iff.mp returned
      rw [chop_concat]
      exact ⟨[ret, feed], List.append_assoc .., .inr (.inr rfl)⟩
    · rw [chop, if_neg returned]
      exact ⟨[feed], rfl, .inr (.inl rfl)⟩
  · rw [strip, if_neg fed]
    exact ⟨[], (List.append_nil _).symm, .inl rfl⟩

theorem splitLinesFrom_segments {seen : List α} (free : feed ∉ seen) (text : List α) :
    splitLinesFrom feed ret seen text = (segments feed (seen.reverse ++ text)).map (strip feed ret) := by
  induction text generalizing seen with
  | nil =>
    rw [splitLinesFrom, List.append_nil]
    cases seen with
    | nil => rfl
    | cons c older =>
      have freed : feed ∉ (c :: older).reverse := fun inside => free (List.mem_reverse.mp inside)
      rw [segments_last freed (by simp), List.map_singleton, strip_last freed]
      rfl
  | cons c rest ih =>
    rw [splitLinesFrom]
    split
    · rename_i same
      subst same
      have freed : c ∉ seen.reverse := fun inside => free (List.mem_reverse.mp inside)
      rw [segments_line freed, List.map_cons, strip_concat, ih List.not_mem_nil]
      congr 1
      rw [chop, List.getLast?_reverse]
      split
      · rw [List.dropLast_reverse]
      · rfl
    · rename_i other
      have longer : feed ∉ c :: seen := List.not_mem_cons_of_ne_of_not_mem (Ne.symm other) free
      rw [ih longer, List.reverse_cons, List.append_assoc, List.singleton_append]

theorem splitLines_segments (feed ret : α) (text : List α) :
    splitLines feed ret text = (segments feed text).map (strip feed ret) :=
  splitLinesFrom_segments List.not_mem_nil text

/-- A segment that another one follows ends with a line feed. -/
theorem segments_cons_cons {first second : List α} {more : List (List α)}
    (cut : segments feed text = first :: second :: more) :
    ∃ line rest, feed ∉ line ∧ first = line ++ [feed] ∧ segments feed rest = second :: more := by
  by_cases fed : feed ∈ text
  · obtain ⟨line, rest, rfl, free⟩ := List.eq_append_cons_of_mem fed
    rw [segments_line free] at cut
    obtain ⟨rfl, further⟩ := List.cons_eq_cons.mp cut
    exact ⟨line, rest, free, rfl, further⟩
  · cases text with
    | nil => cases cut
    | cons c text =>
      rw [segments_last fed (List.cons_ne_nil c text)] at cut
      cases cut

/-- The segments before another one are those of a text of their own. -/
theorem segments_flatten_front {before after : List (List α)} {next : List α}
    (cut : segments feed text = before ++ next :: after) : segments feed before.flatten = before := by
  induction before generalizing text with
  | nil => rfl
  | cons first before ih =>
    obtain ⟨second, more, follows⟩ : ∃ second more, before ++ next :: after = second :: more := by
      cases before with
      | nil => exact ⟨_, _, rfl⟩
      | cons second before => exact ⟨_, _, rfl⟩
    rw [List.cons_append, follows] at cut
    obtain ⟨line, rest, free, rfl, further⟩ := segments_cons_cons cut
    rw [List.flatten_cons, List.append_assoc, List.singleton_append, segments_line free, ih (further.trans follows.symm)]

end Cut

section Decode

/-- The text that the bytes encode, if they do. -/
def decode? (bytes : List UInt8) : Option String :=
  String.fromUTF8? ⟨bytes.toArray⟩

theorem decode?_eq_some {bytes : List UInt8} {text : String} :
    decode? bytes = some text ↔ encode text.toList = bytes := by
  constructor
  · exact encode_of_fromUTF8?
  · rintro rfl
    rw [decode?, decode_encode, String.ofList_toList]

theorem isSome_decode? {bytes : List UInt8} : (decode? bytes).isSome ↔ ∃ text, encode text = bytes := by
  rw [Option.isSome_iff_exists]
  constructor
  · rintro ⟨text, decoded⟩
    exact ⟨text.toList, decode?_eq_some.mp decoded⟩
  · rintro ⟨text, rfl⟩
    exact ⟨_, decode_encode text⟩

/-- What is put together from texts is a text. -/
theorem isSome_decode?_flatten {segments : List (List UInt8)} (given : ∀ segment ∈ segments, (decode? segment).isSome) :
    (decode? segments.flatten).isSome := by
  induction segments with
  | nil => exact isSome_decode?.mpr ⟨[], rfl⟩
  | cons segment rest ih =>
    obtain ⟨here, later⟩ := List.forall_mem_cons.mp given
    obtain ⟨front, rfl⟩ := isSome_decode?.mp here
    obtain ⟨back, same⟩ := isSome_decode?.mp (ih later)
    exact isSome_decode?.mpr ⟨front ++ back, by rw [encode_append, same, List.flatten_cons]⟩

section Ascii

variable {d : Char} {b : UInt8} (code : String.utf8EncodeChar d = [b])
include code

theorem encode_concat (front : List Char) : encode (front ++ [d]) = encode front ++ [b] := by
  rw [encode_append, encode_cons, code]
  rfl

/-- A text ends with an ASCII character if its bytes end with that character's. -/
theorem getLast?_of_encode (small : b.toNat < 128) {text : List Char} (last : (encode text).getLast? = some b) :
    text.getLast? = some d := by
  have value : d.toNat = b.toNat := mem_utf8EncodeChar (code ▸ List.mem_singleton_self b) small
  cases ends : text.getLast? with
  | none =>
    rw [List.getLast?_eq_none_iff.mp ends] at last
    cases last
  | some c =>
    obtain ⟨front, rfl⟩ := List.getLast?_eq_some_iff.mp ends
    have nonempty : (encode [c]).getLast?.isSome := by simp [encode]
    rw [encode_append, List.getLast?_append, Option.or_of_isSome nonempty, encode, List.flatMap_singleton] at last
    have same : c = d := eq_of_mem_encoding (by omega) value.symm (List.mem_of_getLast? last)
    rw [same]

theorem encode_chop (small : b.toNat < 128) (text : List Char) : chop b (encode text) = encode (chop d text) := by
  by_cases last : text.getLast? = some d
  · obtain ⟨front, rfl⟩ := List.getLast?_eq_some_iff.mp last
    rw [encode_concat code, chop_concat, chop_concat]
  · rw [chop, if_neg (last ∘ getLast?_of_encode code small), chop, if_neg last]

end Ascii

theorem encode_strip (text : List Char) : strip 10 13 (encode text) = encode (strip '\n' '\r' text) := by
  by_cases last : text.getLast? = some '\n'
  · obtain ⟨front, rfl⟩ := List.getLast?_eq_some_iff.mp last
    have feed : String.utf8EncodeChar '\n' = [10] := rfl
    rw [encode_concat feed, strip_concat, strip_concat]
    exact encode_chop rfl (by decide) front
  · have other : (encode text).getLast? ≠ some 10 := last ∘ getLast?_of_encode rfl (by decide)
    rw [strip, if_neg other, strip, if_neg last]

/-- A segment may be stripped before it is decoded, or after. -/
theorem decode?_strip (segment : List UInt8) :
    decode? (strip 10 13 segment) =
      (decode? segment).map fun text => String.ofList (strip '\n' '\r' text.toList) := by
  cases decoded : decode? segment with
  | some text =>
    rw [← decode?_eq_some.mp decoded, encode_strip]
    exact decode_encode _
  | none =>
    cases stripped : decode? (strip 10 13 segment) with
    | none => rfl
    | some text =>
      -- Then the segment would be a text too, for what was taken away is one.
      obtain ⟨ending, whole, possible⟩ := strip_ending 10 13 segment
      have ended : ∃ last, encode last = ending := by
        rcases possible with rfl | rfl | rfl
        · exact ⟨[], rfl⟩
        · exact ⟨['\n'], rfl⟩
        · exact ⟨['\r', '\n'], rfl⟩
      obtain ⟨last, rfl⟩ := ended
      rw [← decode?_eq_some.mp stripped, ← encode_append] at whole
      have valid : (decode? segment).isSome := isSome_decode?.mpr ⟨_, whole.symm⟩
      rw [decoded] at valid
      cases valid

end Decode

end Parlance.Text
