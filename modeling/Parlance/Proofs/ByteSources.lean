import Parlance.Program
import Parlance.Proofs.Text.Segments
import Parlance.Proofs.Token.Indentation

/-! Sources in memory and sources of bytes. Bytes that are a text give the text's lines, whatever ends those. Of other
bytes some segment is no text; the first such is as far as lexing comes, if no error is found before it. -/
namespace Parlance

namespace RawLine

/-- The line that a segment of bytes gives: it is decoded with what ends it. -/
def ofSegment (segment : List UInt8) : RawLine :=
  (Text.decode? segment).map fun text => String.ofList (Text.strip '\n' '\r' text.toList)

theorem isSome_ofSegment (segment : List UInt8) : (ofSegment segment).isSome = (Text.decode? segment).isSome :=
  Option.isSome_map

theorem ofBytes_segments (bytes : ByteArray) :
    ofBytes bytes = (Text.segments 10 bytes.data.toList).map ofSegment := by
  rw [ofBytes, Text.splitLines_segments, List.map_map]
  exact List.map_congr_left fun segment _ => Text.decode?_strip segment

theorem ofText_segments (text : String) :
    ofText text =
      (Text.segments '\n' text.toList).map fun segment => some (String.ofList (Text.strip '\n' '\r' segment)) := by
  rw [ofText, Text.splitLines_segments, List.map_map]
  rfl

/-- The lines of a text are those of its bytes. -/
theorem ofBytes_of_fromUTF8? {bytes : ByteArray} {text : String} (decoded : String.fromUTF8? bytes = some text) :
    ofBytes bytes = ofText text := by
  have encoded : Text.encode text.toList = bytes.data.toList := Text.encode_of_fromUTF8? decoded
  have same : bytes = text.toUTF8 := by
    rw [Text.encode_toList] at encoded
    exact ByteArray.ext (Array.toList_inj.mp encoded.symm)
  rw [same, ofBytes_toUTF8]

end RawLine

/-- The first of the segments that is no text, with those before and after it. -/
structure FirstGarbled (bytes : ByteArray) (before : List (List UInt8)) (bad : List UInt8)
    (after : List (List UInt8)) : Prop where
  cut : Text.segments 10 bytes.data.toList = before ++ bad :: after
  sound : ∀ segment ∈ before, (Text.decode? segment).isSome
  garbled : Text.decode? bad = none

namespace FirstGarbled

variable {bytes : ByteArray} {before after : List (List UInt8)} {bad : List UInt8}

/-- Bytes are a text if all their segments are. -/
theorem fromUTF8?_eq_none_iff (bytes : ByteArray) :
    String.fromUTF8? bytes = none ↔ ∃ before bad after, FirstGarbled bytes before bad after := by
  constructor
  · intro garbled
    cases found : (Text.segments 10 bytes.data.toList).find? fun segment => (Text.decode? segment).isNone with
    | some bad =>
      obtain ⟨noText, before, after, cut, sound⟩ := List.find?_eq_some_iff_append.mp found
      refine ⟨before, bad, after, cut, ?_, Option.isNone_iff_eq_none.mp noText⟩
      intro segment member
      simpa using sound segment member
    | none =>
      have sound : ∀ segment ∈ Text.segments 10 bytes.data.toList, (Text.decode? segment).isSome := by
        simpa [Option.isSome_iff_ne_none] using List.find?_eq_none.mp found
      have whole := Text.isSome_decode?_flatten sound
      rw [Text.flatten_segments] at whole
      exact absurd whole (by simp [Text.decode?, garbled])
  · rintro ⟨before, bad, after, cut, -, garbled⟩
    cases decoded : String.fromUTF8? bytes with
    | none => rfl
    | some text =>
      have lines := (RawLine.ofBytes_segments bytes).symm.trans (RawLine.ofBytes_of_fromUTF8? decoded)
      have member : RawLine.ofSegment bad ∈ RawLine.ofText text := by
        rw [← lines, cut]
        exact List.mem_map_of_mem (List.mem_append_right _ List.mem_cons_self)
      obtain ⟨line, -, same⟩ := List.mem_map.mp member
      have isLine : (Text.decode? bad).isSome := by rw [← RawLine.isSome_ofSegment, ← same, Option.isSome_some]
      rw [garbled] at isLine
      cases isLine

/-- The lines before it are those of a source of their own. -/
theorem ofBytes (first : FirstGarbled bytes before bad after) :
    RawLine.ofBytes bytes =
      RawLine.ofBytes ⟨before.flatten.toArray⟩ ++ none :: after.map RawLine.ofSegment := by
  have front : Text.segments 10 before.flatten = before := Text.segments_flatten_front first.cut
  rw [RawLine.ofBytes_segments, RawLine.ofBytes_segments, first.cut, front, List.map_append, List.map_cons,
    RawLine.ofSegment, first.garbled]
  rfl

end FirstGarbled

/-- A line that cannot be read ends the lexing, unless a line before it does. -/
theorem Layout.lines_garbled (name : String) (front rest : List RawLine) (count : Nat) (layout : Layout) :
    (lines name count layout (front ++ none :: rest)).result =
      (lines name count layout front).result.bind fun _ => .error (.unreadable name .garbled) := by
  induction front generalizing count layout with
  | nil => simp [lines, move_result, Except.bind]
  | cons line front ih =>
    cases line with
    | none => rfl
    | some text =>
      rw [List.cons_append, lines, lines, Traced.result_bind, Traced.result_bind]
      cases (layout.line ⟨name, count + 1⟩ text.toList).result with
      | error error => rfl
      | ok placed =>
        simp only [Except.bind, Traced.result_map]
        rw [ih]
        cases (lines name (count + 1) placed.1 front).result <;> rfl

theorem Source.bytes_read_as_text (name : String) (bytes : ByteArray) :
    -- The lines of bytes are segments that are decoded each on its own, those of a text segments of it.
    (Source.ofBytes name bytes).lines = (Text.segments 10 bytes.data.toList).map RawLine.ofSegment ∧
      (∀ text, (Source.ofText name text).lines =
        (Text.segments '\n' text.toList).map fun segment => some (String.ofList (Text.strip '\n' '\r' segment))) ∧
    -- If the bytes are a text, these are the same lines, and all that is made of them is the same.
    (∀ text, String.fromUTF8? bytes = some text →
      (Source.ofBytes name bytes).lines = (Source.ofText name text).lines ∧
        (Source.ofBytes name bytes).tokens = (Source.ofText name text).tokens ∧
        (Source.ofBytes name bytes).program = (Source.ofText name text).program ∧
        ∀ (session : Session) (fuel : Nat),
          session.execute fuel (Source.ofBytes name bytes) = session.execute fuel (Source.ofText name text)) ∧
    -- If not, a first segment is no text, and the lines before it and this alone decide on the error.
    (String.fromUTF8? bytes = none ↔ ∃ before bad after, FirstGarbled bytes before bad after) ∧
    ∀ before bad after, FirstGarbled bytes before bad after →
      (∀ error, (Source.ofBytes name ⟨before.flatten.toArray⟩).tokens.result = .error error →
        (Source.ofBytes name bytes).tokens.result = .error error) ∧
      ∀ tokens, (Source.ofBytes name ⟨before.flatten.toArray⟩).tokens.result = .ok tokens →
        (Source.ofBytes name bytes).tokens.result = .error (.unreadable name .garbled) := by
  refine ⟨RawLine.ofBytes_segments bytes, RawLine.ofText_segments, ?_, FirstGarbled.fromUTF8?_eq_none_iff bytes, ?_⟩
  · intro text decoded
    have same : Source.ofBytes name bytes = Source.ofText name text :=
      congrArg (Source.mk name) (RawLine.ofBytes_of_fromUTF8? decoded)
    rw [same]
    exact ⟨rfl, rfl, rfl, fun session fuel => rfl⟩
  · intro before bad after first
    have reads : (Source.ofBytes name bytes).tokens.result =
        (Source.ofBytes name ⟨before.flatten.toArray⟩).tokens.result.bind fun _ => .error (.unreadable name .garbled) := by
      rw [tokens_lines, tokens_lines, Source.ofBytes, first.ofBytes]
      exact Layout.lines_garbled name _ _ 0 .start
    rw [reads]
    constructor
    · intro error failed
      rw [failed]
      rfl
    · intro tokens lexed
      rw [lexed]
      rfl

/-- A line that is no text hides neither an error before it nor itself. -/
theorem Source.bytes_read_as_text_garbled :
    (Source.ofBytes "notes" ⟨#[97, 13, 10, 195, 10, 98]⟩).tokens.result = .error (.unreadable "notes" .garbled) ∧
      (Source.ofBytes "notes" ⟨#[32, 9, 97, 10, 195, 10]⟩).tokens.result = .error (.mixedIndentation ⟨"notes", 1⟩) := by
  have second : FirstGarbled ⟨#[97, 13, 10, 195, 10, 98]⟩ [[97, 13, 10]] [195, 10] [[98]] :=
    ⟨by decide, by decide +kernel, by decide +kernel⟩
  have later : FirstGarbled ⟨#[32, 9, 97, 10, 195, 10]⟩ [[32, 9, 97, 10]] [195, 10] [] :=
    ⟨by decide, by decide +kernel, by decide +kernel⟩
  obtain ⟨-, -, -, -, decides⟩ := bytes_read_as_text "notes" ⟨#[97, 13, 10, 195, 10, 98]⟩
  obtain ⟨-, -, -, -, decidesToo⟩ := bytes_read_as_text "notes" ⟨#[32, 9, 97, 10, 195, 10]⟩
  exact ⟨(decides _ _ _ second).2 _ rfl, (decidesToo _ _ _ later).1 _ rfl⟩

end Parlance
