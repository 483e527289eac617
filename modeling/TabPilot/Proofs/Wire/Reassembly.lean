import Mathlib.Data.List.Basic
import TabPilot.Proofs.Value.JsonText
import TabPilot.Wire.Framing

set_option autoImplicit false

/-! # Messages do not depend on how their bytes arrive

`Whole` reads a stream at one go: it splits all of it at the delimiters, leaves out empty frames,
decodes the others and stops at the first that is not JSON. A reader that is fed the same bytes
in pieces says the same at the end, wherever the pieces are cut. And since JSON text holds no zero
byte, what was written message by message is read back message by message.
-/

namespace TabPilot.Wire

/-! ## A whole stream -/

def failureOf? : Except Error Value → Option Error
  | .error e => some e
  | .ok _ => none

/-- The messages before the first frame that could not be decoded. -/
def delivered (readings : List (Except Error Value)) : List Value :=
  (readings.takeWhile Except.isOk).filterMap Except.toOption

/-- Why the first frame that could not be decoded could not. -/
def firstFailure? (readings : List (Except Error Value)) : Option Error :=
  readings.findSome? failureOf?

section

variable (v : Value) (e : Error) (readings : List (Except Error Value))

@[simp]
theorem delivered_nil : delivered [] = [] := rfl

@[simp]
theorem delivered_ok : delivered (.ok v :: readings) = v :: delivered readings := rfl

@[simp]
theorem delivered_error : delivered (.error e :: readings) = [] := rfl

@[simp]
theorem firstFailure?_nil : firstFailure? [] = none := rfl

@[simp]
theorem firstFailure?_ok : firstFailure? (.ok v :: readings) = firstFailure? readings := rfl

@[simp]
theorem firstFailure?_error : firstFailure? (.error e :: readings) = some e := rfl

end

namespace Whole

/-- The frames of a stream: what stands before each delimiter. -/
def frames (stream : List UInt8) : List (List UInt8) := (stream.splitOn delimiter).dropLast

/-- What stands after the last delimiter. -/
def leftover (stream : List UInt8) : List UInt8 := (stream.splitOn delimiter).getLastD []

/-- What each frame that is not empty is decoded to. -/
def readings (stream : List UInt8) : List (Except Error Value) :=
  ((frames stream).filter (· ≠ [])).map decode

def messages (stream : List UInt8) : List Value := delivered (readings stream)

/-- Why reading a stream comes to an end before its last byte, if it does. -/
def failure? (stream : List UInt8) : Option Error := firstFailure? (readings stream)

/-- The warning about the bytes after the last delimiter. -/
def warning? (stream : List UInt8) : Option String :=
  if failure? stream = none ∧ leftover stream ≠ [] then
    some s!"Pipe closed with {(leftover stream).length} bytes of unterminated message"
  else none

end Whole

open Whole

/-! ## Splitting at delimiters -/

theorem frames_of_not_mem {bytes : List UInt8} (h : delimiter ∉ bytes) : frames bytes = [] := by
  simp [frames, List.splitOn_eq_singleton h]

theorem leftover_of_not_mem {bytes : List UInt8} (h : delimiter ∉ bytes) :
    leftover bytes = bytes := by
  simp [leftover, List.splitOn_eq_singleton h]

theorem frames_frame {frame : List UInt8} (h : delimiter ∉ frame) (rest : List UInt8) :
    frames (frame ++ delimiter :: rest) = frame :: frames rest := by
  rw [frames, List.splitOn_append_cons_self_of_not_mem h, frames,
    List.dropLast_cons_of_ne_nil (List.splitOn_ne_nil _ _)]

theorem leftover_frame {frame : List UInt8} (h : delimiter ∉ frame) (rest : List UInt8) :
    leftover (frame ++ delimiter :: rest) = leftover rest := by
  obtain ⟨first, others, hsplit⟩ := List.exists_cons_of_ne_nil (List.splitOn_ne_nil delimiter rest)
  simp [leftover, List.splitOn_append_cons_self_of_not_mem h, hsplit]

/-- Bytes are a frame with its delimiter and more bytes, or they hold no delimiter. -/
theorem frame_induction {P : List UInt8 → Prop} (last : ∀ bytes, delimiter ∉ bytes → P bytes)
    (frame : ∀ frame rest, delimiter ∉ frame → P rest → P (frame ++ delimiter :: rest))
    (bytes : List UInt8) : P bytes := by
  by_cases h : delimiter ∈ bytes
  · obtain ⟨first, rest, hbytes, hfirst⟩ := List.eq_append_cons_of_mem h
    rw [hbytes]
    have shorter : rest.length < bytes.length := by simp [hbytes]; omega
    exact frame first rest hfirst (frame_induction last frame rest)
  · exact last bytes h
  termination_by bytes.length

theorem frames_append (first second : List UInt8) :
    frames (first ++ second) = frames first ++ frames (leftover first ++ second) := by
  induction first using frame_induction with
  | last bytes h => rw [frames_of_not_mem h, leftover_of_not_mem h, List.nil_append]
  | frame frame rest h ih =>
      rw [List.append_assoc, List.cons_append, frames_frame h, frames_frame h, leftover_frame h,
        ih, List.cons_append]

theorem leftover_append (first second : List UInt8) :
    leftover (first ++ second) = leftover (leftover first ++ second) := by
  induction first using frame_induction with
  | last bytes h => rw [leftover_of_not_mem h]
  | frame frame rest h ih =>
      rw [List.append_assoc, List.cons_append, leftover_frame h, leftover_frame h, ih]

theorem readings_append (first second : List UInt8) :
    readings (first ++ second) = readings first ++ readings (leftover first ++ second) := by
  rw [readings, frames_append, List.filter_append, List.map_append, readings, readings]

theorem takeWhile_frame {frame : List UInt8} (h : delimiter ∉ frame) (next : List UInt8) :
    (frame ++ next).takeWhile (· ≠ delimiter) = frame ++ next.takeWhile (· ≠ delimiter) := by
  refine List.takeWhile_append_of_pos fun b hb => ?_
  exact decide_eq_true fun heq => h (heq ▸ hb)

theorem framing_split_of_not_mem {bytes : List UInt8} (h : delimiter ∉ bytes) :
    Framing.split bytes = ([], bytes) := by
  have hframe : bytes.takeWhile (· ≠ delimiter) = bytes := by
    have happend := takeWhile_frame h []
    rwa [List.append_nil, List.takeWhile_nil, List.append_nil] at happend
  rw [Framing.split]
  split
  · rw [hframe]
  · next tail =>
      rw [hframe, List.drop_length] at tail
      cases tail

theorem framing_split_frame {frame : List UInt8} (h : delimiter ∉ frame) (rest : List UInt8) :
    Framing.split (frame ++ delimiter :: rest) =
      (frame :: (Framing.split rest).1, (Framing.split rest).2) := by
  have hframe : (frame ++ delimiter :: rest).takeWhile (· ≠ delimiter) = frame := by
    rw [takeWhile_frame h, List.takeWhile_cons_of_neg (by simp), List.append_nil]
  rw [Framing.split]
  split
  · next tail =>
      rw [hframe, List.drop_left] at tail
      cases tail
  · next tail =>
      rw [hframe, List.drop_left] at tail
      obtain ⟨-, rfl⟩ := List.cons.inj tail
      rw [hframe]

/-- The reader splits as a whole stream is split. -/
theorem framing_split_eq (bytes : List UInt8) :
    Framing.split bytes = (frames bytes, leftover bytes) := by
  induction bytes using frame_induction with
  | last bytes h =>
      rw [framing_split_of_not_mem h, frames_of_not_mem h, leftover_of_not_mem h]
  | frame frame rest h ih =>
      rw [framing_split_frame h, ih, frames_frame h, leftover_frame h]

/-! ## Decoding frame after frame -/

theorem decodeAll_eq (fs : List (List UInt8)) :
    Framing.decodeAll fs =
      (delivered ((fs.filter (· ≠ [])).map decode),
        firstFailure? ((fs.filter (· ≠ [])).map decode)) := by
  induction fs with
  | nil => rfl
  | cons frame rest ih =>
      rw [Framing.decodeAll]
      cases frame with
      | nil => simpa using ih
      | cons b bs =>
          cases hdecode : decode (b :: bs) with
          | error e => simp [hdecode]
          | ok v => simp [hdecode, ih]

/-- A failure is the last thing that reading takes note of. -/
theorem delivered_append_of_failure {rs : List (Except Error Value)} {e : Error}
    (h : firstFailure? rs = some e) (more : List (Except Error Value)) :
    delivered (rs ++ more) = delivered rs ∧ firstFailure? (rs ++ more) = some e := by
  induction rs with
  | nil => cases h
  | cons r rs ih =>
      cases r with
      | error e' => exact ⟨rfl, h⟩
      | ok v => simpa using ih (by simpa using h)

/-- As long as nothing failed reading goes on. -/
theorem delivered_append_of_no_failure {rs : List (Except Error Value)}
    (h : firstFailure? rs = none) (more : List (Except Error Value)) :
    delivered (rs ++ more) = delivered rs ++ delivered more ∧
      firstFailure? (rs ++ more) = firstFailure? more := by
  induction rs with
  | nil => exact ⟨rfl, rfl⟩
  | cons r rs ih =>
      cases r with
      | error e => cases h
      | ok v => simpa using ih (by simpa using h)

/-! ## The reader follows the stream -/

/-- Where a reader stands after some bytes of a stream: it delivered what reading these at one go
delivers, and it holds on to the bytes after the last delimiter unless it gave up. -/
structure Framing.Follows (reader : Framing) (seen : List UInt8) (said : List Value) : Prop where
  said : said = messages seen
  failure : reader.failure = failure? seen
  pending : failure? seen = none → reader.pending = leftover seen

theorem Framing.Follows.start : start.Follows [] [] := ⟨rfl, rfl, fun _ => rfl⟩

theorem Framing.Follows.feed {reader : Framing} {seen : List UInt8} {said : List Value}
    (h : reader.Follows seen said) (piece : List UInt8) :
    (reader.feed piece).1.Follows (seen ++ piece) (said ++ (reader.feed piece).2) := by
  -- After a failure the reader takes no more; before one it reads on from what was left over.
  cases hfailure : failure? seen with
  | some e =>
      obtain ⟨hmessages, hstill⟩ :=
        delivered_append_of_failure hfailure (readings (leftover seen ++ piece))
      rw [← readings_append] at hmessages hstill
      have hfeed : reader.feed piece = (reader, []) := by
        rw [Framing.feed, h.failure, hfailure, Option.isSome_some, if_pos rfl]
      rw [hfeed, List.append_nil]
      exact
        { said := h.said.trans hmessages.symm
          failure := by rw [h.failure, hfailure, failure?, hstill]
          pending := by simp [failure?, hstill] }
  | none =>
      obtain ⟨hmessages, hnext⟩ :=
        delivered_append_of_no_failure hfailure (readings (leftover seen ++ piece))
      rw [← readings_append] at hmessages hnext
      have hfeed : reader.feed piece =
          (⟨leftover (leftover seen ++ piece), failure? (leftover seen ++ piece)⟩,
            messages (leftover seen ++ piece)) := by
        rw [Framing.feed, h.failure, hfailure, h.pending hfailure, framing_split_eq]
        simp only [Option.isSome_none, Bool.false_eq_true, if_false, decodeAll_eq]
        rfl
      rw [hfeed]
      exact
        { said := by rw [h.said, messages, messages, messages, hmessages]
          failure := hnext.symm
          pending := fun _ => (leftover_append seen piece).symm }

theorem Framing.Follows.feedAll {reader : Framing} {seen : List UInt8} {said : List Value}
    (h : reader.Follows seen said) (pieces : List (List UInt8)) :
    (reader.feedAll pieces).1.Follows (seen ++ pieces.flatten)
      (said ++ (reader.feedAll pieces).2) := by
  induction pieces generalizing reader seen said with
  | nil => simpa [Framing.feedAll] using h
  | cons piece rest ih =>
      have hrest := ih (h.feed piece)
      simpa [Framing.feedAll, List.append_assoc] using hrest

theorem Framing.Follows.ending {reader : Framing} {seen : List UInt8} {said : List Value}
    (h : reader.Follows seen said) : reader.ending = warning? seen := by
  unfold Framing.ending warning?
  rw [h.failure]
  cases hfailure : failure? seen with
  | some e => simp
  | none => simp [h.pending hfailure]

/-! ## The bytes of a text -/

theorem toList_loop_eq (bytes : ByteArray) (i : Nat) (read : List UInt8) :
    ByteArray.toList.loop bytes i read = read.reverse ++ bytes.data.toList.drop i := by
  fun_induction ByteArray.toList.loop bytes i read with
  | case1 i read h ih =>
      have hi : i < bytes.data.toList.length := by simpa using h
      rw [ih, List.drop_eq_getElem_cons hi]
      simp [ByteArray.get!, h]
  | case2 i read h => rw [List.drop_eq_nil_of_le (by simpa using h), List.append_nil]

theorem bytesOf_eq_data (s : String) : bytesOf s = s.toByteArray.data.toList := by
  rw [bytesOf, String.toUTF8_eq_toByteArray, ByteArray.toList, toList_loop_eq, List.drop_zero,
    List.reverse_nil, List.nil_append]

theorem bytesOf_eq (s : String) : bytesOf s = s.toList.flatMap String.utf8EncodeChar := by
  rw [bytesOf_eq_data, ← String.utf8Encode_toList, List.utf8Encode, List.toList_data_toByteArray]

theorem delimiter_ne_or (a : UInt8) {b : UInt8} (h : b ≠ 0) : delimiter ≠ a ||| b :=
  fun heq => h (UInt8.or_eq_zero_iff.mp heq.symm).2

/-- Only the zero character has a zero byte: the bytes of a longer encoding all have their top
bit set. -/
theorem delimiter_not_mem_utf8EncodeChar {c : Char} (h : 32 ≤ c.toNat) :
    delimiter ∉ String.utf8EncodeChar c := by
  rcases c.utf8Size_eq with hsize | hsize | hsize | hsize
  · have hsmall : c.toNat ≤ 127 := Char.utf8Size_eq_one_iff.mp hsize
    rw [String.utf8EncodeChar_eq_singleton hsize]
    intro hmem
    have hzero : c.toNat % 256 = 0 := congrArg UInt8.toNat (List.mem_singleton.mp hmem).symm
    omega
  · rw [String.utf8EncodeChar_eq_cons_cons hsize]
    simp [delimiter_ne_or]
  · rw [String.utf8EncodeChar_eq_cons_cons_cons hsize]
    simp [delimiter_ne_or]
  · rw [String.utf8EncodeChar_eq_cons_cons_cons_cons hsize]
    simp [delimiter_ne_or]

theorem delimiter_not_mem_bytesOf {s : String} (h : Value.Visible s.toList) :
    delimiter ∉ bytesOf s := by
  rw [bytesOf_eq]
  intro hmem
  obtain ⟨c, hc, hbyte⟩ := List.mem_flatMap.mp hmem
  exact delimiter_not_mem_utf8EncodeChar (h c hc) hbyte

/-! ## What was written -/

/-- The bytes of a message decode to what its text reads as. -/
theorem decode_bytesOf {s : String} {v : Value} (h : readJson s.toList = .ok v) :
    decode (bytesOf s) = .ok v := by
  have hbytes : (⟨(bytesOf s).toArray⟩ : ByteArray) = s.toByteArray := by
    rw [bytesOf_eq_data, Array.toArray_toList]
  have htext : String.fromUTF8? s.toByteArray = some s := by
    rw [String.fromUTF8?, dif_pos s.isValidUTF8]
    rfl
  rw [decode, hbytes, htext]
  simp only [h]

/-- A text that is JSON is not empty. -/
theorem bytesOf_ne_nil {s : String} {v : Value} (h : readJson s.toList = .ok v) :
    bytesOf s ≠ [] := by
  rw [bytesOf_eq]
  cases hchars : s.toList with
  | nil =>
      rw [hchars] at h
      cases h
  | cons c rest =>
      have hpos : 0 < (String.utf8EncodeChar c).length := by
        rw [String.length_utf8EncodeChar]
        exact c.utf8Size_pos
      rw [List.flatMap_cons]
      exact List.append_ne_nil_of_left_ne_nil (List.length_pos_iff.mp hpos) _

theorem readings_encode {v : Value} (h : readJson v.json.toList = .ok v) (rest : List UInt8) :
    readings (encode v ++ rest) = .ok v :: readings rest := by
  have hframe := delimiter_not_mem_bytesOf (Value.visible_json v)
  rw [encode, List.append_assoc, List.singleton_append, readings, frames_frame hframe,
    List.filter_cons_of_pos (by simpa using bytesOf_ne_nil h), List.map_cons, decode_bytesOf h,
    readings]

theorem leftover_encode (v : Value) (rest : List UInt8) :
    leftover (encode v ++ rest) = leftover rest := by
  have hframe := delimiter_not_mem_bytesOf (Value.visible_json v)
  rw [encode, List.append_assoc, List.singleton_append, leftover_frame hframe]

/-- Messages that were written one after the other are read one after the other, and nothing is
left. -/
theorem readings_flatMap_encode {vs : List Value}
    (h : ∀ v ∈ vs, readJson v.json.toList = .ok v) :
    readings (vs.flatMap encode) = vs.map .ok ∧ leftover (vs.flatMap encode) = [] := by
  induction vs with
  | nil => exact ⟨rfl, rfl⟩
  | cons v rest ih =>
      obtain ⟨hv, hrest⟩ := List.forall_mem_cons.mp h
      obtain ⟨hreadings, hleftover⟩ := ih hrest
      rw [List.flatMap_cons, readings_encode hv, leftover_encode, hreadings, hleftover]
      exact ⟨rfl, rfl⟩

theorem delivered_map_ok (vs : List Value) : delivered (vs.map .ok) = vs := by
  induction vs with
  | nil => rfl
  | cons v rest ih => rw [List.map_cons, delivered_ok, ih]

theorem firstFailure?_map_ok (vs : List Value) : firstFailure? (vs.map .ok) = none := by
  induction vs with
  | nil => rfl
  | cons v rest ih => rw [List.map_cons, firstFailure?_ok, ih]

/-- **However the bytes of a stream arrive, the reader says the same**, namely what reading the
whole stream at one go says: the messages before the first frame that is not JSON, that frame's
failure, and how many bytes were left after the last delimiter. If the bytes are those of some
messages written one after the other, the reader delivers exactly these messages. -/
theorem Framing.feedAll_eq_whole (pieces : List (List UInt8)) :
    (start.feedAll pieces).2 = messages pieces.flatten ∧
      (start.feedAll pieces).1.failure = failure? pieces.flatten ∧
      (start.feedAll pieces).1.ending = warning? pieces.flatten ∧
      ∀ vs : List Value, pieces.flatten = vs.flatMap encode →
        (∀ v ∈ vs, readJson v.json.toList = .ok v) →
        (start.feedAll pieces).2 = vs ∧ (start.feedAll pieces).1.failure = none ∧
          (start.feedAll pieces).1.ending = none := by
  have hfollows : (start.feedAll pieces).1.Follows pieces.flatten (start.feedAll pieces).2 := by
    simpa using Follows.start.feedAll pieces
  refine ⟨hfollows.said, hfollows.failure, hfollows.ending, ?_⟩
  intro vs hwritten hread
  obtain ⟨hreadings, hleftover⟩ := readings_flatMap_encode hread
  have hfailure : failure? (vs.flatMap encode) = none := by
    rw [failure?, hreadings, firstFailure?_map_ok]
  rw [hfollows.said, hfollows.failure, hfollows.ending, hwritten]
  refine ⟨?_, hfailure, ?_⟩
  · rw [messages, hreadings, delivered_map_ok]
  · rw [warning?, hleftover, if_neg (by simp)]

/-- Two messages, the first cut in two, the delimiter of the second alone. -/
theorem Framing.feedAll_eq_whole_two :
    let pieces := [[123, 34, 97, 34, 58, 116], [114, 117, 101, 125, 0, 34, 98, 34], [0]]
    (start.feedAll pieces).2 = [.ofMembers [("a", .bool true)], .string "b"] ∧
      (start.feedAll pieces).1.failure = none ∧ (start.feedAll pieces).1.ending = none := by
  intro pieces
  obtain ⟨-, -, -, hwritten⟩ := feedAll_eq_whole pieces
  refine hwritten _ ?_ ?_
  · simp only [encode, bytesOf_eq, List.flatMap_cons, List.flatMap_nil]
    decide
  · simp only [List.forall_mem_cons, Value.json, String.toList_ofList]
    exact ⟨rfl, rfl, List.forall_mem_nil _⟩

end TabPilot.Wire
