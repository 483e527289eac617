import TabPilot.Wire.Json
import TabPilot.Value.Json
import TabPilot.Error

set_option autoImplicit false

/-! # Messages on a pipe

A message is its JSON text followed by a zero byte. `Framing.feed` takes bytes as they arrive, in
whatever pieces, and gives the messages that are complete; `ending` says how many bytes were left
without their zero byte when the pipe was closed.
-/

namespace TabPilot.Wire

def delimiter : UInt8 := 0

def bytesOf (s : String) : List UInt8 := s.toUTF8.toList

def encode (message : Value) : List UInt8 := bytesOf message.json ++ [delimiter]

def decode (frame : List UInt8) : Except Error Value :=
  match String.fromUTF8? ⟨frame.toArray⟩ with
  | none => .error (.malformed "Failed to parse JSON: invalid text")
  | some s =>
      match readJson s.toList with
      | .ok v => .ok v
      | .error e => .error (.malformed ("Failed to parse JSON: " ++ e.message))

/-- The state of a reader: the bytes of a message that is not complete, and why the reader gave
up, if it did. -/
structure Framing where
  pending : List UInt8
  failure : Option Error

namespace Framing

def start : Framing := ⟨[], none⟩

/-- Splits bytes at delimiters: the frames before each, and the bytes after the last. -/
def split (bytes : List UInt8) : List (List UInt8) × List UInt8 :=
  let frame := bytes.takeWhile (· ≠ delimiter)
  match _tail : bytes.drop frame.length with
  | [] => ([], frame)
  | _ :: rest =>
      let (frames, left) := split rest
      (frame :: frames, left)
  termination_by bytes.length
  decreasing_by
    all_goals
      have shorter := congrArg List.length _tail
      simp only [List.length_drop, List.length_cons] at shorter
      omega

/-- The messages of frames, empty ones left out, up to the first that is not JSON. -/
def decodeAll : List (List UInt8) → List Value × Option Error
  | [] => ([], none)
  | frame :: rest =>
      if frame.isEmpty then decodeAll rest
      else
        match decode frame with
        | .error e => ([], some e)
        | .ok v =>
            let (vs, failure) := decodeAll rest
            (v :: vs, failure)

/-- Takes some bytes that arrived. A reader that gave up takes no more. -/
def feed (f : Framing) (bytes : List UInt8) : Framing × List Value :=
  if f.failure.isSome then (f, [])
  else
    let (frames, left) := split (f.pending ++ bytes)
    let (messages, failure) := decodeAll frames
    (⟨left, failure⟩, messages)

/-- Takes pieces of bytes one after the other. -/
def feedAll (f : Framing) : List (List UInt8) → Framing × List Value
  | [] => (f, [])
  | piece :: rest =>
      let (f, messages) := f.feed piece
      let (f, more) := f.feedAll rest
      (f, messages ++ more)

/-- The warning about bytes that were left when the pipe was closed. -/
def ending (f : Framing) : Option String :=
  if f.failure.isSome || f.pending.isEmpty then none
  else some s!"Pipe closed with {f.pending.length} bytes of unterminated message"

end Framing

end TabPilot.Wire
