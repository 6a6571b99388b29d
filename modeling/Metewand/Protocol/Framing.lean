import Metewand.Core.Deserializer
import Metewand.Lib.Delivery

/-!
# Frames

`protocol/framing.rs`: a line of at most one mebibyte is collected from whatever the reader has
buffered, and its JSON value is read by a visitor that notes a repeated key in a cell beside it.
-/

namespace Metewand.Protocol

open Lib

abbrev Bytes : Type := List UInt8

def maxLineBytes : Nat := 1024 * 1024

def newline : UInt8 := 10

inductive FrameError where
  | lineTooLong (limit : Nat)
  | earlyEof (received : Nat)
  | byteOrderMark
  | invalidUtf8 (validUpTo : Nat)
  | duplicateKey (key : String)
  | malformedJson
  /-- The subtraction of the line length overflows. -/
  | panicked
  deriving DecidableEq

/-- The JSON libraries the protocol relies on: number text, the deserializer of a text and
whether nothing follows the value, and what the canonical serializer writes. -/
structure Serde where
  fractionText : UInt64 → List Char
  deserialize : Bytes → Raw × Bool
  canonicalize : Json → Option Json

/-! ## Lines -/

/-- `FrameReader::read_line`, with the line so far. -/
def readLine (line : Bytes) (reader : Delivery UInt8) : Except FrameError (Option Bytes) × Delivery UInt8 :=
  if h : reader.fillBuf.buffer = [] then
    (if line = [] then .ok none else .error (.earlyEof line.length), reader.fillBuf)
  else
    match reader.fillBuf.buffer.findIdx? (· = newline) with
    | some position =>
        if maxLineBytes < line.length + (position + 1) then
          (.error (.lineTooLong maxLineBytes), reader.fillBuf)
        else
          (.ok (some (line ++ reader.fillBuf.buffer.take position)), reader.fillBuf.consume (position + 1))
    | none =>
        if maxLineBytes - 1 < line.length then (.error .panicked, reader.fillBuf)
        else if maxLineBytes - 1 - line.length < reader.fillBuf.buffer.length then
          (.error (.lineTooLong maxLineBytes), reader.fillBuf)
        else
          readLine (line ++ reader.fillBuf.buffer) (reader.fillBuf.consume reader.fillBuf.buffer.length)
termination_by reader.stream.length
decreasing_by
  rw [Delivery.stream_consume (Nat.le_refl _), Delivery.stream_fillBuf, List.length_drop]
  have some := List.length_pos_iff.mpr h
  have within := reader.fillBuf.buffer_prefix.length_le
  rw [Delivery.stream_fillBuf] at within
  omega

/-! ## Values -/

/-- `str::from_utf8`. -/
def fromUtf8 (input : Bytes) : Option String := String.fromUTF8? ⟨input.toArray⟩

/-- How far a text is valid. -/
def validUpTo (input : Bytes) : Nat :=
  ((List.range (input.length + 1)).reverse.find? fun n => (fromUtf8 (input.take n)).isSome).getD 0

mutual

/-- `UniqueValueVisitor`, with the cell for a repeated key. -/
def visit : Raw → Option String → Option Json × Option String
  | .malformed, duplicate => (none, duplicate)
  | .null, duplicate => (some .null, duplicate)
  | .bool b, duplicate => (some (.bool b), duplicate)
  | .number n, duplicate => (if n.Finite then some (.num n) else none, duplicate)
  | .string s, duplicate => (some (.str s), duplicate)
  | .array items closed, duplicate =>
      match visitSeq items closed duplicate with
      | (some values, duplicate) => (some (.arr values), duplicate)
      | (none, duplicate) => (none, duplicate)
  | .object members closed, duplicate => visitMap [] members closed duplicate

def visitSeq : List Raw → Bool → Option String → Option (List Json) × Option String
  | [], closed, duplicate => (if closed then some [] else none, duplicate)
  | item :: rest, closed, duplicate =>
      match visit item duplicate with
      | (none, duplicate) => (none, duplicate)
      | (some v, duplicate) =>
          match visitSeq rest closed duplicate with
          | (some values, duplicate) => (some (v :: values), duplicate)
          | (none, duplicate) => (none, duplicate)

def visitMap (values : List (String × Json)) :
    List (String × Raw) → Bool → Option String → Option Json × Option String
  | [], closed, duplicate => (if closed then some (.obj values) else none, duplicate)
  | (key, raw) :: rest, closed, duplicate =>
      if (Json.lookupMember key values).isSome then (none, some key)
      else
        match visit raw duplicate with
        | (none, duplicate) => (none, duplicate)
        | (some v, duplicate) => visitMap (Json.insertMember key v values) rest closed duplicate

end

def malformedOrDuplicate (duplicate : Option String) : FrameError :=
  match duplicate with
  | some key => .duplicateKey key
  | none => .malformedJson

def parseUniqueJson (serde : Serde) (input : String) : Except FrameError Json :=
  let (raw, ended) := serde.deserialize (utf8 input)
  match visit raw none with
  | (none, duplicate) => .error (malformedOrDuplicate duplicate)
  | (some v, duplicate) => if ended then .ok v else .error (malformedOrDuplicate duplicate)

def byteOrderMark : Bytes := [0xef, 0xbb, 0xbf]

def parseFrame (serde : Serde) (input : Bytes) : Except FrameError Json :=
  if byteOrderMark.isPrefixOf input then .error .byteOrderMark
  else
    match fromUtf8 input with
    | none => .error (.invalidUtf8 (validUpTo input))
    | some text => parseUniqueJson serde text

/-- `FrameReader::read_frame`. -/
def readFrame (serde : Serde) (reader : Delivery UInt8) : Except FrameError (Option Json) × Delivery UInt8 :=
  match readLine [] reader with
  | (.error e, reader) => (.error e, reader)
  | (.ok none, reader) => (.ok none, reader)
  | (.ok (some bytes), reader) => ((parseFrame serde bytes).map some, reader)

/-- An error that ends the stream. -/
def FrameError.Ends : FrameError → Prop
  | .lineTooLong _ | .earlyEof _ | .panicked => True
  | _ => False

instance (e : FrameError) : Decidable e.Ends := by
  cases e <;> unfold FrameError.Ends <;> infer_instance

/-- The results of so many calls of `read_frame`, up to the error that ends the stream. -/
def readFrames (serde : Serde) : Nat → Delivery UInt8 → List (Except FrameError (Option Json))
  | 0, _ => []
  | count + 1, reader =>
      match readFrame serde reader with
      | (.error e, reader) => .error e :: if e.Ends then [] else readFrames serde count reader
      | (.ok frame, reader) => .ok frame :: readFrames serde count reader

end Metewand.Protocol
