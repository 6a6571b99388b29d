import Mathlib.Data.List.Basic

/-!
# Streams delivered in pieces

A reader gets a stream in pieces of any nonempty size and buffers the one it is in.
`fillBuf` shows what is buffered and gets the next piece when nothing is; `consume` takes from
the buffer.  Neither shows more than `stream`, which is all that a result may depend on.
-/

namespace Metewand.Lib

/-- A stream on its way: what is buffered, and the pieces to come. -/
structure Delivery (σ : Type) where
  buffer : List σ
  pieces : List (List σ)
  nonempty : ∀ piece ∈ pieces, piece ≠ []

namespace Delivery

variable {σ : Type}

/-- What is still to be read. -/
def stream (delivery : Delivery σ) : List σ := delivery.buffer ++ delivery.pieces.flatten

def fillBuf (delivery : Delivery σ) : Delivery σ :=
  match delivery.buffer, h : delivery.pieces with
  | [], piece :: rest =>
      ⟨piece, rest, fun other member => delivery.nonempty other (h ▸ List.mem_cons_of_mem _ member)⟩
  | _, _ => delivery

def consume (count : Nat) (delivery : Delivery σ) : Delivery σ :=
  { delivery with buffer := delivery.buffer.drop count }

@[simp]
theorem stream_fillBuf (delivery : Delivery σ) : delivery.fillBuf.stream = delivery.stream := by
  obtain ⟨buffer, pieces, nonempty⟩ := delivery
  cases buffer with
  | cons a buffer => rfl
  | nil =>
      cases pieces with
      | nil => rfl
      | cons piece rest => rfl

/-- Nothing is buffered at the end of the stream only. -/
theorem fillBuf_eq_nil (delivery : Delivery σ) : delivery.fillBuf.buffer = [] ↔ delivery.stream = [] := by
  obtain ⟨buffer, pieces, nonempty⟩ := delivery
  cases buffer with
  | cons a buffer => simp [fillBuf, stream]
  | nil =>
      cases pieces with
      | nil => simp [fillBuf, stream]
      | cons piece rest =>
          have filled := nonempty piece List.mem_cons_self
          simp [fillBuf, stream, filled]

theorem stream_consume {count : Nat} {delivery : Delivery σ} (within : count ≤ delivery.buffer.length) :
    (delivery.consume count).stream = delivery.stream.drop count := by
  unfold consume stream
  rw [List.drop_append_of_le_length within]

theorem buffer_prefix (delivery : Delivery σ) : delivery.buffer <+: delivery.stream :=
  List.prefix_append _ _

end Delivery

end Metewand.Lib
