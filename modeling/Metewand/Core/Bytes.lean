import Metewand.Lib.Framing
import Mathlib.Algebra.Order.Ring.Int

/-!
# Byte transcripts

The UTF-8 bytes of a text and the big-endian bytes of a `u64`, from which the hashed
transcripts are put together.
-/

namespace Metewand

open Lib

def utf8 (text : String) : List UInt8 := text.toByteArray.data.toList

/-- The eight bytes of a `u64`, most significant first. -/
def toBeBytes (n : Nat) : List UInt8 :=
  (List.range 8).reverse.map fun place => .ofNat (n / 256 ^ place)

theorem utf8_injective {a b : String} (same : utf8 a = utf8 b) : a = b := by
  refine String.toByteArray_inj.mp (ByteArray.ext ?_)
  exact Array.toList_inj.mp same

theorem utf8_append (a b : String) : utf8 (a ++ b) = utf8 a ++ utf8 b := by
  simp [utf8, ByteArray.toList_data_append]

@[simp]
theorem toBeBytes_length (n : Nat) : (toBeBytes n).length = 8 := by
  simp [toBeBytes]

theorem toBeBytes_injective {m n : Nat} (small : m < 2 ^ 64) (small' : n < 2 ^ 64)
    (same : toBeBytes m = toBeBytes n) : m = n := by
  have place : ∀ k < 8, m / 256 ^ k % 256 = n / 256 ^ k % 256 := by
    intro k inside
    have member : k ∈ (List.range 8).reverse := by simpa using inside
    have bytes := (List.map_inj_left.mp same) k member
    simpa using congrArg UInt8.toNat bytes
  have p0 := place 0 (by omega)
  have p1 := place 1 (by omega)
  have p2 := place 2 (by omega)
  have p3 := place 3 (by omega)
  have p4 := place 4 (by omega)
  have p5 := place 5 (by omega)
  have p6 := place 6 (by omega)
  have p7 := place 7 (by omega)
  omega

/-- A byte string behind its length. -/
def sized (bytes : List UInt8) : List UInt8 := toBeBytes bytes.length ++ bytes

theorem toBeBytes_delimited : Delimited (· < 2 ^ 64) toBeBytes :=
  .of_length 8 (fun n _ => toBeBytes_length n) fun small small' => toBeBytes_injective small small'

theorem sized_delimited : Delimited (fun bytes => bytes.length < 2 ^ 64) sized :=
  toBeBytes_delimited.prefixed List.length (fun bytes => bytes) (fun small => small)
    fun _ _ same x y equal => List.append_inj equal same

end Metewand
