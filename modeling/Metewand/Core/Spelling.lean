import Metewand.Core.Identity
import Metewand.Core.Profile

/-!
# Reading identities and numbers from text

`RecordId.parse` is the `FromStr` of `core/identity.rs` and accepts exactly the
public spellings (`RecordId.parse_eq_ok`); `parseUnsigned` reads a `u64` the way
the standard library does, with an optional plus sign.
-/

namespace Metewand

/-- The text begins with the given characters. -/
def startsWith (start text : String) : Bool := start.toList.isPrefixOf text.toList

/-- `str::parse::<u64>`. -/
def parseUnsigned (text : String) : Option Nat :=
  match text.toList with
  | '+' :: digits => parseU64 digits
  | digits => parseU64 digits

/-! ## Identities -/

/-- Why a text is no identity of the requested kind. -/
inductive RecordIdParseError where
  | wrongKind (expected : String)
  | invalidDigest
  deriving DecidableEq, Repr

def RecordIdParseError.message : RecordIdParseError → String
  | .wrongKind expected => "identity must begin with `" ++ expected ++ "`"
  | .invalidDigest => "identity digest must contain 64 lowercase hexadecimal digits"

def hexNibble (c : Char) : Nat := if c.toNat ≤ 57 then c.toNat - 48 else c.toNat - 87

def isHexDigit (c : Char) : Bool := isAsciiDigit c || (97 ≤ c.toNat && c.toNat ≤ 102)

/-- The bytes of pairs of hexadecimal digits. -/
def decodeHex : List Char → List UInt8
  | high :: low :: rest => UInt8.ofNat (hexNibble high * 16 + hexNibble low) :: decodeHex rest
  | _ => []

theorem decodeHex_length : ∀ {n : Nat} {digits : List Char}, digits.length = 2 * n →
    (decodeHex digits).length = n
  | 0, digits, size => by
      rw [List.length_eq_zero_iff.mp (by omega : digits.length = 0)]
      rfl
  | n + 1, [], size => by simp at size
  | n + 1, [_], size => by
      simp only [List.length_cons, List.length_nil] at size
      omega
  | n + 1, _ :: _ :: rest, size => by
      simp only [List.length_cons] at size
      simp only [decodeHex, List.length_cons, decodeHex_length (by omega : rest.length = 2 * n)]

/-- The characters before the digest of an identity of this kind. -/
def IdentityKind.spelling (kind : IdentityKind) : String := "mw1-" ++ kind.tag ++ "-"

/-- The digest sixty-four hexadecimal digits spell. -/
def Digest.parse (digits : List Char) : Option Digest :=
  if h : digits.length = 64 ∧ digits.all isHexDigit = true then
    some ⟨decodeHex digits, decodeHex_length (n := 32) h.1⟩
  else none

def RecordId.parse (kind : IdentityKind) (text : String) :
    Except RecordIdParseError (RecordId kind) :=
  if startsWith kind.spelling text = true then
    match Digest.parse (text.toList.drop kind.spelling.toList.length) with
    | some digest => .ok ⟨digest⟩
    | none => .error .invalidDigest
  else .error (.wrongKind kind.spelling)

/-! ## Spelling and reading agree -/

theorem hexNibble_hexDigit {n : Nat} (small : n < 16) :
    hexNibble (hexDigit n) = n ∧ isHexDigit (hexDigit n) = true := by
  have all : ∀ k : Fin 16, hexNibble (hexDigit k) = k ∧ isHexDigit (hexDigit k) = true := by decide
  exact all ⟨n, small⟩

theorem hexDigit_hexNibble {c : Char} (digit : isHexDigit c = true) :
    hexNibble c < 16 ∧ hexDigit (hexNibble c) = c := by
  simp only [isHexDigit, isAsciiDigit, Bool.or_eq_true, Bool.and_eq_true, decide_eq_true_eq] at digit
  unfold hexNibble hexDigit
  rcases digit with ⟨low, high⟩ | ⟨low, high⟩
  · rw [if_pos high, if_pos (by omega), show 48 + (c.toNat - 48) = c.toNat by omega]
    exact ⟨by omega, Char.ofNat_toNat c⟩
  · rw [if_neg (by omega), if_neg (by omega), show 87 + (c.toNat - 87) = c.toNat by omega]
    exact ⟨by omega, Char.ofNat_toNat c⟩

/-- The two digits of a byte. -/
def hexPair (byte : UInt8) : List Char := [hexDigit (byte.toNat / 16), hexDigit (byte.toNat % 16)]

theorem decodeHex_flatMap (bytes : List UInt8) : decodeHex (bytes.flatMap hexPair) = bytes := by
  induction bytes with
  | nil => rfl
  | cons byte rest ih =>
      have high := (hexNibble_hexDigit (by have := byte.toNat_lt; omega : byte.toNat / 16 < 16)).1
      have low := (hexNibble_hexDigit (by omega : byte.toNat % 16 < 16)).1
      simp only [List.flatMap_cons, hexPair, List.cons_append, List.nil_append, decodeHex, high, low]
      rw [ih, show byte.toNat / 16 * 16 + byte.toNat % 16 = byte.toNat by omega, UInt8.ofNat_toNat]

theorem flatMap_decodeHex : ∀ {n : Nat} {digits : List Char}, digits.length = 2 * n →
    digits.all isHexDigit = true → (decodeHex digits).flatMap hexPair = digits
  | 0, digits, size, _ => by
      rw [List.length_eq_zero_iff.mp (by omega : digits.length = 0)]
      rfl
  | n + 1, [], size, _ => by simp at size
  | n + 1, [_], size, _ => by
      simp only [List.length_cons, List.length_nil] at size
      omega
  | n + 1, high :: low :: rest, size, all => by
      simp only [List.length_cons] at size
      simp only [List.all_cons, Bool.and_eq_true] at all
      obtain ⟨highSmall, highSame⟩ := hexDigit_hexNibble all.1
      obtain ⟨lowSmall, lowSame⟩ := hexDigit_hexNibble all.2.1
      have byte : (UInt8.ofNat (hexNibble high * 16 + hexNibble low)).toNat =
          hexNibble high * 16 + hexNibble low := by
        rw [UInt8.toNat_ofNat']
        omega
      simp only [decodeHex, List.flatMap_cons, hexPair, byte]
      rw [show (hexNibble high * 16 + hexNibble low) / 16 = hexNibble high by omega,
        show (hexNibble high * 16 + hexNibble low) % 16 = hexNibble low by omega, highSame, lowSame]
      exact congrArg (high :: low :: ·)
        (flatMap_decodeHex (by omega : rest.length = 2 * n) all.2.2)

theorem Digest.hex_toList (digest : Digest) : digest.hex.toList = digest.bytes.flatMap hexPair := by
  unfold Digest.hex
  rw [String.toList_ofList]
  rfl

/-- The text of a digest is sixty-four hexadecimal digits. -/
theorem Digest.hex_spelled (digest : Digest) :
    digest.hex.toList.length = 64 ∧ digest.hex.toList.all isHexDigit = true := by
  rw [digest.hex_toList]
  constructor
  · have pairs : ∀ bytes : List UInt8, (bytes.flatMap hexPair).length = 2 * bytes.length := by
      intro bytes
      induction bytes with
      | nil => rfl
      | cons byte rest ih =>
          simp only [List.flatMap_cons, List.length_append, ih, hexPair, List.length_cons,
            List.length_nil]
          omega
    rw [pairs, digest.size]
  · rw [List.all_eq_true]
    intro c member
    obtain ⟨byte, -, inside⟩ := List.mem_flatMap.mp member
    simp only [hexPair, List.mem_cons, List.not_mem_nil, or_false] at inside
    rcases inside with rfl | rfl
    · exact (hexNibble_hexDigit (by have := byte.toNat_lt; omega)).2
    · exact (hexNibble_hexDigit (by omega)).2

theorem Digest.parse_hex (digest : Digest) : Digest.parse digest.hex.toList = some digest := by
  unfold Digest.parse
  rw [dif_pos digest.hex_spelled]
  simp only [digest.hex_toList, decodeHex_flatMap]

theorem Digest.hex_of_parse {digits : List Char} {digest : Digest}
    (read : Digest.parse digits = some digest) : digest.hex.toList = digits := by
  unfold Digest.parse at read
  split at read
  · rename_i spelled
    cases read
    rw [Digest.hex_toList]
    exact flatMap_decodeHex (n := 32) spelled.1 spelled.2
  · cases read

/-- An identity is read from its spelling and from no other text. -/
theorem RecordId.parse_eq_ok {kind : IdentityKind} {text : String} {id : RecordId kind} :
    RecordId.parse kind text = .ok id ↔ text = id.text := by
  have spelled : id.text.toList = kind.spelling.toList ++ id.digest.hex.toList := by
    simp only [RecordId.text, IdentityKind.spelling, String.toList_append, List.append_assoc]
  unfold RecordId.parse startsWith
  constructor
  · intro read
    split at read
    · rename_i start
      obtain ⟨rest, same⟩ := List.isPrefixOf_iff_prefix.mp start
      rw [← same, List.drop_left] at read
      cases parsed : Digest.parse rest with
      | none =>
          rw [parsed] at read
          cases read
      | some digest =>
          rw [parsed] at read
          cases read
          refine String.toList_injective ?_
          rw [spelled, ← same, Digest.hex_of_parse parsed]
    · cases read
  · rintro rfl
    rw [if_pos (List.isPrefixOf_iff_prefix.mpr ⟨_, spelled.symm⟩), spelled, List.drop_left,
      Digest.parse_hex]

theorem RecordId.text_injective {kind : IdentityKind} {a b : RecordId kind}
    (same : a.text = b.text) : a = b := by
  have left := RecordId.parse_eq_ok.mpr (rfl : a.text = a.text)
  rw [same, RecordId.parse_eq_ok.mpr (rfl : b.text = b.text)] at left
  exact (Except.ok.inj left).symm

end Metewand
