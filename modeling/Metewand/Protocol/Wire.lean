import Metewand.Protocol.Frames

/-!
# Wire messages

`encode_message` writes one canonical line, and `read_frame` reads it back whatever pieces it
comes in (`frames_exact`): canonical text has no newline and starts with no byte-order mark.
-/

namespace Metewand.Protocol

open Lib Lib.Check Json

/-- The serializer of the library, for the text of a value. -/
def Serde.library (serde : Serde) : JsonLibrary where
  fractionText := serde.fractionText
  parse input :=
    let read := serde.deserialize input
    if read.2 then read.1.read else none

inductive MessageEncodeError where
  | serialization
  | lineTooLong (limit : Nat)
  deriving DecidableEq

/-- `encode_message`, on the JSON value of a message. -/
def encodeMessage (serde : Serde) (message : Json) : Except MessageEncodeError Bytes :=
  match serde.canonicalize message with
  | none => .error .serialization
  | some w =>
      let encoded := serde.library.encode w
      if maxLineBytes ≤ encoded.length then .error (.lineTooLong maxLineBytes)
      else .ok (encoded ++ [newline])

/-- What the libraries document: a value of the canonical domain is written as its RFC 8785
text, and the deserializer walks through the text of a value whose nesting is below its
limit. -/
structure Serde.Documented (serde : Serde) : Prop where
  fraction : ∀ bits, ∀ c ∈ serde.fractionText bits, JsonLibrary.numeric c
  canonical : ∀ v w : Json, v.normalize = .ok w → serde.canonicalize v = some w
  written : ∀ v w : Json, v.Ordered → serde.canonicalize v = some w →
    w.Ordered ∧ w.depth = v.depth ∧ (Raw.ofJson w).Complete
  reads : ∀ v w : Json, v.Ordered → serde.canonicalize v = some w → w.depth < recursionLimit →
    serde.deserialize (serde.library.encode w) = (Raw.ofJson w, true)

variable {serde : Serde}

/-! ## Bytes of a text -/

theorem utf8EncodeChar_printable {c : Char} (printable : 32 ≤ c.toNat) :
    ∀ byte ∈ String.utf8EncodeChar c, 32 ≤ byte.toNat := by
  have value : 32 ≤ c.val.toNat := printable
  have above : ∀ n, 32 ≤ n → n < 256 → 32 ≤ (UInt8.ofNat n).toNat := by
    intro n low high
    rw [UInt8.toNat_ofNat', Nat.mod_eq_of_lt high]
    exact low
  unfold String.utf8EncodeChar
  dsimp only
  intro byte member
  split at member
  · cases List.mem_singleton.mp member
    exact above _ value (by omega)
  split at member
  · simp only [List.mem_cons, List.not_mem_nil, or_false] at member
    rcases member with rfl | rfl
    all_goals exact above _ (by omega) (by omega)
  split at member
  · simp only [List.mem_cons, List.not_mem_nil, or_false] at member
    rcases member with rfl | rfl | rfl
    all_goals exact above _ (by omega) (by omega)
  · simp only [List.mem_cons, List.not_mem_nil, or_false] at member
    rcases member with rfl | rfl | rfl | rfl
    all_goals exact above _ (by omega) (by omega)

theorem newline_not_encoded (fraction : ∀ bits, ∀ c ∈ serde.fractionText bits, JsonLibrary.numeric c)
    (w : Json) : newline ∉ serde.library.encode w := by
  intro member
  rw [JsonLibrary.encode, utf8_ofList] at member
  obtain ⟨c, inside, here⟩ := List.mem_flatMap.mp member
  have printable := @JsonLibrary.text_printable serde.library fraction w c inside
  have above := utf8EncodeChar_printable printable newline here
  exact absurd above (by decide)

/-- Canonical text starts with an ASCII character. -/
theorem text_ascii (fraction : ∀ bits, ∀ c ∈ serde.fractionText bits, JsonLibrary.numeric c) (w : Json)
    {c : Char} {rest : List Char} (text : serde.library.text w = c :: rest) : c.toNat < 128 := by
  have small : ∀ d : Char, JsonLibrary.numeric d → d.toNat < 128 := by
    intro d is
    simp only [JsonLibrary.numeric, isAsciiDigit, Bool.or_eq_true, Bool.and_eq_true, decide_eq_true_eq,
      List.mem_cons, List.not_mem_nil, or_false] at is
    rcases is with digit | rfl | rfl | rfl | rfl
    · exact Nat.lt_of_le_of_lt digit.2 (by decide)
    all_goals decide
  cases w with
  | num n =>
      refine small c ?_
      cases n with
      | int value => exact JsonLibrary.intText_numeric value c (by
          change intText value = _ at text
          rw [text]
          exact List.mem_cons_self)
      | float bits => exact fraction bits c (by
          change serde.fractionText bits = _ at text
          rw [text]
          exact List.mem_cons_self)
  | bool b =>
      cases b
      all_goals
        cases text
        decide
  | null | str _ | arr _ | obj _ =>
      cases text
      decide

theorem byteOrderMark_not_encoded (fraction : ∀ bits, ∀ c ∈ serde.fractionText bits, JsonLibrary.numeric c)
    (w : Json) : ¬byteOrderMark <+: serde.library.encode w := by
  rintro ⟨rest, same⟩
  rw [JsonLibrary.encode, utf8_ofList] at same
  cases text : serde.library.text w with
  | nil =>
      rw [text] at same
      cases same
  | cons c chars =>
      have ascii := text_ascii fraction w text
      have one : String.utf8EncodeChar c = [UInt8.ofNat c.val.toNat] := by
        unfold String.utf8EncodeChar
        exact if_pos (Nat.le_of_lt_succ ascii)
      rw [text, List.flatMap_cons, one] at same
      have heads := congrArg UInt8.toNat (List.cons.inj same).1
      have small : c.val.toNat < 128 := ascii
      rw [UInt8.toNat_ofNat', Nat.mod_eq_of_lt (by omega)] at heads
      have is : 239 = c.val.toNat := heads
      omega

/-! ## Messages -/

/-- The line of a message denotes the value that was written. -/
theorem denotes_encoded (documented : serde.Documented) {v w : Json} (ordered : v.Ordered)
    (written : serde.canonicalize v = some w) (shallow : v.depth < recursionLimit) :
    Denotes serde (serde.library.encode w) w := by
  obtain ⟨sorted, depth, complete⟩ := documented.written v w ordered written
  refine ⟨byteOrderMark_not_encoded documented.fraction w, ⟨_, rfl⟩, Raw.ofJson w,
    documented.reads v w ordered written (depth ▸ shallow), complete, ofJson_unique sorted,
    (ofJson_value sorted).symm⟩

theorem readFrame_encoded (documented : serde.Documented) {v : Json} {line : Bytes} (ordered : v.Ordered)
    (shallow : v.depth < recursionLimit) (encoded : encodeMessage serde v = .ok line)
    {reader : Delivery UInt8} {rest : Bytes} (delivered : reader.stream = line ++ rest) :
    ∃ w reader', serde.canonicalize v = some w ∧ readFrame serde reader = (.ok (some w), reader') ∧
      reader'.stream = rest := by
  unfold encodeMessage at encoded
  cases written : serde.canonicalize v with
  | none =>
      rw [written] at encoded
      cases encoded
  | some w =>
      rw [written] at encoded
      dsimp only at encoded
      split at encoded
      · cases encoded
      · rename_i short
        cases encoded
        have split : splitLine reader.stream = (.ok (serde.library.encode w), rest) := by
          rw [delivered, List.append_assoc, List.singleton_append,
            splitLine_newline (newline_not_encoded documented.fraction w), if_neg (by omega)]
        obtain ⟨reader', read, follows⟩ := (readFrame_splits serde reader).1 _ _ split
        have denotes := denotes_encoded documented ordered written shallow
        rw [parseFrame_ok.mpr denotes] at read
        exact ⟨w, reader', rfl, read, follows⟩

/-- Framing equals its specification under any fragmentation, and reads back what is
written. -/
theorem frames_exact (documented : serde.Documented) :
    (∀ (count : Nat) (reader : Delivery UInt8),
      (readFrames serde count reader).map outcomeOf = specified serde count reader.stream ∧
      .panicked ∉ specified serde count reader.stream ∧
      ∀ other : Delivery UInt8, other.stream = reader.stream →
        readFrames serde count other = readFrames serde count reader) ∧
    ∀ (v : Json) (line : Bytes), v.Ordered → v.depth < recursionLimit → encodeMessage serde v = .ok line →
      ∀ (reader : Delivery UInt8) (rest : Bytes), reader.stream = line ++ rest →
        ∃ w reader', readFrame serde reader = (.ok (some w), reader') ∧ reader'.stream = rest ∧
          serde.canonicalize v = some w ∧ ∀ w', v.normalize = .ok w' → w = w' := by
  refine ⟨fun count reader => ⟨?_, specified_not_panicked serde count _, fun other same => ?_⟩,
    fun v line ordered shallow encoded reader rest delivered => ?_⟩
  · rw [readFrames_results, resultsOf_specified]
  · rw [readFrames_results, readFrames_results, same]
  · obtain ⟨w, reader', written, read, follows⟩ :=
      readFrame_encoded documented ordered shallow encoded delivered
    refine ⟨w, reader', read, follows, written, fun w' normal => ?_⟩
    have same := documented.canonical v w' normal
    rw [written] at same
    exact Option.some.inj same

/-! A library that reads every canonical text. -/

section Sample

def sampleFraction (bits : UInt64) : List Char := '.' :: Nat.toDigits 10 bits.toNat

/-- The text of a value, whatever reads it. -/
def sampleText : JsonLibrary := ⟨sampleFraction, fun _ => none⟩

theorem sampleFraction_numeric (bits : UInt64) : ∀ c ∈ sampleFraction bits, JsonLibrary.numeric c := by
  intro c member
  rcases List.mem_cons.mp member with rfl | digit
  · rfl
  · refine JsonLibrary.intText_numeric (bits.toNat : Int) c ?_
    exact List.mem_append_right _ (by simpa using digit)

theorem sampleText_spelled : sampleText.Spelled := by
  have point : ∀ (value : Int) (rest : List Char), intText value ≠ '.' :: rest := by
    intro value rest same
    have first : '.' ∈ intText value := by
      rw [same]
      exact List.mem_cons_self
    rcases List.mem_append.mp first with sign | digits
    · split at sign
      · cases List.mem_singleton.mp sign
      · cases sign
    · have digit := Nat.isDigit_of_mem_toDigits (by omega) (by omega) digits
      cases digit
  refine ⟨sampleFraction_numeric, fun _ _ => List.cons_ne_nil _ _, fun m n _ _ same => ?_⟩
  cases m with
  | int a =>
      cases n with
      | int b => exact congrArg Number.int (JsonLibrary.intText_injective same)
      | float b => exact absurd same (point a _)
  | float a =>
      cases n with
      | int b => exact absurd same.symm (point b _)
      | float b =>
          have digits := JsonLibrary.digits_injective (List.cons.inj same).2
          exact congrArg Number.float (UInt64.toNat_inj.mp digits)

/-- A text of the library's domain. -/
def Canonical (input : Bytes) (w : Json) : Prop :=
  w.normalize = .ok w ∧ w.Ordered ∧ w.depth < recursionLimit ∧ input = sampleText.encode w

open Classical in
noncomputable def sampleSerde : Serde where
  fractionText := sampleFraction
  deserialize input :=
    if h : ∃ w, Canonical input w then (Raw.ofJson h.choose, true) else (.malformed, false)
  canonicalize v := v.normalize.toOption

theorem sampleSerde_text (w : Json) : sampleSerde.library.text w = sampleText.text w := by
  induction w using Json.induction with
  | null | str _ => rfl
  | bool b => cases b <;> rfl
  | num n => cases n <;> rfl
  | arr items ih =>
      have each : items.map sampleSerde.library.text = items.map sampleText.text := List.map_congr_left ih
      simp only [JsonLibrary.text, JsonLibrary.itemTexts_eq, each]
  | obj members ih =>
      have each : members.map (fun m => (m.1, sampleSerde.library.text m.2)) =
          members.map fun m => (m.1, sampleText.text m.2) :=
        List.map_congr_left fun m inside => by rw [ih m inside]
      simp only [JsonLibrary.text, JsonLibrary.memberTexts_eq, each]

theorem sampleSerde_documented : sampleSerde.Documented where
  fraction := sampleFraction_numeric
  canonical v w normal := by
    change v.normalize.toOption = some w
    rw [normal]
    rfl
  written v w ordered written := by
    have normal := toOption_eq_some.mp (show v.normalize.toOption = some w from written)
    obtain ⟨depth, kept⟩ := normalize_shape v normal
    exact ⟨kept ordered, depth, ofJson_complete (normalize_idempotent normal)⟩
  reads v w ordered written shallow := by
    have normal := toOption_eq_some.mp (show v.normalize.toOption = some w from written)
    have encoded : sampleSerde.library.encode w = sampleText.encode w := by
      rw [JsonLibrary.encode, JsonLibrary.encode, sampleSerde_text]
    have known : ∃ w', Canonical (sampleText.encode w) w' :=
      ⟨w, normalize_idempotent normal, (normalize_shape v normal).2 ordered, shallow, rfl⟩
    have read : sampleSerde.deserialize (sampleText.encode w) = (Raw.ofJson known.choose, true) :=
      dif_pos known
    rw [encoded, read]
    obtain ⟨normal', ordered', -, same⟩ := known.choose_spec
    have texts : sampleText.text w = sampleText.text known.choose :=
      String.ofList_injective (utf8_injective same)
    have is : w = known.choose := JsonLibrary.text_injective sampleText_spelled
      (normalize_idempotent normal) normal' ((normalize_shape v normal).2 ordered) ordered' texts
    exact congrArg (fun w' => (Raw.ofJson w', true)) is.symm

/-- A message and the start of the next one, in two pieces. -/
theorem frames_exact_sample : ∃ reader', readFrame sampleSerde
    ⟨[123], [[125, 10, 91]], by simp⟩ = (.ok (some (.obj [])), reader') ∧ reader'.stream = [91] := by
  have encoded : encodeMessage sampleSerde (.obj []) = .ok [123, 125, 10] := by
    unfold encodeMessage
    have text : sampleSerde.library.encode (.obj []) = [123, 125] := rfl
    change (if maxLineBytes ≤ (sampleSerde.library.encode (.obj [])).length then _ else _) = _
    rw [text]
    rfl
  obtain ⟨w, reader', read, follows, -, same⟩ := (frames_exact sampleSerde_documented).2 (.obj [])
    [123, 125, 10] ⟨.nil, trivial⟩ (by decide) encoded ⟨[123], [[125, 10, 91]], by simp⟩ [91] rfl
  rw [same (.obj []) rfl] at read
  exact ⟨reader', read, follows⟩

end Sample

end Metewand.Protocol
