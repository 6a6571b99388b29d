import Metewand.Core.Encoding
import Metewand.Lib.Occurrences
import Metewand.Protocol.Frames
import Mathlib.Data.Set.List

/-!
# Redaction

`runtime/redaction.rs`: every occurrence of a secret is marked before any is replaced, and each
run of marked bytes becomes one marker.  The text is that of `Lib.replaceRuns` over the mask.
-/

namespace Metewand.Worker

open Lib Protocol

/-- The bytes of `[REDACTED]`. -/
def marker : Bytes := [91, 82, 69, 68, 65, 67, 84, 69, 68, 93]

/-- Empty secrets are refused where they are bound. -/
structure Redactor where
  secrets : List Bytes
  nonempty : ∀ secret ∈ secrets, secret ≠ []

/-- `slice::windows`. -/
def windows (size : Nat) (bytes : Bytes) : List Bytes :=
  (List.range (bytes.length + 1 - size)).map fun start => (bytes.drop start).take size

/-- `hidden[start..stop].fill(true)`. -/
def fill (start stop : Nat) (hidden : List Bool) : List Bool :=
  hidden.mapIdx fun i hide => if start ≤ i ∧ i < stop then true else hide

/-- Whether the last byte was hidden, beside the text so far. -/
def pushByte (state : Bytes × Bool) (item : UInt8 × Bool) : Bytes × Bool :=
  (if item.2 && !state.2 then state.1 ++ marker
    else if !item.2 then state.1 ++ [item.1]
    else state.1,
    item.2)

namespace Redactor

def isEmpty (redactor : Redactor) : Bool := redactor.secrets.isEmpty

def lookahead (redactor : Redactor) : Nat := (redactor.secrets.map List.length).max?.getD 0

def hideSecret (bytes : Bytes) (hidden : List Bool) (secret : Bytes) : List Bool :=
  (windows secret.length bytes).zipIdx.foldl
    (fun hidden window =>
      if window.1 = secret then fill window.2 (window.2 + secret.length) hidden else hidden)
    hidden

def hidden (redactor : Redactor) (bytes : Bytes) : List Bool :=
  redactor.secrets.foldl (hideSecret bytes) (List.replicate bytes.length false)

/-- `Redactor::prefix`. -/
def leading (redactor : Redactor) (bytes : Bytes) (limit : Nat) : Bytes :=
  if redactor.isEmpty then bytes.take (min limit bytes.length)
  else (((bytes.zip (redactor.hidden bytes)).take limit).foldl pushByte ([], false)).1

def bytes (redactor : Redactor) (bytes : Bytes) : Bytes := redactor.leading bytes bytes.length

/-- `none` where the replaced text is no UTF-8, which panics. -/
def text (redactor : Redactor) (text : String) : Option String := fromUtf8 (redactor.bytes (utf8 text))

end Redactor

/-! ## The mask -/

/-- A fold that marks positions marks those that one of its items marks. -/
theorem getElem?_foldl_marks {ι : Type} {step : List Bool → ι → List Bool} {marks : Nat → ι → Bool}
    (steps : ∀ hidden item i, (step hidden item)[i]? = hidden[i]?.map (· || marks i item)) (items : List ι)
    (hidden : List Bool) (i : Nat) :
    (items.foldl step hidden)[i]? = hidden[i]?.map (· || items.any (marks i)) := by
  induction items generalizing hidden with
  | nil => simp
  | cons item items ih =>
      rw [List.foldl_cons, ih, steps, Option.map_map, List.any_cons]
      congr 1
      funext hide
      simp only [Function.comp_apply, Bool.or_assoc]

theorem getElem?_fill (start stop : Nat) (hidden : List Bool) (i : Nat) :
    (fill start stop hidden)[i]? = hidden[i]?.map (· || decide (start ≤ i ∧ i < stop)) := by
  unfold fill
  rw [List.getElem?_mapIdx]
  congr 1
  funext hide
  split <;> simp [*]

namespace Redactor

/-- What one secret marks. -/
def marksWindow (secret : Bytes) (i : Nat) (window : Bytes × Nat) : Bool :=
  decide (window.1 = secret ∧ window.2 ≤ i ∧ i < window.2 + secret.length)

theorem getElem?_hideSecret (bytes : Bytes) (hidden : List Bool) (secret : Bytes) (i : Nat) :
    (hideSecret bytes hidden secret)[i]? =
      hidden[i]?.map (· || (windows secret.length bytes).zipIdx.any (marksWindow secret i)) := by
  apply getElem?_foldl_marks
  intro hidden window i
  by_cases found : window.1 = secret
  · rw [if_pos found, getElem?_fill]
    simp only [marksWindow, found, true_and]
  · rw [if_neg found]
    simp [marksWindow, found]

theorem mem_windows_zipIdx {size start : Nat} {bytes window : Bytes} :
    (window, start) ∈ (windows size bytes).zipIdx ↔
      start < bytes.length + 1 - size ∧ window = (bytes.drop start).take size := by
  rw [List.mk_mem_zipIdx_iff_getElem?, windows, List.getElem?_map]
  rcases Nat.lt_or_ge start (bytes.length + 1 - size) with inside | outside
  · rw [List.getElem?_range inside]
    simp [inside, eq_comm]
  · rw [List.getElem?_eq_none (by simpa using outside)]
    simp
    omega

theorem any_marksWindow {secret bytes : Bytes} {i : Nat} (some : secret ≠ []) :
    (windows secret.length bytes).zipIdx.any (marksWindow secret i) = true ↔
      ∃ start, start ≤ i ∧ i < start + secret.length ∧ secret <+: bytes.drop start := by
  rw [List.any_eq_true]
  constructor
  · rintro ⟨⟨window, start⟩, member, marked⟩
    obtain ⟨-, is⟩ := mem_windows_zipIdx.mp member
    obtain ⟨same, starts, ends⟩ := of_decide_eq_true marked
    refine ⟨start, starts, ends, ?_⟩
    rw [List.prefix_iff_eq_take, ← is]
    exact same.symm
  · rintro ⟨start, starts, ends, found⟩
    have filled := List.length_pos_iff.mpr some
    have within := found.length_le
    rw [List.length_drop] at within
    refine ⟨(secret, start), mem_windows_zipIdx.mpr ⟨by omega, List.prefix_iff_eq_take.mp found⟩, ?_⟩
    exact decide_eq_true ⟨rfl, starts, ends⟩

/-- A byte is hidden exactly when an occurrence covers it. -/
theorem getElem?_hidden (redactor : Redactor) (bytes : Bytes) (i : Nat) :
    (redactor.hidden bytes)[i]? = bytes[i]?.map fun _ => decide (Covered redactor.secrets bytes i) := by
  unfold hidden
  rw [getElem?_foldl_marks (fun hidden secret i => getElem?_hideSecret bytes hidden secret i)]
  have covers : (redactor.secrets.any fun secret =>
      (windows secret.length bytes).zipIdx.any (marksWindow secret i)) =
        decide (Covered redactor.secrets bytes i) := by
    rw [Bool.eq_iff_iff, List.any_eq_true, decide_eq_true_eq]
    constructor
    · rintro ⟨secret, member, marked⟩
      exact ⟨secret, member, (any_marksWindow (redactor.nonempty secret member)).mp marked⟩
    · rintro ⟨secret, member, found⟩
      exact ⟨secret, member, (any_marksWindow (redactor.nonempty secret member)).mpr found⟩
  rw [covers]
  rcases Nat.lt_or_ge i bytes.length with inside | outside
  · rw [List.getElem?_replicate_of_lt inside, List.getElem?_eq_getElem inside]
    rfl
  · rw [List.getElem?_eq_none (by simpa using outside), List.getElem?_eq_none outside]
    rfl

/-- The bytes with those of secrets hidden. -/
def masked (redactor : Redactor) (bytes : Bytes) : List (Option UInt8) :=
  mask (Covered redactor.secrets bytes) bytes

theorem zip_hidden (redactor : Redactor) (bytes : Bytes) :
    (bytes.zip (redactor.hidden bytes)).map veil = redactor.masked bytes := by
  apply List.ext_getElem?
  intro i
  rw [masked, getElem?_mask, List.map_zip_eq_zipWith, List.getElem?_zipWith, getElem?_hidden]
  cases bytes[i]? with
  | none => rfl
  | some b => simp [veil]

end Redactor

/-! ## The replacement -/

/-- The loop's text is what it had and the replacement of the rest; inside a run, the rest of the run is dropped. -/
theorem foldl_pushByte (items : List (UInt8 × Bool)) (text : Bytes) (previous : Bool) :
    (items.foldl pushByte (text, previous)).1 =
      text ++ replaceRuns marker
        (if previous then (items.map veil).dropWhile Option.isNone else items.map veil) := by
  induction items generalizing text previous with
  | nil => cases previous <;> simp
  | cons item items ih =>
      obtain ⟨b, hide⟩ := item
      rw [List.foldl_cons, List.map_cons]
      cases hide with
      | false => cases previous <;> simp [pushByte, ih, veil]
      | true => cases previous <;> simp [pushByte, ih, veil]

namespace Redactor

theorem masked_of_isEmpty {redactor : Redactor} (empty : redactor.isEmpty = true) (bytes : Bytes) :
    redactor.masked bytes = bytes.map some := by
  have none : redactor.secrets = [] := List.isEmpty_iff.mp empty
  apply List.ext_getElem?
  intro i
  rw [masked, getElem?_mask, List.getElem?_map, none]
  simp [Covered]

theorem leading_eq (redactor : Redactor) (bytes : Bytes) (limit : Nat) :
    redactor.leading bytes limit = replaceRuns marker ((redactor.masked bytes).take limit) := by
  unfold leading
  by_cases empty : redactor.isEmpty = true
  · rw [if_pos empty, masked_of_isEmpty empty, ← List.map_take]
    have shown := replaceRuns_shown marker (bytes.take limit) []
    rw [List.append_nil, replaceRuns_nil, List.append_nil] at shown
    rw [shown]
    rcases Nat.le_total limit bytes.length with short | long
    · rw [Nat.min_eq_left short]
    · rw [Nat.min_eq_right long, List.take_length, List.take_of_length_le long]
  · rw [if_neg empty, foldl_pushByte, List.map_take, zip_hidden]
    rfl

theorem length_le_lookahead (redactor : Redactor) : ∀ secret ∈ redactor.secrets, secret.length ≤ redactor.lookahead := by
  intro secret member
  unfold lookahead
  have known : secret.length ∈ redactor.secrets.map List.length := List.mem_map_of_mem member
  cases longest : (redactor.secrets.map List.length).max? with
  | none =>
      rw [List.max?_eq_none_iff] at longest
      rw [longest] at known
      cases known
  | some most => exact (List.max?_eq_some_iff.mp longest).2 _ known

/-- The lookahead shows what is hidden before it. -/
theorem masked_take (redactor : Redactor) (stream : Bytes) {limit retained : Nat}
    (ahead : limit + redactor.lookahead ≤ retained) :
    (redactor.masked (stream.take retained)).take limit = (redactor.masked stream).take limit := by
  unfold masked
  rw [← mask_take, ← mask_take, List.take_take, Nat.min_eq_left (by omega)]
  apply mask_congr
  intro i inside
  rw [List.length_take] at inside
  apply covered_take redactor.length_le_lookahead
  omega

end Redactor



/-! ## Texts -/

/-- UTF-8 synchronizes itself at the first bytes of its characters. -/
theorem utf8_synchronizing : Synchronizing String.utf8EncodeChar UInt8.IsUTF8FirstByte where
  shape := by
    intro c
    have leads := fun i inside => @UInt8.isUTF8FirstByte_getElem_utf8EncodeChar c i inside
    cases word : String.utf8EncodeChar c with
    | nil => exact absurd word String.utf8EncodeChar_ne_nil
    | cons first rest =>
        simp only [word] at leads
        refine ⟨first, rest, rfl, ?_, ?_⟩
        · exact (leads 0 (by simp)).mpr rfl
        · intro b member first
          obtain ⟨i, inside, rfl⟩ := List.getElem_of_mem member
          have impossible := (leads (i + 1) (by simpa using inside)).mp first
          omega
  apart := by
    intro c c' x y same
    have bytes := congrArg List.toByteArray same
    rw [List.toByteArray_append, List.toByteArray_append] at bytes
    have decoded := @ByteArray.utf8DecodeChar?_utf8EncodeChar_append x.toByteArray c
    rw [bytes, ByteArray.utf8DecodeChar?_utf8EncodeChar_append] at decoded
    exact (Option.some.inj decoded).symm

theorem utf8_toList (text : String) : utf8 text = text.toList.flatMap String.utf8EncodeChar := by
  rw [← Json.utf8_ofList, String.ofList_toList]

theorem marker_eq : marker = "[REDACTED]".toList.flatMap String.utf8EncodeChar := by
  decide

/-- Whole characters are hidden, so what replaces them leaves a text. -/
theorem Redactor.text_eq_some {redactor : Redactor}
    (valid : ∀ secret ∈ redactor.secrets, ∃ name, secret = utf8 name) (text : String) :
    ∃ shown, redactor.text text = some shown := by
  obtain ⟨names, secrets⟩ : ∃ names : List (List Char),
      names.map (·.flatMap String.utf8EncodeChar) = redactor.secrets := by
    apply (Set.ext_iff.mp (Set.range_list_map _) redactor.secrets).mpr
    intro secret member
    obtain ⟨name, rfl⟩ := valid secret member
    exact ⟨name.toList, (utf8_toList name).symm⟩
  have nonempty : ∀ name ∈ names, name ≠ [] := by
    intro name member empty
    apply redactor.nonempty (name.flatMap String.utf8EncodeChar)
    · rw [← secrets]
      exact List.mem_map.mpr ⟨name, member, rfl⟩
    · rw [empty, List.flatMap_nil]
  have hides : redactor.masked (utf8 text) =
      (text.toList.mapIdx fun k c => (c, decide (Covered names text.toList k))).flatMap
        (Synchronizing.spread String.utf8EncodeChar) := by
    unfold masked
    rw [utf8_toList]
    apply Synchronizing.mask_flatMap
    intro before c after j is inside
    rw [← secrets, is]
    exact utf8_synchronizing.covered_iff nonempty inside
  refine ⟨String.ofList (replaceRuns "[REDACTED]".toList
    ((text.toList.mapIdx fun k c => (c, decide (Covered names text.toList k))).map veil)), ?_⟩
  have whole : (redactor.masked (utf8 text)).length ≤ (utf8 text).length := by
    rw [masked, length_mask]
  rw [Redactor.text, fromUtf8_eq_some, Json.utf8_ofList, Redactor.bytes, leading_eq,
    List.take_of_length_le whole, hides, marker_eq, utf8_synchronizing.replaceRuns_spread]

end Metewand.Worker
