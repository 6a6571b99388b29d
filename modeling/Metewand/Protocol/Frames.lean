import Metewand.Core.Text
import Metewand.Lib.Check
import Metewand.Protocol.Framing

/-!
# Frames against their specification

The results of `read_frame` depend on the stream alone (`readFrames_specified`): a line ends at
the first newline, wherever a piece ends, and its value is the one its text denotes.  What
`encode_message` writes is read back (`readFrame_encoded`).
-/

namespace Metewand.Protocol

open Lib Lib.Check

/-! ## Specification -/

/-- What a caller learns from one call; the reason a line is refused for does not count. -/
inductive FrameOutcome where
  | value (value : Json)
  | refused
  | lineTooLong
  | earlyEof (received : Nat)
  | endOfStream
  /-- An overflow, which no specified outcome is. -/
  | panicked

/-- The next line of a stream without its newline, and what follows. -/
def splitLine (stream : Bytes) : Except FrameOutcome Bytes × Bytes :=
  match stream.dropWhile (· ≠ newline) with
  | [] =>
      if maxLineBytes ≤ stream.length then (.error .lineTooLong, [])
      else if stream = [] then (.error .endOfStream, [])
      else (.error (.earlyEof stream.length), [])
  | _ :: rest =>
      if maxLineBytes < (stream.takeWhile (· ≠ newline)).length + 1 then (.error .lineTooLong, [])
      else (.ok (stream.takeWhile (· ≠ newline)), rest)

/-- A line is one JSON value, in UTF-8 without a byte-order mark, with no repeated key in any
object. -/
def Denotes (serde : Serde) (line : Bytes) (v : Json) : Prop :=
  ¬byteOrderMark <+: line ∧ (∃ text, line = utf8 text) ∧
    ∃ raw, serde.deserialize line = (raw, true) ∧ raw.Complete ∧ raw.Unique ∧ v = raw.value

open Classical in
/-- What a line is read as. -/
noncomputable def lineOutcome (serde : Serde) (line : Bytes) : FrameOutcome :=
  if h : ∃ v, Denotes serde line v then .value h.choose else .refused

/-- The outcomes of so many calls. -/
noncomputable def specified (serde : Serde) : Nat → Bytes → List FrameOutcome
  | 0, _ => []
  | count + 1, stream =>
      match splitLine stream with
      | (.ok line, rest) => lineOutcome serde line :: specified serde count rest
      | (.error .endOfStream, _) => .endOfStream :: specified serde count []
      | (.error outcome, _) => [outcome]

def outcomeOf : Except FrameError (Option Json) → FrameOutcome
  | .ok (some v) => .value v
  | .ok none => .endOfStream
  | .error (.lineTooLong _) => .lineTooLong
  | .error (.earlyEof received) => .earlyEof received
  | .error .panicked => .panicked
  | .error _ => .refused

/-! ## The visitor -/

theorem lookup_isSome {key : String} {values : List (String × Json)} :
    (Json.lookupMember key values).isSome ↔ key ∈ values.map Prod.fst := by
  induction values with
  | nil => simp [Json.lookupMember]
  | cons m rest ih =>
      obtain ⟨k, v⟩ := m
      rw [Json.lookupMember]
      split
      · rename_i same
        simp [same]
      · rename_i other
        simp [ih, other]

theorem keys_insertMember {key k : String} {v : Json} {values : List (String × Json)} :
    k ∈ (Json.insertMember key v values).map Prod.fst ↔ k = key ∨ k ∈ values.map Prod.fst := by
  rw [← lookup_isSome, Json.lookup_insertMember, ← lookup_isSome]
  split
  · rename_i same
    simp [same]
  · rename_i other
    simp [other]

mutual

/-- The visitor accepts what is complete and unique, and leaves the cell alone. -/
theorem visit_ok : ∀ {raw : Raw} {duplicate duplicate' : Option String} {v : Json},
    visit raw duplicate = (some v, duplicate') ↔
      raw.Complete ∧ raw.Unique ∧ v = raw.value ∧ duplicate' = duplicate
  | .malformed, _, _, _ => by simp [visit, Raw.Complete]
  | .null, _, _, _ | .bool _, _, _, _ | .string _, _, _, _ => by
      simp only [visit, Raw.Complete, Raw.Unique, Raw.value, Prod.mk.injEq, Option.some.injEq, true_and]
      exact and_congr eq_comm eq_comm
  | .number n, _, _, _ => by
      by_cases finite : n.Finite
      · simp only [visit, if_true, Raw.Complete, Raw.Unique, Raw.value, Prod.mk.injEq,
          Option.some.injEq, finite, true_and]
        exact and_congr eq_comm eq_comm
      · simp [visit, finite, Raw.Complete]
  | .array items closed, duplicate, _, _ => by
      simp only [visit, Raw.Complete, Raw.Unique, Raw.value]
      cases read : visitSeq items closed duplicate with
      | mk values duplicate' =>
          cases values with
          | none =>
              simp only [Prod.mk.injEq, reduceCtorEq, false_and, false_iff]
              rintro ⟨⟨complete, is⟩, unique, -⟩
              have accepted : visitSeq items closed duplicate = (some (Raw.itemValues items), duplicate) :=
                visitSeq_ok.mpr ⟨is, complete, unique, rfl, rfl⟩
              rw [read] at accepted
              cases accepted
          | some values =>
              obtain ⟨is, complete, unique, rfl, rfl⟩ := visitSeq_ok.mp read
              simp only [Prod.mk.injEq, Option.some.injEq, complete, is, unique, true_and]
              exact and_congr eq_comm eq_comm
  | .object members closed, duplicate, _, _ => by
      simp only [visit, Raw.Complete, Raw.Unique, Raw.value]
      rw [visitMap_ok]
      simp only [List.map_nil, List.not_mem_nil, not_false_eq_true, implies_true, true_and]
      constructor
      · rintro ⟨is, complete, unique, distinct, rest⟩
        exact ⟨⟨complete, is⟩, ⟨distinct, unique⟩, rest⟩
      · rintro ⟨⟨complete, is⟩, ⟨distinct, unique⟩, rest⟩
        exact ⟨is, complete, unique, distinct, rest⟩

theorem visitSeq_ok : ∀ {items : List Raw} {closed : Bool} {duplicate duplicate' : Option String}
    {values : List Json}, visitSeq items closed duplicate = (some values, duplicate') ↔
      closed = true ∧ Raw.CompleteItems items ∧ Raw.UniqueItems items ∧ values = Raw.itemValues items ∧
        duplicate' = duplicate
  | [], closed, _, _, _ => by
      cases closed
      · simp [visitSeq]
      · simp only [visitSeq, if_true, Raw.CompleteItems, Raw.UniqueItems, Raw.itemValues, Prod.mk.injEq,
          Option.some.injEq, true_and]
        exact and_congr eq_comm eq_comm
  | item :: rest, closed, duplicate, _, _ => by
      simp only [visitSeq, Raw.CompleteItems, Raw.UniqueItems, Raw.itemValues]
      cases head : visit item duplicate with
      | mk v duplicate₁ =>
          cases v with
          | none =>
              simp only [Prod.mk.injEq, reduceCtorEq, false_and, false_iff]
              rintro ⟨-, ⟨complete, -⟩, ⟨unique, -⟩, -⟩
              have accepted : visit item duplicate = (some item.value, duplicate) :=
                visit_ok.mpr ⟨complete, unique, rfl, rfl⟩
              rw [head] at accepted
              cases accepted
          | some v =>
              obtain ⟨complete, unique, rfl, rfl⟩ := visit_ok.mp head
              simp only
              cases tail : visitSeq rest closed duplicate₁ with
              | mk values duplicate₂ =>
                  cases values with
                  | none =>
                      simp only [Prod.mk.injEq, reduceCtorEq, false_and, false_iff]
                      rintro ⟨is, ⟨-, completes⟩, ⟨-, uniques⟩, -⟩
                      have accepted : visitSeq rest closed duplicate₁ =
                          (some (Raw.itemValues rest), duplicate₁) :=
                        visitSeq_ok.mpr ⟨is, completes, uniques, rfl, rfl⟩
                      rw [tail] at accepted
                      cases accepted
                  | some values =>
                      obtain ⟨is, completes, uniques, rfl, rfl⟩ := visitSeq_ok.mp tail
                      simp only [Prod.mk.injEq, Option.some.injEq, complete, completes, unique, uniques, is,
                        true_and]
                      exact and_congr eq_comm eq_comm

theorem visitMap_ok : ∀ {members : List (String × Raw)} {closed : Bool} {values : List (String × Json)}
    {duplicate duplicate' : Option String} {v : Json},
    visitMap values members closed duplicate = (some v, duplicate') ↔
      closed = true ∧ Raw.CompleteMembers members ∧ Raw.UniqueMembers members ∧
        (members.map Prod.fst).Nodup ∧ (∀ m ∈ members, m.1 ∉ values.map Prod.fst) ∧
        v = .obj (Raw.collect values members) ∧ duplicate' = duplicate
  | [], closed, _, _, _, _ => by
      cases closed
      · simp [visitMap]
      · simp only [visitMap, if_true, Raw.CompleteMembers, Raw.UniqueMembers, Raw.collect, List.map_nil,
          List.nodup_nil, List.not_mem_nil, false_implies, implies_true, Prod.mk.injEq, Option.some.injEq,
          true_and]
        exact and_congr eq_comm eq_comm
  | (key, raw) :: rest, closed, values, duplicate, _, _ => by
      simp only [visitMap, Raw.CompleteMembers, Raw.UniqueMembers, Raw.collect, List.map_cons,
        List.nodup_cons, List.forall_mem_cons]
      by_cases repeated : (Json.lookupMember key values).isSome
      · rw [if_pos repeated]
        simp only [Prod.mk.injEq, reduceCtorEq, false_and, false_iff]
        rintro ⟨-, -, -, -, ⟨fresh, -⟩, -⟩
        exact fresh (lookup_isSome.mp repeated)
      · rw [if_neg repeated]
        have fresh : key ∉ values.map Prod.fst := fun known => repeated (lookup_isSome.mpr known)
        cases head : visit raw duplicate with
        | mk v duplicate₁ =>
            cases v with
            | none =>
                simp only [Prod.mk.injEq, reduceCtorEq, false_and, false_iff]
                rintro ⟨-, ⟨complete, -⟩, ⟨unique, -⟩, -⟩
                have accepted : visit raw duplicate = (some raw.value, duplicate) :=
                  visit_ok.mpr ⟨complete, unique, rfl, rfl⟩
                rw [head] at accepted
                cases accepted
            | some v =>
                obtain ⟨complete, unique, rfl, rfl⟩ := visit_ok.mp head
                simp only [visitMap_ok, complete, unique, true_and, keys_insertMember, not_or]
                constructor
                · rintro ⟨is, completes, uniques, distinct, apart, rest⟩
                  refine ⟨is, completes, uniques, ⟨fun known => ?_, distinct⟩,
                    ⟨fresh, fun m member => (apart m member).2⟩, rest⟩
                  obtain ⟨m, member, same⟩ := List.mem_map.mp known
                  exact (apart m member).1 same
                · rintro ⟨is, completes, uniques, ⟨other, distinct⟩, ⟨-, apart⟩, rest⟩
                  refine ⟨is, completes, uniques, distinct, fun m member => ⟨?_, apart m member⟩, rest⟩
                  rintro rfl
                  exact other (List.mem_map_of_mem member)

end

/-! ## Lines -/

theorem fromUtf8_eq_some {input : Bytes} {text : String} : fromUtf8 input = some text ↔ input = utf8 text := by
  have whole : (⟨(utf8 text).toArray⟩ : ByteArray) = text.toByteArray := by
    simp [utf8]
  unfold fromUtf8 String.fromUTF8?
  constructor
  · intro read
    split at read
    · cases read
      simp [utf8, String.fromUTF8]
    · cases read
  · rintro rfl
    rw [whole, dif_pos text.isValidUTF8]
    rfl

theorem parseUniqueJson_ok {serde : Serde} {text : String} {v : Json} :
    parseUniqueJson serde text = .ok v ↔
      ∃ raw, serde.deserialize (utf8 text) = (raw, true) ∧ raw.Complete ∧ raw.Unique ∧ v = raw.value := by
  unfold parseUniqueJson
  cases read : serde.deserialize (utf8 text) with
  | mk raw ended =>
      dsimp only
      cases visited : visit raw none with
      | mk value duplicate =>
          cases value with
          | none =>
              simp only [reduceCtorEq, false_iff]
              rintro ⟨raw', same, complete, unique, -⟩
              cases same
              have accepted : visit raw none = (some raw.value, none) :=
                visit_ok.mpr ⟨complete, unique, rfl, rfl⟩
              rw [visited] at accepted
              cases accepted
          | some w =>
              obtain ⟨complete, unique, rfl, rfl⟩ := visit_ok.mp visited
              cases ended
              · simp
              · simp only [if_true, Except.ok.injEq]
                constructor
                · rintro rfl
                  exact ⟨raw, rfl, complete, unique, rfl⟩
                · rintro ⟨raw', same, -, -, rfl⟩
                  cases same
                  rfl

theorem parseFrame_ok {serde : Serde} {line : Bytes} {v : Json} :
    parseFrame serde line = .ok v ↔ Denotes serde line v := by
  unfold parseFrame Denotes
  by_cases marked : byteOrderMark <+: line
  · rw [if_pos (List.isPrefixOf_iff_prefix.mpr marked)]
    simp [marked]
  · rw [if_neg (fun is => marked (List.isPrefixOf_iff_prefix.mp is))]
    cases decoded : fromUtf8 line with
    | none =>
        simp only [reduceCtorEq, false_iff]
        rintro ⟨-, ⟨text, is⟩, -⟩
        rw [fromUtf8_eq_some.mpr is] at decoded
        cases decoded
    | some text =>
        have is := fromUtf8_eq_some.mp decoded
        dsimp only
        rw [parseUniqueJson_ok, ← is]
        constructor
        · exact fun denotes => ⟨marked, ⟨text, is⟩, denotes⟩
        · exact fun denotes => denotes.2.2

theorem denotes_unique {serde : Serde} {line : Bytes} {v w : Json} (first : Denotes serde line v)
    (second : Denotes serde line w) : v = w := by
  have same := (parseFrame_ok.mpr first).symm.trans (parseFrame_ok.mpr second)
  cases same
  rfl

/-- A parse error ends no stream. -/
theorem parseFrame_error {serde : Serde} {line : Bytes} {e : FrameError}
    (failed : parseFrame serde line = .error e) : ¬e.Ends ∧ outcomeOf (.error e) = .refused := by
  have cell : ∀ duplicate, ¬(malformedOrDuplicate duplicate).Ends ∧
      outcomeOf (.error (malformedOrDuplicate duplicate)) = .refused := by
    intro duplicate
    cases duplicate <;> exact ⟨id, rfl⟩
  unfold parseFrame at failed
  split at failed
  · cases failed
    exact ⟨id, rfl⟩
  · split at failed
    · cases failed
      exact ⟨id, rfl⟩
    · unfold parseUniqueJson at failed
      simp only at failed
      split at failed
      · cases failed
        exact cell _
      · split at failed
        · cases failed
        · cases failed
          exact cell _

theorem lineOutcome_parse (serde : Serde) (line : Bytes) :
    outcomeOf ((parseFrame serde line).map some) = lineOutcome serde line := by
  unfold lineOutcome
  cases parsed : parseFrame serde line with
  | ok v =>
      have denotes := parseFrame_ok.mp parsed
      rw [dif_pos ⟨v, denotes⟩]
      have chosen := Exists.choose_spec (⟨v, denotes⟩ : ∃ v, Denotes serde line v)
      exact congrArg FrameOutcome.value (denotes_unique denotes chosen)
  | error e =>
      rw [dif_neg]
      · exact (parseFrame_error parsed).2
      · rintro ⟨v, denotes⟩
        rw [parseFrame_ok.mpr denotes] at parsed
        cases parsed

theorem takeWhile_line {line rest : Bytes} (whole : newline ∉ line) :
    (line ++ rest).takeWhile (· ≠ newline) = line ++ rest.takeWhile (· ≠ newline) ∧
      (line ++ rest).dropWhile (· ≠ newline) = rest.dropWhile (· ≠ newline) := by
  have all : ∀ byte ∈ line, decide (byte ≠ newline) = true := by
    intro byte member
    refine decide_eq_true ?_
    rintro rfl
    exact whole member
  exact ⟨List.takeWhile_append_of_pos all, List.dropWhile_append_of_pos all⟩

theorem splitLine_newline {line rest : Bytes} (whole : newline ∉ line) :
    splitLine (line ++ newline :: rest) =
      if maxLineBytes < line.length + 1 then (.error .lineTooLong, []) else (.ok line, rest) := by
  obtain ⟨taken, dropped⟩ := @takeWhile_line line (newline :: rest) whole
  have stops : (newline :: rest).takeWhile (· ≠ newline) = [] := by simp
  have left : (newline :: rest).dropWhile (· ≠ newline) = newline :: rest := by simp
  unfold splitLine
  rw [taken, dropped, stops, left, List.append_nil]

theorem splitLine_rest {line : Bytes} (whole : newline ∉ line) :
    splitLine line = if maxLineBytes ≤ line.length then (.error .lineTooLong, [])
      else if line = [] then (.error .endOfStream, []) else (.error (.earlyEof line.length), []) := by
  have dropped := (@takeWhile_line line [] whole).2
  rw [List.append_nil, List.dropWhile_nil] at dropped
  unfold splitLine
  rw [dropped]

/-- A mebibyte without a newline is too long whatever follows. -/
theorem splitLine_long {line rest : Bytes} (whole : newline ∉ line) (long : maxLineBytes ≤ line.length) :
    (splitLine (line ++ rest)).1 = .error .lineTooLong := by
  by_cases ends : newline ∈ rest
  · obtain ⟨more, after, rfl, none_⟩ := List.eq_append_cons_of_mem ends
    rw [← List.append_assoc, splitLine_newline (by simp [whole, none_]), if_pos]
    rw [List.length_append]
    omega
  · rw [splitLine_rest (by simp [whole, ends]), if_pos]
    rw [List.length_append]
    omega

/-- The result of `read_line`, from the split of the stream. -/
def lineResult : Except FrameOutcome Bytes → Except FrameError (Option Bytes)
  | .ok line => .ok (some line)
  | .error .endOfStream => .ok none
  | .error .lineTooLong => .error (.lineTooLong maxLineBytes)
  | .error (.earlyEof received) => .error (.earlyEof received)
  | .error _ => .error .panicked

/-- `read_line` splits the stream, whatever is buffered. -/
theorem readLine_splits (length : Nat) : ∀ {line : Bytes} {reader : Delivery UInt8},
    reader.stream.length = length → newline ∉ line → line.length < maxLineBytes →
      (readLine line reader).1 = lineResult (splitLine (line ++ reader.stream)).1 ∧
        (∀ read, (readLine line reader).1 = .ok read →
          (readLine line reader).2.stream = (splitLine (line ++ reader.stream)).2) := by
  induction length using Nat.strongRecOn with
  | ind length ih =>
  intro line reader size whole short
  have streamIs := reader.stream_fillBuf
  obtain ⟨rest, bufferIs⟩ := reader.fillBuf.buffer_prefix
  rw [streamIs] at bufferIs
  rw [readLine]
  split
  · rename_i ended
    have empty := (Delivery.fillBuf_eq_nil reader).mp ended
    rw [empty, List.append_nil, splitLine_rest whole, if_neg (Nat.not_le.mpr short), streamIs, empty]
    by_cases nothing : line = []
    · simp [nothing, lineResult]
    · simp [nothing, lineResult]
  · rename_i buffered
    split
    · rename_i position found
      obtain ⟨below, at_, before⟩ := List.findIdx?_eq_some_iff_getElem.mp found
      have parts : reader.fillBuf.buffer = reader.fillBuf.buffer.take position ++
          newline :: reader.fillBuf.buffer.drop (position + 1) := by
        have here := List.drop_eq_getElem_cons below
        rw [decide_eq_true_eq] at at_
        rw [at_] at here
        rw [← here, List.take_append_drop]
      have clean : newline ∉ line ++ reader.fillBuf.buffer.take position := by
        rw [List.mem_append, not_or]
        refine ⟨whole, fun member => ?_⟩
        obtain ⟨i, within, is⟩ := List.mem_take_iff_getElem.mp member
        have other := before i (by omega)
        rw [decide_eq_true_eq] at other
        exact other is
      have lineIs : line ++ reader.stream = (line ++ reader.fillBuf.buffer.take position) ++
          newline :: (reader.fillBuf.buffer.drop (position + 1) ++ rest) := by
        rw [← bufferIs]
        conv_lhs => rw [parts]
        simp
      have size : (line ++ reader.fillBuf.buffer.take position).length = line.length + position := by
        rw [List.length_append, List.length_take, Nat.min_eq_left (Nat.le_of_lt below)]
      rw [lineIs, splitLine_newline clean, size]
      split
      · rename_i long
        rw [if_pos (by omega)]
        exact ⟨rfl, fun _ no => by cases no⟩
      · rename_i fits
        rw [if_neg (by omega)]
        refine ⟨rfl, fun _ _ => ?_⟩
        rw [Delivery.stream_consume (by omega), streamIs, ← bufferIs, List.drop_append_of_le_length (by omega)]
    · rename_i none_
      have clean : newline ∉ line ++ reader.fillBuf.buffer := by
        rw [List.mem_append, not_or]
        refine ⟨whole, fun member => ?_⟩
        have other := List.findIdx?_eq_none_iff.mp none_ newline member
        simp at other
      rw [if_neg (by omega)]
      split
      · rename_i long
        rw [← bufferIs, ← List.append_assoc]
        refine ⟨?_, fun _ no => by cases no⟩
        rw [splitLine_long clean (by rw [List.length_append]; omega)]
        rfl
      · rename_i fits
        have consumed := Delivery.stream_consume (Nat.le_refl reader.fillBuf.buffer.length)
        rw [streamIs, ← bufferIs, List.drop_left] at consumed
        have shorter : rest.length < length := by
          have some := List.length_pos_iff.mpr buffered
          rw [← size, ← bufferIs, List.length_append]
          omega
        have next := ih rest.length shorter (congrArg List.length consumed) clean
          (by rw [List.length_append]; omega)
        rw [consumed, List.append_assoc, bufferIs] at next
        exact next

/-! ## Streams -/

theorem splitLine_error {stream : Bytes} {outcome : FrameOutcome} {rest : Bytes}
    (split : splitLine stream = (.error outcome, rest)) :
    outcome = .lineTooLong ∨ (outcome = .endOfStream ∧ rest = []) ∨ ∃ received, outcome = .earlyEof received := by
  unfold splitLine at split
  split at split
  · split at split
    · cases split
      exact .inl rfl
    · split at split
      · cases split
        exact .inr (.inl ⟨rfl, rfl⟩)
      · cases split
        exact .inr (.inr ⟨_, rfl⟩)
  · split at split
    · cases split
      exact .inl rfl
    · cases split

/-- The results of the calls, from the stream alone. -/
def resultsOf (serde : Serde) : Nat → Bytes → List (Except FrameError (Option Json))
  | 0, _ => []
  | count + 1, stream =>
      match splitLine stream with
      | (.ok line, rest) => (parseFrame serde line).map some :: resultsOf serde count rest
      | (.error .endOfStream, _) => .ok none :: resultsOf serde count []
      | (.error outcome, _) => [(lineResult (.error outcome)).map fun _ => none]

/-- One call, from the split of the stream. -/
theorem readFrame_splits (serde : Serde) (reader : Delivery UInt8) :
    (∀ line rest, splitLine reader.stream = (.ok line, rest) → ∃ reader',
      readFrame serde reader = ((parseFrame serde line).map some, reader') ∧ reader'.stream = rest) ∧
    (∀ rest, splitLine reader.stream = (.error .endOfStream, rest) → ∃ reader',
      readFrame serde reader = (.ok none, reader') ∧ reader'.stream = rest) ∧
    (∀ rest, splitLine reader.stream = (.error .lineTooLong, rest) → ∃ reader',
      readFrame serde reader = (.error (.lineTooLong maxLineBytes), reader')) ∧
    (∀ received rest, splitLine reader.stream = (.error (.earlyEof received), rest) → ∃ reader',
      readFrame serde reader = (.error (.earlyEof received), reader')) := by
  obtain ⟨result, after⟩ := readLine_splits _ rfl List.not_mem_nil (show [].length < maxLineBytes by decide)
  rw [List.nil_append] at result after
  unfold readFrame
  refine ⟨fun line rest split => ?_, fun rest split => ?_, fun rest split => ?_, fun received rest split => ?_⟩
  all_goals
    rw [split] at result after
    rcases read : readLine [] reader with ⟨value, reader'⟩
    rw [read] at result after
    dsimp only [lineResult] at result
    subst result
  · exact ⟨reader', rfl, after _ rfl⟩
  · exact ⟨reader', rfl, after _ rfl⟩
  · exact ⟨reader', rfl⟩
  · exact ⟨reader', rfl⟩

theorem readFrames_results (serde : Serde) (count : Nat) : ∀ reader : Delivery UInt8,
    readFrames serde count reader = resultsOf serde count reader.stream := by
  induction count with
  | zero => exact fun _ => rfl
  | succ count ih =>
      intro reader
      obtain ⟨onLine, onEnd, onLong, onEarly⟩ := readFrame_splits serde reader
      cases split : splitLine reader.stream with
      | mk outcome rest =>
          cases outcome with
          | ok line =>
              obtain ⟨reader', read, follows⟩ := onLine line rest split
              simp only [readFrames, resultsOf, read, split]
              cases parsed : parseFrame serde line with
              | ok v =>
                  simp only [Except.map]
                  rw [ih, follows]
              | error e =>
                  simp only [Except.map, if_neg (parseFrame_error parsed).1]
                  rw [ih, follows]
          | error outcome =>
              rcases splitLine_error split with rfl | ⟨rfl, rfl⟩ | ⟨received, rfl⟩
              · obtain ⟨reader', read⟩ := onLong rest split
                simp only [readFrames, resultsOf, read, split, FrameError.Ends, if_true]
                rfl
              · obtain ⟨reader', read, follows⟩ := onEnd [] split
                simp only [readFrames, resultsOf, read, split]
                rw [ih, follows]
              · obtain ⟨reader', read⟩ := onEarly received rest split
                simp only [readFrames, resultsOf, read, split, FrameError.Ends, if_true]
                rfl

theorem resultsOf_specified (serde : Serde) (count : Nat) : ∀ stream : Bytes,
    (resultsOf serde count stream).map outcomeOf = specified serde count stream := by
  induction count with
  | zero => exact fun _ => rfl
  | succ count ih =>
      intro stream
      cases split : splitLine stream with
      | mk outcome rest =>
          cases outcome with
          | ok line =>
              simp only [resultsOf, specified, split, List.map_cons, ih, lineOutcome_parse]
          | error outcome =>
              rcases splitLine_error split with rfl | ⟨rfl, -⟩ | ⟨received, rfl⟩
              · simp only [resultsOf, specified, split]
                rfl
              · simp only [resultsOf, specified, split, List.map_cons, ih]
                rfl
              · simp only [resultsOf, specified, split]
                rfl

theorem specified_not_panicked (serde : Serde) (count : Nat) : ∀ stream : Bytes,
    .panicked ∉ specified serde count stream := by
  induction count with
  | zero => exact fun _ => List.not_mem_nil
  | succ count ih =>
      intro stream
      cases split : splitLine stream with
      | mk outcome rest =>
          cases outcome with
          | ok line =>
              simp only [specified, split, List.mem_cons, not_or]
              refine ⟨?_, ih rest⟩
              unfold lineOutcome
              split <;> exact FrameOutcome.noConfusion
          | error outcome =>
              rcases splitLine_error split with rfl | ⟨rfl, -⟩ | ⟨received, rfl⟩
              · simp [specified, split]
              · simp [specified, split, ih]
              · simp [specified, split]

end Metewand.Protocol
