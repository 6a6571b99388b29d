import Metewand.Buffered.Documents
import Metewand.Core.Separation
import Metewand.Core.Text
import Metewand.Protocol.Wire

/-!
# Reading a buffer back

What the canonical bytes of a row and of a manifest read as.  Numbers come back in the
canonical domain: a metric or a threshold may come back as another number of the same
value (`asF64?_normal`).  Everything else comes back as it was written.
-/

namespace Metewand

open Lib Lib.Check

/-! ## Numbers -/

namespace F64

theorem scaled {n total low high : Nat} (sum : total = low + high) : n * 2 ^ total = n * 2 ^ low * 2 ^ high := by
  rw [sum, Nat.pow_add, Nat.mul_assoc]

/-- A signed product with a power of two, divided out. -/
theorem signed_cancel {sign value : Int} {quotient product total : Nat} (split : product = quotient * 2 ^ total) :
    sign * (product : Nat) = value * (2 ^ total : Nat) ↔ sign * (quotient : Nat) = value := by
  have unit : ((2 ^ total : Nat) : Int) ≠ 0 := by
    have positive := Nat.two_pow_pos total
    omega
  rw [split, Int.natCast_mul, ← Int.mul_assoc]
  constructor
  · intro same
    exact Int.eq_of_mul_eq_mul_right unit same
  · intro same
    rw [same]

/-- A value is integral where it is an integer, scaled as every magnitude is. -/
theorem integral?_eq_some_iff {bits : UInt64} {value : Int} :
    Json.integral? bits = some value ↔ magnitude bits = value * (2 ^ 1075 : Nat) := by
  unfold Json.integral? magnitude
  generalize signed : (if bits.toNat / 2 ^ 63 = 1 then (-1 : Int) else 1) = sign
  generalize Json.significand bits = s
  generalize Json.scale bits = k
  generalize 1075 = total
  simp only
  split
  · rename_i large
    rw [Option.some.injEq, signed_cancel (scaled (Nat.sub_add_cancel large).symm)]
  · rename_i small
    have sum : total = total - k + k := (Nat.sub_add_cancel (Nat.le_of_not_le small)).symm
    split
    · rename_i whole
      have split : s * 2 ^ k = s / 2 ^ (total - k) * 2 ^ total := by
        rw [scaled sum, Nat.div_mul_cancel (Nat.dvd_of_mod_eq_zero whole)]
      rw [Option.some.injEq, signed_cancel split]
    · rename_i broken
      refine ⟨fun impossible => (nomatch impossible), fun same => absurd ?_ broken⟩
      have unit : sign.natAbs = 1 := by
        rw [← signed]
        split <;> rfl
      have sizes := congrArg Int.natAbs same
      rw [Int.natAbs_mul, Int.natAbs_mul, Int.natAbs_natCast, Int.natAbs_natCast, unit, Nat.one_mul,
        scaled sum] at sizes
      rw [Nat.eq_of_mul_eq_mul_right (Nat.two_pow_pos k) sizes]
      exact Nat.mul_mod_left _ _

/-- The bits of a positive safe integer: its exponent and its significand. -/
theorem round_safe {negative : Bool} {n : Nat} (positive : n ≠ 0) (safe : n ≤ maxSafeInteger) :
    (round negative (n * 2 ^ 1074) 0).toNat =
      (if negative then 2 ^ 63 else 0) + ((n.log2 + 1022) * 2 ^ 52 + n * 2 ^ (52 - n.log2)) ∧
    n.log2 ≤ 52 ∧ 2 ^ 52 ≤ n * 2 ^ (52 - n.log2) ∧ n * 2 ^ (52 - n.log2) < 2 ^ 53 := by
  have low : 2 ^ n.log2 ≤ n := Nat.log2_self_le positive
  have high : n < 2 ^ (n.log2 + 1) := Nat.lt_log2_self
  have small : n.log2 ≤ 52 := by
    refine Nat.lt_succ_iff.mp ((Nat.pow_lt_pow_iff_right (by omega : 1 < 2)).mp ?_)
    have bound : n < 2 ^ 53 := by
      unfold maxSafeInteger at safe
      omega
    exact Nat.lt_of_le_of_lt low bound
  have shifted : ∀ k, (n * 2 ^ k).log2 = n.log2 + k := by
    intro k
    refine (Nat.log2_eq_iff (Nat.mul_ne_zero positive (Nat.pos_iff_ne_zero.mp (Nat.two_pow_pos k)))).mpr ⟨?_, ?_⟩
    · rw [Nat.pow_add]
      exact Nat.mul_le_mul_right _ low
    · rw [Nat.add_right_comm, Nat.pow_add]
      exact Nat.mul_lt_mul_of_pos_right high (Nat.two_pow_pos _)
  have below : 2 ^ 52 ≤ n * 2 ^ (52 - n.log2) := by
    calc 2 ^ 52 = 2 ^ n.log2 * 2 ^ (52 - n.log2) := by rw [← Nat.pow_add, Nat.add_sub_cancel' small]
      _ ≤ n * 2 ^ (52 - n.log2) := Nat.mul_le_mul_right _ low
  have above : n * 2 ^ (52 - n.log2) < 2 ^ 53 := by
    calc n * 2 ^ (52 - n.log2) < 2 ^ (n.log2 + 1) * 2 ^ (52 - n.log2) :=
          Nat.mul_lt_mul_of_pos_right high (Nat.two_pow_pos _)
      _ = 2 ^ 53 := by
          rw [← Nat.pow_add]
          congr 1
          omega
  have split : 1074 = 52 - n.log2 + (n.log2 + 1022) := by omega
  refine ⟨?_, small, below, above⟩
  have raised : n.log2 + 1074 + 1 - 53 - 0 = n.log2 + 1022 := by omega
  have room : (n.log2 + 1022) * 2 ^ 52 + n * 2 ^ (52 - n.log2) ≤ 2047 * 2 ^ 52 := by omega
  have carried : ¬(2 ^ (n.log2 + 1022) < 2 * 0 ∨
      2 ^ (n.log2 + 1022) = 2 * 0 ∧ n * 2 ^ (52 - n.log2) % 2 = 1) := by
    have some : 0 < 2 ^ (n.log2 + 1022) := Nat.two_pow_pos _
    omega
  unfold round
  simp only [shifted, raised, Nat.add_zero]
  rw [scaled split, Nat.mul_div_cancel _ (Nat.two_pow_pos _), Nat.mul_mod_left, if_neg carried, Nat.min_eq_left room]
  have fits : (if negative = true then 2 ^ 63 else 0) +
      ((n.log2 + 1022) * 2 ^ 52 + n * 2 ^ (52 - n.log2)) < 2 ^ 64 := by
    split <;> omega
  rw [UInt64.toNat_ofNat', Nat.mod_eq_of_lt fits]

/-- A safe integer has its own value as a binary64 number. -/
theorem magnitude_ofInt {value : Int} (safe : value.natAbs ≤ maxSafeInteger) :
    isFinite (ofInt value) = true ∧ magnitude (ofInt value) = value * (2 ^ 1075 : Nat) := by
  rcases Decidable.em (value.natAbs = 0) with zero | positive
  · rw [Int.natAbs_eq_zero] at zero
    rw [zero]
    constructor
    · decide +kernel
    · rw [Int.zero_mul]
      decide +kernel
  · obtain ⟨bits, small, below, above⟩ := @round_safe (decide (value < 0)) _ positive safe
    generalize written : value.natAbs * 2 ^ (52 - value.natAbs.log2) = q at bits below above
    have whole : (ofInt value).toNat =
        (if value < 0 then 2 ^ 63 else 0) + ((value.natAbs.log2 + 1022) * 2 ^ 52 + q) := by
      unfold ofInt
      rw [bits]
      simp only [decide_eq_true_eq]
    have exponent : (ofInt value).toNat / 2 ^ 52 % 2 ^ 11 = value.natAbs.log2 + 1023 := by
      rw [whole]
      split <;> omega
    have fraction : (ofInt value).toNat % 2 ^ 52 + 2 ^ 52 = q := by
      rw [whole]
      split <;> omega
    have sign : (ofInt value).toNat / 2 ^ 63 = 1 ↔ value < 0 := by
      rw [whole]
      split <;> omega
    constructor
    · unfold isFinite
      rw [exponent]
      simpa using (by omega : ¬ value.natAbs.log2 + 1023 = 2047)
    · have scale : Json.scale (ofInt value) = value.natAbs.log2 + 1023 := by
        unfold Json.scale
        simp only [exponent]
        exact if_neg (by omega)
      have significand : Json.significand (ofInt value) = q := by
        unfold Json.significand
        simp only [exponent]
        rw [if_neg (by omega)]
        exact fraction
      have split : 1075 = 52 - value.natAbs.log2 + (value.natAbs.log2 + 1023) := by omega
      unfold magnitude
      rw [scale, significand, ← written, ← scaled split, Int.natCast_mul, ← Int.mul_assoc]
      generalize ((2 ^ 1075 : Nat) : Int) = unit
      rcases Decidable.em (value < 0) with negative | positive
      · rw [if_pos (sign.mpr negative), Int.ofNat_natAbs_of_nonpos (Int.le_of_lt negative), Int.neg_one_mul,
          Int.neg_neg]
      · rw [if_neg fun is => positive (sign.mp is), Int.one_mul, Int.natAbs_of_nonneg (Int.not_lt.mp positive)]

end F64

namespace Json

/-! ## Canonical numbers -/

/-- A number and what it is read back as have one finite value. -/
structure SameNumber (a b : UInt64) : Prop where
  left : F64.isFinite a = true
  right : F64.isFinite b = true
  value : F64.magnitude a = F64.magnitude b

theorem normalizeNumber_same {m n : Number} (normal : normalizeNumber m = .ok n) :
    ∃ a b, (Json.num m).asF64? = some a ∧ (Json.num n).asF64? = some b ∧ SameNumber a b := by
  cases m with
  | int value =>
      simp only [normalizeNumber] at normal
      split at normal
      · cases normal
      · rename_i safe
        cases normal
        have finite := (F64.magnitude_ofInt (Nat.le_of_not_lt safe)).1
        exact ⟨_, _, rfl, rfl, finite, finite, rfl⟩
  | float bits =>
      simp only [normalizeNumber, normalizeF64] at normal
      split at normal
      · cases normal
      · rename_i finite
        have plain : F64.isFinite bits = true := by simpa [F64.isFinite] using finite
        split at normal
        · rename_i value integral
          split at normal
          · cases normal
          · rename_i safe
            cases normal
            obtain ⟨whole, same⟩ := F64.magnitude_ofInt (Nat.le_of_not_lt safe)
            exact ⟨_, _, rfl, rfl, plain, whole,
              (F64.integral?_eq_some_iff.mp integral).trans same.symm⟩
        · cases normal
          exact ⟨_, _, rfl, rfl, plain, plain, rfl⟩

/-- A number is read back as a number of the same value, and nothing else is. -/
theorem asF64?_normal {v w : Json} (normal : v.normalize = .ok w) :
    (v.asF64? = none ∧ w.asF64? = none) ∨
      ∃ a b, v.asF64? = some a ∧ w.asF64? = some b ∧ SameNumber a b := by
  cases v with
  | num m =>
      simp only [normalize] at normal
      obtain ⟨n, read, rfl⟩ := ok_map.mp normal
      exact .inr (normalizeNumber_same read)
  | null | bool _ | str _ =>
      cases normal
      exact .inl ⟨rfl, rfl⟩
  | arr items =>
      simp only [normalize] at normal
      obtain ⟨items', -, rfl⟩ := ok_map.mp normal
      exact .inl ⟨rfl, rfl⟩
  | obj members =>
      simp only [normalize] at normal
      obtain ⟨members', -, rfl⟩ := ok_map.mp normal
      exact .inl ⟨rfl, rfl⟩

theorem isNaN_of_finite {bits : UInt64} (finite : F64.isFinite bits = true) : F64.isNaN bits = false := by
  unfold F64.isFinite at finite
  unfold F64.isNaN
  rw [decide_eq_true_eq] at finite
  exact decide_eq_false fun both => finite both.1

theorem SameNumber.eq {a b : UInt64} (same : SameNumber a b) : F64.eq a b = true := by
  unfold F64.eq
  rw [isNaN_of_finite same.left, isNaN_of_finite same.right]
  simpa using same.value

/-! ## Fields -/

theorem normalize_nat_ok {n : Nat} {w : Json} (normal : (nat n).normalize = .ok w) :
    w = nat n ∧ n ≤ maxSafeInteger := by
  simp only [nat, normalize, normalizeNumber] at normal
  split at normal
  · cases normal
  · rename_i safe
    cases normal
    exact ⟨rfl, by simpa using safe⟩

theorem asUnsigned_safe {n bits : Nat} (safe : n < 2 ^ bits) : (nat n).asUnsigned? bits = some n := by
  have cast : (0 : Int) ≤ (n : Int) ∧ (n : Int) < 2 ^ bits := by
    constructor
    · omega
    · exact_mod_cast safe
  simp only [asUnsigned?, nat]
  rw [if_pos cast, Int.toNat_natCast]

theorem mapM_some {α β : Type} {f : α → Option β} {g : α → β} {as : List α}
    (each : ∀ a ∈ as, f a = some (g a)) : as.mapM f = some (as.map g) := by
  induction as with
  | nil => rfl
  | cons a rest ih =>
      rw [List.mapM_cons, each a List.mem_cons_self, ih fun b member => each b (List.mem_cons_of_mem _ member)]
      rfl

/-- An object with distinct fields is read back field by field. -/
theorem structFields_object {fields : List (String × Json)} (distinct : (fields.map Prod.fst).Nodup)
    {w : Json} (normal : (object fields).normalize = .ok w) :
    w.structFields (fields.map Prod.fst) = some ((fields.map Prod.fst).map w.get) := by
  obtain ⟨members, built, perm⟩ := object_perm distinct
  rw [built] at normal
  simp only [normalize] at normal
  obtain ⟨members', read, rfl⟩ := ok_map.mp normal
  have keys := (keys_normal (normalizeMembers_ok.mp read)).symm ▸ perm.map Prod.fst
  have all : members'.all fun m => (fields.map Prod.fst).contains m.1 := by
    refine List.all_eq_true.mpr fun m member => ?_
    exact List.contains_iff_mem.mpr (keys.mem_iff.mp (List.mem_map_of_mem member))
  simp only [structFields]
  rw [if_pos all]
  refine mapM_some fun key member => ?_
  obtain ⟨m, inside, rfl⟩ := List.mem_map.mp (keys.mem_iff.mpr member)
  obtain ⟨value, found⟩ := exists_lookup (show (m.1, m.2) ∈ members' from inside)
  rw [lookupMember_eq, found, get, lookupMember_eq, found]
  rfl

/-- The members of an object that was written field by field. -/
theorem object_fields {fields : List (String × Json)} (distinct : (fields.map Prod.fst).Nodup) {w : Json}
    (normal : (object fields).normalize = .ok w) :
    ∀ field ∈ fields, field.2.normalize = .ok (w.get field.1) := by
  intro field member
  have read := normalize_get field.1 normal
  rw [get_object] at read
  have found : lookupEntry field.1 fields = some field.2 := by
    clear read normal
    induction fields with
    | nil => cases member
    | cons first rest ih =>
        obtain ⟨new, others⟩ := List.nodup_cons.mp distinct
        rw [lookupEntry]
        rcases List.mem_cons.mp member with here | later
        · rw [here, if_pos rfl]
        · rw [if_neg, ih others later]
          intro same
          exact new (same ▸ List.mem_map_of_mem later)
  rwa [found, Option.getD_some] at read

/-- How a structure of fixed fields is read back. -/
theorem object_read {names : List String} {fields : List (String × Json)} {w : Json}
    (normal : (object fields).normalize = .ok w) (distinct : names.Nodup) (named : fields.map Prod.fst = names) :
    w.structFields names = some (names.map w.get) ∧
      ∀ field ∈ fields, field.2.normalize = .ok (w.get field.1) := by
  rw [← named] at distinct ⊢
  exact ⟨structFields_object distinct normal, object_fields distinct normal⟩

end Json

namespace Buffered

open Json

/-! ## Rows -/

/-- A row as it is read back: its metrics are the canonical ones. -/
def TracePoint.ReadAs (p q : TracePoint) : Prop :=
  p.provisionalMetrics.normalize = .ok q.provisionalMetrics ∧
    q = { p with provisionalMetrics := q.provisionalMetrics }

theorem readWork_entries {entries done : List (String × Nat)} {work : Work}
    (safe : ∀ entry ∈ entries, entry.2 < 2 ^ 64) (whole : work.entries = done)
    (ascending : Ascending (done ++ entries)) :
    ∃ all : Work, (entries.map fun entry => (entry.1, Json.nat entry.2)).foldlM
      (fun work m => (m.2.asUnsigned? 64).map (work.insert m.1)) work = some all ∧
        all.entries = done ++ entries := by
  induction entries generalizing done work with
  | nil => exact ⟨work, rfl, by rw [List.append_nil, whole]⟩
  | cons entry rest ih =>
      have above : ∀ e ∈ work.entries, e.1 < entry.1 := by
        intro e member
        rw [whole] at member
        exact (List.pairwise_append.mp ascending).2.2 e member entry List.mem_cons_self
      have grown : (work.insert entry.1 entry.2).entries = done ++ [entry] := by
        rw [← whole]
        exact insertEntry_append above
      rw [List.append_cons] at ascending
      obtain ⟨all, folded, same⟩ := ih (fun e member => safe e (List.mem_cons_of_mem _ member)) grown ascending
      refine ⟨all, ?_, by rw [same, List.append_assoc, List.singleton_append]⟩
      rw [List.map_cons, List.foldlM_cons]
      simp only [asUnsigned_safe (safe entry List.mem_cons_self)]
      exact folded

theorem workJson_normal {work : Work} {v : Json} (normal : (workJson work).normalize = .ok v) :
    v = workJson work ∧ ∀ entry ∈ work.entries, entry.2 ≤ maxSafeInteger := by
  simp only [workJson, Json.normalize] at normal
  obtain ⟨members, read, rfl⟩ := ok_map.mp normal
  have each := normalizeMembers_ok.mp read
  clear normal read
  unfold workJson
  generalize work.entries = entries at each
  suffices same : members = entries.map (fun entry => (entry.1, Json.nat entry.2)) ∧
      ∀ entry ∈ entries, entry.2 ≤ maxSafeInteger from ⟨congrArg Json.obj same.1, same.2⟩
  induction entries generalizing members with
  | nil =>
      cases each
      exact ⟨rfl, fun entry absent => absurd absent List.not_mem_nil⟩
  | cons entry rest ih =>
      cases each with
      | @cons _ m _ ms head tail =>
          obtain ⟨value, safe⟩ := normalize_nat_ok head.2
          obtain ⟨same, others⟩ := ih _ tail
          refine ⟨?_, List.forall_mem_cons.mpr ⟨safe, others⟩⟩
          rw [List.map_cons, same]
          exact congrArg (· :: _) (Prod.ext head.1.symm value)

theorem readWork_json {work : Work} (safe : ∀ entry ∈ work.entries, entry.2 ≤ maxSafeInteger) :
    readWork (workJson work) = some work := by
  have small : ∀ entry ∈ work.entries, entry.2 < 2 ^ 64 := by
    intro entry member
    have bound := safe entry member
    unfold maxSafeInteger at bound
    omega
  obtain ⟨all, folded, same⟩ := @readWork_entries _ [] ∅ small rfl work.ascending
  have one : all = work := by
    cases all
    cases work
    simpa using same
  simp only [readWork, workJson]
  rw [folded, one]

theorem TracePoint.read_json {p : TracePoint} {w : Json} (normal : p.json.normalize = .ok w) :
    ∃ q, TracePoint.fromJson w = some q ∧ p.ReadAs q := by
  have distinct : TracePoint.fields.Nodup := by decide
  obtain ⟨split, each⟩ := object_read normal distinct rfl
  simp only [List.forall_mem_cons] at each
  obtain ⟨index, work, metrics, time, terminal, -⟩ := each
  obtain ⟨index, small⟩ := normalize_nat_ok index
  obtain ⟨work, counts⟩ := workJson_normal work
  obtain ⟨time, early⟩ := normalize_nat_ok time
  have terminal : w.get "terminal" = .bool p.terminal := (Except.ok.inj terminal).symm
  have word : ∀ {n}, n ≤ maxSafeInteger → n < 2 ^ 64 := by
    intro n safe
    unfold maxSafeInteger at safe
    omega
  refine ⟨{ p with provisionalMetrics := w.get "provisional_metrics" }, ?_, metrics, rfl⟩
  unfold TracePoint.fromJson
  rw [show w.structFields TracePoint.fields = some [w.get "check_index", w.get "work",
    w.get "provisional_metrics", w.get "instrumented_time_ns", w.get "terminal"] from split]
  simp only [index, work, time, terminal, asUnsigned_safe (word small), asUnsigned_safe (word early),
    readWork_json counts, asBool?]
  rfl

/-! ## Manifests -/

/-- A threshold as it is read back. -/
def readThreshold (threshold : UInt64) : UInt64 :=
  match (F64.json threshold).normalize.toOption.bind Json.asF64? with
  | some bits => bits
  | none => threshold

def BufferedSnapshot.stored (s : BufferedSnapshot) : BufferedSnapshot :=
  { s with thresholds := s.thresholds.map readThreshold }

def BufferedManifest.stored (m : BufferedManifest) : BufferedManifest :=
  { m with snapshots := m.snapshots.map BufferedSnapshot.stored }

theorem readThreshold_same {threshold : UInt64} (finite : F64.isFinite threshold = true) {v : Json}
    (normal : (F64.json threshold).normalize = .ok v) :
    v.asF64? = some (readThreshold threshold) ∧ SameNumber threshold (readThreshold threshold) := by
  have same := asF64?_normal normal
  rw [F64.json, if_pos finite] at same
  rcases same with ⟨impossible, -⟩ | ⟨a, b, left, right, same⟩
  · cases impossible
  · cases left
    have is : readThreshold threshold = b := by
      unfold readThreshold
      rw [normal]
      simp only [Except.toOption, Option.bind_some, right]
    rw [is]
    exact ⟨right, same⟩

theorem readThreshold_eq {threshold : UInt64} (finite : F64.isFinite threshold = true) :
    F64.eq threshold (readThreshold threshold) = true := by
  cases normal : (F64.json threshold).normalize with
  | ok v => exact (readThreshold_same finite normal).2.eq
  | error e =>
      have same : readThreshold threshold = threshold := by
        unfold readThreshold
        rw [normal]
        rfl
      rw [same]
      exact SameNumber.eq ⟨finite, finite, rfl⟩

/-- A threshold that was read back is written as the threshold was. -/
theorem readThreshold_json {threshold : UInt64} {v : Json} (normal : (F64.json threshold).normalize = .ok v) :
    (F64.json (readThreshold threshold)).normalize = .ok v := by
  cases finite : F64.isFinite threshold with
  | false =>
      have null : F64.json threshold = .null := if_neg (by rw [finite]; decide)
      have same : readThreshold threshold = threshold := by
        unfold readThreshold
        rw [null]
        rfl
      rwa [same]
  | true =>
      rcases readThreshold_same finite normal with ⟨read, same⟩
      rw [F64.json, if_pos finite] at normal
      rw [F64.json, if_pos same.right]
      simp only [Json.normalize] at normal
      rcases ok_map.mp normal with ⟨n, number, rfl⟩
      simp only [normalizeNumber, normalizeF64] at number
      split at number
      · cases number
      · split at number
        · rename_i value integral
          split at number
          · cases number
          · rename_i safe
            cases number
            rw [asF64?, Option.some.injEq] at read
            rw [← read]
            have exact_ := F64.magnitude_ofInt (Nat.le_of_not_lt safe)
            have infinite : ¬(F64.ofInt value).toNat / 2 ^ 52 % 2 ^ 11 = 2047 := by
              have finite := exact_.1
              unfold F64.isFinite at finite
              rwa [decide_eq_true_eq] at finite
            simp only [Json.normalize, normalizeNumber, normalizeF64]
            rw [if_neg infinite, F64.integral?_eq_some_iff.mpr exact_.2]
            simp only
            rw [if_neg safe]
            rfl
        · cases number
          rw [asF64?, Option.some.injEq] at read
          rwa [← read]

theorem readThresholds {thresholds : List UInt64} (finite : ∀ t ∈ thresholds, F64.isFinite t = true) {v : Json}
    (normal : Json.normalize (.arr (thresholds.map F64.json)) = .ok v) :
    (v.asArray?.bind fun items => items.mapM Json.asF64?) = some (thresholds.map readThreshold) := by
  simp only [Json.normalize] at normal
  obtain ⟨items, read, rfl⟩ := ok_map.mp normal
  have each := normalizeItems_ok.mp read
  clear normal read
  simp only [asArray?, Option.bind_some]
  induction thresholds generalizing items with
  | nil =>
      cases each
      rfl
  | cons threshold rest ih =>
      cases each with
      | @cons _ item _ others head tail =>
          have first := (readThreshold_same (finite threshold List.mem_cons_self) head).1
          rw [List.mapM_cons, first, ih (fun t member => finite t (List.mem_cons_of_mem _ member)) others tail]
          rfl

theorem BufferedSnapshot.read_json {s : BufferedSnapshot} (finite : ∀ t ∈ s.thresholds, F64.isFinite t = true)
    {w : Json} (normal : s.json.normalize = .ok w) : BufferedSnapshot.fromJson w = some s.stored := by
  have distinct : BufferedSnapshot.fields.Nodup := by decide
  obtain ⟨split, each⟩ := object_read normal distinct rfl
  simp only [List.forall_mem_cons] at each
  obtain ⟨ordinal, index, thresholds, manifest, -⟩ := each
  obtain ⟨ordinal, small⟩ := normalize_nat_ok ordinal
  obtain ⟨index, early⟩ := normalize_nat_ok index
  have manifest : w.get "manifest" = .str s.manifest := (Except.ok.inj manifest).symm
  have values := readThresholds finite thresholds
  have word : ∀ {n}, n ≤ maxSafeInteger → n < 2 ^ 64 := by
    intro n safe
    unfold maxSafeInteger at safe
    omega
  unfold BufferedSnapshot.fromJson
  rw [show w.structFields BufferedSnapshot.fields = some [w.get "capture_ordinal", w.get "trace_index",
    w.get "thresholds", w.get "manifest"] from split]
  simp only [ordinal, index, manifest, asUnsigned_safe (word small), asUnsigned_safe (word early), asStr?]
  obtain ⟨items, array, read⟩ := Option.bind_eq_some_iff.mp values
  simp only [array, Option.bind_eq_bind, Option.bind_some, read]
  rfl

theorem BufferFile.read_json {f : BufferFile} {w : Json} (normal : f.json.normalize = .ok w) :
    BufferFile.fromJson w = some f := by
  have distinct : BufferFile.fields.Nodup := by decide
  obtain ⟨split, each⟩ := object_read normal distinct rfl
  simp only [List.forall_mem_cons] at each
  obtain ⟨path, sha256, size, -⟩ := each
  obtain ⟨size, small⟩ := normalize_nat_ok size
  have path : w.get "path" = .str f.path := (Except.ok.inj path).symm
  have sha256 : w.get "sha256" = .str f.sha256 := (Except.ok.inj sha256).symm
  have word : f.sizeBytes < 2 ^ 64 := by
    unfold maxSafeInteger at small
    omega
  unfold BufferFile.fromJson
  rw [show w.structFields BufferFile.fields = some [w.get "path", w.get "sha256", w.get "size_bytes"] from split]
  simp only [path, sha256, size, asUnsigned_safe word, asStr?]
  rfl

/-- Documents of a list, read one by one. -/
theorem read_items {α β : Type} {write : α → Json} {read : Json → Option β} {back : α → β} {as : List α}
    (each : ∀ a ∈ as, ∀ w, (write a).normalize = .ok w → read w = some (back a)) {v : Json}
    (normal : Json.normalize (.arr (as.map write)) = .ok v) :
    (v.asArray?.bind fun items => items.mapM read) = some (as.map back) := by
  simp only [Json.normalize] at normal
  obtain ⟨items, normalized, rfl⟩ := ok_map.mp normal
  have related := normalizeItems_ok.mp normalized
  clear normal normalized
  simp only [asArray?, Option.bind_some]
  induction as generalizing items with
  | nil =>
      cases related
      rfl
  | cons a rest ih =>
      cases related with
      | @cons _ item _ others head tail =>
          rw [List.mapM_cons, each a List.mem_cons_self item head,
            ih (fun b member => each b (List.mem_cons_of_mem _ member)) others tail]
          rfl

theorem BufferedManifest.read_json {m : BufferedManifest}
    (finite : ∀ s ∈ m.snapshots, ∀ t ∈ s.thresholds, F64.isFinite t = true)
    (version : m.schemaVersion < 2 ^ 32) {w : Json} (normal : m.json.normalize = .ok w) :
    BufferedManifest.fromJson w = some m.stored := by
  have distinct : BufferedManifest.fields.Nodup := by decide
  obtain ⟨split, each⟩ := object_read normal distinct rfl
  simp only [List.forall_mem_cons] at each
  obtain ⟨schema, complete, clock, scope, total, reason, trace, snapshots, files, -⟩ := each
  obtain ⟨schema, -⟩ := normalize_nat_ok schema
  obtain ⟨total, early⟩ := normalize_nat_ok total
  have complete : w.get "complete" = .bool m.complete := (Except.ok.inj complete).symm
  have clock : w.get "clock" = .str m.clock := (Except.ok.inj clock).symm
  have scope : w.get "instrumented_scope" = .str m.instrumentedScope := (Except.ok.inj scope).symm
  have reason : w.get "stop_reason" = .str m.stopReason.name := (Except.ok.inj reason).symm
  have trace : w.get "trace" = .str m.trace := (Except.ok.inj trace).symm
  have saved := read_items (fun s member _ => BufferedSnapshot.read_json (finite s member)) snapshots
  have listed := @read_items _ _ _ _ id _ (fun f _ _ => BufferFile.read_json) _ files
  have word : m.instrumentedTotalTimeNs < 2 ^ 64 := by
    unfold maxSafeInteger at early
    omega
  unfold BufferedManifest.fromJson
  rw [show w.structFields BufferedManifest.fields = some [w.get "schema_version", w.get "complete",
    w.get "clock", w.get "instrumented_scope", w.get "instrumented_total_time_ns", w.get "stop_reason",
    w.get "trace", w.get "snapshots", w.get "files"] from split]
  obtain ⟨items, array, read⟩ := Option.bind_eq_some_iff.mp saved
  obtain ⟨entries, array', read'⟩ := Option.bind_eq_some_iff.mp listed
  rw [List.map_id] at read'
  simp only [schema, total, complete, clock, scope, reason, trace, asUnsigned_safe version,
    asUnsigned_safe word, asStr?, asBool?, StopReason.fromJson_name, array, array', Option.bind_eq_bind,
    Option.bind_some, read, read']
  rfl

/-! ## Bytes -/

variable {lib : JsonLibrary}

/-- What a document reads as, where the reader's limit admits it. -/
theorem fromSlice_bytes (documented : lib.Documented) {v w : Json} (ordered : v.Ordered)
    (normal : v.normalize = .ok w) :
    (lib.fromSlice (lib.encode w)).map CanonicalValue.value =
      if v.depth < recursionLimit then some w else none := by
  obtain ⟨depth, sorted⟩ := normalize_shape v normal
  unfold JsonLibrary.fromSlice
  rw [documented.reads w (normalize_idempotent normal) (sorted ordered), depth]
  split
  · have typed := CanonicalValue.tryFrom_value ⟨w, normalize_idempotent normal⟩
    simp only [Option.bind_some, typed, Except.toOption, Option.map_some]
  · rfl

/-- No text of a value has a newline, and none is empty. -/
theorem encode_line (documented : lib.Documented) (w : Json) : (10 : UInt8) ∉ lib.encode w := by
  intro member
  rw [JsonLibrary.encode, utf8_ofList] at member
  obtain ⟨c, inside, here⟩ := List.mem_flatMap.mp member
  have printable := JsonLibrary.text_printable documented.fraction w c inside
  have above := Protocol.utf8EncodeChar_printable printable 10 here
  exact absurd above (by decide)

end Buffered

end Metewand
