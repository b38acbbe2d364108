import WritePlan.Distinct
import Mathlib.Algebra.Order.Ring.Nat
import Std.Data.HashSet.Lemmas

namespace WritePlan

namespace Binary64

variable {x y : Binary64}

/-- The bits that stand for all NaN values are those of one of them. -/
private theorem isNaN_of_bits (marked : x.bits = 0x7FF8000000000000) : x.isNaN = true := by
  obtain ⟨bits⟩ := x
  subst marked
  decide

/-- A number has the key of a NaN value only if it is one. -/
private theorem isNaN_of_keyBits (same : x.keyBits = y.keyBits)
    (nan : x.isNaN = true) : y.isNaN = true := by
  by_contra number
  rw [keyBits, keyBits, if_pos nan, if_neg number] at same
  exact number (isNaN_of_bits same.symm)

theorem beq_iff_keyBits : (x == y) = true ↔ x.keyBits = y.keyBits := by
  rw [beq_iff]
  constructor
  · rintro (rfl | ⟨first, second⟩)
    · rfl
    · rw [keyBits, keyBits, if_pos first, if_pos second]
  · intro same
    by_cases first : x.isNaN = true
    · exact .inr ⟨first, isNaN_of_keyBits same first⟩
    · have second : ¬ y.isNaN = true := fun nan => first (isNaN_of_keyBits same.symm nan)
      rw [keyBits, keyBits, if_neg first, if_neg second] at same
      obtain ⟨bits⟩ := x
      obtain ⟨others⟩ := y
      exact .inl (congrArg mk same)

/-- A NaN value equals the NaN values and nothing else. -/
theorem beq_iff_isNaN (nan : x.isNaN = true) : (x == y) = true ↔ y.isNaN = true := by
  rw [beq_iff]
  constructor
  · rintro (rfl | ⟨_, other⟩)
    · exact nan
    · exact other
  · exact fun other => .inr ⟨nan, other⟩

theorem beq_iff_bits (number : x.isNaN = false) : (x == y) = true ↔ x.bits = y.bits := by
  rw [beq_iff, number]
  cases x
  cases y
  simp

end Binary64

theorem length_littleEndian (count n : Nat) : (littleEndian count n).length = count := by
  induction count generalizing n with
  | zero => rfl
  | succ count ih => rw [littleEndian, List.length_cons, ih]

/-- Enough bytes tell a number. -/
theorem littleEndian_inj {count m n : Nat} (left : m < 256 ^ count) (right : n < 256 ^ count) :
    littleEndian count m = littleEndian count n ↔ m = n := by
  refine ⟨fun same => ?_, congrArg _⟩
  induction count generalizing m n with
  | zero =>
    simp only [pow_zero] at left right
    omega
  | succ count ih =>
    obtain ⟨low, rest⟩ := List.cons.inj same
    have lows : m % 256 = n % 256 := by simpa using congrArg UInt8.toNat low
    have highs : m / 256 = n / 256 := by
      apply ih _ _ rest <;> rw [Nat.div_lt_iff_lt_mul (by decide), ← pow_succ] <;> assumption
    omega

theorem wordBytes_inj {v w : UInt64} : littleEndian 8 v.toNat = littleEndian 8 w.toNat ↔ v = w := by
  rw [littleEndian_inj v.toNat_lt w.toNat_lt, UInt64.toNat_inj]

theorem integerBytes_inj {m n : Int64} :
    littleEndian 8 m.toUInt64.toNat = littleEndian 8 n.toUInt64.toNat ↔ m = n := by
  rw [wordBytes_inj]
  cases m
  cases n
  simp

theorem pairedBytes_inj {a b : List (Fin 16)} (even : a.length % 2 = 0) (length : a.length = b.length) :
    pairedBytes a = pairedBytes b ↔ a = b := by
  refine ⟨fun same => ?_, congrArg _⟩
  fun_induction pairedBytes a generalizing b with
  | case1 high low rest ih =>
    match b, length with
    | first :: second :: others, length =>
      obtain ⟨pair, tail⟩ := List.cons.inj same
      have values := congrArg UInt8.toNat pair
      rw [UInt8.toNat_ofNat', UInt8.toNat_ofNat'] at values
      have rests : rest = others := by
        apply ih _ _ tail
        · simp only [List.length_cons] at even
          omega
        · simpa using length
      congr 1
      · omega
      · congr 1
        omega
  | case2 digits odd =>
    match digits, b, length with
    | [], [], _ => rfl
    | [_], _, _ => cases even
    | first :: second :: rest, _, _ => exact (odd first second rest rfl).elim

theorem uuidBytes_inj {a b : Uuid} : pairedBytes a.digits = pairedBytes b.digits ↔ a = b := by
  rw [pairedBytes_inj (by rw [a.count]) (a.count.trans b.count.symm)]
  cases a
  cases b
  simp

theorem textBytes_inj {a b : String} : a.toByteArray.data = b.toByteArray.data ↔ a = b := by
  rw [← ByteArray.ext_iff]
  exact String.toByteArray_inj

private theorem seconds_inj {s t : Timestamp} :
    Int64.ofInt s.seconds = Int64.ofInt t.seconds ↔ s.seconds = t.seconds := by
  have fits (t : Timestamp) : (Int64.ofInt t.seconds).toInt = t.seconds := by
    have first : -2 ^ 63 ≤ Timestamp.first := by decide
    have bound : Timestamp.bound ≤ 2 ^ 63 := by decide
    have low := t.not_before
    have high := t.not_after
    exact Int64.toInt_ofInt_of_le (by omega) (by omega)
  rw [← Int64.toInt_inj, fits, fits]

theorem timestampBytes_inj {s t : Timestamp} :
    littleEndian 8 (Int64.ofInt s.seconds).toUInt64.toNat ++ littleEndian 4 s.nanos =
      littleEndian 8 (Int64.ofInt t.seconds).toUInt64.toNat ++ littleEndian 4 t.nanos ↔ s = t := by
  have room : 2000000000 < 256 ^ 4 := by decide
  have nanos (t : Timestamp) : t.nanos < 256 ^ 4 := Nat.lt_trans t.nanos_lt room
  refine ⟨fun same => ?_, fun same => same ▸ rfl⟩
  obtain ⟨front, back⟩ :=
    List.append_inj same ((length_littleEndian ..).trans (length_littleEndian ..).symm)
  rw [integerBytes_inj, seconds_inj] at front
  rw [littleEndian_inj (nanos s) (nanos t)] at back
  cases s
  cases t
  simp_all

namespace Value

theorem beq_iff_hashBytes {a b : Value} : (a == b) = true ↔ a.hashBytes = b.hashBytes := by
  cases a with
  | null => cases b <;> simp [BEq.beq, hashBytes]
  | integer n => cases b <;> simp [BEq.beq, hashBytes, integerBytes_inj]
  | float x =>
    cases b with
    | float y =>
      change (x == y) = true ↔ _
      simp [Binary64.beq_iff_keyBits, hashBytes, wordBytes_inj]
    | _ => simp [BEq.beq, hashBytes]
  | text s => cases b <;> simp [BEq.beq, hashBytes, textBytes_inj]
  | boolean c =>
    cases b with
    | boolean d => cases c <;> cases d <;> simp [BEq.beq, hashBytes, Bool.toUInt8]
    | _ => simp [BEq.beq, hashBytes]
  | uuid id => cases b <;> simp [BEq.beq, hashBytes, uuidBytes_inj]
  | timestamp t => cases b <;> simp [BEq.beq, hashBytes, timestampBytes_inj]

instance : EquivBEq Value where
  rfl := beq_iff_hashBytes.mpr rfl
  symm same := beq_iff_hashBytes.mpr (beq_iff_hashBytes.mp same).symm
  trans first second :=
    beq_iff_hashBytes.mpr ((beq_iff_hashBytes.mp first).trans (beq_iff_hashBytes.mp second))

instance : LawfulHashable Value where
  hash_eq _ _ same := congrArg (fun bytes : List UInt8 => hash bytes) (beq_iff_hashBytes.mp same)

theorem columnType?_of_beq {a b : Value} (same : (a == b) = true) : a.columnType? = b.columnType? := by
  cases a <;> cases b <;> simp_all [BEq.beq, columnType?]

end Value

section

variable {α : Type} [BEq α]

/-- The items that equal none before them, in order. -/
def firstOfEach (items : List α) : List α :=
  (items.zipIdx.filter fun (item, place) => !(items.take place).any (· == item)).map Prod.fst

variable [Hashable α] [EquivBEq α] [LawfulHashable α]

/-- What a set holds after one more item, told by the items in front. -/
private theorem any_snoc_of_contains {seen : Std.HashSet α} {front : List α}
    (holds : ∀ item, seen.contains item = front.any (· == item)) {item : α}
    (known : seen.contains item = true) (other : α) :
    seen.contains other = (front ++ [item]).any (· == other) := by
  rw [List.any_append, ← holds]
  by_cases same : (item == other) = true
  · rw [← Std.HashSet.contains_congr same, known, Bool.true_or]
  · simp [same]

private theorem any_snoc_of_insert {seen : Std.HashSet α} {front : List α}
    (holds : ∀ item, seen.contains item = front.any (· == item)) (item other : α) :
    (seen.insert item).contains other = (front ++ [item]).any (· == other) := by
  rw [Std.HashSet.contains_insert, List.any_append, ← holds, Bool.or_comm]
  simp

/-- Whatever a set holds already, the items that are new to it are those that equal nothing it holds
and none of the items before them. -/
private theorem distinctFrom_eq {seen : Std.HashSet α} {front : List α}
    (holds : ∀ item, seen.contains item = front.any (· == item)) (rest : List α) :
    distinctFrom seen rest =
      ((rest.zipIdx front.length).filter fun (item, place) =>
        !((front ++ rest).take place).any (· == item)).map Prod.fst := by
  induction rest generalizing seen front with
  | nil => rfl
  | cons item rest ih =>
    have before : (front ++ item :: rest).take front.length = front := List.take_left
    have shift : front ++ item :: rest = (front ++ [item]) ++ rest := by simp
    have length : front.length + 1 = (front ++ [item]).length := by simp
    rw [distinctFrom, List.zipIdx_cons, List.filter_cons]
    simp only [before, ← holds]
    split
    · rename_i known
      rw [ih (any_snoc_of_contains holds known), length, shift]
      simp [known]
    · rename_i new
      rw [ih (any_snoc_of_insert holds item), length, shift]
      simp [new]

theorem distinct_eq_firstOfEach (items : List α) : distinct items = firstOfEach items := by
  have unseen (item : α) : (∅ : Std.HashSet α).contains item = ([] : List α).any (· == item) := by simp
  exact distinctFrom_eq unseen items

/-- Of each class of equal items, a hash set holds the one that was put in first. -/
theorem get?_foldl_insert (items : List α) (seen : Std.HashSet α) (item : α) :
    (items.foldl Std.HashSet.insert seen).get? item =
      (seen.get? item).or (items.find? (· == item)) := by
  induction items generalizing seen with
  | nil => simp
  | cons first rest ih =>
    rw [List.foldl_cons, ih, Std.HashSet.get?_insert, List.find?_cons]
    by_cases same : (first == item) = true
    · have alike := Std.HashSet.mem_congr (m := seen) same
      by_cases known : first ∈ seen
      · obtain ⟨held, found⟩ := Option.isSome_iff_exists.mp
          (Std.HashSet.isSome_get?_eq_contains.trans (alike.mp known))
        simp [known, found]
      · simp [same, known, Std.HashSet.get?_eq_none (mt alike.mpr known)]
    · simp [same]

end

/-- Equality of values is an equivalence, and it is equality of the bytes that their hashes are made
of. Values of different types are never equal, all NaN values are one, and all other numbers are told
apart by their bits, the two zeros too. So a hash set of values keeps the first of each class as they
come, and nothing else. -/
theorem Value.equality_fit_for_keys :
    Equivalence (fun a b : Value => (a == b) = true) ∧
    (∀ a b : Value, (a == b) = true ↔ a.hashBytes = b.hashBytes) ∧
    (∀ a b : Value, a.columnType? ≠ b.columnType? → (a == b) = false) ∧
    (∀ x y : Binary64, x.isNaN = true → (Value.float x == .float y) = y.isNaN) ∧
    (∀ x y : Binary64, x.isNaN = false →
      ((Value.float x == .float y) = true ↔ x.bits = y.bits)) ∧
    (Value.float .zero == .float (Binary64.negative .zero)) = false ∧
    ∀ values : List Value, distinct values = firstOfEach values ∧
      ∀ value, (values.foldl Std.HashSet.insert (∅ : Std.HashSet Value)).get? value =
        values.find? (· == value) := by
  refine ⟨⟨fun _ => BEq.rfl, BEq.symm, BEq.trans⟩, fun _ _ => beq_iff_hashBytes, ?_, ?_, ?_, ?_, ?_⟩
  · intro a b types
    exact Bool.eq_false_iff.mpr fun same => types (columnType?_of_beq same)
  · intro x y nan
    exact Bool.eq_iff_iff.mpr (Binary64.beq_iff_isNaN nan)
  · intro x y number
    exact Binary64.beq_iff_bits number
  · decide
  · intro values
    exact ⟨distinct_eq_firstOfEach values, fun value => by simp [get?_foldl_insert]⟩

end WritePlan
