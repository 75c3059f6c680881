/-
Big-endian numerals over byte lists, and reads that refuse to leave the list
they read from.  Nothing here knows about a message format: a decoder is
replayed by naming what its input holds from the current offset on.
-/
import Mathlib.Data.List.Basic
import Mathlib.Tactic.Ring

namespace Octets

abbrev Bytes := List UInt8

/-- Named, so that a membership test finds it without a search. -/
instance instLawfulBEqBytes : LawfulBEq Bytes := inferInstance

/-- The `width` low-order base-256 digits of `n`, most significant first. -/
def bigEndian : Nat → Nat → Bytes
  | 0, _ => []
  | width + 1, n => UInt8.ofNat (n / 256 ^ width) :: bigEndian width n

/-- The number whose base-256 digits are the given bytes. -/
def ofBigEndian : Bytes → Nat
  | [] => 0
  | byte :: rest => byte.toNat * 256 ^ rest.length + ofBigEndian rest

@[simp] theorem length_bigEndian (width n : Nat) :
    (bigEndian width n).length = width := by
  induction width with
  | zero => rfl
  | succ width ih => simp [bigEndian, ih]

theorem ofBigEndian_lt (bytes : Bytes) :
    ofBigEndian bytes < 256 ^ bytes.length := by
  induction bytes with
  | nil => simp [ofBigEndian]
  | cons byte rest ih =>
      have hbyte : byte.toNat + 1 ≤ 256 := byte.toNat_lt
      have hscale := Nat.mul_le_mul_right (256 ^ rest.length) hbyte
      simp only [ofBigEndian, List.length_cons, Nat.pow_succ]
      rw [Nat.add_mul, Nat.one_mul] at hscale
      omega

theorem ofBigEndian_bigEndian (width n : Nat) :
    ofBigEndian (bigEndian width n) = n % 256 ^ width := by
  induction width with
  | zero => simp [bigEndian, ofBigEndian, Nat.mod_one]
  | succ width ih =>
      simp only [bigEndian, ofBigEndian, length_bigEndian, ih,
        UInt8.toNat_ofNat']
      rw [Nat.mod_pow_succ (b := 256) (k := width)]
      ring

/-- Only the number's remainder has room in the digits. -/
theorem bigEndian_mod (width n : Nat) :
    bigEndian width (n % 256 ^ width) = bigEndian width n := by
  induction width generalizing n with
  | zero => rfl
  | succ width ih =>
      have hdigit : n % 256 ^ (width + 1) / 256 ^ width =
          n / 256 ^ width % 256 := by
        rw [Nat.pow_succ, Nat.mod_mul_right_div_self]
      have hlower : n % 256 ^ (width + 1) % 256 ^ width = n % 256 ^ width :=
        Nat.mod_mod_of_dvd n (Nat.pow_dvd_pow 256 (Nat.le_succ width))
      rw [bigEndian, bigEndian, hdigit, ← ih (n % 256 ^ (width + 1)), hlower,
        ih]
      congr 1
      exact UInt8.toNat_inj.mp (by simp)

/-- A read of `width` bytes at `offset` that the bytes do not cover. -/
structure OutOfBounds where
  offset : Nat
  width : Nat
deriving Repr, DecidableEq

/-- The `width` bytes at `offset`, or the read that left the bytes. -/
def read (bytes : Bytes) (offset width : Nat) : Except OutOfBounds Bytes :=
  if offset + width ≤ bytes.length then
    .ok ((bytes.drop offset).take width)
  else .error ⟨offset, width⟩

def readNat (bytes : Bytes) (offset width : Nat) : Except OutOfBounds Nat :=
  (read bytes offset width).map ofBigEndian

/-- The computation stayed inside the bytes it read from. -/
def Inside {α : Type} (x : Except OutOfBounds α) : Prop :=
  ∃ value, x = .ok value

@[simp] theorem inside_ok {α : Type} (value : α) :
    Inside (.ok value : Except OutOfBounds α) :=
  ⟨value, rfl⟩

@[simp] theorem inside_pure {α : Type} (value : α) :
    Inside (pure value : Except OutOfBounds α) :=
  ⟨value, rfl⟩

@[simp] theorem not_inside_error {α : Type} (e : OutOfBounds) :
    ¬ Inside (.error e : Except OutOfBounds α) := by
  rintro ⟨value, h⟩
  cases h

@[simp] theorem inside_map {α β : Type} (f : α → β)
    (x : Except OutOfBounds α) : Inside (x.map f) ↔ Inside x := by
  cases x with
  | error e => simp [Except.map]
  | ok value => simp [Except.map]

@[simp] theorem ok_bind {ε α β : Type} (value : α) (f : α → Except ε β) :
    ((.ok value : Except ε α) >>= f) = f value :=
  rfl

@[simp] theorem error_bind {ε α β : Type} (e : ε) (f : α → Except ε β) :
    ((.error e : Except ε α) >>= f) = .error e :=
  rfl

/-- A step of a computation that succeeds has succeeded itself. -/
theorem bind_eq_ok {ε α β : Type} {x : Except ε α} {f : α → Except ε β}
    {value : β} (h : (x >>= f) = .ok value) :
    ∃ a, x = .ok a ∧ f a = .ok value := by
  cases x with
  | error e => cases h
  | ok a => exact ⟨a, rfl, h⟩

@[simp] theorem inside_bind_ok {α β : Type} (value : α)
    (f : α → Except OutOfBounds β) :
    Inside ((.ok value : Except OutOfBounds α) >>= f) ↔ Inside (f value) :=
  Iff.rfl

@[simp] theorem not_inside_bind_error {α β : Type} (e : OutOfBounds)
    (f : α → Except OutOfBounds β) :
    ¬ Inside ((.error e : Except OutOfBounds α) >>= f) :=
  not_inside_error e

@[simp] theorem inside_bind_pure {α β : Type} (x : Except OutOfBounds α)
    (f : α → β) : Inside (x >>= fun value => pure (f value)) ↔ Inside x := by
  cases x with
  | error e => simp
  | ok value => simp

theorem read_of_le {bytes : Bytes} {offset width : Nat}
    (h : offset + width ≤ bytes.length) :
    read bytes offset width = .ok ((bytes.drop offset).take width) := by
  simp [read, h]

theorem read_of_lt {bytes : Bytes} {offset width : Nat}
    (h : bytes.length < offset + width) :
    read bytes offset width = .error ⟨offset, width⟩ := by
  simp [read, Nat.not_le.mpr h]

theorem readNat_of_le {bytes : Bytes} {offset width : Nat}
    (h : offset + width ≤ bytes.length) :
    readNat bytes offset width =
      .ok (ofBigEndian ((bytes.drop offset).take width)) := by
  simp [readNat, read_of_le h, Except.map]

theorem readNat_of_lt {bytes : Bytes} {offset width : Nat}
    (h : bytes.length < offset + width) :
    readNat bytes offset width = .error ⟨offset, width⟩ := by
  simp [readNat, read_of_lt h, Except.map]

theorem le_of_readNat_eq_ok {bytes : Bytes} {offset width value : Nat}
    (h : readNat bytes offset width = .ok value) :
    offset + width ≤ bytes.length := by
  by_contra hnot
  rw [readNat_of_lt (Nat.not_le.mp hnot)] at h
  cases h

/-- From `offset` on, the bytes hold exactly `rest`. -/
structure Holds (bytes : Bytes) (offset : Nat) (rest : Bytes) : Prop where
  le : offset ≤ bytes.length
  drop_eq : bytes.drop offset = rest

theorem Holds.length_eq {bytes rest : Bytes} {offset : Nat}
    (h : Holds bytes offset rest) :
    bytes.length = offset + rest.length := by
  have hle := h.le
  rw [← h.drop_eq, List.length_drop]
  omega

theorem Holds.append (pre rest : Bytes) :
    Holds (pre ++ rest) pre.length rest :=
  ⟨by simp, by simp⟩

/-- Stepping over a leading block keeps track of what follows it. -/
theorem Holds.skip {bytes block rest : Bytes} {offset width : Nat}
    (h : Holds bytes offset (block ++ rest)) (hwidth : block.length = width) :
    Holds bytes (offset + width) rest := by
  have hlength := h.length_eq
  rw [List.length_append] at hlength
  refine ⟨by omega, ?_⟩
  rw [← List.drop_drop, h.drop_eq, ← hwidth, List.drop_left]

theorem Holds.read {bytes block rest : Bytes} {offset width : Nat}
    (h : Holds bytes offset (block ++ rest)) (hwidth : block.length = width) :
    read bytes offset width = .ok block := by
  have hlength := h.length_eq
  rw [List.length_append] at hlength
  rw [read_of_le (by omega), h.drop_eq, ← hwidth, List.take_left]

theorem Holds.readNat {bytes rest : Bytes} {offset width n : Nat}
    (h : Holds bytes offset (bigEndian width n ++ rest)) :
    readNat bytes offset width = .ok (n % 256 ^ width) := by
  rw [Octets.readNat, h.read (length_bigEndian width n)]
  simp [Except.map, ofBigEndian_bigEndian]

theorem Holds.readNat_of_lt {bytes rest : Bytes} {offset width n : Nat}
    (h : Holds bytes offset (bigEndian width n ++ rest))
    (hn : n < 256 ^ width) : Octets.readNat bytes offset width = .ok n := by
  rw [h.readNat, Nat.mod_eq_of_lt hn]

/-- A prefix holds the blocks that lie inside it. -/
theorem Holds.take {bytes block rest : Bytes} {offset count : Nat}
    (h : Holds bytes offset (block ++ rest))
    (hcount : offset + block.length ≤ count) :
    Holds (bytes.take count) offset
      (block ++ rest.take (count - (offset + block.length))) := by
  have hlength := h.length_eq
  rw [List.length_append] at hlength
  refine ⟨?_, ?_⟩
  · rw [List.length_take]
    omega
  · rw [List.drop_take, h.drop_eq, List.take_append,
      List.take_of_length_le (by omega), Nat.sub_sub]

/-- The number in the `width` bytes at `offset`. -/
def numberAt (bytes : Bytes) (offset width : Nat) : Nat :=
  ofBigEndian ((bytes.drop offset).take width)

theorem readNat_eq_numberAt {bytes : Bytes} {offset width : Nat}
    (h : offset + width ≤ bytes.length) :
    readNat bytes offset width = .ok (numberAt bytes offset width) :=
  readNat_of_le h

theorem numberAt_lt (bytes : Bytes) (offset width : Nat) :
    numberAt bytes offset width < 256 ^ width :=
  Nat.lt_of_lt_of_le (ofBigEndian_lt _)
    (Nat.pow_le_pow_right (by decide) (List.length_take_le _ _))

/-- A prefix has the numbers that lie inside it. -/
theorem numberAt_take (bytes : Bytes) {offset width count : Nat}
    (h : offset + width ≤ count) :
    numberAt (bytes.take count) offset width = numberAt bytes offset width := by
  have hwidth : width ≤ count - offset := Nat.le_sub_of_add_le' h
  rw [numberAt, List.drop_take, List.take_take, Nat.min_eq_left hwidth, numberAt]

theorem Holds.numberAt {bytes rest : Bytes} {offset width n : Nat}
    (h : Holds bytes offset (bigEndian width n ++ rest)) :
    Octets.numberAt bytes offset width = n % 256 ^ width := by
  rw [Octets.numberAt, h.drop_eq, List.take_left' (length_bigEndian width n),
    ofBigEndian_bigEndian]

theorem Holds.numberAt_of_lt {bytes rest : Bytes} {offset width n : Nat}
    (h : Holds bytes offset (bigEndian width n ++ rest))
    (hn : n < 256 ^ width) : Octets.numberAt bytes offset width = n := by
  rw [h.numberAt, Nat.mod_eq_of_lt hn]

end Octets
