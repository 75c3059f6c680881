/-
The capabilities of a client that is no aircraft.  They are the bits of one
number, which travels with its identity message.
-/
import FlightSafety.Transport.RoundTrip
import Mathlib.Data.Nat.Bitwise

namespace FlightSafety

open Octets ExactDouble

/-- The shift is only defined for an id below 64; a larger one is a fault of
the caller. -/
def addCapability (capabilities : UInt64) (capId : UInt8) : UInt64 :=
  capabilities ||| (1 : UInt64) <<< capId.toUInt64

def getCapability (capabilities : UInt64) (capId : UInt8) : Bool :=
  capabilities &&& (1 : UInt64) <<< capId.toUInt64 != 0

section
variable {capabilities : UInt64} {capId other : UInt8}

theorem toNat_capability (h : capId < 64) :
    ((1 : UInt64) <<< capId.toUInt64).toNat = 2 ^ capId.toNat := by
  have hlt : capId.toNat < 64 := h
  rw [UInt64.toNat_shiftLeft, UInt8.toNat_toUInt64, Nat.mod_eq_of_lt hlt,
    UInt64.toNat_one, Nat.shiftLeft_eq, Nat.one_mul]
  exact Nat.mod_eq_of_lt (Nat.pow_lt_pow_right (by decide) hlt)

/-- A capability is a bit of the number. -/
theorem getCapability_eq_testBit (h : capId < 64) :
    getCapability capabilities capId =
      capabilities.toNat.testBit capId.toNat := by
  have hzero : (capabilities &&& (1 : UInt64) <<< capId.toUInt64 = 0) ↔
      capabilities.toNat &&& 2 ^ capId.toNat = 0 := by
    rw [← UInt64.toNat_inj, UInt64.toNat_and, toNat_capability h]
    rfl
  rw [getCapability, Bool.eq_iff_iff, bne_iff_ne, Ne, hzero, Nat.and_two_pow]
  cases capabilities.toNat.testBit capId.toNat with
  | true => simp
  | false => simp

theorem getCapability_addCapability (h : capId < 64) (hother : other < 64) :
    getCapability (addCapability capabilities capId) other = true ↔
      capId = other ∨ getCapability capabilities other = true := by
  rw [getCapability_eq_testBit hother, getCapability_eq_testBit hother,
    addCapability, UInt64.toNat_or, toNat_capability h, Nat.testBit_or,
    Nat.testBit_two_pow, Bool.or_eq_true, decide_eq_true_iff, or_comm,
    UInt8.toNat_inj]

theorem getCapability_foldl {capIds : List UInt8}
    (hcapIds : ∀ capId ∈ capIds, capId < 64) (hother : other < 64) :
    getCapability (capIds.foldl addCapability capabilities) other = true ↔
      other ∈ capIds ∨ getCapability capabilities other = true := by
  induction capIds generalizing capabilities with
  | nil => simp
  | cons capId capIds ih =>
      obtain ⟨hcapId, hrest⟩ := List.forall_mem_cons.mp hcapIds
      rw [List.foldl_cons, ih hrest, getCapability_addCapability hcapId hother,
        List.mem_cons, eq_comm, ← or_assoc, or_comm (a := other ∈ capIds)]

theorem not_getCapability_zero (h : capId < 64) :
    ¬ getCapability 0 capId = true := by
  rw [getCapability_eq_testBit h]
  simp

end

/-- A client that is no aircraft tells a server which capabilities it has:
after any of them were added, in any order and more than once, the server
finds in the decoded message exactly those. -/
theorem capabilities_conveyed [Target] {capIds : List UInt8}
    (hcapIds : ∀ capId ∈ capIds, capId < 64) (id : UInt64) :
    ∃ capabilities,
      decode ((fssMessageIdentityNonAircraft
        (capIds.foldl addCapability 0)).setId id).onWire =
          .ok (some ⟨id, .identityNonAircraft,
            .identityNonAircraft capabilities⟩) ∧
      ∀ capId < 64, getCapability capabilities capId = true ↔
        capId ∈ capIds := by
  have hfits : ((fssMessageIdentityNonAircraft
      (capIds.foldl addCapability 0)).setId id).unpaddedLength < 65536 := by
    rw [FssMessage.unpaddedLength_eq]
    change headerLength +
      (bigEndian 8 (capIds.foldl addCapability 0).toNat).length < 65536
    rw [length_bigEndian]
    decide
  refine ⟨capIds.foldl addCapability 0, ?_, fun capId hcapId => ?_⟩
  · rw [FssMessage.onWire_eq _ hfits,
      FssMessage.decode_frame (.setId id (.identityNonAircraft _)) hfits]
    rfl
  · rw [getCapability_foldl hcapIds hcapId,
      or_iff_left (not_getCapability_zero hcapId)]

theorem capabilities_conveyed_two :
    ∃ capabilities,
      decode (@FssMessage.onWire Target.indefinite
        ((fssMessageIdentityNonAircraft
          ([63, 0].foldl addCapability 0)).setId 1)) =
          .ok (some ⟨1, .identityNonAircraft,
            .identityNonAircraft capabilities⟩) ∧
      ∀ capId < 64, getCapability capabilities capId = true ↔
        capId ∈ [63, 0] := by
  apply @capabilities_conveyed Target.indefinite [63, 0]
  rw [List.forall_mem_cons, List.forall_mem_singleton]
  exact ⟨by decide, by decide⟩

end FlightSafety
