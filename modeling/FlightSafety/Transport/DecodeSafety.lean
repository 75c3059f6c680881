/-
Which buffers the decoder reads without leaving them.  The fixed-width fields
are guarded by the length that remains; a string is not, and behind a string
that ends outside the buffer the remaining length has wrapped.
-/
import FlightSafety.Transport.Unpack

namespace FlightSafety

open Octets ExactDouble

variable {bl : BufLen}

theorem remaining_le {offset : Nat} (h : offset ≤ bl.length) :
    offset + bl.remaining offset ≤ bl.length := by
  unfold BufLen.remaining BufLen.getLength
  omega

/-- Past the end the difference wraps to almost the whole address range. -/
theorem remaining_of_past {offset : Nat} (hpast : bl.length < offset)
    (hnear : offset ≤ bl.length + 8) : 8 ≤ bl.remaining offset := by
  unfold BufLen.remaining BufLen.getLength
  omega

theorem remaining_add {offset width : Nat} (h : offset ≤ bl.length)
    (hwidth : width ≤ bl.remaining offset) :
    bl.remaining (offset + width) + width = bl.remaining offset := by
  unfold BufLen.remaining BufLen.getLength at *
  omega

/-- A guarded read at an offset inside the buffer stays inside. -/
theorem fetch_inside {α : Type} {offset : Nat} (h : offset ≤ bl.length)
    (width : Nat) (current : α) (ofNet : Nat → α) :
    ∃ value next, bl.fetch offset width current ofNet = .ok (value, next) ∧
      next ≤ bl.length ∧
      ((width ≤ bl.remaining offset ∧ next = offset + width) ∨
        (bl.remaining offset < width ∧ next = offset)) := by
  have hroom := remaining_le h
  by_cases hwidth : width ≤ bl.remaining offset
  · have hread := readNat_of_le
      (by omega : offset + width ≤ bl.length)
    refine ⟨ofNet (ofBigEndian ((bl.drop offset).take width)),
      offset + width, ?_, by omega, Or.inl ⟨hwidth, rfl⟩⟩
    simp only [BufLen.fetch, hwidth, ↓reduceIte, hread]
    rfl
  · refine ⟨current, offset, ?_, h, Or.inr ⟨Nat.not_le.mp hwidth, rfl⟩⟩
    simp only [BufLen.fetch, hwidth, ↓reduceIte]
    rfl

/-- A guarded read behind the end is let through by its guard. -/
theorem fetch_past {α : Type} {offset width : Nat}
    (hpast : bl.length < offset) (hnear : offset ≤ bl.length + 8)
    (hwidth : width ≤ 8) (current : α) (ofNet : Nat → α) :
    bl.fetch offset width current ofNet = .error ⟨offset, width⟩ := by
  have hwrapped := remaining_of_past hpast hnear
  have hread := readNat_of_lt
    (by omega : bl.length < offset + width)
  simp only [BufLen.fetch, Nat.le_trans hwidth hwrapped, ↓reduceIte, hread]
  rfl

/-- The length prefix at an offset. -/
def stringLength (bl : BufLen) (offset : Nat) : Nat :=
  ofBigEndian ((bl.drop offset).take 2)

/-- Where the string announced at an offset ends. -/
def stringEnd (bl : BufLen) (offset : Nat) : Nat :=
  offset + 2 + stringLength bl offset

/-- Where its alignment ends: the offset the decoder goes on from. -/
def fieldEnd (bl : BufLen) (offset : Nat) : Nat :=
  stringEnd bl offset + alignSkip (stringEnd bl offset)

theorem stringEnd_lt_fieldEnd (bl : BufLen) (offset : Nat) :
    stringEnd bl offset < fieldEnd bl offset :=
  Nat.lt_add_of_pos_right (alignSkip_pos _)

theorem fieldEnd_le_stringEnd_add (bl : BufLen) (offset : Nat) :
    fieldEnd bl offset ≤ stringEnd bl offset + 8 :=
  Nat.add_le_add_left (alignSkip_le _) _

theorem assign_of_le {offset : Nat}
    (hfits : stringEnd bl offset ≤ bl.length) :
    bl.assign (offset + 2) (stringLength bl offset) =
      .ok ((bl.drop (offset + 2)).take (stringLength bl offset),
        fieldEnd bl offset) := by
  have hread : read bl (offset + 2) (stringLength bl offset) = _ :=
    read_of_le hfits
  simp only [BufLen.assign, hread]
  rfl

theorem assign_of_lt {offset : Nat}
    (hover : bl.length < stringEnd bl offset) :
    bl.assign (offset + 2) (stringLength bl offset) =
      .error ⟨offset + 2, stringLength bl offset⟩ := by
  have hread : read bl (offset + 2) (stringLength bl offset) = _ :=
    read_of_lt hover
  simp only [BufLen.assign, hread]
  rfl

theorem fetchString_of_short {offset : Nat}
    (hshort : bl.remaining offset < 2) (current : Bytes) :
    bl.fetchString offset current = .ok (current, offset) := by
  simp only [BufLen.fetchString, Nat.not_le.mpr hshort, ↓reduceIte]
  rfl

theorem fetchString_of_room {offset : Nat} (h : offset ≤ bl.length)
    (hroom : 2 ≤ bl.remaining offset) (current : Bytes) :
    bl.fetchString offset current =
      bl.assign (offset + 2) (stringLength bl offset) := by
  have hbound := remaining_le h
  have hread := readNat_of_le (by omega : offset + 2 ≤ bl.length)
  simp only [BufLen.fetchString, hroom, ↓reduceIte, hread]
  rfl

/-- A string field is skipped, or its alignment ends inside the buffer. -/
def AlignedFits (bl : BufLen) (offset : Nat) : Prop :=
  2 ≤ bl.remaining offset → fieldEnd bl offset ≤ bl.length

instance (bl : BufLen) (offset : Nat) : Decidable (AlignedFits bl offset) :=
  inferInstanceAs (Decidable (_ → _))

/-- The offset behind a string field. -/
def afterString (bl : BufLen) (offset : Nat) : Nat :=
  if 2 ≤ bl.remaining offset then fieldEnd bl offset else offset

theorem fetchString_inside {offset : Nat} (h : offset ≤ bl.length)
    (hfits : AlignedFits bl offset) (current : Bytes) :
    ∃ value, bl.fetchString offset current =
        .ok (value, afterString bl offset) ∧
      afterString bl offset ≤ bl.length := by
  by_cases hroom : 2 ≤ bl.remaining offset
  · have hend := hfits hroom
    have hlt := stringEnd_lt_fieldEnd bl offset
    rw [fetchString_of_room h hroom, assign_of_le (by omega)]
    simp only [afterString, hroom, ↓reduceIte]
    exact ⟨_, rfl, hend⟩
  · rw [fetchString_of_short (Nat.not_le.mp hroom)]
    simp only [afterString, hroom, ↓reduceIte]
    exact ⟨_, rfl, h⟩

/-- Where the alignment of a string ends outside, the string itself does, or
the offset that is left lies at most eight bytes behind the end. -/
theorem fetchString_past {offset : Nat} (h : offset ≤ bl.length)
    (hover : ¬ AlignedFits bl offset) (current : Bytes) :
    (∃ e, bl.fetchString offset current = .error e) ∨
      ∃ value next, bl.fetchString offset current = .ok (value, next) ∧
        bl.length < next ∧ next ≤ bl.length + 8 := by
  unfold AlignedFits at hover
  simp only [not_forall, Nat.not_le] at hover
  obtain ⟨hroom, hend⟩ := hover
  rw [fetchString_of_room h hroom]
  by_cases hfits : stringEnd bl offset ≤ bl.length
  · have hnear := fieldEnd_le_stringEnd_add bl offset
    rw [assign_of_le hfits]
    exact Or.inr ⟨_, _, rfl, hend, by omega⟩
  · rw [assign_of_lt (Nat.not_le.mp hfits)]
    exact Or.inl ⟨_, rfl⟩

/-- Whatever follows a string reads on from the offset behind it, so a string
that does not fit takes the rest of the decoder outside with it. -/
theorem not_inside_of_not_alignedFits {α : Type} {offset : Nat}
    (h : offset ≤ bl.length) (hover : ¬ AlignedFits bl offset)
    (current : Bytes) (rest : Bytes × Nat → Except OutOfBounds α)
    (hpast : ∀ value next, bl.length < next → next ≤ bl.length + 8 →
      ¬ Inside (rest (value, next))) :
    ¬ Inside (bl.fetchString offset current >>= rest) := by
  rcases fetchString_past h hover current with ⟨e, hstring⟩ |
    ⟨value, next, hstring, hout, hnear⟩
  · rw [hstring]
    exact not_inside_bind_error e rest
  · rw [hstring, inside_bind_ok]
    exact hpast value next hout hnear

/-! The fields of a position report before its string.  Each width is at least
half the one before, so after a field that was skipped the next ones cannot
use up what remains and reach the string. -/

/-- The decoder stands at `offset` with every field read so far, or a field
was skipped and less than `width` bytes remain. -/
def AtField (bl : BufLen) (offset width actual : Nat) : Prop :=
  actual ≤ bl.length ∧
    ((actual = offset ∧
        bl.remaining actual + offset =
          bl.remaining headerLength + headerLength) ∨
      (bl.remaining actual < width ∧
        bl.remaining headerLength + headerLength < offset))

theorem atField_start (h : headerLength ≤ bl.length) (width : Nat) :
    AtField bl headerLength width headerLength :=
  ⟨h, Or.inl ⟨rfl, rfl⟩⟩

theorem AtField.fetch {α : Type} {offset wide actual : Nat}
    (h : AtField bl offset wide actual) (width : Nat) (hwide : wide ≤ 2 * width)
    (current : α) (ofNet : Nat → α) :
    ∃ value next, bl.fetch actual width current ofNet = .ok (value, next) ∧
      AtField bl (offset + width) width next := by
  obtain ⟨hle, hplace⟩ := h
  obtain ⟨value, next, hfetch, hnext, hstep⟩ :=
    fetch_inside hle width current ofNet
  refine ⟨value, next, hfetch, hnext, ?_⟩
  rcases hstep with ⟨hroom, rfl⟩ | ⟨hshort, rfl⟩
  · have hleft := remaining_add hle hroom
    omega
  · omega

/-- The string of a position report ends, with its alignment, inside the
buffer; shorter reports have no string. -/
def PositionReport.StringFits (bl : BufLen) : Prop :=
  34 ≤ bl.remaining headerLength → fieldEnd bl 44 ≤ bl.length

theorem AtField.alignedFits_iff {actual : Nat} (h : AtField bl 44 2 actual) :
    AlignedFits bl actual ↔ PositionReport.StringFits bl := by
  obtain ⟨_, ⟨rfl, htotal⟩ | ⟨hshort, htotal⟩⟩ := h
  · unfold AlignedFits PositionReport.StringFits headerLength at *
    constructor
    · intro hfits hroom
      exact hfits (by omega)
    · intro hfits hroom
      exact hfits (by omega)
  · unfold AlignedFits PositionReport.StringFits headerLength at *
    constructor
    · intro _ hroom
      omega
    · intro _ hroom
      omega

theorem PositionReport.unpackData_inside_iff (h : headerLength ≤ bl.length) :
    Inside (PositionReport.unpackData bl) ↔ PositionReport.StringFits bl := by
  obtain ⟨v₁, o₁, h₁, at₁⟩ := (atField_start h 16).fetch 8
    (by decide) (0 : UInt64) UInt64.ofNat
  obtain ⟨v₂, o₂, h₂, at₂⟩ := at₁.fetch 4 (by decide)
    Double.nan unpackCoordinate
  obtain ⟨v₃, o₃, h₃, at₃⟩ := at₂.fetch 4 (by decide)
    Double.nan unpackCoordinate
  obtain ⟨v₄, o₄, h₄, at₄⟩ := at₃.fetch 4 (by decide)
    (0 : UInt32) UInt32.ofNat
  obtain ⟨v₅, o₅, h₅, at₅⟩ := at₄.fetch 4 (by decide)
    (0 : UInt32) UInt32.ofNat
  obtain ⟨v₆, o₆, h₆, at₆⟩ := at₅.fetch 2 (by decide)
    (0 : UInt16) UInt16.ofNat
  obtain ⟨v₇, o₇, h₇, at₇⟩ := at₆.fetch 2 (by decide)
    (0 : UInt16) UInt16.ofNat
  obtain ⟨v₈, o₈, h₈, at₈⟩ := at₇.fetch 2 (by decide)
    (0 : Int16) (fun raw => (UInt16.ofNat raw).toInt16)
  obtain ⟨v₉, o₉, h₉, at₉⟩ := at₈.fetch 2 (by decide)
    (0 : UInt16) UInt16.ofNat
  simp only [PositionReport.unpackData, h₁, h₂, h₃, h₄, h₅, h₆, h₇, h₈, h₉,
    inside_bind_ok]
  rw [← AtField.alignedFits_iff at₉]
  by_cases hfits : AlignedFits bl o₉
  · obtain ⟨callsign, hstring, hafter⟩ := fetchString_inside at₉.1 hfits []
    obtain ⟨_, o₁₁, h₁₁, hle₁₁, _⟩ := fetch_inside hafter 2
      (0 : UInt16) UInt16.ofNat
    obtain ⟨_, o₁₂, h₁₂, hle₁₂, _⟩ := fetch_inside hle₁₁ 1
      (0 : UInt8) UInt8.ofNat
    obtain ⟨_, o₁₃, h₁₃, _, _⟩ := fetch_inside hle₁₂ 1
      (0 : UInt8) UInt8.ofNat
    simp only [hstring, h₁₁, h₁₂, h₁₃, inside_bind_ok, inside_pure, hfits]
  · simp only [hfits, iff_false]
    apply not_inside_of_not_alignedFits at₉.1 hfits
    intro value next hpast hnear
    rw [fetch_past hpast hnear (by decide)]
    exact not_inside_bind_error _ _

/-- The last string of a message needs room for its bytes only. -/
def LastFits (bl : BufLen) (offset : Nat) : Prop :=
  2 ≤ bl.remaining offset → stringEnd bl offset ≤ bl.length

/-- Two aligned strings and a last one, each starting behind the one
before. -/
def SmmSettings.StringsFit (bl : BufLen) : Prop :=
  AlignedFits bl headerLength ∧
    AlignedFits bl (afterString bl headerLength) ∧
    LastFits bl (afterString bl (afterString bl headerLength))

instance (bl : BufLen) (offset : Nat) : Decidable (LastFits bl offset) :=
  inferInstanceAs (Decidable (_ → _))

instance (bl : BufLen) : Decidable (SmmSettings.StringsFit bl) :=
  inferInstanceAs (Decidable (_ ∧ _ ∧ _))

theorem fetchString_inside_iff {offset : Nat} (h : offset ≤ bl.length)
    (current : Bytes) :
    Inside (bl.fetchString offset current) ↔ LastFits bl offset := by
  unfold LastFits
  by_cases hroom : 2 ≤ bl.remaining offset
  · rw [fetchString_of_room h hroom]
    by_cases hfits : stringEnd bl offset ≤ bl.length
    · simp only [assign_of_le hfits, inside_ok, hfits, implies_true]
    · simp only [assign_of_lt (Nat.not_le.mp hfits), not_inside_error, hroom,
        hfits, imp_false, not_true_eq_false]
  · simp only [fetchString_of_short (Nat.not_le.mp hroom), inside_ok, hroom,
      false_implies]

theorem fetchString_past_end {offset : Nat} (hpast : bl.length < offset)
    (hnear : offset ≤ bl.length + 8) (current : Bytes) :
    bl.fetchString offset current = .error ⟨offset, 2⟩ := by
  have hwrapped := remaining_of_past hpast hnear
  have hroom : 2 ≤ bl.remaining offset := by omega
  have hread := readNat_of_lt (by omega : bl.length < offset + 2)
  simp only [BufLen.fetchString, hroom, ↓reduceIte, hread]
  rfl

theorem SmmSettings.unpackData_inside_iff (h : headerLength ≤ bl.length) :
    Inside (SmmSettings.unpackData bl) ↔ SmmSettings.StringsFit bl := by
  unfold SmmSettings.StringsFit
  by_cases hurl : AlignedFits bl headerLength
  · obtain ⟨url, hfetch, hafter⟩ := fetchString_inside h hurl []
    simp only [SmmSettings.unpackData, hfetch, inside_bind_ok, hurl, true_and]
    by_cases huser : AlignedFits bl (afterString bl headerLength)
    · obtain ⟨user, hfetch', hafter'⟩ := fetchString_inside hafter huser []
      simp only [hfetch', inside_bind_ok, huser, true_and]
      rw [inside_bind_pure]
      exact fetchString_inside_iff hafter' []
    · simp only [huser, false_and, iff_false]
      apply not_inside_of_not_alignedFits hafter huser
      intro value next hpast hnear
      rw [fetchString_past_end hpast hnear]
      exact not_inside_bind_error _ _
  · simp only [hurl, false_and, iff_false]
    apply not_inside_of_not_alignedFits h hurl
    intro value next hpast hnear
    simp only [fetchString_past_end hpast hnear, not_inside_bind_error,
      not_false_eq_true]

/-- Every entry the loop of a server list meets ends, with its alignment,
inside the buffer. -/
inductive ServersFit (bl : BufLen) : Nat → Prop where
  | stop {offset : Nat} (few : bl.remaining offset < 4) : ServersFit bl offset
  | entry {offset : Nat} (room : 4 ≤ bl.remaining offset)
      (fits : fieldEnd bl (offset + 2) ≤ bl.length)
      (rest : ServersFit bl (fieldEnd bl (offset + 2))) : ServersFit bl offset

/-- An entry as the loop reads it, when there is room for it. -/
def serverAt (bl : BufLen) (offset : Nat) : Bytes × UInt16 :=
  ((bl.drop (offset + 4)).take (stringLength bl (offset + 2)),
    UInt16.ofNat (ofBigEndian ((bl.drop offset).take 2)))

theorem fetchServer_of_le {offset : Nat} (hroom : offset + 4 ≤ bl.length)
    (hfits : stringEnd bl (offset + 2) ≤ bl.length) :
    fetchServer bl offset =
      .ok (serverAt bl offset, fieldEnd bl (offset + 2)) := by
  have hport := readNat_of_le (by omega : offset + 2 ≤ bl.length)
  have hlen := readNat_of_le (by omega : offset + 2 + 2 ≤ bl.length)
  have hval := assign_of_le hfits
  simp only [fetchServer, hport, hlen]
  change (bl.assign (offset + 2 + 2) (stringLength bl (offset + 2)) >>= _) = _
  rw [hval]
  rfl

theorem fetchServer_of_lt {offset : Nat}
    (hover : bl.length < stringEnd bl (offset + 2)) :
    ¬ Inside (fetchServer bl offset) := by
  intro hinside
  obtain ⟨⟨server, next⟩, hserver⟩ := hinside
  have hroom := (fetchServer_eq_ok hserver).1
  have hport := readNat_of_le (by omega : offset + 2 ≤ bl.length)
  have hlen := readNat_of_le (by omega : offset + 2 + 2 ≤ bl.length)
  have hval := assign_of_lt hover
  simp only [fetchServer, hport, hlen] at hserver
  change (bl.assign (offset + 2 + 2) (stringLength bl (offset + 2)) >>= _) =
    _ at hserver
  rw [hval] at hserver
  cases hserver

theorem unpackServers_of_few {offset : Nat}
    (hfew : bl.remaining offset < 4) : unpackServers bl offset = .ok [] := by
  rw [unpackServers]
  simp only [Nat.not_le.mpr hfew, ↓reduceIte]

theorem unpackServers_of_room {offset : Nat} (h : offset ≤ bl.length)
    (hroom : 4 ≤ bl.remaining offset)
    (hfits : stringEnd bl (offset + 2) ≤ bl.length) :
    unpackServers bl offset =
      (unpackServers bl (fieldEnd bl (offset + 2))).map
        (serverAt bl offset :: ·) := by
  have hbound := remaining_le h
  have hserver := fetchServer_of_le
    (by omega : offset + 4 ≤ bl.length) hfits
  rw [unpackServers]
  simp only [hroom, ↓reduceIte]
  split
  next e herror => rw [hserver] at herror; cases herror
  next server next hok =>
      rw [hserver] at hok
      cases hok
      rfl

theorem not_inside_unpackServers {offset : Nat}
    (hroom : 4 ≤ bl.remaining offset)
    (hentry : ¬ Inside (fetchServer bl offset)) :
    ¬ Inside (unpackServers bl offset) := by
  rw [unpackServers]
  simp only [hroom, ↓reduceIte]
  split
  next e herror => exact not_inside_error e
  next server next hok => exact absurd ⟨_, hok⟩ hentry

theorem unpackServers_past {offset : Nat} (hpast : bl.length < offset)
    (hnear : offset ≤ bl.length + 8) : ¬ Inside (unpackServers bl offset) := by
  have hwrapped := remaining_of_past hpast hnear
  apply not_inside_unpackServers (by omega)
  rintro ⟨⟨server, next⟩, hserver⟩
  have hroom := (fetchServer_eq_ok hserver).1
  omega

theorem ServersFit.inside {offset : Nat} (hfits : ServersFit bl offset)
    (h : offset ≤ bl.length) : Inside (unpackServers bl offset) := by
  induction hfits with
  | stop few =>
      rw [unpackServers_of_few few]
      exact inside_ok []
  | @entry offset room fits rest ih =>
      have hlt := stringEnd_lt_fieldEnd bl (offset + 2)
      rw [unpackServers_of_room h room (by omega), inside_map]
      exact ih fits

theorem serversFit_of_inside {offset : Nat} (h : offset ≤ bl.length)
    (hinside : Inside (unpackServers bl offset)) : ServersFit bl offset := by
  -- each entry moves the offset forward, inside the buffer
  induction hleft : bl.length - offset using Nat.strong_induction_on
    generalizing offset with
  | h left ih =>
      by_cases hroom : 4 ≤ bl.remaining offset
      · have hbound := remaining_le h
        by_cases hstring : stringEnd bl (offset + 2) ≤ bl.length
        · rw [unpackServers_of_room h hroom hstring, inside_map] at hinside
          have hnear := fieldEnd_le_stringEnd_add bl (offset + 2)
          have hfits : fieldEnd bl (offset + 2) ≤ bl.length := by
            by_contra hover
            exact unpackServers_past (Nat.not_le.mp hover) (by omega) hinside
          have hforward : offset < fieldEnd bl (offset + 2) := by
            have hlt := stringEnd_lt_fieldEnd bl (offset + 2)
            unfold stringEnd at hlt
            omega
          exact .entry hroom hfits
            (ih _ (by omega) hfits hinside rfl)
        · exact absurd hinside (not_inside_unpackServers hroom
            (fetchServer_of_lt (Nat.not_le.mp hstring)))
      · exact .stop (Nat.not_le.mp hroom)

/-- The loop of a server list stays inside exactly when its entries do. -/
theorem unpackServers_inside_iff (h : headerLength ≤ bl.length) :
    Inside (unpackServers bl headerLength) ↔ ServersFit bl headerLength :=
  ⟨serversFit_of_inside h, fun hfits => hfits.inside h⟩

/-! The classes whose payload has no string read under one or two guards. -/

theorem unpackName_inside (h : headerLength ≤ bl.length) :
    Inside (unpackName bl) := by
  have hread := read_of_le (remaining_le h)
  simp only [unpackName, hread, inside_bind_ok, inside_pure]

theorem fetch_value_inside {α : Type} (h : headerLength ≤ bl.length)
    (width : Nat) (current : α) (ofNet : Nat → α) :
    Inside (bl.fetch headerLength width current ofNet >>=
      fun result => pure result.1) := by
  obtain ⟨value, next, hfetch, _⟩ := fetch_inside h width current ofNet
  rw [hfetch]
  exact inside_pure value

theorem SystemStatus.unpackData_inside (h : headerLength ≤ bl.length) :
    Inside (SystemStatus.unpackData bl) := by
  have hbound := remaining_le h
  by_cases hroom : 5 ≤ bl.remaining headerLength
  · have hpercent := readNat_of_le
      (by omega : headerLength + 1 ≤ bl.length)
    have hcharge := readNat_of_le
      (by omega : headerLength + 1 + 4 ≤ bl.length)
    obtain ⟨voltage, next, hfetch, _⟩ := fetch_inside
      (by omega : headerLength + 5 ≤ bl.length) 4
      (Double.finite 0) unpackVoltage
    simp only [unpackData, hroom, ↓reduceIte, hpercent, hcharge, ok_bind,
      pure_bind, hfetch, inside_pure]
  · obtain ⟨voltage, next, hfetch, _⟩ := fetch_inside h 4
      (Double.finite 0) unpackVoltage
    simp only [unpackData, hroom, ↓reduceIte, pure_bind, hfetch, ok_bind,
      inside_pure]

theorem SearchStatus.unpackData_inside (h : headerLength ≤ bl.length) :
    Inside (SearchStatus.unpackData bl) := by
  have hbound := remaining_le h
  by_cases hroom : 24 ≤ bl.remaining headerLength
  · have hid := readNat_of_le (by omega : headerLength + 8 ≤ bl.length)
    have hdone := readNat_of_le
      (by omega : headerLength + 8 + 8 ≤ bl.length)
    have htotal := readNat_of_le
      (by omega : headerLength + 16 + 8 ≤ bl.length)
    simp only [unpackData, hroom, ↓reduceIte, hid, hdone, htotal,
      inside_bind_ok, inside_pure]
  · simp only [unpackData, hroom, ↓reduceIte, inside_pure]

theorem AssetCommand.unpackDataBy_inside (unpack : Nat → Double)
    (h : headerLength ≤ bl.length) : Inside (unpackDataBy unpack bl) := by
  have hbound := remaining_le h
  by_cases hroom : 21 ≤ bl.remaining headerLength
  · have htime := readNat_of_le (by omega : headerLength + 8 ≤ bl.length)
    have hlat := readNat_of_le
      (by omega : headerLength + 8 + 4 ≤ bl.length)
    have hlng := readNat_of_le
      (by omega : headerLength + 12 + 4 ≤ bl.length)
    have halt := readNat_of_le
      (by omega : headerLength + 16 + 4 ≤ bl.length)
    have hcmd := readNat_of_le
      (by omega : headerLength + 20 + 1 ≤ bl.length)
    simp only [unpackDataBy, hroom, ↓reduceIte, htime, hlat, hlng, halt, hcmd,
      inside_bind_ok, inside_pure]
  · simp only [unpackDataBy, hroom, ↓reduceIte, inside_pure]

/-- The tag in the type field of a buffer. -/
def typeField (bl : BufLen) : Option FssMessageType :=
  FssMessageType.ofCode? (ofBigEndian ((bl.drop 2).take 2))

/-- Every string that the payload of a buffer announces lies, with its
alignment, inside the buffer. -/
def StringsFit (bl : BufLen) : Prop :=
  match typeField bl with
  | some .positionReport => PositionReport.StringFits bl
  | some .smmSettings => SmmSettings.StringsFit bl
  | some .serverList => ServersFit bl headerLength
  | _ => True

theorem decode_of_le (h : headerLength ≤ bl.length) :
    decode bl = decodeAs (typeField bl)
      (UInt64.ofNat (ofBigEndian ((bl.drop 4).take 8))) bl := by
  unfold headerLength at h
  have htype := readNat_of_le (by omega : 2 + 2 ≤ bl.length)
  have hid := readNat_of_le (by omega : 4 + 8 ≤ bl.length)
  simp only [decode, htype, hid]
  rfl

theorem inside_decode_of_header (h : headerLength ≤ bl.length) :
    Inside (decode bl) ↔ StringsFit bl := by
  rw [decode_of_le h]
  unfold StringsFit
  cases typeField bl with
  | none => simp only [decodeAs, inside_ok]
  | some type =>
      cases type with
      | positionReport =>
          simp only [decodeAs, decodePositionReport, inside_map,
            inside_bind_pure]
          exact PositionReport.unpackData_inside_iff h
      | smmSettings =>
          simp only [decodeAs, decodeSmmSettings, inside_map,
            inside_bind_pure]
          exact SmmSettings.unpackData_inside_iff h
      | serverList =>
          simp only [decodeAs, decodeServerList, inside_map,
            inside_bind_pure]
          exact unpackServers_inside_iff h
      | identity =>
          simp only [decodeAs, decodeIdentity, inside_map, inside_bind_pure,
            unpackName_inside h]
      | rttResponse =>
          simp only [decodeAs, decodeRttResponse, inside_map,
            inside_bind_pure, iff_true]
          exact fetch_value_inside h 8 0 UInt64.ofNat
      | identityNonAircraft =>
          simp only [decodeAs, decodeIdentityNonAircraft, inside_map,
            inside_bind_pure, iff_true]
          exact fetch_value_inside h 8 0 UInt64.ofNat
      | systemStatus =>
          simp only [decodeAs, decodeSystemStatus, inside_map,
            inside_bind_pure, SystemStatus.unpackData_inside h]
      | searchStatus =>
          simp only [decodeAs, decodeSearchStatus, inside_map,
            inside_bind_pure, SearchStatus.unpackData_inside h]
      | command =>
          simp only [decodeAs, decodeAssetCommand, inside_map,
            inside_bind_pure, AssetCommand.unpackData,
            AssetCommand.unpackDataBy_inside _ h]
      | unknown | closed => simp only [decodeAs, inside_ok]
      | rttRequest =>
          simp only [decodeAs, decodeRttRequest, inside_map, inside_pure]
      | identityRequired =>
          simp only [decodeAs, decodeIdentityRequired, inside_map,
            inside_pure]

/-- A buffer too short for a header is left by the read of its id. -/
theorem not_inside_decode (h : bl.length < headerLength) :
    ¬ Inside (decode bl) := by
  have hshort : bl.length < 4 + 8 := h
  have hid := readNat_of_lt hshort
  simp only [decode, hid]
  cases readNat bl 2 2 with
  | error e => exact not_inside_error e
  | ok type => exact not_inside_error _

/-- A buffer is decoded without a read outside it exactly when it holds a
header and the strings of its payload fit. -/
theorem inside_decode_iff (bl : BufLen) :
    Inside (decode bl) ↔ headerLength ≤ bl.length ∧ StringsFit bl := by
  by_cases h : headerLength ≤ bl.length
  · simp only [h, true_and]
    exact inside_decode_of_header h
  · simp only [h, false_and, iff_false]
    exact not_inside_decode (Nat.not_le.mp h)

/-- A buffer that holds a header is decoded without a read outside it exactly
when the strings of its payload fit. -/
theorem decode_inside_iff (bl : BufLen) (h : headerLength ≤ bl.length) :
    Inside (decode bl) ↔ StringsFit bl := by
  rw [inside_decode_iff]
  exact and_iff_right h

/-- An empty smm settings header with a first string said to have 65535
bytes. -/
def overlongSmmSettings : BufLen :=
  [0, 16, 0, 10, 0, 0, 0, 0, 0, 0, 0, 1, 255, 255, 0, 0]

/-- Its decoder copies 65535 bytes from the last two of the buffer. -/
theorem decode_overlongSmmSettings :
    headerLength ≤ overlongSmmSettings.length ∧
      ¬ Inside (decode overlongSmmSettings) := by
  refine ⟨by decide, ?_⟩
  have hcopy : decode overlongSmmSettings = .error ⟨14, 65535⟩ := by decide
  rw [hcopy]
  exact not_inside_error _

/-- Settings for a server `h`, a user `u` and a password `p`. -/
def shortSmmSettings : BufLen :=
  [0, 27, 0, 10, 0, 0, 0, 0, 0, 0, 0, 1, 0, 1, 104, 0, 0, 1, 117, 0, 0, 0, 0, 0,
    0, 1, 112]

/-- The strings of some settings end inside the buffer, and with a byte less
the last one does not. -/
theorem decode_inside_iff_smmSettings :
    Inside (decode shortSmmSettings) ∧
      ¬ Inside (decode (shortSmmSettings.take 26)) := by
  have htype : typeField shortSmmSettings = some .smmSettings := by
    decide +kernel
  have htype' : typeField (shortSmmSettings.take 26) = some .smmSettings := by
    decide +kernel
  rw [decode_inside_iff _ (by decide), decode_inside_iff _ (by decide),
    StringsFit, StringsFit, htype, htype']
  constructor
  · change SmmSettings.StringsFit shortSmmSettings
    decide +kernel
  · change ¬ SmmSettings.StringsFit (shortSmmSettings.take 26)
    decide +kernel

end FlightSafety
