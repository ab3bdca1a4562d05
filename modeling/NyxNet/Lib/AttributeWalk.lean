import Mathlib.Tactic.Common

/-!
# Walks over attributes

A message lists attributes: a header of fixed length, a value whose size the
header gives, and padding up to the next header.  A walk has two bounds.
Headers have to end before the one, the end of the message, and values before
the other, the end of the buffer.  Where the buffer is longer than the message
the two bounds differ in at most the last attribute.
-/

namespace AttributeWalk

/-- How the headers of type `η` lie in a buffer. -/
structure Format (η : Type*) where
  headerLen : Nat
  header_pos : 0 < headerLen
  /-- The header at an offset. -/
  read : Nat → Option η
  size : η → Nat
  padded : Nat → Nat
  le_padded : ∀ size, size ≤ padded size

variable {η : Type*}

namespace Format

/-- The attributes from an offset on, each with the offset of its value. -/
def walk (format : Format η) (stop limit offset : Nat) : List (Nat × η) :=
  if offset + format.headerLen ≤ stop then
    match format.read offset with
    | none => []
    | some header =>
        let value := offset + format.headerLen
        if value + format.size header ≤ limit then
          (value, header) ::
            walk format stop limit (value + format.padded (format.size header))
        else []
  else []
termination_by stop - offset
decreasing_by
  have positive := format.header_pos
  omega

variable (format : Format η) {stop limit offset : Nat}

/-- Where the value of an attribute ends. -/
def valueEnd (format : Format η) (found : Nat × η) : Nat :=
  found.1 + format.size found.2

theorem walk_of_stop_lt (past : stop < offset + format.headerLen) :
    format.walk stop limit offset = [] := by
  rw [walk, if_neg (Nat.not_le_of_lt past)]

theorem walk_of_unreadable (absent : format.read offset = none) :
    format.walk stop limit offset = [] := by
  rw [walk, absent]
  exact ite_self []

theorem walk_of_fits {header : η} (inside : offset + format.headerLen ≤ stop)
    (present : format.read offset = some header)
    (fits : offset + format.headerLen + format.size header ≤ limit) :
    format.walk stop limit offset =
      (offset + format.headerLen, header) ::
        format.walk stop limit (offset + format.headerLen +
          format.padded (format.size header)) := by
  rw [walk, if_pos inside, present]
  exact if_pos fits

theorem walk_of_overhang {header : η}
    (present : format.read offset = some header)
    (exceeds : limit < offset + format.headerLen + format.size header) :
    format.walk stop limit offset = [] := by
  rw [walk, present]
  simp only [if_neg (Nat.not_le_of_lt exceeds), ite_self]

variable {format}

/-- Every attribute of a walk has its header in the message and its value in
the buffer. -/
theorem bounds_of_mem_walk {found : Nat × η}
    (member : found ∈ format.walk stop limit offset) :
    found.1 ≤ stop ∧ format.valueEnd found ≤ limit := by
  induction offset using walk.induct format stop limit with
  | case1 offset inside absent =>
      rw [walk_of_unreadable format absent] at member
      cases member
  | case2 offset inside header present value fits ih =>
      rw [walk_of_fits format inside present fits] at member
      rcases List.mem_cons.mp member with rfl | later
      · exact ⟨inside, fits⟩
      · exact ih later
  | case3 offset inside header present value exceeds =>
      rw [walk_of_overhang format present (Nat.lt_of_not_le exceeds)] at member
      cases member
  | case4 offset past =>
      rw [walk_of_stop_lt format (Nat.lt_of_not_le past)] at member
      cases member

/-- With a longer buffer a walk finds the same attributes, and perhaps one more
that hangs over the end of the message. -/
theorem walk_eq_append (longer : stop ≤ limit) :
    ∃ rest, format.walk stop limit offset =
        format.walk stop stop offset ++ rest ∧
      ∀ found ∈ rest, stop < format.valueEnd found := by
  induction offset using walk.induct format stop limit with
  | case1 offset inside absent =>
      rw [walk_of_unreadable format absent, walk_of_unreadable format absent]
      exact ⟨[], rfl, fun found none => absurd none List.not_mem_nil⟩
  | case2 offset inside header present value fits ih =>
      rw [walk_of_fits format inside present fits]
      by_cases within : value + format.size header ≤ stop
      · rw [walk_of_fits format inside present within]
        obtain ⟨rest, later, overhang⟩ := ih
        exact ⟨rest, congrArg _ later, overhang⟩
      · -- The next header would start behind the message.
        have far := format.le_padded (format.size header)
        rw [walk_of_overhang format present (Nat.lt_of_not_le within),
          walk_of_stop_lt format (by omega)]
        refine ⟨_, rfl, ?_⟩
        intro found member
        rw [List.mem_singleton.mp member]
        exact Nat.lt_of_not_le within
  | case3 offset inside header present value exceeds =>
      have outside : limit < value + format.size header :=
        Nat.lt_of_not_le exceeds
      rw [walk_of_overhang format present outside,
        walk_of_overhang format present (Nat.lt_of_le_of_lt longer outside)]
      exact ⟨[], rfl, fun found none => absurd none List.not_mem_nil⟩
  | case4 offset past =>
      rw [walk_of_stop_lt format (Nat.lt_of_not_le past),
        walk_of_stop_lt format (Nat.lt_of_not_le past)]
      exact ⟨[], rfl, fun found none => absurd none List.not_mem_nil⟩

/-- A walk reads nothing but the headers inside the message. -/
theorem walk_congr {read : Nat → Option η}
    (same : ∀ offset, offset + format.headerLen ≤ stop →
      read offset = format.read offset) :
    { format with read }.walk stop limit offset =
      format.walk stop limit offset := by
  let other : Format η := { format with read }
  change other.walk stop limit offset = _
  induction offset using walk.induct format stop limit with
  | case1 offset inside absent =>
      rw [walk_of_unreadable format absent,
        walk_of_unreadable other ((same offset inside).trans absent)]
  | case2 offset inside header present value fits ih =>
      have presentToo := (same offset inside).trans present
      rw [walk_of_fits format inside present fits,
        walk_of_fits other inside presentToo fits]
      exact congrArg _ ih
  | case3 offset inside header present value exceeds =>
      have outside := Nat.lt_of_not_le exceeds
      have presentToo := (same offset inside).trans present
      rw [walk_of_overhang format present outside,
        walk_of_overhang other presentToo outside]
  | case4 offset past =>
      rw [walk_of_stop_lt format (Nat.lt_of_not_le past),
        walk_of_stop_lt other (Nat.lt_of_not_le past)]

end Format

end AttributeWalk
