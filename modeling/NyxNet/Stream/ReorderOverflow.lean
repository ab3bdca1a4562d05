import NyxNet.Stream.Reorder

/-!
# Overflow in the reordering buffer

`push` and `drain_ready` of `nyx-stream/src/reorder.rs` with every sum, product
and difference of sequence numbers made in a build of either kind.  A build with
overflow checks aborts on a packet far enough ahead of the expected one, and on
one that completes the run up to the largest number.
-/

namespace NyxNet.Stream

namespace ReorderBuffer

variable {T : Type}

/-- The release loop in a build of this kind; without a result it aborts. -/
def releaseLoopIn (mode : OverflowMode) :
    Nat → UInt64 → Window T → Option (List T × UInt64 × Window T)
  | 0, nextSeq, window => some ([], nextSeq, window)
  | fuel + 1, nextSeq, window =>
      match window[nextSeq]? with
      | none => some ([], nextSeq, window)
      | some pkt =>
          match mode.add nextSeq 1 with
          | none => none
          | some succ =>
              match releaseLoopIn mode fuel succ (window.erase nextSeq) with
              | none => none
              | some (ready, final, rest) => some (pkt :: ready, final, rest)

def drainReadyIn (mode : OverflowMode) (buffer : ReorderBuffer T) :
    Option (List T × ReorderBuffer T) :=
  match releaseLoopIn mode buffer.window.size buffer.nextSeq buffer.window with
  | none => none
  | some (ready, nextSeq, window) =>
      let maxWindow := shrunkWindow window.size buffer.maxWindow
      some (ready,
        { nextSeq, window := evictLoop maxWindow window.size window, maxWindow })

/-- `gap * 5` in a build of this kind. -/
def scaledGap (mode : OverflowMode) (nextSeq high : UInt64) : Option UInt64 :=
  match mode.sub high nextSeq with
  | none => none
  | some difference =>
      match mode.add difference 1 with
      | none => none
      | some gap => mode.mul gap 5

def grownWindowIn (mode : OverflowMode) (nextSeq : UInt64) (window : Window T)
    (maxWindow : Nat) : Option Nat :=
  match OrderedMap.lastKey window with
  | none => some maxWindow
  | some high =>
      match scaledGap mode nextSeq high with
      | none => none
      | some scaled =>
          if maxWindow < (scaled / 4).toNat ∧ maxWindow < 8192 then
            some (min (maxWindow * 2) 8192)
          else some maxWindow

def pushIn (mode : OverflowMode) (buffer : ReorderBuffer T) (seq : UInt64)
    (pkt : T) : Option (List T × ReorderBuffer T) :=
  if seq < buffer.nextSeq then
    some ([], buffer)
  else
    let window := buffer.window.insert seq pkt
    match grownWindowIn mode buffer.nextSeq window buffer.maxWindow with
    | none => none
    | some maxWindow =>
        drainReadyIn mode { nextSeq := buffer.nextSeq, window, maxWindow }

theorem releaseLoopIn_wrapping (fuel : Nat) (nextSeq : UInt64)
    (window : Window T) :
    releaseLoopIn .wrapping fuel nextSeq window =
      some (releaseLoop fuel nextSeq window) := by
  induction fuel generalizing nextSeq window with
  | zero => rfl
  | succ fuel ih =>
      unfold releaseLoopIn releaseLoop
      cases window[nextSeq]? with
      | none => rfl
      | some pkt =>
          simp only [OverflowMode.add, ih]

/-- Without overflow checks a push is the one of the buffer. -/
theorem pushIn_wrapping (buffer : ReorderBuffer T) (seq : UInt64) (pkt : T) :
    buffer.pushIn .wrapping seq pkt = some (buffer.push seq pkt) := by
  have grown : ∀ window : Window T,
      grownWindowIn .wrapping buffer.nextSeq window buffer.maxWindow =
        some (grownWindow buffer.nextSeq window buffer.maxWindow) := by
    intro window
    unfold grownWindowIn grownWindow
    cases OrderedMap.lastKey window with
    | none => rfl
    | some high =>
        simp only [scaledGap, OverflowMode.sub, OverflowMode.add,
          OverflowMode.mul]
        split
        · rfl
        · rfl
  unfold pushIn push
  split
  · rfl
  · simp only [grown, drainReadyIn, releaseLoopIn_wrapping]
    rfl

theorem releaseLoopIn_eq {mode : OverflowMode} {fuel : Nat} {nextSeq : UInt64}
    {window : Window T} {result : List T × UInt64 × Window T}
    (released : releaseLoopIn mode fuel nextSeq window = some result) :
    result = releaseLoop fuel nextSeq window := by
  induction fuel generalizing nextSeq window result with
  | zero => exact (Option.some.inj released).symm
  | succ fuel ih =>
      unfold releaseLoopIn at released
      unfold releaseLoop
      cases found : window[nextSeq]? with
      | none =>
          simp only [found, Option.some.injEq] at released
          exact released.symm
      | some pkt =>
          simp only [found] at released
          split at released
          · cases released
          · next succ added =>
              split at released
              · cases released
              · next ready final rest inner =>
                  have same := ih inner
                  rw [OverflowMode.eq_of_add added] at same
                  rw [← Option.some.inj released]
                  simp only [← same]

theorem scaledGap_eq {mode : OverflowMode} {nextSeq high scaled : UInt64}
    (product : scaledGap mode nextSeq high = some scaled) :
    scaled = (high - nextSeq + 1) * 5 := by
  unfold scaledGap at product
  split at product
  · cases product
  · next difference subtracted =>
      split at product
      · cases product
      · next gap added =>
          rw [← OverflowMode.eq_of_sub subtracted,
            ← OverflowMode.eq_of_add added]
          exact OverflowMode.eq_of_mul product

theorem grownWindowIn_eq {mode : OverflowMode} {nextSeq : UInt64}
    {window : Window T} {maxWindow grown : Nat}
    (grew : grownWindowIn mode nextSeq window maxWindow = some grown) :
    grown = grownWindow nextSeq window maxWindow := by
  unfold grownWindowIn at grew
  unfold grownWindow
  cases last : OrderedMap.lastKey window with
  | none =>
      simp only [last, Option.some.injEq] at grew
      exact grew.symm
  | some high =>
      simp only [last] at grew ⊢
      split at grew
      · cases grew
      · next scaled product =>
          rw [scaledGap_eq product] at grew
          split at grew
          · next grows =>
              rw [if_pos grows]
              exact (Option.some.inj grew).symm
          · next stays =>
              rw [if_neg stays]
              exact (Option.some.inj grew).symm

/-- A push that does not abort is the one of the buffer, in both builds. -/
theorem pushIn_eq {mode : OverflowMode} {buffer : ReorderBuffer T}
    {seq : UInt64} {pkt : T} {result : List T × ReorderBuffer T}
    (pushed : buffer.pushIn mode seq pkt = some result) :
    result = buffer.push seq pkt := by
  unfold pushIn drainReadyIn at pushed
  unfold push drainReady
  split at pushed
  · next old =>
      rw [if_pos old]
      exact (Option.some.inj pushed).symm
  · next notOld =>
      rw [if_neg notOld]
      simp only at pushed ⊢
      split at pushed
      · cases pushed
      · next maxWindow grew =>
          split at pushed
          · cases pushed
          · next ready nextSeq window released =>
              rw [← grownWindowIn_eq grew, ← releaseLoopIn_eq released]
              exact (Option.some.inj pushed).symm

/-- The gap up to this number can be scaled. -/
def GapFits (nextSeq high : UInt64) : Prop :=
  (high.toNat - nextSeq.toNat + 1) * 5 < 2 ^ 64

/-- The packet is old, or the gaps up to it and to every buffered packet can be
scaled and some number from the expected one on is still missing. -/
def PushFits (buffer : ReorderBuffer T) (seq : UInt64) : Prop :=
  seq.toNat < buffer.nextSeq.toNat ∨
    (GapFits buffer.nextSeq seq ∧
        ∀ held ∈ buffer.window, GapFits buffer.nextSeq held) ∧
      ∃ missing : UInt64, buffer.nextSeq.toNat ≤ missing.toNat ∧
        missing ≠ seq ∧ missing ∉ buffer.window

/-- No buffered number lies below the expected one. -/
def Above (nextSeq : UInt64) (window : Window T) : Prop :=
  ∀ held ∈ window, nextSeq.toNat ≤ held.toNat

theorem Above.next {nextSeq : UInt64} {window : Window T}
    (above : Above nextSeq window) :
    Above (nextSeq + 1) (window.erase nextSeq) := by
  intro held member
  rw [Std.ExtTreeMap.mem_erase] at member
  have different : nextSeq.toNat ≠ held.toNat := by
    intro same
    apply member.1
    simp [UInt64.toNat_inj.mp same]
  have reached := above held member.2
  have bound := held.toNat_lt
  rw [UInt64.toNat_add]
  -- past the largest number the expected one is zero
  change (nextSeq.toNat + 1) % 2 ^ 64 ≤ held.toNat
  omega

theorem above_releaseLoop (fuel : Nat) {nextSeq : UInt64} {window : Window T}
    (above : Above nextSeq window) :
    Above (releaseLoop fuel nextSeq window).2.1
      (releaseLoop fuel nextSeq window).2.2 := by
  induction fuel generalizing nextSeq window with
  | zero => exact above
  | succ fuel ih =>
      unfold releaseLoop
      cases window[nextSeq]? with
      | none => exact above
      | some pkt => exact ih above.next

theorem above_push {buffer : ReorderBuffer T}
    (above : Above buffer.nextSeq buffer.window) (seq : UInt64) (pkt : T) :
    Above (buffer.push seq pkt).2.nextSeq (buffer.push seq pkt).2.window := by
  by_cases old : seq.toNat < buffer.nextSeq.toNat
  · rw [push_of_old pkt old]
    exact above
  · have isNew : buffer.nextSeq.toNat ≤ seq.toNat := Nat.le_of_not_lt old
    have inserted : Above buffer.nextSeq (buffer.window.insert seq pkt) := by
      intro held member
      rcases Std.ExtTreeMap.mem_insert.mp member with same | before
      · rw [Std.LawfulEqCmp.compare_eq_iff_eq] at same
        rw [← same]
        exact isNew
      · exact above held before
    rw [push_of_new pkt isNew]
    intro held member
    exact above_releaseLoop _ inserted held (mem_of_mem_evictLoop member)

theorem above_popFront {buffer : ReorderBuffer T}
    (above : Above buffer.nextSeq buffer.window) :
    Above buffer.popFront.2.nextSeq buffer.popFront.2.window := by
  unfold popFront
  cases buffer.window[buffer.nextSeq]? with
  | none => exact above
  | some pkt => exact above.next

/-- In every run, whatever numbers are pushed. -/
theorem above_run (start : UInt64) (operations : List (Operation T)) :
    Above (Trace.final operate (new start) operations).nextSeq
      (Trace.final operate (new start) operations).window := by
  apply @Trace.final_invariant _ _ _ operate
    (fun buffer : ReorderBuffer T => Above buffer.nextSeq buffer.window)
  · intro buffer operation above
    cases operation with
    | push seq pkt => exact above_push above seq pkt
    | popFront => exact above_popFront above
  · intro held member
    simp [new] at member

theorem scaledGap_isSome_iff {nextSeq high : UInt64}
    (above : nextSeq.toNat ≤ high.toNat) :
    (scaledGap .checked nextSeq high).isSome ↔ GapFits nextSeq high := by
  have difference : (high - nextSeq).toNat = high.toNat - nextSeq.toNat :=
    UInt64.toNat_sub_of_le _ _ (UInt64.le_iff_toNat_le.mpr above)
  have one : (1 : UInt64).toNat = 1 := rfl
  have five : (5 : UInt64).toNat = 5 := rfl
  unfold scaledGap GapFits
  simp only [OverflowMode.sub, if_pos above, OverflowMode.add, difference, one]
  by_cases fits : high.toNat - nextSeq.toNat + 1 < 2 ^ 64
  · have gap : (high - nextSeq + 1).toNat =
        high.toNat - nextSeq.toNat + 1 := by
      rw [UInt64.toNat_add_of_fits, difference, one]
      rw [difference, one]
      exact fits
    rw [if_pos fits]
    simp only [OverflowMode.mul, gap, five]
    split
    · next small => exact iff_of_true rfl small
    · next large => exact iff_of_false (by simp) large
  · rw [if_neg fits]
    refine iff_of_false (by simp) ?_
    omega

theorem grownWindowIn_isSome_iff {nextSeq : UInt64} {window : Window T}
    (above : Above nextSeq window) (maxWindow : Nat) :
    (grownWindowIn .checked nextSeq window maxWindow).isSome ↔
      ∀ held ∈ window, GapFits nextSeq held := by
  unfold grownWindowIn
  cases last : OrderedMap.lastKey window with
  | none =>
      have empty : window = ∅ :=
        Std.ExtTreeMap.eq_empty_iff_size_eq_zero.mpr
          (OrderedMap.lastKey_eq_none_iff.mp last)
      refine iff_of_true rfl ?_
      intro held member
      rw [empty] at member
      exact absurd member Std.ExtTreeMap.not_mem_empty
  | some high =>
      have present := OrderedMap.lastKey_mem last
      have widest : (∀ held ∈ window, GapFits nextSeq held) ↔
          GapFits nextSeq high := by
        constructor
        · intro fits
          exact fits high present
        · intro fits held member
          have below := UInt64.le_iff_toNat_le.mp
            (OrderedMap.le_lastKey last member)
          unfold GapFits at fits ⊢
          omega
      rw [widest, ← scaledGap_isSome_iff (above high present)]
      simp only
      cases scaledGap .checked nextSeq high with
      | none => exact Iff.rfl
      | some scaled =>
          simp only [Option.isSome_some, iff_true]
          split
          · rfl
          · rfl

/-- The expected packet is there, so what is missing comes after it. -/
theorem missing_next_iff {nextSeq : UInt64} {window : Window T}
    (present : nextSeq ∈ window)
    (succ : (nextSeq + 1).toNat = nextSeq.toNat + 1) :
    (∃ missing : UInt64, (nextSeq + 1).toNat ≤ missing.toNat ∧
        missing ∉ window.erase nextSeq) ↔
      ∃ missing : UInt64, nextSeq.toNat ≤ missing.toNat ∧
        missing ∉ window := by
  apply exists_congr
  intro missing
  rw [succ, Std.ExtTreeMap.mem_erase, ne_eq,
    Std.LawfulEqCmp.compare_eq_iff_eq]
  constructor
  · intro facts
    obtain ⟨reached, absent⟩ := facts
    refine ⟨by omega, ?_⟩
    intro member
    apply absent
    refine ⟨?_, member⟩
    intro same
    rw [same] at reached
    omega
  · intro facts
    obtain ⟨reached, absent⟩ := facts
    have apart : nextSeq.toNat ≠ missing.toNat := by
      intro same
      exact absent (UInt64.toNat_inj.mp same ▸ present)
    refine ⟨by omega, ?_⟩
    intro member
    exact absent member.2

/-- The release loop aborts when it hands out the packet with the largest
number, so exactly when no number is missing from the expected one on. -/
theorem releaseLoopIn_isSome_iff (fuel : Nat) (nextSeq : UInt64)
    (window : Window T) (enough : window.size ≤ fuel) :
    (releaseLoopIn .checked fuel nextSeq window).isSome ↔
      ∃ missing : UInt64, nextSeq.toNat ≤ missing.toNat ∧
        missing ∉ window := by
  induction fuel generalizing nextSeq window with
  | zero =>
      have empty : window = ∅ :=
        Std.ExtTreeMap.eq_empty_iff_size_eq_zero.mpr (by omega)
      refine iff_of_true rfl ⟨nextSeq, Nat.le_refl _, ?_⟩
      rw [empty]
      exact Std.ExtTreeMap.not_mem_empty
  | succ fuel ih =>
      unfold releaseLoopIn
      cases found : window[nextSeq]? with
      | none =>
          refine iff_of_true rfl ⟨nextSeq, Nat.le_refl _, ?_⟩
          simp [Std.ExtTreeMap.mem_iff_isSome_getElem?, found]
      | some pkt =>
          have present : nextSeq ∈ window := by
            simp [Std.ExtTreeMap.mem_iff_isSome_getElem?, found]
          have one : (1 : UInt64).toNat = 1 := rfl
          simp only [OverflowMode.add, one]
          by_cases fits : nextSeq.toNat + 1 < 2 ^ 64
          · have succ : (nextSeq + 1).toNat = nextSeq.toNat + 1 :=
              UInt64.toNat_add_of_fits fits
            have smaller := OrderedMap.size_erase_of_mem present
            have rest := ih (nextSeq + 1) (window.erase nextSeq) (by omega)
            rw [if_pos fits]
            rw [← missing_next_iff present succ, ← rest]
            simp only
            cases releaseLoopIn .checked fuel (nextSeq + 1)
                (window.erase nextSeq) with
            | none => rfl
            | some result => rfl
          · rw [if_neg fits]
            refine iff_of_false (by simp) ?_
            intro missing
            obtain ⟨number, reached, absent⟩ := missing
            have bound := number.toNat_lt
            have last : nextSeq = number := UInt64.toNat_inj.mp (by omega)
            exact absent (last ▸ present)

theorem pushIn_checked_isSome_iff (start : UInt64)
    (operations : List (Operation T)) (seq : UInt64) (pkt : T) :
    ((Trace.final operate (new start) operations).pushIn .checked seq
        pkt).isSome ↔
      (Trace.final operate (new start) operations).PushFits seq := by
  have above := above_run start operations
  generalize Trace.final operate (new start) operations = buffer at above ⊢
  unfold pushIn PushFits
  by_cases old : seq.toNat < buffer.nextSeq.toNat
  · rw [if_pos (UInt64.lt_iff_toNat_lt.mpr old)]
    exact iff_of_true rfl (Or.inl old)
  · have notOld : ¬ seq < buffer.nextSeq := by
      rw [UInt64.lt_iff_toNat_lt]
      exact old
    have isNew : buffer.nextSeq.toNat ≤ seq.toNat := Nat.le_of_not_lt old
    have mem_inserted : ∀ held : UInt64,
        held ∈ buffer.window.insert seq pkt ↔
          held = seq ∨ held ∈ buffer.window := by
      intro held
      rw [Std.ExtTreeMap.mem_insert, Std.LawfulEqCmp.compare_eq_iff_eq,
        eq_comm]
    have inserted : Above buffer.nextSeq (buffer.window.insert seq pkt) := by
      intro held member
      rcases (mem_inserted held).mp member with same | before
      · rw [same]
        exact isNew
      · exact above held before
    have grows := grownWindowIn_isSome_iff inserted buffer.maxWindow
    have releases := releaseLoopIn_isSome_iff
      (buffer.window.insert seq pkt).size buffer.nextSeq
      (buffer.window.insert seq pkt) (Nat.le_refl _)
    simp only [mem_inserted, forall_eq_or_imp, not_or] at grows releases
    rw [if_neg notOld]
    simp only [old, false_or]
    rw [← grows, ← releases]
    cases grownWindowIn .checked buffer.nextSeq
        (buffer.window.insert seq pkt) buffer.maxWindow with
    | none => simp
    | some maxWindow =>
        simp only [drainReadyIn, Option.isSome_some, true_and]
        cases releaseLoopIn .checked (buffer.window.insert seq pkt).size
            buffer.nextSeq (buffer.window.insert seq pkt) with
        | none => rfl
        | some result => rfl

/-- A packet pushed into a buffer that operations lead to overflows nothing
exactly when its gap can be scaled and the run that it completes ends before the
largest number.  Then builds with overflow checks and without them do the same. -/
theorem push_without_overflow_iff (start : UInt64)
    (operations : List (Operation T)) (seq : UInt64) (pkt : T) :
    (((Trace.final operate (new start) operations).pushIn .checked seq
        pkt).isSome ↔
      (Trace.final operate (new start) operations).PushFits seq) ∧
    ((Trace.final operate (new start) operations).PushFits seq → ∀ mode,
      (Trace.final operate (new start) operations).pushIn mode seq pkt =
        some ((Trace.final operate (new start) operations).push seq pkt)) := by
  have returns := pushIn_checked_isSome_iff start operations seq pkt
  refine ⟨returns, ?_⟩
  intro fits mode
  obtain ⟨result, pushed⟩ := Option.isSome_iff_exists.mp (returns.mpr fits)
  cases mode with
  | wrapping => exact pushIn_wrapping _ seq pkt
  | checked => rw [pushed, pushIn_eq pushed]

/-- A packet with the largest number aborts the push into a new buffer. -/
theorem largest_number_aborts :
    ¬ ((Trace.final operate (new 0) ([] : List (Operation Char))).pushIn
      .checked 18446744073709551615 'x').isSome := by
  decide +kernel

end ReorderBuffer

end NyxNet.Stream
