import Mathlib.Algebra.Order.Field.Rat
import Mathlib.Tactic.FieldSimp
import Mathlib.Tactic.Linarith
import Mathlib.Tactic.NormNum
import Mathlib.Tactic.Positivity
import Mathlib.Tactic.Ring
import NyxNet.Lib.Trace

/-!
# BBR-like congestion control

`CongestionCtrl` of `congestion.rs`, in exact arithmetic.  Its window is
documented, and read by `available_window`, as a number of packets, but the
target it moves to is a number of bytes.  The samples themselves and the
pacing rate are kept by the code and never read.
-/

namespace NyxNet.Bbr

def gainCycle : Vector ℚ 8 :=
  #v[5/4, 6/5, 23/20, 11/10, 1, 9/10, 17/20, 4/5]

inductive Mode where
  | startup
  | drain
  | probeBw
  deriving DecidableEq, Repr

structure CongestionCtrl where
  cwnd : ℚ
  /-- `none` is `Duration::MAX`. -/
  minRtt : Option ℚ
  bwEst : ℚ
  cycleIndex : Fin 8
  inflight : Nat
  mode : Mode
  fullBw : ℚ
  fullBwCnt : Nat
  deriving DecidableEq, Repr

namespace CongestionCtrl

def new : CongestionCtrl :=
  { cwnd := 10
    minRtt := none
    bwEst := 0
    cycleIndex := 0
    inflight := 0
    mode := .startup
    fullBw := 0
    fullBwCnt := 0 }

/-- Called when a packet is sent. -/
def onSend (ctrl : CongestionCtrl) (bytes : Nat) : CongestionCtrl :=
  { ctrl with inflight := ctrl.inflight + bytes }

/-- The minimum after a sample; an aged minimum is replaced by any sample. -/
def nextMinRtt (minRtt : Option ℚ) (rtt : ℚ) (aged : Bool) : ℚ :=
  match minRtt with
  | none => rtt
  | some least => if rtt < least ∨ aged then rtt else least

/-- The mode transitions of `on_ack`. -/
def changeMode (ctrl : CongestionCtrl) : CongestionCtrl :=
  match ctrl.mode with
  | .startup =>
      if ctrl.bwEst ≥ ctrl.fullBw * (5/4) then
        { ctrl with fullBw := ctrl.bwEst, fullBwCnt := 0 }
      else
        { ctrl with
          fullBwCnt := ctrl.fullBwCnt + 1
          mode := if ctrl.fullBwCnt + 1 ≥ 3 then .drain else .startup }
  | .drain =>
      if (ctrl.inflight : ℚ) ≤ ctrl.cwnd then
        { ctrl with mode := .probeBw, cycleIndex := 0 }
      else ctrl
  | .probeBw => ctrl

/-- The gain of the current mode; probing moves on in its cycle. -/
def takeGain (ctrl : CongestionCtrl) : ℚ × CongestionCtrl :=
  match ctrl.mode with
  | .startup => (2, ctrl)
  | .drain => (7/10, ctrl)
  | .probeBw =>
      (gainCycle[ctrl.cycleIndex],
        { ctrl with cycleIndex := ctrl.cycleIndex + 1 })

/-- The measurements of an acknowledgement: bytes in flight, the minimal RTT
and the bandwidth. -/
def takeMeasurements (ctrl : CongestionCtrl) (bytes : Nat) (rtt : ℚ) (aged : Bool) :
    CongestionCtrl :=
  let deliveryRate := bytes / rtt
  { ctrl with
    inflight := ctrl.inflight - bytes
    minRtt := some (nextMinRtt ctrl.minRtt rtt aged)
    bwEst := 9/10 * ctrl.bwEst + 1/10 * deliveryRate }

/-- Called when an ACK is received with an RTT sample in seconds; `aged` says
that the minimal RTT is more than ten seconds old. -/
def onAck (ctrl : CongestionCtrl) (bytes : Nat) (rtt : ℚ) (aged : Bool) :
    CongestionCtrl :=
  let minRtt := nextMinRtt ctrl.minRtt rtt aged
  let (gain, ctrl) := (ctrl.takeMeasurements bytes rtt aged).changeMode.takeGain
  let target := max (ctrl.bwEst * minRtt * gain) (1280 * 4)
  { ctrl with cwnd := 9/10 * ctrl.cwnd + 1/10 * target }

/-- `available_window`: the packets that may still be sent. -/
def availableWindow (ctrl : CongestionCtrl) : ℚ :=
  ctrl.cwnd - ctrl.inflight / 1280

end CongestionCtrl

open CongestionCtrl

/-- A call on the controller. -/
inductive Call where
  | send (bytes : Nat)
  | ack (bytes : Nat) (rtt : ℚ) (aged : Bool)
  deriving DecidableEq, Repr

def Call.isAck : Call → Bool
  | .send _ => false
  | .ack _ _ _ => true

def call (ctrl : CongestionCtrl) : Call → Unit × CongestionCtrl
  | .send bytes => ((), ctrl.onSend bytes)
  | .ack bytes rtt aged => ((), ctrl.onAck bytes rtt aged)

variable {ctrl : CongestionCtrl}

/-- Changing the mode leaves the estimates and the window alone. -/
theorem changeMode_frame (ctrl : CongestionCtrl) :
    ctrl.changeMode.cwnd = ctrl.cwnd ∧ ctrl.changeMode.bwEst = ctrl.bwEst ∧
      ctrl.changeMode.minRtt = ctrl.minRtt ∧
      ctrl.changeMode.inflight = ctrl.inflight := by
  unfold changeMode
  split
  · split
    · exact ⟨rfl, rfl, rfl, rfl⟩
    · exact ⟨rfl, rfl, rfl, rfl⟩
  · split
    · exact ⟨rfl, rfl, rfl, rfl⟩
    · exact ⟨rfl, rfl, rfl, rfl⟩
  · exact ⟨rfl, rfl, rfl, rfl⟩

theorem takeGain_frame (ctrl : CongestionCtrl) :
    ctrl.takeGain.2.cwnd = ctrl.cwnd ∧ ctrl.takeGain.2.bwEst = ctrl.bwEst ∧
      ctrl.takeGain.2.minRtt = ctrl.minRtt ∧
      ctrl.takeGain.2.inflight = ctrl.inflight ∧
      ctrl.takeGain.2.mode = ctrl.mode := by
  unfold takeGain
  split
  · exact ⟨rfl, rfl, rfl, rfl, rfl⟩
  · exact ⟨rfl, rfl, rfl, rfl, rfl⟩
  · exact ⟨rfl, rfl, rfl, rfl, rfl⟩

theorem gainCycle_bounds (index : Fin 8) :
    0 ≤ gainCycle[index] ∧ gainCycle[index] ≤ 2 := by
  revert index
  decide +kernel

theorem takeGain_bounds (ctrl : CongestionCtrl) :
    0 ≤ ctrl.takeGain.1 ∧ ctrl.takeGain.1 ≤ 2 := by
  unfold takeGain
  split
  · norm_num
  · norm_num
  · exact gainCycle_bounds ctrl.cycleIndex

/-- What an acknowledgement measures outlasts the change of mode. -/
theorem onAck_measures (ctrl : CongestionCtrl) (bytes : Nat) (rtt : ℚ)
    (aged : Bool) :
    (ctrl.onAck bytes rtt aged).minRtt =
        some (nextMinRtt ctrl.minRtt rtt aged) ∧
      (ctrl.onAck bytes rtt aged).bwEst =
        9/10 * ctrl.bwEst + 1/10 * (bytes / rtt) ∧
      (ctrl.onAck bytes rtt aged).inflight = ctrl.inflight - bytes := by
  obtain ⟨_, modeBw, modeRtt, modeInflight⟩ :=
    changeMode_frame (ctrl.takeMeasurements bytes rtt aged)
  obtain ⟨_, gainBw, gainRtt, gainInflight, _⟩ :=
    takeGain_frame (ctrl.takeMeasurements bytes rtt aged).changeMode
  exact ⟨gainRtt.trans modeRtt, gainBw.trans modeBw,
    gainInflight.trans modeInflight⟩

/-- The gain that an acknowledgement applies. -/
def gainAt (ctrl : CongestionCtrl) (bytes : Nat) (rtt : ℚ) (aged : Bool) : ℚ :=
  (ctrl.takeMeasurements bytes rtt aged).changeMode.takeGain.1

/-- The window moves by a tenth to its target. -/
theorem onAck_window (ctrl : CongestionCtrl) (bytes : Nat) (rtt : ℚ)
    (aged : Bool) :
    (ctrl.onAck bytes rtt aged).cwnd =
      9/10 * ctrl.cwnd + 1/10 * max
        ((9/10 * ctrl.bwEst + 1/10 * (bytes / rtt)) *
          nextMinRtt ctrl.minRtt rtt aged * gainAt ctrl bytes rtt aged)
        (1280 * 4) := by
  obtain ⟨modeCwnd, modeBw, _⟩ :=
    changeMode_frame (ctrl.takeMeasurements bytes rtt aged)
  obtain ⟨gainCwnd, gainBw, _⟩ :=
    takeGain_frame (ctrl.takeMeasurements bytes rtt aged).changeMode
  unfold onAck
  simp only
  rw [gainCwnd, modeCwnd, gainBw, modeBw]
  rfl

/-- The window stays where it starts or above. -/
theorem ten_le_cwnd (calls : List Call) :
    10 ≤ (Trace.final call new calls).cwnd := by
  have kept : ∀ ctrl next, 10 ≤ ctrl.cwnd → 10 ≤ (call ctrl next).2.cwnd := by
    intro ctrl next large
    cases next with
    | send bytes => exact large
    | ack bytes rtt aged =>
        have target := le_max_right ((9/10 * ctrl.bwEst + 1/10 * (bytes / rtt)) *
          nextMinRtt ctrl.minRtt rtt aged * gainAt ctrl bytes rtt aged)
            (1280 * 4)
        show 10 ≤ (ctrl.onAck bytes rtt aged).cwnd
        rw [onAck_window]
        linarith
  exact Trace.final_invariant kept calls (le_refl _)

/-- The samples of a call lie in `(0, R]` and its delivery rate is at
most `B`. -/
def Within (bandwidth longest : ℚ) : Call → Prop
  | .send _ => True
  | .ack bytes rtt _ =>
      0 < rtt ∧ rtt ≤ longest ∧ bytes / rtt ≤ bandwidth

/-- The estimates stay within the samples, and the window within the product
of their bounds, in bytes. -/
structure Tracked (bandwidth longest : ℚ) (ctrl : CongestionCtrl) : Prop where
  bwNonneg : 0 ≤ ctrl.bwEst
  bwBound : ctrl.bwEst ≤ max 0 bandwidth
  rttBound : ∀ least, ctrl.minRtt = some least → 0 < least ∧ least ≤ longest
  cwndBound : ctrl.cwnd ≤ max 10 (max (1280 * 4) (2 * bandwidth * longest))

theorem nextMinRtt_bounds {longest rtt : ℚ} (aged : Bool)
    {minRtt : Option ℚ}
    (known : ∀ least, minRtt = some least → 0 < least ∧ least ≤ longest)
    (positive : 0 < rtt) (within : rtt ≤ longest) :
    0 < nextMinRtt minRtt rtt aged ∧ nextMinRtt minRtt rtt aged ≤ longest := by
  unfold nextMinRtt
  cases minRtt with
  | none => exact ⟨positive, within⟩
  | some least =>
      simp only
      split
      · exact ⟨positive, within⟩
      · exact known least rfl

theorem average_le {window target bound : ℚ} (windowLe : window ≤ bound)
    (targetLe : target ≤ bound) : 9/10 * window + 1/10 * target ≤ bound := by
  linarith

theorem product_le {estimate least gain bandwidth longest : ℚ}
    (slow : estimate ≤ bandwidth) (bandwidthNonneg : 0 ≤ bandwidth)
    (leastNonneg : 0 ≤ least) (short : least ≤ longest)
    (gainNonneg : 0 ≤ gain) (gainAtMost : gain ≤ 2) :
    estimate * least * gain ≤ 2 * bandwidth * longest := by
  have inner : estimate * least ≤ bandwidth * longest :=
    mul_le_mul slow short leastNonneg bandwidthNonneg
  have longestNonneg : 0 ≤ longest := le_trans leastNonneg short
  calc estimate * least * gain
      ≤ bandwidth * longest * 2 :=
        mul_le_mul inner gainAtMost gainNonneg
          (mul_nonneg bandwidthNonneg longestNonneg)
    _ = 2 * bandwidth * longest := by ring

theorem Tracked.call {bandwidth longest : ℚ} {next : Call}
    (tracked : Tracked bandwidth longest ctrl)
    (within : Within bandwidth longest next) :
    Tracked bandwidth longest (Bbr.call ctrl next).2 := by
  cases next with
  | send bytes =>
      exact ⟨tracked.bwNonneg, tracked.bwBound, tracked.rttBound,
        tracked.cwndBound⟩
  | ack bytes rtt aged =>
      obtain ⟨positive, short, slow⟩ := within
      obtain ⟨isMinRtt, isBwEst, _⟩ := onAck_measures ctrl bytes rtt aged
      obtain ⟨gainNonneg, gainAtMost⟩ :=
        takeGain_bounds (ctrl.takeMeasurements bytes rtt aged).changeMode
      have rateNonneg : (0 : ℚ) ≤ bytes / rtt := by positivity
      have bandwidthNonneg : 0 ≤ bandwidth := le_trans rateNonneg slow
      have isBandwidth : max 0 bandwidth = bandwidth :=
        max_eq_right bandwidthNonneg
      have estimate := tracked.bwBound
      have estimateNonneg := tracked.bwNonneg
      rw [isBandwidth] at estimate
      obtain ⟨leastPositive, leastShort⟩ :=
        nextMinRtt_bounds aged tracked.rttBound positive short
      refine ⟨?_, ?_, ?_, ?_⟩
      · show 0 ≤ (ctrl.onAck bytes rtt aged).bwEst
        rw [isBwEst]
        linarith
      · show (ctrl.onAck bytes rtt aged).bwEst ≤ _
        rw [isBwEst, isBandwidth]
        linarith
      · intro least isLeast
        have same := isMinRtt.symm.trans isLeast
        rw [← Option.some.inj same]
        exact ⟨leastPositive, leastShort⟩
      · show (ctrl.onAck bytes rtt aged).cwnd ≤ _
        rw [onAck_window]
        have product := product_le
          (show 9/10 * ctrl.bwEst + 1/10 * (bytes / rtt) ≤ bandwidth by
            linarith)
          bandwidthNonneg (le_of_lt leastPositive) leastShort gainNonneg
          gainAtMost
        have target : max ((9/10 * ctrl.bwEst + 1/10 * (bytes / rtt)) *
            nextMinRtt ctrl.minRtt rtt aged * gainAt ctrl bytes rtt aged)
              (1280 * 4) ≤
              max 10 (max (1280 * 4) (2 * bandwidth * longest)) := by
          refine max_le ?_ ?_
          · exact le_max_of_le_right (le_max_of_le_right product)
          · exact le_max_of_le_right (le_max_left _ _)
        exact average_le tracked.cwndBound target

/-- Read as bytes, the window obeys twice the bandwidth-delay product. -/
theorem cwnd_le_bytes {bandwidth longest : ℚ} (calls : List Call)
    (within : ∀ next ∈ calls, Within bandwidth longest next) :
    (Trace.final call new calls).cwnd ≤
      max 10 (max (1280 * 4) (2 * bandwidth * longest)) := by
  have start : Tracked bandwidth longest new := by
    refine ⟨le_refl _, le_max_left _ _, ?_, le_max_left _ _⟩
    intro least isLeast
    cases isLeast
  exact (Trace.final_invariant_on (Within bandwidth longest)
    (fun ctrl next admitted tracked => tracked.call admitted)
    calls within start).cwndBound

/-- The bytes in flight that end the drain phase fit the window, read as
packets of 1280 bytes. -/
def DrainsToWindow (before after : CongestionCtrl) : Prop :=
  before.mode = .drain → after.mode ≠ .drain →
    (after.inflight : ℚ) ≤ before.cwnd * 1280

theorem changeMode_drains {ctrl : CongestionCtrl}
    (draining : ctrl.mode = .drain) (left : ctrl.changeMode.mode ≠ .drain) :
    (ctrl.inflight : ℚ) ≤ ctrl.cwnd := by
  unfold changeMode at left
  rw [draining] at left
  simp only at left
  split at left
  · assumption
  · exact absurd draining left

theorem call_drainsToWindow (large : 10 ≤ ctrl.cwnd) (next : Call) :
    DrainsToWindow ctrl (call ctrl next).2 := by
  intro draining left
  cases next with
  | send bytes => exact absurd draining left
  | ack bytes rtt aged =>
      obtain ⟨_, _, isInflight⟩ := onAck_measures ctrl bytes rtt aged
      have changed :
          (ctrl.takeMeasurements bytes rtt aged).changeMode.mode ≠ .drain := by
        rw [← (takeGain_frame _).2.2.2.2]
        exact left
      have stillDraining : (ctrl.takeMeasurements bytes rtt aged).mode = .drain :=
        draining
      have emptied : ((ctrl.inflight - bytes : Nat) : ℚ) ≤ ctrl.cwnd :=
        changeMode_drains stillDraining changed
      show ((ctrl.onAck bytes rtt aged).inflight : ℚ) ≤ _
      rw [isInflight]
      linarith

/-- Packets that are sent change nothing but the bytes in flight. -/
theorem final_of_sends {calls : List Call}
    (sends : ∀ next ∈ calls, next.isAck = false) :
    ∃ inflight, Trace.final call new calls =
      { CongestionCtrl.new with inflight := inflight } := by
  induction calls using List.reverseRecOn with
  | nil => exact ⟨0, rfl⟩
  | append_singleton calls next ih =>
      obtain ⟨inflight, isFresh⟩ := ih (fun earlier member =>
        sends earlier (List.mem_append_left _ member))
      have isSend := sends next (List.mem_append_right _ List.mem_cons_self)
      cases next with
      | ack bytes rtt aged => cases isSend
      | send bytes =>
          rw [Trace.final_append, isFresh]
          exact ⟨inflight + bytes, rfl⟩

/-- A growing estimate keeps the controller in its first phase. -/
theorem changeMode_rising (starting : ctrl.mode = .startup)
    (rising : ctrl.bwEst ≥ ctrl.fullBw * (5/4)) :
    ctrl.changeMode.mode = .startup := by
  unfold changeMode
  rw [starting]
  simp only
  rw [if_pos rising]

theorem takeGain_startup (starting : ctrl.mode = .startup) :
    ctrl.takeGain.1 = 2 := by
  unfold takeGain
  rw [starting]

/-- The first acknowledgement already moves the window by a tenth of the
target, a number of bytes. -/
theorem first_ack_window (bytes inflight : Nat) {rtt : ℚ} (aged : Bool)
    (positive : 0 < rtt) :
    (onAck { CongestionCtrl.new with inflight := inflight }
        bytes rtt aged).cwnd =
      9 + 1/10 * max (1/5 * (bytes : ℚ)) (1280 * 4) := by
  have rateNonneg : (0 : ℚ) ≤ bytes / rtt := by positivity
  have rising : (9/10 * 0 + 1/10 * (bytes / rtt) : ℚ) ≥ 0 * (5/4) := by
    linarith
  have delivered : (9/10 * 0 + 1/10 * (bytes / rtt)) * rtt * 2 =
      1/5 * (bytes : ℚ) := by
    field_simp
    ring
  have starting : gainAt { CongestionCtrl.new with inflight := inflight }
      bytes rtt aged = 2 := by
    exact takeGain_startup (changeMode_rising rfl rising)
  rw [onAck_window, starting]
  simp only [new, nextMinRtt, delivered]
  norm_num

/-- After the first acknowledgement the window exceeds every bound that its
own sample gives. -/
theorem packets_lt_first_ack_window (bytes : Nat) :
    max 10 (max 4 (2 * (bytes : ℚ) / 1280)) <
      9 + 1/10 * max (1/5 * (bytes : ℚ)) (1280 * 4) := by
  have fromBytes := le_max_left (1/5 * (bytes : ℚ)) (1280 * 4)
  have atLeast := le_max_right (1/5 * (bytes : ℚ)) (1280 * 4)
  have nonneg : (0 : ℚ) ≤ bytes := Nat.cast_nonneg bytes
  refine max_lt ?_ (max_lt ?_ ?_)
  · linarith
  · linarith
  · linarith

/-- The first acknowledgement of a run, with the packets sent before it. -/
theorem exists_first_ack {calls : List Call} {next : Call}
    (member : next ∈ calls) (isAck : next.isAck = true) :
    ∃ before bytes rtt aged, before ++ [.ack bytes rtt aged] <+: calls ∧
      ∀ earlier ∈ before, earlier.isAck = false := by
  obtain ⟨first, found⟩ : ∃ first, calls.find? Call.isAck = some first := by
    rw [← Option.isSome_iff_exists, List.find?_isSome]
    exact ⟨next, member, isAck⟩
  obtain ⟨firstAck, before, after, split, sends⟩ :=
    List.find?_eq_some_iff_append.mp found
  cases first with
  | send bytes => cases firstAck
  | ack bytes rtt aged =>
      refine ⟨before, bytes, rtt, aged, ?_, ?_⟩
      · rw [split]
        exact ⟨after, by rw [List.append_assoc]; rfl⟩
      · intro earlier inBefore
        simpa using sends earlier inBefore

theorem packets_lt_window_of_first_ack {before : List Call}
    (onlySends : ∀ earlier ∈ before, earlier.isAck = false) {bytes : Nat}
    {rtt : ℚ} (aged : Bool) (positive : 0 < rtt) :
    max 10 (max 4 (2 * (bytes / rtt) * rtt / 1280)) <
      (Trace.final call new (before ++ [.ack bytes rtt aged])).cwnd := by
  obtain ⟨inflight, isFresh⟩ := final_of_sends onlySends
  have cancelled : 2 * (bytes / rtt) * rtt / 1280 =
      2 * (bytes : ℚ) / 1280 := by
    field_simp
  rw [Trace.final_append, isFresh, cancelled]
  exact lt_of_lt_of_eq (packets_lt_first_ack_window bytes)
    (first_ack_window bytes inflight aged positive).symm

/-- The window obeys, as a number of packets, the bounds that the samples so
far give exactly as long as no acknowledgement has arrived.  The drain phase
never ends too early. -/
theorem window_in_packets_iff (calls : List Call)
    (positive : ∀ bytes rtt aged, .ack bytes rtt aged ∈ calls → 0 < rtt) :
    ((∀ before, before <+: calls → ∀ bandwidth longest,
        (∀ next ∈ before, Within bandwidth longest next) →
          (Trace.final call new before).cwnd ≤
            max 10 (max 4 (2 * bandwidth * longest / 1280))) ∧
      ∀ before next, before ++ [next] <+: calls →
        DrainsToWindow (Trace.final call new before)
          (Trace.final call new (before ++ [next]))) ↔
      ∀ next ∈ calls, next.isAck = false := by
  constructor
  · intro disciplined next member
    by_contra isAck
    obtain ⟨before, bytes, rtt, aged, isPrefix, onlySends⟩ :=
      exists_first_ack member (by simpa using isAck)
    have rttPositive : 0 < rtt := positive bytes rtt aged
      (isPrefix.subset (List.mem_append_right _ List.mem_cons_self))
    refine absurd (disciplined.1 _ isPrefix (bytes / rtt) rtt ?_)
      (not_le_of_gt (packets_lt_window_of_first_ack onlySends aged rttPositive))
    intro earlier inPrefix
    rcases List.mem_append.mp inPrefix with inBefore | isLast
    · cases earlier with
      | send _ => trivial
      | ack _ _ _ => cases onlySends _ inBefore
    · rw [List.mem_singleton.mp isLast]
      exact ⟨rttPositive, le_refl _, le_refl _⟩
  · intro sends
    refine ⟨?_, ?_⟩
    · intro before isPrefix bandwidth longest _
      obtain ⟨inflight, isFresh⟩ := final_of_sends (fun next member =>
        sends next (isPrefix.subset member))
      rw [isFresh]
      exact le_max_left _ _
    · intro before next isPrefix
      rw [Trace.final_append]
      exact call_drainsToWindow (ten_le_cwnd before) next

theorem window_in_packets_before_ack :
    (Trace.final call new [.send 1280]).cwnd ≤
      max 10 (max 4 (2 * 12800 * (1/10) / 1280)) :=
  ((window_in_packets_iff [.send 1280] (by simp)).mpr
    (by simp [Call.isAck])).1 _ (List.prefix_refl _) 12800 (1/10)
      (by simp [Within])

/-- One packet, acknowledged after a tenth of a second: the window is 521
packets where the sample accounts for ten. -/
theorem window_exceeds_packets :
    (∀ next ∈ [.send 1280, Call.ack 1280 (1/10) false],
      Within 12800 (1/10) next) ∧
      ¬ (Trace.final call new
          [.send 1280, .ack 1280 (1/10) false]).cwnd ≤
        max 10 (max 4 (2 * 12800 * (1/10) / 1280)) := by
  refine ⟨?_, ?_⟩
  · intro next member
    rcases List.mem_cons.mp member with isSend | later
    · rw [isSend]
      trivial
    · rw [List.mem_singleton.mp later]
      norm_num [Within]
  · decide +kernel

end NyxNet.Bbr
