import NyxNet.Stream.Receiver

/-!
# Multipath end-to-end delivery

`Sequencer` of `nyx-stream/src/sequencer.rs` numbers the packets of each path
from 0; the receiver starts each path at the number that arrives first.  The
two ends agree exactly when number 0 of every path arrives before its other
packets.
-/

namespace NyxNet.Stream

structure Sequencer where
  counters : Std.ExtTreeMap UInt8 UInt64 compare

namespace Sequencer

def new : Sequencer :=
  { counters := ∅ }

def next (sequencer : Sequencer) (pathId : UInt8) : UInt64 × Sequencer :=
  let counter := sequencer.counters[pathId]?.getD 0
  (counter,
    { counters := sequencer.counters.insert pathId (counter + 1) })

/-- A payload sent on a path gets the next number of the path. -/
def send (sequencer : Sequencer) (sending : UInt8 × Bytes) :
    UInt64 × Sequencer :=
  sequencer.next sending.1

/-- The counter of one path. -/
def count (counter : UInt64) (_payload : Bytes) : UInt64 × UInt64 :=
  (counter, counter + 1)

theorem send_keyed :
    Trace.Keyed count (fun _ => 0)
      (fun sequencer pathId => sequencer.counters[pathId]?) send :=
  Trace.keyed_of_table (fun _ _ _ => rfl) (fun _ _ _ => rfl)

end Sequencer

/-- Everything sent: path, assigned number and payload. -/
def transmitted (sends : List (UInt8 × Bytes)) :
    List (UInt8 × UInt64 × Bytes) :=
  (Trace.history Sequencer.send Sequencer.new sends).map
    (fun sent => (sent.1.1, sent.2, sent.1.2))

/-- The packets of a path on which `payloads` are sent. -/
def numbered (payloads : List Bytes) : List (UInt64 × Bytes) :=
  (Trace.history Sequencer.count 0 payloads).map Prod.swap

theorem inputsOf_transmitted (pathId : UInt8)
    (sends : List (UInt8 × Bytes)) :
    Trace.inputsOf pathId (transmitted sends) =
      numbered (Trace.inputsOf pathId sends) := by
  have component := Sequencer.send_keyed.historyOf_of_absent pathId sends
    Sequencer.new (by simp [Sequencer.new])
  have projected : Trace.inputsOf pathId (transmitted sends) =
      (Trace.historyOf pathId (Trace.history Sequencer.send Sequencer.new
        sends)).map Prod.swap := by
    simp [Trace.inputsOf, Trace.historyOf, transmitted, List.filter_map,
      Function.comp_def]
  rw [projected, component, numbered]
  cases Trace.inputsOf pathId sends with
  | nil => rfl
  | cons first rest => rfl

private theorem getElem?_history_count (counter : UInt64)
    (payloads : List Bytes) (index : Nat) :
    (Trace.history Sequencer.count counter payloads)[index]? =
      payloads[index]?.map
        (fun payload => (payload, counter + UInt64.ofNat index)) := by
  induction payloads generalizing counter index with
  | nil => rfl
  | cons payload payloads ih =>
      cases index with
      | zero => simp [Trace.history, Sequencer.count]
      | succ index =>
          simp only [Trace.history, Sequencer.count,
            List.getElem?_cons_succ, ih, UInt64.add_one_add_ofNat]

/-- Without wrapping, the packet with a number carries the payload at that
position. -/
theorem mem_numbered {payloads : List Bytes}
    (limit : payloads.length ≤ ReorderBuffer.seqLimit) {seq : UInt64}
    {payload : Bytes} :
    (seq, payload) ∈ numbered payloads ↔
      payloads[seq.toNat]? = some payload := by
  rw [numbered, List.mem_map]
  constructor
  · intro facts
    obtain ⟨⟨sent, number⟩, member, equality⟩ := facts
    cases equality
    obtain ⟨index, found⟩ := List.mem_iff_getElem?.mp member
    rw [getElem?_history_count, Option.map_eq_some_iff] at found
    obtain ⟨item, entry, equality⟩ := found
    cases equality
    have bound := (List.getElem?_eq_some_iff.mp entry).1
    have index_eq : (0 + UInt64.ofNat index).toNat = index := by
      rw [UInt64.zero_add]
      unfold ReorderBuffer.seqLimit at limit
      exact UInt64.toNat_ofNat_of_fits (by omega)
    rw [index_eq]
    exact entry
  · intro found
    refine ⟨(payload, seq), ?_, rfl⟩
    apply List.mem_iff_getElem?.mpr
    refine ⟨seq.toNat, ?_⟩
    rw [getElem?_history_count, found]
    simp

/-- A path on which exactly the sent packets arrive, each at least once, and
never more than 8192 of them wait for an earlier one. -/
structure PathArrives (payloads : List Bytes)
    (packets : List (UInt64 × Bytes)) : Prop where
  limit : payloads.length ≤ ReorderBuffer.seqLimit
  genuine : ∀ packet ∈ packets, packet ∈ numbered payloads
  every : ∀ packet ∈ numbered payloads, packet ∈ packets
  few : ReorderBuffer.FewWaiting 0 packets

namespace PathArrives

variable {payloads : List Bytes} {packets : List (UInt64 × Bytes)}

theorem payload_of_arrived (arrives : PathArrives payloads packets)
    {number : Nat} {payload : Bytes}
    (arrived : ReorderBuffer.Arrived packets number payload) :
    payloads[number]? = some payload := by
  obtain ⟨seq, member, rfl⟩ := arrived
  exact (mem_numbered arrives.limit).mp (arrives.genuine _ member)

theorem covers (arrives : PathArrives payloads packets) :
    ReorderBuffer.Covers 0 payloads.length packets := by
  constructor
  · simpa using arrives.limit
  · intro packet member
    have found : payloads[packet.1.toNat]? = some packet.2 :=
      arrives.payload_of_arrived ⟨packet.1, member, rfl⟩
    refine ⟨Nat.zero_le _, ?_⟩
    have bound := (List.getElem?_eq_some_iff.mp found).1
    simpa using bound
  · intro index below
    have limit := arrives.limit
    unfold ReorderBuffer.seqLimit at limit
    have index_eq : (UInt64.ofNat index).toNat = index :=
      UInt64.toNat_ofNat_of_fits (by omega)
    have sent : (UInt64.ofNat index, payloads[index]) ∈ numbered payloads := by
      rw [mem_numbered arrives.limit, index_eq]
      exact List.getElem?_eq_getElem below
    have member := ReorderBuffer.mem_numbers.mpr
      (List.mem_map_of_mem (arrives.every _ sent))
    simpa only [index_eq, UInt64.toNat_zero, Nat.zero_add] using member

theorem delivered_eq (arrives : PathArrives payloads packets) :
    ReorderBuffer.delivered 0 packets = payloads := by
  have all := ReorderBuffer.deliversAll_of_covers 0 payloads.length packets
    arrives.covers arrives.few
  apply all.stream.eq_of_unique all.length
  intro position item arrived
  simpa using arrives.payload_of_arrived arrived

/-- A buffer that starts at a later number cannot hand out all payloads. -/
theorem start_eq_zero (arrives : PathArrives payloads packets)
    {first : UInt64 × Bytes} (member : first ∈ packets)
    (complete : ReorderBuffer.delivered first.1 packets = payloads) :
    first.1 = 0 := by
  have bounds := (arrives.covers).bounds first member
  obtain ⟨-, stream⟩ := ReorderBuffer.inOrderState_received first.1
    (arrives.covers.small first member) packets arrives.covers.small
  rw [complete] at stream
  simp only [UInt64.toNat_zero, Nat.zero_add, Nat.zero_le, true_and] at bounds
  have last := arrives.payload_of_arrived
    (stream (payloads.length - 1) _
      (List.getElem?_eq_getElem (by omega)))
  have lastBound := (List.getElem?_eq_some_iff.mp last).1
  apply UInt64.toNat_inj.mp
  rw [UInt64.toNat_zero]
  omega

end PathArrives

/-- What the receiver hands out for a path, concatenated. -/
def output (pathId : UInt8) (arrivals : List (UInt8 × UInt64 × Bytes)) :
    List Bytes :=
  ((MultipathReceiver.pathHistory pathId arrivals).map Prod.snd).flatten

/-- An arrival order of everything sent: each packet arrives at least once and
nothing else does, and no path ever has more than 8192 packets waiting. -/
structure Arrives (sends : List (UInt8 × Bytes))
    (arrivals : List (UInt8 × UInt64 × Bytes)) : Prop where
  limit : ∀ pathId, (Trace.inputsOf pathId sends).length ≤ 2 ^ 61
  genuine : ∀ packet ∈ arrivals, packet ∈ transmitted sends
  every : ∀ packet ∈ transmitted sends, packet ∈ arrivals
  few : ∀ pathId,
    ReorderBuffer.FewWaiting 0 (Trace.inputsOf pathId arrivals)

theorem Arrives.path {sends : List (UInt8 × Bytes)}
    {arrivals : List (UInt8 × UInt64 × Bytes)}
    (arrives : Arrives sends arrivals) (pathId : UInt8) :
    PathArrives (Trace.inputsOf pathId sends)
      (Trace.inputsOf pathId arrivals) := by
  constructor
  · exact arrives.limit pathId
  · intro packet member
    rw [← inputsOf_transmitted, Trace.mem_inputsOf]
    exact arrives.genuine _ (Trace.mem_inputsOf.mp member)
  · intro packet member
    rw [← inputsOf_transmitted, Trace.mem_inputsOf] at member
    exact Trace.mem_inputsOf.mpr (arrives.every _ member)
  · exact arrives.few pathId

theorem output_of_cons {pathId : UInt8}
    {arrivals : List (UInt8 × UInt64 × Bytes)} {first : UInt64 × Bytes}
    {rest : List (UInt64 × Bytes)}
    (onPath : Trace.inputsOf pathId arrivals = first :: rest) :
    output pathId arrivals =
      ReorderBuffer.delivered first.1 (Trace.inputsOf pathId arrivals) := by
  rw [output, MultipathReceiver.pathHistory_eq_standalone, onPath]
  rfl

theorem output_of_nil {pathId : UInt8}
    {arrivals : List (UInt8 × UInt64 × Bytes)}
    (onPath : Trace.inputsOf pathId arrivals = []) :
    output pathId arrivals = [] := by
  rw [output, MultipathReceiver.pathHistory_eq_standalone, onPath]
  rfl

/-- Every path delivers exactly what was sent on it. -/
def DeliversEndToEnd (sends : List (UInt8 × Bytes))
    (arrivals : List (UInt8 × UInt64 × Bytes)) : Prop :=
  ∀ pathId, output pathId arrivals = Trace.inputsOf pathId sends

theorem multipath_delivers_iff (sends : List (UInt8 × Bytes))
    (arrivals : List (UInt8 × UInt64 × Bytes))
    (arrives : Arrives sends arrivals) :
    DeliversEndToEnd sends arrivals ↔
      ∀ pathId, ∀ first ∈ (Trace.inputsOf pathId arrivals).head?,
        first.1 = 0 := by
  constructor
  · intro delivers pathId first isFirst
    obtain ⟨rest, onPath⟩ := List.head?_eq_some_iff.mp isFirst
    have complete := delivers pathId
    rw [output_of_cons onPath] at complete
    apply (arrives.path pathId).start_eq_zero _ complete
    rw [onPath]
    exact List.mem_cons_self
  · intro startsAtZero pathId
    have path := arrives.path pathId
    cases onPath : Trace.inputsOf pathId arrivals with
    | nil =>
        rw [output_of_nil onPath, ← path.delivered_eq, onPath]
        rfl
    | cons first rest =>
        have zero := startsAtZero pathId first (by rw [onPath]; rfl)
        rw [output_of_cons onPath, zero]
        exact path.delivered_eq

/-- Short runs meet both bounds. -/
theorem arrives_of_short {sends : List (UInt8 × Bytes)}
    {arrivals : List (UInt8 × UInt64 × Bytes)}
    (fewSends : sends.length ≤ 8192) (fewArrivals : arrivals.length ≤ 8192)
    (genuine : ∀ packet ∈ arrivals, packet ∈ transmitted sends)
    (every : ∀ packet ∈ transmitted sends, packet ∈ arrivals) :
    Arrives sends arrivals := by
  refine ⟨?_, genuine, every, ?_⟩
  · intro pathId
    have short := Trace.length_inputsOf_le pathId sends
    omega
  · intro pathId
    apply ReorderBuffer.fewWaiting_of_length_le
    exact Nat.le_trans (Trace.length_inputsOf_le pathId arrivals) fewArrivals

theorem multipath_delivers_iff_sample :
    DeliversEndToEnd [(1, [10]), (2, [20]), (1, [11]), (1, [12])]
      [(2, 0, [20]), (1, 0, [10]), (1, 2, [12]), (1, 1, [11])] := by
  apply (multipath_delivers_iff _ _ _).mpr
  · intro pathId first isFirst
    by_cases one : pathId = 1
    · subst pathId
      cases isFirst
      rfl
    · by_cases two : pathId = 2
      · subst pathId
        cases isFirst
        rfl
      · simp [Trace.inputsOf, Ne.symm one, Ne.symm two] at isFirst
  · exact arrives_of_short (by decide) (by decide) (by decide) (by decide)

/-- On path 1 number 1 arrives before number 0, which is then dropped. -/
theorem multipath_first_arrival_drops :
    Arrives [(1, [0]), (1, [1])] [(1, 1, [1]), (1, 0, [0])] ∧
      output 1 [(1, 1, [1]), (1, 0, [0])] = [[1]] ∧
      ¬ DeliversEndToEnd [(1, [0]), (1, [1])]
        [(1, 1, [1]), (1, 0, [0])] := by
  refine ⟨arrives_of_short (by decide) (by decide) (by decide) (by decide),
    by decide, ?_⟩
  intro delivers
  have onPath := delivers 1
  revert onPath
  decide

end NyxNet.Stream
