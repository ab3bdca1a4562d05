import Mathlib.Data.List.Perm.Subperm
import NyxNet.Lib.Bytes
import NyxNet.Lib.Word

/-!
# The RaptorQ codec

`RaptorQCodec` of `nyx-fec/src/raptorq.rs` puts a packet with the length of the
data in front of the packets of the fountain code, and `decode` looks for it
there.  The `raptorq` crate is the parameter `RaptorQ`; the number of repair
packets is computed in `f32` and enters as a function of the transfer length.
-/

namespace NyxNet.Fec

/-- One Nyx packet equals one RaptorQ symbol (bytes). -/
def symbolSize : Nat := 1280

/-- Block number and 24-bit symbol id of a packet. -/
structure PayloadId where
  sourceBlockNumber : UInt8
  encodingSymbolId : Fin (2 ^ 24)
  deriving DecidableEq, Repr

structure EncodingPacket where
  payloadId : PayloadId
  data : Bytes
  deriving DecidableEq, Repr

/-- The `raptorq` crate with symbols of `SYMBOL_SIZE` bytes; `σ` is the state of
a `Decoder`.  `none` is an abort of the call. -/
structure RaptorQ (σ : Type) where
  /-- `Encoder::with_defaults(data, ..).get_encoded_packets(count)` -/
  encodedPackets : Bytes → UInt32 → List EncodingPacket
  /-- `Decoder::new` for a transfer length -/
  newDecoder : UInt64 → Option σ
  /-- `Decoder::decode`: the data once they are complete, and the next state -/
  decode : σ → EncodingPacket → Option (Option Bytes × σ)

/-- The codec, by the number of repair packets it asks for. -/
structure RaptorQCodec where
  repairCntEst : Nat → UInt32

namespace EncodingPacket

/-- The payload id that `encode` reserves for the length. -/
def isSentinel (packet : EncodingPacket) : Bool :=
  packet.payloadId.sourceBlockNumber == 0xFF &&
    packet.payloadId.encodingSymbolId == 0xFFFFFF

/-- The packet with the length of the data. -/
def sentinel (data : Bytes) : EncodingPacket :=
  { payloadId := { sourceBlockNumber := 0xFF, encodingSymbolId := 0xFFFFFF }
    data := (Bytes.beBytes 8 data.length).toList }

@[simp] theorem isSentinel_sentinel (data : Bytes) :
    (sentinel data).isSentinel = true := by
  simp [isSentinel, sentinel]

end EncodingPacket

open EncodingPacket

variable {σ : Type}

namespace RaptorQ

/-- Hands packets to a decoder until it has the data. -/
def feed (crate : RaptorQ σ) :
    σ → List EncodingPacket → Outcome Empty (Option Bytes)
  | _, [] => .returned none
  | decoder, packet :: rest =>
      match crate.decode decoder packet with
      | none => .panicked
      | some (some data, _) => .returned (some data)
      | some (none, decoder) => feed crate decoder rest

/-- The packets that the decoder was handed. -/
def fed (crate : RaptorQ σ) : σ → List EncodingPacket → List EncodingPacket
  | _, [] => []
  | decoder, packet :: rest =>
      match crate.decode decoder packet with
      | some (none, decoder) => packet :: fed crate decoder rest
      | _ => [packet]

/-- A decoder configured with a transfer length is handed the packets. -/
def run (crate : RaptorQ σ) (length : UInt64)
    (packets : List EncodingPacket) : Outcome Empty (Option Bytes) :=
  match crate.newDecoder length with
  | none => .panicked
  | some decoder => crate.feed decoder packets

def fedBy (crate : RaptorQ σ) (length : UInt64)
    (packets : List EncodingPacket) : List EncodingPacket :=
  match crate.newDecoder length with
  | none => []
  | some decoder => crate.fed decoder packets

/-- With the true length, the packets of the data decode to the same in every
order. -/
def OrderFree (crate : RaptorQ σ) (data : Bytes) (count : UInt32) : Prop :=
  ∀ left right : List EncodingPacket, left.Perm right →
    left.Subperm (crate.encodedPackets data count) →
      crate.run (UInt64.ofNat data.length) left =
        crate.run (UInt64.ofNat data.length) right

/-- The encoder leaves the reserved payload id alone. -/
def SparesSentinel (crate : RaptorQ σ) (data : Bytes) (count : UInt32) : Prop :=
  ∀ packet ∈ crate.encodedPackets data count, packet.isSentinel = false

end RaptorQ

namespace RaptorQCodec

/-- `encode`: the sentinel in front of the source and repair packets. -/
def encode (codec : RaptorQCodec) (crate : RaptorQ σ) (data : Bytes) :
    List EncodingPacket :=
  sentinel data ::
    crate.encodedPackets data (codec.repairCntEst data.length)

/-- The length for the decoder and the packets it is to be handed.  Without a
sentinel in front the length is estimated from the highest symbol id.  `none`
is the abort of `copy_from_slice` on a sentinel that has not eight bytes. -/
def origLenAndRemaining (first : EncodingPacket) (rest : List EncodingPacket) :
    Option (UInt64 × List EncodingPacket) :=
  if first.isSentinel then
    if first.data.length = 8 then
      some (UInt64.ofNat (Bytes.ofBeBytes first.data), rest)
    else none
  else
    let maxEsi := ((first :: rest).map fun packet =>
      packet.payloadId.encodingSymbolId.val).max?.getD 0
    some (UInt64.ofNat (maxEsi + 1) * UInt64.ofNat symbolSize, first :: rest)

/-- `decode`. -/
def decode (crate : RaptorQ σ) :
    List EncodingPacket → Outcome Empty (Option Bytes)
  | [] => .returned none
  | first :: rest =>
      match origLenAndRemaining first rest with
      | none => .panicked
      | some (origLen, remaining) =>
          match crate.run origLen remaining with
          | .returned (some data) =>
              .returned (some (data.take origLen.toNat))
          | other => other

/-- The transfer length that `decode` configures its decoder with. -/
def configuredLength : List EncodingPacket → Option UInt64
  | [] => none
  | first :: rest => (origLenAndRemaining first rest).map Prod.fst

/-- The packets that `decode` hands to its decoder. -/
def fedPackets (crate : RaptorQ σ) :
    List EncodingPacket → List EncodingPacket
  | [] => []
  | first :: rest =>
      match origLenAndRemaining first rest with
      | none => []
      | some (origLen, remaining) => crate.fedBy origLen remaining

end RaptorQCodec

namespace RaptorQ

variable {crate : RaptorQ σ}

theorem fed_subset {decoder : σ} {packets : List EncodingPacket} :
    crate.fed decoder packets ⊆ packets := by
  induction packets generalizing decoder with
  | nil => simp [fed]
  | cons packet rest ih =>
      rw [fed]
      split
      · exact List.cons_subset_cons _ ih
      · simp

theorem fedBy_subset {length : UInt64} {packets : List EncodingPacket} :
    crate.fedBy length packets ⊆ packets := by
  rw [fedBy]
  split
  · simp
  · exact fed_subset

/-- A loop that has ended looks at nothing behind. -/
theorem feed_append_of_ended {decoder : σ} {front : List EncodingPacket}
    (ended : crate.feed decoder front ≠ .returned none)
    (back : List EncodingPacket) :
    crate.feed decoder (front ++ back) = crate.feed decoder front ∧
      crate.fed decoder (front ++ back) = crate.fed decoder front := by
  induction front generalizing decoder with
  | nil => exact absurd rfl ended
  | cons packet front ih =>
      rw [feed] at ended
      simp only [List.cons_append, feed, fed]
      cases step : crate.decode decoder packet with
      | none => exact ⟨rfl, rfl⟩
      | some result =>
          obtain ⟨complete, next⟩ := result
          cases complete with
          | some data => exact ⟨rfl, rfl⟩
          | none =>
              simp only [step] at ended
              obtain ⟨sameResult, sameFed⟩ := ih ended
              exact ⟨sameResult, by simp only [sameFed]⟩

theorem mem_fed_of_running {decoder : σ} {front : List EncodingPacket}
    (running : crate.feed decoder front = .returned none)
    (packet : EncodingPacket) (back : List EncodingPacket) :
    packet ∈ crate.fed decoder (front ++ packet :: back) := by
  induction front generalizing decoder with
  | nil =>
      rw [List.nil_append, fed]
      split
      · exact List.mem_cons_self
      · exact List.mem_cons_self
  | cons first front ih =>
      rw [feed] at running
      rw [List.cons_append, fed]
      cases step : crate.decode decoder first with
      | none => simp [step] at running
      | some result =>
          obtain ⟨complete, next⟩ := result
          cases complete with
          | some data => simp [step] at running
          | none =>
              simp only [step] at running
              exact List.mem_cons_of_mem _ (ih running)

theorem run_append_of_ended {length : UInt64} {front : List EncodingPacket}
    (ended : crate.run length front ≠ .returned none)
    (back : List EncodingPacket) :
    crate.run length (front ++ back) = crate.run length front ∧
      crate.fedBy length (front ++ back) = crate.fedBy length front := by
  unfold run fedBy at *
  cases configured : crate.newDecoder length with
  | none => exact ⟨rfl, rfl⟩
  | some decoder =>
      simp only [configured] at ended
      exact feed_append_of_ended ended back

theorem mem_fedBy_of_running {length : UInt64} {front : List EncodingPacket}
    (running : crate.run length front = .returned none)
    (packet : EncodingPacket) (back : List EncodingPacket) :
    packet ∈ crate.fedBy length (front ++ packet :: back) := by
  unfold run at running
  unfold fedBy
  cases configured : crate.newDecoder length with
  | none => simp [configured] at running
  | some decoder =>
      simp only [configured] at running
      exact mem_fed_of_running running packet back

end RaptorQ

namespace RaptorQCodec

variable {codec : RaptorQCodec} {crate : RaptorQ σ} {data : Bytes}
  {kept received : List EncodingPacket}

/-- What the estimate makes of the symbol id of a sentinel. -/
def estimatedLength : Nat := 2 ^ 24 * symbolSize

theorem origLenAndRemaining_sentinel (data : Bytes)
    (rest : List EncodingPacket) :
    origLenAndRemaining (sentinel data) rest =
      some (UInt64.ofNat data.length, rest) := by
  have width : (sentinel data).data.length = 8 := by simp [sentinel]
  have length : UInt64.ofNat (Bytes.ofBeBytes (sentinel data).data) =
      UInt64.ofNat data.length := by
    apply UInt64.toNat_inj.mp
    rw [sentinel, Bytes.ofBeBytes_beBytes_mod, UInt64.toNat_ofNat',
      UInt64.toNat_ofNat']
    exact Nat.mod_mod _ _
  rw [origLenAndRemaining, if_pos (isSentinel_sentinel data), if_pos width,
    length]

/-- A sentinel behind the first packet has the highest symbol id there is. -/
theorem origLenAndRemaining_of_mem {first : EncodingPacket}
    {rest : List EncodingPacket} (plain : first.isSentinel = false)
    (present : sentinel data ∈ first :: rest) :
    origLenAndRemaining first rest =
      some (UInt64.ofNat estimatedLength, first :: rest) := by
  have highest : ((first :: rest).map fun packet =>
      packet.payloadId.encodingSymbolId.val).max? = some (2 ^ 24 - 1) := by
    apply List.max?_eq_some_iff.mpr
    refine ⟨List.mem_map.mpr ⟨sentinel data, present, rfl⟩, ?_⟩
    intro esi member
    obtain ⟨packet, _, rfl⟩ := List.mem_map.mp member
    exact Nat.le_pred_of_lt packet.payloadId.encodingSymbolId.isLt
  rw [origLenAndRemaining, plain]
  simp only [Bool.false_eq_true, if_false, highest, Option.getD_some]
  rfl

/-- The sentinel is the first of the packets that are kept, as in `encode`. -/
theorem kept_eq_cons
    (spares : crate.SparesSentinel data (codec.repairCntEst data.length))
    (sub : kept.Sublist (codec.encode crate data))
    (present : sentinel data ∈ kept) :
    ∃ rest, kept = sentinel data :: rest ∧
      rest.Sublist (crate.encodedPackets data
        (codec.repairCntEst data.length)) := by
  rcases List.sublist_cons_iff.mp sub with inside | split
  · have plain := spares _ (inside.subset present)
    rw [isSentinel_sentinel] at plain
    cases plain
  · exact split

/-- Reordered packets, cut at the sentinel.  What stands around it is a
reordering of what `encode` put behind it. -/
structure Cut (crate : RaptorQ σ) (data : Bytes)
    (kept received front back : List EncodingPacket) : Prop where
  received_eq : received = front ++ sentinel data :: back
  kept_eq : kept = sentinel data :: kept.tail
  plain : ∀ packet ∈ front ++ back, packet.isSentinel = false
  sameRun : crate.run (UInt64.ofNat data.length) (front ++ back) =
    crate.run (UInt64.ofNat data.length) kept.tail

theorem exists_cut
    (spares : crate.SparesSentinel data (codec.repairCntEst data.length))
    (orderFree : crate.OrderFree data (codec.repairCntEst data.length))
    (sub : kept.Sublist (codec.encode crate data))
    (order : received.Perm kept) (present : sentinel data ∈ kept) :
    ∃ front back, Cut crate data kept received front back := by
  obtain ⟨rest, isKept, inside⟩ := kept_eq_cons spares sub present
  obtain ⟨front, back, isReceived⟩ :=
    List.append_of_mem (order.mem_iff.mpr present)
  have others : (front ++ back).Perm rest := by
    apply List.Perm.cons_inv (a := sentinel data)
    rw [← isKept]
    exact (List.perm_middle.symm.trans (by rw [← isReceived])).trans order
  have within : (front ++ back).Subperm (crate.encodedPackets data
      (codec.repairCntEst data.length)) :=
    others.subperm.trans inside.subperm
  refine ⟨front, back, isReceived, ?_, ?_, ?_⟩
  · rw [isKept, List.tail_cons]
  · intro packet member
    exact spares packet (within.subset member)
  · rw [isKept, List.tail_cons]
    exact orderFree _ _ others within

/-- The result of a decoder is cut to the configured length. -/
theorem decode_cons (crate : RaptorQ σ) {first : EncodingPacket}
    {rest : List EncodingPacket} {length : UInt64}
    {remaining : List EncodingPacket}
    (split : origLenAndRemaining first rest = some (length, remaining)) :
    decode crate (first :: rest) =
      match crate.run length remaining with
      | .returned (some data) => .returned (some (data.take length.toNat))
      | other => other := by
  rw [decode, split]

/-- What a receiver of reordered packets relies on. -/
structure DecodesAlike (crate : RaptorQ σ) (data : Bytes)
    (kept received : List EncodingPacket) : Prop where
  length : (configuredLength received).map UInt64.toNat = some data.length
  unfed : ∀ packet ∈ fedPackets crate received, packet.isSentinel = false
  result : decode crate received = decode crate kept

namespace Cut

variable {first : EncodingPacket} {front back : List EncodingPacket}

theorem takeWhile_eq (cut : Cut crate data kept received front back) :
    received.takeWhile (fun packet => !packet.isSentinel) = front := by
  rw [cut.received_eq, List.takeWhile_append_of_pos,
    List.takeWhile_cons_of_neg, List.append_nil]
  · simp
  · intro packet member
    simp [cut.plain packet (List.mem_append_left _ member)]

theorem decode_kept (cut : Cut crate data kept received front back) :
    decode crate kept =
      match crate.run (UInt64.ofNat data.length) (front ++ back) with
      | .returned (some result) =>
          .returned (some (result.take (UInt64.ofNat data.length).toNat))
      | other => other := by
  rw [cut.kept_eq, decode_cons crate (origLenAndRemaining_sentinel data _),
    cut.sameRun]

theorem decodesAlike (cut : Cut crate data kept received [] back)
    (fits : data.length < 2 ^ 64) :
    DecodesAlike crate data kept received := by
  have split := origLenAndRemaining_sentinel data back
  refine ⟨?_, ?_, ?_⟩
  · rw [cut.received_eq, List.nil_append, configuredLength, split]
    simp [UInt64.toNat_ofNat_of_fits fits]
  · intro packet member
    rw [cut.received_eq, List.nil_append, fedPackets, split] at member
    exact cut.plain packet (RaptorQ.fedBy_subset member)
  · rw [cut.decode_kept, cut.received_eq, List.nil_append,
      decode_cons crate split]
    rfl

theorem received_cons
    (cut : Cut crate data kept received (first :: front) back) :
    received = first :: (front ++ sentinel data :: back) := by
  rw [cut.received_eq, List.cons_append]

/-- With a packet in front of the sentinel, the length is estimated. -/
theorem split_behind (cut : Cut crate data kept received (first :: front) back) :
    origLenAndRemaining first (front ++ sentinel data :: back) =
      some (UInt64.ofNat estimatedLength, received) := by
  have plain : first.isSentinel = false :=
    cut.plain first (List.mem_append_left _ List.mem_cons_self)
  have present : sentinel data ∈ first :: (front ++ sentinel data :: back) := by
    simp
  rw [origLenAndRemaining_of_mem plain present, cut.received_cons]

theorem configuredLength_behind
    (cut : Cut crate data kept received (first :: front) back) :
    (configuredLength received).map UInt64.toNat = some estimatedLength := by
  rw [cut.received_cons, configuredLength, cut.split_behind]
  rfl

theorem fedPackets_behind
    (cut : Cut crate data kept received (first :: front) back) :
    fedPackets crate received =
      crate.fedBy (UInt64.ofNat estimatedLength) received := by
  conv_lhs => rw [cut.received_cons]
  rw [fedPackets, cut.split_behind]

theorem decode_behind
    (cut : Cut crate data kept received (first :: front) back) :
    decode crate received =
      match crate.run (UInt64.ofNat estimatedLength) received with
      | .returned (some result) => .returned
          (some (result.take (UInt64.ofNat estimatedLength).toNat))
      | other => other := by
  conv_lhs => rw [cut.received_cons]
  rw [decode_cons crate cut.split_behind]

theorem decodesAlike_behind_iff
    (cut : Cut crate data kept received (first :: front) back) :
    DecodesAlike crate data kept received ↔
      data.length = estimatedLength ∧
        crate.run (UInt64.ofNat data.length) (first :: front) ≠
          .returned none := by
  constructor
  · intro alike
    have sameLength : estimatedLength = data.length :=
      Option.some.inj (cut.configuredLength_behind.symm.trans alike.length)
    refine ⟨sameLength.symm, ?_⟩
    -- A decoder that still waits for data is handed the sentinel.
    intro running
    have member := RaptorQ.mem_fedBy_of_running running (sentinel data) back
    rw [← cut.received_eq, ← sameLength, ← cut.fedPackets_behind] at member
    have spared := alike.unfed _ member
    rw [isSentinel_sentinel] at spared
    cases spared
  · intro condition
    obtain ⟨sameLength, ended⟩ := condition
    obtain ⟨sameResult, sameFed⟩ :=
      RaptorQ.run_append_of_ended ended (sentinel data :: back)
    have frontResult := (RaptorQ.run_append_of_ended ended back).1
    rw [← cut.received_eq, sameLength] at sameResult sameFed
    refine ⟨?_, ?_, ?_⟩
    · rw [cut.configuredLength_behind, sameLength]
    · intro packet member
      rw [cut.fedPackets_behind, sameFed] at member
      exact cut.plain packet
        (List.mem_append_left _ (RaptorQ.fedBy_subset member))
    · rw [cut.decode_behind, cut.decode_kept, frontResult, sameResult,
        sameLength]

end Cut

/-- Packets decode as they do in the order of `encode` exactly when the
sentinel is still in front; but for data of the very length that the estimate
yields, whose decoder ends on the packets in front of the sentinel. -/
theorem decodesAlike_iff
    (spares : crate.SparesSentinel data (codec.repairCntEst data.length))
    (orderFree : crate.OrderFree data (codec.repairCntEst data.length))
    (fits : data.length < 2 ^ 64)
    (sub : kept.Sublist (codec.encode crate data))
    (order : received.Perm kept) (present : sentinel data ∈ kept) :
    DecodesAlike crate data kept received ↔
      received.head? = some (sentinel data) ∨
        (data.length = estimatedLength ∧
          crate.run (UInt64.ofNat data.length)
            (received.takeWhile fun packet => !packet.isSentinel) ≠
              .returned none) := by
  obtain ⟨front, back, cut⟩ := exists_cut spares orderFree sub order present
  cases front with
  | nil =>
      have inFront : received.head? = some (sentinel data) := by
        rw [cut.received_eq]
        rfl
      exact ⟨fun _ => Or.inl inFront, fun _ => cut.decodesAlike fits⟩
  | cons first front =>
      have behind : received.head? ≠ some (sentinel data) := by
        rw [cut.received_eq]
        intro equality
        have plain := cut.plain first
          (List.mem_append_left _ List.mem_cons_self)
        rw [Option.some.inj equality, isSentinel_sentinel] at plain
        cases plain
      rw [cut.takeWhile_eq, cut.decodesAlike_behind_iff]
      exact ⟨Or.inr, fun condition => condition.resolve_left behind⟩

/-- The crate on zeros, whose symbols are all zero, those of the repair packets
too.  As many packets as there are source symbols complete the decoder. -/
def zeroCrate : RaptorQ (UInt64 × Nat) :=
  { encodedPackets := fun data count =>
      (List.range ((data.length + symbolSize - 1) / symbolSize +
        count.toNat)).map fun esi =>
          { payloadId := { sourceBlockNumber := 0
                           encodingSymbolId := Fin.ofNat _ esi }
            data := List.replicate symbolSize 0 }
    newDecoder := fun length => if length = 0 then none else some (length, 0)
    decode := fun (length, held) packet =>
      if packet.payloadId.sourceBlockNumber ≠ 0 then none
      else if (held + 1) * symbolSize < length.toNat then
        some (none, (length, held + 1))
      else
        some (some (List.replicate length.toNat 0), (length, held + 1)) }

theorem block_of_mem_zeroCrate {count : UInt32} {packet : EncodingPacket}
    (member : packet ∈ zeroCrate.encodedPackets data count) :
    packet.payloadId.sourceBlockNumber = 0 := by
  obtain ⟨esi, -, rfl⟩ := List.mem_map.mp member
  rfl

/-- It only counts. -/
theorem feed_zeroCrate (left right : List EncodingPacket)
    (leftBlock : ∀ packet ∈ left, packet.payloadId.sourceBlockNumber = 0)
    (rightBlock : ∀ packet ∈ right, packet.payloadId.sourceBlockNumber = 0)
    (lengths : left.length = right.length) (decoder : UInt64 × Nat) :
    zeroCrate.feed decoder left = zeroCrate.feed decoder right := by
  induction left generalizing right decoder with
  | nil =>
      rw [List.eq_nil_of_length_eq_zero lengths.symm]
  | cons first left ih =>
      cases right with
      | nil => cases lengths
      | cons other right =>
          have same : zeroCrate.decode decoder first =
              zeroCrate.decode decoder other := by
            simp only [zeroCrate, leftBlock first List.mem_cons_self,
              rightBlock other List.mem_cons_self]
          have rest := ih right
            (fun packet member => leftBlock packet (List.mem_cons_of_mem _ member))
            (fun packet member =>
              rightBlock packet (List.mem_cons_of_mem _ member))
            (Nat.succ.inj lengths)
          rw [RaptorQ.feed, RaptorQ.feed, same]
          simp only [rest]

theorem zeroCrate_orderFree (data : Bytes) (count : UInt32) :
    zeroCrate.OrderFree data count := by
  intro left right order within
  have leftBlock : ∀ packet ∈ left,
      packet.payloadId.sourceBlockNumber = 0 :=
    fun packet member => block_of_mem_zeroCrate (within.subset member)
  have rightBlock : ∀ packet ∈ right,
      packet.payloadId.sourceBlockNumber = 0 :=
    fun packet member => leftBlock packet (order.mem_iff.mpr member)
  unfold RaptorQ.run
  split
  · rfl
  · exact feed_zeroCrate left right leftBlock rightBlock order.length_eq _

theorem zeroCrate_sparesSentinel (data : Bytes) (count : UInt32) :
    zeroCrate.SparesSentinel data count := by
  intro packet member
  rw [isSentinel, block_of_mem_zeroCrate member]
  rfl

/-- Data of two symbols. -/
def zeros : Bytes := List.replicate 2000 0

theorem length_zeros : zeros.length = 2000 := List.length_replicate

/-- Asks for one repair packet. -/
def oneRepair : RaptorQCodec := ⟨fun _ => 1⟩

/-- Two source packets and a repair packet, the last one first. -/
theorem decodesAlike_repaired :
    DecodesAlike zeroCrate zeros (oneRepair.encode zeroCrate zeros)
      (sentinel zeros :: (zeroCrate.encodedPackets zeros
        (oneRepair.repairCntEst zeros.length)).reverse) := by
  have fits : zeros.length < 2 ^ 64 := by
    rw [length_zeros]
    decide
  have reordered : (sentinel zeros :: (zeroCrate.encodedPackets zeros
      (oneRepair.repairCntEst zeros.length)).reverse).Perm
        (oneRepair.encode zeroCrate zeros) :=
    (List.reverse_perm _).cons _
  refine (decodesAlike_iff (zeroCrate_sparesSentinel _ _)
    (zeroCrate_orderFree _ _) fits (List.Sublist.refl _) reordered
    List.mem_cons_self).mpr (Or.inl ?_)
  rw [List.head?_cons]

/-- The crate on data of at most one symbol without repair packets: one source
packet with the padded data, which completes the decoder of its block. -/
def oneSymbolCrate : RaptorQ UInt64 :=
  { encodedPackets := fun data _ =>
      [{ payloadId := { sourceBlockNumber := 0, encodingSymbolId := 0 }
         data := data ++ List.replicate (symbolSize - data.length) 0 }]
    newDecoder := fun length => if length = 0 then none else some length
    decode := fun length packet =>
      if packet.payloadId.sourceBlockNumber ≠ 0 then none
      else if packet.payloadId.encodingSymbolId = 0 ∧
          length.toNat ≤ symbolSize then
        some (some (packet.data.take length.toNat), length)
      else some (none, length) }

/-- Swapping the two packets of one byte of data makes the decoder expect
twenty gigabytes. -/
theorem configuredLength_swapped :
    ∃ received : List EncodingPacket,
      received.Perm (encode ⟨fun _ => 0⟩ oneSymbolCrate [7]) ∧
      configuredLength received = some 21474836480 ∧
      ¬ DecodesAlike oneSymbolCrate [7]
        (encode ⟨fun _ => 0⟩ oneSymbolCrate [7]) received := by
  obtain ⟨packet, packets⟩ : ∃ packet, encode ⟨fun _ => 0⟩ oneSymbolCrate [7] =
      [sentinel [7], packet] ∧ packet.isSentinel = false := ⟨_, rfl, rfl⟩
  have present : sentinel [7] ∈ [packet, sentinel [7]] :=
    List.mem_cons_of_mem _ List.mem_cons_self
  have configured :
      configuredLength [packet, sentinel [7]] = some 21474836480 := by
    rw [configuredLength, origLenAndRemaining_of_mem packets.2 present]
    rfl
  refine ⟨[packet, sentinel [7]], ?_, configured, ?_⟩
  · rw [packets.1]
    exact List.Perm.swap _ _ _
  · intro alike
    have length := alike.length
    rw [configured] at length
    exact absurd length (by decide)

/-- No call of the crate aborts. -/
structure Total (crate : RaptorQ σ) : Prop where
  newDecoder : ∀ length, ∃ decoder, crate.newDecoder length = some decoder
  decode : ∀ decoder packet, ∃ step, crate.decode decoder packet = some step

theorem Total.feed_returns (total : Total crate) (decoder : σ)
    (packets : List EncodingPacket) :
    ∃ result, crate.feed decoder packets = .returned result := by
  induction packets generalizing decoder with
  | nil => exact ⟨none, rfl⟩
  | cons packet rest ih =>
      obtain ⟨⟨complete, next⟩, decoded⟩ := total.decode decoder packet
      rw [RaptorQ.feed, decoded]
      cases complete with
      | some data => exact ⟨some data, rfl⟩
      | none => exact ih next

theorem Total.run_returns (total : Total crate) (length : UInt64)
    (packets : List EncodingPacket) :
    ∃ result, crate.run length packets = .returned result := by
  obtain ⟨decoder, configured⟩ := total.newDecoder length
  rw [RaptorQ.run, configured]
  exact total.feed_returns decoder packets

theorem origLenAndRemaining_eq_none_iff {first : EncodingPacket}
    {rest : List EncodingPacket} :
    origLenAndRemaining first rest = none ↔
      first.isSentinel = true ∧ first.data.length ≠ 8 := by
  rw [origLenAndRemaining]
  by_cases sentinel : first.isSentinel = true
  · by_cases width : first.data.length = 8
    · simp [sentinel, width]
    · simp [sentinel, width]
  · simp [sentinel]

/-- With a crate that aborts nothing, `decode` returns exactly when the first
packet is not a sentinel of another length than eight bytes. -/
theorem decode_returns_iff (total : Total crate)
    (packets : List EncodingPacket) :
    (∃ result, decode crate packets = .returned result) ↔
      ∀ first, packets.head? = some first → first.isSentinel = true →
        first.data.length = 8 := by
  cases packets with
  | nil =>
      refine iff_of_true ⟨none, rfl⟩ ?_
      intro first absent
      cases absent
  | cons first rest =>
      cases split : origLenAndRemaining first rest with
      | none =>
          have malformed := origLenAndRemaining_eq_none_iff.mp split
          refine iff_of_false ?_ ?_
          · intro returns
            obtain ⟨result, decoded⟩ := returns
            rw [decode, split] at decoded
            cases decoded
          · intro wellFormed
            exact malformed.2 (wellFormed first rfl malformed.1)
      | some configured =>
          obtain ⟨length, remaining⟩ := configured
          refine iff_of_true ?_ ?_
          · obtain ⟨result, ran⟩ := total.run_returns length remaining
            rw [decode_cons crate split, ran]
            cases result with
            | none => exact ⟨none, rfl⟩
            | some data => exact ⟨_, rfl⟩
          · intro head same isSentinel
            cases same
            by_contra width
            rw [origLenAndRemaining_eq_none_iff.mpr ⟨isSentinel, width⟩]
              at split
            cases split

/-- `oneSymbolCrate` that ignores what it aborts on. -/
def lenientCrate : RaptorQ UInt64 :=
  { oneSymbolCrate with
    newDecoder := some
    decode := fun length packet =>
      some ((oneSymbolCrate.decode length packet).getD (none, length)) }

theorem lenientCrate_total : Total lenientCrate :=
  ⟨fun length => ⟨length, rfl⟩, fun _ _ => ⟨_, rfl⟩⟩

theorem decode_returns_one_symbol :
    (∃ result, decode lenientCrate (encode ⟨fun _ => 0⟩ lenientCrate [7]) =
        .returned result) ↔
      ∀ first, (encode ⟨fun _ => 0⟩ lenientCrate [7]).head? = some first →
        first.isSentinel = true → first.data.length = 8 :=
  decode_returns_iff lenientCrate_total _

/-- A packet with the reserved payload id and no data aborts the call. -/
theorem decode_panics_on_short_sentinel :
    Total lenientCrate ∧
      decode lenientCrate [{ payloadId := ⟨0xFF, 0xFFFFFF⟩, data := [] }] =
        .panicked :=
  ⟨lenientCrate_total, rfl⟩

end RaptorQCodec

end NyxNet.Fec
