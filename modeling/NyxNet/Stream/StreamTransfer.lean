import NyxNet.Stream.StreamState
import Mathlib.Algebra.BigOperators.Group.List.Basic
import Mathlib.Algebra.Ring.Nat

/-!
# A sender, a receiver and what is between them

Two streams of `nyx-stream/src/state.rs` and a channel that may lose, repeat
and reorder: it remembers every frame and every ACK value ever sent, and each
delivery picks one of them.
-/

namespace NyxNet.StreamMachine

open NyxNet.Stream

structure Link where
  sender : Stream
  receiver : Stream
  frames : List Bytes
  acks : List UInt32

namespace Link

def new (senderId receiverId : UInt32) : Link :=
  { sender := Stream.new senderId, receiver := Stream.new receiverId
    frames := [], acks := [] }

/-- The calls of the application on either side, a round of the sender's
retransmission loop, and the deliveries.  The sender is told ACK values and
the receiver is given frames by deliveries only; all calls that belong to the
other direction of the two streams are free. -/
inductive Action where
  | sender (call : Stream.Call) (ownCall : ∀ largest, call ≠ .onAck largest)
  | receiver (call : Stream.Call) (ownCall : ∀ frame, call ≠ .onReceive frame)
  | retransmit (now : Nat) (resentAt : UInt32 → Nat)
  | deliver (position : Nat)
  | acknowledge (position : Nat)

inductive Answer where
  | answered (answer : Stream.Answer)
  | delivered (frame : StreamFrame)
  | quiet

end Link

/-- The frames that an answer puts on the channel. -/
def Stream.Answer.frames : Stream.Answer → List Bytes
  | .frame bytes => [bytes]
  | .finished (some bytes) => [bytes]
  | _ => []

namespace Link

def perform (link : Link) : Action → Answer × Link
  | .sender call _ =>
      let (answer, sender) := link.sender.perform call
      (.answered answer,
        { link with sender, frames := link.frames ++ answer.frames })
  | .receiver call _ =>
      let (answer, receiver) := link.receiver.perform call
      (.answered answer, { link with receiver })
  | .retransmit now resentAt =>
      let (frames, sender) := link.sender.lossRetransmit now resentAt
      (.quiet, { link with sender, frames := link.frames ++ frames })
  | .deliver position =>
      match link.frames[position]?.map parseStreamFrame with
      | some (.ok (_, frame)) =>
          let (ack, receiver) := link.receiver.onReceive frame
          (.delivered frame, { link with receiver, acks := link.acks ++ [ack] })
      | _ => (.quiet, link)
  | .acknowledge position =>
      match link.acks[position]? with
      | some largest =>
          (.quiet, { link with sender := link.sender.onAck largest })
      | none => (.quiet, link)

abbrev Past := List (Action × Answer)

/-- The bytes that one step hands to the sender's stream. -/
def bytesOf : Action × Answer → Nat
  | (.sender (.sendData data _) _, .answered (.frame _)) => data.length
  | _ => 0

def bytesSent (past : Past) : Nat :=
  (past.map bytesOf).sum

@[simp] theorem bytesSent_append (past : Past) (entry : Action × Answer) :
    bytesSent (past ++ [entry]) = bytesSent past + bytesOf entry := by
  simp [bytesSent]

def Delivered (past : Past) (frame : StreamFrame) : Prop :=
  ∃ position, (.deliver position, .delivered frame) ∈ past

theorem Delivered.append {past : Past} {frame : StreamFrame}
    (delivered : Delivered past frame) (later : Past) :
    Delivered (past ++ later) frame := by
  obtain ⟨position, member⟩ := delivered
  exact ⟨position, List.mem_append_left later member⟩

/-- The offset lies in the data of the frame. -/
def Carries (frame : StreamFrame) (offset : Nat) : Prop :=
  frame.offset.toNat ≤ offset ∧
    offset < frame.offset.toNat + frame.data.length

structure Sound (past : Past) (link : Link) : Prop where
  sendOffset : link.sender.sendOffset.toNat = bytesSent past
  segments : ∀ (offset : UInt32) (segment : SentSegment),
    link.sender.sent[offset]? = some segment →
      segment.offset = offset ∧ offset.toNat + segment.len ≤ bytesSent past
  frames : ∀ bytes ∈ link.frames, ∃ frame : StreamFrame,
    bytes = buildStreamFrame frame ∧
      frame.offset.toNat + frame.data.length ≤ bytesSent past
  recvOffset : link.receiver.recvOffset.toNat ≤ bytesSent past
  covered : ∀ offset < link.receiver.recvOffset.toNat,
    ∃ frame, Delivered past frame ∧ Carries frame offset
  acks : ∀ value ∈ link.acks,
    value.toNat ≤ link.receiver.recvOffset.toNat

/-- A call of the sending side is a `send_data` that goes through, or sends
nothing but an empty FIN frame at the current offset. -/
theorem sender_perform (stream : Stream) (call : Stream.Call)
    (ownCall : ∀ largest, call ≠ .onAck largest) :
    (∃ data now, call = .sendData data now ∧
        (stream.perform call).1 = .frame (buildStreamFrame
          { streamId := stream.id, offset := stream.sendOffset, fin := false
            data }) ∧
        (stream.perform call).2.sendOffset =
          stream.sendOffset + UInt32.ofNat data.length ∧
        (stream.perform call).2.sent = stream.sent.insert stream.sendOffset
          { offset := stream.sendOffset, len := data.length
            timestamp := now }) ∨
      ((∀ data now, call = .sendData data now →
          (stream.perform call).1 = .panicked) ∧
        (stream.perform call).2.sendOffset = stream.sendOffset ∧
        (stream.perform call).2.sent = stream.sent ∧
        ∀ bytes ∈ (stream.perform call).1.frames, bytes = buildStreamFrame
          { streamId := stream.id, offset := stream.sendOffset, fin := true
            data := [] }) := by
  cases call with
  | sendData data now =>
      by_cases allowed : Stream.maySend stream.state = true
      · left
        exact ⟨data, now, rfl, by simp [Stream.perform, Stream.sendData,
          allowed]⟩
      · right
        simp [Stream.perform, Stream.sendData, allowed, Stream.Answer.frames]
  | finish =>
      right
      cases state : stream.state <;>
        simp [Stream.perform, Stream.finish, state, Stream.Answer.frames]
  | onReceive frame =>
      right
      simp [Stream.perform, Stream.onReceive, Stream.Answer.frames]
  | onAck largest => exact absurd rfl (ownCall largest)

theorem receiver_perform (stream : Stream) (call : Stream.Call)
    (ownCall : ∀ frame, call ≠ .onReceive frame) :
    (stream.perform call).2.recvOffset = stream.recvOffset := by
  cases call with
  | sendData data now =>
      by_cases allowed : Stream.maySend stream.state = true
      · simp [Stream.perform, Stream.sendData, allowed]
      · simp [Stream.perform, Stream.sendData, allowed]
  | finish =>
      cases state : stream.state <;>
        simp [Stream.perform, Stream.finish, state]
  | onReceive frame => exact absurd rfl (ownCall frame)
  | onAck largest => rfl

/-- Retransmission touches nothing but timestamps. -/
theorem lookup_restamped (resentAt : UInt32 → Nat) (lost : List SentSegment)
    (sent : Std.ExtTreeMap UInt32 SentSegment compare) {offset : UInt32}
    {segment : SentSegment}
    (found : (lost.foldl
      (fun sent segment => sent.modify segment.offset
        (fun orig => { orig with timestamp := resentAt segment.offset }))
      sent)[offset]? = some segment) :
    ∃ original, sent[offset]? = some original ∧
      segment.offset = original.offset ∧ segment.len = original.len := by
  induction lost generalizing sent with
  | nil => exact ⟨segment, found, rfl, rfl⟩
  | cons head lost ih =>
      obtain ⟨between, lookup, sameOffset, sameLen⟩ := ih _ found
      rw [OrderedMap.lookup_modify] at lookup
      split at lookup
      · obtain ⟨original, present, restamped⟩ :=
          Option.map_eq_some_iff.mp lookup
        refine ⟨original, present, ?_, ?_⟩
        · rw [sameOffset, ← restamped]
        · rw [sameLen, ← restamped]
      · exact ⟨between, lookup, sameOffset, sameLen⟩

/-- What `on_ack` removes ends at or below the acknowledged offset. -/
theorem onAck_removes {stream : Stream} {largest offset : UInt32}
    {segment : SentSegment} (present : stream.sent[offset]? = some segment)
    (removed : (stream.onAck largest).sent[offset]? = none) :
    offset + UInt32.ofNat segment.len ≤ largest := by
  rw [Stream.onAck, Std.ExtTreeMap.getElem?_filter', present] at removed
  simpa [Option.filter] using removed

/-- A received frame moves the offset to its own end or not at all. -/
theorem recvOffset_onReceive (stream : Stream) {frame : StreamFrame}
    (fits : frame.offset.toNat + frame.data.length < 2 ^ 32) :
    (stream.onReceive frame).2.recvOffset = stream.recvOffset ∨
      (frame.offset = stream.recvOffset ∧
        (stream.onReceive frame).2.recvOffset.toNat =
          stream.recvOffset.toNat + frame.data.length) := by
  by_cases next : frame.offset = stream.recvOffset
  · right
    refine ⟨next, ?_⟩
    simp only [Stream.onReceive, if_pos next]
    rw [next] at fits
    exact Stream.toNat_add_length fits
  · left
    simp [Stream.onReceive, next]

section Steps

variable {past : Past} {link : Link}

/-- A step that hands over no data and leaves the receiver where it is. -/
theorem Sound.unmoved {after : Link} {entry : Action × Answer}
    (sound : Sound past link) (noData : bytesOf entry = 0)
    (sendOffset : after.sender.sendOffset = link.sender.sendOffset)
    (segments : ∀ (offset : UInt32) (segment : SentSegment),
      after.sender.sent[offset]? = some segment →
        ∃ original, link.sender.sent[offset]? = some original ∧
          segment.offset = original.offset ∧ segment.len = original.len)
    (frames : ∀ bytes ∈ after.frames, bytes ∈ link.frames ∨
      ∃ frame : StreamFrame, bytes = buildStreamFrame frame ∧
        frame.offset.toNat + frame.data.length ≤ bytesSent past)
    (recvOffset : after.receiver.recvOffset = link.receiver.recvOffset)
    (acks : after.acks = link.acks) : Sound (past ++ [entry]) after := by
  have total : bytesSent (past ++ [entry]) = bytesSent past := by
    rw [bytesSent_append, noData, Nat.add_zero]
  constructor
  · rw [total, sendOffset]
    exact sound.sendOffset
  · intro offset segment found
    obtain ⟨original, present, sameOffset, sameLen⟩ :=
      segments offset segment found
    rw [total, sameOffset, sameLen]
    exact sound.segments offset original present
  · intro bytes member
    rw [total]
    rcases frames bytes member with old | new
    · exact sound.frames bytes old
    · exact new
  · rw [total, recvOffset]
    exact sound.recvOffset
  · intro offset below
    rw [recvOffset] at below
    obtain ⟨frame, delivered, carries⟩ := sound.covered offset below
    exact ⟨frame, delivered.append _, carries⟩
  · rw [acks, recvOffset]
    exact sound.acks

theorem Sound.sendData {after : Link} {entry : Action × Answer} {data : Bytes}
    {now : Nat} (sound : Sound past link) (handed : bytesOf entry = data.length)
    (short : bytesSent (past ++ [entry]) < 2 ^ 32)
    (sendOffset : after.sender.sendOffset =
      link.sender.sendOffset + UInt32.ofNat data.length)
    (sent : after.sender.sent = link.sender.sent.insert link.sender.sendOffset
      { offset := link.sender.sendOffset, len := data.length
        timestamp := now })
    (frames : after.frames = link.frames ++ [buildStreamFrame
      { streamId := link.sender.id, offset := link.sender.sendOffset
        fin := false, data }])
    (receiver : after.receiver = link.receiver)
    (acks : after.acks = link.acks) : Sound (past ++ [entry]) after := by
  have total : bytesSent (past ++ [entry]) = bytesSent past + data.length := by
    rw [bytesSent_append, handed]
  have start := sound.sendOffset
  constructor
  · rw [sendOffset, Stream.toNat_add_length (by omega), total, start]
  · intro offset segment found
    rw [sent] at found
    rcases OrderedMap.lookup_insert_cases found with new | old
    · obtain ⟨rfl, rfl⟩ := new
      exact ⟨rfl, by simp only; omega⟩
    · have bound := sound.segments offset segment old.2
      exact ⟨bound.1, by omega⟩
  · intro bytes member
    rw [frames, List.mem_append, List.mem_singleton] at member
    rcases member with old | new
    · obtain ⟨frame, built, bound⟩ := sound.frames bytes old
      exact ⟨frame, built, by omega⟩
    · exact ⟨_, new, by simp only; omega⟩
  · rw [receiver]
    have bound := sound.recvOffset
    omega
  · intro offset below
    rw [receiver] at below
    obtain ⟨frame, delivered, carries⟩ := sound.covered offset below
    exact ⟨frame, delivered.append _, carries⟩
  · rw [acks, receiver]
    exact sound.acks

theorem Sound.sender (sound : Sound past link) (call : Stream.Call)
    (ownCall : ∀ largest, call ≠ .onAck largest)
    (short : bytesSent (past ++
      [(.sender call ownCall, (link.perform (.sender call ownCall)).1)]) <
        2 ^ 32) :
    Sound (past ++
      [(.sender call ownCall, (link.perform (.sender call ownCall)).1)])
      (link.perform (.sender call ownCall)).2 := by
  rcases sender_perform link.sender call ownCall with sends | quiet
  · obtain ⟨data, now, rfl, answer, sendOffset, sent⟩ := sends
    refine sound.sendData ?_ short sendOffset sent ?_ rfl rfl
    · simp [perform, answer, bytesOf]
    · simp [perform, answer, Stream.Answer.frames]
  · obtain ⟨panics, sendOffset, sent, frames⟩ := quiet
    refine sound.unmoved ?_ sendOffset ?_ ?_ rfl rfl
    · cases call with
      | sendData data now => simp [perform, panics data now rfl, bytesOf]
      | finish => rfl
      | onReceive frame => rfl
      | onAck largest => rfl
    · intro offset segment found
      simp only [perform, sent] at found
      exact ⟨segment, found, rfl, rfl⟩
    · intro bytes member
      rcases List.mem_append.mp member with old | new
      · exact Or.inl old
      · right
        refine ⟨_, frames bytes new, ?_⟩
        have offset := sound.sendOffset
        simp only [List.length_nil]
        omega

theorem Sound.receiver (sound : Sound past link) (call : Stream.Call)
    (ownCall : ∀ frame, call ≠ .onReceive frame) :
    Sound (past ++
      [(.receiver call ownCall, (link.perform (.receiver call ownCall)).1)])
      (link.perform (.receiver call ownCall)).2 := by
  refine sound.unmoved rfl rfl ?_ ?_ ?_ rfl
  · intro offset segment found
    exact ⟨segment, found, rfl, rfl⟩
  · intro bytes member
    exact Or.inl member
  · exact receiver_perform link.receiver call ownCall

theorem Sound.retransmit (sound : Sound past link) (now : Nat)
    (resentAt : UInt32 → Nat) :
    Sound (past ++ [(.retransmit now resentAt, .quiet)])
      (link.perform (.retransmit now resentAt)).2 := by
  refine sound.unmoved rfl rfl ?_ ?_ rfl rfl
  · intro offset segment found
    exact lookup_restamped resentAt _ link.sender.sent found
  · intro bytes member
    rcases List.mem_append.mp member with old | new
    · exact Or.inl old
    · right
      obtain ⟨segment, lost, rfl⟩ := List.mem_map.mp new
      obtain ⟨entry, stored, rfl⟩ :=
        List.mem_map.mp (List.mem_of_mem_filter lost)
      have present := Std.ExtTreeMap.mem_toList_iff_getElem?_eq_some.mp stored
      obtain ⟨sameOffset, bound⟩ := sound.segments entry.1 entry.2 present
      refine ⟨_, rfl, ?_⟩
      simp only [List.length_replicate]
      rw [sameOffset]
      exact bound

theorem perform_deliver (link : Link) (position : Nat) :
    link.perform (.deliver position) = (.quiet, link) ∨
      ∃ bytes rest frame, bytes ∈ link.frames ∧
        parseStreamFrame bytes = .ok (rest, frame) ∧
          link.perform (.deliver position) =
            (.delivered frame,
              { link with
                receiver := (link.receiver.onReceive frame).2
                acks := link.acks ++ [(link.receiver.onReceive frame).1] }) := by
  rw [perform]
  split
  · next rest frame found =>
      obtain ⟨bytes, present, parsed⟩ := Option.map_eq_some_iff.mp found
      exact Or.inr ⟨bytes, rest, frame, List.mem_of_getElem? present, parsed,
        rfl⟩
  · exact Or.inl rfl

theorem perform_acknowledge (link : Link) (position : Nat) :
    link.perform (.acknowledge position) = (.quiet, link) ∨
      ∃ largest ∈ link.acks, link.perform (.acknowledge position) =
        (.quiet, { link with sender := link.sender.onAck largest }) := by
  rw [perform]
  split
  · next largest found =>
      exact Or.inr ⟨largest, List.mem_of_getElem? found, rfl⟩
  · exact Or.inl rfl

/-- Nothing happens. -/
theorem Sound.idle {entry : Action × Answer} (sound : Sound past link)
    (noData : bytesOf entry = 0) : Sound (past ++ [entry]) link := by
  refine sound.unmoved noData rfl ?_ ?_ rfl rfl
  · intro offset segment found
    exact ⟨segment, found, rfl, rfl⟩
  · intro bytes member
    exact Or.inl member

theorem Sound.received {frame : StreamFrame} {position : Nat}
    (sound : Sound past link)
    (bound : frame.offset.toNat + frame.data.length ≤ bytesSent past)
    (short : bytesSent past < 2 ^ 32) :
    Sound (past ++ [(.deliver position, .delivered frame)])
      { link with
        receiver := (link.receiver.onReceive frame).2
        acks := link.acks ++ [(link.receiver.onReceive frame).1] } := by
  have total :
      bytesSent (past ++ [(.deliver position, .delivered frame)]) =
        bytesSent past := by
    rw [bytesSent_append]
    rfl
  have moved := recvOffset_onReceive link.receiver
    (Nat.lt_of_le_of_lt bound short)
  have reached := sound.recvOffset
  constructor
  · rw [total]
    exact sound.sendOffset
  · rw [total]
    exact sound.segments
  · rw [total]
    exact sound.frames
  · rw [total]
    rcases moved with stays | next
    · simp only [stays]
      exact reached
    · obtain ⟨here, advanced⟩ := next
      rw [here] at bound
      simp only [advanced]
      exact bound
  · intro offset below
    have cases : offset < link.receiver.recvOffset.toNat ∨
        Carries frame offset := by
      rcases moved with stays | next
      · simp only [stays] at below
        exact Or.inl below
      · obtain ⟨here, advanced⟩ := next
        simp only [advanced] at below
        rw [Carries, here]
        omega
    rcases cases with old | carried
    · obtain ⟨earlier, delivered, carries⟩ := sound.covered offset old
      exact ⟨earlier, delivered.append _, carries⟩
    · exact ⟨frame, ⟨position, List.mem_append_right _ List.mem_cons_self⟩,
        carried⟩
  · intro value member
    rcases List.mem_append.mp member with old | new
    · have before := sound.acks value old
      rcases moved with stays | next
      · simp only [stays]
        exact before
      · simp only [next.2]
        omega
    · rw [List.mem_singleton.mp new]
      exact Nat.le_refl _

theorem Sound.deliver (sound : Sound past link)
    (short : bytesSent past < 2 ^ 32) (position : Nat) :
    Sound (past ++
      [(.deliver position, (link.perform (.deliver position)).1)])
      (link.perform (.deliver position)).2 := by
  rcases perform_deliver link position with nothing | delivery
  · rw [nothing]
    exact sound.idle rfl
  · obtain ⟨bytes, rest, frame, onWire, parsed, equation⟩ := delivery
    obtain ⟨sent, built, bound⟩ := sound.frames bytes onWire
    have read := StreamFrame.parseStreamFrame_build
      (by omega : sent.data.length < 2 ^ 32) []
    rw [List.append_nil, ← built, parsed] at read
    cases read
    rw [equation]
    exact sound.received bound short

theorem Sound.acknowledge (sound : Sound past link) (position : Nat) :
    Sound (past ++
      [(.acknowledge position, (link.perform (.acknowledge position)).1)])
      (link.perform (.acknowledge position)).2 := by
  rcases perform_acknowledge link position with nothing | acked
  · rw [nothing]
    exact sound.idle rfl
  · obtain ⟨largest, -, equation⟩ := acked
    rw [equation]
    refine sound.unmoved rfl rfl ?_ ?_ rfl rfl
    · intro offset segment found
      exact ⟨segment, Stream.lookup_of_onAck found, rfl, rfl⟩
    · intro bytes member
      exact Or.inl member

end Steps

/-- The bound speaks about the end of a run, so it is a premise of the
invariant. -/
def SoundWhileShort (past : Past) (link : Link) : Prop :=
  bytesSent past < 2 ^ 32 → Sound past link

theorem soundWhileShort_perform (past : Past) (link : Link) (action : Action)
    (sound : SoundWhileShort past link) :
    SoundWhileShort (past ++ [(action, (link.perform action).1)])
      (link.perform action).2 := by
  intro short
  have before : bytesSent past < 2 ^ 32 := by
    rw [bytesSent_append] at short
    omega
  cases action with
  | sender call ownCall => exact (sound before).sender call ownCall short
  | receiver call ownCall => exact (sound before).receiver call ownCall
  | retransmit now resentAt => exact (sound before).retransmit now resentAt
  | deliver position => exact (sound before).deliver before position
  | acknowledge position => exact (sound before).acknowledge position

theorem sound_new (senderId receiverId : UInt32) :
    Sound [] (new senderId receiverId) := by
  constructor
  · rfl
  · intro offset segment found
    rw [show (new senderId receiverId).sender.sent = ∅ from rfl,
      Std.ExtTreeMap.getElem?_empty] at found
    cases found
  · intro bytes member
    cases member
  · exact Nat.le_refl 0
  · intro offset below
    exact absurd below (Nat.not_lt_zero offset)
  · intro value member
    cases member

/-- After every run with fewer than 2^32 bytes sent, the receiver is not ahead
of the sender, every offset it has passed was carried by a delivered frame,
and the next acknowledgement, whichever it is, removes only segments whose end
the receiver has reached. -/
theorem stream_acknowledgement_safe (senderId receiverId : UInt32)
    (actions : List Action)
    (short : bytesSent (Trace.history perform (new senderId receiverId)
      actions) < 2 ^ 32) :
    let past := Trace.history perform (new senderId receiverId) actions
    let link := Trace.final perform (new senderId receiverId) actions
    link.receiver.recvOffset ≤ link.sender.sendOffset ∧
      (∀ offset < link.receiver.recvOffset.toNat,
        ∃ frame, Delivered past frame ∧ Carries frame offset) ∧
      ∀ (position : Nat) (offset : UInt32) (segment : SentSegment),
        link.sender.sent[offset]? = some segment →
          (link.perform (.acknowledge position)).2.sender.sent[offset]? =
              none →
            offset.toNat + segment.len ≤ link.receiver.recvOffset.toNat := by
  intro past link
  have sound : Sound past link :=
    Trace.invariant (fun _ => sound_new senderId receiverId)
      soundWhileShort_perform actions short
  refine ⟨?_, sound.covered, ?_⟩
  · rw [UInt32.le_iff_toNat_le, sound.sendOffset]
    exact sound.recvOffset
  · intro position offset segment present removed
    rcases perform_acknowledge link position with nothing | acked
    · rw [nothing] at removed
      simp only [present] at removed
      cases removed
    · obtain ⟨largest, emitted, equation⟩ := acked
      rw [equation] at removed
      have ended := onAck_removes present removed
      have bound := (sound.segments offset segment present).2
      rw [UInt32.le_iff_toNat_le,
        Stream.toNat_add_length (Nat.lt_of_le_of_lt bound short)] at ended
      exact Nat.le_trans ended (sound.acks largest emitted)

/-- An empty segment shares its offset with the next one; the data frame is
retransmitted, delivered twice and acknowledged by a stale value first. -/
def lossyActions : List Action :=
  [.sender (.sendData [] 0) (by simp), .sender (.sendData [1, 2] 0) (by simp),
   .deliver 0, .retransmit 300000000 (fun _ => 300000000), .deliver 2,
   .deliver 1, .acknowledge 0, .sender .finish (by simp), .acknowledge 1]

theorem stream_acknowledgement_safe_when_lossy :
    bytesSent (Trace.history perform (new 1 1) lossyActions) < 2 ^ 32 ∧
      (Trace.final perform (new 1 1) lossyActions).receiver.recvOffset ≤
        (Trace.final perform (new 1 1) lossyActions).sender.sendOffset := by
  have short :
      bytesSent (Trace.history perform (new 1 1) lossyActions) < 2 ^ 32 := by
    decide +kernel
  exact ⟨short, (stream_acknowledgement_safe 1 1 lossyActions short).1⟩

end Link

end NyxNet.StreamMachine
