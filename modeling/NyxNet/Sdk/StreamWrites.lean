import NyxNet.Lib.Trace
import NyxNet.Sdk.NyxStream

/-!
# Runs of calls that write to a stream

A flush that is dropped between taking the data and the end of its attempts
takes the data along; nothing else loses a byte.  A flush that takes the whole
capacity of the buffer leaves no room behind, and no later call makes any.
-/

namespace NyxNet.Sdk

open Future

variable (allocation : Allocation)

def Fate.isInterrupted : Fate → Bool
  | .interrupted => true
  | _ => false

def Fate.isFailed : Fate → Bool
  | .failed _ _ => true
  | _ => false

namespace Session

/-- The poll ends between the lock of the buffer and the end of the attempts to
send. -/
def cutsShort (session : Session) : List Answer → Bool
  | [] => false
  | _ :: rest => (session.fate rest).isInterrupted

/-- The flush gets the lock of the buffer and does not end in an error. -/
def keepsTaken (session : Session) : List Answer → Bool
  | [] => false
  | _ :: rest => !(session.fate rest).isFailed

/-- After a delivery there are answers left for the lock of the state. -/
def closesAfter (session : Session) : List Answer → Bool
  | [] => false
  | _ :: rest =>
      match session.fate rest with
      | .delivered left =>
          (if session.stream.options.collectStats then 1 else 0) < left.length
      | _ => false

end Session

/-- A close is a flush of the closed stream. -/
theorem poll_close (session : Session) (answers : List Answer) :
    (poll (close allocation) session .lockingState answers).1.1 =
      match answers with
      | [] => session
      | _ :: rest =>
          (flush allocation (session.withState .closed) rest).1.1 := by
  cases answers with
  | nil => rfl
  | cons answer rest =>
      have goesOn : poll (close allocation) session .lockingState
          (answer :: rest) = poll (close allocation)
            (session.withState .closed) (.flushing .lockingBuffer) rest := rfl
      have awaited := poll_await (flushInternal allocation) (close allocation)
        CloseAt.flushing afterFlush (fun _ _ _ => rfl)
        (session.withState .closed) .lockingBuffer rest
      simp only [goesOn, awaited, flush]
      rcases poll (flushInternal allocation) (session.withState .closed)
        .lockingBuffer rest with ⟨⟨after, polled⟩, left⟩
      cases polled with
      | pending place => rfl
      | ready result =>
          cases result with
          | error error => rfl
          | ok value =>
              cases left with
              | nil => rfl
              | cons answer more => rfl

theorem perform_close (session : Session) (polls : List (List Answer)) :
    (perform allocation session (.close polls)).2 =
      (poll (close allocation) session .lockingState polls.flatten).1.1 := by
  simp only [perform, pollAll_eq_poll]
  rcases poll (close allocation) session .lockingState polls.flatten with
    ⟨⟨after, polled⟩, left⟩
  cases polled <;> rfl

variable {allocation} in
/-- A flush that returns `Ok` leaves an empty buffer. -/
theorem content_of_flushed {session after : Session} {answers left : List Answer}
    (flushed : flush allocation session answers =
      ((after, .ready (.ok ())), left)) : after.buffer.content = [] := by
  have flushes := flush_flushes allocation session answers
  rw [flushed] at flushes
  generalize same : ((after, Polled.ready (Except.ok ())), left) = ending
    at flushes
  cases flushes with
  | waiting => cases same
  | nothing answer left empty =>
      cases same
      exact empty
  | interrupted => cases same
  | failed => cases same
  | delivered answer rest left full sent =>
      unfold recordSent at same
      split at same
      · split at same
        · cases same
        · cases same
          rfl
      · cases same
        rfl

/-- Closing a stream without buffered bytes changes nothing but its state. -/
theorem close_of_empty {session : Session} (empty : session.buffer.content = [])
    (answers : List Answer) :
    (poll (close allocation) session .lockingState answers).1.1 =
      match answers with
      | [] => session
      | _ :: _ => session.withState .closed := by
  rw [poll_close]
  cases answers with
  | nil => rfl
  | cons answer rest =>
      cases rest with
      | nil => rfl
      | cons lock more =>
          have stillEmpty : (session.withState .closed).buffer.content = [] :=
            empty
          simp only [flush, poll, flushInternal, stillEmpty, if_true]

/-- What `poll_shutdown` leaves: a failed or pending flush, or a flushed stream
that is closed if there are answers left. -/
theorem perform_pollShutdown (session : Session) (answers : List Answer) :
    (perform allocation session (.pollShutdown answers)).2 =
      match flush allocation session answers with
      | ((after, .ready (.ok ())), _ :: _) => after.withState .closed
      | ((after, _), _) => after := by
  simp only [perform]
  cases flushed : flush allocation session answers with
  | mk ending left =>
      obtain ⟨after, polled⟩ := ending
      cases polled with
      | pending place => rfl
      | ready result =>
          cases result with
          | error error => rfl
          | ok value =>
              have closed := close_of_empty allocation
                (content_of_flushed flushed) left
              cases left <;> exact closed

/-- What was delivered and what is buffered come from what was accepted, in
order. -/
def Ordered (session : Session) : Prop :=
  (session.delivered ++ session.buffer.content).Sublist session.accepted

/-- And nothing is missing. -/
def Intact (session : Session) : Prop :=
  session.delivered ++ session.buffer.content = session.accepted

/-- The call drops a flush that has data in hand. -/
def Loses (session : Session) (call : Call) : Prop :=
  session.buffer.content ≠ [] ∧
    match call with
    | .pollWrite _ _ _ => False
    | .pollFlush answers => session.cutsShort answers = true
    | .close polls => session.cutsShort polls.flatten.tail = true
    | .pollShutdown answers => session.cutsShort answers = true

theorem Ordered.congr {before : Session} (ordered : Ordered before)
    (after : Session) (accepted : after.accepted = before.accepted)
    (kept : after.delivered ++ after.buffer.content =
      before.delivered ++ before.buffer.content) :
    Ordered after ∧ (Intact after ↔ Intact before) := by
  unfold Ordered Intact
  rw [accepted, kept]
  exact ⟨ordered, Iff.rfl⟩

/-- Without the content of a full buffer a session is not intact. -/
theorem Ordered.lost {before : Session} (ordered : Ordered before)
    (after : Session) (accepted : after.accepted = before.accepted)
    (delivered : after.delivered = before.delivered)
    (full : before.buffer.content ≠ []) (empty : after.buffer.content = []) :
    Ordered after ∧ ¬ Intact after := by
  have shorter : after.delivered.length < before.accepted.length := by
    have bound := ordered.length_le
    have positive := List.length_pos_iff.mpr full
    rw [List.length_append] at bound
    rw [delivered]
    omega
  unfold Ordered Intact
  rw [empty, List.append_nil, accepted]
  refine ⟨?_, ?_⟩
  · rw [delivered]
    exact (List.sublist_append_left _ _).trans ordered
  · intro whole
    rw [whole] at shorter
    exact Nat.lt_irrefl _ shorter

theorem putBack_split (buffer : BytesMut) :
    (putBack allocation buffer.content buffer.split.2).content =
      buffer.content := by
  rw [putBack, BytesMut.content_extendFromSlice]
  exact List.append_nil _

/-- Whether the statistics were updated or not. -/
theorem recordSent_session (session : Session) (bytesToSend : Nat)
    (left : List Answer) :
    (recordSent session bytesToSend left).1.1.accepted = session.accepted ∧
      (recordSent session bytesToSend left).1.1.delivered =
        session.delivered ∧
      (recordSent session bytesToSend left).1.1.buffer = session.buffer ∧
      (recordSent session bytesToSend left).1.1.stream.state =
        session.stream.state := by
  unfold recordSent
  split
  · cases left with
    | nil => exact ⟨rfl, rfl, rfl, rfl⟩
    | cons lock more => exact ⟨rfl, rfl, rfl, rfl⟩
  · exact ⟨rfl, rfl, rfl, rfl⟩

theorem flush_exact {session : Session} (ordered : Ordered session)
    (answers : List Answer) :
    Ordered (flush allocation session answers).1.1 ∧
      (Intact (flush allocation session answers).1.1 ↔
        Intact session ∧ ¬ (session.buffer.content ≠ [] ∧
          session.cutsShort answers = true)) := by
  have flushes := flush_flushes allocation session answers
  generalize flush allocation session answers = ending at flushes
  cases flushes with
  | waiting => exact ⟨ordered, by simp [Session.cutsShort]⟩
  | nothing answer left empty => exact ⟨ordered, by simp [empty]⟩
  | interrupted answer rest place full cut =>
      obtain ⟨kept, missing⟩ := ordered.lost
        (session.withBuffer session.buffer.split.2) rfl rfl full rfl
      refine ⟨kept, ?_⟩
      have cutsShort : session.cutsShort (answer :: rest) = true := by
        rw [Session.cutsShort, cut]
        rfl
      simp [missing, full, cutsShort]
  | delivered answer rest left full sent =>
      obtain ⟨accepted, delivered, buffer, _⟩ := recordSent_session
        ((session.withBuffer session.buffer.split.2).deliver
          session.buffer.content) session.buffer.content.length left
      obtain ⟨kept, same⟩ := ordered.congr _ accepted (by
        rw [delivered, buffer]
        exact List.append_nil _)
      refine ⟨kept, same.trans (iff_self_and.mpr ?_)⟩
      intro _ lossy
      simp [Session.cutsShort, sent, Fate.isInterrupted] at lossy
  | failed answer rest left error full refused =>
      obtain ⟨kept, same⟩ := ordered.congr
        (session.withBuffer (putBack allocation session.buffer.content
          session.buffer.split.2)) rfl (by
            rw [Session.buffer_withBuffer, putBack_split]
            rfl)
      refine ⟨kept, same.trans (iff_self_and.mpr ?_)⟩
      intro _ lossy
      simp [Session.cutsShort, refused, Fate.isInterrupted] at lossy

theorem Ordered.close {session : Session} (ordered : Ordered session) :
    Ordered (session.withState .closed) ∧
      (Intact (session.withState .closed) ↔ Intact session) :=
  ordered.congr _ rfl rfl

theorem pollWrite_exact {session : Session} (ordered : Ordered session)
    (buf : Bytes) (stateFree bufferFree : Bool) :
    Ordered (perform allocation session
        (.pollWrite buf stateFree bufferFree)).2 ∧
      (Intact (perform allocation session
        (.pollWrite buf stateFree bufferFree)).2 ↔ Intact session) := by
  have unmoved : Ordered { session with
      stream := session.stream, accepted := session.accepted ++ [] } ∧
      (Intact { session with
        stream := session.stream, accepted := session.accepted ++ [] } ↔
        Intact session) :=
    ordered.congr _ (List.append_nil _) rfl
  simp only [perform]
  unfold NyxStream.pollWrite
  split
  · exact unmoved
  · split
    · split
      · exact unmoved
      · simp only
        split
        · unfold Ordered Intact
          simp only [Session.buffer, acceptedBytes,
            BytesMut.content_extendFromSlice]
          rw [← List.append_assoc, List.append_left_inj]
          exact ⟨ordered.append (List.Sublist.refl _), Iff.rfl⟩
        · exact unmoved
    all_goals exact unmoved

/-- Every call keeps the order, and keeps everything unless it loses data. -/
theorem perform_exact {session : Session} (ordered : Ordered session)
    (call : Call) :
    Ordered (perform allocation session call).2 ∧
      (Intact (perform allocation session call).2 ↔
        Intact session ∧ ¬ Loses session call) := by
  cases call with
  | pollWrite buf stateFree bufferFree =>
      obtain ⟨kept, same⟩ := pollWrite_exact allocation ordered
        buf stateFree bufferFree
      exact ⟨kept, by simp [same, Loses]⟩
  | pollFlush answers => exact flush_exact allocation ordered answers
  | close polls =>
      rw [perform_close, poll_close]
      simp only [Loses]
      cases polls.flatten with
      | nil => exact ⟨ordered, by simp [Session.cutsShort]⟩
      | cons answer rest =>
          obtain ⟨closed, same⟩ := ordered.close
          obtain ⟨kept, exact⟩ := flush_exact allocation closed rest
          refine ⟨kept, exact.trans (and_congr same ?_)⟩
          cases rest <;> exact Iff.rfl
  | pollShutdown answers =>
      obtain ⟨kept, exact⟩ := flush_exact allocation ordered
        answers
      rw [perform_pollShutdown]
      split
      · next after answer left flushed =>
          rw [flushed] at kept exact
          obtain ⟨closed, same⟩ := kept.close
          exact ⟨closed, same.trans exact⟩
      · next after polled left _ flushed =>
          rw [flushed] at kept exact
          exact ⟨kept, exact⟩

theorem written_exactly_once_iff (allocation : Allocation) (streamId : UInt32)
    (options : StreamOptions) (calls : List Call) :
    let session := Trace.final (perform allocation)
      (.new allocation streamId options) calls
    session.delivered ++ session.stream.writeBuffer.content =
        session.accepted ↔
      Trace.Along (perform allocation)
        (fun session call => ¬ Loses session call)
        (.new allocation streamId options) calls := by
  have initially : Intact (.new allocation streamId options) := rfl
  have ordered : Ordered (.new allocation streamId options) :=
    List.Sublist.refl []
  have exact := Trace.final_iff_along Intact
    (fun session call ordered => (perform_exact allocation ordered call).1)
    (fun session call ordered => (perform_exact allocation ordered call).2)
    calls ordered
  exact exact.trans (and_iff_right initially)

/-- The answer of an await that gives nothing. -/
def granted : Answer where
  response := .ok ⟨true, ""⟩
  elapsed := Duration.fromSecs 0
  reportedElapsed := Duration.fromSecs 0

/-- A poll of a flush that gets its locks, while the daemon has not answered
yet. -/
def unansweredFlush : Call := .pollFlush [granted, granted]

/-- A flush is polled while its call of the daemon is under way, and polled
again: the byte is gone. -/
theorem pending_flush_loses_byte :
    let calls := [.pollWrite [7] true true, unansweredFlush, unansweredFlush]
    let session := Trace.final (perform .tight) (.new .tight 1 .default) calls
    session.accepted = [7] ∧ session.delivered = [] ∧
      session.stream.writeBuffer.content = [] ∧
      ¬ session.delivered ++ session.stream.writeBuffer.content =
        session.accepted := by
  decide +kernel

/-- The open stream takes something of every write once its buffer is empty. -/
def Writable (allocation : Allocation) (session : Session) : Prop :=
  session.stream.state = .open → session.stream.writeBuffer.content = [] →
    ∀ buf ≠ [], ∃ count, 1 ≤ count ∧
      (session.stream.pollWrite allocation buf true true).1 =
        .ready (.ok count)

/-- `Writable` in terms of the capacity. -/
def Roomy (session : Session) : Prop :=
  session.stream.state = .open → session.buffer.content = [] →
    0 < session.buffer.capacity

theorem writable_iff_roomy (session : Session) :
    Writable allocation session ↔ Roomy session := by
  refine forall_congr' fun isOpen => forall_congr' fun empty => ?_
  have room : session.stream.writeBuffer.room =
      session.stream.writeBuffer.capacity := by
    rw [BytesMut.room, empty]
    rfl
  simp only [NyxStream.pollWrite, isOpen, room, Bool.true_eq_false, if_false]
  constructor
  · intro takes
    obtain ⟨count, positive, taken⟩ := takes [0] (List.cons_ne_nil _ _)
    by_contra none
    have nothing : session.stream.writeBuffer.capacity = 0 :=
      Nat.eq_zero_of_not_pos none
    simp [nothing] at taken
  · intro positive buf given
    have some : 0 < min buf.length session.stream.writeBuffer.capacity :=
      lt_min (List.length_pos_iff.mpr given) positive
    exact ⟨_, some, by rw [if_pos some]⟩

/-- The call takes the whole capacity out of the buffer of an open stream and
leaves the stream open. -/
def Wedges (session : Session) (call : Call) : Prop :=
  (session.stream.state = .open ∧ session.buffer.content ≠ [] ∧
      session.buffer.content.length = session.buffer.capacity) ∧
    match call with
    | .pollWrite _ _ _ => False
    | .pollFlush answers => session.keepsTaken answers = true
    | .close _ => False
    | .pollShutdown answers =>
        session.keepsTaken answers = true ∧ session.closesAfter answers = false

instance Wedges.decidable (session : Session) :
    (call : Call) → Decidable (Wedges session call)
  | .pollWrite _ _ _ => inferInstanceAs (Decidable (_ ∧ False))
  | .pollFlush _ => inferInstanceAs (Decidable (_ ∧ _ = true))
  | .close _ => inferInstanceAs (Decidable (_ ∧ False))
  | .pollShutdown _ => inferInstanceAs (Decidable (_ ∧ _ = true ∧ _ = false))

/-- What is left of a buffer whose content was split off. -/
theorem roomy_of_split {before after : Session}
    (full : before.buffer.content ≠ [])
    (buffer : after.buffer = before.buffer.split.2)
    (state : after.stream.state = before.stream.state) :
    Roomy after ↔ ¬ (before.stream.state = .open ∧
      before.buffer.content ≠ [] ∧
        before.buffer.content.length = before.buffer.capacity) := by
  have fits := before.buffer.fits
  have capacity : after.buffer.capacity =
      before.buffer.capacity - before.buffer.content.length := by
    rw [buffer]
    rfl
  have empty : after.buffer.content = [] := by
    rw [buffer]
    rfl
  unfold Roomy
  rw [state, capacity]
  constructor
  · intro roomy wedged
    obtain ⟨isOpen, -, whole⟩ := wedged
    have room := roomy isOpen empty
    omega
  · intro partly isOpen _
    by_contra none
    exact partly ⟨isOpen, full, by omega⟩

theorem flush_roomy_iff {session : Session} (roomy : Roomy session)
    (answers : List Answer) :
    Roomy (flush allocation session answers).1.1 ↔
      ¬ Wedges session (.pollFlush answers) := by
  have flushes := flush_flushes allocation session answers
  generalize flush allocation session answers = ending at flushes
  unfold Wedges
  cases flushes with
  | waiting => simp [roomy, Session.keepsTaken]
  | nothing answer left empty => simp [roomy, empty]
  | interrupted answer rest place full cut =>
      have kept : session.keepsTaken (answer :: rest) = true := by
        rw [Session.keepsTaken, cut]
        rfl
      simp only [kept, and_true]
      exact roomy_of_split full rfl rfl
  | delivered answer rest left full sent =>
      have kept : session.keepsTaken (answer :: rest) = true := by
        rw [Session.keepsTaken, sent]
        rfl
      obtain ⟨_, _, buffer, state⟩ := recordSent_session
        ((session.withBuffer session.buffer.split.2).deliver
          session.buffer.content) session.buffer.content.length left
      simp only [kept, and_true]
      exact roomy_of_split full buffer state
  | failed answer rest left error full refused =>
      have putBack : session.keepsTaken (answer :: rest) = false := by
        rw [Session.keepsTaken, refused]
        rfl
      simp only [putBack, Bool.false_eq_true, and_false, not_false_iff,
        iff_true]
      intro _ empty
      rw [Session.buffer_withBuffer, putBack_split] at empty
      exact absurd empty full

theorem roomy_closed {session : Session}
    (closed : session.stream.state = .closed) : Roomy session := by
  intro isOpen
  rw [closed] at isOpen
  cases isOpen

/-- A flush does not open a stream. -/
theorem flush_state (session : Session) (answers : List Answer) :
    (flush allocation session answers).1.1.stream.state =
      session.stream.state := by
  have flushes := flush_flushes allocation session answers
  generalize flush allocation session answers = ending at flushes
  cases flushes with
  | delivered answer rest left full sent =>
      exact (recordSent_session _ _ left).2.2.2
  | _ => rfl

theorem pollWrite_roomy {session : Session} (roomy : Roomy session)
    (buf : Bytes) (stateFree bufferFree : Bool) :
    Roomy (perform allocation session
      (.pollWrite buf stateFree bufferFree)).2 := by
  simp only [perform]
  unfold NyxStream.pollWrite
  split
  · exact roomy
  · split
    · split
      · exact roomy
      · simp only
        split
        · intro isOpen empty
          simp only [Session.buffer, BytesMut.content_extendFromSlice,
            List.append_eq_nil_iff] at empty
          have room := roomy isOpen empty.1
          have fits : (buf.take (min buf.length
              session.stream.writeBuffer.room)).length ≤
                session.stream.writeBuffer.room := by
            rw [List.length_take]
            omega
          rw [Session.buffer, BytesMut.capacity_extendFromSlice fits]
          exact room
        · exact roomy
    all_goals exact roomy

variable {allocation} in
/-- A shutdown closes what it has flushed when there are answers left. -/
theorem closesAfter_iff {session after : Session} {answers left : List Answer}
    {polled : Polled FlushAt (Except NyxError Unit)}
    (full : session.buffer.content ≠ [])
    (flushed : flush allocation session answers = ((after, polled), left)) :
    session.closesAfter answers = true ↔
      polled = .ready (.ok ()) ∧ left ≠ [] := by
  have flushes := flush_flushes allocation session answers
  rw [flushed] at flushes
  generalize same : ((after, polled), left) = ending at flushes
  cases flushes with
  | waiting =>
      cases same
      simp [Session.closesAfter]
  | nothing answer left empty => exact absurd empty full
  | interrupted answer rest place full cut =>
      cases same
      simp [Session.closesAfter, cut]
  | failed answer rest left error full refused =>
      cases same
      simp [Session.closesAfter, refused]
  | delivered answer rest left full sent =>
      have options : ((session.withBuffer session.buffer.split.2).deliver
          session.buffer.content).stream.options = session.stream.options := rfl
      simp only [Session.closesAfter, sent]
      unfold recordSent at same
      rw [options] at same
      split at same
      · next collects =>
          cases left with
          | nil =>
              cases same
              simp
          | cons lock more =>
              cases same
              simp [collects, List.length_pos_iff]
      · next ignores =>
          cases same
          simp [ignores, List.length_pos_iff]

theorem pollShutdown_roomy_iff {session : Session} (roomy : Roomy session)
    (answers : List Answer) :
    Roomy (perform allocation session (.pollShutdown answers)).2 ↔
      ¬ Wedges session (.pollShutdown answers) := by
  have flushed := flush_roomy_iff allocation roomy answers
  rw [perform_pollShutdown]
  by_cases full : session.buffer.content = []
  · have still : Roomy (flush allocation session answers).1.1 :=
      flushed.mpr (by simp [Wedges, full])
    have quiet : ¬ Wedges session (.pollShutdown answers) := by
      simp [Wedges, full]
    simp only [quiet, not_false_iff, iff_true]
    split
    · exact roomy_closed rfl
    · next after polled left _ ending =>
        rw [ending] at still
        exact still
  · unfold Wedges at flushed ⊢
    split
    · next after answer left ending =>
        have closes := (closesAfter_iff full ending).mpr
          ⟨rfl, List.cons_ne_nil _ _⟩
        simp only [closes, Bool.true_eq_false, and_false, not_false_iff,
          iff_true]
        exact roomy_closed rfl
    · next after polled left notClosed ending =>
        have stays : session.closesAfter answers = false := by
          rw [Bool.eq_false_iff]
          intro closes
          obtain ⟨isReady, some⟩ := (closesAfter_iff full ending).mp closes
          obtain ⟨first, more, rfl⟩ := List.exists_cons_of_ne_nil some
          exact notClosed first more rfl isReady
        rw [ending] at flushed
        simpa only [stays, and_true] using flushed

theorem perform_roomy_iff {session : Session} (roomy : Roomy session)
    (call : Call) :
    Roomy (perform allocation session call).2 ↔ ¬ Wedges session call := by
  cases call with
  | pollWrite buf stateFree bufferFree =>
      simp only [Wedges, and_false, not_false_iff, iff_true]
      exact pollWrite_roomy allocation roomy buf stateFree bufferFree
  | pollFlush answers => exact flush_roomy_iff allocation roomy answers
  | close polls =>
      simp only [Wedges, and_false, not_false_iff, iff_true]
      rw [perform_close, poll_close]
      cases polls.flatten with
      | nil => exact roomy
      | cons answer rest =>
          exact roomy_closed
            (flush_state allocation (session.withState .closed) rest)
  | pollShutdown answers => exact pollShutdown_roomy_iff allocation roomy answers

theorem writer_never_wedged_iff (allocation : Allocation) (streamId : UInt32)
    (options : StreamOptions) (positive : 1 ≤ options.bufferSize)
    (calls : List Call) :
    (∀ before, before <+: calls →
        let stream := (Trace.final (perform allocation)
          (.new allocation streamId options) before).stream
        stream.state = .open → stream.writeBuffer.content = [] →
          ∀ buf ≠ [], ∃ count, 1 ≤ count ∧
            (stream.pollWrite allocation buf true true).1 =
              .ready (.ok count)) ↔
      Trace.Along (perform allocation)
        (fun session call => ¬ Wedges session call)
        (.new allocation streamId options) calls := by
  have initially : Roomy (.new allocation streamId options) := by
    intro _ _
    exact Nat.lt_of_lt_of_le positive (allocation.enough _)
  refine Trace.throughout_iff (fun _ _ => True)
    (fun _ session => Writable allocation session) (fun _ _ => trivial) ?_ ?_
  · exact (writable_iff_roomy allocation _).mpr initially
  · intro past session call _ _ writable
    have roomy := (writable_iff_roomy allocation session).mp writable
    exact (writable_iff_roomy allocation _).trans
      (perform_roomy_iff allocation roomy call)

/-- A stream with room for two bytes. -/
def smallOptions : StreamOptions :=
  { StreamOptions.default with bufferSize := 2 }

/-- A flush whose call of the daemon succeeds at once. -/
def successfulFlush : Call :=
  .pollFlush [granted, granted, granted, granted]

theorem writer_never_wedged_one_byte :
    let stream := (Trace.final (perform .tight) (.new .tight 1 smallOptions)
      [.pollWrite [7] true true, successfulFlush]).stream
    ∀ buf ≠ [], ∃ count, 1 ≤ count ∧
      (stream.pollWrite .tight buf true true).1 = .ready (.ok count) := by
  have along : Trace.Along (perform .tight)
      (fun session call => ¬ Wedges session call) (.new .tight 1 smallOptions)
      [.pollWrite [7] true true, successfulFlush] := by
    refine ⟨?_, ?_, trivial⟩
    · intro wedges
      exact wedges.2
    · intro wedges
      revert wedges
      decide +kernel
  exact (writer_never_wedged_iff .tight 1 smallOptions (by decide) _).mpr along
    _ (List.prefix_refl _) (by decide +kernel) (by decide +kernel)

/-- Two bytes through a buffer for two bytes, and no byte passes any more. -/
theorem wedged_after_capacity :
    ¬ ∀ before, before <+: [.pollWrite [7, 8] true true, successfulFlush] →
        let stream := (Trace.final (perform .tight)
          (.new .tight 1 smallOptions) before).stream
        stream.state = .open → stream.writeBuffer.content = [] →
          ∀ buf ≠ [], ∃ count, 1 ≤ count ∧
            (stream.pollWrite .tight buf true true).1 = .ready (.ok count) := by
  intro always
  obtain ⟨count, _, taken⟩ := always _ (List.prefix_refl _)
    (by decide +kernel) (by decide +kernel) [9] (List.cons_ne_nil _ _)
  have refused : ((Trace.final (perform .tight) (.new .tight 1 smallOptions)
      [.pollWrite [7, 8] true true, successfulFlush]).stream.pollWrite .tight
        [9] true true).1 = .pending := by
    decide +kernel
  rw [refused] at taken
  cases taken

end NyxNet.Sdk
