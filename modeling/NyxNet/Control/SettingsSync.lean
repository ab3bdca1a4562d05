import NyxNet.Lib.Trace
import NyxNet.Stream.Settings

/-!
# Settings synchronisation

The task of `spawn_settings_sync` in `nyx-control/src/settings_sync.rs`.  It
selects between a watch channel with the local settings and a channel of
commands, and sends SETTINGS frames to the peers that were registered with it.
The local side, the peers and the callers that submit commands act between any
two steps of the task.  An action that cannot be taken leaves the state as it
is.
-/

namespace NyxNet.Control

open NyxNet.Settings

variable {π : Type} [DecidableEq π]

/-- The frame built for the given settings. -/
def settingsFrame (settings : StreamSettings) : Bytes :=
  buildSettingsFrame settings.toFrame.settings

/-- A watch channel with the version that its receiver has marked as seen. -/
structure Watch where
  value : StreamSettings
  version : Nat
  seen : Nat
  senderAlive : Bool
  deriving DecidableEq, Repr

/-- `changed()` is ready.  It also is, with an error that the task ignores,
once the sender is gone. -/
def Watch.Ready (watch : Watch) : Prop :=
  watch.version ≠ watch.seen ∨ watch.senderAlive = false

instance (watch : Watch) : Decidable watch.Ready :=
  inferInstanceAs (Decidable (_ ∨ _))

def Watch.send (watch : Watch) (value : StreamSettings) : Watch :=
  if watch.senderAlive then
    { watch with value := value, version := watch.version + 1 }
  else watch

/-- What `changed()` and `borrow_and_update()` do to the seen version. -/
def Watch.markSeen (watch : Watch) : Watch :=
  { watch with seen := watch.version }

/-- The bounded channel to a peer.  `accepted` lists every frame that was ever
sent into it. -/
structure PeerChannel where
  capacity : Nat
  queued : List Bytes
  isClosed : Bool
  accepted : List Bytes
  deriving DecidableEq, Repr

def PeerChannel.Accepts (channel : PeerChannel) : Prop :=
  channel.isClosed = false ∧ channel.queued.length < channel.capacity

instance (channel : PeerChannel) : Decidable channel.Accepts :=
  inferInstanceAs (Decidable (_ ∧ _))

def PeerChannel.trySend (channel : PeerChannel) (frame : Bytes) :
    Bool × PeerChannel :=
  if channel.Accepts then
    (true, { channel with
      queued := channel.queued ++ [frame]
      accepted := channel.accepted ++ [frame] })
  else (false, channel)

inductive SettingsCmd (π : Type) where
  | inbound (bytes : Bytes)
  | registerTx (peer : π)
  deriving DecidableEq, Repr

/-- Where the task stands: before its first statement, in `select!`, or in the
branch of `changed()` before the value is borrowed. -/
inductive Phase where
  | starting
  | selecting
  | borrowing
  deriving DecidableEq, Repr

structure SyncState (π : Type) where
  localRx : Watch
  commands : List (SettingsCmd π)
  phase : Phase
  peers : List π
  current : StreamSettings
  frameBytes : Bytes
  channels : π → PeerChannel

/-- `peers.retain(|tx| tx.try_send(frame_bytes.clone()).is_ok())`. -/
def retainSending (frame : Bytes) :
    List π → (π → PeerChannel) → List π × (π → PeerChannel)
  | [], channels => ([], channels)
  | peer :: peers, channels =>
      let (isOk, channel) := (channels peer).trySend frame
      let (kept, channels) :=
        retainSending frame peers (Function.update channels peer channel)
      (if isOk then peer :: kept else kept, channels)

namespace SyncState

/-- `spawn_settings_sync`: the task has been spawned and has not run yet. -/
def spawn (localRx : Watch) (channels : π → PeerChannel) : SyncState π :=
  { localRx, commands := [], phase := .starting, peers := [],
    current := .initial, frameBytes := [], channels }

/-- The statements before the loop. -/
def start (state : SyncState π) : SyncState π :=
  if state.phase = .starting then
    { state with
      phase := .selecting
      current := state.localRx.value
      frameBytes := settingsFrame state.localRx.value }
  else state

/-- The branch of `changed()` is taken. -/
def observe (state : SyncState π) : SyncState π :=
  if state.phase = .selecting ∧ state.localRx.Ready then
    { state with
      phase := .borrowing
      localRx := state.localRx.markSeen }
  else state

/-- The body of that branch. -/
def broadcast (state : SyncState π) : SyncState π :=
  if state.phase = .borrowing then
    let frame := settingsFrame state.localRx.value
    let (peers, channels) := retainSending frame state.peers state.channels
    { state with
      phase := .selecting
      current := state.localRx.value
      frameBytes := frame
      peers, channels }
  else state

/-- The arms of `match cmd`. -/
def handle (state : SyncState π) : SettingsCmd π → SyncState π
  | .inbound bytes =>
      match parseSettingsFrame bytes with
      | .ok (_, frame) =>
          { state with
            current := state.current.apply frame
            localRx := state.localRx.markSeen }
      | .error _ => state
  | .registerTx peer =>
      { state with
        channels := Function.update state.channels peer
          ((state.channels peer).trySend state.frameBytes).2
        peers := state.peers ++ [peer] }

/-- The branch of `cmd_rx.recv()` is taken. -/
def receive (state : SyncState π) : SyncState π :=
  match state.phase, state.commands with
  | .selecting, command :: commands =>
      handle { state with commands := commands } command
  | _, _ => state

/-- A caller's `send` into the channel of commands, which holds 32. -/
def submit (state : SyncState π) (command : SettingsCmd π) : SyncState π :=
  if state.commands.length < 32 then
    { state with commands := state.commands ++ [command] }
  else state

end SyncState

inductive Action (π : Type) where
  | start
  | observe
  | broadcast
  | receive
  | change (value : StreamSettings)
  | dropSender
  | submit (command : SettingsCmd π)
  | take (peer : π)
  | close (peer : π)
  deriving DecidableEq, Repr

def act (state : SyncState π) : Action π → Unit × SyncState π
  | .start => ((), state.start)
  | .observe => ((), state.observe)
  | .broadcast => ((), state.broadcast)
  | .receive => ((), state.receive)
  | .change value =>
      ((), { state with localRx := state.localRx.send value })
  | .dropSender =>
      ((), { state with
        localRx := { state.localRx with senderAlive := false } })
  | .submit command => ((), state.submit command)
  | .take peer =>
      let channel := state.channels peer
      ((), { state with
        channels := Function.update state.channels peer
          { channel with queued := channel.queued.tail } })
  | .close peer =>
      ((), { state with
        channels := Function.update state.channels peer
          { state.channels peer with isClosed := true } })

def PeerChannel.lastFrame (channel : PeerChannel) : Option Bytes :=
  channel.accepted.getLast?

theorem PeerChannel.lastFrame_trySend {channel : PeerChannel}
    (accepts : channel.Accepts) (frame : Bytes) :
    (channel.trySend frame).2.lastFrame = some frame := by
  rw [trySend, if_pos accepts]
  exact List.getLast?_concat

theorem PeerChannel.lastFrame_of_isOk {channel : PeerChannel}
    {frame : Bytes} (isOk : (channel.trySend frame).1 = true) :
    (channel.trySend frame).2.lastFrame = some frame := by
  by_cases accepts : channel.Accepts
  · exact lastFrame_trySend accepts frame
  · rw [trySend, if_neg accepts] at isOk
    cases isOk

/-- Sending once more the frame that was sent last changes nothing about the
last frame, whether or not it is accepted. -/
theorem PeerChannel.lastFrame_trySend_again {channel : PeerChannel}
    {frame : Bytes} (isLast : channel.lastFrame = some frame) :
    (channel.trySend frame).2.lastFrame = some frame := by
  by_cases accepts : channel.Accepts
  · exact lastFrame_trySend accepts frame
  · rw [trySend, if_neg accepts]
    exact isLast

theorem lastFrame_retainSending_of_last {frame : Bytes} {peer : π}
    (peers : List π) {channels : π → PeerChannel}
    (isLast : (channels peer).lastFrame = some frame) :
    ((retainSending frame peers channels).2 peer).lastFrame =
      some frame := by
  induction peers generalizing channels with
  | nil => exact isLast
  | cons next peers ih =>
      apply ih
      by_cases same : peer = next
      · subst same
        rw [Function.update_self]
        exact PeerChannel.lastFrame_trySend_again isLast
      · rw [Function.update_of_ne same]
        exact isLast

/-- A peer that the broadcast keeps got the frame. -/
theorem lastFrame_retainSending {frame : Bytes} {peer : π}
    (peers : List π) {channels : π → PeerChannel}
    (kept : peer ∈ (retainSending frame peers channels).1) :
    ((retainSending frame peers channels).2 peer).lastFrame =
      some frame := by
  induction peers generalizing channels with
  | nil => cases kept
  | cons next peers ih =>
      simp only [retainSending] at kept ⊢
      split at kept
      · rename_i isOk
        rcases List.mem_cons.mp kept with isNext | later
        · subst isNext
          apply lastFrame_retainSending_of_last
          rw [Function.update_self]
          exact PeerChannel.lastFrame_of_isOk isOk
        · exact ih later
      · exact ih kept

/-- A channel is replaced by one that ends in the same frame. -/
theorem lastFrame_update {channels : π → PeerChannel} {peer : π}
    {channel : PeerChannel}
    (same : channel.lastFrame = (channels peer).lastFrame) (other : π) :
    (Function.update channels peer channel other).lastFrame =
      (channels other).lastFrame := by
  by_cases isPeer : other = peer
  · subst isPeer
    rw [Function.update_self, same]
  · rw [Function.update_of_ne isPeer]

/-- No branch of `select!` is ready. -/
structure Idle (state : SyncState π) : Prop where
  selecting : state.phase = .selecting
  unchanged : ¬ state.localRx.Ready
  drained : state.commands = []

/-- Every registered peer was last sent the latest local settings. -/
def InSync (state : SyncState π) : Prop :=
  ∀ peer ∈ state.peers, ∃ frame,
    (state.channels peer).lastFrame = some frame ∧
      Encodes frame state.localRx.value

/-- A peer's channel has room when the peer is registered. -/
def HasRoomFor (state : SyncState π) : SettingsCmd π → Prop
  | .inbound _ => True
  | .registerTx peer => (state.channels peer).Accepts

/-- An inbound frame does not overtake a local change: the version of the
local settings has been seen, or the frame last built already is the one for
the current value. -/
def NotOvertaking (state : SyncState π) : SettingsCmd π → Prop
  | .inbound bytes => (parseSettingsFrame bytes).isOk = true →
      state.localRx.version = state.localRx.seen ∨
        state.frameBytes = settingsFrame state.localRx.value
  | .registerTx _ => True

/-- A condition on the command that is taken. -/
def OnReceive (condition : SyncState π → SettingsCmd π → Prop)
    (state : SyncState π) : Action π → Prop
  | .receive => ∀ command ∈ state.commands.head?, condition state command
  | _ => True

instance (state : SyncState π) (command : SettingsCmd π) :
    Decidable (HasRoomFor state command) :=
  match command with
  | .inbound _ => isTrue trivial
  | .registerTx _ => inferInstanceAs (Decidable (PeerChannel.Accepts _))

instance (state : SyncState π) (command : SettingsCmd π) :
    Decidable (NotOvertaking state command) :=
  match command with
  | .inbound _ => inferInstanceAs (Decidable (_ → _))
  | .registerTx _ => isTrue trivial

instance (condition : SyncState π → SettingsCmd π → Prop)
    [∀ state command, Decidable (condition state command)]
    (state : SyncState π) (action : Action π) :
    Decidable (OnReceive condition state action) :=
  match action with
  | .receive => inferInstanceAs (Decidable (∀ command ∈ _, _))
  | .start | .observe | .broadcast | .change _ | .dropSender | .submit _
  | .take _ | .close _ => isTrue trivial

/-- What the task knows: the peers' last frame is the one last built, and the
one last built is current unless a change is still to be seen or handled. -/
structure Synced (state : SyncState π) : Prop where
  unregistered : state.phase = .starting → state.peers = []
  delivered : ∀ peer ∈ state.peers,
    (state.channels peer).lastFrame = some state.frameBytes
  current : state.phase = .selecting →
    state.localRx.version = state.localRx.seen →
      state.frameBytes = settingsFrame state.localRx.value
  seenBefore : state.localRx.seen ≤ state.localRx.version

omit [DecidableEq π] in
theorem Synced.inSync {state : SyncState π} (synced : Synced state)
    (idle : Idle state) : InSync state := by
  have seen : state.localRx.version = state.localRx.seen := by
    by_contra changed
    exact idle.unchanged (Or.inl changed)
  intro peer registered
  refine ⟨state.frameBytes, synced.delivered peer registered, ?_⟩
  rw [synced.current idle.selecting seen]
  exact encodes_build state.localRx.value

omit [DecidableEq π] in
theorem Synced.spawn {localRx : Watch}
    (seenBefore : localRx.seen ≤ localRx.version)
    (channels : π → PeerChannel) : Synced (.spawn localRx channels) where
  unregistered := fun _ => rfl
  delivered := by
    intro peer registered
    cases registered
  current := by
    intro selecting
    cases selecting
  seenBefore := seenBefore

omit [DecidableEq π] in
theorem Synced.start {state : SyncState π} (synced : Synced state) :
    Synced state.start := by
  by_cases starting : state.phase = .starting
  · rw [SyncState.start, if_pos starting]
    refine ⟨?_, ?_, fun _ _ => rfl, synced.seenBefore⟩
    · intro later
      cases later
    · intro peer registered
      rw [synced.unregistered starting] at registered
      cases registered
  · rw [SyncState.start, if_neg starting]
    exact synced

omit [DecidableEq π] in
theorem Synced.observe {state : SyncState π} (synced : Synced state) :
    Synced state.observe := by
  by_cases ready : state.phase = .selecting ∧ state.localRx.Ready
  · rw [SyncState.observe, if_pos ready]
    refine ⟨?_, synced.delivered, ?_, le_refl _⟩
    · intro starting
      cases starting
    · intro selecting
      cases selecting
  · rw [SyncState.observe, if_neg ready]
    exact synced

theorem Synced.broadcast {state : SyncState π} (synced : Synced state) :
    Synced state.broadcast := by
  by_cases borrowing : state.phase = .borrowing
  · rw [SyncState.broadcast, if_pos borrowing]
    refine ⟨?_, ?_, fun _ _ => rfl, synced.seenBefore⟩
    · intro starting
      cases starting
    · intro peer kept
      exact lastFrame_retainSending state.peers kept
  · rw [SyncState.broadcast, if_neg borrowing]
    exact synced

theorem Synced.handle {state : SyncState π} (synced : Synced state)
    (selecting : state.phase = .selecting) {command : SettingsCmd π}
    (room : HasRoomFor state command)
    (notOvertaking : NotOvertaking state command) :
    Synced (state.handle command) := by
  cases command with
  | inbound bytes =>
      rw [SyncState.handle]
      split
      · rename_i frame parsed
        have upToDate :
            state.frameBytes = settingsFrame state.localRx.value := by
          rcases notOvertaking (by rw [parsed]; rfl) with seen | built
          · exact synced.current selecting seen
          · exact built
        exact ⟨synced.unregistered, synced.delivered, fun _ _ => upToDate,
          le_refl _⟩
      · exact synced
  | registerTx peer =>
      refine ⟨?_, ?_, synced.current, synced.seenBefore⟩
      · intro starting
        rw [SyncState.handle, selecting] at starting
        cases starting
      · intro other registered
        simp only [SyncState.handle] at registered ⊢
        by_cases same : other = peer
        · subst same
          rw [Function.update_self]
          exact PeerChannel.lastFrame_trySend room _
        · rw [Function.update_of_ne same]
          apply synced.delivered other
          simpa [same] using registered

theorem Synced.receive {state : SyncState π} (synced : Synced state)
    (room : OnReceive HasRoomFor state .receive)
    (notOvertaking : OnReceive NotOvertaking state .receive) :
    Synced state.receive := by
  rw [SyncState.receive]
  split
  · rename_i command commands selecting pending
    have waiting : Synced { state with commands := commands } :=
      ⟨synced.unregistered, synced.delivered, synced.current,
        synced.seenBefore⟩
    have first : command ∈ state.commands.head? := by
      rw [pending]
      rfl
    refine waiting.handle selecting ?_ ?_
    · cases command with
      | inbound bytes => trivial
      | registerTx peer => exact room _ first
    · cases command with
      | inbound bytes => exact notOvertaking _ first
      | registerTx peer => trivial
  · exact synced

omit [DecidableEq π] in
/-- A step that only the peers take: their channels still end in the same
frames. -/
theorem Synced.of_channels {state : SyncState π} (synced : Synced state)
    {channels : π → PeerChannel}
    (same : ∀ peer, (channels peer).lastFrame =
      (state.channels peer).lastFrame) :
    Synced { state with channels } :=
  ⟨synced.unregistered,
    fun peer registered => (same peer).trans (synced.delivered peer registered),
    synced.current, synced.seenBefore⟩

omit [DecidableEq π] in
theorem Synced.change {state : SyncState π} (synced : Synced state)
    (value : StreamSettings) :
    Synced { state with localRx := state.localRx.send value } := by
  rw [Watch.send]
  split
  · refine ⟨synced.unregistered, synced.delivered, ?_, ?_⟩
    · intro _ seen
      have before := synced.seenBefore
      simp only at seen
      omega
    · exact Nat.le_succ_of_le synced.seenBefore
  · exact synced

theorem Synced.act {state : SyncState π} (synced : Synced state)
    {action : Action π} (room : OnReceive HasRoomFor state action)
    (notOvertaking : OnReceive NotOvertaking state action) :
    Synced (act state action).2 := by
  cases action with
  | start => exact synced.start
  | observe => exact synced.observe
  | broadcast => exact synced.broadcast
  | receive => exact synced.receive room notOvertaking
  | change value => exact synced.change value
  | dropSender =>
      exact ⟨synced.unregistered, synced.delivered, synced.current,
        synced.seenBefore⟩
  | submit command =>
      rw [Control.act, SyncState.submit]
      split
      · exact ⟨synced.unregistered, synced.delivered, synced.current,
          synced.seenBefore⟩
      · exact synced
  | take peer => exact synced.of_channels (lastFrame_update rfl)
  | close peer => exact synced.of_channels (lastFrame_update rfl)

/-- In a run in which no inbound frame overtakes a local change, whenever the
task has nothing left to do, every registered peer was last sent the latest
local settings. -/
theorem idle_inSync {localRx : Watch}
    (seenBefore : localRx.seen ≤ localRx.version)
    (channels : π → PeerChannel) (actions : List (Action π))
    (room : Trace.Along act (OnReceive HasRoomFor) (.spawn localRx channels)
      actions)
    (notOvertaking : Trace.Along act (OnReceive NotOvertaking)
      (.spawn localRx channels) actions) :
    ∀ before, before <+: actions →
      Idle (Trace.final act (.spawn localRx channels) before) →
        InSync (Trace.final act (.spawn localRx channels) before) := by
  intro before isPrefix idle
  have synced : Synced (Trace.final act (.spawn localRx channels) before) := by
    refine Trace.final_invariant_along ?_ before
      ((room.and notOvertaking).front isPrefix)
      (Synced.spawn seenBefore channels)
    intro state action condition synced
    exact synced.act condition.1 condition.2
  exact synced.inSync idle

def raised : StreamSettings :=
  { StreamSettings.initial with maxStreams := 512 }

def pairing : SyncState Unit :=
  .spawn ⟨.initial, 0, 0, true⟩ fun _ => ⟨32, [], false, []⟩

/-- A peer is registered, the local limit of streams is raised, and a frame of
the peer arrives with a setting that nobody knows. -/
def arrivals : List (Action Unit) :=
  [.start, .submit (.registerTx ()), .receive, .change raised,
    .submit (.inbound (buildSettingsFrame [{ id := 0x05, value := 0 }]))]

/-- The change is handled before the frame of the peer. -/
theorem idle_inSync_when_handled_first :
    Idle (Trace.final act pairing
        (arrivals ++ [.observe, .broadcast, .receive])) ∧
      InSync (Trace.final act pairing
        (arrivals ++ [.observe, .broadcast, .receive])) := by
  have idle : Idle (Trace.final act pairing
      (arrivals ++ [.observe, .broadcast, .receive])) :=
    ⟨by decide +kernel, by decide +kernel, by decide +kernel⟩
  exact ⟨idle, idle_inSync (Nat.le_refl 0) _ _ (by decide +kernel)
    (by decide +kernel) _ (List.prefix_refl _) idle⟩

/-- The frame of the peer is taken first and marks the change as seen: the
change is never sent. -/
theorem overtaken_change_is_lost :
    Trace.Along act (OnReceive HasRoomFor) pairing (arrivals ++ [.receive]) ∧
      Idle (Trace.final act pairing (arrivals ++ [.receive])) ∧
      ¬ InSync (Trace.final act pairing (arrivals ++ [.receive])) := by
  refine ⟨by decide +kernel,
    ⟨by decide +kernel, by decide +kernel, by decide +kernel⟩, ?_⟩
  intro inSync
  obtain ⟨frame, isLast, encodes⟩ := inSync () (by decide +kernel)
  have stale : some frame = some (settingsFrame .initial) :=
    isLast.symm.trans (by decide +kernel)
  rw [Option.some.inj stale] at encodes
  have same := (encodes_build .initial).unique encodes
  exact absurd same (by decide +kernel)

end NyxNet.Control
