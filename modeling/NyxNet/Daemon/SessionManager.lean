import NyxNet.Lib.Admission
import NyxNet.Lib.ShardedTable
import NyxNet.Lib.Time

/-!
# The session manager

`SessionManager` of `nyx-daemon/src/session_manager.rs`.  Its methods run
concurrently on a `DashMap`, each access to one of its shards one atomic step; the
length of the map is added up shard by shard.  A call of `create_session` checks
the limit, draws an id and inserts the session in separate steps, and counts the
sessions once more while it holds the lock on the statistics.
-/

namespace NyxNet.Sessions

open KeyedTable TaskPool

abbrev ConnectionId : Type := Vector UInt8 12

inductive SessionState where
  | initializing
  | handshaking
  | active
  | closing
  | closed
  deriving DecidableEq

structure Session where
  id : ConnectionId
  streamId : UInt32
  lastActivity : SystemTime
  state : SessionState
  streamCount : UInt32
  bytesSent : UInt64
  bytesReceived : UInt64
  deriving DecidableEq

structure SessionStatistics where
  totalSessionsCreated : Nat
  activeSessions : UInt32
  expiredSessions : Nat
  deriving DecidableEq

structure SessionManagerConfig where
  maxSessions : UInt32
  sessionTimeoutSecs : UInt64

def SessionManagerConfig.default : SessionManagerConfig where
  maxSessions := 10000
  sessionTimeoutSecs := 300

/-- What the calls share.  The shards of `held` stay locked for reading by calls
that hang, and `counting` is the next shard and the sum that the holder of the
lock on the statistics has come to. -/
structure SessionManager where
  sessions : Table ConnectionId Session
  statistics : SessionStatistics
  held : List Nat
  counting : Option (Nat × Nat)

def SessionManager.new : SessionManager where
  sessions := ∅
  statistics := ⟨0, 0, 0⟩
  held := []
  counting := none

/-- `try_into().unwrap_or(0)`. -/
def asU32 (count : Nat) : UInt32 :=
  if count < 4294967296 then UInt32.ofNat count else 0

/-- A change that a method makes to the session it finds. -/
inductive Update where
  | activity
  | state (newState : SessionState)
  | incrementStreamCount
  | decrementStreamCount
  | trafficStats (bytesSent bytesReceived : UInt64)
  deriving DecidableEq

def Update.apply (now : SystemTime) (session : Session) :
    Update → Except String Session
  | .activity => .ok { session with lastActivity := now }
  | .state newState =>
      .ok { session with state := newState, lastActivity := now }
  | .incrementStreamCount =>
      if 100 ≤ session.streamCount then
        .error "Stream limit reached for session"
      else
        .ok { session with
          streamCount := session.streamCount + 1
          lastActivity := now }
  | .decrementStreamCount =>
      .ok { session with
        streamCount := if 0 < session.streamCount then session.streamCount - 1
          else session.streamCount
        lastActivity := now }
  | .trafficStats bytesSent bytesReceived =>
      .ok { session with
        bytesSent := session.bytesSent + bytesSent
        bytesReceived := session.bytesReceived + bytesReceived
        lastActivity := now }

inductive Request where
  | createSession
  | removeSession (cid : ConnectionId)
  | update (cid : ConnectionId) (update : Update)
  | closeSession (cid : ConnectionId)
  | cleanupExpiredSessions
  deriving DecidableEq

inductive Outcome where
  | created (cid : ConnectionId)
  | removed (session : Option Session)
  | done
  | failed (message : String)
  deriving DecidableEq

/-- How far a call has got.  A check of the limit has come to a shard with the
sum of those before it. -/
inductive Task where
  | checking (shard sum : Nat)
  | generating
  | inserting (cid : ConnectionId)
  | recordingCreated (cid : ConnectionId)
  | countingCreated (cid : ConnectionId)
  | removing (cid : ConnectionId)
  | updating (cid : ConnectionId) (update : Update)
  | closing (cid : ConnectionId)
  | hanging (cid : ConnectionId)
  | startingCleanup
  | scanning (now : SystemTime) (shard : Nat) (expired : List ConnectionId)
  | expiring (now : SystemTime) (expired : List ConnectionId)
  | recordingExpired (now : SystemTime) (expired : List ConnectionId)
  | countingExpired (now : SystemTime) (expired : List ConnectionId)
  | returned (outcome : Outcome)
  deriving DecidableEq

/-- What a step takes from outside: the time, the random id, and which of the
expired sessions comes next, since the order of the map is unknown. -/
structure Input where
  now : SystemTime
  cid : ConnectionId
  choice : Nat
  deriving DecidableEq

inductive Event where
  | readShard (shard : Nat)
  | checked (admitted : Bool)
  | drew (cid : ConnectionId) (taken : Bool)
  | inserted (cid : ConnectionId) (replaced : Bool)
  | lockedStatistics
  | measured (shard : Nat)
  | recorded
  | removed (cid : ConnectionId) (found : Bool)
  | updated (cid : ConnectionId) (changed : Bool)
  | looked (cid : ConnectionId) (found : Bool)
  | startedCleanup
  | scanned (expired : List ConnectionId)
  | scanEnded
  | expired (cid : ConnectionId) (session : Option Session)
      (started now : SystemTime)
  | cleanupEnded
  deriving DecidableEq

/-- The map is iterated one shard after the other, each under its lock. -/
abbrev Shards : Type := KeyedTable.Shards ConnectionId

def newSession (cid : ConnectionId) (now : SystemTime) : Session where
  id := cid
  streamId := 0
  lastActivity := now
  state := .initializing
  streamCount := 0
  bytesSent := 0
  bytesReceived := 0

/-- `now.duration_since(last_activity)` exceeds the timeout. -/
def isExpired (config : SessionManagerConfig) (now : SystemTime)
    (session : Session) : Bool :=
  match now.durationSince session.lastActivity with
  | some elapsed =>
      (Duration.fromSecs config.sessionTimeoutSecs).asNanos < elapsed.asNanos
  | none => false

namespace SessionManager

variable (config : SessionManagerConfig) (shards : Shards)
  (manager : SessionManager)

def withSessions (sessions : Table ConnectionId Session) : SessionManager :=
  { manager with sessions }

/-- No call that hangs keeps the shard of the id from being written. -/
def Writable (cid : ConnectionId) : Prop :=
  (shards.shardOf cid).val ∉ manager.held

instance Writable.decidable (cid : ConnectionId) :
    Decidable (manager.Writable shards cid) :=
  inferInstanceAs (Decidable (¬ _))

def holdShard (cid : ConnectionId) : SessionManager :=
  { manager with held := (shards.shardOf cid).val :: manager.held }

/-- A call takes the lock on the statistics and adds to the totals. -/
def lockStatistics (created expired : Nat) : SessionManager :=
  { manager with
    statistics := { manager.statistics with
      totalSessionsCreated := manager.statistics.totalSessionsCreated + created
      expiredSessions := manager.statistics.expiredSessions + expired }
    counting := some (0, 0) }

/-- The holder of the lock adds the size of a shard. -/
def measureShard (shard sum : Nat) : SessionManager :=
  { manager with
    counting := some (shard + 1, sum + shards.sizeIn manager.sessions shard) }

/-- The holder writes the number and gives the lock back. -/
def record (sum : Nat) : SessionManager :=
  { manager with
    statistics := { manager.statistics with activeSessions := asU32 sum }
    counting := none }

/-- The ids that a shard gives to `expired_sessions`. -/
def expiredIn (now : SystemTime) (shard : Nat) : List ConnectionId :=
  (manager.sessions.entries.filter (fun entry =>
    (shards.shardOf entry.1).val = shard ∧ isExpired config now entry.2)).map
      (fun entry => entry.2.id)

end SessionManager

def launch : Request → Task
  | .createSession => .checking 0 0
  | .removeSession cid => .removing cid
  | .update cid update => .updating cid update
  | .closeSession cid => .closing cid
  | .cleanupExpiredSessions => .startingCleanup

/-- A step of the call that holds the lock on the statistics: the next shard, or
the number is written. -/
def countTurn (shards : Shards) (manager : SessionManager) (task rest : Task) :
    Option (Turn SessionManager Task Event) :=
  match manager.counting with
  | none => none
  | some (shard, sum) =>
      if shard < shards.count then
        next (.measured shard) (manager.measureShard shards shard sum) task
      else
        next .recorded (manager.record sum) rest

/-- The reference that `get` gives to `close_session` is still held when `remove`
asks for the same shard, so a call that finds its session hangs, and from then on
the shard is not written any more. -/
def turn (config : SessionManagerConfig) (shards : Shards)
    (manager : SessionManager) (task : Task) (input : Input) :
    Option (Turn SessionManager Task Event) :=
  match task with
  | .checking shard sum =>
      if shard < shards.count then
        next (.readShard shard) manager
          (.checking (shard + 1) (sum + shards.sizeIn manager.sessions shard))
      else if config.maxSessions.toNat ≤ sum then
        next (.checked false) manager
          (.returned (.failed "Maximum sessions exceeded"))
      else
        next (.checked true) manager .generating
  | .generating =>
      if input.cid ∈ manager.sessions then
        next (.drew input.cid true) manager .generating
      else
        next (.drew input.cid false) manager (.inserting input.cid)
  | .inserting cid =>
      if manager.Writable shards cid then
        next (.inserted cid (cid ∈ manager.sessions))
          (manager.withSessions (manager.sessions.insert cid
            (newSession cid input.now)))
          (.recordingCreated cid)
      else none
  | .recordingCreated cid =>
      if manager.counting.isSome then none
      else
        next .lockedStatistics (manager.lockStatistics 1 0)
          (.countingCreated cid)
  | .countingCreated cid =>
      countTurn shards manager (.countingCreated cid)
        (.returned (.created cid))
  | .removing cid =>
      if manager.Writable shards cid then
        next (.removed cid (cid ∈ manager.sessions))
          (manager.withSessions (manager.sessions.erase cid))
          (.returned (.removed (manager.sessions.lookup cid)))
      else none
  | .updating cid update =>
      if manager.Writable shards cid then
        match manager.sessions.lookup cid with
        | none =>
            next (.updated cid false) manager
              (.returned (.failed "Session not found"))
        | some session =>
            match update.apply input.now session with
            | .error message =>
                next (.updated cid false) manager (.returned (.failed message))
            | .ok changed =>
                next (.updated cid true)
                  (manager.withSessions (manager.sessions.insert cid changed))
                  (.returned .done)
      else none
  | .closing cid =>
      if cid ∈ manager.sessions then
        next (.looked cid true) (manager.holdShard shards cid) (.hanging cid)
      else
        next (.looked cid false) manager
          (.returned (.failed "Session not found"))
  | .hanging _ => none
  | .startingCleanup =>
      next .startedCleanup manager (.scanning input.now 0 [])
  | .scanning now shard expired =>
      if shard < shards.count then
        let found := manager.expiredIn config shards now shard
        next (.scanned found) manager (.scanning now (shard + 1)
          (expired ++ found))
      else
        next .scanEnded manager (.expiring now expired)
  | .expiring started expired =>
      match expired[input.choice]? with
      | some cid =>
          let rest := expired.eraseIdx input.choice
          if manager.Writable shards cid then
            next (.expired cid (manager.sessions.lookup cid) started input.now)
              (manager.withSessions (manager.sessions.erase cid))
              (if cid ∈ manager.sessions then .recordingExpired started rest
                else .expiring started rest)
          else none
      | none =>
          if expired = [] then
            next .cleanupEnded manager (.returned .done)
          else
            none
  | .recordingExpired started expired =>
      if manager.counting.isSome then none
      else
        next .lockedStatistics (manager.lockStatistics 0 1)
          (.countingExpired started expired)
  | .countingExpired started expired =>
      countTurn shards manager (.countingExpired started expired)
        (.expiring started expired)
  | .returned _ => none

def program (config : SessionManagerConfig) (shards : Shards) :
    Program SessionManager Task Request Input Event where
  launch := launch
  turn := turn config shards

variable {config : SessionManagerConfig} {shards : Shards}

/-- Everything a step of a call can do. -/
inductive Moves (config : SessionManagerConfig) (shards : Shards)
    (manager : SessionManager) (input : Input) :
    Task → Event → SessionManager → Task → Prop where
  | readShard (shard sum : Nat) (among : shard < shards.count) :
      Moves config shards manager input (.checking shard sum)
        (.readShard shard) manager
        (.checking (shard + 1) (sum + shards.sizeIn manager.sessions shard))
  | refused (shard sum : Nat) (all : shards.count ≤ shard)
      (full : config.maxSessions.toNat ≤ sum) :
      Moves config shards manager input (.checking shard sum) (.checked false)
        manager (.returned (.failed "Maximum sessions exceeded"))
  | admitted (shard sum : Nat) (all : shards.count ≤ shard)
      (room : sum < config.maxSessions.toNat) :
      Moves config shards manager input (.checking shard sum) (.checked true)
        manager .generating
  | redrew (taken : input.cid ∈ manager.sessions) :
      Moves config shards manager input .generating (.drew input.cid true)
        manager .generating
  | drew (free : input.cid ∉ manager.sessions) :
      Moves config shards manager input .generating (.drew input.cid false)
        manager (.inserting input.cid)
  | inserted (cid : ConnectionId) (writable : manager.Writable shards cid) :
      Moves config shards manager input (.inserting cid)
        (.inserted cid (cid ∈ manager.sessions))
        (manager.withSessions (manager.sessions.insert cid
          (newSession cid input.now)))
        (.recordingCreated cid)
  | lockedCreated (cid : ConnectionId) (free : manager.counting = none) :
      Moves config shards manager input (.recordingCreated cid)
        .lockedStatistics (manager.lockStatistics 1 0) (.countingCreated cid)
  | measuredCreated (cid : ConnectionId) (shard sum : Nat)
      (counted : manager.counting = some (shard, sum))
      (among : shard < shards.count) :
      Moves config shards manager input (.countingCreated cid)
        (.measured shard) (manager.measureShard shards shard sum)
        (.countingCreated cid)
  | recordedCreated (cid : ConnectionId) (shard sum : Nat)
      (counted : manager.counting = some (shard, sum))
      (all : shards.count ≤ shard) :
      Moves config shards manager input (.countingCreated cid) .recorded
        (manager.record sum) (.returned (.created cid))
  | removed (cid : ConnectionId) (writable : manager.Writable shards cid) :
      Moves config shards manager input (.removing cid)
        (.removed cid (cid ∈ manager.sessions))
        (manager.withSessions (manager.sessions.erase cid))
        (.returned (.removed (manager.sessions.lookup cid)))
  | unchanged (cid : ConnectionId) (update : Update) (message : String) :
      Moves config shards manager input (.updating cid update)
        (.updated cid false) manager (.returned (.failed message))
  | updated (cid : ConnectionId) (update : Update) (session changed : Session)
      (writable : manager.Writable shards cid)
      (found : manager.sessions.lookup cid = some session)
      (applied : update.apply input.now session = .ok changed) :
      Moves config shards manager input (.updating cid update)
        (.updated cid true)
        (manager.withSessions (manager.sessions.insert cid changed))
        (.returned .done)
  | looked (cid : ConnectionId) (found : cid ∈ manager.sessions) :
      Moves config shards manager input (.closing cid) (.looked cid true)
        (manager.holdShard shards cid) (.hanging cid)
  | missed (cid : ConnectionId) (absent : cid ∉ manager.sessions) :
      Moves config shards manager input (.closing cid) (.looked cid false)
        manager (.returned (.failed "Session not found"))
  | startedCleanup :
      Moves config shards manager input .startingCleanup .startedCleanup
        manager (.scanning input.now 0 [])
  | scanned (now : SystemTime) (shard : Nat) (expired : List ConnectionId) :
      Moves config shards manager input (.scanning now shard expired)
        (.scanned (manager.expiredIn config shards now shard)) manager
        (.scanning now (shard + 1)
          (expired ++ manager.expiredIn config shards now shard))
  | scanEnded (now : SystemTime) (shard : Nat) (expired : List ConnectionId) :
      Moves config shards manager input (.scanning now shard expired)
        .scanEnded manager (.expiring now expired)
  | expired (started : SystemTime) (expired : List ConnectionId)
      (cid : ConnectionId) (chosen : expired[input.choice]? = some cid)
      (writable : manager.Writable shards cid) (session : Session)
      (found : manager.sessions.lookup cid = some session) :
      Moves config shards manager input (.expiring started expired)
        (.expired cid (some session) started input.now)
        (manager.withSessions (manager.sessions.erase cid))
        (.recordingExpired started (expired.eraseIdx input.choice))
  | vanished (started : SystemTime) (expired : List ConnectionId)
      (cid : ConnectionId) (chosen : expired[input.choice]? = some cid)
      (absent : manager.sessions.lookup cid = none) :
      Moves config shards manager input (.expiring started expired)
        (.expired cid none started input.now)
        (manager.withSessions (manager.sessions.erase cid))
        (.expiring started (expired.eraseIdx input.choice))
  | cleanupEnded (started : SystemTime) :
      Moves config shards manager input (.expiring started []) .cleanupEnded
        manager (.returned .done)
  | lockedExpired (started : SystemTime) (expired : List ConnectionId)
      (free : manager.counting = none) :
      Moves config shards manager input (.recordingExpired started expired)
        .lockedStatistics (manager.lockStatistics 0 1)
        (.countingExpired started expired)
  | measuredExpired (started : SystemTime) (expired : List ConnectionId)
      (shard sum : Nat) (counted : manager.counting = some (shard, sum))
      (among : shard < shards.count) :
      Moves config shards manager input (.countingExpired started expired)
        (.measured shard) (manager.measureShard shards shard sum)
        (.countingExpired started expired)
  | recordedExpired (started : SystemTime) (expired : List ConnectionId)
      (shard sum : Nat) (counted : manager.counting = some (shard, sum))
      (all : shards.count ≤ shard) :
      Moves config shards manager input (.countingExpired started expired)
        .recorded (manager.record sum) (.expiring started expired)

theorem moves_of_next {before after : SessionManager} {input : Input}
    {task rest : Task} {event : Event}
    {turned : Turn SessionManager Task Event}
    (taken : next event after rest = some turned)
    (moves : Moves config shards before input task event after rest) :
    Moves config shards before input task turned.event turned.shared
        turned.task ∧ turned.spawned = [] := by
  rw [eq_of_next taken]
  exact ⟨moves, rfl⟩

/-- What the holder of the lock on the statistics can do. -/
theorem moves_of_countTurn {before : SessionManager} {input : Input}
    {task rest : Task} {turned : Turn SessionManager Task Event}
    (taken : countTurn shards before task rest = some turned)
    (measured : ∀ shard sum, before.counting = some (shard, sum) →
      shard < shards.count →
        Moves config shards before input task (.measured shard)
          (before.measureShard shards shard sum) task)
    (recorded : ∀ shard sum, before.counting = some (shard, sum) →
      shards.count ≤ shard →
        Moves config shards before input task .recorded (before.record sum)
          rest) :
    Moves config shards before input task turned.event turned.shared
        turned.task ∧ turned.spawned = [] := by
  unfold countTurn at taken
  split at taken
  · cases taken
  · next shard sum counted =>
      split at taken
      · next among =>
          exact moves_of_next taken (measured shard sum counted among)
      · next all =>
          exact moves_of_next taken
            (recorded shard sum counted (Nat.le_of_not_lt all))

theorem turn_moves {manager : SessionManager} {task : Task} {input : Input}
    {turned : Turn SessionManager Task Event}
    (taken : turn config shards manager task input = some turned) :
    Moves config shards manager input task turned.event turned.shared
        turned.task ∧ turned.spawned = [] := by
  unfold turn at taken
  cases task with
  | checking shard sum =>
      simp only at taken
      split at taken
      · next among => exact moves_of_next taken (.readShard shard sum among)
      · next ended =>
          have all := Nat.le_of_not_lt ended
          split at taken
          · next full =>
              exact moves_of_next taken (.refused shard sum all full)
          · next room =>
              exact moves_of_next taken
                (.admitted shard sum all (Nat.lt_of_not_le room))
  | generating =>
      simp only at taken
      split at taken
      · next isTaken =>
          exact moves_of_next taken (.redrew isTaken)
      · next free =>
          exact moves_of_next taken (.drew free)
  | inserting cid =>
      simp only at taken
      split at taken
      · next writable => exact moves_of_next taken (.inserted cid writable)
      · cases taken
  | recordingCreated cid =>
      simp only at taken
      split at taken
      · cases taken
      · next free =>
          exact moves_of_next taken
            (.lockedCreated cid (Option.not_isSome_iff_eq_none.mp free))
  | countingCreated cid =>
      exact moves_of_countTurn taken (.measuredCreated cid)
        (.recordedCreated cid)
  | removing cid =>
      simp only at taken
      split at taken
      · next writable => exact moves_of_next taken (.removed cid writable)
      · cases taken
  | updating cid update =>
      simp only at taken
      split at taken
      · next writable =>
          split at taken
          · exact moves_of_next taken (.unchanged cid update _)
          · next session found =>
              split at taken
              · exact moves_of_next taken (.unchanged cid update _)
              · next changed applied =>
                  exact moves_of_next taken
                    (.updated cid update session changed writable found applied)
      · cases taken
  | closing cid =>
      simp only at taken
      split at taken
      · next found => exact moves_of_next taken (.looked cid found)
      · next absent => exact moves_of_next taken (.missed cid absent)
  | hanging cid => cases taken
  | startingCleanup =>
      exact moves_of_next taken .startedCleanup
  | scanning now shard expired =>
      simp only at taken
      split at taken
      · exact moves_of_next taken (.scanned now shard expired)
      · exact moves_of_next taken (.scanEnded now shard expired)
  | expiring started expired =>
      simp only at taken
      split at taken
      · next cid chosen =>
          split at taken
          · next writable =>
              refine moves_of_next taken ?_
              cases found : manager.sessions.lookup cid with
              | none =>
                  have absent := AList.lookup_eq_none.mp found
                  rw [if_neg absent]
                  exact .vanished started expired cid chosen found
              | some session =>
                  rw [if_pos (mem_of_lookup found)]
                  exact .expired started expired cid chosen writable session
                    found
          · cases taken
      · split at taken
        · next nothing =>
            subst nothing
            exact moves_of_next taken (.cleanupEnded started)
        · cases taken
  | recordingExpired started expired =>
      simp only at taken
      split at taken
      · cases taken
      · next free =>
          exact moves_of_next taken (.lockedExpired started expired
            (Option.not_isSome_iff_eq_none.mp free))
  | countingExpired started expired =>
      exact moves_of_countTurn taken (.measuredExpired started expired)
        (.recordedExpired started expired)
  | returned outcome => cases taken

/-- A check that nobody disturbs has not missed a session, and a call that has
passed it finds room for one more. -/
def Task.Relies (config : SessionManagerConfig) (shards : Shards)
    (manager : SessionManager) : Task → Prop
  | .checking shard sum =>
      size manager.sessions ≤ sum + shards.sizeFrom manager.sessions shard
  | .generating => size manager.sessions + 1 ≤ config.maxSessions.toNat
  | .inserting _ => size manager.sessions + 1 ≤ config.maxSessions.toNat
  | _ => True

/-- A check begins with the first shard. -/
def Event.isCheck : Event → Bool
  | .readShard shard => shard == 0
  | _ => false

/-- The insertion of an id that is stored already replaces a session. -/
def Event.insertsNew : Event → Bool
  | .inserted _ replaced => !replaced
  | _ => false

/-- Sessions may have gone, and none has come. -/
structure Shrinks (shards : Shards) (before after : SessionManager) : Prop where
  fewer : size after.sessions ≤ size before.sessions
  ahead : ∀ shard,
    size after.sessions + shards.sizeFrom before.sessions shard ≤
      size before.sessions + shards.sizeFrom after.sessions shard

theorem Shrinks.of_same {before after : SessionManager}
    (same : after.sessions = before.sessions) : Shrinks shards before after := by
  refine ⟨?_, fun shard => ?_⟩
  · rw [same]
  · rw [same]

theorem shrinks_erase (shards : Shards) (manager : SessionManager)
    (cid : ConnectionId) :
    Shrinks shards manager
      (manager.withSessions (manager.sessions.erase cid)) := by
  have erased := size_erase manager.sessions cid
  refine ⟨Nat.le.intro erased, fun shard => ?_⟩
  have ahead := shards.sizeOf_erase manager.sessions (shard ≤ ·) cid
  simp only [SessionManager.withSessions, KeyedTable.Shards.sizeFrom]
  by_cases stored : cid ∈ manager.sessions
  · simp only [stored, true_and, if_true] at erased ahead
    split at ahead <;> omega
  · simp only [stored, false_and, if_false] at erased ahead
    omega

theorem shrinks_replace (shards : Shards) (manager : SessionManager)
    {cid : ConnectionId} (stored : cid ∈ manager.sessions)
    (session : Session) :
    Shrinks shards manager
      (manager.withSessions (manager.sessions.insert cid session)) := by
  have same := size_insert manager.sessions cid session
  rw [if_pos stored] at same
  have kept := Nat.add_right_cancel same
  refine ⟨kept.le, fun shard => ?_⟩
  have ahead :=
    shards.sizeOf_replace manager.sessions (shard ≤ ·) cid session stored
  exact (congrArg₂ _ kept ahead.symm).le

theorem shrinks_of_moves {before after : SessionManager} {input : Input}
    {task rest : Task} {event : Event}
    (moves : Moves config shards before input task event after rest)
    (noInsertion : event.insertsNew = false) :
    Shrinks shards before after := by
  cases moves with
  | inserted cid =>
      have stored : cid ∈ before.sessions := by
        simpa [Event.insertsNew] using noInsertion
      exact shrinks_replace shards before stored _
  | updated cid update session changed _ found applied =>
      exact shrinks_replace shards before (mem_of_lookup found) changed
  | removed cid | expired _ _ cid | vanished _ _ cid =>
      exact shrinks_erase shards before cid
  | _ => exact .of_same rfl

theorem relies_of_shrinks {before after : SessionManager} {task : Task}
    (shrinks : Shrinks shards before after)
    (relies : task.Relies config shards before) :
    task.Relies config shards after := by
  have fewer := shrinks.fewer
  cases task with
  | checking shard sum =>
      have ahead := shrinks.ahead shard
      simp only [Task.Relies] at relies ⊢
      omega
  | generating | inserting =>
      simp only [Task.Relies] at relies ⊢
      omega
  | _ => trivial

/-- The call that moves. -/
theorem relies_of_moves {before after : SessionManager} {input : Input}
    {task rest : Task} {event : Event}
    (moves : Moves config shards before input task event after rest)
    (relying : event.isCheck = true ∨ task.Relies config shards before) :
    rest.Relies config shards after := by
  cases moves with
  | readShard shard sum among =>
      have ahead := shards.sizeIn_add_sizeFrom before.sessions shard
      have relies : size before.sessions ≤
          sum + shards.sizeFrom before.sessions shard := by
        rcases relying with isFirst | relies
        · rw [beq_iff_eq.mp isFirst, shards.sizeFrom_zero]
          exact Nat.le_add_left _ _
        · exact relies
      simp only [Task.Relies]
      omega
  | admitted shard sum all room =>
      have none := shards.sizeFrom_of_count_le before.sessions shard all
      have relies := relying.resolve_left Bool.false_ne_true
      simp only [Task.Relies, none] at relies ⊢
      omega
  | redrew | drew => exact relying.resolve_left Bool.false_ne_true
  | _ => trivial

theorem insertion_fits {before after : SessionManager} {input : Input}
    {task rest : Task} {event : Event}
    (moves : Moves config shards before input task event after rest)
    (inserts : event.insertsNew = true)
    (relies : task.Relies config shards before) :
    size after.sessions ≤ config.maxSessions.toNat ∧
      rest.Relies config shards after := by
  cases moves with
  | inserted cid =>
      have grown := size_insert before.sessions cid (newSession cid input.now)
      refine ⟨?_, trivial⟩
      simp only [SessionManager.withSessions, Task.Relies] at relies ⊢
      omega
  | _ => cases inserts

def limitScheme (config : SessionManagerConfig) (shards : Shards) :
    Admission.Scheme (program config shards) where
  load := fun manager => size manager.sessions
  limit := config.maxSessions.toNat
  relies := Task.Relies config shards
  isCheck := Event.isCheck
  isFlawed := fun _ => false
  isInsertion := Event.insertsNew
  launched := by
    intro manager request
    cases request with
    | createSession =>
        have all := shards.sizeFrom_zero manager.sessions
        simp only [program, launch, Task.Relies, all]
        omega
    | _ => trivial
  spawned := by
    intro manager task input turned child taken member
    rw [(turn_moves taken).2] at member
    cases member
  inserted := by
    intro manager task input turned taken inserts relies _
    exact insertion_fits (turn_moves taken).1 inserts relies
  shrinks := by
    intro manager task input turned taken noInsertion
    exact (shrinks_of_moves (turn_moves taken).1 noInsertion).fewer
  own := by
    intro manager task input turned taken _ _ relying
    exact relies_of_moves (turn_moves taken).1 relying
  others := by
    intro manager task input turned bystander taken noInsertion relies
    exact relies_of_shrinks
      (shrinks_of_moves (turn_moves taken).1 noInsertion) relies

/-- A manager before its first call. -/
def start : Pool SessionManager Task := ⟨.new, []⟩

theorem sessions_le_max (config : SessionManagerConfig) (shards : Shards)
    (actions : List (Action Request Input))
    (along : Trace.AlongPast (perform (program config shards))
      (Allowed (program config shards)
        (limitScheme config shards).Undisturbed) [] start actions) :
    size (Trace.final (perform (program config shards)) start
      actions).shared.sessions ≤ config.maxSessions.toNat :=
  (limitScheme config shards).load_le_limit (Nat.zero_le _) rfl actions along

/-- A manager that is to keep one session for five minutes. -/
def sampleConfig : SessionManagerConfig where
  maxSessions := 1
  sessionTimeoutSecs := 300

def firstCid : ConnectionId := Vector.replicate 12 1

def secondCid : ConnectionId := Vector.replicate 12 2

def creationTime : SystemTime := SystemTime.ofUnixSecs 1700000300 (by decide)

/-- A step of a call that draws the id. -/
def drawing (index : Nat) (cid : ConnectionId) : Action Request Input :=
  .run index ⟨creationTime, cid, 0⟩

/-- A call that creates a session and returns. -/
def creating (index : Nat) (cid : ConnectionId) :
    List (Action Request Input) :=
  .call .createSession :: List.replicate 7 (drawing index cid)

/-- Two calls one after the other. -/
def successiveCalls : List (Action Request Input) :=
  creating 0 firstCid ++
    [.call .createSession, drawing 1 secondCid, drawing 1 secondCid]

theorem sessions_le_max_sample :
    Trace.AlongPast (perform (program sampleConfig .single))
        (Allowed (program sampleConfig .single)
          (limitScheme sampleConfig .single).Undisturbed) [] start
        successiveCalls ∧
      size (Trace.final (perform (program sampleConfig .single)) start
        successiveCalls).shared.sessions ≤ sampleConfig.maxSessions.toNat := by
  have along : Trace.AlongPast (perform (program sampleConfig .single))
      (Allowed (program sampleConfig .single)
        (limitScheme sampleConfig .single).Undisturbed) [] start
      successiveCalls := by
    decide +kernel
  exact ⟨along, sessions_le_max sampleConfig .single successiveCalls along⟩

/-- Both calls check the limit before either of them inserts. -/
def overlappingCalls : List (Action Request Input) :=
  [.call .createSession, .call .createSession, drawing 0 firstCid,
    drawing 1 secondCid, drawing 0 firstCid, drawing 1 secondCid,
    drawing 0 firstCid, drawing 1 secondCid, drawing 0 firstCid,
    drawing 1 secondCid]

theorem sessions_exceed_max :
    size (Trace.final (perform (program sampleConfig .single)) start
        overlappingCalls).shared.sessions = 2 ∧
      ¬ size (Trace.final (perform (program sampleConfig .single)) start
        overlappingCalls).shared.sessions ≤ sampleConfig.maxSessions.toNat := by
  have two : size (Trace.final (perform (program sampleConfig .single)) start
      overlappingCalls).shared.sessions = 2 := by
    decide +kernel
  refine ⟨two, ?_⟩
  rw [two]
  decide

end NyxNet.Sessions
