import NyxNet.Lib.ShardedTable
import NyxNet.Lib.SocketAddr
import NyxNet.Lib.TaskPool
import NyxNet.Lib.Time
import NyxNet.Stream.StreamState

/-!
# The stream manager

`StreamManager` of `nyx-daemon/src/stream_manager.rs`.  Its methods and its
background loops run concurrently on a `DashMap` and on two counters, each access
to a counter or to one shard of the map one atomic step; the length of the map is
added up shard by shard.  `open_stream` checks the limit, draws a number, inserts
the session and counts it in separate steps.
-/

namespace NyxNet.Streams

open KeyedTable TaskPool
open StreamMachine (StreamState)

inductive PathStatus where
  | active
  | inactive
  | failed
  | validating
  deriving DecidableEq, Repr

structure StreamPath where
  pathId : UInt32
  status : PathStatus
  socketAddr : Option SocketAddr
  deriving DecidableEq

structure StreamOptions where
  bufferSize : UInt32
  timeoutMs : UInt32
  multipath : Bool
  maxPaths : UInt32
  pathStrategy : String
  autoReconnect : Bool
  maxRetryAttempts : UInt32
  compression : Bool
  cipherSuite : String
  deriving DecidableEq

structure StreamSession where
  streamId : UInt32
  sessionId : Vector UInt8 12
  state : StreamState
  createdAt : SystemTime
  lastActivity : SystemTime
  bytesSent : UInt64
  bytesReceived : UInt64
  errorCount : UInt32
  paths : List StreamPath
  options : StreamOptions
  deriving DecidableEq

structure StreamManagerConfig where
  maxConcurrentStreams : UInt32
  defaultTimeoutMs : UInt32
  maxPathsPerStream : UInt8
  enableMultipath : Bool

def StreamManagerConfig.default : StreamManagerConfig where
  maxConcurrentStreams := 10000
  defaultTimeoutMs := 30000
  maxPathsPerStream := 8
  enableMultipath := true

structure OpenRequest where
  targetAddress : String
  options : Option StreamOptions
  deriving DecidableEq

structure StreamResponse where
  streamId : UInt32
  status : String
  targetAddress : String
  success : Bool
  message : String
  deriving DecidableEq

/-- What the calls share; `activeStreams` is the gauge of the metrics. -/
structure StreamManager where
  streams : Table UInt32 StreamSession
  nextStreamId : UInt32
  activeStreams : UInt32

def StreamManager.new : StreamManager where
  streams := ∅
  nextStreamId := 1
  activeStreams := 0

def buildSinglePath (target : SocketAddr) (pathId : UInt32) : StreamPath where
  pathId := pathId
  status := .validating
  socketAddr := some target

/-- The planner is not asked. -/
def buildSinglePathWithPlanner (target : String) (pathId : UInt8) :
    Option StreamPath :=
  (SocketAddr.fromStr target).map fun socketAddr =>
    { pathId := pathId.toUInt32
      status := .validating
      socketAddr := some socketAddr }

def buildMultipathRoutes (config : StreamManagerConfig) (target : String)
    (maxPaths : UInt32) : Option (List StreamPath) :=
  match (List.range (min maxPaths.toNat config.maxPathsPerStream.toNat)).mapM
      fun pathId => buildSinglePathWithPlanner target (UInt8.ofNat pathId) with
  | none => none
  | some [] => none
  | some paths => some paths

/-- The options of a request within their bounds, or the defaults. -/
def sessionOptions (config : StreamManagerConfig) :
    Option StreamOptions → StreamOptions
  | some options =>
      { bufferSize := min (max options.bufferSize 1024) 1048576
        timeoutMs := min (max options.timeoutMs 1000) 300000
        multipath := options.multipath && config.enableMultipath
        maxPaths := min options.maxPaths config.maxPathsPerStream.toUInt32
        pathStrategy := options.pathStrategy
        autoReconnect := options.autoReconnect
        maxRetryAttempts := min options.maxRetryAttempts 10
        compression := options.compression
        cipherSuite := options.cipherSuite }
  | none =>
      { bufferSize := 65536
        timeoutMs := config.defaultTimeoutMs
        multipath := config.enableMultipath
        maxPaths := 3
        pathStrategy := "load_balance"
        autoReconnect := true
        maxRetryAttempts := 3
        compression := false
        cipherSuite := "ChaCha20Poly1305" }

/-- A multipath request falls back to a single path. -/
def sessionPaths (config : StreamManagerConfig) (request : OpenRequest)
    (target : SocketAddr) (pathId : UInt32) : List StreamPath :=
  let options := sessionOptions config request.options
  if options.multipath then
    match buildMultipathRoutes config request.targetAddress options.maxPaths with
    | some paths => paths
    | none => [buildSinglePath target pathId]
  else [buildSinglePath target pathId]

/-- What a step takes from outside: the time, the random ids of a session and of
a path, and which of the expired streams comes next, since the order of the map is
unknown. -/
structure Input where
  now : SystemTime
  sessionId : Vector UInt8 12
  pathId : UInt32
  choice : Nat
  deriving DecidableEq

def newSession (config : StreamManagerConfig) (request : OpenRequest)
    (target : SocketAddr) (streamId : UInt32) (input : Input) :
    StreamSession where
  streamId := streamId
  sessionId := input.sessionId
  state := .idle
  createdAt := input.now
  lastActivity := input.now
  bytesSent := 0
  bytesReceived := 0
  errorCount := 0
  paths := sessionPaths config request target input.pathId
  options := sessionOptions config request.options

def limitReached (request : OpenRequest) : StreamResponse where
  streamId := 0
  status := "error"
  targetAddress := request.targetAddress
  success := false
  message := "Maximum concurrent streams reached"

def invalidTarget (request : OpenRequest) (streamId : UInt32) :
    StreamResponse where
  streamId := streamId
  status := "error"
  targetAddress := request.targetAddress
  success := false
  message := "Invalid target address: invalid socket address syntax"

def opened (targetAddress : String) (streamId : UInt32) : StreamResponse where
  streamId := streamId
  status := "opened"
  targetAddress := targetAddress
  success := true
  message := "Stream opened successfully"

/-- The methods, and a turn of either background loop. -/
inductive Request where
  | openStream (request : OpenRequest)
  | closeStream (streamId : UInt32)
  | cleanupLoop
  | monitoringLoop
  deriving DecidableEq

inductive Outcome where
  | response (response : StreamResponse)
  | closed
  | failed (message : String)
  | turned
  deriving DecidableEq

/-- How far a call has got.  What measures the map has come to a shard with the sum
of those before it. -/
inductive Task where
  | checking (request : OpenRequest) (shard sum : Nat)
  | numbering (request : OpenRequest)
  | inserting (targetAddress : String) (session : StreamSession)
  | counting (targetAddress : String) (streamId : UInt32)
  | closing (streamId : UInt32)
  | uncounting
  | startingCleanup
  | scanning (now : SystemTime) (shard : Nat) (expired : List UInt32)
  | expiring (now : SystemTime) (expired : List UInt32)
  | uncountingExpired (now : SystemTime) (expired : List UInt32)
  | measuring (shard sum : Nat)
  | storing (count : UInt32)
  | returned (outcome : Outcome)
  deriving DecidableEq

inductive Event where
  | readShard (shard : Nat)
  | checked (admitted : Bool)
  | numbered (streamId : UInt32) (valid : Bool)
  | inserted (session : StreamSession) (replaced : Bool)
  | incremented
  | removed (streamId : UInt32) (session : Option StreamSession)
  | decremented
  | startedCleanup (started : SystemTime)
  | scanned (expired : List UInt32)
  | scanEnded
  | expired (streamId : UInt32) (session : Option StreamSession)
      (started : SystemTime)
  | cleanupEnded (started : SystemTime)
  | measured (count : Nat)
  | stored (count : UInt32)
  deriving DecidableEq

/-- The map is iterated one shard after the other, each under its lock. -/
abbrev Shards : Type := KeyedTable.Shards UInt32

/-- `duration_since` gives an error when the clock was set back. -/
def isExpired (now : SystemTime) (session : StreamSession) : Bool :=
  (Duration.fromMillis session.options.timeoutMs.toUInt64).asNanos <
    ((now.durationSince session.lastActivity).getD Duration.zero).asNanos

/-- `try_into().unwrap_or(0)`. -/
def asU32 (count : Nat) : UInt32 :=
  if count < 4294967296 then UInt32.ofNat count else 0

namespace StreamManager

variable (manager : StreamManager)

def withStreams (streams : Table UInt32 StreamSession) : StreamManager :=
  { manager with streams }

def incrementActiveStreams : StreamManager :=
  { manager with activeStreams := manager.activeStreams + 1 }

def decrementActiveStreams : StreamManager :=
  { manager with activeStreams := manager.activeStreams - 1 }

def setActiveStreams (count : UInt32) : StreamManager :=
  { manager with activeStreams := count }

/-- `fetch_add` on the number of the next stream. -/
def drawNumber : StreamManager :=
  { manager with nextStreamId := manager.nextStreamId + 1 }

/-- The ids that a shard gives to `expired_streams`. -/
def expiredIn (shards : Shards) (now : SystemTime) (shard : Nat) :
    List UInt32 :=
  (manager.streams.entries.filter (fun entry =>
    (shards.shardOf entry.1).val = shard ∧ isExpired now entry.2)).map
      (fun entry => entry.2.streamId)

end StreamManager

def launch : Request → Task
  | .openStream request => .checking request 0 0
  | .closeStream streamId => .closing streamId
  | .cleanupLoop => .startingCleanup
  | .monitoringLoop => .measuring 0 0

def turn (config : StreamManagerConfig) (shards : Shards)
    (manager : StreamManager) (task : Task) (input : Input) :
    Option (Turn StreamManager Task Event) :=
  match task with
  | .checking request shard sum =>
      if shard < shards.count then
        next (.readShard shard) manager
          (.checking request (shard + 1)
            (sum + shards.sizeIn manager.streams shard))
      else if config.maxConcurrentStreams.toNat ≤ sum then
        next (.checked false) manager
          (.returned (.response (limitReached request)))
      else
        next (.checked true) manager (.numbering request)
  | .numbering request =>
      -- The number is spent even when the address is not valid.
      match SocketAddr.fromStr request.targetAddress with
      | none =>
          next (.numbered manager.nextStreamId false) manager.drawNumber
            (.returned (.response
              (invalidTarget request manager.nextStreamId)))
      | some target =>
          next (.numbered manager.nextStreamId true) manager.drawNumber
            (.inserting request.targetAddress
              (newSession config request target manager.nextStreamId input))
  | .inserting targetAddress session =>
      next (.inserted session (session.streamId ∈ manager.streams))
        (manager.withStreams (manager.streams.insert session.streamId session))
        (.counting targetAddress session.streamId)
  | .counting targetAddress streamId =>
      next .incremented manager.incrementActiveStreams
        (.returned (.response (opened targetAddress streamId)))
  | .closing streamId =>
      next (.removed streamId (manager.streams.lookup streamId))
        (manager.withStreams (manager.streams.erase streamId))
        (if streamId ∈ manager.streams then .uncounting
          else .returned (.failed s!"Stream {streamId} not found"))
  | .uncounting =>
      next .decremented manager.decrementActiveStreams (.returned .closed)
  | .startingCleanup =>
      next (.startedCleanup input.now) manager (.scanning input.now 0 [])
  | .scanning now shard expired =>
      if shard < shards.count then
        let found := manager.expiredIn shards now shard
        next (.scanned found) manager
          (.scanning now (shard + 1) (expired ++ found))
      else
        next .scanEnded manager (.expiring now expired)
  | .expiring started expired =>
      match expired[input.choice]? with
      | some streamId =>
          let rest := expired.eraseIdx input.choice
          next (.expired streamId (manager.streams.lookup streamId) started)
            (manager.withStreams (manager.streams.erase streamId))
            (if streamId ∈ manager.streams then .uncountingExpired started rest
              else .expiring started rest)
      | none =>
          if expired = [] then
            next (.cleanupEnded started) manager (.returned .turned)
          else none
  | .uncountingExpired started expired =>
      next .decremented manager.decrementActiveStreams
        (.expiring started expired)
  | .measuring shard sum =>
      if shard < shards.count then
        next (.readShard shard) manager
          (.measuring (shard + 1) (sum + shards.sizeIn manager.streams shard))
      else
        next (.measured sum) manager (.storing (asU32 sum))
  | .storing count =>
      next (.stored count) (manager.setActiveStreams count)
        (.returned .turned)
  | .returned _ => none

def program (config : StreamManagerConfig) (shards : Shards) :
    Program StreamManager Task Request Input Event where
  launch := launch
  turn := turn config shards

variable {config : StreamManagerConfig} {shards : Shards}

/-- Everything a step of a call can do. -/
inductive Moves (config : StreamManagerConfig) (shards : Shards)
    (manager : StreamManager) (input : Input) :
    Task → Event → StreamManager → Task → Prop where
  | readShard (request : OpenRequest) (shard sum : Nat)
      (among : shard < shards.count) :
      Moves config shards manager input (.checking request shard sum)
        (.readShard shard) manager
        (.checking request (shard + 1)
          (sum + shards.sizeIn manager.streams shard))
  | refused (request : OpenRequest) (shard sum : Nat)
      (all : shards.count ≤ shard)
      (full : config.maxConcurrentStreams.toNat ≤ sum) :
      Moves config shards manager input (.checking request shard sum)
        (.checked false) manager
        (.returned (.response (limitReached request)))
  | admitted (request : OpenRequest) (shard sum : Nat)
      (all : shards.count ≤ shard)
      (room : sum < config.maxConcurrentStreams.toNat) :
      Moves config shards manager input (.checking request shard sum)
        (.checked true) manager (.numbering request)
  | misdirected (request : OpenRequest)
      (invalid : SocketAddr.fromStr request.targetAddress = none) :
      Moves config shards manager input (.numbering request)
        (.numbered manager.nextStreamId false) manager.drawNumber
        (.returned (.response (invalidTarget request manager.nextStreamId)))
  | numbered (request : OpenRequest) (target : SocketAddr)
      (valid : SocketAddr.fromStr request.targetAddress = some target) :
      Moves config shards manager input (.numbering request)
        (.numbered manager.nextStreamId true) manager.drawNumber
        (.inserting request.targetAddress
          (newSession config request target manager.nextStreamId input))
  | inserted (targetAddress : String) (session : StreamSession) :
      Moves config shards manager input (.inserting targetAddress session)
        (.inserted session (session.streamId ∈ manager.streams))
        (manager.withStreams (manager.streams.insert session.streamId session))
        (.counting targetAddress session.streamId)
  | counted (targetAddress : String) (streamId : UInt32) :
      Moves config shards manager input (.counting targetAddress streamId)
        .incremented manager.incrementActiveStreams
        (.returned (.response (opened targetAddress streamId)))
  | removed (streamId : UInt32) (session : StreamSession)
      (found : manager.streams.lookup streamId = some session) :
      Moves config shards manager input (.closing streamId)
        (.removed streamId (some session))
        (manager.withStreams (manager.streams.erase streamId)) .uncounting
  | missed (streamId : UInt32)
      (absent : manager.streams.lookup streamId = none) :
      Moves config shards manager input (.closing streamId)
        (.removed streamId none)
        (manager.withStreams (manager.streams.erase streamId))
        (.returned (.failed s!"Stream {streamId} not found"))
  | uncounted :
      Moves config shards manager input .uncounting .decremented
        manager.decrementActiveStreams (.returned .closed)
  | startedCleanup :
      Moves config shards manager input .startingCleanup
        (.startedCleanup input.now) manager (.scanning input.now 0 [])
  | scanned (now : SystemTime) (shard : Nat) (expired : List UInt32)
      (among : shard < shards.count) :
      Moves config shards manager input (.scanning now shard expired)
        (.scanned (manager.expiredIn shards now shard)) manager
        (.scanning now (shard + 1)
          (expired ++ manager.expiredIn shards now shard))
  | scanEnded (now : SystemTime) (shard : Nat) (expired : List UInt32)
      (all : shards.count ≤ shard) :
      Moves config shards manager input (.scanning now shard expired)
        .scanEnded manager (.expiring now expired)
  | expired (started : SystemTime) (expired : List UInt32)
      (streamId : UInt32) (chosen : expired[input.choice]? = some streamId)
      (session : StreamSession)
      (found : manager.streams.lookup streamId = some session) :
      Moves config shards manager input (.expiring started expired)
        (.expired streamId (some session) started)
        (manager.withStreams (manager.streams.erase streamId))
        (.uncountingExpired started (expired.eraseIdx input.choice))
  | vanished (started : SystemTime) (expired : List UInt32)
      (streamId : UInt32) (chosen : expired[input.choice]? = some streamId)
      (absent : manager.streams.lookup streamId = none) :
      Moves config shards manager input (.expiring started expired)
        (.expired streamId none started)
        (manager.withStreams (manager.streams.erase streamId))
        (.expiring started (expired.eraseIdx input.choice))
  | cleanupEnded (started : SystemTime) :
      Moves config shards manager input (.expiring started [])
        (.cleanupEnded started) manager (.returned .turned)
  | uncountedExpired (started : SystemTime) (expired : List UInt32) :
      Moves config shards manager input (.uncountingExpired started expired)
        .decremented manager.decrementActiveStreams (.expiring started expired)
  | measuredShard (shard sum : Nat) (among : shard < shards.count) :
      Moves config shards manager input (.measuring shard sum)
        (.readShard shard) manager
        (.measuring (shard + 1) (sum + shards.sizeIn manager.streams shard))
  | measured (shard sum : Nat) (all : shards.count ≤ shard) :
      Moves config shards manager input (.measuring shard sum)
        (.measured sum) manager (.storing (asU32 sum))
  | stored (count : UInt32) :
      Moves config shards manager input (.storing count) (.stored count)
        (manager.setActiveStreams count) (.returned .turned)

theorem moves_of_next {before after : StreamManager} {input : Input}
    {task rest : Task} {event : Event}
    {turned : Turn StreamManager Task Event}
    (taken : next event after rest = some turned)
    (moves : Moves config shards before input task event after rest) :
    Moves config shards before input task turned.event turned.shared
        turned.task ∧ turned.spawned = [] := by
  rw [eq_of_next taken]
  exact ⟨moves, rfl⟩

theorem turn_moves {manager : StreamManager} {task : Task} {input : Input}
    {turned : Turn StreamManager Task Event}
    (taken : turn config shards manager task input = some turned) :
    Moves config shards manager input task turned.event turned.shared
        turned.task ∧ turned.spawned = [] := by
  unfold turn at taken
  cases task with
  | checking request shard sum =>
      simp only at taken
      split at taken
      · next among =>
          exact moves_of_next taken (.readShard request shard sum among)
      · next ended =>
          have all := Nat.le_of_not_lt ended
          split at taken
          · next full =>
              exact moves_of_next taken (.refused request shard sum all full)
          · next room =>
              exact moves_of_next taken
                (.admitted request shard sum all (Nat.lt_of_not_le room))
  | numbering request =>
      simp only at taken
      split at taken
      · next invalid => exact moves_of_next taken (.misdirected request invalid)
      · next target valid =>
          exact moves_of_next taken (.numbered request target valid)
  | inserting targetAddress session =>
      exact moves_of_next taken (.inserted targetAddress session)
  | counting targetAddress streamId =>
      exact moves_of_next taken (.counted targetAddress streamId)
  | closing streamId =>
      simp only at taken
      cases found : manager.streams.lookup streamId with
      | none =>
          rw [found, if_neg (AList.lookup_eq_none.mp found)] at taken
          exact moves_of_next taken (.missed streamId found)
      | some session =>
          rw [found, if_pos (mem_of_lookup found)] at taken
          exact moves_of_next taken (.removed streamId session found)
  | uncounting => exact moves_of_next taken .uncounted
  | startingCleanup => exact moves_of_next taken .startedCleanup
  | scanning now shard expired =>
      simp only at taken
      split at taken
      · next among =>
          exact moves_of_next taken (.scanned now shard expired among)
      · next all =>
          exact moves_of_next taken
            (.scanEnded now shard expired (Nat.le_of_not_lt all))
  | expiring started expired =>
      simp only at taken
      split at taken
      · next streamId chosen =>
          cases found : manager.streams.lookup streamId with
          | none =>
              rw [found, if_neg (AList.lookup_eq_none.mp found)] at taken
              exact moves_of_next taken
                (.vanished started expired streamId chosen found)
          | some session =>
              rw [found, if_pos (mem_of_lookup found)] at taken
              exact moves_of_next taken
                (.expired started expired streamId chosen session found)
      · split at taken
        · next none =>
            subst none
            exact moves_of_next taken (.cleanupEnded started)
        · cases taken
  | uncountingExpired started expired =>
      exact moves_of_next taken (.uncountedExpired started expired)
  | measuring shard sum =>
      simp only at taken
      split at taken
      · next among =>
          exact moves_of_next taken (.measuredShard shard sum among)
      · next ended =>
          exact moves_of_next taken
            (.measured shard sum (Nat.le_of_not_lt ended))
  | storing count => exact moves_of_next taken (.stored count)
  | returned outcome => cases taken

/-- The step behind an event. -/
theorem moves_of_performed {pool : Pool StreamManager Task} {index : Nat}
    {input : Input} {event : Event}
    (performed : (perform (program config shards) pool (.run index input)).1 =
      some event) :
    ∃ (task : Task) (turned : Turn StreamManager Task Event),
      pool.tasks[index]? = some task ∧
      (perform (program config shards) pool (.run index input)).2 =
        pool.resume index turned ∧
      turned.spawned = [] ∧
      Moves config shards pool.shared input task event turned.shared
        turned.task := by
  have moved := perform_moved (program config shards) pool (.run index input)
  generalize perform (program config shards) pool (.run index input) = outcome
    at moved performed ⊢
  cases moved with
  | waited _ _ blocked => cases performed
  | turned _ _ task turned present taken =>
      obtain ⟨moves, alone⟩ := turn_moves taken
      rw [← Option.some.inj performed]
      exact ⟨task, turned, present, rfl, alone, moves⟩

/-- The task that has joined last. -/
theorem perform_last {manager : StreamManager} {tasks : List Task}
    {task rest : Task} {input : Input} {event : Event} {after : StreamManager}
    (taken : turn config shards manager task input =
      next event after rest) :
    perform (program config shards) ⟨manager, tasks ++ [task]⟩
        (.run tasks.length input) =
      (some event, ⟨after, tasks ++ [rest]⟩) := by
  rw [perform_run List.getElem?_concat_length taken]
  simp [Pool.resume]

/-- A check of the call that has joined last reads a shard. -/
theorem perform_readShard {manager : StreamManager} {tasks : List Task}
    {request : OpenRequest} {shard sum : Nat} (among : shard < shards.count)
    (input : Input) :
    perform (program config shards)
        ⟨manager, tasks ++ [.checking request shard sum]⟩
        (.run tasks.length input) =
      (some (.readShard shard),
        ⟨manager, tasks ++ [.checking request (shard + 1)
          (sum + shards.sizeIn manager.streams shard)]⟩) :=
  perform_last (if_pos among)

/-- It has read all of them and passes. -/
theorem perform_admitted {manager : StreamManager} {tasks : List Task}
    {request : OpenRequest} {sum : Nat}
    (room : sum < config.maxConcurrentStreams.toNat) (input : Input) :
    perform (program config shards)
        ⟨manager, tasks ++ [.checking request shards.count sum]⟩
        (.run tasks.length input) =
      (some (.checked true), ⟨manager, tasks ++ [.numbering request]⟩) := by
  apply perform_last
  rw [turn, if_neg (Nat.lt_irrefl _), if_neg (Nat.not_le.mpr room)]

def start : Pool StreamManager Task where
  shared := .new
  tasks := []

/-- The state that a run ends in. -/
abbrev finalPool (config : StreamManagerConfig) (shards : Shards)
    (actions : List (Action Request Input)) : Pool StreamManager Task :=
  Trace.final (perform (program config shards)) start actions

end NyxNet.Streams
