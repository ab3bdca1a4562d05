import NyxNet.Daemon.RoutingTable
import NyxNet.Lib.GuardedTask
import NyxNet.Lib.SocketAddr
import NyxNet.Lib.Word

/-!
# Joining the hash table

`bootstrap` of `nyx-daemon/src/pure_rust_dht_tcp.rs` and the functions that call
it or change its nodes.  The bootstrap reads the bootstrap manager under a guard
that it keeps to its end, and asks for the same lock for writing when enough
connections succeeded.
-/

namespace NyxNet.Dht

open GuardedTask

structure BootstrapNode where
  address : SocketAddr
  nodeId : Option String
  priority : UInt32
  lastSuccessfulConnection : Option UInt64
  failureCount : UInt32
  averageResponseTime : Float
  reliabilityScore : Float
  supportedProtocols : List String

structure BootstrapManager where
  bootstrapNodes : List BootstrapNode
  maxConcurrentAttempts : Nat
  minSuccessfulConnections : Nat

/-- What the tasks of the node share, and whether its maintenance runs. -/
structure SharedDht where
  bootstrapManager : BootstrapManager
  routingTable : RoutingTable
  periodicTasks : Bool

inductive DhtLock where
  | bootstrapManager
  | routingTable
  | storage
  | persistentStorage
  | lastSaveTime
  deriving DecidableEq, Repr

inductive BootstrapError where
  | bootstrapFailed
  | invalidMessage (message : String)
  deriving DecidableEq, Repr

abbrev DhtTask (α : Type) : Type :=
  GuardedTask DhtLock SharedDht (Outcome BootstrapError α)

/-- What the surroundings decide about one bootstrap: which of the sorted nodes
can be connected to, what is answered there to each of the four queries, the
time, and what becomes of the files. -/
structure Surroundings where
  connected : Nat → Bool
  answers : Nat → Vector (Option (List PeerInfo)) 4
  now : UInt64
  createDir : Except String Unit

variable {α : Type} (sha256 : Bytes → Vector UInt8 32)
  (surroundings : Surroundings)

/-- `save_to_storage`.  The contents of the files are left out. -/
def saveToStorage (rest : Except BootstrapError Unit → DhtTask α) : DhtTask α :=
  .acquire ⟨.persistentStorage, .read⟩ <|
  match surroundings.createDir with
  | .error error =>
      .release ⟨.persistentStorage, .read⟩ <|
      rest (.error (.invalidMessage
        s!"Failed to create storage directory: {error}"))
  | .ok () =>
      .acquire ⟨.routingTable, .read⟩ <|
      .release ⟨.routingTable, .read⟩ <|
      .acquire ⟨.storage, .read⟩ <|
      .release ⟨.storage, .read⟩ <|
      .acquire ⟨.bootstrapManager, .read⟩ <|
      .release ⟨.bootstrapManager, .read⟩ <|
      .acquire ⟨.lastSaveTime, .write⟩ <|
      .release ⟨.lastSaveTime, .write⟩ <|
      .release ⟨.persistentStorage, .read⟩ <|
      rest (.ok ())

/-- `save_bootstrap_info` under a guard of the persistent storage. -/
def saveBootstrapInfo (saved : Except BootstrapError Unit)
    (rest : Except BootstrapError Unit → DhtTask α) : DhtTask α :=
  .acquire ⟨.bootstrapManager, .read⟩ <|
  .release ⟨.bootstrapManager, .read⟩ <|
  rest saved

/-- The change that `update_bootstrap_statistics` makes to a node. -/
def BootstrapNode.withStatistics (node : BootstrapNode) (successful failed : Nat)
    (now : UInt64) : BootstrapNode :=
  let successRate :=
    Float.ofNat successful / Float.ofNat (successful + failed)
  { node with
    reliabilityScore := node.reliabilityScore * (1 - 0.1) + successRate * 0.1
    lastSuccessfulConnection :=
      if 0 < successful then some now else node.lastSuccessfulConnection }

/-- `update_bootstrap_statistics`. -/
def updateBootstrapStatistics (successful failed : Nat) (now : UInt64)
    (rest : DhtTask α) : DhtTask α :=
  .acquire ⟨.bootstrapManager, .write⟩ <|
  .update (fun dht =>
    if 0 < successful + failed then
      { dht with
        bootstrapManager := { dht.bootstrapManager with
          bootstrapNodes := dht.bootstrapManager.bootstrapNodes.map fun node =>
            node.withStatistics successful failed now } }
    else
      dht) <|
  .release ⟨.bootstrapManager, .write⟩ rest

/-- `perform_initial_queries`: the answers go into the routing table. -/
def performInitialQueries (rest : DhtTask α) :
    List (Option (List PeerInfo)) → DhtTask α
  | [] => rest
  | none :: answers => performInitialQueries rest answers
  | some peerList :: answers =>
      .acquire ⟨.routingTable, .write⟩ <|
      .look fun dht =>
        match peerList.foldlM (RoutingTable.addPeer sha256)
            dht.routingTable with
        | none => .ended .panicked
        | some table =>
            .update (fun dht => { dht with routingTable := table }) <|
            .release ⟨.routingTable, .write⟩ <|
            performInitialQueries rest answers

/-- The connections of one chunk, from the node at that place on. -/
def connectChunk (rest : Nat → Nat → DhtTask α) (index : Nat) :
    Nat → Nat → List BootstrapNode → DhtTask α
  | successful, failed, [] => rest successful failed
  | successful, failed, _ :: nodes =>
      if surroundings.connected index then
        performInitialQueries sha256
          (connectChunk rest (index + 1) (successful + 1) failed nodes)
          (surroundings.answers index).toList
      else
        connectChunk rest (index + 1) successful (failed + 1) nodes

/-- The loop over the chunks. -/
def connectChunks (minSuccessful : Nat) (rest : Nat → Nat → DhtTask α)
    (index : Nat) : Nat → Nat → List (List BootstrapNode) → DhtTask α
  | successful, failed, [] => rest successful failed
  | successful, failed, chunk :: chunks =>
      connectChunk sha256 surroundings (fun successful failed =>
        if minSuccessful ≤ successful then
          rest successful failed
        else
          connectChunks minSuccessful rest (index + chunk.length) successful
            failed chunks) index successful failed chunk

/-- The nodes in the order in which they are tried. -/
def sortedNodes (nodes : List BootstrapNode) : List BootstrapNode :=
  nodes.mergeSort fun left right =>
    left.priority < right.priority ||
      left.priority = right.priority &&
        !decide (left.reliabilityScore < right.reliabilityScore)

/-- `bootstrap`, with what its caller does with the result.  The guard of the
manager is released at its end. -/
def bootstrap (rest : Except BootstrapError Unit → DhtTask α) : DhtTask α :=
  let finish (result : Except BootstrapError Unit) : DhtTask α :=
    .release ⟨.bootstrapManager, .read⟩ (rest result)
  .acquire ⟨.bootstrapManager, .read⟩ <|
  .look fun dht =>
    let manager := dht.bootstrapManager
    if manager.bootstrapNodes = [] then
      finish (.error .bootstrapFailed)
    else if manager.maxConcurrentAttempts = 0 then
      -- `chunks(0)`
      .ended .panicked
    else
      connectChunks sha256 surroundings manager.minSuccessfulConnections
        (fun successful failed =>
          if successful < manager.minSuccessfulConnections then
            finish (.error .bootstrapFailed)
          else
            updateBootstrapStatistics successful failed surroundings.now <|
            saveToStorage surroundings finish)
        0 0 0 ((sortedNodes manager.bootstrapNodes).toChunks
          manager.maxConcurrentAttempts)

/-- The result as what the function returns. -/
def returning : Except BootstrapError α → DhtTask α
  | .ok value => .ended (.returned value)
  | .error error => .ended (.failed error)

/-- `start`, after its listener is bound.  The second listener that
`start_connection_handler` binds to the same address is left out. -/
def start : DhtTask Unit :=
  bootstrap sha256 surroundings fun _ =>
    .update (fun dht => { dht with periodicTasks := true }) <|
    .ended (.returned ())

/-- `perform_network_health_check`. -/
def performNetworkHealthCheck : DhtTask Bool :=
  .acquire ⟨.routingTable, .read⟩ <|
  .look fun dht =>
    .release ⟨.routingTable, .read⟩ <|
    if dht.routingTable.getAllPeers = [] then
      bootstrap sha256 surroundings fun
        | .ok () => .ended (.returned true)
        | .error _ => .ended (.returned false)
    else
      .ended (.returned true)

/-- `add_bootstrap_node`, given what becomes of the file. -/
def addBootstrapNode (address : SocketAddr) (priority : UInt32)
    (saved : Except BootstrapError Unit) : DhtTask Unit :=
  .acquire ⟨.bootstrapManager, .write⟩ <|
  .update (fun dht =>
    { dht with
      bootstrapManager := { dht.bootstrapManager with
        bootstrapNodes := dht.bootstrapManager.bootstrapNodes ++
          [{ address
             nodeId := none
             priority
             lastSuccessfulConnection := none
             failureCount := 0
             averageResponseTime := 0
             reliabilityScore := 1
             supportedProtocols := ["tcp"] }] } }) <|
  .acquire ⟨.persistentStorage, .read⟩ <|
  saveBootstrapInfo saved fun saved =>
    .release ⟨.persistentStorage, .read⟩ <|
    .release ⟨.bootstrapManager, .write⟩ <|
    returning saved

/-- `remove_bootstrap_node`. -/
def removeBootstrapNode (address : SocketAddr)
    (saved : Except BootstrapError Unit) : DhtTask Bool :=
  .acquire ⟨.bootstrapManager, .write⟩ <|
  .look fun before =>
    let initialLen := before.bootstrapManager.bootstrapNodes.length
    .update (fun dht =>
      { dht with
        bootstrapManager := { dht.bootstrapManager with
          bootstrapNodes := dht.bootstrapManager.bootstrapNodes.filter
            fun node => node.address ≠ address } }) <|
    .look fun dht =>
      if dht.bootstrapManager.bootstrapNodes.length < initialLen then
        .acquire ⟨.persistentStorage, .read⟩ <|
        saveBootstrapInfo saved fun saved =>
          .release ⟨.persistentStorage, .read⟩ <|
          .release ⟨.bootstrapManager, .write⟩ <|
          returning (saved.map fun _ => true)
      else
        .release ⟨.bootstrapManager, .write⟩ <|
        .ended (.returned false)

variable {sha256}

/-- No peer that is added makes the table panic. -/
def SharedDht.Sound (sha256 : Bytes → Vector UInt8 32) (dht : SharedDht) :
    Prop :=
  RoutingTable.Sound sha256 dht.routingTable ∧ 1 ≤ dht.routingTable.kValue

theorem addPeers_sound {table : RoutingTable}
    (sound : RoutingTable.Sound sha256 table) (positive : 1 ≤ table.kValue)
    (peers : List PeerInfo) :
    ∃ after, peers.foldlM (RoutingTable.addPeer sha256) table = some after ∧
      RoutingTable.Sound sha256 after ∧ 1 ≤ after.kValue := by
  induction peers generalizing table with
  | nil => exact ⟨table, rfl, sound, positive⟩
  | cons peer peers ih =>
      obtain ⟨next, added, nextSound, sameSize, -⟩ :=
        RoutingTable.addPeer_sound sound positive peer
      obtain ⟨after, rest, afterSound, afterPositive⟩ :=
        ih nextSound (sameSize.symm ▸ positive)
      refine ⟨after, ?_, afterSound, afterPositive⟩
      rw [List.foldlM_cons, added]
      exact rest

/-- The guard that a bootstrap holds. -/
abbrev managerRead : List (Guard DhtLock) := [⟨.bootstrapManager, .read⟩]

/-- One piece of code hands on to another, in a state that differs in its
routing table alone. -/
def HandsOn (sha256 : Bytes → Vector UInt8 32) (dht : SharedDht)
    (task rest : DhtTask α) : Prop :=
  ∃ after : SharedDht, after.Sound sha256 ∧
    after.bootstrapManager = dht.bootstrapManager ∧
    after.periodicTasks = dht.periodicTasks ∧
    ∀ post, EndsWith post ⟨dht, managerRead, task⟩ ↔
      EndsWith post ⟨after, managerRead, rest⟩

theorem HandsOn.refl {dht : SharedDht} (sound : dht.Sound sha256)
    (task : DhtTask α) : HandsOn sha256 dht task task :=
  ⟨dht, sound, rfl, rfl, fun _ => Iff.rfl⟩

theorem handsOn_performInitialQueries {dht : SharedDht}
    (sound : dht.Sound sha256) (rest : DhtTask α)
    (answers : List (Option (List PeerInfo))) :
    HandsOn sha256 dht (performInitialQueries sha256 rest answers) rest := by
  induction answers generalizing dht with
  | nil => exact .refl sound rest
  | cons answer answers ih =>
      cases answer with
      | none => exact ih sound
      | some peerList =>
          obtain ⟨table, added, tableSound, positive⟩ :=
            addPeers_sound sound.1 sound.2 peerList
          obtain ⟨after, afterSound, sameManager, sameTasks, leads⟩ :=
            @ih { dht with routingTable := table } ⟨tableSound, positive⟩
          refine ⟨after, afterSound, sameManager, sameTasks, ?_⟩
          intro post
          rw [performInitialQueries, endsWith_acquire (by decide),
            endsWith_look]
          simp only [added]
          rw [endsWith_update, endsWith_release]
          exact leads post

theorem flatten_go {item : Type} (size : Nat) (items : List item)
    (chunk : Array item) (chunks : Array (List item)) :
    (List.toChunks.go size items chunk chunks).flatten =
      chunks.toList.flatten ++ chunk.toList ++ items := by
  induction items generalizing chunk chunks with
  | nil => simp [List.toChunks.go]
  | cons item items ih =>
      rw [List.toChunks.go]
      split
      · rw [ih]
        simp
      · rw [ih]
        simp

/-- Chunks in a row are the whole. -/
theorem flatten_toChunks {item : Type} (size : Nat) (items : List item) :
    (items.toChunks size).flatten = items := by
  cases items with
  | nil => cases size <;> rfl
  | cons first items =>
      cases size with
      | zero => exact List.append_nil (first :: items)
      | succ size =>
          rw [List.toChunks, flatten_go]
          · rfl
          · exact Nat.succ_ne_zero size

/-- How many of the connections succeed from that place on. -/
def successes (connected : Nat → Bool) (index : Nat)
    (nodes : List BootstrapNode) : Nat :=
  (List.range' index nodes.length).countP connected

theorem handsOn_connectChunk (surroundings : Surroundings) {dht : SharedDht}
    (sound : dht.Sound sha256) (rest : Nat → Nat → DhtTask α)
    (index successful failed : Nat) (nodes : List BootstrapNode) :
    ∃ failures, HandsOn sha256 dht
      (connectChunk sha256 surroundings rest index successful failed nodes)
      (rest (successful + successes surroundings.connected index nodes)
        failures) := by
  induction nodes generalizing dht index successful failed with
  | nil => exact ⟨failed, .refl sound _⟩
  | cons node nodes ih =>
      rw [connectChunk]
      have counted : successes surroundings.connected index (node :: nodes) =
          successes surroundings.connected (index + 1) nodes +
            if surroundings.connected index = true then 1 else 0 :=
        List.countP_cons
      by_cases connects : surroundings.connected index = true
      · rw [if_pos connects] at counted ⊢
        obtain ⟨middle, middleSound, sameManager, sameTasks, leads⟩ :=
          handsOn_performInitialQueries sound
            (connectChunk sha256 surroundings rest (index + 1) (successful + 1)
              failed nodes) (surroundings.answers index).toList
        obtain ⟨failures, after, afterSound, laterManager, laterTasks,
          leadsOn⟩ := ih middleSound (index + 1) (successful + 1) failed
        refine ⟨failures, after, afterSound, laterManager.trans sameManager,
          laterTasks.trans sameTasks, ?_⟩
        have total : successful + 1 +
            successes surroundings.connected (index + 1) nodes =
            successful + successes surroundings.connected index
              (node :: nodes) := by omega
        intro post
        rw [leads post, leadsOn post, total]
      · rw [if_neg connects] at counted ⊢
        rw [counted, Nat.add_zero]
        exact ih sound (index + 1) successful (failed + 1)

/-- The loop ends with enough connections exactly when enough of them succeed. -/
theorem handsOn_connectChunks (surroundings : Surroundings) {dht : SharedDht}
    (sound : dht.Sound sha256) (minSuccessful : Nat)
    (rest : Nat → Nat → DhtTask α) (index successful failed : Nat)
    (chunks : List (List BootstrapNode)) :
    ∃ total failures,
      (minSuccessful ≤ total ↔ minSuccessful ≤ successful +
        successes surroundings.connected index chunks.flatten) ∧
      HandsOn sha256 dht
        (connectChunks sha256 surroundings minSuccessful rest index successful
          failed chunks) (rest total failures) := by
  induction chunks generalizing dht index successful failed with
  | nil => exact ⟨successful, failed, Iff.rfl, .refl sound _⟩
  | cons chunk chunks ih =>
      have counted : successes surroundings.connected index
          (chunk :: chunks).flatten =
          successes surroundings.connected index chunk +
            successes surroundings.connected (index + chunk.length)
              chunks.flatten := by
        unfold successes
        rw [List.flatten_cons, List.length_append, ← List.range'_append_1,
          List.countP_append]
      rw [connectChunks]
      obtain ⟨failures, middle, middleSound, sameManager, sameTasks, leads⟩ :=
        handsOn_connectChunk surroundings sound (fun successful failed =>
          if minSuccessful ≤ successful then
            rest successful failed
          else
            connectChunks sha256 surroundings minSuccessful rest
              (index + chunk.length) successful failed chunks)
          index successful failed chunk
      by_cases enough : minSuccessful ≤
          successful + successes surroundings.connected index chunk
      · refine ⟨successful + successes surroundings.connected index chunk,
          failures, ?_, middle, middleSound, sameManager, sameTasks, ?_⟩
        · omega
        · intro post
          rw [leads post, if_pos enough]
      · obtain ⟨total, laterFailures, reached, after, afterSound, laterManager,
          laterTasks, leadsOn⟩ := ih middleSound (index + chunk.length)
            (successful + successes surroundings.connected index chunk) failures
        refine ⟨total, laterFailures, ?_, after, afterSound,
          laterManager.trans sameManager, laterTasks.trans sameTasks, ?_⟩
        · rw [reached, counted, Nat.add_assoc]
        · intro post
          rw [leads post, if_neg enough, leadsOn post]

/-- Too few of the connections succeed, or there is nothing to connect to. -/
def Fails (surroundings : Surroundings) (manager : BootstrapManager) : Prop :=
  manager.bootstrapNodes = [] ∨
    successes surroundings.connected 0 (sortedNodes manager.bootstrapNodes) <
      manager.minSuccessfulConnections

/-- A bootstrap that fails hands its error on, and one that does not never comes
to its end: the statistics are written under its own guard. -/
theorem bootstrap_hands_on (surroundings : Surroundings) {dht : SharedDht}
    (sound : dht.Sound sha256)
    (chunked : 0 < dht.bootstrapManager.maxConcurrentAttempts)
    (rest : Except BootstrapError Unit → DhtTask α) :
    (Fails surroundings dht.bootstrapManager →
      ∃ after : SharedDht, after.Sound sha256 ∧
        after.bootstrapManager = dht.bootstrapManager ∧
        after.periodicTasks = dht.periodicTasks ∧
        ∀ post, EndsWith post ⟨dht, [], bootstrap sha256 surroundings rest⟩ ↔
          EndsWith post ⟨after, [], rest (.error .bootstrapFailed)⟩) ∧
    (¬ Fails surroundings dht.bootstrapManager →
      ∀ post, ¬ EndsWith post
        ⟨dht, [], bootstrap sha256 surroundings rest⟩) := by
  by_cases empty : dht.bootstrapManager.bootstrapNodes = []
  · refine ⟨fun _ => ⟨dht, sound, rfl, rfl, ?_⟩, fun fails =>
      absurd (.inl empty) fails⟩
    intro post
    unfold bootstrap
    rw [endsWith_acquire (by decide), endsWith_look]
    simp only [if_pos empty]
    rw [endsWith_release]
    rfl
  · obtain ⟨total, failures, reached, after, afterSound, sameManager,
      sameTasks, leads⟩ := handsOn_connectChunks surroundings sound
        dht.bootstrapManager.minSuccessfulConnections
        (fun successful failed =>
          if successful < dht.bootstrapManager.minSuccessfulConnections then
            .release ⟨.bootstrapManager, .read⟩ (rest (.error .bootstrapFailed))
          else
            updateBootstrapStatistics successful failed surroundings.now <|
            saveToStorage surroundings fun result =>
              .release ⟨.bootstrapManager, .read⟩ (rest result))
        0 0 0 ((sortedNodes dht.bootstrapManager.bootstrapNodes).toChunks
          dht.bootstrapManager.maxConcurrentAttempts)
    rw [flatten_toChunks, Nat.zero_add] at reached
    have entered : ∀ post,
        EndsWith post ⟨dht, [], bootstrap sha256 surroundings rest⟩ ↔
          EndsWith post ⟨after, managerRead,
            if total < dht.bootstrapManager.minSuccessfulConnections then
              .release ⟨.bootstrapManager, .read⟩
                (rest (.error .bootstrapFailed))
            else
              updateBootstrapStatistics total failures surroundings.now <|
              saveToStorage surroundings fun result =>
                .release ⟨.bootstrapManager, .read⟩ (rest result)⟩ := by
      intro post
      unfold bootstrap
      rw [endsWith_acquire (by decide), endsWith_look]
      simp only [if_neg empty, if_neg chunked.ne']
      exact leads post
    constructor
    · intro fails
      have few : total < dht.bootstrapManager.minSuccessfulConnections := by
        have missed := fails.resolve_left empty
        omega
      refine ⟨after, afterSound, sameManager, sameTasks, ?_⟩
      intro post
      rw [entered post, if_pos few, endsWith_release]
      rfl
    · intro fails post
      have enough : ¬ total <
          dht.bootstrapManager.minSuccessfulConnections := by
        intro few
        refine fails (.inr ?_)
        omega
      rw [entered post, if_neg enough, updateBootstrapStatistics]
      exact not_endsWith_acquire (by decide)

theorem endsWith_bootstrap {surroundings : Surroundings} {dht : SharedDht}
    (sound : dht.Sound sha256)
    (chunked : 0 < dht.bootstrapManager.maxConcurrentAttempts)
    (fails : Fails surroundings dht.bootstrapManager)
    {rest : Except BootstrapError Unit → DhtTask α}
    {post : SharedDht → Outcome BootstrapError α → Prop}
    (ends : ∀ after : SharedDht, after.Sound sha256 →
      after.bootstrapManager = dht.bootstrapManager →
        EndsWith post ⟨after, [], rest (.error .bootstrapFailed)⟩) :
    EndsWith post ⟨dht, [], bootstrap sha256 surroundings rest⟩ := by
  obtain ⟨after, afterSound, sameManager, -, leads⟩ :=
    (bootstrap_hands_on surroundings sound chunked rest).1 fails
  exact (leads post).mpr (ends after afterSound sameManager)

theorem fails_of_ends_bootstrap {surroundings : Surroundings} {dht : SharedDht}
    (sound : dht.Sound sha256)
    (chunked : 0 < dht.bootstrapManager.maxConcurrentAttempts)
    {rest : Except BootstrapError Unit → DhtTask α}
    (ends : Ends ⟨dht, [], bootstrap sha256 surroundings rest⟩) :
    Fails surroundings dht.bootstrapManager := by
  by_contra succeeds
  exact (bootstrap_hands_on surroundings sound chunked rest).2 succeeds _ ends

/-- No bootstrap succeeds: it returns its error where too few connections do,
and else it waits for itself.  The maintenance is started, and a node without
peers is given its verdict, only in the first case. -/
theorem bootstrap_never_succeeds (sha256 : Bytes → Vector UInt8 32)
    (surroundings : Surroundings) (dht : SharedDht) (sound : dht.Sound sha256)
    (chunked : 0 < dht.bootstrapManager.maxConcurrentAttempts) :
    (Ends ⟨dht, [], bootstrap sha256 surroundings returning⟩ ↔
      Fails surroundings dht.bootstrapManager) ∧
    (Fails surroundings dht.bootstrapManager →
      EndsWith (fun after result => result = .failed .bootstrapFailed ∧
          after.Sound sha256 ∧ after.bootstrapManager = dht.bootstrapManager)
        ⟨dht, [], bootstrap sha256 surroundings returning⟩) ∧
    (EndsWith (fun after result => result = .returned () ∧
        after.periodicTasks = true) ⟨dht, [], start sha256 surroundings⟩ ↔
      Fails surroundings dht.bootstrapManager) ∧
    (Ends ⟨dht, [], performNetworkHealthCheck sha256 surroundings⟩ ↔
      dht.routingTable.getAllPeers ≠ [] ∨
        Fails surroundings dht.bootstrapManager) := by
  refine ⟨⟨fails_of_ends_bootstrap sound chunked, ?_⟩, ?_, ⟨?_, ?_⟩, ?_⟩
  · intro fails
    exact endsWith_bootstrap sound chunked fails fun _ _ _ =>
      endsWith_ended.mpr trivial
  · intro fails
    exact endsWith_bootstrap sound chunked fails fun _ afterSound sameManager =>
      endsWith_ended.mpr ⟨rfl, afterSound, sameManager⟩
  · intro started
    obtain ⟨count, result, isEnd, -⟩ := started
    have ends : Ends ⟨dht, [], start sha256 surroundings⟩ :=
      ⟨count, result, isEnd, trivial⟩
    exact fails_of_ends_bootstrap sound chunked ends
  · intro fails
    refine endsWith_bootstrap sound chunked fails fun _ _ _ => ?_
    rw [endsWith_update, endsWith_ended]
    exact ⟨rfl, rfl⟩
  · unfold performNetworkHealthCheck Ends
    rw [endsWith_acquire (by decide), endsWith_look, endsWith_release]
    by_cases alone : dht.routingTable.getAllPeers = []
    · rw [if_pos alone]
      constructor
      · intro ends
        exact .inr (fails_of_ends_bootstrap sound chunked ends)
      · intro either
        refine endsWith_bootstrap sound chunked
          (either.resolve_left fun peers => peers alone) fun _ _ _ => ?_
        exact endsWith_ended.mpr trivial
    · rw [if_neg alone]
      exact ⟨fun _ => .inl alone, fun _ => endsWith_ended.mpr trivial⟩

/-- A new node that knows one bootstrap node. -/
def newDht : SharedDht where
  bootstrapManager :=
    { bootstrapNodes :=
        [{ address := .v4 (Vector.replicate 4 10) 443
           nodeId := none
           priority := 1
           lastSuccessfulConnection := none
           failureCount := 0
           averageResponseTime := 0
           reliabilityScore := 1
           supportedProtocols := ["tcp"] }]
      maxConcurrentAttempts := 5
      minSuccessfulConnections := 1 }
  routingTable := RoutingTable.new (Vector.replicate 32 0) 20
  periodicTasks := false

/-- The node can be connected to and names no peers. -/
def reachable : Surroundings where
  connected := fun _ => true
  answers := fun _ => Vector.replicate 4 (some [])
  now := 1700000000
  createDir := .ok ()

theorem bootstrap_never_succeeds_sample :
    (Ends ⟨newDht, [],
        bootstrap (fun _ => Vector.replicate 32 0) reachable returning⟩ ↔
      Fails reachable newDht.bootstrapManager) ∧
    (Fails reachable newDht.bootstrapManager →
      EndsWith (fun after result => result = .failed .bootstrapFailed ∧
          after.Sound (fun _ => Vector.replicate 32 0) ∧
          after.bootstrapManager = newDht.bootstrapManager)
        ⟨newDht, [],
          bootstrap (fun _ => Vector.replicate 32 0) reachable returning⟩) ∧
    (EndsWith (fun after result => result = .returned () ∧
        after.periodicTasks = true)
        ⟨newDht, [], start (fun _ => Vector.replicate 32 0) reachable⟩ ↔
      Fails reachable newDht.bootstrapManager) ∧
    (Ends ⟨newDht, [],
        performNetworkHealthCheck (fun _ => Vector.replicate 32 0) reachable⟩ ↔
      newDht.routingTable.getAllPeers ≠ [] ∨
        Fails reachable newDht.bootstrapManager) :=
  bootstrap_never_succeeds (fun _ => Vector.replicate 32 0) reachable newDht
    ⟨RoutingTable.sound_new (Vector.replicate 32 0) 20, by decide⟩ (by decide)

/-- The nodes of a bootstrap cannot be changed: a node that is added and one that
is found and removed are saved under a guard for writing, and the saving reads
under the same lock. -/
theorem node_changes_end_iff (dht : SharedDht) (address : SocketAddr)
    (priority : UInt32) (saved : Except BootstrapError Unit) :
    ¬ Ends ⟨dht, [], addBootstrapNode address priority saved⟩ ∧
    (Ends ⟨dht, [], removeBootstrapNode address saved⟩ ↔
      ∀ node ∈ dht.bootstrapManager.bootstrapNodes, node.address ≠ address) := by
  constructor
  · unfold addBootstrapNode saveBootstrapInfo Ends
    rw [endsWith_acquire (by decide), endsWith_update,
      endsWith_acquire (by decide)]
    exact not_endsWith_acquire (by decide)
  · unfold removeBootstrapNode saveBootstrapInfo Ends
    rw [endsWith_acquire (by decide), endsWith_look, endsWith_update,
      endsWith_look]
    by_cases found : (dht.bootstrapManager.bootstrapNodes.filter
        fun node => node.address ≠ address).length <
          dht.bootstrapManager.bootstrapNodes.length
    · rw [if_pos found]
      constructor
      · intro ends
        rw [endsWith_acquire (by decide)] at ends
        exact absurd ends (not_endsWith_acquire (by decide))
      · intro absent
        have kept : dht.bootstrapManager.bootstrapNodes.filter
            (fun node => node.address ≠ address) =
            dht.bootstrapManager.bootstrapNodes :=
          List.filter_eq_self.mpr fun node member =>
            decide_eq_true (absent node member)
        rw [kept] at found
        exact absurd found (lt_irrefl _)
    · rw [if_neg found, endsWith_release, endsWith_ended]
      have same := List.length_filter_eq_length_iff.mp
        (le_antisymm (List.length_filter_le _ _) (Nat.le_of_not_lt found))
      exact ⟨fun _ node member => of_decide_eq_true (same node member),
        fun _ => trivial⟩

end NyxNet.Dht
