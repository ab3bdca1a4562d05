import NyxNet.Daemon.ClosestPeers
import NyxNet.Lib.SocketAddr
import NyxNet.Lib.Str

/-!
# The iterative lookup

`iterative_find_node` of `nyx-daemon/src/pure_rust_dht_tcp.rs`.  Every round
asks the nearest nodes that were not asked before and puts the nodes of their
answers among the candidates.  An answer is only compared with the nodes that
were asked, so one that names a node twice puts it there twice.
-/

namespace NyxNet.Dht.PureRustDht

open DebugFormat

/-- The variants of `DhtError` that a lookup returns. -/
inductive DhtError where
  | notFound (message : String)
  | communication (message : String)
  deriving DecidableEq, Repr

/-- `peer_info_to_socket_addr`. -/
def peerInfoToSocketAddr (peer : PeerInfo) : Except DhtError SocketAddr :=
  let addrStr := peer.address.text.toList
  let found := do
    let (_, ipStart) ← Str.splitOnce "/ip4/".toList addrStr
    let (ip, _) ← Str.splitOnce "/".toList ipStart
    let (_, portStart) ← Str.splitOnce "/tcp/".toList addrStr
    match Str.splitOnce "/".toList portStart with
    | some (port, _) => some (ip, port)
    | none => some (ip, portStart)
  match found with
  | none => .error (.communication "Invalid multiaddr format")
  | some (ip, port) =>
      match SocketAddr.fromStr (String.ofList (ip ++ ':' :: port)) with
      | some socketAddr => .ok socketAddr
      | none => .error (.communication
          "Invalid address: invalid socket address syntax")

/-- The sets of ids are lists, and `queries` are the nodes for which a task was
started. -/
structure Lookup where
  closestNodes : List PeerInfo
  queriedNodes : List String
  contactedNodes : List String
  queries : List PeerInfo

/-- The answers of the tasks of a round, by their places in it. -/
abbrev Answers : Type := Nat → Option (List PeerInfo)

namespace Lookup

variable (sha256 : Bytes → Vector UInt8 32) (target : NodeId)
  (findValue : Bool) (lookup : Lookup)

/-- The nodes that a round is about. -/
def candidates : List PeerInfo :=
  (lookup.closestNodes.filter fun node =>
    node.peerId ∉ lookup.queriedNodes).take 3

/-- The candidates with an address that can be reached. -/
def asked : List PeerInfo :=
  lookup.candidates.filter fun candidate =>
    (peerInfoToSocketAddr candidate).isOk

/-- What a task comes back with.  The query for a value is a placeholder. -/
def taskResult (answer : Option (List PeerInfo)) : List PeerInfo :=
  if findValue then [] else answer.getD []

def newNodes (answers : Answers) : List PeerInfo :=
  (List.range lookup.asked.length).flatMap fun place =>
    taskResult findValue (answers place)

/-- The candidate list before it is sorted. -/
def merged (answers : Answers) : List PeerInfo :=
  lookup.closestNodes ++
    (lookup.newNodes findValue answers).filter fun node =>
      node.peerId ∉
        lookup.contactedNodes ++ lookup.candidates.map PeerInfo.peerId

/-- One round. -/
def round (answers : Answers) : Lookup where
  closestNodes :=
    ((lookup.merged findValue answers).mergeSort fun left right =>
      (xorDistance target (hashKey sha256 left.peerId)).toList ≤
        (xorDistance target (hashKey sha256 right.peerId)).toList).take 20
  queriedNodes := lookup.queriedNodes ++ lookup.candidates.map PeerInfo.peerId
  contactedNodes :=
    lookup.contactedNodes ++ lookup.candidates.map PeerInfo.peerId
  queries := lookup.queries ++ lookup.asked

/-- The loop, with the rounds that are left and the number of the next one. -/
def rounds (answers : Nat → Answers) : Nat → Nat → Lookup → Lookup
  | 0, _, lookup => lookup
  | remaining + 1, number, lookup =>
      if lookup.candidates = [] then
        lookup
      else
        let next := lookup.round sha256 target findValue (answers number)
        if 0 < number ∧ 20 ≤ next.closestNodes.length then
          next
        else
          rounds answers remaining (number + 1) next

/-- The lookup before its first round. -/
def start (table : RoutingTable) : Lookup where
  closestNodes := table.findClosestNodes sha256 target 20
  queriedNodes := []
  contactedNodes := []
  queries := []

end Lookup

/-- The lookup at its end; its closest nodes are the ones that the function
returns. -/
def iterativeFindNode (sha256 : Bytes → Vector UInt8 32) (table : RoutingTable)
    (targetId : String) (findValue : Bool) (answers : Nat → Answers) :
    Except DhtError Lookup :=
  let targetHash := hashKey sha256 targetId
  let start := Lookup.start sha256 targetHash table
  if start.closestNodes = [] then
    .error (.notFound "No nodes in routing table")
  else
    .ok (start.rounds sha256 targetHash findValue answers 10 0)

/-- At most 20 different nodes, nearest first, each of them from the table or
from an answer, and no two tasks for one id. -/
structure KeepsPromise (sha256 : Bytes → Vector UInt8 32)
    (table : RoutingTable) (target : NodeId) (answers : Nat → Answers)
    (lookup : Lookup) : Prop where
  few : lookup.closestNodes.length ≤ 20
  distinct : (lookup.closestNodes.map PeerInfo.peerId).Nodup
  sorted : lookup.closestNodes.Pairwise fun left right =>
    distance sha256 target left ≤ distance sha256 target right
  once : (lookup.queries.map PeerInfo.peerId).Nodup
  known : ∀ node ∈ lookup.closestNodes, node ∈ table.getAllPeers ∨
    ∃ number place nodes, answers number place = some nodes ∧ node ∈ nodes

namespace Lookup

section Rounds

variable {sha256 : Bytes → Vector UInt8 32} {target : NodeId}
  {findValue : Bool} {lookup : Lookup}

/-- The rounds that the loop makes, each with its number and the lookup in front
of it. -/
def executed (sha256 : Bytes → Vector UInt8 32) (target : NodeId)
    (findValue : Bool) (answers : Nat → Answers) :
    Nat → Nat → Lookup → List (Nat × Lookup)
  | 0, _, _ => []
  | remaining + 1, number, lookup =>
      if lookup.candidates = [] then
        []
      else
        let next := lookup.round sha256 target findValue (answers number)
        (number, lookup) ::
          if 0 < number ∧ 20 ≤ next.closestNodes.length then
            []
          else
            executed sha256 target findValue answers remaining (number + 1) next

theorem closestNodes_round (answers : Answers) :
    (lookup.round sha256 target findValue answers).closestNodes =
      (StableSort.sortBy (distance sha256 target)
        (lookup.merged findValue answers)).take 20 := by
  have sameOrder : ∀ left right : PeerInfo,
      ((xorDistance target (hashKey sha256 left.peerId)).toList ≤
        (xorDistance target (hashKey sha256 right.peerId)).toList) ↔
        distance sha256 target left ≤ distance sha256 target right := by
    intro left right
    rw [xorDistance_comm, xorDistance_comm target]
    exact le_iff_ofBeBytes_le (by simp)
  unfold round StableSort.sortBy
  simp only [sameOrder]

/-- The loop ends with the last of its rounds. -/
theorem rounds_eq (answers : Nat → Answers) (remaining number : Nat)
    (lookup : Lookup) :
    lookup.rounds sha256 target findValue answers remaining number =
      (executed sha256 target findValue answers remaining number
        lookup).getLast?.elim lookup fun entry =>
          entry.2.round sha256 target findValue (answers entry.1) := by
  induction remaining generalizing number lookup with
  | zero => rfl
  | succ remaining ih =>
      rw [rounds, executed]
      by_cases nothing : lookup.candidates = []
      · rw [if_pos nothing, if_pos nothing]
        rfl
      · rw [if_neg nothing, if_neg nothing]
        simp only
        split
        · rfl
        · rw [ih, List.getLast?_cons]
          cases (executed sha256 target findValue answers remaining
            (number + 1) (lookup.round sha256 target findValue
              (answers number))).getLast? <;> rfl

/-- A condition that every round keeps holds in front of every round and at the
end. -/
theorem rounds_invariant {answers : Nat → Answers}
    {invariant : Lookup → Prop}
    (kept : ∀ number lookup, invariant lookup →
      invariant (lookup.round sha256 target findValue (answers number)))
    (remaining number : Nat) (initial : invariant lookup) :
    invariant (lookup.rounds sha256 target findValue answers remaining
      number) := by
  induction remaining generalizing number lookup with
  | zero => exact initial
  | succ remaining ih =>
      rw [rounds]
      split
      · exact initial
      · simp only
        split
        · exact kept number lookup initial
        · exact ih (number + 1) (kept number lookup initial)

/-- The ids that were asked are among the ones that are not asked again. -/
def Logged (lookup : Lookup) : Prop :=
  ∀ node ∈ lookup.queries, node.peerId ∈ lookup.queriedNodes

theorem logged_round (logged : lookup.Logged) (answers : Answers) :
    (lookup.round sha256 target findValue answers).Logged := by
  intro node member
  rcases List.mem_append.mp member with before | now
  · exact List.mem_append_left _ (logged node before)
  · exact List.mem_append_right _
      (List.mem_map_of_mem (List.mem_of_mem_filter now))

theorem logged_start (sha256 : Bytes → Vector UInt8 32) (target : NodeId)
    (table : RoutingTable) : (start sha256 target table).Logged := by
  intro node impossible
  cases impossible

theorem candidates_start (table : RoutingTable) :
    (start sha256 target table).candidates =
      (start sha256 target table).closestNodes.take 3 := by
  unfold candidates
  rw [List.filter_eq_self.mpr]
  intro node _
  exact decide_eq_true List.not_mem_nil

theorem not_mem_of_asked {node : PeerInfo} (asked : node ∈ lookup.asked) :
    node.peerId ∉ lookup.queriedNodes :=
  of_decide_eq_true (List.mem_filter.mp
    (List.mem_of_mem_take (List.mem_of_mem_filter asked))).2

theorem nodup_queries_round (logged : lookup.Logged) (answers : Answers) :
    ((lookup.round sha256 target findValue answers).queries.map
        PeerInfo.peerId).Nodup ↔
      (lookup.queries.map PeerInfo.peerId).Nodup ∧
        (lookup.asked.map PeerInfo.peerId).Nodup := by
  rw [round, List.map_append, List.nodup_append]
  constructor
  · intro facts
    exact ⟨facts.1, facts.2.1⟩
  · intro facts
    refine ⟨facts.1, facts.2, ?_⟩
    intro old isOld new isNew same
    obtain ⟨before, wasAsked, rfl⟩ := List.mem_map.mp isOld
    obtain ⟨now, isAsked, rfl⟩ := List.mem_map.mp isNew
    have again := logged before wasAsked
    rw [same] at again
    exact not_mem_of_asked isAsked again

/-- No id is asked twice exactly when none is in one round. -/
theorem nodup_queries_rounds (sha256 : Bytes → Vector UInt8 32)
    (target : NodeId) (findValue : Bool) (answers : Nat → Answers)
    (remaining number : Nat) (logged : lookup.Logged) :
    ((lookup.rounds sha256 target findValue answers remaining
        number).queries.map PeerInfo.peerId).Nodup ↔
      (lookup.queries.map PeerInfo.peerId).Nodup ∧
        ∀ entry ∈ executed sha256 target findValue answers remaining number
          lookup, (entry.2.asked.map PeerInfo.peerId).Nodup := by
  induction remaining generalizing number lookup with
  | zero => simp [rounds, executed]
  | succ remaining ih =>
      have atRound :
          ((lookup.round sha256 target findValue
              (answers number)).queries.map PeerInfo.peerId).Nodup ↔ _ :=
        nodup_queries_round logged (answers number)
      rw [rounds, executed]
      by_cases nothing : lookup.candidates = []
      · rw [if_pos nothing, if_pos nothing]
        simp
      · rw [if_neg nothing, if_neg nothing]
        simp only
        split
        · rw [atRound, List.forall_mem_singleton]
        · rw [ih (number + 1) (logged_round logged (answers number)), atRound,
            List.forall_mem_cons, and_assoc]

/-- Every candidate is from the table or from an answer. -/
def Known (table : RoutingTable) (answers : Nat → Answers) (lookup : Lookup) :
    Prop :=
  ∀ node ∈ lookup.closestNodes, node ∈ table.getAllPeers ∨
    ∃ number place nodes, answers number place = some nodes ∧ node ∈ nodes

theorem known_start (table : RoutingTable) (answers : Nat → Answers) :
    (start sha256 target table).Known table answers := by
  intro node member
  refine Or.inl ?_
  rw [start, findClosestNodes_eq] at member
  exact StableSort.mem_sortBy.mp (List.mem_of_mem_take member)

theorem known_round {table : RoutingTable} {answers : Nat → Answers}
    (number : Nat) (lookup : Lookup) (known : lookup.Known table answers) :
    (lookup.round sha256 target findValue (answers number)).Known table
      answers := by
  intro node member
  rw [closestNodes_round] at member
  rcases List.mem_append.mp (StableSort.mem_sortBy.mp
    (List.mem_of_mem_take member)) with old | new
  · exact known node old
  · obtain ⟨place, -, inAnswer⟩ :=
      List.mem_flatMap.mp (List.mem_of_mem_filter new)
    unfold taskResult at inAnswer
    split at inAnswer
    · cases inAnswer
    · cases answer : answers number place with
      | none =>
          rw [answer] at inAnswer
          cases inAnswer
      | some nodes =>
          rw [answer] at inAnswer
          exact Or.inr ⟨number, place, nodes, answer, inAnswer⟩

/-- A lookup with candidates makes a round. -/
theorem exists_last_executed (sha256 : Bytes → Vector UInt8 32)
    (target : NodeId) (findValue : Bool) (answers : Nat → Answers)
    (remaining number : Nat) (some : lookup.candidates ≠ []) :
    ∃ entry, (executed sha256 target findValue answers (remaining + 1) number
      lookup).getLast? = .some entry := by
  rw [executed, if_neg some]
  simp only
  rw [List.getLast?_cons]
  exact ⟨_, rfl⟩

end Rounds

/-- In no round two nodes with one id are asked, and of two nodes with one id
that are at hand in the last round the second has 20 others in front of it. -/
structure RoundsFit (sha256 : Bytes → Vector UInt8 32) (target : NodeId)
    (findValue : Bool) (answers : Nat → Answers) (lookup : Lookup) : Prop where
  asked : ∀ entry ∈ executed sha256 target findValue answers 10 0 lookup,
    (entry.2.asked.map PeerInfo.peerId).Nodup
  merged : ∀ entry ∈
      (executed sha256 target findValue answers 10 0 lookup).getLast?,
    ∀ front node rest,
      entry.2.merged findValue (answers entry.1) = front ++ node :: rest →
        StableSort.ahead (distance sha256 target)
          (entry.2.merged findValue (answers entry.1)) front node < 20 →
          ∀ other ∈ front, other.peerId ≠ node.peerId

end Lookup

theorem nodup_closestNodes_round {sha256 : Bytes → Vector UInt8 32}
    {target : NodeId} {findValue : Bool} (lookup : Lookup)
    (answers : Answers) :
    ((lookup.round sha256 target findValue answers).closestNodes.map
        PeerInfo.peerId).Nodup ↔
      ∀ front node rest,
        lookup.merged findValue answers = front ++ node :: rest →
          StableSort.ahead (distance sha256 target)
            (lookup.merged findValue answers) front node < 20 →
            ∀ other ∈ front, other.peerId ≠ node.peerId := by
  rw [Lookup.closestNodes_round]
  apply StableSort.nodup_take_sortBy_iff
  intro left right same
  rw [distance, distance, same]

theorem iterativeFindNode_keepsPromise_iff (sha256 : Bytes → Vector UInt8 32)
    (table : RoutingTable) (targetId : String) (findValue : Bool)
    (answers : Nat → Answers) :
    (∀ lookup, iterativeFindNode sha256 table targetId findValue answers =
        .ok lookup →
      KeepsPromise sha256 table (hashKey sha256 targetId) answers lookup) ↔
      Lookup.RoundsFit sha256 (hashKey sha256 targetId) findValue answers
        (Lookup.start sha256 (hashKey sha256 targetId) table) := by
  unfold iterativeFindNode
  simp only
  generalize hashKey sha256 targetId = target
  by_cases empty : (Lookup.start sha256 target table).closestNodes = []
  · rw [if_pos empty]
    have noRounds : Lookup.executed sha256 target findValue answers 10 0
        (Lookup.start sha256 target table) = [] := by
      rw [Lookup.executed]
      apply if_pos
      rw [Lookup.candidates, empty]
      rfl
    refine iff_of_true ?_ ⟨?_, ?_⟩
    · intro lookup impossible
      cases impossible
    · rw [noRounds]
      intro entry impossible
      cases impossible
    · rw [noRounds]
      intro entry impossible
      cases impossible
  · rw [if_neg empty]
    have some : (Lookup.start sha256 target table).candidates ≠ [] := by
      intro none
      rw [Lookup.candidates_start, List.take_eq_nil_iff] at none
      exact empty (none.resolve_left (by decide))
    obtain ⟨entry, last⟩ :=
      Lookup.exists_last_executed sha256 target findValue answers 9 0 some
    have final : (Lookup.start sha256 target table).rounds sha256 target
        findValue answers 10 0 =
          entry.2.round sha256 target findValue (answers entry.1) := by
      rw [Lookup.rounds_eq, last]
      rfl
    have once := Lookup.nodup_queries_rounds sha256 target findValue answers
      10 0 (Lookup.logged_start sha256 target table)
    constructor
    · intro promises
      have promise := promises _ rfl
      refine ⟨(once.mp promise.once).2, ?_⟩
      intro other isLast
      rw [last] at isLast
      cases isLast
      have distinct := promise.distinct
      rw [final] at distinct
      exact (nodup_closestNodes_round entry.2 _).mp distinct
    · intro fit lookup same
      cases same
      refine ⟨?_, ?_, ?_, once.mpr ⟨List.nodup_nil, fit.asked⟩, ?_⟩
      · rw [final, Lookup.closestNodes_round]
        exact List.length_take_le _ _
      · rw [final]
        exact (nodup_closestNodes_round entry.2 _).mpr (fit.merged entry last)
      · rw [final, Lookup.closestNodes_round]
        exact (StableSort.pairwise_sortBy _ _).sublist (List.take_sublist _ _)
      · exact Lookup.rounds_invariant Lookup.known_round 10 0
          (Lookup.known_start table answers)

/-- The only peer of the table answers with one node twice. -/
def twiceBeta (number place : Nat) : Option (List PeerInfo) :=
  if number = 0 ∧ place = 0 then
    some [RoutingTable.samplePeer "beta", RoutingTable.samplePeer "beta"]
  else
    none

theorem getAllPeers_alpha :
    (tableOf ["alpha"]).getAllPeers = [RoutingTable.samplePeer "alpha"] := by
  decide +kernel

section Twice

variable (target : NodeId)

theorem closestNodes_alpha :
    (Lookup.start RoutingTable.sampleDigest target
        (tableOf ["alpha"])).closestNodes =
      [RoutingTable.samplePeer "alpha"] := by
  rw [Lookup.start, findClosestNodes_eq, getAllPeers_alpha]
  exact congrArg (List.take 20) (List.mergeSort_singleton _)

/-- The lookup after its first round. -/
def afterAlpha : Lookup :=
  (Lookup.start RoutingTable.sampleDigest target (tableOf ["alpha"])).round
    RoutingTable.sampleDigest target false (twiceBeta 0)

theorem asked_afterAlpha :
    (afterAlpha target).asked =
      [RoutingTable.samplePeer "beta", RoutingTable.samplePeer "beta"] := by
  have candidates : (Lookup.start RoutingTable.sampleDigest target
      (tableOf ["alpha"])).candidates = [RoutingTable.samplePeer "alpha"] := by
    rw [Lookup.candidates_start, closestNodes_alpha]
    rfl
  have merged : (Lookup.start RoutingTable.sampleDigest target
      (tableOf ["alpha"])).merged false (twiceBeta 0) =
        [RoutingTable.samplePeer "alpha", RoutingTable.samplePeer "beta",
          RoutingTable.samplePeer "beta"] := by
    have contacted : (Lookup.start RoutingTable.sampleDigest target
        (tableOf ["alpha"])).contactedNodes = [] := rfl
    rw [Lookup.merged, closestNodes_alpha, Lookup.newNodes, Lookup.asked,
      candidates, contacted]
    decide +kernel
  have closest : (afterAlpha target).closestNodes =
      StableSort.sortBy (distance RoutingTable.sampleDigest target)
        [RoutingTable.samplePeer "alpha", RoutingTable.samplePeer "beta",
          RoutingTable.samplePeer "beta"] := by
    rw [afterAlpha, Lookup.closestNodes_round, merged]
    apply List.take_of_length_le
    rw [StableSort.length_sortBy]
    decide
  have twice : (afterAlpha target).closestNodes.filter (fun node =>
      node.peerId ∉ ["alpha"]) =
        List.replicate 2 (RoutingTable.samplePeer "beta") := by
    rw [closest, ← List.perm_replicate]
    refine ((StableSort.sortBy_perm _ _).filter _).trans ?_
    decide +kernel
  have queried : (afterAlpha target).queriedNodes = ["alpha"] := by
    rw [afterAlpha, Lookup.round, candidates]
    rfl
  rw [Lookup.asked, Lookup.candidates, queried, twice]
  decide +kernel

end Twice

/-- The node is in the result twice and asked twice. -/
theorem lookup_asks_twice :
    ¬ ∀ (table : RoutingTable) (targetId : String) (findValue : Bool)
        (answers : Nat → Answers) (lookup : Lookup),
      iterativeFindNode RoutingTable.sampleDigest table targetId findValue
          answers = .ok lookup →
        KeepsPromise RoutingTable.sampleDigest table
          (hashKey RoutingTable.sampleDigest targetId) answers lookup := by
  intro promises
  let target := hashKey RoutingTable.sampleDigest "report"
  have begun : iterativeFindNode RoutingTable.sampleDigest (tableOf ["alpha"])
      "report" false twiceBeta =
        .ok ((Lookup.start RoutingTable.sampleDigest target
          (tableOf ["alpha"])).rounds RoutingTable.sampleDigest target false
            twiceBeta 10 0) := by
    apply if_neg
    rw [closestNodes_alpha]
    exact List.cons_ne_nil _ _
  have once := (promises _ _ _ _ _ begun).once
  rw [Lookup.nodup_queries_rounds RoutingTable.sampleDigest target false
    twiceBeta 10 0 (Lookup.logged_start _ target _)] at once
  have second : (1, afterAlpha target) ∈
      Lookup.executed RoutingTable.sampleDigest target false twiceBeta 10 0
        (Lookup.start RoutingTable.sampleDigest target (tableOf ["alpha"])) := by
    have first : (Lookup.start RoutingTable.sampleDigest target
        (tableOf ["alpha"])).candidates ≠ [] := by
      rw [Lookup.candidates_start, closestNodes_alpha]
      exact List.cons_ne_nil _ _
    have more : (afterAlpha target).candidates ≠ [] := by
      intro none
      have asked := asked_afterAlpha target
      rw [Lookup.asked, none] at asked
      cases asked
    rw [Lookup.executed, if_neg first]
    refine List.mem_cons_of_mem _ ?_
    rw [if_neg fun late => absurd late.1 (Nat.lt_irrefl 0)]
    change _ ∈ Lookup.executed _ _ _ _ _ _ (afterAlpha target)
    rw [Lookup.executed, if_neg more]
    exact List.mem_cons_self
  have different := once.2 _ second
  rw [asked_afterAlpha] at different
  revert different
  decide +kernel

end NyxNet.Dht.PureRustDht
