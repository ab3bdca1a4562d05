import NyxNet.Daemon.DhtWire
import NyxNet.Lib.Hex

/-!
# Requests for nodes

The three clients that write a `FindNode` request.  Those of
`nyx-daemon/src/path_builder.rs` ask for a random UUID, the one of
`pure_rust_dht_tcp.rs` for the key of the lookup as it is.  A server decodes
the target as 32 bytes in hexadecimal.
-/

namespace NyxNet.Dht

/-- The text of a UUID: 36 characters, hyphens behind the first four of the five
groups. -/
structure UuidText where
  text : String
  length : text.toList.length = 36
  hyphenated : ∀ place ∈ [8, 13, 18, 23], text.toList[place]? = some '-'

/-- A request for nodes with what its client puts in. -/
inductive FindNodeRequest where
  | connectAndQueryBootstrapPeer (target localNode : UuidText)
  | queryPeerForNeighbors (target localNode : UuidText)
  | queryPeerForClosestNodes (targetId : String)

namespace FindNodeRequest

/-- `get_local_node_id`. -/
def getLocalNodeId (localNode : UuidText) : String :=
  "local_node_" ++ localNode.text

def message : FindNodeRequest → DhtMessage
  | .connectAndQueryBootstrapPeer target localNode =>
      .findNode target.text (getLocalNodeId localNode)
  | .queryPeerForNeighbors target localNode =>
      .findNode target.text (getLocalNodeId localNode)
  | .queryPeerForClosestNodes targetId => .findNode targetId "anonymous"

/-- A lookup for a key of 64 hexadecimal digits. -/
def HasHexKey : FindNodeRequest → Prop
  | .queryPeerForClosestNodes targetId => Hex.Encodes targetId 32
  | _ => False

end FindNodeRequest

variable {crates : Crates}

/-- The node accepts the target and answers with the nodes of its routing table
that are closest to it. -/
def Answers (node : Node crates) (request : DhtMessage) : Prop :=
  ∃ target, processMessage node request =
    .ok (.findNodeResponse (node.routingTable.findClosestNodes crates.sha256
      target 20), node.storage)

theorem asArray_eq_some {count : Nat} {bytes : Bytes}
    (length : bytes.length = count) : ∃ array, asArray count bytes = some array :=
  ⟨_, dif_pos length⟩

/-- A server answers when the target stands for 32 bytes. -/
theorem answers_findNode_iff (decodes : Hex.Decodes crates.hexDecode)
    (node : Node crates) (targetId requesterId : String) :
    Answers node (.findNode targetId requesterId) ↔ Hex.Encodes targetId 32 := by
  rw [← decodes targetId 32, Answers]
  cases decoded : crates.hexDecode targetId with
  | error e => simp [processMessage, decoded]
  | ok bytes =>
      simp only [processMessage, decoded, Except.ok.injEq, exists_eq_left']
      by_cases length : bytes.length = 32
      · obtain ⟨array, converted⟩ := asArray_eq_some length
        simp only [converted, length, iff_true]
        exact ⟨array, rfl⟩
      · have refused : asArray 32 bytes = none := dif_neg length
        simp [refused, length]

/-- A hyphen is no digit. -/
theorem UuidText.not_encodes (uuid : UuidText) (count : Nat) :
    ¬ Hex.Encodes uuid.text count := by
  intro encodes
  have hyphen : '-' ∈ uuid.text.toList :=
    List.mem_of_getElem? (uuid.hyphenated 8 (by decide))
  have digit := encodes.2 '-' hyphen
  revert digit
  decide

theorem findNode_answered_iff (crates : Crates)
    (decodes : Hex.Decodes crates.hexDecode) (node : Node crates)
    (request : FindNodeRequest) :
    Answers node request.message ↔ request.HasHexKey := by
  cases request with
  | connectAndQueryBootstrapPeer target localNode =>
      rw [FindNodeRequest.message, answers_findNode_iff decodes]
      exact iff_of_false (target.not_encodes 32) id
  | queryPeerForNeighbors target localNode =>
      rw [FindNodeRequest.message, answers_findNode_iff decodes]
      exact iff_of_false (target.not_encodes 32) id
  | queryPeerForClosestNodes targetId =>
      exact answers_findNode_iff decodes node targetId "anonymous"

/-- The sample node with the decoder. -/
def hexCrates : Crates := { sampleCrates with hexDecode := Hex.decode }

def hexNode : Node hexCrates where
  routingTable := RoutingTable.new sampleNodeId 20
  storage := ∅
  keypair := ()

/-- A key that is itself the text of an id. -/
def sampleHexKey : String := String.ofList (List.replicate 64 '7')

theorem findNode_answered_hexKey :
    Answers hexNode
      (FindNodeRequest.queryPeerForClosestNodes sampleHexKey).message := by
  have hexKey : Hex.Encodes sampleHexKey 32 := by
    unfold sampleHexKey Hex.Encodes
    rw [String.toList_ofList]
    refine ⟨List.length_replicate, ?_⟩
    intro letter member
    rw [List.eq_of_mem_replicate member]
    decide +kernel
  exact (findNode_answered_iff hexCrates Hex.decode_decodes hexNode
    (.queryPeerForClosestNodes sampleHexKey)).mpr hexKey

def sampleUuid : UuidText where
  text := "550e8400-e29b-41d4-a716-446655440000"
  length := by decide +kernel
  hyphenated := by decide +kernel

/-- The requests of discovery and of a lookup for an ordinary key. -/
theorem findNode_refused :
    processMessage hexNode (FindNodeRequest.connectAndQueryBootstrapPeer
        sampleUuid sampleUuid).message =
      .error (.invalidMessage
        "Invalid target_id: Invalid character '-' at position 8") ∧
    processMessage hexNode
        (FindNodeRequest.queryPeerForClosestNodes "report").message =
      .error (.invalidMessage
        "Invalid target_id: Invalid character 'r' at position 0") ∧
    ¬ Answers hexNode (FindNodeRequest.connectAndQueryBootstrapPeer
        sampleUuid sampleUuid).message := by
  have refused : processMessage hexNode
      (FindNodeRequest.connectAndQueryBootstrapPeer
        sampleUuid sampleUuid).message =
      .error (.invalidMessage
        "Invalid target_id: Invalid character '-' at position 8") := by
    have decoded : hexCrates.hexDecode sampleUuid.text =
        .error "Invalid character '-' at position 8" := by
      decide +kernel
    simp only [FindNodeRequest.message, processMessage, decoded]
    rfl
  refine ⟨refused, ?_, ?_⟩
  · have decoded : hexCrates.hexDecode "report" =
        .error "Invalid character 'r' at position 0" := by
      decide +kernel
    simp only [FindNodeRequest.message, processMessage, decoded]
    rfl
  · intro answers
    obtain ⟨target, answered⟩ := answers
    rw [refused] at answered
    cases answered

end NyxNet.Dht
