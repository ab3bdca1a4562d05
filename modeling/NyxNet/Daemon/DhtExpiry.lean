import NyxNet.Daemon.DhtPersistence
import NyxNet.Daemon.DhtReplication
import NyxNet.Lib.Trace

/-!
# Expiry of records

A node of `nyx-daemon/src/pure_rust_dht_tcp.rs` while time passes.  The storage
has four writers, `store`, `store_with_metadata`, `process_message` and
`restore_dht_records`, and three readers, `get`, `get_with_metadata` and
`process_message`.  Only the last writer looks at the time to live, so a record
is served until another one takes its place.
-/

namespace NyxNet.Dht

open LastWrite

variable {crates : Crates}

structure LocalNode (crates : Crates) where
  node : Node crates
  now : SystemTime

/-- Calls carry the times that they read themselves, since the clock moves on
during a call. -/
inductive Step where
  | store (timestamp : SystemTime) (key : String) (value : Bytes)
  | storeWithMetadata (timestamp : SystemTime) (key : String) (value : Bytes)
      (metadata : StorageMetadata)
  | receive (message : DhtMessage)
  | restore (records : List (SerializableDhtRecord × SystemTime))
  | setClock (now : SystemTime)
  | get (key : String) (searched : Option Bytes)
  | getWithMetadata (key : String)

inductive Reply where
  | done
  | panicked
  | got (value : Option Bytes)
  | gotWithMetadata (found : Option (Bytes × StorageMetadata))
  | responded (response : Except DhtError DhtMessage)

def Reply.value : Reply → Option Bytes
  | .got value => value
  | .gotWithMetadata found => found.map Prod.fst
  | .responded (.ok (.findValueResponse value _)) => value
  | _ => none

/-- `searched` is what the peers answer for a missing key; no value is the
error `NotFound`. -/
def get (storage : Storage) (key : String) (searched : Option Bytes) :
    Option Bytes :=
  match storage[key]? with
  | some record => some record.value
  | none => searched

def LocalNode.withStorage (state : LocalNode crates) (storage : Storage) :
    LocalNode crates :=
  { state with node := { state.node with storage } }

def perform (state : LocalNode crates) : Step → Reply × LocalNode crates
  | .store timestamp key value =>
      let record := createSignedRecord crates.ed25519 state.node.keypair
        timestamp key value
      (.done, state.withStorage (state.node.storage.insert key record))
  | .storeWithMetadata timestamp key value metadata =>
      let record := metadataRecord timestamp key value metadata
      (.done, state.withStorage (state.node.storage.insert key record))
  | .receive message =>
      match processMessage state.node message with
      | .ok (response, storage) =>
          (.responded (.ok response), state.withStorage storage)
      | .error e => (.responded (.error e), state)
  | .restore records =>
      let restoration := restoreDhtRecords state.node.storage records
      (if restoration.panicked then .panicked else .done,
        state.withStorage restoration.storage)
  | .setClock now => (.done, { state with now })
  | .get key searched => (.got (get state.node.storage key searched), state)
  | .getWithMetadata key =>
      (.gotWithMetadata (getWithMetadata state.node.storage key), state)

/-- What a step writes into the storage. -/
def written (ed25519 : Ed25519) (keypair : ed25519.SigningKey) :
    Step → List (String × DhtRecord)
  | .store timestamp key value =>
      [(key, createSignedRecord ed25519 keypair timestamp key value)]
  | .storeWithMetadata timestamp key value metadata =>
      [(key, metadataRecord timestamp key value metadata)]
  | .receive message => (accepted ed25519 message).toList
  | .restore records => restoredWrites records
  | .setClock _ | .get _ _ | .getWithMetadata _ => []

/-- The last record that was written under a key. -/
def lastWritten (start : LocalNode crates) (steps : List Step)
    (key : String) : Option DhtRecord :=
  (valuesOf start.node.storage
    (steps.flatMap (written crates.ed25519 start.node.keypair)) key).getLast?

/-- The time that the clock was set to last. -/
def clockAfter (start : SystemTime) : List Step → SystemTime
  | [] => start
  | .setClock now :: steps => clockAfter now steps
  | _ :: steps => clockAfter start steps

/-- The key that a step reads. -/
def Step.reads : Step → Option String
  | .get key _ => some key
  | .getWithMetadata key => some key
  | .receive (.findValue key _) => some key
  | _ => none

theorem perform_node (state : LocalNode crates) (step : Step) :
    (perform state step).2.node =
      { state.node with
        storage := apply state.node.storage
          (written crates.ed25519 state.node.keypair step) } := by
  cases step with
  | store timestamp key value => rfl
  | storeWithMetadata timestamp key value metadata => rfl
  | receive message =>
      rw [written, ← storageAfter_eq, Node.storageAfter, perform]
      cases processMessage state.node message <;> rfl
  | restore records =>
      rw [written, ← restoreDhtRecords_storage]
      rfl
  | setClock now => rfl
  | get key searched => rfl
  | getWithMetadata key => rfl

theorem perform_now (state : LocalNode crates) (step : Step) :
    (perform state step).2.now = clockAfter state.now [step] := by
  cases step with
  | receive message =>
      rw [perform]
      cases processMessage state.node message <;> rfl
  | store | storeWithMetadata | restore | setClock | get | getWithMetadata =>
      rfl

theorem final_node (start : LocalNode crates) (steps : List Step) :
    (Trace.final perform start steps).node =
      { start.node with
        storage := apply start.node.storage
          (steps.flatMap (written crates.ed25519 start.node.keypair)) } := by
  induction steps generalizing start with
  | nil => rfl
  | cons step steps ih =>
      rw [Trace.final, ih, perform_node, List.flatMap_cons, apply_append]

theorem final_now (start : LocalNode crates) (steps : List Step) :
    (Trace.final perform start steps).now = clockAfter start.now steps := by
  induction steps generalizing start with
  | nil => rfl
  | cons step steps ih =>
      rw [Trace.final, ih, perform_now]
      cases step <;> rfl

theorem lookup_final (start : LocalNode crates) (steps : List Step)
    (key : String) :
    (Trace.final perform start steps).node.storage[key]? =
      lastWritten start steps key := by
  rw [final_node, lastWritten, lookup_apply_valuesOf]

/-- The step answers with the value of a record of the storage. -/
def Serves (state : LocalNode crates) (step : Step) (record : DhtRecord) :
    Prop :=
  ∃ key, step.reads = some key ∧ state.node.storage[key]? = some record ∧
    (perform state step).1.value = some record.value

/-- Every reader serves what is there. -/
theorem value_of_lookup {state : LocalNode crates} {step : Step}
    {key : String} {record : DhtRecord} (reads : step.reads = some key)
    (found : state.node.storage[key]? = some record) :
    (perform state step).1.value = some record.value := by
  cases step with
  | get own searched =>
      obtain rfl := Option.some.inj reads
      simp only [perform, Reply.value, get, found]
  | getWithMetadata own =>
      obtain rfl := Option.some.inj reads
      simp only [perform, Reply.value, getWithMetadata, found,
        Option.map_some]
  | receive message =>
      cases message with
      | findValue own requesterId =>
          obtain rfl := Option.some.inj reads
          simp only [perform, processMessage, found, Reply.value]
      | ping | pong | findNode | findNodeResponse | store | storeResponse
        | findValueResponse => cases reads
  | store | storeWithMetadata | restore | setClock => cases reads

theorem serves_iff {state : LocalNode crates} {step : Step}
    {record : DhtRecord} :
    Serves state step record ↔
      ∃ key, step.reads = some key ∧
        state.node.storage[key]? = some record := by
  constructor
  · intro serves
    obtain ⟨key, reads, found, -⟩ := serves
    exact ⟨key, reads, found⟩
  · intro readable
    obtain ⟨key, reads, found⟩ := readable
    exact ⟨key, reads, found, value_of_lookup reads found⟩

theorem served_unexpired_iff (crates : Crates) (start : LocalNode crates)
    (steps : List Step) :
    (∀ before step, before ++ [step] <+: steps → ∀ record,
      Serves (Trace.final perform start before) step record →
        Unexpired (Trace.final perform start before).now record) ↔
    (∀ before step, before ++ [step] <+: steps → ∀ key,
      step.reads = some key → ∀ record,
        lastWritten start before key = some record →
          Unexpired (clockAfter start.now before) record) := by
  simp only [serves_iff, final_now, lookup_final]
  constructor
  · intro served before step isPrefix key reads record last
    exact served before step isPrefix record ⟨key, reads, last⟩
  · intro timely before step isPrefix record readable
    obtain ⟨key, reads, last⟩ := readable
    exact timely before step isPrefix key reads record last

def sampleLocalNode : LocalNode sampleCrates where
  node := sampleNode
  now := sampleTime

/-- An hour after `sampleTime`. -/
def expiredTime : SystemTime := SystemTime.ofUnixSecs 1700003600 (by decide)

/-- A record is read at the end of its time to live. -/
def expiredSteps : List Step :=
  [.store sampleTime "k" [1], .setClock expiredTime, .get "k" none]

theorem expired_record_served :
    (perform (Trace.final perform sampleLocalNode (expiredSteps.take 2))
        (.get "k" none)).1.value = some [1] ∧
      ¬ ∀ before step, before ++ [step] <+: expiredSteps → ∀ record,
        Serves (Trace.final perform sampleLocalNode before) step record →
          Unexpired (Trace.final perform sampleLocalNode before).now
            record := by
  have found : (Trace.final perform sampleLocalNode
      (expiredSteps.take 2)).node.storage["k"]? = some sampleCall.record := by
    rw [lookup_final]
    simp only [lastWritten, valuesOf, sampleLocalNode, sampleNode,
      Std.ExtHashMap.getElem?_empty]
    rfl
  have served := value_of_lookup (show (Step.get "k" none).reads = some "k"
    from rfl) found
  refine ⟨served, ?_⟩
  intro unexpired
  have early := unexpired (expiredSteps.take 2) (.get "k" none)
    (List.prefix_refl _) sampleCall.record ⟨"k", rfl, found, served⟩
  rw [final_now] at early
  revert early
  unfold Unexpired
  decide

end NyxNet.Dht
