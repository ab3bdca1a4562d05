import NyxNet.Crypto.Aead
import NyxNet.Lib.Utf8

/-!
# Onion encryption along a path

`OnionPath` of `path_builder.rs`: the sender wraps a message in one AEAD layer
for every hop, the innermost first, and every hop peels the outermost layer.
The id of the hop is the associated data of its layer.  Addresses, times and
the other fields of a path play no part in either loop.
-/

namespace NyxNet.Onion

open Crypto

/-- A single encryption layer (`OnionLayer`). -/
structure OnionLayer where
  key : Vector UInt8 32
  nonce : Nonce
  peerId : String
  deriving DecidableEq, Repr

/-- All encryption layers, from outermost to innermost. -/
structure OnionPath where
  layers : List OnionLayer
  deriving DecidableEq, Repr

namespace OnionLayer

def sessionKey (layer : OnionLayer) : SessionKey := ⟨layer.key⟩

/-- `layer.peer_id.as_bytes()`. -/
def additionalData (layer : OnionLayer) : Bytes := Utf8.encode layer.peerId

/-- The body of the encryption loop. -/
def encrypt (aead : Aead) (data : Bytes) (layer : OnionLayer) :
    Except AeadError Bytes :=
  NyxAead.encrypt aead layer.sessionKey layer.nonce data layer.additionalData

def decrypt (aead : Aead) (data : Bytes) (layer : OnionLayer) :
    Except AeadError Bytes :=
  NyxAead.decrypt aead layer.sessionKey layer.nonce data layer.additionalData

end OnionLayer

/-- `encrypt_onion`: from the innermost to the outermost layer. -/
def encryptOnion (aead : Aead) (path : OnionPath) (plaintext : Bytes) :
    Except AeadError Bytes :=
  path.layers.reverse.foldlM (OnionLayer.encrypt aead) plaintext

/-- `decrypt_layer`.  The guard stands before the index operation, which would
abort past the end of the layers. -/
def decryptLayer (aead : Aead) (path : OnionPath) (layerIndex : Nat)
    (ciphertext : Bytes) : Outcome AeadError Bytes :=
  if layerIndex ≥ path.layers.length then
    .failed (.decryptionFailed "Invalid layer index")
  else
    match path.layers[layerIndex]? with
    | none => .panicked
    | some layer =>
        match layer.decrypt aead ciphertext with
        | .ok data => .returned data
        | .error error => .failed error

/-- The first `count` hops peel their layers, one after the other. -/
def peel (aead : Aead) (path : OnionPath) :
    Nat → Bytes → Outcome AeadError Bytes
  | 0, data => .returned data
  | count + 1, data =>
      match peel aead path count data with
      | .returned data => decryptLayer aead path count data
      | .failed error => .failed error
      | .panicked => .panicked

/-- `PathTestError`. -/
inductive PathTestError where
  | encryptionFailure (message : String)
  | decryptionFailure (message : String)
  | dataCorruption (message : String)
  | networkFailure (message : String)
  | timeout (message : String)
  deriving DecidableEq, Repr

/-- `PathConnectivityResult` without its times; one entry is pushed on
`layer_decrypt_times` for every layer that was decrypted. -/
structure PathConnectivityResult where
  connectivityVerified : Bool
  encryptedSize : Nat
  layersDecrypted : Nat
  deriving DecidableEq, Repr

/-- The loop of `test_path_connectivity` over the first `count` layers. -/
def decryptLayers (aead : Aead) (path : OnionPath) :
    Nat → Bytes → Outcome PathTestError Bytes
  | 0, data => .returned data
  | count + 1, data =>
      match decryptLayers aead path count data with
      | .returned data =>
          match decryptLayer aead path count data with
          | .returned decrypted => .returned decrypted
          | .failed error => .failed (.decryptionFailure
              s!"Failed to decrypt layer {count}: {error.display}")
          | .panicked => .panicked
      | .failed error => .failed error
      | .panicked => .panicked

def testMessage : Bytes := Bytes.ofAscii "test_connectivity_probe"

/-- `test_path_connectivity`. -/
def testPathConnectivity (aead : Aead) (path : OnionPath) :
    Outcome PathTestError PathConnectivityResult :=
  match encryptOnion aead path testMessage with
  | .error error =>
      .failed (.encryptionFailure s!"Encryption failed: {error.display}")
  | .ok encrypted =>
      match decryptLayers aead path path.layers.length encrypted with
      | .returned data =>
          if data = testMessage then
            .returned
              { connectivityVerified := true
                encryptedSize := encrypted.length
                layersDecrypted := path.layers.length }
          else
            .failed (.dataCorruption
              "Decrypted data does not match original test message")
      | .failed error => .failed error
      | .panicked => .panicked

/-- The message under the given layers, the first of them outermost. -/
def wrapped (aead : Aead) : List OnionLayer → Bytes → Except AeadError Bytes
  | [], plaintext => .ok plaintext
  | layer :: inner, plaintext => do
      layer.encrypt aead (← wrapped aead inner plaintext)

/-- The successful calls of the cipher while a message is wrapped, the last one
first. -/
def encryptCalls (aead : Aead) :
    List OnionLayer → Bytes → List (SessionKey × Sealed)
  | [], _ => []
  | layer :: inner, plaintext =>
      match wrapped aead inner plaintext,
          wrapped aead (layer :: inner) plaintext with
      | .ok data, .ok ciphertext =>
          (layer.sessionKey,
            { nonce := layer.nonce
              plaintext := data
              aad := layer.additionalData
              ciphertext }) :: encryptCalls aead inner plaintext
      | _, _ => encryptCalls aead inner plaintext

variable {aead : Aead}

theorem encryptOnion_eq_wrapped (path : OnionPath) (plaintext : Bytes) :
    encryptOnion aead path plaintext = wrapped aead path.layers plaintext := by
  obtain ⟨layers⟩ := path
  unfold encryptOnion
  induction layers with
  | nil => rfl
  | cons layer inner ih =>
      rw [List.reverse_cons, List.foldlM_append]
      simp only at ih
      rw [ih, wrapped]
      simp

theorem wrapped_cons_eq_ok_iff {layer : OnionLayer} {inner : List OnionLayer}
    {plaintext ciphertext : Bytes} :
    wrapped aead (layer :: inner) plaintext = .ok ciphertext ↔
      ∃ data, wrapped aead inner plaintext = .ok data ∧
        aead.encrypt layer.sessionKey layer.nonce data layer.additionalData =
          some ciphertext := by
  rw [wrapped]
  cases within : wrapped aead inner plaintext with
  | error error =>
      constructor
      · intro equality
        cases equality
      · intro ⟨_, equality, _⟩
        cases equality
  | ok data =>
      constructor
      · intro equality
        exact ⟨data, rfl, NyxAead.encrypt_eq_ok_iff.mp equality⟩
      · intro ⟨_, same, call⟩
        cases same
        exact NyxAead.encrypt_eq_ok_iff.mpr call

/-- A successful wrapping has wrapped everything inside as well. -/
theorem wrapped_drop {layers : List OnionLayer} {plaintext ciphertext : Bytes}
    (whole : wrapped aead layers plaintext = .ok ciphertext) (count : Nat) :
    ∃ data, wrapped aead (layers.drop count) plaintext = .ok data := by
  induction count generalizing layers ciphertext with
  | zero => exact ⟨ciphertext, whole⟩
  | succ count ih =>
      cases layers with
      | nil => exact ⟨ciphertext, whole⟩
      | cons layer inner =>
          obtain ⟨data, within, _⟩ := wrapped_cons_eq_ok_iff.mp whole
          exact ih within

/-- Every logged call is the one of some hop: it seals what is wrapped inside
that hop to what is wrapped from that hop on. -/
theorem mem_encryptCalls {layers : List OnionLayer} {plaintext : Bytes}
    {key : SessionKey} {call : Sealed}
    (logged : (key, call) ∈ encryptCalls aead layers plaintext) :
    ∃ index layer, layers[index]? = some layer ∧
      key = layer.sessionKey ∧ call.nonce = layer.nonce ∧
      call.aad = layer.additionalData ∧
      wrapped aead (layers.drop index) plaintext = .ok call.ciphertext ∧
      wrapped aead (layers.drop (index + 1)) plaintext =
        .ok call.plaintext := by
  induction layers with
  | nil => cases logged
  | cons layer inner ih =>
      have deeper : (key, call) ∈ encryptCalls aead inner plaintext →
          ∃ index layer', (layer :: inner)[index]? = some layer' ∧
            key = layer'.sessionKey ∧ call.nonce = layer'.nonce ∧
            call.aad = layer'.additionalData ∧
            wrapped aead ((layer :: inner).drop index) plaintext =
              .ok call.ciphertext ∧
            wrapped aead ((layer :: inner).drop (index + 1)) plaintext =
              .ok call.plaintext := by
        intro member
        obtain ⟨index, hop, found⟩ := ih member
        exact ⟨index + 1, hop, found⟩
      rw [encryptCalls] at logged
      split at logged
      · rename_i data ciphertext within whole
        rcases List.mem_cons.mp logged with equality | later
        · cases equality
          exact ⟨0, layer, rfl, rfl, rfl, rfl, whole, within⟩
        · exact deeper later
      · exact deeper logged

theorem call_mem_encryptCalls {layers : List OnionLayer} {index : Nat}
    {layer : OnionLayer} {plaintext data ciphertext : Bytes}
    (hop : layers[index]? = some layer)
    (within : wrapped aead (layers.drop (index + 1)) plaintext = .ok data)
    (whole : wrapped aead (layers.drop index) plaintext = .ok ciphertext) :
    (layer.sessionKey,
      { nonce := layer.nonce, plaintext := data, aad := layer.additionalData,
        ciphertext := ciphertext : Sealed }) ∈
      encryptCalls aead layers plaintext := by
  induction layers generalizing index with
  | nil => simp at hop
  | cons outer inner ih =>
      cases index with
      | zero =>
          cases hop
          simp only [List.drop_succ_cons, List.drop_zero] at within whole
          rw [encryptCalls, within, whole]
          exact List.mem_cons_self
      | succ index =>
          have member := ih hop within whole
          rw [encryptCalls]
          split
          · exact List.mem_cons_of_mem _ member
          · exact member

/-- Every layer adds its tag. -/
theorem length_wrapped {layers : List OnionLayer}
    {plaintext ciphertext : Bytes} (tagged : aead.AppendsTag)
    (whole : wrapped aead layers plaintext = .ok ciphertext) :
    ciphertext.length = plaintext.length + 16 * layers.length := by
  induction layers generalizing ciphertext with
  | nil =>
      cases whole
      rfl
  | cons layer inner ih =>
      obtain ⟨data, within, call⟩ := wrapped_cons_eq_ok_iff.mp whole
      rw [tagged _ _ _ _ _ call, ih within, List.length_cons]
      omega

/-- Among the calls of one onion, a ciphertext belongs to one hop: the layers
below it leave it shorter, the layers above it longer. -/
theorem index_of_same_ciphertext {layers : List OnionLayer} {left right : Nat}
    {plaintext ciphertext : Bytes} (tagged : aead.AppendsTag)
    (leftInside : left < layers.length) (rightInside : right < layers.length)
    (leftWhole :
      wrapped aead (layers.drop left) plaintext = .ok ciphertext)
    (rightWhole :
      wrapped aead (layers.drop right) plaintext = .ok ciphertext) :
    left = right := by
  have leftLength := length_wrapped tagged leftWhole
  have rightLength := length_wrapped tagged rightWhole
  rw [List.length_drop] at leftLength rightLength
  omega

theorem decryptLayer_eq_returned_iff {path : OnionPath} {index : Nat}
    {ciphertext data : Bytes} :
    decryptLayer aead path index ciphertext = .returned data ↔
      ∃ layer, path.layers[index]? = some layer ∧
        aead.decrypt layer.sessionKey layer.nonce ciphertext
          layer.additionalData = some data := by
  unfold decryptLayer
  by_cases outside : index ≥ path.layers.length
  · rw [if_pos outside, List.getElem?_eq_none outside]
    simp
  · obtain ⟨layer, hop⟩ : ∃ layer, path.layers[index]? = some layer :=
      ⟨_, List.getElem?_eq_getElem (Nat.lt_of_not_ge outside)⟩
    rw [if_neg outside, hop]
    simp only [Option.some.injEq, exists_eq_left']
    rw [← NyxAead.decrypt_eq_ok_iff, OnionLayer.decrypt]
    cases NyxAead.decrypt aead layer.sessionKey layer.nonce ciphertext
        layer.additionalData with
    | error error => simp
    | ok result => simp

/-- The guard keeps the index operation inside the layers. -/
theorem decryptLayer_of_outside {path : OnionPath} {index : Nat}
    (outside : path.layers.length ≤ index) (ciphertext : Bytes) :
    decryptLayer aead path index ciphertext =
      .failed (.decryptionFailed "Invalid layer index") :=
  if_pos outside

/-- Peeling the first hops of an onion leaves what was wrapped inside them. -/
theorem peel_wrapped {path : OnionPath} {past : List (SessionKey × Sealed)}
    {plaintext ciphertext data : Bytes} {count : Nat}
    (ideal : aead.Ideal (past ++ encryptCalls aead path.layers plaintext))
    (whole : wrapped aead path.layers plaintext = .ok ciphertext)
    (inside : count ≤ path.layers.length)
    (left : wrapped aead (path.layers.drop count) plaintext = .ok data) :
    peel aead path count ciphertext = .returned data := by
  induction count generalizing data with
  | zero =>
      have same : ciphertext = data := Except.ok.inj (whole.symm.trans left)
      rw [peel, same]
  | succ count ih =>
      obtain ⟨layer, hop⟩ : ∃ layer, path.layers[count]? = some layer :=
        ⟨_, List.getElem?_eq_getElem inside⟩
      obtain ⟨before, wrappedBefore⟩ := wrapped_drop whole count
      rw [peel, ih (Nat.le_of_succ_le inside) wrappedBefore]
      apply decryptLayer_eq_returned_iff.mpr
      refine ⟨layer, hop, ?_⟩
      apply (ideal _ _ _ _ _).mpr
      apply List.mem_append_right
      exact call_mem_encryptCalls hop left wrappedBefore

theorem peel_all {path : OnionPath} {past : List (SessionKey × Sealed)}
    {plaintext ciphertext : Bytes}
    (ideal : aead.Ideal (past ++ encryptCalls aead path.layers plaintext))
    (whole : wrapped aead path.layers plaintext = .ok ciphertext) :
    peel aead path path.layers.length ciphertext = .returned plaintext := by
  apply peel_wrapped ideal whole (Nat.le_refl _)
  rw [List.drop_length]
  rfl

/-- No call made before the onion returned one of its ciphertexts for another
key, nonce or hop. -/
def Unrepeated (past calls : List (SessionKey × Sealed)) : Prop :=
  ∀ earlier ∈ past, ∀ call ∈ calls,
    earlier.2.ciphertext = call.2.ciphertext →
      earlier.1 = call.1 ∧ earlier.2.nonce = call.2.nonce ∧
        earlier.2.aad = call.2.aad

theorem additionalData_injective {left right : OnionLayer}
    (same : left.additionalData = right.additionalData) :
    left.peerId = right.peerId := by
  have bytes := congrArg List.toByteArray same
  rw [OnionLayer.additionalData, OnionLayer.additionalData,
    Utf8.toByteArray_encode, Utf8.toByteArray_encode] at bytes
  exact String.toByteArray_inj.mp bytes

/-- A layer that opens the text of a hop has the key, the nonce and the id of
that hop. -/
theorem same_layer_of_decrypt {path : OnionPath}
    {past : List (SessionKey × Sealed)}
    {plaintext ciphertext data result : Bytes} {count : Nat}
    {hop layer : OnionLayer}
    (ideal : aead.Ideal (past ++ encryptCalls aead path.layers plaintext))
    (tagged : aead.AppendsTag)
    (unrepeated : Unrepeated past (encryptCalls aead path.layers plaintext))
    (whole : wrapped aead path.layers plaintext = .ok ciphertext)
    (atHop : path.layers[count]? = some hop)
    (left : wrapped aead (path.layers.drop count) plaintext = .ok data)
    (opened : aead.decrypt layer.sessionKey layer.nonce data
      layer.additionalData = some result) :
    layer.key = hop.key ∧ layer.nonce = hop.nonce ∧
      layer.peerId = hop.peerId := by
  obtain ⟨within, wrappedWithin⟩ := wrapped_drop whole (count + 1)
  have own := call_mem_encryptCalls atHop wrappedWithin left
  have inside : count < path.layers.length :=
    (List.getElem?_eq_some_iff.mp atHop).1
  rcases List.mem_append.mp ((ideal _ _ _ _ _).mp opened) with earlier | logged
  · obtain ⟨key, nonce, aad⟩ := unrepeated _ earlier _ own rfl
    exact ⟨congrArg SessionKey.bytes key, nonce, additionalData_injective aad⟩
  · obtain ⟨other, owner, atOther, key, nonce, aad, wholeOther, _⟩ :=
      mem_encryptCalls logged
    have insideOther : other < path.layers.length :=
      (List.getElem?_eq_some_iff.mp atOther).1
    have same := index_of_same_ciphertext tagged insideOther inside
      wholeOther left
    rw [same, atHop] at atOther
    cases atOther
    exact ⟨congrArg SessionKey.bytes key, nonce, additionalData_injective aad⟩

/-- With an ideal cipher the hops give the message back, no hop but the next
one opens what it is handed, and an index past the last hop is refused. -/
theorem encryptOnion_peeled {path : OnionPath}
    {past : List (SessionKey × Sealed)} {plaintext ciphertext : Bytes}
    (ideal : aead.Ideal (past ++ encryptCalls aead path.layers plaintext))
    (tagged : aead.AppendsTag)
    (unrepeated : Unrepeated past (encryptCalls aead path.layers plaintext))
    (encrypted : encryptOnion aead path plaintext = .ok ciphertext) :
    peel aead path path.layers.length ciphertext = .returned plaintext ∧
    (∀ count < path.layers.length, ∃ data,
      peel aead path count ciphertext = .returned data ∧
        ∀ index result,
          decryptLayer aead path index data = .returned result →
            ∃ layer hop, path.layers[index]? = some layer ∧
              path.layers[count]? = some hop ∧ layer.key = hop.key ∧
              layer.nonce = hop.nonce ∧ layer.peerId = hop.peerId) ∧
    ∀ index ≥ path.layers.length, ∀ data,
      decryptLayer aead path index data =
        .failed (.decryptionFailed "Invalid layer index") := by
  rw [encryptOnion_eq_wrapped] at encrypted
  refine ⟨?_, ?_, ?_⟩
  · exact peel_all ideal encrypted
  · intro count inside
    obtain ⟨data, left⟩ := wrapped_drop encrypted count
    obtain ⟨hop, atHop⟩ : ∃ hop, path.layers[count]? = some hop :=
      ⟨_, List.getElem?_eq_getElem inside⟩
    refine ⟨data, peel_wrapped ideal encrypted (Nat.le_of_lt inside) left, ?_⟩
    intro index result opened
    obtain ⟨layer, found, call⟩ := decryptLayer_eq_returned_iff.mp opened
    exact ⟨layer, hop, found, atHop, same_layer_of_decrypt ideal tagged
      unrepeated encrypted atHop left call⟩
  · intro index outside data
    exact decryptLayer_of_outside outside data

/-- Two hops with the keys `[1; 32]` and `[2; 32]`, the nonces `[3; 12]` and
`[4; 12]`. -/
def samplePath : OnionPath :=
  { layers :=
      [{ key := .replicate 32 1, nonce := .replicate 12 3,
         peerId := "relay_0" },
       { key := .replicate 32 2, nonce := .replicate 12 4,
         peerId := "relay_1" }] }

/-- What ChaCha20-Poly1305 returns for `hi` along the sample path. -/
def sampleCalls : List (SessionKey × Sealed) :=
  let inner : Bytes :=
    [116, 59, 219, 199, 70, 79, 249, 242, 27, 101, 38, 252, 171, 65, 1, 23,
      255, 240]
  [(⟨.replicate 32 1⟩,
    { nonce := .replicate 12 3
      plaintext := inner
      aad := [114, 101, 108, 97, 121, 95, 48]
      ciphertext := [250, 51, 93, 140, 32, 15, 51, 217, 169, 178, 111, 76, 127,
        10, 72, 167, 130, 128, 48, 175, 190, 194, 75, 169, 246, 148, 125, 0,
        178, 180, 172, 155, 164, 7] }),
   (⟨.replicate 32 2⟩,
    { nonce := .replicate 12 4
      plaintext := [104, 105]
      aad := [114, 101, 108, 97, 121, 95, 49]
      ciphertext := inner })]

/-- The cipher restricted to the calls of a log. -/
def callTable (log : List (SessionKey × Sealed)) : Aead :=
  { encrypt := fun key nonce plaintext aad =>
      (log.find? fun call => call.1 = key ∧ call.2.nonce = nonce ∧
        call.2.plaintext = plaintext ∧ call.2.aad = aad).map
          fun call => call.2.ciphertext
    decrypt := fun key nonce ciphertext aad =>
      (log.find? fun call => call.1 = key ∧ call.2.nonce = nonce ∧
        call.2.ciphertext = ciphertext ∧ call.2.aad = aad).map
          fun call => call.2.plaintext }

theorem callTable_ideal {log : List (SessionKey × Sealed)}
    (distinct : log.Pairwise fun left right => left.1 ≠ right.1) :
    (callTable log).Ideal log := by
  intro key nonce ciphertext aad plaintext
  simp only [callTable, Option.map_eq_some_iff]
  constructor
  · intro facts
    obtain ⟨call, found, rfl⟩ := facts
    have matched := List.find?_some found
    simp only [decide_eq_true_eq] at matched
    obtain ⟨rfl, rfl, rfl, rfl⟩ := matched
    exact List.mem_of_find?_eq_some found
  · intro member
    induction log with
    | nil => cases member
    | cons head tail ih =>
        rw [List.pairwise_cons] at distinct
        rcases List.mem_cons.mp member with rfl | later
        · exact ⟨_, List.find?_cons_of_pos (by simp), rfl⟩
        · obtain ⟨call, found, same⟩ := ih distinct.2 later
          have different : head.1 ≠ key := distinct.1 _ later
          exact ⟨call, by simpa [List.find?_cons, different] using found, same⟩

theorem callTable_appendsTag {log : List (SessionKey × Sealed)}
    (tags : ∀ call ∈ log,
      call.2.ciphertext.length = call.2.plaintext.length + 16) :
    (callTable log).AppendsTag := by
  intro key nonce plaintext aad ciphertext call
  obtain ⟨entry, found, rfl⟩ := Option.map_eq_some_iff.mp call
  have matched := List.find?_some found
  simp only [decide_eq_true_eq] at matched
  rw [tags entry (List.mem_of_find?_eq_some found), matched.2.2.1]

theorem encryptCalls_sample :
    encryptCalls (callTable sampleCalls) samplePath.layers [104, 105] =
      sampleCalls := by
  decide +kernel

theorem encryptOnion_peeled_sample :
    ∃ ciphertext,
      encryptOnion (callTable sampleCalls) samplePath [104, 105] =
          .ok ciphertext ∧
        peel (callTable sampleCalls) samplePath 2 ciphertext =
          .returned [104, 105] := by
  have encrypted : encryptOnion (callTable sampleCalls) samplePath [104, 105] =
      .ok [250, 51, 93, 140, 32, 15, 51, 217, 169, 178, 111, 76, 127, 10, 72,
        167, 130, 128, 48, 175, 190, 194, 75, 169, 246, 148, 125, 0, 178, 180,
        172, 155, 164, 7] := by
    decide +kernel
  have ideal : (callTable sampleCalls).Ideal
      ([] ++ encryptCalls (callTable sampleCalls) samplePath.layers
        [104, 105]) := by
    rw [encryptCalls_sample, List.nil_append]
    exact callTable_ideal (by decide)
  exact ⟨_, encrypted, (encryptOnion_peeled ideal
    (callTable_appendsTag (by decide)) (by simp [Unrepeated]) encrypted).1⟩

theorem decryptLayers_of_peel {path : OnionPath} {count : Nat}
    {data result : Bytes}
    (peeled : peel aead path count data = .returned result) :
    decryptLayers aead path count data = .returned result := by
  induction count generalizing result with
  | zero =>
      cases peeled
      rfl
  | succ count ih =>
      rw [peel] at peeled
      cases before : peel aead path count data with
      | failed error => simp [before] at peeled
      | panicked => simp [before] at peeled
      | returned middle =>
          simp only [before] at peeled
          rw [decryptLayers, ih before]
          simp only [peeled]

/-- The probe reports nothing but a refusal of the cipher to encrypt: once the
probe message is wrapped, the test verifies the path. -/
theorem testPathConnectivity_verified {path : OnionPath}
    {past : List (SessionKey × Sealed)} {ciphertext : Bytes}
    (ideal : aead.Ideal (past ++ encryptCalls aead path.layers testMessage))
    (tagged : aead.AppendsTag)
    (encrypted : encryptOnion aead path testMessage = .ok ciphertext) :
    testPathConnectivity aead path =
      .returned
        { connectivityVerified := true
          encryptedSize := testMessage.length + 16 * path.layers.length
          layersDecrypted := path.layers.length } := by
  have whole : wrapped aead path.layers testMessage = .ok ciphertext := by
    rw [← encryptOnion_eq_wrapped]
    exact encrypted
  have peeled := peel_all ideal whole
  unfold testPathConnectivity
  rw [encrypted]
  simp only [decryptLayers_of_peel peeled, if_pos]
  rw [length_wrapped tagged whole]

end NyxNet.Onion
