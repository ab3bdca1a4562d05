import NyxNet.Daemon.PathBuilder

/-!
# Nonces of onion paths

`encrypt_onion` uses the key and the nonce that a layer was built with for
every message along the path.  The first message is the probe of the
connectivity test, so any other message repeats the nonces.
-/

namespace NyxNet.Paths

open Dht Crypto Onion

/-- The cipher takes messages up to a length. -/
def SealsUpTo (aead : Aead) (limit : Nat) : Prop :=
  ∀ key nonce plaintext aad,
    (∃ ciphertext, aead.encrypt key nonce plaintext aad = some ciphertext) ↔
      plaintext.length ≤ limit

/-- No key and nonce were used for two different texts. -/
def NoncesUnique (calls : List (SessionKey × Sealed)) : Prop :=
  ∀ left ∈ calls, ∀ right ∈ calls, left.1 = right.1 →
    left.2.nonce = right.2.nonce → left.2.plaintext = right.2.plaintext

variable {aead : Aead} {limit : Nat}

/-- A message is wrapped when the outermost layer does not get too much. -/
theorem exists_wrapped_iff (tagged : aead.AppendsTag)
    (seals : SealsUpTo aead limit) (layers : List OnionLayer)
    (plaintext : Bytes) :
    (∃ ciphertext, wrapped aead layers plaintext = .ok ciphertext) ↔
      (layers ≠ [] → plaintext.length + 16 * (layers.length - 1) ≤ limit) := by
  induction layers with
  | nil => simp [wrapped]
  | cons layer inner ih =>
      simp only [wrapped_cons_eq_ok_iff, List.length_cons, ne_eq,
        List.cons_ne_nil, not_false_eq_true, forall_const,
        Nat.add_sub_cancel]
      constructor
      · intro whole
        obtain ⟨ciphertext, data, within, call⟩ := whole
        have short := (seals _ _ _ _).mp ⟨ciphertext, call⟩
        rw [length_wrapped tagged within] at short
        exact short
      · intro short
        have inside : inner ≠ [] →
            plaintext.length + 16 * (inner.length - 1) ≤ limit := by
          intro _
          omega
        obtain ⟨data, within⟩ := ih.mpr inside
        have fits : data.length ≤ limit := by
          rw [length_wrapped tagged within]
          exact short
        obtain ⟨ciphertext, call⟩ := (seals layer.sessionKey layer.nonce data
          layer.additionalData).mpr fits
        exact ⟨ciphertext, data, within, call⟩

/-- The message is short enough for the layer, which gets it with the tags of
the layers inside. -/
def Reaches (limit hopCount index : Nat) (plaintext : Bytes) : Prop :=
  plaintext.length + 16 * (hopCount - 1 - index) ≤ limit

variable {layers : List OnionLayer} {index : Nat} {layer : OnionLayer}

/-- A message that reaches a layer is encrypted by it. -/
theorem call_of_reaches (tagged : aead.AppendsTag)
    (seals : SealsUpTo aead limit) (hop : layers[index]? = some layer)
    {plaintext : Bytes} (reaches : Reaches limit layers.length index plaintext) :
    ∃ call, (layer.sessionKey, call) ∈ encryptCalls aead layers plaintext ∧
      call.nonce = layer.nonce ∧
      wrapped aead (layers.drop (index + 1)) plaintext =
        .ok call.plaintext := by
  have inside : index < layers.length := (List.getElem?_eq_some_iff.mp hop).1
  unfold Reaches at reaches
  have outerShort : layers.drop index ≠ [] →
      plaintext.length + 16 * ((layers.drop index).length - 1) ≤ limit := by
    intro _
    rw [List.length_drop]
    omega
  have innerShort : layers.drop (index + 1) ≠ [] →
      plaintext.length + 16 * ((layers.drop (index + 1)).length - 1) ≤
        limit := by
    intro _
    rw [List.length_drop]
    omega
  obtain ⟨ciphertext, whole⟩ :=
    (exists_wrapped_iff tagged seals _ plaintext).mpr outerShort
  obtain ⟨data, within⟩ :=
    (exists_wrapped_iff tagged seals _ plaintext).mpr innerShort
  exact ⟨_, call_mem_encryptCalls hop within whole, rfl, within⟩

/-- What a layer gets is as long as the message with the tags inside. -/
theorem length_within (tagged : aead.AppendsTag) {plaintext data : Bytes}
    (within : wrapped aead (layers.drop (index + 1)) plaintext = .ok data) :
    data.length = plaintext.length + 16 * (layers.length - 1 - index) := by
  rw [length_wrapped tagged within, List.length_drop]
  omega

/-- Every call comes from a layer that the message reaches. -/
theorem reaches_of_mem (tagged : aead.AppendsTag)
    (seals : SealsUpTo aead limit) {plaintext : Bytes} {key : SessionKey}
    {call : Sealed}
    (logged : (key, call) ∈ encryptCalls aead layers plaintext) :
    ∃ index layer, layers[index]? = some layer ∧ key = layer.sessionKey ∧
      call.nonce = layer.nonce ∧
      wrapped aead (layers.drop (index + 1)) plaintext = .ok call.plaintext ∧
      Reaches limit layers.length index plaintext := by
  obtain ⟨index, layer, hop, sameKey, sameNonce, _, whole, within⟩ :=
    mem_encryptCalls logged
  have split : layers.drop index = layer :: layers.drop (index + 1) := by
    obtain ⟨bound, isLayer⟩ := List.getElem?_eq_some_iff.mp hop
    rw [List.drop_eq_getElem_cons bound, isLayer]
  rw [split] at whole
  obtain ⟨data, same, sealed⟩ := wrapped_cons_eq_ok_iff.mp whole
  rw [within] at same
  cases same
  have short := (seals _ _ _ _).mp ⟨_, sealed⟩
  rw [length_within tagged within] at short
  exact ⟨index, layer, hop, sameKey, sameNonce, within, short⟩

/-- Two different layers with one key and one nonce are a reuse as soon as a
message reaches the outer one. -/
def Collide (left right : OnionLayer) : Prop :=
  left.key = right.key ∧ left.nonce = right.nonce

/-- The innermost layer gets the message itself. -/
theorem eq_of_noncesUnique (tagged : aead.AppendsTag)
    (seals : SealsUpTo aead limit) {messages : List Bytes}
    (unique : NoncesUnique (messages.flatMap (encryptCalls aead layers)))
    (layered : layers ≠ []) {left right : Bytes} (leftSent : left ∈ messages)
    (rightSent : right ∈ messages) (leftShort : left.length ≤ limit)
    (rightShort : right.length ≤ limit) : left = right := by
  have positive := List.length_pos_iff.mpr layered
  obtain ⟨last, innermost⟩ : ∃ last, layers[layers.length - 1]? = some last :=
    ⟨_, List.getElem?_eq_getElem (by omega)⟩
  have bare : layers.drop (layers.length - 1 + 1) = [] :=
    List.drop_eq_nil_of_le (by omega)
  have reaches : ∀ message : Bytes, message.length ≤ limit →
      Reaches limit layers.length (layers.length - 1) message := by
    intro message short
    rw [Reaches, Nat.sub_self]
    exact short
  obtain ⟨leftCall, leftLogged, leftNonce, leftWithin⟩ :=
    call_of_reaches tagged seals innermost (reaches left leftShort)
  obtain ⟨rightCall, rightLogged, rightNonce, rightWithin⟩ :=
    call_of_reaches tagged seals innermost (reaches right rightShort)
  rw [bare] at leftWithin rightWithin
  have same := unique _ (List.mem_flatMap.mpr ⟨left, leftSent, leftLogged⟩)
    _ (List.mem_flatMap.mpr ⟨right, rightSent, rightLogged⟩) rfl
    (leftNonce.trans rightNonce.symm)
  cases leftWithin
  cases rightWithin
  exact same

/-- The layers of one message get texts of different lengths. -/
theorem not_reaches_of_noncesUnique (tagged : aead.AppendsTag)
    (seals : SealsUpTo aead limit) {messages : List Bytes}
    (unique : NoncesUnique (messages.flatMap (encryptCalls aead layers)))
    {outer inner : Nat} {left right : OnionLayer} (order : outer < inner)
    (atOuter : layers[outer]? = some left)
    (atInner : layers[inner]? = some right) (collide : Collide left right)
    {message : Bytes} (sent : message ∈ messages) :
    ¬ Reaches limit layers.length outer message := by
  intro reaches
  have inside : inner < layers.length :=
    (List.getElem?_eq_some_iff.mp atInner).1
  have reachesInner : Reaches limit layers.length inner message := by
    unfold Reaches at reaches ⊢
    omega
  obtain ⟨outerCall, outerLogged, outerNonce, outerWithin⟩ :=
    call_of_reaches tagged seals atOuter reaches
  obtain ⟨innerCall, innerLogged, innerNonce, innerWithin⟩ :=
    call_of_reaches tagged seals atInner reachesInner
  have sameKey : left.sessionKey = right.sessionKey :=
    congrArg SessionKey.mk collide.1
  have sameNonce : outerCall.nonce = innerCall.nonce := by
    rw [outerNonce, innerNonce]
    exact collide.2
  have same := unique _ (List.mem_flatMap.mpr ⟨message, sent, outerLogged⟩)
    _ (List.mem_flatMap.mpr ⟨message, sent, innerLogged⟩) sameKey sameNonce
  have lengths := congrArg List.length same
  rw [length_within tagged outerWithin, length_within tagged innerWithin]
    at lengths
  omega

/-- Two layers that a message reaches do not share a key and a nonce. -/
theorem eq_of_apart {message : Bytes}
    (apart : ∀ outer inner left right, outer < inner →
      layers[outer]? = some left → layers[inner]? = some right →
        Collide left right → ¬ Reaches limit layers.length outer message)
    {first second : Nat} {left right : OnionLayer}
    (atFirst : layers[first]? = some left)
    (atSecond : layers[second]? = some right) (collide : Collide left right)
    (firstReached : Reaches limit layers.length first message)
    (secondReached : Reaches limit layers.length second message) :
    first = second := by
  rcases Nat.lt_trichotomy first second with before | same | after
  · exact absurd firstReached
      (apart _ _ _ _ before atFirst atSecond collide)
  · exact same
  · exact absurd secondReached
      (apart _ _ _ _ after atSecond atFirst ⟨collide.1.symm,
        collide.2.symm⟩)

/-- Nonces are unique when no two messages differ and no message meets two
colliding layers. -/
theorem noncesUnique_iff (tagged : aead.AppendsTag)
    (seals : SealsUpTo aead limit) (layers : List OnionLayer)
    (messages : List Bytes) :
    NoncesUnique (messages.flatMap (encryptCalls aead layers)) ↔
      (layers ≠ [] → ∀ left ∈ messages, ∀ right ∈ messages,
        left.length ≤ limit → right.length ≤ limit → left = right) ∧
      ∀ outer inner left right, outer < inner →
        layers[outer]? = some left → layers[inner]? = some right →
          Collide left right →
            ∀ message ∈ messages, ¬ Reaches limit layers.length outer message := by
  constructor
  · intro unique
    constructor
    · intro layered left leftSent right rightSent
      exact eq_of_noncesUnique tagged seals unique layered leftSent rightSent
    · intro outer inner left right order atOuter atInner collide message sent
      exact not_reaches_of_noncesUnique tagged seals unique order atOuter
        atInner collide sent
  · intro apart
    obtain ⟨oneMessage, noCollision⟩ := apart
    intro leftEntry leftLogged rightEntry rightLogged sameKey sameNonce
    obtain ⟨left, leftSent, leftLogged⟩ := List.mem_flatMap.mp leftLogged
    obtain ⟨right, rightSent, rightLogged⟩ := List.mem_flatMap.mp rightLogged
    obtain ⟨leftIndex, leftLayer, atLeft, leftKey, leftNonce, leftWithin,
      leftReaches⟩ := reaches_of_mem tagged seals leftLogged
    obtain ⟨rightIndex, rightLayer, atRight, rightKey, rightNonce, rightWithin,
      rightReaches⟩ := reaches_of_mem tagged seals rightLogged
    have layered : layers ≠ [] := by
      rintro rfl
      cases atLeft
    have oneText : left = right :=
      oneMessage layered left leftSent right rightSent
        (Nat.le_of_add_right_le leftReaches)
        (Nat.le_of_add_right_le rightReaches)
    subst oneText
    have collide : Collide leftLayer rightLayer := by
      constructor
      · rw [leftKey, rightKey] at sameKey
        exact congrArg SessionKey.bytes sameKey
      · rw [leftNonce, rightNonce] at sameNonce
        exact sameNonce
    have sameIndex : leftIndex = rightIndex := by
      apply eq_of_apart _ atLeft atRight collide leftReaches rightReaches
      intro outer inner first second order atOuter atInner both
      exact noCollision outer inner first second order atOuter atInner both
        left leftSent
    subst sameIndex
    rw [leftWithin] at rightWithin
    exact Except.ok.inj rightWithin

/-- A use of a path that encrypts. -/
inductive PathUse where
  | testPathConnectivity
  | encryptOnion (plaintext : Bytes)

def PathUse.message : PathUse → Bytes
  | .testPathConnectivity => testMessage
  | .encryptOnion plaintext => plaintext

/-- The successful calls of the cipher in the uses of a path. -/
def cipherCalls (aead : Aead) (path : BuiltPath) (uses : List PathUse) :
    List (SessionKey × Sealed) :=
  uses.flatMap fun use => encryptCalls aead path.onion.layers use.message

/-- The key that is derived and the nonce are drawn twice. -/
def SameDraw (primitives : Primitives) (left right : LayerDraw) : Prop :=
  left.derivedKey primitives = right.derivedKey primitives ∧
    left.nonce = right.nonce

theorem built_nonces_unique_iff (aead : Aead) (limit : Nat)
    (tagged : aead.AppendsTag) (seals : SealsUpTo aead limit)
    (primitives : Primitives) (parse : String → Option Multiaddr)
    (discovered : Except DhtError (List ProtoPeerInfo))
    (draws : Nat → LayerDraw) (pathId : UInt64) (destination : String)
    (hopCount : Nat) (path : BuiltPath)
    (built : buildOnionPath primitives parse discovered draws pathId
      destination hopCount = .returned path) (uses : List PathUse) :
    NoncesUnique (cipherCalls aead path uses) ↔
      (0 < hopCount → ∀ left ∈ uses, ∀ right ∈ uses,
        left.message.length ≤ limit → right.message.length ≤ limit →
          left.message = right.message) ∧
      ∀ outer inner, outer < inner → inner < hopCount →
        SameDraw primitives (draws outer) (draws inner) →
          ∀ use ∈ uses, ¬ Reaches limit hopCount outer use.message := by
  obtain ⟨count, drawn⟩ := buildOnionPath_returned built
  have calls : cipherCalls aead path uses =
      (uses.map PathUse.message).flatMap
        (encryptCalls aead path.onion.layers) := by
    rw [cipherCalls, List.flatMap_map]
  have layered : path.onion.layers ≠ [] ↔ 0 < hopCount := by
    rw [← count, List.length_pos_iff]
  have layerAt : ∀ index < hopCount,
      ∃ layer, path.onion.layers[index]? = some layer := by
    intro index inside
    rw [← count] at inside
    exact ⟨_, List.getElem?_eq_getElem inside⟩
  rw [calls, noncesUnique_iff tagged seals, layered, count]
  simp only [List.forall_mem_map]
  refine and_congr Iff.rfl ⟨?_, ?_⟩
  · intro apart outer inner order inside same
    obtain ⟨left, atOuter⟩ := layerAt outer (Nat.lt_trans order inside)
    obtain ⟨right, atInner⟩ := layerAt inner inside
    obtain ⟨leftKey, leftNonce⟩ := drawn outer left atOuter
    obtain ⟨rightKey, rightNonce⟩ := drawn inner right atInner
    apply apart outer inner left right order atOuter atInner
    refine ⟨?_, ?_⟩
    · rw [leftKey, rightKey]
      exact same.1
    · rw [leftNonce, rightNonce]
      exact same.2
  · intro apart outer inner left right order atOuter atInner collide
    obtain ⟨leftKey, leftNonce⟩ := drawn outer left atOuter
    obtain ⟨rightKey, rightNonce⟩ := drawn inner right atInner
    have inside : inner < hopCount := by
      rw [← count]
      exact (List.getElem?_eq_some_iff.mp atInner).1
    apply apart outer inner order inside
    refine ⟨?_, ?_⟩
    · rw [← leftKey, ← rightKey]
      exact collide.1
    · rw [← leftNonce, ← rightNonce]
      exact collide.2

/-- HKDF-SHA256 of `[1; 32]` under the export label. -/
def exportPrimitives : Primitives :=
  { samplePrimitives with
    hkdfSha256 := fun _ _ length => Bytes.leBytes length
      0xfba1e1af52c1fb9761132de1186c31e086acbccc2c599ee3c9471d879324a00c }

def onePeer : ProtoPeerInfo where
  nodeId := "peer_1"
  address := "/ip4/10.0.0.1/tcp/443"
  latencyMs := 20
  bandwidthMbps := 500
  status := "connected"
  lastSeen := none
  connectionCount := 1
  region := "local"

def oneDraw : LayerDraw := ⟨.replicate 32 1, .replicate 12 3⟩

theorem size_octets (a b c d : UInt8) : #[a, b, c, d].size = 4 := rfl

def octets (a b c d : UInt8) : Vector UInt8 4 :=
  ⟨#[a, b, c, d], size_octets a b c d⟩

def onePath : BuiltPath where
  layers := [({ key := oneDraw.derivedKey exportPrimitives
                nonce := oneDraw.nonce
                peerId := "peer_1" }, .v4 (octets 10 0 0 1) 443)]
  pathId := 7
  destination := "exit"

theorem onePath_built :
    buildOnionPath exportPrimitives sampleParse (.ok [onePeer])
      (fun _ => oneDraw) 7 "exit" 1 = .returned onePath := by
  have parsed : sampleParse onePeer.address =
      some ⟨"/ip4/10.0.0.1/tcp/443"⟩ := by
    decide
  have reached : multiaddrToSocketAddr ⟨"/ip4/10.0.0.1/tcp/443"⟩ =
      .ok (.v4 #v[10, 0, 0, 1] 443) := by
    decide +kernel
  simp [buildOnionPath, candidate, parsed, selectDiversePathPeers, selectPeers,
    generateLayers, reached]
  rfl

/-- What ChaCha20-Poly1305 returns for the probe and for `hi` along the path. -/
def oneHopLog : List (SessionKey × Sealed) :=
  let call (plaintext ciphertext : Bytes) : SessionKey × Sealed :=
    (⟨oneDraw.derivedKey exportPrimitives⟩,
      { nonce := oneDraw.nonce
        plaintext := plaintext
        aad := [112, 101, 101, 114, 95, 49]
        ciphertext := ciphertext })
  [call testMessage
    [83, 122, 82, 168, 28, 215, 177, 105, 45, 132, 174, 78, 122, 68, 222, 42,
      59, 38, 234, 201, 136, 247, 97, 226, 64, 252, 245, 243, 86, 126, 247, 92,
      40, 172, 21, 247, 237, 236, 36],
   call [104, 105]
    [79, 118, 201, 32, 145, 110, 224, 42, 247, 39, 57, 139, 156, 154, 104, 76,
      196, 97]]

/-- The cipher on the calls of the log; other texts get a tag of zeros. -/
def oneHopAead : Aead where
  encrypt := fun key nonce plaintext aad =>
    if plaintext.length ≤ 274877906879 then
      some (((callTable oneHopLog).encrypt key nonce plaintext aad).getD
        (plaintext ++ List.replicate 16 0))
    else
      none
  decrypt := (callTable oneHopLog).decrypt

theorem oneHopAead_appendsTag : oneHopAead.AppendsTag := by
  intro key nonce plaintext aad ciphertext call
  simp only [oneHopAead] at call
  split at call
  · cases listed : (callTable oneHopLog).encrypt key nonce plaintext aad with
    | none =>
        rw [listed] at call
        cases call
        simp
    | some text =>
        rw [listed] at call
        cases call
        exact callTable_appendsTag (by decide) _ _ _ _ _ listed
  · cases call

theorem oneHopAead_sealsUpTo : SealsUpTo oneHopAead 274877906879 := by
  intro key nonce plaintext aad
  simp [oneHopAead]

theorem built_nonces_unique_probe :
    NoncesUnique (cipherCalls oneHopAead onePath [.testPathConnectivity]) := by
  apply (built_nonces_unique_iff oneHopAead 274877906879 oneHopAead_appendsTag
    oneHopAead_sealsUpTo exportPrimitives sampleParse (.ok [onePeer])
    (fun _ => oneDraw) 7 "exit" 1 onePath onePath_built
    [.testPathConnectivity]).mpr
  refine ⟨?_, ?_⟩
  · intro _ left leftUse right rightUse _ _
    cases List.mem_singleton.mp leftUse
    cases List.mem_singleton.mp rightUse
    rfl
  · intro outer inner order inside
    omega

/-- The probe and the first message share key and nonce. -/
theorem probe_nonce_reused :
    buildOnionPath exportPrimitives sampleParse (.ok [onePeer])
        (fun _ => oneDraw) 7 "exit" 1 = .returned onePath ∧
      cipherCalls oneHopAead onePath
          [.testPathConnectivity, .encryptOnion [104, 105]] = oneHopLog ∧
      ¬ NoncesUnique (cipherCalls oneHopAead onePath
        [.testPathConnectivity, .encryptOnion [104, 105]]) := by
  have calls : cipherCalls oneHopAead onePath
      [.testPathConnectivity, .encryptOnion [104, 105]] = oneHopLog := by
    decide +kernel
  refine ⟨onePath_built, calls, ?_⟩
  rw [calls]
  intro unique
  have same := unique _ (List.mem_cons_self) _
    (List.mem_cons_of_mem _ List.mem_cons_self) rfl rfl
  revert same
  decide

end NyxNet.Paths
