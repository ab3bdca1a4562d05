import NyxNet.Lib.AttributeWalk
import NyxNet.Lib.Bytes
import NyxNet.Lib.FirstMatch
import NyxNet.Lib.SocketAddr

/-!
# STUN binding

The responder of `nyx-transport/src/stun_server.rs` and the decoder of
`nyx-transport/src/ice.rs`.
-/

namespace NyxNet.Transport.Stun

def stunBindingRequest : UInt16 := 0x0001

def stunBindingResponse : UInt16 := 0x0101

def stunMagicCookie : UInt32 := 0x2112A442

def xorMappedAddr : UInt16 := 0x0020

/-- `to_be_bytes` of the cookie. -/
def cookieBytes : Vector UInt8 4 := Bytes.beBytes 4 stunMagicCookie.toNat

/-- The loop over four octets that combines each with its byte of the
cookie. -/
def xorCookie (octets : Vector UInt8 4) : Vector UInt8 4 :=
  Vector.zipWith (· ^^^ ·) octets cookieBytes

/-- The upper half of the cookie. -/
def cookieHigh : UInt16 := (stunMagicCookie >>> 16).toUInt16

/-- `u16::from_be_bytes` of two bytes of a buffer; `none` when one of them is
out of bounds. -/
def u16At (data : Bytes) (idx : Nat) : Option UInt16 := do
  let high ← data[idx]?
  let low ← data[idx + 1]?
  return UInt16.ofNat (Bytes.ofBeBytes [high, low])

def u16Bytes (word : UInt16) : Bytes := (Bytes.beBytes 2 word.toNat).toList

/-- The response to one datagram, if there is one. -/
def respond (request : Bytes) (src : SocketAddr) : Option Bytes := do
  if request.length < 20 then none
  let msgType ← u16At request 0
  if msgType ≠ stunBindingRequest then none
  let txid := (request.drop 8).take 12
  -- Build response
  let resp := List.replicate 32 0
  let resp := Bytes.copyFromSlice resp 0 (u16Bytes stunBindingResponse)
  let resp := Bytes.copyFromSlice resp 4 cookieBytes.toList
  let resp := Bytes.copyFromSlice resp 8 txid
  -- XOR-MAPPED-ADDRESS attr at offset 20
  let idx := 20
  let resp := Bytes.copyFromSlice resp idx (u16Bytes xorMappedAddr)
  let resp := Bytes.copyFromSlice resp (idx + 2) (u16Bytes 8)
  let resp := resp.set (idx + 4) 0
  let resp := resp.set (idx + 5) 0x01
  match src with
  | .v4 ip port =>
      let xPort := port ^^^ cookieHigh
      let resp := Bytes.copyFromSlice resp (idx + 6) (u16Bytes xPort)
      let resp := Bytes.copyFromSlice resp (idx + 8) (xorCookie ip).toList
      -- one attribute header+value (4+8)
      let resp := Bytes.copyFromSlice resp 2 (u16Bytes 12)
      return resp.take (idx + 12)
  | .v6 _ _ _ => none

/-- The IPv4 address of an attribute value. -/
def ipv4At (data : Bytes) (idx : Nat) : Option SocketAddr := do
  let xPort ← u16At data (idx + 2)
  let port := xPort ^^^ cookieHigh
  let first ← data[idx + 4]?
  let second ← data[idx + 5]?
  let third ← data[idx + 6]?
  let fourth ← data[idx + 7]?
  return .v4 (xorCookie #v[first, second, third, fourth]) port

/-- What an attribute gives for the address. -/
def attributeAddress (data : Bytes) (attrType attrLen : UInt16) (idx : Nat) :
    Option (Option SocketAddr) :=
  if attrType = xorMappedAddr ∧ 8 ≤ attrLen.toNat then do
    let family ← data[idx + 1]?
    if family = 0x01 then
      return some (← ipv4At data idx)
    else return none
  else some none

/-- The loop over the attributes; `none` stands for the panic of an index out
of bounds. -/
def attributeLoop (data : Bytes) (msgLen idx : Nat) :
    Option (Option SocketAddr) :=
  if idx + 4 ≤ 20 + msgLen then do
    let attrType ← u16At data idx
    let attrLen ← u16At data (idx + 2)
    let value := idx + 4
    if data.length < value + attrLen.toNat then return none
    else
      match ← attributeAddress data attrType attrLen value with
      | some address => return some address
      | none =>
          -- 4-byte padding
          attributeLoop data msgLen (value + (attrLen.toNat + 3) / 4 * 4)
  else some none
termination_by 20 + msgLen - idx

/-- Decode Binding response and extract XOR-Mapped address if present. -/
def decodeBindingResponse (data : Bytes) : Option (Option SocketAddr) := do
  if data.length < 20 then return none
  let msgType ← u16At data 0
  if msgType ≠ stunBindingResponse then return none
  let msgLen ← u16At data 2
  if data.length < 20 + msgLen.toNat then return none
  -- Attributes start at byte 20.
  attributeLoop data msgLen.toNat 20

example : (do
    let response ← respond (0 :: 1 :: List.replicate 18 7)
      (.v4 #v[192, 0, 2, 1] 40000)
    decodeBindingResponse response) =
      some (some (.v4 #v[192, 0, 2, 1] 40000)) := by
  decide +kernel

/-- On a response that is not cut off, decoding is the loop. -/
theorem decode_eq_loop {data : Bytes} {msgLen : UInt16}
    (answers : u16At data 0 = some stunBindingResponse)
    (announced : u16At data 2 = some msgLen)
    (complete : 20 + msgLen.toNat ≤ data.length) :
    decodeBindingResponse data = attributeLoop data msgLen.toNat 20 := by
  have long : ¬ data.length < 20 := by omega
  rw [decodeBindingResponse, if_neg long, answers, announced]
  simp only [Option.bind_eq_bind, Option.bind_some, ne_eq, not_true,
    if_false, if_neg (Nat.not_lt_of_le complete)]

theorem u16Bytes_spec (word : UInt16) :
    ∃ high low, u16Bytes word = [high, low] ∧
      UInt16.ofNat (Bytes.ofBeBytes [high, low]) = word := by
  have twoBytes : u16Bytes word =
      [UInt8.ofNat (word.toNat / 256), UInt8.ofNat word.toNat] := by
    rw [u16Bytes, Bytes.toList_beBytes]
    rfl
  refine ⟨_, _, twoBytes, ?_⟩
  rw [← twoBytes, u16Bytes, Bytes.ofBeBytes_beBytes word.toNat_lt,
    UInt16.ofNat_toNat]

theorem constant_bytes :
    u16Bytes stunBindingResponse = [0x01, 0x01] ∧
      cookieBytes = #v[0x21, 0x12, 0xA4, 0x42] ∧
      u16Bytes xorMappedAddr = [0x00, 0x20] ∧ u16Bytes 8 = [0x00, 0x08] ∧
      u16Bytes 12 = [0x00, 0x0C] := by
  decide +kernel

theorem xorCookie_xorCookie (octets : Vector UInt8 4) :
    xorCookie (xorCookie octets) = octets := by
  ext idx within
  rw [xorCookie, xorCookie, Vector.getElem_zipWith, Vector.getElem_zipWith,
    UInt8.xor_assoc, UInt8.xor_self, UInt8.xor_zero]

theorem exists_octets (octets : Vector UInt8 4) :
    ∃ first second third fourth,
      octets = #v[first, second, third, fourth] := by
  match octets with
  | ⟨⟨[first, second, third, fourth]⟩, _⟩ =>
      exact ⟨first, second, third, fourth, rfl⟩

/-- The layout of a response. -/
def responseBytes (txid : Bytes) (high low first second third fourth : UInt8) :
    Bytes :=
  0x01 :: 0x01 :: 0x00 :: 0x0C :: 0x21 :: 0x12 :: 0xA4 :: 0x42 :: (txid ++
    [0x00, 0x20, 0x00, 0x08, 0x00, 0x01, high, low, first, second, third,
      fourth])

theorem respond_v4 {request : Bytes} (long : 20 ≤ request.length)
    (asks : u16At request 0 = some stunBindingRequest) {ip : Vector UInt8 4}
    {port : UInt16} {high low first second third fourth : UInt8}
    (portBytes : u16Bytes (port ^^^ cookieHigh) = [high, low])
    (octets : xorCookie ip = #v[first, second, third, fourth]) :
    respond request (.v4 ip port) =
      some (responseBytes ((request.drop 8).take 12) high low first second
        third fourth) := by
  have twelve : ((request.drop 8).take 12).length = 12 := by
    rw [List.length_take, List.length_drop]
    omega
  obtain ⟨typeBytes, cookie, attrType, eight, lengthBytes⟩ := constant_bytes
  simp only [respond, responseBytes, if_neg (Nat.not_lt_of_le long), asks,
    typeBytes, attrType, eight, lengthBytes, portBytes, octets,
    Option.bind_eq_bind, Option.bind_some, ne_eq, not_true, if_false,
    Option.pure_def]
  generalize (request.drop 8).take 12 = txid at twelve
  rw [cookie]
  -- All twelve bytes are named, so that the writes can be carried out.
  match txid, twelve with
  | [_, _, _, _, _, _, _, _, _, _, _, _], _ =>
      simp [Bytes.copyFromSlice, List.replicate]

theorem decode_responseBytes {txid : Bytes} (twelve : txid.length = 12)
    (high low first second third fourth : UInt8) :
    decodeBindingResponse
        (responseBytes txid high low first second third fourth) =
      some (some (.v4 (xorCookie #v[first, second, third, fourth])
        (UInt16.ofNat (Bytes.ofBeBytes [high, low]) ^^^ cookieHigh))) := by
  have responseType :
      UInt16.ofNat (Bytes.ofBeBytes [0x01, 0x01]) = stunBindingResponse := by
    decide
  have msgLen : UInt16.ofNat (Bytes.ofBeBytes [0x00, 0x0C]) = 12 := by
    decide
  have attrType :
      UInt16.ofNat (Bytes.ofBeBytes [0x00, 0x20]) = xorMappedAddr := by
    decide
  have attrLen : UInt16.ofNat (Bytes.ofBeBytes [0x00, 0x08]) = 8 := by
    decide
  have answers : u16At
      (responseBytes txid high low first second third fourth) 0 =
        some stunBindingResponse := congrArg some responseType
  have announced : u16At
      (responseBytes txid high low first second third fourth) 2 =
        some 12 := congrArg some msgLen
  have complete : 20 + (12 : UInt16).toNat ≤
      (responseBytes txid high low first second third fourth).length := by
    simp [responseBytes, twelve]
  rw [decode_eq_loop answers announced complete, attributeLoop]
  match txid, twelve with
  | [_, _, _, _, _, _, _, _, _, _, _, _], _ =>
      simp [responseBytes, u16At, attrType, attrLen, attributeAddress, ipv4At]

/-- A datagram that the responder answers: a header, the transaction id, and
any further bytes. -/
def bindingRequest (header : Vector UInt8 6) (txid : Vector UInt8 12)
    (rest : Bytes) : Bytes :=
  u16Bytes stunBindingRequest ++ header.toList ++ txid.toList ++ rest

/-- The decoder gets the source address back. -/
theorem decode_of_respond {request : Bytes} (long : 20 ≤ request.length)
    (asks : u16At request 0 = some stunBindingRequest) (ip : Vector UInt8 4)
    (port : UInt16) :
    (respond request (.v4 ip port)).bind decodeBindingResponse =
      some (some (.v4 ip port)) := by
  obtain ⟨high, low, portBytes, portBack⟩ := u16Bytes_spec (port ^^^ cookieHigh)
  obtain ⟨first, second, third, fourth, octets⟩ := exists_octets (xorCookie ip)
  have twelve : ((request.drop 8).take 12).length = 12 := by
    rw [List.length_take, List.length_drop]
    omega
  rw [respond_v4 long asks portBytes octets, Option.bind_some,
    decode_responseBytes twelve, portBack, ← octets, xorCookie_xorCookie,
    UInt16.xor_assoc, UInt16.xor_self, UInt16.xor_zero]

theorem bindingRequest_spec (header : Vector UInt8 6)
    (txid : Vector UInt8 12) (rest : Bytes) :
    20 ≤ (bindingRequest header txid rest).length ∧
      u16At (bindingRequest header txid rest) 0 =
        some stunBindingRequest := by
  obtain ⟨high, low, typeBytes, back⟩ := u16Bytes_spec stunBindingRequest
  rw [bindingRequest, typeBytes]
  constructor
  · simp only [List.length_append, List.length_cons, List.length_nil,
      Vector.length_toList]
    omega
  · exact congrArg some back

/-- An attribute by the offset of its value, its type and its length. -/
abbrev Attribute : Type := Nat × UInt16 × UInt16

theorem header_pos : 0 < 4 := Nat.succ_pos 3

theorem le_padded (size : Nat) : size ≤ (size + 3) / 4 * 4 := by omega

/-- Headers of four bytes, and values padded to four bytes. -/
def format (data : Bytes) : AttributeWalk.Format (UInt16 × UInt16) where
  headerLen := 4
  header_pos := header_pos
  read idx := do
    let attrType ← u16At data idx
    let attrLen ← u16At data (idx + 2)
    return (attrType, attrLen)
  size header := header.2.toNat
  padded size := (size + 3) / 4 * 4
  le_padded := le_padded

/-- The end of the message, by its own length field. -/
def messageEnd (data : Bytes) : Nat := 20 + ((u16At data 2).getD 0).toNat

def IsResponse (data : Bytes) : Prop :=
  u16At data 0 = some stunBindingResponse ∧ messageEnd data ≤ data.length

instance (data : Bytes) : Decidable (IsResponse data) :=
  inferInstanceAs (Decidable (_ ∧ _))

/-- The attributes with a header in the message and a value in the buffer. -/
def attributes (data : Bytes) : List Attribute :=
  if IsResponse data then
    (format data).walk (messageEnd data) data.length 20
  else []

/-- An XOR-MAPPED-ADDRESS attribute with an IPv4 address. -/
def IsMapped (data : Bytes) (found : Attribute) : Prop :=
  found.2.1 = xorMappedAddr ∧ 8 ≤ found.2.2.toNat ∧
    data[found.1 + 1]? = some 0x01

instance (data : Bytes) (found : Attribute) :
    Decidable (IsMapped data found) :=
  inferInstanceAs (Decidable (_ ∧ _ ∧ _))

def addressOf (data : Bytes) (found : Attribute) : Option SocketAddr :=
  if IsMapped data found then ipv4At data found.1 else none

theorem exists_u16At (data : Bytes) (idx : Nat)
    (within : idx + 2 ≤ data.length) :
    ∃ word, u16At data idx = some word := by
  rw [u16At, List.getElem?_eq_getElem (by omega),
    List.getElem?_eq_getElem (by omega)]
  exact ⟨_, rfl⟩

theorem exists_ipv4At (data : Bytes) (idx : Nat)
    (within : idx + 8 ≤ data.length) :
    ∃ address, ipv4At data idx = some address := by
  obtain ⟨xPort, port⟩ := exists_u16At data (idx + 2) (by omega)
  rw [ipv4At, port, List.getElem?_eq_getElem (by omega),
    List.getElem?_eq_getElem (by omega), List.getElem?_eq_getElem (by omega),
    List.getElem?_eq_getElem (by omega)]
  exact ⟨_, rfl⟩

theorem exists_header (data : Bytes) (idx : Nat)
    (within : idx + 4 ≤ data.length) :
    ∃ attrType attrLen, u16At data idx = some attrType ∧
      u16At data (idx + 2) = some attrLen ∧
      (format data).read idx = some (attrType, attrLen) := by
  obtain ⟨attrType, first⟩ := exists_u16At data idx (by omega)
  obtain ⟨attrLen, second⟩ := exists_u16At data (idx + 2) (by omega)
  refine ⟨attrType, attrLen, first, second, ?_⟩
  change (u16At data idx).bind _ = _
  rw [first, Option.bind_some, second]
  rfl

variable {data : Bytes}

/-- Reading a value inside the buffer never panics. -/
theorem attributeAddress_eq {attrType attrLen : UInt16} {idx : Nat}
    (within : idx + attrLen.toNat ≤ data.length) :
    attributeAddress data attrType attrLen idx =
      some (addressOf data (idx, attrType, attrLen)) := by
  rw [attributeAddress, addressOf]
  by_cases candidate : attrType = xorMappedAddr ∧ 8 ≤ attrLen.toNat
  · rw [if_pos candidate]
    obtain ⟨sameType, longEnough⟩ := candidate
    obtain ⟨address, known⟩ := exists_ipv4At data idx (by omega)
    have familyByte := List.getElem?_eq_getElem
      (show idx + 1 < data.length by omega)
    rw [familyByte, Option.bind_eq_bind, Option.bind_some]
    by_cases ipv4 : data[idx + 1] = 0x01
    · have isIpv4 : data[idx + 1]? = some 0x01 := by rw [familyByte, ipv4]
      rw [if_pos ipv4, if_pos ⟨sameType, longEnough, isIpv4⟩, known]
      rfl
    · rw [if_neg ipv4, if_neg fun mapped =>
        ipv4 (Option.some.inj (familyByte.symm.trans mapped.2.2))]
      rfl
  · rw [if_neg candidate,
      if_neg fun mapped => candidate ⟨mapped.1, mapped.2.1⟩]

theorem attributeLoop_of_header {msgLen idx : Nat} {attrType attrLen : UInt16}
    (inside : idx + 4 ≤ 20 + msgLen) (first : u16At data idx = some attrType)
    (second : u16At data (idx + 2) = some attrLen) :
    attributeLoop data msgLen idx =
      if data.length < idx + 4 + attrLen.toNat then some none
      else
        match addressOf data (idx + 4, attrType, attrLen) with
        | some address => some (some address)
        | none => attributeLoop data msgLen
            (idx + 4 + (attrLen.toNat + 3) / 4 * 4) := by
  rw [attributeLoop, if_pos inside, first, second]
  simp only [Option.bind_eq_bind, Option.bind_some, Option.pure_def]
  by_cases cutOff : data.length < idx + 4 + attrLen.toNat
  · rw [if_pos cutOff, if_pos cutOff]
  · rw [if_neg cutOff, if_neg cutOff,
      attributeAddress_eq (Nat.le_of_not_lt cutOff)]
    rfl

/-- The loop takes the first attribute that gives an address, and it never
reads out of bounds. -/
theorem attributeLoop_eq {msgLen : Nat} (complete : 20 + msgLen ≤ data.length)
    (idx : Nat) :
    attributeLoop data msgLen idx =
      some (((format data).walk (20 + msgLen) data.length idx).findSome?
        (addressOf data)) := by
  induction idx using AttributeWalk.Format.walk.induct (format data)
      (20 + msgLen) data.length with
  | case1 idx inside absent =>
      obtain ⟨attrType, attrLen, -, -, present⟩ :=
        exists_header data idx (Nat.le_trans inside complete)
      rw [present] at absent
      cases absent
  | case2 idx inside header known value fits ih =>
      obtain ⟨attrType, attrLen, first, second, present⟩ :=
        exists_header data idx (Nat.le_trans inside complete)
      cases present.symm.trans known
      have whole : ¬ data.length < idx + 4 + attrLen.toNat :=
        Nat.not_lt_of_le fits
      have listed : (format data).walk (20 + msgLen) data.length idx =
          (idx + 4, attrType, attrLen) ::
            (format data).walk (20 + msgLen) data.length
              (idx + 4 + (attrLen.toNat + 3) / 4 * 4) :=
        (format data).walk_of_fits inside present fits
      rw [attributeLoop_of_header inside first second, if_neg whole, listed,
        List.findSome?_cons]
      cases addressOf data (idx + 4, attrType, attrLen) with
      | some address => rfl
      | none => exact ih
  | case3 idx inside header known value exceeds =>
      obtain ⟨attrType, attrLen, first, second, present⟩ :=
        exists_header data idx (Nat.le_trans inside complete)
      cases present.symm.trans known
      have cutOff : data.length < idx + 4 + attrLen.toNat :=
        Nat.lt_of_not_le exceeds
      rw [attributeLoop_of_header inside first second, if_pos cutOff,
        (format data).walk_of_overhang present cutOff]
      rfl
  | case4 idx past =>
      have outside : ¬ idx + 4 ≤ 20 + msgLen := past
      rw [attributeLoop, if_neg outside,
        (format data).walk_of_stop_lt (Nat.lt_of_not_le past)]
      rfl

/-- The decoder takes the first attribute that gives an address, and it never
reads out of bounds. -/
theorem decode_eq_findSome (data : Bytes) :
    decodeBindingResponse data =
      some ((attributes data).findSome? (addressOf data)) := by
  rw [attributes]
  by_cases answers : IsResponse data
  · obtain ⟨responseType, complete⟩ := answers
    rw [if_pos ⟨responseType, complete⟩]
    have long : 20 ≤ data.length := Nat.le_of_add_right_le complete
    obtain ⟨msgLen, announced⟩ := exists_u16At data 2 (by omega)
    have stop : messageEnd data = 20 + msgLen.toNat := by
      rw [messageEnd, announced, Option.getD_some]
    rw [stop] at complete ⊢
    rw [decode_eq_loop responseType announced complete,
      attributeLoop_eq complete]
  · rw [if_neg answers, decodeBindingResponse]
    by_cases short : data.length < 20
    · rw [if_pos short]
      rfl
    · obtain ⟨msgType, first⟩ := exists_u16At data 0 (by omega)
      obtain ⟨msgLen, announced⟩ := exists_u16At data 2 (by omega)
      rw [if_neg short, first, announced]
      by_cases responseType : msgType = stunBindingResponse
      · have cutOff : data.length < 20 + msgLen.toNat := by
          apply Nat.lt_of_not_le
          intro complete
          apply answers
          refine ⟨first.trans (congrArg some responseType), ?_⟩
          rw [messageEnd, announced]
          exact complete
        simp [responseType, cutOff]
      · simp [responseType]

theorem u16At_take {stop idx : Nat} (inside : idx + 2 ≤ stop) :
    u16At (data.take stop) idx = u16At data idx := by
  rw [u16At, u16At, List.getElem?_take_of_lt (by omega),
    List.getElem?_take_of_lt (by omega)]

theorem ipv4At_take {stop idx : Nat} (inside : idx + 8 ≤ stop) :
    ipv4At (data.take stop) idx = ipv4At data idx := by
  rw [ipv4At, ipv4At, u16At_take (by omega),
    List.getElem?_take_of_lt (by omega), List.getElem?_take_of_lt (by omega),
    List.getElem?_take_of_lt (by omega), List.getElem?_take_of_lt (by omega)]

theorem messageEnd_take :
    messageEnd (data.take (messageEnd data)) = messageEnd data := by
  have inside : 2 + 2 ≤ messageEnd data := by
    rw [messageEnd]
    omega
  rw [messageEnd, u16At_take inside, messageEnd]

theorem isResponse_take_iff :
    IsResponse (data.take (messageEnd data)) ↔ IsResponse data := by
  have inside : 0 + 2 ≤ messageEnd data := by
    rw [messageEnd]
    omega
  rw [IsResponse, IsResponse, messageEnd_take, u16At_take inside,
    List.length_take]
  exact and_congr_right fun _ => by omega

/-- Attributes inside the message give the same address without what follows
it. -/
theorem addressOf_take {stop : Nat} {found : Attribute}
    (inside : (format data).valueEnd found ≤ stop) :
    addressOf (data.take stop) found = addressOf data found := by
  have bound : found.1 + found.2.2.toNat ≤ stop := inside
  by_cases long : 8 ≤ found.2.2.toNat
  · have sameFamily : (data.take stop)[found.1 + 1]? = data[found.1 + 1]? :=
      List.getElem?_take_of_lt (by omega)
    have sameMapped : IsMapped (data.take stop) found ↔ IsMapped data found := by
      rw [IsMapped, IsMapped, sameFamily]
    rw [addressOf, addressOf, ipv4At_take (by omega)]
    simp only [sameMapped]
  · rw [addressOf, addressOf, if_neg fun mapped => long mapped.2.1,
      if_neg fun mapped => long mapped.2.1]

/-- The attributes that lie in the message are those of the message alone. -/
theorem attributes_eq_append (data : Bytes) :
    ∃ rest, attributes data =
        attributes (data.take (messageEnd data)) ++ rest ∧
      (∀ found ∈ attributes (data.take (messageEnd data)),
        (format data).valueEnd found ≤ messageEnd data) ∧
      ∀ found ∈ rest, messageEnd data < (format data).valueEnd found := by
  rw [attributes, attributes, messageEnd_take]
  by_cases answers : IsResponse data
  · have size : (data.take (messageEnd data)).length = messageEnd data :=
      List.length_take_of_le answers.2
    have sameWalk : (format (data.take (messageEnd data))).walk
        (messageEnd data) (messageEnd data) 20 =
          (format data).walk (messageEnd data) (messageEnd data) 20 := by
      refine (format data).walk_congr fun idx inside => ?_
      have headerInside : idx + 4 ≤ messageEnd data := inside
      change (u16At _ idx).bind _ = (u16At _ idx).bind _
      rw [u16At_take (by omega), u16At_take (by omega)]
    rw [if_pos answers, if_pos (isResponse_take_iff.mpr answers), size,
      sameWalk]
    obtain ⟨rest, split, overhang⟩ :=
      (format data).walk_eq_append answers.2
    exact ⟨rest, split, fun found member =>
      ((format data).bounds_of_mem_walk member).2, overhang⟩
  · rw [if_neg answers, if_neg (isResponse_take_iff.not.mpr answers)]
    exact ⟨[], rfl, fun found none => absurd none List.not_mem_nil,
      fun found none => absurd none List.not_mem_nil⟩

/-- Decoding returns, an address comes only from an XOR-MAPPED-ADDRESS
attribute that lies in the message, and the bytes behind the message do not
matter. -/
def DecodesMessage (data : Bytes) : Prop :=
  ∃ result, decodeBindingResponse data = some result ∧
    (∀ address, result = some address →
      ∃ found ∈ attributes data, addressOf data found = some address ∧
        (format data).valueEnd found ≤ messageEnd data) ∧
    decodeBindingResponse (data.take (messageEnd data)) = some result

/-- Where an XOR-MAPPED-ADDRESS attribute with an IPv4 address hangs over the
end of the message, there is another one inside the message. -/
def Enclosed (data : Bytes) : Prop :=
  ∀ found ∈ attributes data, IsMapped data found →
    messageEnd data < (format data).valueEnd found →
      ∃ other ∈ attributes data, IsMapped data other ∧
        (format data).valueEnd other ≤ messageEnd data

/-- The attributes of the walk that give an address are the mapped ones. -/
theorem addressOf_ne_none_iff {found : Attribute}
    (member : found ∈ attributes data) :
    addressOf data found ≠ none ↔ IsMapped data found := by
  rw [addressOf]
  by_cases mapped : IsMapped data found
  · rw [attributes] at member
    split at member
    · have bound : found.1 + found.2.2.toNat ≤ data.length :=
        ((format data).bounds_of_mem_walk member).2
      have long := mapped.2.1
      obtain ⟨address, known⟩ := exists_ipv4At data found.1 (by omega)
      rw [if_pos mapped, known]
      exact iff_of_true (Option.some_ne_none address) mapped
    · cases member
  · rw [if_neg mapped]
    exact iff_of_false (fun absent => absent rfl) mapped

/-- Decoding depends on the message alone exactly when the attributes behind it
do not change the first address. -/
theorem decodesMessage_iff_findSome {rest : List Attribute}
    (split : attributes data =
      attributes (data.take (messageEnd data)) ++ rest)
    (inside : ∀ found ∈ attributes (data.take (messageEnd data)),
      (format data).valueEnd found ≤ messageEnd data) :
    DecodesMessage data ↔
      (attributes (data.take (messageEnd data)) ++ rest).findSome?
          (addressOf data) =
        (attributes (data.take (messageEnd data))).findSome?
          (addressOf data) := by
  have whole := decode_eq_findSome data
  have alone := decode_eq_findSome (data.take (messageEnd data))
  rw [FirstMatch.findSome?_congr fun found member =>
    addressOf_take (inside found member)] at alone
  rw [DecodesMessage, alone, whole, split]
  constructor
  · rintro ⟨result, returned, -, sameAlone⟩
    exact Option.some.inj (returned.trans sameAlone.symm)
  · intro same
    refine ⟨_, congrArg some same, ?_, rfl⟩
    intro address chosen
    obtain ⟨found, listed, gives⟩ := List.exists_of_findSome?_eq_some chosen
    exact ⟨found, List.mem_append_left rest listed, gives, inside found listed⟩

theorem decodesMessage_iff (data : Bytes) :
    DecodesMessage data ↔ Enclosed data := by
  obtain ⟨rest, split, inside, overhang⟩ := attributes_eq_append data
  rw [decodesMessage_iff_findSome split inside,
    FirstMatch.findSome?_append_eq_left_iff]
  have early : ∀ found ∈ attributes (data.take (messageEnd data)),
      found ∈ attributes data := fun found member => by
    rw [split]
    exact List.mem_append_left rest member
  have late : ∀ found ∈ rest, found ∈ attributes data := fun found member => by
    rw [split]
    exact List.mem_append_right _ member
  constructor
  · intro covered found member mapped exceeds
    -- The attributes inside the message end inside it.
    have behind : found ∈ rest := by
      rw [split] at member
      rcases List.mem_append.mp member with listed | listed
      · exact absurd exceeds (Nat.not_lt_of_le (inside found listed))
      · exact listed
    obtain ⟨other, listed, gives⟩ :=
      covered found behind ((addressOf_ne_none_iff member).mpr mapped)
    exact ⟨other, early other listed,
      (addressOf_ne_none_iff (early other listed)).mp gives,
      inside other listed⟩
  · intro enclosed found behind gives
    have member := late found behind
    obtain ⟨other, listed, mapped, within⟩ := enclosed found member
      ((addressOf_ne_none_iff member).mp gives) (overhang found behind)
    refine ⟨other, ?_, (addressOf_ne_none_iff listed).mpr mapped⟩
    rw [split] at listed
    rcases List.mem_append.mp listed with inFront | inRest
    · exact inFront
    · exact absurd within (Nat.not_le_of_lt (overhang other inRest))

/-- Every response gives its source address back, and decoding depends on the
message alone exactly when no address hangs over its end. -/
theorem decode_binding_response_iff (header : Vector UInt8 6)
    (txid : Vector UInt8 12) (rest : Bytes) (ip : Vector UInt8 4)
    (port : UInt16) (data : Bytes) :
    (respond (bindingRequest header txid rest) (.v4 ip port)).bind
        decodeBindingResponse = some (some (.v4 ip port)) ∧
      (DecodesMessage data ↔ Enclosed data) := by
  refine ⟨?_, decodesMessage_iff data⟩
  obtain ⟨long, asks⟩ := bindingRequest_spec header txid rest
  exact decode_of_respond long asks ip port

/-- A response whose length field ends the message behind the header of its
attribute. -/
def overhanging : Bytes :=
  [0x01, 0x01, 0x00, 0x04, 0x21, 0x12, 0xA4, 0x42] ++ List.replicate 12 7 ++
    [0x00, 0x20, 0x00, 0x08] ++
    [0x00, 0x01, 0xA1, 0x47, 0xE1, 0xBA, 0xA5, 0x43]

/-- The address is read from behind the message. -/
theorem address_behind_message :
    messageEnd overhanging = 24 ∧
      attributes overhanging = [(24, 0x0020, 8)] ∧
      decodeBindingResponse overhanging =
        some (some (.v4 #v[192, 168, 1, 1] 32853)) ∧
      decodeBindingResponse (overhanging.take 24) = some none := by
  decide +kernel

end NyxNet.Transport.Stun
