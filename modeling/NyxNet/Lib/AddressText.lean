import NyxNet.Lib.SocketAddr
import NyxNet.Lib.Str

/-!
# Texts of addresses

What `Display` of the Rust standard library writes for IP addresses and socket
addresses, and the parsers of IP addresses.  The text of an IPv6 address puts
`::` for its longest run of zero groups.
-/

namespace SocketAddr

open DebugFormat

/-- Four octets with points between them. -/
def ipv4Text (ip : Vector UInt8 4) : Text :=
  ['.'].intercalate (ip.toList.map fun octet => decimal octet.toNat)

def groupText (group : UInt16) : Text := Nat.toDigits 16 group.toNat

def groupsText (groups : List UInt16) : Text :=
  [':'].intercalate (groups.map groupText)

/-- A run of groups. -/
structure Span where
  start : Nat
  length : Nat
  deriving DecidableEq, Repr

/-- One round of the search for the longest run of zeros, the first of the
longest ones. -/
def nextSpan (spans : Span × Span) (group : UInt16 × Nat) : Span × Span :=
  let (longest, current) := spans
  if group.1 = 0 then
    let grown : Span :=
      ⟨if current.length = 0 then group.2 else current.start,
        current.length + 1⟩
    (if longest.length < grown.length then grown else longest, grown)
  else
    (longest, ⟨0, 0⟩)

def longestZeros (groups : List UInt16) : Span :=
  (groups.zipIdx.foldl nextSpan (⟨0, 0⟩, ⟨0, 0⟩)).1

/-- `to_ipv4_mapped`. -/
def toIpv4Mapped : List UInt16 → Option (Vector UInt8 4)
  | [0, 0, 0, 0, 0, 0xffff, high, low] =>
      some #v[(high >>> 8).toUInt8, high.toUInt8, (low >>> 8).toUInt8,
        low.toUInt8]
  | _ => none

def ipv6Text (groups : List UInt16) : Text :=
  match toIpv4Mapped groups with
  | some ip => "::ffff:".toList ++ ipv4Text ip
  | none =>
      let zeros := longestZeros groups
      if 1 < zeros.length then
        groupsText (groups.take zeros.start) ++ "::".toList ++
          groupsText (groups.drop (zeros.start + zeros.length))
      else
        groupsText groups

/-- `to_string` of a socket address. -/
def toText : SocketAddr → Text
  | .v4 ip port => ipv4Text ip ++ ':' :: decimal port.toNat
  | .v6 ip port scopeId =>
      let scope := if scopeId = 0 then [] else '%' :: decimal scopeId.toNat
      '[' :: ipv6Text ip ++ scope ++ "]:".toList ++ decimal port.toNat

/-- `parse::<Ipv4Addr>()`. -/
def parseIpv4 (text : Text) : Option (Vector UInt8 4) :=
  match readIpv4Addr text with
  | some (ip, []) => some ip
  | _ => none

/-- `parse::<Ipv6Addr>()`. -/
def parseIpv6 (text : Text) : Option (List UInt16) :=
  match readIpv6Addr text with
  | some (groups, []) => some groups
  | _ => none

theorem colon_notMem_ipv4Text (ip : Vector UInt8 4) : ':' ∉ ipv4Text ip := by
  obtain ⟨octets, four⟩ := ip
  match octets, four with
  | ⟨[one, two, three, four]⟩, _ =>
      simp [ipv4Text, List.intercalate, List.intersperse,
        colon_notMem_decimal]

theorem colon_mem_groupsText {first second : UInt16} {rest : List UInt16} :
    ':' ∈ groupsText (first :: second :: rest) := by
  simp [groupsText, List.intercalate_cons_cons]

/-- An IPv6 address has a colon, however it is written. -/
theorem colon_mem_ipv6Text (ip : Vector UInt16 8) :
    ':' ∈ ipv6Text ip.toList := by
  obtain ⟨groups, eight⟩ := ip
  match groups, eight with
  | ⟨first :: second :: rest⟩, _ =>
      unfold ipv6Text
      split
      · exact List.mem_append_left _ (by decide)
      · simp only
        split
        · simp
        · exact colon_mem_groupsText

example : String.ofList (ipv6Text [0x2001, 0xdb8, 0, 0, 1, 0, 0, 1]) =
      "2001:db8::1:0:0:1" ∧
    String.ofList (ipv6Text [0, 0, 0, 0, 0, 0xffff, 0x0a00, 1]) =
      "::ffff:10.0.0.1" := by
  decide +kernel

end SocketAddr
