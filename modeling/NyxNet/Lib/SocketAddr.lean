import Mathlib.Tactic.Common

/-!
# Socket addresses

`SocketAddr` of the Rust standard library with the parser of its `FromStr`:
`a.b.c.d:port` or `[groups%scope]:port`.
-/

/-- An IPv4 address has four octets, an IPv6 address eight groups. -/
inductive SocketAddr where
  | v4 (ip : Vector UInt8 4) (port : UInt16)
  | v6 (ip : List UInt16) (port : UInt16) (scopeId : UInt32)
  deriving DecidableEq

namespace SocketAddr

/-- A parser gives a result with the rest of its input, or leaves the input
alone. -/
abbrev Parser (α : Type) : Type := List Char → Option (α × List Char)

def toDigit (radix : Nat) (char : Char) : Option Nat :=
  let digit :=
    if '0' ≤ char ∧ char ≤ '9' then char.toNat - '0'.toNat
    else if 'a' ≤ char ∧ char ≤ 'z' then char.toNat - 'a'.toNat + 10
    else if 'A' ≤ char ∧ char ≤ 'Z' then char.toNat - 'A'.toNat + 10
    else radix
  if digit < radix then some digit else none

def spanDigits (radix : Nat) : List Char → List Nat × List Char
  | [] => ([], [])
  | char :: rest =>
      match toDigit radix char with
      | none => ([], char :: rest)
      | some digit =>
          let (digits, remaining) := spanDigits radix rest
          (digit :: digits, remaining)

/-- A number below a bound, the range of its type. -/
def readNumber (radix : Nat) (maxDigits : Option Nat) (allowZeroPrefix : Bool)
    (bound : Nat) : Parser Nat := fun input =>
  let (digits, rest) := spanDigits radix input
  let value := digits.foldl (fun result digit => result * radix + digit) 0
  if digits = [] then
    none
  else if maxDigits.any (fun most => most < digits.length) then
    none
  else if allowZeroPrefix = false ∧ digits.head? = some 0 ∧
      1 < digits.length then
    none
  else if value < bound then
    some (value, rest)
  else
    none

def readGivenChar (target : Char) : Parser Unit
  | [] => none
  | char :: rest => if char = target then some ((), rest) else none

def readSeparator {α : Type} (separator : Char) (index : Nat)
    (inner : Parser α) : Parser α := fun input =>
  if 0 < index then
    match readGivenChar separator input with
    | none => none
    | some (_, rest) => inner rest
  else
    inner input

/-- No octal numbers: an octet has no leading zero. -/
def readOctet (index : Nat) : Parser Nat :=
  readSeparator '.' index (readNumber 10 (some 3) false 256)

def readIpv4Addr : Parser (Vector UInt8 4) := fun input => do
  let (one, input) ← readOctet 0 input
  let (two, input) ← readOctet 1 input
  let (three, input) ← readOctet 2 input
  let (four, input) ← readOctet 3 input
  return (#v[UInt8.ofNat one, UInt8.ofNat two, UInt8.ofNat three,
    UInt8.ofNat four], input)

/-- Reads groups until `limit` of them are there or no further one follows, and
whether the last two were given as an IPv4 address. -/
def readGroups (limit : Nat) :
    Nat → List Char → List UInt16 × Bool × List Char
  | 0, input => ([], false, input)
  | missing + 1, input =>
      let index := limit - (missing + 1)
      match if index < limit - 1 then readSeparator ':' index readIpv4Addr input
        else none with
      | some (octets, rest) =>
          ([octets[0].toUInt16 <<< 8 ||| octets[1].toUInt16,
            octets[2].toUInt16 <<< 8 ||| octets[3].toUInt16], true, rest)
      | none =>
          match readSeparator ':' index (readNumber 16 (some 4) true 65536)
            input with
          | none => ([], false, input)
          | some (group, rest) =>
              let (groups, ipv4, rest) := readGroups limit missing rest
              (UInt16.ofNat group :: groups, ipv4, rest)

/-- The groups before and after `::`, with zeros for those left out. -/
def readIpv6Addr : Parser (List UInt16) := fun input =>
  let (head, headIpv4, input) := readGroups 8 8 input
  if head.length = 8 then
    some (head, input)
  else if headIpv4 then
    none
  else do
    let (_, input) ← readGivenChar ':' input
    let (_, input) ← readGivenChar ':' input
    let limit := 8 - (head.length + 1)
    let (tail, _, input) := readGroups limit limit input
    return (head ++ List.replicate (8 - head.length - tail.length) 0 ++ tail,
      input)

def readPort : Parser UInt16 := fun input => do
  let (_, input) ← readGivenChar ':' input
  let (port, input) ← readNumber 10 none true 65536 input
  return (UInt16.ofNat port, input)

def readScopeId : Parser UInt32 := fun input => do
  let (_, input) ← readGivenChar '%' input
  let (scopeId, input) ← readNumber 10 none true 4294967296 input
  return (UInt32.ofNat scopeId, input)

def readSocketAddrV4 : Parser SocketAddr := fun input => do
  let (ip, input) ← readIpv4Addr input
  let (port, input) ← readPort input
  return (.v4 ip port, input)

def readSocketAddrV6 : Parser SocketAddr := fun input => do
  let (_, input) ← readGivenChar '[' input
  let (ip, input) ← readIpv6Addr input
  let (scopeId, input) := (readScopeId input).getD (0, input)
  let (_, input) ← readGivenChar ']' input
  let (port, input) ← readPort input
  return (.v6 ip port scopeId, input)

def readSocketAddr : Parser SocketAddr := fun input =>
  (readSocketAddrV4 input).or (readSocketAddrV6 input)

/-- `parse::<SocketAddr>()`: the whole text has to be read. -/
def fromStr (text : String) : Option SocketAddr :=
  match readSocketAddr text.toList with
  | some (address, []) => some address
  | _ => none

theorem readNumber_eq_none {radix : Nat} {first : Char}
    (noDigit : toDigit radix first = none) (maxDigits : Option Nat)
    (allowZeroPrefix : Bool) (bound : Nat) (rest : List Char) :
    readNumber radix maxDigits allowZeroPrefix bound (first :: rest) =
      none := by
  simp [readNumber, spanDigits, noDigit]

/-- An address starts with a digit or with a bracket. -/
theorem fromStr_eq_none {text : String} {first : Char} {rest : List Char}
    (starts : text.toList = first :: rest) (noDigit : toDigit 10 first = none)
    (noBracket : first ≠ '[') : fromStr text = none := by
  have noV4 : readSocketAddrV4 (first :: rest) = none := by
    simp [readSocketAddrV4, readIpv4Addr, readOctet, readSeparator,
      readNumber_eq_none noDigit]
  have noV6 : readSocketAddrV6 (first :: rest) = none := by
    simp [readSocketAddrV6, readGivenChar, noBracket]
  rw [fromStr, starts, readSocketAddr, noV4, noV6]
  rfl

example : fromStr "/ip4/10.0.0.1/tcp/443" = none ∧
    fromStr "10.0.0.1:443" = some (.v4 #v[10, 0, 0, 1] 443) := by
  decide +kernel

end SocketAddr
