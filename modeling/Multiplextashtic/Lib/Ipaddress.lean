import Mathlib.Data.List.Basic

/-! # `ipaddress`

Addresses and networks as Python's `ipaddress` reads them from text. `none` is a
`ValueError`. -/
namespace Ipaddress

inductive IPAddress where
  | v4 (ip : BitVec 32)
  | v6 (ip : BitVec 128) (scopeId : Option (List Char))
  deriving DecidableEq, Repr

inductive IPNetwork where
  | v4 (networkAddress netmask : BitVec 32)
  | v6 (networkAddress netmask : BitVec 128)
  deriving DecidableEq, Repr

/-! ## Numbers -/

def isDigit (c : Char) : Bool := '0' ≤ c && c ≤ '9'

def isHexDigit (c : Char) : Bool := isDigit c || ('a' ≤ c && c ≤ 'f') || ('A' ≤ c && c ≤ 'F')

def digitValue (c : Char) : Nat :=
  if isDigit c then c.toNat - '0'.toNat
  else if 'a' ≤ c then c.toNat - 'a'.toNat + 10
  else c.toNat - 'A'.toNat + 10

def readNumber (base : Nat) (s : List Char) : Nat := s.foldl (fun n c => n * base + digitValue c) 0

/-! ## IPv4 addresses -/

def parseOctet (s : List Char) : Option Nat :=
  if s = [] then none
  else if !s.all isDigit then none
  else if s.length > 3 then none
  else if s ≠ ['0'] ∧ s.head? = some '0' then none
  else if readNumber 10 s > 255 then none
  else some (readNumber 10 s)

def ipv4FromString (s : List Char) : Option (BitVec 32) :=
  match s.splitOn '.' with
  | [a, b, c, d] => do
    let a ← parseOctet a
    let b ← parseOctet b
    let c ← parseOctet c
    let d ← parseOctet d
    return BitVec.ofNat 32 (((a * 256 + b) * 256 + c) * 256 + d)
  | _ => none

def ipv4Address (s : List Char) : Option IPAddress :=
  if '/' ∈ s then none else (ipv4FromString s).map .v4

/-! ## IPv6 addresses -/

def parseHextet (s : List Char) : Option Nat :=
  if !s.all isHexDigit then none
  else if s.length > 4 then none
  else if s = [] then none
  else some (readNumber 16 s)

/-- An IPv4 suffix takes the place of two hextets. -/
def expandSuffix (parts : List (List Char)) : Option (List (List Char)) :=
  match parts.getLast? with
  | none => some parts
  | some last =>
    if '.' ∈ last then
      (ipv4FromString last).map fun ip => parts.dropLast ++
        [Nat.toDigits 16 (ip.toNat / 65536), Nat.toDigits 16 (ip.toNat % 65536)]
    else some parts

/-- The inner positions with nothing between two colons. -/
def skips (parts : List (List Char)) : List Nat :=
  (List.range parts.length).filter fun i =>
    0 < i && i + 1 < parts.length && parts.getD i [] == []

def hextetsToNat (hextets : List Nat) : Nat := hextets.foldl (fun n h => n * 65536 + h) 0

def ipv6FromParts (parts : List (List Char)) : Option (BitVec 128) :=
  match skips parts with
  | [] =>
    if parts.length ≠ 8 then none
    else (parts.mapM parseHextet).map fun hs => BitVec.ofNat 128 (hextetsToNat hs)
  | [skip] =>
    let hi := parts.take skip
    let lo := parts.drop (skip + 1)
    -- an empty end belongs to the `::`, so it must be all there is on its side
    if hi.head? = some [] ∧ hi.length ≠ 1 then none
    else if lo.getLast? = some [] ∧ lo.length ≠ 1 then none
    else
      let hi := if hi.head? = some [] then [] else hi
      let lo := if lo.getLast? = some [] then [] else lo
      if hi.length + lo.length ≥ 8 then none
      else do
        let his ← hi.mapM parseHextet
        let los ← lo.mapM parseHextet
        return BitVec.ofNat 128 (hextetsToNat
          (his ++ List.replicate (8 - (hi.length + lo.length)) 0 ++ los))
  | _ => none

def ipv6FromString (s : List Char) : Option (BitVec 128) :=
  let parts := s.splitOn ':'
  if s = [] then none
  else if parts.length < 3 then none
  else (expandSuffix parts).bind fun parts =>
    if parts.length > 9 then none else ipv6FromParts parts

/-- The text before `%` and the scope behind it. -/
def splitScopeId (s : List Char) : Option (List Char × Option (List Char)) :=
  if '%' ∈ s then
    let scopeId := (s.dropWhile (· ≠ '%')).drop 1
    if scopeId = [] ∨ '%' ∈ scopeId then none else some (s.takeWhile (· ≠ '%'), some scopeId)
  else some (s, none)

def ipv6Address (s : List Char) : Option IPAddress :=
  if '/' ∈ s then none
  else (splitScopeId s).bind fun (addr, scopeId) =>
    (ipv6FromString addr).map fun ip => .v6 ip scopeId

/-! ## Networks -/

def prefixFromPrefixString (maxPrefixlen : Nat) (s : List Char) : Option Nat :=
  if s = [] ∨ !s.all isDigit then none
  else if readNumber 10 s > maxPrefixlen then none
  else some (readNumber 10 s)

/-- The netmask of a prefix length: that many leading ones. -/
def netmask (w prefixlen : Nat) : BitVec w := BitVec.allOnes w ^^^ (BitVec.allOnes w >>> prefixlen)

def prefixFromIpInt (ip : BitVec 32) : Option Nat :=
  (List.range 33).find? fun prefixlen => netmask 32 prefixlen == ip

/-- A dotted netmask, or else a hostmask. -/
def prefixFromIpString (s : List Char) : Option Nat :=
  (ipv4FromString s).bind fun ip => (prefixFromIpInt ip).or (prefixFromIpInt (~~~ip))

def ipv4Network (addr : List Char) (mask : Option (List Char)) : Option IPNetwork := do
  let ip ← ipv4FromString addr
  let prefixlen ← match mask with
    | none => some 32
    | some m => (prefixFromPrefixString 32 m).or (prefixFromIpString m)
  return .v4 (ip &&& netmask 32 prefixlen) (netmask 32 prefixlen)

def ipv6Network (addr : List Char) (mask : Option (List Char)) : Option IPNetwork := do
  let (addr, _) ← splitScopeId addr
  let ip ← ipv6FromString addr
  let prefixlen ← match mask with
    | none => some 128
    | some m => prefixFromPrefixString 128 m
  return .v6 (ip &&& netmask 128 prefixlen) (netmask 128 prefixlen)

/-! ## The functions of the module -/

/-- `ipaddress.ip_address`. -/
def ipAddress (s : String) : Option IPAddress :=
  (ipv4Address s.toList).or (ipv6Address s.toList)

/-- `ipaddress.ip_network` with `strict=False`. -/
def ipNetwork (s : String) : Option IPNetwork :=
  match s.toList.splitOn '/' with
  | [addr] => (ipv4Network addr none).or (ipv6Network addr none)
  | [addr, mask] => (ipv4Network addr (some mask)).or (ipv6Network addr (some mask))
  | _ => none

/-- `address in network`: never across versions. -/
def IPNetwork.contains : IPNetwork → IPAddress → Bool
  | .v4 net mask, .v4 ip => ip &&& mask == net
  | .v6 net mask, .v6 ip _ => ip &&& mask == net
  | _, _ => false

example : ipAddress "192.168.01.1" = none := by decide
example : ipAddress "::ffff:10.0.0.1%eth0" =
    some (.v6 0xffff0a000001#128 (some ['e', 't', 'h', '0'])) := by decide
example : (ipNetwork "192.168.1.77/255.255.255.0").bind
    (fun net => (ipAddress "192.168.1.50").map net.contains) = some true := by decide

end Ipaddress
