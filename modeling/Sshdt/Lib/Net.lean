import Sshdt.Lib.Text
import Mathlib.Tactic.Linarith

/-
  Internet addresses and their text form, after the parser
  of the Rust standard library (`core::net`).

  A reader consumes a prefix of the text. `readNumber` is
  the digit reader with the limits the standard library puts
  on it; the address readers are built from it. A parse
  succeeds only if the reader consumes the whole text.

  Key definitions include:
    * `IpAddr`
    * `SocketAddr`
    * `IpAddr.parse`
    * `SocketAddr.parse`
    * `SocketAddr.isLoopback`

  Socket addresses are ordered as in Rust: every IPv4
  address before every IPv6 address, then by address, port,
  flow label and scope.
-/

------------------------------------------------------------
-- Addresses
------------------------------------------------------------

/- `std::net::IpAddr`. -/
inductive IpAddr where
  | v4 (addr : BitVec 32)
  | v6 (addr : BitVec 128)
  deriving DecidableEq, Repr

/- `std::net::SocketAddr`. -/
inductive SocketAddr where
  | v4 (ip : BitVec 32) (port : UInt16)
  | v6 (ip : BitVec 128) (port : UInt16)
      (flowinfo scopeId : UInt32)
  deriving DecidableEq, Repr

namespace IpAddr

/- `Ipv4Addr::LOCALHOST`. -/
def localhost : IpAddr :=
  .v4 0x7f000001

/- `IpAddr::is_loopback`: 127.0.0.0/8, or ::1. -/
def isLoopback : IpAddr → Bool
| .v4 addr => addr >>> 24 == 127
| .v6 addr => addr == 1

end IpAddr

namespace SocketAddr

/- `SocketAddr::new`. -/
def new
    (ip : IpAddr)
    (port : UInt16) : SocketAddr :=
  match ip with
  | .v4 addr => .v4 addr port
  | .v6 addr => .v6 addr port 0 0

/- `SocketAddr::ip`. -/
def ip : SocketAddr → IpAddr
| .v4 addr _ => .v4 addr
| .v6 addr _ _ _ => .v6 addr

/- `SocketAddr::port`. -/
def port : SocketAddr → UInt16
| .v4 _ port => port
| .v6 _ port _ _ => port

/- `SocketAddr::is_ipv4`. -/
def isIpv4 : SocketAddr → Bool
| .v4 .. => true
| .v6 .. => false

/- The fields in the order in which Rust compares them. -/
def key : SocketAddr → List Nat
| .v4 addr port => [0, addr.toNat, port.toNat]
| .v6 addr port flowinfo scopeId =>
    [1, addr.toNat, port.toNat, flowinfo.toNat,
      scopeId.toNat]

theorem key_injective :
    Function.Injective key := by
  intro left right hEq
  cases left <;> cases right <;>
    simp_all [key, BitVec.toNat_inj, UInt16.toNat_inj,
      UInt32.toNat_inj]

instance : Ord SocketAddr :=
  ⟨compareOn key⟩

instance : Std.TransOrd SocketAddr :=
  inferInstanceAs (Std.TransCmp (compareOn key))

instance : Std.LawfulEqOrd SocketAddr where
  eq_of_compare hCompare :=
    key_injective (Std.LawfulEqOrd.eq_of_compare hCompare)

end SocketAddr

------------------------------------------------------------
-- Readers
------------------------------------------------------------

namespace Net

/- A reader of a prefix of a text. -/
abbrev Reader (α : Type) :=
  Text → Option (α × Text)

/- Read one given character. -/
def readGivenChar
    (c : Char) : Reader Unit
| [] => none
| d :: rest => if d = c then some ((), rest) else none

/- `char::to_digit` for radix 10 or 16. -/
def toDigit
    (radix : Nat)
    (c : Char) : Option Nat :=
  let value :=
    if '0' ≤ c ∧ c ≤ '9' then
      some (c.toNat - '0'.toNat)
    else if 'a' ≤ c ∧ c ≤ 'f' then
      some (c.toNat - 'a'.toNat + 10)
    else if 'A' ≤ c ∧ c ≤ 'F' then
      some (c.toNat - 'A'.toNat + 10)
    else
      none
  value.filter (· < radix)

/- The longest run of digits, and what follows it. -/
def spanDigits
    (radix : Nat) : Text → List Nat × Text
| [] => ([], [])
| c :: rest =>
    match toDigit radix c with
    | none => ([], c :: rest)
    | some d =>
        let (digits, tail) := spanDigits radix rest
        (d :: digits, tail)

/-
  `Parser::read_number`: a digit run of at most `maxDigits`
  digits whose value lies below `bound`.
-/
def readNumber
    (radix : Nat)
    (maxDigits : Option Nat)
    (allowZeroPrefix : Bool)
    (bound : Nat) : Reader Nat :=
  fun t =>
    let (digits, rest) := spanDigits radix t
    let value := digits.foldl (fun n d => n * radix + d) 0
    if digits = [] then
      none
    else if maxDigits.any (· < digits.length) then
      none
    else if !allowZeroPrefix && t.head? == some '0' &&
        digits.length > 1 then
      none
    else if value < bound then
      some (value, rest)
    else
      none

/- A separator before every element but the first. -/
def readSeparator
    {α : Type}
    (sep : Char)
    (index : Nat)
    (inner : Reader α) : Reader α :=
  fun t =>
    if index = 0 then
      inner t
    else
      (readGivenChar sep t).bind fun (_, rest) => inner rest

/- `Parser::read_ipv4_addr`: four decimal octets. -/
def readIpv4Addr : Reader (BitVec 32) :=
  fun t => do
    let octet := readNumber 10 (some 3) false 256
    let (a, t) ← readSeparator '.' 0 octet t
    let (b, t) ← readSeparator '.' 1 octet t
    let (c, t) ← readSeparator '.' 2 octet t
    let (d, t) ← readSeparator '.' 3 octet t
    some
      (BitVec.ofNat 32 (((a * 256 + b) * 256 + c) * 256 + d),
        t)

/-
  The local `read_groups` of `Parser::read_ipv6_addr`. The
  fuel is the number of groups left; the flag tells whether
  the run ended in an embedded IPv4 address.
-/
def readGroups
    (index : Nat) :
    Nat → Text → List Nat × Bool × Text
| 0, t => ([], false, t)
| left + 1, t =>
    let ipv4 :=
      if 0 < left then
        readSeparator ':' index readIpv4Addr t
      else
        none
    match ipv4 with
    | some (addr, rest) =>
        ([addr.toNat / 65536, addr.toNat % 65536], true, rest)
    | none =>
        match readSeparator ':' index
            (readNumber 16 (some 4) true 65536) t with
        | none => ([], false, t)
        | some (group, rest) =>
            let (groups, embedded, tail) :=
              readGroups (index + 1) left rest
            (group :: groups, embedded, tail)

/- The address with the given eight groups. -/
def ofGroups
    (groups : List Nat) : BitVec 128 :=
  BitVec.ofNat 128
    (groups.foldl (fun n group => n * 65536 + group) 0)

/- `Parser::read_ipv6_addr`. -/
def readIpv6Addr : Reader (BitVec 128) :=
  fun t => do
    let (head, embedded, t) := readGroups 0 8 t
    if head.length = 8 then
      return (ofGroups head, t)
    -- An IPv4 part is not allowed before `::`.
    if embedded then
      none
    let (_, t) ← readGivenChar ':' t
    let (_, t) ← readGivenChar ':' t
    let (tail, _, t) := readGroups 0 (7 - head.length) t
    let zeros :=
      List.replicate (8 - head.length - tail.length) 0
    return (ofGroups (head ++ zeros ++ tail), t)

/- `Parser::read_ip_addr`. -/
def readIpAddr : Reader IpAddr :=
  fun t =>
    match readIpv4Addr t with
    | some (addr, rest) => some (.v4 addr, rest)
    | none =>
        (readIpv6Addr t).map fun (addr, rest) =>
          (.v6 addr, rest)

/- `Parser::read_port`. -/
def readPort : Reader UInt16 :=
  fun t => do
    let (_, t) ← readGivenChar ':' t
    let (port, t) ← readNumber 10 none true 65536 t
    return (UInt16.ofNat port, t)

/- `Parser::read_scope_id`. -/
def readScopeId : Reader UInt32 :=
  fun t => do
    let (_, t) ← readGivenChar '%' t
    let (scope, t) ← readNumber 10 none true (2 ^ 32) t
    return (UInt32.ofNat scope, t)

/- `Parser::read_socket_addr_v4`. -/
def readSocketAddrV4 : Reader SocketAddr :=
  fun t => do
    let (ip, t) ← readIpv4Addr t
    let (port, t) ← readPort t
    return (.v4 ip port, t)

/- `Parser::read_socket_addr_v6`. -/
def readSocketAddrV6 : Reader SocketAddr :=
  fun t => do
    let (_, t) ← readGivenChar '[' t
    let (ip, t) ← readIpv6Addr t
    let (scope, t) := (readScopeId t).getD (0, t)
    let (_, t) ← readGivenChar ']' t
    let (port, t) ← readPort t
    return (.v6 ip port 0 scope, t)

/- `Parser::read_socket_addr`. -/
def readSocketAddr : Reader SocketAddr :=
  fun t =>
    match readSocketAddrV4 t with
    | some result => some result
    | none => readSocketAddrV6 t

/- `Parser::parse_with`: the reader takes the whole text. -/
def parseWith
    {α : Type}
    (reader : Reader α)
    (t : Text) : Option α :=
  match reader t with
  | some (value, []) => some value
  | _ => none

end Net

------------------------------------------------------------
-- Parsing
------------------------------------------------------------

/- `str::parse::<IpAddr>`. -/
def IpAddr.parse
    (t : Text) : Option IpAddr :=
  Net.parseWith Net.readIpAddr t

/- `str::parse::<SocketAddr>`. -/
def SocketAddr.parse
    (t : Text) : Option SocketAddr :=
  Net.parseWith Net.readSocketAddr t

example :
    SocketAddr.parse "[::1]:2223".toList =
      some (.v6 1 2223 0 0) := by
  decide
