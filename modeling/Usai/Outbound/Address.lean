import Mathlib.Data.List.Basic

/-! IP addresses as `std::net` reads and prints them, and which of them
`resource/http_client.rs` takes for the host's own network. -/

namespace Usai.Outbound

structure Ipv4Addr where
  a : UInt8
  b : UInt8
  c : UInt8
  d : UInt8
  deriving DecidableEq, Repr

structure Ipv6Addr where
  segments : List UInt16
  eight : segments.length = 8
  deriving DecidableEq

inductive IpAddr where
  | v4 (address : Ipv4Addr)
  | v6 (address : Ipv6Addr)
  deriving DecidableEq

def digit (c : Char) : Option Nat :=
  if '0' ≤ c ∧ c ≤ '9' then some (c.toNat - '0'.toNat) else none

def hexDigit (c : Char) : Option Nat :=
  if '0' ≤ c ∧ c ≤ '9' then some (c.toNat - '0'.toNat)
  else if 'a' ≤ c ∧ c ≤ 'f' then some (c.toNat - 'a'.toNat + 10)
  else if 'A' ≤ c ∧ c ≤ 'F' then some (c.toNat - 'A'.toNat + 10)
  else none

def number (radix : Nat) (digitOf : Char → Option Nat) (text : List Char) : Option Nat :=
  text.foldlM (fun value c => (digitOf c).map (fun d => value * radix + d)) 0

/-- One to three decimal digits without a leading zero, at most 255. -/
def readOctet (text : List Char) : Option UInt8 :=
  if text = [] ∨ 3 < text.length ∨ (1 < text.length ∧ text.head? = some '0') then none
  else ((number 10 digit text).filter (fun value => value ≤ 255)).map UInt8.ofNat

def readIpv4 (text : List Char) : Option Ipv4Addr :=
  match (text.splitOn '.').map readOctet with
  | [some a, some b, some c, some d] => some ⟨a, b, c, d⟩
  | _ => none

def readGroup (text : List Char) : Option UInt16 :=
  if text = [] ∨ 4 < text.length then none else (number 16 hexDigit text).map UInt16.ofNat

def Ipv4Addr.groups (address : Ipv4Addr) : List UInt16 :=
  [address.a.toUInt16 * 256 + address.b.toUInt16, address.c.toUInt16 * 256 + address.d.toUInt16]

def readTail : List (List Char) → Option (List UInt16)
  | [] => some []
  | [last] =>
    match readGroup last with
    | some group => some [group]
    | none => (readIpv4 last).map Ipv4Addr.groups
  | part :: parts => do
      let group ← readGroup part
      let groups ← readTail parts
      pure (group :: groups)

def elided : List Char → Option (List Char × List Char)
  | ':' :: ':' :: rest => some ([], rest)
  | c :: rest => (elided rest).map (fun (front, back) => (c :: front, back))
  | [] => none

def parts (text : List Char) : List (List Char) := if text = [] then [] else text.splitOn ':'

def readSegments (text : List Char) : Option (List UInt16) :=
  match elided text with
  | none => readTail (parts text)
  | some (front, back) => do
      let head ← (parts front).mapM readGroup
      let tail ← readTail (parts back)
      -- the elision stands for at least one group
      if head.length + tail.length ≤ 7 then
        pure (head ++ List.replicate (8 - (head.length + tail.length)) 0 ++ tail)
      else none

def readIpv6 (text : List Char) : Option Ipv6Addr := do
  let segments ← readSegments text
  if eight : segments.length = 8 then pure ⟨segments, eight⟩ else none

def readIp (text : List Char) : Option IpAddr :=
  ((readIpv4 text).map IpAddr.v4).or ((readIpv6 text).map IpAddr.v6)

def Ipv4Addr.text (address : Ipv4Addr) : String :=
  String.intercalate "."
    ([address.a, address.b, address.c, address.d].map (fun octet => toString octet.toNat))

def hexText (segment : UInt16) : String := String.ofList (Nat.toDigits 16 segment.toNat)

def Ipv6Addr.toIpv4Mapped (address : Ipv6Addr) : Option Ipv4Addr :=
  match address.segments with
  | [0, 0, 0, 0, 0, 0xffff, ab, cd] =>
    some ⟨(ab >>> 8).toUInt8, ab.toUInt8, (cd >>> 8).toUInt8, cd.toUInt8⟩
  | _ => none

def zeroRun (segments : List UInt16) : Nat × Nat :=
  let runs := (List.range segments.length).map (fun start =>
    (start, ((segments.drop start).takeWhile (fun segment => segment == 0)).length))
  runs.foldl (fun best run => if best.2 < run.2 then run else best) (0, 0)

def Ipv6Addr.text (address : Ipv6Addr) : String :=
  match address.toIpv4Mapped with
  | some mapped => "::ffff:" ++ mapped.text
  | none =>
    let joined := fun segments => String.intercalate ":" (List.map hexText segments)
    let (start, length) := zeroRun address.segments
    if 1 < length then
      joined (address.segments.take start) ++ "::" ++ joined (address.segments.drop (start + length))
    else joined address.segments

def IpAddr.text : IpAddr → String
  | .v4 address => address.text
  | .v6 address => address.text

def Ipv4Addr.isInternal (address : Ipv4Addr) : Bool :=
  let ⟨a, b, c, d⟩ := address
  a == 127
    || (a == 10 || (a == 172 && 16 ≤ b && b ≤ 31) || (a == 192 && b == 168))
    || (a == 169 && b == 254)
    || (a == 0 && b == 0 && c == 0 && d == 0)
    || (a == 255 && b == 255 && c == 255 && d == 255)
    || (a == 100 && (64 ≤ b && b < 128))
    || a == 0

def IpAddr.isInternal : IpAddr → Bool
  | .v4 address => address.isInternal
  | .v6 address =>
    match address.toIpv4Mapped with
    | some mapped => mapped.isInternal
    | none =>
      address.segments == [0, 0, 0, 0, 0, 0, 0, 1]
        || address.segments == [0, 0, 0, 0, 0, 0, 0, 0]
        || (address.segments.headD 0 &&& 0xfe00) == 0xfc00
        || (address.segments.headD 0 &&& 0xffc0) == 0xfe80

end Usai.Outbound
