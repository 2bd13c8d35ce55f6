import PeerRelay.Net.Ip

/-!
# Reading addresses

An address is read from the front of a text and the whole text must be used
up. An IPv4 octet has no leading zero and at most three digits; an IPv6 group
has at most four digits; a port may have any number of leading zeros. The last
two groups of an IPv6 address may be written as an IPv4 address, unless they
stand in front of the two colons.
-/

namespace PeerRelay

namespace Net

/-- A number in the base, as long as its digits go; nothing where there is no digit. -/
def number? (base : Nat) (text : List Char) : Option (List Char × Nat × List Char) :=
  let isDigit := fun c => ((Text.hexValue? c).any (· < base))
  let digits := text.takeWhile isDigit
  if digits.isEmpty then none
  else
    let value := digits.foldl (fun n c => base * n + (Text.hexValue? c).getD 0) 0
    some (digits, value, text.dropWhile isDigit)

/-- Takes the character off the front. -/
def given? (c : Char) : List Char → Option (List Char)
  | [] => none
  | x :: rest => if x = c then some rest else none

/-- An octet of an IPv4 address. -/
def octet? (text : List Char) : Option (UInt8 × List Char) := do
  let (digits, value, rest) ← number? 10 text
  guard (digits.length ≤ 3 ∧ value < 256 ∧ (digits.head? = some '0' → digits.length = 1))
  return (UInt8.ofNat value, rest)

def ipv4? (text : List Char) : Option (Ipv4 × List Char) := do
  let (a, rest) ← octet? text
  let (b, rest) ← octet? (← given? '.' rest)
  let (c, rest) ← octet? (← given? '.' rest)
  let (d, rest) ← octet? (← given? '.' rest)
  return (⟨a, b, c, d⟩, rest)

/-- A group of an IPv6 address. -/
def group? (text : List Char) : Option (UInt16 × List Char) := do
  let (digits, value, rest) ← number? 16 text
  guard (digits.length ≤ 4)
  return (UInt16.ofNat value, rest)

/-- Colon-separated groups, at most `limit` of them, and whether an IPv4 address
closed them. Stops in front of what is no further group. -/
def groups (limit : Nat) (isFirst : Bool) (text : List Char) :
    List UInt16 × Bool × List Char :=
  match limit with
  | 0 => ([], false, text)
  | limit + 1 =>
    match if isFirst then some text else given? ':' text with
    | none => ([], false, text)
    | some here =>
      match if 1 ≤ limit then ipv4? here else none with
      | some (ip, rest) =>
        ([UInt16.ofNat (256 * ip.a.toNat + ip.b.toNat),
          UInt16.ofNat (256 * ip.c.toNat + ip.d.toNat)], true, rest)
      | none =>
        match group? here with
        | none => ([], false, text)
        | some (g, rest) =>
          let (gs, embedded, rest) := groups limit false rest
          (g :: gs, embedded, rest)

def ipv6? (text : List Char) : Option (Ipv6 × List Char) :=
  let (head, embedded, rest) := groups 8 true text
  if head.length = 8 then some (Ipv6.ofGroups head, rest)
  else if embedded then none
  else do
    let rest ← given? ':' (← given? ':' rest)
    let (tail, _, rest) := groups (8 - (head.length + 1)) true rest
    let gap := List.replicate (8 - head.length - tail.length) 0
    return (Ipv6.ofGroups (head ++ gap ++ tail), rest)

def port? (text : List Char) : Option (UInt16 × List Char) := do
  let (_, value, rest) ← number? 10 (← given? ':' text)
  guard (value < 65536)
  return (UInt16.ofNat value, rest)

/-- The zone of an IPv6 address, zero when none is named. -/
def zone (text : List Char) : UInt32 × List Char :=
  match (given? '%' text).bind (number? 10) with
  | some (_, value, rest) => if value < 4294967296 then (UInt32.ofNat value, rest) else (0, text)
  | none => (0, text)

def socketV4? (text : List Char) : Option (SocketAddr × List Char) := do
  let (ip, rest) ← ipv4? text
  let (port, rest) ← port? rest
  return ({ ip := .v4 ip, port }, rest)

def socketV6? (text : List Char) : Option (SocketAddr × List Char) := do
  let (ip, rest) ← ipv6? (← given? '[' text)
  let (zone, rest) := zone rest
  let (port, rest) ← port? (← given? ']' rest)
  return ({ ip := .v6 ip, port, zone }, rest)

/-- The value, if it was read up to the end of the text. -/
def whole? {α : Type} (result : Option (α × List Char)) : Option α :=
  match result with
  | some (value, []) => some value
  | _ => none

end Net

/-- Reads an address of either family. -/
def Ip.ofText? (text : String) : Option Ip :=
  Net.whole? ((Net.ipv4? text.toList).map (fun p => (.v4 p.1, p.2)) <|>
    (Net.ipv6? text.toList).map (fun p => (.v6 p.1, p.2)))

/-- Reads an address and a port. -/
def SocketAddr.ofText? (text : String) : Option SocketAddr :=
  Net.whole? (Net.socketV4? text.toList <|> Net.socketV6? text.toList)

end PeerRelay
