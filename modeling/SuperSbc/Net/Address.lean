import SuperSbc.Text.Reading

/-!
Network addresses the way Go's `net` package reads and compares them. An IPv4
address written inside IPv6 is the IPv4 address it stands for, as it is for
every comparison of that package.
-/

namespace SuperSbc.Net

open Text

inductive IP where
  | v4 (value : BitVec 32)
  | v6 (value : BitVec 128)
deriving DecidableEq

/-- One field of a dotted address. A leading zero is an error. -/
def readOctet (s : List Char) : Option ℕ :=
  if s = [] ∨ (s.head? = some '0' ∧ s ≠ ['0']) then none
  else (digitsValue 10 s).filter (· ≤ 255)

def readIPv4 (s : List Char) : Option ℕ :=
  match s.splitOn '.' with
  | [a, b, c, d] => do
      let a ← readOctet a
      let b ← readOctet b
      let c ← readOctet c
      let d ← readOctet d
      return ((a * 256 + b) * 256 + c) * 256 + d
  | _ => none

/-- The groups of an IPv6 text, at most `room` more of them, and where the
ellipsis was. Four decimal fields can stand for the last two groups. -/
def readGroups : ℕ → List Char → List ℕ → Option ℕ → Option (List ℕ × Option ℕ)
  | 0, s, groups, ellipsis => if s = [] then some (groups, ellipsis) else none
  | room + 1, s, groups, ellipsis =>
    let digits := s.takeWhile (fun c => (digitValue c).isSome)
    let rest := s.drop digits.length
    if digits = [] ∨ 4 < digits.length then none
    else if rest.head? = some '.' then
      if (ellipsis = none ∧ groups.length ≠ 6) ∨ room = 0 then none
      else (readIPv4 s).map (fun v => (groups ++ [v / 65536, v % 65536], ellipsis))
    else
      match digitsValue 16 digits with
      | none => none
      | some n =>
        let groups := groups ++ [n]
        match rest with
        | [] => some (groups, ellipsis)
        | [':'] => none
        | ':' :: ':' :: more =>
          if ellipsis.isSome then none
          else if more = [] then some (groups, some groups.length)
          else readGroups room more groups (some groups.length)
        | ':' :: more => readGroups room more groups ellipsis
        | _ => none

/-- Eight groups. The ellipsis stands for at least one. -/
def expandGroups (groups : List ℕ) (ellipsis : Option ℕ) : Option (List ℕ) :=
  match ellipsis with
  | none => if groups.length = 8 then some groups else none
  | some k =>
    if groups.length < 8 then
      some (groups.take k ++ List.replicate (8 - groups.length) 0 ++ groups.drop k)
    else none

def readIPv6 (s : List Char) : Option ℕ :=
  if '%' ∈ s then none
  else
    let read :=
      match s with
      | [':', ':'] => some ([], some 0)
      | ':' :: ':' :: rest => readGroups 8 rest [] (some 0)
      | _ => readGroups 8 s [] none
    read.bind (fun (groups, ellipsis) =>
      (expandGroups groups ellipsis).map (·.foldl (fun n group => n * 65536 + group) 0))

/-- The address in the higher half of which nothing but the mark of IPv4
stands is one of IPv4. -/
def unmap (value : ℕ) : IP :=
  if value / 2 ^ 32 = 0xffff then .v4 (BitVec.ofNat 32 value) else .v6 (BitVec.ofNat 128 value)

/-- The value and the number of bits of an address: the first of the three
marks in the text decides how it is read. -/
def readAddr (s : List Char) : Option (ℕ × ℕ) :=
  match s.find? (fun c => c = '.' ∨ c = ':' ∨ c = '%') with
  | some '.' => (readIPv4 s).map (·, 32)
  | some ':' => (readIPv6 s).map (·, 128)
  | _ => none

def toIP (value bits : ℕ) : IP := if bits = 32 then .v4 (BitVec.ofNat 32 value) else unmap value

/-- `net.ParseIP`. -/
def parseIP (s : List Char) : Option IP := (readAddr s).map (fun (value, bits) => toIP value bits)

/-- A network by its first address and the number of leading bits it fixes. -/
inductive IPNet where
  | v4 (ip : BitVec 32) (ones : ℕ)
  | v6 (ip : BitVec 128) (ones : ℕ)
deriving DecidableEq

/-- A network of one family has no address of the other. -/
def IPNet.contains : IPNet → IP → Bool
  | .v4 net ones, .v4 ip => net >>> (32 - ones) = ip >>> (32 - ones)
  | .v6 net ones, .v6 ip => net >>> (128 - ones) = ip >>> (128 - ones)
  | _, _ => false

def IPNet.single : IP → IPNet
  | .v4 ip => .v4 ip 32
  | .v6 ip => .v6 ip 128

/-- `net.ParseCIDR`. -/
def parseCIDR (s : List Char) : Option IPNet := do
  let address := s.takeWhile (· ≠ '/')
  let mask := s.drop (address.length + 1)
  if mask = [] then none
  let (value, bits) ← readAddr address
  let ones ← (digitsValue 10 mask).filter (· ≤ bits)
  let first := value / 2 ^ (bits - ones) * 2 ^ (bits - ones)
  match toIP first bits with
  | .v4 ip => some (.v4 ip (ones - (bits - 32)))
  | .v6 ip => some (.v6 ip ones)

/-- `net.SplitHostPort`; `none` is any of its errors. -/
def splitHostPort (s : List Char) : Option (List Char × List Char) :=
  let port := (s.reverse.takeWhile (· ≠ ':')).reverse
  if ':' ∉ s then none
  else
    let front := s.take (s.length - port.length - 1)
    match front with
    | '[' :: rest =>
      let host := rest.takeWhile (· ≠ ']')
      if rest = host ++ [']'] ∧ '[' ∉ host ++ port ∧ ']' ∉ port then some (host, port) else none
    | host => if ':' ∉ host ∧ '[' ∉ s ∧ ']' ∉ s then some (host, port) else none

/-- What `IsLoopback`, `IsPrivate`, `IsUnspecified`, `IsLinkLocalUnicast` and
`IsLinkLocalMulticast` say about an address, the last by its second byte. -/
def IP.isLocal : IP → Bool
  | .v4 ip =>
    [IPNet.v4 0x7f000000 8, .v4 0x0a000000 8, .v4 0xac100000 12, .v4 0xc0a80000 16,
      .v4 0 32, .v4 0xa9fe0000 16, .v4 0xe0000000 24].any (·.contains (.v4 ip))
  | .v6 ip =>
    [IPNet.v6 1 128, .v6 (0xfc#128 <<< 120) 7, .v6 0 128, .v6 (0xfe80#128 <<< 112) 10].any
      (·.contains (.v6 ip)) ||
    (ip >>> 120 = 0xff && (ip >>> 112) &&& 0x0f = 2)

end SuperSbc.Net
