import Ulpf.Lib.JsonText

/-!
Addresses of Go's `net` package: `ParseIP` and the text of an address.
-/

namespace Ulpf.Go.NetIP

open Ulpf.Lib
open Ulpf.Lib.Text

/-- The sixteen-bit groups of an address; an IPv4 address is the mapped one. -/
structure IP where
  groups : List ℕ
  eight : groups.length = 8
  bounded : ∀ g ∈ groups, g < 2 ^ 16

/-- One octet of a dotted address: no leading zero, at most 255. -/
def parseOctet (ds : List Char) : Option ℕ := do
  let n ← decimal? ds
  if ds.isEmpty ∨ (1 < ds.length ∧ ds.head? = some '0') ∨ 255 < n then none else return n

/-- Two groups of a dotted address. -/
def parseIPv4 (s : List Char) : Option (List ℕ) := do
  match ← (splitOn ['.'] s).mapM parseOctet with
  | [a, b, c, d] => return [256 * a + b, 256 * c + d]
  | _ => none

def ofHex (ds : List Char) : ℕ := ds.foldl (fun acc c => 16 * acc + (JsonText.hex? c).getD 0) 0

/-- The groups read so far and the position of the `::` among them. The first
argument counts the groups that still have room. -/
def parseGroups : ℕ → List ℕ → Option ℕ → List Char → Option (List ℕ × Option ℕ)
  | 0, groups, ellipsis, s => if s.isEmpty then some (groups, ellipsis) else none
  | room + 1, groups, ellipsis, s =>
      let (ds, after) := s.span fun c => (JsonText.hex? c).isSome
      let groups' := groups ++ [ofHex ds]
      if ds.isEmpty ∨ 4 < ds.length then none
      else match after with
        | [] => some (groups', ellipsis)
        | '.' :: _ =>
            -- the last two groups may be a dotted address
            if (ellipsis.isNone ∧ groups.length ≠ 6) ∨ room = 0 then none
            else (parseIPv4 s).map fun quad => (groups ++ quad, ellipsis)
        | ':' :: ':' :: rest =>
            if ellipsis.isSome then none
            else if rest.isEmpty then some (groups', some groups'.length)
            else parseGroups room groups' (some groups'.length) rest
        | ':' :: c :: rest => parseGroups room groups' ellipsis (c :: rest)
        | _ => none

/-- The groups with zeros in the place of the `::`, which stands for at least one. -/
def expand (groups : List ℕ) (ellipsis : Option ℕ) : Option (List ℕ) :=
  match ellipsis with
  | none => if groups.length = 8 then some groups else none
  | some i =>
      if groups.length < 8 then
        some (groups.take i ++ List.replicate (8 - groups.length) 0 ++ groups.drop i)
      else none

/-- The eight groups of an IPv6 address, in which `::` stands for zeros. -/
def parseIPv6 (s : List Char) : Option (List ℕ) := do
  let (ellipsis, body) := match s with
    | ':' :: ':' :: rest => (some 0, rest)
    | _ => (none, s)
  if ellipsis.isSome ∧ body.isEmpty then return List.replicate 8 0
  let (groups, ellipsis) ← parseGroups 8 [] ellipsis body
  expand groups ellipsis

/-- The groups of `net.ParseIP(s)`. A zone is refused. -/
def parseGroupsOf (s : List Char) : Option (List ℕ) :=
  match s.find? fun c => c = '.' || c = ':' || c = '%' with
  | some '.' => (parseIPv4 s).map fun quad => [0, 0, 0, 0, 0, 0xFFFF] ++ quad
  | some ':' => if s.contains '%' then none else parseIPv6 s
  | _ => none

/-- `net.ParseIP(s)` -/
def parseIP (s : String) : Option IP := do
  let groups ← parseGroupsOf s.toList
  if h : groups.length = 8 ∧ ∀ g ∈ groups, g < 2 ^ 16 then return ⟨groups, h.1, h.2⟩ else none

/-- The first of the longest runs of two zero groups or more: where it begins
and where it ends. -/
def zeroRun (groups : List ℕ) : Option (ℕ × ℕ) :=
  (List.range 8).foldl (fun best i =>
    let l := ((groups.drop i).takeWhile (· = 0)).length
    let longest := match best with
      | some (start, stop) => stop - start
      | none => 0
    if 2 ≤ l ∧ longest < l then some (i, i + l) else best) none

/-- Groups as they are written between colons. -/
def joinGroups (groups : List ℕ) : List Char :=
  [':'].intercalate (groups.map (Nat.toDigits 16))

/-- `ip.String()` -/
def IP.text (ip : IP) : List Char :=
  match ip.groups with
  | [0, 0, 0, 0, 0, 0xFFFF, hi, lo] =>
      ['.'].intercalate ([hi / 256, hi % 256, lo / 256, lo % 256].map (Nat.toDigits 10))
  | groups =>
      match zeroRun groups with
      | none => joinGroups groups
      | some (start, stop) =>
          joinGroups (groups.take start) ++ ':' :: ':' :: joinGroups (groups.drop stop)

def IP.toString (ip : IP) : String := String.ofList ip.text

end Ulpf.Go.NetIP
