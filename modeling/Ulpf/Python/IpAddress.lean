import Ulpf.Python.Value

/-!
The texts that the constructors of `ipaddress` take.
-/

namespace Ulpf.Python.IpAddress

open Ulpf.Lib.Text

/-- `_parse_octet` returns. -/
def isOctet (s : List Char) : Bool :=
  !s.isEmpty && s.all isDigit && s.length ≤ 3 && (s = ['0'] || s.head? ≠ some '0') &&
    (decimal? s).getD 0 ≤ 255

/-- `IPv4Address(s)` returns. -/
def isIPv4 (s : List Char) : Bool :=
  let octets := splitOn ['.'] s
  !s.contains '/' && octets.length = 4 && octets.all isOctet

def isHex (c : Char) : Bool :=
  isDigit c || ('a' ≤ c && c ≤ 'f') || ('A' ≤ c && c ≤ 'F')

/-- `_parse_hextet` returns. -/
def isHextet (s : List Char) : Bool := !s.isEmpty && s.all isHex && s.length ≤ 4

/-- The parts between colons, with two hextets for an IPv4 address at the end. -/
def expandIPv4 (parts : List (List Char)) : Option (List (List Char)) :=
  let last := parts.getLastD []
  if last.contains '.' then
    if isIPv4 last then some (parts.dropLast ++ [['0'], ['0']]) else none
  else some parts

/-- The hextets before and after the run of zeros that an empty part stands for fill less than
an address; without such a part they fill it. -/
def fillsAddress (parts : List (List Char)) : Bool :=
  let blanks := (List.range parts.length).filter fun i =>
    0 < i && i + 1 < parts.length && (parts.getD i []).isEmpty
  match blanks with
  | [] => parts.length = 8 && parts.all isHextet
  | [skip] =>
      let above := if (parts.headD []).isEmpty then skip - 1 else skip
      let below := parts.length - skip - 1
      let below := if (parts.getLastD []).isEmpty then below - 1 else below
      !((parts.headD []).isEmpty && above ≠ 0) && !((parts.getLastD []).isEmpty && below ≠ 0) &&
        above + below < 8 && (parts.take above).all isHextet &&
        (parts.drop (parts.length - below)).all isHextet
  | _ => false

/-- `IPv6Address(s)` returns. -/
def isIPv6 (s : List Char) : Bool :=
  let (address, scope) := s.span (· ≠ '%')
  let scopeFits := match scope with
    | [] => true
    | _ :: id => !id.isEmpty && !id.contains '%'
  let parts := splitOn [':'] address
  !s.contains '/' && scopeFits && 3 ≤ parts.length &&
    match expandIPv4 parts with
    | some parts => parts.length ≤ 9 && fillsAddress parts
    | none => false

example : isIPv6 "fe80::1%eth0".toList = true ∧ isIPv6 "1::2::3".toList = false ∧
    isIPv6 "::ffff:10.0.0.1".toList = true := by
  decide +kernel

end Ulpf.Python.IpAddress
