/-!
# Text — numerals and addresses

Texts that Python reads as numbers and as IP addresses.

* `isDigit`, `int?`: `str.isdigit`, and `int` of a text of digits.
* `isIPv4`, `isIPv6`, `isAddress`: `ipaddress.ip_address` accepts the text.
-/

namespace Orchestrator.Addresses

/-! ### Numerals -/

/-- The zeros of the decimal digits of Unicode; the other nine follow each. -/
def zeros : List Nat :=
  [0x30, 0x660, 0x6f0, 0x7c0, 0x966, 0x9e6, 0xa66, 0xae6, 0xb66, 0xbe6, 0xc66, 0xce6, 0xd66, 0xde6,
    0xe50, 0xed0, 0xf20, 0x1040, 0x1090, 0x17e0, 0x1810, 0x1946, 0x19d0, 0x1a80, 0x1a90, 0x1b50,
    0x1bb0, 0x1c40, 0x1c50, 0xa620, 0xa8d0, 0xa900, 0xa9d0, 0xa9f0, 0xaa50, 0xabf0, 0xff10, 0x104a0,
    0x10d30, 0x11066, 0x110f0, 0x11136, 0x111d0, 0x112f0, 0x11450, 0x114d0, 0x11650, 0x116c0,
    0x11730, 0x118e0, 0x11950, 0x11c50, 0x11d50, 0x11da0, 0x11f50, 0x16a60, 0x16ac0, 0x16b50,
    0x1d7ce, 0x1d7d8, 0x1d7e2, 0x1d7ec, 0x1d7f6, 0x1e140, 0x1e2f0, 0x1e4f0, 0x1e950, 0x1fbf0]

/-- The ranges of the other characters that are digits: superscripts, circled digits and such. -/
def otherDigits : List (Nat × Nat) :=
  [(0xb2, 0xb3), (0xb9, 0xb9), (0x1369, 0x1371), (0x19da, 0x19da), (0x2070, 0x2070),
    (0x2074, 0x2079), (0x2080, 0x2089), (0x2460, 0x2468), (0x2474, 0x247c), (0x2488, 0x2490),
    (0x24ea, 0x24ea), (0x24f5, 0x24fd), (0x24ff, 0x24ff), (0x2776, 0x277e), (0x2780, 0x2788),
    (0x278a, 0x2792), (0x10a40, 0x10a43), (0x10e60, 0x10e68), (0x11052, 0x1105a),
    (0x1f100, 0x1f10a)]

/-- The value of a decimal digit. -/
def decimalDigit (c : Char) : Option Nat :=
  (zeros.find? fun z => z ≤ c.toNat && c.toNat < z + 10).map (c.toNat - ·)

def isDigitChar (c : Char) : Bool :=
  (decimalDigit c).isSome || otherDigits.any fun r => r.1 ≤ c.toNat && c.toNat ≤ r.2

/-- `text.isdigit()`. -/
def isDigit (text : List Char) : Bool := text ≠ [] && text.all isDigitChar

/-- The number of digits `int` reads at most. -/
def maxDigits : Nat := 4300

/-- `int(text)`, of a text of digits; nothing where it raises. -/
def int? (text : List Char) : Option Nat :=
  if maxDigits < text.length then none
  else (text.mapM decimalDigit).map fun digits => digits.foldl (fun n d => n * 10 + d) 0

/-! ### Addresses -/

def isOctet (octet : List Char) : Bool :=
  octet ≠ [] && octet.all Char.isDigit && octet.length ≤ 3 &&
    !(octet.length ≠ 1 && octet.head? == some '0') && (int? octet).any (· ≤ 255)

def isIPv4 (text : List Char) : Bool :=
  let octets := text.splitOn '.'
  octets.length == 4 && octets.all isOctet

def isHexDigit (c : Char) : Bool :=
  c.isDigit || ('a' ≤ c && c ≤ 'f') || ('A' ≤ c && c ≤ 'F')

def isHextet (part : List Char) : Bool :=
  part ≠ [] && part.all isHexDigit && part.length ≤ 4

/-- The parts between the colons; an IPv4 address at the end stands for two. -/
def hextets (text : List Char) : Option (List (List Char)) :=
  let parts := text.splitOn ':'
  if parts.length < 3 then none
  else match parts.getLast? with
    | some last =>
        if last.contains '.' then
          if isIPv4 last then some (parts.dropLast ++ [['0'], ['0']]) else none
        else some parts
    | none => none

/-- The parts, where those at `skip` are left out: `::`. -/
def isCompressed (parts : List (List Char)) (skip : Nat) : Bool :=
  let high := parts.take skip
  let low := parts.drop (skip + 1)
  let high := if parts.head? == some [] then high.drop 1 else high
  let low := if parts.getLast? == some [] then low.dropLast else low
  -- An empty part at either end belongs to `::`, or to nothing.
  (parts.head? ≠ some [] || high.isEmpty) && (parts.getLast? ≠ some [] || low.isEmpty) &&
    high.length + low.length < 8 && high.all isHextet && low.all isHextet

/-- The positions of the empty parts, but for the first and the last one. -/
def skips (parts : List (List Char)) : List Nat :=
  (List.range parts.length).filter fun i =>
    1 ≤ i && i + 1 < parts.length && parts[i]? == some []

/-- An IPv6 address, but for its scope. -/
def isPlainIPv6 (text : List Char) : Bool :=
  match hextets text with
  | none => false
  | some parts =>
      if 9 < parts.length then false
      else match skips parts with
        | [] => parts.length == 8 && parts.all isHextet
        | [skip] => isCompressed parts skip
        | _ => false

def isIPv6 (text : List Char) : Bool :=
  !text.contains '/' &&
    match text.splitOn '%' with
    | [address] => isPlainIPv6 address
    | [address, scope] => scope ≠ [] && isPlainIPv6 address
    | _ => false

/-- `ipaddress.ip_address(text)` does not raise. -/
def isAddress (text : List Char) : Bool := isIPv4 text || isIPv6 text

example : isAddress "2001:db8::1".toList = true ∧ isAddress "::ffff:10.0.0.1".toList = true ∧
    isAddress "1::2::3".toList = false ∧ isAddress "010.0.0.1".toList = false := by
  decide

end Orchestrator.Addresses
