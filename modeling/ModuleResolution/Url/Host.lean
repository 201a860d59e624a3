import ModuleResolution.Text.Basic

/-!
# Hosts

A host in square brackets is an IPv6 address or a literal of a future version.  An authority with
brackets that hold anything else, or with only one kind of bracket, is malformed.  So is one with a
character whose compatibility form has a delimiter of URLs in it.
-/

namespace ModuleResolution

namespace Url

/-- Why a text cannot be cut into the parts of a URL. -/
inductive SyntaxError where
  | malformedHost
  | hiddenDelimiter
  deriving DecidableEq, Repr

namespace Host

def isHex (c : Char) : Bool :=
  c.isDigit || (decide ('a' <= c) && decide (c <= 'f')) || (decide ('A' <= c) && decide (c <= 'F'))

def isGroup (group : Text) : Bool :=
  !group.isEmpty && decide (group.length <= 4) && group.all isHex

def isOctet (octet : Text) : Bool :=
  !octet.isEmpty && decide (octet.length <= 3) && octet.all Char.isDigit &&
    (octet.length == 1 || octet.head? != some '0') &&
    decide (octet.foldl (fun n c => 10 * n + (c.toNat - 48)) 0 <= 255)

def isIPv4 (address : Text) : Bool :=
  let octets := Text.splitOn '.' address
  octets.length == 4 && octets.all isOctet

/-- The groups of an address; an IPv4 address at the end counts as two groups. -/
def groups? (address : Text) : Option (List Text) :=
  let groups := Text.splitOn ':' address
  match groups.getLast? with
  | some last =>
      if last.contains '.' then
        if isIPv4 last then some (groups.dropLast ++ [['0'], ['0']]) else none
      else some groups
  | none => none

def besideGap (groups : List Text) : List Text :=
  if groups = [[]] then [] else groups

/-- Eight groups, or fewer around one gap of two colons, which stands for at least one group. -/
def isIPv6Address (address : Text) : Bool :=
  match groups? address with
  | none | some [] => false
  | some (first :: rest) =>
      match rest.dropWhile fun group => !group.isEmpty with
      | [] => (first :: rest).length == 8 && (first :: rest).all isGroup
      | [_] => false
      | _ :: after =>
          let high := besideGap (first :: rest.takeWhile fun group => !group.isEmpty)
          let low := besideGap after
          high.all isGroup && low.all isGroup && decide (high.length + low.length < 8)

def isIPv6 (host : Text) : Bool :=
  match Text.cut '%' host with
  | (address, none) => isIPv6Address address
  | (address, some zone) => !zone.isEmpty && !zone.contains '%' && isIPv6Address address

def isFuture : Text -> Bool
  | 'v' :: rest =>
      let version := rest.takeWhile isHex
      match rest.dropWhile isHex with
      | '.' :: _ :: _ => !version.isEmpty
      | _ => false
  | _ => false

def isLiteral (host : Text) : Bool :=
  if host.head? == some 'v' then isFuture host else isIPv6 host

def hostAndPort (authority : Text) : Text :=
  Text.takeEndWhile (· != '@') authority

/-- Is the host of an authority what may stand between brackets?  Nothing may precede the opening
bracket, and only a port may follow the closing one. -/
def isBracketed (authority : Text) : Bool :=
  let host := hostAndPort authority
  match Text.cut '[' host with
  | (before, some rest) =>
      let (literal, port) := Text.cut ']' rest
      let port := port.getD []
      before.isEmpty && (port.isEmpty || port.head? == some ':') && isLiteral literal
  | (_, none) => isLiteral (Text.cut ':' host).1

def bracketsOk (authority : Text) : Bool :=
  match authority.contains '[', authority.contains ']' with
  | false, false => true
  | true, true => isBracketed authority
  | _, _ => false

/-- The characters outside ASCII whose compatibility form has a slash, a question mark, a number
sign, an at sign or a colon in it. -/
def disguises : List Char :=
  [0x2047, 0x2048, 0x2049, 0x2100, 0x2101, 0x2105, 0x2106, 0x2a74, 0xfe13, 0xfe16, 0xfe55, 0xfe56,
    0xfe5f, 0xfe6b, 0xff03, 0xff0f, 0xff1a, 0xff1f, 0xff20].map Char.ofNat

def hidesDelimiter (authority : Text) : Bool :=
  authority.any disguises.contains

/-- What is wrong with an authority, if anything. -/
def fault? (authority : Text) : Option SyntaxError :=
  if !bracketsOk authority then some .malformedHost
  else if hidesDelimiter authority then some .hiddenDelimiter
  else none

end Host

end Url

end ModuleResolution
