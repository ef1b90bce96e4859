import LoraBridge.Address.Ipv6

/-! The scheme, host and port of a URL by the WHATWG rules. Most schemes have
opaque hosts, which are kept as they are written; the special schemes of the web
have host names and IPv4 addresses. -/
namespace LoraBridge.Address

structure Url where
  scheme : List Char
  host : List Char
  port : Option Nat
deriving DecidableEq

namespace Url

def isTrimmed (c : Char) : Bool :=
  c.toNat ≤ 32

/-- Drop control characters and spaces at both ends, tabs and line ends anywhere. -/
def clean (cs : List Char) : List Char :=
  (((cs.dropWhile isTrimmed).reverse.dropWhile isTrimmed).reverse).filter fun c =>
    c != '\t' && c != '\n' && c != '\r'

def isSchemeChar (c : Char) : Bool :=
  c.isAlphanum || c == '+' || c == '-' || c == '.'

def scheme? (cs : List Char) : Option (List Char × List Char) :=
  match cs with
  | c :: _ =>
    if c.isAlpha then
      match cs.dropWhile isSchemeChar with
      | ':' :: rest => some ((cs.takeWhile isSchemeChar).map Char.toLower, rest)
      | _ => none
    else none
  | [] => none

def webSchemes : List (List Char) :=
  ["http", "https", "ws", "wss", "ftp"].map String.toList

def endsServer (special : Bool) (c : Char) : Bool :=
  c == '/' || c == '?' || c == '#' || (special && c == '\\')

/-- Drop the user part of the server: everything up to its last at sign. The flag
tells whether a user name or a password is there. -/
def dropUser? (special : Bool) (cs : List Char) : Option (Bool × List Char) :=
  let server := cs.takeWhile fun c => !endsServer special c
  let rest := cs.drop server.length
  let host := (server.reverse.takeWhile (· != '@')).reverse
  if host.length = server.length then some (false, cs)
  else
    let user := server.take (server.length - host.length - 1)
    if user.isEmpty && host.isEmpty && !rest.isEmpty then none
    else some (!user.isEmpty && user != [':'], host ++ rest)

/-- The host and the text behind it; a colon inside brackets does not end it. -/
def splitHost (special : Bool) : Bool → List Char → List Char × List Char
  | _, [] => ([], [])
  | inside, c :: r =>
    if (c == ':' && !inside) || endsServer special c then ([], c :: r)
    else
      let inside := if c = '[' then true else if c = ']' then false else inside
      let (host, rest) := splitHost special inside r
      (c :: host, rest)

def isForbiddenInHost (c : Char) : Bool :=
  [0, 9, 10, 13].contains c.toNat || " #/:<>?@[\\]^|".toList.contains c

def hexDigit (n : Nat) : Char :=
  if n < 10 then Char.ofNat (48 + n) else Char.ofNat (55 + n)

def percentEncode (c : Char) : List Char :=
  if c.toNat < 32 || 127 ≤ c.toNat then
    (String.utf8EncodeChar c).flatMap fun b =>
      ['%', hexDigit (b.toNat / 16), hexDigit (b.toNat % 16)]
  else [c]

def bracketed? (cs : List Char) : Option (List Char) :=
  match cs.reverse with
  | ']' :: inner => (Ipv6.parse? (inner.reverse.drop 1)).map fun ns => '[' :: Ipv6.chars ns ++ [']']
  | _ => none

def opaqueHost? (cs : List Char) : Option (List Char) :=
  if cs.head? = some '[' then bracketed? cs
  else if cs.any isForbiddenInHost then none
  else some (cs.flatMap percentEncode)

def percentDecode : List Char → List Char
  | '%' :: a :: b :: r =>
    if Ipv6.isHex a && Ipv6.isHex b then
      Char.ofNat (Ipv6.hexNumber [a, b]) :: percentDecode r
    else '%' :: percentDecode (a :: b :: r)
  | c :: r => c :: percentDecode r
  | [] => []

def isForbiddenInName (c : Char) : Bool :=
  c.toNat ≤ 32 || c.toNat = 127 || "%#/:<>?@[\\]^`\x7b|\x7d".toList.contains c

def labels : List Char → List (List Char)
  | [] => [[]]
  | c :: r =>
    if c = '.' then [] :: labels r
    else
      match labels r with
      | l :: ls => (c :: l) :: ls
      | [] => [[c]]

/-- The digits of a number with a base, in a label of an IPv4 address: hexadecimal
behind `0x`, octal behind another zero. -/
def numberLabel? (cs : List Char) : Option Nat :=
  let value (base : Nat) (ds : List Char) : Option Nat :=
    if ds.all fun c => isDigitOf base c then
      some (ds.foldl (fun n c => base * n + (Ipv6.hexValue? c).getD 0) 0)
    else none
  match cs with
  | [] => none
  | '0' :: 'x' :: ds | '0' :: 'X' :: ds => value 16 ds
  | '0' :: d :: ds => value 8 (d :: ds)
  | ds => value 10 ds
where
  isDigitOf (base : Nat) (c : Char) : Bool :=
    match Ipv6.hexValue? c with
    | some n => n < base
    | none => false

def dropEmptyEnd (ls : List (List Char)) : List (List Char) :=
  match ls.reverse with
  | [] :: rest => rest.reverse
  | _ => ls

def endsInNumber (ls : List (List Char)) : Bool :=
  match (dropEmptyEnd ls).getLast? with
  | some l => (!l.isEmpty && l.all Char.isDigit) || (numberLabel? l).isSome
  | none => false

/-- The numbers of an IPv4 address: all but the last are bytes, and the last fills
the remaining bytes. -/
def ipv4? (ls : List (List Char)) : Option Nat := do
  let ns ← (dropEmptyEnd ls).mapM numberLabel?
  let last ← ns.getLast?
  let front := ns.dropLast
  if ns.length ≤ 4 && front.all (· < 256) && last < Nat.pow 256 (4 - front.length) then
    some (front.foldr (fun n acc => n + 256 * acc) 0 + last)
  else none

/-- A host of a special scheme; a name is lowered, and one that ends in a number
has to be an address. -/
def nameHost? (cs : List Char) : Option (List Char) :=
  if cs.head? = some '[' then bracketed? cs
  else
    let name := (percentDecode cs).map Char.toLower
    if name.isEmpty || name.any isForbiddenInName then none
    else if endsInNumber (labels name) then (ipv4? (labels name)).map fun _ => name
    else some name

def port? (cs : List Char) : Option (Option Nat) :=
  match cs with
  | ':' :: r =>
    let ds := r.takeWhile Char.isDigit
    let n := ds.foldl (fun n c => 10 * n + (c.toNat - 48)) 0
    let ends := match r.drop ds.length with
      | [] => true
      | c :: _ => endsServer true c
    if ends && n < 65536 then some (if ds.isEmpty then none else some n) else none
  | _ => some none

def server? (special : Bool) (scheme cs : List Char) : Option Url := do
  let (hasUser, cs) ← dropUser? special cs
  let (written, rest) := splitHost special false cs
  let host ← if special then nameHost? written else opaqueHost? written
  if host.isEmpty && (hasUser || rest.head? = some ':') then none
  else
    let port ← port? rest
    some ⟨scheme, host, port⟩

/-- Whether a drive letter stands where a file URL has its host. -/
def isDrive : List Char → Bool
  | [a, b] => a.isAlpha && (b == ':' || b == '|')
  | _ => false

def file? (scheme cs : List Char) : Option Url :=
  let slash (c : Char) : Bool := c == '/' || c == '\\'
  match cs with
  | a :: b :: r =>
    if slash a && slash b then
      let written := r.takeWhile fun c => !endsServer true c
      if written.isEmpty || isDrive written then some ⟨scheme, [], none⟩
      else (nameHost? written).map fun host => ⟨scheme, host, none⟩
    else some ⟨scheme, [], none⟩
  | _ => some ⟨scheme, [], none⟩

/-- The address in a URL; a URL without a server has no host. -/
def parse? (text : List Char) : Option Url := do
  let (scheme, rest) ← scheme? (clean text)
  if scheme = "file".toList then file? scheme rest
  else if webSchemes.contains scheme then
    server? true scheme (rest.dropWhile fun c => c == '/' || c == '\\')
  else
    match rest with
    | '/' :: '/' :: rest => server? false scheme rest
    | _ => some ⟨scheme, [], none⟩

end Url

end LoraBridge.Address
