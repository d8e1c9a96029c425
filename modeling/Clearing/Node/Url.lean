import Clearing.Text.Blank
import Clearing.Text.Percent
import Clearing.Text.Visible

/-!
# Checking the address of a server

The node is reached under a URL. Before it is used its form is checked by the
rules browsers follow: a scheme, then for the web schemes a host, which is a
name, four numbers or an address in brackets, and an optional port.
-/

namespace Clearing

inductive UrlFault
  | noScheme
  | emptyHost
  | badName
  | badCharacter
  | badPort
  | badIpv4
  | badIpv6
deriving DecidableEq, Repr

def UrlFault.message : UrlFault → String
  | .noScheme => "relative URL without a base"
  | .emptyHost => "empty host"
  | .badName => "invalid international domain name"
  | .badCharacter => "invalid domain character"
  | .badPort => "invalid port number"
  | .badIpv4 => "invalid IPv4 address"
  | .badIpv6 => "invalid IPv6 address"

namespace Url

/-- How the text behind a scheme is read. -/
inductive Kind
  | web
  | file
  | other
deriving DecidableEq, Repr

def kindOf (scheme : List Char) : Kind :=
  let s := String.ofList (scheme.map Char.toLower)
  if s = "http" ∨ s = "https" ∨ s = "ws" ∨ s = "wss" ∨ s = "ftp" then .web
  else if s = "file" then .file
  else .other

/-- The text without control characters and spaces at its ends, and without
tabs and line ends anywhere. -/
def clean (cs : List Char) : List Char :=
  let outer := fun c : Char => c.toNat ≤ 0x20
  (Text.dropEndWhile outer (cs.dropWhile outer)).filter fun c =>
    !(c == '\t' || c == '\n' || c == '\r')

def scheme? (cs : List Char) : Option (List Char × List Char) :=
  let inside := fun c : Char => c.isAlphanum || c == '+' || c == '-' || c == '.'
  let scheme := cs.takeWhile inside
  match cs.head?, cs.dropWhile inside with
  | some c, ':' :: rest => if c.isAlpha then some (scheme, rest) else none
  | _, _ => none

def endsHost (kind : Kind) (c : Char) : Bool :=
  c == '/' || c == '?' || c == '#' || (c == '\\' && kind != .other)

/-- The host, up to a colon outside brackets or the end of the authority, and
the text behind it. -/
def splitHost : Bool → List Char → List Char × List Char
  | _, [] => ([], [])
  | inside, c :: cs =>
    if c == ':' && !inside then ([], c :: cs)
    else
      let inside := if c == '[' then true else if c == ']' then false else inside
      let r := splitHost inside cs
      (c :: r.1, r.2)

def forbiddenInHost (c : Char) : Bool :=
  c.toNat = 0 || "\t\n\r #/:<>?@[\\]^|".toList.contains c

def forbiddenInName (c : Char) : Bool :=
  forbiddenInHost c || c.toNat < 0x20 || c == '%' || c.toNat = 0x7F

/-- A number of an address in dotted form: octal after a zero, hexadecimal
after `0x`. -/
def ipv4Number? (cs : List Char) : Option Nat :=
  match cs with
  | [] => none
  | '0' :: 'x' :: ds => read 16 ds
  | '0' :: 'X' :: ds => read 16 ds
  | '0' :: d :: ds => read 8 (d :: ds)
  | ds => read 10 ds
where
  read (base : Nat) (ds : List Char) : Option Nat :=
    ds.foldlM (fun n c => do
      let v ← Text.Hex.value? c
      if v < base then some (n * base + v) else none) 0

/-- The labels of a name, without an empty one at the end. -/
def labels (cs : List Char) : List (List Char) :=
  let parts := cs.splitOn '.'
  if parts.getLast? = some [] ∧ 1 < parts.length then parts.dropLast else parts

/-- A name whose last label is a number is read as four numbers. -/
def endsInNumber (cs : List Char) : Bool :=
  match (labels cs).getLast? with
  | none => false
  | some l => (!l.isEmpty && l.all Char.isDigit) || (ipv4Number? l).isSome

def ipv4Fits (cs : List Char) : Bool :=
  let parts := labels cs
  if 4 < parts.length then false
  else
    match parts.mapM ipv4Number? with
    | none => false
    | some ns =>
      ns.dropLast.all (· ≤ 255) && (ns.getLast?.getD 0) < Nat.pow 256 (5 - ns.length)

/-- Four decimal numbers up to 255, at the end of an address in brackets. -/
def dottedQuad (cs : List Char) : Bool :=
  let parts := cs.splitOn '.'
  parts.length == 4 && parts.all fun p =>
    !p.isEmpty && p.all Char.isDigit && p.length ≤ 3 && !(1 < p.length && p.head? = some '0') &&
      (ipv4Number?.read 10 p).getD 256 ≤ 255

/-- The number of groups of an address part, if they are well formed; the
last group may be dotted and then counts twice. -/
def groups? (cs : List Char) : Option Nat :=
  if cs.isEmpty then some 0
  else
    let parts := cs.splitOn ':'
    let hex := fun p : List Char =>
      !p.isEmpty && p.length ≤ 4 && p.all fun c => (Text.Hex.value? c).isSome
    if parts.all hex then some parts.length
    else if parts.dropLast.all hex && dottedQuad (parts.getLast?.getD []) then
      some (parts.length + 1)
    else none

def cutDouble? : List Char → Option (List Char × List Char)
  | ':' :: ':' :: rest => some ([], rest)
  | c :: rest => (cutDouble? rest).map fun r => (c :: r.1, r.2)
  | [] => none

/-- Eight groups, or fewer around one double colon. -/
def ipv6Fits (cs : List Char) : Bool :=
  match cutDouble? cs with
  | none => groups? cs = some 8
  | some (left, right) =>
    match groups? left, groups? right with
    | some a, some b => !left.contains '.' && a + b ≤ 7
    | _, _ => false

def checkBrackets (cs : List Char) : Except UrlFault Unit :=
  if cs.getLast? = some ']' ∧ ipv6Fits (cs.drop 1).dropLast then .ok () else .error .badIpv6

def checkHost (cs : List Char) : Except UrlFault Unit :=
  if cs.isEmpty then .error .emptyHost
  else if cs.head? = some '[' then checkBrackets cs
  else
    let bytes := Text.percentDecode (String.ofList cs).toUTF8.toList
    match String.fromUTF8? bytes.toByteArray with
    | none => .error .badName
    | some name =>
      let name := name.toList
      if name.any fun c => forbiddenInName c || (0x7F < c.toNat && Text.isHidden c) then
        .error .badName
      else if endsInNumber name then
        if ipv4Fits name then .ok () else .error .badIpv4
      else .ok ()

def checkOpaque (cs : List Char) : Except UrlFault Unit :=
  if cs.head? = some '[' then checkBrackets cs
  else if cs.any forbiddenInHost then .error .badCharacter
  else .ok ()

/-- The port behind its colon, up to 65535; it may be empty. -/
def checkPort (cs : List Char) : Except UrlFault Unit :=
  if cs.all Char.isDigit && cs.foldl (fun n c => 10 * n + (c.toNat - 48)) 0 ≤ 65535 then .ok ()
  else .error .badPort

def checkAuthority (kind : Kind) (cs : List Char) : Except UrlFault Unit :=
  let authority := cs.takeWhile fun c => !endsHost kind c
  let user := authority.reverse.dropWhile (· != '@')
  let hostPort := (authority.reverse.takeWhile (· != '@')).reverse
  if user.length = 1 ∧ hostPort.isEmpty ∧ authority.length < cs.length then .error .emptyHost
  else
    let (host, rest) := splitHost false hostPort
    let checked := if kind = .web then checkHost host else checkOpaque host
    match checked with
    | .error fault => .error fault
    | .ok () =>
      match rest with
      | [] => .ok ()
      | _ :: port => if host.isEmpty then .error .emptyHost else checkPort port

def check (s : String) : Except UrlFault Unit :=
  match scheme? (clean s.toList) with
  | none => .error .noScheme
  | some (scheme, rest) =>
    match kindOf scheme with
    | .web => checkAuthority .web (rest.dropWhile fun c => c == '/' || c == '\\')
    | .file =>
      let slashes := rest.takeWhile fun c => c == '/' || c == '\\'
      if slashes.length ≠ 2 then .ok ()
      else
        let host := (rest.drop 2).takeWhile fun c => !endsHost .file c
        if host.isEmpty then .ok () else checkHost host
    | .other =>
      match rest with
      | '/' :: '/' :: rest => checkAuthority .other rest
      | _ => .ok ()

end Url
end Clearing
