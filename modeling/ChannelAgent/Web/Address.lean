import ChannelAgent.Text.Numeral

set_option autoImplicit false

namespace ChannelAgent.Web

/-- An address. Path and query are encoded. -/
structure Address where
  secure : Bool
  host : String
  port : Option Nat
  segments : List String
  query : Option String
  deriving DecidableEq, Repr

namespace Address

def isSlash (c : Char) : Bool := c = '/' || c = '\\'

def endsPath (c : Char) : Bool := c = '?' || c = '#'

/-- The address without blanks and controls at its ends, and without tabs and line ends. -/
def cleaned (text : String) : List Char :=
  let outer (c : Char) : Bool := c.toNat ≤ 0x20
  let inner := ((text.toList.dropWhile outer).reverse.dropWhile outer).reverse
  inner.filter fun c => c ≠ '\t' && c ≠ '\n' && c ≠ '\r'

/-- A byte with a percent sign and two digits. -/
def percent (b : UInt8) : List Char :=
  let digit (n : Nat) : Char := Char.ofNat (if n < 10 then 48 + n else 55 + n)
  ['%', digit (b.toNat / 16), digit (b.toNat % 16)]

/-- A text in which the characters of a set are encoded. -/
def encode (set : Char → Bool) (cs : List Char) : String :=
  String.ofList (cs.flatMap fun c => if set c then (String.utf8EncodeChar c).flatMap percent else [c])

def inQuery (c : Char) : Bool :=
  c.toNat ≤ 0x20 || 0x7E < c.toNat || c ∈ ['\x22', '#', '<', '>', '\x27']

def inPath (c : Char) : Bool :=
  c.toNat ≤ 0x20 || 0x7E < c.toNat || c ∈ ['\x22', '#', '<', '>', '?', '\x60', '\x7b', '\x7d']

def splitAtSlashes : List Char → List (List Char)
  | [] => [[]]
  | c :: cs =>
    if isSlash c then [] :: splitAtSlashes cs
    else
      match splitAtSlashes cs with
      | first :: rest => (c :: first) :: rest
      | [] => [[c]]

/-- A segment with encoded dots written out. -/
def plainDots : List Char → List Char
  | '%' :: '2' :: 'e' :: cs | '%' :: '2' :: 'E' :: cs => '.' :: plainDots cs
  | c :: cs => c :: plainDots cs
  | [] => []

/-- Resolves dot segments behind the segments that are already resolved, the latest first. -/
def resolve : (done : List String) → List (List Char) → List String
  | done, [] => done.reverse
  | done, s :: rest =>
    let dots := plainDots s
    if dots = ['.', '.'] then resolve (if rest.isEmpty then "" :: done.tail else done.tail) rest
    else if dots = ['.'] then resolve (if rest.isEmpty then "" :: done else done) rest
    else resolve (encode inPath s :: done) rest

/-- Whether a character may not stand in the name of a host. -/
def isForbidden (c : Char) : Bool :=
  c.toNat ≤ 0x20 || c.toNat = 0x7F ||
    c ∈ ['#', '/', ':', '<', '>', '?', '@', '[', '\\', ']', '^', '|', '%']

/-- The number that a part of a numeric address denotes, in the base that its start tells. -/
def hostNumber? (cs : List Char) : Option Nat :=
  let within (base : Nat) (ds : List Char) : Option Nat :=
    ds.foldl (fun n c => n.bind fun n =>
      let d :=
        if c.isDigit then c.toNat - 48
        else if 'a' ≤ c ∧ c ≤ 'f' then c.toNat - 87
        else if 'A' ≤ c ∧ c ≤ 'F' then c.toNat - 55 else 16
      if d < base then some (n * base + d) else none) (some 0)
  match cs with
  | [] => none
  | '0' :: 'x' :: ds | '0' :: 'X' :: ds => within 16 ds
  | '0' :: ds => within 8 ds
  | ds => within 10 ds

/-- Whether numbers are those of an address of four bytes: the last one fills the bytes that are not
given. -/
def isNumericHost (ns : List Nat) : Bool :=
  match ns.reverse with
  | [] => false
  | last :: rest => ns.length ≤ 4 && rest.all (· ≤ 255) && last < Nat.pow 256 (5 - ns.length)

/-- Whether a host may be asked. A host whose last part is a number is an address of four bytes. -/
def isHost (cs : List Char) : Bool :=
  match cs with
  | '[' :: rest =>
    rest.getLast? = some ']' && 2 ≤ rest.count ':' &&
      rest.dropLast.all fun c => c = ':' || c = '.' || (hostNumber? ['0', 'x', c]).isSome
  | _ =>
    let parts := String.ofList cs |>.splitOn "."
    let parts := if 1 < parts.length && parts.getLast? = some "" then parts.dropLast else parts
    let last := (parts.getLast?.getD "").toList
    let numeric := !last.isEmpty && (last.all Char.isDigit || (hostNumber? last).isSome)
    !cs.isEmpty && !cs.any isForbidden &&
      (!numeric ||
        match parts.mapM fun p => hostNumber? p.toList with
        | some ns => isNumericHost ns
        | none => false)

/-- The host and the port of an authority, less the user in front of them. -/
def splitAuthority (cs : List Char) : List Char × Option (List Char) :=
  let cs := (cs.reverse.takeWhile (· ≠ '@')).reverse
  let bracketed := cs.takeWhile (· ≠ ']')
  let (inside, rest) :=
    if cs.head? = some '[' && bracketed.length < cs.length then
      (bracketed ++ [']'], cs.drop (bracketed.length + 1))
    else ([], cs)
  let host := inside ++ rest.takeWhile (· ≠ ':')
  match rest.dropWhile (· ≠ ':') with
  | [] => (host, none)
  | _ :: port => (host, some port)

/-- The number of a port, where none is the standard one. -/
def port? (standard : Nat) : Option (List Char) → Option (Option Nat)
  | none | some [] => some none
  | some cs =>
    match (Numeral.digits? cs).filter (· ≤ 65535) with
    | some n => some (if n = standard then none else some n)
    | none => none

/-- The address with a scheme and what follows the scheme. -/
def ofScheme? (secure : Bool) (cs : List Char) : Option Address :=
  let cs := cs.dropWhile isSlash
  let authority := cs.takeWhile fun c => !isSlash c && !endsPath c
  let rest := cs.drop authority.length
  let path := rest.takeWhile fun c => !endsPath c
  let query :=
    match rest.drop path.length with
    | '?' :: q => some (encode inQuery (q.takeWhile (· ≠ '#')))
    | _ => none
  let (host, port) := splitAuthority authority
  match port? (if secure then 443 else 80) port with
  | some port =>
    if isHost host then
      some
        { secure, host := (String.ofList host).toLower, port
          segments := resolve [] (splitAtSlashes (path.drop 1)), query }
    else none
  | none => none

/-- The address that a text denotes, if one can ask there. -/
def parse? (text : String) : Option Address :=
  let cs := cleaned text
  let scheme := (String.ofList (cs.takeWhile (· ≠ ':'))).toLower
  match cs.dropWhile (· ≠ ':') with
  | _ :: rest =>
    if scheme = "http" then ofScheme? false rest
    else if scheme = "https" then ofScheme? true rest
    else none
  | [] => none

/-- What is asked for at the host: the path and the query. -/
def target (a : Address) : String :=
  "/" ++ String.intercalate "/" a.segments ++
    match a.query with
    | some q => "?" ++ q
    | none => ""

def authority (a : Address) : String :=
  a.host ++
    match a.port with
    | some n => ":" ++ toString n
    | none => ""

def text (a : Address) : String :=
  (if a.secure then "https://" else "http://") ++ a.authority ++ a.target

end Address

end ChannelAgent.Web
