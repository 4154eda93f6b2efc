import ChannelAgent.Json.Literal

set_option autoImplicit false

namespace ChannelAgent.Json

/-- A reader takes a value from the front of the symbols and leaves the rest. -/
abbrev Reader (α : Type) := StateT (List Symbol) (Except Fault) α

/-- Space, tab, line feed and carriage return may stand between tokens. -/
def isSpace (s : Symbol) : Bool :=
  s = some ' ' || s = some '\t' || s = some '\n' || s = some '\r'

def skipSpace (s : List Symbol) : List Symbol := s.dropWhile isSpace

def keyword : List Char → List Symbol → Except Fault (List Symbol)
  | [], s => .ok s
  | _ :: _, [] => .error .truncated
  | c :: cs, x :: rest => if x = some c then keyword cs rest else .error .malformed

def hexValue? : Symbol → Option Nat
  | some c =>
    if '0' ≤ c ∧ c ≤ '9' then some (c.toNat - 48)
    else if 'a' ≤ c ∧ c ≤ 'f' then some (c.toNat - 87)
    else if 'A' ≤ c ∧ c ≤ 'F' then some (c.toNat - 55)
    else none
  | none => none

/-- The character that a backslash followed by `c` stands for. -/
def escaped? (c : Char) : Option Char :=
  if c = '"' ∨ c = '\\' ∨ c = '/' then some c
  else if c = 'b' then some '\x08'
  else if c = 'f' then some '\x0c'
  else if c = 'n' then some '\n'
  else if c = 'r' then some '\r'
  else if c = 't' then some '\t'
  else none

inductive Place
  | plain
  /-- After a backslash. -/
  | escape
  /-- Inside a code unit with `left + 1` digits to come, after the leading surrogate `lead?`. -/
  | unit (lead? : Option Nat) (left : Nat) (value : Nat)
  /-- After a leading surrogate, before the backslash of its partner. -/
  | partner (lead : Nat)
  /-- After a leading surrogate and a backslash. -/
  | partnerEscape (lead : Nat)
  deriving DecidableEq, Repr

def isLeading (unit : Nat) : Bool := 0xD800 ≤ unit && unit ≤ 0xDBFF

def isTrailing (unit : Nat) : Bool := 0xDC00 ≤ unit && unit ≤ 0xDFFF

def paired (lead trail : Nat) : Char :=
  Char.ofNat ((lead - 0xD800) * 1024 + (trail - 0xDC00) + 0x10000)

/-- Reads a string up to its closing quote. The characters read so far are kept in reverse, and
`clean` says that no stray byte was among them; a stray byte is noticed at the closing quote. -/
def stringBody : Place → (clean : Bool) → List Char → List Symbol →
    Except Fault (String × List Symbol)
  | _, _, _, [] => .error .truncated
  | .plain, clean, acc, s :: rest =>
    match s with
    | none => stringBody .plain false acc rest
    | some c =>
      if c = '"' then
        if clean then .ok (String.ofList acc.reverse, rest) else .error .malformed
      else if c = '\\' then stringBody .escape clean acc rest
      else if c.toNat < 0x20 then .error .malformed
      else stringBody .plain clean (c :: acc) rest
  | .escape, clean, acc, s :: rest =>
    match s with
    | none => .error .malformed
    | some c =>
      if c = 'u' then
        if Utf8.hasBytes 4 rest then stringBody (.unit none 3 0) clean acc rest
        else .error .truncated
      else
        match escaped? c with
        | some e => stringBody .plain clean (e :: acc) rest
        | none => .error .malformed
  | .unit lead? left value, clean, acc, s :: rest =>
    match hexValue? s with
    | none => .error .malformed
    | some d =>
      let value := value * 16 + d
      match left, lead? with
      | left + 1, _ => stringBody (.unit lead? left value) clean acc rest
      | 0, none =>
        if isTrailing value then .error .malformed
        else if isLeading value then stringBody (.partner value) clean acc rest
        else stringBody .plain clean (Char.ofNat value :: acc) rest
      | 0, some lead =>
        if isTrailing value then stringBody .plain clean (paired lead value :: acc) rest
        else .error .malformed
  | .partner lead, clean, acc, s :: rest =>
    if s = some '\\' then stringBody (.partnerEscape lead) clean acc rest else .error .malformed
  | .partnerEscape lead, clean, acc, s :: rest =>
    if s = some 'u' then
      if Utf8.hasBytes 4 rest then stringBody (.unit (some lead) 3 0) clean acc rest
      else .error .truncated
    else .error .malformed

def stringToken (s : List Symbol) : Except Fault (String × List Symbol) :=
  stringBody .plain true [] s

/-- Skips a string after its opening quote. Code units need four digits but may be lone surrogates,
and stray bytes do no harm. -/
def skipString : Place → List Symbol → Except Fault (List Symbol)
  | _, [] => .error .truncated
  | .plain, s :: rest =>
    match s with
    | none => skipString .plain rest
    | some c =>
      if c = '"' then .ok rest
      else if c = '\\' then skipString .escape rest
      else if c.toNat < 0x20 then .error .malformed
      else skipString .plain rest
  | .escape, s :: rest =>
    match s with
    | none => .error .malformed
    | some c =>
      if c = 'u' then
        if Utf8.hasBytes 4 rest then skipString (.unit none 3 0) rest else .error .truncated
      else if (escaped? c).isSome then skipString .plain rest
      else .error .malformed
  | .unit lead? left _, s :: rest =>
    if (hexValue? s).isNone then .error .malformed
    else
      match left with
      | left + 1 => skipString (.unit lead? left 0) rest
      | 0 => skipString .plain rest
  | .partner _, _ :: _ => .error .malformed
  | .partnerEscape _, _ :: _ => .error .malformed

/-- Reads a number after its sign, if it has one. -/
def numberToken (negative : Bool) (s : List Symbol) : Except Fault (Number × List Symbol) := do
  let (l, rest) ← literal .truncated negative s
  match l.number? with
  | some n => .ok (n, rest)
  | none => .error .malformed

/-- Skips a number after its sign, if it has one. Its size does not matter, and the end of the text
inside it is as wrong as any other symbol. -/
def skipNumber (s : List Symbol) : Except Fault (List Symbol) :=
  (literal .malformed false s).map (·.2)

/-- Reads the value that starts at the front of the symbols, given how to go on after an opening
bracket or brace. -/
def token (list object : Reader Value) : Reader Value := fun s =>
  match skipSpace s with
  | [] => .error .truncated
  | none :: _ => .error .malformed
  | some c :: rest =>
    if c = 'n' then (keyword ['u', 'l', 'l'] rest).map fun r => (.null, r)
    else if c = 't' then (keyword ['r', 'u', 'e'] rest).map fun r => (.bool true, r)
    else if c = 'f' then (keyword ['a', 'l', 's', 'e'] rest).map fun r => (.bool false, r)
    else if c = '-' then (numberToken true rest).map fun r => (.number r.1, r.2)
    else if '0' ≤ c ∧ c ≤ '9' then
      (numberToken false (some c :: rest)).map fun r => (.number r.1, r.2)
    else if c = '"' then (stringToken rest).map fun r => (.string r.1, r.2)
    else if c = '[' then list rest
    else if c = '\x7b' then object rest
    else .error .malformed

/-- Refuses the value at the front. A scalar is read first, so a fault inside it is what is
reported; a list or an object is refused at its opening. -/
def refuse {α : Type} : Reader α := fun s =>
  match token (fun _ => .error .mismatched) (fun _ => .error .mismatched) s with
  | .error e => .error e
  | .ok _ => .error .mismatched

/-- Looks for the next element of a list and leaves the closing bracket in place. -/
def nextElement (first : Bool) (s : List Symbol) : Except Fault (Bool × List Symbol) :=
  match skipSpace s with
  | [] => .error .truncated
  | c :: rest =>
    if c = some ']' then .ok (false, c :: rest)
    else if first then .ok (true, c :: rest)
    else if c = some ',' then
      match skipSpace rest with
      | [] => .error .truncated
      | d :: more => if d = some ']' then .error .malformed else .ok (true, d :: more)
    else .error .malformed

def closeList (s : List Symbol) : Except Fault (List Symbol) :=
  match skipSpace s with
  | [] => .error .truncated
  | c :: rest => if c = some ']' then .ok rest else .error .malformed

/-- Reads the name of the next member of an object, or the closing brace. -/
def nextName (first : Bool) (s : List Symbol) : Except Fault (Option String × List Symbol) :=
  let name (s : List Symbol) : Except Fault (Option String × List Symbol) :=
    match s with
    | [] => .error .truncated
    | c :: rest =>
      if c = some '"' then (stringToken rest).map fun r => (some r.1, r.2) else .error .malformed
  match skipSpace s with
  | [] => .error .truncated
  | c :: rest =>
    if c = some '\x7d' then .ok (none, rest)
    else if first then name (c :: rest)
    else if c = some ',' then name (skipSpace rest)
    else .error .malformed

def colon (s : List Symbol) : Except Fault (List Symbol) :=
  match skipSpace s with
  | [] => .error .truncated
  | c :: rest => if c = some ':' then .ok rest else .error .malformed

end ChannelAgent.Json
