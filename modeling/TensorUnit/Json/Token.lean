import TensorUnit.Json
import TensorUnit.Text.Hex

namespace TensorUnit.Json

inductive Token where
  | arrayStart
  | arrayEnd
  | objectStart
  | objectEnd
  | comma
  | colon
  | atom (value : Json)
  | text (value : Option String)

namespace Token

def isDigit (c : Char) : Bool :=
  '0' ≤ c && c ≤ '9'

def digits? (cs : List Char) : Option (List Char × List Char) :=
  let (ds, rest) := cs.span isDigit
  if ds.isEmpty then none else some (ds, rest)

def afterFraction? : List Char → Option (List Char)
  | '.' :: cs => (digits? cs).map Prod.snd
  | cs => some cs

def afterExponent? : List Char → Option (List Char)
  | 'e' :: cs | 'E' :: cs =>
    match cs with
    | '+' :: ds | '-' :: ds => (digits? ds).map Prod.snd
    | ds => (digits? ds).map Prod.snd
  | cs => some cs

/-- A number in the form of JSON: no leading zero, and digits on both sides of a point. -/
def number? (written : List Char) : Option Json := do
  let (negative, unsigned) := match written with
    | '-' :: cs => (true, cs)
    | cs => (false, cs)
  let (whole, rest) ← digits? unsigned
  if whole.head? = some '0' ∧ whole.length ≠ 1 then none
  else if rest.isEmpty ∧ ¬ (negative ∧ whole = ['0']) then
    let n ← (String.ofList whole).toNat?
    return .int (if negative then -n else n)
  else
    let rest ← afterExponent? (← afterFraction? rest)
    if rest.isEmpty then return .real (String.ofList written) else none

def word? (written : List Char) : Option Json :=
  if written = ['n', 'u', 'l', 'l'] then some .null
  else if written = ['t', 'r', 'u', 'e'] then some (.bool true)
  else if written = ['f', 'a', 'l', 's', 'e'] then some (.bool false)
  else none

/-- A text read so far: its characters in reverse, the first half of a surrogate pair that waits
for the second, and whether a half has been left alone. -/
structure Draft where
  chars : List Char
  high : Option Nat
  broken : Bool

namespace Draft

def empty : Draft :=
  ⟨[], none, false⟩

def push (d : Draft) (c : Char) : Draft :=
  ⟨c :: d.chars, none, d.broken || d.high.isSome⟩

def pushUnit (d : Draft) (unit : Nat) : Draft :=
  if 0xD800 ≤ unit ∧ unit < 0xDC00 then
    ⟨d.chars, some unit, d.broken || d.high.isSome⟩
  else if 0xDC00 ≤ unit ∧ unit < 0xE000 then
    match d.high with
    | some high =>
      ⟨Char.ofNat (0x10000 + (high - 0xD800) * 0x400 + (unit - 0xDC00)) :: d.chars, none, d.broken⟩
    | none => ⟨d.chars, none, true⟩
  else d.push (Char.ofNat unit)

def finish (d : Draft) : Option String :=
  if d.broken || d.high.isSome then none else some (String.ofList d.chars.reverse)

end Draft

inductive Mode where
  | between
  | word (written : List Char)
  | number (written : List Char)
  | text (draft : Draft)
  | escape (draft : Draft)
  | unit (draft : Draft) (missing value : Nat)

def isBlank (c : Char) : Bool :=
  c = ' ' || c = '\t' || c = '\n' || c = '\r'

def isWordChar (c : Char) : Bool :=
  'a' ≤ c && c ≤ 'z'

def isNumberChar (c : Char) : Bool :=
  isDigit c || c = '-' || c = '+' || c = '.' || c = 'e' || c = 'E'

def punctuation? (c : Char) : Option Token :=
  match c with
  | '[' => some .arrayStart
  | ']' => some .arrayEnd
  | '\x7b' => some .objectStart
  | '\x7d' => some .objectEnd
  | ',' => some .comma
  | ':' => some .colon
  | _ => none

def start? (c : Char) (done : List Token) : Option (Mode × List Token) :=
  match punctuation? c with
  | some token => some (.between, token :: done)
  | none =>
    if isBlank c then some (.between, done)
    else if c = '"' then some (.text .empty, done)
    else if c = '-' || isDigit c then some (.number [c], done)
    else if isWordChar c then some (.word [c], done)
    else none

def escaped? (c : Char) : Option Char :=
  match c with
  | '"' => some '"'
  | '\\' => some '\\'
  | '/' => some '/'
  | 'b' => some '\x08'
  | 'f' => some '\x0c'
  | 'n' => some '\n'
  | 'r' => some '\r'
  | 't' => some '\t'
  | _ => none

def step? (c : Char) (done : List Token) : Mode → Option (Mode × List Token)
  | .between => start? c done
  | .word written =>
    if isWordChar c then some (.word (c :: written), done)
    else (word? written.reverse).bind fun value => start? c (.atom value :: done)
  | .number written =>
    if isNumberChar c then some (.number (c :: written), done)
    else (number? written.reverse).bind fun value => start? c (.atom value :: done)
  | .text draft =>
    if c = '"' then some (.between, .text draft.finish :: done)
    else if c = '\\' then some (.escape draft, done)
    else if c.toNat < 0x20 then none
    else some (.text (draft.push c), done)
  | .escape draft =>
    if c = 'u' then some (.unit draft 4 0, done)
    else (escaped? c).map fun e => (.text (draft.push e), done)
  | .unit draft missing value =>
    (Text.Hex.digitValue? c).map fun digit =>
      let value := 16 * value + digit
      if missing = 1 then (.text (draft.pushUnit value), done)
      else (.unit draft (missing - 1) value, done)

def finish? (done : List Token) : Mode → Option (List Token)
  | .between => some done.reverse
  | .word written => (word? written.reverse).map fun value => (.atom value :: done).reverse
  | .number written => (number? written.reverse).map fun value => (.atom value :: done).reverse
  | _ => none

def scan (mode : Mode) (done : List Token) : List Char → Option (List Token)
  | [] => finish? done mode
  | c :: cs =>
    match step? c done mode with
    | some (mode, done) => scan mode done cs
    | none => none

def ofText? (text : String) : Option (List Token) :=
  scan .between [] text.toList

end Token

end TensorUnit.Json
