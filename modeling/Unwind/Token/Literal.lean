import Unwind.Text.IdentifierPart

/-!
# Literals

Which texts are literals: quoted texts, characters and bytes, raw texts, and numbers, each with an
optional suffix. Quoted forms are read by a state machine, one character at a time.
-/

namespace Unwind.Literal

open Text

/-- The forms of text between quotes. -/
inductive Form where
  | string
  | bytes
  /-- Text that ends at a zero, and so may not contain one. -/
  | zeroEnded
  | char
  | byte
  deriving DecidableEq

namespace Form

/-- Whether the quotes hold exactly one character. -/
def isSingle : Form → Bool
  | .char | .byte => true
  | _ => false

/-- Whether only ASCII may stand between the quotes. -/
def isAscii : Form → Bool
  | .bytes | .byte => true
  | _ => false

end Form

def isHex (c : Char) : Bool :=
  c.isDigit || (97 ≤ c.toNat && c.toNat ≤ 102) || (65 ≤ c.toNat && c.toNat ≤ 70)

def hexValue (c : Char) : Nat :=
  if c.isDigit then c.toNat - 48
  else if 97 ≤ c.toNat then c.toNat - 87
  else c.toNat - 55

inductive State where
  /-- Between the quotes. -/
  | body (f : Form)
  /-- After a carriage return, which needs a line feed. -/
  | afterReturn (f : Form)
  | escape (f : Form)
  /-- Before the first hexadecimal digit of an escape. -/
  | hexFirst (f : Form)
  | hexSecond (f : Form) (first : Nat)
  | codeOpen (f : Form)
  /-- In a code point escape with `digits` digits so far. -/
  | code (f : Form) (digits value : Nat)
  /-- After a backslash at the end of a line; blanks are skipped. -/
  | continued (f : Form)
  | continuedReturn (f : Form)
  /-- Before the closing quote of a single character. -/
  | close
  | rawOpen (f : Form) (hashes : Nat)
  | raw (f : Form) (hashes : Nat)
  | rawReturn (f : Form) (hashes : Nat)
  /-- After a quote in a raw text, with `seen` of the closing hashes. -/
  | rawClose (f : Form) (hashes seen : Nat)
  /-- After the closing quote. -/
  | ended
  | suffix

namespace State

/-- After one character or escape between the quotes. -/
def next (f : Form) : State :=
  if f.isSingle then .close else .body f

def stepBody (f : Form) (c : Char) : Option State :=
  if c = '\\' then some (.escape f)
  else if f.isAscii && 128 ≤ c.toNat then none
  else if f.isSingle then some .close
  else if c = '\x22' then some .ended
  else if c = '\r' then some (.afterReturn f)
  else if f = .zeroEnded && c.toNat = 0 then none
  else some (.body f)

def stepEscape (f : Form) (c : Char) : Option State :=
  if c ∈ ['n', 'r', 't', '\\', '\x27', '\x22'] then some (next f)
  else if c = '0' then if f = .zeroEnded then none else some (next f)
  else if c = 'x' then some (.hexFirst f)
  else if c = 'u' then if f.isAscii then none else some (.codeOpen f)
  else if f.isSingle then none
  else if c = '\n' then some (.continued f)
  else if c = '\r' then some (.continuedReturn f)
  else none

/-- Whether a two-digit escape is allowed. In text only ASCII can be written so. -/
def hexAllowed (f : Form) (first second : Nat) : Bool :=
  match f with
  | .string | .char => first < 8
  | .zeroEnded => first + second ≠ 0
  | .bytes | .byte => true

def stepCode (f : Form) (digits value : Nat) (c : Char) : Option State :=
  if c = '_' && 0 < digits then some (.code f digits value)
  else if c = '\x7d' && 0 < digits then
    if value.isValidChar && !(f = .zeroEnded && value = 0) then some (next f) else none
  else if isHex c && digits < 6 then some (.code f (digits + 1) (16 * value + hexValue c))
  else none

def stepRaw (f : Form) (hashes : Nat) (c : Char) : Option State :=
  if c = '\x22' then some (if hashes = 0 then .ended else .rawClose f hashes 0)
  else if c = '\r' then some (.rawReturn f hashes)
  else if f.isAscii && 128 ≤ c.toNat then none
  else if f = .zeroEnded && c.toNat = 0 then none
  else some (.raw f hashes)

def step (c : Char) : State → Option State
  | .body f => stepBody f c
  | .afterReturn f => if c = '\n' then some (.body f) else none
  | .escape f => stepEscape f c
  | .hexFirst f => if isHex c then some (.hexSecond f (hexValue c)) else none
  | .hexSecond f first =>
    if isHex c && hexAllowed f first (hexValue c) then some (next f) else none
  | .codeOpen f => if c = '\x7b' then some (.code f 0 0) else none
  | .code f digits value => stepCode f digits value c
  | .continued f =>
    if c = ' ' || c = '\t' || c = '\n' then some (.continued f)
    else if c = '\r' then some (.continuedReturn f)
    else stepBody f c
  | .continuedReturn f => if c = '\n' then some (.continued f) else none
  | .close => if c = '\x27' then some .ended else none
  | .rawOpen f hashes =>
    if c = '#' && hashes < 255 then some (.rawOpen f (hashes + 1))
    else if c = '\x22' then some (.raw f hashes)
    else none
  | .raw f hashes => stepRaw f hashes c
  | .rawReturn f hashes => if c = '\n' then some (.raw f hashes) else none
  | .rawClose f hashes seen =>
    if c = '#' then
      some (if seen + 1 = hashes then .ended else .rawClose f hashes (seen + 1))
    else stepRaw f hashes c
  | .ended => if c = '_' || isIdentifierStart c then some .suffix else none
  | .suffix => if isIdentifierPart c then some .suffix else none

/-- Whether the text may end here. -/
def isFinal : State → Bool
  | .ended | .suffix => true
  | _ => false

def run : State → List Char → Bool
  | s, [] => s.isFinal
  | s, c :: cs =>
    match s.step c with
    | some s => s.run cs
    | none => false

end State

def isDigitOrBar (c : Char) : Bool :=
  c.isDigit || c = '_'

/-- Whether `cs` can follow the digits of a number: nothing, or a suffix. -/
def endsNumber (cs : List Char) : Bool :=
  State.ended.run cs

/-- An exponent and what follows it, if there is a digit in it. -/
def exponent? : List Char → Option (List Char)
  | [] => none
  | e :: cs =>
    if e = 'e' || e = 'E' then
      let cs := cs.dropWhile (· = '_')
      let cs := if cs.head? = some '+' || cs.head? = some '-' then cs.drop 1 else cs
      if (cs.takeWhile isDigitOrBar).any Char.isDigit then some (cs.dropWhile isDigitOrBar)
      else none
    else none

/-- What follows the digits of a number with a point or an exponent. -/
def decimal? (cs : List Char) : Option (List Char) :=
  match cs.dropWhile isDigitOrBar with
  | '.' :: rest =>
    match rest.head? with
    | some c =>
      if c = '.' || c = '_' || isIdentifierStart c then none
      else
        let rest := rest.dropWhile isDigitOrBar
        some ((exponent? rest).getD rest)
    | none => some rest
  | rest => exponent? rest

/-- What follows the digits of a whole number to a base. -/
def whole? (base : Nat) (cs : List Char) : Option (List Char) :=
  let isDigitOf (c : Char) : Bool := c.isDigit || (isHex c && hexValue c < base)
  let digits := cs.takeWhile fun c => c = '_' || isDigitOf c
  if digits.any (· ≠ '_') && digits.all (fun c => c = '_' || hexValue c < base) then
    some (cs.drop digits.length)
  else none

def isNumber (cs : List Char) : Bool :=
  match decimal? cs with
  | some rest => endsNumber rest
  | none =>
    let rest? := match cs with
      | '0' :: 'x' :: rest => whole? 16 rest
      | '0' :: 'o' :: rest => whole? 8 rest
      | '0' :: 'b' :: rest => whole? 2 rest
      | _ => whole? 10 cs
    match rest? with
    | some rest => endsNumber rest
    | none => false

/-- Whether a text is one literal. -/
def isLiteral (s : String) : Bool :=
  match s.toList with
  | '\x22' :: cs => State.run (.body .string) cs
  | '\x27' :: cs => State.run (.body .char) cs
  | 'r' :: cs => State.run (.rawOpen .string 0) cs
  | 'b' :: '\x22' :: cs => State.run (.body .bytes) cs
  | 'b' :: '\x27' :: cs => State.run (.body .byte) cs
  | 'b' :: 'r' :: cs => State.run (.rawOpen .bytes 0) cs
  | 'c' :: '\x22' :: cs => State.run (.body .zeroEnded) cs
  | 'c' :: 'r' :: cs => State.run (.rawOpen .zeroEnded 0) cs
  | c :: cs => c.isDigit && isNumber (c :: cs)
  | [] => false

end Unwind.Literal
