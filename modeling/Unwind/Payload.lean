/-!
# Payloads

What a failure carries, the kinds of payload that can be told apart, and the selectors by which a
handler clause says which kinds it takes.
-/

namespace Unwind

/-- A payload of its own type: a record of one integer. -/
structure Record where
  i : Int32
  deriving DecidableEq

/-- The kinds of payload. -/
inductive Kind where
  | int
  | record
  deriving DecidableEq

/-- The name of a kind in reports. -/
def Kind.name : Kind → String
  | .int => "i32"
  | .record => "Record"

/-- What a failure carries. -/
inductive Payload where
  | int (n : Int32)
  | record (r : Record)
  deriving DecidableEq

namespace Payload

def kind : Payload → Kind
  | .int _ => .int
  | .record _ => .record

/-- The integer in a payload, whatever its kind. -/
def integer : Payload → Int32
  | .int n => n
  | .record r => r.i

/-- The integer of an integer payload. -/
def int? : Payload → Option Int32
  | .int n => some n
  | .record _ => none

/-- The record of a record payload. -/
def record? : Payload → Option Record
  | .int _ => none
  | .record r => some r

/-- The text of a payload in reports. -/
def text : Payload → String
  | .int n => s!"i32 {n.toInt}"
  | .record r => s!"Record \x7b i: {r.i.toInt} \x7d"

end Payload

/-- Which payloads a handler clause takes: those of one kind, or all. -/
inductive Selector where
  | kind (k : Kind)
  | any
  deriving DecidableEq

namespace Selector

/-- Whether a clause with this selector takes payloads of kind `k`. -/
def accepts : Selector → Kind → Bool
  | .kind k, k' => decide (k = k')
  | .any, _ => true

def takesAll : Selector → Bool
  | .kind _ => false
  | .any => true

/-- The text of a selector in reports. -/
def text : Selector → String
  | .kind k => k.name
  | .any => "..."

end Selector

end Unwind
