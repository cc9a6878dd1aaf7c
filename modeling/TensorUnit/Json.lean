namespace TensorUnit

/-- JSON values. They keep the order and repetition of members, integers beside other numbers, and
texts that hold half of a surrogate pair. -/
inductive Json where
  | null
  | bool (value : Bool)
  /-- a number written as an integer, `-0` apart -/
  | int (value : Int)
  /-- any other number, as it is written -/
  | real (text : String)
  /-- a text, or nothing when it holds half of a surrogate pair -/
  | str (text : Option String)
  | arr (items : List Json)
  | obj (members : List (Option String × Json))
  deriving Inhabited

namespace Json

def text (s : String) : Json :=
  .str (some s)

def nat (n : Nat) : Json :=
  .int n

def record (members : List (String × Json)) : Json :=
  .obj (members.map fun m => (some m.1, m.2))

def get? (name : String) : Json → Option Json
  | .obj members => members.lookup (some name)
  | _ => none

end Json

end TensorUnit
