import TensorUnit.Json.Token

namespace TensorUnit.Json

/-- An open container: the parts read so far, in reverse. -/
inductive Frame where
  | arr (items : List Json)
  | obj (members : List (Option String × Json)) (key : Option String)

inductive Expect where
  | value
  | item
  | key
  | member
  | colon (key : Option String)
  | more (value : Json)

structure Reader where
  expect : Expect
  /-- the innermost container first; for an object, its members and the key that waits -/
  stack : List Frame
  members : List (Option String × Json)

namespace Reader

def opening : Reader :=
  ⟨.value, [], []⟩

def yield (r : Reader) (value : Json) : Reader :=
  { r with expect := .more value }

def begin? (r : Reader) : Token → Option Reader
  | .atom value => some (r.yield value)
  | .text value => some (r.yield (.str value))
  | .arrayStart => some ⟨.item, .arr [] :: r.stack, []⟩
  | .objectStart => some ⟨.member, r.stack, []⟩
  | _ => none

def key? (r : Reader) : Token → Option Reader
  | .text key => some { r with expect := .colon key }
  | _ => none

def more? (r : Reader) (value : Json) (token : Token) : Option Reader :=
  match r.stack, token with
  | .arr items :: stack, .comma => some ⟨.value, .arr (value :: items) :: stack, []⟩
  | .arr items :: stack, .arrayEnd => some ⟨.more (.arr (value :: items).reverse), stack, []⟩
  | .obj members key :: stack, .comma => some ⟨.key, stack, (key, value) :: members⟩
  | .obj members key :: stack, .objectEnd =>
    some ⟨.more (.obj ((key, value) :: members).reverse), stack, []⟩
  | _, _ => none

def step? (r : Reader) (token : Token) : Option Reader :=
  match r.expect, token with
  | .value, token => r.begin? token
  | .item, .arrayEnd => some ⟨.more (.arr []), r.stack.drop 1, []⟩
  | .item, token => r.begin? token
  | .member, .objectEnd => some (r.yield (.obj []))
  | .member, token | .key, token => r.key? token
  | .colon key, .colon => some ⟨.value, .obj r.members key :: r.stack, []⟩
  | .colon _, _ => none
  | .more value, token => r.more? value token

end Reader

def parse? (text : String) : Option Json := do
  let tokens ← Token.ofText? text
  let reader ← tokens.foldlM Reader.step? Reader.opening
  match reader.expect, reader.stack with
  | .more value, [] => some value
  | _, _ => none

end TensorUnit.Json
