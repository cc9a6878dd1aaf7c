import TensorUnit.Json
import TensorUnit.Text.Hex

namespace TensorUnit.Json

def escape (c : Char) : String :=
  if c = '"' then "\\\""
  else if c = '\\' then "\\\\"
  else if c.toNat < 0x20 then "\\u" ++ Text.Hex.padded 4 c.toNat
  else c.toString

def quote (s : String) : String :=
  s.foldl (fun done c => done ++ escape c) "\"" ++ "\""

mutual

def append (done : String) : Json → String
  | .null => done ++ "null"
  | .bool value => done ++ (if value then "true" else "false")
  | .int value => done ++ toString value
  | .real text => done ++ text
  | .str text => done ++ quote (text.getD "\ufffd")
  | .arr items => appendItems (done ++ "[") true items ++ "]"
  | .obj members => appendMembers (done ++ "\x7b") true members ++ "\x7d"

def appendItems (done : String) (first : Bool) : List Json → String
  | [] => done
  | item :: items => appendItems (append (if first then done else done ++ ",") item) false items

def appendMembers (done : String) (first : Bool) : List (Option String × Json) → String
  | [] => done
  | (key, value) :: members =>
    let done := if first then done else done ++ ","
    appendMembers (append (done ++ quote (key.getD "\ufffd") ++ ":") value) false members

end

def render (value : Json) : String :=
  append "" value

end TensorUnit.Json
