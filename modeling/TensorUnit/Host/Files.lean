namespace TensorUnit.Host

inductive Node where
  | directory
  | file (contents : List UInt8)

/-- Files below a root, with the directory that a host works in. A place is the names that lead
there from the root, the last one first; of two entries of one place the first counts. -/
structure Files where
  entries : List (List String × Node)
  directory : List String

namespace Files

def empty : Files :=
  ⟨[(["work"], .directory)], ["work"]⟩

def node? (f : Files) : List String → Option Node
  | [] => some .directory
  | place => f.entries.lookup place

def isDirectory (f : Files) (place : List String) : Bool :=
  match f.node? place with
  | some .directory => true
  | _ => false

def isAbsolute (path : String) : Bool :=
  path.startsWith "/"

/-- One step on from a place, which must be a directory. The root is its own parent. -/
def step? (f : Files) (place : List String) (name : String) : Option (List String) :=
  if ¬ f.isDirectory place then none
  else if name = "" ∨ name = "." then some place
  else if name = ".." then some place.tail
  else some (name :: place)

def start (f : Files) (path : String) : List String :=
  if isAbsolute path then [] else f.directory

def place? (f : Files) (path : String) : Option (List String) :=
  (path.splitOn "/").foldlM f.step? (f.start path)

def makeDirectory (f : Files) (place : List String) : Files :=
  match f.node? place with
  | none => { f with entries := (place, .directory) :: f.entries }
  | some _ => f

def makeWay? (f : Files) (place : List String) : List String → Option (Files × List String)
  | [] => some (f, place)
  | [name] => (f.step? place name).map fun place => (f, place)
  | name :: rest => do
    let place ← f.step? place name
    (f.makeDirectory place).makeWay? place rest

def write (f : Files) (path : String) (contents : List UInt8) : Files :=
  match f.makeWay? (f.start path) (path.splitOn "/") with
  | none => f
  | some (made, place) =>
    if made.isDirectory place then f
    else { made with entries := (place, .file contents) :: made.entries }

def read? (f : Files) (path : String) : Option (List UInt8) := do
  match ← f.node? (← f.place? path) with
  | .file contents => some contents
  | .directory => none

def readText? (f : Files) (path : String) : Option String :=
  (f.read? path).bind fun bytes => String.fromUTF8? ⟨bytes.toArray⟩

def beside (path name : String) : String :=
  if isAbsolute name then name
  else String.intercalate "/" ((path.splitOn "/").dropLast ++ [name])

/-- A path without the steps at its front that stay where they are. -/
def trim (path : String) : String :=
  String.intercalate "/" ((path.splitOn "/").dropWhile fun name => name = "" ∨ name = ".")

end Files

end TensorUnit.Host
