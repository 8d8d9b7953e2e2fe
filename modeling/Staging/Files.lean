import Staging.Number.Reading
import Staging.Text.Blank
import Staging.Text.Utf8

/-!
# Extracted files

The files of a load directory: for each table a count file, its pages numbered from zero, and
perhaps a test page. A directory is what is found at each path, which does not change during a run.
-/

namespace Staging

/-- What is found at a path. -/
inductive Entry
  | missing
  | folder
  | file (octets : List UInt8)
  deriving DecidableEq, Repr, Inhabited

/-- What is found at every path. -/
abbrev Directory := String → Entry

namespace Files

/-- A name below a directory; a name that begins at the root stands for itself. -/
def join (dir name : String) : String :=
  if name.startsWith "/" then name
  else if dir.isEmpty || dir.endsWith "/" then dir ++ name
  else dir ++ "/" ++ name

/-- The last part of a path. -/
def baseName (path : String) : String :=
  String.ofList (path.toList.reverse.takeWhile (· != '/')).reverse

/-- A number in decimal. -/
def decimal (n : Int) : String :=
  (if n < 0 then "-" else "") ++ String.ofList (Nat.toDigits 10 n.natAbs)

def countFile (dir table : String) : String := join dir (table ++ "_count.txt")

def pageFile (dir table : String) (page : Int) : String :=
  join dir (table ++ "_" ++ decimal page ++ ".json")

def testFile (dir table : String) : String := join dir (table ++ "_test.json")

/-- The number that the text of a count file begins with. -/
def pageCount? (octets : List UInt8) : Option Int := do
  let text ← (Text.Utf8.decode octets).toOption
  let word ← Text.firstWord? text
  (Number.readInt (String.ofList word)).toOption

/-- The pages of a table in processing order: those counted, and the test page if there is one. A
count below one counts no page. -/
def pages (files : Directory) (dir table : String) (count : Int) : List String :=
  (List.range count.toNat).map (fun n : Nat => pageFile dir table n)
    ++ (if files (testFile dir table) = .missing then [] else [testFile dir table])

/-! ## Trees -/

/-- The parts of a path between its slashes. -/
def parts : List Char → List (List Char)
  | [] => [[]]
  | c :: rest =>
    if c = '/' then [] :: parts rest
    else match parts rest with
      | [] => [[c]]
      | first :: more => (c :: first) :: more

/-- A place in a tree: the names on the way to it, the last one first. -/
abbrev Place := List (List Char)

namespace Place

/-- Where a path begins. -/
def start (path : String) : Place := if path.startsWith "/" then [['/']] else []

/-- Where a part of a path leads to. No part leads above the place of no name. -/
def step (p : Place) (part : List Char) : Option Place :=
  if part = [] ∨ part = ['.'] then some p
  else if part = ['.', '.'] then (if p.isEmpty then none else some p.tail)
  else some (part :: p)

/-- Where a path leads to if there is a folder at every place on its way. -/
def ofPath? (path : String) : Option Place := (parts path.toList).foldlM step (start path)

end Place

/-- The entries of a tree. Of two at one place the first counts. -/
abbrev Tree := List (Place × Entry)

namespace Tree

/-- What is found at a place. On the way to every entry there are folders. -/
def entryAt (t : Tree) (p : Place) : Entry :=
  (t.lookup p).getD (if t.any fun e => p.isSuffixOf e.1 then .folder else .missing)

/-- Where a path leads to. No part of it leads on from what is no folder. -/
def place? (t : Tree) (path : String) : Option Place :=
  (parts path.toList).foldlM (fun p part => if t.entryAt p = .folder then p.step part else none)
    (Place.start path)

/-- What is found at every path. -/
def directory (t : Tree) : Directory := fun path =>
  match t.place? path with
  | some p => t.entryAt p
  | none => .missing

end Tree

/-- The tree of entries at these paths, each written over those before it. -/
def treeOf (entries : List (String × Entry)) : Tree :=
  (entries.filterMap fun (path, entry) => (Place.ofPath? path).map (·, entry)).reverse

end Files

end Staging
