import PrefixCalc.CommandLine.Surroundings
import PrefixCalc.Text.Pieces

/-!
# PrefixCalc.CommandLine.Folder

A folder that holds files and no other folders, and what a path leads to from inside it. Empty and
single-dot components of a path stay where they are, and a double dot leads to the folder above, of
which nothing is known. A file has nothing below it, so a path that goes on behind a file leads
nowhere.
-/

namespace PrefixCalc
namespace CommandLine

structure Folder where
  files : List (String × List UInt8)

namespace Folder

def components (path : String) : List String :=
  (Text.pieces (· == '/') path.toList).map String.ofList

/-- Where the remaining components lead, from inside the folder or from a folder above it. -/
def follow (f : Folder) : Bool → List String → Source
  | _, [] => .unreadable .isDirectory
  | inside, name :: rest =>
    if name = "" ∨ name = "." then f.follow inside rest
    else if name = ".." then f.follow false rest
    else
      match if inside then f.files.lookup name else none, rest with
      | some bytes, [] => .contents bytes
      | _, _ => .missing

/-- The length from which on a path leads nowhere, in bytes. -/
def pathLimit : Nat := 4096

def source (f : Folder) (path : String) : Source :=
  if path = "" ∨ pathLimit ≤ path.utf8ByteSize then .missing
  else
    match components path with
    | "" :: names => f.follow false names
    | names => f.follow true names

end Folder
end CommandLine
end PrefixCalc
