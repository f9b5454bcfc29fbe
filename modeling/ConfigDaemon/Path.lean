/-! # Paths

A path names its folders one after the other between slashes, from the root if it begins with a
slash.
-/

namespace ConfigDaemon.Path

def isAbsolute (path : String) : Bool :=
  path.toList.head? = some '/'

/-- A path as seen from a folder. One slash stands between them, and an absolute path is not
changed. -/
def join (folder path : String) : String :=
  if isAbsolute path then path
  else if folder.isEmpty ∨ folder.toList.getLast? = some '/' then folder ++ path
  else folder ++ "/" ++ path

/-- The pieces of a path between its slashes, empty ones included. -/
def names (path : String) : List String :=
  (path.toList.splitOn '/').map .ofList

def ofNames (names : List String) : String :=
  "/".intercalate names

/-- Whether a name leads to the folder that it is looked up in. -/
def stays (name : String) : Bool :=
  name = "" ∨ name = "."

/-- The names without the last ones that pass a test. -/
def dropEnd (p : String → Bool) (names : List String) : List String :=
  (names.reverse.dropWhile p).reverse

/-- The names of the folder that a path lies in. -/
def parentNames (names : List String) : List String :=
  dropEnd stays (dropEnd stays names).dropLast

def parent (path : String) : String :=
  ofNames (parentNames (names path))

/-- Whether a path ends by staying in its folder or going up from it. -/
def endsInDots (path : String) : Bool :=
  ((dropEnd (· = "") (names path)).getLast?).any fun name => name = "." ∨ name = ".."

end ConfigDaemon.Path
