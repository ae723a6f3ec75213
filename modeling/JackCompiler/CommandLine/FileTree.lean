namespace JackCompiler.CommandLine

abbrev Path := List String

inductive Entry
  | directory
  | file (content : ByteArray)

/-- Entries by path, each path at most once. The root is always a directory and has no entry. -/
structure FileTree where
  entries : List (Path × Entry)

namespace FileTree

def empty : FileTree := ⟨[]⟩

def entry? (tree : FileTree) (path : Path) : Option Entry :=
  if path = [] then some .directory else tree.entries.lookup path

def isDirectory (tree : FileTree) (path : Path) : Bool :=
  match tree.entry? path with
  | some .directory => true
  | _ => false

def file? (tree : FileTree) (path : Path) : Option ByteArray :=
  match tree.entry? path with
  | some (.file content) => some content
  | _ => none

def put (tree : FileTree) (path : Path) (entry : Entry) : FileTree :=
  ⟨(path, entry) :: tree.entries.filter (·.1 != path)⟩

def write (tree : FileTree) (path : Path) (content : ByteArray) : FileTree :=
  tree.put path (.file content)

def makeDirectory (tree : FileTree) (path : Path) : FileTree :=
  (List.range (path.length + 1)).foldl (fun tree count =>
    if (tree.entry? (path.take count)).isSome then tree else tree.put (path.take count) .directory)
    tree

def addFile (tree : FileTree) (path : Path) (content : ByteArray) : FileTree :=
  (tree.makeDirectory path.dropLast).write path content

def fileNames (tree : FileTree) (directory : Path) : List String :=
  tree.entries.filterMap fun (path, entry) =>
    match entry with
    | .directory => none
    | .file _ => if path.dropLast == directory then path.getLast? else none

def files (tree : FileTree) : List (Path × ByteArray) :=
  tree.entries.filterMap fun (path, entry) =>
    match entry with
    | .directory => none
    | .file content => some (path, content)

def partsFrom (part : List Char) : List Char → List String
  | [] => [String.ofList part.reverse]
  | '/' :: cs => String.ofList part.reverse :: partsFrom [] cs
  | c :: cs => partsFrom (c :: part) cs

def absolutePath (working : Path) (written : String) : Path :=
  let start := if written.toList.head? = some '/' then [] else working
  (partsFrom [] written.toList).foldl (fun path part =>
    if part = "" ∨ part = "." then path
    else if part = ".." then path.dropLast
    else path ++ [part]) start

def walk (tree : FileTree) : Path → List String → Option Path
  | path, [] => some path
  | path, part :: parts =>
    if !tree.isDirectory path then
      none
    else if part = "" ∨ part = "." then
      tree.walk path parts
    else if part = ".." then
      tree.walk path.dropLast parts
    else if (tree.entry? (path ++ [part])).isSome then
      tree.walk (path ++ [part]) parts
    else
      none

def resolve (tree : FileTree) (working : Path) (written : String) : Option Path :=
  match written.toList with
  | [] => none
  | '/' :: cs => tree.walk [] (partsFrom [] cs)
  | cs => tree.walk working (partsFrom [] cs)

end FileTree

end JackCompiler.CommandLine
