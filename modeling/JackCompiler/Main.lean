import JackCompiler.CommandLine.Run

namespace JackCompiler.CommandLine

def pathText (path : Path) : String := "/" ++ String.intercalate "/" path

def loadEntry (tree : FileTree) (path : Path) : IO FileTree := do
  let text := pathText path
  let root ← IO.FS.realPath "/"
  if ← (root / text).isDir then
    return tree.makeDirectory path
  else if isSourceName (path.getLastD "") && (← (root / text).pathExists) then
    let tree := tree.addFile path (← IO.FS.readBinFile text)
    let target := (SourceUnit.mk text path.dropLast (path.getLastD "")).target
    if ← (root / pathText target).isDir then
      return tree.makeDirectory target
    else
      return tree
  else
    return tree

def loadInput (working : Path) (tree : FileTree) (input : String) : IO FileTree := do
  let path := FileTree.absolutePath working input
  let tree ← loadEntry tree path
  let place := (← IO.FS.realPath "/") / pathText path
  if ← place.isDir then
    (← place.readDir).foldlM (fun tree entry => loadEntry tree (path ++ [entry.fileName])) tree
  else
    return tree

end JackCompiler.CommandLine

open JackCompiler.CommandLine in
def main (words : List String) : IO UInt32 := do
  let working := FileTree.absolutePath [] (← IO.currentDir).toString
  let inputs :=
    match readUsage words with
    | .compile options => options.inputs
    | _ => []
  let tree ← inputs.foldlM (loadInput working) (FileTree.empty.makeDirectory working)
  let outcome := run tree working words
  for (path, text) in outcome.written do
    IO.FS.writeFile (pathText path) text
  IO.print outcome.stdout
  IO.eprint outcome.stderr
  return UInt32.ofNat outcome.status
