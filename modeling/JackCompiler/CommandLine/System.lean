import JackCompiler.CommandLine.FileTree

namespace JackCompiler.CommandLine

/-- What a run asks of the system. The file for the code of a source is made by the path of the
source as it is written. -/
inductive Access
  | find (written : String)
  | list (written : String)
  | read (written : String)
  | create (source : String)
  | write (file : Path)
  | start (workers : Nat)

/-- What a system says where it refuses something, which does not change during a run, and what it
puts out of the text that is printed in a place, with what it says if that is not all. -/
structure System where
  refusal? : Access → Option String
  print : Nat → String → String × Option String

/-- A system that refuses nothing but paths of more than 4095 bytes. -/
def System.usual : System where
  refusal?
    | .find written | .list written | .read written =>
      if 4095 < written.utf8ByteSize then some "File name too long (os error 36)" else none
    | _ => none
  print _ text := (text, none)

/-- What goes to standard error: messages, and the errors that are handed to a logger. What a
logger is told for information only is left out. -/
inductive Notice
  | message (text : String)
  | record (text : String)
  deriving DecidableEq

structure Outcome where
  status : Nat
  stdout : String
  notices : List Notice
  written : List (Path × String)

namespace Outcome

def stderrWith (outcome : Outcome) (logger : Nat → String → String) : String :=
  String.join <| outcome.notices.mapIdx fun place notice =>
    match notice with
    | .message text => text ++ "\n"
    | .record text => logger place text

def stderr (outcome : Outcome) : String := outcome.stderrWith fun _ _ => ""

def filesAfter (outcome : Outcome) (tree : FileTree) : FileTree :=
  outcome.written.foldl (fun tree (path, text) => tree.write path text.toUTF8) tree

def stopped (status : Nat) (message : String) : Outcome := ⟨status, "", [.message message], []⟩

end Outcome

end JackCompiler.CommandLine
