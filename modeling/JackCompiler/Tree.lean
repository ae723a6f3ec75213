import JackCompiler.NodeKind
import JackCompiler.Token

namespace JackCompiler

inductive Tree
  | node (number : Nat) (kind : NodeKind) (token : Option Token) (children : List Tree)

namespace Tree

def number : Tree → Nat
  | .node number _ _ _ => number

def kind : Tree → NodeKind
  | .node _ kind _ _ => kind

def token? : Tree → Option Token
  | .node _ _ token _ => token

def children : Tree → List Tree
  | .node _ _ _ children => children

def value? (tree : Tree) : Option String := tree.token?.map Token.value

mutual

def countFrom : Tree → Nat → Nat
  | .node _ _ _ children, counted => countAllFrom children (counted + 1)

def countAllFrom : List Tree → Nat → Nat
  | [], counted => counted
  | tree :: trees, counted => countAllFrom trees (countFrom tree counted)

end

def size (tree : Tree) : Nat := tree.countFrom 0

mutual

def numbersFrom : Tree → List Nat → List Nat
  | .node number _ _ children, done => numbersAllFrom children (number :: done)

def numbersAllFrom : List Tree → List Nat → List Nat
  | [], done => done
  | tree :: trees, done => numbersAllFrom trees (numbersFrom tree done)

end

def preorder (tree : Tree) : List Nat := (tree.numbersFrom []).reverse

mutual

def terminalsFrom : Tree → List Token → List Token
  | .node _ .binaryOp (some token) (first :: rest), done =>
    terminalsAllFrom rest (token :: terminalsFrom first done)
  | .node _ _ (some token) children, done => terminalsAllFrom children (token :: done)
  | .node _ _ none children, done => terminalsAllFrom children done

def terminalsAllFrom : List Tree → List Token → List Token
  | [], done => done
  | tree :: trees, done => terminalsAllFrom trees (terminalsFrom tree done)

end

def terminals (tree : Tree) : List Token := (tree.terminalsFrom []).reverse

def line (depth : Nat) (tree : Tree) : String :=
  String.ofList (List.replicate (2 * depth) ' ') ++ tree.kind.name ++
    (match tree.value? with
    | some value => " " ++ value
    | none => "")

mutual

def linesFrom (depth : Nat) : Tree → List String → List String
  | .node number kind token children, done =>
    linesAllFrom (depth + 1) children (line depth (.node number kind token children) :: done)

def linesAllFrom (depth : Nat) : List Tree → List String → List String
  | [], done => done
  | tree :: trees, done => linesAllFrom depth trees (linesFrom depth tree done)

end

def dump (tree : Tree) : String :=
  String.join ((tree.linesFrom 0 []).reverse.map (· ++ "\n"))

end Tree

end JackCompiler
