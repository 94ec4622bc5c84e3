import OpenCLTree.Syntax.Tree

namespace OpenCLTree

namespace Node

mutual

/-- A tree as nested lists, in front of `tail`: the name of a node, then its nodes in order,
each after its field. Tokens are left out. -/
def sexpBefore (tail : List Char) : Node → List Char
  | .mk kind _ children => '(' :: kind.name.toList ++ sexpOfChildren (')' :: tail) children

def sexpOfChildren (tail : List Char) : List Child → List Char
  | [] => tail
  | .token _ _ :: rest => sexpOfChildren tail rest
  | .node field inner :: rest =>
    let label := match field with
      | some field => field.text.toList ++ [':', ' ']
      | none => []
    ' ' :: label ++ inner.sexpBefore (sexpOfChildren tail rest)

end

def sexp (node : Node) : List Char :=
  node.sexpBefore []

end Node

def Tree.sexp (tree : Tree) : String :=
  String.ofList tree.root.sexp

end OpenCLTree
