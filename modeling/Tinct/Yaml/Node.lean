import Tinct.Yaml.Token

/-! The tree of a document: scalars, lists and mappings with their tags. An alias stands for the node that its
anchor names, so a tree has no aliases; a node that would contain itself is refused. -/
namespace Tinct.Yaml

inductive Node where
  | scalar (tag : Option String) (plain : Bool) (text : String)
  | list (tag : Option String) (items : List Node)
  | map (tag : Option String) (entries : List (Node × Node))
  deriving Inhabited, Repr

namespace Node

def empty : Node := .scalar none true ""

end Node
end Tinct.Yaml
