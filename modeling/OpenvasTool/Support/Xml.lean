import OpenvasTool.Posix.Regex

/-!
# Parsed XML documents

The part of a parsed document that a reader of simple absolute paths and child
elements sees. A text node carries the text as the parser library reports it.
-/

namespace Xml

open Posix

/-- Element and text nodes. -/
inductive Node where
  | element (name : Text) (attrs : List (Text × Text)) (children : List Node) : Node
  | text (content : Text) : Node

namespace Node

/-- The node is an element with this name. -/
def isElement (name : Text) : Node → Bool
  | element n _ _ => n == name
  | text _ => false

def children : Node → List Node
  | element _ _ cs => cs
  | text _ => []

/-- The value of an attribute. -/
def attr (name : Text) : Node → Option Text
  | element _ as _ => as.lookup name
  | text _ => none

/-- The concatenated text nodes directly below an element. -/
def directText (node : Node) : Text :=
  node.children.flatMap fun
    | text content => content
    | element _ _ _ => []

/-- The nodes at an absolute path, given by its element names from the root on. -/
def select : List Text → Node → List Node
  | [], _ => []
  | name :: path, node =>
      if node.isElement name then
        if path.isEmpty then [node] else node.children.flatMap (select path)
      else []

end Node

end Xml
