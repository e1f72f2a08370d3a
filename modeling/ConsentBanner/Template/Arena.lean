import ConsentBanner.Template.Basic

/-!
A forest of components as a table: the components in document order, each with its parent, depth and
children.
-/

namespace ConsentBanner

/-- A component with its links; components are named by their places in document order. -/
structure ArenaNode where
  index : Nat
  component : Component
  parent : Option Nat
  depth : Nat
  children : List Nat := []
deriving Repr

def ArenaNode.data (n : ArenaNode) : ComponentData := n.component.data

/-- The components of a forest in document order, and the place of the first one with each identifier. -/
structure Arena where
  nodes : List ArenaNode := []
  roots : List Nat := []
  byId : List (String × Nat) := []
deriving Repr

namespace Arena

def size (a : Arena) : Nat := a.nodes.length

/-- Adds a component at the end of the table. -/
def add (a : Arena) (c : Component) (parent : Option Nat) (depth : Nat) : Arena :=
  { a with
    nodes := a.nodes ++ [{ index := a.size, component := c, parent := parent, depth := depth }]
    byId := Fields.setDefault c.data.id a.size a.byId }

/-- Names a component among the children of its parent, or among the roots. -/
def link (a : Arena) (index : Nat) : Option Nat → Arena
  | none => { a with roots := a.roots ++ [index] }
  | some parent =>
    { a with nodes := a.nodes.modify parent fun n => { n with children := n.children ++ [index] } }

/-- Enters a component under a parent, at a depth. The components inside it come under the component itself. -/
def visit (a : Arena) (c : Component) : Option Nat × Nat → Arena × Option Nat × Nat
  | (parent, depth) => ((a.add c parent depth).link a.size parent, some a.size, depth + 1)

def ofComponents (components : List Component) : Arena :=
  Component.walk visit (Component.push (none, 0) components []) {}

/-- The first component with an identifier. -/
def find? (a : Arena) (id : String) : Option ArenaNode := (Fields.get? id a.byId).bind (a.nodes[·]?)

def childrenOf (a : Arena) (index : Nat) : List ArenaNode :=
  match a.nodes[index]? with
  | some n => n.children.filterMap (a.nodes[·]?)
  | none => []

def maxDepth (a : Arena) : Nat := a.nodes.foldl (fun depth n => max depth n.depth) 0

/-- The components with an action of the given name. -/
def findActions (a : Arena) (name : String) : List ArenaNode :=
  a.nodes.filter fun n => Named.name n.data.action.kind == name

end Arena

end ConsentBanner
