import MigrationLint.Node.Kind
import MigrationLint.Text.Quoted

/-!
This module contains the nodes that rules work on. A node has a kind, a place in its file, a text,
children in the order of the source, and roles: a role is filled by a text, by one of the children,
which it names by position, or by a node that stands apart from the tree. The nodes of a tree are
listed in pre-order by a structural recursion and by a loop over a stack, and the two lists are the
same.
-/

namespace MigrationLint

/--
A place in a file.
-/
structure Location where
  file : WideText
  line : Int
  deriving DecidableEq, Repr, Inhabited

def Location.render (l : Location) : WideText :=
  l.file ++ ":" ++ toString l.line

mutual

/--
What fills a role: a text, the child at a position, a node that stands apart from the children, or
nothing although the role is recorded.
-/
inductive RoleValue where
  | text (value : String)
  | child (position : Nat)
  | apart (node : Node)
  | absent

/--
An element of a program.
-/
inductive Node where
  | mk (kind : NodeKind) (location : Location) (text : String)
      (roles : List (String × RoleValue)) (children : List Node)

end

deriving instance Repr for RoleValue, Node

namespace Node

def kind : Node → NodeKind
  | mk kind _ _ _ _ => kind

def location : Node → Location
  | mk _ location _ _ _ => location

def text : Node → String
  | mk _ _ text _ _ => text

def roles : Node → List (String × RoleValue)
  | mk _ _ _ roles _ => roles

def children : Node → List Node
  | mk _ _ _ _ children => children

def line (n : Node) : Int := n.location.line

/--
A kind was asked for a role that its nodes never fill.
-/
structure ForeignRole where
  kind : NodeKind
  role : String
  deriving DecidableEq, Repr

def ForeignRole.message (e : ForeignRole) : String :=
  "node kind '" ++ e.kind.name ++ "' has no '" ++ e.role ++ "' role"

/--
What a role leads to.
-/
inductive Target where
  | text (value : String)
  | node (target : Node)
  deriving Repr

def Target.show : Target → String
  | text value => value
  | node target => target.text

def target? (n : Node) : RoleValue → Option Target
  | .text value => some (.text value)
  | .child position => n.children[position]?.map .node
  | .apart node => some (.node node)
  | .absent => none

/--
Ask a node for what fills a role. A role that the kind does not have is an error; a role that the
kind has and the node does not fill is `none`.
-/
def role (n : Node) (name : String) : Except ForeignRole (Option Target) :=
  if name ∈ n.kind.roles then .ok ((n.roles.lookup name).bind n.target?)
  else .error ⟨n.kind, name⟩

def describe (n : Node) : String :=
  "Node(" ++ n.kind.name ++ ", line=" ++ toString n.line ++ ", text=" ++ quoted n.text ++ ")"

mutual

def size : Node → Nat
  | mk _ _ _ _ children => 1 + sizes children

def sizes : List Node → Nat
  | [] => 0
  | n :: ns => n.size + sizes ns

end

theorem size_eq (n : Node) : n.size = 1 + sizes n.children := by
  cases n
  rfl

@[simp]
theorem sizes_append (ns ms : List Node) : sizes (ns ++ ms) = sizes ns + sizes ms := by
  induction ns with
  | nil => simp [sizes]
  | cons n ns ih => simp only [List.cons_append, sizes, ih]; omega

mutual

def nodes : Node → List Node
  | mk kind location text roles children => mk kind location text roles children :: nodesOf children

def nodesOf : List Node → List Node
  | [] => []
  | n :: ns => n.nodes ++ nodesOf ns

end

theorem nodes_eq (n : Node) : n.nodes = n :: nodesOf n.children := by
  cases n
  rfl

theorem nodesOf_eq_flatMap (ns : List Node) : nodesOf ns = ns.flatMap nodes := by
  induction ns with
  | nil => rfl
  | cons n ns ih => simp [nodesOf, ih]

def preorder (n : Node) : List Node :=
  go [n] #[]
where
  go (stack : List Node) (acc : Array Node) : List Node :=
    match stack with
    | [] => acc.toList
    | n :: stack => go (n.children ++ stack) (acc.push n)
  termination_by sizes stack
  decreasing_by
    have := size_eq n
    simp only [sizes, sizes_append]
    omega

theorem preorder.go_eq (stack : List Node) (acc : Array Node) :
    preorder.go stack acc = acc.toList ++ stack.flatMap nodes := by
  fun_induction preorder.go stack acc with
  | case1 => simp
  | case2 acc n stack ih =>
    rw [ih]
    simp [nodes_eq n, nodesOf_eq_flatMap]

theorem preorder_eq_nodes (n : Node) : n.preorder = n.nodes := by
  simp [preorder, preorder.go_eq]

end Node

end MigrationLint
