import MigrationLint.Node.Basic

/-!
This module contains the outline of a tree of nodes: a line for every node, in pre-order, indented
by its depth, with its kind, its line and its roles. An outline may be cut to a range of lines of
the source; the nodes that stay keep their depth.
-/

namespace MigrationLint

namespace Node

mutual

def withDepth (depth : Nat) : Node → List (Nat × Node)
  | mk kind location text roles children =>
    (depth, mk kind location text roles children) :: withDepthOf (depth + 1) children

def withDepthOf (depth : Nat) : List Node → List (Nat × Node)
  | [] => []
  | n :: ns => n.withDepth depth ++ withDepthOf depth ns

end

theorem withDepth_eq (depth : Nat) (n : Node) :
    n.withDepth depth = (depth, n) :: withDepthOf (depth + 1) n.children := by
  cases n
  rfl

theorem withDepthOf_eq_flatMap (depth : Nat) (ns : List Node) :
    withDepthOf depth ns = ns.flatMap (withDepth depth) := by
  induction ns with
  | nil => rfl
  | cons n ns ih => simp [withDepthOf, ih]

def pendingSize (stack : List (Nat × Node)) : Nat :=
  sizes (stack.map (·.2))

/--
List the nodes of a tree in pre-order, each with its depth, with a stack of the trees that are still
to be listed.
-/
def depths (n : Node) : List (Nat × Node) :=
  go [(0, n)] #[]
where
  go (stack : List (Nat × Node)) (acc : Array (Nat × Node)) : List (Nat × Node) :=
    match stack with
    | [] => acc.toList
    | (depth, n) :: stack =>
      go (n.children.map (fun c => (depth + 1, c)) ++ stack) (acc.push (depth, n))
  termination_by pendingSize stack
  decreasing_by
    have := size_eq n
    simp only [pendingSize, List.map_append, List.map_map, List.map_cons, sizes, sizes_append]
    have : List.map ((fun x => x.snd) ∘ fun c => (depth + 1, c)) n.children = n.children := by
      simp [Function.comp_def]
    rw [this]
    omega

theorem depths.go_eq (stack : List (Nat × Node)) (acc : Array (Nat × Node)) :
    depths.go stack acc = acc.toList ++ stack.flatMap fun (depth, n) => n.withDepth depth := by
  fun_induction depths.go stack acc with
  | case1 => simp
  | case2 acc depth n stack ih =>
    rw [ih]
    simp [withDepth_eq depth n, withDepthOf_eq_flatMap, List.flatMap_map]

theorem depths_eq_withDepth (n : Node) : n.depths = n.withDepth 0 := by
  simp [depths, depths.go_eq]

def showRole (n : Node) (value : RoleValue) : String :=
  match n.target? value with
  | none => "None"
  | some (.text value) => value
  | some (.node target) => "<" ++ target.kind.name ++ ">" ++ target.text

def showRoles (n : Node) : String :=
  String.join (n.roles.map fun (name, value) => " " ++ name ++ "=" ++ n.showRole value)

def outlineLine (depth : Nat) (n : Node) : String :=
  String.ofList (List.replicate (2 * depth) ' ') ++ n.kind.name ++ " line=" ++ toString n.line ++
    n.showRoles

def isBetween (first last : Option Int) (line : Int) : Bool :=
  first.all (· ≤ line) && last.all (line ≤ ·)

def outline (n : Node) (first last : Option Int) : List String :=
  (n.depths.filter fun (_, m) => isBetween first last m.line).map fun (depth, m) =>
    m.outlineLine depth

end Node

end MigrationLint
