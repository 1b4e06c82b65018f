import MigrationLint.Node.Basic
import MigrationLint.ParseTree.Locals

/-!
This module contains the conversion of parse trees to nodes. Every row that is converted becomes one
node; anonymous rows, trivia and the row that names the message of a call are dropped. An identifier
that stands as a statement and is no local becomes a call without anything else.

The conversion is given as a structural equation, `Node.convert`, and as a loop over a stack of
frames that reserves a slot for every node when it is reached and fills it when its children are
done.
-/

namespace MigrationLint

namespace ParseTree

def trivia : List String := ["comment", "heredoc_end", "uninterpreted"]

def isTrivia (t : ParseTree) : Bool := t.type ∈ trivia

/--
The kinds of nodes by the types of rows. Assignments are told apart by their left side.
-/
def kindTable : List (String × NodeKind) :=
  [("program", .program),
   ("call", .call),
   ("operator_assignment", .operatorAssign),
   ("identifier", .localVar),
   ("instance_variable", .instanceVar),
   ("class_variable", .classVar),
   ("global_variable", .globalVar),
   ("constant", .constant),
   ("scope_resolution", .scopedConstant),
   ("self", .selfReference),
   ("nil", .nilLiteral),
   ("true", .trueLiteral),
   ("false", .falseLiteral),
   ("integer", .number),
   ("float", .number),
   ("rational", .number),
   ("complex", .number),
   ("simple_symbol", .symbol),
   ("hash_key_symbol", .symbol),
   ("delimited_symbol", .symbol),
   ("string", .string),
   ("argument_list", .argumentList),
   ("hash", .hash),
   ("pair", .pair),
   ("array", .array),
   ("block", .block),
   ("do_block", .block),
   ("block_parameters", .parameters),
   ("method_parameters", .parameters),
   ("body_statement", .body),
   ("block_body", .body),
   ("class", .classDefinition),
   ("module", .moduleDefinition),
   ("method", .methodDefinition),
   ("singleton_method", .singletonDefinition),
   ("if", .ifBranch),
   ("if_modifier", .ifBranch),
   ("unless", .unlessBranch),
   ("unless_modifier", .unlessBranch),
   ("while", .whileLoop),
   ("while_modifier", .whileLoop),
   ("until", .untilLoop),
   ("until_modifier", .untilLoop),
   ("case", .caseBranch),
   ("return", .returnJump)]

def assignmentTable : List (String × NodeKind) :=
  [("identifier", .localAssign),
   ("instance_variable", .instanceAssign),
   ("class_variable", .classVarAssign),
   ("global_variable", .globalAssign),
   ("constant", .constAssign),
   ("scope_resolution", .constAssign),
   ("call", .attributeAssign),
   ("element_reference", .attributeAssign),
   ("left_assignment_list", .multipleAssign)]

def kind (t : ParseTree) : NodeKind :=
  if t.type = "assignment" then
    ((t.child? "left").bind fun left => assignmentTable.lookup left.type).getD .unknown
  else
    (kindTable.lookup t.type).getD .unknown

def assignmentFields : List (String × String) :=
  [("left", "left_value"), ("right", "right_value")]

def fieldsOfKind : NodeKind → List (String × String)
  | .call => [("receiver", "subject"), ("arguments", "arguments"), ("block", "block")]
  | .operatorAssign => [("left", "left_value"), ("right", "right_value")]
  | .classDefinition => [("name", "name"), ("superclass", "superclass"), ("body", "body")]
  | .moduleDefinition => [("name", "name"), ("body", "body")]
  | .methodDefinition => [("name", "name"), ("parameters", "parameters"), ("body", "body")]
  | .singletonDefinition =>
    [("object", "subject"), ("name", "name"), ("parameters", "parameters"), ("body", "body")]
  | .ifBranch | .unlessBranch =>
    [("condition", "condition"), ("consequence", "consequence"), ("alternative", "alternative")]
  | .whileLoop | .untilLoop => [("condition", "condition"), ("body", "body")]
  | .pair => [("key", "key"), ("value", "value")]
  | .scopedConstant => [("scope", "scope"), ("name", "name")]
  | _ => []

def fields (t : ParseTree) : List (String × String) :=
  if t.type = "assignment" then assignmentFields else fieldsOfKind t.kind

/--
Pair each tree with its field, unless a tree before it has that field, too.
-/
def leads (seen : List String) : List ParseTree → List (Option String × ParseTree)
  | [] => []
  | c :: cs =>
    match c.field with
    | none => (none, c) :: leads seen cs
    | some field =>
      if field ∈ seen then (none, c) :: leads seen cs
      else (some field, c) :: leads (field :: seen) cs

def isPart (kind : NodeKind) (lead : Option String) (c : ParseTree) : Bool :=
  c.isNamed && !c.isTrivia && !(kind == .call && lead == some "method")

def parts (t : ParseTree) : List (Option String × ParseTree) :=
  (leads [] t.children).filterMap fun (lead, c) =>
    if isPart t.kind lead c then some (lead.bind fun field => t.fields.lookup field, c) else none

/--
Get the message of a row that is a call. A call without a method is sugar for `call`.
-/
def message (t : ParseTree) : String :=
  match t.child? "method" with
  | some method => method.text
  | none => "call"

def isOperator (t : ParseTree) : Bool :=
  !t.isNamed && t.text.toList.getLast? == some '='

def textRoles (t : ParseTree) : List (String × RoleValue) :=
  match t.kind with
  | .call => [("message", .text t.message)]
  | .operatorAssign =>
    match t.children.find? isOperator with
    | some operator => [("operator", .text operator.text)]
    | none => [("operator", .absent)]
  | _ => []

def statementContainers : List String :=
  ["program", "body_statement", "block_body", "then", "else", "do", "begin", "ensure",
   "parenthesized_statements"]

/--
Check whether a row is a call that consists of its name alone, given the type of its parent and the
names of the locals.
-/
def isBareCall (locals : List String) (parent : Option String) (t : ParseTree) : Bool :=
  t.kind == .localVar && parent.any (· ∈ statementContainers) && !(t.text ∈ locals)

/--
What a row contributes to the node that it becomes: kind, roles filled with texts, and the children
that are converted with the roles that they fill.
-/
structure Plan where
  kind : NodeKind
  textRoles : List (String × RoleValue)
  parts : List (Option String × ParseTree)

def plan (locals : List String) (parent : Option String) (t : ParseTree) : Plan :=
  if t.isBareCall locals parent then ⟨.call, [("message", .text t.text)], []⟩
  else ⟨t.kind, t.textRoles, t.parts⟩

def partSizes (parts : List (Option String × ParseTree)) : Nat :=
  sizes (parts.map (·.2))

theorem leads_map_snd (seen : List String) (cs : List ParseTree) :
    (leads seen cs).map (·.2) = cs := by
  induction cs generalizing seen with
  | nil => rfl
  | cons c cs ih =>
    unfold leads
    split
    . simp [ih]
    . split <;> simp [ih]

theorem partSizes_filterMap_le (f : Option String × ParseTree → Option String)
    (p : Option String × ParseTree → Bool) (cs : List (Option String × ParseTree)) :
    partSizes (cs.filterMap fun c => if p c then some (f c, c.2) else none) ≤ partSizes cs := by
  induction cs with
  | nil => simp [partSizes, sizes]
  | cons c cs ih =>
    simp only [partSizes] at ih ⊢
    simp only [List.filterMap_cons]
    split
    . simp only [List.map_cons, sizes]
      omega
    . rename_i b h
      split at h
      . cases h
        simp only [List.map_cons, sizes]
        omega
      . cases h

theorem partSizes_parts_le (t : ParseTree) : partSizes t.parts ≤ sizes t.children := by
  have h := partSizes_filterMap_le (fun c => c.1.bind fun field => t.fields.lookup field)
    (fun c => isPart t.kind c.1 c.2) (leads [] t.children)
  have e : partSizes (leads [] t.children) = sizes t.children := by
    rw [partSizes, leads_map_snd]
  rw [e] at h
  exact h

theorem partSizes_plan_lt (locals : List String) (parent : Option String) (t : ParseTree) :
    partSizes (t.plan locals parent).parts < t.size := by
  have := partSizes_parts_le t
  rw [size_eq]
  unfold plan
  split
  . simp only [partSizes, List.map_nil, sizes]
    omega
  . simp only
    omega

theorem size_lt_of_mem_parts {locals : List String} {parent : Option String} {t : ParseTree}
    {part : Option String × ParseTree} (h : part ∈ (t.plan locals parent).parts) :
    part.2.size < t.size := by
  have h₁ := partSizes_plan_lt locals parent t
  have h₂ : part.2.size ≤ partSizes (t.plan locals parent).parts :=
    size_le_sizes (List.mem_map_of_mem h)
  omega

end ParseTree

namespace Node

def partRoles (parts : List (Option String × ParseTree)) : List (String × RoleValue) :=
  parts.zipIdx.filterMap fun ((role, _), position) => role.map fun name => (name, .child position)

def convert (file : WideText) (locals : List String) (parent : Option String) (t : ParseTree) :
    Node :=
  let plan := t.plan locals parent
  .mk plan.kind ⟨file, t.line⟩ t.text (plan.textRoles ++ partRoles plan.parts)
    (plan.parts.attach.map fun ⟨part, _⟩ => convert file locals (some t.type) part.2)
termination_by t.size
decreasing_by exact ParseTree.size_lt_of_mem_parts ‹_›

theorem convert_eq (file : WideText) (locals : List String) (parent : Option String)
    (t : ParseTree) :
    convert file locals parent t =
      .mk (t.plan locals parent).kind ⟨file, t.line⟩ t.text
        ((t.plan locals parent).textRoles ++ partRoles (t.plan locals parent).parts)
        ((t.plan locals parent).parts.map fun part =>
          convert file locals (some t.type) part.2) := by
  rw [convert]
  congr 1
  exact List.attach_map_val (f := fun (part : Option String × ParseTree) =>
    convert file locals (some t.type) part.2)

/--
A node whose children are still being converted: its row, the role that it will fill, the kind, the
slot that is reserved for it, the roles and children so far, last first, and the parts to come.
-/
structure Frame where
  tree : ParseTree
  role : Option String
  kind : NodeKind
  slot : Nat
  roles : List (String × RoleValue)
  children : List Node
  childCount : Nat
  pending : List (Option String × ParseTree)

/--
A row was reached: its type and the kind of its node.
-/
structure Visit where
  type : String
  kind : NodeKind
  deriving DecidableEq, Repr

def Visit.render (v : Visit) : String :=
  "VISITING: " ++ v.type ++ " -> " ++ v.kind.name

/--
What a conversion collects: a slot for every node in the order in which the rows were reached, and
the visits.
-/
structure Trace where
  slots : Array (Option Node) := #[]
  visits : Array Visit := #[]

def Frame.enter (locals : List String) (parent role : Option String) (t : ParseTree) (slot : Nat) :
    Frame :=
  let plan := t.plan locals parent
  ⟨t, role, plan.kind, slot, plan.textRoles.reverse, [], 0, plan.parts⟩

def Frame.add (f : Frame) (role : Option String) (child : Node) : Frame :=
  let roles :=
    match role with
    | some name => (name, .child f.childCount) :: f.roles
    | none => f.roles
  { f with roles, children := child :: f.children, childCount := f.childCount + 1 }

def Frame.build (file : WideText) (f : Frame) : Node :=
  .mk f.kind ⟨file, f.tree.line⟩ f.tree.text f.roles.reverse f.children.reverse

def Trace.reserve (trace : Trace) (f : Frame) : Trace :=
  { slots := trace.slots.push none, visits := trace.visits.push ⟨f.tree.type, f.kind⟩ }

def Trace.fill (trace : Trace) (slot : Nat) (n : Node) : Trace :=
  { trace with slots := trace.slots.setIfInBounds slot (some n) }

def Frame.work (f : Frame) : Nat :=
  1 + 2 * ParseTree.partSizes f.pending

def workOf : List Frame → Nat
  | [] => 0
  | f :: fs => f.work + workOf fs

theorem Frame.work_enter_lt (locals : List String) (parent role : Option String) (t : ParseTree)
    (slot : Nat) : (Frame.enter locals parent role t slot).work < 2 * t.size := by
  have := ParseTree.partSizes_plan_lt locals parent t
  simp only [Frame.work, Frame.enter]
  omega

@[simp]
theorem Frame.work_add (f : Frame) (role : Option String) (child : Node) :
    (f.add role child).work = f.work := rfl

/--
Convert what the frames of a stack still await, and return the node of the lowest frame.
-/
def run (file : WideText) (locals : List String) (top : Frame) (below : List Frame)
    (trace : Trace) : Node × Trace :=
  match _h : top.pending with
  | (role, t) :: pending =>
    let frame := Frame.enter locals (some top.tree.type) role t trace.slots.size
    run file locals frame ({ top with pending } :: below) (trace.reserve frame)
  | [] =>
    let node := top.build file
    let trace := trace.fill top.slot node
    match below with
    | [] => (node, trace)
    | parent :: below => run file locals (parent.add top.role node) below trace
termination_by top.work + workOf below
decreasing_by
  . have := Frame.work_enter_lt locals (some top.tree.type) role t trace.slots.size
    simp only [workOf, Frame.work, _h, ParseTree.partSizes, List.map_cons, ParseTree.sizes]
      at this ⊢
    omega
  . simp only [workOf, Frame.work_add]
    have : 0 < top.work := by simp only [Frame.work]; omega
    omega

/--
Convert a tree onto what has been collected, unless its root is dropped.
-/
def collect (file : WideText) (locals : List String) (t : ParseTree) (trace : Trace) :
    Option Node × Trace :=
  if t.isTrivia then (none, trace)
  else
    let frame := Frame.enter locals none none t trace.slots.size
    let (node, trace) := run file locals frame [] (trace.reserve frame)
    (some node, trace)

def ofParseTree (file : WideText) (t : ParseTree) : Option Node × Trace :=
  collect file t.localNames t {}

end Node

end MigrationLint
