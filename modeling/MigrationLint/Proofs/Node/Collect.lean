import MigrationLint.Proofs.Node.Recorded

/-!
This module contains the proof that the loop over a stack of frames converts a tree as the
structural equation does. A stack of frames has an answer, which is given by recursion on the stack:
the parts that the top frame awaits are converted, its slot is filled, and its node goes to the
frame below it. No step of the loop changes the answer.
-/

namespace MigrationLint

namespace Node

open ParseTree

def visit (locals : List String) (parent : Option String) (t : ParseTree) : Visit :=
  ⟨t.type, (t.plan locals parent).kind⟩

def Trace.record (file : WideText) (locals : List String) (trace : Trace)
    (rows : List (Option String × ParseTree)) : Trace where
  slots := trace.slots ++ (rows.map fun (parent, t) => some (convert file locals parent t)).toArray
  visits := trace.visits ++ (rows.map fun (parent, t) => visit locals parent t).toArray

theorem Trace.record_nil (file : WideText) (locals : List String) (trace : Trace) :
    trace.record file locals [] = trace := by
  simp [record]

theorem Trace.record_append (file : WideText) (locals : List String) (trace : Trace)
    (before after : List (Option String × ParseTree)) :
    trace.record file locals (before ++ after) =
      (trace.record file locals before).record file locals after := by
  simp [record]

theorem Trace.fill_record_reserve {file : WideText} {locals : List String}
    {parent role : Option String} {t : ParseTree} (trace : Trace)
    (rows : List (Option String × ParseTree)) :
    ((trace.reserve (.enter locals parent role t trace.slots.size)).record file locals rows).fill
        trace.slots.size (convert file locals parent t) =
      trace.record file locals ((parent, t) :: rows) := by
  simp only [fill, record, reserve, mk.injEq]
  constructor
  . apply Array.ext'
    simp
  . apply Array.ext'
    simp [visit, Frame.enter]

def partRolesFrom (position : Nat) (parts : List (Option String × ParseTree)) :
    List (String × RoleValue) :=
  (parts.zipIdx position).filterMap fun ((role, _), position) =>
    role.map fun name => (name, .child position)

def Frame.finish (file : WideText) (locals : List String) (f : Frame) : Node :=
  .mk f.kind ⟨file, f.tree.line⟩ f.tree.text
    (f.roles.reverse ++ partRolesFrom f.childCount f.pending)
    (f.children.reverse ++ f.pending.map fun part =>
      convert file locals (some f.tree.type) part.2)

def Frame.awaited (locals : List String) (f : Frame) : List (Option String × ParseTree) :=
  f.pending.flatMap fun part => reached locals (some f.tree.type) part.2

def answer (file : WideText) (locals : List String) (top : Frame) (below : List Frame)
    (trace : Trace) : Node × Trace :=
  let node := top.finish file locals
  let trace := (trace.record file locals (top.awaited locals)).fill top.slot node
  match below with
  | [] => (node, trace)
  | parent :: below => answer file locals (parent.add top.role node) below trace

theorem finish_enter (file : WideText) (locals : List String) (parent role : Option String)
    (t : ParseTree) (slot : Nat) :
    (Frame.enter locals parent role t slot).finish file locals = convert file locals parent t := by
  rw [convert_eq]
  simp [Frame.enter, Frame.finish, partRolesFrom, partRoles]

theorem finish_add {file : WideText} {locals : List String} {f : Frame} {role : Option String}
    {t : ParseTree} {pending : List (Option String × ParseTree)}
    (h : f.pending = (role, t) :: pending) :
    (({ f with pending } : Frame).add role (convert file locals (some f.tree.type) t)).finish
        file locals =
      f.finish file locals := by
  cases role <;> simp [Frame.finish, Frame.add, partRolesFrom, h]

theorem record_awaited_add {file : WideText} {locals : List String} {f : Frame}
    {role : Option String} {t : ParseTree} {pending : List (Option String × ParseTree)}
    {trace : Trace} (h : f.pending = (role, t) :: pending) (node : Node) :
    (trace.record file locals (reached locals (some f.tree.type) t)).record file locals
        ((({ f with pending } : Frame).add role node).awaited locals) =
      trace.record file locals (f.awaited locals) := by
  rw [← Trace.record_append]
  simp [Frame.awaited, Frame.add, h]

theorem record_enter (file : WideText) (locals : List String) (above role : Option String)
    (t : ParseTree) (trace : Trace) :
    let frame := Frame.enter locals above role t trace.slots.size
    ((trace.reserve frame).record file locals (frame.awaited locals)).fill frame.slot
        (convert file locals above t) =
      trace.record file locals (reached locals above t) := by
  intro frame
  rw [reached_eq]
  apply Trace.fill_record_reserve

theorem answer_root (file : WideText) (locals : List String) (t : ParseTree) (trace : Trace) :
    let frame := Frame.enter locals none none t trace.slots.size
    answer file locals frame [] (trace.reserve frame) =
      (convert file locals none t, trace.record file locals (reached locals none t)) := by
  intro frame
  rw [answer, finish_enter, record_enter]

theorem answer_enter (file : WideText) (locals : List String) (above role : Option String)
    (t : ParseTree) (parent : Frame) (below : List Frame) (trace : Trace) :
    let frame := Frame.enter locals above role t trace.slots.size
    answer file locals frame (parent :: below) (trace.reserve frame) =
      answer file locals (parent.add role (convert file locals above t)) below
        (trace.record file locals (reached locals above t)) := by
  intro frame
  rw [answer, finish_enter, record_enter]
  rfl

theorem answer_push {file : WideText} {locals : List String} {top : Frame} {role : Option String}
    {t : ParseTree} {pending : List (Option String × ParseTree)}
    (h : top.pending = (role, t) :: pending) (below : List Frame) (trace : Trace) :
    let frame := Frame.enter locals (some top.tree.type) role t trace.slots.size
    answer file locals frame ({ top with pending } :: below) (trace.reserve frame) =
      answer file locals top below trace := by
  intro frame
  rw [answer_enter]
  unfold answer
  rw [finish_add h, record_awaited_add h]
  rfl

theorem finish_eq_build {file : WideText} {locals : List String} {f : Frame} (h : f.pending = []) :
    f.finish file locals = f.build file := by
  simp [Frame.finish, Frame.build, partRolesFrom, h]

theorem record_awaited_nil {file : WideText} {locals : List String} {f : Frame} {trace : Trace}
    (h : f.pending = []) : trace.record file locals (f.awaited locals) = trace := by
  simp [Frame.awaited, h, Trace.record_nil]

theorem run_eq_answer (file : WideText) (locals : List String) (top : Frame) (below : List Frame)
    (trace : Trace) : run file locals top below trace = answer file locals top below trace := by
  -- The induction is on the steps of the loop: a step that enters a part leaves the answer alone,
  -- and a step that leaves the top frame is the next step of the answer.
  fun_induction run file locals top below trace with
  | case1 top below trace role t pending h frame ih =>
    rw [ih]
    exact answer_push h below trace
  | case2 top trace h node filled =>
    rw [answer, finish_eq_build h, record_awaited_nil h]
  | case3 top trace h node filled parent below ih =>
    rw [ih]
    rw [answer.eq_def _ _ top, finish_eq_build h, record_awaited_nil h]

theorem collect_eq (file : WideText) (locals : List String) (t : ParseTree) (trace : Trace) :
    collect file locals t trace =
      if t.isTrivia then (none, trace)
      else
        (some (convert file locals none t),
          trace.record file locals (reached locals none t)) := by
  unfold collect
  split
  . rfl
  . simp only [run_eq_answer, answer_root]

theorem kind_convert (file : WideText) (locals : List String) (parent : Option String)
    (t : ParseTree) : (convert file locals parent t).kind = (t.plan locals parent).kind := by
  rw [convert_eq]
  rfl

theorem record_reached (file : WideText) (locals : List String) (t : ParseTree) (trace : Trace) :
    trace.record file locals (reached locals none t) =
      { slots := trace.slots ++ ((convert file locals none t).nodes.map some).toArray
        visits := trace.visits ++ ((t.convertedPlaces locals).map fun p =>
          ⟨p.row.type, (p.toNode file locals).kind⟩).toArray } := by
  rw [nodes_convert, reached_eq_convertedPlaces, Trace.record]
  simp [Function.comp_def, visit, Place.toNode, kind_convert]

/--
What the node of a place has to be, given its children by their places: a bare call has its text as
message and nothing else, and every other node has the roles that its row records and the children
that its row converts.
-/
def Matches (file : WideText) (locals : List String) (p : Place) (n : Node) : Prop :=
  if p.isBareCall locals then
    n = .mk .call ⟨file, p.row.line⟩ p.row.text [("message", .text p.row.text)] []
  else
    ∃ roles, p.row.RecordsRoles roles ∧
      n = .mk p.row.kind ⟨file, p.row.line⟩ p.row.text roles
        (p.row.converted.map fun (c, i) => Place.toNode file locals ⟨c, (p.row, i) :: p.above⟩)

theorem matches_toNode (file : WideText) (locals : List String) (p : Place) :
    Matches file locals p (p.toNode file locals) := by
  unfold Matches
  split
  . next h =>
    apply convert_bareCall
    rw [isBareCall_place, h]
  . next h =>
    refine ⟨_, p.row.recordsRoles_row, ?_⟩
    apply convert_row
    rw [isBareCall_place]
    exact h

/--
A root of a type that is skipped is dropped and nothing is appended. Otherwise the loop ends with
the node of the structural equation, and it appends the nodes of the tree in pre-order, one for each
converted place and with one visit each. The node of a place is what its row says, given the nodes
of the converted children.
-/
theorem collect_refines_convert (file : WideText) (locals : List String) (t : ParseTree)
    (trace : Trace) :
    if t.type ∈ ["comment", "heredoc_end", "uninterpreted"] then
      collect file locals t trace = (none, trace)
    else
      let root := convert file locals none t
      let places := t.convertedPlaces locals
      collect file locals t trace =
          (some root,
            { slots := trace.slots ++ (root.preorder.map some).toArray
              visits := trace.visits ++ (places.map fun p =>
                ⟨p.row.type, (p.toNode file locals).kind⟩).toArray })
        ∧ root.preorder = places.map (·.toNode file locals)
        ∧ ∀ p ∈ places,
            Matches file locals p (p.toNode file locals) ∧ (p.toNode file locals).OwnRoles := by
  split
  . next htype =>
    have htrivia : t.isTrivia := decide_eq_true htype
    rw [collect_eq, if_pos htrivia]
  . next htype =>
    have htrivia : ¬ t.isTrivia := by simpa [isTrivia, trivia] using htype
    refine ⟨?_, ?_, ?_⟩
    . rw [collect_eq, if_neg htrivia, record_reached, preorder_eq_nodes]
    . rw [preorder_eq_nodes]
      apply nodes_eq_convertedPlaces
    . intro p _
      exact ⟨matches_toNode file locals p, ownRoles_convert⟩

end Node

namespace ParseTree

def createTwice : ParseTree :=
  namedRow "program" "# roles; create; Role.create" none 0
    [namedRow "comment" "# roles" none 0 [],
     namedRow "identifier" "create" none 1 [],
     namedRow "call" "Role.create" none 2
      [namedRow "constant" "Role" (some "receiver") 2 [],
       namedRow "identifier" "create" (some "method") 2 []]]

end ParseTree

namespace Node

open ParseTree

theorem collect_createTwice :
    let root := convert "a.rb" [] none createTwice
    let bare : Place := ⟨namedRow "identifier" "create" none 1 [], [(createTwice, 1)]⟩
    (collect "a.rb" [] createTwice {}).1 = some root ∧ root.preorder.length = 4
      ∧ Matches "a.rb" [] bare (bare.toNode "a.rb" []) ∧ (bare.toNode "a.rb" []).OwnRoles := by
  intro root bare
  have hplace : (createTwice.convertedPlaces [])[1]? = some bare := rfl
  have hcollect := collect_refines_convert "a.rb" [] createTwice {}
  rw [if_neg (by decide)] at hcollect
  obtain ⟨hresult, hpreorder, hplaces⟩ := hcollect
  refine ⟨by rw [hresult], ?_, hplaces bare (List.mem_of_getElem? hplace)⟩
  rw [hpreorder, List.length_map]
  rfl

end Node

end MigrationLint
