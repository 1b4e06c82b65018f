import MigrationLint.Proofs.Node.Address

/-!
This module contains what an outline says about a tree. The depth, the kind, the line and the roles
of a node are read off its line, and there is only one shape of a tree with given depths in
pre-order. So an outline that is not cut determines the tree, as far as it is shown.
-/

namespace MigrationLint

namespace NodeKind

theorem ofName?_name (k : NodeKind) : ofName? k.name = some k := by
  cases k <;> rfl

theorem name_inj {k l : NodeKind} : k.name = l.name ↔ k = l := by
  constructor
  . intro h
    have hsome : some k = some l := by rw [← ofName?_name k, ← ofName?_name l, h]
    exact Option.some.inj hsome
  . rintro rfl
    rfl

theorem space_notMem_name (k : NodeKind) : ' ' ∉ k.name.toList := by
  cases k <;> decide

theorem toList_name_ne_nil (k : NodeKind) : k.name.toList ≠ [] := by
  cases k <;> decide

end NodeKind

theorem notMem_repr {c : Char} (h : ¬ c.isDigit) (n : Nat) : c ∉ n.repr.toList := by
  intro hc
  rw [Nat.toList_repr] at hc
  exact h (Nat.isDigit_of_mem_toDigits (by decide) (by decide) hc)

theorem space_notMem_toString (i : Int) : ' ' ∉ (toString i).toList := by
  have hdigits (n : Nat) : ' ' ∉ n.repr.toList := notMem_repr (by decide) n
  rw [Int.toString_eq_repr, Int.repr_eq_if]
  split
  . exact hdigits _
  . rw [String.toList_append, List.mem_append, not_or]
    exact ⟨by decide, hdigits _⟩

theorem natRepr_inj {m n : Nat} : m.repr = n.repr ↔ m = n := by
  constructor
  . intro h
    have hdigits := congrArg (fun text => Nat.ofDigitChars 10 text.toList 0) h
    simpa [Nat.toList_repr] using hdigits
  . rintro rfl
    rfl

theorem toString_inj {i j : Int} : toString i = toString j ↔ i = j := by
  -- A sign is no digit, so texts of different signs differ.
  have hsign (m n : Nat) : m.repr ≠ "-" ++ n.repr := by
    intro h
    apply notMem_repr (c := '-') (by decide) m
    simp [h]
  simp only [Int.toString_eq_repr, Int.repr_eq_if]
  split <;> split
  . rw [natRepr_inj]
    omega
  . simp only [hsign, false_iff]
    omega
  . simp only [(hsign _ _).symm, false_iff]
    omega
  . rw [String.append_right_inj, natRepr_inj]
    omega

namespace Node

/--
Two nodes have the same kind, line and roles, as far as these are shown.
-/
structure SameLine (n m : Node) : Prop where
  kind_eq : n.kind = m.kind
  line_eq : n.line = m.line
  showRoles_eq : n.showRoles = m.showRoles

/--
Two trees have the same shape, and the same line at every node.
-/
inductive SameSkeleton : Node → Node → Prop where
  | mk {n m : Node} (line : n.SameLine m)
      (children : List.Forall₂ SameSkeleton n.children m.children) : SameSkeleton n m

def outlineLabel (n : Node) : List Char :=
  n.kind.name.toList ++
    ' ' :: ("line=".toList ++ ((toString n.line).toList ++ n.showRoles.toList))

theorem toList_outlineLine (depth : Nat) (n : Node) :
    (n.outlineLine depth).toList = List.replicate (2 * depth) ' ' ++ n.outlineLabel := by
  simp [outlineLine, outlineLabel]

theorem head?_showRoles (n : Node) : ∀ c ∈ n.showRoles.toList.head?, c = ' ' := by
  intro c hc
  rw [showRoles, String.toList_join] at hc
  cases hroles : n.roles with
  | nil => simp [hroles] at hc
  | cons role roles => simpa [hroles, eq_comm] using hc

theorem outlineLabel_inj {n m : Node} : n.outlineLabel = m.outlineLabel ↔ n.SameLine m := by
  rw [outlineLabel, outlineLabel,
    append_cons_inj_of_notMem n.kind.space_notMem_name m.kind.space_notMem_name,
    List.append_cancel_left_eq,
    append_inj_of_notMem (space_notMem_toString _) (space_notMem_toString _) n.head?_showRoles
      m.head?_showRoles,
    String.toList_inj, NodeKind.name_inj, String.toList_inj, String.toList_inj,
    toString_inj]
  exact ⟨fun ⟨hkind, hline, hroles⟩ => ⟨hkind, hline, hroles⟩,
    fun ⟨hkind, hline, hroles⟩ => ⟨hkind, hline, hroles⟩⟩

theorem takeWhile_outlineLine (depth : Nat) (n : Node) :
    (n.outlineLine depth).toList.takeWhile (· = ' ') = List.replicate (2 * depth) ' ' := by
  have hname := n.kind.space_notMem_name
  rw [toList_outlineLine, outlineLabel, List.takeWhile_append_of_pos (by simp)]
  cases h : n.kind.name.toList with
  | nil => exact absurd h n.kind.toList_name_ne_nil
  | cons c cs =>
    rw [h, List.mem_cons, not_or] at hname
    rw [List.cons_append, List.takeWhile_cons_of_neg (by simpa [eq_comm] using hname.1),
      List.append_nil]

theorem outlineLine_inj {depth other : Nat} {n m : Node} :
    n.outlineLine depth = m.outlineLine other ↔ depth = other ∧ n.SameLine m := by
  constructor
  . intro h
    have hblanks := congrArg (fun line : String => line.toList.takeWhile (· = ' ')) h
    simp only [takeWhile_outlineLine, List.replicate_inj, or_true, and_true] at hblanks
    obtain rfl : depth = other := by omega
    have hlabel := congrArg String.toList h
    rw [toList_outlineLine, toList_outlineLine, List.append_cancel_left_eq] at hlabel
    exact ⟨rfl, outlineLabel_inj.1 hlabel⟩
  . rintro ⟨rfl, h⟩
    rw [← String.toList_inj, toList_outlineLine, toList_outlineLine, outlineLabel_inj.2 h]

/--
Two nodes that stand at the same depth have the same line.
-/
def SameEntry (e f : Nat × Node) : Prop :=
  e.1 = f.1 ∧ e.2.SameLine f.2

mutual

theorem SameSkeleton.forall₂_withDepth (depth : Nat) :
    ∀ {n m : Node}, n.SameSkeleton m →
      List.Forall₂ SameEntry (n.withDepth depth) (m.withDepth depth)
  | .mk kind location text roles children, m, .mk hline hchildren => by
    rw [withDepth, withDepth_eq depth m]
    exact .cons ⟨rfl, hline⟩ (forall₂_withDepthOf (depth + 1) hchildren)

theorem SameSkeleton.forall₂_withDepthOf (depth : Nat) :
    ∀ {ns ms : List Node}, List.Forall₂ SameSkeleton ns ms →
      List.Forall₂ SameEntry (withDepthOf depth ns) (withDepthOf depth ms)
  | [], _, .nil => .nil
  | n :: ns, _, .cons hn hns => by
    rw [withDepthOf, withDepthOf]
    exact List.rel_append (forall₂_withDepth depth hn) (forall₂_withDepthOf depth hns)

end

/--
The entries start above a depth, so that the nodes at this depth have ended before them.
-/
def EndsLevel (depth : Nat) (entries : List (Nat × Node)) : Prop :=
  ∀ e ∈ entries.head?, e.1 < depth

theorem endsLevel_append {depth : Nat} {ns : List Node} {rest : List (Nat × Node)}
    (h : EndsLevel depth rest) : EndsLevel (depth + 1) (withDepthOf depth ns ++ rest) := by
  cases ns with
  | nil => exact fun e he => Nat.lt_succ_of_lt (h e he)
  | cons n ns =>
    intro e he
    rw [withDepthOf, withDepth_eq] at he
    cases he
    exact Nat.lt_succ_self depth

theorem sameSkeleton_of_withDepthOf {depth : Nat} {ns ms : List Node}
    {rest others : List (Nat × Node)}
    (hrest : EndsLevel depth rest) (hothers : EndsLevel depth others)
    (h : List.Forall₂ SameEntry (withDepthOf depth ns ++ rest) (withDepthOf depth ms ++ others)) :
    List.Forall₂ SameSkeleton ns ms ∧ List.Forall₂ SameEntry rest others := by
  match ns, ms with
  | [], [] => exact ⟨.nil, h⟩
  | [], m :: ms =>
    rw [withDepthOf, withDepthOf, withDepth_eq] at h
    cases h with
    | cons hentry => exact absurd hentry.1 (Nat.ne_of_lt (hrest _ rfl))
  | n :: ns, [] =>
    rw [withDepthOf, withDepthOf, withDepth_eq] at h
    cases h with
    | cons hentry => exact absurd hentry.1.symm (Nat.ne_of_lt (hothers _ rfl))
  | n :: ns, m :: ms =>
    rw [withDepthOf, withDepthOf, withDepth_eq, withDepth_eq, List.append_assoc,
      List.append_assoc] at h
    cases h with
    | cons hentry h =>
      -- The children end with the first entry that is no deeper than their parent.
      obtain ⟨hchildren, h⟩ :=
        sameSkeleton_of_withDepthOf (endsLevel_append hrest) (endsLevel_append hothers) h
      obtain ⟨hns, h⟩ := sameSkeleton_of_withDepthOf hrest hothers h
      exact ⟨.cons (.mk hentry.2 hchildren) hns, h⟩
termination_by sizes ns
decreasing_by
  . rw [sizes, size_eq]
    omega
  . rw [sizes, size_eq]
    omega

theorem sameSkeleton_iff_forall₂ {n m : Node} :
    n.SameSkeleton m ↔ List.Forall₂ SameEntry n.depths m.depths := by
  rw [depths_eq_withDepth, depths_eq_withDepth]
  constructor
  . exact SameSkeleton.forall₂_withDepth 0
  . intro h
    have hends : EndsLevel 0 [] := nofun
    have hforest : List.Forall₂ SameEntry (withDepthOf 0 [n] ++ []) (withDepthOf 0 [m] ++ []) := by
      simpa [withDepthOf] using h
    obtain ⟨hskeletons, _⟩ := sameSkeleton_of_withDepthOf hends hends hforest
    exact (List.forall₂_cons.1 hskeletons).1

theorem isBetween_iff {first last : Option Int} {line : Int} :
    isBetween first last line ↔ (∀ l ∈ first, l ≤ line) ∧ ∀ l ∈ last, line ≤ l := by
  cases first <;> cases last <;> simp [isBetween]

theorem outline_none (n : Node) :
    n.outline none none = n.depths.map fun (depth, m) => m.outlineLine depth := by
  rw [outline, List.filter_eq_self.2 (by simp [isBetween])]

theorem outline_eq_iff {n m : Node} :
    n.outline none none = m.outline none none ↔ n.SameSkeleton m := by
  rw [outline_none, outline_none, ← List.forall₂_eq_eq_eq, List.forall₂_map_left_iff,
    List.forall₂_map_right_iff, sameSkeleton_iff_forall₂]
  simp only [outlineLine_inj]
  rfl

/--
An outline has the lines of the nodes between its limits, wherever they stand, in pre-order. Each is
indented by the depth of its node in the whole tree, and all lines together determine the shape of
the tree and what is shown of each node.
-/
theorem outline_faithful (n : Node) :
    ∃ entries : List (List Nat × Node), n.ListedAs entries ∧ entries.map (·.2) = n.preorder
      ∧ n.outline none none = entries.map (fun (address, m) => m.outlineLine address.length)
      ∧ (∀ e ∈ entries, (e.2.outlineLine e.1.length).toList.takeWhile (· = ' ') =
          List.replicate (2 * e.1.length) ' ')
      ∧ (∀ first last : Option Int, n.outline first last =
          (entries.filter fun (_, m) => (∀ l ∈ first, l ≤ m.line) ∧ ∀ l ∈ last, m.line ≤ l).map
            fun (address, m) => m.outlineLine address.length)
      ∧ ∀ m : Node, n.outline none none = m.outline none none ↔ n.SameSkeleton m := by
  refine ⟨n.withAddress, n.listedAs_withAddress, n.withAddress_map_snd, ?_, ?_, ?_, ?_⟩
  . rw [outline_none, depths_eq_withAddress, List.map_map]
    rfl
  . exact fun e _ => takeWhile_outlineLine e.1.length e.2
  . intro first last
    rw [outline, depths_eq_withAddress, List.filter_map, List.map_map]
    congr 1
    apply List.filter_congr
    intro e _
    rw [Bool.eq_iff_iff, decide_eq_true_iff]
    exact isBetween_iff
  . exact fun m => outline_eq_iff

end Node

end MigrationLint
