import MigrationLint.Node.Outline
import MigrationLint.Proofs.List

/-!
This module contains the addresses of the nodes of a tree: the positions of the children on the way
to a node. In pre-order the addresses ascend, and the depth of a node is the length of its address.
-/

namespace MigrationLint

namespace Node

/--
Get the node at an address.
-/
def at? (n : Node) : List ℕ → Option Node
  | [] => some n
  | position :: address => n.children[position]?.bind fun c => c.at? address

mutual

def withAddress : Node → List (List ℕ × Node)
  | mk kind location text roles children =>
    ([], mk kind location text roles children) :: withAddressOf 0 children

def withAddressOf (position : ℕ) : List Node → List (List ℕ × Node)
  | [] => []
  | n :: ns =>
    n.withAddress.map (fun (address, m) => (position :: address, m)) ++
      withAddressOf (position + 1) ns

end

theorem withAddress_eq (n : Node) : n.withAddress = ([], n) :: withAddressOf 0 n.children := by
  cases n
  rfl

theorem mem_withAddressOf {position : ℕ} {ns : List Node} {address : List ℕ} {m : Node} :
    (address, m) ∈ withAddressOf position ns ↔
      ∃ i c rest, ns[i]? = some c ∧ address = (position + i) :: rest
        ∧ (rest, m) ∈ c.withAddress := by
  induction ns generalizing position with
  | nil => simp [withAddressOf]
  | cons n ns ih =>
    rw [withAddressOf, List.mem_append, List.mem_map, ih]
    constructor
    . rintro (⟨⟨rest, m⟩, hrest, ⟨⟩⟩ | ⟨i, c, rest, hc, rfl, hrest⟩)
      . exact ⟨0, n, rest, rfl, rfl, hrest⟩
      . exact ⟨i + 1, c, rest, hc, by rw [Nat.add_right_comm, Nat.add_assoc], hrest⟩
    . rintro ⟨i, c, rest, hc, rfl, hrest⟩
      cases i with
      | zero =>
        cases hc
        exact .inl ⟨(rest, m), hrest, rfl⟩
      | succ i => exact .inr ⟨i, c, rest, hc, by rw [Nat.add_right_comm, Nat.add_assoc], hrest⟩

theorem mem_withAddress {n m : Node} {address : List ℕ} :
    (address, m) ∈ n.withAddress ↔ n.at? address = some m := by
  induction address generalizing n with
  | nil =>
    rw [withAddress_eq, List.mem_cons, mem_withAddressOf, at?, Option.some_inj]
    constructor
    . rintro (h | ⟨_, _, _, _, h, _⟩)
      . exact (Prod.mk.inj h).2.symm
      . nomatch h
    . rintro rfl
      exact .inl rfl
  | cons position address ih =>
    rw [withAddress_eq, List.mem_cons, mem_withAddressOf, at?, Option.bind_eq_some_iff]
    constructor
    . rintro (h | ⟨i, c, rest, hc, h, hrest⟩)
      . nomatch h
      . obtain ⟨rfl, rfl⟩ := List.cons.inj h
        rw [Nat.zero_add]
        exact ⟨c, hc, ih.1 hrest⟩
    . rintro ⟨c, hc, hm⟩
      exact .inr ⟨position, c, address, hc, by rw [Nat.zero_add], ih.2 hm⟩

mutual

theorem pairwise_withAddress : ∀ n : Node, n.withAddress.Pairwise fun e f => e.1 < f.1
  | mk kind location text roles children => by
    rw [withAddress, List.pairwise_cons]
    refine ⟨?_, pairwise_withAddressOf 0 children⟩
    rintro ⟨address, m⟩ hm
    obtain ⟨_, _, _, _, rfl, _⟩ := mem_withAddressOf.1 hm
    exact List.nil_lt_cons _ _

theorem pairwise_withAddressOf (position : ℕ) :
    ∀ ns : List Node, (withAddressOf position ns).Pairwise fun e f => e.1 < f.1
  | [] => .nil
  | n :: ns => by
    rw [withAddressOf, List.pairwise_append, List.pairwise_map]
    refine ⟨?_, pairwise_withAddressOf (position + 1) ns, ?_⟩
    . apply (pairwise_withAddress n).imp
      intro e f h
      exact List.cons_lt_cons_iff.2 (.inr ⟨rfl, h⟩)
    . rintro e he ⟨address, m⟩ hm
      obtain ⟨_, _, rfl⟩ := List.mem_map.1 he
      obtain ⟨i, _, _, _, rfl, _⟩ := mem_withAddressOf.1 hm
      exact List.cons_lt_cons_iff.2 (.inl (by omega))

end

mutual

theorem withAddress_map_length (depth : ℕ) :
    ∀ n : Node, n.withAddress.map (fun (address, m) => (depth + address.length, m)) =
      n.withDepth depth
  | mk kind location text roles children => by
    rw [withAddress, withDepth, List.map_cons, withAddressOf_map_length depth 0 children]
    rfl

theorem withAddressOf_map_length (depth position : ℕ) :
    ∀ ns : List Node,
      (withAddressOf position ns).map (fun (address, m) => (depth + address.length, m)) =
        withDepthOf (depth + 1) ns
  | [] => rfl
  | n :: ns => by
    rw [withAddressOf, withDepthOf, List.map_append, List.map_map,
      withAddressOf_map_length depth (position + 1) ns, ← withAddress_map_length (depth + 1) n]
    simp only [Function.comp_def, List.length_cons, Nat.add_assoc, Nat.add_comm 1]

end

theorem depths_eq_withAddress (n : Node) :
    n.depths = n.withAddress.map fun (address, m) => (address.length, m) := by
  rw [depths_eq_withDepth, ← withAddress_map_length]
  simp only [Nat.zero_add]

mutual

theorem withDepth_map_snd (depth : ℕ) : ∀ n : Node, (n.withDepth depth).map (·.2) = n.nodes
  | mk kind location text roles children => by
    rw [withDepth, nodes, List.map_cons, withDepthOf_map_snd (depth + 1) children]

theorem withDepthOf_map_snd (depth : ℕ) :
    ∀ ns : List Node, (withDepthOf depth ns).map (·.2) = nodesOf ns
  | [] => rfl
  | n :: ns => by
    rw [withDepthOf, nodesOf, List.map_append, withDepth_map_snd depth n,
      withDepthOf_map_snd depth ns]

end

theorem withAddress_map_snd (n : Node) : n.withAddress.map (·.2) = n.preorder := by
  rw [preorder_eq_nodes, ← withDepth_map_snd 0, ← withAddress_map_length, List.map_map]
  rfl

/--
The entries are the nodes of a tree, each with its address, in the order of the addresses. A node
stands before the nodes below it, and these stand before the ones that follow it on its level.
-/
structure ListedAs (n : Node) (entries : List (List ℕ × Node)) : Prop where
  mem_iff : ∀ address m, (address, m) ∈ entries ↔ n.at? address = some m
  ascending : entries.Pairwise fun e f => e.1 < f.1

theorem listedAs_withAddress (n : Node) : n.ListedAs n.withAddress :=
  ⟨fun _ _ => mem_withAddress, pairwise_withAddress n⟩

end Node

end MigrationLint
