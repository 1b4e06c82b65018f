/-!
This module contains the trees that a parser makes of a source file. A row of a tree is labelled
with its type, the flags that the parser sets, the text that it spans, the line on which it starts
and the field that it fills in its parent.
-/

namespace MigrationLint

/--
What a parser records about one row, its children aside. A row without text has `none`.
-/
structure ParseTree.Label where
  type : String
  isNamed : Bool
  isMissing : Bool
  hasError : Bool
  text? : Option String
  startRow : Nat
  field : Option String
  deriving DecidableEq, Repr, Inhabited

/--
A tree of labelled rows.
-/
inductive ParseTree where
  | node (label : ParseTree.Label) (children : List ParseTree)
  deriving Repr

namespace ParseTree

def label : ParseTree → Label
  | node label _ => label

/--
Get the children of the root, named or not.
-/
def children : ParseTree → List ParseTree
  | node _ children => children

def type (t : ParseTree) : String := t.label.type

def isNamed (t : ParseTree) : Bool := t.label.isNamed

def field (t : ParseTree) : Option String := t.label.field

/--
Get the text of the root; no text counts as the empty one.
-/
def text (t : ParseTree) : String := t.label.text?.getD ""

/--
Get the line on which the root starts, counted from one.
-/
def line (t : ParseTree) : Nat := t.label.startRow + 1

def namedChildren (t : ParseTree) : List ParseTree := t.children.filter isNamed

/--
Get the first child, named or not, that fills a field.
-/
def child? (t : ParseTree) (field : String) : Option ParseTree :=
  t.children.find? (·.field == some field)

/--
Build a named row with a text and without a fault.
-/
def namedRow (type text : String) (field : Option String) (startRow : Nat)
    (children : List ParseTree) : ParseTree :=
  node ⟨type, true, false, false, some text, startRow, field⟩ children

mutual

def size : ParseTree → Nat
  | node _ children => 1 + sizes children

def sizes : List ParseTree → Nat
  | [] => 0
  | t :: ts => t.size + sizes ts

end

theorem size_eq (t : ParseTree) : t.size = 1 + sizes t.children := by
  cases t
  rfl

theorem size_pos (t : ParseTree) : 0 < t.size := by
  rw [size_eq]
  omega

@[simp]
theorem sizes_append (ts us : List ParseTree) : sizes (ts ++ us) = sizes ts + sizes us := by
  induction ts with
  | nil => simp [sizes]
  | cons t ts ih => simp only [List.cons_append, sizes, ih]; omega

@[simp]
theorem sizes_reverse (ts : List ParseTree) : sizes ts.reverse = sizes ts := by
  induction ts with
  | nil => rfl
  | cons t ts ih => simp only [List.reverse_cons, sizes_append, sizes, ih]; omega

theorem sizes_filter_le (p : ParseTree → Bool) (ts : List ParseTree) :
    sizes (ts.filter p) ≤ sizes ts := by
  induction ts with
  | nil => simp
  | cons t ts ih =>
    simp only [List.filter_cons]
    split <;> simp only [sizes] <;> omega

theorem size_le_sizes {t : ParseTree} {ts : List ParseTree} (h : t ∈ ts) : t.size ≤ sizes ts := by
  induction ts with
  | nil => simp at h
  | cons u us ih =>
    simp only [sizes]
    rcases List.mem_cons.1 h with rfl | h
    . omega
    . have := ih h
      omega

theorem size_lt_of_mem_children {t c : ParseTree} (h : c ∈ t.children) : c.size < t.size := by
  have := size_le_sizes h
  rw [size_eq t]
  omega

theorem sizes_namedChildren_lt (t : ParseTree) : sizes t.namedChildren < t.size := by
  have := sizes_filter_le isNamed t.children
  rw [size_eq]
  simp only [namedChildren]
  omega

mutual

def rows : ParseTree → List ParseTree
  | node label children => node label children :: rowsOf children

def rowsOf : List ParseTree → List ParseTree
  | [] => []
  | t :: ts => t.rows ++ rowsOf ts

end

theorem rows_eq (t : ParseTree) : t.rows = t :: rowsOf t.children := by
  cases t
  rfl

theorem rowsOf_eq_flatMap (ts : List ParseTree) : rowsOf ts = ts.flatMap rows := by
  induction ts with
  | nil => rfl
  | cons t ts ih => simp [rowsOf, ih]

theorem mem_rows_self (t : ParseTree) : t ∈ t.rows := by
  rw [rows_eq]
  exact List.mem_cons_self

theorem mem_rows_of_mem_children {t c row : ParseTree} (hc : c ∈ t.children) (hrow : row ∈ c.rows) :
    row ∈ t.rows := by
  rw [rows_eq, rowsOf_eq_flatMap]
  exact List.mem_cons_of_mem _ (List.mem_flatMap_of_mem hc hrow)

end ParseTree

end MigrationLint
