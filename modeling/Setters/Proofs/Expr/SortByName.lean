import Setters.Expr
import Setters.Proofs.Text.ByteOrder
import Setters.Proofs.Text.SortedBy

/-!
# Sorting by name

`Expr.sortByName` keeps the nodes, brings their names into ascending order, and lists nodes of one
name as they were listed before. `sortByName_arranges` says that no other list does, and what
follows from that: a list that is sorted stays as it is, and what keeps names may be done to the
nodes before or after sorting.

As long as no two nodes have one name, the names ascend strictly and the result depends on the
nodes alone, not on the order in which they come: `sortByName_eq_of_perm`.
-/

namespace Setters.Expr

theorem sortByName_perm (nodes : List Expr) : (sortByName nodes).Perm nodes :=
  List.mergeSort_perm nodes _

theorem sortByName_ascending {nodes : List Expr} (distinct : (nodes.map name).Nodup) :
    (sortByName nodes).Pairwise fun a b => a.name < b.name :=
  Text.sort_ascending name distinct

theorem sortByName_bytes (nodes : List Expr) :
    (sortByName nodes).Pairwise fun a b => Text.bytes a.name ≤ Text.bytes b.name :=
  (Text.sort_pairwise name nodes).imp (Text.le_iff_bytes_le _ _).mp

/-- Nodes of different names are sorted alike in whatever order they come. -/
theorem sortByName_eq_of_perm {ms ns : List Expr} (h : ms.Perm ns)
    (distinct : (ns.map name).Nodup) : sortByName ms = sortByName ns :=
  Text.sort_eq_of_perm (sortByName_ascending distinct) (h.trans (sortByName_perm ns).symm)

theorem perm_of_sortByName_eq {ms ns : List Expr} (h : sortByName ms = sortByName ns) :
    ms.Perm ns :=
  (sortByName_perm ms).symm.trans (h ▸ sortByName_perm ns)

/-- What keeps names may be done before or after sorting. -/
theorem map_sortByName {f : Expr → Expr} {nodes : List Expr}
    (h : ∀ e ∈ nodes, (f e).name = e.name) :
    (sortByName nodes).map f = sortByName (nodes.map f) := by
  unfold sortByName
  apply List.map_mergeSort
  intro a ha b hb
  rw [h a ha, h b hb]

/-! ### Names of wrapped nodes -/

/-- Whether a node is a stack of marks, requirements and comments, perhaps none, around a core. -/
inductive Wraps : Expr → Expr → Prop
  | bare (core : Expr) : Wraps core core
  | merge {node core : Expr} (inner : Wraps node core) : Wraps (.merge node) core
  | required {node core : Expr} (inner : Wraps node core) : Wraps (.required node) core
  | comment {node core : Expr} (text : String) (inner : Wraps node core) :
      Wraps (.comment node text) core

theorem Wraps.name_eq {node core : Expr} (h : Wraps node core) : node.name = core.name := by
  induction h with
  | bare core => rfl
  | merge inner ih => exact ih
  | required inner ih => exact ih
  | comment text inner ih => exact ih

/-! ### The stable order -/

/-- Whether a list holds the given nodes in ascending byte order of their names, those of one name
as they are listed among the given ones. -/
structure Arranges (arranged nodes : List Expr) : Prop where
  perm : arranged.Perm nodes
  ascending : arranged.Pairwise fun a b => Text.bytes a.name ≤ Text.bytes b.name
  stable : ∀ text, Text.under name text arranged = Text.under name text nodes

theorem arranges_sortByName (nodes : List Expr) : Arranges (sortByName nodes) nodes where
  perm := sortByName_perm nodes
  ascending := sortByName_bytes nodes
  stable := Text.under_sort name nodes

/-- The order and what is listed under each name leave one list. -/
theorem Arranges.eq {arranged arranged' nodes : List Expr} (h : Arranges arranged nodes)
    (h' : Arranges arranged' nodes) : arranged = arranged' := by
  have hle : arranged.Pairwise fun a b => a.name ≤ b.name :=
    h.ascending.imp (Text.le_iff_bytes_le _ _).mpr
  have hle' : arranged'.Pairwise fun a b => a.name ≤ b.name :=
    h'.ascending.imp (Text.le_iff_bytes_le _ _).mpr
  exact Text.eq_of_under_eq hle hle' fun text => (h.stable text).trans (h'.stable text).symm

theorem arranges_iff {arranged nodes : List Expr} :
    Arranges arranged nodes ↔ arranged = sortByName nodes := by
  constructor
  · intro h
    exact h.eq (arranges_sortByName nodes)
  · rintro rfl
    exact arranges_sortByName nodes

theorem sortByName_sortByName (nodes : List Expr) :
    sortByName (sortByName nodes) = sortByName nodes := by
  have hagain := arranges_sortByName (sortByName nodes)
  have honce := arranges_sortByName nodes
  refine arranges_iff.mp ⟨hagain.perm.trans honce.perm, hagain.ascending, fun text => ?_⟩
  rw [hagain.stable text, honce.stable text]

/-- Sorting by name is the one stable arrangement in ascending byte order, which is the order of
code points; a wrapped node counts under the name of its core. Sorted nodes stay as they are, and
sorting goes with whatever keeps names. -/
theorem sortByName_arranges (nodes : List Expr) :
    (∀ arranged, Arranges arranged nodes ↔ arranged = sortByName nodes) ∧
    (∀ s t : String, Text.bytes s < Text.bytes t ↔ Text.codePoints s < Text.codePoints t) ∧
    (∀ node core : Expr, node.Wraps core → node.name = core.name) ∧
    (∀ params, (Expr.args params).name = "") ∧
    sortByName (sortByName nodes) = sortByName nodes ∧
    ∀ f : Expr → Expr, (∀ node ∈ nodes, (f node).name = node.name) →
      sortByName (nodes.map f) = (sortByName nodes).map f := by
  refine ⟨fun arranged => arranges_iff, Text.bytes_lt_iff_codePoints_lt,
    fun node core h => h.name_eq, fun params => rfl, sortByName_sortByName nodes, ?_⟩
  intro f h
  exact (map_sortByName h).symm

/-- Nodes of which two have one name, which they have from below their wrappers. -/
def wrappedNodes : List Expr :=
  [.comment (.merge (.ref "b" "x")) "text", .args [], .ref "b" "y", .required (.string "a" "")]

/-- Marks may be put on these nodes before or after sorting. -/
theorem sortByName_wrappedNodes :
    (Expr.comment (.merge (.ref "b" "x")) "text").Wraps (.ref "b" "x") ∧
      (Expr.comment (.merge (.ref "b" "x")) "text").name = (Expr.ref "b" "x").name ∧
      (∀ node ∈ wrappedNodes, (Expr.merge node).name = node.name) ∧
      sortByName (wrappedNodes.map .merge) = (sortByName wrappedNodes).map .merge := by
  have hwraps : (Expr.comment (.merge (.ref "b" "x")) "text").Wraps (.ref "b" "x") :=
    .comment "text" (.merge (.bare _))
  obtain ⟨-, -, hname, -, -, hmap⟩ := sortByName_arranges wrappedNodes
  exact ⟨hwraps, hname _ _ hwraps, fun _ _ => rfl, hmap .merge fun _ _ => rfl⟩

end Setters.Expr
