import Setters.Proofs.Document.Tree
import Setters.Proofs.Json.Printed
import Setters.Proofs.Json.Reordering
import Setters.Proofs.Json.Value

/-!
# Trees as written values

A tree can be written in JSON, each text as one literal of it. `Document.written` fixes a way to do
so, by which what is known of written values becomes known of trees: the value that is written is
the one the tree is of, and trees that differ in order alone are written in orders of one value.
-/

namespace Setters

open Json

noncomputable def piecesOf (text : String) : List Piece :=
  (exists_pieces text).choose

@[simp]
theorem textOf_piecesOf (text : String) : textOf (piecesOf text) = some text :=
  (exists_pieces text).choose_spec.2

namespace Document

mutual

/-- The tree as it may be written in JSON. -/
noncomputable def written : Document → Written
  | .text value => .string (piecesOf value)
  | .array items => .array (writtenItems items)
  | .table entries => .object (writtenEntries entries)

noncomputable def writtenItems : List Document → List Written
  | [] => []
  | item :: items => written item :: writtenItems items

noncomputable def writtenEntries : List (String × Document) → List (List Piece × Written)
  | [] => []
  | (key, value) :: entries => (piecesOf key, written value) :: writtenEntries entries

end

theorem writtenEntries_eq_map (entries : List (String × Document)) :
    writtenEntries entries = entries.map fun entry => (piecesOf entry.1, entry.2.written) := by
  induction entries with
  | nil => rfl
  | cons entry entries ih => rw [List.map_cons, ← ih, writtenEntries]

/-! ### The value of a written tree -/

mutual

theorem value?_written : (v : Json) → (tree : Document) → v.document? = some tree →
    tree.written.value? = some v
  | .null, _, h => nomatch h
  | .boolean _, _, h => nomatch h
  | .number _, _, h => nomatch h
  | .string value, _, h => by
    obtain rfl := Option.some.inj h
    rw [written, Written.value?, textOf_piecesOf, Option.map_some]
  | .array vs, _, h => by
    obtain ⟨items, hitems, rfl⟩ := Option.map_eq_some_iff.mp h
    rw [written, Written.value?, items?_writtenItems vs items hitems, Option.map_some]
  | .object vs, _, h => by
    obtain ⟨entries, hentries, rfl⟩ := Option.map_eq_some_iff.mp h
    rw [written, Written.value?, members?_writtenEntries vs entries hentries, Option.map_some]

theorem items?_writtenItems : (vs : List Json) → (items : List Document) →
    documents? vs = some items → Written.items? (writtenItems items) = some vs
  | [], _, h => by
    obtain rfl := Option.some.inj h
    rfl
  | v :: vs, _, h => by
    obtain ⟨tree, htree, hrest⟩ := Option.bind_eq_some_iff.mp h
    obtain ⟨items, hitems, rfl⟩ := Option.map_eq_some_iff.mp hrest
    rw [writtenItems, Written.items?_cons_eq_some_iff]
    exact ⟨v, vs, value?_written v tree htree, items?_writtenItems vs items hitems, rfl⟩

theorem members?_writtenEntries : (vs : List (String × Json)) →
    (entries : List (String × Document)) → entries? vs = some entries →
      Written.members? (writtenEntries entries) = some vs
  | [], _, h => by
    obtain rfl := Option.some.inj h
    rfl
  | (key, v) :: vs, _, h => by
    obtain ⟨tree, htree, hrest⟩ := Option.bind_eq_some_iff.mp h
    obtain ⟨entries, hentries, rfl⟩ := Option.map_eq_some_iff.mp hrest
    rw [writtenEntries, Written.members?_cons_eq_some_iff]
    exact ⟨key, v, vs, textOf_piecesOf key, value?_written v tree htree,
      members?_writtenEntries vs entries hentries, rfl⟩

end

/-! ### The order of entries -/

mutual

theorem Reorders.written : (tree tree' : Document) → tree.Reorders tree' →
    tree.written.Reorders tree'.written
  | .text _, .text _, h => congrArg piecesOf h
  | .array items, .array items', h => ReordersItems.written items items' h
  | .table entries, .table entries', h => by
    obtain ⟨shuffled, hperm, hentries⟩ := h
    refine ⟨writtenEntries shuffled, ?_, ReordersEntries.written entries shuffled hentries⟩
    rw [writtenEntries_eq_map, writtenEntries_eq_map]
    exact hperm.map _

theorem ReordersItems.written : (items items' : List Document) → ReordersItems items items' →
    Written.ReordersItems (writtenItems items) (writtenItems items')
  | [], [], _ => trivial
  | item :: items, item' :: items', h =>
    ⟨Reorders.written item item' h.1, ReordersItems.written items items' h.2⟩

theorem ReordersEntries.written : (entries entries' : List (String × Document)) →
    ReordersEntries entries entries' →
      Written.ReordersMembers (writtenEntries entries) (writtenEntries entries')
  | [], [], _ => trivial
  | (_, value) :: entries, (_, value') :: entries', h =>
    ⟨congrArg piecesOf h.1, Reorders.written value value' h.2.1,
      ReordersEntries.written entries entries' h.2.2⟩

end

theorem keysDiffer_piecesOf {key key' : String} (h : key ≠ key') :
    KeysDiffer (piecesOf key) (piecesOf key') := by
  intro text htext htext'
  rw [textOf_piecesOf] at htext htext'
  have hsame : some key = some key' := htext.trans htext'.symm
  exact h (Option.some.inj hsame)

mutual

theorem DistinctKeys.written : (tree : Document) → tree.DistinctKeys → tree.written.DistinctKeys
  | .text _, _ => trivial
  | .array items, h => DistinctKeysItems.written items h
  | .table entries, h => by
    refine ⟨?_, DistinctKeysEntries.written entries h.2⟩
    rw [writtenEntries_eq_map, List.map_map, List.pairwise_map]
    exact (List.pairwise_map.mp h.1).imp keysDiffer_piecesOf

theorem DistinctKeysItems.written : (items : List Document) → DistinctKeysItems items →
    Written.DistinctKeysItems (writtenItems items)
  | [], _ => trivial
  | item :: items, h =>
    ⟨DistinctKeys.written item h.1, DistinctKeysItems.written items h.2⟩

theorem DistinctKeysEntries.written : (entries : List (String × Document)) →
    DistinctKeysEntries entries → Written.DistinctKeysMembers (writtenEntries entries)
  | [], _ => trivial
  | (_, value) :: entries, h =>
    ⟨DistinctKeys.written value h.1, DistinctKeysEntries.written entries h.2⟩

end

end Document

end Setters
