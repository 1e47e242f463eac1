import Setters.Proofs.Expr.Members
import Setters.Proofs.Json.Printed

/-!
# Members of other keys, and members in any order

`Expr.ofJsonText_of_extendedBy`: a document is read as a node where its value is the JSON form of
the node with the members of every object moved about and members of other keys among them.
-/

namespace Setters

open Json

namespace Expr

/-- A node is read back from every document that has its JSON form, whatever the order of the
members at every level and whatever members of other keys stand among them. -/
theorem ofJsonText_of_extendedBy (node : Expr) (w : Json) (h : node.toJson.ExtendedBy w)
    (hdepth : w.depth ≤ 127) (document : Written) (hvalue : document.value? = some w)
    (text : String) (htext : document.IsDocument text) : Expr.ofJsonText text = .ok node := by
  have hread : (Expr.ofJsonText text).toOption = decode maxDepth document :=
    readDocument_toOption (readJson_decodes maxDepth) htext
  have hroom : document.depth ≤ maxDepth := by
    rw [← Written.depth_of_value? document w hvalue]
    exact hdepth
  rw [← toOption_eq_some_iff, hread, decode_of_extendedBy h hvalue, if_pos hroom]

/-- A reference with its parts backwards, behind a member that only marks have. -/
def scatteredRef : Json :=
  .object [
    ("inner", .object [("kind", .string "ref"), ("key", .null)]),
    ("target", .string "b"),
    ("key", .string "a"),
    ("kind", .string "ref")]

/-- The same for a mark around the reference. -/
def scattered : Json :=
  .object [("name", .array [.null]), ("inner", scatteredRef), ("kind", .string "merge")]

def scatteredText : String :=
  "\x7b\"name\":[null],\"inner\":\x7b\"inner\":\x7b\"kind\":\"ref\",\"key\":null\x7d," ++
    "\"target\":\"b\",\"key\":\"a\",\"kind\":\"ref\"\x7d,\"kind\":\"merge\"\x7d"

theorem extendedBy_scatteredRef : (ref "a" "b").toJson.ExtendedBy scatteredRef := by
  refine ⟨_, [("kind", .string "ref"), ("key", .string "a"), ("target", .string "b")],
    [("inner", .object [("kind", .string "ref"), ("key", .null)])], rfl, ?_, ?_, ?_⟩
  · exact ⟨_, _, rfl, rfl, _, _, rfl, rfl, _, _, rfl, rfl, rfl⟩
  · exact (List.reverse_perm _).symm
  · simp [ExprKind.key]

theorem extendedBy_scattered : (merge (ref "a" "b")).toJson.ExtendedBy scattered := by
  refine ⟨_, [("kind", .string "merge"), ("inner", scatteredRef)], [("name", .array [.null])],
    rfl, ?_, ?_, ?_⟩
  · exact ⟨_, _, rfl, rfl, _, _, rfl, extendedBy_scatteredRef, rfl⟩
  · exact (List.reverse_perm _).symm
  · simp [ExprKind.key]

theorem ofJsonText_scattered : Expr.ofJsonText scatteredText = .ok (merge (ref "a" "b")) := by
  have hfree : scattered.NumberFree := by
    simp [scattered, scatteredRef, NumberFree, NumberFreeMembers, NumberFreeItems]
  have hdepth : scattered.depth ≤ 127 := by decide
  have hprints : Prints scattered scatteredText := .inl (by decide)
  obtain ⟨document, hvalue, htext⟩ := exists_isDocument_of_prints hfree hprints
  exact ofJsonText_of_extendedBy (merge (ref "a" "b")) scattered extendedBy_scattered hdepth
    document hvalue scatteredText htext

end Expr

end Setters
