import Setters.Proofs.Expr.Members
import Setters.Proofs.Json.Printed

/-!
# Nodes are read back from their texts

`Expr.ofJsonText_of_prints`: the compact and the pretty text of a node are read as that node up to
the limit on nesting, and refused for nesting too deep beyond it.
-/

namespace Setters

open Json

namespace Expr

/-! ### Numbers -/

mutual

theorem numberFree_toJson : (node : Expr) → node.toJson.NumberFree
  | .object _ children => ⟨trivial, trivial, numberFree_toJsonAll children, trivial⟩
  | .concise _ child => ⟨trivial, trivial, numberFree_toJson child, trivial⟩
  | .func _ params body =>
    ⟨trivial, trivial, numberFree_toJson params, numberFree_toJson body, trivial⟩
  | .ref _ _ => ⟨trivial, trivial, trivial, trivial⟩
  | .merge inner => ⟨trivial, numberFree_toJson inner, trivial⟩
  | .args params => ⟨trivial, numberFree_toJsonAll params, trivial⟩
  | .required param => ⟨trivial, numberFree_toJson param, trivial⟩
  | .string _ _ => ⟨trivial, trivial, trivial, trivial⟩
  | .comment node _ => ⟨trivial, numberFree_toJson node, trivial, trivial⟩

theorem numberFree_toJsonAll : (nodes : List Expr) → NumberFreeItems (toJsonAll nodes)
  | [] => trivial
  | node :: nodes => ⟨numberFree_toJson node, numberFree_toJsonAll nodes⟩

end

/-! ### Nodes from their texts -/

theorem decode_eq_of_value {node : Expr} {document : Written}
    (hvalue : document.value? = some node.toJson) (room : Nat) :
    decode room document = if document.depth ≤ room then some node else none :=
  decode_of_extendedBy (.refl node.toJson) hvalue room

/-- The text of a node is read as that node where the brackets nest at most as deep as there are
levels. -/
theorem readDocument_eq_ok_iff (node : Expr) {text : String} (hprints : Prints node.toJson text)
    (room : Nat) :
    readDocument (fun _ => readJson room) text = .ok node ↔ node.toJson.depth ≤ room := by
  obtain ⟨document, hvalue, hdocument⟩ :=
    exists_isDocument_of_prints (numberFree_toJson node) hprints
  have hdepth := Written.depth_of_value? document node.toJson hvalue
  have hdecodes : (readDocument (fun _ => readJson room) text).toOption = decode room document :=
    readDocument_toOption (readJson_decodes room) hdocument
  rw [← toOption_eq_some_iff, hdecodes, decode_eq_of_value hvalue, hdepth,
    Option.ite_none_right_eq_some]
  exact and_iff_left rfl

/-- A node is read back from its texts, unless brackets nest more than 127 deep; then that is
what they are refused for. -/
theorem ofJsonText_of_prints (node : Expr) {text : String} (hprints : Prints node.toJson text) :
    (node.toJson.depth ≤ 127 → Expr.ofJsonText text = .ok node) ∧
      (127 < node.toJson.depth → ∃ fault, Expr.ofJsonText text = .error fault ∧
        fault.category = .form ∧ fault.message = "recursion limit exceeded") := by
  obtain ⟨hshallow, hdeep⟩ :=
    readDocument_limit readJson_curbs (readDocument_eq_ok_iff node hprints)
  refine ⟨hshallow, fun hdepth => ?_⟩
  obtain ⟨place, hplace⟩ := hdeep hdepth
  exact ⟨.malformed .tooDeep place, hplace, rfl, rfl⟩

/-- A reference under so many marks. -/
def merges : Nat → Expr
  | 0 => .ref "key" "target"
  | n + 1 => .merge (merges n)

theorem depth_merges (n : Nat) : (merges n).toJson.depth = n + 1 := by
  induction n with
  | zero => rfl
  | succ n ih =>
    have hdepth : (merges (n + 1)).toJson.depth = max 0 (max (merges n).toJson.depth 0) + 1 := rfl
    rw [hdepth, ih]
    omega

/-- The deepest of these nodes that is read back, and the next one, which is refused. -/
theorem ofJsonText_merges :
    Expr.ofJsonText (compact (merges 126).toJson) = .ok (merges 126) ∧
      ∃ fault, Expr.ofJsonText (pretty (merges 127).toJson) = .error fault ∧
        fault.category = .form ∧ fault.message = "recursion limit exceeded" := by
  have hshallow : (merges 126).toJson.depth ≤ 127 := Nat.le_of_eq (depth_merges 126)
  have hdeep : 127 < (merges 127).toJson.depth :=
    Nat.lt_of_lt_of_eq (by decide) (depth_merges 127).symm
  exact ⟨(ofJsonText_of_prints (merges 126) (.inl rfl)).1 hshallow,
    (ofJsonText_of_prints (merges 127) (.inr rfl)).2 hdeep⟩

end Expr

end Setters
