import Mathlib.Data.Finset.Lattice.Basic
import Setters.Proofs.Building.Object
import Setters.Proofs.Expansion

/-!
# Calling setters and mixins

What the functions of a modifier do to an object when they are called with a value. A literal of
one key puts what its child makes of the empty object under the key; under a marker it starts from
what is there. How a value is merged into another one is left open: `combine` is given the old
value, if there is one, and the new one.

A setter puts the value at the end of the target path and a mixin combines it with what is there;
nothing beside the path is touched. This is the content of `call_function`: the call comes to
`Object.alter` for the path, since every literal of an expanded path is marked.
-/

namespace Setters

variable {α : Type}

/-! ### Calls -/

namespace Expr

/-- What a literal does to an object where `parameter` has the value `v`; nothing is said of the
nodes that are no literals. -/
def update? (combine : Option (Value α) → Value α → Value α) (parameter : String) (v : Value α) :
    Expr → Option (Object α → Object α)
  | .ref key target => if target = parameter then some fun o => o.set key v else none
  | .merge (.ref key target) =>
    if target = parameter then some fun o => o.set key (combine (o.find key) v) else none
  | .concise key child =>
    (child.update? combine parameter v).map fun build o => o.set key (.object (build .empty))
  | .merge (.concise key child) =>
    (child.update? combine parameter v).map fun build o => o.set key (.object (build (o.inner key)))
  | _ => none

/-- What a function of one parameter does to an object when it is called with the value `v`. The
literal around its body has no key and stands for the object itself. -/
def call? (combine : Option (Value α) → Value α → Value α) (v : Value α) :
    Expr → Option (Object α → Object α)
  | .func _ (.args [.required (.string parameter _)]) (.concise key body) =>
    if key = "" then body.update? combine parameter v else none
  | _ => none

end Expr

def TargetPath.keys (path : TargetPath) : List String :=
  path.parents.map Identifier.name ++ [path.leaf.name]

namespace Modifier

variable (combine : Option (Value α) → Value α → Value α)

/-- What stands at the end of the target path after a call, given what stood there before. -/
def landing (merge : Bool) (v : Value α) (old : Option (Value α)) : Value α :=
  if merge then combine old v else v

/-- What a call does to an object: only the value at the end of the target path is changed. -/
def effect (m : Modifier) (merge : Bool) (v : Value α) (o : Object α) : Object α :=
  o.alter (landing combine merge v) m.target.leaf.name (m.target.parents.map Identifier.name)

theorem update?_expand (m : Modifier) (merge : Bool) (v : Value α) :
    (m.expand merge).update? combine m.parameter v = some (m.effect combine merge v) := by
  obtain ⟨p, k, ⟨parents, leaf⟩⟩ := m
  induction parents with
  | nil =>
    rw [expand_leaf]
    cases merge with
    | false => exact if_pos rfl
    | true => exact if_pos rfl
  | cons s parents ih =>
    rw [expand_parent, Expr.update?, ih]
    rfl

theorem call?_function (m : Modifier) (name : String) (merge : Bool) (v : Value α) :
    (m.function name merge).call? combine v = some (m.effect combine merge v) := by
  rw [function, Expr.call?, if_pos rfl, update?_expand]

/-! ### Effects -/

variable {combine} {m m' : Modifier} {merge merge' : Bool} {v w : Value α}

theorem lookup_effect (m : Modifier) (merge : Bool) (v : Value α) (o : Object α) :
    (m.effect combine merge v o).lookup m.target.keys =
      some (landing combine merge v (o.lookup m.target.keys)) :=
  Object.lookup_alter _ _ _ o

theorem lookup_effect_beside {path : List String} (h : ¬path <+: m.target.keys)
    (h' : ¬m.target.keys <+: path) (o : Object α) :
    (m.effect combine merge v o).lookup path = o.lookup path :=
  Object.lookup_alter_beside h h' o

/-- Of two setters called on one path the later one counts. -/
theorem effect_effect (h : m.target = m'.target) (o : Object α) :
    m'.effect combine false w (m.effect combine false v o) = m'.effect combine false w o := by
  rw [effect, effect, h, Object.alter_alter]
  rfl

theorem effect_comm (h : ¬m.target.keys <+: m'.target.keys)
    (h' : ¬m'.target.keys <+: m.target.keys) (o : Object α) :
    m'.effect combine merge' w (m.effect combine merge v o) =
      m.effect combine merge v (m'.effect combine merge' w o) :=
  Object.alter_comm h h' o

end Modifier

/-! ### What callers can rely on -/

/-- Whether a change of objects leaves everything as it is that lies neither on the path nor
beyond its end. -/
def TargetPath.Frames (path : TargetPath) (change : Object α → Object α) : Prop :=
  ∀ o keys, ¬keys <+: path.keys → ¬path.keys <+: keys → (change o).lookup keys = o.lookup keys

/-- The functions of every modifier can be called with every value. A setter puts the value at the
end of the target path, a mixin combines it with what is there, and neither touches what lies
beside the path. A second setter call on a path makes the first one as if it had not been, and
calls on paths of which neither leads through the other may be made in either order. -/
theorem call_function (combine : Option (Value α) → Value α → Value α) :
    (∀ (m : Modifier) (name mixinName : String) (v : Value α), ∃ setter mixin,
      (m.function name false).call? combine v = some setter ∧
      (m.function mixinName true).call? combine v = some mixin ∧
      (∀ o, (setter o).lookup m.target.keys = some v) ∧
      (∀ o, (mixin o).lookup m.target.keys = some (combine (o.lookup m.target.keys) v)) ∧
      m.target.Frames setter ∧ m.target.Frames mixin) ∧
    (∀ (m m' : Modifier) (name name' : String) (v w : Value α) (first second),
      m.target = m'.target →
      (m.function name false).call? combine v = some first →
      (m'.function name' false).call? combine w = some second →
      ∀ o, second (first o) = second o) ∧
    ∀ (m m' : Modifier) (name name' : String) (merge merge' : Bool) (v w : Value α) (first second),
      ¬m.target.keys <+: m'.target.keys → ¬m'.target.keys <+: m.target.keys →
      (m.function name merge).call? combine v = some first →
      (m'.function name' merge').call? combine w = some second →
      ∀ o, second (first o) = first (second o) := by
  refine ⟨?calls, ?again, ?apart⟩
  case calls =>
    intro m name mixinName v
    refine ⟨m.effect combine false v, m.effect combine true v,
      m.call?_function combine name false v, m.call?_function combine mixinName true v,
      ?_, ?_, ?_, ?_⟩
    · exact m.lookup_effect false v
    · exact m.lookup_effect true v
    · exact fun o keys h h' => Modifier.lookup_effect_beside h h' o
    · exact fun o keys h h' => Modifier.lookup_effect_beside h h' o
  case again =>
    intro m m' name name' v w first second htarget hfirst hsecond o
    rw [Modifier.call?_function] at hfirst hsecond
    obtain rfl := Option.some.inj hfirst
    obtain rfl := Option.some.inj hsecond
    exact Modifier.effect_effect htarget o
  case apart =>
    intro m m' name name' merge merge' v w first second h h' hfirst hsecond o
    rw [Modifier.call?_function] at hfirst hsecond
    obtain rfl := Option.some.inj hfirst
    obtain rfl := Option.some.inj hsecond
    exact Modifier.effect_comm h h' o

/-- Puts the entries of an object over those of another one; in all other cases the new value
counts. -/
def overlay (old : Option (Value Nat)) (new : Value Nat) : Value Nat :=
  match old, new with
  | some (.object o), .object o' =>
    .object
      { keys := o.keys ∪ o'.keys
        value := fun x =>
          if h : x.val ∈ o'.keys then o'.value ⟨x.val, h⟩
          else o.value ⟨x.val, (Finset.mem_union.mp x.property).resolve_right h⟩ }
  | _, new => new

def specModifier (kind : ValueKind) (leaf : Identifier) : Modifier :=
  ⟨"value", kind, ⟨[⟨"spec", by decide⟩], leaf⟩⟩

/-- A setter and a mixin below one key may be called in either order, and a setter called twice
leaves what the later call puts. -/
theorem call_specFunctions :
    ∃ setter mixin : Object Nat → Object Nat,
      ((specModifier .integer ⟨"replicas", by decide⟩).function "withReplicas" false).call? overlay
        (.other 3) = some setter ∧
      ((specModifier .object ⟨"labels", by decide⟩).function "withLabelsMixin" true).call? overlay
        (.object (.set .empty "app" (.other 1))) = some mixin ∧
      (∀ o, mixin (setter o) = setter (mixin o)) ∧
      (∀ o, setter (setter o) = setter o) ∧
      ∀ o, (setter o).lookup ["spec", "image"] = o.lookup ["spec", "image"] := by
  obtain ⟨hcalls, hagain, hapart⟩ := call_function overlay
  obtain ⟨setter, -, hsetter, -, -, -, hframes, -⟩ :=
    hcalls (specModifier .integer ⟨"replicas", by decide⟩) "withReplicas" "withReplicasMixin"
      (.other 3)
  obtain ⟨-, mixin, -, hmixin, -⟩ :=
    hcalls (specModifier .object ⟨"labels", by decide⟩) "withLabels" "withLabelsMixin"
      (.object (.set .empty "app" (.other 1)))
  refine ⟨setter, mixin, hsetter, hmixin, ?_, ?_, ?_⟩
  · exact hapart _ _ _ _ _ _ _ _ _ _ (by decide) (by decide) hsetter hmixin
  · exact hagain _ _ _ _ _ _ _ _ rfl hsetter hsetter
  · exact fun o => hframes o _ (by decide) (by decide)

end Setters
