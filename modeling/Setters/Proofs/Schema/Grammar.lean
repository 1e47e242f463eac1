import Setters.Proofs.Schema.Records

/-!
# The grammar of schema documents

Which values are schemas, and of what: `IsSchema` and `IsField` say so without any order of reading
and without a limit on nesting. A field is a modifier when its target, its parameter and its type
are there and it has neither help nor fields, and a group when it has none of those three; an entry
that is null is as good as none. The root is a group too, but its fields may not be null.
-/

namespace Setters

open Json

variable {α : Type}

/-! ### The grammar -/

/-- Whether an entry is missing or null. -/
def Absent (entry : Option Json) : Prop :=
  entry = none ∨ entry = some .null

/-- Whether an entry is a help text, or none. -/
inductive IsHelp : Option Json → Option String → Prop
  | absent {entry : Option Json} (habsent : Absent entry) : IsHelp entry none
  | text (text : String) : IsHelp (some (.string text)) (some text)

/-- Whether a value stands for a kind: its word, or an object with the word as its only key,
beside null. -/
inductive IsKind : Json → ValueKind → Prop
  | word (kind : ValueKind) : IsKind (.string kind.word) kind
  | table (kind : ValueKind) : IsKind (.object [(kind.word, .null)]) kind

/-- Whether fields hold the last value under every name. -/
def Fields.HoldsLast (fields : Fields) (named : List (String × OrderedField)) : Prop :=
  ∀ name, fields.toList.lookup name = (named.reverse.lookup name).map Subtype.val

mutual

inductive IsField : Json → OrderedField → Prop
  | modifier {v type : Json} {entries : String → Option Json} {parameter text : String}
      {kind : ValueKind} {target : TargetPath}
      (hentries : HasEntries ["help", "fields", "parameter", "type", "target"] 5 v entries)
      (hhelp : Absent (entries "help")) (hfields : Absent (entries "fields"))
      (hparameter : entries "parameter" = some (.string parameter))
      (htype : entries "type" = some type) (hkind : IsKind type kind)
      (htarget : entries "target" = some (.string text))
      (hpath : TargetPath.parse text = .ok target) :
      IsField v (Modifier.mk parameter kind target).toField
  | bareGroup {v : Json} {entries : String → Option Json} {help : Option String}
      (hentries : HasEntries ["help", "fields", "parameter", "type", "target"] 5 v entries)
      (hhelp : IsHelp (entries "help") help) (hfields : Absent (entries "fields"))
      (hparameter : Absent (entries "parameter")) (htype : Absent (entries "type"))
      (htarget : Absent (entries "target")) :
      IsField v (Schema.mk help .empty).toField
  | group {v members : Json} {entries : String → Option Json} {help : Option String}
      {fields : Fields}
      (hentries : HasEntries ["help", "fields", "parameter", "type", "target"] 5 v entries)
      (hhelp : IsHelp (entries "help") help)
      (hmembers : entries "fields" = some members) (hfields : IsFields members fields)
      (hparameter : Absent (entries "parameter")) (htype : Absent (entries "type"))
      (htarget : Absent (entries "target")) :
      IsField v (Schema.mk help fields).toField

/-- Whether a value is an object of fields. Each member has to be a field, and of several with one
name the last one counts. -/
inductive IsFields : Json → Fields → Prop
  | mk {members : List (String × Json)} {named : List (String × OrderedField)} {fields : Fields}
      (hmembers : AreFields members named) (hlast : fields.HoldsLast named) :
      IsFields (.object members) fields

inductive AreFields : List (String × Json) → List (String × OrderedField) → Prop
  | nil : AreFields [] []
  | cons {name : String} {v : Json} {field : OrderedField} {members : List (String × Json)}
      {named : List (String × OrderedField)}
      (hfield : IsField v field) (hmembers : AreFields members named) :
      AreFields ((name, v) :: members) ((name, field) :: named)

end

inductive IsSchema : Json → Schema → Prop
  | bare {v : Json} {entries : String → Option Json} {help : Option String}
      (hentries : HasEntries ["help", "fields"] 0 v entries)
      (hhelp : IsHelp (entries "help") help) (hfields : entries "fields" = none) :
      IsSchema v ⟨help, .empty⟩
  | full {v members : Json} {entries : String → Option Json} {help : Option String}
      {fields : Fields} (hentries : HasEntries ["help", "fields"] 0 v entries)
      (hhelp : IsHelp (entries "help") help)
      (hmembers : entries "fields" = some members) (hfields : IsFields members fields) :
      IsSchema v ⟨help, fields⟩

/-! ### Leaves -/

def IsText (v : Json) (text : String) : Prop :=
  v = .string text

def IsPath (v : Json) (path : TargetPath) : Prop :=
  ∃ text, v = .string text ∧ TargetPath.parse text = .ok path

/-- Whether a value is null, or what a relation wants it to be. -/
inductive OrNull (rel : Json → α → Prop) : Json → Option α → Prop
  | null : OrNull rel .null none
  | some {v : Json} {a : α} (hrel : rel v a) : OrNull rel v (some a)

end Setters
