import Setters.ContentFault

/-!
# Records in documents

Schemas, modifiers and fields are written as records: tables of known keys, or arrays of their
entries in a fixed order. A record is read into a draft that notes which entries were met;
`Record` says what its keys are and how the draft answers, for JSON and for TOML alike.
-/

namespace Setters

/-- A record with keys in `κ` that is read into a draft in `σ`. -/
structure Record (σ κ : Type) where
  /-- What the record is called where something else stands. -/
  wanted : Wanted
  /-- The keys, in the order of the entries in an array. -/
  keys : List κ
  /-- The word of a key. -/
  word : κ → String
  /-- The draft before any entry is read. -/
  start : σ
  /-- Whether the draft has an entry of the key. -/
  has : σ → κ → Bool
  /-- What becomes of an array that ends after the given number of entries. -/
  short : Nat → σ → Except ContentFault σ

namespace Record

variable {σ κ : Type}

def words (record : Record σ κ) : List String :=
  record.keys.map record.word

/-- The key of a word, unless the word is unknown or the draft has its entry already. -/
def admissible (record : Record σ κ) (draft : σ) (word : String) : Except ContentFault κ :=
  match record.keys.find? fun key => record.word key == word with
  | none => .error (.unknownKey word record.words)
  | some key => if record.has draft key then .error (.repeatedKey word) else .ok key

end Record

end Setters
