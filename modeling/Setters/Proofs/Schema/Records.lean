import Setters.Proofs.Json.Value
import Setters.Proofs.Schema.Decoding
import Setters.Proofs.Schema.Fields

/-!
# What records hold

A record is read entry by entry into a draft. `HasEntries` says what a value holds under each key
of a record without any order of reading, and `Record.Layout` what parts a draft has. A record is
decoded exactly when each part that is there can be, and each part of the draft is then what
stands under its key: `Record.Layout.decode_eq_some_iff`.
-/

namespace Setters

open Json

variable {σ κ α : Type}

/-- Whether decoding comes to what a relation says of the value that is written, provided that its
brackets nest at most `room` deep. -/
def Json.Judges (room : Nat) (decode : Written → Option α) (rel : Json → α → Prop) : Prop :=
  ∀ value a, decode value = some a ↔ value.depth ≤ room ∧ ∃ v, value.value? = some v ∧ rel v a

/-- The values that stand under the words of a record: those of the members of an object, none of
them unknown or repeated, or those of an array of at least so many items, one for each word in
its place. -/
inductive HasEntries (words : List String) (least : Nat) : Json → (String → Option Json) → Prop
  | table {members : List (String × Json)} (distinct : (members.map Prod.fst).Nodup)
      (known : ∀ word ∈ members.map Prod.fst, word ∈ words) :
      HasEntries words least (.object members) fun word => members.lookup word
  | row {items : List Json} (short : least ≤ items.length) (long : items.length ≤ words.length) :
      HasEntries words least (.array items) fun word => (words.zip items).lookup word

/-- The parts of the draft of a record, one for each key. -/
structure Record.Layout (record : Record σ κ) (Part : κ → Type) where
  part : σ → (key : κ) → Option (Part key)
  put : (key : κ) → Part key → σ → σ
  ext : ∀ {draft draft'}, (∀ key, part draft key = part draft' key) → draft = draft'
  part_start : ∀ key, part record.start key = none
  part_put_self : ∀ draft key a, part (put key a draft) key = some a
  part_put_of_ne : ∀ draft {key key'} a, key' ≠ key → part (put key a draft) key' = part draft key'
  has_eq : ∀ draft key, record.has draft key = (part draft key).isSome
  mem_keys : ∀ key, key ∈ record.keys
  nodup_keys : record.keys.Nodup
  word_inj : ∀ {key key'}, record.word key = record.word key' → key = key'

namespace Record

theorem find?_eq_some_iff {record : Record σ κ} {Part : κ → Type} (layout : record.Layout Part)
    {word : String} {key : κ} :
    record.keys.find? (fun key => record.word key == word) = some key ↔ record.word key = word := by
  constructor
  · intro h
    have hword : (record.word key == word) = true :=
      List.find?_some (p := fun key => record.word key == word) h
    exact beq_iff_eq.mp hword
  · rintro rfl
    cases hfind : record.keys.find? fun key' => record.word key' == record.word key with
    | none =>
      have hnone := List.find?_eq_none.mp hfind key (layout.mem_keys key)
      exact absurd (beq_self_eq_true _) hnone
    | some key' =>
      have hword := List.find?_some (p := fun key' => record.word key' == record.word key) hfind
      have hkey : key' = key := layout.word_inj (beq_iff_eq.mp hword)
      exact congrArg some hkey

namespace Layout

variable {record : Record σ κ} {Part : κ → Type} {layout : record.Layout Part}
  {decodePart : (key : κ) → Written → Option (Part key)} {rel : (key : κ) → Json → Part key → Prop}
  {room : Nat} {draft draft' : σ} {given : κ → Option Json}

/-- Takes an entry into the draft. -/
def enter (layout : record.Layout Part) (decodePart : (key : κ) → Written → Option (Part key))
    (draft : σ) (key : κ) (value : Written) : Option σ :=
  (decodePart key value).map fun a => layout.put key a draft

/-- Whether a draft comes from another one by the entries that are given. -/
def Shows (layout : record.Layout Part) (rel : (key : κ) → Json → Part key → Prop)
    (given : κ → Option Json) (draft draft' : σ) : Prop :=
  ∀ key, (given key = none → layout.part draft' key = layout.part draft key) ∧
    ∀ v, given key = some v → ∃ a, rel key v a ∧ layout.part draft' key = some a

theorem shows_none_iff : layout.Shows rel (fun _ => none) draft draft' ↔ draft' = draft := by
  constructor
  · intro h
    exact layout.ext fun key => (h key).1 rfl
  · rintro rfl key
    exact ⟨fun _ => rfl, fun v h => nomatch h⟩

/-- An entry may be taken into the draft before the others. -/
theorem shows_cons_iff {given' : κ → Option Json} {key : κ} {v : Json} (hnone : given key = none)
    (hkey : given' key = some v) (hrest : ∀ key', key' ≠ key → given' key' = given key') :
    layout.Shows rel given' draft draft' ↔
      ∃ a, rel key v a ∧ layout.Shows rel given (layout.put key a draft) draft' := by
  constructor
  · intro h
    obtain ⟨a, hrel, hpart⟩ := (h key).2 v hkey
    refine ⟨a, hrel, fun key' => ?_⟩
    by_cases hne : key' = key
    · subst hne
      refine ⟨fun _ => by rw [hpart, layout.part_put_self], fun v' hv' => ?_⟩
      rw [hnone] at hv'
      cases hv'
    · rw [layout.part_put_of_ne _ _ hne, ← hrest key' hne]
      exact h key'
  · rintro ⟨a, hrel, h⟩ key'
    by_cases hne : key' = key
    · subst hne
      rw [hkey]
      refine ⟨fun hsome => (nomatch hsome), fun v' hv' => ?_⟩
      obtain rfl := Option.some.inj hv'
      exact ⟨a, hrel, by rw [(h key').1 hnone, layout.part_put_self]⟩
    · rw [hrest key' hne, ← layout.part_put_of_ne draft a hne]
      exact h key'

theorem enter_eq_some_iff (h : ∀ key, Judges room (decodePart key) (rel key)) {key : κ}
    {value : Written} :
    layout.enter decodePart draft key value = some draft' ↔
      value.depth ≤ room ∧ ∃ v, value.value? = some v ∧
        ∃ a, rel key v a ∧ layout.put key a draft = draft' := by
  rw [enter, Option.map_eq_some_iff]
  constructor
  · rintro ⟨a, ha, hput⟩
    obtain ⟨hdepth, v, hv, hrel⟩ := (h key value a).mp ha
    exact ⟨hdepth, v, hv, a, hrel, hput⟩
  · rintro ⟨hdepth, v, hv, a, hrel, hput⟩
    exact ⟨a, (h key value a).mpr ⟨hdepth, v, hv, hrel⟩, hput⟩

/-! ### Objects -/

theorem decodeEntry_eq_some_iff {word : String} {value : Written} :
    record.decodeEntry (layout.enter decodePart) draft word value = some draft' ↔
      ∃ key, record.word key = word ∧ layout.part draft key = none ∧
        layout.enter decodePart draft key value = some draft' := by
  rw [decodeEntry, admissible]
  cases hfind : record.keys.find? fun key => record.word key == word with
  | none =>
    constructor
    · intro h
      cases h
    · rintro ⟨key, hword, -⟩
      rw [(find?_eq_some_iff layout).mpr hword] at hfind
      cases hfind
  | some key =>
    have hword := (find?_eq_some_iff layout).mp hfind
    have hunique : ∀ key', record.word key' = word → key' = key := fun key' hword' =>
      layout.word_inj (hword'.trans hword.symm)
    simp only [layout.has_eq]
    cases hpart : layout.part draft key with
    | none =>
      constructor
      · intro h
        exact ⟨key, hword, hpart, h⟩
      · rintro ⟨key', hword', -, h⟩
        obtain rfl := hunique key' hword'
        exact h
    | some a =>
      constructor
      · intro h
        cases h
      · rintro ⟨key', hword', hnone, -⟩
        obtain rfl := hunique key' hword'
        rw [hpart] at hnone
        cases hnone

/-- The entries that are left belong to parts the draft has not, also once an entry is taken in. -/
theorem known_put_iff {vs : List (String × Json)} {key : κ} (a : Part key)
    (hnone : layout.part draft key = none) :
    (∀ word ∈ vs.map Prod.fst, ∃ key', record.word key' = word ∧
        layout.part (layout.put key a draft) key' = none) ↔
      record.word key ∉ vs.map Prod.fst ∧
        ∀ word ∈ vs.map Prod.fst, ∃ key', record.word key' = word ∧
          layout.part draft key' = none := by
  constructor
  · intro hknown
    have hne : ∀ key', layout.part (layout.put key a draft) key' = none → key' ≠ key := by
      rintro key' hpart rfl
      rw [layout.part_put_self] at hpart
      cases hpart
    refine ⟨fun hmem => ?_, fun word hword => ?_⟩
    · obtain ⟨key', hkey', hpart⟩ := hknown _ hmem
      exact hne key' hpart (layout.word_inj hkey')
    · obtain ⟨key', hkey', hpart⟩ := hknown word hword
      rw [layout.part_put_of_ne _ _ (hne key' hpart)] at hpart
      exact ⟨key', hkey', hpart⟩
  · rintro ⟨hnotMem, hknown⟩ word hword
    obtain ⟨key', hkey', hpart⟩ := hknown word hword
    have hne : key' ≠ key := by
      rintro rfl
      exact hnotMem (hkey' ▸ hword)
    exact ⟨key', hkey', by rw [layout.part_put_of_ne _ _ hne, hpart]⟩

theorem shows_lookup_cons_iff {vs : List (String × Json)} {key : κ} {v : Json}
    (h : record.word key ∉ vs.map Prod.fst) :
    layout.Shows rel (fun key' => ((record.word key, v) :: vs).lookup (record.word key')) draft
        draft' ↔
      ∃ a, rel key v a ∧
        layout.Shows rel (fun key' => vs.lookup (record.word key')) (layout.put key a draft)
          draft' := by
  refine shows_cons_iff (Field.lookup_eq_none_of_notMem h) List.lookup_cons_self fun key' hne => ?_
  have hword : (record.word key' == record.word key) = false :=
    beq_eq_false_iff_ne.mpr fun heq => hne (layout.word_inj heq)
  rw [List.lookup_cons, hword]

theorem decodeMembers_eq_some_iff (h : ∀ key, Judges room (decodePart key) (rel key))
    {members : List (List Piece × Written)} :
    members.foldlM (decodeMember (record.decodeEntry (layout.enter decodePart))) draft =
        some draft' ↔
      Written.depthMembers members ≤ room ∧ ∃ vs, Written.members? members = some vs ∧
        (vs.map Prod.fst).Nodup ∧
        (∀ word ∈ vs.map Prod.fst, ∃ key, record.word key = word ∧ layout.part draft key = none) ∧
        layout.Shows rel (fun key => vs.lookup (record.word key)) draft draft' := by
  -- that no key is repeated shows as the entries that are left being those the draft has not
  induction members generalizing draft with
  | nil =>
    constructor
    · intro hfold
      obtain rfl := Option.some.inj hfold
      exact ⟨Nat.zero_le _, [], rfl, List.nodup_nil, by simp, shows_none_iff.mpr rfl⟩
    · rintro ⟨-, vs, hvs, -, -, hshows⟩
      obtain rfl := Option.some.inj hvs
      rw [shows_none_iff.mp hshows]
      rfl
  | cons member members ih =>
    obtain ⟨piece, value⟩ := member
    rw [List.foldlM_cons, Option.bind_eq_bind, Option.bind_eq_some_iff]
    simp only [decodeMember, Option.bind_eq_some_iff, decodeEntry_eq_some_iff, enter_eq_some_iff h,
      Written.members?_cons_eq_some_iff, Written.depthMembers, Nat.max_le]
    constructor
    · rintro ⟨middle, ⟨word, htext, key, rfl, hnone, hdepth, v, hv, a, hrel, rfl⟩, hfold⟩
      obtain ⟨hdepths, vs, hvs, hnodup, hknown, hshows⟩ := ih.mp hfold
      obtain ⟨hnotMem, hknown'⟩ := (known_put_iff a hnone).mp hknown
      refine ⟨⟨hdepth, hdepths⟩, _, ⟨_, v, vs, htext, hv, hvs, rfl⟩, ?_, ?_, ?_⟩
      · exact List.nodup_cons.mpr ⟨hnotMem, hnodup⟩
      · exact List.forall_mem_cons.mpr ⟨⟨key, rfl, hnone⟩, hknown'⟩
      · exact (shows_lookup_cons_iff hnotMem).mpr ⟨a, hrel, hshows⟩
    · rintro ⟨⟨hdepth, hdepths⟩, _, ⟨word, v, vs, htext, hv, hvs, rfl⟩, hnodup, hknown, hshows⟩
      obtain ⟨hnotMem, hnodup'⟩ := List.nodup_cons.mp hnodup
      obtain ⟨⟨key, hword, hnone⟩, hknown'⟩ := List.forall_mem_cons.mp hknown
      obtain rfl : record.word key = word := hword
      obtain ⟨a, hrel, hshows'⟩ := (shows_lookup_cons_iff hnotMem).mp hshows
      refine ⟨_, ⟨_, htext, key, rfl, hnone, hdepth, v, hv, a, hrel, rfl⟩, ih.mpr ?_⟩
      exact ⟨hdepths, vs, hvs, hnodup', (known_put_iff a hnone).mpr ⟨hnotMem, hknown'⟩, hshows'⟩

/-! ### Rows -/

theorem lookup_zip_eq_none_of_notMem [DecidableEq κ] {key : κ} {keys : List κ} (h : key ∉ keys)
    (vs : List Json) : (keys.zip vs).lookup key = none := by
  rw [List.lookup_eq_none_iff]
  rintro ⟨key', v⟩ hmem
  rw [bne_iff_ne]
  rintro rfl
  exact h (List.of_mem_zip hmem).1

theorem shows_zip_cons_iff [DecidableEq κ] {key : κ} {keys : List κ} (hkey : key ∉ keys)
    {v : Json} {vs : List Json} :
    layout.Shows rel (fun key' => ((key :: keys).zip (v :: vs)).lookup key') draft draft' ↔
      ∃ a, rel key v a ∧
        layout.Shows rel (fun key' => (keys.zip vs).lookup key') (layout.put key a draft)
          draft' := by
  refine shows_cons_iff (lookup_zip_eq_none_of_notMem hkey vs) List.lookup_cons_self
    fun key' hne => ?_
  rw [List.zip_cons_cons, List.lookup_cons, beq_eq_false_iff_ne.mpr hne]

theorem decodeRow_eq_some_iff [DecidableEq κ] (h : ∀ key, Judges room (decodePart key) (rel key))
    {short : Nat → σ → Except ContentFault σ} {least total : Nat} (hleast : least ≤ total)
    (hshort : ∀ count draft, count < total →
      (short count draft).toOption = if least ≤ count then some draft else none)
    {keys : List κ} {count : Nat} (hcount : count + keys.length = total) (hnodup : keys.Nodup)
    {items : List Written} :
    decodeRow (layout.enter decodePart) short keys count draft items = some draft' ↔
      Written.depthItems items ≤ room ∧ ∃ vs, Written.items? items = some vs ∧
        least ≤ count + vs.length ∧ vs.length ≤ keys.length ∧
        layout.Shows rel (fun key => (keys.zip vs).lookup key) draft draft' := by
  induction keys generalizing count draft items with
  | nil =>
    cases items with
    | nil =>
      constructor
      · intro hrow
        obtain rfl := Option.some.inj hrow
        refine ⟨Nat.zero_le _, [], rfl, ?_, Nat.le_refl _, shows_none_iff.mpr rfl⟩
        rw [List.length_nil] at hcount ⊢
        omega
      · rintro ⟨-, vs, hvs, -, -, hshows⟩
        obtain rfl := Option.some.inj hvs
        rw [shows_none_iff.mp hshows]
        rfl
    | cons item items =>
      constructor
      · intro hrow
        cases hrow
      · rintro ⟨-, vs, hvs, -, hlong, -⟩
        obtain ⟨v, rest, -, -, rfl⟩ := Written.items?_cons_eq_some_iff.mp hvs
        exact absurd hlong (by simp)
  | cons key keys ih =>
    obtain ⟨hkey, hkeys⟩ := List.nodup_cons.mp hnodup
    rw [List.length_cons] at hcount
    cases items with
    | nil =>
      have hnow := hshort count draft (by omega)
      rw [decodeRow, hnow]
      constructor
      · intro hrow
        split at hrow
        · rename_i henough
          obtain rfl := Option.some.inj hrow
          exact ⟨Nat.zero_le _, [], rfl, henough, Nat.zero_le _, shows_none_iff.mpr rfl⟩
        · cases hrow
      · rintro ⟨-, vs, hvs, henough, -, hshows⟩
        obtain rfl := Option.some.inj hvs
        have henough' : least ≤ count := henough
        rw [if_pos henough', shows_none_iff.mp hshows]
    | cons item items =>
      have hnext : count + 1 + keys.length = total := by omega
      rw [decodeRow, Option.bind_eq_some_iff]
      simp only [enter_eq_some_iff h, Written.items?_cons_eq_some_iff, Written.depthItems,
        Nat.max_le]
      constructor
      · rintro ⟨middle, ⟨hdepth, v, hv, a, hrel, rfl⟩, hrow⟩
        obtain ⟨hdepths, vs, hvs, henough, hlong, hshows⟩ := (ih hnext hkeys).mp hrow
        refine ⟨⟨hdepth, hdepths⟩, _, ⟨v, vs, hv, hvs, rfl⟩, ?_, ?_,
          (shows_zip_cons_iff hkey).mpr ⟨a, hrel, hshows⟩⟩
        · rw [List.length_cons]
          omega
        · rw [List.length_cons, List.length_cons]
          omega
      · rintro ⟨⟨hdepth, hdepths⟩, _, ⟨v, vs, hv, hvs, rfl⟩, henough, hlong, hshows⟩
        obtain ⟨a, hrel, hshows'⟩ := (shows_zip_cons_iff hkey).mp hshows
        rw [List.length_cons] at henough hlong
        rw [List.length_cons] at hlong
        refine ⟨_, ⟨hdepth, v, hv, a, hrel, rfl⟩, (ih hnext hkeys).mpr ?_⟩
        exact ⟨hdepths, vs, hvs, by omega, by omega, hshows'⟩

/-! ### Records -/

theorem lookup_zip_words [DecidableEq κ] (layout : record.Layout Part) (key : κ) (keys : List κ)
    (vs : List Json) :
    ((keys.map record.word).zip vs).lookup (record.word key) = (keys.zip vs).lookup key := by
  induction keys generalizing vs with
  | nil => rfl
  | cons key' keys ih =>
    cases vs with
    | nil => rfl
    | cons v vs =>
      have hbeq : (record.word key == record.word key') = (key == key') := by
        by_cases hkey : key = key'
        · rw [hkey, beq_self_eq_true, beq_self_eq_true]
        · have hword : record.word key ≠ record.word key' := fun h => hkey (layout.word_inj h)
          rw [beq_eq_false_iff_ne.mpr hkey, beq_eq_false_iff_ne.mpr hword]
      rw [List.map_cons, List.zip_cons_cons, List.zip_cons_cons, List.lookup_cons,
        List.lookup_cons, hbeq, ih]

theorem rel_iff {rel : Json → α → Prop} {o : Option Json} {p : Option α} :
    Option.Rel rel o p ↔ (o = none → p = none) ∧ ∀ v, o = some v → ∃ a, rel v a ∧ p = some a := by
  constructor
  · intro h
    cases h with
    | none => exact ⟨fun _ => rfl, fun v hv => nomatch hv⟩
    | some hrel =>
      refine ⟨fun hv => (nomatch hv), fun v hv => ⟨_, ?_, rfl⟩⟩
      exact Option.some.inj hv ▸ hrel
  · rintro ⟨hnone, hsome⟩
    cases o with
    | none =>
      rw [hnone rfl]
      exact .none
    | some v =>
      obtain ⟨a, hrel, rfl⟩ := hsome v rfl
      exact .some hrel

theorem shows_start_iff (entries : String → Option Json) :
    layout.Shows rel (fun key => entries (record.word key)) record.start draft ↔
      ∀ key, Option.Rel (rel key) (entries (record.word key)) (layout.part draft key) := by
  refine forall_congr' fun key => ?_
  rw [rel_iff, layout.part_start]

theorem exists_part_start_iff (layout : record.Layout Part) (word : String) :
    (∃ key, record.word key = word ∧ layout.part record.start key = none) ↔
      word ∈ record.words := by
  rw [words, List.mem_map]
  constructor
  · rintro ⟨key, hword, -⟩
    exact ⟨key, layout.mem_keys key, hword⟩
  · rintro ⟨key, -, hword⟩
    exact ⟨key, hword, layout.part_start key⟩

theorem decode_object_eq_some_iff (h : ∀ key, Judges room (decodePart key) (rel key))
    (least : Nat) {members : List (List Piece × Written)} :
    record.decode (layout.enter decodePart) (.object members) = some draft ↔
      (Written.object members).depth ≤ room + 1 ∧ ∃ v, (Written.object members).value? = some v ∧
        ∃ entries, HasEntries record.words least v entries ∧
          ∀ key, Option.Rel (rel key) (entries (record.word key)) (layout.part draft key) := by
  rw [decode, decodeMembers_eq_some_iff h, Written.depth, Nat.add_le_add_iff_right]
  simp only [exists_part_start_iff layout]
  refine and_congr_right fun _ => ?_
  constructor
  · rintro ⟨vs, hvs, hnodup, hwords, hshows⟩
    refine ⟨.object vs, by rw [Written.value?, hvs, Option.map_some], _, .table hnodup hwords, ?_⟩
    exact (shows_start_iff fun word => vs.lookup word).mp hshows
  · rintro ⟨_, hvalue, _, hentries, hparts⟩
    obtain ⟨vs, hvs, rfl⟩ := Option.map_eq_some_iff.mp hvalue
    cases hentries with
    | table hnodup hwords =>
      exact ⟨vs, hvs, hnodup, hwords, (shows_start_iff fun word => vs.lookup word).mpr hparts⟩

theorem decode_array_eq_some_iff [DecidableEq κ]
    (h : ∀ key, Judges room (decodePart key) (rel key)) {least : Nat}
    (hleast : least ≤ record.keys.length)
    (hshort : ∀ count draft, count < record.keys.length →
      (record.short count draft).toOption = if least ≤ count then some draft else none)
    {items : List Written} :
    record.decode (layout.enter decodePart) (.array items) = some draft ↔
      (Written.array items).depth ≤ room + 1 ∧ ∃ v, (Written.array items).value? = some v ∧
        ∃ entries, HasEntries record.words least v entries ∧
          ∀ key, Option.Rel (rel key) (entries (record.word key)) (layout.part draft key) := by
  have hlength : record.words.length = record.keys.length := List.length_map _
  have hzip : ∀ (vs : List Json), (fun key => (record.keys.zip vs).lookup key) =
      fun key => (record.words.zip vs).lookup (record.word key) :=
    fun vs => funext fun key => (lookup_zip_words layout key record.keys vs).symm
  rw [decode, decodeRow_eq_some_iff h hleast hshort (Nat.zero_add _) layout.nodup_keys,
    Written.depth, Nat.add_le_add_iff_right]
  refine and_congr_right fun _ => ?_
  constructor
  · rintro ⟨vs, hvs, henough, hlong, hshows⟩
    rw [Nat.zero_add] at henough
    rw [hzip] at hshows
    refine ⟨.array vs, by rw [Written.value?, hvs, Option.map_some], _,
      .row henough (hlength ▸ hlong), ?_⟩
    exact (shows_start_iff fun word => (record.words.zip vs).lookup word).mp hshows
  · rintro ⟨_, hvalue, _, hentries, hparts⟩
    obtain ⟨vs, hvs, rfl⟩ := Option.map_eq_some_iff.mp hvalue
    cases hentries with
    | row henough hlong =>
      refine ⟨vs, hvs, by omega, hlength ▸ hlong, ?_⟩
      rw [hzip]
      exact (shows_start_iff fun word => (record.words.zip vs).lookup word).mpr hparts

/-- A record is decoded when it has entries as it should and every entry is decoded; then the
parts of the draft are what stands under their keys. -/
theorem decode_eq_some_iff [DecidableEq κ] (h : ∀ key, Judges room (decodePart key) (rel key))
    {least : Nat} (hleast : least ≤ record.keys.length)
    (hshort : ∀ count draft, count < record.keys.length →
      (record.short count draft).toOption = if least ≤ count then some draft else none)
    {value : Written} :
    record.decode (layout.enter decodePart) value = some draft ↔
      value.depth ≤ room + 1 ∧ ∃ v, value.value? = some v ∧
        ∃ entries, HasEntries record.words least v entries ∧
          ∀ key, Option.Rel (rel key) (entries (record.word key)) (layout.part draft key) := by
  cases value with
  | object members => exact decode_object_eq_some_iff h least
  | array items => exact decode_array_eq_some_iff h hleast hshort
  | null | boolean | number | string =>
    constructor
    · intro hdecode
      cases hdecode
    · rintro ⟨-, v, hvalue, _, hentries, -⟩
      cases hentries <;> simp [Written.value?] at hvalue

end Layout

end Record

end Setters
