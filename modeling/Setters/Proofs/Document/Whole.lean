import Mathlib.Data.List.DropRight
import Setters.Proofs.Compilation.Order
import Setters.Proofs.Expr.RoundTrip
import Setters.Proofs.Expr.Truncation
import Setters.Proofs.Schema.Acceptance
import Setters.Proofs.Schema.Truncation

/-!
# Whole documents

A document that lost its end, or has something else behind it, is never taken for a whole one:
`documents_are_whole`. Where it was cut off, that is what it is refused for, and where something
but blanks was added the reader comes to the end of the document first.
-/

namespace Setters

open Json

variable {α : Type}

/-- The text without the blanks at its end. -/
def trimmed (text : String) : String :=
  String.ofList (text.toList.rdropWhile isBlank)

/-- Whether a text is loaded as a value, no part of it without its end is loaded as anything, and
what comes behind it may be blanks alone. -/
structure LoadsWhole (load : String → Except Fault α) (text : String) (a : α) : Prop where
  cut : ∀ p q, p ++ q = trimmed text → q ≠ "" →
    ∃ fault, load p = .error fault ∧ fault.category = .truncation
  extended : ∀ more b, load (trimmed text ++ more) = .ok b ↔ Blank more.toList ∧ b = a
  refused : ∀ more, ¬Blank more.toList →
    ∃ fault, load (trimmed text ++ more) = .error fault ∧ fault.message = "trailing characters"

/-! ### The end of a document -/

theorem Json.Written.Spells.ends {value : Written} {text : List Char} (h : value.Spells text)
    (hdepth : value.depth ≠ 0) : ∃ inner c, text = inner ++ [c] ∧ isBlank c = false := by
  cases value with
  | array items =>
    obtain ⟨inner, rfl, -⟩ := h
    exact ⟨'[' :: inner, ']', rfl, by decide⟩
  | object members =>
    obtain ⟨inner, rfl, -⟩ := h
    exact ⟨'\x7b' :: inner, '\x7d', rfl, by decide⟩
  | null | boolean | number | string => exact absurd rfl hdepth

theorem rdropWhile_blank {cs after : List Char} {c : Char} (hc : isBlank c = false)
    (hafter : Blank after) : (cs ++ [c] ++ after).rdropWhile isBlank = cs ++ [c] := by
  have hreverse : Blank after.reverse := fun d hd => hafter d (List.mem_reverse.mp hd)
  have hskip : skipBlanks (after.reverse ++ c :: cs.reverse) = c :: cs.reverse :=
    skipBlanks_lead hreverse hc cs.reverse
  have hturned : (cs ++ [c] ++ after).reverse = after.reverse ++ c :: cs.reverse := by simp
  rw [List.rdropWhile, hturned]
  exact (congrArg List.reverse hskip).trans (by simp)

theorem skipBlanks_isEmpty_iff (cs : List Char) : (skipBlanks cs).isEmpty ↔ Blank cs := by
  rw [List.isEmpty_iff, skipBlanks, List.dropWhile_eq_nil_iff]
  rfl

/-! ### Reading a document -/

/-- What is read up to its end and cut off in no other place is loaded as a whole. -/
theorem loadsWhole_of_cuts {read : Nat → Reader α} {decode : Written → Option α}
    {accepts : Written → Prop} (hdecodes : Decodes (read maxDepth) decode)
    (hcuts : Cuts accepts (read maxDepth)) {document : Written} {text : String} {a : α}
    (hdocument : document.IsDocument text) (haccept : accepts document)
    (hdecode : decode document = some a) (hdepth : document.depth ≠ 0) :
    LoadsWhole (readDocument read) text a := by
  obtain ⟨before, body, after, htext, hbefore, hafter, hspells⟩ := hdocument
  obtain ⟨inner, c, rfl, hc⟩ := hspells.ends hdepth
  have htrimmed : (trimmed text).toList = before ++ (inner ++ [c]) := by
    have hparts : before ++ (inner ++ [c] ++ after) = before ++ inner ++ [c] ++ after := by simp
    rw [trimmed, String.toList_ofList, htext, hparts, rdropWhile_blank hc hafter,
      List.append_assoc]
  -- the reader stops behind the last token, whatever follows
  have hload : ∀ more : String, readDocument read (trimmed text ++ more) =
      if (skipBlanks more.toList).isEmpty then .ok a
      else
        .error ((Halt.malformed (.within .trailingCharacters (skipBlanks more.toList))).fault
          (trimmed text ++ more).toList) := by
    intro more
    have hread := hdecodes document before (inner ++ [c]) more.toList hbefore hspells
    rw [hdecode] at hread
    have hok : read maxDepth (trimmed text ++ more).toList = .ok (a, more.toList) := by
      rw [String.toList_append, htrimmed, List.append_assoc]
      exact eq_ok_of_toOption hread
    rw [readDocument, hok]
  refine ⟨?_, ?_, ?_⟩
  · intro p q hpq hq
    have hcut : Cut p.toList (before ++ (inner ++ [c])) := by
      refine ⟨q.toList, fun hnil => hq (String.toList_eq_nil_iff.mp hnil), ?_⟩
      rw [← htrimmed, ← hpq, String.toList_append]
    have hread := hcuts document before (inner ++ [c]) p.toList hbefore hspells haccept hcut
    obtain ⟨halt, hhalt, htruncation⟩ := hread
    refine ⟨halt.fault p.toList, by rw [readDocument, hhalt], ?_⟩
    rw [halt.category_fault, htruncation]
  · intro more b
    rw [hload, ← skipBlanks_isEmpty_iff]
    by_cases hblank : (skipBlanks more.toList).isEmpty
    · rw [if_pos hblank]
      constructor
      · intro heq
        exact ⟨hblank, (Except.ok.inj heq).symm⟩
      · rintro ⟨-, rfl⟩
        rfl
    · rw [if_neg hblank]
      constructor
      · intro heq
        cases heq
      · rintro ⟨hempty, -⟩
        exact absurd hempty hblank
  · intro more hmore
    have hblank : ¬(skipBlanks more.toList).isEmpty := fun h =>
      hmore ((skipBlanks_isEmpty_iff _).mp h)
    exact ⟨_, by rw [hload, if_neg hblank], rfl⟩

theorem Schema.loadsWhole {text : String} {schema : Schema}
    (h : Schema.ofJsonText text = .ok schema) : LoadsWhole Schema.ofJsonText text schema := by
  obtain ⟨document, hdocument, hdepth, v, hvalue, hschema⟩ :=
    (Schema.ofJsonText_eq_ok_iff text schema).mp h
  have hdecode : Schema.decode maxDepth document = some schema :=
    (Schema.decode_judges maxDepth document schema).mpr ⟨hdepth, v, hvalue, hschema⟩
  have haccept : (Schema.decode maxDepth document).isSome := by rw [hdecode]; rfl
  have hbracket : document.depth ≠ 0 := by
    rw [← Written.depth_of_value? document v hvalue]
    exact hschema.depth_ne_zero
  exact loadsWhole_of_cuts (Schema.readJson_decodes maxDepth) (Schema.readJson_cuts maxDepth)
    hdocument haccept hdecode hbracket

theorem Expr.loadsWhole {node : Expr} {text : String} (hprints : Prints node.toJson text)
    (hdepth : node.toJson.depth ≤ 127) : LoadsWhole Expr.ofJsonText text node := by
  obtain ⟨document, hvalue, hdocument⟩ :=
    exists_isDocument_of_prints (numberFree_toJson node) hprints
  have hsame := Written.depth_of_value? document node.toJson hvalue
  have hdecode : Expr.decode maxDepth document = some node := by
    rw [decode_eq_of_value hvalue, ← hsame]
    exact if_pos hdepth
  have haccept : document.NumberFree ∧ (Expr.decode maxDepth document).isSome :=
    ⟨⟨node.toJson, hvalue, numberFree_toJson node⟩, by rw [hdecode]; rfl⟩
  have hbracket : document.depth ≠ 0 := by
    rw [← hsame, toJson_eq_tagged]
    exact Nat.succ_ne_zero _
  exact loadsWhole_of_cuts (Expr.readJson_decodes maxDepth) (Expr.readJson_cuts maxDepth)
    hdocument haccept hdecode hbracket

/-- A text that is read as a schema, and one that is printed for a node, is taken for a whole
document only with its end, and only with blanks behind it. -/
theorem documents_are_whole :
    (∀ text schema, Schema.ofJsonText text = .ok schema →
      LoadsWhole Schema.ofJsonText text schema) ∧
    ∀ node text, Prints node.toJson text → node.toJson.depth ≤ 127 →
      LoadsWhole Expr.ofJsonText text node :=
  ⟨fun _ _ => Schema.loadsWhole, fun _ _ => Expr.loadsWhole⟩

/-- A schema document, and a node with another one inside. -/
theorem podText_is_whole :
    (∃ schema, Schema.ofJsonText podText = .ok schema ∧
      LoadsWhole Schema.ofJsonText podText schema) ∧
    LoadsWhole Expr.ofJsonText (pretty (Expr.merges 1).toJson) (Expr.merges 1) := by
  have hreads : (Schema.ofJsonText podText).toOption.isSome := by decide +kernel
  obtain ⟨schema, hread⟩ := Option.isSome_iff_exists.mp hreads
  have hschema := toOption_eq_some_iff.mp hread
  refine ⟨⟨schema, hschema, documents_are_whole.1 podText schema hschema⟩, ?_⟩
  exact documents_are_whole.2 (Expr.merges 1) _ (.inr rfl) (by decide)

end Setters
