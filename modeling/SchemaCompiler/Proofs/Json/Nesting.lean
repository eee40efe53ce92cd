import SchemaCompiler.Json.Reader
import SchemaCompiler.Proofs.Text.Encoding

/-!
How deep a JSON value is, which values a text keeps exactly, and the bytes of a value's text.
-/

namespace SchemaCompiler.Json

open Text (encode)

/-! ## Depth -/

mutual

/-- How many containers stand inside each other, the value itself counted. -/
def depth : Json → Nat
  | array items => itemsDepth items + 1
  | object members => membersDepth members + 1
  | _ => 0

def itemsDepth : List Json → Nat
  | [] => 0
  | item :: items => max item.depth (itemsDepth items)

def membersDepth : List (String × Json) → Nat
  | [] => 0
  | (_, value) :: members => max value.depth (membersDepth members)

end

theorem itemsDepth_cons_le {j : Json} {js : List Json} {d : Nat} :
    itemsDepth (j :: js) ≤ d ↔ j.depth ≤ d ∧ itemsDepth js ≤ d := by
  rw [itemsDepth, Nat.max_le]

theorem membersDepth_cons_le {m : String × Json} {ms : List (String × Json)} {d : Nat} :
    membersDepth (m :: ms) ≤ d ↔ m.2.depth ≤ d ∧ membersDepth ms ≤ d := by
  rw [membersDepth, Nat.max_le]

/-! ## Whole values -/

/-- A value whose numbers are whole, not negative and within 64 bits. -/
inductive Whole : Json → Prop where
  | null : Whole .null
  | boolean (b : Bool) : Whole (.boolean b)
  | number {n : Nat} (h : n ≤ Reader.maxSignificand) : Whole (.number (.integer n))
  | string (s : String) : Whole (.string s)
  | array {items : List Json} (h : ∀ j ∈ items, Whole j) : Whole (.array items)
  | object {members : List (String × Json)} (h : ∀ m ∈ members, Whole m.2) :
      Whole (.object members)

/-! ## Bytes -/

/-- The bytes of the value's text. -/
def bytes (j : Json) : Bytes := encode j.text

def quotedBytes (s : String) : Bytes := encode (quoted s)

/-- A member as it stands in an object. -/
def memberBytes (m : String × Json) : Bytes := quotedBytes m.1 ++ 58 :: m.2.bytes

theorem itemTexts_eq_map (items : List Json) : itemTexts items = items.map text := by
  induction items with
  | nil => rfl
  | cons j items ih => rw [itemTexts, ih, List.map_cons]

theorem memberTexts_eq_map (members : List (String × Json)) :
    memberTexts members = members.map fun m => quoted m.1 ++ ":" ++ m.2.text := by
  induction members with
  | nil => rfl
  | cons m members ih => rw [memberTexts, ih, List.map_cons]

theorem bytes_array (items : List Json) :
    (array items).bytes = 91 :: ([44].intercalate (items.map bytes) ++ [93]) := by
  have brackets : encode "[" = [91] ∧ encode "]" = [93] ∧ encode "," = [44] := by decide
  obtain ⟨hOpen, hClose, hComma⟩ := brackets
  rw [bytes, text, itemTexts_eq_map, Text.encode_append, Text.encode_append,
    Text.encode_intercalate, hOpen, hClose, hComma, List.map_map]
  rfl

theorem bytes_object (members : List (String × Json)) :
    (object members).bytes = 123 :: ([44].intercalate (members.map memberBytes) ++ [125]) := by
  have braces : encode "\x7b" = [123] ∧ encode "\x7d" = [125] ∧ encode "," = [44] := by decide
  obtain ⟨hOpen, hClose, hComma⟩ := braces
  have member : (encode ∘ fun m : String × Json => quoted m.1 ++ ":" ++ m.2.text) = memberBytes := by
    funext m
    rw [Function.comp_apply, Text.encode_append, Text.encode_append, List.append_assoc]
    rfl
  rw [bytes, text, memberTexts_eq_map, Text.encode_append, Text.encode_append,
    Text.encode_intercalate, hOpen, hClose, hComma, List.map_map, member]
  rfl

/-- Pieces behind the first one, each with a comma in front. -/
def behindCommas (pieces : List Bytes) : Bytes := pieces.flatMap (44 :: ·)

theorem intercalate_cons_eq (piece : Bytes) (pieces : List Bytes) :
    [44].intercalate (piece :: pieces) = piece ++ behindCommas pieces := by
  induction pieces generalizing piece with
  | nil => simp [behindCommas, List.intercalate]
  | cons next pieces ih =>
    rw [List.intercalate_cons_cons, ih, behindCommas, behindCommas, List.flatMap_cons,
      List.append_assoc]
    rfl

theorem quotedBytes_eq (s : String) :
    quotedBytes s = 34 :: (s.toList.flatMap (fun c => encode (escapedChar c)) ++ [34]) := by
  have quote : encode "\"" = [34] := by decide
  rw [quotedBytes, quoted, Text.encode_append, Text.encode_append, Text.encode_join, quote,
    List.flatMap_map]
  rfl

end SchemaCompiler.Json
