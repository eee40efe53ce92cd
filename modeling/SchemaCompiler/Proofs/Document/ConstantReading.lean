import SchemaCompiler.Page.Markdown
import SchemaCompiler.Proofs.Document.CanonicalReading

/-!
Constants, type references and applied directives as they are shown.

Each is read back from its text, so the text of a well-formed one is the text of no other. A type
reference must be over a lexical name: the marks of a list or a non-null type inside a name would be
read as what they look like.
-/

namespace SchemaCompiler

open Lexer Grammar

/-- No non-null mark stands directly behind another, whatever the name inside is. -/
def TypeRef.SingleMarks : TypeRef → Prop
  | named _ => True
  | list inner => inner.SingleMarks
  | nonNull inner => inner.SingleMarks ∧ ∀ other, inner ≠ .nonNull other

theorem TypeRef.wellFormed_iff (ty : TypeRef) :
    ty.WellFormed ↔ ty.SingleMarks ∧ IsName ty.baseName := by
  induction ty with
  | named name => exact (and_iff_right trivial).symm
  | list inner ih => exact ih
  | nonNull inner ih =>
    rw [WellFormed, SingleMarks, baseName, ih]
    exact and_right_comm

/-! ## A default value in a source -/

/-- An input type with one field of a given type, which has a default. -/
def defaultSource (ty value : String) : String :=
  "input I \x7b f: " ++ ty ++ " = " ++ value ++ " \x7d"

namespace Document

variable {name path : String} {ty : TypeRef} {value : Value}

/-- What such a source should say. -/
def withDefault (name path : String) (ty : TypeRef) (value : Value) (place inner : Position) :
    Document where
  name
  path
  definitions :=
    [.type ⟨"I", none, [], .inputObject [⟨"f", none, ty, some value, [], inner⟩], place⟩]

theorem words_withDefault (place inner : Position) :
    (withDefault name path ty value place inner).words =
      [.name "input", .name "I", .mark .braceOpen, .name "f", .mark .colon, .typeRef ty,
        .mark .equals, .constant value, .mark .braceClose] := rfl

theorem wellFormed_withDefault_iff (place inner : Position) :
    (withDefault name path ty value place inner).WellFormed ↔ ty.WellFormed ∧ value.WellFormed := by
  have names : IsName "I" ∧ IsName "f" := by decide
  constructor
  · intro h
    have field := (h _ List.mem_cons_self).kind _ List.mem_cons_self
    exact ⟨field.ty, field.default _ rfl⟩
  · rintro ⟨good, good'⟩ definition member
    obtain rfl := List.mem_singleton.mp member
    refine ⟨names.1, List.forall_mem_nil _, ?_⟩
    intro field member
    obtain rfl := List.mem_singleton.mp member
    refine ⟨names.2, good, ?_, List.forall_mem_nil _⟩
    rintro _ ⟨⟩
    exact good'

theorem lexes_defaultSource (good : ty.WellFormed) (good' : value.WellFormed)
    (place inner : Position) :
    Lexes (defaultSource ty.text value.text).toList
      (Word.tokens (withDefault name path ty value place inner).words ++ [.eof]) := by
  have names : IsName "input" ∧ IsName "I" ∧ IsName "f" := by decide
  have blank : isIgnored ' ' = true := by decide
  have constant := (Value.spells value good').append_ignored blank (spells_mark .braceClose)
  have default := (constant.cons_ignored blank).behind_mark .equals
  have typed := (TypeRef.spells good).append_ignored blank default
  have field := ((spells_name names.2.2).mark .colon).append_ignored blank typed
  have body := (field.cons_ignored blank).behind_mark .braceOpen
  have type := (spells_name names.2.1).append_ignored blank body
  have whole := (spells_name names.1).append_ignored blank type
  have text : (defaultSource ty.text value.text).toList = "input".toList ++ ' ' :: ("I".toList ++
      ' ' :: Punctuator.braceOpen.char :: ' ' :: ("f".toList ++ [Punctuator.colon.char] ++
        ' ' :: (ty.text.toList ++ ' ' :: Punctuator.equals.char :: ' ' ::
          (value.text.toList ++ ' ' :: [Punctuator.braceClose.char])))) := by
    change ("input I \x7b f: " ++ ty.text ++ " = " ++ value.text ++ " \x7d").toList = _
    simp only [String.toList_append, String.reduceToList, List.append_assoc, List.cons_append,
      List.nil_append, Punctuator.char]
  have tokens : Word.tokens (withDefault name path ty value place inner).words =
      [.name "input"] ++ ([.name "I"] ++ .punct .braceOpen :: ([.name "f"] ++ [.punct .colon] ++
        (ty.kinds ++ .punct .equals :: (value.kinds ++ [.punct .braceClose])))) := by
    simp only [words_withDefault, Word.tokens, Word.kinds, List.flatMap_cons, List.flatMap_nil,
      List.cons_append, List.nil_append]
  rw [text, tokens]
  exact whole.lexes

/-- Only the two places are lost when positions are forgotten. -/
theorem eq_withDefault {parsed : Document} {place inner : Position}
    (same : parsed.unplaced = (withDefault name path ty value place inner).unplaced) :
    ∃ place inner, parsed = withDefault name path ty value place inner := by
  obtain ⟨name', path', definitions⟩ := parsed
  simp only [unplaced, withDefault, Document.mk.injEq, List.map_cons, List.map_nil] at same
  obtain ⟨rfl, rfl, single⟩ := same
  obtain ⟨definition, rfl, declared⟩ := List.map_eq_singleton_iff.mp single
  cases definition with
  | type type =>
    obtain ⟨name, description, directives, kind, place⟩ := type
    simp only [Definition.unplaced, TypeDef.unplaced, Definition.type.injEq, TypeDef.mk.injEq,
      List.map_nil, List.map_eq_nil_iff] at declared
    obtain ⟨rfl, rfl, rfl, object, -⟩ := declared
    cases kind with
    | inputObject fields =>
      simp only [TypeKind.unplaced, TypeKind.inputObject.injEq, List.map_cons, List.map_nil]
        at object
      obtain ⟨field, rfl, given⟩ := List.map_eq_singleton_iff.mp object
      obtain ⟨name, description, ty, default, directives, inner⟩ := field
      simp only [InputValue.unplaced, InputValue.mk.injEq, List.map_nil, List.map_eq_nil_iff]
        at given
      obtain ⟨rfl, rfl, rfl, rfl, rfl, -⟩ := given
      exact ⟨place, inner, rfl⟩
    | _ => cases object
  | _ => cases declared

/-- A default value and the type in front of it are read back if they are well formed, and under no
other name. -/
theorem reads_withDefault_iff (name path : String) (marks : ty.SingleMarks)
    (good : value.WellFormed) :
    (∃ place inner, ofSource name path (defaultSource ty.text value.text) =
      .ok (withDefault name path ty value place inner)) ↔ IsName ty.baseName := by
  constructor
  · rintro ⟨place, inner, read⟩
    have whole := (wellFormed_withDefault_iff place inner).mp (wellFormed_of_source read)
    exact (ty.wellFormed_iff.mp whole.1).2
  · intro named
    have good' : ty.WellFormed := ty.wellFormed_iff.mpr ⟨marks, named⟩
    have whole : (withDefault name path ty value .start .start).WellFormed :=
      (wellFormed_withDefault_iff .start .start).mpr ⟨good', good⟩
    obtain ⟨parsed, read, same⟩ := reads_of_lexes whole
      (lexes_defaultSource good' good .start .start)
    obtain ⟨place, inner, rfl⟩ := eq_withDefault same
    exact ⟨place, inner, read⟩

end Document

theorem eq_of_defaultSource {ty ty' : TypeRef} {value value' : Value} (good : ty.WellFormed)
    (good' : ty'.WellFormed) (whole : value.WellFormed) (whole' : value'.WellFormed)
    (same : defaultSource ty.text value.text = defaultSource ty'.text value'.text) :
    ty = ty' ∧ value = value' := by
  have read := ty.wellFormed_iff.mp good
  have read' := ty'.wellFormed_iff.mp good'
  obtain ⟨place, inner, parsed⟩ :=
    (Document.reads_withDefault_iff "" "" read.1 whole).mpr read.2
  obtain ⟨place', inner', parsed'⟩ :=
    (Document.reads_withDefault_iff "" "" read'.1 whole').mpr read'.2
  rw [same] at parsed
  have equal := Except.ok.inj (parsed.symm.trans parsed')
  cases equal
  exact ⟨rfl, rfl⟩

theorem Value.eq_of_text {value other : Value} (good : value.WellFormed) (good' : other.WellFormed)
    (same : value.text = other.text) : value = other := by
  have named : (TypeRef.named "T").WellFormed := by
    change IsName "T"
    decide
  exact (eq_of_defaultSource named named good good' (congrArg _ same)).2

theorem TypeRef.eq_of_text {ty other : TypeRef} (good : ty.WellFormed) (good' : other.WellFormed)
    (same : ty.text = other.text) : ty = other := by
  have constant : Value.null.WellFormed := trivial
  exact (eq_of_defaultSource good good' constant constant (congrArg (defaultSource · _) same)).1

/-! ## Applied directives in a source -/

theorem Argument.spells {arg : Argument} (good : arg.WellFormed) :
    Spells arg.text.toList (Word.tokens arg.words) := by
  have whole := Value.spells_entry good.1 (Value.spells arg.value good.2)
  rw [argument_tokens]
  exact whole

theorem DirectiveUse.spells {use : DirectiveUse} (good : use.WellFormed) :
    Spells use.text.toList (Word.tokens use.words) := by
  obtain ⟨name, args, place⟩ := use
  have named := spells_name good.1
  rw [directiveUse_tokens, tokens_block]
  cases args with
  | nil =>
    have whole := named.behind_mark .atSign
    simpa [text, Punctuator.char] using whole
  | cons first others =>
    have inside := Value.spells_bracketed .parenOpen .parenClose Argument.text
      (fun arg => Word.tokens arg.words) (first :: others) fun arg member =>
        Argument.spells (good.2 arg member)
    have whole :=
      (named.append inside fun rest _ => ends_cons_mark .parenOpen _).behind_mark .atSign
    simpa [text, Punctuator.char] using whole

theorem spells_directiveList {uses : List DirectiveUse} (good : ∀ use ∈ uses, use.WellFormed) :
    Spells (Page.directiveList uses).toList (Word.tokens (uses.flatMap DirectiveUse.words)) := by
  rw [Page.directiveList, String.toList_intercalate, List.map_map, tokens_flatMap]
  exact spells_intercalate (by decide) (by decide) _ _ uses fun use member =>
    DirectiveUse.spells (good use member)

/-- A scalar type with applied directives. -/
def Document.withDirectives (uses : List DirectiveUse) : Document where
  name := ""
  path := ""
  definitions := [.type ⟨"S", none, uses, .scalar, .start⟩]

theorem Document.reads_withDirectives {uses : List DirectiveUse}
    (good : ∀ use ∈ uses, use.WellFormed) :
    ∃ parsed, ofSource "" "" ("scalar S " ++ Page.directiveList uses) = .ok parsed ∧
      parsed.unplaced = (withDirectives uses).unplaced := by
  have names : IsName "scalar" ∧ IsName "S" := by decide
  have blank : isIgnored ' ' = true := by decide
  have whole := (spells_name names.1).append_ignored blank
    ((spells_name names.2).append_ignored blank (spells_directiveList good))
  have well : (withDirectives uses).WellFormed := by
    intro definition member
    obtain rfl := List.mem_singleton.mp member
    exact ⟨names.2, good, trivial⟩
  refine reads_of_lexes well ?_
  have text : ("scalar S " ++ Page.directiveList uses).toList =
      "scalar".toList ++ ' ' :: ("S".toList ++ ' ' :: (Page.directiveList uses).toList) := by
    simp
  have tokens : Word.tokens (withDirectives uses).words =
      [.name "scalar"] ++ ([.name "S"] ++ Word.tokens (uses.flatMap DirectiveUse.words)) := by
    have words : (withDirectives uses).words =
        .name "scalar" :: .name "S" :: (uses.flatMap DirectiveUse.words ++ []) ++ [] := rfl
    rw [words, List.append_nil, List.append_nil, tokens_cons, tokens_cons]
    rfl
  rw [text, tokens]
  exact whole.lexes

theorem unplaced_eq_of_directiveList {uses others : List DirectiveUse}
    (good : ∀ use ∈ uses, use.WellFormed) (good' : ∀ use ∈ others, use.WellFormed)
    (same : Page.directiveList uses = Page.directiveList others) :
    uses.map DirectiveUse.unplaced = others.map DirectiveUse.unplaced := by
  obtain ⟨parsed, read, shape⟩ := Document.reads_withDirectives good
  obtain ⟨parsed', read', shape'⟩ := Document.reads_withDirectives good'
  rw [same] at read
  obtain rfl := Except.ok.inj (read.symm.trans read')
  have equal := shape.symm.trans shape'
  simp only [Document.unplaced, Document.withDirectives, Document.mk.injEq, List.map_cons,
    List.map_nil, List.cons.injEq, Definition.unplaced, Definition.type.injEq, TypeDef.unplaced,
    TypeDef.mk.injEq, and_true, true_and] at equal
  exact equal

end SchemaCompiler
