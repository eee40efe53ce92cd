import SchemaCompiler.Page.Html
import SchemaCompiler.Proofs.Page.Sections
import SchemaCompiler.Proofs.Page.Views

/-!
Constants on documentation pages.

A constant and a type reference are determined by their texts, and what a Markdown page shows as
code is determined by the page. HTML does not keep this: a tick inside a string ends the code, and
what stands behind it is read as markup.
-/

namespace SchemaCompiler

open Grammar

/-! ## What the texts say -/

/-- A default value and its type are read back from their texts, the type exactly if it is over a
lexical name. So constants and type references have texts of their own, and Markdown pages of
documents that are alike but for default values and applied directives tell these apart. -/
theorem constants_and_types_read_back :
    (∀ name path ty (value : Value), TypeRef.SingleMarks ty → value.WellFormed →
      ((∃ place inner, Document.ofSource name path (defaultSource ty.text value.text) =
        .ok (Document.withDefault name path ty value place inner)) ↔ IsName ty.baseName)) ∧
    (∀ value other : Value, value.WellFormed → other.WellFormed → value.text = other.text →
      value = other) ∧
    (∀ ty other : TypeRef, ty.WellFormed → other.WellFormed → ty.text = other.text → ty = other) ∧
    ∀ (options : PageOptions) (doc other : Document), doc.WellFormed → other.WellFormed →
      doc.viewed .masked = other.viewed .masked →
      Page.markdown doc options = Page.markdown other options →
        doc.viewed .plain = other.viewed .plain := by
  refine ⟨fun name path _ _ => Document.reads_withDefault_iff name path,
    fun _ _ => Value.eq_of_text, fun _ _ => TypeRef.eq_of_text, ?_⟩
  intro options doc other good good' alike same
  exact Page.viewed_plain_eq_of_markdown good good' alike same

/-- Numbers, names and a string with every kind of character, in brackets of both kinds. -/
def sampleDefault : Value :=
  .object [("text", .string "\"\\\t\x01`é"), ("all", .list [.int "-12", .float "1.5e+3", .null]),
    ("nested", .object [("kind", .enum "trueish"), ("empty", .list []), ("flag", .boolean true)])]

theorem sampleDefault_wellFormed : sampleDefault.WellFormed := by
  have digits (cs : List Char) (all : cs.all Char.isDigit = true) : ∀ c ∈ cs, c.isDigit = true :=
    List.all_eq_true.mp all
  have whole : IsInt "-12" := by
    have twelve : Digits ['1', '2'] := ⟨by simp, digits _ rfl⟩
    exact ⟨['-'], ['1', '2'], ⟨.inr rfl, .inr ⟨twelve, by simp⟩, .inl rfl, .inl rfl⟩, by simp⟩
  have point : IsFloat "1.5e+3" := by
    have one : Digits ['1'] := ⟨by simp, digits _ rfl⟩
    have five : Digits ['5'] := ⟨by simp, digits _ rfl⟩
    have three : Digits ['3'] := ⟨by simp, digits _ rfl⟩
    have exponent : ['e', '+', '3'] = 'e' :: (['+'] ++ ['3']) := rfl
    exact ⟨[], ['1'], ['.', '5'], ['e', '+', '3'],
      ⟨.inl rfl, .inr ⟨one, by simp⟩, .inr ⟨['5'], rfl, five⟩,
        .inr ⟨'e', ['+'], ['3'], exponent, .inl rfl, .inr (.inl rfl), three⟩⟩, .inl (by simp),
      by simp⟩
  have kind : IsName "trueish" ∧ "trueish" ∉ reservedEnumValues := by decide
  have keys : IsName "text" ∧ IsName "all" ∧ IsName "nested" ∧ IsName "kind" ∧ IsName "empty" ∧
      IsName "flag" := by decide
  obtain ⟨text, all, nested, kind', empty, flag⟩ := keys
  exact ⟨text, trivial, all, ⟨whole, point, trivial, trivial⟩, nested,
    ⟨kind', kind, empty, trivial, flag, trivial, trivial⟩, trivial⟩

/-- An input type that has one constant in an applied directive and in a default value. -/
def sampleDocument (value : Value) : Document where
  name := "i"
  path := "i.gql"
  definitions :=
    [.type ⟨"I", none, [⟨"d", [⟨"a", value⟩], .start⟩],
      .inputObject [⟨"f", none, .named "String", some value, [], .start⟩], .start⟩]

theorem sampleDocument_wellFormed {value : Value} (good : value.WellFormed) :
    (sampleDocument value).WellFormed := by
  have names : IsName "I" ∧ IsName "d" ∧ IsName "a" ∧ IsName "f" ∧ IsName "String" := by decide
  obtain ⟨type, directive, argument, field, scalar⟩ := names
  intro definition member
  obtain rfl := List.mem_singleton.mp member
  refine ⟨type, fun use inside => ?_, fun input inside => ?_⟩
  · obtain rfl := List.mem_singleton.mp inside
    refine ⟨directive, fun arg given => ?_⟩
    obtain rfl := List.mem_singleton.mp given
    exact ⟨argument, good⟩
  · obtain rfl := List.mem_singleton.mp inside
    refine ⟨field, scalar, ?_, List.forall_mem_nil _⟩
    rintro _ ⟨⟩
    exact good

theorem sampleDefault_read :
    (∃ place inner, Document.ofSource "i" "i.gql"
      (defaultSource "[Name!]!" sampleDefault.text) =
        .ok (Document.withDefault "i" "i.gql" (.nonNull (.list (.nonNull (.named "Name"))))
          sampleDefault place inner)) ∧
    sampleDefault.text ≠ (Value.list [sampleDefault]).text ∧
    ∀ options, Page.markdown (sampleDocument sampleDefault) options ≠
      Page.markdown (sampleDocument (.list [sampleDefault])) options := by
  have marks : (TypeRef.nonNull (.list (.nonNull (.named "Name")))).SingleMarks :=
    ⟨⟨trivial, fun _ => TypeRef.noConfusion⟩, fun _ => TypeRef.noConfusion⟩
  have good := sampleDefault_wellFormed
  have good' : (Value.list [sampleDefault]).WellFormed := ⟨good, trivial⟩
  have differ : sampleDefault ≠ .list [sampleDefault] := Value.noConfusion
  obtain ⟨read, values, -, pages⟩ := constants_and_types_read_back
  refine ⟨(read "i" "i.gql" _ sampleDefault marks good).mpr (by decide),
    fun same => differ (values _ _ good good' same), fun options same => ?_⟩
  have equal := pages options _ _ (sampleDocument_wellFormed good) (sampleDocument_wellFormed good')
    rfl same
  simp only [sampleDocument, Document.viewed, Definition.viewed, TypeDef.viewed, TypeKind.viewed,
    InputValue.viewed, CodeView.plain, Document.mk.injEq, List.map_cons, List.map_nil,
    List.cons.injEq, Definition.type.injEq, TypeDef.mk.injEq, TypeKind.inputObject.injEq,
    InputValue.mk.injEq, Option.map_some, Option.some.injEq, id_eq, and_true, true_and] at equal
  exact differ equal.2

/-- The page as HTML, its headings marked by their characters. -/
theorem Page.html_eq_ofList (doc : Document) (options : PageOptions) :
    Page.html doc options = String.ofList
      (Commonmark.toHtml (List.map fun c => if c = ' ' then '-' else c)
        (Page.markdown doc options).toList) := by
  simp only [Page.html, Page.anchor, String.toList_ofList]

/-- A default value whose text is broken up by ticks, around a given text. -/
def tickedDefault (inside : String) : Document :=
  .withDefault "i" "i.gql" (.named "String") (.string ("x` " ++ inside ++ " `z")) .start .start

/-- A name with marks in it is read as a list, and ticks in a string end the code that shows the
string, so that HTML says the same of two strings. -/
theorem marked_name_and_ticks_misread :
    (TypeRef.named "[A]").SingleMarks ∧ Value.null.WellFormed ∧
    (¬ ∃ place inner, Document.ofSource "i" "i.gql"
      (defaultSource (TypeRef.named "[A]").text Value.null.text) =
        .ok (Document.withDefault "i" "i.gql" (.named "[A]") .null place inner)) ∧
    (TypeRef.named "[A]").text = (TypeRef.list (.named "A")).text ∧
    Page.html (tickedDefault "*y*") ⟨none, true⟩ =
      Page.html (tickedDefault "_y_") ⟨none, true⟩ := by
  have marks : (TypeRef.named "[A]").SingleMarks := trivial
  have good : Value.null.WellFormed := trivial
  refine ⟨marks, good, ?_, by decide, ?_⟩
  · rw [Document.reads_withDefault_iff _ _ marks good]
    decide
  · rw [Page.html_eq_ofList, Page.html_eq_ofList, Page.toList_markdown, Page.toList_markdown]
    refine congrArg String.ofList ?_
    decide +kernel

end SchemaCompiler
