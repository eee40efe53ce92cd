import SchemaCompiler.Proofs.Grammar.Spelling
import SchemaCompiler.Proofs.Grammar.Joining

/-!
Productions find what the tokens spell.

Whatever a production reads is spelled by the tokens it has taken, with the places of the tokens
that the grammar names. The steps of a production are followed by one rule, and the loops by
induction on what they are given.
-/

namespace SchemaCompiler.Grammar

variable {ts : List Token}

/-! ## Single tokens -/

theorem expectMark_finds (mark : Punctuator) (ts : List Token) :
    Finds (fun place rest => ts = ⟨.punct mark, place⟩ :: rest) (expectMark mark ts) := by
  unfold expectMark
  split
  · next found taken => exact finds_ok (eq_cons_of_takeMark? taken)
  · exact finds_error

theorem expectKeyword_finds (word : String) (ts : List Token) :
    Finds (fun place rest => ts = ⟨.name word, place⟩ :: rest) (expectKeyword word ts) := by
  unfold expectKeyword
  split
  · next found taken => exact finds_ok (eq_cons_of_takeKeyword? taken)
  · exact finds_error

theorem expectName_finds {β : Type} {Q : List Token → Prop} {property : β → List Token → Prop}
    {next : (String × Position) × Behind ts → Except Failure (β × { rest : List Token // Q rest })}
    (h : ∀ name place rest bound, ts = ⟨.name name, place⟩ :: rest →
      Finds property (next ((name, place), ⟨rest, bound⟩))) :
    Finds property (expectName ts >>= next) := by
  have name_next : Finds (fun found rest => ts = ⟨.name found.1, found.2⟩ :: rest)
      (expectName ts) := by
    unfold expectName
    split
    · exact finds_ok rfl
    · exact finds_error
  refine name_next.bind ?_
  rintro ⟨name, place⟩ rest bound shape
  exact h name place rest bound shape

theorem mayHave_skipMark (mark : Punctuator) (ts : List Token) :
    MayHave mark ts (skipMark mark ts).val := by
  unfold skipMark
  split
  · next place rest less taken =>
    obtain rfl := eq_cons_of_takeMark? taken
    exact .some
  · exact .none

theorem spells_description (ts : List Token) :
    SpellsDescription ts (description ts).1 (description ts).2.val := by
  unfold description
  split
  · exact .some
  · exact .none

/-! ## Repetition -/

section

variable {α : Type} {spells : List Token → α → List Token → Prop}

theorem itemsUntil_finds {close : Punctuator} {bound : Nat}
    {item : (ts : List Token) → ts.length ≤ bound → Parse α ts}
    (each : ∀ ts fits, Finds (spells ts) (item ts fits)) (fits : ts.length ≤ bound) :
    Finds (SpellsItems spells close ts) (itemsUntil close bound item ts fits) := by
  fun_induction itemsUntil close bound item ts fits with
  | case1 ts fits place behind taken =>
    obtain ⟨rest, less⟩ := behind
    obtain rfl := eq_cons_of_takeMark? taken
    exact finds_ok .close
  | case2 ts fits other ih =>
    refine (each ts fits).bind fun first rest less spelled => ?_
    refine (ih rest less).bind fun more rest' less' behind => ?_
    exact finds_ok (.item spelled behind)

theorem optionalBlock_finds {openMark close : Punctuator}
    {item : (ts : List Token) → Parse α ts} (each : ∀ ts, Finds (spells ts) (item ts))
    (ts : List Token) :
    Finds (SpellsBlock spells openMark close ts) (optionalBlock openMark close item ts) := by
  unfold optionalBlock
  split
  · next place rest less taken =>
    obtain rfl := eq_cons_of_takeMark? taken
    refine (itemsUntil_finds (fun ts _ => each ts) _).bind fun items rest' _ inside => ?_
    exact finds_ok (.some inside)
  · exact finds_ok .none

theorem barSeparated_finds {item : (ts : List Token) → Parse α ts}
    (each : ∀ ts, Finds (spells ts) (item ts)) (ts : List Token) :
    Finds (SpellsBars spells ts) (barSeparated item ts) := by
  fun_induction barSeparated item ts with
  | case1 ts ih =>
    refine (each ts).bind fun first rest less spelled => ?_
    dsimp only
    split
    · next place rest' less' taken =>
      rw [eq_cons_of_takeMark? taken] at spelled
      refine (ih rest less rest' less').bind fun more rest'' less'' behind => ?_
      exact finds_ok (.more spelled behind)
    · exact finds_ok (.last spelled)

end

/-! ## Type references and constants -/

theorem withBang_finds {ref : TypeRef} (bare : ∀ inner, ref ≠ .nonNull inner) {rest : List Token}
    (less : rest.length < ts.length) (spelled : SpellsType ts ref rest) :
    Finds (SpellsType ts) (.ok (withBang ts ref ⟨rest, less⟩) : Parse TypeRef ts) := by
  unfold withBang
  dsimp only
  split
  · next place rest' less' taken =>
    rw [eq_cons_of_takeMark? taken] at spelled
    exact finds_ok (.nonNull bare spelled)
  · exact finds_ok spelled

theorem typeRef_finds (ts : List Token) : Finds (SpellsType ts) (typeRef ts) := by
  fun_induction typeRef ts with
  | case1 ts place rest less taken ih =>
    obtain rfl := eq_cons_of_takeMark? taken
    refine ih.bind fun inner rest₁ _ inside => ?_
    refine (expectMark_finds .bracketClose rest₁).bind fun _ rest₂ _ shape => ?_
    subst shape
    exact withBang_finds (by simp) _ (.list inside)
  | case2 ts other =>
    refine expectName_finds fun name place rest _ shape => ?_
    subst shape
    exact withBang_finds (by simp) _ .named

/-- Induction on the number of tokens: a list or an object asks for constants further on. -/
theorem value_finds (ts : List Token) : Finds (SpellsConstant ts) (value ts) := by
  rw [value.eq_def]
  split
  · exact finds_ok .int
  · exact finds_ok .float
  · exact finds_ok .string
  · exact finds_ok .name
  · next place rest =>
    have each (ts : List Token) (fits : ts.length ≤ rest.length) :
        Finds (SpellsConstant ts) (value ts) := value_finds ts
    refine (itemsUntil_finds each _).bind fun items rest' _ inside => ?_
    exact finds_ok (.list inside)
  · next place rest =>
    have each (ts : List Token) (fits : ts.length ≤ rest.length) :
        Finds (SpellsEntry ts) (entry ts) := by
      refine expectName_finds fun name _ rest₁ h₁ shape₁ => ?_
      refine (expectMark_finds .colon rest₁).bind fun _ rest₂ h₂ shape₂ => ?_
      refine (value_finds rest₂).bind fun v rest₃ _ constant => ?_
      subst shape₁ shape₂
      exact finds_ok (.entry constant)
    refine (itemsUntil_finds each _).bind fun entries rest' _ inside => ?_
    exact finds_ok (.object inside)
  · exact finds_error
  · exact finds_error
termination_by ts.length
decreasing_by all_goals subst_vars; simp only [List.length_cons]; omega

/-! ## Directives and arguments -/

theorem argument_finds (ts : List Token) : Finds (SpellsArgument ts) (argument ts) := by
  refine expectName_finds fun name _ rest₁ _ shape₁ => ?_
  refine (expectMark_finds .colon rest₁).bind fun _ rest₂ _ shape₂ => ?_
  refine (value_finds rest₂).bind fun v rest₃ _ constant => ?_
  subst shape₁ shape₂
  exact finds_ok (.argument constant)

theorem directiveUses_finds (ts : List Token) : Finds (SpellsUses ts) (directiveUses ts) := by
  fun_induction directiveUses ts with
  | case1 ts place rest less taken ih =>
    refine expectName_finds fun name _ rest₁ h₁ shape => ?_
    refine (optionalBlock_finds argument_finds rest₁).bind fun args rest₂ h₂ arguments => ?_
    refine (ih rest₁ h₁ rest₂ h₂).bind fun more rest₃ _ behind => ?_
    obtain rfl := eq_cons_of_takeMark? taken
    subst shape
    exact finds_ok (.use arguments behind)
  | case2 ts other => exact finds_ok .none

theorem defaultValue_finds (ts : List Token) : Finds (SpellsDefault ts) (defaultValue ts) := by
  unfold defaultValue
  split
  · next place rest less taken =>
    obtain rfl := eq_cons_of_takeMark? taken
    refine (value_finds rest).bind fun v rest' _ constant => ?_
    exact finds_ok (.some constant)
  · exact finds_ok .none

theorem inputValue_finds (ts : List Token) : Finds (SpellsInput ts) (inputValue ts) := by
  have described := spells_description ts
  unfold inputValue
  generalize description ts = found at described ⊢
  obtain ⟨text, rest₀, h₀⟩ := found
  refine expectName_finds fun name place rest₁ _ shape₁ => ?_
  refine (expectMark_finds .colon rest₁).bind fun _ rest₂ _ shape₂ => ?_
  refine (typeRef_finds rest₂).bind fun ty rest₃ _ type => ?_
  refine (defaultValue_finds rest₃).bind fun default rest₄ _ constant => ?_
  refine (directiveUses_finds rest₄).bind fun uses rest₅ _ directives => ?_
  subst shape₁ shape₂
  exact finds_ok (.input described type constant directives)

theorem field_finds (ts : List Token) : Finds (SpellsField ts) (field ts) := by
  have described := spells_description ts
  unfold field
  generalize description ts = found at described ⊢
  obtain ⟨text, rest₀, h₀⟩ := found
  refine expectName_finds fun name place rest₁ _ shape₁ => ?_
  refine (optionalBlock_finds inputValue_finds rest₁).bind fun args rest₂ _ arguments => ?_
  refine (expectMark_finds .colon rest₂).bind fun _ rest₃ _ shape₃ => ?_
  refine (typeRef_finds rest₃).bind fun ty rest₄ _ type => ?_
  refine (directiveUses_finds rest₄).bind fun uses rest₅ _ directives => ?_
  subst shape₁ shape₃
  exact finds_ok (.field described arguments type directives)

theorem enumValue_finds (ts : List Token) : Finds (SpellsEnumValue ts) (enumValue ts) := by
  have described := spells_description ts
  unfold enumValue
  generalize description ts = found at described ⊢
  obtain ⟨text, rest₀, h₀⟩ := found
  refine expectName_finds fun name place rest₁ _ shape₁ => ?_
  subst shape₁
  by_cases reserved : reservedEnumValues.contains name = true
  · dsimp only
    rw [if_pos reserved]
    exact finds_error
  · dsimp only
    rw [if_neg reserved]
    have free : name ∉ reservedEnumValues := fun member => reserved (List.contains_iff_mem.mpr member)
    refine (directiveUses_finds rest₁).bind fun uses rest₂ _ directives => ?_
    exact finds_ok (.enumValue free described directives)

/-! ## Bodies -/

theorem moreInterfaces_finds (ts : List Token) :
    Finds (SpellsMoreInterfaces ts) (moreInterfaces ts) := by
  fun_induction moreInterfaces ts with
  | case1 place rest ih =>
    refine expectName_finds fun name _ rest₁ h₁ shape => ?_
    refine (ih rest₁ h₁).bind fun more rest₂ _ behind => ?_
    subst shape
    exact finds_ok (.marked behind)
  | case2 name place rest ends => exact finds_ok .none
  | case3 name place rest goes_on ih =>
    rw [Bool.or_eq_true, not_or, List.contains_iff_mem, beq_iff_eq] at goes_on
    refine ih.bind fun more rest₁ _ behind => ?_
    exact finds_ok (.bare goes_on.1 goes_on.2 behind)
  | case4 ts => exact finds_ok .none

theorem implements_finds (ts : List Token) : Finds (SpellsInterfaces ts) (implements ts) := by
  unfold implements
  split
  · next place rest less taken =>
    have mark := mayHave_skipMark .ampersand rest
    generalize skipMark .ampersand rest = after at mark ⊢
    obtain ⟨rest₀, h₀⟩ := after
    refine expectName_finds fun name _ rest₁ _ shape => ?_
    refine (moreInterfaces_finds rest₁).bind fun more rest₂ _ behind => ?_
    obtain rfl := eq_cons_of_takeKeyword? taken
    subst shape
    exact finds_ok (.some mark behind)
  · exact finds_ok .none

theorem operationType_finds (ts : List Token) : Finds (SpellsOperation ts) (operationType ts) := by
  refine expectName_finds fun word place rest₁ _ shape₁ => ?_
  dsimp only
  split
  -- the same steps follow every word
  iterate 3
    refine (expectMark_finds .colon rest₁).bind fun _ rest₂ _ shape₂ => ?_
    refine expectName_finds fun typeName _ rest₃ _ shape₃ => ?_
    subst shape₁ shape₂ shape₃
    exact finds_ok (.operation rfl)
  · exact finds_error

theorem operationTypes_finds (extension : Bool) (ts : List Token) :
    Finds (SpellsOperations extension ts) (operationTypes extension ts) := by
  unfold operationTypes
  split
  · next bare =>
    rw [Bool.and_eq_true] at bare
    rw [bare.1]
    exact finds_ok .none
  · refine (expectMark_finds .braceOpen ts).bind fun _ rest _ shape => ?_
    refine (itemsUntil_finds (fun ts _ => operationType_finds ts) _).bind fun operations rest' _
      inside => ?_
    subst shape
    exact finds_ok (.some inside)

theorem unionMember_finds (ts : List Token) : Finds (SpellsName ts) (unionMember ts) := by
  refine expectName_finds fun name _ rest _ shape => ?_
  subst shape
  exact finds_ok .name

theorem unionMembers_finds (ts : List Token) : Finds (SpellsMembers ts) (unionMembers ts) := by
  unfold unionMembers
  split
  · next place rest less taken =>
    have bar := mayHave_skipMark .pipe rest
    obtain rfl := eq_cons_of_takeMark? taken
    refine (barSeparated_finds unionMember_finds _).bind fun members rest₁ _ names => ?_
    exact finds_ok (.some bar names)
  · exact finds_ok .none

theorem typeBody_finds (keyword : String) (place : Position) (ts : List Token) :
    Finds (fun body rest => body.2.keyword = keyword ∧ SpellsKind ts body.1 body.2 rest)
      (typeBody keyword place ts) := by
  unfold typeBody
  split
  · refine (directiveUses_finds ts).bind fun uses rest _ directives => ?_
    exact finds_ok ⟨rfl, .scalar directives⟩
  · refine (implements_finds ts).bind fun interfaces rest₁ _ names => ?_
    refine (directiveUses_finds rest₁).bind fun uses rest₂ _ directives => ?_
    refine (optionalBlock_finds field_finds rest₂).bind fun fields rest₃ _ inside => ?_
    exact finds_ok ⟨rfl, .object names directives inside⟩
  · refine (implements_finds ts).bind fun interfaces rest₁ _ names => ?_
    refine (directiveUses_finds rest₁).bind fun uses rest₂ _ directives => ?_
    refine (optionalBlock_finds field_finds rest₂).bind fun fields rest₃ _ inside => ?_
    exact finds_ok ⟨rfl, .interface names directives inside⟩
  · refine (directiveUses_finds ts).bind fun uses rest₁ _ directives => ?_
    refine (unionMembers_finds rest₁).bind fun members rest₂ _ names => ?_
    exact finds_ok ⟨rfl, .union directives names⟩
  · refine (directiveUses_finds ts).bind fun uses rest₁ _ directives => ?_
    refine (optionalBlock_finds enumValue_finds rest₁).bind fun values rest₂ _ inside => ?_
    exact finds_ok ⟨rfl, .enum directives inside⟩
  · refine (directiveUses_finds ts).bind fun uses rest₁ _ directives => ?_
    refine (optionalBlock_finds inputValue_finds rest₁).bind fun fields rest₂ _ inside => ?_
    exact finds_ok ⟨rfl, .inputObject directives inside⟩
  · exact finds_error

/-! ## Definitions -/

theorem typeDef_finds (text : Option String) (ts : List Token) :
    Finds (SpellsTypeDef text ts) (typeDef text ts) := by
  refine expectName_finds fun keyword place rest₁ _ shape₁ => ?_
  refine expectName_finds fun name _ rest₂ _ shape₂ => ?_
  refine (typeBody_finds keyword place rest₂).bind ?_
  rintro ⟨uses, kind⟩ rest₃ _ ⟨rfl, body⟩
  subst shape₁ shape₂
  exact finds_ok (.typeDef body)

theorem schemaDef_finds (text : Option String) (extension : Bool) (ts : List Token) :
    Finds (SpellsSchema text extension ts) (schemaDef text extension ts) := by
  refine (expectKeyword_finds "schema" ts).bind fun place rest₁ _ shape => ?_
  refine (directiveUses_finds rest₁).bind fun uses rest₂ _ directives => ?_
  refine (operationTypes_finds extension rest₂).bind fun operations rest₃ _ braces => ?_
  subst shape
  exact finds_ok (.schema directives braces)

theorem directiveLocation_finds (ts : List Token) :
    Finds (SpellsLocation ts) (directiveLocation ts) := by
  refine expectName_finds fun name _ rest _ shape => ?_
  dsimp only
  split
  · next known =>
    subst shape
    exact finds_ok (.location (List.contains_iff_mem.mp known))
  · exact finds_error

theorem spells_repeatable (ts : List Token) :
    SpellsRepeatable ts (repeatable ts).1 (repeatable ts).2.val := by
  unfold repeatable
  split
  · next place rest less taken =>
    obtain rfl := eq_cons_of_takeKeyword? taken
    exact .yes
  · exact .no

theorem directiveDef_finds (text : Option String) (ts : List Token) :
    Finds (SpellsDirective text ts) (directiveDef text ts) := by
  refine (expectKeyword_finds "directive" ts).bind fun place rest₁ _ shape₁ => ?_
  refine (expectMark_finds .atSign rest₁).bind fun _ rest₂ _ shape₂ => ?_
  refine expectName_finds fun name _ rest₃ _ shape₃ => ?_
  refine (optionalBlock_finds inputValue_finds rest₃).bind fun args rest₄ _ arguments => ?_
  have repetition := spells_repeatable rest₄
  dsimp only
  generalize repeatable rest₄ = found at repetition ⊢
  obtain ⟨repeats, rest₅, h₅⟩ := found
  refine (expectKeyword_finds "on" rest₅).bind fun _ rest₆ _ shape₆ => ?_
  have bar := mayHave_skipMark .pipe rest₆
  refine (barSeparated_finds directiveLocation_finds _).bind fun locations rest₈ _ names => ?_
  subst shape₁ shape₂ shape₃ shape₆
  exact finds_ok (.directive arguments repetition bar names)

/-- What follows the word `extend` is spelled as an extension. -/
theorem extension_finds (place : Position) (ts : List Token) :
    Finds (SpellsDefinition (⟨.name "extend", place⟩ :: ts)) (extension ts) := by
  unfold extension
  split
  · refine (schemaDef_finds none true ts).bind fun schema rest _ spelled => ?_
    exact finds_ok (.extendSchema spelled)
  · refine (typeDef_finds none ts).bind fun type rest _ spelled => ?_
    exact finds_ok (.extendType spelled)

theorem definition_finds (ts : List Token) : Finds (SpellsDefinition ts) (definition ts) := by
  have described := spells_description ts
  unfold definition
  generalize description ts = found at described ⊢
  obtain ⟨text, rest, h⟩ := found
  dsimp only at described ⊢
  split
  · refine (schemaDef_finds text false rest).bind fun schema rest₁ _ spelled => ?_
    exact finds_ok (.schema described spelled)
  iterate 6
    refine (typeDef_finds text rest).bind fun type rest₁ _ spelled => ?_
    exact finds_ok (.type described spelled)
  · refine (directiveDef_finds text rest).bind fun directive rest₁ _ spelled => ?_
    exact finds_ok (.directive described spelled)
  · cases described with
    | some => exact finds_error
    | none =>
      refine (expectKeyword_finds "extend" ts).bind fun place rest₁ _ shape => ?_
      refine (extension_finds place rest₁).bind fun definition rest₂ _ spelled => ?_
      subst shape
      exact finds_ok spelled
  · exact finds_error

/-- Definitions take every token but the last, which is the end of the source. -/
theorem spells_definitions {ts ts' : List Token} {place : Position}
    (joined : Joined id [⟨.eof, place⟩] ts ts') {found : List Definition}
    (read : definitions ts = .ok found) : SpellsDefinitions ts found := by
  have starts : StartsDefinition (kindsOf [⟨.eof, place⟩]) := .eof []
  induction ts using definitions.induct generalizing found ts' with
  | case1 ts finished =>
    rw [definitions, if_pos finished] at read
    cases read
    cases joined with
    | seam place => exact .finish
    | token inside behind => exact absurd (of_decide_eq_true finished) inside
  | case2 ts unfinished ih =>
    obtain ⟨first, rest, less, more, first_read, more_read, rfl⟩ := definitions_eq_ok unfinished read
    have spelled := definition_finds ts first rest less first_read
    obtain ⟨rest', -, joined'⟩ := (definition_joins starts joined).1 first rest less first_read
    exact .definition spelled (ih rest less joined' more_read)

end SchemaCompiler.Grammar
