import SchemaCompiler.Proofs.Grammar.PiecesRead

/-!
Productions give well-formed pieces.

From well-spelled tokens a production reads a well-formed piece, and the tokens it leaves are well
spelled again. One rule for each way of putting productions together carries this from the steps of
a production to the whole.
-/

namespace SchemaCompiler.Grammar

/-! ## Outcomes -/

/-- The names and numbers among the tokens are spelled like ones. -/
def TokensSpelled (ts : List Token) : Prop := ∀ t ∈ ts, t.kind.WellSpelled

theorem TokensSpelled.behind {t : Token} {ts : List Token} (h : TokensSpelled (t :: ts)) :
    TokensSpelled ts :=
  (List.forall_mem_cons.mp h).2

section

variable {α β : Type} {Q Q' : List Token → Prop}

/-- What is read, if anything is, has the property together with the tokens behind it. -/
def Finds (property : α → List Token → Prop)
    (outcome : Except Failure (α × { rest : List Token // Q rest })) : Prop :=
  ∀ a rest bound, outcome = .ok (a, ⟨rest, bound⟩) → property a rest

variable {property : α → List Token → Prop} {property' : β → List Token → Prop}

theorem finds_ok {a : α} {rest : List Token} {bound : Q rest} (h : property a rest) :
    Finds property (.ok (a, ⟨rest, bound⟩) : Except Failure (α × { rest : List Token // Q rest })) := by
  intro a' rest' bound' same
  cases same
  exact h

theorem finds_error {failure : Failure} :
    Finds property (.error failure : Except Failure (α × { rest : List Token // Q rest })) := by
  intro a rest bound same
  cases same

theorem Finds.bind {first : Except Failure (α × { rest : List Token // Q rest })}
    {next : α × { rest : List Token // Q rest } →
      Except Failure (β × { rest : List Token // Q' rest })}
    (h : Finds property first)
    (h' : ∀ a rest bound, property a rest → Finds property' (next (a, ⟨rest, bound⟩))) :
    Finds property' (first >>= next) := by
  cases first with
  | error failure => exact finds_error
  | ok found =>
    obtain ⟨a, rest, bound⟩ := found
    exact h' a rest bound (h a rest bound rfl)

/-- A step that reads nothing may fail, and what follows it finds what the whole finds otherwise. -/
theorem Finds.after {γ : Type} {check : Except Failure γ}
    {next : γ → Except Failure (β × { rest : List Token // Q' rest })}
    (h : ∀ c, check = .ok c → Finds property' (next c)) : Finds property' (check >>= next) := by
  cases check with
  | error failure => exact finds_error
  | ok c => exact h c rfl

variable {good : α → Prop} {good' : β → Prop}

/-- What is read, if anything is, is good and has well-spelled tokens behind it. -/
def Ensures (good : α → Prop) (outcome : Except Failure (α × { rest : List Token // Q rest })) :
    Prop :=
  ∀ a rest bound, outcome = .ok (a, ⟨rest, bound⟩) → good a ∧ TokensSpelled rest

theorem ensures_ok {a : α} {rest : List Token} {bound : Q rest} (h : good a)
    (spelled : TokensSpelled rest) :
    Ensures good (.ok (a, ⟨rest, bound⟩) : Except Failure (α × { rest : List Token // Q rest })) :=
  finds_ok ⟨h, spelled⟩

theorem ensures_nil {γ : Type} {each : γ → Prop} {rest : List Token} {bound : Q rest}
    (spelled : TokensSpelled rest) :
    Ensures (fun items => ∀ c ∈ items, each c)
      (.ok ([], ⟨rest, bound⟩) : Except Failure (List γ × { rest : List Token // Q rest })) :=
  ensures_ok (List.forall_mem_nil _) spelled

theorem ensures_error {failure : Failure} :
    Ensures good (.error failure : Except Failure (α × { rest : List Token // Q rest })) :=
  finds_error

theorem Ensures.bind {first : Except Failure (α × { rest : List Token // Q rest })}
    {next : α × { rest : List Token // Q rest } →
      Except Failure (β × { rest : List Token // Q' rest })}
    (h : Ensures good first)
    (h' : ∀ a rest bound, good a → TokensSpelled rest → Ensures good' (next (a, ⟨rest, bound⟩))) :
    Ensures good' (first >>= next) :=
  Finds.bind h fun a rest bound found => h' a rest bound found.1 found.2

theorem Ensures.after {γ : Type} {check : Except Failure γ}
    {next : γ → Except Failure (β × { rest : List Token // Q' rest })}
    (h : ∀ c, Ensures good' (next c)) : Ensures good' (check >>= next) :=
  Finds.after fun c _ => h c

end

/-! ## Single tokens -/

theorem takeMark?_spelled {mark : Punctuator} {ts rest : List Token} {place : Position}
    {bound : rest.length < ts.length} (spelled : TokensSpelled ts)
    (taken : takeMark? mark ts = some (place, ⟨rest, bound⟩)) : TokensSpelled rest := by
  rw [eq_cons_of_takeMark? taken] at spelled
  exact spelled.behind

theorem takeKeyword?_spelled {word : String} {ts rest : List Token} {place : Position}
    {bound : rest.length < ts.length} (spelled : TokensSpelled ts)
    (taken : takeKeyword? word ts = some (place, ⟨rest, bound⟩)) : TokensSpelled rest := by
  rw [eq_cons_of_takeKeyword? taken] at spelled
  exact spelled.behind

theorem expectMark_ensures (mark : Punctuator) {ts : List Token} (spelled : TokensSpelled ts) :
    Ensures (fun _ => True) (expectMark mark ts) := by
  intro place rest bound read
  unfold expectMark at read
  split at read
  · next found taken =>
    cases read
    exact ⟨trivial, takeMark?_spelled spelled taken⟩
  · cases read

theorem expectKeyword_ensures (word : String) {ts : List Token} (spelled : TokensSpelled ts) :
    Ensures (fun _ => True) (expectKeyword word ts) := by
  intro place rest bound read
  unfold expectKeyword at read
  split at read
  · next found taken =>
    cases read
    exact ⟨trivial, takeKeyword?_spelled spelled taken⟩
  · cases read

theorem expectName_ensures {ts : List Token} (spelled : TokensSpelled ts) :
    Ensures (fun found => IsName found.1) (expectName ts) := by
  unfold expectName
  split
  · next text place rest => exact ensures_ok (spelled _ List.mem_cons_self) spelled.behind
  · exact ensures_error

/-- What follows a name is given a lexical one. -/
theorem expectName_bind {β : Type} {Q : List Token → Prop} {good : β → Prop} {ts : List Token}
    (spelled : TokensSpelled ts)
    {next : (String × Position) × Behind ts → Except Failure (β × { rest : List Token // Q rest })}
    (h : ∀ name place rest bound, IsName name → TokensSpelled rest →
      Ensures good (next ((name, place), ⟨rest, bound⟩))) :
    Ensures good (expectName ts >>= next) := by
  refine (expectName_ensures spelled).bind ?_
  rintro ⟨name, place⟩ rest bound good_name spelled₁
  exact h name place rest bound good_name spelled₁

theorem skipMark_spelled (mark : Punctuator) {ts : List Token} (spelled : TokensSpelled ts) :
    TokensSpelled (skipMark mark ts).val := by
  unfold skipMark
  split
  · next place rest less taken => exact takeMark?_spelled spelled taken
  · exact spelled

theorem description_spelled {ts : List Token} (spelled : TokensSpelled ts) :
    TokensSpelled (description ts).2.val := by
  unfold description
  split
  · exact spelled.behind
  · exact spelled

/-! ## Repetition -/

section

variable {α : Type} {good : α → Prop}

theorem itemsUntil_ensures {close : Punctuator} {bound : Nat}
    {item : (ts : List Token) → ts.length ≤ bound → Parse α ts}
    (each : ∀ ts fits, TokensSpelled ts → Ensures good (item ts fits)) {ts : List Token}
    (fits : ts.length ≤ bound) (spelled : TokensSpelled ts) :
    Ensures (fun items => ∀ a ∈ items, good a) (itemsUntil close bound item ts fits) := by
  fun_induction itemsUntil close bound item ts fits with
  | case1 ts fits place behind taken =>
    obtain ⟨rest, less⟩ := behind
    exact ensures_nil (takeMark?_spelled spelled taken)
  | case2 ts fits other ih =>
    refine (each ts fits spelled).bind fun first rest less good_first spelled₁ => ?_
    refine (ih rest less spelled₁).bind fun more rest' less' good_more spelled₂ => ?_
    exact ensures_ok (List.forall_mem_cons.mpr ⟨good_first, good_more⟩) spelled₂

theorem optionalBlock_ensures {openMark close : Punctuator}
    {item : (ts : List Token) → Parse α ts} (each : ∀ ts, TokensSpelled ts → Ensures good (item ts))
    {ts : List Token} (spelled : TokensSpelled ts) :
    Ensures (fun items => ∀ a ∈ items, good a) (optionalBlock openMark close item ts) := by
  unfold optionalBlock
  split
  · next place rest less taken =>
    have inside := takeMark?_spelled spelled taken
    refine (itemsUntil_ensures (fun ts _ => each ts) _ inside).bind fun items rest' _ good_items
      spelled₁ => ?_
    exact ensures_ok good_items spelled₁
  · exact ensures_nil spelled

/-- There is at least one item between bars. -/
theorem barSeparated_ensures {item : (ts : List Token) → Parse α ts}
    (each : ∀ ts, TokensSpelled ts → Ensures good (item ts)) {ts : List Token} (spelled : TokensSpelled ts) :
    Ensures (fun items => items ≠ [] ∧ ∀ a ∈ items, good a) (barSeparated item ts) := by
  fun_induction barSeparated item ts with
  | case1 ts ih =>
    refine (each ts spelled).bind fun first rest less good_first spelled₁ => ?_
    dsimp only
    split
    · next place rest' less' taken =>
      have behind := takeMark?_spelled spelled₁ taken
      refine (ih rest less rest' less' behind).bind fun more rest'' less'' good_more
        spelled₂ => ?_
      exact ensures_ok ⟨List.cons_ne_nil _ _,
        List.forall_mem_cons.mpr ⟨good_first, good_more.2⟩⟩ spelled₂
    · exact ensures_ok ⟨List.cons_ne_nil _ _, by simpa using good_first⟩ spelled₁

end

/-! ## Type references and constants -/

theorem withBang_ensures {ts : List Token} (ref : TypeRef) (h : ref.WellFormed)
    (bare : ∀ inner, ref ≠ .nonNull inner) {rest : List Token} (less : rest.length < ts.length)
    (spelled : TokensSpelled rest) :
    Ensures TypeRef.WellFormed (.ok (withBang ts ref ⟨rest, less⟩) : Parse TypeRef ts) := by
  unfold withBang
  split
  · next place rest' less' taken => exact ensures_ok ⟨h, bare⟩ (takeMark?_spelled spelled taken)
  · exact ensures_ok h spelled

theorem typeRef_ensures {ts : List Token} (spelled : TokensSpelled ts) :
    Ensures TypeRef.WellFormed (typeRef ts) := by
  fun_induction typeRef ts with
  | case1 ts place rest less taken ih =>
    refine (ih (takeMark?_spelled spelled taken)).bind fun inner rest₁ _ good spelled₁ => ?_
    refine (expectMark_ensures .bracketClose spelled₁).bind fun _ rest₂ _ _ spelled₂ => ?_
    exact withBang_ensures (.list inner) good (by simp) _ spelled₂
  | case2 ts other =>
    refine expectName_bind spelled fun name _ rest _ good spelled₁ => ?_
    exact withBang_ensures (.named name) good (by simp) _ spelled₁

/-- A bare name never becomes an enum value that reads as something else. -/
theorem nameValue_wellFormed {name : String} (h : IsName name) : (nameValue name).WellFormed := by
  unfold nameValue
  split
  · trivial
  · next not_true =>
    split
    · trivial
    · next not_false =>
      split
      · trivial
      · next not_null => exact ⟨h, by simp [reservedEnumValues, not_true, not_false, not_null]⟩

theorem itemsWellFormed_of_forall {items : List Value} (h : ∀ v ∈ items, v.WellFormed) :
    Value.ItemsWellFormed items := by
  induction items with
  | nil => trivial
  | cons item items ih =>
    obtain ⟨first, more⟩ := List.forall_mem_cons.mp h
    exact ⟨first, ih more⟩

theorem entriesWellFormed_of_forall {entries : List (String × Value)}
    (h : ∀ e ∈ entries, IsName e.1 ∧ e.2.WellFormed) : Value.EntriesWellFormed entries := by
  induction entries with
  | nil => trivial
  | cons entry entries ih =>
    obtain ⟨first, more⟩ := List.forall_mem_cons.mp h
    exact ⟨first.1, first.2, ih more⟩

/-- Induction on the number of tokens: a list or an object asks for constants further on. -/
theorem value_ensures (ts : List Token) (spelled : TokensSpelled ts) :
    Ensures Value.WellFormed (value ts) := by
  rw [value.eq_def]
  split
  · exact ensures_ok (spelled _ List.mem_cons_self) spelled.behind
  · exact ensures_ok (spelled _ List.mem_cons_self) spelled.behind
  · exact ensures_ok trivial spelled.behind
  · next name place rest =>
    have spelled_name : IsName name := spelled _ List.mem_cons_self
    exact ensures_ok (nameValue_wellFormed spelled_name) spelled.behind
  · next place rest =>
    have each (ts : List Token) (fits : ts.length ≤ rest.length) (spelled : TokensSpelled ts) :
        Ensures Value.WellFormed (value ts) := value_ensures ts spelled
    refine (itemsUntil_ensures each _ spelled.behind).bind fun items rest' _ good spelled₁ => ?_
    exact ensures_ok (itemsWellFormed_of_forall good) spelled₁
  · next place rest =>
    have each (ts : List Token) (fits : ts.length ≤ rest.length) (spelled : TokensSpelled ts) :
        Ensures (fun e => IsName e.1 ∧ e.2.WellFormed) (entry ts) := by
      refine expectName_bind spelled fun name _ rest₁ h₁ good_name spelled₁ => ?_
      refine (expectMark_ensures .colon spelled₁).bind fun _ rest₂ h₂ _ spelled₂ => ?_
      refine (value_ensures rest₂ spelled₂).bind fun v rest₃ _ good spelled₃ => ?_
      exact ensures_ok ⟨good_name, good⟩ spelled₃
    refine (itemsUntil_ensures each _ spelled.behind).bind fun entries rest' _ good spelled₁ => ?_
    exact ensures_ok (entriesWellFormed_of_forall good) spelled₁
  · exact ensures_error
  · exact ensures_error
termination_by ts.length
decreasing_by all_goals subst_vars; simp only [List.length_cons]; omega

/-! ## Directives and arguments -/

theorem argument_ensures {ts : List Token} (spelled : TokensSpelled ts) :
    Ensures Argument.WellFormed (argument ts) := by
  refine expectName_bind spelled fun name _ rest₁ h₁ good_name spelled₁ => ?_
  refine (expectMark_ensures .colon spelled₁).bind fun _ rest₂ h₂ _ spelled₂ => ?_
  refine (value_ensures rest₂ spelled₂).bind fun v rest₃ _ good spelled₃ => ?_
  exact ensures_ok ⟨good_name, good⟩ spelled₃

theorem directiveUses_ensures {ts : List Token} (spelled : TokensSpelled ts) :
    Ensures (fun uses => ∀ use ∈ uses, use.WellFormed) (directiveUses ts) := by
  fun_induction directiveUses ts with
  | case1 ts place rest less taken ih =>
    refine expectName_bind (takeMark?_spelled spelled taken) fun name _ rest₁ h₁
      good_name spelled₁ => ?_
    refine (optionalBlock_ensures (fun _ => argument_ensures) spelled₁).bind fun args rest₂ h₂
      good_args spelled₂ => ?_
    refine (ih rest₁ h₁ rest₂ h₂ spelled₂).bind fun more rest₃ _ good_more spelled₃ => ?_
    exact ensures_ok (List.forall_mem_cons.mpr ⟨⟨good_name, good_args⟩, good_more⟩) spelled₃
  | case2 ts other => exact ensures_nil spelled

theorem defaultValue_ensures {ts : List Token} (spelled : TokensSpelled ts) :
    Ensures (fun default => ∀ constant, default = some constant → constant.WellFormed)
      (defaultValue ts) := by
  unfold defaultValue
  split
  · next place rest less taken =>
    have behind := takeMark?_spelled spelled taken
    refine (value_ensures rest behind).bind fun v rest' _ good spelled₁ => ?_
    refine ensures_ok (fun constant same => ?_) spelled₁
    cases same
    exact good
  · exact ensures_ok (by simp) spelled

theorem inputValue_ensures {ts : List Token} (spelled : TokensSpelled ts) :
    Ensures InputValue.WellFormed (inputValue ts) := by
  refine expectName_bind (description_spelled spelled) fun name _ rest₁ _
    good_name spelled₁ => ?_
  refine (expectMark_ensures .colon spelled₁).bind fun _ rest₂ _ _ spelled₂ => ?_
  refine (typeRef_ensures spelled₂).bind fun ty rest₃ _ good_ty spelled₃ => ?_
  refine (defaultValue_ensures spelled₃).bind fun default rest₄ _ good_default spelled₄ => ?_
  refine (directiveUses_ensures spelled₄).bind fun uses rest₅ _ good_uses spelled₅ => ?_
  exact ensures_ok ⟨good_name, good_ty, good_default, good_uses⟩ spelled₅

theorem field_ensures {ts : List Token} (spelled : TokensSpelled ts) :
    Ensures Field.WellFormed (field ts) := by
  refine expectName_bind (description_spelled spelled) fun name _ rest₁ _
    good_name spelled₁ => ?_
  refine (optionalBlock_ensures (fun _ => inputValue_ensures) spelled₁).bind fun args rest₂ _
    good_args spelled₂ => ?_
  refine (expectMark_ensures .colon spelled₂).bind fun _ rest₃ _ _ spelled₃ => ?_
  refine (typeRef_ensures spelled₃).bind fun ty rest₄ _ good_ty spelled₄ => ?_
  refine (directiveUses_ensures spelled₄).bind fun uses rest₅ _ good_uses spelled₅ => ?_
  exact ensures_ok ⟨good_name, good_args, good_ty, good_uses⟩ spelled₅

theorem enumValue_ensures {ts : List Token} (spelled : TokensSpelled ts) :
    Ensures EnumValue.WellFormed (enumValue ts) := by
  refine expectName_bind (description_spelled spelled) fun name _ rest₁ _
    good_name spelled₁ => ?_
  by_cases reserved : reservedEnumValues.contains name = true
  · dsimp only
    rw [if_pos reserved]
    exact ensures_error
  · dsimp only
    rw [if_neg reserved]
    refine (directiveUses_ensures spelled₁).bind fun uses rest₂ _ good_uses spelled₂ => ?_
    have free : name ∉ reservedEnumValues := fun member => reserved (List.contains_iff_mem.mpr member)
    exact ensures_ok ⟨good_name, free, good_uses⟩ spelled₂

/-! ## Bodies -/

theorem moreInterfaces_ensures {ts : List Token} (spelled : TokensSpelled ts) :
    Ensures (fun names => ∀ name ∈ names, IsName name) (moreInterfaces ts) := by
  fun_induction moreInterfaces ts with
  | case1 place rest ih =>
    refine expectName_bind spelled.behind fun name _ rest₁ h₁ good_name
      spelled₁ => ?_
    refine (ih rest₁ h₁ spelled₁).bind fun more rest₂ _ good_more spelled₂ => ?_
    exact ensures_ok (List.forall_mem_cons.mpr ⟨good_name, good_more⟩) spelled₂
  | case2 name place rest ends => exact ensures_nil spelled
  | case3 name place rest goes_on ih =>
    have good_name : IsName name := spelled _ List.mem_cons_self
    refine (ih spelled.behind).bind fun more rest₁ _ good_more spelled₁ => ?_
    exact ensures_ok (List.forall_mem_cons.mpr ⟨good_name, good_more⟩) spelled₁
  | case4 ts => exact ensures_nil spelled

theorem implements_ensures {ts : List Token} (spelled : TokensSpelled ts) :
    Ensures (fun names => ∀ name ∈ names, IsName name) (implements ts) := by
  unfold implements
  split
  · next place rest less taken =>
    have behind := skipMark_spelled .ampersand (takeKeyword?_spelled spelled taken)
    refine expectName_bind behind fun name _ rest₁ _ good_name spelled₁ => ?_
    refine (moreInterfaces_ensures spelled₁).bind fun more rest₂ _ good_more spelled₂ => ?_
    exact ensures_ok (List.forall_mem_cons.mpr ⟨good_name, good_more⟩) spelled₂
  · exact ensures_nil spelled

theorem operationType_ensures {ts : List Token} (spelled : TokensSpelled ts) :
    Ensures (fun operation => IsName operation.typeName) (operationType ts) := by
  refine expectName_bind spelled fun word _ rest₁ _ _ spelled₁ => ?_
  dsimp only
  split
  -- the same steps follow every word
  all_goals
    refine Ensures.after fun operation => ?_
    refine (expectMark_ensures .colon spelled₁).bind fun _ rest₂ _ _ spelled₂ => ?_
    refine expectName_bind spelled₂ fun typeName _ rest₃ _ good_type spelled₃ => ?_
    exact ensures_ok good_type spelled₃

theorem operationTypes_ensures (extension : Bool) {ts : List Token} (spelled : TokensSpelled ts) :
    Ensures (fun operations => ∀ operation ∈ operations, IsName operation.typeName)
      (operationTypes extension ts) := by
  unfold operationTypes
  split
  · exact ensures_nil spelled
  · refine (expectMark_ensures .braceOpen spelled).bind fun _ rest _ _ spelled₁ => ?_
    refine (itemsUntil_ensures (fun _ _ => operationType_ensures) _ spelled₁).bind fun operations
      rest' _ good spelled₂ => ?_
    exact ensures_ok good spelled₂

theorem unionMember_ensures {ts : List Token} (spelled : TokensSpelled ts) :
    Ensures IsName (unionMember ts) := by
  refine expectName_bind spelled fun name _ rest _ good spelled₁ => ?_
  exact ensures_ok good spelled₁

theorem unionMembers_ensures {ts : List Token} (spelled : TokensSpelled ts) :
    Ensures (fun names => ∀ name ∈ names, IsName name) (unionMembers ts) := by
  unfold unionMembers
  split
  · next place rest less taken =>
    have behind := skipMark_spelled .pipe (takeMark?_spelled spelled taken)
    refine (barSeparated_ensures (fun _ => unionMember_ensures) behind).bind fun members rest₁ _
      good spelled₁ => ?_
    exact ensures_ok good.2 spelled₁
  · exact ensures_nil spelled

/-- The directives and the body of a type. -/
def BodyWellFormed (body : List DirectiveUse × TypeKind) : Prop :=
  (∀ use ∈ body.1, use.WellFormed) ∧ body.2.WellFormed

theorem typeBody_ensures (keyword : String) (place : Position) {ts : List Token}
    (spelled : TokensSpelled ts) : Ensures BodyWellFormed (typeBody keyword place ts) := by
  unfold typeBody
  split
  · refine (directiveUses_ensures spelled).bind fun uses rest _ good_uses spelled₁ => ?_
    exact ensures_ok ⟨good_uses, trivial⟩ spelled₁
  -- objects and interfaces differ in the word alone
  iterate 2
    refine (implements_ensures spelled).bind fun interfaces rest₁ _ good_names spelled₁ => ?_
    refine (directiveUses_ensures spelled₁).bind fun uses rest₂ _ good_uses spelled₂ => ?_
    refine (optionalBlock_ensures (fun _ => field_ensures) spelled₂).bind fun fields rest₃ _
      good_fields spelled₃ => ?_
    exact ensures_ok ⟨good_uses, good_names, good_fields⟩ spelled₃
  · refine (directiveUses_ensures spelled).bind fun uses rest₁ _ good_uses spelled₁ => ?_
    refine (unionMembers_ensures spelled₁).bind fun members rest₂ _ good spelled₂ => ?_
    exact ensures_ok ⟨good_uses, good⟩ spelled₂
  · refine (directiveUses_ensures spelled).bind fun uses rest₁ _ good_uses spelled₁ => ?_
    refine (optionalBlock_ensures (fun _ => enumValue_ensures) spelled₁).bind fun values rest₂ _
      good spelled₂ => ?_
    exact ensures_ok ⟨good_uses, good⟩ spelled₂
  · refine (directiveUses_ensures spelled).bind fun uses rest₁ _ good_uses spelled₁ => ?_
    refine (optionalBlock_ensures (fun _ => inputValue_ensures) spelled₁).bind fun fields rest₂ _
      good spelled₂ => ?_
    exact ensures_ok ⟨good_uses, good⟩ spelled₂
  · exact ensures_error

/-! ## Definitions -/

theorem typeDef_ensures (text : Option String) {ts : List Token} (spelled : TokensSpelled ts) :
    Ensures (fun type => type.WellFormed ∧ type.description = text) (typeDef text ts) := by
  refine expectName_bind spelled fun keyword place rest₁ _ _ spelled₁ => ?_
  refine expectName_bind spelled₁ fun name _ rest₂ _ good_name spelled₂ => ?_
  refine (typeBody_ensures keyword place spelled₂).bind ?_
  rintro ⟨uses, kind⟩ rest₃ _ good spelled₃
  exact ensures_ok ⟨⟨good_name, good.1, good.2⟩, rfl⟩ spelled₃

theorem schemaDef_ensures (text : Option String) (extension : Bool)
    (plain : extension = true → text = none) {ts : List Token} (spelled : TokensSpelled ts) :
    Ensures SchemaDef.WellFormed (schemaDef text extension ts) := by
  refine (expectKeyword_ensures "schema" spelled).bind fun _ rest₁ _ _ spelled₁ => ?_
  refine (directiveUses_ensures spelled₁).bind fun uses rest₂ _ good_uses spelled₂ => ?_
  refine (operationTypes_ensures extension spelled₂).bind fun operations rest₃ _ good
    spelled₃ => ?_
  exact ensures_ok ⟨good_uses, good, plain⟩ spelled₃

theorem directiveLocation_ensures {ts : List Token} (spelled : TokensSpelled ts) :
    Ensures (fun location => location ∈ directiveLocations) (directiveLocation ts) := by
  refine expectName_bind spelled fun name _ rest _ _ spelled₁ => ?_
  dsimp only
  split
  · next known => exact ensures_ok (List.contains_iff_mem.mp known) spelled₁
  · exact ensures_error

theorem repeatable_spelled {ts : List Token} (spelled : TokensSpelled ts) :
    TokensSpelled (repeatable ts).2.val := by
  unfold repeatable
  split
  · next place rest less taken => exact takeKeyword?_spelled spelled taken
  · exact spelled

theorem directiveDef_ensures (text : Option String) {ts : List Token} (spelled : TokensSpelled ts) :
    Ensures DirectiveDef.WellFormed (directiveDef text ts) := by
  refine (expectKeyword_ensures "directive" spelled).bind fun _ rest₁ _ _ spelled₁ => ?_
  refine (expectMark_ensures .atSign spelled₁).bind fun _ rest₂ _ _ spelled₂ => ?_
  refine expectName_bind spelled₂ fun name _ rest₃ _ good_name spelled₃ => ?_
  refine (optionalBlock_ensures (fun _ => inputValue_ensures) spelled₃).bind fun args rest₄ _
    good_args spelled₄ => ?_
  refine (expectKeyword_ensures "on" (repeatable_spelled spelled₄)).bind fun _ rest₆ _ _
    spelled₆ => ?_
  refine (barSeparated_ensures (fun _ => directiveLocation_ensures)
    (skipMark_spelled .pipe spelled₆)).bind fun locations rest₈ _ good spelled₈ => ?_
  exact ensures_ok ⟨good_name, good_args, good.1, good.2⟩ spelled₈

theorem extension_ensures {ts : List Token} (spelled : TokensSpelled ts) :
    Ensures Definition.WellFormed (extension ts) := by
  unfold extension
  split
  · refine (schemaDef_ensures none true (fun _ => rfl) spelled).bind fun schema rest _ good spelled₁ => ?_
    exact ensures_ok good spelled₁
  · refine (typeDef_ensures none spelled).bind fun type rest _ good spelled₁ => ?_
    exact ensures_ok good spelled₁

/-- Only what follows the word `extend` is an extension, and no description may stand there. -/
theorem definition_ensures {ts : List Token} (spelled : TokensSpelled ts) :
    Ensures Definition.WellFormed (definition ts) := by
  have behind := description_spelled spelled
  unfold definition
  dsimp only
  split
  · refine (schemaDef_ensures _ false (by simp) behind).bind fun schema rest _ good spelled₁ => ?_
    exact ensures_ok good spelled₁
  iterate 6
    refine (typeDef_ensures _ behind).bind fun type rest _ good spelled₁ => ?_
    exact ensures_ok good.1 spelled₁
  · refine (directiveDef_ensures _ behind).bind fun directive rest _ good spelled₁ => ?_
    exact ensures_ok good spelled₁
  · split
    · exact ensures_error
    · refine (expectKeyword_ensures "extend" behind).bind fun _ rest₁ _ _ spelled₁ => ?_
      refine (extension_ensures spelled₁).bind fun definition rest₂ _ good spelled₂ => ?_
      exact ensures_ok good spelled₂
  · exact ensures_error

/-- Definitions that were read begin with one, as long as the end is not next. -/
theorem definitions_eq_ok {ts : List Token} (unfinished : ¬ atEnd ts = true)
    {found : List Definition} (read : definitions ts = .ok found) :
    ∃ first rest less more, definition ts = .ok (first, ⟨rest, less⟩) ∧
      definitions rest = .ok more ∧ found = first :: more := by
  rw [definitions, if_neg unfinished] at read
  cases first_read : definition ts with
  | error failure =>
    rw [first_read] at read
    cases read
  | ok outcome =>
    obtain ⟨first, rest, less⟩ := outcome
    rw [first_read] at read
    cases more_read : definitions rest with
    | error failure =>
      simp only [bind, Except.bind, more_read] at read
      cases read
    | ok more =>
      simp only [bind, Except.bind, more_read] at read
      cases read
      exact ⟨first, rest, less, more, rfl, more_read, rfl⟩

theorem definitions_wellFormed {ts : List Token} (spelled : TokensSpelled ts) {found : List Definition}
    (read : definitions ts = .ok found) : ∀ each ∈ found, each.WellFormed := by
  induction ts using definitions.induct generalizing found with
  | case1 ts finished =>
    rw [definitions, if_pos finished] at read
    cases read
    exact List.forall_mem_nil _
  | case2 ts unfinished ih =>
    obtain ⟨first, rest, less, more, first_read, more_read, rfl⟩ := definitions_eq_ok unfinished read
    obtain ⟨good, spelled₁⟩ := definition_ensures spelled first rest less first_read
    exact List.forall_mem_cons.mpr ⟨good, ih rest less spelled₁ more_read⟩

end SchemaCompiler.Grammar
