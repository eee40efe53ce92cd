import SchemaCompiler.Proofs.Document.Placement
import SchemaCompiler.Proofs.Grammar.DefinitionsRead
import SchemaCompiler.Proofs.Grammar.Soundness

/-!
Productions in front of more tokens.

Tokens are moved to other places, and other tokens are put where they end. A production that reads
something in the first tokens reads the same in the second ones, moved, as long as what was put
there begins a definition: it never reads across the seam. Where nothing was put there but an end,
a production that fails fails with the same fault.
-/

namespace SchemaCompiler.Grammar

variable {f : Position → Position} {more : List Token}

/-! ## Joined tokens -/

/-- The second tokens are the first ones, moved, with `more` in place of their end. -/
inductive Joined (f : Position → Position) (more : List Token) :
    List Token → List Token → Prop where
  | seam (place : Position) : Joined f more [⟨.eof, place⟩] more
  | token {kind : TokenKind} {place : Position} {ts ts' : List Token} (inside : kind ≠ .eof)
      (behind : Joined f more ts ts') :
      Joined f more (⟨kind, place⟩ :: ts) (⟨kind, f place⟩ :: ts')

theorem joined_append {front : List Token} (inside : ∀ t ∈ front, t.kind ≠ .eof)
    (place : Position) :
    Joined f more (front ++ [⟨.eof, place⟩])
      (front.map (fun t => ⟨t.kind, f t.position⟩) ++ more) := by
  induction front with
  | nil => exact .seam place
  | cons t front ih =>
    rw [List.forall_mem_cons] at inside
    exact .token inside.1 (ih inside.2)

theorem eq_end_of_kindsOf {ts : List Token} (h : kindsOf ts = [.eof]) :
    ∃ place, ts = [⟨.eof, place⟩] := by
  obtain ⟨place, rest, rfl, none⟩ := kindsOf_eq_cons h
  obtain rfl : rest = [] := List.map_eq_nil_iff.mp none
  exact ⟨place, rfl⟩

section

variable {α β γ : Type} {Q Q₁ Q' Q₁' : List Token → Prop} {move : α → α} {move' : β → β}

/-- What is read, if anything is, is read moved with joined tokens behind it. If no tokens were put
at the seam, a fault is met again. -/
def Joins (f : Position → Position) (more : List Token) (move : α → α)
    (outcome : Except Failure (α × { rest : List Token // Q rest }))
    (outcome' : Except Failure (α × { rest : List Token // Q' rest })) : Prop :=
  (∀ a rest bound, outcome = .ok (a, ⟨rest, bound⟩) →
    ∃ rest', Yields outcome' (move a) rest' ∧ Joined f more rest rest') ∧
  ∀ place fault, outcome = .error (place, fault) → kindsOf more = [.eof] →
    ∃ place', outcome' = .error (place', fault)

theorem joins_ok {a : α} {rest rest' : List Token} {bound : Q rest} {bound' : Q' rest'}
    (joined : Joined f more rest rest') :
    Joins f more move (.ok (a, ⟨rest, bound⟩)) (.ok (move a, ⟨rest', bound'⟩)) := by
  constructor
  · intro a rest bound same
    cases same
    exact ⟨rest', yields_ok, joined⟩
  · intro place fault same
    cases same

theorem joins_error {place place' : Position} {fault : SyntaxFault} :
    Joins f more move
      (.error (place, fault) : Except Failure (α × { rest : List Token // Q rest }))
      (.error (place', fault) : Except Failure (α × { rest : List Token // Q' rest })) := by
  constructor
  · intro a rest bound same
    cases same
  · intro place fault same _
    cases same
    exact ⟨place', rfl⟩

theorem Joins.bind {first : Except Failure (α × { rest : List Token // Q rest })}
    {first' : Except Failure (α × { rest : List Token // Q' rest })}
    {next : α × { rest : List Token // Q rest } →
      Except Failure (β × { rest : List Token // Q₁ rest })}
    {next' : α × { rest : List Token // Q' rest } →
      Except Failure (β × { rest : List Token // Q₁' rest })}
    (h : Joins f more move first first')
    (h' : ∀ a rest rest' bound bound', Joined f more rest rest' →
      Joins f more move' (next (a, ⟨rest, bound⟩)) (next' (move a, ⟨rest', bound'⟩))) :
    Joins f more move' (first >>= next) (first' >>= next') := by
  obtain ⟨reads, fails⟩ := h
  cases first with
  | error failure =>
    obtain ⟨place, fault⟩ := failure
    constructor
    · intro a rest bound same
      cases same
    · intro place₁ fault₁ same bare
      cases same
      obtain ⟨place', failed⟩ := fails place fault rfl bare
      exact ⟨place', by rw [failed]; rfl⟩
  | ok found =>
    obtain ⟨a, rest, bound⟩ := found
    obtain ⟨rest', ⟨bound', read⟩, joined⟩ := reads a rest bound rfl
    rw [read]
    exact h' a rest rest' bound bound' joined

/-- A fault has to be met again only if no tokens were put at the seam. -/
theorem joins_of_error {place : Position} {fault : SyntaxFault}
    {outcome' : Except Failure (α × { rest : List Token // Q' rest })}
    (h : ∀ place, more = [⟨.eof, place⟩] → ∃ place', outcome' = .error (place', fault)) :
    Joins f more move
      (.error (place, fault) : Except Failure (α × { rest : List Token // Q rest })) outcome' := by
  constructor
  · intro a rest bound same
    cases same
  · intro place fault same bare
    cases same
    obtain ⟨end', only⟩ := eq_end_of_kindsOf bare
    exact h end' only

/-- What fails at an end fails at the seam, unless tokens were put there. -/
theorem joins_seam {Q : List Token → List Token → Prop}
    (production : (ts : List Token) → Except Failure (α × { rest : List Token // Q ts rest }))
    (fault : SyntaxFault)
    (fails : ∀ place, ∃ place', production [⟨.eof, place⟩] = .error (place', fault))
    (place : Position) : Joins f more move (production [⟨.eof, place⟩]) (production more) := by
  obtain ⟨place₁, failed⟩ := fails place
  rw [failed]
  apply joins_of_error
  rintro end' rfl
  exact fails end'

end

/-! ## Single tokens -/

section

variable {ts ts' rest : List Token} {mark : Punctuator} {word : String} {place : Position}

theorem unexpected_joins {α : Type} {Q Q' : List Token → Prop} {move : α → α}
    (expected : Expectation) (joined : Joined f more ts ts') :
    Joins f more move
      (unexpected expected ts : Except Failure (α × { rest : List Token // Q rest }))
      (unexpected expected ts' : Except Failure (α × { rest : List Token // Q' rest })) := by
  cases joined with
  | seam place =>
    apply joins_of_error
    rintro end' rfl
    exact ⟨end', rfl⟩
  | token inside behind => exact joins_error

theorem takeMark?_joined (joined : Joined f more ts ts') {bound : rest.length < ts.length}
    (taken : takeMark? mark ts = some (place, ⟨rest, bound⟩)) :
    ∃ rest' bound', takeMark? mark ts' = some (f place, ⟨rest', bound'⟩) ∧
      Joined f more rest rest' := by
  obtain rfl := eq_cons_of_takeMark? taken
  cases joined with
  | @token kind place ts ts' inside behind =>
    refine ⟨ts', by simp, ?_, behind⟩
    rw [takeMark?, if_pos rfl]

theorem takeMark?_joined_none (starts : StartsDefinition (kindsOf more))
    (joined : Joined f more ts ts') (absent : takeMark? mark ts = none) :
    takeMark? mark ts' = none := by
  apply takeMark?_none
  cases joined with
  | seam place => exact starts.no_mark mark
  | @token kind place ts ts' inside behind =>
    apply notNext_cons
    rintro rfl
    rw [takeMark?, if_pos rfl] at absent
    cases absent

theorem takeKeyword?_joined (joined : Joined f more ts ts') {bound : rest.length < ts.length}
    (taken : takeKeyword? word ts = some (place, ⟨rest, bound⟩)) :
    ∃ rest' bound', takeKeyword? word ts' = some (f place, ⟨rest', bound'⟩) ∧
      Joined f more rest rest' := by
  obtain rfl := eq_cons_of_takeKeyword? taken
  cases joined with
  | @token kind place ts ts' inside behind =>
    refine ⟨ts', by simp, ?_, behind⟩
    rw [takeKeyword?, if_pos rfl]

theorem takeKeyword?_token_none {kind : TokenKind} {place' : Position}
    (absent : takeKeyword? word (⟨kind, place⟩ :: ts) = none) :
    takeKeyword? word (⟨kind, place'⟩ :: ts') = none := by
  apply takeKeyword?_none
  apply notNext_cons
  rintro rfl
  rw [takeKeyword?, if_pos rfl] at absent
  cases absent

/-- A word that begins no definition is not next behind the seam either. -/
theorem takeKeyword?_joined_none (starts : StartsDefinition (kindsOf more))
    (joined : Joined f more ts ts') (inner : word ∉ definitionKeywords)
    (absent : takeKeyword? word ts = none) : takeKeyword? word ts' = none := by
  cases joined with
  | seam place =>
    apply takeKeyword?_none
    intro first
    exact inner (starts.endsInterfaces.names word first)
  | token inside behind => exact takeKeyword?_token_none absent

theorem expectMark_joins (starts : StartsDefinition (kindsOf more)) (mark : Punctuator)
    (joined : Joined f more ts ts') :
    Joins f more f (expectMark mark ts) (expectMark mark ts') := by
  unfold expectMark
  cases taken : takeMark? mark ts with
  | none =>
    rw [takeMark?_joined_none starts joined taken]
    exact unexpected_joins _ joined
  | some found =>
    obtain ⟨place, rest, bound⟩ := found
    obtain ⟨rest', bound', taken', behind⟩ := takeMark?_joined joined taken
    rw [taken']
    exact joins_ok behind

theorem expectKeyword_joins (word : String) (joined : Joined f more ts ts') :
    Joins f more f (expectKeyword word ts) (expectKeyword word ts') := by
  unfold expectKeyword
  cases taken : takeKeyword? word ts with
  | none =>
    cases joined with
    | seam place =>
      exact joins_seam (expectKeyword word) (.unexpected (.keyword word) .eof)
        (fun place => ⟨place, rfl⟩) place
    | token inside behind =>
      rw [takeKeyword?_token_none taken]
      exact joins_error
  | some found =>
    obtain ⟨place, rest, bound⟩ := found
    obtain ⟨rest', bound', taken', behind⟩ := takeKeyword?_joined joined taken
    rw [taken']
    exact joins_ok behind

theorem expectName_joins (joined : Joined f more ts ts') :
    Joins f more (Prod.map id f) (expectName ts) (expectName ts') := by
  cases joined with
  | seam place =>
    exact joins_seam expectName (.unexpected .name .eof) (fun place => ⟨place, rfl⟩) place
  | @token kind place ts ts' inside behind =>
    cases kind with
    | name text => exact joins_ok behind
    | _ => exact joins_error

theorem expectName_bind_joins {β : Type} {Q Q' : List Token → Prop} {move : β → β}
    {next : (String × Position) × Behind ts → Except Failure (β × { rest : List Token // Q rest })}
    {next' : (String × Position) × Behind ts' →
      Except Failure (β × { rest : List Token // Q' rest })}
    (joined : Joined f more ts ts')
    (h : ∀ name place rest rest' bound bound', Joined f more rest rest' →
      Joins f more move (next ((name, place), ⟨rest, bound⟩))
        (next' ((name, f place), ⟨rest', bound'⟩))) :
    Joins f more move (expectName ts >>= next) (expectName ts' >>= next') := by
  refine (expectName_joins joined).bind ?_
  rintro ⟨name, place⟩ rest rest' bound bound' behind
  exact h name place rest rest' bound bound' behind

theorem skipMark_joined (starts : StartsDefinition (kindsOf more)) (mark : Punctuator)
    (joined : Joined f more ts ts') :
    Joined f more (skipMark mark ts).val (skipMark mark ts').val := by
  unfold skipMark
  cases taken : takeMark? mark ts with
  | none =>
    rw [takeMark?_joined_none starts joined taken]
    exact joined
  | some found =>
    obtain ⟨place, rest, bound⟩ := found
    obtain ⟨rest', bound', taken', behind⟩ := takeMark?_joined joined taken
    rw [taken']
    exact behind

theorem description_joined {kind : TokenKind} (inside : kind ≠ .eof)
    (behind : Joined f more ts ts') :
    ∃ text rest bound rest' bound',
      description (⟨kind, place⟩ :: ts) = (text, ⟨rest, bound⟩) ∧
        description (⟨kind, f place⟩ :: ts') = (text, ⟨rest', bound'⟩) ∧
        Joined f more rest rest' := by
  cases kind with
  | string text => exact ⟨some text, ts, by simp, ts', by simp, rfl, rfl, behind⟩
  | _ => exact ⟨none, _, Nat.le_refl _, _, Nat.le_refl _, rfl, rfl, .token inside behind⟩

end

/-! ## Repetition -/

section

variable {α : Type} {move : α → α} {ts ts' : List Token}

theorem itemsUntil_joins (starts : StartsDefinition (kindsOf more)) {close : Punctuator}
    {bound bound' : Nat} {item : (ts : List Token) → ts.length ≤ bound → Parse α ts}
    {item' : (ts : List Token) → ts.length ≤ bound' → Parse α ts}
    (each : ∀ ts ts' fits fits', Joined f more ts ts' →
      Joins f more move (item ts fits) (item' ts' fits'))
    (fits : ts.length ≤ bound) (fits' : ts'.length ≤ bound') (joined : Joined f more ts ts') :
    Joins f more (List.map move) (itemsUntil close bound item ts fits)
      (itemsUntil close bound' item' ts' fits') := by
  fun_induction itemsUntil close bound item ts fits generalizing ts' with
  | case1 ts fits place behind taken =>
    obtain ⟨rest, less⟩ := behind
    obtain ⟨rest', less', taken', behind⟩ := takeMark?_joined joined taken
    rw [itemsUntil, taken']
    exact joins_ok behind
  | case2 ts fits other ih =>
    rw [itemsUntil, takeMark?_joined_none starts joined other]
    refine (each ts ts' fits fits' joined).bind fun first rest rest' less less' joined₁ => ?_
    refine (ih rest less _ joined₁).bind fun more rest rest' _ _ joined₂ => ?_
    exact joins_ok joined₂

theorem optionalBlock_joins (starts : StartsDefinition (kindsOf more))
    {openMark close : Punctuator} {item : (ts : List Token) → Parse α ts}
    (each : ∀ ts ts', Joined f more ts ts' → Joins f more move (item ts) (item ts'))
    (joined : Joined f more ts ts') :
    Joins f more (List.map move) (optionalBlock openMark close item ts)
      (optionalBlock openMark close item ts') := by
  unfold optionalBlock
  cases taken : takeMark? openMark ts with
  | none =>
    rw [takeMark?_joined_none starts joined taken]
    exact joins_ok joined
  | some found =>
    obtain ⟨place, rest, bound⟩ := found
    obtain ⟨rest', bound', taken', behind⟩ := takeMark?_joined joined taken
    rw [taken']
    refine (itemsUntil_joins starts (fun ts ts' _ _ => each ts ts') _ _ behind).bind
      fun items rest rest' _ _ joined₁ => ?_
    exact joins_ok joined₁

theorem barSeparated_joins (starts : StartsDefinition (kindsOf more))
    {item : (ts : List Token) → Parse α ts}
    (each : ∀ ts ts', Joined f more ts ts' → Joins f more move (item ts) (item ts'))
    (joined : Joined f more ts ts') :
    Joins f more (List.map move) (barSeparated item ts) (barSeparated item ts') := by
  fun_induction barSeparated item ts generalizing ts' with
  | case1 ts ih =>
    rw [barSeparated]
    refine (each ts ts' joined).bind fun first rest rest' less less' joined₁ => ?_
    dsimp only
    cases taken : takeMark? .pipe rest with
    | none =>
      rw [takeMark?_joined_none starts joined₁ taken]
      exact joins_ok joined₁
    | some found =>
      obtain ⟨place, rest₁, bound⟩ := found
      obtain ⟨rest₁', bound', taken', behind⟩ := takeMark?_joined joined₁ taken
      rw [taken']
      refine (ih rest less rest₁ bound behind).bind fun more rest rest' _ _ joined₂ => ?_
      exact joins_ok joined₂

end

/-! ## Type references and constants -/

section

variable {ts ts' : List Token}

theorem withBang_joins (starts : StartsDefinition (kindsOf more)) (ref : TypeRef)
    {rest rest' : List Token} (less : rest.length < ts.length) (less' : rest'.length < ts'.length)
    (joined : Joined f more rest rest') :
    Joins f more id (.ok (withBang ts ref ⟨rest, less⟩) : Parse TypeRef ts)
      (.ok (withBang ts' ref ⟨rest', less'⟩) : Parse TypeRef ts') := by
  unfold withBang
  dsimp only
  cases taken : takeMark? .bang rest with
  | none =>
    rw [takeMark?_joined_none starts joined taken]
    exact joins_ok joined
  | some found =>
    obtain ⟨place, rest₁, bound⟩ := found
    obtain ⟨rest₁', bound', taken', behind⟩ := takeMark?_joined joined taken
    rw [taken']
    exact joins_ok behind

theorem typeRef_joins (starts : StartsDefinition (kindsOf more)) (joined : Joined f more ts ts') :
    Joins f more id (typeRef ts) (typeRef ts') := by
  fun_induction typeRef ts generalizing ts' with
  | case1 ts place rest less taken ih =>
    obtain ⟨rest', less', taken', behind⟩ := takeMark?_joined joined taken
    rw [typeRef.eq_def ts', taken']
    refine (ih behind).bind fun inner rest₁ rest₁' _ _ joined₁ => ?_
    refine (expectMark_joins starts .bracketClose joined₁).bind fun _ rest₂ rest₂' _ _ joined₂ => ?_
    exact withBang_joins starts (.list inner) _ _ joined₂
  | case2 ts other =>
    rw [typeRef.eq_def ts', takeMark?_joined_none starts joined other]
    refine expectName_bind_joins joined fun name _ rest rest' _ _ joined₁ => ?_
    exact withBang_joins starts (.named name) _ _ joined₁

/-- Induction on the number of tokens: a list or an object asks for constants further on. -/
theorem value_joins (starts : StartsDefinition (kindsOf more)) (ts : List Token) {ts' : List Token}
    (joined : Joined f more ts ts') : Joins f more id (value ts) (value ts') := by
  cases joined with
  | seam place =>
    have fails (place : Position) : ∃ place', value [⟨.eof, place⟩] =
        .error (place', .unexpected .value .eof) := by
      rw [value.eq_def]
      exact ⟨place, rfl⟩
    exact joins_seam value (.unexpected .value .eof) fails place
  | @token kind place ts ts' inside behind =>
    rw [value.eq_def, value.eq_def (⟨kind, f place⟩ :: ts')]
    cases kind with
    | int text => exact joins_ok behind
    | float text => exact joins_ok behind
    | string text => exact joins_ok behind
    | name name => exact joins_ok behind
    | spread => exact joins_error
    | eof => exact absurd rfl inside
    | punct mark =>
      cases mark with
      | bracketOpen =>
        have each (ts₁ ts₁' : List Token) (fits : ts₁.length ≤ ts.length)
            (_ : ts₁'.length ≤ ts'.length) (joined : Joined f more ts₁ ts₁') :
            Joins f more id (value ts₁) (value ts₁') := value_joins starts ts₁ joined
        refine (itemsUntil_joins starts each _ _ behind).bind fun items rest rest' _ _ joined₁ => ?_
        rw [List.map_id]
        exact joins_ok joined₁
      | braceOpen =>
        have each (ts₁ ts₁' : List Token) (fits : ts₁.length ≤ ts.length)
            (_ : ts₁'.length ≤ ts'.length) (joined : Joined f more ts₁ ts₁') :
            Joins f more id (entry ts₁) (entry ts₁') := by
          refine expectName_bind_joins joined fun name _ rest₁ rest₁' h₁ _ joined₁ => ?_
          refine (expectMark_joins starts .colon joined₁).bind fun _ rest₂ rest₂' h₂ _ joined₂ => ?_
          refine (value_joins starts rest₂ joined₂).bind fun v rest₃ rest₃' _ _ joined₃ => ?_
          exact joins_ok joined₃
        refine (itemsUntil_joins starts each _ _ behind).bind fun items rest rest' _ _ joined₁ => ?_
        rw [List.map_id]
        exact joins_ok joined₁
      | dollar => exact joins_error
      | _ => exact joins_error
termination_by ts.length
decreasing_by all_goals subst_vars; simp only [List.length_cons]; omega

/-! ## Directives and arguments -/

theorem argument_joins (starts : StartsDefinition (kindsOf more)) (joined : Joined f more ts ts') :
    Joins f more id (argument ts) (argument ts') := by
  refine expectName_bind_joins joined fun name _ rest₁ rest₁' _ _ joined₁ => ?_
  refine (expectMark_joins starts .colon joined₁).bind fun _ rest₂ rest₂' _ _ joined₂ => ?_
  refine (value_joins starts rest₂ joined₂).bind fun v rest₃ rest₃' _ _ joined₃ => ?_
  exact joins_ok joined₃

theorem directiveUses_joins (starts : StartsDefinition (kindsOf more))
    (joined : Joined f more ts ts') :
    Joins f more (List.map (DirectiveUse.moved f)) (directiveUses ts) (directiveUses ts') := by
  fun_induction directiveUses ts generalizing ts' with
  | case1 ts place rest less taken ih =>
    obtain ⟨rest', less', taken', behind⟩ := takeMark?_joined joined taken
    rw [directiveUses.eq_def ts', taken']
    refine expectName_bind_joins behind fun name _ rest₁ rest₁' h₁ _ joined₁ => ?_
    refine (optionalBlock_joins starts (fun _ _ => argument_joins starts) joined₁).bind
      fun args rest₂ rest₂' h₂ _ joined₂ => ?_
    refine (ih rest₁ h₁ rest₂ h₂ joined₂).bind fun uses rest₃ rest₃' _ _ joined₃ => ?_
    rw [List.map_id]
    exact joins_ok joined₃
  | case2 ts other =>
    rw [directiveUses.eq_def ts', takeMark?_joined_none starts joined other]
    exact joins_ok joined

theorem defaultValue_joins (starts : StartsDefinition (kindsOf more))
    (joined : Joined f more ts ts') :
    Joins f more id (defaultValue ts) (defaultValue ts') := by
  unfold defaultValue
  cases taken : takeMark? .equals ts with
  | none =>
    rw [takeMark?_joined_none starts joined taken]
    exact joins_ok joined
  | some found =>
    obtain ⟨place, rest, bound⟩ := found
    obtain ⟨rest', bound', taken', behind⟩ := takeMark?_joined joined taken
    rw [taken']
    refine (value_joins starts rest behind).bind fun v rest₁ rest₁' _ _ joined₁ => ?_
    exact joins_ok joined₁

theorem inputValue_joins (starts : StartsDefinition (kindsOf more))
    (joined : Joined f more ts ts') :
    Joins f more (InputValue.moved f) (inputValue ts) (inputValue ts') := by
  cases joined with
  | seam place =>
    exact joins_seam inputValue (.unexpected .name .eof) (fun place => ⟨place, rfl⟩) place
  | token inside behind =>
    obtain ⟨text, rest₀, _, rest₀', _, read, read', joined₀⟩ := description_joined inside behind
    unfold inputValue
    rw [read, read']
    refine expectName_bind_joins joined₀ fun name _ rest₁ rest₁' _ _ joined₁ => ?_
    refine (expectMark_joins starts .colon joined₁).bind fun _ rest₂ rest₂' _ _ joined₂ => ?_
    refine (typeRef_joins starts joined₂).bind fun ty rest₃ rest₃' _ _ joined₃ => ?_
    refine (defaultValue_joins starts joined₃).bind fun default rest₄ rest₄' _ _ joined₄ => ?_
    refine (directiveUses_joins starts joined₄).bind fun uses rest₅ rest₅' _ _ joined₅ => ?_
    exact joins_ok joined₅

theorem field_joins (starts : StartsDefinition (kindsOf more)) (joined : Joined f more ts ts') :
    Joins f more (Field.moved f) (field ts) (field ts') := by
  cases joined with
  | seam place =>
    exact joins_seam field (.unexpected .name .eof) (fun place => ⟨place, rfl⟩) place
  | token inside behind =>
    obtain ⟨text, rest₀, _, rest₀', _, read, read', joined₀⟩ := description_joined inside behind
    unfold field
    rw [read, read']
    refine expectName_bind_joins joined₀ fun name _ rest₁ rest₁' _ _ joined₁ => ?_
    refine (optionalBlock_joins starts (fun _ _ => inputValue_joins starts) joined₁).bind
      fun args rest₂ rest₂' _ _ joined₂ => ?_
    refine (expectMark_joins starts .colon joined₂).bind fun _ rest₃ rest₃' _ _ joined₃ => ?_
    refine (typeRef_joins starts joined₃).bind fun ty rest₄ rest₄' _ _ joined₄ => ?_
    refine (directiveUses_joins starts joined₄).bind fun uses rest₅ rest₅' _ _ joined₅ => ?_
    exact joins_ok joined₅

theorem enumValue_joins (starts : StartsDefinition (kindsOf more))
    (joined : Joined f more ts ts') :
    Joins f more (EnumValue.moved f) (enumValue ts) (enumValue ts') := by
  cases joined with
  | seam place =>
    exact joins_seam enumValue (.unexpected .name .eof) (fun place => ⟨place, rfl⟩) place
  | token inside behind =>
    obtain ⟨text, rest₀, _, rest₀', _, read, read', joined₀⟩ := description_joined inside behind
    unfold enumValue
    rw [read, read']
    refine expectName_bind_joins joined₀ fun name place rest₁ rest₁' _ _ joined₁ => ?_
    dsimp only
    by_cases reserved : reservedEnumValues.contains name = true
    · rw [if_pos reserved, if_pos reserved]
      exact joins_error
    · rw [if_neg reserved, if_neg reserved]
      refine (directiveUses_joins starts joined₁).bind fun uses rest₂ rest₂' _ _ joined₂ => ?_
      exact joins_ok joined₂

/-! ## Bodies -/

theorem next_beq_mark (starts : StartsDefinition (kindsOf more)) (mark : Punctuator)
    (joined : Joined f more ts ts') :
    ((next ts').kind == .punct mark) = ((next ts).kind == .punct mark) := by
  cases joined with
  | token inside behind => rfl
  | seam place =>
    have no_mark := starts.no_mark mark
    cases more with
    | nil => rfl
    | cons t more =>
      have other : t.kind ≠ .punct mark := fun same => no_mark (congrArg some same)
      rw [Bool.eq_iff_iff, beq_iff_eq, beq_iff_eq]
      constructor
      · intro same
        exact absurd same other
      · intro same
        cases same

/-- Nothing that begins a definition goes on with a list of interfaces. -/
theorem moreInterfaces_starts (starts : StartsDefinition (kindsOf ts)) :
    moreInterfaces ts = .ok ([], ⟨ts, Nat.le_refl _⟩) := by
  have ends := starts.endsInterfaces
  rw [moreInterfaces.eq_def]
  split
  · exact absurd rfl (ends.ampersand)
  · next name place rest =>
    have known := ends.names name rfl
    rw [if_pos]
    rw [Bool.or_eq_true]
    exact .inl (List.contains_iff_mem.mpr known)
  · rfl

theorem moreInterfaces_joins (starts : StartsDefinition (kindsOf more))
    (joined : Joined f more ts ts') :
    Joins f more id (moreInterfaces ts) (moreInterfaces ts') := by
  fun_induction moreInterfaces ts generalizing ts' with
  | case1 place rest ih =>
    cases joined with
    | @token _ _ _ ts' inside behind =>
      rw [moreInterfaces.eq_def (_ :: ts')]
      refine expectName_bind_joins behind fun name _ rest₁ rest₁' h₁ _ joined₁ => ?_
      refine (ih rest₁ h₁ joined₁).bind fun names rest₂ rest₂' _ _ joined₂ => ?_
      exact joins_ok joined₂
  | case2 name place rest ends =>
    cases joined with
    | @token _ _ _ ts' inside behind =>
      rw [moreInterfaces.eq_def (_ :: ts')]
      dsimp only
      rw [next_beq_mark starts .colon behind, if_pos ends]
      exact joins_ok (.token inside behind)
  | case3 name place rest goes_on ih =>
    cases joined with
    | @token _ _ _ ts' inside behind =>
      rw [moreInterfaces.eq_def (_ :: ts')]
      dsimp only
      rw [next_beq_mark starts .colon behind, if_neg goes_on]
      refine (ih behind).bind fun names rest₁ rest₁' _ _ joined₁ => ?_
      exact joins_ok joined₁
  | case4 ts ampersand name =>
    cases joined with
    | seam place =>
      rw [moreInterfaces_starts starts]
      exact joins_ok (.seam place)
    | @token kind place rest rest' inside behind =>
      have joined : Joined f more (⟨kind, place⟩ :: rest) (⟨kind, f place⟩ :: rest') :=
        .token inside behind
      rw [moreInterfaces.eq_def (_ :: rest')]
      cases kind with
      | name text => exact absurd rfl (name text place rest)
      | punct mark =>
        cases mark with
        | ampersand => exact absurd rfl (ampersand place rest)
        | _ => exact joins_ok joined
      | _ => exact joins_ok joined

theorem implements_joins (starts : StartsDefinition (kindsOf more))
    (joined : Joined f more ts ts') : Joins f more id (implements ts) (implements ts') := by
  unfold implements
  cases taken : takeKeyword? "implements" ts with
  | none =>
    rw [takeKeyword?_joined_none starts joined (by decide) taken]
    exact joins_ok joined
  | some found =>
    obtain ⟨place, rest, bound⟩ := found
    obtain ⟨rest', bound', taken', behind⟩ := takeKeyword?_joined joined taken
    rw [taken']
    refine expectName_bind_joins (skipMark_joined starts .ampersand behind)
      fun name _ rest₁ rest₁' _ _ joined₁ => ?_
    refine (moreInterfaces_joins starts joined₁).bind fun names rest₂ rest₂' _ _ joined₂ => ?_
    exact joins_ok joined₂

theorem operationType_joins (starts : StartsDefinition (kindsOf more))
    (joined : Joined f more ts ts') :
    Joins f more (OperationType.moved f) (operationType ts) (operationType ts') := by
  refine expectName_bind_joins joined fun word place rest₁ rest₁' _ _ joined₁ => ?_
  dsimp only
  split
  -- the same steps follow every word
  iterate 3
    refine (expectMark_joins starts .colon joined₁).bind fun _ rest₂ rest₂' _ _ joined₂ => ?_
    refine expectName_bind_joins joined₂ fun typeName _ rest₃ rest₃' _ _ joined₃ => ?_
    exact joins_ok joined₃
  · exact joins_error

theorem operationTypes_joins (starts : StartsDefinition (kindsOf more)) (extension : Bool)
    (joined : Joined f more ts ts') :
    Joins f more (List.map (OperationType.moved f)) (operationTypes extension ts)
      (operationTypes extension ts') := by
  have same : (takeMark? .braceOpen ts').isNone = (takeMark? .braceOpen ts).isNone := by
    cases taken : takeMark? .braceOpen ts with
    | none =>
      rw [takeMark?_joined_none starts joined taken]
      rfl
    | some found =>
      obtain ⟨rest', bound', taken', -⟩ := takeMark?_joined joined taken
      rw [taken']
      rfl
  unfold operationTypes
  rw [same]
  by_cases bare : (extension && (takeMark? .braceOpen ts).isNone) = true
  · rw [if_pos bare, if_pos bare]
    exact joins_ok joined
  · rw [if_neg bare, if_neg bare]
    refine (expectMark_joins starts .braceOpen joined).bind fun _ rest rest' _ _ joined₁ => ?_
    refine (itemsUntil_joins starts (fun _ _ _ _ => operationType_joins starts) _ _ joined₁).bind
      fun operations rest₁ rest₁' _ _ joined₂ => ?_
    exact joins_ok joined₂

theorem unionMember_joins (joined : Joined f more ts ts') :
    Joins f more id (unionMember ts) (unionMember ts') := by
  refine expectName_bind_joins joined fun name _ rest rest' _ _ joined₁ => ?_
  exact joins_ok joined₁

theorem unionMembers_joins (starts : StartsDefinition (kindsOf more))
    (joined : Joined f more ts ts') :
    Joins f more id (unionMembers ts) (unionMembers ts') := by
  unfold unionMembers
  cases taken : takeMark? .equals ts with
  | none =>
    rw [takeMark?_joined_none starts joined taken]
    exact joins_ok joined
  | some found =>
    obtain ⟨place, rest, bound⟩ := found
    obtain ⟨rest', bound', taken', behind⟩ := takeMark?_joined joined taken
    rw [taken']
    refine (barSeparated_joins starts (fun _ _ => unionMember_joins)
      (skipMark_joined starts .pipe behind)).bind fun members rest₁ rest₁' _ _ joined₁ => ?_
    rw [List.map_id]
    exact joins_ok joined₁

/-- The directives and the body of a type, moved. -/
def movedBody (f : Position → Position) (body : List DirectiveUse × TypeKind) :
    List DirectiveUse × TypeKind :=
  (body.1.map (DirectiveUse.moved f), body.2.moved f)

theorem typeBody_joins (starts : StartsDefinition (kindsOf more)) (keyword : String)
    (place : Position) (joined : Joined f more ts ts') :
    Joins f more (movedBody f) (typeBody keyword place ts) (typeBody keyword (f place) ts') := by
  unfold typeBody
  split
  · refine (directiveUses_joins starts joined).bind fun uses rest rest' _ _ joined₁ => ?_
    exact joins_ok joined₁
  -- objects and interfaces differ in the word alone
  iterate 2
    refine (implements_joins starts joined).bind fun interfaces rest₁ rest₁' _ _ joined₁ => ?_
    refine (directiveUses_joins starts joined₁).bind fun uses rest₂ rest₂' _ _ joined₂ => ?_
    refine (optionalBlock_joins starts (fun _ _ => field_joins starts) joined₂).bind
      fun fields rest₃ rest₃' _ _ joined₃ => ?_
    exact joins_ok joined₃
  · refine (directiveUses_joins starts joined).bind fun uses rest₁ rest₁' _ _ joined₁ => ?_
    refine (unionMembers_joins starts joined₁).bind fun members rest₂ rest₂' _ _ joined₂ => ?_
    exact joins_ok joined₂
  · refine (directiveUses_joins starts joined).bind fun uses rest₁ rest₁' _ _ joined₁ => ?_
    refine (optionalBlock_joins starts (fun _ _ => enumValue_joins starts) joined₁).bind
      fun values rest₂ rest₂' _ _ joined₂ => ?_
    exact joins_ok joined₂
  · refine (directiveUses_joins starts joined).bind fun uses rest₁ rest₁' _ _ joined₁ => ?_
    refine (optionalBlock_joins starts (fun _ _ => inputValue_joins starts) joined₁).bind
      fun fields rest₂ rest₂' _ _ joined₂ => ?_
    exact joins_ok joined₂
  · exact joins_error

/-! ## Definitions -/

theorem typeDef_joins (starts : StartsDefinition (kindsOf more)) (text : Option String)
    (joined : Joined f more ts ts') :
    Joins f more (TypeDef.moved f) (typeDef text ts) (typeDef text ts') := by
  refine expectName_bind_joins joined fun keyword place rest₁ rest₁' _ _ joined₁ => ?_
  refine expectName_bind_joins joined₁ fun name _ rest₂ rest₂' _ _ joined₂ => ?_
  refine (typeBody_joins starts keyword place joined₂).bind ?_
  rintro ⟨uses, kind⟩ rest₃ rest₃' _ _ joined₃
  exact joins_ok joined₃

theorem schemaDef_joins (starts : StartsDefinition (kindsOf more)) (text : Option String)
    (extension : Bool) (joined : Joined f more ts ts') :
    Joins f more (SchemaDef.moved f) (schemaDef text extension ts)
      (schemaDef text extension ts') := by
  refine (expectKeyword_joins "schema" joined).bind fun _ rest₁ rest₁' _ _ joined₁ => ?_
  refine (directiveUses_joins starts joined₁).bind fun uses rest₂ rest₂' _ _ joined₂ => ?_
  refine (operationTypes_joins starts extension joined₂).bind
    fun operations rest₃ rest₃' _ _ joined₃ => ?_
  exact joins_ok joined₃

theorem directiveLocation_joins (joined : Joined f more ts ts') :
    Joins f more id (directiveLocation ts) (directiveLocation ts') := by
  refine expectName_bind_joins joined fun name _ rest rest' _ _ joined₁ => ?_
  dsimp only
  by_cases known : directiveLocations.contains name = true
  · rw [if_pos known, if_pos known]
    exact joins_ok joined₁
  · rw [if_neg known, if_neg known]
    exact joins_error

theorem repeatable_joined (starts : StartsDefinition (kindsOf more))
    (joined : Joined f more ts ts') :
    ∃ repeats rest bound rest' bound', repeatable ts = (repeats, ⟨rest, bound⟩) ∧
      repeatable ts' = (repeats, ⟨rest', bound'⟩) ∧ Joined f more rest rest' := by
  unfold repeatable
  cases taken : takeKeyword? "repeatable" ts with
  | none =>
    rw [takeKeyword?_joined_none starts joined (by decide) taken]
    exact ⟨false, ts, Nat.le_refl _, ts', Nat.le_refl _, rfl, rfl, joined⟩
  | some found =>
    obtain ⟨place, rest, bound⟩ := found
    obtain ⟨rest', bound', taken', behind⟩ := takeKeyword?_joined joined taken
    rw [taken']
    exact ⟨true, rest, Nat.le_of_lt bound, rest', Nat.le_of_lt bound', rfl, rfl, behind⟩

theorem directiveDef_joins (starts : StartsDefinition (kindsOf more)) (text : Option String)
    (joined : Joined f more ts ts') :
    Joins f more (DirectiveDef.moved f) (directiveDef text ts) (directiveDef text ts') := by
  refine (expectKeyword_joins "directive" joined).bind fun _ rest₁ rest₁' _ _ joined₁ => ?_
  refine (expectMark_joins starts .atSign joined₁).bind fun _ rest₂ rest₂' _ _ joined₂ => ?_
  refine expectName_bind_joins joined₂ fun name _ rest₃ rest₃' _ _ joined₃ => ?_
  refine (optionalBlock_joins starts (fun _ _ => inputValue_joins starts) joined₃).bind
    fun args rest₄ rest₄' _ _ joined₄ => ?_
  obtain ⟨repeats, rest₅, _, rest₅', _, read, read', joined₅⟩ := repeatable_joined starts joined₄
  dsimp only
  rw [read, read']
  refine (expectKeyword_joins "on" joined₅).bind fun _ rest₆ rest₆' _ _ joined₆ => ?_
  refine (barSeparated_joins starts (fun _ _ => directiveLocation_joins)
    (skipMark_joined starts .pipe joined₆)).bind fun locations rest₈ rest₈' _ _ joined₈ => ?_
  rw [List.map_id]
  exact joins_ok joined₈

theorem extension_joins (starts : StartsDefinition (kindsOf more)) (joined : Joined f more ts ts') :
    Joins f more (Definition.moved f) (extension ts) (extension ts') := by
  unfold extension
  cases taken : takeKeyword? "schema" ts with
  | some found =>
    obtain ⟨place, rest, bound⟩ := found
    obtain ⟨rest', bound', taken', -⟩ := takeKeyword?_joined joined taken
    rw [taken']
    refine (schemaDef_joins starts none true joined).bind fun schema rest rest' _ _ joined₁ => ?_
    exact joins_ok joined₁
  | none =>
    cases joined with
    | seam place =>
      exact joins_seam extension (.unexpected .name .eof) (fun place => ⟨place, rfl⟩) place
    | @token kind place ts ts' inside behind =>
      rw [takeKeyword?_token_none taken]
      have joined : Joined f more (⟨kind, place⟩ :: ts) (⟨kind, f place⟩ :: ts') :=
        .token inside behind
      refine (typeDef_joins starts none joined).bind fun type rest rest' _ _ joined₁ => ?_
      exact joins_ok joined₁

theorem definition_joins (starts : StartsDefinition (kindsOf more))
    (joined : Joined f more ts ts') :
    Joins f more (Definition.moved f) (definition ts) (definition ts') := by
  cases joined with
  | seam place =>
    exact joins_seam definition (.unexpected .definition .eof) (fun place => ⟨place, rfl⟩) place
  | token inside behind =>
    obtain ⟨text, rest₀, _, rest₀', _, read, read', joined₀⟩ := description_joined inside behind
    unfold definition
    rw [read, read']
    cases joined₀ with
    | seam place =>
      apply joins_of_error
      rintro end' rfl
      exact ⟨end', rfl⟩
    | @token kind place ts ts' inside behind =>
      have joined : Joined f more (⟨kind, place⟩ :: ts) (⟨kind, f place⟩ :: ts') :=
        .token inside behind
      dsimp only [next]
      split
      · refine (schemaDef_joins starts text false joined).bind
          fun schema rest rest' _ _ joined₁ => ?_
        exact joins_ok joined₁
      iterate 6
        refine (typeDef_joins starts text joined).bind fun type rest rest' _ _ joined₁ => ?_
        exact joins_ok joined₁
      · refine (directiveDef_joins starts text joined).bind
          fun directive rest rest' _ _ joined₁ => ?_
        exact joins_ok joined₁
      · by_cases described : text.isSome = true
        · rw [if_pos described, if_pos described]
          exact joins_error
        · rw [if_neg described, if_neg described]
          refine (expectKeyword_joins "extend" joined).bind fun _ rest₁ rest₁' _ _ joined₁ => ?_
          refine (extension_joins starts joined₁).bind
            fun definition rest₂ rest₂' _ _ joined₂ => ?_
          exact joins_ok joined₂
      · exact joins_error

/-- The definitions in front of the seam are read first, moved, and then those behind it. Where there
is nothing behind it, a fault is met again. -/
theorem definitions_joined (starts : StartsDefinition (kindsOf more))
    (joined : Joined f more ts ts') :
    (∀ found, definitions ts = .ok found →
      definitions ts' = (definitions more).map (found.map (Definition.moved f) ++ ·)) ∧
      ∀ place fault, definitions ts = .error (place, fault) → kindsOf more = [.eof] →
        ∃ place', definitions ts' = .error (place', fault) := by
  fun_induction definitions ts generalizing ts' with
  | case1 ts finished =>
    cases joined with
    | seam place =>
      refine ⟨?_, fun place fault failed => by cases failed⟩
      intro found read
      cases read
      cases definitions more <;> rfl
    | token inside behind => exact absurd (of_decide_eq_true finished) inside
  | case2 ts unfinished ih =>
    have unfinished' : ¬ atEnd ts' = true := by
      cases joined with
      | seam place => exact absurd rfl unfinished
      | token inside behind => exact unfinished
    obtain ⟨reads, fails⟩ := definition_joins starts joined
    rw [definitions.eq_def ts', if_neg unfinished']
    cases first : definition ts with
    | error failure =>
      obtain ⟨place, fault⟩ := failure
      constructor
      · intro found read
        cases read
      · intro place₁ fault₁ failed bare
        cases failed
        obtain ⟨place', failed'⟩ := fails place fault first bare
        rw [failed']
        exact ⟨place', rfl⟩
    | ok outcome =>
      obtain ⟨head, rest, less⟩ := outcome
      obtain ⟨rest', ⟨less', first'⟩, joined₁⟩ := reads head rest less first
      obtain ⟨more_read, more_failed⟩ := ih rest less joined₁
      rw [first']
      constructor
      · intro found read
        cases behind : definitions rest with
        | error failure =>
          simp only [bind, Except.bind, behind] at read
          cases read
        | ok tail =>
          simp only [bind, Except.bind, behind] at read
          cases read
          simp only [bind, Except.bind, more_read tail behind]
          cases definitions more <;> rfl
      · intro place fault failed bare
        cases behind : definitions rest with
        | ok tail =>
          simp only [bind, Except.bind, behind] at failed
          cases failed
        | error failure =>
          simp only [bind, Except.bind, behind] at failed
          cases failed
          obtain ⟨place', failed'⟩ := more_failed place fault behind bare
          simp only [bind, Except.bind, failed']
          exact ⟨place', rfl⟩

theorem startsDefinition_of_definition {t : Token} {found : Definition × Behind (t :: ts)}
    (read : definition (t :: ts) = .ok found) : StartsDefinition (kindsOf (t :: ts)) := by
  obtain ⟨kind, place⟩ := t
  cases kind with
  | string text => exact .described text _
  | name word =>
    have known : word ∈ definitionKeywords := by
      have behind : description (⟨.name word, place⟩ :: ts) =
        (none, ⟨⟨.name word, place⟩ :: ts, Nat.le_refl _⟩) := rfl
      rw [definition, behind] at read
      dsimp only [next] at read
      split at read
      case h_10 => cases read
      all_goals
        next same =>
        cases same
        decide
    exact .keyword known _
  | _ => cases read

end

end SchemaCompiler.Grammar
