import SchemaCompiler.Proofs.Grammar.Goals
import SchemaCompiler.Proofs.Grammar.Soundness

/-!
Productions meet goals.

A production that has its goal on top of the stack reads what meets the goal, and no more: behind it
the goals below are left. Where it fails, the token it blames is the first one that they refuse. So
no production looks past a bad token, with two exceptions that are told apart. A bare name in front
of a colon ends a list of interfaces, and the fault is found at the name. And the name of what is
extended is asked for before the word in front of it is looked at.
-/

namespace SchemaCompiler.Grammar

variable {tokens ts rest : List Token} {goal : Goal} {goals more : List Goal}

/-! ## Standing somewhere -/

/-- What was read of the tokens leads to goals that do with the next token what these goals do. -/
def Stands (tokens : List Token) (goals : List Goal) (rest : List Token) : Prop :=
  ∃ front reached, tokens = front ++ rest ∧ (∀ t ∈ front, t.kind ≠ .eof) ∧
    reach [.definitions] (kindsOf front) = .ok reached ∧
    step reached (next rest).kind = step goals (next rest).kind

theorem stands_start (tokens : List Token) : Stands tokens [.definitions] tokens :=
  ⟨[], [.definitions], rfl, List.forall_mem_nil _, rfl, rfl⟩

theorem Stands.of_step {goals' : List Goal} (h : Stands tokens goals rest)
    (same : step goals (next rest).kind = step goals' (next rest).kind) :
    Stands tokens goals' rest := by
  obtain ⟨front, reached, shape, inside, read, next_step⟩ := h
  exact ⟨front, reached, shape, inside, read, next_step.trans same⟩

theorem Stands.pass (h : Stands tokens (goal :: goals) rest)
    (pass : goal.move (next rest).kind = .pass) : Stands tokens goals rest :=
  h.of_step (step_pass pass)

theorem Stands.read {t : Token} (h : Stands tokens (goal :: goals) (t :: rest))
    (read : goal.move t.kind = .read more) (inside : t.kind ≠ .eof) :
    Stands tokens (more ++ goals) rest := by
  obtain ⟨front, reached, rfl, others, front_read, next_step⟩ := h
  refine ⟨front ++ [t], more ++ goals, ?_, ?_, ?_, rfl⟩
  · rw [List.append_assoc, List.singleton_append]
  · exact List.forall_mem_append.mpr ⟨others, List.forall_mem_singleton.mpr inside⟩
  · rw [kindsOf, List.map_append, List.map_singleton, ← kindsOf, reach_snoc front_read]
    exact next_step.trans (step_read read)

/-- No part that is needed reads the end. -/
theorem Stands.readPart {part : Part} {t : Token}
    (h : Stands tokens (.need part :: goals) (t :: rest))
    (read : part.behind t.kind = some more) : Stands tokens (more ++ goals) rest := by
  refine h.read (by rw [Goal.move, read]) fun last => ?_
  rw [last, part.behind_unread.1] at read
  cases read

/-- The place is that of the first token that the goals refuse. -/
def Blames (tokens : List Token) (place : Position) : Prop :=
  ∃ goals rest, Stands tokens goals rest ∧ step goals (next rest).kind = .error .here ∧
    place = (next rest).position

theorem Stands.refuse (h : Stands tokens (goal :: goals) rest)
    (refuse : goal.move (next rest).kind = .refuse .here) : Blames tokens (next rest).position :=
  ⟨goal :: goals, rest, h, step_refuse refuse, rfl⟩

section

variable {α β : Type} {Q Q' : List Token → Prop} {goals' : List Goal}

/-- The production ends in front of goals, or it blames the first token that they refuse. -/
inductive Goes (tokens : List Token) (goals : List Goal) :
    Except Failure (α × { rest : List Token // Q rest }) → Prop where
  | ok {a : α} {rest : List Token} {bound : Q rest} (h : Stands tokens goals rest) :
      Goes tokens goals (.ok (a, ⟨rest, bound⟩))
  | error {place : Position} {fault : SyntaxFault} (h : Blames tokens place) :
      Goes tokens goals (.error (place, fault))

theorem Goes.bind {first : Except Failure (α × { rest : List Token // Q rest })}
    {next : α × { rest : List Token // Q rest } →
      Except Failure (β × { rest : List Token // Q' rest })}
    (h : Goes tokens goals first)
    (h' : ∀ a rest bound, Stands tokens goals rest → Goes tokens goals' (next (a, ⟨rest, bound⟩))) :
    Goes tokens goals' (first >>= next) := by
  cases h with
  | ok h => exact h' _ _ _ h
  | error h => exact .error h

end

/-! ## Single tokens -/

theorem ne_of_takeMark?_none {mark : Punctuator} (absent : takeMark? mark ts = none) :
    (next ts).kind ≠ .punct mark := by
  cases ts with
  | nil => nofun
  | cons t rest =>
    obtain ⟨kind, place⟩ := t
    rintro rfl
    rw [takeMark?, if_pos rfl] at absent
    cases absent

theorem ne_of_takeKeyword?_none {word : String} (absent : takeKeyword? word ts = none) :
    (next ts).kind ≠ .name word := by
  cases ts with
  | nil => nofun
  | cons t rest =>
    obtain ⟨kind, place⟩ := t
    rintro rfl
    rw [takeKeyword?, if_pos rfl] at absent
    cases absent

theorem Stands.take {mark : Punctuator} {place : Position} {bound : rest.length < ts.length}
    (h : Stands tokens (goal :: goals) ts)
    (taken : takeMark? mark ts = some (place, ⟨rest, bound⟩))
    (read : goal.move (.punct mark) = .read more) : Stands tokens (more ++ goals) rest := by
  obtain rfl := eq_cons_of_takeMark? taken
  exact h.read read nofun

theorem Stands.takeWord {word : String} {place : Position} {bound : rest.length < ts.length}
    (h : Stands tokens (goal :: goals) ts)
    (taken : takeKeyword? word ts = some (place, ⟨rest, bound⟩))
    (read : goal.move (.name word) = .read more) : Stands tokens (more ++ goals) rest := by
  obtain rfl := eq_cons_of_takeKeyword? taken
  exact h.read read nofun

theorem token_read {t : Terminal} {kind : TokenKind} (admitted : t.admits kind = true) :
    (Goal.token t).move kind = .read [] := by
  rw [Goal.move, Part.behind, if_pos admitted]

theorem token_refuse {t : Terminal} {kind : TokenKind} (other : ¬ t.admits kind = true) :
    (Goal.token t).move kind = .refuse .here := by
  rw [Goal.move, Part.behind, if_neg other]

theorem expectMark_goes {mark : Punctuator} (h : Stands tokens (.mark mark :: goals) ts) :
    Goes tokens goals (expectMark mark ts) := by
  unfold expectMark
  cases taken : takeMark? mark ts with
  | some found => exact .ok (h.take taken (token_read (decide_eq_true rfl)))
  | none =>
    refine .error (h.refuse (token_refuse fun admitted => ne_of_takeMark?_none taken ?_))
    cases kind : (next ts).kind with
    | punct m =>
      rw [kind] at admitted
      rw [of_decide_eq_true admitted]
    | _ =>
      rw [kind] at admitted
      cases admitted

/-- A token other than the end is next only if there is one. -/
theorem eq_cons_of_next {kind : TokenKind} (same : (next ts).kind = kind) (inside : kind ≠ .eof) :
    ∃ place rest, ts = ⟨kind, place⟩ :: rest := by
  cases ts with
  | nil => exact absurd same.symm inside
  | cons t rest =>
    subst same
    exact ⟨t.position, rest, rfl⟩

theorem named_or_unnamed (ts : List Token) :
    (∃ word place rest, ts = ⟨.name word, place⟩ :: rest) ∨
      ∀ word, (next ts).kind ≠ .name word := by
  by_cases found : ∃ word, (next ts).kind = .name word
  · obtain ⟨word, same⟩ := found
    obtain ⟨place, rest, shape⟩ := eq_cons_of_next same nofun
    exact .inl ⟨word, place, rest, shape⟩
  · exact .inr fun word same => found ⟨word, same⟩

theorem expectName_name (word : String) (place : Position) (rest : List Token) :
    expectName (⟨.name word, place⟩ :: rest) =
      .ok ((word, place), ⟨rest, Nat.lt_succ_self rest.length⟩) := rfl

theorem expectName_unnamed (unnamed : ∀ word, (next ts).kind ≠ .name word) :
    expectName ts = unexpected .name ts := by
  unfold expectName
  split
  · next word place rest => exact absurd rfl (unnamed word)
  · rfl

/-- A name of a certain sort. -/
theorem namedToken_bind_goes {β : Type} {Q : List Token → Prop}
    {next' : (String × Position) × Behind ts → Except Failure (β × { rest : List Token // Q rest })}
    (h : Stands tokens (goal :: goals) ts)
    (unnamed : (∀ word, (next ts).kind ≠ .name word) → goal.move (next ts).kind = .refuse .here)
    (named : ∀ word place rest bound, Stands tokens (goal :: goals) (⟨.name word, place⟩ :: rest) →
      Goes tokens more (next' ((word, place), ⟨rest, bound⟩))) :
    Goes tokens more (expectName ts >>= next') := by
  rcases named_or_unnamed ts with ⟨word, place, rest, rfl⟩ | other
  · exact named word place rest _ h
  · rw [expectName_unnamed other]
    exact .error (h.refuse (unnamed other))

theorem Terminal.refuse_unnamed (t : Terminal) (word : ∀ mark, t ≠ .mark mark) {kind : TokenKind}
    (unnamed : ∀ word, kind ≠ .name word) : (Goal.token t).move kind = .refuse .here := by
  refine token_refuse fun admitted => ?_
  cases kind with
  | name word => exact unnamed word rfl
  | punct m =>
    cases t with
    | mark mark => exact word mark rfl
    | _ => cases admitted
  | _ => cases t <;> cases admitted

theorem expectName_goes (h : Stands tokens (.name :: goals) ts) :
    Goes tokens goals (expectName ts) := by
  rcases named_or_unnamed ts with ⟨word, place, rest, rfl⟩ | other
  · exact .ok (h.readPart rfl)
  · rw [expectName_unnamed other]
    exact .error (h.refuse (Terminal.refuse_unnamed .name nofun other))

/-- Any name. -/
theorem expectName_bind_goes {β : Type} {Q : List Token → Prop}
    {next : (String × Position) × Behind ts → Except Failure (β × { rest : List Token // Q rest })}
    (h : Stands tokens (.name :: goals) ts)
    (named : ∀ word place rest bound, Stands tokens goals rest →
      Goes tokens more (next ((word, place), ⟨rest, bound⟩))) :
    Goes tokens more (expectName ts >>= next) := by
  refine (expectName_goes h).bind ?_
  rintro ⟨word, place⟩ rest bound h₁
  exact named word place rest bound h₁

/-- An extra whose mark is next is begun. -/
theorem Stands.begin {extra : Extra} {mark : Punctuator} {place : Position}
    {bound : rest.length < ts.length} (h : Stands tokens (.optional extra :: goals) ts)
    (taken : takeMark? mark ts = some (place, ⟨rest, bound⟩))
    (opening : extra.opening = .punct mark) : Stands tokens (extra.behind ++ goals) rest :=
  h.take taken (if_pos opening.symm)

/-- An extra whose mark is not next is left out. -/
theorem Stands.leave {extra : Extra} {mark : Punctuator}
    (h : Stands tokens (.optional extra :: goals) ts) (absent : takeMark? mark ts = none)
    (opening : extra.opening = .punct mark) : Stands tokens goals ts :=
  h.pass (if_neg (by rw [opening]; exact ne_of_takeMark?_none absent))

theorem skipMark_stands {mark : Punctuator}
    (h : Stands tokens (.optional (.mark mark) :: goals) ts) :
    Stands tokens goals (skipMark mark ts).val := by
  unfold skipMark
  cases taken : takeMark? mark ts with
  | some found => exact h.begin taken rfl
  | none => exact h.leave taken rfl

theorem description_stands {t : Terminal} (h : Stands tokens (.need (.labelled t) :: goals) ts) :
    Stands tokens (.token t :: goals) (description ts).2.val := by
  unfold description
  split
  · exact h.readPart rfl
  · next other =>
    refine h.of_step ?_
    have same : (Goal.need (.labelled t)).move (next ts).kind =
        (Goal.token t).move (next ts).kind := by
      cases kind : (next ts).kind with
      | string text =>
        obtain ⟨place, rest, rfl⟩ := eq_cons_of_next kind nofun
        exact absurd rfl (other text place rest)
      | _ => rfl
    rw [step, step, same]

/-! ## Repetition -/

section

variable {α : Type}

/-- In front of another token than the closing one, an item is next. -/
theorem Stands.item {brackets : Brackets} {item : Item}
    (h : Stands tokens (.items brackets item :: goals) ts)
    (other : (next ts).kind ≠ .punct brackets.closing) :
    Stands tokens (item.goals ++ .items brackets item :: goals) ts := by
  refine h.of_step ?_
  rw [Item.goals, List.cons_append, step, step, Goal.move, Goal.move, if_neg other]
  cases item.first.behind (next ts).kind with
  | none => rfl
  | some more => simp only [List.append_assoc, List.singleton_append]

theorem itemsUntil_goes {brackets : Brackets} {kind : Item} {bound : Nat}
    {item : (ts : List Token) → ts.length ≤ bound → Parse α ts}
    (each : ∀ ts fits goals, Stands tokens (kind.goals ++ goals) ts →
      Goes tokens goals (item ts fits))
    (fits : ts.length ≤ bound) (h : Stands tokens (.items brackets kind :: goals) ts) :
    Goes tokens goals (itemsUntil brackets.closing bound item ts fits) := by
  fun_induction itemsUntil brackets.closing bound item ts fits with
  | case1 ts fits place behind taken => exact .ok (h.take taken (if_pos rfl))
  | case2 ts fits other ih =>
    refine (each ts fits _ (h.item (ne_of_takeMark?_none other))).bind fun first rest less h₁ => ?_
    refine (ih rest less h₁).bind fun more rest' less' h₂ => ?_
    exact .ok h₂

theorem optionalBlock_goes {brackets : Brackets} {kind : Item}
    {item : (ts : List Token) → Parse α ts}
    (each : ∀ ts goals, Stands tokens (kind.goals ++ goals) ts → Goes tokens goals (item ts))
    (h : Stands tokens (.optional (.block brackets kind) :: goals) ts) :
    Goes tokens goals (optionalBlock brackets.opening brackets.closing item ts) := by
  unfold optionalBlock
  split
  · next place rest less taken =>
    have inside := h.begin taken rfl
    refine (itemsUntil_goes (fun ts _ => each ts) _ inside).bind fun items rest' _ h₁ => ?_
    exact .ok h₁
  · next absent => exact .ok (h.leave absent rfl)

theorem barSeparated_goes {t : Terminal} {item : (ts : List Token) → Parse α ts}
    (each : ∀ ts goals, Stands tokens (.token t :: goals) ts → Goes tokens goals (item ts))
    (h : Stands tokens (.token t :: .optional (.bars t) :: goals) ts) :
    Goes tokens goals (barSeparated item ts) := by
  fun_induction barSeparated item ts with
  | case1 ts ih =>
    refine (each ts _ h).bind fun first rest less h₁ => ?_
    dsimp only
    split
    · next place rest' less' taken =>
      refine (ih rest less rest' less' (h₁.begin taken rfl)).bind
        fun more rest'' less'' h₂ => ?_
      exact .ok h₂
    · next absent => exact .ok (h₁.leave absent rfl)

end

/-! ## Type references and constants -/

theorem withBang_goes {ref : TypeRef} (less : rest.length < ts.length)
    (h : Stands tokens (.optional (.mark .bang) :: goals) rest) :
    Goes tokens goals (.ok (withBang ts ref ⟨rest, less⟩) : Parse TypeRef ts) := by
  unfold withBang
  split
  · next place rest' less' taken => exact .ok (h.begin taken rfl)
  · next absent => exact .ok (h.leave absent rfl)

theorem typeRef_goes (h : Stands tokens (.need .typeRef :: goals) ts) :
    Goes tokens goals (typeRef ts) := by
  fun_induction typeRef ts generalizing goals with
  | case1 ts place rest less taken ih =>
    refine (ih (h.take taken rfl)).bind fun inner rest₁ _ h₁ => ?_
    refine (expectMark_goes h₁).bind fun _ rest₂ _ h₂ => ?_
    exact withBang_goes _ h₂
  | case2 ts other =>
    have no_list := ne_of_takeMark?_none other
    refine namedToken_bind_goes h ?_ fun name place rest _ h₁ => withBang_goes _ (h₁.readPart rfl)
    intro unnamed
    cases kind : (next ts).kind with
    | name word => exact absurd kind (unnamed word)
    | punct mark =>
      cases mark with
      | bracketOpen => exact absurd kind no_list
      | _ => rfl
    | _ => rfl

theorem value_goes (ts : List Token) (goals : List Goal)
    (h : Stands tokens (.need .value :: goals) ts) : Goes tokens goals (value ts) := by
  rw [value.eq_def]
  split
  · exact .ok (h.readPart rfl)
  · exact .ok (h.readPart rfl)
  · exact .ok (h.readPart rfl)
  · exact .ok (h.readPart rfl)
  · next place rest =>
    have each (ts : List Token) (fits : ts.length ≤ rest.length) (goals : List Goal)
        (h : Stands tokens (Item.value.goals ++ goals) ts) : Goes tokens goals (value ts) :=
      value_goes ts goals h
    refine (itemsUntil_goes each _ (h.readPart rfl)).bind fun items rest' _ h₁ => ?_
    exact .ok h₁
  · next place rest =>
    have each (ts : List Token) (fits : ts.length ≤ rest.length) (goals : List Goal)
        (h : Stands tokens (Item.entry.goals ++ goals) ts) : Goes tokens goals (entry ts) := by
      refine expectName_bind_goes h fun name _ rest₁ h₁ h₁' => ?_
      refine (expectMark_goes h₁').bind fun _ rest₂ h₂ h₂' => ?_
      refine (value_goes rest₂ goals h₂').bind fun v rest₃ _ h₃ => ?_
      exact .ok h₃
    refine (itemsUntil_goes each _ (h.readPart rfl)).bind fun entries rest' _ h₁ => ?_
    exact .ok h₁
  · exact .error (h.refuse rfl)
  · next int float string name list object _ =>
    refine .error (h.refuse ?_)
    cases ts with
    | nil => rfl
    | cons t rest =>
      obtain ⟨kind, place⟩ := t
      cases kind with
      | int text => exact absurd rfl (int text place rest)
      | float text => exact absurd rfl (float text place rest)
      | string text => exact absurd rfl (string text place rest)
      | name text => exact absurd rfl (name text place rest)
      | punct mark =>
        cases mark with
        | bracketOpen => exact absurd rfl (list place rest)
        | braceOpen => exact absurd rfl (object place rest)
        | _ => rfl
      | _ => rfl
termination_by ts.length
decreasing_by all_goals subst_vars; simp only [List.length_cons]; omega

/-! ## Directives and arguments -/

theorem argument_goes (ts : List Token) (goals : List Goal)
    (h : Stands tokens (Item.entry.goals ++ goals) ts) : Goes tokens goals (argument ts) := by
  refine expectName_bind_goes h fun name _ rest₁ _ h₁ => ?_
  refine (expectMark_goes h₁).bind fun _ rest₂ _ h₂ => ?_
  refine (value_goes rest₂ goals h₂).bind fun v rest₃ _ h₃ => ?_
  exact .ok h₃

theorem directiveUses_goes (h : Stands tokens (.uses :: goals) ts) :
    Goes tokens goals (directiveUses ts) := by
  fun_induction directiveUses ts with
  | case1 ts place rest less taken ih =>
    refine expectName_bind_goes (h.begin taken rfl) fun name _ rest₁ h₁ h₁' => ?_
    refine (optionalBlock_goes argument_goes h₁').bind fun args rest₂ h₂ h₂' => ?_
    refine (ih rest₁ h₁ rest₂ h₂ h₂').bind fun more rest₃ _ h₃ => ?_
    exact .ok h₃
  | case2 ts other => exact .ok (h.leave other rfl)

theorem defaultValue_goes (h : Stands tokens (.optional .default :: goals) ts) :
    Goes tokens goals (defaultValue ts) := by
  unfold defaultValue
  split
  · next place rest less taken =>
    refine (value_goes rest goals (h.begin taken rfl)).bind fun v rest' _ h₁ => ?_
    exact .ok h₁
  · next absent => exact .ok (h.leave absent rfl)

theorem inputValue_goes (ts : List Token) (goals : List Goal)
    (h : Stands tokens (Item.inputValue.goals ++ goals) ts) :
    Goes tokens goals (inputValue ts) := by
  refine expectName_bind_goes (description_stands h) fun name _ rest₁ _ h₁ => ?_
  refine (expectMark_goes h₁).bind fun _ rest₂ _ h₂ => ?_
  refine (typeRef_goes h₂).bind fun ty rest₃ _ h₃ => ?_
  refine (defaultValue_goes h₃).bind fun default rest₄ _ h₄ => ?_
  refine (directiveUses_goes h₄).bind fun uses rest₅ _ h₅ => ?_
  exact .ok h₅

theorem field_goes (ts : List Token) (goals : List Goal)
    (h : Stands tokens (Item.field.goals ++ goals) ts) : Goes tokens goals (field ts) := by
  refine expectName_bind_goes (description_stands h) fun name _ rest₁ _ h₁ => ?_
  refine (optionalBlock_goes inputValue_goes h₁).bind fun args rest₂ _ h₂ => ?_
  refine (expectMark_goes h₂).bind fun _ rest₃ _ h₃ => ?_
  refine (typeRef_goes h₃).bind fun ty rest₄ _ h₄ => ?_
  refine (directiveUses_goes h₄).bind fun uses rest₅ _ h₅ => ?_
  exact .ok h₅

theorem enumValue_goes (ts : List Token) (goals : List Goal)
    (h : Stands tokens (Item.enumValue.goals ++ goals) ts) : Goes tokens goals (enumValue ts) := by
  refine namedToken_bind_goes (description_stands h) (Terminal.refuse_unnamed .enumName nofun)
    fun name place rest₁ _ h₁ => ?_
  dsimp only
  by_cases reserved : reservedEnumValues.contains name = true
  · rw [if_pos reserved]
    refine .error (h₁.refuse (token_refuse fun admitted => ?_))
    have free : (!reservedEnumValues.contains name) = true := admitted
    rw [reserved] at free
    cases free
  · rw [if_neg reserved]
    have admitted : Terminal.enumName.admits (.name name) = true := by
      rw [Bool.not_eq_true] at reserved
      exact congrArg (! ·) reserved
    refine (directiveUses_goes (h₁.read (token_read admitted) nofun)).bind fun uses rest₂ _ h₂ => ?_
    exact .ok h₂

/-! ## Bodies -/

theorem operationType_goes (ts : List Token) (goals : List Goal)
    (h : Stands tokens (Item.operation.goals ++ goals) ts) :
    Goes tokens goals (operationType ts) := by
  refine namedToken_bind_goes h (Terminal.refuse_unnamed .operation nofun)
    fun word place rest₁ _ h₁ => ?_
  dsimp only
  split
  -- the same steps follow every word
  iterate 3
    refine (expectMark_goes (h₁.readPart rfl)).bind fun _ rest₂ _ h₂ => ?_
    refine expectName_bind_goes h₂ fun typeName _ rest₃ _ h₃ => ?_
    exact .ok h₃
  · next query mutation subscription =>
    refine .error (h₁.refuse (token_refuse fun admitted => ?_))
    have known : word ∈ ["query", "mutation", "subscription"] := List.contains_iff_mem.mp admitted
    simp only [List.mem_cons, List.not_mem_nil, or_false] at known
    rcases known with same | same | same
    · exact query same
    · exact mutation same
    · exact subscription same

/-- The braces of a schema, and of an extension of one. -/
def operationsGoals : Bool → List Goal
  | false => [.mark .braceOpen, .items .curly .operation]
  | true => [.optional (.block .curly .operation)]

theorem operationTypes_goes (extension : Bool)
    (h : Stands tokens (operationsGoals extension ++ goals) ts) :
    Goes tokens goals (operationTypes extension ts) := by
  have inside (rest : List Token) (h : Stands tokens (.items .curly .operation :: goals) rest) :
      Goes tokens goals (itemsUntil .braceClose rest.length (fun ts _ => operationType ts) rest
        (Nat.le_refl _)) :=
    itemsUntil_goes (fun ts _ => operationType_goes ts) _ h
  unfold operationTypes
  cases extension with
  | false =>
    refine (expectMark_goes h).bind fun _ rest _ h₁ => ?_
    exact (inside rest h₁).bind fun operations rest₁ _ h₂ => .ok h₂
  | true =>
    unfold expectMark
    cases taken : takeMark? .braceOpen ts with
    | none => exact .ok (h.leave taken rfl)
    | some found => exact (inside _ (h.begin taken rfl)).bind fun operations rest₁ _ h₂ => .ok h₂

theorem unionMember_goes (ts : List Token) (goals : List Goal)
    (h : Stands tokens (.name :: goals) ts) : Goes tokens goals (unionMember ts) :=
  expectName_bind_goes h fun _ _ _ _ h₁ => .ok h₁

theorem unionMembers_goes (h : Stands tokens (.optional .members :: goals) ts) :
    Goes tokens goals (unionMembers ts) := by
  unfold unionMembers
  split
  · next place rest less taken =>
    refine (barSeparated_goes unionMember_goes (skipMark_stands (h.begin taken rfl))).bind
      fun members rest₁ _ h₁ => ?_
    exact .ok h₁
  · next absent => exact .ok (h.leave absent rfl)

theorem directiveLocation_goes (ts : List Token) (goals : List Goal)
    (h : Stands tokens (.token .location :: goals) ts) :
    Goes tokens goals (directiveLocation ts) := by
  refine namedToken_bind_goes h (Terminal.refuse_unnamed .location nofun)
    fun name place rest _ h₁ => ?_
  dsimp only
  by_cases known : directiveLocations.contains name = true
  · rw [if_pos known]
    exact .ok (h₁.read (token_read known) nofun)
  · rw [if_neg known]
    exact .error (h₁.refuse (token_refuse known))

theorem expectOn_goes (h : Stands tokens (.token .on :: goals) ts) :
    Goes tokens goals (expectKeyword "on" ts) := by
  unfold expectKeyword
  cases taken : takeKeyword? "on" ts with
  | some found => exact .ok (h.takeWord taken rfl)
  | none =>
    refine .error (h.refuse (token_refuse fun admitted => ne_of_takeKeyword?_none taken ?_))
    cases kind : (next ts).kind with
    | name word =>
      rw [kind] at admitted
      rw [of_decide_eq_true admitted]
    | _ =>
      rw [kind] at admitted
      cases admitted

theorem repeatable_stands (h : Stands tokens (.need .repeatableOn :: goals) ts) :
    Stands tokens (.token .on :: goals) (repeatable ts).2.val := by
  unfold repeatable
  cases taken : takeKeyword? "repeatable" ts with
  | some found => exact h.takeWord taken rfl
  | none =>
    have other := ne_of_takeKeyword?_none taken
    refine h.of_step ?_
    have same : (Goal.need .repeatableOn).move (next ts).kind =
        (Goal.token .on).move (next ts).kind := by
      cases kind : (next ts).kind with
      | name word =>
        have different : word ≠ "repeatable" := by
          rintro rfl
          exact other kind
        simp only [Goal.move, Part.behind, Terminal.admits, if_neg different, decide_eq_true_eq]
      | _ => rfl
    rw [step, step, same]

theorem schemaDef_goes {place : Position} (text : Option String) (extension : Bool)
    (h : Stands tokens (.uses :: (operationsGoals extension ++ goals)) rest) :
    Goes tokens goals (schemaDef text extension (⟨.name "schema", place⟩ :: rest)) := by
  refine (directiveUses_goes h).bind fun uses rest₂ _ h₂ => ?_
  refine (operationTypes_goes extension h₂).bind fun operations rest₃ _ h₃ => ?_
  exact .ok h₃

theorem directiveDef_goes {place : Position} (text : Option String)
    {body : List Goal} (begun : definitionGoals "directive" = some body)
    (h : Stands tokens (body ++ goals) rest) :
    Goes tokens goals (directiveDef text (⟨.name "directive", place⟩ :: rest)) := by
  cases begun
  refine (expectMark_goes h).bind fun _ rest₂ _ h₂ => ?_
  refine expectName_bind_goes h₂ fun name _ rest₃ _ h₃ => ?_
  refine (optionalBlock_goes inputValue_goes h₃).bind fun args rest₄ _ h₄ => ?_
  refine (expectOn_goes (repeatable_stands h₄)).bind fun _ rest₆ _ h₆ => ?_
  refine (barSeparated_goes directiveLocation_goes (skipMark_stands h₆)).bind
    fun locations rest₈ _ h₈ => ?_
  exact .ok h₈

/-! ## Interfaces -/

/-- A bare name and a colon are next, and the name would be one more interface. -/
def Stalls (tokens rest : List Token) : Prop :=
  ∃ word place behind bare goals, rest = ⟨.name word, place⟩ :: behind ∧
    word ∉ definitionKeywords ∧ (next behind).kind = .punct .colon ∧
    Stands tokens (.interfaces bare :: goals) rest

section

variable {α β : Type} {Q Q' : List Token → Prop} {goals' : List Goal}

/-- The production goes on as it should, or it ends in front of a name that it takes for no
interface. -/
inductive Proceeds (tokens : List Token) (goals : List Goal) :
    Except Failure (α × { rest : List Token // Q rest }) → Prop where
  | goes {outcome : Except Failure (α × { rest : List Token // Q rest })}
      (h : Goes tokens goals outcome) : Proceeds tokens goals outcome
  | stalls {a : α} {rest : List Token} {bound : Q rest} (h : Stalls tokens rest) :
      Proceeds tokens goals (.ok (a, ⟨rest, bound⟩))

theorem Goes.bind_proceeds {first : Except Failure (α × { rest : List Token // Q rest })}
    {next : α × { rest : List Token // Q rest } →
      Except Failure (β × { rest : List Token // Q' rest })}
    (h : Goes tokens goals first)
    (h' : ∀ a rest bound, Stands tokens goals rest →
      Proceeds tokens goals' (next (a, ⟨rest, bound⟩))) :
    Proceeds tokens goals' (first >>= next) := by
  cases h with
  | ok h => exact h' _ _ _ h
  | error h => exact .goes (.error h)

/-- What follows a list of interfaces may be left out, and reads nothing in front of a name. -/
theorem Proceeds.bind {first : Except Failure (α × { rest : List Token // Q rest })}
    {next : α × { rest : List Token // Q rest } →
      Except Failure (β × { rest : List Token // Q' rest })}
    (h : Proceeds tokens goals first)
    (goes : ∀ a rest bound, Stands tokens goals rest →
      Proceeds tokens goals' (next (a, ⟨rest, bound⟩)))
    (stays : ∀ a rest bound, (∃ word place behind, rest = ⟨.name word, place⟩ :: behind) →
      ∃ b bound', next (a, ⟨rest, bound⟩) = .ok (b, ⟨rest, bound'⟩)) :
    Proceeds tokens goals' (first >>= next) := by
  cases h with
  | goes h =>
    cases h with
    | ok h => exact goes _ _ _ h
    | error h => exact .goes (.error h)
  | @stalls a rest bound h =>
    obtain ⟨word, place, behind, bare, goals, shape, free, colon, stands⟩ := h
    obtain ⟨b, bound', same⟩ := stays a rest bound ⟨word, place, behind, shape⟩
    have outcome : (Except.ok (a, ⟨rest, bound⟩) >>= next) = .ok (b, ⟨rest, bound'⟩) := same
    rw [outcome]
    exact .stalls ⟨word, place, behind, bare, goals, shape, free, colon, stands⟩

/-- The same end for another result. -/
theorem Proceeds.map {outcome : Except Failure (α × { rest : List Token // Q rest })}
    {next : α × { rest : List Token // Q rest } →
      Except Failure (β × { rest : List Token // Q' rest })}
    (h : Proceeds tokens goals outcome)
    (same : ∀ a rest bound, ∃ b bound', next (a, ⟨rest, bound⟩) = .ok (b, ⟨rest, bound'⟩)) :
    Proceeds tokens goals (outcome >>= next) := by
  refine h.bind (fun a rest bound h₁ => ?_) fun a rest bound _ => same a rest bound
  obtain ⟨b, bound', shape⟩ := same a rest bound
  rw [shape]
  exact .goes (.ok h₁)

end

/-- Behind a bare name no colon is next, for the name would not have been read. -/
theorem moreInterfaces_proceeds {bare : Bool} (h : Stands tokens (.interfaces bare :: goals) ts)
    (no_colon : bare = true → (next ts).kind ≠ .punct .colon) :
    Proceeds tokens goals (moreInterfaces ts) := by
  fun_induction moreInterfaces ts generalizing bare with
  | case1 place rest ih =>
    refine (expectName_goes (h.read rfl (by simp))).bind_proceeds ?_
    rintro ⟨name, place⟩ rest₁ less h₁
    refine (ih rest₁ less h₁ fun bare => absurd bare Bool.false_ne_true).map fun more rest₂ _ => ?_
    exact ⟨_, _, rfl⟩
  | case2 name place rest ends =>
    rw [Bool.or_eq_true, beq_iff_eq] at ends
    by_cases keyword : definitionKeywords.contains name = true
    · exact .goes (.ok (h.pass (if_pos keyword)))
    · have free : name ∉ definitionKeywords :=
        fun member => keyword (List.contains_iff_mem.mpr member)
      exact .stalls ⟨name, place, rest, bare, goals, rfl, free, ends.resolve_left keyword, h⟩
  | case3 name place rest goes_on ih =>
    rw [Bool.or_eq_true, beq_iff_eq, not_or] at goes_on
    have read : (Goal.interfaces bare).move (.name name) = .read [.interfaces true] :=
      if_neg goes_on.1
    exact (ih (h.read read (by simp)) fun _ => goes_on.2).map fun more rest₁ _ => ⟨_, _, rfl⟩
  | case4 ts ampersand name =>
    refine .goes (.ok (h.pass ?_))
    cases ts with
    | nil => rfl
    | cons t rest =>
      obtain ⟨kind, place⟩ := t
      cases kind with
      | name word => exact absurd rfl (name word place rest)
      | punct mark =>
        cases mark with
        | ampersand => exact absurd rfl (ampersand place rest)
        | colon =>
          cases bare with
          | false => rfl
          | true => exact absurd rfl (no_colon rfl)
        | _ => rfl
      | _ => rfl

theorem implements_proceeds (h : Stands tokens (.optional .implements :: goals) ts) :
    Proceeds tokens goals (implements ts) := by
  unfold implements
  cases taken : takeKeyword? "implements" ts with
  | none => exact .goes (.ok (h.pass (if_neg (ne_of_takeKeyword?_none taken))))
  | some found =>
    obtain ⟨place, rest, bound⟩ := found
    refine (expectName_goes (skipMark_stands (h.takeWord taken rfl))).bind_proceeds ?_
    rintro ⟨name, place⟩ rest₁ less h₁
    exact (moreInterfaces_proceeds h₁ nofun).map fun more rest₂ _ => ⟨_, _, rfl⟩

/-! ## Definitions -/

theorem directiveUses_name (word : String) (place : Position) (behind : List Token) :
    directiveUses (⟨.name word, place⟩ :: behind) =
      .ok ([], ⟨⟨.name word, place⟩ :: behind, Nat.le_refl _⟩) := by
  rw [directiveUses.eq_def]
  rfl

theorem typeBody_proceeds (keyword : String) (place : Position) {body : List Goal}
    (known : bodyGoals keyword = some body) (h : Stands tokens (body ++ goals) ts) :
    Proceeds tokens goals (typeBody keyword place ts) := by
  unfold typeBody
  split
  · cases known
    exact .goes ((directiveUses_goes h).bind fun uses rest _ h₁ => .ok h₁)
  -- objects and interfaces differ in the word alone
  iterate 2
    cases known
    refine (implements_proceeds h).bind (fun interfaces rest₁ _ h₁ => .goes ?_) ?_
    · refine (directiveUses_goes h₁).bind fun uses rest₂ _ h₂ => ?_
      refine (optionalBlock_goes field_goes h₂).bind fun fields rest₃ _ h₃ => ?_
      exact .ok h₃
    · rintro interfaces _ bound ⟨word, place, behind, rfl⟩
      dsimp only
      rw [directiveUses_name]
      exact ⟨_, _, rfl⟩
  · cases known
    refine .goes ((directiveUses_goes h).bind fun uses rest₁ _ h₁ => ?_)
    exact (unionMembers_goes h₁).bind fun members rest₂ _ h₂ => .ok h₂
  · cases known
    refine .goes ((directiveUses_goes h).bind fun uses rest₁ _ h₁ => ?_)
    exact (optionalBlock_goes enumValue_goes h₁).bind fun values rest₂ _ h₂ => .ok h₂
  · cases known
    refine .goes ((directiveUses_goes h).bind fun uses rest₁ _ h₁ => ?_)
    exact (optionalBlock_goes inputValue_goes h₁).bind fun fields rest₂ _ h₂ => .ok h₂
  · next scalar type interface union enum input =>
    rw [bodyGoals] at known
    · cases known
    all_goals assumption

theorem typeDef_proceeds {keyword : String} {place : Position} (text : Option String)
    {body : List Goal} (known : bodyGoals keyword = some body)
    (h : Stands tokens (.name :: (body ++ goals)) rest) :
    Proceeds tokens goals (typeDef text (⟨.name keyword, place⟩ :: rest)) := by
  refine (expectName_goes h).bind_proceeds ?_
  rintro ⟨name, _⟩ rest₂ _ h₂
  exact (typeBody_proceeds keyword place known h₂).map fun body rest₃ _ => ⟨_, _, rfl⟩

theorem extension_proceeds {word : String} {place : Position} {body : List Goal}
    (known : extensionGoals word = some body) (h : Stands tokens (body ++ goals) rest) :
    Proceeds tokens goals (extension (⟨.name word, place⟩ :: rest)) := by
  by_cases schema : word = "schema"
  · subst schema
    cases known
    exact .goes ((schemaDef_goes none true h).bind fun schema rest₁ _ h₁ => .ok h₁)
  · rw [extensionGoals, if_neg schema, Option.map_eq_some_iff] at known
    obtain ⟨body, known, rfl⟩ := known
    have absent : takeKeyword? "schema" (⟨.name word, place⟩ :: rest) = none := if_neg schema
    rw [extension, absent]
    exact (typeDef_proceeds none known h).map fun type rest₁ _ => ⟨_, _, rfl⟩

/-- Behind the word `extend` a name is next that says nothing to extend, and no other name behind
it: the fault is found at what stands where the other name should. -/
def Misnames (tokens : List Token) : Prop :=
  ∃ place word place' behind, extensionGoals word = none ∧
    (∀ name, (next behind).kind ≠ .name name) ∧
    Stands tokens [.definitions] (⟨.name "extend", place⟩ :: ⟨.name word, place'⟩ :: behind)

theorem typeBody_unknown {keyword : String} (unknown : bodyGoals keyword = none)
    (place : Position) (ts : List Token) :
    typeBody keyword place ts = .error (place, .notTypeKeyword keyword) := by
  unfold typeBody
  split
  case h_7 => rfl
  all_goals cases unknown

theorem extension_unknown {word : String} (unknown : extensionGoals word = none) (place : Position)
    (ts : List Token) :
    (∀ name place' behind, ts = ⟨.name name, place'⟩ :: behind →
      extension (⟨.name word, place⟩ :: ts) = .error (place, .notTypeKeyword word)) ∧
    ((∀ name, (next ts).kind ≠ .name name) →
      extension (⟨.name word, place⟩ :: ts) = unexpected .name ts) := by
  have schema : word ≠ "schema" := by
    rintro rfl
    cases unknown
  have absent : takeKeyword? "schema" (⟨.name word, place⟩ :: ts) = none := if_neg schema
  rw [extensionGoals, if_neg schema, Option.map_eq_none_iff] at unknown
  constructor
  · rintro name place' behind rfl
    simp only [extension, absent, typeDef, expectName_name, bind, Except.bind,
      typeBody_unknown unknown]
  · intro unnamed
    simp only [extension, absent, typeDef, expectName_name, expectName_unnamed unnamed, bind,
      Except.bind, unexpected]

theorem extension_unnamed (unnamed : ∀ word, (next rest).kind ≠ .name word) :
    extension rest = unexpected .name rest := by
  unfold extension
  cases taken : takeKeyword? "schema" rest with
  | some found =>
    rw [eq_cons_of_takeKeyword? taken] at unnamed
    exact absurd rfl (unnamed "schema")
  | none => simp only [typeDef, expectName_unnamed unnamed, unexpected, bind, Except.bind]

theorem extension_cases {place : Position}
    (h : Stands tokens [.definitions] (⟨.name "extend", place⟩ :: rest)) :
    Proceeds tokens [.definitions] (extension rest) ∨
      Misnames tokens ∧ ∃ failure, extension rest = .error failure := by
  have inside : Stands tokens [.need .extension, .definitions] rest := h.read rfl nofun
  rcases named_or_unnamed rest with ⟨word, place', behind, rfl⟩ | unnamed
  · cases known : extensionGoals word with
    | some body =>
      have read : (Goal.need .extension).move (.name word) = .read body := by
        rw [Goal.move, Part.behind, known]
      exact .inl (extension_proceeds known (inside.read read nofun))
    | none =>
      have refuse : (Goal.need .extension).move (.name word) = .refuse .here := by
        rw [Goal.move, Part.behind, known]
      obtain ⟨named, unnamed⟩ := extension_unknown known place' behind
      rcases named_or_unnamed behind with ⟨name, place'', others, shape⟩ | none_behind
      · rw [named name place'' others shape]
        exact .inl (.goes (.error (inside.refuse refuse)))
      · exact .inr ⟨⟨place, word, place', behind, known, none_behind, h⟩, _, unnamed none_behind⟩
  · have refuse : (Goal.need .extension).move (next rest).kind = .refuse .here := by
      cases kind : (next rest).kind with
      | name word => exact absurd kind (unnamed word)
      | _ => rfl
    rw [extension_unnamed unnamed]
    exact .inl (.goes (.error (inside.refuse refuse)))

/-- What is left to read behind a description, or where there is none. -/
def definitionLeft (text : Option String) : List Goal :=
  if text.isSome then [.need .described, .definitions] else [.definitions]

theorem description_left (h : Stands tokens [.definitions] ts) :
    Stands tokens (definitionLeft (description ts).1) (description ts).2.val := by
  unfold description
  split
  · exact h.read rfl nofun
  · exact h

theorem eq_of_description_none {bound : rest.length ≤ ts.length}
    (none : description ts = (none, ⟨rest, bound⟩)) :
    rest = ts ∧ ∀ text, (next ts).kind ≠ .string text := by
  unfold description at none
  split at none
  · cases none
  · next other =>
    cases none
    refine ⟨rfl, fun text same => ?_⟩
    obtain ⟨place, rest, rfl⟩ := eq_cons_of_next same nofun
    exact other text place rest rfl

/-- A definition begins with one of the keywords. -/
theorem Stands.unbegun {text : Option String}
    (h : Stands tokens (definitionLeft text) rest)
    (no_keyword : ∀ word, (next rest).kind = .name word → word ∉ definitionKeywords)
    (bare : text = none → (next rest).kind ≠ .eof ∧ ∀ text, (next rest).kind ≠ .string text) :
    Blames tokens (next rest).position := by
  cases text with
  | some text =>
    refine h.refuse ?_
    cases kind : (next rest).kind with
    | name word => rw [Goal.move, Part.behind, definitionGoals_eq_none (no_keyword word kind)]
    | _ => rfl
  | none =>
    obtain ⟨inside, no_string⟩ := bare rfl
    refine h.refuse ?_
    cases kind : (next rest).kind with
    | name word =>
      have free := no_keyword word kind
      rw [Goal.move, definitionsMove, if_neg, definitionGoals_eq_none free]
      rintro rfl
      exact free (by decide)
    | string text => exact absurd kind (no_string text)
    | eof => exact absurd kind inside
    | _ => rfl

theorem Stands.begun {text : Option String} {word : String} {place : Position} {body : List Goal}
    (h : Stands tokens (definitionLeft text) (⟨.name word, place⟩ :: rest))
    (known : definitionGoals word = some body) : Stands tokens (body ++ [.definitions]) rest := by
  cases text with
  | none =>
    have read : Goal.definitions.move (.name word) = .read (body ++ [.definitions]) := by
      rw [Goal.move, definitionsMove, if_neg, known]
      rintro rfl
      cases known
    have behind := h.read read nofun
    rwa [List.append_nil] at behind
  | some text =>
    have read : (Goal.need .described).move (.name word) = .read body := by
      rw [Goal.move, Part.behind, known]
    exact h.read read nofun

theorem definition_proceeds (h : Stands tokens [.definitions] ts) (unfinished : ¬ atEnd ts = true) :
    Proceeds tokens [.definitions] (definition ts) ∨
      Misnames tokens ∧ ∃ failure, definition ts = .error failure := by
  have left := description_left h
  unfold definition
  cases described : description ts with
  | mk text found =>
    obtain ⟨rest, bound⟩ := found
    rw [described] at left
    dsimp only at left ⊢
    split
    · next kind =>
      obtain ⟨place, behind, rfl⟩ := eq_cons_of_next kind nofun
      exact .inl (.goes ((schemaDef_goes text false (left.begun rfl)).bind
        fun schema rest₁ _ h₁ => .ok h₁))
    iterate 6
      next kind =>
      obtain ⟨place, behind, rfl⟩ := eq_cons_of_next kind nofun
      exact .inl ((typeDef_proceeds text rfl (left.begun rfl)).map fun type rest₁ _ => ⟨_, _, rfl⟩)
    · next kind =>
      obtain ⟨place, behind, rfl⟩ := eq_cons_of_next kind nofun
      exact .inl (.goes ((directiveDef_goes text rfl (left.begun rfl)).bind
        fun directive rest₁ _ h₁ => .ok h₁))
    · next kind =>
      obtain ⟨place, behind, rfl⟩ := eq_cons_of_next kind nofun
      cases text with
      | some text => exact .inl (.goes (.error (left.refuse rfl)))
      | none =>
        refine (extension_cases left).imp (fun proceeds => ?_) fun ⟨misnamed, failure, failed⟩ => ?_
        · exact proceeds.map fun definition rest₁ _ => ⟨_, _, rfl⟩
        · refine ⟨misnamed, failure, ?_⟩
          simp only [expectKeyword, takeKeyword?, if_true, failed, bind, Except.bind,
            Option.isSome_none, Bool.false_eq_true, if_false]
    · next schema scalar type interface union enum input directive extend =>
      refine .inl (.goes (.error (left.unbegun ?_ ?_)))
      · intro word same known
        simp only [definitionKeywords, List.mem_cons, List.not_mem_nil, or_false] at known
        rcases known with rfl | rfl | rfl | rfl | rfl | rfl | rfl | rfl | rfl
        · exact schema same
        · exact scalar same
        · exact type same
        · exact interface same
        · exact union same
        · exact enum same
        · exact input same
        · exact directive same
        · exact extend same
      · rintro rfl
        obtain ⟨rfl, no_string⟩ := eq_of_description_none described
        exact ⟨fun ends => unfinished (decide_eq_true ends), no_string⟩

/-- Where a name that begins no definition is next, the fault is there. -/
theorem definitions_free {word : String} (free : word ∉ definitionKeywords) (place : Position)
    (behind : List Token) :
    definitions (⟨.name word, place⟩ :: behind) =
      .error (place, .unexpected .definition (.name word)) := by
  have other : definition (⟨.name word, place⟩ :: behind) =
      .error (place, .unexpected .definition (.name word)) := by
    have bare : description (⟨.name word, place⟩ :: behind) =
      (none, ⟨⟨.name word, place⟩ :: behind, Nat.le_refl _⟩) := rfl
    rw [definition, bare]
    dsimp only [next]
    split
    case h_10 => rfl
    all_goals
      next same =>
      cases same
      exact absurd (by decide) free
  rw [definitions, if_neg (by simp [atEnd, next]), other]
  rfl

/-- Behind a definition there are definitions again, or a name that is taken for no interface. -/
theorem definition_ok {found : Definition × Behind ts} (h : Stands tokens [.definitions] ts)
    (unfinished : ¬ atEnd ts = true) (read : definition ts = .ok found) :
    Stands tokens [.definitions] found.2.val ∨ Stalls tokens found.2.val := by
  rcases definition_proceeds h unfinished with proceeds | ⟨-, failure, failed⟩
  · rw [read] at proceeds
    cases proceeds with
    | goes h =>
      cases h with
      | ok h => exact .inl h
    | stalls h => exact .inr h
  · rw [read] at failed
    cases failed

theorem Stalls.definitions_eq (h : Stalls tokens rest) :
    ∃ fault, definitions rest = .error ((next rest).position, fault) := by
  obtain ⟨word, place, behind, bare, goals, rfl, free, -, -⟩ := h
  exact ⟨_, definitions_free free place behind⟩

/-- A fault is found at the first token that is refused, or at a name in front of a colon that is
taken for no interface, or behind the word that should say what is extended. -/
theorem definitions_error {place : Position} {fault : SyntaxFault}
    (h : Stands tokens [.definitions] ts) (failed : definitions ts = .error (place, fault)) :
    Blames tokens place ∨ (∃ rest, Stalls tokens rest ∧ place = (next rest).position) ∨
      Misnames tokens := by
  induction ts using definitions.induct with
  | case1 ts finished =>
    rw [definitions, if_pos finished] at failed
    cases failed
  | case2 ts unfinished ih =>
    rw [definitions, if_neg unfinished] at failed
    cases first : definition ts with
    | error failure =>
      rw [first] at failed
      cases failed
      rcases definition_proceeds h unfinished with proceeds | ⟨misnamed, -⟩
      · rw [first] at proceeds
        cases proceeds with
        | goes h =>
          cases h with
          | error h => exact .inl h
      · exact .inr (.inr misnamed)
    | ok found =>
      obtain ⟨head, rest, less⟩ := found
      have behind : definitions rest = .error (place, fault) := by
        cases more : definitions rest with
        | ok tail =>
          simp only [first, more, bind, Except.bind] at failed
          cases failed
        | error failure =>
          simp only [first, more, bind, Except.bind] at failed
          exact failed
      rcases definition_ok h unfinished first with stands | stalls
      · exact ih rest less stands behind
      · obtain ⟨fault', same⟩ := stalls.definitions_eq
        rw [same] at behind
        cases behind
        exact .inr (.inl ⟨rest, stalls, rfl⟩)

/-- What is read ends in front of the end. -/
theorem definitions_ok {found : List Definition} (h : Stands tokens [.definitions] ts)
    (read : definitions ts = .ok found) :
    ∃ rest, Stands tokens [.definitions] rest ∧ (next rest).kind = .eof := by
  induction ts using definitions.induct generalizing found with
  | case1 ts finished => exact ⟨ts, h, of_decide_eq_true finished⟩
  | case2 ts unfinished ih =>
    obtain ⟨first, rest, less, more, first_read, more_read, -⟩ := definitions_eq_ok unfinished read
    rcases definition_ok h unfinished first_read with stands | stalls
    · exact ih rest less stands more_read
    · obtain ⟨fault, failed⟩ := stalls.definitions_eq
      rw [failed] at more_read
      cases more_read

end SchemaCompiler.Grammar
