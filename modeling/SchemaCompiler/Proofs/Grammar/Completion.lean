import SchemaCompiler.Proofs.Grammar.Goals

/-!
Meeting what is still to be read.

A stack of goals that a run leads to is `Proper`: below each goal stands something that begins with
a token the goal leaves alone. So every such stack can be met to the end, by the tokens that
`complete` names, and what was read is the front of something that can be read.
-/

namespace SchemaCompiler.Grammar

/-! ## Samples -/

def Terminal.sample : Terminal → TokenKind
  | mark m => .punct m
  | name | enumName => .name "a"
  | operation => .name "query"
  | location => .name "QUERY"
  | on => .name "on"

def Part.sample : Part → List TokenKind
  | token t | labelled t => [t.sample]
  | typeRef | value => [.name "a"]
  | repeatableOn => [.name "on"]
  | described | extension => [.name "scalar", .name "a"]

/-- Tokens that meet the goal; none if it may be passed. -/
def Goal.sample : Goal → List TokenKind
  | need part => part.sample
  | optional _ | interfaces _ => []
  | items brackets _ => [.punct brackets.closing]
  | definitions => [.eof]

/-- Tokens that meet the goals. -/
def complete (goals : List Goal) : List TokenKind := goals.flatMap Goal.sample

/-- The first of the tokens that meet the goals. -/
def lead (goals : List Goal) : TokenKind := (complete goals).headD .eof

def Extra.allows : Extra → TokenKind → Bool
  | members, kind => kind != .punct .equals && kind != .punct .pipe
  | uses, kind => kind != .punct .atSign && kind != .punct .parenOpen
  | implements, kind => kind == .eof
  | extra, kind => kind != extra.opening

/-- Whether what stands below the goal may begin with a token of the kind. Where a whole definition
may end, nothing but the end of the document has to follow. -/
def Goal.allows : Goal → TokenKind → Bool
  | need .typeRef, kind => kind != .punct .bang
  | need .described, kind | need .extension, kind | interfaces _, kind => kind == .eof
  | need _, _ | items .., _ => true
  | optional extra, kind => extra.allows kind
  | definitions, _ => false

/-- What one token alone leads to: the goal is on top directly behind it, or not there. -/
def Goal.entered : Goal → Bool
  | interfaces bare => bare
  | need .extension => true
  | _ => false

/-- Goals that stand in each other's way nowhere. -/
inductive Proper : List Goal → Prop where
  | bottom : Proper [.definitions]
  | goal {goal : Goal} {goals : List Goal} (allowed : goal.allows (lead goals) = true)
      (later : goals.all (!·.entered) = true) (below : Proper goals) : Proper (goal :: goals)

/-- Goals that stand in each other's way nowhere, with others below them that begin with a token of
the kind. -/
def chained : List Goal → TokenKind → Bool
  | [], _ => true
  | goal :: goals, kind =>
    goal.allows ((complete goals).headD kind) && !goal.entered && chained goals kind

section

variable {goal : Goal} {goals front : List Goal} {kind below : TokenKind} {word : String}

theorem headD_complete_append (front goals : List Goal) (kind : TokenKind) :
    (complete (front ++ goals)).headD kind =
      (complete front).headD ((complete goals).headD kind) := by
  rw [complete, complete, complete, List.flatMap_append]
  cases front.flatMap Goal.sample <;> rfl

theorem all_of_chained (inner : chained front below = true) :
    front.all (!·.entered) = true := by
  induction front with
  | nil => rfl
  | cons goal front ih =>
    simp only [chained, Bool.and_eq_true] at inner
    rw [List.all_cons, inner.1.2, ih inner.2, Bool.and_self]

theorem chained_append (front goals : List Goal) (kind : TokenKind) :
    chained (front ++ goals) kind =
      (chained front ((complete goals).headD kind) && chained goals kind) := by
  induction front with
  | nil => rfl
  | cons goal front ih =>
    simp only [List.cons_append, chained, ih, headD_complete_append, Bool.and_assoc]

theorem Proper.append (proper : Proper goals) (later : goals.all (!·.entered) = true)
    (inner : chained front (lead goals) = true) : Proper (front ++ goals) := by
  induction front with
  | nil => exact proper
  | cons goal front ih =>
    simp only [chained, Bool.and_eq_true] at inner
    obtain ⟨⟨allowed, -⟩, behind⟩ := inner
    rw [List.cons_append]
    refine .goal ?_ ?_ (ih behind)
    · rwa [lead, headD_complete_append]
    · rw [List.all_append, all_of_chained behind, later, Bool.and_self]

/-! ### What is left by a step -/

theorem bodyGoals_chained (body : bodyGoals word = some goals) :
    chained (.name :: goals) .eof = true := by
  unfold bodyGoals at body
  split at body <;> cases body <;> rfl

theorem definitionGoals_chained (begun : definitionGoals word = some goals) :
    chained goals .eof = true := by
  unfold definitionGoals at begun
  split at begun
  · cases begun
    rfl
  split at begun
  · cases begun
    rfl
  · obtain ⟨body, same, rfl⟩ := Option.map_eq_some_iff.mp begun
    exact bodyGoals_chained same

theorem extensionGoals_chained (begun : extensionGoals word = some goals) :
    chained goals .eof = true := by
  unfold extensionGoals at begun
  split at begun
  · cases begun
    rfl
  · obtain ⟨body, same, rfl⟩ := Option.map_eq_some_iff.mp begun
    exact bodyGoals_chained same

theorem Part.behind_chained {part : Part} (begun : part.behind kind = some goals)
    (allowed : (Goal.need part).allows below = true) : chained goals below = true := by
  unfold Part.behind at begun
  split at begun
  case h_13 =>
    obtain rfl := eq_of_beq allowed
    exact definitionGoals_chained begun
  case h_14 =>
    obtain rfl := eq_of_beq allowed
    exact extensionGoals_chained begun
  case h_4 | h_5 =>
    cases begun
    simpa [chained, complete, Goal.sample, Part.sample, Terminal.sample, Goal.allows, Extra.allows,
      Extra.opening, Goal.entered] using allowed
  all_goals
    repeat' split at begun
    all_goals cases begun
    all_goals rfl

theorem Extra.behind_chained {extra : Extra} (allowed : extra.allows below = true) :
    chained extra.behind below = true := by
  cases extra with
  | mark | default | block => rfl
  | members | uses | bars | implements =>
    simp only [Extra.allows, Extra.opening, Bool.and_eq_true, bne_iff_ne, beq_iff_eq] at allowed
    simp [chained, complete, Extra.behind, Goal.sample, Part.sample, Terminal.sample, Goal.allows,
      Extra.allows, Extra.opening, Brackets.opening, Goal.entered, allowed]

theorem items_chained (brackets : Brackets) (item : Item) (below : TokenKind) :
    chained (item.others ++ [.items brackets item]) below = true := by
  cases item <;> cases brackets <;> rfl

theorem Item.first_behind_chained {item : Item} (begun : item.first.behind kind = some goals)
    (below : TokenKind) : chained goals below = true := by
  refine Part.behind_chained begun ?_
  cases item <;> rfl

theorem interfacesMove_read {bare : Bool} {more : List Goal}
    (read : interfacesMove bare kind = .read more) :
    more = [.name, .interfaces false] ∨ more = [.interfaces true] := by
  unfold interfacesMove at read
  split at read
  · cases read
    exact .inl rfl
  · split at read <;> cases read
  · split at read <;> cases read
    exact .inr rfl
  · cases read

/-- A goal that reads leaves goals that go together with what may stand below it. A bare interface
name is told apart, for it leaves what it alone leads to. -/
theorem Goal.move_chained {more : List Goal} (read : goal.move kind = .read more)
    (allowed : goal.allows below = true) :
    chained more below = true ∨ ∃ bare, goal = interfaces bare ∧ more = [interfaces true] := by
  cases goal with
  | need part =>
    simp only [move] at read
    split at read
    · next begun =>
      cases read
      exact .inl (Part.behind_chained begun allowed)
    · cases read
  | optional extra =>
    simp only [move] at read
    split at read
    · cases read
      exact .inl (Extra.behind_chained allowed)
    · cases read
  | items brackets item =>
    simp only [move] at read
    split at read
    · cases read
      exact .inl rfl
    split at read
    · next begun =>
      cases read
      rw [chained_append, Item.first_behind_chained begun, items_chained]
      exact .inl rfl
    · cases read
  | interfaces bare =>
    obtain rfl := eq_of_beq allowed
    rcases interfacesMove_read read with rfl | rfl
    · exact .inl rfl
    · exact .inr ⟨bare, rfl, rfl⟩
  | definitions => cases allowed

theorem definitionsMove_read {more : List Goal} (read : definitionsMove kind = .read more)
    (inside : kind ≠ .eof) : Proper more := by
  unfold definitionsMove at read
  split at read
  · exact absurd rfl inside
  · cases read
    exact .goal rfl rfl .bottom
  · split at read
    · cases read
      exact .goal rfl rfl .bottom
    split at read
    · next begun =>
      cases read
      exact Proper.bottom.append rfl (definitionGoals_chained begun)
    · cases read
  · cases read

/-- A step keeps goals in order, as long as it does not read the end. -/
theorem step_proper {reached : List Goal} (proper : Proper goals) (inside : kind ≠ .eof)
    (read : step goals kind = .ok reached) : Proper reached := by
  induction proper with
  | bottom =>
    rw [step] at read
    split at read
    · next more moved =>
      cases read
      rw [List.append_nil]
      exact definitionsMove_read moved inside
    · cases read
    · cases read
  | @goal top goals allowed later below ih =>
    rw [step] at read
    split at read
    · next more moved =>
      cases read
      rcases Goal.move_chained moved allowed with inner | ⟨bare, rfl, rfl⟩
      · exact below.append later inner
      · exact .goal allowed later below
    · exact ih read
    · cases read

theorem reach_proper {kinds : List TokenKind} {reached : List Goal} (proper : Proper goals)
    (inside : ∀ kind ∈ kinds, kind ≠ .eof) (read : reach goals kinds = .ok reached) :
    Proper reached := by
  induction kinds generalizing goals with
  | nil =>
    cases read
    exact proper
  | cons kind kinds ih =>
    rw [List.forall_mem_cons] at inside
    rw [reach_cons] at read
    cases first : step goals kind with
    | error blame =>
      rw [first] at read
      cases read
    | ok behind =>
      rw [first] at read
      exact ih (step_proper proper inside.1 first) inside.2 read

/-! ### Meeting what is left -/

theorem Proper.complete_eq (proper : Proper goals) :
    ∃ kinds, complete goals = lead goals :: kinds := by
  induction proper with
  | bottom => exact ⟨[], rfl⟩
  | @goal top goals allowed later below ih =>
    obtain ⟨kinds, shape⟩ := ih
    cases first : top.sample with
    | nil =>
      have same : complete (top :: goals) = complete goals := by
        rw [complete, List.flatMap_cons, first]
        rfl
      exact ⟨kinds, by rw [lead, same]; exact shape⟩
    | cons kind others =>
      refine ⟨others ++ complete goals, ?_⟩
      rw [lead, complete, List.flatMap_cons, first]
      rfl

/-- Nothing but the end follows where the end may follow. -/
theorem Proper.complete_of_lead (proper : Proper goals) (ends : lead goals = .eof) :
    complete goals = [.eof] := by
  induction proper with
  | bottom => rfl
  | @goal top goals allowed later below ih =>
    cases top with
    | need part =>
      cases part with
      | token t | labelled t => cases t <;> cases ends
      | _ => cases ends
    | optional extra => exact ih ends
    | items brackets item => cases ends
    | interfaces bare => exact ih ends
    | definitions => cases allowed

/-- A document may end behind interface names. -/
theorem Proper.complete_interfaces {bare : Bool} (proper : Proper (.interfaces bare :: goals)) :
    complete (.interfaces bare :: goals) = [.eof] := by
  cases proper with
  | goal allowed later below => exact below.complete_of_lead (eq_of_beq allowed)

theorem reach_pass (proper : Proper goals) (pass : goal.move (lead goals) = .pass) :
    reach (goal :: goals) (complete goals) = reach goals (complete goals) := by
  obtain ⟨kinds, shape⟩ := proper.complete_eq
  rw [shape, reach_cons, reach_cons, step_pass pass]

theorem reach_read {more : List Goal} (read : goal.move kind = .read more)
    (kinds : List TokenKind) :
    reach (goal :: goals) (kind :: kinds) = reach (more ++ goals) kinds := by
  rw [reach_cons, step_read read]
  rfl

theorem Terminal.admits_sample (t : Terminal) : t.admits t.sample = true := by
  cases t with
  | mark m => exact decide_eq_true rfl
  | _ => rfl

theorem Terminal.move_sample (t : Terminal) :
    (Goal.token t).move t.sample = .read [] ∧
      (Goal.need (.labelled t)).move t.sample = .read [] := by
  have admitted := t.admits_sample
  constructor
  · simp only [Goal.move, Part.behind, admitted, if_true]
  · cases t <;> simp only [Terminal.sample] at admitted ⊢ <;>
      simp only [Goal.move, Part.behind, admitted, if_true]

theorem Extra.ne_opening_of_allows {extra : Extra} (allowed : extra.allows kind = true) :
    kind ≠ extra.opening := by
  rintro rfl
  cases extra <;> simp [allows, opening] at allowed

/-- The sample meets the goal on top. -/
theorem reach_sample (proper : Proper goals) (allowed : goal.allows (lead goals) = true) :
    reach (goal :: goals) (goal.sample ++ complete goals) = reach goals (complete goals) := by
  -- behind `scalar` and a name directives may follow, and the end does
  have scalar (ends : lead goals = .eof) :
      reach (.name :: .uses :: goals) (.name "a" :: complete goals) =
        reach goals (complete goals) := by
    rw [reach_read rfl]
    exact reach_pass proper (by rw [ends]; rfl)
  cases goal with
  | need part =>
    cases part with
    | token t => exact reach_read t.move_sample.1 _
    | labelled t => exact reach_read t.move_sample.2 _
    | typeRef =>
      rw [Goal.sample, Part.sample, List.singleton_append, reach_read rfl]
      exact reach_pass proper (if_neg (bne_iff_ne.mp allowed))
    | value =>
      have begun : (Goal.need .value).move (.name "a") = .read [] := rfl
      exact reach_read begun _
    | repeatableOn =>
      have begun : (Goal.need .repeatableOn).move (.name "on") = .read [] := rfl
      exact reach_read begun _
    | described =>
      have begun : (Goal.need .described).move (.name "scalar") = .read [.name, .uses] := rfl
      exact (reach_read begun _).trans (scalar (eq_of_beq allowed))
    | extension =>
      have begun : (Goal.need .extension).move (.name "scalar") = .read [.name, .uses] := rfl
      exact (reach_read begun _).trans (scalar (eq_of_beq allowed))
  | optional extra => exact reach_pass proper (if_neg (Extra.ne_opening_of_allows allowed))
  | items brackets item =>
    have closed : (Goal.items brackets item).move (.punct brackets.closing) = .read [] := if_pos rfl
    exact reach_read closed _
  | interfaces bare =>
    refine reach_pass proper ?_
    rw [eq_of_beq allowed]
    rfl
  | definitions => cases allowed

/-- Proper goals can be met. -/
theorem reach_complete (proper : Proper goals) : reach goals (complete goals) = .ok [] := by
  induction proper with
  | bottom => rfl
  | goal allowed later below ih =>
    rw [complete, List.flatMap_cons]
    exact (reach_sample below allowed).trans ih

/-- Only a goal that asks for no token is passed. -/
theorem Goal.sample_of_pass (pass : goal.move kind = .pass) : goal.sample = [] := by
  cases goal with
  | need part =>
    simp only [move] at pass
    split at pass <;> cases pass
  | optional extra => rfl
  | items brackets item =>
    simp only [move] at pass
    split at pass
    · cases pass
    · split at pass <;> cases pass
  | interfaces bare => rfl
  | definitions =>
    simp only [move, definitionsMove] at pass
    split at pass
    · cases pass
    · cases pass
    · split at pass
      · cases pass
      · split at pass <;> cases pass
    · cases pass

/-- Where a goal comes on top that one token alone leads to, a document may end in front of the
token. -/
theorem complete_of_step_entered {top : Goal} {below : List Goal} (proper : Proper goals)
    (read : step goals kind = .ok (top :: below)) (entered : top.entered = true) :
    complete goals = [.eof] := by
  induction proper with
  | bottom => rfl
  | @goal other goals allowed later inner ih =>
    rw [step] at read
    split at read
    · next more moved =>
      have same : more ++ goals = top :: below := Except.ok.inj read
      rcases Goal.move_chained moved allowed with chain | ⟨bare, rfl, rfl⟩
      · -- nothing the goal leaves is such a goal, and nothing below it
        have all : (more ++ goals).all (!·.entered) = true := by
          rw [List.all_append, all_of_chained chain, later, Bool.and_self]
        rw [same, List.all_cons, entered] at all
        cases all
      · exact inner.complete_of_lead (eq_of_beq allowed)
    · next moved =>
      rw [complete, List.flatMap_cons, Goal.sample_of_pass moved]
      exact ih read
    · cases read

/-! ### Where a document may end -/

/-- A name by itself, with an end of the document where it stands and behind it, is one more
interface; a colon behind it shows that it is none. -/
theorem step_colon_of_ends (ends : step goals .eof = .ok [])
    (listed : reach goals [.name word, .eof] = .ok []) (free : word ∉ definitionKeywords) :
    ∃ reached, step goals (.name word) = .ok reached ∧
      step reached (.punct .colon) = .error .before := by
  induction goals with
  | nil => cases ends
  | cons goal goals ih =>
    cases goal with
    | need part =>
      rw [step, Goal.move, part.behind_unread.1] at ends
      cases ends
    | optional extra =>
      have passed : (Goal.optional extra).move .eof = .pass := by
        cases extra <;> rfl
      rw [step_pass passed] at ends
      by_cases begun : TokenKind.name word = extra.opening
      · cases extra with
        | implements =>
          -- an interface name is asked for, and the end is no name
          have read : (Goal.optional .implements).move (.name word) =
              .read Extra.implements.behind := if_pos begun
          rw [reach_read read] at listed
          cases listed
        | _ => cases begun
      · have passed' : (Goal.optional extra).move (.name word) = .pass := if_neg begun
        rw [reach_cons, step_pass passed', ← reach_cons] at listed
        rw [step_pass passed']
        exact ih ends listed
    | items brackets item =>
      rw [step, Goal.move, if_neg (by simp), (Part.behind_unread _).1] at ends
      cases ends
    | interfaces bare =>
      have read : (Goal.interfaces bare).move (.name word) = .read [.interfaces true] :=
        if_neg (by rwa [List.contains_iff_mem])
      exact ⟨_, step_read read, rfl⟩
    | definitions =>
      have refused : Goal.definitions.move (.name word) = .refuse .here := by
        rw [Goal.move, definitionsMove, if_neg, definitionGoals_eq_none free]
        rintro rfl
        exact free (by decide)
      rw [reach_cons, step_refuse refused] at listed
      cases listed

/-! ### Writing what is left -/

theorem step_spread (goals : List Goal) : ∃ blame, step goals .spread = .error blame := by
  induction goals with
  | nil => exact ⟨.here, rfl⟩
  | cons goal goals ih =>
    have moved : goal.move .spread = .pass ∨ goal.move .spread = .refuse .here := by
      cases goal with
      | need part =>
        rw [Goal.move, part.behind_unread.2]
        exact .inr rfl
      | optional extra => cases extra <;> exact .inl rfl
      | items brackets item =>
        rw [Goal.move, if_neg nofun, (Part.behind_unread _).2]
        exact .inr rfl
      | interfaces bare => exact .inl rfl
      | definitions => exact .inr rfl
    rcases moved with pass | refuse
    · rwa [step_pass pass]
    · exact ⟨_, step_refuse refuse⟩

theorem ne_spread_of_reach {kinds : List TokenKind} {reached : List Goal}
    (read : reach goals kinds = .ok reached) : ∀ kind ∈ kinds, kind ≠ .spread := by
  induction kinds generalizing goals with
  | nil => exact List.forall_mem_nil _
  | cons kind kinds ih =>
    rw [reach_cons] at read
    cases first : step goals kind with
    | error blame =>
      rw [first] at read
      cases read
    | ok behind =>
      rw [first] at read
      refine List.forall_mem_cons.mpr ⟨?_, ih read⟩
      rintro rfl
      obtain ⟨blame, refused⟩ := step_spread goals
      cases first.symm.trans refused

/-- Kinds of tokens in front of the end that some text has. -/
structure Writable (kind : TokenKind) : Prop where
  spelled : kind.WellSpelled
  inside : kind ≠ .eof
  plain : kind ≠ .spread

theorem writable_name (h : IsName word) : Writable (.name word) := ⟨h, nofun, nofun⟩

theorem writable_mark (mark : Punctuator) : Writable (.punct mark) := ⟨trivial, nofun, nofun⟩

theorem Terminal.sample_writable (t : Terminal) : Writable t.sample := by
  cases t with
  | mark mark => exact writable_mark mark
  | _ => exact writable_name (by decide)

theorem Goal.sample_writable {kind : TokenKind} (allowed : goal.allows kind = true) :
    ∀ kind ∈ goal.sample, Writable kind := by
  have letter : Writable (.name "a") := writable_name (by decide)
  cases goal with
  | need part =>
    cases part with
    | token t | labelled t => exact List.forall_mem_singleton.mpr t.sample_writable
    | typeRef | value => exact List.forall_mem_singleton.mpr letter
    | repeatableOn => exact List.forall_mem_singleton.mpr (writable_name (by decide))
    | described | extension =>
      exact List.forall_mem_cons.mpr
        ⟨writable_name (by decide), List.forall_mem_singleton.mpr letter⟩
  | optional extra => exact List.forall_mem_nil _
  | items brackets item => exact List.forall_mem_singleton.mpr (writable_mark _)
  | interfaces bare => exact List.forall_mem_nil _
  | definitions => cases allowed

theorem Proper.complete_writable (proper : Proper goals) :
    ∃ kinds, complete goals = kinds ++ [.eof] ∧ ∀ kind ∈ kinds, Writable kind := by
  induction proper with
  | bottom => exact ⟨[], rfl, List.forall_mem_nil _⟩
  | @goal top goals allowed later below ih =>
    obtain ⟨kinds, shape, writable⟩ := ih
    refine ⟨top.sample ++ kinds, ?_,
      List.forall_mem_append.mpr ⟨Goal.sample_writable allowed, writable⟩⟩
    rw [complete, List.flatMap_cons, ← complete, shape, List.append_assoc]

end

end SchemaCompiler.Grammar
