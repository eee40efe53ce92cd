import SchemaCompiler.Proofs.Document.CanonicalReading
import SchemaCompiler.Proofs.Document.Layout
import SchemaCompiler.Proofs.Grammar.Completion
import SchemaCompiler.Proofs.Grammar.Following

/-!
The token that a fault is about.

A source is rejected for the first token that no accepted source can have there: what is in front of
it is the front of an accepted source, and with it nothing is. That token is the one the fault is
at, but for a colon behind a name that the older form of an interface list would take for one more
interface. There the name is blamed.
-/

namespace SchemaCompiler

open Lexer Grammar

variable {name path source : String}

/-! ## Sources with given tokens -/

/-- Text with one token of the kind. -/
def TokenKind.spelling : TokenKind → String
  | .name text | .int text | .float text => text
  | .string value => Value.quoted value
  | .punct mark => mark.char.toString
  | .spread | .eof => ""

theorem TokenKind.spelling_spells {kind : TokenKind} (writable : Writable kind) :
    Spells kind.spelling.toList [kind] := by
  obtain ⟨spelled, inside, plain⟩ := writable
  cases kind with
  | name text => exact spells_name spelled
  | int text => exact spells_int spelled
  | float text => exact spells_float spelled
  | string value => exact spells_quoted value
  | punct mark =>
    have single : mark.char.toString.toList = [mark.char] := by simp [Char.toString]
    rw [TokenKind.spelling, single]
    exact spells_mark mark
  | spread => exact absurd rfl plain
  | eof => exact absurd rfl inside

theorem exists_source {kinds : List TokenKind} (writable : ∀ kind ∈ kinds, Writable kind) :
    ∃ source tokens, tokenize source = .ok tokens ∧ kindsOf tokens = kinds ++ [.eof] := by
  have spelled : Spells (String.intercalate " " (kinds.map TokenKind.spelling)).toList kinds := by
    rw [String.toList_intercalate, List.map_map]
    have each := spells_intercalate (List.cons_ne_nil ' ' []) rfl
      (fun kind : TokenKind => kind.spelling.toList) (fun kind => [kind]) kinds
      fun kind member => TokenKind.spelling_spells (writable kind member)
    rwa [List.flatMap_singleton'] at each
  obtain ⟨tokens, lexed, shape⟩ := spelled.lexes.exists_tokens .start
  exact ⟨_, tokens, lexed, shape⟩

/-- The end is the last token of a source, and no other token. -/
theorem exists_end_of_tokenize {tokens : List Token} (tokenized : tokenize source = .ok tokens) :
    ∃ front place, tokens = front ++ [⟨.eof, place⟩] ∧ ∀ t ∈ front, t.kind ≠ .eof := by
  obtain ⟨pieces, trailing, cut, -⟩ := exists_isCut_of_tokensFrom tokenized
  obtain ⟨front, place, same, inside, -⟩ := cut.tokens_eq
  rw [tokenized] at same
  exact ⟨front, place, Except.ok.inj same, inside⟩

/-! ## Accepted tokens -/

section

variable {tokens front rest : List Token} {place : Position}

/-- Tokens in front of the end leave one behind them, which is the end only behind all of them. -/
theorem eq_end_of_append {all : List Token} (shape : all ++ [⟨.eof, place⟩] = front ++ rest)
    (all_inside : ∀ t ∈ all, t.kind ≠ .eof) (inside : ∀ t ∈ front, t.kind ≠ .eof) :
    ∃ t behind, rest = t :: behind ∧ (t.kind = .eof → front = all) := by
  rcases List.append_eq_append_iff.mp shape with ⟨others, rfl, tail⟩ | ⟨others, rfl, rfl⟩
  · rw [List.forall_mem_append] at inside
    cases others with
    | nil => exact ⟨_, [], tail.symm, fun _ => List.append_nil _⟩
    | cons t others =>
      obtain ⟨rfl, -⟩ := List.cons.inj tail
      exact absurd rfl (inside.2 _ List.mem_cons_self)
  · rw [List.forall_mem_append] at all_inside
    cases others with
    | nil => exact ⟨_, [], rfl, fun _ => (List.append_nil _).symm⟩
    | cons t others =>
      exact ⟨t, _, rfl, fun ends => absurd ends (all_inside.2 _ List.mem_cons_self)⟩

/-- What was read leads to goals that refuse the token. -/
structure Refuses (front : List Token) (t : Token) (blame : Blame) : Prop where
  inside : ∀ t ∈ front, t.kind ≠ .eof
  refused : ∃ reached, reach [.definitions] (kindsOf front) = .ok reached ∧
    step reached t.kind = .error blame

/-- A document may end behind the tokens. -/
def MayEnd (front : List Token) : Prop :=
  reach [.definitions] (kindsOf front ++ [.eof]) = .ok []

theorem mayEnd_of_complete {reached : List Goal}
    (read : reach [.definitions] (kindsOf front) = .ok reached) (proper : Proper reached)
    (ends : complete reached = [.eof]) : MayEnd front := by
  have met := reach_complete proper
  rw [MayEnd, reach_append, read]
  rwa [ends] at met

/-- What is blamed for a token that is refused: the token, or the bare interface name in front of a
colon. Nothing is said of the word behind `extend` that no name follows. -/
inductive Blamed : List Token → Token → List Token → Position → Prop where
  | here {front rest : List Token} {t : Token} (refused : Refuses front t .here) :
      Blamed front t rest t.position
  | before {front rest : List Token} {x t : Token} {word : String}
      (refused : Refuses (front ++ [x]) t .before) (named : x.kind = .name word)
      (free : word ∉ definitionKeywords) (colon : t.kind = .punct .colon)
      (ends : MayEnd front) (ends_behind : MayEnd (front ++ [x])) :
      Blamed (front ++ [x]) t rest x.position
  | misnamed {front rest : List Token} {x t : Token} {word : String} {place : Position}
      (refused : Refuses (front ++ [x]) t .here) (extend : x.kind = .name "extend")
      (ends : MayEnd front) (named : t.kind = .name word)
      (unnamed : ∀ name, (next rest).kind ≠ .name name) : Blamed (front ++ [x]) t rest place

theorem Blamed.refuses {t : Token} (blamed : Blamed front t rest place) :
    ∃ blame, Refuses front t blame := by
  cases blamed with
  | here refused | before refused | misnamed refused => exact ⟨_, refused⟩

theorem reach_kindsOf_snoc {reached : List Goal}
    (read : reach [.definitions] (kindsOf front) = .ok reached) (t : Token) :
    reach [.definitions] (kindsOf (front ++ [t])) = step reached t.kind := by
  rw [kindsOf, List.map_append]
  exact reach_snoc read t.kind

theorem proper_of_read {reached : List Goal} (inside : ∀ t ∈ front, t.kind ≠ .eof)
    (read : reach [.definitions] (kindsOf front) = .ok reached) : Proper reached := by
  refine reach_proper .bottom (fun kind member => ?_) read
  obtain ⟨t, among, rfl⟩ := List.mem_map.mp member
  exact inside t among

/-- Nothing that begins with tokens of these kinds is read. -/
theorem Refuses.reach_error {t : Token} {blame : Blame} (h : Refuses front t blame)
    {kinds : List TokenKind} (begins : kindsOf (front ++ [t]) <+: kinds) :
    reach [.definitions] kinds = .error blame := by
  obtain ⟨reached, read, refused⟩ := h.refused
  exact reach_error_of_begins begins ((reach_kindsOf_snoc read t).trans refused)

/-- Where a token leads to a goal that it alone leads to, a document may end in front of it. -/
theorem mayEnd_of_entered {kind : TokenKind} {reached below : List Goal} {top : Goal}
    (inside : ∀ t ∈ front, t.kind ≠ .eof)
    (read : reach [.definitions] (kindsOf front) = .ok reached)
    (led : step reached kind = .ok (top :: below)) (entered : top.entered = true) :
    MayEnd front := by
  have proper := proper_of_read inside read
  exact mayEnd_of_complete read proper (complete_of_step_entered proper led entered)

theorem blamed_of_error {all : List Token} {fault : SyntaxFault}
    (shape : tokens = all ++ [⟨.eof, place⟩]) (all_inside : ∀ t ∈ all, t.kind ≠ .eof)
    {blamed : Position} (failed : definitions tokens = .error (blamed, fault)) :
    ∃ front t rest, tokens = front ++ t :: rest ∧ Blamed front t rest blamed := by
  rcases definitions_error (stands_start tokens) failed with
    ⟨goals, rest, stands, refused, rfl⟩ | ⟨rest, stalls, rfl⟩ | misnames
  · obtain ⟨front, reached, same, inside, read, next_step⟩ := stands
    obtain ⟨t, behind, rfl, -⟩ := eq_end_of_append (shape.symm.trans same) all_inside inside
    exact ⟨front, t, behind, same, .here ⟨inside, reached, read, next_step.trans refused⟩⟩
  · obtain ⟨word, place', behind, bare, goals, rfl, free, colon, stands⟩ := stalls
    obtain ⟨front, reached, same, inside, read, next_step⟩ := stands
    cases behind with
    | nil => cases colon
    | cons t behind =>
      have named : (Goal.interfaces bare).move (.name word) = .read [.interfaces true] :=
        if_neg (by rwa [List.contains_iff_mem])
      have led : step reached (.name word) = .ok (.interfaces true :: goals) :=
        next_step.trans (step_read named)
      have read' := (reach_kindsOf_snoc read ⟨.name word, place'⟩).trans led
      have inside' : ∀ t ∈ front ++ [⟨.name word, place'⟩], t.kind ≠ .eof :=
        List.forall_mem_append.mpr ⟨inside, List.forall_mem_singleton.mpr nofun⟩
      have proper := proper_of_read inside' read'
      have refused : step (.interfaces true :: goals) t.kind = .error .before := by
        rw [show t.kind = .punct .colon from colon]
        rfl
      refine ⟨front ++ [⟨.name word, place'⟩], t, behind, ?_, ?_⟩
      · rw [same, List.append_assoc, List.singleton_append]
      · exact .before ⟨inside', _, read', refused⟩ rfl free colon
          (mayEnd_of_entered inside read led rfl)
          (mayEnd_of_complete read' proper proper.complete_interfaces)
  · obtain ⟨place', word, place'', behind, unknown, unnamed, stands⟩ := misnames
    obtain ⟨front, reached, same, inside, read, next_step⟩ := stands
    have led : step reached (.name "extend") = .ok [.need .extension, .definitions] := next_step
    have read' := (reach_kindsOf_snoc read ⟨.name "extend", place'⟩).trans led
    have inside' : ∀ t ∈ front ++ [⟨.name "extend", place'⟩], t.kind ≠ .eof :=
      List.forall_mem_append.mpr ⟨inside, List.forall_mem_singleton.mpr nofun⟩
    have refused : (Goal.need .extension).move (.name word) = .refuse .here := by
      rw [Goal.move, Part.behind, unknown]
    refine ⟨front ++ [⟨.name "extend", place'⟩], ⟨.name word, place''⟩, behind, ?_, ?_⟩
    · rw [same, List.append_assoc, List.singleton_append]
    · exact .misnamed ⟨inside', _, read', step_refuse refused⟩ rfl
        (mayEnd_of_entered inside read led rfl) rfl unnamed

/-- The tokens of a source are accepted just where a document may end behind all of them. -/
theorem definitions_ok_iff {all : List Token} (all_inside : ∀ t ∈ all, t.kind ≠ .eof)
    (place : Position) :
    (∃ found, definitions (all ++ [⟨.eof, place⟩]) = .ok found) ↔ MayEnd all := by
  constructor
  · rintro ⟨found, read⟩
    obtain ⟨rest, stands, ends⟩ := definitions_ok (stands_start _) read
    obtain ⟨front, reached, same, inside, front_read, next_step⟩ := stands
    obtain ⟨t, behind, rfl, whole⟩ := eq_end_of_append same all_inside inside
    obtain rfl := whole ends
    have last : t.kind = .eof := ends
    rw [next, last] at next_step
    rw [MayEnd, reach_snoc front_read]
    exact next_step
  · intro ends
    cases outcome : definitions (all ++ [⟨.eof, place⟩]) with
    | ok found => exact ⟨found, rfl⟩
    | error failure =>
      obtain ⟨blamed, fault⟩ := failure
      obtain ⟨front, t, rest, same, blame⟩ := blamed_of_error rfl all_inside outcome
      obtain ⟨blame, refuses⟩ := blame.refuses
      have begins : kindsOf (front ++ [t]) <+: kindsOf all ++ [.eof] := by
        refine ⟨kindsOf rest, ?_⟩
        have kinds := congrArg kindsOf same
        simp only [kindsOf, List.map_append, List.map_cons, List.map_nil] at kinds ⊢
        rw [kinds, List.append_assoc, List.singleton_append]
      have failed := refuses.reach_error begins
      rw [show reach [.definitions] (kindsOf all ++ [.eof]) = .ok [] from ends] at failed
      cases failed

end

/-! ## Accepted sources -/

/-- Some accepted source has tokens that begin with these kinds. -/
def Document.Opens (name path : String) (kinds : List TokenKind) : Prop :=
  ∃ source tokens doc, tokenize source = .ok tokens ∧ kinds <+: kindsOf tokens ∧
    Document.ofSource name path source = .ok doc

/-- Some accepted source has tokens of these kinds and the end behind them. -/
def Document.Spans (name path : String) (kinds : List TokenKind) : Prop :=
  ∃ source tokens doc, tokenize source = .ok tokens ∧ kindsOf tokens = kinds ++ [.eof] ∧
    Document.ofSource name path source = .ok doc

theorem Document.ofSource_ok_iff {tokens : List Token} (tokenized : tokenize source = .ok tokens) :
    (∃ doc, Document.ofSource name path source = .ok doc) ↔
      reach [.definitions] (kindsOf tokens) = .ok [] := by
  obtain ⟨all, place, rfl, inside⟩ := exists_end_of_tokenize tokenized
  have kinds : kindsOf (all ++ [⟨.eof, place⟩]) = kindsOf all ++ [.eof] := List.map_append
  rw [kinds]
  refine Iff.trans ?_ (definitions_ok_iff inside place)
  rw [Document.ofSource, tokenized]
  dsimp only
  constructor
  · rintro ⟨doc, accepted⟩
    split at accepted
    · cases accepted
    · next found read => exact ⟨found, read⟩
  · rintro ⟨found, read⟩
    rw [read]
    exact ⟨_, rfl⟩

theorem Document.mayEnd_of_spans {front : List Token}
    (spans : Document.Spans name path (kindsOf front)) : MayEnd front := by
  obtain ⟨source, tokens, doc, tokenized, kinds, accepted⟩ := spans
  have read := (Document.ofSource_ok_iff tokenized).mp ⟨doc, accepted⟩
  rwa [kinds] at read

/-- Tokens that can be read to the end are those of an accepted source. -/
theorem Document.exists_accepted (name path : String) {kinds : List TokenKind}
    (writable : ∀ kind ∈ kinds, Writable kind)
    (read : reach [.definitions] (kinds ++ [.eof]) = .ok []) :
    Document.Spans name path kinds := by
  obtain ⟨source, tokens, tokenized, shape⟩ := exists_source writable
  obtain ⟨doc, accepted⟩ := (Document.ofSource_ok_iff tokenized).mpr (by rw [shape]; exact read)
  exact ⟨source, tokens, doc, tokenized, shape, accepted⟩

section

variable {front : List Token}

theorem writable_of_read {more : List TokenKind} {reached : List Goal}
    (spelled : TokensSpelled front) (inside : ∀ t ∈ front, t.kind ≠ .eof)
    (read : reach [.definitions] (kindsOf front ++ more) = .ok reached) :
    ∀ kind ∈ kindsOf front, Writable kind := by
  intro kind member
  have plain := ne_spread_of_reach read kind (List.mem_append_left more member)
  obtain ⟨t, among, rfl⟩ := List.mem_map.mp member
  exact ⟨spelled t among, inside t among, plain⟩

theorem Document.spans_of_mayEnd (name path : String) (spelled : TokensSpelled front)
    (inside : ∀ t ∈ front, t.kind ≠ .eof) (ends : MayEnd front) :
    Document.Spans name path (kindsOf front) :=
  Document.exists_accepted name path (writable_of_read spelled inside ends) ends

theorem Document.spans_front (name path : String) {x : Token}
    (spelled : TokensSpelled (front ++ [x])) (inside : ∀ t ∈ front ++ [x], t.kind ≠ .eof)
    (ends : MayEnd front) : Document.Spans name path (kindsOf front) :=
  Document.spans_of_mayEnd name path (fun t member => spelled t (List.mem_append_left _ member))
    (List.forall_mem_append.mp inside).1 ends

/-- What was read is the front of what an accepted source says. -/
theorem Document.opens_of_read (name path : String) (spelled : TokensSpelled front)
    (inside : ∀ t ∈ front, t.kind ≠ .eof) {reached : List Goal}
    (read : reach [.definitions] (kindsOf front) = .ok reached) :
    Document.Opens name path (kindsOf front) := by
  have proper := proper_of_read inside read
  obtain ⟨kinds, shape, writable⟩ := proper.complete_writable
  have whole : reach [.definitions] (kindsOf front ++ (kinds ++ [.eof])) = .ok [] := by
    rw [← shape, reach_append, read]
    exact reach_complete proper
  have front_writable := writable_of_read spelled inside whole
  rw [← List.append_assoc] at whole
  obtain ⟨source, tokens, doc, tokenized, same, accepted⟩ := Document.exists_accepted name path
    (List.forall_mem_append.mpr ⟨front_writable, writable⟩) whole
  refine ⟨source, tokens, doc, tokenized, ⟨kinds ++ [.eof], ?_⟩, accepted⟩
  rw [same, List.append_assoc]

theorem Document.not_opens_of_refuses {t : Token} {blame : Blame}
    (refuses : Refuses front t blame) : ¬ Document.Opens name path (kindsOf (front ++ [t])) := by
  rintro ⟨source, tokens, doc, tokenized, begins, accepted⟩
  have read := (Document.ofSource_ok_iff tokenized).mp ⟨doc, accepted⟩
  cases read.symm.trans (refuses.reach_error begins)

/-- Behind a bare interface name the name is blamed for a colon. -/
theorem Refuses.blame_before {x t : Token} {word : String} {blame : Blame}
    (refuses : Refuses (front ++ [x]) t blame) (ends : MayEnd front)
    (ends_behind : MayEnd (front ++ [x])) (named : x.kind = .name word)
    (free : word ∉ definitionKeywords) (colon : t.kind = .punct .colon) : blame = .before := by
  obtain ⟨reached, read, refused⟩ := refuses.refused
  cases first : reach [.definitions] (kindsOf front) with
  | error failure =>
    rw [MayEnd, reach_append, first] at ends
    cases ends
  | ok goals =>
    rw [MayEnd, reach_snoc first] at ends
    have last := reach_kindsOf_snoc first x
    rw [read, named] at last
    have listed : reach goals [.name word, .eof] = .ok [] := by
      rw [MayEnd, reach_snoc read] at ends_behind
      rw [reach_cons, ← last]
      exact (bind_pure _).trans ends_behind
    obtain ⟨reached', led, blamed⟩ := step_colon_of_ends ends listed free
    obtain rfl := Except.ok.inj (last.trans led)
    rw [colon] at refused
    cases refused.symm.trans blamed
    rfl

end

/-! ## The first fault -/

/-- The name is one more interface by itself: it begins no definition, and a document may end both
in front of it and behind it. -/
def Document.ListsBare (name path : String) (front : List Token) (x : Token) : Prop :=
  (∃ word, x.kind = .name word ∧ word ∉ definitionKeywords) ∧
    Document.Spans name path (kindsOf front) ∧ Document.Spans name path (kindsOf (front ++ [x]))

/-- The name stands where it says what is extended, and no other name is behind it. -/
def Document.ExtendsNothing (name path : String) (front : List Token) (t : Token)
    (rest : List Token) : Prop :=
  ∃ before x, front = before ++ [x] ∧ x.kind = .name "extend" ∧
    Document.Spans name path (kindsOf before) ∧ (∃ word, t.kind = .name word) ∧
    ∀ word, (next rest).kind ≠ .name word

/-- The token behind `front` is the first one that no accepted source can have there, and the place
is that of what is blamed for it: of a bare interface name in front of a colon, or else of the
token. Of a name behind `extend` that no other name follows nothing is said. -/
structure Document.Rejects (name path : String) (front : List Token) (t : Token)
    (rest : List Token) (place : Position) : Prop where
  opens : Document.Opens name path (kindsOf front)
  stops : ¬ Document.Opens name path (kindsOf (front ++ [t]))
  bare : ∀ before x, front = before ++ [x] → t.kind = .punct .colon →
    Document.ListsBare name path before x → place = x.position
  here : (∀ before x, front = before ++ [x] → t.kind = .punct .colon →
      ¬ Document.ListsBare name path before x) →
    ¬ Document.ExtendsNothing name path front t rest → place = t.position

section

variable {front rest : List Token} {t : Token} {place : Position}

/-- For a colon behind a bare interface name the name is blamed. -/
theorem Blamed.at_bare (blamed : Blamed front t rest place) {before : List Token} {x : Token}
    (split : front = before ++ [x]) (colon : t.kind = .punct .colon)
    (lists : Document.ListsBare name path before x) : place = x.position := by
  obtain ⟨⟨word, named, free⟩, spans, spans_behind⟩ := lists
  have ends := Document.mayEnd_of_spans spans
  have ends_behind := Document.mayEnd_of_spans spans_behind
  cases blamed with
  | here refused =>
    subst split
    cases refused.blame_before ends ends_behind named free colon
  | before refused =>
    obtain ⟨rfl, -⟩ := List.cons.inj (List.append_inj' split rfl).2
    rfl
  | misnamed refused extend mayEnd named' => cases colon.symm.trans named'

/-- Otherwise the token is blamed, but for a name behind `extend`. -/
theorem Blamed.at_token (blamed : Blamed front t rest place) (spelled : TokensSpelled front)
    (no_bare : ∀ before x, front = before ++ [x] → t.kind = .punct .colon →
      ¬ Document.ListsBare name path before x)
    (no_extend : ¬ Document.ExtendsNothing name path front t rest) : place = t.position := by
  cases blamed with
  | here refused => rfl
  | @before front rest x t word refused named free colon ends ends_behind =>
    have spans := Document.spans_front name path spelled refused.inside ends
    have spans_behind := Document.spans_of_mayEnd name path spelled refused.inside ends_behind
    exact absurd ⟨⟨word, named, free⟩, spans, spans_behind⟩ (no_bare front x rfl colon)
  | @misnamed front rest x t word place refused extend ends named unnamed =>
    have spans := Document.spans_front name path spelled refused.inside ends
    exact absurd ⟨front, x, rfl, extend, spans, ⟨word, named⟩, unnamed⟩ no_extend

end

/-- A source that has tokens and is rejected is so for the first of them that no accepted source can
have there. -/
theorem Document.first_fault_blamed (name path source : String) {tokens : List Token}
    (tokenized : tokenize source = .ok tokens) {e : SourceError}
    (rejected : Document.ofSource name path source = .error e) :
    ∃ front t rest place fault, tokens = front ++ t :: rest ∧
      e = ⟨path, .grammar place fault⟩ ∧ Document.Rejects name path front t rest place := by
  obtain ⟨all, last, shape, all_inside⟩ := exists_end_of_tokenize tokenized
  rw [Document.ofSource, tokenized] at rejected
  dsimp only at rejected
  split at rejected
  · next place fault failed =>
    cases rejected
    obtain ⟨front, t, rest, same, blamed⟩ := blamed_of_error shape all_inside failed
    obtain ⟨blame, refuses⟩ := blamed.refuses
    obtain ⟨reached, read, -⟩ := refuses.refused
    have spelled : TokensSpelled front := by
      intro t member
      have whole := spelled_of_tokenize tokenized
      rw [same] at whole
      exact whole t (List.mem_append_left _ member)
    exact ⟨front, t, rest, place, fault, same, rfl,
      { opens := Document.opens_of_read name path spelled refuses.inside read
        stops := Document.not_opens_of_refuses refuses
        bare := fun _ _ split colon lists => blamed.at_bare split colon lists
        here := fun no_bare no_extend => blamed.at_token spelled no_bare no_extend }⟩
  · cases rejected

/-- A second closing brace is blamed where it stands. -/
theorem Document.first_fault_blamed_brace :
    tokenize "type A \x7b\x7d\n\x7d" = .ok
      [⟨.name "type", ⟨1, 1⟩⟩, ⟨.name "A", ⟨1, 6⟩⟩, ⟨.punct .braceOpen, ⟨1, 8⟩⟩,
        ⟨.punct .braceClose, ⟨1, 9⟩⟩, ⟨.punct .braceClose, ⟨2, 1⟩⟩, ⟨.eof, ⟨2, 2⟩⟩] ∧
    Document.ofSource "a" "a.gql" "type A \x7b\x7d\n\x7d" =
      .error ⟨"a.gql", .grammar ⟨2, 1⟩ (.unexpected .definition (.punct .braceClose))⟩ ∧
    ∃ front t rest, [⟨.name "type", ⟨1, 1⟩⟩, ⟨.name "A", ⟨1, 6⟩⟩, ⟨.punct .braceOpen, ⟨1, 8⟩⟩,
        ⟨.punct .braceClose, ⟨1, 9⟩⟩, ⟨.punct .braceClose, ⟨2, 1⟩⟩, ⟨.eof, ⟨2, 2⟩⟩] =
          front ++ t :: rest ∧
      Document.Rejects "a" "a.gql" front t rest ⟨2, 1⟩ := by
  have tokens : tokenize "type A \x7b\x7d\n\x7d" = .ok
      [⟨.name "type", ⟨1, 1⟩⟩, ⟨.name "A", ⟨1, 6⟩⟩, ⟨.punct .braceOpen, ⟨1, 8⟩⟩,
        ⟨.punct .braceClose, ⟨1, 9⟩⟩, ⟨.punct .braceClose, ⟨2, 1⟩⟩, ⟨.eof, ⟨2, 2⟩⟩] := by
    with_unfolding_all rfl
  have rejected : Document.ofSource "a" "a.gql" "type A \x7b\x7d\n\x7d" =
      .error ⟨"a.gql", .grammar ⟨2, 1⟩ (.unexpected .definition (.punct .braceClose))⟩ := by
    with_unfolding_all rfl
  obtain ⟨front, t, rest, place, fault, shape, same, rejects⟩ :=
    Document.first_fault_blamed "a" "a.gql" _ tokens rejected
  cases same
  exact ⟨tokens, rejected, front, t, rest, shape, rejects⟩

/-- If the source has tokens and is rejected, the token that is blamed is the first that no accepted
source can have there. -/
def Document.BlamesFirst (name path source : String) : Prop :=
  ∀ tokens e, tokenize source = .ok tokens → Document.ofSource name path source = .error e →
    ∃ front t rest fault, tokens = front ++ t :: rest ∧ Document.Opens name path (kindsOf front) ∧
      ¬ Document.Opens name path (kindsOf (front ++ [t])) ∧ e = ⟨path, .grammar t.position fault⟩

/-- Where no two tokens stand at one place, the place tells what is in front of it. -/
theorem eq_take_of_place {tokens front rest : List Token} {t t' : Token}
    (distinct : (tokens.map (·.position)).Nodup) (shape : tokens = front ++ t :: rest) {i : Nat}
    (there : tokens[i]? = some t') (same : t.position = t'.position) :
    front = tokens.take i ∧ t = t' := by
  subst shape
  have here : (front ++ t :: rest)[front.length]? = some t := by simp
  have places : ((front ++ t :: rest).map (·.position))[front.length]? =
      ((front ++ t :: rest).map (·.position))[i]? := by
    rw [List.getElem?_map, List.getElem?_map, here, there, Option.map_some, Option.map_some, same]
  obtain rfl := (List.getElem?_inj (by simp) distinct).mp places
  exact ⟨List.take_left.symm, Option.some.inj (here.symm.trans there)⟩

/-- A bare interface name is blamed for the colon behind it, though up to the name the tokens are
those of an accepted source. What stands behind a word is blamed for the word, though no accepted
source has the word there. -/
theorem Document.not_blamesFirst :
    ¬ Document.BlamesFirst "a" "a.gql" "type A implements B x : Int" ∧
      ¬ Document.BlamesFirst "a" "a.gql" "extend foo \x7b" := by
  constructor
  · intro first
    have tokens : tokenize "type A implements B x : Int" = .ok
        [⟨.name "type", ⟨1, 1⟩⟩, ⟨.name "A", ⟨1, 6⟩⟩, ⟨.name "implements", ⟨1, 8⟩⟩,
          ⟨.name "B", ⟨1, 19⟩⟩, ⟨.name "x", ⟨1, 21⟩⟩, ⟨.punct .colon, ⟨1, 23⟩⟩,
          ⟨.name "Int", ⟨1, 25⟩⟩, ⟨.eof, ⟨1, 28⟩⟩] := by
      with_unfolding_all rfl
    have rejected : Document.ofSource "a" "a.gql" "type A implements B x : Int" =
        .error ⟨"a.gql", .grammar ⟨1, 21⟩ (.unexpected .definition (.name "x"))⟩ := by
      with_unfolding_all rfl
    have opens : Document.Opens "a" "a.gql"
        [.name "type", .name "A", .name "implements", .name "B", .name "x"] :=
      ⟨"type A implements B x", _, _, by with_unfolding_all rfl, ⟨[.eof], rfl⟩,
        by with_unfolding_all rfl⟩
    obtain ⟨front, ⟨kind, place⟩, rest, fault, shape, -, stops, same⟩ := first _ _ tokens rejected
    cases same
    obtain ⟨rfl, same⟩ := eq_take_of_place (by decide) shape (i := 4) rfl rfl
    cases same
    exact stops opens
  · intro first
    have tokens : tokenize "extend foo \x7b" = .ok
        [⟨.name "extend", ⟨1, 1⟩⟩, ⟨.name "foo", ⟨1, 8⟩⟩, ⟨.punct .braceOpen, ⟨1, 12⟩⟩,
          ⟨.eof, ⟨1, 13⟩⟩] := by
      with_unfolding_all rfl
    have rejected : Document.ofSource "a" "a.gql" "extend foo \x7b" =
        .error ⟨"a.gql", .grammar ⟨1, 12⟩ (.unexpected .name (.punct .braceOpen))⟩ := by
      with_unfolding_all rfl
    have stops : ¬ Document.Opens "a" "a.gql" [.name "extend", .name "foo"] := by
      rintro ⟨source, tokens, doc, tokenized, begins, accepted⟩
      have read := (Document.ofSource_ok_iff tokenized).mp ⟨doc, accepted⟩
      have refused : reach [.definitions] [.name "extend", .name "foo"] = .error .here := rfl
      cases read.symm.trans (reach_error_of_begins begins refused)
    obtain ⟨front, ⟨kind, place⟩, rest, fault, shape, opens, -, same⟩ := first _ _ tokens rejected
    cases same
    obtain ⟨rfl, -⟩ := eq_take_of_place (by decide) shape (i := 2) rfl rfl
    exact stops opens

end SchemaCompiler
