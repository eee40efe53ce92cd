import SchemaCompiler.Proofs.Document.Canonical
import SchemaCompiler.Proofs.Grammar.Reading

/-!
Canonical tokens read back.

Every production reads the tokens of a well-formed piece as that piece, provided that the token
behind it does not go on with the piece: what follows a piece in a canonical text never does.
-/

namespace SchemaCompiler.Grammar

/-! ## Tokens of words -/

theorem tokens_nil : Word.tokens [] = [] := rfl

theorem tokens_cons (word : Word) (words : List Word) :
    Word.tokens (word :: words) = word.kinds ++ Word.tokens words :=
  List.flatMap_cons

theorem tokens_append (words words' : List Word) :
    Word.tokens (words ++ words') = Word.tokens words ++ Word.tokens words' :=
  List.flatMap_append

theorem tokens_flatMap {α : Type} (words : α → List Word) (items : List α) :
    Word.tokens (items.flatMap words) = items.flatMap fun item => Word.tokens (words item) :=
  List.flatMap_assoc

theorem tokens_description (description : Option String) :
    Word.tokens (Word.description description) = descriptionKinds description := by
  cases description <;> rfl

/-! ## What may follow -/

/-- No applied directive goes on here. -/
structure EndsDirectives (kinds : List TokenKind) : Prop where
  atSign : NotNext (.punct .atSign) kinds
  arguments : NotNext (.punct .parenOpen) kinds

/-- No item of a block goes on here. -/
structure EndsItem (kinds : List TokenKind) : Prop extends EndsDirectives kinds where
  bang : NotNext (.punct .bang) kinds
  equals : NotNext (.punct .equals) kinds

/-- A piece that begins with a name or a string begins with no mark. -/
def BeginsItem (kinds : List TokenKind) : Prop :=
  ∀ mark more, NotNext (.punct mark) (kinds ++ more)

theorem BeginsItem.ends {kinds : List TokenKind} (h : BeginsItem kinds) (more : List TokenKind) :
    EndsItem (kinds ++ more) :=
  ⟨⟨h _ more, h _ more⟩, h _ more, h _ more⟩

theorem endsItem_close {mark : Punctuator} (close : mark = .parenClose ∨ mark = .braceClose)
    (more : List TokenKind) : EndsItem (.punct mark :: more) := by
  rcases close with rfl | rfl <;>
    exact ⟨⟨notNext_cons (by decide) _, notNext_cons (by decide) _⟩, notNext_cons (by decide) _,
      notNext_cons (by decide) _⟩

theorem beginsItem_described (description : Option String) (name : String)
    (kinds : List TokenKind) : BeginsItem (descriptionKinds description ++ .name name :: kinds) := by
  intro mark more
  cases description <;> exact notNext_cons (by simp) _

/-! ## Repetition -/

section

variable {α γ : Type} {item : (ts : List Token) → Parse α ts} {look : α → γ}
  {kinds : α → List TokenKind} {openMark close : Punctuator}

/-- Items up to the closing mark. Each reads its own tokens if what is behind may follow it, as the
tokens of a next item and the closing mark may. -/
theorem itemsUntil_reads (follows : List TokenKind → Prop) {items : List α}
    {behind : List TokenKind}
    (begins : ∀ a ∈ items, ∀ more, NotNext (.punct close) (kinds a ++ more))
    (each : ∀ a ∈ items, ∀ after, follows after → Reads item look a (kinds a) after)
    (between : ∀ a ∈ items, ∀ more, follows (kinds a ++ more))
    (last : follows (.punct close :: behind))
    {bound : Nat} {ts : List Token} (fits : ts.length ≤ bound)
    (shape : kindsOf ts = items.flatMap kinds ++ .punct close :: behind) :
    ∃ found rest, Yields (itemsUntil close bound (fun ts _ => item ts) ts fits) found rest ∧
      kindsOf rest = behind ∧ found.map look = items.map look := by
  induction items generalizing ts with
  | nil =>
    obtain ⟨place, rest, less, taken, shape'⟩ := takeMark?_next shape
    refine ⟨[], rest, ?_, shape', rfl⟩
    rw [itemsUntil, taken]
    exact yields_ok
  | cons a items ih =>
    obtain ⟨begins_a, begins⟩ := List.forall_mem_cons.mp begins
    obtain ⟨each_a, each⟩ := List.forall_mem_cons.mp each
    obtain ⟨-, between⟩ := List.forall_mem_cons.mp between
    rw [List.flatMap_cons, List.append_assoc] at shape
    have other : takeMark? close ts = none := by
      apply takeMark?_none
      rw [shape]
      exact begins_a _
    have goes_on : follows (items.flatMap kinds ++ .punct close :: behind) := by
      cases items with
      | nil => exact last
      | cons b items =>
        rw [List.flatMap_cons, List.append_assoc]
        exact between b List.mem_cons_self _
    obtain ⟨first, rest, read, shape', same⟩ := each_a _ goes_on ts shape
    have shorter : rest.length ≤ bound := by
      obtain ⟨less, -⟩ := read
      omega
    obtain ⟨more, rest', read', shape'', same'⟩ := ih begins each between shorter shape'
    refine ⟨first :: more, rest', ?_, shape'', by rw [List.map_cons, List.map_cons, same, same']⟩
    rw [itemsUntil, other]
    exact read.bind fun _ => read'.bind fun _ => yields_ok

end

/-- The kinds of a block: those of its items between two marks, or none. -/
theorem tokens_block {α : Type} (openMark close : Punctuator) (words : α → List Word)
    (items : List α) :
    Word.tokens (Word.block openMark close words items) =
      if items = [] then []
      else .punct openMark :: (items.flatMap (fun item => Word.tokens (words item)) ++
        [.punct close]) := by
  cases items with
  | nil => rfl
  | cons item items =>
    rw [if_neg (List.cons_ne_nil _ _), Word.block, tokens_cons, tokens_append, tokens_flatMap]
    · rfl
    · simp

theorem optionalBlock_reads {α γ : Type} {item : (ts : List Token) → Parse α ts} {look : α → γ}
    {words : α → List Word} {openMark close : Punctuator} {items : List α}
    (closes : close = .parenClose ∨ close = .braceClose)
    (begins : ∀ a ∈ items, BeginsItem (Word.tokens (words a)))
    (each : ∀ a ∈ items, ∀ after, EndsItem after → Reads item look a (Word.tokens (words a)) after)
    {behind : List TokenKind} (other : NotNext (.punct openMark) behind) :
    Reads (optionalBlock openMark close item) (List.map look) items
      (Word.tokens (Word.block openMark close words items)) behind := by
  intro ts shape
  rw [tokens_block] at shape
  by_cases none : items = []
  · rw [if_pos none, List.nil_append] at shape
    have absent : takeMark? openMark ts = .none := takeMark?_none (shape ▸ other)
    refine ⟨[], ts, ?_, shape, by rw [none]⟩
    rw [optionalBlock, absent]
    exact yields_ok
  · rw [if_neg none, List.cons_append, List.append_assoc] at shape
    obtain ⟨place, rest, less, taken, shape'⟩ := takeMark?_next shape
    obtain ⟨found, rest', read, shape'', same⟩ := itemsUntil_reads EndsItem
      (fun a member more => begins a member close more) each
      (fun a member more => (begins a member).ends more) (endsItem_close closes behind)
      (Nat.le_refl rest.length) shape'
    refine ⟨found, rest', ?_, shape'', same⟩
    rw [optionalBlock, taken]
    exact read.bind fun _ => yields_ok

/-! ## Type references -/

/-- Up to its own non-null mark the reference is read whatever is behind it. -/
def ReadsBare (ref : TypeRef) : Prop :=
  ∀ behind ts, kindsOf ts = ref.kinds ++ behind →
    ∃ rest bound, typeRef ts = .ok (withBang ts ref ⟨rest, bound⟩) ∧ kindsOf rest = behind

theorem ReadsBare.reads {ref : TypeRef} (h : ReadsBare ref) {behind : List TokenKind}
    (other : NotNext (.punct .bang) behind) : Reads typeRef id ref ref.kinds behind := by
  intro ts shape
  obtain ⟨rest, bound, read, shape'⟩ := h behind ts shape
  refine ⟨ref, rest, ⟨bound, ?_⟩, shape', rfl⟩
  rw [read, withBang, takeMark?_none (shape'.symm ▸ other)]

theorem ReadsBare.reads_nonNull {ref : TypeRef} (h : ReadsBare ref) (behind : List TokenKind) :
    Reads typeRef id (.nonNull ref) (TypeRef.nonNull ref).kinds behind := by
  intro ts shape
  rw [TypeRef.kinds, List.append_assoc] at shape
  obtain ⟨rest, bound, read, shape₁⟩ := h _ ts shape
  obtain ⟨place, rest', less, taken, shape₂⟩ := takeMark?_next shape₁
  refine ⟨.nonNull ref, rest', ⟨Nat.lt_trans less bound, ?_⟩, shape₂, rfl⟩
  rw [read, withBang, taken]

theorem readsBare_named (name : String) : ReadsBare (.named name) := by
  intro behind ts shape
  have absent : takeMark? .bracketOpen ts = none := by
    apply takeMark?_none
    rw [shape]
    exact notNext_cons (by simp) _
  obtain ⟨place, rest, ⟨bound, read⟩, shape'⟩ := expectName_next shape
  refine ⟨rest, bound, ?_, shape'⟩
  rw [typeRef, absent, read]
  rfl

theorem readsBare_list {inner : TypeRef}
    (h : ∀ behind, NotNext (.punct .bang) behind → Reads typeRef id inner inner.kinds behind) :
    ReadsBare (.list inner) := by
  intro behind ts shape
  rw [TypeRef.kinds, List.cons_append, List.append_assoc] at shape
  obtain ⟨place, rest, less, taken, shape₁⟩ := takeMark?_next shape
  obtain ⟨found, rest₁, ⟨bound₁, read₁⟩, shape₂, rfl⟩ :=
    h _ (notNext_cons (by decide) behind) rest shape₁
  obtain ⟨place', rest₂, ⟨bound₂, read₂⟩, shape₃⟩ := expectMark_next shape₂
  refine ⟨rest₂, by omega, ?_, shape₃⟩
  rw [typeRef, taken]
  simp only [read₁, read₂, bind, Except.bind]
  rfl

theorem typeRef_reads_or_bare {ref : TypeRef} (h : ref.WellFormed) :
    (∀ behind, NotNext (.punct .bang) behind → Reads typeRef id ref ref.kinds behind) ∧
      ((∀ inner, ref ≠ .nonNull inner) → ReadsBare ref) := by
  induction ref with
  | named name =>
    have bare := readsBare_named name
    exact ⟨fun _ other => bare.reads other, fun _ => bare⟩
  | list inner ih =>
    have bare := readsBare_list (ih h).1
    exact ⟨fun _ other => bare.reads other, fun _ => bare⟩
  | nonNull inner ih =>
    have bare := (ih h.1).2 h.2
    exact ⟨fun behind _ => bare.reads_nonNull behind, fun other => absurd rfl (other inner)⟩

theorem typeRef_reads {ref : TypeRef} (h : ref.WellFormed) {behind : List TokenKind}
    (other : NotNext (.punct .bang) behind) : Reads typeRef id ref ref.kinds behind :=
  (typeRef_reads_or_bare h).1 behind other

/-! ## Constants -/

theorem nameValue_of_not_reserved {name : String} (free : name ∉ reservedEnumValues) :
    nameValue name = .enum name := by
  simp only [reservedEnumValues, List.mem_cons, List.not_mem_nil, or_false, not_or] at free
  rw [nameValue, if_neg free.1, if_neg free.2.1, if_neg free.2.2]

theorem value_name_reads {name : String} {v : Value} (h : nameValue name = v)
    (behind : List TokenKind) : Reads value id v [.name name] behind := by
  intro ts shape
  obtain ⟨place, rest, rfl, shape'⟩ := kindsOf_eq_cons shape
  refine ⟨v, rest, ⟨by simp, ?_⟩, shape', rfl⟩
  rw [value, h]

/-- No constant begins with a closing mark. -/
theorem valueKinds_head (v : Value) (more : List TokenKind) :
    NotNext (.punct .bracketClose) (v.kinds ++ more) := by
  cases v <;> exact notNext_cons (by simp) _

/-- A name, a colon and a constant inside the braces of another constant. -/
def entry (ts : List Token) : Parse (String × Value) ts := do
  let ⟨(name, _), rest₁, h₁⟩ ← expectName ts
  let ⟨_, rest₂, h₂⟩ ← expectMark .colon rest₁
  let ⟨v, rest₃, h₃⟩ ← value rest₂
  have h := Nat.lt_trans h₃ h₂
  return ((name, v), ⟨rest₃, Nat.lt_trans h h₁⟩)

theorem entry_reads {name : String} {v : Value} {behind : List TokenKind}
    (h : ∀ behind, Reads value id v v.kinds behind) :
    Reads entry id (name, v) ([.name name, .punct .colon] ++ v.kinds) behind := by
  intro ts shape
  obtain ⟨place, rest₁, name_read, shape₁⟩ := expectName_next shape
  obtain ⟨place', rest₂, colon_read, shape₂⟩ := expectMark_next shape₁
  obtain ⟨found, rest₃, value_read, shape₃, rfl⟩ := h behind rest₂ shape₂
  exact ⟨(name, found), rest₃, name_read.bind fun _ => colon_read.bind fun _ =>
    value_read.bind fun _ => yields_ok, shape₃, rfl⟩

mutual

theorem value_reads : (v : Value) → v.WellFormed → ∀ behind, Reads value id v v.kinds behind
  | .int text, _, behind => by
    intro ts shape
    obtain ⟨place, rest, rfl, shape'⟩ := kindsOf_eq_cons shape
    exact ⟨.int text, rest, ⟨by simp, by rw [value]⟩, shape', rfl⟩
  | .float text, _, behind => by
    intro ts shape
    obtain ⟨place, rest, rfl, shape'⟩ := kindsOf_eq_cons shape
    exact ⟨.float text, rest, ⟨by simp, by rw [value]⟩, shape', rfl⟩
  | .string text, _, behind => by
    intro ts shape
    obtain ⟨place, rest, rfl, shape'⟩ := kindsOf_eq_cons shape
    exact ⟨.string text, rest, ⟨by simp, by rw [value]⟩, shape', rfl⟩
  | .boolean true, _, behind => value_name_reads rfl behind
  | .boolean false, _, behind => value_name_reads rfl behind
  | .null, _, behind => value_name_reads rfl behind
  | .enum name, h, behind => value_name_reads (nameValue_of_not_reserved h.2) behind
  | .list items, h, behind => by
    intro ts shape
    have each := values_read items h
    rw [Value.kinds, Value.itemKinds_eq_flatMap, List.cons_append, List.append_assoc] at shape
    obtain ⟨place, rest, rfl, shape₁⟩ := kindsOf_eq_cons shape
    obtain ⟨found, rest₁, read, shape₂, same⟩ := itemsUntil_reads (fun _ => True)
      (fun v _ more => valueKinds_head v more) (fun v member after _ => each v member after)
      (fun _ _ _ => trivial) trivial (Nat.le_refl rest.length) shape₁
    rw [List.map_id, List.map_id] at same
    refine ⟨.list found, rest₁, ?_, shape₂, by rw [same]⟩
    rw [value]
    exact read.bind fun _ => yields_ok
  | .object entries, h, behind => by
    intro ts shape
    have each := entries_read entries h
    rw [Value.kinds, Value.entryKinds_eq_flatMap, List.cons_append, List.append_assoc] at shape
    obtain ⟨place, rest, rfl, shape₁⟩ := kindsOf_eq_cons shape
    obtain ⟨found, rest₁, read, shape₂, same⟩ := itemsUntil_reads (fun _ => True)
      (fun e _ more => notNext_cons (by simp) _) (fun e member after _ => each e member after)
      (fun _ _ _ => trivial) trivial (Nat.le_refl rest.length) shape₁
    rw [List.map_id, List.map_id] at same
    refine ⟨.object found, rest₁, ?_, shape₂, by rw [same]⟩
    rw [value]
    exact read.bind fun _ => yields_ok

theorem values_read : (items : List Value) → Value.ItemsWellFormed items →
    ∀ v ∈ items, ∀ behind, Reads value id v v.kinds behind
  | [], _ => List.forall_mem_nil _
  | item :: items, h => by
    have first := value_reads item h.1
    have more := values_read items h.2
    exact List.forall_mem_cons.mpr ⟨first, more⟩

theorem entries_read : (entries : List (String × Value)) → Value.EntriesWellFormed entries →
    ∀ e ∈ entries, ∀ behind, Reads entry id e (Value.entryTokens e) behind
  | [], _ => List.forall_mem_nil _
  | (name, v) :: entries, h => by
    have first := value_reads v h.2.1
    have more := entries_read entries h.2.2
    exact List.forall_mem_cons.mpr ⟨fun behind => entry_reads first, more⟩

end

/-! ## Directives and arguments -/

theorem argument_tokens (arg : Argument) :
    Word.tokens arg.words = [.name arg.name, .punct .colon] ++ arg.value.kinds := by
  simp [Argument.words, Word.tokens, Word.kinds]

theorem argument_reads {arg : Argument} (h : arg.WellFormed) (behind : List TokenKind) :
    Reads argument id arg (Word.tokens arg.words) behind := by
  intro ts shape
  rw [argument_tokens] at shape
  obtain ⟨place, rest₁, name_read, shape₁⟩ := expectName_next shape
  obtain ⟨place', rest₂, colon_read, shape₂⟩ := expectMark_next shape₁
  obtain ⟨found, rest₃, value_read, shape₃, rfl⟩ := value_reads arg.value h.2 behind rest₂ shape₂
  exact ⟨_, rest₃, name_read.bind fun _ => colon_read.bind fun _ => value_read.bind fun _ =>
    yields_ok, shape₃, rfl⟩

theorem argument_begins (arg : Argument) : BeginsItem (Word.tokens arg.words) := by
  rw [argument_tokens]
  exact beginsItem_described none arg.name _

theorem directiveUse_tokens (use : DirectiveUse) :
    Word.tokens use.words = .punct .atSign :: .name use.name ::
      Word.tokens (Word.block .parenOpen .parenClose Argument.words use.args) := by
  simp [DirectiveUse.words, tokens_cons, Word.kinds]

theorem directiveUses_reads {uses : List DirectiveUse} (h : ∀ use ∈ uses, use.WellFormed)
    {behind : List TokenKind} (ends : EndsDirectives behind) :
    Reads directiveUses (List.map DirectiveUse.unplaced) uses
      (Word.tokens (uses.flatMap DirectiveUse.words)) behind := by
  induction uses with
  | nil =>
    intro ts shape
    have absent : takeMark? .atSign ts = none := takeMark?_none (shape ▸ ends.atSign)
    refine ⟨[], ts, ?_, shape, rfl⟩
    rw [directiveUses, absent]
    exact yields_ok
  | cons use uses ih =>
    intro ts shape
    obtain ⟨first, more⟩ := List.forall_mem_cons.mp h
    rw [List.flatMap_cons, tokens_append, directiveUse_tokens, List.append_assoc] at shape
    obtain ⟨place, rest₁, less, taken, shape₁⟩ := takeMark?_next shape
    obtain ⟨place', rest₂, name_read, shape₂⟩ := expectName_next shape₁
    have no_arguments : NotNext (.punct .parenOpen)
        (Word.tokens (uses.flatMap DirectiveUse.words) ++ behind) := by
      cases uses with
      | nil => exact ends.arguments
      | cons next uses =>
        rw [List.flatMap_cons, tokens_append, directiveUse_tokens]
        exact notNext_cons (by decide) _
    obtain ⟨args, rest₃, args_read, shape₃, same⟩ := optionalBlock_reads (.inl rfl)
      (fun arg _ => argument_begins arg) (fun arg member after _ => argument_reads (first.2 arg member) after)
      no_arguments rest₂ shape₂
    obtain ⟨found, rest₄, more_read, shape₄, same'⟩ := ih more rest₃ shape₃
    rw [List.map_id, List.map_id] at same
    refine ⟨⟨use.name, args, place⟩ :: found, rest₄, ?_, shape₄, ?_⟩
    · rw [directiveUses, taken]
      exact name_read.bind fun _ => args_read.bind fun _ => more_read.bind fun _ => yields_ok
    · rw [List.map_cons, List.map_cons, same', same]
      rfl

theorem default_tokens (v : Value) :
    Word.tokens (Word.default (some v)) = .punct .equals :: v.kinds := by
  simp [Word.default, Word.tokens, Word.kinds]

theorem defaultValue_reads {default : Option Value} (h : ∀ v, default = some v → v.WellFormed)
    {behind : List TokenKind} (ends : NotNext (.punct .equals) behind) :
    Reads defaultValue id default (Word.tokens (Word.default default)) behind := by
  intro ts shape
  cases default with
  | none =>
    have absent : takeMark? .equals ts = none := takeMark?_none (shape ▸ ends)
    refine ⟨none, ts, ?_, shape, rfl⟩
    rw [defaultValue, absent]
    exact yields_ok
  | some v =>
    rw [default_tokens] at shape
    obtain ⟨place, rest₁, less, taken, shape₁⟩ := takeMark?_next shape
    obtain ⟨found, rest₂, read, shape₂, rfl⟩ := value_reads v (h v rfl) behind rest₁ shape₁
    refine ⟨some found, rest₂, ?_, shape₂, rfl⟩
    rw [defaultValue, taken]
    exact read.bind fun _ => yields_ok

/-- Where directives may stand, the marks that go on with a type or a default do not. -/
theorem directives_head {uses : List DirectiveUse} {behind : List TokenKind} {mark : Punctuator}
    (different : mark ≠ .atSign) (other : NotNext (.punct mark) behind) :
    NotNext (.punct mark) (Word.tokens (uses.flatMap DirectiveUse.words) ++ behind) := by
  cases uses with
  | nil => exact other
  | cons use uses =>
    rw [List.flatMap_cons, tokens_append, directiveUse_tokens]
    exact notNext_cons (by simpa using different.symm) _

theorem inputValue_tokens (value : InputValue) :
    Word.tokens value.words = descriptionKinds value.description ++ .name value.name ::
      .punct .colon :: (value.ty.kinds ++ (Word.tokens (Word.default value.default) ++
        Word.tokens (value.directives.flatMap DirectiveUse.words))) := by
  simp only [InputValue.words, tokens_append, tokens_description, tokens_cons,
    Word.kinds, List.append_assoc, List.cons_append, List.nil_append]

theorem inputValue_begins (value : InputValue) : BeginsItem (Word.tokens value.words) := by
  rw [inputValue_tokens]
  exact beginsItem_described _ _ _

theorem inputValue_reads {value : InputValue} (h : value.WellFormed) {behind : List TokenKind}
    (ends : EndsItem behind) :
    Reads inputValue InputValue.unplaced value (Word.tokens value.words) behind := by
  intro ts shape
  rw [inputValue_tokens] at shape
  simp only [List.append_assoc, List.cons_append] at shape
  obtain ⟨rest₀, bound₀, described, shape₀⟩ := description_reads _ shape (by simp)
  obtain ⟨place, rest₁, name_read, shape₁⟩ := expectName_next shape₀
  obtain ⟨place', rest₂, colon_read, shape₂⟩ := expectMark_next shape₁
  have no_bang : NotNext (.punct .bang) (Word.tokens (Word.default value.default) ++
      (Word.tokens (value.directives.flatMap DirectiveUse.words) ++ behind)) := by
    cases value.default with
    | none => exact directives_head (by decide) ends.bang
    | some v =>
      rw [default_tokens]
      exact notNext_cons (by decide) _
  obtain ⟨_, rest₃, type_read, shape₃, rfl⟩ := typeRef_reads h.ty no_bang rest₂ shape₂
  obtain ⟨default, rest₄, default_read, shape₄, same⟩ := defaultValue_reads h.default
    (directives_head (by decide) ends.equals) rest₃ shape₃
  obtain ⟨directives, rest₅, directives_read, shape₅, same'⟩ :=
    directiveUses_reads h.directives ends.toEndsDirectives rest₄ shape₄
  refine ⟨⟨value.name, value.description, value.ty, default, directives, place⟩, rest₅, ?_, shape₅, ?_⟩
  · rw [inputValue, described]
    exact name_read.bind fun _ => colon_read.bind fun _ => type_read.bind fun _ =>
      default_read.bind fun _ => directives_read.bind fun _ => yields_ok
  · rw [id_eq, id_eq] at same
    simp only [InputValue.unplaced, same, same']

theorem inputValues_read {values : List InputValue} (h : ∀ value ∈ values, value.WellFormed)
    {openMark close : Punctuator} (closes : close = .parenClose ∨ close = .braceClose)
    {behind : List TokenKind} (other : NotNext (.punct openMark) behind) :
    Reads (optionalBlock openMark close inputValue) (List.map InputValue.unplaced) values
      (Word.tokens (Word.block openMark close InputValue.words values)) behind :=
  optionalBlock_reads closes (fun value _ => inputValue_begins value)
    (fun value member _ ends => inputValue_reads (h value member) ends) other

theorem field_tokens (field : Field) :
    Word.tokens field.words = descriptionKinds field.description ++ .name field.name ::
      (Word.tokens (Word.block .parenOpen .parenClose InputValue.words field.args) ++
        .punct .colon :: (field.ty.kinds ++
          Word.tokens (field.directives.flatMap DirectiveUse.words))) := by
  simp only [Field.words, tokens_append, tokens_description, tokens_cons,
    Word.kinds, List.append_assoc, List.cons_append, List.nil_append]

theorem field_begins (field : Field) : BeginsItem (Word.tokens field.words) := by
  rw [field_tokens]
  exact beginsItem_described _ _ _

theorem field_reads {declared : Field} (h : declared.WellFormed) {behind : List TokenKind}
    (ends : EndsItem behind) :
    Reads field Field.unplaced declared (Word.tokens declared.words) behind := by
  intro ts shape
  rw [field_tokens] at shape
  simp only [List.append_assoc, List.cons_append] at shape
  obtain ⟨rest₀, bound₀, described, shape₀⟩ := description_reads _ shape (by simp)
  obtain ⟨place, rest₁, name_read, shape₁⟩ := expectName_next shape₀
  obtain ⟨args, rest₂, args_read, shape₂, same⟩ :=
    inputValues_read h.args (.inl rfl) (notNext_cons (by decide) _) rest₁ shape₁
  obtain ⟨place', rest₃, colon_read, shape₃⟩ := expectMark_next shape₂
  obtain ⟨_, rest₄, type_read, shape₄, rfl⟩ :=
    typeRef_reads h.ty (directives_head (by decide) ends.bang) rest₃ shape₃
  obtain ⟨directives, rest₅, directives_read, shape₅, same'⟩ :=
    directiveUses_reads h.directives ends.toEndsDirectives rest₄ shape₄
  refine ⟨⟨declared.name, declared.description, args, declared.ty, directives, place⟩, rest₅, ?_, shape₅, ?_⟩
  · rw [field, described]
    exact name_read.bind fun _ => args_read.bind fun _ => colon_read.bind fun _ =>
      type_read.bind fun _ => directives_read.bind fun _ => yields_ok
  · simp only [Field.unplaced, same, same']

theorem enumValue_tokens (value : EnumValue) :
    Word.tokens value.words = descriptionKinds value.description ++ .name value.name ::
      Word.tokens (value.directives.flatMap DirectiveUse.words) := by
  simp only [EnumValue.words, tokens_append, tokens_description, tokens_cons,
    Word.kinds, List.append_assoc, List.cons_append, List.nil_append]

theorem enumValue_begins (value : EnumValue) : BeginsItem (Word.tokens value.words) := by
  rw [enumValue_tokens]
  exact beginsItem_described _ _ _

theorem enumValue_reads {value : EnumValue} (h : value.WellFormed) {behind : List TokenKind}
    (ends : EndsItem behind) :
    Reads enumValue EnumValue.unplaced value (Word.tokens value.words) behind := by
  intro ts shape
  rw [enumValue_tokens] at shape
  simp only [List.append_assoc, List.cons_append] at shape
  obtain ⟨rest₀, bound₀, described, shape₀⟩ := description_reads _ shape (by simp)
  obtain ⟨place, rest₁, name_read, shape₁⟩ := expectName_next shape₀
  obtain ⟨directives, rest₂, directives_read, shape₂, same⟩ :=
    directiveUses_reads h.directives ends.toEndsDirectives rest₁ shape₁
  have free : ¬ reservedEnumValues.contains value.name = true := by
    rw [List.contains_iff_mem]
    exact h.free
  refine ⟨⟨value.name, value.description, directives, place⟩, rest₂, ?_, shape₂, ?_⟩
  · rw [enumValue, described]
    refine name_read.bind fun _ => ?_
    dsimp only
    rw [if_neg free]
    exact directives_read.bind fun _ => yields_ok
  · simp only [EnumValue.unplaced, same]

theorem operationType_tokens (operation : OperationType) :
    Word.tokens operation.words =
      [.name operation.operation.keyword, .punct .colon, .name operation.typeName] := by
  simp [OperationType.words, Word.tokens, Word.kinds]

theorem operationType_begins (operation : OperationType) :
    BeginsItem (Word.tokens operation.words) := by
  rw [operationType_tokens]
  exact beginsItem_described none _ _

theorem operationType_reads (operation : OperationType) (behind : List TokenKind) :
    Reads operationType OperationType.unplaced operation (Word.tokens operation.words) behind := by
  intro ts shape
  rw [operationType_tokens] at shape
  obtain ⟨place, rest₁, word_read, shape₁⟩ := expectName_next shape
  obtain ⟨place', rest₂, colon_read, shape₂⟩ := expectMark_next shape₁
  obtain ⟨place'', rest₃, name_read, shape₃⟩ := expectName_next shape₂
  obtain ⟨kind, typeName, position⟩ := operation
  refine ⟨⟨kind, typeName, place⟩, rest₃, ?_, shape₃, rfl⟩
  rw [operationType]
  refine word_read.bind fun _ => ?_
  cases kind <;>
    exact colon_read.bind fun _ => name_read.bind fun _ => yields_ok

end SchemaCompiler.Grammar
