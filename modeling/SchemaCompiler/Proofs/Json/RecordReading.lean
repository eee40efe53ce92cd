import SchemaCompiler.Proofs.Json.ValueReading

/-!
Records read back. A record of known members takes the members of an object apart and puts them
together again; members that are left out get the value of a missing one. The same is said of a
record read from a value and of one read straight from a text.
-/

namespace SchemaCompiler.Json

variable {σ τ α β : Type}

/-! ## Single values and lists -/

theorem asList_map {decode : Json → Decoded α} {encode : α → Json} (as : List α)
    (h : ∀ a ∈ as, decode (encode a) = .ok a) : asList decode (.array (as.map encode)) = .ok as := by
  change (as.map encode).mapM decode = .ok as
  induction as with
  | nil => rfl
  | cons a as ih =>
    have tail := ih fun x hx => h x (List.mem_cons_of_mem _ hx)
    rw [List.map_cons, List.mapM_cons, h a List.mem_cons_self, tail]
    rfl

theorem asUInt32_toNat (n : UInt32) : asUInt32 (.number (.integer n.toNat)) = .ok n := by
  have small : 0 ≤ (n.toNat : Int) ∧ (n.toNat : Int) < 0x100000000 := by
    have := n.toNat_lt
    omega
  rw [asUInt32, if_pos small, Int.toNat_natCast, Nat.toUInt32, UInt32.ofNat_toNat]

theorem asOptional_of_object {decode : Json → Decoded α} {members : List (String × Json)} {a : α}
    (h : decode (.object members) = .ok a) : asOptional decode (.object members) = .ok (some a) := by
  rw [asOptional, h]
  · rfl
  · intro h
    cases h

/-! ## Records read from a value -/

namespace Slots

def Knows (slots : Slots σ α) (name : String) : Prop :=
  ∀ met j, (slots.put met name j).isSome

def Ignores (slots : Slots σ α) (name : String) : Prop :=
  ∀ met j, slots.put met name j = none

/-- The members, whose names are among `names`, are all stored and make up `a`. -/
structure Takes (slots : Slots σ α) (names : List String) (members : List (String × Json))
    (a : α) : Prop where
  named : ∀ m ∈ members, m.1 ∈ names
  knows : ∀ name ∈ names, slots.Knows name
  stored : ∃ met, slots.putAll slots.start members = .ok met ∧ slots.complete met = .ok a

theorem knows_slot (name : String) (decode : Json → Decoded α) (absent : Option α) :
    (slot name decode absent).Knows name := by
  intro met j
  simp only [slot, if_true, Option.isSome_some]

theorem ignores_slot {name other : String} (h : other ≠ name) (decode : Json → Decoded α)
    (absent : Option α) : (slot name decode absent).Ignores other := by
  intro met j
  simp only [slot, if_neg h]

theorem takes_slot (name : String) {decode : Json → Decoded α} (absent : Option α) {j : Json}
    {a : α} (h : decode j = .ok a) : (slot name decode absent).Takes [name] [(name, j)] a where
  named := by simp
  knows := by
    intro other hother
    rw [List.mem_singleton.1 hother]
    exact knows_slot name decode absent
  stored := by
    refine ⟨some a, ?_, rfl⟩
    have put : (slot name decode absent).put none name j = some (.ok (some a)) := by
      simp only [slot, if_true, h]
      rfl
    have start : (slot name decode absent).start = none := rfl
    rw [putAll, start, put]
    rfl

theorem takes_absent (name : String) (decode : Json → Decoded α) (a : α) :
    (slot name decode (some a)).Takes [name] [] a where
  named := by simp
  knows := by
    intro other hother
    rw [List.mem_singleton.1 hother]
    exact knows_slot name decode (some a)
  stored := ⟨none, rfl, rfl⟩

theorem knows_pair_left {left : Slots σ α} (right : Slots τ β) {name : String}
    (h : left.Knows name) : (pair left right).Knows name := by
  intro met j
  obtain ⟨result, hresult⟩ := Option.isSome_iff_exists.1 (h met.1 j)
  simp only [pair, hresult, Option.isSome_some]

theorem knows_pair_right {left : Slots σ α} {right : Slots τ β} {name : String}
    (ignores : left.Ignores name) (h : right.Knows name) : (pair left right).Knows name := by
  intro met j
  simp only [pair, ignores met.1 j, Option.isSome_map]
  exact h met.2 j

theorem putAll_pair_left {left : Slots σ α} {right : Slots τ β} {members : List (String × Json)}
    (knows : ∀ m ∈ members, left.Knows m.1) (met : σ × τ) (more : List (String × Json)) :
    (pair left right).putAll met (members ++ more) =
      (left.putAll met.1 members).bind fun s => (pair left right).putAll (s, met.2) more := by
  induction members generalizing met with
  | nil => rfl
  | cons m members ih =>
    obtain ⟨result, hresult⟩ :=
      Option.isSome_iff_exists.1 (knows m List.mem_cons_self met.1 m.2)
    have put : (pair left right).put met m.1 m.2 = some (result.map (·, met.2)) := by
      simp only [pair, hresult]
    rw [List.cons_append, putAll, put, putAll, hresult]
    cases result with
    | error fault => rfl
    | ok s => exact ih (fun x hx => knows x (List.mem_cons_of_mem _ hx)) (s, met.2)

theorem putAll_pair_right {left : Slots σ α} {right : Slots τ β} {members : List (String × Json)}
    (ignores : ∀ m ∈ members, left.Ignores m.1) (knows : ∀ m ∈ members, right.Knows m.1)
    (met : σ × τ) :
    (pair left right).putAll met members = (right.putAll met.2 members).map (met.1, ·) := by
  induction members generalizing met with
  | nil => rfl
  | cons m members ih =>
    obtain ⟨result, hresult⟩ :=
      Option.isSome_iff_exists.1 (knows m List.mem_cons_self met.2 m.2)
    have put : (pair left right).put met m.1 m.2 = some (result.map (met.1, ·)) := by
      simp only [pair, ignores m List.mem_cons_self met.1 m.2, hresult, Option.map_some]
    rw [putAll, put, putAll, hresult]
    cases result with
    | error fault => rfl
    | ok t =>
      exact ih (fun x hx => ignores x (List.mem_cons_of_mem _ hx))
        (fun x hx => knows x (List.mem_cons_of_mem _ hx)) (met.1, t)

/-- A member in front of others with other names. -/
theorem Takes.pair {name : String} {decode : Json → Decoded α} {absent : Option α}
    {own others : List (String × Json)} {right : Slots τ β} {names : List String} {a : α} {b : β}
    (first : (slot name decode absent).Takes [name] own a) (rest : right.Takes names others b)
    (apart : name ∉ names) :
    ((slot name decode absent).pair right).Takes (name :: names) (own ++ others) (a, b) where
  named := by
    intro m hm
    rcases List.mem_append.1 hm with hm | hm
    · rw [List.mem_singleton.1 (first.named m hm)]
      exact List.mem_cons_self
    · exact List.mem_cons_of_mem _ (rest.named m hm)
  knows := by
    intro other hother
    rcases List.mem_cons.1 hother with rfl | hother
    · exact knows_pair_left right (knows_slot other decode absent)
    · have ne : other ≠ name := fun h => apart (h ▸ hother)
      exact knows_pair_right (ignores_slot ne decode absent) (rest.knows other hother)
  stored := by
    obtain ⟨s, storedFirst, completeFirst⟩ := first.stored
    obtain ⟨t, storedRest, completeRest⟩ := rest.stored
    have ignores : ∀ m ∈ others, (slot name decode absent).Ignores m.1 := by
      intro m hm
      have ne : m.1 ≠ name := fun h => apart (h ▸ rest.named m hm)
      exact ignores_slot ne decode absent
    have knows : ∀ m ∈ own, (slot name decode absent).Knows m.1 := fun m hm =>
      first.knows m.1 (first.named m hm)
    refine ⟨(s, t), ?_, ?_⟩
    · rw [putAll_pair_left knows]
      change ((slot name decode absent).putAll (slot name decode absent).start own).bind _ = _
      rw [storedFirst]
      change (Slots.pair (slot name decode absent) right).putAll (s, right.start) others = _
      rw [putAll_pair_right ignores fun m hm => rest.knows m.1 (rest.named m hm), storedRest]
      rfl
    · change (do return (← (slot name decode absent).complete s, ← right.complete t)) = _
      rw [completeFirst, completeRest]
      rfl

theorem Takes.apart {slots : Slots σ α} {names : List String} {members : List (String × Json)}
    {a : α} (h : slots.Takes names members a) {name : String} (other : name ∉ names) :
    ∀ m ∈ members, m.1 ≠ name := by
  intro m hm heq
  exact other (heq ▸ h.named m hm)

theorem Takes.decode {slots : Slots σ α} {names : List String} {members : List (String × Json)}
    {a : α} (h : slots.Takes names members a) (name : String) (count : Nat) :
    slots.decode name count (.object members) = .ok a := by
  obtain ⟨met, stored, complete⟩ := h.stored
  change (slots.putAll slots.start members).bind slots.complete = _
  rw [stored]
  exact complete

end Slots

/-! ## Records read from a text -/

namespace Fields

open Reader (Reading Answers Reads Steps Stores)

/-- Records whose parts get the number of containers that may still be opened. -/
abbrev Limited (σ α : Type) := Nat → Fields σ α

def Knows (fields : Limited σ α) (name : String) : Prop :=
  ∀ depth met, ((fields depth).put met name).isSome

def Ignores (fields : Limited σ α) (name : String) : Prop :=
  ∀ depth met, (fields depth).put met name = none

/-- The members, whose names are among `names`, are all stored and make up `a`. -/
structure Takes (fields : Limited σ α) (names : List String) (members : List (String × Json))
    (a : α) : Prop where
  named : ∀ m ∈ members, m.1 ∈ names
  knows : ∀ name ∈ names, Knows fields name
  stored : ∃ met,
    (∀ depth,
      Steps (Stores (fields depth).member depth) (fields depth).start members met) ∧
    ∀ depth, (fields depth).complete met = .ok a

/-- One member, read by `read`. -/
def single (name : String) (read : Nat → Bytes → Except Stop (Reading α)) (absent : Option α) :
    Limited (Option α) α :=
  fun depth => field name [] (read depth) absent

/-- One member in front of others. -/
def join (left : Limited σ α) (right : Limited τ β) : Limited (σ × τ) (α × β) :=
  fun depth => pair (left depth) (right depth)

variable {read : Nat → Bytes → Except Stop (Reading α)} {absent : Option α} {name : String}

theorem put_single (depth : Nat) (met : Option α) :
    (single name read absent depth).put met name = some fun bytes =>
      if met.isSome then Reader.shapeFault (.duplicateField name) bytes
      else do
        let rest ← Reader.colon bytes
        let (a, rest) ← read depth rest
        return (some a, rest) := by
  simp only [single, field, true_or, if_true]

theorem ignores_single {other : String} (h : other ≠ name) :
    Ignores (single name read absent) other := by
  intro depth met
  simp [single, field, h]

/-- A member under any of its names. -/
theorem takes_field (name : String) (aliases : List String) (absent : Option α) {other : String}
    (known : other = name ∨ aliases.contains other) {j : Json} {a : α} (h : Reads read j a) :
    Takes (fun depth => field name aliases (read depth) absent) (name :: aliases) [(other, j)]
      a where
  named := by
    rw [List.forall_mem_singleton, List.mem_cons]
    exact known.imp_right List.contains_iff_mem.mp
  knows := by
    intro one member depth met
    rw [List.mem_cons, ← List.contains_iff_mem] at member
    simp only [field, if_pos member, Option.isSome_some]
  stored := by
    refine ⟨some a, fun depth => .cons (fun rest follows => ?_) (.nil _), fun _ => rfl⟩
    simp only [member, field, if_pos known]
    exact (h depth rest follows).bind_ok rfl

theorem takes_single (name : String) (absent : Option α) {j : Json} {a : α} (h : Reads read j a) :
    Takes (single name read absent) [name] [(name, j)] a :=
  takes_field name [] absent (.inl rfl) h

/-- A member that is left out. -/
theorem takes_missing (name : String) (read : Nat → Bytes → Except Stop (Reading α)) (a : α) :
    Takes (single name read (some a)) [name] [] a where
  named := List.forall_mem_nil _
  knows := by
    intro other hother depth met
    rw [List.mem_singleton.1 hother, put_single]
    rfl
  stored := ⟨none, fun _ => .nil _, fun _ => rfl⟩

theorem stores_join_left {left : Limited σ α} (right : Limited τ β) {depth : Nat} {s u : σ}
    {t : τ} {m : String × Json} (knows : Knows left m.1)
    (h : Stores (left depth).member depth s m u) :
    Stores (join left right depth).member depth (s, t) m (u, t) := by
  intro rest follows
  obtain ⟨readMember, hread⟩ := Option.isSome_iff_exists.1 (knows depth s)
  have put : (join left right depth).put (s, t) m.1 = some fun bytes => do
      let (s, rest) ← readMember bytes
      return ((s, t), rest) := by
    simp only [join, pair, hread]
  have one := h rest follows
  rw [member, hread] at one
  rw [member, put]
  exact one.bind_ok rfl

theorem stores_join_right {left : Limited σ α} {right : Limited τ β} {depth : Nat} {s : σ}
    {t u : τ} {m : String × Json} (ignores : Ignores left m.1) (knows : Knows right m.1)
    (h : Stores (right depth).member depth t m u) :
    Stores (join left right depth).member depth (s, t) m (s, u) := by
  intro rest follows
  obtain ⟨readMember, hread⟩ := Option.isSome_iff_exists.1 (knows depth t)
  have put : (join left right depth).put (s, t) m.1 = some fun bytes => do
      let (t, rest) ← readMember bytes
      return ((s, t), rest) := by
    simp only [join, pair, ignores depth s, hread, Option.map_some]
  have one := h rest follows
  rw [member, hread] at one
  rw [member, put]
  exact one.bind_ok rfl

theorem steps_join_right {left : Limited σ α} {right : Limited τ β} {depth : Nat} {s : σ}
    {t u : τ} {members : List (String × Json)} (ignores : ∀ m ∈ members, Ignores left m.1)
    (knows : ∀ m ∈ members, Knows right m.1)
    (h : Steps (Stores (right depth).member depth) t members u) :
    Steps (Stores (join left right depth).member depth) (s, t) members (s, u) := by
  induction h with
  | nil t => exact .nil _
  | cons first _ ih =>
    exact .cons
      (stores_join_right (ignores _ List.mem_cons_self) (knows _ List.mem_cons_self) first)
      (ih (fun x hx => ignores x (List.mem_cons_of_mem _ hx))
        fun x hx => knows x (List.mem_cons_of_mem _ hx))

theorem steps_join_left {left : Limited σ α} {right : Limited τ β} {depth : Nat} {s u : σ}
    {t v : τ} {own others : List (String × Json)} (knows : ∀ m ∈ own, Knows left m.1)
    (h : Steps (Stores (left depth).member depth) s own u)
    (more : Steps (Stores (join left right depth).member depth) (u, t) others (u, v)) :
    Steps (Stores (join left right depth).member depth) (s, t) (own ++ others) (u, v) := by
  induction h with
  | nil s => exact more
  | cons first _ ih =>
    exact .cons (stores_join_left right (knows _ List.mem_cons_self) first)
      (ih (fun x hx => knows x (List.mem_cons_of_mem _ hx)) more)

/-- A member in front of others with other names. -/
theorem Takes.join {own others : List (String × Json)} {right : Limited τ β}
    {names : List String} {a : α} {b : β}
    (first : Takes (single name read absent) [name] own a) (rest : Takes right names others b)
    (apart : name ∉ names) :
    Takes (Fields.join (single name read absent) right) (name :: names) (own ++ others) (a, b) where
  named := by
    intro m hm
    rcases List.mem_append.1 hm with hm | hm
    · rw [List.mem_singleton.1 (first.named m hm)]
      exact List.mem_cons_self
    · exact List.mem_cons_of_mem _ (rest.named m hm)
  knows := by
    intro other hother depth met
    rcases List.mem_cons.1 hother with rfl | hother
    · simp only [Fields.join, pair, put_single, Option.isSome_some]
    · have ne : other ≠ name := fun h => apart (h ▸ hother)
      simp only [Fields.join, pair, ignores_single ne depth met.1, Option.isSome_map]
      exact rest.knows other hother depth met.2
  stored := by
    obtain ⟨s, storedFirst, completeFirst⟩ := first.stored
    obtain ⟨t, storedRest, completeRest⟩ := rest.stored
    have ignores : ∀ m ∈ others, Ignores (single name read absent) m.1 := by
      intro m hm
      have ne : m.1 ≠ name := fun h => apart (h ▸ rest.named m hm)
      exact ignores_single ne
    refine ⟨(s, t), fun depth => ?_, fun depth => ?_⟩
    · exact steps_join_left (fun m hm => first.knows m.1 (first.named m hm)) (storedFirst depth)
        (steps_join_right ignores (fun m hm => rest.knows m.1 (rest.named m hm))
          (storedRest depth))
    · change (do return (← (single name read absent depth).complete s,
        ← (right depth).complete t)) = _
      rw [completeFirst depth, completeRest depth]
      rfl

theorem Takes.reads {fields : Limited σ α} {names : List String} {members : List (String × Json)}
    {a : α} (h : Takes fields names members a) (name : String) (count : Nat) :
    Reads (Fields.read fields name count) (.object members) a := by
  intro depth rest _
  obtain ⟨met, stored, complete⟩ := h.stored
  rw [bytes_object, List.cons_append, List.append_assoc]
  refine Answers.opened (fun depth => ?_) (Reader.closeObject_brace rest) depth
  refine (Reader.members_all (stored depth) rest).bind_ok ?_
  simp only [complete depth]
  rfl

end Fields

/-! ## Tagged values -/

theorem takeTag_others {tag : String} (decode : Json → Decoded τ) (t : τ)
    {members : List (String × Json)} (apart : ∀ m ∈ members, m.1 ≠ tag)
    (others : List (String × Json)) :
    takeTag tag decode (some t) others members = .ok (t, others.reverse ++ members) := by
  induction members generalizing others with
  | nil => rw [takeTag, List.append_nil]
  | cons m members ih =>
    have ne := apart m List.mem_cons_self
    rw [takeTag, if_neg ne, ih (fun x hx => apart x (List.mem_cons_of_mem _ hx)),
      List.reverse_cons, List.append_assoc]
    rfl

/-- A tag in front of members with other names. -/
theorem asTagged_cons {tag expected : String} {decode : Json → Decoded τ} {j : Json} {t : τ}
    (h : decode j = .ok t) {members : List (String × Json)} (apart : ∀ m ∈ members, m.1 ≠ tag) :
    asTagged tag expected decode (.object ((tag, j) :: members)) = .ok (t, .object members) := by
  change (takeTag tag decode none [] ((tag, j) :: members) >>= fun found =>
    .ok (found.1, Json.object found.2)) = _
  have noTag : ¬(none : Option τ).isSome = true := by simp
  rw [takeTag, if_pos rfl, if_neg noTag, h]
  change (takeTag tag decode (some t) [] members >>= _) = _
  rw [takeTag_others decode t apart]
  rfl

namespace Reader

theorem reads_variantName {variants : List (String × τ)} {name : String} {t : τ}
    (h : pickVariant variants name = .ok t) :
    Reads (fun _ => asVariantName variants) (.string name) t := by
  intro depth rest _
  refine .of_ok (Nat.zero_le depth) ?_
  have read := string_quoted name rest
  change asVariantName variants (quotedBytes name ++ rest) = _
  rw [quotedBytes_eq, List.cons_append, List.append_assoc]
  rw [List.cons_append, List.nil_append]
  have typed : typedString "variant identifier"
      (34 :: (name.toList.flatMap (fun c => Text.encode (escapedChar c)) ++ 34 :: rest)) =
        .ok (name, rest) := read
  rw [asVariantName, typed]
  simp only [bind, Except.bind, h]
  rfl

/-- What a tagged record does with a member: the tag is decoded, the others are kept. -/
def taggedMember (tag : String) (decode : Bytes → Except Stop (Reading τ)) (depth : Nat)
    (met : Option τ × List (String × Json)) (name : String) (bytes : Bytes) :
    Except Stop (Reading (Option τ × List (String × Json))) :=
  if name = tag then
    if met.1.isSome then shapeFault (.duplicateField tag) bytes
    else do
      let rest ← colon bytes
      let (t, rest) ← decode rest
      return ((some t, met.2), rest)
  else do
    let rest ← colon bytes
    let (j, rest) ← value depth rest
    return ((met.1, (name, j) :: met.2), rest)

theorem taggedMembers_eq (tag : String) (decode : Bytes → Except Stop (Reading τ)) (depth : Nat)
    (bytes : Bytes) :
    taggedMembers tag decode depth bytes =
      (members (taggedMember tag decode depth) (bytes.length + 1) true (none, []) bytes >>=
        fun ((t, others), rest) =>
          match t with
          | some t => .ok ((t, .object others.reverse), rest)
          | none => shapeFault (.missingField tag) rest) := rfl

theorem steps_tagged {tag : String} {decode : Bytes → Except Stop (Reading τ)} (depth : Nat)
    (t : τ) {members : List (String × Json)} (apart : ∀ m ∈ members, m.1 ≠ tag)
    (whole : ∀ m ∈ members, m.2.Whole) (others : List (String × Json)) :
    Steps (Stores (taggedMember tag decode depth) depth) (some t, others) members
      (some t, members.reverse ++ others) := by
  induction members generalizing others with
  | nil => exact .nil _
  | cons m members ih =>
    have more := ih (fun x hx => apart x (List.mem_cons_of_mem _ hx))
      (fun x hx => whole x (List.mem_cons_of_mem _ hx)) (m :: others)
    rw [List.reverse_cons, List.append_assoc]
    refine .cons (fun rest follows => ?_) more
    rw [taggedMember, if_neg (apart m List.mem_cons_self)]
    exact (reads_value (whole m List.mem_cons_self) depth rest follows).bind_ok rfl

/-- A tag in front of members with other names, straight from the text. -/
theorem reads_tagged (tag expected : String) {decode : Bytes → Except Stop (Reading τ)} {j : Json}
    {t : τ} (h : Reads (fun _ => decode) j t) {members : List (String × Json)}
    (apart : ∀ m ∈ members, m.1 ≠ tag) (whole : ∀ m ∈ members, m.2.Whole) :
    Reads (asTagged tag expected decode) (.object ((tag, j) :: members)) (t, .object members) := by
  intro depth rest _
  rw [bytes_object, List.cons_append, List.append_assoc]
  refine Answers.opened (fun depth => ?_) (closeObject_brace rest) depth
  have first : Stores (taggedMember tag decode depth) depth (none, []) (tag, j) (some t, []) := by
    intro rest follows
    rw [taggedMember, if_pos rfl]
    exact (h depth rest follows).bind_ok rfl
  have steps := Steps.cons first (steps_tagged depth t apart whole [])
  rw [List.append_nil] at steps
  rw [taggedMembers_eq]
  refine (members_all steps rest).bind_ok ?_
  simp only [List.reverse_reverse]

end Reader

end SchemaCompiler.Json
