import SchemaCompiler.Json.Fields
import SchemaCompiler.Proofs.Json.Scanning

/-!
A printed value reads back as itself when its depth is within the limit, and otherwise the reader
stops because the text is too deep. Every reader of a container is described by this one outcome.
-/

namespace SchemaCompiler.Json.Reader

variable {α β σ : Type}

/-! ## Outcomes under a limit -/

/-- The reader answers with `a` and leaves `rest` if the text fits the limit on open containers, and
stops as too deep if not. -/
def Answers (fits : Prop) (a : α) (rest : Bytes) (r : Except Stop (Reading α)) : Prop :=
  (fits ∧ r = .ok (a, rest)) ∨ (¬fits ∧ ∃ left, r = .error ⟨.text .tooDeep, left, true⟩)

namespace Answers

variable {p q : Prop} {a : α} {b : β} {rest left : Bytes} {r : Except Stop (Reading α)}

theorem of_ok (fits : p) (h : r = .ok (a, rest)) : Answers p a rest r := .inl ⟨fits, h⟩

theorem congr (h : Answers p a rest r) (iff : p ↔ q) : Answers q a rest r := by
  rcases h with ⟨hp, hr⟩ | ⟨hp, hr⟩
  · exact .inl ⟨iff.1 hp, hr⟩
  · exact .inr ⟨fun hq => hp (iff.2 hq), hr⟩

theorem bind {k : Reading α → Except Stop (Reading β)} (h : Answers p a rest r)
    (hk : Answers q b left (k (a, rest))) : Answers (p ∧ q) b left (r >>= k) := by
  rcases h with ⟨hp, hr⟩ | ⟨hp, stop, hr⟩
  · subst hr
    exact hk.congr ⟨fun hq => ⟨hp, hq⟩, And.right⟩
  · subst hr
    exact .inr ⟨fun h => hp h.1, stop, rfl⟩

theorem bind_ok {k : Reading α → Except Stop (Reading β)} (h : Answers p a rest r)
    (hk : k (a, rest) = .ok (b, left)) : Answers p b left (r >>= k) :=
  (h.bind (of_ok trivial hk)).congr (and_iff_left trivial)

theorem map (f : α → β) (h : Answers p a rest r) :
    Answers p (f a) rest (r.map fun (a, rest) => (f a, rest)) := by
  rcases h with ⟨hp, hr⟩ | ⟨hp, stop, hr⟩
  · subst hr
    exact .inl ⟨hp, rfl⟩
  · subst hr
    exact .inr ⟨hp, stop, rfl⟩

theorem finish {close : Bytes → Except Stop Unit × Bytes} (h : Answers p a rest r)
    (closes : close rest = (.ok (), left)) : Answers p a left (finish close r) := by
  rcases h with ⟨hp, hr⟩ | ⟨hp, stop, hr⟩
  · subst hr
    exact .inl ⟨hp, by rw [Reader.finish, closes]⟩
  · subst hr
    exact .inr ⟨hp, stop, rfl⟩

/-- A container takes one level of the limit. -/
theorem opened {close : Bytes → Except Stop Unit × Bytes}
    {inside : Nat → Bytes → Except Stop (Reading α)} {n : Nat} {text : Bytes}
    (h : ∀ depth, Answers (n ≤ depth) a rest (inside depth text))
    (closes : close rest = (.ok (), left)) (depth : Nat) :
    Answers (n + 1 ≤ depth) a left (opened depth text close inside) := by
  cases depth with
  | zero => exact .inr ⟨Nat.not_succ_le_zero n, text, rfl⟩
  | succ depth => exact ((h depth).finish closes).congr Nat.succ_le_succ_iff.symm

end Answers

theorem closeList_bracket (rest : Bytes) : closeList (93 :: rest) = (.ok (), rest) := rfl

theorem closeObject_brace (rest : Bytes) : closeObject (125 :: rest) = (.ok (), rest) := rfl

/-- The reader gives `a` for the value `j`, whatever follows the text of `j`. -/
def Reads (read : Nat → Bytes → Except Stop (Reading α)) (j : Json) (a : α) : Prop :=
  ∀ depth rest, Follows rest → Answers (j.depth ≤ depth) a rest (read depth (j.bytes ++ rest))

/-! ## Lists -/

/-- A first byte that begins a value. -/
def Begins (b : UInt8) : Prop := isBlank b = false ∧ b ≠ 93

theorem begins_of_isDigit {b : UInt8} (h : isDigit b = true) : Begins b := by
  simp only [isDigit, Bool.and_eq_true, decide_eq_true_eq, UInt8.le_iff_toNat_le] at h
  have low : 48 ≤ b.toNat := h.1
  have high : b.toNat ≤ 57 := h.2
  have other {c : UInt8} (hc : c.toNat < 48 ∨ 57 < c.toNat) : b ≠ c := by
    rintro rfl
    omega
  refine ⟨?_, other (by decide)⟩
  simp only [isBlank, Bool.or_eq_false_iff, beq_eq_false_iff_ne]
  exact ⟨⟨⟨other (by decide), other (by decide)⟩, other (by decide)⟩, other (by decide)⟩

theorem bytes_eq_cons_of_whole {j : Json} (whole : j.Whole) :
    ∃ b tail, j.bytes = b :: tail ∧ Begins b := by
  have begins : Begins 110 ∧ Begins 116 ∧ Begins 102 ∧ Begins 34 ∧ Begins 91 ∧ Begins 123 := by
    simp only [Begins]
    decide
  obtain ⟨hn, ht, hf, hquote, hbracket, hbrace⟩ := begins
  cases whole with
  | null => exact ⟨110, Text.encode "ull", by decide, hn⟩
  | boolean b =>
    cases b with
    | true => exact ⟨116, Text.encode "rue", by decide, ht⟩
    | false => exact ⟨102, Text.encode "alse", by decide, hf⟩
  | number h =>
    have nothing : Follows [] := trivial
    obtain ⟨b, digits, hbytes, hdigit, -⟩ := unsigned_repr h nothing
    exact ⟨b, digits, hbytes, begins_of_isDigit hdigit⟩
  | string s => exact ⟨34, _, quotedBytes_eq s, hquote⟩
  | array _ => exact ⟨91, _, bytes_array _, hbracket⟩
  | object _ => exact ⟨123, _, bytes_object _, hbrace⟩

theorem skipBlanks_cons {b : UInt8} (h : isBlank b = false) (rest : Bytes) :
    skipBlanks (b :: rest) = b :: rest := by
  rw [skipBlanks, List.dropWhile_cons, h]
  rfl

theorem nextItem_first {b : UInt8} (h : Begins b) (rest : Bytes) :
    nextItem true (b :: rest) = .ok (true, b :: rest) := by
  rw [nextItem, skipBlanks_cons h.1]
  split
  · next heq => cases heq
  · next heq => exact absurd (List.cons.inj heq).1 h.2
  · next heq => cases heq; rfl

theorem nextItem_more {b : UInt8} (h : Begins b) (rest : Bytes) :
    nextItem false (44 :: b :: rest) = .ok (true, b :: rest) := by
  have comma : skipBlanks (44 :: b :: rest) = 44 :: b :: rest := rfl
  rw [nextItem, comma]
  split
  · next heq => cases heq
  · next heq => exact absurd (List.cons.inj heq).1 (by decide)
  · next heq =>
    cases heq
    rw [if_neg Bool.false_ne_true, if_pos rfl, skipBlanks_cons h.1]
    split
    · next heq => cases heq
    · next heq => exact absurd (List.cons.inj heq).1 h.2
    · rfl

theorem length_le_intercalate {pieces : List Bytes} (nonempty : ∀ piece ∈ pieces, piece ≠ []) :
    pieces.length ≤ ([44].intercalate pieces).length := by
  cases pieces with
  | nil => exact Nat.zero_le _
  | cons piece pieces =>
    have first : 0 < piece.length := List.length_pos_iff.2 (nonempty piece List.mem_cons_self)
    have others : pieces.length ≤ (behindCommas pieces).length := by
      induction pieces with
      | nil => exact Nat.zero_le _
      | cons next pieces ih =>
        have := ih fun x hx => nonempty x (by
          rcases List.mem_cons.1 hx with rfl | hx
          · exact List.mem_cons_self
          · exact List.mem_cons_of_mem _ (List.mem_cons_of_mem _ hx))
        simp only [behindCommas, List.flatMap_cons, List.length_append, List.length_cons] at this ⊢
        omega
    rw [intercalate_cons_eq, List.length_append, List.length_cons]
    omega

section

variable {item : Bytes → Except Stop (Reading α)} {encode : α → Json} {depth : Nat}

/-- The items behind the first one, each with its comma. -/
theorem items_behind (as : List α) (whole : ∀ a ∈ as, (encode a).Whole)
    (reads : ∀ a ∈ as, ∀ rest, Follows rest →
      Answers ((encode a).depth ≤ depth) a rest (item ((encode a).bytes ++ rest)))
    (fuel : Nat) (enough : as.length < fuel) (rest : Bytes) :
    Answers (itemsDepth (as.map encode) ≤ depth) as (93 :: rest)
      (items item fuel false (behindCommas ((as.map encode).map bytes) ++ 93 :: rest)) := by
  induction as generalizing fuel with
  | nil =>
    obtain ⟨fuel, rfl⟩ := Nat.exists_eq_add_of_lt enough
    exact .of_ok (Nat.zero_le depth) rfl
  | cons a as ih =>
    obtain ⟨fuel, rfl⟩ : ∃ more, fuel = more + 1 := ⟨fuel - 1, by omega⟩
    obtain ⟨b, tail, hbytes, begins⟩ := bytes_eq_cons_of_whole (whole a List.mem_cons_self)
    have more := ih (fun x hx => whole x (List.mem_cons_of_mem _ hx))
      (fun x hx => reads x (List.mem_cons_of_mem _ hx)) fuel
      (Nat.lt_of_succ_lt_succ enough)
    have follows : Follows (behindCommas ((as.map encode).map bytes) ++ 93 :: rest) := by
      cases as with
      | nil => exact .bracket rest
      | cons => exact .comma _
    have one := reads a List.mem_cons_self _ follows
    have next : nextItem false (behindCommas (((a :: as).map encode).map bytes) ++ 93 :: rest) =
        .ok (true, (encode a).bytes ++ (behindCommas ((as.map encode).map bytes) ++ 93 :: rest)) := by
      simp only [List.map_cons, behindCommas, List.flatMap_cons, List.cons_append,
        List.append_assoc, hbytes]
      exact nextItem_more begins _
    rw [items, next]
    refine (one.bind ?_).congr itemsDepth_cons_le.symm
    exact more.bind_ok rfl

theorem items_all (as : List α) (whole : ∀ a ∈ as, (encode a).Whole)
    (reads : ∀ a ∈ as, ∀ rest, Follows rest →
      Answers ((encode a).depth ≤ depth) a rest (item ((encode a).bytes ++ rest)))
    (fuel : Nat) (enough : as.length < fuel) (rest : Bytes) :
    Answers (itemsDepth (as.map encode) ≤ depth) as (93 :: rest)
      (items item fuel true ([44].intercalate ((as.map encode).map bytes) ++ 93 :: rest)) := by
  obtain ⟨fuel, rfl⟩ : ∃ more, fuel = more + 1 := ⟨fuel - 1, by omega⟩
  cases as with
  | nil => exact .of_ok (Nat.zero_le depth) rfl
  | cons a as =>
    obtain ⟨b, tail, hbytes, begins⟩ := bytes_eq_cons_of_whole (whole a List.mem_cons_self)
    have more := items_behind as (fun x hx => whole x (List.mem_cons_of_mem _ hx))
      (fun x hx => reads x (List.mem_cons_of_mem _ hx)) fuel
      (Nat.lt_of_succ_lt_succ enough) rest
    have follows : Follows (behindCommas ((as.map encode).map bytes) ++ 93 :: rest) := by
      cases as with
      | nil => exact .bracket rest
      | cons => exact .comma _
    have one := reads a List.mem_cons_self _ follows
    have next : nextItem true
          ([44].intercalate (((a :: as).map encode).map bytes) ++ 93 :: rest) =
        .ok (true, (encode a).bytes ++ (behindCommas ((as.map encode).map bytes) ++ 93 :: rest)) := by
      rw [List.map_cons, List.map_cons, intercalate_cons_eq, List.append_assoc, hbytes]
      exact nextItem_first begins _
    rw [items, next]
    refine (one.bind ?_).congr itemsDepth_cons_le.symm
    exact more.bind_ok rfl

/-- A whole list whose items `item` reads. -/
theorem opened_items {item : Nat → Bytes → Except Stop (Reading α)} (as : List α)
    (whole : ∀ a ∈ as, (encode a).Whole) (reads : ∀ a ∈ as, Reads item (encode a) a)
    (depth : Nat) (rest : Bytes) :
    Answers ((array (as.map encode)).depth ≤ depth) as rest
      (opened depth ([44].intercalate ((as.map encode).map bytes) ++ 93 :: rest) closeList
        fun depth text => items (item depth) (text.length + 1) true text) := by
  refine Answers.opened (fun depth => ?_) (closeList_bracket rest) depth
  refine items_all as whole (fun a ha rest => reads a ha depth rest) _ ?_ rest
  have short : ((as.map encode).map bytes).length ≤
      ([44].intercalate ((as.map encode).map bytes)).length := by
    refine length_le_intercalate fun piece hpiece => ?_
    simp only [List.mem_map] at hpiece
    obtain ⟨j, ⟨a, ha, rfl⟩, rfl⟩ := hpiece
    obtain ⟨b, tail, hbytes, -⟩ := bytes_eq_cons_of_whole (whole a ha)
    rw [hbytes]
    exact List.cons_ne_nil b tail
  simp only [List.length_map] at short
  rw [List.length_append]
  omega

end

theorem reads_list {item : Nat → Bytes → Except Stop (Reading α)} {encode : α → Json}
    (as : List α) (whole : ∀ a ∈ as, (encode a).Whole)
    (reads : ∀ a ∈ as, Reads item (encode a) a) :
    Reads (asList item) (.array (as.map encode)) as := by
  intro depth rest _
  have h := opened_items as whole reads depth rest
  rw [bytes_array, List.cons_append, List.append_assoc]
  exact h

theorem reads_string (s : String) : Reads (fun _ => asString) (.string s) s := by
  intro depth rest _
  refine .of_ok (Nat.zero_le depth) ?_
  have h := string_quoted s rest
  change asString (quotedBytes s ++ rest) = _
  rw [quotedBytes_eq, List.cons_append, List.append_assoc]
  exact h

/-- A string that stands for something else. -/
theorem reads_decoded {decode : String → Decoded α} {s : String} {a : α} (h : decode s = .ok a) :
    Reads (fun _ => decoded decode) (.string s) a := by
  intro depth rest follows
  refine (reads_string s depth rest follows).bind_ok ?_
  simp only [h]
  rfl

/-! ## Objects -/

theorem nextName_first (name : String) (rest : Bytes) :
    nextName true (quotedBytes name ++ rest) = .ok (some name, rest) := by
  have read := string_quoted name rest
  rw [quotedBytes_eq, List.cons_append, List.append_assoc]
  change (string _ >>= fun found => .ok (some found.1, found.2)) = _
  rw [List.cons_append, List.nil_append, read]
  rfl

theorem nextName_more (name : String) (rest : Bytes) :
    nextName false (44 :: (quotedBytes name ++ rest)) = .ok (some name, rest) := by
  have read := string_quoted name rest
  rw [quotedBytes_eq, List.cons_append, List.append_assoc]
  change (string _ >>= fun found => .ok (some found.1, found.2)) = _
  rw [List.cons_append, List.nil_append, read]
  rfl

/-- Going from `s` to `t` through members, one step for each of them. -/
inductive Steps (step : σ → String × Json → σ → Prop) :
    σ → List (String × Json) → σ → Prop where
  | nil (s : σ) : Steps step s [] s
  | cons {s t u : σ} {m : String × Json} {ms : List (String × Json)}
      (first : step s m t) (more : Steps step t ms u) : Steps step s (m :: ms) u

/-- Reading the member `m` behind its name turns `s` into `t`. -/
def Stores (member : σ → String → Bytes → Except Stop (Reading σ)) (depth : Nat)
    (s : σ) (m : String × Json) (t : σ) : Prop :=
  ∀ rest, Follows rest →
    Answers (m.2.depth ≤ depth) t rest (member s m.1 (58 :: (m.2.bytes ++ rest)))

section

variable {member : σ → String → Bytes → Except Stop (Reading σ)} {depth : Nat}

theorem follows_members (ms : List (String × Json)) (rest : Bytes) :
    Follows (behindCommas (ms.map memberBytes) ++ 125 :: rest) := by
  cases ms with
  | nil => exact .brace rest
  | cons => exact .comma _

theorem members_behind {s t : σ} {ms : List (String × Json)}
    (steps : Steps (Stores member depth) s ms t) (fuel : Nat) (enough : ms.length < fuel)
    (rest : Bytes) :
    Answers (membersDepth ms ≤ depth) t (125 :: rest)
      (members member fuel false s (behindCommas (ms.map memberBytes) ++ 125 :: rest)) := by
  induction steps generalizing fuel with
  | nil s =>
    obtain ⟨fuel, rfl⟩ : ∃ more, fuel = more + 1 := ⟨fuel - 1, by omega⟩
    exact .of_ok (Nat.zero_le depth) rfl
  | @cons s t u m ms first more ih =>
    obtain ⟨fuel, rfl⟩ : ∃ more, fuel = more + 1 := ⟨fuel - 1, by omega⟩
    have tail := ih fuel (Nat.lt_of_succ_lt_succ enough)
    have one := first _ (follows_members ms rest)
    have next : nextName false (behindCommas ((m :: ms).map memberBytes) ++ 125 :: rest) =
        .ok (some m.1, 58 :: (m.2.bytes ++ (behindCommas (ms.map memberBytes) ++ 125 :: rest))) := by
      simp only [List.map_cons, behindCommas, List.flatMap_cons, memberBytes, List.cons_append,
        List.append_assoc]
      exact nextName_more _ _
    rw [members, next]
    exact (one.bind tail).congr membersDepth_cons_le.symm

theorem members_all {s t : σ} {ms : List (String × Json)}
    (steps : Steps (Stores member depth) s ms t) (rest : Bytes) :
    Answers (membersDepth ms ≤ depth) t (125 :: rest)
      (members member (([44].intercalate (ms.map memberBytes) ++ 125 :: rest).length + 1) true s
        ([44].intercalate (ms.map memberBytes) ++ 125 :: rest)) := by
  have enough : ms.length < ([44].intercalate (ms.map memberBytes) ++ 125 :: rest).length + 1 := by
    have short : (ms.map memberBytes).length ≤ ([44].intercalate (ms.map memberBytes)).length := by
      refine length_le_intercalate fun piece hpiece => ?_
      obtain ⟨m, -, rfl⟩ := List.mem_map.1 hpiece
      rw [memberBytes, quotedBytes_eq]
      exact List.cons_ne_nil 34 _
    rw [List.length_map] at short
    rw [List.length_append]
    omega
  revert enough
  generalize ([44].intercalate (ms.map memberBytes) ++ 125 :: rest).length = fuel
  intro enough
  cases steps with
  | nil => exact .of_ok (Nat.zero_le depth) rfl
  | @cons s t u m ms first more =>
    have tail := members_behind more fuel (Nat.lt_of_succ_lt_succ enough) rest
    have one := first _ (follows_members ms rest)
    have next : nextName true ([44].intercalate ((m :: ms).map memberBytes) ++ 125 :: rest) =
        .ok (some m.1, 58 :: (m.2.bytes ++ (behindCommas (ms.map memberBytes) ++ 125 :: rest))) := by
      rw [List.map_cons, intercalate_cons_eq]
      simp only [memberBytes, List.cons_append, List.append_assoc]
      exact nextName_first _ _
    rw [members, next]
    exact (one.bind tail).congr membersDepth_cons_le.symm

end

/-! ## Values -/

/-- Whatever the limit, a list is a container. -/
theorem value_list (depth : Nat) (text : Bytes) :
    value depth (91 :: text) =
      (opened depth text closeList fun depth text =>
        items (value depth) (text.length + 1) true text).map
          fun (items, rest) => (Json.array items, rest) := by
  cases depth <;> rfl

/-- What `value` does with a member: it is put in front of those before it. -/
def valueMember (depth : Nat) (done : List (String × Json)) (name : String) (text : Bytes) :
    Except Stop (Reading (List (String × Json))) := do
  let rest ← colon text
  let (v, rest) ← value depth rest
  return ((name, v) :: done, rest)

theorem value_object (depth : Nat) (text : Bytes) :
    value depth (123 :: text) =
      (opened depth text closeObject fun depth text =>
        members (valueMember depth) (text.length + 1) true [] text).map
          fun (members, rest) => (Json.object members.reverse, rest) := by
  cases depth <;> rfl

theorem steps_valueMember {ms : List (String × Json)} (depth : Nat)
    (reads : ∀ m ∈ ms, Reads value m.2 m.2) (done : List (String × Json)) :
    Steps (Stores (valueMember depth) depth) done ms (ms.reverse ++ done) := by
  induction ms generalizing done with
  | nil => exact .nil done
  | cons m ms ih =>
    have more := ih (fun x hx => reads x (List.mem_cons_of_mem _ hx)) (m :: done)
    rw [List.reverse_cons, List.append_assoc]
    refine .cons (fun rest follows => ?_) more
    exact (reads m List.mem_cons_self depth rest follows).bind_ok rfl

theorem value_quote (depth : Nat) (text : Bytes) :
    value depth (34 :: text) = (string text).map fun (s, rest) => (Json.string s, rest) := by
  cases depth <;> rfl

theorem value_digit {b : UInt8} (h : isDigit b = true) (depth : Nat) (text : Bytes) :
    value depth (b :: text) =
      (unsigned false (b :: text)).map fun (n, rest) => (Json.number n, rest) := by
  have noDigit : isDigit 110 = false ∧ isDigit 116 = false ∧ isDigit 102 = false ∧
      isDigit 34 = false ∧ isDigit 45 = false ∧ isDigit 91 = false ∧ isDigit 123 = false := by decide
  obtain ⟨hn, ht, hf, hquote, hminus, hbracket, hbrace⟩ := noDigit
  unfold value
  rw [skipBlanks_cons (begins_of_isDigit h).1]
  split
  · next heq => cases heq
  · next heq => cases heq; rw [hn] at h; cases h
  · next heq => cases heq; rw [ht] at h; cases h
  · next heq => cases heq; rw [hf] at h; cases h
  · next heq => cases heq; rw [hquote] at h; cases h
  · next heq => cases heq; rw [hminus] at h; cases h
  · next heq => cases heq; rw [hbracket] at h; cases h
  · next heq => cases heq; rw [hbrace] at h; cases h
  · next heq => cases heq; rw [if_pos h]

/-- A whole value reads back from its text. -/
theorem reads_value {j : Json} (whole : j.Whole) : Reads value j j := by
  induction whole with
  | null =>
    intro depth rest _
    have letters : null.bytes = [110, 117, 108, 108] := by decide
    rw [letters]
    exact .of_ok (Nat.zero_le depth) (by cases depth <;> rfl)
  | boolean b =>
    intro depth rest _
    have letters : (boolean true).bytes = [116, 114, 117, 101] ∧
        (boolean false).bytes = [102, 97, 108, 115, 101] := by decide
    cases b with
    | true =>
      rw [letters.1]
      exact .of_ok (Nat.zero_le depth) (by cases depth <;> rfl)
    | false =>
      rw [letters.2]
      exact .of_ok (Nat.zero_le depth) (by cases depth <;> rfl)
  | @number n fits =>
    intro depth rest follows
    obtain ⟨b, digits, hbytes, hdigit, read⟩ := unsigned_repr fits follows
    have hbytes' : (number (.integer n)).bytes = b :: digits := hbytes
    rw [hbytes', List.cons_append, value_digit hdigit, ← List.cons_append, read]
    exact .of_ok (Nat.zero_le depth) rfl
  | string s =>
    intro depth rest _
    have read := string_quoted s rest
    change Answers _ _ _ (value depth (quotedBytes s ++ rest))
    rw [quotedBytes_eq, List.cons_append, List.append_assoc, value_quote, List.cons_append,
      List.nil_append, read]
    exact .of_ok (Nat.zero_le depth) rfl
  | @array js whole ih =>
    intro depth rest _
    have h := @opened_items Json id value js whole ih depth rest
    rw [List.map_id] at h
    rw [bytes_array, List.cons_append, List.append_assoc, value_list]
    exact h.map Json.array
  | @object ms _ ih =>
    intro depth rest _
    have h := Answers.opened
      (fun depth => members_all (steps_valueMember depth ih []) rest) (closeObject_brace rest) depth
    rw [bytes_object, List.cons_append, List.append_assoc, value_object]
    have read := h.map fun members => Json.object members.reverse
    rw [List.append_nil, List.reverse_reverse] at read
    exact read

end SchemaCompiler.Json.Reader
