import SchemaCompiler.Commonmark.Inline
import SchemaCompiler.Proofs.Source.Lexemes

/-!
Names as markup.

A name is letters, digits and underscores. The underscores inside it are plain text, but those at
its front may open emphasis and those at its end close it: where a name has both, as many of them
are lost on either side as it has on the side that has fewer.
-/

namespace SchemaCompiler.Commonmark

open Lexer (isNameContinue isNameStart)

/-! ## Characters of names -/

theorem isNameContinue_cases {c : Char} (h : isNameContinue c = true) :
    c = '_' ∨ isAlphanumeric c = true := by
  rcases (isNameContinue_iff c).mp h with start | digit
  · by_cases mark : c = '_'
    · exact .inl mark
    · right
      have bounds := isNameStart_bounds start
      have other : c.toNat ≠ 95 := fun same => mark (Char.toNat_inj.mp same)
      simp only [isAlphanumeric, isLetter, isDigit, Char.le_def, UInt32.le_iff_toNat_le,
        Bool.or_eq_true, Bool.and_eq_true, decide_eq_true_eq]
      change ((97 ≤ c.toNat ∧ c.toNat ≤ 122) ∨ (65 ≤ c.toNat ∧ c.toNat ≤ 90)) ∨ _
      omega
  · right
    have bounds := Text.isDigit_bounds digit
    simp only [isAlphanumeric, isLetter, isDigit, Char.le_def, UInt32.le_iff_toNat_le,
      Bool.or_eq_true, Bool.and_eq_true, decide_eq_true_eq]
    exact .inr bounds

theorem isAlphanumeric_bounds {c : Char} (h : isAlphanumeric c = true) :
    48 ≤ c.toNat ∧ c.toNat ≤ 57 ∨ 65 ≤ c.toNat ∧ c.toNat ≤ 90 ∨ 97 ≤ c.toNat ∧ c.toNat ≤ 122 := by
  simp only [isAlphanumeric, isLetter, isDigit, Char.le_def, UInt32.le_iff_toNat_le,
    Bool.or_eq_true, Bool.and_eq_true, decide_eq_true_eq] at h
  rcases h with (lower | upper) | digit
  · exact .inr (.inr lower)
  · exact .inr (.inl upper)
  · exact .inl digit

theorem isSpecial_of_isAlphanumeric {c : Char} (h : isAlphanumeric c = true) :
    isSpecial c = false := by
  have others : "\\`<&*_[]! \t\n".toList.all (fun c => !isAlphanumeric c) = true := by decide
  rw [Bool.eq_false_iff]
  intro special
  have other := List.all_eq_true.mp others c (List.contains_iff_mem.mp special)
  rw [h] at other
  cases other

theorem isBlank_of_isAlphanumeric {c : Char} (h : isAlphanumeric c = true) :
    Text.isBlank c = false := by
  have bounds := isAlphanumeric_bounds h
  simp only [Text.isBlank, Bool.or_eq_false_iff, Bool.and_eq_false_iff, decide_eq_false_iff_not,
    beq_eq_false_iff_ne]
  omega

theorem isPunctuation_of_isAlphanumeric {c : Char} (h : isAlphanumeric c = true) :
    isPunctuation c = false := by
  have bounds := isAlphanumeric_bounds h
  rw [isPunctuation, if_pos (by omega)]
  simp only [isAsciiPunctuation, Bool.or_eq_false_iff, Bool.and_eq_false_iff,
    decide_eq_false_iff_not]
  omega

/-! ## Reading pieces -/

variable {definitions : List LinkDefinition} {before : Option Char} {front : List Piece}

theorem readPieces_step {fuel : Nat} {c : Char} {rest behind : List Char} {front' : List Piece}
    (h : readPiece definitions before front c rest = (front', behind)) :
    readPieces definitions (fuel + 1) before front (c :: rest) =
      readPieces definitions fuel (lastRead (c :: rest) behind) front' behind := by
  rw [readPieces, h]

theorem lastRead_append {run : List Char} (nonempty : run ≠ []) (behind : List Char) :
    lastRead (run ++ behind) behind = some (run.getLast nonempty) := by
  rw [lastRead, List.length_append, Nat.add_sub_cancel, List.take_left,
    List.getLast?_eq_some_getLast nonempty]

/-- Letters and digits are read up to the next character that may begin something. -/
theorem readPiece_word {c : Char} (word : isAlphanumeric c = true) (rest : List Char) :
    readPiece definitions before front c rest =
      (.done (.text (c :: rest.takeWhile (!isSpecial ·))) :: front,
        rest.dropWhile (!isSpecial ·)) := by
  have space : isSpace c = false := by
    have bounds := isAlphanumeric_bounds word
    have blank : c ≠ ' ' := by rintro rfl; contradiction
    have tab : c ≠ '\t' := by rintro rfl; contradiction
    simp [isSpace, blank, tab]
  rw [readPiece.eq_def]
  split
  all_goals first | exact absurd word (by decide) | skip
  rw [space]
  rfl

theorem readPiece_underscore (rest : List Char) :
    readPiece definitions before front '_' rest =
      (markRun before '_' (('_' :: rest).takeWhile (· == '_')).length
          (('_' :: rest).dropWhile (· == '_')).head? :: front,
        ('_' :: rest).dropWhile (· == '_')) := rfl

/-- A word in front of something else is one piece. -/
theorem readPieces_word {fuel : Nat} {word tail : List Char} (nonempty : word ≠ [])
    (letters : ∀ c ∈ word, isAlphanumeric c = true)
    (stops : ∀ c, tail.head? = some c → isSpecial c = true) :
    readPieces definitions (fuel + 1) before front (word ++ tail) =
      readPieces definitions fuel (some (word.getLast nonempty)) (.done (.text word) :: front)
        tail := by
  obtain ⟨c, rest, rfl⟩ := List.exists_cons_of_ne_nil nonempty
  have plain : ∀ d ∈ rest, (!isSpecial d) = true := fun d member => by
    rw [isSpecial_of_isAlphanumeric (letters d (List.mem_cons_of_mem _ member))]
    rfl
  have stopped : ∀ d, tail.head? = some d → (!isSpecial d) = false := fun d first => by
    rw [stops d first]
    rfl
  obtain ⟨taken, dropped⟩ := span_append plain stopped
  rw [← lastRead_append nonempty tail, List.cons_append]
  refine readPieces_step ?_
  rw [readPiece_word (letters c List.mem_cons_self), taken, dropped]

/-- Underscores in front of something else are one run. -/
theorem readPieces_underscores {fuel count : Nat} (pos : 0 < count) {tail : List Char}
    (stops : tail.head? ≠ some '_') :
    readPieces definitions (fuel + 1) before front (List.replicate count '_' ++ tail) =
      readPieces definitions fuel (some '_') (markRun before '_' count tail.head? :: front)
        tail := by
  obtain ⟨n, rfl⟩ := Nat.exists_eq_succ_of_ne_zero (Nat.pos_iff_ne_zero.mp pos)
  have nonempty : List.replicate (n + 1) '_' ≠ [] := List.cons_ne_nil _ _
  have marks : ∀ d ∈ List.replicate (n + 1) '_', (d == '_') = true := by simp
  have stopped : ∀ d, tail.head? = some d → (d == '_') = false := fun d first =>
    beq_eq_false_iff_ne.mpr fun same => stops (same ▸ first)
  obtain ⟨taken, dropped⟩ := span_append marks stopped
  have last : lastRead (List.replicate (n + 1) '_' ++ tail) tail = some '_' := by
    rw [lastRead_append nonempty, List.getLast_replicate]
  have piece : readPiece definitions before front '_' (List.replicate n '_' ++ tail) =
      (markRun before '_' (n + 1) tail.head? :: front, tail) := by
    rw [readPiece_underscore]
    change (markRun before '_' ((List.replicate (n + 1) '_' ++ tail).takeWhile (· == '_')).length
      ((List.replicate (n + 1) '_' ++ tail).dropWhile (· == '_')).head? :: front,
      (List.replicate (n + 1) '_' ++ tail).dropWhile (· == '_')) = _
    rw [taken, dropped, List.length_replicate]
  rw [← last]
  exact readPieces_step piece

/-- Neither letter nor digit is blank or punctuation, so a run of underscores faces it from
outside. -/
theorem markRun_between {c d : Char} (left : isAlphanumeric c = true)
    (right : isAlphanumeric d = true) (count : Nat) :
    markRun (some c) '_' count (some d) = .run '_' count count false false := by
  simp [markRun, isBlank_of_isAlphanumeric left, isBlank_of_isAlphanumeric right,
    isPunctuation_of_isAlphanumeric left, isPunctuation_of_isAlphanumeric right]

/-- What may stand in front of a name or behind it. -/
def IsEdge (c : Option Char) : Prop := c = none ∨ c = some '[' ∨ c = some ']'

theorem IsEdge.ne_underscore {edge : Option Char} (h : IsEdge edge) : edge ≠ some '_' := by
  rcases h with rfl | rfl | rfl <;> simp

theorem markRun_front {edge : Option Char} (h : IsEdge edge) {d : Char}
    (right : isAlphanumeric d = true) (count : Nat) :
    markRun edge '_' count (some d) = .run '_' count count true false := by
  rcases h with rfl | rfl | rfl <;>
    simp [markRun, isBlank_of_isAlphanumeric right, isPunctuation_of_isAlphanumeric right] <;>
    decide

theorem markRun_back {edge : Option Char} (h : IsEdge edge) {c : Char}
    (left : isAlphanumeric c = true) (count : Nat) :
    markRun (some c) '_' count edge = .run '_' count count false true := by
  rcases h with rfl | rfl | rfl <;>
    simp [markRun, isBlank_of_isAlphanumeric left, isPunctuation_of_isAlphanumeric left] <;>
    decide

/-! ## The middle of a name -/

/-- Words with underscores between them. -/
inductive Middle : List Char → Prop
  | word {word : List Char} (nonempty : word ≠ [])
    (letters : ∀ c ∈ word, isAlphanumeric c = true) : Middle word
  | more {word rest : List Char} {count : Nat} (nonempty : word ≠ [])
    (letters : ∀ c ∈ word, isAlphanumeric c = true) (pos : 0 < count) (later : Middle rest) :
    Middle (word ++ (List.replicate count '_' ++ rest))

/-- A piece that is plain text and pairs with nothing. -/
def Piece.IsPlain : Piece → Prop
  | .done (.text _) | .run _ _ _ false false => True
  | _ => False

theorem Middle.head {middle : List Char} (h : Middle middle) :
    ∃ c rest, middle = c :: rest ∧ isAlphanumeric c = true := by
  cases h with
  | word nonempty letters | more nonempty letters =>
    obtain ⟨c, rest, rfl⟩ := List.exists_cons_of_ne_nil nonempty
    exact ⟨c, _, rfl, letters c List.mem_cons_self⟩

/-- The middle of a name reads as plain pieces, whatever stands around it. -/
theorem Middle.reads {middle : List Char} (h : Middle middle) :
    ∃ pieces : List Piece, (∀ piece ∈ pieces, piece.IsPlain) ∧
      plainTexts (pieces.map Piece.inline) = middle ∧
      ∀ definitions before front tail fuel,
        (∀ c, tail.head? = some c → isSpecial c = true) → (middle ++ tail).length ≤ fuel →
          ∃ rest last, tail.length ≤ rest ∧ isAlphanumeric last = true ∧
            readPieces definitions fuel before front (middle ++ tail) =
              readPieces definitions rest (some last) (pieces.reverse ++ front) tail := by
  induction h with
  | @word word nonempty letters =>
    refine ⟨[.done (.text word)], by simp [Piece.IsPlain], ?_, ?_⟩
    · simp [Piece.inline, plainTexts, Inline.plainText]
    · intro definitions before front tail fuel stops enough
      obtain ⟨fuel, rfl⟩ : ∃ n, fuel = n + 1 := by
        refine Nat.exists_eq_succ_of_ne_zero fun zero => ?_
        rw [zero, List.length_append] at enough
        exact nonempty (List.eq_nil_of_length_eq_zero (by omega))
      refine ⟨fuel, _, ?_, letters _ (List.getLast_mem nonempty),
        readPieces_word nonempty letters stops⟩
      have := List.length_pos_iff.mpr nonempty
      rw [List.length_append] at enough
      omega
  | @more word rest count nonempty letters pos later ih =>
    obtain ⟨pieces, plain, text, reads⟩ := ih
    refine ⟨.done (.text word) :: .run '_' count count false false :: pieces, ?_, ?_, ?_⟩
    · simpa [Piece.IsPlain] using plain
    · simp [Piece.inline, plainTexts, Inline.plainText, text]
    · intro definitions before front tail fuel stops enough
      have long := List.length_pos_iff.mpr nonempty
      obtain ⟨fuel, rfl⟩ : ∃ n, fuel = n + 2 := by
        refine ⟨fuel - 2, ?_⟩
        simp only [List.length_append, List.length_replicate] at enough
        omega
      obtain ⟨d, more, head, right⟩ := later.head
      have inner : (rest ++ tail).head? = some d := by rw [head]; rfl
      have under : (rest ++ tail).head? ≠ some '_' := by
        rw [inner]
        rintro same
        cases same
        exact absurd right (by decide)
      have run : (List.replicate count '_' ++ (rest ++ tail)).head? = some '_' := by
        obtain ⟨n, rfl⟩ := Nat.exists_eq_succ_of_ne_zero (Nat.pos_iff_ne_zero.mp pos)
        rfl
      have special : ∀ c, (List.replicate count '_' ++ (rest ++ tail)).head? = some c →
          isSpecial c = true := by
        intro c first
        cases run.symm.trans first
        rfl
      have left := letters _ (List.getLast_mem nonempty)
      obtain ⟨left', last, enough', letter, read⟩ := reads definitions (some '_')
        (.run '_' count count false false :: .done (.text word) :: front) tail fuel stops (by
          simp only [List.length_append, List.length_replicate] at enough ⊢
          omega)
      refine ⟨left', last, enough', letter, ?_⟩
      -- the word, the underscores behind it, and the rest of the middle
      rw [List.append_assoc, List.append_assoc, readPieces_word nonempty letters special,
        readPieces_underscores pos under, inner, markRun_between left right, read]
      simp

theorem Middle.last {middle : List Char} (h : Middle middle) :
    ∃ front c, middle = front ++ [c] ∧ isAlphanumeric c = true := by
  induction h with
  | word nonempty letters =>
    exact ⟨_, _, (List.dropLast_concat_getLast nonempty).symm, letters _ (List.getLast_mem _)⟩
  | @more word rest count _ _ _ _ ih =>
    obtain ⟨front, c, rfl, letter⟩ := ih
    exact ⟨word ++ (List.replicate count '_' ++ front), c, by simp, letter⟩

theorem Middle.cons {middle : List Char} (h : Middle middle) {c : Char}
    (letter : isAlphanumeric c = true) : Middle (c :: middle) := by
  cases h with
  | word _ letters =>
    exact .word (List.cons_ne_nil _ _) (List.forall_mem_cons.mpr ⟨letter, letters⟩)
  | more _ letters pos later =>
    exact .more (List.cons_ne_nil c _) (List.forall_mem_cons.mpr ⟨letter, letters⟩) pos later

/-! ## Names -/

/-- A name that is more than underscores has a middle. -/
theorem exists_middle {name : List Char} (h : ∀ c ∈ name, isNameContinue c = true)
    (more : name.all (· == '_') = false) :
    ∃ front middle back, Middle middle ∧
      name = List.replicate front '_' ++ (middle ++ List.replicate back '_') := by
  induction name with
  | nil => cases more
  | cons c name ih =>
    rw [List.forall_mem_cons] at h
    rcases isNameContinue_cases h.1 with rfl | letter
    · obtain ⟨front, middle, back, good, rfl⟩ := ih h.2 (by simpa using more)
      exact ⟨front + 1, middle, back, good, rfl⟩
    · cases rest : name.all (· == '_') with
      | true =>
        have same : name = List.replicate name.length '_' :=
          List.eq_replicate_iff.mpr ⟨rfl, fun d member =>
            beq_iff_eq.mp (List.all_eq_true.mp rest d member)⟩
        refine ⟨0, [c], name.length, .word (List.cons_ne_nil _ _) (by simpa using letter), ?_⟩
        rw [← same]
        rfl
      | false =>
        obtain ⟨front, middle, back, good, same⟩ := ih h.2 rest
        refine ⟨0, c :: (List.replicate front '_' ++ middle), back, ?_, by simp [same]⟩
        rcases Nat.eq_zero_or_pos front with rfl | pos
        · exact good.cons letter
        · exact .more (List.cons_ne_nil c []) (by simpa using letter) pos good

/-- How many underscores a name loses at each end. -/
def frameWidth (name : List Char) : Nat :=
  if name.all (· == '_') then 0
  else min (name.takeWhile (· == '_')).length (name.reverse.takeWhile (· == '_')).length

/-- A name without the underscores that it loses. -/
def unframed (name : List Char) : List Char :=
  (name.drop (frameWidth name)).take (name.length - 2 * frameWidth name)

/-- Underscores stand at both ends of something else. -/
def IsFramed (name : List Char) : Prop :=
  name.head? = some '_' ∧ name.getLast? = some '_' ∧ ∃ c ∈ name, c ≠ '_'

theorem takeWhile_length_pos_iff (name : List Char) :
    0 < (name.takeWhile (· == '_')).length ↔ name.head? = some '_' := by
  cases name with
  | nil => simp
  | cons c name =>
    rw [List.takeWhile_cons, List.head?_cons]
    by_cases same : c = '_' <;> simp [same]

theorem frameWidth_pos_iff (name : List Char) : 0 < frameWidth name ↔ IsFramed name := by
  have mixed : name.all (· == '_') = false ↔ ∃ c ∈ name, c ≠ '_' := by simp
  rw [frameWidth, IsFramed, ← takeWhile_length_pos_iff, ← List.head?_reverse,
    ← takeWhile_length_pos_iff, ← mixed]
  split
  · rename_i all
    simp [all]
  · rename_i some
    rw [Bool.not_eq_true] at some
    simp only [some, and_true]
    exact Nat.lt_min

theorem frameWidth_le (name : List Char) : frameWidth name ≤ name.length := by
  rw [frameWidth]
  split
  · exact Nat.zero_le _
  · exact Nat.le_trans (Nat.min_le_left _ _) (List.takeWhile_prefix _).length_le

/-- A name keeps all its underscores unless they frame it. -/
theorem unframed_eq_self_iff (name : List Char) : unframed name = name ↔ ¬ IsFramed name := by
  rw [← frameWidth_pos_iff, Nat.not_lt, Nat.le_zero, unframed]
  constructor
  · intro same
    have lengths := congrArg List.length same
    rw [List.length_take, List.length_drop] at lengths
    have := frameWidth_le name
    omega
  · intro zero
    rw [zero, List.drop_zero, Nat.mul_zero, Nat.sub_zero, List.take_length]

theorem takeWhile_underscores {c : Char} (letter : isAlphanumeric c = true) (count : Nat)
    (rest : List Char) :
    (List.replicate count '_' ++ c :: rest).takeWhile (· == '_') = List.replicate count '_' := by
  refine (span_append (by simp) fun d first => ?_).1
  cases first
  rw [beq_eq_false_iff_ne]
  rintro rfl
  exact absurd letter (by decide)

theorem frameWidth_eq {middle : List Char} (h : Middle middle) (front back : Nat) :
    frameWidth (List.replicate front '_' ++ (middle ++ List.replicate back '_')) =
      min front back := by
  obtain ⟨c, rest, head, first⟩ := h.head
  obtain ⟨rest', d, tail, last⟩ := h.last
  have more : (List.replicate front '_' ++ (middle ++ List.replicate back '_')).all (· == '_') =
      false := by
    have other : c ≠ '_' := by rintro rfl; exact absurd first (by decide)
    rw [head, List.all_eq_false]
    exact ⟨c, by simp, by simpa using other⟩
  have fronts : ((List.replicate front '_' ++ (middle ++ List.replicate back '_')).takeWhile
      (· == '_')).length = front := by
    rw [head, List.cons_append, takeWhile_underscores first, List.length_replicate]
  have backs : ((List.replicate front '_' ++ (middle ++ List.replicate back '_')).reverse.takeWhile
      (· == '_')).length = back := by
    rw [tail]
    simp only [List.reverse_append, List.reverse_replicate, List.reverse_cons, List.nil_append,
      List.append_assoc, List.cons_append]
    rw [takeWhile_underscores last, List.length_replicate]
  rw [frameWidth, more, fronts, backs]
  rfl

theorem unframed_eq {middle : List Char} (h : Middle middle) (front back : Nat) :
    unframed (List.replicate front '_' ++ (middle ++ List.replicate back '_')) =
      List.replicate (front - min front back) '_' ++
        (middle ++ List.replicate (back - min front back) '_') := by
  rw [unframed, frameWidth_eq h]
  generalize hk : min front back = k
  obtain ⟨i, rfl⟩ : ∃ i, front = k + i := ⟨front - k, by omega⟩
  obtain ⟨j, rfl⟩ : ∃ j, back = j + k := ⟨back - k, by omega⟩
  have split : List.replicate (k + i) '_' ++ (middle ++ List.replicate (j + k) '_') =
      List.replicate k '_' ++ (List.replicate i '_' ++ (middle ++ List.replicate j '_') ++
        List.replicate k '_') := by
    simp [← List.replicate_append_replicate]
  rw [Nat.add_sub_cancel_left, Nat.add_sub_cancel, split, List.drop_left' List.length_replicate]
  refine List.take_left' ?_
  simp only [List.length_append, List.length_replicate]
  omega

/-! ## Pairing the ends of a name -/

theorem plainTexts_append (front back : List Inline) :
    plainTexts (front ++ back) = plainTexts front ++ plainTexts back := by
  induction front with
  | nil => rfl
  | cons inline front ih => simp only [List.cons_append, plainTexts, ih, List.append_assoc]

theorem plainTexts_wrap (count : Nat) (children : List Inline) :
    plainTexts (wrap count children) = plainTexts children := by
  fun_induction wrap count children with
  | case1 => rfl
  | case2 => simp [plainTexts, Inline.plainText]
  | case3 count children ih =>
    rw [ih]
    simp [plainTexts, Inline.plainText]

/-- No run among the pieces opens anything. -/
def Piece.OpensNothing : Piece → Prop
  | .run _ _ _ opens _ => opens = false
  | _ => True

theorem Piece.IsPlain.opensNothing {piece : Piece} (h : piece.IsPlain) : piece.OpensNothing := by
  cases piece with
  | run mark length count opens closes =>
    cases opens with
    | false => rfl
    | true => exact h.elim
  | _ => trivial

theorem findOpener?_none {pieces : List Piece} (h : ∀ piece ∈ pieces, piece.OpensNothing)
    (mark : Char) (length : Nat) (both : Bool) (behind : List Piece) :
    findOpener? mark length both behind pieces = none := by
  induction pieces generalizing behind with
  | nil => rfl
  | cons piece pieces ih =>
    rw [List.forall_mem_cons] at h
    cases piece with
    | run mark' length' count opens closes =>
      obtain rfl : opens = false := h.1
      rw [findOpener?, if_neg (by simp)]
      exact ih h.2 _
    | _ => exact ih h.2 _

/-- The run in front of plain pieces is the one that is found. -/
theorem findOpener?_front {pieces : List Piece} (h : ∀ piece ∈ pieces, piece.OpensNothing)
    (count length : Nat) (behind front : List Piece) :
    findOpener? '_' length false behind
        (pieces ++ .run '_' count count true false :: front) =
      some (pieces.reverse ++ behind, count, count, false, front) := by
  induction pieces generalizing behind with
  | nil =>
    rw [List.nil_append, findOpener?, if_pos (by simp [pairs])]
    rfl
  | cons piece pieces ih =>
    rw [List.forall_mem_cons] at h
    rw [List.reverse_cons, List.append_assoc, List.cons_append]
    cases piece with
    | run mark' length' count' opens closes =>
      obtain rfl : opens = false := h.1
      rw [findOpener?, if_neg (by simp)]
      exact ih h.2 _
    | _ => exact ih h.2 _

theorem foldl_addPiece_plain {pieces : List Piece} (h : ∀ piece ∈ pieces, piece.IsPlain)
    (front : List Piece) : pieces.foldl addPiece front = pieces.reverse ++ front := by
  induction pieces generalizing front with
  | nil => rfl
  | cons piece pieces ih =>
    rw [List.forall_mem_cons] at h
    have added : addPiece front piece = piece :: front := by
      cases piece with
      | run mark length count opens closes =>
        cases closes with
        | false => rfl
        | true => cases opens <;> exact h.1.elim
      | _ => rfl
    rw [List.foldl_cons, added, ih h.2, List.reverse_cons, List.append_assoc]
    rfl

/-- The underscores in front of a name, or those behind it, as a piece unless there are none. -/
def endRun (opens : Bool) (count : Nat) : List Piece :=
  if count = 0 then [] else [.run '_' count count opens (!opens)]

theorem endRun_of_pos {count : Nat} (pos : 0 < count) (opens : Bool) :
    endRun opens count = [.run '_' count count opens (!opens)] :=
  if_neg (Nat.pos_iff_ne_zero.mp pos)

/-- The text of pieces that are kept back to front. -/
def textOf (pieces : List Piece) : List Char := plainTexts (pieces.map Piece.inline).reverse

theorem textOf_append (inner outer : List Piece) :
    textOf (inner ++ outer) = textOf outer ++ textOf inner := by
  simp [textOf, plainTexts_append]

theorem textOf_reverse (pieces : List Piece) :
    textOf pieces.reverse = plainTexts (pieces.map Piece.inline) := by
  rw [textOf, List.map_reverse, List.reverse_reverse]

theorem textOf_done (inlines : List Inline) :
    textOf (inlines.map Piece.done).reverse = plainTexts inlines := by
  rw [textOf_reverse, List.map_map]
  congr 1
  exact List.map_id inlines

theorem textOf_endRun (count : Nat) : textOf (endRun true count) = List.replicate count '_' := by
  rw [endRun]
  split
  · subst count
    rfl
  · simp [textOf, Piece.inline, plainTexts, Inline.plainText]

theorem textOf_text (cs : List Char) : textOf [.done (.text cs)] = cs := by
  simp [textOf, Piece.inline, plainTexts, Inline.plainText]

/-- A closing run behind which nothing is open stays as it is. -/
theorem textOf_closeRun_alone {pieces : List Piece}
    (h : ∀ piece ∈ pieces, piece.OpensNothing) {fuel : Nat} (pos : 0 < fuel)
    (length count : Nat) :
    textOf (closeRun fuel '_' length count false pieces) =
      textOf pieces ++ List.replicate count '_' := by
  obtain ⟨fuel, rfl⟩ := Nat.exists_eq_succ_of_ne_zero (Nat.pos_iff_ne_zero.mp pos)
  rw [closeRun, findOpener?_none h]
  change textOf ([.done (.text (List.replicate count '_'))] ++ pieces) = _
  rw [textOf_append, textOf_text]

/-- A closing run takes as many underscores off the opening one as there are on both sides. -/
theorem textOf_closeRun {pieces : List Piece} (h : ∀ piece ∈ pieces, piece.OpensNothing)
    (front back : Nat) :
    textOf (closeRun (back + 1) '_' back back false (pieces ++ endRun true front)) =
      List.replicate (front - min front back) '_' ++
        (textOf pieces ++ List.replicate (back - min front back) '_') := by
  rcases Nat.eq_zero_or_pos front with rfl | pos
  · rw [endRun, if_pos rfl, List.append_nil, textOf_closeRun_alone h (Nat.succ_pos back)]
    simp
  let wrapped : List Piece := (wrap (min back front) (pieces.reverse.map Piece.inline)).map .done
  have text : textOf wrapped.reverse = textOf pieces := by
    rw [textOf_done, plainTexts_wrap, textOf, List.map_reverse]
  have done : ∀ piece ∈ wrapped.reverse, piece.OpensNothing := by
    intro piece member
    obtain ⟨inline, -, rfl⟩ := List.mem_map.mp (List.mem_reverse.mp member)
    trivial
  rw [endRun_of_pos pos, Bool.not_true, closeRun, findOpener?_front h, List.append_nil,
    Nat.min_comm]
  change textOf (if min back front < back then
      closeRun back '_' back (back - min back front) false (wrapped.reverse ++
        if min back front < front then [.run '_' front (front - min back front) true false] else [])
    else wrapped.reverse ++
      if min back front < front then [.run '_' front (front - min back front) true false]
      else []) = _
  split
  · -- the opening run is used up, so what is left of the closing one finds nothing open
    rw [if_neg (by omega), List.append_nil, textOf_closeRun_alone done (by omega), text,
      show front - min back front = 0 by omega]
    rfl
  · rw [textOf_append, text, show back - min back front = 0 by omega, List.replicate_zero,
      List.append_nil]
    congr 1
    split
    · simp [textOf, Piece.inline, plainTexts, Inline.plainText]
    · rw [show front - min back front = 0 by omega]
      rfl

/-- What is left of a name once its ends are paired. -/
theorem plainTexts_settle {pieces : List Piece} (h : ∀ piece ∈ pieces, piece.IsPlain)
    (front back : Nat) :
    plainTexts (settle (endRun true front ++ (pieces ++ endRun false back))) =
      List.replicate (front - min front back) '_' ++
        (plainTexts (pieces.map Piece.inline) ++
          List.replicate (back - min front back) '_') := by
  have opensNothing : ∀ piece ∈ pieces.reverse, piece.OpensNothing := fun piece member =>
    (h piece (List.mem_reverse.mp member)).opensNothing
  have opened : (endRun true front).foldl addPiece [] = endRun true front := by
    rw [endRun]
    split <;> rfl
  rw [settle, List.foldl_append, List.foldl_append, opened, foldl_addPiece_plain h,
    ← textOf_reverse]
  change textOf ((endRun false back).foldl addPiece (pieces.reverse ++ endRun true front)) = _
  rcases Nat.eq_zero_or_pos back with rfl | pos
  · change textOf (pieces.reverse ++ endRun true front) = _
    rw [textOf_append, textOf_endRun]
    simp
  · rw [endRun_of_pos pos]
    exact textOf_closeRun opensNothing front back

/-! ## Reading names -/

/-- No bracket is left among the pieces. -/
def Piece.IsBracket : Piece → Bool
  | .bracket .. => true
  | _ => false

theorem Piece.IsPlain.isBracket {piece : Piece} (h : piece.IsPlain) : piece.IsBracket = false := by
  cases piece with
  | bracket => exact h.elim
  | _ => rfl

theorem isBracket_endRun {piece : Piece} {opens : Bool} {count : Nat}
    (h : piece ∈ endRun opens count) : piece.IsBracket = false := by
  rw [endRun] at h
  split at h
  · cases h
  · rw [List.mem_singleton.mp h]
    rfl

theorem isSpecial_of_isEdge {tail : List Char} (h : IsEdge tail.head?) :
    ∀ c, tail.head? = some c → isSpecial c = true := by
  intro c first
  rw [first] at h
  rcases h with h | h | h <;> cases h <;> rfl

/-- The text `name` reads as pieces that settle to `inlines`, wherever it stands between edges. -/
def ReadsAs (name : List Char) (inlines : List Inline) : Prop :=
  ∀ definitions before front tail fuel, IsEdge before → IsEdge tail.head? →
    (name ++ tail).length ≤ fuel → ∃ (pieces : List Piece) (rest : Nat) (last : Option Char),
      (∀ piece ∈ pieces, piece.IsBracket = false) ∧ settle pieces = inlines ∧
      tail.length ≤ rest ∧
      readPieces definitions fuel before front (name ++ tail) =
        readPieces definitions rest last (pieces.reverse ++ front) tail

theorem ReadsAs.readInlines_eq {name : List Char} {inlines : List Inline}
    (h : ReadsAs name inlines) (definitions : List LinkDefinition) :
    readInlines definitions name = inlines := by
  obtain ⟨pieces, rest, last, -, settled, -, read⟩ :=
    h definitions none [] [] name.length (.inl rfl) (.inl rfl) (by simp)
  rw [List.append_nil, List.append_nil] at read
  rw [readInlines, read, readPieces, List.reverse_reverse, settled]

theorem readsAs_underscores {count : Nat} (pos : 0 < count) :
    ReadsAs (List.replicate count '_') [.text (List.replicate count '_')] := by
  intro definitions before front tail fuel left right enough
  obtain ⟨fuel, rfl⟩ : ∃ n, fuel = n + 1 := by
    refine ⟨fuel - 1, ?_⟩
    rw [List.length_append, List.length_replicate] at enough
    omega
  refine ⟨[markRun before '_' count tail.head?], fuel, some '_', ?_, ?_, ?_, ?_⟩
  · intro piece member
    rw [List.mem_singleton.mp member]
    rfl
  · -- the run stands alone, so it is text whether it may open and close or not
    rcases left with rfl | rfl | rfl <;> rcases right with h | h | h <;> rw [h] <;> rfl
  · rw [List.length_append, List.length_replicate] at enough
    omega
  · exact readPieces_underscores pos right.ne_underscore

/-- The underscores at one end of a name, if there are any, are one run. -/
theorem readPieces_endRun (definitions : List LinkDefinition) (before : Option Char)
    (front : List Piece) (opens : Bool) {count fuel : Nat} {tail : List Char}
    (stops : tail.head? ≠ some '_')
    (faces : markRun before '_' count tail.head? = .run '_' count count opens (!opens))
    (enough : (List.replicate count '_' ++ tail).length ≤ fuel) :
    ∃ fuel' before', tail.length ≤ fuel' ∧
      readPieces definitions fuel before front (List.replicate count '_' ++ tail) =
        readPieces definitions fuel' before' ((endRun opens count).reverse ++ front) tail := by
  rcases Nat.eq_zero_or_pos count with rfl | pos
  · exact ⟨fuel, before, by simpa using enough, rfl⟩
  rw [List.length_append, List.length_replicate] at enough
  obtain ⟨fuel, rfl⟩ : ∃ n, fuel = n + 1 := ⟨fuel - 1, by omega⟩
  refine ⟨fuel, some '_', by omega, ?_⟩
  rw [readPieces_underscores pos stops, faces, endRun_of_pos pos]
  rfl

theorem readsAs_framed {middle : List Char} (h : Middle middle) (front back : Nat) :
    ∃ inlines, plainTexts inlines = List.replicate (front - min front back) '_' ++
        (middle ++ List.replicate (back - min front back) '_') ∧
      ReadsAs (List.replicate front '_' ++ (middle ++ List.replicate back '_')) inlines := by
  obtain ⟨pieces, plain, text, reads⟩ := h.reads
  refine ⟨settle (endRun true front ++ (pieces ++ endRun false back)), ?_, ?_⟩
  · rw [plainTexts_settle plain, text]
  intro definitions before done tail fuel left right enough
  refine ⟨endRun true front ++ (pieces ++ endRun false back), ?_⟩
  have noBracket : ∀ piece ∈ endRun true front ++ (pieces ++ endRun false back),
      piece.IsBracket = false := by
    intro piece member
    rcases List.mem_append.mp member with opening | member
    · exact isBracket_endRun opening
    rcases List.mem_append.mp member with inner | closing
    · exact (plain piece inner).isBracket
    · exact isBracket_endRun closing
  -- the underscores in front, the middle, and the underscores behind, one after another
  obtain ⟨c, more, head, first⟩ := h.head
  have inner : (middle ++ (List.replicate back '_' ++ tail)).head? = some c := by
    rw [head]
    rfl
  have other : c ≠ '_' := by rintro rfl; exact absurd first (by decide)
  have stops : (middle ++ (List.replicate back '_' ++ tail)).head? ≠ some '_' := by
    simpa [inner] using other
  have opens : markRun before '_' front (middle ++ (List.replicate back '_' ++ tail)).head? =
      .run '_' front front true false := by
    rw [inner]
    exact markRun_front left first front
  rw [List.append_assoc, List.append_assoc] at enough ⊢
  obtain ⟨fuel₁, before₁, enough₁, read₁⟩ :=
    readPieces_endRun definitions before done true stops opens enough
  have special : ∀ c, (List.replicate back '_' ++ tail).head? = some c → isSpecial c = true := by
    rcases back with _ | back
    · exact isSpecial_of_isEdge right
    · intro c first
      cases first
      rfl
  obtain ⟨fuel₂, last, enough₂, letter, read₂⟩ := reads definitions before₁
    ((endRun true front).reverse ++ done) (List.replicate back '_' ++ tail) fuel₁ special enough₁
  obtain ⟨fuel₃, before₃, enough₃, read₃⟩ := readPieces_endRun definitions (some last)
    (pieces.reverse ++ ((endRun true front).reverse ++ done)) false right.ne_underscore
    (markRun_back right letter back) enough₂
  refine ⟨fuel₃, before₃, noBracket, rfl, enough₃, ?_⟩
  rw [read₁, read₂, read₃]
  simp

/-- A name reads alike wherever it stands between edges, and its text is the name without the
underscores that it loses. -/
theorem exists_readsAs {name : List Char} (nonempty : name ≠ [])
    (chars : ∀ c ∈ name, isNameContinue c = true) :
    ∃ inlines, plainTexts inlines = unframed name ∧ ReadsAs name inlines := by
  cases all : name.all (· == '_') with
  | true =>
    have same : name = List.replicate name.length '_' :=
      List.eq_replicate_iff.mpr ⟨rfl, fun c member =>
        beq_iff_eq.mp (List.all_eq_true.mp all c member)⟩
    refine ⟨[.text (List.replicate name.length '_')], ?_, ?_⟩
    · rw [← same, unframed, frameWidth, if_pos all]
      simp [plainTexts, Inline.plainText]
    · exact same ▸ readsAs_underscores (List.length_pos_iff.mpr nonempty)
  | false =>
    obtain ⟨front, middle, back, good, rfl⟩ := exists_middle chars all
    obtain ⟨inlines, text, reads⟩ := readsAs_framed good front back
    exact ⟨inlines, text.trans (unframed_eq good front back).symm, reads⟩

theorem chars_of_nameSpelling {name : List Char} (h : NameSpelling name) :
    name ≠ [] ∧ ∀ c ∈ name, isNameContinue c = true := by
  cases name with
  | nil => exact h.elim
  | cons c rest =>
    exact ⟨List.cons_ne_nil _ _, List.forall_mem_cons.mpr
      ⟨(isNameContinue_iff c).mpr (.inl h.1), h.2⟩⟩

theorem readsAs_name {name : List Char} (h : NameSpelling name) :
    ReadsAs name (readInlines [] name) := by
  obtain ⟨nonempty, chars⟩ := chars_of_nameSpelling h
  obtain ⟨inlines, -, reads⟩ := exists_readsAs nonempty chars
  rwa [reads.readInlines_eq []]

/-- The text of a name in a heading. -/
theorem plainTexts_name {name : List Char} (h : NameSpelling name)
    (definitions : List LinkDefinition) :
    plainTexts (readInlines definitions name) = unframed name := by
  obtain ⟨nonempty, chars⟩ := chars_of_nameSpelling h
  obtain ⟨inlines, text, reads⟩ := exists_readsAs nonempty chars
  rw [reads.readInlines_eq definitions, text]

end SchemaCompiler.Commonmark
