import SchemaCompiler.Proofs.Commonmark.Links
import SchemaCompiler.Proofs.Commonmark.Parts
import SchemaCompiler.Proofs.Commonmark.Writing

/-!
Lists of links in two levels.

A group is a link behind a dash with links behind asterisks below it. After each line just one
paragraph is open, so four steps tell everything: the first group, the first item of a group, a
further item, and a further group. The lines of the groups read as one tight list.
-/

namespace SchemaCompiler.Commonmark

open State

/-! ## Texts of items -/

/-- A text that is a paragraph when it follows the marker of an item. -/
structure IsItemText (text : List Char) : Prop where
  opens : text.head? = some '['
  closes : text.getLast? = some ')'
  undefined : ∀ rest, linkDefinition? (text ++ rest) = none
  line : ∀ c ∈ text, ¬ IsLineEnd c

theorem isItemText_fragmentLink {label fragment : List Char} (plain : IsPlainLabel label)
    (line : ∀ c ∈ label ++ fragment, ¬ IsLineEnd c) : IsItemText (fragmentLink label fragment) where
  opens := rfl
  closes := by
    have split : fragmentLink label fragment =
        ('[' :: label ++ "](#".toList ++ fragment) ++ [')'] := by simp [fragmentLink]
    rw [split]
    exact List.getLast?_concat
  undefined := linkDefinition?_fragmentLink plain fragment
  line := by
    intro c member
    have marks : ∀ c ∈ "[](#)".toList, ¬ IsLineEnd c := by simp [IsLineEnd]
    simp only [fragmentLink, List.mem_cons, List.mem_append, List.not_mem_nil, or_false] at member
    rcases member with rfl | inside | rfl | rfl | rfl | inside | rfl
    all_goals first
      | exact line c (List.mem_append_left _ inside)
      | exact line c (List.mem_append_right _ inside)
      | exact marks _ (by decide)

theorem IsItemText.paragraphText_eq {text : List Char} (h : IsItemText text) :
    paragraphText [text] = text := by
  obtain ⟨front, rfl⟩ := List.getLast?_eq_some_iff.mp h.closes
  simp [paragraphText, joined, isWhitespace]

theorem IsItemText.leadingDefinition?_eq {text : List Char} (h : IsItemText text)
    (frames : List Frame) (next : List (List Char)) :
    leadingDefinition? frames text next = none := by
  rw [leadingDefinition?, if_pos h.opens, paragraphLines]
  simp only [joined, List.reverse_reverse, List.flatMap_cons, List.append_assoc]
  rw [h.undefined]
  rfl

/-! ## Reading an item -/

/-- Nothing but an item or a paragraph starts like this. -/
structure IsOrdinary (body : List Char) : Prop where
  noQuote : body.head? ≠ some '>'
  noHeading : heading? body = none
  noFence : fence? body = none
  noHtml : after? ['<'] body = none
  noUnderline : underline? body = none
  noRule : isRule body = false

theorem isOrdinary_bracket (more : List Char) : IsOrdinary ('[' :: more) := by
  constructor
  case noQuote => simp
  all_goals rfl

theorem isOrdinary_bullet {mark : Char} (bullet : mark = '-' ∨ mark = '*') (more : List Char) :
    IsOrdinary (mark :: ' ' :: '[' :: more) := by
  rcases bullet with rfl | rfl
  all_goals
    constructor
    case noQuote => simp
    all_goals rfl

theorem dropColumns_entered (n column : Nat) (rest : List Char) :
    Cursor.dropColumns n ⟨column, n, rest⟩ = ⟨column + n, 0, rest⟩ := by
  induction n generalizing column with
  | zero => rfl
  | succ n ih => rw [Cursor.dropColumns, ih, Nat.add_right_comm, Nat.add_assoc]

variable {text : List Char} (next : List (List Char)) (fuel : Nat) (s : State)

/-- A marker opens an item, and what follows the blank behind it is read inside. -/
theorem readRest_bullet (h : IsItemText text) {mark : Char} (bullet : mark = '-' ∨ mark = '*')
    (unmatched column : Nat) {entered : Nat} (near : entered < 4) :
    readRest next (fuel + 1) s unmatched ⟨column, entered, mark :: ' ' :: text⟩ =
      readRest next fuel (s.beginItem unmatched (.bullet mark) (entered + 2)) 0
        ⟨column + entered + 1 + 1, 0, text⟩ := by
  obtain ⟨more, rfl⟩ := List.head?_eq_some_iff.mp h.opens
  have ordinary := isOrdinary_bullet bullet more
  have marker : Marker.ofLine? (mark :: ' ' :: '[' :: more) = some (.bullet mark, 1) := by
    rcases bullet with rfl | rfl <;> rfl
  have nonblank : (Cursor.mk column entered (mark :: ' ' :: '[' :: more)).isBlank = false := by
    rcases bullet with rfl | rfl <;> rfl
  have indent : (Cursor.mk column entered (mark :: ' ' :: '[' :: more)).indent = entered := by
    rcases bullet with rfl | rfl <;> rfl
  have inside : (Cursor.mk column entered (mark :: ' ' :: '[' :: more)).dropBlanks =
      ⟨column + entered, 0, mark :: ' ' :: '[' :: more⟩ := by
    rw [Cursor.dropBlanks, indent, dropColumns_entered]
  have behind : (Cursor.mk (column + entered) 0 (mark :: ' ' :: '[' :: more)).drop 1 =
      ⟨column + entered + 1, 0, ' ' :: '[' :: more⟩ := rfl
  have interrupts (inner : Bool) : (!inner || mayInterrupt (.bullet mark)
      (Cursor.mk (column + entered + 1) 0 (' ' :: '[' :: more))) = true := by
    cases inner <;> rfl
  rw [readRest]
  simp only [nonblank, indent, inside, ordinary.noHeading, ordinary.noFence, ordinary.noHtml,
    ordinary.noUnderline, ordinary.noRule, marker, if_neg (Nat.not_le.mpr near),
    if_neg ordinary.noQuote, behind, Option.filter_some, interrupts, Option.bind_none]
  rw [if_neg Bool.false_ne_true]
  split
  · contradiction
  · rfl

/-- The text of an item opens a paragraph. -/
theorem readRest_itemText (h : IsItemText text) (column : Nat) {width : Nat}
    {children : List Block} {frames : List Frame}
    (inside : s.frames = .item width children :: frames) (leafless : s.leaf = none)
    (together : s.parted = false) :
    readRest next (fuel + 1) s 0 ⟨column, 0, text⟩ =
      ({ s with leaf := some (.paragraph [text]) }, 0) := by
  obtain ⟨more, rfl⟩ := List.head?_eq_some_iff.mp h.opens
  have ordinary := isOrdinary_bracket more
  have marker : Marker.ofLine? ('[' :: more) = none := rfl
  have nonblank : (Cursor.mk column 0 ('[' :: more)).isBlank = false := rfl
  have indent : (Cursor.mk column 0 ('[' :: more)).indent = 0 := rfl
  have here : (Cursor.mk column 0 ('[' :: more)).dropBlanks = ⟨column, 0, '[' :: more⟩ := rfl
  have begun : s.beginBlock 0 = s := by
    obtain ⟨root, frames', leaf, parted, definitions⟩ := s
    cases inside
    cases leafless
    cases together
    rfl
  rw [readRest, leafless, begun]
  simp only [nonblank, indent, here, ordinary.noHeading, ordinary.noFence, ordinary.noHtml,
    ordinary.noUnderline, ordinary.noRule, marker, if_neg ordinary.noQuote, Option.filter_none,
    Option.bind_none, h.leadingDefinition?_eq]
  rfl

/-- A line that goes to an item with a text makes a paragraph of the text. -/
theorem readLine_item (h : IsItemText text) {mark : Char} (bullet : mark = '-' ∨ mark = '*')
    {line : List Char} {unmatched column entered : Nat} (near : entered < 4)
    (open' : s.leaf = none ∨ ∃ lines, s.leaf = some (.paragraph lines))
    (enters : enterFrames s.leaf.isNone (Cursor.ofLine line) s.frames.reverse =
      (unmatched, ⟨column, entered, mark :: ' ' :: text⟩))
    {root : List Block} {frames : List Frame} {definitions : List LinkDefinition}
    (begins : s.beginItem unmatched (.bullet mark) (entered + 2) =
      ⟨root, .item (entered + 2) [] :: frames, none, false, definitions⟩) :
    readLine s line next =
      (⟨root, .item (entered + 2) [] :: frames, some (.paragraph [text]), false, definitions⟩,
        0) := by
  have read : readRest next (line.length + 2) s unmatched ⟨column, entered, mark :: ' ' :: text⟩ =
      (⟨root, .item (entered + 2) [] :: frames, some (.paragraph [text]), false, definitions⟩,
        0) := by
    rw [readRest_bullet next _ s h bullet unmatched column near, begins]
    exact readRest_itemText next _ _ h _ rfl rfl rfl
  rw [readLine, enters]
  rcases open' with none | ⟨lines, paragraph⟩
  · rw [none]
    exact (ite_self _).trans read
  · rw [paragraph]
    exact (ite_self _).trans read

/-! ## Groups -/

/-- A link and the links below it. -/
structure LinkGroup where
  text : List Char
  items : List (List Char)

/-- The group `text` was just begun, behind complete groups that are kept back to front. -/
def atGroup (groups : List (List Block)) (text : List Char) : State :=
  ⟨[], [.item 2 [], .list (.bullet '-') false groups], some (.paragraph [text]), false, []⟩

/-- The item `item` of the group `text` was just begun, behind complete groups and items. -/
def atItem (groups : List (List Block)) (text : List Char) (items : List (List Block))
    (item : List Char) : State :=
  ⟨[], [.item 4 [], .list (.bullet '*') false items, .item 2 [.paragraph text],
    .list (.bullet '-') false groups], some (.paragraph [item]), false, []⟩

namespace LinkGroup

def textLine (text : List Char) : List Char := '-' :: ' ' :: text

def itemLine (item : List Char) : List Char := '\t' :: '*' :: ' ' :: item

def lines (g : LinkGroup) : List (List Char) := textLine g.text :: g.items.map itemLine

/-- The blocks of the item that a group is. -/
def blocks (g : LinkGroup) : List Block :=
  [.paragraph g.text, .list none true (g.items.map fun item => [.paragraph item])]

theorem readLine_firstGroup (h : IsItemText text) :
    readLine .empty (textLine text) next = (atGroup [] text, 0) :=
  readLine_item next .empty h (.inl rfl) (by decide) (.inl rfl) rfl rfl

variable {item : List Char} {groups items : List (List Block)}

theorem readLine_firstItem (group : IsItemText text) (h : IsItemText item) :
    readLine (atGroup groups text) (itemLine item) next = (atItem groups text [] item, 0) := by
  have begins : (atGroup groups text).beginItem 0 (.bullet '*') 4 =
      ⟨[], [.item 4 [], .list (.bullet '*') false [], .item 2 [.paragraph (paragraphText [text])],
        .list (.bullet '-') false groups], none, false, []⟩ := rfl
  rw [group.paragraphText_eq] at begins
  exact readLine_item next _ h (.inr rfl) (by decide) (.inr ⟨_, rfl⟩) rfl begins

theorem readLine_nextItem (h : IsItemText item) {item' : List Char} (h' : IsItemText item') :
    readLine (atItem groups text items item) (itemLine item') next =
      (atItem groups text ([.paragraph item] :: items) item', 0) := by
  have begins : (atItem groups text items item).beginItem 1 (.bullet '*') 4 =
      ⟨[], [.item 4 [],
        .list (.bullet '*') false ([.paragraph (paragraphText [item])] :: items),
        .item 2 [.paragraph text], .list (.bullet '-') false groups], none, false, []⟩ := rfl
  rw [h.paragraphText_eq] at begins
  exact readLine_item next _ h' (.inr rfl) (by decide) (.inr ⟨_, rfl⟩) rfl begins

/-- A group whose items were read, as the blocks of its item. -/
def closed (text : List Char) (items : List (List Block)) (item : List Char) : List Block :=
  [.paragraph text, .list none true ([.paragraph item] :: items).reverse]

theorem readLine_nextGroup (h : IsItemText item) {text' : List Char} (h' : IsItemText text') :
    readLine (atItem groups text items item) (textLine text') next =
      (atGroup (closed text items item :: groups) text', 0) := by
  have begins : (atItem groups text items item).beginItem 3 (.bullet '-') 2 =
      ⟨[], [.item 2 [],
        .list (.bullet '-') false (closed text items (paragraphText [item]) :: groups)],
        none, false, []⟩ := rfl
  rw [h.paragraphText_eq] at begins
  exact readLine_item next _ h' (.inl rfl) (by decide) (.inr ⟨_, rfl⟩) rfl begins

/-! ## Whole lists -/

/-- All texts of the group are texts of items, and it has items. -/
structure Whole (g : LinkGroup) : Prop where
  text : IsItemText g.text
  items : ∀ item ∈ g.items, IsItemText item
  some : g.items ≠ []

/-- Reading the items behind an item that was begun. -/
theorem readLines_items (items : List (List Block)) (h : IsItemText item)
    {more : List (List Char)} (good : ∀ item ∈ more, IsItemText item) (later : List (List Char)) :
    ∃ items' item', IsItemText item' ∧
      readLines (atItem groups text items item) 0 (more.map itemLine ++ later) =
        readLines (atItem groups text items' item') 0 later ∧
      ([.paragraph item'] :: items').reverse =
        ([.paragraph item] :: items).reverse ++ more.map fun item => [.paragraph item] := by
  induction more generalizing items item with
  | nil => exact ⟨items, item, h, rfl, (List.append_nil _).symm⟩
  | cons item₂ more ih =>
    rw [List.forall_mem_cons] at good
    obtain ⟨items', item', h', read, same⟩ := ih ([.paragraph item] :: items) good.1 good.2
    refine ⟨items', item', h', ?_, ?_⟩
    · rw [← read, List.map_cons, List.cons_append, readLines, readLine_nextItem _ h good.1]
    · rw [same]
      simp

/-- Groups were read up to the last item of the last of them. -/
def Reached (s : State) (groups : List LinkGroup) : Prop :=
  ∃ before text items item, s = atItem before text items item ∧ IsItemText item ∧
    (closed text items item :: before).reverse = groups.map blocks

theorem readLines_group {s : State} {before : List (List Block)} {g : LinkGroup} (good : g.Whole)
    (begins : ∀ next, readLine s (textLine g.text) next = (atGroup before g.text, 0))
    (later : List (List Char)) :
    ∃ items item, IsItemText item ∧ closed g.text items item = g.blocks ∧
      readLines s 0 (g.lines ++ later) = readLines (atItem before g.text items item) 0 later := by
  obtain ⟨first, more, split⟩ := List.exists_cons_of_ne_nil good.some
  have each := good.items
  rw [split, List.forall_mem_cons] at each
  obtain ⟨items, item, h, read, same⟩ := readLines_items [] each.1 each.2 later
  refine ⟨items, item, h, ?_, ?_⟩
  · rw [closed, same, blocks, split]
    rfl
  · rw [← read, lines, split, List.map_cons, List.cons_append, List.cons_append, readLines, begins]
    dsimp only
    rw [readLines, readLine_firstItem _ good.text each.1]

theorem readLines_groups {s : State} {done groups : List LinkGroup} (reached : Reached s done)
    (good : ∀ g ∈ groups, g.Whole) (later : List (List Char)) :
    ∃ s', Reached s' (done ++ groups) ∧
      readLines s 0 (groups.flatMap lines ++ later) = readLines s' 0 later := by
  induction groups generalizing s done with
  | nil => exact ⟨s, by rwa [List.append_nil], rfl⟩
  | cons g groups ih =>
    rw [List.forall_mem_cons] at good
    obtain ⟨before, text, items, item, rfl, h, same⟩ := reached
    obtain ⟨items', item', h', closes, read⟩ := readLines_group good.1
      (fun next => readLine_nextGroup next h good.1.text) (groups.flatMap lines ++ later)
    have reached' : Reached (atItem (closed text items item :: before) g.text items' item')
        (done ++ [g]) := by
      refine ⟨_, _, _, _, rfl, h', ?_⟩
      rw [closes, List.reverse_cons, same, List.map_append]
      rfl
    obtain ⟨s', last, read'⟩ := ih reached' good.2
    refine ⟨s', by simpa using last, ?_⟩
    rw [List.flatMap_cons, List.append_assoc, read, read']

/-- Behind a blank line the list is complete. -/
theorem Reached.contents_eq {s : State} {groups : List LinkGroup} (reached : Reached s groups) :
    (readLines s 0 [[]]).contents = ([.list none true (groups.map blocks)], []) ∧
      (readLines s 0 [[]]).takesMargin = false := by
  obtain ⟨before, text, items, item, rfl, h, same⟩ := reached
  have complete : (readLines (atItem before text items item) 0 [[]]).contents =
      ([.list none true (closed text items (paragraphText [item]) :: before).reverse], []) := rfl
  rw [complete, h.paragraphText_eq, same]
  exact ⟨rfl, rfl⟩

end LinkGroup

open LinkGroup

theorem readLines_linkGroups {groups : List LinkGroup} (good : ∀ g ∈ groups, g.Whole) :
    (readLines .empty 0 (groups.flatMap LinkGroup.lines ++ [[]])).contents =
        (if groups = [] then [] else [.list none true (groups.map blocks)], []) ∧
      (readLines .empty 0 (groups.flatMap LinkGroup.lines ++ [[]])).takesMargin = false := by
  cases groups with
  | nil => exact ⟨rfl, rfl⟩
  | cons g groups =>
    rw [List.forall_mem_cons] at good
    obtain ⟨items, item, h, closes, read⟩ := readLines_group good.1
      (fun next => readLine_firstGroup next good.1.text) (groups.flatMap LinkGroup.lines ++ [[]])
    have reached : Reached (atItem [] g.text items item) [g] :=
      ⟨_, _, _, _, rfl, h, by rw [closes]; rfl⟩
    obtain ⟨s, last, read'⟩ := readLines_groups reached good.2 [[]]
    rw [List.flatMap_cons, List.append_assoc, read, read', if_neg (List.cons_ne_nil _ _)]
    exact last.contents_eq

/-! ## The text of the lines -/

/-- Lines with an end behind each. -/
def ended (lines : List (List Char)) : List Char := lines.flatMap (· ++ ['\n'])

theorem endsLine_ended (lines : List (List Char)) : EndsLine (ended lines) := by
  have same : State.joined lines.reverse = ended lines := by
    rw [State.joined, List.reverse_reverse, ended]
  exact same ▸ endsLine_joined lines.reverse

theorem lines_ended {ls : List (List Char)} (inside : ∀ l ∈ ls, ∀ c ∈ l, ¬ IsLineEnd c) :
    lines (ended ls) = ls := by
  induction ls with
  | nil => rfl
  | cons l ls ih =>
    rw [List.forall_mem_cons] at inside
    have split : ended (l :: ls) = l ++ '\n' :: ended ls := by simp [ended]
    rw [split, lines_line inside.1, ih inside.2]

theorem LinkGroup.Whole.line {g : LinkGroup} (h : g.Whole) :
    ∀ l ∈ g.lines, ∀ c ∈ l, ¬ IsLineEnd c := by
  have marks : ∀ c ∈ "- \t*".toList, ¬ IsLineEnd c := by simp [IsLineEnd]
  intro l member c inside
  rcases List.mem_cons.mp member with rfl | below
  · simp only [LinkGroup.textLine, List.mem_cons] at inside
    rcases inside with rfl | rfl | inside
    · exact marks _ (by decide)
    · exact marks _ (by decide)
    · exact h.text.line c inside
  · obtain ⟨item, good, rfl⟩ := List.mem_map.mp below
    simp only [LinkGroup.itemLine, List.mem_cons] at inside
    rcases inside with rfl | rfl | rfl | inside
    · exact marks _ (by decide)
    · exact marks _ (by decide)
    · exact marks _ (by decide)
    · exact (h.items item good).line c inside

/-- The text of groups reads as one list, and nothing is open behind it. -/
theorem readBlocks_linkGroups {groups : List LinkGroup} (good : ∀ g ∈ groups, g.Whole) :
    readBlocks (ended (groups.flatMap LinkGroup.lines) ++ ['\n']) =
        (if groups = [] then [] else [.list none true (groups.map blocks)], []) ∧
      leavesOpen (ended (groups.flatMap LinkGroup.lines)) = false := by
  have inside : ∀ l ∈ groups.flatMap LinkGroup.lines, ∀ c ∈ l, ¬ IsLineEnd c := by
    intro l member
    obtain ⟨g, here, line⟩ := List.mem_flatMap.mp member
    exact (good g here).line l line
  rw [readBlocks_lineFeed (endsLine_ended _), leavesOpen, lines_ended inside]
  exact readLines_linkGroups good

/-! ## The list as HTML -/

theorem Written.put_put (out : Written) (front back : List Char) :
    (out.put front).put back = out.put (front ++ back) := by
  simp [Written.put]

theorem Written.AtLine.line_eq {out : Written} (h : out.AtLine) : out.line = out := by
  rcases h with rfl | ⟨more, rfl⟩ <;> rfl

theorem Written.line_put (out : Written) {cs : List Char} (ends : cs.getLast? = some '>') :
    (out.put cs).line = out.put (cs ++ ['\n']) := by
  obtain ⟨front, rfl⟩ := List.getLast?_eq_some_iff.mp ends
  simp [Written.put, Written.line]

variable (context : Context)

/-- The text of an item as HTML. -/
def textHtml (text : List Char) : List Char :=
  inlinesToHtml (readInlines context.definitions text)

def itemHtml (item : List Char) : List Char :=
  "<li>".toList ++ textHtml context item ++ "</li>\n".toList

def LinkGroup.html (g : LinkGroup) : List Char :=
  "<li>".toList ++ textHtml context g.text ++ "\n<ul>\n".toList ++
    g.items.flatMap (itemHtml context) ++ "</ul>\n</li>\n".toList

theorem writeItems_items {out : Written} (h : out.AtLine) (items : List (List Char)) :
    writeItems context true out (items.map fun item => [.paragraph item]) =
      out.put (items.flatMap (itemHtml context)) := by
  induction items generalizing out with
  | nil => rfl
  | cons item items ih =>
    have first : (writeBlocks context true (out.line.putString "<li>")
        [.paragraph item]).putString "</li>\n" = out.put (itemHtml context item) := by
      rw [h.line_eq]
      change ((out.put "<li>".toList).put (textHtml context item)).put "</li>\n".toList = _
      rw [Written.put_put, Written.put_put]
      rfl
    have atLine : (out.put (itemHtml context item)).AtLine :=
      Written.atLine_put _ (List.getLast?_append.trans rfl)
    rw [List.map_cons, writeItems, first, ih atLine, Written.put_put]
    rfl

theorem write_items (out : Written) (items : List (List Char)) :
    (Block.list none true (items.map fun item => [.paragraph item])).write context true out =
      out.line.put ("<ul>\n".toList ++ items.flatMap (itemHtml context) ++ "</ul>\n".toList) := by
  have atLine : (out.line.put "<ul>\n".toList).AtLine := Written.atLine_put _ rfl
  rw [Block.write]
  change (writeItems context true (out.line.put "<ul>\n".toList) _).put "</ul>\n".toList = _
  rw [writeItems_items context atLine, Written.put_put, Written.put_put, List.append_assoc]

theorem writeItems_groups {out : Written} (h : out.AtLine) {groups : List LinkGroup}
    (ends : ∀ g ∈ groups, (textHtml context g.text).getLast? = some '>') :
    writeItems context true out (groups.map blocks) =
      out.put (groups.flatMap (LinkGroup.html context)) := by
  induction groups generalizing out with
  | nil => rfl
  | cons g groups ih =>
    rw [List.forall_mem_cons] at ends
    have first : (writeBlocks context true (out.line.putString "<li>") g.blocks).putString
        "</li>\n" = out.put (LinkGroup.html context g) := by
      have line : ((out.put "<li>".toList).put (textHtml context g.text)).line =
          out.put ("<li>".toList ++ textHtml context g.text ++ ['\n']) := by
        rw [Written.line_put _ ends.1, Written.put_put, List.append_assoc]
      rw [h.line_eq, blocks, writeBlocks, writeBlocks, writeBlocks, write_items]
      change (((out.put "<li>".toList).put (textHtml context g.text)).line.put _).put
        "</li>\n".toList = _
      rw [line, Written.put_put, Written.put_put]
      change out.put _ = out.put ("<li>".toList ++ textHtml context g.text ++ "\n<ul>\n".toList ++
        g.items.flatMap (itemHtml context) ++ "</ul>\n</li>\n".toList)
      congr 1
      simp
    have atLine : (out.put (LinkGroup.html context g)).AtLine :=
      Written.atLine_put _ (List.getLast?_append.trans rfl)
    rw [List.map_cons, writeItems, first, ih atLine ends.2, Written.put_put]
    rfl

/-- The list of groups as HTML. -/
theorem blocksToHtml_linkGroups {groups : List LinkGroup}
    (ends : ∀ g ∈ groups, (textHtml context g.text).getLast? = some '>') :
    blocksToHtml context [.list none true (groups.map blocks)] =
      "<ul>\n".toList ++ groups.flatMap (LinkGroup.html context) ++ "</ul>\n".toList := by
  have atLine : (Written.put [] "<ul>\n".toList).AtLine := Written.atLine_put _ rfl
  have written : writeBlocks context false [] [.list none true (groups.map blocks)] =
      Written.put [] ("<ul>\n".toList ++ groups.flatMap (LinkGroup.html context) ++
        "</ul>\n".toList) := by
    rw [writeBlocks, writeBlocks, Block.write]
    change (writeItems context true (Written.put [] "<ul>\n".toList) _).put "</ul>\n".toList = _
    rw [writeItems_groups context atLine ends, Written.put_put, Written.put_put, List.append_assoc]
  rw [blocksToHtml, written, Written.put, List.append_nil, List.reverse_reverse]

end SchemaCompiler.Commonmark
