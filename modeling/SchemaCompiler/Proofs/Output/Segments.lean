import SchemaCompiler.Proofs.Output.Places

/-!
File names segment by segment.

All rules for names but one can be checked at each segment alone. A drive letter is looked for at
the beginning of the name only, so a segment behind a slash may have one. Where paths can name a
drive, such a segment leads out of the directory, and no other accepted segment does.
-/

namespace SchemaCompiler

namespace FileName

/-! ## Names without their drive letters -/

/-- A name without backslashes whose segments are all allowed. -/
def Segmented (cs : List Char) : Prop :=
  '\\' ∉ cs ∧ ∀ segment ∈ segmentsOf cs, segmentFault? segment = none

theorem Segmented.ne_nil {cs : List Char} (h : Segmented cs) : cs ≠ [] := by
  rintro rfl
  have empty := h.2 [] List.mem_cons_self
  cases empty

theorem Segmented.relative {cs : List Char} (h : Segmented cs) : cs.head? ≠ some '/' := by
  intro slash
  cases cs with
  | nil => cases slash
  | cons c rest =>
    have same : c = '/' := Option.some.inj slash
    have first : [] ∈ segmentsOf (c :: rest) := by simp [segmentsOf, Text.splitOnChar, same]
    have empty := h.2 [] first
    cases empty

/-- A name is accepted if its segments are and it does not begin with a drive letter. -/
theorem faultOf?_eq_none_iff (cs : List Char) :
    faultOf? cs = none ↔ Segmented cs ∧ hasDriveLetter cs = false := by
  constructor
  · intro accepted
    unfold faultOf? at accepted
    split at accepted
    · cases accepted
    split at accepted
    · cases accepted
    split at accepted
    · cases accepted
    next plain =>
    split at accepted
    · cases accepted
    next drive =>
    have segments := List.findSome?_eq_none_iff.mp accepted
    exact ⟨⟨by simpa using plain, segments⟩, Bool.eq_false_iff.mpr drive⟩
  · rintro ⟨segmented, drive⟩
    have nonempty : ¬ cs.isEmpty = true := fun h => segmented.ne_nil (List.isEmpty_iff.mp h)
    have plain : ¬ cs.contains '\\' = true := fun h => segmented.1 (List.contains_iff_mem.mp h)
    have undriven : ¬ hasDriveLetter cs = true := Bool.eq_false_iff.mp drive
    rw [faultOf?, if_neg nonempty, if_neg segmented.relative, if_neg plain, if_neg undriven]
    exact List.findSome?_eq_none_iff.mpr segmented.2

theorem faultOf?_eq_driveLetter {cs : List Char} (segmented : Segmented cs)
    (drive : hasDriveLetter cs = true) : faultOf? cs = some .driveLetter := by
  have nonempty : ¬ cs.isEmpty = true := fun h => segmented.ne_nil (List.isEmpty_iff.mp h)
  have plain : ¬ cs.contains '\\' = true := fun h => segmented.1 (List.contains_iff_mem.mp h)
  rw [faultOf?, if_neg nonempty, if_neg segmented.relative, if_neg plain, if_pos drive]

/-- No segment's fault is a drive letter, so where one is reported there is no backslash. -/
theorem plain_of_driveLetter {cs : List Char} (h : faultOf? cs = some .driveLetter) : '\\' ∉ cs := by
  unfold faultOf? at h
  split at h
  · cases h
  split at h
  · cases h
  split at h
  · cases h
  · next plain => simpa using plain

theorem hasDriveLetter_eq_true_iff {cs : List Char} :
    hasDriveLetter cs = true ↔
      ∃ letter rest, isLetter letter = true ∧ cs = letter :: ':' :: rest := by
  unfold hasDriveLetter
  split
  · next letter rest => simp
  · next other => simpa using fun letter _ rest => other letter rest

/-! ## Names behind a slash -/

theorem segmented_append_slash_iff (a b : List Char) :
    Segmented (a ++ '/' :: b) ↔ Segmented a ∧ Segmented b := by
  have split : segmentsOf (a ++ '/' :: b) = segmentsOf a ++ segmentsOf b :=
    Text.splitOnChar_append '/' a b
  unfold Segmented
  rw [split, List.forall_mem_append]
  simp only [List.mem_append, List.mem_cons, not_or]
  constructor
  · rintro ⟨⟨front, -, back⟩, first, last⟩
    exact ⟨⟨front, first⟩, back, last⟩
  · rintro ⟨⟨front, first⟩, back, last⟩
    exact ⟨⟨front, by decide, back⟩, first, last⟩

/-- What stands behind a slash does not bear on a drive letter. -/
theorem hasDriveLetter_append_slash (a b : List Char) :
    hasDriveLetter (a ++ '/' :: b) = hasDriveLetter a := by
  rcases a with - | ⟨c, - | ⟨d, a⟩⟩
  · rcases b with - | ⟨d, b⟩
    · rfl
    · by_cases colon : d = ':'
      · subst colon
        rfl
      · simp [hasDriveLetter, colon]
  · rfl
  · by_cases colon : d = ':'
    · subst colon
      rfl
    · simp [hasDriveLetter, colon]

/-- Two names with a slash between them. The second may have a drive letter. -/
theorem faultOf?_append_slash_iff (a b : List Char) :
    faultOf? (a ++ '/' :: b) = none ↔ faultOf? a = none ∧
      (faultOf? b = none ∨ faultOf? b = some .driveLetter ∧
        ∀ segment ∈ segmentsOf b, segmentFault? segment = none) := by
  have second : Segmented b ↔ faultOf? b = none ∨ faultOf? b = some .driveLetter ∧
      ∀ segment ∈ segmentsOf b, segmentFault? segment = none := by
    constructor
    · intro segmented
      cases drive : hasDriveLetter b with
      | false => exact .inl ((faultOf?_eq_none_iff b).mpr ⟨segmented, drive⟩)
      | true => exact .inr ⟨faultOf?_eq_driveLetter segmented drive, segmented.2⟩
    · rintro (accepted | ⟨drive, segments⟩)
      · exact ((faultOf?_eq_none_iff b).mp accepted).1
      · exact ⟨plain_of_driveLetter drive, segments⟩
  rw [faultOf?_eq_none_iff, segmented_append_slash_iff, hasDriveLetter_append_slash, ← second,
    faultOf?_eq_none_iff, and_right_comm]

/-! ## Segments by themselves -/

/-- Of all faults of a name, a segment can have a backslash and a drive letter. -/
theorem faultOf?_of_isSegment {cs : List Char} (h : IsSegment cs) :
    faultOf? cs = if '\\' ∈ cs then some .backslash
      else if hasDriveLetter cs then some .driveLetter else none := by
  obtain ⟨nonempty, notDot, notDots, plain⟩ := h
  have relative : cs.head? ≠ some '/' := fun head => plain (List.mem_of_head? head)
  have segment : segmentFault? cs = none := by
    unfold segmentFault?
    split <;> simp_all
  have alone : segmentsOf cs = [cs] := Text.splitOnChar_plain plain
  rw [faultOf?, if_neg (by simpa using nonempty), if_neg relative, alone, List.findSome?_singleton,
    segment]
  simp only [List.contains_iff_mem]

/-- A segment is accepted by itself unless it has a drive letter. -/
theorem faultOf?_segment_iff {cs segment : List Char} (segmented : Segmented cs)
    (member : segment ∈ segmentsOf cs) :
    faultOf? segment = none ↔ hasDriveLetter segment = false := by
  have alone : segmentsOf segment = [segment] :=
    Text.splitOnChar_plain (Text.not_mem_of_mem_splitOnChar member)
  have plain : '\\' ∉ segment := by
    intro backslash
    exact segmented.1 ((Text.mem_splitOnChar_iff (by decide) cs).mp ⟨segment, member, backslash⟩)
  have itself : Segmented segment := by
    refine ⟨plain, ?_⟩
    rw [alone, List.forall_mem_singleton]
    exact segmented.2 segment member
  rw [faultOf?_eq_none_iff]
  exact and_iff_right itself

/-- The accepted segments of a name make an accepted name. -/
theorem faultOf?_of_segments {cs : List Char}
    (h : ∀ segment ∈ segmentsOf cs, faultOf? segment = none) : faultOf? cs = none := by
  have each : ∀ segment ∈ segmentsOf cs, Segmented segment ∧ hasDriveLetter segment = false :=
    fun segment member => (faultOf?_eq_none_iff segment).mp (h segment member)
  have alone : ∀ segment ∈ segmentsOf cs, segment ∈ segmentsOf segment := by
    intro segment member
    rw [segmentsOf, Text.splitOnChar_plain (Text.not_mem_of_mem_splitOnChar member)]
    exact List.mem_cons_self
  have segmented : Segmented cs := by
    refine ⟨?_, fun segment member => (each segment member).1.2 segment (alone segment member)⟩
    intro backslash
    have other : '\\' ≠ '/' := by decide
    obtain ⟨segment, member, inside⟩ := (Text.mem_splitOnChar_iff other cs).mpr backslash
    exact (each segment member).1.1 inside
  have undriven : hasDriveLetter cs = false := by
    by_cases slash : '/' ∈ cs
    · obtain ⟨front, rest, rfl, first⟩ := List.eq_append_cons_of_mem slash
      have member : front ∈ segmentsOf (front ++ '/' :: rest) := by
        rw [segmentsOf, Text.splitOnChar_append, Text.splitOnChar_plain first]
        exact List.mem_cons_self
      rw [hasDriveLetter_append_slash]
      exact (each front member).2
    · exact (each cs (by simp [segmentsOf, Text.splitOnChar_plain slash])).2
  exact (faultOf?_eq_none_iff cs).mpr ⟨segmented, undriven⟩

end FileName

/-! ## Joining where paths name drives -/

namespace Path

open FileName (IsSegment hasDriveLetter)

/-- Joining where paths can name a drive: a segment with a drive letter stands for itself, as an
absolute one does. -/
def joinOnDrives (p : Path) (segment : String) : Path :=
  if hasDriveLetter segment.toList then ⟨segment⟩ else p.join segment

theorem foldl_joinOnDrives (segments : List String) (p : Path)
    (undriven : ∀ segment ∈ segments, hasDriveLetter segment.toList = false) :
    segments.foldl joinOnDrives p = segments.foldl join p := by
  induction segments generalizing p with
  | nil => rfl
  | cons segment segments ih =>
    rw [List.forall_mem_cons] at undriven
    have plain : p.joinOnDrives segment = p.join segment := by
      rw [joinOnDrives, undriven.1]
      rfl
    rw [List.foldl_cons, List.foldl_cons, plain, ih _ undriven.2]

theorem components_segment {segment : String} (h : IsSegment segment.toList) :
    (Path.mk segment).components = [.normal segment] := by
  rw [components, componentsOf_eq, opening_segment h, pieces_segment h, String.ofList_toList]
  rfl

/-- No segment leads to the root. -/
theorem root_not_mem_joinOnDrives {p : Path} {segment : String} (h : IsSegment segment.toList)
    (relative : .root ∉ p.components) : .root ∉ (p.joinOnDrives segment).components := by
  unfold joinOnDrives
  split
  · rw [components_segment h]
    simp
  · rw [components_join p h]
    simp [relative]

theorem root_not_mem_foldl {segments : List String}
    (h : ∀ segment ∈ segments, IsSegment segment.toList) {p : Path}
    (relative : .root ∉ p.components) : .root ∉ (segments.foldl joinOnDrives p).components := by
  induction segments generalizing p with
  | nil => exact relative
  | cons segment segments ih =>
    rw [List.forall_mem_cons] at h
    exact ih h.2 (root_not_mem_joinOnDrives h.1 relative)

/-- Behind a segment with a drive letter nothing is left of the directory. -/
theorem root_not_mem_of_drive {segments : List String}
    (h : ∀ segment ∈ segments, IsSegment segment.toList) {segment : String}
    (member : segment ∈ segments) (drive : hasDriveLetter segment.toList = true) (p : Path) :
    .root ∉ (segments.foldl joinOnDrives p).components := by
  obtain ⟨front, back, rfl⟩ := List.append_of_mem member
  rw [List.foldl_append, List.foldl_cons]
  have later : ∀ other ∈ back, IsSegment other.toList := by
    intro other inside
    apply h
    simp [inside]
  apply root_not_mem_foldl later
  rw [joinOnDrives, if_pos drive, components_segment (h segment member)]
  simp

theorem root_mem_of_isAbsolute {p : Path} (h : p.isAbsolute = true) : .root ∈ p.components := by
  rw [isAbsolute, beq_iff_eq] at h
  obtain ⟨rest, text⟩ := List.head?_eq_some_iff.mp h
  rw [components, componentsOf_eq, text]
  simp [opening]

end Path

/-! ## Accepted names -/

namespace FileName

open Output (Below)

/-- With a slash between them, two names are accepted if the first is and the second has no fault
but a drive letter. So the segments of an accepted name are accepted by themselves unless they have
drive letters. Where paths can name a drive, joining them stays inside every directory if none has
a drive letter, and otherwise inside no absolute one. -/
theorem accepted_by_segments_but_drives (a b name : String) :
    (fault? (a ++ "/" ++ b) = none ↔ fault? a = none ∧
      (fault? b = none ∨ fault? b = some .driveLetter ∧
        ∀ segment ∈ segments b, segmentFault? segment.toList = none)) ∧
    ((∀ segment ∈ segments name, fault? segment = none) ↔
      fault? name = none ∧ ∀ segment ∈ segments name, hasDriveLetter segment.toList = false) ∧
    (fault? name = none →
      (∀ segment ∈ segments name, IsSegment segment.toList ∧ '\\' ∉ segment.toList) ∧
      ∀ directory : Path,
        ((∀ segment ∈ segments name, hasDriveLetter segment.toList = false) →
          Below directory ((segments name).foldl Path.joinOnDrives directory)) ∧
        (directory.isAbsolute = true →
          Below directory ((segments name).foldl Path.joinOnDrives directory) →
            ∀ segment ∈ segments name, hasDriveLetter segment.toList = false)) := by
  refine ⟨?_, ?_, fun accepted => ?_⟩
  · have text : (a ++ "/" ++ b).toList = a.toList ++ '/' :: b.toList := by simp
    rw [fault?, text, faultOf?_append_slash_iff]
    simp [segments, fault?]
  · have by_lists : (∀ segment ∈ segments name, fault? segment = none) ↔
        ∀ segment ∈ segmentsOf name.toList, faultOf? segment = none := by
      simp [segments, fault?]
    constructor
    · intro each
      have accepted := faultOf?_of_segments (by_lists.mp each)
      refine ⟨accepted, fun segment member => ?_⟩
      exact ((faultOf?_eq_none_iff segment.toList).mp (each segment member)).2
    · rintro ⟨accepted, undriven⟩
      have segmented := ((faultOf?_eq_none_iff name.toList).mp accepted).1
      rw [by_lists]
      intro segment member
      have listed : String.ofList segment ∈ segments name := List.mem_map_of_mem member
      have plain := undriven _ listed
      rw [String.toList_ofList] at plain
      exact (faultOf?_segment_iff segmented member).mpr plain
  · have segmented := ((faultOf?_eq_none_iff name.toList).mp accepted).1
    have each := isSegment_of_accepted accepted
    refine ⟨fun segment member => ⟨each segment member, ?_⟩, fun directory => ⟨?_, ?_⟩⟩
    · intro backslash
      obtain ⟨cs, inside, rfl⟩ := List.mem_map.mp member
      rw [String.toList_ofList] at backslash
      have other : '\\' ≠ '/' := by decide
      exact segmented.1 ((Text.mem_splitOnChar_iff other _).mp ⟨cs, inside, backslash⟩)
    · intro undriven
      rw [Path.foldl_joinOnDrives _ _ undriven]
      exact Output.place_below ⟨0, directory⟩ accepted
    · rintro absolute ⟨below, -, -, inside⟩ segment member
      rw [← Bool.not_eq_true]
      intro drive
      apply Path.root_not_mem_of_drive each member drive directory
      rw [inside]
      exact List.mem_append_left _ (Path.root_mem_of_isAbsolute absolute)

/-- A drive letter behind a slash is not noticed, and leads out of the directory. -/
theorem drive_behind_slash_accepted :
    fault? ("a" ++ "/" ++ "C:b") = none ∧ fault? "C:b" = some .driveLetter ∧
      ¬ (fault? "a" = none ∧ fault? "C:b" = none) ∧
      ¬ Below ⟨"/out"⟩ ((segments "a/C:b").foldl Path.joinOnDrives ⟨"/out"⟩) := by
  obtain ⟨joined, -, inside⟩ := accepted_by_segments_but_drives "a" "C:b" "a/C:b"
  have accepted : fault? "a/C:b" = none := joined.mpr (by decide)
  refine ⟨accepted, by decide, by decide, fun below => ?_⟩
  have undriven := ((inside accepted).2 ⟨"/out"⟩).2 (by decide) below
  exact absurd (undriven "C:b" (by decide)) (by decide)

end FileName

end SchemaCompiler
