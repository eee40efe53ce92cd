import SchemaCompiler.Output
import SchemaCompiler.Proofs.Text.Pieces

/-!
The places of named files. An accepted name has at least one segment, and every segment of it adds
one component to the directory. So a named file lies strictly below its directory, the directory
made for a name of several segments does too, and no two names lead to one place.
-/

namespace SchemaCompiler

/-! ## Accepted names -/

namespace FileName

/-- A piece that may stand between slashes in a name. -/
def IsSegment (cs : List Char) : Prop := cs ≠ [] ∧ cs ≠ ['.'] ∧ cs ≠ ['.', '.'] ∧ '/' ∉ cs

theorem isSegment_of_segmentFault? {cs : List Char} (sound : segmentFault? cs = none)
    (plain : '/' ∉ cs) : IsSegment cs := by
  refine ⟨?_, ?_, ?_, plain⟩ <;> rintro rfl <;> cases sound

theorem segmentFault?_of_fault? {name : String} (accepted : fault? name = none) {cs : List Char}
    (member : cs ∈ segmentsOf name.toList) : segmentFault? cs = none := by
  have pieces : (segmentsOf name.toList).findSome? segmentFault? = none := by
    unfold fault? faultOf? at accepted
    grind
  exact List.findSome?_eq_none_iff.mp pieces cs member

/-- Every segment of an accepted name is one component of a path. -/
theorem isSegment_of_accepted {name : String} (accepted : fault? name = none) :
    ∀ segment ∈ segments name, IsSegment segment.toList := by
  intro segment member
  obtain ⟨cs, hcs, rfl⟩ := List.mem_map.mp member
  rw [String.toList_ofList]
  exact isSegment_of_segmentFault? (segmentFault?_of_fault? accepted hcs)
    (Text.not_mem_of_mem_splitOnChar hcs)

theorem segments_injective : Function.Injective segments := by
  intro a b h
  have pieces : segmentsOf a.toList = segmentsOf b.toList :=
    List.map_inj_right (fun _ _ => String.ofList_inj.mp) |>.mp h
  exact String.toList_inj.mp (Text.splitOnChar_injective '/' pieces)

theorem segments_ne_nil (name : String) : segments name ≠ [] := by
  obtain ⟨piece, pieces, h⟩ := Text.splitOnChar_eq_cons '/' name.toList
  rw [segments, segmentsOf, h]
  exact List.cons_ne_nil _ _

/-- A name with a slash has a last segment behind another one. -/
theorem segments_of_contains {name : String} (h : name.toList.contains '/' = true) :
    ∃ front segment last, segments name = front ++ [segment, last] := by
  rw [List.contains_iff_mem] at h
  obtain ⟨front, rest, hname⟩ := List.append_of_mem h
  obtain ⟨_, _, hfront⟩ := Text.splitOnChar_eq_cons '/' front
  obtain ⟨_, _, hrest⟩ := Text.splitOnChar_eq_cons '/' rest
  have many : 2 ≤ (segments name).length := by
    rw [segments, segmentsOf, hname, Text.splitOnChar_append, hfront, hrest]
    simp only [List.length_map, List.length_append, List.length_cons]
    omega
  generalize segments name = all at many
  obtain rfl | ⟨others, last, rfl⟩ := List.eq_nil_or_concat all
  · cases many
  obtain rfl | ⟨front, segment, rfl⟩ := List.eq_nil_or_concat others
  · cases Nat.le_of_succ_le_succ many
  · exact ⟨front, segment, last, by simp only [List.concat_eq_append, List.append_assoc]; rfl⟩

end FileName

/-! ## Joining -/

namespace Path

/-- The component that the beginning of a spelling stands for, besides its pieces. -/
def opening (cs : List Char) : List Component :=
  match cs with
  | '/' :: _ => [.root]
  | ['.'] | '.' :: '/' :: _ => [.current]
  | _ => []

theorem componentsOf_eq (cs : List Char) :
    componentsOf cs = opening cs ++ (Text.splitOnChar '/' cs).filterMap pieceComponent? := rfl

theorem opening_append_slash {cs : List Char} (h : cs ≠ []) (rest : List Char) :
    opening (cs ++ '/' :: rest) = opening cs := by
  obtain - | ⟨c, - | ⟨d, cs⟩⟩ := cs
  · exact absurd rfl h
  · unfold opening
    simp only [List.cons_append, List.nil_append]
    grind
  · unfold opening
    simp only [List.cons_append]
    grind

/-- What stands behind a slash adds its own pieces. -/
theorem componentsOf_append_slash {cs : List Char} (h : cs ≠ []) (rest : List Char) :
    componentsOf (cs ++ '/' :: rest) =
      componentsOf cs ++ (Text.splitOnChar '/' rest).filterMap pieceComponent? := by
  rw [componentsOf_eq, opening_append_slash h, Text.splitOnChar_append, List.filterMap_append,
    ← List.append_assoc, ← componentsOf_eq]

theorem pieceComponent?_segment {cs : List Char} (h : FileName.IsSegment cs) :
    pieceComponent? cs = some (.normal (String.ofList cs)) := by
  obtain ⟨notEmpty, notDot, notDots, -⟩ := h
  unfold pieceComponent?
  split <;> simp_all

theorem opening_segment {cs : List Char} (h : FileName.IsSegment cs) : opening cs = [] := by
  obtain ⟨notEmpty, notDot, notDots, plain⟩ := h
  unfold opening
  split <;> simp_all

theorem pieces_segment {cs : List Char} (h : FileName.IsSegment cs) :
    (Text.splitOnChar '/' cs).filterMap pieceComponent? = [.normal (String.ofList cs)] := by
  rw [Text.splitOnChar_plain h.2.2.2, List.filterMap_cons, pieceComponent?_segment h,
    List.filterMap_nil]

theorem toList_join {p : Path} {segment : String} (h : segment.toList.head? ≠ some '/') :
    (p.join segment).text.toList =
      match p.text.toList.getLast? with
      | none | some '/' => p.text.toList ++ segment.toList
      | _ => p.text.toList ++ '/' :: segment.toList := by
  unfold join
  rw [if_neg (by simpa using h)]
  split
  · simp_all
  · simp_all
  · simp_all

/-- Joining a segment adds it as a component, however the directory is spelled. -/
theorem components_join (p : Path) {segment : String}
    (h : FileName.IsSegment segment.toList) :
    (p.join segment).components = p.components ++ [.normal segment] := by
  have relative : segment.toList.head? ≠ some '/' := by
    intro head
    exact h.2.2.2 (List.mem_of_head? head)
  have pieces := pieces_segment h
  rw [String.ofList_toList] at pieces
  rw [components, components, toList_join relative]
  split
  · rename_i empty
    rw [List.getLast?_eq_none_iff] at empty
    rw [empty, List.nil_append, componentsOf_eq, opening_segment h, pieces]
    rfl
  · rename_i slash
    obtain ⟨front, hfront⟩ := List.getLast?_eq_some_iff.mp slash
    rw [hfront, List.append_assoc, List.singleton_append]
    by_cases root : front = []
    · subst root
      rw [List.nil_append, List.nil_append, componentsOf_eq, Text.splitOnChar]
      rw [if_pos rfl, List.filterMap_cons, pieces]
      rfl
    · rw [componentsOf_append_slash root, componentsOf_append_slash root, pieces]
      rw [show (Text.splitOnChar '/' []).filterMap pieceComponent? = [] from rfl, List.append_nil]
  · rename_i notEmpty _
    have text : p.text.toList ≠ [] := fun empty => notEmpty (by rw [empty]; rfl)
    rw [componentsOf_append_slash text, pieces]

/-- Joining segments one after another adds them all. -/
theorem components_foldl_join (segments : List String) (p : Path)
    (h : ∀ segment ∈ segments, FileName.IsSegment segment.toList) :
    (segments.foldl join p).components = p.components ++ segments.map .normal := by
  induction segments generalizing p with
  | nil => exact (List.append_nil _).symm
  | cons segment segments ih =>
    rw [List.forall_mem_cons] at h
    rw [List.foldl_cons, ih _ h.2, components_join p h.1, List.map_cons, List.append_assoc]
    rfl

/-! ## Parents of joined paths -/

theorem trimEnd_cons {c : Char} {rest : List Char} (noSlash : c ≠ '/')
    (noDot : c = '.' → rest.head? ≠ some '/') : trimEnd (c :: rest) = c :: rest := by
  unfold trimEnd
  split <;> simp_all

/-- Nothing is trimmed off a spelling that ends in a segment. -/
theorem trimEnd_reverse_segment {cs : List Char} (h : FileName.IsSegment cs) (rest : List Char) :
    trimEnd (cs.reverse ++ rest) = cs.reverse ++ rest := by
  obtain ⟨notEmpty, notDot, -, plain⟩ := h
  obtain ⟨c, front, hcs⟩ := List.exists_cons_of_ne_nil (List.reverse_ne_nil_iff.mpr notEmpty)
  have noSlash : '/' ∉ c :: front := by rwa [← hcs, List.mem_reverse]
  rw [List.mem_cons, not_or] at noSlash
  rw [hcs]
  refine trimEnd_cons (Ne.symm noSlash.1) ?_
  rintro rfl
  cases front with
  | nil => exact absurd (List.reverse_eq_iff.mp hcs) notDot
  | cons d front =>
    intro head
    exact noSlash.2 (List.mem_of_head? (by simpa using head))

/-- The path of a directory ends in the segment joined last. -/
theorem toList_join_segment (p : Path) {segment : String}
    (h : FileName.IsSegment segment.toList) :
    ∃ front, (p.join segment).text.toList = front ++ segment.toList := by
  rw [toList_join fun head => h.2.2.2 (List.mem_of_head? head)]
  split
  · exact ⟨_, rfl⟩
  · exact ⟨_, rfl⟩
  · exact ⟨_, List.append_cons ..⟩

/-- The parent of a segment below a segment is the path that it was joined to. -/
theorem parent?_join_join (p : Path) {segment last : String}
    (hsegment : FileName.IsSegment segment.toList) (hlast : FileName.IsSegment last.toList) :
    ((p.join segment).join last).parent? = some (p.join segment) := by
  obtain ⟨front, hfront⟩ := toList_join_segment p hsegment
  have noSlash : (p.join segment).text.toList.getLast? ≠ some '/' := by
    rw [hfront, List.getLast?_append, List.getLast?_eq_some_getLast hsegment.1, Option.some_or]
    intro slash
    exact hsegment.2.2.2 (Option.some.inj slash ▸ List.getLast_mem hsegment.1)
  have text : ((p.join segment).join last).text.toList =
      (p.join segment).text.toList ++ '/' :: last.toList := by
    rw [toList_join fun head => hlast.2.2.2 (List.mem_of_head? head)]
    split
    · simp_all [hsegment.1]
    · exact absurd ‹_› noSlash
    · rfl
  have trimmed : trimEnd (p.join segment).text.toList.reverse =
      (p.join segment).text.toList.reverse := by
    rw [hfront, List.reverse_append]
    exact trimEnd_reverse_segment hsegment _
  have notEmpty : (p.join segment).text.toList.reverse ≠ [] := by
    rw [hfront, List.reverse_append]
    simp [hsegment.1]
  have above : trimEnd ('/' :: (p.join segment).text.toList.reverse) =
      (p.join segment).text.toList.reverse := by
    rw [trimEnd, trimmed]
    simpa using notEmpty
  unfold parent?
  rw [components_join _ hlast, List.getLast?_concat]
  simp only
  rw [text, List.reverse_append, List.reverse_cons, List.append_assoc, List.singleton_append,
    trimEnd_reverse_segment hlast, List.dropWhile_append_of_pos, List.dropWhile_cons_of_neg (by simp),
    above, List.reverse_reverse, String.ofList_toList]
  intro c member
  rw [List.mem_reverse] at member
  simp only [bne_iff_ne, ne_eq]
  rintro rfl
  exact hlast.2.2.2 member

end Path

/-! ## Places -/

namespace Output

/-- The place of an accepted name is the directory and then the segments of the name. -/
theorem components_place (o : Output) {name : String} (accepted : FileName.fault? name = none) :
    (o.place name).components =
      o.directory.components ++ (FileName.segments name).map .normal :=
  Path.components_foldl_join _ _ (FileName.isSegment_of_accepted accepted)

/-- Different accepted names have different places. -/
theorem place_injective (o : Output) {name other : String}
    (accepted : FileName.fault? name = none) (accepted' : FileName.fault? other = none)
    (same : (o.place name).same (o.place other)) : name = other := by
  rw [Path.same, beq_iff_eq, components_place o accepted, components_place o accepted',
    List.append_cancel_left_eq] at same
  exact FileName.segments_injective
    ((List.map_inj_right fun _ _ => Path.Component.normal.inj).mp same)

/-- Strictly inside a directory, along segments. -/
def Below (directory path : Path) : Prop :=
  ∃ segments : List String, segments ≠ [] ∧
    (∀ segment ∈ segments, FileName.IsSegment segment.toList) ∧
      path.components = directory.components ++ segments.map .normal

theorem place_below (o : Output) {name : String} (accepted : FileName.fault? name = none) :
    Below o.directory (o.place name) :=
  ⟨FileName.segments name, FileName.segments_ne_nil name, FileName.isSegment_of_accepted accepted,
    components_place o accepted⟩

/-- The directory that an accepted name with several segments lies in. -/
theorem parent?_place (o : Output) {name : String} (accepted : FileName.fault? name = none)
    (nested : name.toList.contains '/' = true) :
    ∃ parent, (o.place name).parent? = some parent ∧ Below o.directory parent := by
  obtain ⟨front, segment, last, h⟩ := FileName.segments_of_contains nested
  have each := FileName.isSegment_of_accepted accepted
  rw [h] at each
  have hfront : ∀ s ∈ front ++ [segment], FileName.IsSegment s.toList := by
    intro s member
    refine each s ?_
    rw [List.append_cons]
    exact List.mem_append_left _ member
  have place : o.place name = ((front.foldl Path.join o.directory).join segment).join last := by
    rw [place, h, List.foldl_append]
    rfl
  refine ⟨_, place ▸ Path.parent?_join_join _ (hfront segment (by simp)) (each last (by simp)), ?_⟩
  refine ⟨front ++ [segment], by simp, hfront, ?_⟩
  rw [← Path.components_foldl_join _ _ hfront, List.foldl_append]
  rfl

end Output

end SchemaCompiler
