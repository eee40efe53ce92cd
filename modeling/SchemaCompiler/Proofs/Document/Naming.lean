import SchemaCompiler.Document.Naming
import SchemaCompiler.Page.Html
import SchemaCompiler.Proofs.Output.Places

/-!
Names of documents, and of their pages.

A document has the stem of its file for a name, so the name has no slash in it, and the page of the
document lies right inside the directory of an output. Names are taken once, and so are the places
of pages.
-/

namespace SchemaCompiler

/-! ## Stems of files -/

namespace Path

theorem pieceComponent?_eq_normal {piece : List Char} {name : String}
    (h : pieceComponent? piece = some (.normal name)) : name.toList = piece := by
  unfold pieceComponent? at h
  split at h <;> cases h
  exact String.toList_ofList

theorem normal_not_mem_opening (cs : List Char) (name : String) :
    Component.normal name ∉ opening cs := by
  unfold opening
  split <;> simp

theorem slash_not_mem_of_normal {p : Path} {name : String} (h : .normal name ∈ p.components) :
    '/' ∉ name.toList := by
  rw [components, componentsOf_eq] at h
  rcases List.mem_append.mp h with front | pieces
  · exact absurd front (normal_not_mem_opening _ _)
  · obtain ⟨piece, member, component⟩ := List.mem_filterMap.mp pieces
    rw [pieceComponent?_eq_normal component]
    exact Text.not_mem_of_mem_splitOnChar member

theorem fileName?_mem {p : Path} {name : String} (h : p.fileName? = some name) :
    .normal name ∈ p.components := by
  unfold fileName? at h
  split at h
  · rename_i last
    cases h
    exact List.mem_of_getLast? last
  · cases h

theorem mem_of_mem_cutExtension {name : List Char} {c : Char} (h : c ∈ (cutExtension name).1) :
    c ∈ name := by
  unfold cutExtension at h
  dsimp only at h
  split at h
  · exact h
  · exact h
  · rename_i dot stem _ front
    rw [List.mem_reverse] at h
    have inside : c ∈ name.reverse.dropWhile (· != '.') := by
      rw [front]
      exact List.mem_cons_of_mem dot h
    exact List.mem_reverse.mp ((List.dropWhile_suffix _).subset inside)

theorem slash_not_mem_of_fileStem? {p : Path} {stem : String} (h : p.fileStem? = some stem) :
    '/' ∉ stem.toList := by
  obtain ⟨name, found, rfl⟩ := Option.map_eq_some_iff.mp h
  rw [String.toList_ofList]
  intro slash
  exact slash_not_mem_of_normal (fileName?_mem found) (mem_of_mem_cutExtension slash)

/-- A name with an extension has something in front of it. -/
theorem cutExtension_fst_ne_nil {name tail : List Char} (h : (cutExtension name).2 = some tail) :
    (cutExtension name).1 ≠ [] := by
  unfold cutExtension at h ⊢
  dsimp only at h ⊢
  cases front : name.reverse.dropWhile (· != '.') with
  | nil =>
    rw [front] at h
    cases h
  | cons dot stem =>
    have isDot : dot = '.' := by
      have head := List.head?_dropWhile_not (· != '.') name.reverse
      rw [front] at head
      simpa using head
    subst isDot
    rw [front] at h
    cases stem with
    | nil => cases h
    | cons c stem => simp

theorem fileStem?_of_extension? {p : Path} {ending : String} (h : p.extension? = some ending) :
    ∃ stem, p.fileStem? = some stem ∧ stem ≠ "" := by
  obtain ⟨name, found, cut⟩ := Option.bind_eq_some_iff.mp h
  obtain ⟨tail, cut, -⟩ := Option.map_eq_some_iff.mp cut
  refine ⟨_, by rw [fileStem?, found, Option.map_some], ?_⟩
  rw [Ne, String.ofList_eq_empty_iff]
  exact cutExtension_fst_ne_nil cut

end Path

theorem documentName?_eq_some_iff {path name : String} :
    documentName? path = some name ↔ (Path.mk path).fileStem? = some name ∧ name ≠ "" := by
  rw [documentName?, Option.filter_eq_some_iff, decide_eq_true_iff]

/-- A schema file has a name. -/
theorem exists_documentName? {path : String} (known : hasSourceExtension path = true) :
    ∃ name, documentName? path = some name := by
  obtain ⟨ending, found, -⟩ := (Option.any_eq_true _ _).mp known
  obtain ⟨stem, cut, nonempty⟩ := Path.fileStem?_of_extension? found
  exact ⟨stem, documentName?_eq_some_iff.mpr ⟨cut, nonempty⟩⟩

theorem slash_not_mem_of_documentName? {path name : String} (h : documentName? path = some name) :
    '/' ∉ name.toList :=
  Path.slash_not_mem_of_fileStem? (documentName?_eq_some_iff.mp h).1

/-! ## Names of a run -/

theorem Document.of_ofSource {name path source : String} {doc : Document}
    (h : ofSource name path source = .ok doc) : doc.name = name ∧ doc.path = path := by
  unfold ofSource at h
  split at h
  · cases h
  split at h <;> cases h
  exact ⟨rfl, rfl⟩

/-- A source that gives no document is at fault at some place in it. -/
theorem Document.position?_of_ofSource {name path source : String} {e : SourceError}
    (h : ofSource name path source = .error e) : e.fault.position?.isSome := by
  unfold ofSource at h
  split at h
  · cases h
    rfl
  split at h <;> cases h
  rfl

namespace DocumentNames

/-- What a file parses to is named after it, by a name that nobody had taken. -/
theorem parse_eq_ok {names names' : DocumentNames} {path source : String} {doc : Document}
    (h : names.parse path source = (.ok doc, names')) :
    documentName? path = some doc.name ∧ doc.path = path ∧ names.path? doc.name = none ∧
      names' = ⟨(doc.name, path) :: names.taken⟩ := by
  unfold parse at h
  split at h
  · cases h
  rename_i name named
  split at h
  · cases h
  rename_i free
  split at h <;> cases h
  rename_i parsed
  obtain ⟨rfl, rfl⟩ := Document.of_ofSource parsed
  exact ⟨named, rfl, free, rfl⟩

theorem parse_eq_error {names names' : DocumentNames} {path source : String} {e : SourceError}
    (h : names.parse path source = (.error e, names')) : names' = names := by
  unfold parse at h
  split at h
  · cases h
    rfl
  split at h
  · cases h
    rfl
  split at h <;> cases h
  rfl

/-- A file whose name is free comes to what its source says. -/
theorem parse_of_free {names : DocumentNames} {path name : String}
    (named : documentName? path = some name) (free : names.path? name = none) (source : String) :
    (names.parse path source).1 = Document.ofSource name path source := by
  simp only [parse, named, free]
  split <;> next parsed => exact parsed.symm

theorem parse_ne_unnamed {names : DocumentNames} {path name : String}
    (named : documentName? path = some name) (source file : String) :
    (names.parse path source).1 ≠ .error ⟨file, .unnamed⟩ := by
  intro failed
  cases taken : names.path? name with
  | none =>
    rw [parse_of_free named taken] at failed
    cases Document.position?_of_ofSource failed
  | some other =>
    simp only [parse, named, taken] at failed
    cases failed

theorem path?_cons (names : DocumentNames) (name path other : String) :
    path? ⟨(name, path) :: names.taken⟩ other =
      if other = name then some path else names.path? other := by
  rw [path?, List.lookup_cons]
  by_cases same : other = name
  · rw [if_pos same, beq_iff_eq.mpr same]
  · rw [if_neg same, beq_eq_false_iff_ne.mpr same]
    rfl

end DocumentNames

/-! ## Places of pages -/

namespace Page

theorem fileName_injective {name other : String} {options : PageOptions}
    (same : fileName name options = fileName other options) : name = other := by
  rw [fileName, fileName, ← String.toList_inj, String.toList_append, String.toList_append] at same
  exact String.toList_inj.mp (List.append_cancel_right same)

theorem isSegment_fileName {name : String} (plain : '/' ∉ name.toList) (options : PageOptions) :
    FileName.IsSegment (fileName name options).toList := by
  obtain ⟨ending, same, long, plainEnding⟩ : ∃ ending, (fileName name options).toList =
      name.toList ++ ending ∧ 2 < ending.length ∧ '/' ∉ ending := by
    cases html : options.html
    · exact ⟨['.', 'm', 'd'], by simp [fileName, html], by decide, by decide⟩
    · exact ⟨['.', 'h', 't', 'm', 'l'], by simp [fileName, html], by decide, by decide⟩
  have length : 2 < (fileName name options).toList.length := by
    rw [same, List.length_append]
    omega
  refine ⟨?_, ?_, ?_, ?_⟩
  · intro short
    simp [short] at length
  · intro short
    simp [short] at length
  · intro short
    simp [short] at length
  · rw [same, List.mem_append, not_or]
    exact ⟨plain, plainEnding⟩

/-- A page lies right inside the directory of its output. -/
theorem place_fileName (o : Output) {name : String} (plain : '/' ∉ name.toList)
    (options : PageOptions) :
    o.place (fileName name options) = o.directory.join (fileName name options) := by
  have noSlash := (isSegment_fileName plain options).2.2.2
  rw [Output.place, FileName.segments, FileName.segmentsOf, Text.splitOnChar_plain noSlash]
  simp

theorem join_fileName_injective (directory : Path) {name other : String}
    (plain : '/' ∉ name.toList) (plain' : '/' ∉ other.toList) {options : PageOptions}
    (same : (directory.join (fileName name options)).same
      (directory.join (fileName other options))) : name = other := by
  rw [Path.same, beq_iff_eq, Path.components_join _ (isSegment_fileName plain options),
    Path.components_join _ (isSegment_fileName plain' options), List.append_cancel_left_eq,
    List.cons.injEq, Path.Component.normal.injEq] at same
  exact fileName_injective same.1

end Page

end SchemaCompiler
