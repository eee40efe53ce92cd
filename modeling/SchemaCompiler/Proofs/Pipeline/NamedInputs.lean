import SchemaCompiler.Proofs.Document.Naming
import SchemaCompiler.Proofs.Output.Segments
import SchemaCompiler.Proofs.Pipeline.EarlyFailures

/-!
Inputs have names.

A path that is accepted as an input has a file name with an extension, so there is a stem in front
of the extension to name the document after. The stem has no slash in it, and with the ending of a
page behind it it is one segment: nothing but a backslash or a drive letter can make it a name that
an output refuses.
-/

namespace SchemaCompiler

variable {σ : Type}

/-! ## Names of pages -/

namespace Page

/-- The ending of a page's name does not make a drive letter. -/
theorem hasDriveLetter_fileName {name : String} (nonempty : name ≠ "") (options : PageOptions) :
    FileName.hasDriveLetter (fileName name options).toList =
      FileName.hasDriveLetter name.toList := by
  obtain ⟨ending, same⟩ : ∃ ending,
      (fileName name options).toList = name.toList ++ '.' :: ending := by
    cases html : options.html
    · exact ⟨['m', 'd'], by simp [fileName, html]⟩
    · exact ⟨['h', 't', 'm', 'l'], by simp [fileName, html]⟩
  rw [same]
  rcases shape : name.toList with - | ⟨c, - | ⟨d, rest⟩⟩
  · exact absurd (String.toList_eq_nil_iff.mp shape) nonempty
  · rfl
  · unfold FileName.hasDriveLetter
    simp only [List.cons_append]
    grind

theorem fault?_fileName {name : String} (nonempty : name ≠ "") (plain : '/' ∉ name.toList)
    (options : PageOptions) :
    FileName.fault? (fileName name options) =
      if '\\' ∈ name.toList then some .backslash
      else if FileName.hasDriveLetter name.toList then some .driveLetter else none := by
  have backslash : '\\' ∈ (fileName name options).toList ↔ '\\' ∈ name.toList := by
    cases html : options.html <;> simp [fileName, html]
  rw [FileName.fault?, FileName.faultOf?_of_isSegment (isSegment_fileName plain options),
    hasDriveLetter_fileName nonempty]
  simp only [backslash]

end Page

/-! ## Loading -/

namespace Pipeline

open Program (EndsWith)

/-- An input was refused for want of a name. -/
def IsUnnamed (e : CompileError) : Prop := ∃ file, e = .parse ⟨file, .unnamed⟩

theorem parseInput_named (importPaths : List Path) (names : DocumentNames) {input : String}
    (known : hasSourceExtension input = true) :
    EndsWith (fun result => ∀ e, result = .error e → ¬IsUnnamed e)
      (parseInput importPaths names input).run := by
  obtain ⟨name, named⟩ := exists_documentName? known
  rw [run_parseInput]
  refine EndsWith.bind (Program.ends_anyhow _) fun path _ => .ask fun content => .done ?_
  rintro _ failed ⟨file, rfl⟩
  unfold parseContent at failed
  split at failed
  · cases failed
  split at failed
  · cases failed
  split at failed
  · next outcome =>
    cases failed
    exact DocumentNames.parse_ne_unnamed named _ file (congrArg Prod.fst outcome)
  · cases failed

theorem parseInputs_named (importPaths : List Path) (names : DocumentNames) {inputs : List String}
    (known : ∀ input ∈ inputs, hasSourceExtension input = true) :
    EndsWith (fun result => ∀ e, result = .error e → ¬IsUnnamed e)
      (parseInputs importPaths names inputs).run := by
  induction inputs generalizing names with
  | nil => exact .done nofun
  | cons input inputs ih =>
    obtain ⟨first, others⟩ := List.forall_mem_cons.mp known
    refine Program.endsWith_bind (parseInput_named importPaths names first) fun parsed => ?_
    exact Program.endsWith_bind (ih parsed.2 others) fun docs => .done nofun

/-- What is wrong with a list of inputs is not a missing name, and if nothing is, all are known. -/
theorem known_of_inputsError? {inputs : List String} (sound : inputsError? inputs = none) :
    ∀ input ∈ inputs, hasSourceExtension input = true := by
  unfold inputsError? at sound
  split at sound
  · cases sound
  · rw [Option.map_eq_none_iff, List.find?_eq_none] at sound
    intro input member
    simpa using sound input member

theorem not_isUnnamed_of_inputsError? {inputs : List String} {e : CompileError}
    (wrong : inputsError? inputs = some e) : ¬IsUnnamed e := by
  rintro ⟨file, rfl⟩
  unfold inputsError? at wrong
  split at wrong
  · cases wrong
  · obtain ⟨input, -, impossible⟩ := Option.map_eq_some_iff.mp wrong
    cases impossible

/-- Loading refuses no input for want of a name. -/
theorem load_named (settings : PipelineSettings) (inputs : List String) :
    EndsWith (fun result => ∀ e, result = .error e → ¬IsUnnamed e) (load settings inputs).run := by
  rw [load]
  cases wrong : inputsError? inputs with
  | some e =>
    refine .done fun e same => ?_
    cases same
    exact not_isUnnamed_of_inputsError? wrong
  | none =>
    refine Program.endsWith_bind (parseInputs_named _ _ (known_of_inputsError? wrong)) fun docs => ?_
    dsimp only
    split
    · refine .done fun e same => ?_
      cases same
    · refine .ask fun _ => .done fun e same => ?_
      cases same
      rintro ⟨file, impossible⟩
      cases impossible

/-- Every path with the extension of a schema file has a name, which is not empty and has no slash
in it; the name of its page is refused exactly for a backslash in it or for a drive letter at its
beginning. And whatever the files, loading never ends for want of a name. -/
theorem schema_files_named :
    (∀ path, hasSourceExtension path = true →
      ∃ name, documentName? path = some name ∧ name ≠ "" ∧ '/' ∉ name.toList ∧
        ∀ options fault, FileName.fault? (Page.fileName name options) = some fault ↔
          fault = .backslash ∧ '\\' ∈ name.toList ∨
            fault = .driveLetter ∧ '\\' ∉ name.toList ∧
              ∃ letter rest, FileName.isLetter letter = true ∧
                name.toList = letter :: ':' :: rest) ∧
      ∀ (host : Host (StateM σ)) (settings : PipelineSettings) (inputs : List String) (r : Run)
        (s : σ) (file : String),
        (Run.execute host (load settings inputs).run r s).1.1 ≠
          .error (.parse ⟨file, .unnamed⟩) := by
  refine ⟨fun path known => ?_, fun host settings inputs r s file failed => ?_⟩
  · obtain ⟨name, named⟩ := exists_documentName? known
    have nonempty := (documentName?_eq_some_iff.mp named).2
    have plain := slash_not_mem_of_documentName? named
    refine ⟨name, named, nonempty, plain, fun options fault => ?_⟩
    rw [Page.fault?_fileName nonempty plain, ← FileName.hasDriveLetter_eq_true_iff]
    constructor
    · intro refused
      split at refused
      · next backslash => exact .inl ⟨(Option.some.inj refused).symm, backslash⟩
      split at refused
      · next plain drive => exact .inr ⟨(Option.some.inj refused).symm, plain, drive⟩
      · cases refused
    · rintro (⟨rfl, backslash⟩ | ⟨rfl, plain, drive⟩)
      · rw [if_pos backslash]
      · rw [if_neg plain, if_pos drive]
  · rcases ended : Run.execute host (load settings inputs).run r s with ⟨⟨result, r'⟩, s'⟩
    rw [ended] at failed
    exact Run.execute_ends (load_named settings inputs) ended _ failed ⟨file, rfl⟩

/-- A stem of two dots makes no bad segment, and one like a drive is the only thing refused. -/
theorem dots_and_drive_named :
    documentName? "api/...graphql/." = some ".." ∧
      (∀ options, FileName.fault? (Page.fileName ".." options) = none) ∧
      documentName? "api/c:.gql" = some "c:" ∧
      ∀ options, FileName.fault? (Page.fileName "c:" options) = some .driveLetter := by
  have dots : documentName? "api/...graphql/." = some ".." := by decide +kernel
  have drive : documentName? "api/c:.gql" = some "c:" := by decide +kernel
  obtain ⟨_, named, -, -, refused⟩ :=
    (@schema_files_named Unit).1 "api/...graphql/." (by decide +kernel)
  obtain ⟨_, named', -, -, refused'⟩ :=
    (@schema_files_named Unit).1 "api/c:.gql" (by decide +kernel)
  cases dots.symm.trans named
  cases drive.symm.trans named'
  refine ⟨dots, fun options => ?_, drive, fun options => ?_⟩
  · rw [Option.eq_none_iff_forall_ne_some]
    intro fault same
    rcases (refused options fault).mp same with ⟨-, backslash⟩ | ⟨-, -, letter, rest, -, begins⟩
    · revert backslash
      decide
    · cases begins
  · exact (refused' options .driveLetter).mpr (.inr ⟨rfl, by decide, 'c', [], rfl, rfl⟩)

end Pipeline

end SchemaCompiler
