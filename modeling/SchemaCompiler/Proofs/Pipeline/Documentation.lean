import SchemaCompiler.Proofs.Document.Naming
import SchemaCompiler.Proofs.Pipeline.EarlyFailures
import SchemaCompiler.Proofs.Pipeline.Parallel
import SchemaCompiler.Proofs.Pipeline.Recorded

/-!
Runs that generate pages of documentation and nothing else.

The documents of a run have names of their own, so their pages have places of their own, and each
call settles by itself: it ends well with its page written, or it fails with an error that is never
about a file name taken before. Under every schedule, and with any number of jobs, such a run leaves
the files as they were but for the pages.
-/

namespace SchemaCompiler

open Program (Settles)

variable {σ : Type} {host : Host (StateM σ)} {view : Host.View host} {cancellations : Cancellations}
  {cancel : CancelContext}

/-! ## Names of documents -/

/-- Documents that were read are those of the inputs, in order, and have different names. -/
theorem Pipeline.InputsRead.named {importPaths : List Path} {names : DocumentNames}
    {inputs : List String} {docs : List Document} {r r' : Run} {s s' : σ}
    (read : InputsRead host importPaths names inputs docs r s r' s') :
    List.Forall₂ (fun input doc => doc.path = input ∧ documentName? input = some doc.name) inputs
        docs ∧
      (docs.map (·.name)).Nodup ∧ ∀ doc ∈ docs, names.path? doc.name = none := by
  induction read with
  | nil => exact ⟨.nil, List.nodup_nil, nofun⟩
  | cons _ _ _ parsed _ ih =>
    obtain ⟨named, path, free, same⟩ := DocumentNames.parse_eq_ok parsed
    subst same
    obtain ⟨each, distinct, others⟩ := ih
    refine ⟨.cons ⟨path, named⟩ each, List.nodup_cons.mpr ⟨fun taken => ?_, distinct⟩,
      List.forall_mem_cons.mpr ⟨free, fun other member => ?_⟩⟩
    · obtain ⟨other, member, same⟩ := List.mem_map.mp taken
      have unknown := others other member
      rw [DocumentNames.path?_cons, if_pos same] at unknown
      cases unknown
    · have unknown := others other member
      rw [DocumentNames.path?_cons] at unknown
      split at unknown
      · cases unknown
      · exact unknown

theorem Pipeline.InputsRead.plain {importPaths : List Path} {names : DocumentNames}
    {inputs : List String} {docs : List Document} {r r' : Run} {s s' : σ}
    (read : InputsRead host importPaths names inputs docs r s r' s') :
    ∀ doc ∈ docs, '/' ∉ doc.name.toList := by
  induction read with
  | nil => exact nofun
  | cons _ _ _ parsed _ ih =>
    rw [List.forall_mem_cons]
    exact ⟨slash_not_mem_of_documentName? (DocumentNames.parse_eq_ok parsed).1, ih⟩

/-! ## One page -/

/-- The page of a document, by the options of an entry, is all that a call has written. -/
def PageLeft (entry : Entry Generator) (doc : Document) (f : FileState) : Prop :=
  ∃ options, PageOptions.ofMembers entry.options = .ok options ∧
    f.contents = (FileState.empty.put (entry.directory.join (Page.fileName doc.name options))
      (Text.encode (Page.page doc options))).contents

theorem contents_of_pageLeft {entry : Entry Generator} {doc : Document} {f : FileState}
    {options : PageOptions} (given : PageOptions.ofMembers entry.options = .ok options)
    (left : PageLeft entry doc f) (path : Path) :
    f.contents path =
      if path.same (entry.directory.join (Page.fileName doc.name options)) then
        some (Text.encode (Page.page doc options))
      else none := by
  obtain ⟨options', given', same⟩ := left
  cases given.symm.trans given'
  rw [same]
  rfl

/-- The place of the page. -/
def PagePlace (entry : Entry Generator) (doc : Document) (path : Path) : Prop :=
  ∃ options, PageOptions.ofMembers entry.options = .ok options ∧
    path = entry.directory.join (Page.fileName doc.name options)

theorem Pages.generate_settles {entry : Entry Generator} {doc : Document} (cancel : CancelContext)
    (id : Nat) (plain : '/' ∉ doc.name.toList) :
    Settles view cancellations ⟨id, entry.directory⟩ (PagePlace entry doc)
      (fun result f _ => (result = .ok () → PageLeft entry doc f) ∧
        ∀ name, result ≠ .error (.failed (.output (.duplicate name))))
      (generate ⟨⟨id, entry.directory⟩, cancel, doc, entry.options⟩).run .empty [] := by
  unfold generate
  cases given : PageOptions.ofMembers entry.options with
  | error fault => exact ⟨nofun, nofun⟩
  | ok options =>
    simp only [pure_bind]
    refine (Program.settles_aside rfl).mpr fun done _ => ?_
    cases done with
    | true => exact ⟨nofun, nofun⟩
    | false =>
      refine (Program.settles_aside rfl).mpr fun _ _ => ?_
      let o : Output := ⟨id, entry.directory⟩
      let file := Page.fileName doc.name options
      let bytes := Text.encode (Page.page doc options)
      have place : o.place file = entry.directory.join file := Page.place_fileName o plain options
      refine (settles_work_writeFile bytes ⟨options, given, place⟩).mono ?_
      rintro _ _ _ ⟨rfl, rfl⟩
      rcases outcome : view.writing o file bytes [] with ⟨e | ⟨⟩, content⟩
      · refine ⟨nofun, fun name same => ?_⟩
        cases same
        exact writing_ne_duplicate List.not_mem_nil (congrArg Prod.fst outcome)
      · refine ⟨fun _ => ⟨options, given, ?_⟩, nofun⟩
        have whole := content_of_writing (congrArg Prod.fst outcome)
        rw [outcome] at whole
        cases whole
        rw [place]
        rfl

theorem Pages.generator_settles {entry : Entry Generator} {doc : Document} (id : Nat)
    (plain : '/' ∉ doc.name.toList) :
    Settles view cancellations ⟨id, entry.directory⟩ (PagePlace entry doc)
      (fun result f _ => (result = .ok () → PageLeft entry doc f) ∧
        ∀ e name, result = .error (.failed e) → e.cause ≠ .output (.duplicate name))
      (generator ⟨⟨id, entry.directory⟩, cancel, doc, entry.options⟩).run .empty [] := by
  refine (generate_settles cancel id plain).bind ?_
  rintro result f names ⟨left, fresh⟩
  rcases result with (e | p) | ⟨⟩
  · refine ⟨nofun, ?_⟩
    rintro _ name ⟨⟩ rfl
    exact fresh name rfl
  · exact ⟨nofun, nofun⟩
  · exact ⟨fun _ => left rfl, nofun⟩

/-- How a call of the generator of pages ends: the page is written, or the error is another one
than that of a file name taken before. -/
def PageCallEnds (entry : Entry Generator) (doc : Document)
    (result : Except (Abort CompileError) Unit) (f : FileState) : Prop :=
  (result = .ok () → PageLeft entry doc f) ∧
    ∀ e name, result = .error (.failed (.generator e)) → e.cause ≠ .output (.duplicate name)

theorem pageCall_settles {entry : Entry Generator} {doc : Document}
    (pages : entry.generator = Pages.generator) (plain : '/' ∉ doc.name.toList) (index id : Nat) :
    Settles view cancellations ⟨id, entry.directory⟩ (PagePlace entry doc)
      (fun result f _ => PageCallEnds entry doc result f)
      (Pipeline.call cancel ⟨index, entry, ⟨id, entry.directory⟩⟩ doc).run .empty [] := by
  refine (Program.settles_aside rfl).mpr fun done _ => ?_
  cases done with
  | true => exact ⟨nofun, nofun⟩
  | false =>
    refine (Program.settles_aside rfl).mpr fun _ _ => (Program.settles_aside rfl).mpr fun _ _ => ?_
    change Settles view cancellations ⟨id, entry.directory⟩ (PagePlace entry doc)
      (fun result f _ => PageCallEnds entry doc result f)
      (Work.mapError CompileError.generator _).run .empty []
    rw [Pipeline.run_mapError_generator, pages]
    refine (Pages.generator_settles id plain).bind ?_
    rintro result f names ⟨left, fresh⟩
    rcases result with (e | p) | ⟨⟩
    · refine ⟨nofun, ?_⟩
      rintro _ name ⟨⟩
      exact fresh e name rfl
    · exact ⟨nofun, nofun⟩
    · exact ⟨fun _ => left rfl, nofun⟩

/-! ## All pages -/

/-- The page of each document lies in the directory, and every other file is as it was. -/
structure PagesWritten (directory : Path) (options : PageOptions) (docs : List Document)
    (before after : Path → Option Bytes) : Prop where
  page : ∀ doc ∈ docs, ∀ path,
    path.same (directory.join (Page.fileName doc.name options)) = true →
      after path = some (Text.encode (Page.page doc options))
  elsewhere : ∀ path,
    (∀ doc ∈ docs, path.same (directory.join (Page.fileName doc.name options)) = false) →
      after path = before path

namespace Pipeline

theorem pagePlaces_apart (entry : Entry Generator) {docs : List Document}
    (distinct : (docs.map (·.name)).Nodup) (plain : ∀ doc ∈ docs, '/' ∉ doc.name.toList) :
    PlacesApart docs.length fun i => PagePlace entry (docs[i]?.getD default) := by
  rintro i j hi hj different _ _ ⟨options, given, rfl⟩ ⟨options', given', rfl⟩
  cases given.symm.trans given'
  simp only [List.getElem?_eq_getElem hi, List.getElem?_eq_getElem hj, Option.getD_some]
  by_contra together
  have same := Page.join_fileName_injective entry.directory (plain _ (List.getElem_mem hi))
    (plain _ (List.getElem_mem hj)) (Bool.not_eq_false _ ▸ together)
  refine different ((List.getElem?_inj (by rwa [List.length_map]) distinct).mp ?_)
  rw [List.getElem?_map, List.getElem?_map, List.getElem?_eq_getElem hi,
    List.getElem?_eq_getElem hj, Option.map_some, Option.map_some, same]

theorem pagesWritten_of_overlaid {entry : Entry Generator} {docs : List Document}
    {options : PageOptions} (given : PageOptions.ofMembers entry.options = .ok options)
    {own : Nat → FileState} {before after : Path → Option Bytes}
    (left : ∀ i, (inside : i < docs.length) → PageLeft entry docs[i] (own i))
    (files : Overlaid docs.length before (fun i => (own i).contents) after) :
    PagesWritten entry.directory options docs before after := by
  constructor
  · intro doc member path here
    obtain ⟨i, inside, rfl⟩ := List.mem_iff_getElem.mp member
    exact files.merged inside (by rw [contents_of_pageLeft given (left i inside), if_pos here])
  · intro path apart
    refine files.untouched fun i inside => ?_
    rw [contents_of_pageLeft given (left i inside), apart _ (List.getElem_mem inside)]
    rfl

theorem pairs_of_only {entries : List (Entry Generator)} {entry : Entry Generator}
    (only : entries.filter (·.activated) = [entry]) (id : Nat) (docs : List Document) :
    ∃ k, pairs (actives 0 id entries) docs =
      docs.map ((⟨k, entry, ⟨id, entry.directory⟩⟩ : ActiveEntry), ·) := by
  obtain ⟨k, single⟩ := actives_of_only only 0 id
  exact ⟨k, by simp [single, pairs]⟩

theorem pageCalls_settle {entries : List (Entry Generator)} {entry : Entry Generator}
    (only : entries.filter (·.activated) = [entry]) (pages : entry.generator = Pages.generator)
    {docs : List Document} (plain : ∀ doc ∈ docs, '/' ∉ doc.name.toList) {id i : Nat}
    {work : Work CompileError Unit}
    (here : (calls cancel (actives 0 id entries) docs)[i]? = some work) :
    Settles view cancellations (outputAt id entries docs i)
      (PagePlace entry (docs[i]?.getD default))
      (fun result f _ => PageCallEnds entry (docs[i]?.getD default) result f) work.run .empty [] := by
  obtain ⟨k, together⟩ := pairs_of_only only id docs
  rw [calls_eq, together, List.map_map, List.getElem?_map, Option.map_eq_some_iff] at here
  obtain ⟨doc, found, rfl⟩ := here
  have output : outputAt id entries docs i = ⟨id, entry.directory⟩ := by
    rw [outputAt, together, List.getElem?_map, found]
    rfl
  rw [output, found]
  exact pageCall_settles pages (plain doc (List.mem_of_getElem? found)) k id

theorem generate_pages {entries : List (Entry Generator)} {entry : Entry Generator}
    (only : entries.filter (·.activated) = [entry]) (pages : entry.generator = Pages.generator)
    {docs : List Document} (distinct : (docs.map (·.name)).Nodup)
    (plain : ∀ doc ∈ docs, '/' ∉ doc.name.toList) {r r' : Run} {s s' : σ}
    {calls calls' : List FileCall} (unbegun : Unbegun view cancellations r s calls)
    {schedule : List Nat} {settings : PipelineSettings} {result : Except (Abort CompileError) Unit}
    (h : generate host.recorded schedule settings cancel entries docs r (s, calls) =
      ((result, r'), (s', calls'))) :
    (result = .ok () → docs ≠ [] →
      ∃ options, PageOptions.ofMembers entry.options = .ok options ∧
        PagesWritten entry.directory options docs (view.files s).contents
          (view.files s').contents) ∧
    ∀ e name, contained .internalFault result = .error (.generator e) →
      e.cause ≠ .output (.duplicate name) := by
  have count : (pairs (actives 0 r.outputs.length entries) docs).length = docs.length := by
    obtain ⟨k, together⟩ := pairs_of_only only r.outputs.length docs
    rw [together, List.length_map]
  obtain ⟨well, failed⟩ := generate_settles
    (count ▸ pagePlaces_apart entry distinct plain) (pageCalls_settle only pages plain) unbegun h
  rw [count] at well failed
  refine ⟨fun ended some => ?_, fun e name same => ?_⟩
  · obtain ⟨own, left, files⟩ := well ended
    have left (i : Nat) (inside : i < docs.length) : PageLeft entry docs[i] (own i) := by
      have page := (left i inside).1 rfl
      rwa [List.getElem?_eq_getElem inside] at page
    obtain ⟨options, given, -⟩ := left 0 (List.length_pos_iff.mpr some)
    exact ⟨options, given, pagesWritten_of_overlaid given left files⟩
  · obtain ⟨i, -, ended, f, ends, also⟩ := failed _ same
    exact ends.2 e name (failed_of_contained also)

end Pipeline

namespace Compiler

open Pipeline

/-- A run with only the generator of pages activated. If it ends well, its documents are those of
the inputs, in order and with different names, the page of each of them lies in the output
directory, and nothing else was written. It never finds the name of a page taken. -/
theorem run_writes_pages (view : Host.View host) (c : Compiler) {args : List String}
    {line : CommandLine} {entries : List (Entry Generator)} {entry : Entry Generator}
    (configured : c.configure args = .ok (line, entries))
    (only : entries.filter (·.activated) = [entry]) (pages : entry.generator = Pages.generator)
    (schedule : List Nat) (cancel : CancelContext) {r r' : Run} {s s' : σ}
    (calm : view.Calm r.cancellations r) (valid : view.Valid s)
    {result : Except CompileError (List Document)}
    (h : c.run host schedule args cancel r s = ((result, r'), s')) :
    (∀ docs, result = .ok docs →
      List.Forall₂ (fun input doc => doc.path = input ∧ documentName? input = some doc.name)
        line.files docs ∧
      (docs.map (·.name)).Nodup ∧
      (∃ r₁ s₁, InputsRead host line.importPaths .empty line.files docs r s r₁ s₁) ∧
      ∃ options, PageOptions.ofMembers entry.options = .ok options ∧
        PagesWritten entry.directory options docs (view.files s).contents
          (view.files s').contents) ∧
    ∀ e name, result = .error (.generator e) → e.cause ≠ .output (.duplicate name) := by
  rcases loads : Run.execute host (load ⟨line.importPaths, 1⟩ line.files).run r s with
    ⟨⟨loaded, r₁⟩, s₁⟩
  obtain ⟨r₂, s₂, looks, ran, -, files, begun⟩ :=
    run_eq configured schedule cancel calm valid (congrArg (·.1.1) loads)
  obtain ⟨calls, recorded⟩ := run_recorded host schedule c args cancel r s []
  rw [recorded, h] at ran
  dsimp only at ran
  cases loaded with
  | error e =>
    cases ran
    refine ⟨nofun, fun cause name same => ?_⟩
    cases same
    exact absurd trivial (Run.execute_ends (load_failsEarly _ _) loads _ rfl)
  | ok docs =>
    obtain ⟨read, -⟩ := inputsRead_of_load loads
    obtain ⟨each, distinct, -⟩ := read.named
    rcases generated : generate host.recorded schedule ⟨line.importPaths, max line.jobs 1⟩ cancel
      entries docs r₂ (s₂, looks) with ⟨⟨ended, r₃⟩, s₃, calls₃⟩
    obtain ⟨well, failed⟩ := generate_pages only pages distinct read.plain begun generated
    rw [finish_of_generate generated] at ran
    simp only [contained_map] at ran
    cases ran
    cases outcome : contained .internalFault ended with
    | error e =>
      refine ⟨nofun, fun cause name same => ?_⟩
      cases same
      exact failed cause name outcome
    | ok =>
      have some : docs ≠ [] := by
        rintro rfl
        rw [List.forall₂_nil_right_iff.mp each, load_nil_fails] at loads
        cases loads
      obtain ⟨options, given, written⟩ := well (contained_eq_ok outcome) some
      rw [files] at written
      refine ⟨fun docs' same => ?_, nofun⟩
      cases same
      exact ⟨each, distinct, ⟨r₁, s₁, read⟩, options, given, written⟩

/-- Pages of documentation, and nothing else. -/
def documenting : Compiler :=
  { registry := ⟨[⟨Pages.generator, "doc", "doc_out", some "doc_opt", "", false⟩], none⟩
    plugin := fun _ name => Behaviour.write.generator name
    logging := none }

/-- Two inputs, and a page from an earlier run. -/
def documented : Sandbox :=
  { Sandbox.empty with
    memory := Memory.ofFiles [(⟨"a.gql"⟩, Text.encode "scalar A"),
      (⟨"b.gql"⟩, Text.encode "type B { x: A }"), (⟨"out/a.md"⟩, [0]), (⟨"out/c.md"⟩, [1])] }

/-- Two jobs write two pages, one of them over a page from before, and leave the rest alone. -/
theorem two_pages_written :
    let ended := documenting.run (Sandbox.host Sandbox.memoryFiles) [1, 0, 1]
      ["compiler", "--jobs", "2", "--doc_out", "out", "a.gql", "b.gql"] ⟨0, none⟩ (.start .empty)
      documented
    ∃ a b, ended.1.1 = .ok [a, b] ∧ a.name = "a" ∧ b.name = "b" ∧
      ended.2.memory.get? ⟨"out/a.md"⟩ = some (Text.encode (Page.page a .default)) ∧
      ended.2.memory.get? ⟨"out/b.md"⟩ = some (Text.encode (Page.page b .default)) ∧
      ended.2.memory.get? ⟨"out/c.md"⟩ = some [1] := by
  intro ended
  let view := Sandbox.memoryView documented.memory.failing
  let entry : Entry Generator := ⟨Pages.generator, "doc", ⟨"out"⟩, [], true⟩
  let line : CommandLine := ⟨[⟨"."⟩], false, 2, ["a.gql", "b.gql"], [("doc_out", "out")]⟩
  have configured : documenting.configure
      ["compiler", "--jobs", "2", "--doc_out", "out", "a.gql", "b.gql"] = .ok (line, [entry]) := rfl
  have calm : view.Calm Cancellations.empty (.start .empty) := ⟨rfl, nofun⟩
  have valid : view.Valid documented := ⟨rfl, nofun⟩
  have parts (x : (Except CompileError (List Document) × Run) × Sandbox) :
      x = ((x.1.1, x.1.2), x.2) := rfl
  have well : ended.1.1.toBool = true := by decide +kernel
  obtain ⟨written, -⟩ := run_writes_pages view documenting configured rfl rfl [1, 0, 1] ⟨0, none⟩
    calm valid (parts ended)
  clear_value ended
  cases result : ended.1.1 with
  | error e =>
    rw [result] at well
    cases well
  | ok docs =>
    obtain ⟨each, -, -, options, given, pages⟩ := written docs result
    cases given
    rcases each with _ | ⟨⟨-, named⟩, _ | ⟨⟨-, named'⟩, ⟨⟩⟩⟩
    rename_i a b
    have nameA : a.name = "a" := by
      have stem : documentName? "a.gql" = some "a" := by decide +kernel
      exact Option.some.inj (named.symm.trans stem)
    have nameB : b.name = "b" := by
      have stem : documentName? "b.gql" = some "b" := by decide +kernel
      exact Option.some.inj (named'.symm.trans stem)
    refine ⟨a, b, rfl, nameA, nameB, pages.page a (by simp) _ ?_, pages.page b (by simp) _ ?_, ?_⟩
    · rw [nameA]
      decide
    · rw [nameB]
      decide
    · refine (pages.elsewhere _ ?_).trans rfl
      simp only [List.mem_cons, List.not_mem_nil, or_false, forall_eq_or_imp, forall_eq, nameA,
        nameB]
      decide

end Compiler

end SchemaCompiler
