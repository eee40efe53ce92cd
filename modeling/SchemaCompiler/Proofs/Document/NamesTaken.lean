import SchemaCompiler.Proofs.Document.Naming

/-!
Names over a whole run.

Files are parsed one after another, whatever becomes of each of them. Behind any number of files the
names that are taken are those of the documents so far, each with the path of its file. So a file
that gave no document has taken no name, and a name is refused exactly when an earlier document has
it, before the source is looked at.
-/

namespace SchemaCompiler

/-- A file handed to the parser. -/
structure SourceFile where
  path : String
  source : String
deriving DecidableEq, Repr

namespace DocumentNames

/-- The names behind a file, whatever it came to. -/
def next (names : DocumentNames) (file : SourceFile) : DocumentNames :=
  (names.parse file.path file.source).2

def after (files : List SourceFile) : DocumentNames := files.foldl next empty

/-- The files that give a document when they are parsed one after another, each with its document. -/
def successes (names : DocumentNames) : List SourceFile → List (SourceFile × Document)
  | [] => []
  | file :: files =>
    match names.parse file.path file.source with
    | (.ok doc, names) => (file, doc) :: successes names files
    | (.error _, names) => successes names files

variable {names names' : DocumentNames} {given : List (SourceFile × Document)}

/-! ## One file -/

theorem parse_eq_nameTaken_iff {path source file name other : String} :
    (names.parse path source).1 = .error ⟨file, .nameTaken name other⟩ ↔
      file = path ∧ documentName? path = some name ∧ names.path? name = some other := by
  cases named : documentName? path with
  | none => simp [parse, named]
  | some stem =>
    cases taken : names.path? stem with
    | none =>
      rw [parse_of_free named taken]
      refine iff_of_false (fun failed => ?_) ?_
      · cases Document.position?_of_ofSource failed
      · rintro ⟨-, ⟨⟩, known⟩
        cases taken.symm.trans known
    | some owner =>
      simp only [parse, named, taken, Except.error.injEq, SourceError.mk.injEq,
        SourceFault.nameTaken.injEq, Option.some.injEq]
      constructor
      · rintro ⟨rfl, rfl, rfl⟩
        exact ⟨rfl, rfl, taken⟩
      · rintro ⟨rfl, rfl, known⟩
        exact ⟨rfl, rfl, Option.some.inj (taken.symm.trans known)⟩

/-! ## Files in a row -/

/-- The names are taken by these files, each of which gave its document. -/
structure TakenBy (names : DocumentNames) (given : List (SourceFile × Document)) : Prop where
  distinct : (given.map (·.2.name)).Nodup
  named : ∀ pair ∈ given, documentName? pair.1.path = some pair.2.name
  path?_eq : ∀ name path, names.path? name = some path ↔
    ∃ pair ∈ given, pair.2.name = name ∧ pair.1.path = path
  size_eq : names.size = given.length

theorem takenBy_empty : TakenBy empty [] :=
  ⟨List.nodup_nil, nofun, fun _ _ => ⟨nofun, nofun⟩, rfl⟩

theorem TakenBy.free_iff (h : TakenBy names given) (name : String) :
    names.path? name = none ↔ ∀ pair ∈ given, pair.2.name ≠ name := by
  rw [Option.eq_none_iff_forall_ne_some]
  constructor
  · intro free pair member same
    exact free _ ((h.path?_eq _ _).mpr ⟨pair, member, same, rfl⟩)
  · intro differ path taken
    obtain ⟨pair, member, same, -⟩ := (h.path?_eq _ _).mp taken
    exact differ pair member same

/-- A file that gives a document takes its name. -/
theorem TakenBy.concat (h : TakenBy names given) {file : SourceFile} {doc : Document}
    (parsed : names.parse file.path file.source = (.ok doc, names')) :
    TakenBy names' (given ++ [(file, doc)]) := by
  obtain ⟨named, -, free, rfl⟩ := parse_eq_ok parsed
  have fresh := (h.free_iff doc.name).mp free
  refine ⟨?_, ?_, fun name path => ?_, ?_⟩
  · rw [List.map_append, List.map_singleton, List.nodup_append]
    refine ⟨h.distinct, List.pairwise_singleton _ _, ?_⟩
    intro name old other new
    obtain ⟨pair, member, rfl⟩ := List.mem_map.mp old
    rw [List.mem_singleton.mp new]
    exact fresh pair member
  · rw [List.forall_mem_append, List.forall_mem_singleton]
    exact ⟨h.named, named⟩
  · simp only [path?_cons, List.mem_append, List.mem_singleton, or_and_right, exists_or,
      exists_eq_left]
    by_cases same : name = doc.name
    · subst same
      rw [if_pos rfl, Option.some.injEq]
      refine ⟨fun path => .inr ⟨rfl, path⟩, ?_⟩
      rintro (⟨pair, member, taken, -⟩ | ⟨-, path⟩)
      · exact absurd taken (fresh pair member)
      · exact path
    · rw [if_neg same, h.path?_eq]
      exact (or_iff_left fun ⟨mine, _⟩ => same mine.symm).symm
  · rw [List.length_append, List.length_singleton, ← h.size_eq]
    rfl

theorem TakenBy.foldl (h : TakenBy names given) (files : List SourceFile) :
    TakenBy (files.foldl next names) (given ++ names.successes files) := by
  induction files generalizing names given with
  | nil => rwa [successes, List.append_nil]
  | cons file files ih =>
    rw [List.foldl_cons, next, successes]
    rcases outcome : names.parse file.path file.source with ⟨e | doc, names'⟩
    · obtain rfl := parse_eq_error outcome
      exact ih h
    · have later := ih (h.concat outcome)
      rwa [List.append_assoc, List.singleton_append] at later

theorem takenBy_after (files : List SourceFile) : TakenBy (after files) (empty.successes files) :=
  takenBy_empty.foldl files

theorem mem_of_mem_successes {files : List SourceFile} {pair : SourceFile × Document}
    (h : pair ∈ names.successes files) : pair.1 ∈ files := by
  induction files generalizing names with
  | nil => cases h
  | cons file files ih =>
    rw [successes] at h
    split at h
    · rcases List.mem_cons.mp h with rfl | h
      · exact List.mem_cons_self
      · exact List.mem_cons_of_mem _ (ih h)
    · exact List.mem_cons_of_mem _ (ih h)

theorem TakenBy.stem (h : TakenBy names given) {pair : SourceFile × Document}
    (member : pair ∈ given) : (Path.mk pair.1.path).fileStem? = some pair.2.name :=
  (documentName?_eq_some_iff.mp (h.named pair member)).1

/-- A name is taken by the file that has it for a stem. -/
theorem TakenBy.taken_iff (h : TakenBy names given) {path name other : String} :
    documentName? path = some name ∧ names.path? name = some other ↔
      (Path.mk path).fileStem? = some name ∧
        ∃ pair ∈ given, (Path.mk pair.1.path).fileStem? = some name ∧ pair.1.path = other := by
  constructor
  · rintro ⟨named, taken⟩
    obtain ⟨pair, member, rfl, owner⟩ := (h.path?_eq _ _).mp taken
    exact ⟨(documentName?_eq_some_iff.mp named).1, pair, member, h.stem member, owner⟩
  · rintro ⟨stem, pair, member, same, owner⟩
    obtain rfl : pair.2.name = name := Option.some.inj ((h.stem member).symm.trans same)
    have nonempty := (documentName?_eq_some_iff.mp (h.named pair member)).2
    exact ⟨documentName?_eq_some_iff.mpr ⟨stem, nonempty⟩,
      (h.path?_eq _ _).mpr ⟨pair, member, rfl, owner⟩⟩

/-- Behind any files, the documents so far have names of their own, the stems of their files, and
these are the names that are taken. A next file that fails takes no name. It is refused for its name
exactly if an earlier file with the same stem gave a document, whatever its source; with another
name it comes to what its source says. -/
theorem taken_by_earlier_successes (files : List SourceFile) :
    let names := after files
    let given := empty.successes files
    (given.map (·.2.name)).Nodup ∧
      (∀ pair ∈ given, pair.1 ∈ files ∧ (Path.mk pair.1.path).fileStem? = some pair.2.name) ∧
      (∀ name, names.contains name = true ↔ name ∈ given.map (·.2.name)) ∧
      names.size = given.length ∧
      ∀ path source,
        (∀ e, (names.parse path source).1 = .error e → (names.parse path source).2 = names) ∧
        (∀ file name other,
          (names.parse path source).1 = .error ⟨file, .nameTaken name other⟩ ↔
            file = path ∧ (Path.mk path).fileStem? = some name ∧
              ∃ pair ∈ given, (Path.mk pair.1.path).fileStem? = some name ∧ pair.1.path = other) ∧
        ∀ name, documentName? path = some name → (∀ pair ∈ given, pair.2.name ≠ name) →
          (names.parse path source).1 = Document.ofSource name path source := by
  intro names given
  have taken : TakenBy names given := takenBy_after files
  refine ⟨taken.distinct, fun pair member => ⟨mem_of_mem_successes member, taken.stem member⟩,
    fun name => ?_, taken.size_eq, fun path source => ⟨fun e failed => ?_, fun file name other => ?_,
      fun name named differ => ?_⟩⟩
  · rw [contains, Option.isSome_iff_exists, List.mem_map]
    constructor
    · rintro ⟨path, known⟩
      obtain ⟨pair, member, same, -⟩ := (taken.path?_eq _ _).mp known
      exact ⟨pair, member, same⟩
    · rintro ⟨pair, member, same⟩
      exact ⟨pair.1.path, (taken.path?_eq _ _).mpr ⟨pair, member, same, rfl⟩⟩
  · rcases outcome : names.parse path source with ⟨result, names'⟩
    rw [outcome] at failed
    obtain rfl : result = .error e := failed
    exact parse_eq_error outcome
  · rw [parse_eq_nameTaken_iff, taken.taken_iff]
  · exact parse_of_free named ((taken.free_iff name).mpr differ) source

/-- The first file is malformed and leaves its name to the second one; the third one is refused for
its name although it is malformed as well. -/
theorem users_taken_once :
    let files : List SourceFile :=
      [⟨"old/users.gql", "type \x7b"⟩, ⟨"schemas/users.graphql", "scalar Time"⟩]
    let names := after files
    (empty.successes files).map (fun pair => (pair.1.path, pair.2.name)) =
        [("schemas/users.graphql", "users")] ∧
      names.contains "users" = true ∧ names.size = 1 ∧
      (names.parse "users.gql" "\x7d").1 =
        .error ⟨"users.gql", .nameTaken "users" "schemas/users.graphql"⟩ ∧
      (names.parse "users.gql" "\x7d").2 = names ∧
      (names.parse "posts.gql" "\x7d").1 = Document.ofSource "posts" "posts.gql" "\x7d" := by
  intro files names
  have given : (empty.successes files).map (fun pair => (pair.1.path, pair.2.name)) =
      [("schemas/users.graphql", "users")] := by decide +kernel
  obtain ⟨-, -, contains, size, next⟩ := taken_by_earlier_successes files
  obtain ⟨unchanged, refused, -⟩ := next "users.gql" "\x7d"
  obtain ⟨-, -, otherwise⟩ := next "posts.gql" "\x7d"
  have only : ∀ pair ∈ empty.successes files,
      (pair.1.path, pair.2.name) = ("schemas/users.graphql", "users") := by
    intro pair member
    have listed := List.mem_map_of_mem (f := fun pair => (pair.1.path, pair.2.name)) member
    rw [given] at listed
    exact List.mem_singleton.mp listed
  have one : (empty.successes files).length = 1 := by
    rw [← List.length_map (f := fun pair => (pair.1.path, pair.2.name)), given]
    rfl
  obtain ⟨pair, shape⟩ := List.length_eq_one_iff.mp one
  have member : pair ∈ empty.successes files := by
    rw [shape]
    exact List.mem_singleton.mpr rfl
  obtain ⟨path, name⟩ := Prod.mk.inj (only pair member)
  have taken := (refused "users.gql" "users" "schemas/users.graphql").mpr
    ⟨rfl, by decide +kernel, pair, member, by rw [path]; decide +kernel, path⟩
  refine ⟨given, (contains "users").mpr (List.mem_map.mpr ⟨pair, member, name⟩), size.trans one,
    taken, unchanged _ taken, otherwise "posts" (by decide +kernel) fun other among same => ?_⟩
  have mismatch := (Prod.mk.inj (only other among)).2.symm.trans same
  exact absurd mismatch (by decide)

end DocumentNames

end SchemaCompiler
