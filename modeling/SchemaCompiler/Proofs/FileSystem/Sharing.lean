import SchemaCompiler.Proofs.FileSystem.View

/-!
Files and outputs that several parties share, each with places of its own.

Each party knows the files that it has put, those that it has open, and the names that it took. As
long as no two of them have a place in common, what each knows is true of the whole, and what one of
them does next leaves the others' knowledge true.
-/

namespace SchemaCompiler

/-- No two of the parties have a place in common. -/
def PlacesApart (count : Nat) (places : Nat → Path → Prop) : Prop :=
  ∀ {i j : Nat}, i < count → j < count → i ≠ j → ∀ {p q : Path}, places i p → places j q →
    p.same q = false

theorem PlacesApart.mono {count fewer : Nat} {places : Nat → Path → Prop}
    (h : PlacesApart count places) (le : fewer ≤ count) : PlacesApart fewer places :=
  fun hi hj => h (Nat.lt_of_lt_of_le hi le) (Nat.lt_of_lt_of_le hj le)

/-! ## Files -/

/-- Files as parties share them. -/
structure FilesShared (count : Nat) (places : Nat → Path → Prop) (before : Path → Option Bytes)
    (own : Nat → FileState) (f : FileState) : Prop where
  merged : ∀ {i}, i < count → ∀ {path data}, (own i).contents path = some data →
    f.contents path = some data
  untouched : ∀ {path}, (∀ i < count, (own i).contents path = none) →
    f.contents path = before path
  within : ∀ {i}, i < count → ∀ {path data}, (own i).contents path = some data →
    ∃ place, places i place ∧ path.same place
  opened : ∀ {i}, i < count → ∀ {handle file}, (own i).desk handle = some file →
    f.desk handle = some file ∧ places i file.1
  single : ∀ {i j}, i < count → j < count → i ≠ j → ∀ {handle file},
    (own i).desk handle = some file → (own j).desk handle = none

namespace FilesShared

variable {count : Nat} {places : Nat → Path → Prop} {before : Path → Option Bytes}
  {own : Nat → FileState} {f : FileState} {i : Nat}

/-- A party puts a file at a place of its own. -/
theorem put (h : FilesShared count places before own f) (apart : PlacesApart count places)
    (inside : i < count) {path : Path} (place : places i path) (data : Bytes) :
    FilesShared count places before (Function.update own i ((own i).put path data))
      (f.put path data) := by
  have desk (j : Nat) : (Function.update own i ((own i).put path data) j).desk = (own j).desk := by
    by_cases same : j = i
    · subst same
      simp
    · simp [same]
  constructor
  · intro j hj q content
    rw [FileState.put_contents]
    by_cases same : j = i
    · subst same
      rw [Function.update_self, FileState.put_contents]
      split
      · exact id
      · exact h.merged hj
    · rw [Function.update_of_ne same]
      intro here
      -- what another party has put lies at a place of that party, so not at `path`
      obtain ⟨other, otherPlace, sameOther⟩ := h.within hj here
      have elsewhere : q.same path = false := by
        rw [Path.same_congr sameOther]
        exact apart hj inside same otherPlace place
      rw [elsewhere]
      exact h.merged hj here
  · intro q nothing
    have mine := nothing i inside
    rw [Function.update_self, FileState.put_contents] at mine
    rw [FileState.put_contents]
    split at mine
    · cases mine
    · rename_i elsewhere
      rw [if_neg elsewhere]
      refine h.untouched fun j hj => ?_
      by_cases same : j = i
      · subst same
        exact mine
      · have theirs := nothing j hj
        rwa [Function.update_of_ne same] at theirs
  · intro j hj q content
    by_cases same : j = i
    · subst same
      rw [Function.update_self, FileState.put_contents]
      split
      · exact fun _ => ⟨path, place, ‹_›⟩
      · exact h.within hj
    · rw [Function.update_of_ne same]
      exact h.within hj
  · intro j hj handle file
    rw [desk]
    exact h.opened hj
  · intro j k hj hk different handle file
    rw [desk, desk]
    exact h.single hj hk different

/-- A party opens or closes a file with a handle that no other party holds. -/
theorem hold (h : FilesShared count places before own f) (inside : i < count) (handle : Handle)
    (file : Option (Path × Bytes)) (place : ∀ x, file = some x → places i x.1)
    (free : ∀ j < count, j ≠ i → (own j).desk handle = none) :
    FilesShared count places before (Function.update own i ((own i).hold handle file))
      (f.hold handle file) := by
  have contents (j : Nat) :
      (Function.update own i ((own i).hold handle file) j).contents = (own j).contents := by
    by_cases same : j = i
    · subst same
      simp
    · simp [same]
  constructor
  · intro j hj q content
    rw [contents]
    exact h.merged hj
  · intro q nothing
    exact h.untouched fun j hj => by rw [← contents]; exact nothing j hj
  · intro j hj q content
    rw [contents]
    exact h.within hj
  · intro j hj other x
    by_cases same : j = i
    · subst same
      rw [Function.update_self, FileState.hold_desk, FileState.hold_desk]
      by_cases here : other = handle
      · subst here
        rw [Function.update_self, Function.update_self]
        exact fun held => ⟨held, place x held⟩
      · rw [Function.update_of_ne here, Function.update_of_ne here]
        exact h.opened hj
    · rw [Function.update_of_ne same]
      intro held
      have here : other ≠ handle := by
        rintro rfl
        cases (free j hj same).symm.trans held
      rw [FileState.hold_desk, Function.update_of_ne here]
      exact h.opened hj held
  · intro j k hj hk different other x
    by_cases hji : j = i
    · subst hji
      rw [Function.update_self, Function.update_of_ne different.symm, FileState.hold_desk]
      by_cases here : other = handle
      · exact fun _ => here ▸ free k hk different.symm
      · rw [Function.update_of_ne here]
        exact h.single hj hk different
    · rw [Function.update_of_ne hji]
      intro held
      have here : other ≠ handle := by
        rintro rfl
        cases (free j hj hji).symm.trans held
      by_cases hki : k = i
      · subst hki
        rw [Function.update_self, FileState.hold_desk, Function.update_of_ne here]
        exact h.single hj hk different held
      · rw [Function.update_of_ne hki]
        exact h.single hj hk different held

/-- The handle of a file that a party has open is no other party's. -/
theorem others_free (h : FilesShared count places before own f) (inside : i < count)
    {handle : Handle} {file : Path × Bytes} (held : (own i).desk handle = some file) :
    ∀ j < count, j ≠ i → (own j).desk handle = none :=
  fun _ hj different => h.single inside hj different.symm held

/-- A handle that is free is no party's. -/
theorem all_free (h : FilesShared count places before own f) {handle : Handle}
    (free : f.desk handle = none) : ∀ j < count, (own j).desk handle = none := by
  intro j hj
  cases held : (own j).desk handle with
  | none => rfl
  | some file => cases free.symm.trans (h.opened hj held).1

end FilesShared

/-! ## Outputs -/

/-- Outputs as parties share them: what is kept of an output is what the parties with that output
know together. -/
structure OutputsShared (count : Nat) (outputOf : Nat → Output) (places : Nat → Path → Prop)
    (verdict : FileOperation → Path → Except IoError Unit) (taken : Nat → List String)
    (outputs : List OutputRecord) : Prop where
  kept : ∀ {i}, i < count → ∃ record, outputs[(outputOf i).id]? = some record ∧
    record.directory = (outputOf i).directory ∧
    (record.prepared = true → verdict .makeDirectories record.directory = .ok ()) ∧
    ∀ name, name ∈ record.claimed ↔
      ∃ j < count, (outputOf j).id = (outputOf i).id ∧ name ∈ taken j
  within : ∀ {i}, i < count → ∀ {name}, name ∈ taken i → places i ((outputOf i).place name)

namespace OutputsShared

variable {count : Nat} {outputOf : Nat → Output} {places : Nat → Path → Prop}
  {verdict : FileOperation → Path → Except IoError Unit} {taken : Nat → List String}
  {outputs : List OutputRecord} {i : Nat} {record : OutputRecord} {name : String}

/-- A name that a party may use is taken only if the party has taken it. -/
theorem mem_claimed_iff (h : OutputsShared count outputOf places verdict taken outputs)
    (apart : PlacesApart count places) (inside : i < count)
    (here : outputs[(outputOf i).id]? = some record)
    (place : places i ((outputOf i).place name)) : name ∈ record.claimed ↔ name ∈ taken i := by
  obtain ⟨found, hfound, directory, -, claimed⟩ := h.kept inside
  cases here.symm.trans hfound
  rw [claimed]
  constructor
  · rintro ⟨j, hj, same, member⟩
    obtain ⟨other, hother, otherDirectory, -⟩ := h.kept hj
    rw [same] at hother
    cases here.symm.trans hother
    -- another party with the output would have put the name at the same place
    by_contra fresh
    have different : j ≠ i := fun equal => fresh (equal ▸ member)
    have places := apart hj inside different (h.within hj member) place
    rw [Output.place, Output.place, ← otherDirectory, directory, Path.same_refl] at places
    cases places
  · exact fun member => ⟨i, inside, rfl, member⟩

/-- The directory of an output was made, or could not be made. -/
theorem prepare (h : OutputsShared count outputOf places verdict taken outputs)
    {id : Nat} (here : outputs[id]? = some record) {prepared : Bool}
    (known : prepared = true → verdict .makeDirectories record.directory = .ok ()) :
    OutputsShared count outputOf places verdict taken
      (outputs.set id { record with prepared }) := by
  refine ⟨fun {j} hj => ?_, h.within⟩
  obtain ⟨found, hfound, directory, made, claimed⟩ := h.kept hj
  obtain ⟨inside, -⟩ := List.getElem?_eq_some_iff.mp here
  by_cases same : id = (outputOf j).id
  · subst same
    cases here.symm.trans hfound
    exact ⟨_, List.getElem?_set_self inside, directory, known, claimed⟩
  · exact ⟨found, by rw [List.getElem?_set_ne same, hfound], directory, made, claimed⟩

/-- A party takes a name. -/
theorem claim (h : OutputsShared count outputOf places verdict taken outputs) (inside : i < count)
    (here : outputs[(outputOf i).id]? = some record)
    (place : places i ((outputOf i).place name)) :
    OutputsShared count outputOf places verdict (Function.update taken i (name :: taken i))
      (outputs.set (outputOf i).id { record with claimed := name :: record.claimed }) := by
  have mem_taken (j : Nat) (other : String) :
      other ∈ Function.update taken i (name :: taken i) j ↔
        (j = i ∧ other = name) ∨ other ∈ taken j := by
    by_cases same : j = i
    · subst same
      simp
    · simp [same]
  constructor
  · intro j hj
    obtain ⟨found, hfound, directory, made, claimed⟩ := h.kept hj
    by_cases same : (outputOf i).id = (outputOf j).id
    · rw [← same] at hfound ⊢
      cases here.symm.trans hfound
      refine ⟨_, List.getElem?_set_self (List.getElem?_eq_some_iff.mp here).1, directory, made,
        fun other => ?_⟩
      rw [List.mem_cons, claimed]
      constructor
      · rintro (rfl | ⟨k, hk, sameOutput, member⟩)
        · exact ⟨i, inside, rfl, (mem_taken i other).mpr (.inl ⟨rfl, rfl⟩)⟩
        · exact ⟨k, hk, sameOutput.trans same.symm, (mem_taken k other).mpr (.inr member)⟩
      · rintro ⟨k, hk, sameOutput, member⟩
        rcases (mem_taken k other).mp member with ⟨-, rfl⟩ | member
        · exact .inl rfl
        · exact .inr ⟨k, hk, sameOutput.trans same, member⟩
    · refine ⟨found, by rw [List.getElem?_set_ne same, hfound], directory, made, fun other => ?_⟩
      rw [claimed]
      refine exists_congr fun k => and_congr_right fun hk => and_congr_right fun sameOutput => ?_
      have different : k ≠ i := by
        rintro rfl
        exact same sameOutput
      simp [different]
  · intro j hj other member
    rcases (mem_taken j other).mp member with ⟨rfl, rfl⟩ | member
    · exact place
    · exact h.within hj member

end OutputsShared

end SchemaCompiler
