import SchemaCompiler.Proofs.Wire.Base64Text
import SchemaCompiler.Proofs.Wire.RequestRoundTrip

/-!
A response survives the wire, whatever its error, names and contents. The contents travel as text
in base 64, an empty error is left out, and the files are found under either of their names.
-/

namespace SchemaCompiler

open Json (Whole)
open Json.Reader (Reads reads_string reads_decoded reads_list)
open Json.Fields (Takes single takes_single takes_missing takes_field)

/-! ## Members -/

/-- An object in which a member has another name. -/
def Json.renameMember (old new : String) : Json → Json
  | .object members => .object (members.map fun m => if m.1 = old then (new, m.2) else m)
  | j => j

/-- The members of a response whose files stand under a given name. -/
def Response.members (r : Response) (files : String) : List (String × Json) :=
  (if r.error.isEmpty then [] else [("error", .string r.error)]) ++
    [(files, .array (r.files.map ResponseFile.toJson))]

theorem Response.toJson_eq (r : Response) : r.toJson = .object (r.members "files") := rfl

theorem Response.renameMember_toJson (r : Response) :
    r.toJson.renameMember "files" "file" = .object (r.members "file") := by
  rw [toJson_eq, Json.renameMember, members, members]
  split <;> rfl

/-! ## Responses in a text -/

theorem ResponseFile.whole_toJson (file : ResponseFile) : file.toJson.Whole := by
  refine .object ?_
  rw [List.forall_mem_cons, List.forall_mem_singleton]
  exact ⟨.string file.name, .string (Base64.encode file.content)⟩

theorem ResponseFile.reads (file : ResponseFile) : Reads ResponseFile.read file.toJson file := by
  intro depth rest follows
  have content : decodeContent (Base64.encode file.content) = .ok file.content := by
    rw [decodeContent, Base64.decode_encode]
    rfl
  have takes := (takes_single "name" none (reads_string file.name)).join
    (takes_single "content" (some []) (reads_decoded content)) (by decide)
  exact (takes.reads "struct ResponseFile" 2 depth rest follows).bind_ok rfl

theorem Response.takes_error (r : Response) :
    Takes (single "error" (fun _ => Json.Reader.asString) (some "")) ["error"]
      (if r.error.isEmpty then [] else [("error", .string r.error)]) r.error := by
  by_cases none : r.error.isEmpty = true
  · rw [if_pos none, String.isEmpty_iff.mp none]
    exact takes_missing "error" _ ""
  · rw [if_neg none]
    exact takes_single "error" (some "") (reads_string r.error)

theorem Response.reads (r : Response) {files : String} (named : files = "files" ∨ files = "file") :
    Reads Response.read (.object (r.members files)) r := by
  intro depth rest follows
  have known : files = "files" ∨ ["file"].contains files = true := by
    rcases named with rfl | rfl <;> decide
  have files := takes_field "files" ["file"] (some []) known
    (reads_list r.files (fun file _ => file.whole_toJson) fun file _ => file.reads)
  have takes := r.takes_error.join files (by decide)
  exact (takes.reads "struct Response" 2 depth rest follows).bind_ok rfl

/-! ## Payloads -/

theorem ResponseFile.depth_toJson (file : ResponseFile) : file.toJson.depth = 1 := rfl

theorem Response.depth_le (r : Response) (files : String) :
    (Json.object (r.members files)).depth ≤ 127 := by
  have items : Json.itemsDepth (r.files.map ResponseFile.toJson) ≤ 1 := by
    induction r.files with
    | nil => exact Nat.zero_le 1
    | cons file files ih => exact Json.itemsDepth_cons_le.mpr ⟨Nat.le_of_eq file.depth_toJson, ih⟩
  have array : Json.membersDepth
      [(files, .array (r.files.map ResponseFile.toJson))] ≤ 2 :=
    Json.membersDepth_cons_le.mpr ⟨Nat.succ_le_succ items, Nat.zero_le 2⟩
  have members : Json.membersDepth (r.members files) ≤ 2 := by
    unfold Response.members
    split
    · exact array
    · exact Json.membersDepth_cons_le.mpr ⟨Nat.zero_le 2, array⟩
  rw [Json.depth]
  omega

/-- The other name is not longer. -/
theorem Response.length_bytes_le (r : Response) :
    (Json.object (r.members "file")).bytes.length ≤
      (Json.object (r.members "files")).bytes.length := by
  have shorter : (Json.quotedBytes "file").length ≤ (Json.quotedBytes "files").length := by decide
  rw [Json.bytes_object, Json.bytes_object]
  unfold Response.members
  split <;>
    simp only [List.nil_append, List.cons_append, List.map_cons, List.map_nil, Json.memberBytes,
      List.intercalate, List.intersperse, List.flatten_cons, List.flatten_nil, List.length_append,
      List.length_cons] <;>
    omega

/-- A response whose payload is not too long is written and read back, and it is read back just so
from the payload in which the files stand under their other name. In both the contents are text in
base 64, which stands for the bytes that it was made of. -/
theorem Response.survives_wire (r : Response)
    (fits : (Text.encode r.toJson.text).length ≤ Frame.maxLength) :
    (∃ bytes, r.encode = .ok bytes ∧ Response.decode bytes = .ok r) ∧
      (∃ bytes, Wire.encode (r.toJson.renameMember "files" "file") = .ok bytes ∧
        Response.decode bytes = .ok r) ∧
      ∀ content, Base64.decode (Base64.encode content) = .ok content := by
  have survives {files : String} (named : files = "files" ∨ files = "file")
      (fits : (Json.object (r.members files)).bytes.length ≤ Frame.maxLength) :
      ∃ bytes, Wire.encode (.object (r.members files)) = .ok bytes ∧
        Response.decode bytes = .ok r := by
    obtain ⟨bytes, encoded, decoded, -⟩ := Wire.decode_of_reads (r.reads named) fits
    exact ⟨bytes, encoded, decoded (r.depth_le files)⟩
  refine ⟨survives (.inl rfl) fits, ?_, Base64.decode_encode⟩
  rw [r.renameMember_toJson]
  exact survives (.inr rfl) (Nat.le_trans r.length_bytes_le fits)

/-- Contents of each length modulo three, one of them no text, and a name that needs escapes. -/
def Response.sample : Response where
  error := ""
  files := [⟨"a\"\n.txt", [0, 255, 10]⟩, ⟨"é", [127, 128]⟩, ⟨"", [61]⟩, ⟨"none", []⟩]

theorem Response.survives_wire_sample :
    (Text.encode sample.toJson.text).length ≤ Frame.maxLength ∧
      ∃ bytes, sample.encode = .ok bytes ∧ Response.decode bytes = .ok sample := by
  have fits : (Text.encode sample.toJson.text).length ≤ Frame.maxLength := by decide +kernel
  exact ⟨fits, (Response.survives_wire sample fits).1⟩

end SchemaCompiler
