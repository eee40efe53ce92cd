import SchemaCompiler.Proofs.Document.JsonForm
import SchemaCompiler.Proofs.Wire.Framing

/-!
A request survives the wire. Its frame can be written whenever the payload is not too long, and
reading the frame gives the request back exactly when the payload nests no deeper than the reader's
limit; a deeper payload is refused, and no frame is ever read as another request.
-/

namespace SchemaCompiler

open Json (Stop Whole)
open Json.Reader (Reads Answers reads_string reads_list reads_variantName reads_tagged)
open Json.Fields (takes_single)

/-! ## Documents and requests in a text -/

theorem Definition.reads (definition : Definition) :
    Reads Definition.read definition.toJson definition := by
  intro depth rest follows
  have tagged := reads_tagged "definition" expected
    (reads_variantName definition.pickVariant_tagName) definition.members_ne_tag
    definition.whole_members
  rw [← toJson_eq] at tagged
  refine (tagged depth rest follows).bind_ok ?_
  simp only [definition.ofTagged_members]
  rfl

theorem Document.reads (doc : Document) : Reads Document.read doc.toJson doc := by
  intro depth rest follows
  have name := takes_single "name" none (reads_string doc.name)
  have path := takes_single "path" none (reads_string doc.path)
  have definitions := takes_single "definitions" (some [])
    (reads_list doc.definitions (fun d _ => d.whole_toJson) fun d _ => d.reads)
  have takes := name.join (path.join definitions (by decide)) (by decide)
  exact (takes.reads "struct Document" 3 depth rest follows).bind_ok rfl

theorem Request.reads (r : Request) : Reads Request.read r.toJson r := by
  intro depth rest follows
  have names := takes_single "files_to_generate" (some [])
    (reads_list r.filesToGenerate (fun name _ => Whole.string name) fun name _ => reads_string name)
  have parameter := takes_single "parameter" (some "")
    (reads_string r.parameter)
  have documents := takes_single "documents" (some [])
    (reads_list r.documents (fun d _ => d.whole_toJson) fun d _ => d.reads)
  have takes := names.join (parameter.join documents (by decide)) (by decide)
  exact (takes.reads "struct Request" 3 depth rest follows).bind_ok rfl

/-! ## Messages -/

/-- What becomes of a message whose reader is right about its JSON form. -/
theorem Wire.decode_of_reads {α : Type} {read : Nat → Bytes → Except Stop (Json.Reader.Reading α)}
    {j : Json} {a : α} (reads : Reads read j a) (fits : j.bytes.length ≤ Frame.maxLength) :
    ∃ bytes, Wire.encode j = .ok bytes ∧
      (j.depth ≤ 127 → Wire.decode read bytes = .ok a) ∧
      (127 < j.depth → ∃ stop, stop.fault = .text .tooDeep ∧
        Wire.decode read bytes = .error (.malformed j.bytes stop)) := by
  have hwrite := Frame.write_eq_ok_iff.mpr ⟨fits, rfl⟩
  have hread := Frame.readOnly_frame fits
  refine ⟨Frame.header j.bytes.length ++ j.bytes, ?_, ?_, ?_⟩
  · change (Frame.write j.bytes).mapError WireFault.frame = _
    rw [hwrite]
    rfl
  all_goals
    have outcome := reads Json.Reader.maxDepth [] trivial
    rw [List.append_nil] at outcome
    have decoded : Wire.decode read (Frame.header j.bytes.length ++ j.bytes) =
        (Json.readAs read j.bytes).mapError (.malformed j.bytes) := by
      rw [Wire.decode, hread]
      rfl
    intro h
    rcases outcome with ⟨hdepth, hresult⟩ | ⟨hdepth, left, hresult⟩
  · rw [decoded, Json.readAs, hresult]
    rfl
  · exact absurd h hdepth
  · exact absurd hdepth (Nat.not_le.2 h)
  · refine ⟨⟨.text .tooDeep, left, true⟩, rfl, ?_⟩
    rw [decoded, Json.readAs, hresult]
    rfl

/-- A request whose payload is not too long is written; it is read back, and as nothing else,
exactly if its payload nests at most 127 containers. -/
theorem Request.round_trip_iff_depth_le (r : Request)
    (fits : (Text.encode r.toJson.text).length ≤ Frame.maxLength) :
    ∃ bytes, r.encode = .ok bytes ∧
      (Request.decode bytes = .ok r ↔ r.toJson.depth ≤ 127) ∧
      (127 < r.toJson.depth → ∃ stop, stop.fault = .text .tooDeep ∧
        Request.decode bytes = .error (.malformed (Text.encode r.toJson.text) stop)) ∧
      ∀ other, Request.decode bytes = .ok other → other = r := by
  obtain ⟨bytes, encoded, shallow, deep⟩ := Wire.decode_of_reads r.reads fits
  have answered {other : Request} (h : Request.decode bytes = .ok other) :
      r.toJson.depth ≤ 127 := by
    refine Nat.not_lt.1 fun hdepth => ?_
    obtain ⟨stop, -, refused⟩ := deep hdepth
    cases h.symm.trans refused
  refine ⟨bytes, encoded, ⟨answered, shallow⟩, deep, fun other h => ?_⟩
  exact Except.ok.inj (h.symm.trans (shallow (answered h)))

/-- A request in which a default that is `null` stands beside one that is absent, and an empty
description beside a missing one. -/
def Request.sample : Request where
  filesToGenerate := ["api"]
  parameter := "\x7b\"title\":\"é\n\"\x7d"
  documents :=
    [⟨"api", "api.gql",
      [.type ⟨"I", some "", [],
        .inputObject
          [⟨"a", none, .nonNull (.list (.named "Int")), some .null, [], ⟨1, 11⟩⟩,
           ⟨"b", some "", .named "ID", none,
            [⟨"d", [⟨"x", .object [("k", .list [.float "1e3", .enum "E"])]⟩], ⟨2, 9⟩⟩], ⟨2, 3⟩⟩],
        ⟨1, 1⟩⟩]⟩]

theorem Request.round_trip_sample :
    (Text.encode sample.toJson.text).length ≤ Frame.maxLength ∧
      ∃ bytes, sample.encode = .ok bytes ∧ Request.decode bytes = .ok sample := by
  have fits : (Text.encode sample.toJson.text).length ≤ Frame.maxLength := by decide +kernel
  have shallow : sample.toJson.depth ≤ 127 := by decide +kernel
  obtain ⟨bytes, encoded, decoded, -⟩ := Request.round_trip_iff_depth_le sample fits
  exact ⟨fits, bytes, encoded, decoded.2 shallow⟩

end SchemaCompiler
