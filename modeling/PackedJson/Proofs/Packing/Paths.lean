import PackedJson.Proofs.Packing.Destinations

namespace PackedJson
namespace Packer

open Arena TextSchema

/-!
Where the paths of violations lead.

A text schema may describe a part of the documents only.  The path of a
violation starts at this part, and leads from there to the value at fault.  It
starts at the document itself just where the text schema describes all of it.
-/

/-- The part of a document that a text schema describes: all of it where no slice is mentioned. -/
def describedPart? (schema document : Json) : Option Json :=
  match sliceOf schema with
  | .ok slice => Json.Pointer.resolve? (slice.getD "") document
  | .error _ => none

section Slices

variable {schema : Schema} {context : Context} {document value : Json} {pointer : String}

/-- The part of a document that is packed is the one that the slice refers to. -/
theorem documentSlice_eq_resolve (sliced : schema.text context.slice = .ok pointer) :
    documentSlice schema context document = match Json.Pointer.resolve? pointer document with
      | some value => .ok value
      | none => .error (.violation ⟨.missingSlice, Path.ofPointer pointer⟩) := by
  unfold documentSlice
  simp only [sliced]
  split
  next isEmpty =>
    rw [String.isEmpty_iff.mp isEmpty]
    rfl
  next => rfl

end Slices

section Runs

variable {container : Container} {text : Json} {root : TypeId} {options : PackOptions}
  {address : Option Nat} {bytes : ByteArray} {data : Arena} {pointer : String}
  {violation : Violation}

/-- The checks before packing fail for no violation. -/
theorem exists_checkedRoot {next : TypeId -> Except PackError Packed}
    (failed : (checkedRoot container options >>= next) = .error (.violation violation)) :
    exists root, checkedRoot container options = .ok root ∧
      next root = .error (.violation violation) := by
  cases checked : checkedRoot container options with
  | ok root =>
      rw [checked] at failed
      exact ⟨root, rfl, failed⟩
  | error failure =>
      rw [checked] at failed
      cases Except.error.inj failed
      obtain ⟨_, _, _, never⟩ | ⟨_, never⟩ := cause_of_checkedRoot checked <;> cases never

/-- A violation inside a document leads from the part that is packed to the
value at fault. -/
theorem leadsToFault_of_packDocument (serves : container.Serves text)
    (sliced : container.schema.text (container.context options.target).slice = .ok pointer)
    (isRoot : container.schema.root (container.context options.target) = .ok root)
    (writable : data.Writable) (present : violation.complaint ≠ .missingSlice)
    (failed : packDocument container root bytes data address options =
      .error (.violation violation)) :
    exists document part, Json.ofBytes? bytes = some document ∧
      Json.Pointer.resolve? pointer document = some part ∧ LeadsToFault part violation := by
  cases isJson : Json.ofBytes? bytes with
  | none =>
      unfold packDocument at failed
      rw [isJson] at failed
      cases failed
  | some document =>
      have isSlice := @documentSlice_eq_resolve _ _ document _ sliced
      cases resolved : Json.Pointer.resolve? pointer document with
      | none =>
          rw [resolved] at isSlice
          unfold packDocument at failed
          simp only [isJson, isSlice, bind, Except.bind] at failed
          cases failed
          exact absurd rfl present
      | some part =>
          rw [resolved] at isSlice
          refine ⟨document, part, rfl, resolved, ?_⟩
          have wellFormed : part.WellFormed :=
            wellFormed_of_documentSlice (Json.wellFormed_of_ofBytes isJson) isSlice
          obtain ⟨heap, promises, settled, served, told, serving, isServed, isSettled, promised⟩ :=
            serves options.target
          cases isServed.symm.trans isRoot
          have packs : Packs (container.packer options.target (baseOf options address)
              options.maxDepth) heap text promises settled := ⟨told, serving⟩
          have run := @Packs.run_pack _ _ _ _ _ part ⟨data, []⟩ packs root isSettled promised
            wellFormed writable
          cases ends : (container.packer options.target (baseOf options address)
              options.maxDepth).pack root part ⟨data, []⟩ with
          | ok place after =>
              rw [packDocument_of_ok isJson isSlice ends] at failed
              cases failed
          | error failure after =>
              rw [packDocument_of_error isJson isSlice ends] at failed
              cases failed
              obtain ⟨first, others, same, _, judges⟩ := (run.of_error ends).cause.resolve_left id
              cases same
              exact leadsToFault_of_judges judges ⟨rfl, wellFormed⟩ _ List.mem_cons_self

end Runs

section Violations

variable {text : Json} {options : CompileOptions} {container : Container} {schema : ByteArray}
  (accepted : compile text options = .ok container) (written : container.toBytes = .ok schema)

include accepted written

/-- The slice of a compiled container is that of its text schema, also when the
container is read from its bytes. -/
theorem exists_slice : exists back slice, Container.read schema = .ok back ∧
    back.Serves text ∧ sliceOf text = .ok slice ∧
    forall target, back.schema.text (back.context target).slice = .ok (slice.getD "") := by
  obtain ⟨back, isRead, _, sameContext, serves⟩ := exists_serves accepted written
  obtain ⟨again, isReadToo, _, _, told⟩ := exists_copy accepted written
  cases isRead.symm.trans isReadToo
  obtain ⟨slice, _, isSlice, _, heap, holds, embodied⟩ := bodies_of_compile accepted
  refine ⟨back, slice, isRead, serves, isSlice, fun target => ?_⟩
  rw [sameContext]
  exact (told heap holds.told).text (embodied target).1

end Violations

/-! ### A part of documents -/

/-- The text schema that describes an integer under the name `data`. -/
def dataSchema : Json := .object [("type", .string "integer"), ("x-slice", .string "/data")]

/-- The document that has a text under this name. -/
def textData : ByteArray :=
  ⟨#[123, 34, 100, 97, 116, 97, 34, 58, 34, 120, 34, 125]⟩

end Packer
end PackedJson
