import PackedJson.Proofs.Packing.Integers
import PackedJson.Proofs.TextSchema.Verdicts

namespace PackedJson

/-!
Packing documents with compiled text schemas.

A document that is packed is read as what its text schema says it means.  A
document that is not packed commits violations, or there is no alternative or
no room for it.  Either way, what the destination held before stays.
-/

namespace Arena

/-- An arena changes only within regions that it hands out on the way. -/
def ChangesApart (before after : Arena) : Prop :=
  exists fresh, Evolves [] before fresh after ∧
    (forall region, region ∈ fresh -> before.used ≤ region.start ∧
      region.start + region.length ≤ after.used) ∧
    forall position, (forall region, region ∈ fresh -> region.Misses position) ->
      after.byteAt position = before.byteAt position

theorem Evolves.changesApart {fresh : List Extent} {before after : Arena}
    (evolves : Evolves [] before fresh after) (writable : before.Writable) :
    before.ChangesApart after :=
  ⟨fresh, evolves, evolves.fresh_above writable, fun _ => evolves.byteAt_of_misses_fresh writable⟩

theorem ChangesApart.byteAt {before after : Arena} (changes : before.ChangesApart after)
    {position : Nat} (inUse : position < before.used) :
    after.byteAt position = before.byteAt position := by
  obtain ⟨fresh, _, above, same⟩ := changes
  exact same position fun region member =>
    Or.inl (Nat.lt_of_lt_of_le inUse (above region member).1)

theorem ChangesApart.preserves {before after : Arena} (changes : before.ChangesApart after)
    (writable : before.Writable) : Preserves (· < before.used) before after := by
  have same := changes
  obtain ⟨fresh, evolves, _⟩ := changes
  exact ⟨evolves.grown writable, fun position inUse => same.byteAt inUse⟩

end Arena

namespace Packer

open Arena TextSchema

/-- The verdict on a document, which there is only one of. -/
def IsVerdict (document : Json) (maxDepth : Nat) (value : Json) (verdict : Verdict) : Prop :=
  Judges document maxDepth (.asked ⟨document, false, false⟩ Path.root value) verdict ∧
    forall other, Judges document maxDepth (.asked ⟨document, false, false⟩ Path.root value) other ->
      other = verdict

theorem isVerdict_of_judges {document value : Json} {maxDepth : Nat} {verdict : Verdict}
    (judges : Judges document maxDepth (.asked ⟨document, false, false⟩ Path.root value) verdict) :
    IsVerdict document maxDepth value verdict :=
  ⟨judges, fun _ other => judges_inj judges other⟩

theorem root_eq_instanceAt {packer : Packer} {root : TypeId} (data : Arena) (place : Offset)
    (isRoot : packer.schema.root packer.context = .ok root) :
    (packer.reader data).root place = (packer.reader data).instanceAt root place := by
  unfold Reader.root
  simp only [reader, isRoot]
  rfl

section Documents

variable {document : Json} {options : CompileOptions} {container : Container}
  (accepted : compile document options = .ok container) {target : Target}
  {pointerBase maxDepth : Nat} {root : TypeId} {value : Json} {state after : PackState}
  {place : Offset}

include accepted

/-- A document is packed with a compiled text schema, or it is refused. -/
theorem run_pack_of_compile (isRoot : container.schema.root (container.context target) = .ok root)
    (wellFormed : value.WellFormed) (writable : state.data.Writable) :
    Run ((container.packer target pointerBase maxDepth).pack root value) state
      (fun place after => exists meaning, IsPacked document
        (container.packer target pointerBase maxDepth) root value state.data place meaning after)
      (IsRefused document (container.packer target pointerBase maxDepth) value state.data) := by
  obtain ⟨heap, promises, settled, holds, serving⟩ := isCompiled_of_compile accepted target
  have packs : Packs (container.packer target pointerBase maxDepth) heap document promises settled :=
    ⟨holds.told, serving⟩
  obtain ⟨compiled, isCompiled, promised, isSettled⟩ := serving.root
  have same : compiled = root := by
    unfold Schema.root at isRoot
    rw [isCompiled] at isRoot
    exact Except.ok.inj isRoot
  subst same
  exact packs.run_pack isSettled promised wellFormed writable

/-- What was packed is read as what the text schema prescribes. -/
theorem reads_of_pack (isRoot : container.schema.root (container.context target) = .ok root)
    (wellFormed : value.WellFormed) (writable : state.data.Writable)
    (packed : (container.packer target pointerBase maxDepth).pack root value state =
      .ok place after) :
    exists meaning found, IsVerdict document maxDepth value (.fits meaning) ∧
      ((container.packer target pointerBase maxDepth).reader after.data).root place = .ok found ∧
      Reads ((container.packer target pointerBase maxDepth).reader after.data) found meaning := by
  obtain ⟨meaning, isPacked⟩ := (run_pack_of_compile accepted isRoot wellFormed writable).of_ok packed
  obtain ⟨found, isFound, reads⟩ := isPacked.reads.now
  exact ⟨meaning, found, isVerdict_of_judges isPacked.judges,
    (root_eq_instanceAt after.data place isRoot).trans isFound, reads⟩

omit accepted in
/-- An integer is read back from a fresh arena. -/
theorem reads_of_pack_integer :
    exists container data place after found, compile (namedSchema "integer") {} = .ok container ∧
      Arena.owned {} = .ok data ∧
      (container.packer .wasm32 0 128).pack ((container.context .wasm32).builtin .integer)
        (.number (.integer 7)) ⟨data, []⟩ = .ok place after ∧
      ((container.packer .wasm32 0 128).reader after.data).root place = .ok found ∧
      Reads ((container.packer .wasm32 0 128).reader after.data) found (.integer 7) := by
  obtain ⟨container, accepted, roots⟩ := exists_integerContainer
  obtain ⟨data, isFresh, writable, room⟩ := exists_freshArena
  have inRange : (7 : Int) < 2 ^ 63 := by decide
  obtain ⟨place, after, packed⟩ :=
    @exists_pack_integer container .wasm32 accepted data writable room 7 inRange 0 128
  obtain ⟨meaning, found, isVerdict, isFound, reads⟩ :=
    reads_of_pack accepted (roots _) (.integer (by decide) (by decide)) writable packed
  cases isVerdict.2 _ (judges_integer inRange)
  exact ⟨container, data, place, after, found, accepted, isFresh, packed, isFound, reads⟩

/-- Packing fails for a violation, for lack of room, or for lack of an
alternative, and for nothing else. -/
theorem failure_of_pack (isRoot : container.schema.root (container.context target) = .ok root)
    (wellFormed : value.WellFormed) (writable : state.data.Writable) {failure : PackError}
    (failed : (container.packer target pointerBase maxDepth).pack root value state =
      .error failure after) :
    (exists violation, failure = .violation violation) ∨
      (exists cause, failure = .outOfMemory cause) ∨
      exists name kind, failure = .schema (.noVariantCandidate name kind) := by
  have refused := (run_pack_of_compile accepted isRoot wellFormed writable).of_error failed
  cases refused.cause with
  | inr violates =>
      obtain ⟨first, _, same, _⟩ := violates
      exact Or.inl ⟨first, same⟩
  | inl expected =>
      unfold PackError.IsExpected at expected
      split at expected
      · exact Or.inr (Or.inl ⟨_, rfl⟩)
      · exact Or.inr (Or.inr ⟨_, _, rfl⟩)
      · exact expected.elim

omit accepted in
/-- Null is refused where an integer is expected. -/
theorem failure_of_pack_null :
    exists container data failure after, compile (namedSchema "integer") {} = .ok container ∧
      Arena.owned {} = .ok data ∧
      (container.packer .wasm32 0 128).pack ((container.context .wasm32).builtin .integer)
        .null ⟨data, []⟩ = .error failure after ∧
      ((exists violation, failure = .violation violation) ∨
        (exists cause, failure = .outOfMemory cause) ∨
        exists name kind, failure = .schema (.noVariantCandidate name kind)) := by
  obtain ⟨container, accepted, roots⟩ := exists_integerContainer
  obtain ⟨data, isFresh, writable, _⟩ := exists_freshArena
  cases ends : (container.packer .wasm32 0 128).pack ((container.context .wasm32).builtin .integer)
      .null ⟨data, []⟩ with
  | ok place after =>
      obtain ⟨meaning, packed⟩ :=
        (run_pack_of_compile accepted (roots _) .null writable).of_ok ends
      cases judges_inj packed.judges judges_null
  | error failure after =>
      exact ⟨container, data, failure, after, accepted, isFresh, ends,
        failure_of_pack accepted (roots _) .null writable ends⟩

/-- The violations that are noted are those of the walk through the document,
and the first one is the failure.  Each leads to the value at fault. -/
theorem violations_of_pack (isRoot : container.schema.root (container.context target) = .ok root)
    (wellFormed : value.WellFormed) (writable : state.data.Writable) :
    Run ((container.packer target pointerBase maxDepth).pack root value) state
      (fun _ after => after.violations = [] ∧
        exists meaning, IsVerdict document maxDepth value (.fits meaning))
      (fun failure after => forall violation, failure = .violation violation ->
        exists others, after.violations = violation :: others ∧
          IsVerdict document maxDepth value (.violates violation others) ∧
          forall noted, noted ∈ after.violations -> LeadsToFault value noted) := by
  refine (run_pack_of_compile accepted isRoot wellFormed writable).imp ?_ ?_
  · rintro _ after ⟨meaning, isPacked⟩
    exact ⟨isPacked.violations, meaning, isVerdict_of_judges isPacked.judges⟩
  · rintro failure after refused violation rfl
    obtain ⟨first, others, same, noted, judges⟩ := refused.cause.resolve_left id
    cases same
    refine ⟨others, noted, isVerdict_of_judges judges, ?_⟩
    rw [noted]
    exact leadsToFault_of_judges judges ⟨rfl, wellFormed⟩

omit accepted in
/-- Null in place of an integer is noted as one violation. -/
theorem violations_of_pack_null :
    exists container data, compile (namedSchema "integer") {} = .ok container ∧
      Arena.owned {} = .ok data ∧
      Run ((container.packer .wasm32 0 128).pack ((container.context .wasm32).builtin .integer)
          .null) ⟨data, []⟩
        (fun _ _ => False)
        (fun failure after => forall violation, failure = .violation violation ->
          violation = ⟨.typeMismatch (.value .integer) .null, Path.root⟩ ∧
          after.violations = [violation] ∧ LeadsToFault .null violation) := by
  obtain ⟨container, accepted, roots⟩ := exists_integerContainer
  obtain ⟨data, isFresh, writable, _⟩ := exists_freshArena
  refine ⟨container, data, accepted, isFresh, ?_⟩
  refine (violations_of_pack accepted (roots _) .null writable).imp ?_ ?_
  · rintro _ _ ⟨_, meaning, isVerdict⟩
    cases isVerdict.2 _ judges_null
  · rintro _ after noted violation rfl
    obtain ⟨others, violations, isVerdict, leads⟩ := noted violation rfl
    cases isVerdict.2 _ judges_null
    exact ⟨rfl, violations, leads _ (violations ▸ List.mem_cons_self)⟩

end Documents

/-! ### One document after another -/

/-- A document to be packed with a compiled text schema. -/
structure Call where
  document : Json
  options : CompileOptions
  container : Container
  accepted : compile document options = .ok container
  target : Target
  pointerBase : Nat
  maxDepth : Nat
  root : TypeId
  isRoot : container.schema.root (container.context target) = .ok root
  value : Json
  wellFormed : value.WellFormed

namespace Call

/-- The packer of a call. -/
def packer (call : Call) : Packer :=
  call.container.packer call.target call.pointerBase call.maxDepth

/-- Pack the document of a call. -/
def pack (call : Call) : PackM Offset := call.packer.pack call.root call.value

/-- The destination after a call, whether it succeeded or not. -/
def next (data : Arena) (call : Call) : Arena :=
  match call.pack ⟨data, []⟩ with
  | .ok _ after => after.data
  | .error _ after => after.data

/-- The destination after some calls. -/
def run (data : Arena) (calls : List Call) : Arena := calls.foldl next data

section Calls

variable {call : Call} {data : Arena}

/-- A call changes the destination only within regions that it makes itself. -/
theorem changesApart_next (call : Call) (writable : data.Writable) :
    data.ChangesApart (next data call) := by
  have run : Run call.pack ⟨data, []⟩ _ _ :=
    run_pack_of_compile call.accepted call.isRoot call.wellFormed writable
  unfold next
  unfold Run at run
  cases ends : call.pack ⟨data, []⟩ with
  | ok place after =>
      rw [ends] at run
      obtain ⟨_, packed⟩ := run
      obtain ⟨fresh, evolves⟩ := packed.changes
      exact evolves.changesApart writable
  | error failure after =>
      rw [ends] at run
      obtain ⟨fresh, evolves⟩ := run.changes
      exact evolves.changesApart writable

theorem writable_next (call : Call) (writable : data.Writable) : (next data call).Writable := by
  obtain ⟨fresh, evolves, _⟩ := changesApart_next call writable
  exact (evolves.grown writable).writable writable

/-- What is in use stays during any number of calls. -/
theorem preserves_run (calls : List Call) (writable : data.Writable) :
    Preserves (· < data.used) data (run data calls) := by
  induction calls generalizing data with
  | nil => exact .refl _ _
  | cons call rest ih =>
      have first := (changesApart_next call writable).preserves writable
      refine first.trans ((ih (writable_next call writable)).mono fun position inUse => ?_)
      exact Nat.lt_of_lt_of_le inUse first.grown.used

/-- A call leaves what is in use, and what it packed is read as the same value
after any number of further calls. -/
theorem frame_of_call (call : Call) (writable : data.Writable) :
    data.ChangesApart (next data call) ∧
      (forall position, position < data.used ->
        (next data call).byteAt position = data.byteAt position) ∧
      forall place after, call.pack ⟨data, []⟩ = .ok place after ->
        exists meaning, forall later : List Call,
          exists found, (call.packer.reader (run after.data later)).root place = .ok found ∧
            Reads (call.packer.reader (run after.data later)) found meaning := by
  have changes := changesApart_next call writable
  refine ⟨changes, fun _ => changes.byteAt, fun place after packed => ?_⟩
  obtain ⟨meaning, isPacked⟩ :=
    (run_pack_of_compile call.accepted call.isRoot call.wellFormed writable).of_ok packed
  have afterWritable : after.data.Writable := by
    obtain ⟨fresh, evolves⟩ := isPacked.changes
    exact (evolves.grown writable).writable writable
  refine ⟨meaning, fun later => ?_⟩
  obtain ⟨found, isFound, reads⟩ := isPacked.reads _ (preserves_run later afterWritable)
  exact ⟨found, (root_eq_instanceAt _ place call.isRoot).trans isFound, reads⟩

/-- An integer that was packed into a fresh arena stays there. -/
theorem frame_of_call_integer :
    exists (call : Call) (data : Arena) (place : Offset) (after : PackState),
      Arena.owned {} = .ok data ∧ call.value = .number (.integer 7) ∧
      call.pack ⟨data, []⟩ = .ok place after ∧ data.ChangesApart (next data call) ∧
      exists meaning, forall later : List Call,
        exists found, (call.packer.reader (run after.data later)).root place = .ok found ∧
          Reads (call.packer.reader (run after.data later)) found meaning := by
  obtain ⟨container, accepted, roots⟩ := exists_integerContainer
  obtain ⟨data, isFresh, writable, room⟩ := exists_freshArena
  have inRange : (7 : Int) < 2 ^ 63 := by decide
  obtain ⟨place, after, packed⟩ :=
    @exists_pack_integer container .wasm32 accepted data writable room 7 inRange 0 128
  let call : Call := {
    document := namedSchema "integer"
    options := {}
    container := container
    accepted := accepted
    target := .wasm32
    pointerBase := 0
    maxDepth := 128
    root := (container.context .wasm32).builtin .integer
    isRoot := roots _
    value := .number (.integer 7)
    wellFormed := .integer (by decide) (by decide) }
  obtain ⟨changes, _, stays⟩ := frame_of_call call writable
  exact ⟨call, data, place, after, isFresh, rfl, packed, changes, stays place after packed⟩

end Calls

end Call

end Packer
end PackedJson
