import PackedJson.Packing.Alternative
import PackedJson.Packing.Compound
import PackedJson.Proofs.Instance.Reads
import PackedJson.Proofs.TextSchema.Verdicts

namespace PackedJson

/-!
The steps that packing consists of.

A step owns some regions of the destination.  `Does` says that it writes only
there and into regions that it hands itself, and that it fails for lack of
room at most.  `Fills` says the same of a step that writes the value of a
matter: when it ends well the value fits, and when it fails with a violation
the value has none but the violations that were noted.
-/

/-- A failure that packing into types of a compiled text schema may end with,
apart from violations.  What is decided does not lack an alternative. -/
def PackError.IsExpected (decided : Prop) : PackError -> Prop
  | .outOfMemory _ => True
  | .schema (.noVariantCandidate _ _) => ¬ decided
  | _ => False

theorem PackError.isExpected_ofArena {decided : Prop} {cause : ArenaError}
    (shortage : cause.IsShortage) : (PackError.ofArena cause).IsExpected decided := by
  cases cause <;> trivial

theorem PackError.IsExpected.mono {decided whole : Prop} {failure : PackError}
    (expected : failure.IsExpected decided) (inside : whole -> decided) :
    failure.IsExpected whole := by
  cases failure with
  | schema cause =>
      cases cause with
      | noVariantCandidate => exact fun isWhole => expected (inside isWhole)
      | _ => exact expected
  | _ => exact expected

namespace Packer

open Arena TextSchema

section Steps

variable {Result Next : Type} {owned fresh more : List Extent} {before middle after : PackState}

/-- Changes of the destination that note no violation. -/
structure Moves (owned : List Extent) (before : PackState) (fresh : List Extent)
    (after : PackState) : Prop where
  violations : after.violations = before.violations
  evolves : Evolves owned before.data fresh after.data

theorem Moves.refl (owned : List Extent) (state : PackState) : Moves owned state [] state :=
  ⟨rfl, .start⟩

theorem Moves.trans {inner : List Extent} (moves : Moves owned before fresh middle)
    (next : Moves inner middle more after)
    (covers : Covers (fresh ++ owned) inner) :
    Moves owned before (more ++ fresh) after :=
  ⟨next.violations.trans moves.violations, moves.evolves.trans next.evolves covers⟩

theorem Moves.mono {inner : List Extent} (moves : Moves inner before fresh after)
    (covers : Covers owned inner) : Moves owned before fresh after :=
  ⟨moves.violations, moves.evolves.mono covers⟩

/-- The destination is changed only where it may be. -/
def Changes (owned : List Extent) (before after : PackState) : Prop :=
  exists fresh, Evolves owned before.data fresh after.data

/-- A failure without a violation, with the destination as it may be.  When
all is decided it is for lack of room. -/
def Refuses (decided : Prop) (owned : List Extent) (before : PackState) (failure : PackError)
    (after : PackState) : Prop :=
  failure.IsExpected decided ∧ Changes owned before after

theorem Refuses.of_moves {decided : Prop} {inner : List Extent} {failure : PackError}
    (moves : Moves owned before fresh middle)
    (refuses : Refuses decided inner middle failure after)
    (covers : Covers (fresh ++ owned) inner) :
    Refuses decided owned before failure after := by
  obtain ⟨expected, more, evolves⟩ := refuses
  exact ⟨expected, _, moves.evolves.trans evolves covers⟩

/-- A step ends well with some result, or it is refused for lack of room. -/
def Does (owned : List Extent) (step : PackM Result) (before : PackState)
    (good : Result -> List Extent -> PackState -> Prop) : Prop :=
  Run step before (fun result after => exists fresh, Moves owned before fresh after ∧
    good result fresh after) (Refuses True owned before)

theorem Does.pure {result : Result} {good : Result -> List Extent -> PackState -> Prop}
    (isGood : good result [] before) : Does owned (pure result) before good :=
  run_pure.mpr ⟨[], .refl owned before, isGood⟩

theorem Does.imp {step : PackM Result} {good weaker : Result -> List Extent -> PackState -> Prop}
    (does : Does owned step before good)
    (onGood : forall result fresh after, Moves owned before fresh after ->
      good result fresh after -> weaker result fresh after) :
    Does owned step before weaker := by
  refine Run.imp does ?_ fun _ _ => id
  exact fun result after ⟨fresh, moves, isGood⟩ =>
    ⟨fresh, moves, onGood result fresh after moves isGood⟩

/-- A step that owns parts of what may be changed. -/
theorem Does.covered {inner : List Extent} {step : PackM Result}
    {good : Result -> List Extent -> PackState -> Prop} (does : Does inner step before good)
    (covers : Covers owned inner) : Does owned step before good := by
  refine Run.imp does ?_ ?_
  · exact fun result after ⟨fresh, moves, isGood⟩ =>
      ⟨fresh, ⟨moves.violations, moves.evolves.mono covers⟩, isGood⟩
  · exact fun failure after ⟨expected, fresh, evolves⟩ =>
      ⟨expected, fresh, evolves.mono covers⟩

/-- A step that is followed by another one. -/
theorem Does.andThen {inner : List Extent} {first : PackM Result} {second : Result -> PackM Next}
    {good : Result -> List Extent -> PackState -> Prop}
    {nextGood : Next -> List Extent -> PackState -> Prop} (does : Does inner first before good)
    (covers : Covers owned inner)
    (continued : forall result fresh middle, Moves inner before fresh middle ->
      good result fresh middle -> Does (fresh ++ owned) (second result) middle
        fun next more after => nextGood next (more ++ fresh) after) :
    Does owned (first >>= second) before nextGood := by
  refine Run.andThen does ?_ ?_
  · rintro result middle ⟨fresh, moves, isGood⟩
    have moved := moves.mono covers
    refine Run.imp (continued result fresh middle moves isGood) ?_ ?_
    · exact fun next after ⟨more, later, isNext⟩ =>
        ⟨more ++ fresh, moved.trans later (.refl _), isNext⟩
    · exact fun failure after refuses => refuses.of_moves moved (.refl _)
  · exact fun failure after ⟨expected, fresh, evolves⟩ =>
      ⟨expected, fresh, evolves.mono covers⟩

/-! ### Steps that write values -/

variable {document : Json} {limit : Nat} {matter innerMatter : Matter} {step : PackM Unit}

/-- A failure of a step that writes the value of a matter. -/
def Fails (document : Json) (limit : Nat) (owned : List Extent) (matter : Matter)
    (before : PackState) (failure : PackError) (after : PackState) : Prop :=
  Changes owned before after ∧ (failure.IsExpected (IsDecided document limit matter) ∨
    exists first others, failure = .violation first ∧
      after.violations = before.violations ++ first :: others ∧
      Judges document limit matter (.violates first others))

/-- A step writes the value of a matter, or fails as its verdict says. -/
def Fills (document : Json) (limit : Nat) (owned : List Extent) (matter : Matter)
    (step : PackM Unit) (before : PackState) (good : Value -> PackState -> Prop) : Prop :=
  Run step before
    (fun _ after => exists fresh value, Moves owned before fresh after ∧
      Judges document limit matter (.fits value) ∧ good value after)
    (Fails document limit owned matter before)

theorem Refuses.mono {decided whole : Prop} {failure : PackError} (inside : whole -> decided)
    (refuses : Refuses decided owned before failure after) :
    Refuses whole owned before failure after :=
  ⟨refuses.1.mono inside, refuses.2⟩

theorem Refuses.fails {decided : Prop} {failure : PackError}
    (refuses : Refuses decided owned before failure after)
    (inside : IsDecided document limit matter -> decided) :
    Fails document limit owned matter before failure after :=
  ⟨refuses.2, Or.inl (refuses.1.mono inside)⟩

theorem Fails.of_moves {inner : List Extent} {failure : PackError}
    (moves : Moves owned before fresh middle)
    (fails : Fails document limit inner innerMatter middle failure after)
    (covers : Covers (fresh ++ owned) inner)
    (decided : IsDecided document limit matter -> IsDecided document limit innerMatter)
    (judged : forall first others, Judges document limit innerMatter (.violates first others) ->
      Judges document limit matter (.violates first others)) :
    Fails document limit owned matter before failure after := by
  obtain ⟨⟨more, evolves⟩, expected | ⟨first, others, same, noted, judges⟩⟩ := fails
  · exact ⟨⟨_, moves.evolves.trans evolves covers⟩, Or.inl (expected.mono decided)⟩
  · refine ⟨⟨_, moves.evolves.trans evolves covers⟩, Or.inr ⟨first, others, same, ?_,
      judged first others judges⟩⟩
    rw [noted, moves.violations]

/-- A value that holds another one: some steps before the inner value is
written, and none behind. -/
theorem Does.fills {some : List Extent} {first : PackM Result}
    {second : Result -> PackM Unit} {good : Result -> List Extent -> PackState -> Prop}
    {filled : Value -> PackState -> Prop} (does : Does some first before good)
    (inner : List Extent) (wrap : Value -> Value) (covers : Covers owned some)
    (decided : IsDecided document limit matter -> IsDecided document limit innerMatter)
    (judged : forall verdict, Judges document limit innerMatter verdict ->
      Judges document limit matter (verdict.map wrap))
    (continued : forall result fresh middle, Moves some before fresh middle ->
      good result fresh middle -> Covers (fresh ++ owned) inner ∧
      Fills document limit inner innerMatter (second result) middle
        fun value after => Changes inner middle after -> filled (wrap value) after) :
    Fills document limit owned matter (first >>= second) before filled := by
  refine Run.andThen does ?_ ?_
  · rintro result middle ⟨fresh, moves, isGood⟩
    have moved := moves.mono covers
    obtain ⟨covered, fills⟩ := continued result fresh middle moves isGood
    refine Run.imp fills ?_ ?_
    · exact fun _ after ⟨more, value, later, judges, isFilled⟩ =>
        ⟨more ++ fresh, wrap value, moved.trans later covered, judged _ judges,
          isFilled ⟨more, later.evolves⟩⟩
    · exact fun failure after fails =>
        fails.of_moves moved covered decided fun first others => judged (.violates first others)
  · exact fun failure after ⟨expected, fresh, evolves⟩ =>
      ⟨⟨fresh, evolves.mono covers⟩, Or.inl (expected.mono fun _ => trivial)⟩

/-- Steps before a value is written. -/
theorem Does.andFills {some : List Extent} {first : PackM Result} {second : Result -> PackM Unit}
    {good : Result -> List Extent -> PackState -> Prop} {filled : Value -> PackState -> Prop}
    (does : Does some first before good) (covers : Covers owned some)
    (continued : forall result fresh middle, Moves some before fresh middle ->
      good result fresh middle ->
      Fills document limit (fresh ++ owned) matter (second result) middle filled) :
    Fills document limit owned matter (first >>= second) before filled := by
  refine Run.andThen does ?_ ?_
  · rintro result middle ⟨fresh, moves, isGood⟩
    have moved := moves.mono covers
    refine Run.imp (continued result fresh middle moves isGood) ?_ ?_
    · exact fun _ after ⟨more, value, later, judges, isFilled⟩ =>
        ⟨more ++ fresh, value, moved.trans later (.refl _), judges, isFilled⟩
    · exact fun failure after fails => fails.of_moves moved (.refl _) id fun _ _ => id
  · exact fun failure after ⟨expected, fresh, evolves⟩ =>
      ⟨⟨fresh, evolves.mono covers⟩, Or.inl (expected.mono fun _ => trivial)⟩

theorem Fills.covered {inner : List Extent} {good : Value -> PackState -> Prop}
    (fills : Fills document limit inner matter step before good) (covers : Covers owned inner) :
    Fills document limit owned matter step before good := by
  refine Run.imp fills ?_ ?_
  · exact fun _ after ⟨fresh, value, moves, judges, isGood⟩ =>
      ⟨fresh, value, moves.mono covers, judges, isGood⟩
  · exact fun failure after ⟨⟨fresh, evolves⟩, fails⟩ => ⟨⟨fresh, evolves.mono covers⟩, fails⟩

theorem Fills.imp {good weaker : Value -> PackState -> Prop}
    (fills : Fills document limit owned matter step before good)
    (onGood : forall fresh value after, Moves owned before fresh after -> good value after ->
      weaker value after) :
    Fills document limit owned matter step before weaker := by
  refine Run.imp fills ?_ fun _ _ => id
  exact fun _ after ⟨fresh, value, moves, judges, isGood⟩ =>
    ⟨fresh, value, moves, judges, onGood fresh value after moves isGood⟩

/-- A step whose value is known. -/
theorem Does.fits {good : Unit -> List Extent -> PackState -> Prop}
    {filled : Value -> PackState -> Prop} (value : Value)
    (judges : Judges document limit matter (.fits value)) (does : Does owned step before good)
    (onGood : forall fresh after, Moves owned before fresh after -> good () fresh after ->
      filled value after) :
    Fills document limit owned matter step before filled := by
  refine Run.imp does ?_ fun _ _ refuses => refuses.fails fun _ => trivial
  exact fun _ after ⟨fresh, moves, isGood⟩ =>
    ⟨fresh, value, moves, judges, onGood fresh after moves isGood⟩

/-- A complaint is a violation that is noted and fails. -/
theorem fills_raise {complaint : Complaint} {path : Path} {good : Value -> PackState -> Prop}
    (judges : Judges document limit matter (.complaint complaint path)) :
    Fills document limit owned matter (raise complaint path) before good :=
  ⟨⟨[], .start⟩, Or.inr ⟨⟨complaint, path⟩, [], rfl, rfl, judges⟩⟩

end Steps

/-! ### Attempts -/

section Attempts

variable {document : Json} {limit : Nat} {owned : List Extent} {matter : Matter}
  {step : PackM Unit} {before : PackState} {good : Value -> PackState -> Prop}

/-- What an attempt to write the value of a matter ends with. -/
def Attempted (document : Json) (limit : Nat) (matter : Matter) (good : Value -> PackState -> Prop) :
    Option Violation -> PackState -> Prop
  | none, after => exists value, Judges document limit matter (.fits value) ∧ good value after
  | some violation, _ => exists others, Judges document limit matter (.violates violation others)

/-- An attempt to write a value notes no violation. -/
theorem Fills.attempt (fills : Fills document limit owned matter step before good) :
    Run (attempt step) before
      (fun captured after => exists fresh, Moves owned before fresh after ∧
        Attempted document limit matter good captured after)
      (Refuses (IsDecided document limit matter) owned before) := by
  unfold Fills Run at fills
  unfold Run Packer.attempt
  cases ends : step before with
  | ok _ after =>
      simp only [ends] at fills
      obtain ⟨fresh, value, moves, judges, isGood⟩ := fills
      exact ⟨fresh, moves, value, judges, isGood⟩
  | error failure after =>
      simp only [ends] at fills
      obtain ⟨⟨fresh, evolves⟩, expected | ⟨violation, others, rfl, noted, judges⟩⟩ := fills
      · cases failure with
        | violation => exact expected.elim
        | _ => exact ⟨expected, fresh, evolves⟩
      · obtain ⟨data, violations⟩ := after
        simp only at noted ⊢
        refine ⟨fresh, ⟨?_, evolves⟩, others, judges⟩
        rw [noted, List.take_left]

/-- What follows an attempt to write a value that another one holds. -/
theorem Fills.attemptThen {inner : List Extent} {innerMatter : Matter}
    {second : Option Violation -> PackM Unit} {filled : Value -> PackState -> Prop}
    (fills : Fills document limit inner innerMatter step before good) (covers : Covers owned inner)
    (decided : IsDecided document limit matter -> IsDecided document limit innerMatter)
    (continued : forall captured fresh middle, Moves inner before fresh middle ->
      Attempted document limit innerMatter good captured middle ->
      Fills document limit (fresh ++ owned) matter (second captured) middle filled) :
    Fills document limit owned matter (Packer.attempt step >>= second) before filled := by
  refine Run.andThen fills.attempt ?_ ?_
  · rintro captured middle ⟨fresh, moves, attempted⟩
    have moved := moves.mono covers
    refine Run.imp (continued captured fresh middle moves attempted) ?_ ?_
    · exact fun _ after ⟨more, value, later, judges, isFilled⟩ =>
        ⟨more ++ fresh, value, moved.trans later (.refl _), judges, isFilled⟩
    · exact fun failure after fails => fails.of_moves moved (.refl _) id fun _ _ => id
  · exact fun failure after ⟨expected, fresh, evolves⟩ =>
      ⟨⟨fresh, evolves.mono covers⟩, Or.inl (expected.mono decided)⟩

end Attempts

/-! ### Questions to the schema and positions -/

section Questions

variable {Result Next : Type} {owned : List Extent} {state : PackState}

theorem ask_ok {answer : Except SchemaError Result} {result : Result}
    (known : answer = .ok result) : ask answer = pure result := by
  rw [known]
  rfl

theorem inside_eq {place : Offset} {delta : UInt32}
    (small : place.toNat + delta.toNat < Offset.spaceSize) :
    inside place delta = pure (place.advance delta.toNat) := by
  unfold inside
  rw [Offset.add?_eq_advance small]

theorem element_eq {start : Offset} {index stride : Nat}
    (small : start.toNat + index * stride < Offset.spaceSize) :
    element start index stride = pure (start.advance (index * stride)) := by
  unfold element
  simp only
  rw [if_pos (by omega), Offset.add?_eq_advance small]

end Questions

/-! ### Writing numbers -/

section Numbers

variable {state : PackState} {region : Extent} {place : Offset} {width value : Nat}

theorem run_onData {Result : Type} {step : ArenaM Result} {good : Result -> PackState -> Prop}
    {bad : PackError -> PackState -> Prop} :
    Run (onData step) state good bad ↔
      Run step state.data (fun result data => good result ⟨data, state.violations⟩)
        (fun cause data => bad (.ofArena cause) ⟨data, state.violations⟩) := by
  obtain ⟨data, violations⟩ := state
  unfold Run onData
  simp only
  cases step data <;> rfl

/-- A number is written within a region. -/
theorem run_writeUnsigned (writable : state.data.Writable)
    (within : state.data.Within place.toNat width) (narrow : width ≤ 8)
    (small : value < 256 ^ width) :
    Run (writeUnsigned place width value) state
      (fun _ after => Moves [⟨place.toNat, width⟩] state [] after ∧
        after.data.HasNumber place width value)
      (fun _ _ => False) := by
  obtain ⟨data, violations⟩ := state
  have length := LittleEndian.length_encode width value
  unfold Run writeUnsigned
  by_cases none : width = 0
  · subst none
    simp only [if_true]
    refine ⟨.refl _ _, within, ?_, small⟩
    rfl
  · have size : (LittleEndian.encode width value).toByteArray.size = width := by
      rw [List.size_toByteArray, length]
    have source : (LittleEndian.encode width value).toByteArray.data.toList =
        LittleEndian.encode width value := by
      rw [List.data_toByteArray]
    have run := run_write place (LittleEndian.encode width value).toByteArray writable within
      (Nat.le_refl _) (by omega) (by omega)
    have allowed : data.checkWritable place width = .ok () := by
      unfold Run Arena.write at run
      rw [size] at run
      cases isAllowed : data.checkWritable place width with
      | ok _ => rfl
      | error cause =>
          rw [isAllowed] at run
          exact run.elim
    simp only [none, if_false, allowed, Nat.not_lt.mpr narrow, onData]
    unfold Run at run
    cases ends : Arena.write place (LittleEndian.encode width value).toByteArray data with
    | error cause after =>
        rw [ends] at run
        exact run.elim
    | ok _ after =>
        rw [ends] at run
        simp only at run ⊢
        refine ⟨⟨rfl, ?_⟩, run.grown.within _ _ within, ?_, small⟩
        · exact Evolves.start.write List.mem_cons_self
            ⟨Nat.le_refl _, Nat.le_of_eq (by rw [size])⟩ ends
        · have load := run.load_source
          rw [source, length] at load
          exact load

theorem does_writeUnsigned (writable : state.data.Writable)
    (within : state.data.Within place.toNat width) (narrow : width ≤ 8)
    (small : value < 256 ^ width) :
    Does [⟨place.toNat, width⟩] (writeUnsigned place width value) state
      fun _ _ after => after.data.HasNumber place width value :=
  (run_writeUnsigned writable within narrow small).imp
    (fun _ _ ends => ⟨[], ends⟩) (fun _ _ never => never.elim)

variable {packer : Packer}

theorem maxPointer_lt {target : Target} {value : Nat} (small : value ≤ target.maxPointer) :
    value < 256 ^ target.pointerWidth := by
  have positive : 0 < 256 ^ target.pointerWidth := Nat.pow_pos (by decide)
  unfold Target.maxPointer at small
  omega

/-- A size is written, or it is too large for the target. -/
theorem does_writeSize (writable : state.data.Writable)
    (within : state.data.Within place.toNat packer.target.pointerWidth) :
    Does [⟨place.toNat, packer.target.pointerWidth⟩] (packer.writeSize place value) state
      fun _ _ after => after.data.HasNumber place packer.target.pointerWidth value := by
  unfold writeSize
  split
  · exact ⟨trivial, [], .start⟩
  next fits =>
    exact does_writeUnsigned writable within packer.target.pointerWidth_le
      (maxPointer_lt (Nat.le_of_not_lt fits))

/-- A pointer is written, or it is too large for the target. -/
theorem does_writePointer {target : Offset} (writable : state.data.Writable)
    (within : state.data.Within place.toNat packer.target.pointerWidth) :
    Does [⟨place.toNat, packer.target.pointerWidth⟩] (packer.writePointer place target) state
      fun _ _ after => after.data.HasNumber place packer.target.pointerWidth
        (Reader.rawPointer packer.pointerBase target) := by
  unfold writePointer Reader.rawPointer
  split
  · exact does_writeUnsigned writable within packer.target.pointerWidth_le
      (Nat.pow_pos (by decide))
  · simp only
    split
    · exact ⟨trivial, [], .start⟩
    next fits =>
      exact does_writeUnsigned writable within packer.target.pointerWidth_le
        (maxPointer_lt (Nat.le_of_not_lt fits))

/-- A region is handed out, or there is no room for it. -/
theorem does_alloc (size alignment : Nat) (writable : state.data.Writable)
    (supported : isAlignment (max alignment 1) = true) :
    Does [] (onData (Arena.alloc size alignment)) state fun target fresh after =>
      fresh = [⟨target.toNat, size⟩] ∧ Allocated state.data size target after.data := by
  unfold Does
  rw [run_onData]
  have run := run_alloc size alignment writable supported
  unfold Run at run ⊢
  cases ends : alloc size alignment state.data with
  | ok target after =>
      rw [ends] at run
      exact ⟨[⟨target.toNat, size⟩], ⟨rfl, Evolves.start.alloc ends⟩, rfl, run⟩
  | error cause after =>
      rw [ends] at run
      obtain ⟨same, shortage⟩ := run
      exact ⟨PackError.isExpected_ofArena shortage, [], by simp only [same]; exact .start⟩

/-- A region is filled with zeros. -/
theorem does_zero (writable : state.data.Writable) (within : state.data.Within place.toNat width)
    (positive : 0 < width) :
    Does [⟨place.toNat, width⟩] (onData (Arena.zero place width)) state
      fun _ _ after => after.data.Zero ⟨place.toNat, width⟩ := by
  unfold Does
  rw [run_onData]
  have run := run_zero place width writable within (Nat.le_refl _) (Nat.le_refl _) (by omega)
  unfold Run at run ⊢
  cases ends : zero place width state.data with
  | error cause after =>
      rw [ends] at run
      exact run.elim
  | ok _ after =>
      rw [ends] at run
      refine ⟨[], ⟨rfl, ?_⟩, run.zero_replicate⟩
      unfold zero at ends
      cases allowed : state.data.checkWritable place width with
      | error cause =>
          rw [allowed] at ends
          cases ends
      | ok _ =>
          rw [allowed] at ends
          exact Evolves.start.write List.mem_cons_self
            ⟨Nat.le_refl _, Nat.le_of_eq (by rw [size_zeros])⟩ ends

end Numbers

end Packer
end PackedJson
