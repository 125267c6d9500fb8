import Mathlib.Data.List.Nodup
import Mathlib.Data.List.Perm.Subperm
import PackedJson.Packing.Document
import PackedJson.Proofs.Packing.Answers

namespace PackedJson

/-!
What in a schema leads packing astray.

Packing takes the records of a schema as they are.  Two defects of them are
not noticed as failures: a number that has more bytes than any number, and a
type that hands a value on to itself at its own position.  There are no other
faults, whatever the schema says: packing into a destination of any kind ends
with a packed document or with a failure that its caller is told.

A value that is handed on visits variables.  Where a variable comes back with
as much of the destination in use as before, no variable on the way can have
been a pointer: the instance behind a pointer lies behind all that was in use,
and the pointer before it.  So the types on the way hold one another in place,
each at the position of the one before.
-/

theorem Offset.toNat_of_add? {offset further : Offset} {bytes : Nat}
    (added : offset.add? bytes = some further) : further.toNat = offset.toNat + bytes := by
  unfold Offset.add? Offset.ofNat? at added
  split at added
  next small =>
    cases added
    exact Offset.toNat_ofNat small
  next => cases added

namespace Schema

/-- A type whose instances are written as numbers of as many bytes as its
size: some builtins, and the first field of a type with alternatives. -/
inductive IsNumber (schema : Schema) (context : Context) (id : TypeId) : Prop where
  | builtin {kind : Builtin} (isBuiltin : context.builtinOf? id = some kind)
      (isNumber : kind ∈ [Builtin.pointer, .size, .hash, .tag])
  | tag {owner : TypeId} {type : TypeDef} {field : FieldDef} {rest : List FieldDef}
      (isType : schema.type owner = .ok type)
      (ordered : schema.fieldsInOrder type = .ok (field :: rest))
      (typed : schema.fieldType type field = .ok id)

/-- A field to which a type may hand the value on that it is to hold: the
value of an option, the value of a result, or an alternative of a variant. -/
def IsAlternative (schema : Schema) (context : Context) (type : TypeDef) (field : FieldDef) :
    Prop :=
  exists tag rest, schema.fieldsInOrder type = .ok (tag :: rest) ∧ field ∈ rest ∧
    ((exists prototype, type.prototype = some prototype ∧
        (context.is prototype .option = true ∧ field.activation = 1 ∨
          context.is prototype .result = true ∧ field.activation = 0)) ∨
      type.shape = .variant)

/-- A type that lies in place may hand a value on to another type, which lies
at the same position. -/
def HandsOn (schema : Schema) (context : Context) (outer inner : TypeId) : Prop :=
  exists type field, schema.type outer = .ok type ∧ type.isStoredByReference = false ∧
    context.builtinOf? outer = none ∧ schema.IsAlternative context type field ∧
    field.offset = 0 ∧ field.type = some inner

end Schema

/-- A fault has its cause in a schema. -/
inductive Fault.IsDueTo (schema : Schema) (context : Context) : Fault -> Prop where
  | wideNumber {id : TypeId} {type : TypeDef} (isNumber : schema.IsNumber context id)
      (isType : schema.type id = .ok type) (isWide : 8 < type.size.toNat) :
      IsDueTo schema context (.wideNumber type.size.toNat)
  | endlessDescent {id : TypeId} (circle : Relation.TransGen (schema.HandsOn context) id id) :
      IsDueTo schema context .endlessDescent

namespace Packer

open Arena

variable {packer : Packer} {floor : Nat}

/-- The faults that the schema of a packer is to blame for. -/
abbrev Blames (packer : Packer) (cause : Fault) : Prop :=
  cause.IsDueTo packer.schema packer.context

/-! ### Alternatives -/

theorem type_eq_of_fieldType {schema : Schema} {type : TypeDef} {field : FieldDef} {id : TypeId}
    (typed : schema.fieldType type field = .ok id) : field.type = some id := by
  unfold Schema.fieldType at typed
  split at typed <;> cases typed
  assumption

theorem isInstance_iff {type : TypeDef} {generic : Builtin} :
    packer.isInstance type generic = true ↔
      exists prototype, type.prototype = some prototype ∧
        packer.context.is prototype generic = true := by
  unfold isInstance
  cases type.prototype <;> simp

/-- The fields of a wrapper as they are selected. -/
structure AreSelected (packer : Packer) (type : TypeDef) (fields : WrapperFields)
    (rest : List FieldDef) : Prop where
  ordered : packer.schema.fieldsInOrder type = .ok (fields.tag :: rest)
  zero : fields.zero ∈ rest
  one : fields.one ∈ rest
  activations : fields.zero.activation = 0 ∧ fields.one.activation = 1

theorem activation_of_find? {fields : List FieldDef} {field : FieldDef} {tag : UInt8}
    (found : fields.find? (fun field => field.activation == tag) = some field) :
    field.activation = tag := by
  have selected := List.find?_some found
  exact eq_of_beq selected

theorem answers_wrapperFields {blame : Fault -> Prop} (type : TypeDef) :
    Answers blame floor (packer.wrapperFields type)
      fun fields => exists rest, AreSelected packer type fields rest := by
  unfold wrapperFields
  refine answers_ask.bind fun fields ordered => ?_
  simp only
  split
  next tag zero one isFirst isZero isOne =>
    refine .pure ?_
    cases fields with
    | nil => cases isFirst
    | cons head rest =>
        cases isFirst
        exact ⟨rest, ordered, List.mem_of_find?_eq_some isZero,
          List.mem_of_find?_eq_some isOne, activation_of_find? isZero, activation_of_find? isOne⟩
  next => exact .throw nofun

theorem answers_writeTag {id : TypeId} {type : TypeDef} {tag : FieldDef} {rest : List FieldDef}
    (isType : packer.schema.type id = .ok type)
    (ordered : packer.schema.fieldsInOrder type = .ok (tag :: rest))
    (place : Offset) (value : UInt8) :
    Answers packer.Blames floor (packer.writeTag place type tag value) fun _ => True := by
  unfold writeTag
  refine answers_ask.bind fun tagId typed => answers_ask.bind fun tagType isTagType => ?_
  refine (answers_inside _ _).bind fun inner _ => answers_writeUnsigned _ fun isWide => ?_
  exact .wideNumber (.tag isType ordered typed) isTagType isWide

/-- A writer answers where an instance at a place may hand its value on. -/
def Carries (packer : Packer) (floor : Nat) (same : Writer) (type : TypeDef) (place : Offset)
    (path : Path) (value : Json) : Prop :=
  forall field inner offset, packer.schema.IsAlternative packer.context type field ->
    field.type = some inner -> place.add? field.offset.toNat = some offset ->
    Answers packer.Blames floor (same inner offset path value) fun _ => True

variable {same inner : Writer} {id : TypeId} {type : TypeDef} {place : Offset} {path : Path}
  {value : Json}

theorem answers_option (isType : packer.schema.type id = .ok type)
    (isOption : packer.isInstance type .option = true)
    (carries : packer.Carries floor same type place path value) :
    Answers packer.Blames floor (packer.option same type place path value) fun _ => True := by
  obtain ⟨prototype, isPrototype, is⟩ := isInstance_iff.mp isOption
  unfold option
  refine (answers_wrapperFields type).bind fun fields ⟨rest, selected⟩ => ?_
  split
  · exact answers_writeTag isType selected.ordered _ _
  · refine (answers_writeTag isType selected.ordered _ _).bind fun _ _ => ?_
    refine answers_ask.bind fun inner typed => (answers_inside _ _).bind fun offset isOffset => ?_
    exact carries fields.one inner offset
      ⟨_, rest, selected.ordered, selected.one,
        .inl ⟨prototype, isPrototype, .inl ⟨is, selected.activations.2⟩⟩⟩
      (type_eq_of_fieldType typed) isOffset

theorem answers_attempt {blame : Fault -> Prop} {step : PackM Unit}
    (answers : Answers blame floor step fun _ => True) :
    Answers blame floor (attempt step) fun _ => True := by
  intro before writable inUse
  have run := answers before writable inUse
  unfold Run attempt at *
  simp only
  cases ends : step before with
  | ok _ after =>
      rw [ends] at run
      exact run
  | error failure after =>
      rw [ends] at run
      cases failure with
      | violation => exact ⟨run.1, trivial⟩
      | _ => exact run

theorem answers_capture (isType : packer.schema.type id = .ok type) {fields : WrapperFields}
    {rest : List FieldDef} (selected : AreSelected packer type fields rest) (place : Offset)
    (violation : Violation) :
    Answers packer.Blames floor (packer.capture type fields place violation) fun _ => True := by
  unfold capture
  refine (answers_inside _ _).bind fun payload _ => ?_
  refine (answers_onData (enlarges_zero _ _)).bind fun _ _ => ?_
  refine (answers_writeTag isType selected.ordered _ _).bind fun _ _ => ?_
  exact answers_ask.bind fun textId _ => answers_ask.bind fun textType _ =>
    answers_writeText _ _ _

theorem answers_result (isType : packer.schema.type id = .ok type)
    (isResult : packer.isInstance type .result = true)
    (carries : packer.Carries floor same type place path value) :
    Answers packer.Blames floor (packer.result same type place path value) fun _ => True := by
  obtain ⟨prototype, isPrototype, is⟩ := isInstance_iff.mp isResult
  unfold result
  refine (answers_wrapperFields type).bind fun fields ⟨rest, selected⟩ => ?_
  refine answers_ask.bind fun inner typed => (answers_inside _ _).bind fun offset isOffset => ?_
  have answers := carries fields.zero inner offset
    ⟨_, rest, selected.ordered, selected.zero,
      .inl ⟨prototype, isPrototype, .inr ⟨is, selected.activations.1⟩⟩⟩
    (type_eq_of_fieldType typed) isOffset
  refine (answers_attempt answers).bind fun captured _ => ?_
  split
  · exact answers_writeTag isType selected.ordered _ _
  · exact answers_capture isType selected _ _

theorem answers_candidates {blame : Fault -> Prop} (fields : List FieldDef) :
    Answers blame floor (packer.candidates type fields)
      fun found => forall candidate, candidate ∈ found -> candidate.2 ∈ fields := by
  induction fields with
  | nil => exact .pure nofun
  | cons field rest ih =>
      unfold candidates
      refine answers_ask.bind fun id _ => ?_
      have formed : Answers blame floor (packer.form? id) fun _ => True := by
        unfold form?
        split
        · exact .pure trivial
        · exact answers_ask.bind fun type _ => .pure trivial
      refine formed.bind fun form _ => ih.bind fun others fromRest => ?_
      split
      · refine .pure fun candidate member => ?_
        cases List.mem_cons.mp member with
        | inl same => exact same ▸ List.mem_cons_self
        | inr inOthers => exact List.mem_cons_of_mem _ (fromRest candidate inOthers)
      · exact .pure fun candidate member => List.mem_cons_of_mem _ (fromRest candidate member)

theorem mem_of_choose {candidates : List (Form × FieldDef)} {chosen : FieldDef}
    (isChosen : choose candidates value = some chosen) :
    exists candidate, candidate ∈ candidates ∧ candidate.2 = chosen := by
  obtain ⟨form, _, found⟩ := List.exists_of_findSome?_eq_some isChosen
  obtain ⟨candidate, isFound, same⟩ := Option.map_eq_some_iff.mp found
  exact ⟨candidate, List.mem_of_find?_eq_some isFound, same⟩

theorem answers_variant (isType : packer.schema.type id = .ok type)
    (isVariant : type.shape = .variant)
    (carries : packer.Carries floor same type place path value) :
    Answers packer.Blames floor (packer.variant same type place path value) fun _ => True := by
  unfold variant
  refine answers_ask.bind fun fields ordered => ?_
  refine (answers_candidates _).bind fun alternatives fromFields => ?_
  split
  next tag chosen isFirst isChosen =>
    obtain ⟨candidate, member, rfl⟩ := mem_of_choose isChosen
    cases fields with
    | nil => cases isFirst
    | cons head rest =>
        cases isFirst
        refine (answers_writeTag isType ordered _ _).bind fun _ _ => ?_
        refine answers_ask.bind fun inner typed => ?_
        refine (answers_inside _ _).bind fun offset isOffset => ?_
        exact carries candidate.2 inner offset
          ⟨_, rest, ordered, fromFields candidate member, .inr isVariant⟩
          (type_eq_of_fieldType typed) isOffset
  next => exact .throw nofun

theorem answers_writeBuiltin {kind : Builtin} (isType : packer.schema.type id = .ok type)
    (isBuiltin : packer.context.builtinOf? id = some kind) :
    Answers packer.Blames floor (packer.writeBuiltin type place path value kind)
      fun _ => True := by
  have isUnsigned (isNumber : kind ∈ [Builtin.pointer, .size, .hash, .tag]) :
      Answers packer.Blames floor (unsigned type.size.toNat place path value) fun _ => True :=
    answers_unsigned (.wideNumber (.builtin isBuiltin isNumber) isType) place path value
  cases kind with
  | integer => exact answers_integer _ _ _
  | number => exact answers_number _ _ _
  | boolean => exact answers_boolean _ _ _
  | char => exact answers_char _ _ _
  | pointer => exact isUnsigned (by decide)
  | size => exact isUnsigned (by decide)
  | hash => exact isUnsigned (by decide)
  | tag => exact isUnsigned (by decide)
  | unit => exact answers_unit _ _
  | string => exact answers_string _ _ _ _
  | _ => exact .throw nofun

/-- Writing an instance answers when the values inside can be written, and the
value itself where it may be handed on to. -/
theorem answers_writeInstance (isType : packer.schema.type id = .ok type)
    (parts : forall part : Json, part.height < value.height -> AnswersFor packer.Blames inner part)
    (carries : packer.context.builtinOf? id = none ->
      packer.Carries floor same type place path value) :
    Answers packer.Blames floor (packer.writeInstance same inner id type place path value)
      fun _ => True := by
  unfold writeInstance
  split
  next kind isBuiltin => exact answers_writeBuiltin isType isBuiltin
  next isDeclared =>
    have carries := carries isDeclared
    split
    next isOption => exact answers_option isType isOption carries
    next =>
      split
      next isResult => exact answers_result isType isResult carries
      next =>
        split
        next => exact answers_object (fun members same member isMember =>
            parts _ (by rw [same]; exact Json.height_lt_of_member isMember)) _ _ _
        next => exact answers_array (fun items same item isItem =>
            parts _ (by rw [same]; exact Json.height_lt_of_item isItem)) _ _ _
        next => exact answers_map (fun members same member isMember =>
            parts _ (by rw [same]; exact Json.height_lt_of_member isMember)) _ _ _
        next isVariant => exact answers_variant isType isVariant carries

/-! ### Values that are handed on -/

/-- Different handoffs that found as much in use are no more than there are
pairs of a type and a place. -/
theorem length_le_of_level {handoffs : List Handoff} {level : Nat} (distinct : handoffs.Nodup)
    (leveled : forall handoff, handoff ∈ handoffs -> handoff.used = level) :
    handoffs.length ≤ Offset.spaceSize ^ 2 := by
  let number (handoff : Handoff) : Nat :=
    handoff.type.offset.toNat * Offset.spaceSize + handoff.place.toNat
  have numbered : (handoffs.map number).Nodup := by
    refine distinct.map_on fun first isFirst second isSecond same => ?_
    have firstLow := first.place.toNat_lt
    have secondLow := second.place.toNat_lt
    have places : first.place.toNat = second.place.toNat := by
      have remainders := congrArg (· % Offset.spaceSize) same
      simpa only [number, Nat.mul_add_mod_self_right, Nat.mod_eq_of_lt firstLow,
        Nat.mod_eq_of_lt secondLow] using remainders
    have types : first.type.offset.toNat = second.type.offset.toNat := by
      simp only [number, places] at same
      exact Nat.eq_of_mul_eq_mul_right (by decide : 0 < Offset.spaceSize) (by omega)
    have levels := (leveled first isFirst).trans (leveled second isSecond).symm
    obtain ⟨⟨firstType⟩, firstPlace, firstUsed⟩ := first
    obtain ⟨⟨secondType⟩, secondPlace, secondUsed⟩ := second
    rw [Offset.toNat_inj] at places types
    simp only at places types levels
    rw [places, types, levels]
  have subset : handoffs.map number ⊆ List.range (Offset.spaceSize ^ 2) := by
    intro position member
    obtain ⟨handoff, _, rfl⟩ := List.mem_map.mp member
    have typeLow := handoff.type.offset.toNat_lt
    have placeLow := handoff.place.toNat_lt
    rw [List.mem_range, Nat.pow_two]
    have block := Nat.mul_le_mul_right Offset.spaceSize (Nat.succ_le_of_lt typeLow)
    rw [Nat.succ_mul] at block
    simp only [number]
    omega
  have most := (List.Nodup.subperm numbered subset).length_le
  rwa [List.length_map, List.length_range] at most

/-- The handoffs that are left suffice for all that have not been made. -/
structure HasSteps (steps : Nat) (earlier : List Handoff) (level : Nat) : Prop where
  distinct : earlier.Nodup
  leveled : forall handoff, handoff ∈ earlier -> handoff.used = level
  enough : (Offset.spaceSize - level) * Offset.spaceSize ^ 2 ≤ steps + earlier.length

/-- A handoff that was not made before takes one of the steps that are left. -/
theorem HasSteps.next {steps level : Nat} {earlier : List Handoff} {handoff : Handoff}
    (has : HasSteps steps earlier level) (above : level ≤ handoff.used)
    (small : handoff.used < Offset.spaceSize) (isNew : handoff ∉ earlier) :
    exists rest, steps = rest + 1 ∧
      HasSteps rest (handoff :: earlier.filter fun other => other.used == handoff.used)
        handoff.used := by
  have rounds (count : Nat) (positive : 0 < count) :
      Offset.spaceSize ^ 2 ≤ count * Offset.spaceSize ^ 2 :=
    Nat.le_mul_of_pos_left _ positive
  have room : 0 < Offset.spaceSize ^ 2 := by decide
  obtain same | higher := Nat.eq_or_lt_of_le above
  · have kept : (earlier.filter fun other => other.used == handoff.used) = earlier :=
      List.filter_eq_self.mpr fun other member => by
        rw [has.leveled other member, same, beq_self_eq_true]
    have distinct : (handoff :: earlier).Nodup := List.nodup_cons.mpr ⟨isNew, has.distinct⟩
    have leveled (other : Handoff) (member : other ∈ handoff :: earlier) :
        other.used = handoff.used := by
      cases List.mem_cons.mp member with
      | inl isThis => rw [isThis]
      | inr isEarlier => rw [has.leveled other isEarlier, same]
    have short := length_le_of_level distinct leveled
    have enough := has.enough
    have round := rounds (Offset.spaceSize - level) (by omega)
    rw [List.length_cons] at short
    rw [kept]
    refine ⟨steps - 1, by omega, distinct, leveled, ?_⟩
    rw [← same, List.length_cons]
    omega
  · have dropped : (earlier.filter fun other => other.used == handoff.used) = [] :=
      List.filter_eq_nil_iff.mpr fun other member => by
        rw [has.leveled other member, beq_iff_eq]
        exact Nat.ne_of_lt higher
    have short := length_le_of_level has.distinct has.leveled
    have enough := has.enough
    have split : (Offset.spaceSize - handoff.used + 1) * Offset.spaceSize ^ 2 ≤
        (Offset.spaceSize - level) * Offset.spaceSize ^ 2 :=
      Nat.mul_le_mul_right _ (by omega)
    have round := rounds (Offset.spaceSize - handoff.used) (by omega)
    rw [Nat.succ_mul] at split
    rw [dropped]
    refine ⟨steps - 1, by omega, List.nodup_singleton _, ?_, ?_⟩
    · intro other member
      rw [List.mem_singleton.mp member]
    · rw [List.length_singleton]
      omega

/-- Where the earlier handoffs of a value are, seen from the variable that it
is handed on to: less was in use then, or they are in front of a region that
was handed out since, or every type since then holds the next one in place. -/
def Leads (packer : Packer) (earlier : List Handoff) (floor : Nat) (id : TypeId)
    (place : Offset) : Prop :=
  forall handoff, handoff ∈ earlier ->
    handoff.used < floor ∨
    (handoff.place.toNat < handoff.used ∧ handoff.used ≤ place.toNat) ∨
    (handoff.place.toNat ≤ place.toNat ∧ (handoff.place = place ->
      Relation.TransGen (packer.schema.HandsOn packer.context) handoff.type id))

variable {earlier : List Handoff} {field : FieldDef} {innerId : TypeId} {offset target : Offset}
  {used : Nat}

/-- A handoff that is made again closes a circle. -/
theorem Leads.circle (leads : packer.Leads earlier floor id place) (above : floor ≤ used)
    (repeated : ⟨id, place, used⟩ ∈ earlier) :
    Relation.TransGen (packer.schema.HandsOn packer.context) id id := by
  obtain lower | ⟨before, behind⟩ | ⟨_, circle⟩ := leads _ repeated
  · exact absurd lower (Nat.not_lt_of_le above)
  · exact absurd before (Nat.not_lt_of_le behind)
  · exact circle rfl

/-- The next variable lies inside the instance, which lies in place. -/
theorem Leads.inPlace (leads : packer.Leads earlier floor id place)
    (isType : packer.schema.type id = .ok type) (inPlace : type.isStoredByReference = false)
    (isDeclared : packer.context.builtinOf? id = none)
    (isAlternative : packer.schema.IsAlternative packer.context type field)
    (typed : field.type = some innerId) (isOffset : place.add? field.offset.toNat = some offset)
    (above : floor ≤ used) :
    packer.Leads (⟨id, place, used⟩ :: earlier.filter fun other => other.used == used) used
      innerId offset := by
  have further := Offset.toNat_of_add? isOffset
  have forward : place.toNat ≤ offset.toNat := by omega
  have handsOn (same : place = offset) : packer.schema.HandsOn packer.context id innerId := by
    rw [same] at further
    have zero : field.offset.toNat = (0 : UInt32).toNat := by
      rw [UInt32.toNat_zero]
      omega
    exact ⟨type, field, isType, inPlace, isDeclared, isAlternative, UInt32.toNat_inj.mp zero,
      typed⟩
  intro handoff member
  cases List.mem_cons.mp member with
  | inl isThis =>
      subst isThis
      exact .inr (.inr ⟨forward, fun same => .single (handsOn same)⟩)
  | inr isEarlier =>
      obtain lower | ⟨before, behind⟩ | ⟨before, chain⟩ :=
        leads handoff (List.mem_of_mem_filter isEarlier)
      · exact .inl (Nat.lt_of_lt_of_le lower above)
      · exact .inr (.inl ⟨before, by omega⟩)
      · refine .inr (.inr ⟨by omega, fun same => ?_⟩)
        have still : handoff.place = place := Offset.toNat_inj.mp (by
          rw [same] at before ⊢
          omega)
        exact (chain still).tail (handsOn (still.symm.trans same))

/-- The next variable lies behind a pointer, and the region that the pointer
leads to is empty. -/
theorem Leads.behind (leads : packer.Leads earlier floor id place) (above : floor ≤ used)
    (before : place.toNat < used) (behind : used ≤ target.toNat)
    (isOffset : target.add? field.offset.toNat = some offset) :
    packer.Leads (⟨id, place, used⟩ :: earlier.filter fun other => other.used == used) used
      innerId offset := by
  have further := Offset.toNat_of_add? isOffset
  have stillBehind : used ≤ offset.toNat := by omega
  intro handoff member
  cases List.mem_cons.mp member with
  | inl isThis =>
      subst isThis
      exact .inr (.inl ⟨before, stillBehind⟩)
  | inr isEarlier =>
      obtain ⟨isMember, isLevel⟩ := List.mem_filter.mp isEarlier
      have level : handoff.used = used := eq_of_beq isLevel
      obtain lower | ⟨inFront, _⟩ | ⟨inFront, _⟩ := leads handoff isMember
      · exact .inl (Nat.lt_of_lt_of_le lower above)
      · exact .inr (.inl ⟨inFront, by omega⟩)
      · exact .inr (.inl ⟨by omega, by omega⟩)

/-- The next variable lies behind a pointer, and more is in use since. -/
theorem leads_of_grown :
    packer.Leads (⟨id, place, used⟩ :: earlier.filter fun other => other.used == used) (used + 1)
      innerId offset := by
  intro handoff member
  refine .inl ?_
  cases List.mem_cons.mp member with
  | inl isThis =>
      subst isThis
      exact Nat.lt_succ_self used
  | inr isEarlier =>
      have level : handoff.used = used := eq_of_beq (List.mem_filter.mp isEarlier).2
      omega

/-! ### Variables -/

theorem used_lt {arena : Arena} (writable : arena.Writable) : arena.used < Offset.spaceSize := by
  have limit : positionLimit < Offset.spaceSize := by decide
  obtain ⟨_, shape⟩ := writable
  split at shape
  · omega
  · omega
  · exact shape.elim

theorem run_used {before : PackState} {good : Nat -> PackState -> Prop}
    {bad : PackError -> PackState -> Prop} :
    Run Packer.used before good bad ↔ good before.data.used before :=
  Iff.rfl

theorem run_allocInstance {blame : Fault -> Prop} {before : PackState} (type : TypeDef)
    (writable : before.data.Writable) :
    Run (packer.allocInstance type) before
      (fun target after => Grown before.data after.data ∧ before.data.used ≤ target.toNat)
      (fun failure after => Grown before.data after.data ∧
        forall cause, failure = .fault cause -> blame cause) := by
  unfold allocInstance
  cases packer.schema.instanceAlign type with
  | error cause => exact ⟨Grown.refl _, nofun⟩
  | ok alignment =>
      have answers : Answers blame 0 (onData (alloc type.size.toNat alignment.toNat))
          fun _ => True := answers_onData (enlarges_alloc _ _)
      have run := answers before writable (Nat.zero_le _)
      obtain ⟨data, violations⟩ := before
      unfold Run at run
      simp only [Run, ask, pure_bind, onData] at run ⊢
      cases ends : alloc type.size.toNat alignment.toNat data with
      | error cause after =>
          rw [ends] at run
          exact run
      | ok target after =>
          have allocated := allocated_of_ok writable ends
          exact ⟨allocated.grown, allocated.start⟩

/-- A number of some bytes is written in front of the end of the part in use. -/
theorem run_writeUnsigned_inUse {before : PackState} {width number : Nat}
    (positive : 0 < width) :
    Run (writeUnsigned place width number) before
      (fun _ _ => place.toNat < before.data.used) (fun _ _ => True) := by
  simp only [Run, writeUnsigned, if_neg (Nat.ne_of_gt positive)]
  cases allowed : before.data.checkWritable place width with
  | error cause => trivial
  | ok _ =>
      have inUse : place.toNat < before.data.used := by
        unfold checkWritable at allowed
        split at allowed
        · cases allowed
        · split at allowed
          next readable =>
            have parts := Bool.and_eq_true_iff.mp (Bool.and_eq_true_iff.mp readable).1
            have stops := of_decide_eq_true parts.2
            omega
          next => cases allowed
      simp only
      split
      · next ends =>
          exact inUse
      · trivial

/-- A pointer is written in front of the end of the part in use. -/
theorem run_writePointer_inUse {before : PackState} :
    Run (packer.writePointer place target) before
      (fun _ _ => place.toNat < before.data.used) (fun _ _ => True) := by
  have positive := packer.target.pointerWidth_pos
  unfold writePointer
  split
  · exact run_writeUnsigned_inUse positive
  · simp only
    split
    · exact trivial
    · exact run_writeUnsigned_inUse positive

/-- Writing a variable answers when the value may be handed on from the
variable itself, from an instance behind a pointer that took room, and from an
empty instance behind a pointer. -/
theorem answers_writeVariable
    (parts : forall part : Json, part.height < value.height -> AnswersFor packer.Blames inner part)
    (inPlace : forall type, packer.schema.type id = .ok type ->
      type.isStoredByReference = false -> packer.context.builtinOf? id = none ->
      packer.Carries floor same type place path value)
    (grown : forall type target, packer.Carries (floor + 1) same type target path value)
    (behind : forall type target, place.toNat < floor -> floor ≤ target.toNat ->
      packer.Carries floor same type target path value) :
    Answers packer.Blames floor (packer.writeVariable same inner id place path value)
      fun _ => True := by
  unfold writeVariable
  refine answers_ask.bind fun type isType => ?_
  split
  next =>
    intro before writable inUse
    refine Run.andThen (run_allocInstance type writable) ?_ fun _ _ refused => refused
    intro target middle ⟨toMiddle, afterUsed⟩
    have stillWritable := toMiddle.writable writable
    have pointed : Answers packer.Blames floor (packer.writePointer place target)
        fun _ => True := answers_writePointer place target
    have run := (pointed middle stillWritable (Nat.le_trans inUse toMiddle.used)).both
      run_writePointer_inUse
    refine Run.andThen run ?_ ?_
    · intro _ after ⟨⟨toAfter, _⟩, isInFront⟩
      -- Either the region took room, or the pointer lies in front of it.
      have carries : exists level, level ≤ middle.data.used ∧
          packer.Carries level same type target path value := by
        obtain same | more := Nat.eq_or_lt_of_le (Nat.le_trans inUse toMiddle.used)
        · exact ⟨floor, Nat.le_of_eq same, behind type target (by omega) (by omega)⟩
        · exact ⟨floor + 1, more, grown type target⟩
      obtain ⟨level, low, carries⟩ := carries
      have written := answers_writeInstance isType parts (fun _ => carries) after
        (toAfter.writable stillWritable) (Nat.le_trans low toAfter.used)
      have toEnd := toMiddle.trans toAfter
      exact written.imp (fun _ _ ⟨more, done⟩ => ⟨toEnd.trans more, done⟩)
        (fun _ _ ⟨more, blamed⟩ => ⟨toEnd.trans more, blamed⟩)
    · exact fun _ _ ⟨⟨toAfter, blamed⟩, _⟩ => ⟨toMiddle.trans toAfter, blamed⟩
  next notByReference =>
    exact answers_writeInstance isType parts
      (inPlace type isType (Bool.eq_false_iff.mpr notByReference))

/-- A value is handed on until it is written, or a circle is closed. -/
theorem answers_writeWrapped {steps level : Nat}
    (parts : forall part : Json, part.height < value.height -> AnswersFor packer.Blames inner part)
    (has : HasSteps steps earlier level) (above : level ≤ floor)
    (leads : packer.Leads earlier floor id place) :
    Answers packer.Blames floor (packer.writeWrapped inner steps earlier id place path value)
      fun _ => True := by
  induction steps generalizing earlier level floor id place with
  | zero =>
      intro before writable inUse
      refine ⟨Grown.refl _, ?_⟩
      rintro cause ⟨⟩
      by_cases repeated : ⟨id, place, before.data.used⟩ ∈ earlier
      · exact .endlessDescent (leads.circle inUse repeated)
      · obtain ⟨rest, impossible, _⟩ :=
          has.next (Nat.le_trans above inUse) (used_lt writable) repeated
        cases impossible
  | succ steps ih =>
      intro before writable inUse
      unfold writeWrapped
      rw [run_bind, run_used]
      by_cases repeated : ⟨id, place, before.data.used⟩ ∈ earlier
      · have contains : ((earlier.filter fun other => other.used == before.data.used).contains
            ⟨id, place, before.data.used⟩) = true :=
          List.contains_iff_mem.mpr (List.mem_filter.mpr ⟨repeated, beq_self_eq_true _⟩)
        rw [if_pos contains]
        refine ⟨Grown.refl _, ?_⟩
        rintro cause ⟨⟩
        exact .endlessDescent (leads.circle inUse repeated)
      · have isNew : ((earlier.filter fun other => other.used == before.data.used).contains
            ⟨id, place, before.data.used⟩) = false :=
          Bool.eq_false_iff.mpr fun contains =>
            repeated (List.mem_of_mem_filter (List.contains_iff_mem.mp contains))
        obtain ⟨rest, same, next⟩ :=
          has.next (Nat.le_trans above inUse) (used_lt writable) repeated
        cases same
        rw [if_neg (Bool.eq_false_iff.mp isNew)]
        refine answers_writeVariable parts ?_ ?_ ?_ before writable (Nat.le_refl _)
        · intro type isType inPlace isDeclared field inner offset isAlternative typed isOffset
          exact ih next (Nat.le_refl _)
            (leads.inPlace isType inPlace isDeclared isAlternative typed isOffset inUse)
        · intro type target field inner offset _ _ _
          exact ih next (Nat.le_succ _) leads_of_grown
        · intro type target inFront behind field inner offset _ _ isOffset
          exact ih next (Nat.le_refl _) (leads.behind inUse inFront behind isOffset)

theorem hasSteps_start : HasSteps handoffLimit [] 0 :=
  ⟨List.nodup_nil, nofun, by
    have cube : handoffLimit = Offset.spaceSize ^ 2 * Offset.spaceSize := rfl
    rw [cube, Nat.sub_zero, Nat.mul_comm]
    exact Nat.le_refl _⟩

/-- Values whose height is bounded are written. -/
theorem answersFor_write {levels : Nat} {value : Json} (low : value.height ≤ levels) :
    AnswersFor packer.Blames (packer.write levels) value := by
  induction levels generalizing value with
  | zero => exact absurd value.height_pos (Nat.not_lt_of_le low)
  | succ levels ih =>
      intro id place path
      exact answers_writeWrapped (fun part lower => ih (by omega)) hasSteps_start
        (Nat.le_refl _) nofun

theorem answers_pack (id : TypeId) (value : Json) :
    Answers packer.Blames 0 (packer.pack id value) fun _ => True := by
  have cleared : Answers packer.Blames 0
      (modify fun state => { state with violations := [] }) fun _ => True :=
    fun before _ _ => ⟨Grown.refl before.data, trivial⟩
  have allocated (type : TypeDef) : Answers packer.Blames 0 (packer.allocInstance type)
      fun _ => True :=
    fun before writable _ => (run_allocInstance type writable).imp
      (fun _ _ ⟨grown, _⟩ => ⟨grown, trivial⟩) fun _ _ refused => refused
  have parts (part : Json) (lower : part.height < value.height) :
      AnswersFor packer.Blames (packer.write value.height) part :=
    answersFor_write (Nat.le_of_lt lower)
  unfold pack
  refine cleared.bind fun _ _ => answers_ask.bind fun type isType => ?_
  refine (allocated type).bind fun place _ => ?_
  refine (answers_writeInstance isType parts fun _ field inner offset _ _ _ => ?_).bind
    fun _ _ => .pure trivial
  exact answers_writeWrapped parts hasSteps_start (Nat.le_refl _) nofun

/-! ### Documents -/

theorem isDueTo_of_packDocument {container : Container} {root : TypeId} {bytes : ByteArray}
    {data : Arena} {address : Option Nat} {options : PackOptions} {cause : Fault}
    (writable : data.Writable)
    (astray : packDocument container root bytes data address options = .error (.fault cause)) :
    cause.IsDueTo container.schema (container.context options.target) := by
  unfold packDocument at astray
  split at astray
  next => cases astray
  next document =>
    simp only [bind, Except.bind] at astray
    split at astray
    next failure failed =>
      cases astray
      unfold documentSlice at failed
      split at failed
      · cases failed
      · split at failed
        · cases failed
        · split at failed <;> cases failed
    next value sliced =>
      split at astray
      next => cases astray
      next failure after ends =>
        cases astray
        exact ((answers_pack root value ⟨data, []⟩ writable (Nat.zero_le _)).of_error ends).2
          cause rfl

/-- The checks before packing fail because of the caller's expectations or
because of the schema. -/
theorem cause_of_checkedRoot {container : Container} {options : PackOptions} {failure : PackError}
    (failed : checkedRoot container options = .error failure) :
    (exists precondition expected actual, failure = .mismatch precondition expected actual) ∨
      exists cause, failure = .schema cause := by
  unfold checkedRoot at failed
  simp only [bind, Except.bind] at failed
  split at failed
  · cases failed
    exact .inl ⟨_, _, _, rfl⟩
  · split at failed
    · cases failed
      exact .inr ⟨_, rfl⟩
    · split at failed
      · cases failed
        exact .inr ⟨_, rfl⟩
      · split at failed
        · cases failed
        · cases failed
          exact .inl ⟨_, _, _, rfl⟩

/-- The checks before packing find no fault. -/
theorem checkedRoot_ne_fault (container : Container) (options : PackOptions) (cause : Fault) :
    checkedRoot container options ≠ .error (.fault cause) := by
  intro failed
  obtain ⟨_, _, _, never⟩ | ⟨_, never⟩ := cause_of_checkedRoot failed <;> cases never

/-- A schema whose root is the type of sizes, with nine bytes. -/
def oversized : ByteArray :=
  let root : TypeId := ⟨Offset.ofNat 4⟩
  let context : Context := { Context.empty.setBuiltin .size root with root := some root }
  let container : Container := ⟨0, context, Context.empty, Arena.uninitialized⟩
  container.preambleBytes ++ Arena.zeros 4 ++
    Record.toBytes { TypeDef.ofShape TextRef.empty .struct with size := 9 }

end Packer
end PackedJson
