import PackedJson.Proofs.Packing.Maps

namespace PackedJson

/-!
Writing values of all types, and reading them back.

An option hands a value on to a result or to a type without a wrapper, a
result to a type without a wrapper, and a variant to a type that takes values
of one form.  Values are handed on at most three times, and never to a type
that had them before, so that the limit on handoffs is out of reach.  The
values inside a value have a smaller height.
-/

namespace TextSchema

/-- How often a value of some role is handed on at most. -/
def Role.handoffs : Role -> Nat
  | .option _ => 3
  | .result _ => 2
  | .variant _ => 1
  | _ => 0

theorem Role.handoffs_lt_four (role : Role) : role.handoffs < 4 := by
  cases role <;> simp only [Role.handoffs] <;> omega

/-- The roles that nodes give are no wrappers. -/
theorem Describes.handoffs_le {document node : Json} {role : Role}
    (describes : Describes document node role) : role.handoffs ≤ 1 := by
  induction describes with
  | reference _ _ _ ih => exact ih
  | @stated node role _ isStated =>
      unfold statedRole? at isStated
      split at isStated
      · cases isStated
        exact Nat.le_refl 1
      · cases isStated
      · obtain ⟨name, _, isTyped⟩ := Option.bind_eq_some_iff.mp isStated
        unfold typedRole? at isTyped
        split at isTyped
        · cases isTyped
          unfold objectRole
          split <;> exact Nat.zero_le 1
        · obtain ⟨items, _, rfl⟩ := Option.map_eq_some_iff.mp isTyped
          exact Nat.zero_le 1
        all_goals cases isTyped <;> exact Nat.zero_le 1

section Handoffs

variable {document : Json} {term inner : Term} {role : Role}

theorem handoffs_of_option (isOption : HasRole document term (.option inner))
    (hasRole : HasRole document inner role) : role.handoffs < 3 := by
  cases isOption with
  | option node canFail =>
      cases hasRole with
      | result => exact Nat.lt_succ_self 2
      | node describes => exact Nat.lt_succ_of_le (Nat.le_succ_of_le describes.handoffs_le)
  | node describes =>
      have impossible := describes.handoffs_le
      simp only [Role.handoffs] at impossible
      omega

theorem handoffs_of_result (isResult : HasRole document term (.result inner))
    (hasRole : HasRole document inner role) : role.handoffs < 2 := by
  cases isResult with
  | result node =>
      cases hasRole with
      | node describes => exact Nat.lt_succ_of_le describes.handoffs_le
  | node describes =>
      have impossible := describes.handoffs_le
      simp only [Role.handoffs] at impossible
      omega

theorem handoffs_of_form (hasForm : role.form? ≠ none) : role.handoffs < 1 := by
  cases role with
  | variant => exact absurd rfl hasForm
  | option => exact absurd rfl hasForm
  | result => exact absurd rfl hasForm
  | _ => exact Nat.zero_lt_one

end Handoffs

end TextSchema

namespace Packer

open Arena TextSchema Layout Heap Builder

/-- How often a value of a type is handed on at most. -/
def handoffsOf (context : Context) (declaration : Declaration) : Nat :=
  if declaration.prototype = some (context.builtin .option) then 3
  else if declaration.prototype = some (context.builtin .result) then 2
  else if declaration.shape = .variant then 1
  else 0

section Kinds

variable {packer : Packer} {heap : Heap} {document : Json} {promises : Promises}
  {settled : TypeId -> Prop} {id inner : TypeId} {type : TypeDef} {term : Term} {role : Role}
  {kind : Kind}

theorem Packs.handoffsOf_eq (packs : Packs packer heap document promises settled)
    (serves : Serves promises role kind) :
    handoffsOf packer.context (kind.declaration packer.context) = role.handoffs := by
  have isPrototype (first second : Builtin) :
      some (packer.context.builtin first) = some (packer.context.builtin second) ↔ first = second :=
    ⟨fun same => packs.serving.distinct _ _ (Option.some.inj same), fun same => same ▸ rfl⟩
  unfold handoffsOf
  cases serves <;> simp [Kind.declaration, isPrototype, Role.handoffs]

/-- The form of the values that a type takes is the one of its role. -/
theorem Packs.form?_eq (packs : Packs packer heap document promises settled)
    (isSettled : settled id) (serves : Serves promises role kind)
    (is : IsKind heap packer.target packer.context id kind) :
    packer.form? id = pure role.form? := by
  have ofShape {declaration : Declaration} (declares : Declares heap id declaration)
      (plain : declaration.builtin = false) :
      packer.form? id = pure (Form.ofShape? declaration.shape) := by
    obtain ⟨type, _, _, shows⟩ := packs.shows isSettled declares
    unfold form?
    rw [packs.builtinOf?_of_declares declares plain]
    simp only [ask_ok shows.found, pure_bind, shows.shape]
  have ofBuiltin {builtin : Builtin} (isBuiltin : id = packer.context.builtin builtin) :
      packer.form? id = pure (Form.ofBuiltin? builtin) := by
    unfold form?
    rw [isBuiltin, packs.builtinOf?_builtin]
  cases serves with
  | integer => exact ofBuiltin is.details.1
  | number => exact ofBuiltin is.details.1
  | boolean => exact ofBuiltin is.details.1
  | null => exact ofBuiltin is.details.1
  | string => exact ofBuiltin is.details
  | array => exact ofShape is.declares rfl
  | map => exact ofShape is.declares rfl
  | option => exact ofShape is.declares rfl
  | result => exact ofShape is.declares rfl
  | struct => exact ofShape is.declares rfl
  | variant => exact ofShape is.declares rfl

end Kinds

/-! ### Instances -/

section Instances

variable {packer : Packer} {heap : Heap} {document : Json} {promises : Promises}
  {settled : TypeId -> Prop} {id inner : TypeId} {type : TypeDef} {typed : List Typed}
  {align : UInt32} {declaration : Declaration} {term : Term} {role : Role} {kind : Kind}
  {place : Offset} {path : Path} {value : Json} {same write : Writer} {state : PackState}

/-- Variables are stored by reference or are instances themselves. -/
theorem Shows.variables (shows : Shows packer id declaration type typed align) :
    type.isStoredByReference = true ∧ type.slot.toNat = packer.target.pointerWidth ∨
      type.isStoredByReference = false ∧
        forall place, variableOf place type = instanceOf place type := by
  cases shows.sound.stored with
  | inl byReference => exact Or.inl ⟨byReference.1, byReference.2.1⟩
  | inr inline =>
      refine Or.inr ⟨inline.1, fun place => ?_⟩
      unfold variableOf instanceOf
      rw [inline.2.1]

/-- Instances of generic types are stored in place. -/
theorem Shows.inline (shows : Shows packer id declaration type typed align)
    (isArgument : declaration.argument = some inner) :
    type.isStoredByReference = false ∧ forall place, variableOf place type = instanceOf place type := by
  refine shows.variables.resolve_left fun byReference => ?_
  cases isArgument.symm.trans (shows.byReference byReference.1).2

/-- An empty variable of the type of an optional property is read as absent. -/
theorem Packs.readsAbsent (packs : Packs packer heap document promises settled)
    (isSettled : settled id) (promised : promises id term) (optional : term.optional = true)
    (found : packer.schema.type id = .ok type) : ReadsAbsent packer id type := by
  obtain ⟨role, kind, hasRole, serves, is⟩ := packs.serving.serves id term promised
  obtain ⟨node, canFail, isOptional⟩ := term
  cases optional
  cases hasRole
  cases serves
  obtain ⟨other, typed, align, shows⟩ := packs.shows isSettled is.declares
  cases found.symm.trans shows.found
  obtain ⟨tag, zero, one, payload, option⟩ := shows.isWrapper packs rfl rfl rfl rfl rfl
  obtain ⟨inline, sameRegion⟩ := shows.inline rfl
  intro place data room empty
  rw [sameRegion] at room empty
  have inside := option.tagged.tag_inside place
  exact ⟨_, variableAt_inline found inline, reads_absent packs option room
    ((empty.inside inside).hasNumber (room.inside inside).within)⟩

/-- The values inside a value are written. -/
def WritesInside (document : Json) (packer : Packer) (promises : Promises)
    (settled : TypeId -> Prop) (write : Writer) (value : Json) : Prop :=
  forall id term path part, settled id -> promises id term -> part.WellFormed ->
    part.height < value.height -> Writes document packer write id term path part

/-- A value is written as it is handed on by a role. -/
def WritesOnward (document : Json) (packer : Packer) (promises : Promises)
    (settled : TypeId -> Prop) (same : Writer) (bound : Nat) (path : Path) (value : Json) : Prop :=
  forall id term role, settled id -> promises id term -> HasRole document term role ->
    role.handoffs < bound -> Writes document packer same id term path value

theorem Packs.writeInstance_builtin (packs : Packs packer heap document promises settled)
    {builtin : Builtin} (isBuiltin : id = packer.context.builtin builtin) :
    packer.writeInstance same write id type place path value =
      packer.writeBuiltin type place path value builtin := by
  unfold writeInstance
  rw [isBuiltin, packs.builtinOf?_builtin]

theorem Packs.writeInstance_declared (packs : Packs packer heap document promises settled)
    (declares : Declares heap id declaration) (plain : declaration.builtin = false)
    (shows : Shows packer id declaration type typed align) {builtin : Builtin}
    (prototype : declaration.prototype = some (packer.context.builtin builtin)) :
    packer.writeInstance same write id type place path value =
      if builtin = .option then packer.option same type place path value
      else if builtin = .result then packer.result same type place path value
      else match declaration.shape with
        | .struct => packer.object write type place path value
        | .array => packer.array write type place path value
        | .map => packer.map write type place path value
        | .variant => packer.variant same type place path value := by
  have isPrototype := shows.prototype.trans prototype
  unfold writeInstance
  rw [packs.builtinOf?_of_declares declares plain]
  simp only [packs.isInstance_eq isPrototype, decide_eq_true_eq, shows.shape]
  all_goals cases declaration.shape <;> rfl

/-- A member is there for an alternative, and takes values in its role. -/
structure Offers (document : Json) (packer : Packer) (promises : Promises)
    (settled : TypeId -> Prop) (member : Member) (term : Term) (role : Role) : Prop where
  hasRole : HasRole document term role
  type : exists inner, member.type = some inner ∧ settled inner ∧ promises inner term ∧
    packer.form? inner = pure role.form?

/-- The alternatives of a variant, each with its role. -/
theorem Packs.offers (packs : Packs packer heap document promises settled)
    {alternatives : List Term} {members : List Member}
    (served : List.Forall₂ (ServesAlternative promises) alternatives members)
    (areSettled : forall member, member ∈ members -> forall inner, member.type = some inner ->
      settled inner) :
    exists entries : List (Term × Role), entries.map Prod.fst = alternatives ∧
      List.Forall₂ (fun member entry =>
        Offers document packer promises settled member entry.1 entry.2) members entries := by
  induction served with
  | nil => exact ⟨[], rfl, .nil⟩
  | @cons alternative member _ _ serves _ ih =>
      obtain ⟨isSettled, othersSettled⟩ := List.forall_mem_cons.mp areSettled
      obtain ⟨entries, terms, offer⟩ := ih othersSettled
      obtain ⟨inner, isType, promised⟩ := serves
      obtain ⟨role, kind, hasRole, serves, is⟩ := packs.serving.serves inner _ promised
      have innerSettled := isSettled inner isType
      exact ⟨(alternative, role) :: entries, congrArg _ terms, .cons ⟨hasRole, inner, isType,
        innerSettled, promised, packs.form?_eq innerSettled serves is⟩ offer⟩

/-- The alternatives of a variant are written as what is handed on. -/
theorem Packs.alternatives (packs : Packs packer heap document promises settled)
    {alternatives : List Term} {members : List Member}
    (served : List.Forall₂ (ServesAlternative promises) alternatives members)
    (areSettled : forall member, member ∈ members -> forall inner, member.type = some inner ->
      settled inner)
    (onward : WritesOnward document packer promises settled same 1 path value) :
    exists entries : List (Term × Role), entries.map Prod.fst = alternatives ∧
      List.Forall₂ (fun member entry =>
        IsAlternative document packer same path value member entry.1 entry.2) members entries := by
  obtain ⟨entries, terms, offer⟩ := packs.offers served areSettled
  refine ⟨entries, terms, offer.imp fun member entry offers => ?_⟩
  obtain ⟨inner, isType, innerSettled, promised, form⟩ := offers.type
  exact ⟨offers.hasRole, inner, isType, form, fun hasForm =>
    onward inner _ _ innerSettled promised offers.hasRole (handoffs_of_form hasForm)⟩

/-- The fields of a struct, each with its property. -/
theorem Packs.fields (packs : Packs packer heap document promises settled)
    {properties : List Property} {members : List Member}
    (served : List.Forall₂ (ServesProperty promises) properties members)
    (has : List.Forall₂ (HasMember packer) members typed)
    (areSettled : forall member, member ∈ members -> forall inner, member.type = some inner ->
      settled inner) {entries : List (String × Json)} (wellFormed : (Json.object entries).WellFormed)
    (inside : WritesInside document packer promises settled write (.object entries)) :
    List.Forall₂ (IsField document packer write path entries) properties typed := by
  induction served generalizing typed with
  | nil =>
      cases has
      exact .nil
  | @cons property member _ _ serves _ ih =>
      cases has with
      | cons hasMember others =>
          obtain ⟨isSettled, othersSettled⟩ := List.forall_mem_cons.mp areSettled
          obtain ⟨name, required, inner, isType, promised⟩ := serves
          obtain ⟨other, isOther, isField, found⟩ := hasMember.type
          cases isType.symm.trans isOther
          have innerSettled := isSettled inner isType
          refine .cons ⟨name ▸ hasMember.name, ?_, inner, isField, found, fun part isPart => ?_,
            fun optional => packs.readsAbsent innerSettled promised optional found⟩
            (ih others othersSettled)
          · unfold FieldDef.isRequired
            rw [hasMember.flags, required]
          · have isMember := Json.mem_of_lookup? isPart
            cases wellFormed with
            | object _ areWellFormed =>
                exact inside inner _ _ part innerSettled promised (areWellFormed _ isMember)
                  (Json.height_lt_of_member isMember)

/-- A value is written into an instance of a type that is meant for it. -/
theorem Packs.fills_instance (packs : Packs packer heap document promises settled)
    (isSettled : settled id) (promised : promises id term) (hasRole : HasRole document term role)
    (found : packer.schema.type id = .ok type) (wellFormed : value.WellFormed)
    (inside : WritesInside document packer promises settled write value)
    (onward : WritesOnward document packer promises settled same role.handoffs path value)
    (room : HasRoom state.data (instanceOf place type)) :
    FillsInstance document packer id type place term path value
      (packer.writeInstance same write id type place path value) state := by
  obtain ⟨other, kind, isRole, serves, is⟩ := packs.serving.serves id term promised
  cases hasRole_inj hasRole isRole
  have isBuiltin := packs.builtinOf?_builtin
  have scalar (builtin : Builtin) (size : Nat)
      (member : (builtin, size) ∈ scalarSizes packer.target)
      (isScalar : id = packer.context.builtin builtin) :
      exists name, type = TypeDef.scalar name (UInt32.ofNat size) := by
    obtain ⟨name, isFound⟩ := packs.scalar member
    rw [← isScalar] at isFound
    exact ⟨name, Except.ok.inj (found.symm.trans isFound)⟩
  obtain ⟨shown, typed, align, shows⟩ := packs.shows isSettled is.declares
  cases found.symm.trans shows.found
  cases serves with
  | integer =>
      have isInteger := is.details.1
      obtain ⟨name, rfl⟩ := scalar .integer 8 (by simp [scalarSizes]) isInteger
      rw [packs.writeInstance_builtin isInteger, isInteger]
      exact fills_integer isBuiltin hasRole room
  | number =>
      have isNumber := is.details.1
      obtain ⟨name, rfl⟩ := scalar .number 8 (by simp [scalarSizes]) isNumber
      rw [packs.writeInstance_builtin isNumber, isNumber]
      exact fills_number isBuiltin hasRole room
  | boolean =>
      have isBoolean := is.details.1
      obtain ⟨name, rfl⟩ := scalar .boolean 1 (by simp [scalarSizes]) isBoolean
      rw [packs.writeInstance_builtin isBoolean, isBoolean]
      exact fills_boolean isBuiltin hasRole room
  | null =>
      have isUnit := is.details.1
      rw [packs.writeInstance_builtin isUnit, isUnit]
      exact fills_unit isBuiltin hasRole
  | string =>
      have isString : id = packer.context.builtin .string := is.details
      obtain ⟨layout, isArray⟩ := shows.isArray packs rfl rfl
      rw [packs.writeInstance_builtin isString, isString]
      exact fills_string isBuiltin hasRole isArray room
  | array promisedElement =>
      have elementSettled := packs.settled_argument isSettled is.declares rfl
      obtain ⟨layout, isArray⟩ := shows.isArray packs rfl rfl
      obtain ⟨element, isElement, isAlign⟩ := packs.element elementSettled
      rw [packs.writeInstance_declared is.declares rfl shows rfl]
      refine fills_array hasRole isArray shows.argument isElement isAlign ?_ room
      rintro items item _ rfl isItem
      cases wellFormed with
      | array areWellFormed =>
          exact inside _ _ _ item elementSettled promisedElement (areWellFormed item isItem)
            (Json.height_lt_of_item isItem)
  | map promisedValue =>
      have valueSettled := packs.settled_argument isSettled is.declares rfl
      obtain ⟨keys, values, strings, text, isMap, rfl⟩ := shows.isMap packs is isSettled
      rw [packs.writeInstance_declared is.declares rfl shows rfl]
      refine fills_map (isBuiltin .string) hasRole isMap ?_ ?_ room
      · rintro members rfl
        cases wellFormed with
        | object distinct _ => exact distinct
      · rintro members member rfl isMember
        cases wellFormed with
        | object _ areWellFormed =>
            exact inside _ _ _ member.2 valueSettled promisedValue (areWellFormed member isMember)
              (Json.height_lt_of_member isMember)
  | option promisedInner =>
      have innerSettled := packs.settled_argument isSettled is.declares rfl
      obtain ⟨innerRole, _, hasInner, _⟩ := packs.serving.serves _ _ promisedInner
      obtain ⟨tag, zero, one, payload, option⟩ := shows.isWrapper packs rfl rfl rfl rfl rfl
      rw [packs.writeInstance_declared is.declares rfl shows rfl]
      exact fills_option packs hasRole option (fun _ => onward _ _ innerRole innerSettled
        promisedInner hasInner (handoffs_of_option hasRole hasInner)) room
  | result promisedInner =>
      have innerSettled := packs.settled_argument isSettled is.declares rfl
      obtain ⟨innerRole, _, hasInner, _⟩ := packs.serving.serves _ _ promisedInner
      obtain ⟨tag, zero, one, payload, result⟩ := shows.isWrapper packs rfl rfl rfl rfl rfl
      obtain ⟨text, layout, isText⟩ := packs.text (packs.settled_member isSettled is.declares
        (List.mem_cons_of_mem _ (List.mem_cons_of_mem _ List.mem_cons_self)) rfl)
      obtain ⟨_, isString, _, isOne⟩ := result.one.type
      cases isString
      cases isText.found.symm.trans isOne
      rw [packs.writeInstance_declared is.declares rfl shows rfl]
      exact fills_result isText (isBuiltin .string) hasRole result (onward _ _ innerRole innerSettled
        promisedInner hasInner (handoffs_of_result hasRole hasInner)) room
  | struct served =>
      rw [packs.writeInstance_declared is.declares rfl shows rfl]
      refine fills_struct hasRole shows.sound shows.shape ?_ room
      rintro members rfl
      exact packs.fields served shows.members (fun member isMember inner =>
        packs.settled_member isSettled is.declares isMember) wellFormed inside
  | variant served =>
      obtain ⟨tag, alternatives, payload, _, tagged, has⟩ := shows.isTagged packs rfl rfl
      obtain ⟨entries, rfl, are⟩ := packs.alternatives served (fun member isMember inner =>
        packs.settled_member isSettled is.declares (List.mem_cons_of_mem _ isMember)) onward
      rw [packs.writeInstance_declared is.declares rfl shows rfl]
      exact fills_variant hasRole tagged is.details has are room

/-! ### Variables -/

/-- Room for an instance is handed out, or there is none. -/
theorem Shows.does_allocInstance (shows : Shows packer id declaration type typed align)
    (writable : state.data.Writable) :
    Does [] (packer.allocInstance type) state fun target fresh after =>
      HasElements target type.size.toNat state.data fresh after.data := by
  have positive := shows.isAlign.pos
  have supported : isAlignment (max align.toNat 1) = true := by
    rw [Nat.max_eq_left positive]
    exact shows.isAlign.isAlignment
  unfold allocInstance
  rw [ask_ok shows.sound.instanceAlign, pure_bind]
  exact does_makeRoom _ _ writable supported

/-- A pointer to an instance is followed. -/
theorem variableAt_byReference {data : Arena} {target : Offset}
    (found : packer.schema.type id = .ok type) (byReference : type.isStoredByReference = true)
    (has : data.HasNumber place packer.target.pointerWidth
      (Reader.rawPointer packer.pointerBase target)) (present : target.isNull = false)
    (writable : data.Writable) :
    (packer.reader data).variableAt id place = .ok ⟨id, type, target⟩ := by
  have pointer : (packer.reader data).readPointer place = .ok target.nonNull? :=
    Reader.readPointer_of_hasNumber has writable
  unfold Offset.nonNull? at pointer
  unfold Reader.variableAt
  simp only [reader, Reader.ofSchema, found, bind, Except.bind, byReference, present, if_true,
    Bool.false_eq_true, if_false] at pointer ⊢
  rw [pointer]
  rfl

/-- A value is written into a variable of a type that is meant for it. -/
theorem Packs.fills_variable (packs : Packs packer heap document promises settled)
    (isSettled : settled id) (promised : promises id term) (hasRole : HasRole document term role)
    (found : packer.schema.type id = .ok type) (wellFormed : value.WellFormed)
    (inside : WritesInside document packer promises settled write value)
    (onward : WritesOnward document packer promises settled same role.handoffs path value)
    (room : HasRoom state.data (variableOf place type)) :
    FillsVariable document packer id type place term path value
      (packer.writeVariable same write id place path value) state := by
  obtain ⟨_, _, _, _, is⟩ := packs.serving.serves id term promised
  obtain ⟨_, typed, align, shows⟩ := packs.shows isSettled is.declares
  cases found.symm.trans shows.found
  have instanceAt {middle : PackState} (target : Offset)
      (middleRoom : HasRoom middle.data (instanceOf target type)) :=
    @Packs.fills_instance _ _ _ _ _ _ _ _ _ target _ _ _ _ middle packs isSettled promised hasRole
      found wellFormed inside onward middleRoom
  unfold writeVariable
  rw [ask_ok found, pure_bind]
  cases shows.variables with
  | inr inline =>
      obtain ⟨isInline, sameRegion⟩ := inline
      rw [sameRegion] at room
      unfold FillsVariable
      rw [if_neg (by rw [isInline]; decide), sameRegion]
      refine (instanceAt place room).imp ?_
      intro fresh meaning after _ isGood zero isWellFormed
      exact (isGood zero isWellFormed).imp fun later reads =>
        ⟨_, variableAt_inline found isInline, reads⟩
  | inl byReference =>
      obtain ⟨isReference, width⟩ := byReference
      have word : variableOf place type = ⟨place.toNat, packer.target.pointerWidth⟩ := by
        unfold variableOf
        rw [width]
      rw [word] at room
      unfold FillsVariable
      rw [if_pos isReference, word]
      refine (shows.does_allocInstance room.writable).andFills (.nil _) ?_
      intro target fresh made moves has
      have madeRoom := room.moved moves
      refine (does_writePointer madeRoom.writable madeRoom.within).andFills
        (Covers.refl _).append ?_
      intro _ more middle moved isPointer
      have apart : Extent.Apart ⟨place.toNat, packer.target.pointerWidth⟩ (instanceOf target type) :=
        Or.inl (Nat.le_trans room.end_le has.behind)
      have zero : middle.data.Zero (instanceOf target type) :=
        (moved.evolves.preserves_region madeRoom.writable has.room.end_le fun other member => by
          cases List.mem_singleton.mp member
          exact apart.symm).zero has.zero fun _ inInstance => inInstance
      have middleRoom := has.room.moved moved
      refine ((instanceAt target middleRoom).imp ?_).covered
        (.single (List.mem_append_right _ (List.mem_append_left _ has.member))
          ⟨Nat.le_refl _, Nat.le_refl _⟩)
      intro last meaning after ends isGood _ isWellFormed later preserves
      have stays := isPointer.survives ends.evolves middleRoom.writable fun other member => by
        cases List.mem_singleton.mp member
        exact apart
      have afterRoom := middleRoom.moved ends
      have earlier := Nat.le_trans (moves.evolves.grown room.writable).used
        (moved.evolves.grown madeRoom.writable).used
      refine ⟨_, variableAt_byReference found isReference
        (stays.preserved preserves fun _ => Or.inl) has.present
        (preserves.grown.writable afterRoom.writable), ?_⟩
      refine isGood zero isWellFormed later (preserves.mono fun position since => ?_)
      cases since with
      | inl inInstance => exact Since.of_behind has.behind afterRoom.end_le inInstance
      | inr behind => exact Or.inr ⟨Nat.le_trans earlier behind.1, behind.2⟩

/-! ### Handing values on -/

/-- A value was handed on by types that hand values on more often. -/
def AreEarlier (packer : Packer) (heap : Heap) (earlier : List Handoff) (bound : Nat) : Prop :=
  forall handoff, handoff ∈ earlier -> exists declaration, Declares heap handoff.type declaration ∧
    bound < handoffsOf packer.context declaration

/-- A value that is handed on is written into a variable, as long as it was not
handed on to this type before. -/
theorem writeWrapped_eq {steps : Nat} {earlier : List Handoff} {state : PackState}
    (isNew : (earlier.filter fun other => other.used == state.data.used).contains
      ⟨id, place, state.data.used⟩ = false) :
    packer.writeWrapped write (steps + 1) earlier id place path value state =
      packer.writeVariable (packer.writeWrapped write steps (⟨id, place, state.data.used⟩ ::
        earlier.filter fun other => other.used == state.data.used)) write id place path value
          state := by
  change (if (earlier.filter fun other => other.used == state.data.used).contains
      ⟨id, place, state.data.used⟩ = true then throw (.fault .endlessDescent)
    else packer.writeVariable (packer.writeWrapped write steps (⟨id, place, state.data.used⟩ ::
      earlier.filter fun other => other.used == state.data.used)) write id place path
        value : PackM Unit) state = _
  rw [isNew]
  rfl

/-- A type that hands values on less often was not handed any. -/
theorem AreEarlier.isNew {earlier : List Handoff} {bound used : Nat}
    (areEarlier : AreEarlier packer heap earlier bound) (declares : Declares heap id declaration)
    (handoffs : handoffsOf packer.context declaration = bound) :
    (earlier.filter fun other => other.used == used).contains ⟨id, place, used⟩ = false := by
  refine Bool.eq_false_iff.mpr fun isOld => ?_
  have member := List.mem_of_mem_filter (List.contains_iff_mem.mp isOld)
  obtain ⟨other, otherDeclares, more⟩ := areEarlier _ member
  cases declares_inj declares otherDeclares
  omega

/-- What a type hands on comes after what was handed on to it. -/
theorem AreEarlier.next {earlier : List Handoff} {bound fewer used : Nat}
    (areEarlier : AreEarlier packer heap earlier bound) (declares : Declares heap id declaration)
    (handoffs : handoffsOf packer.context declaration = bound) (less : fewer < bound) :
    AreEarlier packer heap
      (⟨id, place, used⟩ :: earlier.filter fun other => other.used == used) fewer := by
  refine List.forall_mem_cons.mpr ⟨⟨_, declares, by omega⟩, fun other member => ?_⟩
  obtain ⟨otherDeclaration, otherDeclares, more⟩ := areEarlier other (List.mem_of_mem_filter member)
  exact ⟨otherDeclaration, otherDeclares, by omega⟩

/-- A value is written as long as it can be handed on often enough. -/
theorem Packs.writes_wrapped (packs : Packs packer heap document promises settled) {steps : Nat}
    {earlier : List Handoff} (isSettled : settled id) (promised : promises id term)
    (hasRole : HasRole document term role) (wellFormed : value.WellFormed)
    (inside : WritesInside document packer promises settled write value)
    (enough : role.handoffs < steps) (areEarlier : AreEarlier packer heap earlier role.handoffs) :
    Writes document packer (packer.writeWrapped write steps earlier) id term path value := by
  induction steps generalizing earlier id term role with
  | zero => exact absurd enough (Nat.not_lt_zero _)
  | succ steps ih =>
      intro type place state found room
      obtain ⟨_, kind, isRole, serves, is⟩ := packs.serving.serves id term promised
      cases hasRole_inj hasRole isRole
      have handoffs := packs.handoffsOf_eq serves
      have isNew := @AreEarlier.isNew packer heap id _ place earlier _ state.data.used areEarlier
        is.declares handoffs
      have started := @writeWrapped_eq packer id place path value write steps earlier state isNew
      have fills := packs.fills_variable isSettled promised hasRole found wellFormed inside
        (fun innerId innerTerm innerRole innerSettled innerPromised hasInner fewer =>
          ih innerSettled innerPromised hasInner (by omega)
            (@AreEarlier.next packer heap id _ place earlier _ _ state.data.used areEarlier
              is.declares handoffs fewer)) room
      unfold FillsVariable FillsRegion Fills Run at fills ⊢
      rw [started]
      exact fills

theorem handoffs_lt_limit (role : Role) : role.handoffs < handoffLimit :=
  Nat.lt_trans role.handoffs_lt_four (by decide)

/-- Values up to some height are written. -/
theorem Packs.writes (packs : Packs packer heap document promises settled) {levels : Nat}
    (isSettled : settled id) (promised : promises id term) (wellFormed : value.WellFormed)
    (low : value.height < levels) :
    Writes document packer (packer.write levels) id term path value := by
  induction levels generalizing id term path value with
  | zero => exact absurd low (Nat.not_lt_zero _)
  | succ levels ih =>
      obtain ⟨role, _, hasRole, _⟩ := packs.serving.serves id term promised
      refine packs.writes_wrapped isSettled promised hasRole wellFormed ?_ (handoffs_lt_limit role)
        nofun
      exact fun _ _ _ _ partSettled partPromised partWellFormed lower =>
        ih partSettled partPromised partWellFormed (by omega)

/-- Scalars are written in place, whatever else is written. -/
theorem Packs.write_scalar (packs : Packs packer heap document promises settled) {levels : Nat}
    {builtin : Builtin} {size : Nat} (isScalar : (builtin, size) ∈ scalarSizes packer.target) :
    exists type, packer.schema.type (packer.context.builtin builtin) = .ok type ∧
      packer.write (levels + 1) (packer.context.builtin builtin) place path value =
        packer.writeBuiltin type place path value builtin := by
  obtain ⟨name, found⟩ := packs.scalar isScalar
  obtain ⟨steps, limit⟩ := Nat.exists_eq_succ_of_ne_zero (by decide : handoffLimit ≠ 0)
  refine ⟨_, found, ?_⟩
  funext state
  unfold write
  rw [limit, writeWrapped_eq rfl]
  unfold writeVariable
  rw [ask_ok found, pure_bind,
    if_neg (Builder.TypeDef.isStoredByReference_scalar _ _ ▸ Bool.false_ne_true),
    packs.writeInstance_builtin rfl]

/-! ### Documents -/

/-- A document was packed: its root is read as what the document means, as
long as no byte in use changes. -/
structure IsPacked (document : Json) (packer : Packer) (root : TypeId) (value : Json)
    (before : Arena) (place : Offset) (meaning : Value) (after : PackState) : Prop where
  changes : exists fresh, Evolves [] before fresh after.data
  violations : after.violations = []
  judges : Judges document packer.maxDepth (.asked ⟨document, false, false⟩ Path.root value)
    (.fits meaning)
  reads : Lasts (fun position => position < after.data.used) after.data fun data =>
    exists found, (packer.reader data).instanceAt root place = .ok found ∧
      Reads (packer.reader data) found meaning

/-- A document was not packed: there was no room or no alternative for it, or
it commits violations. -/
structure IsRefused (document : Json) (packer : Packer) (value : Json) (before : Arena)
    (failure : PackError) (after : PackState) : Prop where
  changes : exists fresh, Evolves [] before fresh after.data
  cause : failure.IsExpected (IsDecided document packer.maxDepth
      (.asked ⟨document, false, false⟩ Path.root value)) ∨ exists first others, failure = .violation first ∧
    after.violations = first :: others ∧
    Judges document packer.maxDepth (.asked ⟨document, false, false⟩ Path.root value)
      (.violates first others)

/-- A document is packed or refused. -/
theorem Packs.run_pack (packs : Packs packer heap document promises settled) {root : TypeId}
    (isSettled : settled root) (promised : promises root ⟨document, false, false⟩)
    (wellFormed : value.WellFormed) (writable : state.data.Writable) :
    Run (packer.pack root value) state
      (fun place after => exists meaning,
        IsPacked document packer root value state.data place meaning after)
      (IsRefused document packer value state.data) := by
  obtain ⟨role, kind, hasRole, serves, is⟩ := packs.serving.serves root _ promised
  obtain ⟨type, typed, align, shows⟩ := packs.shows isSettled is.declares
  let start : PackState := { state with violations := [] }
  have inside : WritesInside document packer promises settled (packer.write value.height) value :=
    fun _ _ _ _ partSettled partPromised partWellFormed lower =>
      packs.writes partSettled partPromised partWellFormed lower
  have onward : WritesOnward document packer promises settled
      (packer.writeWrapped (packer.write value.height) handoffLimit []) role.handoffs Path.root
      value :=
    fun _ _ innerRole innerSettled innerPromised hasInner _ => packs.writes_wrapped innerSettled
      innerPromised hasInner wellFormed inside (handoffs_lt_limit innerRole) nofun
  have steps : Run (packer.pack root value) state = Run (do
      let place ← packer.allocInstance type
      packer.writeInstance (packer.writeWrapped (packer.write value.height) handoffLimit [])
        (packer.write value.height) root type place Path.root value
      return place) start := by
    unfold pack
    simp only [ask_ok shows.found, pure_bind]
    rfl
  rw [steps]
  refine Run.andThen (shows.does_allocInstance writable) ?_ ?_
  · rintro place made ⟨fresh, moves, has⟩
    have madeRoom := has.room
    refine Run.andThen (packs.fills_instance isSettled promised hasRole shows.found wellFormed inside
      onward madeRoom) ?_ ?_
    · rintro _ after ⟨more, meaning, moved, judges, isGood⟩
      have covers : Covers (fresh ++ []) [instanceOf place type] :=
        .single (List.mem_append_left _ has.member) ⟨Nat.le_refl _, Nat.le_refl _⟩
      refine ⟨meaning, ⟨_, moves.evolves.trans moved.evolves covers⟩,
        moved.violations.trans moves.violations, judges, ?_⟩
      refine ((isGood has.zero wellFormed).mono fun position since => ?_).imp fun later reads => ?_
      · cases since with
        | inl inInstance => exact Nat.lt_of_lt_of_le inInstance.2 (madeRoom.moved moved).end_le
        | inr behind => exact behind.2
      · refine ⟨_, ?_, reads⟩
        unfold Reader.instanceAt
        simp only [reader, Reader.ofSchema, shows.found]
        rfl
    · rintro failure after ⟨⟨more, evolves⟩, cause⟩
      have covers : Covers (fresh ++ []) [instanceOf place type] :=
        .single (List.mem_append_left _ has.member) ⟨Nat.le_refl _, Nat.le_refl _⟩
      refine ⟨⟨_, moves.evolves.trans evolves covers⟩, cause.imp_right ?_⟩
      rintro ⟨first, others, same, noted, judges⟩
      refine ⟨first, others, same, ?_, judges⟩
      rw [noted, moves.violations]
      rfl
  · rintro failure after ⟨expected, changes⟩
    exact ⟨changes, Or.inl (expected.mono fun _ => trivial)⟩

end Instances

end Packer
end PackedJson
