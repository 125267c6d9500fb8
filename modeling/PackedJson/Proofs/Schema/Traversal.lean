import Mathlib.Logic.Relation
import PackedJson.Proofs.Schema.Copies

namespace PackedJson

/-!
The order in which types are listed.

A schema lists types with a stack of those that are pending.  A type is marked
when it is taken from the stack, so that it may be pending many times, also
where types refer to each other in circles.  The steps are bounded all the
same, whatever the bytes of the arena are: each type that can be read starts
at a byte of its own in the used part, and its fields are there as well, so
that few types add to the stack, each of them once and by few others.

`Traverses` says what the stack does without a bound on its steps.  Its list
is the one of the search by recursion, `Preorder`: a type, then what is found
below it, then what is found below those beside it.
-/

namespace Schema

variable {schema : Schema}

/-! ### References -/

/-- A type refers to another one by a field or by its argument. -/
inductive Refers (schema : Schema) (id : TypeId) : TypeId -> Prop where
  | field {type : TypeDef} {index : Nat} {field : FieldDef} {next : TypeId} :
      schema.type id = .ok type -> index < type.fieldCount.toNat ->
      schema.field type index = .ok field -> field.type = some next -> Refers schema id next
  | argument {type : TypeDef} {next : TypeId} :
      schema.type id = .ok type -> type.argument = some next -> Refers schema id next

/-- A type or one of its fields cannot be decoded. -/
inductive Unreadable (schema : Schema) (id : TypeId) : Prop where
  | type {failure : SchemaError} : schema.type id = .error failure -> Unreadable schema id
  | field {type : TypeDef} {index : Nat} {failure : SchemaError} :
      schema.type id = .ok type -> index < type.fieldCount.toNat ->
      schema.field type index = .error failure -> Unreadable schema id

/-- The last fields are those in the last places. -/
theorem getElem_lastFields {type : TypeDef} {count : Nat} {fields : List FieldDef}
    (enough : count ≤ type.fieldCount.toNat) (known : schema.lastFields type count = .ok fields) :
    fields.length = count ∧ forall position (bound : position < fields.length),
      schema.field type (type.fieldCount.toNat - count + position) = .ok fields[position] := by
  induction count generalizing fields with
  | zero =>
      cases known
      exact ⟨rfl, nofun⟩
  | succ count ih =>
      unfold lastFields at known
      obtain ⟨field, isField, restKnown⟩ := exists_of_bind known
      obtain ⟨rest, others, same⟩ := exists_of_bind restKnown
      cases same
      obtain ⟨length, places⟩ := ih (Nat.le_of_succ_le enough) others
      refine ⟨congrArg (· + 1) length, fun position bound => ?_⟩
      cases position with
      | zero => exact isField
      | succ position =>
          have next : type.fieldCount.toNat - (count + 1) + (position + 1) =
              type.fieldCount.toNat - count + position := by omega
          rw [next]
          exact places position (Nat.lt_of_succ_lt_succ bound)

/-- All places have their fields. -/
theorem getElem_fields {type : TypeDef} {fields : List FieldDef}
    (known : schema.fields type = .ok fields) :
    fields.length = type.fieldCount.toNat ∧ forall position (bound : position < fields.length),
      schema.field type position = .ok fields[position] := by
  have all := getElem_lastFields (Nat.le_refl _) known
  simpa only [Nat.sub_self, Nat.zero_add] using all

/-- The fields are those that are in some place. -/
theorem mem_fields_iff {type : TypeDef} {fields : List FieldDef} {field : FieldDef}
    (known : schema.fields type = .ok fields) : field ∈ fields ↔
      exists index, index < type.fieldCount.toNat ∧ schema.field type index = .ok field := by
  obtain ⟨length, places⟩ := getElem_fields known
  rw [List.mem_iff_getElem, ← length]
  constructor
  · rintro ⟨position, bound, rfl⟩
    exact ⟨position, bound, places position bound⟩
  · rintro ⟨position, bound, isField⟩
    exact ⟨position, bound, Except.ok.inj ((places position bound).symm.trans isField)⟩

/-- If fields cannot be read, then there is one that cannot be decoded. -/
theorem exists_of_lastFields_error {type : TypeDef} {count : Nat} {failure : SchemaError}
    (enough : count ≤ type.fieldCount.toNat)
    (fails : schema.lastFields type count = .error failure) :
    exists index cause, index < type.fieldCount.toNat ∧ schema.field type index = .error cause := by
  induction count generalizing failure with
  | zero => cases fails
  | succ count ih =>
      unfold lastFields at fails
      cases known : schema.field type (type.fieldCount.toNat - (count + 1)) with
      | error cause => exact ⟨_, cause, by omega, known⟩
      | ok field =>
          cases others : schema.lastFields type count with
          | error cause => exact ih (Nat.le_of_succ_le enough) others
          | ok rest =>
              rw [known, others] at fails
              cases fails

/-- What the parts of a description are, where it can be read with its fields. -/
theorem exists_of_successors {id : TypeId} {next : List TypeId}
    (known : schema.successors id = .ok next) : exists type fields, schema.type id = .ok type ∧
      schema.fieldsInOrder type = .ok fields ∧
      next = fields.filterMap FieldDef.type ++ type.argument.toList := by
  unfold successors at known
  obtain ⟨type, isType, rest⟩ := exists_of_bind known
  obtain ⟨fields, ordered, same⟩ := exists_of_bind rest
  cases same
  exact ⟨type, fields, isType, ordered, rfl⟩

/-- The successors of a type are the types that it refers to. -/
theorem mem_successors_iff {id next : TypeId} {successors : List TypeId}
    (known : schema.successors id = .ok successors) :
    next ∈ successors ↔ schema.Refers id next := by
  obtain ⟨type, ordered, isType, inOrder, rfl⟩ := exists_of_successors known
  obtain ⟨fields, isFields, same⟩ := exists_of_bind inOrder
  cases same
  have isOrdered (field : FieldDef) :
      field ∈ Sorted.sortBy (fun field => field.order.toNat) fields ↔ field ∈ fields :=
    (Sorted.sortBy_perm _ _).mem_iff
  rw [List.mem_append, List.mem_filterMap, Option.mem_toList]
  constructor
  · rintro (⟨field, member, typed⟩ | isArgument)
    · obtain ⟨index, inRange, isField⟩ := (mem_fields_iff isFields).mp ((isOrdered field).mp member)
      exact .field isType inRange isField typed
    · exact .argument isType isArgument
  · intro refers
    cases refers with
    | @field _ index field _ again inRange isField typed =>
        cases isType.symm.trans again
        have member := (mem_fields_iff isFields).mpr ⟨index, inRange, isField⟩
        exact .inl ⟨field, (isOrdered field).mpr member, typed⟩
    | argument again isArgument =>
        cases isType.symm.trans again
        exact .inr isArgument

/-- If a type does not have successors, then it cannot be read with its fields. -/
theorem unreadable_of_successors_error {id : TypeId} {failure : SchemaError}
    (fails : schema.successors id = .error failure) : schema.Unreadable id := by
  unfold successors fieldsInOrder at fails
  cases isType : schema.type id with
  | error cause => exact .type isType
  | ok type =>
      cases isFields : schema.fields type with
      | error cause =>
          obtain ⟨index, cause, inRange, isField⟩ :=
            exists_of_lastFields_error (Nat.le_refl _) isFields
          exact .field isType inRange isField
      | ok fields =>
          simp only [isType, isFields, bind, Except.bind, pure, Except.pure] at fails
          cases fails

/-! ### Few types and few fields -/

/-- What was read lies in the used part. -/
theorem within_of_read {Value : Type} [Record Value] {arena : Arena} {place : Offset} {value : Value}
    (isRead : Record.read Value arena place = .ok value) :
    place.toNat + Record.size Value ≤ arena.used := by
  unfold Record.read at isRead
  cases found : arena.get? place (Record.size Value) with
  | none =>
      rw [found] at isRead
      cases isRead
  | some bytes =>
      unfold Arena.get? at found
      split at found
      next readable =>
        simp only [Arena.isReadable, Bool.and_eq_true, decide_eq_true_eq] at readable
        exact readable.1.2
      next => cases found

/-- A type that can be read starts in the used part. -/
theorem lt_used_of_type {id : TypeId} {type : TypeDef} (isType : schema.type id = .ok type) :
    id.offset.toNat < schema.arena.used := by
  unfold Schema.type at isType
  split at isType
  next => cases isType
  next =>
    have within := within_of_read isType
    have size : Record.size TypeDef = 40 := rfl
    omega

/-- Different types that can be read are no more than the used bytes. -/
theorem length_le_used_of_types {ids : List TypeId} (distinct : ids.Nodup)
    (readable : forall id, id ∈ ids -> exists type, schema.type id = .ok type) :
    ids.length ≤ schema.arena.used := by
  refine Layout.length_le_of_offsets distinct fun id isOne => ?_
  obtain ⟨type, isType⟩ := readable id isOne
  exact lt_used_of_type isType

/-- A type whose fields can all be read has no more of them than there are used bytes. -/
theorem fieldCount_le_used {type : TypeDef} {fields : List FieldDef}
    (known : schema.fields type = .ok fields) : type.fieldCount.toNat ≤ schema.arena.used := by
  obtain ⟨length, places⟩ := getElem_fields known
  have counted : type.fieldCount.toNat < 2 ^ 32 := type.fieldCount.toNat_lt
  by_cases none : type.fieldCount.toNat = 0
  · omega
  · -- Distances are reckoned with 32 digits, and this place is not yet beyond them.
    obtain ⟨index, inRange, small, far⟩ : exists index, index < type.fieldCount.toNat ∧
        index * 36 < 2 ^ 32 ∧ type.fieldCount.toNat ≤ index * 36 + 36 :=
      ⟨min (type.fieldCount.toNat - 1) ((2 ^ 32 - 1) / 36), by omega, by omega, by omega⟩
    have size : fieldSize = 36 := rfl
    have space : Offset.spaceSize = 2 ^ 32 := rfl
    have isField := places index (by omega)
    unfold field at isField
    rw [if_neg (by omega), size, space, Nat.mod_eq_of_lt small] at isField
    cases isPlace : type.fields.add? (index * 36) with
    | none =>
        rw [isPlace] at isField
        cases isField
    | some place =>
        rw [isPlace] at isField
        have within := within_of_read isField
        unfold Offset.add? Offset.ofNat? at isPlace
        split at isPlace
        next small =>
          cases isPlace
          rw [Offset.toNat_ofNat small] at within
          have record : Record.size FieldDef = 36 := rfl
          omega
        next => cases isPlace

/-- A type does not refer to many types. -/
theorem length_successors_le {id : TypeId} {successors : List TypeId}
    (known : schema.successors id = .ok successors) :
    successors.length ≤ schema.arena.used + 1 := by
  obtain ⟨type, ordered, isType, inOrder, rfl⟩ := exists_of_successors known
  obtain ⟨fields, isFields, same⟩ := exists_of_bind inOrder
  cases same
  have few := fieldCount_le_used isFields
  have length := (getElem_fields isFields).1
  have types := List.length_filterMap_le FieldDef.type
    (Sorted.sortBy (fun field => field.order.toNat) fields)
  rw [Sorted.length_sortBy] at types
  have argument : type.argument.toList.length ≤ 1 := by
    cases type.argument with
    | none => exact Nat.zero_le 1
    | some _ => exact Nat.le_refl 1
  rw [List.length_append]
  omega

/-! ### The stack -/

/-- The steps of the stack, as many as it takes.  Seen types are given in reverse order, as in
`visit`. -/
inductive Traverses (schema : Schema) :
    Nat -> List TypeId -> List TypeId -> Except SchemaError (List TypeId) -> Prop where
  | done {seen : List TypeId} : Traverses schema 0 seen [] (.ok seen.reverse)
  | skip {rounds : Nat} {seen pending : List TypeId} {id : TypeId}
      {result : Except SchemaError (List TypeId)} :
      id ∈ seen -> Traverses schema rounds seen pending result ->
      Traverses schema (rounds + 1) seen (id :: pending) result
  | fail {seen pending : List TypeId} {id : TypeId} {failure : SchemaError} :
      id ∉ seen -> schema.successors id = .error failure ->
      Traverses schema 1 seen (id :: pending) (.error failure)
  | enter {rounds : Nat} {seen pending next : List TypeId} {id : TypeId}
      {result : Except SchemaError (List TypeId)} :
      id ∉ seen -> schema.successors id = .ok next ->
      Traverses schema rounds (id :: seen) (next ++ pending) result ->
      Traverses schema (rounds + 1) seen (id :: pending) result

variable {rounds steps : Nat} {seen pending : List TypeId}
  {result : Except SchemaError (List TypeId)}

/-- A visit that may take enough steps does what the stack does. -/
theorem Traverses.visit_eq (traverses : schema.Traverses rounds seen pending result)
    (enough : rounds ≤ steps) : schema.visit steps seen pending = result := by
  induction traverses generalizing steps with
  | done => cases steps <;> rfl
  | skip isSeen _ ih =>
      obtain ⟨fewer, rfl⟩ := Nat.exists_eq_succ_of_ne_zero (Nat.ne_zero_of_lt enough)
      unfold visit
      rw [if_pos (List.contains_iff_mem.mpr isSeen)]
      exact ih (Nat.le_of_succ_le_succ enough)
  | fail isNew fails =>
      obtain ⟨fewer, rfl⟩ := Nat.exists_eq_succ_of_ne_zero (Nat.ne_zero_of_lt enough)
      unfold visit
      rw [if_neg (mt List.contains_iff_mem.mp isNew), fails]
      rfl
  | enter isNew known _ ih =>
      obtain ⟨fewer, rfl⟩ := Nat.exists_eq_succ_of_ne_zero (Nat.ne_zero_of_lt enough)
      unfold visit
      rw [if_neg (mt List.contains_iff_mem.mp isNew), known]
      exact ih (Nat.le_of_succ_le_succ enough)

/-- The stack comes to one result only. -/
theorem Traverses.unique {others : Nat} {other : Except SchemaError (List TypeId)}
    (traverses : schema.Traverses rounds seen pending result)
    (again : schema.Traverses others seen pending other) : result = other :=
  (traverses.visit_eq (Nat.le_max_left rounds others)).symm.trans
    (again.visit_eq (Nat.le_max_right rounds others))

/-- The stack becomes empty, or a type cannot be read.  A step takes one type from the stack, and
only a type that was not seen puts others there. -/
theorem exists_traverses (distinct : seen.Nodup)
    (readable : forall id, id ∈ seen -> exists type, schema.type id = .ok type)
    (enough : pending.length +
      (schema.arena.used - seen.length) * (schema.arena.used + 1) ≤ steps) :
    exists rounds result, rounds ≤ steps ∧ schema.Traverses rounds seen pending result := by
  induction steps generalizing seen pending with
  | zero =>
      have none : pending = [] := List.length_eq_zero_iff.mp (by omega)
      subst none
      exact ⟨0, _, Nat.le_refl 0, .done⟩
  | succ steps ih =>
      cases pending with
      | nil => exact ⟨0, _, Nat.zero_le _, .done⟩
      | cons id pending =>
          rw [List.length_cons] at enough
          by_cases isSeen : id ∈ seen
          · have fewer : pending.length +
                (schema.arena.used - seen.length) * (schema.arena.used + 1) ≤ steps := by omega
            obtain ⟨rounds, result, few, traverses⟩ := ih distinct readable fewer
            exact ⟨_, _, Nat.succ_le_succ few, .skip isSeen traverses⟩
          · cases known : schema.successors id with
            | error failure => exact ⟨1, _, by omega, .fail isSeen known⟩
            | ok next =>
                obtain ⟨type, _, isType, _⟩ := exists_of_successors known
                have moreDistinct := List.nodup_cons.mpr ⟨isSeen, distinct⟩
                have moreReadable := List.forall_mem_cons.mpr ⟨⟨type, isType⟩, readable⟩
                have few := length_le_used_of_types moreDistinct moreReadable
                rw [List.length_cons] at few
                have atMost := length_successors_le known
                have room : (schema.arena.used - (seen.length + 1)) * (schema.arena.used + 1) +
                    (schema.arena.used + 1) =
                    (schema.arena.used - seen.length) * (schema.arena.used + 1) := by
                  rw [← Nat.succ_mul]
                  congr 1
                  omega
                have fewer : (next ++ pending).length +
                    (schema.arena.used - (id :: seen).length) * (schema.arena.used + 1) ≤ steps := by
                  rw [List.length_append, List.length_cons]
                  omega
                obtain ⟨rounds, result, few, traverses⟩ := ih moreDistinct moreReadable fewer
                exact ⟨_, _, Nat.succ_le_succ few, .enter isSeen known traverses⟩

/-- What is listed from a root is what the stack comes to, whatever the bytes of the arena are. -/
theorem exists_traverses_root (schema : Schema) (root : TypeId) : exists rounds,
    rounds ≤ schema.visitBound ∧ schema.Traverses rounds [] [root] (schema.reachable root) := by
  have fits : [root].length +
      (schema.arena.used - ([] : List TypeId).length) * (schema.arena.used + 1) ≤
      schema.visitBound := by
    have expands : (schema.arena.used + 1) * (schema.arena.used + 2) =
        schema.arena.used * (schema.arena.used + 1) + 2 * (schema.arena.used + 1) := by
      rw [← Nat.add_mul, Nat.mul_comm]
    rw [visitBound, expands, List.length_singleton, List.length_nil, Nat.sub_zero]
    omega
  obtain ⟨rounds, result, few, traverses⟩ := exists_traverses List.nodup_nil nofun fits
  have same : schema.reachable root = result := traverses.visit_eq few
  exact ⟨rounds, few, same ▸ traverses⟩

/-! ### What is listed -/

/-- What the types of a list refer to is among some types. -/
def Covers (schema : Schema) (ids all : List TypeId) : Prop :=
  forall id, id ∈ ids -> exists successors, schema.successors id = .ok successors ∧
    forall successor, successor ∈ successors -> successor ∈ all

/-- Some types may be among others. -/
theorem Covers.mono {ids all others : List TypeId} (covers : schema.Covers ids all)
    (included : forall id, id ∈ all -> id ∈ others) : schema.Covers ids others := by
  intro id member
  obtain ⟨successors, known, among⟩ := covers id member
  exact ⟨successors, known, fun successor isOne => included successor (among successor isOne)⟩

variable {head root : TypeId} {next ids : List TypeId}

/-- A type that was seen adds nothing to what was seen or is pending. -/
theorem mem_append_of_seen (headSeen : head ∈ seen) (id : TypeId)
    (member : id ∈ seen ++ head :: pending) : id ∈ seen ++ pending := by
  rcases List.mem_append.mp member with inSeen | isPending
  · exact List.mem_append_left _ inSeen
  · cases List.mem_cons.mp isPending with
    | inl same => exact List.mem_append_left _ (same ▸ headSeen)
    | inr inRest => exact List.mem_append_right _ inRest

/-- What was seen or is pending stays so when a type is entered. -/
theorem mem_append_of_entered (id : TypeId) (member : id ∈ seen ++ head :: pending) :
    id ∈ (head :: seen) ++ (next ++ pending) := by
  simp only [List.mem_append, List.mem_cons] at member ⊢
  rcases member with inSeen | isHead | inRest
  · exact .inl (.inr inSeen)
  · exact .inl (.inl isHead)
  · exact .inr (.inr inRest)

/-- What a type refers to is pending when it is entered. -/
theorem Covers.enter (covers : schema.Covers seen (seen ++ head :: pending))
    (known : schema.successors head = .ok next) :
    schema.Covers (head :: seen) ((head :: seen) ++ (next ++ pending)) := by
  intro id member
  cases List.mem_cons.mp member with
  | inl same =>
      cases same
      exact ⟨next, known, fun successor isOne =>
        List.mem_append_right _ (List.mem_append_left _ isOne)⟩
  | inr inSeen => exact covers.mono mem_append_of_entered id inSeen

/-- The list has what was seen or was pending and what these types refer to, each once. -/
structure Lists (schema : Schema) (start ids : List TypeId) : Prop where
  distinct : ids.Nodup
  listed : forall id, id ∈ start -> id ∈ ids
  closed : schema.Covers ids ids

/-- When the stack is empty, all that was ever on it is listed, and all that this refers to. -/
theorem Traverses.lists (traverses : schema.Traverses rounds seen pending (.ok ids))
    (distinct : seen.Nodup) (covers : schema.Covers seen (seen ++ pending)) :
    schema.Lists (seen ++ pending) ids := by
  generalize isResult : (Except.ok ids : Except SchemaError (List TypeId)) = result at traverses
  induction traverses with
  | @done seen =>
      cases isResult
      rw [List.append_nil] at covers ⊢
      have reversed (id : TypeId) (member : id ∈ seen) : id ∈ seen.reverse :=
        List.mem_reverse.mpr member
      exact ⟨List.nodup_reverse.mpr distinct, reversed, fun id member =>
        covers.mono reversed id (List.mem_reverse.mp member)⟩
  | skip isSeen _ ih =>
      obtain ⟨once, listed, closed⟩ :=
        ih distinct (covers.mono (mem_append_of_seen isSeen)) isResult
      exact ⟨once, fun id member => listed id (mem_append_of_seen isSeen id member), closed⟩
  | fail => cases isResult
  | enter isNew known _ ih =>
      obtain ⟨once, listed, closed⟩ :=
        ih (List.nodup_cons.mpr ⟨isNew, distinct⟩) (covers.enter known) isResult
      exact ⟨once, fun id member => listed id (mem_append_of_entered id member), closed⟩

/-- At first only the root is pending. -/
theorem reaches_of_mem_root (id : TypeId) (member : id ∈ [] ++ [root]) : schema.Reaches root id :=
  List.mem_singleton.mp member ▸ .root

/-- What is listed can be reached, and so can the type that stops the stack. -/
theorem Traverses.reaches (traverses : schema.Traverses rounds seen pending result)
    (starts : forall id, id ∈ seen ++ pending -> schema.Reaches root id) :
    (forall ids, result = .ok ids -> forall id, id ∈ ids -> schema.Reaches root id) ∧
    (forall failure, result = .error failure ->
      exists id, schema.Reaches root id ∧ schema.successors id = .error failure) := by
  induction traverses with
  | done =>
      rw [List.append_nil] at starts
      refine ⟨fun ids same id member => ?_, nofun⟩
      cases same
      exact starts id (List.mem_reverse.mp member)
  | skip isSeen _ ih =>
      refine ih fun id member => starts id ?_
      exact ((List.sublist_cons_self _ _).append_left _).subset member
  | @fail seen pending id failure isNew fails =>
      refine ⟨nofun, fun cause same => ?_⟩
      cases same
      exact ⟨id, starts id (List.mem_append_right _ List.mem_cons_self), fails⟩
  | @enter rounds seen pending next id result isNew known _ ih =>
      have entered := starts id (List.mem_append_right _ List.mem_cons_self)
      refine ih fun other member => ?_
      simp only [List.mem_append, List.mem_cons] at member
      rcases member with (same | inSeen) | inNext | isPending
      · exact same ▸ entered
      · exact starts other (List.mem_append_left _ inSeen)
      · exact .next entered known inNext
      · exact starts other (List.mem_append_right _ (List.mem_cons_of_mem _ isPending))

/-- What is listed as reachable can be reached. -/
theorem reaches_of_reachable (listed : schema.reachable root = .ok ids) {id : TypeId}
    (member : id ∈ ids) : schema.Reaches root id := by
  obtain ⟨_, _, traverses⟩ := exists_traverses_root schema root
  exact (traverses.reaches reaches_of_mem_root).1 ids listed id member

/-- What can be reached by types that can be read is in the closure of the references. -/
theorem Reaches.reflTransGen {id : TypeId} (reaches : schema.Reaches root id) :
    Relation.ReflTransGen schema.Refers root id := by
  induction reaches with
  | root => exact .refl
  | next _ known member ih => exact ih.tail ((mem_successors_iff known).mp member)

/-- A list with a root that covers itself has all that the root refers to. -/
theorem Lists.mem_of_reflTransGen (lists : schema.Lists [root] ids) {id : TypeId}
    (closure : Relation.ReflTransGen schema.Refers root id) : id ∈ ids := by
  induction closure with
  | refl => exact lists.listed root (List.mem_singleton_self root)
  | tail _ refers ih =>
      obtain ⟨successors, known, among⟩ := lists.closed _ ih
      exact among _ ((mem_successors_iff known).mpr refers)

/-! ### The search by recursion -/

/-- Types are searched one after the other.  One that was not seen is listed before what is found
below it, in its fields in the order of declaration and then in its argument; after that come
the types beside it. -/
inductive Preorder (schema : Schema) : List TypeId -> List TypeId -> List TypeId -> Prop where
  | nil {seen : List TypeId} : Preorder schema seen [] []
  | skip {seen beside found : List TypeId} {id : TypeId} :
      id ∈ seen -> Preorder schema seen beside found -> Preorder schema seen (id :: beside) found
  | enter {seen beside below others : List TypeId} {id : TypeId} {type : TypeDef}
      {fields : List FieldDef} :
      id ∉ seen -> schema.type id = .ok type -> schema.fieldsInOrder type = .ok fields ->
      Preorder schema (seen ++ [id]) (fields.filterMap FieldDef.type ++ type.argument.toList)
        below ->
      Preorder schema (seen ++ id :: below) beside others ->
      Preorder schema seen (id :: beside) (id :: below ++ others)

/-- The stack first lists what is found from the types on top of it, and goes on with those
below. -/
theorem Traverses.exists_preorder {above : List TypeId}
    (traverses : schema.Traverses rounds seen (above ++ pending) (.ok ids)) :
    exists found fewer, fewer ≤ rounds ∧ schema.Preorder seen.reverse above found ∧
      schema.Traverses fewer (found.reverse ++ seen) pending (.ok ids) := by
  induction rounds using Nat.strongRecOn generalizing seen above pending with
  | _ rounds ih =>
      cases above with
      | nil => exact ⟨[], rounds, Nat.le_refl _, .nil, traverses⟩
      | cons id beside =>
          cases traverses with
          | @skip rounds _ _ _ _ isSeen traverses =>
              obtain ⟨found, fewer, few, preorder, rest⟩ := ih rounds (Nat.lt_succ_self _) traverses
              exact ⟨found, fewer, by omega, .skip (List.mem_reverse.mpr isSeen) preorder, rest⟩
          | @enter rounds _ _ _ _ _ isNew known traverses =>
              obtain ⟨type, fields, isType, inOrder, rfl⟩ := exists_of_successors known
              obtain ⟨below, fewer, few, inner, rest⟩ := ih rounds (Nat.lt_succ_self _) traverses
              obtain ⟨others, least, least_le, outer, last⟩ := ih fewer (by omega) rest
              rw [List.reverse_cons] at inner
              rw [List.reverse_append, List.reverse_reverse, List.reverse_cons, List.append_assoc]
                at outer
              refine ⟨id :: below ++ others, least, by omega,
                .enter (mt List.mem_reverse.mp isNew) isType inOrder inner outer, ?_⟩
              rw [List.reverse_append, List.reverse_cons]
              simpa only [List.append_assoc, List.singleton_append] using last

/-- The stack comes to what is found from the types on top of it, if it may then go on with those
below. -/
theorem Preorder.exists_traverses {order above found : List TypeId}
    (preorder : schema.Preorder order above found)
    (rest : schema.Traverses rounds (found.reverse ++ order.reverse) pending result) :
    exists more, schema.Traverses more order.reverse (above ++ pending) result := by
  induction preorder generalizing rounds pending with
  | nil => exact ⟨rounds, rest⟩
  | skip isSeen _ ih =>
      obtain ⟨more, traverses⟩ := ih rest
      exact ⟨_, .skip (List.mem_reverse.mpr isSeen) traverses⟩
  | @enter order beside below others id type fields isNew isType inOrder _ _ inner outer =>
      have known : schema.successors id =
          .ok (fields.filterMap FieldDef.type ++ type.argument.toList) := by
        simp only [successors, isType, inOrder, bind, Except.bind, pure, Except.pure]
      simp only [List.reverse_append, List.reverse_cons, List.append_assoc,
        List.singleton_append, List.reverse_nil, List.nil_append] at inner outer rest
      obtain ⟨_, afterwards⟩ := outer rest
      obtain ⟨_, entered⟩ := inner afterwards
      rw [← List.append_assoc] at entered
      exact ⟨_, .enter (mt List.mem_reverse.mp isNew) known entered⟩

/-- What is listed from a root is what a search by recursion finds there, and nothing else is. -/
theorem reachable_eq_ok_iff_preorder :
    schema.reachable root = .ok ids ↔ schema.Preorder [] [root] ids := by
  obtain ⟨rounds, few, traverses⟩ := exists_traverses_root schema root
  constructor
  · intro listed
    rw [listed] at traverses
    have alone : schema.Traverses rounds [] ([root] ++ []) (.ok ids) := traverses
    obtain ⟨found, _, _, preorder, rest⟩ := alone.exists_preorder
    generalize isResult : (Except.ok ids : Except SchemaError (List TypeId)) = result at rest
    cases rest
    cases isResult
    rw [List.append_nil, List.reverse_reverse]
    exact preorder
  · intro preorder
    have finished : schema.Traverses 0 (ids.reverse ++ ([] : List TypeId).reverse) [] (.ok ids) := by
      have done := @Traverses.done schema ids.reverse
      simpa only [List.reverse_nil, List.append_nil, List.reverse_reverse] using done
    obtain ⟨_, again⟩ := preorder.exists_traverses finished
    exact traverses.unique again

/-- Listing the types of an arena comes to an end, whatever its bytes are.  What is listed is what
can be reached, each type once, in the order of the search by recursion; if nothing is listed,
then something that can be reached cannot be decoded. -/
theorem reachable_is_preorder (schema : Schema) (root : TypeId) :
    (exists rounds, rounds ≤ schema.visitBound ∧
      schema.Traverses rounds [] [root] (schema.reachable root)) ∧
    (forall ids, schema.reachable root = .ok ids ↔ schema.Preorder [] [root] ids) ∧
    match schema.reachable root with
    | .ok ids => ids.Nodup ∧
        forall id, id ∈ ids ↔ Relation.ReflTransGen schema.Refers root id
    | .error _ => exists id, Relation.ReflTransGen schema.Refers root id ∧ schema.Unreadable id := by
  obtain ⟨rounds, few, traverses⟩ := exists_traverses_root schema root
  obtain ⟨sound, stops⟩ := traverses.reaches reaches_of_mem_root
  refine ⟨⟨rounds, few, traverses⟩, fun ids => reachable_eq_ok_iff_preorder, ?_⟩
  cases listed : schema.reachable root with
  | ok ids =>
      rw [listed] at traverses
      have lists := traverses.lists List.nodup_nil nofun
      exact ⟨lists.distinct, fun id =>
        ⟨fun member => (sound ids listed id member).reflTransGen, lists.mem_of_reflTransGen⟩⟩
  | error failure =>
      obtain ⟨id, reaches, fails⟩ := stops failure listed
      exact ⟨id, reaches.reflTransGen, unreadable_of_successors_error fails⟩

end Schema
end PackedJson
