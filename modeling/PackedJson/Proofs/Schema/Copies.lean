import PackedJson.Proofs.Arena.Memory
import PackedJson.Proofs.Schema.Soundness

namespace PackedJson

/-!
Schemas in a copy of their arena.

The bytes of an arena with several buffers may be copied into one piece.  A
region that can be read in the arena has the same bytes in the copy.  The
copy can be read in more places: where a region runs from one buffer into the
next one, the arena refuses to read, and the copy does not.  So whatever a
schema answers is answered by its copy as well.  Only the name of a type,
which is shown as a question mark when it cannot be read, may differ, and it
does not where no name runs across the end of a buffer.
-/

/-- Whatever one computation results in, another one results in as well. -/
def Follows {Failure Result : Type} (copy original : Except Failure Result) : Prop :=
  forall result, original = .ok result -> copy = .ok result

namespace Follows

variable {Failure Result Next Item : Type} {copy original : Except Failure Result}

theorem refl (computation : Except Failure Result) : Follows computation computation :=
  fun _ => id

theorem error (copy : Except Failure Result) (failure : Failure) :
    Follows copy (.error failure) :=
  nofun

theorem bind {nextCopy next : Result -> Except Failure Next} (first : Follows copy original)
    (second : forall result, original = .ok result -> Follows (nextCopy result) (next result)) :
    Follows (copy >>= nextCopy) (original >>= next) := by
  intro result ends
  cases known : original with
  | error failure =>
      rw [known] at ends
      cases ends
  | ok middle =>
      rw [known] at ends
      rw [first middle known]
      exact second middle known result ends

theorem mapM {readCopy read : Item -> Except Failure Result} {items : List Item}
    (each : forall item, item ∈ items -> Follows (readCopy item) (read item)) :
    Follows (items.mapM readCopy) (items.mapM read) := by
  induction items with
  | nil => exact .refl _
  | cons item rest ih =>
      rw [List.mapM_cons, List.mapM_cons]
      refine (each item List.mem_cons_self).bind fun result _ => ?_
      refine (ih fun other member => each other (List.mem_cons_of_mem _ member)).bind ?_
      exact fun results _ => .refl _

end Follows

section Successes

variable {Failure Item Result Next : Type}

/-- Where a computation succeeds, its first step does, and then the rest. -/
theorem exists_of_bind {first : Except Failure Result} {next : Result -> Except Failure Next}
    {result : Next} (ends : (first >>= next) = .ok result) :
    exists middle, first = .ok middle ∧ next middle = .ok result := by
  cases known : first with
  | error failure =>
      rw [known] at ends
      cases ends
  | ok middle =>
      rw [known] at ends
      exact ⟨middle, rfl, ends⟩

/-- The items that were read, and what each of them was read as. -/
theorem exists_of_mem_mapM {read : Item -> Except Failure Result}
    {items : List Item} {results : List Result} (isRead : items.mapM read = .ok results)
    {result : Result} (member : result ∈ results) :
    exists item, item ∈ items ∧ read item = .ok result := by
  induction items generalizing results with
  | nil =>
      rw [List.mapM_nil] at isRead
      cases isRead
      cases member
  | cons item rest ih =>
      rw [List.mapM_cons] at isRead
      obtain ⟨head, first, restRead⟩ := exists_of_bind isRead
      obtain ⟨tail, others, same⟩ := exists_of_bind restRead
      cases same
      cases List.mem_cons.mp member with
      | inl same => exact ⟨item, List.mem_cons_self, same ▸ first⟩
      | inr inTail =>
          obtain ⟨other, isMember, isOther⟩ := ih others inTail
          exact ⟨other, List.mem_cons_of_mem _ isMember, isOther⟩

end Successes

namespace Arena

/-- A copy has the bytes of an arena in all its regions, and none beyond. -/
structure IsCopy (copy arena : Arena) : Prop where
  used : copy.used = arena.used
  get? : forall offset length bytes, arena.get? offset length = some bytes ->
    copy.get? offset length = some bytes
  inUse : forall offset length, copy.isReadable offset length = true ->
    offset.isNull = false ∧ offset.toNat + length ≤ arena.used

/-- A region lies in the used part but runs across the end of a buffer. -/
def Straddles (arena : Arena) (offset : Offset) (length : Nat) : Prop :=
  offset.isNull = false ∧ offset.toNat + length ≤ arena.used ∧
    arena.isReadable offset length = false

/-- The bytes of an owned arena in one piece are a copy of it. -/
theorem isCopy_contents {arena : Arena} (isOwned : arena.isOwned = true)
    (writable : arena.Writable) : IsCopy (readOnly arena.contents) arena := by
  obtain ⟨storage, bytes, used⟩ := arena
  cases storage with
  | owned capacity buffers growable =>
      obtain ⟨_, _, _, _, _, _, size⟩ := writable
      simp only at size
      refine ⟨size, fun offset length region found => ?_, fun offset length readable => ?_⟩
      · unfold get? at found ⊢
        split at found
        next readable =>
          have parts := Bool.and_eq_true_iff.mp (Bool.and_eq_true_iff.mp readable).1
          have inUse := of_decide_eq_true parts.2
          have inCopy : (readOnly bytes).isReadable offset length = true := by
            unfold isReadable readOnly
            simp only at inUse ⊢
            rw [parts.1, decide_eq_true (by omega)]
            rfl
          cases found
          exact if_pos inCopy
        next => cases found
      · have parts := Bool.and_eq_true_iff.mp (Bool.and_eq_true_iff.mp readable).1
        have inUse := of_decide_eq_true parts.2
        refine ⟨by simpa only [Bool.not_eq_true'] using parts.1, ?_⟩
        simp only [readOnly, contents, size] at inUse
        exact inUse
  | _ => cases isOwned

end Arena

namespace Schema

variable {copy schema : Schema} (copies : copy.arena.IsCopy schema.arena)

include copies

theorem follows_read (Value : Type) [Record Value] (place : Offset) :
    Follows (Record.read Value copy.arena place) (Record.read Value schema.arena place) := by
  intro value isRead
  unfold Record.read at isRead ⊢
  cases found : schema.arena.get? place (Record.size Value) with
  | none =>
      rw [found] at isRead
      cases isRead
  | some bytes =>
      rw [found] at isRead
      rw [copies.get? _ _ _ found]
      exact isRead

theorem follows_type (id : TypeId) : Follows (copy.type id) (schema.type id) := by
  unfold type
  split
  · exact .error _ _
  · exact follows_read copies TypeDef id.offset

theorem follows_text (stored : TextRef) : Follows (copy.text stored) (schema.text stored) := by
  intro text isRead
  unfold Schema.text at isRead ⊢
  split at isRead
  next empty => rwa [if_pos empty]
  next present =>
    rw [if_neg present]
    unfold Arena.slice at isRead ⊢
    cases found : schema.arena.get? stored.offset stored.length.toNat with
    | none =>
        rw [found] at isRead
        cases isRead
    | some bytes =>
        rw [found] at isRead
        rw [copies.get? _ _ _ found]
        exact isRead

theorem follows_field (type : TypeDef) (index : Nat) :
    Follows (copy.field type index) (schema.field type index) := by
  unfold field
  split
  · exact .error _ _
  · split
    · exact follows_read copies FieldDef _
    · exact .error _ _

theorem follows_lastFields (type : TypeDef) (count : Nat) :
    Follows (copy.lastFields type count) (schema.lastFields type count) := by
  induction count with
  | zero => exact .refl _
  | succ count ih =>
      unfold lastFields
      exact (follows_field copies type _).bind fun field _ => ih.bind fun rest _ => .refl _

theorem follows_fields (type : TypeDef) : Follows (copy.fields type) (schema.fields type) :=
  follows_lastFields copies type _

theorem follows_fieldsInOrder (type : TypeDef) :
    Follows (copy.fieldsInOrder type) (schema.fieldsInOrder type) :=
  (follows_fields copies type).bind fun _ _ => .refl _

omit copies in
theorem follows_fieldType (owner : TypeDef) (field : FieldDef) :
    Follows (copy.fieldType owner field) (schema.fieldType owner field) := by
  unfold fieldType
  split
  · exact .refl _
  · exact .error _ _

theorem follows_findNamed (name : String) (fields : List FieldDef) :
    Follows (copy.findNamed name fields) (schema.findNamed name fields) := by
  induction fields with
  | nil => exact .refl _
  | cons field rest ih =>
      unfold findNamed
      refine (follows_text copies _).bind fun found _ => ?_
      split
      · exact .refl _
      · exact ih

theorem follows_findField (type : TypeDef) (name : String) :
    Follows (copy.findField type name) (schema.findField type name) := by
  unfold findField
  refine (follows_fields copies type).bind fun fields _ => ?_
  split
  · exact follows_findNamed copies _ _
  · exact follows_findNamed copies _ _

theorem follows_greatestAlign (owner : TypeDef) (fields : List FieldDef) (least : UInt32) :
    Follows (copy.greatestAlign owner fields least) (schema.greatestAlign owner fields least) := by
  induction fields generalizing least with
  | nil => exact .refl _
  | cons field rest ih =>
      unfold greatestAlign
      exact (follows_fieldType owner field).bind fun id _ =>
        (follows_type copies id).bind fun type _ => ih _

theorem follows_instanceAlign (type : TypeDef) :
    Follows (copy.instanceAlign type) (schema.instanceAlign type) := by
  unfold instanceAlign
  split
  · exact (follows_fields copies type).bind fun fields _ => follows_greatestAlign copies _ _ _
  · exact .refl _

theorem follows_successors (id : TypeId) :
    Follows (copy.successors id) (schema.successors id) := by
  unfold successors
  exact (follows_type copies id).bind fun type _ =>
    (follows_fieldsInOrder copies type).bind fun _ _ => .refl _

theorem follows_visit (steps : Nat) (seen pending : List TypeId) :
    Follows (copy.visit steps seen pending) (schema.visit steps seen pending) := by
  induction steps generalizing seen pending with
  | zero => cases pending <;> exact .refl _
  | succ steps ih =>
      cases pending with
      | nil => exact .refl _
      | cons id pending =>
          unfold visit
          split
          · exact ih _ _
          · exact (follows_successors copies id).bind fun next _ => ih _ _

theorem follows_reachable (root : TypeId) :
    Follows (copy.reachable root) (schema.reachable root) := by
  unfold reachable visitBound
  rw [copies.used]
  exact follows_visit copies _ _ _

/-- What the cells of a heap say is answered by a copy as well. -/
theorem toldBy_copy {heap : Heap} (told : heap.ToldBy schema) : heap.ToldBy copy where
  ne_null := told.ne_null
  type stored := follows_type copies _ _ (told.type stored)
  fields stored := follows_fields copies _ _ (told.fields stored)
  text stored := follows_text copies _ _ (told.text stored)

/-- A name that does not run across the end of a buffer is shown alike. -/
theorem name_eq_of_not_straddles {type : TypeDef}
    (whole : ¬ schema.arena.Straddles type.name.offset type.name.length.toNat) :
    copy.name type = schema.name type := by
  cases isText : schema.text type.name with
  | ok text =>
      unfold name
      rw [isText, follows_text copies _ text isText]
  | error cause =>
      unfold name
      rw [isText]
      unfold text at isText ⊢
      split at isText
      next => cases isText
      next present =>
        rw [if_neg present]
        unfold Arena.slice at isText ⊢
        cases found : schema.arena.get? type.name.offset type.name.length.toNat with
        | some bytes =>
            rw [found] at isText
            rw [copies.get? _ _ _ found, isText]
        | none =>
            have unreadable : copy.arena.get? type.name.offset type.name.length.toNat = none := by
              unfold Arena.get? at found ⊢
              refine if_neg fun readable => whole ?_
              obtain ⟨notNull, inUse⟩ := copies.inUse _ _ readable
              refine ⟨notNull, inUse, Bool.eq_false_iff.mpr fun isReadable => ?_⟩
              rw [if_pos isReadable] at found
              cases found
            rw [unreadable]

end Schema

/-! ### What can be reached -/

namespace Schema

variable {schema : Schema} {root : TypeId}

/-- The type of a field of a type that can be reached can be reached. -/
theorem Reaches.field {owner id : TypeId} {type : TypeDef} {fields : List FieldDef}
    {field : FieldDef} (reached : schema.Reaches root owner) (isType : schema.type owner = .ok type)
    (ordered : schema.fieldsInOrder type = .ok fields) (member : field ∈ fields)
    (typed : schema.fieldType type field = .ok id) : schema.Reaches root id := by
  have known : schema.successors owner =
      .ok (fields.filterMap FieldDef.type ++ type.argument.toList) := by
    simp only [successors, isType, ordered, bind, Except.bind, pure, Except.pure]
  refine reached.next known (List.mem_append_left _ (List.mem_filterMap.mpr ⟨field, member, ?_⟩))
  unfold fieldType at typed
  split at typed
  next id known => rw [known, Except.ok.inj typed]
  next => cases typed

/-- The names of the types that can be reached lie in one buffer each. -/
def HasWholeNames (schema : Schema) (root : TypeId) : Prop :=
  forall id type, schema.Reaches root id -> schema.type id = .ok type ->
    ¬ schema.arena.Straddles type.name.offset type.name.length.toNat

end Schema
end PackedJson
