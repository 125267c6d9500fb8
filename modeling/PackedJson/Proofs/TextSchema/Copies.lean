import PackedJson.Proofs.Schema.Traversal
import PackedJson.TextSchema.Companion

namespace PackedJson

/-!
Texts made from a copy of a schema.

The listing of a layout and the source of the declarations show the names of
types.  Where these names are shown alike, a copy of the schema gives the same
texts.
-/

/-- The types that can be reached from a root are shown under the same names. -/
def ShowsNames (copy schema : Schema) (root : TypeId) : Prop :=
  forall id type, schema.Reaches root id -> schema.type id = .ok type ->
    copy.name type = schema.name type

theorem showsNames_of_hasWholeNames {copy schema : Schema} {root : TypeId}
    (copies : copy.arena.IsCopy schema.arena) (whole : schema.HasWholeNames root) :
    ShowsNames copy schema root :=
  fun id type reached isType =>
    Schema.name_eq_of_not_straddles copies (whole id type reached isType)

namespace Listing

variable {copy schema : Schema} {root : TypeId}

theorem follows_listedTypes (copies : copy.arena.IsCopy schema.arena) (root : TypeId) :
    Follows (listedTypes copy root) (listedTypes schema root) := by
  unfold listedTypes
  refine (Schema.follows_reachable copies root).bind fun ids _ => Follows.bind ?_ ?_
  · exact .mapM fun id _ => (Schema.follows_type copies id).bind fun _ _ => .refl _
  · exact fun _ _ => .refl _

/-- A listed type can be reached, and is listed as it is stored. -/
theorem reaches_of_listed {types : List (TypeId × TypeDef)}
    (listed : listedTypes schema root = .ok types) {entry : TypeId × TypeDef}
    (member : entry ∈ types) :
    schema.Reaches root entry.1 ∧ schema.type entry.1 = .ok entry.2 := by
  unfold listedTypes at listed
  obtain ⟨ids, reachable, rest⟩ := exists_of_bind listed
  obtain ⟨entries, isRead, same⟩ := exists_of_bind rest
  cases same
  obtain ⟨id, isId, known⟩ := exists_of_mem_mapM isRead (List.mem_of_mem_filter member)
  obtain ⟨type, isType, same⟩ := exists_of_bind known
  cases same
  exact ⟨Schema.reaches_of_reachable reachable isId, isType⟩

variable (copies : copy.arena.IsCopy schema.arena) (shows : ShowsNames copy schema root)

include copies shows

theorem follows_fieldLine {owner : TypeId} {type : TypeDef} {fields : List FieldDef}
    {field : FieldDef} (reached : schema.Reaches root owner) (isType : schema.type owner = .ok type)
    (ordered : schema.fieldsInOrder type = .ok fields) (member : field ∈ fields) :
    Follows (fieldLine copy type field) (fieldLine schema type field) := by
  unfold fieldLine
  refine (Schema.follows_fieldType type field).bind fun id typed => ?_
  refine (Schema.follows_type copies id).bind fun inner isInner => ?_
  refine (Schema.follows_text copies _).bind fun name _ => ?_
  rw [shows id inner (reached.field isType ordered member typed) isInner]
  exact .refl _

theorem follows_typeLines {entry : TypeId × TypeDef} (reached : schema.Reaches root entry.1)
    (isType : schema.type entry.1 = .ok entry.2) :
    Follows (typeLines copy entry) (typeLines schema entry) := by
  unfold typeLines typeLine
  rw [shows entry.1 entry.2 reached isType]
  refine (Schema.follows_fieldsInOrder copies entry.2).bind fun fields ordered => Follows.bind ?_ ?_
  · exact .mapM fun field member =>
      follows_fieldLine copies shows reached isType ordered member
  · exact fun _ _ => .refl _

theorem follows_contextLines {context : Context} (isRoot : schema.root context = .ok root)
    (target : Target) :
    Follows (contextLines copy context target) (contextLines schema context target) := by
  have sameRoot : Follows (copy.root context) (schema.root context) := fun _ known => known
  unfold contextLines
  refine sameRoot.bind fun other isOther => ?_
  rw [isRoot] at isOther
  cases isOther
  refine (Schema.follows_type copies root).bind fun type isType => ?_
  refine (Schema.follows_text copies _).bind fun slice _ => ?_
  refine (follows_listedTypes copies root).bind fun types listed => Follows.bind ?_ ?_
  · refine .mapM fun entry member => ?_
    obtain ⟨reached, isEntry⟩ := reaches_of_listed listed member
    exact follows_typeLines copies shows reached isEntry
  · intro lines _
    rw [shows root type .root isType]
    exact .refl _

end Listing

namespace Companion

variable {copy schema : Schema} {root : TypeId} {context : Context}
  {idents : List (TypeId × String)}

section Expressions

variable (copies : copy.arena.IsCopy schema.arena)

theorem follows_builtinExpression (type : TypeDef) (builtin : Builtin) :
    Follows (builtinExpression ⟨copy, context, idents⟩ type builtin)
      (builtinExpression ⟨schema, context, idents⟩ type builtin) := by
  cases builtin
  all_goals first | exact .refl _ | exact .error _ _

theorem follows_containerName (type : TypeDef) :
    Follows (containerName ⟨copy, context, idents⟩ type)
      (containerName ⟨schema, context, idents⟩ type) := by
  unfold containerName
  simp only
  split
  · exact .refl _
  · split
    · exact .refl _
    · split
      · exact .refl _
      · exact .refl _
      · exact .error _ _

include copies

theorem follows_variableExpression
    {instanceCopy instanceOriginal : TypeId -> TypeDef -> Except SchemaError String}
    (instances : forall id type, Follows (instanceCopy id type) (instanceOriginal id type))
    (id : TypeId) :
    Follows (variableExpression ⟨copy, context, idents⟩ instanceCopy id)
      (variableExpression ⟨schema, context, idents⟩ instanceOriginal id) := by
  unfold variableExpression
  exact (Schema.follows_type copies id).bind fun type _ =>
    (instances id type).bind fun _ _ => .refl _

theorem follows_instanceWithin (levels : Nat) (id : TypeId) (type : TypeDef) :
    Follows (instanceWithin ⟨copy, context, idents⟩ levels id type)
      (instanceWithin ⟨schema, context, idents⟩ levels id type) := by
  induction levels generalizing id type with
  | zero => exact .error _ _
  | succ levels ih =>
      unfold instanceWithin
      simp only
      split
      · exact follows_builtinExpression type _
      · split
        · exact .refl _
        · refine (follows_containerName type).bind fun generic _ => ?_
          split
          · exact .error _ _
          next argument known =>
            exact (follows_variableExpression copies ih argument).bind fun _ _ => .refl _

theorem follows_instanceExpression (id : TypeId) (type : TypeDef) :
    Follows (instanceExpression ⟨copy, context, idents⟩ id type)
      (instanceExpression ⟨schema, context, idents⟩ id type) := by
  unfold instanceExpression
  simp only [copies.used]
  exact follows_instanceWithin copies _ id type

theorem follows_fieldExpression (owner : TypeDef) (field : FieldDef) :
    Follows (fieldExpression ⟨copy, context, idents⟩ owner field)
      (fieldExpression ⟨schema, context, idents⟩ owner field) := by
  unfold fieldExpression
  exact (Schema.follows_fieldType owner field).bind fun id _ =>
    follows_variableExpression copies (follows_instanceExpression copies) id

theorem follows_structLine (owner : TypeDef) (field : FieldDef) :
    Follows (structLine ⟨copy, context, idents⟩ owner field)
      (structLine ⟨schema, context, idents⟩ owner field) := by
  unfold structLine
  exact (follows_fieldExpression copies owner field).bind fun _ _ =>
    (Schema.follows_text copies _).bind fun _ _ => .refl _

theorem follows_enumLine (owner : TypeDef) (field : FieldDef) :
    Follows (enumLine ⟨copy, context, idents⟩ owner field)
      (enumLine ⟨schema, context, idents⟩ owner field) := by
  unfold enumLine
  exact (follows_fieldExpression copies owner field).bind fun _ _ =>
    (Schema.follows_text copies _).bind fun _ _ => .refl _

theorem follows_declaration (type : TypeDef) (ident : String) :
    Follows (declaration ⟨copy, context, idents⟩ type ident)
      (declaration ⟨schema, context, idents⟩ type ident) := by
  unfold declaration
  refine (Schema.follows_fieldsInOrder copies type).bind fun fields _ => ?_
  split
  · exact .refl _
  · split
    · exact (Follows.mapM fun field _ => follows_enumLine copies type field).bind
        fun _ _ => .refl _
    · exact (Follows.mapM fun field _ => follows_structLine copies type field).bind
        fun _ _ => .refl _

theorem follows_declarations (types : List (TypeId × TypeDef)) :
    Follows (declarations ⟨copy, context, idents⟩ types)
      (declarations ⟨schema, context, idents⟩ types) := by
  induction types with
  | nil => exact .refl _
  | cons entry rest ih =>
      unfold declarations
      simp only
      split
      · exact ih
      · exact (follows_declaration copies entry.2 _).bind fun _ _ => ih.bind fun _ _ => .refl _

end Expressions

/-! ### Identifiers and assertions -/

theorem assign_congr {types : List (TypeId × TypeDef)} (taken : List String)
    (alike : forall entry, entry ∈ types -> copy.name entry.2 = schema.name entry.2) :
    assign copy context types taken = assign schema context types taken := by
  induction types generalizing taken with
  | nil => rfl
  | cons entry rest ih =>
      have restAlike (other : TypeId × TypeDef) (member : other ∈ rest) :=
        alike other (List.mem_cons_of_mem _ member)
      unfold assign
      simp only [alike entry List.mem_cons_self, ih _ restAlike]

/-- Only types that are listed get an identifier. -/
theorem listed_of_assign {types : List (TypeId × TypeDef)} {taken : List String} {id : TypeId}
    {ident : String} (member : (id, ident) ∈ assign schema context types taken) :
    exists type, (id, type) ∈ types := by
  induction types generalizing taken with
  | nil => cases member
  | cons entry rest ih =>
      obtain ⟨headId, headType⟩ := entry
      unfold assign at member
      split at member
      · cases List.mem_cons.mp member with
        | inl same =>
            cases same
            exact ⟨headType, List.mem_cons_self⟩
        | inr inRest =>
            obtain ⟨type, listed⟩ := ih inRest
            exact ⟨type, List.mem_cons_of_mem _ listed⟩
      · obtain ⟨type, listed⟩ := ih member
        exact ⟨type, List.mem_cons_of_mem _ listed⟩

theorem follows_identsByName (copies : copy.arena.IsCopy schema.arena)
    (alike : forall id ident type, (id, ident) ∈ idents -> schema.type id = .ok type ->
      copy.name type = schema.name type) :
    Follows (identsByName ⟨copy, context, idents⟩) (identsByName ⟨schema, context, idents⟩) := by
  unfold identsByName
  refine .mapM fun entry member => ?_
  refine (Schema.follows_type copies entry.1).bind fun type isType => ?_
  rw [alike entry.1 entry.2 type member isType]
  exact .refl _

theorem follows_checksOf (copies : copy.arena.IsCopy schema.arena)
    (byName : List (String × String)) {types : List (TypeId × TypeDef)}
    (alike : forall entry, entry ∈ types -> copy.name entry.2 = schema.name entry.2) :
    Follows (checksOf copy byName types) (checksOf schema byName types) := by
  induction types with
  | nil => exact .refl _
  | cons entry rest ih =>
      have restFollows := ih fun other member => alike other (List.mem_cons_of_mem _ member)
      unfold checksOf
      rw [alike entry List.mem_cons_self]
      split
      · exact restFollows
      · exact (Schema.follows_instanceAlign copies entry.2).bind fun _ _ =>
          restFollows.bind fun _ _ => .refl _

/-- The identifiers belong to types of the same schema that are reached. -/
def AreReached (schema : Schema) (root : TypeId) (idents : List (TypeId × String)) : Prop :=
  forall id ident, (id, ident) ∈ idents -> schema.Reaches root id

theorem follows_checks {namesRoot : TypeId} {other : Context}
    (copies : copy.arena.IsCopy schema.arena)
    (reached : AreReached schema namesRoot idents) (namesShown : ShowsNames copy schema namesRoot)
    (isRoot : schema.root other = .ok root) (shows : ShowsNames copy schema root) :
    Follows (checks ⟨copy, context, idents⟩ other) (checks ⟨schema, context, idents⟩ other) := by
  have sameRoot : Follows (copy.root other) (schema.root other) := fun _ known => known
  unfold checks
  refine (follows_identsByName copies fun id ident type member isType =>
    namesShown id type (reached id ident member) isType).bind fun byName _ => ?_
  refine sameRoot.bind fun found isFound => ?_
  rw [isRoot] at isFound
  cases isFound
  refine (Schema.follows_type copies root).bind fun type _ => ?_
  refine (Schema.follows_instanceAlign copies type).bind fun align _ => ?_
  refine (Listing.follows_listedTypes copies root).bind fun types listed => ?_
  refine (follows_checksOf copies _ fun entry member => ?_).bind fun _ _ => .refl _
  obtain ⟨entryReached, isEntry⟩ := Listing.reaches_of_listed listed member
  exact shows entry.1 entry.2 entryReached isEntry

theorem follows_assertions {namesRoot : TypeId} {other : Context}
    (copies : copy.arena.IsCopy schema.arena)
    (reached : AreReached schema namesRoot idents) (namesShown : ShowsNames copy schema namesRoot)
    (isRoot : schema.root other = .ok root) (shows : ShowsNames copy schema root)
    (target : Target) :
    Follows (assertions ⟨copy, context, idents⟩ other target)
      (assertions ⟨schema, context, idents⟩ other target) := by
  unfold assertions
  exact (follows_checks copies reached namesShown isRoot shows).bind fun _ _ => .refl _

/-- The identifiers of a root are those of the copy, and belong to types that
are reached. -/
theorem namesFor_copy (copies : copy.arena.IsCopy schema.arena)
    (shows : ShowsNames copy schema root) {names : Names}
    (named : namesFor schema context root = .ok names) :
    exists idents, names = ⟨schema, context, idents⟩ ∧ AreReached schema root idents ∧
      namesFor copy context root = .ok ⟨copy, context, idents⟩ := by
  unfold namesFor at named ⊢
  obtain ⟨types, listed, same⟩ := exists_of_bind named
  cases same
  have alike (entry : TypeId × TypeDef) (member : entry ∈ types) :
      copy.name entry.2 = schema.name entry.2 := by
    obtain ⟨reached, isType⟩ := Listing.reaches_of_listed listed member
    exact shows entry.1 entry.2 reached isType
  refine ⟨_, rfl, fun id ident member => ?_, ?_⟩
  · obtain ⟨type, inTypes⟩ := listed_of_assign member
    exact (Listing.reaches_of_listed listed inTypes).1
  · rw [Listing.follows_listedTypes copies root types listed, ← assign_congr _ alike]
    rfl

end Companion
end PackedJson
