import Mathlib.Data.List.Find
import PackedJson.Proofs.Schema.Constructions
import PackedJson.Proofs.Schema.Settling

namespace PackedJson

open Heap

/-!
Builders in use.

A session follows a builder through requests in any order, some of which may
be refused.  Besides the builder it keeps the types and the fields handed out
so far, the members that each struct was given, and the types that are laid
out.  They follow from the requests and the answers, not from the records in
the arena.
-/

namespace Context

/-- The types that a context refers to. -/
def types (context : Context) : List TypeId :=
  context.root.toList ++ Builtin.all.map context.builtin

theorem mem_types (context : Context) (builtin : Builtin) :
    context.builtin builtin ∈ context.types :=
  List.mem_append_right _ (List.mem_map_of_mem (by cases builtin <;> decide))

end Context

namespace Builder

/-- A request to a builder.  Members of a struct are fields under their names
in documents. -/
inductive Request where
  | storeText (text : String)
  | newContext (target : Target)
  | newType (name : String) (shape : Shape)
  | newStruct (context : Context) (name : String)
  | newVariant (context : Context) (name : String)
  | field (name : String) (type : Option TypeId) (order : Nat)
  | tagField (context : Context)
  | instantiate (generic argument : TypeId)
  | wrapFieldType (context : Context) (type : TypeId) (flags : FieldFlags)
  | setStoredByReference (id : TypeId) (present : Bool)
  | setFields (id : TypeId) (members : List (String × FieldDef))
  | arrange (target : Target) (id : TypeId)
  | arrangeDeep (target : Target) (id : TypeId)
  | arrangeContext (context : Context) (target : Target)

/-- What a request hands out. -/
structure Handed where
  types : List TypeId
  fields : List (String × FieldDef)

namespace Handed

def nothing : Handed := ⟨[], []⟩

def type (id : TypeId) : Handed := ⟨[id], []⟩

def field (name : String) (field : FieldDef) : Handed := ⟨[], [(name, field)]⟩

end Handed

namespace Request

/-- Serve a request. -/
def serve : Request -> BuildM Handed
  | storeText text => do
      let _ ← Builder.storeText text
      return Handed.nothing
  | newContext target => do
      let context ← Builder.newContext target
      return ⟨Builtin.all.map context.builtin, []⟩
  | newType name shape => do return Handed.type (← Builder.newType name shape)
  | newStruct context name => do return Handed.type (← Builder.newStruct context name)
  | newVariant context name => do return Handed.type (← Builder.newVariant context name)
  | field name type order => do return Handed.field name (← Builder.field name type order)
  | tagField context => do return Handed.field "tag" (← Builder.tagField context)
  | instantiate generic argument => do
      return Handed.type (← Builder.instantiate generic argument)
  | wrapFieldType context type flags => do
      return Handed.type (← Builder.wrapFieldType context type flags)
  | setStoredByReference id present => do
      let _ ← updateType id fun type =>
        { type with flags := type.flags.set TypeFlags.storedByReference present }
      return Handed.nothing
  | setFields id members => do
      let _ ← Builder.setFields id (members.map Prod.snd)
      return Handed.nothing
  | arrange target id => do
      let _ ← Layout.arrange target id
      return Handed.nothing
  | arrangeDeep target id => do
      let _ ← Layout.arrangeDeep target id
      return Handed.nothing
  | arrangeContext context target => do
      Layout.arrangeContext context target
      return Handed.nothing

/-- The types that a request refers to. -/
def types : Request -> List TypeId
  | storeText _ => []
  | newContext _ => []
  | newType _ _ => []
  | newStruct context _ => context.types
  | newVariant context _ => context.types
  | field _ type _ => type.toList
  | tagField context => context.types
  | instantiate generic argument => [generic, argument]
  | wrapFieldType context type _ => type :: context.types
  | setStoredByReference id _ => [id]
  | setFields id members => id :: members.filterMap fun member => member.2.type
  | arrange _ id => [id]
  | arrangeDeep _ id => [id]
  | arrangeContext context _ => context.types

/-- The members that a request refers to. -/
def members : Request -> List (String × FieldDef)
  | setFields _ members => members
  | _ => []

/-- The members of structs after a request.  A new struct has none. -/
def declare (request : Request) (handed : Handed)
    (declared : TypeId -> Option (List (String × FieldDef))) (id : TypeId) :
    Option (List (String × FieldDef)) :=
  match request with
  | newType _ .struct => if id ∈ handed.types then some [] else declared id
  | newStruct _ _ => if id ∈ handed.types then some [] else declared id
  | setFields owner members => if id = owner then (declared id).map fun _ => members else declared id
  | _ => declared id

/-- The types that a request lays out. -/
def laysOut (request : Request) (builder : Builder) : List TypeId :=
  match request with
  | arrange target id => Layout.doneAfter (Layout.arrangeType target id) builder
  | arrangeDeep target id => Layout.doneAfter (Layout.arrangeReachable target id) builder
  | arrangeContext context target => Layout.doneAfter (Layout.arrangeAll context target) builder
  | _ => []

/-- Whether a request gives a type other fields. -/
def gives (request : Request) (id : TypeId) : Bool :=
  match request with
  | setFields owner _ => id == owner
  | _ => false

end Request

/-- A builder in use. -/
structure Session where
  builder : Builder
  types : List TypeId
  fields : List (String × FieldDef)
  /-- The members of each struct that was handed out. -/
  declared : TypeId -> Option (List (String × FieldDef))
  /-- Types that are laid out, and have not been given other fields since. -/
  laidOut : List TypeId

namespace Session

/-- A request refers to types that were handed out, and to fields that were
made for the names they are given under. -/
def Allows (session : Session) (request : Request) : Prop :=
  (forall id, id ∈ request.types -> id ∈ session.types) ∧
  forall member, member ∈ request.members -> exists made, made ∈ session.fields ∧
    made.1 = member.1 ∧ made.2.jsonName = member.2.jsonName ∧ made.2.hash = member.2.hash

instance (session : Session) (request : Request) : Decidable (session.Allows request) :=
  inferInstanceAs (Decidable (_ ∧ _))

/-- The session after a request was served. -/
def enter (session : Session) (request : Request) (handed : Handed) (builder : Builder) :
    Session where
  builder := builder
  types := handed.types ++ session.types
  fields := handed.fields ++ session.fields
  declared := request.declare handed session.declared
  laidOut := request.laysOut session.builder ++ session.laidOut.filter fun id => !request.gives id

/-- The session after a request failed. -/
def fail (session : Session) (request : Request) (builder : Builder) : Session :=
  { session with
    builder := builder
    laidOut := request.laysOut session.builder ++ session.laidOut }

/-- The session after a request.  Requests that refer to anything else are left
out. -/
def next (session : Session) (request : Request) : Session :=
  if session.Allows request then
    match request.serve session.builder with
    | .ok handed builder => session.enter request handed builder
    | .error _ builder => session.fail request builder
  else session

/-- The session after some requests. -/
def run (session : Session) (requests : List Request) : Session := requests.foldl next session

/-- A builder over any owned arena, for which nothing was done yet. -/
inductive IsFresh : Session -> Prop where
  | ofArena {arena : Arena} : arena.isOwned = true -> arena.Writable ->
      IsFresh ⟨Builder.ofArena arena, [], [], fun _ => none, []⟩

/-! ### What holds throughout a session -/

/-- A field has the name it was made for. -/
def IsNamed (heap : Heap) (member : String × FieldDef) : Prop :=
  HasText heap member.2.jsonName member.1 ∧ member.2.hash = Checksum.nameHash member.1

/-- A struct has the members it was given, in the order of their declaration
within each hash. -/
def HasMembers (heap : Heap) (id : TypeId) (members : List (String × FieldDef)) : Prop :=
  exists type fields, HasType heap id type ∧ HasFields heap id type fields ∧
    type.shape = .struct ∧ type.isBuiltin = false ∧ type.isGeneric = false ∧
    SameRuns (members.map Prod.snd) fields ∧
    forall member, member ∈ members -> IsNamed heap member

/-- A heap is what the builder of a session stores. -/
structure Tracks (heap : Heap) (session : Session) : Prop where
  stands : Stands heap session.builder
  types : forall id, id ∈ session.types -> IsStored heap id
  fields : forall made, made ∈ session.fields -> IsNamed heap made
  declared : forall id members, session.declared id = some members -> HasMembers heap id members
  laidOut : forall id, id ∈ session.laidOut -> Layout.Settled heap id

variable {heap later : Heap} {session : Session} {request : Request} {builder : Builder}
  {changed : TypeId -> Prop} {id : TypeId} {members : List (String × FieldDef)}

theorem IsNamed.keeps {member : String × FieldDef} (named : IsNamed heap member)
    (keeps : Keeps heap later) : IsNamed later member :=
  ⟨keeps.text _ _ named.1, named.2⟩

theorem HasMembers.upholds (has : HasMembers heap id members) (upholds : Upholds changed heap later)
    (unchanged : ¬ changed id) : HasMembers later id members := by
  obtain ⟨type, fields, stored, hasFields, isStruct, own, plain, runs, named⟩ := has
  obtain ⟨laterType, laterFields, laterStored, laterHas, refiles⟩ :=
    upholds.structs id unchanged ⟨type, stored, isStruct⟩ type fields stored hasFields
  exact ⟨laterType, laterFields, laterStored, laterHas, refiles.shape.trans isStruct,
    refiles.builtin.trans own, refiles.generic.trans plain, runs.trans refiles.runs,
    fun member inMembers => (named member inMembers).keeps upholds.toKeeps⟩

theorem HasMembers.isStored (has : HasMembers heap id members) : IsStored heap id := by
  obtain ⟨type, _, stored, _⟩ := has
  exact ⟨type, stored⟩

/-- A request was served.  It may have changed structs that it gives other
fields. -/
theorem Tracks.enter (tracks : Tracks heap session) {handed : Handed} (stands : Stands later builder)
    (upholds : Upholds changed heap later)
    (types : forall id, id ∈ handed.types -> IsStored later id)
    (fields : forall made, made ∈ handed.fields -> IsNamed later made)
    (declared : forall id members, request.declare handed session.declared id = some members ->
      session.declared id = some members ∧ ¬ changed id ∨ HasMembers later id members)
    (laidOut : forall id, id ∈ session.laidOut -> request.gives id = false -> ¬ changed id)
    (laysOut : forall id, id ∈ request.laysOut session.builder -> Layout.Settled later id) :
    Tracks later (session.enter request handed builder) := by
  refine ⟨stands, fun id member => ?_, fun made member => ?_, fun id members isDeclared => ?_,
    fun id member => ?_⟩
  · cases List.mem_append.mp member with
    | inl isNew => exact types id isNew
    | inr earlier => exact upholds.isStored (tracks.types id earlier)
  · cases List.mem_append.mp member with
    | inl isNew => exact fields made isNew
    | inr earlier => exact (tracks.fields made earlier).keeps upholds.toKeeps
  · rcases declared id members isDeclared with ⟨earlier, unchanged⟩ | isNew
    · exact (tracks.declared id members earlier).upholds upholds unchanged
    · exact isNew
  · cases List.mem_append.mp member with
    | inl isNew => exact laysOut id isNew
    | inr earlier =>
        obtain ⟨isLaidOut, others⟩ := List.mem_filter.mp earlier
        exact (tracks.laidOut id isLaidOut).upholds tracks.stands upholds
          (laidOut id isLaidOut (by simpa using others))

/-- A request was refused.  It has changed no struct that was there before. -/
theorem Tracks.fail (tracks : Tracks heap session) (stands : Stands later builder)
    (upholds : Upholds changed heap later) (unchanged : forall id, IsStored heap id -> ¬ changed id)
    (laysOut : forall id, id ∈ request.laysOut session.builder -> Layout.Settled later id) :
    Tracks later (session.fail request builder) := by
  refine ⟨stands, fun id member => upholds.isStored (tracks.types id member),
    fun made member => (tracks.fields made member).keeps upholds.toKeeps,
    fun id members isDeclared => ?_, fun id member => ?_⟩
  · have has := tracks.declared id members isDeclared
    exact has.upholds upholds (unchanged id has.isStored)
  · cases List.mem_append.mp member with
    | inl isNew => exact laysOut id isNew
    | inr earlier =>
        have settled := tracks.laidOut id earlier
        exact settled.upholds tracks.stands upholds (unchanged id settled.stored)

/-! ### Serving a request -/

/-- A session goes on after a request. -/
def Continues (session : Session) (request : Request) : Prop :=
  Run request.serve session.builder
    (fun handed after => exists later, Tracks later (session.enter request handed after))
    (fun _ after => exists later, Tracks later (session.fail request after))

/-- What is handed out is stored. -/
structure Stores (heap : Heap) (handed : Handed) : Prop where
  types : forall id, id ∈ handed.types -> IsStored heap id
  fields : forall made, made ∈ handed.fields -> IsNamed heap made

theorem stores_nothing (heap : Heap) : Stores heap Handed.nothing := ⟨nofun, nofun⟩

/-- A request that changes no struct of the session, and lays none out. -/
theorem continues_of_tends (tracks : Tracks heap session)
    (unchanged : forall id, IsStored heap id -> ¬ changed id)
    (still : forall builder, request.laysOut builder = [])
    (tends : Tends changed request.serve heap session.builder fun handed later =>
      Stores later handed ∧
      forall id members, request.declare handed session.declared id = some members ->
        session.declared id = some members ∨ HasMembers later id members) :
    session.Continues request := by
  have none (later : Heap) (id : TypeId) (member : id ∈ request.laysOut session.builder) :
      Layout.Settled later id := by
    rw [still] at member
    cases member
  refine Run.imp tends ?_ ?_
  · rintro handed after ⟨later, ⟨stands, upholds⟩, stores, declared⟩
    refine ⟨later, tracks.enter stands upholds stores.types stores.fields
      (fun id members isDeclared => ?_)
      (fun id isLaidOut _ => unchanged id (tracks.laidOut id isLaidOut).stored) (none later)⟩
    refine (declared id members isDeclared).imp_left fun earlier => ⟨earlier, ?_⟩
    exact unchanged id (tracks.declared id members earlier).isStored
  · rintro failure after ⟨later, stands, upholds⟩
    exact ⟨later, tracks.fail stands upholds unchanged (none later)⟩

/-- A request that adds something. -/
theorem continues_of_adds {Result : Type} (tracks : Tracks heap session)
    (still : forall builder, request.laysOut builder = [])
    (asBefore : forall handed, request.declare handed session.declared = session.declared)
    {step : BuildM Result} {hand : Result -> Handed} {good : Result -> Heap -> Prop}
    (serves : request.serve = step >>= fun result => pure (hand result))
    (tends : Tends (fun id => ¬ IsStored heap id) step heap session.builder good)
    (stores : forall result later, Keeps heap later -> good result later ->
      Stores later (hand result)) : session.Continues request := by
  refine continues_of_tends tracks (fun _ isStored => not_not_intro isStored) still ?_
  rw [serves]
  refine Course.Takes.andThen tends ?_
  rintro result later after ⟨stands, upholds⟩ holds
  refine tends_pure stands ⟨stores result later upholds.toKeeps holds, fun id members isDeclared => ?_⟩
  rw [asBefore] at isDeclared
  exact Or.inl isDeclared

/-- A request that adds a struct. -/
theorem continues_of_addsStruct (tracks : Tracks heap session)
    (still : forall builder, request.laysOut builder = [])
    (declares : forall handed id, request.declare handed session.declared id =
      if id ∈ handed.types then some [] else session.declared id)
    {step : BuildM TypeId} (serves : request.serve = step >>= fun id => pure (Handed.type id))
    (tends : Tends (fun id => ¬ IsStored heap id) step heap session.builder fun id later =>
      HasMembers later id []) : session.Continues request := by
  refine continues_of_tends tracks (fun _ isStored => not_not_intro isStored) still ?_
  rw [serves]
  refine Course.Takes.andThen tends ?_
  rintro id later after ⟨stands, upholds⟩ has
  refine tends_pure stands ⟨⟨?_, nofun⟩, fun other members isDeclared => ?_⟩
  · rintro other member
    cases List.mem_singleton.mp member
    exact has.isStored
  · rw [declares] at isDeclared
    split at isDeclared
    next member =>
      cases isDeclared
      cases List.mem_singleton.mp member
      exact Or.inr has
    next => exact Or.inl isDeclared

/-- A request that lays types out. -/
theorem continues_of_settles {Result : Type} (tracks : Tracks heap session)
    (asBefore : forall handed, request.declare handed session.declared = session.declared)
    {step : Layout.LayoutM Result} {good : Result -> Heap -> Layout.State -> Prop}
    (serves : request.serve = Layout.run step >>= fun _ => pure Handed.nothing)
    (lays : request.laysOut session.builder = Layout.doneAfter step session.builder)
    (settles : Layout.Settles [] step heap ⟨session.builder, [], [], []⟩ good) :
    session.Continues request := by
  unfold Continues
  rw [serves]
  refine Run.andThen (Layout.run_settles settles) ?_ ?_
  · rintro _ after ⟨later, stands, upholds, settled⟩
    refine run_pure.mpr ⟨later, tracks.enter stands upholds nofun nofun
      (fun id members isDeclared => ?_) (fun _ _ _ => not_false)
      fun id member => settled id (lays ▸ member)⟩
    rw [asBefore] at isDeclared
    exact Or.inl ⟨isDeclared, not_false⟩
  · rintro _ after ⟨later, stands, upholds, settled⟩
    exact ⟨later, tracks.fail stands upholds (fun _ _ => not_false)
      fun id member => settled id (lays ▸ member)⟩

theorem contains_set_storedByReference (flags : TypeFlags) (present : Bool) :
    (flags.set TypeFlags.storedByReference present).contains TypeFlags.builtin =
      flags.contains TypeFlags.builtin ∧
    (flags.set TypeFlags.storedByReference present).contains TypeFlags.generic =
      flags.contains TypeFlags.generic ∧
    (flags.set TypeFlags.storedByReference present).contains TypeFlags.hasHashCollisions =
      flags.contains TypeFlags.hasHashCollisions := by
  obtain ⟨bits⟩ := flags
  change BitVec 5 at bits
  revert bits present
  decide

theorem continues_setStoredByReference (tracks : Tracks heap session) (isStored : IsStored heap id)
    (present : Bool) : session.Continues (.setStoredByReference id present) := by
  obtain ⟨type, stored⟩ := isStored
  have storable := tracks.stands.holds.storable _ _ stored
  obtain ⟨builtin, generic, collisions⟩ := contains_set_storedByReference type.flags present
  refine @continues_of_tends _ _ _ (fun _ => False) tracks (fun _ _ => not_false) (fun _ => rfl) ?_
  refine Course.Takes.andThen (tends_updateType tracks.stands stored
    (fun type => { type with flags := type.flags.set TypeFlags.storedByReference present })
    ⟨storable.prototype, storable.argument⟩ rfl ⟨rfl, rfl⟩ rfl fun _ _ fields _ => ?_) ?_
  · refine ⟨rfl, builtin, generic, .refl fields, fun filed => ⟨filed.sorted, filed.declared, ?_⟩⟩
    exact (Bool.eq_iff_iff.mp collisions).trans filed.mark
  · rintro _ later after ⟨stands, _⟩ _
    exact tends_pure stands ⟨stores_nothing later, fun _ _ => Or.inl⟩

theorem continues_setFields (tracks : Tracks heap session)
    (allows : session.Allows (.setFields id members)) :
    session.Continues (.setFields id members) := by
  have named (member : String × FieldDef) (inMembers : member ∈ members) : IsNamed heap member := by
    obtain ⟨made, isMade, sameName, sameText, sameHash⟩ := allows.2 member inMembers
    obtain ⟨hasText, isHash⟩ := tracks.fields made isMade
    rw [sameName, sameText] at hasText
    exact ⟨hasText, sameHash.symm.trans (isHash.trans (congrArg Checksum.nameHash sameName))⟩
  have fieldsStand (field : FieldDef) (inFields : field ∈ members.map Prod.snd) :
      FieldStands heap field := by
    obtain ⟨member, inMembers, rfl⟩ := List.mem_map.mp inFields
    refine ⟨⟨member.1, named member inMembers⟩, fun inner isType => tracks.types inner ?_⟩
    exact allows.1 inner (List.mem_cons_of_mem _ (List.mem_filterMap.mpr ⟨member, inMembers, isType⟩))
  obtain ⟨type, stored⟩ := tracks.types id (allows.1 id List.mem_cons_self)
  refine Run.andThen (@run_setFields _ _ (· = id) _ _ tracks.stands stored rfl _ fieldsStand) ?_ ?_
  · rintro _ after ⟨later, stands, upholds, laterStored, laterFields, place, rfl⟩
    refine run_pure.mpr ⟨later, tracks.enter stands upholds nofun nofun
      (fun other given isDeclared => ?_) (fun other _ others => by simpa [Request.gives] using others) nofun⟩
    simp only [Request.declare] at isDeclared
    split at isDeclared
    next same =>
      subst same
      obtain ⟨before, isBefore, rfl⟩ := Option.map_eq_some_iff.mp isDeclared
      obtain ⟨earlier, _, earlierStored, _, isStruct, own, plain, _⟩ := tracks.declared _ _ isBefore
      cases hasType_inj stored earlierStored
      exact Or.inr ⟨_, _, laterStored, laterFields, isStruct, own, plain, .refl _,
        fun member inMembers => (named member inMembers).keeps upholds.toKeeps⟩
    next different => exact Or.inl ⟨isDeclared, different⟩
  · rintro _ after rfl
    exact ⟨heap, tracks.fail tracks.stands (.refl (fun _ => False) heap) (fun _ _ => not_false) nofun⟩

theorem hasMembers_nil {type : TypeDef} (stored : HasType heap id type) (noFields : type.fieldCount = 0)
    (isStruct : type.shape = .struct) (noFlags : type.flags = FlagSet.empty) :
    HasMembers heap id [] := by
  have none : HasFields heap id type [] :=
    ⟨congrArg UInt32.toNat noFields, fun nonempty => absurd rfl nonempty⟩
  refine ⟨type, [], stored, none, isStruct, ?_, ?_, .refl [], nofun⟩
  · unfold TypeDef.isBuiltin
    rw [noFlags]
    decide
  · unfold TypeDef.isGeneric
    rw [noFlags]
    decide

/-- A session goes on after any request that refers to what was handed out. -/
theorem Tracks.continues (tracks : Tracks heap session) (allows : session.Allows request) :
    session.Continues request := by
  have known (id : TypeId) (member : id ∈ request.types) : IsStored heap id :=
    tracks.types id (allows.1 id member)
  have newTypes : Permits (fun id => ¬ IsStored heap id) heap := fun _ isNew => isNew
  have handsType (id : TypeId) (later : Heap) (isStored : IsStored later id) :
      Stores later (Handed.type id) :=
    ⟨fun other member => List.mem_singleton.mp member ▸ isStored, nofun⟩
  have handsField (name : String) (field : FieldDef) (later : Heap)
      (isNamed : IsNamed later (name, field)) : Stores later (Handed.field name field) :=
    ⟨nofun, fun made member => List.mem_singleton.mp member ▸ isNamed⟩
  cases request with
  | storeText text =>
      exact continues_of_adds tracks (fun _ => rfl) (fun _ => rfl) rfl
        (tends_storeText tracks.stands text) fun _ later _ _ => stores_nothing later
  | newContext target =>
      refine continues_of_adds tracks (fun _ => rfl) (fun _ => rfl) rfl
        (tends_newContext tracks.stands newTypes target) fun context later _ builtins =>
          ⟨fun id member => ?_, nofun⟩
      obtain ⟨builtin, _, rfl⟩ := List.mem_map.mp member
      exact builtins builtin
  | newType name shape =>
      have adds {good : TypeId -> Heap -> Prop} (makes : forall id later,
          (exists stored, HasType later id (TypeDef.ofShape stored shape)) -> good id later) :
          Tends (fun id => ¬ IsStored heap id) (Builder.newType name shape) heap session.builder good :=
        (tends_newType tracks.stands name shape).imp fun id later _ _ made => makes id later made.2
      cases shape with
      | struct =>
          refine continues_of_addsStruct tracks (fun _ => rfl) (fun _ _ => rfl) rfl (adds ?_)
          rintro id later ⟨stored, isType⟩
          exact hasMembers_nil isType rfl rfl rfl
      | _ =>
          refine continues_of_adds tracks (fun _ => rfl) (fun _ => rfl) rfl (adds ?_)
            fun id later _ isStored => handsType id later isStored
          rintro id later ⟨stored, isType⟩
          exact ⟨_, isType⟩
  | newStruct context name =>
      refine continues_of_addsStruct tracks (fun _ => rfl) (fun _ _ => rfl) rfl
        ((tends_newDeclaredType tracks.stands newTypes name .struct
          (known _ (context.mem_types .structPrototype))).imp ?_)
      rintro id later _ _ ⟨_, stored, isType⟩
      exact hasMembers_nil isType rfl rfl rfl
  | newVariant context name =>
      refine continues_of_adds tracks (fun _ => rfl) (fun _ => rfl) rfl
        (tends_newDeclaredType tracks.stands newTypes name .variant
          (known _ (context.mem_types .variantPrototype))) ?_
      rintro id later _ ⟨_, stored, isType⟩
      exact handsType id later ⟨_, isType⟩
  | field name type order =>
      exact continues_of_adds tracks (fun _ => rfl) (fun _ => rfl) rfl
        (tends_field tracks.stands name type order)
        fun field later _ named => handsField name field later ⟨named.1, named.2.1⟩
  | tagField context =>
      exact continues_of_adds tracks (fun _ => rfl) (fun _ => rfl) rfl
        (tends_field tracks.stands "tag" (some (context.builtin .tag)) 0)
        fun field later _ named => handsField "tag" field later ⟨named.1, named.2.1⟩
  | instantiate generic argument =>
      exact continues_of_adds tracks (fun _ => rfl) (fun _ => rfl) rfl
        (tends_instantiate tracks.stands newTypes (known argument (by simp [Request.types]))
          (known generic (by simp [Request.types])))
        fun id later _ isStored => handsType id later isStored
  | wrapFieldType context type flags =>
      exact continues_of_adds tracks (fun _ => rfl) (fun _ => rfl) rfl
        (tends_wrapFieldType tracks.stands newTypes
          (fun builtin => known _ (List.mem_cons_of_mem _ (context.mem_types builtin)))
          (known type List.mem_cons_self) flags)
        fun id later _ isStored => handsType id later isStored
  | setStoredByReference id present =>
      exact continues_setStoredByReference tracks (known id List.mem_cons_self) present
  | setFields id members => exact continues_setFields tracks allows
  | arrange target id =>
      exact continues_of_settles tracks (fun _ => rfl) rfl rfl
        (Layout.settles_arrangeType (Layout.stage_start tracks.stands) (known id List.mem_cons_self))
  | arrangeDeep target id =>
      exact continues_of_settles tracks (fun _ => rfl) rfl rfl
        (Layout.settles_arrangeReachable (Layout.stage_start tracks.stands)
          (known id List.mem_cons_self))
  | arrangeContext context target =>
      refine continues_of_settles tracks (fun _ => rfl) rfl rfl
        (Layout.settles_arrangeAll (Layout.stage_start tracks.stands) (fun root isRoot => ?_)
          fun builtin => known _ (context.mem_types builtin))
      exact known root (List.mem_append_left _ (by simp [isRoot]))

/-! ### Whole sessions -/

theorem Tracks.next (tracks : Tracks heap session) (request : Request) :
    exists later, Tracks later (session.next request) := by
  unfold Session.next
  split
  next allows =>
    have continues := tracks.continues allows
    unfold Continues Run at continues
    cases ends : request.serve session.builder with
    | ok handed after => simpa only [ends] using continues
    | error failure after => simpa only [ends] using continues
  next => exact ⟨heap, tracks⟩

theorem Tracks.run (tracks : Tracks heap session) (requests : List Request) :
    exists later, Tracks later (session.run requests) := by
  induction requests generalizing heap session with
  | nil => exact ⟨heap, tracks⟩
  | cons request rest ih =>
      obtain ⟨next, nextTracks⟩ := tracks.next request
      exact ih nextTracks

theorem IsFresh.tracks (fresh : session.IsFresh) : Tracks Heap.empty session := by
  cases fresh with
  | ofArena isOwned writable =>
      exact ⟨⟨Heap.holds_empty isOwned writable, nofun, nofun⟩, nofun, nofun, nofun, nofun⟩

/-! ### Finding the members of a struct -/

/-- The field of the first member of a name, in the order of declaration. -/
def firstOfName (members : List (String × FieldDef)) (name : String) : Option FieldDef :=
  ((Sorted.sortBy (fun member => member.2.orderKey) members).find? fun member =>
    member.1 = name).map Prod.snd

/-- The fields of a struct are found by their names, and the struct is marked
when two names have the same hash. -/
structure Finds (schema : Schema) (id : TypeId) (members : List (String × FieldDef)) (type : TypeDef)
    (inOrder : List FieldDef) : Prop where
  isType : schema.type id = .ok type
  isInOrder : schema.fieldsInOrder type = .ok inOrder
  /-- The search finds what a linear search finds: the first member of the
  name, at its position. -/
  finds : forall name, exists found, schema.findField type name = .ok found ∧
    schema.findNamed name inOrder = .ok found ∧
    Option.Rel FieldDef.Moves (firstOfName members name) found
  mark : type.flags.contains TypeFlags.hasHashCollisions = true ↔
    ¬ (members.map fun member => Checksum.nameHash member.1).Nodup

theorem firstOfName_eq (holds : heap.Holds builder.arena)
    (named : forall member, member ∈ members -> IsNamed heap member) (name : String) :
    firstOfName members name = (Sorted.sortBy FieldDef.orderKey (members.map Prod.snd)).find?
      (Schema.isNamed ⟨builder.arena⟩ name) := by
  have alike (member : String × FieldDef)
      (inOrder : member ∈ Sorted.sortBy (fun member => member.2.orderKey) members) :
      Schema.isNamed ⟨builder.arena⟩ name member.2 = decide (member.1 = name) := by
    have isText := holds.text (named member ((Sorted.sortBy_perm _ members).mem_iff.mp inOrder)).1
    unfold Schema.isNamed
    rw [isText]
  rw [Sorted.sortBy_map, List.find?_map, firstOfName]
  congr 1
  exact (List.find?_congr alike).symm

theorem Tracks.finds (tracks : Tracks heap session) (isDeclared : session.declared id = some members)
    (isLaidOut : id ∈ session.laidOut) :
    exists type inOrder, Finds ⟨session.builder.arena⟩ id members type inOrder := by
  obtain ⟨type, fields, stored, hasFields, isStruct, own, plain, runs, named⟩ :=
    tracks.declared id members isDeclared
  have filed := (tracks.laidOut id isLaidOut).filed type fields stored hasFields isStruct plain own
  have holds := tracks.stands.holds
  have storedNamed (field : FieldDef) (member : field ∈ fields) :
      Schema.HasName ⟨session.builder.arena⟩ field := by
    obtain ⟨⟨others, hasOthers, standing⟩, _⟩ := tracks.stands.types id type stored
    cases hasFields_inj hasFields hasOthers
    obtain ⟨name, hasText, isHash⟩ := (standing field member).name
    exact ⟨name, holds.text hasText, isHash⟩
  have givenNamed (field : FieldDef) (inMembers : field ∈ members.map Prod.snd) :
      Schema.HasName ⟨session.builder.arena⟩ field := by
    obtain ⟨member, isMember, rfl⟩ := List.mem_map.mp inMembers
    exact ⟨member.1, holds.text (named member isMember).1, (named member isMember).2⟩
  refine ⟨type, _, holds.type stored, holds.fieldsInOrder hasFields, fun name => ?_, ?_⟩
  · refine ⟨_, Schema.findField_eq (holds.fields hasFields) isStruct filed storedNamed name,
      Schema.findNamed_eq fun field member => storedNamed field
        ((Sorted.sortBy_perm _ fields).mem_iff.mp member), ?_⟩
    rw [firstOfName_eq holds named]
    exact Schema.rel_find?_of_sameRuns runs givenNamed storedNamed
  · have hashes : (members.map Prod.snd).map FieldDef.hash =
        members.map fun member => Checksum.nameHash member.1 := by
      rw [List.map_map]
      exact List.map_congr_left fun member isMember => (named member isMember).2
    rw [← hashes]
    exact filed.mark.trans (not_congr runs.perm_hash.nodup_iff.symm)

/-- Whether a request asks for the layout of a type. -/
def Lays (request : Request) (id : TypeId) : Prop :=
  match request with
  | .arrange _ other => id = other
  | .arrangeDeep _ other => id = other
  | .arrangeContext context _ => context.root = some id
  | _ => False

theorem Tracks.lays (tracks : Tracks heap session) (allows : session.Allows request)
    (lays : Lays request id) :
    Run request.serve session.builder
      (fun handed after => id ∈ (session.enter request handed after).laidOut) (fun _ _ => True) := by
  have stage := Layout.stage_start tracks.stands
  have known (other : TypeId) (member : other ∈ request.types) : IsStored heap other :=
    tracks.types other (allows.1 other member)
  have entered {Result : Type} {step : Layout.LayoutM Result}
      (serves : request.serve = Layout.run step >>= fun _ => pure Handed.nothing)
      (same : request.laysOut session.builder = Layout.doneAfter step session.builder)
      (settles : Layout.Settles [] step heap ⟨session.builder, [], [], []⟩
        fun _ _ after => id ∈ after.done) :
      Run request.serve session.builder
        (fun handed after => id ∈ (session.enter request handed after).laidOut) (fun _ _ => True) := by
    rw [serves]
    refine Run.andThen (Layout.run_mem_doneAfter settles) ?_ (fun _ _ _ => trivial)
    intro _ after isDone
    exact run_pure.mpr (List.mem_append_left _ (same ▸ isDone))
  cases request with
  | arrange target other =>
      cases lays
      exact entered rfl rfl (Layout.settles_arrangeType stage (known id List.mem_cons_self))
  | arrangeDeep target other =>
      cases lays
      exact entered rfl rfl (Layout.settles_arrangeReachable stage (known id List.mem_cons_self))
  | arrangeContext context target =>
      have isRoot : context.root = some id := lays
      refine entered rfl rfl ((Layout.settles_arrangeAll stage (fun root isRoot => ?_)
        fun builtin => known _ (context.mem_types builtin)).imp fun _ _ _ _ done => done id isRoot)
      exact known root (List.mem_append_left _ (by simp [isRoot]))
  | _ => exact lays.elim

/-- After any requests to a fresh builder, the members of a struct that is laid
out are found by their names: halving and the scan of the run of equal hashes
find what a linear search in the order of declaration finds, with any names
and also with repeated ones.  A request for the layout of a type lays it out,
or fails. -/
theorem findField_run {start : Session} (fresh : start.IsFresh) (requests : List Request) :
    let session := start.run requests
    (forall id members, session.declared id = some members -> id ∈ session.laidOut ->
      exists type inOrder, Finds ⟨session.builder.arena⟩ id members type inOrder) ∧
    forall request id, session.Allows request -> Lays request id ->
      Run request.serve session.builder
        (fun handed after => id ∈ (session.enter request handed after).laidOut)
        (fun _ _ => True) := by
  obtain ⟨heap, tracks⟩ := fresh.tracks.run requests
  exact ⟨fun _ _ => tracks.finds, fun _ _ => tracks.lays⟩

/-- A builder over an arena of 256 bytes. -/
def small : Session :=
  ⟨Builder.ofArena ⟨.owned 256 1 true, Arena.zeros 1, 1⟩, [], [], fun _ => none, []⟩

/-- Two members whose names have the same hash. -/
def twins (owner : TypeId) : List (String × FieldDef) :=
  [("plumless", FieldDef.ofName ⟨⟨48⟩, 8⟩ 1306201125 (some owner) 0),
    ("buckeroo", FieldDef.ofName ⟨⟨57⟩, 8⟩ 1306201125 (some owner) 1)]

/-- Make a struct of the two members, and lay it out. -/
def makeTwins (owner : TypeId) : List Request :=
  [.newType "Pair" .struct, .setStoredByReference owner true, .field "plumless" (some owner) 0,
    .field "buckeroo" (some owner) 1, .setFields owner (twins owner), .arrange .wasm32 owner]

/-- Members of the same hash are told apart by their names. -/
theorem findField_run_twins :
    small.IsFresh ∧ (small.run (makeTwins ⟨⟨8⟩⟩)).declared ⟨⟨8⟩⟩ = some (twins ⟨⟨8⟩⟩) ∧
      ⟨⟨8⟩⟩ ∈ (small.run (makeTwins ⟨⟨8⟩⟩)).laidOut ∧
      exists type inOrder,
        Finds ⟨(small.run (makeTwins ⟨⟨8⟩⟩)).builder.arena⟩ ⟨⟨8⟩⟩ (twins ⟨⟨8⟩⟩) type inOrder := by
  have made : Arena.owned ⟨256, true⟩ = .ok ⟨.owned 256 1 true, Arena.zeros 1, 1⟩ := rfl
  have fresh : small.IsFresh := .ofArena rfl (Arena.owned_writable made)
  have served : (small.run (makeTwins ⟨⟨8⟩⟩)).declared ⟨⟨8⟩⟩ = some (twins ⟨⟨8⟩⟩) ∧
      ⟨⟨8⟩⟩ ∈ (small.run (makeTwins ⟨⟨8⟩⟩)).laidOut := by decide +kernel
  obtain ⟨finds, _⟩ := findField_run fresh (makeTwins ⟨⟨8⟩⟩)
  exact ⟨fresh, served.1, served.2, finds _ _ served.1 served.2⟩

end Session
end Builder
end PackedJson
