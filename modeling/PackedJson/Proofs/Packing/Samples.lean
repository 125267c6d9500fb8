import PackedJson.Proofs.Arena.Destinations
import PackedJson.Proofs.Packing.Spending
import PackedJson.Proofs.TextSchema.Inferring

namespace PackedJson

/-!
Samples are packed with the text schemas that are inferred from them.

An inferred text schema asks for frugal roles only, and none of its types is
larger than the room that its draft accounts for.  So the room that a sample
takes is known before it is packed, and where there is that much, it is packed.
-/

namespace TextSchema

namespace Inferred

/-! ### Roles of inferred text schemas -/

/-- Nothing is asked for by a schema but the schemas inside it, each of which may
be absent but never fails. -/
theorem exists_formed_of_asks {schema : Inferred} (formed : Formed schema) {term : Term}
    (asks : Asks schema.toJson term) :
    exists (inner : Inferred) (optional : Bool), Formed inner ∧
      term = ⟨inner.toJson, false, optional⟩ := by
  induction asks with
  | root => exact ⟨schema, false, formed, rfl⟩
  | next _ hasRole member ih =>
      obtain ⟨outer, optional, outerFormed, rfl⟩ := ih
      cases optional with
      | true =>
          cases hasRole_inj hasRole (.option _ _)
          cases List.mem_singleton.mp member
          exact ⟨outer, false, outerFormed, rfl⟩
      | false =>
          cases hasRole_inj hasRole (hasRole_term _ outer)
          cases outerFormed with
          | array itemsFormed =>
              cases List.mem_singleton.mp member
              exact ⟨_, false, itemsFormed, rfl⟩
          | object _ propertiesFormed _ =>
              simp only [role, Role.terms, List.map_map] at member
              obtain ⟨property, isProperty, rfl⟩ := List.mem_map.mp member
              exact ⟨_, _, propertiesFormed property isProperty, rfl⟩
          | oneOf _ alternativesFormed _ _ =>
              obtain ⟨alternative, isAlternative, rfl⟩ := List.mem_map.mp member
              exact ⟨_, false, alternativesFormed alternative isAlternative, rfl⟩
          | _ => cases member

/-- The properties of a schema have different names. -/
theorem isFrugal_role {schema : Inferred} (formed : Formed schema) :
    Packer.IsFrugal schema.role := by
  cases formed with
  | @object properties required distinct _ _ =>
      have names : (properties.map (propertyOf required)).map Property.name =
          properties.map Prod.fst := by
        rw [List.map_map]
        rfl
      change ((properties.map (propertyOf required)).map Property.name).Nodup
      rwa [names]
  | _ => trivial

/-- An inferred schema asks for frugal roles only. -/
theorem isFrugal_of_asks {schema : Inferred} (formed : Formed schema) {term : Term}
    {role : Role} (asks : Asks schema.toJson term) (hasRole : HasRole schema.toJson term role) :
    Packer.IsFrugal role := by
  obtain ⟨inner, optional, innerFormed, rfl⟩ := exists_formed_of_asks formed asks
  cases optional with
  | true =>
      cases hasRole_inj hasRole (.option _ _)
      trivial
  | false =>
      cases hasRole_inj hasRole (hasRole_term _ inner)
      exact isFrugal_role innerFormed

end Inferred
end TextSchema

namespace Packer

open Arena TextSchema

/-- The room that a sample takes with the text schema that is inferred from it. -/
def sampleRoom (sample : Json) (rootName : String) : Nat :=
  roomOf (unitOf ((Inferred.ofSample sample).typeRoom rootName)) sample

/-- A sample is packed with the text schema that is inferred from it, where there
is room for it. -/
theorem exists_packed_of_infer {sample : Json} (wellFormed : sample.WellFormed)
    (signed : sample.IsSigned) (clear : (Inferred.ofSample sample).IsClear)
    {options : CompileOptions} {builder : Builder}
    (isBuilder : Builder.ofConfig options.arena = .ok builder)
    (room : (Inferred.ofSample sample).typeRoom options.rootName ≤ builder.arena.spare) :
    exists container, compile (infer sample) options = .ok container ∧
      forall target, exists root,
        container.schema.root (container.context target) = .ok root ∧
        forall {pointerBase maxDepth : Nat} {state : PackState},
          (container.packer target pointerBase maxDepth).AllFit ->
          sample.height ≤ maxDepth + 1 -> state.data.Writable ->
          sampleRoom sample options.rootName ≤ state.data.room ->
          exists place meaning after,
            (container.packer target pointerBase maxDepth).pack root sample state =
              .ok place after ∧
            IsPacked (infer sample) (container.packer target pointerBase maxDepth) root sample
              state.data place meaning after := by
  obtain ⟨formed, _⟩ := Inferred.suits_sample wellFormed signed
  obtain ⟨drafted, drafts, _, spans⟩ := Inferred.yields_target formed clear options.rootName
  obtain ⟨_, compiled, sameDrafts, isCompiled, heap, holds, bodies⟩ :=
    Inferred.exists_bodies formed clear isBuilder room
  cases drafts.symm.trans sameDrafts
  obtain ⟨container, accepted, packs⟩ := run_pack_of_infer wellFormed signed clear isBuilder room
  cases isCompiled.symm.trans accepted
  refine ⟨compiled, accepted, fun target => ?_⟩
  obtain ⟨root, isRoot, runs⟩ := packs target
  obtain ⟨_, site, settled, embodies⟩ := bodies target
  refine ⟨root, isRoot, fun {pointerBase maxDepth state} fit shallow writable enough => ?_⟩
  have typeRoom : (Inferred.ofSample sample).typeRoom options.rootName = 2 * drafted.cost := by
    rw [Inferred.typeRoom, drafts]
  have sizes : forall id type, compiled.schema.Reaches root id ->
      compiled.schema.type id = .ok type ->
      type.size.toNat ≤ (Inferred.ofSample sample).typeRoom options.rootName := by
    intro id type reaches found
    have size := embodies.size_le_of_reaches holds isRoot reaches found spans
    omega
  have spends := spends_pack_of_compile accepted
    (fun _ _ asks hasRole => Inferred.isFrugal_of_asks formed asks hasRole) isRoot fit sizes sample
    writable
  have runsOnce := @runs pointerBase maxDepth state shallow writable
  unfold Spends at spends
  unfold Run at spends runsOnce
  split at runsOnce
  next place after ends =>
    obtain ⟨meaning, packed⟩ := runsOnce
    exact ⟨place, meaning, after, ends, packed⟩
  next failure after ends =>
    obtain ⟨cause, rfl⟩ := runsOnce
    simp only [ends] at spends
    exact absurd enough (Nat.not_le_of_lt (spends.2 rfl))

/-- An object with a number, and one with a text in its place under another name. -/
def twoObjects : Json := .array
  [.object [("a", .number (.integer 1))], .object [("b", .string "x")]]

theorem ofSample_twoObjects : Inferred.ofSample twoObjects =
    .array (.object [("a", .integer), ("b", .string)] []) := rfl

/-- Two objects with different members are packed as items of one type. -/
theorem exists_packed_of_infer_twoObjects : exists container root place meaning after,
    compile (infer twoObjects) {} = .ok container ∧
    container.schema.root (container.context .wasm32) = .ok root ∧
    let packer := container.packer .wasm32 0 128
    packer.pack root twoObjects ⟨fixed (2 ^ 20), []⟩ = .ok place after ∧
    IsPacked (infer twoObjects) packer root twoObjects (fixed (2 ^ 20)) place meaning after := by
  obtain ⟨builder, isBuilder, spare⟩ : exists builder,
      Builder.ofConfig {} = .ok builder ∧ builder.arena.spare = 65535 := ⟨_, rfl, rfl⟩
  have typeRoom : (Inferred.ofSample twoObjects).typeRoom "Root" ≤ 65535 := by decide +kernel
  have wellFormed : twoObjects.WellFormed := by
    refine .array (List.forall_mem_cons.mpr ⟨?_, List.forall_mem_singleton.mpr ?_⟩)
    · exact .object (by decide) (List.forall_mem_singleton.mpr (.integer (by decide) (by decide)))
    · exact .object (by decide) (List.forall_mem_singleton.mpr (.string _))
  have signed : twoObjects.IsSigned := by
    refine .array (List.forall_mem_cons.mpr ⟨?_, List.forall_mem_singleton.mpr ?_⟩)
    · exact .object (List.forall_mem_singleton.mpr (.integer (by decide)))
    · exact .object (List.forall_mem_singleton.mpr (.string _))
  have clear : (Inferred.ofSample twoObjects).IsClear := by
    rw [ofSample_twoObjects]
    exact .array (.object (List.forall_mem_cons.mpr
      ⟨.integer, List.forall_mem_singleton.mpr .string⟩))
  obtain ⟨container, accepted, packs⟩ :=
    @exists_packed_of_infer twoObjects wellFormed signed clear {} builder isBuilder
      (spare ▸ typeRoom)
  obtain ⟨root, isRoot, packed⟩ := packs .wasm32
  have writable : (fixed (2 ^ 20)).Writable :=
    owned_writable (owned_eq_fixed (by decide) (by decide) (by decide))
  obtain ⟨place, meaning, after, ends, isPacked⟩ := @packed 0 128 ⟨fixed (2 ^ 20), []⟩
    (allFit_zero _ _ _ _) (by decide +kernel) writable (by decide +kernel)
  exact ⟨container, root, place, meaning, after, accepted, isRoot, ends, isPacked⟩

end Packer
end PackedJson
