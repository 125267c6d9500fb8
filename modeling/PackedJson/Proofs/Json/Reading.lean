import PackedJson.Json.Reader
import PackedJson.Json.Pointer
import PackedJson.Proofs.TextSchema.Meaning

namespace PackedJson
namespace Json

/-!
Values that were read from text.

The members of an object are collected with `insert`, so that no name occurs
twice, and an integer is a numeral that fits 64 binary digits.  A reference
into a document selects one of its values, which is as well-formed as the
whole.
-/

section Members

variable {name : String} {value : Json} {members : List (String × Json)}

theorem mem_insert {member : String × Json} (isMember : member ∈ insert name value members) :
    member = (name, value) ∨ member ∈ members := by
  induction members with
  | nil => exact .inl (List.mem_singleton.mp isMember)
  | cons head rest ih =>
      unfold insert at isMember
      split at isMember
      next same =>
        cases List.mem_cons.mp isMember with
        | inl isNew => exact .inl (same ▸ isNew)
        | inr inRest => exact .inr (List.mem_cons_of_mem _ inRest)
      next =>
        cases List.mem_cons.mp isMember with
        | inl isHead => exact .inr (isHead ▸ List.mem_cons_self)
        | inr inserted => exact (ih inserted).imp_right (List.mem_cons_of_mem _)

theorem nodup_insert (distinct : (members.map Prod.fst).Nodup) :
    ((insert name value members).map Prod.fst).Nodup := by
  induction members with
  | nil => exact List.nodup_cons.mpr ⟨List.not_mem_nil, List.nodup_nil⟩
  | cons head rest ih =>
      obtain ⟨notInRest, restDistinct⟩ := List.nodup_cons.mp distinct
      unfold insert
      split
      · exact List.nodup_cons.mpr ⟨notInRest, restDistinct⟩
      · next different =>
        refine List.nodup_cons.mpr ⟨fun again => ?_, ih restDistinct⟩
        obtain ⟨member, isMember, sameName⟩ := List.mem_map.mp again
        cases mem_insert isMember with
        | inl isNew => exact different (sameName ▸ isNew ▸ rfl)
        | inr inRest => exact notInRest (sameName ▸ List.mem_map_of_mem inRest)

/-- Members as they are collected while an object is read. -/
structure AreWellFormed (members : List (String × Json)) : Prop where
  distinct : (members.map Prod.fst).Nodup
  values : forall member, member ∈ members -> member.2.WellFormed

theorem areWellFormed_nil : AreWellFormed [] :=
  ⟨List.nodup_nil, nofun⟩

theorem AreWellFormed.insert (are : AreWellFormed members) (wellFormed : value.WellFormed) :
    AreWellFormed (insert name value members) := by
  refine ⟨nodup_insert are.distinct, fun member isMember => ?_⟩
  cases mem_insert isMember with
  | inl isNew => exact isNew ▸ wellFormed
  | inr inMembers => exact are.values member inMembers

end Members

theorem wellFormed_numeral {numeral : Numeral} {number : Number}
    (isValue : numeral.value? = some number) : (Json.number number).WellFormed := by
  unfold Numeral.value? at isValue
  simp only at isValue
  split at isValue
  next fits =>
    cases isValue
    exact .integer (by omega) (by omega)
  next =>
    split at isValue
    next fits =>
      cases isValue
      exact .integer (by omega) (by omega)
    next =>
      obtain ⟨bits, _, rfl⟩ := Option.map_eq_some_iff.mp isValue
      exact .float _

namespace Reader

/-- What a reading function answers with is well-formed. -/
def ReadsWellFormed (read : List Char -> Option (Json × List Char)) : Prop :=
  forall text value rest, read text = some (value, rest) -> value.WellFormed

theorem readsWellFormed_scalar : ReadsWellFormed scalar? := by
  intro text value rest isRead
  unfold scalar? at isRead
  split at isRead
  · cases isRead
    exact .null
  · cases isRead
    exact .boolean true
  · cases isRead
    exact .boolean false
  · obtain ⟨_, _, same⟩ := Option.map_eq_some_iff.mp isRead
    cases same
    exact .string _
  · obtain ⟨_, _, isRead⟩ := Option.bind_eq_some_iff.mp isRead
    obtain ⟨_, isValue, same⟩ := Option.bind_eq_some_iff.mp isRead
    cases same
    exact wellFormed_numeral isValue

section Containers

variable {element : List Char -> Option (Json × List Char)} (elements : ReadsWellFormed element)

include elements

theorem wellFormed_items {steps : Nat} {before items : List Json} {text rest : List Char}
    (areBefore : forall item, item ∈ before -> item.WellFormed)
    (areRead : items? element steps before text = some (items, rest)) :
    forall item, item ∈ items -> item.WellFormed := by
  induction steps generalizing before text with
  | zero => cases areRead
  | succ steps ih =>
      unfold items? at areRead
      obtain ⟨⟨item, afterItem⟩, isItem, areRead⟩ := Option.bind_eq_some_iff.mp areRead
      have areNow : forall other, other ∈ item :: before -> other.WellFormed :=
        List.forall_mem_cons.mpr ⟨elements _ _ _ isItem, areBefore⟩
      simp only at areRead
      split at areRead
      · exact ih areNow areRead
      · cases areRead
        exact fun other member => areNow other (List.mem_reverse.mp member)
      · cases areRead

theorem wellFormed_member {member : String × Json} {text rest : List Char}
    (isRead : member? element text = some (member, rest)) : member.2.WellFormed := by
  unfold member? at isRead
  split at isRead
  · obtain ⟨_, _, isRead⟩ := Option.bind_eq_some_iff.mp isRead
    simp only at isRead
    split at isRead
    · obtain ⟨⟨value, _⟩, isValue, same⟩ := Option.bind_eq_some_iff.mp isRead
      cases same
      exact elements _ _ _ isValue
    · cases isRead
  · cases isRead

theorem wellFormed_members {steps : Nat} {before members : List (String × Json)}
    {text rest : List Char} (areBefore : AreWellFormed before)
    (areRead : members? element steps before text = some (members, rest)) :
    AreWellFormed members := by
  induction steps generalizing before text with
  | zero => cases areRead
  | succ steps ih =>
      unfold members? at areRead
      obtain ⟨⟨⟨name, value⟩, afterMember⟩, isMember, areRead⟩ := Option.bind_eq_some_iff.mp areRead
      have areNow : AreWellFormed (insert name value before) :=
        areBefore.insert (wellFormed_member elements isMember)
      simp only at areRead
      split at areRead
      · exact ih areNow areRead
      · cases areRead
        exact areNow
      · cases areRead

end Containers

theorem readsWellFormed_value (steps levels : Nat) : ReadsWellFormed (value? steps levels) := by
  induction levels with
  | zero => exact readsWellFormed_scalar
  | succ levels ih =>
      intro text value rest isRead
      unfold value? at isRead
      split at isRead
      · split at isRead
        · cases isRead
          exact .array nofun
        · obtain ⟨_, areItems, same⟩ := Option.map_eq_some_iff.mp isRead
          cases same
          exact .array (wellFormed_items ih (fun _ never => by cases never) areItems)
      · split at isRead
        · cases isRead
          exact .object List.nodup_nil nofun
        · obtain ⟨_, areMembers, same⟩ := Option.map_eq_some_iff.mp isRead
          cases same
          have are := wellFormed_members ih areWellFormed_nil areMembers
          exact .object are.distinct are.values
      · exact readsWellFormed_scalar _ _ _ isRead

end Reader

/-- What is read from bytes is well-formed. -/
theorem wellFormed_of_ofBytes {bytes : ByteArray} {value : Json}
    (isRead : ofBytes? bytes = some value) : value.WellFormed := by
  obtain ⟨text, _, isRead⟩ := Option.bind_eq_some_iff.mp isRead
  unfold ofText? at isRead
  simp only at isRead
  split at isRead
  next found =>
    split at isRead
    · cases isRead
      exact Reader.readsWellFormed_value _ _ _ _ _ found
    · cases isRead
  next => cases isRead

namespace Pointer

theorem wellFormed_of_follow {names : List String} {document value : Json}
    (wellFormed : document.WellFormed) (followed : follow? names document = some value) :
    value.WellFormed := by
  induction names generalizing document with
  | nil =>
      cases followed
      exact wellFormed
  | cons name rest ih =>
      obtain ⟨inner, isStep, followed⟩ := Option.bind_eq_some_iff.mp followed
      refine ih ?_ followed
      unfold step? at isStep
      cases wellFormed with
      | array areWellFormed =>
          obtain ⟨position, _, isItem⟩ := Option.bind_eq_some_iff.mp isStep
          exact areWellFormed inner (List.mem_of_getElem? isItem)
      | object _ areWellFormed => exact areWellFormed _ (mem_of_lookup? isStep)
      | _ => cases isStep

/-- What a reference selects is as well-formed as the whole. -/
theorem wellFormed_of_resolve {pointer : String} {document value : Json}
    (wellFormed : document.WellFormed) (resolved : resolve? pointer document = some value) :
    value.WellFormed := by
  obtain ⟨_, _, followed⟩ := Option.bind_eq_some_iff.mp resolved
  exact wellFormed_of_follow wellFormed followed

end Pointer

end Json
end PackedJson
