import PackedJson.Proofs.Json.Reading

namespace PackedJson
namespace Json

/-!
Parts of documents, and what they have in common with the whole.

A part is no higher than the document, and its texts are texts of the document.
This is all that a recursion over a document along members, items and references
takes from where it is.
-/

mutual

/-- The texts in a document, at any depth. -/
def strings : Json -> List String
  | .string text => [text]
  | .array items => stringsOfItems items
  | .object members => stringsOfMembers members
  | _ => []

/-- The texts below an array. -/
def stringsOfItems : List Json -> List String
  | [] => []
  | item :: rest => strings item ++ stringsOfItems rest

/-- The texts below an object. -/
def stringsOfMembers : List (String × Json) -> List String
  | [] => []
  | (_, value) :: rest => strings value ++ stringsOfMembers rest

end

mutual

/-- A document has no more texts than values. -/
theorem length_strings_le : (document : Json) -> document.strings.length ≤ document.count
  | .null | .boolean _ | .number _ => by simp [strings, count]
  | .string _ => by simp [strings, count]
  | .array items => by
      have below := length_stringsOfItems_le items
      simp only [strings, count]
      omega
  | .object members => by
      have below := length_stringsOfMembers_le members
      simp only [strings, count]
      omega

theorem length_stringsOfItems_le : (items : List Json) ->
    (stringsOfItems items).length ≤ countItems items
  | [] => Nat.le_refl _
  | item :: rest => by
      have head := length_strings_le item
      have tail := length_stringsOfItems_le rest
      simp only [stringsOfItems, countItems, List.length_append]
      omega

theorem length_stringsOfMembers_le : (members : List (String × Json)) ->
    (stringsOfMembers members).length ≤ countMembers members
  | [] => Nat.le_refl _
  | (_, value) :: rest => by
      have head := length_strings_le value
      have tail := length_stringsOfMembers_le rest
      simp only [stringsOfMembers, countMembers, List.length_append]
      omega

end

theorem mem_strings_of_item {items : List Json} {item : Json} (isItem : item ∈ items)
    {text : String} (isText : text ∈ item.strings) : text ∈ (array items).strings := by
  rw [strings]
  induction items with
  | nil => cases isItem
  | cons head rest ih =>
      rw [stringsOfItems]
      cases List.mem_cons.mp isItem with
      | inl same => exact List.mem_append_left _ (same ▸ isText)
      | inr inRest => exact List.mem_append_right _ (ih inRest)

theorem mem_strings_of_member {members : List (String × Json)} {member : String × Json}
    (isMember : member ∈ members) {text : String} (isText : text ∈ member.2.strings) :
    text ∈ (object members).strings := by
  rw [strings]
  induction members with
  | nil => cases isMember
  | cons head rest ih =>
      rw [stringsOfMembers]
      cases List.mem_cons.mp isMember with
      | inl same => exact List.mem_append_left _ (same ▸ isText)
      | inr inRest => exact List.mem_append_right _ (ih inRest)

/-- A value that has nothing that the document does not have. -/
structure IsPart (document part : Json) : Prop where
  height : part.height ≤ document.height
  strings : forall text, text ∈ part.strings -> text ∈ document.strings

namespace IsPart

variable {document part inner : Json}

theorem refl (document : Json) : IsPart document document := ⟨Nat.le_refl _, fun _ isText => isText⟩

theorem trans (isPart : IsPart document part) (isInner : IsPart part inner) :
    IsPart document inner :=
  ⟨Nat.le_trans isInner.height isPart.height,
    fun text isText => isPart.strings text (isInner.strings text isText)⟩

theorem item {items : List Json} (isPart : IsPart document (array items)) (isItem : inner ∈ items) :
    IsPart document inner :=
  isPart.trans ⟨Nat.le_of_lt (height_lt_of_item isItem), fun _ => mem_strings_of_item isItem⟩

theorem member {members : List (String × Json)} (isPart : IsPart document (object members))
    {member : String × Json} (isMember : member ∈ members) : IsPart document member.2 :=
  isPart.trans ⟨Nat.le_of_lt (height_lt_of_member isMember),
    fun _ => mem_strings_of_member isMember⟩

theorem member? {name : String} (isPart : IsPart document part)
    (found : part.member? name = some inner) : IsPart document inner := by
  cases part with
  | object members => exact isPart.member (mem_of_lookup? found)
  | _ => cases found

/-- What steps lead to is a part. -/
theorem follow? {names : List String} (isPart : IsPart document part)
    (followed : Pointer.follow? names part = some inner) : IsPart document inner := by
  induction names generalizing part with
  | nil =>
      cases followed
      exact isPart
  | cons name rest ih =>
      obtain ⟨next, isStep, followed⟩ := Option.bind_eq_some_iff.mp followed
      refine ih ?_ followed
      unfold Pointer.step? at isStep
      split at isStep
      · obtain ⟨position, _, isItem⟩ := Option.bind_eq_some_iff.mp isStep
        exact isPart.item (List.mem_of_getElem? isItem)
      · exact isPart.member (mem_of_lookup? isStep)
      · cases isStep

/-- What a reference selects is a part. -/
theorem resolve? {pointer : String} (resolved : Pointer.resolve? pointer document = some inner) :
    IsPart document inner := by
  obtain ⟨_, _, followed⟩ := Option.bind_eq_some_iff.mp resolved
  exact (refl document).follow? followed

end IsPart
end Json
end PackedJson
