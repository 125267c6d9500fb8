import PackedJson.Proofs.Companion.Declarations
import PackedJson.Proofs.Schema.Arrangement

namespace PackedJson
namespace Companion

open Layout

/-!
The room that declared types take.

The fields of a struct are stored one after another, each behind as much
padding as its alignment needs, and the size of a struct is padded to its own
alignment, which is the strictest one of its fields.  An enumeration is stored
as a struct of a byte and a union, and each member of the union is the struct
of the payload of one alternative.  This is what the representations `C` and
`C, u8` of the language say.

How much room an expression takes depends on the items that are declared, and
on the width of pointers.
-/

/-- The next position that suits an alignment. -/
def padded (position align : Nat) : Nat :=
  if position % align = 0 then position else position + (align - position % align)

/-- The strictest alignment among some variables. -/
def strictest (slots : List Variable) : Nat :=
  slots.foldr (fun slot least => max slot.align least) 1

/-- The room of a type, and the places of its fields or of its payloads. -/
structure Placement where
  room : Variable
  places : List Nat
deriving DecidableEq, Repr

/-- The places of fields that are stored one after another from a position on. -/
def structPlaces : List Variable -> Nat -> List Nat
  | [], _ => []
  | slot :: rest, position =>
      padded position slot.align :: structPlaces rest (padded position slot.align + slot.size)

/-- The end of fields that are stored one after another from a position on. -/
def structEnd : List Variable -> Nat -> Nat
  | [], position => position
  | slot :: rest, position => structEnd rest (padded position slot.align + slot.size)

/-- The fields of a struct. -/
def structPlacement (fields : List Variable) : Placement :=
  ⟨⟨padded (structEnd fields 0) (strictest fields), strictest fields⟩, structPlaces fields 0⟩

/-- The members of a union share one place. -/
def unionRoom (members : List Variable) : Variable :=
  ⟨padded (members.foldr (fun member least => max member.size least) 0) (strictest members),
    strictest members⟩

/-- The room of a byte. -/
def byte : Variable := ⟨1, 1⟩

/-- The room of a pointer. -/
def word (target : Target) : Variable := ⟨target.pointerWidth, target.pointerWidth⟩

/-- The tag of an enumeration, and behind it a union of its payloads. -/
def enumPlacement (payloads : List Variable) : Placement :=
  let union := unionRoom (payloads.map fun payload => (structPlacement [payload]).room)
  ⟨(structPlacement [byte, union]).room, payloads.map fun _ => padded byte.size union.align⟩

/-- The types of the language itself. -/
def primitiveRoom (target : Target) : String -> Option Variable
  | "i64" => some ⟨8, 8⟩
  | "f64" => some ⟨8, 8⟩
  | "u32" => some ⟨4, 4⟩
  | "u8" => some byte
  | "bool" => some byte
  | "usize" => some (word target)
  | _ => none

/-- What an alternative carries.  One without a payload takes as much room as
one that carries nothing. -/
def Alternative.expression (alternative : Alternative) : Expression :=
  alternative.payload.getD .unit

/-- The places in what an item declares, given the room of its parts. -/
def Body.placement? (roomOf : Expression -> Option Variable) : Body -> Option Placement
  | .struct fields => do
      let slots ← fields.mapM fun field => roomOf field.2
      return structPlacement slots
  | .enumeration alternatives => do
      let slots ← alternatives.mapM fun alternative => roomOf alternative.expression
      return enumPlacement slots
  | .synonym meaning => do
      let room ← roomOf meaning
      return ⟨room, []⟩

/-- What a body says with an argument in place of a parameter. -/
def Body.substitute (parameter : String) (argument : Expression) : Body -> Body
  | .struct fields =>
      .struct (fields.map fun field => (field.1, Expression.substitute parameter argument field.2))
  | .enumeration alternatives => .enumeration (alternatives.map fun alternative =>
      { alternative with payload := alternative.payload.map (Expression.substitute parameter argument) })
  | .synonym meaning => .synonym (Expression.substitute parameter argument meaning)

/-- What an item declares, given an argument if it has a parameter. -/
def Item.bodyOf? (item : Item) (argument : Option Expression) : Option Body :=
  match item.parameter, argument with
  | none, none => some item.body
  | some parameter, some argument => some (item.body.substitute parameter argument)
  | _, _ => none

/-- The item of an identifier. -/
def itemOf? (items : List Item) (ident : String) : Option Item :=
  items.find? fun item => item.ident = ident

/-- The room that an expression takes, with a bound on the nesting of types.
Identifiers of items come before those of the language itself. -/
def roomWithin (items : List Item) (target : Target) : Nat -> Expression -> Option Variable
  | 0, _ => none
  | _ + 1, .unit => some ⟨0, 1⟩
  | _ + 1, .pointer _ => some (word target)
  | levels + 1, .name ident =>
      match itemOf? items ident with
      | none => primitiveRoom target ident
      | some item => do
          let body ← item.bodyOf? none
          let placement ← body.placement? (roomWithin items target levels)
          return placement.room
  | levels + 1, .applied generic argument => do
      let item ← itemOf? items generic
      let body ← item.bodyOf? (some argument)
      let placement ← body.placement? (roomWithin items target levels)
      return placement.room

/-- An expression takes some room. -/
def HasRoom (items : List Item) (target : Target) (expression : Expression) (room : Variable) :
    Prop :=
  exists levels, roomWithin items target levels expression = some room

/-- What an item declares takes some room, and its fields or payloads have some
places. -/
def HasPlacement (items : List Item) (target : Target) (body : Body) (placement : Placement) :
    Prop :=
  exists levels, body.placement? (roomWithin items target levels) = some placement

/-! ### The bound on nesting -/

section Bounds

variable {items : List Item} {target : Target}

/-- Items have answers if each of them has one. -/
theorem mapM_eq_some_iff {Item Result : Type} {answer : Item -> Option Result} {list : List Item}
    {results : List Result} : list.mapM answer = some results ↔
      List.Forall₂ (fun item result => answer item = some result) list results := by
  induction list generalizing results with
  | nil =>
      rw [List.mapM_nil, List.forall₂_nil_left_iff]
      exact ⟨fun same => (Option.some.inj same).symm, fun same => congrArg some same.symm⟩
  | cons item rest ih =>
      rw [List.mapM_cons, Option.bind_eq_bind, Option.bind_eq_some_iff, List.forall₂_cons_left_iff]
      refine exists_congr fun result => ?_
      rw [Option.bind_eq_bind, Option.bind_eq_some_iff]
      constructor
      · rintro ⟨isResult, others, areOthers, same⟩
        exact ⟨others, isResult, ih.mp areOthers, (Option.some.inj same).symm⟩
      · rintro ⟨others, isResult, areOthers, rfl⟩
        exact ⟨isResult, others, ih.mpr areOthers, rfl⟩

theorem Body.placement?_mono {first second : Expression -> Option Variable}
    (more : forall expression room, first expression = some room -> second expression = some room)
    {body : Body} {placement : Placement} (found : body.placement? first = some placement) :
    body.placement? second = some placement := by
  cases body with
  | struct fields =>
      obtain ⟨slots, areSlots, same⟩ := Option.bind_eq_some_iff.mp found
      exact Option.bind_eq_some_iff.mpr
        ⟨slots, mapM_eq_some_iff.mpr ((mapM_eq_some_iff.mp areSlots).imp
          fun field : String × Expression => more field.2), same⟩
  | enumeration alternatives =>
      obtain ⟨slots, areSlots, same⟩ := Option.bind_eq_some_iff.mp found
      exact Option.bind_eq_some_iff.mpr
        ⟨slots, mapM_eq_some_iff.mpr ((mapM_eq_some_iff.mp areSlots).imp
          fun alternative : Alternative => more alternative.expression), same⟩
  | synonym meaning =>
      obtain ⟨room, isRoom, same⟩ := Option.bind_eq_some_iff.mp found
      exact Option.bind_eq_some_iff.mpr ⟨room, more meaning room isRoom, same⟩

/-- A greater bound does not change the room. -/
theorem roomWithin_mono {levels more : Nat} (atMost : levels ≤ more) {expression : Expression}
    {room : Variable} (found : roomWithin items target levels expression = some room) :
    roomWithin items target more expression = some room := by
  induction levels generalizing more expression room with
  | zero => cases found
  | succ levels ih =>
      cases more with
      | zero => cases atMost
      | succ more =>
          have further := fun inner innerRoom =>
            @ih more (Nat.le_of_succ_le_succ atMost) inner innerRoom
          cases expression with
          | unit => exact found
          | pointer pointee => exact found
          | name ident =>
              unfold roomWithin at found ⊢
              cases isItem : itemOf? items ident with
              | none =>
                  rw [isItem] at found
                  exact found
              | some item =>
                  rw [isItem] at found
                  obtain ⟨body, isBody, rest⟩ := Option.bind_eq_some_iff.mp found
                  obtain ⟨placement, isPlacement, same⟩ := Option.bind_eq_some_iff.mp rest
                  exact Option.bind_eq_some_iff.mpr ⟨body, isBody, Option.bind_eq_some_iff.mpr
                    ⟨placement, Body.placement?_mono further isPlacement, same⟩⟩
          | applied generic argument =>
              obtain ⟨item, isItem, inside⟩ := Option.bind_eq_some_iff.mp found
              obtain ⟨body, isBody, rest⟩ := Option.bind_eq_some_iff.mp inside
              obtain ⟨placement, isPlacement, same⟩ := Option.bind_eq_some_iff.mp rest
              exact Option.bind_eq_some_iff.mpr ⟨item, isItem, Option.bind_eq_some_iff.mpr
                ⟨body, isBody, Option.bind_eq_some_iff.mpr
                  ⟨placement, Body.placement?_mono further isPlacement, same⟩⟩⟩

/-- An expression takes one room only. -/
theorem HasRoom.unique {expression : Expression} {first second : Variable}
    (takesFirst : HasRoom items target expression first)
    (takesSecond : HasRoom items target expression second) : first = second := by
  obtain ⟨levels, found⟩ := takesFirst
  obtain ⟨more, foundMore⟩ := takesSecond
  have left := roomWithin_mono (Nat.le_max_left levels more) found
  have right := roomWithin_mono (Nat.le_max_right levels more) foundMore
  exact Option.some.inj (left.symm.trans right)

/-- What is declared is placed in one way only. -/
theorem HasPlacement.unique {body : Body} {first second : Placement}
    (takesFirst : HasPlacement items target body first)
    (takesSecond : HasPlacement items target body second) : first = second := by
  obtain ⟨levels, found⟩ := takesFirst
  obtain ⟨more, foundMore⟩ := takesSecond
  have left := Body.placement?_mono (fun _ _ => roomWithin_mono (Nat.le_max_left levels more)) found
  have right := Body.placement?_mono (fun _ _ => roomWithin_mono (Nat.le_max_right levels more))
    foundMore
  exact Option.some.inj (left.symm.trans right)

/-- Rooms that are known one by one are known within one bound. -/
theorem exists_levels {Item : Type} {expressionOf : Item -> Expression} {list : List Item}
    {rooms : List Variable}
    (each : List.Forall₂ (fun item room => HasRoom items target (expressionOf item) room) list rooms) :
    exists levels, List.Forall₂ (fun item room =>
      roomWithin items target levels (expressionOf item) = some room) list rooms := by
  induction each with
  | nil => exact ⟨0, .nil⟩
  | cons takes _ ih =>
      obtain ⟨levels, found⟩ := takes
      obtain ⟨more, others⟩ := ih
      exact ⟨max levels more, .cons (roomWithin_mono (Nat.le_max_left levels more) found)
        (others.imp fun _ _ => roomWithin_mono (Nat.le_max_right levels more))⟩

end Bounds

/-! ### The rules one by one -/

section Rules

variable {items : List Item} {target : Target} {item : Item} {body : Body} {placement : Placement}
  {rooms : List Variable}

theorem hasRoom_unit : HasRoom items target .unit ⟨0, 1⟩ := ⟨1, rfl⟩

theorem hasRoom_pointer (pointee : Expression) : HasRoom items target (.pointer pointee) (word target) :=
  ⟨1, rfl⟩

/-- An identifier that no item takes is one of the language itself. -/
theorem hasRoom_primitive {ident : String} {room : Variable} (free : itemOf? items ident = none)
    (isPrimitive : primitiveRoom target ident = some room) : HasRoom items target (.name ident) room := by
  refine ⟨1, ?_⟩
  unfold roomWithin
  rw [free]
  exact isPrimitive

theorem hasRoom_name {ident : String} (isItem : itemOf? items ident = some item)
    (isBody : item.bodyOf? none = some body) (placed : HasPlacement items target body placement) :
    HasRoom items target (.name ident) placement.room := by
  obtain ⟨levels, found⟩ := placed
  refine ⟨levels + 1, ?_⟩
  unfold roomWithin
  rw [isItem]
  exact Option.bind_eq_some_iff.mpr ⟨body, isBody, Option.bind_eq_some_iff.mpr ⟨placement, found, rfl⟩⟩

theorem hasRoom_applied {generic : String} {argument : Expression}
    (isItem : itemOf? items generic = some item) (isBody : item.bodyOf? (some argument) = some body)
    (placed : HasPlacement items target body placement) :
    HasRoom items target (.applied generic argument) placement.room := by
  obtain ⟨levels, found⟩ := placed
  exact ⟨levels + 1, Option.bind_eq_some_iff.mpr ⟨item, isItem, Option.bind_eq_some_iff.mpr
    ⟨body, isBody, Option.bind_eq_some_iff.mpr ⟨placement, found, rfl⟩⟩⟩⟩

theorem hasPlacement_struct {fields : List (String × Expression)}
    (each : List.Forall₂ (fun field room => HasRoom items target field.2 room) fields rooms) :
    HasPlacement items target (.struct fields) (structPlacement rooms) := by
  obtain ⟨levels, found⟩ := exists_levels each
  exact ⟨levels, Option.bind_eq_some_iff.mpr ⟨rooms, mapM_eq_some_iff.mpr found, rfl⟩⟩

theorem hasPlacement_enumeration {alternatives : List Alternative}
    (each : List.Forall₂ (fun alternative room =>
      HasRoom items target alternative.expression room) alternatives rooms) :
    HasPlacement items target (.enumeration alternatives) (enumPlacement rooms) := by
  obtain ⟨levels, found⟩ := exists_levels each
  exact ⟨levels, Option.bind_eq_some_iff.mpr ⟨rooms, mapM_eq_some_iff.mpr found, rfl⟩⟩

theorem hasPlacement_synonym {meaning : Expression} {room : Variable}
    (takes : HasRoom items target meaning room) :
    HasPlacement items target (.synonym meaning) ⟨room, []⟩ := by
  obtain ⟨levels, found⟩ := takes
  exact ⟨levels, Option.bind_eq_some_iff.mpr ⟨room, found, rfl⟩⟩

end Rules

/-! ### Agreement with the layout of types -/

theorem padded_eq {align : Nat} (isAlign : IsAlign align) (position : Nat) :
    padded position align = alignUp position align := by
  obtain ⟨exponent, _, rfl⟩ := isAlign
  have positive := Nat.two_pow_pos exponent
  rw [alignUp_two_pow]
  generalize 2 ^ exponent = align at positive
  have split := Nat.div_add_mod position align
  have small := Nat.mod_lt position positive
  unfold padded
  split
  next multiple =>
    have same : (position + (align - 1)) / align = position / align := by
      rw [← split, multiple, Nat.add_zero, Nat.mul_add_div positive,
        Nat.div_eq_of_lt (by omega : align - 1 < align), Nat.mul_div_cancel_left _ positive]
      rfl
    rw [same]
    omega
  next rest =>
    have raised : position + (align - 1) = align * (position / align + 1) + (position % align - 1) := by
      rw [Nat.mul_add, Nat.mul_one]
      omega
    rw [raised, Nat.mul_add_div positive, Nat.div_eq_of_lt (by omega : position % align - 1 < align),
      Nat.add_zero, Nat.mul_add, Nat.mul_one]
    omega

/-- Whole multiples of the alignment need no padding. -/
theorem padded_add {align base : Nat} (multiple : align ∣ base) (position : Nat) :
    padded (base + position) align = base + padded position align := by
  obtain ⟨count, rfl⟩ := multiple
  unfold padded
  rw [Nat.mul_add_mod]
  split
  · rfl
  · rw [Nat.add_assoc]

theorem padded_of_dvd {align size : Nat} (multiple : align ∣ size) : padded size align = size :=
  if_pos (Nat.mod_eq_zero_of_dvd multiple)

theorem strictest_eq (slots : List Variable) : strictest slots = greatestAlign slots 1 := by
  induction slots with
  | nil => rfl
  | cons slot rest ih =>
      change max slot.align (strictest rest) = greatestAlign rest (max 1 slot.align)
      rw [ih, Nat.max_comm 1, greatestAlign_max]

theorem greatestSize_max (slots : List Variable) (first second : Nat) :
    greatestSize slots (max first second) = max first (greatestSize slots second) := by
  induction slots generalizing second with
  | nil => rfl
  | cons slot others ih =>
      unfold greatestSize
      rw [Nat.max_assoc, ih]

theorem foldr_size_eq (slots : List Variable) :
    slots.foldr (fun slot least => max slot.size least) 0 = greatestSize slots 0 := by
  induction slots with
  | nil => rfl
  | cons slot rest ih =>
      rw [List.foldr_cons, ih]
      change _ = greatestSize rest (max 0 slot.size)
      rw [Nat.max_comm 0, greatestSize_max]

section Agreement

variable {slots : List Variable} (areAligns : forall slot, slot ∈ slots -> IsAlign slot.align)

include areAligns

theorem structEnd_eq (position : Nat) : structEnd slots position = sequenceEnd slots position := by
  induction slots generalizing position with
  | nil => rfl
  | cons slot rest ih =>
      obtain ⟨isAlign, others⟩ := List.forall_mem_cons.mp areAligns
      unfold structEnd sequenceEnd
      rw [padded_eq isAlign, ih others]

theorem structPlaces_eq (position : Nat) :
    structPlaces slots position = sequencePlaces slots position := by
  induction slots generalizing position with
  | nil => rfl
  | cons slot rest ih =>
      obtain ⟨isAlign, others⟩ := List.forall_mem_cons.mp areAligns
      unfold structPlaces sequencePlaces
      rw [padded_eq isAlign, ih others]

/-- Structs are laid out as types are whose fields follow one another. -/
theorem structPlacement_eq {shape : Shape} (notVariant : shape ≠ .variant) :
    structPlacement slots = ⟨exactRoom shape slots, exactPlaces shape slots⟩ := by
  have isAlign : IsAlign (greatestAlign slots 1) := isAlign_greatestAlign .one areAligns
  unfold structPlacement
  rw [exactRoom_of_ne notVariant, exactPlaces_of_ne notVariant, strictest_eq,
    structEnd_eq areAligns, structPlaces_eq areAligns, padded_eq isAlign]

omit areAligns in
/-- A struct of one field takes the room of the field. -/
theorem structPlacement_singleton {slot : Variable} (isAlign : IsAlign slot.align)
    (multiple : slot.align ∣ slot.size) : (structPlacement [slot]).room = slot := by
  have positive := isAlign.pos
  have align : strictest [slot] = slot.align := Nat.max_eq_left positive
  have ends : structEnd [slot] 0 = slot.size := by
    change padded 0 slot.align + slot.size = slot.size
    rw [padded_of_dvd (Nat.dvd_zero _), Nat.zero_add]
  unfold structPlacement
  rw [align, ends, padded_of_dvd multiple]

/-- Enumerations are laid out as variants are. -/
theorem enumPlacement_eq (areMultiples : forall slot, slot ∈ slots -> slot.align ∣ slot.size) :
    enumPlacement slots = ⟨exactRoom .variant (byte :: slots),
      (exactPlaces .variant (byte :: slots)).tail⟩ := by
  have isAlign : IsAlign (greatestAlign slots 1) := isAlign_greatestAlign .one areAligns
  have positive := isAlign.pos
  have structs : slots.map (fun payload => (structPlacement [payload]).room) = slots :=
    (List.map_congr_left fun slot member =>
      structPlacement_singleton (areAligns slot member) (areMultiples slot member)).trans
      (List.map_id slots)
  have union : unionRoom slots =
      ⟨padded (greatestSize slots 0) (greatestAlign slots 1), greatestAlign slots 1⟩ := by
    unfold unionRoom
    rw [foldr_size_eq, strictest_eq]
  have start : padded 1 (greatestAlign slots 1) = alignUp 1 (greatestAlign slots 1) :=
    padded_eq isAlign 1
  have whole (payload : Variable) (same : payload.align = greatestAlign slots 1) :
      (structPlacement [byte, payload]).room =
        ⟨padded (padded 1 (greatestAlign slots 1) + payload.size) (greatestAlign slots 1),
          greatestAlign slots 1⟩ := by
    have align : strictest [byte, payload] = greatestAlign slots 1 := by
      change max 1 (max payload.align 1) = _
      omega
    have ends : structEnd [byte, payload] 0 = padded 1 payload.align + payload.size := rfl
    unfold structPlacement
    rw [align, ends, same]
  unfold enumPlacement
  rw [structs]
  dsimp only
  rw [whole (unionRoom slots) (by rw [union]), union]
  have multiple := isAlign.dvd_alignUp 1
  change (⟨⟨padded (padded 1 (greatestAlign slots 1) + padded (greatestSize slots 0)
      (greatestAlign slots 1)) (greatestAlign slots 1), greatestAlign slots 1⟩,
      slots.map fun _ => padded 1 (greatestAlign slots 1)⟩ : Placement) =
    ⟨⟨alignUp (alignUp 1 (greatestAlign slots 1) + greatestSize slots 0)
      (max 1 (greatestAlign slots 1)), max 1 (greatestAlign slots 1)⟩,
      slots.map fun _ => alignUp 1 (greatestAlign slots 1)⟩
  rw [start, Nat.max_eq_right positive, ← padded_eq isAlign (_ + _), padded_add multiple,
    padded_add multiple, padded_of_dvd]
  rw [padded_eq isAlign]
  exact isAlign.dvd_alignUp _

end Agreement

end Companion
end PackedJson
