import PackedJson.Proofs.TextSchema.Planning

namespace PackedJson

/-!
Room that is known while a text schema is drafted.

A type spans some room if neither it nor any type inside it ever takes more,
whatever is drafted afterwards.  A declared type spans the room of its parts
one by one, each with a gap in front, so that the room can be added up part by
part.
-/

namespace Layout

/-- The room of variables with a gap in front of each. -/
def totalRoom : List Variable -> Nat
  | [] => 0
  | slot :: rest => slot.size + 7 + totalRoom rest

theorem alignUp_le {align : Nat} (isAlign : IsAlign align) (position : Nat) :
    alignUp position align ≤ position + 7 := by
  have small := isAlign.le_eight
  unfold alignUp
  dsimp only
  omega

theorem sequenceEnd_le {slots : List Variable}
    (areAligns : forall slot, slot ∈ slots -> IsAlign slot.align) (position : Nat) :
    sequenceEnd slots position ≤ position + totalRoom slots := by
  induction slots generalizing position with
  | nil => exact Nat.le_refl _
  | cons slot rest ih =>
      have raised := alignUp_le (areAligns slot List.mem_cons_self) position
      have others := ih (fun other member => areAligns other (List.mem_cons_of_mem _ member))
        (alignUp position slot.align + slot.size)
      unfold sequenceEnd totalRoom
      omega

theorem greatestSize_le (slots : List Variable) (least : Nat) :
    greatestSize slots least ≤ least + totalRoom slots := by
  induction slots generalizing least with
  | nil => exact Nat.le_refl _
  | cons slot rest ih =>
      have others := ih (max least slot.size)
      unfold greatestSize totalRoom
      omega

section Aligned

variable {slots : List Variable} (areAligns : forall slot, slot ∈ slots -> IsAlign slot.align)

include areAligns

theorem isAlign_exactRoom (shape : Shape) : IsAlign (exactRoom shape slots).align := by
  have sequence : IsAlign (greatestAlign slots 1) := isAlign_greatestAlign .one areAligns
  cases shape with
  | variant =>
      cases slots with
      | nil => exact sequence
      | cons tag alternatives =>
          exact (areAligns tag List.mem_cons_self).maximum (isAlign_greatestAlign .one
            fun other member => areAligns other (List.mem_cons_of_mem _ member))
  | _ => exact sequence

/-- The size of an instance is a multiple of its alignment. -/
theorem dvd_exactRoom (shape : Shape) :
    (exactRoom shape slots).align ∣ (exactRoom shape slots).size := by
  have isAlign := isAlign_exactRoom areAligns shape
  cases shape with
  | variant =>
      cases slots with
      | nil => exact isAlign.dvd_alignUp _
      | cons tag alternatives => exact isAlign.dvd_alignUp _
  | _ => exact isAlign.dvd_alignUp _

/-- An instance takes no more than the room of its variables and of a gap at
its end. -/
theorem exactRoom_le (shape : Shape) : (exactRoom shape slots).size ≤ totalRoom slots + 7 := by
  have isAlign := isAlign_exactRoom areAligns shape
  have sequence : alignUp (sequenceEnd slots 0) (greatestAlign slots 1) ≤ totalRoom slots + 7 := by
    have raised := alignUp_le (isAlign_greatestAlign .one areAligns) (sequenceEnd slots 0)
    have ends := sequenceEnd_le areAligns 0
    omega
  cases shape with
  | variant =>
      cases slots with
      | nil => exact sequence
      | cons tag alternatives =>
          have place := alignUp_le (isAlign_greatestAlign .one fun other member =>
            areAligns other (List.mem_cons_of_mem _ member)) tag.size
          have greatest := greatestSize_le alternatives 0
          have raised := alignUp_le isAlign
            (alignUp tag.size (greatestAlign alternatives 1) + greatestSize alternatives 0)
          change alignUp _ _ ≤ tag.size + 7 + totalRoom alternatives + 7
          exact Nat.le_trans raised (by omega)
  | _ => exact sequence

end Aligned

end Layout

namespace TextSchema

open Builder Layout

theorem isAlign_scalarVariable (target : Target) (builtin : Builtin) :
    IsAlign (scalarVariable target builtin).align := by
  have known (exponent : Nat) (small : exponent ≤ 3) : IsAlign (2 ^ exponent) :=
    ⟨exponent, small, rfl⟩
  cases target <;> cases builtin <;>
    first
    | exact known 0 (by decide)
    | exact known 1 (by decide)
    | exact known 2 (by decide)
    | exact known 3 (by decide)

namespace Draft

variable {draft later : Draft} {ref : Ref} {target : Target} {sizeOf : Ref -> Variable}

/-- Sizes are exact, and variables are aligned as variables may be. -/
structure Measures (draft : Draft) (target : Target) (sizeOf : Ref -> Variable) : Prop where
  exact : draft.Exact target sizeOf
  aligned : forall ref, IsAlign (sizeOf ref).align

/-- Exact sizes of a complete draft come with alignments. -/
theorem Complete.measures {root : Ref} (complete : draft.Complete root)
    (exact : draft.Exact target sizeOf) : draft.Measures target sizeOf := by
  refine ⟨exact, fun ref => ?_⟩
  induction ref using complete.wellFounded.induction with
  | h ref ih =>
      have pointer {other : Ref} (marked : draft.isByReference other = true) :
          IsAlign (sizeOf other).align := by
        rw [exact other, if_pos marked]
        exact .pointerWidth target
      cases marked : draft.isByReference ref with
      | true => exact pointer marked
      | false =>
          have parts : forall slot, slot ∈ (draft.outline ref).parts.map
              (fun part => sizeOf part.type) -> IsAlign slot.align := by
            intro slot member
            obtain ⟨part, isPart, rfl⟩ := List.mem_map.mp member
            cases inner : draft.isByReference part.type with
            | true => exact pointer inner
            | false => exact ih part.type ⟨List.mem_map_of_mem isPart, inner⟩
          rw [exact ref, if_neg (marked ▸ Bool.false_ne_true)]
          unfold room
          split
          · exact isAlign_scalarVariable target _
          · exact isAlign_exactRoom parts _

/-- The size of a scalar is a multiple of its alignment. -/
theorem dvd_scalarVariable (target : Target) (builtin : Builtin) :
    (scalarVariable target builtin).align ∣ (scalarVariable target builtin).size := by
  cases target <;> cases builtin <;> decide

/-- Sizes of variables are multiples of their alignments. -/
theorem Measures.dvd (measures : draft.Measures target sizeOf) (ref : Ref) :
    (sizeOf ref).align ∣ (sizeOf ref).size := by
  rw [measures.exact ref]
  split
  · exact Nat.dvd_refl _
  · unfold room
    split
    · exact dvd_scalarVariable target _
    · refine dvd_exactRoom (fun slot member => ?_) _
      obtain ⟨part, _, rfl⟩ := List.mem_map.mp member
      exact measures.aligned part.type

/-- What a type reaches is the type itself or is reached from a successor. -/
theorem Reaches.of_successor {root : Ref} (reaches : draft.Reaches root ref) :
    ref = root ∨ exists successor, successor ∈ (draft.outline root).successors ∧
      draft.Reaches successor ref := by
  induction reaches with
  | root => exact .inl rfl
  | next _ member ih =>
      rcases ih with rfl | ⟨successor, isSuccessor, reaches⟩
      · exact .inr ⟨_, member, .root⟩
      · exact .inr ⟨successor, isSuccessor, .next reaches member⟩

/-- Neither a type nor any type inside it takes more than some room, in a draft
and in all that comes of it. -/
def Spans (draft : Draft) (ref : Ref) (bound : Nat) : Prop :=
  8 ≤ bound ∧ forall later, draft.Keeps later -> forall target sizeOf,
    later.Measures target sizeOf -> forall inner, later.Reaches ref inner ->
      (later.room target sizeOf inner).size ≤ bound

variable {bound more : Nat}

theorem Keeps.spans (keeps : draft.Keeps later) (spans : draft.Spans ref bound) :
    later.Spans ref bound :=
  ⟨spans.1, fun last keepsLater => spans.2 last (keeps.trans keepsLater)⟩

theorem Spans.mono (spans : draft.Spans ref bound) (less : bound ≤ more) : draft.Spans ref more :=
  ⟨Nat.le_trans spans.1 less, fun later keeps target sizeOf measures inner reaches =>
    Nat.le_trans (spans.2 later keeps target sizeOf measures inner reaches) less⟩

/-- Variables of a type take no more room than its instances or a pointer. -/
theorem Spans.size_le (spans : draft.Spans ref bound) (measures : draft.Measures target sizeOf) :
    (sizeOf ref).size ≤ bound := by
  rw [measures.exact ref]
  split
  · have least := spans.1
    cases target with
    | wasm32 => exact Nat.le_trans (by decide : (4 : Nat) ≤ 8) least
    | native => exact least
  · exact spans.2 draft (.refl draft) target sizeOf measures ref .root

/-- A type spans some room if it takes no more itself and its successors span
no more. -/
theorem Spans.intro (least : 8 ≤ bound)
    (own : forall later, draft.Keeps later -> forall target sizeOf,
      later.Measures target sizeOf -> (later.room target sizeOf ref).size ≤ bound)
    (inside : forall later, draft.Keeps later -> forall successor,
      successor ∈ (later.outline ref).successors -> later.Spans successor bound) :
    draft.Spans ref bound := by
  refine ⟨least, fun later keeps target sizeOf measures inner reaches => ?_⟩
  rcases reaches.of_successor with rfl | ⟨successor, member, reaches⟩
  · exact own later keeps target sizeOf measures
  · exact (inside later keeps successor member).2 later (.refl later) target sizeOf measures inner
      reaches

theorem spans_builtin (draft : Draft) (builtin : Builtin) : draft.Spans (.builtin builtin) 24 := by
  refine ⟨by decide, fun later _ target sizeOf measures inner reaches => ?_⟩
  obtain ⟨other, rfl⟩ : exists other, inner = .builtin other := by
    induction reaches with
    | root => exact ⟨builtin, rfl⟩
    | next _ member ih =>
        obtain ⟨other, rfl⟩ := ih
        exact builtin_of_successor member
  exact measures.exact.room_builtin other

/-- Arrays take the room of a pointer and two numbers. -/
theorem Spans.array (spans : draft.Spans ref bound) (enough : 24 ≤ bound) :
    draft.Spans (.applied .array ref) bound := by
  refine .intro spans.1 (fun later _ target sizeOf measures => ?_)
    fun later keeps successor member => ?_
  · -- An array has the parts of a text.
    have same : later.room target sizeOf (.applied .array ref) =
        later.room target sizeOf (.builtin .string) := rfl
    rw [same]
    exact Nat.le_trans (measures.exact.room_builtin .string) enough
  · have isSuccessor : successor ∈
      [Ref.builtin .pointer, .builtin .size, .builtin .size, ref] := member
    simp only [List.mem_cons, List.not_mem_nil, or_false] at isSuccessor
    rcases isSuccessor with rfl | rfl | rfl | rfl
    · exact (later.spans_builtin .pointer).mono enough
    · exact (later.spans_builtin .size).mono enough
    · exact (later.spans_builtin .size).mono enough
    · exact keeps.spans spans

/-- Some parts span some room altogether, with a gap in front of each. -/
def SpansParts (draft : Draft) : List Part -> Nat -> Prop
  | [], _ => True
  | part :: rest, total => exists bound others, draft.Spans part.type bound ∧
      SpansParts draft rest others ∧ bound + 7 + others ≤ total

variable {parts : List Part} {total : Nat}

theorem Keeps.spansParts (keeps : draft.Keeps later) (spans : draft.SpansParts parts total) :
    later.SpansParts parts total := by
  induction parts generalizing total with
  | nil => trivial
  | cons part rest ih =>
      obtain ⟨bound, others, own, inRest, enough⟩ := spans
      exact ⟨bound, others, keeps.spans own, ih inRest, enough⟩

theorem SpansParts.part (spans : draft.SpansParts parts total) {part : Part}
    (member : part ∈ parts) : draft.Spans part.type total := by
  induction parts generalizing total with
  | nil => cases member
  | cons head rest ih =>
      obtain ⟨bound, others, own, inRest, enough⟩ := spans
      rcases List.mem_cons.mp member with rfl | inTail
      · exact own.mono (by omega)
      · exact (ih inRest inTail).mono (by omega)

theorem SpansParts.totalRoom_le (spans : draft.SpansParts parts total)
    (measures : draft.Measures target sizeOf) :
    totalRoom (parts.map fun part => sizeOf part.type) ≤ total := by
  induction parts generalizing total with
  | nil => exact Nat.zero_le total
  | cons part rest ih =>
      obtain ⟨bound, others, own, inRest, enough⟩ := spans
      have size := own.size_le measures
      have inTail := ih inRest
      rw [List.map_cons, totalRoom]
      omega

/-- A type that is no scalar takes no more than the room of its parts. -/
theorem SpansParts.room_le (spans : draft.SpansParts (draft.outline ref).parts total)
    (measures : draft.Measures target sizeOf)
    (composite : (draft.outline ref).builtin = true -> (draft.outline ref).parts ≠ []) :
    (draft.room target sizeOf ref).size ≤ total + 7 := by
  rw [room_of_parts target sizeOf composite]
  have areAligns : forall slot, slot ∈ (draft.outline ref).parts.map
      (fun part => sizeOf part.type) -> IsAlign slot.align := by
    intro slot member
    obtain ⟨part, _, rfl⟩ := List.mem_map.mp member
    exact measures.aligned part.type
  exact Nat.le_trans (exactRoom_le areAligns _)
    (Nat.add_le_add_right (spans.totalRoom_le measures) 7)

/-- An instance of a generic builtin takes the room of its parts. -/
theorem Spans.applied {generic : Builtin} (spans : draft.Spans ref bound)
    (parts : forall later, draft.Keeps later ->
      later.SpansParts (instanceOutline generic ref).parts total)
    (least : bound ≤ more) (enough : total + 7 ≤ more) :
    draft.Spans (.applied generic ref) more := by
  have known : (instanceOutline generic ref).builtin = false ∧
      (instanceOutline generic ref).argument = some ref := by
    cases generic <;> exact ⟨rfl, rfl⟩
  refine .intro (Nat.le_trans spans.1 least) (fun later keeps target sizeOf measures => ?_)
    fun later keeps successor member => ?_
  · have laterParts : later.SpansParts (later.outline (.applied generic ref)).parts total :=
      parts later keeps
    refine Nat.le_trans (laterParts.room_le measures fun isBuiltin => ?_) enough
    cases known.1.symm.trans isBuiltin
  · rcases List.mem_append.mp member with isPart | isArgument
    · obtain ⟨part, inParts, rfl⟩ := List.mem_map.mp isPart
      exact ((parts later keeps).part inParts).mono (by omega)
    · change successor ∈ (instanceOutline generic ref).argument.toList at isArgument
      rw [known.2] at isArgument
      cases List.mem_singleton.mp isArgument
      exact (keeps.spans spans).mono least

/-- Options take the room of a tag and of what may be there. -/
theorem Spans.option (spans : draft.Spans ref bound) :
    draft.Spans (.applied .option ref) (bound + 76) := by
  refine @Spans.applied draft ref bound _ (bound + 69) .option spans (fun later keeps => ?_) (by omega)
    (Nat.le_refl _)
  exact ⟨24, bound + 38, later.spans_builtin .tag,
    ⟨24, bound + 7, later.spans_builtin .unit,
      ⟨bound, 0, keeps.spans spans, trivial, Nat.le_refl _⟩, by omega⟩, by omega⟩

/-- Results take the room of a tag, of a value and of a text. -/
theorem Spans.result (spans : draft.Spans ref bound) :
    draft.Spans (.applied .result ref) (bound + 76) := by
  refine @Spans.applied draft ref bound _ (bound + 69) .result spans (fun later keeps => ?_) (by omega)
    (Nat.le_refl _)
  exact ⟨24, bound + 38, later.spans_builtin .tag,
    ⟨bound, 31, keeps.spans spans,
      ⟨24, 0, later.spans_builtin .string, trivial, Nat.le_refl _⟩, by omega⟩, by omega⟩

/-- Maps take the room of three arrays. -/
theorem Spans.map (spans : draft.Spans ref bound) :
    draft.Spans (.applied .map ref) (bound + 100) := by
  refine @Spans.applied draft ref bound _ (bound + 93) .map spans (fun later keeps => ?_) (by omega)
    (Nat.le_refl _)
  have values : later.Spans ref (bound + 24) := (keeps.spans spans).mono (by omega)
  exact ⟨24, bound + 62, (later.spans_builtin .hash).array (Nat.le_refl _),
    ⟨bound + 24, 31, values.array (by omega),
      ⟨24, 0, (later.spans_builtin .string).array (Nat.le_refl _), trivial, Nat.le_refl _⟩,
      by omega⟩, by omega⟩

/-- Declared types take the room of their parts. -/
theorem SpansParts.declared {index : Nat} {sketch : Sketch}
    (spans : draft.SpansParts parts total) (found : draft.sketches[index]? = some sketch)
    (hasParts : sketch.parts = some parts) (enough : total + 8 ≤ bound) :
    draft.Spans (.declared index) bound := by
  have known (later : Draft) (keeps : draft.Keeps later) :
      (later.outline (.declared index)).parts = parts ∧
        (later.outline (.declared index)).builtin = false ∧
        (later.outline (.declared index)).argument = none := by
    obtain ⟨laterSketch, isLater, becomes⟩ := keeps index sketch found
    rw [outline_of_some isLater]
    refine ⟨?_, rfl, rfl⟩
    rw [Sketch.outline, becomes.parts parts hasParts]
    rfl
  refine .intro (by omega) (fun later keeps target sizeOf measures => ?_)
    fun later keeps successor member => ?_
  · obtain ⟨same, notBuiltin, _⟩ := known later keeps
    have laterSpans : later.SpansParts (later.outline (.declared index)).parts total := by
      rw [same]
      exact keeps.spansParts spans
    have room := laterSpans.room_le measures fun isBuiltin => by
      cases notBuiltin.symm.trans isBuiltin
    omega
  · obtain ⟨same, _, noArgument⟩ := known later keeps
    rw [Outline.successors, same, noArgument] at member
    rcases List.mem_append.mp member with isPart | isArgument
    · obtain ⟨part, inParts, rfl⟩ := List.mem_map.mp isPart
      exact ((keeps.spansParts spans).part inParts).mono (by omega)
    · cases isArgument

end Draft

end TextSchema
end PackedJson
