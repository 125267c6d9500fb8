import PackedJson.Proofs.Schema.Arranging
import PackedJson.Proofs.TextSchema.Grounding
import PackedJson.Proofs.TextSchema.Outline

namespace PackedJson
namespace TextSchema

open Builder Layout

/-!
The exact sizes of the types of a draft.

A type takes as much room as the rules of the layout say, in numbers of any
size, and whether or not a layout succeeds.  That no type contains itself
inline is what makes the rules a definition: the sizes are given by recursion
on what types contain inline.
-/

/-- The variable of a scalar, which is aligned to its own size. -/
def scalarVariable (target : Target) (builtin : Builtin) : Variable :=
  match (scalarSizes target).lookup builtin with
  | some size => ⟨size, if size = 0 then 1 else size⟩
  | none => ⟨0, 1⟩

theorem scalarVariable_small (target : Target) (builtin : Builtin) :
    (scalarVariable target builtin).size ≤ 8 := by
  cases target <;> cases builtin <;> decide

/-- A drafted text schema: all parts of its declared types are known, and its
root is among its types. -/
structure Draft.Complete (draft : Draft) (root : Ref) : Prop where
  settles : forall index, index < draft.sketches.length -> draft.Settles index
  shelters : draft.Shelters root

/-- What drafting a text schema ends with is complete. -/
theorem complete_of_draftDocument {document : Json} {rootName : String} {drafted : Drafted Ref}
    (ends : draftDocument document rootName = .ok drafted) :
    drafted.draft.Complete drafted.result := by
  have sound : Draft.empty.Sound := nofun
  obtain ⟨_, evolves, shelters⟩ := drafts_within document (nestingBound document) document ""
    rootName none sound nofun drafted ends
  exact ⟨fun index bound => evolves.settles index (Nat.zero_le index) bound, shelters⟩

namespace Draft

variable {draft : Draft} {ref : Ref}

theorem isByReference_eq (draft : Draft) (ref : Ref) : draft.isByReference ref =
    (draft.outline ref).flags.contains TypeFlags.storedByReference := by
  cases ref with
  | builtin builtin =>
      have unmarked : FlagSet.contains TypeFlags.builtin TypeFlags.storedByReference = false := by
        decide
      cases builtin <;> exact unmarked.symm
  | declared index =>
      rw [isByReference, sketch?]
      cases found : draft.sketches[index]? with
      | none =>
          rw [outline_of_none found]
          decide
      | some sketch =>
          rw [outline_of_some found]
          rfl
  | applied generic argument =>
      have unmarked : FlagSet.contains FlagSet.empty TypeFlags.storedByReference = false := by decide
      cases generic <;> exact unmarked.symm

/-- A type contains instances of another one inline. -/
def Inlines (draft : Draft) (inner outer : Ref) : Prop :=
  inner ∈ (draft.outline outer).parts.map Part.type ∧ draft.isByReference inner = false

theorem acc_builtin (draft : Draft) (builtin : Builtin) : Acc draft.Inlines (.builtin builtin) := by
  -- Scalars contain nothing, and texts contain scalars.
  have scalar {builtin : Builtin} (different : builtin ≠ .string) :
      Acc draft.Inlines (.builtin builtin) := by
    refine .intro _ fun inner inlines => ?_
    cases builtin with
    | string => exact absurd rfl different
    | _ => cases inlines.1
  cases builtin with
  | string =>
      refine .intro _ fun inner inlines => ?_
      have isPart : inner ∈ [Ref.builtin .pointer, .builtin .size, .builtin .size] := inlines.1
      simp only [List.mem_cons, List.not_mem_nil, or_false] at isPart
      rcases isPart with rfl | rfl | rfl <;> exact scalar (by decide)
  | _ => exact scalar (by decide)

theorem acc_array (draft : Draft) (element : Ref) :
    Acc draft.Inlines (.applied .array element) := by
  refine .intro _ fun inner inlines => ?_
  have isPart : inner ∈ [Ref.builtin .pointer, .builtin .size, .builtin .size] := inlines.1
  simp only [List.mem_cons, List.not_mem_nil, or_false] at isPart
  rcases isPart with rfl | rfl | rfl <;> exact draft.acc_builtin _

/-- What an instance contains inline comes to an end if what its argument
contains does. -/
theorem acc_applied (draft : Draft) (generic : Builtin) {argument : Ref}
    (acc : draft.isByReference argument = false -> Acc draft.Inlines argument) :
    Acc draft.Inlines (.applied generic argument) := by
  cases generic with
  | option =>
      refine .intro _ fun inner ⟨member, unmarked⟩ => ?_
      have isPart : inner ∈ [Ref.builtin .tag, .builtin .unit, argument] := member
      simp only [List.mem_cons, List.not_mem_nil, or_false] at isPart
      rcases isPart with rfl | rfl | rfl
      · exact draft.acc_builtin _
      · exact draft.acc_builtin _
      · exact acc unmarked
  | result =>
      refine .intro _ fun inner ⟨member, unmarked⟩ => ?_
      have isPart : inner ∈ [Ref.builtin .tag, argument, .builtin .string] := member
      simp only [List.mem_cons, List.not_mem_nil, or_false] at isPart
      rcases isPart with rfl | rfl | rfl
      · exact draft.acc_builtin _
      · exact acc unmarked
      · exact draft.acc_builtin _
  | map =>
      refine .intro _ fun inner ⟨member, _⟩ => ?_
      have isPart : inner ∈ [Ref.applied .array (.builtin .hash), .applied .array argument,
        .applied .array (.builtin .string)] := member
      simp only [List.mem_cons, List.not_mem_nil, or_false] at isPart
      rcases isPart with rfl | rfl | rfl <;> exact draft.acc_array _
  | _ =>
      refine .intro _ fun inner ⟨member, _⟩ => ?_
      have isPart : inner ∈ [Ref.builtin .pointer, .builtin .size, .builtin .size] := member
      simp only [List.mem_cons, List.not_mem_nil, or_false] at isPart
      rcases isPart with rfl | rfl | rfl <;> exact draft.acc_builtin _

theorem Grounds.acc (grounds : draft.Grounds ref) : Acc draft.Inlines ref := by
  induction grounds with
  | builtin builtin => exact draft.acc_builtin builtin
  | applied generic _ ih => exact draft.acc_applied generic ih
  | @declared index sketch parts isSketch hasParts _ ih =>
      refine .intro _ fun inner ⟨member, unmarked⟩ => ?_
      rw [outline_of_some isSketch, Sketch.outline, hasParts] at member
      obtain ⟨part, inParts, rfl⟩ := List.mem_map.mp member
      exact ih part inParts unmarked

/-- No type of a complete draft contains itself inline. -/
theorem Complete.wellFounded {root : Ref} (complete : draft.Complete root) :
    WellFounded draft.Inlines := by
  refine ⟨fun ref => ?_⟩
  induction ref with
  | builtin builtin => exact draft.acc_builtin builtin
  | declared index =>
      by_cases bound : index < draft.sketches.length
      · exact (complete.settles index bound).grounds.acc
      · refine .intro _ fun inner ⟨member, _⟩ => ?_
        rw [outline_of_none (List.getElem?_eq_none (Nat.le_of_not_lt bound))] at member
        cases member
  | applied generic argument ih => exact draft.acc_applied generic fun _ => ih

/-! ### Sizes -/

/-- The room of an instance, given the variables of other types. -/
def room (draft : Draft) (target : Target) (sizeOf : Ref -> Variable) (ref : Ref) : Variable :=
  match ref, (draft.outline ref).parts with
  | .builtin builtin, [] => scalarVariable target builtin
  | ref, parts => exactRoom (draft.outline ref).shape (parts.map fun part => sizeOf part.type)

/-- All variables take the room that the rules say. -/
def Exact (draft : Draft) (target : Target) (sizeOf : Ref -> Variable) : Prop :=
  forall ref, sizeOf ref = if draft.isByReference ref then
    ⟨target.pointerWidth, target.pointerWidth⟩ else draft.room target sizeOf ref

/-- What is no scalar takes the room of its parts. -/
theorem room_of_parts (target : Target) (sizeOf : Ref -> Variable)
    (composite : (draft.outline ref).builtin = true -> (draft.outline ref).parts ≠ []) :
    draft.room target sizeOf ref = exactRoom (draft.outline ref).shape
      ((draft.outline ref).parts.map fun part => sizeOf part.type) := by
  unfold room
  split
  next builtin noParts =>
    have isBuiltin : (draft.outline (.builtin builtin)).builtin = true := by
      cases builtin <;> rfl
    exact absurd noParts (composite isBuiltin)
  next => rfl

theorem room_congr (target : Target) {sizeOf other : Ref -> Variable}
    (same : forall inner, inner ∈ (draft.outline ref).parts.map Part.type ->
      sizeOf inner = other inner) : draft.room target sizeOf ref = draft.room target other ref := by
  have sameParts : (draft.outline ref).parts.map (fun part => sizeOf part.type) =
      (draft.outline ref).parts.map fun part => other part.type :=
    List.map_congr_left fun part member => same part.type (List.mem_map_of_mem member)
  unfold room
  split
  · rfl
  · rw [sameParts]

/-- There are exact sizes. -/
theorem Complete.exists_exact {root : Ref} (complete : draft.Complete root) (target : Target) :
    exists sizeOf, draft.Exact target sizeOf := by
  let pointer : Variable := ⟨target.pointerWidth, target.pointerWidth⟩
  -- The sizes of what is contained inline are known when they are needed.
  let inside (outer : Ref) (known : forall inner, draft.Inlines inner outer -> Variable)
      (inner : Ref) : Variable :=
    if draft.isByReference inner = true then pointer
    else if inlines : inner ∈ (draft.outline outer).parts.map Part.type ∧
        draft.isByReference inner = false then known inner inlines
    else ⟨0, 1⟩
  let step (outer : Ref) (known : forall inner, draft.Inlines inner outer -> Variable) : Variable :=
    if draft.isByReference outer then pointer else draft.room target (inside outer known) outer
  let sizeOf : Ref -> Variable := complete.wellFounded.fix step
  have unfolds (ref : Ref) : sizeOf ref = step ref fun inner _ => sizeOf inner :=
    complete.wellFounded.fix_eq step ref
  refine ⟨sizeOf, fun ref => (unfolds ref).trans ?_⟩
  have same : draft.room target (inside ref fun inner _ => sizeOf inner) ref =
      draft.room target sizeOf ref := by
    refine room_congr target fun inner member => ?_
    cases marked : draft.isByReference inner with
    | true =>
        have isPointer : sizeOf inner = pointer :=
          (unfolds inner).trans (if_pos marked)
        exact (if_pos marked).trans isPointer.symm
    | false =>
        have unmarked : ¬ draft.isByReference inner = true := by
          rw [marked]
          exact Bool.false_ne_true
        exact (if_neg unmarked).trans (dif_pos ⟨member, marked⟩)
  change (if draft.isByReference ref then pointer else
    draft.room target (inside ref fun inner _ => sizeOf inner) ref) = _
  rw [same]

theorem Exact.builtin {target : Target} {sizeOf : Ref -> Variable} (exact : draft.Exact target sizeOf)
    {builtin : Builtin} (different : builtin ≠ .string) :
    sizeOf (.builtin builtin) = scalarVariable target builtin := by
  refine (exact (.builtin builtin)).trans ?_
  cases builtin with
  | string => exact absurd rfl different
  | _ => rfl

/-- Texts take the room of a pointer and two numbers. -/
theorem Exact.room_string {target : Target} {sizeOf : Ref -> Variable}
    (exact : draft.Exact target sizeOf) : draft.room target sizeOf (.builtin .string) =
      ⟨3 * target.pointerWidth, target.pointerWidth⟩ := by
  have parts : draft.room target sizeOf (.builtin .string) = exactRoom .array
      [sizeOf (.builtin .pointer), sizeOf (.builtin .size), sizeOf (.builtin .size)] := rfl
  rw [parts, exact.builtin (by decide), exact.builtin (by decide)]
  cases target <;> decide

/-- Arrays have the parts of a text. -/
theorem Exact.room_array {target : Target} {sizeOf : Ref -> Variable}
    (exact : draft.Exact target sizeOf) (element : Ref) :
    draft.room target sizeOf (.applied .array element) =
      ⟨3 * target.pointerWidth, target.pointerWidth⟩ :=
  exact.room_string

/-- Builtins are small. -/
theorem Exact.room_builtin {target : Target} {sizeOf : Ref -> Variable}
    (exact : draft.Exact target sizeOf) (builtin : Builtin) :
    (draft.room target sizeOf (.builtin builtin)).size ≤ 24 := by
  have scalar := scalarVariable_small target builtin
  cases builtin with
  | string =>
      rw [exact.room_string]
      cases target <;> decide
  | _ => exact Nat.le_trans scalar (by decide)

end Draft

end TextSchema
end PackedJson
