import PackedJson.Proofs.Schema.Arranging

namespace PackedJson

/-!
Fields that are stored by hash.

Sorting is stable, so that the fields of one hash keep the order of their
declaration when a struct is laid out.  A name has one hash.  The first field
of a name is therefore the same among all fields in the order of declaration,
among those of its hash, and in the run of that hash where the fields are
stored.
-/

namespace Sorted

variable {Item : Type} {key : Item -> Nat} {keep : Item -> Bool}

theorem insertBy_cons (item head : Item) (rest : List Item) :
    insertBy key item (head :: rest) =
      if key item ≤ key head then item :: head :: rest else head :: insertBy key item rest :=
  rfl

theorem filter_insertBy {items : List Item} (item : Item)
    (sorted : items.Pairwise fun first second => key first ≤ key second) :
    (insertBy key item items).filter keep =
      if keep item then insertBy key item (items.filter keep) else items.filter keep := by
  induction items with
  | nil => cases kept : keep item <;> simp [insertBy, kept]
  | cons head rest ih =>
      have parts := List.pairwise_cons.mp sorted
      rw [insertBy_cons]
      split
      next smaller =>
        cases keptItem : keep item with
        | false => simp [keptItem]
        | true =>
            rw [List.filter_cons, if_pos keptItem, if_pos rfl]
            -- no kept item is smaller, so that the item stays in front
            cases kept : (head :: rest).filter keep with
            | nil => rfl
            | cons next others =>
                have inItems : next ∈ (head :: rest).filter keep := kept ▸ List.mem_cons_self
                have notSmaller : key item ≤ key next := by
                  cases List.mem_cons.mp (List.mem_of_mem_filter inItems) with
                  | inl same => exact same ▸ smaller
                  | inr later => exact Nat.le_trans smaller (parts.1 next later)
                rw [insertBy_cons, if_pos notSmaller]
      next larger =>
        rw [List.filter_cons, List.filter_cons, ih parts.2]
        cases keptHead : keep head with
        | false => rfl
        | true =>
            simp only [if_true, insertBy_cons, if_neg larger]
            split <;> rfl

/-- Leaving items out does not change the order of the others. -/
theorem filter_sortBy (items : List Item) :
    (sortBy key items).filter keep = sortBy key (items.filter keep) := by
  induction items with
  | nil => rfl
  | cons head rest ih =>
      change (insertBy key head (sortBy key rest)).filter keep = _
      rw [filter_insertBy head (pairwise_sortBy key rest), ih, List.filter_cons]
      split <;> rfl

/-- Sorting is stable: items of equal keys keep their order. -/
theorem filter_sortBy_of_eq (items : List Item)
    (same : forall first second, keep first = true -> keep second = true -> key first = key second) :
    (sortBy key items).filter keep = items.filter keep := by
  rw [filter_sortBy]
  apply sortBy_of_pairwise
  have kept : (items.filter keep).Pairwise fun first second => keep first = true ∧ keep second = true :=
    List.pairwise_of_forall_mem_list fun first inFirst second inSecond =>
      ⟨(List.mem_filter.mp inFirst).2, (List.mem_filter.mp inSecond).2⟩
  exact kept.imp fun both => Nat.le_of_eq (same _ _ both.1 both.2)

theorem insertBy_map {Other : Type} {key : Other -> Nat} (view : Item -> Other) (item : Item)
    (items : List Item) :
    insertBy key (view item) (items.map view) =
      (insertBy (fun item => key (view item)) item items).map view := by
  induction items with
  | nil => rfl
  | cons head rest ih =>
      rw [List.map_cons, insertBy_cons, insertBy_cons, ih]
      split <;> rfl

theorem sortBy_map {Other : Type} {key : Other -> Nat} (view : Item -> Other) (items : List Item) :
    sortBy key (items.map view) = (sortBy (fun item => key (view item)) items).map view := by
  induction items with
  | nil => rfl
  | cons head rest ih =>
      change insertBy key (view head) (sortBy key (rest.map view)) = _
      rw [ih]
      exact insertBy_map view head _

end Sorted

/-! ### The fields of one hash -/

namespace FieldDef

/-- The hash as a number, by which the fields of a struct are stored. -/
def hashKey (field : FieldDef) : Nat := field.hash.toNat

end FieldDef

/-- The fields of a given hash. -/
def ofHash (hash : UInt32) (fields : List FieldDef) : List FieldDef :=
  fields.filter fun field => field.hash == hash

theorem mem_ofHash {hash : UInt32} {fields : List FieldDef} {field : FieldDef} :
    field ∈ ofHash hash fields ↔ field ∈ fields ∧ field.hash = hash := by
  rw [ofHash, List.mem_filter, beq_iff_eq]

/-- A list of fields sorted by hash has those of one hash in a row. -/
theorem takeWhile_eq_ofHash {hash : UInt32} {fields : List FieldDef}
    (sorted : fields.Pairwise fun first second => first.hashKey ≤ second.hashKey)
    (above : forall field, field ∈ fields -> hash.toNat ≤ field.hashKey) :
    fields.takeWhile (fun field => field.hash == hash) = ofHash hash fields := by
  induction fields with
  | nil => rfl
  | cons head rest ih =>
      have parts := List.pairwise_cons.mp sorted
      have next := ih parts.2 fun field member => above field (List.mem_cons_of_mem _ member)
      by_cases same : head.hash = hash
      · simp only [ofHash, List.takeWhile_cons, List.filter_cons, beq_iff_eq.mpr same, if_true]
        exact congrArg (head :: ·) next
      · -- the later ones are not smaller, and this one is too large already
        have larger : hash.toNat < head.hashKey :=
          Nat.lt_of_le_of_ne (above head List.mem_cons_self)
            fun equal => same (UInt32.toNat_inj.mp equal.symm)
        have none : ofHash hash (head :: rest) = [] := by
          refine List.filter_eq_nil_iff.mpr fun field member isHash => ?_
          have equal : field.hashKey = hash.toNat := congrArg UInt32.toNat (beq_iff_eq.mp isHash)
          cases List.mem_cons.mp member with
          | inl first => exact same (first ▸ beq_iff_eq.mp isHash)
          | inr later =>
              have order := parts.1 field later
              omega
        rw [none, List.takeWhile_cons, if_neg (by simpa using same)]

theorem dropWhile_takeWhile_eq_ofHash {hash : UInt32} {fields : List FieldDef}
    (sorted : fields.Pairwise fun first second => first.hashKey ≤ second.hashKey) :
    (fields.dropWhile fun field => decide (field.hash < hash)).takeWhile
        (fun field => field.hash == hash) = ofHash hash fields := by
  induction fields with
  | nil => rfl
  | cons head rest ih =>
      have parts := List.pairwise_cons.mp sorted
      by_cases below : head.hash < hash
      · have different : (head.hash == hash) = false :=
          beq_false_of_ne fun same => absurd below (by rw [same]; exact UInt32.lt_irrefl hash)
        rw [List.dropWhile_cons, if_pos (decide_eq_true below), ih parts.2]
        simp only [ofHash, List.filter_cons, different, Bool.false_eq_true, if_false]
      · rw [List.dropWhile_cons, if_neg (by simpa using below)]
        have least : hash.toNat ≤ head.hashKey := Nat.le_of_not_lt fun less => below less
        refine takeWhile_eq_ofHash sorted fun field member => ?_
        cases List.mem_cons.mp member with
        | inl first => exact first ▸ least
        | inr later => exact Nat.le_trans least (parts.1 field later)

/-- In a list of fields sorted by hash, the leading ones are those of smaller
hashes. -/
theorem below_iff_lt_takeWhile {hash : UInt32} {fields : List FieldDef}
    (sorted : fields.Pairwise fun first second => first.hashKey ≤ second.hashKey) {position : Nat}
    (inside : position < fields.length) :
    fields[position].hash < hash ↔
      position < (fields.takeWhile fun field => decide (field.hash < hash)).length := by
  induction fields generalizing position with
  | nil => exact absurd inside (Nat.not_lt_zero _)
  | cons head rest ih =>
      have parts := List.pairwise_cons.mp sorted
      by_cases below : head.hash < hash
      · rw [List.takeWhile_cons, if_pos (decide_eq_true below), List.length_cons]
        cases position with
        | zero => exact iff_of_true below (Nat.succ_pos _)
        | succ position =>
            exact (ih parts.2 (Nat.lt_of_succ_lt_succ inside)).trans Nat.succ_lt_succ_iff.symm
      · rw [List.takeWhile_cons, if_neg (by simpa using below)]
        refine iff_of_false (fun isBelow => below ?_) (Nat.not_lt_zero _)
        cases List.mem_cons.mp (List.getElem_mem inside) with
        | inl same => exact same ▸ isBelow
        | inr later => exact Nat.lt_of_le_of_lt (parts.1 _ later) isBelow

/-- The search by halving finds the fields of one hash. -/
theorem equalHashRun_eq {fields : List FieldDef}
    (sorted : fields.Pairwise fun first second => first.hashKey ≤ second.hashKey) (hash : UInt32) :
    Schema.equalHashRun fields hash = ofHash hash fields := by
  have behind : fields.drop (fields.takeWhile fun field => decide (field.hash < hash)).length =
      fields.dropWhile fun field => decide (field.hash < hash) := by
    conv =>
      lhs
      arg 2
      rw [← @List.takeWhile_append_dropWhile _ (fun field => decide (field.hash < hash)) fields]
    exact List.drop_left
  simp only [Schema.equalHashRun]
  rw [@Bisect.partitionPoint_eq _ (fields.takeWhile fun field => decide (field.hash < hash)).length,
    behind]
  · exact dropWhile_takeWhile_eq_ofHash sorted
  · intro position inside
    simp only [List.getElem?_toArray, List.getElem?_eq_getElem inside]
    exact decide_eq_decide.mpr (below_iff_lt_takeWhile sorted inside)
  · exact (List.takeWhile_sublist _).length_le

/-! ### Struct records in order -/

/-- The fields of a struct that is laid out are stored by hash, those of one
hash in the order of declaration, and the struct is marked when two hashes are
equal. -/
structure Filed (type : TypeDef) (fields : List FieldDef) : Prop where
  sorted : fields.Pairwise fun first second => first.hashKey ≤ second.hashKey
  declared : forall hash,
    (ofHash hash fields).Pairwise fun first second => first.orderKey ≤ second.orderKey
  mark : type.flags.contains TypeFlags.hasHashCollisions = true ↔
    ¬ (fields.map FieldDef.hash).Nodup

/-- The fields of one hash keep their order when fields are stored by hash. -/
theorem ofHash_sortBy_hashKey (hash : UInt32) (fields : List FieldDef) :
    ofHash hash (Sorted.sortBy FieldDef.hashKey fields) = ofHash hash fields :=
  Sorted.filter_sortBy_of_eq fields fun _ _ isFirst isSecond =>
    congrArg UInt32.toNat ((beq_iff_eq.mp isFirst).trans (beq_iff_eq.mp isSecond).symm)

/-- Storing fields by hash and going back to the order of declaration leaves the
fields of one hash as they were. -/
theorem ofHash_sortBy_sortBy {placed : List FieldDef}
    (declared : placed.Pairwise fun first second => first.orderKey ≤ second.orderKey)
    (hash : UInt32) :
    ofHash hash (Sorted.sortBy FieldDef.orderKey (Sorted.sortBy FieldDef.hashKey placed)) =
      ofHash hash placed := by
  have split : ofHash hash (Sorted.sortBy FieldDef.orderKey (Sorted.sortBy FieldDef.hashKey placed)) =
      Sorted.sortBy FieldDef.orderKey (ofHash hash (Sorted.sortBy FieldDef.hashKey placed)) :=
    Sorted.filter_sortBy _
  rw [split, ofHash_sortBy_hashKey]
  exact Sorted.sortBy_of_pairwise (declared.sublist List.filter_sublist)

/-- Placed fields stored by hash are in order, with the mark that follows. -/
theorem filed_sortBy {type : TypeDef} {placed : List FieldDef}
    (declared : placed.Pairwise fun first second => first.orderKey ≤ second.orderKey)
    (mark : type.flags.contains TypeFlags.hasHashCollisions =
      Layout.hasEqualNeighbours (Sorted.sortBy FieldDef.hashKey placed)) :
    Filed type (Sorted.sortBy FieldDef.hashKey placed) := by
  have sorted := Sorted.pairwise_sortBy FieldDef.hashKey placed
  refine ⟨sorted, fun hash => ?_, ?_⟩
  · rw [ofHash_sortBy_hashKey]
    exact declared.sublist List.filter_sublist
  · rw [mark]
    exact Layout.hasEqualNeighbours_iff sorted

/-- The fields of one hash in the order of declaration are stored in that
order. -/
theorem Filed.ofHash_sortBy {type : TypeDef} {fields : List FieldDef} (filed : Filed type fields)
    (hash : UInt32) : ofHash hash (Sorted.sortBy FieldDef.orderKey fields) = ofHash hash fields := by
  have split : ofHash hash (Sorted.sortBy FieldDef.orderKey fields) =
      Sorted.sortBy FieldDef.orderKey (ofHash hash fields) := Sorted.filter_sortBy fields
  rw [split, Sorted.sortBy_of_pairwise (filed.declared hash)]

/-! ### Fields that keep their order within each hash -/

/-- The same fields, those of one hash in the same order of declaration. -/
def SameRuns (fields later : List FieldDef) : Prop :=
  forall hash, List.Forall₂ FieldDef.Moves
    (ofHash hash (Sorted.sortBy FieldDef.orderKey fields))
    (ofHash hash (Sorted.sortBy FieldDef.orderKey later))

theorem forall₂_ofHash {fields later : List FieldDef}
    (moves : List.Forall₂ FieldDef.Moves fields later) (hash : UInt32) :
    List.Forall₂ FieldDef.Moves (ofHash hash fields) (ofHash hash later) := by
  refine List.rel_filter (fun field moved isMoved => ?_) moves
  obtain ⟨offset, rfl⟩ := isMoved
  exact Iff.rfl

namespace SameRuns

variable {fields later : List FieldDef}

theorem of_forall₂ (moves : FieldsMove fields later) : SameRuns fields later :=
  forall₂_ofHash moves

theorem refl (fields : List FieldDef) : SameRuns fields fields :=
  of_forall₂ (Heap.Relaid.moves_refl _)

theorem trans {last : List FieldDef} (first : SameRuns fields later) (second : SameRuns later last) :
    SameRuns fields last :=
  fun hash => forall₂_trans .trans (first hash) (second hash)

/-- Fields that are placed and then stored by hash. -/
theorem of_placed {placed : List FieldDef}
    (moves : List.Forall₂ FieldDef.Moves (Sorted.sortBy FieldDef.orderKey fields) placed)
    (declared : placed.Pairwise fun first second => first.orderKey ≤ second.orderKey) :
    SameRuns fields (Sorted.sortBy FieldDef.hashKey placed) := by
  intro hash
  rw [ofHash_sortBy_sortBy declared]
  exact forall₂_ofHash moves hash

/-- No hash is lost or added. -/
theorem perm_hash (runs : SameRuns fields later) :
    (fields.map FieldDef.hash).Perm (later.map FieldDef.hash) := by
  have count (hash : UInt32) (listed : List FieldDef) :
      (listed.map FieldDef.hash).count hash =
        (ofHash hash (Sorted.sortBy FieldDef.orderKey listed)).length := by
    rw [((Sorted.sortBy_perm FieldDef.orderKey listed).map FieldDef.hash).symm.count_eq, List.count,
      List.countP_map, List.countP_eq_length_filter]
    rfl
  refine List.perm_iff_count.mpr fun hash => ?_
  rw [count, count, (runs hash).length_eq]

end SameRuns

/-! ### Finding a field -/

namespace Schema

variable {schema : Schema} {name : String} {fields : List FieldDef}

/-- Whether a field has a given name. -/
def isNamed (schema : Schema) (name : String) (field : FieldDef) : Bool :=
  match schema.text field.jsonName with
  | .ok text => text = name
  | .error _ => false

/-- The name of a field can be read, and its hash is recorded. -/
def HasName (schema : Schema) (field : FieldDef) : Prop :=
  exists text, schema.text field.jsonName = .ok text ∧ field.hash = Checksum.nameHash text

/-- The linear search finds the first field of a name. -/
theorem findNamed_eq (named : forall field, field ∈ fields -> schema.HasName field) :
    schema.findNamed name fields = .ok (fields.find? (schema.isNamed name)) := by
  induction fields with
  | nil => rfl
  | cons head rest ih =>
      obtain ⟨text, isText, _⟩ := named head List.mem_cons_self
      have next := ih fun field member => named field (List.mem_cons_of_mem _ member)
      have isHead : schema.isNamed name head = decide (text = name) := by
        unfold isNamed
        rw [isText]
      unfold findNamed
      rw [isText]
      change (if text = name then Except.ok (some head) else schema.findNamed name rest) = _
      rw [List.find?_cons, isHead, next]
      by_cases same : text = name
      · rw [if_pos same, decide_eq_true same]
      · rw [if_neg same, decide_eq_false same]

/-- Fields of other hashes have other names. -/
theorem find?_ofHash (named : forall field, field ∈ fields -> schema.HasName field) :
    (ofHash (Checksum.nameHash name) fields).find? (schema.isNamed name) =
      fields.find? (schema.isNamed name) := by
  induction fields with
  | nil => rfl
  | cons head rest ih =>
      obtain ⟨text, isText, isHash⟩ := named head List.mem_cons_self
      have next := ih fun field member => named field (List.mem_cons_of_mem _ member)
      have isHead : schema.isNamed name head = decide (text = name) := by
        unfold isNamed
        rw [isText]
      unfold ofHash at next ⊢
      rw [List.filter_cons]
      split
      · rw [List.find?_cons, List.find?_cons, next]
      next otherHash =>
        have different : text ≠ name := by
          rintro rfl
          exact otherHash (beq_iff_eq.mpr isHash)
        rw [List.find?_cons, isHead, decide_eq_false different, next]

/-- Fields that differ in their positions are found alike. -/
theorem rel_find? {later : List FieldDef} (moves : List.Forall₂ FieldDef.Moves fields later) :
    Option.Rel FieldDef.Moves (fields.find? (schema.isNamed name))
      (later.find? (schema.isNamed name)) := by
  induction moves with
  | nil => exact .none
  | @cons field moved rest others move _ ih =>
      have alike : schema.isNamed name moved = schema.isNamed name field := by
        obtain ⟨offset, rfl⟩ := move
        rfl
      rw [List.find?_cons, List.find?_cons, alike]
      cases schema.isNamed name field with
      | true => exact .some move
      | false => exact ih

/-- Fields in the same order within each hash are found alike. -/
theorem rel_find?_of_sameRuns {later : List FieldDef} (runs : SameRuns fields later)
    (named : forall field, field ∈ fields -> schema.HasName field)
    (laterNamed : forall field, field ∈ later -> schema.HasName field) :
    Option.Rel FieldDef.Moves ((Sorted.sortBy FieldDef.orderKey fields).find? (schema.isNamed name))
      ((Sorted.sortBy FieldDef.orderKey later).find? (schema.isNamed name)) := by
  have inOrder (listed : List FieldDef)
      (listedNamed : forall field, field ∈ listed -> schema.HasName field)
      (field : FieldDef) (member : field ∈ Sorted.sortBy FieldDef.orderKey listed) :
      schema.HasName field :=
    listedNamed field ((Sorted.sortBy_perm FieldDef.orderKey listed).mem_iff.mp member)
  rw [← find?_ofHash (inOrder fields named), ← find?_ofHash (inOrder later laterNamed)]
  exact rel_find? (runs _)

/-- Halving and the scan of the run find the field of a struct that a linear
search finds among its fields in the order of declaration. -/
theorem findField_eq {type : TypeDef} (isFields : schema.fields type = .ok fields)
    (isStruct : type.shape = .struct) (filed : Filed type fields)
    (named : forall field, field ∈ fields -> schema.HasName field) (name : String) :
    schema.findField type name =
      .ok ((Sorted.sortBy FieldDef.orderKey fields).find? (schema.isNamed name)) := by
  have inOrder (field : FieldDef) (member : field ∈ Sorted.sortBy FieldDef.orderKey fields) :
      schema.HasName field :=
    named field ((Sorted.sortBy_perm FieldDef.orderKey fields).mem_iff.mp member)
  have inRun (field : FieldDef) (member : field ∈ ofHash (Checksum.nameHash name) fields) :
      schema.HasName field := named field (mem_ofHash.mp member).1
  unfold findField
  rw [isFields]
  change (if type.shape = .struct then _ else _) = _
  rw [if_pos isStruct, equalHashRun_eq filed.sorted, findNamed_eq inRun, ← filed.ofHash_sortBy,
    find?_ofHash inOrder]

end Schema

end PackedJson
