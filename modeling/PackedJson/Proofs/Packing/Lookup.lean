import PackedJson.Proofs.Packing.Integers
import PackedJson.Proofs.TextSchema.Belonging
import PackedJson.Proofs.TextSchema.Embodiment

namespace PackedJson

/-!
Looking up the members of maps.

The hashes of a map are sorted, and the keys of its slots have these hashes.
The keys that could be the wanted one are therefore next to one another, behind
all smaller hashes, and a look-up finds what a search through all members would
find.
-/

/-- Among entries with distinct keys a key is found in any part that has all
entries of that key. -/
theorem find?_eq_of_subset {Item : Type} {key : String} {few entries : List (String × Item)}
    (distinct : (entries.map Prod.fst).Nodup)
    (subset : forall entry, entry ∈ few -> entry ∈ entries)
    (all : forall entry, entry ∈ entries -> entry.1 = key -> entry ∈ few) :
    (few.find? fun entry => entry.1 = key) = entries.find? fun entry => entry.1 = key := by
  cases found : entries.find? fun entry => entry.1 = key with
  | none =>
      refine List.find?_eq_none.mpr fun entry member => ?_
      exact List.find?_eq_none.mp found entry (subset entry member)
  | some entry =>
      have member := List.mem_of_find?_eq_some found
      have isKey : entry.1 = key := by simpa using List.find?_some found
      cases again : few.find? fun entry => entry.1 = key with
      | none =>
          have missing := List.find?_eq_none.mp again entry (all entry member isKey)
          exact absurd (decide_eq_true isKey) missing
      | some other =>
          have otherKey : other.1 = key := by simpa using List.find?_some again
          have otherMember := subset other (List.mem_of_find?_eq_some again)
          rw [List.inj_on_of_nodup_map distinct otherMember member (otherKey.trans isKey.symm)]

/-- An entry is found by its key. -/
theorem find?_of_mem {Item : Type} {entries : List (String × Item)} {entry : String × Item}
    (distinct : (entries.map Prod.fst).Nodup) (member : entry ∈ entries) :
    (entries.find? fun other => other.1 = entry.1) = some entry := by
  have alone := @find?_eq_of_subset _ entry.1 [entry] entries distinct
    (fun other isOther => List.mem_singleton.mp isOther ▸ member) fun other isOther same =>
      List.mem_singleton.mpr (List.inj_on_of_nodup_map distinct isOther member same)
  rw [← alone, List.find?_singleton, decide_eq_true rfl]
  rfl

namespace Reader

section Lookups

variable {reader : Reader} {arrays : MapArrays} {entries : List (String × Place)} {place : Place}
  {hashes : List UInt32} {key : String} {position : Nat}

/-- The key and the value of a member are in its slot. -/
theorem of_mapEntry {entry : String × Place} (read : reader.mapEntry arrays position = .ok entry) :
    exists stored, reader.index arrays.strings position = .ok stored ∧
      reader.text stored = .ok entry.1 ∧ reader.index arrays.values position = .ok entry.2 := by
  unfold mapEntry at read
  cases isStored : reader.index arrays.strings position with
  | error cause =>
      rw [isStored] at read
      cases read
  | ok stored =>
      rw [isStored] at read
      cases isText : reader.text stored with
      | error cause =>
          simp only [bind, Except.bind, isText] at read
          cases read
      | ok text =>
          cases isValue : reader.index arrays.values position with
          | error cause =>
              simp only [bind, Except.bind, isText, isValue] at read
              cases read
          | ok value =>
              simp only [bind, Except.bind, isText, isValue] at read
              cases read
              exact ⟨stored, rfl, isText, rfl⟩

section Entries

variable (reads : forall position (bound : position < entries.length),
  reader.mapEntry arrays position = .ok entries[position])

include reads

/-- The first of some positions with a key is found. -/
theorem findKey_eq {positions : List Nat}
    (inBounds : forall position, position ∈ positions -> position < entries.length) :
    reader.findKey arrays key positions =
      .ok (((positions.filterMap fun position => entries[position]?).find? fun entry =>
        entry.1 = key).map Prod.snd) := by
  induction positions with
  | nil => rfl
  | cons position rest ih =>
      obtain ⟨bound, restBounds⟩ := List.forall_mem_cons.mp inBounds
      obtain ⟨stored, isStored, isText, isValue⟩ := of_mapEntry (reads position bound)
      rw [List.filterMap_cons_some (List.getElem?_eq_getElem bound)]
      unfold findKey
      simp only [bind, Except.bind, isStored, isText, isValue]
      by_cases isKey : entries[position].1 = key
      · rw [if_pos isKey, List.find?_cons, decide_eq_true isKey]
        rfl
      · rw [if_neg isKey, List.find?_cons, decide_eq_false isKey, ih restBounds]

end Entries

/-- All positions of a hash are among those that are looked through. -/
theorem mem_run {hash : UInt32}
    (sorted : hashes.Pairwise fun first second => first.toNat ≤ second.toNat)
    (bound : position < hashes.length) (isHash : hashes[position] = hash) :
    position ∈ ((List.range hashes.toArray.size).drop (Bisect.partitionPoint
      (fun position => hashes.toArray.getD position 0 < hash) hashes.toArray.size)).takeWhile
        fun position => hashes.toArray.getD position 0 == hash := by
  have below (slot : Nat) : decide (hashes.toArray.getD slot 0 < hash) = true ↔
      Packer.hashAt hashes slot < hash.toNat := decide_eq_true_iff.trans UInt32.lt_iff_toNat_lt
  rw [List.size_toArray]
  obtain ⟨boundary, small, test⟩ := @Bisect.exists_boundary
    (fun slot => hashes.toArray.getD slot 0 < hash) hashes.length
    fun first second before inside holds => (below first).mpr (Nat.lt_of_le_of_lt
      (Packer.hashAt_mono sorted before inside) ((below second).mp holds))
  have behind (slot : Nat) (inside : slot < hashes.length) :
      slot < boundary ↔ Packer.hashAt hashes slot < hash.toNat := by
    rw [← below slot, test slot inside, decide_eq_true_iff]
  have isSame : Packer.hashAt hashes position = hash.toNat := by
    rw [Packer.hashAt_eq bound, isHash]
  rw [Bisect.partitionPoint_eq _ test small]
  refine Packer.mem_takeWhile_drop_range (Nat.le_of_not_lt fun before => ?_) bound
    fun other above before => ?_
  · have less := (behind position bound).mp before
    omega
  · have inside := Nat.lt_of_le_of_lt before bound
    have low := mt (behind other inside).mpr (Nat.not_lt_of_le above)
    have high := Packer.hashAt_mono sorted before bound
    refine beq_iff_eq.mpr (UInt32.toNat_inj.mp ?_)
    change Packer.hashAt hashes other = _
    omega

/-- A look-up finds the member with the wanted key, if there is one. -/
theorem mapGet_eq (areArrays : reader.mapArrays place = .ok arrays)
    (areHashes : reader.hashes arrays.keys = .ok hashes)
    (sorted : hashes.Pairwise fun first second => first.toNat ≤ second.toNat)
    (reads : forall position (bound : position < entries.length),
      reader.mapEntry arrays position = .ok entries[position])
    (slots : entries.map (fun entry => Checksum.nameHash entry.1) = hashes)
    (distinct : (entries.map Prod.fst).Nodup) :
    reader.mapGet place key = .ok ((entries.find? fun entry => entry.1 = key).map Prod.snd) := by
  have count : hashes.length = entries.length := by rw [← slots, List.length_map]
  unfold mapGet
  simp only [bind, Except.bind, areArrays, areHashes]
  rw [findKey_eq reads fun position member => ?_]
  · refine congrArg (fun found => Except.ok (Option.map Prod.snd found))
      (find?_eq_of_subset distinct (fun entry member => ?_) fun entry member isKey => ?_)
    · obtain ⟨position, _, isEntry⟩ := List.mem_filterMap.mp member
      exact List.mem_of_getElem? isEntry
    · obtain ⟨position, bound, rfl⟩ := List.getElem_of_mem member
      have inHashes : position < hashes.length := count ▸ bound
      have isHash : hashes[position] = Checksum.nameHash key := by
        simp only [← slots, List.getElem_map, isKey]
      exact List.mem_filterMap.mpr ⟨position, mem_run sorted inHashes isHash,
        List.getElem?_eq_getElem bound⟩
  · have inRange := List.mem_of_mem_drop ((List.takeWhile_sublist _).mem member)
    rw [List.mem_range, List.size_toArray, count] at inRange
    exact inRange

end Lookups

end Reader

namespace Packer

open Arena TextSchema Layout Builder

section Members

variable {packer : Packer} {document : Json} {id : TypeId} {type : TypeDef} {place : Offset}
  {path : Path} {data : Arena} {keys : Column} {slots : Slots} {hashStorage : Offset}
  {valueTerm : Term} {members : List (String × Json)} {meanings : List Value}
  {entries : List (Nat × String × Value)}

/-- The hashes of a map are read as they are stored. -/
theorem hashes_eq (isMap : IsMap packer type keys slots.values slots.strings slots.text)
    (room : HasRoom data (instanceOf place type))
    (holds : HoldsMap packer slots keys place hashStorage entries data) :
    (packer.reader data).hashes (arraysOf keys slots place).keys = .ok slots.hashes := by
  have parts : (packer.reader data).arrayParts (arraysOf keys slots place).keys =
      .ok (hashStorage.nonNull?, slots.hashes.length) :=
    arrayParts_of_hasParts isMap.isKeys.isArray holds.keysParts (isMap.isKeys.room room) _
  unfold Reader.hashes
  simp only [bind, Except.bind, parts]
  rcases Nat.eq_zero_or_pos slots.hashes.length with isEmpty | positive
  · rw [isEmpty, List.length_eq_zero_iff.mp isEmpty]
    cases hashStorage.nonNull? <;> rfl
  · have has := holds.hashes positive
    have inUse := has.within.2.1
    have used := room.writable.used_lt
    obtain ⟨bytes, isBytes, content⟩ := get?_of_within hashStorage (slots.hashes.length * 4)
      room.writable has.within (Nat.le_refl _) (Nat.le_refl _) (by omega)
    have nonNull : hashStorage.nonNull? = some hashStorage := by
      unfold Offset.nonNull?
      rw [has.present]
      rfl
    have same : bytes = (slots.hashes.flatMap fun hash =>
        LittleEndian.encode 4 hash.toNat).toByteArray := by
      apply ByteArray.ext
      rw [List.data_toByteArray, ← has.load, ← content, Array.toArray_toList]
    have isRead : (packer.reader data).bytesAt hashStorage (slots.hashes.length * 4) = .ok bytes := by
      unfold Reader.bytesAt Arena.slice
      rw [if_neg (by omega)]
      simp only [reader, isBytes]
    have limit : Offset.spaceSize = 2 ^ 32 := rfl
    have small : ¬ 2 ^ 64 ≤ slots.hashes.length * 4 := by omega
    simp only [nonNull, small, if_false, isRead]
    refine congrArg Except.ok (List.ext_getElem ?_ fun index inRange inHashes => ?_)
    · rw [List.length_map, List.length_range]
    · rw [List.getElem_map, List.getElem_range, same, Record.wordAt_flatMap_encode inHashes]

/-- The members of an object are found in a map: each of them in one slot, with
its own value, and in the order of their hashes. -/
structure HoldsMembers (document : Json) (limit : Nat) (reader : Reader) (place : Place)
    (valueTerm : Term) (path : Path) (members : List (String × Json)) (arrays : Reader.MapArrays)
    (hashes : List UInt32) (entries : List (String × Place)) : Prop where
  areArrays : reader.mapArrays place = .ok arrays
  areHashes : reader.hashes arrays.keys = .ok hashes
  sorted : hashes.Pairwise fun first second => first.toNat ≤ second.toNat
  areEntries : reader.mapEntries place = .ok entries
  slots : entries.map (fun entry => Checksum.nameHash entry.1) = hashes
  once : (entries.map Prod.fst).Perm (members.map Prod.fst)
  present : forall key value, (key, value) ∈ members -> exists found meaning,
    (key, found) ∈ entries ∧ reader.mapGet place key = .ok (some found) ∧
    Judges document limit (.inner limit valueTerm path (.key key) value) (.fits meaning) ∧
    Reads reader found meaning
  absent : forall key, key ∉ members.map Prod.fst -> reader.mapGet place key = .ok none

/-- In a map that is shown the members are found. -/
theorem exists_holdsMembers
    (isString : packer.context.builtinOf? (packer.context.builtin .string) = some .string)
    (distinct : (members.map Prod.fst).Nodup)
    (judged : List.Forall₂ (fun matter meaning =>
        Judges document packer.maxDepth matter (.fits meaning))
      (Matter.members packer.maxDepth valueTerm path members) meanings)
    (shows : ShowsMap packer type place (members.map Prod.fst) meanings keys slots hashStorage entries
      data) :
    exists arrays hashes found, HoldsMembers document packer.maxDepth (packer.reader data)
      ⟨id, type, place⟩ valueTerm path members arrays hashes found := by
  have isMap := shows.isMap
  have room := shows.room
  obtain ⟨found, ordered, finds⟩ :=
    @exists_mapEntries slots packer id _ _ _ _ _ _ isMap isString room shows.hasSlots shows.holds
  have names : ordered.map Prod.fst = members.map Prod.fst := by
    rw [finds.names, shows.members, List.map_fst_zip (Nat.le_of_eq shows.areAll)]
  have once : (found.map Prod.fst).Perm (members.map Prod.fst) := names ▸ finds.perm.map _
  have areArrays := @mapArrays_eq slots packer id type place keys data isMap room
  have areHashes := hashes_eq isMap room shows.holds
  have gets (key : String) : (packer.reader data).mapGet ⟨id, type, place⟩ key =
      .ok ((found.find? fun entry => entry.1 = key).map Prod.snd) :=
    Reader.mapGet_eq areArrays areHashes shows.sorted finds.entry finds.hashes
      (once.nodup_iff.mpr distinct)
  refine ⟨_, _, found, areArrays, areHashes, shows.sorted, finds.entries, finds.hashes, once, ?_, ?_⟩
  · intro key value member
    obtain ⟨index, bound, isMember⟩ := List.getElem_of_mem member
    have reads := finds.reads
    rw [shows.members, List.map_snd_zip (Nat.le_of_eq shows.areAll.symm)] at reads
    obtain ⟨countReads, areRead⟩ := List.forall₂_iff_get.mp reads
    obtain ⟨countJudged, areJudged⟩ := List.forall₂_iff_get.mp judged
    have inMeanings : index < meanings.length := by
      rw [← countJudged, Matter.members, List.length_map]
      exact bound
    have inOrdered : index < ordered.length := by
      rw [List.length_map] at countReads
      omega
    have isKey : ordered[index].1 = key := by
      have same := congrArg (fun names => names[index]?) names
      simp only [List.getElem?_map, List.getElem?_eq_getElem inOrdered, List.getElem?_eq_getElem bound,
        Option.map_some, Option.some.injEq, isMember] at same
      exact same
    have inFound : (key, ordered[index].2) ∈ found :=
      finds.perm.mem_iff.mpr (isKey ▸ List.getElem_mem inOrdered)
    have judges := areJudged index (by rw [countJudged]; exact inMeanings) inMeanings
    simp only [List.get_eq_getElem, Matter.members, List.getElem_map, isMember] at judges
    have isRead := areRead index (by rw [List.length_map]; exact inOrdered) inMeanings
    simp only [List.get_eq_getElem, List.getElem_map] at isRead
    refine ⟨ordered[index].2, meanings[index], inFound, ?_, judges, isRead⟩
    rw [gets, find?_of_mem (once.nodup_iff.mpr distinct) inFound]
    rfl
  · intro key isAbsent
    rw [gets, List.find?_eq_none.mpr fun entry member isKey => ?_]
    · rfl
    · refine isAbsent (once.mem_iff.mp (List.mem_map.mpr ⟨entry, member, ?_⟩))
      exact of_decide_eq_true isKey

end Members

/-! ### Maps of text schemas -/

section Compiled

variable {text : Json} {options : CompileOptions} {container : Container} {target : Target}
  {pointerBase maxDepth : Nat} {root id : TypeId} {type : TypeDef}

/-- Values are written as maps in place, with the search of a packer. -/
theorem Packs.write_map {packer : Packer} {heap : Heap} {promises : Promises}
    {settled : TypeId -> Prop} {value keys values strings : TypeId}
    (packs : Packs packer heap text promises settled) (isSettled : settled id)
    (is : IsKind heap packer.target packer.context id (.map value keys values strings))
    (found : packer.schema.type id = .ok type) (levels : Nat) (place : Offset) (path : Path)
    (document : Json) (state : PackState) :
    packer.write (levels + 1) id place path document state =
      mapFrom lastSlot packer (packer.write levels) type place path document state := by
  obtain ⟨_, _, _, shows⟩ := packs.shows isSettled is.declares
  cases found.symm.trans shows.found
  obtain ⟨fewer, isSucc⟩ : exists fewer, handoffLimit = fewer + 1 :=
    Nat.exists_eq_succ_of_ne_zero (by decide)
  have instanceIs (same : Writer) : packer.writeInstance same (packer.write levels) id type place path
      document = packer.map (packer.write levels) type place path document := by
    rw [packs.writeInstance_declared is.declares rfl shows rfl, if_neg (by decide),
      if_neg (by decide)]
    rfl
  change packer.writeWrapped (packer.write levels) handoffLimit [] id place path document state = _
  rw [isSucc, writeWrapped_eq rfl]
  unfold writeVariable
  rw [ask_ok found, pure_bind, if_neg (Bool.not_eq_true _ ▸ (shows.inline rfl).1), instanceIs,
    map_eq_from]

/-- An object that is packed as a map is found in it member by member, whichever
of the slots of a hash a search ends at, and as long as no byte of the map
changes.  There is a slot for every key. -/
theorem holdsMembers_of_mapFrom (accepted : compile text options = .ok container)
    (isRoot : container.schema.root (container.context target) = .ok root)
    (reaches : container.schema.Reaches root id) (found : container.schema.type id = .ok type)
    (isMap : type.shape = .map) :
    let packer := container.packer target pointerBase maxDepth
    exists valueId valueTerm, type.argument = some valueId ∧
      (forall (levels : Nat) (place : Offset) (path : Path) (value : Json) (state : PackState),
        packer.write (levels + 1) id place path value state =
          mapFrom lastSlot packer (packer.write levels) type place path value state) ∧
      (forall {levels : Nat} {path : Path} {value : Json}, value.WellFormed -> value.height < levels ->
        Writes text packer (packer.write levels) valueId valueTerm path value) ∧
      forall {search : Search} {write : Writer} {place : Offset} {path : Path}
        {members : List (String × Json)} {state : PackState},
        search.Finds -> (Json.object members).WellFormed ->
        (forall member, member ∈ members ->
          Writes text packer write valueId valueTerm (path.child (.key member.1)) member.2) ->
        HasRoom state.data (instanceOf place type) ->
        Run (mapFrom search packer write type place path (.object members)) state
          (fun _ after => Lasts (Since (instanceOf place type) state.data.used after.data.used)
            after.data fun data => exists arrays hashes entries,
              HoldsMembers text maxDepth (packer.reader data) ⟨id, type, place⟩ valueTerm path members
                arrays hashes entries)
          (fun failure _ => failure ≠ .schema (packer.schema.malformed type .slotMissing)) := by
  intro packer
  obtain ⟨heap, promises, settled, holds, serving⟩ := isCompiled_of_compile accepted target
  have packs : Packs packer heap text promises settled := ⟨holds.told, serving⟩
  obtain ⟨isSettled, _⟩ := serving.belongs_of_reaches holds.told isRoot reaches
  obtain ⟨term, valueTerm, value, keys, values, strings, _, hasRole, valuePromised, is⟩ :=
    serving.exists_map holds.told isRoot reaches found isMap
  obtain ⟨_, _, _, shows⟩ := packs.shows isSettled is.declares
  cases found.symm.trans shows.found
  obtain ⟨keyColumn, valueColumn, stringColumn, layout, isMapType, rfl⟩ :=
    shows.isMap packs is isSettled
  have valueSettled := packs.settled_argument isSettled is.declares rfl
  refine ⟨_, valueTerm, isMapType.argument, packs.write_map isSettled is found,
    fun wellFormed low => packs.writes valueSettled valuePromised wellFormed low, ?_⟩
  intro search write place path members state finds wellFormed writes room
  have distinct : (members.map Prod.fst).Nodup := by
    cases wellFormed with
    | object distinct _ => exact distinct
  refine Run.imp (fills_mapFrom finds hasRole isMapType distinct writes room) ?_ ?_
  · rintro _ after ⟨_, _, _, _, meanings, _, judged, shown⟩
    obtain ⟨slots, hashStorage, entries, lasts⟩ := shown wellFormed
    exact lasts.imp fun later shows => exists_holdsMembers (packs.builtinOf?_builtin .string) distinct
      judged shows
  · rintro failure _ ⟨_, expected | ⟨_, _, rfl, _⟩⟩
    · rintro rfl
      exact expected
    · nofun

end Compiled

/-! ### A map of integers -/

/-- The text schema of objects with any members that are integers. -/
def integersSchema : Json :=
  .object [("additionalProperties", .object [("type", .string "integer")])]

/-- Keys of which two have one hash, and one is empty. -/
def integersObject : List (String × Json) :=
  [("plumless", .number (.integer 1)), ("buckeroo", .number (.integer 2)),
    ("", .number (.integer 3))]

example : Checksum.nameHash "plumless" = Checksum.nameHash "buckeroo" := by decide +kernel

/-- By default there is room for the schema, and its root is a small map. -/
theorem exists_integersContainer (target : Target) : exists container root id type,
    compile integersSchema {} = .ok container ∧
    container.schema.root (container.context target) = .ok root ∧
    container.schema.Reaches root id ∧ container.schema.type id = .ok type ∧
    type.shape = .map ∧ type.size.toNat ≤ 124 := by
  obtain ⟨builder, isBuilder, spare⟩ : exists builder,
      Builder.ofConfig {} = .ok builder ∧ builder.arena.spare = 65535 := ⟨_, rfl, rfl⟩
  obtain ⟨⟨root, draft, cost⟩, drafts, isRoot, enough⟩ : exists drafted,
      draftTarget integersSchema "Root" none Draft.empty = .ok drafted ∧
      drafted.result = .applied .map (.builtin .integer) ∧ 2 * drafted.cost ≤ 65535 :=
    ⟨_, rfl, rfl, by decide +kernel⟩
  cases isRoot
  have spans : draft.Spans (.applied .map (.builtin .integer)) 124 :=
    (draft.spans_builtin .integer).map
  obtain ⟨container, accepted, heap, holds, embodied⟩ := @exists_compiled integersSchema {} none
    builder rfl isBuilder _ drafts (spare ▸ enough) _ spans (by decide)
  obtain ⟨_, site, settled, embodies⟩ := embodied target
  obtain ⟨root, id, type, fields, isRoot, reaches, found, is, size⟩ :=
    embodies.exists_reachedType holds .root spans
  exact ⟨container, root, id, type, accepted, isRoot, reaches, found, is.shape, size⟩

/-- Two members with one hash, and one without a name, are found in a map. -/
theorem holdsMembers_of_mapFrom_integers : exists container root id type valueId valueTerm state,
    exists place : Offset,
    compile integersSchema {} = .ok container ∧
    container.schema.root (container.context .wasm32) = .ok root ∧
    container.schema.Reaches root id ∧ container.schema.type id = .ok type ∧
    type.shape = .map ∧ lastSlot.Finds ∧ (Json.object integersObject).WellFormed ∧
    HasRoom state.data (instanceOf place type) ∧
    let packer := container.packer .wasm32 0 128
    (forall member, member ∈ integersObject ->
      Writes integersSchema packer (packer.write 2) valueId valueTerm
        (Path.root.child (.key member.1)) member.2) ∧
    Run (mapFrom lastSlot packer (packer.write 2) type place .root (.object integersObject)) state
      (fun _ after => Lasts (Since (instanceOf place type) state.data.used after.data.used)
        after.data fun data => exists arrays hashes entries,
          HoldsMembers integersSchema 128 (packer.reader data) ⟨id, type, place⟩ valueTerm .root
            integersObject arrays hashes entries)
      (fun failure _ => failure ≠ .schema (packer.schema.malformed type .slotMissing)) := by
  obtain ⟨container, root, id, type, accepted, isRoot, reaches, found, isMap, small⟩ :=
    exists_integersContainer .wasm32
  obtain ⟨data, isArena, spare⟩ : exists data, Arena.owned {} = .ok data ∧ 132 ≤ data.spare :=
    ⟨_, rfl, by decide⟩
  obtain ⟨place, empty, room, _⟩ :=
    @exists_emptyInstance data type (owned_writable isArena) (by omega)
  obtain ⟨valueId, valueTerm, _, _, writes, holds⟩ :=
    @holdsMembers_of_mapFrom _ _ _ .wasm32 0 128 _ _ _ accepted isRoot reaches found isMap
  have isInteger {value : Int} (above : 0 ≤ value) (below : value < 4) :
      (Json.number (.integer value)).WellFormed ∧ (Json.number (.integer value)).height < 2 := by
    refine ⟨.integer (by omega) (by omega), ?_⟩
    simp [Json.height]
  have areIntegers : forall member, member ∈ integersObject ->
      member.2.WellFormed ∧ member.2.height < 2 := by
    simp only [integersObject, List.forall_mem_cons]
    exact ⟨isInteger (by decide) (by decide), isInteger (by decide) (by decide),
      isInteger (by decide) (by decide), List.forall_mem_nil _⟩
  have areDistinct : (integersObject.map Prod.fst).Nodup := by decide
  have wellFormed : (Json.object integersObject).WellFormed :=
    .object areDistinct fun member isMember => (areIntegers member isMember).1
  have areWritten : forall member, member ∈ integersObject ->
      Writes integersSchema (container.packer .wasm32 0 128)
        ((container.packer .wasm32 0 128).write 2) valueId valueTerm
        (Path.root.child (.key member.1)) member.2 := fun member isMember =>
    writes (areIntegers member isMember).1 (areIntegers member isMember).2
  exact ⟨container, root, id, type, valueId, valueTerm, ⟨empty, []⟩, place, accepted, isRoot, reaches,
    found, isMap, finds_lastSlot, wellFormed, room, areWritten,
    holds finds_lastSlot wellFormed areWritten room⟩

end Packer

end PackedJson
