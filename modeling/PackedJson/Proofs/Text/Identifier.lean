import Mathlib
import PackedJson.Text.Identifier

namespace PackedJson
namespace Text
namespace Identifier

/-!
What identifiers are like.

A fresh identifier is not taken: among as many numbers as there are names
taken, and one more, there is one whose identifier is free.  Identifiers of
types start with a capital letter.
-/

theorem numbered_inj {base : String} {first second : Nat}
    (same : base ++ toString first = base ++ toString second) : first = second :=
  Nat.repr_inj.mp ((String.append_right_inj base).mp same)

/-- The search for a number passes over numbers that are taken only, and stops
at one that is free unless it has tried all it may. -/
theorem freshFrom_eq (taken : List String) (base : String) (attempts number : Nat) :
    exists steps, freshFrom taken base attempts number = base ++ toString (number + steps) ∧
      steps ≤ attempts ∧ (forall earlier, earlier < steps -> base ++ toString (number + earlier) ∈ taken) ∧
      (steps < attempts -> base ++ toString (number + steps) ∉ taken) := by
  induction attempts generalizing number with
  | zero => exact ⟨0, rfl, Nat.le_refl 0, nofun, nofun⟩
  | succ attempts ih =>
      unfold freshFrom
      dsimp only
      split
      next isTaken =>
        obtain ⟨steps, same, few, passed, free⟩ := ih (number + 1)
        refine ⟨steps + 1, ?_, Nat.succ_le_succ few, fun earlier before => ?_, fun further => ?_⟩
        · rw [same, Nat.add_assoc, Nat.add_comm 1]
        · cases earlier with
          | zero => exact List.contains_iff_mem.mp isTaken
          | succ earlier =>
              have found := passed earlier (Nat.lt_of_succ_lt_succ before)
              rwa [Nat.add_assoc, Nat.add_comm 1] at found
        · have found := free (Nat.lt_of_succ_lt_succ further)
          rwa [Nat.add_assoc, Nat.add_comm 1] at found
      next isFree =>
        refine ⟨0, rfl, Nat.zero_le _, nofun, fun _ isTaken => isFree ?_⟩
        exact List.contains_iff_mem.mpr isTaken

/-- A fresh identifier is not taken. -/
theorem fresh_notMem (taken : List String) (base : String) : fresh taken base ∉ taken := by
  unfold fresh
  split
  next =>
    obtain ⟨steps, same, few, passed, free⟩ := freshFrom_eq taken base taken.length 2
    rw [same]
    intro isTaken
    have all : steps = taken.length :=
      Nat.le_antisymm few (Nat.le_of_not_lt fun further => free further isTaken)
    -- otherwise there were more names than names
    let names := (List.range (taken.length + 1)).map fun step => base ++ toString (2 + step)
    have distinct : names.Nodup := List.nodup_range.map fun first second same =>
      Nat.add_left_cancel (numbered_inj same)
    have included : names ⊆ taken := by
      intro name member
      obtain ⟨step, inRange, rfl⟩ := List.mem_map.mp member
      rcases Nat.lt_succ_iff_lt_or_eq.mp (List.mem_range.mp inRange) with before | last
      · exact passed step (all ▸ before)
      · rw [last, ← all]
        exact isTaken
    have atMost := (List.subperm_of_subset distinct included).length_le
    rw [List.length_map, List.length_range] at atMost
    omega
  next isFree => exact fun isTaken => isFree (List.contains_iff_mem.mpr isTaken)

/-! ### Fresh names one after another -/

/-- Names made from some bases in their order, each of which is neither taken
nor one of those before it. -/
def freshNames : List String -> List String -> List String
  | [], _ => []
  | base :: rest, taken =>
      let name := fresh taken base
      name :: freshNames rest (name :: taken)

/-- A name is made from a base as it is, or with a number from two on. -/
def IsMadeFrom (base name : String) : Prop :=
  name = base ∨ exists number, 2 ≤ number ∧ name = base ++ toString number

theorem isMadeFrom_fresh (taken : List String) (base : String) :
    IsMadeFrom base (fresh taken base) := by
  unfold fresh
  split
  · obtain ⟨steps, same, _⟩ := freshFrom_eq taken base taken.length 2
    exact .inr ⟨2 + steps, Nat.le_add_right 2 steps, same⟩
  · exact .inl rfl

section FreshNames

variable {bases taken : List String} {name : String}

theorem notMem_of_freshNames (member : name ∈ freshNames bases taken) : name ∉ taken := by
  induction bases generalizing taken with
  | nil => cases member
  | cons base rest ih =>
      cases List.mem_cons.mp member with
      | inl same => exact same ▸ fresh_notMem taken base
      | inr later => exact fun isTaken => ih later (List.mem_cons_of_mem _ isTaken)

variable (bases taken) in
theorem nodup_freshNames : (freshNames bases taken).Nodup := by
  induction bases generalizing taken with
  | nil => exact List.nodup_nil
  | cons base rest ih =>
      exact List.nodup_cons.mpr ⟨fun later => notMem_of_freshNames later List.mem_cons_self, ih _⟩

theorem exists_base_of_freshNames (member : name ∈ freshNames bases taken) :
    exists base, base ∈ bases ∧ IsMadeFrom base name := by
  induction bases generalizing taken with
  | nil => cases member
  | cons base rest ih =>
      cases List.mem_cons.mp member with
      | inl same => exact ⟨base, List.mem_cons_self, same ▸ isMadeFrom_fresh taken base⟩
      | inr later =>
          obtain ⟨other, isBase, isMade⟩ := ih later
          exact ⟨other, List.mem_cons_of_mem _ isBase, isMade⟩

end FreshNames

/-! ### Capital letters -/

/-- A name starts with a capital letter. -/
def IsCapital (ident : String) : Prop :=
  exists first rest, ident.toList = first :: rest ∧ first.isUpper = true

theorem IsCapital.append {ident : String} (isCapital : IsCapital ident) (more : String) :
    IsCapital (ident ++ more) := by
  obtain ⟨first, rest, same, isUpper⟩ := isCapital
  exact ⟨first, rest ++ more.toList, by rw [String.toList_append, same]; rfl, isUpper⟩

theorem IsCapital.isMadeFrom {base name : String} (isCapital : IsCapital base)
    (isMade : IsMadeFrom base name) : IsCapital name := by
  rcases isMade with rfl | ⟨number, _, rfl⟩
  · exact isCapital
  · exact isCapital.append _

theorem toUpper_of_isDigit {character : Char} (isDigit : character.isDigit = true) :
    character.toUpper = character := by
  refine Char.toUpper_eq_of_not_isLower ?_
  simp only [Char.isDigit, Char.isLower, Bool.and_eq_true, decide_eq_true_eq,
    UInt32.le_iff_toNat_le] at isDigit ⊢
  exact fun isLower => absurd (Nat.le_trans isLower.1 isDigit.2) (by decide)

/-- What words start with is a capital letter or a digit. -/
theorem joinCapitalized_cons {name rest : List Char} {first : Char}
    (joined : joinCapitalized true name = first :: rest) :
    first.isUpper = true ∨ first.isDigit = true := by
  induction name with
  | nil => cases joined
  | cons character others ih =>
      unfold joinCapitalized at joined
      split at joined
      next isWord =>
        obtain ⟨rfl, _⟩ := List.cons_eq_cons.mp joined
        rw [Char.isAlphanum, Bool.or_eq_true] at isWord
        rw [if_pos rfl, Char.isUpper_toUpper_eq_isAlpha]
        exact isWord.imp_right fun isDigit => (toUpper_of_isDigit isDigit).symm ▸ isDigit
      next => exact ih joined

theorem isCapital_pascalCase (name : String) : IsCapital (pascalCase name) := by
  let joined := joinCapitalized true name.toList
  have starts : IsCapital (String.ofList (if startsBadly joined then 'T' :: joined else joined)) := by
    split
    next => exact ⟨'T', joined, String.toList_ofList, rfl⟩
    next startsWell =>
      cases same : joinCapitalized true name.toList with
      | nil => exact absurd (congrArg startsBadly same) startsWell
      | cons first rest =>
          refine ⟨first, rest, String.toList_ofList.trans same, ?_⟩
          refine (joinCapitalized_cons same).resolve_right fun isDigit => startsWell ?_
          exact (congrArg startsBadly same).trans isDigit
  by_cases isSelf : String.ofList (if startsBadly joined then 'T' :: joined else joined) = "Self"
  · have same : pascalCase name = "Self_" := if_pos isSelf
    rw [same]
    exact ⟨'S', "elf_".toList, rfl, rfl⟩
  · have same : pascalCase name = String.ofList (if startsBadly joined then 'T' :: joined else joined) :=
      if_neg isSelf
    rw [same]
    exact starts

end Identifier
end Text
end PackedJson
