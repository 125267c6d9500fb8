import PackedJson.Proofs.Json.Reading

namespace PackedJson
namespace Json
namespace Pointer

/-!
References that are put together step by step.

The reference below another one, by a name or an index, selects what one more
step selects, whatever characters the name consists of and however the other
reference was written.
-/

/-! ### Splitting -/

/-- A slash between two texts separates their parts. -/
theorem splitSlashes_append (first second : List Char) :
    splitSlashes (first ++ '/' :: second) = splitSlashes first ++ splitSlashes second := by
  have apart (text : List Char) : exists head tail, splitSlashes text = head :: tail := by
    cases text with
    | nil => exact ⟨[], [], rfl⟩
    | cons character rest =>
        unfold splitSlashes
        split
        · exact ⟨_, _, rfl⟩
        · split
          · exact ⟨_, _, rfl⟩
          · exact ⟨_, _, rfl⟩
  induction first with
  | nil =>
      obtain ⟨head, tail, parts⟩ := apart second
      simp only [List.nil_append, splitSlashes, parts, if_true, List.singleton_append]
  | cons character rest ih =>
      obtain ⟨head, tail, parts⟩ := apart rest
      rw [List.cons_append, splitSlashes, ih, splitSlashes, parts]
      by_cases slash : character = '/'
      · simp only [List.cons_append, if_pos slash]
      · simp only [List.cons_append, if_neg slash]

theorem splitSlashes_of_notMem {text : List Char} (plain : '/' ∉ text) :
    splitSlashes text = [text] := by
  induction text with
  | nil => rfl
  | cons character rest ih =>
      have different : character ≠ '/' := fun same => plain (same ▸ List.mem_cons_self)
      rw [splitSlashes, ih fun inRest => plain (List.mem_cons_of_mem _ inRest)]
      exact if_neg different

/-- A name is written without slashes. -/
theorem slash_notMem_escape (name : String) : '/' ∉ (escape name).toList := by
  rw [escape, String.toList_ofList, List.mem_flatMap]
  rintro ⟨character, _, isPart⟩
  unfold escapeCharacter at isPart
  split at isPart
  · exact absurd isPart (by decide)
  · split at isPart
    · exact absurd isPart (by decide)
    · next notSlash => exact notSlash (List.mem_singleton.mp isPart).symm

theorem toList_child (pointer name : String) :
    (child pointer name).toList = pointer.toList ++ '/' :: (escape name).toList := by
  rw [child, String.toList_append, String.toList_append, List.append_assoc]
  rfl

theorem tokens?_child {pointer : String} {names : List String}
    (areTokens : tokens? pointer = some names) (name : String) :
    tokens? (child pointer name) = some (names ++ [name]) := by
  have parts : splitSlashes (escape name).toList = [(escape name).toList] :=
    splitSlashes_of_notMem (slash_notMem_escape name)
  unfold tokens? at areTokens ⊢
  rw [toList_child]
  split at areTokens
  next isEmpty =>
    cases areTokens
    simp only [isEmpty, List.nil_append, parts, List.map_cons, List.map_nil, String.ofList_toList,
      unescape_escape]
  next rest isRest =>
    cases areTokens
    simp only [isRest, List.cons_append, splitSlashes_append, parts, List.map_append,
      List.map_cons, List.map_nil, String.ofList_toList, unescape_escape]
  next => cases areTokens

theorem follow?_append (names : List String) (name : String) (document : Json) :
    follow? (names ++ [name]) document = (follow? names document).bind (step? name) := by
  induction names generalizing document with
  | nil => exact Option.bind_fun_some _
  | cons first rest ih =>
      simp only [List.cons_append, follow?, Option.bind_assoc]
      exact congrArg _ (funext ih)

/-- The reference below another one selects what one more step selects. -/
theorem resolve?_child {pointer : String} {document node : Json}
    (resolved : resolve? pointer document = some node) (name : String) :
    resolve? (child pointer name) document = step? name node := by
  obtain ⟨names, areTokens, followed⟩ := Option.bind_eq_some_iff.mp resolved
  unfold resolve?
  rw [tokens?_child areTokens, Option.bind_some, follow?_append, followed, Option.bind_some]

/-! ### Indices -/

/-- Only zero is written with a zero in front. -/
theorem eq_nil_of_toDigits {number : Nat} {rest : List Char}
    (digits : Nat.toDigits 10 number = '0' :: rest) : rest = [] := by
  induction number using Nat.strongRecOn generalizing rest with
  | ind number ih =>
      by_cases low : number < 10
      · rw [Nat.toDigits_of_lt_base low] at digits
        exact (List.cons.inj digits).2.symm
      · rw [Nat.toDigits_of_base_le (by decide) (Nat.le_of_not_lt low)] at digits
        have value := @Nat.ofDigitChars_ten_toDigits (number / 10)
        obtain ⟨first, more, isFront⟩ :=
          List.exists_cons_of_ne_nil (@Nat.toDigits_ne_nil (number / 10) 10)
        rw [isFront, List.cons_append] at digits
        obtain ⟨rfl, _⟩ := List.cons.inj digits
        cases ih (number / 10) (by omega) isFront
        rw [isFront, Nat.ofDigitChars_cons, Nat.ofDigitChars_nil] at value
        have zero : '0'.toNat - '0'.toNat = 0 := rfl
        omega

/-- An index is read back from its written form. -/
theorem index?_toString (number : Nat) : index? (toString number) = some number := by
  have written : (toString number).toList = Nat.toDigits 10 number := Nat.toList_repr
  have value := @Nat.ofDigitChars_ten_toDigits number
  unfold index?
  split
  next isEmpty => exact absurd (written.symm.trans isEmpty) Nat.toDigits_ne_nil
  next isZero =>
    rw [written.symm.trans isZero] at value
    exact congrArg some value
  next rest notZero isPadded =>
    exact absurd (eq_nil_of_toDigits (written.symm.trans isPadded)) notZero
  next =>
    have areDigits : (toString number).toList.all Char.isDigit = true := by
      rw [written, List.all_eq_true]
      exact fun character member => Nat.isDigit_of_mem_toDigits (by decide) (by decide) member
    rw [if_pos areDigits, written]
    exact congrArg some value

end Pointer
end Json
end PackedJson
