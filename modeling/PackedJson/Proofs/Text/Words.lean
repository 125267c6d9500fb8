import Mathlib.Data.List.Induction
import PackedJson.Text.Hex

namespace PackedJson
namespace Text

/-!
Texts that are put together from words and lines.

A separator between two parts tells them apart where it is known to be the
first one, or the last one.  So words without spaces are read back from the end
of a text, and lines are read back from a text if none of them is broken.
-/

section Separators

variable {Item : Type} {separator : Item} {first second rest others : List Item}

/-- The first separator tells what is in front of it from what is behind it. -/
theorem firstSeparator_inj (notFirst : separator ∉ first) (notSecond : separator ∉ second)
    (same : first ++ separator :: rest = second ++ separator :: others) :
    first = second ∧ rest = others := by
  induction first generalizing second with
  | nil =>
      cases second with
      | nil => exact ⟨rfl, (List.cons.inj same).2⟩
      | cons head tail =>
          have isHead : separator = head := (List.cons.inj same).1
          exact absurd (isHead ▸ List.mem_cons_self) notSecond
  | cons head tail ih =>
      cases second with
      | nil =>
          have isHead : head = separator := (List.cons.inj same).1
          exact absurd (isHead ▸ List.mem_cons_self) notFirst
      | cons otherHead otherTail =>
          obtain ⟨rfl, sameTail⟩ := List.cons.inj same
          obtain ⟨rfl, sameRest⟩ := ih (fun member => notFirst (List.mem_cons_of_mem _ member))
            (fun member => notSecond (List.mem_cons_of_mem _ member)) sameTail
          exact ⟨rfl, sameRest⟩

/-- The last separator tells the same. -/
theorem lastSeparator_inj (notRest : separator ∉ rest) (notOthers : separator ∉ others)
    (same : first ++ separator :: rest = second ++ separator :: others) :
    first = second ∧ rest = others := by
  have reversed := congrArg List.reverse same
  simp only [List.reverse_append, List.reverse_cons, List.append_assoc, List.singleton_append]
    at reversed
  obtain ⟨sameRest, sameFirst⟩ := firstSeparator_inj
    (fun member => notRest (List.mem_reverse.mp member))
    (fun member => notOthers (List.mem_reverse.mp member)) reversed
  exact ⟨List.reverse_inj.mp sameFirst, List.reverse_inj.mp sameRest⟩

/-- Where two separators follow each other, they tell what is in front of them from what is
behind them if they do not follow each other there again. -/
theorem lastPair_inj {opening closing : Item} (different : opening ≠ closing)
    (notRest : ¬ [opening, closing] <:+: rest) (notOthers : ¬ [opening, closing] <:+: others)
    (same : first ++ opening :: closing :: rest = second ++ opening :: closing :: others) :
    first = second ∧ rest = others := by
  -- What is between the two pairs is empty: its first two items would be a pair.
  have between {rest others between : List Item} (notRest : ¬ [opening, closing] <:+: rest)
      (sameRest : opening :: closing :: rest = between ++ opening :: closing :: others) :
      between = [] := by
    rcases between with _ | ⟨item, _ | ⟨next, between⟩⟩
    · rfl
    · exact absurd (List.cons.inj (List.cons.inj sameRest).2).1.symm different
    · have isRest : rest = between ++ ([opening, closing] ++ others) :=
        (List.cons.inj (List.cons.inj sameRest).2).2
      exact absurd ⟨between, others, by rw [isRest, List.append_assoc]⟩ notRest
  rcases List.append_eq_append_iff.mp same with ⟨middle, rfl, sameRest⟩ | ⟨middle, rfl, sameRest⟩
  · cases between notRest sameRest
    exact ⟨(List.append_nil _).symm, (List.cons.inj (List.cons.inj sameRest).2).2⟩
  · cases between notOthers sameRest
    exact ⟨List.append_nil _, (List.cons.inj (List.cons.inj sameRest).2).2.symm⟩

/-- Parts that end in a separator are told apart if it is nowhere else. -/
theorem flatMap_separator_inj {parts otherParts : List (List Item)}
    (plain : forall part, part ∈ parts -> separator ∉ part)
    (otherPlain : forall part, part ∈ otherParts -> separator ∉ part)
    (same : parts.flatMap (· ++ [separator]) = otherParts.flatMap (· ++ [separator])) :
    parts = otherParts := by
  induction parts generalizing otherParts with
  | nil =>
      cases otherParts with
      | nil => rfl
      | cons part rest =>
          rw [List.flatMap_nil, List.flatMap_cons, List.append_assoc] at same
          exact absurd same.symm (List.append_ne_nil_of_right_ne_nil _ (List.cons_ne_nil _ _))
  | cons part rest ih =>
      cases otherParts with
      | nil =>
          rw [List.flatMap_nil, List.flatMap_cons, List.append_assoc] at same
          exact absurd same (List.append_ne_nil_of_right_ne_nil _ (List.cons_ne_nil _ _))
      | cons otherPart otherRest =>
          obtain ⟨isPlain, restPlain⟩ := List.forall_mem_cons.mp plain
          obtain ⟨isOtherPlain, otherRestPlain⟩ := List.forall_mem_cons.mp otherPlain
          simp only [List.flatMap_cons, List.append_assoc, List.singleton_append] at same
          obtain ⟨rfl, sameRest⟩ := firstSeparator_inj isPlain isOtherPlain same
          rw [ih restPlain otherRestPlain sameRest]

end Separators

/-! ### Lines -/

/-- There are no line breaks in a text. -/
def IsUnbroken (text : String) : Prop := '\n' ∉ text.toList

instance (text : String) : Decidable (IsUnbroken text) :=
  inferInstanceAs (Decidable ('\n' ∉ text.toList))

theorem isUnbroken_append {first second : String} :
    IsUnbroken (first ++ second) ↔ IsUnbroken first ∧ IsUnbroken second := by
  unfold IsUnbroken
  rw [String.toList_append, List.mem_append, not_or]

/-- Lines are read back from a text if none of them is broken. -/
theorem lines_inj {lines others : List String}
    (plain : forall line, line ∈ lines -> IsUnbroken line)
    (otherPlain : forall line, line ∈ others -> IsUnbroken line)
    (same : String.join (lines.map (· ++ "\n")) = String.join (others.map (· ++ "\n"))) :
    lines = others := by
  have written (lines : List String) : (String.join (lines.map (· ++ "\n"))).toList =
      (lines.map String.toList).flatMap (· ++ ['\n']) := by
    rw [String.toList_join, List.flatMap_map, List.flatMap_map]
    simp only [String.toList_append]
    rfl
  have parts : lines.map String.toList = others.map String.toList := by
    refine flatMap_separator_inj ?_ ?_ ((written lines).symm.trans
      ((congrArg String.toList same).trans (written others)))
    · exact List.forall_mem_map.mpr plain
    · exact List.forall_mem_map.mpr otherPlain
  exact (List.map_inj_right fun _ _ => String.toList_inj.mp).mp parts

/-- The first item of a block is what blocks begin with, and it is the only such item. -/
def IsBlock {Item : Type} (begins : Item -> Prop) (block : List Item) : Prop :=
  exists head rest, block = head :: rest ∧ begins head ∧ forall item, item ∈ rest -> ¬ begins item

/-- What is in front of the next block is told from it. -/
theorem restOfBlock_inj {Item : Type} {begins : Item -> Prop} {rest others later otherLater : List Item}
    (inside : forall item, item ∈ rest -> ¬ begins item)
    (otherInside : forall item, item ∈ others -> ¬ begins item)
    (next : forall item, later.head? = some item -> begins item)
    (otherNext : forall item, otherLater.head? = some item -> begins item)
    (same : rest ++ later = others ++ otherLater) : rest = others ∧ later = otherLater := by
  induction rest generalizing others with
  | nil =>
      cases others with
      | nil => exact ⟨rfl, same⟩
      | cons item _ =>
          have first : later.head? = some item := congrArg List.head? same
          exact absurd (next item first) (otherInside item List.mem_cons_self)
  | cons item rest ih =>
      obtain ⟨isInside, restInside⟩ := List.forall_mem_cons.mp inside
      cases others with
      | nil =>
          have first : otherLater.head? = some item := (congrArg List.head? same).symm
          exact absurd (otherNext item first) isInside
      | cons other others =>
          obtain ⟨rfl, sameRest⟩ := List.cons.inj same
          obtain ⟨rfl, sameLater⟩ := ih restInside (List.forall_mem_cons.mp otherInside).2 sameRest
          exact ⟨rfl, sameLater⟩

/-- What several blocks begin with. -/
theorem begins_of_head? {First Item : Type} {begins : Item -> Prop} {block : First -> List Item}
    (areBlocks : forall first, IsBlock begins (block first)) (firsts : List First) (item : Item)
    (first : (firsts.flatMap block).head? = some item) : begins item := by
  cases firsts with
  | nil => cases first
  | cons one _ =>
      obtain ⟨head, rest, isBlock, isHead, _⟩ := areBlocks one
      rw [List.flatMap_cons, isBlock] at first
      exact Option.some.inj first ▸ isHead

/-- Blocks are read back from their items one after another. -/
theorem blocks_inj {First Second Item : Type} {begins : Item -> Prop} {block : First -> List Item}
    {otherBlock : Second -> List Item} (areBlocks : forall first, IsBlock begins (block first))
    (othersAre : forall second, IsBlock begins (otherBlock second)) {firsts : List First}
    {seconds : List Second} (same : firsts.flatMap block = seconds.flatMap otherBlock) :
    List.Forall₂ (fun first second => block first = otherBlock second) firsts seconds := by
  induction firsts generalizing seconds with
  | nil =>
      cases seconds with
      | nil => exact .nil
      | cons second _ =>
          obtain ⟨_, _, isBlock, _⟩ := othersAre second
          rw [List.flatMap_nil, List.flatMap_cons, isBlock] at same
          cases same
  | cons first firsts ih =>
      obtain ⟨head, rest, isBlock, _, inside⟩ := areBlocks first
      cases seconds with
      | nil =>
          rw [List.flatMap_nil, List.flatMap_cons, isBlock] at same
          cases same
      | cons second seconds =>
          obtain ⟨otherHead, otherRest, otherIsBlock, _, otherInside⟩ := othersAre second
          rw [List.flatMap_cons, List.flatMap_cons, isBlock, otherIsBlock] at same
          obtain ⟨sameHead, sameItems⟩ := List.cons.inj same
          obtain ⟨sameRest, sameLater⟩ := restOfBlock_inj inside otherInside
            (begins_of_head? areBlocks firsts) (begins_of_head? othersAre seconds) sameItems
          have sameBlock : block first = otherBlock second := by
            rw [isBlock, otherIsBlock, sameHead, sameRest]
          exact .cons sameBlock (ih sameLater)

/-! ### Words -/

/-- A text, followed by words with a space in front of each. -/
def spaced (text : String) (words : List String) : String :=
  words.foldl (fun text word => text ++ " " ++ word) text

theorem spaced_concat (text : String) (words : List String) (word : String) :
    spaced text (words ++ [word]) = spaced text words ++ " " ++ word := by
  unfold spaced
  rw [List.foldl_append]
  rfl

/-- There are neither line breaks nor spaces in a word. -/
def IsWord (word : String) : Prop := IsUnbroken word ∧ ' ' ∉ word.toList

instance (word : String) : Decidable (IsWord word) :=
  inferInstanceAs (Decidable (IsUnbroken word ∧ ' ' ∉ word.toList))

theorem IsWord.append {first second : String} (isFirst : IsWord first) (isSecond : IsWord second) :
    IsWord (first ++ second) := by
  refine ⟨isUnbroken_append.mpr ⟨isFirst.1, isSecond.1⟩, fun member => ?_⟩
  rw [String.toList_append] at member
  exact (List.mem_append.mp member).elim isFirst.2 isSecond.2

/-- A name that can be told from the name of a part in front of it. -/
def IsPlainName (name : String) : Prop := IsUnbroken name ∧ ¬ [':', ' '] <:+: name.toList

instance (name : String) : Decidable (IsPlainName name) :=
  inferInstanceAs (Decidable (IsUnbroken name ∧ ¬ [':', ' '] <:+: name.toList))

/-- A text with words behind it is broken where the text is. -/
theorem IsUnbroken.spaced {text : String} (plain : IsUnbroken text) {words : List String}
    (areWords : forall word, word ∈ words -> IsWord word) : IsUnbroken (spaced text words) := by
  induction words generalizing text with
  | nil => exact plain
  | cons word rest ih =>
      obtain ⟨isWord, restAre⟩ := List.forall_mem_cons.mp areWords
      have joined : IsUnbroken (text ++ " " ++ word) :=
        isUnbroken_append.mpr ⟨isUnbroken_append.mpr ⟨plain, by decide⟩, isWord.1⟩
      exact ih joined restAre

/-- A last word is read back. -/
theorem lastWord_inj {text other word otherWord : String} (isWord : IsWord word)
    (otherIsWord : IsWord otherWord) (same : text ++ " " ++ word = other ++ " " ++ otherWord) :
    text = other ∧ word = otherWord := by
  have lists := congrArg String.toList same
  simp only [String.toList_append, List.append_assoc] at lists
  obtain ⟨sameText, sameWord⟩ := lastSeparator_inj isWord.2 otherIsWord.2 lists
  exact ⟨String.toList_inj.mp sameText, String.toList_inj.mp sameWord⟩

/-- A first word is read back if there is a space behind it, or nothing. -/
theorem firstWord_inj {word otherWord text other : String} (isWord : IsWord word)
    (otherIsWord : IsWord otherWord) (spaced : exists rest, text.toList ++ [' '] = ' ' :: rest)
    (otherSpaced : exists rest, other.toList ++ [' '] = ' ' :: rest)
    (same : word ++ text = otherWord ++ other) : word = otherWord := by
  obtain ⟨rest, isRest⟩ := spaced
  obtain ⟨otherRest, isOtherRest⟩ := otherSpaced
  have lists := congrArg (fun text => text.toList ++ [' ']) same
  simp only [String.toList_append, List.append_assoc, isRest, isOtherRest] at lists
  exact String.toList_inj.mp (firstSeparator_inj isWord.2 otherIsWord.2 lists).1

/-- Words without spaces are read back from the end of a text. -/
theorem spaced_inj {text other : String} {words others : List String}
    (length : words.length = others.length) (areWords : forall word, word ∈ words -> IsWord word)
    (othersAre : forall word, word ∈ others -> IsWord word)
    (same : spaced text words = spaced other others) : text = other ∧ words = others := by
  induction words using List.reverseRecOn generalizing others with
  | nil =>
      cases List.length_eq_zero_iff.mp length.symm
      exact ⟨same, rfl⟩
  | append_singleton words word ih =>
      obtain rfl | ⟨otherWords, otherWord, rfl⟩ := List.eq_nil_or_concat others
      · rw [List.length_append] at length
        cases length
      · rw [List.concat_eq_append] at length othersAre same ⊢
        rw [spaced_concat, spaced_concat] at same
        rw [List.forall_mem_append, List.forall_mem_singleton] at areWords othersAre
        obtain ⟨sameText, rfl⟩ := lastWord_inj areWords.2 othersAre.2 same
        rw [List.length_append, List.length_append, Nat.add_right_cancel_iff] at length
        obtain ⟨rfl, rfl⟩ := ih length areWords.1 othersAre.1 sameText
        exact ⟨rfl, rfl⟩

/-! ### Numbers as words -/

/-- The digits of a number are below the base. -/
theorem exists_of_mem_toDigits {base : Nat} (positive : 1 < base) (number : Nat) {digit : Char}
    (member : digit ∈ Nat.toDigits base number) : exists value, value < base ∧ digit = value.digitChar := by
  induction number using Nat.strongRecOn with
  | ind number ih =>
      rcases Nat.lt_or_ge number base with below | above
      · rw [Nat.toDigits_of_lt_base below, List.mem_singleton] at member
        exact ⟨number, below, member⟩
      · rw [Nat.toDigits_of_base_le positive above] at member
        rcases List.mem_append.mp member with before | last
        · exact ih _ (Nat.div_lt_self (by omega) positive) before
        · exact ⟨number % base, Nat.mod_lt _ (by omega), List.mem_singleton.mp last⟩

/-- The digits of a number, in tens or sixteens, are neither spaces nor line breaks. -/
theorem digit_of_toDigits {base number : Nat} (small : base ≤ 16) (positive : 1 < base) {digit : Char}
    (member : digit ∈ Nat.toDigits base number) : digit ≠ ' ' ∧ digit ≠ '\n' := by
  have plain : forall value, value < 16 ->
      value.digitChar ≠ ' ' ∧ value.digitChar ≠ '\n' := by decide
  obtain ⟨value, below, rfl⟩ := exists_of_mem_toDigits positive number member
  exact plain value (Nat.lt_of_lt_of_le below small)

theorem isWord_natural (number : Nat) : IsWord (toString number) := by
  have plain {digit : Char} (member : digit ∈ (toString number).toList) : digit ≠ ' ' ∧ digit ≠ '\n' := by
    rw [Nat.toString_eq_repr, Nat.toList_repr] at member
    exact digit_of_toDigits (by decide) (by decide) member
  exact ⟨fun member => (plain member).2 rfl, fun member => (plain member).1 rfl⟩

theorem isWord_padded (width value : Nat) : IsWord (Hex.padded width value) := by
  have plain {digit : Char} (member : digit ∈ (Hex.fixed width value).toList) :
      digit ≠ ' ' ∧ digit ≠ '\n' := by
    rw [Hex.fixed, String.toList_ofList] at member
    rcases List.mem_append.mp member with filled | shown
    · rw [List.eq_of_mem_replicate filled]
      decide
    · exact digit_of_toDigits (by decide) (by decide) shown
  have isWord : IsWord (Hex.fixed width value) :=
    ⟨fun member => (plain member).2 rfl, fun member => (plain member).1 rfl⟩
  exact IsWord.append (by decide) isWord

end Text
end PackedJson
