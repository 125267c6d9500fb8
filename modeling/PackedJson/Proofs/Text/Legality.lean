import PackedJson.Proofs.Text.Identifier

namespace PackedJson
namespace Text
namespace Identifier

/-!
Identifiers by the rules of the language.

Identifiers of types are words that the language does not keep to itself.  An
identifier of a field is such a word, or a raw one for a keyword, with two
exceptions.  Some words that are only set aside for later are written as they
are.  And a number is put behind a raw identifier as a whole, which then means
the word that a field without the mark may have as well.
-/

/-! ### Words -/

/-- The characters that words consist of. -/
def isWordCharacter (character : Char) : Bool := character.isAlphanum || character == '_'

/-- A nonempty word over ASCII letters, digits and underscores that neither
starts with a digit nor is the underscore alone. -/
structure IsWord (ident : String) : Prop where
  characters : forall character, character ∈ ident.toList -> isWordCharacter character = true
  start : exists first rest, ident.toList = first :: rest ∧ first.isDigit = false
  notBlank : ident ≠ "_"

instance (ident : String) : Decidable (IsWord ident) :=
  let starts := match ident.toList with
    | [] => false
    | first :: _ => !first.isDigit
  decidable_of_iff (ident.toList.all isWordCharacter = true ∧ starts = true ∧ ident ≠ "_") (by
    constructor
    · rintro ⟨characters, start, notBlank⟩
      refine ⟨List.all_eq_true.mp characters, ?_, notBlank⟩
      cases letters : ident.toList with
      | nil => simp [starts, letters] at start
      | cons first rest => exact ⟨first, rest, rfl, by simpa [starts, letters] using start⟩
    · rintro ⟨characters, ⟨first, rest, letters, notDigit⟩, notBlank⟩
      exact ⟨List.all_eq_true.mpr characters, by simpa [starts, letters] using notDigit, notBlank⟩)

/-- The keywords of the language that are in use. -/
def strictKeywords : List String :=
  ["as", "async", "await", "break", "const", "continue", "crate", "dyn", "else", "enum",
    "extern", "false", "fn", "for", "if", "impl", "in", "let", "loop", "match", "mod", "move",
    "mut", "pub", "ref", "return", "self", "Self", "static", "struct", "super", "trait", "true",
    "type", "unsafe", "use", "where", "while"]

/-- The keywords of the language that are set aside. -/
def reservedKeywords : List String :=
  ["abstract", "become", "box", "do", "final", "gen", "macro", "override", "priv", "try",
    "typeof", "unsized", "virtual", "yield"]

/-- The keywords that are set aside and written as they are. -/
def overlooked : List String :=
  ["abstract", "become", "box", "do", "final", "macro", "override", "priv", "typeof", "unsized",
    "virtual"]

/-- The keywords that no raw identifier stands for. -/
def unescapable : List String := ["crate", "self", "super", "Self"]

/-- A word that can be written as it is. -/
structure IsLegal (ident : String) : Prop where
  word : IsWord ident
  notKeyword : ident ∉ strictKeywords ++ reservedKeywords

instance (ident : String) : Decidable (IsLegal ident) :=
  decidable_of_iff (IsWord ident ∧ ident ∉ strictKeywords ++ reservedKeywords)
    ⟨fun ⟨word, notKeyword⟩ => ⟨word, notKeyword⟩, fun legal => ⟨legal.word, legal.notKeyword⟩⟩

theorem not_isDigit_of_keyword {keyword : String}
    (isKeyword : keyword ∈ strictKeywords ++ reservedKeywords)
    {character : Char} (member : character ∈ keyword.toList) : character.isDigit = false := by
  have none : (strictKeywords ++ reservedKeywords).all
      (fun keyword => keyword.toList.all fun character => !character.isDigit) = true := by
    decide +kernel
  have all := List.all_eq_true.mp (List.all_eq_true.mp none keyword isKeyword) character member
  simpa only [Bool.not_eq_true'] using all

section Numbers

variable (base : String) (number : Nat)

theorem toList_numbered :
    (base ++ toString number).toList = base.toList ++ Nat.toDigits 10 number := by
  rw [String.toList_append]
  exact congrArg _ Nat.toList_repr

/-- There is a digit in a name with a number. -/
theorem exists_digit_numbered :
    exists character, character ∈ (base ++ toString number).toList ∧ character.isDigit = true := by
  obtain ⟨first, rest, same⟩ := List.exists_cons_of_ne_nil (Nat.toDigits_ne_nil (n := number) (b := 10))
  have member : first ∈ Nat.toDigits 10 number := same ▸ List.mem_cons_self
  exact ⟨first, toList_numbered base number ▸ List.mem_append_right _ member,
    Nat.isDigit_of_mem_toDigits (by decide) (by decide) member⟩

/-- No keyword ends in a number. -/
theorem notMem_keywords_numbered : base ++ toString number ∉ strictKeywords ++ reservedKeywords := by
  intro isKeyword
  obtain ⟨character, member, isDigit⟩ := exists_digit_numbered base number
  cases (not_isDigit_of_keyword isKeyword member).symm.trans isDigit

variable {base}

theorem IsWord.numbered (word : IsWord base) : IsWord (base ++ toString number) := by
  obtain ⟨first, rest, same, notDigit⟩ := word.start
  refine ⟨fun character member => ?_, ⟨first, rest ++ Nat.toDigits 10 number, ?_, notDigit⟩,
    fun blank => ?_⟩
  · rw [toList_numbered] at member
    refine (List.mem_append.mp member).elim (word.characters character) fun inNumber => ?_
    have isDigit := Nat.isDigit_of_mem_toDigits (by decide) (by decide) inNumber
    rw [isWordCharacter, Char.isAlphanum, isDigit, Bool.or_true, Bool.true_or]
  · rw [toList_numbered, same, List.cons_append]
  · obtain ⟨character, member, isDigit⟩ := exists_digit_numbered base number
    rw [blank] at member
    cases List.mem_singleton.mp member
    cases isDigit

end Numbers

/-! ### Types -/

theorem isAlphanum_toUpper {character : Char} (isWord : character.isAlphanum = true) :
    character.toUpper.isAlphanum = true := by
  rw [Char.isAlphanum, Bool.or_eq_true] at isWord ⊢
  rw [Char.isAlpha_toUpper_eq_isAlpha]
  exact isWord.imp_right fun isDigit => (toUpper_of_isDigit isDigit).symm ▸ isDigit

theorem isAlphanum_of_joinCapitalized {initial : Bool} {name : List Char} {character : Char}
    (member : character ∈ joinCapitalized initial name) : character.isAlphanum = true := by
  induction name generalizing initial with
  | nil => cases member
  | cons first rest ih =>
      unfold joinCapitalized at member
      split at member
      next isWord =>
        refine (List.mem_cons.mp member).elim (fun same => ?_) ih
        rw [same]
        split
        · exact isAlphanum_toUpper isWord
        · exact isWord
      next => exact ih member

theorem isDigit_of_isUpper {character : Char} (isUpper : character.isUpper = true) :
    character.isDigit = false := by
  refine Bool.eq_false_iff.mpr fun isDigit => ?_
  simp only [Char.isDigit, Char.isUpper, Bool.and_eq_true, decide_eq_true_eq,
    UInt32.le_iff_toNat_le] at isDigit isUpper
  exact absurd (Nat.le_trans isUpper.1 isDigit.2) (by decide)

/-- The only keyword with a capital letter is written with an underscore. -/
theorem pascalCase_cases (name : String) : pascalCase name = "Self_" ∨
    pascalCase name ≠ "Self" ∧ forall character, character ∈ (pascalCase name).toList ->
      character.isAlphanum = true := by
  let joined := joinCapitalized true name.toList
  let ident := String.ofList (if startsBadly joined then 'T' :: joined else joined)
  by_cases isSelf : ident = "Self"
  · exact .inl (if_pos isSelf)
  · have plain : pascalCase name = ident := if_neg isSelf
    rw [plain]
    refine .inr ⟨isSelf, fun character member => ?_⟩
    rw [String.toList_ofList] at member
    split at member
    · refine (List.mem_cons.mp member).elim (fun same => ?_) isAlphanum_of_joinCapitalized
      rw [same]
      rfl
    · exact isAlphanum_of_joinCapitalized member

/-- Types have legal identifiers. -/
theorem isLegal_pascalCase (name : String) : IsLegal (pascalCase name) := by
  obtain ⟨first, rest, same, isUpper⟩ := isCapital_pascalCase name
  have start : first.isDigit = false := isDigit_of_isUpper isUpper
  have notBlank : pascalCase name ≠ "_" := fun blank => by
    rw [blank] at same
    cases same
    cases isUpper
  rcases pascalCase_cases name with patched | ⟨notSelf, letters⟩
  · rw [patched]
    exact ⟨by decide +kernel, by decide +kernel⟩
  · refine ⟨⟨fun character member => ?_, ⟨first, rest, same, start⟩, notBlank⟩, fun isKeyword => ?_⟩
    · rw [isWordCharacter, letters character member, Bool.true_or]
    · have small : (strictKeywords ++ reservedKeywords).all (fun keyword =>
          keyword == "Self" || !(keyword.toList.any Char.isUpper)) = true := by decide +kernel
      have found := List.all_eq_true.mp small _ isKeyword
      rw [same, List.any_cons, isUpper, Bool.true_or, Bool.not_true, Bool.or_false] at found
      exact notSelf (eq_of_beq found)

/-- Identifiers that are legal, and different from one another. -/
structure AreLegal (names : List String) : Prop where
  each : forall name, name ∈ names -> IsLegal name
  distinct : names.Nodup

theorem IsLegal.isMadeFrom {base name : String} (legal : IsLegal base) (isMade : IsMadeFrom base name) :
    IsLegal name := by
  rcases isMade with rfl | ⟨number, _, rfl⟩
  · exact legal
  · exact ⟨legal.word.numbered number, notMem_keywords_numbered base number⟩

/-- The identifiers made from names of types are legal and distinct. -/
theorem areLegal_freshNames (names taken : List String) :
    AreLegal (freshNames (names.map pascalCase) taken) := by
  refine ⟨fun name member => ?_, nodup_freshNames _ taken⟩
  obtain ⟨base, isBase, isMade⟩ := exists_base_of_freshNames member
  obtain ⟨label, _, rfl⟩ := List.mem_map.mp isBase
  exact (isLegal_pascalCase label).isMadeFrom isMade

/-! ### Fields -/

/-- The mark of a raw identifier. -/
def isRaw (ident : String) : Bool := ['r', '#'].isPrefixOf ident.toList

/-- The word that an identifier means. -/
def wordOf (ident : String) : String :=
  if isRaw ident then String.ofList (ident.toList.drop 2) else ident

/-- An identifier that the generator gives to a field: a word, or a raw identifier
for a word that can be raw.  The only keywords among the words are overlooked ones. -/
structure IsFieldName (ident : String) : Prop where
  word : IsWord (wordOf ident)
  raw : isRaw ident = true -> wordOf ident ∉ unescapable
  bare : isRaw ident = false -> ident ∈ strictKeywords ++ reservedKeywords -> ident ∈ overlooked

/-- A raw identifier was given a number, and means the word of an identifier
without the mark. -/
def Clash (first second : String) : Prop :=
  exists keyword number, keyword ∈ keywords ∧ 2 ≤ number ∧
    first = "r#" ++ keyword ++ toString number ∧ second = keyword ++ toString number

/-- Identifiers as fields of one struct have them.  Their texts differ. -/
structure AreFieldNames (idents : List String) : Prop where
  each : forall ident, ident ∈ idents -> IsFieldName ident
  distinct : idents.Nodup
  meanings : forall first second, first ∈ idents -> second ∈ idents -> first ≠ second ->
    wordOf first = wordOf second -> Clash first second ∨ Clash second first

theorem isRaw_raw (word : String) : isRaw ("r#" ++ word) = true := by
  have mark : "r#".toList = ['r', '#'] := rfl
  rw [isRaw, String.toList_append, mark]
  exact List.isPrefixOf_iff_prefix.mpr (List.prefix_append _ _)

theorem wordOf_raw (word : String) : wordOf ("r#" ++ word) = word := by
  have mark : "r#".toList = ['r', '#'] := rfl
  rw [wordOf, if_pos (isRaw_raw word), String.toList_append, mark]
  exact String.ofList_toList

theorem IsWord.notRaw {ident : String} (word : IsWord ident) : isRaw ident = false := by
  refine Bool.eq_false_iff.mpr fun raw => ?_
  obtain ⟨rest, same⟩ := List.isPrefixOf_iff_prefix.mp raw
  have member : '#' ∈ ident.toList := same ▸ List.mem_cons_of_mem _ List.mem_cons_self
  cases word.characters '#' member

theorem IsWord.wordOf_eq {ident : String} (word : IsWord ident) : wordOf ident = ident :=
  if_neg (Bool.eq_false_iff.mp word.notRaw)

/-- Small letters, digits and underscores. -/
def isSmall (character : Char) : Bool :=
  character.isLower || character.isDigit || character == '_'

theorem isWordCharacter_of_isSmall {character : Char} (small : isSmall character = true) :
    isWordCharacter character = true := by
  unfold isSmall at small
  unfold isWordCharacter Char.isAlphanum Char.isAlpha
  simp only [Bool.or_eq_true] at small ⊢
  exact small.imp_left fun isWord => isWord.imp_left .inr

theorem isSmall_toLower {character : Char} (isWord : character.isAlphanum = true) :
    isSmall character.toLower = true := by
  rw [Char.isAlphanum, Bool.or_eq_true] at isWord
  unfold isSmall
  rw [Char.isLower_toLower_eq_isAlpha]
  rcases isWord with isAlpha | isDigit
  · rw [isAlpha, Bool.true_or, Bool.true_or]
  · have notUpper : ¬ character.isUpper = true := fun isUpper =>
      Bool.false_ne_true ((isDigit_of_isUpper isUpper).symm.trans isDigit)
    rw [Char.toLower_eq_of_not_isUpper notUpper, isDigit, Bool.or_true, Bool.true_or]

theorem isSmall_of_joinLowered {collected name : List Char} {afterSmall : Bool}
    (small : forall character, character ∈ collected -> isSmall character = true) :
    forall character, character ∈ joinLowered collected afterSmall name ->
      isSmall character = true := by
  have separated : forall character, character ∈ '_' :: collected -> isSmall character = true :=
    List.forall_mem_cons.mpr ⟨rfl, small⟩
  induction name generalizing collected afterSmall with
  | nil => exact small
  | cons first rest ih =>
      unfold joinLowered
      dsimp only
      split
      next isWord =>
        have extended : forall character, character ∈ first.toLower ::
            (if (first.isUpper && afterSmall) = true then '_' :: collected else collected) ->
              isSmall character = true := by
          refine List.forall_mem_cons.mpr ⟨isSmall_toLower isWord, ?_⟩
          split
          · exact separated
          · exact small
        exact ih extended (List.forall_mem_cons.mpr ⟨rfl, extended⟩)
      next =>
        split
        · exact ih small separated
        · exact ih small separated
        · exact ih separated (List.forall_mem_cons.mpr ⟨rfl, separated⟩)

/-- The identifier of a field is a raw one for a keyword, or a word that is not
among the keywords that are written so. -/
theorem snakeCase_cases (name : String) :
    (exists keyword, keyword ∈ keywords ∧ snakeCase name = "r#" ++ keyword) ∨
      IsWord (snakeCase name) ∧ snakeCase name ∉ keywords ∧ snakeCase name ∉ unescapable := by
  let joined := ((joinLowered [] false name.toList).dropWhile (· == '_')).reverse
  let legal := String.ofList (if startsBadly joined then '_' :: joined else joined)
  let ident := if legal = "_" then "_field" else legal
  have small : forall character, character ∈ ident.toList -> isSmall character = true := by
    have inJoined : forall character, character ∈ joined -> isSmall character = true :=
      fun character member => isSmall_of_joinLowered (by simp) character
        ((List.dropWhile_sublist _).subset (List.mem_reverse.mp member))
    change forall character, character ∈ (if legal = "_" then "_field" else legal).toList -> _
    split
    · exact List.all_eq_true.mp (by decide : "_field".toList.all isSmall = true)
    · rw [String.toList_ofList]
      split
      · exact List.forall_mem_cons.mpr ⟨rfl, inJoined⟩
      · exact inJoined
  have word : IsWord ident := by
    refine ⟨fun character member => isWordCharacter_of_isSmall (small character member), ?_, ?_⟩
    · change exists first rest, (if legal = "_" then "_field" else legal).toList = first :: rest ∧ _
      split
      · exact ⟨'_', _, rfl, rfl⟩
      · rw [String.toList_ofList]
        cases same : joined with
        | nil => exact ⟨'_', [], rfl, rfl⟩
        | cons first rest =>
            rw [startsBadly]
            split
            · exact ⟨'_', _, rfl, rfl⟩
            next notDigit => exact ⟨first, rest, rfl, Bool.eq_false_iff.mpr notDigit⟩
    · change (if legal = "_" then "_field" else legal) ≠ "_"
      split
      · decide
      next notBlank => exact notBlank
  have cases : snakeCase name = if ident = "self" ∨ ident = "super" ∨ ident = "crate" then ident ++ "_"
      else if keywords.contains ident then "r#" ++ ident else ident := rfl
  rw [cases]
  split
  next isPath =>
    refine .inr ?_
    rcases isPath with same | same | same <;> rw [same] <;>
      exact ⟨by decide +kernel, by decide +kernel, by decide +kernel⟩
  next notPath =>
    split
    next isKeyword => exact .inl ⟨ident, List.contains_iff_mem.mp isKeyword, rfl⟩
    next notKeyword =>
      refine .inr ⟨word, fun member => notKeyword (List.contains_iff_mem.mpr member), fun member => ?_⟩
      simp only [unescapable, List.mem_cons, List.not_mem_nil, or_false] at member
      rcases member with isCrate | isSelf | isSuper | isCapital
      · exact notPath (.inr (.inr isCrate))
      · exact notPath (.inl isSelf)
      · exact notPath (.inr (.inl isSuper))
      · have capital : 'S' ∈ ident.toList := isCapital ▸ List.mem_cons_self
        cases small 'S' capital

/-- What a field may be called that is made from the identifier of some name: the
raw identifier of a keyword, the same with a number, or a word. -/
inductive FieldForm (ident : String) : Prop where
  | raw {keyword : String} : keyword ∈ keywords -> ident = "r#" ++ keyword -> FieldForm ident
  | numbered {keyword : String} {number : Nat} : keyword ∈ keywords -> 2 ≤ number ->
      ident = "r#" ++ keyword ++ toString number -> FieldForm ident
  | word : IsWord ident -> ident ∉ keywords -> ident ∉ unescapable -> FieldForm ident

theorem keyword_of_mem {keyword : String} (member : keyword ∈ keywords) :
    IsWord keyword ∧ keyword ∈ strictKeywords ++ reservedKeywords ∧ keyword ∉ unescapable :=
  (by decide +kernel : forall keyword, keyword ∈ keywords -> IsWord keyword ∧
    keyword ∈ strictKeywords ++ reservedKeywords ∧ keyword ∉ unescapable) keyword member

theorem fieldForm_of_isMadeFrom {name ident : String} (isMade : IsMadeFrom (snakeCase name) ident) :
    FieldForm ident := by
  rcases snakeCase_cases name with ⟨keyword, isKeyword, same⟩ | ⟨word, notKeyword, notPath⟩
  · rcases isMade with rfl | ⟨number, atLeast, rfl⟩
    · exact .raw isKeyword same
    · exact .numbered isKeyword atLeast (by rw [same])
  · rcases isMade with rfl | ⟨number, _, rfl⟩
    · exact .word word notKeyword notPath
    · have unlisted := notMem_keywords_numbered (snakeCase name) number
      refine .word (word.numbered number) (fun member => unlisted (keyword_of_mem member).2.1)
        fun member => unlisted ?_
      exact (by decide +kernel : forall word, word ∈ unescapable ->
        word ∈ strictKeywords ++ reservedKeywords) _ member

/-- The word that a raw identifier with a number means. -/
theorem wordOf_numbered (keyword : String) (number : Nat) :
    wordOf ("r#" ++ keyword ++ toString number) = keyword ++ toString number := by
  rw [String.append_assoc, wordOf_raw]

theorem FieldForm.isFieldName {ident : String} (form : FieldForm ident) : IsFieldName ident := by
  have notRaw {word : String} : isRaw ("r#" ++ word) ≠ false :=
    Bool.eq_false_iff.not.mpr (not_not.mpr (isRaw_raw word))
  cases form with
  | @raw keyword isKeyword same =>
      obtain ⟨word, _, escapable⟩ := keyword_of_mem isKeyword
      rw [same]
      exact ⟨(wordOf_raw keyword).symm ▸ word, fun _ => (wordOf_raw keyword).symm ▸ escapable,
        fun never => absurd never notRaw⟩
  | @numbered keyword number isKeyword _ same =>
      have means := wordOf_numbered keyword number
      have unlisted := notMem_keywords_numbered keyword number
      rw [same]
      refine ⟨means.symm ▸ (keyword_of_mem isKeyword).1.numbered number, fun _ member => unlisted ?_,
        fun never => absurd never ?_⟩
      · exact (by decide +kernel : forall word, word ∈ unescapable ->
          word ∈ strictKeywords ++ reservedKeywords) _ (means ▸ member)
      · rw [String.append_assoc]
        exact notRaw
  | word word notKeyword notPath =>
      refine ⟨word.wordOf_eq.symm ▸ word, fun raw => ?_, fun _ listed => ?_⟩
      · cases word.notRaw.symm.trans raw
      · exact ((by decide +kernel : forall word, word ∈ strictKeywords ++ reservedKeywords ->
          word ∈ keywords ∨ word ∈ unescapable ∨ word ∈ overlooked) ident listed).resolve_left notKeyword
          |>.resolve_left notPath

theorem FieldForm.notMem_keywords {ident : String} (form : FieldForm ident)
    (bare : isRaw ident = false) : ident ∉ keywords := by
  cases form with
  | @raw keyword _ same =>
      rw [same, isRaw_raw] at bare
      cases bare
  | @numbered keyword number _ _ same =>
      rw [same, String.append_assoc, isRaw_raw] at bare
      cases bare
  | word _ notKeyword _ => exact notKeyword

/-- Identifiers are told by the mark and the word. -/
theorem eq_of_wordOf_eq {first second : String} (marks : isRaw first = isRaw second)
    (words : wordOf first = wordOf second) : first = second := by
  unfold wordOf at words
  rw [← marks] at words
  split at words
  next raw =>
    obtain ⟨rest, isFirst⟩ := List.isPrefixOf_iff_prefix.mp raw
    obtain ⟨other, isSecond⟩ := List.isPrefixOf_iff_prefix.mp (marks ▸ raw)
    rw [← isFirst, ← isSecond] at words
    have same : rest = other := String.ofList_injective words
    exact String.toList_inj.mp (by rw [← isFirst, ← isSecond, same])
  next => exact words

/-- A raw identifier that means the word of an identifier without the mark has a
number: the raw identifier of a keyword means that keyword. -/
theorem FieldForm.clash {first second : String} (form : FieldForm first) (otherForm : FieldForm second)
    (raw : isRaw first = true) (bare : isRaw second = false) (same : wordOf first = wordOf second) :
    Clash first second := by
  have word : wordOf second = second := if_neg (Bool.eq_false_iff.mp bare)
  rw [word] at same
  cases form with
  | @raw keyword isKeyword isFirst =>
      rw [isFirst, wordOf_raw] at same
      exact absurd isKeyword (same ▸ otherForm.notMem_keywords bare)
  | @numbered keyword number isKeyword atLeast isFirst =>
      rw [isFirst, wordOf_numbered] at same
      exact ⟨keyword, number, isKeyword, atLeast, isFirst, same.symm⟩
  | word word _ _ => cases word.notRaw.symm.trans raw

/-- Identifiers of one meaning have one text, unless one is a raw identifier with
a number and the other has no mark. -/
theorem FieldForm.eq_or_clash {first second : String} (firstForm : FieldForm first)
    (secondForm : FieldForm second) (same : wordOf first = wordOf second) :
    first = second ∨ Clash first second ∨ Clash second first := by
  cases firstMark : isRaw first <;> cases secondMark : isRaw second
  · exact .inl (eq_of_wordOf_eq (firstMark.trans secondMark.symm) same)
  · exact .inr (.inr (secondForm.clash firstForm secondMark firstMark same.symm))
  · exact .inr (.inl (firstForm.clash secondForm firstMark secondMark same))
  · exact .inl (eq_of_wordOf_eq (firstMark.trans secondMark.symm) same)

/-- The identifiers made from names of properties. -/
theorem areFieldNames_freshNames (names taken : List String) :
    AreFieldNames (freshNames (names.map snakeCase) taken) := by
  have form {ident : String} (member : ident ∈ freshNames (names.map snakeCase) taken) :
      FieldForm ident := by
    obtain ⟨base, isBase, isMade⟩ := exists_base_of_freshNames member
    obtain ⟨name, _, rfl⟩ := List.mem_map.mp isBase
    exact fieldForm_of_isMadeFrom isMade
  exact ⟨fun ident member => (form member).isFieldName, nodup_freshNames _ taken,
    fun first second isFirst isSecond different same =>
      ((form isFirst).eq_or_clash (form isSecond) same).resolve_left different⟩

/-- A raw identifier and a word of one meaning, and a word that the language has
set aside. -/
example : freshNames (["type", "Type", "type2", "abstract"].map snakeCase) [] =
    ["r#type", "r#type2", "type2", "abstract"] := by decide +kernel

end Identifier
end Text
end PackedJson
