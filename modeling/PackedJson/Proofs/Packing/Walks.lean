import PackedJson.Proofs.Packing.Steps

namespace PackedJson
namespace Packer

open Arena TextSchema

/-!
Walks over the values inside a value.

A walk goes on after a violation.  In the end it has noted the violations of
all values, and hands over the first one.  The values of a walk go to regions
that are apart from one another, so that each of them is still there when the
walk is over.
-/

section Walks

variable {document : Json} {limit : Nat} {owned fresh : List Extent} {matter : Matter}
  {before middle after : PackState}

/-- A step of a walk has become of a value what its verdict says. -/
structure Gathered (document : Json) (limit : Nat) (owned : List Extent) (matters : List Matter)
    (before : PackState) (first next : Option Violation) (verdicts : List Verdict)
    (after : PackState) : Prop where
  changes : Changes owned before after
  judged : List.Forall₂ (Judges document limit) matters verdicts
  violations : after.violations = before.violations ++ verdicts.flatMap Verdict.violations
  first : next = first.or (verdicts.flatMap Verdict.violations).head?

/-- A step of a walk deals with a matter. -/
def Gathers (document : Json) (limit : Nat) (owned : List Extent) (matter : Matter)
    (step : Option Violation -> PackM (Option Violation)) (before : PackState)
    (good : Value -> PackState -> Prop) : Prop :=
  forall first, Run (step first) before
    (fun next after => exists verdict,
      Gathered document limit owned [matter] before first next [verdict] after ∧
      forall value, verdict = .fits value -> good value after)
    (Refuses (IsDecided document limit matter) owned before)

theorem Fills.gathers {step : PackM Unit} {good : Value -> PackState -> Prop}
    (fills : Fills document limit owned matter step before good) :
    Gathers document limit owned matter (gather step) before good := by
  intro first
  unfold Fills Run at fills
  unfold Run gather
  cases ends : step before with
  | ok _ after =>
      simp only [ends] at fills
      obtain ⟨fresh, value, moves, judges, isGood⟩ := fills
      refine ⟨.fits value, ⟨⟨fresh, moves.evolves⟩, .cons judges .nil, ?_, ?_⟩, ?_⟩
      · exact moves.violations.trans (List.append_nil _).symm
      · cases first <;> rfl
      · rintro _ ⟨rfl⟩
        exact isGood
  | error failure after =>
      simp only [ends] at fills
      obtain ⟨changes, expected | ⟨violation, others, rfl, noted, judges⟩⟩ := fills
      · cases failure with
        | violation => exact expected.elim
        | _ => exact ⟨expected, changes⟩
      · refine ⟨.violates violation others, ⟨changes, .cons judges .nil, ?_, ?_⟩, nofun⟩
        · rw [noted, List.flatMap_singleton]
          rfl
        · cases first <;> rfl

/-- A matter that is settled without a step. -/
theorem gathers_settled {value : Value} {good : Value -> PackState -> Prop}
    (judges : Judges document limit matter (.fits value)) (isGood : good value before) :
    Gathers document limit owned matter pure before good := by
  intro first
  refine run_pure.mpr ⟨.fits value, ⟨⟨[], .start⟩, .cons judges .nil, ?_, ?_⟩, ?_⟩
  · exact (List.append_nil _).symm
  · cases first <;> rfl
  · rintro _ ⟨rfl⟩
    exact isGood

theorem Gathers.mono {step : Option Violation -> PackM (Option Violation)} {inner : List Extent}
    {good weaker : Value -> PackState -> Prop}
    (gathers : Gathers document limit inner matter step before good)
    (covers : Covers owned inner)
    (onGood : forall value after, Changes inner before after -> good value after ->
      weaker value after) :
    Gathers document limit owned matter step before weaker := by
  intro first
  refine Run.imp (gathers first) ?_ ?_
  · rintro next after ⟨verdict, ⟨⟨fresh, evolves⟩, judged, noted, isFirst⟩, isGood⟩
    exact ⟨verdict, ⟨⟨fresh, evolves.mono covers⟩, judged, noted, isFirst⟩,
      fun value same => onGood value after ⟨fresh, evolves⟩ (isGood value same)⟩
  · exact fun failure after ⟨expected, fresh, evolves⟩ =>
      ⟨expected, fresh, evolves.mono covers⟩

theorem Gathered.nil (owned : List Extent) (state : PackState) (first : Option Violation) :
    Gathered document limit owned [] state first first [] state :=
  ⟨⟨[], .start⟩, .nil, (List.append_nil _).symm, by cases first <;> rfl⟩

theorem Gathered.append {matters others : List Matter}
    {verdicts rest : List Verdict} {first next last : Option Violation}
    (gathered : Gathered document limit owned matters before first next verdicts middle)
    (continued : Gathered document limit owned others middle next last rest after) :
    Gathered document limit owned (matters ++ others) before first last (verdicts ++ rest) after := by
  obtain ⟨fresh, evolves⟩ := gathered.changes
  obtain ⟨more, evolved⟩ := continued.changes
  refine ⟨⟨_, evolves.trans evolved (Covers.refl owned).append⟩,
    List.rel_append gathered.judged continued.judged, ?_, ?_⟩
  · rw [continued.violations, gathered.violations, List.flatMap_append, List.append_assoc]
  · rw [continued.first, gathered.first, List.flatMap_append, List.head?_append, Option.or_assoc]

theorem Gathered.mono {more : List Extent} {matters : List Matter} {verdicts : List Verdict}
    {first next : Option Violation}
    (gathered : Gathered document limit owned matters before first next verdicts after)
    (covers : Covers more owned) :
    Gathered document limit more matters before first next verdicts after := by
  obtain ⟨⟨fresh, evolves⟩, judged, noted, isFirst⟩ := gathered
  exact ⟨⟨fresh, evolves.mono covers⟩, judged, noted, isFirst⟩

theorem Gathered.of_moves {inner : List Extent} {matters : List Matter} {verdicts : List Verdict}
    {first next : Option Violation} (moves : Moves owned before fresh middle)
    (gathered : Gathered document limit inner matters middle first next verdicts after)
    (covers : Covers (fresh ++ owned) inner) :
    Gathered document limit owned matters before first next verdicts after := by
  obtain ⟨⟨more, evolves⟩, judged, noted, isFirst⟩ := gathered
  exact ⟨⟨_, moves.evolves.trans evolves covers⟩, judged, moves.violations ▸ noted, isFirst⟩

/-- A value inside a value: where it is to be written, what is asked of it and
how it is read. -/
structure Part where
  region : Extent
  matter : Matter
  /-- The value is one that text can give. -/
  clean : Prop
  reads : Value -> Arena -> Prop

/-- A step of a walk writes a part into its empty region. -/
def WritesPart (document : Json) (limit : Nat) (part : Part)
    (step : Option Violation -> PackM (Option Violation)) (before : PackState) : Prop :=
  Gathers document limit [part.region] part.matter step before fun value after =>
    before.data.Zero part.region -> part.clean ->
      Lasts (Since part.region before.data.used after.data.used) after.data (part.reads value)

/-- The parts of a walk were written. -/
def AreWritten (parts : List Part) (verdicts : List Verdict) (before after : Arena) : Prop :=
  List.Forall₂ (fun part verdict => forall value, verdict = Verdict.fits value ->
    before.Zero part.region -> part.clean ->
      Lasts (Since part.region before.used after.used) after (part.reads value)) parts verdicts

/-- The regions of parts are in use and apart from one another. -/
structure AreApart (parts : List Part) (arena : Arena) : Prop where
  inUse : forall part, part ∈ parts -> part.region.start + part.region.length ≤ arena.used
  apart : parts.Pairwise fun first second => first.region.Apart second.region

/-- What a walk wrote behind its first part. -/
theorem AreWritten.earlier {owned fresh : List Extent} {parts : List Part}
    {verdicts : List Verdict} {first middle last : Arena}
    (written : AreWritten parts verdicts middle last) (evolves : Evolves owned first fresh middle)
    (writable : first.Writable) (apart : forall part, part ∈ parts ->
      part.region.start + part.region.length ≤ first.used ∧
      forall other, other ∈ owned -> part.region.Apart other) :
    AreWritten parts verdicts first last := by
  refine List.forall₂_iff_get.mpr ⟨written.length_eq, fun index inParts inVerdicts value same => ?_⟩
  intro zero clean
  obtain ⟨inUse, separate⟩ := apart _ (List.get_mem parts ⟨index, inParts⟩)
  have kept := evolves.preserves_region writable inUse separate
  have lasts := (List.forall₂_iff_get.mp written).2 index inParts inVerdicts value same
    (kept.zero zero fun _ => id) clean
  exact lasts.mono fun position since =>
    since.mono ⟨Nat.le_refl _, Nat.le_refl _⟩ kept.grown.used (Nat.le_refl _)

/-- A walk over parts that are apart from one another. -/
theorem run_walk {Item : Type} {step : Option Violation -> Item -> PackM (Option Violation)}
    {parts : List Part} {items : List Item} {start : Arena} (grown : Grown start before.data)
    (writable : before.data.Writable) (apart : AreApart parts before.data)
    (writes : List.Forall₂ (fun part item => forall state, Grown start state.data ->
      WritesPart document limit part (fun first => step first item) state) parts items)
    (first : Option Violation) :
    Run (items.foldlM step first) before
      (fun next after => exists verdicts, Gathered document limit (parts.map Part.region)
        (parts.map Part.matter) before first next verdicts after ∧
        AreWritten parts verdicts before.data after.data)
      (Refuses (forall part, part ∈ parts -> IsDecided document limit part.matter)
        (parts.map Part.region) before) := by
  induction writes generalizing before first with
  | nil => exact run_pure.mpr ⟨[], .nil _ _ _, .nil⟩
  | @cons part item parts items writesPart _ ih =>
      obtain ⟨partInUse, restInUse⟩ := List.forall_mem_cons.mp apart.inUse
      obtain ⟨partApart, restApart⟩ := List.pairwise_cons.mp apart.apart
      have coversPart : Covers ((part :: parts).map Part.region) [part.region] :=
        .single List.mem_cons_self ⟨Nat.le_refl _, Nat.le_refl _⟩
      have coversRest : Covers ((part :: parts).map Part.region) (parts.map Part.region) :=
        .of_subset fun _ => List.mem_cons_of_mem _
      rw [List.foldlM_cons]
      refine Run.andThen (writesPart before grown first) ?_ ?_
      · rintro next middle ⟨verdict, gathered, isWritten⟩
        obtain ⟨fresh, evolves⟩ := gathered.changes
        have more := evolves.grown writable
        refine Run.imp (ih (grown.trans more) (more.writable writable)
          ⟨fun other member => Nat.le_trans (restInUse other member) more.used, restApart⟩ next)
          ?_ ?_
        · rintro last after ⟨verdicts, continued, areWritten⟩
          refine ⟨verdict :: verdicts, (gathered.mono coversPart).append
            (continued.mono coversRest), .cons ?_ ?_⟩
          · intro value same zero clean
            obtain ⟨moreFresh, evolved⟩ := continued.changes
            refine (isWritten value same zero clean).carry evolved (more.writable writable)
              (Nat.le_trans partInUse more.used) ?_
            intro region member
            obtain ⟨other, inParts, rfl⟩ := List.mem_map.mp member
            exact ⟨partApart other inParts, restInUse other inParts⟩
          · refine areWritten.earlier evolves writable fun other member =>
              ⟨restInUse other member, fun region isPart => ?_⟩
            cases List.mem_singleton.mp isPart
            exact (partApart other member).symm
        · rintro failure after ⟨expected, moreFresh, evolved⟩
          exact ⟨expected.mono fun decided other member => decided other
            (List.mem_cons_of_mem _ member), _, (evolves.mono coversPart).trans
              (evolved.mono coversRest) (Covers.refl _).append⟩
      · exact fun failure after ⟨expected, fresh, evolves⟩ =>
          ⟨expected.mono fun decided => decided part List.mem_cons_self, fresh,
            evolves.mono coversPart⟩

/-! ### The end of a walk -/

theorem fits_of_noViolations {verdicts : List Verdict}
    (none : verdicts.flatMap Verdict.violations = []) :
    exists values, verdicts = values.map Verdict.fits ∧ verdicts.filterMap Verdict.value? = values := by
  induction verdicts with
  | nil => exact ⟨[], rfl, rfl⟩
  | cons verdict rest ih =>
      rw [List.flatMap_cons] at none
      obtain ⟨ofVerdict, ofRest⟩ := List.append_eq_nil_iff.mp none
      obtain ⟨values, same, found⟩ := ih ofRest
      cases verdict with
      | violates first others => cases ofVerdict
      | fits value =>
          refine ⟨value :: values, by rw [same]; rfl, ?_⟩
          rw [List.filterMap_cons, found]
          rfl

/-- A walk is settled: either all values fit, or its first violation is the
failure. -/
theorem fills_settle {matters : List Matter} {verdicts : List Verdict} {first : Option Violation}
    {whole : List Value -> Value} {good : Value -> PackState -> Prop}
    (gathered : Gathered document limit owned matters before none first verdicts after)
    (noted : forall judged, List.Forall₂ (Judges document limit) matters judged ->
      Judges document limit matter (.combine whole judged))
    (isGood : forall values, verdicts = values.map Verdict.fits -> good (whole values) after) :
    Run (settle first) after
      (fun _ last => exists fresh value, Moves owned before fresh last ∧
        Judges document limit matter (.fits value) ∧ good value last)
      (Fails document limit owned matter before) := by
  have judges := noted verdicts gathered.judged
  have same := gathered.first
  rw [Option.none_or] at same
  unfold Verdict.combine at judges
  cases violations : verdicts.flatMap Verdict.violations with
  | nil =>
      rw [violations] at judges same
      obtain ⟨values, areFits, found⟩ := fits_of_noViolations violations
      subst same
      obtain ⟨fresh, evolves⟩ := gathered.changes
      have unnoted := gathered.violations
      rw [violations, List.append_nil] at unnoted
      rw [found] at judges
      exact ⟨fresh, whole values, ⟨unnoted, evolves⟩, judges, isGood values areFits⟩
  | cons violation others =>
      rw [violations] at judges same
      subst same
      have noted := gathered.violations
      rw [violations] at noted
      exact ⟨gathered.changes, Or.inr ⟨violation, others, rfl, noted, judges⟩⟩

end Walks

end Packer
end PackedJson
