import Extractor.Contracts
import Extractor.Lib.Fallible
import Extractor.Lib.Text
import Mathlib.Data.List.Dedup
import Mathlib.Order.Defs.LinearOrder
import Mathlib.Logic.Function.Basic

/-!
# Legacy shadow comparison

`tools/corpus/src/shadow.rs`: the offline comparison of legacy observations with the documents that
are extracted now. Each source class gets a verdict from two counts and two searches of its cases,
and the reason of a hold is looked up again by another function.

The measurements are `f64` values in the source. Here they are elements of a linear order, which is
what the comparisons of such values amount to where none of them is NaN.

## Main definitions

* `CaseReport.fromCase`: one comparison, with its overlap where both sides succeeded.
* `ClassReport.verdict`, `ClassReport.verdictReason`: the decision and the text that explains it.
* `Report.fromFixture`: the comparisons of all classes.

## Main results

* `ClassReport.verdict_eq_hold_iff`: a hold is one case of legacy success that does not pass.
* `Report.classes_of_fromFixture`: a report has the cases of each class in the order of the fixture.
* `shadow_verdict`: what each verdict says, and that the reason of a hold names its case.
-/

namespace Extractor.Shadow

variable {α : Type}

/-! ### Data -/

/-- `SourceClass`. -/
inductive SourceClass
  | webArticle
  | youtubeTranscript
  | xPost
  deriving DecidableEq

/-- `LegacyObservation`. -/
structure LegacyObservation where
  capturePath : String
  success : Bool
  text : String
  blockKinds : List (String × ℕ)

/-- `ShadowCase`. -/
structure ShadowCase where
  name : String
  sourceClass : SourceClass
  sourceAddress : String
  currentCase : Option String
  legacy : LegacyObservation

/-- The part of `ShadowFixture` that is compared. -/
structure ShadowFixture (α : Type) where
  criteria : SourceClass → Option α
  cases : List ShadowCase

/-- `ShadowError`, for the errors of a comparison. -/
inductive ShadowError
  | missingCriteria (case : String) (sourceClass : SourceClass)
  | currentExtraction (case : String)
  | metricSize (metric : String)
  deriving DecidableEq

/-- `CurrentDocument`: the text of a document, and how many blocks of each kind it has. -/
structure CurrentDocument where
  text : String
  blockKinds : List (String × ℕ)

/-- `CurrentOutcome`. -/
inductive CurrentOutcome
  | success (document : CurrentDocument)
  | unsupported

/-- `CaseReport`. -/
structure CaseReport (α : Type) where
  name : String
  sourceAddress : String
  legacy : LegacyObservation
  current : CurrentOutcome
  overlap : Option α

/-- `ClassReport`. -/
structure ClassReport (α : Type) where
  minimumOverlap : α
  cases : List (CaseReport α)

/-- `Verdict`. -/
inductive Verdict
  | approve
  | hold
  | insufficientEvidence
  deriving DecidableEq

/-- What the comparison takes from the corpus, from `f64` and from Unicode. -/
structure ShadowLib (α : Type) where
  /-- `document_for_case`. -/
  documentForCase : String → Option Document
  /-- `f64::from`, for `u32`. -/
  fromU32 : ℕ → α
  div : α → α → α
  one : α
  /-- `f64::default`. -/
  zero : α
  /-- A value with three decimals. -/
  format : α → String
  isAlphanumeric : Char → Bool
  toLowercase : List Char → List Char

/-! ### One case -/

/-- `CurrentDocument::from_document`. -/
def CurrentDocument.fromDocument (document : Document) : CurrentDocument where
  text := " ".intercalate (document.blocks.map DocumentBlock.text)
  blockKinds :=
    let isHeading : DocumentBlock → Bool := fun block => match block with
      | .heading _ _ _ => true
      | .paragraph _ _ => false
    [("heading", document.blocks.countP isHeading),
      ("paragraph", document.blocks.countP fun block => !isHeading block)].filter
        fun kind => kind.2 != 0

/-- `CurrentOutcome::is_success`. -/
def CurrentOutcome.isSuccess : CurrentOutcome → Bool
  | .success _ => true
  | .unsupported => false

variable (lib : ShadowLib α)

/-- `tokens`: the words of a text in lower case, each once. -/
def tokens (text : String) : List (List Char) :=
  (((text.toList.splitOnP fun character => !lib.isAlphanumeric character).filter
    fun token => !token.isEmpty).map lib.toLowercase).dedup

/-- `count_as_f64`. -/
def countAsF64 (value : ℕ) (metric : String) : Except ShadowError α :=
  if value < 2 ^ 32 then .ok (lib.fromU32 value) else .error (.metricSize metric)

/-- `content_overlap`: the share of the legacy words that the current text has. -/
def contentOverlap (legacy current : String) : Except ShadowError α :=
  let legacy := tokens lib legacy
  if legacy.isEmpty then .ok lib.one
  else do
    let current := tokens lib current
    let covered := legacy.countP fun token => current.contains token
    let numerator ← countAsF64 lib covered "content-overlap tokens"
    let denominator ← countAsF64 lib legacy.length "content-overlap tokens"
    .ok (lib.div numerator denominator)

/-- The current side of a comparison. -/
def currentOutcome (case : ShadowCase) : Except ShadowError CurrentOutcome :=
  match case.currentCase with
  | some currentCase =>
      match lib.documentForCase currentCase with
      | some document => .ok (.success (.fromDocument document))
      | none => .error (.currentExtraction case.name)
  | none => .ok .unsupported

/-- The overlap of a comparison, where both sides succeeded. -/
def overlapOf (case : ShadowCase) (current : CurrentOutcome) : Except ShadowError (Option α) :=
  match current with
  | .success document =>
      if case.legacy.success then (contentOverlap lib case.legacy.text document.text).map some
      else .ok none
  | .unsupported => .ok none

/-- `CaseReport::from_case`. -/
def CaseReport.fromCase (case : ShadowCase) : Except ShadowError (CaseReport α) := do
  let current ← currentOutcome lib case
  let overlap ← overlapOf lib case current
  .ok ⟨case.name, case.sourceAddress, case.legacy, current, overlap⟩

variable [LinearOrder α]

/-- `CaseReport::hold_reason`. -/
def CaseReport.holdReason (case : CaseReport α) (minimumOverlap : α) : Option String :=
  match case.current with
  | .unsupported =>
      if case.legacy.success then some ("current extraction is unsupported: " ++ case.name)
      else none
  | .success _ =>
      if case.legacy.success ∧ case.overlap.any fun value => decide (value < minimumOverlap) then
        some ("content overlap below " ++ lib.format minimumOverlap ++ ": " ++ case.name ++ " (" ++
          lib.format (case.overlap.getD lib.zero) ++ ")")
      else none

/-! ### One class -/

/-- `ClassReport::new`. -/
def ClassReport.new (minimumOverlap : α) : ClassReport α := ⟨minimumOverlap, []⟩

/-- `ClassReport::legacy_successes`. -/
def ClassReport.legacySuccesses (report : ClassReport α) : ℕ :=
  report.cases.countP fun case => case.legacy.success

/-- `ClassReport::current_successes`. -/
def ClassReport.currentSuccesses (report : ClassReport α) : ℕ :=
  report.cases.countP fun case => case.current.isSuccess

/-- `ClassReport::verdict`. -/
def ClassReport.verdict (report : ClassReport α) : Verdict :=
  if report.legacySuccesses = 0 then .insufficientEvidence
  else if report.currentSuccesses < report.legacySuccesses
      ∨ (report.cases.any fun case => case.legacy.success && !case.current.isSuccess)
      ∨ report.cases.any fun case =>
        case.overlap.any fun overlap => decide (overlap < report.minimumOverlap) then
    .hold
  else .approve

/-- The reason of a hold without a case that has one. -/
def fallbackReason : String := "current success rate is below legacy"

/-- `ClassReport::verdict_reason`. -/
def ClassReport.verdictReason (report : ClassReport α) : String :=
  match report.verdict with
  | .approve => "all committed criteria pass"
  | .insufficientEvidence => "no legacy-success sample is committed"
  | .hold =>
      (report.cases.findSome? fun case => case.holdReason lib report.minimumOverlap).getD
        fallbackReason

/-! ### The report -/

/-- The loop of `Report::from_fixture` over the cases. -/
def collectCases (criteria : SourceClass → Option α) :
    List ShadowCase → (SourceClass → Option (ClassReport α)) →
      Except ShadowError (SourceClass → Option (ClassReport α))
  | [], classes => .ok classes
  | case :: cases, classes =>
      match criteria case.sourceClass with
      | none => .error (.missingCriteria case.name case.sourceClass)
      | some minimumOverlap => do
          let entry := (classes case.sourceClass).getD (ClassReport.new minimumOverlap)
          let report ← CaseReport.fromCase lib case
          collectCases criteria cases
            (Function.update classes case.sourceClass
              (some { entry with cases := entry.cases ++ [report] }))

/-- `Report::from_fixture`: a class with criteria is reported also where it has no case. -/
def Report.fromFixture (fixture : ShadowFixture α) :
    Except ShadowError (SourceClass → Option (ClassReport α)) := do
  let classes ← collectCases lib fixture.criteria fixture.cases fun _ => none
  .ok fun sourceClass =>
    (classes sourceClass).or ((fixture.criteria sourceClass).map ClassReport.new)

/-! ### What a comparison is -/

variable {lib}

/-- A legacy success that is as good as before: the current extraction succeeds too, and has enough
of its words. -/
def CaseReport.Passes (case : CaseReport α) (minimumOverlap : α) : Prop :=
  case.current.isSuccess = true ∧ ∃ overlap, case.overlap = some overlap ∧ minimumOverlap ≤ overlap

/-- There is an overlap exactly where both sides succeeded. -/
def CaseReport.Compared (case : CaseReport α) : Prop :=
  case.overlap.isSome = (case.legacy.success && case.current.isSuccess)

omit [LinearOrder α] in
/-- The overlap is present exactly where both sides succeeded. -/
theorem isSome_of_overlapOf {case : ShadowCase} {current : CurrentOutcome} {overlap : Option α}
    (h : overlapOf lib case current = .ok overlap) :
    overlap.isSome = (case.legacy.success && current.isSuccess) := by
  cases current with
  | unsupported =>
      obtain rfl : none = overlap := Except.ok.inj h
      rw [CurrentOutcome.isSuccess, Bool.and_false, Option.isSome_none]
  | success document =>
      rw [overlapOf] at h
      rw [CurrentOutcome.isSuccess, Bool.and_true]
      split at h
      · next hlegacy =>
          cases hoverlap : contentOverlap lib case.legacy.text document.text with
          | error e =>
              rw [hoverlap] at h
              cases h
          | ok value =>
              rw [hoverlap] at h
              obtain rfl : some value = overlap := Except.ok.inj h
              rw [hlegacy, Option.isSome_some]
      · next hlegacy =>
          obtain rfl : none = overlap := Except.ok.inj h
          rw [Bool.not_eq_true] at hlegacy
          rw [hlegacy, Option.isSome_none]

omit [LinearOrder α] in
theorem CaseReport.compared_of_fromCase {source : ShadowCase} {case : CaseReport α}
    (h : CaseReport.fromCase lib source = .ok case) : case.Compared := by
  obtain ⟨current, -, h⟩ := Except.bind_eq_ok_iff.mp h
  obtain ⟨overlap, hoverlap, h⟩ := Except.bind_eq_ok_iff.mp h
  obtain rfl := Except.ok.inj h
  exact isSome_of_overlapOf hoverlap

/-- **What holds a class back**: a legacy success that the current extraction does not match. -/
def CaseReport.Fails (case : CaseReport α) (minimumOverlap : α) : Prop :=
  case.legacy.success = true ∧ ¬ case.Passes minimumOverlap

variable {case : CaseReport α} {minimumOverlap : α} {report : ClassReport α}

/-- A case fails where one of the two searches of the verdict finds it. -/
theorem CaseReport.fails_iff (h : case.Compared) :
    case.Fails minimumOverlap ↔
      (case.legacy.success && !case.current.isSuccess) = true ∨
        (case.overlap.any fun overlap => decide (overlap < minimumOverlap)) = true := by
  rw [CaseReport.Compared] at h
  cases hoverlap : case.overlap with
  | none =>
      rw [hoverlap, Option.isSome_none] at h
      cases hlegacy : case.legacy.success with
      | false => simp [CaseReport.Fails, hlegacy]
      | true =>
          rw [hlegacy, Bool.true_and] at h
          simp [CaseReport.Fails, CaseReport.Passes, hlegacy, ← h]
  | some overlap =>
      -- both sides succeeded, so only the overlap is left to compare
      rw [hoverlap, Option.isSome_some, eq_comm, Bool.and_eq_true] at h
      simp [CaseReport.Fails, CaseReport.Passes, h.1, h.2, hoverlap]

/-- A case that fails has a reason, and no other case has one. -/
theorem CaseReport.holdReason_isSome_iff (h : case.Compared) :
    (case.holdReason lib minimumOverlap).isSome ↔ case.Fails minimumOverlap := by
  rw [case.fails_iff h]
  rw [CaseReport.Compared] at h
  obtain ⟨name, address, legacy, current, overlap⟩ := case
  cases current with
  | unsupported =>
      rw [CurrentOutcome.isSuccess, Bool.and_false, Option.isSome_eq_false_iff,
        Option.isNone_iff_eq_none] at h
      obtain rfl : overlap = none := h
      simp [CaseReport.holdReason, CurrentOutcome.isSuccess]
  | success document =>
      cases overlap with
      | none => simp [CaseReport.holdReason, CurrentOutcome.isSuccess]
      | some overlap =>
          rw [CurrentOutcome.isSuccess, Bool.and_true, Option.isSome_some] at h
          have hlegacy : legacy.success = true := h.symm
          simp [CaseReport.holdReason, CurrentOutcome.isSuccess, hlegacy]

/-- The text of no case is given only where it was asked for. -/
theorem ne_fallbackReason_of_prefix (opening : List Char) {text : String}
    (h : ¬ opening <+: fallbackReason.toList) (htext : opening <+: text.toList) :
    text ≠ fallbackReason := by
  rintro rfl
  exact h htext

/-- **A reason names its case**, and is not the text that no case gives. -/
theorem CaseReport.holdReason_names {reason : String}
    (h : case.holdReason lib minimumOverlap = some reason) :
    case.name.toList <:+: reason.toList ∧ reason ≠ fallbackReason := by
  rw [CaseReport.holdReason.eq_def] at h
  split at h
  · obtain ⟨-, h⟩ := Option.ite_none_right_eq_some.mp h
    obtain rfl := Option.some.inj h
    have hopening : "current extraction is unsupported: ".toList <+:
        ("current extraction is unsupported: " ++ case.name).toList := by
      rw [String.toList_append]
      exact List.prefix_append _ _
    refine ⟨?_, ne_fallbackReason_of_prefix _ (by decide) hopening⟩
    rw [String.toList_append]
    exact (List.suffix_append _ _).isInfix
  · obtain ⟨-, h⟩ := Option.ite_none_right_eq_some.mp h
    obtain rfl := Option.some.inj h
    simp only [String.toList_append, List.append_assoc]
    have hopening : "content overlap below ".toList <+: "content overlap below ".toList ++
        ((lib.format minimumOverlap).toList ++ (": ".toList ++ (case.name.toList ++ (" (".toList ++
          ((lib.format (case.overlap.getD lib.zero)).toList ++ ")".toList))))) :=
      List.prefix_append _ _
    refine ⟨?_, ne_fallbackReason_of_prefix "content overlap below ".toList (by decide) ?_⟩
    · refine ⟨"content overlap below ".toList ++ ((lib.format minimumOverlap).toList ++
        ": ".toList), " (".toList ++ ((lib.format (case.overlap.getD lib.zero)).toList ++
        ")".toList), ?_⟩
      simp only [List.append_assoc]
    · simpa only [String.toList_append, List.append_assoc] using hopening

/-! ### The verdict of a class -/

omit [LinearOrder α] in
/-- Fewer successes than before leave a case that is not matched. -/
theorem ClassReport.exists_unmatched (h : report.currentSuccesses < report.legacySuccesses) :
    ∃ case ∈ report.cases, (case.legacy.success && !case.current.isSuccess) = true := by
  by_contra hnone
  refine absurd h (Nat.not_lt.mpr (List.countP_mono_left fun case hcase hlegacy => ?_))
  by_contra hcurrent
  refine hnone ⟨case, hcase, ?_⟩
  rw [hlegacy, Bool.true_and, Bool.not_eq_true', ← Bool.not_eq_true]
  exact hcurrent

omit [LinearOrder α] in
theorem ClassReport.legacySuccesses_eq_zero_iff :
    report.legacySuccesses = 0 ↔ ∀ case ∈ report.cases, case.legacy.success = false := by
  simp [ClassReport.legacySuccesses, List.countP_eq_zero]

/-- Without a legacy success nothing fails. -/
theorem ClassReport.verdict_eq_insufficientEvidence_iff :
    report.verdict = .insufficientEvidence ↔
      ∀ case ∈ report.cases, case.legacy.success = false := by
  rw [← ClassReport.legacySuccesses_eq_zero_iff, ClassReport.verdict]
  by_cases hzero : report.legacySuccesses = 0
  · simp [hzero]
  · rw [if_neg hzero]
    split <;> simp [hzero]

/-- **A hold is one case that fails.** -/
theorem ClassReport.verdict_eq_hold_iff (h : ∀ case ∈ report.cases, case.Compared) :
    report.verdict = .hold ↔ ∃ case ∈ report.cases, case.Fails report.minimumOverlap := by
  rw [ClassReport.verdict]
  by_cases hzero : report.legacySuccesses = 0
  · have hnone := ClassReport.legacySuccesses_eq_zero_iff.mp hzero
    rw [if_pos hzero]
    refine ⟨fun heq => (by cases heq), ?_⟩
    rintro ⟨case, hcase, hlegacy, -⟩
    rw [hnone case hcase] at hlegacy
    cases hlegacy
  · rw [if_neg hzero, ite_eq_left_iff, List.any_eq_true, List.any_eq_true]
    have hlast : ∀ c : Prop, ((¬ c → Verdict.approve = Verdict.hold) ↔ c) := by simp
    rw [hlast]
    constructor
    · rintro (hfewer | ⟨case, hcase, hunmatched⟩ | ⟨case, hcase, hbelow⟩)
      · obtain ⟨case, hcase, hunmatched⟩ := report.exists_unmatched hfewer
        exact ⟨case, hcase, (case.fails_iff (h case hcase)).mpr (Or.inl hunmatched)⟩
      · exact ⟨case, hcase, (case.fails_iff (h case hcase)).mpr (Or.inl hunmatched)⟩
      · exact ⟨case, hcase, (case.fails_iff (h case hcase)).mpr (Or.inr hbelow)⟩
    · rintro ⟨case, hcase, hfails⟩
      rcases (case.fails_iff (h case hcase)).mp hfails with hunmatched | hbelow
      · exact Or.inr (Or.inl ⟨case, hcase, hunmatched⟩)
      · exact Or.inr (Or.inr ⟨case, hcase, hbelow⟩)

/-- An approval is that there is a legacy success and none fails. -/
theorem ClassReport.verdict_eq_approve_iff (h : ∀ case ∈ report.cases, case.Compared) :
    report.verdict = .approve ↔ (∃ case ∈ report.cases, case.legacy.success = true) ∧
      ∀ case ∈ report.cases, case.legacy.success = true → case.Passes report.minimumOverlap := by
  have hhold := report.verdict_eq_hold_iff h
  have hnone := report.verdict_eq_insufficientEvidence_iff
  have hsome : (∃ case ∈ report.cases, case.legacy.success = true) ↔
      ¬ ∀ case ∈ report.cases, case.legacy.success = false := by simp
  have hall : (∀ case ∈ report.cases, case.legacy.success = true →
      case.Passes report.minimumOverlap) ↔
      ¬ ∃ case ∈ report.cases, case.Fails report.minimumOverlap := by simp [CaseReport.Fails]
  rw [hsome, hall, ← hnone, ← hhold]
  cases report.verdict <;> simp

/-- **The reason of a hold comes from the first case that fails.** -/
theorem ClassReport.verdictReason_of_hold (h : ∀ case ∈ report.cases, case.Compared)
    (hhold : report.verdict = .hold) :
    ∃ case ∈ report.cases, case.Fails report.minimumOverlap ∧
      case.holdReason lib report.minimumOverlap = some (report.verdictReason lib) := by
  obtain ⟨case, hcase, hfails⟩ := (report.verdict_eq_hold_iff h).mp hhold
  have hsome : (report.cases.findSome? fun case =>
      case.holdReason lib report.minimumOverlap).isSome := by
    rw [List.findSome?_isSome_iff]
    exact ⟨case, hcase, (case.holdReason_isSome_iff (h case hcase)).mpr hfails⟩
  obtain ⟨reason, hreason⟩ := Option.isSome_iff_exists.mp hsome
  obtain ⟨found, hfound, hfoundReason⟩ := List.exists_of_findSome?_eq_some hreason
  have htext : report.verdictReason lib = reason := by
    rw [ClassReport.verdictReason, hhold, hreason, Option.getD_some]
  have hfoundSome : (found.holdReason lib report.minimumOverlap).isSome := by
    rw [hfoundReason, Option.isSome_some]
  refine ⟨found, hfound, (found.holdReason_isSome_iff (h found hfound)).mp hfoundSome, ?_⟩
  rw [htext, hfoundReason]

/-! ### The classes of a report -/

/-- The cases of a class that were compared so far. -/
def Collected (lib : ShadowLib α) (criteria : SourceClass → Option α)
    (sources : SourceClass → List ShadowCase) (classes : SourceClass → Option (ClassReport α)) :
    Prop :=
  ∀ sourceClass, match classes sourceClass with
    | none => sources sourceClass = []
    | some report => criteria sourceClass = some report.minimumOverlap ∧
        List.Forall₂ (fun source case => CaseReport.fromCase lib source = .ok case)
          (sources sourceClass) report.cases

omit [LinearOrder α] in
/-- One comparison is added to its own class, behind those that it has. -/
theorem Collected.push {criteria : SourceClass → Option α}
    {sources : SourceClass → List ShadowCase} {classes : SourceClass → Option (ClassReport α)}
    (h : Collected lib criteria sources classes) {source : ShadowCase} {minimumOverlap : α}
    {case : CaseReport α} (hminimum : criteria source.sourceClass = some minimumOverlap)
    (hcase : CaseReport.fromCase lib source = .ok case) :
    let entry := (classes source.sourceClass).getD (ClassReport.new minimumOverlap)
    Collected lib criteria
      (Function.update sources source.sourceClass (sources source.sourceClass ++ [source]))
      (Function.update classes source.sourceClass
        (some { entry with cases := entry.cases ++ [case] })) := by
  intro entry sourceClass
  by_cases hclass : sourceClass = source.sourceClass
  · subst hclass
    rw [Function.update_self, Function.update_self]
    have hbefore := h source.sourceClass
    cases hentry : classes source.sourceClass with
    | none =>
        rw [hentry] at hbefore
        have hnew : entry = ClassReport.new minimumOverlap := by
          simp only [entry, hentry, Option.getD_none]
        have hnone : sources source.sourceClass = [] := hbefore
        rw [hnew, hnone]
        exact ⟨hminimum, .cons hcase .nil⟩
    | some report =>
        rw [hentry] at hbefore
        have hsame : entry = report := by simp only [entry, hentry, Option.getD_some]
        rw [hsame]
        exact ⟨hbefore.1, List.rel_append hbefore.2 (.cons hcase .nil)⟩
  · rw [Function.update_of_ne hclass, Function.update_of_ne hclass]
    exact h sourceClass

omit [LinearOrder α] in
/-- The loop keeps the cases of each class in their order. -/
theorem collected_of_collectCases {criteria : SourceClass → Option α} {cases : List ShadowCase}
    {sources : SourceClass → List ShadowCase}
    {classes classes' : SourceClass → Option (ClassReport α)}
    (hbefore : Collected lib criteria sources classes)
    (h : collectCases lib criteria cases classes = .ok classes') :
    Collected lib criteria
      (fun sourceClass => sources sourceClass ++
        cases.filter fun case => decide (case.sourceClass = sourceClass)) classes' := by
  induction cases generalizing sources classes with
  | nil =>
      obtain rfl := Except.ok.inj h
      simpa using hbefore
  | cons source cases ih =>
      rw [collectCases] at h
      split at h
      · cases h
      · next minimumOverlap hminimum =>
          obtain ⟨case, hcase, hrest⟩ := Except.bind_eq_ok_iff.mp h
          have hlater := ih (hbefore.push hminimum hcase) hrest
          refine cast (congrArg (fun f => Collected lib criteria f classes') ?_) hlater
          funext sourceClass
          by_cases hclass : sourceClass = source.sourceClass
          · subst hclass
            simp
          · rw [Function.update_of_ne hclass]
            rw [List.filter_cons_of_neg (by simpa using Ne.symm hclass)]

omit [LinearOrder α] in
/-- **A class of a report has the cases of the fixture that are of this class**, each compared. -/
theorem Report.classes_of_fromFixture {fixture : ShadowFixture α}
    {classes : SourceClass → Option (ClassReport α)} {sourceClass : SourceClass}
    (h : Report.fromFixture lib fixture = .ok classes)
    (hreport : classes sourceClass = some report) :
    fixture.criteria sourceClass = some report.minimumOverlap ∧
      List.Forall₂ (fun source case => CaseReport.fromCase lib source = .ok case)
        (fixture.cases.filter fun case => decide (case.sourceClass = sourceClass)) report.cases := by
  obtain ⟨collected, hcollected, hclasses⟩ := Except.bind_eq_ok_iff.mp h
  have hstart : Collected lib fixture.criteria (fun _ => []) fun _ => none := fun _ => rfl
  have hcases := collected_of_collectCases hstart hcollected sourceClass
  obtain rfl := Except.ok.inj hclasses
  change (collected sourceClass).or _ = some report at hreport
  cases hentry : collected sourceClass with
  | none =>
      rw [hentry] at hcases hreport
      rw [Option.none_or] at hreport
      obtain ⟨minimumOverlap, hminimum, hnew⟩ := Option.map_eq_some_iff.mp hreport
      have hnone : (fixture.cases.filter fun case => decide (case.sourceClass = sourceClass)) = [] :=
        hcases
      rw [← hnew, hnone]
      exact ⟨hminimum, .nil⟩
  | some entry =>
      rw [hentry] at hcases hreport
      obtain rfl : entry = report := Option.some.inj hreport
      exact hcases

omit [LinearOrder α] in
/-- Every case of a report has an overlap exactly where both sides succeeded. -/
theorem Report.compared_of_fromFixture {fixture : ShadowFixture α}
    {classes : SourceClass → Option (ClassReport α)} {sourceClass : SourceClass}
    (h : Report.fromFixture lib fixture = .ok classes) (hreport : classes sourceClass = some report)
    {case : CaseReport α} (hcase : case ∈ report.cases) : case.Compared := by
  obtain ⟨-, hcases⟩ := Report.classes_of_fromFixture h hreport
  obtain ⟨i, hi, rfl⟩ := List.getElem_of_mem hcase
  have hlength : i < (fixture.cases.filter fun case =>
      decide (case.sourceClass = sourceClass)).length := hcases.length_eq ▸ hi
  exact CaseReport.compared_of_fromCase (List.forall₂_iff_get.mp hcases |>.2 i hlength hi)

/-! ### The cutover -/

/-- **The verdict of a class**: approval says that there is a legacy success and that every one is
matched with enough overlap, insufficient evidence that there is none, and a hold has a case that
fails, whose reason is the text that is shown. -/
theorem shadow_verdict (lib : ShadowLib α) (report : ClassReport α)
    (h : ∀ case ∈ report.cases,
      case.overlap.isSome = (case.legacy.success && case.current.isSuccess)) :
    (report.verdict = .approve ↔
      (∃ case ∈ report.cases, case.legacy.success = true) ∧
      ∀ case ∈ report.cases, case.legacy.success = true →
        case.current.isSuccess = true ∧
          ∃ overlap, case.overlap = some overlap ∧ report.minimumOverlap ≤ overlap) ∧
    (report.verdict = .insufficientEvidence ↔
      ¬ ∃ case ∈ report.cases, case.legacy.success = true) ∧
    (report.verdict = .hold → ∃ case ∈ report.cases,
      case.legacy.success = true ∧
      (case.current.isSuccess = false ∨
        ∃ overlap, case.overlap = some overlap ∧ overlap < report.minimumOverlap) ∧
      case.holdReason lib report.minimumOverlap = some (report.verdictReason lib) ∧
      case.name.toList <:+: (report.verdictReason lib).toList) ∧
    report.verdictReason lib ≠ fallbackReason := by
  refine ⟨report.verdict_eq_approve_iff h, ?_, fun hhold => ?_, ?_⟩
  · rw [report.verdict_eq_insufficientEvidence_iff]
    simp
  · obtain ⟨case, hcase, hfails, hreason⟩ := report.verdictReason_of_hold h hhold
    refine ⟨case, hcase, hfails.1, ?_, hreason, (CaseReport.holdReason_names hreason).1⟩
    rcases (case.fails_iff (h case hcase)).mp hfails with hunmatched | hbelow
    · rw [hfails.1, Bool.true_and, Bool.not_eq_true'] at hunmatched
      exact Or.inl hunmatched
    · obtain ⟨overlap, hoverlap, hlt⟩ := (Option.any_eq_true _ _).mp hbelow
      exact Or.inr ⟨overlap, hoverlap, of_decide_eq_true hlt⟩
  · cases hverdict : report.verdict with
    | hold =>
        obtain ⟨case, -, -, hreason⟩ := report.verdictReason_of_hold h hverdict
        exact (CaseReport.holdReason_names hreason).2
    | approve =>
        rw [ClassReport.verdictReason, hverdict]
        exact (by decide : "all committed criteria pass" ≠ fallbackReason)
    | insufficientEvidence =>
        rw [ClassReport.verdictReason, hverdict]
        exact (by decide : "no legacy-success sample is committed" ≠ fallbackReason)

/-- A corpus with one document, and overlaps in whole numbers. -/
def oneDocument : ShadowLib ℕ where
  documentForCase case :=
    if case = "html-semantic" then
      some ⟨0, "", ⟨.sha256, ""⟩, none, none, [.paragraph 0 "old words"], []⟩
    else none
  fromU32 n := n
  div := Nat.div
  one := 1
  zero := 0
  format n := String.ofList (Nat.toDigits 10 n)
  isAlphanumeric := Char.isAlphanum
  toLowercase := Text.asciiLower

/-- One legacy success that is still extracted, and one that is not. -/
def heldFixture : ShadowFixture ℕ where
  criteria
    | .webArticle => some 1
    | _ => none
  cases :=
    [⟨"kept", .webArticle, "https://example.com/a", some "html-semantic", ⟨"a", true, "", []⟩⟩,
      ⟨"lost", .webArticle, "https://example.com/b", none, ⟨"b", true, "words", []⟩⟩]

/-- Their comparison. -/
def heldReport : ClassReport ℕ where
  minimumOverlap := 1
  cases :=
    [⟨"kept", "https://example.com/a", ⟨"a", true, "", []⟩,
        .success ⟨"old words", [("paragraph", 1)]⟩, some 1⟩,
      ⟨"lost", "https://example.com/b", ⟨"b", true, "words", []⟩, .unsupported, none⟩]

/-- The class is held, with a reason that names a case. -/
theorem shadow_verdict_held :
    (Report.fromFixture oneDocument heldFixture).map (fun classes => classes .webArticle) =
      .ok (some heldReport) ∧
    ∃ case ∈ heldReport.cases, case.legacy.success = true ∧
      case.name.toList <:+: (heldReport.verdictReason oneDocument).toList := by
  obtain ⟨-, -, hhold, -⟩ := shadow_verdict oneDocument heldReport
    (by simp [heldReport, CurrentOutcome.isSuccess])
  obtain ⟨case, hcase, hlegacy, -, -, hname⟩ := hhold (by decide)
  exact ⟨rfl, case, hcase, hlegacy, hname⟩

end Extractor.Shadow
