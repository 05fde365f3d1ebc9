import BeyoManager.StockReport.CriteriaMatcher

/-! # The verdict of the matcher

A criterion accepts an item when it is null, or a list with one of the item's tokens.
The matcher compares tokens with whatever is stored: it stops on a number or a boolean,
and reads the keys of an object as accepted values. Where no criterion is of these
kinds, its verdict is that of the criteria.
-/

namespace BeyoManager.StockReport.CriteriaMatcher

open PyText Sorting Transition

section Criteria

variable (lower : PyStr → PyStr) (bag : Bag) (criterion : PyStr × Json)

/-- The bag has the key, and the accepted value is null or a list with one of the tokens. -/
def Accepts : Prop :=
  ∃ value, bag.get criterion.1 = some value ∧
    (criterion.2 = .null ∨ ∃ items, criterion.2 = .arr items ∧ items ≠ [] ∧
      ∃ token ∈ itemTokens lower criterion.1 value, .str token ∈ items)

/-- The accepted value is a number or a boolean, and the item has a token to look for in it. -/
def Stops : Prop :=
  (∃ b, criterion.2 = .bool b) ∨ (∃ z, criterion.2 = .int z) ∨ (∃ repr, criterion.2 = .float repr)

def HasToken : Prop :=
  ∃ value, bag.get criterion.1 = some value ∧ itemTokens lower criterion.1 value ≠ []

/-- The accepted value is no list, but one of the tokens is in it: a key of an object. -/
def Slips : Prop :=
  (∀ items, criterion.2 ≠ .arr items) ∧ ∃ value, bag.get criterion.1 = some value ∧
    ∃ token ∈ itemTokens lower criterion.1 value, isIn token criterion.2 = .ok true

end Criteria

section Search

variable {accepted : Json} {tokens : List PyStr}

theorem anyIn_eq {test : PyStr → Bool} (h : ∀ token, isIn token accepted = .ok (test token)) :
    anyIn accepted tokens = .ok (tokens.any test) := by
  induction tokens with
  | nil => rfl
  | cons token tokens ih =>
    rw [anyIn, h]
    change (if test token then pure true else anyIn accepted tokens) = _
    rw [ih, List.any_cons]
    cases test token <;> rfl

theorem anyIn_eq_error (hne : tokens ≠ []) (h : ∀ token, isIn token accepted = .error .typeError) :
    anyIn accepted tokens = .error .typeError := by
  cases tokens with
  | nil => exact absurd rfl hne
  | cons token tokens =>
    rw [anyIn, h]
    rfl

end Search

section OneCriterion

variable {lower : PyStr → PyStr} {bag : Bag} {key value : PyStr} {accepted : Json}

theorem evaluateCriterion_absent (lower : PyStr → PyStr) (accepted : Json)
    (h : bag.get key = none) :
    ∃ failure, evaluateCriterion lower bag key accepted = .ok (some failure) := by
  unfold evaluateCriterion
  rw [h]
  split
  all_goals first | exact ⟨_, rfl⟩ | simp_all

theorem evaluateCriterion_empty (lower : PyStr → PyStr) (bag : Bag) (key : PyStr) :
    ∃ failure, evaluateCriterion lower bag key (.arr []) = .ok (some failure) := ⟨_, rfl⟩

theorem evaluateCriterion_null (h : bag.get key = some value) :
    evaluateCriterion lower bag key .null = .ok none := by
  unfold evaluateCriterion
  rw [h]

theorem evaluateCriterion_present (h : bag.get key = some value) (hempty : accepted ≠ .arr [])
    (hnull : accepted ≠ .null) : evaluateCriterion lower bag key accepted =
      judgeTokens key accepted (itemTokens lower key value) := by
  unfold evaluateCriterion
  rw [h]
  split
  all_goals simp_all

theorem judgeTokens_eq (key : PyStr) (tokens : List PyStr) {test : PyStr → Bool}
    (h : ∀ token, isIn token accepted = .ok (test token)) :
    ∃ result, judgeTokens key accepted tokens = .ok result ∧
      (result = none ↔ ∃ token ∈ tokens, isIn token accepted = .ok true) := by
  cases tokens with
  | nil => exact ⟨_, rfl, by simp⟩
  | cons token tokens =>
    rw [judgeTokens, anyIn_eq h]
    refine ⟨_, rfl, ?_⟩
    simp only [h, Except.ok.injEq]
    cases hany : (token :: tokens).any test with
    | true => simpa using hany
    | false => simpa using hany

theorem judgeTokens_error {tokens : List PyStr} (hne : tokens ≠ [])
    (h : ∀ token, isIn token accepted = .error .typeError) :
    judgeTokens key accepted tokens = .error .typeError := by
  cases tokens with
  | nil => exact absurd rfl hne
  | cons token tokens =>
    rw [judgeTokens, anyIn_eq_error hne h]
    rfl

theorem evaluateCriterion_stops (hstops : Stops (key, accepted))
    (htoken : HasToken lower bag (key, accepted)) :
    evaluateCriterion lower bag key accepted = .error .typeError := by
  obtain ⟨value, hget, htokens⟩ := htoken
  have hin : (∀ token, isIn token accepted = .error .typeError) ∧ accepted ≠ .arr [] ∧
      accepted ≠ .null := by
    rcases hstops with ⟨_, rfl⟩ | ⟨_, rfl⟩ | ⟨_, rfl⟩ <;> simp [isIn]
  rw [evaluateCriterion_present hget hin.2.1 hin.2.2]
  exact judgeTokens_error htokens hin.1

theorem not_accepts_or_slips_of_absent (h : bag.get key = none) :
    ¬ (Accepts lower bag (key, accepted) ∨ Slips lower bag (key, accepted)) := by
  rintro (⟨value, hget, -⟩ | ⟨-, value, hget, -⟩) <;> simp [h] at hget

theorem accepts_iff (h : bag.get key = some value) : Accepts lower bag (key, accepted) ↔
    accepted = .null ∨ ∃ items, accepted = .arr items ∧ items ≠ [] ∧
      ∃ token ∈ itemTokens lower key value, .str token ∈ items := by
  constructor
  · rintro ⟨value', hget, hcases⟩
    obtain rfl : value = value' := Option.some.inj (h.symm.trans hget)
    exact hcases
  · exact fun hcases => ⟨value, h, hcases⟩

theorem slips_iff (h : bag.get key = some value) : Slips lower bag (key, accepted) ↔
    (∀ items, accepted ≠ .arr items) ∧
      ∃ token ∈ itemTokens lower key value, isIn token accepted = .ok true := by
  constructor
  · rintro ⟨hlist, value', hget, hin⟩
    obtain rfl : value = value' := Option.some.inj (h.symm.trans hget)
    exact ⟨hlist, hin⟩
  · exact fun ⟨hlist, hin⟩ => ⟨hlist, value, h, hin⟩

theorem evaluateCriterion_container {test : PyStr → Bool} (hget : bag.get key = some value)
    (hin : ∀ token, isIn token accepted = .ok (test token)) (hlist : ∀ items, accepted ≠ .arr items)
    (hnull : accepted ≠ .null) :
    ∃ result, evaluateCriterion lower bag key accepted = .ok result ∧
      (result = none ↔ Accepts lower bag (key, accepted) ∨ Slips lower bag (key, accepted)) := by
  rw [evaluateCriterion_present hget (hlist []) hnull, accepts_iff hget, slips_iff hget]
  obtain ⟨result, hok, hresult⟩ := judgeTokens_eq key (itemTokens lower key value) hin
  refine ⟨result, hok, hresult.trans ?_⟩
  constructor
  · exact fun h => .inr ⟨hlist, h⟩
  · rintro ((hnull' | ⟨items, hitems, -⟩) | ⟨-, h⟩)
    · exact absurd hnull' hnull
    · exact absurd hitems (hlist items)
    · exact h

theorem evaluateCriterion_scalar (hget : bag.get key = some value) (hstops : Stops (key, accepted))
    (htokens : itemTokens lower key value = []) :
    ∃ result, evaluateCriterion lower bag key accepted = .ok result ∧
      (result = none ↔ Accepts lower bag (key, accepted) ∨ Slips lower bag (key, accepted)) := by
  have hkind : (∀ items, accepted ≠ .arr items) ∧ accepted ≠ .null := by
    rcases hstops with ⟨_, rfl⟩ | ⟨_, rfl⟩ | ⟨_, rfl⟩ <;> simp
  rw [evaluateCriterion_present hget (hkind.1 []) hkind.2, accepts_iff hget,
    slips_iff hget, htokens]
  exact ⟨_, rfl, by simp [hkind.2]⟩

theorem evaluateCriterion_list {items : List Json} (hget : bag.get key = some value) :
    ∃ result, evaluateCriterion lower bag key (.arr items) = .ok result ∧
      (result = none ↔ Accepts lower bag (key, .arr items) ∨
        Slips lower bag (key, .arr items)) := by
  rw [accepts_iff hget, slips_iff hget]
  have hslips : ¬ ((∀ items', Json.arr items ≠ .arr items') ∧
      ∃ token ∈ itemTokens lower key value, isIn token (.arr items) = .ok true) :=
    fun h => h.1 items rfl
  rw [or_iff_left hslips]
  by_cases hempty : items = []
  · subst hempty
    obtain ⟨failure, hfails⟩ := evaluateCriterion_empty lower bag key
    exact ⟨_, hfails, by simp⟩
  · rw [evaluateCriterion_present hget (by simpa using hempty) (by simp)]
    have hin : ∀ token, isIn token (.arr items) = .ok (items.any (Json.eqStr token)) :=
      fun _ => rfl
    obtain ⟨result, hok, hresult⟩ := judgeTokens_eq key (itemTokens lower key value) hin
    refine ⟨result, hok, hresult.trans ?_⟩
    simp [isIn, List.any_eq_true, Json.eqStr_iff, hempty]

/-- Otherwise a criterion does not fail exactly when it accepts the item, or slips. -/
theorem evaluateCriterion_ok
    (h : ¬ (Stops (key, accepted) ∧ HasToken lower bag (key, accepted))) :
    ∃ result, evaluateCriterion lower bag key accepted = .ok result ∧
      (result = none ↔ Accepts lower bag (key, accepted) ∨ Slips lower bag (key, accepted)) := by
  cases hget : bag.get key with
  | none =>
    obtain ⟨failure, hfails⟩ := evaluateCriterion_absent lower accepted hget
    exact ⟨_, hfails, iff_of_false (by simp) (not_accepts_or_slips_of_absent hget)⟩
  | some value =>
    by_cases hstops : Stops (key, accepted)
    · by_cases htokens : itemTokens lower key value = []
      · exact evaluateCriterion_scalar hget hstops htokens
      · exact absurd ⟨hstops, value, hget, htokens⟩ h
    · cases accepted with
      | null => exact ⟨none, evaluateCriterion_null hget, by simp [accepts_iff hget]⟩
      | str s => exact evaluateCriterion_container hget (fun _ => rfl) (by simp) (by simp)
      | arr items => exact evaluateCriterion_list hget
      | obj fields => exact evaluateCriterion_container hget (fun _ => rfl) (by simp) (by simp)
      | bool b => exact absurd (.inl ⟨b, rfl⟩) hstops
      | int z => exact absurd (.inr (.inl ⟨z, rfl⟩)) hstops
      | float repr => exact absurd (.inr (.inr ⟨repr, rfl⟩)) hstops

end OneCriterion

section Verdict

variable (lower : PyStr → PyStr)

/-- The item's drawers are a decimal text with more digits than `int` reads. -/
def LongDrawers (item : MatchedItem) : Prop :=
  ∃ drawers, (bagBeforeDrawers lower item).get drawersQtyKey = some drawers ∧
    isDecimal (strip drawers) ∧ maxStrDigits < (strip drawers).length

/-- The matcher ends, and reports no failure exactly when every criterion accepts the item. -/
def Judges (raw : Fields) (item : MatchedItem) : Prop :=
  ∃ failures, evaluateStockCriteria lower item (normalizeStockCriteria lower raw) = .ok failures ∧
    (failures = [] ↔ ∃ bag, buildItemPropertyBag lower item = .ok bag ∧
      ∀ criterion ∈ normalizeStockCriteria lower raw, Accepts lower bag criterion)

/-- No number or boolean is reached with a token, and a slip is covered by another failure. -/
def Clear (bag : Bag) (criteria : Fields) : Prop :=
  (∀ criterion ∈ criteria, ¬ (Stops criterion ∧ HasToken lower bag criterion)) ∧
    ((∃ criterion ∈ criteria, Slips lower bag criterion) →
      ∃ criterion ∈ criteria, ¬ Accepts lower bag criterion ∧ ¬ Slips lower bag criterion)

variable {lower}

theorem drawerRangeOf_eq_error_iff (drawers : PyStr) :
    (∃ e, drawerRangeOf drawers = .error e) ↔
      isDecimal (strip drawers) ∧ maxStrDigits < (strip drawers).length := by
  unfold drawerRangeOf
  by_cases hdecimal : isDecimal (strip drawers)
  · by_cases hlong : maxStrDigits < (strip drawers).length <;> simp [hdecimal, hlong]
  · simp [hdecimal]

theorem longDrawers_iff {item : MatchedItem} :
    LongDrawers lower item ↔ ∃ e, buildItemPropertyBag lower item = .error e := by
  unfold LongDrawers buildItemPropertyBag withDrawersRange
  cases (bagBeforeDrawers lower item).get drawersQtyKey with
  | none => simp
  | some drawers =>
    have hrange := drawerRangeOf_eq_error_iff drawers
    cases hresult : drawerRangeOf drawers with
    | error e => simpa [Except.map, hresult] using hrange
    | ok result => simpa [Except.map, hresult] using hrange

theorem not_slips_of_accepts {bag : Bag} {criterion : PyStr × Json}
    (h : Accepts lower bag criterion) : ¬ Slips lower bag criterion := by
  obtain ⟨value, -, hnull | ⟨items, hitems, -⟩⟩ := h
  · rintro ⟨-, value', -, token, -, hin⟩
    simp [hnull, isIn] at hin
  · rintro ⟨hlist, -⟩
    exact hlist items hitems

theorem evaluateStockCriteria_ok {item : MatchedItem} {criteria : Fields} {bag : Bag}
    (hbag : buildItemPropertyBag lower item = .ok bag)
    (h : ∀ criterion ∈ criteria, ¬ (Stops criterion ∧ HasToken lower bag criterion)) :
    ∃ failures, evaluateStockCriteria lower item criteria = .ok failures ∧
      (failures = [] ↔ ∀ criterion ∈ criteria,
        Accepts lower bag criterion ∨ Slips lower bag criterion) := by
  have hresult : ∀ criterion ∈ criteria, ∃ result,
      evaluateCriterion lower bag criterion.1 criterion.2 = .ok result ∧
        (result = none ↔ Accepts lower bag criterion ∨ Slips lower bag criterion) :=
    fun criterion hc => evaluateCriterion_ok (h criterion hc)
  obtain ⟨result, hresults, hspec⟩ := mapM_exists hresult
  refine ⟨_, bind_eq_ok.mpr ⟨bag, hbag, bind_eq_ok.mpr ⟨_, hresults, rfl⟩⟩, ?_⟩
  have hnil : sortBy CriterionFailure.key (criteria.map result).reduceOption = [] ↔
      ∀ criterion ∈ criteria, result criterion = none := by
    rw [← List.length_eq_zero_iff, (sortBy_perm _ _).length_eq, List.length_eq_zero_iff]
    change (criteria.map result).filterMap id = [] ↔ _
    simp
  rw [hnil]
  exact forall₂_congr fun criterion hc => hspec criterion hc

theorem stops_of_evaluateStockCriteria_ok {item : MatchedItem} {criteria : Fields} {bag : Bag}
    {failures : List CriterionFailure} (hbag : buildItemPropertyBag lower item = .ok bag)
    (h : evaluateStockCriteria lower item criteria = .ok failures) :
    ∀ criterion ∈ criteria, ¬ (Stops criterion ∧ HasToken lower bag criterion) := by
  rintro criterion hc ⟨hstops, htoken⟩
  obtain ⟨bag', hbag', h⟩ := bind_eq_ok.mp h
  obtain rfl : bag = bag' := Except.ok.inj (hbag.symm.trans hbag')
  obtain ⟨results, hresults, -⟩ := bind_eq_ok.mp h
  obtain ⟨result, -, hresult⟩ := mapM_result hresults criterion hc
  simp [evaluateCriterion_stops hstops htoken] at hresult

/-- `matches_stock_criteria` gives the verdict where the list of failures does. -/
theorem matchesStockCriteria_judges_iff (lower : PyStr → PyStr) (raw : Fields)
    (item : MatchedItem) :
    (∃ verdict, matchesStockCriteria lower item (normalizeStockCriteria lower raw) = .ok verdict ∧
      (verdict = true ↔ ∃ bag, buildItemPropertyBag lower item = .ok bag ∧
        ∀ criterion ∈ normalizeStockCriteria lower raw, Accepts lower bag criterion)) ↔
      Judges lower raw item := by
  constructor
  · rintro ⟨verdict, hverdict, hiff⟩
    obtain ⟨failures, hok, hverdict⟩ := bind_eq_ok.mp hverdict
    obtain rfl := Except.ok.inj hverdict
    rw [List.isEmpty_iff] at hiff
    exact ⟨failures, hok, hiff⟩
  · rintro ⟨failures, hok, hiff⟩
    rw [← List.isEmpty_iff] at hiff
    exact ⟨failures.isEmpty, bind_eq_ok.mpr ⟨failures, hok, rfl⟩, hiff⟩

/-- When the matcher gives the verdict of the criteria. -/
theorem judges_iff (lower : PyStr → PyStr) (raw : Fields) (item : MatchedItem) :
    Judges lower raw item ↔ ¬ LongDrawers lower item ∧
      ∀ bag, buildItemPropertyBag lower item = .ok bag →
        Clear lower bag (normalizeStockCriteria lower raw) := by
  unfold Judges
  rw [longDrawers_iff]
  set criteria := normalizeStockCriteria lower raw
  cases hbag : buildItemPropertyBag lower item with
  | error e =>
    apply iff_of_false
    · rintro ⟨failures, h, -⟩
      simp [evaluateStockCriteria, hbag, bind, Except.bind] at h
    · exact fun h => h.1 ⟨e, rfl⟩
  | ok bag =>
    simp only [Except.ok.injEq, exists_eq_left', forall_eq']
    constructor
    · rintro ⟨failures, hok, hverdict⟩
      have hstops := stops_of_evaluateStockCriteria_ok hbag hok
      obtain ⟨failures', hok', hspec⟩ := evaluateStockCriteria_ok hbag hstops
      obtain rfl : failures = failures' := Except.ok.inj (hok.symm.trans hok')
      refine ⟨by simp, hstops, ?_⟩
      rintro ⟨criterion, hc, hslips⟩
      by_contra hnone
      push Not at hnone
      have hall : ∀ c ∈ criteria, Accepts lower bag c ∨ Slips lower bag c :=
        fun c hc => or_iff_not_imp_left.mpr (hnone c hc)
      have haccept := hverdict.mp (hspec.mpr hall) criterion hc
      exact not_slips_of_accepts haccept hslips
    · rintro ⟨-, hstops, hcovered⟩
      obtain ⟨failures, hok, hspec⟩ := evaluateStockCriteria_ok hbag hstops
      refine ⟨failures, hok, hspec.trans ⟨?_, fun h c hc => .inl (h c hc)⟩⟩
      intro hall criterion hc
      rcases hall criterion hc with haccepts | hslips
      · exact haccepts
      · obtain ⟨other, hother, hnot, hnoslip⟩ := hcovered ⟨criterion, hc, hslips⟩
        exact absurd (hall other hother) (not_or.mpr ⟨hnot, hnoslip⟩)

/-- A criterion that is a number stops the matcher on an item that has the key. -/
theorem number_stops_matcher :
    ¬ Judges PyText.asciiLower [(ofString "drawers_qty", .int 4)]
      ⟨some [(ofString "drawers_qty", .str (ofString "4"))], 1⟩ := by
  rintro ⟨failures, h, -⟩
  have hstops : evaluateStockCriteria PyText.asciiLower
      ⟨some [(ofString "drawers_qty", .str (ofString "4"))], 1⟩
      (normalizeStockCriteria PyText.asciiLower [(ofString "drawers_qty", .int 4)]) =
        .error .typeError := by rfl
  rw [hstops] at h
  cases h

end Verdict

end BeyoManager.StockReport.CriteriaMatcher
