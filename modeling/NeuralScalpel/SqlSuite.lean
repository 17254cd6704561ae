/-
Evaluating a suite of SQL cases.

The generated statement of a case is checked and executed, and the rows it
returns are compared with the rows expected: as lists where the order counts,
else after sorting both.  Sorting fails on rows that cannot be compared, and
then the lists are compared as they are.

* `evaluateSuite` — the report;
* `rowsMatch` — the comparison of rows;
* `straddles_rows` — comparing rows lies between two total orders;
* `isCorrect_iff_perm_iff` — exactly when the rows are compared as multisets.
-/
import NeuralScalpel.ComparisonSort
import NeuralScalpel.Dict
import Mathlib.Data.Sum.Order
import Mathlib.Data.String.Basic
import Mathlib.Algebra.Order.Ring.Rat

/-! ### Rows -/

/-- A value of a row.  Numbers, integers or not, are their values. -/
inductive SqlValue (N : Type)
  | null
  | num (n : N)
  | text (s : String)
  | blob (bytes : List UInt8)
  deriving DecidableEq

abbrev SqlRow (N : Type) : Type := List (SqlValue N)

section Rows

variable {N : Type} [LinearOrder N]

/-- `v < w`, `none` where it raises. -/
def SqlValue.lt? : SqlValue N → SqlValue N → Option Bool
  | .num m, .num n => some (m < n)
  | .text s, .text t => some (s < t)
  | .blob b, .blob c => some (b.map UInt8.toNat < c.map UInt8.toNat)
  | _, _ => none

/-- `r < s` for tuples. -/
def rowLt? : SqlRow N → SqlRow N → Option Bool := lexCompare SqlValue.lt?

variable (sort : ComparisonSort (SqlRow N))

/-- The comparison of the rows returned with the rows expected. -/
def rowsMatch (actual expected : List (SqlRow N)) (orderSensitive : Bool) : Bool :=
  if orderSensitive then actual = expected
  else
    match (sort.tree actual).attempt rowLt?, (sort.tree expected).attempt rowLt? with
    | some sortedActual, some sortedExpected => sortedActual = sortedExpected
    -- rows that do not sort
    | _, _ => actual = expected

/-! ### Two orders of rows -/

/-- Values by kind, then by value. -/
def SqlValue.up : SqlValue N → Unit ⊕ₗ N ⊕ₗ String ⊕ₗ List ℕ
  | .null => Sum.inlₗ ()
  | .num n => Sum.inrₗ (Sum.inlₗ n)
  | .text s => Sum.inrₗ (Sum.inrₗ (Sum.inlₗ s))
  | .blob b => Sum.inrₗ (Sum.inrₗ (Sum.inrₗ (b.map UInt8.toNat)))

/-- The kinds the other way round. -/
def SqlValue.down : SqlValue N → List ℕ ⊕ₗ String ⊕ₗ N ⊕ₗ Unit
  | .null => Sum.inrₗ (Sum.inrₗ (Sum.inrₗ ()))
  | .num n => Sum.inrₗ (Sum.inrₗ (Sum.inlₗ n))
  | .text s => Sum.inrₗ (Sum.inlₗ s)
  | .blob b => Sum.inlₗ (b.map UInt8.toNat)

theorem bytes_injective : Function.Injective (List.map UInt8.toNat) :=
  List.map_injective_iff.mpr fun _ _ h => UInt8.toNat_inj.mp h

theorem straddles_values : Straddles (SqlValue.lt? (N := N)) SqlValue.up SqlValue.down where
  up_injective v w h := by
    cases v <;> cases w <;> simp_all [SqlValue.up, bytes_injective.eq_iff]
  down_injective v w h := by
    cases v <;> cases w <;> simp_all [SqlValue.down, bytes_injective.eq_iff]
  agree v w b hne h := by
    cases v <;> cases w <;> cases h <;> simp [SqlValue.up, SqlValue.down]
  differ v w hne h := by
    cases v <;> cases w <;> simp_all [SqlValue.lt?, SqlValue.up, SqlValue.down]

/-- Comparing rows lies between two total orders. -/
theorem straddles_rows :
    Straddles (rowLt? (N := N)) (List.map SqlValue.up) (List.map SqlValue.down) :=
  straddles_values.lex

/-- All rows of a list can be compared. -/
def Comparable (rows : List (SqlRow N)) : Prop :=
  ∀ r ∈ rows, ∀ s ∈ rows, (rowLt? r s).isSome = true

theorem attempt_isSome_iff_comparable (rows : List (SqlRow N)) :
    ((sort.tree rows).attempt rowLt?).isSome = true ↔ Comparable rows :=
  sort.attempt_isSome_iff straddles_rows lexCompare_self rows

theorem Comparable.perm {rows rows' : List (SqlRow N)} (hperm : rows.Perm rows')
    (h : Comparable rows) : Comparable rows' :=
  fun r hr s hs => h r (hperm.mem_iff.mpr hr) s (hperm.mem_iff.mpr hs)

/-- Comparable rows are compared as multisets. -/
theorem rowsMatch_of_comparable {actual expected : List (SqlRow N)} (hactual : Comparable actual)
    (hexpected : Comparable expected) :
    rowsMatch sort actual expected false = true ↔ actual.Perm expected := by
  obtain ⟨out, hout⟩ := Option.isSome_iff_exists.mp
    ((attempt_isSome_iff_comparable sort actual).mpr hactual)
  obtain ⟨out', hout'⟩ := Option.isSome_iff_exists.mp
    ((attempt_isSome_iff_comparable sort expected).mpr hexpected)
  rw [← sort.attempt_eq_iff straddles_rows lexCompare_self hout hout']
  simp [rowsMatch, hout, hout']

/-- Others are compared as lists. -/
theorem rowsMatch_of_not_comparable {actual expected : List (SqlRow N)}
    (h : ¬(Comparable actual ∧ Comparable expected)) :
    rowsMatch sort actual expected false = true ↔ actual = expected := by
  rw [← attempt_isSome_iff_comparable sort, ← attempt_isSome_iff_comparable sort] at h
  rcases hout : (sort.tree actual).attempt rowLt? with _ | out
  · simp [rowsMatch, hout]
  · rcases hout' : (sort.tree expected).attempt rowLt? with _ | out'
    · simp [rowsMatch, hout, hout']
    · exact absurd ⟨by rw [hout]; rfl, by rw [hout']; rfl⟩ h

/-- Rows are compared as multisets unless they are permuted and some of them
cannot be compared. -/
theorem rowsMatch_iff_perm_iff (actual expected : List (SqlRow N)) :
    (rowsMatch sort actual expected false = true ↔ actual.Perm expected) ↔
      (actual.Perm expected → actual = expected ∨ Comparable actual) := by
  by_cases hboth : Comparable actual ∧ Comparable expected
  · exact ⟨fun _ _ => Or.inr hboth.1, fun _ => rowsMatch_of_comparable sort hboth.1 hboth.2⟩
  · rw [rowsMatch_of_not_comparable sort hboth]
    constructor
    · intro h hperm
      exact Or.inl (h.mpr hperm)
    · intro h
      refine ⟨fun heq => heq ▸ List.Perm.refl _, fun hperm => ?_⟩
      rcases h hperm with heq | hcomparable
      · exact heq
      · exact absurd ⟨hcomparable, hcomparable.perm hperm⟩ hboth

end Rows

/-! ### The suite -/

/-- A case; absent entries are `none`. -/
structure SqlCase (N : Type) where
  prompt : String
  tables : Option (List String)
  columns : Option (List String)
  sqliteSetup : Option String
  expectedResult : Option (List (SqlRow N))
  orderSensitive : Option Bool
  id : Option String
  category : Option String

structure SyntaxReport where
  valid : Bool
  error : Option String
  deriving DecidableEq, Repr

structure SchemaReport where
  tableOk : Bool
  columnOk : Bool
  deriving DecidableEq, Repr

/-- What becomes of a statement. -/
inductive SqlExecution (N : Type)
  | skipped
  | rows (results : List (SqlRow N))
  | failed (error : String)

namespace SqlExecution

variable {N : Type}

/-- `execution.get("success")`. -/
def success : SqlExecution N → Option Bool
  | .skipped => none
  | .rows _ => some true
  | .failed _ => some false

/-- `execution.get("error")`. -/
def error : SqlExecution N → Option String
  | .failed error => some error
  | _ => none

end SqlExecution

/-- The model, the parser and the database. -/
structure SqlTools (N : Type) where
  generateSql : String → String
  validateSyntax : String → SyntaxReport
  validateSchema : String → List String → List String → SchemaReport
  executeSqlite : String → String → Except String (List (SqlRow N))

structure SqlResult where
  id : String
  category : String
  prompt : String
  generated : String
  syntaxValid : Bool
  schemaOk : Bool
  executionSuccess : Option Bool
  isCorrect : Bool
  error : Option String
  deriving DecidableEq, Repr

/-- `execution.get("success")` is true. -/
def SqlResult.passed (res : SqlResult) : Bool := res.executionSuccess == some true

structure CategoryStats where
  total : ℕ
  pass : ℕ
  correct : ℕ
  deriving DecidableEq, Repr

structure SuiteStats where
  total : ℕ
  syntaxValid : ℕ
  executionSuccess : ℕ
  exactMatch : ℕ
  categories : Dict String CategoryStats
  executionSuccessRate : ℚ
  executionAccuracy : ℚ

structure SuiteReport where
  stats : SuiteStats
  results : List SqlResult
  failureCases : List SqlResult

section Suite

variable {N : Type} [LinearOrder N] (tools : SqlTools N) (sort : ComparisonSort (SqlRow N))

/-- A text that is not empty, for the truth tests of optional texts. -/
def nonEmptyText : Option String → Option String
  | some s => if s = "" then none else some s
  | none => none

/-- The execution check of a case. -/
def caseExecution (case : SqlCase N) : SqlExecution N :=
  match nonEmptyText case.sqliteSetup with
  | some setup =>
    if (tools.validateSyntax (tools.generateSql case.prompt)).valid then
      match tools.executeSqlite (tools.generateSql case.prompt) setup with
      | .ok results => .rows results
      | .error error => .failed error
    else .skipped
  | none => .skipped

/-- `is_correct`. -/
def caseCorrect (case : SqlCase N) : Bool :=
  match caseExecution tools case, case.expectedResult with
  | .rows actual, some expected =>
    rowsMatch sort actual expected (case.orderSensitive.getD false)
  | _, _ => false

/-- The body of the loop: the record of a case. -/
def evaluateCase (case : SqlCase N) : SqlResult :=
  let genSql := tools.generateSql case.prompt
  let syntaxCheck := tools.validateSyntax genSql
  let schema := tools.validateSchema genSql (case.tables.getD []) (case.columns.getD [])
  let execution := caseExecution tools case
  { id := case.id.getD "unknown"
    category := case.category.getD "general"
    prompt := case.prompt
    generated := genSql
    syntaxValid := syntaxCheck.valid
    schemaOk := schema.tableOk && schema.columnOk
    executionSuccess := execution.success
    isCorrect := caseCorrect tools sort case
    error := (nonEmptyText syntaxCheck.error).or execution.error }

/-- Adds one where a test holds. -/
def bump (n : ℕ) (test : Bool) : ℕ := if test then n + 1 else n

/-- The statistics after one more result. -/
def SuiteStats.count (stats : SuiteStats) (res : SqlResult) : SuiteStats :=
  let cat := (stats.categories.get? res.category).getD ⟨0, 0, 0⟩
  { stats with
    syntaxValid := bump stats.syntaxValid res.syntaxValid
    executionSuccess := bump stats.executionSuccess res.passed
    exactMatch := bump stats.exactMatch res.isCorrect
    categories := stats.categories.set res.category
      ⟨cat.total + 1, bump cat.pass res.passed, bump cat.correct res.isCorrect⟩ }

/-- The report after one more result. -/
def SuiteReport.add (report : SuiteReport) (res : SqlResult) : SuiteReport where
  stats := report.stats.count res
  results := report.results ++ [res]
  failureCases := if res.isCorrect then report.failureCases else report.failureCases ++ [res]

/-- `n / total if total > 0 else 0`. -/
def rate (n total : ℕ) : ℚ := if 0 < total then n / total else 0

/-- `evaluate_suite`. -/
def evaluateSuite (testCases : List (SqlCase N)) : SuiteReport :=
  let start : SuiteReport := ⟨⟨testCases.length, 0, 0, 0, .empty, 0, 0⟩, [], []⟩
  let report := testCases.foldl (fun report case => report.add (evaluateCase tools sort case)) start
  { report with
    stats := { report.stats with
      executionSuccessRate := rate report.stats.executionSuccess report.stats.total
      executionAccuracy := rate report.stats.exactMatch report.stats.total } }

/-- The counters agree with the results. -/
structure SuiteReport.Tallies (report : SuiteReport) : Prop where
  syntaxValid : report.stats.syntaxValid = report.results.countP SqlResult.syntaxValid
  executionSuccess : report.stats.executionSuccess =
    report.results.countP SqlResult.passed
  exactMatch : report.stats.exactMatch = report.results.countP SqlResult.isCorrect
  failureCases : report.failureCases = report.results.filter fun res => !res.isCorrect
  categories : ∀ category, (report.stats.categories.get? category).getD ⟨0, 0, 0⟩ =
    let members := report.results.filter fun res => res.category = category
    ⟨members.length, members.countP SqlResult.passed, members.countP SqlResult.isCorrect⟩

theorem bump_eq (n : ℕ) {α : Type} (test : α → Bool) (x : α) :
    bump n (test x) = n + [x].countP test := by
  unfold bump
  by_cases h : test x = true <;> simp [h]

theorem SuiteReport.Tallies.add {report : SuiteReport} (h : report.Tallies) (res : SqlResult) :
    (report.add res).Tallies where
  syntaxValid := by
    rw [SuiteReport.add, List.countP_append, ← h.syntaxValid]
    exact bump_eq _ SqlResult.syntaxValid res
  executionSuccess := by
    rw [SuiteReport.add, List.countP_append, ← h.executionSuccess]
    exact bump_eq _ SqlResult.passed res
  exactMatch := by
    rw [SuiteReport.add, List.countP_append, ← h.exactMatch]
    exact bump_eq _ SqlResult.isCorrect res
  failureCases := by
    rw [SuiteReport.add, List.filter_append, ← h.failureCases]
    by_cases hcorrect : res.isCorrect = true <;> simp [hcorrect]
  categories category := by
    have hcategory := h.categories category
    show (Option.getD (Dict.get? (Dict.set _ _ _) _) _) = _
    rw [Dict.get?_set]
    by_cases hc : category = res.category
    · subst hc
      have hone : [res].filter (fun r => r.category = res.category) = [res] := by simp
      rw [if_pos rfl, Option.getD_some, hcategory]
      simp only [SuiteReport.add, List.filter_append, hone, List.countP_append,
        List.length_append]
      rw [← bump_eq _ SqlResult.isCorrect, ← bump_eq _ SqlResult.passed]
      rfl
    · have hnone : [res].filter (fun r => r.category = category) = [] := by
        simp [Ne.symm hc]
      rw [if_neg hc, hcategory]
      simp only [SuiteReport.add, List.filter_append, hnone, List.append_nil]

/-- The loop keeps the counters right, and records each case. -/
theorem evaluateLoop_spec (testCases : List (SqlCase N)) {report : SuiteReport}
    (h : report.Tallies) :
    let final := testCases.foldl
      (fun report case => report.add (evaluateCase tools sort case)) report
    final.Tallies ∧ final.results = report.results ++ testCases.map (evaluateCase tools sort) ∧
      final.stats.total = report.stats.total := by
  induction testCases generalizing report with
  | nil => exact ⟨h, (List.append_nil _).symm, rfl⟩
  | cons case testCases ih =>
    obtain ⟨htallies, hresults, htotal⟩ := ih (h.add (evaluateCase tools sort case))
    refine ⟨htallies, ?_, htotal⟩
    rw [List.foldl_cons, hresults, SuiteReport.add, List.append_assoc, List.map_cons]
    rfl

theorem evaluateSuite_spec (testCases : List (SqlCase N)) :
    (evaluateSuite tools sort testCases).Tallies ∧
      (evaluateSuite tools sort testCases).results = testCases.map (evaluateCase tools sort) ∧
      (evaluateSuite tools sort testCases).stats.total = testCases.length := by
  have hstart : SuiteReport.Tallies
      ⟨⟨testCases.length, 0, 0, 0, .empty, 0, 0⟩, [], []⟩ := ⟨rfl, rfl, rfl, rfl, fun _ => rfl⟩
  obtain ⟨⟨hvalid, hsuccess, hmatch, hfailures, hcategories⟩, hresults, htotal⟩ :=
    evaluateLoop_spec tools sort testCases hstart
  exact ⟨⟨hvalid, hsuccess, hmatch, hfailures, hcategories⟩, hresults, htotal⟩

theorem evaluateCase_unordered {case : SqlCase N} {actual expected : List (SqlRow N)}
    (hunordered : case.orderSensitive.getD false = false)
    (hexpected : case.expectedResult = some expected)
    (hexecution : caseExecution tools case = .rows actual) :
    (evaluateCase tools sort case).isCorrect = rowsMatch sort actual expected false := by
  show caseCorrect tools sort case = _
  rw [caseCorrect, hexecution, hexpected, hunordered]

/-- A case without an order is judged by its rows as multisets exactly when
they are not permuted or can all be compared. -/
theorem isCorrect_iff_perm_iff {testCases : List (SqlCase N)} {i : ℕ} {case : SqlCase N}
    (hcase : testCases[i]? = some case) {actual expected : List (SqlRow N)}
    (hunordered : case.orderSensitive.getD false = false)
    (hexpected : case.expectedResult = some expected)
    (hexecution : caseExecution tools case = .rows actual) :
    ∃ res, (evaluateSuite tools sort testCases).results[i]? = some res ∧
      ((res.isCorrect = true ↔ actual.Perm expected) ↔
        (actual.Perm expected → actual = expected ∨ Comparable actual)) := by
  refine ⟨evaluateCase tools sort case, ?_, ?_⟩
  · rw [(evaluateSuite_spec tools sort testCases).2.1, List.getElem?_map, hcase, Option.map_some]
  · rw [evaluateCase_unordered tools sort hunordered hexpected hexecution]
    exact rowsMatch_iff_perm_iff sort actual expected

end Suite

/-! ### A number and a null -/

/-- Tools that return these rows for every statement. -/
def rowTools (rows : List (SqlRow ℚ)) : SqlTools ℚ where
  generateSql _ := "SELECT x FROM t"
  validateSyntax _ := ⟨true, none⟩
  validateSchema _ _ _ := ⟨true, true⟩
  executeSqlite _ _ := .ok rows

/-- A case that expects these rows, in any order. -/
def unorderedCase (expected : List (SqlRow ℚ)) : SqlCase ℚ where
  prompt := "List all x."
  tables := none
  columns := none
  sqliteSetup := some "CREATE TABLE t (x);"
  expectedResult := some expected
  orderSensitive := none
  id := none
  category := none

theorem numbers_unordered :
    ∃ res, (evaluateSuite (rowTools [[.num 2], [.num 1]]) (.insertion _)
        [unorderedCase [[.num 1], [.num 2]]]).results[0]? = some res ∧
      ((res.isCorrect = true ↔ List.Perm [[SqlValue.num (2 : ℚ)], [.num 1]] [[.num 1], [.num 2]]) ↔
        (List.Perm [[SqlValue.num (2 : ℚ)], [.num 1]] [[.num 1], [.num 2]] →
          [[SqlValue.num (2 : ℚ)], [.num 1]] = [[.num 1], [.num 2]] ∨
            Comparable [[SqlValue.num (2 : ℚ)], [.num 1]])) :=
  isCorrect_iff_perm_iff _ _ rfl rfl rfl rfl

/-- The rows are the same, but a number is not compared with a null. -/
theorem null_misjudged :
    (evaluateSuite (rowTools [[.num 1], [.null]]) (.insertion _)
        [unorderedCase [[.null], [.num 1]]]).results.map SqlResult.isCorrect = [false] ∧
      List.Perm [[SqlValue.num (1 : ℚ)], [.null]] [[.null], [.num 1]] := by
  constructor
  · decide +kernel
  · exact List.Perm.swap _ _ _
