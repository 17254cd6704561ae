/-
The shape verifier.

The tensors of a payload are compared with the weights of a target model: a
fused tensor with the weights it is made of, any other with the weight of the
same name.  A second loop looks for weights that are not in the payload, but
passes over every name that a fused tensor could stand for, whether or not
the payload has one.

* `ShapeVerifier.verifyShapes` — the report;
* `ShapeVerifier.pass_iff` — what a PASS says;
* `ShapeVerifier.FullCoverage` — what it is taken to say;
* `ShapeVerifier.pass_covers_iff` — exactly when the two agree.
-/
import NeuralScalpel.Dict
import NeuralScalpel.LoraKeys
import NeuralScalpel.Replacing
import Mathlib.Algebra.GroupWithZero.Nat

namespace ShapeVerifier

/-- The shapes of a state dict. -/
abbrev StateDict : Type := Dict String (List ℕ)

/-! ### The payload side -/

/-- `target_keys` of a fused key. -/
def targetComponents (key : String) : Option (List String) :=
  if inKey ".mlp.gate_up_proj.weight" key then
    some [replaceIn "gate_up_proj" "gate_proj" key, replaceIn "gate_up_proj" "up_proj" key]
  else if inKey ".self_attn.qkv_proj.weight" key then
    some [replaceIn "qkv_proj" "q_proj" key, replaceIn "qkv_proj" "k_proj" key,
      replaceIn "qkv_proj" "v_proj" key]
  else none

inductive AuditStatus
  | match
  | mismatch
  | error
  | unexpected
  deriving DecidableEq, Repr

structure AuditEntry where
  payloadKey : String
  payloadShape : List ℕ
  status : AuditStatus
  targetComponents : Option (List String)
  deriving DecidableEq, Repr

/-- The loop over the components of a fused tensor, with `valid_fusion` and
`sum_out`; `none` when an index is out of range. -/
def sumComponents (targetSd : StateDict) (pShape : List ℕ) :
    List String → Bool → ℕ → Option (Bool × ℕ)
  | [], validFusion, sumOut => some (validFusion, sumOut)
  | tk :: tks, validFusion, sumOut =>
    match targetSd.get? tk with
    | some tShape => do
      let tCols ← tShape[1]?
      let pCols ← pShape[1]?
      let tRows ← tShape[0]?
      sumComponents targetSd pShape tks (validFusion && tCols == pCols) (sumOut + tRows)
    | none => sumComponents targetSd pShape tks false sumOut

/-- The `try` block for a fused tensor. -/
def fusedStatus (targetSd : StateDict) (targetKeys : List String) (pShape : List ℕ) :
    AuditStatus :=
  match sumComponents targetSd pShape targetKeys true 0 with
  | some (true, sumOut) =>
    match pShape[0]? with
    | some pRows => if sumOut = pRows then .match else .mismatch
    | none => .error
  | some (false, _) => .mismatch
  | none => .error

def plainStatus (targetSd : StateDict) (key : String) (pShape : List ℕ) : AuditStatus :=
  match targetSd.get? key with
  | some tShape => if tShape = pShape then .match else .mismatch
  | none => .unexpected

/-- `audit_entry`. -/
def auditEntry (targetSd : StateDict) (key : String) (pShape : List ℕ) : AuditEntry where
  payloadKey := key
  payloadShape := pShape
  status := match targetComponents key with
    | some targetKeys => fusedStatus targetSd targetKeys pShape
    | none => plainStatus targetSd key pShape
  targetComponents := targetComponents key

/-- The counters of the first loop. -/
structure Audit where
  matched : ℕ
  mismatched : ℕ
  unexpected : List String
  resultsAudit : List AuditEntry
  deriving DecidableEq, Repr

def Audit.empty : Audit := ⟨0, 0, [], []⟩

/-- Count an entry and append it. -/
def Audit.record (st : Audit) (entry : AuditEntry) : Audit :=
  let st := { st with resultsAudit := st.resultsAudit ++ [entry] }
  match entry.status with
  | .match => { st with matched := st.matched + 1 }
  | .mismatch | .error => { st with mismatched := st.mismatched + 1 }
  | .unexpected => { st with unexpected := st.unexpected ++ [entry.payloadKey] }

/-- The loop over the payload. -/
def auditPayload (targetSd payloadSd : StateDict) : Audit :=
  payloadSd.entries.foldl (fun st e => st.record (auditEntry targetSd e.1 e.2)) .empty

/-! ### The target side -/

/-- The weights of attention and MLP layers. -/
def isRelevant (key : String) : Bool :=
  inKey ".layers." key && (inKey ".self_attn." key || inKey ".mlp." key) && inKey ".weight" key

/-- The names the second loop passes over. -/
def fusedFamilies : List String := ["gate_proj", "up_proj", "q_proj", "k_proj", "v_proj"]

def isMissing (payloadSd : StateDict) (key : String) : Bool :=
  isRelevant key && !payloadSd.contains key && !anyInKey fusedFamilies key

/-- The loop over the target. -/
def countMissing (targetSd payloadSd : StateDict) : ℕ :=
  targetSd.keys.foldl (fun missing key =>
    if isMissing payloadSd key then missing + 1 else missing) 0

/-! ### The report -/

inductive VerifyStatus
  | pass
  | fail
  deriving DecidableEq, Repr

structure VerifySummary where
  matched : ℕ
  mismatched : ℕ
  missing : ℕ
  unexpected : ℕ
  deriving DecidableEq, Repr

structure VerifyReport where
  status : VerifyStatus
  summary : VerifySummary
  tensors : List AuditEntry
  deriving DecidableEq, Repr

/-- `verify_shapes`. -/
def verifyShapes (payloadSd targetSd : StateDict) : VerifyReport :=
  let audit := auditPayload targetSd payloadSd
  let missing := countMissing targetSd payloadSd
  { status :=
      if audit.mismatched = 0 ∧ missing = 0 ∧ audit.unexpected.length = 0 then .pass else .fail
    summary := ⟨audit.matched, audit.mismatched, missing, audit.unexpected.length⟩
    tensors := audit.resultsAudit }

/-! ### Coverage -/

/-- The rows of a fused tensor are those of its components, one below the
other, with as many columns. -/
def FusedFits (targetSd : StateDict) (components : List String) (pShape : List ℕ) : Prop :=
  ∃ rows cols, (∃ rest, pShape = rows.sum :: cols :: rest) ∧
    List.Forall₂ (fun tk r => ∃ rest, targetSd.get? tk = some (r :: cols :: rest)) components rows

/-- A tensor of the payload covers a weight of the target: it has its name and
shape, or it is a fused tensor the weight is a component of. -/
def Covers (payloadSd targetSd : StateDict) (pk tk : String) : Prop :=
  ∃ pShape, payloadSd.get? pk = some pShape ∧
    (pk = tk ∧ targetSd.get? tk = some pShape ∨
      ∃ components, targetComponents pk = some components ∧ tk ∈ components ∧
        FusedFits targetSd components pShape)

/-- Every relevant weight is covered, and every tensor covers a weight. -/
def FullCoverage (payloadSd targetSd : StateDict) : Prop :=
  (∀ tk ∈ targetSd.keys, isRelevant tk = true → ∃ pk, Covers payloadSd targetSd pk tk) ∧
    ∀ pk ∈ payloadSd.keys, ∃ tk ∈ targetSd.keys, Covers payloadSd targetSd pk tk

/-- Every tensor has the shape its name asks for. -/
def PayloadFits (payloadSd targetSd : StateDict) : Prop :=
  ∀ pk pShape, payloadSd.get? pk = some pShape →
    match targetComponents pk with
    | some components => FusedFits targetSd components pShape
    | none => targetSd.get? pk = some pShape

/-- The relevant weights outside the families are in the payload. -/
def OthersPresent (payloadSd targetSd : StateDict) : Prop :=
  ∀ tk ∈ targetSd.keys, isRelevant tk = true → anyInKey fusedFamilies tk = false →
    payloadSd.contains tk = true

/-- Those in a family are in the payload with their shape, or have a fused
tensor there. -/
def FamiliesPresent (payloadSd targetSd : StateDict) : Prop :=
  ∀ tk tShape, targetSd.get? tk = some tShape → isRelevant tk = true →
    anyInKey fusedFamilies tk = true →
      payloadSd.get? tk = some tShape ∨
        ∃ pk ∈ payloadSd.keys, ∃ components, targetComponents pk = some components ∧
          tk ∈ components

/-! ### What the counters say -/

/-- The counters agree with the audit entries. -/
structure Audit.Agrees (st : Audit) : Prop where
  matched : st.matched = st.resultsAudit.countP fun e => e.status = .match
  mismatched : st.mismatched =
    st.resultsAudit.countP fun e => e.status = .mismatch ∨ e.status = .error
  unexpected : st.unexpected =
    (st.resultsAudit.filter fun e => e.status = .unexpected).map AuditEntry.payloadKey

theorem Audit.Agrees.record {st : Audit} (h : st.Agrees) (entry : AuditEntry) :
    (st.record entry).Agrees := by
  obtain ⟨hmatched, hmismatched, hunexpected⟩ := h
  obtain ⟨key, shape, status, components⟩ := entry
  cases status <;>
    constructor <;>
      simp [Audit.record, List.countP_append, List.filter_append, hmatched, hmismatched,
        hunexpected]

@[simp] theorem Audit.resultsAudit_record (st : Audit) (entry : AuditEntry) :
    (st.record entry).resultsAudit = st.resultsAudit ++ [entry] := by
  obtain ⟨key, shape, status, components⟩ := entry
  cases status <;> rfl

/-- After the loop the counters agree with one entry for each tensor. -/
theorem auditLoop_spec (targetSd : StateDict) (entries : List (String × List ℕ)) {st : Audit}
    (h : st.Agrees) :
    (entries.foldl (fun st e => st.record (auditEntry targetSd e.1 e.2)) st).Agrees ∧
      (entries.foldl (fun st e => st.record (auditEntry targetSd e.1 e.2)) st).resultsAudit =
        st.resultsAudit ++ entries.map fun e => auditEntry targetSd e.1 e.2 := by
  induction entries generalizing st with
  | nil => exact ⟨h, (List.append_nil _).symm⟩
  | cons e entries ih =>
    obtain ⟨hagrees, haudit⟩ := ih (h.record (auditEntry targetSd e.1 e.2))
    refine ⟨hagrees, ?_⟩
    rw [List.foldl_cons, haudit, Audit.resultsAudit_record, List.append_assoc, List.map_cons]
    rfl

theorem Audit.agrees_empty : Audit.empty.Agrees := ⟨rfl, rfl, rfl⟩

theorem auditPayload_agrees (targetSd payloadSd : StateDict) :
    (auditPayload targetSd payloadSd).Agrees :=
  (auditLoop_spec targetSd payloadSd.entries Audit.agrees_empty).1

theorem resultsAudit_auditPayload (targetSd payloadSd : StateDict) :
    (auditPayload targetSd payloadSd).resultsAudit =
      payloadSd.entries.map fun e => auditEntry targetSd e.1 e.2 :=
  (auditLoop_spec targetSd payloadSd.entries Audit.agrees_empty).2

/-- Nothing is counted against a payload iff all its entries match. -/
theorem audit_clean_iff {st : Audit} (h : st.Agrees) :
    st.mismatched = 0 ∧ st.unexpected.length = 0 ↔ ∀ e ∈ st.resultsAudit, e.status = .match := by
  rw [h.mismatched, h.unexpected, List.length_map, List.length_eq_zero_iff, List.countP_eq_zero,
    List.filter_eq_nil_iff]
  constructor
  · rintro ⟨hmismatch, hunexpected⟩ e he
    have hm := hmismatch e he
    have hu := hunexpected e he
    cases hstatus : e.status <;> simp [hstatus] at hm hu ⊢
  · intro hall
    exact ⟨fun e he => by simp [hall e he], fun e he => by simp [hall e he]⟩

theorem foldl_missing_eq (payloadSd : StateDict) (keys : List String) (n : ℕ) :
    keys.foldl (fun missing key => if isMissing payloadSd key then missing + 1 else missing) n =
      n + keys.countP (isMissing payloadSd) := by
  induction keys generalizing n with
  | nil => rfl
  | cons key keys ih =>
    rw [List.foldl_cons, ih, List.countP_cons]
    by_cases h : isMissing payloadSd key = true
    · rw [if_pos h, if_pos h]
      omega
    · rw [if_neg h, if_neg h]
      omega

theorem countMissing_eq_zero_iff (targetSd payloadSd : StateDict) :
    countMissing targetSd payloadSd = 0 ↔ OthersPresent payloadSd targetSd := by
  unfold countMissing OthersPresent
  rw [foldl_missing_eq, Nat.zero_add, List.countP_eq_zero]
  refine forall₂_congr fun tk _ => ?_
  unfold isMissing
  cases isRelevant tk <;> cases payloadSd.contains tk <;> cases anyInKey fusedFamilies tk <;> simp

/-! ### What the comparisons say -/

/-- The loop over the components, once it has turned invalid, stays so. -/
theorem sumComponents_false {targetSd : StateDict} {pShape : List ℕ} {tks : List String}
    {sumOut n : ℕ} : sumComponents targetSd pShape tks false sumOut ≠ some (true, n) := by
  induction tks generalizing sumOut with
  | nil => simp [sumComponents]
  | cons tk tks ih =>
    rw [sumComponents]
    rcases targetSd.get? tk with _ | tShape
    · exact ih
    · rcases tShape with _ | ⟨tRows, _ | ⟨tCols, rest⟩⟩ <;>
        rcases hp : pShape[1]? with _ | pCols <;> simp [ih]

/-- It stays valid iff every component is there with the columns of the tensor. -/
theorem sumComponents_eq_iff {targetSd : StateDict} {pShape : List ℕ} {tks : List String}
    {sumOut n : ℕ} :
    sumComponents targetSd pShape tks true sumOut = some (true, n) ↔
      ∃ rows : List ℕ, sumOut + rows.sum = n ∧
        List.Forall₂ (fun tk r => ∃ cols rest, pShape[1]? = some cols ∧
          targetSd.get? tk = some (r :: cols :: rest)) tks rows := by
  induction tks generalizing sumOut with
  | nil => simp [sumComponents]
  | cons tk tks ih =>
    rw [sumComponents]
    constructor
    · intro h
      rcases hget : targetSd.get? tk with _ | tShape
      · rw [hget] at h
        exact absurd h sumComponents_false
      · rcases tShape with _ | ⟨tRows, _ | ⟨tCols, rest⟩⟩ <;>
          rcases hp : pShape[1]? with _ | pCols <;> simp [hget, hp] at h
        by_cases hcols : tCols = pCols
        · subst hcols
          rw [beq_self_eq_true] at h
          obtain ⟨rows, hsum, hrows⟩ := ih.mp h
          refine ⟨tRows :: rows, ?_, .cons ⟨tCols, rest, rfl, hget⟩ (hp ▸ hrows)⟩
          rw [List.sum_cons]
          omega
        · rw [beq_false_of_ne hcols] at h
          exact absurd h sumComponents_false
    · rintro ⟨_, hsum, hrows⟩
      rcases hrows with _ | ⟨⟨cols, rest, hp, hget⟩, hrows⟩
      rename_i tRows rows
      rw [List.sum_cons] at hsum
      have hshift : sumOut + tRows + rows.sum = n := by omega
      have htail := ih.mpr ⟨rows, hshift, hrows⟩
      simpa [hget, hp] using htail

theorem fusedStatus_eq_match_iff {targetSd : StateDict} {pShape : List ℕ} {tks : List String}
    (hne : tks ≠ []) :
    fusedStatus targetSd tks pShape = .match ↔ FusedFits targetSd tks pShape := by
  have hvalid : fusedStatus targetSd tks pShape = .match ↔
      ∃ n, sumComponents targetSd pShape tks true 0 = some (true, n) ∧ pShape[0]? = some n := by
    unfold fusedStatus
    rcases sumComponents targetSd pShape tks true 0 with _ | ⟨_ | _, n⟩ <;>
      rcases pShape[0]? with _ | pRows <;> simp [eq_comm]
  rw [hvalid]
  constructor
  · rintro ⟨n, hsum, hrows⟩
    obtain ⟨rows, rfl, hall⟩ := sumComponents_eq_iff.mp hsum
    rcases hall with _ | ⟨⟨cols, rest, hp, hget⟩, hall⟩
    · exact absurd rfl hne
    rcases pShape with _ | ⟨pRows, _ | ⟨pCols, pRest⟩⟩ <;> simp at hp hrows
    subst hp hrows
    refine ⟨_, pCols, ⟨pRest, rfl⟩, .cons ⟨rest, hget⟩ (hall.imp ?_)⟩
    rintro tk r ⟨cols, rest, hcols, hget⟩
    simp at hcols
    exact ⟨rest, hcols ▸ hget⟩
  · rintro ⟨rows, cols, ⟨rest, rfl⟩, hall⟩
    refine ⟨rows.sum, sumComponents_eq_iff.mpr ⟨rows, Nat.zero_add _, hall.imp ?_⟩, rfl⟩
    rintro tk r ⟨rest, hget⟩
    exact ⟨cols, rest, rfl, hget⟩

theorem plainStatus_eq_match_iff {targetSd : StateDict} {key : String} {pShape : List ℕ} :
    plainStatus targetSd key pShape = .match ↔ targetSd.get? key = some pShape := by
  unfold plainStatus
  rcases targetSd.get? key with _ | tShape
  · simp
  · by_cases h : tShape = pShape <;> simp [h]

theorem targetComponents_ne_nil {key : String} {components : List String}
    (h : targetComponents key = some components) : components ≠ [] := by
  unfold targetComponents at h
  split at h
  · cases h
    simp
  · split at h
    · cases h
      simp
    · cases h

theorem auditEntry_match_iff {targetSd : StateDict} {key : String} {pShape : List ℕ} :
    (auditEntry targetSd key pShape).status = .match ↔
      match targetComponents key with
      | some components => FusedFits targetSd components pShape
      | none => targetSd.get? key = some pShape := by
  rcases hcomponents : targetComponents key with _ | components
  · simp only [auditEntry, hcomponents]
    exact plainStatus_eq_match_iff
  · simp only [auditEntry, hcomponents]
    exact fusedStatus_eq_match_iff (targetComponents_ne_nil hcomponents)

/-! ### PASS and coverage -/

variable {payloadSd targetSd : StateDict}

/-- A PASS says that the tensors fit, and that the weights outside the families
are there. -/
theorem pass_iff : (verifyShapes payloadSd targetSd).status = .pass ↔
    PayloadFits payloadSd targetSd ∧ OthersPresent payloadSd targetSd := by
  have hclean := audit_clean_iff (auditPayload_agrees targetSd payloadSd)
  rw [resultsAudit_auditPayload, List.forall_mem_map] at hclean
  have hfits : (∀ e ∈ payloadSd.entries, (auditEntry targetSd e.1 e.2).status = .match) ↔
      PayloadFits payloadSd targetSd := by
    constructor
    · intro h pk pShape hget
      exact auditEntry_match_iff.mp (h (pk, pShape) (Dict.mem_entries_iff.mpr hget))
    · rintro h ⟨pk, pShape⟩ hmem
      exact auditEntry_match_iff.mpr (h pk pShape (Dict.mem_entries_iff.mp hmem))
  rw [← hfits, ← hclean, ← countMissing_eq_zero_iff targetSd payloadSd]
  show (if _ then VerifyStatus.pass else VerifyStatus.fail) = .pass ↔ _
  split
  · rename_i h
    exact ⟨fun _ => ⟨⟨h.1, h.2.2⟩, h.2.1⟩, fun _ => rfl⟩
  · rename_i h
    refine ⟨fun hpass => ?_, fun hc => absurd ⟨hc.1.1, hc.2, hc.1.2⟩ h⟩
    cases hpass

theorem FusedFits.mem_target {components : List String} {pShape : List ℕ}
    (h : FusedFits targetSd components pShape) {tk : String} (htk : tk ∈ components) :
    tk ∈ targetSd.keys := by
  obtain ⟨rows, cols, -, hall⟩ := h
  obtain ⟨i, hi, rfl⟩ := List.getElem_of_mem htk
  have hi' : i < rows.length := hall.length_eq ▸ hi
  obtain ⟨rest, hget⟩ := (List.forall₂_iff_get.mp hall).2 i hi hi'
  exact Dict.mem_keys_iff.mpr (Dict.contains_iff.mpr ⟨_, hget⟩)

/-- A tensor that fits covers a weight. -/
theorem covers_of_payloadFits (hfits : PayloadFits payloadSd targetSd) {pk : String}
    (hpk : pk ∈ payloadSd.keys) : ∃ tk ∈ targetSd.keys, Covers payloadSd targetSd pk tk := by
  obtain ⟨pShape, hget⟩ := Dict.contains_iff.mp (Dict.mem_keys_iff.mp hpk)
  have hfit := hfits pk pShape hget
  rcases hcomponents : targetComponents pk with _ | components
  · rw [hcomponents] at hfit
    refine ⟨pk, Dict.mem_keys_iff.mpr (Dict.contains_iff.mpr ⟨pShape, hfit⟩), pShape, hget, ?_⟩
    exact Or.inl ⟨rfl, hfit⟩
  · rw [hcomponents] at hfit
    obtain ⟨tk, htk⟩ := List.exists_mem_of_ne_nil _ (targetComponents_ne_nil hcomponents)
    exact ⟨tk, hfit.mem_target htk, pShape, hget, Or.inr ⟨components, hcomponents, htk, hfit⟩⟩

theorem inKey_trans {s t key : String} (hst : occursIn s t.toList = true)
    (h : inKey t key = true) : inKey s key = true := by
  unfold inKey at h ⊢
  rw [occursIn_iff] at hst h ⊢
  exact hst.trans h

/-- The name of a fused tensor is in a family itself. -/
theorem targetComponents_of_plain {key : String} (h : anyInKey fusedFamilies key = false) :
    targetComponents key = none := by
  have hnot : ∀ s ∈ fusedFamilies, inKey s key = false := by
    intro s hs
    exact Bool.eq_false_iff.mpr fun hin =>
      Bool.eq_false_iff.mp h (List.any_eq_true.mpr ⟨s, hs, hin⟩)
  have hgateUp : inKey ".mlp.gate_up_proj.weight" key = false := by
    refine Bool.eq_false_iff.mpr fun hin => ?_
    exact Bool.eq_false_iff.mp (hnot "up_proj" (by decide)) (inKey_trans (by decide) hin)
  have hqkv : inKey ".self_attn.qkv_proj.weight" key = false := by
    refine Bool.eq_false_iff.mpr fun hin => ?_
    exact Bool.eq_false_iff.mp (hnot "v_proj" (by decide)) (inKey_trans (by decide) hin)
  unfold targetComponents
  rw [hgateUp, hqkv]
  rfl

/-- A weight outside the families that is in a payload that fits is covered. -/
theorem covered_of_plain (hfits : PayloadFits payloadSd targetSd) {tk : String}
    (hplain : anyInKey fusedFamilies tk = false) (htk : payloadSd.contains tk = true) :
    ∃ pk, Covers payloadSd targetSd pk tk := by
  obtain ⟨pShape, hget⟩ := Dict.contains_iff.mp htk
  have hfit := hfits tk pShape hget
  rw [targetComponents_of_plain hplain] at hfit
  exact ⟨tk, pShape, hget, Or.inl ⟨rfl, hfit⟩⟩

/-- Where a payload fits, the weights in a family are covered iff they are
there, alone or as part of a fused tensor. -/
theorem familiesPresent_iff (hfits : PayloadFits payloadSd targetSd) :
    FamiliesPresent payloadSd targetSd ↔
      ∀ tk ∈ targetSd.keys, isRelevant tk = true → anyInKey fusedFamilies tk = true →
        ∃ pk, Covers payloadSd targetSd pk tk := by
  constructor
  · intro h tk htk hrelevant hfamily
    obtain ⟨tShape, hget⟩ := Dict.contains_iff.mp (Dict.mem_keys_iff.mp htk)
    rcases h tk tShape hget hrelevant hfamily with hsame | ⟨pk, hpk, components, hc, hmem⟩
    · exact ⟨tk, tShape, hsame, Or.inl ⟨rfl, hget⟩⟩
    · obtain ⟨pShape, hpget⟩ := Dict.contains_iff.mp (Dict.mem_keys_iff.mp hpk)
      have hfit := hfits pk pShape hpget
      rw [hc] at hfit
      exact ⟨pk, pShape, hpget, Or.inr ⟨components, hc, hmem, hfit⟩⟩
  · intro h tk tShape hget hrelevant hfamily
    have htk := Dict.mem_keys_iff.mpr (Dict.contains_iff.mpr ⟨tShape, hget⟩)
    obtain ⟨pk, pShape, hpget, ⟨rfl, hsame⟩ | ⟨components, hc, hmem, -⟩⟩ :=
      h tk htk hrelevant hfamily
    · exact Or.inl (hpget.trans (hsame.symm.trans hget))
    · have hpk := Dict.mem_keys_iff.mpr (Dict.contains_iff.mpr ⟨pShape, hpget⟩)
      exact Or.inr ⟨pk, hpk, components, hc, hmem⟩

theorem fullCoverage_iff (hfits : PayloadFits payloadSd targetSd)
    (hothers : OthersPresent payloadSd targetSd) :
    FullCoverage payloadSd targetSd ↔ FamiliesPresent payloadSd targetSd := by
  rw [familiesPresent_iff hfits]
  constructor
  · intro h tk htk hrelevant _
    exact h.1 tk htk hrelevant
  · intro h
    refine ⟨fun tk htk hrelevant => ?_, fun pk hpk => covers_of_payloadFits hfits hpk⟩
    rcases hfamily : anyInKey fusedFamilies tk with _ | _
    · exact covered_of_plain hfits hfamily (hothers tk htk hrelevant hfamily)
    · exact h tk htk hrelevant hfamily

variable (payloadSd targetSd)

/-- A PASS means full coverage exactly when a payload that fits, with all
weights outside the families, has the weights of the families as well. -/
theorem pass_covers_iff :
    ((verifyShapes payloadSd targetSd).status = .pass → FullCoverage payloadSd targetSd) ↔
      (PayloadFits payloadSd targetSd → OthersPresent payloadSd targetSd →
        FamiliesPresent payloadSd targetSd) := by
  rw [pass_iff]
  constructor
  · intro h hfits hothers
    exact (fullCoverage_iff hfits hothers).mp (h ⟨hfits, hothers⟩)
  · rintro h ⟨hfits, hothers⟩
    exact (fullCoverage_iff hfits hothers).mpr (h hfits hothers)

/-! ### A payload without its query projection -/

/-- Two projections of an attention layer. -/
def attentionTarget : StateDict :=
  .ofWrites [("model.layers.0.self_attn.q_proj.weight", [8, 4]),
    ("model.layers.0.self_attn.o_proj.weight", [4, 8])]

def outputPayload : StateDict :=
  .ofWrites [("model.layers.0.self_attn.o_proj.weight", [4, 8])]

theorem outputPayload_passes_uncovered :
    (verifyShapes outputPayload attentionTarget).status = .pass ∧
      ¬FullCoverage outputPayload attentionTarget := by
  refine ⟨by decide, fun h => ?_⟩
  obtain ⟨pk, pShape, hget, hcovers⟩ :=
    h.1 "model.layers.0.self_attn.q_proj.weight" (by decide) (by decide)
  have hpk : pk = "model.layers.0.self_attn.o_proj.weight" := by
    have hmem := List.mem_map_of_mem (f := Prod.fst) (Dict.mem_entries_iff.mpr hget)
    exact List.mem_singleton.mp hmem
  subst hpk
  rcases hcovers with ⟨hne, -⟩ | ⟨components, hc, -⟩
  · exact absurd hne (by decide)
  · have hnone : targetComponents "model.layers.0.self_attn.o_proj.weight" = none := by decide
    exact Option.some_ne_none _ (hc.symm.trans hnone)

end ShapeVerifier
