/-
The license policy of the registry.

The policy looks for the names of licenses anywhere in the upper-cased license
string, and for the permissive ones first.  What it is meant to admit is said
in terms of the words of the string: one of them is permissive, and none is
copyleft.

* `evaluateLicenseRisk_eq_allow` — what the substring tests allow;
* `permissive_iff` — the words, by the places in the string where they stand;
* `admitsOnlyPermissive_iff` — which registrations admit a license that is not
  permissive.
-/
import NeuralScalpel.RegistryRuns
import NeuralScalpel.Words

open Words

namespace RouteDocument

/-! ### Words of a license -/

/-- White space, parentheses, commas and slashes. -/
def isSeparator (c : Char) : Bool :=
  isSpace c || c == '(' || c == ')' || c == ',' || c == '/'

def tokens (license : String) : List (List Char) := license.toList.splitOnP isSeparator

/-- The names that begin a copyleft or restrictive license. -/
def copyleftNames : List String := ["GPL", "AGPL", "CC-BY-NC-SA"]

/-- A token is permissive: MIT itself, or an Apache or a BSD license. -/
def PermissiveToken (token : List Char) : Prop :=
  token = "MIT".toList ∨ "APACHE".toList <+: token ∨ "BSD".toList <+: token

/-- One token is permissive, and none begins a copyleft license. -/
structure Permissive (license : String) : Prop where
  permissive : ∃ token ∈ tokens license, PermissiveToken token
  no_copyleft : ∀ token ∈ tokens license, ∀ name ∈ copyleftNames, ¬name.toList <+: token

/-- If the document read from the file is registered, its upper-cased license is
permissive. -/
def AdmitsOnlyPermissive (verifier : Verifier) (file : Except PyError Json) : Prop :=
  ∀ registry key registry', registerRoute verifier file registry = .ok key registry' →
    ∃ routeData s, file = .ok routeData ∧
      routeData.getFieldD "license" (.str "") = .ok (.str s) ∧ Permissive (verifier.upper s)

/-! ### What the policy allows -/

/-- The string has the name of a permissive license somewhere in it. -/
def HasPermissiveName (license : String) : Prop :=
  ∃ name ∈ ["MIT", "APACHE", "BSD"], name.toList <:+: license.toList

theorem evaluateLicenseRisk_eq_allow {upper : String → String} {s : String} :
    evaluateLicenseRisk upper s = .allow ↔ s ≠ "" ∧ HasPermissiveName (upper s) := by
  unfold evaluateLicenseRisk HasPermissiveName
  simp only [← occursIn_iff]
  split_ifs with hempty hallow hdeny
  · simp [hempty]
  · exact iff_of_true rfl ⟨hempty, List.any_eq_true.mp hallow⟩
  all_goals exact iff_of_false (by simp) fun h => hallow (List.any_eq_true.mpr h.2)

/-- The policy passes exactly a license that is a string the substring tests allow. -/
theorem verifyLicensePolicy_eq_ok {verifier : Verifier} {routeData : Json} {u : Unit} :
    verifyLicensePolicy verifier routeData = .ok u ↔
      ∃ s, routeData.getFieldD "license" (.str "") = .ok (.str s) ∧ s ≠ "" ∧
        HasPermissiveName (verifier.upper s) := by
  unfold verifyLicensePolicy
  rw [Effect.bind_eq_ok]
  constructor
  · rintro ⟨licenseName, hlicense, h⟩
    cases licenseName with
    | str s =>
      simp only [pure_bind] at h
      refine ⟨s, hlicense, evaluateLicenseRisk_eq_allow.mp ?_⟩
      cases hrisk : evaluateLicenseRisk verifier.upper s with
      | allow => rfl
      | deny =>
        rw [hrisk] at h
        cases h
      | manualReview =>
        rw [hrisk] at h
        cases h
    -- whatever is not a string raises or goes to manual review
    | _ =>
      simp only [pure_bind] at h
      split_ifs at h
      cases h
  · rintro ⟨s, hlicense, hallow⟩
    refine ⟨.str s, hlicense, ?_⟩
    simp only [pure_bind]
    rw [evaluateLicenseRisk_eq_allow.mpr hallow]
    rfl

/-! ### Where the policy misreads -/

/-- A permissive license is named as a word of the string. -/
def NamesPermissive (license : String) : Prop :=
  StandsAlone isSeparator "MIT".toList license.toList ∨
    BeginsWord isSeparator "APACHE".toList license.toList ∨
    BeginsWord isSeparator "BSD".toList license.toList

/-- The name of a copyleft license stands where a word starts. -/
def NamesCopyleft (license : String) : Prop :=
  ∃ name ∈ copyleftNames, BeginsWord isSeparator name.toList license.toList

/-- The names the policy knows have no separators in them. -/
theorem isSeparator_of_mem_name (name : String)
    (hname : name ∈ ["MIT", "APACHE", "BSD"] ++ copyleftNames) :
    ∀ c ∈ name.toList, isSeparator c = false := by
  have hall : (["MIT", "APACHE", "BSD"] ++ copyleftNames).all
      (fun name => name.toList.all fun c => !isSeparator c) = true := by
    decide +kernel
  intro c hc
  have hname := List.all_eq_true.mp hall name hname
  exact Bool.not_eq_true' _ |>.mp (List.all_eq_true.mp hname c hc)

/-- The words of a license, by the places where they stand. -/
theorem permissive_iff {license : String} :
    Permissive license ↔ NamesPermissive license ∧ ¬NamesCopyleft license := by
  have hpermissive : (∃ token ∈ tokens license, PermissiveToken token) ↔
      NamesPermissive license := by
    unfold PermissiveToken NamesPermissive tokens
    rw [← mem_words_iff (isSeparator_of_mem_name "MIT" (by decide)),
      ← exists_word_prefix_iff (isSeparator_of_mem_name "APACHE" (by decide)),
      ← exists_word_prefix_iff (isSeparator_of_mem_name "BSD" (by decide))]
    simp only [and_or_left, exists_or, exists_eq_right]
  have hcopyleft : (∀ token ∈ tokens license, ∀ name ∈ copyleftNames, ¬name.toList <+: token) ↔
      ¬NamesCopyleft license := by
    have hword : ∀ {name}, name ∈ copyleftNames →
        ((∃ token ∈ tokens license, name.toList <+: token) ↔
          BeginsWord isSeparator name.toList license.toList) := fun {name} hname =>
      exists_word_prefix_iff (isSeparator_of_mem_name name (List.mem_append_right _ hname))
    constructor
    · rintro hnone ⟨name, hname, hbegins⟩
      obtain ⟨token, htoken, hprefix⟩ := (hword hname).mpr hbegins
      exact hnone token htoken name hname hprefix
    · intro hnone token htoken name hname hprefix
      exact hnone ⟨name, hname, (hword hname).mp ⟨token, htoken, hprefix⟩⟩
  exact ⟨fun h => ⟨hpermissive.mp h.permissive, hcopyleft.mp h.no_copyleft⟩,
    fun h => ⟨hpermissive.mpr h.1, hcopyleft.mpr h.2⟩⟩

/-- The string has a permissive name in it, but only inside other words, or it
names a copyleft license besides. -/
def Misread (license : String) : Prop :=
  HasPermissiveName license ∧ (¬NamesPermissive license ∨ NamesCopyleft license)

/-- Every check of an admission but that of the license passes. -/
structure OtherwiseAdmitted (verifier : Verifier) (routeData : Json) : Prop where
  schema : verifySchema verifier routeData = .ok ()
  hashes : verifyHash routeData = .ok ()
  signature : verifySignature verifier routeData = .ok ()
  verdict : verifyVerdict routeData = .ok ()
  key : ∃ key, routeKey routeData = .ok key

/-- A document is registered exactly when it passes the other checks and the
license policy. -/
theorem registers_iff {verifier : Verifier} {file : Except PyError Json} {registry : Registry} :
    (∃ key registry', registerRoute verifier file registry = .ok key registry') ↔
      ∃ routeData, file = .ok routeData ∧ OtherwiseAdmitted verifier routeData ∧
        verifyLicensePolicy verifier routeData = .ok () := by
  rw [registerRoute_eq]
  constructor
  · rintro ⟨key, registry', h⟩
    cases hadmission : admission verifier file with
    | error e =>
      rw [hadmission] at h
      cases h
    | ok admitted =>
      obtain ⟨key', routeData⟩ := admitted
      obtain ⟨hfile, hverified, hkey⟩ := admission_eq_ok.mp hadmission
      exact ⟨routeData, hfile, ⟨hverified.schema, hverified.hashes, hverified.signature,
        hverified.verdict, key', hkey⟩, hverified.license⟩
  · rintro ⟨routeData, hfile, hother, hlicense⟩
    obtain ⟨key, hkey⟩ := hother.key
    have hadmission : admission verifier file = .ok (key, routeData) :=
      admission_eq_ok.mpr ⟨hfile,
        ⟨hother.schema, hother.hashes, hother.signature, hlicense, hother.verdict⟩, hkey⟩
    rw [hadmission]
    exact ⟨key, _, rfl⟩

/-- **What licenses are admitted.**  A registration admits permissively licensed
routes only, exactly unless the document passes every other check and the policy
misreads its license. -/
theorem admitsOnlyPermissive_iff (verifier : Verifier) (file : Except PyError Json) :
    AdmitsOnlyPermissive verifier file ↔
      ∀ routeData s, file = .ok routeData → OtherwiseAdmitted verifier routeData →
        routeData.getFieldD "license" (.str "") = .ok (.str s) → s ≠ "" →
          ¬Misread (verifier.upper s) := by
  constructor
  · rintro honly routeData s hfile hother hlicense hs ⟨hname, hmisread⟩
    obtain ⟨key, registry', hregister⟩ := registers_iff.mpr
      ⟨routeData, hfile, hother, verifyLicensePolicy_eq_ok.mpr ⟨s, hlicense, hs, hname⟩⟩
    obtain ⟨routeData', s', hfile', hlicense', hpermissive⟩ := honly .empty key registry' hregister
    cases hfile.symm.trans hfile'
    cases hlicense.symm.trans hlicense'
    obtain ⟨hnames, hnone⟩ := permissive_iff.mp hpermissive
    exact hmisread.elim (fun h => h hnames) hnone
  · intro hnot registry key registry' hregister
    obtain ⟨routeData, hfile, hother, hpolicy⟩ := registers_iff.mp ⟨key, registry', hregister⟩
    obtain ⟨s, hlicense, hs, hname⟩ := verifyLicensePolicy_eq_ok.mp hpolicy
    refine ⟨routeData, s, hfile, hlicense, permissive_iff.mpr ?_⟩
    have hread := hnot routeData s hfile hother hlicense hs
    constructor
    · by_contra hnames
      exact hread ⟨hname, Or.inl hnames⟩
    · exact fun hcopyleft => hread ⟨hname, Or.inr hcopyleft⟩

/-- A license that requires the GPL and the MIT license is admitted. -/
theorem not_admitsOnlyPermissive_and :
    ¬AdmitsOnlyPermissive sampleVerifier (.ok (sampleManifest "GPL-3.0 AND MIT")) := by
  intro honly
  obtain ⟨routeData, s, hfile, hlicense, hpermissive⟩ := honly .empty (.str "r") _ rfl
  cases hfile
  cases hlicense
  have htoken : "GPL-3.0".toList ∈ tokens (sampleVerifier.upper "GPL-3.0 AND MIT") := by
    decide +kernel
  exact hpermissive.no_copyleft _ htoken "GPL" (by decide) (by decide)

end RouteDocument
