/-
Layer names and component boundaries.

The known spellings of a layer name differ in leading `model` components only.
The two suffix matches that are tried after them compare characters, so the
match may begin inside a component of the longer name.

* `splitOn_append` — where two texts meet, the last component of the first and
  the first of the second become one;
* `core_candidate` — the known spellings agree up to leading `model` components;
* `agrees_append_iff` — when a text and a longer one that ends with it agree;
* `resolvesOnBoundary_iff` — which names are resolved on a boundary.
-/
import NeuralScalpel.LayerNames
import Mathlib.Data.List.Infix
import Mathlib.Data.List.TakeWhile

/-! ### Splitting a text -/

/-- Where two texts meet, the last component of the first and the first of the
second become one. -/
theorem splitOn_append {sep : Char} {right first : List Char} {rest : List (List Char)}
    (hright : right.splitOn sep = first :: rest) : ∀ left : List Char,
    ∃ init last, left.splitOn sep = init ++ [last] ∧
      (left ++ right).splitOn sep = init ++ (last ++ first) :: rest := by
  intro left
  induction left with
  | nil => exact ⟨[], [], List.splitOn_nil sep, hright⟩
  | cons c left ih =>
    obtain ⟨init, last, hleft, happend⟩ := ih
    unfold List.splitOn at hleft happend ⊢
    rw [List.cons_append, List.splitOnP_cons_eq_if_modifyHead,
      List.splitOnP_cons_eq_if_modifyHead, hleft, happend]
    -- a separator starts a component, any other character goes to the first
    by_cases hsep : (c == sep) = true
    · rw [if_pos hsep, if_pos hsep]
      exact ⟨[] :: init, last, rfl, rfl⟩
    · rw [if_neg hsep, if_neg hsep]
      cases init with
      | nil => exact ⟨[], c :: last, rfl, rfl⟩
      | cons component init => exact ⟨(c :: component) :: init, last, rfl, rfl⟩

/-! ### Leading components that do not count -/

section Leading

variable {κ : Type} [DecidableEq κ] (m : κ)

/-- The components after the leading ones that are `m`. -/
def dropLeading (components : List κ) : List κ := components.dropWhile fun c => c = m

/-- One list of components is a suffix of the other, but for leading ones that
are `m`. -/
def AgreeUpTo (components components' : List κ) : Prop :=
  dropLeading m components <:+ dropLeading m components' ∨
    dropLeading m components' <:+ dropLeading m components

variable {m}

theorem dropLeading_cons_self (components : List κ) :
    dropLeading m (m :: components) = dropLeading m components :=
  List.dropWhile_cons_of_pos (by simp)

theorem dropLeading_cons_of_ne {c : κ} (h : c ≠ m) (components : List κ) :
    dropLeading m (c :: components) = c :: components :=
  List.dropWhile_cons_of_neg (by simpa using h)

theorem dropLeading_append_of_all {lead : List κ} (h : ∀ c ∈ lead, c = m) (components : List κ) :
    dropLeading m (lead ++ components) = dropLeading m components := by
  induction lead with
  | nil => rfl
  | cons c lead ih =>
    obtain rfl := h c List.mem_cons_self
    rw [List.cons_append, dropLeading_cons_self]
    exact ih fun c' hc' => h c' (List.mem_cons_of_mem _ hc')

/-- A list of components keeps its end when something stands before it. -/
theorem dropLeading_append_suffix (lead components : List κ) :
    dropLeading m components <:+ dropLeading m (lead ++ components) := by
  unfold dropLeading
  rw [List.dropWhile_append]
  split_ifs
  · exact List.suffix_refl _
  · exact (List.dropWhile_suffix _).trans (List.suffix_append _ _)

/-- A component that counts is not dropped, nor what follows it. -/
theorem exists_dropLeading_append {lead : List κ} {c : κ} (components : List κ)
    (h : ¬((∀ c' ∈ lead, c' = m) ∧ c = m)) :
    ∃ more, dropLeading m (lead ++ c :: components) = more ++ c :: components := by
  -- the first component that counts is among the leading ones, or `c` itself
  by_cases hlead : ∀ c' ∈ lead, c' = m
  · refine ⟨[], ?_⟩
    rw [dropLeading_append_of_all hlead, dropLeading_cons_of_ne fun hc => h ⟨hlead, hc⟩]
    rfl
  · refine ⟨dropLeading m lead, ?_⟩
    unfold dropLeading
    rw [List.dropWhile_append, if_neg]
    intro hempty
    rw [List.isEmpty_iff, List.dropWhile_eq_nil_iff] at hempty
    exact hlead fun c' hc' => of_decide_eq_true (hempty c' hc')

/-- When the first component is replaced by another one with a list before it,
the two agree only in four cases. -/
theorem agreeUpTo_append_iff {lead rest : List κ} {c c' : κ} :
    AgreeUpTo m (lead ++ c :: rest) (c' :: rest) ↔
      c = c' ∨ c' = m ∨ (∀ d ∈ lead, d = m) ∧ c = m := by
  constructor
  · intro hagree
    by_contra hnot
    rw [not_or, not_or] at hnot
    obtain ⟨hne, hcounts, hlead⟩ := hnot
    obtain ⟨more, hmore⟩ := exists_dropLeading_append rest hlead
    unfold AgreeUpTo at hagree
    rw [hmore, dropLeading_cons_of_ne hcounts] at hagree
    -- both end with `rest`, after different components
    have hends : c :: rest = c' :: rest := by
      rcases hagree with hsuffix | hsuffix
      · have hlen := hsuffix.length_le
        rw [List.length_append, List.length_cons, List.length_cons] at hlen
        obtain rfl : more = [] := List.eq_nil_of_length_eq_zero (by omega)
        exact hsuffix.eq_of_length rfl
      · exact (List.suffix_of_suffix_length_le (List.suffix_append more _) hsuffix
          (le_of_eq rfl)).eq_of_length rfl
    exact hne (List.cons.inj hends).1
  · rintro (rfl | rfl | ⟨hlead, rfl⟩)
    · exact Or.inr (dropLeading_append_suffix lead _)
    · right
      rw [dropLeading_cons_self, List.append_cons]
      exact dropLeading_append_suffix _ rest
    · left
      rw [dropLeading_append_of_all hlead, dropLeading_cons_self]
      by_cases hc : c' = c
      · subst hc
        rw [dropLeading_cons_self]
      · rw [dropLeading_cons_of_ne hc]
        exact (List.dropWhile_suffix _).trans (List.suffix_cons _ _)

end Leading

/-! ### Dotted names -/

def modelComponent : List Char := "model".toList

def dotted (name : String) : List (List Char) := name.toList.splitOn '.'

/-- The components after the leading `model` ones. -/
def core (name : String) : List (List Char) := dropLeading modelComponent (dotted name)

/-- Two dotted names agree up to leading components. -/
def Agrees (name target : String) : Prop := AgreeUpTo modelComponent (dotted name) (dotted target)

instance (name target : String) : Decidable (Agrees name target) :=
  inferInstanceAs (Decidable (_ ∨ _))

theorem agrees_of_core_eq {name target : String} (h : core name = core target) :
    Agrees name target := by
  left
  show core name <:+ core target
  rw [h]

theorem core_model (name : String) : core ("model." ++ name) = core name := by
  have hdotted : dotted ("model." ++ name) = modelComponent :: dotted name := by
    rw [dotted, String.toList_append]
    exact List.splitOnP_append_cons "model".toList name.toList rfl
  rw [core, hdotted, dropLeading_cons_self, core]

theorem eq_append_of_hasPrefix {name pre : String} (h : name.hasPrefix pre = true) :
    name = pre ++ name.dropLen pre := by
  obtain ⟨rest, hrest⟩ := List.isPrefixOf_iff_prefix.mp h
  apply String.ext
  rw [String.toList_append, String.dropLen, String.toList_ofList, ← hrest,
    ← String.length_toList, List.drop_left]

theorem core_of_hasPrefix_model {name : String} (h : name.hasPrefix "model." = true) :
    core (name.dropLen "model.") = core name := by
  conv_rhs => rw [eq_append_of_hasPrefix h]
  rw [core_model]

/-- The known spellings differ in leading `model` components only. -/
theorem core_candidate {name candidate : String}
    (h : candidate ∈ layerNameCandidates name) : core candidate = core name := by
  have hlayers : ∀ pre, name.hasPrefix pre = true → core name = core (pre ++ name.dropLen pre) :=
    fun pre hpre => congrArg core (eq_append_of_hasPrefix hpre)
  have hsplit : ∀ rest, core ("model.layers." ++ rest) = core ("layers." ++ rest) := fun rest => by
    rw [show "model.layers." = "model." ++ "layers." from rfl, String.append_assoc, core_model]
  have hsplit₂ : ∀ rest, core ("model.model.layers." ++ rest) = core ("layers." ++ rest) :=
    fun rest => by
      rw [show "model.model.layers." = "model." ++ "model.layers." from rfl, String.append_assoc,
        core_model, hsplit]
  -- one case for each rule that makes a spelling
  simp only [layerNameCandidates, List.mem_append, List.mem_singleton] at h
  rcases h with (((rfl | h) | h) | h) | h
  · rfl
  · by_cases hpre : name.hasPrefix "model." = true
    · rw [if_pos hpre, List.mem_singleton] at h
      rw [h, core_of_hasPrefix_model hpre]
    · rw [if_neg hpre, List.mem_singleton] at h
      rw [h, core_model]
  · by_cases hpre : name.hasPrefix "model.layers." = true
    · rw [if_pos hpre, List.mem_singleton] at h
      rw [h, hlayers _ hpre, hsplit₂, hsplit]
    · rw [if_neg hpre] at h
      exact absurd h List.not_mem_nil
  · by_cases hpre : name.hasPrefix "model.model.layers." = true
    · rw [if_pos hpre, List.mem_singleton] at h
      rw [h, hlayers _ hpre, hsplit₂, hsplit]
    · rw [if_neg hpre] at h
      exact absurd h List.not_mem_nil
  · by_cases hpre : name.hasPrefix "layers." = true
    · rw [if_pos hpre] at h
      rw [hlayers _ hpre]
      rcases List.mem_pair.mp h with rfl | rfl
      · exact hsplit _
      · exact hsplit₂ _
    · rw [if_neg hpre] at h
      exact absurd h List.not_mem_nil

/-! ### Where a match begins -/

/-- The longer name ends with the shorter, and the match begins inside one of
its components: `cut` is what stands before it there.  Components that do not
count may be cut: a first component `model`, or one completed to a leading
`model`. -/
def CutsComponent (longer shorter : String) : Prop :=
  let before := (longer.toList.take (longer.length - shorter.length)).splitOn '.'
  let cut := before.getLastD []
  let first := (dotted shorter).headD []
  cut ≠ [] ∧ first ≠ modelComponent ∧
    ¬((∀ component ∈ before.dropLast, component = modelComponent) ∧
      cut ++ first = modelComponent)

instance (longer shorter : String) : Decidable (CutsComponent longer shorter) :=
  inferInstanceAs (Decidable (_ ∧ _ ∧ ¬(_ ∧ _)))

/-- A name and a longer one that ends with it agree unless the match cuts a
component. -/
theorem agrees_of_hasSuffix_iff {longer shorter : String} (h : longer.hasSuffix shorter = true) :
    Agrees longer shorter ↔ ¬CutsComponent longer shorter := by
  obtain ⟨left, hleft⟩ := List.isSuffixOf_iff_suffix.mp h
  have htake : longer.toList.take (longer.length - shorter.length) = left := by
    rw [← String.length_toList, ← String.length_toList, ← hleft, List.length_append,
      Nat.add_sub_cancel, List.take_left]
  obtain ⟨first, rest, hshorter⟩ : ∃ first rest, dotted shorter = first :: rest :=
    List.exists_cons_of_ne_nil (List.splitOnP_ne_nil _ _)
  obtain ⟨init, last, hinit, hlonger⟩ := splitOn_append hshorter left
  rw [hleft] at hlonger
  -- the two names differ at the component where the match begins, if anywhere
  have hfirst : last ++ first = first ↔ last = [] := List.append_left_eq_self
  unfold Agrees CutsComponent
  simp only [htake, hinit, hshorter, List.headD_cons]
  rw [show dotted longer = _ from hlonger, agreeUpTo_append_iff, hfirst]
  simp only [List.getLastD_concat, List.dropLast_concat]
  rw [not_and_or, not_and_or, not_ne_iff, not_ne_iff, not_not]

/-- No spelling of the name is a parameter, and the only suffix match there is
cuts a component. -/
def ResolvesInside (name : String) (state : Dict String ℕ) : Prop :=
  (∀ candidate ∈ layerNameCandidates name, state.contains candidate = false) ∧
    ((∃ k, state.keys.filter (fun k => k.hasSuffix name) = [k] ∧ CutsComponent k name) ∨
      (¬∃ k, state.keys.filter (fun k => k.hasSuffix name) = [k]) ∧
        ∃ k, state.keys.filter (fun k => name.hasSuffix k) = [k] ∧ CutsComponent name k)

theorem hasSuffix_of_filter {keys : List String} {p : String → Bool} {k : String}
    (h : keys.filter p = [k]) : p k = true := by
  have hk : k ∈ keys.filter p := by
    rw [h]
    exact List.mem_singleton_self k
  exact List.of_mem_filter hk

/-- What the name resolves to agrees with it, and it resolves to itself if it is
a parameter. -/
def ResolvesOnBoundary (name : String) (state : Dict String ℕ) : Prop :=
  (∀ target, resolveLayerName name state = .ok target → Agrees name target) ∧
    (state.contains name = true → resolveLayerName name state = .ok name)

theorem agrees_comm {name target : String} : Agrees name target ↔ Agrees target name := or_comm

theorem resolveLayerName_self {name : String} {state : Dict String ℕ}
    (h : state.contains name = true) : resolveLayerName name state = .ok name := by
  -- the name itself is the first spelling
  have hfirst : (layerNameCandidates name).find? state.contains = some name :=
    List.find?_cons_of_pos h
  rw [resolveLayerName, hfirst]

/-- What a name resolves to when none of its spellings is a parameter. -/
theorem resolveLayerName_of_no_candidate {name : String} {state : Dict String ℕ}
    (h : ∀ candidate ∈ layerNameCandidates name, state.contains candidate = false)
    (target : String) :
    resolveLayerName name state = .ok target ↔
      state.keys.filter (fun k => k.hasSuffix name) = [target] ∨
        (¬∃ k, state.keys.filter (fun k => k.hasSuffix name) = [k]) ∧
          state.keys.filter (fun k => name.hasSuffix k) = [target] := by
  have hnone : (layerNameCandidates name).find? state.contains = none := by
    rw [List.find?_eq_none]
    intro candidate hcandidate
    rw [h candidate hcandidate]
    exact Bool.false_ne_true
  rw [resolveLayerName, hnone]
  generalize state.keys.filter (fun k => k.hasSuffix name) = longer
  generalize state.keys.filter (fun k => name.hasSuffix k) = shorter
  match longer, shorter with
  | [k], _ => simp
  | [], [k] | _ :: _ :: _, [k] => simp
  | [], [] | _ :: _ :: _, [] => simp
  | [], _ :: _ :: _ | _ :: _ :: _, _ :: _ :: _ => simp

/-- **Names on component boundaries.**  A layer name is resolved to a parameter
it agrees with exactly when it is not resolved by a suffix match that begins
inside a component. -/
theorem resolvesOnBoundary_iff (name : String) (state : Dict String ℕ) :
    ResolvesOnBoundary name state ↔ ¬ResolvesInside name state := by
  constructor
  · rintro ⟨hagrees, -⟩ ⟨hcandidates, hinside⟩
    -- the name is resolved, to a parameter it does not agree with
    have hresolves := resolveLayerName_of_no_candidate hcandidates
    rcases hinside with ⟨k, hk, hcut⟩ | ⟨hnot, k, hk, hcut⟩
    · have hsuffix : k.hasSuffix name = true :=
        hasSuffix_of_filter (p := fun k => k.hasSuffix name) hk
      exact (agrees_of_hasSuffix_iff hsuffix).mp
        (agrees_comm.mp (hagrees k ((hresolves k).mpr (Or.inl hk)))) hcut
    · have hsuffix : name.hasSuffix k = true :=
        hasSuffix_of_filter (p := fun k => name.hasSuffix k) hk
      exact (agrees_of_hasSuffix_iff hsuffix).mp
        (hagrees k ((hresolves k).mpr (Or.inr ⟨hnot, hk⟩))) hcut
  · intro hnot
    refine ⟨fun target htarget => ?_, resolveLayerName_self⟩
    by_cases hcandidates : ∀ candidate ∈ layerNameCandidates name,
        state.contains candidate = false
    · rcases (resolveLayerName_of_no_candidate hcandidates target).mp htarget with hk | ⟨hno, hk⟩
      · have hsuffix : target.hasSuffix name = true :=
          hasSuffix_of_filter (p := fun k => k.hasSuffix name) hk
        rw [agrees_comm, agrees_of_hasSuffix_iff hsuffix]
        exact fun hcut => hnot ⟨hcandidates, Or.inl ⟨target, hk, hcut⟩⟩
      · have hsuffix : name.hasSuffix target = true :=
          hasSuffix_of_filter (p := fun k => name.hasSuffix k) hk
        rw [agrees_of_hasSuffix_iff hsuffix]
        exact fun hcut => hnot ⟨hcandidates, Or.inr ⟨hno, target, hk, hcut⟩⟩
    · -- a spelling of the name is a parameter
      cases hfind : (layerNameCandidates name).find? state.contains with
      | none =>
        rw [List.find?_eq_none] at hfind
        exact absurd (fun c hc => Bool.eq_false_iff.mpr (hfind c hc)) hcandidates
      | some c =>
        rw [resolveLayerName, hfind] at htarget
        cases htarget
        exact agrees_of_core_eq (core_candidate (List.mem_of_find?_eq_some hfind)).symm

/-- The only parameter that ends with `proj.weight` is an `xproj`. -/
theorem not_resolvesOnBoundary_xproj :
    ¬ResolvesOnBoundary "proj.weight" (Dict.empty.set "layers.0.xproj.weight" 0) := by
  rintro ⟨hagrees, -⟩
  have hresolves : resolveLayerName "proj.weight" (Dict.empty.set "layers.0.xproj.weight" 0) =
      .ok "layers.0.xproj.weight" := by decide
  exact absurd (hagrees _ hresolves) (by decide)
