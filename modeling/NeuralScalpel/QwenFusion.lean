/-
Fusing the projections of Qwen layers.

Projected deltas are named by layer and module.  For the serving engine the
gate and up projections of a layer are stacked into one tensor, and the query,
key and value projections into another; everything else is copied, except
tensors with the name of a projection that would have been fused.

* `fuseQwenLayers` — both passes over the deltas;
* `QwenKey` — the names of the deltas;
* `fusePass_eq_ok` — what the first pass does to deltas with these names;
* `losesNothing_iff` — exactly when every delta appears once in the output.
-/
import NeuralScalpel.Decimals
import NeuralScalpel.Dict
import NeuralScalpel.Effect
import NeuralScalpel.LoraKeys
import NeuralScalpel.Replacing
import NeuralScalpel.Stacking

/-! ### The two passes -/

/-- The two fused tensors of a layer. -/
inductive Fusion
  | gateUp
  | qkv
  deriving DecidableEq, Repr

namespace Fusion

/-- The part of a key that starts a fusion. -/
def anchor : Fusion → String
  | .gateUp => ".mlp.gate_proj.weight"
  | .qkv => ".self_attn.q_proj.weight"

/-- What it is replaced by in the keys of the partners. -/
def partners : Fusion → List String
  | .gateUp => [".mlp.up_proj.weight"]
  | .qkv => [".self_attn.k_proj.weight", ".self_attn.v_proj.weight"]

/-- What it is replaced by in the key of the fused tensor. -/
def fusedName : Fusion → String
  | .gateUp => ".mlp.gate_up_proj.weight"
  | .qkv => ".self_attn.qkv_proj.weight"

end Fusion

section Fuse

variable {R : Type} [Zero R]

/-- `fused` and `consumed`. -/
structure FuseState (R : Type) [Zero R] where
  fused : Dict String (ShapedMatrix R)
  consumed : List String

variable (projectedDelta : Dict String (ShapedMatrix R))

/-- One of the two tests of the first loop. -/
def fuseAt (fusion : Fusion) (key : String) (tensor : ShapedMatrix R) (st : FuseState R) :
    Except PyError (FuseState R) :=
  if inKey fusion.anchor key then
    let partnerKeys := fusion.partners.map fun p => replaceIn fusion.anchor p key
    match partnerKeys.mapM projectedDelta.get? with
    | some partners => do
      let fused ← ShapedMatrix.catRows (tensor :: partners)
      pure {
        fused := st.fused.set (replaceIn fusion.anchor fusion.fusedName key) fused
        consumed := st.consumed ++ key :: partnerKeys }
    | none => pure st
  else pure st

/-- The loop that fuses. -/
def fusePass : List (String × ShapedMatrix R) → FuseState R → Except PyError (FuseState R)
  | [], st => pure st
  | entry :: entries, st => do
    let st ← fuseAt projectedDelta .gateUp entry.1 entry.2 st
    let st ← fuseAt projectedDelta .qkv entry.1 entry.2 st
    fusePass entries st

/-- Names of projections that are not copied. -/
def fusedProjections : List String := [".gate_proj", ".up_proj", ".q_proj", ".k_proj", ".v_proj"]

/-- The loop that copies. -/
def copyPass (consumed : List String) (fused : Dict String (ShapedMatrix R))
    (entries : List (String × ShapedMatrix R)) : Dict String (ShapedMatrix R) :=
  entries.foldl (fun fused entry =>
    if consumed.contains entry.1 || anyInKey fusedProjections entry.1 then fused
    else fused.set entry.1 entry.2) fused

/-- `fuse_qwen_layers`. -/
def fuseQwenLayers : Except PyError (Dict String (ShapedMatrix R)) := do
  let st ← fusePass projectedDelta projectedDelta.entries ⟨.empty, []⟩
  pure (copyPass st.consumed st.fused projectedDelta.entries)

end Fuse

/-! ### Names -/

inductive QwenModule
  | qProj
  | kProj
  | vProj
  | oProj
  | gateProj
  | upProj
  | downProj
  deriving DecidableEq, Repr

def QwenModule.path : QwenModule → String
  | .qProj => "self_attn.q_proj"
  | .kProj => "self_attn.k_proj"
  | .vProj => "self_attn.v_proj"
  | .oProj => "self_attn.o_proj"
  | .gateProj => "mlp.gate_proj"
  | .upProj => "mlp.up_proj"
  | .downProj => "mlp.down_proj"

/-- The ending of a key in one of the two formats. -/
def weightEnding (weight : Bool) : String := if weight then ".weight" else ""

/-- `f"model.layers.{n}.{path}"`. -/
def layerKey (n : ℕ) (path : String) : String := "model.layers." ++ toString n ++ "." ++ path

/-- The name of a projected delta. -/
structure QwenKey where
  layer : ℕ
  module : QwenModule
  weight : Bool
  deriving DecidableEq, Repr

def QwenKey.text (q : QwenKey) : String :=
  layerKey q.layer (q.module.path ++ weightEnding q.weight)

namespace Fusion

/-- The modules of a fused tensor, from top to bottom. -/
def modules : Fusion → List QwenModule
  | .gateUp => [.gateProj, .upProj]
  | .qkv => [.qProj, .kProj, .vProj]

def first : Fusion → QwenModule
  | .gateUp => .gateProj
  | .qkv => .qProj

def path : Fusion → String
  | .gateUp => "mlp.gate_up_proj"
  | .qkv => "self_attn.qkv_proj"

/-- The key of the fused tensor of a layer. -/
def key (fusion : Fusion) (n : ℕ) (weight : Bool) : String :=
  layerKey n (fusion.path ++ weightEnding weight)

/-- The keys of the tensors it is made of. -/
def parts (fusion : Fusion) (n : ℕ) (weight : Bool) : List String :=
  fusion.modules.map fun m => (QwenKey.mk n m weight).text

end Fusion

theorem toList_layerKey (n : ℕ) (path : String) : (layerKey n path).toList =
    "model.layers.".toList ++ (Nat.toDigits 10 n ++ '.' :: path.toList) := by
  have hrepr : (toString n).toList = Nat.toDigits 10 n := Nat.toList_repr
  unfold layerKey
  rw [String.toList_append, String.toList_append, String.toList_append, hrepr,
    List.append_assoc, List.append_assoc]
  rfl

/-- A pattern that is looked for in keys: not empty, no digits. -/
def PlainPattern (pattern : String) : Prop :=
  pattern.toList ≠ [] ∧ ∀ c ∈ pattern.toList, c.isDigit = false

-- by the characters of the pattern, not by all characters
instance (pattern : String) : Decidable (PlainPattern pattern) :=
  @instDecidableAnd _ _ inferInstance (List.decidableBAll _ _)

theorem digits_not_mem {pattern : String} (hplain : PlainPattern pattern) (n : ℕ) :
    ∀ c ∈ Nat.toDigits 10 n, c ∉ pattern.toList := by
  intro c hc hmem
  exact not_mem_toDigits (hplain.2 c hmem) n hc

/-- The layer number does not matter to a test of a key. -/
theorem inKey_layerKey {pattern : String} (hplain : PlainPattern pattern) (n : ℕ) (path : String) :
    inKey pattern (layerKey n path) =
      (inKey pattern "model.layers." || occursIn pattern ('.' :: path.toList)) := by
  unfold inKey
  rw [Bool.eq_iff_iff, Bool.or_eq_true, occursIn_iff, occursIn_iff, occursIn_iff, toList_layerKey]
  exact infix_run hplain.1 Nat.toDigits_ne_nil (digits_not_mem hplain n) _ _

/-- Nor to replacing a part of it. -/
theorem replaceIn_layerKey {pattern new path path' : String} (hplain : PlainPattern pattern)
    (hhead : replaceAll pattern.toList new.toList "model.layers.".toList =
      "model.layers.".toList)
    (hpath : replaceAll pattern.toList new.toList ('.' :: path.toList) = '.' :: path'.toList)
    (n : ℕ) : replaceIn pattern new (layerKey n path) = layerKey n path' := by
  refine String.toList_inj.mp ?_
  rw [toList_replaceIn, toList_layerKey, toList_layerKey,
    replaceAll_run hplain.1 Nat.toDigits_ne_nil (digits_not_mem hplain n), hhead, hpath]

/-- A key determines its layer and its path. -/
theorem layerKey_inj {n n' : ℕ} {path path' : String} (h : layerKey n path = layerKey n' path') :
    n = n' ∧ path = path' := by
  have hlist := congrArg String.toList h
  rw [toList_layerKey, toList_layerKey] at hlist
  obtain ⟨hdigits, hpath⟩ := (append_cons_inj (not_mem_toDigits (by decide) n)
    (not_mem_toDigits (by decide) n')).mp (List.append_cancel_left hlist)
  exact ⟨toDigits_ten_injective hdigits, String.toList_inj.mp hpath⟩

/-! ### The tests on these names -/

theorem QwenModule.path_inj {m m' : QwenModule} {w w' : Bool}
    (h : m.path ++ weightEnding w = m'.path ++ weightEnding w') : m = m' ∧ w = w' := by
  revert h
  cases m <;> cases w <;> cases m' <;> cases w' <;> decide

theorem QwenKey.text_inj {q q' : QwenKey} (h : q.text = q'.text) : q = q' := by
  obtain ⟨n, m, w⟩ := q
  obtain ⟨n', m', w'⟩ := q'
  obtain ⟨hlayer, hpath⟩ := layerKey_inj h
  obtain ⟨hmodule, hweight⟩ := QwenModule.path_inj hpath
  exact QwenKey.mk.injEq _ _ _ _ _ _ ▸ ⟨hlayer, hmodule, hweight⟩

theorem Fusion.key_inj {f f' : Fusion} {n n' : ℕ} {w w' : Bool} (h : f.key n w = f'.key n' w') :
    f = f' ∧ n = n' ∧ w = w' := by
  obtain ⟨hlayer, hpath⟩ := layerKey_inj h
  have hfusion : f = f' ∧ w = w' := by
    revert hpath
    cases f <;> cases w <;> cases f' <;> cases w' <;> decide
  exact ⟨hfusion.1, hlayer, hfusion.2⟩

theorem Fusion.key_ne_text (f : Fusion) (n : ℕ) (w : Bool) (q : QwenKey) : f.key n w ≠ q.text := by
  obtain ⟨n', m, w'⟩ := q
  intro h
  have hpath : f.path ++ weightEnding w = m.path ++ weightEnding w' := (layerKey_inj h).2
  clear h
  revert hpath
  cases f <;> cases w <;> cases m <;> cases w' <;> decide

theorem plainPattern_anchor (f : Fusion) : PlainPattern f.anchor := by
  cases f <;> decide

/-- Only a weight of the first module starts a fusion. -/
theorem inKey_anchor (f : Fusion) (q : QwenKey) :
    inKey f.anchor q.text = decide (q.module = f.first ∧ q.weight = true) := by
  obtain ⟨n, m, w⟩ := q
  show inKey f.anchor (layerKey n (m.path ++ weightEnding w)) = decide (m = f.first ∧ w = true)
  rw [inKey_layerKey (plainPattern_anchor f)]
  cases f <;> cases m <;> cases w <;> decide

/-- What replacing the anchor makes of the key that starts a fusion. -/
theorem replaceIn_text (f : Fusion) (new path : String)
    (hhead : replaceAll f.anchor.toList new.toList "model.layers.".toList =
      "model.layers.".toList)
    (hpath : replaceAll f.anchor.toList new.toList ('.' :: (f.first.path ++ ".weight").toList) =
      '.' :: path.toList) (n : ℕ) :
    replaceIn f.anchor new (QwenKey.mk n f.first true).text = layerKey n path :=
  replaceIn_layerKey (plainPattern_anchor f) hhead hpath n

theorem replaceIn_fusedName (f : Fusion) (n : ℕ) :
    replaceIn f.anchor f.fusedName (QwenKey.mk n f.first true).text = f.key n true := by
  have hhead : replaceAll f.anchor.toList f.fusedName.toList "model.layers.".toList =
      "model.layers.".toList := by
    cases f <;> decide
  have hpath : replaceAll f.anchor.toList f.fusedName.toList
      ('.' :: (f.first.path ++ ".weight").toList) = '.' :: (f.path ++ ".weight").toList := by
    cases f <;> decide
  exact replaceIn_text f _ _ hhead hpath n

theorem partnerKeys_eq (f : Fusion) (n : ℕ) :
    (QwenKey.mk n f.first true).text ::
      f.partners.map (fun p => replaceIn f.anchor p (QwenKey.mk n f.first true).text) =
        f.parts n true := by
  cases f with
  | gateUp =>
    have hup := replaceIn_text .gateUp ".mlp.up_proj.weight" "mlp.up_proj.weight"
      (by decide) (by decide) n
    rw [Fusion.partners, List.map_cons, List.map_nil, hup]
    rfl
  | qkv =>
    have hk := replaceIn_text .qkv ".self_attn.k_proj.weight" "self_attn.k_proj.weight"
      (by decide) (by decide) n
    have hv := replaceIn_text .qkv ".self_attn.v_proj.weight" "self_attn.v_proj.weight"
      (by decide) (by decide) n
    rw [Fusion.partners, List.map_cons, List.map_cons, List.map_nil, hk, hv]
    rfl

/-- The modules that are not copied. -/
def QwenModule.isFused (m : QwenModule) : Bool :=
  Fusion.gateUp.modules.contains m || Fusion.qkv.modules.contains m

theorem QwenModule.isFused_iff {m : QwenModule} :
    m.isFused = true ↔ ∃ f : Fusion, m ∈ f.modules := by
  unfold isFused
  rw [Bool.or_eq_true, List.contains_iff_mem, List.contains_iff_mem]
  constructor
  · rintro (h | h)
    · exact ⟨.gateUp, h⟩
    · exact ⟨.qkv, h⟩
  · rintro ⟨f, h⟩
    cases f with
    | gateUp => exact Or.inl h
    | qkv => exact Or.inr h

theorem anyInKey_fusedProjections (q : QwenKey) :
    anyInKey fusedProjections q.text = q.module.isFused := by
  obtain ⟨n, m, w⟩ := q
  have hplain : ∀ p ∈ fusedProjections, PlainPattern p := by decide
  have hkey : anyInKey fusedProjections (layerKey n (m.path ++ weightEnding w)) =
      fusedProjections.any fun p =>
        inKey p "model.layers." || occursIn p ('.' :: (m.path ++ weightEnding w).toList) := by
    unfold anyInKey
    rw [Bool.eq_iff_iff, List.any_eq_true, List.any_eq_true]
    refine exists_congr fun p => and_congr_right fun hp => ?_
    rw [inKey_layerKey (hplain p hp)]
  show anyInKey fusedProjections (layerKey n (m.path ++ weightEnding w)) = m.isFused
  rw [hkey]
  cases m <;> cases w <;> decide

/-! ### The loop that fuses -/

section Loop

variable {R : Type} [Zero R] {delta : Dict String (ShapedMatrix R)}

/-- The tensors a fused tensor is made of, if all are there. -/
def Fusion.tensors (f : Fusion) (delta : Dict String (ShapedMatrix R)) (n : ℕ) (w : Bool) :
    Option (List (ShapedMatrix R)) := (f.parts n w).mapM delta.get?

theorem fuseAt_of_not_first {f : Fusion} {q : QwenKey}
    (h : ¬(q.module = f.first ∧ q.weight = true)) (t : ShapedMatrix R) (st : FuseState R) :
    fuseAt delta f q.text t st = .ok st := by
  unfold fuseAt
  rw [inKey_anchor, if_neg (by simpa using h)]
  rfl

/-- The first weight of a group fuses it, if the others are there. -/
theorem fuseAt_first {f : Fusion} {n : ℕ} {t : ShapedMatrix R}
    (hget : delta.get? (QwenKey.mk n f.first true).text = some t) (st : FuseState R) :
    fuseAt delta f (QwenKey.mk n f.first true).text t st =
      match f.tensors delta n true with
      | some ts => do
        let fused ← ShapedMatrix.catRows ts
        pure ⟨st.fused.set (f.key n true) fused, st.consumed ++ f.parts n true⟩
      | none => .ok st := by
  have hfirst : inKey f.anchor (QwenKey.mk n f.first true).text = true := by
    rw [inKey_anchor]
    exact decide_eq_true ⟨rfl, rfl⟩
  have hparts := partnerKeys_eq f n
  unfold fuseAt Fusion.tensors
  rw [if_pos hfirst, replaceIn_fusedName, ← hparts, List.mapM_cons, hget]
  cases hpartners : (f.partners.map fun p =>
      replaceIn f.anchor p (QwenKey.mk n f.first true).text).mapM delta.get? with
  | none =>
    simp only [hpartners]
    rfl
  | some ts =>
    simp only [hpartners]
    rfl

/-- The group of a layer has been fused, and its parts are consumed. -/
structure Fused (delta : Dict String (ShapedMatrix R)) (st : FuseState R) (f : Fusion) (n : ℕ)
    (ts : List (ShapedMatrix R)) : Prop where
  tensors : f.tensors delta n true = some ts
  sameCols : ShapedMatrix.SameCols ts
  get : st.fused.get? (f.key n true) = some (ShapedMatrix.stack ts)
  consumed : ∀ k ∈ f.parts n true, k ∈ st.consumed

/-- Whatever has been fused or consumed belongs to a group that has been fused. -/
structure FuseInv (delta : Dict String (ShapedMatrix R)) (st : FuseState R) : Prop where
  fused : ∀ k F, st.fused.get? k = some F → ∃ f n ts, k = f.key n true ∧ Fused delta st f n ts
  consumed : ∀ k ∈ st.consumed, ∃ f n ts, k ∈ f.parts n true ∧ Fused delta st f n ts

theorem fuseInv_init : FuseInv delta (⟨.empty, []⟩ : FuseState R) :=
  ⟨fun _ _ h => absurd h (by simp), fun _ h => absurd h List.not_mem_nil⟩

/-- One test of the loop keeps what was fused, and fuses the group its key
starts. -/
theorem fuseAt_step {f : Fusion} {q : QwenKey} {t : ShapedMatrix R} {st st' : FuseState R}
    (hget : delta.get? q.text = some t) (h : fuseAt delta f q.text t st = .ok st')
    (hinv : FuseInv delta st) :
    FuseInv delta st' ∧ (∀ f' n ts, Fused delta st f' n ts → Fused delta st' f' n ts) ∧
      (q.module = f.first → q.weight = true → ∀ ts, f.tensors delta q.layer true = some ts →
        Fused delta st' f q.layer ts) := by
  by_cases hfirst : q.module = f.first ∧ q.weight = true
  · obtain ⟨n, m, w⟩ := q
    obtain ⟨rfl, rfl⟩ : m = f.first ∧ w = true := hfirst
    rw [fuseAt_first hget] at h
    cases htensors : f.tensors delta n true with
    | none =>
      simp only [htensors] at h
      cases h
      exact ⟨hinv, fun _ _ _ h => h, fun _ _ ts hts => absurd hts (by simp)⟩
    | some ts =>
      simp only [htensors] at h
      obtain ⟨F, hcat, hst⟩ := Effect.bind_eq_ok.mp h
      cases hst
      obtain ⟨-, hcols, rfl⟩ := ShapedMatrix.catRows_eq_ok.mp hcat
      have hnew : Fused delta ⟨st.fused.set (f.key n true) (ShapedMatrix.stack ts),
          st.consumed ++ f.parts n true⟩ f n ts :=
        ⟨htensors, hcols, Dict.get?_set_self _ _ _, fun k hk => List.mem_append_right _ hk⟩
      have hkeep : ∀ f' n' ts', Fused delta st f' n' ts' →
          Fused delta ⟨st.fused.set (f.key n true) (ShapedMatrix.stack ts),
            st.consumed ++ f.parts n true⟩ f' n' ts' := by
        intro f' n' ts' hold
        refine ⟨hold.tensors, hold.sameCols, ?_, fun k hk =>
          List.mem_append_left _ (hold.consumed k hk)⟩
        by_cases hkey : f'.key n' true = f.key n true
        · -- the same group again: it is written with the same tensors
          obtain ⟨rfl, rfl, -⟩ := Fusion.key_inj hkey
          have hsame : ts' = ts := Option.some.inj (hold.tensors.symm.trans htensors)
          rw [hsame]
          exact Dict.get?_set_self _ _ _
        · exact (Dict.get?_set_of_ne hkey).trans hold.get
      refine ⟨⟨fun k F hF => ?_, fun k hk => ?_⟩, hkeep, fun _ _ ts' hts' => ?_⟩
      · by_cases hkey : k = f.key n true
        · exact ⟨f, n, ts, hkey, hnew⟩
        · obtain ⟨f', n', ts', hk, hold⟩ :=
            hinv.fused k F ((Dict.get?_set_of_ne hkey).symm.trans hF)
          exact ⟨f', n', ts', hk, hkeep f' n' ts' hold⟩
      · rcases List.mem_append.mp hk with hk | hk
        · obtain ⟨f', n', ts', hk, hold⟩ := hinv.consumed k hk
          exact ⟨f', n', ts', hk, hkeep f' n' ts' hold⟩
        · exact ⟨f, n, ts, hk, hnew⟩
      · cases hts'
        exact hnew
  · rw [fuseAt_of_not_first hfirst] at h
    cases h
    exact ⟨hinv, fun _ _ _ h => h, fun hm hw => absurd ⟨hm, hw⟩ hfirst⟩

/-- The loop fuses the groups whose first weight it meets. -/
theorem fusePass_step : ∀ {entries : List (String × ShapedMatrix R)} {st st' : FuseState R},
    (∀ e ∈ entries, delta.get? e.1 = some e.2 ∧ ∃ q : QwenKey, e.1 = q.text) →
      fusePass delta entries st = .ok st' → FuseInv delta st →
      FuseInv delta st' ∧ (∀ f n ts, Fused delta st f n ts → Fused delta st' f n ts) ∧
        ∀ f n ts, (∃ e ∈ entries, e.1 = (QwenKey.mk n (Fusion.first f) true).text) →
          f.tensors delta n true = some ts → Fused delta st' f n ts := by
  intro entries
  induction entries with
  | nil =>
    intro st st' _ h hinv
    cases h
    refine ⟨hinv, fun _ _ _ h => h, ?_⟩
    rintro f n ts ⟨e, he, -⟩
    cases he
  | cons entry entries ih =>
    intro st st' hentries h hinv
    obtain ⟨hget, q, hq⟩ := hentries entry List.mem_cons_self
    rw [hq] at hget
    rw [fusePass, hq] at h
    obtain ⟨st₁, hgate, h⟩ := Effect.bind_eq_ok.mp h
    obtain ⟨st₂, hqkv, h⟩ := Effect.bind_eq_ok.mp h
    obtain ⟨hinv₁, hkeep₁, hnew₁⟩ := fuseAt_step hget hgate hinv
    obtain ⟨hinv₂, hkeep₂, hnew₂⟩ := fuseAt_step hget hqkv hinv₁
    obtain ⟨hinv', hkeep', hnew'⟩ := ih (fun e he => hentries e (List.mem_cons_of_mem _ he)) h hinv₂
    refine ⟨hinv', fun f n ts hold => hkeep' f n ts (hkeep₂ f n ts (hkeep₁ f n ts hold)), ?_⟩
    rintro f n ts ⟨e, he, hkey⟩ htensors
    rcases List.mem_cons.mp he with rfl | he
    · obtain rfl : q = QwenKey.mk n f.first true := QwenKey.text_inj (hq.symm.trans hkey)
      cases f with
      | gateUp => exact hkeep' _ _ _ (hkeep₂ _ _ _ (hnew₁ rfl rfl ts htensors))
      | qkv => exact hkeep' _ _ _ (hnew₂ rfl rfl ts htensors)
    · exact hnew' f n ts ⟨e, he, hkey⟩ htensors

/-- Reading a list of keys succeeds just if each of them is there. -/
theorem mapM_eq_some_iff {α β : Type} {g : α → Option β} : ∀ {l : List α} {ts : List β},
    l.mapM g = some ts ↔ l.map g = ts.map some := by
  intro l
  induction l with
  | nil =>
    intro ts
    rcases ts with _ | ⟨t, ts⟩
    · simp
    · simp
  | cons a l ih =>
    intro ts
    rw [List.mapM_cons, List.map_cons]
    rcases ts with _ | ⟨t, ts⟩
    · cases g a <;> cases l.mapM g <;> simp
    · rw [List.map_cons, List.cons.injEq, ← ih]
      cases g a <;> cases l.mapM g <;> simp

theorem exists_mapM_of_isSome {α β : Type} {g : α → Option β} {l : List α}
    (h : ∀ a ∈ l, (g a).isSome = true) : ∃ ts, l.mapM g = some ts := by
  induction l with
  | nil => exact ⟨[], rfl⟩
  | cons a l ih =>
    obtain ⟨b, hb⟩ := Option.isSome_iff_exists.mp (h a List.mem_cons_self)
    obtain ⟨ts, hts⟩ := ih fun a' ha' => h a' (List.mem_cons_of_mem a ha')
    refine ⟨b :: ts, ?_⟩
    rw [List.mapM_cons, hb, hts]
    rfl

theorem isSome_of_mapM {α β : Type} {g : α → Option β} {l : List α} {ts : List β}
    (h : l.mapM g = some ts) {a : α} (ha : a ∈ l) : (g a).isSome = true := by
  have hmem : g a ∈ ts.map some := mapM_eq_some_iff.mp h ▸ List.mem_map_of_mem ha
  obtain ⟨b, -, hb⟩ := List.mem_map.mp hmem
  rw [← hb]
  rfl

/-- If the parts of all complete groups are equally wide, the loop ends. -/
theorem fusePass_ok
    (hcols : ∀ f n ts, Fusion.tensors f delta n true = some ts → ShapedMatrix.SameCols ts) :
    ∀ {entries : List (String × ShapedMatrix R)} {st : FuseState R},
      (∀ e ∈ entries, delta.get? e.1 = some e.2 ∧ ∃ q : QwenKey, e.1 = q.text) →
        ∃ st', fusePass delta entries st = .ok st' := by
  have hat : ∀ (f : Fusion) (q : QwenKey) (t : ShapedMatrix R) (st : FuseState R),
      delta.get? q.text = some t → ∃ st', fuseAt delta f q.text t st = .ok st' := by
    intro f q t st hget
    by_cases hfirst : q.module = f.first ∧ q.weight = true
    · obtain ⟨n, m, w⟩ := q
      obtain ⟨rfl, rfl⟩ : m = f.first ∧ w = true := hfirst
      rw [fuseAt_first hget]
      cases htensors : f.tensors delta n true with
      | none => exact ⟨st, rfl⟩
      | some ts =>
        have hne : ts ≠ [] := by
          rintro rfl
          have hmap := mapM_eq_some_iff.mp htensors
          cases f <;> cases hmap
        have hcat := ShapedMatrix.catRows_eq_ok.mpr ⟨hne, hcols f n ts htensors, rfl⟩
        simp only [hcat]
        exact ⟨_, rfl⟩
    · exact ⟨st, fuseAt_of_not_first hfirst t st⟩
  intro entries
  induction entries with
  | nil => exact fun {st} _ => ⟨st, rfl⟩
  | cons entry entries ih =>
    intro st hentries
    obtain ⟨hget, q, hq⟩ := hentries entry List.mem_cons_self
    rw [hq] at hget
    obtain ⟨st₁, hgate⟩ := hat .gateUp q entry.2 st hget
    obtain ⟨st₂, hqkv⟩ := hat .qkv q entry.2 st₁ hget
    obtain ⟨st', hrest⟩ := @ih st₂ fun e he => hentries e (List.mem_cons_of_mem _ he)
    refine ⟨st', ?_⟩
    rw [fusePass, hq]
    exact Effect.bind_eq_ok.mpr ⟨st₁, hgate, Effect.bind_eq_ok.mpr ⟨st₂, hqkv, hrest⟩⟩

/-! ### The loop that copies -/

/-- An entry of the deltas is copied. -/
def Copied (consumed : List String) (key : String) : Prop :=
  key ∉ consumed ∧ anyInKey fusedProjections key = false

/-- The output has the copied deltas, and below them the fused tensors. -/
theorem get?_copyPass {consumed : List String} {k : String} {v : ShapedMatrix R} :
    ∀ {entries : List (String × ShapedMatrix R)} {fused : Dict String (ShapedMatrix R)},
      (entries.map Prod.fst).Nodup →
        ((copyPass consumed fused entries).get? k = some v ↔
          (Copied consumed k ∧ (k, v) ∈ entries) ∨
            (¬(Copied consumed k ∧ k ∈ entries.map Prod.fst) ∧ fused.get? k = some v)) := by
  intro entries
  induction entries with
  | nil => simp [copyPass]
  | cons e entries ih =>
    intro fused hnodup
    obtain ⟨hhead, hrest⟩ := List.nodup_cons.mp hnodup
    have hfold : copyPass consumed fused (e :: entries) = copyPass consumed
        (if consumed.contains e.1 || anyInKey fusedProjections e.1 then fused
          else fused.set e.1 e.2) entries := rfl
    rw [hfold, ih hrest]
    have hcopied : (consumed.contains e.1 || anyInKey fusedProjections e.1) = true ↔
        ¬Copied consumed e.1 := by
      unfold Copied
      rw [Bool.or_eq_true, List.contains_iff_mem, not_and_or, not_not, Bool.not_eq_false]
    by_cases hk : k = e.1
    · subst hk
      have hnot : ∀ v, (e.1, v) ∉ entries := fun v hmem =>
        hhead (List.mem_map.mpr ⟨(e.1, v), hmem, rfl⟩)
      by_cases hcopy : Copied consumed e.1
      · rw [if_neg fun h => hcopied.mp h hcopy, Dict.get?_set_self]
        simp [hcopy, hnot, hhead, Prod.ext_iff, eq_comm]
      · rw [if_pos (hcopied.mpr hcopy)]
        simp [hcopy]
    · have hget : (if consumed.contains e.1 || anyInKey fusedProjections e.1 then fused
          else fused.set e.1 e.2).get? k = fused.get? k := by
        split_ifs
        · rfl
        · exact Dict.get?_set_of_ne hk
      rw [hget]
      simp [hk, Prod.ext_iff]

end Loop

/-! ### Nothing is lost -/

section Lossless

variable {R : Type} [Zero R] {delta out : Dict String (ShapedMatrix R)}

/-- The rows of a fused tensor above those of a module. -/
def Fusion.offset (f : Fusion) (delta : Dict String (ShapedMatrix R)) (q : QwenKey) : ℕ :=
  (((f.modules.takeWhile (· ≠ q.module)).filterMap fun m =>
    delta.get? (QwenKey.mk q.layer m q.weight).text).map ShapedMatrix.rows).sum

/-- The tensor is the row block at its place in the fused tensor of its layer. -/
structure IsRowBlock (delta out : Dict String (ShapedMatrix R)) (f : Fusion) (q : QwenKey)
    (t : ShapedMatrix R) : Prop where
  part : q.module ∈ f.modules
  block : ∃ F, out.get? (f.key q.layer q.weight) = some F ∧
    F.rowBlock (f.offset delta q) t.rows = t

/-- Every delta appears exactly once, under its own key or in a fused tensor,
and the output contains nothing else. -/
structure LosesNothing (delta out : Dict String (ShapedMatrix R)) : Prop where
  once : ∀ (q : QwenKey) t, delta.get? q.text = some t →
    Xor (out.get? q.text = some t) (∃ f, IsRowBlock delta out f q t)
  nothing_else : ∀ k F, out.get? k = some F → delta.get? k = some F ∨
    ∃ f n w ts, k = Fusion.key f n w ∧ f.tensors delta n w = some ts ∧ F = ShapedMatrix.stack ts

/-- Only weights of projections that are fused, all of a group or none of it,
and equally wide. -/
structure Fusable (delta : Dict String (ShapedMatrix R)) : Prop where
  weights : ∀ q : QwenKey, q.module.isFused = true → q.weight = false → delta.get? q.text = none
  groups : ∀ (f : Fusion) n, ∀ m ∈ f.modules, ∀ m' ∈ f.modules,
    (delta.get? (QwenKey.mk n m true).text).isSome = true →
      (delta.get? (QwenKey.mk n m' true).text).isSome = true
  sameCols : ∀ (f : Fusion) n ts, f.tensors delta n true = some ts → ShapedMatrix.SameCols ts

theorem Fusion.eq_of_mem_modules {f f' : Fusion} {m : QwenModule} (h : m ∈ f.modules)
    (h' : m ∈ f'.modules) : f = f' := by
  revert h h'
  cases f <;> cases f' <;> cases m <;> decide

theorem Fusion.modules_split {f : Fusion} {m : QwenModule} (h : m ∈ f.modules) :
    ∃ after, f.modules = f.modules.takeWhile (· ≠ m) ++ m :: after := by
  cases f with
  | gateUp =>
    rcases List.mem_pair.mp h with rfl | rfl
    · exact ⟨[.upProj], rfl⟩
    · exact ⟨[], rfl⟩
  | qkv =>
    have hm : m = .qProj ∨ m = .kProj ∨ m = .vProj := by
      revert h
      cases m <;> decide
    rcases hm with rfl | rfl | rfl
    · exact ⟨[.kProj, .vProj], rfl⟩
    · exact ⟨[.vProj], rfl⟩
    · exact ⟨[], rfl⟩

/-- In the stacked tensors of a group each part is found at its place. -/
theorem rowBlock_offset {f : Fusion} {q : QwenKey} {t : ShapedMatrix R}
    {ts : List (ShapedMatrix R)} (hpart : q.module ∈ f.modules)
    (hget : delta.get? q.text = some t) (htensors : f.tensors delta q.layer q.weight = some ts)
    (hcols : ShapedMatrix.SameCols ts) :
    (ShapedMatrix.stack ts).rowBlock (f.offset delta q) t.rows = t := by
  obtain ⟨n, m, w⟩ := q
  obtain ⟨after, hsplit⟩ := Fusion.modules_split hpart
  have hmap := mapM_eq_some_iff.mp htensors
  unfold Fusion.parts at hmap
  rw [hsplit, List.map_append, List.map_append, List.map_cons, List.map_cons, hget] at hmap
  obtain ⟨before, rest, rfl, hbefore, hrest⟩ := List.map_eq_append_iff.mp hmap.symm
  obtain ⟨t', rest', rfl, ht, -⟩ := List.map_eq_cons_iff.mp hrest
  obtain rfl : t' = t := Option.some.inj ht
  -- the parts above this one
  have hrows : (f.modules.takeWhile (· ≠ m)).filterMap (fun m =>
      delta.get? (QwenKey.mk n m w).text) = before := by
    have hcompose : (f.modules.takeWhile (· ≠ m)).filterMap (fun m =>
        delta.get? (QwenKey.mk n m w).text) = (before.map some).filterMap id := by
      rw [hbefore, List.map_map, List.filterMap_map]
      rfl
    rw [hcompose, List.filterMap_map]
    exact List.filterMap_some
  unfold Fusion.offset
  rw [hrows]
  exact ShapedMatrix.rowBlock_stack hcols

/-- All deltas are named by layer and module. -/
def QwenNamed (delta : Dict String (ShapedMatrix R)) : Prop :=
  ∀ k ∈ delta.keys, ∃ q : QwenKey, k = q.text

theorem entries_spec (hkeys : QwenNamed delta) :
    ∀ e ∈ delta.entries, delta.get? e.1 = some e.2 ∧ ∃ q : QwenKey, e.1 = q.text :=
  fun e he => ⟨Dict.mem_entries_iff.mp he, hkeys e.1 (List.mem_map_of_mem he)⟩

/-- What the output has, after the loop that fuses. -/
theorem get?_out {st : FuseState R} {k : String} {v : ShapedMatrix R} :
    (copyPass st.consumed st.fused delta.entries).get? k = some v ↔
      (Copied st.consumed k ∧ delta.get? k = some v) ∨
        (¬(Copied st.consumed k ∧ k ∈ delta.keys) ∧ st.fused.get? k = some v) := by
  rw [get?_copyPass delta.nodup, Dict.mem_entries_iff]
  rfl

theorem not_copied_of_isFused {consumed : List String} {q : QwenKey}
    (h : q.module.isFused = true) : ¬Copied consumed q.text := by
  intro hcopied
  rw [Copied, anyInKey_fusedProjections, h] at hcopied
  cases hcopied.2

/-- Deltas that can be fused are all found in the output. -/
theorem losesNothing_of_fusable {st : FuseState R} (hkeys : QwenNamed delta)
    (hfusable : Fusable delta) (hinv : FuseInv delta st)
    (hdone : ∀ f n ts, Fusion.tensors f delta n true = some ts → Fused delta st f n ts) :
    LosesNothing delta (copyPass st.consumed st.fused delta.entries) := by
  have hfusedKey : ∀ q : QwenKey, st.fused.get? q.text = none := by
    intro q
    by_contra hne
    obtain ⟨F, hF⟩ := Option.ne_none_iff_exists'.mp hne
    obtain ⟨f, n, ts, hk, -⟩ := hinv.fused _ F hF
    exact f.key_ne_text n true q hk.symm
  refine ⟨fun q t hget => ?_, fun k F hF => ?_⟩
  · by_cases hfused : q.module.isFused = true
    · -- a projection that is fused: its weight is a part of a complete group
      have hweight : q.weight = true := by
        by_contra hne
        rw [hfusable.weights q hfused (Bool.eq_false_iff.mpr hne)] at hget
        cases hget
      obtain ⟨n, m, w⟩ := q
      obtain rfl : w = true := hweight
      obtain ⟨f, hf⟩ := QwenModule.isFused_iff.mp hfused
      obtain ⟨ts, hts⟩ : ∃ ts, f.tensors delta n true = some ts := by
        refine exists_mapM_of_isSome fun k hk => ?_
        obtain ⟨m', hm', rfl⟩ := List.mem_map.mp hk
        exact hfusable.groups f n m hf m' hm' (Option.isSome_of_eq_some hget)
      refine Or.inr ⟨⟨f, hf, ShapedMatrix.stack ts, ?_, ?_⟩, fun hown => ?_⟩
      · refine get?_out.mpr (Or.inr ⟨fun hcopied => ?_, (hdone f n ts hts).get⟩)
        obtain ⟨q, hq⟩ := hkeys _ hcopied.2
        exact f.key_ne_text n true q hq
      · exact rowBlock_offset hf hget hts (hfusable.sameCols f n ts hts)
      · rcases get?_out.mp hown with ⟨hcopied, -⟩ | ⟨-, hin⟩
        · exact not_copied_of_isFused hfused hcopied
        · rw [hfusedKey] at hin
          cases hin
    · refine Or.inl ⟨get?_out.mpr (Or.inl ⟨⟨fun hmem => ?_, ?_⟩, hget⟩), ?_⟩
      · obtain ⟨f, n, ts, hk, -⟩ := hinv.consumed _ hmem
        obtain ⟨m, hm, htext⟩ := List.mem_map.mp hk
        have hmodule : m = q.module := congrArg QwenKey.module (QwenKey.text_inj htext)
        exact hfused (QwenModule.isFused_iff.mpr ⟨f, hmodule ▸ hm⟩)
      · rw [anyInKey_fusedProjections]
        exact Bool.eq_false_iff.mpr hfused
      · rintro ⟨f, hblock⟩
        exact hfused (QwenModule.isFused_iff.mpr ⟨f, hblock.part⟩)
  · rcases get?_out.mp hF with ⟨-, hdelta⟩ | ⟨-, hin⟩
    · exact Or.inl hdelta
    · obtain ⟨f, n, ts, hk, hfused⟩ := hinv.fused k F hin
      rw [hk, hfused.get] at hin
      exact Or.inr ⟨f, n, true, ts, hk, hfused.tensors, (Option.some.inj hin).symm⟩

/-- Fusing loses nothing just if the deltas can be fused. -/
theorem losesNothing_iff (hkeys : QwenNamed delta) :
    (∃ out, fuseQwenLayers delta = .ok out ∧ LosesNothing delta out) ↔ Fusable delta := by
  have hspec := entries_spec hkeys
  -- the first weight of a complete group is an entry
  have hfirst : ∀ (f : Fusion) n ts, f.tensors delta n true = some ts →
      ∃ e ∈ delta.entries, e.1 = (QwenKey.mk n f.first true).text := by
    intro f n ts hts
    have hmem : (QwenKey.mk n f.first true).text ∈ f.parts n true := by
      rw [← partnerKeys_eq]
      exact List.mem_cons_self
    obtain ⟨t, ht⟩ := Option.isSome_iff_exists.mp (isSome_of_mapM hts hmem)
    exact ⟨_, Dict.mem_entries_iff.mpr ht, rfl⟩
  constructor
  · rintro ⟨out, hout, hlossless⟩
    obtain ⟨st, hst, hcopy⟩ := Effect.bind_eq_ok.mp hout
    cases hcopy
    obtain ⟨hinv, -, hnew⟩ := fusePass_step hspec hst fuseInv_init
    -- a projection that is fused can only be in a fused tensor
    have hblock : ∀ (q : QwenKey) t, q.module.isFused = true → delta.get? q.text = some t →
        ∃ f ts, q.module ∈ Fusion.modules f ∧ q.weight = true ∧
          f.tensors delta q.layer true = some ts := by
      intro q t hfused hget
      have hown : (copyPass st.consumed st.fused delta.entries).get? q.text ≠ some t := by
        intro hown
        rcases get?_out.mp hown with ⟨hcopied, -⟩ | ⟨-, hin⟩
        · exact not_copied_of_isFused hfused hcopied
        · obtain ⟨f, n, ts, hk, -⟩ := hinv.fused _ _ hin
          exact f.key_ne_text n true q hk.symm
      obtain ⟨f, hf, F, hF, -⟩ := ((hlossless.once q t hget).resolve_left fun h => hown h.1).1
      rcases get?_out.mp hF with ⟨-, hdelta⟩ | ⟨-, hin⟩
      · obtain ⟨q', hq'⟩ := hkeys _ (List.mem_map_of_mem (Dict.mem_entries_iff.mpr hdelta))
        exact absurd hq' (f.key_ne_text _ _ q')
      · obtain ⟨f', n, ts, hk, hgroup⟩ := hinv.fused _ _ hin
        obtain ⟨rfl, rfl, hw⟩ := Fusion.key_inj hk
        exact ⟨f, ts, hf, hw, hgroup.tensors⟩
    refine ⟨fun q hfused hw => ?_, fun f n m hm m' hm' hsome => ?_, fun f n ts hts => ?_⟩
    · by_contra hne
      obtain ⟨t, ht⟩ := Option.ne_none_iff_exists'.mp hne
      obtain ⟨-, -, -, hweight, -⟩ := hblock q t hfused ht
      rw [hw] at hweight
      cases hweight
    · obtain ⟨t, ht⟩ := Option.isSome_iff_exists.mp hsome
      obtain ⟨f', ts, hf', -, hts⟩ := hblock ⟨n, m, true⟩ t (QwenModule.isFused_iff.mpr ⟨f, hm⟩) ht
      obtain rfl : f' = f := Fusion.eq_of_mem_modules hf' hm
      exact isSome_of_mapM hts (List.mem_map.mpr ⟨m', hm', rfl⟩)
    · exact (hnew f n ts (hfirst f n ts hts) hts).sameCols
  · intro hfusable
    obtain ⟨st, hst⟩ := @fusePass_ok R _ delta hfusable.sameCols delta.entries ⟨.empty, []⟩ hspec
    obtain ⟨hinv, -, hnew⟩ := fusePass_step hspec hst fuseInv_init
    refine ⟨copyPass st.consumed st.fused delta.entries, ?_, ?_⟩
    · unfold fuseQwenLayers
      rw [hst]
      rfl
    · exact losesNothing_of_fusable hkeys hfusable hinv fun f n ts hts =>
        hnew f n ts (hfirst f n ts hts) hts

end Lossless

/-! ### One layer -/

/-- Deltas with one entry each. -/
def unitDelta (qs : List QwenKey) : Dict String (ShapedMatrix ℚ) :=
  .ofWrites (qs.map fun q => (q.text, .ofFn 1 1 fun _ _ => 1))

theorem get?_unitDelta {qs : List QwenKey} {k : String} {t : ShapedMatrix ℚ}
    (h : (unitDelta qs).get? k = some t) : ∃ q ∈ qs, q.text = k ∧ t.cols = 1 := by
  obtain ⟨q, hq, heq⟩ := List.mem_map.mp (Dict.mem_of_get?_ofWrites h)
  cases heq
  exact ⟨q, hq, rfl, rfl⟩

theorem qwenNamed_unitDelta (qs : List QwenKey) : QwenNamed (unitDelta qs) := by
  intro k hk
  obtain ⟨t, ht⟩ := Dict.contains_iff.mp (Dict.mem_keys_iff.mp hk)
  obtain ⟨q, -, htext, -⟩ := get?_unitDelta ht
  exact ⟨q, htext.symm⟩

def mlpWeights : Dict String (ShapedMatrix ℚ) :=
  unitDelta [⟨0, .gateProj, true⟩, ⟨0, .upProj, true⟩, ⟨0, .downProj, true⟩]

theorem fusable_mlpWeights : Fusable mlpWeights where
  weights q hfused hw := by
    by_contra hne
    obtain ⟨t, ht⟩ := Option.ne_none_iff_exists'.mp hne
    obtain ⟨q', hq', htext, -⟩ := get?_unitDelta ht
    rw [QwenKey.text_inj htext] at hq'
    have hall : ∀ q ∈ [(⟨0, .gateProj, true⟩ : QwenKey), ⟨0, .upProj, true⟩, ⟨0, .downProj, true⟩],
        q.weight = true := by decide
    rw [hall q hq'] at hw
    cases hw
  groups f n m hm m' hm' hsome := by
    obtain ⟨t, ht⟩ := Option.isSome_iff_exists.mp hsome
    obtain ⟨q', hq', htext, -⟩ := get?_unitDelta ht
    rw [QwenKey.text_inj htext] at hq'
    have hlayer :
        ∀ q ∈ [(⟨0, .gateProj, true⟩ : QwenKey), ⟨0, .upProj, true⟩, ⟨0, .downProj, true⟩],
        q.layer = 0 ∧ q.module ∉ Fusion.qkv.modules := by decide
    obtain ⟨hn, hmodule⟩ := hlayer _ hq'
    obtain rfl : n = 0 := hn
    cases f with
    | qkv => exact absurd hm hmodule
    | gateUp => rcases List.mem_pair.mp hm' with rfl | rfl <;> rfl
  sameCols f n ts hts := by
    have hone : ∀ t ∈ ts, t.cols = 1 := by
      intro t ht
      have hmem : some t ∈ (f.parts n true).map mlpWeights.get? :=
        mapM_eq_some_iff.mp hts ▸ List.mem_map_of_mem ht
      obtain ⟨k, -, hk⟩ := List.mem_map.mp hmem
      obtain ⟨-, -, -, hcols⟩ := get?_unitDelta hk
      exact hcols
    exact fun M hM N hN => (hone M hM).trans (hone N hN).symm

/-- The weights of an MLP are fused, and its third projection is kept. -/
theorem fuses_mlpWeights :
    ∃ out, fuseQwenLayers mlpWeights = .ok out ∧ LosesNothing mlpWeights out :=
  (losesNothing_iff (qwenNamed_unitDelta _)).mpr fusable_mlpWeights

/-- A delta under the key that the projection builds, without `.weight`, is lost. -/
theorem loses_plain_key : QwenNamed (unitDelta [⟨0, .qProj, false⟩]) ∧
    fuseQwenLayers (unitDelta [⟨0, .qProj, false⟩]) = .ok .empty ∧
      ¬ ∃ out, fuseQwenLayers (unitDelta [⟨0, .qProj, false⟩]) = .ok out ∧
        LosesNothing (unitDelta [⟨0, .qProj, false⟩]) out := by
  have hout : fuseQwenLayers (unitDelta [⟨0, .qProj, false⟩]) = .ok .empty := rfl
  refine ⟨qwenNamed_unitDelta _, hout, ?_⟩
  rintro ⟨out, h, hlossless⟩
  rw [hout] at h
  cases h
  rcases hlossless.once ⟨0, .qProj, false⟩ _ rfl with ⟨hown, -⟩ | ⟨⟨f, -, F, hF, -⟩, -⟩
  · cases hown
  · cases hF
