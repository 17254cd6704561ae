/-
Health reports and the names of LoRA tensors.

`buildPeftLoraKey` names the tensors of a pair in more than one style.  The
analyser finds pairs by stripping the names, and the stripped names of a pair
agree in some styles only:

* `buildPeftLoraKey` — the name of a tensor;
* `Meets`, `Misses` — the pairs are found, or none of them is;
* `meets_peftDefault`, `misses_peftNamed` — what the two styles do;
* `analyze_naming_iff` — when two models with the same pairs get the same report.
-/
import NeuralScalpel.HealthReport
import NeuralScalpel.OutlierDamping
import Mathlib.Data.List.Permutation

/-! ### Names -/

def LoraHalf.letter : LoraHalf → String
  | .a => "A"
  | .b => "B"

/-- `adapter_name or "default"`. -/
def adapterOrDefault (adapterName : Option String) : String :=
  match adapterName with
  | none => "default"
  | some name => if name = "" then "default" else name

/-- `build_peft_lora_key`. -/
def buildPeftLoraKey (moduleName : String) (which : LoraHalf) (peftKeyPrefix : String)
    (adapterName : Option String) (keyStyle : String) : Except PyError String :=
  if keyStyle = "peft_default" then
    .ok (peftKeyPrefix ++ "." ++ moduleName ++ ".lora_" ++ which.letter ++ ".weight")
  else if keyStyle = "peft_named" then
    .ok (peftKeyPrefix ++ "." ++ moduleName ++ ".lora_" ++ which.letter ++ "." ++
      adapterOrDefault adapterName ++ ".weight")
  else if keyStyle = "raw" then .ok (moduleName ++ ".lora_" ++ which.letter ++ ".weight")
  else .error (.valueError ("Unknown key_style: " ++ keyStyle))

/-- The two styles that keep the prefix of the library. -/
inductive PeftNaming
  | peftDefault
  | peftNamed (adapterName : Option String)
  deriving DecidableEq, Repr

namespace PeftNaming

def keyStyle : PeftNaming → String
  | .peftDefault => "peft_default"
  | .peftNamed _ => "peft_named"

def adapterName : PeftNaming → Option String
  | .peftDefault => none
  | .peftNamed name => name

/-- The name of a tensor of a module with this path. -/
def key (naming : PeftNaming) (path : String) (half : LoraHalf) : String :=
  match naming with
  | .peftDefault => path ++ ".lora_" ++ half.letter ++ ".weight"
  | .peftNamed name => path ++ ".lora_" ++ half.letter ++ "." ++ adapterOrDefault name ++ ".weight"

theorem buildPeftLoraKey_eq (naming : PeftNaming) (moduleName peftKeyPrefix : String)
    (half : LoraHalf) :
    buildPeftLoraKey moduleName half peftKeyPrefix naming.adapterName naming.keyStyle =
      .ok (naming.key (peftKeyPrefix ++ "." ++ moduleName) half) := by
  cases naming <;> rfl

theorem key_peftDefault (path : String) (half : LoraHalf) :
    peftDefault.key path half = loraKey path half := by
  cases half <;> simp only [key, loraKey, LoraHalf.letter, LoraHalf.suffix, String.append_assoc] <;>
    rfl

end PeftNaming

/-! ### Stripped names -/

theorem suffix_append_cases {α : Type} {t right : List α} : ∀ {left : List α},
    t <:+ left ++ right → t <:+ right ∨ ∃ rest, rest <:+ left ∧ rest ≠ [] ∧ t = rest ++ right := by
  intro left
  induction left with
  | nil => exact Or.inl
  | cons d left ih =>
    intro h
    rcases List.suffix_cons_iff.mp h with rfl | h
    · exact Or.inr ⟨d :: left, List.suffix_rfl, List.cons_ne_nil d left, rfl⟩
    · rcases ih h with hright | ⟨rest, hrest, hne, ht⟩
      · exact Or.inl hright
      · exact Or.inr ⟨rest, hrest.trans (List.suffix_cons d left), hne, ht⟩

/-- The mark of a half, which names are tested for. -/
def LoraHalf.mark : LoraHalf → String
  | .a => "lora_A"
  | .b => "lora_B"

theorem LoraHalf.dot_not_mem_mark (half : LoraHalf) : '.' ∉ half.mark.toList := by
  cases half <;> decide

theorem LoraHalf.toList_suffix (half : LoraHalf) :
    half.suffix.toList = '.' :: (half.mark.toList ++ '.' :: "weight".toList) := by
  cases half <;> rfl

/-- A named key: the path, the mark, the adapter and the ending. -/
theorem toList_key_peftNamed (name : Option String) (path : String) (half : LoraHalf) :
    ((PeftNaming.peftNamed name).key path half).toList = path.toList ++
      '.' :: (half.mark.toList ++ '.' :: ((adapterOrDefault name).toList ++
        '.' :: "weight".toList)) := by
  have hmark : (".lora_" ++ half.letter).toList = '.' :: half.mark.toList := by
    cases half <;> rfl
  rw [String.toList_append] at hmark
  simp only [PeftNaming.key, String.toList_append, List.append_assoc]
  rw [← List.append_assoc ".lora_".toList, hmark]
  simp

/-- The adapter name does not get in the way of the marks, and does not begin
like the ending of a name. -/
structure PlainAdapter (name : Option String) : Prop where
  mark : ∀ half : LoraHalf, inKey half.mark (adapterOrDefault name) = false
  weight : ¬ "weight".toList <+: (adapterOrDefault name).toList

/-- Between a base and an ending, a mark and a name that does not begin like
the ending: the mark is not followed by the ending. -/
theorem marked_not_infix {c : Char} {base mark mark' name ending : List Char}
    (hlength : mark.length = mark'.length) (hmark : c ∉ mark) (hmark' : c ∉ mark')
    (hending : c ∉ ending) (hname : ¬ mark <:+: name) (hin : ¬ mark <:+: ending)
    (hweight : ¬ ending <+: name)
    (hbase : ∀ rest, rest <:+ base → rest ≠ [] → ¬ c :: (mark ++ c :: ending) <+:
      rest ++ c :: (mark' ++ c :: (name ++ c :: ending))) :
    ¬ c :: (mark ++ c :: ending) <:+: base ++ c :: (mark' ++ c :: (name ++ c :: ending)) := by
  -- the mark is not behind the name either
  have hbehind : ¬ mark <:+: name ++ c :: ending := fun h =>
    ((infix_append_cons hmark).mp h).elim hname hin
  intro h
  obtain ⟨t, hbegins, ht⟩ := List.infix_iff_prefix_suffix.mp h
  rcases suffix_append_cases ht with ht | ⟨rest, hrest, hne, rfl⟩
  · obtain ⟨tail, rfl⟩ := hbegins
    rcases List.suffix_cons_iff.mp ht with hsplit | ht
    · -- at the mark: the name would begin like the ending
      rw [List.cons_append, List.append_assoc] at hsplit
      have hmarks := (List.cons.inj hsplit).2
      have hrest := (List.cons.inj (List.append_inj hmarks hlength).2).2
      exact hweight (prefix_of_prefix_append_cons hending ⟨tail, hrest⟩)
    · rcases suffix_append_cases ht with ht | ⟨rest, hrest, hne, hsplit⟩
      · refine hbehind (List.IsInfix.trans ?_ ((List.suffix_cons_iff.mp ht).elim
          (fun hsplit => (List.cons.inj hsplit).2 ▸ List.infix_refl _)
          fun ht => (List.suffix_cons c _).isInfix.trans ht.isInfix))
        exact ⟨[], c :: ending ++ tail, by simp⟩
      · -- the other mark has no dot
        rcases rest with _ | ⟨d, rest⟩
        · exact hne rfl
        · have hd : c = d := (List.cons.inj hsplit).1
          exact hmark' (hrest.subset (hd ▸ List.mem_cons_self))
  · exact hbase rest hrest hne hbegins

/-- Neither LoRA ending occurs in a named key. -/
theorem suffix_not_infix_key {name : Option String} {path : String} (hname : PlainAdapter name)
    (hpath : PlainBase path) (half half' : LoraHalf) :
    ¬ half.suffix.toList <:+: ((PeftNaming.peftNamed name).key path half').toList := by
  have hlength : half.mark.toList.length = half'.mark.toList.length := by
    cases half <;> cases half' <;> decide
  have hmark : ¬ half.mark.toList <:+: (adapterOrDefault name).toList := fun h =>
    Bool.eq_false_iff.mp (hname.mark half) (occursIn_iff.mpr h)
  have hending : ¬ half.mark.toList <:+: "weight".toList := by
    rw [← occursIn_iff]
    cases half <;> decide
  rw [toList_key_peftNamed, half.toList_suffix]
  refine marked_not_infix hlength half.dot_not_mem_mark half'.dot_not_mem_mark (by decide) hmark
    hending hname.weight fun rest hrest hne => ?_
  rw [← half.toList_suffix]
  exact not_prefix_of_plainBase hpath half hrest hne

/-- The stripped name of a tensor still has the mark. -/
theorem toList_baseName_peftNamed {name : Option String} {path : String}
    (hname : PlainAdapter name) (hpath : PlainBase path) (half : LoraHalf) :
    (DeltaHealthAnalyzer.baseName ((PeftNaming.peftNamed name).key path half)).toList =
      removeAll ".weight".toList path.toList ++ '.' :: half.mark.toList ++
        removeAll ".weight".toList ('.' :: ((adapterOrDefault name).toList ++
          '.' :: "weight".toList)) := by
  have hbase : baseKey ((PeftNaming.peftNamed name).key path half) =
      (PeftNaming.peftNamed name).key path half := by
    unfold baseKey
    rw [removeAll_of_not_in (suffix_not_infix_key hname hpath .a half),
      removeAll_of_not_in (suffix_not_infix_key hname hpath .b half), String.ofList_toList]
  have hmark : removeAll ".weight".toList ('.' :: half.mark.toList) = '.' :: half.mark.toList := by
    cases half <;> decide
  have hweight : '.' ∉ "weight".toList := by decide
  have hsplit : ".weight".toList = '.' :: "weight".toList := rfl
  unfold DeltaHealthAnalyzer.baseName
  rw [hbase, String.toList_ofList, toList_key_peftNamed, hsplit, removeAll_append_cons hweight,
    ← List.cons_append, removeAll_append_cons hweight, ← hsplit, hmark, List.append_assoc]

/-- No stripped name of a first tensor is that of a second one. -/
theorem baseName_peftNamed_ne {name : Option String} {path path' : String}
    (hname : PlainAdapter name) (hpath : PlainBase path) (hpath' : PlainBase path') :
    DeltaHealthAnalyzer.baseName ((PeftNaming.peftNamed name).key path .a) ≠
      DeltaHealthAnalyzer.baseName ((PeftNaming.peftNamed name).key path' .b) := by
  intro h
  have hlist := congrArg String.toList h
  rw [toList_baseName_peftNamed hname hpath, toList_baseName_peftNamed hname hpath'] at hlist
  have hmarks := (List.append_inj' (List.append_cancel_right hlist) (by decide)).2
  revert hmarks
  decide

theorem inKey_mark_peftNamed {name : Option String} {path : String} (hname : PlainAdapter name)
    (hpath : PlainBase path) (half half' : LoraHalf) :
    inKey half.mark ((PeftNaming.peftNamed name).key path half') = decide (half' = half) := by
  have hbase : occursIn half.mark path.toList = false := by
    refine not_inKey_of_plainBase hpath ?_
    cases half <;> decide
  have hweight : occursIn half.mark "weight".toList = false := by
    cases half <;> decide
  have hmark : occursIn half.mark half'.mark.toList = decide (half' = half) := by
    cases half <;> cases half' <;> decide
  have hadapter : occursIn half.mark (adapterOrDefault name).toList = false := hname.mark half
  unfold inKey
  rw [toList_key_peftNamed, occursIn_append_cons half.dot_not_mem_mark,
    occursIn_append_cons half.dot_not_mem_mark, occursIn_append_cons half.dot_not_mem_mark,
    hbase, hweight, hmark, hadapter, Bool.false_or, Bool.or_false, Bool.or_false]

theorem inKey_mark_loraKey {path : String} (hpath : PlainBase path) (half half' : LoraHalf) :
    inKey half.mark (loraKey path half') = decide (half' = half) := by
  cases half with
  | a => exact inKey_loraA hpath half'
  | b => exact inKey_loraB hpath half'

/-- The mark of a half is a mark of LoRA tensors. -/
theorem inKey_lora_of_mark {half : LoraHalf} {name : String} (h : inKey half.mark name = true) :
    inKey "lora_" name = true := by
  refine inKey_of_longer ?_ h
  cases half <;> decide

namespace DeltaHealthAnalyzer

/-! ### Models -/

section

variable {S : Type} [Field S]

/-- The tensors of a LoRA module; their inner dimensions agree. -/
structure LoraPair (S : Type) [Zero S] where
  moduleName : String
  a : ShapedMatrix S
  b : ShapedMatrix S
  rank : b.cols = a.rows

def LoraPair.tensor (p : LoraPair S) : LoraHalf → ShapedMatrix S
  | .a => p.a
  | .b => p.b

/-- The path of a module. -/
def LoraPair.path (peftKeyPrefix : String) (p : LoraPair S) : String :=
  peftKeyPrefix ++ "." ++ p.moduleName

def LoraPair.entries (naming : PeftNaming) (peftKeyPrefix : String) (p : LoraPair S) :
    List (String × ShapedMatrix S) :=
  [(naming.key (p.path peftKeyPrefix) .a, p.a), (naming.key (p.path peftKeyPrefix) .b, p.b)]

/-- The model has the pairs, in any order and between other parameters. -/
def HoldsPairs (naming : PeftNaming) (peftKeyPrefix : String) (pairs : List (LoraPair S))
    (params : List (String × ShapedMatrix S)) : Prop :=
  (params.filter fun e => inKey "lora_" e.1).Perm
    (pairs.flatMap (LoraPair.entries naming peftKeyPrefix))

/-- The names of first tensors have the mark of first tensors only, those of
second ones that of second ones only. -/
def MarksHalves (naming : PeftNaming) (peftKeyPrefix : String) (pairs : List (LoraPair S)) :
    Prop :=
  ∀ p ∈ pairs, ∀ half half' : LoraHalf,
    inKey half.mark (naming.key (p.path peftKeyPrefix) half') = decide (half' = half)

/-- The names of each pair are stripped to one name of its own, in the layer of
the pair. -/
structure Meets (naming : PeftNaming) (peftKeyPrefix : String) (pairs : List (LoraPair S)) :
    Prop where
  marks : MarksHalves naming peftKeyPrefix pairs
  base : ∀ p ∈ pairs, baseName (naming.key (p.path peftKeyPrefix) .b) =
    baseName (naming.key (p.path peftKeyPrefix) .a)
  layer : ∀ p ∈ pairs, extractLayer (baseName (naming.key (p.path peftKeyPrefix) .a)) =
    extractLayer (p.path peftKeyPrefix)
  nodup : (pairs.map fun p => baseName (naming.key (p.path peftKeyPrefix) .a)).Nodup

/-- No name of a first tensor is stripped to that of a second one. -/
structure Misses (naming : PeftNaming) (peftKeyPrefix : String) (pairs : List (LoraPair S)) :
    Prop where
  marks : MarksHalves naming peftKeyPrefix pairs
  base : ∀ p ∈ pairs, ∀ p' ∈ pairs, baseName (naming.key (p.path peftKeyPrefix) .a) ≠
    baseName (naming.key (p'.path peftKeyPrefix) .b)

theorem misses_nil (naming : PeftNaming) (peftKeyPrefix : String) :
    Misses naming peftKeyPrefix ([] : List (LoraPair S)) :=
  ⟨fun _ hp => absurd hp List.not_mem_nil, fun _ hp => absurd hp List.not_mem_nil⟩

/-- The default style meets, for modules that LoRA and `.weight` do not occur in. -/
theorem meets_peftDefault {peftKeyPrefix : String} {pairs : List (LoraPair S)}
    (hplain : ∀ p ∈ pairs, PlainBase (p.path peftKeyPrefix))
    (hweight : ∀ p ∈ pairs, inKey ".weight" (p.path peftKeyPrefix) = false)
    (hnodup : (pairs.map LoraPair.moduleName).Nodup) :
    Meets .peftDefault peftKeyPrefix pairs := by
  have hbase : ∀ p ∈ pairs, ∀ half,
      baseName (PeftNaming.peftDefault.key (p.path peftKeyPrefix) half) = p.path peftKeyPrefix := by
    intro p hp half
    unfold baseName
    rw [PeftNaming.key_peftDefault, baseKey_loraKey (hplain p hp), removeAll_of_not_in,
      String.ofList_toList]
    exact fun h => Bool.eq_false_iff.mp (hweight p hp) (occursIn_iff.mpr h)
  refine ⟨fun p hp half half' => ?_, fun p hp => ?_, fun p hp => ?_, ?_⟩
  · rw [PeftNaming.key_peftDefault]
    exact inKey_mark_loraKey (hplain p hp) half half'
  · rw [hbase p hp, hbase p hp]
  · rw [hbase p hp]
  · rw [List.map_congr_left fun p hp => hbase p hp .a]
    have hpaths : pairs.map (LoraPair.path peftKeyPrefix) =
        (pairs.map LoraPair.moduleName).map fun m => peftKeyPrefix ++ "." ++ m := by
      rw [List.map_map]
      rfl
    rw [hpaths]
    refine hnodup.map fun m m' h => ?_
    have hlist := congrArg String.toList h
    simp only [String.toList_append] at hlist
    exact String.toList_inj.mp (List.append_cancel_left hlist)

/-- The named style misses, for adapter names that are plain. -/
theorem misses_peftNamed {name : Option String} {peftKeyPrefix : String}
    {pairs : List (LoraPair S)} (hname : PlainAdapter name)
    (hplain : ∀ p ∈ pairs, PlainBase (p.path peftKeyPrefix)) :
    Misses (.peftNamed name) peftKeyPrefix pairs :=
  ⟨fun p hp half half' => inKey_mark_peftNamed hname (hplain p hp) half half',
    fun p hp p' hp' => baseName_peftNamed_ne hname (hplain p hp) (hplain p' hp')⟩

/-! ### What is collected -/

/-- The LoRA tensors with this stripped name. -/
def tensorsOf (base : String) (params : List (String × ShapedMatrix S)) :
    List (String × ShapedMatrix S) :=
  (params.filter fun e => inKey "lora_" e.1).filter fun e => baseName e.1 = base

theorem tensorsOf_append_singleton (base : String) (params : List (String × ShapedMatrix S))
    (e : String × ShapedMatrix S) : tensorsOf base (params ++ [e]) = tensorsOf base params ++
      if inKey "lora_" e.1 = true ∧ baseName e.1 = base then [e] else [] := by
  unfold tensorsOf
  rw [List.filter_append, List.filter_append]
  by_cases hlora : inKey "lora_" e.1 = true <;> by_cases hbase : baseName e.1 = base <;>
    simp [hlora, hbase]

theorem get?_collectPairs (params : List (String × ShapedMatrix S)) (base : String) :
    (collectPairs params).get? base =
      if tensorsOf base params = [] then none
      else some ((tensorsOf base params).foldl (fun pair e => collectTensor pair e.1 e.2)
        fun _ => none) := by
  induction params using List.reverseRecOn with
  | nil => rfl
  | append_singleton params e ih =>
    have hstep : collectPairs (params ++ [e]) = collectParameter (collectPairs params) e := by
      unfold collectPairs
      rw [List.foldl_append, List.foldl_cons, List.foldl_nil]
    have hsnoc := tensorsOf_append_singleton base params e
    rw [hstep]
    unfold collectParameter
    by_cases hlora : inKey "lora_" e.1 = true
    · rw [if_pos hlora]
      by_cases hbase : baseName e.1 = base
      · rw [if_pos ⟨hlora, hbase⟩] at hsnoc
        have hne : tensorsOf base params ++ [e] ≠ [] := by simp
        rw [hsnoc, if_neg hne, List.foldl_append, hbase, Dict.get?_set_self, ih]
        by_cases hnil : tensorsOf base params = []
        · rw [if_pos hnil, hnil]
          rfl
        · rw [if_neg hnil]
          rfl
      · rw [if_neg fun h => hbase h.2, List.append_nil] at hsnoc
        rw [hsnoc, Dict.get?_set_of_ne (Ne.symm hbase), ih]
    · rw [if_neg fun h => hlora h.1, List.append_nil] at hsnoc
      rw [if_neg hlora, hsnoc, ih]

/-- A tensor that was collected for a half had the mark of the half. -/
theorem exists_mark_of_foldl {half : LoraHalf} : ∀ {l : List (String × ShapedMatrix S)}
    {pair : BufferedPair S} {t : ShapedMatrix S},
      l.foldl (fun pair e => collectTensor pair e.1 e.2) pair half = some t → pair half = none →
        ∃ e ∈ l, inKey half.mark e.1 = true := by
  intro l
  induction l with
  | nil =>
    intro pair t h hnone
    rw [List.foldl_nil, hnone] at h
    cases h
  | cons e l ih =>
    intro pair t h hnone
    by_cases hmark : inKey half.mark e.1 = true
    · exact ⟨e, List.mem_cons_self, hmark⟩
    · have hstill : collectTensor pair e.1 e.2 half = none := by
        unfold collectTensor
        cases half with
        | a =>
          have hmark : ¬inKey "lora_A" e.1 = true := hmark
          rw [if_neg hmark]
          split_ifs
          · exact hnone
          · exact hnone
        | b =>
          have hmark : ¬inKey "lora_B" e.1 = true := hmark
          rw [if_neg hmark]
          split_ifs
          · exact hnone
          · exact hnone
      obtain ⟨e', he', hmark'⟩ := ih h hstill
      exact ⟨e', List.mem_cons_of_mem e he', hmark'⟩

/-- The tensors of a pair, collected in either order. -/
theorem collect_entries {naming : PeftNaming} {peftKeyPrefix : String} {pairs : List (LoraPair S)}
    (hmarks : MarksHalves naming peftKeyPrefix pairs) {p : LoraPair S} (hp : p ∈ pairs)
    {l : List (String × ShapedMatrix S)} (h : l.Perm (p.entries naming peftKeyPrefix)) :
    l.foldl (fun pair e => collectTensor pair e.1 e.2) (fun _ => none) =
      fun half => some (p.tensor half) := by
  have haa : inKey "lora_A" (naming.key (p.path peftKeyPrefix) .a) = true := hmarks p hp .a .a
  have hab : inKey "lora_A" (naming.key (p.path peftKeyPrefix) .b) = false := hmarks p hp .a .b
  have hba : inKey "lora_B" (naming.key (p.path peftKeyPrefix) .a) = false := hmarks p hp .b .a
  have hbb : inKey "lora_B" (naming.key (p.path peftKeyPrefix) .b) = true := hmarks p hp .b .b
  have hputs : ∀ (pair : BufferedPair S) half,
      (BufferedPair.put pair half (p.tensor half)) half = some (p.tensor half) :=
    fun pair half => if_pos rfl
  rcases List.perm_pair.mp h with rfl | rfl
  · funext half
    simp only [List.foldl_cons, List.foldl_nil, collectTensor, haa, hab, hba, hbb, if_true,
      Bool.false_eq_true, if_false]
    cases half <;> rfl
  · funext half
    simp only [List.foldl_cons, List.foldl_nil, collectTensor, haa, hab, hba, hbb, if_true,
      Bool.false_eq_true, if_false]
    cases half <;> rfl

/-! ### What is measured -/

section Holds

variable {naming : PeftNaming} {peftKeyPrefix : String} {pairs : List (LoraPair S)}
  {params : List (String × ShapedMatrix S)}

/-- A LoRA tensor of the model is a tensor of a pair. -/
theorem exists_pair_of_mem (hholds : HoldsPairs naming peftKeyPrefix pairs params) {base : String}
    {e : String × ShapedMatrix S} (h : e ∈ tensorsOf base params) :
    baseName e.1 = base ∧ ∃ p ∈ pairs, ∃ half,
      e = (naming.key (p.path peftKeyPrefix) half, p.tensor half) := by
  obtain ⟨hlora, hbase⟩ := List.mem_filter.mp h
  obtain ⟨p, hp, he⟩ := List.mem_flatMap.mp (hholds.subset hlora)
  refine ⟨of_decide_eq_true hbase, p, hp, ?_⟩
  rcases List.mem_pair.mp he with rfl | rfl
  · exact ⟨.a, rfl⟩
  · exact ⟨.b, rfl⟩

theorem flatMap_eq_of_unique {α β : Type} {f : α → List β} {a : α} : ∀ {l : List α},
    l.Nodup → a ∈ l → (∀ b ∈ l, b ≠ a → f b = []) → l.flatMap f = f a := by
  intro l
  induction l with
  | nil => exact fun _ h => absurd h List.not_mem_nil
  | cons b l ih =>
    intro hnodup hmem hothers
    obtain ⟨hb, hl⟩ := List.nodup_cons.mp hnodup
    rw [List.flatMap_cons]
    rcases List.mem_cons.mp hmem with rfl | hmem
    · have hnone : l.flatMap f = [] := List.flatMap_eq_nil_iff.mpr fun b' hb' =>
        hothers b' (List.mem_cons_of_mem _ hb') fun heq => hb (heq ▸ hb')
      rw [hnone, List.append_nil]
    · rw [hothers b List.mem_cons_self fun heq => hb (heq ▸ hmem), List.nil_append]
      exact ih hl hmem fun b' hb' => hothers b' (List.mem_cons_of_mem b hb')

/-- Under the stripped name of a pair that meets stand its two tensors. -/
theorem tensorsOf_perm (hholds : HoldsPairs naming peftKeyPrefix pairs params)
    (hmeets : Meets naming peftKeyPrefix pairs) {p : LoraPair S} (hp : p ∈ pairs) :
    (tensorsOf (baseName (naming.key (p.path peftKeyPrefix) .a)) params).Perm
      (p.entries naming peftKeyPrefix) := by
  set base := baseName (naming.key (p.path peftKeyPrefix) .a) with hbase
  refine (hholds.filter _).trans ?_
  have hfilter : (pairs.flatMap (LoraPair.entries naming peftKeyPrefix)).filter
      (fun e => decide (baseName e.1 = base)) = p.entries naming peftKeyPrefix := by
    rw [List.filter_flatMap, flatMap_eq_of_unique (List.Nodup.of_map _ hmeets.nodup) hp]
    · -- both names of the pair are stripped to this one
      refine List.filter_eq_self.mpr fun e he => decide_eq_true ?_
      rcases List.mem_pair.mp he with rfl | rfl
      · rfl
      · exact hmeets.base p hp
    · intro q hq hne
      refine List.filter_eq_nil_iff.mpr fun e he heq => hne ?_
      have hkeys : baseName e.1 = baseName (naming.key (q.path peftKeyPrefix) .a) := by
        rcases List.mem_pair.mp he with rfl | rfl
        · rfl
        · exact hmeets.base q hq
      have hsame : baseName e.1 = base := of_decide_eq_true heq
      exact List.inj_on_of_nodup_map hmeets.nodup hq hp (hkeys.symm.trans hsame)
  rw [hfilter]

/-- Layers and products of the pairs. -/
def pairProducts (peftKeyPrefix : String) (pairs : List (LoraPair S)) :
    List (Option ℕ × ShapedMatrix S) :=
  pairs.map fun p => (extractLayer (p.path peftKeyPrefix), p.b.mul p.a)

/-- If the names meet, the entries are the pairs. -/
theorem perm_entries_of_meets (hholds : HoldsPairs naming peftKeyPrefix pairs params)
    (hmeets : Meets naming peftKeyPrefix pairs) :
    (collectPairs params).entries.Perm (pairs.map fun p =>
      (baseName (naming.key (p.path peftKeyPrefix) .a), fun half => some (p.tensor half))) := by
  have hget : ∀ p ∈ pairs, (collectPairs params).get?
      (baseName (naming.key (p.path peftKeyPrefix) .a)) =
        some fun half => some (p.tensor half) := by
    intro p hp
    have hperm := tensorsOf_perm hholds hmeets hp
    have hne : tensorsOf (baseName (naming.key (p.path peftKeyPrefix) .a)) params ≠ [] := by
      intro hnil
      rw [hnil] at hperm
      exact absurd hperm.length_eq (by simp [LoraPair.entries])
    rw [get?_collectPairs, if_neg hne, collect_entries hmeets.marks hp hperm]
  refine (List.perm_ext_iff_of_nodup (Dict.nodup_entries _) ?_).mpr fun e => ?_
  · refine List.Nodup.of_map Prod.fst ?_
    rw [List.map_map]
    exact hmeets.nodup
  · constructor
    · intro he
      have hentry := Dict.mem_entries_iff.mp he
      have hne : tensorsOf e.1 params ≠ [] := by
        intro hnil
        rw [get?_collectPairs, if_pos hnil] at hentry
        cases hentry
      obtain ⟨t, ht⟩ := List.exists_mem_of_ne_nil _ hne
      obtain ⟨hbase, p, hp, half, rfl⟩ := exists_pair_of_mem hholds ht
      have hkey : baseName (naming.key (p.path peftKeyPrefix) .a) = e.1 := by
        rw [← hbase]
        cases half
        · rfl
        · exact (hmeets.base p hp).symm
      rw [← hkey, hget p hp] at hentry
      exact List.mem_map.mpr ⟨p, hp, Prod.ext hkey (Option.some.inj hentry)⟩
    · intro he
      obtain ⟨p, hp, rfl⟩ := List.mem_map.mp he
      exact Dict.mem_entries_iff.mpr (hget p hp)

/-- If the names miss, no entry is a complete pair. -/
theorem completePair_of_misses (hholds : HoldsPairs naming peftKeyPrefix pairs params)
    (hmisses : Misses naming peftKeyPrefix pairs) :
    (collectPairs params).entries.filterMap completePair = [] := by
  refine List.filterMap_eq_nil_iff.mpr fun e he => ?_
  have hentry := Dict.mem_entries_iff.mp he
  rw [get?_collectPairs] at hentry
  by_cases hnil : tensorsOf e.1 params = []
  · rw [if_pos hnil] at hentry
    cases hentry
  · rw [if_neg hnil] at hentry
    -- a tensor for a half comes from a name of that half, stripped to this one
    have hhalf : ∀ half t, e.2 half = some t →
        ∃ p ∈ pairs, baseName (naming.key (p.path peftKeyPrefix) half) = e.1 := by
      intro half t ht
      rw [← Option.some.inj hentry] at ht
      obtain ⟨e', he', hmark⟩ := exists_mark_of_foldl ht rfl
      obtain ⟨hbase, p, hp, half', rfl⟩ := exists_pair_of_mem hholds he'
      have hsame : half' = half :=
        of_decide_eq_true ((hmisses.marks p hp half half').symm.trans hmark)
      subst hsame
      exact ⟨p, hp, hbase⟩
    unfold completePair
    cases ha : e.2 .a with
    | none => rfl
    | some a =>
      cases hb : e.2 .b with
      | none => rfl
      | some b =>
        obtain ⟨p, hp, hpa⟩ := hhalf .a a ha
        obtain ⟨q, hq, hqb⟩ := hhalf .b b hb
        exact absurd (hpa.trans hqb.symm) (hmisses.base p hp q hq)

end Holds

end

/-! ### The report -/

section

variable {S : Type} [Field S] [LinearOrder S] [IsStrictOrderedRing S] [FloorRing S]
  {math : HealthMath S} {peftKeyPrefix : String} {pairs : List (LoraPair S)}

section OneModel

variable {naming : PeftNaming} {params : List (String × ShapedMatrix S)}

/-- If the names meet, the report is that of all pairs. -/
theorem analyze_of_meets (math : HealthMath S)
    (hholds : HoldsPairs naming peftKeyPrefix pairs params)
    (hmeets : Meets naming peftKeyPrefix pairs) :
    analyze math params =
      .ok ((measured math (pairProducts peftKeyPrefix pairs)).report math) := by
  have hcomplete : ((collectPairs params).entries.filterMap completePair).Perm
      (pairs.map fun p => (extractLayer (p.path peftKeyPrefix), p.a, p.b)) := by
    refine ((perm_entries_of_meets hholds hmeets).filterMap completePair).trans ?_
    have hpairs : (pairs.map fun p : LoraPair S =>
        (baseName (naming.key (p.path peftKeyPrefix) .a),
          ((fun half => some (p.tensor half)) : BufferedPair S))).filterMap completePair =
        pairs.map fun p => (extractLayer (p.path peftKeyPrefix), p.a, p.b) := by
      rw [List.filterMap_map, ← List.filterMap_eq_map]
      refine List.filterMap_congr fun p hp => ?_
      show some (extractLayer (baseName (naming.key (p.path peftKeyPrefix) .a)), p.a, p.b) = _
      rw [hmeets.layer p hp]
      rfl
    rw [hpairs]
  have hmeasure := measure_eq math params fun t ht => by
    obtain ⟨p, -, rfl⟩ := List.mem_map.mp (hcomplete.subset ht)
    exact p.rank
  have hproducts : (((collectPairs params).entries.filterMap completePair).map pairProduct).Perm
      (pairProducts peftKeyPrefix pairs) := by
    refine (hcomplete.map pairProduct).trans ?_
    rw [List.map_map]
    rfl
  unfold analyze
  rw [hmeasure, ← report_measured_perm math hproducts]
  rfl

omit [IsStrictOrderedRing S] in
/-- If the names miss, the report is that of no pairs. -/
theorem analyze_of_misses (math : HealthMath S)
    (hholds : HoldsPairs naming peftKeyPrefix pairs params)
    (hmisses : Misses naming peftKeyPrefix pairs) :
    analyze math params = .ok ((measured math []).report math) := by
  have hnone := completePair_of_misses hholds hmisses
  have hmeasure := measure_eq math params fun t ht => by
    rw [hnone] at ht
    cases ht
  unfold analyze
  rw [hmeasure, hnone]
  rfl

end OneModel

variable {naming naming' : PeftNaming} {params params' : List (String × ShapedMatrix S)}

/-- Pairs are found under both namings, or under neither. -/
def SameMeeting (naming naming' : PeftNaming) (peftKeyPrefix : String)
    (pairs : List (LoraPair S)) : Prop :=
  pairs = [] ∨ (Meets naming peftKeyPrefix pairs ∧ Meets naming' peftKeyPrefix pairs) ∨
    (Misses naming peftKeyPrefix pairs ∧ Misses naming' peftKeyPrefix pairs)

/-- A model whose names meet and one whose names miss get different reports. -/
theorem analyze_ne (hmath : HealthMath.Documented math) (hne : pairs ≠ [])
    (hholds : HoldsPairs naming peftKeyPrefix pairs params)
    (hholds' : HoldsPairs naming' peftKeyPrefix pairs params')
    (hmeets : Meets naming peftKeyPrefix pairs) (hmisses : Misses naming' peftKeyPrefix pairs) :
    analyze math params ≠ analyze math params' := by
  rw [analyze_of_meets math hholds hmeets, analyze_of_misses math hholds' hmisses]
  intro h
  refine report_measured_ne hmath ?_ (Except.ok.inj h)
  exact fun hnil => hne (List.map_eq_nil_iff.mp hnil)

/-- Models that hold the same pairs under two namings get the same report if
the pairs are found under both or under neither; and where each naming finds
all pairs or none, only then. -/
theorem analyze_naming_iff (hmath : HealthMath.Documented math)
    (hholds : HoldsPairs naming peftKeyPrefix pairs params)
    (hholds' : HoldsPairs naming' peftKeyPrefix pairs params') :
    (SameMeeting naming naming' peftKeyPrefix pairs →
        analyze math params = analyze math params') ∧
      ((Meets naming peftKeyPrefix pairs ∨ Misses naming peftKeyPrefix pairs) →
        (Meets naming' peftKeyPrefix pairs ∨ Misses naming' peftKeyPrefix pairs) →
        analyze math params = analyze math params' →
        SameMeeting naming naming' peftKeyPrefix pairs) := by
  refine ⟨fun h => ?_, fun hnaming hnaming' h => ?_⟩
  · rcases h with rfl | ⟨hmeets, hmeets'⟩ | ⟨hmisses, hmisses'⟩
    · rw [analyze_of_misses math hholds (misses_nil naming peftKeyPrefix),
        analyze_of_misses math hholds' (misses_nil naming' peftKeyPrefix)]
    · rw [analyze_of_meets math hholds hmeets, analyze_of_meets math hholds' hmeets']
    · rw [analyze_of_misses math hholds hmisses, analyze_of_misses math hholds' hmisses']
  · by_cases hne : pairs = []
    · exact Or.inl hne
    · rcases hnaming with hmeets | hmisses
      · rcases hnaming' with hmeets' | hmisses'
        · exact Or.inr (Or.inl ⟨hmeets, hmeets'⟩)
        · exact absurd h (analyze_ne hmath hne hholds hholds' hmeets hmisses')
      · rcases hnaming' with hmeets' | hmisses'
        · exact absurd h.symm (analyze_ne hmath hne hholds' hholds hmeets' hmisses)
        · exact Or.inr (Or.inr ⟨hmisses, hmisses'⟩)

/-- Plain names: under the default style and a named one the reports agree only
if there is nothing to report. -/
theorem analyze_default_named_iff (hmath : HealthMath.Documented math) {name : Option String}
    (hname : PlainAdapter name) (hplain : ∀ p ∈ pairs, PlainBase (p.path peftKeyPrefix))
    (hweight : ∀ p ∈ pairs, inKey ".weight" (p.path peftKeyPrefix) = false)
    (hnodup : (pairs.map LoraPair.moduleName).Nodup)
    (hholds : HoldsPairs .peftDefault peftKeyPrefix pairs params)
    (hholds' : HoldsPairs (.peftNamed name) peftKeyPrefix pairs params') :
    analyze math params = analyze math params' ↔ pairs = [] := by
  have hmeets := meets_peftDefault hplain hweight hnodup
  have hmisses := misses_peftNamed hname hplain
  constructor
  · intro h
    by_contra hne
    exact analyze_ne hmath hne hholds hholds' hmeets hmisses h
  · rintro rfl
    rw [analyze_of_misses math hholds (misses_nil _ _), analyze_of_misses math hholds' hmisses]

end

/-! ### One module -/

/-- Names with the marks of their halves are names of LoRA tensors. -/
theorem holdsPairs_entries {S : Type} [Field S] {naming : PeftNaming} {peftKeyPrefix : String}
    {pairs : List (LoraPair S)} (hmarks : MarksHalves naming peftKeyPrefix pairs) :
    HoldsPairs naming peftKeyPrefix pairs
      (pairs.flatMap (LoraPair.entries naming peftKeyPrefix)) := by
  unfold HoldsPairs
  rw [List.filter_eq_self.mpr]
  intro e he
  obtain ⟨p, hp, he⟩ := List.mem_flatMap.mp he
  rcases List.mem_pair.mp he with rfl | rfl
  · exact inKey_lora_of_mark (hmarks p hp .a .a)
  · exact inKey_lora_of_mark (hmarks p hp .b .b)

theorem documented_diagonalMath : HealthMath.Documented diagonalMath where
  sqrt_zero := by decide
  sqrt_pos x hx := by
    have hnum : 0 < Int.sqrt x.num := by
      obtain ⟨n, hn⟩ := Int.eq_ofNat_of_zero_le (Rat.num_pos.mpr hx).le
      have hpos : 0 < n := by
        have := Rat.num_pos.mpr hx
        omega
      rw [hn]
      exact Int.natCast_pos.mpr (Nat.sqrt_pos.mpr hpos)
    have hden : Nat.sqrt x.den ≠ 0 := (Nat.sqrt_pos.mpr x.den_pos).ne'
    show 0 < mkRat (Int.sqrt x.num) (Nat.sqrt x.den)
    rw [Rat.mkRat_eq_div]
    have hden' : 0 < Nat.sqrt x.den := Nat.pos_of_ne_zero hden
    positivity
  svd_zero w hw i := hw i i

def downProj : List (LoraPair ℚ) :=
  [⟨"model.layers.10.mlp.down_proj", .ofFn 1 1 fun _ _ => 3, .ofFn 1 1 fun _ _ => 1, rfl⟩]

def downProjParams (naming : PeftNaming) : List (String × ShapedMatrix ℚ) :=
  downProj.flatMap (LoraPair.entries naming "base_model.model")

theorem meets_downProj : Meets .peftDefault "base_model.model" downProj := by
  refine meets_peftDefault ?_ ?_ (by decide)
  · exact fun p hp => List.mem_singleton.mp hp ▸ by decide
  · exact fun p hp => List.mem_singleton.mp hp ▸ by decide

theorem misses_downProj {name : Option String} (hname : PlainAdapter name) :
    Misses (.peftNamed name) "base_model.model" downProj :=
  misses_peftNamed hname fun _ hp => List.mem_singleton.mp hp ▸ by decide

theorem plainAdapter_default : PlainAdapter none :=
  ⟨fun half => by cases half <;> decide, by decide⟩

theorem plainAdapter_medical : PlainAdapter (some "medical") :=
  ⟨fun half => by cases half <;> decide, by decide⟩

/-- Two adapters get one report, and the adapter of the default style another. -/
theorem analyze_downProj_named :
    analyze diagonalMath (downProjParams (.peftNamed none)) =
        analyze diagonalMath (downProjParams (.peftNamed (some "medical"))) ∧
      analyze diagonalMath (downProjParams .peftDefault) ≠
        analyze diagonalMath (downProjParams (.peftNamed (some "medical"))) := by
  have hdefault := misses_downProj plainAdapter_default
  have hmedical := misses_downProj plainAdapter_medical
  refine ⟨(analyze_naming_iff documented_diagonalMath (holdsPairs_entries hdefault.marks)
    (holdsPairs_entries hmedical.marks)).1 (Or.inr (Or.inr ⟨hdefault, hmedical⟩)), fun h => ?_⟩
  have hsame := (analyze_naming_iff documented_diagonalMath
    (holdsPairs_entries meets_downProj.marks) (holdsPairs_entries hmedical.marks)).2
    (Or.inl meets_downProj) (Or.inr hmedical) h
  rcases hsame with hnil | ⟨-, hmeets⟩ | ⟨hmisses, -⟩
  · exact absurd hnil (List.cons_ne_nil _ _)
  · exact hmedical.base _ List.mem_cons_self _ List.mem_cons_self
      (hmeets.base _ List.mem_cons_self).symm
  · exact hmisses.base _ List.mem_cons_self _ List.mem_cons_self
      (meets_downProj.base _ List.mem_cons_self).symm

/-- The adapter of `PeftModel`, named "default", is not seen. -/
theorem analyze_downProj_ne :
    HoldsPairs .peftDefault "base_model.model" downProj (downProjParams .peftDefault) ∧
      HoldsPairs (.peftNamed none) "base_model.model" downProj (downProjParams (.peftNamed none)) ∧
      analyze diagonalMath (downProjParams .peftDefault) ≠
        analyze diagonalMath (downProjParams (.peftNamed none)) :=
  ⟨holdsPairs_entries meets_downProj.marks,
    holdsPairs_entries (misses_downProj plainAdapter_default).marks,
    analyze_ne documented_diagonalMath (List.cons_ne_nil _ _)
      (holdsPairs_entries meets_downProj.marks)
      (holdsPairs_entries (misses_downProj plainAdapter_default).marks)
      meets_downProj (misses_downProj plainAdapter_default)⟩

end DeltaHealthAnalyzer
