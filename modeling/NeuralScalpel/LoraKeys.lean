/-
Keys of LoRA tensors.

A pair of LoRA tensors has the keys `<base>.lora_A.weight` and
`<base>.lora_B.weight`.  The program picks dimensions, layers and partners by
substring and pattern tests on whole keys; for a base without `lora_` these
tests read the base:

* `baseKey_loraKey` — stripping a key gives its base;
* `inKey_loraKey` — a test for a name of the base does not see the suffix;
* `searchLayer_loraKey` — both keys of a pair name the same layer.
-/
import NeuralScalpel.Substrings
import Mathlib.Data.Nat.Notation

/-- `s in key`. -/
def inKey (s key : String) : Bool := occursIn s key.toList

def anyInKey (names : List String) (key : String) : Bool := names.any fun s => inKey s key

def standardModules : List String :=
  ["q_proj", "k_proj", "v_proj", "o_proj", "gate_proj", "up_proj", "down_proj"]

/-- The two tensors of a LoRA pair. -/
inductive LoraHalf
  | a
  | b
  deriving DecidableEq, Repr

def LoraHalf.suffix : LoraHalf → String
  | .a => ".lora_A.weight"
  | .b => ".lora_B.weight"

/-- `f"{base}.lora_A.weight"` and `f"{base}.lora_B.weight"`. -/
def loraKey (base : String) (half : LoraHalf) : String := base ++ half.suffix

/-- `key.replace(".lora_A.weight", "").replace(".lora_B.weight", "")`. -/
def baseKey (key : String) : String :=
  String.ofList (removeAll (LoraHalf.suffix .b).toList
    (removeAll (LoraHalf.suffix .a).toList key.toList))

/-! ### Layer numbers -/

def digitValue (digits : List Char) : ℕ :=
  digits.foldl (fun n c => 10 * n + (c.toNat - '0'.toNat)) 0

/-- `(\d+)\.` at the front of a text. -/
def matchNumber (text : List Char) : Option ℕ :=
  if text.takeWhile Char.isDigit ≠ [] ∧ (text.dropWhile Char.isDigit).head? = some '.' then
    some (digitValue (text.takeWhile Char.isDigit))
  else none

/-- `\.(\d+)\.` at the front of a text. -/
def matchDotted (text : List Char) : Option ℕ :=
  if text.head? = some '.' then matchNumber text.tail else none

/-- `name\.(\d+)\.` at the front of a text. -/
def matchNamed (text : List Char) (name : String) : Option ℕ :=
  if name.toList.isPrefixOf text then matchDotted (text.drop name.toList.length) else none

/-- The first place in a text where one of the names is followed by a number
between dots. -/
def searchLayer (names : List String) (text : List Char) : Option ℕ :=
  text.tails.findSome? fun tail => names.findSome? (matchNamed tail)

/-- `re.compile(r"(?:layers|h|blocks)\.(\d+)\.").search(key)`. -/
def layerPattern (key : String) : Option ℕ := searchLayer ["layers", "h", "blocks"] key.toList

/-! ### Names in the keys of a pair -/

/-- The base of a LoRA key: it does not itself mention `lora_`. -/
def PlainBase (base : String) : Prop := inKey "lora_" base = false

instance (base : String) : Decidable (PlainBase base) :=
  inferInstanceAs (Decidable (_ = _))

theorem toList_loraKey (base : String) (half : LoraHalf) :
    (loraKey base half).toList = base.toList ++ half.suffix.toList := by
  unfold loraKey
  rw [String.toList_append]

theorem exists_toList_suffix (half : LoraHalf) : ∃ tail, half.suffix.toList = '.' :: tail := by
  cases half
  · exact ⟨_, rfl⟩
  · exact ⟨_, rfl⟩

/-- A name without a dot that the suffix does not have is looked for in the base. -/
theorem inKey_loraKey {s base : String} {half : LoraHalf} (hdot : '.' ∉ s.toList)
    (hsuffix : inKey s half.suffix = false) : inKey s (loraKey base half) = inKey s base := by
  obtain ⟨tail, htail⟩ := exists_toList_suffix half
  have hempty : occursIn s ([] ++ '.' :: tail) = false := by
    rw [List.nil_append, ← htail]
    exact hsuffix
  unfold inKey
  rw [toList_loraKey, htail, occursIn_append_cons hdot]
  rw [occursIn_append_cons hdot, Bool.or_eq_false_iff] at hempty
  rw [hempty.2, Bool.or_false]

theorem anyInKey_loraKey {names : List String} {base : String} {half : LoraHalf}
    (hdot : ∀ s ∈ names, '.' ∉ s.toList) (hsuffix : ∀ s ∈ names, inKey s half.suffix = false) :
    anyInKey names (loraKey base half) = anyInKey names base := by
  unfold anyInKey
  rw [Bool.eq_iff_iff, List.any_eq_true, List.any_eq_true]
  refine exists_congr fun s => and_congr_right fun hs => ?_
  rw [inKey_loraKey (hdot s hs) (hsuffix s hs)]

theorem inKey_of_longer {s t base : String} (hst : s.toList <+: t.toList)
    (h : inKey t base = true) : inKey s base = true := by
  unfold inKey at h ⊢
  rw [occursIn_iff] at h ⊢
  exact hst.isInfix.trans h

theorem inKey_of_inKey_suffix {s base : String} {half : LoraHalf}
    (h : inKey s half.suffix = true) : inKey s (loraKey base half) = true := by
  unfold inKey at h ⊢
  rw [toList_loraKey, occursIn_iff]
  rw [occursIn_iff] at h
  exact h.trans (List.suffix_append _ _).isInfix

theorem not_inKey_of_plainBase {s base : String} (hbase : PlainBase base)
    (hs : "lora_".toList <+: s.toList) : inKey s base = false := by
  refine Bool.eq_false_iff.mpr fun h => ?_
  exact Bool.eq_false_iff.mp hbase (inKey_of_longer hs h)

/-- The key of the first tensor is told by its mark. -/
theorem inKey_loraA {base : String} (hbase : PlainBase base) (half : LoraHalf) :
    inKey "lora_A" (loraKey base half) = decide (half = .a) := by
  cases half with
  | a => exact inKey_of_inKey_suffix (by decide)
  | b =>
    rw [inKey_loraKey (by decide) (by decide)]
    exact not_inKey_of_plainBase hbase (by decide)

theorem inKey_loraB {base : String} (hbase : PlainBase base) (half : LoraHalf) :
    inKey "lora_B" (loraKey base half) = decide (half = .b) := by
  cases half with
  | a =>
    rw [inKey_loraKey (by decide) (by decide)]
    exact not_inKey_of_plainBase hbase (by decide)
  | b => exact inKey_of_inKey_suffix (by decide)

/-! ### The base of a key -/

/-- No LoRA suffix begins inside a plain base. -/
theorem not_prefix_of_plainBase {base : String} (hbase : PlainBase base) (half : LoraHalf)
    {rest tail : List Char} (hrest : rest <:+ base.toList) (hne : rest ≠ []) :
    ¬half.suffix.toList <+: rest ++ '.' :: tail := by
  intro h
  have hsplit : ∃ name, half.suffix.toList = '.' :: name ∧ "lora_".toList <+: name := by
    cases half
    · exact ⟨_, rfl, by decide⟩
    · exact ⟨_, rfl, by decide⟩
  obtain ⟨name, hname, hlora⟩ := hsplit
  rcases rest with _ | ⟨c, rest⟩
  · exact hne rfl
  · rw [hname] at h
    have hmore : "lora_".toList <+: rest ++ '.' :: tail :=
      hlora.trans (List.cons_prefix_cons.mp h).2
    have hin : "lora_".toList <+: rest := prefix_of_prefix_append_cons (by decide) hmore
    have hbaseInfix : "lora_".toList <:+: base.toList :=
      hin.isInfix.trans ((List.suffix_cons c rest).trans hrest).isInfix
    exact Bool.eq_false_iff.mp hbase (occursIn_iff.mpr hbaseInfix)

theorem removeAll_suffix_loraKey {base : String} (hbase : PlainBase base)
    (half half' : LoraHalf) :
    removeAll half.suffix.toList (base.toList ++ half'.suffix.toList) =
      base.toList ++ removeAll half.suffix.toList half'.suffix.toList := by
  obtain ⟨tail, htail⟩ := exists_toList_suffix half'
  rw [htail]
  exact removeAll_append fun _ hrest hne => not_prefix_of_plainBase hbase half hrest hne

theorem removeAll_suffix_plain {base : String} (hbase : PlainBase base) (half : LoraHalf) :
    removeAll half.suffix.toList base.toList = base.toList := by
  refine removeAll_of_not_in fun h => Bool.eq_false_iff.mp hbase (occursIn_iff.mpr ?_)
  refine List.IsInfix.trans ?_ h
  cases half
  · exact occursIn_iff.mp (by decide)
  · exact occursIn_iff.mp (by decide)

theorem removeAll_suffix_suffix (half half' : LoraHalf) :
    removeAll half.suffix.toList half'.suffix.toList =
      if half = half' then [] else half'.suffix.toList := by
  cases half <;> cases half' <;> decide

/-- Stripping a key gives its base. -/
theorem baseKey_loraKey {base : String} (hbase : PlainBase base) (half : LoraHalf) :
    baseKey (loraKey base half) = base := by
  have hstrip : removeAll (LoraHalf.suffix .b).toList
      (removeAll (LoraHalf.suffix .a).toList (base.toList ++ half.suffix.toList)) =
        base.toList := by
    rw [removeAll_suffix_loraKey hbase, removeAll_suffix_suffix]
    cases half with
    | a =>
      rw [if_pos rfl, List.append_nil]
      exact removeAll_suffix_plain hbase .b
    | b =>
      rw [if_neg (by decide), removeAll_suffix_loraKey hbase, removeAll_suffix_suffix,
        if_pos rfl, List.append_nil]
  unfold baseKey
  rw [toList_loraKey, hstrip, String.ofList_toList]

/-- A key determines its base and its half. -/
theorem loraKey_inj {base base' : String} {half half' : LoraHalf}
    (h : loraKey base half = loraKey base' half') : base = base' ∧ half = half' := by
  have hlist : base.toList ++ half.suffix.toList = base'.toList ++ half'.suffix.toList := by
    rw [← toList_loraKey, h, toList_loraKey]
  have hlength : half.suffix.toList.length = half'.suffix.toList.length := by
    cases half <;> cases half' <;> decide
  obtain ⟨hbase, hsuffix⟩ := List.append_inj' hlist hlength
  refine ⟨String.toList_inj.mp hbase, ?_⟩
  by_contra hne
  revert hsuffix
  cases half <;> cases half' <;> first | exact absurd rfl hne | decide

/-! ### The layer of a key -/

theorem takeWhile_isDigit_append (left right : List Char) :
    (left ++ '.' :: right).takeWhile Char.isDigit = left.takeWhile Char.isDigit := by
  induction left with
  | nil => rfl
  | cons c left ih => rw [List.cons_append, List.takeWhile_cons, List.takeWhile_cons, ih]

theorem head?_dropWhile_isDigit_append (left right right' : List Char) :
    ((left ++ '.' :: right).dropWhile Char.isDigit).head? =
      ((left ++ '.' :: right').dropWhile Char.isDigit).head? := by
  induction left with
  | nil => rfl
  | cons c left ih =>
    rw [List.cons_append, List.cons_append, List.dropWhile_cons, List.dropWhile_cons]
    by_cases hc : c.isDigit = true
    · rw [if_pos hc, if_pos hc]
      exact ih
    · rw [if_neg hc, if_neg hc]
      rfl

/-- A number at the front of a text is read before the first dot. -/
theorem matchNumber_append (left right right' : List Char) :
    matchNumber (left ++ '.' :: right) = matchNumber (left ++ '.' :: right') := by
  unfold matchNumber
  rw [takeWhile_isDigit_append, takeWhile_isDigit_append,
    head?_dropWhile_isDigit_append left right right']

theorem matchNumber_cons_of_not_digit {c : Char} (hc : c.isDigit = false) (text : List Char) :
    matchNumber (c :: text) = none := by
  unfold matchNumber
  rw [List.takeWhile_cons, hc]
  simp

theorem matchDotted_append {c : Char} (hc : c.isDigit = false) (left right right' : List Char) :
    matchDotted (left ++ '.' :: c :: right) = matchDotted (left ++ '.' :: c :: right') := by
  unfold matchDotted
  rcases left with _ | ⟨d, left⟩
  · show (if _ then matchNumber (c :: right) else _) = if _ then matchNumber (c :: right') else _
    rw [matchNumber_cons_of_not_digit hc, matchNumber_cons_of_not_digit hc]
    rfl
  · show (if _ then matchNumber (left ++ '.' :: c :: right) else _) =
      if _ then matchNumber (left ++ '.' :: c :: right') else _
    rw [matchNumber_append left (c :: right) (c :: right')]
    rfl

/-- What follows a dot and a letter does not matter to a match before it. -/
theorem matchNamed_append {name : String} {c : Char} (hdot : '.' ∉ name.toList)
    (hc : c.isDigit = false) (left right right' : List Char) :
    matchNamed (left ++ '.' :: c :: right) name = matchNamed (left ++ '.' :: c :: right') name := by
  have hbegins : ∀ tail, name.toList.isPrefixOf (left ++ '.' :: tail) = true ↔
      name.toList <+: left := by
    intro tail
    rw [List.isPrefixOf_iff_prefix]
    exact ⟨prefix_of_prefix_append_cons hdot, fun h => h.trans (List.prefix_append _ _)⟩
  unfold matchNamed
  by_cases h : name.toList <+: left
  · rw [if_pos ((hbegins _).mpr h), if_pos ((hbegins _).mpr h)]
    obtain ⟨rest, hrest⟩ := h
    rw [← hrest, List.append_assoc, List.append_assoc, List.drop_left, List.drop_left]
    exact matchDotted_append hc rest right right'
  · rw [if_neg fun hp => h ((hbegins _).mp hp), if_neg fun hp => h ((hbegins _).mp hp)]

theorem findSome?_congr {α β : Type} {f g : α → Option β} : ∀ {l : List α},
    (∀ a ∈ l, f a = g a) → l.findSome? f = l.findSome? g := by
  intro l
  induction l with
  | nil => exact fun _ => rfl
  | cons a l ih =>
    intro h
    rw [List.findSome?_cons, List.findSome?_cons, h a List.mem_cons_self,
      ih fun b hb => h b (List.mem_cons_of_mem a hb)]

/-- Texts that agree up to a dot and a letter, and match nowhere after it, name
the same layer. -/
theorem searchLayer_append {names : List String} {c : Char}
    (hdot : ∀ name ∈ names, '.' ∉ name.toList) (hc : c.isDigit = false)
    {right right' : List Char}
    (htail : searchLayer names ('.' :: c :: right) = searchLayer names ('.' :: c :: right')) :
    ∀ left : List Char, searchLayer names (left ++ '.' :: c :: right) =
      searchLayer names (left ++ '.' :: c :: right') := by
  intro left
  induction left with
  | nil => exact htail
  | cons d left ih =>
    have hhead : names.findSome? (matchNamed (d :: left ++ '.' :: c :: right)) =
        names.findSome? (matchNamed (d :: left ++ '.' :: c :: right')) :=
      findSome?_congr fun name hname => matchNamed_append (hdot name hname) hc _ _ _
    unfold searchLayer at ih ⊢
    rw [List.cons_append, List.tails_cons, List.findSome?_cons, List.cons_append,
      List.tails_cons, List.findSome?_cons, ← List.cons_append, ← List.cons_append, hhead, ih]

/-- Both keys of a pair name the same layer, for names that no suffix has. -/
theorem searchLayer_loraKey {names : List String} (hdot : ∀ name ∈ names, '.' ∉ name.toList)
    (hnone : ∀ half : LoraHalf, searchLayer names half.suffix.toList = none) (base : String)
    (half half' : LoraHalf) :
    searchLayer names (loraKey base half).toList =
      searchLayer names (loraKey base half').toList := by
  have hsplit : ∀ half : LoraHalf, ∃ right, half.suffix.toList = '.' :: 'l' :: right := by
    intro half
    cases half
    · exact ⟨_, rfl⟩
    · exact ⟨_, rfl⟩
  obtain ⟨right, hright⟩ := hsplit half
  obtain ⟨right', hright'⟩ := hsplit half'
  rw [toList_loraKey, toList_loraKey, hright, hright']
  refine searchLayer_append hdot (by decide) ?_ base.toList
  rw [← hright, ← hright', hnone half, hnone half']

theorem layerPattern_loraKey (base : String) (half half' : LoraHalf) :
    layerPattern (loraKey base half) = layerPattern (loraKey base half') := by
  refine searchLayer_loraKey (by decide) (fun half => ?_) base half half'
  cases half
  · decide
  · decide
