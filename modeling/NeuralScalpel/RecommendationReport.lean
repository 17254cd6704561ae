/-
The recommended alphas, read back.

The report prints its map as items `module=alpha` and appends an item for
`down_proj`, after a comma, when the map has none.

* `readFloat_decimalText` — the parser reads a printed alpha;
* `read_itemText` — and the item of a plain name;
* `splitOn_alphaMapText` — the text of a map that is not empty is its items;
* `parse_alphaMapText_iff` — exactly when the parser gives the map.

Numbers are exact.
-/
import NeuralScalpel.AlphaRecommender
import NeuralScalpel.MalformedAlphaMap

/-! ### Numbers -/

theorem digitValue_eq (digits : List Char) : digitValue digits = Nat.ofDigitChars 10 digits 0 := rfl

/-- Digits do not separate. -/
theorem not_mem_of_isDigit {digits : List Char} {c : Char}
    (hdigits : ∀ d ∈ digits, d.isDigit = true) (hc : c.isDigit = false) : c ∉ digits := by
  intro hmem
  rw [hdigits c hmem] at hc
  cases hc

theorem readDigits_of_isDigit {digits : List Char} (hne : digits ≠ [])
    (hdigits : ∀ d ∈ digits, d.isDigit = true) : readDigits digits = some digits := by
  unfold readDigits
  rw [List.splitOn_eq_singleton (not_mem_of_isDigit hdigits (by decide))]
  have hall : digits.all Char.isDigit = true := List.all_eq_true.mpr hdigits
  have hsome : digits.isEmpty = false := by
    rw [List.isEmpty_eq_false_iff]
    exact hne
  simp [hall, hsome]

theorem readPart_of_isDigit {digits : List Char} (hdigits : ∀ d ∈ digits, d.isDigit = true) :
    readPart digits = .ok digits := by
  unfold readPart
  by_cases hempty : digits = []
  · rw [hempty]
    rfl
  · rw [readDigits_of_isDigit hempty hdigits, if_neg (by simpa using hempty)]

theorem isDigit_of_mem_wholeDigits {places n : ℕ} {c : Char} (h : c ∈ wholeDigits places n) :
    c.isDigit = true :=
  Nat.isDigit_of_mem_toDigits (by decide) (by decide) h

theorem isDigit_of_mem_fractionDigits {places n : ℕ} {c : Char}
    (h : c ∈ fractionDigits places n) : c.isDigit = true := by
  obtain ⟨zeros, hzeros⟩ := exists_trimFraction_append (fixedDigits places n)
  have hmem : c ∈ fixedDigits places n := by
    rw [hzeros]
    exact List.mem_append_left _ h
  exact isDigit_of_mem_fixedDigits hmem

/-- A property of the ten digits. -/
theorem forall_isDigit {P : Char → Prop} (h : ∀ n < 10, P (Char.ofNat (48 + n))) {c : Char}
    (hc : c.isDigit = true) : P c := by
  simp only [Char.isDigit, ge_iff_le, Bool.and_eq_true, decide_eq_true_eq,
    UInt32.le_iff_toNat_le] at hc
  have hlow : 48 ≤ c.toNat := hc.1
  have hhigh : c.toNat ≤ 57 := hc.2
  have hP := h (c.toNat - 48) (by omega)
  rwa [Nat.add_sub_cancel' hlow, Char.ofNat_toNat] at hP

theorem isSpace_of_isDigit {c : Char} (hc : c.isDigit = true) : isSpace c = false :=
  forall_isDigit (P := fun c => isSpace c = false) (by decide) hc

theorem toLower_of_isDigit {c : Char} (hc : c.isDigit = true) : c.toLower = c :=
  forall_isDigit (P := fun c => c.toLower = c) (by decide) hc

/-- The characters of a printed alpha. -/
theorem mem_decimalText {places n : ℕ} {c : Char} (h : c ∈ decimalText places n) :
    c.isDigit = true ∨ c = '.' := by
  rcases List.mem_append.mp h with h | h
  · exact Or.inl (isDigit_of_mem_wholeDigits h)
  · rcases List.mem_cons.mp h with h | h
    · exact Or.inr h
    · exact Or.inl (isDigit_of_mem_fractionDigits h)

theorem isSpace_of_mem_decimalText {places n : ℕ} {c : Char} (h : c ∈ decimalText places n) :
    isSpace c = false := by
  rcases mem_decimalText h with h | rfl
  · exact isSpace_of_isDigit h
  · decide

theorem not_mem_decimalText {places n : ℕ} {c : Char} (hdigit : c.isDigit = false)
    (hpoint : c ≠ '.') : c ∉ decimalText places n := by
  intro h
  rcases mem_decimalText h with h | h
  · rw [hdigit] at h
    cases h
  · exact hpoint h

/-- Nothing is stripped from a text without space. -/
theorem strip_of_not_space {text : List Char} (h : ∀ c ∈ text, isSpace c = false) :
    strip text = text :=
  strip_of_ends (fun c hc => h c (List.mem_of_mem_head? hc))
    fun c hc => h c (List.mem_of_getLast? hc)

section

variable {S : Type} [Field S] [CharZero S]

theorem readMantissa_decimalText (n : ℕ) :
    readMantissa (decimalText 4 n) = .ok ((n : S) / ((10 : ℕ) : S) ^ 4) := by
  have hwhole : '.' ∉ wholeDigits 4 n :=
    not_mem_of_isDigit (fun d hd => isDigit_of_mem_wholeDigits hd) (by decide)
  have hfraction : '.' ∉ fractionDigits 4 n :=
    not_mem_of_isDigit (fun d hd => isDigit_of_mem_fractionDigits hd) (by decide)
  have hne : (wholeDigits 4 n).isEmpty = false := by
    rw [List.isEmpty_eq_false_iff]
    exact Nat.toDigits_ne_nil
  obtain ⟨zeros, hlength, hvalue⟩ := value_decimalText 4 n
  unfold readMantissa decimalText
  rw [List.splitOn_append_cons_self_of_not_mem hwhole, List.splitOn_eq_singleton hfraction]
  show (do
    let left ← readPart (wholeDigits 4 n)
    let right ← readPart (fractionDigits 4 n)
    if left.isEmpty && right.isEmpty then .error floatError
      else .ok ((digitValue (left ++ right) : S) / ((10 : ℕ) : S) ^ right.length)) = _
  rw [readPart_of_isDigit fun d hd => isDigit_of_mem_wholeDigits hd,
    readPart_of_isDigit fun d hd => isDigit_of_mem_fractionDigits hd]
  show (if (wholeDigits 4 n).isEmpty && (fractionDigits 4 n).isEmpty then _ else _) = _
  rw [hne, Bool.false_and, if_neg Bool.false_ne_true, digitValue_eq]
  -- the zeros that are not printed are missing on both sides of the line
  have hten : ((10 : ℕ) : S) ≠ 0 := Nat.cast_ne_zero.mpr (by decide)
  have hpow : ((10 : ℕ) : S) ^ 4 =
      ((10 : ℕ) : S) ^ (fractionDigits 4 n).length * ((10 : ℕ) : S) ^ zeros := by
    rw [← pow_add, hlength]
  have hcast : (Nat.ofDigitChars 10 (wholeDigits 4 n ++ fractionDigits 4 n) 0 : S) *
      ((10 : ℕ) : S) ^ zeros = n := by
    exact_mod_cast congrArg (Nat.cast (R := S)) hvalue
  refine congrArg Except.ok ?_
  rw [div_eq_div_iff (pow_ne_zero _ hten) (pow_ne_zero _ hten), hpow, ← hcast]
  ring

theorem readSign_of_isDigit {c : Char} {rest : List Char} (hc : c.isDigit = true) :
    readSign (c :: rest) = (false, c :: rest) := by
  unfold readSign
  split
  case h_1 heq =>
    cases heq
    cases hc
  case h_2 heq =>
    cases heq
    cases hc
  case h_3 => rfl

/-- The parser reads a printed alpha. -/
theorem readFloat_decimalText (n : ℕ) :
    readFloat (decimalText 4 n) = .ok ((n : S) / ((10 : ℕ) : S) ^ 4) := by
  have hsign : readSign (decimalText 4 n) = (false, decimalText 4 n) := by
    obtain ⟨d, ds, hwhole⟩ := List.exists_cons_of_ne_nil (Nat.toDigits_ne_nil (n := n / 10 ^ 4)
      (b := 10))
    have hd : d ∈ wholeDigits 4 n := by
      rw [wholeDigits, hwhole]
      exact List.mem_cons_self
    rw [decimalText, wholeDigits, hwhole]
    exact readSign_of_isDigit (isDigit_of_mem_wholeDigits hd)
  have hlower : (decimalText 4 n).map Char.toLower = decimalText 4 n := by
    refine (List.map_congr_left fun c hc => ?_).trans (List.map_id _)
    rcases mem_decimalText hc with hc | rfl
    · exact toLower_of_isDigit hc
    · rfl
  unfold readFloat
  rw [strip_of_not_space fun c hc => isSpace_of_mem_decimalText hc, hsign]
  simp only [hlower]
  rw [List.splitOn_eq_singleton (not_mem_decimalText (by decide) (by decide))]
  simp only [readMantissa_decimalText]
  rfl

end

/-! ### Maps -/

/-- No character of the name separates, or is space. -/
def Plain (name : String) : Prop :=
  ∀ c ∈ name.toList, c ≠ ',' ∧ c ≠ '=' ∧ c ≠ '.' ∧ isSpace c = false

instance (name : String) : Decidable (Plain name) := List.decidableBAll _ name.toList

namespace AlphaRecommender

section

variable {S : Type}

theorem nodup_map_module (recommendedMap : Dict String S) :
    ((recommendedMap.entries.map fun e => (AlphaKey.module e.1, e.2)).map Prod.fst).Nodup := by
  rw [List.map_map]
  have hnodup := recommendedMap.nodup.map (f := AlphaKey.module) fun _ _ h => AlphaKey.module.inj h
  rwa [List.map_map] at hnodup

/-- A map of modules, as the parser keeps it. -/
def asAlphaMap (recommendedMap : Dict String S) : Dict AlphaKey S :=
  ⟨recommendedMap.entries.map fun e => (.module e.1, e.2), nodup_map_module recommendedMap⟩

theorem storeAll_modules (recommendedMap : Dict String S) :
    storeAll (recommendedMap.entries.map fun e => AlphaItem.module e.1 e.2) =
      asAlphaMap recommendedMap := by
  have hwrites : storeAll (recommendedMap.entries.map fun e => AlphaItem.module e.1 e.2) =
      Dict.ofWrites (recommendedMap.entries.map fun e => (AlphaKey.module e.1, e.2)) := by
    unfold storeAll Dict.ofWrites
    rw [List.foldl_map, List.foldl_map]
    rfl
  rw [hwrites]
  exact Dict.ext (Dict.entries_ofWrites (nodup_map_module recommendedMap))

variable [Field S]

/-- The parser accepts a text whose items can be read. -/
theorem parseAlphaMap_of_items {raw : String} {items : List (AlphaItem S)}
    (h : readItems raw = .ok items) :
    parseAlphaMap (.ascii S) (some raw) = (storeAll items, none) := by
  unfold parseAlphaMap
  simp only [if_neg (isEmpty_of_readItems h)]
  rw [readAlphaMapBy_ascii, readAlphaMap_of_mapM _ h]
  rfl

/-- The number has four decimals and no sign. -/
def FourPlaces (x : S) : Prop := ∃ n : ℕ, x = (n : S) / ((10 : ℕ) : S) ^ 4

theorem fourPlaces_zero : FourPlaces (0 : S) := ⟨0, by rw [Nat.cast_zero, zero_div]⟩

/-- The map with `down_proj` at zero, when it says nothing of it. -/
def withDownProj (recommendedMap : Dict String S) : Dict String S :=
  if recommendedMap.contains "down_proj" then recommendedMap else recommendedMap.set "down_proj" 0

theorem entries_withDownProj_ne_nil {recommendedMap : Dict String S} :
    (withDownProj recommendedMap).entries ≠ [] := by
  intro hnil
  have hdown : (withDownProj recommendedMap).contains "down_proj" = true := by
    unfold withDownProj
    split_ifs with h
    · exact h
    · exact Dict.contains_set.mpr (Or.inl rfl)
  obtain ⟨x, hx⟩ := Dict.contains_iff.mp hdown
  have hmem := Dict.mem_entries_iff.mpr hx
  rw [hnil] at hmem
  exact List.not_mem_nil hmem

/-- Each alpha of the map has four decimals, and each name is plain. -/
def Printable (recommendedMap : Dict String S) : Prop :=
  ∀ e ∈ recommendedMap.entries, Plain e.1 ∧ FourPlaces e.2

theorem Printable.withDownProj {recommendedMap : Dict String S} (h : Printable recommendedMap) :
    Printable (withDownProj recommendedMap) := by
  unfold AlphaRecommender.withDownProj
  split_ifs with hdown
  · exact h
  · intro e he
    have hget := Dict.mem_entries_iff.mp he
    rw [Dict.get?_set] at hget
    by_cases hname : e.1 = "down_proj"
    · rw [if_pos hname, Option.some_inj] at hget
      rw [hname, ← hget]
      exact ⟨by decide, fourPlaces_zero⟩
    · rw [if_neg hname] at hget
      exact h e (Dict.mem_entries_iff.mpr hget)

end

/-! ### Items -/

section

variable {S : Type} [Field S] [LinearOrder S] [IsStrictOrderedRing S] [FloorRing S]

theorem ten_pow_pos : (0 : S) < ((10 : ℕ) : S) ^ 4 := by positivity

theorem roundHalfEven_natCast (n : ℕ) : roundHalfEven ((n : ℕ) : S) = (n : ℤ) :=
  le_antisymm (roundHalfEven_le (by rw [Int.cast_natCast]))
    (le_roundHalfEven (by rw [Int.cast_natCast]))

theorem fourPlaces_roundFour {x : S} (hx : 0 ≤ x) : FourPlaces (roundFour x) := by
  have hnonneg : 0 ≤ roundHalfEven (x * ((10 : ℕ) : S) ^ 4) :=
    roundHalfEven_nonneg (mul_nonneg hx ten_pow_pos.le)
  obtain ⟨n, hn⟩ := Int.eq_ofNat_of_zero_le hnonneg
  refine ⟨n, ?_⟩
  rw [roundFour, hn, Int.cast_natCast]

/-- A number with four decimals is printed as it is. -/
theorem toList_floatText {x : S} {n : ℕ} (hx : x = (n : S) / ((10 : ℕ) : S) ^ 4) :
    (floatText x).toList = decimalText 4 n := by
  have hscaled : x * ((10 : ℕ) : S) ^ 4 = (n : S) := by
    rw [hx, div_mul_cancel₀ _ ten_pow_pos.ne']
  rw [floatText, String.toList_ofList, hscaled, roundHalfEven_natCast, Int.toNat_natCast]

/-- The parser reads the item of a plain name. -/
theorem read_itemText {name : String} {x : S} (hname : Plain name) (hx : FourPlaces x) :
    AlphaItem.read (itemText (name, x)).toList = .ok (.module name x) := by
  obtain ⟨n, hn⟩ := hx
  have htext : (itemText (name, x)).toList = name.toList ++ '=' :: decimalText 4 n := by
    rw [itemText, String.toList_append, String.toList_append, toList_floatText hn,
      List.append_assoc]
    rfl
  have hequals : '=' ∉ name.toList := fun h => (hname _ h).2.1 rfl
  have hpoint : '.' ∉ name.toList := fun h => (hname _ h).2.2.1 rfl
  unfold AlphaItem.read
  rw [htext, List.splitOn_append_cons_self_of_not_mem hequals,
    List.splitOn_eq_singleton (not_mem_decimalText (by decide) (by decide))]
  simp only
  rw [strip_of_not_space fun c hc => isSpace_of_mem_decimalText hc, readFloat_decimalText,
    strip_of_not_space fun c hc => (hname c hc).2.2.2, List.splitOn_eq_singleton hpoint, ← hn]
  show Except.ok (AlphaItem.module (String.ofList name.toList) x) = _
  rw [String.ofList_toList]

theorem not_mem_itemText {name : String} {x : S} (hname : Plain name) (hx : FourPlaces x) :
    ',' ∉ (itemText (name, x)).toList := by
  obtain ⟨n, hn⟩ := hx
  rw [itemText, String.toList_append, String.toList_append, toList_floatText hn]
  intro hmem
  rcases List.mem_append.mp hmem with hmem | hmem
  · rcases List.mem_append.mp hmem with hmem | hmem
    · exact (hname _ hmem).1 rfl
    · exact absurd hmem (by decide)
  · exact not_mem_decimalText (by decide) (by decide) hmem

/-! ### The text of a map -/

/-- Its text is the text of the map, when that is not empty. -/
theorem alphaMapText_eq {recommendedMap : Dict String S} (hne : recommendedMap.entries ≠ []) :
    alphaMapText recommendedMap =
      ",".intercalate ((withDownProj recommendedMap).entries.map itemText) := by
  unfold alphaMapText withDownProj
  split_ifs with hdown
  · exact String.append_empty
  · have hnot : "down_proj" ∉ recommendedMap.entries.map Prod.fst := fun h =>
      hdown (Dict.mem_keys_iff.mp h)
    have hzero : itemText ("down_proj", (0 : S)) = "down_proj=0.0" := by
      have hx : (0 : S) = ((0 : ℕ) : S) / ((10 : ℕ) : S) ^ 4 := by
        rw [Nat.cast_zero, zero_div]
      rw [← String.toList_inj, itemText, String.toList_append, toList_floatText hx]
      show ("down_proj" ++ "=").toList ++ decimalText 4 0 = _
      decide
    show _ = ",".intercalate ((Dict.setEntries _ _ recommendedMap.entries).map itemText)
    rw [Dict.setEntries_of_not_mem hnot, List.map_append, List.map_singleton,
      String.intercalate_append_of_ne_nil (by simpa using hne) (List.cons_ne_nil _ _),
      String.intercalate_singleton, hzero, String.append_assoc]
    rfl

theorem mapM_itemText : ∀ {entries : List (String × S)},
    (∀ e ∈ entries, Plain e.1 ∧ FourPlaces e.2) →
      (entries.map fun e => (itemText e).toList).mapM AlphaItem.read =
        .ok (entries.map fun e => AlphaItem.module e.1 e.2) := by
  intro entries
  induction entries with
  | nil => exact fun _ => rfl
  | cons e rest ih =>
    intro h
    have he := h e List.mem_cons_self
    rw [List.map_cons, List.mapM_cons, read_itemText he.1 he.2,
      ih fun e he => h e (List.mem_cons_of_mem _ he)]
    rfl

/-- The parser reads the items of a map. -/
theorem readItems_intercalate {recommendedMap : Dict String S} (h : Printable recommendedMap)
    (hne : recommendedMap.entries ≠ []) :
    readItems (",".intercalate (recommendedMap.entries.map itemText)) =
      .ok (recommendedMap.entries.map fun e => .module e.1 e.2) := by
  have hsplit : (",".intercalate (recommendedMap.entries.map itemText)).toList.splitOn ',' =
      recommendedMap.entries.map fun e => (itemText e).toList := by
    rw [String.toList_intercalate, List.map_map]
    refine List.splitOn_intercalate ',' ?_ (by simpa using hne)
    intro piece hpiece
    obtain ⟨e, he, rfl⟩ := List.mem_map.mp hpiece
    exact not_mem_itemText (h e he).1 (h e he).2
  unfold readItems
  rw [hsplit]
  exact mapM_itemText h

/-! ### Parsing the text -/

/-- The parser reads the text of a map that is not empty. -/
theorem parse_alphaMapText {recommendedMap : Dict String S} (h : Printable recommendedMap)
    (hne : recommendedMap.entries ≠ []) :
    parseAlphaMap (.ascii S) (some (alphaMapText recommendedMap)) =
      (asAlphaMap (withDownProj recommendedMap), none) := by
  rw [alphaMapText_eq hne, parseAlphaMap_of_items (readItems_intercalate h.withDownProj
    entries_withDownProj_ne_nil), storeAll_modules]

omit [IsStrictOrderedRing S] in
theorem alphaMapText_empty : alphaMapText (.empty : Dict String S) = ",down_proj=0.0" := rfl

omit [IsStrictOrderedRing S] in
/-- The text of the empty map begins with a comma, before which there is no item. -/
theorem parse_alphaMapText_empty :
    parseAlphaMap (.ascii S) (some (alphaMapText (.empty : Dict String S))) =
      (.empty, some AlphaItem.unpackError) := by
  rw [alphaMapText_empty]
  rfl

/-! ### The report -/

theorem clamp_clampRange_nonneg (budgets : AlphaBudgets S) (budget x : S) :
    0 ≤ clamp (clampRange budgets budget) x := by
  have hlo : (0 : S) ≤ (clampRange budgets budget).1 := by
    rcases clampRange_cases budgets budget with h | h
    · rw [h]
      norm_num
    · rw [h]
      norm_num
  exact hlo.trans (le_min (le_max_right _ _) (clampRange_le _ _))

theorem fourPlaces_reportAlpha {budgets : AlphaBudgets S} {alphas stats : Dict String S}
    {mType : String} {x : S} (h : reportAlpha budgets alphas mType stats = .ok x) :
    FourPlaces x := by
  unfold reportAlpha at h
  rcases hratio : stats.get? "p90_norm_ratio" with _ | ratio
  · rw [hratio] at h
    cases h
  · simp only [hratio] at h
    split_ifs at h with hdown
    · cases h
      exact fourPlaces_zero
    · obtain ⟨quotient, -, hx⟩ := Effect.bind_eq_ok.mp h
      cases hx
      exact fourPlaces_roundFour (clamp_clampRange_nonneg _ _ _)

omit [IsStrictOrderedRing S] in
/-- Metadata is passed over; any other entry gets an alpha. -/
theorem reportEntry_ok {budgets : AlphaBudgets S} {alphas stats : Dict String S}
    {mType : String} {o : Option S} (h : reportEntry budgets alphas mType stats = .ok o) :
    (mType = "_metadata" ∧ o = none) ∨
      (mType ≠ "_metadata" ∧ ∃ x, reportAlpha budgets alphas mType stats = .ok x ∧ o = some x) := by
  unfold reportEntry at h
  split_ifs at h with hname
  · cases h
    exact Or.inl ⟨hname, rfl⟩
  · refine Or.inr ⟨hname, ?_⟩
    revert h
    rcases reportAlpha budgets alphas mType stats with e | x
    · intro h
      cases h
    · intro h
      cases h
      exact ⟨x, rfl, rfl⟩

variable {metricsSummary : Dict String (Dict String S)} {currentAlphaMap : Dict String S}
  {size : String} {recommendedMap : Dict String S} {text : String}

omit [IsStrictOrderedRing S] in
theorem generateRecommendationReport_ok
    (h : generateRecommendationReport metricsSummary currentAlphaMap size =
      .ok (recommendedMap, text)) :
    Dict.fill (reportEntry (budgetsFor size) currentAlphaMap) metricsSummary.entries .empty =
        .ok recommendedMap ∧
      text = alphaMapText recommendedMap := by
  obtain ⟨d, hfill, hd⟩ := Effect.bind_eq_ok.mp h
  cases hd
  exact ⟨hfill, rfl⟩

/-- What the report returns can be printed. -/
theorem printable_report (hnames : ∀ name ∈ metricsSummary.keys, Plain name)
    (h : generateRecommendationReport metricsSummary currentAlphaMap size =
      .ok (recommendedMap, text)) : Printable recommendedMap := by
  intro e he
  obtain ⟨hfill, -⟩ := generateRecommendationReport_ok h
  obtain ⟨stats, hstats, hentry⟩ := (Dict.get?_fill hfill).mp (Dict.mem_entries_iff.mp he)
  refine ⟨hnames e.1 (Dict.mem_keys_iff.mpr (Dict.contains_iff.mpr ⟨stats, hstats⟩)), ?_⟩
  rcases reportEntry_ok hentry with ⟨-, hnone⟩ | ⟨-, x, hx, heq⟩
  · cases hnone
  · cases heq
    exact fourPlaces_reportAlpha hx

omit [IsStrictOrderedRing S] in
/-- The report has an entry when the summary has one that is not metadata. -/
theorem entries_report_ne_nil_iff
    (h : generateRecommendationReport metricsSummary currentAlphaMap size =
      .ok (recommendedMap, text)) :
    recommendedMap.entries ≠ [] ↔ ∃ name ∈ metricsSummary.keys, name ≠ "_metadata" := by
  obtain ⟨hfill, -⟩ := generateRecommendationReport_ok h
  constructor
  · intro hne
    obtain ⟨e, rest, hentries⟩ := List.exists_cons_of_ne_nil hne
    have he : e ∈ recommendedMap.entries := by
      rw [hentries]
      exact List.mem_cons_self
    obtain ⟨stats, hstats, hentry⟩ := (Dict.get?_fill hfill).mp (Dict.mem_entries_iff.mp he)
    refine ⟨e.1, Dict.mem_keys_iff.mpr (Dict.contains_iff.mpr ⟨stats, hstats⟩), ?_⟩
    rcases reportEntry_ok hentry with ⟨-, hnone⟩ | ⟨hname, -⟩
    · cases hnone
    · exact hname
  · rintro ⟨name, hmem, hname⟩ hnil
    obtain ⟨stats, hstats⟩ := Dict.contains_iff.mp (Dict.mem_keys_iff.mp hmem)
    obtain ⟨o, ho⟩ := Dict.fill_ok_iff.mp ⟨_, hfill⟩ name stats (Dict.mem_entries_iff.mpr hstats)
    rcases reportEntry_ok ho with ⟨hmeta, -⟩ | ⟨-, x, -, rfl⟩
    · exact hname hmeta
    · have hin := Dict.mem_entries_iff.mpr ((Dict.get?_fill hfill).mpr ⟨stats, hstats, ho⟩)
      rw [hnil] at hin
      exact List.not_mem_nil hin

/-- The parser gives the map of the report exactly when the summary has an entry
that is not metadata. -/
theorem parse_alphaMapText_iff (hnames : ∀ name ∈ metricsSummary.keys, Plain name)
    (h : generateRecommendationReport metricsSummary currentAlphaMap size =
      .ok (recommendedMap, text)) :
    parseAlphaMap (.ascii S) (some text) = (asAlphaMap (withDownProj recommendedMap), none) ↔
      ∃ name ∈ metricsSummary.keys, name ≠ "_metadata" := by
  obtain ⟨-, rfl⟩ := generateRecommendationReport_ok h
  rw [← entries_report_ne_nil_iff h]
  constructor
  · intro hparse hnil
    obtain rfl : recommendedMap = .empty := Dict.ext hnil
    rw [parse_alphaMapText_empty] at hparse
    cases hparse
  · exact parse_alphaMapText (printable_report hnames h)

/-- One module, of whose norm ratio the ninetieth percentile is one hundredth. -/
def qProjSummary : Dict String (Dict String ℚ) :=
  Dict.empty.set "q_proj" (Dict.empty.set "p90_norm_ratio" 0.01)

theorem parse_alphaMapText_qProj :
    parseAlphaMap (.ascii ℚ) (some "q_proj=3.2,down_proj=0.0") =
        (asAlphaMap (withDownProj (Dict.empty.set "q_proj" 3.2)), none) ↔
      ∃ name ∈ qProjSummary.keys, name ≠ "_metadata" := by
  have hreport : generateRecommendationReport qProjSummary .empty "0.5B" =
      .ok (Dict.empty.set "q_proj" 3.2, "q_proj=3.2,down_proj=0.0") := by decide +kernel
  have hnames : ∀ name ∈ qProjSummary.keys, Plain name := by decide
  exact parse_alphaMapText_iff hnames hreport

/-- The report of an empty summary is not parsed. -/
theorem parse_report_empty :
    generateRecommendationReport (.empty : Dict String (Dict String ℚ)) .empty "0.5B" =
        .ok (.empty, ",down_proj=0.0") ∧
      parseAlphaMap (.ascii ℚ) (some ",down_proj=0.0") = (.empty, some AlphaItem.unpackError) ∧
      parseAlphaMap (.ascii ℚ) (some ",down_proj=0.0") ≠
        (asAlphaMap (withDownProj .empty), none) := by
  decide +kernel

end

end AlphaRecommender
