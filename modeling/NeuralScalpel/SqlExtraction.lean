/-
Taking a statement out of generated text.

Without a fence around it a statement begins at the first of seven keywords
and ends before a pattern that starts something else, or after a semicolon.
Keywords and patterns are looked for in an upper-case copy, and the places
found there are used in the text itself, where characters with a longer upper
case, or one that makes a keyword, have moved them.

* `extractSql` — the statement;
* `ExtractsStatement` — what it should be;
* `IndicesAgree` — places in the copy and in the text agree;
* `extractsStatement_iff` — exactly when the statement is what it should be;
* `extractsStatement_ascii` — it always is for ASCII texts.
-/
import NeuralScalpel.AlphaMap
import NeuralScalpel.Finding

/-! ### The extraction -/

def sqlFence : List Char := "```sql\n".toList

def plainFence : List Char := "```\n".toList

def startKeywords : List (List Char) :=
  ["SELECT".toList, "WITH".toList, "UPDATE".toList, "INSERT".toList, "DELETE".toList,
    "CREATE".toList, "DROP".toList]

def stopPatterns : List (List Char) :=
  ["\nSQL:".toList, "\nTABLE:".toList, "\nOUTPUT:".toList, "\n\n".toList, "```".toList]

/-- What is known of upper case and of matching without case. -/
structure TextCasing where
  /-- The upper case of a character, which may be several. -/
  upper : Char → List Char
  /-- A character of a pattern matches one of a text, ignoring case. -/
  ignoring : Char → Char → Bool
  upper_ascii : ∀ c, c.toNat < 128 → upper c = [c.toUpper]
  ignoring_ascii : ∀ c d, c.toNat < 128 → d.toNat < 128 →
    ignoring c d = (c.toUpper == d.toUpper)

namespace TextCasing

variable (casing : TextCasing)

/-- `text.upper()`. -/
def upperText (text : List Char) : List Char := text.flatMap casing.upper

/-- A text begins with a pattern, ignoring case. -/
def begins : List Char → List Char → Bool
  | [], _ => true
  | _ :: _, [] => false
  | p :: ps, c :: cs => casing.ignoring p c && begins ps cs

/-- What stands between an opening fence and the next closing one. -/
def searchFence (opening : List Char) : List Char → Option (List Char)
  | [] => none
  | c :: cs =>
    if casing.begins opening (c :: cs) then
      match findIn "\n```".toList ((c :: cs).drop opening.length) with
      | some i => some (((c :: cs).drop opening.length).take i)
      | none => searchFence opening cs
    else searchFence opening cs

/-- `min_stop`. -/
def minStop (snippet : List Char) : ℕ :=
  stopPatterns.foldl (fun stop pattern =>
    match findIn pattern (casing.upperText snippet) with
    | some i => if i < stop then i else stop
    | none => stop) snippet.length

/-- The part up to the stop, without space around it. -/
def stoppedAt (snippet : List Char) : List Char := strip (snippet.take (casing.minStop snippet))

/-- `extract_sql`. -/
def extractSql (text : List Char) : List Char :=
  match casing.searchFence sqlFence text with
  | some block => strip block
  | none =>
    match casing.searchFence plainFence text with
    | some block => strip block
    | none =>
      let textClean := strip text
      match earliest startKeywords (casing.upperText textClean) with
      | some bestStart =>
        let snippet := casing.stoppedAt (textClean.drop bestStart)
        match findIn [';'] snippet with
        | some semi => strip (snippet.take (semi + 1))
        | none => strip snippet
      | none => textClean

/-- Where the part that is returned begins in the stripped text. -/
def extractStart (text : List Char) : Option ℕ :=
  (earliest startKeywords (casing.upperText (strip text))).map fun bestStart =>
    let snippet := (strip text).drop bestStart
    bestStart + ((snippet.take (casing.minStop snippet)).takeWhile isSpace).length

end TextCasing

/-! ### What it should do -/

/-- Upper case of ASCII letters only. -/
def asciiUpper (text : List Char) : List Char := text.map Char.toUpper

/-- Nothing but space. -/
def Blank (text : List Char) : Prop := ∀ c ∈ text, isSpace c = true

namespace TextCasing

variable (casing : TextCasing)

/-- The part that is returned begins at a place of the stripped text, has no
stop pattern and no semicolon but at its end. -/
structure ExtractsStatement (text : List Char) (start : ℕ) : Prop where
  start_eq : casing.extractStart text = some start
  part : casing.extractSql text <+: (strip text).drop start
  nonempty : casing.extractSql text ≠ []
  noStop : ∀ p ∈ stopPatterns, ¬p <:+: asciiUpper (casing.extractSql text)
  semicolon : ∀ i, (casing.extractSql text)[i]? = some ';' → i + 1 = (casing.extractSql text).length

/-- A text is cut at the first stop pattern of its upper-case copy, or at its end. -/
structure CutAt (snippet : List Char) (stop : ℕ) : Prop where
  le : stop ≤ snippet.length
  before : ∀ j < stop, ∀ p ∈ stopPatterns, ¬p <+: (casing.upperText snippet).drop j
  here : stop < snippet.length → ∃ p ∈ stopPatterns, p <+: (casing.upperText snippet).drop stop

/-- A stop pattern that a semicolon comes before, or that only space follows. -/
def Harmless (part : List Char) (i : ℕ) : Prop := ';' ∈ part.take i ∨ Blank (part.drop i)

/-- The places in the upper-case copy are, but for space, those in the text. -/
def IndicesAgree (clean : List Char) (start : ℕ) : Prop :=
  ∃ first stop, FirstAt startKeywords (casing.upperText clean) first ∧
    casing.CutAt (clean.drop first) stop ∧
    first ≤ start ∧ start < first + stop ∧ Blank ((clean.take start).drop first) ∧
    ∀ p ∈ stopPatterns, ∀ i, p <+: (asciiUpper ((clean.take (first + stop)).drop start)).drop i →
      Harmless ((clean.take (first + stop)).drop start) i

end TextCasing

/-! ### Space -/

theorem head?_strip {text : List Char} {c : Char} (h : (strip text).head? = some c) :
    isSpace c = false := by
  obtain ⟨rest, hrest⟩ := List.rdropWhile_prefix isSpace (text.dropWhile isSpace)
  have hhead : (text.dropWhile isSpace).head? = some c := by
    rw [← hrest, List.head?_append, ← strip_eq, h, Option.some_or]
  have hnot := List.head?_dropWhile_not isSpace text
  rw [hhead] at hnot
  exact hnot

theorem getLast?_strip {text : List Char} {c : Char} (h : (strip text).getLast? = some c) :
    isSpace c = false := by
  have hne : strip text ≠ [] := by
    intro hnil
    rw [hnil] at h
    cases h
  rw [List.getLast?_eq_some_getLast hne, Option.some_inj] at h
  have hnot := List.rdropWhile_last_not isSpace (text.dropWhile isSpace) hne
  rw [← h]
  exact Bool.eq_false_iff.mpr hnot

theorem isSpace_toUpper (c : Char) : isSpace c.toUpper = isSpace c := by
  by_cases hlower : 97 ≤ c.toNat ∧ c.toNat ≤ 122
  · have hletters : ∀ n < 123, 97 ≤ n →
        isSpace (Char.ofNat n).toUpper = isSpace (Char.ofNat n) := by
      decide
    have hletter := hletters c.toNat (by omega) hlower.1
    rwa [Char.ofNat_toNat] at hletter
  · have hsame : c.toUpper = c :=
      dif_neg fun h => hlower h
    rw [hsame]

/-- A semicolon cuts the part, and so does the space at its end. -/
theorem strip_take_semi {text : List Char} {i : ℕ} (h : (strip text)[i]? = some ';') :
    strip ((strip text).take (i + 1)) = (strip text).take (i + 1) := by
  have hlt : i < (strip text).length := (List.getElem?_eq_some_iff.mp h).1
  refine strip_of_ends (fun c hc => ?_) fun c hc => ?_
  · rw [List.head?_take, if_neg (Nat.succ_ne_zero i)] at hc
    exact head?_strip hc
  · have hlast : ((strip text).take (i + 1)).getLast? = some ';' := by
      rw [List.getLast?_eq_getElem?, List.length_take, Nat.min_eq_left hlt,
        List.getElem?_take_of_lt (by omega), Nat.succ_sub_one, h]
    rw [hlast, Option.some_inj] at hc
    subst hc
    decide

theorem strip_strip (text : List Char) : strip (strip text) = strip text :=
  strip_of_ends (fun _ hc => head?_strip hc) fun _ hc => getLast?_strip hc

/-- The last steps of the extraction. -/
theorem upTo_strip (text : List Char) :
    (match findIn [';'] (strip text) with
      | some semi => strip ((strip text).take (semi + 1))
      | none => strip (strip text)) = upTo ';' (strip text) := by
  unfold upTo
  rcases hfind : findIn [';'] (strip text) with _ | i
  · exact strip_strip text
  · have hat := ((findIn_eq_some_iff (findIn_le_length hfind)).mp hfind).1
    exact strip_take_semi (singleton_prefix_drop.mp hat)

/-! ### Stop patterns -/

/-- A pattern is all space, or does not end in space. -/
theorem stopPattern_space {p : List Char} (hp : p ∈ stopPatterns) :
    (∀ c ∈ p, isSpace c = true) ∨ ∀ c, p.getLast? = some c → isSpace c = false := by
  have hall : ∀ p ∈ stopPatterns,
      p.all isSpace = true ∨ p.getLast?.all (fun c => !isSpace c) = true := by
    decide
  rcases hall p hp with h | h
  · exact Or.inl (List.all_eq_true.mp h)
  · refine Or.inr fun c hc => ?_
    rw [hc] at h
    simpa using h

theorem stopPattern_ne_nil {p : List Char} (hp : p ∈ stopPatterns) : p ≠ [] := by
  have hall : ∀ p ∈ stopPatterns, p ≠ [] := by decide
  exact hall p hp

theorem semicolon_not_mem_stopPattern {p : List Char} (hp : p ∈ stopPatterns) : ';' ∉ p := by
  have hall : ∀ p ∈ stopPatterns, ';' ∉ p := by decide
  exact hall p hp

/-- The characters of a part where a pattern occurs in its upper case. -/
theorem getElem?_of_occurs {p part : List Char} {i k : ℕ} {c : Char}
    (h : p <+: (asciiUpper part).drop i) (hk : p[k]? = some c) :
    ∃ d, part[i + k]? = some d ∧ d.toUpper = c := by
  obtain ⟨rest, hrest⟩ := h
  have hlt : k < p.length := (List.getElem?_eq_some_iff.mp hk).1
  have hat : ((asciiUpper part).drop i)[k]? = some c := by
    rw [← hrest, List.getElem?_append_left hlt, hk]
  rw [List.getElem?_drop, asciiUpper, List.getElem?_map, Option.map_eq_some_iff] at hat
  exact hat

theorem getElem?_of_begins {α : Type} {l l' : List α} (h : l <+: l') {k : ℕ} (hk : k < l.length) :
    l[k]? = l'[k]? := by
  obtain ⟨rest, rfl⟩ := h
  exact (List.getElem?_append_left hk).symm

/-- What is returned of a part keeps a stop pattern exactly when no semicolon
comes before it and it is not part of the space at the end. -/
theorem keeps_stop_iff {p part : List Char} {i : ℕ} (hp : p ∈ stopPatterns)
    (h : p <+: (asciiUpper part).drop i) :
    i + p.length ≤ (upTo ';' (part.rdropWhile isSpace)).length ↔
      ¬TextCasing.Harmless part i := by
  have hpos : 0 < p.length := List.length_pos_of_ne_nil (stopPattern_ne_nil hp)
  obtain ⟨m, hm⟩ : ∃ m, i + p.length = m + 1 := ⟨i + p.length - 1, by omega⟩
  have hkept := List.rdropWhile_prefix isSpace part
  rw [hm, le_length_upTo_iff]
  constructor
  · rintro ⟨hlong, hsemi⟩ (hmem | hblank)
    · obtain ⟨j, hj, hat⟩ := mem_take_iff.mp hmem
      refine hsemi (mem_take_iff.mpr ⟨j, by omega, ?_⟩)
      rw [getElem?_of_begins hkept (by omega), hat]
    · obtain ⟨k, hk, x, hx, hspace⟩ := le_length_rdropWhile_iff.mp hlong
      have hdrop : (part.drop i)[k - i]? = some x := by
        rw [List.getElem?_drop, Nat.add_sub_cancel' (by omega), hx]
      rw [hblank x (List.mem_of_getElem? hdrop)] at hspace
      cases hspace
  · intro hharm
    obtain ⟨hsemi, hblank⟩ := not_or.mp hharm
    have hlong : m + 1 ≤ (part.rdropWhile isSpace).length := by
      rw [le_length_rdropWhile_iff]
      rcases stopPattern_space hp with hall | hlast
      · -- the pattern is space, so something else follows it
        simp only [Blank, not_forall] at hblank
        obtain ⟨x, hx, hspace⟩ := hblank
        obtain ⟨k, hk⟩ := List.mem_iff_getElem?.mp hx
        rw [List.getElem?_drop] at hk
        refine ⟨i + k, Nat.not_lt.mp fun hlt => ?_, x, hk, Bool.eq_false_iff.mpr hspace⟩
        have hkp : k < p.length := by omega
        obtain ⟨d, hd, hupper⟩ := getElem?_of_occurs h (List.getElem?_eq_getElem hkp)
        cases hk.symm.trans hd
        refine hspace ?_
        rw [← isSpace_toUpper, hupper]
        exact hall _ (List.getElem_mem hkp)
      · -- the pattern does not end in space
        have hend := List.getElem?_eq_getElem (Nat.sub_one_lt_of_lt hpos)
        obtain ⟨d, hd, hupper⟩ := getElem?_of_occurs h hend
        refine ⟨m, le_rfl, d, ?_, ?_⟩
        · rwa [show i + (p.length - 1) = m by omega] at hd
        · rw [← isSpace_toUpper, hupper]
          exact hlast _ (by rw [List.getLast?_eq_getElem?, hend])
    refine ⟨hlong, fun hmem => ?_⟩
    obtain ⟨j, hj, hat⟩ := mem_take_iff.mp hmem
    rw [getElem?_of_begins hkept (by omega)] at hat
    rcases Nat.lt_or_ge j i with hlt | hge
    · exact hsemi (mem_take_iff.mpr ⟨j, hlt, hat⟩)
    · -- a semicolon in the pattern
      obtain ⟨k, rfl⟩ : ∃ k, j = i + k := ⟨j - i, by omega⟩
      have hkp : k < p.length := by omega
      obtain ⟨d, hd, hupper⟩ := getElem?_of_occurs h (List.getElem?_eq_getElem hkp)
      cases hat.symm.trans hd
      have hsemicolon : p[k] = ';' := hupper.symm
      exact semicolon_not_mem_stopPattern hp (hsemicolon ▸ List.getElem_mem hkp)

/-- What is returned of a part has no stop pattern exactly when all in it are harmless. -/
theorem noStop_iff (part : List Char) :
    (∀ p ∈ stopPatterns, ¬p <:+: asciiUpper (upTo ';' (part.rdropWhile isSpace))) ↔
      ∀ p ∈ stopPatterns, ∀ i, p <+: (asciiUpper part).drop i → TextCasing.Harmless part i := by
  obtain ⟨kept, hkept⟩ : ∃ kept, kept = upTo ';' (part.rdropWhile isSpace) := ⟨_, rfl⟩
  have hbegins : kept <+: part := by
    rw [hkept]
    exact (upTo_begins ';' _).trans (List.rdropWhile_prefix isSpace part)
  have htake : asciiUpper kept = (asciiUpper part).take kept.length := by
    rw [asciiUpper, asciiUpper, ← List.map_take, ← List.prefix_iff_eq_take.mp hbegins]
  have hoccurs : ∀ p i, p <+: (asciiUpper kept).drop i ↔
      p <+: (asciiUpper part).drop i ∧ p.length ≤ kept.length - i := by
    intro p i
    rw [htake, List.drop_take, List.prefix_take_iff]
  rw [← hkept]
  refine forall₂_congr fun p hp => ?_
  have hpos : 0 < p.length := List.length_pos_of_ne_nil (stopPattern_ne_nil hp)
  constructor
  · intro hnone i hi
    by_contra hharm
    have hlong := (keeps_stop_iff hp hi).mpr hharm
    rw [← hkept] at hlong
    have hin : p <+: (asciiUpper kept).drop i := (hoccurs p i).mpr ⟨hi, by omega⟩
    exact hnone (hin.isInfix.trans (List.drop_suffix i _).isInfix)
  · intro hall hinfix
    obtain ⟨tail, hp', hsuffix⟩ := List.infix_iff_prefix_suffix.mp hinfix
    obtain ⟨i, rfl⟩ : ∃ i, tail = (asciiUpper kept).drop i :=
      ⟨_, List.suffix_iff_eq_drop.mp hsuffix⟩
    obtain ⟨hi, hlong⟩ := (hoccurs p i).mp hp'
    refine (keeps_stop_iff hp hi).mp ?_ (hall i hi)
    rw [← hkept]
    omega

/-- A keyword begins with a letter. -/
theorem startKeyword_head {p : List Char} (hp : p ∈ startKeywords) :
    ∃ c, p[0]? = some c ∧ isSpace c = false := by
  have hall : ∀ p ∈ startKeywords, p[0]?.any (fun c => !isSpace c) = true := by decide
  obtain ⟨c, hc, hspace⟩ := (Option.any_eq_true _ _).mp (hall p hp)
  exact ⟨c, hc, by simpa using hspace⟩

theorem startKeyword_ne_nil {p : List Char} (hp : p ∈ startKeywords) : p ≠ [] := by
  obtain ⟨c, hc, -⟩ := startKeyword_head hp
  rintro rfl
  cases hc

namespace TextCasing

variable {casing : TextCasing} {snippet text : List Char} {stop : ℕ}

/-! ### The cut -/

theorem le_minStop_iff {k : ℕ} :
    k ≤ casing.minStop snippet ↔ k ≤ snippet.length ∧
      ∀ p ∈ stopPatterns, ∀ i, findIn p (casing.upperText snippet) = some i → k ≤ i := by
  have hloop : ∀ (patterns : List (List Char)) (least : ℕ),
      k ≤ patterns.foldl (fun stop pattern =>
          match findIn pattern (casing.upperText snippet) with
          | some i => if i < stop then i else stop
          | none => stop) least ↔
        k ≤ least ∧
          ∀ p ∈ patterns, ∀ i, findIn p (casing.upperText snippet) = some i → k ≤ i := by
    intro patterns
    induction patterns with
    | nil => simp
    | cons p rest ih =>
      intro least
      rw [List.foldl_cons, ih, List.forall_mem_cons, ← and_assoc]
      refine and_congr_left fun _ => ?_
      rcases findIn p (casing.upperText snippet) with _ | i
      · simp
      · simp only [Option.some_inj, forall_eq']
        split <;> omega
  exact hloop stopPatterns snippet.length

theorem cutAt_minStop : casing.CutAt snippet (casing.minStop snippet) := by
  obtain ⟨hle, hfound⟩ := le_minStop_iff.mp (le_refl (casing.minStop snippet))
  refine ⟨hle, fun j hj p hp hat => ?_, fun hlt => ?_⟩
  · have hjle := (lt_length_of_prefix_drop (stopPattern_ne_nil hp) hat).le
    obtain ⟨i, hi⟩ := Option.ne_none_iff_exists'.mp (findIn_ne_none hjle hat)
    have hfirst := ((findIn_eq_some_iff (findIn_le_length hi)).mp hi).2
    have hij : i ≤ j := Nat.not_lt.mp fun hlt => hfirst j hlt hat
    have := hfound p hp i hi
    omega
  · by_contra hnone
    push Not at hnone
    have hmore : casing.minStop snippet + 1 ≤ casing.minStop snippet := by
      refine le_minStop_iff.mpr ⟨hlt, fun p hp i hi => ?_⟩
      have hat := ((findIn_eq_some_iff (findIn_le_length hi)).mp hi).1
      have hle := hfound p hp i hi
      have hne : casing.minStop snippet ≠ i := fun heq => hnone p hp (heq ▸ hat)
      omega
    omega

/-- The code cuts a text at its first stop pattern. -/
theorem cutAt_iff : casing.CutAt snippet stop ↔ casing.minStop snippet = stop := by
  constructor
  · intro h
    rcases lt_trichotomy (casing.minStop snippet) stop with hlt | heq | hgt
    · obtain ⟨p, hp, hat⟩ := cutAt_minStop.here (hlt.trans_le h.le)
      exact absurd hat (h.before _ hlt p hp)
    · exact heq
    · obtain ⟨p, hp, hat⟩ := h.here (hgt.trans_le cutAt_minStop.le)
      exact absurd hat (cutAt_minStop.before _ hgt p hp)
  · rintro rfl
    exact cutAt_minStop

/-! ### The part that is returned -/

/-- The part between the start and the stop, without the space before it. -/
def partAfterSpace (clean : List Char) (first stop : ℕ) : List Char :=
  ((clean.take (first + stop)).drop first).dropWhile isSpace

theorem take_drop_eq (clean : List Char) (first stop : ℕ) :
    (clean.drop first).take stop = (clean.take (first + stop)).drop first := by
  rw [List.drop_take, Nat.add_sub_cancel_left]

theorem extractSql_eq {first : ℕ} (hsql : casing.searchFence sqlFence text = none)
    (hplain : casing.searchFence plainFence text = none)
    (hfirst : FirstAt startKeywords (casing.upperText (strip text)) first)
    (hcut : casing.CutAt ((strip text).drop first) stop) :
    casing.extractSql text =
      upTo ';' ((partAfterSpace (strip text) first stop).rdropWhile isSpace) := by
  have hearliest := (earliest_eq_some_iff fun p hp => startKeyword_ne_nil hp).mpr hfirst
  unfold extractSql
  rw [hsql, hplain]
  simp only [hearliest]
  refine (upTo_strip _).trans ?_
  rw [cutAt_iff.mp hcut, take_drop_eq]
  rfl

theorem extractStart_eq_some_iff {start : ℕ} :
    casing.extractStart text = some start ↔
      ∃ first stop, FirstAt startKeywords (casing.upperText (strip text)) first ∧
        casing.CutAt ((strip text).drop first) stop ∧
        first + ((((strip text).take (first + stop)).drop first).takeWhile isSpace).length =
          start := by
  simp only [extractStart, Option.map_eq_some_iff, take_drop_eq, cutAt_iff,
    earliest_eq_some_iff fun p hp => startKeyword_ne_nil hp]
  constructor
  · rintro ⟨first, hfirst, hstart⟩
    exact ⟨first, _, hfirst, rfl, hstart⟩
  · rintro ⟨first, stop, hfirst, rfl, hstart⟩
    exact ⟨first, hfirst, hstart⟩

/-- A keyword begins where there is no space. -/
theorem isSpace_at_start {clean : List Char} {start : ℕ}
    (hstart : FirstAt startKeywords (asciiUpper clean) start) :
    ∃ c, clean[start]? = some c ∧ isSpace c = false := by
  obtain ⟨⟨p, hp, hat⟩, -⟩ := hstart
  obtain ⟨c, hc, hspace⟩ := startKeyword_head hp
  obtain ⟨d, hd, hupper⟩ := getElem?_of_occurs hat hc
  exact ⟨d, hd, by rw [← isSpace_toUpper, hupper, hspace]⟩

theorem dropWhile_eq_drop (l : List Char) :
    l.dropWhile isSpace = l.drop (l.takeWhile isSpace).length := by
  calc l.dropWhile isSpace
      = (l.takeWhile isSpace ++ l.dropWhile isSpace).drop (l.takeWhile isSpace).length :=
        List.drop_left.symm
    _ = l.drop (l.takeWhile isSpace).length := by rw [List.takeWhile_append_dropWhile]

/-- Where the space in front ends. -/
theorem length_takeWhile_iff {l : List Char} {n : ℕ} {c : Char} (hc : l[n]? = some c)
    (hspace : isSpace c = false) : (l.takeWhile isSpace).length = n ↔ Blank (l.take n) := by
  constructor
  · rintro rfl d hd
    rw [← List.prefix_iff_eq_take.mp (List.takeWhile_prefix isSpace)] at hd
    exact List.mem_takeWhile_imp hd
  · intro hblank
    have hlt : n < l.length := (List.getElem?_eq_some_iff.mp hc).1
    have hdrop : l.drop n = c :: l.drop (n + 1) := by
      rw [List.drop_eq_getElem_cons hlt, (List.getElem?_eq_some_iff.mp hc).2]
    have hfront : l.takeWhile isSpace = l.take n := by
      conv_lhs => rw [← List.take_append_drop n l, hdrop]
      rw [List.takeWhile_append_of_pos hblank, List.takeWhile_cons_of_neg (by simp [hspace]),
        List.append_nil]
    rw [hfront, List.length_take, Nat.min_eq_left hlt.le]

/-- The part begins at a character when only space is before it. -/
theorem lead_eq_iff {clean : List Char} {first start : ℕ} {c : Char} (hle : first ≤ start)
    (hlt : start < first + stop) (hc : clean[start]? = some c) (hspace : isSpace c = false) :
    first + (((clean.take (first + stop)).drop first).takeWhile isSpace).length = start ↔
      Blank ((clean.take start).drop first) := by
  have hat : ((clean.take (first + stop)).drop first)[start - first]? = some c := by
    rw [List.getElem?_drop, Nat.add_sub_cancel' hle, List.getElem?_take_of_lt hlt, hc]
  have htake : ((clean.take (first + stop)).drop first).take (start - first) =
      (clean.take start).drop first := by
    rw [take_drop_eq, Nat.add_sub_cancel' hle, List.take_take, Nat.min_eq_left hlt.le]
  rw [← htake, ← length_takeWhile_iff hat hspace]
  omega

theorem partAfterSpace_eq {clean : List Char} {first start : ℕ}
    (hlead : first + (((clean.take (first + stop)).drop first).takeWhile isSpace).length =
      start) :
    partAfterSpace clean first stop = (clean.take (first + stop)).drop start := by
  rw [partAfterSpace, dropWhile_eq_drop, List.drop_drop, hlead]

theorem ExtractsStatement.indicesAgree {start : ℕ}
    (hsql : casing.searchFence sqlFence text = none)
    (hplain : casing.searchFence plainFence text = none)
    (hstart : FirstAt startKeywords (asciiUpper (strip text)) start)
    (h : casing.ExtractsStatement text start) : casing.IndicesAgree (strip text) start := by
  obtain ⟨c, hc, hspace⟩ := isSpace_at_start hstart
  obtain ⟨first, stop, hfirst, hcut, hlead⟩ := extractStart_eq_some_iff.mp h.start_eq
  have hpart := extractSql_eq hsql hplain hfirst hcut
  rw [partAfterSpace_eq hlead] at hpart
  have hle : first ≤ start := hlead ▸ Nat.le_add_right _ _
  have hlt : start < first + stop := by
    by_contra hge
    refine h.nonempty ?_
    rw [hpart, List.drop_of_length_le]
    · rfl
    · rw [List.length_take]
      omega
  refine ⟨first, stop, hfirst, hcut, hle, hlt, (lead_eq_iff hle hlt hc hspace).mp hlead, ?_⟩
  rw [← noStop_iff, ← hpart]
  exact h.noStop

theorem IndicesAgree.extractsStatement {start : ℕ}
    (hsql : casing.searchFence sqlFence text = none)
    (hplain : casing.searchFence plainFence text = none)
    (hstart : FirstAt startKeywords (asciiUpper (strip text)) start)
    (h : casing.IndicesAgree (strip text) start) : casing.ExtractsStatement text start := by
  obtain ⟨c, hc, hspace⟩ := isSpace_at_start hstart
  obtain ⟨first, stop, hfirst, hcut, hle, hlt, hblank, hharm⟩ := h
  have hlead := (lead_eq_iff hle hlt hc hspace).mpr hblank
  have hpart := extractSql_eq hsql hplain hfirst hcut
  rw [partAfterSpace_eq hlead] at hpart
  refine ⟨extractStart_eq_some_iff.mpr ⟨first, stop, hfirst, hcut, hlead⟩, ?_, ?_, ?_, ?_⟩
  · rw [hpart, List.drop_take]
    exact (upTo_begins ';' _).trans
      ((List.rdropWhile_prefix isSpace _).trans (List.take_prefix _ _))
  · -- the character at the start is kept
    refine List.ne_nil_of_length_pos ?_
    rw [hpart]
    refine le_length_upTo_iff.mpr ⟨le_length_rdropWhile_iff.mpr ⟨0, le_rfl, c, ?_, hspace⟩, ?_⟩
    · rw [List.getElem?_drop, Nat.add_zero, List.getElem?_take_of_lt hlt, hc]
    · rw [List.take_zero]
      exact List.not_mem_nil
  · rw [hpart]
    exact (noStop_iff _).mpr hharm
  · intro i hi
    rw [hpart] at hi ⊢
    exact eq_last_of_upTo hi

/-- The statement is what it should be exactly when the places in the
upper-case copy are, but for space, those in the text. -/
theorem extractsStatement_iff {start : ℕ} (hsql : casing.searchFence sqlFence text = none)
    (hplain : casing.searchFence plainFence text = none)
    (hstart : FirstAt startKeywords (asciiUpper (strip text)) start) :
    casing.ExtractsStatement text start ↔ casing.IndicesAgree (strip text) start :=
  ⟨fun h => h.indicesAgree hsql hplain hstart,
    fun h => h.extractsStatement hsql hplain hstart⟩

/-- Upper case of ASCII letters, and of `ß`. -/
def eszett : TextCasing where
  upper c := if c = 'ß' then ['S', 'S'] else [c.toUpper]
  ignoring c d := c.toUpper == d.toUpper
  upper_ascii c hc := if_neg fun h => by subst h; exact absurd hc (by decide)
  ignoring_ascii _ _ _ _ := rfl

theorem extractsStatement_select :
    eszett.ExtractsStatement "select 1;".toList 0 ↔
      eszett.IndicesAgree (strip "select 1;".toList) 0 :=
  extractsStatement_iff (by decide) (by decide) ⟨by decide, by decide⟩

/-- The `ß` is two letters in the copy, so the `S` of `SELECT` is left out. -/
theorem select_after_eszett :
    eszett.searchFence sqlFence "ß SELECT 1".toList = none ∧
      eszett.searchFence plainFence "ß SELECT 1".toList = none ∧
      FirstAt startKeywords (asciiUpper (strip "ß SELECT 1".toList)) 2 ∧
      eszett.extractSql "ß SELECT 1".toList = "ELECT 1".toList ∧
      ¬eszett.ExtractsStatement "ß SELECT 1".toList 2 := by
  have hsql : eszett.extractSql "ß SELECT 1".toList = "ELECT 1".toList := by decide
  refine ⟨by decide, by decide, ⟨by decide, by decide⟩, hsql, fun h => ?_⟩
  have hpart := h.part
  rw [hsql] at hpart
  exact absurd hpart (by decide)

/-! ### Texts where only ASCII letters change -/

theorem upperText_eq {clean : List Char} (hsame : ∀ c ∈ clean, casing.upper c = [c.toUpper]) :
    casing.upperText clean = asciiUpper clean := by
  induction clean with
  | nil => rfl
  | cons c cs ih =>
    rw [upperText, List.flatMap_cons, hsame c List.mem_cons_self]
    exact congrArg (c.toUpper :: ·) (ih fun d hd => hsame d (List.mem_cons_of_mem _ hd))

theorem mem_of_mem_strip {c : Char} (h : c ∈ strip text) : c ∈ text :=
  (List.dropWhile_sublist isSpace).mem
    ((List.rdropWhile_prefix isSpace (text.dropWhile isSpace)).mem h)

/-- No stop pattern begins as a keyword does. -/
theorem stop_ne_start {p q : List Char} (hp : p ∈ stopPatterns) (hq : q ∈ startKeywords) :
    p[0]? ≠ q[0]? := by
  have hall : ∀ p ∈ stopPatterns, ∀ q ∈ startKeywords, p[0]? ≠ q[0]? := by decide
  exact hall p hp q hq

/-- Then the places are the same. -/
theorem indicesAgree_of_upper {clean : List Char} {start : ℕ}
    (hsame : ∀ c ∈ clean, casing.upper c = [c.toUpper])
    (hstart : FirstAt startKeywords (asciiUpper clean) start) :
    casing.IndicesAgree clean start := by
  have hcut : casing.CutAt (clean.drop start) (casing.minStop (clean.drop start)) := cutAt_minStop
  obtain ⟨stop, hstop⟩ : ∃ stop, stop = casing.minStop (clean.drop start) := ⟨_, rfl⟩
  rw [← hstop] at hcut
  have hupper : casing.upperText (clean.drop start) = (asciiUpper clean).drop start := by
    rw [upperText_eq fun c hc => hsame c (List.mem_of_mem_drop hc), asciiUpper, asciiUpper,
      List.map_drop]
  refine ⟨start, stop, by rwa [upperText_eq hsame], hcut, le_rfl, ?_, ?_, ?_⟩
  · -- no stop pattern is where the keyword is
    refine Nat.lt_add_of_pos_right (Nat.pos_of_ne_zero fun hzero => ?_)
    obtain ⟨q, hq, hqat⟩ := hstart.1
    have hlt := lt_length_of_prefix_drop (startKeyword_ne_nil hq) hqat
    rw [asciiUpper, List.length_map] at hlt
    obtain ⟨p, hp, hpat⟩ := hcut.here (by rw [hzero, List.length_drop]; omega)
    rw [hupper, hzero, List.drop_zero] at hpat
    refine stop_ne_start hp hq ?_
    rw [getElem?_of_begins hpat (List.length_pos_of_ne_nil (stopPattern_ne_nil hp)),
      getElem?_of_begins hqat (List.length_pos_of_ne_nil (startKeyword_ne_nil hq))]
  · rw [List.drop_of_length_le (List.length_take_le _ _)]
    exact fun c hc => absurd hc List.not_mem_nil
  · -- no stop pattern is before the cut
    intro p hp i hi
    have htake : asciiUpper ((clean.take (start + stop)).drop start) =
        ((asciiUpper clean).drop start).take stop := by
      rw [← take_drop_eq, asciiUpper, asciiUpper, List.map_take, List.map_drop]
    rw [htake, List.drop_take] at hi
    have hlt : i < stop := by
      have hpos := List.length_pos_of_ne_nil (stopPattern_ne_nil hp)
      have hle := hi.length_le.trans (List.length_take_le _ _)
      omega
    refine absurd (hi.trans (List.take_prefix _ _)) ?_
    rw [← hupper]
    exact hcut.before i hlt p hp

/-- Then the statement is what it should be. -/
theorem extractsStatement_of_upper {start : ℕ}
    (hsql : casing.searchFence sqlFence text = none)
    (hplain : casing.searchFence plainFence text = none)
    (hstart : FirstAt startKeywords (asciiUpper (strip text)) start)
    (hsame : ∀ c ∈ text, casing.upper c = [c.toUpper]) : casing.ExtractsStatement text start :=
  (indicesAgree_of_upper (fun c hc => hsame c (mem_of_mem_strip hc)) hstart).extractsStatement
    hsql hplain hstart

/-- It is for ASCII texts. -/
theorem extractsStatement_ascii {start : ℕ} (hsql : casing.searchFence sqlFence text = none)
    (hplain : casing.searchFence plainFence text = none)
    (hstart : FirstAt startKeywords (asciiUpper (strip text)) start)
    (hascii : ∀ c ∈ text, c.toNat < 128) : casing.ExtractsStatement text start :=
  extractsStatement_of_upper hsql hplain hstart fun c hc => casing.upper_ascii c (hascii c hc)

end TextCasing
